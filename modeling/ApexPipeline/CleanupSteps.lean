import ApexPipeline.BranchCleanup

/-! What a clean-up can do next, whichever phase it is in. -/
namespace ApexPipeline.Cleanup
open TextScanning Relation List
open Backlog (isSpace trimSpace)

/-- The removals that the code decides on, with what it checked before. -/
inductive Allowed (env : Environment) (world : World) : Event → Prop
  | worktree {path : Path} {branch : String} (free : branch ∉ protectedBranches) (outside : isSubPath env.cwd path = false)
      (idle : env.active branch = false) (merged : isMergedToMain env .worktrees world env.site branch = true)
      (clean : isDirtyWorktree env world path = false) : Allowed env world (.worktree path branch)
  | localBranch {phase : Phase} {site : Site} {repo : Repo} {branch : String} {residual : List Path}
      (free : branch ∉ protectedBranches) (idle : env.active branch = false)
      (merged : isMergedToMain env phase world site branch = true) (known : world.repos[site.repo]? = some repo)
      (present : (repo.heads.lookup branch).isSome) (unused : repo.checkedOut branch = false)
      (left : ∀ dir ∈ residual, site.repo = env.site.repo ∧ dir ∈ residualDirs env branch ∧ dir ∈ world.dirs) :
      Allowed env world (.localBranch site.repo branch residual)
  | emptyDir {path : Path} (proper : path ≠ []) (child : path.dropLast = worktreesRoot env)
      (there : path ∈ world.dirs) (empty : world.isEmpty path = true) : Allowed env world (.emptyDir path)
  | remote {branch : String} (free : branch ∉ protectedBranches) (idle : env.active branch = false)
      (merged : isMergedToMain env .remotes world env.site ("origin/" ++ branch) = true) :
      Allowed env world (.remote branch)

/-- One step: something is noted in the result, the tracking branches are pruned or something is removed. -/
inductive Act (env : Environment) (execute : Bool) : Progress → Progress → Prop
  | note {run next : Progress} (world : next.world = run.world) (log : next.log = run.log) : Act env execute run next
  | prune {run : Progress} (asked : execute = true) : Act env execute run (run.prune env)
  | emit {run : Progress} {event : Event} (asked : execute = true) (allowed : Allowed env run.world event) :
      Act env execute run (run.emit env event)

abbrev Acts (env : Environment) (execute : Bool) : Progress → Progress → Prop :=
  ReflTransGen (Act env execute)

variable {env : Environment} {execute : Bool} {world : World} {run next : Progress} {event : Event} {site : Site}
  {phase : Phase} {command : Command} {repo : Repo}

theorem Acts.note (world : next.world = run.world) (log : next.log = run.log) : Acts env execute run next :=
  .single (.note world log)

theorem Acts.emit (asked : execute = true) (allowed : Allowed env run.world event)
    (world : next.world = (run.emit env event).world) (log : next.log = (run.emit env event).log) :
    Acts env execute run next :=
  (ReflTransGen.single (.emit asked allowed)).tail (.note world log)

theorem runGit_ok (answered : runGit env phase world site command = .ok repo) :
    world.repos[site.repo]? = some repo := by
  unfold runGit at answered
  split at answered
  · cases answered
  split at answered
  · cases answered
  rename_i found
  split at answered <;> cases answered
  exact found

section
variable (run : Progress)

end

end ApexPipeline.Cleanup
