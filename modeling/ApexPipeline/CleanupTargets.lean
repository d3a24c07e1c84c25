import ApexPipeline.CleanupSteps

/-! Which directories and branches a clean-up takes away. -/
namespace ApexPipeline.Cleanup
open TextScanning List

/-- A work tree that may go: its branch is neither protected nor active and counts as merged, and it is clean. -/
def Eligible (env : Environment) (world : World) (row : Nat × Worktree) : Prop :=
  row.1 = env.site.repo ∧ ∃ branch, row.2.branch = some branch ∧ branch ∉ protectedBranches ∧ env.active branch = false ∧
    isMergedToMain env .worktrees world env.site branch = true ∧ row.2.dirty = false

/-- A directory whose removal hurts nobody. -/
structure Spares (env : Environment) (world : World) (path : Path) : Prop where
  trees : ∀ row ∈ world.trees, row.2.path ∈ world.dirs → path <+: row.2.path → Eligible env world row
  repos : ∀ repo ∈ world.repos, repo.main.path ∈ world.dirs → ¬path <+: repo.main.path
  cwd : ¬path <+: env.cwd

/-- The work tree that a removal was decided for: it is at that path and on that branch, and what the code took for
its status is its status. -/
def Seen (env : Environment) (world : World) : Event → Nat × Worktree → Prop
  | .worktree path branch,row => row.1 = env.site.repo ∧ row.2.path = path ∧ row.2.branch = some branch ∧
    isDirtyWorktree env world path = row.2.dirty
  | _,_ => False

instance (env : Environment) (world : World) : (event : Event) → (row : Nat × Worktree) → Decidable (Seen env world event row)
  | .worktree .. ,_ => inferInstanceAs (Decidable (_ ∧ _))
  | .localBranch .. ,_ | .emptyDir _,_ | .remote _,_ => inferInstanceAs (Decidable False)

/-- The current directory is not in a directory that is removed; before the removal of a work tree, where the code asks
that itself, only a name with two dots in front can mislead it. -/
def Outside (env : Environment) (path : Path) : Event → Prop
  | .worktree .. => path <+: env.cwd → ∀ name ∈ env.cwd, ['.','.'].isPrefixOf name.toList = false
  | _ => ¬path <+: env.cwd

instance (env : Environment) (path : Path) : (event : Event) → Decidable (Outside env path event)
  | .worktree .. => inferInstanceAs (Decidable (_ → _))
  | .localBranch .. | .emptyDir _ | .remote _ => inferInstanceAs (Decidable (¬_))

/-- A directory in which the code has seen all there is: at most the work tree that the removal was decided for, no
repository, and not the current directory. -/
def Fits (env : Environment) (world : World) (event : Event) (path : Path) : Prop :=
  (∀ row ∈ world.trees, row.2.path ∈ world.dirs → path <+: row.2.path → Seen env world event row) ∧
  (∀ repo ∈ world.repos, repo.main.path ∈ world.dirs → ¬path <+: repo.main.path) ∧ Outside env path event

instance (env : Environment) (world : World) (event : Event) (path : Path) : Decidable (Fits env world event path) :=
  inferInstanceAs (Decidable (_ ∧ _))

variable {env : Environment} {execute : Bool} {world : World} {event : Event} {path : Path} {row : Nat × Worktree}

section
variable (allowed : Allowed env world event)
include allowed

theorem Allowed.eligible (seen : Seen env world event row) : Eligible env world row := by
  cases allowed with
  | worktree free _ idle merged clean =>
    obtain ⟨site,_,onto,status⟩ := seen
    exact ⟨site,_,onto,free,idle,merged,status ▸ clean⟩
  | localBranch | emptyDir | remote => exact seen.elim

theorem Allowed.outside (removed : path ∈ event.directories) (outside : Outside env path event) : ¬path <+: env.cwd := by
  cases allowed with
  | worktree _ apart =>
    obtain rfl := mem_singleton.mp removed
    intro inside
    rw [← isSubPath_iff (outside inside),apart] at inside
    cases inside
  | localBranch | emptyDir | remote => exact outside

theorem Allowed.spares (removed : path ∈ event.directories) (fits : Fits env world event path) : Spares env world path where
  trees row member there inside := allowed.eligible (fits.1 row member there inside)
  repos := fits.2.1
  cwd := allowed.outside removed fits.2.2

end

/-- Where nothing goes that has to stay, the code has seen all there is, up to work trees that may go as well. -/
theorem Spares.fits (spares : Spares env world path) :
    Fits env world event path ∨
      ∃ row ∈ world.trees, row.2.path ∈ world.dirs ∧ path <+: row.2.path ∧ Eligible env world row ∧
        ¬Seen env world event row := by
  by_cases seen : ∀ row ∈ world.trees, row.2.path ∈ world.dirs → path <+: row.2.path → Seen env world event row
  · refine .inl ⟨seen,spares.repos,?_⟩
    cases event with
    | worktree => exact fun inside => absurd inside spares.cwd
    | localBranch | emptyDir | remote => exact spares.cwd
  · simp only [not_forall] at seen
    obtain ⟨row,member,there,inside,unseen⟩ := seen
    exact .inr ⟨row,member,there,inside,spares.trees row member there inside,unseen⟩

/-- A removal of a branch by name: never a protected or an active one, and no local one that a work tree is on. -/
def Unused (env : Environment) (world : World) : Event → Prop
  | .localBranch index branch _ => branch ∉ protectedBranches ∧ env.active branch = false ∧
    ∀ repo ∈ world.repos[index]?, repo.checkedOut branch = false
  | .remote branch => branch ∉ protectedBranches ∧ env.active branch = false
  | _ => True

theorem Allowed.unused (allowed : Allowed env world event) : Unused env world event := by
  cases allowed with
  | worktree | emptyDir => trivial
  | localBranch free idle _ known _ unused =>
    refine ⟨free,idle,fun repo found => ?_⟩
    rw [known,Option.mem_some_iff] at found
    exact found ▸ unused
  | remote free idle => exact ⟨free,idle⟩

end ApexPipeline.Cleanup
