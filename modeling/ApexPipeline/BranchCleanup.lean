import ApexPipeline.Backlog
import ApexPipeline.TextScanning
import ApexPipeline.VersionGraph

/-! `internal/cleanup`: the removal of merged work trees and branches, over the part of git, of the file system and
of the pull requests that it asks. Every removal is logged with the world it was decided in. -/
namespace ApexPipeline.Cleanup
open TextScanning
open Backlog (isSpace trimSpace)

abbrev Path := List String

structure Entry where
  mode : Nat
  blob : Nat
  deriving DecidableEq

/-- `squashes` is the branch tip whose changes a squash merge applied. -/
structure Commit where
  parents : List Nat
  tree : List (String × Entry)
  squashes : Option Nat

/-- Commits are numbered after their parents. -/
structure History where
  commits : List Commit
  ordered : ∀ row ∈ commits.zipIdx, ∀ parent ∈ row.1.parents, parent < row.2

def History.graph (history : History) : VersionGraph where
  parents version := ((history.commits[version]?).map Commit.parents).getD []
  ordered := by
    intro version parent member
    cases found : history.commits[version]? with
    | none => simp [found] at member
    | some commit =>
      simp only [found,Option.map_some,Option.getD_some] at member
      exact history.ordered (commit,version) (List.mem_zipIdx_iff_getElem?.mpr found) parent member

def History.entry (history : History) (version : Nat) (file : String) : Option Entry :=
  (history.commits[version]?).bind fun commit => commit.tree.lookup file

def History.files (history : History) (version : Nat) : List String :=
  ((history.commits[version]?).map fun commit => commit.tree.map Prod.fst).getD []

/-- A pull request: the names of its head and its base, whether it was merged, what was merged and the commit that did
it. -/
structure PullRequest where
  head : String
  base : String
  merged : Bool
  tip : Nat
  commit : Nat

/-- `place` is the path as git prints it; `dirty` whether `git status --porcelain` prints anything there. -/
structure Worktree where
  place : List Char
  branch : Option String
  dirty : Bool
  locked : Bool
  deriving DecidableEq

def Worktree.path (tree : Worktree) : Path := components tree.place

/-- `shadows` are the names that git finds before it looks among the branches, such as tags; `remotes` the
remote-tracking branches with the name of their remote. -/
structure Repo where
  url : String
  heads : List (String × Nat)
  shadows : List (String × Nat)
  remotes : List (String × Nat)
  main : Worktree
  linked : List Worktree

namespace Repo

def worktrees (repo : Repo) : List Worktree := repo.main :: repo.linked

def gitDir (repo : Repo) : Path := repo.main.path ++ [".git"]

/-- The order of `git rev-parse`. -/
def resolve (repo : Repo) (name : String) : Option Nat :=
  repo.shadows.lookup name <|> (cut "heads/" name).bind (fun branch => repo.heads.lookup branch) <|> repo.heads.lookup name <|>
    repo.remotes.lookup name

def checkedOut (repo : Repo) (branch : String) : Bool := repo.worktrees.any fun tree => tree.branch = some branch

def shown (repo : Repo) (branch : String) : String :=
  if (repo.shadows.lookup branch).isSome then "heads/" ++ branch else branch

end Repo

structure World where
  repos : List Repo
  origin : List (String × Nat)
  dirs : List Path
  files : List Path

namespace World

def holds (world : World) (path : Path) : Bool := path ∈ world.dirs ∨ path ∈ world.files

def removeAll (world : World) (path : Path) : World :=
  ⟨world.repos,world.origin,world.dirs.filter fun dir => ¬path <+: dir,world.files.filter fun file => ¬path <+: file⟩

def edit (world : World) (repo : Nat) (change : Repo → Repo) : World :=
  ⟨world.repos.modify repo change,world.origin,world.dirs,world.files⟩

def trees (world : World) : List (Nat × Worktree) :=
  world.repos.zipIdx.flatMap fun row => row.1.worktrees.map fun tree => (row.2,tree)

def treeAt (world : World) (path : Path) : Option (Nat × Worktree) :=
  if path ∈ world.dirs ∧ world.holds (path ++ [".git"]) then world.trees.find? fun row => row.2.path = path else none

def enclosing (world : World) (path : Path) : Option (Nat × Worktree) :=
  path.reverse.tails.findSome? fun upwards => world.treeAt upwards.reverse

def children (world : World) (path : Path) : List Path := world.dirs.filter fun dir => dir ≠ [] ∧ dir.dropLast = path

def isEmpty (world : World) (path : Path) : Bool :=
  (world.dirs ++ world.files).all fun entry => entry = [] ∨ entry.dropLast ≠ path

end World

inductive Phase where | refresh | worktrees | locals | empties | remotes | copies
  deriving DecidableEq

/-- What the clean-up asks of other programs and of the file system. -/
inductive Command where
  | fetch
  | worktreeList
  | status (dir : Path)
  | worktreeRemove (dir : Path)
  | removeAll (dir : Path)
  | readDir (dir : Path)
  | branches (dir : Path)
  | branchDelete (dir : Path) (branch : String)
  | remotePrune
  | remoteBranches
  | push (branch : String)
  | isAncestor (dir : Path) (branch : String)
  | prList (branch : String)
  | mergeBase (dir : Path) (branch : String)
  | diff (dir : Path) (branch : String)
  | revParse (dir : Path) (branch : String) (file : List Char)
  | originURL (dir : Path)
  deriving DecidableEq

/-- A directory that git is called in, the repository it belongs to and the top directory of its work tree. -/
structure Site where
  dir : Path
  repo : Nat
  tree : Path

/-- What a run does not change. `renamed` tells which vanished files a comparison reports as the source of a rename,
`printed` how git prints a file name, and `failure` which commands fail, with the text of the error. -/
structure Environment where
  history : History
  pulls : List PullRequest
  gh : Bool
  renamed : Nat → Nat → String → Bool
  printed : String → List Char
  failure : Phase → Command → Option String
  site : Site
  cwd : Path
  active : String → Bool

def protectedBranches : List String := ["main","master","gh-pages"]

/-- A git command in a directory: the repository it works on, or the text of the error. -/
def runGit (env : Environment) (phase : Phase) (world : World) (site : Site) (command : Command) : Except String Repo :=
  match env.failure phase command with
  | some failure => .error failure
  | none =>
    match world.repos[site.repo]? with
    | none => .error "exit status 128"
    | some repo => if site.dir ∈ world.dirs ∧ world.holds repo.gitDir then .ok repo else .error "exit status 128"

def differs (history : History) (base tip : Nat) (file : String) : Bool := history.entry base file ≠ history.entry tip file

/-- `git diff --name-only`: the source of a rename is not named. -/
def changedFiles (env : Environment) (base tip : Nat) : List (List Char) :=
  let files := (env.history.files base ++ env.history.files tip).dedup
  let named := files.filter fun file =>
    differs env.history base tip file ∧ ¬(env.history.entry tip file = none ∧ env.renamed base tip file)
  (trimSpace (named.flatMap fun file => env.printed file ++ ['\n'])).splitOn '\n'

/-- `git rev-parse commit:file`. -/
def blob (history : History) (version : Nat) (file : List Char) : Option Nat :=
  (history.entry version (String.ofList file)).map Entry.blob

def sameBlob (env : Environment) (phase : Phase) (site : Site) (branch : String) (tip main : Nat) (file : List Char) : Bool :=
  file = [] ∨ ((env.failure phase (.revParse site.dir branch file)).isNone ∧
    (env.failure phase (.revParse site.dir "origin/main" file)).isNone ∧
    (blob env.history tip file).isSome ∧ blob env.history tip file = blob env.history main file)

def blobHashMatch (env : Environment) (phase : Phase) (world : World) (site : Site) (branch : String) : Bool :=
  match runGit env phase world site (.mergeBase site.dir branch),runGit env phase world site (.diff site.dir branch) with
  | .ok repo,.ok _ =>
    match repo.resolve branch,repo.resolve "origin/main" with
    | some tip,some main =>
      match env.history.graph.mergeBase tip main with
      | none => false
      | some base =>
        let files := changedFiles env base tip
        files ≠ [[]] ∧ files.all (sameBlob env phase site branch tip main)
    | _,_ => false
  | _,_ => false

def isAncestorOfMain (env : Environment) (phase : Phase) (world : World) (site : Site) (branch : String) : Bool :=
  match runGit env phase world site (.isAncestor site.dir branch) with
  | .error _ => false
  | .ok repo =>
    match repo.resolve branch,repo.resolve "main" with
    | some tip,some main => env.history.graph.isAncestor tip main
    | _,_ => false

/-- The pull requests are those of the process's own directory, whatever the repository is. -/
def hasMergedPull (env : Environment) (phase : Phase) (name : String) : Bool :=
  env.gh ∧ (env.failure phase (.prList name)).isNone ∧ env.pulls.any fun pull => pull.merged ∧ pull.head = name

/-- `strings.TrimPrefix(branch, "origin/")`. -/
def ghBranch (branch : String) : String := (cut "origin/" branch).getD branch

def isMergedToMain (env : Environment) (phase : Phase) (world : World) (site : Site) (branch : String) : Bool :=
  isAncestorOfMain env phase world site branch || hasMergedPull env phase (ghBranch branch) ||
    blobHashMatch env phase world site branch

/-- One removal: a work tree, a local branch with the residual directories it is thought to have left, an empty
directory or a branch of the server. -/
inductive Event where
  | worktree (path : Path) (branch : String)
  | localBranch (repo : Nat) (branch : String) (residual : List Path)
  | emptyDir (path : Path)
  | remote (branch : String)
  deriving DecidableEq

def Event.directories : Event → List Path
  | .worktree path _ => [path]
  | .localBranch _ _ residual => residual
  | .emptyDir path => [path]
  | .remote _ => []

def dropName (name : String) (refs : List (String × Nat)) : List (String × Nat) := refs.filter fun ref => ref.1 ≠ name

def Repo.dropHead (branch : String) (repo : Repo) : Repo :=
  ⟨repo.url,dropName branch repo.heads,repo.shadows,repo.remotes,repo.main,repo.linked⟩

def Repo.dropRemote (name : String) (repo : Repo) : Repo :=
  ⟨repo.url,repo.heads,repo.shadows,dropName name repo.remotes,repo.main,repo.linked⟩

def Repo.unregister (path : Path) (repo : Repo) : Repo :=
  ⟨repo.url,repo.heads,repo.shadows,repo.remotes,repo.main,repo.linked.filter fun tree => tree.path ≠ path⟩

/-- The tracking branches of `origin` replaced by what the server has, and those it has no more dropped. -/
def Repo.track (origin : List (String × Nat)) (repo : Repo) : Repo :=
  ⟨repo.url,repo.heads,repo.shadows,
    origin.map (fun ref => ("origin/" ++ ref.1,ref.2)) ++ repo.remotes.filter (fun ref => (cut "origin/" ref.1).isNone),
    repo.main,repo.linked⟩

def onServer (origin : List (String × Nat)) (name : String) : Bool :=
  match cut "origin/" name with
  | none => true
  | some branch => (origin.lookup branch).isSome

def Repo.prune (origin : List (String × Nat)) (repo : Repo) : Repo :=
  ⟨repo.url,repo.heads,repo.shadows,repo.remotes.filter fun ref => onServer origin ref.1,repo.main,repo.linked⟩

/-- `git worktree remove --force` takes away a linked work tree that is not locked. -/
def worktreeRemoves (env : Environment) (world : World) (path : Path) : Bool :=
  match runGit env .worktrees world env.site (.worktreeRemove path) with
  | .error _ => false
  | .ok repo => repo.linked.any fun tree => tree.path = path ∧ ¬tree.locked

def removeDir (env : Environment) (phase : Phase) (world : World) (path : Path) : World :=
  if (env.failure phase (.removeAll path)).isSome then world else world.removeAll path

/-- What a removal does. Where git does not remove a work tree, its directory is removed all the same. -/
def apply (env : Environment) (world : World) : Event → World
  | .worktree path _ =>
    if worktreeRemoves env world path then (world.removeAll path).edit env.site.repo (Repo.unregister path)
    else removeDir env .worktrees world path
  | .localBranch repo branch residual => residual.foldl (removeDir env .locals) (world.edit repo (Repo.dropHead branch))
  | .emptyDir path => removeDir env .empties world path
  | .remote branch =>
    let world := world.edit env.site.repo (Repo.dropRemote ("origin/" ++ branch))
    ⟨world.repos,dropName branch world.origin,world.dirs,world.files⟩

structure Action where
  target : String
  branch : String
  done : Bool

structure Result where
  worktrees : List Action
  localBranches : List Action
  emptyDirs : List Action
  remote : List Action
  copies : List Action
  warnings : List String

structure Progress where
  world : World
  result : Result
  dirty : List String
  log : List (World × Event)

namespace Progress

def warn (run : Progress) (text : String) : Progress :=
  { run with result := { run.result with warnings := run.result.warnings ++ [text] } }

def markDirty (run : Progress) (branch : String) : Progress := { run with dirty := branch :: run.dirty }

def emit (env : Environment) (run : Progress) (event : Event) : Progress :=
  { run with world := apply env run.world event, log := run.log ++ [(run.world,event)] }

def worktree (run : Progress) (action : Action) : Progress :=
  { run with result := { run.result with worktrees := run.result.worktrees ++ [action] } }

def localBranch (run : Progress) (action : Action) : Progress :=
  { run with result := { run.result with localBranches := run.result.localBranches ++ [action] } }

def emptyDir (run : Progress) (action : Action) : Progress :=
  { run with result := { run.result with emptyDirs := run.result.emptyDirs ++ [action] } }

def remote (run : Progress) (action : Action) : Progress :=
  { run with result := { run.result with remote := run.result.remote ++ [action] } }

def copy (run : Progress) (action : Action) : Progress :=
  { run with result := { run.result with copies := run.result.copies ++ [action] } }

end Progress

def pathText (path : Path) : String := "/" ++ "/".intercalate path

def worktreeLine (world : World) (repo : Repo) (tree : Worktree) : List Char :=
  let head := match tree.branch with
    | some branch => "[" ++ repo.shown branch ++ "]"
    | none => "(detached HEAD)"
  let note := if tree.locked then " locked" else if tree.path ∈ world.dirs then "" else " prunable"
  tree.place ++ ("  0000000 " ++ head ++ note).toList

def worktreeLines (world : World) (repo : Repo) : List (List Char) :=
  repo.worktrees.flatMap fun tree => (worktreeLine world repo tree).splitOn '\n'

def parseWorktreeLine (line : List Char) : List Char × String := (firstField isSpace line,String.ofList (bracketed line))

/-- A directory that is missing or whose status is not known counts as clean. -/
def isDirtyWorktree (env : Environment) (world : World) (path : Path) : Bool :=
  if world.holds path ∧ (env.failure .worktrees (.status path)).isNone then
    match world.enclosing path with
    | none => false
    | some (repo,tree) => ((world.repos[repo]?).any fun repo => world.holds repo.gitDir) && tree.dirty
  else false

def removalError (env : Environment) (world after : World) (place : String) (path : Path) : Option String :=
  match env.failure .worktrees (.removeAll path) with
  | some failure =>
    if path ∈ after.dirs then
      let gitError := match runGit env .worktrees world env.site (.worktreeRemove path) with
        | .error error => error
        | .ok _ => "exit status 128"
      some ("removeWorktree: directory still exists after removal attempts: " ++ place ++ " (git: " ++ gitError ++ ", rm: " ++
        failure ++ ")")
    else none
  | none => none

def visitWorktree (env : Environment) (execute : Bool) (run : Progress) (line : List Char) : Progress :=
  let line := trimSpace line
  if line = [] then run
  else
    let (place,branch) := parseWorktreeLine line
    let path := components place
    let target := String.ofList place
    if branch = "" ∨ branch ∈ protectedBranches then run
    else if isSubPath env.cwd path then run.warn ("현재 작업 디렉토리: " ++ target ++ " [" ++ branch ++ "] — 스킵")
    else if env.active branch then run.warn ("활성 핸드오프: " ++ target ++ " [" ++ branch ++ "] — 스킵")
    else if ¬isMergedToMain env .worktrees run.world env.site branch then
      run.warn ("미머지 워크트리: " ++ target ++ " [" ++ branch ++ "]")
    else if isDirtyWorktree env run.world path then
      (run.warn ("변경사항 있음 (워크트리): " ++ target ++ " [" ++ branch ++ "]")).markDirty branch
    else if execute then
      let next := run.emit env (.worktree path branch)
      match removalError env run.world next.world target path with
      | some error => (next.warn ("워크트리 삭제 실패: " ++ target ++ " — " ++ error)).worktree ⟨target,branch,false⟩
      | none => next.worktree ⟨target,branch,true⟩
    else run.worktree ⟨target,branch,false⟩

def processWorktrees (env : Environment) (execute : Bool) (run : Progress) : Progress :=
  match runGit env .worktrees run.world env.site .worktreeList with
  | .error _ => run
  | .ok repo => (worktreeLines run.world repo).foldl (visitWorktree env execute) run

/-- The lines of `git branch`: the branch of the work tree at hand has a star, one of another work tree a plus. -/
def branchLines (repo : Repo) (tree : Path) : List (List Char) :=
  let current := (repo.worktrees.find? fun candidate => candidate.path = tree).bind Worktree.branch
  let detached := if current.isNone then ["* (HEAD detached at 0000000)".toList] else []
  detached ++ repo.heads.map fun ref =>
    (if current = some ref.1 then "* " else if repo.checkedOut ref.1 then "+ " else "  ").toList ++ ref.1.toList

/-- `git branch -D`. -/
def branchDelete (env : Environment) (phase : Phase) (world : World) (site : Site) (branch : String) : Except String Unit :=
  match runGit env phase world site (.branchDelete site.dir branch) with
  | .error error => .error error
  | .ok repo => if repo.checkedOut branch ∨ (repo.heads.lookup branch).isNone then .error "exit status 1" else .ok ()

def worktreesRoot (env : Environment) : Path := env.site.dir ++ [".worktrees"]

def residualDirs (env : Environment) (branch : String) : List Path :=
  [worktreesRoot env ++ components branch.toList,worktreesRoot env ++ components (lastPart branch.toList)].dedup

def visitLocalBranch (env : Environment) (execute : Bool) (run : Progress) (line : List Char) : Progress :=
  let trimmedLine := trimSpace line
  if ['*',' '].isPrefixOf trimmedLine then run
  else
    let branch := String.ofList (trimSpace (trimLeft ['+',' '] trimmedLine))
    if branch = "" ∨ branch ∈ protectedBranches then run
    else if env.active branch then run.warn ("활성 핸드오프: " ++ branch ++ " — 스킵")
    else if ¬isMergedToMain env .locals run.world env.site branch then run.warn ("미머지 로컬: " ++ branch)
    else if branch ∈ run.dirty then run.warn ("변경사항 있음 (워크트리): " ++ branch)
    else if execute then
      match branchDelete env .locals run.world env.site branch with
      | .error error => (run.warn ("로컬 브랜치 삭제 실패: " ++ branch ++ " — " ++ error)).localBranch ⟨branch,branch,false⟩
      | .ok _ =>
        let residual := (residualDirs env branch).filter fun dir => dir ∈ run.world.dirs
        (run.emit env (.localBranch env.site.repo branch residual)).localBranch ⟨branch,branch,true⟩
    else run.localBranch ⟨branch,branch,false⟩

def processLocalBranches (env : Environment) (execute : Bool) (run : Progress) : Progress :=
  match runGit env .locals run.world env.site (.branches env.site.dir) with
  | .error _ => run
  | .ok repo => (branchLines repo env.site.tree).foldl (visitLocalBranch env execute) run

def visitEmptyDir (env : Environment) (execute : Bool) (run : Progress) (path : Path) : Progress :=
  if (env.failure .empties (.readDir path)).isSome ∨ path ∉ run.world.dirs ∨ ¬run.world.isEmpty path then run
  else if execute then
    (run.emit env (.emptyDir path)).emptyDir ⟨pathText path,"",(env.failure .empties (.removeAll path)).isNone⟩
  else run.emptyDir ⟨pathText path,"",false⟩

def processEmptyWorktreeDirs (env : Environment) (execute : Bool) (run : Progress) : Progress :=
  let root := worktreesRoot env
  if (env.failure .empties (.readDir root)).isSome ∨ root ∉ run.world.dirs then run
  else (run.world.children root).foldl (visitEmptyDir env execute) run

/-- `git remote prune origin`. -/
def Progress.prune (env : Environment) (run : Progress) : Progress :=
  { run with world := run.world.edit env.site.repo (Repo.prune run.world.origin) }

def containsArrow : List Char → Bool
  | '-' :: '>' :: _ => true
  | _ :: rest => containsArrow rest
  | [] => false

/-- `git push origin --delete`. -/
def pushDelete (env : Environment) (world : World) (branch : String) : Except String Unit :=
  match runGit env .remotes world env.site (.push branch) with
  | .error error => .error error
  | .ok _ => if (world.origin.lookup branch).isNone then .error "exit status 1" else .ok ()

def visitRemoteBranch (env : Environment) (execute : Bool) (run : Progress) (line : List Char) : Progress :=
  let ref := trimSpace line
  if ref = [] ∨ containsArrow ref then run
  else
    match cut "origin/" (String.ofList ref) with
    | none => run
    | some branch =>
      if branch ∈ protectedBranches then run
      else if env.active branch then run.warn ("활성 핸드오프: origin/" ++ branch ++ " — 스킵")
      else if isMergedToMain env .remotes run.world env.site ("origin/" ++ branch) then
        if execute then
          match pushDelete env run.world branch with
          | .error error =>
            (run.warn ("리모트 브랜치 삭제 실패: origin/" ++ branch ++ " — " ++ error)).remote ⟨"origin/" ++ branch,branch,false⟩
          | .ok _ => (run.emit env (.remote branch)).remote ⟨"origin/" ++ branch,branch,true⟩
        else run.remote ⟨"origin/" ++ branch,branch,false⟩
      else run.warn ("미머지 리모트: origin/" ++ branch)

def remoteLines (repo : Repo) : List (List Char) := repo.remotes.map fun ref => ' ' :: ' ' :: ref.1.toList

def processRemoteBranches (env : Environment) (execute : Bool) (run : Progress) : Progress :=
  let run := if execute ∧ (runGit env .remotes run.world env.site .remotePrune).isOk then run.prune env else run
  match runGit env .remotes run.world env.site .remoteBranches with
  | .error _ => run
  | .ok repo => (remoteLines repo).foldl (visitRemoteBranch env execute) run

def visitCopyBranch (env : Environment) (execute : Bool) (name : String) (site : Site) (run : Progress) (line : List Char) :
    Progress :=
  let trimmed := trimSpace line
  if trimmed = [] ∨ ['*'].isPrefixOf trimmed then run
  else
    let branch := String.ofList (trimSpace (trimLeft ['*','+',' '] line))
    if branch = "" ∨ branch ∈ protectedBranches ∨ env.active branch then run
    else if ¬isMergedToMain env .copies run.world site branch then run
    else if execute then
      match branchDelete env .copies run.world site branch with
      | .error error =>
        (run.warn ("복사본 브랜치 삭제 실패: " ++ name ++ " [" ++ branch ++ "] — " ++ error)).copy ⟨name ++ ":" ++ branch,branch,false⟩
      | .ok _ => (run.emit env (.localBranch site.repo branch [])).copy ⟨name ++ ":" ++ branch,branch,true⟩
    else run.copy ⟨name ++ ":" ++ branch,branch,false⟩

def remoteOriginURL (env : Environment) (world : World) (site : Site) : String :=
  match runGit env .copies world site (.originURL site.dir) with
  | .error _ => ""
  | .ok repo => String.ofList (trimSpace repo.url.toList)

def visitCopy (env : Environment) (execute : Bool) (selfOrigin : String) (run : Progress) (path : Path) : Progress :=
  if path.getLast? = env.site.dir.getLast? then run
  else
    match run.world.treeAt path with
    | none => run
    | some (index,_) =>
      let site : Site := ⟨path,index,path⟩
      if remoteOriginURL env run.world site ≠ selfOrigin then run
      else
        match runGit env .copies run.world site (.branches path) with
        | .error _ => run
        | .ok repo => (branchLines repo path).foldl (visitCopyBranch env execute (path.getLast?.getD "") site) run

def processWorkspaceCopies (env : Environment) (execute : Bool) (run : Progress) : Progress :=
  let workspace := env.site.dir.dropLast
  let selfOrigin := remoteOriginURL env run.world env.site
  if selfOrigin = "" ∨ (env.failure .copies (.readDir workspace)).isSome then run
  else (run.world.children workspace).foldl (visitCopy env execute selfOrigin) run

/-- `git fetch --prune origin`, made in a dry run as well. -/
def fetched (env : Environment) (world : World) : World :=
  match runGit env .refresh world env.site .fetch with
  | .error _ => world
  | .ok _ => world.edit env.site.repo (Repo.track world.origin)

def begun (world : World) : Progress := ⟨world,⟨[],[],[],[],[],[]⟩,[],[]⟩

def run (env : Environment) (execute : Bool) (world : World) : Progress :=
  processWorkspaceCopies env execute (processRemoteBranches env execute (processEmptyWorktreeDirs env execute
    (processLocalBranches env execute (processWorktrees env execute (begun (fetched env world))))))

end ApexPipeline.Cleanup
