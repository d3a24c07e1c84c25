import ApexPipeline.CleanupTargets

/-! Whether main has what a clean-up deletes. -/
namespace ApexPipeline.Cleanup
open TextScanning List VersionGraph

/-! ### What main contains -/

def History.squashes (history : History) (version : Nat) : Option Nat := (history.commits[version]?).bind Commit.squashes

/-- Main has every change of a tip: the tip itself, a commit that was made of its changes, or a commit that agrees with
it in every file it has changed since the merge base. -/
def History.Contains (history : History) (main tip : Nat) : Prop :=
  ∃ version, history.graph.Includes main version ∧ (version = tip ∨ history.squashes version = some tip ∨
    ∃ base, history.graph.IsMergeBase tip main base ∧
      ∀ file, history.entry base file ≠ history.entry tip file → history.entry version file = history.entry tip file)

/-- The commits that a repository knows as main, its own one and the server's. -/
def Repo.IsMain (repo : Repo) (main : Nat) : Prop :=
  repo.heads.lookup "main" = some main ∨ repo.remotes.lookup "origin/main" = some main

def Contained (env : Environment) (repo : Repo) (tip : Nat) : Prop := ∃ main, repo.IsMain main ∧ env.history.Contains main tip

/-- The branch that a removal was decided for, with its repository. -/
def Event.subject (env : Environment) : Event → Option (Nat × String)
  | .worktree _ branch => some (env.site.repo,branch)
  | .localBranch repo branch _ => some (repo,branch)
  | .emptyDir _ => none
  | .remote branch => some (env.site.repo,"origin/" ++ branch)

/-! ### Where the merge test is right -/

/-- What the server says of a pull request that was merged into main is so, and the repository has it: the merge is a
commit of main, and has the merged commit in its history or was squashed from it. -/
def Recorded (env : Environment) (repo : Repo) : Prop :=
  ∀ pull ∈ env.pulls, pull.merged = true → pull.base = "main" →
    (env.history.graph.isAncestor pull.tip pull.commit = true ∨ env.history.squashes pull.commit = some pull.tip) ∧
      ∃ main, repo.IsMain main ∧ env.history.graph.isAncestor pull.commit main = true

/-- The comparison with the merge base names every file that the tip has changed, and none differs from the server's main
in its mode only. -/
def Compared (env : Environment) (repo : Repo) (tip : Nat) : Prop :=
  ∀ main ∈ repo.resolve "origin/main", ∀ base ∈ env.history.graph.mergeBase tip main,
    ∀ file ∈ env.history.files base ++ env.history.files tip, env.history.entry base file ≠ env.history.entry tip file →
      file.toList ≠ [] ∧ file.toList ∈ changedFiles env base tip ∧
        ∀ mine ∈ env.history.entry tip file, ∀ theirs ∈ env.history.entry main file, mine.blob = theirs.blob →
          mine.mode = theirs.mode

/-- What the code takes for granted in the layer that decides. To git's layers the name of the branch has to mean this
tip and the name of main has to mean main; to the pull requests the branch must not have moved since one of them was
merged into main. -/
structure Trusted (env : Environment) (phase : Phase) (world : World) (site : Site) (repo : Repo) (name : String)
    (tip : Nat) : Prop where
  ancestor : isAncestorOfMain env phase world site name = true →
    repo.resolve name = some tip ∧ ∀ main ∈ repo.resolve "main", repo.heads.lookup "main" = some main
  pull : isAncestorOfMain env phase world site name = false → hasMergedPull env phase (ghBranch name) = true →
    ∃ pull ∈ env.pulls, pull.merged = true ∧ pull.head = ghBranch name ∧ pull.base = "main" ∧ pull.tip = tip
  blobs : isAncestorOfMain env phase world site name = false → hasMergedPull env phase (ghBranch name) = false →
    repo.resolve name = some tip ∧ (∀ main ∈ repo.resolve "origin/main", repo.remotes.lookup "origin/main" = some main) ∧
      Compared env repo tip

variable {env : Environment} {world : World} {tip : Nat} {repo : Repo} {name : String} {phase : Phase} {site : Site}

theorem mem_files {history : History} {version : Nat} {file : String} {entry : Entry}
    (found : history.entry version file = some entry) : file ∈ history.files version := by
  obtain ⟨commit,known,found⟩ := Option.bind_eq_some_iff.mp found
  obtain ⟨_,_,split,_⟩ := lookup_eq_some_iff.mp found
  simp [History.files,known,split]

theorem mem_files_of_ne {history : History} {base tip : Nat} {file : String}
    (differs : history.entry base file ≠ history.entry tip file) : file ∈ history.files base ++ history.files tip := by
  cases old : history.entry base file with
  | some entry => exact mem_append_left _ (mem_files old)
  | none =>
    cases new : history.entry tip file with
    | some entry => exact mem_append_right _ (mem_files new)
    | none => exact absurd (old.trans new.symm) differs

/-- The first layer: the tip is in the history of main. -/
theorem contained_of_ancestor (known : world.repos[site.repo]? = some repo) (resolves : repo.resolve name = some tip)
    (main : ∀ main ∈ repo.resolve "main", repo.heads.lookup "main" = some main)
    (merged : isAncestorOfMain env phase world site name = true) : Contained env repo tip := by
  unfold isAncestorOfMain at merged
  split at merged
  · cases merged
  rename_i answered
  have same := runGit_ok answered
  rw [known,Option.some.injEq] at same
  subst same
  rw [resolves] at merged
  split at merged
  · rename_i tip' main' found mains
    cases found
    exact ⟨main',.inl (main main' mains),_,isAncestor_iff.mp merged,.inl rfl⟩
  · cases merged

theorem entry_eq_of_sameBlob (proper : file.toList ≠ [])
    (modes : ∀ mine ∈ env.history.entry tip file, ∀ theirs ∈ env.history.entry main file, mine.blob = theirs.blob →
      mine.mode = theirs.mode) (same : sameBlob env phase site name tip main file.toList = true) :
    env.history.entry main file = env.history.entry tip file := by
  simp only [sameBlob,blob,String.ofList_toList,decide_eq_true_eq] at same
  obtain ⟨_,_,present,equal⟩ := same.resolve_left proper
  cases mine : env.history.entry tip file with
  | none => simp [mine] at present
  | some mineEntry =>
    cases theirs : env.history.entry main file with
    | none => simp [mine,theirs] at equal
    | some theirsEntry =>
      simp only [mine,theirs,Option.map_some,Option.some.injEq] at equal
      have mode := modes mineEntry mine theirsEntry theirs equal
      cases mineEntry
      cases theirsEntry
      cases equal
      cases mode
      rfl

/-- The third layer: the server's main agrees with the tip in all the files named. -/
theorem contained_of_blobs (known : world.repos[site.repo]? = some repo) (resolves : repo.resolve name = some tip)
    (originMain : ∀ main ∈ repo.resolve "origin/main", repo.remotes.lookup "origin/main" = some main)
    (compared : Compared env repo tip) (merged : blobHashMatch env phase world site name = true) :
    Contained env repo tip := by
  unfold blobHashMatch at merged
  split at merged
  case h_2 => cases merged
  rename_i answered _
  have same := runGit_ok answered
  rw [known,Option.some.injEq] at same
  subst same
  rw [resolves] at merged
  split at merged
  case h_2 => cases merged
  rename_i main found mains
  cases found
  split at merged
  · cases merged
  rename_i base bases
  simp only [decide_eq_true_eq,all_eq_true] at merged
  refine ⟨main,.inr (originMain main mains),main,.refl,.inr (.inr ⟨base,mergeBase_isMergeBase bases,fun file differs => ?_⟩)⟩
  obtain ⟨proper,listed,modes⟩ := compared main mains base bases file (mem_files_of_ne differs) differs
  exact entry_eq_of_sameBlob proper modes (merged.2 _ listed)

theorem Trusted.contained (trusted : Trusted env phase world site repo name tip) (recorded : Recorded env repo)
    (known : world.repos[site.repo]? = some repo) (merged : isMergedToMain env phase world site name = true) :
    Contained env repo tip := by
  cases ancestor : isAncestorOfMain env phase world site name with
  | true =>
    obtain ⟨resolves,main⟩ := trusted.ancestor ancestor
    exact contained_of_ancestor known resolves main ancestor
  | false =>
    cases pull : hasMergedPull env phase (ghBranch name) with
    | true =>
      obtain ⟨found,member,done,_,base,rfl⟩ := trusted.pull ancestor pull
      obtain ⟨applied,main,isMain,inside⟩ := recorded found member done base
      have onMain := isAncestor_iff.mp inside
      rcases applied with below | squashed
      · exact ⟨main,isMain,_,onMain.trans (isAncestor_iff.mp below),.inl rfl⟩
      · exact ⟨main,isMain,_,onMain,.inr (.inl squashed)⟩
    | false =>
      obtain ⟨resolves,originMain,compared⟩ := trusted.blobs ancestor pull
      rw [isMergedToMain,ancestor,pull] at merged
      exact contained_of_blobs known resolves originMain compared merged

/-- A branch that a removal was decided for has passed the merge test then. -/
theorem Allowed.merged {event : Event} {index : Nat} (allowed : Allowed env world event)
    (subject : event.subject env = some (index,name)) :
    ∃ phase site, site.repo = index ∧ isMergedToMain env phase world site name = true := by
  cases allowed with
  | worktree _ _ _ merged =>
    cases subject
    exact ⟨_,_,rfl,merged⟩
  | localBranch _ _ merged =>
    cases subject
    exact ⟨_,_,rfl,merged⟩
  | emptyDir => cases subject
  | remote _ _ merged =>
    cases subject
    exact ⟨_,_,rfl,merged⟩

end ApexPipeline.Cleanup
