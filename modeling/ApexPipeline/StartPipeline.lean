import ApexPipeline.HandoffConsistency

/-! `StartPipeline`: a branch is registered and then made with git. What is registered when git fails is to be
replaced by the next attempt. -/
namespace ApexPipeline.Handoff
open Backlog Execution List

inductive StartFailure where
  | validate
  | notifyStart (failure : Failure)
  | createBranch
  deriving DecidableEq, Repr

/-- `validated` and `created` are what the two git steps return; a failed push is only logged. -/
def startPipeline (now : String) (validated created : Bool) (db : Database) (start : Start) :
    Except StartFailure Unit × Database :=
  if validated then
    match notifyStart now db start with
    | .error failure => (.error (.notifyStart failure),db)
    | .ok next => (if created then .ok () else .error .createBranch,next)
  else (.error .validate,db)

def Branch.untimed (row : Branch) : Branch := { row with createdAt := "", updatedAt := "" }

/-- The same registrations, links and items; the times of a registration are its own. -/
structure SameWork (db other : Database) : Prop where
  items : db.items = other.items
  links : db.branchBacklogs = other.branchBacklogs
  branches : db.activeBranches.map Branch.untimed = other.activeBranches.map Branch.untimed

/-- No item is named, and no link is left of a branch that is not registered. -/
def Retriable (db : Database) (start : Start) : Prop :=
  (∀ id ∈ start.backlogIDs, id = 0) ∧ (findBranch db start.branch = none → getBacklogIDs db start.branch = [])

def Start.row (start : Start) (now : String) : Branch :=
  { branch := start.branch, workspace := start.workspace, gitBranch := start.gitBranch
    status := if start.skipDesign then "IMPLEMENTING" else "STARTED"
    summary := start.summary, createdAt := now, updatedAt := now }

theorem startPipeline_created {next : Database} : startPipeline now true created db start =
      (if created then .ok () else .error .createBranch,next) ↔ notifyStart now db start = .ok next := by
  cases done : notifyStart now db start <;> cases created <;> simp [startPipeline,done]

theorem notifyStart_without (none : ∀ id ∈ start.backlogIDs, id = 0) (now : String) (db : Database) :
    notifyStart now db start = insertBranch (clearStale now db start.branch) (start.row now) := by
  have ids : start.backlogIDs.filter (fun id => id ≠ 0) = [] := by simpa using none
  simp only [notifyStart,ids,foldlM_nil,Start.row]
  cases insertBranch _ _ <;> rfl

theorem forM_ok {f : Int → Except Failure Unit} {ids : List Int} (done : ids.forM f = .ok ()) {id : Int}
    (member : id ∈ ids) : f id = .ok () := by
  induction ids with
  | nil => cases member
  | cons first rest ih =>
    obtain ⟨⟨⟩,checked,done⟩ := bind_ok done
    rcases mem_cons.mp member with rfl | later
    · exact checked
    · exact ih done later

theorem insertBranch_ok {next : Database} (done : insertBranch db row = .ok next) :
    next = { db with activeBranches := db.activeBranches ++ [row] } := by
  unfold insertBranch at done
  split at done <;> cases done
  rfl

theorem getBacklogIDs_clearStale (now) (settled : findBranch db branch = none → getBacklogIDs db branch = []) :
    getBacklogIDs (clearStale now db branch) branch = [] := by
  unfold clearStale
  split
  · simp [getBacklogIDs,deleteBranch,deleteActive,deleteLinks]
  · rename_i absent
    exact settled absent

/-- What the second attempt clears is what the first one has inserted. -/
theorem clearStale_inserted (row : Branch) (links : getBacklogIDs db row.branch = [])
    (new : ∀ other ∈ db.activeBranches, other.branch ≠ row.branch) :
    clearStale now { db with activeBranches := db.activeBranches ++ [row] } row.branch = db := by
  have found : findBranch { db with activeBranches := db.activeBranches ++ [row] } row.branch = some row := by
    have absent : db.activeBranches.find? (fun other => other.branch = row.branch) = none := by simpa using new
    simp [findBranch,find?_append,absent]
  have branches : (db.activeBranches ++ [row]).filter (fun other => other.branch ≠ row.branch) = db.activeBranches := by
    simpa [filter_eq_self] using new
  have unlinked : db.branchBacklogs.filter (fun link => link.1 ≠ row.branch) = db.branchBacklogs := by
    simpa [filter_eq_self,getBacklogIDs,filter_eq_nil_iff] using links
  have none : getBacklogIDs { db with activeBranches := db.activeBranches ++ [row] } row.branch = [] := links
  simp only [clearStale,found,none,releaseBacklogs,foldl_nil,deleteBranch,deleteActive,deleteLinks,branches,unlinked]

/-- A start that failed in git succeeds when it is made again, and leaves what one successful start leaves, exactly
if it names no item and the branch had no link without being registered. -/
theorem start_retried_iff (db first : Database) (start : Start) (now later : String)
    (failed : startPipeline now true false db start = (.error .createBranch,first)) :
    (∃ second, startPipeline later true true first start = (.ok (),second) ∧ SameWork second first) ↔
      Retriable db start := by
  have registered := startPipeline_created.mp failed
  constructor
  · rintro ⟨second,again,same⟩
    have repeated := startPipeline_created.mp again
    have none : ∀ id ∈ start.backlogIDs, id = 0 := by
      intro id member
      by_contra nonzero
      have inside : id ∈ start.backlogIDs.filter fun id => id ≠ 0 := by simp [member,nonzero]
      obtain ⟨⟨⟩,checked,-⟩ := bind_ok repeated
      obtain ⟨_,_,rest⟩ := bind_ok registered
      obtain ⟨_,_,rest⟩ := bind_ok rest
      obtain ⟨_,_,taken⟩ := bind_ok rest
      -- the first attempt has left the item in the status that the early check rejects
      have fixing : first.check id = some "FIXING" := by
        have status := congrArg (Tables.status · id) (takeAll_tables taken).2
        exact status.trans (if_pos inside)
      have refused := forM_ok checked inside
      rw [checkStart,fixing] at refused
      cases refused
    refine ⟨none,fun absent => ?_⟩
    rw [notifyStart_without none] at registered repeated
    have whole : clearStale now db start.branch = db := by rw [clearStale,absent]
    rw [whole] at registered
    cases insertBranch_ok registered
    have links : getBacklogIDs second start.branch = [] := by
      rw [insertBranch_ok repeated]
      refine getBacklogIDs_clearStale _ fun missing => ?_
      simp [findBranch,Start.row] at missing
    rw [getBacklogIDs,same.links] at links
    exact links
  · rintro ⟨none,settled⟩
    rw [notifyStart_without none] at registered
    have links := getBacklogIDs_clearStale now settled
    generalize clearStale now db start.branch = cleared at registered links
    unfold insertBranch at registered
    split at registered <;> cases registered
    rename_i free
    have new : ∀ other ∈ cleared.activeBranches, other.branch ≠ (start.row now).branch :=
      fun other member same => free ⟨other,member,.inl same⟩
    refine ⟨{ cleared with activeBranches := cleared.activeBranches ++ [start.row later] },?_,rfl,rfl,
      by simp [Branch.untimed,Start.row]⟩
    refine startPipeline_created.mpr ?_
    rw [notifyStart_without none]
    exact (congrArg (insertBranch · _) (clearStale_inserted (start.row now) links new)).trans (if_neg free)

/-- Another branch is fixing an item, and a registration of the branch itself is left from before. -/
def earlierWork : List Call :=
  [⟨"0",.add ⟨0,"","MINOR","NOW","CORE","BUG","","",0,"","","","","",""⟩⟩,
    ⟨"0",.notifyStart { branch := "a", backlogIDs := [1] }⟩,⟨"0",.notifyStart { branch := "b" }⟩]

theorem start_retried_without :
    let db := earlierWork.foldl perform {}
    (db.items.map BacklogItem.status = ["FIXING"] ∧ db.activeBranches.map Branch.branch = ["a","b"]) ∧
    ∃ first, startPipeline "1" true false db { branch := "b" } = (.error .createBranch,first) ∧
      ∃ second, startPipeline "2" true true first { branch := "b" } = (.ok (),second) ∧ SameWork second first := by
  refine ⟨by decide +kernel,_,rfl,?_⟩
  exact (start_retried_iff (earlierWork.foldl perform {}) _ { branch := "b" } "1" "2" rfl).mpr ⟨by decide,fun _ => rfl⟩

/-- With an item to fix the second attempt is rejected, because the first one has marked the item. -/
theorem start_not_retried : ∃ db first,
    run step {} [⟨"0",.add ⟨0,"","MINOR","NOW","CORE","BUG","","",0,"","","","","",""⟩⟩] = some db ∧
    startPipeline "1" true false db { branch := "b", backlogIDs := [1] } = (.error .createBranch,first) ∧
    startPipeline "2" true true first { branch := "b", backlogIDs := [1] } =
      (.error (.notifyStart (.alreadyFixing 1)),first) := by
  refine ⟨_,_,rfl,rfl,?_⟩
  decide +kernel

end ApexPipeline.Handoff
