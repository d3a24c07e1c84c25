import ApexPipeline.Backlog

/-! Branches and the backlog items they work on: `manager.go` and `state.go` of `handoff`, with the backlog manager
that the daemon injects. A call is one transaction; arguments that are only logged are left out. -/
namespace ApexPipeline.Handoff

open Backlog

def nextStatus (current notifyType : String) : Except Failure String :=
  if current = "STARTED" ∧ notifyType = "design" then .ok "DESIGN_NOTIFIED"
  else if current = "DESIGN_NOTIFIED" ∧ notifyType = "plan" then .ok "IMPLEMENTING"
  else .error (.invalidTransition current notifyType)

def getBacklogIDs (db : Database) (branch : String) : List Int :=
  (db.branchBacklogs.filter fun link => link.1 = branch).map Prod.snd

def findBranch (db : Database) (branch : String) : Option Branch :=
  db.activeBranches.find? fun row => row.branch = branch

def deleteLinks (db : Database) (branch : String) : Database :=
  { db with branchBacklogs := db.branchBacklogs.filter fun link => link.1 ≠ branch }

def deleteActive (db : Database) (branch : String) : Database :=
  { db with activeBranches := db.activeBranches.filter fun row => row.branch ≠ branch }

def deleteBranch (db : Database) (branch : String) : Database := deleteActive (deleteLinks db branch) branch

/-- The linked items that are being fixed are open again; the guard of `SetStatusWith` refuses the others, and
its refusal is only logged. -/
def releaseBacklogs (now : String) (db : Database) (ids : List Int) : Database :=
  ids.foldl (fun db id => match setStatusWith now db id "OPEN" with
    | .ok next => next
    | .error _ => db) db

/-- The early rejection of `NotifyStart`. -/
def checkStart (db : Database) (id : Int) : Except Failure Unit :=
  match db.check id with
  | none => .error (.notFound id)
  | some status =>
    if status = "FIXING" then .error (.alreadyFixing id)
    else if status = "RESOLVED" then .error (.alreadyResolved id)
    else .ok ()

/-- The name is the key of the table, and the git branch is `UNIQUE` where it is not NULL. -/
def insertBranch (db : Database) (row : Branch) : Except Failure Database :=
  if ∃ other ∈ db.activeBranches, other.branch = row.branch ∨ (row.gitBranch ≠ "" ∧ other.gitBranch = row.gitBranch) then
    .error .constraint
  else .ok { db with activeBranches := db.activeBranches ++ [row] }

section
local instance lawfulLink : LawfulBEq (String × Int) := inferInstance

def linkBacklog (branch : String) (db : Database) (id : Int) : Except Failure Database :=
  if (branch,id) ∈ db.branchBacklogs then .error .constraint
  else .ok { db with branchBacklogs := db.branchBacklogs ++ [(branch,id)] }

end

structure Start where
  branch : String
  workspace : String := ""
  summary : String := ""
  gitBranch : String := ""
  backlogIDs : List Int := []
  skipDesign : Bool := false
  deriving DecidableEq, Repr

/-- An entry of the same name is replaced. -/
def clearStale (now : String) (db : Database) (branch : String) : Database :=
  match findBranch db branch with
  | some _ => deleteBranch (releaseBacklogs now db (getBacklogIDs db branch)) branch
  | none => db

def notifyStart (now : String) (db : Database) (start : Start) : Except Failure Database := do
  let ids := start.backlogIDs.filter fun id => id ≠ 0
  ids.forM (checkStart db)
  let registered ← insertBranch (clearStale now db start.branch)
    { branch := start.branch, workspace := start.workspace, gitBranch := start.gitBranch
      status := if start.skipDesign then "IMPLEMENTING" else "STARTED"
      summary := start.summary, createdAt := now, updatedAt := now }
  let linked ← ids.foldlM (linkBacklog start.branch) registered
  ids.foldlM (fun db id => setStatusWith now db id "FIXING") linked

def notifyTransition (now : String) (db : Database) (branch notifyType : String) : Except Failure Database :=
  match findBranch db branch with
  | none => .error (.notRegistered branch)
  | some row => do
    let status ← nextStatus row.status notifyType
    return { db with activeBranches := db.activeBranches.map fun row =>
      if row.branch = branch then { row with status := status, updatedAt := now } else row }

def requireNoFixingBacklogs (db : Database) (branch : String) : Except Failure Unit :=
  if listFixingForBranch db (getBacklogIDs db branch) = [] then .ok ()
  else .error (.fixingRemain (listFixingForBranch db (getBacklogIDs db branch)))

/-- The row of `branch_history`: the given summary, or the one of the branch if none is given. -/
def historyRow (now : String) (row : Branch) (ids : List Int) (summary status : String) : History :=
  { branch := row.branch, workspace := row.workspace, gitBranch := row.gitBranch, status := status
    summary := if summary = "" then row.summary else summary
    backlogIds := ids, startedAt := row.createdAt, finishedAt := now }

def insertHistory (db : Database) (row : History) : Database := { db with branchHistory := db.branchHistory ++ [row] }

def finalizeBranch (now : String) (db : Database) (branch summary historyStatus : String)
    (checkFixing releaseFixing : Bool) : Except Failure Database := do
  if checkFixing then requireNoFixingBacklogs db branch
  let released := if releaseFixing then releaseBacklogs now db (getBacklogIDs db branch) else db
  match findBranch released branch with
  | none => throw (.notRegistered branch)
  | some row =>
    let recorded := insertHistory released (historyRow now row (getBacklogIDs released branch) summary historyStatus)
    return deleteBranch recorded branch

def notifyMerge (now : String) (db : Database) (branch summary : String) : Except Failure Database :=
  finalizeBranch now db branch summary "MERGED" true false

def notifyDrop (now : String) (db : Database) (branch reason : String) : Except Failure Database :=
  finalizeBranch now db branch reason "DROPPED" false true

variable {db next : Database} {now branch summary reason : String}

theorem requireNoFixingBacklogs_ok : requireNoFixingBacklogs db branch = .ok () ↔
    listFixingForBranch db (getBacklogIDs db branch) = [] := by
  unfold requireNoFixingBacklogs
  split <;> simp_all

theorem notifyMerge_ok : notifyMerge now db branch summary = .ok next ↔
    listFixingForBranch db (getBacklogIDs db branch) = [] ∧ ∃ row, findBranch db branch = some row ∧
      next = deleteBranch (insertHistory db (historyRow now row (getBacklogIDs db branch) summary "MERGED")) branch := by
  constructor
  · intro done
    obtain ⟨⟨⟩,checked,done⟩ := bind_ok done
    refine ⟨requireNoFixingBacklogs_ok.mp checked,?_⟩
    simp only [Bool.false_eq_true,if_false] at done
    split at done <;> cases done
    rename_i row found
    exact ⟨row,found,rfl⟩
  · rintro ⟨none,row,found,rfl⟩
    simp [notifyMerge,finalizeBranch,requireNoFixingBacklogs_ok.mpr none,found,bind,Except.bind]
    rfl

end ApexPipeline.Handoff
