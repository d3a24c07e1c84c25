import ApexPipeline.Handoff
import ApexPipeline.WriteAheadLog

/-! `NotifyMerge` statement by statement, among clients that do what they like: the check for unresolved items reads
the links in the transaction and the statuses outside of it. -/
namespace ApexPipeline.MergeGate

open Backlog Handoff WriteAheadLog Coroutine Execution Option

abbrev Task := Program Database (Except Failure Unit)

/-- `RunInTx`. -/
def runInTx (body : Task) : Task := do
  match ← body with
  | .error failure => .await .rollback fun _ => pure (.error failure)
  | .ok () => .await .commit fun (committed : Bool) => pure (if committed then .ok () else .error .store)

def query (next : Database → Task) : Task :=
  .await .read fun (reply : Option Database) =>
    match reply with
    | none => pure (.error .store)
    | some db => next db

/-- A statement of the transaction that fails only with the store. -/
def exec (change : Database → Database) (next : Task) : Task :=
  .await (.write fun db => some (change db)) fun (reply : Option Database) =>
    match reply with
    | none => pure (.error .store)
    | some _ => next

/-- `ListFixingForBranch` of the backlog manager, which is not the one of the transaction. No query is made for no ids. -/
def listFixing (ids : List Int) (next : List Int → Task) : Task :=
  if ids = [] then next []
  else .await .readOutside fun (reply : Option Database) =>
    match reply with
    | none => pure (.error .store)
    | some db => next (listFixingForBranch db ids)

def requireNoFixingBacklogsTx (branch : String) (next : Task) : Task :=
  query fun db => listFixing (getBacklogIDs db branch) fun fixing =>
    if fixing = [] then next else pure (.error (.fixingRemain fixing))

/-- The part that `NotifyMerge` and `NotifyDrop` have in common. -/
def moveToHistory (now branch summary historyStatus : String) : Task :=
  query fun db =>
    match findBranch db branch with
    | none => pure (.error (.notRegistered branch))
    | some row => query fun db =>
      exec (insertHistory · (historyRow now row (getBacklogIDs db branch) summary historyStatus)) <|
        exec (deleteLinks · branch) <| exec (deleteActive · branch) <| pure (.ok ())

def releaseTx (now : String) : List Int → Task → Task
  | [], next => next
  | id :: rest, next => exec (fun db => releaseBacklogs now db [id]) (releaseTx now rest next)

def finalizeBranchTx (now branch summary historyStatus : String) (checkFixing releaseFixing : Bool) : Task :=
  let move := moveToHistory now branch summary historyStatus
  let release := if releaseFixing then query fun db => releaseTx now (getBacklogIDs db branch) move else move
  runInTx (if checkFixing then requireNoFixingBacklogsTx branch release else release)

def notifyMergeTx (now branch summary : String) : Task := finalizeBranchTx now branch summary "MERGED" true false

def notifyDropTx (now branch reason : String) : Task := finalizeBranchTx now branch reason "DROPPED" false true

/-- A call whose reads and writes are given by a transaction on the whole, as `Fix` and `Release`. -/
def atomically (operation : Database → Except Failure Database) : Task :=
  runInTx <| query fun db =>
    match operation db with
    | .error failure => pure (.error failure)
    | .ok next => exec (fun _ => next) (pure (.ok ()))

/-! What the client knows at each statement -/

abbrev Reaches (post : Known Database → Except Failure Unit → Prop) (known : Known Database) (task : Task) : Prop :=
  task.Tracks (fun _ _ => True) learn post known

def Prepared (now branch summary : String) (known : Known Database) : Except Failure Unit → Prop
  | .error _ => known.session.commits = []
  | .ok () => ∃ version before after, known.session = ⟨some (version,before),some after,[]⟩ ∧
      notifyMerge now before branch summary = .ok after

def Merged (now branch summary : String) (known : Known Database) : Except Failure Unit → Prop
  | .error _ => known.session.commits = []
  | .ok () => ∃ before after, known.session.commits = [(before,after)] ∧ notifyMerge now before branch summary = .ok after

variable {now branch summary : String} {known : Known Database} {body task : Task}

theorem runInTx_reaches (reaches : Reaches (Prepared now branch summary) known body) :
    Reaches (Merged now branch summary) known (runInTx body) := by
  refine Tracks.bind reaches fun known value prepared => ?_
  cases value with
  | error failure =>
    refine ⟨trivial,?_⟩
    rintro reply next ⟨⟩
    exact prepared
  | ok value =>
    obtain ⟨version,before,after,session,outcome⟩ := prepared
    refine ⟨trivial,?_⟩
    rintro reply next (⟨rfl,rfl⟩ | ⟨_,idle,_⟩ | ⟨_,_,_,rfl,taken,working,rfl⟩)
    · simp [Tracks,pure,Merged,session,WriteAheadLog.Session.close]
    · simp [session] at idle
    · simp only [session,some.injEq,Prod.mk.injEq] at taken working
      obtain ⟨⟨rfl,rfl⟩,rfl⟩ := And.intro taken working
      exact ⟨before,after,by simp [session,WriteAheadLog.Session.close,WriteAheadLog.Session.record],outcome⟩

variable {post : Known Database → Except Failure Unit → Prop}

theorem query_reaches {next : Database → Task} (fails : post known (.error .store))
    (taken : known.session.snapshot = some (version,data))
    (reaches : Reaches post known (next (known.session.working.getD data))) : Reaches post known (query next) := by
  refine ⟨trivial,?_⟩
  rintro reply later (⟨rfl,rfl⟩ | ⟨_,_,also,rfl,rfl⟩ | ⟨_,_,fresh,_⟩)
  · exact fails
  · cases taken.symm.trans also
    exact reaches
  · cases taken.symm.trans fresh

section
variable (fails : ∀ next : Known Database, next.session.commits = known.session.commits → post next (.error .store))
include fails

theorem exec_reaches (session : known.session = ⟨some (version,data),some working,[]⟩)
    (reaches : Reaches post ⟨⟨some (version,data),some (change working),[]⟩,known.seen⟩ task) :
    Reaches post known (exec change task) := by
  refine ⟨trivial,?_⟩
  rintro reply next (⟨rfl,same⟩ | ⟨_,_,after,_,_,rfl,changed,rfl⟩ | ⟨_,_,_,fresh,_⟩)
  · exact fails next same
  · simp only [session,getD_some] at changed
    cases changed
    simpa [session] using reaches
  · simp [session] at fresh

theorem firstExec_reaches (session : known.session = { snapshot := some (version,data) })
    (reaches : (∀ other ∈ known.seen, other = data) →
      Reaches post ⟨⟨some (version,data),some (change data),[]⟩,known.seen⟩ task) :
    Reaches post known (exec change task) := by
  refine ⟨trivial,?_⟩
  rintro reply next (⟨rfl,same⟩ | ⟨_,_,after,taken,seen,rfl,changed,rfl⟩ | ⟨_,_,_,fresh,_⟩)
  · exact fails next same
  · simp only [session,some.injEq,Prod.mk.injEq] at taken
    obtain ⟨rfl,rfl⟩ := taken
    simp only [session,getD_none] at changed
    cases changed
    simpa [session] using reaches (seen (by simp [session]))
  · simp [session] at fresh

end

/-- The merge as it is to be: on the state before it no linked item is being fixed, and the branch is moved with the
linked ids and without its links. -/
structure Moved (now branch summary : String) (before after : Database) : Prop where
  resolved : ∀ item ∈ before.items, (branch,item.id) ∈ before.branchBacklogs → item.status ≠ "FIXING"
  history : ∃ row ∈ before.activeBranches, row.branch = branch ∧
    after.branchHistory = before.branchHistory ++ [historyRow now row (getBacklogIDs before branch) summary "MERGED"]
  active : after.activeBranches = before.activeBranches.filter fun row => row.branch ≠ branch
  links : after.branchBacklogs = before.branchBacklogs.filter fun link => link.1 ≠ branch
  items : after.items = before.items

theorem notifyMerge_moved (done : notifyMerge now before branch summary = .ok after) : Moved now branch summary before after := by
  obtain ⟨none,row,found,rfl⟩ := notifyMerge_ok.mp done
  refine ⟨fun item member linked fixing => ?_,⟨row,List.mem_of_find?_eq_some found,?_,rfl⟩,rfl,rfl,rfl⟩
  · simp only [listFixingForBranch,List.map_eq_nil_iff,List.filter_eq_nil_iff] at none
    simpa [getBacklogIDs,linked,fixing] using none item member
  · simpa using List.find?_some found

theorem moveToHistory_reaches (session : known.session = { snapshot := some (version,data) })
    (clear : (∀ other ∈ known.seen, other = data) → listFixingForBranch data (getBacklogIDs data branch) = []) :
    Reaches (Prepared now branch summary) known (moveToHistory now branch summary "MERGED") := by
  have nothing : known.session.commits = [] := by rw [session]
  have fails : ∀ next : Known Database, next.session.commits = known.session.commits →
      Prepared now branch summary next (.error .store) := fun next same => same.trans nothing
  have taken : known.session.snapshot = some (version,data) := by rw [session]
  have visible : known.session.working.getD data = data := by rw [session]; rfl
  refine query_reaches nothing taken ?_
  rw [visible]
  cases found : findBranch data branch with
  | none => exact nothing
  | some row =>
    refine query_reaches nothing taken (firstExec_reaches fails session fun seen => ?_)
    rw [visible]
    refine exec_reaches (fun next same => same) rfl (exec_reaches (fun next same => same) rfl ?_)
    exact ⟨version,data,_,rfl,notifyMerge_ok.mpr ⟨clear seen,row,found,rfl⟩⟩

theorem notifyMergeTx_reaches (now branch summary : String) :
    Reaches (Merged now branch summary) {} (notifyMergeTx now branch summary) := by
  refine runInTx_reaches ⟨trivial,?_⟩
  rintro reply later (⟨rfl,rfl⟩ | ⟨_,_,taken,_⟩ | ⟨version,data,_,rfl,rfl⟩)
  · exact rfl
  · cases taken
  dsimp only
  unfold listFixing
  split
  · rename_i empty
    exact moveToHistory_reaches rfl fun _ => by simp [empty,listFixingForBranch]
  refine ⟨trivial,?_⟩
  rintro reply later (⟨rfl,rfl⟩ | ⟨other,rfl,rfl⟩)
  · exact rfl
  · dsimp only
    split
    · rename_i none
      exact moveToHistory_reaches rfl fun seen => seen other List.mem_cons_self ▸ none
    · exact rfl

/-- For every interleaving with any other clients, and any failures of the store: a merge that returns nil has
committed once, and what it committed is the merge of the state that was committed then; a merge that fails has
committed nothing. -/
theorem merge_gate_not_raced {programs : List Task} {clients : Clients Database (Except Failure Unit)} {i : Nat}
    (runs : run WriteAheadLog.step (opened db programs) schedule = some clients)
    (client : programs[i]? = some (notifyMergeTx now branch summary)) (done : clients.jobs[i]? = some (own,.done value)) :
    (value = .ok () → ∃ before after, own.commits = [(before,after)] ∧ Moved now branch summary before after) ∧
    ∀ failure, value = .error failure → own.commits = [] := by
  obtain ⟨known,rfl,merged⟩ := done_establishes runs client (notifyMergeTx_reaches now branch summary) done
  constructor
  · rintro rfl
    obtain ⟨before,after,commits,outcome⟩ := merged
    exact ⟨before,after,commits,notifyMerge_moved outcome⟩
  · rintro failure rfl
    exact merged

def meeting : Database where
  items := [⟨1,"","MINOR","NOW","CORE","BUG","","",1,"RESOLVED","FIXED","s","","",""⟩,
    ⟨2,"","MINOR","NOW","CORE","BUG","","",2,"OPEN","","","","",""⟩]
  activeBranches := [⟨"b","w","","STARTED","","s","s"⟩]
  branchBacklogs := [("b",1)]

def succeeded {own : Type} : Option (own × Task) → Bool
  | some (_,.done (.ok ())) => true
  | _ => false

/-- When the merge has read the links, the open item is taken for the branch. That merge fails, and so does a second
one; a third one goes through when the item is released, and there is nothing left to drop. -/
theorem merge_gate_not_raced_meeting :
    ∃ clients own, run WriteAheadLog.step (opened meeting [notifyMergeTx "t" "b" "",atomically fun db => fix "t" db 2 "b",
        notifyMergeTx "t" "b" "",atomically fun db => release "t" db 2 "later" "b",notifyMergeTx "t" "b" "done",
        notifyDropTx "t" "b" ""])
        ([0,0,1,1,1,0,0,0,0,2,2,2,3,3,3,4,4,4,4,4,4,4,4,5,5,5].map .perform) = some clients ∧
      clients.jobs[4]? = some (own,.done (.ok ())) ∧
      ∃ before after, own.commits = [(before,after)] ∧ Moved "t" "b" "done" before after := by
  have outcome : (run WriteAheadLog.step (opened meeting [notifyMergeTx "t" "b" "",atomically fun db => fix "t" db 2 "b",
      notifyMergeTx "t" "b" "",atomically fun db => release "t" db 2 "later" "b",notifyMergeTx "t" "b" "done",
      notifyDropTx "t" "b" ""])
      ([0,0,1,1,1,0,0,0,0,2,2,2,3,3,3,4,4,4,4,4,4,4,4,5,5,5].map .perform)).any (fun clients =>
        succeeded clients.jobs[4]?) = true := by decide +kernel
  obtain ⟨clients,runs,ended⟩ := (any_eq_true _ _).mp outcome
  unfold succeeded at ended
  split at ended
  · rename_i own done
    exact ⟨clients,own,runs,done,(merge_gate_not_raced runs rfl done).1 rfl⟩
  · cases ended

end ApexPipeline.MergeGate
