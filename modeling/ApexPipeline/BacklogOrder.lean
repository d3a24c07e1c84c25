import ApexPipeline.HandoffConsistency

/-! Positions: the order of the unresolved items in a timeframe, under `Update`, `Add`, `Fix`, `Release` and `Resolve`. -/
namespace ApexPipeline.Backlog

open Execution Handoff List

variable {db next : Database} {id : Int} {row : BacklogItem} {timeframe : String} {position : Int}
  {change : BacklogItem → BacklogItem} {fields : Fields}

/-- The shift and the update of the item, for one row. -/
def moveRow (id : Int) (timeframe : String) (position : Int) (change : BacklogItem → BacklogItem) (row : BacklogItem) :
    BacklogItem :=
  if row.id = id then change row
  else if row.timeframe = timeframe ∧ position ≤ row.position ∧ row.status ≠ "RESOLVED" then
    { row with position := if row.position < 2^63 then row.position + 1 else row.position }
  else row

theorem shift_update_items (db : Database) : ((shift db id timeframe position).update id change).items =
    db.items.map (moveRow id timeframe position change) := by
  simp only [shift,Database.update,map_map]
  refine map_congr_left fun row _ => ?_
  by_cases same : row.id = id
  · simp [moveRow,same]
  · simp only [Function.comp_apply,moveRow,same,ne_eq,not_false_eq_true,true_and,if_false]
    split <;> rfl

/-- The other unresolved items of a timeframe. -/
def Queued (id : Int) (timeframe : String) (row : BacklogItem) : Prop :=
  row.id ≠ id ∧ row.timeframe = timeframe ∧ row.status ≠ "RESOLVED"

/-- The item is put in front of the items from the position on, and nothing else is reordered or changed. -/
structure Placed (db : Database) (id : Int) (timeframe : String) (position : Int) (after : BacklogItem → BacklogItem) :
    Prop where
  moved : ∀ row, db.row id = some row → (after row).timeframe = timeframe ∧ (after row).position = position
  below : ∀ row ∈ db.items, Queued id timeframe row → row.position < position → (after row).position < position
  rest : ∀ row ∈ db.items, Queued id timeframe row → position ≤ row.position → position < (after row).position
  ordered : ∀ row ∈ db.items, ∀ other ∈ db.items, Queued id timeframe row → Queued id timeframe other →
    ((after row).position < (after other).position ↔ row.position < other.position)
  framed : ∀ row ∈ db.items, row.id ≠ id → after row = { row with position := (after row).position }
  untouched : ∀ row ∈ db.items, row.id ≠ id → ¬ Queued id timeframe row → after row = row

theorem targetTimeframe_ok (target : targetTimeframe db id fields.timeframe = .ok timeframe) (found : db.row id = some row) :
    fields.timeframe.getD row.timeframe = timeframe := by
  unfold targetTimeframe at target
  split at target
  · rename_i given
    cases target
    simp [given]
  rename_i absent
  split at target <;> cases target
  rename_i item got
  simp [absent,Option.some.inj (found.symm.trans (Database.get_ok got).1)]

/-- No other item stands right before one whose position has become a REAL, which has no successor. -/
def Separable (db : Database) (id : Int) (timeframe : String) : Prop :=
  ∀ row ∈ db.items, ∀ other ∈ db.items, Queued id timeframe row → Queued id timeframe other →
    row.position = 2^63 - 1 → other.position ≠ 2^63

theorem parsePosition_lt {text : Option String} (parsed : parsePosition text = .ok (some position)) : position < 2^63 := by
  unfold parsePosition atoi at parsed
  grind

/-- An item is put in its place just when no two others of the timeframe meet at the end of 64 bits. -/
theorem update_places (given : parsePosition fields.position = .ok (some position))
    (done : update now db id fields = .ok next) :
    ∃ timeframe after, targetTimeframe db id fields.timeframe = .ok timeframe ∧ next.items = db.items.map after ∧
      (Placed db id timeframe position after ↔ Separable db id timeframe) := by
  have word := parsePosition_lt given
  obtain ⟨_,parsed,_,⟨rfl,_⟩ | ⟨value,timeframe,rfl,target,rfl⟩⟩ := update_ok done
  · cases given.symm.trans parsed
  cases given.symm.trans parsed
  refine ⟨timeframe,_,target,shift_update_items db,?_,?_⟩
  · -- The two would end at the same position.
    intro placed row member other also queued alsoQueued last real
    have order := placed.ordered row member other also queued alsoQueued
    unfold Queued at queued alsoQueued
    grind [moveRow]
  intro separable
  refine ⟨fun row found => ?_,?_,?_,?_,fun row _ other => ?_,?_⟩
  · rw [moveRow,if_pos (Database.row_mem found).2]
    exact ⟨targetTimeframe_ok target found,rfl⟩
  case refine_5 =>
    simp only [moveRow,if_neg other]
    split <;> rfl
  -- The others are shifted by one, or not at all.
  all_goals grind [Queued,moveRow,Separable]

/-- An item with the required fields only. -/
def plain (timeframe : String) : BacklogItem := ⟨0,"","MINOR",timeframe,"CORE","BUG","","",0,"","","","","",""⟩

theorem update_places_first : ∃ db next timeframe after, update "t" db 2 { position := some "1" } = .ok next ∧
    next.items.map BacklogItem.position = [2,1] ∧ Placed db 2 timeframe 1 after := by
  let db : Database := { items := [newRow "t" (plain "NOW") 1 1,newRow "t" (plain "NOW") 2 2] }
  have done : update "t" db 2 { position := some "1" } = .ok _ := rfl
  obtain ⟨timeframe,after,_,_,placed⟩ := update_places rfl done
  have separable : Separable db 2 timeframe := by
    intro row member _ _ _ _ last
    have small : ∀ row ∈ db.items, row.position ≠ 2^63 - 1 := by decide
    exact absurd last (small row member)
  exact ⟨db,_,timeframe,after,done,by decide +kernel,placed.mpr separable⟩

theorem update_merges_positions : ∃ db, run step {} [⟨"t",.add (plain "NOW")⟩,⟨"t",.add (plain "NOW")⟩,⟨"t",.add (plain "NOW")⟩,
      ⟨"t",.update 1 { position := some "9223372036854775807" }⟩,
      ⟨"t",.update 2 { position := some "9223372036854775807" }⟩] = some db ∧
    db.items.map BacklogItem.position = [2^63,2^63-1,3] ∧ ∃ next, update "t" db 3 { position := some "1" } = .ok next ∧
    next.items.map BacklogItem.position = [2^63,2^63,1] :=
  ⟨_,rfl,by decide +kernel,_,rfl,by decide +kernel⟩

/-! Sequences of calls -/

/-- Two rows of the table. -/
def Apart (row other : BacklogItem) : Prop :=
  row.id ≠ other.id ∧ (row.timeframe = other.timeframe → row.status ≠ "RESOLVED" → other.status ≠ "RESOLVED" →
    row.position ≠ other.position)

section
variable (apart : db.items.Pairwise Apart)
include apart

theorem apart_row (member : row ∈ db.items) (here : row.id = id) : db.row id = some row :=
  here ▸ Database.row_of_mem (pairwise_map.mpr (apart.imp And.left)) member

theorem apart_update (kept : ∀ row, db.row id = some row → (change row).id = row.id ∧ (change row).timeframe = row.timeframe ∧
      (change row).position = row.position ∧ ((change row).status ≠ "RESOLVED" → row.status ≠ "RESOLVED")) :
    (db.update id change).items.Pairwise Apart := by
  refine pairwise_map.mpr (apart.imp_of_mem fun {row other} first second held => ?_)
  have one := fun here => kept row (apart_row apart first here)
  have two := fun here => kept other (apart_row apart second here)
  unfold Apart at *
  split <;> split <;> grind

theorem apart_move (integers : ∀ row ∈ db.items, row.position < 2^63) (target : ∀ row, db.row id = some row →
      (change row).id = row.id ∧ (change row).timeframe = timeframe ∧ (change row).position = position) :
    (db.items.map (moveRow id timeframe position change)).Pairwise Apart := by
  refine pairwise_map.mpr (apart.imp_of_mem fun {row other} first second held => ?_)
  have one := fun here => target row (apart_row apart first here)
  have two := fun here => target other (apart_row apart second here)
  have := integers row first
  have := integers other second
  unfold Apart moveRow at *
  split <;> split <;> grind

theorem apart_add (done : add now db item = .ok next) (unplaced : item.position = 0)
    (room : int64 (db.maxPosition item.timeframe + 1) = db.maxPosition item.timeframe + 1) : next.items.Pairwise Apart := by
  obtain ⟨id,position,rfl,fresh,_,_,placed,_⟩ := add_ok done
  have last : position = db.maxPosition item.timeframe + 1 := by
    simp only [addPosition,unplaced,ne_eq,not_true_eq_false,if_false,room] at placed
    split at placed <;> cases placed
    rfl
  refine pairwise_append.mpr ⟨apart,pairwise_singleton ..,fun row member other single => ?_⟩
  obtain rfl := mem_singleton.mp single
  refine ⟨fresh row member,fun together _ _ => ?_⟩
  have bound := db.le_maxPosition member
  simp only [newRow] at together ⊢
  rw [together] at bound
  omega

end

/-- The calls of the sequence. An item that is moved to another timeframe is given a position there, and no position comes
to the end of 64 bits. -/
def KeepsOrder (db : Database) (call : Call) : Prop :=
  match call.operation with
  | .add item => item.position = 0 ∧ int64 (db.maxPosition item.timeframe + 1) = db.maxPosition item.timeframe + 1
  | .update id fields => (∀ row ∈ db.items, row.position < 2^63) ∧
      (fields.position = none → ∀ row, db.row id = some row → fields.timeframe.getD row.timeframe = row.timeframe)
  | .fix _ _ | .release _ _ _ | .resolve _ _ => True
  | _ => False

theorem parsePosition_none {text : Option String} (parsed : parsePosition text = .ok none) : text = none := by
  unfold parsePosition at parsed
  split at parsed
  · rfl
  split at parsed
  · split at parsed <;> cases parsed
  · cases parsed

theorem settle_apart {result : Except Failure Database} (apart : db.items.Pairwise Apart)
    (done : ∀ next, result = .ok next → next.items.Pairwise Apart) : (settle db result).items.Pairwise Apart := by
  cases result with
  | ok next => exact done next rfl
  | error failure => exact apart

theorem apart_perform (apart : db.items.Pairwise Apart) (call : Call) (careful : KeepsOrder db call) :
    (perform db call).items.Pairwise Apart := by
  obtain ⟨now,operation⟩ := call
  cases operation
  case notifyStart | notifyTransition | notifyMerge | notifyDrop | importItems => exact careful.elim
  all_goals refine settle_apart apart fun next done => ?_
  case add => exact apart_add apart done careful.1 careful.2
  case update id fields =>
    obtain ⟨_,parsed,_,⟨rfl,rfl⟩ | ⟨value,timeframe,rfl,target,rfl⟩⟩ := update_ok done
    · exact apart_update apart fun row found =>
        ⟨rfl,careful.2 (parsePosition_none parsed) row found,rfl,fun unresolved => unresolved⟩
    · rw [shift_update_items]
      exact apart_move apart careful.1 fun row found => ⟨rfl,targetTimeframe_ok target found,rfl⟩
  case fix id branch =>
    obtain ⟨item,found,⟨_,rfl⟩ | ⟨isOpen,rfl⟩⟩ := fix_ok done
    · exact apart
    rw [Database.junctionCreator_items]
    refine apart_update apart fun row here => ⟨rfl,rfl,rfl,fun _ => ?_⟩
    rw [Option.some.inj (here.symm.trans found),isOpen]
    decide
  case release id reason branch =>
    obtain ⟨item,found,fixing,rfl⟩ := release_ok done
    refine apart_update apart fun row here => ⟨rfl,rfl,rfl,fun _ => ?_⟩
    rw [Option.some.inj (here.symm.trans found),fixing]
    decide
  case resolve id resolution =>
    obtain ⟨item,_,rfl⟩ := resolve_ok done
    exact apart_update apart fun row _ => ⟨rfl,rfl,rfl,fun unresolved => absurd rfl unresolved⟩

theorem positions_distinct (calls : List Call) (runs : run step {} calls = some db) (careful : Along step KeepsOrder {} calls) :
    db.items.Pairwise fun row other => row.timeframe = other.timeframe → row.status ∈ ["OPEN","FIXING"] →
      other.status ∈ ["OPEN","FIXING"] → row.position ≠ other.position := by
  have apart : db.items.Pairwise Apart := by
    refine run_guarded step KeepsOrder (fun db => db.items.Pairwise Apart) ?_ .nil careful runs
    rintro db call next held kept ⟨⟩
    exact apart_perform held call kept
  have unresolved {row : BacklogItem} (shown : row.status ∈ ["OPEN","FIXING"]) : row.status ≠ "RESOLVED" := by
    rintro resolved
    simp [resolved] at shown
  exact apart.imp fun held together one two => held.2 together (unresolved one) (unresolved two)

theorem positions_distinct_moved : ∃ db, run step {} [⟨"t",.add (plain "NOW")⟩,⟨"t",.add (plain "IN_VIEW")⟩,
      ⟨"t",.update 2 { timeframe := some "NOW", position := some "1" }⟩] = some db ∧
    db.items.Pairwise fun row other => row.timeframe = other.timeframe → row.status ∈ ["OPEN","FIXING"] →
      other.status ∈ ["OPEN","FIXING"] → row.position ≠ other.position := by
  refine ⟨_,rfl,positions_distinct [_,_,_] rfl ⟨⟨rfl,by decide⟩,?_⟩⟩
  rintro _ ⟨⟩
  refine ⟨⟨rfl,by decide⟩,?_⟩
  rintro _ ⟨⟩
  exact ⟨⟨by decide +kernel,nofun⟩,fun _ _ => trivial⟩

theorem positions_collide : ∃ db, run step {} [⟨"t",.add (plain "NOW")⟩,⟨"t",.add (plain "IN_VIEW")⟩,
      ⟨"t",.update 2 { timeframe := some "NOW" }⟩] = some db ∧
    db.items.map (fun row => (row.timeframe,row.status,row.position)) = [("NOW","OPEN",1),("NOW","OPEN",1)] :=
  ⟨_,rfl,by decide +kernel⟩

end ApexPipeline.Backlog
