import ApexPipeline.HandoffConsistency

/-! The exported document against the table: what an import makes of the rows, that export after import loses nothing
and has a fixed point, and when the document restores the table. -/
namespace ApexPipeline.Backlog

open Database

variable {db next : Database} {item row : BacklogItem} {items : List BacklogItem} {now : String} {failure : Failure}
  {id position : Int}

theorem listAll_perm (db : Database) : (listAll db).Perm db.items := List.perm_insertionSort _ _

/-- What the table owns of a row; an import never writes it. -/
structure Owned (row after : BacklogItem) : Prop where
  id : after.id = row.id
  status : after.status = row.status
  resolution : after.resolution = row.resolution
  resolvedAt : after.resolvedAt = row.resolvedAt
  blockedReason : after.blockedReason = row.blockedReason
  createdAt : after.createdAt = row.createdAt

theorem Owned.refl (row : BacklogItem) : Owned row row := ⟨rfl,rfl,rfl,rfl,rfl,rfl⟩

theorem Owned.trans (first : Owned row middle) (second : Owned middle after) : Owned row after :=
  ⟨second.id.trans first.id,second.status.trans first.status,second.resolution.trans first.resolution,
    second.resolvedAt.trans first.resolvedAt,second.blockedReason.trans first.blockedReason,
    second.createdAt.trans first.createdAt⟩

def Stale (item row : BacklogItem) : Prop := item.updatedAt ≠ "" ∧ item.updatedAt < row.updatedAt

structure Merges (items : List BacklogItem) (db next : Database) : Prop where
  rows : ∀ x, next.row x = none ↔ db.row x = none ∧ ∀ item ∈ items, item.id ≠ x
  kept : ∀ x row, db.row x = some row → ∃ after, next.row x = some after ∧ Owned row after ∧
    ((∀ item ∈ items, item.id = x → Stale item row) → after = row)

theorem Merges.nil (db : Database) : Merges [] db db :=
  ⟨fun x => by simp,fun x row found => ⟨row,found,.refl row,fun _ => rfl⟩⟩

theorem Merges.cons (first : Merges [item] db middle) (rest : Merges items middle next) : Merges (item :: items) db next := by
  constructor
  · intro x
    rw [rest.rows,first.rows]
    simp [and_assoc]
  · intro x row found
    obtain ⟨between,meanwhile,owned,same⟩ := first.kept x row found
    obtain ⟨after,final,owned',same'⟩ := rest.kept x between meanwhile
    refine ⟨after,final,owned.trans owned',fun stale => ?_⟩
    have unchanged : between = row := same fun other member => stale other (by simp_all)
    subst unchanged
    exact same' fun other member => stale other (List.mem_cons_of_mem _ member)

theorem merges_untouched (present : db.row item.id = some row) : Merges [item] db db := by
  refine ⟨fun x => ?_,fun x row found => ⟨row,found,.refl row,fun _ => rfl⟩⟩
  refine iff_self_and.mpr fun absent other member same => ?_
  cases List.mem_singleton.mp member
  rw [same,absent] at present
  cases present

theorem merges_overwrite (present : db.row item.id = some row) (fresh : ¬ Stale item row) :
    Merges [item] db (db.update item.id (overwrite now item)) := by
  have rows : ∀ x, (db.update item.id (overwrite now item)).row x =
      if x = item.id then (db.row item.id).map (overwrite now item) else db.row x := db.row_update fun _ => rfl
  constructor
  · intro x
    rw [rows]
    split
    · rename_i same
      simp [same,present]
    · rename_i other
      simp [Ne.symm other]
  · intro x existing found
    rw [rows]
    split
    · rename_i same
      subst same
      cases present.symm.trans found
      refine ⟨overwrite now item row,by rw [present]; rfl,⟨rfl,rfl,rfl,rfl,rfl,rfl⟩,fun stale => ?_⟩
      exact absurd (stale item List.mem_cons_self rfl) fresh
    · exact ⟨existing,found,.refl existing,fun _ => rfl⟩

theorem updateFromImport_merges (done : updateFromImport now db item = .ok next) : Merges [item] db next := by
  unfold updateFromImport at done
  split at done
  · cases done
  · cases done
  rename_i existing found
  obtain ⟨present,_⟩ := get_ok found
  split at done
  · cases done
    exact merges_untouched present
  rename_i fresh
  split at done
  · cases done
    exact merges_untouched present
  · cases done
    exact merges_overwrite present fresh

theorem row_insert (fresh : ∀ row ∈ db.items, row.id ≠ id) (x : Int) :
    Database.row { db with items := db.items ++ [newRow now item id position] } x =
      if x = id then some (newRow now item id position) else db.row x := Database.row_append fresh x

theorem add_merges (done : add now db item = .ok next) (nonzero : item.id ≠ 0) : Merges [item] db next := by
  obtain ⟨id,position,rfl,fresh,_,named,_⟩ := add_ok done
  have same := named nonzero
  constructor
  · intro x
    rw [row_insert fresh]
    split
    · rename_i here
      simp [here,same]
    · rename_i other
      simp [Ne.symm (same ▸ other)]
  · intro x row found
    have other : x ≠ id := by
      rintro rfl
      exact fresh row (Database.row_mem found).1 (Database.row_mem found).2
    exact ⟨row,by rw [row_insert fresh,if_neg other,found],.refl row,fun _ => rfl⟩

theorem importItem_merges (done : importItem now db item = .ok next) (nonzero : item.id ≠ 0) : Merges [item] db next := by
  unfold importItem at done
  split at done
  · unfold populateResolvedAt at done
    split at done
    · obtain ⟨rows,kept⟩ := add_merges done nonzero
      exact ⟨by simpa using rows,by simpa [Stale] using kept⟩
    · exact add_merges done nonzero
  · exact updateFromImport_merges done

theorem importItems_merges (done : importItems now db items = (next,.ok count)) (nonzero : ∀ item ∈ items, item.id ≠ 0) :
    Merges items db next := by
  induction items generalizing db count with
  | nil =>
    cases done
    exact .nil _
  | cons item rest ih =>
    obtain ⟨middle,number,first,later⟩ := importItems_cons done
    obtain ⟨head,tail⟩ := List.forall_mem_cons.mp nonzero
    exact .cons (importItem_merges first head) (ih later tail)

theorem importItem_self (keys : (db.items.map BacklogItem.id).Nodup) (member : item ∈ db.items) (readable : item.Readable)
    (now : String) : importItem now db item = .ok db := by
  have found := Database.row_of_mem keys member
  have got : db.get item.id = .ok (some item) := by simp [Database.get,found,readable]
  simp [importItem,Database.check,found,updateFromImport,got]

theorem importItems_self (keys : (db.items.map BacklogItem.id).Nodup) (members : ∀ item ∈ items, item ∈ db.items ∧ item.Readable)
    (now : String) : importItems now db items = (db,.ok items.length) := by
  induction items with
  | nil => rfl
  | cons item rest ih =>
    obtain ⟨⟨member,readable⟩,tail⟩ := List.forall_mem_cons.mp members
    simp [importItems,importItem_self keys member readable,ih tail,Except.map]

theorem exportJSON_ok : exportJSON db = .ok out ↔ (∀ item ∈ db.items, item.Readable) ∧ out = ⟨db.nextId,listAll db⟩ := by
  unfold exportJSON
  split <;> simp_all [eq_comm]

theorem runInTx_ok : runInTx db body = (next,.ok value) ↔ body = (next,.ok value) := by
  obtain ⟨state,result⟩ := body
  cases result <;> simp [runInTx]

theorem safeExportJSON_ok {items : List BacklogItem} : safeExportJSON now db (some items) = (next,.ok (out,count)) ↔
    importItems now db items = (next,.ok count) ∧ exportJSON next = .ok out := by
  rw [safeExportJSON,runInTx_ok]
  constructor
  · intro done
    obtain ⟨rfl,result⟩ := Prod.mk.inj done
    obtain ⟨number,imported,result⟩ := bind_ok result
    obtain ⟨document,exported,result⟩ := bind_ok result
    cases result
    exact ⟨Prod.ext rfl imported,exported⟩
  · rintro ⟨imported,exported⟩
    simp [imported,exported,bind,Except.bind]
    rfl

theorem safeExportJSON_failed (failed : safeExportJSON now db input = (next,.error failure)) : next = db := by
  unfold safeExportJSON runInTx at failed
  split at failed
  · rename_i value succeeded
    rw [failed] at succeeded
    cases succeeded
  · exact (Prod.mk.inj failed).1.symm

theorem lt_nextId (bounds : ∀ row ∈ db.items, -2^63 ≤ row.id ∧ row.id < 2^63 - 1) (member : row ∈ db.items) :
    row.id < db.nextId := by
  obtain ⟨above,largest,present,same⟩ := db.maxId_spec member
  obtain ⟨low,high⟩ := bounds largest present
  have exact : db.nextId = db.maxId + 1 := Int.bmod_eq_of_le (by omega) (by omega)
  omega

theorem mem_ids : x ∈ db.items.map BacklogItem.id ↔ db.row x ≠ none := by
  simp [row]

structure Preserves (items : List BacklogItem) (db next : Database) (out : BacklogJSON) : Prop where
  once : (out.items.map BacklogItem.id).Nodup
  all : ∀ x, x ∈ out.items.map BacklogItem.id ↔ x ∈ db.items.map BacklogItem.id ∨ x ∈ items.map BacklogItem.id
  above : ∀ x ∈ out.items.map BacklogItem.id, x < out.nextId
  owned : ∀ row ∈ db.items, ∃ after ∈ out.items, Owned row after
  newer : ∀ row ∈ db.items, (∀ item ∈ items, item.id = row.id → Stale item row) → row ∈ out.items
  again : ∀ later, safeExportJSON later next (some out.items) = (next,.ok (out,out.items.length))

theorem safeExportJSON_preserves (keys : (db.items.map BacklogItem.id).Nodup) (positive : ∀ item ∈ items, 0 < item.id)
    (bounds : ∀ row ∈ db.items, -2^63 ≤ row.id ∧ row.id < 2^63 - 1) (small : ∀ item ∈ items, item.id < 2^63 - 1)
    (done : safeExportJSON now db (some items) = (next,.ok (out,count))) : Preserves items db next out := by
  obtain ⟨imported,exported⟩ := safeExportJSON_ok.mp done
  obtain ⟨readable,rfl⟩ := exportJSON_ok.mp exported
  have merges := importItems_merges imported fun item member => ne_of_gt (positive item member)
  have sorted := listAll_perm next
  have unique : (next.items.map BacklogItem.id).Nodup := by
    have grown := (Handoff.importItems_tables now db items).keys keys
    rwa [imported] at grown
  have all : ∀ x, x ∈ next.items.map BacklogItem.id ↔ x ∈ db.items.map BacklogItem.id ∨ x ∈ items.map BacklogItem.id := by
    intro x
    rw [mem_ids,mem_ids,ne_eq,merges.rows,not_and_or]
    simp
  have limits : ∀ row ∈ next.items, -2^63 ≤ row.id ∧ row.id < 2^63 - 1 := by
    intro row member
    rcases (all row.id).mp (List.mem_map_of_mem member) with old | new
    · obtain ⟨before,present,same⟩ := List.mem_map.mp old
      exact same ▸ bounds before present
    obtain ⟨item,present,same⟩ := List.mem_map.mp new
    have := positive item present
    have := small item present
    omega
  have kept : ∀ row ∈ db.items, ∃ after ∈ listAll next, Owned row after ∧
      ((∀ item ∈ items, item.id = row.id → Stale item row) → after = row) := by
    intro row member
    obtain ⟨after,found,owned,same⟩ := merges.kept row.id row (row_of_mem keys member)
    exact ⟨after,sorted.mem_iff.mpr (row_mem found).1,owned,same⟩
  refine ⟨?_,?_,?_,?_,?_,?_⟩
  · exact (sorted.map _).nodup_iff.mpr unique
  · exact fun x => ((sorted.map _).mem_iff).trans (all x)
  · intro x member
    obtain ⟨row,present,rfl⟩ := List.mem_map.mp ((sorted.map _).mem_iff.mp member)
    exact lt_nextId limits present
  · intro row member
    obtain ⟨after,present,owned,_⟩ := kept row member
    exact ⟨after,present,owned⟩
  · intro row member stale
    obtain ⟨after,present,_,same⟩ := kept row member
    exact same stale ▸ present
  · intro later
    refine safeExportJSON_ok.mpr ⟨importItems_self unique (fun item member => ?_) later,exported⟩
    exact ⟨sorted.mem_iff.mp member,readable item (sorted.mem_iff.mp member)⟩

/-- For every database and every input with positive ids, none of them the largest integer: a success has kept
everything and is a fixed point, and a failure has changed nothing. -/
theorem safe_export_loses_nothing (keys : (db.items.map BacklogItem.id).Nodup)
    (bounds : ∀ row ∈ db.items, -2^63 ≤ row.id ∧ row.id < 2^63 - 1)
    (positive : ∀ item ∈ items, 0 < item.id ∧ item.id < 2^63 - 1) :
    (∀ next out count, safeExportJSON now db (some items) = (next,.ok (out,count)) → Preserves items db next out) ∧
    ∀ input next failure, safeExportJSON now db input = (next,.error failure) → next = db :=
  ⟨fun _ _ _ => safeExportJSON_preserves keys (fun item member => (positive item member).1) bounds
    (fun item member => (positive item member).2),fun _ _ _ => safeExportJSON_failed⟩

def localTable : Database where
  items := [⟨1,"a","MINOR","NOW","CORE","BUG","","",1,"FIXING","","","x","1","5"⟩,
    ⟨2,"b","MINOR","NOW","CORE","BUG","","",2,"OPEN","","","","1","2"⟩]

def fetchedItems : List BacklogItem :=
  [⟨2,"c","MAJOR","NOW","CI","BUG","","",2,"RESOLVED","","","","1","3"⟩,
    ⟨1,"d","MINOR","NOW","CORE","BUG","","",1,"OPEN","","","","1","4"⟩,
    ⟨7,"e","MINOR","NOW","CORE","BUG","","",0,"","","","","1","4"⟩]

theorem safe_export_loses_nothing_three :
    ∃ next out, safeExportJSON "9" localTable (some fetchedItems) = (next,.ok (out,3)) ∧
      out.items.map (fun item => (item.id,item.title,item.status)) = [(1,"a","FIXING"),(2,"c","OPEN"),(7,"e","OPEN")] ∧
      out.nextId = 8 ∧ Preserves fetchedItems localTable next out := by
  have done : safeExportJSON "9" localTable (some fetchedItems) = (_,.ok (_,3)) := rfl
  exact ⟨_,_,done,by decide +kernel,by decide +kernel,
    (safe_export_loses_nothing (by decide) (by decide) (by decide)).1 _ _ _ done⟩

/-- The successor of the largest id does not fit, so the next id is the smallest integer. And an item without a time of its
own overwrites a row, however late that was changed. -/
theorem largest_id_wraps :
    (∃ next out, safeExportJSON "9" {} (some [⟨2^63 - 1,"a","MINOR","NOW","CORE","BUG","","",1,"OPEN","","","","",""⟩]) =
        (next,.ok (out,1)) ∧ out.items.map BacklogItem.id = [2^63 - 1] ∧ out.nextId = -2^63) ∧
    ∃ next out, safeExportJSON "9" localTable (some [⟨1,"d","MAJOR","NOW","CORE","BUG","","",1,"OPEN","","","","1",""⟩]) =
        (next,.ok (out,1)) ∧ (localTable.items.map fun item => (item.id,item.title,item.updatedAt)) = [(1,"a","5"),(2,"b","2")] ∧
        (out.items.map fun item => (item.id,item.title,item.updatedAt)) = [(1,"d","9"),(2,"b","2")] :=
  ⟨⟨_,_,rfl,by decide +kernel,by decide +kernel⟩,_,_,rfl,by decide +kernel,by decide +kernel⟩

/-! Restoring an empty table -/

def BacklogItem.content (item : BacklogItem) : BacklogItem := { item with createdAt := "", updatedAt := "" }

/-- The document of the table, imported into an empty one, gives the items again. -/
def Restores (db : Database) : Prop :=
  ∀ now, ∃ out next count, exportJSON db = .ok out ∧ importItems now {} out.items = (next,.ok count) ∧
    (next.items.map BacklogItem.content).Perm (db.items.map BacklogItem.content)

structure Restorable (item : BacklogItem) : Prop where
  valid : validateItem item = .ok ()
  readable : item.Readable
  placed : item.position ≠ 0
  unblocked : item.blockedReason = ""
  dated : item.status = "RESOLVED" → item.resolvedAt ≠ ""

instance (item : BacklogItem) : Decidable (Restorable item) :=
  decidable_of_iff (validateItem item = .ok () ∧ item.Readable ∧ item.position ≠ 0 ∧ item.blockedReason = "" ∧
    (item.status = "RESOLVED" → item.resolvedAt ≠ "")) ⟨fun ⟨valid,readable,placed,unblocked,dated⟩ =>
      ⟨valid,readable,placed,unblocked,dated⟩,fun ⟨valid,readable,placed,unblocked,dated⟩ =>
      ⟨valid,readable,placed,unblocked,dated⟩⟩

def Proper (item : BacklogItem) : Prop := item.id ≠ 0 ∧ item.status ≠ ""

theorem importItem_restores (absent : db.row item.id = none) (proper : Proper item) (restorable : Restorable item)
    (now : String) :
    importItem now db item = .ok { db with items := db.items ++ [newRow now item item.id item.position] } := by
  have unknown : db.check item.id = none := by simp [check,absent]
  have same : populateResolvedAt item = item := if_neg fun both => restorable.dated both.1 both.2
  have fresh : db.rowId item.id = .ok item.id := by simp [rowId,proper.1,absent]
  have placed : addPosition db item = .ok item.position := if_pos restorable.placed
  simp [importItem,unknown,same,add,restorable.valid,placed,fresh,bind,Except.bind]
  rfl

theorem importItems_restores (unique : (items.map BacklogItem.id).Nodup) (absent : ∀ item ∈ items, db.row item.id = none)
    (good : ∀ item ∈ items, Proper item ∧ Restorable item) (now : String) :
    importItems now db items =
      ({ db with items := db.items ++ items.map fun item => newRow now item item.id item.position },.ok items.length) := by
  induction items generalizing db with
  | nil => simp [importItems]
  | cons item rest ih =>
    obtain ⟨⟨proper,restorable⟩,tail⟩ := List.forall_mem_cons.mp good
    obtain ⟨new,others⟩ := List.forall_mem_cons.mp absent
    obtain ⟨apart,unique⟩ := List.nodup_cons.mp unique
    have fresh : ∀ row ∈ db.items, row.id ≠ item.id := fun row member same =>
      absurd (List.find?_eq_none.mp new row member) (by simp [same])
    have still : ∀ other ∈ rest,
        Database.row { db with items := db.items ++ [newRow now item item.id item.position] } other.id = none := by
      intro other member
      rw [row_insert fresh,if_neg fun same => apart (List.mem_map.mpr ⟨other,member,same⟩),others other member]
    simp [importItems,importItem_restores new proper restorable,ih unique still tail,Except.map]

theorem restores_of_restorable (keys : (db.items.map BacklogItem.id).Nodup) (proper : ∀ item ∈ db.items, Proper item)
    (restorable : ∀ item ∈ db.items, Restorable item) : Restores db := by
  intro now
  have sorted := listAll_perm db
  have absent : ∀ item ∈ listAll db, row {} item.id = none := fun item _ => rfl
  have imported := importItems_restores ((sorted.map _).nodup_iff.mpr keys) absent
    (fun item member => ⟨proper item (sorted.mem_iff.mp member),restorable item (sorted.mem_iff.mp member)⟩) now
  refine ⟨_,_,_,exportJSON_ok.mpr ⟨fun item member => (restorable item member).readable,rfl⟩,imported,?_⟩
  have contents : (listAll db).map (fun item => (newRow now item item.id item.position).content) =
      (listAll db).map BacklogItem.content := List.map_congr_left fun item member =>
    by simp [newRow,BacklogItem.content,(proper item (sorted.mem_iff.mp member)).2,
      (restorable item (sorted.mem_iff.mp member)).unblocked]
  simp only [List.nil_append,List.map_map,Function.comp_def]
  rw [contents]
  exact sorted.map BacklogItem.content

theorem populateResolvedAt_same (db : Database) (item : BacklogItem) : (populateResolvedAt item).id = item.id ∧
    addPosition db (populateResolvedAt item) = addPosition db item ∧
    validateItem (populateResolvedAt item) = validateItem item := by
  unfold populateResolvedAt
  split <;> exact ⟨rfl,rfl,rfl⟩

theorem importItems_inserted (unique : (items.map BacklogItem.id).Nodup) (absent : ∀ item ∈ items, db.row item.id = none)
    (nonzero : ∀ item ∈ items, item.id ≠ 0) (done : importItems now db items = (next,.ok count)) :
    (∀ row ∈ db.items, row ∈ next.items) ∧ ∀ item ∈ items, ∃ before position,
      (∀ row ∈ before.items, row ∈ next.items) ∧ addPosition before item = .ok position ∧ validateItem item = .ok () ∧
        newRow now (populateResolvedAt item) item.id position ∈ next.items := by
  induction items generalizing db count with
  | nil =>
    cases done
    exact ⟨fun row member => member,nofun⟩
  | cons item rest ih =>
    obtain ⟨middle,number,first,later⟩ := importItems_cons done
    obtain ⟨new,others⟩ := List.forall_mem_cons.mp absent
    obtain ⟨given,rest_nonzero⟩ := List.forall_mem_cons.mp nonzero
    obtain ⟨apart,unique⟩ := List.nodup_cons.mp unique
    have unknown : db.check item.id = none := by simp [Database.check,new]
    have added : add now db (populateResolvedAt item) = .ok middle := by simpa [importItem,unknown] using first
    obtain ⟨sameId,samePosition,sameValid⟩ := populateResolvedAt_same db item
    obtain ⟨id,position,rfl,fresh,_,named,placed,valid⟩ := add_ok added
    obtain rfl : id = item.id := (named (sameId ▸ given)).trans sameId
    have still : ∀ other ∈ rest, Database.row { db with items := db.items ++
        [newRow now (populateResolvedAt item) item.id position] } other.id = none := by
      intro other member
      rw [row_insert fresh,if_neg fun same => apart (List.mem_map.mpr ⟨other,member,same⟩),others other member]
    obtain ⟨kept,inserted⟩ := ih unique still rest_nonzero later
    have before : ∀ row ∈ db.items, row ∈ next.items := fun row member => kept row (List.mem_append_left _ member)
    refine ⟨before,fun other member => ?_⟩
    rcases List.mem_cons.mp member with rfl | tail
    · exact ⟨db,position,before,samePosition ▸ placed,sameValid ▸ valid,kept _ (List.mem_append_right _ List.mem_cons_self)⟩
    · exact inserted other tail

section
variable (nonneg : ∀ row ∈ db.items, 0 ≤ row.position)
include nonneg

theorem maxPosition_nonneg (timeframe : String) : 0 ≤ db.maxPosition timeframe := by
  unfold maxPosition
  cases largest : ((db.items.filter fun item => item.timeframe = timeframe).map BacklogItem.position).max? with
  | none => simp
  | some position =>
    obtain ⟨row,member,rfl⟩ := List.mem_map.mp (List.max?_mem largest)
    exact nonneg row (List.mem_filter.mp member).1

theorem addPosition_ne_zero (placed : addPosition db item = .ok position) :
    position ≠ 0 := by
  have bound := maxPosition_nonneg nonneg item.timeframe
  unfold addPosition at placed
  split at placed
  · cases placed
    assumption
  · split at placed <;> cases placed
    simp only [int64,Int.bmod]
    split <;> omega

end

theorem restorable_of_restores (keys : (db.items.map BacklogItem.id).Nodup) (proper : ∀ item ∈ db.items, Proper item)
    (nonneg : ∀ item ∈ db.items, 0 ≤ item.position) (restores : Restores db) : ∀ item ∈ db.items, Restorable item := by
  intro item member
  obtain ⟨out,next,count,exported,imported,contents⟩ := restores ""
  obtain ⟨readable,rfl⟩ := exportJSON_ok.mp exported
  have sorted := listAll_perm db
  have absent : ∀ item ∈ listAll db, row {} item.id = none := fun item _ => rfl
  have original : ∀ row ∈ next.items, ∃ other ∈ db.items, other.content = row.content := fun row present =>
    List.mem_map.mp (contents.mem_iff.mp (List.mem_map_of_mem present))
  obtain ⟨before,position,earlier,placed,valid,inserted⟩ := (importItems_inserted ((sorted.map _).nodup_iff.mpr keys) absent
    (fun item member => (proper item (sorted.mem_iff.mp member)).1) imported).2 item (sorted.mem_iff.mpr member)
  obtain ⟨other,present,same⟩ := original _ inserted
  have sameId := congrArg BacklogItem.id same
  obtain rfl : other = item := List.inj_on_of_nodup_map keys present member sameId
  have samePosition : other.position = position := congrArg BacklogItem.position same
  refine ⟨valid,readable other present,?_,congrArg BacklogItem.blockedReason same,fun resolved undated => ?_⟩
  · rw [samePosition]
    refine addPosition_ne_zero (fun row old => ?_) placed
    obtain ⟨source,there,alike⟩ := original row (earlier row old)
    have equal : source.content.position = row.content.position := congrArg BacklogItem.position alike
    change source.position = row.position at equal
    exact equal ▸ nonneg source there
  · have sameTime := congrArg BacklogItem.resolvedAt same
    simp [BacklogItem.content,newRow,populateResolvedAt,resolved,undated] at sameTime

end ApexPipeline.Backlog

namespace ApexPipeline.Handoff

open Backlog Execution

def Tables.Proper (t : Tables) : Prop := ∀ id status, t.status id = some status → id ≠ 0 ∧ status ≠ ""

namespace Tables.Proper
variable {t after : Tables} {id : Int} {ids : List Int} {status : String}

variable (proper : t.Proper)
include proper

theorem grown (grown : t.Grown after) : after.Proper := by
  intro id status present
  cases before : t.status id with
  | none => exact grown.fresh id status before present
  | some old => exact proper id status ((grown.kept id (by simp [before])).symm.trans present)

theorem put (known : t.status id ≠ none) (text : status ≠ "") : (t.put id status).Proper := by
  intro x other present
  simp only [Tables.put] at present
  split at present
  · rename_i same
    cases present
    obtain ⟨old,before⟩ := Option.ne_none_iff_exists'.mp known
    exact ⟨same ▸ (proper id old before).1,text⟩
  · exact proper x other present

variable (branch : String)

theorem dismiss : (t.dismiss branch).Proper := by
  intro x other present
  simp only [Tables.dismiss,reopen,forget] at present
  split at present
  · rename_i fixing
    cases present
    exact ⟨(proper x _ fixing.2).1,by decide⟩
  · exact proper x other present

theorem clear : (t.clear branch).Proper := by
  unfold Tables.clear
  split
  · exact proper.dismiss branch
  · exact proper

theorem assign (isOpen : ∀ id ∈ ids, t.status id = some "OPEN") :
    (t.assign branch ids).Proper := by
  intro x other present
  simp only [Tables.assign,link,take] at present
  split at present
  · rename_i member
    cases present
    exact ⟨(proper x _ (isOpen x member)).1,by decide⟩
  · exact proper x other present

end Tables.Proper

theorem proper_perform (proper : (tables db).Proper) (call : Call) : (tables (perform db call)).Proper := by
  have moves := perform_moves db call
  generalize tables (perform db call) = next at moves
  cases moves with
  | tame tame =>
    cases tame with
    | still => exact proper
    | started branch ids isOpen =>
      exact (show (((tables db).clear branch).register branch).Proper from proper.clear branch).assign branch isOpen
    | dismissed branch => exact proper.dismiss branch
    | released id known | resolved id known => exact proper.put known (by decide)
  | added done => exact proper.grown (add_tables done)
  | fixed _ isOpen => exact proper.assign _ (by simpa [tables] using isOpen)
  | imported => exact proper.grown (importItems_tables _ db _)

theorem reachable_rows {calls : List Call} (runs : run step {} calls = some db) :
    (db.items.map BacklogItem.id).Nodup ∧ ∀ item ∈ db.items, Backlog.Proper item := by
  obtain ⟨sound,proper⟩ : (tables db).Sound ∧ (tables db).Proper := by
    refine run_invariant (fun db => (tables db).Sound ∧ (tables db).Proper) ?_ ⟨sound_empty,nofun⟩ runs
    rintro db call next ⟨sound,proper⟩ ⟨⟩
    exact ⟨sound_perform sound call,proper_perform proper call⟩
  refine ⟨sound.keys,fun item member => proper item.id item.status ?_⟩
  exact Database.check_of_row (Database.row_of_mem sound.keys member)

/-- A database that the calls can reach is restored if every row is one that `Add` accepts and keeps as it is; where
no position is negative, only then. -/
theorem export_restores_iff {calls : List Call} {db : Database} (runs : run step {} calls = some db) :
    ((∀ item ∈ db.items, Restorable item) → Restores db) ∧
    ((∀ item ∈ db.items, 0 ≤ item.position) → (Restores db ↔ ∀ item ∈ db.items, Restorable item)) := by
  obtain ⟨keys,proper⟩ := reachable_rows runs
  exact ⟨restores_of_restorable keys proper,fun nonneg =>
    ⟨restorable_of_restores keys proper nonneg,restores_of_restorable keys proper⟩⟩

def twoItems : List Call :=
  [⟨"1",.add ⟨0,"a","MAJOR","NOW","CORE, CI","BUG","","",0,"","","","","",""⟩⟩,
    ⟨"2",.add ⟨0,"b","MINOR","NOW","DOCS","DOCS","","1",0,"","","","","",""⟩⟩,
    ⟨"3",.notifyStart { branch := "b", backlogIDs := [1] }⟩,⟨"4",.resolve 1 "FIXED"⟩,⟨"5",.notifyMerge "b" ""⟩]

theorem export_restores_two : ∃ db, run step {} twoItems = some db ∧
      db.items.map (fun item => (item.id,item.status,item.position)) = [(1,"RESOLVED",1),(2,"OPEN",2)] ∧ Restores db := by
  refine exists_final (by decide +kernel) fun runs => ⟨by decide +kernel,?_⟩
  exact (export_restores_iff runs).1 (by decide +kernel)

/-- The reason for which an item is blocked is exported, and lost on the way back. -/
theorem blocked_reason_lost :
    ∃ db out next, run step {} [⟨"1",.add ⟨0,"a","MAJOR","NOW","CORE","BUG","","",0,"","","","","",""⟩⟩,
        ⟨"2",.update 1 { blocked := some "waits for a decision" }⟩] = some db ∧
      exportJSON db = .ok out ∧ out.items.map (fun item => item.blockedReason) = ["waits for a decision"] ∧
      importItems "3" {} out.items = (next,.ok 1) ∧ next.items.map (fun item => item.blockedReason) = [""] := by
  exact ⟨_,_,_,rfl,rfl,by decide +kernel,rfl,by decide +kernel⟩

end ApexPipeline.Handoff
