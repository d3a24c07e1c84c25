import ApexPipeline.Execution
import ApexPipeline.Handoff

/-! The relation between the tables of the two modules over sequences of calls. The abstract layer has the status of
every item, the links and the names of the branches; each call is one of its few operations. -/
namespace ApexPipeline.Handoff

open Backlog Execution List

/-- What the backlog and the handoff tables say about each other. -/
structure Tables where
  keys : List Int
  status : Int → Option String
  linked : String → Int → Prop
  registered : String → Prop

namespace Tables

/-- Holds after every call: a linked item is not open, and has one link. -/
structure Sound (t : Tables) : Prop where
  keys : t.keys.Nodup
  taken : ∀ branch id, t.linked branch id → t.status id ≠ none ∧ t.status id ≠ some "OPEN"
  once : ∀ branch other id, t.linked branch id → t.linked other id → branch = other

structure Consistent (t : Tables) : Prop where
  fixing : ∀ id, t.status id = some "FIXING" → ∃ branch, t.linked branch id
  registered : ∀ branch id, t.linked branch id → t.registered branch

def put (t : Tables) (id : Int) (status : String) : Tables :=
  { t with status := fun x => if x = id then some status else t.status x }

def unlink (t : Tables) (id : Int) : Tables :=
  { t with linked := fun branch x => t.linked branch x ∧ x ≠ id }

def register (t : Tables) (branch : String) : Tables :=
  { t with registered := fun other => t.registered other ∨ other = branch }

def link (t : Tables) (branch : String) (ids : List Int) : Tables :=
  { t with linked := fun other x => t.linked other x ∨ other = branch ∧ x ∈ ids }

def take (t : Tables) (ids : List Int) : Tables :=
  { t with status := fun x => if x ∈ ids then some "FIXING" else t.status x }

def assign (t : Tables) (branch : String) (ids : List Int) : Tables := (t.link branch ids).take ids

open Classical in
noncomputable def reopen (t : Tables) (items : Int → Prop) : Tables :=
  { t with status := fun x => if items x ∧ t.status x = some "FIXING" then some "OPEN" else t.status x }

def forget (t : Tables) (branch : String) : Tables :=
  { t with
    linked := fun other x => t.linked other x ∧ other ≠ branch
    registered := fun other => t.registered other ∧ other ≠ branch }

noncomputable def dismiss (t : Tables) (branch : String) : Tables := (t.reopen (t.linked branch)).forget branch

open Classical in
noncomputable def clear (t : Tables) (branch : String) : Tables := if t.registered branch then t.dismiss branch else t

structure Grown (t after : Tables) : Prop where
  keys : t.keys.Nodup → after.keys.Nodup
  kept : ∀ id, t.status id ≠ none → after.status id = t.status id
  fresh : ∀ id status, t.status id = none → after.status id = some status → id ≠ 0 ∧ status ≠ ""
  linked : after.linked = t.linked
  registered : after.registered = t.registered

variable {t after : Tables} {branch : String} {id : Int} {ids : List Int}

theorem Grown.refl (t : Tables) : t.Grown t where
  keys := fun keys => keys
  kept := fun _ _ => rfl
  fresh := fun _ _ absent present => absurd (absent.symm.trans present) nofun
  linked := rfl
  registered := rfl

theorem Grown.trans (first : t.Grown middle) (second : middle.Grown after) : t.Grown after where
  keys := fun keys => second.keys (first.keys keys)
  kept := by
    intro id present
    have same := first.kept id present
    exact (second.kept id (same ▸ present)).trans same
  fresh := by
    intro id status absent present
    cases meanwhile : middle.status id with
    | none => exact second.fresh id status meanwhile present
    | some other =>
      have kept := second.kept id (by simp [meanwhile])
      exact first.fresh id status absent (kept.symm.trans present)
  linked := second.linked.trans first.linked
  registered := second.registered.trans first.registered

theorem Sound.grown (sound : t.Sound) (grown : t.Grown after) : after.Sound where
  keys := grown.keys sound.keys
  taken := by
    intro branch id linked
    rw [grown.linked] at linked
    obtain ⟨present,taken⟩ := sound.taken branch id linked
    rw [grown.kept id present]
    exact ⟨present,taken⟩
  once := by
    rw [grown.linked]
    exact sound.once

theorem Consistent.grown (sound : t.Sound) (consistent : t.Consistent) (grown : t.Grown after) :
    after.Consistent ↔ ∀ id, after.status id = some "FIXING" → t.status id ≠ none := by
  constructor
  · intro held id fixing
    obtain ⟨branch,linked⟩ := held.fixing id fixing
    rw [grown.linked] at linked
    exact (sound.taken branch id linked).1
  · intro known
    refine ⟨fun id fixing => ?_,?_⟩
    · rw [grown.linked]
      exact consistent.fixing id ((grown.kept id (known id fixing)).symm.trans fixing)
    · rw [grown.linked,grown.registered]
      exact consistent.registered

theorem Sound.put (sound : t.Sound) (status : String) (taken : status ≠ "OPEN") : (t.put id status).Sound where
  keys := sound.keys
  taken := by
    intro branch x linked
    simp only [Tables.put]
    split
    · simpa using taken
    · exact sound.taken branch x linked
  once := sound.once

theorem Consistent.put (consistent : t.Consistent) (status : String) (done : status ≠ "FIXING") :
    (t.put id status).Consistent where
  fixing := by
    intro x fixing
    simp only [Tables.put] at fixing
    split at fixing
    · exact absurd (Option.some.inj fixing) done
    · exact consistent.fixing x fixing
  registered := consistent.registered

theorem Sound.release (sound : t.Sound) : ((t.put id "OPEN").unlink id).Sound where
  keys := sound.keys
  taken := by
    rintro branch x ⟨linked,other⟩
    simp only [unlink,Tables.put,if_neg other]
    exact sound.taken branch x linked
  once := fun branch other x first second => sound.once branch other x first.1 second.1

theorem Consistent.release (consistent : t.Consistent) : ((t.put id "OPEN").unlink id).Consistent where
  fixing := by
    intro x fixing
    by_cases same : x = id
    · simp [unlink,Tables.put,same] at fixing
    · simp only [unlink,Tables.put,if_neg same] at fixing ⊢
      obtain ⟨branch,linked⟩ := consistent.fixing x fixing
      exact ⟨branch,linked,same⟩
  registered := fun branch x linked => consistent.registered branch x linked.1

theorem Sound.dismiss (sound : t.Sound) (branch : String) : (t.dismiss branch).Sound where
  keys := sound.keys
  taken := by
    rintro other x ⟨linked,different⟩
    have elsewhere : ¬ (t.linked branch x ∧ t.status x = some "FIXING") :=
      fun here => different (sound.once other branch x linked here.1)
    simp only [Tables.dismiss,reopen,forget,if_neg elsewhere]
    exact sound.taken other x linked
  once := fun first second x left right => sound.once first second x left.1 right.1

theorem Consistent.dismiss (consistent : t.Consistent) (branch : String) : (t.dismiss branch).Consistent where
  fixing := by
    intro x fixing
    simp only [Tables.dismiss,reopen,forget] at fixing ⊢
    split at fixing
    · exact absurd (Option.some.inj fixing) (by decide)
    rename_i elsewhere
    obtain ⟨other,linked⟩ := consistent.fixing x fixing
    refine ⟨other,linked,fun same => elsewhere ⟨?_,fixing⟩⟩
    exact same ▸ linked
  registered := fun other x linked => ⟨consistent.registered other x linked.1,linked.2⟩

theorem Sound.clear (sound : t.Sound) (branch : String) : (t.clear branch).Sound := by
  unfold Tables.clear
  split
  · exact sound.dismiss branch
  · exact sound

theorem Consistent.clear (consistent : t.Consistent) (branch : String) : (t.clear branch).Consistent := by
  unfold Tables.clear
  split
  · exact consistent.dismiss branch
  · exact consistent

theorem Sound.register (sound : t.Sound) (branch : String) : (t.register branch).Sound :=
  ⟨sound.keys,sound.taken,sound.once⟩

theorem Consistent.register (consistent : t.Consistent) (branch : String) : (t.register branch).Consistent :=
  ⟨consistent.fixing,fun other x linked => .inl (consistent.registered other x linked)⟩

theorem Sound.assign (sound : t.Sound) (branch : String) (isOpen : ∀ id ∈ ids, t.status id = some "OPEN") :
    (t.assign branch ids).Sound where
  keys := sound.keys
  taken := by
    intro other x linked
    simp only [Tables.assign,link,take] at linked ⊢
    split
    · simp
    · rename_i fresh
      exact sound.taken other x (linked.resolve_right fun new => fresh new.2)
  once := by
    have unlinked : ∀ other x, t.linked other x → x ∉ ids := fun other x linked new =>
      (sound.taken other x linked).2 (isOpen x new)
    rintro first second x (left | left) (right | right)
    · exact sound.once first second x left right
    · exact absurd right.2 (unlinked first x left)
    · exact absurd left.2 (unlinked second x right)
    · exact left.1.trans right.1.symm

theorem Consistent.assign (consistent : t.Consistent) : (t.assign branch ids).Consistent ↔ (ids ≠ [] → t.registered branch) := by
  constructor
  · intro held some
    obtain ⟨id,member⟩ := exists_mem_of_ne_nil ids some
    exact held.registered branch id (.inr ⟨rfl,member⟩)
  · intro registered
    refine ⟨fun x fixing => ?_,?_⟩
    · simp only [Tables.assign,link,take] at fixing ⊢
      split at fixing
      · rename_i new
        exact ⟨branch,.inr ⟨rfl,new⟩⟩
      · obtain ⟨other,linked⟩ := consistent.fixing x fixing
        exact ⟨other,.inl linked⟩
    · rintro other x (linked | ⟨rfl,new⟩)
      · exact consistent.registered other x linked
      · exact registered (ne_nil_of_mem new)

end Tables

/-! The calls are operations of the abstract layer -/

def tables (db : Database) : Tables where
  keys := db.items.map BacklogItem.id
  status := db.check
  linked := fun branch id => (branch,id) ∈ db.branchBacklogs
  registered := fun branch => ∃ row ∈ db.activeBranches, row.branch = branch

variable {db next : Database} {id : Int} {item : BacklogItem} {change : BacklogItem → BacklogItem} {now branch : String}
  {failure : Failure}

section
variable (keeps : ∀ row, (change row).id = row.id ∧ (change row).status = row.status)
include keeps

theorem tables_map :
    tables { db with items := db.items.map change } = tables db := by
  have statuses : Database.check { db with items := db.items.map change } = db.check := by
    funext x
    have keyed : (fun item => decide ((change item).id = x)) = fun item : BacklogItem => decide (item.id = x) := by
      funext item
      rw [(keeps item).1]
    have same : BacklogItem.status ∘ change = BacklogItem.status := funext fun row => (keeps row).2
    simp only [Database.check,Database.row,find?_map,Function.comp_def,keyed,Option.map_map]
    exact congrArg (fun f => Option.map f _) same
  have keys : db.items.map (BacklogItem.id ∘ change) = db.items.map BacklogItem.id :=
    map_congr_left fun row _ => (keeps row).1
  simp only [tables,map_map,keys,statuses]

theorem tables_update :
    tables (db.update id change) = tables db := by
  refine tables_map fun row => ?_
  split
  · exact keeps row
  · exact ⟨rfl,rfl⟩

end

theorem tables_put (present : db.check id ≠ none) (keeps : ∀ row, (change row).id = row.id ∧ (change row).status = status) :
    tables (db.update id change) = (tables db).put id status := by
  have statuses : (db.update id change).check = fun x => if x = id then some status else db.check x := by
    funext x
    simp only [Database.check,db.row_update (fun row => (keeps row).1)]
    split
    · obtain ⟨item,found⟩ := Database.exists_row present
      simp [found,(keeps item).2]
    · rfl
  simp only [tables,db.ids_update (fun row => (keeps row).1),statuses]
  rfl

theorem add_tables (done : add now db item = .ok next) : (tables db).Grown (tables next) := by
  obtain ⟨id,position,rfl,fresh,nonzero,_⟩ := add_ok done
  refine ⟨fun keys => ?_,fun x present => ?_,fun x status absent present => ?_,rfl,rfl⟩
  · simp only [tables,map_append,map_cons,map_nil,newRow]
    refine nodup_append.mpr ⟨keys,nodup_singleton _,?_⟩
    rintro a member b last rfl
    obtain ⟨row,old,rfl⟩ := mem_map.mp member
    exact fresh row old (mem_singleton.mp last)
  · have other : x ≠ id := by
      rintro rfl
      exact present (Database.check_eq_none.mpr fresh)
    exact (Database.check_append fresh x).trans (if_neg other)
  · have here := (Database.check_append fresh x).symm.trans present
    split at here
    · rename_i same
      subst same
      simp only [newRow,Option.some.injEq] at here
      refine ⟨nonzero,?_⟩
      subst here
      split
      · decide
      · assumption
    · exact absurd (absent.symm.trans here) nofun

theorem updateFromImport_tables (done : updateFromImport now db item = .ok next) : tables next = tables db := by
  unfold updateFromImport at done
  split at done
  · cases done
  · cases done
  split at done
  · cases done
    rfl
  split at done
  · cases done
    rfl
  · cases done
    exact tables_update fun row => ⟨rfl,rfl⟩

theorem importItem_tables (done : importItem now db item = .ok next) : (tables db).Grown (tables next) := by
  unfold importItem at done
  split at done
  · exact add_tables done
  · rw [updateFromImport_tables done]
    exact .refl _

theorem importItems_tables (now : String) (db : Database) (items : List BacklogItem) :
    (tables db).Grown (tables (importItems now db items).1) := by
  induction items generalizing db with
  | nil => exact .refl _
  | cons item rest ih =>
    unfold importItems
    split
    · rename_i next done
      exact (importItem_tables done).trans (ih next)
    · exact .refl _

theorem resolve_tables (done : resolve now db id resolution = .ok next) :
    (tables db).status id ≠ none ∧ tables next = (tables db).put id "RESOLVED" := by
  obtain ⟨present,rfl⟩ := resolve_ok done
  exact ⟨present,tables_put present fun row => ⟨rfl,rfl⟩⟩

theorem setStatusWith_open (done : setStatusWith now db id "OPEN" = .ok next) :
    db.check id = some "FIXING" ∧ tables next = (tables db).put id "OPEN" := by
  obtain ⟨⟨⟩,_,done⟩ := bind_ok done
  split at done
  · cases done
  rename_i current known
  simp only [show ("OPEN" : String) ≠ "FIXING" by decide,if_false,if_true] at done
  split at done <;> cases done
  rename_i fixing
  exact ⟨fixing ▸ known,tables_put (by simp [known]) fun row => ⟨rfl,rfl⟩⟩

theorem setStatusWith_open_refused (refused : setStatusWith now db id "OPEN" = .error failure) :
    db.check id ≠ some "FIXING" := by
  intro fixing
  simp [setStatusWith,validateStatus,validate,fixing,bind,Except.bind] at refused
  cases refused

theorem setStatusWith_fixing (done : setStatusWith now db id "FIXING" = .ok next) :
    db.check id = some "OPEN" ∧ tables next = (tables db).put id "FIXING" := by
  obtain ⟨⟨⟩,_,done⟩ := bind_ok done
  split at done
  · cases done
  rename_i current known
  simp only [if_true] at done
  split at done
  · rename_i isOpen
    cases done
    exact ⟨isOpen ▸ known,tables_put (by simp [known]) fun row => ⟨rfl,rfl⟩⟩
  · split at done
    · cases done
    · split at done <;> cases done

theorem update_tables (done : Backlog.update now db id fields = .ok next) : tables next = tables db := by
  obtain ⟨_,_,_,⟨_,rfl⟩ | ⟨value,timeframe,_,_,rfl⟩⟩ := update_ok done
  · exact tables_update fun row => ⟨rfl,rfl⟩
  have shifted : tables (shift db id timeframe value) = tables db := by
    refine tables_map fun row => ?_
    split <;> exact ⟨rfl,rfl⟩
  exact Eq.trans (tables_update fun row => ⟨rfl,rfl⟩) shifted

theorem junctionCleaner_tables (db : Database) (id : Int) : tables (db.junctionCleaner id) = (tables db).unlink id := by
  simp [tables,Database.junctionCleaner,Tables.unlink]
  rfl

theorem junctionCreator_tables (db : Database) (branch : String) (id : Int) :
    tables (db.junctionCreator branch id) = (tables db).link branch [id] := by
  unfold Database.junctionCreator
  split
  · rename_i present
    have absorbed : ∀ other x, (other,x) ∈ db.branchBacklogs ∨ other = branch ∧ x = id ↔ (other,x) ∈ db.branchBacklogs := by
      intro other x
      refine or_iff_left_of_imp ?_
      rintro ⟨rfl,rfl⟩
      exact present
    simp [tables,Tables.link,absorbed]
  · simp [tables,Tables.link]
    rfl

theorem release_tables (done : release now db id reason branch = .ok next) :
    (tables db).status id ≠ none ∧ tables next = ((tables db).put id "OPEN").unlink id := by
  obtain ⟨item,found,_,rfl⟩ := release_ok done
  have present : db.check id ≠ none := by simp [Database.check_of_row found]
  refine ⟨present,?_⟩
  rw [junctionCleaner_tables]
  exact congrArg (Tables.unlink · id) (tables_put present fun row => ⟨rfl,rfl⟩)

theorem fix_tables (done : fix now db id branch = .ok next) :
    (db.check id = some "FIXING" ∧ next = db) ∨ (db.check id = some "OPEN" ∧ tables next = (tables db).assign branch [id]) := by
  obtain ⟨item,found,⟨fixing,same⟩ | ⟨isOpen,rfl⟩⟩ := fix_ok done
  · exact .inl ⟨fixing ▸ Database.check_of_row found,same⟩
  have known := isOpen ▸ Database.check_of_row found
  refine .inr ⟨known,?_⟩
  have put : tables (db.update id fun row => { row with status := "FIXING", updatedAt := now }) =
      (tables db).put id "FIXING" := tables_put (by simp [known]) fun row => ⟨rfl,rfl⟩
  rw [junctionCreator_tables,put]
  simp [Tables.assign,Tables.put,Tables.link,Tables.take]

theorem releaseBacklogs_tables (now : String) (db : Database) (ids : List Int) :
    tables (releaseBacklogs now db ids) = (tables db).reopen (· ∈ ids) := by
  induction ids generalizing db with
  | nil => simp [releaseBacklogs,Tables.reopen]
  | cons id rest ih =>
    simp only [releaseBacklogs,foldl_cons] at ih ⊢
    rw [ih]
    split
    · rename_i next done
      obtain ⟨fixing,put⟩ := setStatusWith_open done
      have here : (tables db).status id = some "FIXING" := fixing
      rw [put]
      simp only [Tables.reopen,Tables.put,Tables.mk.injEq,true_and,and_true]
      funext x
      by_cases same : x = id
      · simp [same,here]
      · simp [same]
    · rename_i refused
      have here : (tables db).status id ≠ some "FIXING" := setStatusWith_open_refused refused
      simp only [Tables.reopen,Tables.mk.injEq,true_and,and_true]
      funext x
      by_cases same : x = id
      · simp [same,here]
      · simp [same]

theorem mem_getBacklogIDs : id ∈ getBacklogIDs db branch ↔ (branch,id) ∈ db.branchBacklogs := by
  simp [getBacklogIDs]

theorem deleteBranch_tables (db : Database) (branch : String) :
    tables (deleteBranch db branch) = (tables db).forget branch := by
  simp only [tables,deleteBranch,deleteActive,deleteLinks,Tables.forget,Tables.mk.injEq,mem_filter,decide_eq_true_eq,true_and]
  refine ⟨rfl,?_⟩
  funext other
  refine propext ⟨?_,?_⟩
  · rintro ⟨row,⟨member,different⟩,rfl⟩
    exact ⟨⟨row,member,rfl⟩,different⟩
  · rintro ⟨⟨row,member,rfl⟩,different⟩
    exact ⟨row,⟨member,different⟩,rfl⟩

theorem release_delete_tables (now : String) (db : Database) (branch : String) :
    tables (deleteBranch (releaseBacklogs now db (getBacklogIDs db branch)) branch) = (tables db).dismiss branch := by
  have linked : (· ∈ getBacklogIDs db branch) = (tables db).linked branch := funext fun id => propext mem_getBacklogIDs
  rw [deleteBranch_tables,releaseBacklogs_tables,linked]
  rfl

theorem findBranch_eq_none : findBranch db branch = none ↔ ¬ (tables db).registered branch := by
  simp [findBranch,tables]

theorem clearStale_tables (now : String) (db : Database) (branch : String) :
    tables (clearStale now db branch) = (tables db).clear branch := by
  unfold clearStale Tables.clear
  split
  · rename_i row found
    have registered : (tables db).registered branch :=
      not_not.mp fun unknown => by simp [findBranch_eq_none.mpr unknown] at found
    rw [if_pos registered]
    exact release_delete_tables now db branch
  · rename_i absent
    rw [if_neg (findBranch_eq_none.mp absent)]

theorem insertBranch_tables (done : insertBranch db row = .ok next) : tables next = (tables db).register row.branch := by
  unfold insertBranch at done
  split at done <;> cases done
  simp only [tables,Tables.register,Tables.mk.injEq,mem_append,mem_singleton,true_and]
  refine ⟨rfl,?_⟩
  funext other
  simp [or_and_right,exists_or,eq_comm]

theorem linkAll_tables (done : ids.foldlM (linkBacklog branch) db = .ok next) :
    tables next = (tables db).link branch ids := by
  induction ids generalizing db with
  | nil =>
    cases done
    simp [Tables.link]
  | cons id rest ih =>
    rw [foldlM_cons] at done
    obtain ⟨middle,linked,done⟩ := bind_ok done
    unfold linkBacklog at linked
    split at linked <;> cases linked
    rw [ih done]
    simp [tables,Tables.link,or_assoc,and_or_left]
    rfl

theorem takeAll_tables (done : ids.foldlM (fun db id => setStatusWith now db id "FIXING") db = .ok next) :
    (∀ id ∈ ids, (tables db).status id = some "OPEN") ∧ tables next = (tables db).take ids := by
  induction ids generalizing db with
  | nil =>
    cases done
    simp [Tables.take]
  | cons id rest ih =>
    rw [foldlM_cons] at done
    obtain ⟨middle,first,done⟩ := bind_ok done
    obtain ⟨isOpen,put⟩ := setStatusWith_fixing first
    obtain ⟨later,all⟩ := ih done
    rw [put] at later all
    refine ⟨fun x member => ?_,?_⟩
    · rcases mem_cons.mp member with rfl | tail
      · exact isOpen
      have still := later x tail
      simp only [Tables.put] at still
      split at still
      · exact absurd (Option.some.inj still) (by decide)
      · exact still
    · rw [all]
      simp only [Tables.take,Tables.put,Tables.mk.injEq,true_and,and_true,mem_cons]
      funext x
      by_cases same : x = id
      · simp [same]
      · simp [same]

theorem notifyStart_tables {start : Start} (done : notifyStart now db start = .ok next) :
    ∃ ids, tables next = (((tables db).clear start.branch).register start.branch).assign start.branch ids ∧
      ∀ id ∈ ids, (((tables db).clear start.branch).register start.branch).status id = some "OPEN" := by
  obtain ⟨⟨⟩,_,done⟩ := bind_ok done
  obtain ⟨registered,inserted,done⟩ := bind_ok done
  obtain ⟨linked,links,done⟩ := bind_ok done
  obtain ⟨isOpen,taken⟩ := takeAll_tables done
  have named := insertBranch_tables inserted
  rw [clearStale_tables] at named
  rw [linkAll_tables links,named] at isOpen taken
  exact ⟨_,taken,isOpen⟩

theorem notifyTransition_tables (done : notifyTransition now db branch notifyType = .ok next) : tables next = tables db := by
  unfold notifyTransition at done
  split at done
  · cases done
  obtain ⟨status,_,done⟩ := bind_ok done
  cases done
  simp only [tables,Tables.mk.injEq,true_and]
  refine ⟨rfl,?_⟩
  funext other
  simp only [mem_map,exists_exists_and_eq_and]
  refine propext (exists_congr fun row => and_congr_right fun _ => ?_)
  split <;> rfl

theorem mem_listFixingForBranch (fixing : db.check id = some "FIXING") : id ∈ listFixingForBranch db ids ↔ id ∈ ids := by
  obtain ⟨item,found⟩ := Database.exists_row (show db.check id ≠ none by simp [fixing])
  obtain ⟨present,same⟩ := Database.row_mem found
  have status := Option.some.inj ((Database.check_of_row found).symm.trans fixing)
  simp only [listFixingForBranch,mem_map,mem_filter,decide_eq_true_eq]
  constructor
  · rintro ⟨row,⟨_,member,_⟩,rfl⟩
    exact member
  · exact fun member => ⟨item,⟨present,same ▸ member,status⟩,same⟩

theorem notifyMerge_tables (done : notifyMerge now db branch summary = .ok next) : tables next = (tables db).dismiss branch := by
  obtain ⟨none,row,_,rfl⟩ := notifyMerge_ok.mp done
  rw [deleteBranch_tables,Tables.dismiss]
  have kept : (tables db).reopen ((tables db).linked branch) = tables db := by
    have idle : ∀ x, ¬ ((tables db).linked branch x ∧ (tables db).status x = some "FIXING") := by
      rintro x ⟨linked,fixing⟩
      have listed := (mem_listFixingForBranch fixing).mpr (mem_getBacklogIDs.mpr linked)
      rw [none] at listed
      cases listed
    simp only [Tables.reopen,if_neg (idle _)]
  rw [kept]
  rfl

theorem notifyDrop_tables (done : notifyDrop now db branch reason = .ok next) : tables next = (tables db).dismiss branch := by
  simp only [notifyDrop,finalizeBranch,Bool.false_eq_true,if_false,if_true] at done
  split at done <;> cases done
  exact release_delete_tables now db branch

/-! Sequences of calls -/

inductive Operation where
  | notifyStart (start : Start)
  | notifyTransition (branch notifyType : String)
  | notifyMerge (branch summary : String)
  | notifyDrop (branch reason : String)
  | add (item : BacklogItem)
  | fix (id : Int) (branch : String)
  | release (id : Int) (reason branch : String)
  | resolve (id : Int) (resolution : String)
  | update (id : Int) (fields : Fields)
  | importItems (items : List BacklogItem)

structure Call where
  now : String
  operation : Operation

/-- What is in the tables after a transaction: a failed one is rolled back. -/
def settle (db : Database) : Except Failure Database → Database
  | .ok next => next
  | .error _ => db

def perform (db : Database) (call : Call) : Database :=
  match call.operation with
  | .notifyStart start => settle db (notifyStart call.now db start)
  | .notifyTransition branch notifyType => settle db (notifyTransition call.now db branch notifyType)
  | .notifyMerge branch summary => settle db (notifyMerge call.now db branch summary)
  | .notifyDrop branch reason => settle db (notifyDrop call.now db branch reason)
  | .add item => settle db (add call.now db item)
  | .fix id branch => settle db (fix call.now db id branch)
  | .release id reason branch => settle db (release call.now db id reason branch)
  | .resolve id resolution => settle db (resolve call.now db id resolution)
  | .update id fields => settle db (update call.now db id fields)
  -- Each item is a transaction of its own.
  | .importItems items => (importItems call.now db items).1

def step (db : Database) (call : Call) : Option Database := some (perform db call)

/-- Every item that is being fixed is linked to one branch, every linked branch is registered, and no item is linked
to two branches. -/
structure Consistent (db : Database) : Prop where
  fixing : ∀ item ∈ db.items, item.status = "FIXING" → ∃ branch, (branch,item.id) ∈ db.branchBacklogs ∧
    ∀ other, (other,item.id) ∈ db.branchBacklogs → other = branch
  registered : ∀ link ∈ db.branchBacklogs, ∃ row ∈ db.activeBranches, row.branch = link.1
  single : ∀ link ∈ db.branchBacklogs, ∀ other ∈ db.branchBacklogs, link.2 = other.2 → link.1 = other.1

/-- No item of an import has the status `FIXING` and an id that the table does not know before it. Each item is a
transaction of its own, and the items behind one that fails are not imported. -/
def CarefulImport (now : String) : Database → List BacklogItem → Prop
  | _,[] => True
  | db,item :: rest => ∀ next, importItem now db item = .ok next →
      (item.status = "FIXING" → db.check item.id ≠ none) ∧ CarefulImport now next rest

/-- No item is created in the status `FIXING`, and an item is assigned to a registered branch only. -/
def Careful (db : Database) (call : Call) : Prop :=
  match call.operation with
  | .add item => item.status = "FIXING" → ∀ next, add call.now db item ≠ .ok next
  | .importItems items => CarefulImport call.now db items
  | .fix id branch => db.check id = some "OPEN" → (∃ next, fix call.now db id branch = .ok next) →
      ∃ row ∈ db.activeBranches, row.branch = branch
  | _ => True

inductive Tables.Tame (t : Tables) : Tables → Prop
  | still : t.Tame t
  | started (branch : String) (ids : List Int)
      (isOpen : ∀ id ∈ ids, ((t.clear branch).register branch).status id = some "OPEN") :
      t.Tame (((t.clear branch).register branch).assign branch ids)
  | dismissed (branch : String) : t.Tame (t.dismiss branch)
  | released (id : Int) (known : t.status id ≠ none) : t.Tame ((t.put id "OPEN").unlink id)
  | resolved (id : Int) (known : t.status id ≠ none) : t.Tame (t.put id "RESOLVED")

inductive Moves (db : Database) : Call → Tables → Prop
  | tame {call : Call} {t : Tables} (tame : (tables db).Tame t) (careful : Careful db call) : Moves db call t
  | added {now : String} {item : BacklogItem} {next : Database} (done : add now db item = .ok next) :
      Moves db ⟨now,.add item⟩ (tables next)
  | fixed {now branch : String} {id : Int} {next : Database} (done : fix now db id branch = .ok next)
      (isOpen : db.check id = some "OPEN") : Moves db ⟨now,.fix id branch⟩ ((tables db).assign branch [id])
  | imported {now : String} {items : List BacklogItem} : Moves db ⟨now,.importItems items⟩ (tables (importItems now db items).1)

theorem settle_moves {result : Except Failure Database} (careful : (∀ next, result ≠ .ok next) → Careful db call)
    (done : ∀ next, result = .ok next → Moves db call (tables next)) : Moves db call (tables (settle db result)) := by
  cases result with
  | ok next => exact done next rfl
  | error failure => exact .tame .still (careful nofun)

theorem perform_moves (db : Database) (call : Call) : Moves db call (tables (perform db call)) := by
  obtain ⟨now,operation⟩ := call
  cases operation with
  | notifyStart start =>
    refine settle_moves (fun _ => trivial) fun next done => ?_
    obtain ⟨ids,eq,isOpen⟩ := notifyStart_tables done
    exact eq ▸ .tame (.started start.branch ids isOpen) trivial
  | notifyTransition branch notifyType =>
    exact settle_moves (fun _ => trivial) fun next done => notifyTransition_tables done ▸ .tame .still trivial
  | notifyMerge branch summary =>
    exact settle_moves (fun _ => trivial) fun next done => notifyMerge_tables done ▸ .tame (.dismissed branch) trivial
  | notifyDrop branch reason =>
    exact settle_moves (fun _ => trivial) fun next done => notifyDrop_tables done ▸ .tame (.dismissed branch) trivial
  | add item => exact settle_moves (fun failed _ => failed) fun next done => .added done
  | fix id branch =>
    refine settle_moves (fun failed _ ⟨next,done⟩ => absurd done (failed next)) fun next done => ?_
    obtain ⟨fixing,rfl⟩ | ⟨isOpen,eq⟩ := fix_tables done
    · exact .tame .still fun isOpen => absurd (fixing.symm.trans isOpen) (by decide)
    · exact eq ▸ .fixed done isOpen
  | release id reason branch =>
    refine settle_moves (fun _ => trivial) fun next done => ?_
    obtain ⟨known,eq⟩ := release_tables done
    exact eq ▸ .tame (.released id known) trivial
  | resolve id resolution =>
    refine settle_moves (fun _ => trivial) fun next done => ?_
    obtain ⟨known,eq⟩ := resolve_tables done
    exact eq ▸ .tame (.resolved id known) trivial
  | update id fields => exact settle_moves (fun _ => trivial) fun next done => update_tables done ▸ .tame .still trivial
  | importItems items => exact .imported

section
variable (sound : (tables db).Sound)
include sound

theorem sound_perform (call : Call) : (tables (perform db call)).Sound := by
  have moves := perform_moves db call
  generalize tables (perform db call) = next at moves
  cases moves with
  | tame tame =>
    cases tame with
    | still => exact sound
    | started branch ids isOpen => exact ((sound.clear branch).register branch).assign branch isOpen
    | dismissed branch => exact sound.dismiss branch
    | released => exact sound.release
    | resolved => exact sound.put "RESOLVED" (by decide)
  | added done => exact sound.grown (add_tables done)
  | fixed _ isOpen => exact sound.assign _ (by simpa [tables] using isOpen)
  | imported => exact sound.grown (importItems_tables _ db _)

theorem consistent_iff : Consistent db ↔ (tables db).Consistent := by
  constructor
  · intro held
    refine ⟨fun id fixing => ?_,fun branch id linked => held.registered (branch,id) linked⟩
    have known : db.check id ≠ none := by simp [show db.check id = some "FIXING" from fixing]
    obtain ⟨item,found⟩ := Database.exists_row known
    obtain ⟨present,rfl⟩ := Database.row_mem found
    have status := Option.some.inj ((Database.check_of_row found).symm.trans fixing)
    obtain ⟨branch,linked,_⟩ := held.fixing item present status
    exact ⟨branch,linked⟩
  · intro held
    refine ⟨fun item present status => ?_,fun link member => held.registered link.1 link.2 member,?_⟩
    · have known := Database.check_of_row (Database.row_of_mem sound.keys present)
      obtain ⟨branch,linked⟩ := held.fixing item.id (status ▸ known)
      exact ⟨branch,linked,fun other also => sound.once other branch item.id also linked⟩
    · intro link first other second same
      exact sound.once link.1 other.1 link.2 first (same ▸ second)

omit sound in
theorem add_careful_iff (done : add now db item = .ok next) :
    (∀ x, next.check x = some "FIXING" → db.check x ≠ none) ↔ item.status ≠ "FIXING" := by
  obtain ⟨id,position,rfl,fresh,_⟩ := add_ok done
  have statuses : ∀ x, Database.check { db with items := db.items ++ [newRow now item id position] } x =
      if x = id then some (newRow now item id position).status else db.check x := Database.check_append fresh
  constructor
  · intro known fixing
    refine absurd (Database.check_eq_none.mpr fresh) (known id ?_)
    exact (statuses id).trans (by simp [newRow,fixing])
  · intro other x fixing
    have here := (statuses x).symm.trans fixing
    split at here
    · simp only [newRow,Option.some.injEq] at here
      split at here
      · exact absurd here (by decide)
      · exact absurd here other
    · simp [here]

omit sound in
theorem importItem_careful_iff (done : importItem now db item = .ok next) :
    (∀ x, next.check x = some "FIXING" → db.check x ≠ none) ↔ (item.status = "FIXING" → db.check item.id ≠ none) := by
  unfold importItem at done
  split at done
  · rename_i absent
    rw [add_careful_iff done,absent]
    have same : (populateResolvedAt item).status = item.status := by
      unfold populateResolvedAt
      split <;> rfl
    simp [same]
  · rename_i known
    have same := updateFromImport_tables done
    refine iff_of_true (fun x fixing => ?_) (by simp [known])
    have status : next.check x = db.check x := congrArg (Tables.status · x) same
    simp [← status,fixing]

omit sound in
theorem importItems_careful_iff (now : String) (db : Database) (items : List BacklogItem) :
    (∀ x, (importItems now db items).1.check x = some "FIXING" → db.check x ≠ none) ↔ CarefulImport now db items := by
  induction items generalizing db with
  | nil => exact iff_of_true (fun x fixing => by simp [show db.check x = _ from fixing]) trivial
  | cons item rest ih =>
    unfold importItems CarefulImport
    cases done : importItem now db item with
    | error failure =>
      refine iff_of_true (fun x fixing => by simp [show db.check x = _ from fixing]) fun next imported => ?_
      cases imported
    | ok next =>
      have first := (importItem_tables done).kept
      have later := (importItems_tables now next rest).kept
      simp only [Except.ok.injEq,forall_eq']
      rw [← importItem_careful_iff done,← ih next]
      constructor
      · intro known
        refine ⟨fun x fixing => known x ?_,fun x fixing unknown => ?_⟩
        · exact (later x (by simp [tables,fixing])).trans fixing
        · have before := known x fixing
          exact before ((first x before).symm.trans unknown)
      · intro both x fixing
        exact both.1 x ((later x (both.2 x fixing)).symm.trans fixing)

theorem consistent_perform (held : (tables db).Consistent) (call : Call) :
    (tables (perform db call)).Consistent ↔ Careful db call := by
  have moves := perform_moves db call
  generalize tables (perform db call) = next at moves
  cases moves with
  | tame tame careful =>
    refine iff_of_true ?_ careful
    cases tame with
    | still => exact held
    | started branch => exact ((held.clear branch).register branch).assign.mpr fun _ => .inr rfl
    | dismissed branch => exact held.dismiss branch
    | released => exact held.release
    | resolved => exact held.put "RESOLVED" (by decide)
  | @added now item _ done =>
    refine (held.grown sound (add_tables done)).trans ((add_careful_iff done).trans ?_)
    exact ⟨fun other fixing => absurd fixing other,fun careful fixing => careful fixing _ done⟩
  | fixed done isOpen =>
    rw [held.assign]
    simp [Careful,done,isOpen,tables]
  | @imported now items =>
    exact (held.grown sound (importItems_tables now db items)).trans (importItems_careful_iff now db items)

end

theorem sound_empty : (tables {}).Sound := ⟨nodup_nil,nofun,nofun⟩

theorem consistent_empty : Consistent {} := ⟨nofun,nofun,nofun⟩

theorem exists_run (db : Database) (calls : List Call) : ∃ final, run step db calls = some final := by
  induction calls generalizing db with
  | nil => exact ⟨db,rfl⟩
  | cons call rest ih => exact ih (perform db call)

/-- From empty tables, no item is ever linked to two branches. The whole relation holds exactly as long as no item is
created in the status `FIXING` and no item is assigned to a branch that is not registered. -/
theorem tables_consistent_iff (calls : List Call) :
    (Throughout step Consistent {} calls ↔ Along step Careful {} calls) ∧
    Throughout step (fun db => ∀ link ∈ db.branchBacklogs, ∀ other ∈ db.branchBacklogs,
      link.2 = other.2 → link.1 = other.1) {} calls := by
  have sound : Throughout step (fun db => (tables db).Sound) {} calls := by
    refine throughout_invariant step ?_ sound_empty calls
    rintro db call next sound ⟨⟩
    exact sound_perform sound call
  obtain ⟨final,runs⟩ := exists_run {} calls
  refine ⟨throughout_iff Careful _ Consistent ?_ consistent_empty sound.along runs,sound.imp ?_⟩
  · rintro db call next held sound ⟨⟩
    rw [consistent_iff (sound_perform sound call)]
    exact consistent_perform sound ((consistent_iff sound).mp held) call
  · intro db sound link first other second same
    exact sound.once link.1 other.1 link.2 first (same ▸ second)

/-- An item may be added as already being fixed, and then no branch has it. -/
theorem add_fixing_unlinked :
    ∃ db, run step {} [⟨"t",.add ⟨0,"","MINOR","NOW","CORE","BUG","","",0,"FIXING","","","","",""⟩⟩] = some db ∧
      db.items.map (fun item => (item.id,item.status)) = [(1,"FIXING")] ∧ db.branchBacklogs = [] ∧ ¬ Consistent db := by
  refine ⟨_,rfl,by decide +kernel,by decide +kernel,fun held => ?_⟩
  obtain ⟨branch,linked,_⟩ := held.fixing _ (mem_cons_self ..) rfl
  cases linked

/-! What `Fix` answers -/

/-- An item that another branch is fixing is accepted as it is. -/
theorem fix_linked_iff (now : String) (db : Database) (id : Int) (branch : String) :
    (∀ failure, fix now db id branch = .error failure → perform db ⟨now,.fix id branch⟩ = db) ∧
    ∀ next, fix now db id branch = .ok next → perform db ⟨now,.fix id branch⟩ = next ∧ next.check id = some "FIXING" ∧
      ((branch,id) ∈ next.branchBacklogs ↔ db.check id = some "OPEN" ∨ (branch,id) ∈ db.branchBacklogs) ∧
      (id ∈ listFixingForBranch next (getBacklogIDs next branch) ↔ (branch,id) ∈ next.branchBacklogs) := by
  refine ⟨fun failure failed => by simp only [perform,failed,settle],fun next done => ?_⟩
  refine ⟨by simp only [perform,done,settle],?_⟩
  suffices after : next.check id = some "FIXING" ∧
      ((branch,id) ∈ next.branchBacklogs ↔ db.check id = some "OPEN" ∨ (branch,id) ∈ db.branchBacklogs) from
    ⟨after.1,after.2,(mem_listFixingForBranch after.1).trans mem_getBacklogIDs⟩
  obtain ⟨fixing,rfl⟩ | ⟨isOpen,assigned⟩ := fix_tables done
  · simp [fixing]
  have status := congrArg (Tables.status · id) assigned
  have linked := congrArg (Tables.linked · branch id) assigned
  simp only [tables,Tables.assign,Tables.link,Tables.take,mem_singleton,if_true] at status linked
  simp [status,linked,isOpen]

theorem fix_linked_iff_first : ∃ db next, fix "t" db 1 "a" = .ok next ∧ ("a",1) ∈ next.branchBacklogs := by
  let db : Database := { items := [⟨1,"","MINOR","NOW","CORE","BUG","","",1,"OPEN","","","","",""⟩] }
  exact ⟨db,_,rfl,((fix_linked_iff "t" db 1 "a").2 _ rfl).2.2.1.mpr (.inl (by decide))⟩

theorem fix_accepted_unlinked :
    ∃ db, run step {} [⟨"t",.notifyStart { branch := "a" }⟩,⟨"t",.notifyStart { branch := "b" }⟩,
        ⟨"t",.add ⟨0,"","MINOR","NOW","CORE","BUG","","",0,"","","","","",""⟩⟩,⟨"t",.fix 1 "a"⟩] = some db ∧
      (∃ row ∈ db.activeBranches, row.branch = "b") ∧ fix "t" db 1 "b" = .ok db ∧ ("b",1) ∉ db.branchBacklogs ∧
      requireNoFixingBacklogs db "b" = .ok () :=
  ⟨_,rfl,by decide +kernel,by rfl,by decide +kernel,by rfl⟩

end ApexPipeline.Handoff
