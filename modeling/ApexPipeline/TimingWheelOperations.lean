import ApexPipeline.TimingWheelSlots

/-! The operations of the wheel keep `Rep`, never fault, and are described by what they
do to the index, the deadlines and the ids. -/
namespace ApexPipeline
open IntrusiveList List Function

namespace TimingWheel

def idOf (w : TimingWheel) (e : Nat) : Option Nat := (w.entryAt e).map WheelEntry.id

variable {due : List Nat} {lists : Nat → List Nat} {w : TimingWheel} {e : Nat}

theorem Rep.reindex (rep : Rep w lists due) (heap : w'.heap = w.heap) (slots : w'.slots = w.slots)
    (size : w'.numSlots = w.numSlots) (allocated : w'.allocated = w.allocated)
    (active : w'.activeCount = w.activeCount) (lookup : ∀ j, w'.lookup j = w.lookup j)
    (length : w.entries.length ≤ w'.entries.length) (free : w'.freeIds.Sublist w.freeIds)
    (grown : w'.entries.length ≤ w'.nextId) (issued : w.nextId ≤ w'.nextId) :
    Rep w' lists due := by
  have entryAt : ∀ x, w'.entryAt x = w.entryAt x := fun x => by
    unfold TimingWheel.entryAt
    rw [heap]
  have deadlines : w'.deadlineOf = w.deadlineOf := by
    funext x
    simp only [deadlineOf,entryAt,lookup]
  refine ⟨?_,?_,?_,?_,?_,?_,?_,rep.freeDistinct.sublist free,grown,
    ⟨Nat.lt_of_lt_of_le rep.issued.1 issued,fun zero => rep.issued.2 (free.subset zero)⟩,
    by simpa only [entryAt] using rep.named,?_⟩
  · rw [heap,slots,size]
    exact rep.buckets
  · rw [size]
    intro i inside e member
    obtain ⟨entry,found,cancelled,slot,known⟩ := rep.placed i inside e member
    exact ⟨entry,by rw [entryAt,found],cancelled,slot,by rw [lookup,known]⟩
  · intro id e known
    rw [lookup] at known
    rw [size,entryAt]
    exact rep.listed id e known
  · intro e member
    obtain ⟨entry,found,unknown,small,used⟩ := rep.waiting e member
    exact ⟨entry,by rw [entryAt,found],by rw [lookup,unknown],by omega,
      fun unused => used (free.subset unused)⟩
  · simpa only [entryAt] using rep.apart
  · rw [heap,allocated]
    exact rep.fresh
  · intro id unused
    obtain ⟨small,unknown⟩ := rep.free id (free.subset unused)
    exact ⟨by omega,by rw [lookup,unknown]⟩
  · rw [active,allocated,deadlines]
    exact rep.count

theorem lookup_extend (entries : List (Option Nat)) (n j : Nat) :
    ((entries ++ List.replicate n none)[j]?).join = (entries[j]?).join := by
  rw [getElem?_append]
  by_cases inside : j < entries.length
  · rw [if_pos inside]
  · rw [if_neg inside,getElem?_eq_none (by omega : entries.length ≤ j),getElem?_replicate]
    split <;> rfl

/-- An id that names no entry: it is free, or has not been issued yet. -/
def Unused (w : TimingWheel) (id : Nat) : Prop := id ∈ w.freeIds ∨ w.nextId ≤ id

theorem takeId_spec (rep : Rep w lists due) :
    ∃ id w', w.takeId = (id,w') ∧ Rep w' lists due ∧ id < w'.entries.length ∧
      w'.lookup id = none ∧ id ≠ 0 ∧ id ∉ w'.freeIds ∧
      (∀ f ∈ due, ∀ a, w'.entryAt f = some a → a.id ≠ id) ∧ (∀ j, w'.lookup j = w.lookup j) ∧
      w'.heap = w.heap ∧ w'.numSlots = w.numSlots ∧ w'.allocated = w.allocated ∧
      w'.currentTick = w.currentTick ∧ w'.activeCount = w.activeCount ∧
      ∀ x, w.Unused x → x ≠ id → w'.Unused x := by
  unfold takeId
  cases recycled : w.freeIds with
  | cons id rest =>
    have unused : id ∈ w.freeIds := by simp [recycled]
    obtain ⟨small,unknown⟩ := rep.free id unused
    refine ⟨id,_,rfl,?_,small,unknown,?_,?_,?_,fun _ => rfl,rfl,rfl,rfl,rfl,rfl,?_⟩
    · refine rep.reindex rfl rfl rfl rfl rfl (fun _ => rfl) (Nat.le_refl _) ?_ rep.grown (Nat.le_refl _)
      rw [recycled]
      exact sublist_cons_self id rest
    · rintro rfl
      exact rep.issued.2 unused
    · have distinct := rep.freeDistinct
      rw [recycled] at distinct
      exact (nodup_cons.mp distinct).1
    · rintro f member a found rfl
      obtain ⟨b,found',_,_,used⟩ := rep.waiting f member
      cases found.symm.trans found'
      exact used unused
    · rintro x (free | beyond) other
      · exact .inl ((mem_cons.mp (recycled ▸ free)).resolve_left other)
      · exact .inr beyond
  | nil =>
    have grown := rep.grown
    have lookup : ∀ j, ((w.entries ++ List.replicate (w.nextId + 1 - w.entries.length) none)[j]?).join =
        w.lookup j := lookup_extend w.entries _
    have issued := rep.issued.1
    refine ⟨w.nextId,_,rfl,?_,?_,?_,by omega,?_,?_,lookup,rfl,rfl,rfl,rfl,rfl,?_⟩
    · refine rep.reindex rfl rfl rfl rfl rfl lookup ?_ ?_ ?_ (Nat.le_succ _)
      · simp
      · rw [recycled]
      · simp only [length_append,length_replicate]
        omega
    · simp only [length_append,length_replicate]
      omega
    · rw [TimingWheel.lookup,lookup,TimingWheel.lookup,getElem?_eq_none grown]
      rfl
    · simp
    · intro f member a found same
      obtain ⟨b,found',_,small,_⟩ := rep.waiting f member
      cases found.symm.trans found'
      omega
    · rintro x (free | beyond) other
      · cases recycled ▸ free
      · exact .inr (Nat.lt_of_le_of_ne beyond other.symm)

theorem Buckets.congr {heap heap' : Memory WheelEntry} {slots : Nat → Option Nat} {numSlots : Nat}
    (buckets : Buckets heap slots numSlots lists)
    (same : ∀ i, i < numSlots → ∀ x ∈ lists i, heap' x = heap x) :
    Buckets heap' slots numSlots lists :=
  ⟨fun i inside => Segment.congr (same i inside) (buckets.linked i inside),buckets.distinct,buckets.disjoint⟩

theorem Rep.outside (rep : Rep w lists due) (absent : w.entryAt e = none) (i : Nat)
    (inside : i < w.numSlots) : e ∉ lists i := by
  intro member
  obtain ⟨entry,found,_⟩ := rep.placed i inside e member
  rw [absent] at found
  cases found

theorem entryAt_congr {w' : TimingWheel} (payloads : SamePayloads w.heap w'.heap) (x : Nat) :
    w'.entryAt x = w.entryAt x := payloads x

section
variable (w : TimingWheel)

theorem newEntry_entryAt (entry : WheelEntry) (x : Nat) :
    (w.newEntry entry).entryAt x = if x = w.allocated then some entry else w.entryAt x := by
  unfold newEntry entryAt
  by_cases here : x = w.allocated
  · subst here
    simp
  · simp [here]

theorem members_insert (lists : Nat → List Nat) (e i : Nat) (j x : Nat) (absent : x = e → x ∉ lists j) :
    x ∈ update lists i (e :: lists i) j ↔ if x = e then j = i else x ∈ lists j := by
  by_cases slot : j = i
  · subst slot
    by_cases here : x = e <;> simp [here]
  by_cases here : x = e
  · have missing := absent here
    simp_all
  · simp [slot,here]

theorem register_ok {id : Nat} (ptr : Option Nat) (small : id < w.entries.length) :
    w.register id ptr = .ok { w with entries := w.entries.set id ptr } := if_pos small

theorem schedule_outOfRange (large : w.numSlots ≤ t) : w.schedule t = .error .outOfRange := by
  rw [schedule,if_pos large]

end

theorem schedule_spec (rep : Rep w lists due) (t : Nat) (inRange : t < w.numSlots) :
    ∃ id w' lists', w.schedule t = .ok (id,w') ∧ Rep w' lists' due ∧ (∀ x, w.Unused x → x ≠ id → w'.Unused x) ∧
      w.lookup id = none ∧ id ≠ 0 ∧
      (∀ j, w'.lookup j = if j = id then some w.allocated else w.lookup j) ∧
      (∀ x, w'.deadlineOf x = if x = w.allocated then some (w.currentTick + t)
        else w.deadlineOf x) ∧
      (∀ x, w'.idOf x = if x = w.allocated then some id else w.idOf x) ∧
      w'.allocated = w.allocated + 1 ∧ w'.currentTick = w.currentTick ∧
      w'.numSlots = w.numSlots := by
  obtain ⟨id,w₁,taken,rep₁,small,unknown,positive,used,undue,lookup₁,heap₁,size₁,allocated₁,tick₁,active₁,unused₁⟩ :=
    takeId_spec rep
  have deadlines₁ : ∀ x, w₁.deadlineOf x = w.deadlineOf x := by
    intro x
    simp only [deadlineOf,entryAt,heap₁,lookup₁]
  have blank : w₁.entryAt w₁.allocated = none := rep₁.unallocated (Nat.le_refl _)
  let entry : WheelEntry := ⟨id,w₁.currentTick + t,false⟩
  let i := (w₁.currentTick + t) % w₁.numSlots
  have inside : i < w₁.numSlots := Nat.mod_lt _ w₁.numSlots_pos
  have outside := rep₁.outside blank
  have buckets : Buckets (w₁.newEntry entry).heap (w₁.newEntry entry).slots w₁.numSlots lists := by
    refine rep₁.buckets.congr ?_
    intro j insideJ x member
    have other : x ≠ w₁.allocated := fun same => outside j insideJ (same ▸ member)
    exact update_of_ne other ..
  obtain ⟨heap,slots,inserted,payloads,buckets⟩ := insertEntry_spec
    (w₁.newEntry entry) buckets inside outside (by simp [newEntry_entryAt])
  let w' : TimingWheel := { w₁.newEntry entry with
    heap := heap, slots := slots, entries := w₁.entries.set id (some w₁.allocated)
    activeCount := w₁.activeCount + 1 }
  have done : w.schedule t = .ok (id,w') := by
    rw [schedule,if_neg (by omega : ¬w.numSlots ≤ t)]
    simp only [taken,computeDeadline_eq,slotIndex_eq]
    change ((w₁.newEntry entry).insertEntry w₁.allocated i >>= fun w => _) = _
    have registered := register_ok { w₁.newEntry entry with heap := heap, slots := slots } (some w₁.allocated) small
    simp only [inserted,bind,Except.bind,registered]
    rfl
  have entryAt' : ∀ x, w'.entryAt x = if x = w₁.allocated then some entry else w₁.entryAt x := by
    intro x
    rw [entryAt_congr (w := w₁.newEntry entry) payloads,newEntry_entryAt]
  have lookup' : ∀ j, w'.lookup j = if j = id then some w₁.allocated else w₁.lookup j :=
    lookup_set (some w₁.allocated) small
  have armed : Armed w₁ w' lists (update lists i (w₁.allocated :: lists i)) due w₁.allocated entry := by
    refine ⟨buckets,rfl,entryAt',lookup',?_,rfl,?_,.inl unknown,length_set ..,rfl,used,⟨?_,undue⟩,rfl,positive,?_⟩
    · intro j insideJ x
      apply members_insert
      rintro rfl
      exact outside j insideJ
    · intro j known
      obtain ⟨_,found,_⟩ := rep₁.listed j _ known
      rw [blank] at found
      cases found
    · intro waiting
      obtain ⟨_,found,_⟩ := rep₁.waiting _ waiting
      rw [blank] at found
      cases found
    · exact rep₁.fresh_update (Nat.le_succ _) (Nat.lt_succ_self _) entryAt'
  have rep' := armed.rep rep₁ (armed.count_new rep₁ rfl rfl rfl)
  refine ⟨id,w',_,done,rep',unused₁,by rw [← lookup₁]; exact unknown,positive,?_,?_,?_,?_,tick₁,size₁⟩
  · intro j
    rw [lookup',lookup₁,allocated₁]
  · intro x
    rw [armed.deadlineOf,deadlines₁,allocated₁,← tick₁]
  · intro x
    rw [idOf,entryAt',idOf,entryAt,entryAt,heap₁,allocated₁]
    split <;> rfl
  · exact congrArg (· + 1) allocated₁

theorem deleteEntry_entryAt (w : TimingWheel) (e x : Nat) :
    (w.deleteEntry e).entryAt x = if x = e then none else w.entryAt x := by
  unfold deleteEntry entryAt
  by_cases here : x = e
  · subst here
    simp
  · simp [here]

theorem release_spec (rep : Rep w lists (e :: due)) :
    ∃ w', w.release e = .ok w' ∧ Rep w' lists due ∧ (∀ x, w.Unused x ∨ w.idOf e = some x → w'.Unused x) ∧
      (∀ j, w'.lookup j = w.lookup j) ∧
      (∀ x, w'.deadlineOf x = w.deadlineOf x) ∧
      (∀ x, w'.idOf x = if x = e then none else w.idOf x) ∧ w'.allocated = w.allocated ∧
      w'.currentTick = w.currentTick ∧ w'.numSlots = w.numSlots := by
  obtain ⟨entry,found,unknown,small,used⟩ := rep.waiting e mem_cons_self
  obtain ⟨differ,apart⟩ := pairwise_cons.mp rep.apart
  let w' : TimingWheel := { w.deleteEntry e with freeIds := entry.id :: w.freeIds }
  have entryAt' : ∀ x, w'.entryAt x = if x = e then none else w.entryAt x :=
    deleteEntry_entryAt w e
  have other : ∀ x a, w.entryAt x = some a → w.lookup a.id = some x → x ≠ e := by
    rintro x a found' known rfl
    cases found.symm.trans found'
    rw [unknown] at known
    cases known
  have behind : ∀ x ∈ due, x ≠ e := by
    rintro x member rfl
    exact differ x member entry entry found found rfl
  have deadlines : ∀ x, w'.deadlineOf x = w.deadlineOf x := by
    intro x
    apply Option.ext
    intro d
    rw [deadlineOf_some,deadlineOf_some]
    constructor
    · rintro ⟨a,found',known,at'⟩
      rw [entryAt'] at found'
      split at found'
      · cases found'
      · exact ⟨a,found',known,at'⟩
    · rintro ⟨a,found',known,at'⟩
      exact ⟨a,by rw [entryAt',if_neg (other x a found' known),found'],known,at'⟩
  refine ⟨w',?_,?_,?_,fun _ => rfl,deadlines,?_,rfl,rfl,rfl⟩
  · unfold release
    rw [found]
  · refine ⟨?_,?_,?_,?_,?_,?_,?_,?_,rep.grown,?_,?_,?_⟩
    · refine rep.buckets.congr ?_
      intro i inside x member
      obtain ⟨a,found',_,_,known⟩ := rep.placed i inside x member
      exact update_of_ne (other x a found' known) ..
    · intro i inside x member
      obtain ⟨a,found',active,slot,known⟩ := rep.placed i inside x member
      exact ⟨a,by rw [entryAt',if_neg (other x a found' known),found'],active,slot,known⟩
    · intro id x known
      obtain ⟨a,found',rfl,member⟩ := rep.listed id x known
      exact ⟨a,by rw [entryAt',if_neg (other x a found' known),found'],rfl,member⟩
    · intro x member
      obtain ⟨a,found',unknown',small',used'⟩ := rep.waiting x (mem_cons_of_mem e member)
      refine ⟨a,by rw [entryAt',if_neg (behind x member),found'],unknown',small',?_⟩
      have different := differ x member entry a found found'
      simpa [w'] using ⟨fun same => different same.symm,used'⟩
    · refine apart.imp_of_mem ?_
      intro x y memberX memberY distinct a b foundX foundY
      rw [entryAt',if_neg (behind x memberX)] at foundX
      rw [entryAt',if_neg (behind y memberY)] at foundY
      exact distinct a b foundX foundY
    · exact rep.fresh_update (Nat.le_refl _) (rep.found_lt found) entryAt'
    · intro id unused
      rcases mem_cons.mp unused with rfl | unused
      · exact ⟨small,unknown⟩
      · exact rep.free id unused
    · exact nodup_cons.mpr ⟨used,rep.freeDistinct⟩
    · refine ⟨rep.issued.1,fun zero => ?_⟩
      rcases mem_cons.mp zero with same | zero
      · exact rep.named e entry found same.symm
      · exact rep.issued.2 zero
    · intro x other found'
      rw [entryAt'] at found'
      split at found'
      · cases found'
      · exact rep.named x other found'
    · simp only [deadlines]
      exact rep.count
  · rintro x ((free | beyond) | named)
    · exact .inl (mem_cons_of_mem _ free)
    · exact .inr beyond
    · rw [idOf,found] at named
      exact .inl (Option.some.inj named ▸ mem_cons_self)
  · intro x
    rw [idOf,entryAt',idOf]
    split <;> rfl

theorem setEntry_entryAt (w : TimingWheel) (e x : Nat) (f : WheelEntry → WheelEntry) :
    (w.setEntry e f).entryAt x = if x = e then (w.entryAt e).map f else w.entryAt x := by
  unfold setEntry entryAt
  by_cases here : x = e
  · subst here
    cases w.heap x <;> simp
  · simp [here]

theorem setEntry_buckets (e : Nat)
    (f : WheelEntry → WheelEntry) (buckets : Buckets w.heap w.slots w.numSlots lists) :
    Buckets (w.setEntry e f).heap w.slots w.numSlots lists := by
  refine ⟨fun i inside => Segment.relabel ?_ (buckets.linked i inside),buckets.distinct,buckets.disjoint⟩
  intro x node found
  by_cases here : x = e
  · subst here
    exact ⟨{ node with payload := f node.payload },by simp [setEntry,found],rfl,rfl⟩
  · exact ⟨node,by simp [setEntry,here,found],rfl,rfl⟩

theorem members_erase {heap : Memory WheelEntry} {slots : Nat → Option Nat} {numSlots : Nat}
    (buckets : Buckets heap slots numSlots lists) (e i : Nat)
    (inside : i < numSlots) (member : e ∈ lists i) (j : Nat) (insideJ : j < numSlots) (x : Nat) :
    x ∈ update lists i ((lists i).erase e) j ↔ x ∈ lists j ∧ x ≠ e := by
  by_cases slot : j = i
  · subst slot
    rw [update_self,(buckets.distinct j inside).mem_erase_iff,and_comm]
  rw [update_of_ne slot]
  constructor
  · intro here
    refine ⟨here,?_⟩
    rintro rfl
    exact slot (buckets.disjoint j i x insideJ inside here member)
  · exact fun here => here.1

theorem Rep.found (rep : Rep w lists due) {id e : Nat} (known : w.lookup id = some e) :
    ∃ entry, w.entryAt e = some entry ∧ entry.id = id ∧ entry.cancelled = false ∧
      w.slotIndex entry.deadlineTick < w.numSlots ∧ e ∈ lists (w.slotIndex entry.deadlineTick) ∧
      id < w.entries.length ∧ e < w.allocated := by
  obtain ⟨entry,found,rfl,member⟩ := rep.listed id e known
  have inside := Nat.mod_lt entry.deadlineTick w.numSlots_pos
  obtain ⟨entry',found',active,_⟩ := rep.placed _ inside e member
  cases found.symm.trans found'
  refine ⟨entry,found,rfl,active,by rwa [slotIndex_eq],by rwa [slotIndex_eq],?_,
    rep.deadline_lt ((deadlineOf_some w e _).mpr ⟨entry,found,known,rfl⟩)⟩
  by_contra large
  simp only [lookup,getElem?_eq_none (by omega : w.entries.length ≤ entry.id)] at known
  cases known

theorem cancel_unknown (w : TimingWheel) {id : Nat} (unknown : w.lookup id = none) : w.cancel id = .ok w := by
  unfold cancel
  rw [unknown]

theorem cancel_spec (rep : Rep w lists due) {id e : Nat} (known : w.lookup id = some e) :
    ∃ w' lists', w.cancel id = .ok w' ∧ Rep w' lists' due ∧ (∀ x, w.Unused x ∨ x = id → w'.Unused x) ∧
      (∀ j, w'.lookup j = if j = id then none else w.lookup j) ∧
      (∀ x, w'.deadlineOf x = if x = e then none else w.deadlineOf x) ∧
      (∀ x, w'.idOf x = if x = e then none else w.idOf x) ∧ w'.allocated = w.allocated ∧
      w'.currentTick = w.currentTick ∧ w'.numSlots = w.numSlots := by
  obtain ⟨entry,found,rfl,active,inside,member,small,_⟩ := rep.found known
  let w₁ := w.setEntry e fun entry => { entry with cancelled := true }
  have relabelled : Buckets w₁.heap w₁.slots w₁.numSlots lists := setEntry_buckets e _ rep.buckets
  obtain ⟨heap,slots,removed,payloads,buckets⟩ :=
    removeEntry_spec w₁ lists e _ relabelled inside member
  let mid : TimingWheel := { w₁ with
    heap := heap, slots := slots, entries := w.entries.set entry.id none
    activeCount := w.activeCount - 1 }
  have entryAt' : ∀ x, mid.entryAt x =
      if x = e then some { entry with cancelled := true } else w.entryAt x := by
    intro x
    rw [entryAt_congr (w := w₁) payloads,setEntry_entryAt,found]
    rfl
  have lookup' : ∀ j, mid.lookup j = if j = entry.id then none else w.lookup j :=
    lookup_set none small
  have dropped : Dropped w mid lists (update lists (w.slotIndex entry.deadlineTick)
      ((lists (w.slotIndex entry.deadlineTick)).erase e)) [e] := by
    refine ⟨buckets,rfl,?_,?_,?_,?_,by simp,length_set ..,rfl,rfl,?_,rfl,rfl⟩
    · intro x other
      rw [entryAt',if_neg (by simpa using other)]
    · intro x here
      obtain rfl : x = e := by simpa using here
      exact ⟨entry,{ entry with cancelled := true },found,by rw [entryAt',if_pos rfl],rfl,known⟩
    · intro j x
      rw [lookup']
      by_cases here : j = entry.id
      · subst here
        simp [known,eq_comm]
      have elsewhere : w.lookup j = some x → x ≠ e := by
        rintro seen rfl
        exact here (rep.lookup_injective seen known)
      simpa [here] using elsewhere
    · intro j insideJ x
      simpa using members_erase relabelled e _ inside member j insideJ x
    · exact rep.fresh_update (Nat.le_refl _) (rep.found_lt found) entryAt'
  obtain ⟨w',released,rep',unused,lookup'',deadlines,ids,allocated,tick,size⟩ :=
    release_spec (dropped.rep rep)
  refine ⟨w',_,?_,rep',fun x before => unused x (before.imp_right ?_),?_,?_,?_,allocated,tick,size⟩
  · have registered := register_ok ({ w₁ with heap := heap, slots := slots }.deleteEntry e) none small
    have here : mid.entryAt e = some { entry with cancelled := true } := by rw [entryAt',if_pos rfl]
    unfold release at released
    rw [here] at released
    unfold cancel
    simp only [known,found,active,Bool.false_eq_true,if_false]
    simp only [w₁] at removed
    simp only [removed,bind,Except.bind,w₁,registered]
    exact released
  · rintro rfl
    rw [idOf,entryAt',if_pos rfl]
    rfl
  · intro j
    rw [lookup'',lookup']
  · intro x
    rw [deadlines,dropped.deadlineOf]
    simp
  · intro x
    rw [ids,idOf,entryAt',idOf]
    split <;> rfl

theorem reschedule_unknown (w : TimingWheel) {id t : Nat} (inRange : t < w.numSlots)
    (unknown : w.lookup id = none) : w.reschedule id t = .ok w := by
  rw [reschedule,if_neg (by omega),unknown]

theorem reschedule_outOfRange (w : TimingWheel) (id : Nat) (large : w.numSlots ≤ t) :
    w.reschedule id t = .error .outOfRange := by
  rw [reschedule,if_pos large]

theorem reschedule_spec (rep : Rep w lists due) {id e : Nat} (t : Nat) (inRange : t < w.numSlots)
    (known : w.lookup id = some e) :
    ∃ w' lists', w.reschedule id t = .ok w' ∧ Rep w' lists' due ∧ (∀ x, w.Unused x → w'.Unused x) ∧
      (∀ j, w'.lookup j = w.lookup j) ∧
      (∀ x, w'.deadlineOf x = if x = e then some (w.currentTick + t) else w.deadlineOf x) ∧
      (∀ x, w'.idOf x = w.idOf x) ∧ w'.allocated = w.allocated ∧
      w'.currentTick = w.currentTick ∧ w'.numSlots = w.numSlots := by
  obtain ⟨entry,found,rfl,active,inside,member,small,_⟩ := rep.found known
  obtain ⟨heap,slots,removed,payloads,buckets⟩ :=
    removeEntry_spec w lists e _ rep.buckets inside member
  have members := members_erase rep.buckets e _ inside member
  generalize update lists (w.slotIndex entry.deadlineTick)
    ((lists (w.slotIndex entry.deadlineTick)).erase e) = lists₁ at buckets members
  let w₁ : TimingWheel := { w with heap := heap, slots := slots }
  let entry' : WheelEntry := { entry with deadlineTick := w.currentTick + t }
  let w₂ := w₁.setEntry e fun entry => { entry with deadlineTick := w.currentTick + t }
  let i := (w.currentTick + t) % w.numSlots
  have inside' : i < w.numSlots := Nat.mod_lt _ w.numSlots_pos
  have entryAt₁ : ∀ x, w₁.entryAt x = w.entryAt x := entryAt_congr payloads
  have entryAt₂ : ∀ x, w₂.entryAt x = if x = e then some entry' else w.entryAt x := by
    intro x
    rw [setEntry_entryAt,entryAt₁,entryAt₁,found]
    rfl
  have outside : ∀ j, j < w.numSlots → e ∉ lists₁ j := by
    intro j insideJ here
    exact ((members j insideJ e).mp here).2 rfl
  obtain ⟨heap',slots',inserted,payloads',buckets'⟩ := insertEntry_spec w₂
    (setEntry_buckets e _ buckets) inside' outside (by simp [entryAt₂])
  let w' : TimingWheel := { w₂ with heap := heap', slots := slots' }
  have entryAt' : ∀ x, w'.entryAt x = if x = e then some entry' else w.entryAt x := by
    intro x
    rw [entryAt_congr (w := w₂) payloads',entryAt₂]
  have armed : Armed w w' lists (update lists₁ i (e :: lists₁ i)) due e entry' := by
    refine ⟨buckets',rfl,entryAt',?_,?_,active,?_,.inr known,rfl,rfl,?_,⟨?_,?_⟩,rfl,rep.named e entry found,?_⟩
    · intro j
      by_cases here : j = entry.id
      · subst here
        simp only [entry',if_true]
        exact known
      · simp only [entry',here,if_false]
        rfl
    · intro j insideJ x
      rw [members_insert lists₁ e i j x fun here => here ▸ outside j insideJ]
      by_cases here : x = e
      · simp only [here,if_true]
        rfl
      · simp [here,members j insideJ]
    · exact fun j seen => rep.lookup_injective seen known
    · intro unused
      rw [(rep.free _ unused).2] at known
      cases known
    · intro waiting
      obtain ⟨other,found',unknown,_⟩ := rep.waiting e waiting
      cases found.symm.trans found'
      rw [known] at unknown
      cases unknown
    · intro f waiting a found' same
      obtain ⟨b,found'',unknown,_⟩ := rep.waiting f waiting
      cases found'.symm.trans found''
      rw [same,known] at unknown
      cases unknown
    · exact rep.fresh_update (Nat.le_refl _) (rep.found_lt found) entryAt'
  have armedBefore := (deadlineOf_some w e _).mpr ⟨entry,found,known,rfl⟩
  refine ⟨w',_,?_,armed.rep rep (armed.count_old rep (by rw [armedBefore]; rfl) rfl rfl),
    fun _ unused => unused,fun _ => rfl,armed.deadlineOf,?_,rfl,rfl,rfl⟩
  · rw [reschedule,if_neg (by omega)]
    simp only [known,found,active,Bool.false_eq_true,if_false,removed,bind,Except.bind]
    rw [computeDeadline_eq,slotIndex_eq]
    exact inserted
  · intro x
    rw [idOf,entryAt',idOf]
    by_cases here : x = e
    · simp [here,found,entry']
    · simp [here]

theorem detach_spec (w : TimingWheel) (lists : Nat → List Nat) (i : Nat) (gone : List Nat)
    (buckets : Buckets w.heap w.slots w.numSlots lists) (inside : i < w.numSlots)
    (distinct : gone.Nodup) (members : ∀ e ∈ gone, e ∈ lists i) :
    ∃ heap slots lists', w.detach i gone = .ok { w with heap := heap, slots := slots } ∧
      SamePayloads w.heap heap ∧ Buckets heap slots w.numSlots lists' ∧
      ∀ j, j < w.numSlots → ∀ x, x ∈ lists' j ↔ x ∈ lists j ∧ x ∉ gone := by
  induction gone generalizing w lists with
  | nil => exact ⟨w.heap,w.slots,lists,rfl,.refl _,buckets,by simp⟩
  | cons e rest ih =>
    obtain ⟨notLater,distinct⟩ := nodup_cons.mp distinct
    have here := members e mem_cons_self
    obtain ⟨heap₁,slots₁,removed,payloads₁,buckets₁⟩ :=
      removeEntry_spec w lists e i buckets inside here
    have erased := members_erase buckets e i inside here
    obtain ⟨heap,slots,lists',detached,payloads,buckets',left⟩ :=
      ih { w with heap := heap₁, slots := slots₁ } _ buckets₁ inside distinct (by
        intro x later
        refine (erased i inside x).mpr ⟨members x (mem_cons_of_mem e later),?_⟩
        rintro rfl
        exact notLater later)
    refine ⟨heap,slots,lists',?_,payloads₁.trans payloads,buckets',?_⟩
    · simp only [detach,removed,bind,Except.bind]
      exact detached
    · intro j insideJ x
      rw [left j insideJ,erased j insideJ]
      simp [and_assoc]

theorem forget_spec (w : TimingWheel) (indexed : ∀ e ∈ gone, ∃ id, w.idOf e = some id ∧ id < w.entries.length) :
    ∃ entries, w.forget gone = .ok { w with
        entries := entries, activeCount := w.activeCount - gone.length } ∧
      entries.length = w.entries.length ∧
      ∀ j x, (entries[j]?).join = some x ↔ w.lookup j = some x ∧ ∀ e ∈ gone, w.idOf e ≠ some j := by
  induction gone generalizing w with
  | nil => exact ⟨w.entries,rfl,rfl,by simp [lookup]⟩
  | cons e rest ih =>
    obtain ⟨id,named,small⟩ := indexed e mem_cons_self
    obtain ⟨entry,found,rfl⟩ : ∃ entry, w.entryAt e = some entry ∧ entry.id = id := by
      simpa [idOf] using named
    let w₁ : TimingWheel := { w with
      entries := w.entries.set entry.id none, activeCount := w.activeCount - 1 }
    obtain ⟨entries,forgotten,length,index⟩ := ih w₁ (by
      intro x later
      obtain ⟨id,named,small⟩ := indexed x (mem_cons_of_mem e later)
      exact ⟨id,named,by simpa [w₁] using small⟩)
    refine ⟨entries,?_,length.trans (length_set ..),?_⟩
    · simp only [forget,found,register_ok _ _ small,bind,Except.bind]
      rw [forgotten]
      simp only [w₁,length_cons,Nat.sub_sub,Nat.add_comm 1]
    · intro j x
      rw [index j x,show w₁.lookup j = _ from lookup_set none small j]
      by_cases here : j = entry.id
      · subst here
        simp [named]
      have other : w.idOf e ≠ some j := by
        rw [named]
        simpa using fun same => here same.symm
      simp only [here,if_false,mem_cons,forall_eq_or_imp,other,ne_eq,not_false_eq_true,true_and]
      rfl

section
variable (rep : Rep w lists due)
include rep

theorem Rep.slot_length (inside : i < w.numSlots) : (lists i).length ≤ w.allocated := by
  have range : lists i ⊆ List.range w.allocated := by
    intro e member
    obtain ⟨entry,found,_,_,known⟩ := rep.placed i inside e member
    exact mem_range.mpr (rep.deadline_lt ((deadlineOf_some w e _).mpr ⟨entry,found,known,rfl⟩))
  simpa using (List.Nodup.subperm (rep.buckets.distinct i inside) range).length_le

theorem collect_spec : ∃ expired, w.collect = .ok expired ∧ expired.Nodup ∧
      (∀ e ∈ expired, e ∈ lists (w.slotIndex w.currentTick)) ∧
      ∀ e, e ∈ expired ↔ w.deadlineOf e = some w.currentTick := by
  have inside : w.slotIndex w.currentTick < w.numSlots := by
    rw [slotIndex_eq]
    exact Nat.mod_lt _ w.numSlots_pos
  have walked := walk_chain (rep.buckets.linked _ inside) (rep.slot_length inside)
  unfold collect
  rw [walked]
  refine ⟨_,rfl,(rep.buckets.distinct _ inside).filter _,
    fun e member => (mem_filter.mp member).1,?_⟩
  intro e
  rw [mem_filter,deadlineOf_some]
  constructor
  · rintro ⟨member,selected⟩
    obtain ⟨entry,found,_,_,known⟩ := rep.placed _ inside e member
    refine ⟨entry,found,known,?_⟩
    simp only [found,Bool.and_eq_true,beq_iff_eq] at selected
    exact selected.2
  · rintro ⟨entry,found,known,due⟩
    obtain ⟨entry',found',_,active,_,member,_⟩ := rep.found known
    cases found.symm.trans found'
    exact ⟨due ▸ member,by simp [found,active,due]⟩

theorem expire_spec :
    ∃ expired w' lists', w.expire = .ok (expired,w') ∧ Rep w' lists' (expired ++ due) ∧
      (∀ x, w.Unused x → w'.Unused x) ∧ expired.Nodup ∧ (∀ e, e ∈ expired ↔ w.deadlineOf e = some w.currentTick) ∧
      (∀ j x, w'.lookup j = some x ↔ w.lookup j = some x ∧ x ∉ expired) ∧
      (∀ x, w'.deadlineOf x = if x ∈ expired then none else w.deadlineOf x) ∧
      (∀ x, w'.idOf x = w.idOf x) ∧ w'.allocated = w.allocated ∧
      w'.currentTick = w.currentTick ∧ w'.numSlots = w.numSlots := by
  obtain ⟨expired,collected,distinct,members,timely⟩ := collect_spec rep
  have inside : w.slotIndex w.currentTick < w.numSlots := by
    rw [slotIndex_eq]
    exact Nat.mod_lt _ w.numSlots_pos
  obtain ⟨heap,slots,lists',detached,payloads,buckets,left⟩ :=
    detach_spec w lists _ expired rep.buckets inside distinct members
  let w₁ : TimingWheel := { w with heap := heap, slots := slots }
  have entryAt₁ : ∀ x, w₁.entryAt x = w.entryAt x := entryAt_congr payloads
  have ids : ∀ x, w₁.idOf x = w.idOf x := fun x => by rw [idOf,entryAt₁,idOf]
  have present : ∀ e ∈ expired, ∃ entry, w.entryAt e = some entry ∧
      w.lookup entry.id = some e ∧ entry.id < w.entries.length := by
    intro e member
    obtain ⟨entry,found,known,_⟩ := (deadlineOf_some w e _).mp ((timely e).mp member)
    obtain ⟨_,_,_,_,_,_,small,_⟩ := rep.found known
    exact ⟨entry,found,known,small⟩
  obtain ⟨entries,forgotten,length,index⟩ := forget_spec w₁ (by
    intro e member
    obtain ⟨entry,found,_,small⟩ := present e member
    exact ⟨entry.id,by rw [ids,idOf,found]; rfl,small⟩)
  let w' : TimingWheel := { w₁ with
    entries := entries, activeCount := w.activeCount - expired.length }
  have lookup' : ∀ j x, w'.lookup j = some x ↔ w.lookup j = some x ∧ x ∉ expired := by
    intro j x
    rw [show w'.lookup j = (entries[j]?).join from rfl,index]
    refine and_congr_right fun known => ?_
    obtain ⟨entry,found,named,_⟩ := rep.listed j x known
    constructor
    · intro others member
      refine others x member ?_
      rw [ids,idOf,found]
      exact congrArg some named
    · rintro stays e member same
      obtain ⟨entry',found',known',_⟩ := present e member
      rw [ids,idOf,found'] at same
      rw [Option.some.inj same] at known'
      cases known'.symm.trans known
      exact stays member
  have dropped : Dropped w w' lists lists' expired := by
    refine ⟨buckets,rfl,fun x _ => entryAt₁ x,?_,lookup',left,distinct,length,rfl,rfl,?_,rfl,rfl⟩
    · intro e member
      obtain ⟨entry,found,known,_⟩ := present e member
      exact ⟨entry,entry,found,(entryAt₁ e).trans found,rfl,known⟩
    · intro x beyond
      exact (heap_none w₁ x).mpr ((entryAt₁ x).trans (rep.unallocated beyond))
  refine ⟨expired,w',lists',?_,dropped.rep rep,fun _ unused => unused,distinct,timely,lookup',dropped.deadlineOf,ids,rfl,rfl,rfl⟩
  simp only [expire,collected,detached,bind,Except.bind]
  rw [forgotten]
  rfl

end

theorem known_of_armed {id d : Nat} (named : w.idOf e = some id)
    (armed : w.deadlineOf e = some d) : w.lookup id = some e := by
  obtain ⟨entry,found,known,_⟩ := (deadlineOf_some w e d).mp armed
  rw [idOf,found] at named
  exact Option.some.inj named ▸ known

theorem Rep.armed_of_known (rep : Rep w lists due) {id : Nat} (known : w.lookup id = some e) :
    w.idOf e = some id ∧ ∃ d, w.deadlineOf e = some d := by
  obtain ⟨entry,found,rfl,_⟩ := rep.listed id e known
  exact ⟨by rw [idOf,found]; rfl,_,(deadlineOf_some w e _).mpr ⟨entry,found,known,rfl⟩⟩

variable (f : Nat → σ → σ) (w : TimingWheel)

theorem fire_spec (env : σ) (rep : Rep w lists due) :
    ∃ w', fire (fun _ id s => .ok (s.1,f id s.2)) due (w,env) =
        .ok (w',(due.filterMap w.idOf).foldl (fun env id => f id env) env) ∧ Rep w' lists [] ∧
      (∀ j, w'.lookup j = w.lookup j) ∧ (∀ x, w'.deadlineOf x = w.deadlineOf x) ∧
      w'.currentTick = w.currentTick ∧ w'.numSlots = w.numSlots := by
  induction due generalizing w env with
  | nil => exact ⟨w,rfl,rep,fun _ => rfl,fun _ => rfl,rfl,rfl⟩
  | cons e rest ih =>
    obtain ⟨entry,found,_⟩ := rep.waiting e mem_cons_self
    obtain ⟨w₁,released,rep₁,_,lookup₁,deadlines₁,ids₁,_,tick₁,size₁⟩ := release_spec rep
    have named : w.idOf e = some entry.id := by rw [idOf,found]; rfl
    have others : rest.filterMap w₁.idOf = rest.filterMap w.idOf := by
      apply filterMap_congr
      intro x later
      rw [ids₁,if_neg]
      rintro rfl
      exact (pairwise_cons.mp rep.apart).1 x later entry entry found found rfl
    obtain ⟨w',fired,rep',lookup',deadlines',tick',size'⟩ := ih w₁ (f entry.id env) rep₁
    refine ⟨w',?_,rep',fun j => (lookup' j).trans (lookup₁ j),
      fun x => (deadlines' x).trans (deadlines₁ x),tick'.trans tick₁,size'.trans size₁⟩
    rw [filterMap_cons_some named,foldl_cons,← others]
    simp only [fire,found,bind,Except.bind,released]
    exact fired

theorem tick_spec (lists : Nat → List Nat) (env : σ) (rep : Rep w lists []) :
    ∃ (ids : List Nat) (w' : TimingWheel) (lists' : Nat → List Nat),
      tick (fun _ id s => .ok (s.1,f id s.2)) (w,env) =
        .ok (w',ids.foldl (fun env id => f id env) env) ∧ Rep w' lists' [] ∧ ids.Nodup ∧
      (∀ id, id ∈ ids ↔ ∃ e, w.lookup id = some e ∧ w.deadlineOf e = some w.currentTick) ∧
      (∀ j x, w'.lookup j = some x ↔ w.lookup j = some x ∧ w.deadlineOf x ≠ some w.currentTick) ∧
      (∀ x, w.deadlineOf x ≠ some w.currentTick → w'.deadlineOf x = w.deadlineOf x) ∧
      w'.currentTick = w.currentTick + 1 ∧ w'.numSlots = w.numSlots := by
  obtain ⟨expired,w₁,lists₁,done,rep₁,_,distinct,timely,lookup₁,deadlines₁,ids₁,_,tick₁,size₁⟩ :=
    expire_spec rep
  rw [append_nil] at rep₁
  obtain ⟨w₂,fired,rep₂,lookup₂,deadlines₂,tick₂,size₂⟩ := fire_spec f w₁ env rep₁
  refine ⟨expired.filterMap w₁.idOf,{ w₂ with currentTick := w₂.currentTick + 1 },lists₁,?_,
    rep₂.reindex rfl rfl rfl rfl rfl (fun _ => rfl) (Nat.le_refl _) (List.Sublist.refl _) rep₂.grown
      (Nat.le_refl _),?_,?_,?_,?_,?_,size₂.trans size₁⟩
  · simp only [tick,done,bind,Except.bind]
    rw [fired]
    rfl
  · refine List.Pairwise.filterMap w₁.idOf ?_ rep₁.apart
    intro e f differ a named b named' same
    obtain ⟨entry,found,rfl⟩ : ∃ entry, w₁.entryAt e = some entry ∧ entry.id = a := by
      simpa [idOf] using named
    obtain ⟨entry',found',rfl⟩ : ∃ entry, w₁.entryAt f = some entry ∧ entry.id = b := by
      simpa [idOf] using named'
    exact differ entry entry' found found' same
  · intro id
    simp only [mem_filterMap,timely,ids₁]
    constructor
    · rintro ⟨e,due,named⟩
      exact ⟨e,known_of_armed named due,due⟩
    · rintro ⟨e,known,due⟩
      exact ⟨e,due,(rep.armed_of_known known).1⟩
  · intro j x
    rw [ne_eq,← timely,← lookup₁,← lookup₂]
    rfl
  · intro x other
    rw [ne_eq,← timely] at other
    have kept := deadlines₁ x
    rw [if_neg other] at kept
    exact (deadlines₂ x).trans kept
  · exact congrArg (· + 1) (tick₂.trans tick₁)

end TimingWheel
end ApexPipeline
