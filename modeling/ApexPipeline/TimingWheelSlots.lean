import ApexPipeline.TimingWheel

/-! What the pointers of the wheel mean. `Rep` relates the slots, the entries, the recycled ids and the expired
entries still to be called back; every operation keeps it, and is described by what it does to `deadlineOf`. -/
namespace ApexPipeline
open IntrusiveList Function Option

namespace TimingWheel

def deadlineOf (w : TimingWheel) (e : Nat) : Option Nat :=
  match w.entryAt e with
  | some entry => if w.lookup entry.id = some e then some entry.deadlineTick else none
  | none => none

section
variable (w : TimingWheel)

theorem numSlots_pos : 0 < w.numSlots := by
  obtain ⟨k,_,equal⟩ := w.power
  rw [equal]
  exact Nat.two_pow_pos k

theorem slotIndex_eq (tick : Nat) : w.slotIndex tick = tick % w.numSlots := by
  obtain ⟨k,_,equal⟩ := w.power
  rw [slotIndex,mask,equal,Nat.and_two_pow_sub_one_eq_mod]

theorem computeDeadline_eq (ticks : Nat) : w.computeDeadline ticks = w.currentTick + ticks := by
  unfold computeDeadline
  split
  · rename_i zero
    rw [zero,Nat.add_zero]
  · rfl

end

structure Buckets (heap : Memory WheelEntry) (slots : Nat → Option Nat) (numSlots : Nat)
    (lists : Nat → List Nat) : Prop where
  linked : ∀ i, i < numSlots → Chain heap (slots i) (lists i)
  distinct : ∀ i, i < numSlots → (lists i).Nodup
  disjoint : ∀ i j e, i < numSlots → j < numSlots → e ∈ lists i → e ∈ lists j → i = j

variable {lists lists' : Nat → List Nat} {due gone : List Nat} {e : Nat} {w w' : TimingWheel} {entry : WheelEntry}

theorem Buckets.update {heap heap' : Memory WheelEntry} {slots : Nat → Option Nat} {numSlots : Nat}
    (buckets : Buckets heap slots numSlots lists) (i : Nat) (linked : Chain heap' head xs)
    (distinct : xs.Nodup)
    (apart : ∀ j x, j < numSlots → j ≠ i → x ∈ lists j → x ∉ xs ∧ heap' x = heap x) :
    Buckets heap' (update slots i head) numSlots (update lists i xs) := by
  refine ⟨?_,?_,?_⟩
  · intro j inside
    by_cases here : j = i
    · subst here
      simpa using linked
    · simp only [update_of_ne here]
      exact Segment.congr (fun x member => (apart j x inside here member).2) (buckets.linked j inside)
  · intro j inside
    by_cases here : j = i
    · subst here
      simpa using distinct
    · simpa only [update_of_ne here] using buckets.distinct j inside
  · intro j k e insideJ insideK memberJ memberK
    by_cases first : j = i <;> by_cases second : k = i
    · exact first.trans second.symm
    · subst first
      rw [update_self] at memberJ
      rw [update_of_ne second] at memberK
      exact absurd memberJ (apart k e insideK second memberK).1
    · subst second
      rw [update_self] at memberK
      rw [update_of_ne first] at memberJ
      exact absurd memberK (apart j e insideJ first memberJ).1
    · rw [update_of_ne first] at memberJ
      rw [update_of_ne second] at memberK
      exact buckets.disjoint j k e insideJ insideK memberJ memberK

section
variable (w : TimingWheel)

theorem insertEntry_spec (buckets : Buckets w.heap w.slots w.numSlots lists) (inside : i < w.numSlots)
    (outside : ∀ j, j < w.numSlots → e ∉ lists j) (found : (w.entryAt e).isSome) :
    ∃ heap slots, w.insertEntry e i = .ok { w with heap := heap, slots := slots } ∧ SamePayloads w.heap heap ∧
      Buckets heap slots w.numSlots (update lists i (e :: lists i)) := by
  obtain ⟨node,present⟩ : ∃ node, w.heap e = some node := by
    simpa [entryAt,isSome_iff_exists] using found
  obtain ⟨heap,inserted,linked,payloads,others⟩ := insert_spec
    (buckets.linked i inside) (buckets.distinct i inside) (outside i inside) present
  refine ⟨heap,update w.slots i (some e),by simp only [insertEntry,inserted],payloads,?_⟩
  refine buckets.update i linked (List.nodup_cons.mpr ⟨outside i inside,buckets.distinct i inside⟩) ?_
  intro j x insideJ other member
  have notNew : x ≠ e := by
    rintro rfl
    exact outside j insideJ member
  have notHere : x ∉ lists i := fun here => other (buckets.disjoint j i x insideJ inside member here)
  exact ⟨by simp [notNew,notHere],others x notNew notHere⟩

theorem removeEntry_spec (lists : Nat → List Nat) (e i : Nat)
    (buckets : Buckets w.heap w.slots w.numSlots lists) (inside : i < w.numSlots)
    (member : e ∈ lists i) :
    ∃ heap slots, w.removeEntry e i = .ok { w with heap := heap, slots := slots } ∧ SamePayloads w.heap heap ∧
      Buckets heap slots w.numSlots (update lists i ((lists i).erase e)) := by
  obtain ⟨heap,head,removed,linked,payloads,others⟩ := remove_spec
    (buckets.linked i inside) (buckets.distinct i inside) member
  refine ⟨heap,update w.slots i head,by simp only [removeEntry,removed],payloads,?_⟩
  refine buckets.update i linked ((buckets.distinct i inside).erase e) ?_
  intro j x insideJ other here
  have notHere : x ∉ lists i := fun same => other (buckets.disjoint j i x insideJ inside here same)
  exact ⟨fun later => notHere (List.mem_of_mem_erase later),others x notHere⟩

/-- The state of the wheel, with the slot lists and the expired entries `due` whose
callback has not returned yet. -/
structure Rep (w : TimingWheel) (lists : Nat → List Nat) (due : List Nat) : Prop where
  buckets : Buckets w.heap w.slots w.numSlots lists
  placed : ∀ i, i < w.numSlots → ∀ e ∈ lists i, ∃ entry, w.entryAt e = some entry ∧
    entry.cancelled = false ∧ entry.deadlineTick % w.numSlots = i ∧ w.lookup entry.id = some e
  listed : ∀ id e, w.lookup id = some e → ∃ entry, w.entryAt e = some entry ∧ entry.id = id ∧
    e ∈ lists (entry.deadlineTick % w.numSlots)
  waiting : ∀ e ∈ due, ∃ entry, w.entryAt e = some entry ∧ w.lookup entry.id = none ∧
    entry.id < w.entries.length ∧ entry.id ∉ w.freeIds
  apart : due.Pairwise fun e f => ∀ a b, w.entryAt e = some a → w.entryAt f = some b → a.id ≠ b.id
  fresh : ∀ e, w.allocated ≤ e → w.heap e = none
  free : ∀ id ∈ w.freeIds, id < w.entries.length ∧ w.lookup id = none
  freeDistinct : w.freeIds.Nodup
  grown : w.entries.length ≤ w.nextId
  issued : 0 < w.nextId ∧ 0 ∉ w.freeIds
  named : ∀ e entry, w.entryAt e = some entry → entry.id ≠ 0
  count : w.activeCount = (List.range w.allocated).countP fun e => (w.deadlineOf e).isSome

theorem lookup_set {entries : List (Option Nat)} {id : Nat} (ptr : Option Nat)
    (inside : id < entries.length) (j : Nat) :
    ((entries.set id ptr)[j]?).join = if j = id then ptr else (entries[j]?).join := by
  rw [List.getElem?_set]
  by_cases here : id = j
  · subst here
    simp [inside]
  · rw [if_neg here,if_neg fun same => here same.symm]

theorem create_rep (created : create requested word = some w) :
    Rep w (fun _ => []) [] ∧ w.nextId = 1 ∧ w.currentTick = 0 ∧ w.allocated = 0 := by
  unfold create at created
  simp only at created
  by_cases zero : MathUtils.nextPowerOf2 (if requested < 1 then 1 else requested) = 0
  · rw [dif_pos zero] at created
    cases created
  rw [dif_neg zero] at created
  cases created
  refine ⟨⟨⟨fun _ _ => rfl,by simp,by simp⟩,by simp,by simp [lookup],by simp,by simp,
    fun _ _ => rfl,by simp,by simp,by simp,by simp,by simp [entryAt],by simp⟩,rfl,rfl,rfl⟩

theorem deadlineOf_some (e d : Nat) : w.deadlineOf e = some d ↔
    ∃ entry, w.entryAt e = some entry ∧ w.lookup entry.id = some e ∧ entry.deadlineTick = d := by
  unfold deadlineOf
  cases found : w.entryAt e with
  | none => simp
  | some entry =>
    simp only [ite_none_right_eq_some,some.injEq]
    constructor
    · rintro ⟨known,rfl⟩
      exact ⟨entry,rfl,known,rfl⟩
    · rintro ⟨_,rfl,known,rfl⟩
      exact ⟨known,rfl⟩

theorem heap_none (e : Nat) : w.heap e = none ↔ w.entryAt e = none := by
  simp [entryAt]

end

section
variable (rep : Rep w lists due)
include rep

theorem Rep.unallocated (beyond : w.allocated ≤ e) : w.entryAt e = none :=
  (heap_none w e).mp (rep.fresh e beyond)

theorem Rep.found_lt (found : w.entryAt e = some entry) : e < w.allocated := by
  by_contra late
  rw [rep.unallocated (by omega)] at found
  cases found

theorem Rep.deadline_lt (armed : w.deadlineOf e = some d) : e < w.allocated := by
  obtain ⟨entry,found,_⟩ := (deadlineOf_some w e d).mp armed
  exact rep.found_lt found

theorem Rep.fresh_update {bound : Nat} {written : Option WheelEntry}
    (grown : w.allocated ≤ bound) (inside : e < bound)
    (entryAt' : ∀ x, w'.entryAt x = if x = e then written else w.entryAt x) (x : Nat)
    (beyond : bound ≤ x) : w'.heap x = none := by
  rw [heap_none,entryAt',if_neg (by omega)]
  exact rep.unallocated (by omega)

theorem Rep.lookup_injective (known : w.lookup i = some e)
    (known' : w.lookup j = some e) : i = j := by
  obtain ⟨entry,found,named,_⟩ := rep.listed i e known
  obtain ⟨entry',found',named',_⟩ := rep.listed j e known'
  cases found.symm.trans found'
  exact named.symm.trans named'

end

theorem countP_range_change (n e : Nat) (p q : Nat → Bool) (inside : e < n) (same : ∀ x, x ≠ e → q x = p x) :
    (List.range n).countP q + (p e).toNat = (List.range n).countP p + (q e).toNat := by
  induction n with
  | zero => omega
  | succ n ih =>
    rw [List.range_succ,List.countP_append,List.countP_append,List.countP_singleton,List.countP_singleton]
    by_cases last : e = n
    · subst last
      have before : (List.range e).countP q = (List.range e).countP p := by
        apply List.countP_congr
        intro x member
        rw [same x (by have := List.mem_range.mp member; omega)]
      rw [before]
      cases p e <;> cases q e <;> simp
    · have earlier := ih (by omega)
      rw [same n fun equal => last equal.symm]
      omega

structure Armed (w w' : TimingWheel) (lists lists' : Nat → List Nat) (due : List Nat) (e : Nat)
    (entry : WheelEntry) : Prop where
  buckets : Buckets w'.heap w'.slots w'.numSlots lists'
  size : w'.numSlots = w.numSlots
  entryAt : ∀ x, w'.entryAt x = if x = e then some entry else w.entryAt x
  lookup : ∀ j, w'.lookup j = if j = entry.id then some e else w.lookup j
  members : ∀ j, j < w.numSlots → ∀ x, x ∈ lists' j ↔
    if x = e then j = entry.deadlineTick % w.numSlots else x ∈ lists j
  active : entry.cancelled = false
  owner : ∀ j, w.lookup j = some e → j = entry.id
  unused : w.lookup entry.id = none ∨ w.lookup entry.id = some e
  length : w'.entries.length = w.entries.length
  free : w'.freeIds = w.freeIds
  spare : entry.id ∉ w.freeIds
  undue : e ∉ due ∧ ∀ f ∈ due, ∀ a, w.entryAt f = some a → a.id ≠ entry.id
  grown : w'.nextId = w.nextId
  named : entry.id ≠ 0
  fresh : ∀ x, w'.allocated ≤ x → w'.heap x = none

theorem Armed.deadlineOf (armed : Armed w w' lists lists' due e entry) (x : Nat) :
    w'.deadlineOf x = if x = e then some entry.deadlineTick else w.deadlineOf x := by
  unfold TimingWheel.deadlineOf
  rw [armed.entryAt x]
  by_cases here : x = e
  · subst here
    simp [armed.lookup]
  simp only [here,if_false]
  cases w.entryAt x with
  | none => rfl
  | some other =>
    simp only [armed.lookup]
    by_cases same : other.id = entry.id
    · have stale : w.lookup entry.id ≠ some x := by
        rcases armed.unused with none' | old
        · simp [none']
        · rw [old]
          simpa using fun equal => here equal.symm
      have new : some e ≠ some x := by simpa using fun equal => here equal.symm
      simp [same,stale,new]
    · simp [same]

theorem Armed.count_new (rep : Rep w lists due)
    (armed : Armed w w' lists lists' due e entry) (new : e = w.allocated)
    (allocated : w'.allocated = w.allocated + 1) (active : w'.activeCount = w.activeCount + 1) :
    w'.activeCount = (List.range w'.allocated).countP fun e => (w'.deadlineOf e).isSome := by
  have before : (List.range w.allocated).countP (fun e => (w'.deadlineOf e).isSome) =
      (List.range w.allocated).countP fun e => (w.deadlineOf e).isSome := by
    apply List.countP_congr
    intro x member
    rw [armed.deadlineOf,if_neg]
    have := List.mem_range.mp member
    omega
  rw [active,allocated,List.range_succ,List.countP_append,before,← rep.count]
  simp [armed.deadlineOf,new]

theorem Armed.count_old (rep : Rep w lists due)
    (armed : Armed w w' lists lists' due e entry) (old : (w.deadlineOf e).isSome)
    (allocated : w'.allocated = w.allocated) (active : w'.activeCount = w.activeCount) :
    w'.activeCount = (List.range w'.allocated).countP fun e => (w'.deadlineOf e).isSome := by
  rw [active,allocated,rep.count]
  apply List.countP_congr
  intro x _
  rw [armed.deadlineOf]
  by_cases here : x = e
  · simp [here,old]
  · simp [here]

theorem Armed.rep (rep : Rep w lists due) (armed : Armed w w' lists lists' due e entry)
    (count : w'.activeCount = (List.range w'.allocated).countP fun e => (w'.deadlineOf e).isSome) :
    Rep w' lists' due := by
  have slots := w.numSlots_pos
  refine ⟨armed.buckets,?_,?_,?_,?_,armed.fresh,?_,?_,?_,?_,?_,count⟩
  · intro i inside x member
    rw [armed.size] at inside ⊢
    rw [armed.members i inside] at member
    rw [armed.entryAt]
    by_cases here : x = e
    · simp only [here,if_true] at member ⊢
      exact ⟨entry,rfl,armed.active,member.symm,by simp [armed.lookup]⟩
    simp only [here,if_false] at member ⊢
    obtain ⟨other,found,kept,slot,known⟩ := rep.placed i inside x member
    refine ⟨other,found,kept,slot,?_⟩
    rw [armed.lookup,if_neg,known]
    intro same
    rw [same] at known
    rcases armed.unused with none' | old
    · rw [none'] at known
      cases known
    · rw [old] at known
      exact here (some.inj known).symm
  · intro id x known
    rw [armed.size]
    rw [armed.lookup] at known
    by_cases mine : id = entry.id
    · simp only [mine,if_true] at known
      cases known
      refine ⟨entry,by simp [armed.entryAt],mine.symm,?_⟩
      rw [armed.members _ (Nat.mod_lt _ slots)]
      simp
    · simp only [mine,if_false] at known
      have other : x ≠ e := by
        rintro rfl
        exact mine (armed.owner id known)
      obtain ⟨a,found,named,member⟩ := rep.listed id x known
      refine ⟨a,by simp [armed.entryAt,other,found],named,?_⟩
      rw [armed.members _ (Nat.mod_lt _ slots)]
      simpa [other] using member
  · intro x member
    obtain ⟨a,found,unknown,small,notFree⟩ := rep.waiting x member
    have other : x ≠ e := by
      rintro rfl
      exact armed.undue.1 member
    have differs := armed.undue.2 x member a found
    refine ⟨a,by simp [armed.entryAt,other,found],by simp [armed.lookup,differs,unknown],?_,?_⟩
    · rw [armed.length]
      exact small
    · rw [armed.free]
      exact notFree
  · refine rep.apart.imp_of_mem ?_
    intro x y memberX memberY distinct a b foundX foundY
    have otherX : x ≠ e := fun same => armed.undue.1 (same ▸ memberX)
    have otherY : y ≠ e := fun same => armed.undue.1 (same ▸ memberY)
    simp only [armed.entryAt,otherX,otherY,if_false] at foundX foundY
    exact distinct a b foundX foundY
  · intro id member
    rw [armed.free] at member
    obtain ⟨small,unknown⟩ := rep.free id member
    refine ⟨by rw [armed.length]; exact small,?_⟩
    rw [armed.lookup,if_neg,unknown]
    rintro rfl
    exact armed.spare member
  · rw [armed.free]
    exact rep.freeDistinct
  · rw [armed.length,armed.grown]
    exact rep.grown
  · rw [armed.grown,armed.free]
    exact rep.issued
  · intro x other found
    rw [armed.entryAt] at found
    split at found
    · cases found
      exact armed.named
    · exact rep.named x other found

/-- What taking entries out of the slots and out of the index does. They are then due;
their other fields may change, but not their ids. -/
structure Dropped (w w' : TimingWheel) (lists lists' : Nat → List Nat) (gone : List Nat) : Prop where
  buckets : Buckets w'.heap w'.slots w'.numSlots lists'
  size : w'.numSlots = w.numSlots
  entryAt : ∀ x, x ∉ gone → w'.entryAt x = w.entryAt x
  kept : ∀ x ∈ gone, ∃ a b, w.entryAt x = some a ∧ w'.entryAt x = some b ∧ b.id = a.id ∧ w.lookup a.id = some x
  lookup : ∀ j x, w'.lookup j = some x ↔ w.lookup j = some x ∧ x ∉ gone
  members : ∀ j, j < w.numSlots → ∀ x, x ∈ lists' j ↔ x ∈ lists j ∧ x ∉ gone
  distinct : gone.Nodup
  length : w'.entries.length = w.entries.length
  free : w'.freeIds = w.freeIds
  grown : w'.nextId = w.nextId
  fresh : ∀ x, w'.allocated ≤ x → w'.heap x = none
  allocated : w'.allocated = w.allocated
  count : w'.activeCount = w.activeCount - gone.length

theorem Dropped.deadlineOf (dropped : Dropped w w' lists lists' gone) (x : Nat) :
    w'.deadlineOf x = if x ∈ gone then none else w.deadlineOf x := by
  apply ext
  intro d
  rw [deadlineOf_some]
  by_cases left : x ∈ gone
  · simp only [left,if_true]
    constructor
    · rintro ⟨entry,_,known,_⟩
      exact absurd left ((dropped.lookup _ _).mp known).2
    · intro impossible
      cases impossible
  · simp only [left,if_false]
    rw [deadlineOf_some,dropped.entryAt x left]
    simp [dropped.lookup,left]

theorem Dropped.unknown (dropped : Dropped w w' lists lists' gone) (left : x ∈ gone)
    (found : w.entryAt x = some a) : w.lookup a.id = some x ∧ w'.lookup a.id = none := by
  obtain ⟨a',_,found',_,_,known⟩ := dropped.kept x left
  cases found.symm.trans found'
  refine ⟨known,?_⟩
  cases later : w'.lookup a.id with
  | none => rfl
  | some y =>
    obtain ⟨same,stays⟩ := (dropped.lookup _ _).mp later
    cases same.symm.trans known
    exact absurd left stays

theorem countP_range_drop (n : Nat) (gone : List Nat) (distinct : gone.Nodup) (p : Nat → Bool)
    (counted : ∀ x ∈ gone, x < n ∧ p x = true) :
    (List.range n).countP (fun x => !decide (x ∈ gone) && p x) + gone.length = (List.range n).countP p := by
  induction gone generalizing p with
  | nil => simp
  | cons e rest ih =>
    obtain ⟨notLater,distinct⟩ := List.nodup_cons.mp distinct
    obtain ⟨inside,here⟩ := counted e List.mem_cons_self
    have one := countP_range_change n e p (fun x => !decide (x = e) && p x) inside (by intro x other; simp [other])
    have others := ih distinct (fun x => !decide (x = e) && p x) (by
      intro x member
      have other : x ≠ e := by
        rintro rfl
        exact notLater member
      simpa [other] using counted x (List.mem_cons_of_mem e member))
    have same : (fun x => !decide (x ∈ e :: rest) && p x) =
        fun x => !decide (x ∈ rest) && (!decide (x = e) && p x) := by
      funext x
      by_cases first : x = e <;> by_cases later : x ∈ rest <;> simp [first,later]
    simp only [here,decide_true,Bool.not_true,Bool.false_and,Bool.toNat_true,Bool.toNat_false] at one
    rw [same,List.length_cons]
    omega

theorem Dropped.counted (rep : Rep w lists due) (dropped : Dropped w w' lists lists' gone) :
    w'.activeCount = (List.range w'.allocated).countP fun e => (w'.deadlineOf e).isSome := by
  have inside : ∀ x ∈ gone, x < w.allocated ∧ (w.deadlineOf x).isSome = true := by
    intro x left
    obtain ⟨a,_,found,_,_,known⟩ := dropped.kept x left
    have armed := (deadlineOf_some w x a.deadlineTick).mpr ⟨a,found,known,rfl⟩
    exact ⟨rep.deadline_lt armed,by rw [armed]; rfl⟩
  have rest := countP_range_drop w.allocated gone dropped.distinct _ inside
  have same : (fun e => (w'.deadlineOf e).isSome) =
      fun e => !decide (e ∈ gone) && (w.deadlineOf e).isSome := by
    funext e
    rw [dropped.deadlineOf]
    by_cases left : e ∈ gone <;> simp [left]
  rw [dropped.count,dropped.allocated,same,rep.count]
  omega

theorem Dropped.rep (rep : Rep w lists due) (dropped : Dropped w w' lists lists' gone) :
    Rep w' lists' (gone ++ due) := by
  have slots := w.numSlots_pos
  -- an entry that is due already is not in the index, so it cannot be taken out of it
  have apart : ∀ x ∈ due, x ∉ gone := by
    intro x waiting left
    obtain ⟨a,found,unknown,_⟩ := rep.waiting x waiting
    rw [(dropped.unknown left found).1] at unknown
    cases unknown
  refine ⟨dropped.buckets,?_,?_,?_,?_,dropped.fresh,?_,?_,?_,?_,?_,dropped.counted rep⟩
  · intro i inside x member
    rw [dropped.size] at inside ⊢
    obtain ⟨here,stays⟩ := (dropped.members i inside x).mp member
    obtain ⟨entry,found,active,slot,known⟩ := rep.placed i inside x here
    exact ⟨entry,by rw [dropped.entryAt x stays,found],active,slot,(dropped.lookup _ _).mpr ⟨known,stays⟩⟩
  · intro id x known
    obtain ⟨known,stays⟩ := (dropped.lookup _ _).mp known
    obtain ⟨entry,found,named,member⟩ := rep.listed id x known
    refine ⟨entry,by rw [dropped.entryAt x stays,found],named,?_⟩
    rw [dropped.size]
    exact (dropped.members _ (Nat.mod_lt _ slots) x).mpr ⟨member,stays⟩
  · intro x member
    rw [dropped.length,dropped.free]
    rcases List.mem_append.mp member with left | waiting
    · obtain ⟨a,b,found,found',same,known⟩ := dropped.kept x left
      refine ⟨b,found',?_,?_,?_⟩
      · rw [same]
        exact (dropped.unknown left found).2
      · by_contra large
        simp only [TimingWheel.lookup,List.getElem?_eq_none (by omega : w.entries.length ≤ a.id)] at known
        cases known
      · intro unused
        rw [same] at unused
        rw [(rep.free _ unused).2] at known
        cases known
    · obtain ⟨a,found,unknown,small,used⟩ := rep.waiting x waiting
      refine ⟨a,by rw [dropped.entryAt x (apart x waiting),found],?_,small,used⟩
      cases later : w'.lookup a.id with
      | none => rfl
      | some y =>
        rw [((dropped.lookup _ _).mp later).1] at unknown
        cases unknown
  · refine List.pairwise_append.mpr ⟨?_,?_,?_⟩
    · refine dropped.distinct.imp_of_mem ?_
      intro x y leftX leftY different a b foundX foundY same
      obtain ⟨a',_,_,foundX',sameX,knownX⟩ := dropped.kept x leftX
      obtain ⟨b',_,_,foundY',sameY,knownY⟩ := dropped.kept y leftY
      cases foundX.symm.trans foundX'
      cases foundY.symm.trans foundY'
      rw [← sameX,same,sameY,knownY] at knownX
      exact different (some.inj knownX).symm
    · refine rep.apart.imp_of_mem ?_
      intro x y waitingX waitingY distinct a b foundX foundY
      rw [dropped.entryAt x (apart x waitingX)] at foundX
      rw [dropped.entryAt y (apart y waitingY)] at foundY
      exact distinct a b foundX foundY
    · intro x left y waiting a b foundX foundY same
      obtain ⟨a',_,_,foundX',sameX,knownX⟩ := dropped.kept x left
      cases foundX.symm.trans foundX'
      rw [dropped.entryAt y (apart y waiting)] at foundY
      obtain ⟨b',found',unknown,_⟩ := rep.waiting y waiting
      cases foundY.symm.trans found'
      rw [← same,sameX,knownX] at unknown
      cases unknown
  · intro id unused
    rw [dropped.free] at unused
    obtain ⟨small,unknown⟩ := rep.free id unused
    refine ⟨by rw [dropped.length]; exact small,?_⟩
    cases later : w'.lookup id with
    | none => rfl
    | some y =>
      rw [((dropped.lookup _ _).mp later).1] at unknown
      cases unknown
  · rw [dropped.free]
    exact rep.freeDistinct
  · rw [dropped.length,dropped.grown]
    exact rep.grown
  · rw [dropped.grown,dropped.free]
    exact rep.issued
  · intro x entry found
    by_cases left : x ∈ gone
    · obtain ⟨a,b,before,after,same,_⟩ := dropped.kept x left
      cases found.symm.trans after
      rw [same]
      exact rep.named x a before
    · rw [dropped.entryAt x left] at found
      exact rep.named x entry found

end TimingWheel
end ApexPipeline
