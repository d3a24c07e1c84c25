import ApexPipeline.TimingWheelOverdue

/-! The ids of the wheel. An id that was issued names an armed entry, or an expired one whose callback has not
returned, or is free. -/
namespace ApexPipeline.TimingWheel
open Execution

variable {s next : Runtime} {action : Action} {id : Nat}

def Runtime.Active (s : Runtime) (id : Nat) : Prop := ∃ e, s.wheel.lookup id = some e

def Runtime.Awaiting (s : Runtime) (id : Nat) : Prop := ∃ e ∈ s.due, s.wheel.idOf e = some id

/-- No id is lost. -/
def Covered (s : Runtime) : Prop := ∀ id, id ≠ 0 → s.Active id ∨ s.Awaiting id ∨ s.wheel.Unused id

section
variable (sound : Sound s) (covered : Covered s)
include sound covered

theorem schedule_covered (performed : perform (.schedule ticks) (s.wheel,s.log) = .ok (w,log)) :
    Covered { s with wheel := w, log := log } := by
  obtain ⟨lists,rep⟩ := sound.rep
  by_cases large : s.wheel.numSlots ≤ ticks
  · simp only [perform,schedule_outOfRange _ large] at performed
    cases performed
    exact covered
  obtain ⟨id,w',lists',done,_,unused,_,_,lookup,_,ids,_⟩ := schedule_spec rep ticks (Nat.lt_of_not_le large)
  simp only [perform,done] at performed
  cases performed
  intro x nonzero
  by_cases taken : x = id
  · exact .inl ⟨_,(lookup x).trans (if_pos taken)⟩
  refine (covered x nonzero).imp ?_ (Or.imp ?_ fun before => unused x before taken)
  · rintro ⟨e,known⟩
    exact ⟨e,((lookup x).trans (if_neg taken)).trans known⟩
  · rintro ⟨e,due,named⟩
    obtain ⟨_,found,_⟩ := rep.waiting e due
    exact ⟨e,due,((ids e).trans (if_neg (rep.found_lt found).ne)).trans named⟩

theorem cancel_covered (performed : perform (.cancel id) (s.wheel,s.log) = .ok (w,log)) :
    Covered { s with wheel := w, log := log } := by
  obtain ⟨lists,rep⟩ := sound.rep
  cases known : s.wheel.lookup id with
  | none =>
    simp only [perform,cancel_unknown _ known] at performed
    cases performed
    exact covered
  | some e =>
    obtain ⟨w',lists',done,_,unused,lookup,_,ids,_⟩ := cancel_spec rep known
    simp only [perform,done] at performed
    cases performed
    intro x nonzero
    by_cases released : x = id
    · exact .inr (.inr (unused x (.inr released)))
    refine (covered x nonzero).imp ?_ (Or.imp ?_ fun before => unused x (.inl before))
    · rintro ⟨e,here⟩
      exact ⟨e,((lookup x).trans (if_neg released)).trans here⟩
    · rintro ⟨f,due,named⟩
      have other : f ≠ e := by
        rintro rfl
        exact released (Option.some.inj (named.symm.trans (rep.armed_of_known known).1))
      exact ⟨f,due,((ids f).trans (if_neg other)).trans named⟩

theorem reschedule_covered (performed : perform (.reschedule id ticks) (s.wheel,s.log) = .ok (w,log)) :
    Covered { s with wheel := w, log := log } := by
  obtain ⟨lists,rep⟩ := sound.rep
  by_cases large : s.wheel.numSlots ≤ ticks
  · simp only [perform,reschedule_outOfRange _ _ large] at performed
    cases performed
    exact covered
  cases known : s.wheel.lookup id with
  | none =>
    simp only [perform,reschedule_unknown _ (Nat.lt_of_not_le large) known] at performed
    cases performed
    exact covered
  | some e =>
    obtain ⟨w',lists',done,_,unused,lookup,_,ids,_⟩ := reschedule_spec rep ticks (Nat.lt_of_not_le large) known
    simp only [perform,done] at performed
    cases performed
    intro x nonzero
    simp only [Runtime.Active,Runtime.Awaiting,lookup,ids]
    exact (covered x nonzero).imp_right (Or.imp_right (unused x))

theorem covered_step (stepped : step s action = some next) : Covered next := by
  obtain ⟨enabled,acted⟩ := step_some stepped
  obtain ⟨lists,rep⟩ := sound.rep
  cases action with
  | call call =>
    simp only [Runtime.act] at acted
    split at acted <;> cases acted
    rename_i w log performed
    cases call with
    | schedule ticks => exact schedule_covered sound covered performed
    | cancel id => exact cancel_covered sound covered performed
    | reschedule id ticks => exact reschedule_covered sound covered performed
  | tick =>
    obtain ⟨expired,w,lists',done,_,unused,_,_,lookup,_,ids,_⟩ := expire_spec rep
    simp only [Runtime.act,done] at acted
    cases acted
    intro x nonzero
    rcases covered x nonzero with ⟨e,known⟩ | ⟨e,due,_⟩ | before
    · by_cases gone : e ∈ expired
      · exact .inr (.inl ⟨e,gone,(ids e).trans (rep.armed_of_known known).1⟩)
      · exact .inl ⟨e,(lookup x e).mpr ⟨known,gone⟩⟩
    · rw [sound.quiet (of_decide_eq_true enabled)] at due
      cases due
    · exact .inr (.inr (unused x before))
  | invoke =>
    simp only [Runtime.act] at acted
    split at acted
    · cases acted
    split at acted <;> cases acted
    exact covered
  | returned =>
    simp only [Runtime.act] at acted
    split at acted
    · cases acted
    rename_i e rest due
    rw [due] at rep
    obtain ⟨w,done,_,unused,lookup,_,ids,_⟩ := release_spec rep
    rw [done] at acted
    cases acted
    intro x nonzero
    simp only [Runtime.Active,Runtime.Awaiting,lookup,ids]
    refine (covered x nonzero).imp_right ?_
    rintro (⟨f,waits,named⟩ | before)
    · by_cases same : f = e
      · exact .inr (unused x (.inr (same ▸ named)))
      · rw [due] at waits
        exact .inl ⟨f,(List.mem_cons.mp waits).resolve_left same,(if_neg same).trans named⟩
    · exact .inr (unused x (.inl before))
  | finish =>
    cases acted
    exact covered

end

theorem start_covered (w : TimingWheel) (created : create requested word = some w) : Covered (start w) := by
  obtain ⟨_,first,_⟩ := create_rep w created
  exact fun id nonzero => .inr (.inr (.inr (first ▸ Nat.pos_of_ne_zero nonzero)))

/-- At any point of any run. `lists` are the chains of the slots. -/
structure Booked (s : Runtime) (lists : Nat → List Nat) : Prop where
  freeOnce : s.wheel.freeIds.Nodup
  issued : ∀ id, s.Active id ∨ s.Awaiting id ∨ id ∈ s.wheel.freeIds ↔ 0 < id ∧ id < s.wheel.nextId
  active : ∀ id, s.Active id → ¬ s.Awaiting id ∧ id ∉ s.wheel.freeIds
  awaiting : ∀ id, s.Awaiting id → id ∉ s.wheel.freeIds
  scheduled : ∀ ticks id w, s.wheel.schedule ticks = .ok (id,w) → ¬ s.Active id ∧ ¬ s.Awaiting id
  slots : ∀ i < s.wheel.numSlots, IntrusiveList.Chain s.wheel.heap (s.wheel.slots i) (lists i) ∧ (lists i).Nodup ∧
    ∀ e, e ∈ lists i ↔ ∃ d, s.wheel.deadlineOf e = some d ∧ d % s.wheel.numSlots = i

theorem Sound.booked (sound : Sound s) (covered : Covered s) : ∃ lists, Booked s lists := by
  obtain ⟨lists,rep⟩ := sound.rep
  have waiting : ∀ id, s.Awaiting id →
      s.wheel.lookup id = none ∧ id < s.wheel.entries.length ∧ id ∉ s.wheel.freeIds ∧ id ≠ 0 := by
    rintro id ⟨e,due,named⟩
    obtain ⟨entry,found,unknown,small,used⟩ := rep.waiting e due
    rw [idOf,found] at named
    obtain rfl := Option.some.inj named
    exact ⟨unknown,small,used,rep.named e entry found⟩
  have known : ∀ id, s.Active id → id < s.wheel.entries.length ∧ id ≠ 0 := by
    rintro id ⟨e,seen⟩
    obtain ⟨entry,found,rfl,_,_,_,small,_⟩ := rep.found seen
    exact ⟨small,rep.named e entry found⟩
  have grown := rep.grown
  refine ⟨lists,rep.freeDistinct,fun id => ⟨?_,?_⟩,?_,fun id waits => (waiting id waits).2.2.1,?_,?_⟩
  · rintro (active | waits | free)
    · have := known id active
      omega
    · have := waiting id waits
      omega
    · have := (rep.free id free).1
      exact ⟨Nat.pos_of_ne_zero fun zero => rep.issued.2 (zero ▸ free),by omega⟩
  · rintro ⟨positive,old⟩
    refine (covered id positive.ne').imp_right (Or.imp_right fun unused => unused.resolve_right (by omega))
  · rintro id ⟨e,seen⟩
    refine ⟨fun waits => ?_,fun free => ?_⟩
    · cases seen.symm.trans (waiting id waits).1
    · cases seen.symm.trans (rep.free id free).2
  · intro ticks id w done
    by_cases large : s.wheel.numSlots ≤ ticks
    · cases (schedule_outOfRange _ large).symm.trans done
    obtain ⟨_,_,_,done',rep',_,unknown,_,lookup,_,ids,_⟩ := schedule_spec rep ticks (Nat.lt_of_not_le large)
    cases done'.symm.trans done
    constructor
    · rintro ⟨e,seen⟩
      cases unknown.symm.trans seen
    · rintro ⟨e,due,named⟩
      obtain ⟨_,found,_⟩ := rep.waiting e due
      obtain ⟨entry,found',blank,_⟩ := rep'.waiting e due
      have same := ((ids e).trans (if_neg (rep.found_lt found).ne)).trans named
      rw [idOf,found'] at same
      rw [Option.some.inj same,lookup,if_pos rfl] at blank
      cases blank
  · intro i inside
    refine ⟨rep.buckets.linked i inside,rep.buckets.distinct i inside,fun e => ⟨fun member => ?_,?_⟩⟩
    · obtain ⟨entry,found,_,slot,seen⟩ := rep.placed i inside e member
      exact ⟨_,(deadlineOf_some _ e _).mpr ⟨entry,found,seen,rfl⟩,slot⟩
    · rintro ⟨d,armed,rfl⟩
      obtain ⟨entry,found,seen,rfl⟩ := (deadlineOf_some _ e d).mp armed
      obtain ⟨entry',found',_,member⟩ := rep.listed _ e seen
      cases found.symm.trans found'
      exact member

theorem ids_never_aliased (requested : Nat) (word : requested < 2^64) (w : TimingWheel)
    (created : create requested word = some w) (schedule : List Action) (final : Runtime)
    (runs : run step (start w) schedule = some final) : ∃ lists, Booked final lists := by
  have held := run_invariant (fun s => Sound s ∧ Covered s) ?_ ⟨(start_sound w created).1,start_covered w created⟩ runs
  · exact held.1.booked held.2
  · exact fun s action next ⟨sound,covered⟩ stepped => ⟨sound_step sound stepped,covered_step sound covered stepped⟩

theorem ids_never_aliased_reentrant : ∃ w s lists, create 3 (by decide) = some w ∧ run step (start w) reentrant = some s ∧
    s.wheel.nextId = 4 ∧ Booked s lists := by
  obtain ⟨w,created,s,reached,issued⟩ : ∃ w, create 3 (by decide) = some w ∧
      ∃ s, run step (start w) reentrant = some s ∧ s.wheel.nextId = 4 := by decide +kernel
  obtain ⟨lists,booked⟩ := ids_never_aliased 3 (by decide) w created reentrant s reached
  exact ⟨w,s,lists,created,reached,issued,booked⟩

end ApexPipeline.TimingWheel
