import ApexPipeline.MpscQueue

/-! When `enqueue` returns `BufferFull`. It loads `head_` and `tail_` one after the other; a watch keeps for each
call whether all slots were reserved at some moment since it was made. -/
namespace ApexPipeline.MpscBackpressure
open MathUtils MpscQueue Execution Function Option State

variable {T : Type}

def full (s : State T) : Bool := subSize s.head s.tail = s.capacity

/-- `given` counts, for each producer, the items that were out when it last loaded `tail_`; `witnessed` says whether
its call has seen the queue full. Each `BufferFull` is a refusal, with what its producer had witnessed. -/
structure Watch (T : Type) where
  state : State T
  given : Nat → Nat
  witnessed : Nat → Bool
  refusals : List (Nat × Bool)

def start (slots : Slots T) : Watch T := ⟨MpscQueue.start slots,fun _ => 0,fun _ => false,[]⟩

def refused (s : State T) : Action T → Option Nat
  | .produce p _ =>
    match s.producers p with
    | .testing _ head _ tail => if subSize head tail ≥ s.capacity then some p else none
    | _ => none
  | _ => none

def called : Action T → Option Nat
  | .enqueue p _ => some p
  | _ => none

def reader (s : State T) : Action T → Option Nat
  | .produce p _ =>
    match s.producers p with
    | .loading .. => some p
    | _ => none
  | _ => none

def step (w : Watch T) (action : Action T) : Option (Watch T) :=
  (MpscQueue.step w.state action).map fun next => {
    state := next
    given := fun p => if reader w.state action = some p then w.state.dequeued.length else w.given p
    witnessed := fun p => (w.witnessed p && called action ≠ some p) || full next
    refusals := w.refusals ++ ((refused w.state action).map fun p => (p,w.witnessed p)).toList }

/-- Every `BufferFull` was returned by a call that has seen the queue full. -/
def Justified (w : Watch T) : Prop := ∀ refusal ∈ w.refusals, refusal.2 = true

instance (w : Watch T) : Decidable (Justified w) := inferInstanceAs (Decidable (∀ refusal ∈ w.refusals, _))

/-- When it loaded `tail_`, more items were out than were reserved when it had loaded `head_`. -/
def Overtaken (w : Watch T) (p : Nat) : Prop :=
  match w.state.producers p with
  | .testing _ _ seen _ => seen < w.given p
  | _ => False

/-- A call that was overtaken so returns `BufferFull` only if it has seen the queue full. -/
def Vindicated (w : Watch T) (action : Action T) : Prop :=
  ∀ p, refused w.state action = some p → Overtaken w p → w.witnessed p = true

/-- No item that was reserved after a producer's load of `head_` is out at its load of `tail_`. -/
def Steady (w : Watch T) : Action T → Prop
  | .produce p _ =>
    match w.state.producers p with
    | .loading _ _ seen => w.state.dequeued.length ≤ seen
    | _ => True
  | _ => True

instance (w : Watch T) : (action : Action T) → Decidable (Steady w action)
  | .produce p _ =>
    match phase : w.state.producers p with
    | .loading _ _ seen => decidable_of_iff (w.state.dequeued.length ≤ seen) (by simp only [Steady,phase])
    | .idle | .testing .. | .reserving .. | .writing .. | .marking .. => isTrue (by simp only [Steady,phase])
  | .enqueue _ _ | .dequeue | .consume => isTrue trivial

def Noticed (w : Watch T) (p : Nat) : Prop :=
  match w.state.producers p with
  | .loading _ _ seen => w.witnessed p = true ∨ seen < w.state.dequeued.length + w.state.capacity
  | .testing _ _ seen tail => tail = w.given p % 2^64 ∧ seen ≤ w.given p + w.state.capacity ∧
      (w.witnessed p = true ∨ seen < w.given p + w.state.capacity)
  | _ => True

section Queue
variable {s next : State T} {action : Action T} {p : Nat}

theorem full_iff (sound : Sound s) : full s = true ↔ s.reserved.length = s.dequeued.length + s.capacity := by
  have ordered := sound.ordered
  have bounded := sound.bounded
  have small := sound.small
  rw [full,decide_eq_true_eq,sound.head,sound.tail,subSize]
  omega

inductive Load (s next : State T) (action : Action T) (p : Nat) : Prop
  | head (item : T) (phase : next.producers p = .loading item next.head next.reserved.length)
      (unread : reader s action ≠ some p)
  | tail (item : T) (head seen : Nat) (before : s.producers p = .loading item head seen)
      (phase : next.producers p = .testing item head seen s.tail) (given : next.dequeued = s.dequeued)
      (read : reader s action = some p) (uncalled : called action ≠ some p)
  | past (loading : ∀ item head seen, next.producers p ≠ .loading item head seen)
      (testing : ∀ item head seen tail, next.producers p ≠ .testing item head seen tail)
  | none (phase : next.producers p = s.producers p) (grown : s.dequeued.length ≤ next.dequeued.length)
      (unread : reader s action ≠ some p) (uncalled : called action ≠ some p)

theorem step_capacity (stepped : MpscQueue.step s action = some next) : next.capacity = s.capacity := by
  cases action with
  | enqueue q item =>
    simp only [MpscQueue.step,enqueue] at stepped
    split at stepped <;> cases stepped
    rfl
  | produce q spurious =>
    simp only [MpscQueue.step,produce] at stepped
    split at stepped
    case h_4 => split at stepped <;> cases stepped <;> rfl
    all_goals cases stepped; try rfl
  | dequeue =>
    simp only [MpscQueue.step,dequeue] at stepped
    split at stepped <;> cases stepped
    rfl
  | consume =>
    simp only [MpscQueue.step,consume] at stepped
    split at stepped <;> cases stepped <;> rfl

theorem produce_others (stepped : s.produce q spurious = some next) (other : p ≠ q) :
    next.producers p = s.producers p ∧ next.dequeued = s.dequeued := by
  simp only [produce] at stepped
  split at stepped
  case h_4 => split at stepped <;> cases stepped <;> exact ⟨update_of_ne other ..,rfl⟩
  case h_1 => cases stepped
  all_goals cases stepped; exact ⟨update_of_ne other ..,rfl⟩

theorem step_load (stepped : MpscQueue.step s action = some next) (p : Nat) : Load s next action p := by
  cases action with
  | enqueue q item =>
    simp only [MpscQueue.step,enqueue] at stepped
    split at stepped <;> cases stepped
    by_cases same : p = q
    · subst same
      exact .head item (update_self ..) (by rintro ⟨⟩)
    · refine .none (update_of_ne same ..) (Nat.le_refl _) (by rintro ⟨⟩) fun mine => ?_
      exact same (Option.some.inj mine).symm
  | produce q spurious =>
    by_cases same : p = q
    · subst same
      simp only [MpscQueue.step,produce] at stepped
      cases phase : s.producers p with
      | idle =>
        rw [phase] at stepped
        cases stepped
      | loading item head seen =>
        rw [phase] at stepped
        cases stepped
        exact .tail item head seen phase (update_self ..) rfl (by simp only [reader,phase]) (by rintro ⟨⟩)
      | testing item head seen tail =>
        rw [phase] at stepped
        cases stepped
        refine .past ?_ ?_ <;> intros <;> simp only [update_self] <;> split <;> rintro ⟨⟩
      | reserving item head seen =>
        simp only [phase] at stepped
        split at stepped <;> cases stepped
        · refine .past ?_ ?_ <;> intros <;> simp only [update_self] <;> rintro ⟨⟩
        · exact .head item (update_self ..) (by simp only [reader,phase]; rintro ⟨⟩)
      | writing item head position | marking item head position =>
        rw [phase] at stepped
        cases stepped
        refine .past ?_ ?_ <;> intros <;> simp only [update_self] <;> rintro ⟨⟩
    · obtain ⟨phase,given⟩ := produce_others stepped same
      refine .none phase (by rw [given]) (fun read => ?_) (by rintro ⟨⟩)
      simp only [reader] at read
      split at read <;> cases read
      exact same rfl
  | dequeue =>
    simp only [MpscQueue.step,dequeue] at stepped
    split at stepped <;> cases stepped
    exact .none rfl (Nat.le_refl _) (by rintro ⟨⟩) (by rintro ⟨⟩)
  | consume =>
    simp only [MpscQueue.step,consume] at stepped
    split at stepped <;> cases stepped
    · exact .none rfl (Nat.le_refl _) (by rintro ⟨⟩) (by rintro ⟨⟩)
    · exact .none rfl (Nat.le_refl _) (by rintro ⟨⟩) (by rintro ⟨⟩)
    · exact .none rfl (Nat.le_refl _) (by rintro ⟨⟩) (by rintro ⟨⟩)
    · exact .none rfl (by simp) (by rintro ⟨⟩) (by rintro ⟨⟩)

end Queue

section Watches
variable {w next : Watch T} {action : Action T} {p : Nat}

theorem step_state (stepped : step w action = some next) : MpscQueue.step w.state action = some next.state := by
  obtain ⟨state,moved,rfl⟩ := map_eq_some_iff.mp stepped
  exact moved

theorem noticed_step (before : Sound w.state) (after : Sound next.state) (stepped : step w action = some next)
    (noticed : Noticed w p) : Noticed next p := by
  obtain ⟨state,moved,rfl⟩ := map_eq_some_iff.mp stepped
  have capacity := step_capacity moved
  cases step_load moved p with
  | head item phase unread =>
    simp only [Noticed,phase,Bool.or_eq_true]
    by_cases brim : state.reserved.length = state.dequeued.length + state.capacity
    · exact .inl (.inr ((full_iff after).mpr brim))
    · exact .inr (Nat.lt_of_le_of_ne after.bounded brim)
  | tail item head seen loading testing given read uncalled =>
    have view := before.views p
    rw [loading] at view
    simp only [Noticed,loading] at noticed
    simp only [Noticed,testing,read,if_true,capacity,ne_eq,uncalled,not_false_eq_true,decide_true,Bool.and_true,
      Bool.or_eq_true]
    exact ⟨before.tail,view.2.2,noticed.imp .inl id⟩
  | past loading testing =>
    cases phase : state.producers p with
    | loading item head seen => exact absurd phase (loading item head seen)
    | testing item head seen tail => exact absurd phase (testing item head seen tail)
    | _ => simp only [Noticed,phase]
  | none phase grown unread uncalled =>
    simp only [Noticed,phase,unread,if_false,capacity,ne_eq,uncalled,not_false_eq_true,decide_true,Bool.and_true,
      Bool.or_eq_true]
    cases still : w.state.producers p with
    | loading item head seen =>
      simp only [Noticed,still] at noticed ⊢
      exact noticed.imp .inl fun room => by omega
    | testing item head seen tail =>
      simp only [Noticed,still] at noticed ⊢
      exact ⟨noticed.1,noticed.2.1,noticed.2.2.imp .inl id⟩
    | _ => trivial

theorem refused_witnessed (sound : Sound w.state) (noticed : Noticed w p) (refuses : refused w.state action = some p)
    (ahead : ¬ Overtaken w p) : w.witnessed p = true := by
  cases action with
  | produce q spurious =>
    simp only [refused] at refuses
    split at refuses
    · rename_i item head seen tail phase
      split at refuses <;> cases refuses
      rename_i far
      simp only [Noticed,phase] at noticed
      simp only [Overtaken,phase,Nat.not_lt] at ahead
      have view := sound.views p
      rw [phase] at view
      obtain ⟨word,room,witnessed | less⟩ := noticed
      · exact witnessed
      · have small := sound.small
        rw [view.1,word,subSize] at far
        omega
    · cases refuses
  | _ => cases refuses

theorem justified_step (justified : Justified w) (sound : Sound w.state) (noticed : ∀ p, Noticed w p)
    (stepped : step w action = some next) : Justified next ↔ Vindicated w action := by
  obtain ⟨state,moved,rfl⟩ := map_eq_some_iff.mp stepped
  cases refuses : refused w.state action with
  | none =>
    refine iff_of_true ?_ fun p mine => ?_
    · simpa only [Justified,refuses,map_none,toList_none,List.append_nil] using justified
    · cases refuses.symm.trans mine
  | some p =>
    simp only [Justified,map_some,toList_some,List.mem_append,List.mem_singleton]
    constructor
    · intro after q mine _
      cases refuses.symm.trans mine
      exact after (p,w.witnessed p) (.inr rfl)
    · rintro vindicated refusal (old | rfl)
      · exact justified refusal old
      · by_cases overtaken : Overtaken w p
        · exact vindicated p refuses overtaken
        · exact refused_witnessed sound (noticed p) refuses overtaken

theorem steady_step (steady : Steady w action) (ahead : ¬ Overtaken w p) (stepped : step w action = some next) :
    ¬ Overtaken next p := by
  obtain ⟨state,moved,rfl⟩ := map_eq_some_iff.mp stepped
  cases step_load moved p with
  | head item phase unread => simp only [Overtaken,phase,not_false_eq_true]
  | tail item head seen loading testing given read uncalled =>
    simp only [Overtaken,testing,read,if_true,Nat.not_lt]
    cases action with
    | produce q spurious =>
      simp only [reader] at read
      split at read <;> cases read
      simpa only [Steady,loading] using steady
    | _ => cases read
  | past loading testing =>
    cases phase : state.producers p with
    | testing item head seen tail => exact absurd phase (testing item head seen tail)
    | _ => simp only [Overtaken,phase,not_false_eq_true]
  | none phase grown unread uncalled => simpa only [Overtaken,phase,unread,if_false] using ahead

end Watches

/-- Every `BufferFull` is returned by a call during which the queue was full, exactly if this holds of the calls that
took `head_` before the items were reserved that made `tail_` pass it, and so if no call is overtaken like that. -/
theorem backpressure_justified_iff (slots : Slots T) (schedule : List (Action T)) (final : Watch T)
    (recent : Along step (fun w action => Recent w.state action) (start slots) schedule)
    (runs : run step (start slots) schedule = some final) :
    (Throughout step Justified (start slots) schedule ↔ Along step Vindicated (start slots) schedule) ∧
    (Along step Steady (start slots) schedule → Throughout step Justified (start slots) schedule) := by
  have initial : Sound (start slots).state ∧ ∀ p, Noticed (start slots) p := ⟨sound_start slots,fun _ => trivial⟩
  have always : Throughout step (fun w => Sound w.state ∧ ∀ p, Noticed w p) (start slots) schedule :=
    throughout_guarded _ (fun _ _ _ watched recent stepped =>
      have sound := sound_step _ _ _ watched.1 recent (step_state stepped)
      ⟨sound,fun p => noticed_step watched.1 sound stepped (watched.2 p)⟩) initial recent
  have exact := throughout_iff Vindicated (fun w _ => Sound w.state ∧ ∀ p, Noticed w p) Justified
    (fun _ _ _ justified watched => justified_step justified watched.1 watched.2)
    (fun _ member => absurd member List.not_mem_nil) always.along runs
  refine ⟨exact,fun steady => exact.mpr ?_⟩
  have ahead : Throughout step (fun w => ∀ p, ¬ Overtaken w p) (start slots) schedule :=
    throughout_guarded _ (fun _ _ _ ahead steady stepped p => steady_step steady (ahead p) stepped)
      (fun _ => id) steady
  exact ahead.along.imp fun _ _ ahead p _ overtaken => absurd overtaken (ahead p)

/-- The second producer of `meeting` is refused, and the queue of one slot is full then. -/
theorem backpressure_justified_meeting : Throughout step Justified (start single) meeting ∧
    ∃ final, run step (start single) meeting = some final ∧ final.refusals = [(1,true)] := by
  obtain ⟨⟨final,runs,refusals⟩,recent,steady⟩ : (∃ final, run step (start single) meeting = some final ∧
      final.refusals = [(1,true)]) ∧ Along step (fun w action => Recent w.state action) (start single) meeting ∧
      Along step Steady (start single) meeting := by decide +kernel
  exact ⟨(backpressure_justified_iff single meeting final recent runs).2 steady,final,runs,refusals⟩

/-- Producer 0 of a queue of two slots loads `head_`. Before its load of `tail_` one item goes through the queue: the
difference is `2^64 - 1`, and it is refused though the queue is empty. -/
theorem empty_queue_refuses : ∃ final, run step (start (⟨2,fun _ => 0,⟨1,by decide,rfl⟩⟩ : Slots Nat))
      [.enqueue 0 4,.enqueue 1 5,.produce 1 false,.produce 1 false,.produce 1 false,.produce 1 false,.produce 1 false,
        .dequeue,.consume,.consume,.consume,.consume,.produce 0 false,.produce 0 false] = some final ∧
    final.refusals = [(0,false)] ∧ final.state.head = 1 ∧ final.state.tail = 1 ∧ ¬ Justified final := by
  decide +kernel

end ApexPipeline.MpscBackpressure
