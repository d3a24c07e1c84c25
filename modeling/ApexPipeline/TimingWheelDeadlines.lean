import ApexPipeline.TimingWheelRuns

/-! Timers fire exactly once and on time. A timer is specified by what a run says about it: its `Fate`. In every run
whose callbacks arm timers with a delay of at least one tick, the callbacks invoked are those that the fates call
for. -/
namespace ApexPipeline.TimingWheel
open Execution List

/-- `tick` and `ticks` are those of the last `schedule` or `reschedule`. -/
inductive Fate where
  | unborn
  | awaiting (id tick ticks : Nat)
  | due (id tick ticks : Nat)
  | cancelled
  | fired (id tick ticks : Nat)
  deriving DecidableEq, Repr

def Fate.next (e : Nat) : Fate → Event → Fate
  | .unborn, .scheduled e' id tick ticks => if e' = e then .awaiting id tick ticks else .unborn
  | .awaiting id tick ticks, .rescheduled id' tick' ticks' =>
    if id' = id then .awaiting id tick' ticks' else .awaiting id tick ticks
  | .awaiting id tick ticks, .cancelled id' =>
    if id' = id then .cancelled else .awaiting id tick ticks
  | .awaiting id tick ticks, .collected now =>
    if now = tick + ticks then .due id tick ticks else .awaiting id tick ticks
  | .due id tick ticks, .fired e' _ _ =>
    if e' = e then .fired id tick ticks else .due id tick ticks
  | fate, _ => fate

def fate (e : Nat) (log : List Event) : Fate := log.foldl (Fate.next e) .unborn

def fires (e : Nat) (log : List Event) : List (Nat × Nat) :=
  log.filterMap fun
    | .fired e' id tick => if e' = e then some (id,tick) else none
    | _ => none

def Fate.fires : Fate → List (Nat × Nat)
  | .fired id tick ticks => [(id,tick + ticks)]
  | _ => []

def Fate.isAwaiting : Fate → Bool
  | .awaiting .. => true
  | _ => false

/-- Inside a callback a timer is armed for a later tick. -/
def Delayed (s : Runtime) (action : Action) : Prop :=
  s.phase = .inside → match action with
    | .call (.schedule ticks) => 1 ≤ ticks
    | .call (.reschedule _ ticks) => 1 ≤ ticks
    | _ => True

instance (s : Runtime) (action : Action) : Decidable (Delayed s action) :=
  match action with
  | .call (.schedule ticks) => inferInstanceAs (Decidable (s.phase = .inside → 1 ≤ ticks))
  | .call (.reschedule _ ticks) => inferInstanceAs (Decidable (s.phase = .inside → 1 ≤ ticks))
  | .call (.cancel _) | .tick | .invoke | .returned | .finish => isTrue fun _ => trivial

section
variable (e : Nat) (log : List Event) (event : Event)

@[simp] theorem fate_concat :
    fate e (log ++ [event]) = (fate e log).next e event := by
  simp [fate]

@[simp] theorem fires_concat :
    fires e (log ++ [event]) = fires e log ++ fires e [event] := by
  simp [fires]

end

theorem fires_unchanged (event : Event) (quiet : ∀ e' id tick, event ≠ .fired e' id tick)
    (before : fires e log = (fate e log).fires) :
    fires e (log ++ [event]) = (fate e (log ++ [event])).fires := by
  rw [fires_concat,fate_concat,before]
  cases event with
  | fired e' id tick => exact absurd rfl (quiet e' id tick)
  | _ =>
    cases fate e log <;> simp only [Fate.next] <;> (try split) <;> simp [Fate.fires,TimingWheel.fires]

/-- How the wheel stores an entry of that fate. While a tick runs, its slot has been
collected already, so what is still armed is due later. -/
def Fits (s : Runtime) (e : Nat) : Fate → Prop
  | .unborn => s.wheel.allocated ≤ e
  | .awaiting id tick ticks => e < s.wheel.allocated ∧ s.wheel.idOf e = some id ∧
      s.wheel.deadlineOf e = some (tick + ticks) ∧ s.wheel.currentTick ≤ tick + ticks ∧
      (s.phase ≠ .outside → s.wheel.currentTick < tick + ticks)
  | .due id tick ticks => e < s.wheel.allocated ∧ s.wheel.idOf e = some id ∧
      s.wheel.deadlineOf e = none ∧ e ∈ s.pending ∧ tick + ticks = s.wheel.currentTick
  | .cancelled => e < s.wheel.allocated ∧ s.wheel.deadlineOf e = none ∧ e ∉ s.due
  | .fired .. => e < s.wheel.allocated ∧ s.wheel.deadlineOf e = none ∧ e ∉ s.pending

structure Tracked (s : Runtime) : Prop where
  rep : ∃ lists, Rep s.wheel lists s.due
  quiet : s.phase = .outside → s.due = []
  busy : s.phase = .inside → s.due ≠ []
  fits : ∀ e, Fits s e (fate e s.log)
  fires : ∀ e, fires e s.log = (fate e s.log).fires

theorem start_tracked (w : TimingWheel) (created : create requested word = some w) : Tracked (start w) := by
  obtain ⟨rep,_,_,blank⟩ := create_rep w created
  exact ⟨⟨_,rep⟩,fun _ => rfl,by simp [start],by simp [fate,start,Fits,blank],fun _ => rfl⟩

variable {e : Nat} {s : Runtime} {rest : List Nat}

theorem Rep.due_unarmed {w : TimingWheel} {lists : Nat → List Nat} {due : List Nat}
    (rep : Rep w lists due) (waiting : e ∈ due) :
    e < w.allocated ∧ w.deadlineOf e = none := by
  obtain ⟨entry,found,unknown,_⟩ := rep.waiting e waiting
  exact ⟨rep.found_lt found,by simp [deadlineOf,found,unknown]⟩

theorem Rep.due_nodup (rep : Rep w lists due) : due.Nodup := by
  refine rep.apart.imp_of_mem ?_
  rintro e _ waiting _ differ rfl
  obtain ⟨entry,found,_⟩ := rep.waiting e waiting
  exact differ entry entry found found rfl

theorem Tracked.awaiting_of_known (tracked : Tracked s) {id : Nat} (known : s.wheel.lookup id = some e) :
    ∃ tick ticks, fate e s.log = .awaiting id tick ticks := by
  obtain ⟨lists,rep⟩ := tracked.rep
  obtain ⟨named,d,armed⟩ := rep.armed_of_known known
  have fits := tracked.fits e
  cases seen : fate e s.log with
  | awaiting id' tick ticks =>
    rw [seen] at fits
    rw [fits.2.1] at named
    cases named
    exact ⟨tick,ticks,rfl⟩
  | unborn =>
    rw [seen] at fits
    have := rep.deadline_lt armed
    simp only [Fits] at fits
    omega
  | due | cancelled | fired =>
    rw [seen] at fits
    simp [Fits,armed] at fits

theorem Fits.frame {s' : Runtime} {fate : Fate} (fits : Fits s e fate) (ids : s'.wheel.idOf e = s.wheel.idOf e)
    (deadlines : s'.wheel.deadlineOf e = s.wheel.deadlineOf e)
    (tick : s'.wheel.currentTick = s.wheel.currentTick) (phase : s'.phase = s.phase)
    (due : s'.due = s.due) (allocated : e < s'.wheel.allocated ↔ e < s.wheel.allocated) :
    Fits s' e fate := by
  have pending : s'.pending = s.pending := by
    unfold Runtime.pending
    rw [phase,due]
  cases fate with
  | unborn => exact Nat.le_of_not_lt fun inside => Nat.not_lt.mpr fits (allocated.mp inside)
  | awaiting =>
    obtain ⟨inside,named,armed,later⟩ := fits
    exact ⟨allocated.mpr inside,by rw [ids,named],by rw [deadlines,armed],by rw [tick,phase]; exact later⟩
  | due =>
    obtain ⟨inside,named,unarmed,waiting,now⟩ := fits
    exact ⟨allocated.mpr inside,by rw [ids,named],by rw [deadlines,unarmed],
      by rw [pending]; exact waiting,by rw [tick,now]⟩
  | cancelled =>
    obtain ⟨inside,unarmed,left⟩ := fits
    exact ⟨allocated.mpr inside,by rw [deadlines,unarmed],by rw [due]; exact left⟩
  | fired =>
    obtain ⟨inside,unarmed,left⟩ := fits
    exact ⟨allocated.mpr inside,by rw [deadlines,unarmed],by rw [pending]; exact left⟩

section
variable (tracked : Tracked s)
include tracked

theorem schedule_tracked (delayed : s.phase ≠ .outside → 1 ≤ ticks) :
    ∃ w log, perform (.schedule ticks) (s.wheel,s.log) = .ok (w,log) ∧
      Tracked { s with wheel := w, log := log } := by
  by_cases large : s.wheel.numSlots ≤ ticks
  · exact ⟨s.wheel,s.log,by simp [perform,schedule_outOfRange _ large],tracked⟩
  obtain ⟨lists,rep⟩ := tracked.rep
  obtain ⟨id,w,lists',done,rep',_,_,_,_,deadlines,ids,allocated,tick,_⟩ :=
    schedule_spec rep ticks (by omega)
  refine ⟨w,s.log ++ [.scheduled s.wheel.allocated id s.wheel.currentTick ticks],
    by simp only [perform,done],⟨lists',rep'⟩,tracked.quiet,tracked.busy,?_,
    fun e => fires_unchanged _ (by simp) (tracked.fires e)⟩
  intro e
  rw [fate_concat]
  by_cases new : e = s.wheel.allocated
  · have unborn : fate e s.log = .unborn := by
      have fits := tracked.fits e
      cases seen : fate e s.log with
      | unborn => rfl
      | _ =>
        rw [seen] at fits
        exact absurd fits.1 (by omega)
    have born : (fate e s.log).next e (.scheduled s.wheel.allocated id s.wheel.currentTick ticks) =
        .awaiting id s.wheel.currentTick ticks := by
      rw [unborn]
      simp [Fate.next,new]
    rw [born]
    refine ⟨by simp only; omega,by simp [ids,new],by simp [deadlines,new],by simp [tick],
      fun ticking => ?_⟩
    have := delayed ticking
    simp only [tick]
    omega
  · have same : (fate e s.log).next e
        (.scheduled s.wheel.allocated id s.wheel.currentTick ticks) = fate e s.log := by
      have other : s.wheel.allocated ≠ e := fun equal => new equal.symm
      cases fate e s.log <;> simp [Fate.next,other]
    rw [same]
    exact (tracked.fits e).frame (by simp [ids,new]) (by simp [deadlines,new]) tick rfl rfl (by simp only; omega)

theorem Tracked.unknown {id : Nat} (other : s.wheel.lookup id ≠ some e) (tick ticks : Nat) :
    (fate e s.log).next e (.cancelled id) = fate e s.log ∧
      (fate e s.log).next e (.rescheduled id tick ticks) = fate e s.log := by
  have fits := tracked.fits e
  cases seen : fate e s.log with
  | awaiting id' tick' ticks' =>
    rw [seen] at fits
    have different : id ≠ id' := by
      rintro rfl
      exact other (known_of_armed fits.2.1 fits.2.2.1)
    simp [Fate.next,different]
  | _ => exact ⟨rfl,rfl⟩

theorem cancel_tracked (id : Nat) :
    ∃ w log, perform (.cancel id) (s.wheel,s.log) = .ok (w,log) ∧ Tracked { s with wheel := w, log := log } := by
  have fired : ∀ e, fires e (s.log ++ [.cancelled id]) = (fate e (s.log ++ [.cancelled id])).fires :=
    fun e => fires_unchanged _ (by simp) (tracked.fires e)
  cases known : s.wheel.lookup id with
  | none =>
    refine ⟨s.wheel,s.log ++ [.cancelled id],by simp only [perform,cancel_unknown _ known],
      tracked.rep,tracked.quiet,tracked.busy,fun e => ?_,fired⟩
    rw [fate_concat,(tracked.unknown (by simp [known]) 0 0).1]
    exact (tracked.fits e).frame rfl rfl rfl rfl rfl Iff.rfl
  | some e₀ =>
    obtain ⟨lists,rep⟩ := tracked.rep
    obtain ⟨w,lists',done,rep',_,_,deadlines,ids,allocated,tick,_⟩ := cancel_spec rep known
    refine ⟨w,s.log ++ [.cancelled id],by simp only [perform,done],⟨lists',rep'⟩,tracked.quiet,
      tracked.busy,fun e => ?_,fired⟩
    rw [fate_concat]
    by_cases here : e = e₀
    · subst here
      obtain ⟨tick₀,ticks₀,seen⟩ := tracked.awaiting_of_known known
      have fits := tracked.fits e
      rw [seen] at fits ⊢
      simp only [Fate.next,if_true]
      refine ⟨by rw [allocated]; exact fits.1,by simp [deadlines],fun waiting => ?_⟩
      exact absurd (fits.2.2.1.symm.trans (rep.due_unarmed waiting).2) (by simp)
    · rw [(tracked.unknown (by simpa [known] using fun same => here same.symm) 0 0).1]
      exact (tracked.fits e).frame (by simp [ids,here]) (by simp [deadlines,here]) tick rfl rfl
        (by simp only [allocated])

theorem reschedule_tracked (id : Nat) (delayed : s.phase ≠ .outside → 1 ≤ ticks) :
    ∃ w log, perform (.reschedule id ticks) (s.wheel,s.log) = .ok (w,log) ∧
      Tracked { s with wheel := w, log := log } := by
  by_cases large : s.wheel.numSlots ≤ ticks
  · exact ⟨s.wheel,s.log,by simp [perform,reschedule_outOfRange _ _ large],tracked⟩
  let event : Event := .rescheduled id s.wheel.currentTick ticks
  have fired : ∀ e, fires e (s.log ++ [event]) = (fate e (s.log ++ [event])).fires :=
    fun e => fires_unchanged _ (by simp [event]) (tracked.fires e)
  cases known : s.wheel.lookup id with
  | none =>
    refine ⟨s.wheel,s.log ++ [event],by
      simp only [perform,reschedule_unknown _ (by omega : ticks < s.wheel.numSlots) known,event],
      tracked.rep,tracked.quiet,tracked.busy,fun e => ?_,fired⟩
    rw [fate_concat,(tracked.unknown (by simp [known]) _ _).2]
    exact (tracked.fits e).frame rfl rfl rfl rfl rfl Iff.rfl
  | some e₀ =>
    obtain ⟨lists,rep⟩ := tracked.rep
    obtain ⟨w,lists',done,rep',_,_,deadlines,ids,allocated,tick,_⟩ :=
      reschedule_spec rep ticks (by omega) known
    refine ⟨w,s.log ++ [event],by simp only [perform,done,event],⟨lists',rep'⟩,tracked.quiet,
      tracked.busy,fun e => ?_,fired⟩
    rw [fate_concat]
    by_cases here : e = e₀
    · subst here
      obtain ⟨tick₀,ticks₀,seen⟩ := tracked.awaiting_of_known known
      have fits := tracked.fits e
      rw [seen] at fits ⊢
      simp only [event,Fate.next,if_true]
      refine ⟨by rw [allocated]; exact fits.1,by rw [ids]; exact fits.2.1,by simp [deadlines],
        by simp [tick],fun ticking => ?_⟩
      have := delayed ticking
      simp only [tick]
      omega
    · rw [(tracked.unknown (by simpa [known] using fun same => here same.symm) _ _).2]
      exact (tracked.fits e).frame (ids e) (by simp [deadlines,here]) tick rfl rfl (by simp only [allocated])

theorem tick_tracked (outside : s.phase = .outside) :
    ∃ expired w, s.wheel.expire = .ok (expired,w) ∧
      Tracked ⟨w,expired,.between,s.log ++ [.collected s.wheel.currentTick]⟩ := by
  obtain ⟨lists,rep⟩ := tracked.rep
  obtain ⟨expired,w,lists',done,rep',_,_,timely,_,deadlines,ids,allocated,tick,_⟩ := expire_spec rep
  rw [tracked.quiet outside,append_nil] at rep'
  refine ⟨expired,w,done,⟨lists',rep'⟩,by simp,by simp,fun e => ?_,
    fun e => fires_unchanged _ (by simp) (tracked.fires e)⟩
  have fits := tracked.fits e
  rw [fate_concat]
  cases seen : fate e s.log with
  | unborn =>
    rw [seen] at fits
    exact Nat.le_trans (Nat.le_of_eq allocated) fits
  | awaiting id tick₀ ticks₀ =>
    rw [seen] at fits
    obtain ⟨inside,named,armed,later,_⟩ := fits
    by_cases now : s.wheel.currentTick = tick₀ + ticks₀
    · have here : e ∈ expired := (timely e).mpr (now ▸ armed)
      simp only [Fate.next,now,if_true]
      exact ⟨allocated ▸ inside,by rw [ids,named],by simp [deadlines,here],here,by simp only [tick,now]⟩
    have other : e ∉ expired := by
      intro here
      have same := armed.symm.trans ((timely e).mp here)
      exact now (Option.some.inj same).symm
    simp only [Fate.next,now,if_false]
    exact ⟨allocated ▸ inside,by rw [ids,named],by simp [deadlines,other,armed],tick ▸ later,
      fun _ => by simp only [tick]; omega⟩
  | due =>
    rw [seen] at fits
    have waiting := fits.2.2.2.1
    simp [Runtime.pending,outside,tracked.quiet outside] at waiting
  | cancelled | fired =>
    rw [seen] at fits
    have other : e ∉ expired := by
      intro here
      have same := fits.2.1.symm.trans ((timely e).mp here)
      cases same
    exact ⟨allocated ▸ fits.1,by simp [deadlines,fits.2.1],other⟩

section
variable (between : s.phase = .between) (next : s.due = e :: rest)
include between next

theorem Tracked.head_due :
    ∃ id tick ticks, fate e s.log = .due id tick ticks := by
  obtain ⟨lists,rep⟩ := tracked.rep
  have waiting : e ∈ s.due := by simp [next]
  obtain ⟨inside,unarmed⟩ := rep.due_unarmed waiting
  have fits := tracked.fits e
  cases seen : fate e s.log with
  | due id tick ticks => exact ⟨id,tick,ticks,rfl⟩
  | unborn =>
    rw [seen] at fits
    exact absurd inside (Nat.not_lt.mpr fits)
  | awaiting =>
    rw [seen] at fits
    exact absurd (fits.2.2.1.symm.trans unarmed) (by simp)
  | cancelled =>
    rw [seen] at fits
    exact absurd waiting fits.2.2
  | fired =>
    rw [seen] at fits
    exact absurd (by simpa [Runtime.pending,between] using waiting) fits.2.2

theorem invoke_tracked :
    ∃ entry, s.wheel.entryAt e = some entry ∧ Tracked { s with
      phase := .inside, log := s.log ++ [.fired e entry.id s.wheel.currentTick] } := by
  obtain ⟨lists,rep⟩ := tracked.rep
  obtain ⟨id,tick,ticks,seen⟩ := tracked.head_due between next
  have fits := tracked.fits e
  rw [seen] at fits
  obtain ⟨inside,named,unarmed,_,now⟩ := fits
  obtain ⟨entry,found,rfl⟩ : ∃ entry, s.wheel.entryAt e = some entry ∧ entry.id = id := by
    simpa [idOf] using named
  have distinct := rep.due_nodup
  rw [next] at distinct
  refine ⟨entry,found,⟨lists,rep⟩,by simp,by simp [next],fun x => ?_,fun x => ?_⟩
  · rw [fate_concat]
    by_cases here : x = e
    · subst here
      simp only [seen,Fate.next,if_true]
      exact ⟨inside,unarmed,by simpa [Runtime.pending,next] using (nodup_cons.mp distinct).1⟩
    have same : (fate x s.log).next x (.fired e entry.id s.wheel.currentTick) = fate x s.log := by
      have other : e ≠ x := fun equal => here equal.symm
      cases fate x s.log <;> simp [Fate.next,other]
    have fits := tracked.fits x
    rw [same]
    generalize fate x s.log = known at fits
    cases known with
    | unborn | cancelled => exact fits
    | awaiting =>
      obtain ⟨allocated,named,armed,later,ticking⟩ := fits
      exact ⟨allocated,named,armed,later,fun _ => ticking (by simp [between])⟩
    | due =>
      refine ⟨fits.1,fits.2.1,fits.2.2.1,?_,fits.2.2.2.2⟩
      have waiting := fits.2.2.2.1
      simpa [Runtime.pending,between,next,here] using waiting
    | fired =>
      refine ⟨fits.1,fits.2.1,fun waiting => fits.2.2 ?_⟩
      simp only [Runtime.pending,next,tail_cons] at waiting
      simpa [Runtime.pending,between,next] using .inr waiting
  · rw [fires_concat,fate_concat,tracked.fires x]
    by_cases here : x = e
    · subst here
      simp [seen,Fate.next,Fate.fires,TimingWheel.fires,now]
    · have other : e ≠ x := fun equal => here equal.symm
      cases fate x s.log <;> simp [Fate.next,Fate.fires,TimingWheel.fires,other]

end

theorem returned_tracked (inside : s.phase = .inside) (next : s.due = e :: rest) :
    ∃ w, s.wheel.release e = .ok w ∧ Tracked { s with
      wheel := w, due := rest, phase := .between } := by
  obtain ⟨lists,rep⟩ := tracked.rep
  have unarmed := (rep.due_unarmed (by rw [next]; exact mem_cons_self)).2
  have distinct := rep.due_nodup
  rw [next] at rep distinct
  obtain ⟨w,done,rep',_,_,deadlines,ids,allocated,tick,_⟩ := release_spec rep
  refine ⟨w,done,⟨lists,rep'⟩,by simp,by simp,fun x => ?_,tracked.fires⟩
  have fits := tracked.fits x
  have pending : s.pending = rest := by simp [Runtime.pending,inside,next]
  generalize fate x s.log = known at fits
  cases known with
  | unborn => exact Nat.le_trans (Nat.le_of_eq allocated) fits
  | awaiting =>
    obtain ⟨old,named,armed,later,ticking⟩ := fits
    have other : x ≠ e := by
      rintro rfl
      exact absurd (armed.symm.trans unarmed) (by simp)
    exact ⟨allocated ▸ old,by simp [ids,other,named],by rw [deadlines,armed],tick ▸ later,
      fun _ => tick ▸ ticking (by simp [inside])⟩
  | due =>
    obtain ⟨old,named,unarmed,waiting,now⟩ := fits
    rw [pending] at waiting
    have other : x ≠ e := by
      rintro rfl
      exact (nodup_cons.mp distinct).1 waiting
    exact ⟨allocated ▸ old,by simp [ids,other,named],by rw [deadlines,unarmed],waiting,now.trans tick.symm⟩
  | cancelled =>
    obtain ⟨old,unarmed,left⟩ := fits
    exact ⟨allocated ▸ old,by rw [deadlines,unarmed],fun later => left (by simp [next,later])⟩
  | fired =>
    obtain ⟨old,unarmed,left⟩ := fits
    exact ⟨allocated ▸ old,by rw [deadlines,unarmed],pending ▸ left⟩

theorem finish_tracked (between : s.phase = .between) (done : s.due = []) : Tracked { s with
      wheel := { s.wheel with currentTick := s.wheel.currentTick + 1 }, phase := .outside } := by
  obtain ⟨lists,rep⟩ := tracked.rep
  refine ⟨⟨lists,rep.reindex rfl rfl rfl rfl rfl (fun _ => rfl) (Nat.le_refl _)
    (List.Sublist.refl _) rep.grown (Nat.le_refl _)⟩,fun _ => done,by simp,fun x => ?_,tracked.fires⟩
  have fits := tracked.fits x
  have pending : s.pending = [] := by simp [Runtime.pending,between,done]
  generalize fate x s.log = known at fits
  cases known with
  | unborn | cancelled => exact fits
  | awaiting =>
    obtain ⟨old,named,armed,_,ticking⟩ := fits
    exact ⟨old,named,armed,ticking (by simp [between]),by simp⟩
  | due =>
    have waiting := fits.2.2.2.1
    simp [pending] at waiting
  | fired =>
    obtain ⟨old,unarmed,_⟩ := fits
    exact ⟨old,unarmed,by simp [Runtime.pending,done]⟩

theorem step_tracked (delayed : Delayed s action) (enabled : s.enabled action = true) :
    ∃ next, s.act action = some next ∧ Tracked next := by
  cases action with
  | call call =>
    have later : ∀ ticks, (s.phase = .inside → 1 ≤ ticks) → s.phase ≠ .outside → 1 ≤ ticks := by
      intro ticks fine ticking
      refine fine ?_
      cases seen : s.phase <;> simp_all [Runtime.enabled]
    have performed : ∃ w log, perform call (s.wheel,s.log) = .ok (w,log) ∧
        Tracked { s with wheel := w, log := log } := by
      cases call with
      | schedule ticks => exact schedule_tracked tracked (later ticks delayed)
      | cancel id => exact cancel_tracked tracked id
      | reschedule id ticks => exact reschedule_tracked tracked id (later ticks delayed)
    obtain ⟨w,log,done,tracked'⟩ := performed
    exact ⟨_,by simp only [Runtime.act,done],tracked'⟩
  | tick =>
    obtain ⟨expired,w,done,tracked'⟩ := tick_tracked tracked (by simpa [Runtime.enabled] using enabled)
    exact ⟨_,by simp only [Runtime.act,done],tracked'⟩
  | invoke =>
    obtain ⟨between,busy⟩ : s.phase = .between ∧ s.due ≠ [] := by
      simpa [Runtime.enabled] using enabled
    obtain ⟨e,rest,next⟩ := exists_cons_of_ne_nil busy
    obtain ⟨entry,found,tracked'⟩ := invoke_tracked tracked between next
    exact ⟨_,by simp only [Runtime.act,next,found],tracked'⟩
  | returned =>
    have inside : s.phase = .inside := by simpa [Runtime.enabled] using enabled
    obtain ⟨e,rest,next⟩ := exists_cons_of_ne_nil (tracked.busy inside)
    obtain ⟨w,done,tracked'⟩ := returned_tracked tracked inside next
    exact ⟨_,by simp only [Runtime.act,next,done],tracked'⟩
  | finish =>
    obtain ⟨between,done⟩ : s.phase = .between ∧ s.due = [] := by
      simpa [Runtime.enabled] using enabled
    exact ⟨_,rfl,finish_tracked tracked between done⟩

end

theorem tracked_step {next : Runtime} (tracked : Tracked s) (delayed : Delayed s action)
    (moved : step s action = some next) : Tracked next := by
  obtain ⟨enabled,acted⟩ := step_some moved
  obtain ⟨next',acted',tracked'⟩ := step_tracked tracked delayed enabled
  cases acted.symm.trans acted'
  exact tracked'

theorem Tracked.armed_iff (tracked : Tracked s) (e : Nat) :
    (s.wheel.deadlineOf e).isSome = (fate e s.log).isAwaiting := by
  obtain ⟨lists,rep⟩ := tracked.rep
  have fits := tracked.fits e
  generalize fate e s.log = known at fits
  cases known with
  | unborn =>
    cases armed : s.wheel.deadlineOf e with
    | none => rfl
    | some d => exact absurd (rep.deadline_lt armed) (Nat.not_lt.mpr fits)
  | awaiting | due => simp [fits.2.2.1,Fate.isAwaiting]
  | cancelled | fired => simp [fits.2.1,Fate.isAwaiting]

/-- In every run, the callbacks invoked for an entry are those its fate calls for: one, in the tick of its last
deadline, if it was collected there, and none if it was cancelled before. No deadline passes while an entry waits, an
entry that has been collected is called back in the same tick, the count is that of the waiting entries, and nothing
faults. -/
theorem fires_on_time (requested : Nat) (word : requested < 2^64) (w : TimingWheel)
    (created : create requested word = some w) (schedule : List Action)
    (delayed : Along step Delayed (start w) schedule) (s : Runtime)
    (reached : run step (start w) schedule = some s) :
    (∀ e, fires e s.log = (fate e s.log).fires) ∧
    (∀ e id tick ticks, fate e s.log = .awaiting id tick ticks → s.wheel.currentTick ≤ tick + ticks) ∧
    (∀ e id tick ticks, fate e s.log = .due id tick ticks →
      s.phase ≠ .outside ∧ s.wheel.currentTick = tick + ticks ∧ e ∈ s.pending) ∧
    (∀ e, fate e s.log = .unborn ↔ s.wheel.allocated ≤ e) ∧
    s.wheel.activeCount = (List.range s.wheel.allocated).countP (fun e => (fate e s.log).isAwaiting) ∧
    ∀ action, Delayed s action → s.enabled action = true → (step s action).isSome := by
  have tracked := run_guarded step Delayed Tracked (fun _ _ _ => tracked_step) (start_tracked w created) delayed reached
  refine ⟨tracked.fires,?_,?_,?_,?_,?_⟩
  · intro e id tick ticks seen
    have fits := tracked.fits e
    rw [seen] at fits
    exact fits.2.2.2.1
  · intro e id tick ticks seen
    have fits := tracked.fits e
    rw [seen] at fits
    obtain ⟨_,_,_,waiting,now⟩ := fits
    refine ⟨fun outside => ?_,now.symm,waiting⟩
    simp [Runtime.pending,outside,tracked.quiet outside] at waiting
  · intro e
    have fits := tracked.fits e
    generalize fate e s.log = known at fits
    cases known with
    | unborn => exact ⟨fun _ => fits,fun _ => rfl⟩
    | _ => exact ⟨nofun,fun late => absurd fits.1 (Nat.not_lt.mpr late)⟩
  · obtain ⟨lists,rep⟩ := tracked.rep
    rw [rep.count]
    exact countP_congr fun e _ => by rw [tracked.armed_iff]
  · intro action later enabled
    obtain ⟨next,acted,_⟩ := step_tracked tracked later enabled
    rw [step,if_pos enabled,acted]
    rfl

/-- Two timers expire in one tick. The second one's callback cancels a third and arms a
fourth, which reuses its id and fires after the four slots have gone round. -/
def reentrant : List Action :=
  [.call (.schedule 1),.call (.schedule 1),.call (.schedule 2),.tick,.finish,
    .tick,.invoke,.returned,.invoke,.call (.cancel 3),.call (.schedule 3),.returned,.finish,
    .tick,.finish,.tick,.finish,.tick,.invoke,.returned,.finish]

theorem fires_on_time_reentrant : ∃ w s, create 3 (by decide) = some w ∧
    Along step Delayed (start w) reentrant ∧ run step (start w) reentrant = some s ∧
    fires 0 s.log = [(1,1)] ∧ fires 1 s.log = [(2,1)] ∧ fires 2 s.log = [] ∧
    fires 3 s.log = [(3,4)] ∧ s.wheel.activeCount = 0 := by
  obtain ⟨w,created,delayed,s,reached,first,second,third,fourth,allocated⟩ :
      ∃ w, create 3 (by decide) = some w ∧ Along step Delayed (start w) reentrant ∧
        ∃ s, run step (start w) reentrant = some s ∧ fate 0 s.log = .fired 1 0 1 ∧
          fate 1 s.log = .fired 2 0 1 ∧ fate 2 s.log = .cancelled ∧ fate 3 s.log = .fired 3 1 3 ∧
          s.wheel.allocated = 4 := by
    decide +kernel
  obtain ⟨fires,_,_,_,count,_⟩ := fires_on_time 3 (by decide) w created reentrant delayed s reached
  refine ⟨w,s,created,delayed,reached,?_,?_,?_,?_,?_⟩
  · rw [fires,first]
    rfl
  · rw [fires,second]
    rfl
  · rw [fires,third]
    rfl
  · rw [fires,fourth]
    rfl
  · rw [count,allocated]
    simp [range_succ,first,second,third,fourth,Fate.isAwaiting]

end ApexPipeline.TimingWheel
