import ApexPipeline.TimingWheelDeadlines

/-! Timers that a callback arms for the tick that runs. Its slot has been collected already, so they stay armed with
a deadline that has passed, and no later tick compares equal to it. -/
namespace ApexPipeline.TimingWheel
open Execution

/-- Every armed timer is due within one revolution from the current tick. -/
def Timely (s : Runtime) : Prop :=
  ∀ e d, s.wheel.deadlineOf e = some d → s.wheel.currentTick ≤ d ∧ d ≤ s.wheel.currentTick + s.wheel.numSlots

/-- When a tick ends no timer is armed for it. -/
def Punctual (s : Runtime) (action : Action) : Prop :=
  action = .finish → ∀ e, s.wheel.deadlineOf e ≠ some s.wheel.currentTick

/-- An action that neither cancels nor reschedules the timer of that id. -/
def Untouched (id : Nat) : Action → Prop
  | .call (.cancel other) | .call (.reschedule other _) => other ≠ id
  | _ => True

structure Sound (s : Runtime) : Prop where
  rep : ∃ lists, Rep s.wheel lists s.due
  quiet : s.phase = .outside → s.due = []
  soon : ∀ e d, s.wheel.deadlineOf e = some d → d < s.wheel.currentTick + s.wheel.numSlots

inductive Change (s next : Runtime) : Action → Prop
  | still (action : Action) (deadlines : ∀ x, next.wheel.deadlineOf x = s.wheel.deadlineOf x)
      (ids : ∀ x d, s.wheel.deadlineOf x = some d → next.wheel.idOf x = s.wheel.idOf x)
      (tick : next.wheel.currentTick = s.wheel.currentTick) (running : action ≠ .finish) : Change s next action
  | scheduled (ticks : Nat) (inRange : ticks < s.wheel.numSlots) (deadlines : ∀ x, next.wheel.deadlineOf x =
        if x = s.wheel.allocated then some (s.wheel.currentTick + ticks) else s.wheel.deadlineOf x)
      (ids : ∀ x, x ≠ s.wheel.allocated → next.wheel.idOf x = s.wheel.idOf x)
      (tick : next.wheel.currentTick = s.wheel.currentTick) : Change s next (.call (.schedule ticks))
  | rescheduled (id e ticks : Nat) (named : s.wheel.idOf e = some id) (inRange : ticks < s.wheel.numSlots)
      (deadlines : ∀ x, next.wheel.deadlineOf x =
        if x = e then some (s.wheel.currentTick + ticks) else s.wheel.deadlineOf x)
      (ids : ∀ x, next.wheel.idOf x = s.wheel.idOf x)
      (tick : next.wheel.currentTick = s.wheel.currentTick) : Change s next (.call (.reschedule id ticks))
  | cancelled (id e : Nat) (named : s.wheel.idOf e = some id)
      (deadlines : ∀ x, next.wheel.deadlineOf x = if x = e then none else s.wheel.deadlineOf x)
      (ids : ∀ x, x ≠ e → next.wheel.idOf x = s.wheel.idOf x)
      (tick : next.wheel.currentTick = s.wheel.currentTick) : Change s next (.call (.cancel id))
  | collected (deadlines : ∀ x, next.wheel.deadlineOf x =
        if s.wheel.deadlineOf x = some s.wheel.currentTick then none else s.wheel.deadlineOf x)
      (ids : ∀ x, next.wheel.idOf x = s.wheel.idOf x)
      (tick : next.wheel.currentTick = s.wheel.currentTick) : Change s next .tick
  | finished (deadlines : ∀ x, next.wheel.deadlineOf x = s.wheel.deadlineOf x)
      (ids : ∀ x, next.wheel.idOf x = s.wheel.idOf x)
      (tick : next.wheel.currentTick = s.wheel.currentTick + 1) : Change s next .finish

/-- A step, with what stays the same in every one: the wheel has its shape, and no callback is invoked for
a timer that is armed. -/
structure Turn (s next : Runtime) (action : Action) : Prop where
  rep : ∃ lists, Rep next.wheel lists next.due
  quiet : next.phase = .outside → next.due = []
  slots : next.wheel.numSlots = s.wheel.numSlots
  silent : ∀ e d, s.wheel.deadlineOf e = some d → fires e next.log = fires e s.log
  change : Change s next action

section Steps
variable {s next : Runtime} {action : Action} {e id d : Nat}

section
variable (sound : Sound s)
include sound

theorem Sound.ignored (call : Call) (silent : ∀ e, fires e log = fires e s.log) :
    Turn s { s with log := log } (.call call) :=
  ⟨sound.rep,sound.quiet,rfl,fun e _ _ => silent e,.still _ (fun _ => rfl) (fun _ _ _ => rfl) rfl nofun⟩

section
variable (w : TimingWheel)

theorem schedule_turn (performed : perform (.schedule ticks) (s.wheel,s.log) = .ok (w,log)) :
    Turn s { s with wheel := w, log := log } (.call (.schedule ticks)) := by
  obtain ⟨lists,rep⟩ := sound.rep
  by_cases large : s.wheel.numSlots ≤ ticks
  · simp only [perform,schedule_outOfRange _ large] at performed
    cases performed
    exact sound.ignored _ fun _ => rfl
  have inRange : ticks < s.wheel.numSlots := Nat.lt_of_not_le large
  obtain ⟨id,w',lists',done,rep',_,_,_,_,deadlines,ids,_,tick,slots⟩ := schedule_spec rep ticks inRange
  simp only [perform,done] at performed
  cases performed
  refine ⟨⟨lists',rep'⟩,sound.quiet,slots,fun e _ _ => ?_,.scheduled ticks inRange deadlines (fun x other => ?_) tick⟩
  · simp [fires]
  · exact (ids x).trans (if_neg other)

theorem cancel_turn (performed : perform (.cancel id) (s.wheel,s.log) = .ok (w,log)) :
    Turn s { s with wheel := w, log := log } (.call (.cancel id)) := by
  obtain ⟨lists,rep⟩ := sound.rep
  cases known : s.wheel.lookup id with
  | none =>
    simp only [perform,cancel_unknown _ known] at performed
    cases performed
    exact sound.ignored _ fun e => by simp [fires]
  | some e =>
    obtain ⟨w',lists',done,rep',_,_,deadlines,ids,_,tick,slots⟩ := cancel_spec rep known
    simp only [perform,done] at performed
    cases performed
    refine ⟨⟨lists',rep'⟩,sound.quiet,slots,fun e _ _ => ?_,
      .cancelled id e (rep.armed_of_known known).1 deadlines (fun x other => ?_) tick⟩
    · simp [fires]
    · exact (ids x).trans (if_neg other)

theorem reschedule_turn (performed : perform (.reschedule id ticks) (s.wheel,s.log) = .ok (w,log)) :
    Turn s { s with wheel := w, log := log } (.call (.reschedule id ticks)) := by
  obtain ⟨lists,rep⟩ := sound.rep
  by_cases large : s.wheel.numSlots ≤ ticks
  · simp only [perform,reschedule_outOfRange _ _ large] at performed
    cases performed
    exact sound.ignored _ fun _ => rfl
  have inRange : ticks < s.wheel.numSlots := Nat.lt_of_not_le large
  cases known : s.wheel.lookup id with
  | none =>
    simp only [perform,reschedule_unknown _ inRange known] at performed
    cases performed
    exact sound.ignored _ fun e => by simp [fires]
  | some e =>
    obtain ⟨w',lists',done,rep',_,_,deadlines,ids,_,tick,slots⟩ := reschedule_spec rep ticks inRange known
    simp only [perform,done] at performed
    cases performed
    refine ⟨⟨lists',rep'⟩,sound.quiet,slots,fun e _ _ => ?_,
      .rescheduled id e ticks (rep.armed_of_known known).1 inRange deadlines ids tick⟩
    simp [fires]

end

theorem tick_turn (outside : s.phase = .outside) (acted : s.act .tick = some next) : Turn s next .tick := by
  obtain ⟨lists,rep⟩ := sound.rep
  obtain ⟨expired,w,lists',done,rep',_,_,timely,_,deadlines,ids,_,tick,slots⟩ := expire_spec rep
  rw [sound.quiet outside,List.append_nil] at rep'
  simp only [Runtime.act,done] at acted
  cases acted
  refine ⟨⟨lists',rep'⟩,by rintro ⟨⟩,slots,fun e _ _ => ?_,.collected (fun x => ?_) ids tick⟩
  · simp [fires]
  · simpa only [timely x] using deadlines x

theorem invoke_turn (acted : s.act .invoke = some next) : Turn s next .invoke := by
  simp only [Runtime.act] at acted
  split at acted
  · cases acted
  rename_i e rest due
  split at acted <;> cases acted
  refine ⟨sound.rep,by rintro ⟨⟩,rfl,fun x d armed => ?_,.still _ (fun _ => rfl) (fun _ _ _ => rfl) rfl (by rintro ⟨⟩)⟩
  obtain ⟨lists,rep⟩ := sound.rep
  have unarmed := (rep.due_unarmed (by rw [due]; exact List.mem_cons_self : e ∈ s.due)).2
  have other : e ≠ x := by
    rintro rfl
    cases armed.symm.trans unarmed
  simp [fires,other]

theorem returned_turn (acted : s.act .returned = some next) : Turn s next .returned := by
  obtain ⟨lists,rep⟩ := sound.rep
  simp only [Runtime.act] at acted
  split at acted
  · cases acted
  rename_i e rest due
  have unarmed := (rep.due_unarmed (by rw [due]; exact List.mem_cons_self : e ∈ s.due)).2
  rw [due] at rep
  obtain ⟨w,done,rep',_,_,deadlines,ids,_,tick,slots⟩ := release_spec rep
  rw [done] at acted
  cases acted
  refine ⟨⟨lists,rep'⟩,by rintro ⟨⟩,slots,fun _ _ _ => rfl,.still _ deadlines (fun x d armed => ?_) tick (by rintro ⟨⟩)⟩
  refine (ids x).trans (if_neg ?_)
  rintro rfl
  cases armed.symm.trans unarmed

theorem step_turn (stepped : step s action = some next) : Turn s next action := by
  obtain ⟨enabled,acted⟩ := step_some stepped
  cases action with
  | call call =>
    simp only [Runtime.act] at acted
    split at acted <;> cases acted
    rename_i w log performed
    cases call with
    | schedule ticks => exact schedule_turn sound w performed
    | cancel id => exact cancel_turn sound w performed
    | reschedule id ticks => exact reschedule_turn sound w performed
  | tick => exact tick_turn sound (of_decide_eq_true enabled) acted
  | invoke => exact invoke_turn sound acted
  | returned => exact returned_turn sound acted
  | finish =>
    cases acted
    obtain ⟨lists,rep⟩ := sound.rep
    have rep' : Rep { s.wheel with currentTick := s.wheel.currentTick + 1 } lists _ :=
      rep.reindex rfl rfl rfl rfl rfl (fun _ => rfl) (Nat.le_refl _) (List.Sublist.refl _) rep.grown (Nat.le_refl _)
    exact ⟨⟨lists,rep'⟩,fun _ => (of_decide_eq_true enabled).2,rfl,fun _ _ _ => rfl,.finished (fun _ => rfl) (fun _ => rfl) rfl⟩

end

theorem soon_step (soon : ∀ e d, s.wheel.deadlineOf e = some d → d < s.wheel.currentTick + s.wheel.numSlots)
    (turn : Turn s next action) :
    ∀ e d, next.wheel.deadlineOf e = some d → d < next.wheel.currentTick + next.wheel.numSlots := by
  intro e d armed
  rw [turn.slots]
  cases turn.change with
  | still _ deadlines ids tick running =>
    rw [deadlines] at armed
    exact tick ▸ soon e d armed
  | scheduled ticks inRange deadlines ids tick | rescheduled id _ ticks named inRange deadlines ids tick =>
    rw [deadlines] at armed
    split at armed
    · cases armed
      omega
    · exact tick ▸ soon e d armed
  | cancelled id _ named deadlines ids tick | collected deadlines ids tick =>
    rw [deadlines] at armed
    split at armed
    · cases armed
    · exact tick ▸ soon e d armed
  | finished deadlines ids tick =>
    rw [deadlines] at armed
    have := soon e d armed
    omega

theorem sound_step (sound : Sound s) (stepped : step s action = some next) : Sound next :=
  have turn := step_turn sound stepped
  ⟨turn.rep,turn.quiet,soon_step sound.soon turn⟩

theorem timely_step (timely : Timely s) (sound : Sound s) (stepped : step s action = some next) :
    Timely next ↔ Punctual s action := by
  have turn := step_turn sound stepped
  have soon := soon_step sound.soon turn
  have reduce : Timely next ↔ ∀ e d, next.wheel.deadlineOf e = some d → next.wheel.currentTick ≤ d :=
    ⟨fun after e d armed => (after e d armed).1,fun after e d armed => ⟨after e d armed,Nat.le_of_lt (soon e d armed)⟩⟩
  rw [reduce]
  cases turn.change with
  | still _ deadlines ids tick running =>
    refine iff_of_true (fun e d armed => ?_) fun same => absurd same running
    rw [tick]
    exact (timely e d ((deadlines e).symm.trans armed)).1
  | scheduled ticks inRange deadlines ids tick | rescheduled id _ ticks named inRange deadlines ids tick =>
    refine iff_of_true (fun e d armed => ?_) nofun
    rw [deadlines] at armed
    rw [tick]
    split at armed
    · cases armed
      exact Nat.le_add_right _ _
    · exact (timely e d armed).1
  | cancelled id _ named deadlines ids tick | collected deadlines ids tick =>
    refine iff_of_true (fun e d armed => ?_) nofun
    rw [deadlines] at armed
    rw [tick]
    split at armed
    · cases armed
    · exact (timely e d armed).1
  | finished deadlines ids tick =>
    rw [tick]
    constructor
    · intro after _ e now
      exact absurd (after e _ ((deadlines e).trans now)) (Nat.not_succ_le_self _)
    · intro punctual e d armed
      rw [deadlines] at armed
      have other : d ≠ s.wheel.currentTick := fun same => punctual rfl e (same ▸ armed)
      have := (timely e d armed).1
      omega

structure Overdue (s : Runtime) (e id d : Nat) : Prop where
  armed : s.wheel.deadlineOf e = some d
  passed : d < s.wheel.currentTick
  named : s.wheel.idOf e = some id

theorem overdue_step (sound : Sound s) (overdue : Overdue s e id d) (untouched : Untouched id action)
    (stepped : step s action = some next) : Overdue next e id d ∧ fires e next.log = fires e s.log := by
  have turn := step_turn sound stepped
  obtain ⟨armed,passed,named⟩ := overdue
  refine ⟨?_,turn.silent e d armed⟩
  cases turn.change with
  | still _ deadlines ids tick running =>
    exact ⟨(deadlines e).trans armed,tick ▸ passed,(ids e d armed).trans named⟩
  | scheduled ticks inRange deadlines ids tick =>
    obtain ⟨lists,rep⟩ := sound.rep
    have old : e ≠ s.wheel.allocated := Nat.ne_of_lt (rep.deadline_lt armed)
    exact ⟨((deadlines e).trans (if_neg old)).trans armed,tick ▸ passed,(ids e old).trans named⟩
  | rescheduled other e' ticks named' inRange deadlines ids tick =>
    have apart : e ≠ e' := by
      rintro rfl
      exact untouched (Option.some.inj (named'.symm.trans named))
    exact ⟨((deadlines e).trans (if_neg apart)).trans armed,tick ▸ passed,(ids e).trans named⟩
  | cancelled other e' named' deadlines ids tick =>
    have apart : e ≠ e' := by
      rintro rfl
      exact untouched (Option.some.inj (named'.symm.trans named))
    exact ⟨((deadlines e).trans (if_neg apart)).trans armed,tick ▸ passed,(ids e apart).trans named⟩
  | collected deadlines ids tick =>
    have missed : s.wheel.deadlineOf e ≠ some s.wheel.currentTick := by
      rw [armed]
      exact fun same => Nat.ne_of_lt passed (Option.some.inj same)
    exact ⟨((deadlines e).trans (if_neg missed)).trans armed,tick ▸ passed,(ids e).trans named⟩
  | finished deadlines ids tick =>
    exact ⟨(deadlines e).trans armed,by omega,(ids e).trans named⟩

end Steps

section Runs
variable {s final : Runtime} {schedule : List Action} {e id d : Nat}

theorem start_sound (w : TimingWheel)
    (created : create requested word = some w) : Sound (start w) ∧ Timely (start w) := by
  obtain ⟨rep,_,_,blank⟩ := create_rep w created
  have unarmed : ∀ e, w.deadlineOf e = none := by
    intro e
    cases armed : w.deadlineOf e with
    | none => rfl
    | some d => exact absurd (rep.deadline_lt armed) (by rw [blank]; exact Nat.not_lt_zero _)
  refine ⟨⟨⟨_,rep⟩,fun _ => rfl,fun e d armed => ?_⟩,fun e d armed => ?_⟩ <;> cases (unarmed e).symm.trans armed

theorem Tracked.timely (tracked : Tracked s) (sound : Sound s) : Timely s := by
  intro e d armed
  refine ⟨?_,Nat.le_of_lt (sound.soon e d armed)⟩
  have waits := tracked.armed_iff e
  have fits := tracked.fits e
  rw [armed] at waits
  cases seen : fate e s.log with
  | awaiting id tick ticks =>
    rw [seen] at fits
    cases armed.symm.trans fits.2.2.1
    exact fits.2.2.2.1
  | _ =>
    rw [seen] at waits
    cases waits

theorem overdue_run (sound : Sound s) (overdue : Overdue s e id d) (untouched : ∀ action ∈ schedule, Untouched id action)
    (runs : run step s schedule = some final) : Overdue final e id d ∧ fires e final.log = fires e s.log := by
  have held := run_guarded step (fun _ => Untouched id)
    (fun t => Sound t ∧ Overdue t e id d ∧ fires e t.log = fires e s.log) ?_ ⟨sound,overdue,rfl⟩
    (Along.of_forall fun _ => untouched) runs
  · exact held.2
  · rintro t action next ⟨sound,overdue,same⟩ untouched stepped
    obtain ⟨still,silent⟩ := overdue_step sound overdue untouched stepped
    exact ⟨sound_step sound stepped,still,silent.trans same⟩

end Runs

/-- Every armed timer is due within one revolution, in every state of a run, exactly if no tick ends with a timer
armed for it, and so if no callback arms one with a delay of 0. A timer for which this fails is never invoked again
unless its owner cancels or reschedules it. -/
theorem timers_timely_iff (requested : Nat) (word : requested < 2^64) (w : TimingWheel)
    (created : create requested word = some w) (schedule : List Action) (final : Runtime)
    (runs : run step (start w) schedule = some final) :
    (Throughout step Timely (start w) schedule ↔ Along step Punctual (start w) schedule) ∧
    (Along step Delayed (start w) schedule → Throughout step Timely (start w) schedule) ∧
    ∀ e id d later rest, Overdue final e id d → (∀ action ∈ rest, Untouched id action) →
      run step final rest = some later → Overdue later e id d ∧ fires e later.log = fires e final.log := by
  obtain ⟨sound,timely⟩ := start_sound w created
  have always := throughout_invariant step (fun _ _ _ => sound_step) sound schedule
  refine ⟨?_,fun delayed => ?_,fun e id d later rest overdue untouched continues => ?_⟩
  · exact throughout_iff Punctual _ Timely (fun _ _ _ => timely_step) timely always.along runs
  · have held : Throughout step (fun s => Tracked s ∧ Sound s) (start w) schedule := by
      refine throughout_guarded _ ?_ ⟨start_tracked w created,sound⟩ delayed
      rintro s action next ⟨tracked,sound⟩ delayed stepped
      exact ⟨tracked_step tracked delayed stepped,sound_step sound stepped⟩
    exact held.imp fun _ held => held.1.timely held.2
  · exact overdue_run (run_invariant Sound (fun _ _ _ => sound_step) sound runs) overdue untouched continues

/-- In `reentrant` the callback arms its timer three ticks ahead. -/
theorem timers_timely_reentrant : ∃ w, create 3 (by decide) = some w ∧ Throughout step Timely (start w) reentrant := by
  obtain ⟨w,created,delayed,s,reached,-⟩ : ∃ w, create 3 (by decide) = some w ∧ Along step Delayed (start w) reentrant ∧
      ∃ s, run step (start w) reentrant = some s ∧ s.phase = .outside := by decide +kernel
  exact ⟨w,created,(timers_timely_iff 3 (by decide) w created reentrant s reached).2.1 delayed⟩

/-- On a wheel of two slots a callback arms a timer for the tick that runs. After any number of ticks and calls that
do not name it, the timer counts as active and has not fired. -/
theorem zero_delay_never_fires : ∃ w s, create 2 (by decide) = some w ∧
    run step (start w) [.call (.schedule 0),.tick,.invoke,.call (.schedule 0),.returned,.finish] = some s ∧
    s.phase = .outside ∧ Overdue s 1 2 0 ∧ s.wheel.activeCount = 1 ∧ ¬ Timely s ∧
    (∃ later, run step s [.tick,.finish,.tick,.finish,.tick,.finish,.tick,.finish] = some later ∧
      later.wheel.currentTick = 5 ∧ later.wheel.activeCount = 1 ∧ fires 1 later.log = []) ∧
    ∀ rest later, (∀ action ∈ rest, Untouched 2 action) → run step s rest = some later →
      Overdue later 1 2 0 ∧ fires 1 later.log = [] := by
  obtain ⟨w,created,s,reached,phase,armed,tick,named,active,silent,fruitless⟩ : ∃ w, create 2 (by decide) = some w ∧
      ∃ s, run step (start w) [.call (.schedule 0),.tick,.invoke,.call (.schedule 0),.returned,.finish] = some s ∧
        s.phase = .outside ∧ s.wheel.deadlineOf 1 = some 0 ∧ s.wheel.currentTick = 1 ∧ s.wheel.idOf 1 = some 2 ∧
        s.wheel.activeCount = 1 ∧ fires 1 s.log = [] ∧
        ∃ later, run step s [.tick,.finish,.tick,.finish,.tick,.finish,.tick,.finish] = some later ∧
          later.wheel.currentTick = 5 ∧ later.wheel.activeCount = 1 ∧ fires 1 later.log = [] := by decide +kernel
  have sound := run_invariant Sound (fun _ _ _ => sound_step) (start_sound w created).1 reached
  have overdue : Overdue s 1 2 0 := ⟨armed,by rw [tick]; exact Nat.one_pos,named⟩
  refine ⟨w,s,created,reached,phase,overdue,active,fun timely => ?_,fruitless,fun rest later untouched continues => ?_⟩
  · exact Nat.not_lt.mpr (timely 1 0 armed).1 overdue.passed
  · obtain ⟨still,same⟩ := overdue_run sound overdue untouched continues
    exact ⟨still,same.trans silent⟩

end ApexPipeline.TimingWheel
