import ApexPipeline.Execution

/-! `circuit_breaker.cpp` with any number of overlapping calls. A call is counted when it is let in and again when
its function has returned; a function that leaves by an exception, or is cancelled, passes by the second count. Times
are ticks of the steady clock. -/
namespace ApexPipeline.CircuitBreaker
open Execution

structure Config where
  failureThreshold : UInt32 := 5
  openDuration : Int := 30000000000
  halfOpenMaxCalls : UInt32 := 3
  deriving DecidableEq, Repr

inductive CircuitState where
  | closed
  | opened
  | halfOpen
  deriving DecidableEq, Repr

structure Breaker where
  state : CircuitState := .closed
  failureCount : UInt32 := 0
  halfOpenCalls : UInt32 := 0
  halfOpenSuccesses : UInt32 := 0
  openSince : Int := 0
  deriving DecidableEq, Repr

namespace Breaker

def reset (b : Breaker) : Breaker :=
  { b with state := .closed, failureCount := 0, halfOpenCalls := 0, halfOpenSuccesses := 0 }

def shouldAllow (cfg : Config) (b : Breaker) (now : Int) : Bool × Breaker :=
  match b.state with
  | .closed => (true,b)
  | .opened =>
    if now - b.openSince ≥ cfg.openDuration then
      -- the call itself is the first one to be counted
      (true,{ b with state := .halfOpen, halfOpenCalls := 1, halfOpenSuccesses := 0 })
    else (false,b)
  | .halfOpen =>
    if b.halfOpenCalls ≥ cfg.halfOpenMaxCalls then (false,b)
    else (true,{ b with halfOpenCalls := b.halfOpenCalls + 1 })

def onSuccess (cfg : Config) (b : Breaker) : Breaker :=
  match b.state with
  | .halfOpen =>
    let b := { b with halfOpenSuccesses := b.halfOpenSuccesses + 1 }
    if b.halfOpenSuccesses ≥ cfg.halfOpenMaxCalls then
      { b with state := .closed, failureCount := 0, halfOpenSuccesses := 0 }
    else b
  | .closed => { b with failureCount := 0 }
  | .opened => b

def onFailure (cfg : Config) (b : Breaker) (now : Int) : Breaker :=
  match b.state with
  | .closed =>
    let b := { b with failureCount := b.failureCount + 1 }
    if b.failureCount ≥ cfg.failureThreshold then { b with state := .opened, openSince := now } else b
  | .halfOpen => { b with state := .opened, openSince := now }
  | .opened => b

end Breaker

/-- `running` counts the calls that were let in and whose function has not ended; `changed`, no part of the program,
is the time of the last change of the state. -/
structure System where
  breaker : Breaker
  now : Int
  running : Nat
  changed : Int
  deriving DecidableEq, Repr

def start (now : Int) : System := ⟨{},now,0,now⟩

inductive Action where
  | call
  | succeed
  | fail
  | leave
  | reset
  | pass (ticks : Nat)
  deriving DecidableEq, Repr

def System.become (s : System) (b : Breaker) : System :=
  { s with breaker := b, changed := if b.state = s.breaker.state then s.changed else s.now }

def System.finish (s : System) (b : Breaker) : Option System :=
  if s.running = 0 then none else some { s.become b with running := s.running - 1 }

def step (cfg : Config) (s : System) : Action → Option System
  | .call =>
    let (allowed,b) := s.breaker.shouldAllow cfg s.now
    some { s.become b with running := s.running + if allowed then 1 else 0 }
  | .succeed => s.finish (s.breaker.onSuccess cfg)
  | .fail => s.finish (s.breaker.onFailure cfg s.now)
  | .leave => s.finish s.breaker
  | .reset => some (s.become s.breaker.reset)
  | .pass ticks => some { s with now := s.now + ticks }

theorem call_eq (cfg : Config) (s : System) : step cfg s .call =
    some { s.become (s.breaker.shouldAllow cfg s.now).2 with
      running := s.running + if (s.breaker.shouldAllow cfg s.now).1 then 1 else 0 } := rfl

/-- A call made when the duration has passed since the last change of the state is let in. -/
def Admits (cfg : Config) (s : System) : Prop :=
  ∀ now, s.changed + cfg.openDuration ≤ now → (s.breaker.shouldAllow cfg now).1 = true

def Action.returns : Action → Bool
  | .succeed | .fail | .pass _ => true
  | .call | .leave | .reset => false

/-- Calls are running, and when they have all returned calls are let in again. -/
def Recovers (cfg : Config) (s : System) : Prop :=
  0 < s.running ∧ ∀ rest final, (∀ action ∈ rest, action.returns = true) →
    run (step cfg) s rest = some final → final.running = 0 → Admits cfg final

/-- When all trial calls have been given out, those that run and those that have succeeded are
enough to close the breaker. -/
def Enough (cfg : Config) (s : System) : Prop :=
  s.breaker.state = .halfOpen → cfg.halfOpenMaxCalls ≤ s.breaker.halfOpenCalls →
    cfg.halfOpenMaxCalls.toNat ≤ s.breaker.halfOpenSuccesses.toNat + s.running

instance (cfg : Config) (s : System) : Decidable (Enough cfg s) := inferInstanceAs (Decidable (_ → _))

/-- No call leaves by an exception or is cancelled in the half-open state. -/
def Returning (s : System) (action : Action) : Prop := action = .leave → s.breaker.state ≠ .halfOpen

instance (s : System) (action : Action) : Decidable (Returning s action) :=
  inferInstanceAs (Decidable (_ → _))

structure Sound (cfg : Config) (s : System) : Prop where
  since : s.breaker.state = .opened → s.breaker.openSince ≤ s.changed
  successes : s.breaker.state = .halfOpen → s.breaker.halfOpenSuccesses < cfg.halfOpenMaxCalls

/-- Every trial call that was counted still runs or has succeeded. -/
def Balanced (s : System) : Prop :=
  s.breaker.state = .halfOpen → s.breaker.halfOpenCalls.toNat ≤ s.breaker.halfOpenSuccesses.toNat + s.running

section
variable {cfg : Config} {s next : System} {action : Action}

theorem admits_iff (sound : Sound cfg s) : Admits cfg s ↔
    (s.breaker.state = .halfOpen → s.breaker.halfOpenCalls < cfg.halfOpenMaxCalls) := by
  have since := sound.since
  unfold Admits
  cases state : s.breaker.state with
  | closed => simp [Breaker.shouldAllow,state]
  | opened =>
    simp only [Breaker.shouldAllow,state,reduceCtorEq,false_implies,iff_true]
    intro now elapsed
    rw [if_pos]
    have := since state
    omega
  | halfOpen =>
    simp only [Breaker.shouldAllow,state,true_implies]
    constructor
    · intro admits
      by_contra full
      have := admits (s.changed + cfg.openDuration) (Int.le_refl _)
      rw [if_pos (UInt32.not_lt.mp full)] at this
      cases this
    · intro room now _
      rw [if_neg (UInt32.not_le.mpr room)]

theorem finish_some (ends : s.finish b = some next) :
    0 < s.running ∧ next = { s.become b with running := s.running - 1 } :=
  (of_unless ends).imp Nat.pos_of_ne_zero Eq.symm

theorem toNat_succ {n bound : UInt32} (below : n < bound) : (n + 1).toNat = n.toNat + 1 := by
  have below := UInt32.lt_iff_toNat_lt.mp below
  have word := bound.toNat_lt
  rw [UInt32.toNat_add]
  exact Nat.mod_eq_of_lt (by simp only [UInt32.toNat_one]; omega)

theorem onSuccess_cases (cfg : Config) (b : Breaker) : (b.onSuccess cfg).state = .closed ∨
    (b.state = .opened ∧ b.onSuccess cfg = b) ∨
    (b.state = .halfOpen ∧ b.halfOpenSuccesses + 1 < cfg.halfOpenMaxCalls ∧
      b.onSuccess cfg = { b with halfOpenSuccesses := b.halfOpenSuccesses + 1 }) := by
  cases state : b.state with
  | closed =>
    left
    simp [Breaker.onSuccess,state]
  | opened =>
    right; left
    simp [Breaker.onSuccess,state]
  | halfOpen =>
    simp only [Breaker.onSuccess,state]
    split
    · exact .inl rfl
    · next few => exact .inr (.inr ⟨trivial,UInt32.not_le.mp few,rfl⟩)

theorem onSuccess_halfOpen (state : (Breaker.onSuccess cfg b).state = .halfOpen) : b.state = .halfOpen ∧
    b.onSuccess cfg = { b with halfOpenSuccesses := b.halfOpenSuccesses + 1 } := by
  rcases onSuccess_cases cfg b with closed | ⟨opened,same⟩ | ⟨before,-,same⟩
  · rw [closed] at state
    cases state
  · rw [same,opened] at state
    cases state
  · exact ⟨before,same⟩

section
variable (cfg : Config) (b : Breaker) (now : Int)

theorem onFailure_cases : (b.onFailure cfg now).state = .closed ∨
    (b.state = .opened ∧ b.onFailure cfg now = b) ∨
    (b.state ≠ .opened ∧ (b.onFailure cfg now).state = .opened ∧ (b.onFailure cfg now).openSince = now) := by
  cases state : b.state with
  | closed =>
    simp only [Breaker.onFailure,state]
    split
    · exact .inr (.inr ⟨nofun,rfl,rfl⟩)
    · exact .inl rfl
  | opened =>
    right; left
    simp [Breaker.onFailure,state]
  | halfOpen =>
    right; right
    simp [Breaker.onFailure,state]

theorem onFailure_ends : (b.onFailure cfg now).state ≠ .halfOpen := by
  rcases onFailure_cases cfg b now with closed | ⟨opened,same⟩ | ⟨_,opened,_⟩
  · simp [closed]
  · simp [same,opened]
  · simp [opened]

theorem shouldAllow_cases :
    (b.state ≠ .halfOpen ∧ (b.shouldAllow cfg now).2 = b) ∨
    (b.state = .halfOpen ∧ b.shouldAllow cfg now = (false,b)) ∨
    (b.state = .opened ∧ b.shouldAllow cfg now =
      (true,{ b with state := .halfOpen, halfOpenCalls := 1, halfOpenSuccesses := 0 })) ∨
    (b.state = .halfOpen ∧ b.halfOpenCalls < cfg.halfOpenMaxCalls ∧ b.shouldAllow cfg now =
      (true,{ b with halfOpenCalls := b.halfOpenCalls + 1 })) := by
  cases state : b.state with
  | closed =>
    left
    simp [Breaker.shouldAllow,state]
  | opened =>
    simp only [Breaker.shouldAllow,state]
    split
    · exact .inr (.inr (.inl ⟨trivial,rfl⟩))
    · exact .inl ⟨nofun,rfl⟩
  | halfOpen =>
    simp only [Breaker.shouldAllow,state]
    split
    · exact .inr (.inl ⟨trivial,rfl⟩)
    · next room => exact .inr (.inr (.inr ⟨trivial,UInt32.not_le.mp room,rfl⟩))

end

theorem sound_of_closed (state : s.breaker.state = .closed) : Sound cfg s :=
  ⟨by simp [state],by simp [state]⟩

theorem sound_step (several : 0 < cfg.halfOpenMaxCalls) (sound : Sound cfg s)
    (steps : step cfg s action = some next) : Sound cfg next := by
  cases action with
  | call =>
    rw [call_eq] at steps
    cases steps
    rcases shouldAllow_cases cfg s.breaker s.now with ⟨_,same⟩ | ⟨_,same⟩ | ⟨state,same⟩ | ⟨state,_,same⟩
    case inr.inr.inl => exact ⟨by simp [System.become,same],by simpa [System.become,same] using several⟩
    all_goals
      simp only [System.become,same,if_true]
      exact ⟨sound.since,sound.successes⟩
  | succeed =>
    obtain ⟨_,rfl⟩ := finish_some steps
    rcases onSuccess_cases cfg s.breaker with state | ⟨_,same⟩ | ⟨state,below,same⟩
    · exact sound_of_closed state
    · simp only [System.become,same,if_true]
      exact ⟨sound.since,sound.successes⟩
    · simp only [System.become,same]
      exact ⟨by simp [state],fun _ => below⟩
  | fail =>
    obtain ⟨_,rfl⟩ := finish_some steps
    rcases onFailure_cases cfg s.breaker s.now with state | ⟨_,same⟩ | ⟨before,state,since⟩
    · exact sound_of_closed state
    · simp only [System.become,same,if_true]
      exact ⟨sound.since,sound.successes⟩
    · simp only [System.become,state,before.symm,if_false]
      exact ⟨fun _ => by simp [since],by simp [state]⟩
  | leave =>
    obtain ⟨_,rfl⟩ := finish_some steps
    simp only [System.become,if_true]
    exact ⟨sound.since,sound.successes⟩
  | reset =>
    cases steps
    exact sound_of_closed rfl
  | pass ticks =>
    cases steps
    exact ⟨sound.since,sound.successes⟩

theorem balanced_step (sound : Sound cfg s) (balanced : Balanced s) (returning : Returning s action)
    (steps : step cfg s action = some next) : Balanced next := by
  cases action with
  | call =>
    rw [call_eq] at steps
    cases steps
    intro state
    rcases shouldAllow_cases cfg s.breaker s.now with ⟨other,same⟩ | ⟨before,same⟩ | ⟨_,same⟩ |
      ⟨before,room,same⟩
    · simp only [System.become,same] at state
      exact absurd state other
    · simpa [System.become,same] using balanced before
    · simp [System.become,same]
    · have counted := balanced before
      simp only [System.become,same,toNat_succ room,if_true]
      omega
  | succeed =>
    obtain ⟨busy,rfl⟩ := finish_some steps
    intro state
    obtain ⟨before,same⟩ := onSuccess_halfOpen state
    have counted := balanced before
    simp only [System.become,same,toNat_succ (sound.successes before)]
    omega
  | fail =>
    obtain ⟨_,rfl⟩ := finish_some steps
    exact fun state => absurd state (onFailure_ends cfg s.breaker s.now)
  | leave =>
    obtain ⟨_,rfl⟩ := finish_some steps
    exact fun state => absurd state (returning rfl)
  | reset =>
    cases steps
    nofun
  | pass ticks =>
    cases steps
    exact balanced

theorem enough_of_balanced (balanced : Balanced s) : Enough cfg s := by
  intro state full
  exact Nat.le_trans (UInt32.le_iff_toNat_le.mp full) (balanced state)

theorem enough_step (sound : Sound cfg s) (enough : Enough cfg s) (returns : action.returns = true)
    (steps : step cfg s action = some next) : Enough cfg next := by
  cases action with
  | succeed =>
    obtain ⟨busy,rfl⟩ := finish_some steps
    intro state full
    obtain ⟨before,same⟩ := onSuccess_halfOpen state
    simp only [System.become,same] at full
    have counted := enough before full
    simp only [System.become,same,toNat_succ (sound.successes before)]
    omega
  | fail =>
    obtain ⟨_,rfl⟩ := finish_some steps
    exact fun state => absurd state (onFailure_ends cfg s.breaker s.now)
  | pass ticks =>
    cases steps
    exact enough
  | call | leave | reset => cases returns

theorem admits_of_idle (sound : Sound cfg s) (enough : Enough cfg s) (idle : s.running = 0) : Admits cfg s := by
  apply (admits_iff sound).mpr
  intro state
  by_contra full
  have counted := enough state (UInt32.not_lt.mp full)
  have below := UInt32.lt_iff_toNat_lt.mp (sound.successes state)
  omega

variable (several : 0 < cfg.halfOpenMaxCalls) (sound : Sound cfg s)
include several sound

theorem stuck_run (state : s.breaker.state = .halfOpen) (full : cfg.halfOpenMaxCalls ≤ s.breaker.halfOpenCalls)
    (few : s.breaker.halfOpenSuccesses.toNat + s.running < cfg.halfOpenMaxCalls.toNat) :
    ∃ final, run (step cfg) s (List.replicate s.running .succeed) = some final ∧ final.running = 0 ∧
      ¬Admits cfg final := by
  induction left : s.running generalizing s with
  | zero =>
    refine ⟨s,rfl,left,?_⟩
    rw [admits_iff sound]
    exact fun room => UInt32.not_le.mpr (room state) full
  | succ n ih =>
    have more := toNat_succ (sound.successes state)
    have below : s.breaker.halfOpenSuccesses + 1 < cfg.halfOpenMaxCalls := by
      apply UInt32.lt_iff_toNat_lt.mpr
      omega
    obtain ⟨next,result⟩ : ∃ next : System, next = { s with
      breaker := { s.breaker with halfOpenSuccesses := s.breaker.halfOpenSuccesses + 1 }
      running := n } := ⟨_,rfl⟩
    have steps : step cfg s .succeed = some next := by
      have stays : s.breaker.onSuccess cfg =
          { s.breaker with halfOpenSuccesses := s.breaker.halfOpenSuccesses + 1 } := by
        simp [Breaker.onSuccess,state,UInt32.not_le.mpr below]
      simp [step,System.finish,System.become,stays,left,result]
    obtain ⟨final,runs,idle,stuck⟩ := ih (s := next) (sound_step several sound steps)
      (by rw [result]; exact state) (by rw [result]; exact full)
      (by rw [result]; simp only [more]; omega) (by rw [result])
    refine ⟨final,?_,idle,stuck⟩
    rw [List.replicate_succ]
    exact run_cons.mpr ⟨next,steps,runs⟩

theorem responsive_iff :
    Admits cfg s ∨ Recovers cfg s ↔ Enough cfg s := by
  constructor
  · intro responsive state full
    by_contra few
    rcases responsive with admits | ⟨_,recovers⟩
    · exact UInt32.not_le.mpr ((admits_iff sound).mp admits state) full
    obtain ⟨final,runs,idle,stuck⟩ := stuck_run several sound state full (Nat.not_le.mp few)
    apply stuck
    apply recovers _ final _ runs idle
    intro action member
    rw [List.eq_of_mem_replicate member]
    rfl
  · intro enough
    rcases Nat.eq_zero_or_pos s.running with idle | busy
    · exact .inl (admits_of_idle sound enough idle)
    refine .inr ⟨busy,?_⟩
    intro rest final returns runs idle
    have ends : Sound cfg final ∧ Enough cfg final := by
      clear idle busy
      induction rest generalizing s with
      | nil =>
        cases runs
        exact ⟨sound,enough⟩
      | cons action rest ih =>
        obtain ⟨next,steps,later⟩ := run_cons.mp runs
        obtain ⟨here,returns⟩ := List.forall_mem_cons.mp returns
        exact ih (sound_step several sound steps) (enough_step sound enough here steps) returns later
    exact admits_of_idle ends.1 ends.2 idle

end

theorem sound_start (cfg : Config) (now : Int) : Sound cfg (start now) := sound_of_closed rfl

/-- In every state that overlapping calls can reach: calls are let in, or the running ones will bring that about,
exactly if enough trial calls run or have succeeded; and so as long as none of them leaves by an exception or is
cancelled in the half-open state. -/
theorem never_stuck_iff (cfg : Config) (several : 1 ≤ cfg.halfOpenMaxCalls) (now : Int)
    (schedule : List Action) (final : System) (runs : run (step cfg) (start now) schedule = some final) :
    (Admits cfg final ∨ Recovers cfg final ↔ Enough cfg final) ∧
      (Along (step cfg) Returning (start now) schedule → Admits cfg final ∨ Recovers cfg final) := by
  have positive : 0 < cfg.halfOpenMaxCalls := by
    apply UInt32.lt_iff_toNat_lt.mpr
    exact UInt32.le_iff_toNat_le.mp several
  have sound := run_invariant (Sound cfg)
    (fun _ _ _ sound steps => sound_step positive sound steps) (sound_start cfg now) runs
  have exactly := responsive_iff positive sound
  refine ⟨exactly,?_⟩
  intro returning
  have balanced := run_guarded (step cfg) Returning (fun s => Sound cfg s ∧ Balanced s)
    (fun _ _ _ held returning steps =>
      ⟨sound_step positive held.1 steps,balanced_step held.1 held.2 returning steps⟩)
    ⟨sound_start cfg now,nofun⟩ returning runs
  exact exactly.mpr (enough_of_balanced balanced.2)

/-- Two trial calls overlap with a call from before; one succeeds and one still runs. -/
theorem never_stuck_iff_overlapping : ∃ final, run (step ⟨1,10,2⟩) (start 0)
        [.call,.call,.fail,.call,.pass 10,.call,.call,.succeed,.call] = some final ∧
      final.breaker.state = .halfOpen ∧ final.running = 2 ∧
      (Admits ⟨1,10,2⟩ final ∨ Recovers ⟨1,10,2⟩ final) := by
  refine exists_final (by decide +kernel) fun runs => ⟨by decide +kernel,by decide +kernel,?_⟩
  exact (never_stuck_iff ⟨1,10,2⟩ (by decide) 0 _ _ runs).2 (by decide +kernel)

/-- The only trial call leaves by an exception: no call runs, and none is ever let in again. -/
theorem probe_lost : ∃ final, run (step ⟨1,10,1⟩) (start 0) [.call,.fail,.pass 10,.call,.leave] = some final ∧
      final.running = 0 ∧ (∀ now, final.breaker.shouldAllow ⟨1,10,1⟩ now = (false,final.breaker)) ∧
      ¬(Admits ⟨1,10,1⟩ final ∨ Recovers ⟨1,10,1⟩ final) := by
  refine ⟨⟨⟨.halfOpen,1,1,0,0⟩,10,0,10⟩,rfl,rfl,fun _ => rfl,?_⟩
  rintro (admits | ⟨busy,_⟩)
  · have allowed := admits 20 (by decide)
    cases allowed
  · cases busy

end ApexPipeline.CircuitBreaker
