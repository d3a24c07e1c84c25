import ApexPipeline.CircuitBreaker

/-! The breaker with its calls told apart: each has the number of the period, between two changes of the state,
in which it was let in. One that leaves by an exception is one whose result never comes. -/
namespace ApexPipeline.CircuitBreaker.Periods
open Execution

/-- `ended` is no part of the program: for each result the period of the call, the one it fell in, and whether
it was a success. -/
structure State where
  breaker : Breaker := {}
  now : Int
  period : Nat := 0
  calls : List Nat := []
  ended : List (Nat × Nat × Bool) := []

inductive Action where
  | call
  | finish (call : Nat) (ok : Bool)
  | pass (ticks : Nat)

def State.become (s : State) (b : Breaker) : State :=
  { s with breaker := b, period := if b.state = s.breaker.state then s.period else s.period + 1 }

def finish (cfg : Config) (b : Breaker) (now : Int) (ok : Bool) : Breaker :=
  if ok then b.onSuccess cfg else b.onFailure cfg now

def step (cfg : Config) (s : State) : Action → Option State
  | .call =>
    let next := s.become (s.breaker.shouldAllow cfg s.now).2
    some { next with
      calls := if (s.breaker.shouldAllow cfg s.now).1 then s.calls ++ [next.period] else s.calls }
  | .finish call ok => (s.calls[call]?).map fun admitted =>
    { s.become (finish cfg s.breaker s.now ok) with
      calls := s.calls.eraseIdx call, ended := s.ended ++ [(admitted,s.period,ok)] }
  | .pass ticks => some { s with now := s.now + ticks }

structure Evident (cfg : Config) (s : State) (action : Action) (next : State) : Prop where
  closes : s.breaker.state = .halfOpen → next.breaker.state = .closed →
    cfg.halfOpenMaxCalls.toNat ≤ next.ended.count (s.period,s.period,true)
  opens : s.breaker.state = .halfOpen → next.breaker.state = .opened →
    ∃ call, action = .finish call false ∧ s.calls[call]? = some s.period
  stale : ∀ call ok, action = .finish call ok → s.calls[call]? ≠ some s.period →
    next.breaker.state = s.breaker.state

/-- The result of a call of another period comes while the circuit is open, or is closed and stays so. -/
def Fresh (cfg : Config) (s : State) : Action → Prop
  | .finish call ok => s.calls[call]? = some s.period ∨ s.breaker.state = .opened ∨
    s.breaker.state = .closed ∧ (ok = false → s.breaker.failureCount + 1 < cfg.failureThreshold)
  | _ => True

instance (cfg : Config) (s : State) : DecidablePred (Fresh cfg s)
  | .finish .. => inferInstanceAs (Decidable (_ ∨ _))
  | .call | .pass _ => isTrue trivial

def Counted (s : State) : Prop :=
  s.breaker.state = .halfOpen → s.breaker.halfOpenSuccesses.toNat ≤ s.ended.count (s.period,s.period,true)

theorem succ_le (n : UInt32) : (n + 1).toNat ≤ n.toNat + 1 := by
  rw [UInt32.toNat_add]
  exact Nat.mod_le _ _

theorem evident_step (counted : Counted s) (fresh : Fresh cfg s action) (stepped : step cfg s action = some next) :
    Counted next ∧ Evident cfg s action next := by
  cases action with
  | call =>
    cases stepped
    have stays (state : s.breaker.state = .halfOpen) : (s.breaker.shouldAllow cfg s.now).2.state = .halfOpen ∧
        (s.breaker.shouldAllow cfg s.now).2.halfOpenSuccesses = s.breaker.halfOpenSuccesses := by
      simp only [Breaker.shouldAllow,state]
      split <;> exact ⟨by simp [state],rfl⟩
    refine ⟨fun state => ?_,fun before after => ?_,fun before after => ?_,by rintro _ _ ⟨⟩⟩
    · rcases shouldAllow_cases cfg s.breaker s.now with ⟨other,same⟩ | ⟨before,_⟩ | ⟨_,same⟩ | ⟨before,_⟩
      · exact absurd (same ▸ state) other
      · simpa [State.become,stays before,before] using counted before
      · simp [State.become,same]
      · simpa [State.become,stays before,before] using counted before
    all_goals cases (stays before).1.symm.trans after
  | finish call ok =>
    obtain ⟨admitted,there,rfl⟩ := Option.map_eq_some_iff.mp stepped
    have mine (state : s.breaker.state = .halfOpen) : s.calls[call]? = some s.period := by
      simpa [Fresh,state] using fresh
    have more (state) := Nat.le_trans (succ_le _) (Nat.succ_le_succ (counted state))
    refine ⟨fun after => ?_,fun before after => ?_,fun before after => ?_,?_⟩
    · cases ok with
      | false => exact absurd after (onFailure_ends cfg s.breaker s.now)
      | true =>
        obtain ⟨before,same⟩ := onSuccess_halfOpen after
        cases there.symm.trans (mine before)
        simpa [State.become,finish,same] using more before
    · cases ok with
      | false => simp [State.become,finish,Breaker.onFailure,before] at after
      | true =>
        have enough : cfg.halfOpenMaxCalls ≤ s.breaker.halfOpenSuccesses + 1 := by
          by_contra few
          simp [State.become,finish,Breaker.onSuccess,before,few] at after
        cases there.symm.trans (mine before)
        exact Nat.le_trans (UInt32.le_iff_toNat_le.mp enough) (by simpa using more before)
    · cases ok with
      | false => exact ⟨call,rfl,mine before⟩
      | true =>
        simp only [State.become,finish,Breaker.onSuccess,before,if_true] at after
        split at after <;> cases after
    · rintro _ _ ⟨⟩ away
      rcases fresh with now | opened | ⟨closed,few⟩
      · exact absurd now away
      · cases ok <;> simp [State.become,finish,Breaker.onSuccess,Breaker.onFailure,opened]
      · cases ok with
        | true => simp [State.become,finish,Breaker.onSuccess,closed]
        | false => simp [State.become,finish,Breaker.onFailure,closed,UInt32.not_le.mpr (few rfl)]
  | pass ticks =>
    cases stepped
    refine ⟨counted,fun before after => ?_,fun before after => ?_,by rintro _ _ ⟨⟩⟩
    all_goals cases before.symm.trans after

/-- Over every interleaving of overlapping calls in which no late result counts. -/
theorem closes_on_evidence (cfg : Config) (now : Int) (schedule : List Action)
    (fresh : Along (step cfg) (Fresh cfg) { now } schedule) :
    Along (step cfg) (fun s action => ∀ next, step cfg s action = some next → Evident cfg s action next)
      { now } schedule := by
  have counted := (throughout_guarded Counted (fun _ _ _ counted fresh stepped =>
    (evident_step counted fresh stepped).1) (fun state => by cases state) fresh).along
  exact (counted.and fresh).imp fun _ _ held _ stepped => (evident_step held.1 held.2 stepped).2

/-- A trial call succeeds while one of before the failure still runs, which ends when the circuit has closed. -/
def late : List Action :=
  [.call,.call,.call,.finish 0 false,.finish 0 false,.pass 10,.call,.finish 1 true,.finish 0 false]

theorem closes_on_evidence_late :
    (∃ s, run (step ⟨2,10,1⟩) { now := 0 } late = some s ∧ s.ended.length = 4 ∧ s.breaker.state = .closed) ∧
      Along (step ⟨2,10,1⟩)
        (fun s action => ∀ next, step ⟨2,10,1⟩ s action = some next → Evident ⟨2,10,1⟩ s action next) { now := 0 } late :=
  ⟨⟨_,rfl,rfl,rfl⟩,closes_on_evidence ⟨2,10,1⟩ 0 late (by decide +kernel)⟩

/-- A call of before the failure succeeds while the trial call runs, and the circuit closes. -/
theorem closed_by_stale_result : ∃ s next,
    run (step ⟨1,10,1⟩) { now := 0 } [.call,.call,.finish 0 false,.pass 10,.call] = some s ∧
      step ⟨1,10,1⟩ s (.finish 0 true) = some next ∧ ¬Evident ⟨1,10,1⟩ s (.finish 0 true) next :=
  ⟨_,_,rfl,rfl,fun evident => absurd (evident.closes rfl rfl) (by decide)⟩

end ApexPipeline.CircuitBreaker.Periods
