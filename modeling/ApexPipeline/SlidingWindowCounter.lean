import ApexPipeline.Execution

/-! `sliding_window_counter.cpp`, with exact rationals for its doubles. Time points and
durations are ticks of the clock; the epoch marks a counter that has seen no request. -/
namespace ApexPipeline

def weigh (previous current : Nat) (elapsed window : Int) : Rat :=
  let ratio : Rat := elapsed / window
  let ratio := if ratio > 1 then 1 else ratio
  previous * (1 - ratio) + current

structure SlidingWindowCounter where
  limit : UInt32
  windowSize : Int
  currentCount : UInt32
  previousCount : UInt32
  windowStart : Int
  lastAccess : Int
  deriving DecidableEq, Repr

namespace SlidingWindowCounter

def create (limit : UInt32) (windowSize : Int) : SlidingWindowCounter :=
  ⟨limit,if windowSize > 0 then windowSize else 1,0,0,0,0⟩

def advanceWindow (c : SlidingWindowCounter) (now : Int) : SlidingWindowCounter :=
  if c.windowStart = 0 then { c with windowStart := now }
  else
    let elapsed := now - c.windowStart
    if elapsed < c.windowSize then c
    else
      let windowsPassed := elapsed.tdiv c.windowSize
      if windowsPassed = 1 then
        { c with
          previousCount := c.currentCount
          currentCount := 0
          windowStart := c.windowStart + c.windowSize }
      else { c with previousCount := 0, currentCount := 0, windowStart := now }

def allow (c : SlidingWindowCounter) (now : Int) : Bool × SlidingWindowCounter :=
  let c := c.advanceWindow now
  let estimate := weigh c.previousCount.toNat c.currentCount.toNat (now - c.windowStart) c.windowSize
  if estimate ≥ c.limit.toNat then (false,c)
  else (true,{ c with currentCount := c.currentCount + 1, lastAccess := now })

/-- Works the rotation out on copies: a counter that has seen no request gets no case of its own. -/
def estimatedCount (c : SlidingWindowCounter) (now : Int) : Rat :=
  let elapsedSinceStart := now - c.windowStart
  if c.windowSize > 0 ∧ elapsedSinceStart ≥ c.windowSize then
    let windowsPassed := elapsedSinceStart.tdiv c.windowSize
    if windowsPassed = 1 then
      weigh c.currentCount.toNat 0 (now - (c.windowStart + c.windowSize)) c.windowSize
    else 0
  else weigh c.previousCount.toNat c.currentCount.toNat (now - c.windowStart) c.windowSize

def reset (c : SlidingWindowCounter) : SlidingWindowCounter :=
  { c with currentCount := 0, previousCount := 0, windowStart := 0, lastAccess := 0 }

end SlidingWindowCounter

section
variable (previous current : Nat) (elapsed window : Int)

theorem le_weigh :
    (current : Rat) ≤ weigh previous current elapsed window := by
  simp only [weigh]
  have weight : 0 ≤ (1 : Rat) - (if (elapsed : Rat) / window > 1 then 1 else (elapsed : Rat) / window) := by
    split
    · exact le_of_eq (sub_self _).symm
    · rename_i small
      exact sub_nonneg.mpr (not_lt.mp small)
  exact le_add_of_nonneg_left (mul_nonneg (Nat.cast_nonneg _) weight)

theorem weigh_scaled (positive : 0 < unit) :
    weigh previous current (elapsed * unit) (window * unit) = weigh previous current elapsed window := by
  have nonzero : (unit : Rat) ≠ 0 := Int.cast_ne_zero.mpr positive.ne'
  have ratio : ((elapsed * unit : Int) : Rat) / ((window * unit : Int) : Rat) = elapsed / window := by
    rw [Int.cast_mul,Int.cast_mul,mul_div_mul_right _ _ nonzero]
  simp only [weigh,ratio]

end

/-- One whole window, as the truncating division and as the floor of the quotient see it. -/
theorem tdiv_eq_one (elapsed : Int) (positive : 0 < window) (forward : 0 ≤ elapsed) :
    elapsed.tdiv window = 1 ↔ window ≤ elapsed ∧ elapsed < 2 * window := by
  rw [Int.tdiv_eq_ediv_of_nonneg forward]
  constructor
  · intro one
    have bounds := Int.mul_ediv_self_le (x := elapsed) (k := window) positive.ne'
    have above := Int.lt_mul_ediv_self_add (x := elapsed) positive
    rw [one] at bounds above
    omega
  · rintro ⟨low,high⟩
    have lower : 1 ≤ elapsed / window := (Int.le_ediv_iff_mul_le positive).mpr (by omega)
    have upper : elapsed / window < 2 := (Int.ediv_lt_iff_lt_mul positive).mpr (by omega)
    omega

theorem floor_div_eq_one (elapsed window : Int) (positive : 0 < window) :
    ⌊(elapsed : Rat) / window⌋ = 1 ↔ window ≤ elapsed ∧ elapsed < 2 * window := by
  have size : (0 : Rat) < window := Int.cast_pos.mpr positive
  rw [Int.floor_eq_iff,le_div_iff₀ size,div_lt_iff₀ size]
  norm_cast
  constructor
  all_goals
    rintro ⟨low,high⟩
    omega

namespace SlidingWindowCounter
open Execution

inductive Action where
  | allow (now : Int)
  | estimatedCount (now : Int)
  | reset
  deriving DecidableEq, Repr

structure Use where
  counter : SlidingWindowCounter
  decisions : List Bool
  estimates : List Rat
  deriving DecidableEq, Repr

def Use.step (s : Use) : Action → Option Use
  | .allow now =>
    let answer := s.counter.allow now
    some { s with counter := answer.2, decisions := s.decisions ++ [answer.1] }
  | .estimatedCount now => some { s with estimates := s.estimates ++ [s.counter.estimatedCount now] }
  | .reset => some { s with counter := s.counter.reset }

def Action.asks : Action → Bool
  | .estimatedCount _ => true
  | .allow _ | .reset => false

/-- A window that starts at the epoch is one that has not started. -/
structure Dated (limit : UInt32) (c : SlidingWindowCounter) : Prop where
  limited : c.limit = limit
  size : 0 < c.windowSize
  start : 0 ≤ c.windowStart
  unstarted : c.windowStart = 0 → c.currentCount = 0 ∧ c.previousCount = 0

variable {limit : UInt32}

theorem dated_create (limit : UInt32) (windowSize : Int) : Dated limit (create limit windowSize) := by
  refine ⟨rfl,?_,Int.le_refl 0,fun _ => ⟨rfl,rfl⟩⟩
  simp only [create]
  split <;> omega

theorem weigh_none (elapsed window : Int) : weigh 0 0 elapsed window = 0 := by
  simp [weigh]

section
variable (dated : Dated limit c)
include dated

theorem Dated.reset : Dated limit c.reset :=
  ⟨dated.limited,dated.size,Int.le_refl 0,fun _ => ⟨rfl,rfl⟩⟩

theorem Dated.advanceWindow (later : 0 < now) :
    Dated limit (c.advanceWindow now) ∧ 0 < (c.advanceWindow now).windowStart ∧
      weigh (c.advanceWindow now).previousCount.toNat (c.advanceWindow now).currentCount.toNat
        (now - (c.advanceWindow now).windowStart) (c.advanceWindow now).windowSize = c.estimatedCount now := by
  obtain ⟨limited,size,start,unstarted⟩ := dated
  by_cases fresh : c.windowStart = 0
  · obtain ⟨current,previous⟩ := unstarted fresh
    have opened : c.advanceWindow now = { c with windowStart := now } := by
      simp [SlidingWindowCounter.advanceWindow,fresh]
    have estimate : c.estimatedCount now = 0 := by
      simp [SlidingWindowCounter.estimatedCount,current,previous,weigh_none]
    rw [opened,estimate]
    refine ⟨⟨limited,size,later.le,fun _ => ⟨current,previous⟩⟩,later,?_⟩
    simp [current,previous,weigh_none]
  · have begun : 0 < c.windowStart := lt_of_le_of_ne start (Ne.symm fresh)
    simp only [SlidingWindowCounter.advanceWindow,SlidingWindowCounter.estimatedCount,if_neg fresh]
    by_cases inside : now - c.windowStart < c.windowSize
    · rw [if_pos inside,if_neg (by omega)]
      exact ⟨⟨limited,size,start,fun same => absurd same fresh⟩,begun,rfl⟩
    have whole : c.windowSize > 0 ∧ now - c.windowStart ≥ c.windowSize := ⟨size,by omega⟩
    rw [if_neg inside,if_pos whole]
    by_cases one : (now - c.windowStart).tdiv c.windowSize = 1
    · rw [if_pos one,if_pos one]
      have moved : 0 < c.windowStart + c.windowSize := by omega
      exact ⟨⟨limited,size,moved.le,fun same => absurd same moved.ne'⟩,moved,rfl⟩
    · rw [if_neg one,if_neg one]
      exact ⟨⟨limited,size,later.le,fun _ => ⟨rfl,rfl⟩⟩,later,weigh_none _ _⟩

theorem Dated.allow_iff (later : 0 < now) :
    (c.allow now).1 = true ↔ c.estimatedCount now < limit.toNat := by
  obtain ⟨opened,_,same⟩ := dated.advanceWindow later
  simp only [SlidingWindowCounter.allow,opened.limited,same]
  split
  · rename_i full
    simpa using full
  · rename_i free
    simpa using free

theorem Dated.allow (later : 0 < now) : Dated limit (c.allow now).2 := by
  obtain ⟨opened,begun,_⟩ := dated.advanceWindow later
  simp only [SlidingWindowCounter.allow]
  split
  · exact opened
  · exact ⟨opened.limited,opened.size,opened.start,fun same => absurd same begun.ne'⟩

end

theorem Use.run_unasked (same : s.counter = t.counter) (told : s.decisions = t.decisions)
    (runs : run step s schedule = some final) :
    ∃ unasked, run step t (schedule.filter fun a => !a.asks) = some unasked ∧
      unasked.counter = final.counter ∧ unasked.decisions = final.decisions := by
  induction schedule generalizing s t with
  | nil =>
    cases runs
    exact ⟨t,rfl,same.symm,told.symm⟩
  | cons a rest ih =>
    obtain ⟨next,stepped,runs⟩ := run_cons.mp runs
    cases a with
    | allow now =>
      obtain rfl := Option.some.inj stepped
      obtain ⟨unasked,ran,agrees⟩ := ih (t := { t with
        counter := (t.counter.allow now).2, decisions := t.decisions ++ [(t.counter.allow now).1] })
        (by simp only [same]) (by simp only [same,told]) runs
      exact ⟨unasked,run_cons.mpr ⟨_,rfl,ran⟩,agrees⟩
    | estimatedCount now =>
      cases stepped
      exact ih (by exact same) (by exact told) runs
    | reset =>
      cases stepped
      obtain ⟨unasked,ran,agrees⟩ := ih (t := { t with counter := t.counter.reset }) (by simp only [same])
        (by exact told) runs
      exact ⟨unasked,run_cons.mpr ⟨_,rfl,ran⟩,agrees⟩

/-- The clock is past its epoch whenever `allow` is called; it may still run backwards. -/
theorem decision_matches_estimate (limit : UInt32) (windowSize : Int) (schedule : List Action) (final : Use)
    (later : ∀ now, Action.allow now ∈ schedule → 0 < now)
    (runs : run Use.step ⟨create limit windowSize,[],[]⟩ schedule = some final) :
    (∀ now, 0 < now → ((final.counter.allow now).1 = true ↔ final.counter.estimatedCount now < limit.toNat)) ∧
      ∃ unasked, run Use.step ⟨create limit windowSize,[],[]⟩ (schedule.filter fun a => !a.asks) = some unasked ∧
        unasked.counter = final.counter ∧ unasked.decisions = final.decisions := by
  have dated : Dated limit final.counter := by
    refine run_guarded Use.step (fun _ a => ∀ now, a = .allow now → 0 < now) (fun s => Dated limit s.counter)
      (fun s a next dated later stepped => ?_) (dated_create limit windowSize)
      (Along.of_forall fun _ a member now same => ?_) runs
    · cases a <;> cases stepped
      exacts [dated.allow (later _ rfl),dated,dated.reset]
    · cases same
      exact later now member
  exact ⟨fun now positive => dated.allow_iff positive,Use.run_unasked rfl rfl runs⟩

/-- Full in its first window, one window later with half the weight, and after a reset. -/
theorem decision_matches_estimate_rotated :
    ∃ final, run Use.step ⟨create 2 10,[],[]⟩
        [.allow 5,.estimatedCount 6,.allow 7,.allow 8,.estimatedCount 20,.allow 20] = some final ∧
      final.decisions = [true,true,false,true] ∧ final.estimates = [1,1] ∧
      ((final.counter.allow 21).1 = true ↔ final.counter.estimatedCount 21 < 2) := by
  refine exists_final (by decide +kernel) fun runs => ⟨by decide +kernel,by decide +kernel,?_⟩
  refine (decision_matches_estimate 2 10 _ _ (fun now member => ?_) runs).1 21 (by decide)
  simp at member
  omega

end SlidingWindowCounter

end ApexPipeline
