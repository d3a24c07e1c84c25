import ApexPipeline.SlidingWindowCounter

/-! What the sliding window counter admits. Its windows begin at the first request and again after an idle time; but
no two of them overlap, and the two counts are the numbers of requests admitted in the window and in the time of one
window before it. -/
namespace ApexPipeline.SlidingWindowRate
open Execution List SlidingWindowCounter

structure Call where
  time : Int
  found : SlidingWindowCounter
  admitted : Bool
  deriving DecidableEq, Repr

def Call.opened (call : Call) : SlidingWindowCounter := call.found.advanceWindow call.time

/-- The calls are no part of the program. -/
structure State where
  counter : SlidingWindowCounter
  calls : List Call

def step (s : State) (now : Int) : Option State :=
  let (admitted,counter) := s.counter.allow now
  some ⟨counter,s.calls ++ [⟨now,s.counter,admitted⟩]⟩

theorem step_eq (s : State) (now : Int) : step s now =
    some ⟨(s.counter.allow now).2,s.calls ++ [⟨now,s.counter,(s.counter.allow now).1⟩]⟩ := rfl

def start (limit : UInt32) (window : Int) : State := ⟨.create limit window,[]⟩

/-- How many calls were admitted at a time from `low` on and before `high`. -/
def admittedIn (calls : List Call) (low high : Int) : Nat :=
  calls.countP fun call => call.admitted && decide (low ≤ call.time ∧ call.time < high)

theorem admittedIn_append (calls : List Call) (call : Call) (low high : Int) :
    admittedIn (calls ++ [call]) low high = admittedIn calls low high +
      if call.admitted = true ∧ low ≤ call.time ∧ call.time < high then 1 else 0 := by
  simp [admittedIn,countP_append,countP_singleton]

theorem admittedIn_none (high : Int) (past : ∀ call ∈ calls, call.time < low) : admittedIn calls low high = 0 := by
  apply countP_eq_zero.mpr
  intro call member
  have before := past call member
  simp only [Bool.and_eq_true,decide_eq_true_eq]
  omega

theorem admittedIn_mono
    (inside : ∀ call ∈ calls, low ≤ call.time ∧ call.time < high → low' ≤ call.time ∧ call.time < high') :
    admittedIn calls low high ≤ admittedIn calls low' high' := by
  apply countP_mono_left
  intro call member
  simp only [Bool.and_eq_true,decide_eq_true_eq]
  exact And.imp_right (inside call member)

theorem admittedIn_cover (calls : List Call) (low middle high : Int) :
    admittedIn calls low high ≤ admittedIn calls low middle + admittedIn calls middle high := by
  induction calls with
  | nil => exact Nat.le_refl 0
  | cons call rest ih =>
    simp only [admittedIn,countP_cons] at ih ⊢
    cases call.admitted with
    | false => simpa using ih
    | true =>
      simp only [Bool.true_and,decide_eq_true_eq]
      split <;> split <;> split <;> omega

structure Window (limit : UInt32) (window : Int) (calls : List Call) (c : SlidingWindowCounter) : Prop where
  sameLimit : c.limit = limit
  size : c.windowSize = window
  begun : 0 < c.windowStart
  current : c.currentCount.toNat = admittedIn calls c.windowStart (c.windowStart + window)
  previous : c.previousCount.toNat = admittedIn calls (c.windowStart - window) c.windowStart
  currentLe : c.currentCount.toNat ≤ limit.toNat
  previousLe : c.previousCount.toNat ≤ limit.toNat
  before : ∀ call ∈ calls, call.time < c.windowStart + window
  apart : ∀ call ∈ calls, call.opened.windowStart = c.windowStart ∨ call.opened.windowStart + window ≤ c.windowStart

namespace Window
variable {limit : UInt32} {window now : Int} {calls : List Call} {c : SlidingWindowCounter}

theorem fresh (sameLimit : c.limit = limit) (size : c.windowSize = window) (begun : 0 < c.windowStart)
    (positive : 0 < window) (current : c.currentCount = 0) (previous : c.previousCount = 0)
    (past : ∀ call ∈ calls, call.time < c.windowStart - window)
    (apart : ∀ call ∈ calls, call.opened.windowStart + window ≤ c.windowStart) :
    Window limit window calls c where
  sameLimit := sameLimit
  size := size
  begun := begun
  current := by
    have none : admittedIn calls c.windowStart (c.windowStart + window) = 0 := by
      apply admittedIn_none
      intro call member
      have := past call member
      omega
    simp [current,none]
  previous := by simp [previous,admittedIn_none _ past]
  currentLe := by simp [current]
  previousLe := by simp [previous]
  before := by
    intro call member
    have := past call member
    omega
  apart := fun call member => .inr (apart call member)

section
variable (held : Window limit window calls c) (positive : 0 < window)
include held positive

theorem rotate : Window limit window calls { c with
      previousCount := c.currentCount
      currentCount := 0
      windowStart := c.windowStart + c.windowSize } where
  sameLimit := held.sameLimit
  size := held.size
  begun := by
    have := held.begun
    have := held.size
    simp only
    omega
  current := by
    apply Eq.symm
    apply admittedIn_none
    intro call member
    have := held.before call member
    simp only [held.size]
    omega
  previous := by
    simp only [held.size,Int.add_sub_cancel]
    exact held.current
  currentLe := Nat.zero_le _
  previousLe := held.currentLe
  before := by
    intro call member
    have := held.before call member
    simp only [held.size]
    omega
  apart := by
    intro call member
    simp only [held.size]
    have := held.apart call member
    omega

theorem advance (forward : c.windowStart ≤ now) : Window limit window calls (c.advanceWindow now) ∧
      (c.advanceWindow now).windowStart ≤ now ∧ now < (c.advanceWindow now).windowStart + window ∧
      (2 * window ≤ now - c.windowStart → (c.advanceWindow now).previousCount = 0) := by
  have begun := held.begun
  have size := held.size
  have one := tdiv_eq_one (now - c.windowStart) positive (by omega)
  by_cases inside : now - c.windowStart < window
  · have same : c.advanceWindow now = c := by
      simp [advanceWindow,size,inside,begun.ne']
    rw [same]
    exact ⟨held,forward,by omega,by omega⟩
  · by_cases rotates : (now - c.windowStart).tdiv window = 1
    · have turned : c.advanceWindow now = { c with
          previousCount := c.currentCount
          currentCount := 0
          windowStart := c.windowStart + c.windowSize } := by
        simp [advanceWindow,size,inside,rotates,begun.ne']
      have bounds := one.mp rotates
      rw [turned]
      refine ⟨held.rotate positive,?_,?_,?_⟩
      · simp only [size]
        omega
      · simp only [size]
        omega
      · omega
    · have reset : c.advanceWindow now =
          { c with previousCount := 0, currentCount := 0, windowStart := now } := by
        simp [advanceWindow,size,inside,rotates,begun.ne']
      have idle : c.windowStart + 2 * window ≤ now := by
        by_contra early
        exact rotates (one.mpr (by omega))
      rw [reset]
      refine ⟨?_,Int.le_refl now,by simp only; omega,fun _ => rfl⟩
      apply fresh (c := { c with previousCount := 0, currentCount := 0, windowStart := now })
        held.sameLimit size (Int.lt_of_lt_of_le begun forward) positive rfl rfl
      · intro call member
        have := held.before call member
        simp only
        omega
      · intro call member
        have := held.apart call member
        simp only
        omega

end

theorem append (held : Window limit window calls (c.advanceWindow now)) (after : (c.advanceWindow now).windowStart ≤ now)
    (inside : now < (c.advanceWindow now).windowStart + window) (admitted : Bool) :
    admittedIn (calls ++ [⟨now,c,admitted⟩]) ((c.advanceWindow now).windowStart - window)
        (c.advanceWindow now).windowStart = (c.advanceWindow now).previousCount.toNat ∧
    admittedIn (calls ++ [⟨now,c,admitted⟩]) (c.advanceWindow now).windowStart
        ((c.advanceWindow now).windowStart + window) =
      (c.advanceWindow now).currentCount.toNat + admitted.toNat := by
  simp only [admittedIn_append,← held.previous,← held.current]
  constructor
  · rw [if_neg (by omega)]
    rfl
  · cases admitted with
    | false => simp
    | true => simp [after,inside]

end Window

section
variable (c : SlidingWindowCounter) (now : Int)

theorem admitted_below (admits : (c.allow now).1 = true) :
    (c.advanceWindow now).currentCount.toNat < (c.advanceWindow now).limit.toNat ∧
    weigh (c.advanceWindow now).previousCount.toNat (c.advanceWindow now).currentCount.toNat
      (now - (c.advanceWindow now).windowStart) (c.advanceWindow now).windowSize <
        (c.advanceWindow now).limit.toNat := by
  simp only [allow] at admits
  split at admits
  · cases admits
  next small =>
  have estimate := not_le.mp small
  have least := le_weigh (c.advanceWindow now).previousCount.toNat
    (c.advanceWindow now).currentCount.toNat (now - (c.advanceWindow now).windowStart)
    (c.advanceWindow now).windowSize
  exact ⟨by exact_mod_cast lt_of_le_of_lt least estimate,estimate⟩

theorem allow_counter : (c.allow now).2.limit = (c.advanceWindow now).limit ∧
    (c.allow now).2.windowSize = (c.advanceWindow now).windowSize ∧
    (c.allow now).2.windowStart = (c.advanceWindow now).windowStart ∧
    (c.allow now).2.previousCount = (c.advanceWindow now).previousCount ∧
    (c.allow now).2.currentCount.toNat = (c.advanceWindow now).currentCount.toNat + (c.allow now).1.toNat := by
  have below := admitted_below c now
  simp only [allow] at below ⊢
  split
  · exact ⟨rfl,rfl,rfl,rfl,rfl⟩
  next small =>
  rw [if_neg small] at below
  have word := (c.advanceWindow now).limit.toNat_lt
  have room := (below rfl).1
  refine ⟨rfl,rfl,rfl,rfl,?_⟩
  rw [UInt32.toNat_add]
  exact Nat.mod_eq_of_lt (by simp only [UInt32.toNat_one]; omega)

end

/-- The estimate of an admitted call, with the true numbers of admitted calls. -/
def Justified (limit : UInt32) (window : Int) (before : List Call) (call : Call) : Prop :=
  let opened := call.opened
  let previous := admittedIn before (opened.windowStart - window) opened.windowStart
  let current := admittedIn before opened.windowStart (opened.windowStart + window)
  opened.windowStart ≤ call.time ∧ call.time < opened.windowStart + window ∧
    opened.previousCount.toNat = previous ∧ opened.currentCount.toNat = current ∧
    (2 * window ≤ call.time - call.found.windowStart → previous = 0) ∧
    (previous : Rat) * (1 - (call.time - opened.windowStart) / window) + current < limit.toNat

structure Counted (limit : UInt32) (window : Int) (s : State) : Prop where
  opened : (s.calls = [] ∧ s.counter = .create limit window) ∨
    Window limit window s.calls s.counter ∧ ∃ last ∈ s.calls, s.counter.windowStart ≤ last.time
  each : ∀ call ∈ s.calls, admittedIn s.calls call.opened.windowStart
    (call.opened.windowStart + window) ≤ limit.toNat
  interval : ∀ low, admittedIn s.calls low (low + window) ≤ 2 * limit.toNat
  justified : ∀ before call, before ++ [call] <+: s.calls → call.admitted = true →
    Justified limit window before call

/-- Time goes on, and it is later than the epoch. -/
def Forward (s : State) (now : Int) : Prop := 0 < now ∧ ∀ call ∈ s.calls, call.time ≤ now

section
variable {limit : UInt32} {window now : Int} {s : State}

section
variable (counted : Counted limit window s) (positive : 0 < window) (forward : Forward s now)
include counted positive forward

theorem Counted.advance :
    Window limit window s.calls (s.counter.advanceWindow now) ∧ (s.counter.advanceWindow now).windowStart ≤ now ∧
      now < (s.counter.advanceWindow now).windowStart + window ∧
      (2 * window ≤ now - s.counter.windowStart → (s.counter.advanceWindow now).previousCount = 0) := by
  rcases counted.opened with ⟨none,created⟩ | ⟨held,last,member,begun⟩
  · have later := forward.1
    have first : s.counter.advanceWindow now = ⟨limit,window,0,0,now,0⟩ := by
      simp [created,create,advanceWindow,positive]
    rw [first,none]
    refine ⟨?_,Int.le_refl now,by simp only; omega,fun _ => rfl⟩
    exact .fresh rfl rfl later positive rfl rfl (by simp) (by simp)
  · exact held.advance positive (Int.le_trans begun (forward.2 last member))

theorem Counted.window_step :
    Window limit window (s.calls ++ [⟨now,s.counter,(s.counter.allow now).1⟩]) (s.counter.allow now).2 := by
  obtain ⟨held,after,inside,_⟩ := counted.advance positive forward
  obtain ⟨sameLimit,size,same,previous,current⟩ := allow_counter s.counter now
  obtain ⟨preceding,present⟩ := held.append after inside (s.counter.allow now).1
  have below := admitted_below s.counter now
  exact {
    sameLimit := sameLimit.trans held.sameLimit
    size := size.trans held.size
    begun := by rw [same]; exact held.begun
    current := by rw [same,current,present]
    previous := by rw [same,previous,preceding]
    currentLe := by
      have least := held.currentLe
      rw [held.sameLimit] at below
      cases admits : (s.counter.allow now).1 with
      | false => simpa [current,admits] using least
      | true =>
        rw [current,admits]
        exact (below admits).1
    previousLe := by rw [previous]; exact held.previousLe
    before := by
      rw [same]
      intro call member
      rcases mem_append.mp member with earlier | last
      · exact held.before call earlier
      · simpa [mem_singleton.mp last] using inside
    apart := by
      rw [same]
      intro call member
      rcases mem_append.mp member with earlier | last
      · exact held.apart call earlier
      · left
        simp [mem_singleton.mp last,Call.opened] }

theorem justified_call (admits : (s.counter.allow now).1 = true) :
    Justified limit window s.calls ⟨now,s.counter,(s.counter.allow now).1⟩ := by
  obtain ⟨held,after,inside,idle⟩ := counted.advance positive forward
  have estimate := (admitted_below s.counter now admits).2
  have size : (0 : Rat) < window := Int.cast_pos.mpr positive
  -- inside the window the ratio is at most one, so the code does not cut it off
  have ratio : ¬((now - (s.counter.advanceWindow now).windowStart : Int) : Rat) / window > 1 := by
    apply not_lt.mpr
    apply (div_le_one size).mpr
    exact_mod_cast (by omega : now - (s.counter.advanceWindow now).windowStart ≤ window)
  simp only [weigh,held.size,held.sameLimit,if_neg ratio,held.previous,held.current] at estimate
  refine ⟨after,inside,held.previous,held.current,?_,?_⟩
  · intro long
    have zero := idle long
    simpa [Call.opened,zero] using held.previous.symm
  · simpa [Call.opened] using estimate

end

theorem counted_step {next : State} (positive : 0 < window) (counted : Counted limit window s)
    (forward : Forward s now) (steps : step s now = some next) :
    Counted limit window next := by
  rw [step_eq] at steps
  cases steps
  have held := counted.window_step positive forward
  obtain ⟨_,after,inside,_⟩ := counted.advance positive forward
  have same := (allow_counter s.counter now).2.2.1
  refine ⟨.inr ⟨held,_,mem_concat_self,?_⟩,?_,?_,?_⟩
  · simpa [same] using after
  · -- an earlier window has ended, so this call is not in it
    intro call member
    rcases held.apart call member with present | past
    · rw [present,← held.current]
      exact held.currentLe
    rw [same] at past
    rcases mem_append.mp member with earlier | last
    · simp only [admittedIn_append]
      rw [if_neg (by omega)]
      exact counted.each call earlier
    · simp only [mem_singleton.mp last,Call.opened] at past
      omega
  · -- an interval that has not ended yet begins within one window before the present one
    intro low
    by_cases ended : low + window ≤ now
    · simp only [admittedIn_append]
      rw [if_neg (by omega)]
      exact counted.interval low
    have cover := admittedIn_cover (s.calls ++ [⟨now,s.counter,(s.counter.allow now).1⟩]) low
      (s.counter.allow now).2.windowStart (low + window)
    have preceding : admittedIn (s.calls ++ [⟨now,s.counter,(s.counter.allow now).1⟩]) low
        (s.counter.allow now).2.windowStart ≤ limit.toNat := by
      apply Nat.le_trans _ held.previousLe
      rw [held.previous]
      apply admittedIn_mono
      intro call member range
      rw [same] at range ⊢
      omega
    have present : admittedIn (s.calls ++ [⟨now,s.counter,(s.counter.allow now).1⟩])
        (s.counter.allow now).2.windowStart (low + window) ≤ limit.toNat := by
      apply Nat.le_trans _ held.currentLe
      rw [held.current]
      apply admittedIn_mono
      intro call member range
      exact ⟨range.1,held.before call member⟩
    simp only
    omega
  · intro before call initial admitted
    rcases prefix_concat_iff.mp initial with whole | earlier
    · obtain ⟨rfl,rfl⟩ := append_inj' whole rfl |>.imp_right singleton_inj.mp
      exact justified_call counted positive forward admitted
    · exact counted.justified before call earlier admitted

theorem counted_start : Counted limit window (start limit window) where
  opened := .inl ⟨rfl,rfl⟩
  each := by simp [start]
  interval := by simp [start,admittedIn]
  justified := by
    intro before call initial
    have empty := prefix_nil.mp initial
    simp at empty

end

theorem forward_run (ordered : times.Pairwise (· ≤ ·)) (later : ∀ now ∈ times, 0 < now)
    (s : State) (past : ∀ now ∈ times, ∀ call ∈ s.calls, call.time ≤ now) :
    Along step Forward s times ∧ ∃ final, run step s times = some final ∧
      final.calls.map Call.time = s.calls.map Call.time ++ times := by
  induction times generalizing s with
  | nil => exact ⟨trivial,s,rfl,by simp⟩
  | cons now rest ih =>
    obtain ⟨first,ordered⟩ := pairwise_cons.mp ordered
    have tail := ih ordered (fun t member => later t (mem_cons_of_mem _ member))
      ⟨(s.counter.allow now).2,s.calls ++ [⟨now,s.counter,(s.counter.allow now).1⟩]⟩ (by
        intro t member call old
        rcases mem_append.mp old with earlier | last
        · exact past t (mem_cons_of_mem _ member) call earlier
        · simpa [mem_singleton.mp last] using first t member)
    obtain ⟨forward,final,runs,same⟩ := tail
    refine ⟨⟨⟨later now mem_cons_self,past now mem_cons_self⟩,?_⟩,final,runs,?_⟩
    · intro next steps
      cases steps
      exact forward
    · simpa using same

/-- At most the limit in one window of the counter, at most twice the limit in any interval of
the length of a window, and every admitted call was below the limit by the true counts. -/
theorem rate_bounded (limit : UInt32) (window : Int) (positive : 0 < window) (times : List Int)
    (ordered : times.Pairwise (· ≤ ·)) (later : ∀ now ∈ times, 0 < now) :
    ∃ final, run step (start limit window) times = some final ∧ final.calls.map Call.time = times ∧
      (∀ call ∈ final.calls, admittedIn final.calls call.opened.windowStart
        (call.opened.windowStart + window) ≤ limit.toNat) ∧
      (∀ low, admittedIn final.calls low (low + window) ≤ 2 * limit.toNat) ∧
      ∀ before call, before ++ [call] <+: final.calls → call.admitted = true →
        Justified limit window before call := by
  obtain ⟨forward,final,runs,recorded⟩ := forward_run ordered later (start limit window) (by simp [start])
  have counted := run_guarded step Forward (Counted limit window)
    (fun s now next counted forward steps => counted_step positive counted forward steps)
    counted_start forward runs
  exact ⟨final,runs,recorded,counted.each,counted.interval,counted.justified⟩

/-- Two requests in the first window, a rotation, and an idle time. -/
theorem rate_bounded_idle : ∃ final, run step (start 2 100) [1,50,60,190,290,700] = some final ∧
      final.calls.map Call.admitted = [true,true,false,true,true,true] ∧
      ∀ low, admittedIn final.calls low (low + 100) ≤ 4 := by
  obtain ⟨final,runs,_,_,interval,_⟩ := rate_bounded 2 100 (by decide) [1,50,60,190,290,700] (by decide) (by decide)
  obtain ⟨same,ran,admitted⟩ : ∃ s, run step (start 2 100) [1,50,60,190,290,700] = some s ∧
      s.calls.map Call.admitted = [true,true,false,true,true,true] := by
    decide +kernel
  cases runs.symm.trans ran
  exact ⟨final,runs,admitted,interval⟩

end ApexPipeline.SlidingWindowRate
