import ApexPipeline.SlidingWindowCounter

/-! The Lua script of `redis_rate_limiter.hpp` and `sliding_window.lua`, and how its decisions compare with those of
the counter in memory. A script runs at one moment, the time of the request. -/
namespace ApexPipeline.SlidingWindowScript
open Execution Option

/-- A key with its value and the time when it expires. -/
structure Entry where
  value : Nat
  expires : Option Nat
  deriving DecidableEq, Repr

/-- `lasting` says whether a key is still there at the very moment when it expires. -/
def Entry.live (lasting : Bool) (now : Nat) (e : Entry) : Bool :=
  match e.expires with
  | none => true
  | some time => if lasting then now ≤ time else now < time

structure Keys where
  cur : Option Entry
  prev : Option Entry
  info : Option Entry
  deriving DecidableEq, Repr

def Keys.empty : Keys := ⟨none,none,none⟩

def Keys.expire (lasting : Bool) (now : Nat) (k : Keys) : Keys :=
  ⟨k.cur.filter (Entry.live lasting now),k.prev.filter (Entry.live lasting now),
    k.info.filter (Entry.live lasting now)⟩

/-- `tonumber(redis.call('GET', key) or '0')`. -/
def get (key : Option Entry) : Nat := (key.map Entry.value).getD 0

/-- The local variables of the script, before the estimate. -/
structure Locals where
  curCount : Nat
  prevCount : Nat
  windowStart : Nat
  elapsed : Int
  deriving DecidableEq, Repr

/-- The script up to the estimate. `SET` takes away the expiry of a key. After one window the
previous count goes to its key, but `prev_count` stays what it was. -/
def openWindow (window now : Nat) (k : Keys) : Locals × Keys :=
  let curCount := get k.cur
  let prevCount := get k.prev
  let windowStart := get k.info
  let (windowStart,k) :=
    if windowStart = 0 then (now,{ k with info := some ⟨now,some (now + window * 3)⟩ })
    else (windowStart,k)
  let elapsed : Int := now - windowStart
  if elapsed ≥ window then
    let windowsPassed := ⌊(elapsed : Rat) / window⌋
    if windowsPassed = 1 then
      let windowStart := windowStart + window
      (⟨0,prevCount,windowStart,now - windowStart⟩,⟨some ⟨0,none⟩,some ⟨curCount,some (now + window * 2)⟩,
          some ⟨windowStart,some (now + window * 3)⟩⟩)
    else
      (⟨0,0,now,now - now⟩,⟨some ⟨0,none⟩,some ⟨0,some (now + window * 2)⟩,some ⟨now,some (now + window * 3)⟩⟩)
  else (⟨curCount,prevCount,windowStart,elapsed⟩,k)

structure Reply where
  allowed : Bool
  estimated : Int
  retryAfter : Int
  deriving DecidableEq, Repr

def slidingWindow (lasting : Bool) (limit window : Nat) (k : Keys) (now : Nat) : Reply × Keys :=
  let (l,k) := openWindow window now (k.expire lasting now)
  let estimate := weigh l.prevCount l.curCount l.elapsed window
  if estimate ≥ limit then (⟨false,⌊estimate⌋,max 0 (window - l.elapsed)⟩,k)
  else
    -- `INCR`, then `PEXPIRE`
    (⟨true,⌊estimate⌋,0⟩,{ k with cur := some ⟨get k.cur + 1,some (now + window * 2)⟩ })

/-- The ticks of `steady_clock` in a millisecond. -/
def ticks : Int := 1000000

def scriptDecisions (lasting : Bool) (limit window : Nat) : Keys → List Nat → List Bool
  | _, [] => []
  | k, now :: rest =>
    let (reply,k) := slidingWindow lasting limit window k now
    reply.allowed :: scriptDecisions lasting limit window k rest

def counterDecisions : SlidingWindowCounter → List Nat → List Bool
  | _, [] => []
  | c, now :: rest =>
    let (allowed,c) := c.allow (now * ticks)
    allowed :: counterDecisions c rest

def step (c : SlidingWindowCounter) (now : Nat) : Option SlidingWindowCounter :=
  some (c.allow (now * ticks)).2

def Rotates (c : SlidingWindowCounter) (now : Int) : Prop :=
  c.windowStart ≠ 0 ∧ (now - c.windowStart).tdiv c.windowSize = 1

instance (c : SlidingWindowCounter) (now : Int) : Decidable (Rotates c now) :=
  inferInstanceAs (Decidable (_ ∧ _))

/-- When one window has passed, the count of that window and the count of the window before
it lead to the same decision. -/
def SameSide (c : SlidingWindowCounter) (now : Nat) : Prop :=
  Rotates c (now * ticks) →
    let elapsed := now * ticks - (c.windowStart + c.windowSize)
    (weigh c.previousCount.toNat 0 elapsed c.windowSize ≥ c.limit.toNat ↔
      weigh c.currentCount.toNat 0 elapsed c.windowSize ≥ c.limit.toNat)

instance (c : SlidingWindowCounter) (now : Nat) : Decidable (SameSide c now) :=
  inferInstanceAs (Decidable (_ → _))

/-- A key holds a count until some time between `low` and `high`. A key without expiry and
a missing key hold nothing. -/
def Holds (key : Option Entry) (count low high : Nat) : Prop :=
  match key with
  | none => count = 0
  | some ⟨value,none⟩ => value = 0 ∧ count = 0
  | some ⟨value,some time⟩ => value = count ∧ low ≤ time ∧ time < high

namespace Holds

variable (held : Holds key count low high) (lasting : Bool)
include held

theorem early (before : now < low) :
    key.filter (Entry.live lasting now) = key ∧ get key = count := by
  match key, held with
  | none, none' => exact ⟨rfl,none'.symm⟩
  | some ⟨value,none⟩, ⟨zero,none'⟩ => exact ⟨by simp [Entry.live],zero.trans none'.symm⟩
  | some ⟨value,some time⟩, ⟨same,low,_⟩ =>
    have live : Entry.live lasting now ⟨value,some time⟩ = true := by
      cases lasting with
      | true | false => simp [Entry.live]; omega
    exact ⟨by simp [live],same⟩

theorem late (after : high ≤ now)
    (low' high' : Nat) : Holds (key.filter (Entry.live lasting now)) 0 low' high' ∧
      get (key.filter (Entry.live lasting now)) = 0 := by
  match key, held with
  | none, _ => exact ⟨rfl,rfl⟩
  | some ⟨value,none⟩, ⟨zero,_⟩ =>
    subst zero
    exact ⟨⟨rfl,rfl⟩,rfl⟩
  | some ⟨value,some time⟩, ⟨_,_,high⟩ =>
    have gone : Entry.live lasting now ⟨value,some time⟩ = false := by
      cases lasting with
      | true | false => simp [Entry.live]; omega
    rw [filter_some,gone]
    exact ⟨rfl,rfl⟩

end Holds

/-- The start of the window is kept for as long as two windows after it. -/
def Lasts (window start : Nat) (key : Option Entry) : Prop :=
  ∃ time, key = some ⟨start,some time⟩ ∧ start + window * 3 ≤ time

theorem Lasts.get (lasts : Lasts window start key) : get key = start := by
  obtain ⟨time,rfl,_⟩ := lasts
  rfl

theorem Lasts.live (lasts : Lasts window start key) (lasting : Bool) (early : now < start + window * 3) :
    key.filter (Entry.live lasting now) = key := by
  obtain ⟨time,rfl,late⟩ := lasts
  have live : Entry.live lasting now ⟨start,some time⟩ = true := by
    cases lasting with
    | true | false => simp [Entry.live]; omega
  rw [filter_some,if_pos live]

/-- The keys after a request in the window that begins at `start`, as the counter has it. Every
key outlives the window and the next one; the counts are gone before the window's start is. -/
structure Tracks (window start : Nat) (k : Keys) (c : SlidingWindowCounter) : Prop where
  begun : 0 < start
  same : c.windowStart = start * ticks
  size : c.windowSize = window * ticks
  cur : Holds k.cur c.currentCount.toNat (start + window * 2) (start + window * 3)
  prev : Holds k.prev c.previousCount.toNat (start + window * 2) (start + window * 3)
  info : ∃ time, k.info = some ⟨start,some time⟩ ∧ start + window * 3 ≤ time

namespace Tracks
variable {window start now : Nat} {k : Keys} {c : SlidingWindowCounter}

variable (tracks : Tracks window start k c)
include tracks

theorem started : c.windowStart ≠ 0 := by
  have begun := tracks.begun
  have same := tracks.same
  unfold ticks at same
  omega

theorem rotates_iff (positive : 0 < window) (forward : start ≤ now) :
    Rotates c (now * ticks) ↔ start + window ≤ now ∧ now < start + window * 2 := by
  have size : 0 < c.windowSize := by
    rw [tracks.size]
    unfold ticks
    omega
  have elapsed : 0 ≤ now * ticks - c.windowStart := by
    rw [tracks.same]
    unfold ticks
    omega
  unfold Rotates
  rw [tdiv_eq_one _ size elapsed,tracks.same,tracks.size]
  simp only [tracks.same ▸ tracks.started,ne_eq,not_false_eq_true,true_and]
  unfold ticks
  omega

theorem advance_inside (inside : now < start + window) :
    c.advanceWindow (now * ticks) = c := by
  have small : now * ticks - c.windowStart < c.windowSize := by
    rw [tracks.same,tracks.size]
    unfold ticks
    omega
  unfold SlidingWindowCounter.advanceWindow
  rw [if_neg tracks.started]
  exact if_pos small

theorem advance_past (positive : 0 < window)
    (past : start + window ≤ now) : c.advanceWindow (now * ticks) =
      if now < start + window * 2 then
        { c with
          previousCount := c.currentCount
          currentCount := 0
          windowStart := c.windowStart + c.windowSize }
      else { c with previousCount := 0, currentCount := 0, windowStart := now * ticks } := by
  have large : ¬now * ticks - c.windowStart < c.windowSize := by
    rw [tracks.same,tracks.size]
    unfold ticks
    omega
  have one : (now * ticks - c.windowStart).tdiv c.windowSize = 1 ↔ now < start + window * 2 := by
    have rotates := tracks.rotates_iff positive (Nat.le_trans (Nat.le_add_right _ _) past)
    unfold Rotates at rotates
    simpa [tracks.started,past] using rotates
  unfold SlidingWindowCounter.advanceWindow
  rw [if_neg tracks.started]
  simp only [if_neg large,one]

end Tracks

structure Opened (window now : Nat) (c : SlidingWindowCounter) (l : Locals) (k : Keys) (start : Nat) : Prop where
  tracks : Tracks window start k (c.advanceWindow (now * ticks))
  within : start ≤ now ∧ now < start + window
  elapsed : l.elapsed = now - start
  cur : l.curCount = (c.advanceWindow (now * ticks)).currentCount.toNat
  stored : get k.cur = (c.advanceWindow (now * ticks)).currentCount.toNat
  prev : l.prevCount = if Rotates c (now * ticks) then c.previousCount.toNat
    else (c.advanceWindow (now * ticks)).previousCount.toNat
  rotated : Rotates c (now * ticks) → c.advanceWindow (now * ticks) =
    { c with
      previousCount := c.currentCount
      currentCount := 0
      windowStart := c.windowStart + c.windowSize }

section
variable {window start now : Nat} {k : Keys} {c : SlidingWindowCounter}

theorem Tracks.expire_early (tracks : Tracks window start k c) (lasting : Bool)
    (early : now < start + window * 2) : k.expire lasting now = k := by
  simp only [Keys.expire,(tracks.cur.early lasting early).1,(tracks.prev.early lasting early).1,
    Lasts.live tracks.info lasting (by omega : now < start + window * 3)]

theorem Tracks.get_info (tracks : Tracks window start k c) : get k.info = start :=
  Lasts.get tracks.info

section
variable (tracks : Tracks window start k c) (lasting : Bool) (positive : 0 < window)
include tracks positive

theorem opened_inside (forward : start ≤ now) (inside : now < start + window) :
    ∃ l k', openWindow window now (k.expire lasting now) = (l,k') ∧ Opened window now c l k' start := by
  have begun := tracks.begun
  have early : now < start + window * 2 := by omega
  rw [tracks.expire_early lasting early]
  have small : ¬((now : Int) - start ≥ window) := by omega
  refine ⟨⟨get k.cur,get k.prev,start,now - start⟩,k,?_,?_⟩
  · simp only [openWindow,tracks.get_info,if_neg (Nat.ne_of_gt begun),if_neg small]
  · have advance := tracks.advance_inside inside
    have still : ¬Rotates c (now * ticks) := by
      rw [tracks.rotates_iff positive forward]
      omega
    exact ⟨advance.symm ▸ tracks,⟨forward,inside⟩,rfl,by rw [advance]; exact (tracks.cur.early lasting early).2,
      by rw [advance]; exact (tracks.cur.early lasting early).2,
      by rw [if_neg still,advance]; exact (tracks.prev.early lasting early).2,
      fun rotates => absurd rotates still⟩

theorem opened_rotating (past : start + window ≤ now) (early : now < start + window * 2) :
    ∃ l k', openWindow window now (k.expire lasting now) = (l,k') ∧ Opened window now c l k' (start + window) := by
  have begun := tracks.begun
  rw [tracks.expire_early lasting early]
  have large : (now : Int) - start ≥ window := by omega
  have one : ⌊(((now : Int) - start : Int) : Rat) / window⌋ = 1 :=
    (floor_div_eq_one _ window (by omega)).mpr (by omega)
  have advance := tracks.advance_past positive past
  rw [if_pos early] at advance
  refine ⟨⟨0,get k.prev,start + window,now - (start + window : Nat)⟩,
    ⟨some ⟨0,none⟩,some ⟨get k.cur,some (now + window * 2)⟩,some ⟨start + window,some (now + window * 3)⟩⟩,?_,?_⟩
  · simp only [openWindow,tracks.get_info,if_neg (Nat.ne_of_gt begun),if_pos large]
    exact if_pos one
  · have rotates := (tracks.rotates_iff positive (by omega)).mpr ⟨past,early⟩
    refine ⟨?_,⟨past,by omega⟩,rfl,?_,?_,?_,fun _ => advance⟩
    · rw [advance]
      refine ⟨by omega,?_,tracks.size,⟨rfl,rfl⟩,?_,_,rfl,by omega⟩
      · simp only [tracks.same,tracks.size]
        push_cast
        exact (Int.add_mul ..).symm
      · exact ⟨(tracks.cur.early lasting early).2,by omega,by omega⟩
    · rw [advance]
      rfl
    · rw [advance]
      rfl
    · rw [if_pos rotates]
      exact (tracks.prev.early lasting early).2

theorem opened_reset (past : start + window * 2 ≤ now) :
    ∃ l k', openWindow window now (k.expire lasting now) = (l,k') ∧ Opened window now c l k' now := by
  have begun := tracks.begun
  have advance := tracks.advance_past positive (by omega : start + window ≤ now)
  rw [if_neg (by omega)] at advance
  have still : ¬Rotates c (now * ticks) := by
    rw [tracks.rotates_iff positive (by omega)]
    omega
  obtain ⟨time,info,outlives⟩ := tracks.info
  -- whatever the two counts hold now, the counter has forgotten it
  have opened : ∀ l k', l.curCount = 0 → l.prevCount = 0 → l.elapsed = (now : Int) - now →
      Holds k'.cur 0 (now + window * 2) (now + window * 3) → get k'.cur = 0 →
      Holds k'.prev 0 (now + window * 2) (now + window * 3) →
      k'.info = some ⟨now,some (now + window * 3)⟩ → Opened window now c l k' now := by
    intro l k' cur prev elapsed heldCur stored heldPrev info
    refine ⟨?_,⟨Nat.le_refl _,by omega⟩,elapsed,?_,?_,?_,fun rotates => absurd rotates still⟩
    · rw [advance]
      exact ⟨by omega,rfl,tracks.size,heldCur,heldPrev,_,info,Nat.le_refl _⟩
    · rw [advance]
      exact cur
    · rw [advance]
      exact stored
    · rw [if_neg still,advance]
      exact prev
  cases live : Entry.live lasting now ⟨start,some time⟩ with
  | true =>
    have kept : (k.expire lasting now).info = some ⟨start,some time⟩ := by
      simp only [Keys.expire,info,filter_some,live,if_true]
    have large : (now : Int) - start ≥ window := by omega
    have more : ¬⌊(((now : Int) - start : Int) : Rat) / window⌋ = 1 := by
      intro one
      have bounds := (floor_div_eq_one _ window (by omega)).mp one
      omega
    have found : get (k.expire lasting now).info = start := by rw [kept]; rfl
    refine ⟨_,_,?_,opened ⟨0,0,now,now - now⟩ ⟨some ⟨0,none⟩,some ⟨0,some (now + window * 2)⟩,
      some ⟨now,some (now + window * 3)⟩⟩ rfl rfl rfl ⟨rfl,rfl⟩ rfl ⟨rfl,by omega,by omega⟩ rfl⟩
    simp only [openWindow,found,if_neg (Nat.ne_of_gt begun),if_pos large,if_neg more]
  | false =>
    have late : start + window * 3 ≤ now := by
      cases lasting with
      | true | false =>
        simp [Entry.live] at live
        omega
    have gone : (k.expire lasting now).info = none := by
      simp [Keys.expire,info,filter_some,live]
    have cur := tracks.cur.late lasting late (now + window * 2) (now + window * 3)
    have prev := tracks.prev.late lasting late (now + window * 2) (now + window * 3)
    have found : get (k.expire lasting now).info = 0 := by rw [gone]; rfl
    have small : ¬((now : Int) - now ≥ window) := by omega
    refine ⟨_,_,?_,opened ⟨get (k.expire lasting now).cur,get (k.expire lasting now).prev,now,now - now⟩
      { k.expire lasting now with info := some ⟨now,some (now + window * 3)⟩ } cur.2 prev.2 rfl cur.1
      cur.2 prev.1 rfl⟩
    simp only [openWindow,found,if_true,if_neg small]

end

theorem opened_first (lasting : Bool) (positive : 0 < window) (later : 0 < now)
    (epoch : c.windowStart = 0) (cur : c.currentCount = 0) (prev : c.previousCount = 0)
    (size : c.windowSize = window * ticks) :
    ∃ l k', openWindow window now (Keys.empty.expire lasting now) = (l,k') ∧ Opened window now c l k' now := by
  have advance : c.advanceWindow (now * ticks) = { c with windowStart := now * ticks } := by
    unfold SlidingWindowCounter.advanceWindow
    rw [if_pos epoch]
  have still : ¬Rotates c (now * ticks) := fun rotates => rotates.1 epoch
  have small : ¬((now : Int) - now ≥ window) := by omega
  refine ⟨⟨0,0,now,now - now⟩,⟨none,none,some ⟨now,some (now + window * 3)⟩⟩,?_,?_,
    ⟨Nat.le_refl _,by omega⟩,rfl,?_,?_,?_,fun rotates => absurd rotates still⟩
  · simp only [openWindow,Keys.expire,Keys.empty,filter_none,get,map_none,getD_none,if_true,if_neg small]
  · rw [advance]
    exact ⟨later,rfl,size,congrArg UInt32.toNat cur,congrArg UInt32.toNat prev,_,rfl,Nat.le_refl _⟩
  · rw [advance]
    exact (congrArg UInt32.toNat cur).symm
  · rw [advance]
    exact (congrArg UInt32.toNat cur).symm
  · rw [if_neg still,advance]
    exact (congrArg UInt32.toNat prev).symm

end

inductive Follows (window last : Nat) : Keys → SlidingWindowCounter → Prop
  | fresh : c.windowStart = 0 → c.currentCount = 0 → c.previousCount = 0 →
      c.windowSize = window * ticks → Follows window last .empty c
  | tracks (start : Nat) : Tracks window start k c → start ≤ last → Follows window last k c

section
variable {window last now : Nat} {k : Keys} {c : SlidingWindowCounter}

theorem opened (follows : Follows window last k c) (lasting : Bool) (positive : 0 < window)
    (forward : last ≤ now) (later : 0 < now) :
    ∃ l k' start, openWindow window now (k.expire lasting now) = (l,k') ∧ Opened window now c l k' start := by
  cases follows with
  | fresh epoch cur prev size =>
    obtain ⟨l,k',opens,opened⟩ := opened_first lasting positive later epoch cur prev size
    exact ⟨l,k',now,opens,opened⟩
  | tracks start tracks begun =>
    rcases Nat.lt_or_ge now (start + window) with inside | past
    · obtain ⟨l,k',opens,opened⟩ := opened_inside tracks lasting positive (Nat.le_trans begun forward) inside
      exact ⟨l,k',start,opens,opened⟩
    rcases Nat.lt_or_ge now (start + window * 2) with one | more
    · obtain ⟨l,k',opens,opened⟩ := opened_rotating tracks lasting positive past one
      exact ⟨l,k',start + window,opens,opened⟩
    · obtain ⟨l,k',opens,opened⟩ := opened_reset tracks lasting positive more
      exact ⟨l,k',now,opens,opened⟩

theorem advanceWindow_limit (c : SlidingWindowCounter) (now : Int) : (c.advanceWindow now).limit = c.limit := by
  unfold SlidingWindowCounter.advanceWindow
  split
  · rfl
  simp only
  split
  · rfl
  · split
    · rfl
    · rfl

theorem Opened.sameSide_iff {start : Nat}
    (opened : Opened window now c l k' start) (advanced : c.advanceWindow (now * ticks) = adv) :
    SameSide c now ↔ (weigh l.prevCount l.curCount l.elapsed window ≥ c.limit.toNat ↔
      weigh adv.previousCount.toNat adv.currentCount.toNat (now * ticks - adv.windowStart)
        adv.windowSize ≥ c.limit.toNat) := by
  have tracks := opened.tracks
  have cur := opened.cur
  have prev := opened.prev
  rw [advanced] at tracks cur prev
  have scaled : ∀ previous current, weigh previous current (now * ticks - adv.windowStart)
      adv.windowSize = weigh previous current l.elapsed window := by
    intro previous current
    rw [opened.elapsed,tracks.same,tracks.size,← Int.sub_mul]
    exact weigh_scaled _ _ _ _ (by decide)
  by_cases rotates : Rotates c (now * ticks)
  · have turned := advanced.symm.trans (opened.rotated rotates)
    rw [if_pos rotates] at prev
    subst turned
    have zero : (0 : UInt32).toNat = 0 := rfl
    simp only [zero] at cur scaled ⊢
    rw [scaled,prev,cur]
    simp only [SameSide,rotates,true_implies,scaled]
  · rw [if_neg rotates] at prev
    rw [scaled,prev,cur]
    simp [SameSide,rotates]

theorem decides (follows : Follows window last k c) (lasting : Bool) (positive : 0 < window)
    (forward : last ≤ now) (later : 0 < now) :
    ((slidingWindow lasting c.limit.toNat window k now).1.allowed = (c.allow (now * ticks)).1 ↔ SameSide c now) ∧
    ((slidingWindow lasting c.limit.toNat window k now).1.allowed = (c.allow (now * ticks)).1 →
      Follows window now (slidingWindow lasting c.limit.toNat window k now).2 (c.allow (now * ticks)).2) ∧
    (c.allow (now * ticks)).2.limit = c.limit := by
  obtain ⟨l,k',start,opens,opened⟩ := opened follows lasting positive forward later
  obtain ⟨adv,advanced⟩ : ∃ adv, c.advanceWindow (now * ticks) = adv := ⟨_,rfl⟩
  have side := opened.sameSide_iff advanced
  have tracks := opened.tracks
  have stored := opened.stored
  have limit := advanceWindow_limit c (now * ticks)
  rw [advanced] at tracks stored limit
  have within := opened.within
  simp only [slidingWindow,opens,SlidingWindowCounter.allow,advanced,limit]
  by_cases large : weigh l.prevCount l.curCount l.elapsed window ≥ c.limit.toNat
  · by_cases also : weigh adv.previousCount.toNat adv.currentCount.toNat
        (now * ticks - adv.windowStart) adv.windowSize ≥ c.limit.toNat
    · rw [if_pos large,if_pos also]
      refine ⟨⟨fun _ => side.mpr ⟨fun _ => also,fun _ => large⟩,fun _ => rfl⟩,?_,limit⟩
      exact fun _ => .tracks start tracks within.1
    · rw [if_pos large,if_neg also]
      refine ⟨⟨by rintro ⟨⟩,fun same => absurd ((side.mp same).mp large) also⟩,by rintro ⟨⟩,rfl⟩
  · by_cases also : weigh adv.previousCount.toNat adv.currentCount.toNat
        (now * ticks - adv.windowStart) adv.windowSize ≥ c.limit.toNat
    · rw [if_neg large,if_pos also]
      refine ⟨⟨by rintro ⟨⟩,fun same => absurd ((side.mp same).mpr also) large⟩,by rintro ⟨⟩,limit⟩
    · rw [if_neg large,if_neg also]
      have below : adv.currentCount.toNat < c.limit.toNat := by
        have least := le_weigh adv.previousCount.toNat adv.currentCount.toNat
          (now * ticks - adv.windowStart) adv.windowSize
        exact_mod_cast lt_of_le_of_lt least (not_le.mp also)
      have counted : (adv.currentCount + 1).toNat = adv.currentCount.toNat + 1 := by
        have word := c.limit.toNat_lt
        rw [UInt32.toNat_add,show (1 : UInt32).toNat = 1 from rfl]
        exact Nat.mod_eq_of_lt (by omega)
      refine ⟨⟨fun _ => side.mpr ⟨fun h => absurd h large,fun h => absurd h also⟩,fun _ => rfl⟩,?_,rfl⟩
      intro _
      refine .tracks start ⟨tracks.begun,tracks.same,tracks.size,?_,tracks.prev,tracks.info⟩ within.1
      exact ⟨by rw [stored,counted],by omega,by omega⟩

end

theorem decisions_iff (lasting : Bool) (positive : 0 < window)
    (last : Nat) (k : Keys) (c : SlidingWindowCounter) (follows : Follows window last k c)
    (forward : ∀ now ∈ times, last ≤ now) (ordered : times.Pairwise (· ≤ ·))
    (later : ∀ now ∈ times, 0 < now) :
    scriptDecisions lasting c.limit.toNat window k times = counterDecisions c times ↔
      Along step SameSide c times := by
  induction times generalizing last k c with
  | nil => exact ⟨fun _ => trivial,fun _ => rfl⟩
  | cons now rest ih =>
    obtain ⟨first,ordered⟩ := List.pairwise_cons.mp ordered
    obtain ⟨same,keeps,limit⟩ := decides follows lasting positive (forward now List.mem_cons_self)
      (later now List.mem_cons_self)
    simp only [scriptDecisions,counterDecisions,List.cons.injEq,Along,step,Option.some.injEq,forall_eq']
    rw [same]
    refine and_congr_right fun side => ?_
    have tail := ih now _ _ (keeps (same.mpr side)) first ordered
      (fun t member => later t (List.mem_cons_of_mem _ member))
    rwa [limit] at tail

/-- For requests at non-decreasing positive times, the script and the counter accept the same
ones exactly when no rotation takes the two counts to different sides of the limit. -/
theorem same_decisions_iff (lasting : Bool) (limit : UInt32) (window : Nat) (positive : 0 < window)
    (times : List Nat) (ordered : times.Pairwise (· ≤ ·)) (later : ∀ now ∈ times, 0 < now) :
    scriptDecisions lasting limit.toNat window .empty times =
        counterDecisions (.create limit (window * ticks)) times ↔
      Along step SameSide (.create limit (window * ticks)) times := by
  have size : (SlidingWindowCounter.create limit (window * ticks)).windowSize = window * ticks := by
    have some' : (window : Int) * ticks > 0 := by
      unfold ticks
      omega
    exact if_pos some'
  exact decisions_iff lasting positive 0 .empty (.create limit (window * ticks))
    (.fresh rfl rfl rfl size) (fun _ _ => Nat.zero_le _) ordered later

/-- Three windows, with a rotation that both decide alike. -/
theorem same_decisions_iff_rotating : scriptDecisions false 2 100 .empty [1,50,60,190,290,700] =
        counterDecisions (.create 2 (100 * ticks)) [1,50,60,190,290,700] ∧
      counterDecisions (.create 2 (100 * ticks)) [1,50,60,190,290,700] = [true,true,false,true,true,true] :=
  ⟨(same_decisions_iff false 2 100 (by decide) [1,50,60,190,290,700] (by decide) (by decide)).mpr
    (by decide +kernel),by decide +kernel⟩

/-- One request in each of two windows under a limit of one: the counter rejects the second, the
script accepts it. -/
theorem script_forgets_window : scriptDecisions false 1 100 .empty [1,101] = [true,true] ∧
      counterDecisions (.create 1 (100 * ticks)) [1,101] = [true,false] := by
  decide +kernel

def request (lasting : Bool) (limit window : Nat) (k : Keys) (now : Nat) : Option Keys :=
  some (slidingWindow lasting limit window k now).2

def Begun (window : Nat) (k : Keys) : Prop :=
  k.info = none ∨ ∃ start, 0 < start ∧ Lasts window start k.info

theorem Begun.expire (begun : Begun window k) (lasting : Bool) (now : Nat) :
    Begun window (k.expire lasting now) := by
  rcases begun with none' | ⟨start,positive,time,info,outlives⟩
  · exact .inl (by simp [Keys.expire,none'])
  · cases live : Entry.live lasting now ⟨start,some time⟩ with
    | true => exact .inr ⟨start,positive,time,by simp [Keys.expire,info,live],outlives⟩
    | false => exact .inl (by simp [Keys.expire,info,live])

section
variable (begun : Begun window k) (positive : 0 < window) (later : 0 < now)
include begun positive later

theorem openWindow_window
    (opens : openWindow window now k = (l,k')) : 0 < l.windowStart ∧ l.elapsed = now - l.windowStart ∧
      l.elapsed < window ∧ Lasts window l.windowStart k'.info := by
  -- the script has a start, either the one it read or the time of the request
  obtain ⟨start,info,read,started,lasts⟩ : ∃ start info,
      (if get k.info = 0 then (now,{ k with info := some ⟨now,some (now + window * 3)⟩ }) else (get k.info,k)) =
        (start,{ k with info := info }) ∧ 0 < start ∧ Lasts window start info := by
    rcases begun with none' | ⟨start,positive,lasts⟩
    · exact ⟨now,_,by simp [none',get],later,_,rfl,Nat.le_refl _⟩
    · exact ⟨start,k.info,by rw [lasts.get,if_neg (Nat.ne_of_gt positive)],positive,lasts⟩
  simp only [openWindow,read] at opens
  split at opens
  · rename_i past
    split at opens
    · rename_i one
      obtain ⟨low,high⟩ := (floor_div_eq_one _ window (by omega)).mp one
      cases opens
      exact ⟨Nat.add_pos_left started _,rfl,by dsimp only; omega,_,rfl,by dsimp only; omega⟩
    · cases opens
      exact ⟨later,rfl,by dsimp only; omega,_,rfl,Nat.le_refl _⟩
  · rename_i inside
    cases opens
    exact ⟨started,rfl,by dsimp only; omega,lasts⟩

theorem Begun.slidingWindow :
    Begun window (slidingWindow lasting limit window k now).2 := by
  obtain ⟨started,_,_,lasts⟩ := openWindow_window (begun.expire lasting now) positive later rfl
  simp only [SlidingWindowScript.slidingWindow]
  split
  all_goals exact .inr ⟨_,started,lasts⟩

end

theorem slidingWindow_at_end (lasts : Lasts window start k.info) (started : 0 < start) (positive : 0 < window) :
    (slidingWindow lasting limit window k (start + window)).1.allowed = true ↔
      get (k.expire lasting (start + window)).prev < limit := by
  have found : get (k.expire lasting (start + window)).info = start := by
    simp only [Keys.expire,lasts.live lasting (by omega : start + window < start + window * 3),lasts.get]
  have whole : ((start + window : Nat) : Int) - start ≥ window := by omega
  have one : ⌊((((start + window : Nat) : Int) - start : Int) : Rat) / window⌋ = 1 :=
    (floor_div_eq_one _ window (by omega)).mpr (by omega)
  simp only [slidingWindow,openWindow,found,if_neg (Nat.ne_of_gt started),if_pos whole,one,if_true]
  have none' : weigh (get (k.expire lasting (start + window)).prev) 0
      (((start + window : Nat) : Int) - ((start + window : Nat) : Int)) window =
        get (k.expire lasting (start + window)).prev := by
    rw [Int.sub_self]
    norm_num [weigh]
  rw [none']
  split
  · rename_i full
    simpa using full
  · rename_i free
    simpa using free

/-- A rejected request that comes back after `retry_after` is accepted exactly if the count kept
of the window before is below the limit: at that moment this count is weighed in full. -/
theorem retry_accepted_iff (lasting : Bool) (limit window : Nat) (positive : 0 < window) (times : List Nat)
    (later : ∀ now ∈ times, 0 < now) (k : Keys) (runs : run (request lasting limit window) .empty times = some k)
    (now : Nat) (present : 0 < now) (reply : Reply) (kept : Keys)
    (replies : slidingWindow lasting limit window k now = (reply,kept)) (rejected : reply.allowed = false)
    (retry : Nat) (waited : (retry : Int) = now + reply.retryAfter) :
    (slidingWindow lasting limit window kept retry).1.allowed = true ↔ get (kept.expire lasting retry).prev < limit := by
  have begun : Begun window k :=
    run_guarded (request lasting limit window) (fun _ now => 0 < now) (Begun window)
      (fun k now next begun later requested => by cases requested; exact begun.slidingWindow positive later)
      (.inl rfl) (Along.of_forall fun _ now member => later now member) runs
  obtain ⟨⟨l,opened⟩,opens⟩ : ∃ after, openWindow window now (k.expire lasting now) = after := ⟨_,rfl⟩
  obtain ⟨started,elapsed,inside,lasts⟩ := openWindow_window (begun.expire lasting now) positive present opens
  simp only [slidingWindow,opens] at replies
  split at replies
  · cases replies
    have ended : retry = l.windowStart + window := by
      dsimp only at waited
      omega
    rw [ended]
    exact slidingWindow_at_end lasts started positive
  · cases replies
    cases rejected

/-- One request fills the window, the next is told to wait until its end. -/
theorem retry_accepted_iff_first_window : ∃ k, run (request false 1 100) .empty [1] = some k ∧
      (slidingWindow false 1 100 k 40).1 = ⟨false,1,61⟩ ∧
      (slidingWindow false 1 100 (slidingWindow false 1 100 k 40).2 101).1.allowed = true := by
  refine exists_final (by decide +kernel) fun runs => ⟨by decide +kernel,?_⟩
  exact (retry_accepted_iff false 1 100 (by decide) [1] (by decide) _ runs 40 (by decide) _ _ rfl
    (by decide +kernel) 101 (by decide +kernel)).mpr (by decide +kernel)

/-- One request in each of two windows; the third is told to come back after 51 ms, and is rejected
again. -/
theorem retry_rejected_again : ∃ k, run (request false 1 100) .empty [1,101] = some k ∧
      (slidingWindow false 1 100 k 150).1 = ⟨false,1,51⟩ ∧
      (slidingWindow false 1 100 (slidingWindow false 1 100 k 150).2 201).1.allowed = false := by
  decide +kernel

end ApexPipeline.SlidingWindowScript
