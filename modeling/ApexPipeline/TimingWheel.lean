import ApexPipeline.IntrusiveList
import ApexPipeline.MathUtils

/-! The timing wheel of `timing_wheel.cpp`. Entries live on a heap and are linked into one intrusive list for each
slot; `entries` finds them by id, and ids are recycled. Addresses are never reused, so they name entries for good.
Ticks and ids are not reduced modulo `2^64`, so deadlines and the number of ids stay below that: with a tick every
millisecond that is for more than 500 million years. -/
namespace ApexPipeline
open IntrusiveList

/-- `undefined` is a null or dangling pointer, or an index out of bounds. -/
inductive WheelFault where
  | outOfRange | undefined
  deriving DecidableEq, Repr

/-- The fields of `Entry` besides its links. -/
structure WheelEntry where
  id : Nat
  deadlineTick : Nat
  cancelled : Bool
  deriving DecidableEq, Repr

/-- `freeIds` is the vector `free_ids_` from its back on; addresses below `allocated`
have been handed out. -/
structure TimingWheel where
  numSlots : Nat
  power : ∃ k, k ≤ 63 ∧ numSlots = 2^k
  heap : Memory WheelEntry
  allocated : Nat
  slots : Nat → Option Nat
  entries : List (Option Nat)
  freeIds : List Nat
  nextId : Nat
  activeCount : Nat
  currentTick : Nat

namespace TimingWheel

/-- `none` is the `overflow_error` of the constructor. -/
def create (requested : Nat) (word : requested < 2^64) : Option TimingWheel :=
  let wanted := if requested < 1 then 1 else requested
  let numSlots := MathUtils.nextPowerOf2 wanted
  if nonzero : numSlots = 0 then none
  else some {
    numSlots := numSlots
    power := MathUtils.nextPowerOf2_power word nonzero
    heap := fun _ => none
    allocated := 0
    slots := fun _ => none
    entries := []
    freeIds := []
    nextId := 1
    activeCount := 0
    currentTick := 0 }

def mask (w : TimingWheel) : Nat := w.numSlots - 1

def slotIndex (w : TimingWheel) (tick : Nat) : Nat := tick &&& w.mask

/-- `entries_[id]`, where an id beyond the vector finds nothing. -/
def lookup (w : TimingWheel) (id : Nat) : Option Nat := (w.entries[id]?).join

def entryAt (w : TimingWheel) (e : Nat) : Option WheelEntry := (w.heap e).map Node.payload

def computeDeadline (w : TimingWheel) (ticksFromNow : Nat) : Nat :=
  if ticksFromNow = 0 then w.currentTick else w.currentTick + ticksFromNow

def insertEntry (w : TimingWheel) (e slot : Nat) : Except WheelFault TimingWheel :=
  match IntrusiveList.insert w.heap (w.slots slot) e with
  | some (heap,head) => .ok { w with heap := heap, slots := Function.update w.slots slot head }
  | none => .error .undefined

def removeEntry (w : TimingWheel) (e slot : Nat) : Except WheelFault TimingWheel :=
  match IntrusiveList.remove w.heap (w.slots slot) e with
  | some (heap,head) => .ok { w with heap := heap, slots := Function.update w.slots slot head }
  | none => .error .undefined

/-- A recycled id, or a new one for which `entries_` grows. -/
def takeId (w : TimingWheel) : Nat × TimingWheel :=
  match w.freeIds with
  | id :: rest => (id,{ w with freeIds := rest })
  | [] => (w.nextId,{ w with
      nextId := w.nextId + 1
      entries := w.entries ++ List.replicate (w.nextId + 1 - w.entries.length) none })

/-- `new Entry()`, with its fields set. -/
def newEntry (w : TimingWheel) (entry : WheelEntry) : TimingWheel :=
  { w with
    heap := Function.update w.heap w.allocated (some ⟨entry,none,none⟩)
    allocated := w.allocated + 1 }

/-- `entries_[id] = ptr`. -/
def register (w : TimingWheel) (id : Nat) (ptr : Option Nat) : Except WheelFault TimingWheel :=
  if id < w.entries.length then .ok { w with entries := w.entries.set id ptr }
  else .error .undefined

def schedule (w : TimingWheel) (ticksFromNow : Nat) : Except WheelFault (Nat × TimingWheel) :=
  if w.numSlots ≤ ticksFromNow then .error .outOfRange
  else do
    let (id,w) := w.takeId
    let e := w.allocated
    let deadline := w.computeDeadline ticksFromNow
    let w ← (w.newEntry ⟨id,deadline,false⟩).insertEntry e (w.slotIndex deadline)
    let w ← w.register id (some e)
    return (id,{ w with activeCount := w.activeCount + 1 })

/-- `entry->cancelled = true` or a new `deadline_tick`. -/
def setEntry (w : TimingWheel) (e : Nat) (f : WheelEntry → WheelEntry) : TimingWheel :=
  { w with heap := Function.update w.heap e ((w.heap e).map fun node =>
      { node with payload := f node.payload }) }

/-- `delete entry`. -/
def deleteEntry (w : TimingWheel) (e : Nat) : TimingWheel :=
  { w with heap := Function.update w.heap e none }

def cancel (w : TimingWheel) (id : Nat) : Except WheelFault TimingWheel :=
  match w.lookup id with
  | none => .ok w
  | some e =>
    match w.entryAt e with
    | none => .error .undefined
    | some entry =>
      if entry.cancelled then .ok w
      else do
        let w ← (w.setEntry e fun entry => { entry with cancelled := true }).removeEntry e
          (w.slotIndex entry.deadlineTick)
        let w ← (w.deleteEntry e).register id none
        return { w with freeIds := id :: w.freeIds, activeCount := w.activeCount - 1 }

def reschedule (w : TimingWheel) (id ticksFromNow : Nat) : Except WheelFault TimingWheel :=
  if w.numSlots ≤ ticksFromNow then .error .outOfRange
  else
    match w.lookup id with
    | none => .ok w
    | some e =>
      match w.entryAt e with
      | none => .error .undefined
      | some entry =>
        if entry.cancelled then .ok w
        else do
          let w ← w.removeEntry e (w.slotIndex entry.deadlineTick)
          let deadline := w.computeDeadline ticksFromNow
          (w.setEntry e fun entry => { entry with deadlineTick := deadline }).insertEntry e (w.slotIndex deadline)

/-- Phase 1 of `tick`: the entries of the current slot that are due. -/
def collect (w : TimingWheel) : Except WheelFault (List Nat) :=
  match walk w.heap w.allocated (w.slots (w.slotIndex w.currentTick)) with
  | none => .error .undefined
  | some nodes => .ok (nodes.filter fun e =>
      match w.entryAt e with
      | some entry => !entry.cancelled && entry.deadlineTick == w.currentTick
      | none => false)

/-- Phase 2: they leave the slot. -/
def detach (w : TimingWheel) (slot : Nat) : List Nat → Except WheelFault TimingWheel
  | [] => .ok w
  | e :: rest => do
    let w ← w.removeEntry e slot
    w.detach slot rest

/-- Phase 3a: their ids no longer find them. -/
def forget (w : TimingWheel) : List Nat → Except WheelFault TimingWheel
  | [] => .ok w
  | e :: rest =>
    match w.entryAt e with
    | none => .error .undefined
    | some entry => do
      let w ← w.register entry.id none
      { w with activeCount := w.activeCount - 1 }.forget rest

/-- Phases 1 to 3a: `expired_buf_` and the wheel before the first callback. -/
def expire (w : TimingWheel) : Except WheelFault (List Nat × TimingWheel) := do
  let expired ← w.collect
  let w ← w.detach (w.slotIndex w.currentTick) expired
  return (expired,← w.forget expired)

/-- After a callback: the entry is deleted and its id may be used again. -/
def release (w : TimingWheel) (e : Nat) : Except WheelFault TimingWheel :=
  match w.entryAt e with
  | none => .error .undefined
  | some entry =>
    .ok { w.deleteEntry e with freeIds := entry.id :: w.freeIds }

/-- Phase 3b. The callback may use the wheel; it is given the entry besides its id, for the history only. Its
exceptions are caught, so a callback is the effect it has had when it ends. -/
def fire (callback : Nat → Nat → TimingWheel × σ → Except WheelFault (TimingWheel × σ)) :
    List Nat → TimingWheel × σ → Except WheelFault (TimingWheel × σ)
  | [], s => .ok s
  | e :: rest, s =>
    match s.1.entryAt e with
    | none => .error .undefined
    | some entry => do
      let s ← callback e entry.id s
      let w ← s.1.release e
      fire callback rest (w,s.2)

def tick (callback : Nat → Nat → TimingWheel × σ → Except WheelFault (TimingWheel × σ))
    (s : TimingWheel × σ) : Except WheelFault (TimingWheel × σ) := do
  let (expired,w) ← s.1.expire
  let (w,env) ← fire callback expired (w,s.2)
  return ({ w with currentTick := w.currentTick + 1 },env)

end TimingWheel
end ApexPipeline
