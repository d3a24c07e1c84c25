import ApexPipeline.CircularBuffer
import ApexPipeline.MathUtils

/-! The bounded queue of `spsc_queue.hpp`, one operation at a time. `T` is the item type and `H` that of the
completion handlers that a suspended producer stores. The counters are not reduced modulo `2^64`, so this is a queue
that fewer than `2^64` items go through; the test `tail_ >= published` of `try_dequeue` is wrong beyond that. -/
namespace ApexPipeline
open CircularBuffer

structure SpscQueue (T H : Type) where
  capacity : Nat
  slots : Nat → T
  head : Nat
  tail : Nat
  published : Nat
  consumed : Nat
  producerWaiting : Bool
  pendingHandler : Option H
  power : ∃ k, k ≤ 63 ∧ capacity = 2^k
  publishes : published = head
  consumes : consumed = tail
  ordered : tail ≤ head
  bounded : head ≤ tail + capacity

namespace SpscQueue
variable {T H : Type}

/-- A new queue; `none` is the `overflow_error` of the constructor. -/
def create (requested : Nat) (word : requested < 2^64) (slots : Nat → T) : Option (SpscQueue T H) :=
  let wanted := if requested < 1 then 1 else requested
  let capacity := MathUtils.nextPowerOf2 wanted
  if nonzero : capacity = 0 then none
  else some {
    capacity := capacity
    slots := slots
    head := 0
    tail := 0
    published := 0
    consumed := 0
    producerWaiting := false
    pendingHandler := none
    power := MathUtils.nextPowerOf2_power word nonzero
    publishes := rfl
    consumes := rfl
    ordered := Nat.le_refl 0
    bounded := Nat.zero_le _ }

def mask (q : SpscQueue T H) : Nat := q.capacity - 1

/-- `head_ - consumed >= capacity_`, the test before an item is written. -/
def full (q : SpscQueue T H) : Bool := decide (q.capacity ≤ q.head - q.consumed)

/-- `none` when the queue is full. -/
def tryEnqueue (q : SpscQueue T H) (item : T) : Option (SpscQueue T H) :=
  if room : q.full then none
  else some { q with
    slots := overwrite q.slots (q.head &&& q.mask) [item]
    head := q.head + 1
    published := q.head + 1
    publishes := rfl
    ordered := Nat.le_succ_of_le q.ordered
    bounded := by
      have consumes := q.consumes
      simp only [full,decide_eq_true_eq] at room
      omega }

/-- `none` when the queue is empty. -/
def tryDequeue (q : SpscQueue T H) : Option (T × SpscQueue T H) :=
  if nothing : q.published ≤ q.tail then none
  else some (q.slots (q.tail &&& q.mask),{ q with
    tail := q.tail + 1
    consumed := q.tail + 1
    consumes := rfl
    ordered := by
      have publishes := q.publishes
      omega
    bounded := by
      have bounded := q.bounded
      omega })

/-- The first half of suspending: an earlier handler is overwritten. -/
def storeHandler (q : SpscQueue T H) (handler : H) : SpscQueue T H :=
  { q with pendingHandler := some handler }

/-- The second half: the flag that the consumer looks at. -/
def setWaiting (q : SpscQueue T H) : SpscQueue T H := { q with producerWaiting := true }

/-- Moves the handler of a waiting producer out, to be posted to its core. -/
def takeWaiting (q : SpscQueue T H) : Option H × SpscQueue T H :=
  if q.producerWaiting then
    (q.pendingHandler,{ q with producerWaiting := false, pendingHandler := none })
  else (none,q)

def notifyProducerIfWaiting (q : SpscQueue T H) : Option H × SpscQueue T H := q.takeWaiting

def cancelWaitingProducer (q : SpscQueue T H) : Option H × SpscQueue T H := q.takeWaiting

def empty (q : SpscQueue T H) : Bool := q.published == q.consumed

def items (q : SpscQueue T H) : List T := window q.slots q.capacity q.tail (q.head - q.tail)

def free (q : SpscQueue T H) : Nat := q.capacity - q.items.length

variable (q : SpscQueue T H)

theorem capacity_pos : 0 < q.capacity := by
  obtain ⟨k,_,equal⟩ := q.power
  rw [equal]
  exact Nat.two_pow_pos k

theorem masked (position : Nat) : position &&& q.mask = position % q.capacity := by
  obtain ⟨k,_,equal⟩ := q.power
  rw [mask,equal,Nat.and_two_pow_sub_one_eq_mod]

theorem items_length : q.items.length = q.head - q.tail := by
  simp [items]

theorem items_length_le : q.items.length ≤ q.capacity := by
  have bounded := q.bounded
  rw [items_length]
  omega

theorem full_iff : q.full = true ↔ q.free = 0 := by
  have bounded := q.items_length_le
  have consumes := q.consumes
  simp only [full,free,decide_eq_true_eq]
  rw [items_length] at *
  omega

theorem empty_iff : q.empty = true ↔ q.items = [] := by
  have publishes := q.publishes
  have consumes := q.consumes
  have ordered := q.ordered
  rw [← List.length_eq_zero_iff,items_length,empty,beq_iff_eq]
  omega

theorem create_items (requested : Nat) (word : requested < 2^64) (slots : Nat → T)
    (q : SpscQueue T H) (created : create requested word slots = some q) :
    q.items = [] ∧ q.producerWaiting = false ∧ q.pendingHandler = none := by
  unfold create at created
  simp only at created
  by_cases zero : MathUtils.nextPowerOf2 (if requested < 1 then 1 else requested) = 0
  · rw [dif_pos zero] at created
    cases created
  · rw [dif_neg zero] at created
    cases created
    exact ⟨rfl,rfl,rfl⟩

theorem tryEnqueue_some (taken : q.tryEnqueue item = some next) :
    q.full = false ∧ next.items = q.items ++ [item] ∧ next.free + 1 = q.free ∧
      next.producerWaiting = q.producerWaiting ∧ next.pendingHandler = q.pendingHandler := by
  unfold tryEnqueue at taken
  split at taken <;> cases taken
  rename_i room
  have positive := q.capacity_pos
  have ordered := q.ordered
  have low := Nat.mod_lt q.head positive
  have fits : q.free ≠ 0 := by
    rw [Bool.not_eq_true,← Bool.not_eq_true,full_iff] at room
    exact room
  have length := q.items_length
  have bound : q.head - q.tail + 1 ≤ q.capacity := by
    simp only [free] at fits
    omega
  have address : q.head &&& q.mask = (q.tail + (q.head - q.tail)) % q.capacity := by
    rw [masked,Nat.add_sub_cancel' ordered]
  have appended := window_write q.slots q.capacity q.tail (q.head - q.tail) [item] positive
    (by rw [Nat.add_sub_cancel' ordered]; exact low) bound
  have grown : q.head + 1 - q.tail = q.head - q.tail + 1 := by omega
  refine ⟨by simpa using room,?_,?_,rfl,rfl⟩
  · simp only [items,address,grown]
    exact appended
  · simp only [free,items,window_length] at fits ⊢
    omega

theorem tryEnqueue_none (item : T) : q.tryEnqueue item = none ↔ q.full = true := by
  unfold tryEnqueue
  split <;> simp_all

theorem tryDequeue_some (q next : SpscQueue T H) (item : T) (taken : q.tryDequeue = some (item,next)) :
    q.items = item :: next.items ∧ next.free = q.free + 1 ∧
      next.producerWaiting = q.producerWaiting ∧ next.pendingHandler = q.pendingHandler := by
  unfold tryDequeue at taken
  split at taken <;> cases taken
  rename_i present
  have publishes := q.publishes
  have bounded := q.bounded
  have one : q.head - q.tail = 1 + (q.head - (q.tail + 1)) := by omega
  refine ⟨?_,?_,rfl,rfl⟩
  · simp only [items,masked]
    rw [one,window_append]
    rfl
  · simp only [free,items,window_length]
    omega

theorem tryDequeue_none : q.tryDequeue = none ↔ q.items = [] := by
  have publishes := q.publishes
  have ordered := q.ordered
  have length := q.items_length
  rw [← List.length_eq_zero_iff]
  unfold tryDequeue
  split
  · simp only [true_iff]
    omega
  · simp only [reduceCtorEq,false_iff]
    omega

end SpscQueue
end ApexPipeline
