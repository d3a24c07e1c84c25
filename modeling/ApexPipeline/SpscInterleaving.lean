import ApexPipeline.Execution
import ApexPipeline.SpscQueue

/-! The two sides of `spsc_queue.hpp` as they interleave: one step is one load, one store or one step on a private
counter. The counters are machine words. `enqueued` and `dequeued` are history: an item is in the first from the
store of `published_` on and in the second from the store of `consumed_` on; until then it is unread. -/
namespace ApexPipeline.SpscInterleaving
open MathUtils CircularBuffer Execution

/-- Where `try_enqueue` stands. `unread` is the number of unread items at its load of
`consumed_`; the program does not keep it. -/
inductive Producer (T : Type) where
  | idle
  | loaded (item : T) (consumed unread : Nat)
  | writing (item : T)
  | written (item : T)
  | publishing (item : T)
  deriving DecidableEq, Repr

/-- Where `try_dequeue` (`loaded`, `reading`, `taken`) or `drain` (`counting`,
`copying`) stands; both end by `releasing` what they read. -/
inductive Consumer (T : Type) where
  | idle
  | loaded (published unread : Nat)
  | reading
  | taken (item : T)
  | counting (published size : Nat)
  | copying (count : Nat) (batch : List T)
  | releasing (items : List T)
  deriving DecidableEq, Repr

/-- A call that came back without an item, with what was unread at its load. -/
inductive Refusal where
  | full (unread : Nat)
  | empty (unread : Nat)
  deriving DecidableEq, Repr

structure State (T : Type) where
  capacity : Nat
  slots : Nat → T
  head : Nat
  tail : Nat
  published : Nat
  consumed : Nat
  producer : Producer T
  consumer : Consumer T
  enqueued : List T
  dequeued : List T
  refusals : List Refusal

variable {T : Type}

def State.mask (s : State T) : Nat := s.capacity - 1

def State.unread (s : State T) : Nat := s.enqueued.length - s.dequeued.length

def produce (s : State T) : Option (State T) :=
  match s.producer with
  | .idle => none
  | .loaded item consumed unread =>
    if subSize s.head consumed ≥ s.capacity then
      some { s with producer := .idle, refusals := s.refusals ++ [.full unread] }
    else some { s with producer := .writing item }
  | .writing item => some { s with
      slots := overwrite s.slots (s.head &&& s.mask) [item]
      producer := .written item }
  | .written item => some { s with head := addSize s.head 1, producer := .publishing item }
  | .publishing item => some { s with
      published := s.head
      producer := .idle
      enqueued := s.enqueued ++ [item] }

/-- The consumer's next access. The last round of `drain` finds its batch complete; a
batch of nothing leaves `consumed_` alone. -/
def consume (s : State T) : Option (State T) :=
  match s.consumer with
  | .idle => none
  | .loaded published unread =>
    if s.tail ≥ published then
      some { s with consumer := .idle, refusals := s.refusals ++ [.empty unread] }
    else some { s with consumer := .reading }
  | .reading => some { s with consumer := .taken (s.slots (s.tail &&& s.mask)) }
  | .taken item => some { s with tail := addSize s.tail 1, consumer := .releasing [item] }
  | .counting published size =>
    some { s with consumer := .copying (min (subSize published s.tail) size) [] }
  | .copying count batch =>
    if batch.length < count then
      let item := s.slots (addSize s.tail batch.length &&& s.mask)
      some { s with consumer := .copying count (batch ++ [item]) }
    else some { s with
      tail := addSize s.tail count
      consumer := if count > 0 then .releasing batch else .idle }
  | .releasing items => some { s with
      consumed := s.tail
      consumer := .idle
      dequeued := s.dequeued ++ items }

inductive Action (T : Type) where
  | tryEnqueue (item : T)
  | produce
  | tryDequeue
  | drain (size : Nat)
  | consume
  deriving DecidableEq, Repr

def step (s : State T) : Action T → Option (State T)
  | .tryEnqueue item =>
    match s.producer with
    | .idle => some { s with producer := .loaded item s.consumed s.unread }
    | _ => none
  | .produce => produce s
  | .tryDequeue =>
    match s.consumer with
    | .idle => some { s with consumer := .loaded s.published s.unread }
    | _ => none
  | .drain size =>
    match s.consumer with
    | .idle => some { s with consumer := .counting s.published size }
    | _ => none
  | .consume => consume s

def start {H : Type} (q : SpscQueue T H) : State T :=
  ⟨q.capacity,q.slots,0,0,0,0,.idle,.idle,[],[],[]⟩

/-- What the producer knows, with `published` items in the history and `released` of them given back. Its view of
`consumed_` may be old: the slot it found free stays free. -/
def Producer.Sound (capacity published released head : Nat) (slots : Nat → T) : Producer T → Prop
  | .idle => head = published % 2^64
  | .loaded _ consumed unread => head = published % 2^64 ∧ unread ≤ published ∧
      consumed = (published - unread) % 2^64 ∧ published ≤ released + unread ∧ unread ≤ capacity
  | .writing _ => head = published % 2^64 ∧ published < released + capacity
  | .written item => head = published % 2^64 ∧ published < released + capacity ∧ slots (published % capacity) = item
  | .publishing item => head = (published + 1) % 2^64 ∧ published < released + capacity ∧
      slots (published % capacity) = item

/-- What the consumer knows; its view of `published_` may be old too. -/
def Consumer.Sound (enqueued : List T) (released tail : Nat) : Consumer T → Prop
  | .idle => tail = released % 2^64
  | .loaded published unread => tail = released % 2^64 ∧
      published = (released + unread) % 2^64 ∧ released + unread ≤ enqueued.length
  | .reading => tail = released % 2^64 ∧ released < enqueued.length
  | .taken item => tail = released % 2^64 ∧ enqueued[released]? = some item
  | .counting published _ => tail = released % 2^64 ∧ ∃ unread,
      published = (released + unread) % 2^64 ∧ released + unread ≤ enqueued.length ∧ unread < 2^64
  | .copying count batch => tail = released % 2^64 ∧ released + count ≤ enqueued.length ∧
      batch.length ≤ count ∧ batch <+: enqueued.drop released
  | .releasing items => tail = (released + items.length) % 2^64 ∧ items <+: enqueued.drop released

/-- A refused `try_enqueue` met a full queue, a refused `try_dequeue` an empty one. -/
def Refusal.Justified (capacity : Nat) : Refusal → Prop
  | .full unread => unread = capacity
  | .empty unread => unread = 0

structure Sound (s : State T) : Prop where
  power : ∃ k, k ≤ 63 ∧ s.capacity = 2^k
  fifo : s.dequeued <+: s.enqueued
  bounded : s.enqueued.length ≤ s.dequeued.length + s.capacity
  held : ∀ i, s.dequeued.length ≤ i → i < s.enqueued.length → s.enqueued[i]? = some (s.slots (i % s.capacity))
  published : s.published = s.enqueued.length % 2^64
  consumed : s.consumed = s.dequeued.length % 2^64
  producer : s.producer.Sound s.capacity s.enqueued.length s.dequeued.length s.head s.slots
  consumer : s.consumer.Sound s.enqueued s.dequeued.length s.tail
  justified : ∀ r ∈ s.refusals, r.Justified s.capacity

namespace Producer

theorem Sound.release {p : Producer T} (sound : p.Sound capacity published released head slots)
    (more : released ≤ later) : p.Sound capacity published later head slots := by
  cases p with
  | idle => exact sound
  | loaded item consumed unread =>
    obtain ⟨head,small,view,recent,bound⟩ := sound
    exact ⟨head,small,view,by omega,bound⟩
  | writing item => exact ⟨sound.1,by have := sound.2; omega⟩
  | written item | publishing item => exact ⟨sound.1,by have := sound.2.1; omega,sound.2.2⟩

end Producer

namespace Consumer

theorem Sound.published {c : Consumer T} (sound : c.Sound enqueued released tail) (item : T) :
    c.Sound (enqueued ++ [item]) released tail := by
  have length : (enqueued ++ [item]).length = enqueued.length + 1 := by simp
  have suffix : ∀ items, items <+: enqueued.drop released → items <+: (enqueued ++ [item]).drop released := by
    intro items held
    rw [List.drop_append]
    exact held.trans (List.prefix_append _ _)
  cases c with
  | idle => exact sound
  | loaded view unread => exact ⟨sound.1,sound.2.1,by have := sound.2.2; omega⟩
  | reading => exact ⟨sound.1,by have := sound.2; omega⟩
  | taken first =>
    obtain ⟨inside,_⟩ := List.getElem?_eq_some_iff.mp sound.2
    exact ⟨sound.1,by rw [List.getElem?_append_left inside]; exact sound.2⟩
  | counting view size =>
    obtain ⟨tail,unread,view,inside,word⟩ := sound
    exact ⟨tail,unread,view,by omega,word⟩
  | copying count batch =>
    obtain ⟨tail,inside,short,held⟩ := sound
    exact ⟨tail,by omega,short,suffix _ held⟩
  | releasing items => exact ⟨sound.1,suffix _ sound.2⟩

end Consumer

theorem Sound.masked (sound : Sound s) (position : Nat) : position % 2^64 &&& s.mask = position % s.capacity := by
  obtain ⟨k,small,power⟩ := sound.power
  rw [State.mask,power]
  exact word_mask position small

theorem Sound.small {s : State T} (sound : Sound s) : 0 < s.capacity ∧ s.capacity ≤ 2^63 := by
  obtain ⟨k,small,power⟩ := sound.power
  rw [power]
  exact two_pow_word small

theorem write_keeps {s : State T} (item : T) (room : s.enqueued.length < s.dequeued.length + s.capacity) :
    ∀ i, s.dequeued.length ≤ i → i < s.enqueued.length →
      overwrite s.slots (s.enqueued.length % s.capacity) [item] (i % s.capacity) = s.slots (i % s.capacity) := by
  intro i unread inside
  have apart : i % s.capacity ≠ s.enqueued.length % s.capacity :=
    addresses_apart s.capacity inside (by omega)
  apply overwrite_outside
  simp only [List.length_singleton]
  omega

theorem sound_produce (sound : Sound s) (moved : produce s = some next) : Sound next := by
  have ordered := sound.fifo.length_le
  have view := sound.producer
  cases phase : s.producer with
  | idle => simp only [produce,phase] at moved; cases moved
  | loaded item consumed unread =>
    simp only [produce,phase] at moved view
    obtain ⟨head,small,seen,recent,bound⟩ := view
    have words := sound.small
    have distance : subSize s.head consumed = unread := by
      rw [head,seen]
      unfold subSize
      omega
    simp only [distance] at moved
    split at moved
    · cases moved
      refine { sound with producer := head, justified := ?_ }
      exact forall_concat sound.justified (Nat.le_antisymm bound (by assumption))
    · cases moved
      have room : s.enqueued.length < s.dequeued.length + s.capacity := by omega
      exact { sound with producer := ⟨head,room⟩ }
  | writing item =>
    simp only [produce,phase] at moved view
    obtain ⟨head,room⟩ := view
    have address : s.head &&& s.mask = s.enqueued.length % s.capacity := by
      rw [head]
      exact sound.masked _
    simp only [address] at moved
    cases moved
    have kept := write_keeps item room
    refine { sound with held := ?_, producer := ⟨head,room,?_⟩ }
    · intro i unread inside
      simp only [kept i unread inside]
      exact sound.held i unread inside
    · simp [overwrite]
  | written item =>
    simp only [produce,phase] at moved view
    cases moved
    refine { sound with producer := ⟨?_,view.2⟩ }
    simp only [addSize,view.1]
    omega
  | publishing item =>
    simp only [produce,phase] at moved view
    obtain ⟨head,room,shown⟩ := view
    cases moved
    have length : (s.enqueued ++ [item]).length = s.enqueued.length + 1 := by simp
    refine { sound with
      fifo := sound.fifo.trans (List.prefix_append _ _)
      bounded := by simp only [length]; omega
      held := ?_
      published := by simp only [length]; exact head
      producer := by simp only [Producer.Sound,length]; exact head
      consumer := sound.consumer.published item }
    intro i unread inside
    simp only [length] at inside
    rcases Nat.lt_succ_iff_lt_or_eq.mp inside with earlier | rfl
    · simp only [List.getElem?_append_left earlier]
      exact sound.held i unread earlier
    · simp [shown]

theorem sound_consume (sound : Sound s) (word : s.enqueued.length < 2^64)
    (moved : consume s = some next) : Sound next := by
  have view := sound.consumer
  cases phase : s.consumer with
  | idle => simp only [consume,phase] at moved; cases moved
  | loaded published unread =>
    simp only [consume,phase] at moved view
    obtain ⟨tail,seen,inside⟩ := view
    split at moved
    · rename_i empty
      cases moved
      have taken : unread = 0 := by
        rw [tail,seen] at empty
        omega
      refine { sound with consumer := tail, justified := ?_ }
      exact forall_concat sound.justified taken
    · rename_i present
      cases moved
      have some' : s.dequeued.length < s.enqueued.length := by
        rw [tail,seen] at present
        omega
      exact { sound with consumer := ⟨tail,some'⟩ }
  | reading =>
    simp only [consume,phase] at moved view
    obtain ⟨tail,inside⟩ := view
    cases moved
    refine { sound with consumer := ⟨tail,?_⟩ }
    rw [tail,sound.masked]
    exact sound.held _ (Nat.le_refl _) inside
  | taken item =>
    simp only [consume,phase] at moved view
    obtain ⟨tail,first⟩ := view
    cases moved
    refine { sound with consumer := ⟨?_,?_⟩ }
    · simp only [addSize,tail,List.length_singleton]
      omega
    · obtain ⟨inside,same⟩ := List.getElem?_eq_some_iff.mp first
      exact ⟨s.enqueued.drop (s.dequeued.length + 1),by
        rw [← same,List.singleton_append,List.drop_eq_getElem_cons inside]⟩
  | counting published size =>
    simp only [consume,phase] at moved view
    obtain ⟨tail,unread,seen,inside,small⟩ := view
    cases moved
    have available : subSize published s.tail = unread := by
      rw [tail,seen]
      unfold subSize
      omega
    rw [available]
    have most : s.dequeued.length + min unread size ≤ s.enqueued.length := by omega
    exact { sound with consumer := ⟨tail,most,Nat.zero_le _,List.nil_prefix⟩ }
  | copying count batch =>
    simp only [consume,phase] at moved view
    obtain ⟨tail,inside,short,held⟩ := view
    split at moved
    · rename_i more
      cases moved
      refine { sound with consumer := ⟨tail,inside,?_,?_⟩ }
      · rw [List.length_append]
        exact more
      · have address : addSize s.tail batch.length &&& s.mask =
            (s.dequeued.length + batch.length) % s.capacity := by
          rw [← sound.masked,tail]
          simp [addSize]
        have there := sound.held (s.dequeued.length + batch.length) (by omega) (by omega)
        rw [address]
        exact prefix_next held (by rw [List.getElem?_drop]; exact there)
    · rename_i complete
      cases moved
      have whole : batch.length = count := by omega
      refine { sound with consumer := ?_ }
      split
      · refine ⟨?_,held⟩
        simp only [addSize,tail,whole]
        omega
      · simp only [Consumer.Sound,addSize,tail]
        omega
  | releasing items =>
    simp only [consume,phase] at moved view
    obtain ⟨tail,held⟩ := view
    cases moved
    have length : (s.dequeued ++ items).length = s.dequeued.length + items.length := by simp
    have fifo : s.dequeued ++ items <+: s.enqueued := by
      obtain ⟨rest,all⟩ := sound.fifo
      rw [← all,List.drop_left] at held
      rw [← all]
      exact (List.prefix_append_right_inj _).mpr held
    refine { sound with
      fifo := fifo
      bounded := by have := sound.bounded; simp only [length]; omega
      held := fun i unread inside => sound.held i (by simp only [length] at unread; omega) inside
      consumed := by simp only [length]; exact tail
      producer := sound.producer.release (by simp only [length]; omega)
      consumer := by simp only [Consumer.Sound,length]; exact tail }

theorem sound_step (sound : Sound s)
    (word : s.enqueued.length < 2^64) (stepped : step s action = some next) : Sound next := by
  have ordered := sound.fifo.length_le
  have words := sound.small
  cases action with
  | tryEnqueue item =>
    simp only [step] at stepped
    split at stepped <;> cases stepped
    rename_i phase
    have view := sound.producer
    simp only [phase] at view
    have bounded := sound.bounded
    refine { sound with producer := ⟨view,?_,?_,?_,?_⟩ }
    all_goals simp only [State.unread]
    · omega
    · rw [Nat.sub_sub_self ordered]
      exact sound.consumed
    · omega
    · omega
  | produce => exact sound_produce sound stepped
  | tryDequeue =>
    simp only [step] at stepped
    split at stepped <;> cases stepped
    rename_i phase
    have view := sound.consumer
    simp only [phase] at view
    refine { sound with consumer := ⟨view,?_,?_⟩ }
    all_goals simp only [State.unread,Nat.add_sub_cancel' ordered]
    · exact sound.published
    · exact Nat.le_refl _
  | drain size =>
    simp only [step] at stepped
    split at stepped <;> cases stepped
    rename_i phase
    have view := sound.consumer
    simp only [phase] at view
    have bounded := sound.bounded
    have all : s.dequeued.length + (s.enqueued.length - s.dequeued.length) =
      s.enqueued.length := Nat.add_sub_cancel' ordered
    exact { sound with consumer := ⟨view,s.enqueued.length - s.dequeued.length,
      by rw [all]; exact sound.published,Nat.le_of_eq all,by omega⟩ }
  | consume => exact sound_consume sound word stepped

theorem step_history (stepped : step s action = some next) :
    next.capacity = s.capacity ∧ s.enqueued <+: next.enqueued := by
  cases action with
  | tryEnqueue item | tryDequeue | drain size | consume =>
    have same : next.capacity = s.capacity ∧ next.enqueued = s.enqueued := by
      grind [step,consume]
    exact ⟨same.1,same.2 ▸ List.prefix_rfl⟩
  | produce =>
    simp only [step,produce] at stepped
    split at stepped
    case h_5 =>
      cases stepped
      exact ⟨rfl,List.prefix_append _ _⟩
    all_goals
      have same : next.capacity = s.capacity ∧ next.enqueued = s.enqueued := by grind
      exact ⟨same.1,same.2 ▸ List.prefix_rfl⟩

theorem sound_start (q : SpscQueue T H) : Sound (start q) where
  power := q.power
  fifo := List.nil_prefix
  bounded := Nat.zero_le _
  held := fun _ _ inside => absurd inside (Nat.not_lt_zero _)
  published := rfl
  consumed := rfl
  producer := rfl
  consumer := rfl
  justified := fun _ member => absurd member List.not_mem_nil

/-- One producer and one consumer, however their steps interleave: what came out is a prefix of what went in; no more
than `capacity` items are unread; the slot about to be written holds none of them; and a refused call found the queue
full or empty. -/
theorem fifo_interleaved {H : Type} (q : SpscQueue T H) (schedule : List (Action T)) (s : State T)
    (runs : run step (start q) schedule = some s) (few : s.enqueued.length < 2^64) :
    s.dequeued <+: s.enqueued ∧ s.unread ≤ q.capacity ∧
    (∀ item, s.producer = .writing item → ∀ i < s.enqueued.length,
      i % q.capacity = s.head &&& s.mask → i < s.dequeued.length) ∧
    ∀ r ∈ s.refusals, r.Justified q.capacity := by
  have sound : Sound s := run_invariant (fun s => s.enqueued.length < 2^64 → Sound s)
    (fun s action next sound stepped few =>
      have before := Nat.lt_of_le_of_lt (step_history stepped).2.length_le few
      sound_step (sound before) before stepped)
    (fun _ => sound_start q) runs few
  have capacity : s.capacity = q.capacity := run_invariant (fun s => s.capacity = q.capacity)
    (fun s action next same stepped => (step_history stepped).1.trans same) rfl runs
  refine ⟨sound.fifo,?_,?_,capacity ▸ sound.justified⟩
  · have bounded := sound.bounded
    simp only [State.unread]
    omega
  · intro item writing i published there
    have view := sound.producer
    rw [writing] at view
    obtain ⟨head,room⟩ := view
    rw [head,sound.masked,← capacity] at there
    -- an unread item lies less than one turn behind the slot
    by_contra unread
    exact addresses_apart s.capacity published (by omega) there

def pair : SpscQueue Nat Unit := (SpscQueue.create 2 (by decide) fun _ => 0).get (by decide)

def crossing : List (Action Nat) :=
  [.tryDequeue,.tryEnqueue 5,.produce,.consume,.produce,.produce,.produce,
    .tryEnqueue 6,.produce,.produce,.produce,.produce,
    .drain 4,.consume,.consume,.consume,.consume,.tryEnqueue 7,.consume,.produce,
    .tryEnqueue 8,.produce]

theorem fifo_interleaved_crossing : ∃ s, run step (start pair) crossing = some s ∧
    s.enqueued = [5,6] ∧ s.producer = .writing 8 ∧ s.refusals = [.empty 0,.full 2] ∧
    s.dequeued <+: s.enqueued ∧ s.unread ≤ pair.capacity ∧
    (∀ item, s.producer = .writing item → ∀ i < s.enqueued.length,
      i % pair.capacity = s.head &&& s.mask → i < s.dequeued.length) ∧
    ∀ r ∈ s.refusals, r.Justified pair.capacity := by
  refine exists_final (by decide +kernel) fun runs => ⟨by decide +kernel,by decide +kernel,by decide +kernel,?_⟩
  exact fifo_interleaved pair crossing _ runs (by decide +kernel)

end ApexPipeline.SpscInterleaving
