import ApexPipeline.CircularBuffer
import ApexPipeline.Execution
import ApexPipeline.MathUtils

/-! `mpsc_queue.hpp`: any number of producers and one consumer, one access to shared memory at a time. A producer
reserves a slot by advancing `head_`, fills it and publishes it by its `ready` flag. -/
namespace ApexPipeline.MpscQueue
open MathUtils CircularBuffer Execution List Function Option

/-- The slots of a new queue; `data` is whatever the memory held before. -/
structure Slots (T : Type) where
  capacity : Nat
  data : Nat → T
  power : ∃ k, k ≤ 63 ∧ capacity = 2^k

variable {T : Type}

/-- `none` is the `overflow_error` of the constructor. -/
def create (requested : Nat) (word : requested < 2^64) (data : Nat → T) : Option (Slots T) :=
  let wanted := if requested < 1 then 1 else requested
  let capacity := nextPowerOf2 wanted
  if nonzero : capacity = 0 then none
  else some {
    capacity := capacity
    data := data
    power := nextPowerOf2_power word nonzero }

/-- Where a call of `enqueue` stands: before its load of `tail_`, its capacity test, its compare-and-exchange, its
write of the data and its store of `ready`. `seen` counts the reservations made when it loaded `head`, and `position`
those before its own; the program keeps the remainder `head` only. -/
inductive Producer (T : Type) where
  | idle
  | loading (item : T) (head seen : Nat)
  | testing (item : T) (head seen tail : Nat)
  | reserving (item : T) (head seen : Nat)
  | writing (item : T) (head position : Nat)
  | marking (item : T) (head position : Nat)
  deriving DecidableEq, Repr

/-- Where `dequeue` stands: before its test of `ready`, its read of the data, its store
that clears `ready` and its store of `tail_`. -/
inductive Consumer (T : Type) where
  | idle
  | testing (tail : Nat)
  | reading (tail : Nat)
  | clearing (tail : Nat) (item : T)
  | advancing (tail : Nat) (item : T)
  deriving DecidableEq, Repr

/-- `reserved` lists who reserved a slot for what, in the order of the successful
exchanges; `returned` what each producer's successful calls enqueued; `dequeued` what
the consumer returned. -/
structure State (T : Type) where
  capacity : Nat
  data : Nat → T
  ready : Nat → Bool
  head : Nat
  tail : Nat
  producers : Nat → Producer T
  consumer : Consumer T
  reserved : List (Nat × T)
  returned : Nat → List T
  dequeued : List T

def start (slots : Slots T) : State T :=
  ⟨slots.capacity,slots.data,fun _ => false,0,0,fun _ => .idle,.idle,[],fun _ => [],[]⟩

namespace State

def mask (s : State T) : Nat := s.capacity - 1

def enqueue (s : State T) (p : Nat) (item : T) : Option (State T) :=
  match s.producers p with
  | .idle => some { s with
      producers := Function.update s.producers p (.loading item s.head s.reserved.length) }
  | _ => none

/-- The next step of `enqueue`. The exchange is a weak one: it may fail though `head_`
is what was expected. A failure loads `head_` again. -/
def produce (s : State T) (p : Nat) (spurious : Bool) : Option (State T) :=
  match s.producers p with
  | .idle => none
  | .loading item head seen => some { s with
      producers := Function.update s.producers p (.testing item head seen s.tail) }
  | .testing item head seen tail => some { s with
      producers := Function.update s.producers p
        (if subSize head tail ≥ s.capacity then .idle else .reserving item head seen) }
  | .reserving item head _ =>
    if s.head = head ∧ spurious = false then some { s with
      head := addSize head 1
      producers := Function.update s.producers p (.writing item head s.reserved.length)
      reserved := s.reserved ++ [(p,item)] }
    else some { s with
      producers := Function.update s.producers p (.loading item s.head s.reserved.length) }
  | .writing item head position => some { s with
      data := Function.update s.data (head &&& s.mask) item
      producers := Function.update s.producers p (.marking item head position) }
  | .marking item head _ => some { s with
      ready := Function.update s.ready (head &&& s.mask) true
      producers := Function.update s.producers p .idle
      returned := Function.update s.returned p (s.returned p ++ [item]) }

def dequeue (s : State T) : Option (State T) :=
  match s.consumer with
  | .idle => some { s with consumer := .testing s.tail }
  | _ => none

def consume (s : State T) : Option (State T) :=
  match s.consumer with
  | .idle => none
  | .testing tail => some { s with
      consumer := if s.ready (tail &&& s.mask) then .reading tail else .idle }
  | .reading tail => some { s with consumer := .clearing tail (s.data (tail &&& s.mask)) }
  | .clearing tail item => some { s with
      ready := Function.update s.ready (tail &&& s.mask) false
      consumer := .advancing tail item }
  | .advancing tail item => some { s with
      tail := addSize tail 1
      consumer := .idle
      dequeued := s.dequeued ++ [item] }

end State

inductive Action (T : Type) where
  | enqueue (p : Nat) (item : T)
  | produce (p : Nat) (spurious : Bool)
  | dequeue
  | consume
  deriving DecidableEq, Repr

def step (s : State T) : Action T → Option (State T)
  | .enqueue p item => s.enqueue p item
  | .produce p spurious => s.produce p spurious
  | .dequeue => s.dequeue
  | .consume => s.consume

/-- Between a producer's load of `head_` and its exchange fewer than `2^64` slots were
reserved, so that an unchanged `head_` means that none was. -/
def Recent (s : State T) : Action T → Prop
  | .produce p _ =>
    match s.producers p with
    | .reserving _ _ seen => s.reserved.length < seen + 2^64
    | _ => True
  | _ => True

instance (s : State T) (action : Action T) : Decidable (Recent s action) := by
  unfold Recent
  split
  · split <;> infer_instance
  · infer_instance

def Producer.owns : Producer T → Option (T × Nat)
  | .writing item _ position => some (item,position)
  | .marking item _ position => some (item,position)
  | _ => none

/-- What a producer's private values say, with `reserved` slots reserved and `dequeued`
of them given back. The words may be old; they are trusted only when `head_` has not
moved since. -/
def Producer.View (capacity reserved dequeued : Nat) : Producer T → Prop
  | .idle => True
  | .loading _ head seen => head = seen % 2^64 ∧ seen ≤ reserved ∧ seen ≤ dequeued + capacity
  | .testing _ head seen tail => head = seen % 2^64 ∧ seen ≤ reserved ∧
      ∃ given, tail = given % 2^64 ∧ given ≤ dequeued ∧ seen ≤ given + capacity
  | .reserving _ head seen => head = seen % 2^64 ∧ seen ≤ reserved ∧
      (reserved = seen → reserved < dequeued + capacity)
  | .writing _ head position => head = position % 2^64
  | .marking _ head position => head = position % 2^64

/-- What the consumer's private values say about the oldest item. -/
def Consumer.View (s : State T) : Consumer T → Prop
  | .idle => True
  | .testing tail => tail = s.dequeued.length % 2^64
  | .reading tail => tail = s.dequeued.length % 2^64 ∧
      s.dequeued.length < s.reserved.length ∧ s.ready (s.dequeued.length % s.capacity) = true
  | .clearing tail item => tail = s.dequeued.length % 2^64 ∧
      (s.reserved.map Prod.snd)[s.dequeued.length]? = some item ∧
      s.ready (s.dequeued.length % s.capacity) = true
  | .advancing tail item => tail = s.dequeued.length % 2^64 ∧
      (s.reserved.map Prod.snd)[s.dequeued.length]? = some item ∧
      s.ready (s.dequeued.length % s.capacity) = false

/-- The first position whose slot still is what its reservation made of it. -/
def State.oldest (s : State T) : Nat :=
  match s.consumer with
  | .advancing _ _ => s.dequeued.length + 1
  | _ => s.dequeued.length

def State.Kept (s : State T) (i : Nat) (e : Nat × T) : Prop :=
  s.ready (i % s.capacity) = true ∧ s.data (i % s.capacity) = e.2 ∧ (s.producers e.1).owns ≠ some (e.2,i) ∨
  s.ready (i % s.capacity) = false ∧ (s.producers e.1).owns = some (e.2,i)

structure Sound (s : State T) : Prop where
  power : ∃ k, k ≤ 63 ∧ s.capacity = 2^k
  head : s.head = s.reserved.length % 2^64
  tail : s.tail = s.dequeued.length % 2^64
  bounded : s.reserved.length ≤ s.dequeued.length + s.capacity
  fifo : s.dequeued <+: s.reserved.map Prod.snd
  views : ∀ p, (s.producers p).View s.capacity s.reserved.length s.dequeued.length
  owned : ∀ p item i, (s.producers p).owns = some (item,i) → s.oldest ≤ i ∧ s.reserved[i]? = some (p,item)
  written : ∀ p item head i, s.producers p = .marking item head i → s.data (i % s.capacity) = item
  kept : ∀ i e, s.oldest ≤ i → s.reserved[i]? = some e → s.Kept i e
  free : ∀ i, s.reserved.length ≤ i → i < s.dequeued.length + s.capacity → s.ready (i % s.capacity) = false
  consumer : s.consumer.View s
  orders : ∀ p, (s.reserved.filter fun e => e.1 = p).map Prod.snd =
    s.returned p ++ ((s.producers p).owns.map Prod.fst).toList

namespace Producer

variable {p : Producer T} (view : p.View capacity reserved dequeued)
include view

theorem View.reserve :
    p.View capacity (reserved + 1) dequeued := by
  cases p with
  | idle => trivial
  | loading item head seen | testing item head seen tail => exact ⟨view.1,by have := view.2.1; omega,view.2.2⟩
  | reserving item head seen =>
    refine ⟨view.1,by have := view.2.1; omega,?_⟩
    intro same
    have := view.2.1
    omega
  | writing item head position | marking item head position => exact view

theorem View.give :
    p.View capacity reserved (dequeued + 1) := by
  cases p with
  | idle => trivial
  | loading item head seen => exact ⟨view.1,view.2.1,by have := view.2.2; omega⟩
  | testing item head seen tail =>
    obtain ⟨word,recent,given,read,before,room⟩ := view
    exact ⟨word,recent,given,read,by omega,room⟩
  | reserving item head seen =>
    refine ⟨view.1,view.2.1,?_⟩
    intro same
    have := view.2.2 same
    omega
  | writing item head position | marking item head position => exact view

end Producer

namespace Sound
variable {s : State T}

theorem masked (sound : Sound s) (position : Nat) : position % 2^64 &&& s.mask = position % s.capacity := by
  obtain ⟨k,small,power⟩ := sound.power
  rw [State.mask,power]
  exact word_mask position small

theorem small (sound : Sound s) : 0 < s.capacity ∧ s.capacity ≤ 2^63 := by
  obtain ⟨k,small,power⟩ := sound.power
  rw [power]
  exact two_pow_word small

theorem ordered (sound : Sound s) : s.dequeued.length ≤ s.reserved.length := by
  simpa using sound.fifo.length_le

theorem oldest_ge (s : State T) : s.dequeued.length ≤ s.oldest := by
  unfold State.oldest
  split <;> omega

theorem oldest_le (sound : Sound s) : s.oldest ≤ s.reserved.length := by
  have ordered := sound.ordered
  have view := sound.consumer
  unfold State.oldest
  split
  · rename_i phase
    rw [phase] at view
    have inside := (List.getElem?_eq_some_iff.mp view.2.1).1
    rwa [List.length_map] at inside
  · exact ordered

variable {i p : Nat} {item : T} {phase : Producer T}

theorem apart {j : Nat} (low : s.dequeued.length ≤ i) (high : i < s.dequeued.length + s.capacity)
    (low' : s.dequeued.length ≤ j) (high' : j < s.dequeued.length + s.capacity) (other : i ≠ j) :
    i % s.capacity ≠ j % s.capacity := by
  rcases Nat.lt_or_gt_of_ne other with less | more
  · exact addresses_apart s.capacity less (by omega)
  · exact (addresses_apart s.capacity more (by omega)).symm

theorem owned_range (sound : Sound s) (owns : (s.producers p).owns = some (item,i)) :
    s.dequeued.length ≤ i ∧ i < s.reserved.length := by
  obtain ⟨low,there⟩ := sound.owned p item i owns
  exact ⟨Nat.le_trans (oldest_ge s) low,(List.getElem?_eq_some_iff.mp there).1⟩

theorem kept_range (sound : Sound s) (low : s.oldest ≤ i) (there : s.reserved[i]? = some e) :
    s.dequeued.length ≤ i ∧ i < s.dequeued.length + s.capacity := by
  have inside := (List.getElem?_eq_some_iff.mp there).1
  exact ⟨Nat.le_trans (oldest_ge s) low,Nat.lt_of_lt_of_le inside sound.bounded⟩

theorem all_updated {property : Nat → Producer T → Prop}
    (here : property p phase) (others : ∀ q, q ≠ p → property q (s.producers q)) :
    ∀ q, property q (update s.producers p phase q) :=
  (forall_update_iff s.producers property).mpr ⟨here,others⟩

theorem owned_updated {holds : Nat → T → Nat → Prop} (here : ∀ item i, phase.owns = some (item,i) → holds p item i)
    (others : ∀ q, q ≠ p → ∀ item i, (s.producers q).owns = some (item,i) → holds q item i) :
    ∀ q item i, (update s.producers p phase q).owns = some (item,i) → holds q item i :=
  (forall_update_iff s.producers fun q phase =>
    ∀ item i, phase.owns = some (item,i) → holds q item i).mpr ⟨here,others⟩

theorem written_updated {holds : T → Nat → Prop} (here : ∀ item head i, phase = .marking item head i → holds item i)
    (others : ∀ q, q ≠ p → ∀ item head i, s.producers q = .marking item head i → holds item i) :
    ∀ q item head i, update s.producers p phase q = .marking item head i → holds item i :=
  (forall_update_iff s.producers fun _ phase =>
    ∀ item head i, phase = .marking item head i → holds item i).mpr ⟨here,others⟩

variable (sound : Sound s)
include sound

theorem privately (p : Nat) (phase : Producer T)
    (before : (s.producers p).owns = none) (after : phase.owns = none)
    (view : phase.View s.capacity s.reserved.length s.dequeued.length) :
    Sound { s with producers := update s.producers p phase } := by
  have owns : ∀ q, (update s.producers p phase q).owns = (s.producers q).owns := by
    intro q
    by_cases same : q = p
    · rw [same,update_self,after,before]
    · rw [update_of_ne same]
  refine { sound with
    views := all_updated view fun q _ => sound.views q
    owned := fun q item i holds => sound.owned q item i ((owns q).symm.trans holds)
    written := written_updated ?_ fun q _ => sound.written q
    kept := ?_, orders := ?_ }
  · rintro item head i rfl
    cases after
  · intro i e low there
    have kept := sound.kept i e low there
    unfold State.Kept at kept ⊢
    simp only [owns]
    exact kept
  · intro q
    simp only [owns]
    exact sound.orders q

theorem reserve (p : Nat) (item : T) (head : Nat)
    (before : (s.producers p).owns = none) (word : head = s.reserved.length % 2^64)
    (room : s.reserved.length < s.dequeued.length + s.capacity) :
    Sound { s with
      head := addSize head 1
      producers := update s.producers p (.writing item head s.reserved.length)
      reserved := s.reserved ++ [(p,item)] } := by
  have length : (s.reserved ++ [(p,item)]).length = s.reserved.length + 1 := by simp
  have mapped : (s.reserved ++ [(p,item)]).map Prod.snd = s.reserved.map Prod.snd ++ [item] := by
    simp
  have earlier : ∀ (i : Nat) e, s.reserved[i]? = some e → (s.reserved ++ [(p,item)])[i]? = some e := by
    intro i e there
    rw [List.getElem?_append_left (List.getElem?_eq_some_iff.mp there).1]
    exact there
  have oldest := sound.oldest_le
  refine { sound with head := ?_, bounded := ?_, fifo := ?_, views := ?_, owned := ?_, written := ?_,
                      kept := ?_, free := ?_, consumer := ?_, orders := ?_ }
  · simp only [length,addSize,word]
    omega
  · simp only [length]
    omega
  · simp only [mapped]
    exact sound.fifo.trans (prefix_append _ _)
  · simp only [length]
    exact all_updated word fun q _ => (sound.views q).reserve
  · refine owned_updated ?_ ?_
    · rintro other i ⟨⟩
      exact ⟨oldest,by simp⟩
    · intro q _ other i owns
      obtain ⟨low,there⟩ := sound.owned q other i owns
      exact ⟨low,earlier i _ there⟩
  · exact written_updated (fun _ _ _ mine => by cases mine) fun q _ => sound.written q
  · intro i e low there
    rcases Nat.lt_or_ge i s.reserved.length with less | more
    · simp only [List.getElem?_append_left less] at there
      have kept := sound.kept i e low there
      unfold State.Kept at kept ⊢
      by_cases mine : e.1 = p
      · rw [mine,before] at kept
        simp only [mine,update_self,Producer.owns]
        rcases kept with ⟨ready,data,_⟩ | ⟨_,impossible⟩
        · exact .inl ⟨ready,data,by simp only [ne_eq,Option.some.injEq,Prod.mk.injEq]; omega⟩
        · cases impossible
      · simp only [update_of_ne mine]
        exact kept
    · have inside := (List.getElem?_eq_some_iff.mp there).1
      simp only [length] at inside
      have same : i = s.reserved.length := by omega
      subst same
      simp only [getElem?_concat_length] at there
      cases there
      exact .inr ⟨sound.free _ (Nat.le_refl _) room,by simp only [update_self,Producer.owns]⟩
  · intro i low high
    simp only [length] at low
    exact sound.free i (by omega) high
  · have view := sound.consumer
    cases phase : s.consumer with
    | idle => trivial
    | testing tail => rw [phase] at view; exact view
    | reading tail =>
      rw [phase] at view
      exact ⟨view.1,by simp only [length]; have := view.2.1; omega,view.2.2⟩
    | clearing tail oldest | advancing tail oldest =>
      rw [phase] at view
      refine ⟨view.1,?_,view.2.2⟩
      simp only [mapped]
      rw [List.getElem?_append_left (List.getElem?_eq_some_iff.mp view.2.1).1]
      exact view.2.1
  · intro q
    have order := sound.orders q
    simp only [filter_append,map_append]
    by_cases same : q = p
    · subst same
      rw [order,before]
      simp [Producer.owns]
    have other : p ≠ q := fun equal => same equal.symm
    simp only [update_of_ne same]
    rw [order]
    simp [other]

theorem elsewhere {j : Nat}
    (owns : (s.producers p).owns = some (item,i)) (low : s.dequeued.length ≤ j)
    (high : j < s.dequeued.length + s.capacity) (other : j ≠ i) :
    j % s.capacity ≠ i % s.capacity := by
  have range := sound.owned_range owns
  have bounded := sound.bounded
  exact apart low high range.1 (by omega) other

section
variable {p : Nat} {item : T} {head position : Nat}

theorem write (phase : s.producers p = .writing item head position) :
    Sound { s with
      data := update s.data (position % s.capacity) item
      producers := update s.producers p (.marking item head position) } := by
  have bounded := sound.bounded
  have mine : (s.producers p).owns = some (item,position) := by rw [phase]; rfl
  have view := sound.views p
  rw [phase] at view
  have owns : ∀ q, (update s.producers p (.marking item head position) q).owns = (s.producers q).owns := by
    intro q
    by_cases same : q = p
    · rw [same,update_self,mine]
      rfl
    · rw [update_of_ne same]
  have place := (sound.owned p item position mine).2
  refine { sound with
    views := all_updated view fun q _ => sound.views q
    owned := fun q other i holds => sound.owned q other i ((owns q).symm.trans holds)
    written := written_updated ?_ ?_, kept := ?_, orders := ?_ }
  · rintro other head' i ⟨⟩
    exact update_self ..
  · intro q same other head' i marks
    have theirs : (s.producers q).owns = some (other,i) := by rw [marks]; rfl
    have range := sound.owned_range theirs
    have different : i ≠ position := by
      intro equal
      have there := (sound.owned q other i theirs).2
      rw [equal,place] at there
      cases there
      exact same rfl
    simp only [update_of_ne (sound.elsewhere mine range.1 (by omega) different)]
    exact sound.written q other head' i marks
  · intro i e low there
    have kept := sound.kept i e low there
    have range := sound.kept_range low there
    unfold State.Kept at kept ⊢
    simp only [owns]
    by_cases same : i = position
    · subst same
      rw [place] at there
      cases there
      exact kept.imp (fun published => absurd mine published.2.2) id
    · simp only [update_of_ne (sound.elsewhere mine range.1 range.2 same)]
      exact kept
  · intro q
    simp only [owns]
    exact sound.orders q

theorem mark (phase : s.producers p = .marking item head position) :
    Sound { s with
      ready := update s.ready (position % s.capacity) true
      producers := update s.producers p .idle
      returned := update s.returned p (s.returned p ++ [item]) } := by
  have bounded := sound.bounded
  have mine : (s.producers p).owns = some (item,position) := by rw [phase]; rfl
  obtain ⟨low,place⟩ := sound.owned p item position mine
  have range := sound.owned_range mine
  refine { sound with
    views := all_updated trivial fun q _ => sound.views q
    owned := owned_updated nofun fun q _ => sound.owned q
    written := written_updated nofun fun q _ => sound.written q
    kept := ?_, free := ?_, consumer := ?_, orders := ?_ }
  · intro i e above there
    have kept := sound.kept i e above there
    have range := sound.kept_range above there
    unfold State.Kept at kept ⊢
    by_cases same : i = position
    · subst same
      rw [place] at there
      cases there
      have data := sound.written p item head i phase
      exact .inl ⟨update_self ..,data,by simp [Producer.owns]⟩
    · simp only [update_of_ne (sound.elsewhere mine range.1 range.2 same)]
      by_cases ours : e.1 = p
      · rw [ours,mine] at kept
        simp only [ours,update_self]
        rcases kept with ⟨ready,data,_⟩ | ⟨_,owns⟩
        · exact .inl ⟨ready,data,by simp [Producer.owns]⟩
        · simp only [Option.some.injEq,Prod.mk.injEq] at owns
          exact absurd owns.2.symm same
      · simp only [update_of_ne ours]
        exact kept
  · intro i above below
    have different : i ≠ position := (Nat.lt_of_lt_of_le range.2 above).ne'
    simp only [update_of_ne (sound.elsewhere mine (Nat.le_trans sound.ordered above) below different)]
    exact sound.free i above below
  · have view := sound.consumer
    cases watching : s.consumer with
    | idle => trivial
    | testing tail => rw [watching] at view; exact view
    | reading | clearing =>
      rw [watching] at view
      refine ⟨view.1,view.2.1,?_⟩
      simp only [update_apply,view.2.2,ite_self]
    | advancing tail oldest =>
      rw [watching] at view
      have later : s.dequeued.length ≠ position := by
        simp only [State.oldest,watching] at low
        omega
      refine ⟨view.1,view.2.1,?_⟩
      simp only [update_of_ne (sound.elsewhere mine (Nat.le_refl _) (by omega) later)]
      exact view.2.2
  · intro q
    have order := sound.orders q
    by_cases same : q = p
    · subst same
      simp only [update_self]
      rw [order,mine]
      simp [Producer.owns]
    · simp only [update_of_ne same]
      exact order

end

theorem watch (phase : Consumer T)
    (same : ({ s with consumer := phase } : State T).oldest = s.oldest)
    (view : phase.View s) : Sound { s with consumer := phase } := by
  refine { sound with owned := ?_, kept := ?_, consumer := ?_ }
  · intro p item i owns
    rw [same]
    exact sound.owned p item i owns
  · intro i e low there
    rw [same] at low
    exact sound.kept i e low there
  · cases phase <;> exact view

theorem published (low : s.oldest ≤ i) (ready : s.ready (i % s.capacity) = true)
    (owns : (s.producers p).owns = some (item,i)) : False := by
  have there := (sound.owned p item i owns).2
  rcases sound.kept i (p,item) low there with ⟨_,_,free⟩ | ⟨unready,_⟩
  · exact free owns
  · rw [ready] at unready
    cases unready

variable {tail : Nat}

theorem reads (phase : s.consumer = .reading tail) :
    tail = s.dequeued.length % 2^64 ∧ s.ready (s.dequeued.length % s.capacity) = true ∧
    (s.reserved.map Prod.snd)[s.dequeued.length]? = some (s.data (s.dequeued.length % s.capacity)) ∧
    ∀ p item, (s.producers p).owns ≠ some (item,s.dequeued.length) := by
  have view := sound.consumer
  rw [phase] at view
  obtain ⟨word,inside,ready⟩ := view
  have there := getElem?_eq_getElem inside
  have oldest : s.oldest ≤ s.dequeued.length := by simp only [State.oldest,phase]; omega
  refine ⟨word,ready,?_,fun p item owns => sound.published oldest ready owns⟩
  rcases sound.kept _ _ oldest there with ⟨_,data,_⟩ | ⟨unready,_⟩
  · rw [getElem?_map,there,data]
    rfl
  · rw [ready] at unready
    cases unready

theorem clear {item : T} (phase : s.consumer = .clearing tail item) : Sound { s with
      ready := update s.ready (s.dequeued.length % s.capacity) false
      consumer := .advancing tail item } := by
  have view := sound.consumer
  rw [phase] at view
  obtain ⟨word,oldest,ready⟩ := view
  have low : s.oldest = s.dequeued.length := by simp only [State.oldest,phase]
  refine { sound with owned := ?_, kept := ?_, free := ?_, consumer := ?_ }
  · intro p other i owns
    obtain ⟨above,there⟩ := sound.owned p other i owns
    rw [low] at above
    have later : i ≠ s.dequeued.length := by
      intro same
      subst same
      exact sound.published (Nat.le_of_eq low) ready owns
    exact ⟨Nat.lt_of_le_of_ne above later.symm,there⟩
  · intro i e above there
    have more : s.dequeued.length < i := above
    have range := sound.kept_range (by omega) there
    have other : i % s.capacity ≠ s.dequeued.length % s.capacity :=
      (addresses_apart s.capacity more range.2).symm
    have kept := sound.kept i e (by omega) there
    unfold State.Kept at kept ⊢
    simp only [update_of_ne other]
    exact kept
  · intro i above below
    simp only [update_apply,sound.free i above below,ite_self]
  · exact ⟨word,oldest,update_self ..⟩

theorem advance {item : T} (phase : s.consumer = .advancing tail item) :
    Sound { s with
      tail := addSize tail 1
      consumer := .idle
      dequeued := s.dequeued ++ [item] } := by
  have view := sound.consumer
  rw [phase] at view
  obtain ⟨word,oldest,cleared⟩ := view
  have bounded := sound.bounded
  have length : (s.dequeued ++ [item]).length = s.dequeued.length + 1 := by simp
  have same : s.oldest = (s.dequeued ++ [item]).length := by
    rw [length]
    simp only [State.oldest,phase]
  refine { sound with tail := ?_, bounded := ?_, fifo := ?_, views := ?_, owned := ?_, kept := ?_,
                      free := ?_, consumer := trivial }
  · simp only [length,addSize,word]
    omega
  · simp only [length]
    omega
  · exact prefix_next sound.fifo oldest
  · intro p
    simp only [length]
    exact (sound.views p).give
  · intro p other i owns
    have owned := sound.owned p other i owns
    rw [same] at owned
    exact owned
  · intro i e low there
    exact sound.kept i e (Nat.le_trans (Nat.le_of_eq same) low) there
  · intro i above below
    simp only [length] at below
    rcases Nat.lt_or_ge i (s.dequeued.length + s.capacity) with inside | turn
    · exact sound.free i above inside
    · have round : i = s.dequeued.length + s.capacity := by omega
      simp only [round,Nat.add_mod_right]
      exact cleared

end Sound

theorem sound_produce {next : State T} (sound : Sound s)
    (recent : Recent s (.produce p spurious)) (moved : s.produce p spurious = some next) :
    Sound next := by
  have view := sound.views p
  have ordered := sound.ordered
  have bounded := sound.bounded
  have words := sound.small
  cases phase : s.producers p with
  | idle => simp only [State.produce,phase] at moved; cases moved
  | loading item head seen =>
    simp only [State.produce,phase] at moved view
    cases moved
    exact sound.privately p _ (by rw [phase]; rfl) rfl
      ⟨view.1,view.2.1,s.dequeued.length,sound.tail,Nat.le_refl _,view.2.2⟩
  | testing item head seen tail =>
    simp only [State.produce,phase] at moved view
    cases moved
    refine sound.privately p _ (by rw [phase]; rfl) (by split <;> rfl) ?_
    split
    · trivial
    rename_i fits
    obtain ⟨word,recent,given,read,before,room⟩ := view
    refine ⟨word,recent,?_⟩
    intro unmoved
    -- nobody has reserved since, so the difference of the words is the true one
    rw [word,read] at fits
    unfold subSize at fits
    omega
  | reserving item head seen =>
    simp only [State.produce,phase] at moved view
    simp only [Recent,phase] at recent
    obtain ⟨word,before,room⟩ := view
    split at moved
    · rename_i equal
      cases moved
      have unmoved : s.reserved.length = seen := by
        have words := equal.1
        rw [sound.head,word] at words
        omega
      exact sound.reserve p item head (by rw [phase]; rfl) (by rw [word,unmoved]) (room unmoved)
    · cases moved
      exact sound.privately p _ (by rw [phase]; rfl) rfl ⟨sound.head,Nat.le_refl _,bounded⟩
  | writing item head position =>
    simp only [State.produce,phase] at moved view
    have word : head = position % 2^64 := view
    rw [word,sound.masked,← word] at moved
    cases moved
    exact sound.write phase
  | marking item head position =>
    simp only [State.produce,phase] at moved view
    have word : head = position % 2^64 := view
    rw [word,sound.masked] at moved
    cases moved
    exact sound.mark phase

theorem sound_consume {next : State T} (sound : Sound s) (moved : s.consume = some next) : Sound next := by
  have view := sound.consumer
  cases phase : s.consumer with
  | idle => simp only [State.consume,phase] at moved; cases moved
  | testing tail =>
    simp only [State.consume,phase] at moved view
    have word : tail = s.dequeued.length % 2^64 := view
    have address : tail &&& s.mask = s.dequeued.length % s.capacity := by
      rw [word]
      exact sound.masked _
    simp only [address] at moved
    cases moved
    split
    · rename_i ready
      refine sound.watch _ (by simp only [State.oldest,phase]) ⟨word,?_,ready⟩
      -- a free slot would not be marked
      by_contra none'
      have unready := sound.free s.dequeued.length (by omega) (by have := sound.small; omega)
      rw [ready] at unready
      cases unready
    · exact sound.watch _ (by simp only [State.oldest,phase]) trivial
  | reading tail =>
    simp only [State.consume,phase] at moved
    obtain ⟨word,ready,item,_⟩ := sound.reads phase
    rw [word,sound.masked,← word] at moved
    cases moved
    exact sound.watch _ (by simp only [State.oldest,phase]) ⟨word,item,ready⟩
  | clearing tail item =>
    simp only [State.consume,phase] at moved view
    rw [view.1,sound.masked,← view.1] at moved
    cases moved
    exact sound.clear phase
  | advancing tail item =>
    simp only [State.consume,phase] at moved
    cases moved
    exact sound.advance phase

theorem sound_step (s : State T) (action : Action T) (next : State T) (sound : Sound s)
    (recent : Recent s action) (stepped : step s action = some next) : Sound next := by
  cases action with
  | enqueue p item =>
    simp only [step,State.enqueue] at stepped
    split at stepped <;> cases stepped
    rename_i phase
    exact sound.privately p _ (by rw [phase]; rfl) rfl ⟨sound.head,Nat.le_refl _,sound.bounded⟩
  | produce p spurious => exact sound_produce sound recent stepped
  | dequeue =>
    simp only [step,State.dequeue] at stepped
    split at stepped <;> cases stepped
    rename_i phase
    exact sound.watch _ (by simp only [State.oldest,phase]) sound.tail
  | consume => exact sound_consume sound stepped

theorem sound_start (slots : Slots T) : Sound (start slots) where
  power := slots.power
  head := rfl
  tail := rfl
  bounded := Nat.zero_le _
  fifo := nil_prefix
  views := fun _ => trivial
  owned := fun _ _ _ owns => nomatch owns
  written := fun _ _ _ _ marks => nomatch marks
  kept := fun _ _ _ there => nomatch there
  free := fun _ _ _ => rfl
  consumer := trivial
  orders := fun _ => rfl

theorem Sound.dequeued_order {s : State T} (sound : Sound s) (p : Nat) :
    ((s.reserved.take s.dequeued.length).filter fun e => e.1 = p).map Prod.snd <+: s.returned p := by
  have order := sound.orders p
  have parts := congrArg (fun l => (l.filter fun e => e.1 = p).map Prod.snd)
    (take_append_drop s.dequeued.length s.reserved)
  simp only [filter_append,map_append] at parts
  rw [order] at parts
  refine prefix_of_prefix_length_le ⟨_,parts⟩ (prefix_append _ _) ?_
  have lengths := congrArg length parts
  simp only [length_append,length_map] at lengths ⊢
  cases owns : (s.producers p).owns with
  | none =>
    simp only [owns,map_none,toList_none,length_nil] at lengths
    omega
  | some held =>
    -- the slot it still owns was reserved after everything that came out
    obtain ⟨low,there⟩ := sound.owned p held.1 held.2 owns
    have later : (p,held.1) ∈ s.reserved.drop s.dequeued.length := by
      have above := Nat.le_trans (Sound.oldest_ge s) low
      apply mem_of_getElem? (i := held.2 - s.dequeued.length)
      rw [getElem?_drop,Nat.add_sub_cancel' above]
      exact there
    have some' := length_pos_of_mem (mem_filter.mpr ⟨later,decide_eq_true rfl⟩ :
      (p,held.1) ∈ (s.reserved.drop s.dequeued.length).filter fun e => e.1 = p)
    simp only [owns,map_some,toList_some,length_singleton] at lengths
    omega

/-- Any number of producers and one consumer, however their steps interleave: what comes out is what was reserved, in
that order; each producer's items come out in the order of its calls; a slot is written only after its previous item
was taken; the consumer reads published items only; and the rest is still in its slots. -/
theorem nothing_lost (slots : Slots T) (schedule : List (Action T)) (s : State T)
    (recent : Along step Recent (start slots) schedule)
    (runs : run step (start slots) schedule = some s) :
    s.dequeued <+: s.reserved.map Prod.snd ∧
    (∀ p, s.returned p <+: (s.reserved.filter fun e => e.1 = p).map Prod.snd ∧
      ((s.reserved.take s.dequeued.length).filter fun e => e.1 = p).map Prod.snd <+: s.returned p) ∧
    (∀ p item head position, s.producers p = .writing item head position →
      ∀ i < s.reserved.length, i ≠ position → i % s.capacity = head &&& s.mask → i < s.dequeued.length) ∧
    (∀ tail, s.consumer = .reading tail →
      (s.reserved.map Prod.snd)[s.dequeued.length]? = some (s.data (tail &&& s.mask)) ∧
      ∀ p item head position, s.producers p = .writing item head position → head &&& s.mask ≠ tail &&& s.mask) ∧
    ∀ i e, s.oldest ≤ i → s.reserved[i]? = some e → s.Kept i e := by
  have sound : Sound s := run_guarded step Recent Sound sound_step (sound_start slots) recent runs
  have bounded := sound.bounded
  refine ⟨sound.fifo,fun p => ⟨?_,sound.dequeued_order p⟩,?_,?_,sound.kept⟩
  · rw [sound.orders p]
    exact prefix_append _ _
  · intro p item head position phase i inside other same
    have mine : (s.producers p).owns = some (item,position) := by rw [phase]; rfl
    have word := sound.views p
    rw [phase] at word
    have address : head &&& s.mask = position % s.capacity := by
      rw [show head = position % 2^64 from word]
      exact sound.masked _
    by_contra waiting
    exact sound.elsewhere mine (Nat.not_lt.mp waiting) (by omega) other (same.trans address)
  · intro tail phase
    obtain ⟨word,_,oldest,unowned⟩ := sound.reads phase
    rw [word,sound.masked]
    refine ⟨oldest,?_⟩
    intro p item head position writes
    have mine : (s.producers p).owns = some (item,position) := by rw [writes]; rfl
    have word := sound.views p
    rw [writes] at word
    rw [show head = position % 2^64 from word,sound.masked]
    have later : s.dequeued.length ≠ position := by
      intro same
      subst same
      exact unowned p item mine
    exact (sound.elsewhere mine (Nat.le_refl _) (by have := sound.small; omega) later).symm

def single : Slots Nat := ⟨1,fun _ => 7,⟨0,by decide,rfl⟩⟩

/-- Two producers meet: the second one's exchange fails, finds the queue full, and its
next call gets through when the first item is out. -/
def meeting : List (Action Nat) :=
  [.enqueue 0 4,.enqueue 1 5,.produce 0 false,.produce 1 false,.produce 0 false,.produce 1 false,
    .produce 0 false,.produce 1 false,.produce 1 false,.produce 1 false,.dequeue,.consume,
    .produce 0 false,.produce 0 false,.dequeue,.consume,.consume,.enqueue 1 6,.consume,.consume,
    .produce 1 false,.produce 1 false,.produce 1 true,.produce 1 false,.produce 1 false,
    .produce 1 false]

theorem nothing_lost_meeting : ∃ s, run step (start single) meeting = some s ∧
    Along step Recent (start single) meeting ∧ s.dequeued = [4] ∧ s.reserved = [(0,4),(1,6)] ∧
    s.dequeued <+: s.reserved.map Prod.snd ∧
    (∀ p, s.returned p <+: (s.reserved.filter fun e => e.1 = p).map Prod.snd ∧
      ((s.reserved.take s.dequeued.length).filter fun e => e.1 = p).map Prod.snd <+: s.returned p) ∧
    (∀ p item head position, s.producers p = .writing item head position →
      ∀ i < s.reserved.length, i ≠ position → i % s.capacity = head &&& s.mask → i < s.dequeued.length) ∧
    (∀ tail, s.consumer = .reading tail →
      (s.reserved.map Prod.snd)[s.dequeued.length]? = some (s.data (tail &&& s.mask)) ∧
      ∀ p item head position, s.producers p = .writing item head position → head &&& s.mask ≠ tail &&& s.mask) ∧
    ∀ i e, s.oldest ≤ i → s.reserved[i]? = some e → s.Kept i e := by
  have recent : Along step Recent (start single) meeting := by decide +kernel
  refine exists_final (by decide +kernel) fun runs => ⟨recent,by decide +kernel,by decide +kernel,?_⟩
  exact nothing_lost single meeting _ recent runs

def lap : List (Action Nat) :=
  [.enqueue 1 7,.produce 1 false,.produce 1 false,.produce 1 false,.produce 1 false,
    .produce 1 false,.dequeue,.consume,.consume,.consume,.consume]

def lapped (laps : Nat) : State Nat :=
  ⟨1,fun _ => 7,fun _ => false,laps % 2^64,laps % 2^64,
    Function.update (fun _ => .idle) 0 (.reserving 9 0 0),.idle,List.replicate laps (1,7),
    Function.update (fun _ => []) 1 (List.replicate laps 7),List.replicate laps 7⟩

def filled (laps : Nat) : State Nat :=
  { lapped laps with
    ready := Function.update (fun _ => false) 0 true
    head := (laps + 1) % 2^64
    reserved := List.replicate (laps + 1) (1,7)
    returned := Function.update (fun _ => []) 1 (List.replicate (laps + 1) 7) }

section
variable (laps : Nat)

theorem fill_step : run step (lapped laps) [.enqueue 1 7,.produce 1 false,
    .produce 1 false,.produce 1 false,.produce 1 false,.produce 1 false] = some (filled laps) := by
  have resting : ∀ q : Nat → Producer Nat, q 1 = .idle → update q 1 .idle = q :=
    fun q still => by rw [← still,update_eq_self]
  have room : ¬subSize (laps % 2^64) (laps % 2^64) ≥ 1 := by unfold subSize; omega
  have word : addSize (laps % 2^64) 1 = (laps + 1) % 2^64 := by unfold addSize; omega
  unfold filled lapped
  generalize laps % 2^64 = head at room word
  simp [run,step,State.enqueue,State.produce,State.mask,room,word,resting,replicate_succ']

theorem empty_step : run step (filled laps)
    [.dequeue,.consume,.consume,.consume,.consume] = some (lapped (laps + 1)) := by
  have word : addSize (laps % 2^64) 1 = (laps + 1) % 2^64 := by unfold addSize; omega
  unfold filled lapped
  generalize laps % 2^64 = tail at word
  simp [run,step,State.dequeue,State.consume,State.mask,word,replicate_succ']

theorem lap_step : run step (lapped laps) lap = some (lapped (laps + 1)) := by
  have halves := run_append step (lapped laps) [.enqueue 1 7,.produce 1 false,.produce 1 false,
    .produce 1 false,.produce 1 false,.produce 1 false] [.dequeue,.consume,.consume,.consume,.consume]
  rw [fill_step,bind_some,empty_step] at halves
  exact halves

theorem laps_run : run step (start single)
    ([.enqueue 0 9,.produce 0 false,.produce 0 false] ++ (replicate laps lap).flatten) =
      some (lapped laps) := by
  induction laps with
  | zero => simp [run,step,start,single,lapped,State.enqueue,State.produce,subSize]
  | succ laps ih =>
    rw [replicate_succ',flatten_append,flatten_singleton,← append_assoc,run_append,ih]
    exact lap_step laps

/-- When `head_` has come back to the word that producer 0 loaded, its exchange succeeds
though the queue is full. -/
theorem stale_exchange (round : (laps + 1) % 2^64 = 0) : ∃ s,
    run step (lapped laps) [.enqueue 1 7,.produce 1 false,.produce 1 false,.produce 1 false,
      .produce 1 false,.produce 1 false,.produce 0 false] = some s ∧
    s.producers 0 = .writing 9 0 (laps + 1) ∧ s.capacity = 1 ∧
    s.reserved.length = laps + 2 ∧ s.dequeued.length = laps := by
  have runs := run_append step (lapped laps) [.enqueue 1 7,.produce 1 false,.produce 1 false,
    .produce 1 false,.produce 1 false,.produce 1 false] [.produce 0 false]
  rw [fill_step,bind_some] at runs
  have exchanged : ∃ s, run step (filled laps) [.produce 0 false] = some s ∧
      s.producers 0 = .writing 9 0 (laps + 1) ∧ s.capacity = 1 ∧
      s.reserved.length = laps + 2 ∧ s.dequeued.length = laps := by
    simp only [run,step,filled,lapped,State.produce,update_self,round]
    simp
  obtain ⟨s,last,after⟩ := exchanged
  exact ⟨s,runs.trans last,after⟩

end

/-- After `2^64` reservations the word `head_` repeats, and a producer that slept that
long writes over an item that nobody has taken. -/
theorem item_overwritten : ∃ schedule s, run step (start single) schedule = some s ∧
    ∃ p item head position i, s.producers p = .writing item head position ∧
      i < s.reserved.length ∧ i ≠ position ∧ i % s.capacity = head &&& s.mask ∧
      ¬i < s.dequeued.length := by
  obtain ⟨s,last,phase,capacity,reserved,dequeued⟩ := stale_exchange (2^64 - 1) (by omega)
  have runs := run_append step (start single) ([.enqueue 0 9,.produce 0 false,.produce 0 false] ++
    (replicate (2^64 - 1) lap).flatten) [.enqueue 1 7,.produce 1 false,.produce 1 false,
      .produce 1 false,.produce 1 false,.produce 1 false,.produce 0 false]
  rw [laps_run (2^64 - 1),bind_some,last] at runs
  refine ⟨_,s,runs,0,9,0,2^64 - 1 + 1,2^64 - 1,phase,by omega,by omega,?_,by omega⟩
  simp only [State.mask,capacity,Nat.mod_one,Nat.sub_self,Nat.and_zero]

end ApexPipeline.MpscQueue
