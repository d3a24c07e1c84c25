import ApexPipeline.BackPointers
import ApexPipeline.SlidingWindowCounter

/-! `per_ip_rate_limiter.cpp`: a map of entries by address, the array `lru_order_` of their keys, and a timer for
each entry. A timer that has been scheduled and neither cancelled nor run is live. -/
namespace ApexPipeline.PerIpRateLimiter
open Execution BackPointers Function Option AList

structure Config where
  totalLimit : UInt32 := 1000
  windowSize : Int := 60
  numCores : UInt32 := 1
  maxEntries : UInt32 := 65536
  ttlMultiplier : UInt32 := 2
  deriving DecidableEq, Repr

structure Entry where
  counter : SlidingWindowCounter
  timerHandle : UInt64
  lruIndex : UInt32
  deriving DecidableEq, Repr

/-- A live timer, with the address that its task has captured. -/
structure Timer where
  handle : UInt64
  delay : Int
  ip : String
  deriving DecidableEq, Repr

structure State where
  config : Config
  perCoreLimit : UInt32
  ttl : Int
  entries : AList fun _ : String => Entry
  lruOrder : List String
  timers : List Timer

def perCoreLimit (config : Config) : UInt32 := max 1 (config.totalLimit / max 1 config.numCores)

/-- In milliseconds. -/
def ttl (config : Config) : Int := config.windowSize * config.ttlMultiplier.toNat * 1000

def create (config : Config) : State :=
  ⟨config,perCoreLimit config,ttl config,∅,[],[]⟩

namespace State

def scheduleFn (s : State) (handle : UInt64) (ip : String) : State :=
  { s with timers := s.timers ++ [⟨handle,s.ttl,ip⟩] }

def cancelFn (s : State) (handle : UInt64) : State :=
  { s with timers := s.timers.filter fun timer => timer.handle ≠ handle }

def rescheduleFn (s : State) (handle : UInt64) (delay : Int) : State :=
  { s with timers := s.timers.map fun timer =>
      if timer.handle = handle then { timer with delay := delay } else timer }

/-- An assignment to `lru_index` of the entry that `find` gives, if it gives one. -/
def setIndex (s : State) (ip : String) (index : UInt32) : State :=
  match s.entries.lookup ip with
  | some entry => { s with entries := s.entries.insert ip { entry with lruIndex := index } }
  | none => s

def cancelTimer (s : State) (entry : Entry) : State :=
  if entry.timerHandle ≠ 0 then s.cancelFn entry.timerHandle else s

def evictLru (s : State) : State :=
  match s.lruOrder with
  | [] => s
  | oldest :: _ =>
    let s := match s.entries.lookup oldest with
      | some entry => { s.cancelTimer entry with entries := s.entries.erase oldest }
      | none => s
    let last := s.lruOrder.length - 1
    let s := if s.lruOrder.length > 1 then
        let s := match s.lruOrder[last]? with
          | some back => s.setIndex back 0
          | none => s
        { s with lruOrder := swapAt s.lruOrder 0 last }
      else s
    { s with lruOrder := s.lruOrder.dropLast }

/-- The task of a timer, which has run out and is not cancelled. -/
def removeEntry (s : State) (ip : String) : State :=
  match s.entries.lookup ip with
  | none => s
  | some entry =>
    let place := entry.lruIndex.toNat
    let s := { s with entries := s.entries.erase ip }
    if place < s.lruOrder.length then
      let last := s.lruOrder.length - 1
      let s := if place ≠ last then
          let s := match s.lruOrder[last]? with
            | some back => s.setIndex back entry.lruIndex
            | none => s
          { s with lruOrder := swapAt s.lruOrder place last }
        else s
      { s with lruOrder := s.lruOrder.dropLast }
    else s

def touchLru (s : State) (ip : String) (mapIndex : UInt32) : State :=
  if mapIndex.toNat ≥ s.lruOrder.length then s
  else
    let last := s.lruOrder.length - 1
    if mapIndex.toNat = last then s
    else
      let s := match s.lruOrder[last]? with
        | some back => s.setIndex back mapIndex
        | none => s
      let s := s.setIndex ip (.ofNat last)
      { s with lruOrder := swapAt s.lruOrder mapIndex.toNat last }

def allowCounter (s : State) (ip : String) (now : Int) : Bool × State :=
  match s.entries.lookup ip with
  | none => (false,s)
  | some entry =>
    let (allowed,counter) := entry.counter.allow now
    (allowed,{ s with entries := s.entries.insert ip { entry with counter := counter } })

/-- The ticks of `steady_clock` in a second. -/
def ticksPerSecond : Int := 1000000000

/-- `handle` is what the schedule callback returns if it is called. -/
def allow (s : State) (ip : String) (now : Int) (handle : UInt64) : Bool × State :=
  match s.entries.lookup ip with
  | none =>
    let s := if s.entries.keys.length ≥ s.config.maxEntries.toNat then s.evictLru else s
    let s := s.scheduleFn handle ip
    let s := { s with
      entries := s.entries.insert ip
        ⟨.create s.perCoreLimit (s.config.windowSize * ticksPerSecond),handle,.ofNat s.lruOrder.length⟩
      lruOrder := s.lruOrder ++ [ip] }
    s.allowCounter ip now
  | some entry =>
    let s := s.rescheduleFn entry.timerHandle s.ttl
    let s := s.touchLru ip entry.lruIndex
    s.allowCounter ip now

def entryCount (s : State) : UInt32 := .ofNat s.entries.keys.length

def updateConfig (s : State) (config : Config) : State :=
  let s := s.entries.entries.foldl (fun s entry => s.cancelTimer entry.2) s
  { s with
    entries := ∅, lruOrder := [], config := config
    perCoreLimit := PerIpRateLimiter.perCoreLimit config, ttl := PerIpRateLimiter.ttl config }

end State

inductive Action where
  | allow (ip : String) (now : Int) (handle : UInt64)
  | expire (handle : UInt64)
  | updateConfig (config : Config)
  deriving DecidableEq, Repr

def step (s : State) : Action → Option State
  | .allow ip now handle => some (s.allow ip now handle).2
  | .expire handle =>
    (s.timers.find? fun timer => timer.handle = handle).map fun timer =>
      { s with timers := s.timers.filter fun timer => timer.handle ≠ handle }.removeEntry timer.ip
  | .updateConfig config => some (s.updateConfig config)

/-- The schedule callback returns a handle that is not 0 and not in use, and there is room for
an entry. -/
def Fair (s : State) : Action → Prop
  | .allow _ _ handle => handle ≠ 0 ∧ ∀ timer ∈ s.timers, timer.handle ≠ handle
  | .expire _ => True
  | .updateConfig config => 1 ≤ config.maxEntries.toNat

instance (s : State) (action : Action) : Decidable (Fair s action) :=
  match action with
  | .allow _ _ _ => inferInstanceAs (Decidable (_ ∧ _))
  | .expire _ => inferInstanceAs (Decidable True)
  | .updateConfig _ => inferInstanceAs (Decidable (_ ≤ _))

def State.field (s : State) (f : Entry → β) (ip : String) : Option β := (s.entries.lookup ip).map f

def State.index (s : State) : String → Option Nat := s.field fun entry => entry.lruIndex.toNat

def State.counter (s : State) : String → Option SlidingWindowCounter := s.field Entry.counter

def State.handle (s : State) : String → Option UInt64 := s.field Entry.timerHandle

namespace State
variable {s : State} {ip other : String} {index : UInt32} {entry : Entry}

theorem field_setIndex (s : State) (ip : String)
    (blind : ∀ entry index, f { entry with lruIndex := index } = f entry) :
    (s.setIndex ip index).field f = s.field f := by
  funext other
  unfold setIndex
  split
  · next entry found =>
    by_cases same : other = ip
    · subst same
      simp [field,found,blind]
    · simp [field,lookup_insert_ne same]
  · rfl

theorem index_setIndex (known : s.index ip = some i) :
    (s.setIndex ip index).index = update s.index ip (some index.toNat) := by
  funext other
  obtain ⟨entry,found,_⟩ := map_eq_some_iff.mp known
  by_cases same : other = ip
  · subst same
    simp [setIndex,State.index,field,found]
  · simp [setIndex,State.index,field,found,same,lookup_insert_ne same]

@[simp] theorem setIndex_lruOrder : (s.setIndex ip index).lruOrder = s.lruOrder := by
  unfold setIndex
  split <;> rfl

@[simp] theorem setIndex_timers : (s.setIndex ip index).timers = s.timers := by
  unfold setIndex
  split <;> rfl

@[simp] theorem setIndex_config : (s.setIndex ip index).config = s.config := by
  unfold setIndex
  split <;> rfl

@[simp] theorem handle_setIndex : (s.setIndex ip index).handle = s.handle :=
  field_setIndex s ip fun _ _ => rfl

@[simp] theorem counter_setIndex : (s.setIndex ip index).counter = s.counter :=
  field_setIndex s ip fun _ _ => rfl

variable (s : State) (ip : String)

theorem field_erase (timers : List Timer) (f : Entry → β) :
    ({ s with entries := s.entries.erase ip, timers := timers } : State).field f = update (s.field f) ip none := by
  funext other
  by_cases same : other = ip
  · subst same
    simp [field]
  · simp [field,same,lookup_erase_ne same]

theorem field_insert (entry : Entry) (order : List String) (f : Entry → β) :
    ({ s with entries := s.entries.insert ip entry, lruOrder := order } : State).field f =
      update (s.field f) ip (some (f entry)) := by
  funext other
  by_cases same : other = ip
  · subst same
    simp [field]
  · simp [field,same,lookup_insert_ne same]

end State

structure Removed (s next : State) (ip : String) : Prop where
  agrees : Agrees next.lruOrder next.index
  length : next.lruOrder.length + 1 = s.lruOrder.length
  handle : next.handle = Function.update s.handle ip none
  counter : next.counter = Function.update s.counter ip none
  config : next.config = s.config

section
variable {s : State} {ip : String} {entry : Entry}

section
variable (agrees : Agrees s.lruOrder s.index)
include agrees

theorem gap_closed (found : s.entries.lookup ip = some entry)
    (timers : List Timer) (index : UInt32) (place : index.toNat = entry.lruIndex.toNat) :
    let t : State := { s with entries := s.entries.erase ip, timers := timers }
    let last := s.lruOrder.length - 1
    let moved := match s.lruOrder[last]? with
      | some back => t.setIndex back index
      | none => t
    (index.toNat ≠ last → Removed s { moved with lruOrder := (swapAt s.lruOrder index.toNat last).dropLast } ip ∧
        moved.timers = timers) ∧
    (index.toNat = last → Removed s { t with lruOrder := s.lruOrder.dropLast } ip) := by
  have known : s.index ip = some index.toNat := by simp [State.index,State.field,found,place]
  have here := (agrees ip _).mp known
  have inside := agrees.lt_length known
  obtain ⟨back,ending⟩ : ∃ back, s.lruOrder[s.lruOrder.length - 1]? = some back :=
    ⟨_,List.getElem?_eq_getElem (by omega)⟩
  intro t last moved
  have erased : ∀ {β : Type} (f : Entry → β), t.field f = update (s.field f) ip none :=
    s.field_erase ip timers
  constructor
  · intro apart
    have different : back ≠ ip := by
      rintro rfl
      have also := (agrees back _).mpr ending
      exact apart (Option.some.inj (known.symm.trans also))
    have shifted : moved = t.setIndex back index := by simp only [moved,last,ending]
    have present : t.index back = some (s.lruOrder.length - 1) := by
      have := (agrees back _).mpr ending
      simpa [State.index,erased,different] using this
    rw [shifted]
    refine ⟨⟨?_,?_,?_,?_,?_⟩,State.setIndex_timers⟩
    · have closed := agrees.swapRemove here ending apart
      have indices : ({ t.setIndex back index with
          lruOrder := (swapAt s.lruOrder index.toNat last).dropLast } : State).index =
            update (update s.index ip none) back (some index.toNat) := by
        have gone : t.index = update s.index ip none := erased _
        rw [← gone]
        exact State.index_setIndex present
      rw [indices]
      exact closed
    · have size : (swapAt s.lruOrder index.toNat last).length = s.lruOrder.length := by
        simp only [swapAt,here,last,ending,List.length_set]
      simp only [List.length_dropLast,size]
      omega
    · exact State.handle_setIndex.trans (erased _)
    · exact State.counter_setIndex.trans (erased _)
    · exact State.setIndex_config
  · intro atEnd
    refine ⟨?_,?_,erased _,erased _,rfl⟩
    · have ending : s.lruOrder[s.lruOrder.length - 1]? = some ip := by
        change index.toNat = s.lruOrder.length - 1 at atEnd
        rw [← atEnd]
        exact here
      have popped := agrees.pop ending
      have indices : ({ t with lruOrder := s.lruOrder.dropLast } : State).index = update s.index ip none := erased _
      rw [indices]
      exact popped
    · simp only [List.length_dropLast]
      omega

theorem evictLru_spec (some' : s.lruOrder ≠ []) :
    ∃ oldest entry, s.lruOrder.head? = some oldest ∧ s.entries.lookup oldest = some entry ∧
      Removed s s.evictLru oldest ∧ s.evictLru.timers = (s.cancelTimer entry).timers := by
  obtain ⟨oldest,rest,front⟩ := List.exists_cons_of_ne_nil some'
  have known : s.index oldest = some 0 := (agrees oldest 0).mpr (by simp [front])
  obtain ⟨entry,found,place⟩ := map_eq_some_iff.mp known
  refine ⟨oldest,entry,by simp [front],found,?_⟩
  obtain ⟨inner,ending⟩ := gap_closed agrees found (s.cancelTimer entry).timers 0 place.symm
  have cancelled : ({ s.cancelTimer entry with entries := s.entries.erase oldest } : State) =
      { s with entries := s.entries.erase oldest, timers := (s.cancelTimer entry).timers } := by
    unfold State.cancelTimer
    split <;> rfl
  have size : s.lruOrder.length = rest.length + 1 := by simp [front]
  have evicted : s.evictLru =
      let t : State := { s with entries := s.entries.erase oldest, timers := (s.cancelTimer entry).timers }
      let last := s.lruOrder.length - 1
      let moved := match s.lruOrder[last]? with
        | some back => t.setIndex back 0
        | none => t
      if s.lruOrder.length > 1 then
        { moved with lruOrder := (swapAt s.lruOrder 0 last).dropLast }
      else { t with lruOrder := s.lruOrder.dropLast } := by
    unfold State.evictLru
    split
    · next empty => exact absurd empty some'
    next other _ shape =>
    rw [front] at shape
    cases shape
    simp only [found,cancelled]
    split
    · next back _ =>
      cases s.lruOrder[s.lruOrder.length - 1]? with
      | none => rfl
      | some back => simp
    · rfl
  rw [evicted]
  by_cases several : s.lruOrder.length > 1
  · simp only [if_pos several]
    obtain ⟨removed,timers⟩ := inner (by simp only [UInt32.toNat_zero]; omega)
    exact ⟨removed,timers⟩
  · simp only [if_neg several]
    exact ⟨ending (by simp only [UInt32.toNat_zero]; omega),trivial⟩

theorem removeEntry_spec (found : s.entries.lookup ip = some entry) :
    Removed s (s.removeEntry ip) ip ∧ (s.removeEntry ip).timers = s.timers := by
  have known : s.index ip = some entry.lruIndex.toNat := by simp [State.index,State.field,found]
  have inside := agrees.lt_length known
  obtain ⟨inner,ending⟩ := gap_closed agrees found s.timers entry.lruIndex rfl
  simp only [State.removeEntry,found,if_pos inside]
  by_cases apart : entry.lruIndex.toNat = s.lruOrder.length - 1
  · simp only [ne_eq,apart,not_true_eq_false,if_false]
    exact ⟨ending apart,trivial⟩
  simp only [ne_eq,apart,not_false_eq_true,if_true]
  obtain ⟨removed,timers⟩ := inner apart
  cases back : s.lruOrder[s.lruOrder.length - 1]? with
  | none | some back => simpa [back] using removed

theorem touchLru_spec (small : s.lruOrder.length < 2 ^ 32)
    (found : s.entries.lookup ip = some entry) :
    Agrees (s.touchLru ip entry.lruIndex).lruOrder (s.touchLru ip entry.lruIndex).index ∧
      (s.touchLru ip entry.lruIndex).lruOrder.length = s.lruOrder.length ∧
      (s.touchLru ip entry.lruIndex).handle = s.handle ∧
      (s.touchLru ip entry.lruIndex).counter = s.counter ∧
      (s.touchLru ip entry.lruIndex).timers = s.timers ∧
      (s.touchLru ip entry.lruIndex).config = s.config := by
  have known : s.index ip = some entry.lruIndex.toNat := by simp [State.index,State.field,found]
  have here := (agrees ip _).mp known
  have inside := agrees.lt_length known
  obtain ⟨back,ending⟩ : ∃ back, s.lruOrder[s.lruOrder.length - 1]? = some back :=
    ⟨_,List.getElem?_eq_getElem (by omega)⟩
  have also := (agrees back _).mpr ending
  by_cases atEnd : entry.lruIndex.toNat = s.lruOrder.length - 1
  · have same : s.touchLru ip entry.lruIndex = s := by
      simp [State.touchLru,atEnd]
    rw [same]
    exact ⟨agrees,rfl,rfl,rfl,rfl,rfl⟩
  · have touched : s.touchLru ip entry.lruIndex =
        { (s.setIndex back entry.lruIndex).setIndex ip (.ofNat (s.lruOrder.length - 1)) with
          lruOrder := swapAt s.lruOrder entry.lruIndex.toNat (s.lruOrder.length - 1) } := by
      simp [State.touchLru,Nat.not_le.mpr inside,atEnd,ending]
    have first : (s.setIndex back entry.lruIndex).index =
        update s.index back (some entry.lruIndex.toNat) := State.index_setIndex also
    have present : (s.setIndex back entry.lruIndex).index ip = some entry.lruIndex.toNat := by
      rw [first,update_apply]
      split
      · rfl
      · exact known
    have second : ((s.setIndex back entry.lruIndex).setIndex ip (.ofNat (s.lruOrder.length - 1))).index =
        update (s.setIndex back entry.lruIndex).index ip
          (some (UInt32.ofNat (s.lruOrder.length - 1)).toNat) := State.index_setIndex present
    have last : (UInt32.ofNat (s.lruOrder.length - 1)).toNat = s.lruOrder.length - 1 := by
      apply Nat.mod_eq_of_lt
      omega
    rw [first,last] at second
    rw [touched]
    refine ⟨?_,?_,?_,?_,by simp,by simp⟩
    · have swapped := agrees.swap here ending
      rw [← second] at swapped
      exact swapped
    · simp [swapAt,here,ending]
    · exact State.handle_setIndex.trans State.handle_setIndex
    · exact State.counter_setIndex.trans State.counter_setIndex

end

theorem allowCounter_spec (now : Int) (known : s.counter ip = some c) :
    (s.allowCounter ip now).2.lruOrder = s.lruOrder ∧ (s.allowCounter ip now).2.index = s.index ∧
      (s.allowCounter ip now).2.handle = s.handle ∧
      (s.allowCounter ip now).2.counter = update s.counter ip (some (c.allow now).2) ∧
      (s.allowCounter ip now).2.timers = s.timers ∧ (s.allowCounter ip now).2.config = s.config := by
  obtain ⟨entry,found,rfl⟩ := map_eq_some_iff.mp known
  have asked : (s.allowCounter ip now).2 = { s with
      entries := s.entries.insert ip { entry with counter := (entry.counter.allow now).2 } } := by
    simp only [State.allowCounter,found]
  have same : ∀ {β : Type} (f : Entry → β),(∀ entry counter, f { entry with counter := counter } = f entry) →
        (s.allowCounter ip now).2.field f = s.field f := by
    intro β f blind
    rw [asked,State.field_insert s ip _ s.lruOrder,blind]
    apply update_eq_self_iff.mpr
    simp [State.field,found]
  refine ⟨?_,same _ fun _ _ => rfl,same _ fun _ _ => rfl,?_,?_,?_⟩
  · rw [asked]
  · rw [asked]
    exact State.field_insert s ip _ s.lruOrder _
  · rw [asked]
  · rw [asked]

end

structure Owned (timers : List Timer) (handle : String → Option UInt64) : Prop where
  nodup : (timers.map Timer.handle).Nodup
  owner : ∀ ip h, handle ip = some h ↔ ∃ timer ∈ timers, timer.ip = ip ∧ timer.handle = h
  nonzero : ∀ timer ∈ timers, timer.handle ≠ 0

namespace Owned
variable {timers : List Timer} {handle : String → Option UInt64} {ip : String} {h : UInt64}

variable (owned : Owned timers handle)
include owned

theorem same_timer (one : first ∈ timers)
    (other : second ∈ timers) (same : first.handle = second.handle) : first = second :=
  List.inj_on_of_nodup_map owned.nodup one other same

theorem remove (known : handle ip = some h) :
    Owned (timers.filter fun timer => timer.handle ≠ h) (update handle ip none) where
  nodup := owned.nodup.sublist (List.filter_sublist.map _)
  owner := by
    obtain ⟨mine,member,address,held⟩ := (owned.owner ip h).mp known
    intro other g
    simp only [List.mem_filter,decide_eq_true_eq]
    by_cases same : other = ip
    · subst same
      simp only [update_self,reduceCtorEq,false_iff]
      rintro ⟨timer,⟨live,different⟩,address',_⟩
      have also := (owned.owner other timer.handle).mpr ⟨timer,live,address',rfl⟩
      exact different (Option.some.inj (also.symm.trans known))
    · rw [update_of_ne same,owned.owner other g]
      constructor
      · rintro ⟨timer,live,address',held'⟩
        refine ⟨timer,⟨live,?_⟩,address',held'⟩
        intro equal
        have one := owned.same_timer live member (equal.trans held.symm)
        exact same (address'.symm.trans (one ▸ address))
      · rintro ⟨timer,⟨live,_⟩,rest⟩
        exact ⟨timer,live,rest⟩
  nonzero := fun timer member => owned.nonzero timer (List.mem_filter.mp member).1

theorem schedule (delay : Int) (absent : handle ip = none)
    (positive : h ≠ 0) (fresh : ∀ timer ∈ timers, timer.handle ≠ h) :
    Owned (timers ++ [⟨h,delay,ip⟩]) (update handle ip (some h)) where
  nodup := by
    rw [List.map_append,List.nodup_append]
    refine ⟨owned.nodup,by simp,?_⟩
    intro a old b new
    obtain ⟨timer,member,rfl⟩ := List.mem_map.mp old
    simp only [List.map_cons,List.map_nil,List.mem_singleton] at new
    exact new ▸ fresh timer member
  owner := by
    intro other g
    simp only [List.mem_append,List.mem_singleton]
    by_cases same : other = ip
    · subst same
      rw [update_self]
      constructor
      · rintro ⟨⟩
        exact ⟨_,.inr rfl,rfl,rfl⟩
      · rintro ⟨timer,live | rfl,address,held⟩
        · have also := (owned.owner other g).mpr ⟨timer,live,address,held⟩
          rw [absent] at also
          cases also
        · exact congrArg some held
    · rw [update_of_ne same,owned.owner other g]
      constructor
      · rintro ⟨timer,live,rest⟩
        exact ⟨timer,.inl live,rest⟩
      · rintro ⟨timer,live | rfl,address,held⟩
        · exact ⟨timer,live,address,held⟩
        · exact absurd address.symm same
  nonzero := by
    intro timer member
    rcases List.mem_append.mp member with live | new
    · exact owned.nonzero timer live
    · rw [List.mem_singleton.mp new]
      exact positive

theorem reschedule (h : UInt64) (delay : Int) :
    Owned (timers.map fun timer => if timer.handle = h then { timer with delay := delay } else timer) handle where
  nodup := by
    have same : ∀ timer : Timer, Timer.handle
        (if timer.handle = h then { timer with delay := delay } else timer) = timer.handle := by
      intro timer
      split <;> rfl
    simpa [List.map_map,comp_def,same] using owned.nodup
  owner := by
    intro ip g
    rw [owned.owner ip g]
    constructor
    · rintro ⟨timer,live,address,held⟩
      refine ⟨_,List.mem_map_of_mem live,?_⟩
      split <;> exact ⟨address,held⟩
    · rintro ⟨changed,member,address,held⟩
      obtain ⟨timer,live,rfl⟩ := List.mem_map.mp member
      refine ⟨timer,live,?_⟩
      split at address <;> split at held <;> exact ⟨address,held⟩
  nonzero := by
    intro timer member
    obtain ⟨old,live,rfl⟩ := List.mem_map.mp member
    have := owned.nonzero old live
    split <;> exact this

end Owned

structure Consistent (s : State) : Prop where
  agrees : Agrees s.lruOrder s.index
  owned : Owned s.timers s.handle
  bounded : s.lruOrder.length ≤ s.config.maxEntries.toNat
  room : 1 ≤ s.config.maxEntries.toNat

/-- What an action does to the counters of the addresses that it is not about: a call for a new
address may take an entry away, and a new configuration takes all away. -/
def Keeps (s next : State) : Action → Prop
  | .allow ip _ _ => ∀ other, other ≠ ip → next.counter other = s.counter other ∨
      s.counter ip = none ∧ next.counter other = none
  | .expire handle => ∀ timer ∈ s.timers, timer.handle = handle →
      ∀ other, other ≠ timer.ip → next.counter other = s.counter other
  | .updateConfig _ => ∀ other, next.counter other = none

namespace Consistent
variable {s : State} {ip : String} {entry : Entry} {now : Int} {handle : UInt64}

theorem size_eq (agrees : Agrees s.lruOrder s.index) : s.entries.keys.length = s.lruOrder.length := by
  apply List.Perm.length_eq
  apply (List.perm_ext_iff_of_nodup s.entries.keys_nodup agrees.nodup).mpr
  intro ip
  rw [agrees.mem_iff,State.index,State.field,isSome_map,lookup_isSome,mem_keys]

variable (consistent : Consistent s)
include consistent

theorem evict (some' : s.lruOrder ≠ []) :
    ∃ oldest, Removed s s.evictLru oldest ∧ Consistent s.evictLru := by
  obtain ⟨oldest,entry,_,found,removed,timers⟩ := evictLru_spec consistent.agrees some'
  have known : s.handle oldest = some entry.timerHandle := by simp [State.handle,State.field,found]
  have nonzero : entry.timerHandle ≠ 0 := by
    obtain ⟨timer,live,_,same⟩ := (consistent.owned.owner _ _).mp known
    exact same ▸ consistent.owned.nonzero timer live
  refine ⟨oldest,removed,removed.agrees,?_,?_,?_⟩
  · rw [timers,removed.handle,State.cancelTimer,if_pos nonzero]
    exact consistent.owned.remove known
  · have := consistent.bounded
    have := removed.length
    rw [removed.config]
    omega
  · rw [removed.config]
    exact consistent.room

theorem make_room (absent : s.counter ip = none) :
    let t := if s.entries.keys.length ≥ s.config.maxEntries.toNat then s.evictLru else s
    Consistent t ∧ t.lruOrder.length < t.config.maxEntries.toNat ∧ t.config = s.config ∧
      t.entries.lookup ip = none ∧ (∀ timer ∈ t.timers, timer ∈ s.timers) ∧
      ∀ other, t.counter other = s.counter other ∨ t.counter other = none := by
  intro t
  have room := consistent.room
  have bounded := consistent.bounded
  have size := size_eq consistent.agrees
  by_cases full : s.entries.keys.length ≥ s.config.maxEntries.toNat
  · have evicted : t = s.evictLru := if_pos full
    have some' : s.lruOrder ≠ [] := by
      apply List.ne_nil_of_length_pos
      omega
    obtain ⟨oldest,removed,kept⟩ := consistent.evict some'
    have shorter := removed.length
    have counters : ∀ other, s.evictLru.counter other = s.counter other ∨ s.evictLru.counter other = none := by
      intro other
      rw [removed.counter,update_apply]
      split
      · exact .inr rfl
      · exact .inl rfl
    rw [evicted]
    refine ⟨kept,?_,removed.config,?_,?_,counters⟩
    · rw [removed.config]
      omega
    · have gone : s.evictLru.counter ip = none := by
        rcases counters ip with same | none'
        · exact same.trans absent
        · exact none'
      exact map_eq_none_iff.mp gone
    · intro timer live
      obtain ⟨oldest,entry,_,_,_,timers⟩ := evictLru_spec consistent.agrees some'
      rw [timers,State.cancelTimer] at live
      split at live
      · exact (List.mem_filter.mp live).1
      · exact live
  · have same : t = s := if_neg full
    rw [same]
    exact ⟨consistent,by omega,rfl,map_eq_none_iff.mp absent,fun _ live => live,
      fun _ => .inl rfl⟩

theorem allow_new (absent : s.counter ip = none) (positive : handle ≠ 0)
    (fresh : ∀ timer ∈ s.timers, timer.handle ≠ handle) :
    Consistent (s.allow ip now handle).2 ∧ Keeps s (s.allow ip now handle).2 (.allow ip now handle) := by
  obtain ⟨kept,room,config,gone,subset,counters⟩ := consistent.make_room absent
  have start : s.entries.lookup ip = none := map_eq_none_iff.mp absent
  obtain ⟨t,evicted⟩ : ∃ t, t = if s.entries.keys.length ≥ s.config.maxEntries.toNat then s.evictLru
    else s := ⟨_,rfl⟩
  rw [← evicted] at kept room config gone subset counters
  obtain ⟨entry,made⟩ : ∃ entry : Entry, entry = ⟨.create t.perCoreLimit
      (t.config.windowSize * State.ticksPerSecond),handle,.ofNat t.lruOrder.length⟩ := ⟨_,rfl⟩
  obtain ⟨u,inserted⟩ : ∃ u : State, u = { t.scheduleFn handle ip with
      entries := t.entries.insert ip entry, lruOrder := t.lruOrder ++ [ip] } := ⟨_,rfl⟩
  have result : s.allow ip now handle = u.allowCounter ip now := by
    rw [inserted,made]
    simp only [State.allow,start,← evicted]
    rfl
  have fields : ∀ {β : Type} (f : Entry → β),u.field f = update (t.field f) ip (some (f entry)) := by
    intro β f
    rw [inserted]
    exact (t.scheduleFn handle ip).field_insert ip entry (t.lruOrder ++ [ip]) f
  have known : u.counter ip = some entry.counter := by simp [State.counter,fields]
  obtain ⟨order,index,handles,counter,timers,same⟩ := allowCounter_spec now known
  have place : entry.lruIndex.toNat = t.lruOrder.length := by
    have word := t.config.maxEntries.toNat_lt
    rw [made]
    exact Nat.mod_eq_of_lt (by omega)
  rw [result]
  refine ⟨⟨?_,?_,?_,?_⟩,?_⟩
  · have unknown : t.index ip = none := by simp [State.index,State.field,gone]
    have pushed := kept.agrees.push unknown
    have indices : u.index = update t.index ip (some t.lruOrder.length) := by
      rw [← place]
      exact fields _
    rw [order,index,indices,inserted]
    exact pushed
  · have idle : t.handle ip = none := by simp [State.handle,State.field,gone]
    have scheduled := kept.owned.schedule t.ttl idle positive (fun timer live => fresh timer (subset timer live))
    have given : u.handle = update t.handle ip (some handle) := by
      have := fields Entry.timerHandle
      rw [made] at this
      exact this
    rw [timers,handles,given,inserted]
    exact scheduled
  · rw [order,same,inserted]
    simp only [List.length_append,List.length_singleton]
    exact room
  · rw [same,inserted]
    exact kept.room
  · intro other different
    have through : (u.allowCounter ip now).2.counter other = t.counter other := by
      rw [counter,update_of_ne different,State.counter,fields,update_of_ne different]
      rfl
    rw [through]
    rcases counters other with same | none'
    · exact .inl same
    · exact .inr ⟨absent,none'⟩

theorem allow_known (found : s.entries.lookup ip = some entry) :
    Consistent (s.allow ip now handle).2 ∧ Keeps s (s.allow ip now handle).2 (.allow ip now handle) := by
  obtain ⟨t,rescheduled⟩ : ∃ t, t = s.rescheduleFn entry.timerHandle s.ttl := ⟨_,rfl⟩
  have small : t.lruOrder.length < 2 ^ 32 := by
    have := consistent.bounded
    have := s.config.maxEntries.toNat_lt
    rw [rescheduled]
    simp only [State.rescheduleFn]
    omega
  have owned : Owned t.timers t.handle := by
    rw [rescheduled]
    exact consistent.owned.reschedule entry.timerHandle s.ttl
  have agrees : Agrees t.lruOrder t.index := by
    rw [rescheduled]
    exact consistent.agrees
  have same : t.counter = s.counter ∧ t.lruOrder = s.lruOrder ∧ t.config = s.config := by
    rw [rescheduled]
    exact ⟨rfl,rfl,rfl⟩
  have there : t.entries.lookup ip = some entry := by
    rw [rescheduled]
    exact found
  obtain ⟨touched,length,handles,counters,timers,config⟩ := touchLru_spec agrees small there
  have known : (t.touchLru ip entry.lruIndex).counter ip = some entry.counter := by
    rw [counters]
    simp [State.counter,State.field,there]
  obtain ⟨order,index,handles',counter,timers',config'⟩ :=
    allowCounter_spec now known
  have result : s.allow ip now handle = (t.touchLru ip entry.lruIndex).allowCounter ip now := by
    simp only [State.allow,found,rescheduled]
  rw [result]
  refine ⟨⟨?_,?_,?_,?_⟩,?_⟩
  · rw [order,index]
    exact touched
  · rw [timers',handles',timers,handles]
    exact owned
  · rw [order,config',length,config,same.2.1,same.2.2]
    exact consistent.bounded
  · rw [config',config,same.2.2]
    exact consistent.room
  · intro other different
    left
    rw [counter,update_of_ne different,counters,same.1]

theorem expire (live : timer ∈ s.timers) :
    let t : State := { s with timers := s.timers.filter fun other => other.handle ≠ timer.handle }
    Consistent (t.removeEntry timer.ip) ∧ (t.removeEntry timer.ip).counter = update s.counter timer.ip none := by
  intro t
  have known : s.handle timer.ip = some timer.handle :=
    (consistent.owned.owner _ _).mpr ⟨timer,live,rfl,rfl⟩
  obtain ⟨entry,found,_⟩ := map_eq_some_iff.mp known
  obtain ⟨removed,timers⟩ := removeEntry_spec (s := t) consistent.agrees found
  refine ⟨⟨removed.agrees,?_,?_,?_⟩,removed.counter⟩
  · rw [timers,removed.handle]
    exact consistent.owned.remove known
  · have bounded : t.lruOrder.length ≤ t.config.maxEntries.toNat := consistent.bounded
    have := removed.length
    rw [removed.config]
    omega
  · rw [removed.config]
    exact consistent.room

end Consistent

theorem cancelled_timers (entries : List (Sigma fun _ : String => Entry)) (s : State) :
    ∀ timer ∈ (entries.foldl (fun s entry => s.cancelTimer entry.2) s).timers,
      timer ∈ s.timers ∧ ∀ entry ∈ entries, entry.2.timerHandle ≠ 0 → timer.handle ≠ entry.2.timerHandle := by
  induction entries generalizing s with
  | nil => exact fun timer live => ⟨live,by simp⟩
  | cons entry rest ih =>
    intro timer live
    obtain ⟨kept,others⟩ := ih (s.cancelTimer entry.2) timer live
    by_cases nonzero : entry.2.timerHandle ≠ 0
    · rw [State.cancelTimer,if_pos nonzero] at kept
      obtain ⟨old,different⟩ := List.mem_filter.mp kept
      refine ⟨old,List.forall_mem_cons.mpr ⟨?_,others⟩⟩
      exact fun _ => of_decide_eq_true different
    · rw [State.cancelTimer,if_neg nonzero] at kept
      exact ⟨kept,List.forall_mem_cons.mpr ⟨fun h => absurd h nonzero,others⟩⟩

theorem updateConfig_spec {s : State} (owned : Owned s.timers s.handle) (config : Config) :
    (s.updateConfig config).timers = [] := by
  apply List.eq_nil_iff_forall_not_mem.mpr
  intro timer live
  obtain ⟨old,cancelled⟩ := cancelled_timers s.entries.entries s timer live
  have known := (owned.owner timer.ip timer.handle).mpr ⟨timer,old,rfl,rfl⟩
  obtain ⟨entry,found,same⟩ := map_eq_some_iff.mp known
  have member := mem_lookup_iff.mp (mem_def.mpr found)
  have nonzero := owned.nonzero timer old
  exact cancelled _ member (by simpa [same] using nonzero) same.symm

theorem consistent_step (consistent : Consistent s) (fair : Fair s action) (steps : step s action = some next) :
    Consistent next ∧ Keeps s next action := by
  cases action with
  | allow ip now handle =>
    cases steps
    cases found : s.entries.lookup ip with
    | none => exact consistent.allow_new (by simp [State.counter,State.field,found]) fair.1 fair.2
    | some entry => exact consistent.allow_known found
  | expire handle =>
    obtain ⟨timer,first,rfl⟩ := map_eq_some_iff.mp steps
    have live := List.mem_of_find?_eq_some first
    have same : timer.handle = handle := by simpa using List.find?_some first
    subst same
    obtain ⟨kept,counter⟩ := consistent.expire live
    refine ⟨kept,?_⟩
    intro also member equal other different
    rw [consistent.owned.same_timer member live equal] at different
    rw [counter,update_of_ne different]
  | updateConfig config =>
    cases steps
    have empty := updateConfig_spec consistent.owned config
    refine ⟨⟨?_,?_,?_,fair⟩,fun _ => rfl⟩
    · intro ip i
      simp [State.index,State.field,State.updateConfig]
    · rw [empty]
      refine ⟨List.nodup_nil,?_,by simp⟩
      intro ip h
      simp [State.handle,State.field,State.updateConfig]
    · simp [State.updateConfig]

theorem consistent_create (room : 1 ≤ config.maxEntries.toNat) : Consistent (create config) where
  agrees := by
    intro ip i
    simp [create,State.index,State.field]
  owned := ⟨by simp [create],by simp [create,State.handle,State.field],by simp [create]⟩
  bounded := Nat.zero_le _
  room := room

/-- The map and the array are in bijection, there are at most `max_entries` entries, the live
timers are those of the entries, and no action touches a counter that it is not about. -/
theorem limiter_consistent (config : Config) (room : 1 ≤ config.maxEntries.toNat)
    (schedule : List Action) (final : State) (fairly : Along step Fair (create config) schedule)
    (runs : run step (create config) schedule = some final) :
    final.lruOrder.Nodup ∧ (∀ ip, ip ∈ final.lruOrder ↔ ip ∈ final.entries) ∧
      (∀ ip entry, final.entries.lookup ip = some entry → final.lruOrder[entry.lruIndex.toNat]? = some ip) ∧
      final.entryCount.toNat = final.entries.keys.length ∧
      final.entryCount ≤ final.config.maxEntries ∧
      (∀ ip entry, final.entries.lookup ip = some entry → ∃ timer ∈ final.timers,
        timer.ip = ip ∧ timer.handle = entry.timerHandle ∧ ∀ other ∈ final.timers, other.ip = ip → other = timer) ∧
      (∀ timer ∈ final.timers, ∃ entry, final.entries.lookup timer.ip = some entry ∧
        entry.timerHandle = timer.handle) ∧
      final.timers.Nodup ∧
      ∀ action next, Fair final action → step final action = some next → Keeps final next action := by
  have consistent := run_guarded step Fair Consistent
    (fun s action next consistent fair steps => (consistent_step consistent fair steps).1)
    (consistent_create room) fairly runs
  have agrees := consistent.agrees
  have owned := consistent.owned
  have size := Consistent.size_eq agrees
  have bounded := consistent.bounded
  have word := final.config.maxEntries.toNat_lt
  have counted : final.entryCount.toNat = final.entries.keys.length := Nat.mod_eq_of_lt (by omega)
  refine ⟨agrees.nodup,?_,?_,counted,?_,?_,?_,owned.nodup.of_map _,?_⟩
  · intro ip
    rw [agrees.mem_iff,State.index,State.field,isSome_map,lookup_isSome]
  · intro ip entry found
    apply (agrees ip _).mp
    simp [State.index,State.field,found]
  · apply UInt32.le_iff_toNat_le.mpr
    omega
  · intro ip entry found
    obtain ⟨timer,live,address,same⟩ := (owned.owner ip entry.timerHandle).mp
      (by simp [State.handle,State.field,found])
    refine ⟨timer,live,address,same,?_⟩
    intro other also address'
    apply owned.same_timer also live
    have first := (owned.owner ip other.handle).mpr ⟨other,also,address',rfl⟩
    have second := (owned.owner ip timer.handle).mpr ⟨timer,live,address,rfl⟩
    exact Option.some.inj (first.symm.trans second)
  · intro timer live
    exact map_eq_some_iff.mp ((owned.owner _ _).mpr ⟨timer,live,rfl,rfl⟩)
  · exact fun action next fair steps => (consistent_step consistent fair steps).2

/-- Two entries at most: one is touched, one evicted, and one runs out. -/
theorem limiter_consistent_evicting :
    ∃ final, run step (create ⟨10,60,2,2,2⟩) [.allow "a" 1 7,.allow "b" 2 8,.allow "a" 3 9,
        .allow "c" 4 9,.expire 9,.allow "b" 5 3] = some final ∧
      final.lruOrder = ["a","b"] ∧ final.timers = [⟨7,120000,"a"⟩,⟨3,120000,"b"⟩] ∧
      (∀ ip, ip ∈ final.lruOrder ↔ ip ∈ final.entries) ∧ final.entryCount ≤ 2 := by
  refine exists_final (by decide +kernel) fun runs => ?_
  obtain ⟨_,same,_,_,bounded,_⟩ := limiter_consistent ⟨10,60,2,2,2⟩ (by decide) _ _ (by decide +kernel) runs
  exact ⟨by decide +kernel,by decide +kernel,same,bounded⟩

end ApexPipeline.PerIpRateLimiter
