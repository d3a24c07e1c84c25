import ApexPipeline.PerIpRateLimiter

/-! Which entry `evict_lru` takes. An address is moved to the end of `lru_order_`, and out of it, by a swap with the
last one, so the array is in the order of use only as long as that touches its last two places. -/
namespace ApexPipeline.PerIpRateLimiter
open Execution BackPointers List Function Option

/-- A limiter with the number of its calls and the number of the last one about each address. -/
structure Use where
  state : State
  calls : Nat := 0
  last : String → Nat := fun _ => 0

def Use.step (u : Use) (action : Action) : Option Use :=
  (PerIpRateLimiter.step u.state action).map fun next =>
    match action with
    | .allow ip _ _ => ⟨next,u.calls + 1,Function.update u.last ip (u.calls + 1)⟩
    | _ => { u with state := next }

/-- An entry that a call takes away for a new address is the one that was asked about least recently. -/
def EvictsOldest (u : Use) : Action → Prop
  | .allow ip now handle => u.state.entries.lookup ip = none → ∀ old other,
      (u.state.entries.lookup old).isSome → (u.state.entries.lookup other).isSome →
      (u.state.allow ip now handle).2.entries.lookup old = none → u.last old ≤ u.last other
  | _ => True

/-- The address that is moved to the end of `lru_order_` or taken out is one of the last two in it. -/
def Near (u : Use) : Action → Prop
  | .allow ip _ _ => (∀ i ∈ u.state.index ip, u.state.lruOrder.length ≤ i + 2) ∧
      (u.state.index ip = none → u.state.config.maxEntries.toNat ≤ u.state.lruOrder.length → u.state.lruOrder.length ≤ 2)
  | .expire handle => ∀ timer ∈ u.state.timers, timer.handle = handle →
      ∀ i ∈ u.state.index timer.ip, u.state.lruOrder.length ≤ i + 2
  | .updateConfig _ => True

instance (u : Use) : (action : Action) → Decidable (Near u action)
  | .allow .. => inferInstanceAs (Decidable (_ ∧ _))
  | .expire handle => inferInstanceAs (Decidable (∀ timer ∈ u.state.timers, timer.handle = handle → _))
  | .updateConfig _ => inferInstanceAs (Decidable True)

structure Recent (u : Use) : Prop where
  consistent : Consistent u.state
  ordered : u.state.lruOrder.Pairwise fun a b => u.last a < u.last b
  past : ∀ ip ∈ u.state.lruOrder, u.last ip ≤ u.calls

section Orders
variable {s : State} {ip : String} {now : Int} {handle : UInt64}

theorem allowCounter_order : (s.allowCounter ip now).2.lruOrder = s.lruOrder := by
  unfold State.allowCounter
  split <;> rfl

theorem evictLru_order : s.evictLru.lruOrder = (toEnd s.lruOrder 0).dropLast := by
  have kept : ∀ entry, (s.cancelTimer entry).lruOrder = s.lruOrder := by
    intro entry
    unfold State.cancelTimer
    split <;> rfl
  cases shape : s.lruOrder with
  | nil => simp [State.evictLru,shape,toEnd]
  | cons oldest rest =>
    cases found : s.entries.lookup oldest <;> cases rest <;> simp [State.evictLru,shape,found,kept,toEnd]

theorem removeEntry_order (found : s.entries.lookup ip = some entry)
    (inside : entry.lruIndex.toNat < s.lruOrder.length) :
    (s.removeEntry ip).lruOrder = (toEnd s.lruOrder entry.lruIndex.toNat).dropLast := by
  simp only [State.removeEntry,found,if_pos inside,toEnd]
  by_cases ending : entry.lruIndex.toNat = s.lruOrder.length - 1
  · simp [ending]
  · simp only [ne_eq,ending,not_false_eq_true,if_true,if_false]
    split <;> simp

theorem touchLru_order (inside : index.toNat < s.lruOrder.length) :
    (s.touchLru ip index).lruOrder = toEnd s.lruOrder index.toNat := by
  simp only [State.touchLru,toEnd,if_neg (Nat.not_le.mpr inside)]
  split
  · rfl
  · split <;> simp

theorem allow_lookup (absent : s.entries.lookup ip = none) (other : old ≠ ip) :
    (s.allow ip now handle).2.entries.lookup old =
      (if s.entries.keys.length ≥ s.config.maxEntries.toNat then s.evictLru else s).entries.lookup old := by
  simp [State.allow,absent,State.allowCounter,State.scheduleFn,AList.lookup_insert_ne other]

end Orders

namespace Recent
variable {u : Use} {next : State} {ip : String}

variable (recent : Recent u)
include recent

theorem shrink (consistent : Consistent next)
    (fewer : next.lruOrder <+ u.state.lruOrder) : Recent { u with state := next } :=
  ⟨consistent,recent.ordered.sublist fewer,fun ip member => recent.past ip (fewer.subset member)⟩

theorem call (consistent : Consistent next) (fewer : others <+ u.state.lruOrder)
    (absent : ip ∉ others) (order : next.lruOrder = others ++ [ip]) :
    Recent ⟨next,u.calls + 1,update u.last ip (u.calls + 1)⟩ := by
  have same : ∀ other ∈ others, update u.last ip (u.calls + 1) other = u.last other :=
    fun _ member => update_of_ne (ne_of_mem_of_not_mem member absent) ..
  have past : ∀ other ∈ others, u.last other ≤ u.calls :=
    fun other member => recent.past other (fewer.subset member)
  refine ⟨consistent,?_,?_⟩ <;> simp only [order]
  · rw [pairwise_append]
    refine ⟨?_,pairwise_singleton _ _,?_⟩
    · refine (recent.ordered.sublist fewer).imp_of_mem fun {a b} first second before => ?_
      rwa [same a first,same b second]
    · intro other member _ new
      cases mem_singleton.mp new
      rw [same other member,update_self]
      exact Nat.lt_succ_of_le (past other member)
  · refine forall_concat (fun other member => ?_) (Nat.le_of_eq (update_self ..))
    rw [same other member]
    exact Nat.le_succ_of_le (past other member)

theorem moved (known : u.state.index ip = some i) (near : u.state.lruOrder.length ≤ i + 2) :
    toEnd u.state.lruOrder i = u.state.lruOrder.erase ip ++ [ip] :=
  toEnd_near recent.consistent.agrees.nodup ((recent.consistent.agrees ip i).mp known) near

theorem evicts_front (handle : UInt64) (now : Int) : EvictsOldest u (.allow ip now handle) := by
  intro absent old other known also gone
  have agrees := recent.consistent.agrees
  have different : old ≠ ip := by
    rintro rfl
    rw [absent] at known
    cases known
  rw [allow_lookup absent different] at gone
  split at gone
  · have member : ∀ ip, (u.state.entries.lookup ip).isSome → ip ∈ u.state.lruOrder := by
      intro ip there
      rw [agrees.mem_iff,State.index,State.field,isSome_map]
      exact there
    obtain ⟨oldest,entry,front,_,removed,_⟩ := evictLru_spec agrees (ne_nil_of_mem (member old known))
    have first : old = oldest := by
      by_contra still
      have kept := congrFun removed.handle old
      rw [update_of_ne still,State.handle,State.field,gone,State.handle,State.field] at kept
      rw [map_eq_none_iff.mp kept.symm] at known
      cases known
    subst first
    obtain ⟨rest,shape⟩ := head?_eq_some_iff.mp front
    have ordered := recent.ordered
    rw [shape] at ordered
    rcases mem_cons.mp (shape ▸ member other also) with rfl | later
    · exact Nat.le_refl _
    · exact Nat.le_of_lt ((pairwise_cons.mp ordered).1 other later)
  · rw [gone] at known
    cases known

end Recent

theorem recent_step {next : Use} (recent : Recent u) (fair : Fair u.state action)
    (near : u.state.config.maxEntries.toNat ≤ 2 ∨ Near u action)
    (stepped : u.step action = some next) : Recent next := by
  obtain ⟨after,done,rfl⟩ := map_eq_some_iff.mp stepped
  have consistent := (consistent_step recent.consistent fair done).1
  have agrees := recent.consistent.agrees
  have bounded := recent.consistent.bounded
  cases action with
  | allow ip now handle =>
    cases done
    cases found : u.state.entries.lookup ip with
    | none =>
      have unknown : u.state.index ip = none := by simp [State.index,State.field,found]
      have absent : ip ∉ u.state.lruOrder := by simp [agrees.mem_iff,unknown]
      have size := Consistent.size_eq agrees
      have room := recent.consistent.room
      have fewer : (if u.state.entries.keys.length ≥ u.state.config.maxEntries.toNat then u.state.evictLru
          else u.state).lruOrder <+ u.state.lruOrder := by
        split
        · obtain ⟨oldest,rest,shape⟩ := exists_cons_of_length_pos (l := u.state.lruOrder) (by omega)
          have known : u.state.index oldest = some 0 := (agrees oldest 0).mpr (by simp [shape])
          have few : u.state.lruOrder.length ≤ 0 + 2 := by
            rcases near with few | near
            · omega
            · exact near.2 unknown (by omega)
          rw [evictLru_order,recent.moved known few,dropLast_concat]
          exact erase_sublist
        · exact Sublist.refl _
      refine recent.call consistent fewer (fun member => absent (fewer.subset member)) ?_
      simp only [State.allow,found,allowCounter_order]
      rfl
    | some entry =>
      have known : u.state.index ip = some entry.lruIndex.toNat := by
        simp [State.index,State.field,found]
      have place : u.state.lruOrder.length ≤ entry.lruIndex.toNat + 2 := by
        rcases near with few | near
        · omega
        · exact near.1 _ known
      refine recent.call consistent erase_sublist (agrees.nodup.not_mem_erase) ?_
      rw [← recent.moved known place]
      simp only [State.allow,found,allowCounter_order]
      exact touchLru_order (agrees.lt_length known)
  | expire handle =>
    obtain ⟨timer,first,rfl⟩ := map_eq_some_iff.mp done
    have live := mem_of_find?_eq_some first
    have same : timer.handle = handle := by simpa using find?_some first
    obtain ⟨entry,found,_⟩ := map_eq_some_iff.mp
      ((recent.consistent.owned.owner _ _).mpr ⟨timer,live,rfl,rfl⟩)
    have known : u.state.index timer.ip = some entry.lruIndex.toNat := by
      simp [State.index,State.field,found]
    have place : u.state.lruOrder.length ≤ entry.lruIndex.toNat + 2 := by
      rcases near with few | near
      · omega
      · exact near timer live same _ known
    refine recent.shrink consistent ?_
    rw [removeEntry_order]
    case found => exact found
    case inside => exact agrees.lt_length known
    simp only [recent.moved known place,dropLast_concat]
    exact erase_sublist
  | updateConfig config =>
    cases done
    exact recent.shrink consistent (nil_sublist _)

/-- A call for a new address takes the entry away that was asked about least recently, as long as before it no
more than two entries were allowed or every swap was one of the last two. -/
theorem evicts_oldest (config : Config) (room : 1 ≤ config.maxEntries.toNat) (schedule : List Action)
    (reached : run Use.step { state := create config } schedule = some u)
    (fair : Along Use.step (fun u => Fair u.state) { state := create config } schedule)
    (near : Along Use.step (fun u action => u.state.config.maxEntries.toNat ≤ 2 ∨ Near u action)
      { state := create config } schedule) (action : Action) : EvictsOldest u action := by
  have recent : Recent u := by
    refine run_guarded Use.step _ Recent ?_ ⟨consistent_create room,.nil,?_⟩ (fair.and near) reached
    · exact fun u action next recent guard => recent_step recent guard.1 guard.2
    · exact fun _ member => absurd member not_mem_nil
  cases action with
  | allow ip now handle => exact recent.evicts_front handle now
  | expire | updateConfig => trivial

/-- The first call that finds a full table, after the newest entry was used again. -/
theorem evicts_oldest_full : ∃ u, run Use.step { state := create { maxEntries := 3 } }
        [.allow "a" 1 1,.allow "b" 2 2,.allow "c" 3 3,.allow "c" 4 9] = some u ∧
      (u.state.allow "d" 5 4).2.entries.lookup "a" = none ∧ EvictsOldest u (.allow "d" 5 4) := by
  refine exists_final (by decide +kernel) fun runs => ⟨by decide +kernel,?_⟩
  exact evicts_oldest _ (by decide) _ runs (by decide +kernel) (by decide +kernel) _

/-- With three entries, the first eviction puts the newest entry at the front, and the second one
takes it away though `b` has been idle for longer. -/
theorem newest_entry_evicted : ∃ u, run Use.step { state := create { maxEntries := 3 } }
        [.allow "a" 1 1,.allow "b" 2 2,.allow "c" 3 3,.allow "d" 4 4] = some u ∧
      u.state.entries.lookup "e" = none ∧ (u.state.entries.lookup "b").isSome ∧
      (u.state.entries.lookup "c").isSome ∧ u.last "b" < u.last "c" ∧
      (u.state.allow "e" 5 5).2.entries.lookup "c" = none := by
  decide +kernel

end ApexPipeline.PerIpRateLimiter
