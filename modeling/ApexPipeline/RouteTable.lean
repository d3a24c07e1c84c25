import ApexPipeline.DecimalText
import ApexPipeline.SortedSearch
import ApexPipeline.WireHeader

/-! `route_table.cpp`: message ids are routed by ranges. A table that was built has its ranges in order
and apart, so that the binary search is a search. -/
namespace ApexPipeline.Routing
open SortedSearch List

structure RouteEntry where
  rangeBegin : UInt32
  rangeEnd : UInt32
  kafkaTopic : Bytes
  deriving DecidableEq, Repr

def RouteEntry.contains (r : RouteEntry) (msgId : UInt32) : Bool := r.rangeBegin ≤ msgId && msgId ≤ r.rangeEnd

/-- `std::ranges::sort` by the end of the range, which is not stable. -/
abbrev RouteSorter := Sorter RouteEntry RouteEntry.rangeEnd

/-- Neighbours are compared. -/
def validate : List RouteEntry → Except ErrorCode Unit
  | previous :: current :: rest =>
    if previous.rangeEnd ≥ current.rangeBegin then .error .serviceError else validate (current :: rest)
  | _ => .ok ()

structure Ordered (entries : List RouteEntry) : Prop where
  proper : ∀ r ∈ entries, r.rangeBegin ≤ r.rangeEnd
  apart : entries.Pairwise fun a b => a.rangeEnd < b.rangeBegin

theorem validate_ok_iff (proper : ∀ r ∈ entries, r.rangeBegin ≤ r.rangeEnd) :
    validate entries = .ok () ↔ entries.Pairwise fun a b => a.rangeEnd < b.rangeBegin := by
  induction entries with
  | nil => simp [validate]
  | cons previous rest ih =>
    cases rest with
    | nil => simp [validate]
    | cons current rest =>
      have ih := ih fun r member => proper r (mem_cons_of_mem _ member)
      rw [validate,pairwise_cons]
      split
      · rename_i overlap
        refine ⟨nofun,fun ordered => ?_⟩
        have := ordered.1 current mem_cons_self
        simp only [UInt32.lt_iff_toNat_lt,ge_iff_le,UInt32.le_iff_toNat_le] at this overlap
        omega
      · rename_i apart
        rw [ih]
        refine ⟨fun ordered => ⟨fun later member => ?_,ordered⟩,And.right⟩
        have currently := proper current (mem_cons_of_mem _ mem_cons_self)
        simp only [UInt32.lt_iff_toNat_lt,ge_iff_le,UInt32.le_iff_toNat_le] at apart currently ⊢
        rcases mem_cons.mp member with rfl | further
        · omega
        -- the range between ends before the later one begins
        · have := (pairwise_cons.mp ordered).1 later further
          simp only [UInt32.lt_iff_toNat_lt] at this
          omega

structure RouteTable where
  entries : List RouteEntry
  ordered : Ordered entries

def build (sorter : RouteSorter) (routes : List RouteEntry) : Except ErrorCode RouteTable :=
  if improper : ∃ r ∈ routes, r.rangeBegin > r.rangeEnd then .error .serviceError
  else
    have proper : ∀ r ∈ sorter.sort routes, r.rangeBegin ≤ r.rangeEnd := fun r member =>
      UInt32.not_lt.mp fun reversed => improper ⟨r,(sorter.perm routes).mem_iff.mp member,reversed⟩
    match validated : validate (sorter.sort routes) with
    | .error code => .error code
    | .ok _ => .ok ⟨sorter.sort routes,proper,(validate_ok_iff proper).mp validated⟩

def RouteTable.resolve (table : RouteTable) (msgId : UInt32) : Option Bytes :=
  match table.entries[lowerBound (fun r => decide (r.rangeEnd < msgId)) table.entries]? with
  | none => none
  | some r => if msgId ≥ r.rangeBegin ∧ msgId ≤ r.rangeEnd then some r.kafkaTopic else none

def Disjoint (a b : RouteEntry) : Prop := ∀ msgId, ¬ (a.contains msgId ∧ b.contains msgId)

theorem Disjoint.symm {a b : RouteEntry} (disjoint : Disjoint a b) : Disjoint b a :=
  fun msgId both => disjoint msgId both.symm

theorem disjoint_iff_lt (proper : a.rangeBegin ≤ a.rangeEnd) (sorted : a.rangeEnd ≤ b.rangeEnd) :
    Disjoint a b ↔ a.rangeEnd < b.rangeBegin := by
  constructor
  · intro disjoint
    have := disjoint a.rangeEnd
    simp only [RouteEntry.contains,Bool.and_eq_true,decide_eq_true_eq,UInt32.le_iff_toNat_le] at this proper sorted
    rw [UInt32.lt_iff_toNat_lt]
    omega
  · intro apart msgId
    simp only [RouteEntry.contains,Bool.and_eq_true,decide_eq_true_eq,UInt32.le_iff_toNat_le,
      UInt32.lt_iff_toNat_lt] at apart ⊢
    omega

theorem build_ok_iff (sorter : RouteSorter) (routes : List RouteEntry) :
    (build sorter routes).isOk ↔ (∀ r ∈ routes, r.rangeBegin ≤ r.rangeEnd) ∧ routes.Pairwise Disjoint := by
  have same := sorter.perm routes
  rw [← same.pairwise_iff Disjoint.symm]
  by_cases improper : ∃ r ∈ routes, r.rangeBegin > r.rangeEnd
  · simp only [build,dif_pos improper]
    obtain ⟨r,member,reversed⟩ := improper
    exact ⟨nofun,fun valid => absurd (valid.1 r member) (UInt32.not_le.mpr reversed)⟩
  have proper : ∀ r ∈ routes, r.rangeBegin ≤ r.rangeEnd := fun r member =>
    UInt32.not_lt.mp fun reversed => improper ⟨r,member,reversed⟩
  have proper' : ∀ r ∈ sorter.sort routes, r.rangeBegin ≤ r.rangeEnd := fun r member =>
    proper r (same.mem_iff.mp member)
  have neighbours : (build sorter routes).isOk ↔ validate (sorter.sort routes) = .ok () := by
    simp only [build,dif_neg improper]
    split <;> simp_all [Except.isOk,Except.toBool]
  rw [neighbours,validate_ok_iff proper']
  have sorted := sorter.sorted routes
  constructor
  · intro apart
    refine ⟨proper,(sorted.and apart).imp_of_mem ?_⟩
    intro a b member _ both
    exact (disjoint_iff_lt (proper' a member) both.1).mpr both.2
  · intro valid
    refine (sorted.and valid.2).imp_of_mem ?_
    intro a b member _ both
    exact (disjoint_iff_lt (proper' a member) both.1).mp both.2

theorem build_entries (built : build sorter routes = .ok table) : table.entries.Perm routes := by
  simp only [build] at built
  split at built
  · cases built
  split at built <;> cases built
  exact sorter.perm routes

theorem find_contains (ordered : Ordered entries) (msgId : UInt32) : entries.find? (·.contains msgId) =
      (entries.find? fun r => !decide (r.rangeEnd < msgId)).filter (·.contains msgId) := by
  induction entries with
  | nil => rfl
  | cons r rest ih =>
    have apart := pairwise_cons.mp ordered.apart
    have ih := ih ⟨fun other member => ordered.proper other (mem_cons_of_mem _ member),apart.2⟩
    by_cases before : r.rangeEnd < msgId
    · have outside : r.contains msgId = false := by
        simp [RouteEntry.contains,before]
      simpa [outside,before] using ih
    by_cases inside : r.contains msgId
    · simp [inside,before,Option.filter_some]
    -- every later range begins after this one ends
    have none_later : rest.find? (·.contains msgId) = none := by
      apply find?_eq_none.mpr
      intro other member contained
      have later := apart.1 other member
      simp only [RouteEntry.contains,Bool.and_eq_true,decide_eq_true_eq,UInt32.le_iff_toNat_le,
        UInt32.lt_iff_toNat_lt] at contained later before
      omega
    simp [inside,before,none_later,Option.filter_some]

theorem RouteTable.resolve_eq_find (table : RouteTable) (msgId : UInt32) :
    table.resolve msgId = (table.entries.find? (·.contains msgId)).map RouteEntry.kafkaTopic := by
  have ordered : table.entries.Pairwise fun a b => decide (b.rangeEnd < msgId) → decide (a.rangeEnd < msgId) := by
    refine table.ordered.apart.imp_of_mem ?_
    intro a b _ member apart after
    have proper := table.ordered.proper b member
    simp only [decide_eq_true_eq,UInt32.le_iff_toNat_le,UInt32.lt_iff_toNat_lt] at after apart proper ⊢
    omega
  rw [resolve,lowerBound_find ordered,find_contains table.ordered msgId]
  cases table.entries.find? fun r => !decide (r.rangeEnd < msgId) with
  | none => rfl
  | some r =>
    by_cases inside : r.contains msgId
    · have bounds : msgId ≥ r.rangeBegin ∧ msgId ≤ r.rangeEnd := by simpa [RouteEntry.contains] using inside
      simp [bounds,inside,Option.filter_some]
    · have bounds : ¬ (msgId ≥ r.rangeBegin ∧ msgId ≤ r.rangeEnd) := by simpa [RouteEntry.contains] using inside
      simp [bounds,inside,Option.filter_some]

theorem route_table_exact (sorter : RouteSorter) (routes : List RouteEntry) :
    ((build sorter routes).isOk ↔ (∀ r ∈ routes, r.rangeBegin ≤ r.rangeEnd) ∧ routes.Pairwise Disjoint) ∧
    ∀ table, build sorter routes = .ok table → ∀ msgId,
      table.resolve msgId = (routes.find? (·.contains msgId)).map RouteEntry.kafkaTopic ∧
      ∀ r ∈ routes, r.contains msgId → ∀ other ∈ routes, other.contains msgId → other = r := by
  refine ⟨build_ok_iff sorter routes,fun table built msgId => ?_⟩
  have same := build_entries built
  have disjoint := ((build_ok_iff sorter routes).mp (by rw [built]; rfl)).2
  have unique : ∀ r ∈ routes, r.contains msgId → ∀ other ∈ routes, other.contains msgId → other = r := by
    intro r member inside other there also
    by_contra different
    have : Std.Symm Disjoint := ⟨fun _ _ => Disjoint.symm⟩
    exact disjoint.forall there member different msgId ⟨also,inside⟩
  refine ⟨?_,unique⟩
  rw [table.resolve_eq_find msgId]
  congr 1
  cases found : routes.find? (·.contains msgId) with
  | none =>
    apply find?_eq_none.mpr
    intro r member
    exact find?_eq_none.mp found r (same.mem_iff.mp member)
  | some r =>
    have member := mem_of_find?_eq_some found
    have inside := find?_some found
    cases searched : table.entries.find? (·.contains msgId) with
    | none => exact absurd inside (find?_eq_none.mp searched r (same.mem_iff.mpr member))
    | some other =>
      have there := same.mem_iff.mp (mem_of_find?_eq_some searched)
      have also := find?_some searched
      rw [unique r member inside other there also]

def insertionSorter : RouteSorter where
  sort := List.insertionSort fun a b => a.rangeEnd ≤ b.rangeEnd
  perm := List.perm_insertionSort _
  sorted l := by
    have total : Std.Total fun a b : RouteEntry => a.rangeEnd ≤ b.rangeEnd := ⟨fun a b => UInt32.le_total _ _⟩
    have transitive : IsTrans RouteEntry fun a b => a.rangeEnd ≤ b.rangeEnd := ⟨fun _ _ _ => UInt32.le_trans⟩
    exact List.pairwise_insertionSort _ l

example : ((build insertionSorter [⟨2000,2999,[2]⟩,⟨0,999,[0]⟩,⟨4294967295,4294967295,[3]⟩]).toOption.map fun table =>
    [0,999,1000,2500,4294967295].map table.resolve) = some [some [0],some [0],none,some [2],some [3]] := by decide

end ApexPipeline.Routing
