import ApexPipeline.SlabAllocator

/-! The books of the slab pool. The slots of all chunks are apart; those in the free
list and those in use together are all of them. -/
namespace ApexPipeline.SlabAllocator
open MathUtils Regions LinkedStack Execution Function

structure Layout (s : Slab) : Prop where
  slot : 16 ≤ s.slotSize
  placed : ∀ c ∈ s.chunks, 0 < c.data ∧ c.data + s.slotSize * c.count < 2^64
  separate : (s.chunks.map s.region).Pairwise Region.Apart

theorem mem_slots (s : Slab) (a : Nat) : a ∈ s.slots ↔
    ∃ c ∈ s.chunks, ∃ i < c.count, a = c.data + i * s.slotSize := by
  simp only [Slab.slots,List.mem_flatMap,List.mem_map,List.mem_range]
  exact exists_congr fun c => and_congr_right fun _ => exists_congr fun i =>
    and_congr_right fun _ => eq_comm

theorem slots_length (s : Slab) : s.slots.length = (s.chunks.map ChunkInfo.count).sum := by
  simp [Slab.slots,List.length_flatMap]

theorem slot_within (s : Slab) (inside : i < c.count) :
    Region.Within ⟨c.data + i * s.slotSize,s.slotSize⟩ (s.region c) := by
  have last : (i + 1) * s.slotSize ≤ c.count * s.slotSize := Nat.mul_le_mul_right _ inside
  rw [Nat.succ_mul,Nat.mul_comm c.count] at last
  simp only [Region.Within,Slab.region]
  omega

namespace Layout
variable {s : Slab}

section
variable (layout : Layout s)
include layout

theorem apart : s.slots.Pairwise fun a b =>
    Region.Apart ⟨a,s.slotSize⟩ ⟨b,s.slotSize⟩ := by
  refine List.pairwise_flatMap.mpr ⟨?_,?_⟩
  · intro c _
    rw [List.pairwise_map]
    refine List.pairwise_lt_range.imp ?_
    intro i j less
    have next : (i + 1) * s.slotSize ≤ j * s.slotSize := Nat.mul_le_mul_right _ less
    rw [Nat.succ_mul] at next
    simp only [Region.Apart]
    omega
  · refine (List.pairwise_map.mp layout.separate).imp ?_
    intro c d separate a mine b theirs
    obtain ⟨i,inside,rfl⟩ := List.mem_map.mp mine
    obtain ⟨j,inside',rfl⟩ := List.mem_map.mp theirs
    exact separate.within (slot_within s (List.mem_range.mp inside)) (slot_within s (List.mem_range.mp inside'))

theorem nodup : s.slots.Nodup := by
  refine layout.apart.imp ?_
  intro a b separate same
  have := layout.slot
  simp only [Region.Apart,same] at separate
  omega

theorem valid : ∀ a ∈ s.slots, a ≠ 0 := by
  intro a member
  obtain ⟨c,chunk,i,_,rfl⟩ := (mem_slots s a).mp member
  have := (layout.placed c chunk).1
  omega

theorem countable : s.slots.length < 2^64 := by
  have bound := total_le ⟨1,2^64 - 1⟩ layout.separate (by
    intro r member
    obtain ⟨c,chunk,rfl⟩ := List.mem_map.mp member
    have placed := layout.placed c chunk
    simp only [Region.Within,Slab.region]
    omega)
  have bytes : total (s.chunks.map s.region) = s.slotSize * s.slots.length := by
    rw [slots_length,← List.sum_map_mul_left]
    simp [total,Slab.region,comp_def]
  rw [bytes] at bound
  have wide := Nat.mul_le_mul_right s.slots.length layout.slot
  simp only at bound
  omega

end

theorem ownsIn_iff (pointer : Nat) (positive : 0 < slotSize)
    (placed : ∀ c ∈ chunks, c.data + slotSize * c.count < 2^64)
    (separate : chunks.Pairwise fun c d =>
      Region.Apart ⟨c.data,slotSize * c.count⟩ ⟨d.data,slotSize * d.count⟩) :
    Slab.ownsIn slotSize pointer chunks = true ↔ ∃ c ∈ chunks, ∃ i < c.count, pointer = c.data + i * slotSize := by
  induction chunks with
  | nil => simp [Slab.ownsIn]
  | cons c rest ih =>
    have bound := placed c List.mem_cons_self
    obtain ⟨others,later⟩ := List.pairwise_cons.mp separate
    have ends : addSize c.data (mulSize slotSize c.count) = c.data + slotSize * c.count := by
      rw [mulSize_eq _ _ (by omega),addSize_eq _ _ bound]
    have tail := ih (fun d member => placed d (List.mem_cons_of_mem _ member)) later
    simp only [Slab.ownsIn,ends,List.exists_mem_cons_iff]
    split
    · rename_i inside
      have offset := subSize_eq pointer c.data inside.1 (by omega)
      rw [offset,beq_iff_eq]
      constructor
      · intro aligned
        obtain ⟨i,multiple⟩ := Nat.dvd_of_mod_eq_zero aligned
        have less : slotSize * i < slotSize * c.count := by omega
        refine .inl ⟨i,Nat.lt_of_mul_lt_mul_left less,?_⟩
        rw [Nat.mul_comm]
        omega
      · rintro (⟨i,_,rfl⟩ | ⟨d,member,i,less,same⟩)
        · simp
        · -- a slot of another chunk does not lie in this one
          exfalso
          have within := Nat.mul_le_mul_left slotSize (Nat.succ_le_of_lt less)
          rw [Nat.mul_succ,Nat.mul_comm slotSize i] at within
          have separate := others d member
          simp only [Region.Apart] at separate
          omega
    · rename_i outside
      rw [tail]
      constructor
      · exact .inr
      · rintro (⟨i,less,rfl⟩ | elsewhere)
        · have within := Nat.mul_le_mul_left slotSize (Nat.succ_le_of_lt less)
          rw [Nat.mul_succ,Nat.mul_comm slotSize i] at within
          omega
        · exact elsewhere

theorem owns_iff (layout : Layout s) (pointer : Nat) : s.owns pointer = true ↔ pointer ∈ s.slots := by
  rw [mem_slots]
  exact ownsIn_iff pointer (by have := layout.slot; omega)
    (fun c member => (layout.placed c member).2) (List.pairwise_map.mp layout.separate)

theorem snoc {chunk count : Nat} (layout : Layout s)
    (chunks : t.chunks = s.chunks ++ [⟨chunk,count⟩]) (size : t.slotSize = s.slotSize)
    (positive : 0 < chunk) (fits : chunk + s.slotSize * count < 2^64)
    (apart : ∀ c ∈ s.chunks, Region.Apart (s.region c) ⟨chunk,s.slotSize * count⟩) : Layout t := by
  have regions : t.region = s.region := by
    funext c
    simp only [Slab.region,size]
  refine ⟨size ▸ layout.slot,?_,?_⟩
  · intro c member
    rw [chunks] at member
    rw [size]
    rcases mem_concat member with earlier | rfl
    · exact layout.placed c earlier
    · exact ⟨positive,fits⟩
  · rw [chunks,regions,List.map_append,List.pairwise_append]
    refine ⟨layout.separate,List.pairwise_singleton _ _,?_⟩
    intro r earlier t new
    obtain ⟨c,member,rfl⟩ := List.mem_map.mp earlier
    cases List.mem_singleton.mp new
    exact apart c member

end Layout

theorem slots_snoc {s t : Slab} {chunk count : Nat}
    (chunks : t.chunks = s.chunks ++ [⟨chunk,count⟩]) (size : t.slotSize = s.slotSize) :
    t.slots = s.slots ++ (List.range count).map fun i => chunk + i * s.slotSize := by
  simp [Slab.slots,chunks,size]

theorem granted_size (roundable : Roundable s count) (accepted : ¬(count > 0 ∧ s.slotSize > sizeMax / count)) :
    s.slotSize * count ≤ s.allocSize count := by
  have small : s.slotSize * count ≤ 2^64 - 64 := by
    rcases roundable with fits | wraps
    · exact fits
    have some' : 0 < count := by
      by_contra none'
      rw [Nat.eq_zero_of_not_pos none'] at wraps
      omega
    refine absurd ⟨some',(Nat.div_lt_iff_lt_mul some').mpr ?_⟩ accepted
    unfold sizeMax
    omega
  unfold Slab.allocSize
  rw [mulSize_eq _ _ (by omega)]
  exact (alignUp_spec (s.slotSize * count) 6 (by decide) (by omega)).2.1

theorem next_update (memory : Memory) (a : Nat) (node : FreeNode) : (fun b => (update memory a node b).next) =
      update (fun b => (memory b).next) a node.next := by
  funext b
  by_cases same : b = a
  · rw [same,update_self,update_self]
  · rw [update_of_ne same,update_of_ne same]

theorem thread_links (s : Slab) (chunk count : Nat) (positive : 0 < chunk) (slot : 0 < s.slotSize)
    (fits : chunk + count * s.slotSize < 2^64) (head : Nat) (memory : Memory) (free : List Nat)
    (links : Links (fun a => (memory a).next) head free)
    (marked : ∀ a ∈ free, (memory a).magic = SLAB_MAGIC_FREED)
    (fresh : ∀ i < count, chunk + i * s.slotSize ∉ free) :
    Links (fun a => ((s.thread chunk count (head,memory)).2 a).next) (s.thread chunk count (head,memory)).1
      ((List.range count).map (fun i => chunk + i * s.slotSize) ++ free) ∧
    ∀ a ∈ (List.range count).map (fun i => chunk + i * s.slotSize) ++ free,
      ((s.thread chunk count (head,memory)).2 a).magic = SLAB_MAGIC_FREED := by
  induction count generalizing head memory free with
  | zero => exact ⟨links,marked⟩
  | succ count ih =>
    rw [Nat.succ_mul] at fits
    have address : s.slotAt chunk count = chunk + count * s.slotSize := by
      unfold Slab.slotAt
      rw [mulSize_eq _ _ (by omega),addSize_eq _ _ (by omega)]
    have last := fresh count (Nat.lt_succ_self count)
    have pushed := links.push (a := chunk + count * s.slotSize) (by omega) last
    have earlier := ih (by omega) (chunk + count * s.slotSize)
      (update memory (chunk + count * s.slotSize) ⟨head,SLAB_MAGIC_FREED⟩)
      ((chunk + count * s.slotSize) :: free) (by rw [next_update]; exact pushed) ?_ ?_
    · simp only [Slab.thread,address,List.range_succ,List.map_append,List.map_cons,List.map_nil,
        List.append_assoc,List.singleton_append]
      exact earlier
    · intro a member
      by_cases same : a = chunk + count * s.slotSize
      · rw [same,update_self]
      · rw [update_of_ne same]
        exact marked a ((List.mem_cons.mp member).resolve_left same)
    · intro i less member
      rcases List.mem_cons.mp member with same | old
      · have step : (i + 1) * s.slotSize ≤ count * s.slotSize := Nat.mul_le_mul_right _ less
        rw [Nat.succ_mul] at step
        omega
      · exact fresh i (Nat.lt_succ_of_lt less) old

theorem thread_other {s : Slab} {chunk count : Nat} (fits : chunk + count * s.slotSize < 2^64)
    (list : Nat × Memory) {a : Nat}
    (other : a ∉ (List.range count).map fun i => chunk + i * s.slotSize) :
    (s.thread chunk count list).2 a = list.2 a := by
  induction count generalizing list with
  | zero => rfl
  | succ count ih =>
    rw [Nat.succ_mul] at fits
    rw [List.range_succ,List.map_append,List.mem_append,not_or] at other
    have address : s.slotAt chunk count = chunk + count * s.slotSize := by
      unfold Slab.slotAt
      rw [mulSize_eq _ _ (by omega),addSize_eq _ _ (by omega)]
    rw [Slab.thread,ih (by omega) _ other.1,address]
    exact update_of_ne (fun same => other.2 (List.mem_singleton.mpr same)) _ _

/-- `free` is the free list; what is in it and what is in use are all the slots. -/
structure Sound (s : State) (free : List Nat) : Prop where
  layout : Layout s.slab
  links : Links (fun a => (s.memory a).next) s.slab.freeList free
  marked : ∀ a ∈ free, (s.memory a).magic = SLAB_MAGIC_FREED
  parts : (free ++ s.used).Perm s.slab.slots
  freeCount : s.slab.freeCount = free.length
  totalCount : s.slab.totalCount = s.slab.slots.length
  issued : ∀ p ∈ s.issued, p ∈ s.slab.slots
  limited : 0 < s.slab.config.maxTotalCount →
    s.slab.totalCount ≤ max s.slab.initialCount s.slab.config.maxTotalCount
  peak : s.slab.peakAllocated = s.highest
  reached : s.used.length ≤ s.highest

namespace Sound
variable {s : State} {free : List Nat}

section
variable (sound : Sound s free)
include sound

theorem lengths : free.length + s.used.length = s.slab.slots.length := by
  rw [← List.length_append]
  exact sound.parts.length_eq

theorem distinct : (free ++ s.used).Nodup :=
  sound.parts.nodup_iff.mpr sound.layout.nodup

theorem allocated : s.slab.allocatedCount = s.used.length := by
  have lengths := sound.lengths
  have word := sound.layout.countable
  unfold Slab.allocatedCount
  rw [sound.totalCount,sound.freeCount,subSize_eq _ _ (by omega) word]
  omega

theorem accounts : Accounts s where
  free := ⟨free,sound.links,sound.parts,sound.freeCount⟩
  apart := sound.layout.apart
  valid := sound.layout.valid
  total := by
    have lengths := sound.lengths
    rw [sound.allocated,sound.totalCount,sound.freeCount]
    omega
  counted := by rw [sound.totalCount,slots_length]
  limited := sound.limited
  peak := sound.peak
  owned := sound.layout.owns_iff

theorem write (bytes : FreeNode) (mine : pointer ∈ s.used) :
    Sound { s with memory := update s.memory pointer bytes } free := by
  have other : ∀ a ∈ free, a ≠ pointer := by
    intro a member same
    exact List.disjoint_of_nodup_append sound.distinct member (same ▸ mine)
  refine { sound with links := ?_, marked := ?_ }
  · rw [next_update]
    exact sound.links.congr fun a member => update_of_ne (other a member) _ _
  · intro a member
    simp only [update_of_ne (other a member)]
    exact sound.marked a member

theorem take (some' : s.slab.freeList ≠ 0) :
    ∃ slab memory rest, s.slab.take s.memory = (s.slab.freeList,slab,memory) ∧
      s.slab.freeList ∉ s.used ∧ (∀ a ∈ s.used, memory a = s.memory a) ∧
      Sound { s with
        slab := slab
        memory := memory
        used := s.slab.freeList :: s.used
        issued := s.slab.freeList :: s.issued
        highest := max s.highest slab.allocatedCount } rest := by
  cases nodes : free with
  | nil => exact absurd (sound.links.empty_iff.mpr nodes) some'
  | cons a rest =>
    subst nodes
    obtain ⟨front,valid,later⟩ := sound.links
    have distinct := sound.distinct
    have lengths := sound.lengths
    have word := sound.layout.countable
    simp only [List.cons_append,List.nodup_cons,List.mem_append,not_or] at distinct
    have slot : a ∈ s.slab.slots := sound.parts.mem_iff.mp (by simp)
    have unused : s.slab.freeList ∉ s.used := front ▸ distinct.1.2
    refine ⟨_,_,rest,rfl,unused,fun a mine =>
      update_of_ne (fun same : a = s.slab.freeList => unused (same ▸ mine)) _ _,?_⟩
    have freeCount : subSize s.slab.freeCount 1 = rest.length := by
      rw [sound.freeCount,List.length_cons,subSize_eq _ _ (by omega) (by
        simp only [List.length_cons] at lengths; omega)]
      omega
    have allocated : subSize s.slab.totalCount (subSize s.slab.freeCount 1) = s.used.length + 1 := by
      simp only [List.length_cons] at lengths
      rw [freeCount,sound.totalCount,subSize_eq _ _ (by omega) word]
      omega
    refine ⟨⟨sound.layout.slot,sound.layout.placed,sound.layout.separate⟩,?_,?_,?_,freeCount,
      sound.totalCount,?_,sound.limited,?_,?_⟩
    · simp only [front]
      apply later.congr
      intro b member
      have other : b ≠ a := fun same => distinct.1.1 (same ▸ member)
      rw [update_of_ne other]
    · intro b member
      have other : b ≠ s.slab.freeList := fun same => distinct.1.1 (front ▸ same ▸ member)
      simp only [update_of_ne other]
      exact sound.marked b (List.mem_cons_of_mem _ member)
    · simp only [front]
      exact List.perm_middle.trans sound.parts
    · intro p member
      rcases List.mem_cons.mp member with rfl | earlier
      · exact front ▸ slot
      · exact sound.issued p earlier
    · simp only [Slab.allocatedCount,sound.peak]
    · simp only [Slab.allocatedCount,allocated,List.length_cons]
      omega

theorem deallocate (mine : pointer ∈ s.used)
    (unmarked : (s.memory pointer).magic ≠ SLAB_MAGIC_FREED) :
    ∃ slab memory, s.slab.deallocate s.memory pointer = (slab,memory) ∧ Sound { s with
        slab := slab
        memory := memory
        used := s.used.erase pointer
        highest := max s.highest slab.allocatedCount } (pointer :: free) := by
  have slot : pointer ∈ s.slab.slots := sound.parts.mem_iff.mp (List.mem_append_right _ mine)
  have valid := sound.layout.valid pointer slot
  have fresh : pointer ∉ free := fun listed =>
    List.disjoint_of_nodup_append sound.distinct listed mine
  have lengths := sound.lengths
  have word := sound.layout.countable
  have shorter := List.length_erase_of_mem mine
  have some' := List.length_pos_of_mem mine
  have freeCount : addSize s.slab.freeCount 1 = free.length + 1 := by
    rw [sound.freeCount,addSize_eq _ _ (by omega)]
  have allocated : subSize s.slab.totalCount (addSize s.slab.freeCount 1) = s.used.length - 1 := by
    rw [freeCount,sound.totalCount,subSize_eq _ _ (by omega) word]
    omega
  have reached := sound.reached
  have freed : s.slab.deallocate s.memory pointer =
      ({ s.slab with freeList := pointer, freeCount := addSize s.slab.freeCount 1 },
        update s.memory pointer ⟨s.slab.freeList,SLAB_MAGIC_FREED⟩) := by
    rw [Slab.deallocate,if_neg valid,if_neg unmarked]
  refine ⟨_,_,freed,⟨sound.layout.slot,sound.layout.placed,sound.layout.separate⟩,?_,?_,?_,freeCount,
      sound.totalCount,sound.issued,sound.limited,?_,?_⟩
  · rw [next_update]
    exact sound.links.push valid fresh
  · intro a member
    by_cases same : a = pointer
    · simp only [same,update_self]
    · simp only [update_of_ne same]
      exact sound.marked a ((List.mem_cons.mp member).resolve_left same)
  · refine List.Perm.trans ?_ sound.parts
    rw [List.cons_append]
    exact List.perm_middle.symm.trans ((List.perm_cons_erase mine).symm.append_left free)
  · simp only [Slab.allocatedCount,allocated]
    rw [sound.peak,Nat.max_eq_left (by omega)]
  · simp only [Slab.allocatedCount,allocated,shorter]
    omega

end

theorem grow (sound : Sound s []) (granted : Granted s.slab chunk count) (roundable : Roundable s.slab count)
    (limit : 0 < s.slab.config.maxTotalCount →
      s.slab.totalCount + count ≤ max s.slab.initialCount s.slab.config.maxTotalCount)
    (grown : s.slab.grow s.memory count (some chunk) = some (slab,memory)) :
    ∃ free, Sound { s with slab := slab, memory := memory } free ∧ free.length = count ∧
      ∀ a ∈ s.slab.slots, memory a = s.memory a := by
  unfold Slab.grow at grown
  split at grown
  · cases grown
  rename_i accepted
  obtain ⟨positive,bound,apart⟩ := granted
  have size := granted_size roundable accepted
  have slot := sound.layout.slot
  obtain ⟨links,marked⟩ := thread_links s.slab chunk count positive (by omega)
    (by rw [Nat.mul_comm]; omega) s.slab.freeList s.memory [] sound.links sound.marked
    (fun _ _ => List.not_mem_nil)
  rw [List.append_nil] at links marked
  simp only [Option.some.injEq,Prod.mk.injEq] at grown
  obtain ⟨result,rfl⟩ := grown
  have chunks : slab.chunks = s.slab.chunks ++ [⟨chunk,count⟩] := by rw [← result]
  have same : slab.slotSize = s.slab.slotSize := by rw [← result]
  have slots := slots_snoc chunks same
  have layout : Layout slab := sound.layout.snoc chunks same positive (by omega) (by
    intro c member
    refine (apart c member).symm.within ⟨Nat.le_refl _,Nat.le_refl _⟩ ⟨Nat.le_refl _,?_⟩
    exact Nat.add_le_add_left size chunk)
  have word := layout.countable
  have length : slab.slots.length = s.slab.slots.length + count := by simp [slots]
  have totalCount : slab.totalCount = s.slab.totalCount + count := by
    rw [← result,addSize_eq _ _ (by rw [sound.totalCount]; omega)]
  have nodup := layout.nodup
  rw [slots] at nodup
  refine ⟨(List.range count).map fun i => chunk + i * s.slab.slotSize,?_,by simp,fun a old =>
    thread_other (by rw [Nat.mul_comm]; omega) _ (List.disjoint_of_nodup_append nodup old)⟩
  refine ⟨layout,by rw [← result]; exact links,marked,?_,?_,?_,?_,?_,?_,sound.reached⟩
  · rw [slots]
    exact (List.Perm.append_left _ sound.parts).trans List.perm_append_comm
  · rw [← result]
    simp only [sound.freeCount,List.length_map,List.length_range,List.length_nil]
    rw [addSize_eq _ _ (by omega),Nat.zero_add]
  · rw [totalCount,sound.totalCount,length]
  · intro p known
    rw [slots]
    exact List.mem_append_left _ (sound.issued p known)
  · simp only [totalCount]
    rw [← result]
    exact limit
  · rw [← result]
    exact sound.peak

theorem settled (sound : Sound s free) : max s.highest s.slab.allocatedCount = s.highest := by
  rw [sound.allocated]
  exact Nat.max_eq_left sound.reached

theorem growth_limit {s : Slab} (some' : s.growth ≠ 0) (capped : 0 < s.config.maxTotalCount) :
    s.totalCount + s.growth ≤ max s.initialCount s.config.maxTotalCount := by
  unfold Slab.growth at *
  simp only [capped,true_and,if_true] at *
  split at some'
  · exact absurd rfl some'
  rename_i grows
  split at some'
  · exact absurd rfl some'
  · rename_i room
    rw [if_neg grows,if_neg room]
    omega

theorem allocate (sound : Sound s free) (fair : Fair s (.allocate heap)) (regular : Regular s (.allocate heap)) :
    (∃ rest, Sound (s.receive (s.slab.allocate s.memory heap)).2 rest) ∧
    (∀ a ∈ s.used, (s.receive (s.slab.allocate s.memory heap)).2.memory a = s.memory a) ∧
    ∀ p, (s.receive (s.slab.allocate s.memory heap)).1 = .pointer p → p ≠ 0 → p ∉ s.used := by
  by_cases empty : s.slab.freeList = 0
  · have none' := sound.links.empty_iff.mp empty
    subst none'
    by_cases stuck : s.slab.growth = 0
    · have null : s.slab.allocate s.memory heap = some (0,s.slab,s.memory) := by
        simp only [Slab.allocate,empty,stuck,if_true]
      simp only [null,State.receive,if_true,sound.settled,Result.pointer.injEq]
      exact ⟨⟨[],sound⟩,fun _ _ => trivial,fun p null nonzero => absurd null.symm nonzero⟩
    · cases grown : s.slab.grow s.memory s.slab.growth heap with
      | none =>
        have threw : s.slab.allocate s.memory heap = none := by
          simp only [Slab.allocate,empty,stuck,if_true,if_false,grown,Option.map_none]
        simp only [threw,State.receive]
        exact ⟨⟨[],sound⟩,fun _ _ => trivial,nofun⟩
      | some pool =>
        obtain ⟨slab,memory⟩ := pool
        cases heap with
        | none =>
          unfold Slab.grow at grown
          split at grown <;> cases grown
        | some chunk =>
          obtain ⟨free,after,length,old⟩ := sound.grow (fair empty stuck) (regular empty) (growth_limit stuck) grown
          have counted : Sound { s with
              slab := { slab with growCount := addSize slab.growCount 1 }
              memory := memory } free :=
            { after with layout := ⟨after.layout.slot,after.layout.placed,after.layout.separate⟩ }
          have some' : slab.freeList ≠ 0 := by
            intro null
            have nothing := after.links.empty_iff.mp null
            rw [nothing] at length
            exact stuck length.symm
          obtain ⟨slab',memory',rest,taken,unused,kept,sound'⟩ := counted.take some'
          have result : s.slab.allocate s.memory (some chunk) = some (slab.freeList,slab',memory') := by
            simp only [Slab.allocate,empty,stuck,if_true,if_false,grown,Option.map_some]
            exact congrArg some taken
          simp only [result,State.receive,if_neg some',Result.pointer.injEq]
          refine ⟨⟨rest,sound'⟩,fun a mine => (kept a mine).trans (old a ?_),fun p same _ => same ▸ unused⟩
          exact sound.parts.mem_iff.mp (List.mem_append_right _ mine)
  · obtain ⟨slab,memory,rest,taken,unused,kept,sound'⟩ := sound.take empty
    have result : s.slab.allocate s.memory heap = some (s.slab.freeList,slab,memory) := by
      simp only [Slab.allocate,if_neg empty,taken]
    simp only [result,State.receive,if_neg empty,Result.pointer.injEq]
    exact ⟨⟨rest,sound'⟩,kept,fun p same _ => same ▸ unused⟩

theorem fair_sized {size align : Nat}
    (fair : Fair s (.allocateSized size align heap)) : Fair s (.allocate heap) := by
  cases heap with
  | none => trivial
  | some chunk => exact fair

variable (sound : Sound s free)
include sound

theorem fresh (action : Action) (fair : Fair s action)
    (regular : Regular s action) {p : Nat} {next : State}
    (performed : s.perform action = some (.pointer p,next)) (valid : p ≠ 0) : p ∉ s.used := by
  cases action with
  | allocate heap =>
    simp only [State.perform,Option.some.injEq] at performed
    exact (sound.allocate fair regular).2.2 p (congrArg Prod.fst performed) valid
  | allocateSized size align heap =>
    simp only [State.perform,Slab.allocateSized,Option.some.injEq] at performed
    split at performed
    · simp only [State.receive,if_true,Prod.mk.injEq,Result.pointer.injEq] at performed
      exact absurd performed.1.symm valid
    · exact (sound.allocate (fair_sized fair) regular).2.2 p (congrArg Prod.fst performed) valid
  | deallocate pointer | write pointer bytes =>
    simp only [State.perform] at performed
    split at performed <;> cases performed

theorem perm (same : s.used.Perm used) : Sound { s with used := used } free :=
  { sound with
    parts := (same.symm.append_left free).trans sound.parts
    reached := same.length_eq ▸ sound.reached }

theorem counted (count : Nat) :
    Sound { s with slab := { s.slab with doubleFreeCount := count } } free :=
  { sound with layout := ⟨sound.layout.slot,sound.layout.placed,sound.layout.separate⟩ }

end Sound

theorem deallocate_marked {s : Slab} (valid : p ≠ 0) (marked : (memory p).magic = SLAB_MAGIC_FREED) :
    s.deallocate memory p = ({ s with doubleFreeCount := addSize s.doubleFreeCount 1 },memory) := by
  rw [Slab.deallocate,if_neg valid,if_pos marked]

/-- The chunks that are added have a size that can be rounded up. -/
def Sized (s : State) : Action → Prop
  | .allocate _ | .allocateSized _ _ _ => s.slab.freeList = 0 → Roundable s.slab s.slab.growth
  | .deallocate _ | .write _ _ => True

instance (s : State) : (action : Action) → Decidable (Sized s action)
  | .allocate _ | .allocateSized _ _ _ => inferInstanceAs (Decidable (_ → Roundable s.slab s.slab.growth))
  | .deallocate _ | .write _ _ => isTrue trivial

/-- The books with `lost` slots, given back by their user but with the marker of freed slots in
them: the pool goes on to count them as used. -/
structure Held (s : State) (free lost : List Nat) : Prop where
  sound : Sound { s with used := s.used ++ lost } free
  marked : ∀ a ∈ lost, (s.memory a).magic = SLAB_MAGIC_FREED

namespace Held
variable {s : State} {free lost : List Nat}

theorem of_sound (sound : Sound s free) : Held s free [] :=
  ⟨sound.perm (by rw [List.append_nil]),nofun⟩

variable (held : Held s free lost)
include held

theorem valid (mine : p ∈ s.used) : p ≠ 0 :=
  held.sound.layout.valid p (held.sound.parts.mem_iff.mp (List.mem_append_right _ (List.mem_append_left _ mine)))

theorem other (mine : p ∈ s.used) : ∀ a ∈ lost, a ≠ p := by
  intro a gone same
  exact List.disjoint_of_nodup_append (List.nodup_append.mp held.sound.distinct).2.1 mine (same ▸ gone)

theorem receive (fair : Fair s (.allocate heap)) (sized : Sized s (.allocate heap)) :
    ∃ free, Held (s.receive (s.slab.allocate s.memory heap)).2 free lost := by
  obtain ⟨⟨rest,sound⟩,kept,_⟩ := held.sound.allocate fair sized
  cases answered : s.slab.allocate s.memory heap with
  | none => exact ⟨free,held⟩
  | some answer =>
    simp only [State.receive,answered] at sound kept ⊢
    refine ⟨rest,sound.perm ?_,fun a gone => ?_⟩
    · split
      · exact .refl _
      · exact .refl _
    · exact (congrArg FreeNode.magic (kept a (List.mem_append_right _ gone))).trans (held.marked a gone)

theorem again (valid : p ≠ 0) (marked : (s.memory p).magic = SLAB_MAGIC_FREED)
    (known : p ∈ s.issued) : s.perform (.deallocate p) = some (.done,{ s with
      slab := { s.slab with doubleFreeCount := addSize s.slab.doubleFreeCount 1 }
      used := s.used.erase p }) := by
  have settled : max s.highest ({ s.slab with
      doubleFreeCount := addSize s.slab.doubleFreeCount 1 } : Slab).allocatedCount = s.highest :=
    held.sound.settled
  simp only [State.perform,if_pos (.inr known : p = 0 ∨ p ∈ s.issued),deallocate_marked valid marked,settled]

theorem marked_unused (known : p ∈ s.issued) (unused : p ∉ s.used) :
    (s.memory p).magic = SLAB_MAGIC_FREED := by
  rcases List.mem_append.mp (held.sound.parts.mem_iff.mpr (held.sound.issued p known)) with listed | mine
  · exact held.sound.marked p listed
  · exact held.marked p ((List.mem_append.mp mine).resolve_left unused)

theorem deallocate (stepped : s.perform (.deallocate p) = some (r,next)) :
    ∃ free lost', Held next free lost' ∧ (Regular s (.deallocate p) → lost' = lost) := by
  by_cases null : p = 0
  · have unused : p ∉ s.used := fun mine => held.valid mine null
    simp only [State.perform,null,true_or,if_true,Slab.deallocate,Option.some.injEq,Prod.mk.injEq] at stepped
    rw [← stepped.2,List.erase_of_not_mem (null ▸ unused),show max s.highest _ = _ from held.sound.settled]
    exact ⟨free,lost,held,fun _ => rfl⟩
  by_cases known : p ∈ s.issued
  · by_cases marked : (s.memory p).magic = SLAB_MAGIC_FREED
    · rw [held.again null marked known] at stepped
      cases stepped
      by_cases mine : p ∈ s.used
      · refine ⟨free,p :: lost,⟨(held.sound.counted _).perm ?_,?_⟩,fun regular => absurd marked (regular mine)⟩
        · exact ((List.perm_cons_erase mine).append_right lost).trans List.perm_middle.symm
        · rintro a (_ | ⟨_,gone⟩)
          · exact marked
          · exact held.marked a gone
      · rw [List.erase_of_not_mem mine]
        exact ⟨free,lost,⟨held.sound.counted _,held.marked⟩,fun _ => rfl⟩
    · have mine : p ∈ s.used := by_contra fun unused => marked (held.marked_unused known unused)
      obtain ⟨slab,memory,freed,sound⟩ := held.sound.deallocate (List.mem_append_left _ mine) marked
      have written : memory = update s.memory p ⟨s.slab.freeList,SLAB_MAGIC_FREED⟩ := by
        rw [Slab.deallocate,if_neg null,if_neg marked] at freed
        exact (congrArg Prod.snd freed).symm
      simp only [State.perform,if_pos (.inr known : p = 0 ∨ p ∈ s.issued),freed] at stepped
      cases stepped
      refine ⟨p :: free,lost,⟨sound.perm ?_,fun a gone => ?_⟩,fun _ => rfl⟩
      · rw [List.erase_append_left _ mine]
      · simp only [written,update_of_ne (held.other mine a gone)]
        exact held.marked a gone
  · simp only [State.perform,null,known,or_self,if_false] at stepped
    cases stepped

theorem step (fair : Fair s action) (sized : Sized s action)
    (stepped : step s action = some next) :
    ∃ free lost', Held next free lost' ∧ (Regular s action → lost' = lost) := by
  obtain ⟨⟨result,after⟩,performed,rfl⟩ := Option.map_eq_some_iff.mp stepped
  cases action with
  | allocate heap =>
    obtain ⟨free,held⟩ := held.receive fair sized
    rw [Option.some.inj performed] at held
    exact ⟨free,lost,held,fun _ => rfl⟩
  | allocateSized size align heap =>
    simp only [State.perform,Option.some.injEq] at performed
    unfold Slab.allocateSized at performed
    split at performed
    · simp only [State.receive,if_true] at performed
      rw [show max s.highest _ = _ from held.sound.settled] at performed
      cases performed
      exact ⟨free,lost,held,fun _ => rfl⟩
    · obtain ⟨free,held⟩ := held.receive (Sound.fair_sized fair) sized
      rw [performed] at held
      exact ⟨free,lost,held,fun _ => rfl⟩
  | deallocate pointer => exact held.deallocate performed
  | write pointer bytes =>
    simp only [State.perform] at performed
    split at performed <;> cases performed
    rename_i mine
    refine ⟨free,lost,⟨held.sound.write bytes (List.mem_append_left _ mine),fun a gone => ?_⟩,fun _ => rfl⟩
    simp only [update_of_ne (held.other mine a gone)]
    exact held.marked a gone

end Held

theorem Regular.sized (regular : Regular s action) : Sized s action := by
  cases action with
  | allocate heap | allocateSized size align heap => exact regular
  | deallocate pointer | write pointer bytes => trivial

theorem sound_step (s : State) (action : Action) (next : State) (sound : ∃ free, Sound s free)
    (guard : Fair s action ∧ Regular s action) (stepped : step s action = some next) :
    ∃ free, Sound next free := by
  obtain ⟨free,sound⟩ := sound
  obtain ⟨fair,regular⟩ := guard
  obtain ⟨free,lost,held,none'⟩ := (Held.of_sound sound).step fair regular.sized stepped
  cases none' regular
  exact ⟨free,held.sound.perm (by simp)⟩

theorem sound_create (sized : slotSize ≤ 2^64 - 16)
    (granted : Granted (Slab.blank slotSize initialCount config) chunk initialCount)
    (roundable : Roundable (Slab.blank slotSize initialCount config) initialCount)
    (created : Slab.create slotSize initialCount config memory (some chunk) = .ok pool) :
    ∃ free, Sound (start pool) free := by
  have wide : 16 ≤ (Slab.blank slotSize initialCount config).slotSize := by
    have rounded := (alignUp_spec (max slotSize 16) 4 (by decide) (by omega)).2.1
    exact Nat.le_trans (Nat.le_max_right _ _) rounded
  have blank : Sound ⟨Slab.blank slotSize initialCount config,memory,[],[],0⟩ [] :=
    ⟨⟨wide,nofun,.nil⟩,rfl,nofun,.nil,rfl,rfl,nofun,fun _ => Nat.zero_le _,rfl,Nat.zero_le _⟩
  unfold Slab.create at created
  split at created
  · cases created
  split at created <;> cases created
  rename_i grown
  obtain ⟨free,sound,_,_⟩ := blank.grow granted roundable (fun _ => by simp [Slab.blank]) grown
  refine ⟨free,{ sound with peak := ?_, reached := ?_ }⟩
  · exact sound.peak.trans sound.allocated.symm
  · exact Nat.zero_le _

/-- Every run of calls keeps the books: the free list and the slots in use are all the slots, which lie apart; the
counters say so; what an allocation returns was not in use, and giving a free slot back again only counts. -/
theorem slab_accounts (slotSize initialCount : Nat) (config : Config) (memory : Memory) (chunk : Nat)
    (pool : Slab × Memory) (sized : slotSize ≤ 2^64 - 16)
    (granted : Granted (Slab.blank slotSize initialCount config) chunk initialCount)
    (roundable : Roundable (Slab.blank slotSize initialCount config) initialCount)
    (created : Slab.create slotSize initialCount config memory (some chunk) = .ok pool)
    (schedule : List Action) (s : State) (fair : Along step Fair (start pool) schedule)
    (regular : Along step Regular (start pool) schedule)
    (runs : run step (start pool) schedule = some s) :
    Accounts s ∧
    (∀ action p next, Fair s action → Regular s action →
      s.perform action = some (.pointer p,next) → p ≠ 0 → p ∉ s.used) ∧
    ∀ p ∈ s.issued, p ∉ s.used → s.perform (.deallocate p) = some (.done,{ s with
      slab := { s.slab with doubleFreeCount := addSize s.slab.doubleFreeCount 1 } }) := by
  have initial := sound_create sized granted roundable created
  obtain ⟨free,sound⟩ := run_guarded step _ (fun s => ∃ free, Sound s free) sound_step initial
    (fair.and regular) runs
  refine ⟨sound.accounts,fun action p next fair regular performed valid =>
    sound.fresh action fair regular performed valid,fun p known unused => ?_⟩
  have held := Held.of_sound sound
  have again := held.again (sound.layout.valid p (sound.issued p known)) (held.marked_unused known unused) known
  rwa [List.erase_of_not_mem unused] at again

theorem create_ok {pool : Slab × Memory} {created : Except Slab.Fault (Slab × Memory)}
    (some' : created.toOption = some pool) : created = .ok pool := by
  cases created with
  | error fault => cases some'
  | ok other => cases some'; rfl

def growing : Config := ⟨true,2,4⟩

def reusing : List Action :=
  [.allocate none,.allocateSized 64 16 none,.allocate (some 8192),.write 4096 ⟨17,5⟩,
    .deallocate 4096,.deallocate 4096,.deallocate 0,.allocate none,.deallocate 8192]

theorem slab_accounts_reusing : ∃ pool s,Slab.create 50 2 growing (fun _ => ⟨0,0⟩) (some 4096) = .ok pool ∧
    run step (start pool) reusing = some s ∧ s.slab.doubleFreeCount = 1 ∧
    s.used = [4096,4160] ∧ s.slab.totalCount = 4 ∧ Accounts s ∧
    (∀ action p next, Fair s action → Regular s action →
      s.perform action = some (.pointer p,next) → p ≠ 0 → p ∉ s.used) ∧
    ∀ p ∈ s.issued, p ∉ s.used → s.perform (.deallocate p) = some (.done,{ s with
      slab := { s.slab with doubleFreeCount := addSize s.slab.doubleFreeCount 1 } }) := by
  obtain ⟨pool,created,fair,regular,s,runs,again,used,total⟩ :
      ∃ pool, (Slab.create 50 2 growing (fun _ => ⟨0,0⟩) (some 4096)).toOption = some pool ∧
        Along step Fair (start pool) reusing ∧ Along step Regular (start pool) reusing ∧
        ∃ s, run step (start pool) reusing = some s ∧ s.slab.doubleFreeCount = 1 ∧
          s.used = [4096,4160] ∧ s.slab.totalCount = 4 := by
    decide +kernel
  have made := create_ok created
  exact ⟨pool,s,made,runs,again,used,total,slab_accounts 50 2 growing (fun _ => ⟨0,0⟩) 4096 pool
    (by decide) (by decide) (by decide) made reusing s fair regular runs⟩

/-- A user's value in the word of the marker makes an ordinary deallocation look like a
repeated one: the slot is lost. -/
theorem slot_lost : ∃ pool s,Slab.create 64 1 ⟨false,0,0⟩ (fun _ => ⟨0,0⟩) (some 4096) = .ok pool ∧
    run step (start pool) [.allocate none,.write 4096 ⟨0,SLAB_MAGIC_FREED⟩,.deallocate 4096] =
      some s ∧ s.slab.doubleFreeCount = 1 ∧ ¬Accounts s := by
  obtain ⟨pool,created,s,runs,counted,empty,used,slots⟩ :
      ∃ pool, (Slab.create 64 1 ⟨false,0,0⟩ (fun _ => ⟨0,0⟩) (some 4096)).toOption = some pool ∧
        ∃ s, run step (start pool) [.allocate none,.write 4096 ⟨0,SLAB_MAGIC_FREED⟩,.deallocate 4096] =
          some s ∧ s.slab.doubleFreeCount = 1 ∧ s.slab.freeList = 0 ∧ s.used = [] ∧
          s.slab.slots = [4096] := by
    decide +kernel
  refine ⟨pool,s,create_ok created,runs,counted,?_⟩
  intro accounts
  obtain ⟨free,links,parts,_⟩ := accounts.free
  have nothing := links.empty_iff.mp empty
  rw [nothing,used,slots] at parts
  exact absurd parts.length_eq (by decide)

/-- Whatever the slots in use hold and whichever were lost before: a slot in use goes back to the free list exactly
if its user has not stored the marker of freed slots in it. -/
theorem deallocate_returns_iff (slotSize initialCount : Nat) (config : Config) (memory : Memory) (chunk : Nat)
    (pool : Slab × Memory) (sized : slotSize ≤ 2^64 - 16)
    (granted : Granted (Slab.blank slotSize initialCount config) chunk initialCount)
    (roundable : Roundable (Slab.blank slotSize initialCount config) initialCount)
    (created : Slab.create slotSize initialCount config memory (some chunk) = .ok pool)
    (schedule : List Action) (s : State) (fair : Along step Fair (start pool) schedule)
    (regular : Along step Sized (start pool) schedule) (runs : run step (start pool) schedule = some s)
    (p : Nat) (mine : p ∈ s.used) (slab : Slab) (after : Memory)
    (freed : s.slab.deallocate s.memory p = (slab,after)) :
    (slab.freeCount = s.slab.freeCount + 1 ∧ slab.doubleFreeCount = s.slab.doubleFreeCount ∧
      ∀ heap, ∃ rest, slab.allocate after heap = some (p,rest)) ↔ (s.memory p).magic ≠ SLAB_MAGIC_FREED := by
  obtain ⟨free,sound⟩ := sound_create sized granted roundable created
  obtain ⟨free,lost,held⟩ := run_guarded step _ (fun s => ∃ free lost, Held s free lost)
    (fun s action next ⟨free,lost,held⟩ guard stepped =>
      let ⟨free,lost,held,_⟩ := held.step guard.1 guard.2 stepped
      ⟨free,lost,held⟩) ⟨free,[],.of_sound sound⟩ (fair.and regular) runs
  have valid := held.valid mine
  constructor
  · rintro ⟨more,_⟩ marked
    rw [deallocate_marked valid marked] at freed
    cases freed
    simp at more
  · intro unmarked
    have listed := List.length_pos_of_mem (List.mem_append_left lost mine)
    have lengths : free.length + (s.used ++ lost).length = s.slab.slots.length := held.sound.lengths
    have word : s.slab.slots.length < 2^64 := held.sound.layout.countable
    have count : s.slab.freeCount = free.length := held.sound.freeCount
    rw [Slab.deallocate,if_neg valid,if_neg unmarked] at freed
    cases freed
    refine ⟨addSize_eq _ _ (by omega),rfl,fun heap => ⟨_,if_neg valid⟩⟩

def losing : List Action :=
  [.allocate none,.allocate none,.write 4096 ⟨0,SLAB_MAGIC_FREED⟩,.deallocate 4096,.write 4160 ⟨9,9⟩]

theorem deallocate_returns_iff_losing : ∃ pool s,
    Slab.create 64 2 ⟨false,0,0⟩ (fun _ => ⟨0,0⟩) (some 4096) = .ok pool ∧
    run step (start pool) losing = some s ∧ s.slab.doubleFreeCount = 1 ∧
    (s.slab.deallocate s.memory 4160).1.freeCount = s.slab.freeCount + 1 := by
  obtain ⟨pool,created,fair,regular,s,runs,used,again,unmarked⟩ :
      ∃ pool, (Slab.create 64 2 ⟨false,0,0⟩ (fun _ => ⟨0,0⟩) (some 4096)).toOption = some pool ∧
        Along step Fair (start pool) losing ∧ Along step Sized (start pool) losing ∧
        ∃ s, run step (start pool) losing = some s ∧ s.used = [4160] ∧ s.slab.doubleFreeCount = 1 ∧
          (s.memory 4160).magic ≠ SLAB_MAGIC_FREED := by
    decide +kernel
  have made := create_ok created
  have returns := (deallocate_returns_iff 64 2 ⟨false,0,0⟩ (fun _ => ⟨0,0⟩) 4096 pool (by decide) (by decide)
    (by decide) made losing s fair regular runs 4160 (by simp [used]) _ _ rfl).mpr unmarked
  exact ⟨pool,s,made,runs,again,returns.1⟩

/-- The user of the only slot stores the marker: the slot does not come back, and its first
deallocation counts as a repeated one. -/
theorem marked_slot_kept :
    ∃ pool, (Slab.create 64 1 ⟨false,0,0⟩ (fun _ => ⟨0,0⟩) (some 4096)).toOption = some pool ∧
      ∃ s, run step (start pool) [.allocate none,.write 4096 ⟨0,SLAB_MAGIC_FREED⟩] = some s ∧ s.used = [4096] ∧
        (s.slab.deallocate s.memory 4096).1.freeCount = s.slab.freeCount ∧
        (s.slab.deallocate s.memory 4096).1.doubleFreeCount = 1 ∧
        ((s.slab.deallocate s.memory 4096).1.allocate (s.slab.deallocate s.memory 4096).2 none).map Prod.fst = some 0 := by
  decide +kernel

end ApexPipeline.SlabAllocator
