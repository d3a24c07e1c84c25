import ApexPipeline.Execution

/-! `consumer_payload_pool.cpp`. A buffer is known by where it was made; the pool itself cannot tell. The calls
run under the mutex, so they come one after the other. -/
namespace ApexPipeline.ConsumerPayloadPool
open Execution List

inductive Origin where
  | pool | fallback
  deriving DecidableEq, Repr

/-- `free` is `free_list_` from its back on. -/
structure Pool where
  maxCount : Nat
  free : List Origin
  totalCreated : Nat
  inUse : Nat := 0
  peakInUse : Nat := 0
  acquireCount : Nat := 0
  fallbackAllocCount : Nat := 0
  deriving DecidableEq, Repr

def create (initialCount maxCount : Nat) : Pool :=
  { maxCount, free := replicate initialCount .pool, totalCreated := initialCount }

def Pool.take (p : Pool) : Origin × Pool :=
  match p.free with
  | buf :: rest => (buf,{ p with free := rest })
  | [] =>
    if p.maxCount = 0 ∨ p.totalCreated < p.maxCount then
      (.pool,{ p with totalCreated := p.totalCreated + 1, fallbackAllocCount := p.fallbackAllocCount + 1 })
    else (.fallback,{ p with fallbackAllocCount := p.fallbackAllocCount + 1 })

def Pool.acquire (p : Pool) : Origin × Pool :=
  let (buf,p) := p.take
  (buf,{ p with
    acquireCount := p.acquireCount + 1
    inUse := p.inUse + 1
    peakInUse := max p.peakInUse (p.inUse + 1) })

def Pool.release (p : Pool) (buf : Origin) : Pool :=
  let p := { p with inUse := p.inUse - 1 }
  if p.maxCount = 0 ∨ p.free.length + p.inUse < p.maxCount then { p with free := buf :: p.free }
  else { p with totalCreated := p.totalCreated - 1 }

/-- `held` are the buffers that were acquired and not released. -/
structure State where
  pool : Pool
  held : List Origin := []
  deriving DecidableEq, Repr

inductive Action where
  | acquire
  | release (place : Nat)
  deriving DecidableEq, Repr

def step (s : State) : Action → Option State
  | .acquire => some ⟨s.pool.acquire.2,s.held ++ [s.pool.acquire.1]⟩
  | .release place => s.held[place]?.map fun buf => ⟨s.pool.release buf,s.held.eraseIdx place⟩

def managed (s : State) : Nat := s.pool.free.length + s.held.count .pool

structure Bounded (s : State) : Prop where
  exact : s.pool.totalCreated = managed s
  bounded : s.pool.totalCreated ≤ s.pool.maxCount
  full : managed s = s.pool.maxCount → s.pool.free = [] → s.pool.acquire.1 = .fallback

/-- No buffer is released that was made beyond the bound. -/
def Regular (s : State) : Action → Prop
  | .acquire => True
  | .release place => s.held[place]? ≠ some .fallback

instance (s : State) : (action : Action) → Decidable (Regular s action)
  | .acquire => inferInstanceAs (Decidable True)
  | .release _ => inferInstanceAs (Decidable (_ ≠ _))

structure Sound (maxCount : Nat) (s : State) : Prop where
  size : s.pool.maxCount = maxCount
  used : s.pool.inUse = s.held.length
  free : ∀ buf ∈ s.pool.free, buf = .pool
  exact : s.pool.totalCreated = s.pool.free.length + s.held.count .pool
  bound : s.pool.totalCreated ≤ maxCount

theorem Sound.bounded (sound : Sound maxCount s) (positive : 0 < maxCount) : Bounded s := by
  obtain ⟨size,_,_,exact,bound⟩ := sound
  refine ⟨exact,size ▸ bound,fun full empty => ?_⟩
  have refused : ¬(s.pool.maxCount = 0 ∨ s.pool.totalCreated < s.pool.maxCount) := by
    unfold managed at full
    omega
  simp only [Pool.acquire,Pool.take,empty,if_neg refused]

theorem sound_step {next : State} (positive : 0 < maxCount) (sound : Sound maxCount s) (regular : Regular s action)
    (stepped : step s action = some next) : Sound maxCount next := by
  obtain ⟨size,used,free,exact,bound⟩ := sound
  cases action with
  | acquire =>
    cases stepped
    simp only [Pool.acquire,Pool.take]
    split
    · rename_i buf rest queue
      rw [queue] at free exact
      cases free buf mem_cons_self
      exact ⟨size,by simp [used],fun _ member => free _ (mem_cons_of_mem _ member),by simp_all; omega,bound⟩
    · rename_i empty
      split
      · exact ⟨size,by simp [used],free,by simp [exact,empty],by simp only; omega⟩
      · exact ⟨size,by simp [used],free,by simp [exact,empty],bound⟩
  | release place =>
    obtain ⟨buf,there,rfl⟩ := Option.map_eq_some_iff.mp stepped
    have own : buf = .pool := by
      cases buf with
      | pool => rfl
      | fallback => exact absurd there regular
    obtain ⟨inside,rfl⟩ := List.getElem?_eq_some_iff.mp there
    have length := length_eraseIdx_of_lt inside
    have counted := (getElem_cons_eraseIdx_perm inside).count_eq .pool
    rw [own,count_cons_self] at counted
    simp only [Pool.release]
    split
    · refine ⟨size,by simp only; omega,?_,by simp only [length_cons]; omega,bound⟩
      simpa [own] using free
    · exact ⟨size,by simp only; omega,free,by simp only; omega,by simp only; omega⟩

/-- As long as no buffer is released that was made beyond the bound, the count is right, the bound is kept, and
at the bound further buffers come from the heap. -/
theorem pool_bounded (initialCount maxCount : Nat) (positive : 0 < maxCount) (within : initialCount ≤ maxCount)
    (schedule : List Action) (regular : Along step Regular { pool := create initialCount maxCount } schedule) :
    Throughout step Bounded { pool := create initialCount maxCount } schedule := by
  have start : Sound maxCount { pool := create initialCount maxCount } :=
    ⟨rfl,rfl,fun _ member => eq_of_mem_replicate member,by simp [create],within⟩
  refine (throughout_guarded (Sound maxCount) ?_ start regular).imp fun _ sound => sound.bounded positive
  exact fun _ _ _ sound regular stepped => sound_step positive sound regular stepped

theorem pool_bounded_over : Along step Regular { pool := create 1 2 } [.acquire,.acquire,.acquire,.release 0] ∧
    Throughout step Bounded { pool := create 1 2 } [.acquire,.acquire,.acquire,.release 0] := by
  have regular : Along step Regular { pool := create 1 2 } [.acquire,.acquire,.acquire,.release 0] := by decide
  exact ⟨regular,pool_bounded 1 2 (by decide) (by decide) _ regular⟩

/-- The pool deletes its own buffer and keeps the one from the heap, so that it can make another. -/
theorem fallback_buffer_kept : ∃ final, run step { pool := create 1 1 }
      [.acquire,.acquire,.release 0,.release 0,.acquire,.acquire] = some final ∧
    final.pool.totalCreated = 1 ∧ final.held = [.fallback,.pool] ∧
    ∃ earlier, run step { pool := create 1 1 } [.acquire,.acquire,.release 0,.release 0] = some earlier ∧
      earlier.pool.totalCreated = 0 ∧ managed earlier = 1 := by
  decide

end ApexPipeline.ConsumerPayloadPool
