import ApexPipeline.Execution

/-! `pg_pool.cpp` with everyone who holds one of its connections. `held` are those that were handed out and not given
back, `connecting` those of an `acquire_connected` that waits for the server. The counters are words, and a decrement
of zero is recorded in `underflowed`, which no part of the program reads. -/
namespace ApexPipeline
open Execution List List.Sublist

structure PgConnection where
  id : Nat
  connected : Bool := false
  /-- There is a `PGconn`, and its status is `CONNECTION_OK`. -/
  statusOk : Bool := false
  poisoned : Bool := false
  deriving DecidableEq, Repr

def PgConnection.isValid (c : PgConnection) : Bool := c.connected && c.statusOk

structure IdleEntry where
  conn : PgConnection
  returnedAt : Int
  deriving DecidableEq, Repr

structure PoolConfig where
  maxSize : UInt64
  maxIdleTime : Int
  deriving DecidableEq, Repr

structure PoolStats where
  totalAcquired : UInt64 := 0
  totalReleased : UInt64 := 0
  totalCreated : UInt64 := 0
  totalDestroyed : UInt64 := 0
  totalFailed : UInt64 := 0
  deriving DecidableEq, Repr

structure PgPool where
  config : PoolConfig
  idle : List IdleEntry := []
  totalCount : UInt64 := 0
  activeCount : UInt64 := 0
  stats : PoolStats := {}
  underflowed : Bool := false
  deriving DecidableEq, Repr

namespace PgPool

def create (poolSizePerCore : UInt64) (maxIdleTime : Int) : PgPool :=
  { config := ⟨poolSizePerCore * 2,maxIdleTime⟩ }

def decrementTotal (p : PgPool) : PgPool :=
  { p with totalCount := p.totalCount - 1, underflowed := p.underflowed || p.totalCount == 0 }

def decrementActive (p : PgPool) : PgPool :=
  { p with activeCount := p.activeCount - 1, underflowed := p.underflowed || p.activeCount == 0 }

def countDestroyed (p : PgPool) : PgPool :=
  { p with stats := { p.stats with totalDestroyed := p.stats.totalDestroyed + 1 } }

def countFailed (p : PgPool) : PgPool :=
  { p with stats := { p.stats with totalFailed := p.stats.totalFailed + 1 } }

def doValidate (conn : PgConnection) : Bool := conn.isValid

/-- `make_unique` does not return null. -/
def doCreateConnection (fresh : Nat) : Option PgConnection := some { id := fresh }

/-- The loop over the idle queue: connections that have become invalid are destroyed. -/
def acquireIdle (p : PgPool) : List IdleEntry → Option PgConnection × PgPool
  | [] => (none,{ p with idle := [] })
  | entry :: rest =>
    if doValidate entry.conn then
      (some entry.conn,{ p with
        idle := rest
        activeCount := p.activeCount + 1
        stats := { p.stats with totalAcquired := p.stats.totalAcquired + 1 } })
    else acquireIdle p.decrementTotal.countDestroyed rest

def acquire (p : PgPool) (fresh : Nat) : Option PgConnection × PgPool :=
  match acquireIdle p p.idle with
  | (some conn,p) => (some conn,p)
  | (none,p) =>
    if p.totalCount < p.config.maxSize then
      match doCreateConnection fresh with
      | none => (none,p.countFailed)
      | some conn => (some conn,{ p with
          totalCount := p.totalCount + 1
          activeCount := p.activeCount + 1
          stats := { p.stats with
            totalCreated := p.stats.totalCreated + 1
            totalAcquired := p.stats.totalAcquired + 1 } })
    else (none,p.countFailed)

def discard (p : PgPool) : PgPool :=
  let p := if p.activeCount > 0 then p.decrementActive else p
  let p := if p.totalCount > 0 then p.decrementTotal else p
  p.countDestroyed

def release (p : PgPool) (conn : PgConnection) (now : Int) : PgPool :=
  if conn.poisoned then p.discard
  else
    let p := p.decrementActive
    { p with
      stats := { p.stats with totalReleased := p.stats.totalReleased + 1 }
      idle := p.idle ++ [⟨conn,now⟩] }

/-- The loop stops at the first connection that has not been idle for long. -/
def shrinkFrom (now : Int) (p : PgPool) : List IdleEntry → PgPool
  | [] => { p with idle := [] }
  | entry :: rest =>
    if now - entry.returnedAt < p.config.maxIdleTime then { p with idle := entry :: rest }
    else shrinkFrom now p.decrementTotal.countDestroyed rest

def shrinkIdle (p : PgPool) (now : Int) : PgPool := shrinkFrom now p p.idle

/-- `clock` gives the reads of the clock, by the checks that are left. -/
def healthCheck (clock : Nat → Int) : Nat → PgPool → PgPool
  | 0, p => p
  | left + 1, p =>
    match p.idle with
    | [] => p
    | entry :: rest =>
      if doValidate entry.conn then
        healthCheck clock left { p with idle := rest ++ [⟨entry.conn,clock left⟩] }
      else healthCheck clock left { p with idle := rest }.decrementTotal.countDestroyed

def healthCheckTick (p : PgPool) (clock : Nat → Int) : PgPool := healthCheck clock p.idle.length p

def closeFrom (p : PgPool) : List IdleEntry → PgPool
  | [] => { p with idle := [] }
  | _ :: rest => closeFrom p.decrementTotal.countDestroyed rest

def closeAll (p : PgPool) : PgPool := closeFrom p p.idle

structure System where
  pool : PgPool
  held : List PgConnection := []
  connecting : List PgConnection := []
  nextId : Nat := 0
  /-- Every connection that was ever poisoned. -/
  tainted : List Nat := []
  deriving DecidableEq, Repr

/-- Holders are named by their place. A server may close or open a connection at any time; only
a holder has a transaction that can poison it. -/
inductive Action where
  | acquire
  | acquireConnected
  | connectDone (place : Nat) (established : Bool)
  | release (place : Nat) (now : Int)
  | discard (place : Nat)
  | shrinkIdle (now : Int)
  | healthCheckTick (clock : Nat → Int)
  | closeAll
  | disturb (id : Nat) (connected statusOk : Bool)
  | poison (place : Nat)

def disturbed (id : Nat) (connected statusOk : Bool) (c : PgConnection) : PgConnection :=
  if c.id = id then { c with connected, statusOk } else c

def System.disturb (s : System) (id : Nat) (connected statusOk : Bool) : System :=
  let f := disturbed id connected statusOk
  { s with
    held := s.held.map f
    connecting := s.connecting.map f
    pool := { s.pool with idle := s.pool.idle.map fun entry => { entry with conn := f entry.conn } } }

def step (s : System) : Action → Option System
  | .acquire =>
    match s.pool.acquire s.nextId with
    | (none,pool) => some { s with pool, nextId := s.nextId + 1 }
    | (some conn,pool) => some { s with pool, nextId := s.nextId + 1, held := s.held ++ [conn] }
  | .acquireConnected =>
    match s.pool.acquire s.nextId with
    | (none,pool) => some { s with pool, nextId := s.nextId + 1 }
    | (some conn,pool) =>
      if conn.connected then
        some { s with pool, nextId := s.nextId + 1, held := s.held ++ [conn] }
      else some { s with pool, nextId := s.nextId + 1, connecting := s.connecting ++ [conn] }
  | .connectDone place established =>
    s.connecting[place]?.map fun conn =>
      if established then
        { s with
          connecting := s.connecting.eraseIdx place
          held := s.held ++ [{ conn with connected := true, statusOk := true }] }
      else { s with connecting := s.connecting.eraseIdx place, pool := s.pool.discard }
  | .release place now =>
    s.held[place]?.map fun conn =>
      { s with held := s.held.eraseIdx place, pool := s.pool.release conn now }
  | .discard place =>
    s.held[place]?.map fun _ => { s with held := s.held.eraseIdx place, pool := s.pool.discard }
  | .shrinkIdle now => some { s with pool := s.pool.shrinkIdle now }
  | .healthCheckTick clock => some { s with pool := s.pool.healthCheckTick clock }
  | .closeAll => some { s with pool := s.pool.closeAll }
  | .disturb id connected statusOk => some (s.disturb id connected statusOk)
  | .poison place =>
    s.held[place]?.map fun conn =>
      { s with held := s.held.set place { conn with poisoned := true }, tainted := conn.id :: s.tainted }

def start (poolSizePerCore : UInt64) (maxIdleTime : Int) : System :=
  { pool := create poolSizePerCore maxIdleTime }

/-- The counters agree with `out` connections that are handed out. -/
structure Accounted (p : PgPool) (out : Nat) : Prop where
  total : p.totalCount.toNat = out + p.idle.length
  active : p.activeCount.toNat = out
  bounded : p.totalCount ≤ p.config.maxSize
  balance : p.stats.totalCreated - p.stats.totalDestroyed = p.totalCount
  sound : p.underflowed = false

theorem toNat_succ {a b : UInt64} (below : a < b) : (a + 1).toNat = a.toNat + 1 := by
  have order := UInt64.lt_iff_toNat_lt.mp below
  have word := b.toNat_lt
  rw [UInt64.toNat_add]
  exact Nat.mod_eq_of_lt (by simp; omega)

theorem toNat_pred {a : UInt64} (positive : 0 < a.toNat) : (a - 1).toNat = a.toNat - 1 :=
  UInt64.toNat_sub_of_le a 1 (UInt64.le_iff_toNat_le.mpr positive)

theorem Accounted.destroy {p : PgPool} {entry : IdleEntry} {rest : List IdleEntry} {out : Nat}
    (accounted : Accounted { p with idle := entry :: rest } out) :
    Accounted { p.decrementTotal.countDestroyed with idle := rest } out := by
  have total : p.totalCount.toNat = out + (rest.length + 1) := accounted.total
  have positive : 0 < p.totalCount.toNat := by omega
  have pred := toNat_pred positive
  constructor
  · show (p.totalCount - 1).toNat = out + rest.length
    omega
  · exact accounted.active
  · have bounded := UInt64.le_iff_toNat_le.mp accounted.bounded
    apply UInt64.le_iff_toNat_le.mpr
    show (p.totalCount - 1).toNat ≤ p.config.maxSize.toNat
    simp only at bounded
    omega
  · have balance : p.stats.totalCreated - p.stats.totalDestroyed = p.totalCount := accounted.balance
    show p.stats.totalCreated - (p.stats.totalDestroyed + 1) = p.totalCount - 1
    rw [← balance]
    grind
  · show (p.underflowed || p.totalCount == 0) = false
    have sound : p.underflowed = false := accounted.sound
    have nonzero : p.totalCount ≠ 0 := fun zero => by simp [zero] at positive
    simp [sound,nonzero]

section
variable (p : PgPool)

theorem acquireIdle_spec (accounted : Accounted { p with idle := entries } out) :
    (∃ dropped entry pool, acquireIdle p entries = (some entry.conn,pool) ∧
      entries = dropped ++ entry :: pool.idle ∧ pool.config = p.config ∧ Accounted pool (out + 1)) ∨
    ∃ pool, acquireIdle p entries = (none,pool) ∧ pool.idle = [] ∧ pool.config = p.config ∧ Accounted pool out := by
  induction entries generalizing p with
  | nil => exact .inr ⟨_,rfl,rfl,rfl,accounted⟩
  | cons entry rest ih =>
    by_cases valid : doValidate entry.conn
    · have total : p.totalCount.toNat = out + (rest.length + 1) := accounted.total
      have active : p.activeCount.toNat = out := accounted.active
      have room : p.activeCount < p.totalCount := UInt64.lt_iff_toNat_lt.mpr (by omega)
      have one := toNat_succ room
      refine .inl ⟨[],entry,_,if_pos valid,rfl,rfl,?_,?_,accounted.bounded,accounted.balance,accounted.sound⟩
      · show p.totalCount.toNat = out + 1 + rest.length
        omega
      · show (p.activeCount + 1).toNat = out + 1
        omega
    · have next : acquireIdle p (entry :: rest) = acquireIdle p.decrementTotal.countDestroyed rest :=
        if_neg valid
      rw [next]
      rcases ih _ accounted.destroy with ⟨dropped,found,pool,taken,split,config,held⟩ | failed
      · exact .inl ⟨entry :: dropped,found,pool,taken,by rw [split]; rfl,config,held⟩
      · exact .inr failed

theorem acquire_spec (fresh : Nat) (accounted : Accounted p out) :
    (∃ dropped entry pool, p.acquire fresh = (some entry.conn,pool) ∧
      p.idle = dropped ++ entry :: pool.idle ∧ pool.config = p.config ∧ Accounted pool (out + 1)) ∨
    (∃ pool, p.acquire fresh = (some { id := fresh },pool) ∧ pool.idle = [] ∧
      pool.config = p.config ∧ Accounted pool (out + 1)) ∨
    ∃ pool, p.acquire fresh = (none,pool) ∧ pool.idle = [] ∧ pool.config = p.config ∧ Accounted pool out := by
  rcases acquireIdle_spec p accounted with
    ⟨dropped,entry,pool,taken,split,config,held⟩ | ⟨pool,none',empty,config,held⟩
  · exact .inl ⟨dropped,entry,pool,by simp only [acquire,taken],split,config,held⟩
  · by_cases room : pool.totalCount < pool.config.maxSize
    · have total := held.total
      have active := held.active
      have first := toNat_succ room
      have second : (pool.activeCount + 1).toNat = pool.activeCount.toNat + 1 := by
        apply toNat_succ (b := pool.config.maxSize)
        apply UInt64.lt_iff_toNat_lt.mpr
        have order := UInt64.lt_iff_toNat_lt.mp room
        omega
      have unchanged := held.balance
      have taken : p.acquire fresh = (some { id := fresh },{ pool with
          totalCount := pool.totalCount + 1
          activeCount := pool.activeCount + 1
          stats := { pool.stats with
            totalCreated := pool.stats.totalCreated + 1
            totalAcquired := pool.stats.totalAcquired + 1 } }) := by
        simp only [acquire,none',if_pos room,doCreateConnection]
      refine .inr (.inl ⟨_,taken,empty,config,?_,?_,?_,?_,held.sound⟩)
      · show (pool.totalCount + 1).toNat = out + 1 + pool.idle.length
        omega
      · show (pool.activeCount + 1).toNat = out + 1
        omega
      · apply UInt64.le_iff_toNat_le.mpr
        have order := UInt64.lt_iff_toNat_lt.mp room
        show (pool.totalCount + 1).toNat ≤ pool.config.maxSize.toNat
        omega
      · show pool.stats.totalCreated + 1 - pool.stats.totalDestroyed = pool.totalCount + 1
        rw [← unchanged]
        grind
    · exact .inr (.inr ⟨pool.countFailed,by simp only [acquire,none',if_neg room],empty,config,
        held.total,held.active,held.bounded,held.balance,held.sound⟩)

theorem Accounted.decrementActive {p : PgPool} {out : Nat} (accounted : Accounted p (out + 1)) :
    p.decrementActive.activeCount.toNat = out ∧ p.decrementActive.underflowed = false := by
  have active := accounted.active
  have positive : 0 < p.activeCount.toNat := by omega
  have pred := toNat_pred positive
  have nonzero : p.activeCount ≠ 0 := fun zero => by simp [zero] at positive
  constructor
  · show (p.activeCount - 1).toNat = out
    omega
  · show (p.underflowed || p.activeCount == 0) = false
    simp [accounted.sound,nonzero]

theorem discard_accounted (accounted : Accounted p (out + 1)) :
    p.discard.idle = p.idle ∧ p.discard.config = p.config ∧ Accounted p.discard out := by
  have active := accounted.active
  have total := accounted.total
  have given := accounted.decrementActive
  have first : p.activeCount > 0 := UInt64.lt_iff_toNat_lt.mpr (by simp; omega)
  have second : p.decrementActive.totalCount > 0 := by
    apply UInt64.lt_iff_toNat_lt.mpr
    show 0 < p.totalCount.toNat
    omega
  have eq : p.discard = p.decrementActive.decrementTotal.countDestroyed := by
    simp only [discard,if_pos first,if_pos second]
  rw [eq]
  refine ⟨rfl,rfl,?_⟩
  -- as if the connection had come back to the queue and were destroyed there
  have back : Accounted { p.decrementActive with idle := ⟨{ id := 0 },0⟩ :: p.idle } out := by
    refine ⟨?_,given.1,accounted.bounded,accounted.balance,given.2⟩
    show p.totalCount.toNat = out + (p.idle.length + 1)
    omega
  exact back.destroy

theorem release_accounted (conn : PgConnection) (now : Int) (accounted : Accounted p (out + 1)) :
    (p.release conn now).idle = p.idle ++ (if conn.poisoned then [] else [⟨conn,now⟩]) ∧
      (p.release conn now).config = p.config ∧ Accounted (p.release conn now) out := by
  cases poisoned : conn.poisoned with
  | true =>
    have discarded := discard_accounted p accounted
    simpa [release,poisoned] using discarded
  | false =>
    have given := accounted.decrementActive
    have total := accounted.total
    have eq : p.release conn now = { p.decrementActive with
        stats := { p.stats with totalReleased := p.stats.totalReleased + 1 }
        idle := p.idle ++ [⟨conn,now⟩] } := by
      simp only [release,poisoned]
      rfl
    rw [eq]
    refine ⟨rfl,rfl,?_,given.1,accounted.bounded,accounted.balance,given.2⟩
    show p.totalCount.toNat = out + (p.idle ++ [_]).length
    simp
    omega

theorem shrinkFrom_accounted (now : Int) (p : PgPool) (accounted : Accounted { p with idle := entries } out) :
    (shrinkFrom now p entries).idle <:+ entries ∧ (shrinkFrom now p entries).config = p.config ∧
      Accounted (shrinkFrom now p entries) out := by
  induction entries generalizing p with
  | nil => exact ⟨suffix_refl _,rfl,accounted⟩
  | cons entry rest ih =>
    unfold shrinkFrom
    split
    · exact ⟨suffix_refl _,rfl,accounted⟩
    · obtain ⟨later,config,held⟩ := ih _ accounted.destroy
      exact ⟨later.trans (suffix_cons _ _),config,held⟩

theorem closeFrom_accounted (accounted : Accounted { p with idle := entries } out) :
    (closeFrom p entries).idle = [] ∧ (closeFrom p entries).config = p.config ∧
      Accounted (closeFrom p entries) out := by
  induction entries generalizing p with
  | nil => exact ⟨rfl,rfl,accounted⟩
  | cons entry rest ih => exact ih _ accounted.destroy

end

def idleConns (p : PgPool) : List PgConnection := p.idle.map IdleEntry.conn

theorem healthCheck_accounted (clock : Nat → Int) (left : Nat) (p : PgPool) (accounted : Accounted p out) :
    (healthCheck clock left p).idleConns.Subperm p.idleConns ∧
      (healthCheck clock left p).config = p.config ∧ Accounted (healthCheck clock left p) out := by
  induction left generalizing p with
  | zero => exact ⟨List.Subperm.refl _,rfl,accounted⟩
  | succ left ih =>
    cases queue : p.idle with
    | nil =>
      have same : healthCheck clock (left + 1) p = p := by simp only [healthCheck,queue]
      rw [same]
      exact ⟨List.Subperm.refl _,rfl,accounted⟩
    | cons entry rest =>
      have conns : p.idleConns = entry.conn :: rest.map IdleEntry.conn := by
        rw [idleConns,queue]
        rfl
      by_cases valid : doValidate entry.conn
      · have kept : Accounted { p with idle := rest ++ [⟨entry.conn,clock left⟩] } out := by
          have total := accounted.total
          refine ⟨?_,accounted.active,accounted.bounded,accounted.balance,accounted.sound⟩
          rw [queue] at total
          simpa using total
        have next : healthCheck clock (left + 1) p =
            healthCheck clock left { p with idle := rest ++ [⟨entry.conn,clock left⟩] } := by
          simp only [healthCheck,queue,if_pos valid]
        obtain ⟨sub,config,held⟩ := ih _ kept
        rw [next]
        refine ⟨sub.trans ?_,config,held⟩
        apply List.Perm.subperm
        rw [conns]
        simp [idleConns,perm_append_singleton]
      · have kept : Accounted { p with idle := rest }.decrementTotal.countDestroyed out := by
          have before : Accounted { p with idle := entry :: rest } out := queue ▸ accounted
          exact before.destroy
        have next : healthCheck clock (left + 1) p =
            healthCheck clock left { p with idle := rest }.decrementTotal.countDestroyed := by
          simp only [healthCheck,queue,if_neg valid]
        obtain ⟨sub,config,held⟩ := ih _ kept
        rw [next]
        refine ⟨sub.trans ?_,config,held⟩
        apply subperm
        rw [conns]
        exact sublist_cons_self _ _

def System.all (s : System) : List PgConnection := s.held ++ s.connecting ++ s.pool.idleConns

structure Sound (maxSize : UInt64) (s : System) : Prop where
  size : s.pool.config.maxSize = maxSize
  accounted : Accounted s.pool (s.held.length + s.connecting.length)
  distinct : (s.all.map PgConnection.id).Nodup
  known : ∀ c ∈ s.all, c.id < s.nextId
  old : ∀ id ∈ s.tainted, id < s.nextId
  clean : ∀ c ∈ s.connecting ++ s.pool.idleConns, c.poisoned = false ∧ c.id ∉ s.tainted
  marked : ∀ c ∈ s.held, c.id ∈ s.tainted → c.poisoned = true

theorem sound_start (poolSizePerCore : UInt64) (maxIdleTime : Int) :
    Sound (poolSizePerCore * 2) (start poolSizePerCore maxIdleTime) where
  size := rfl
  accounted := ⟨rfl,rfl,UInt64.zero_le,by simp [start,create],rfl⟩
  distinct := .nil
  known := by simp [System.all,start,create,idleConns]
  old := by simp [start]
  clean := by simp [start,create,idleConns]
  marked := by simp [start]

variable {next s : System}

theorem Sound.shrink (sound : Sound maxSize s) (size : next.pool.config = s.pool.config)
    (accounted : Accounted next.pool (next.held.length + next.connecting.length))
    (fewer : next.all.Subperm s.all) (held : next.held ⊆ s.held)
    (free : next.connecting ++ next.pool.idleConns ⊆ s.connecting ++ s.pool.idleConns)
    (same : next.nextId = s.nextId) (tainted : next.tainted = s.tainted) : Sound maxSize next where
  size := by rw [size]; exact sound.size
  accounted := accounted
  distinct := by
    obtain ⟨kept,perm,sub⟩ := fewer
    exact (perm.map _).nodup_iff.mp (sound.distinct.sublist (sub.map _))
  known := by
    rw [same]
    exact fun c member => sound.known c (fewer.subset member)
  old := by
    rw [same,tainted]
    exact sound.old
  clean := by
    rw [tainted]
    exact fun c member => sound.clean c (free member)
  marked := by
    rw [tainted]
    exact fun c member => sound.marked c (held member)

structure Taken (s : System) (conn : PgConnection) (pool : PgPool) : Prop where
  size : pool.config = s.pool.config
  accounted : Accounted pool (s.held.length + s.connecting.length + 1)
  distinct : ((conn :: (s.held ++ s.connecting ++ pool.idleConns)).map PgConnection.id).Nodup
  known : conn.id < s.nextId + 1
  untainted : conn.poisoned = false ∧ conn.id ∉ s.tainted
  queue : pool.idleConns ⊆ s.pool.idleConns

theorem acquire_taken (sound : Sound maxSize s)
    (taken : s.pool.acquire s.nextId = (some conn,pool)) : Taken s conn pool := by
  rcases acquire_spec s.pool s.nextId sound.accounted with
    ⟨dropped,entry,other,result,split,size,held⟩ | ⟨other,result,empty,size,held⟩ |
    ⟨other,result,_,_,_⟩
  · cases taken.symm.trans result
    have queue : s.pool.idleConns = dropped.map IdleEntry.conn ++ entry.conn :: pool.idleConns := by
      rw [idleConns,split,map_append]
      rfl
    have member : entry.conn ∈ s.pool.idleConns := by simp [queue]
    have perm : (s.held ++ s.connecting ++ entry.conn :: pool.idleConns).Perm
        (entry.conn :: (s.held ++ s.connecting ++ pool.idleConns)) := perm_middle
    have sub : (s.held ++ s.connecting ++ entry.conn :: pool.idleConns).Sublist s.all := by
      apply append_left
      rw [queue]
      exact sublist_append_right _ _
    exact {
      size := size
      accounted := held
      distinct := (perm.map _).nodup_iff.mp (sound.distinct.sublist (sub.map _))
      known := Nat.lt_succ_of_lt (sound.known _ (mem_append_right _ member))
      untainted := sound.clean _ (mem_append_right _ member)
      queue := by simp [queue] }
  · cases taken.symm.trans result
    have none' : pool.idleConns = [] := by rw [idleConns,empty]; rfl
    have sub : (s.held ++ s.connecting).Sublist s.all := sublist_append_left _ _
    have fresh : ∀ c ∈ s.held ++ s.connecting, c.id ≠ s.nextId := fun c member =>
      Nat.ne_of_lt (sound.known c (sub.subset member))
    exact {
      size := size
      accounted := held
      distinct := by
        rw [none',append_nil,map_cons,nodup_cons]
        refine ⟨?_,sound.distinct.sublist (sub.map _)⟩
        intro member
        obtain ⟨c,holder,same⟩ := mem_map.mp member
        exact fresh c holder same
      known := Nat.lt_succ_self _
      untainted := ⟨rfl,fun member => Nat.lt_irrefl _ (sound.old _ member)⟩
      queue := by simp [none'] }
  · cases taken.symm.trans result

theorem Taken.sound (sound : Sound maxSize s) (taken : Taken s conn pool)
    (hands : next.held = s.held ++ [conn] ∧ next.connecting = s.connecting ∨
      next.held = s.held ∧ next.connecting = s.connecting ++ [conn])
    (of : next.pool = pool) (later : next.nextId = s.nextId + 1) (tainted : next.tainted = s.tainted) :
    Sound maxSize next := by
  have perm : next.all.Perm (conn :: (s.held ++ s.connecting ++ pool.idleConns)) := by
    rcases hands with ⟨held,connecting⟩ | ⟨held,connecting⟩
    · simp only [System.all,held,connecting,of]
      exact ((perm_append_singleton conn s.held).append_right _).append_right _
    · simp only [System.all,held,connecting,of,← append_assoc]
      exact (perm_append_singleton conn _).append_right _
  constructor
  · rw [of,taken.size]
    exact sound.size
  · have count : next.held.length + next.connecting.length = s.held.length + s.connecting.length + 1 := by
      rcases hands with ⟨held,connecting⟩ | ⟨held,connecting⟩ <;> simp [held,connecting] <;> omega
    rw [of,count]
    exact taken.accounted
  · exact (perm.map _).nodup_iff.mpr taken.distinct
  · intro c member
    rw [later]
    rcases mem_cons.mp (perm.mem_iff.mp member) with rfl | before
    · exact taken.known
    apply Nat.lt_succ_of_lt
    apply sound.known c
    rcases mem_append.mp before with held | queued
    · exact mem_append_left _ held
    · exact mem_append_right _ (taken.queue queued)
  · rw [later,tainted]
    exact fun id member => Nat.lt_succ_of_lt (sound.old id member)
  · intro c member
    rw [tainted]
    have before : c = conn ∨ c ∈ s.connecting ++ s.pool.idleConns := by
      rcases mem_append.mp member with waiting | queued
      · rcases hands with ⟨_,connecting⟩ | ⟨_,connecting⟩
        · exact .inr (mem_append_left _ (connecting ▸ waiting))
        rw [connecting] at waiting
        rcases mem_append.mp waiting with waiting | new
        · exact .inr (mem_append_left _ waiting)
        · exact .inl (mem_singleton.mp new)
      · rw [of] at queued
        exact .inr (mem_append_right _ (taken.queue queued))
    rcases before with rfl | before
    · exact taken.untainted
    · exact sound.clean c before
  · intro c member bad
    rw [tainted] at bad
    rcases hands with ⟨held,_⟩ | ⟨held,_⟩
    · rw [held] at member
      rcases mem_concat member with before | rfl
      · exact sound.marked c before bad
      · exact absurd bad taken.untainted.2
    · rw [held] at member
      exact sound.marked c member bad

section
variable (sound : Sound maxSize s)
include sound

theorem Sound.later : Sound maxSize { s with nextId := s.nextId + 1 } :=
  ⟨sound.size,sound.accounted,sound.distinct,fun c member => Nat.lt_succ_of_lt (sound.known c member),
    fun id member => Nat.lt_succ_of_lt (sound.old id member),sound.clean,sound.marked⟩

theorem sound_failed (failed : s.pool.acquire s.nextId = (none,pool)) :
    Sound maxSize { s with pool, nextId := s.nextId + 1 } := by
  rcases acquire_spec s.pool s.nextId sound.accounted with
    ⟨_,_,other,result,_⟩ | ⟨other,result,_⟩ | ⟨other,result,idle,size,held⟩ <;> cases failed.symm.trans result
  have empty : pool.idleConns = [] := by rw [idleConns,idle]; rfl
  apply sound.later.shrink size held
  · apply subperm
    apply append_left
    rw [empty]
    exact nil_sublist _
  · exact List.Subset.refl _
  · simp [empty]
  · rfl
  · rfl

end

section
variable {conns : List PgConnection} {place : Nat} (there : conns[place]? = some conn)
include there

theorem erase_perm :
    conns.Perm (conn :: conns.eraseIdx place) := by
  obtain ⟨inside,rfl⟩ := List.getElem?_eq_some_iff.mp there
  exact (List.getElem_cons_eraseIdx_perm inside).symm

theorem erase_length :
    conns.length = (conns.eraseIdx place).length + 1 := (erase_perm there).length_eq

end

section
variable (sound : Sound maxSize s)
include sound

theorem Sound.discard {held connecting : List PgConnection}
    (holders : held.Sublist s.held) (waiting : connecting.Sublist s.connecting)
    (count : s.held.length + s.connecting.length = held.length + connecting.length + 1) :
    Sound maxSize { s with held, connecting, pool := s.pool.discard } := by
  obtain ⟨queue,size,accounted⟩ := discard_accounted s.pool (count ▸ sound.accounted)
  have conns : s.pool.discard.idleConns = s.pool.idleConns := by rw [idleConns,queue]; rfl
  apply sound.shrink size accounted
  · apply subperm
    simp only [System.all,conns]
    exact (holders.append waiting).append_right _
  · exact holders.subset
  · simp only [conns]
    exact (waiting.append_right _).subset
  · rfl
  · rfl

theorem sound_discard (there : s.held[place]? = some conn) :
    Sound maxSize { s with held := s.held.eraseIdx place, pool := s.pool.discard } := by
  have count := erase_length there
  exact sound.discard (eraseIdx_sublist s.held place) (refl _) (by omega)

theorem sound_connected (there : s.connecting[place]? = some conn) :
    Sound maxSize { s with
      connecting := s.connecting.eraseIdx place
      held := s.held ++ [{ conn with connected := true, statusOk := true }] } := by
  have perm := erase_perm there
  have fewer := eraseIdx_sublist s.connecting place
  have member : conn ∈ s.connecting := perm.mem_iff.mpr mem_cons_self
  have count : s.held.length + s.connecting.length =
      (s.held ++ [{ conn with connected := true, statusOk := true }]).length +
        (s.connecting.eraseIdx place).length := by
    rw [erase_length there,length_append,length_singleton]
    omega
  have ids : (s.all.map PgConnection.id).Perm (((s.held ++ [{ conn with connected := true, statusOk := true }]) ++
        s.connecting.eraseIdx place ++ s.pool.idleConns).map PgConnection.id) := by
    have moved := ((perm.append_left s.held).append_right s.pool.idleConns).map PgConnection.id
    simpa [System.all] using moved
  have untainted := sound.clean conn (mem_append_left _ member)
  constructor
  · exact sound.size
  · exact count ▸ sound.accounted
  · exact ids.nodup_iff.mp sound.distinct
  · intro c known
    have before := ids.mem_iff.mpr (mem_map_of_mem known)
    obtain ⟨d,old,same⟩ := mem_map.mp before
    rw [← same]
    exact sound.known d old
  · exact sound.old
  · intro c free
    exact sound.clean c ((fewer.append_right _).subset free)
  · intro c holder bad
    rcases mem_concat holder with before | rfl
    · exact sound.marked c before bad
    · exact absurd bad untainted.2

theorem sound_release (there : s.held[place]? = some conn) (now : Int) :
    Sound maxSize { s with held := s.held.eraseIdx place, pool := s.pool.release conn now } := by
  cases poisoned : conn.poisoned with
  | true =>
    have same : s.pool.release conn now = s.pool.discard := by simp [release,poisoned]
    rw [same]
    exact sound_discard sound there
  | false =>
    have perm := erase_perm there
    have fewer := eraseIdx_sublist s.held place
    have member : conn ∈ s.held := perm.mem_iff.mpr mem_cons_self
    have count : s.held.length + s.connecting.length =
        (s.held.eraseIdx place).length + s.connecting.length + 1 := by
      rw [erase_length there]
      omega
    obtain ⟨queue,size,held⟩ := release_accounted s.pool conn now (count ▸ sound.accounted)
    have conns : (s.pool.release conn now).idleConns = s.pool.idleConns ++ [conn] := by
      rw [idleConns,queue,poisoned]
      simp [idleConns]
    have moved : s.all.Perm (s.held.eraseIdx place ++ s.connecting ++ (s.pool.idleConns ++ [conn])) := by
      have front := (perm.append_right s.connecting).append_right s.pool.idleConns
      apply front.trans
      simp only [← append_assoc]
      exact (perm_append_singleton conn _).symm
    constructor
    · rw [size]
      exact sound.size
    · exact held
    · simp only [System.all,conns]
      exact (moved.map _).nodup_iff.mp sound.distinct
    · intro c known
      simp only [System.all,conns] at known
      exact sound.known c (moved.mem_iff.mpr known)
    · exact sound.old
    · intro c free
      simp only [conns,← append_assoc] at free
      rcases mem_append.mp free with before | back
      · exact sound.clean c before
      have same := mem_singleton.mp back
      rw [same]
      refine ⟨poisoned,fun bad => ?_⟩
      have marked := sound.marked conn member bad
      rw [poisoned] at marked
      cases marked
    · intro c holder bad
      exact sound.marked c (fewer.subset holder) bad

end

section
variable (id : Nat) (connected statusOk : Bool) (c : PgConnection)

theorem disturbed_id :
    (disturbed id connected statusOk c).id = c.id := by
  unfold disturbed
  split <;> rfl

theorem disturbed_poisoned :
    (disturbed id connected statusOk c).poisoned = c.poisoned := by
  unfold disturbed
  split <;> rfl

end

section
variable (sound : Sound maxSize s)
include sound

theorem sound_disturb (id : Nat) (connected statusOk : Bool) :
    Sound maxSize (s.disturb id connected statusOk) := by
  have conns : (s.disturb id connected statusOk).pool.idleConns =
      s.pool.idleConns.map (disturbed id connected statusOk) := by
    simp [System.disturb,idleConns]
  have all : (s.disturb id connected statusOk).all = s.all.map (disturbed id connected statusOk) := by
    simp [System.all,conns]
    simp [System.disturb]
  have ids : (s.disturb id connected statusOk).all.map PgConnection.id = s.all.map PgConnection.id := by
    rw [all,map_map]
    exact map_congr_left fun c _ => disturbed_id id connected statusOk c
  have accounted := sound.accounted
  constructor
  · exact sound.size
  · refine ⟨?_,?_,accounted.bounded,accounted.balance,accounted.sound⟩
    · simpa [System.disturb] using accounted.total
    · simpa [System.disturb] using accounted.active
  · rw [ids]
    exact sound.distinct
  · intro c member
    rw [all] at member
    obtain ⟨d,before,rfl⟩ := mem_map.mp member
    rw [disturbed_id]
    exact sound.known d before
  · exact sound.old
  · intro c member
    rw [conns] at member
    have split : c ∈ (s.connecting ++ s.pool.idleConns).map (disturbed id connected statusOk) := by
      simpa [System.disturb] using member
    obtain ⟨d,before,rfl⟩ := mem_map.mp split
    rw [disturbed_id,disturbed_poisoned]
    exact sound.clean d before
  · intro c member bad
    obtain ⟨d,before,rfl⟩ := mem_map.mp member
    rw [disturbed_id] at bad
    rw [disturbed_poisoned]
    exact sound.marked d before bad

theorem sound_poison (there : s.held[place]? = some conn) : Sound maxSize { s with
      held := s.held.set place { conn with poisoned := true }
      tainted := conn.id :: s.tainted } := by
  obtain ⟨inside,here⟩ := List.getElem?_eq_some_iff.mp there
  have holders : (s.held.set place { conn with poisoned := true }).map PgConnection.id =
      s.held.map PgConnection.id := by
    rw [map_set]
    apply ext_getElem?
    intro i
    rw [getElem?_set]
    split
    · rename_i same
      cases same
      simp [inside,here]
    · rfl
  have member : conn ∈ s.held := mem_of_getElem? there
  have known := sound.known conn (mem_append_left _ (mem_append_left _ member))
  have ids : (({ s with
      held := s.held.set place { conn with poisoned := true }
      tainted := conn.id :: s.tainted } : System).all).map PgConnection.id =
      s.all.map PgConnection.id := by
    simp only [System.all,map_append,holders]
  -- nobody but the holder has this connection
  have others : ∀ c ∈ s.connecting ++ s.pool.idleConns, c.id ≠ conn.id := by
    intro c free same
    have distinct := sound.distinct
    rw [System.all,append_assoc,map_append] at distinct
    apply (nodup_append.mp distinct).2.2 conn.id (mem_map_of_mem member) c.id _ same.symm
    exact mem_map_of_mem free
  have single : (s.held.map PgConnection.id).Nodup := by
    have distinct := sound.distinct
    rw [System.all,append_assoc,map_append] at distinct
    exact (nodup_append.mp distinct).1
  constructor
  · exact sound.size
  · simpa using sound.accounted
  · rw [ids]
    exact sound.distinct
  · intro c holder
    have before := mem_map_of_mem (f := PgConnection.id) holder
    rw [ids] at before
    obtain ⟨d,old,same⟩ := mem_map.mp before
    rw [← same]
    exact sound.known d old
  · intro id bad
    rcases mem_cons.mp bad with rfl | before
    · exact known
    · exact sound.old id before
  · intro c free
    refine ⟨(sound.clean c free).1,fun bad => ?_⟩
    rcases mem_cons.mp bad with same | before
    · exact others c free same
    · exact (sound.clean c free).2 before
  · intro c holder bad
    obtain ⟨i,found⟩ := mem_iff_getElem?.mp holder
    rw [getElem?_set] at found
    split at found
    · cases found
      rfl
    rename_i other
    rcases mem_cons.mp bad with same | before
    · have first : (s.held.map PgConnection.id)[place]? = some conn.id := by simp [there]
      have second : (s.held.map PgConnection.id)[i]? = some conn.id := by simp [found,same]
      have place' : place < (s.held.map PgConnection.id).length := by simpa using inside
      exact absurd ((getElem?_inj place' single).mp (first.trans second.symm)) other
    · exact sound.marked c (mem_of_getElem? found) before

theorem sound_queue (pool : PgPool)
    (fewer : pool.idleConns.Subperm s.pool.idleConns) (size : pool.config = s.pool.config)
    (accounted : Accounted pool (s.held.length + s.connecting.length)) :
    Sound maxSize { s with pool } := by
  apply sound.shrink size accounted
  · exact (subperm_append_left _).mpr fewer
  · exact List.Subset.refl _
  · intro c free
    rcases mem_append.mp free with waiting | queued
    · exact mem_append_left _ waiting
    · exact mem_append_right _ (fewer.subset queued)
  · rfl
  · rfl

end

theorem sound_step {action : Action} (sound : Sound maxSize s)
    (steps : step s action = some next) : Sound maxSize next := by
  cases action with
  | acquire =>
    cases taken : s.pool.acquire s.nextId with
    | mk got pool =>
      cases got with
      | none =>
        simp only [step,taken] at steps
        cases steps
        exact sound_failed sound taken
      | some conn =>
        simp only [step,taken] at steps
        cases steps
        exact (acquire_taken sound taken).sound sound (.inl ⟨rfl,rfl⟩) rfl rfl rfl
  | acquireConnected =>
    cases taken : s.pool.acquire s.nextId with
    | mk got pool =>
      cases got with
      | none =>
        simp only [step,taken] at steps
        cases steps
        exact sound_failed sound taken
      | some conn =>
        simp only [step,taken] at steps
        split at steps
        · cases steps
          exact (acquire_taken sound taken).sound sound (.inl ⟨rfl,rfl⟩) rfl rfl rfl
        · cases steps
          exact (acquire_taken sound taken).sound sound (.inr ⟨rfl,rfl⟩) rfl rfl rfl
  | connectDone place established =>
    obtain ⟨conn,there,same⟩ := Option.map_eq_some_iff.mp steps
    rw [← same]
    cases established with
    | true => exact sound_connected sound there
    | false =>
      have count := erase_length there
      exact sound.discard (refl _) (eraseIdx_sublist s.connecting place) (by omega)
  | release place now =>
    obtain ⟨conn,there,same⟩ := Option.map_eq_some_iff.mp steps
    rw [← same]
    exact sound_release sound there now
  | discard place =>
    obtain ⟨conn,there,same⟩ := Option.map_eq_some_iff.mp steps
    rw [← same]
    exact sound_discard sound there
  | shrinkIdle now =>
    cases steps
    obtain ⟨later,size,held⟩ := shrinkFrom_accounted now s.pool sound.accounted
    exact sound_queue sound _ (later.sublist.map _).subperm size held
  | healthCheckTick clock =>
    cases steps
    obtain ⟨fewer,size,held⟩ := healthCheck_accounted clock s.pool.idle.length s.pool sound.accounted
    exact sound_queue sound _ fewer size held
  | closeAll =>
    cases steps
    obtain ⟨empty,size,held⟩ := closeFrom_accounted s.pool sound.accounted
    apply sound_queue sound _ _ size held
    rw [idleConns,empty]
    exact nil_subperm
  | disturb id connected statusOk =>
    cases steps
    exact sound_disturb sound id connected statusOk
  | poison place =>
    obtain ⟨conn,there,same⟩ := Option.map_eq_some_iff.mp steps
    rw [← same]
    exact sound_poison sound there

/-- The counters are exact in every reachable state, no connection has two holders, and a
connection that the pool hands out next is nobody's and was never poisoned. -/
theorem pool_accounts (poolSizePerCore : UInt64) (maxIdleTime : Int) (schedule : List Action)
    (final : System) (runs : run step (start poolSizePerCore maxIdleTime) schedule = some final) :
    final.pool.config.maxSize = poolSizePerCore * 2 ∧
      final.pool.totalCount.toNat = final.pool.activeCount.toNat + final.pool.idle.length ∧
      final.pool.totalCount ≤ final.pool.config.maxSize ∧ final.pool.underflowed = false ∧
      final.pool.activeCount.toNat = final.held.length + final.connecting.length ∧
      final.pool.stats.totalCreated - final.pool.stats.totalDestroyed = final.pool.totalCount ∧
      (final.all.map PgConnection.id).Nodup ∧
      ∀ conn pool, final.pool.acquire final.nextId = (some conn,pool) →
        conn.poisoned = false ∧ conn.id ∉ final.tainted ∧
          ∀ other ∈ final.held ++ final.connecting ++ pool.idleConns, other.id ≠ conn.id := by
  have sound := run_invariant (Sound (poolSizePerCore * 2))
    (fun _ _ _ sound steps => sound_step sound steps) (sound_start poolSizePerCore maxIdleTime) runs
  have accounted := sound.accounted
  refine ⟨sound.size,?_,accounted.bounded,accounted.sound,accounted.active,accounted.balance,sound.distinct,?_⟩
  · rw [accounted.active]
    exact accounted.total
  · intro conn pool result
    have taken := acquire_taken sound result
    refine ⟨taken.untainted.1,taken.untainted.2,?_⟩
    intro other member same
    have fresh := (nodup_cons.mp taken.distinct).1
    apply fresh
    rw [← same]
    exact mem_map_of_mem member

theorem pool_accounts_poisoned :
    ∃ final, run step (start 1 60) [.acquireConnected,.connectDone 0 true,.acquireConnected,
        .connectDone 0 true,.release 0 5,.disturb 0 true false,.acquire,.poison 0,.release 0 7] =
        some final ∧
      final.tainted = [1] ∧ final.held.length = 1 ∧ final.pool.stats.totalDestroyed = 2 ∧
      final.pool.totalCount.toNat = final.pool.activeCount.toNat + final.pool.idle.length := by
  refine exists_final (by decide +kernel) fun runs => ?_
  exact ⟨by decide +kernel,by decide +kernel,by decide +kernel,(pool_accounts 1 60 _ _ runs).2.1⟩

end PgPool
end ApexPipeline
