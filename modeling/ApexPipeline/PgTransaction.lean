import ApexPipeline.PgPool

/-! `pg_transaction.hpp`: the guard of a transaction, with the server behind its connection. -/
namespace ApexPipeline.PgTransaction
open Execution

/-- A round trip: executed, executed but reported as failed, or not executed. -/
inductive Trip where
  | succeeds | lost | fails
  deriving DecidableEq, Repr

def Trip.executed (trip : Trip) : Bool := trip ≠ .fails

def Trip.reported (trip : Trip) : Bool := trip = .succeeds

/-- `inTransaction` is what the server knows, the others what the guard knows. -/
structure State where
  begun : Bool := false
  finished : Bool := false
  inTransaction : Bool := false
  deriving DecidableEq, Repr

def State.active (s : State) : Bool := s.begun && !s.finished

/-- Any statement may be executed, with or without parameters; `leaves` is whether the server is in a
transaction after it. -/
inductive Action where
  | begin (trip : Trip)
  | execute (trip : Trip) (leaves : Bool)
  | commit (trip : Trip)
  | rollback (trip : Trip)
  deriving DecidableEq, Repr

/-- An inactive guard refuses everything but `begin`. -/
def step (s : State) : Action → Option State
  | .begin trip => some { s with begun := s.begun || trip.reported, inTransaction := s.inTransaction || trip.executed }
  | .execute trip leaves => some (if s.active && trip.executed then { s with inTransaction := leaves } else s)
  | .commit trip =>
    some (if s.active then
      { s with finished := trip.reported, inTransaction := s.inTransaction && !trip.executed } else s)
  | .rollback trip =>
    some (if s.active then { s with finished := true, inTransaction := s.inTransaction && !trip.executed } else s)

/-- `~PgTransactionT`. -/
def State.destroy (s : State) (conn : PgConnection) : PgConnection :=
  { conn with poisoned := conn.poisoned || s.active }

/-- Every BEGIN that is executed makes the guard active, and every ROLLBACK is executed. -/
def Told (s : State) : Action → Prop
  | .begin trip => trip.executed = true → s.finished = false ∧ (s.begun = true ∨ trip.reported = true)
  | .rollback trip => s.active = true → trip.executed = true
  | _ => True

instance (s : State) : (action : Action) → Decidable (Told s action)
  | .begin _ | .rollback _ => inferInstanceAs (Decidable (_ → _))
  | .execute .. | .commit _ => inferInstanceAs (Decidable True)

def Guarded (s : State) : Prop := s.inTransaction = true → s.active = true

theorem guarded_step (s : State) (action : Action) (next : State) (guarded : Guarded s) (told : Told s action)
    (stepped : step s action = some next) : Guarded next := by
  cases action with
  | begin trip =>
    cases stepped
    intro inside
    rcases Bool.or_eq_true_iff.mp inside with before | executed
    · simp_all [Guarded,State.active]
    · obtain ⟨open',known⟩ := told executed
      simpa [State.active,open'] using known
  | execute trip leaves =>
    cases stepped
    split
    · rename_i runs
      exact fun _ => (Bool.and_eq_true_iff.mp runs).1
    · exact guarded
  | commit trip =>
    cases stepped
    split
    · cases trip <;> simp_all [Guarded,State.active,Trip.executed,Trip.reported]
    · exact guarded
  | rollback trip =>
    cases stepped
    split
    · rename_i active
      intro inside
      simp [told active] at inside
    · exact guarded

/-- A connection whose guard has gone while the server is in a transaction does not get back to the queue. -/
theorem idle_without_transaction (schedule : List Action) (told : Along step Told {} schedule)
    (runs : run step {} schedule = some final) (inside : final.inTransaction = true) (pool : PgPool)
    (conn : PgConnection) (now : Int) : (pool.release (final.destroy conn) now).idle = pool.idle := by
  have guarded := run_guarded step Told Guarded guarded_step Bool.noConfusion told runs
  simp only [PgPool.release,State.destroy,guarded inside,Bool.or_true,if_true]
  dsimp only [PgPool.discard]
  split <;> split <;> rfl

theorem idle_without_transaction_lost :
    run step {} [.begin .succeeds,.execute .lost true,.commit .fails] = some ⟨true,false,true⟩ ∧
      ∀ pool : PgPool, (pool.release (State.destroy ⟨true,false,true⟩ { id := 1 }) 0).idle = pool.idle :=
  ⟨rfl,fun pool => idle_without_transaction [.begin .succeeds,.execute .lost true,.commit .fails] (by decide) rfl rfl
    pool { id := 1 } 0⟩

/-- The guard counts a ROLLBACK that has failed as the end of the transaction. -/
theorem open_transaction_pooled : ∃ final, run step {} [.begin .succeeds,.rollback .fails] = some final ∧
    final.inTransaction = true ∧ ∀ pool : PgPool,
      (pool.release (final.destroy { id := 1 }) 0).idle = pool.idle ++ [⟨{ id := 1 },0⟩] :=
  ⟨_,rfl,rfl,fun _ => rfl⟩

end ApexPipeline.PgTransaction
