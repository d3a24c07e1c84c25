import ApexPipeline.Execution

/-! `shared_payload.hpp` and `broadcast_cross_core`: one payload for all cores but the one that sends it. -/
namespace ApexPipeline.SharedPayload
open Execution

/-- `sending` is the loop at the core with this index; `releasing` has so many releases to go. -/
inductive Sender where
  | sending (core : Nat)
  | releasing (left : Nat)
  | ended
  deriving DecidableEq, Repr

/-- `holders` are the cores that have the payload and have not released it. The last two are no part of the program:
how often it was deleted, and whether it was touched afterwards. -/
structure State where
  refcount : Nat
  sender : Sender := .sending 0
  delivered : Nat := 0
  holders : List Nat := []
  deletions : Nat := 0
  stale : Bool := false
  deriving DecidableEq, Repr

def State.release (s : State) : State :=
  { s with
    refcount := s.refcount - 1
    deletions := if s.refcount = 1 then s.deletions + 1 else s.deletions
    stale := s.stale || 0 < s.deletions }

/-- `proceed` is a step of the sender, in which `co_post_to` may throw; `consume` one of a receiver. -/
inductive Action where
  | proceed (throws : Bool)
  | consume (holder : Nat)
  deriving DecidableEq, Repr

def step (cores source : Nat) (s : State) : Action → Option State
  | .proceed throws =>
    match s.sender with
    | .sending core =>
      if cores ≤ core then some { s with sender := .ended }
      else if core = source then some { s with sender := .sending (core + 1) }
      else if throws then some { s with sender := .releasing (cores - 1 - s.delivered) }
      else some { s with
        sender := .sending (core + 1), delivered := s.delivered + 1, holders := s.holders ++ [core] }
    | .releasing 0 => some { s with sender := .ended }
    | .releasing (left + 1) => some { s.release with sender := .releasing left }
    | .ended => none
  | .consume holder =>
    if holder < s.holders.length then some { s.release with holders := s.holders.eraseIdx holder } else none

/-- Nobody has the payload when it is deleted, nobody touches it after that, and in the end it is. -/
structure FreedOnce (s : State) : Prop where
  once : s.deletions ≤ 1
  unheld : 0 < s.deletions → s.holders = []
  fresh : s.stale = false
  freed : s.sender = .ended → s.holders = [] → s.deletions = 1

/-- The references that the sender still has to hand out or to release. -/
def owed (cores : Nat) (s : State) : Nat :=
  match s.sender with
  | .sending _ => cores - 1 - s.delivered
  | .releasing left => left
  | .ended => 0

structure Counted (cores source : Nat) (s : State) : Prop where
  count : s.refcount = s.holders.length + owed cores s
  deleted : s.deletions = if s.refcount = 0 then 1 else 0
  fresh : s.stale = false
  passed : ∀ core, s.sender = .sending core →
    core ≤ cores ∧ s.delivered = if source < core then core - 1 else core

theorem Counted.release (counted : Counted cores source s) (held : 0 < s.refcount) :
    s.release.deletions = (if s.release.refcount = 0 then 1 else 0) ∧ s.release.stale = false := by
  have none : s.deletions = 0 := by rw [counted.deleted,if_neg (by omega)]
  simp only [State.release,none,counted.fresh]
  exact ⟨by split <;> split <;> omega,rfl⟩

theorem counted_step (inside : source < cores) (counted : Counted cores source s)
    (stepped : step cores source s action = some next) : Counted cores source next := by
  obtain ⟨count,deleted,fresh,passed⟩ := counted
  cases action with
  | proceed throws =>
    simp only [step] at stepped
    split at stepped
    · rename_i core sending
      obtain ⟨within,given⟩ := passed core sending
      simp only [owed,sending] at count
      split at given <;> repeat' split at stepped
      all_goals
        cases stepped
        refine ⟨by simp [owed]; omega,deleted,fresh,fun other same => ?_⟩
        first | cases same; exact ⟨by omega,by dsimp only; split <;> omega⟩ | cases same
    · rename_i releasing
      cases stepped
      exact ⟨by simpa [owed,releasing] using count,deleted,fresh,nofun⟩
    · rename_i left releasing
      cases stepped
      simp only [owed,releasing] at count
      obtain ⟨deleted,fresh⟩ := Counted.release ⟨by simpa [owed,releasing] using count,deleted,fresh,passed⟩ (by omega)
      exact ⟨by simp only [State.release,owed]; omega,deleted,fresh,nofun⟩
    · cases stepped
  | consume holder =>
    obtain ⟨there,rfl⟩ := of_guard stepped
    obtain ⟨deleted,fresh⟩ := Counted.release ⟨count,deleted,fresh,passed⟩ (by omega)
    refine ⟨?_,deleted,fresh,passed⟩
    have fewer := List.length_eraseIdx_of_lt there
    simp only [State.release,owed] at count ⊢
    omega

theorem Counted.freedOnce (counted : Counted cores source s) : FreedOnce s := by
  obtain ⟨count,deleted,fresh,_⟩ := counted
  refine ⟨by split at deleted <;> omega,fun gone => ?_,fresh,fun ended empty => ?_⟩
  · have zero : s.refcount = 0 := by split at deleted <;> omega
    exact List.length_eq_zero_iff.mp (by omega)
  · rw [deleted,if_pos (by simp [count,owed,ended,empty])]

/-- For every number of cores, every post that throws and every order of the releases. -/
theorem payload_freed_once (cores source : Nat) (several : 2 ≤ cores) (inside : source < cores) (schedule : List Action) :
    Throughout (step cores source) FreedOnce { refcount := cores - 1 } schedule := by
  refine (throughout_invariant (step cores source) (fun _ _ _ => counted_step inside) ?_ schedule).imp
    fun _ counted => counted.freedOnce
  exact ⟨by simp [owed],by simp; omega,rfl,fun core same => by cases same; simp⟩

/-- The second post throws, and the receiver of the first is the last to release. -/
theorem payload_freed_once_throwing :
    run (step 3 0) { refcount := 2 } [.proceed false,.proceed false,.proceed true,.proceed false,.proceed false,.consume 0] =
        some ⟨0,.ended,1,[],1,false⟩ ∧
      Throughout (step 3 0) FreedOnce { refcount := 2 }
        [.proceed false,.proceed false,.proceed true,.proceed false,.proceed false,.consume 0] :=
  ⟨by decide,payload_freed_once 3 0 (by decide) (by decide) _⟩

end ApexPipeline.SharedPayload
