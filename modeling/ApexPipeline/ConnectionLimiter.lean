import Mathlib

/-! The per-IP counters of `connection_limiter.cpp`. Each core has a limiter, and the
hash of an address chooses the one that counts it. -/
namespace ApexPipeline

/-- An address as the bytes of its textual form. -/
abbrev Ip := List UInt8

/-- `counts_`; a missing entry counts zero. -/
structure ConnectionLimiter where
  counts : Ip → Option Nat

namespace ConnectionLimiter

def empty : ConnectionLimiter := ⟨fun _ => none⟩

def put (l : ConnectionLimiter) (ip : Ip) (entry : Option Nat) : ConnectionLimiter :=
  ⟨Function.update l.counts ip entry⟩

def count (l : ConnectionLimiter) (ip : Ip) : Nat := (l.counts ip).getD 0

/-- `try_emplace` comes before the test; an entry made by it is erased on refusal. -/
def tryIncrement (l : ConnectionLimiter) (maxPerIp : Nat) (ip : Ip) : Bool × ConnectionLimiter :=
  if ip = [] then (false,l)
  else
    let inserted := (l.counts ip).isNone
    let current := (l.counts ip).getD 0
    let l := l.put ip (some current)
    if maxPerIp ≤ current then (false,if inserted then l.put ip none else l)
    else (true,l.put ip (some (current + 1)))

def decrement (l : ConnectionLimiter) (ip : Ip) : ConnectionLimiter :=
  match l.counts ip with
  | none => l
  | some 0 => l.put ip none
  | some (c + 1) => if c = 0 then l.put ip none else l.put ip (some c)

/-- FNV-1a over the bytes, reduced to a core; core 0 when there is none. -/
def ownerCore (ip : Ip) (numCores : Nat) : Nat :=
  if numCores = 0 then 0
  else
    let hash := ip.foldl (fun (hash : UInt64) c => (hash ^^^ c.toUInt64) * 1099511628211) 14695981039346656037
    hash.toNat % numCores

theorem ownerCore_lt (ip : Ip) (positive : 0 < numCores) : ownerCore ip numCores < numCores := by
  unfold ownerCore
  rw [if_neg (by omega)]
  exact Nat.mod_lt _ positive

variable (l : ConnectionLimiter)

@[simp] theorem put_count (ip : Ip) (entry : Option Nat) :
    (l.put ip entry).count ip = entry.getD 0 := by
  simp [put,count]

@[simp] theorem put_other (entry : Option Nat)
    (different : other ≠ ip) : (l.put ip entry).count other = l.count other := by
  simp [put,count,different]

theorem tryIncrement_count (taken : l.tryIncrement maxPerIp ip = (granted,next)) :
    next.count ip = l.count ip + granted.toNat ∧ (granted = true → l.count ip < maxPerIp) ∧
      ∀ other, other ≠ ip → next.count other = l.count other := by
  unfold tryIncrement at taken
  split at taken
  · cases taken
    simp
  simp only at taken
  split at taken
  · rename_i full
    cases taken
    refine ⟨?_,by simp,fun other different => ?_⟩
    · cases entry : l.counts ip <;> simp [count,put,entry]
    · cases entry : l.counts ip <;> simp [different]
  · rename_i room
    cases taken
    refine ⟨by simp [count,put],fun _ => by simpa [count] using room,fun other different => ?_⟩
    simp [different]

theorem decrement_count (ip : Ip) : (l.decrement ip).count ip = l.count ip - 1 ∧
      ∀ other, other ≠ ip → (l.decrement ip).count other = l.count other := by
  unfold decrement
  cases entry : l.counts ip with
  | none => simp [count,entry]
  | some c =>
    cases c with
    | zero => exact ⟨by simp [count,put,entry],fun other different => by simp [different]⟩
    | succ c =>
      by_cases last : c = 0
      · subst last
        exact ⟨by simp [count,put,entry],fun other different => by simp [different]⟩
      simp only [last,if_false]
      refine ⟨?_,fun other different => by simp [different]⟩
      rw [put_count]
      simp [count,entry]

end ConnectionLimiter
end ApexPipeline
