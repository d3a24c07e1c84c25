import Mathlib

/-! Coroutines: programs that stop at a command and go on with the reply to it. A run is driven by
its environment, which answers one command after the other as it likes. -/
namespace ApexPipeline

inductive Coroutine (C : Type) (Reply : C → Type) (A : Type) where
  | done (value : A)
  | await (command : C) (resume : Reply command → Coroutine C Reply A)

namespace Coroutine
variable {C A B S : Type} {Reply : C → Type}

def bind : Coroutine C Reply A → (A → Coroutine C Reply B) → Coroutine C Reply B
  | .done value, next => next value
  | .await command resume, next => .await command fun reply => (resume reply).bind next

instance : Monad (Coroutine C Reply) where
  pure := done
  bind := bind

def call (command : C) : Coroutine C Reply (Reply command) := .await command .done

/-- The commands that are given while the environment answers in this way; the last one may be
without an answer. -/
def commands : Coroutine C Reply A → List ((command : C) → Reply command) → List C
  | .done _, _ => []
  | .await command _, [] => [command]
  | .await command resume, answer :: rest => command :: (resume (answer command)).commands rest

def run (handle : S → (command : C) → Reply command × S) : Coroutine C Reply A → S → A × S
  | .done value, s => (value,s)
  | .await command resume, s => (resume (handle s command).1).run handle (handle s command).2

section
variable (handle : S → (command : C) → Reply command × S)

@[simp] theorem run_pure (value : A) (s : S) :
    (pure value : Coroutine C Reply A).run handle s = (value,s) := rfl

@[simp] theorem run_call (command : C) (s : S) :
    (call command : Coroutine C Reply (Reply command)).run handle s = handle s command := rfl

@[simp] theorem run_bind (first : Coroutine C Reply A)
    (next : A → Coroutine C Reply B) (s : S) :
    (first >>= next).run handle s = (next (first.run handle s).1).run handle (first.run handle s).2 := by
  induction first generalizing s with
  | done value => rfl
  | await command resume ih => exact ih (handle s command).1 (handle s command).2

end

/-- Every command that may be given has the property, whatever the replies are. -/
def Always (property : C → Prop) : Coroutine C Reply A → Prop
  | .done _ => True
  | .await command resume => property command ∧ ∀ reply, (resume reply).Always property

variable {property : C → Prop}

theorem Always.call {command : C} {next : Reply command → Coroutine C Reply B}
    (here : property command) (later : ∀ reply, (next reply).Always property) :
    (Coroutine.call command >>= next).Always property := ⟨here,later⟩

theorem Always.bind {first : Coroutine C Reply A}
    {next : A → Coroutine C Reply B} (before : first.Always property)
    (after : ∀ value, (next value).Always property) : (first >>= next).Always property := by
  induction first with
  | done value => exact after value
  | await command resume ih => exact ⟨before.1,fun reply => ih reply (before.2 reply)⟩

theorem Always.ite {condition : Prop} [Decidable condition]
    {first second : Coroutine C Reply A} (whenTrue : first.Always property)
    (whenFalse : second.Always property) : (if condition then first else second).Always property := by
  split
  · exact whenTrue
  · exact whenFalse

theorem Always.intro (holds : ∀ command, property command)
    (program : Coroutine C Reply A) : program.Always property := by
  induction program with
  | done value => trivial
  | await command resume ih => exact ⟨holds command,ih⟩

section
variable {program : Coroutine C Reply A} (always : program.Always property)
include always

/-- What every command that may be given keeps, the whole program keeps. -/
theorem Always.run_keeps (handle : S → (command : C) → Reply command × S) (invariant : S → Prop)
    (kept : ∀ s command, property command → invariant s → invariant (handle s command).2) (s : S)
    (before : invariant s) : invariant (program.run handle s).2 := by
  induction program generalizing s with
  | done value => exact before
  | await command resume ih => exact ih _ (always.2 _) _ (kept s command always.1 before)

theorem Always.commands (answers : List ((command : C) → Reply command)) :
    ∀ command ∈ program.commands answers, property command := by
  induction program generalizing answers with
  | done value =>
    intro command member
    cases member
  | await first resume ih =>
    intro command member
    cases answers with
    | nil =>
      cases List.mem_singleton.mp member
      exact always.1
    | cons answer rest =>
      rcases List.mem_cons.mp member with rfl | later
      · exact always.1
      · exact ih (answer first) (always.2 (answer first)) rest command later

end

/-- The same where the environment keeps to the replies that are allowed. -/
def AlwaysUnder (allows : (command : C) → Reply command → Prop) (property : C → Prop) : Coroutine C Reply A → Prop
  | .done _ => True
  | .await command resume => property command ∧
      ∀ reply, allows command reply → (resume reply).AlwaysUnder allows property

theorem AlwaysUnder.call {allows : (command : C) → Reply command → Prop}
    {command : C} {next : Reply command → Coroutine C Reply B} (here : property command)
    (later : ∀ reply, allows command reply → (next reply).AlwaysUnder allows property) :
    (Coroutine.call command >>= next).AlwaysUnder allows property := ⟨here,later⟩

/-- The program up to the next command that is not answered at once, or to its end. -/
def drive (handle : S → (command : C) → Option (Reply command × S)) :
    Coroutine C Reply A → S → Coroutine C Reply A × S
  | .done value, s => (.done value,s)
  | .await command resume, s =>
    match handle s command with
    | some (reply,next) => (resume reply).drive handle next
    | none => (.await command resume,s)

theorem drive_await (handle : S → (command : C) → Option (Reply command × S)) (program : Coroutine C Reply A)
    (s : S) (waits : program.drive handle s = (.await command resume,t)) : handle t command = none := by
  induction program generalizing s with
  | done value => cases waits
  | await first next ih =>
    cases answered : handle s first with
    | none =>
      simp only [drive,answered] at waits
      cases waits
      exact answered
    | some outcome =>
      simp only [drive,answered] at waits
      exact ih outcome.1 outcome.2 waits

section Tracks
variable {K : Type} {permit : K → C → Prop} {learn : K → (command : C) → Reply command → K → Prop}

/-- What the program knows permits every command that it gives and, with the reply to it, becomes what
it knows next; `post` holds at its end. -/
def Tracks (permit : K → C → Prop) (learn : K → (command : C) → Reply command → K → Prop)
    (post : K → A → Prop) : K → Coroutine C Reply A → Prop
  | known, .done value => post known value
  | known, .await command resume => permit known command ∧
      ∀ reply next, learn known command reply next → (resume reply).Tracks permit learn post next

variable {post : K → A → Prop}

theorem Tracks.call {command : C} {next : Reply command → Coroutine C Reply A} (here : permit known command)
    (later : ∀ reply then', learn known command reply then' → (next reply).Tracks permit learn post then') :
    (Coroutine.call command >>= next).Tracks permit learn post known := ⟨here,later⟩

theorem Tracks.bind {middle : K → A → Prop} {post : K → B → Prop} {first : Coroutine C Reply A}
    {next : A → Coroutine C Reply B} (before : first.Tracks permit learn middle known)
    (after : ∀ then' value, middle then' value → (next value).Tracks permit learn post then') :
    (first >>= next).Tracks permit learn post known := by
  induction first generalizing known with
  | done value => exact after known value before
  | await command resume ih => exact ⟨before.1,fun reply then' learned => ih reply (before.2 reply then' learned)⟩

theorem Tracks.of_always {property : C → Prop} {program : Coroutine C Reply A} (always : program.Always property)
    (permitted : ∀ command, property command → permit known command)
    (unchanged : ∀ command reply next, property command → learn known command reply next → next = known)
    (ends : ∀ value, post known value) : program.Tracks permit learn post known := by
  induction program with
  | done value => exact ends value
  | await command resume ih =>
    refine ⟨permitted command always.1,fun reply next learned => ?_⟩
    rw [unchanged command reply next always.1 learned]
    exact ih reply (always.2 reply)

theorem Tracks.drive {program : Coroutine C Reply A} (tracks : program.Tracks permit learn post known)
    (handle : S → (command : C) → Option (Reply command × S)) (holds : S → K → Prop)
    (handled : ∀ s known command reply next, holds s known → permit known command →
      handle s command = some (reply,next) → ∃ then', learn known command reply then' ∧ holds next then')
    (s : S) (before : holds s known) :
    ∃ then', holds (program.drive handle s).2 then' ∧ (program.drive handle s).1.Tracks permit learn post then' := by
  induction program generalizing s known with
  | done value => exact ⟨known,before,tracks⟩
  | await command resume ih =>
    cases answered : handle s command with
    | none =>
      simp only [Coroutine.drive,answered]
      exact ⟨known,before,tracks⟩
    | some outcome =>
      obtain ⟨reply,next⟩ := outcome
      obtain ⟨then',learned,after⟩ := handled s known command reply next before tracks.1 answered
      simp only [Coroutine.drive,answered]
      exact ih reply (tracks.2 reply then' learned) next after

end Tracks

/-- The environment, with a record of the commands that were given to it and of its replies, the last one first. -/
def recording (handle : S → (command : C) → Reply command × S) (s : S × List (Sigma Reply)) (command : C) :
    Reply command × S × List (Sigma Reply) :=
  ((handle s.1 command).1,(handle s.1 command).2,⟨command,(handle s.1 command).1⟩ :: s.2)

end Coroutine
end ApexPipeline
