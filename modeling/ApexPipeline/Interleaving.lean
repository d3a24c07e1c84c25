import ApexPipeline.Coroutine

/-! Programs that run over a shared state, one command at a time and in any order. Each has a part of its own; a
command may depend on what the others have. The rule for such a crew: what a program knows is brought forward by its
own commands and is stable under those of the others. -/
namespace ApexPipeline

structure Crew (S J C : Type) (Reply : C → Type) (A : Type) where
  shared : S
  jobs : List (J × Coroutine C Reply A) := []

namespace Crew
open Coroutine
variable {S J C A K : Type} {Reply : C → Type}

def start (crew : Crew S J C Reply A) (own : J) (program : Coroutine C Reply A) : Crew S J C Reply A :=
  { crew with jobs := crew.jobs ++ [(own,program)] }

def others (crew : Crew S J C Reply A) (index : Nat) : List J := (crew.jobs.eraseIdx index).map Prod.fst

/-- The next command of a program is carried out, unless it has to wait. -/
def resume (perform : S → List J → J → (command : C) → Option (Reply command × S × J)) (crew : Crew S J C Reply A)
    (index : Nat) : Option (Crew S J C Reply A) :=
  match crew.jobs[index]? with
  | some (own,.await command next) =>
    (perform crew.shared (crew.others index) own command).map fun outcome =>
      ⟨outcome.2.1,crew.jobs.set index (outcome.2.2,next outcome.1)⟩
  | _ => none

section Tracked
variable {permit : K → C → Prop} {learn : K → (command : C) → Reply command → K → Prop}
  {perform : S → List J → J → (command : C) → Option (Reply command × S × J)} {holds later : J → K → Prop}
  {crew next : Crew S J C Reply A}

/-- The program knows something that holds and that carries it to its end. -/
def Tracked (permit : K → C → Prop) (learn : K → (command : C) → Reply command → K → Prop) (holds : J → K → Prop)
    (job : J × Coroutine C Reply A) : Prop :=
  ∃ known, holds job.1 known ∧ job.2.Tracks permit learn (fun _ _ => True) known

theorem Tracked.mono (tracked : Tracked permit learn holds job)
    (stable : ∀ known, holds job.1 known → later job.1 known) : Tracked permit learn later job := by
  obtain ⟨known,held,tracks⟩ := tracked
  exact ⟨known,stable known held,tracks⟩

/-- What a step of a program consists of. -/
inductive Resumed (permit : K → C → Prop) (learn : K → (command : C) → Reply command → K → Prop) (holds : J → K → Prop)
    (perform : S → List J → J → (command : C) → Option (Reply command × S × J)) (crew : Crew S J C Reply A) (index : Nat)
    (next : Crew S J C Reply A) : Prop
  | intro (own own' : J) (command : C) (resume : Reply command → Coroutine C Reply A) (reply : Reply command) (known : K)
      (there : crew.jobs[index]? = some (own,.await command resume))
      (before : crew.jobs.Perm ((own,.await command resume) :: crew.jobs.eraseIdx index))
      (after : next.jobs.Perm ((own',resume reply) :: crew.jobs.eraseIdx index))
      (held : holds own known) (permitted : permit known command)
      (performed : perform crew.shared (crew.others index) own command = some (reply,next.shared,own'))
      (follows : ∀ then', learn known command reply then' → (resume reply).Tracks permit learn (fun _ _ => True) then')

variable (tracked : ∀ job ∈ crew.jobs, Tracked permit learn holds job)
include tracked

theorem tracked_start (new : Tracked permit learn holds (own,program)) :
    ∀ job ∈ (crew.start own program).jobs, Tracked permit learn holds job := by
  intro job member
  rcases List.mem_append.mp member with before | last
  · exact tracked job before
  · cases List.mem_singleton.mp last
    exact new

theorem tracked_resumed
    (steps : crew.resume perform index = some next) : Resumed permit learn holds perform crew index next := by
  rw [resume] at steps
  split at steps
  · next own command resume there =>
    obtain ⟨⟨reply,shared,own'⟩,performed,rfl⟩ := Option.map_eq_some_iff.mp steps
    obtain ⟨inside,same⟩ := List.getElem?_eq_some_iff.mp there
    have before := (List.getElem_cons_eraseIdx_perm inside).symm
    rw [same] at before
    obtain ⟨known,held,permitted,follows⟩ := tracked _ (List.mem_of_getElem? there)
    exact ⟨own,own',command,resume,reply,known,there,before,List.set_perm_cons_eraseIdx inside _,held,permitted,
      performed,follows reply⟩
  · cases steps

/-- After a step: `new` is about the program that has taken it, `rely` about the others. -/
theorem tracked_next
    (after : next.jobs.Perm (job :: crew.jobs.eraseIdx index)) (new : Tracked permit learn later job)
    (rely : ∀ other ∈ crew.jobs.eraseIdx index, Tracked permit learn holds other → Tracked permit learn later other) :
    ∀ job ∈ next.jobs, Tracked permit learn later job := by
  intro other member
  rcases List.mem_cons.mp (after.mem_iff.mp member) with rfl | old
  · exact new
  · exact rely other old (tracked other (List.mem_of_mem_eraseIdx old))

end Tracked
end Crew
end ApexPipeline
