import Mathlib

/-! Finite runs of a partial step function. An action that is not enabled ends the run with `none`. Guards speak
about the state before a step, so a guarded run is a statement about inputs and not about results. -/
namespace ApexPipeline.Execution

/-- The state after a schedule, when every action of it was enabled in turn. -/
def run (step : S → A → Option S) : S → List A → Option S
  | s, [] => some s
  | s, a :: rest => (step s a).bind fun next => run step next rest

/-- `guard` holds of the state before every step that the schedule takes. -/
def Along (step : S → A → Option S) (guard : S → A → Prop) : S → List A → Prop
  | _, [] => True
  | s, a :: rest => guard s a ∧ ∀ next, step s a = some next → Along step guard next rest

instance Along.decidable (step : S → A → Option S) (guard : S → A → Prop)
    [∀ s a, Decidable (guard s a)] : ∀ s schedule, Decidable (Along step guard s schedule)
  | _, [] => isTrue trivial
  | s, a :: rest =>
    match seen : step s a with
    | none => decidable_of_iff (guard s a) (by simp [Along,seen])
    | some next =>
      have := Along.decidable step guard next rest
      decidable_of_iff (guard s a ∧ Along step guard next rest) (by simp [Along,seen])

theorem Along.and {guard other : S → A → Prop} (first : Along step guard s schedule) (second : Along step other s schedule) :
    Along step (fun s a => guard s a ∧ other s a) s schedule := by
  induction schedule generalizing s with
  | nil => trivial
  | cons a rest ih =>
    exact ⟨⟨first.1,second.1⟩,fun next enabled => ih (first.2 next enabled) (second.2 next enabled)⟩

theorem Along.imp {guard other : S → A → Prop} (guarded : Along step guard s schedule)
    (weaker : ∀ s a, guard s a → other s a) : Along step other s schedule := by
  induction schedule generalizing s with
  | nil => trivial
  | cons a rest ih => exact ⟨weaker s a guarded.1,fun next enabled => ih (guarded.2 next enabled)⟩

theorem Along.of_forall {guard : S → A → Prop} (always : ∀ s, ∀ a ∈ schedule, guard s a) :
    Along step guard s schedule := by
  induction schedule generalizing s with
  | nil => trivial
  | cons a rest ih =>
    exact ⟨always s a List.mem_cons_self,fun next _ => ih fun s a member => always s a (List.mem_cons_of_mem _ member)⟩

/-- `property` holds of every state the schedule visits, the first one included. -/
def Throughout (step : S → A → Option S) (property : S → Prop) : S → List A → Prop
  | s, [] => property s
  | s, a :: rest => property s ∧ ∀ next, step s a = some next → Throughout step property next rest

theorem run_cons : run step s (a :: rest) = some final ↔
    ∃ next, step s a = some next ∧ run step next rest = some final := by
  simp [run,Option.bind_eq_some_iff]

theorem of_guard [Decidable p] (taken : (if p then some a else none) = some b) : p ∧ a = b := by
  split at taken
  · rename_i holds
    exact ⟨holds,Option.some.inj taken⟩
  · cases taken

theorem of_unless [Decidable p] (taken : (if p then none else some a) = some b) : ¬p ∧ a = b := by
  split at taken
  · cases taken
  · rename_i fails
    exact ⟨fails,Option.some.inj taken⟩

theorem of_unless_map [Decidable p] {found : Option A} {f : A → B}
    (taken : (if p then none else found.map f) = some b) : ¬p ∧ ∃ a, found = some a ∧ f a = b := by
  split at taken
  · cases taken
  · rename_i fails
    exact ⟨fails,Option.map_eq_some_iff.mp taken⟩

theorem mem_concat {items : List A} (member : a ∈ items ++ [b]) : a ∈ items ∨ a = b :=
  (List.mem_append.mp member).imp_right List.mem_singleton.mp

theorem forall_concat {items : List A} {property : A → Prop} (old : ∀ a ∈ items, property a) (new : property b) :
    ∀ a ∈ items ++ [b], property a := by
  intro a member
  rcases mem_concat member with earlier | rfl
  · exact old a earlier
  · exact new

/-- What a finished run on a fixed input has come to can be computed. -/
instance runDecidable (outcome : Option S) (property : S → Prop) [DecidablePred property] :
    Decidable (∃ final, outcome = some final ∧ property final) :=
  decidable_of_iff (outcome.any fun s => decide (property s)) (by simp [Option.any_eq_true])

theorem exists_final {outcome : Option S} {property : S → Prop} (ended : outcome.isSome = true)
    (holds : outcome = some (outcome.get ended) → property (outcome.get ended)) :
    ∃ final, outcome = some final ∧ property final :=
  have runs := (Option.some_get ended).symm
  ⟨outcome.get ended,runs,holds runs⟩

theorem run_append (step : S → A → Option S) (s : S) (first second : List A) :
    run step s (first ++ second) = (run step s first).bind fun middle => run step middle second := by
  induction first generalizing s with
  | nil => rfl
  | cons a rest ih =>
    cases h : step s a with
    | none => simp [run,h]
    | some next => simpa [run,h] using ih next

/-- The induction over a run, done once: one step under the guard is enough. -/
theorem run_guarded (step : S → A → Option S) (guard : S → A → Prop) (property : S → Prop)
    (preserved : ∀ s a next, property s → guard s a → step s a = some next → property next)
    (initial : property s) (guarded : Along step guard s schedule)
    (runs : run step s schedule = some final) : property final := by
  induction schedule generalizing s with
  | nil =>
    cases runs
    exact initial
  | cons a rest ih =>
    obtain ⟨next,enabled,later⟩ := run_cons.mp runs
    exact ih (preserved s a next initial guarded.1 enabled) (guarded.2 next enabled) later

theorem run_invariant (property : S → Prop)
    (preserved : ∀ s a next, property s → step s a = some next → property next)
    (initial : property s) (runs : run step s schedule = some final) : property final :=
  run_guarded step _ property (fun s a next held _ => preserved s a next held) initial
    (Along.of_forall fun _ _ _ => trivial) runs

theorem Throughout.imp {property other : S → Prop} (held : Throughout step property s schedule)
    (weaker : ∀ s, property s → other s) : Throughout step other s schedule := by
  induction schedule generalizing s with
  | nil => exact weaker s held
  | cons a rest ih => exact ⟨weaker s held.1,fun next enabled => ih (held.2 next enabled)⟩

theorem Throughout.along (held : Throughout step property s schedule) :
    Along step (fun s _ => property s) s schedule := by
  induction schedule generalizing s with
  | nil => trivial
  | cons a rest ih => exact ⟨held.1,fun next enabled => ih (held.2 next enabled)⟩

theorem throughout_guarded {step : S → A → Option S} {guard : S → A → Prop} (property : S → Prop)
    (preserved : ∀ s a next, property s → guard s a → step s a = some next → property next)
    (initial : property s) (guarded : Along step guard s schedule) : Throughout step property s schedule := by
  induction schedule generalizing s with
  | nil => exact initial
  | cons a rest ih =>
    exact ⟨initial,fun next enabled => ih (preserved s a next initial guarded.1 enabled) (guarded.2 next enabled)⟩

theorem throughout_invariant (step : S → A → Option S)
    (preserved : ∀ s a next, property s → step s a = some next → property next)
    (initial : property s) (schedule : List A) : Throughout step property s schedule :=
  throughout_guarded property (fun s a next held _ => preserved s a next held) initial
    (Along.of_forall fun _ _ _ => trivial)

theorem along_invariant (step : S → A → Option S) (property : S → Prop)
    (preserved : ∀ s a next, property s → step s a = some next → property next)
    (initial : property s) (schedule : List A) : Along step (fun s _ => property s) s schedule :=
  (throughout_invariant step preserved initial schedule).along

/-- When a step keeps the property exactly under the guard, so does a whole run. -/
theorem throughout_iff (guard fair : S → A → Prop) (property : S → Prop)
    (exact : ∀ s a next, property s → fair s a → step s a = some next → (property next ↔ guard s a))
    (initial : property s) (fairly : Along step fair s schedule)
    (runs : run step s schedule = some final) :
    Throughout step property s schedule ↔ Along step guard s schedule := by
  induction schedule generalizing s with
  | nil => exact ⟨fun _ => trivial,fun _ => initial⟩
  | cons a rest ih =>
    obtain ⟨next,enabled,later⟩ := run_cons.mp runs
    have here := exact s a next initial fairly.1 enabled
    have only : ∀ other, step s a = some other → other = next := by
      intro other also
      exact Option.some_inj.mp (also.symm.trans enabled)
    constructor
    · intro held
      have kept : property next := by
        have tail := held.2 next enabled
        cases rest with
        | nil => exact tail
        | cons _ _ => exact tail.1
      refine ⟨here.mp kept,fun other also => ?_⟩
      cases only other also
      exact (ih kept (fairly.2 next enabled) later).mp (held.2 next enabled)
    · intro guarded
      refine ⟨initial,fun other also => ?_⟩
      cases only other also
      exact (ih (here.mpr guarded.1) (fairly.2 next enabled) later).mpr (guarded.2 next enabled)

theorem mapM_related (f : A → Option B) (before : List A) (after : List B) (mapped : before.mapM f = some after) :
    List.Forall₂ (fun a b => f a = some b) before after := by
  induction before generalizing after with
  | nil =>
    cases mapped
    exact .nil
  | cons a rest ih =>
    rw [List.mapM_cons] at mapped
    obtain ⟨b,head,mapped⟩ := Option.bind_eq_some_iff.mp mapped
    obtain ⟨tail,later,same⟩ := Option.bind_eq_some_iff.mp mapped
    cases same
    exact .cons head (ih tail later)

theorem related_mem_right (related : List.Forall₂ R before after) (member : b ∈ after) : ∃ a ∈ before, R a b := by
  induction related with
  | nil => cases member
  | cons head _ ih =>
    rcases List.mem_cons.mp member with rfl | later
    · exact ⟨_,List.mem_cons_self,head⟩
    · obtain ⟨a,earlier,related⟩ := ih later
      exact ⟨a,List.mem_cons_of_mem _ earlier,related⟩

theorem prefix_next {items all : List A} (held : items <+: all)
    (next : all[items.length]? = some item) : items ++ [item] <+: all := by
  obtain ⟨rest,rfl⟩ := held
  rw [List.getElem?_append_right (Nat.le_refl _),Nat.sub_self] at next
  cases rest with
  | nil => cases next
  | cons first rest =>
    cases next
    exact ⟨rest,by simp⟩

end ApexPipeline.Execution
