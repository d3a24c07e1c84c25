import Mathlib

/-! Incremental parsing of a stream that arrives in pieces. A parser is given by what it sees at the front of its
input; once it has decided, more input must not change its mind. That alone makes parsing independent of how the
stream was cut. -/
namespace ApexPipeline.StreamParser

inductive Head (β α ε : Type) where
  | item (value : α) (rest : List β)
  | incomplete
  | stop (reason : ε)

structure Parser (β α ε : Type) where
  head : List β → Head β α ε
  shrinks : head input = .item value rest → rest.length < input.length
  itemStable : head input = .item value rest → head (input ++ more) = .item value (rest ++ more)
  stopStable : head input = .stop reason → head (input ++ more) = .stop reason

/-- The items of a whole input, what ended them and the input that is left;
`ending` is `none` when only more input can tell how the rest goes on. -/
structure Parsed (β α ε : Type) where
  items : List α
  ending : Option ε
  pending : List β

def Parsed.after (items : List α) (later : Parsed β α ε) : Parsed β α ε :=
  ⟨items ++ later.items,later.ending,later.pending⟩

variable {β α ε : Type} (p : Parser β α ε)

def Parser.parse (input : List β) : Parsed β α ε :=
  match _seen : p.head input with
  | .item value rest => Parsed.after [value] (parse rest)
  | .incomplete => ⟨[],none,input⟩
  | .stop reason => ⟨[],some reason,input⟩
termination_by input.length
decreasing_by exact p.shrinks _seen

theorem Parser.parse_item (seen : p.head input = .item value rest) :
    p.parse input = Parsed.after [value] (p.parse rest) := by
  rw [Parser.parse]
  split
  · rename_i found
    rw [seen] at found
    cases found
    rfl
  all_goals
    rename_i found
    rw [seen] at found
    contradiction

theorem Parser.parse_incomplete (seen : p.head input = .incomplete) : p.parse input = ⟨[],none,input⟩ := by
  rw [Parser.parse]
  split
  · rename_i found
    rw [seen] at found
    contradiction
  · rfl
  · rename_i found
    rw [seen] at found
    contradiction

theorem Parser.parse_stop (seen : p.head input = .stop reason) : p.parse input = ⟨[],some reason,input⟩ := by
  rw [Parser.parse]
  split
  · rename_i found
    rw [seen] at found
    contradiction
  · rename_i found
    rw [seen] at found
    contradiction
  rename_i found
  rw [seen] at found
  cases found
  rfl

variable (input more : List β)

theorem Parser.parse_append : p.parse (input ++ more) =
      Parsed.after (p.parse input).items (p.parse ((p.parse input).pending ++ more)) := by
  induction size : input.length using Nat.strongRecOn generalizing input with
  | ind n ih =>
    cases seen : p.head input with
    | item value rest =>
      have smaller := p.shrinks seen
      rw [p.parse_item seen,p.parse_item (p.itemStable seen),ih rest.length (by omega) rest rfl]
      simp [Parsed.after]
    | incomplete => simp [p.parse_incomplete seen,Parsed.after]
    | stop reason => simp [p.parse_stop seen,Parsed.after]

/-- What is left over begins with no item; its head says why parsing ended. -/
theorem Parser.head_pending (input : List β) : p.head (p.parse input).pending =
      match (p.parse input).ending with
      | none => .incomplete
      | some reason => .stop reason := by
  induction size : input.length using Nat.strongRecOn generalizing input with
  | ind n ih =>
    cases seen : p.head input with
    | item value rest =>
      have smaller := p.shrinks seen
      rw [p.parse_item seen]
      exact ih rest.length (by omega) rest rfl
    | incomplete => simp [p.parse_incomplete seen,seen]
    | stop reason => simp [p.parse_stop seen,seen]

theorem Parser.items_stopped (stopped : (p.parse input).ending = some reason) :
    (p.parse (input ++ more)).items = (p.parse input).items := by
  have seen := p.head_pending input
  rw [stopped] at seen
  rw [p.parse_append,p.parse_stop (p.stopStable seen)]
  simp [Parsed.after]

end ApexPipeline.StreamParser
