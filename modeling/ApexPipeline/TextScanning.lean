import Mathlib

/-! Texts as lists of characters, scanned as Go's `strings` and `path/filepath` do it. -/
namespace ApexPipeline.TextScanning
open List

/-- The first one of `strings.Fields`, for what counts as a space. -/
def firstField (space : Char → Bool) (text : List Char) : List Char := (text.dropWhile space).takeWhile fun c => !space c

/-- What stands between the first opening and the first closing bracket of the text, if they come in this order. -/
def bracketed (text : List Char) : List Char :=
  let start := text.idxOf '['
  let stop := text.idxOf ']'
  if stop < text.length ∧ start < stop then (text.drop (start + 1)).take (stop - start - 1) else []

/-- `strings.TrimLeft`. -/
def trimLeft (cutset : List Char) (text : List Char) : List Char := text.dropWhile fun c => c ∈ cutset

/-- `strings.CutPrefix`. -/
def cut (start text : String) : Option String :=
  if start.toList.isPrefixOf text.toList then some (String.ofList (text.toList.drop start.toList.length)) else none

/-- The components of an absolute path, as `filepath.Clean` leaves them where no `..` occurs. -/
def components (text : List Char) : List String :=
  ((text.splitOn '/').filter fun part => part ≠ [] ∧ part ≠ ['.']).map String.ofList

def lastPart (text : List Char) : List Char := (text.reverse.takeWhile fun c => c ≠ '/').reverse

/-- The text of `filepath.Rel` for two clean absolute paths starts with two dots if the second one is not inside of
the first, and also if it is and its next component starts with two dots. -/
def isSubPath (child parent : List String) : Bool :=
  if parent <+: child then
    match child.drop parent.length with
    | [] => true
    | next :: _ => !(['.','.'].isPrefixOf next.toList)
  else false

theorem isSubPath_iff (plain : ∀ name ∈ child, (['.','.'].isPrefixOf name.toList) = false) :
    isSubPath child parent = true ↔ parent <+: child := by
  unfold isSubPath
  split
  · rename_i inside
    refine iff_of_true ?_ inside
    split
    · rfl
    · rename_i next rest remaining
      have member : next ∈ child := mem_of_mem_drop (remaining ▸ mem_cons_self)
      simp [plain next member]
  · rename_i outside
    simp [outside]

end ApexPipeline.TextScanning
