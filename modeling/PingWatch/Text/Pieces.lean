import PingWatch.Text.Blank

/-!
# Cutting texts into pieces

`pieces sep` cuts a text at every separator, `cutFirst sep` only at the first.  `entries` cuts,
trims the pieces and drops the empty ones.
-/

namespace PingWatch.Text

/-- The pieces of a text between its separators; there is always at least one. -/
def pieces (sep : Char → Bool) : List Char → List (List Char)
  | [] => [[]]
  | c :: cs =>
    if sep c then [] :: pieces sep cs
    else
      match pieces sep cs with
      | [] => [[c]]
      | p :: ps => (c :: p) :: ps

/-- The texts before and after the first separator, if there is one. -/
def cutFirst (sep : Char → Bool) : List Char → Option (List Char × List Char)
  | [] => none
  | c :: cs =>
    if sep c then some ([], cs)
    else (cutFirst sep cs).map fun (a, b) => (c :: a, b)

/-- The trimmed pieces of a text that are not empty. -/
def entries (sep : Char → Bool) (cs : List Char) : List (List Char) :=
  ((pieces sep cs).map trim).filter (· ≠ [])

/-- Removes `ending` from the end of a text, if it is there. -/
def dropEnding (ending cs : List Char) : Option (List Char) :=
  if ending.length ≤ cs.length ∧ cs.drop (cs.length - ending.length) = ending then
    some (cs.take (cs.length - ending.length))
  else none

/-! ### Lemmas -/

@[simp] theorem pieces_nil (sep : Char → Bool) : pieces sep [] = [[]] := rfl

theorem pieces_ne_nil (sep : Char → Bool) (cs : List Char) : pieces sep cs ≠ [] := by
  cases cs with
  | nil => simp
  | cons c cs =>
    unfold pieces
    split
    · simp
    · split <;> simp

/-- A separator between two texts separates their pieces. -/
theorem pieces_append_sep {sep : Char → Bool} {s : Char} (hs : sep s = true)
    (as bs : List Char) : pieces sep (as ++ s :: bs) = pieces sep as ++ pieces sep bs := by
  induction as with
  | nil => simp [pieces, hs]
  | cons a as ih =>
    simp only [List.cons_append, pieces, ih]
    split
    · rfl
    · cases h : pieces sep as with
      | nil => exact absurd h (pieces_ne_nil sep as)
      | cons p ps => rfl

/-- A separator between two texts separates their entries. -/
theorem entries_append_sep {sep : Char → Bool} {s : Char} (hs : sep s = true)
    (as bs : List Char) : entries sep (as ++ s :: bs) = entries sep as ++ entries sep bs := by
  simp [entries, pieces_append_sep hs]

end PingWatch.Text
