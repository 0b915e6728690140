import PingWatch.Text.Pieces

/-!
# Where texts are cut

`cutFirst` cuts at the first separator: what stands before it holds none (`cutFirst_append_cons`,
`cutFirst_eq_some_iff`).  A text without separators is one piece (`pieces_eq_singleton`).
-/

namespace PingWatch.Text

variable {sep : Char → Bool}

theorem cutFirst_append_cons {as : List Char} {s : Char} (free : ∀ a ∈ as, sep a = false)
    (hs : sep s = true) (bs : List Char) : cutFirst sep (as ++ s :: bs) = some (as, bs) := by
  induction as with
  | nil => simp [cutFirst, hs]
  | cons a as ih =>
    rw [List.forall_mem_cons] at free
    simp [cutFirst, free.1, ih free.2]

theorem cutFirst_eq_none_iff {cs : List Char} :
    cutFirst sep cs = none ↔ ∀ c ∈ cs, sep c = false := by
  induction cs with
  | nil => simp [cutFirst]
  | cons c cs ih =>
    rw [List.forall_mem_cons, cutFirst]
    cases sep c with
    | true => simp
    | false => simpa using ih

/-- A text that is cut has a separator, and none before it. -/
theorem cutFirst_eq_some_iff {cs as bs : List Char} :
    cutFirst sep cs = some (as, bs) ↔
      ∃ s, sep s = true ∧ cs = as ++ s :: bs ∧ ∀ a ∈ as, sep a = false := by
  constructor
  · intro cut
    induction cs generalizing as with
    | nil => exact absurd cut (by simp [cutFirst])
    | cons c cs ih =>
      rw [cutFirst] at cut
      cases hc : sep c with
      | true =>
        rw [hc, if_pos rfl] at cut
        obtain ⟨rfl, rfl⟩ := Prod.mk.inj (Option.some.inj cut)
        exact ⟨c, hc, rfl, by simp⟩
      | false =>
        rw [hc, if_neg Bool.false_ne_true] at cut
        obtain ⟨⟨as', bs'⟩, rest, same⟩ := Option.map_eq_some_iff.mp cut
        obtain ⟨rfl, rfl⟩ := Prod.mk.inj same
        obtain ⟨s, hs, rfl, free⟩ := ih rest
        exact ⟨s, hs, rfl, List.forall_mem_cons.mpr ⟨hc, free⟩⟩
  · rintro ⟨s, hs, rfl, free⟩
    exact cutFirst_append_cons free hs bs

/-- A text without separators is one piece. -/
theorem pieces_eq_singleton {cs : List Char} (free : ∀ c ∈ cs, sep c = false) :
    pieces sep cs = [cs] := by
  induction cs with
  | nil => rfl
  | cons c cs ih =>
    rw [List.forall_mem_cons] at free
    simp [pieces, free.1, ih free.2]

end PingWatch.Text
