import PingWatch.Text.Whole

/-!
# Numerals

A whole number is written with at least one decimal digit, and a plus sign may come before them.  A
number has more than one numeral, as leading zeros do not matter, but no numeral has two values.

* `digit?_eq`: the characters with a value are the ASCII digits.
* `readDigits_eq_ok_iff`: digits are read up to the bound, and nothing else is.
* `readWhole_eq_ok_iff`: so what is read as a whole number are the numerals whose value is not past
  the bound.
-/

namespace PingWatch.Text

/-- The texts that stand for a number. -/
def Numeral (cs : List Char) (n : Nat) : Prop :=
  ∃ ds, (cs = ds ∨ cs = '+' :: ds) ∧ ds ≠ [] ∧ (∀ d ∈ ds, d.isDigit = true) ∧
    n = Nat.ofDigitChars 10 ds 0

theorem isDigit_iff {c : Char} : c.isDigit = true ↔ 48 ≤ c.toNat ∧ c.toNat ≤ 57 := by
  rw [Char.isDigit, Bool.and_eq_true, decide_eq_true_eq, decide_eq_true_eq]
  exact Iff.rfl

theorem digit?_eq (c : Char) : digit? c = if c.isDigit then some (c.toNat - 48) else none := by
  simp only [digit?, isDigit_iff]

/-- A number does not shrink when digits are read behind it. -/
theorem le_ofDigitChars (n : Nat) (ds : List Char) : n ≤ Nat.ofDigitChars 10 ds n := by
  rw [Nat.ofDigitChars_eq_ofDigitChars_zero]
  have grown : n ≤ 10 ^ ds.length * n := Nat.le_mul_of_pos_left n (Nat.pow_pos (by decide))
  omega

/-- The digits behind a number that is not past the bound are read if and only if that keeps it
from going past.  As it never shrinks, the final value decides. -/
theorem readDigits_eq_ok_iff {bound n m : Nat} {past : WholeError} {cs : List Char}
    (small : n ≤ bound) :
    readDigits bound past n cs = .ok m ↔
      (∀ c ∈ cs, c.isDigit = true) ∧ m = Nat.ofDigitChars 10 cs n ∧ m ≤ bound := by
  induction cs generalizing n with
  | nil =>
    rw [readDigits, Nat.ofDigitChars_nil, Except.ok.injEq]
    constructor
    · rintro rfl
      exact ⟨by simp, rfl, small⟩
    · rintro ⟨-, rfl, -⟩
      rfl
  | cons c cs ih =>
    rw [readDigits, digit?_eq, Nat.ofDigitChars_cons, List.forall_mem_cons]
    cases digit : c.isDigit with
    | false => simp
    | true =>
      have value : '0'.toNat = 48 := rfl
      simp only [if_true, true_and, value]
      split
      · next past =>
        have more := le_ofDigitChars (10 * n + (c.toNat - 48)) cs
        constructor
        · intro h
          exact absurd h (by simp)
        · rintro ⟨-, rfl, fits⟩
          omega
      · next fits => exact ih (Nat.le_of_not_lt fits)

theorem readNumber_eq_ok_iff {bound n : Nat} {past : WholeError} {cs : List Char} :
    readNumber bound past cs = .ok n ↔
      cs ≠ [] ∧ (∀ c ∈ cs, c.isDigit = true) ∧ n = Nat.ofDigitChars 10 cs 0 ∧ n ≤ bound := by
  cases cs with
  | nil => simp [readNumber]
  | cons c cs =>
    rw [readNumber, readDigits_eq_ok_iff (Nat.zero_le _)]
    simp

/-- What is read as a whole number are the numerals of the numbers up to the bound. -/
theorem readWhole_eq_ok_iff {bound n : Nat} {cs : List Char} :
    readWhole bound cs = .ok n ↔ Numeral cs n ∧ n ≤ bound := by
  have plus : '+'.isDigit = false := rfl
  unfold readWhole
  split
  · simp [Numeral]
  · next ds =>
    rw [readNumber_eq_ok_iff]
    constructor
    · rintro ⟨filled, digits, value, small⟩
      exact ⟨⟨ds, .inr rfl, filled, digits, value⟩, small⟩
    · rintro ⟨⟨ds', rfl | same, filled, digits, value⟩, small⟩
      · exact absurd (digits '+' List.mem_cons_self) (by simp [plus])
      · obtain rfl : ds = ds' := List.tail_eq_of_cons_eq same
        exact ⟨filled, digits, value, small⟩
  · next unsigned =>
    rw [readNumber_eq_ok_iff]
    constructor
    · rintro ⟨filled, digits, value, small⟩
      exact ⟨⟨cs, .inl rfl, filled, digits, value⟩, small⟩
    · rintro ⟨⟨ds, rfl | signed, filled, digits, value⟩, small⟩
      · exact ⟨filled, digits, value, small⟩
      · exact absurd signed (unsigned ds)

/-- A numeral has one value. -/
theorem Numeral.unique {cs : List Char} {n m : Nat} (h : Numeral cs n) (h' : Numeral cs m) :
    n = m := by
  have read : readWhole (max n m) cs = .ok n := readWhole_eq_ok_iff.mpr ⟨h, Nat.le_max_left ..⟩
  have read' : readWhole (max n m) cs = .ok m := readWhole_eq_ok_iff.mpr ⟨h', Nat.le_max_right ..⟩
  exact Except.ok.inj (read.symm.trans read')

/-- Nothing of a numeral but its digits and its sign. -/
theorem Numeral.mem {cs : List Char} {n : Nat} (h : Numeral cs n) {c : Char} (hc : c ∈ cs) :
    c = '+' ∨ c.isDigit = true := by
  obtain ⟨ds, rfl | rfl, -, digits, -⟩ := h
  · exact .inr (digits c hc)
  · rcases List.mem_cons.mp hc with rfl | hc
    · exact .inl rfl
    · exact .inr (digits c hc)

end PingWatch.Text
