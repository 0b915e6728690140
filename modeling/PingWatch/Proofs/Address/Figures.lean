import Mathlib.Algebra.GroupWithZero.Nat
import Mathlib.Data.List.Forall2
import PingWatch.Address.Reading

/-!
# Printed numbers at the front of a text

A number that is printed in some base and followed by anything that does not go on with it is read
back, and what follows is left over.

* `exists_figures`: what is known of the digits of a printed number.
* `digits_printed`: they are taken off the front of a text.
* `octet_decimal`, `group_hexDigits`, `number_decimal`: each reader of numbers undoes printing.
* `digits_ten_rest`: a decimal number does not reach further than a hexadecimal one.
-/

namespace PingWatch.Reader

open Text

variable {base n : Nat} {c : Char} {cs rest : List Char}

/-! ## Digits at the front -/

/-- A text does not go on with the digits before it. -/
def Stops (base : Nat) (rest : List Char) : Prop :=
  ∀ c, rest.head? = some c → digitIn? base c = none

theorem digits_cons_of_some {d : Nat} (h : digitIn? base c = some d) (cs : List Char) :
    digits base (c :: cs) = (d :: (digits base cs).1, (digits base cs).2) := by
  rw [digits, h]

theorem digits_cons_of_none (h : digitIn? base c = none) (cs : List Char) :
    digits base (c :: cs) = ([], c :: cs) := by
  rw [digits, h]

theorem digits_of_stops (stop : Stops base rest) : digits base rest = ([], rest) := by
  cases rest with
  | nil => rfl
  | cons c rest => exact digits_cons_of_none (stop c rfl) rest

theorem digits_append {ds : List Nat}
    (figures : List.Forall₂ (fun c d => digitIn? base c = some d) cs ds) (stop : Stops base rest) :
    digits base (cs ++ rest) = (ds, rest) := by
  induction figures with
  | nil => exact digits_of_stops stop
  | cons one _ ih => rw [List.cons_append, digits_cons_of_some one, ih]

theorem stops_nil (base : Nat) : Stops base [] := fun _ h => nomatch h

theorem stops_cons (h : digitIn? base c = none) (cs : List Char) : Stops base (c :: cs) := by
  rintro d ⟨⟩
  exact h

/-- A decimal digit is a hexadecimal one as well. -/
theorem digitIn?_sixteen {d : Nat} (h : digitIn? 10 c = some d) : digitIn? 16 c = some d := by
  unfold digitIn? at h ⊢
  dsimp only at h ⊢
  obtain ⟨value, small⟩ := Option.filter_eq_some_iff.mp h
  have larger : d < 16 := Nat.lt_trans (of_decide_eq_true small) (by decide)
  exact Option.filter_eq_some_iff.mpr ⟨value, decide_eq_true larger⟩

theorem Stops.ten (stop : Stops 16 rest) : Stops 10 rest := by
  intro c first
  rw [Option.eq_none_iff_forall_ne_some]
  intro d digit
  exact absurd (digitIn?_sixteen digit) (by simp [stop c first])

/-- What stands behind decimal digits stands behind hexadecimal ones too, unless it goes on with
them. -/
theorem digits_ten_rest (h : digitIn? 16 c = none) (behind : (digits 10 cs).2 = c :: rest) :
    (digits 16 cs).2 = c :: rest := by
  induction cs with
  | nil => exact nomatch behind
  | cons d cs ih =>
    cases digit : digitIn? 10 d with
    | some k =>
      rw [digits_cons_of_some digit] at behind
      rw [digits_cons_of_some (digitIn?_sixteen digit)]
      exact ih behind
    | none =>
      rw [digits_cons_of_none digit] at behind
      obtain ⟨rfl, rfl⟩ := List.cons_eq_cons.mp behind
      rw [digits_cons_of_none h]

/-! ## Printed numbers -/

theorem value_concat (base : Nat) (ds : List Nat) (d : Nat) :
    value base (ds ++ [d]) = base * value base ds + d := by
  rw [value, List.foldl_append]
  rfl

/-- A base in which the printed digits are those that are read. -/
structure Printable (base : Nat) : Prop where
  one_lt : 1 < base
  digit : ∀ d < base, digitIn? base (Nat.digitChar d) = some d

theorem Printable.pos (hb : Printable base) : 0 < base := Nat.lt_trans Nat.one_pos hb.one_lt

theorem printable_ten : Printable 10 := ⟨by decide, by decide⟩

theorem printable_sixteen : Printable 16 := ⟨by decide, by decide⟩

/-- The digits of a printed number: they have its value, there are no needless zeros, and no more
digits than the number takes. -/
structure Figures (base n : Nat) (ds : List Nat) : Prop where
  digits : List.Forall₂ (fun c d => digitIn? base c = some d) (Nat.toDigits base n) ds
  value : value base ds = n
  filled : ds ≠ []
  leading : ds.head? = some 0 → ds = [0]
  length : ∀ k, 0 < k → n < base ^ k → ds.length ≤ k

theorem figures_of_lt (hb : Printable base) (small : n < base) : Figures base n [n] where
  digits := by
    rw [Nat.toDigits_of_lt_base small]
    exact .cons (hb.digit n small) .nil
  value := by simp [Reader.value]
  filled := by simp
  leading := by simp
  length := by
    intro k positive _
    exact positive

/-- The last digit of a number stands behind those of its quotient by the base. -/
theorem Figures.concat {ds : List Nat} (hb : Printable base) (large : base ≤ n)
    (figures : Figures base (n / base) ds) : Figures base n (ds ++ [n % base]) where
  digits := by
    have last := hb.digit _ (Nat.mod_lt n hb.pos)
    rw [Nat.toDigits_of_base_le hb.one_lt large]
    exact List.rel_append figures.digits (.cons last .nil)
  value := by rw [value_concat, figures.value, Nat.div_add_mod]
  filled := by simp
  leading := by
    -- The first digit is that of the quotient, which is not zero.
    intro zero
    have quotient_pos : 0 < n / base := Nat.div_pos large hb.pos
    rw [List.head?_append_of_ne_nil _ figures.filled] at zero
    have nothing := figures.value
    rw [figures.leading zero] at nothing
    exact absurd nothing (Nat.ne_of_lt quotient_pos)
  length := by
    intro k positive fits
    have quotient_pos : 0 < n / base := Nat.div_pos large hb.pos
    obtain ⟨k, rfl⟩ := Nat.exists_eq_succ_of_ne_zero (Nat.ne_of_gt positive)
    have fits' : n / base < base ^ k := by
      rw [Nat.div_lt_iff_lt_mul hb.pos]
      exact fits
    have room : 0 < k := by
      by_contra none
      obtain rfl : k = 0 := Nat.eq_zero_of_not_pos none
      rw [Nat.pow_zero] at fits'
      omega
    have shorter := figures.length k room fits'
    rw [List.length_append, List.length_singleton]
    omega

theorem exists_figures (hb : Printable base) (n : Nat) : ∃ ds, Figures base n ds := by
  induction n using Nat.strongRecOn with
  | ind n ih =>
    by_cases small : n < base
    · exact ⟨[n], figures_of_lt hb small⟩
    · have large : base ≤ n := Nat.le_of_not_lt small
      have positive : 0 < n := Nat.lt_of_lt_of_le hb.pos large
      obtain ⟨ds, figures⟩ := ih (n / base) (Nat.div_lt_self positive hb.one_lt)
      exact ⟨ds ++ [n % base], figures.concat hb large⟩

theorem digits_printed {ds : List Nat} (figures : Figures base n ds) (stop : Stops base rest) :
    digits base (Nat.toDigits base n ++ rest) = (ds, rest) := digits_append figures.digits stop

/-- What stands behind a printed number. -/
theorem digits_printed_rest (hb : Printable base) (n : Nat) (stop : Stops base rest) :
    (digits base (Nat.toDigits base n ++ rest)).2 = rest := by
  obtain ⟨ds, figures⟩ := exists_figures hb n
  rw [digits_printed figures stop]

/-! ## The readers of numbers -/

theorem octet_decimal (n : UInt8) (stop : Stops 10 rest) :
    octet (decimal n.toNat ++ rest) = some (n, rest) := by
  obtain ⟨ds, figures⟩ := exists_figures printable_ten n.toNat
  have bound : n.toNat < 256 := n.toNat_lt
  have short : ds.length ≤ 3 := figures.length 3 (by decide) (by omega)
  have accepted : ¬(ds = [] ∨ 3 < ds.length ∨ (ds.head? = some 0 ∧ 1 < ds.length) ∨
      255 < value 10 ds) := by
    rintro (empty | long | ⟨zero, long⟩ | great)
    · exact figures.filled empty
    · omega
    · rw [figures.leading zero] at long
      exact absurd long (by decide)
    · rw [figures.value] at great
      omega
  unfold octet decimal
  rw [digits_printed figures stop]
  show (if _ then _ else _) = _
  rw [if_neg accepted, figures.value]
  simp

theorem group_hexDigits (g : UInt16) (stop : Stops 16 rest) :
    group (hexDigits g.toNat ++ rest) = some (g, rest) := by
  obtain ⟨ds, figures⟩ := exists_figures printable_sixteen g.toNat
  have bound : g.toNat < 65536 := g.toNat_lt
  have short : ds.length ≤ 4 := figures.length 4 (by decide) (by omega)
  have accepted : ¬(ds = [] ∨ 4 < ds.length) := by
    rintro (empty | long)
    · exact figures.filled empty
    · omega
  unfold group hexDigits
  rw [digits_printed figures stop]
  show (if _ then _ else _) = _
  rw [if_neg accepted, figures.value]
  simp

theorem number_decimal {bound : Nat} (fits : n ≤ bound) (stop : Stops 10 rest) :
    number bound (decimal n ++ rest) = some (n, rest) := by
  obtain ⟨ds, figures⟩ := exists_figures printable_ten n
  have accepted : ¬(ds = [] ∨ bound < value 10 ds) := by
    rintro (empty | great)
    · exact figures.filled empty
    · rw [figures.value] at great
      omega
  unfold number decimal
  rw [digits_printed figures stop]
  show (if _ then _ else _) = _
  rw [if_neg accepted, figures.value]

end PingWatch.Reader
