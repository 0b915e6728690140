import Mathlib.Data.Prod.Lex
import Mathlib.Order.Compare

/-!
# The order of floats

Floats other than a NaN stand in a line, on which the two zeros share a place (`Binary64.place`),
and to compare two of them is to compare their places.  So the order of floats is linear but for
NaNs, which are in no relation to anything (`Binary64.isNaN_of_le`).
-/

namespace PingWatch

namespace Binary64

open Float.Model (UnpackedFloat)
open Float.Model.UnpackedFloat

/-- Where a float stands: among the infinities, the finite floats or the zeros, and there by its
exponent and its mantissa. -/
def place : UnpackedFloat → ℤ ×ₗ ℤ ×ₗ ℤ
  | .infinity .negative => toLex (-2, toLex (0, 0))
  | .finite .negative m e _ => toLex (-1, toLex (-e, -(m : ℤ)))
  | .zero _ | .notANumber => toLex (0, toLex (0, 0))
  | .finite .positive m e _ => toLex (1, toLex (e, (m : ℤ)))
  | .infinity .positive => toLex (2, toLex (0, 0))

theorem place_negative (m : Nat) (e : Int) (h : 0 < m) :
    place (.finite .negative m e h) = toLex (-1, toLex (-e, -(m : ℤ))) := rfl

theorem place_positive (m : Nat) (e : Int) (h : 0 < m) :
    place (.finite .positive m e h) = toLex (1, toLex (e, (m : ℤ))) := rfl

/-- The places are compared as the floats are. -/
def Compares (a b : UnpackedFloat) (o : Ordering) : Prop :=
  a.compare b = some o ∧ (o = .lt ↔ place a < place b) ∧ (o = .gt ↔ place b < place a)

variable {a b : UnpackedFloat}

theorem Compares.below (h : a.compare b = some .lt) (places : place a < place b) :
    Compares a b .lt :=
  ⟨h, iff_of_true rfl places, iff_of_false (by simp) places.asymm⟩

theorem Compares.above (h : a.compare b = some .gt) (places : place b < place a) :
    Compares a b .gt :=
  ⟨h, iff_of_false (by simp) places.asymm, iff_of_true rfl places⟩

theorem Compares.level (h : a.compare b = some .eq) (places : place a = place b) :
    Compares a b .eq :=
  ⟨h, iff_of_false (by simp) places.not_lt, iff_of_false (by simp) places.not_gt⟩

/-- Two finite floats of one sign are told apart by their exponents, then by their mantissas. -/
theorem compares_finite (s : Sign) (m n : Nat) (e f : Int) (hm : 0 < m) (hn : 0 < n) :
    ∃ o, Compares (.finite s m e hm) (.finite s n f hn) o := by
  have lt : (compare e f).then (compare m n) = .lt ↔ e < f ∨ e = f ∧ m < n := by
    rw [Ordering.then_eq_lt, compare_lt_iff_lt, compare_eq_iff_eq, compare_lt_iff_lt]
  have gt : (compare e f).then (compare m n) = .gt ↔ f < e ∨ e = f ∧ n < m := by
    rw [Ordering.then_eq_gt, compare_gt_iff_gt, compare_eq_iff_eq, compare_gt_iff_gt]
  have places (k x y z w : ℤ) :
      toLex (k, toLex (x, y)) < toLex (k, toLex (z, w)) ↔ x < z ∨ x = z ∧ y < w := by
    simp [Prod.Lex.toLex_lt_toLex]
  cases s with
  | negative =>
    refine ⟨_, rfl, ?_, ?_⟩
    · rw [Ordering.swap_eq_lt, gt, place_negative, place_negative, places]
      omega
    · rw [Ordering.swap_eq_gt, lt, place_negative, place_negative, places]
      omega
  | positive =>
    refine ⟨_, rfl, ?_, ?_⟩
    · rw [lt, place_positive, place_positive, places]
      omega
    · rw [gt, place_positive, place_positive, places]
      omega

theorem exists_compares (ha : a.isNaN = false) (hb : b.isNaN = false) : ∃ o, Compares a b o := by
  -- infinities, zeros, and the finite floats of either sign stand in an order of their own
  have apart {k l : ℤ} (h : k < l) (p q : ℤ ×ₗ ℤ) : toLex (k, p) < toLex (l, q) :=
    Prod.Lex.toLex_lt_toLex.mpr (.inl h)
  rcases a with (_ | _) | _ | _ | ⟨_ | _, m, e, hm⟩ <;>
    rcases b with (_ | _) | _ | _ | ⟨_ | _, n, f, hn⟩
  all_goals first
    | exact absurd ha (by decide)
    | exact absurd hb (by decide)
    | exact ⟨_, .below rfl (apart (by decide) _ _)⟩
    | exact ⟨_, .above rfl (apart (by decide) _ _)⟩
    | exact ⟨_, .level rfl rfl⟩
    | exact compares_finite ..

/-- A NaN is not comparable. -/
theorem isNaN_of_compare {o : Ordering} (h : a.compare b = some o) :
    a.isNaN = false ∧ b.isNaN = false := by
  cases a with
  | notANumber => exact nomatch h
  | infinity s | zero s | finite s m e hm =>
    cases b with
    | notANumber => cases s <;> exact nomatch h
    | infinity t | zero t | finite t n f hn => exact ⟨rfl, rfl⟩

section Float

variable {x y : Float}

theorem lt_iff_compare : x < y ↔ x.toModel.unpack.compare y.toModel.unpack = some .lt := by
  show decide (_ = true) = true ↔ _
  rw [decide_eq_true_eq]
  exact beq_iff_eq

theorem le_iff_compare :
    x ≤ y ↔ ∃ o, x.toModel.unpack.compare y.toModel.unpack = some o ∧ o ≠ .gt := by
  have unfolded : x ≤ y ↔ (x.toModel.unpack.compare y.toModel.unpack).any (·.isLE) = true := by
    show decide (_ = true) = true ↔ _
    rw [decide_eq_true_eq]
    rfl
  rw [unfolded, Option.any_eq_true]
  simp only [Ordering.isLE_iff_ne_gt]

theorem isNaN_of_lt (h : x < y) : x.isNaN = false ∧ y.isNaN = false :=
  isNaN_of_compare (lt_iff_compare.mp h)

theorem isNaN_of_le (h : x ≤ y) : x.isNaN = false ∧ y.isNaN = false := by
  obtain ⟨o, compared, -⟩ := le_iff_compare.mp h
  exact isNaN_of_compare compared

theorem lt_iff_place (hx : x.isNaN = false) (hy : y.isNaN = false) :
    x < y ↔ place x.toModel.unpack < place y.toModel.unpack := by
  obtain ⟨o, compared, lt, -⟩ := exists_compares hx hy
  rw [lt_iff_compare, compared, Option.some_inj, lt]

theorem le_iff_place (hx : x.isNaN = false) (hy : y.isNaN = false) :
    x ≤ y ↔ place x.toModel.unpack ≤ place y.toModel.unpack := by
  obtain ⟨o, compared, -, gt⟩ := exists_compares hx hy
  rw [le_iff_compare, compared, ← not_lt, ← gt]
  simp

theorem le_refl (hx : x.isNaN = false) : x ≤ x := (le_iff_place hx hx).mpr le_rfl

theorem le_trans {z : Float} (h : x ≤ y) (h' : y ≤ z) : x ≤ z := by
  obtain ⟨hx, hy⟩ := isNaN_of_le h
  have hz := (isNaN_of_le h').2
  exact (le_iff_place hx hz).mpr
    (((le_iff_place hx hy).mp h).trans ((le_iff_place hy hz).mp h'))

theorem le_of_lt (h : x < y) : x ≤ y := by
  obtain ⟨hx, hy⟩ := isNaN_of_lt h
  exact (le_iff_place hx hy).mpr ((lt_iff_place hx hy).mp h).le

theorem le_of_not_lt (hx : x.isNaN = false) (hy : y.isNaN = false) (h : ¬ x < y) : y ≤ x :=
  (le_iff_place hy hx).mpr (not_lt.mp (mt (lt_iff_place hx hy).mpr h))

end Float

end Binary64

end PingWatch
