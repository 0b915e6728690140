import PingWatch.Moments
import PingWatch.Proofs.Extremes
import PingWatch.Proofs.FloatOrder

/-!
# The statistics of a list of floats

The folds for the extremes find an element of the list that no other is beyond, where a NaN does not
count.  An empty list has a number in place of each statistic.

* `Moments.greatest_extreme`, `Moments.least_extreme`: what the extremes are.
* `Moments.sum_concat`, `Moments.mean_mean`, `Moments.deviation_of_few`: the other statistics.
-/

namespace PingWatch

namespace Moments

/-! ## The extremes -/

/-- An order of floats in which a NaN is left aside, with its strict part. -/
structure Ordered (le lt : Float → Float → Prop) : Prop where
  number : ∀ {x y}, le x y → x.isNaN = false ∧ y.isNaN = false
  refl : ∀ {x}, x.isNaN = false → le x x
  trans : ∀ {x y z}, le x y → le y z → le x z
  of_lt : ∀ {x y}, lt x y → le x y
  of_not_lt : ∀ {x y}, x.isNaN = false → y.isNaN = false → ¬ lt x y → le y x

theorem Ordered.upward : Ordered (· ≤ ·) (· < ·) where
  number := Binary64.isNaN_of_le
  refl := Binary64.le_refl
  trans := Binary64.le_trans
  of_lt := Binary64.le_of_lt
  of_not_lt := Binary64.le_of_not_lt

theorem Ordered.downward : Ordered (· ≥ ·) (· > ·) where
  number := fun h => (Binary64.isNaN_of_le h).symm
  refl := Binary64.le_refl
  trans := fun h h' => Binary64.le_trans h' h
  of_lt := Binary64.le_of_lt
  of_not_lt := fun hx hy h => Binary64.le_of_not_lt hy hx h

/-- The float `x` is an element of the list that no number of it is beyond; an empty list has zero
in its place. -/
structure Extreme (le : Float → Float → Prop) (vs : List Float) (x : Float) : Prop where
  mem : vs ≠ [] → x ∈ vs
  beyond : ∀ v ∈ vs, v.isNaN = false → le v x
  empty : vs = [] → x = 0.0

/-- Of two floats the one that is beyond the other; a NaN gives way. -/
def further (lt : Float → Float → Prop) [DecidableRel lt] (x y : Float) : Float :=
  if x.isNaN then y else if lt x y then y else x

section Further

variable {le lt : Float → Float → Prop}

theorem Ordered.refl_or_isNaN (h : Ordered le lt) (x : Float) : x.isNaN = true ∨ le x x := by
  cases hx : x.isNaN with
  | true => exact .inl rfl
  | false => exact .inr (h.refl hx)

variable [DecidableRel lt]

theorem further_cases (x y : Float) : further lt x y = x ∨ further lt x y = y := by
  unfold further
  split
  · exact .inr rfl
  · split
    · exact .inr rfl
    · exact .inl rfl

/-- Neither of the two is beyond the one that is kept, unless it is a NaN. -/
theorem Ordered.further (h : Ordered le lt) (x y : Float) :
    (x.isNaN = true ∨ le x (further lt x y)) ∧ (y.isNaN = true ∨ le y (further lt x y)) := by
  unfold Moments.further
  split
  · next hx => exact ⟨.inl hx, h.refl_or_isNaN y⟩
  · next hx =>
    split
    · next less => exact ⟨.inr (h.of_lt less), h.refl_or_isNaN y⟩
    · next less =>
      refine ⟨h.refl_or_isNaN x, ?_⟩
      cases hy : y.isNaN with
      | true => exact .inl rfl
      | false => exact .inr (h.of_not_lt (Bool.eq_false_iff.mpr hx) hy less)

theorem Ordered.foldl_further (h : Ordered le lt) (v : Float) (vs : List Float) :
    Extreme le (v :: vs) (vs.foldl (Moments.further lt) v) := by
  have trans : ∀ x y z : Float, (x.isNaN = true ∨ le x y) → (y.isNaN = true ∨ le y z) →
      x.isNaN = true ∨ le x z := by
    rintro x y z (hx | xy) (hy | yz)
    · exact .inl hx
    · exact .inl hx
    · exact absurd ((h.number xy).2.symm.trans hy) Bool.false_ne_true
    · exact .inr (h.trans xy yz)
  obtain ⟨one, most⟩ := foldl_keep (fun x y => x.isNaN = true ∨ le x y) h.refl_or_isNaN trans
    further_cases h.further v vs
  refine ⟨fun _ => one, fun w hw number => ?_, fun nil => absurd nil (by simp)⟩
  exact (most w hw).resolve_left fun nan => Bool.false_ne_true (number.symm.trans nan)

end Further

theorem extreme_nil (le : Float → Float → Prop) : Extreme le [] 0.0 where
  mem := fun h => absurd rfl h
  beyond := fun _ hv => absurd hv List.not_mem_nil
  empty := fun _ => rfl

theorem greatest_extreme (vs : List Float) : Extreme (· ≤ ·) vs (greatest vs) := by
  cases vs with
  | nil => exact extreme_nil _
  | cons v vs => exact Ordered.upward.foldl_further v vs

theorem least_extreme (vs : List Float) : Extreme (· ≥ ·) vs (least vs) := by
  cases vs with
  | nil => exact extreme_nil _
  | cons v vs => exact Ordered.downward.foldl_further v vs

/-! ## The other statistics -/

/-- The sum of nothing is the neutral element of addition, which equals zero. -/
theorem sum_nil : sum [] = -0.0 ∧ (sum [] == 0.0) = true := ⟨rfl, by decide⟩

theorem sum_concat (vs : List Float) (v : Float) : sum (vs ++ [v]) = sum vs + v := by
  unfold sum
  rw [List.foldl_append]
  rfl

/-- The float `x` is the mean of the list; an empty list has zero in its place. -/
structure Mean (vs : List Float) (x : Float) : Prop where
  quotient : vs ≠ [] → x = sum vs / size vs
  empty : vs = [] → x = 0.0

theorem mean_mean (vs : List Float) : Mean vs (mean vs) where
  quotient := fun h => if_neg (by simpa using h)
  empty := by
    rintro rfl
    rfl

theorem deviation_of_few {vs : List Float} (h : vs.length < 2) : deviation vs = 0.0 := if_pos h

end Moments

end PingWatch
