import PingWatch.Echo.Summary

/-!
# Nothing lost

The loss of a round is a quotient of two floats.  A positive number of at most 53 binary digits
becomes a positive float, with no digit rounded away (`Binary64.positive_toFloat`), and zero divided
by such a float is zero.  So a round whose requests were all answered reports a loss of exactly zero
(`EchoSummary.loss_eq_zero`).
-/

namespace PingWatch

namespace Binary64

open Float.Model.UnpackedFloat
open Float.Model (Format UnpackedFloat totalExponent)

theorem log2_shiftLeft {n : Nat} (h : 0 < n) (k : Nat) : (n <<< k).log2 = n.log2 + k := by
  induction k with
  | zero => rfl
  | succ k ih =>
    have shifted : n <<< k ≠ 0 := Nat.ne_of_gt (Nat.shiftLeft_pos_iff.mpr h)
    rw [Nat.shiftLeft_succ, Nat.log2_two_mul shifted, ih]
    rfl

/-- The exponent at which a number has a mantissa of 53 digits, unless that is below the least. -/
theorem targetExponent_eq (m : Nat) (e : Int) :
    Format.binary64.targetExponent (totalExponent m e) = max (m.log2 + 1 + e - 53) (-1074) := rfl

/-- A mantissa of 53 digits stays where it is. -/
theorem shiftToTargetExponent_of_full {m : Nat} {e : Int} (full : m.log2 = 52)
    (least : -1074 ≤ e) :
    shiftToTargetExponent .binary64 m e .exact = (⟨m, false, false⟩, e) := by
  have target : max ((m.log2 : Int) + 1 + e - 53) (-1074) = e := by omega
  unfold shiftToTargetExponent shiftToExponent
  dsimp only
  rw [targetExponent_eq, target, Int.sub_self]
  exact Prod.ext rfl (Int.add_zero e)

/-- A mantissa of 53 digits is not rounded. -/
theorem roundWithAccuracy_of_full {s : Sign} {m : Nat} {e : Int} (pos : 0 < m)
    (full : m.log2 = 52) (least : -1074 ≤ e) :
    roundWithAccuracy .binary64 s m e .exact = .finite s m e pos := by
  have stays := shiftToTargetExponent_of_full full least
  have whole : (⟨m, false, false⟩ : ExtendedMantissa).roundedMantissa = m := rfl
  unfold roundWithAccuracy
  rw [stays]
  dsimp only
  rw [whole, stays]
  exact dif_neg (Nat.ne_of_gt pos)

theorem log2_shiftLeft_full {n : Nat} (pos : 0 < n) (digits : n.log2 < 53) :
    (n <<< (52 - n.log2)).log2 = 52 := by
  rw [log2_shiftLeft pos]
  omega

/-- A number of at most 53 digits is shifted until it has 53, and none of them is rounded away. -/
theorem round_ofNat {n : Nat} (pos : 0 < n) (digits : n.log2 < 53) :
    UnpackedFloat.round .binary64 .positive n 0 =
      .finite .positive (n <<< (52 - n.log2)) (n.log2 - 52) (Nat.shiftLeft_pos_iff.mpr pos) := by
  have target : max ((n.log2 : Int) + 1 + 0 - 53) (-1074) = n.log2 - 52 := by omega
  have shift : (0 - ((n.log2 : Int) - 52)).toNat = 52 - n.log2 := by omega
  have exponent : (0 : Int) - (52 - n.log2 : Nat) = n.log2 - 52 := by omega
  unfold UnpackedFloat.round decreaseExponent
  dsimp only
  rw [targetExponent_eq, target, shift, exponent]
  exact roundWithAccuracy_of_full _ (log2_shiftLeft_full pos digits) (by omega)

/-- The finite floats above zero. -/
def Positive : UnpackedFloat → Prop
  | .finite s _ _ _ => s = .positive
  | _ => False

theorem sign_packComponents (s : Sign) (e : BitVec 11) (m : BitVec 52) :
    Sign.ofBitVec (unpackSign (packComponents .binary64 s e m)) = s := by
  have bit : (s.toBitVec ++ e ++ m).extractLsb' 63 1 = s.toBitVec := by
    rw [BitVec.extractLsb'_append_eq_of_le (by decide),
      BitVec.extractLsb'_append_eq_of_le (by decide)]
    exact BitVec.extractLsb'_eq_self
  show Sign.ofBitVec ((s.toBitVec ++ e ++ m).extractLsb' 63 1) = s
  rw [bit]
  cases s <;> rfl

/-- An exponent that is neither the least nor the largest belongs to a finite float. -/
theorem positive_unpack {b : Nat} (least : 0 < b) (most : b < 2047) (m : BitVec 52) :
    Positive (unpack .binary64 (packComponents .binary64 .positive (BitVec.ofNat 11 b) m)) := by
  have value : (BitVec.ofNat 11 b).toNat = b := Nat.mod_eq_of_lt (by omega)
  have finite : BitVec.ofNat 11 b ≠ -1#11 := by
    intro same
    rw [same] at value
    exact Nat.ne_of_gt most value
  have normal : BitVec.ofNat 11 b ≠ 0#11 := by
    intro same
    rw [same] at value
    exact Nat.ne_of_lt least value
  unfold unpack
  dsimp only
  rw [if_neg (unpackExponent_packComponents ▸ finite),
    if_neg (unpackExponent_packComponents ▸ normal)]
  exact sign_packComponents ..

/-- A float with a full mantissa is packed with all its digits. -/
theorem pack_of_full {m : Nat} {e : Int} (pos : 0 < m) (full : m.log2 = 52) (most : e ≤ 971) :
    pack .binary64 (.finite .positive m e pos) =
      packComponents .binary64 .positive (BitVec.ofNat 11 (e + 1075).toNat)
        (BitVec.ofNat 52 m) := by
  have biased : (e + Format.binary64.exponentBias + (52 : Nat)).toNat = (e + 1075).toNat := by
    show (e + (1023 : Nat) + (52 : Nat)).toNat = (e + 1075).toNat
    omega
  unfold pack
  dsimp only
  rw [full, biased, if_neg (by omega)]
  exact if_pos rfl

/-- A small number above zero becomes a float above zero. -/
theorem positive_toFloat {n : Nat} (pos : 0 < n) (digits : n.log2 < 53) :
    Positive n.toUInt64.toFloat.toModel.unpack := by
  have small : n < 2 ^ 53 := (Nat.log2_lt (Nat.ne_of_gt pos)).mp digits
  have full := log2_shiftLeft_full pos digits
  have value : n.toUInt64.toNat = n := Nat.mod_eq_of_lt (by omega)
  have rounded : UnpackedFloat.ofNat .binary64 n = UnpackedFloat.round .binary64 .positive n 0 := by
    unfold UnpackedFloat.ofNat ofInt UnpackedFloat.normalize
    rw [Int.compare_eq_gt.mpr (Int.natCast_pos.mpr pos)]
    rfl
  show Positive (unpack .binary64 (pack .binary64 (ofNat .binary64 n.toUInt64.toNat)))
  rw [value, rounded, round_ofNat pos digits, pack_of_full _ full (by omega)]
  exact positive_unpack (by omega) (by omega) _

theorem zero_div {x : UnpackedFloat} (h : Positive x) :
    div .binary64 (.zero .positive) x = .zero .positive := by
  cases x with
  | finite s m e pos =>
    obtain rfl : s = .positive := h
    rfl
  | infinity s => exact h.elim
  | notANumber => exact h.elim
  | zero s => exact h.elim

end Binary64

/-- Nothing is lost when as many requests were answered as were sent. -/
theorem EchoSummary.loss_eq_zero {s : EchoSummary} (sent : 0 < s.sent)
    (digits : s.sent.log2 < 53) (answered : s.received = s.sent) : s.loss = 0.0 := by
  have quotient : (0 : Nat).toUInt64.toFloat / s.sent.toUInt64.toFloat =
      .ofModel (.pack (.div .binary64 (.zero .positive) s.sent.toUInt64.toFloat.toModel.unpack)) :=
    rfl
  unfold loss
  rw [if_neg (Nat.ne_of_gt sent), answered, Nat.sub_self, quotient,
    Binary64.zero_div (Binary64.positive_toFloat sent digits)]
  rfl

end PingWatch
