/-!
# Lengths of time

A `Duration` is a whole number of nanoseconds, and the largest one is a nanosecond short of
`2 ^ 64` seconds.  Sums past that have no value (`add?`, `sum?`).  A length of time is divided second
by second and nanosecond by nanosecond (`divide?`), which comes to the same as dividing its
nanoseconds (`share`).  The clock of a schedule counts milliseconds, so a length of time is rounded
up to them (`millisUp`): a timer never fires early.
-/

namespace PingWatch

/-- A length of time in whole nanoseconds. -/
structure Duration where
  nanos : Nat
deriving DecidableEq, Inhabited

namespace Duration

def zero : Duration := ⟨0⟩

@[simp] def perSecond : Nat := 1_000_000_000

@[simp] def perMilli : Nat := 1_000_000

/-- The largest length of time, a nanosecond short of `2 ^ 64` seconds. -/
def largest : Duration := ⟨0x10000000000000000 * perSecond - 1⟩

def ofMillis (n : Nat) : Duration := ⟨n * perMilli⟩

def ofSeconds (n : Nat) : Duration := ⟨n * perSecond⟩

def isZero (d : Duration) : Bool := d.nanos == 0

/-- The whole seconds of `d`. -/
def seconds (d : Duration) : Nat := d.nanos / perSecond

/-- The nanoseconds of `d` beyond its whole seconds. -/
def subsecond (d : Duration) : Nat := d.nanos % perSecond

/-- The milliseconds a timer for `d` runs: `d` rounded up. -/
def millisUp (d : Duration) : Nat := (d.nanos + (perMilli - 1)) / perMilli

/-- The sum of two lengths of time, if it is not past the largest one. -/
def add? (a b : Duration) : Option Duration :=
  if a.nanos + b.nanos ≤ largest.nanos then some ⟨a.nanos + b.nanos⟩ else none

/-- The sum of a list, if no partial sum is past the largest length of time. -/
def sum? (ds : List Duration) : Option Duration :=
  ds.foldlM add? zero

/-- An `n`-th of `d`, rounded down. -/
def share (d : Duration) (n : Nat) : Duration := ⟨d.nanos / n⟩

/-- An `n`-th of `d` taken part by part: what is left over of the seconds goes to the nanoseconds.
Nothing is divided by zero. -/
def divide? (d : Duration) (n : UInt32) : Option Duration :=
  if n = 0 then none
  else
    let carried := d.seconds % n.toNat * perSecond + d.subsecond % n.toNat
    some ⟨d.seconds / n.toNat * perSecond + (d.subsecond / n.toNat + carried / n.toNat)⟩

/-- The seconds of `d` as a float: whole seconds plus the fraction, each rounded on its own. -/
def toSeconds (d : Duration) : Float :=
  d.seconds.toUInt64.toFloat + d.subsecond.toUInt64.toFloat / 1e9

def toMicros (d : Duration) : Float := d.toSeconds * 1e6

theorem isZero_eq_true {d : Duration} : d.isZero = true ↔ ¬ 0 < d.nanos := by
  rw [isZero, beq_iff_eq, Nat.not_lt, Nat.le_zero_eq]

theorem nanos_ofMillis (n : Nat) : (ofMillis n).nanos = n * perMilli := rfl

/-- A whole number of milliseconds is not rounded. -/
theorem millisUp_ofMillis (n : Nat) : (ofMillis n).millisUp = n := by
  simp only [millisUp, ofMillis, perMilli]; omega

/-- What goes from the seconds to the nanoseconds makes the division exact. -/
theorem divide?_eq_share (d : Duration) {n : UInt32} (h : n ≠ 0) :
    d.divide? n = some (d.share n.toNat) := by
  have pos : 0 < n.toNat := Nat.pos_of_ne_zero fun zero => h (UInt32.toNat_inj.mp zero)
  -- `n` times what the parts give on their own, and then what is carried
  have whole : d.nanos = n.toNat * (d.seconds / n.toNat * perSecond + d.subsecond / n.toNat) +
      (d.seconds % n.toNat * perSecond + d.subsecond % n.toNat) := by
    have parts : d.nanos = d.seconds * perSecond + d.subsecond :=
      (Nat.div_add_mod' d.nanos perSecond).symm
    rw [Nat.mul_add, ← Nat.mul_assoc, Nat.add_add_add_comm, ← Nat.add_mul, Nat.div_add_mod,
      Nat.div_add_mod, parts]
  have share : d.share n.toNat = ⟨d.nanos / n.toNat⟩ := rfl
  unfold divide?
  rw [if_neg h, share, whole, Nat.mul_add_div pos, Nat.add_assoc]

theorem add?_eq_some_iff {a b c : Duration} :
    a.add? b = some c ↔ c.nanos = a.nanos + b.nanos ∧ c.nanos ≤ largest.nanos := by
  cases c with
  | mk n =>
    unfold add?
    split
    · simp only [Option.some.injEq, mk.injEq]; omega
    · simp only [reduceCtorEq, false_iff, not_and]; omega

end Duration

end PingWatch
