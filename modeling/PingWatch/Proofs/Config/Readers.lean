import PingWatch.Config.Probes
import PingWatch.Proofs.Duration.Written
import PingWatch.Proofs.FloatOrder
import PingWatch.Proofs.Outcome

/-!
# Readers of single keys

A reader gives the default of its key if that is absent or blank, and otherwise what the value of
the key stands for.  When it refuses a value, its error names the key.  No other key matters to it.
These three facts are `ReadsKey`, and every reader of the configurations has them, each with its own
relation between values and what they stand for.

* `IsCount`, `IsPause`, `IsFraction`, `IsServer`, `IsList`: the relations.
* `ReadsKey.readOr`, `ReadsKey.checked`: a value is read, and what is read is checked.
* `positiveOr_readsKey`, `positiveDurationOr_readsKey`, `fractionOr_readsKey`, `server?_readsKey`:
  the readers.  A list is read as well (`list_gives`), but there is nothing to refuse.
-/

namespace PingWatch

open Text

/-! ## What values stand for -/

/-- The numbers from one to `bound`. -/
def IsCount (bound : Nat) (value : String) (n : Nat) : Prop :=
  Numeral value.toList n ∧ 1 ≤ n ∧ n ≤ bound

/-- The lengths of time other than zero. -/
def IsPause (value : String) (d : Duration) : Prop :=
  ∃ n u, Duration.Reads value n u ∧ 1 ≤ n ∧ n * u.millis ≤ Duration.mostMillis ∧
    d = .ofMillis (n * u.millis)

/-- The floats from zero to one, all of which are numbers. -/
def IsFraction (value : String) (x : Float) : Prop :=
  Decimal.readFloat value.toList = .ok x ∧ x.isNaN = false ∧ 0.0 ≤ x ∧ x ≤ 1.0

/-- The endpoints of name servers. -/
def IsServer (value : String) (server : Option Endpoint) : Prop :=
  ∃ e, Endpoint.parseServer? value = some e ∧ server = some e

/-- Any value is a list of what stands between its commas. -/
def IsList (value : String) (l : List String) : Prop :=
  l = (entries (· = ',') value.toList).map .ofList

theorem IsCount.unique {bound n m : Nat} {value : String} (h : IsCount bound value n)
    (h' : IsCount bound value m) : n = m := h.1.unique h'.1

theorem IsPause.unique {d d' : Duration} {value : String} (h : IsPause value d)
    (h' : IsPause value d') : d = d' := by
  obtain ⟨n, u, reads, -, -, rfl⟩ := h
  obtain ⟨n', u', reads', -, -, rfl⟩ := h'
  obtain ⟨rfl, rfl⟩ := reads.unique reads'
  rfl

theorem IsFraction.unique {x y : Float} {value : String} (h : IsFraction value x)
    (h' : IsFraction value y) : x = y := Except.ok.inj (h.1.symm.trans h'.1)

theorem IsServer.unique {s s' : Option Endpoint} {value : String} (h : IsServer value s)
    (h' : IsServer value s') : s = s' := by
  obtain ⟨e, reads, rfl⟩ := h
  obtain ⟨e', reads', rfl⟩ := h'
  exact reads.symm.trans reads'

theorem IsList.unique {l l' : List String} {value : String} (h : IsList value l)
    (h' : IsList value l') : l = l' := h.trans h'.symm

/-! ## What a key gives -/

/-- The error is about a key. -/
def ConfigError.Names (e : ConfigError) (key : String) : Prop :=
  ∃ value reason, e = .invalid key value reason

namespace Properties

variable {α : Type} {key : String} {default : α} {reads : String → α → Prop} {p : Properties}

theorem stated?_eq_none_iff :
    p.stated? key = none ↔ p.get? key = none ∨ p.get? key = some "" := by
  unfold stated?
  cases p.get? key with
  | none => simp
  | some value => simp [Option.filter]

theorem stated?_eq_some_iff {value : String} :
    p.stated? key = some value ↔ p.get? key = some value ∧ value ≠ "" := by
  unfold stated?
  rw [Option.filter_eq_some_iff, decide_eq_true_eq]

/-- What a key comes to: its default if it is absent or blank, and otherwise what its value stands
for. -/
def Gives (reads : String → α → Prop) (key : String) (default a : α) (p : Properties) : Prop :=
  match p.stated? key with
  | none => a = default
  | some value => reads value a

theorem gives_of_unstated {a : α} (h : p.stated? key = none) :
    p.Gives reads key default a ↔ a = default := by
  rw [Gives, h]

theorem gives_of_stated {a : α} {value : String} (h : p.stated? key = some value) :
    p.Gives reads key default a ↔ reads value a := by
  rw [Gives, h]

/-- What holds of the default and of all that a value can stand for holds of what a key gives. -/
theorem Gives.satisfies {a : α} (good : α → Prop) (h : p.Gives reads key default a)
    (usual : good default) (valid : ∀ value a, reads value a → good a) : good a := by
  cases stated : p.stated? key with
  | none => exact (gives_of_unstated stated).mp h ▸ usual
  | some value => exact valid value a ((gives_of_stated stated).mp h)

theorem Gives.bounded {bound default n : Nat} (h : p.Gives (IsCount bound) key default n)
    (usual : 0 < default ∧ default ≤ bound) : 0 < n ∧ n ≤ bound :=
  h.satisfies (fun n => 0 < n ∧ n ≤ bound) usual fun _ _ stands => stands.2

/-- A key can be absent, blank or valid. -/
theorem exists_gives_iff :
    (∃ a, p.Gives reads key default a) ↔
      p.get? key = none ∨ p.get? key = some "" ∨
        ∃ value a, p.get? key = some value ∧ reads value a := by
  cases h : p.stated? key with
  | none =>
    have unstated := stated?_eq_none_iff.mp h
    constructor
    · intro _
      rcases unstated with absent | blank
      · exact .inl absent
      · exact .inr (.inl blank)
    · intro _
      exact ⟨default, (gives_of_unstated h).mpr rfl⟩
  | some value =>
    obtain ⟨found, filled⟩ := stated?_eq_some_iff.mp h
    simp only [gives_of_stated h, found, Option.some.injEq, reduceCtorEq, filled, false_or]
    constructor
    · rintro ⟨a, stands⟩
      exact ⟨value, a, rfl, stands⟩
    · rintro ⟨value', a, rfl, stands⟩
      exact ⟨a, stands⟩

end Properties

/-! ## Readers -/

/-- A reader of one key. -/
structure ReadsKey {α : Type} (read : Properties → Except ConfigError α)
    (reads : String → α → Prop) (key : String) (default : α) : Prop where
  gives : ∀ p a, read p = .ok a ↔ p.Gives reads key default a
  names : ∀ p e, read p = .error e → e.Names key
  alone : ∀ p q : Properties, p.stated? key = q.stated? key → read p = read q

namespace ReadsKey

variable {α : Type} {read : Properties → Except ConfigError α} {reads : String → α → Prop}
  {key : String} {default : α}

/-- A key whose value is read. -/
theorem readOr {f : String → Except Refusal α}
    (stands : ∀ value a, f value = .ok a ↔ reads value a) :
    ReadsKey (Properties.readOr f key default) reads key default where
  gives p a := by
    unfold Properties.readOr
    cases h : p.stated? key with
    | none => rw [Properties.gives_of_unstated h, Except.ok.injEq, eq_comm]
    | some value => rw [Properties.gives_of_stated h, mapError_eq_ok, stands]
  names p e refused := by
    unfold Properties.readOr at refused
    cases h : p.stated? key with
    | none =>
      rw [h] at refused
      exact nomatch refused
    | some value =>
      rw [h] at refused
      dsimp only at refused
      cases read : f value with
      | ok a => rw [read] at refused; exact nomatch refused
      | error reason =>
        rw [read] at refused
        exact ⟨value, reason, (Except.error.inj refused).symm⟩
  alone p q same := by
    unfold Properties.readOr
    rw [same]

/-- A key whose value is read and then checked.  What fails the check is refused with a text of it;
the default passes. -/
theorem checked (good : α → Prop) [DecidablePred good] (text : α → String) (reason : Refusal)
    {check : α → Except ConfigError α} (spec : ReadsKey read reads key default)
    (checks : ∀ a, check a = if good a then .ok a else .error (.invalid key (text a) reason))
    (usual : good default) :
    ReadsKey (fun p => read p >>= check) (fun value a => reads value a ∧ good a) key default where
  gives p a := by
    have passes : (∃ b, read p = .ok b ∧ check b = .ok a) ↔ read p = .ok a ∧ good a := by
      simp only [checks]
      constructor
      · rintro ⟨b, gives, passed⟩
        split at passed
        · next fine =>
          obtain rfl := Except.ok.inj passed
          exact ⟨gives, fine⟩
        · exact nomatch passed
      · rintro ⟨gives, fine⟩
        exact ⟨a, gives, if_pos fine⟩
    rw [bind_eq_ok, passes, spec.gives]
    cases h : p.stated? key with
    | none =>
      rw [Properties.gives_of_unstated h, Properties.gives_of_unstated h]
      exact ⟨And.left, fun e => ⟨e, e ▸ usual⟩⟩
    | some value => rw [Properties.gives_of_stated h, Properties.gives_of_stated h]
  names p e refused := by
    rcases bind_eq_error.mp refused with unread | ⟨a, -, unchecked⟩
    · exact spec.names p e unread
    · rw [checks] at unchecked
      split at unchecked
      · exact nomatch unchecked
      · exact ⟨text a, reason, (Except.error.inj unchecked).symm⟩
  alone p q same := by
    rw [spec.alone p q same]

theorem congr {reads' : String → α → Prop} (spec : ReadsKey read reads key default)
    (same : ∀ value a, reads value a ↔ reads' value a) : ReadsKey read reads' key default := by
  have equal : reads = reads' := by
    funext value a
    exact propext (same value a)
  exact equal ▸ spec

end ReadsKey

namespace Properties

variable {key : String}

theorem positiveOr_readsKey {bound default : Nat} (usual : 1 ≤ default := by decide) :
    ReadsKey (positiveOr bound key default) (IsCount bound) key default := by
  have read : ReadsKey (wholeOr bound key default)
      (fun value n => Numeral value.toList n ∧ n ≤ bound) key default :=
    .readOr fun value n => by rw [mapError_eq_ok, readWhole_eq_ok_iff]
  refine (read.checked (1 ≤ ·) (fun _ => "0") .zero (fun n => ?_) usual).congr fun value n => ?_
  · split
    · next zero => exact (if_neg (by simp [zero])).symm
    · next other => exact (if_pos (Nat.pos_of_ne_zero other)).symm
  · rw [IsCount, and_assoc, and_comm (a := n ≤ bound)]

theorem positiveDurationOr_readsKey {default : Duration}
    (usual : 0 < default.nanos := by decide) :
    ReadsKey (positiveDurationOr key default) IsPause key default := by
  have read : ReadsKey (durationOr key default) (fun value d => Duration.parse value = .ok d)
      key default := .readOr fun value d => mapError_eq_ok
  refine (read.checked (0 < ·.nanos) (fun _ => "0") .zero (fun d => ?_) usual).congr
    fun value d => ?_
  · split
    · next zero => exact (if_neg (Duration.isZero_eq_true.mp zero)).symm
    · next other =>
      rw [Duration.isZero_eq_true, Classical.not_not] at other
      exact (if_pos other).symm
  · rw [Duration.parse_eq_ok_iff]
    constructor
    · rintro ⟨⟨n, u, reads, fits, rfl⟩, positive⟩
      refine ⟨n, u, reads, Nat.pos_of_ne_zero ?_, fits, rfl⟩
      rintro rfl
      simp [Duration.nanos_ofMillis] at positive
    · rintro ⟨n, u, reads, positive, fits, rfl⟩
      refine ⟨⟨n, u, reads, fits, rfl⟩, ?_⟩
      rw [Duration.nanos_ofMillis]
      have millis := Nat.le_trans positive (Duration.le_mul_millis n u)
      exact Nat.mul_pos millis (by decide)

theorem fractionOr_readsKey {default : Float}
    (usual : 0.0 ≤ default ∧ default ≤ 1.0 := by decide) :
    ReadsKey (fractionOr key default) IsFraction key default := by
  have read : ReadsKey (floatOr key default) (fun value x => Decimal.readFloat value.toList = .ok x)
      key default := .readOr fun value x => mapError_eq_ok
  refine (read.checked (fun x => 0.0 ≤ x ∧ x ≤ 1.0) Decimal.plain .fraction (fun x => rfl)
    usual).congr fun value x => ?_
  exact and_congr_right fun _ =>
    ⟨fun within => ⟨(Binary64.isNaN_of_le within.1).2, within⟩, And.right⟩

theorem server?_readsKey : ReadsKey (server? key) IsServer key none := by
  refine .readOr fun value server => ?_
  unfold IsServer
  cases Endpoint.parseServer? value with
  | none => simp
  | some e => simp [eq_comm]

theorem list_gives {p : Properties} {l : List String} :
    p.list key = l ↔ p.Gives IsList key [] l := by
  unfold list
  cases h : p.stated? key with
  | none =>
    rw [gives_of_unstated h, eq_comm]
    rcases stated?_eq_none_iff.mp h with absent | blank
    · rw [absent]
    · rw [blank]; rfl
  | some value =>
    rw [gives_of_stated h, (stated?_eq_some_iff.mp h).1, eq_comm]
    rfl

theorem list_congr {p q : Properties} (same : p.stated? key = q.stated? key) :
    p.list key = q.list key := by
  have there := list_gives.mp (rfl : q.list key = q.list key)
  rw [Gives, ← same] at there
  exact list_gives.mpr there

end Properties

end PingWatch
