import PingWatch.Duration.Text
import PingWatch.Proofs.Text.Numeral
import PingWatch.Proofs.Text.Trimming

/-!
# The grammar of lengths of time

A length of time is written as a numeral and the symbol of a unit, with blanks around each of them
if need be (`Duration.Reads`).  One symbol ends in another, so a text may end in two of them; but in
front of the shorter one there is then a letter, and no numeral.

* `Duration.cutUnit_eq_some_iff`: the unit that is cut off is the one at the end of the text.
* `Duration.Reads.unique`: a text is a number of one unit at most.
* `Duration.parse_eq_ok_iff`: what is read are the texts of the grammar whose milliseconds can be
  counted.
-/

namespace PingWatch

open Text

theorem Text.dropEnding_eq_some_iff {ending cs front : List Char} :
    dropEnding ending cs = some front ↔ cs = front ++ ending := by
  unfold dropEnding
  constructor
  · intro h
    split at h
    · next same =>
      obtain rfl := Option.some.inj h
      have split := List.take_append_drop (cs.length - ending.length) cs
      rw [same.2] at split
      exact split.symm
    · exact absurd h (by simp)
  · rintro rfl
    have front_length : (front ++ ending).length - ending.length = front.length := by
      rw [List.length_append, Nat.add_sub_cancel]
    rw [front_length, List.drop_left, List.take_left]
    exact if_pos ⟨by simp, rfl⟩

theorem Text.dropEnding_append (front ending : List Char) :
    dropEnding ending (front ++ ending) = some front := dropEnding_eq_some_iff.mpr rfl

/-- A text with another last character has not this ending. -/
theorem Text.dropEnding_of_last_ne (init front : List Char) {c d : Char} (h : c ≠ d) :
    dropEnding (init ++ [d]) (front ++ [c]) = none := by
  rw [Option.eq_none_iff_forall_ne_some]
  intro cut found
  have last := congrArg List.getLast? (dropEnding_eq_some_iff.mp found)
  rw [← List.append_assoc, List.getLast?_concat, List.getLast?_concat] at last
  exact h (Option.some.inj last)

namespace Duration

/-- The texts that stand for `n` of a unit. -/
def Reads (s : String) (n : Nat) (u : TimeUnit) : Prop :=
  ∃ num, trim s.toList = num ++ u.symbol ∧ Numeral (trim num) n

/-- A unit at the end of a text is cut off, unless it is a second with an `m` before it. -/
theorem cutUnit_append {num : List Char} {u : TimeUnit}
    (second : u = .second → num.getLast? ≠ some 'm') :
    cutUnit (num ++ u.symbol) = some (num, u) := by
  have ms_of_last_ne : ∀ {c}, c ≠ 's' → dropEnding ['m', 's'] (num ++ [c]) = none :=
    fun h => dropEnding_of_last_ne ['m'] num h
  have of_last_ne : ∀ {c d}, c ≠ d → dropEnding [d] (num ++ [c]) = none :=
    fun h => dropEnding_of_last_ne [] num h
  unfold cutUnit TimeUnit.all
  cases u with
  | millisecond => simp [TimeUnit.symbol, dropEnding_append]
  | second =>
    have no_ms : dropEnding ['m', 's'] (num ++ ['s']) = none := by
      rw [Option.eq_none_iff_forall_ne_some]
      intro front found
      have same : num ++ ['s'] = (front ++ ['m']) ++ ['s'] := by
        rw [List.append_assoc]
        exact dropEnding_eq_some_iff.mp found
      rw [List.append_cancel_right same] at second
      exact second rfl List.getLast?_concat
    simp [TimeUnit.symbol, dropEnding_append, no_ms]
  | minute =>
    simp [TimeUnit.symbol, dropEnding_append, ms_of_last_ne, of_last_ne]
  | hour =>
    simp [TimeUnit.symbol, dropEnding_append, ms_of_last_ne, of_last_ne]

theorem cutUnit_eq_some_iff {cs num : List Char} {u : TimeUnit} :
    cutUnit cs = some (num, u) ↔
      cs = num ++ u.symbol ∧ (u = .second → num.getLast? ≠ some 'm') := by
  constructor
  · intro cut
    have ends : cs = num ++ u.symbol := by
      obtain ⟨u', -, found⟩ := List.exists_of_findSome?_eq_some cut
      obtain ⟨front, dropped, same⟩ := Option.map_eq_some_iff.mp found
      obtain ⟨rfl, rfl⟩ := Prod.mk.inj same
      exact dropEnding_eq_some_iff.mp dropped
    refine ⟨ends, ?_⟩
    rintro rfl last
    -- With an `m` before it the text ends in a millisecond, and that is cut off first.
    obtain ⟨init, rfl⟩ := List.getLast?_eq_some_iff.mp last
    have shorter : cutUnit cs = some (init, .millisecond) := by
      rw [ends, List.append_assoc]
      exact cutUnit_append (u := .millisecond) (by simp)
    exact absurd (cut.symm.trans shorter) (by simp)
  · rintro ⟨rfl, second⟩
    exact cutUnit_append second

/-- A unit with a numeral before it is the one that is cut off: no numeral ends in a letter. -/
theorem Reads.cutUnit {s : String} {n : Nat} {u : TimeUnit} (h : Reads s n u) :
    ∃ num, cutUnit (trim s.toList) = some (num, u) ∧ Numeral (trim num) n := by
  obtain ⟨num, ends, numeral⟩ := h
  refine ⟨num, cutUnit_eq_some_iff.mpr ⟨ends, fun _ last => ?_⟩, numeral⟩
  have letter : 'm' ∈ trim num := (mem_trim_iff rfl).mpr (List.mem_of_getLast? last)
  exact absurd (numeral.mem letter) (by decide)

/-- A text is a number of one unit at most. -/
theorem Reads.unique {s : String} {n n' : Nat} {u u' : TimeUnit} (h : Reads s n u)
    (h' : Reads s n' u') : n = n' ∧ u = u' := by
  obtain ⟨num, cut, numeral⟩ := h.cutUnit
  obtain ⟨num', cut', numeral'⟩ := h'.cutUnit
  obtain ⟨rfl, rfl⟩ := Prod.mk.inj (Option.some.inj (cut.symm.trans cut'))
  exact ⟨numeral.unique numeral', rfl⟩

/-- A unit is at least a millisecond. -/
theorem le_mul_millis (n : Nat) (u : TimeUnit) : n ≤ n * u.millis :=
  Nat.le_mul_of_pos_right n (by cases u <;> decide)

/-- What is read are the texts of the grammar whose milliseconds can be counted. -/
theorem parse_eq_ok_iff {s : String} {d : Duration} :
    parse s = .ok d ↔
      ∃ n u, Reads s n u ∧ n * u.millis ≤ mostMillis ∧ d = .ofMillis (n * u.millis) := by
  constructor
  · intro h
    unfold parse at h
    split at h
    · exact absurd h (by simp)
    · next num u cut =>
      split at h
      · exact absurd h (by simp)
      · next n read =>
        split at h
        · exact absurd h (by simp)
        · next fits =>
          have reads : Reads s n u :=
            ⟨num, (cutUnit_eq_some_iff.mp cut).1, (readWhole_eq_ok_iff.mp read).1⟩
          exact ⟨n, u, reads, Nat.le_of_not_lt fits, (Except.ok.inj h).symm⟩
  · rintro ⟨n, u, reads, fits, rfl⟩
    obtain ⟨num, cut, numeral⟩ := reads.cutUnit
    have read : readWhole mostMillis (trim num) = .ok n :=
      readWhole_eq_ok_iff.mpr ⟨numeral, Nat.le_trans (le_mul_millis n u) fits⟩
    simp only [parse, cut, read, if_neg (Nat.not_lt.mpr fits)]

/-- **The grammar of lengths of time.**  A text is read if and only if its trimmed form is a
numeral, itself with blanks around it if need be, and the symbol of a unit, such that neither the
number nor its milliseconds are more than can be counted; it is then read as that many milliseconds.
There are not two such readings of one text.  Every other text is refused. -/
theorem parse_accepts_grammar (s : String) :
    (∀ d, parse s = .ok d ↔
      ∃ n u, Reads s n u ∧ n < UInt64.size ∧ n * u.millis < UInt64.size ∧
        d = .ofMillis (n * u.millis)) ∧
    (∀ n n' u u', Reads s n u → Reads s n' u' → n = n' ∧ u = u') ∧
    ((∃ e, parse s = .error e) ↔
      ¬∃ n u, Reads s n u ∧ n < UInt64.size ∧ n * u.millis < UInt64.size) := by
  have accepts : ∀ d, parse s = .ok d ↔
      ∃ n u, Reads s n u ∧ n < UInt64.size ∧ n * u.millis < UInt64.size ∧
        d = .ofMillis (n * u.millis) := by
    intro d
    rw [parse_eq_ok_iff]
    constructor
    · rintro ⟨n, u, reads, fits, rfl⟩
      have small : n * u.millis < UInt64.size := Nat.lt_succ_of_le fits
      exact ⟨n, u, reads, Nat.lt_of_le_of_lt (le_mul_millis n u) small, small, rfl⟩
    · rintro ⟨n, u, reads, -, small, rfl⟩
      exact ⟨n, u, reads, Nat.le_of_lt_succ small, rfl⟩
  refine ⟨accepts, fun n n' u u' => Reads.unique, ?_⟩
  constructor
  · rintro ⟨e, refused⟩ ⟨n, u, reads, small, fits⟩
    have read := (accepts _).mpr ⟨n, u, reads, small, fits, rfl⟩
    exact absurd (refused.symm.trans read) (by simp)
  · intro unread
    cases outcome : parse s with
    | error e => exact ⟨e, rfl⟩
    | ok d =>
      obtain ⟨n, u, reads, small, fits, -⟩ := (accepts d).mp outcome
      exact absurd ⟨n, u, reads, small, fits⟩ unread

/-- The most milliseconds, with all that may stand around their digits.  The text ends in the symbol
of a second too, but it is no number of seconds. -/
theorem longest_is_read :
    parse " +0018446744073709551615 ms\n" = .ok (.ofMillis 18446744073709551615) ∧
      ∀ n u, Reads " +0018446744073709551615 ms\n" n u →
        18446744073709551615 = n ∧ TimeUnit.millisecond = u := by
  have reads : Reads " +0018446744073709551615 ms\n" 18446744073709551615 .millisecond :=
    ⟨"+0018446744073709551615 ".toList, by rfl,
      "0018446744073709551615".toList, .inr rfl, by simp, by simp [Char.isDigit], rfl⟩
  obtain ⟨accepts, unique, -⟩ := parse_accepts_grammar " +0018446744073709551615 ms\n"
  exact ⟨(accepts _).mpr ⟨_, _, reads, by decide, by decide, rfl⟩,
    fun n u reads' => unique _ n _ u reads reads'⟩

end Duration

end PingWatch
