/-!
# White space

A character is blank when it has the Unicode property White_Space.  `trim` removes blanks from both
ends of a text.  Main statements: blanks before or after a text do not change what it trims to, and
only a text of blanks trims to nothing.
-/

namespace PingWatch.Text

/-- Whether a character has the Unicode property White_Space. -/
def isBlank (c : Char) : Bool :=
  let n := c.toNat
  (9 ≤ n && n ≤ 13) || n == 0x20 || n == 0x85 || n == 0xa0 || n == 0x1680
    || (0x2000 ≤ n && n ≤ 0x200a) || n == 0x2028 || n == 0x2029 || n == 0x202f || n == 0x205f
    || n == 0x3000

/-- Removes the blanks at the front. -/
def trimStart (cs : List Char) : List Char := cs.dropWhile isBlank

/-- Removes the blanks at the end. -/
def trimEnd : List Char → List Char
  | [] => []
  | c :: cs =>
    match trimEnd cs with
    | [] => if isBlank c then [] else [c]
    | d :: ds => c :: d :: ds

/-- Removes the blanks at both ends. -/
def trim (cs : List Char) : List Char := trimEnd (trimStart cs)

/-- A string without the blanks at both ends. -/
def trimmed (s : String) : String := .ofList (trim s.toList)

/-! ### Lemmas -/

@[simp] theorem trimStart_nil : trimStart [] = [] := rfl

@[simp] theorem trimEnd_nil : trimEnd [] = [] := rfl

theorem trimStart_cons_blank {c : Char} (h : isBlank c = true) (cs : List Char) :
    trimStart (c :: cs) = trimStart cs := by
  simp [trimStart, h]

theorem trimStart_cons_of_not {c : Char} (h : isBlank c = false) (cs : List Char) :
    trimStart (c :: cs) = c :: cs := by
  simp [trimStart, h]

/-- Only a text of blanks trims to nothing at its end. -/
theorem trimEnd_eq_nil_iff {cs : List Char} : trimEnd cs = [] ↔ ∀ c ∈ cs, isBlank c = true := by
  induction cs with
  | nil => simp
  | cons c cs ih =>
    unfold trimEnd
    cases h : trimEnd cs with
    | nil => by_cases hc : isBlank c <;> simp_all
    | cons d ds => simp_all

/-- Blanks at the end do not matter. -/
theorem trimEnd_append_blanks {bs : List Char} (hb : ∀ b ∈ bs, isBlank b = true)
    (cs : List Char) : trimEnd (cs ++ bs) = trimEnd cs := by
  induction cs with
  | nil => simpa using trimEnd_eq_nil_iff.2 hb
  | cons c cs ih => simp only [List.cons_append, trimEnd, ih]

/-- Blanks at the front do not matter. -/
theorem trimStart_blanks_append {bs : List Char} (hb : ∀ b ∈ bs, isBlank b = true)
    (cs : List Char) : trimStart (bs ++ cs) = trimStart cs := by
  induction bs with
  | nil => rfl
  | cons b bs ih =>
    rw [List.cons_append, trimStart_cons_blank (hb b (by simp))]
    exact ih fun x hx => hb x (by simp [hx])

/-- Blanks before a text do not change what it trims to. -/
theorem trim_blanks_append {bs : List Char} (hb : ∀ b ∈ bs, isBlank b = true) (cs : List Char) :
    trim (bs ++ cs) = trim cs := by
  rw [trim, trimStart_blanks_append hb, trim]

/-- Blanks after a text do not change what it trims to. -/
theorem trim_append_blanks {bs : List Char} (hb : ∀ b ∈ bs, isBlank b = true) (cs : List Char) :
    trim (cs ++ bs) = trim cs := by
  induction cs with
  | nil =>
    have h := trim_blanks_append hb []
    rwa [List.append_nil] at h
  | cons c cs ih =>
    unfold trim at ih ⊢
    cases hc : isBlank c with
    | true => rw [List.cons_append, trimStart_cons_blank hc, trimStart_cons_blank hc, ih]
    | false =>
      rw [List.cons_append, trimStart_cons_of_not hc, trimStart_cons_of_not hc,
        ← List.cons_append, trimEnd_append_blanks hb]

/-- Only a text of blanks trims to nothing. -/
theorem trim_eq_nil_iff {cs : List Char} : trim cs = [] ↔ ∀ c ∈ cs, isBlank c = true := by
  constructor
  · intro h
    induction cs with
    | nil => simp
    | cons c cs ih =>
      unfold trim at h ih
      cases hc : isBlank c with
      | true =>
        rw [trimStart_cons_blank hc] at h
        simpa [hc] using ih h
      | false =>
        rw [trimStart_cons_of_not hc, trimEnd_eq_nil_iff] at h
        exact h
  · intro h
    have e := trim_blanks_append h []
    rwa [List.append_nil] at e

end PingWatch.Text
