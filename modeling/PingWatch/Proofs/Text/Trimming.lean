import PingWatch.Text.Blank

/-!
# What trimming keeps

Trimming takes blanks off both ends of a text and nothing else (`exists_blanks`).  So trimming
again changes nothing (`trim_trim`), no character but a blank is lost (`mem_trim_iff`), and around a
character that stays both sides are trimmed on their own (`trim_append_cons`).
-/

namespace PingWatch.Text

variable {c : Char} {cs : List Char}

theorem exists_blanks_trimStart (cs : List Char) :
    ∃ bs, (∀ b ∈ bs, isBlank b = true) ∧ bs ++ trimStart cs = cs := by
  refine ⟨cs.takeWhile isBlank, fun b hb => ?_, List.takeWhile_append_dropWhile⟩
  exact List.all_eq_true.mp List.all_takeWhile b hb

theorem exists_trimEnd_blanks (cs : List Char) :
    ∃ bs, (∀ b ∈ bs, isBlank b = true) ∧ trimEnd cs ++ bs = cs := by
  induction cs with
  | nil => exact ⟨[], by simp, rfl⟩
  | cons c cs ih =>
    obtain ⟨bs, blank, same⟩ := ih
    unfold trimEnd
    cases kept : trimEnd cs with
    | nil =>
      rw [kept, List.nil_append] at same
      cases hc : isBlank c with
      | true => exact ⟨c :: bs, List.forall_mem_cons.mpr ⟨hc, blank⟩, by simp [same]⟩
      | false => exact ⟨bs, blank, by simp [same]⟩
    | cons d ds =>
      rw [kept] at same
      exact ⟨bs, blank, by simp [← same]⟩

/-- A text is its trimmed text with blanks around it. -/
theorem exists_blanks (cs : List Char) :
    ∃ as bs, (∀ a ∈ as, isBlank a = true) ∧ (∀ b ∈ bs, isBlank b = true) ∧
      as ++ trim cs ++ bs = cs := by
  obtain ⟨as, front, hcs⟩ := exists_blanks_trimStart cs
  obtain ⟨bs, behind, hrest⟩ := exists_trimEnd_blanks (trimStart cs)
  exact ⟨as, bs, front, behind, by rw [List.append_assoc, trim, hrest, hcs]⟩

/-- Blanks around a text do not change what it trims to. -/
theorem trim_between {as bs : List Char} (front : ∀ a ∈ as, isBlank a = true)
    (behind : ∀ b ∈ bs, isBlank b = true) (cs : List Char) :
    trim (as ++ cs ++ bs) = trim cs := by
  rw [trim_append_blanks behind, trim_blanks_append front]

theorem trim_trim (cs : List Char) : trim (trim cs) = trim cs := by
  obtain ⟨as, bs, front, behind, same⟩ := exists_blanks cs
  have h := trim_between front behind (trim cs)
  rwa [same, eq_comm] at h

theorem trim_trimStart (cs : List Char) : trim (trimStart cs) = trim cs := by
  obtain ⟨as, front, same⟩ := exists_blanks_trimStart cs
  have h := trim_blanks_append front (trimStart cs)
  rwa [same, eq_comm] at h

theorem trim_trimEnd (cs : List Char) : trim (trimEnd cs) = trim cs := by
  obtain ⟨bs, behind, same⟩ := exists_trimEnd_blanks cs
  have h := trim_append_blanks behind (trimEnd cs)
  rwa [same, eq_comm] at h

theorem mem_of_mem_trim (h : c ∈ trim cs) : c ∈ cs := by
  obtain ⟨as, bs, -, -, same⟩ := exists_blanks cs
  rw [← same]
  exact List.mem_append_left _ (List.mem_append_right _ h)

/-- Trimming loses no character but blanks. -/
theorem mem_trim_iff (hc : isBlank c = false) : c ∈ trim cs ↔ c ∈ cs := by
  refine ⟨mem_of_mem_trim, fun h => ?_⟩
  obtain ⟨as, bs, front, behind, same⟩ := exists_blanks cs
  rw [← same, List.mem_append, List.mem_append] at h
  rcases h with (h | h) | h
  · exact absurd (front c h) (by simp [hc])
  · exact h
  · exact absurd (behind c h) (by simp [hc])

/-- Without blanks there is nothing to trim. -/
theorem trim_eq_self (solid : ∀ c ∈ cs, isBlank c = false) : trim cs = cs := by
  obtain ⟨as, bs, front, behind, same⟩ := exists_blanks cs
  have none_of (l : List Char) (blank : ∀ c ∈ l, isBlank c = true) (part : ∀ c ∈ l, c ∈ cs) :
      l = [] := by
    rw [List.eq_nil_iff_forall_not_mem]
    intro c hc
    exact absurd (blank c hc) (by simp [solid c (part c hc)])
  have noFront : as = [] := none_of as front fun c hc => by rw [← same]; simp [hc]
  have noBehind : bs = [] := none_of bs behind fun c hc => by rw [← same]; simp [hc]
  rwa [noFront, noBehind, List.nil_append, List.append_nil] at same

theorem trimStart_append_cons (hc : isBlank c = false) (ks vs : List Char) :
    trimStart (ks ++ c :: vs) = trimStart ks ++ c :: vs := by
  induction ks with
  | nil => exact trimStart_cons_of_not hc vs
  | cons k ks ih =>
    cases hk : isBlank k with
    | true => rw [List.cons_append, trimStart_cons_blank hk, trimStart_cons_blank hk, ih]
    | false => rw [List.cons_append, trimStart_cons_of_not hk, trimStart_cons_of_not hk]; rfl

theorem trimEnd_append_cons (hc : isBlank c = false) (ks vs : List Char) :
    trimEnd (ks ++ c :: vs) = ks ++ c :: trimEnd vs := by
  induction ks with
  | nil =>
    rw [List.nil_append, List.nil_append, trimEnd]
    cases trimEnd vs with
    | nil => simp [hc]
    | cons d ds => rfl
  | cons k ks ih =>
    rw [List.cons_append, trimEnd, ih]
    cases ks <;> rfl

/-- Around a character that is no blank both sides are trimmed on their own. -/
theorem trim_append_cons (hc : isBlank c = false) (ks vs : List Char) :
    trim (ks ++ c :: vs) = trimStart ks ++ c :: trimEnd vs := by
  rw [trim, trimStart_append_cons hc, trimEnd_append_cons hc]

theorem head?_trimEnd (h : trimEnd cs ≠ []) : (trimEnd cs).head? = cs.head? := by
  cases cs with
  | nil => rfl
  | cons c cs =>
    unfold trimEnd at h ⊢
    cases kept : trimEnd cs with
    | nil =>
      cases hc : isBlank c with
      | true => simp [kept, hc] at h
      | false => simp
    | cons d ds => rfl

/-- What is left after trimming begins as the text does behind its blanks. -/
theorem head?_trim (h : trim cs ≠ []) : (trim cs).head? = (trimStart cs).head? :=
  head?_trimEnd h

end PingWatch.Text
