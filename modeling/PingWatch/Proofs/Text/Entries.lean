import PingWatch.Proofs.Text.Cutting
import PingWatch.Proofs.Text.Trimming

/-!
# Entries of a text

The entries of a text are what stands between its separators, less the blanks around it and less
what is nothing but blanks.

* `mem_entries`: what an entry can be.
* `entries_blanks_append`, `entries_append_blanks`: blanks around a text do not change its entries,
  even if some of them are separators.
* `entries_eq_singleton`: a text without separators is one entry.
* `flatMap_entries`: a text cut twice, the second time at other separators, has the entries that it
  has when it is cut at both kinds at once.
-/

namespace PingWatch.Text

variable {sep sep' : Char → Bool}

/-! ## Pieces -/

theorem exists_pieces_eq_cons (sep : Char → Bool) (cs : List Char) :
    ∃ p ps, pieces sep cs = p :: ps := List.exists_cons_of_ne_nil (pieces_ne_nil sep cs)

theorem pieces_cons_of_sep {c : Char} (hc : sep c = true) (cs : List Char) :
    pieces sep (c :: cs) = [] :: pieces sep cs := by
  rw [pieces, if_pos hc]

theorem pieces_cons_of_not {c : Char} (hc : sep c = false) {cs p : List Char}
    {ps : List (List Char)} (h : pieces sep cs = p :: ps) :
    pieces sep (c :: cs) = (c :: p) :: ps := by
  rw [pieces, if_neg (Bool.eq_false_iff.mp hc), h]

/-- A character that is no separator goes to the last piece. -/
theorem exists_pieces_concat {c : Char} (hc : sep c = false) (cs : List Char) :
    ∃ init last, pieces sep cs = init ++ [last] ∧
      pieces sep (cs ++ [c]) = init ++ [last ++ [c]] := by
  induction cs with
  | nil => exact ⟨[], [], rfl, pieces_cons_of_not hc rfl⟩
  | cons d cs ih =>
    obtain ⟨init, last, before, after⟩ := ih
    cases hd : sep d with
    | true =>
      refine ⟨[] :: init, last, ?_, ?_⟩
      · rw [pieces_cons_of_sep hd, before, List.cons_append]
      · rw [List.cons_append, pieces_cons_of_sep hd, after, List.cons_append]
    | false =>
      cases init with
      | nil => exact ⟨[], d :: last, pieces_cons_of_not hd before, pieces_cons_of_not hd after⟩
      | cons p init =>
        exact ⟨(d :: p) :: init, last, pieces_cons_of_not hd before, pieces_cons_of_not hd after⟩

/-- A piece holds no separator, and nothing that the text does not hold. -/
theorem mem_pieces {cs p : List Char} (hp : p ∈ pieces sep cs) :
    ∀ c ∈ p, c ∈ cs ∧ sep c = false := by
  induction cs generalizing p with
  | nil =>
    rw [pieces_nil, List.mem_singleton] at hp
    simp [hp]
  | cons d cs ih =>
    have later : ∀ q ∈ pieces sep cs, ∀ c ∈ q, c ∈ d :: cs ∧ sep c = false :=
      fun q hq c hc => ⟨List.mem_cons_of_mem _ (ih hq c hc).1, (ih hq c hc).2⟩
    cases hd : sep d with
    | true =>
      rw [pieces_cons_of_sep hd, List.mem_cons] at hp
      rcases hp with rfl | hp
      · simp
      · exact later p hp
    | false =>
      obtain ⟨q, qs, h⟩ := exists_pieces_eq_cons sep cs
      rw [h, List.forall_mem_cons] at later
      rw [pieces_cons_of_not hd h, List.mem_cons] at hp
      rcases hp with rfl | hp
      · exact List.forall_mem_cons.mpr ⟨⟨List.mem_cons_self, hd⟩, later.1⟩
      · exact later.2 p hp

/-- Where a text is cut is a matter of the characters that it holds. -/
theorem pieces_congr {cs : List Char} (same : ∀ c ∈ cs, sep c = sep' c) :
    pieces sep cs = pieces sep' cs := by
  induction cs with
  | nil => rfl
  | cons c cs ih =>
    rw [List.forall_mem_cons] at same
    rw [pieces, pieces, same.1, ih same.2]

/-- Pieces that are cut at other separators are cut at both kinds. -/
theorem flatMap_pieces (sep sep' : Char → Bool) (cs : List Char) :
    (pieces sep cs).flatMap (pieces sep') = pieces (fun c => sep c || sep' c) cs := by
  induction cs with
  | nil => rfl
  | cons c cs ih =>
    obtain ⟨p, ps, h⟩ := exists_pieces_eq_cons sep cs
    cases hc : sep c with
    | true =>
      have cut := @pieces_cons_of_sep (fun c => sep c || sep' c) c (by simp [hc]) cs
      rw [pieces_cons_of_sep hc, cut, List.flatMap_cons, ih]
      rfl
    | false =>
      rw [h, List.flatMap_cons] at ih
      rw [pieces_cons_of_not hc h, List.flatMap_cons]
      cases hc' : sep' c with
      | true =>
        have cut := @pieces_cons_of_sep (fun c => sep c || sep' c) c (by simp [hc']) cs
        rw [pieces_cons_of_sep hc', cut, ← ih, List.cons_append]
      | false =>
        obtain ⟨q, qs, h'⟩ := exists_pieces_eq_cons sep' p
        rw [h', List.cons_append] at ih
        have neither : (sep c || sep' c) = false := by simp [hc, hc']
        have uncut := @pieces_cons_of_not (fun c => sep c || sep' c) c neither _ _ _ ih.symm
        rw [pieces_cons_of_not hc' h', uncut, List.cons_append]

/-! ## Entries -/

theorem entries_nil (sep : Char → Bool) : entries sep [] = [] := rfl

theorem entries_congr {cs : List Char} (same : ∀ c ∈ cs, sep c = sep' c) :
    entries sep cs = entries sep' cs := by
  rw [entries, entries, pieces_congr same]

theorem flatMap_entries (sep sep' : Char → Bool) (cs : List Char) :
    (pieces sep cs).flatMap (entries sep') = entries (fun c => sep c || sep' c) cs := by
  unfold entries
  rw [← flatMap_pieces, List.map_flatMap, List.filter_flatMap]

/-- An entry is trimmed, it is not empty, and it holds no separator. -/
theorem mem_entries {cs e : List Char} (he : e ∈ entries sep cs) :
    e ≠ [] ∧ trim e = e ∧ ∀ c ∈ e, c ∈ cs ∧ sep c = false := by
  obtain ⟨cut, filled⟩ := List.mem_filter.mp he
  obtain ⟨p, hp, rfl⟩ := List.mem_map.mp cut
  exact ⟨of_decide_eq_true filled, trim_trim p, fun c hc => mem_pieces hp c (mem_of_mem_trim hc)⟩

/-- A text without separators is one entry, unless it is blank. -/
theorem entries_eq_singleton {cs : List Char} (free : ∀ c ∈ cs, sep c = false)
    (filled : trim cs ≠ []) : entries sep cs = [trim cs] := by
  rw [entries, pieces_eq_singleton free]
  simp [filled]

theorem entries_cons_blank {b : Char} (hb : isBlank b = true) (cs : List Char) :
    entries sep (b :: cs) = entries sep cs := by
  cases hsep : sep b with
  | true => simpa [entries_nil] using entries_append_sep hsep [] cs
  | false =>
    obtain ⟨p, ps, h⟩ := exists_pieces_eq_cons sep cs
    have same : trim (b :: p) = trim p :=
      trim_blanks_append (List.forall_mem_singleton.mpr hb) p
    rw [entries, entries, pieces_cons_of_not hsep h, h, List.map_cons, List.map_cons, same]

theorem entries_concat_blank {b : Char} (hb : isBlank b = true) (cs : List Char) :
    entries sep (cs ++ [b]) = entries sep cs := by
  cases hsep : sep b with
  | true => simpa [entries_nil] using entries_append_sep hsep cs []
  | false =>
    obtain ⟨init, last, before, after⟩ := exists_pieces_concat hsep cs
    have same : trim (last ++ [b]) = trim last :=
      trim_append_blanks (List.forall_mem_singleton.mpr hb) last
    rw [entries, entries, before, after, List.map_append, List.map_append, List.map_singleton,
      List.map_singleton, same]

/-- Blanks before a text do not change its entries. -/
theorem entries_blanks_append {bs : List Char} (hb : ∀ b ∈ bs, isBlank b = true)
    (cs : List Char) : entries sep (bs ++ cs) = entries sep cs := by
  induction bs with
  | nil => rfl
  | cons b bs ih =>
    rw [List.forall_mem_cons] at hb
    rw [List.cons_append, entries_cons_blank hb.1, ih hb.2]

/-- Blanks after a text do not change its entries. -/
theorem entries_append_blanks {bs : List Char} (hb : ∀ b ∈ bs, isBlank b = true)
    (cs : List Char) : entries sep (cs ++ bs) = entries sep cs := by
  induction bs generalizing cs with
  | nil => rw [List.append_nil]
  | cons b bs ih =>
    rw [List.forall_mem_cons] at hb
    rw [List.append_cons, ih hb.2, entries_concat_blank hb.1]

/-- A text of blanks has no entries. -/
theorem entries_of_blank {bs : List Char} (hb : ∀ b ∈ bs, isBlank b = true) :
    entries sep bs = [] := by
  have h := @entries_blanks_append sep bs hb []
  rwa [List.append_nil] at h

end PingWatch.Text
