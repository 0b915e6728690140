import PingWatch.Proofs.Config.Lines
import PingWatch.Proofs.Text.Entries
import PingWatch.Target

/-!
# Lists of targets

A list of targets is written with commas and line ends between them, in any mixture, and with blanks
around them; where there are only blanks between two separators, no target is (`Target.Listed`).
Every text is such a list.

* `Target.parseList_eq`: lines and the parts of a line are cut by one and the same rule.
* `Target.parseList_eq_iff`: a text is read as the list that is written in it.
* `Properties.map_list_eq`: a value on one line is read like such a text.
* `target_lists_agree`: what can be read, how it can be written, and that a properties file and a
  list of its own are read alike.
-/

namespace PingWatch

open Text

namespace Target

/-! ## The written form -/

/-- The targets that a list can hold. -/
structure IsEntry (t : Target) : Prop where
  filled : t.address ≠ ""
  trimmed : trimmed t.address = t.address
  uncut : ',' ∉ t.address.toList
  oneLine : '\n' ∉ t.address.toList

/-- What stands between two separators: nothing but blanks, or a target with blanks around it. -/
inductive Slot : List Char → Option Target → Prop
  | blank {bs : List Char} (blank : ∀ b ∈ bs, isBlank b = true) : Slot bs none
  | entry {t : Target} {as bs : List Char} (entry : t.IsEntry)
      (blank : ∀ c ∈ as ++ bs, isBlank c = true) : Slot (as ++ t.address.toList ++ bs) (some t)

/-- What separates two targets: a comma or a line end, perhaps with a carriage return before it. -/
def IsEnd (cs : List Char) : Prop := cs = [','] ∨ cs = ['\n'] ∨ cs = ['\r', '\n']

/-- The targets that are written in a text. -/
inductive Listed : List Char → List Target → Prop
  | last {cs : List Char} {o : Option Target} (slot : Slot cs o) : Listed cs o.toList
  | more {cs ending rest : List Char} {o : Option Target} {ts : List Target} (slot : Slot cs o)
      (hend : IsEnd ending) (listed : Listed rest ts) :
      Listed (cs ++ ending ++ rest) (o.toList ++ ts)

/-- Whether a character separates two targets. -/
def isBreak (c : Char) : Bool := c = '\n' || c = ','

theorem isBreak_iff {c : Char} : isBreak c = true ↔ c = '\n' ∨ c = ',' := by
  simp [isBreak]

theorem isBreak_free_iff {cs : List Char} :
    (∀ c ∈ cs, isBreak c = false) ↔ ',' ∉ cs ∧ '\n' ∉ cs := by
  constructor
  · intro free
    exact ⟨fun h => absurd (free _ h) (by decide), fun h => absurd (free _ h) (by decide)⟩
  · rintro ⟨comma, line⟩ c hc
    rw [Bool.eq_false_iff]
    intro hbreak
    rcases isBreak_iff.mp hbreak with rfl | rfl
    · exact line hc
    · exact comma hc

/-! ## Reading -/

/-- Cutting at the line ends first and at the commas of each line then is cutting at both. -/
theorem parseList_eq (content : String) :
    parseList content = (entries isBreak content.toList).map fun cs => ⟨.ofList cs⟩ :=
  congrArg (List.map _) (flatMap_entries (· = '\n') (· = ',') content.toList)

theorem IsEntry.trim_eq {t : Target} (h : t.IsEntry) :
    trim t.address.toList = t.address.toList := by
  rw [← Properties.toList_trimmed, h.trimmed]

/-- What is read can be written. -/
theorem isEntry_of_mem {content : String} {t : Target} (ht : t ∈ parseList content) :
    t.IsEntry := by
  rw [parseList_eq] at ht
  obtain ⟨cs, hcs, rfl⟩ := List.mem_map.mp ht
  obtain ⟨filled, same, free⟩ := mem_entries hcs
  obtain ⟨comma, line⟩ := isBreak_free_iff.mp fun c hc => (free c hc).2
  constructor
  · show String.ofList cs ≠ ""
    rwa [Ne, ← String.toList_eq_nil_iff, String.toList_ofList]
  · show trimmed (.ofList cs) = .ofList cs
    rw [trimmed, String.toList_ofList, same]
  · show ',' ∉ (String.ofList cs).toList
    rwa [String.toList_ofList]
  · show '\n' ∉ (String.ofList cs).toList
    rwa [String.toList_ofList]

theorem Slot.entries_eq {cs : List Char} {o : Option Target} (h : Slot cs o) :
    entries isBreak cs = o.toList.map (·.address.toList) := by
  cases h with
  | blank blank => exact entries_of_blank blank
  | @entry t as bs entry blank =>
    rw [List.forall_mem_append] at blank
    have free := isBreak_free_iff.mpr ⟨entry.uncut, entry.oneLine⟩
    have filled : trim t.address.toList ≠ [] := by
      rw [entry.trim_eq, Ne, String.toList_eq_nil_iff]
      exact entry.filled
    rw [entries_append_blanks blank.2, entries_blanks_append blank.1,
      entries_eq_singleton free filled, entry.trim_eq]
    rfl

/-- A separator separates entries.  The carriage return before a line feed is one more blank. -/
theorem entries_append_end {ending : List Char} (hend : IsEnd ending) (as bs : List Char) :
    entries isBreak (as ++ ending ++ bs) = entries isBreak as ++ entries isBreak bs := by
  rcases hend with rfl | rfl | rfl
  · rw [List.append_assoc]
    exact entries_append_sep rfl as bs
  · rw [List.append_assoc]
    exact entries_append_sep rfl as bs
  · have shape : as ++ ['\r', '\n'] ++ bs = (as ++ ['\r']) ++ '\n' :: bs := by simp
    rw [shape, entries_append_sep rfl, entries_concat_blank rfl]

theorem Listed.entries_eq {cs : List Char} {ts : List Target} (h : Listed cs ts) :
    entries isBreak cs = ts.map (·.address.toList) := by
  induction h with
  | last slot => exact slot.entries_eq
  | more slot hend listed ih => rw [entries_append_end hend, slot.entries_eq, ih, List.map_append]

/-- What stands between two separators is a target, unless it is blank. -/
theorem exists_slot {cs : List Char} (free : ∀ c ∈ cs, isBreak c = false) :
    ∃ o, Slot cs o := by
  by_cases blank : trim cs = []
  · exact ⟨none, .blank (trim_eq_nil_iff.mp blank)⟩
  · obtain ⟨as, bs, has, hbs, same⟩ := exists_blanks cs
    obtain ⟨comma, line⟩ := isBreak_free_iff.mp fun c hc => free c (mem_of_mem_trim hc)
    have text : (String.ofList (trim cs)).toList = trim cs := String.toList_ofList
    have entry : IsEntry ⟨.ofList (trim cs)⟩ :=
      { filled := by rwa [Ne, ← String.toList_eq_nil_iff, text]
        trimmed := by rw [trimmed, text, trim_trim]
        uncut := by rwa [text]
        oneLine := by rwa [text] }
    have slot := Slot.entry entry (List.forall_mem_append.mpr ⟨has, hbs⟩)
    rw [text, same] at slot
    exact ⟨_, slot⟩

/-- Every text is a list. -/
theorem exists_listed (cs : List Char) : ∃ ts, Listed cs ts := by
  cases cut : cutFirst isBreak cs with
  | none =>
    obtain ⟨o, slot⟩ := exists_slot (cutFirst_eq_none_iff.mp cut)
    exact ⟨_, .last slot⟩
  | some parts =>
    obtain ⟨front, rest⟩ := parts
    obtain ⟨c, hc, rfl, free⟩ := cutFirst_eq_some_iff.mp cut
    obtain ⟨o, slot⟩ := exists_slot free
    obtain ⟨ts, listed⟩ := exists_listed rest
    have hend : IsEnd [c] := by
      rcases isBreak_iff.mp hc with rfl | rfl
      · exact .inr (.inl rfl)
      · exact .inl rfl
    have more := Listed.more slot hend listed
    rw [List.append_assoc] at more
    exact ⟨_, more⟩
termination_by cs.length

/-- A text is read as the list that is written in it. -/
theorem parseList_eq_iff {content : String} {ts : List Target} :
    parseList content = ts ↔ Listed content.toList ts := by
  have reads : ∀ ts, Listed content.toList ts → parseList content = ts := by
    intro ts listed
    rw [parseList_eq, listed.entries_eq, List.map_map]
    exact List.map_id'' (fun t => by simp) ts
  constructor
  · rintro rfl
    obtain ⟨ts, listed⟩ := exists_listed content.toList
    rwa [reads ts listed]
  · exact reads ts

/-- A separator between two texts separates their targets. -/
theorem parseList_append {ending : String} (hend : IsEnd ending.toList) (a b : String) :
    parseList (a ++ ending ++ b) = parseList a ++ parseList b := by
  simp only [parseList_eq, String.toList_append, entries_append_end hend, List.map_append]

end Target

/-! ## Values of a properties file -/

/-- A value on one line is read like a list of targets. -/
theorem Properties.map_list_eq {p : Properties} {key : String}
    (oneLine : ∀ value, p.get? key = some value → '\n' ∉ value.toList) :
    (p.list key).map Target.mk =
      match p.get? key with
      | none => []
      | some value => Target.parseList value := by
  unfold list
  cases found : p.get? key with
  | none => rfl
  | some value =>
    have same : ∀ c ∈ value.toList, decide (c = ',') = Target.isBreak c := by
      intro c hc
      have : c ≠ '\n' := by
        rintro rfl
        exact oneLine value found hc
      simp [Target.isBreak, this]
    show ((entries (· = ',') value.toList).map String.ofList).map Target.mk =
      Target.parseList value
    rw [entries_congr same, Target.parseList_eq, List.map_map]
    rfl

/-- The values of a file stand on one line each. -/
theorem Properties.oneLine_of_parse {content key value : String}
    (found : (parse content).get? key = some value) : '\n' ∉ value.toList := by
  obtain ⟨before, after, same, -⟩ := get?_eq_some_iff.mp found
  have sound := (parse_pairs_iff.mp same).sound (key, value) (by simp)
  exact sound.2.oneLine

/-- **Lists of targets.**  What is read from a text are targets that are filled, trimmed and free of
commas and line feeds.  A text is read as the targets written in it, in their order and each as
often as it stands there, whatever the separators and the blanks around them are.  Either separator
between two texts puts their lists one behind the other.  And what a key of a properties file lists
are the targets written in its value; without one there are none. -/
theorem target_lists_agree :
    (∀ content, ∀ t ∈ Target.parseList content, t.IsEntry) ∧
    (∀ content ts, Target.parseList content = ts ↔ Target.Listed content.toList ts) ∧
    (∀ a b, Target.parseList (a ++ "\n" ++ b) = Target.parseList a ++ Target.parseList b ∧
      Target.parseList (a ++ "\r\n" ++ b) = Target.parseList a ++ Target.parseList b ∧
      Target.parseList (a ++ "," ++ b) = Target.parseList a ++ Target.parseList b) ∧
    Properties.parse "" = {} ∧
    ∀ content key, ((Properties.parse content).list key).map Target.mk =
      match (Properties.parse content).get? key with
      | none => []
      | some value => Target.parseList value := by
  refine ⟨fun content t => Target.isEntry_of_mem, fun content ts => Target.parseList_eq_iff,
    fun a b => ⟨?_, ?_, ?_⟩, rfl, fun content key => ?_⟩
  · exact Target.parseList_append (.inr (.inl rfl)) a b
  · exact Target.parseList_append (.inr (.inr rfl)) a b
  · exact Target.parseList_append (.inl rfl) a b
  · exact Properties.map_list_eq fun value => Properties.oneLine_of_parse

/-- A list with both separators, a blank line, a blank entry, a target that stands there twice and
one with a blank inside. -/
theorem crowded_list :
    Target.parseList "b,\t a b\r\n\u2003\n,b" = [⟨"b"⟩, ⟨"a b"⟩, ⟨"b"⟩] ∧
      (Target.mk "a b").IsEntry := by
  have b : Target.IsEntry ⟨"b"⟩ := ⟨by decide, by decide, by decide, by decide⟩
  have ab : Target.IsEntry ⟨"a b"⟩ := ⟨by decide, by decide, by decide, by decide⟩
  have slot_b := @Target.Slot.entry ⟨"b"⟩ [] [] b (by simp)
  have slot_ab := @Target.Slot.entry ⟨"a b"⟩ ['\t', ' '] [] ab (by simp [isBlank])
  have line := @Target.Slot.blank ['\u2003'] (by simp [isBlank])
  have empty := @Target.Slot.blank [] (by simp)
  have listed : Target.Listed "b,\t a b\r\n\u2003\n,b".toList [⟨"b"⟩, ⟨"a b"⟩, ⟨"b"⟩] :=
    .more slot_b (.inl rfl) <| .more slot_ab (.inr (.inr rfl)) <| .more line (.inr (.inl rfl)) <|
      .more empty (.inl rfl) <| .last slot_b
  obtain ⟨entry, reads, -⟩ := target_lists_agree
  have parsed := (reads _ _).mpr listed
  exact ⟨parsed, entry _ _ (by rw [parsed]; simp)⟩

end PingWatch
