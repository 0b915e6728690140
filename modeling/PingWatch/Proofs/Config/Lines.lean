import PingWatch.Config.Properties
import PingWatch.Proofs.Metric.Upsert
import PingWatch.Proofs.Text.Cutting
import PingWatch.Proofs.Text.Trimming

/-!
# What a properties file states

A file consists of lines, and a line states a pair or nothing (`Properties.Row`).  Every text is
such a file (`exists_written`) and is read as the pairs of its lines, in their order
(`parse_pairs_iff`).

* `Row.parseLine_eq`: what each kind of line states.
* `Row.sound`: the keys and values that can be stated.
* `get?_eq_some_iff`, `mem_keys_iff`, `nodup_keys`: pairs are a map in which the last pair of a key
  counts.
* `parse_recovers_pairs`: what is written down is what is read.
-/

namespace PingWatch

open Text

namespace Properties

/-! ## Lines -/

/-- The keys that a line can state. -/
structure IsKey (key : String) : Prop where
  filled : key ≠ ""
  trimmed : trimmed key = key
  uncut : ':' ∉ key.toList ∧ '=' ∉ key.toList
  oneLine : '\n' ∉ key.toList
  noRemark : key.toList.head? ≠ some '#'

/-- The values that a line can state. -/
structure IsValue (value : String) : Prop where
  trimmed : trimmed value = value
  oneLine : '\n' ∉ value.toList

/-- What a line states. -/
inductive Row : List Char → Option (String × String) → Prop
  /-- A key and a value with a separator between them, and blanks around all three. -/
  | pair {key value : String} {as bs cs ds : List Char} {sep : Char} (hkey : IsKey key)
      (hvalue : IsValue value) (hsep : sep = ':' ∨ sep = '=')
      (blank : ∀ c ∈ as ++ bs ++ cs ++ ds, isBlank c = true) :
      Row (as ++ key.toList ++ bs ++ sep :: (cs ++ value.toList ++ ds)) (some (key, value))
  | blank {line : List Char} (blank : ∀ c ∈ line, isBlank c = true) : Row line none
  | remark {as rest : List Char} (blank : ∀ a ∈ as, isBlank a = true) : Row (as ++ '#' :: rest) none
  | uncut {line : List Char} (free : ':' ∉ line ∧ '=' ∉ line) : Row line none
  | keyless {as rest : List Char} {sep : Char} (hsep : sep = ':' ∨ sep = '=')
      (blank : ∀ a ∈ as, isBlank a = true) : Row (as ++ sep :: rest) none

theorem isSeparator_iff {c : Char} : isSeparator c = true ↔ c = ':' ∨ c = '=' := by
  simp [isSeparator]

theorem isSeparator_free_iff {cs : List Char} :
    (∀ c ∈ cs, isSeparator c = false) ↔ ':' ∉ cs ∧ '=' ∉ cs := by
  constructor
  · intro free
    exact ⟨fun h => absurd (free _ h) (by decide), fun h => absurd (free _ h) (by decide)⟩
  · rintro ⟨colon, equals⟩ c hc
    rw [Bool.eq_false_iff]
    intro hsep
    rcases isSeparator_iff.mp hsep with rfl | rfl
    · exact colon hc
    · exact equals hc

theorem isBlank_of_separator {c : Char} (h : isSeparator c = true) : isBlank c = false := by
  rcases isSeparator_iff.mp h with rfl | rfl <;> rfl

/-- A line is cut at its first separator.  It states a pair unless there is no key before that, or
one that begins a remark. -/
theorem parseLine_cut {ks : List Char} {sep : Char} (free : ∀ k ∈ ks, isSeparator k = false)
    (hsep : isSeparator sep = true) (vs : List Char) :
    parseLine (ks ++ sep :: vs) =
      if trim ks = [] ∨ (trim ks).head? = some '#' then none
      else some (.ofList (trim ks), .ofList (trim vs)) := by
  have free' : ∀ k ∈ trimStart ks, isSeparator k = false :=
    fun k hk => free k ((List.dropWhile_sublist _).subset hk)
  have cut : cutFirst isSeparator (trimStart ks ++ sep :: trimEnd vs) =
      some (trimStart ks, trimEnd vs) := cutFirst_append_cons free' hsep _
  have sep_ne : sep ≠ '#' := by rintro rfl; exact absurd hsep (by decide)
  unfold parseLine
  rw [trim_append_cons (isBlank_of_separator hsep)]
  dsimp only
  rw [cut]
  dsimp only
  rw [trim_trimStart, trim_trimEnd]
  by_cases keyless : trim ks = []
  · simp [keyless]
  · have nonempty : trimStart ks ≠ [] := by
      intro h
      exact keyless (by rw [trim, h]; rfl)
    have head : (trimStart ks ++ sep :: trimEnd vs).head? = (trim ks).head? := by
      rw [head?_trim keyless, List.head?_append_of_ne_nil _ nonempty]
    simp [keyless, head]

theorem parseLine_uncut {line : List Char} (free : ∀ c ∈ line, isSeparator c = false) :
    parseLine line = none := by
  have uncut : cutFirst isSeparator (trim line) = none :=
    cutFirst_eq_none_iff.mpr fun c hc => free c (mem_of_mem_trim hc)
  unfold parseLine
  dsimp only
  rw [uncut]
  exact ite_self _

theorem isSeparator_of_isBlank {c : Char} (h : isBlank c = true) : isSeparator c = false := by
  rw [Bool.eq_false_iff]
  intro hsep
  exact absurd h (by simp [isBlank_of_separator hsep])

theorem toList_trimmed (s : String) : (trimmed s).toList = trim s.toList :=
  String.toList_ofList

theorem IsKey.trim_eq {key : String} (h : IsKey key) : trim key.toList = key.toList := by
  rw [← toList_trimmed, h.trimmed]

theorem IsValue.trim_eq {value : String} (h : IsValue value) :
    trim value.toList = value.toList := by
  rw [← toList_trimmed, h.trimmed]

/-- Every kind of line is read as what it states. -/
theorem Row.parseLine_eq {line : List Char} {stated : Option (String × String)}
    (h : Row line stated) : parseLine line = stated := by
  cases h with
  | @pair key value as bs cs ds sep hkey hvalue hsep blank =>
    simp only [List.forall_mem_append] at blank
    obtain ⟨⟨⟨has, hbs⟩, hcs⟩, hds⟩ := blank
    have free : ∀ c ∈ as ++ key.toList ++ bs, isSeparator c = false := by
      simp only [List.forall_mem_append]
      exact ⟨⟨fun c hc => isSeparator_of_isBlank (has c hc), isSeparator_free_iff.mpr hkey.uncut⟩,
        fun c hc => isSeparator_of_isBlank (hbs c hc)⟩
    have keyed : ¬(key.toList = [] ∨ key.toList.head? = some '#') := by
      rintro (empty | remark)
      · exact hkey.filled (String.toList_eq_nil_iff.mp empty)
      · exact hkey.noRemark remark
    rw [parseLine_cut free (isSeparator_iff.mpr hsep), trim_between has hbs, trim_between hcs hds,
      hkey.trim_eq, hvalue.trim_eq, if_neg keyed, String.ofList_toList, String.ofList_toList]
  | blank blank => exact parseLine_uncut fun c hc => isSeparator_of_isBlank (blank c hc)
  | @remark as rest blank =>
    have start : trim (as ++ '#' :: rest) = '#' :: trimEnd rest := by
      rw [trim_blanks_append blank, ← List.nil_append ('#' :: rest), trim_append_cons rfl]
      rfl
    simp [parseLine, start]
  | uncut free => exact parseLine_uncut (isSeparator_free_iff.mpr free)
  | @keyless as rest sep hsep blank =>
    have free : ∀ a ∈ as, isSeparator a = false := fun a ha => isSeparator_of_isBlank (blank a ha)
    rw [parseLine_cut free (isSeparator_iff.mpr hsep), if_pos (.inl (trim_eq_nil_iff.mpr blank))]

/-- What stands before the first separator of a line is a key, unless it is blank or begins a
remark. -/
theorem isKey_ofList {ks : List Char} (free : ∀ k ∈ ks, isSeparator k = false)
    (oneLine : '\n' ∉ ks) (filled : trim ks ≠ []) (noRemark : (trim ks).head? ≠ some '#') :
    IsKey (.ofList (trim ks)) where
  filled := by simpa [← String.toList_eq_nil_iff] using filled
  trimmed := by rw [trimmed, String.toList_ofList, trim_trim]
  uncut := by
    rw [String.toList_ofList]
    exact isSeparator_free_iff.mp fun c hc => free c (mem_of_mem_trim hc)
  oneLine := by
    rw [String.toList_ofList]
    exact fun h => oneLine (mem_of_mem_trim h)
  noRemark := by rwa [String.toList_ofList]

theorem isValue_ofList {vs : List Char} (oneLine : '\n' ∉ vs) : IsValue (.ofList (trim vs)) where
  trimmed := by rw [trimmed, String.toList_ofList, trim_trim]
  oneLine := by
    rw [String.toList_ofList]
    exact fun h => oneLine (mem_of_mem_trim h)

/-- Every line is of one of these kinds. -/
theorem exists_row {line : List Char} (oneLine : '\n' ∉ line) : ∃ stated, Row line stated := by
  cases cut : cutFirst isSeparator line with
  | none => exact ⟨none, .uncut (isSeparator_free_iff.mp (cutFirst_eq_none_iff.mp cut))⟩
  | some parts =>
    obtain ⟨ks, vs⟩ := parts
    obtain ⟨sep, hsep, rfl, free⟩ := cutFirst_eq_some_iff.mp cut
    obtain ⟨as, bs, has, hbs, hks⟩ := exists_blanks ks
    obtain ⟨cs, ds, hcs, hds, hvs⟩ := exists_blanks vs
    by_cases keyless : trim ks = []
    · exact ⟨none, .keyless (isSeparator_iff.mp hsep) (trim_eq_nil_iff.mp keyless)⟩
    · by_cases remark : (trim ks).head? = some '#'
      · obtain ⟨rest, hrest⟩ := List.head?_eq_some_iff.mp remark
        refine ⟨none, ?_⟩
        have shape : ks ++ sep :: vs = as ++ '#' :: (rest ++ bs ++ sep :: vs) := by
          rw [← hks, hrest]
          simp
        rw [shape]
        exact .remark has
      · have oneLine' : '\n' ∉ ks ∧ '\n' ∉ vs := by
          simp only [List.mem_append, List.mem_cons, not_or] at oneLine
          exact ⟨oneLine.1, oneLine.2.2⟩
        have row := Row.pair (isKey_ofList free oneLine'.1 keyless remark)
          (isValue_ofList oneLine'.2) (isSeparator_iff.mp hsep)
          (show ∀ c ∈ as ++ bs ++ cs ++ ds, isBlank c = true by
            simp only [List.forall_mem_append]
            exact ⟨⟨⟨has, hbs⟩, hcs⟩, hds⟩)
        rw [String.toList_ofList, String.toList_ofList, hks, hvs] at row
        exact ⟨_, row⟩

/-! ## Files -/

/-- The pairs that a text states.  Its lines end with a line feed, perhaps behind a carriage return,
and behind the last end stands one more line, which may be empty. -/
inductive Written : List Char → List (String × String) → Prop
  | last {line : List Char} {stated : Option (String × String)} (row : Row line stated)
      (oneLine : '\n' ∉ line) : Written line stated.toList
  | line {line ending rest : List Char} {stated : Option (String × String)}
      {ps : List (String × String)} (row : Row line stated) (oneLine : '\n' ∉ line)
      (hend : ending = ['\n'] ∨ ending = ['\r', '\n']) (more : Written rest ps) :
      Written (line ++ ending ++ rest) (stated.toList ++ ps)

theorem pieces_line {line : List Char} (oneLine : '\n' ∉ line) :
    pieces (· = '\n') line = [line] := by
  refine pieces_eq_singleton fun c hc => ?_
  rw [decide_eq_false_iff_not]
  rintro rfl
  exact oneLine hc

/-- A line states its pair as the only line of a text. -/
theorem filterMap_line {line : List Char} {stated : Option (String × String)}
    (oneLine : '\n' ∉ line) (states : parseLine line = stated) :
    (pieces (· = '\n') line).filterMap parseLine = stated.toList := by
  rw [pieces_line oneLine]
  cases stated <;> simp [states]

/-- A carriage return behind a line does not change what it states. -/
theorem parseLine_append_return (line : List Char) :
    parseLine (line ++ ['\r']) = parseLine line := by
  unfold parseLine
  have blank : ∀ b ∈ ['\r'], isBlank b = true := List.forall_mem_singleton.mpr rfl
  rw [trim_append_blanks blank]

/-- The pairs of a file are those of its lines. -/
theorem Written.filterMap_pieces {cs : List Char} {ps : List (String × String)}
    (h : Written cs ps) : (pieces (· = '\n') cs).filterMap parseLine = ps := by
  induction h with
  | last row oneLine => exact filterMap_line oneLine row.parseLine_eq
  | @line line ending rest stated ps row oneLine hend more ih =>
    have cut : ∀ line', '\n' ∉ line' → parseLine line' = stated →
        (pieces (· = '\n') (line' ++ '\n' :: rest)).filterMap parseLine = stated.toList ++ ps := by
      intro line' oneLine' states
      rw [pieces_append_sep (by decide), List.filterMap_append, filterMap_line oneLine' states, ih]
    rcases hend with rfl | rfl
    · rw [List.append_assoc]
      exact cut line oneLine row.parseLine_eq
    · have shape : line ++ ['\r', '\n'] ++ rest = (line ++ ['\r']) ++ '\n' :: rest := by simp
      rw [shape]
      exact cut _ (by simp [oneLine]) ((parseLine_append_return line).trans row.parseLine_eq)

/-- Every text is a file. -/
theorem exists_written (cs : List Char) : ∃ ps, Written cs ps := by
  cases cut : cutFirst (· = '\n') cs with
  | none =>
    have oneLine : '\n' ∉ cs := by
      intro h
      exact absurd (cutFirst_eq_none_iff.mp cut _ h) (by decide)
    obtain ⟨stated, row⟩ := exists_row oneLine
    exact ⟨_, .last row oneLine⟩
  | some parts =>
    obtain ⟨line, rest⟩ := parts
    obtain ⟨c, hc, rfl, free⟩ := cutFirst_eq_some_iff.mp cut
    obtain rfl : c = '\n' := of_decide_eq_true hc
    have oneLine : '\n' ∉ line := fun h => absurd (free _ h) (by decide)
    obtain ⟨stated, row⟩ := exists_row oneLine
    obtain ⟨ps, more⟩ := exists_written rest
    refine ⟨stated.toList ++ ps, ?_⟩
    have written := Written.line row oneLine (.inl rfl) more
    rwa [List.append_assoc] at written
termination_by cs.length

/-- A text is read as the pairs that it states. -/
theorem parse_pairs_iff {content : String} {ps : List (String × String)} :
    (parse content).pairs = ps ↔ Written content.toList ps := by
  constructor
  · rintro rfl
    obtain ⟨ps, written⟩ := exists_written content.toList
    rw [parse, written.filterMap_pieces]
    exact written
  · exact Written.filterMap_pieces

theorem Row.sound {line : List Char} {key value : String} (h : Row line (some (key, value))) :
    IsKey key ∧ IsValue value := by
  cases h with
  | pair hkey hvalue => exact ⟨hkey, hvalue⟩

theorem Written.sound {cs : List Char} {ps : List (String × String)} (h : Written cs ps) :
    ∀ p ∈ ps, IsKey p.1 ∧ IsValue p.2 := by
  induction h with
  | last row =>
    intro p hp
    rw [Option.mem_toList] at hp
    exact Row.sound (hp ▸ row)
  | line row _ _ _ ih =>
    intro p hp
    rcases List.mem_append.mp hp with hp | hp
    · rw [Option.mem_toList] at hp
      exact Row.sound (hp ▸ row)
    · exact ih p hp

/-! ## The last pair of a key -/

/-- The value of a key is that of the last pair with this key. -/
theorem get?_eq_some_iff {p : Properties} {key value : String} :
    p.get? key = some value ↔
      ∃ before after, p.pairs = before ++ (key, value) :: after ∧ key ∉ after.map (·.1) := by
  have other : ∀ l : List (String × String),
      (∀ q ∈ l.reverse, (key != q.1) = true) ↔ key ∉ l.map (·.1) := by
    intro l
    simp only [List.mem_reverse, bne_iff_ne, List.mem_map, not_exists, not_and]
    exact forall₂_congr fun q _ => ne_comm
  rw [get?, List.lookup_eq_some_iff]
  constructor
  · rintro ⟨after, before, same, later⟩
    refine ⟨before.reverse, after.reverse, ?_, (other _).mp (by rwa [List.reverse_reverse])⟩
    have flipped := congrArg List.reverse same
    simpa using flipped
  · rintro ⟨before, after, same, later⟩
    exact ⟨after.reverse, before.reverse, by simp [same], (other _).mpr later⟩

theorem mem_keys_iff {p : Properties} {key : String} : key ∈ p.keys ↔ key ∈ p.pairs.map (·.1) :=
  List.mem_eraseDups

theorem nodup_keys (p : Properties) : p.keys.Nodup := by
  unfold keys
  rw [← keys_upserted]
  exact nodup_upserted p.pairs

/-- Of the pairs of two texts one behind the other those of the second count first. -/
theorem get?_append_newline (a b key : String) :
    (parse (a ++ "\n" ++ b)).get? key = ((parse b).get? key).or ((parse a).get? key) := by
  rw [get?, parse_append_newline, List.reverse_append, List.lookup_append]
  rfl

/-- **What is written down is what is read.**  Whatever a text holds, what it states are keys and
values.  Written down line by line, with any blanks around them and with either separator and line
end, among blank lines, remarks and lines that state nothing, pairs are read as the map in which the
last pair of each key counts.  And a text with another behind it is read as the other's map, and
where that has no value, as its own. -/
theorem parse_recovers_pairs :
    (∀ content key value, (parse content).get? key = some value → IsKey key ∧ IsValue value) ∧
    (∀ content ps, Written content.toList ps →
      (∀ key value, (parse content).get? key = some value ↔
        ∃ before after, ps = before ++ (key, value) :: after ∧ key ∉ after.map (·.1)) ∧
      (parse content).keys.Nodup ∧ ∀ key, key ∈ (parse content).keys ↔ key ∈ ps.map (·.1)) ∧
    ∀ a b key,
      (parse (a ++ "\n" ++ b)).get? key = ((parse b).get? key).or ((parse a).get? key) := by
  refine ⟨fun content key value found => ?_, fun content ps written => ?_, get?_append_newline⟩
  · obtain ⟨before, after, same, -⟩ := get?_eq_some_iff.mp found
    exact (parse_pairs_iff.mp same).sound (key, value) (by simp)
  · obtain rfl := parse_pairs_iff.mpr written
    exact ⟨fun key value => get?_eq_some_iff, nodup_keys _, fun key => mem_keys_iff⟩

/-- A value with separators and a number sign, a remark, a line without a separator, and a key that
is stated twice. -/
theorem crowded_file :
    (parse "a = x:y=#\r\n # a: z\na\n\t\n a:\t1 ").get? "a" = some "1" ∧
      IsKey "a" ∧ IsValue "1" := by
  have written : Written "a = x:y=#\r\n # a: z\na\n\t\n a:\t1 ".toList
      [("a", "x:y=#"), ("a", "1")] := parse_pairs_iff.mp (by decide)
  obtain ⟨sound, recovers, -⟩ := parse_recovers_pairs
  have last := ((recovers _ _ written).1 "a" "1").mpr ⟨[("a", "x:y=#")], [], rfl, by decide⟩
  exact ⟨last, sound _ _ _ last⟩

end Properties

end PingWatch
