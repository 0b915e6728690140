import Mathlib.Data.List.Forall2
import PingWatch.Proofs.Outcome
import PingWatch.Target

/-!
# Loading targets

A loader is put together by registering sources and filters in any order
(`TargetLoader.registered`).  Of the sources their order counts, of the filters only what they drop.

* `registered_eq`: what a loader holds after it has been put together.
* `loadAll_eq_ok_iff`, `loadAll_eq_error_iff`: the sources, of which the first that fails decides.
* `load_congr`: filters that drop the same targets cannot be told apart.
* `TargetFilter.drops_excludeAny`, `TargetFilter.drops_excludes`: what an exclusion drops.
* `load_is_filtered_concatenation`: what a loader loads.
-/

namespace PingWatch

open Text

/-! ## Filters -/

namespace TargetFilter

variable {filters : List TargetFilter} {t : Target}

/-- Some filter of the list drops a target. -/
def Drops (filters : List TargetFilter) (t : Target) : Prop := ∃ f ∈ filters, f t = true

instance (filters : List TargetFilter) (t : Target) : Decidable (Drops filters t) :=
  inferInstanceAs (Decidable (∃ f ∈ filters, f t = true))

theorem trimmed_eq_empty_iff {s : String} :
    trimmed s = "" ↔ ∀ c ∈ s.toList, isBlank c = true := by
  rw [trimmed, ← String.toList_eq_nil_iff, String.toList_ofList, trim_eq_nil_iff]

/-- What the exclusion of one address drops. -/
theorem exclude_eq_some_iff {address : String} {f : TargetFilter} :
    exclude address = some f ↔
      trimmed address ≠ "" ∧ f = fun t => decide (t.address = trimmed address) := by
  unfold exclude
  split
  · next blank => simp [blank]
  · next filled => simp [filled, eq_comm]

/-- What the exclusion of several addresses drops. -/
theorem drops_excludeAny {addresses : List String} :
    Drops (excludeAny addresses).toList t ↔
      ∃ a ∈ addresses, trimmed a ≠ "" ∧ t.address = trimmed a := by
  have kept : t.address ∈ (addresses.map trimmed).filter (· ≠ "") ↔
      ∃ a ∈ addresses, trimmed a ≠ "" ∧ t.address = trimmed a := by
    simp only [List.mem_filter, List.mem_map, decide_eq_true_eq]
    constructor
    · rintro ⟨⟨a, ha, same⟩, filled⟩
      exact ⟨a, ha, same ▸ filled, same.symm⟩
    · rintro ⟨a, ha, filled, same⟩
      exact ⟨⟨a, ha, same.symm⟩, same ▸ filled⟩
  rw [← kept]
  unfold excludeAny Drops
  split
  · next empty =>
    rw [empty]
    simp
  · next => simp

/-- Addresses are excluded one by one or all at once. -/
theorem drops_excludes {addresses : List String} :
    Drops (addresses.filterMap exclude) t ↔ Drops (excludeAny addresses).toList t := by
  rw [drops_excludeAny]
  unfold Drops
  simp only [List.mem_filterMap, exclude_eq_some_iff]
  constructor
  · rintro ⟨f, ⟨a, ha, filled, rfl⟩, same⟩
    exact ⟨a, ha, filled, of_decide_eq_true same⟩
  · rintro ⟨a, ha, filled, same⟩
    exact ⟨_, ⟨a, ha, filled, rfl⟩, decide_eq_true same⟩

theorem drops_append {filters' : List TargetFilter} :
    Drops (filters ++ filters') t ↔ Drops filters t ∨ Drops filters' t := by
  unfold Drops
  simp only [List.mem_append, or_and_right, exists_or]

/-- An exclusion of blank addresses is none. -/
theorem excludeAny_of_blank {addresses : List String}
    (blank : ∀ a ∈ addresses, ∀ c ∈ a.toList, isBlank c = true) : excludeAny addresses = none := by
  have none_kept : (addresses.map trimmed).filter (· ≠ "") = [] := by
    rw [List.filter_eq_nil_iff]
    intro s hs
    obtain ⟨a, ha, rfl⟩ := List.mem_map.mp hs
    simpa using trimmed_eq_empty_iff.mpr (blank a ha)
  unfold excludeAny
  rw [none_kept]

end TargetFilter

namespace TargetLoader

/-! ## Sources -/

variable {files : Files}

theorem loadAll_eq_ok_iff {sources : List TargetSource} {ts : List Target} :
    loadAll files sources = .ok ts ↔
      ∃ lists, List.Forall₂ (fun s list => s.load files = .ok list) sources lists ∧
        ts = lists.flatten := by
  induction sources generalizing ts with
  | nil => simp [loadAll, eq_comm]
  | cons s rest ih =>
    constructor
    · intro loaded
      obtain ⟨first, hs, loaded⟩ := bind_eq_ok.mp loaded
      obtain ⟨others, hrest, same⟩ := bind_eq_ok.mp loaded
      obtain ⟨lists, all, rfl⟩ := ih.mp hrest
      exact ⟨first :: lists, .cons hs all, (Except.ok.inj same).symm⟩
    · rintro ⟨lists, all, rfl⟩
      cases all with
      | cons hs all =>
        exact bind_eq_ok.mpr ⟨_, hs, bind_eq_ok.mpr ⟨_, ih.mpr ⟨_, all, rfl⟩, rfl⟩⟩

/-- The first source that fails decides. -/
theorem loadAll_eq_error_iff {sources : List TargetSource} {cause : Cause} :
    loadAll files sources = .error cause ↔
      ∃ before s after, sources = before ++ s :: after ∧
        (∀ b ∈ before, ∃ list, b.load files = .ok list) ∧ s.load files = .error cause := by
  induction sources with
  | nil => simp [loadAll]
  | cons s rest ih =>
    constructor
    · intro failed
      rcases bind_eq_error.mp failed with here | ⟨first, hs, later⟩
      · exact ⟨[], s, rest, rfl, by simp, here⟩
      · rcases bind_eq_error.mp later with later | ⟨others, -, nothing⟩
        · obtain ⟨before, s', after, rfl, fine, failed⟩ := ih.mp later
          exact ⟨s :: before, s', after, rfl, List.forall_mem_cons.mpr ⟨⟨first, hs⟩, fine⟩, failed⟩
        · exact nomatch nothing
    · rintro ⟨before, s', after, same, fine, failed⟩
      cases before with
      | nil =>
        obtain ⟨rfl, rfl⟩ := List.cons_eq_cons.mp same
        exact bind_eq_error.mpr (.inl failed)
      | cons b before =>
        obtain ⟨rfl, rfl⟩ := List.cons_eq_cons.mp same
        obtain ⟨⟨first, hs⟩, fine⟩ := List.forall_mem_cons.mp fine
        have later := ih.mpr ⟨before, s', after, rfl, fine, failed⟩
        exact bind_eq_error.mpr (.inr ⟨first, hs, bind_eq_error.mpr (.inl later)⟩)

/-- What is loaded is what no filter drops of the lists of all sources. -/
theorem load_eq (files : Files) (l : TargetLoader) :
    l.load files =
      (loadAll files l.sources).map (·.filter fun t => ¬TargetFilter.Drops l.filters t) := by
  have kept : ∀ t, (!l.filters.any (· t)) = decide (¬TargetFilter.Drops l.filters t) := by
    intro t
    rw [decide_not, Bool.not_inj_iff, Bool.eq_iff_iff, List.any_eq_true, decide_eq_true_eq]
    rfl
  simp only [load, kept]

/-- Filters that drop the same targets cannot be told apart. -/
theorem load_congr {l l' : TargetLoader} (sources : l.sources = l'.sources)
    (filters : ∀ t, TargetFilter.Drops l.filters t ↔ TargetFilter.Drops l'.filters t) :
    l.load files = l'.load files := by
  simp only [load_eq, sources, filters]

end TargetLoader

/-! ## Putting a loader together -/

/-- What is registered with a loader. -/
inductive Registration
  | source (s : TargetSource)
  | filter (f : Option TargetFilter)

namespace Registration

def source? : Registration → Option TargetSource
  | source s => some s
  | filter _ => none

def filter? : Registration → Option TargetFilter
  | source _ => none
  | filter f => f

/-- The sources among what is registered, in their order. -/
def sources (rs : List Registration) : List TargetSource := rs.filterMap source?

/-- The filters among what is registered, in their order. -/
def filters (rs : List Registration) : List TargetFilter := rs.filterMap filter?

theorem sources_append (rs rs' : List Registration) :
    sources (rs ++ rs') = sources rs ++ sources rs' := List.filterMap_append

theorem filters_append (rs rs' : List Registration) :
    filters (rs ++ rs') = filters rs ++ filters rs' := List.filterMap_append

end Registration

namespace TargetLoader

open Registration TargetFilter

def register (l : TargetLoader) : Registration → TargetLoader
  | .source s => l.addSource s
  | .filter f => l.addFilter f

/-- The loader that is put together by registering one thing after the other. -/
def registered (rs : List Registration) : TargetLoader := rs.foldl register {}

theorem register_eq (l : TargetLoader) (r : Registration) :
    l.register r = ⟨l.sources ++ r.source?.toList, l.filters ++ r.filter?.toList⟩ := by
  cases r with
  | source s => simp [register, addSource, source?, filter?]
  | filter f => simp [register, addFilter, source?, filter?]

theorem foldl_register (rs : List Registration) (l : TargetLoader) :
    rs.foldl register l =
      ⟨l.sources ++ Registration.sources rs, l.filters ++ Registration.filters rs⟩ := by
  induction rs generalizing l with
  | nil => simp [Registration.sources, Registration.filters]
  | cons r rs ih =>
    rw [List.foldl_cons, ih, register_eq]
    unfold Registration.sources Registration.filters
    rw [List.filterMap_cons, List.filterMap_cons]
    cases r.source? <;> cases r.filter? <;> simp

/-- A loader holds what was registered with it, in that order. -/
theorem registered_eq (rs : List Registration) :
    registered rs = ⟨Registration.sources rs, Registration.filters rs⟩ := foldl_register rs {}

/-- Registrations can be exchanged for others with the same sources that drop the same targets. -/
theorem load_exchange (files : Files) {rs ms ms' rs' : List Registration}
    (same : Registration.sources ms = Registration.sources ms')
    (drop : ∀ t, Drops (Registration.filters ms) t ↔ Drops (Registration.filters ms') t) :
    (registered (rs ++ ms ++ rs')).load files = (registered (rs ++ ms' ++ rs')).load files := by
  refine load_congr ?_ fun t => ?_
  · simp only [registered_eq, sources_append, same]
  · simp only [registered_eq, filters_append, drops_append, drop]

theorem filters_map_exclude (addresses : List String) :
    Registration.filters (addresses.map fun a => .filter (exclude a)) =
      addresses.filterMap exclude := List.filterMap_map

theorem sources_map_exclude (addresses : List String) :
    Registration.sources (addresses.map fun a => .filter (exclude a)) = [] := by
  simp [Registration.sources, source?]

/-- **What a loader loads.**  If every source gives its list, these come one behind the other in the
order in which the sources were registered, less the targets that some filter drops; otherwise the
first source that fails gives the error.  The order and the number of the filters do not matter, and
addresses are excluded all at once or one by one.  If they are blank, nothing is. -/
theorem load_is_filtered_concatenation (files : Files) (rs : List Registration) :
    (∀ ts, (registered rs).load files = .ok ts ↔
      ∃ lists,
        List.Forall₂ (fun s list => s.load files = .ok list) (Registration.sources rs) lists ∧
        ts = lists.flatten.filter fun t => ¬Drops (Registration.filters rs) t) ∧
    (∀ cause, (registered rs).load files = .error cause ↔
      ∃ before s after, Registration.sources rs = before ++ s :: after ∧
        (∀ b ∈ before, ∃ list, b.load files = .ok list) ∧ s.load files = .error cause) ∧
    (∀ rs', Registration.sources rs' = Registration.sources rs →
      (∀ f, f ∈ Registration.filters rs' ↔ f ∈ Registration.filters rs) →
      (registered rs').load files = (registered rs).load files) ∧
    (∀ rs' addresses,
      (registered (rs ++ [.filter (excludeAny addresses)] ++ rs')).load files =
        (registered (rs ++ addresses.map (fun a => .filter (exclude a)) ++ rs')).load files) ∧
    ∀ rs' addresses, (∀ a ∈ addresses, ∀ c ∈ a.toList, isBlank c = true) →
      (registered (rs ++ [.filter (excludeAny addresses)] ++ rs')).load files =
          (registered (rs ++ rs')).load files ∧
        (registered (rs ++ addresses.map (fun a => .filter (exclude a)) ++ rs')).load files =
          (registered (rs ++ rs')).load files := by
  have together : ∀ rs' addresses,
      (registered (rs ++ [.filter (excludeAny addresses)] ++ rs')).load files =
        (registered (rs ++ addresses.map (fun a => .filter (exclude a)) ++ rs')).load files := by
    intro rs' addresses
    have all_at_once : Registration.filters [.filter (excludeAny addresses)] =
        (excludeAny addresses).toList := by cases excludeAny addresses <;> rfl
    refine load_exchange files (sources_map_exclude addresses).symm fun t => ?_
    rw [all_at_once, filters_map_exclude, drops_excludes]
  refine ⟨fun ts => ?_, fun cause => ?_, fun rs' same filters => ?_, together,
    fun rs' addresses blank => ?_⟩
  · rw [load_eq, map_eq_ok, registered_eq]
    simp only [loadAll_eq_ok_iff]
    constructor
    · rintro ⟨-, ⟨lists, all, rfl⟩, rfl⟩
      exact ⟨lists, all, rfl⟩
    · rintro ⟨lists, all, rfl⟩
      exact ⟨_, ⟨lists, all, rfl⟩, rfl⟩
  · rw [load_eq, map_eq_error, registered_eq, loadAll_eq_error_iff]
  · refine load_congr ?_ fun t => ?_
    · rw [registered_eq, registered_eq, same]
    · simp only [registered_eq, Drops, filters]
  · have nothing : (registered (rs ++ [.filter (excludeAny addresses)] ++ rs')).load files =
        (registered (rs ++ rs')).load files := by
      rw [excludeAny_of_blank blank]
      have none : (registered (rs ++ [.filter none] ++ rs')).load files =
        (registered (rs ++ [] ++ rs')).load files := load_exchange files rfl fun t => Iff.rfl
      rwa [List.append_nil] at none
    exact ⟨nothing, (together rs' addresses).symm.trans nothing⟩

/-- Files of which one can be read. -/
def pantry : Files where
  read path := if path = "nodes" then .ok "a, b\r\nc" else .error .missing

/-- A file and a fixed list, of which one target is excluded, once or twice, and blanks are too. -/
theorem pantry_without_b :
    (registered ([.source (.file "nodes"), .filter (exclude " b ")] ++
        [.filter (excludeAny ["", "\t"])] ++ [.source (.fixed [⟨"b"⟩, ⟨"a"⟩])])).load pantry =
      .ok [⟨"a"⟩, ⟨"c"⟩, ⟨"a"⟩] ∧
    (registered [.filter (exclude "b"), .source (.file "nodes"), .filter (exclude "b"),
        .source (.fixed [⟨"b"⟩, ⟨"a"⟩])]).load pantry = .ok [⟨"a"⟩, ⟨"c"⟩, ⟨"a"⟩] := by
  have plain : (registered [.source (.file "nodes"), .filter (exclude "b"),
      .source (.fixed [⟨"b"⟩, ⟨"a"⟩])]).load pantry = .ok [⟨"a"⟩, ⟨"c"⟩, ⟨"a"⟩] := by
    obtain ⟨loads, -⟩ := load_is_filtered_concatenation pantry [.source (.file "nodes"),
      .filter (exclude "b"), .source (.fixed [⟨"b"⟩, ⟨"a"⟩])]
    exact (loads _).mpr
      ⟨[[⟨"a"⟩, ⟨"b"⟩, ⟨"c"⟩], [⟨"b"⟩, ⟨"a"⟩]], .cons rfl (.cons rfl .nil), by decide⟩
  constructor
  · obtain ⟨-, -, -, -, blank⟩ := load_is_filtered_concatenation pantry
      [.source (.file "nodes"), .filter (exclude " b ")]
    exact (blank _ _ (by simp [isBlank])).1.trans plain
  · obtain ⟨-, -, alike, -⟩ := load_is_filtered_concatenation pantry [.source (.file "nodes"),
      .filter (exclude "b"), .source (.fixed [⟨"b"⟩, ⟨"a"⟩])]
    refine (alike _ rfl fun f => ?_).trans plain
    simp [Registration.filters, List.mem_filterMap, filter?]

end TargetLoader

end PingWatch
