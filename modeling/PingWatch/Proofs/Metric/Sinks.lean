import PingWatch.Proofs.Metric.Overwriting
import PingWatch.Registry.Exposition

/-!
# The sinks agree

The same settings reach a collector and a registry.  What either holds in the end depends on the
last settings of each key alone (`Collector.mem_series_iff`, `Registry.mem_samples_iff`).  A
registry is read as it is exposed: `Registry.Shows` says that a family of some name has a number
under some labels.

The setters named in `probeNames` have a gauge for every node and probe, so that there the sinks
hold the same.  Those named in `nodeNames` have one for every node, which its probes share, where
the collector has a series for each of them.

* `Registry.shows_iff`: what a registry shows in the family of a setter.
* `Registry.shows_byProbe_iff`, `Registry.shows_byNode_iff`: the same by the labels of either sort.
* **`sinks_agree`**: how a collector and a registry stand to each other.
-/

namespace PingWatch

/-- The number that the last of the settings of a sort shows. -/
def lastShown? (sort : Setting → Bool) (ss : List Setting) : Option Float :=
  (ss.findRev? sort).map fun s => s.value.shown

theorem exists_lastShown {sort : Setting → Bool} {ss : List Setting} :
    (∃ v, lastShown? sort ss = some v) ↔ ∃ s ∈ ss, sort s = true := by
  unfold lastShown?
  rw [← Option.isSome_iff_exists, Option.isSome_map, List.findRev?_eq_find?_reverse,
    List.find?_isSome]
  simp only [List.mem_reverse]

/-- It depends on the sort alone, however that is put. -/
theorem lastShown?_congr {sort sort' : Setting → Prop} [DecidablePred sort] [DecidablePred sort']
    (h : ∀ s, sort s ↔ sort' s) {ss : List Setting} {o : Option Float} :
    lastShown? (fun s => sort s) ss = o ↔ lastShown? (fun s => sort' s) ss = o := by
  have same : (fun s => decide (sort s)) = fun s => decide (sort' s) :=
    funext fun s => decide_eq_decide.mpr (h s)
  rw [same]

/-! ## Names -/

/-- The setters of gauges that are told apart by node and probe. -/
def probeNames : List String :=
  ["health", "nodes_total", "nodes_reports", "rtt_max", "rtt_min", "rtt_mean", "rtt_stddev",
    "packet_loss_min", "packet_loss_max", "packet_loss_mean", "packet_loss_total"]

/-- The setters of gauges that are told apart by node. -/
def nodeNames : List String := ["dns_total", "dns_success", "dns_error"]

theorem exists_name {name : String} (h : name ∈ probeNames ++ nodeNames) :
    ∃ g : Gauge, g.name = name := by
  have all_names : ∀ name ∈ probeNames ++ nodeNames, ∃ g ∈ Gauge.all, g.name = name := by decide
  obtain ⟨g, -, named⟩ := all_names name h
  exact ⟨g, named⟩

theorem Gauge.name_mem (g : Gauge) : g.name ∈ probeNames ∨ g.name ∈ nodeNames := by
  cases g <;> decide

/-! ## What the sinks hold -/

namespace Collector

variable {ss : List Setting} {g : Gauge}

theorem setAll_eq (ss : List Setting) :
    ({} : Collector).setAll ss = ⟨upserted Series.key (ss.map Setting.series)⟩ := by
  unfold upserted
  rw [List.foldl_map]
  exact List.foldl_hom Collector.mk fun l s => set_eq ⟨l⟩ s

/-- A series is collected with the number that was last set for its scope and name. -/
theorem mem_series_iff {x : Series} :
    x ∈ (({} : Collector).setAll ss).series ↔
      lastShown? (fun s => s.scope = x.scope ∧ s.gauge.name = x.name) ss = some x.value := by
  have ext : ∀ a b : Series, a.key = b.key → a.value = b.value → a = b := by
    rintro ⟨scope, name, value⟩ ⟨scope', name', value'⟩ key rfl
    obtain ⟨rfl, rfl⟩ := Prod.mk.inj key
    rfl
  rw [setAll_eq]
  refine (mem_upserted_map_iff ext ss x).trans ?_
  exact lastShown?_congr fun s => iff_of_eq (Prod.mk.injEq ..)

/-- A series that a setter writes is collected with the number that it was given last. -/
theorem mem_series_name_iff {scope : Scope} {v : Float} :
    { scope, name := g.name, value := v } ∈ (({} : Collector).setAll ss).series ↔
      lastShown? (fun s => s.gauge = g ∧ s.scope = scope) ss = some v := by
  rw [mem_series_iff]
  refine lastShown?_congr fun s => ?_
  constructor
  · rintro ⟨same, named⟩
    exact ⟨Gauge.name_injective named, same⟩
  · rintro ⟨rfl, rfl⟩
    exact ⟨rfl, rfl⟩

/-- Whatever is collected has the name of a setter. -/
theorem exists_gauge_of_mem {x : Series} (h : x ∈ (({} : Collector).setAll ss).series) :
    ∃ g : Gauge, g.name = x.name := by
  obtain ⟨s, -, key⟩ := exists_lastShown.mp ⟨_, mem_series_iff.mp h⟩
  exact ⟨s.gauge, (of_decide_eq_true key).2⟩

/-- A series of a setter and a node is collected if one was set. -/
theorem exists_series_iff {node : String} :
    (∃ x ∈ (({} : Collector).setAll ss).series, x.name = g.name ∧ x.scope.node = node) ↔
      ∃ s ∈ ss, s.gauge = g ∧ s.scope.node = node := by
  constructor
  · rintro ⟨x, there, name, rfl⟩
    obtain ⟨s, hs, key⟩ := exists_lastShown.mp ⟨_, mem_series_iff.mp there⟩
    obtain ⟨scope, named⟩ := of_decide_eq_true key
    exact ⟨s, hs, Gauge.name_injective (named.trans name), congrArg Scope.node scope⟩
  · rintro ⟨s, hs, rfl, rfl⟩
    have set : ∃ s' ∈ ss, decide (s'.gauge = s.gauge ∧ s'.scope = s.scope) = true :=
      ⟨s, hs, decide_eq_true ⟨rfl, rfl⟩⟩
    obtain ⟨v, last⟩ := exists_lastShown.mpr set
    exact ⟨_, mem_series_name_iff.mpr last, rfl, rfl⟩

end Collector

namespace Registry

variable {ss : List Setting} {r : Registry} {g : Gauge}

theorem setAll_eq (ss : List Setting) :
    ({} : Registry).setAll ss = ⟨upserted GaugeSample.key (ss.map Setting.sample)⟩ := by
  unfold upserted
  rw [List.foldl_map]
  exact List.foldl_hom Registry.mk fun l s => set_eq ⟨l⟩ s

/-- A sample is registered with the number that was last set for its family and label values. -/
theorem mem_samples_iff {x : GaugeSample} :
    x ∈ (({} : Registry).setAll ss).samples ↔
      lastShown? (fun s => s.sample.key = x.key) ss = some x.value := by
  have ext : ∀ a b : GaugeSample, a.key = b.key → a.value = b.value → a = b := by
    rintro ⟨family, values, value⟩ ⟨family', values', value'⟩ key rfl
    obtain ⟨rfl, rfl⟩ := Prod.mk.inj key
    rfl
  rw [setAll_eq]
  exact mem_upserted_map_iff ext ss x

/-- Whatever is registered was set. -/
theorem exists_set_of_mem {x : GaugeSample} (h : x ∈ (({} : Registry).setAll ss).samples) :
    ∃ s ∈ ss, s.sample.family = x.family ∧ s.sample.values = x.values := by
  obtain ⟨s, hs, key⟩ := exists_lastShown.mp ⟨_, mem_samples_iff.mp h⟩
  exact ⟨s, hs, Prod.mk.inj (of_decide_eq_true key)⟩

/-- A gauge of a setter is registered with the number that was last set for its label values. -/
theorem mem_samples_setter_iff {values : List String} {v : Float} :
    { family := (setter g).1.name, values, value := v } ∈ (({} : Registry).setAll ss).samples ↔
      lastShown? (fun s => s.gauge = g ∧ (setter g).2 s.scope = values) ss = some v := by
  rw [mem_samples_iff]
  refine lastShown?_congr fun s => ?_
  constructor
  · intro key
    obtain ⟨family, rfl⟩ := Prod.mk.inj key
    obtain rfl := setter_name_injective family
    exact ⟨rfl, rfl⟩
  · rintro ⟨rfl, rfl⟩
    rfl

/-! ## What a registry shows -/

/-- The registry exposes the number `v` under `labels` in a family named `family`. -/
def Shows (r : Registry) (family : String) (labels : List (String × String)) (v : Float) : Prop :=
  ∃ f ∈ r.families, f.name = family ∧ { labels, value := v } ∈ f.samples

theorem mem_family_samples {vec : GaugeVec} {l : Labelled} :
    l ∈ (r.family vec).samples ↔
      ∃ x ∈ r.samples, x.family = vec.name ∧ vec.labels.zip x.values = l.labels ∧
        x.value = l.value := by
  have sorted (le : GaugeSample → GaugeSample → Bool) {x : GaugeSample} :
      x ∈ (r.samples.filter (·.family = vec.name)).mergeSort le ↔
        x ∈ r.samples ∧ x.family = vec.name := by
    rw [List.mem_mergeSort, List.mem_filter, decide_eq_true_eq]
  obtain ⟨labels, value⟩ := l
  unfold family
  dsimp only
  rw [List.mem_map]
  constructor
  · rintro ⟨x, hx, same⟩
    obtain ⟨there, family⟩ := (sorted _).mp hx
    obtain ⟨labels, value⟩ := Labelled.mk.inj same
    exact ⟨x, there, family, labels, value⟩
  · rintro ⟨x, there, family, rfl, rfl⟩
    exact ⟨x, (sorted _).mpr ⟨there, family⟩, rfl⟩

theorem mem_families {f : Family} :
    f ∈ r.families ↔ (∃ vec ∈ vecs, r.family vec = f) ∧ f.samples ≠ [] := by
  unfold families
  dsimp only
  rw [List.mem_filter, List.mem_map]
  simp only [List.mem_mergeSort]
  simp

theorem shows_iff_exists_vec {family : String} {labels : List (String × String)} {v : Float} :
    r.Shows family labels v ↔
      ∃ vec ∈ vecs, vec.name = family ∧ ∃ x ∈ r.samples, x.family = vec.name ∧
        vec.labels.zip x.values = labels ∧ x.value = v := by
  constructor
  · rintro ⟨f, there, rfl, shown⟩
    obtain ⟨⟨vec, listed, rfl⟩, -⟩ := mem_families.mp there
    exact ⟨vec, listed, rfl, mem_family_samples.mp shown⟩
  · rintro ⟨vec, listed, rfl, sample⟩
    have shown : { labels, value := v } ∈ (r.family vec).samples := mem_family_samples.mpr sample
    exact ⟨r.family vec, mem_families.mpr ⟨⟨vec, listed, rfl⟩, List.ne_nil_of_mem shown⟩, rfl,
      shown⟩

/-- The vector of a name is the one that the setter of that name sets. -/
theorem eq_setter_of_name {vec : GaugeVec} (h : vec ∈ vecs) (name : vec.name = (setter g).1.name) :
    vec = (setter g).1 :=
  List.inj_on_of_nodup_map nodup_vecs h (setter_mem_vecs g) name

/-- The family of a setter shows what was last set for each of its lists of label values. -/
theorem shows_iff {labels : List (String × String)} {v : Float} :
    (({} : Registry).setAll ss).Shows ("octoping_probe_" ++ g.name) labels v ↔
      ∃ scope, (setter g).1.labels.zip ((setter g).2 scope) = labels ∧
        lastShown? (fun s => s.gauge = g ∧ (setter g).2 s.scope = (setter g).2 scope) ss =
          some v := by
  rw [shows_iff_exists_vec, ← setter_name]
  constructor
  · rintro ⟨vec, listed, named, ⟨family, values, value⟩, there, of_vec, rfl, rfl⟩
    obtain rfl := eq_setter_of_name listed named
    obtain rfl : family = (setter g).1.name := of_vec
    obtain ⟨s, -, family, rfl⟩ := exists_set_of_mem there
    obtain rfl := setter_name_injective family
    exact ⟨s.scope, rfl, mem_samples_setter_iff.mp there⟩
  · rintro ⟨scope, labels, last⟩
    exact ⟨_, setter_mem_vecs g, rfl, _, mem_samples_setter_iff.mpr last, rfl, labels, rfl⟩

/-- Whatever is shown is shown in the family of a setter. -/
theorem exists_setter_of_shows {family : String} {labels : List (String × String)} {v : Float}
    (h : (({} : Registry).setAll ss).Shows family labels v) :
    ∃ g : Gauge, family = "octoping_probe_" ++ g.name := by
  obtain ⟨vec, -, rfl, x, there, of_vec, -⟩ := shows_iff_exists_vec.mp h
  obtain ⟨s, -, same, -⟩ := exists_set_of_mem there
  exact ⟨s.gauge, of_vec.symm.trans (same.symm.trans (setter_name _))⟩

/-! ## The two sorts of labels -/

theorem setter_of_probeNames (h : g.name ∈ probeNames) :
    (setter g).1.labels = ["octoping_node", "octoping_probe"] ∧ (setter g).2 = byProbe := by
  cases g
  case dnsTotal | dnsSuccess | dnsError => exact absurd h (by decide)
  all_goals exact ⟨rfl, rfl⟩

theorem setter_of_nodeNames (h : g.name ∈ nodeNames) :
    (setter g).1.labels = ["octoping_node"] ∧ (setter g).2 = byNode := by
  cases g
  case dnsTotal | dnsSuccess | dnsError => exact ⟨rfl, rfl⟩
  all_goals exact absurd h (by decide)

/-- The labels with the probe name the whole scope. -/
theorem shows_byProbe_iff (h : g.name ∈ probeNames) {node probe : String} {v : Float} :
    (({} : Registry).setAll ss).Shows ("octoping_probe_" ++ g.name)
        [("octoping_node", node), ("octoping_probe", probe)] v ↔
      lastShown? (fun s => s.gauge = g ∧ s.scope = ⟨probe, node⟩) ss = some v := by
  obtain ⟨labels, values⟩ := setter_of_probeNames h
  have scopes (a b : Scope) : byProbe a = byProbe b ↔ a = b := by
    obtain ⟨probe, node⟩ := a
    obtain ⟨probe', node'⟩ := b
    simp [byProbe, and_comm]
  rw [shows_iff, labels, values]
  constructor
  · rintro ⟨⟨probe', node'⟩, same, last⟩
    obtain ⟨rfl, rfl⟩ : node' = node ∧ probe' = probe := by simpa [byProbe] using same
    exact (lastShown?_congr fun s => and_congr_right' (scopes ..)).mp last
  · intro last
    exact ⟨_, rfl, (lastShown?_congr fun s => and_congr_right' (scopes ..)).mpr last⟩

theorem shows_byNode_iff (h : g.name ∈ nodeNames) {node : String} {v : Float} :
    (({} : Registry).setAll ss).Shows ("octoping_probe_" ++ g.name) [("octoping_node", node)] v ↔
      lastShown? (fun s => s.gauge = g ∧ s.scope.node = node) ss = some v := by
  obtain ⟨labels, values⟩ := setter_of_nodeNames h
  have nodes (a b : Scope) : byNode a = byNode b ↔ a.node = b.node := by simp [byNode]
  rw [shows_iff, labels, values]
  constructor
  · rintro ⟨scope, same, last⟩
    obtain rfl : scope.node = node := by simpa [byNode] using same
    exact (lastShown?_congr fun s => and_congr_right' (nodes ..)).mp last
  · intro last
    -- of the scopes with this node any will do, since the label does not tell them apart
    refine ⟨⟨"", node⟩, rfl, ?_⟩
    exact (lastShown?_congr fun s => and_congr_right' (nodes ..)).mpr last

/-- Every label list is of one of the two sorts. -/
theorem labels_of_shows {family : String} {labels : List (String × String)} {v : Float}
    (h : (({} : Registry).setAll ss).Shows family labels v) :
    (∃ name ∈ probeNames, ∃ node probe, family = "octoping_probe_" ++ name ∧
        labels = [("octoping_node", node), ("octoping_probe", probe)]) ∨
      ∃ name ∈ nodeNames, ∃ node, family = "octoping_probe_" ++ name ∧
        labels = [("octoping_node", node)] := by
  obtain ⟨g, rfl⟩ := exists_setter_of_shows h
  obtain ⟨scope, rfl, -⟩ := shows_iff.mp h
  rcases g.name_mem with probe | node
  · obtain ⟨labels, values⟩ := setter_of_probeNames probe
    rw [labels, values]
    exact .inl ⟨g.name, probe, scope.node, scope.probe, rfl, rfl⟩
  · obtain ⟨labels, values⟩ := setter_of_nodeNames node
    rw [labels, values]
    exact .inr ⟨g.name, node, scope.node, rfl, rfl⟩

/-! ## One of each -/

/-- No two families have the same name. -/
theorem nodup_families (r : Registry) : (r.families.map (·.name)).Nodup := by
  have names : ((vecs.mergeSort fun a b => a.name ≤ b.name).map r.family).map (·.name) =
      (vecs.mergeSort fun a b => a.name ≤ b.name).map (·.name) := List.map_map
  have sorted : ((vecs.mergeSort fun a b => a.name ≤ b.name).map (·.name)).Perm
      (vecs.map (·.name)) := (List.mergeSort_perm ..).map _
  refine List.Nodup.sublist (List.filter_sublist.map _) ?_
  rw [names, sorted.nodup_iff]
  exact nodup_vecs

/-- No two samples of a family have the same labels. -/
theorem nodup_labels {vec : GaugeVec} (listed : vec ∈ vecs) :
    (((({} : Registry).setAll ss).family vec).samples.map (·.labels)).Nodup := by
  have keys : ((({} : Registry).setAll ss).samples.map GaugeSample.key).Nodup := by
    rw [setAll_eq]
    exact nodup_upserted _
  -- a sample has a value for every label, so the pairs give the values back
  have full : ∀ x ∈ (({} : Registry).setAll ss).samples, x.family = vec.name →
      (vec.labels.zip x.values).map Prod.snd = x.values := by
    intro x hx named
    obtain ⟨s, -, family, values⟩ := exists_set_of_mem hx
    obtain rfl := eq_setter_of_name listed (named.symm.trans family.symm)
    refine List.map_snd_zip (Nat.le_of_eq ?_)
    rw [← values]
    exact length_setter ..
  unfold family
  dsimp only
  rw [List.map_map, ((List.mergeSort_perm ..).map _).nodup_iff]
  refine List.pairwise_map.mpr (((List.pairwise_map.mp keys).filter _).imp_of_mem ?_)
  intro a b ha hb other same
  obtain ⟨ha, family⟩ := List.mem_filter.mp ha
  obtain ⟨hb, family'⟩ := List.mem_filter.mp hb
  have family := of_decide_eq_true family
  have family' := of_decide_eq_true family'
  have values : a.values = b.values := by
    rw [← full a ha family, ← full b hb family']
    exact congrArg (List.map Prod.snd) same
  exact other (Prod.ext (family.trans family'.symm) values)

end Registry

/-! ## Agreement -/

/-- How a collector and a registry stand to each other after the settings `ss`. -/
structure SinksAgree (ss : List Setting) (c : Collector) (r : Registry) : Prop where
  /-- The collector has one series for each scope and name. -/
  once : (c.series.map fun x => (x.scope, x.name)).Nodup
  /-- The series are in the order in which they were set first. -/
  order : c.series.map (fun x => (x.scope, x.name)) =
    (ss.map fun s => (s.scope, s.gauge.name)).eraseDups
  /-- A series has the number that was set last. -/
  latest : ∀ x, x ∈ c.series ↔
    lastShown? (fun s => s.scope = x.scope ∧ s.gauge.name = x.name) ss = some x.value
  /-- The series have the names of the setters. -/
  names : ∀ x ∈ c.series, x.name ∈ probeNames ∨ x.name ∈ nodeNames
  /-- A family told apart by node and probe shows what is collected, with the same numbers. -/
  perProbe : ∀ name ∈ probeNames, ∀ node probe v,
    r.Shows ("octoping_probe_" ++ name) [("octoping_node", node), ("octoping_probe", probe)] v ↔
      { scope := { probe, node }, name, value := v } ∈ c.series
  /-- A family told apart by node shows a node if a series of any probe is collected there. -/
  perNode : ∀ name ∈ nodeNames, ∀ node,
    (∃ v, r.Shows ("octoping_probe_" ++ name) [("octoping_node", node)] v) ↔
      ∃ x ∈ c.series, x.name = name ∧ x.scope.node = node
  /-- It shows the number that was last set for the node. -/
  perNode_latest : ∀ name ∈ nodeNames, ∀ node v,
    r.Shows ("octoping_probe_" ++ name) [("octoping_node", node)] v ↔
      lastShown? (fun s => s.gauge.name = name ∧ s.scope.node = node) ss = some v
  /-- Nothing is shown but what is of one of these two sorts. -/
  labelled : ∀ family labels v, r.Shows family labels v →
    (∃ name ∈ probeNames, ∃ node probe, family = "octoping_probe_" ++ name ∧
        labels = [("octoping_node", node), ("octoping_probe", probe)]) ∨
      ∃ name ∈ nodeNames, ∃ node, family = "octoping_probe_" ++ name ∧
        labels = [("octoping_node", node)]
  /-- There is no second family of a name, and none without samples. -/
  families : (r.families.map (·.name)).Nodup ∧ ∀ f ∈ r.families, f.samples ≠ []
  /-- The samples of a family are labelled each in its own way. -/
  apart : ∀ f ∈ r.families, (f.samples.map (·.labels)).Nodup

/-- **The sinks agree.**  Whatever is set in whatever order, the collector and the registry come to
hold the same series with the same values, apart from those of the lookup counters, of which the
registry holds for each node what any probe set last. -/
theorem sinks_agree (ss : List Setting) :
    SinksAgree ss (({} : Collector).setAll ss) (({} : Registry).setAll ss) where
  once := by
    rw [Collector.setAll_eq]
    exact nodup_upserted _
  order := by
    rw [Collector.setAll_eq]
    refine (keys_upserted _).trans ?_
    rw [List.map_map]
    rfl
  latest := fun x => Collector.mem_series_iff
  names := by
    intro x hx
    obtain ⟨g, named⟩ := Collector.exists_gauge_of_mem hx
    exact named ▸ g.name_mem
  perProbe := by
    intro name there node probe v
    obtain ⟨g, rfl⟩ := exists_name (List.mem_append_left _ there)
    rw [Registry.shows_byProbe_iff there, Collector.mem_series_name_iff]
  perNode := by
    intro name there node
    obtain ⟨g, rfl⟩ := exists_name (List.mem_append_right _ there)
    simp only [Registry.shows_byNode_iff there]
    rw [Collector.exists_series_iff, exists_lastShown]
    simp only [decide_eq_true_eq]
  perNode_latest := by
    intro name there node v
    obtain ⟨g, rfl⟩ := exists_name (List.mem_append_right _ there)
    rw [Registry.shows_byNode_iff there]
    exact lastShown?_congr fun s => and_congr_left' ⟨congrArg _, Gauge.name_injective⟩
  labelled := fun family labels v => Registry.labels_of_shows
  families := ⟨Registry.nodup_families _, fun f hf => (Registry.mem_families.mp hf).2⟩
  apart := by
    intro f hf
    obtain ⟨⟨vec, listed, rfl⟩, -⟩ := Registry.mem_families.mp hf
    exact Registry.nodup_labels listed

/-- Two probes of one node, of which one is set twice. -/
def twoProbes : List Setting :=
  [⟨.dnsTotal, ⟨"a", "here"⟩, .number 1.0⟩, ⟨.rttMax, ⟨"a", "here"⟩, .number 250.0⟩,
    ⟨.dnsTotal, ⟨"b", "here"⟩, .number 2.0⟩, ⟨.health, ⟨"b", "here"⟩, .flag true⟩,
    ⟨.rttMax, ⟨"a", "here"⟩, .number 300.0⟩]

/-- They have a series each of the lookup counter, of which the registry shows the later one. -/
theorem probes_share_a_counter :
    (({} : Collector).setAll twoProbes).series =
        [⟨⟨"a", "here"⟩, "dns_total", 1.0⟩, ⟨⟨"a", "here"⟩, "rtt_max", 300.0⟩,
          ⟨⟨"b", "here"⟩, "dns_total", 2.0⟩, ⟨⟨"b", "here"⟩, "health", 1.0⟩] ∧
      (({} : Registry).setAll twoProbes).Shows "octoping_probe_rtt_max"
        [("octoping_node", "here"), ("octoping_probe", "a")] 300.0 ∧
      (({} : Registry).setAll twoProbes).Shows "octoping_probe_health"
        [("octoping_node", "here"), ("octoping_probe", "b")] 1.0 ∧
      (({} : Registry).setAll twoProbes).Shows "octoping_probe_dns_total"
        [("octoping_node", "here")] 2.0 ∧
      ∀ v, ¬(({} : Registry).setAll twoProbes).Shows "octoping_probe_rtt_max"
        [("octoping_node", "here"), ("octoping_probe", "b")] v := by
  have agree := sinks_agree twoProbes
  refine ⟨rfl, ?_, ?_, ?_, fun v shown => ?_⟩
  · exact (agree.perProbe "rtt_max" (by decide) "here" "a" 300.0).mpr (.tail _ (.head _))
  · exact (agree.perProbe "health" (by decide) "here" "b" 1.0).mpr
      (.tail _ (.tail _ (.tail _ (.head _))))
  · exact (agree.perNode_latest "dns_total" (by decide) "here" 2.0).mpr rfl
  · have collected := (agree.perProbe "rtt_max" (by decide) "here" "b" v).mp shown
    have none_set : (none : Option Float) = some v := (agree.latest _).mp collected
    exact absurd none_set (by simp)

end PingWatch
