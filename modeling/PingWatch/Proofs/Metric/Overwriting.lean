import PingWatch.Proofs.Metric.Gather
import PingWatch.Proofs.Metric.Upsert
import PingWatch.Registry
import PingWatch.Series

/-!
# Flushes overwrite each other

Setting a gauge of a scope once more replaces what was there and keeps its place (`Overwrites`).  So
when two flushes set the same gauges of the same scope, nothing is left of the first
(`Overwrites.refold`).  Both sinks are of this sort, the collected series and the registry, since
both put their entries by `upsert`.
-/

namespace PingWatch

section Overwriting

variable {σ : Type} {scope : Scope} {set : σ → Setting → σ}

/-- Settings of one scope replace one another gauge by gauge, also when other gauges have been set
in the meantime. -/
structure Overwrites (scope : Scope) (set : σ → Setting → σ) : Prop where
  again : ∀ m a b, a.scope = scope → b.scope = scope → a.gauge = b.gauge →
    set (set m a) b = set m b
  across : ∀ m a b c, a.scope = scope → b.scope = scope → c.scope = scope → a.gauge = c.gauge →
    b.gauge ≠ a.gauge → set (set (set m a) b) c = set (set m c) b

/-- A gauge may as well be set before others as after them, if it was set before. -/
theorem Overwrites.foldl_set (h : Overwrites scope set) {a c : Setting} (ha : a.scope = scope)
    (hc : c.scope = scope) (same : a.gauge = c.gauge) {ss : List Setting}
    (scopes : ∀ s ∈ ss, s.scope = scope) (others : a.gauge ∉ ss.map (·.gauge)) (m : σ) :
    set (ss.foldl set (set m a)) c = ss.foldl set (set m c) := by
  induction ss generalizing m with
  | nil => exact h.again m a c ha hc same
  | cons b ss ih =>
    obtain ⟨hb, scopes⟩ := List.forall_mem_cons.mp scopes
    rw [List.map_cons, List.mem_cons, not_or] at others
    obtain ⟨other, others⟩ := others
    have kept : set (set m a) b = set (set (set m a) b) a :=
      (h.across m a b a ha hb ha rfl (Ne.symm other)).symm
    rw [List.foldl_cons, List.foldl_cons, kept, ih scopes others,
      h.across m a b c ha hb hc same (Ne.symm other)]

/-- Nothing is left of settings when the same gauges are set again. -/
theorem Overwrites.refold (h : Overwrites scope set) {ss ss' : List Setting}
    (gauges : ss.map (·.gauge) = ss'.map (·.gauge)) (apart : (ss.map (·.gauge)).Nodup)
    (scopes : ∀ s ∈ ss, s.scope = scope) (scopes' : ∀ s ∈ ss', s.scope = scope) (m : σ) :
    ss'.foldl set (ss.foldl set m) = ss'.foldl set m := by
  induction ss generalizing ss' m with
  | nil => rfl
  | cons a ss ih =>
    cases ss' with
    | nil => exact absurd gauges (by simp)
    | cons c ss' =>
      obtain ⟨ha, scopes⟩ := List.forall_mem_cons.mp scopes
      obtain ⟨hc, scopes'⟩ := List.forall_mem_cons.mp scopes'
      obtain ⟨same, gauges⟩ := List.cons.inj gauges
      obtain ⟨others, apart⟩ := List.nodup_cons.mp apart
      rw [List.foldl_cons, List.foldl_cons, List.foldl_cons,
        h.foldl_set ha hc same scopes others, ih gauges apart scopes scopes']

/-- Of two flushes of one scope and kind only the second is left. -/
theorem Overwrites.flush (h : Overwrites scope set) (kind : Kind) (s s' : Samples) (m : σ) :
    (gather takesAll { scope, kind, samples := s' }).foldl set
        ((gather takesAll { scope, kind, samples := s }).foldl set m) =
      (gather takesAll { scope, kind, samples := s' }).foldl set m := by
  refine h.refold ?_ ?_ (fun _ => scope_gather) (fun _ => scope_gather) m
  · rw [gauges_gather, gauges_gather]
  · rw [gauges_gather]
    exact kind.gauges_nodup

end Overwriting

/-! ## The collected series -/

/-- The number that a reading stands for: a flag counts as one or zero. -/
def Reading.shown : Reading → Float
  | number x => x
  | flag true => 1.0
  | flag false => 0.0

/-- What tells a series from others. -/
def Series.key (s : Series) : Scope × String := (s.scope, s.name)

theorem Series.put_eq_upsert (scope : Scope) (name : String) (value : Float) (ss : List Series) :
    put scope name value ss = upsert key { scope, name, value } ss := by
  induction ss with
  | nil => rfl
  | cons s rest ih =>
    have same : s.isFor scope name = true ↔ s.key = key { scope, name, value } := by simp [key]
    unfold put upsert
    by_cases here : s.isFor scope name = true
    · obtain ⟨rfl, rfl⟩ := isFor_eq_true.mp here
      rw [if_pos here, if_pos (same.mp here)]
    · rw [if_neg here, if_neg (mt same.mpr here), ih]

/-- The series that a setting writes. -/
def Setting.series (s : Setting) : Series :=
  { scope := s.scope, name := s.gauge.name, value := s.value.shown }

namespace Collector

theorem seriesName_eq (g : Gauge) : seriesName g = g.name := by cases g <;> rfl

theorem level_eq (v : Reading) : level v = v.shown := by
  cases v with
  | number x => rfl
  | flag healthy => cases healthy <;> rfl

theorem set_eq_put (c : Collector) (s : Setting) :
    c.set s = ⟨Series.put s.scope s.gauge.name s.value.shown c.series⟩ := by
  unfold set put
  rw [seriesName_eq, level_eq]

theorem set_eq (c : Collector) (s : Setting) :
    c.set s = ⟨upsert Series.key s.series c.series⟩ := by
  rw [set_eq_put, Series.put_eq_upsert]
  rfl

theorem overwrites (scope : Scope) : Overwrites scope Collector.set where
  again := by
    intro m a b ha hb same
    have key : a.series.key = b.series.key := by simp [Series.key, Setting.series, ha, hb, same]
    rw [set_eq, set_eq, set_eq, upsert_upsert key]
  across := by
    intro m a b c ha hb hc same other
    have key : a.series.key = c.series.key := by simp [Series.key, Setting.series, ha, hc, same]
    have apart : b.series.key ≠ a.series.key :=
      fun e => other (Gauge.name_injective (Prod.mk.inj e).2)
    rw [set_eq, set_eq, set_eq, set_eq, set_eq, upsert_upsert_upsert key apart]

end Collector

/-! ## The registry -/

/-- What tells a sample from others. -/
def GaugeSample.key (s : GaugeSample) : String × List String := (s.family, s.values)

theorem GaugeSample.put_eq_upsert (family : String) (values : List String) (value : Float)
    (ss : List GaugeSample) :
    put family values value ss = upsert key { family, values, value } ss := by
  induction ss with
  | nil => rfl
  | cons s rest ih =>
    have same : s.isFor family values = true ↔ s.key = key { family, values, value } := by
      simp [key]
    unfold put upsert
    by_cases here : s.isFor family values = true
    · obtain ⟨rfl, rfl⟩ := isFor_eq_true.mp here
      rw [if_pos here, if_pos (same.mp here)]
    · rw [if_neg here, if_neg (mt same.mpr here), ih]

/-- The sample that a setting writes. -/
def Setting.sample (s : Setting) : GaugeSample :=
  { family := (Registry.setter s.gauge).1.name
    values := (Registry.setter s.gauge).2 s.scope
    value := s.value.shown }

namespace Registry

theorem level_eq (v : Reading) : level v = v.shown := by
  cases v with
  | number x => rfl
  | flag healthy => cases healthy <;> rfl

/-- The family that a setter sets is named after it. -/
theorem setter_name (g : Gauge) : (setter g).1.name = "octoping_probe_" ++ g.name := by
  cases g <;> decide

theorem setter_name_injective {g h : Gauge} (e : (setter g).1.name = (setter h).1.name) :
    g = h := by
  rw [setter_name, setter_name] at e
  exact Gauge.name_injective ((String.append_right_inj _).mp e)

theorem set_eq (r : Registry) (s : Setting) :
    r.set s = ⟨upsert GaugeSample.key s.sample r.samples⟩ := by
  unfold set put
  dsimp only
  rw [if_pos (length_setter ..), level_eq, GaugeSample.put_eq_upsert]
  rfl

theorem overwrites (scope : Scope) : Overwrites scope Registry.set where
  again := by
    intro m a b ha hb same
    have key : a.sample.key = b.sample.key := by
      simp [GaugeSample.key, Setting.sample, ha, hb, same]
    rw [set_eq, set_eq, set_eq, upsert_upsert key]
  across := by
    intro m a b c ha hb hc same other
    have key : a.sample.key = c.sample.key := by
      simp [GaugeSample.key, Setting.sample, ha, hc, same]
    have apart : b.sample.key ≠ a.sample.key :=
      fun e => other (setter_name_injective (Prod.mk.inj e).1)
    rw [set_eq, set_eq, set_eq, set_eq, set_eq, upsert_upsert_upsert key apart]

end Registry

end PingWatch
