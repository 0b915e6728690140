import PingWatch.Proofs.Config.Readers

/-!
# Configurations are read key by key

Each part of a configuration has a key (`Part`), and a configuration is read part by part.  The
first part that is not valid decides, and with it the error (`Follows`).  What is read for a part is
a matter of its own key alone (`KeyByKey`), whatever the other keys hold.

* `Follows.bind`: a reading goes on to the next part if the one before it is valid.
* `KeyByKey.of_follows`: what is to be shown of a configuration.
* `configurations_are_read_key_by_key`: it holds of both.
-/

namespace PingWatch

open Text

/-- A part of a configuration: the key that it is read from, what a value of the key stands for, and
what the part is if the key is absent or blank. -/
structure Part (Config : Type) where
  key : String
  {Value : Type}
  reads : String → Value → Prop
  default : Value
  of : Config → Value

namespace Part

variable {Config : Type}

/-- The key of a part, taken alone: it is absent, or blank, or its value stands for something.  The
values of a file have no blanks around them, so that a blank one is empty. -/
def Valid (part : Part Config) (p : Properties) : Prop :=
  p.get? part.key = none ∨ p.get? part.key = some "" ∨
    ∃ value a, p.get? part.key = some value ∧ part.reads value a

/-- The part of a configuration is what its key gives. -/
def Holds (part : Part Config) (p : Properties) (c : Config) : Prop :=
  p.Gives part.reads part.key part.default (part.of c)

/-- A value stands for one thing at most. -/
def Single (part : Part Config) : Prop :=
  ∀ value a b, part.reads value a → part.reads value b → a = b

theorem Holds.valid {part : Part Config} {p : Properties} {c : Config} (h : part.Holds p c) :
    part.Valid p := Properties.exists_gives_iff.mp ⟨_, h⟩

/-- What a key gives is a matter of that key alone. -/
theorem Holds.eq {part : Part Config} {p q : Properties} {c d : Config} (single : part.Single)
    (same : p.stated? part.key = q.stated? part.key) (hc : part.Holds p c) (hd : part.Holds q d) :
    part.of c = part.of d := by
  unfold Holds at hc hd
  cases h : q.stated? part.key with
  | none =>
    rw [Properties.gives_of_unstated h] at hd
    rw [Properties.gives_of_unstated (same.trans h)] at hc
    exact hc.trans hd.symm
  | some value =>
    rw [Properties.gives_of_stated h] at hd
    rw [Properties.gives_of_stated (same.trans h)] at hc
    exact single value _ _ hc hd

/-- Any list is valid. -/
theorem valid_list (key : String) (list : Config → List String) (p : Properties) :
    Valid ⟨key, IsList, [], list⟩ p :=
  Properties.exists_gives_iff.mp ⟨_, Properties.list_gives.mp rfl⟩

end Part

/-- How a configuration is read, part by part. -/
structure KeyByKey {Config : Type} (read : Properties → Except ConfigError Config)
    (parts : List (Part Config)) : Prop where
  /-- It is accepted if and only if each key is, taken alone. -/
  accepts : ∀ p, (∃ c, read p = .ok c) ↔ ∀ part ∈ parts, part.Valid p
  /-- Each part is what its own key gives. -/
  gives : ∀ p c, read p = .ok c ↔ ∀ part ∈ parts, part.Holds p c
  /-- A part is the same for any two maps that state the same for its key. -/
  own : ∀ p q c d, read p = .ok c → read q = .ok d →
    ∀ part ∈ parts, p.stated? part.key = q.stated? part.key → part.of c = part.of d
  /-- Other keys do not matter, nor does it whether a key is absent or blank. -/
  others : ∀ p q : Properties, (∀ part ∈ parts, p.stated? part.key = q.stated? part.key) →
    read p = read q
  /-- The error names the first key that is not valid. -/
  refuses : ∀ p e, read p = .error e →
    ∃ before part after, parts = before ++ part :: after ∧ (∀ b ∈ before, b.Valid p) ∧
      ¬part.Valid p ∧ e.Names part.key

section Follows

variable {Config α : Type} {parts : List (Part Config)}

/-- A reading of parts in their order.  It succeeds only if all of them are valid, and otherwise the
first that is not gives its error. -/
structure Follows (parts : List (Part Config)) (read : Properties → Except ConfigError α) :
    Prop where
  valid : ∀ p a, read p = .ok a → ∀ part ∈ parts, part.Valid p
  first : ∀ p e, read p = .error e →
    ∃ before part after, parts = before ++ part :: after ∧ (∀ b ∈ before, b.Valid p) ∧
      ¬part.Valid p ∧ e.Names part.key
  others : ∀ p q : Properties, (∀ part ∈ parts, p.stated? part.key = q.stated? part.key) →
    read p = read q

/-- What is left over is not refused. -/
theorem Follows.done {value : Properties → α} (valid : ∀ p, ∀ part ∈ parts, part.Valid p)
    (others : ∀ p q : Properties, (∀ part ∈ parts, p.stated? part.key = q.stated? part.key) →
      value p = value q) :
    Follows parts fun p => (.ok (value p) : Except ConfigError α) where
  valid p _ _ := valid p
  first _ _ refused := nomatch refused
  others p q same := congrArg Except.ok (others p q same)

/-- A reader of one key comes first, and the rest is read only if that key is valid. -/
theorem Follows.bind {part : Part Config} {read : Properties → Except ConfigError part.Value}
    {rest : Properties → part.Value → Except ConfigError α}
    (spec : ReadsKey read part.reads part.key part.default)
    (follows : ∀ a, Follows parts fun p => rest p a) :
    Follows (part :: parts) fun p => read p >>= rest p where
  valid p b h := by
    obtain ⟨a, first, h⟩ := bind_eq_ok.mp h
    exact List.forall_mem_cons.mpr ⟨Properties.exists_gives_iff.mp ⟨a, (spec.gives p a).mp first⟩,
      (follows a).valid p b h⟩
  first p e refused := by
    rcases bind_eq_error.mp refused with here | ⟨a, passed, later⟩
    · refine ⟨[], part, parts, rfl, by simp, fun valid => ?_, spec.names p e here⟩
      obtain ⟨a, gives⟩ := Properties.exists_gives_iff.mpr valid
      exact absurd (here.symm.trans ((spec.gives p a).mpr gives)) (by simp)
    · obtain ⟨before, part', after, rfl, valid, invalid, names⟩ := (follows a).first p e later
      have here : part.Valid p := Properties.exists_gives_iff.mp ⟨a, (spec.gives p a).mp passed⟩
      exact ⟨part :: before, part', after, rfl, List.forall_mem_cons.mpr ⟨here, valid⟩, invalid,
        names⟩
  others p q same := by
    rw [List.forall_mem_cons] at same
    have rest_eq : rest p = rest q := funext fun a => (follows a).others p q same.2
    rw [spec.alone p q same.1, rest_eq]

theorem Follows.accepts {read : Properties → Except ConfigError α} (h : Follows parts read)
    (p : Properties) : (∃ a, read p = .ok a) ↔ ∀ part ∈ parts, part.Valid p := by
  cases outcome : read p with
  | ok a => exact ⟨fun _ => h.valid p a outcome, fun _ => ⟨a, rfl⟩⟩
  | error e =>
    obtain ⟨before, part, after, rfl, -, invalid, -⟩ := h.first p e outcome
    constructor
    · rintro ⟨a, read⟩
      exact nomatch read
    · intro valid
      exact absurd (valid part (by simp)) invalid

end Follows

/-- A configuration is read key by key if its reading follows the parts and gives what their keys
give, and if the parts are all that there is to it. -/
theorem KeyByKey.of_follows {Config : Type} {read : Properties → Except ConfigError Config}
    {parts : List (Part Config)} (follows : Follows parts read)
    (holds : ∀ p c, read p = .ok c → ∀ part ∈ parts, part.Holds p c)
    (single : ∀ part ∈ parts, part.Single)
    (whole : ∀ c d, (∀ part ∈ parts, part.of c = part.of d) → c = d) : KeyByKey read parts where
  accepts := follows.accepts
  gives p c := by
    refine ⟨holds p c, fun given => ?_⟩
    obtain ⟨d, read⟩ := (follows.accepts p).mpr fun part h => (given part h).valid
    have same : d = c := whole d c fun part h =>
      Part.Holds.eq (single part h) rfl (holds p d read part h) (given part h)
    rw [read, same]
  own p q c d readp readq part h same :=
    Part.Holds.eq (single part h) same (holds p c readp part h) (holds q d readq part h)
  others := follows.others
  refuses := follows.first

/-! ## The two configurations -/

open Properties

namespace EchoConfig

def parts : List (Part EchoConfig) :=
  [⟨"count", IsCount mostRequests, 5, fun c => c.count.toNat⟩,
    ⟨"node_packet_loss_threshold", IsFraction, 0.05, reportThreshold⟩,
    ⟨"interval", IsPause, .ofSeconds 1, interval⟩,
    ⟨"timeout", IsPause, .ofSeconds 5, timeout⟩,
    ⟨"ping_interval", IsPause, .ofMillis 100, pingInterval⟩,
    ⟨"concurrency", IsCount mostConfigured, 10, concurrency⟩,
    ⟨"exclude_nodes", IsList, [], excludeNodes⟩,
    ⟨"additional_targets", IsList, [], additionalTargets⟩]

theorem follows : Follows parts ofProperties := by
  unfold parts ofProperties
  refine .bind positiveOr_readsKey fun count => ?_
  refine .bind fractionOr_readsKey fun threshold => ?_
  refine .bind positiveDurationOr_readsKey fun interval => ?_
  refine .bind positiveDurationOr_readsKey fun timeout => ?_
  refine .bind positiveDurationOr_readsKey fun pingInterval => ?_
  refine .bind positiveOr_readsKey fun concurrency => ?_
  refine .done (fun p => ?_) fun p q same => ?_
  · exact List.forall_mem_cons.mpr ⟨Part.valid_list .., List.forall_mem_singleton.mpr
      (Part.valid_list ..)⟩
  · rw [List.forall_mem_cons, List.forall_mem_singleton] at same
    rw [list_congr same.1, list_congr same.2]

theorem holds {p : Properties} {c : EchoConfig} (h : ofProperties p = .ok c) :
    ∀ part ∈ parts, part.Holds p c := by
  obtain ⟨count, hcount, h⟩ := bind_eq_ok.mp h
  obtain ⟨threshold, hthreshold, h⟩ := bind_eq_ok.mp h
  obtain ⟨interval, hinterval, h⟩ := bind_eq_ok.mp h
  obtain ⟨timeout, htimeout, h⟩ := bind_eq_ok.mp h
  obtain ⟨pingInterval, hping, h⟩ := bind_eq_ok.mp h
  obtain ⟨concurrency, hconcurrency, h⟩ := bind_eq_ok.mp h
  obtain rfl := Except.ok.inj h
  have requests := (ReadsKey.gives positiveOr_readsKey ..).mp hcount
  -- the word keeps the number, which is bounded
  have word : count.toUInt16.toNat = count :=
    Nat.mod_eq_of_lt (Nat.lt_succ_of_le (requests.bounded (by decide)).2)
  rw [← word] at requests
  simp only [parts, List.forall_mem_cons]
  exact ⟨requests,
    (ReadsKey.gives fractionOr_readsKey ..).mp hthreshold,
    (ReadsKey.gives positiveDurationOr_readsKey ..).mp hinterval,
    (ReadsKey.gives positiveDurationOr_readsKey ..).mp htimeout,
    (ReadsKey.gives positiveDurationOr_readsKey ..).mp hping,
    (ReadsKey.gives positiveOr_readsKey ..).mp hconcurrency, list_gives.mp rfl, list_gives.mp rfl,
    by simp⟩

theorem keyByKey : KeyByKey ofProperties parts := by
  refine .of_follows follows (fun p c => holds) ?_ fun c d same => ?_
  · simp only [parts, List.forall_mem_cons]
    exact ⟨fun _ _ _ => IsCount.unique, fun _ _ _ => IsFraction.unique, fun _ _ _ => IsPause.unique,
      fun _ _ _ => IsPause.unique, fun _ _ _ => IsPause.unique, fun _ _ _ => IsCount.unique,
      fun _ _ _ => IsList.unique, fun _ _ _ => IsList.unique, by simp⟩
  · cases c
    cases d
    simp only [parts, List.forall_mem_cons] at same
    obtain ⟨count, rfl, rfl, rfl, rfl, rfl, rfl, rfl, -⟩ := same
    obtain rfl := UInt16.toNat_inj.mp count
    rfl

end EchoConfig

namespace LookupConfig

def parts : List (Part LookupConfig) :=
  [⟨"server", IsServer, none, server⟩,
    ⟨"interval", IsPause, .ofSeconds 1, interval⟩,
    ⟨"timeout", IsPause, .ofSeconds 5, timeout⟩,
    ⟨"concurrency", IsCount mostConfigured, 100, concurrency⟩,
    ⟨"names", IsList, [], names⟩]

theorem follows : Follows parts ofProperties := by
  unfold parts ofProperties
  refine .bind server?_readsKey fun server => ?_
  refine .bind positiveDurationOr_readsKey fun interval => ?_
  refine .bind positiveDurationOr_readsKey fun timeout => ?_
  refine .bind positiveOr_readsKey fun concurrency => ?_
  refine .done (fun p => ?_) fun p q same => ?_
  · exact List.forall_mem_singleton.mpr (Part.valid_list ..)
  · rw [List.forall_mem_singleton] at same
    rw [list_congr same]

theorem holds {p : Properties} {c : LookupConfig} (h : ofProperties p = .ok c) :
    ∀ part ∈ parts, part.Holds p c := by
  obtain ⟨server, hserver, h⟩ := bind_eq_ok.mp h
  obtain ⟨interval, hinterval, h⟩ := bind_eq_ok.mp h
  obtain ⟨timeout, htimeout, h⟩ := bind_eq_ok.mp h
  obtain ⟨concurrency, hconcurrency, h⟩ := bind_eq_ok.mp h
  obtain rfl := Except.ok.inj h
  simp only [parts, List.forall_mem_cons]
  exact ⟨(ReadsKey.gives server?_readsKey ..).mp hserver,
    (ReadsKey.gives positiveDurationOr_readsKey ..).mp hinterval,
    (ReadsKey.gives positiveDurationOr_readsKey ..).mp htimeout,
    (ReadsKey.gives positiveOr_readsKey ..).mp hconcurrency, list_gives.mp rfl, by simp⟩

theorem keyByKey : KeyByKey ofProperties parts := by
  refine .of_follows follows (fun p c => holds) ?_ fun c d same => ?_
  · simp only [parts, List.forall_mem_cons]
    exact ⟨fun _ _ _ => IsServer.unique, fun _ _ _ => IsPause.unique, fun _ _ _ => IsPause.unique,
      fun _ _ _ => IsCount.unique, fun _ _ _ => IsList.unique, by simp⟩
  · cases c
    cases d
    simp only [parts, List.forall_mem_cons] at same
    obtain ⟨rfl, rfl, rfl, rfl, rfl, -⟩ := same
    rfl

end LookupConfig

/-- **Configurations are read key by key.**  Either configuration is accepted if and only if each of
its keys, taken alone, is absent, blank or valid.  Each of its parts is then what its own key gives:
its default if the key is absent or blank, and otherwise what the value stands for.  Keys of no part
do not matter, nor does it whether a key is absent or blank.  What is refused is the first key that
is not valid. -/
theorem configurations_are_read_key_by_key :
    KeyByKey EchoConfig.ofProperties EchoConfig.parts ∧
      KeyByKey LookupConfig.ofProperties LookupConfig.parts :=
  ⟨EchoConfig.keyByKey, LookupConfig.keyByKey⟩

end PingWatch
