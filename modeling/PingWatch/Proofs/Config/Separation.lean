import Mathlib.Data.List.Forall2
import PingWatch.Config.Directory
import PingWatch.Proofs.Config.KeyByKey

/-!
# The probes of a configuration directory

Each probe has two files of its own: one says whether the probe is enabled, the other holds its
properties.  What these come to is said here without the order in which they are read: the settings
that they give (`ConfigDirectory.Gives`) and the error of the first that is refused
(`ConfigDirectory.Refuses`).

* `readFlag_eq_true_iff`, `readFlag_eq_false_iff`: what an enabling file can say.
* `settings_eq_ok_iff`, `settings_eq_error_iff`: what the two files of one probe come to.
* `settings_congr`: they do so whatever other files there are, and the properties of a disabled
  probe are not even looked at.
* `probes_do_not_interfere`: what this means for the directory.
-/

namespace PingWatch

open Text

/-! ## Words in any case -/

namespace Text

/-- A text that is a word of small letters, except that any of them may be capital. -/
def AnyCase (word s : String) : Prop :=
  List.Forall₂ (fun c w => c = w ∨ c = w.toUpper) s.toList word.toList

theorem toNat_toLower (c : Char) :
    c.toLower.toNat = if 65 ≤ c.toNat ∧ c.toNat ≤ 90 then c.toNat + 32 else c.toNat := by
  by_cases upper : 65 ≤ c.toNat ∧ c.toNat ≤ 90
  · have within : c.val ≥ 'A'.val ∧ c.val ≤ 'Z'.val := upper
    have made : c.toLower = ⟨c.val + ('a'.val - 'A'.val), _⟩ := dif_pos within
    rw [if_pos upper, made]
    show (c.val + ('a'.val - 'A'.val)).toNat = c.val.toNat + 32
    have step : ('a'.val - 'A'.val).toNat = 32 := rfl
    have small : c.val.toNat ≤ 90 := upper.2
    rw [UInt32.toNat_add, step]
    omega
  · have without : ¬(c.val ≥ 'A'.val ∧ c.val ≤ 'Z'.val) := upper
    have same : c.toLower = c := dif_neg without
    rw [if_neg upper, same]

theorem toNat_toUpper (c : Char) :
    c.toUpper.toNat = if 97 ≤ c.toNat ∧ c.toNat ≤ 122 then c.toNat - 32 else c.toNat := by
  by_cases lower : 97 ≤ c.toNat ∧ c.toNat ≤ 122
  · have within : 'a'.val ≤ c.val ∧ c.val ≤ 'z'.val := lower
    have made : c.toUpper = ⟨c.val + ('A'.val - 'a'.val), _⟩ := dif_pos within
    rw [if_pos lower, made]
    show (c.val + ('A'.val - 'a'.val)).toNat = c.val.toNat - 32
    have step : ('A'.val - 'a'.val).toNat = 2 ^ 32 - 32 := rfl
    have small : 97 ≤ c.val.toNat ∧ c.val.toNat ≤ 122 := lower
    rw [UInt32.toNat_add, step]
    omega
  · have without : ¬('a'.val ≤ c.val ∧ c.val ≤ 'z'.val) := lower
    have same : c.toUpper = c := dif_neg without
    rw [if_neg lower, same]

/-- The letters that become a small letter are that letter and its capital. -/
theorem toLower_eq_iff {c w : Char} (hw : w.isLower = true) :
    c.toLower = w ↔ c = w ∨ c = w.toUpper := by
  have lower : 97 ≤ w.toNat ∧ w.toNat ≤ 122 := by
    obtain ⟨low, high⟩ := Bool.and_eq_true_iff.mp hw
    exact ⟨of_decide_eq_true low, of_decide_eq_true high⟩
  rw [← Char.toNat_inj, ← Char.toNat_inj, ← Char.toNat_inj, toNat_toLower, toNat_toUpper,
    if_pos lower]
  split <;> omega

end Text

namespace ConfigDirectory

theorem lowered_eq_iff {word s : String} (hw : word.toList.all Char.isLower = true) :
    lowered s = word ↔ AnyCase word s := by
  have letters : ∀ (ws cs : List Char), (∀ w ∈ ws, w.isLower = true) →
      (cs.map Char.toLower = ws ↔ List.Forall₂ (fun c w => c = w ∨ c = w.toUpper) cs ws) := by
    intro ws cs hws
    induction cs generalizing ws with
    | nil => cases ws <;> simp
    | cons c cs ih =>
      cases ws with
      | nil => simp
      | cons w ws =>
        obtain ⟨one, rest⟩ := List.forall_mem_cons.mp hws
        rw [List.map_cons, List.cons_eq_cons, toLower_eq_iff one, ih ws rest, List.forall₂_cons]
  rw [lowered, ← String.toList_inj, String.toList_ofList, letters _ _ (List.all_eq_true.mp hw)]
  rfl

/-! ## What the files say -/

/-- What reading a file of the directory comes to. -/
def file (d : ConfigDirectory) (name : String) : Except ReadError String :=
  d.files.read (joinPath d.base name)

/-- The content of an enabling file that enables its probe. -/
def SaysOn (content : String) : Prop := AnyCase "true" (trimmed content)

/-- The content of an enabling file that disables its probe. -/
def SaysOff (content : String) : Prop :=
  (∀ c ∈ content.toList, isBlank c = true) ∨ AnyCase "false" (trimmed content)

def Enabled (d : ConfigDirectory) (probe : String) : Prop :=
  ∃ content, d.file (enabledName probe) = .ok content ∧ SaysOn content

def Disabled (d : ConfigDirectory) (probe : String) : Prop :=
  d.file (enabledName probe) = .error .missing ∨
    ∃ content, d.file (enabledName probe) = .ok content ∧ SaysOff content

/-- A file is there and cannot be read as text. -/
def Unreadable (d : ConfigDirectory) (name : String) (e : ConfigError) : Prop :=
  ∃ cause, d.file name = .error cause ∧ cause ≠ .missing ∧
    e = .unreadable (joinPath d.base name) cause.message

section Probe

variable {α : Type} (read : Properties → Except ConfigError α) (default : α)
  (d : ConfigDirectory) (probe : String)

/-- What a probe is set to by its two files: nothing if it is disabled, and otherwise what its
properties stand for, or the default without a file of them. -/
inductive Gives : Option α → Prop
  | disabled (off : d.Disabled probe) : Gives none
  | missing (on : d.Enabled probe) (h : d.file (propertiesName probe) = .error .missing) :
      Gives (some default)
  | stated {content : String} {c : α} (on : d.Enabled probe)
      (h : d.file (propertiesName probe) = .ok content) (valid : read (.parse content) = .ok c) :
      Gives (some c)

/-- The error of a probe's own files. -/
inductive Refuses : ConfigError → Prop
  | flagUnreadable {e : ConfigError} (h : d.Unreadable (enabledName probe) e) : Refuses e
  | flagInvalid {content : String} (h : d.file (enabledName probe) = .ok content)
      (on : ¬SaysOn content) (off : ¬SaysOff content) :
      Refuses (.invalid (enabledName probe) (trimmed content) .flag)
  | unreadable {e : ConfigError} (on : d.Enabled probe)
      (h : d.Unreadable (propertiesName probe) e) : Refuses e
  | invalid {content : String} {e : ConfigError} (on : d.Enabled probe)
      (h : d.file (propertiesName probe) = .ok content)
      (refused : read (.parse content) = .error e) : Refuses e

end Probe

/-- The files of a probe can be used: it is disabled, or else its properties are missing or each of
its keys is valid. -/
def Usable {Config : Type} (parts : List (Part Config)) (d : ConfigDirectory) (probe : String) :
    Prop :=
  d.Disabled probe ∨ d.Enabled probe ∧
    (d.file (propertiesName probe) = .error .missing ∨
      ∃ content, d.file (propertiesName probe) = .ok content ∧
        ∀ part ∈ parts, part.Valid (.parse content))

/-- The files that are read. -/
def fileNames : List String :=
  [echoProbe, lookupProbe].flatMap fun probe => [enabledName probe, propertiesName probe]

/-- Two directories have the same files for a probe. -/
def SameFiles (d d' : ConfigDirectory) (probe : String) : Prop :=
  d.file (enabledName probe) = d'.file (enabledName probe) ∧
    d.file (propertiesName probe) = d'.file (propertiesName probe)

/-! ## One file -/

variable {d d' : ConfigDirectory} {probe name key content : String} {e : ConfigError}

theorem readFlag_eq_true_iff (key content : String) :
    readFlag key content = .ok true ↔ SaysOn content := by
  unfold SaysOn readFlag
  rw [← lowered_eq_iff rfl]
  dsimp only
  split
  · next on => exact ⟨fun _ => on, fun _ => rfl⟩
  · next other => split <;> simp [other]

theorem readFlag_eq_false_iff (key content : String) :
    readFlag key content = .ok false ↔ SaysOff content := by
  have blank : (∀ c ∈ content.toList, isBlank c = true) ↔ trimmed content = "" := by
    rw [trimmed, ← String.toList_eq_nil_iff, String.toList_ofList, trim_eq_nil_iff]
  unfold SaysOff readFlag
  rw [← lowered_eq_iff rfl, blank]
  dsimp only
  split
  · next on =>
    have other : trimmed content ≠ "" := by
      intro h
      rw [h] at on
      exact absurd on (by decide)
    simp [on, other]
  · split
    · next off => exact ⟨fun _ => off.symm, fun _ => rfl⟩
    · next other => exact ⟨nofun, fun off => absurd off.symm other⟩

theorem readFlag_eq_error_iff :
    readFlag key content = .error e ↔
      ¬SaysOn content ∧ ¬SaysOff content ∧ e = .invalid key (trimmed content) .flag := by
  rw [← readFlag_eq_true_iff key content, ← readFlag_eq_false_iff key content]
  unfold readFlag
  dsimp only
  split
  · simp
  · split
    · simp
    · simp [eq_comm]

/-- A file that may be missing is missing, or read, or refused. -/
theorem readOptional_bind_eq_iff {α : Type} {f : Option String → Except ConfigError α}
    {r : Except ConfigError α} :
    (d.readOptional name >>= f) = r ↔
      (d.file name = .error .missing ∧ f none = r) ∨
        (∃ content, d.file name = .ok content ∧ f (some content) = r) ∨
        ∃ e, d.Unreadable name e ∧ .error e = r := by
  unfold readOptional Unreadable file
  dsimp only
  split
  · next content h =>
    show f (some content) = r ↔ _
    simp [h]
  · next h =>
    show f none = r ↔ _
    simp [h]
  · next cause other h =>
    have there : cause ≠ .missing := other
    show .error _ = r ↔ _
    simp [h, there]

/-! ## One probe -/

theorem enabled_eq_true_iff : d.enabled probe = .ok true ↔ d.Enabled probe := by
  unfold enabled Enabled
  dsimp only
  rw [readOptional_bind_eq_iff]
  constructor
  · rintro (⟨-, said⟩ | ⟨content, present, said⟩ | ⟨e, -, said⟩)
    · exact absurd (Except.ok.inj said) Bool.false_ne_true
    · exact ⟨content, present, (readFlag_eq_true_iff _ _).mp said⟩
    · exact nomatch said
  · rintro ⟨content, present, said⟩
    exact .inr (.inl ⟨content, present, (readFlag_eq_true_iff _ _).mpr said⟩)

theorem enabled_eq_false_iff : d.enabled probe = .ok false ↔ d.Disabled probe := by
  unfold enabled Disabled
  dsimp only
  rw [readOptional_bind_eq_iff]
  constructor
  · rintro (⟨missing, -⟩ | ⟨content, present, said⟩ | ⟨e, -, said⟩)
    · exact .inl missing
    · exact .inr ⟨content, present, (readFlag_eq_false_iff _ _).mp said⟩
    · exact nomatch said
  · rintro (missing | ⟨content, present, said⟩)
    · exact .inl ⟨missing, rfl⟩
    · exact .inr (.inl ⟨content, present, (readFlag_eq_false_iff _ _).mpr said⟩)

theorem enabled_eq_error_iff :
    d.enabled probe = .error e ↔
      d.Unreadable (enabledName probe) e ∨
        ∃ content, d.file (enabledName probe) = .ok content ∧ ¬SaysOn content ∧ ¬SaysOff content ∧
          e = .invalid (enabledName probe) (trimmed content) .flag := by
  unfold enabled
  dsimp only
  rw [readOptional_bind_eq_iff]
  constructor
  · rintro (⟨-, said⟩ | ⟨content, present, said⟩ | ⟨e', unreadable, said⟩)
    · exact nomatch said
    · exact .inr ⟨content, present, readFlag_eq_error_iff.mp said⟩
    · exact .inl (Except.error.inj said ▸ unreadable)
  · rintro (unreadable | ⟨content, present, said⟩)
    · exact .inr (.inr ⟨e, unreadable, rfl⟩)
    · exact .inr (.inl ⟨content, present, readFlag_eq_error_iff.mpr said⟩)

theorem properties_eq_ok_iff {p : Properties} :
    d.properties probe = .ok p ↔
      d.file (propertiesName probe) = .error .missing ∧ p = {} ∨
        ∃ content, d.file (propertiesName probe) = .ok content ∧ p = .parse content := by
  unfold properties
  rw [readOptional_bind_eq_iff]
  constructor
  · rintro (⟨missing, same⟩ | ⟨content, present, same⟩ | ⟨e, -, same⟩)
    · exact .inl ⟨missing, (Except.ok.inj same).symm⟩
    · exact .inr ⟨content, present, (Except.ok.inj same).symm⟩
    · exact nomatch same
  · rintro (⟨missing, rfl⟩ | ⟨content, present, rfl⟩)
    · exact .inl ⟨missing, rfl⟩
    · exact .inr (.inl ⟨content, present, rfl⟩)

theorem properties_eq_error_iff :
    d.properties probe = .error e ↔ d.Unreadable (propertiesName probe) e := by
  unfold properties
  rw [readOptional_bind_eq_iff]
  constructor
  · rintro (⟨-, same⟩ | ⟨content, -, same⟩ | ⟨e', unreadable, same⟩)
    · exact nomatch same
    · exact nomatch same
    · exact Except.error.inj same ▸ unreadable
  · intro unreadable
    exact .inr (.inr ⟨e, unreadable, rfl⟩)

section Settings

variable {α : Type} {read : Properties → Except ConfigError α} {default : α}

theorem settings_of_disabled (off : d.Disabled probe) : d.settings read probe = .ok none := by
  unfold settings
  rw [enabled_eq_false_iff.mpr off]
  rfl

theorem settings_of_enabled (on : d.Enabled probe) :
    d.settings read probe =
      d.properties probe >>= fun p => read p >>= fun c => .ok (some c) := by
  unfold settings
  rw [enabled_eq_true_iff.mpr on]
  rfl

/-- What the files of a probe give. -/
theorem settings_eq_ok_iff (usual : read {} = .ok default) {o : Option α} :
    d.settings read probe = .ok o ↔ d.Gives read default probe o := by
  constructor
  · intro settled
    obtain ⟨flag, said, -⟩ := bind_eq_ok.mp settled
    cases flag with
    | false =>
      have off := enabled_eq_false_iff.mp said
      obtain rfl := Except.ok.inj ((settings_of_disabled off).symm.trans settled)
      exact .disabled off
    | true =>
      have on := enabled_eq_true_iff.mp said
      rw [settings_of_enabled on] at settled
      obtain ⟨p, hp, settled⟩ := bind_eq_ok.mp settled
      obtain ⟨c, valid, same⟩ := bind_eq_ok.mp settled
      obtain rfl := Except.ok.inj same
      rcases properties_eq_ok_iff.mp hp with ⟨missing, rfl⟩ | ⟨content, present, rfl⟩
      · obtain rfl := Except.ok.inj (usual.symm.trans valid)
        exact .missing on missing
      · exact .stated on present valid
  · intro given
    cases given with
    | disabled off => exact settings_of_disabled off
    | missing on missing =>
      rw [settings_of_enabled on, properties_eq_ok_iff.mpr (.inl ⟨missing, rfl⟩)]
      exact bind_eq_ok.mpr ⟨_, rfl, bind_eq_ok.mpr ⟨_, usual, rfl⟩⟩
    | stated on present valid =>
      rw [settings_of_enabled on, properties_eq_ok_iff.mpr (.inr ⟨_, present, rfl⟩)]
      exact bind_eq_ok.mpr ⟨_, rfl, bind_eq_ok.mpr ⟨_, valid, rfl⟩⟩

/-- What of the files of a probe is refused. -/
theorem settings_eq_error_iff (usual : read {} = .ok default) :
    d.settings read probe = .error e ↔ d.Refuses read probe e := by
  constructor
  · intro failed
    rcases bind_eq_error.mp failed with flag | ⟨flag, said, -⟩
    · rcases enabled_eq_error_iff.mp flag with unreadable | ⟨content, present, on, off, rfl⟩
      · exact .flagUnreadable unreadable
      · exact .flagInvalid present on off
    · cases flag with
      | false =>
        have fine : d.settings read probe = .ok none :=
          settings_of_disabled (enabled_eq_false_iff.mp said)
        exact absurd (fine.symm.trans failed) (by simp)
      | true =>
        have on := enabled_eq_true_iff.mp said
        rw [settings_of_enabled on] at failed
        rcases bind_eq_error.mp failed with unread | ⟨p, hp, failed⟩
        · exact .unreadable on (properties_eq_error_iff.mp unread)
        · rcases bind_eq_error.mp failed with refused | ⟨c, -, nothing⟩
          · rcases properties_eq_ok_iff.mp hp with ⟨-, rfl⟩ | ⟨content, present, rfl⟩
            · exact absurd (usual.symm.trans refused) (by simp)
            · exact .invalid on present refused
          · exact nomatch nothing
  · intro refused
    cases refused with
    | flagUnreadable unreadable =>
      exact bind_eq_error.mpr (.inl (enabled_eq_error_iff.mpr (.inl unreadable)))
    | flagInvalid present on off =>
      exact bind_eq_error.mpr (.inl (enabled_eq_error_iff.mpr (.inr ⟨_, present, on, off, rfl⟩)))
    | unreadable on unreadable =>
      rw [settings_of_enabled on, properties_eq_error_iff.mpr unreadable]
      rfl
    | invalid on present refused =>
      rw [settings_of_enabled on, properties_eq_ok_iff.mpr (.inr ⟨_, present, rfl⟩)]
      exact bind_eq_error.mpr (.inr ⟨_, rfl, bind_eq_error.mpr (.inl refused)⟩)

/-- The files of a probe give its settings if and only if they can be used. -/
theorem exists_gives_iff {parts : List (Part α)} (keys : KeyByKey read parts) :
    (∃ o, d.Gives read default probe o) ↔ d.Usable parts probe := by
  constructor
  · rintro ⟨o, off | ⟨on, missing⟩ | ⟨on, present, valid⟩⟩
    · exact .inl off
    · exact .inr ⟨on, .inl missing⟩
    · exact .inr ⟨on, .inr ⟨_, present, (keys.accepts _).mp ⟨_, valid⟩⟩⟩
  · rintro (off | ⟨on, missing | ⟨content, present, valid⟩⟩)
    · exact ⟨none, .disabled off⟩
    · exact ⟨some default, .missing on missing⟩
    · obtain ⟨c, valid⟩ := (keys.accepts _).mpr valid
      exact ⟨some c, .stated on present valid⟩

/-- What the files of a probe give is a matter of these two files alone. -/
theorem Gives.of_sameFiles {o : Option α} (same : SameFiles d d' probe)
    (h : d.Gives read default probe o) : d'.Gives read default probe o := by
  obtain ⟨flag, properties⟩ := same
  have enabled : d.Enabled probe → d'.Enabled probe := by
    unfold Enabled
    rw [flag]
    exact id
  have disabled : d.Disabled probe → d'.Disabled probe := by
    unfold Disabled
    rw [flag]
    exact id
  cases h with
  | disabled off => exact .disabled (disabled off)
  | missing on h => exact .missing (enabled on) (properties ▸ h)
  | stated on h valid => exact .stated (enabled on) (properties ▸ h) valid

theorem readOptional_congr (base : d.base = d'.base) (same : d.file name = d'.file name) :
    d.readOptional name = d'.readOptional name := by
  unfold file at same
  unfold readOptional
  dsimp only
  rw [same, base]

/-- What the files of a probe come to, an error included, is a matter of the enabling file, and if
the probe is enabled, of its properties. -/
theorem settings_congr (base : d.base = d'.base)
    (flag : d.file (enabledName probe) = d'.file (enabledName probe))
    (properties : d.Disabled probe ∨
      d.file (propertiesName probe) = d'.file (propertiesName probe)) :
    d.settings read probe = d'.settings read probe := by
  rcases properties with off | properties
  · have off' : d'.Disabled probe := by
      unfold Disabled at off ⊢
      rwa [← flag]
    rw [settings_of_disabled off, settings_of_disabled off']
  · unfold settings enabled ConfigDirectory.properties
    dsimp only
    rw [readOptional_congr base flag, readOptional_congr base properties]

end Settings

/-! ## The directory -/

theorem load_eq_ok_iff {c : ProbeConfigs} :
    d.load = .ok c ↔
      d.settings EchoConfig.ofProperties echoProbe = .ok c.echo ∧
        d.settings LookupConfig.ofProperties lookupProbe = .ok c.lookup := by
  unfold load
  rw [bind_eq_ok]
  constructor
  · rintro ⟨echo, hecho, rest⟩
    obtain ⟨lookup, hlookup, same⟩ := bind_eq_ok.mp rest
    obtain rfl := Except.ok.inj same
    exact ⟨hecho, hlookup⟩
  · rintro ⟨hecho, hlookup⟩
    exact ⟨_, hecho, bind_eq_ok.mpr ⟨_, hlookup, rfl⟩⟩

theorem load_eq_error_iff :
    d.load = .error e ↔
      d.settings EchoConfig.ofProperties echoProbe = .error e ∨
        (∃ echo, d.settings EchoConfig.ofProperties echoProbe = .ok echo) ∧
          d.settings LookupConfig.ofProperties lookupProbe = .error e := by
  unfold load
  rw [bind_eq_error]
  refine or_congr_right ?_
  constructor
  · rintro ⟨echo, hecho, rest⟩
    rcases bind_eq_error.mp rest with hlookup | ⟨lookup, -, nothing⟩
    · exact ⟨⟨echo, hecho⟩, hlookup⟩
    · exact nomatch nothing
  · rintro ⟨⟨echo, hecho⟩, hlookup⟩
    exact ⟨echo, hecho, bind_eq_error.mpr (.inl hlookup)⟩

theorem load_congr
    (echo : d.settings EchoConfig.ofProperties echoProbe =
      d'.settings EchoConfig.ofProperties echoProbe)
    (lookup : d.settings LookupConfig.ofProperties lookupProbe =
      d'.settings LookupConfig.ofProperties lookupProbe) : d.load = d'.load := by
  unfold load
  rw [echo, lookup]

/-- Properties that state nothing stand for the defaults. -/
theorem ofProperties_empty :
    EchoConfig.ofProperties {} = .ok {} ∧ LookupConfig.ofProperties {} = .ok {} := ⟨rfl, rfl⟩

theorem load_eq_ok_iff_gives {c : ProbeConfigs} :
    d.load = .ok c ↔
      d.Gives EchoConfig.ofProperties {} echoProbe c.echo ∧
        d.Gives LookupConfig.ofProperties {} lookupProbe c.lookup := by
  rw [load_eq_ok_iff, settings_eq_ok_iff ofProperties_empty.1,
    settings_eq_ok_iff ofProperties_empty.2]

/-- **Probes do not interfere.**  A directory can be loaded if and only if the files of each probe
can be used, and each probe is then set to what its own two files give: nothing if it is disabled,
its defaults without a file of properties, and otherwise what the properties stand for.  Of two
directories with the same two files for a probe, neither of which is refused, the probe is set to
the same, whatever the other files are.  The properties of a disabled probe can be replaced by
anything, readable or not, and neither the settings nor an error changes.  What is refused is the
echo probe's own file, or if there is nothing wrong with these, the lookup probe's. -/
theorem probes_do_not_interfere :
    (∀ d, (∃ c, load d = .ok c) ↔
      d.Usable EchoConfig.parts echoProbe ∧ d.Usable LookupConfig.parts lookupProbe) ∧
    (∀ d c, load d = .ok c ↔
      d.Gives EchoConfig.ofProperties {} echoProbe c.echo ∧
        d.Gives LookupConfig.ofProperties {} lookupProbe c.lookup) ∧
    (∀ d d' c c', load d = .ok c → load d' = .ok c' →
      (SameFiles d d' echoProbe → c.echo = c'.echo) ∧
        (SameFiles d d' lookupProbe → c.lookup = c'.lookup)) ∧
    (∀ d d', ∀ probe ∈ [echoProbe, lookupProbe], d.Disabled probe → d.base = d'.base →
      (∀ name ∈ fileNames, name ≠ propertiesName probe → d.file name = d'.file name) →
      load d = load d') ∧
    ∀ d e, load d = .error e ↔
      d.Refuses EchoConfig.ofProperties echoProbe e ∨
        (∀ e', ¬d.Refuses EchoConfig.ofProperties echoProbe e') ∧
          d.Refuses LookupConfig.ofProperties lookupProbe e := by
  obtain ⟨usualEcho, usualLookup⟩ := ofProperties_empty
  refine ⟨fun d => ?_, fun d c => load_eq_ok_iff_gives, fun d d' c c' loaded loaded' => ?_,
    fun d d' probe hprobe off base same => ?_, fun d e => ?_⟩
  · rw [← exists_gives_iff EchoConfig.keyByKey, ← exists_gives_iff LookupConfig.keyByKey]
    constructor
    · rintro ⟨c, loaded⟩
      obtain ⟨echo, lookup⟩ := load_eq_ok_iff_gives.mp loaded
      exact ⟨⟨_, echo⟩, ⟨_, lookup⟩⟩
    · rintro ⟨⟨echo, hecho⟩, ⟨lookup, hlookup⟩⟩
      exact ⟨{ echo, lookup }, load_eq_ok_iff_gives.mpr ⟨hecho, hlookup⟩⟩
  · obtain ⟨echo, lookup⟩ := load_eq_ok_iff_gives.mp loaded
    obtain ⟨echo', lookup'⟩ := load_eq_ok_iff.mp loaded'
    constructor
    · intro files
      have there := (settings_eq_ok_iff usualEcho).mpr (echo.of_sameFiles files)
      exact Except.ok.inj (there.symm.trans echo')
    · intro files
      have there := (settings_eq_ok_iff usualLookup).mpr (lookup.of_sameFiles files)
      exact Except.ok.inj (there.symm.trans lookup')
  · simp only [fileNames, List.flatMap_cons, List.flatMap_nil, List.cons_append, List.nil_append,
      List.forall_mem_cons] at same
    obtain ⟨echoFlag, echoProperties, lookupFlag, lookupProperties, -⟩ := same
    rcases List.mem_cons.mp hprobe with rfl | hprobe
    · exact load_congr (settings_congr base (echoFlag (by decide)) (.inl off))
        (settings_congr base (lookupFlag (by decide)) (.inr (lookupProperties (by decide))))
    · obtain rfl := List.mem_singleton.mp hprobe
      exact load_congr
        (settings_congr base (echoFlag (by decide)) (.inr (echoProperties (by decide))))
        (settings_congr base (lookupFlag (by decide)) (.inl off))
  · have fine : (∃ echo, d.settings EchoConfig.ofProperties echoProbe = .ok echo) ↔
        ∀ e', ¬d.Refuses EchoConfig.ofProperties echoProbe e' := by
      simp only [← settings_eq_error_iff usualEcho]
      cases d.settings EchoConfig.ofProperties echoProbe <;> simp
    rw [load_eq_error_iff, fine, settings_eq_error_iff usualEcho, settings_eq_error_iff usualLookup]

/-- A directory in which the echo probe is enabled and has no properties, and the lookup probe is
disabled and has the given ones. -/
def lopsided (properties : Except ReadError String) : ConfigDirectory where
  base := ""
  files :=
    { read := fun name =>
        if name = enabledName echoProbe then .ok " TRUE\n"
        else if name = enabledName lookupProbe then .ok "False"
        else if name = propertiesName lookupProbe then properties
        else .error .missing }

theorem file_lopsided (properties : Except ReadError String) (name : String) :
    (lopsided properties).file name =
      if name = enabledName echoProbe then .ok " TRUE\n"
      else if name = enabledName lookupProbe then .ok "False"
      else if name = propertiesName lookupProbe then properties
      else .error .missing := by
  simp [file, lopsided, joinPath]

/-- Properties of the disabled probe that are a directory, no text, or invalid. -/
theorem lopsided_is_loaded :
    (lopsided (.error .isDirectory)).load = .ok { echo := some {} } ∧
      (lopsided (.error .notText)).load = (lopsided (.error .isDirectory)).load ∧
      (lopsided (.ok "timeout: soon")).load = (lopsided (.error .isDirectory)).load := by
  obtain ⟨-, loads, -, ignores, -⟩ := probes_do_not_interfere
  have off : ∀ properties, (lopsided properties).Disabled lookupProbe := by
    intro properties
    refine .inr ⟨"False", ?_, .inr ?_⟩
    · rw [file_lopsided, if_neg (by decide), if_pos rfl]
    · exact .cons (.inr rfl) (.cons (.inl rfl) (.cons (.inl rfl) (.cons (.inl rfl)
        (.cons (.inl rfl) .nil))))
  have on : (lopsided (.error .isDirectory)).Enabled echoProbe := by
    refine ⟨" TRUE\n", ?_, ?_⟩
    · rw [file_lopsided, if_pos rfl]
    · exact .cons (.inr rfl) (.cons (.inr rfl) (.cons (.inr rfl) (.cons (.inr rfl) .nil)))
  have missing : (lopsided (.error .isDirectory)).file (propertiesName echoProbe) =
      .error .missing := by
    rw [file_lopsided, if_neg (by decide), if_neg (by decide), if_neg (by decide)]
  have alike : ∀ properties properties' : Except ReadError String, ∀ name ∈ fileNames,
      name ≠ propertiesName lookupProbe →
      (lopsided properties).file name = (lopsided properties').file name := by
    intro properties properties' name _ other
    rw [file_lopsided, file_lopsided, if_neg other, if_neg other]
  refine ⟨(loads _ _).mpr ⟨.missing on missing, .disabled (off _)⟩, ?_, ?_⟩
  · exact ignores _ _ lookupProbe (by decide) (off _) rfl (alike _ _)
  · exact ignores _ _ lookupProbe (by decide) (off _) rfl (alike _ _)

end ConfigDirectory

end PingWatch
