import PingWatch.Command.Run
import PingWatch.Proofs.Address.Printed
import PingWatch.Proofs.Config.KeyByKey
import PingWatch.Proofs.Config.Lines

/-!
# Printed name servers are read back

An endpoint is printed with its port, and in version 6 with brackets and perhaps a scope.  Only such
a text is read as this endpoint: the address alone, which is tried first, is not the whole of it.

* `Endpoint.parseServer?_text`, `Ip.parseServer?_text`: endpoints and bare addresses are read back.
* `Endpoint.parseServer?_between`: blanks around a text do not matter.
* `LookupConfig.ofProperties_append_server`: what a line that sets the server changes.
* `Command.exists_output_server`: where the server is printed.
-/

namespace PingWatch

open Text

namespace Reader

variable {rest : List Char}

/-! ## Endpoints -/

theorem port_decimal (p : UInt16) (stop : Stops 10 rest) :
    port (':' :: (decimal p.toNat ++ rest)) = some (p, rest) := by
  have fits : p.toNat ≤ 65535 := Nat.le_of_lt_succ p.toNat_lt
  simp only [port, char_self, number_decimal fits stop, Option.bind_eq_bind, Option.bind_some]
  simp

/-- The scope as it stands behind an address. -/
def zone (scope : UInt32) : List Char := if scope = 0 then [] else '%' :: decimal scope.toNat

theorem scope_zone (s : UInt32) (rest : List Char) :
    scope (zone s ++ ']' :: rest) = (s, ']' :: rest) := by
  unfold zone
  by_cases zero : s = 0
  · subst zero
    rfl
  · have fits : s.toNat ≤ 0xFFFFFFFF := Nat.le_of_lt_succ s.toNat_lt
    have stop : Stops 10 (']' :: rest) := stops_cons rfl rest
    rw [if_neg zero, List.cons_append]
    simp only [scope, char_self, number_decimal fits stop, Option.bind_some]
    simp

theorem Ends.zone (s : UInt32) (rest : List Char) : Ends (zone s ++ ']' :: rest) := by
  unfold Reader.zone
  split
  · exact .cons rfl (by decide) (by decide) rest
  · exact .cons rfl (by decide) (by decide) _

/-- No address begins with a bracket. -/
theorem ends_bracket (cs : List Char) : Ends ('[' :: cs) :=
  .cons rfl (by decide) (by decide) cs

theorem ip_bracket (cs : List Char) : ip ('[' :: cs) = none := by
  have noGroup : groups 8 true ('[' :: cs) = ([], false, '[' :: cs) :=
    groups_of_ends (ends_bracket cs) 8 true
  rw [ip, ipv4_of_stops (ends_bracket cs).stops, ipv6, noGroup]
  rfl

theorem endpoint_print (e : Endpoint) (stop : Stops 10 rest) :
    endpoint (e.print ++ rest) = some (e, rest) := by
  cases e with
  | v4 a p =>
    have text : (Endpoint.v4 a p).print ++ rest = a.print ++ ':' :: (decimal p.toNat ++ rest) := by
      simp [Endpoint.print]
    have read : ipv4 (a.print ++ ':' :: (decimal p.toNat ++ rest)) =
        some (a, ':' :: (decimal p.toNat ++ rest)) := ipv4_print a (stops_cons rfl _)
    rw [text]
    simp only [endpoint, endpointV4, read, port_decimal p stop, Option.bind_eq_bind,
      Option.bind_some]
    rfl
  | v6 a p s =>
    have text : (Endpoint.v6 a p s).print ++ rest =
        '[' :: (a.print ++ (zone s ++ ']' :: ':' :: (decimal p.toNat ++ rest))) := by
      simp [Endpoint.print, zone]
    have no4 (cs : List Char) : endpointV4 ('[' :: cs) = none := by
      rw [endpointV4, ipv4_of_stops (ends_bracket cs).stops]
      rfl
    have read := ipv6_print a (.zone s (':' :: (decimal p.toNat ++ rest)))
    rw [text]
    simp only [endpoint, no4, Option.none_or, endpointV6, char_self, read, scope_zone,
      port_decimal p stop, Option.bind_eq_bind, Option.bind_some]
    rfl

theorem whole_of_append {α : Type} {read : Reader α} {cs : List Char} {a : α}
    (h : read (cs ++ []) = some (a, [])) : whole read cs = some a := by
  rw [List.append_nil] at h
  rw [whole, h]

/-- An endpoint is not an address, since its port is left over. -/
theorem whole_ip_print (e : Endpoint) : whole ip e.print = none := by
  cases e with
  | v4 a p =>
    have printed := ipv4_print a (stops_cons rfl (decimal p.toNat) : Stops 10 (':' :: _))
    simp only [whole, ip, Endpoint.print, printed]
  | v6 a p s => rw [whole, Endpoint.print, List.cons_append, List.cons_append, ip_bracket]

end Reader

/-! ## Printed texts hold no blanks -/

/-- A text without blanks. -/
def Solid (cs : List Char) : Prop := ∀ c ∈ cs, isBlank c = false

theorem Solid.nil : Solid [] := by
  intro c hc
  exact nomatch hc

theorem Solid.append {as bs : List Char} (ha : Solid as) (hb : Solid bs) : Solid (as ++ bs) :=
  List.forall_mem_append.mpr ⟨ha, hb⟩

theorem Solid.cons {c : Char} {cs : List Char} (hc : isBlank c = false) (h : Solid cs) :
    Solid (c :: cs) := List.forall_mem_cons.mpr ⟨hc, h⟩

theorem Solid.intercalate {sep : List Char} {parts : List (List Char)} (hsep : Solid sep)
    (h : ∀ p ∈ parts, Solid p) : Solid (sep.intercalate parts) := by
  induction parts with
  | nil => exact .nil
  | cons p parts ih =>
    rw [List.forall_mem_cons] at h
    cases parts with
    | nil => simpa using h.1
    | cons q parts =>
      rw [List.intercalate_cons_cons]
      exact (h.1.append hsep).append (ih h.2)

theorem isBlank_of_digit {base d : Nat} {c : Char} (h : Reader.digitIn? base c = some d) :
    isBlank c = false := by
  unfold Reader.digitIn? at h
  unfold isBlank
  dsimp only at h ⊢
  generalize c.toNat = n at h ⊢
  split at h
  · simp; omega
  · split at h
    · simp; omega
    · split at h
      · simp; omega
      · exact nomatch h

theorem solid_toDigits {base : Nat} (hb : Reader.Printable base) (n : Nat) :
    Solid (Nat.toDigits base n) := by
  obtain ⟨ds, figures⟩ := Reader.exists_figures hb n
  have digits := figures.digits
  generalize Nat.toDigits base n = cs at digits
  clear figures
  induction digits with
  | nil => exact .nil
  | cons one _ ih => exact ih.cons (isBlank_of_digit one)

theorem solid_decimal (n : Nat) : Solid (decimal n) := solid_toDigits Reader.printable_ten n

theorem Ipv4.solid_print (ip : Ipv4) : Solid ip.print := by
  refine .intercalate (.cons rfl .nil) ?_
  rw [List.forall_mem_map]
  exact fun n _ => solid_decimal n.toNat

theorem Ipv6.solid_printGroups (gs : List UInt16) : Solid (printGroups gs) := by
  refine .intercalate (.cons rfl .nil) ?_
  rw [List.forall_mem_map]
  exact fun g _ => solid_toDigits Reader.printable_sixteen g.toNat

theorem Ipv6.solid_print (ip : Ipv6) : Solid ip.print := by
  rw [print]
  cases ip.mapped? with
  | some v4 =>
    have front : Solid [':', ':', 'f', 'f', 'f', 'f', ':'] := by simp [Solid, isBlank]
    exact front.append v4.solid_print
  | none =>
    dsimp only
    split
    · exact (solid_printGroups _).append (.cons rfl (.cons rfl (solid_printGroups _)))
    · exact solid_printGroups _

theorem Ip.solid_print (ip : Ip) : Solid ip.print := by
  cases ip with
  | v4 ip => exact ip.solid_print
  | v6 ip => exact ip.solid_print

theorem Endpoint.solid_print (e : Endpoint) : Solid e.print := by
  cases e with
  | v4 ip port => exact ip.solid_print.append (.cons rfl (solid_decimal _))
  | v6 ip port scope =>
    have zone : Solid (Reader.zone scope) := by
      unfold Reader.zone
      split
      · exact .nil
      · exact .cons rfl (solid_decimal _)
    exact ((Solid.cons rfl ip.solid_print).append zone).append
      (.cons rfl (.cons rfl (solid_decimal _)))

/-! ## Servers -/

theorem Endpoint.toList_text (e : Endpoint) : e.text.toList = e.print := String.toList_ofList

/-- A printed endpoint is read as this endpoint. -/
theorem Endpoint.parseServer?_text (e : Endpoint) : parseServer? e.text = some e := by
  unfold parseServer?
  rw [e.toList_text, trim_eq_self e.solid_print]
  dsimp only
  rw [Reader.whole_ip_print, Reader.whole_of_append (Reader.endpoint_print e (Reader.stops_nil 10))]

/-- A printed address is read as the endpoint at the usual port. -/
theorem Ip.parseServer?_text (ip : Ip) :
    Endpoint.parseServer? ip.text = some (ip.atPort lookupPort) := by
  unfold Endpoint.parseServer?
  rw [Ip.text, String.toList_ofList, trim_eq_self ip.solid_print]
  dsimp only
  rw [Reader.whole_of_append (Reader.ip_print ip .nil)]

/-- Blanks around a text do not change the server that it stands for. -/
theorem Endpoint.parseServer?_between (s : String) {as bs : List Char}
    (blank : ∀ c ∈ as ++ bs, isBlank c = true) :
    parseServer? (.ofList (as ++ s.toList ++ bs)) = parseServer? s := by
  rw [List.forall_mem_append] at blank
  unfold parseServer?
  rw [String.toList_ofList, trim_between blank.1 blank.2]

/-! ## The server in a configuration -/

theorem Endpoint.isValue_text (e : Endpoint) : Properties.IsValue e.text where
  trimmed := by
    rw [trimmed, e.toList_text, trim_eq_self e.solid_print, text]
  oneLine := by
    rw [e.toList_text]
    intro h
    exact absurd (e.solid_print _ h) (by decide)

theorem Endpoint.text_ne_empty (e : Endpoint) : e.text ≠ "" := by
  intro empty
  have read := e.parseServer?_text
  rw [empty] at read
  exact nomatch read

namespace Properties

/-- A line with an endpoint as the value of a key. -/
theorem parse_server_line (e : Endpoint) :
    (parse ("server: " ++ e.text)).pairs = [("server", e.text)] := by
  have key : IsKey "server" := ⟨by decide, by decide, by decide, by decide, by decide⟩
  have row := @Row.pair "server" e.text [] [] [' '] [] ':' key e.isValue_text (.inl rfl)
    (by simp [isBlank])
  have shape : [] ++ "server".toList ++ [] ++ ':' :: ([' '] ++ e.text.toList ++ []) =
      ("server: " ++ e.text).toList := by simp
  rw [shape] at row
  refine parse_pairs_iff.mpr (.last row ?_)
  rw [String.toList_append, List.mem_append, not_or]
  exact ⟨by decide, e.isValue_text.oneLine⟩

theorem gives_congr {α : Type} {p q : Properties} {key : String} {reads : String → α → Prop}
    {default a : α} (same : p.stated? key = q.stated? key) :
    p.Gives reads key default a ↔ q.Gives reads key default a := by
  rw [Gives, Gives, same]

end Properties

/-- A line that sets the server, behind properties that are accepted, changes the server and nothing
else. -/
theorem LookupConfig.ofProperties_append_server {content : String} {c : LookupConfig}
    (accepted : ofProperties (.parse content) = .ok c) (e : Endpoint) :
    ofProperties (.parse (content ++ "\n" ++ ("server: " ++ e.text))) =
      .ok { c with server := some e } := by
  have last (key : String) : (Properties.parse ("server: " ++ e.text)).get? key =
      [("server", e.text)].lookup key := by
    rw [Properties.get?, Properties.parse_server_line, List.reverse_singleton]
  have set : (Properties.parse (content ++ "\n" ++ ("server: " ++ e.text))).stated? "server" =
      some e.text := by
    refine Properties.stated?_eq_some_iff.mpr ⟨?_, e.text_ne_empty⟩
    rw [Properties.get?_append_newline, last, List.lookup_cons_self, Option.some_or]
  have kept (key : String) (other : key ≠ "server") :
      (Properties.parse content).stated? key =
        (Properties.parse (content ++ "\n" ++ ("server: " ++ e.text))).stated? key := by
    have none : [("server", e.text)].lookup key = none :=
      List.lookup_eq_none_iff.mpr (by simpa using other)
    rw [Properties.stated?, Properties.stated?, Properties.get?_append_newline, last, none,
      Option.none_or]
  have given := (keyByKey.gives _ c).mp accepted
  refine (keyByKey.gives _ _).mpr ?_
  simp only [parts, List.forall_mem_cons, Part.Holds] at given ⊢
  obtain ⟨-, interval, timeout, concurrency, names, -⟩ := given
  refine ⟨?_, (Properties.gives_congr (kept _ (by decide))).mp interval,
    (Properties.gives_congr (kept _ (by decide))).mp timeout,
    (Properties.gives_congr (kept _ (by decide))).mp concurrency,
    (Properties.gives_congr (kept _ (by decide))).mp names, by simp⟩
  rw [Properties.gives_of_stated set]
  exact ⟨e, e.parseServer?_text, rfl⟩

/-- The server is printed on a line of its own. -/
theorem LookupConfig.exists_lines {c : LookupConfig} {e : Endpoint} (h : c.server = some e) :
    ∃ before after, c.lines = before ++ ("  server:      " ++ e.text) :: after := by
  refine ⟨c.lines.take 3, c.lines.drop 4, ?_⟩
  unfold lines
  rw [h]
  rfl

theorem Command.exists_output_server {files : Files} {base : String} {configs : ProbeConfigs}
    {c : LookupConfig} {e : Endpoint} (loaded : (ConfigDirectory.mk files base).load = .ok configs)
    (enabled : configs.lookup = some c) (server : c.server = some e)
    (complete : (showConfig files base).error = none) :
    ∃ before after, (showConfig files base).output =
      ofLines (before ++ ("  server:      " ++ e.text) :: after) := by
  unfold showConfig at complete ⊢
  rw [loaded] at complete ⊢
  dsimp only at complete ⊢
  generalize echoLines files base configs.echo = printed at complete ⊢
  obtain ⟨echo, failure⟩ := printed
  cases failure with
  | some failure => exact nomatch complete
  | none =>
    obtain ⟨before, after, lines⟩ := LookupConfig.exists_lines server
    refine ⟨echo ++ before, after, ?_⟩
    rw [enabled, lookupLines, lines, List.append_assoc]

namespace Endpoint

/-- **A server is read from its printed form.**  Whatever the address, port and scope, a printed
endpoint is read as this endpoint, and a printed address alone as the endpoint at port 53.  So what
was read from any text is read again from its printed form.  Blanks around a text do not matter.
And the server that is printed with a configuration, set on a line behind any properties that are
accepted, is the server then, while the other settings stay. -/
theorem printed_servers_are_read :
    (∀ e : Endpoint, parseServer? e.text = some e) ∧
    (∀ ip : Ip, parseServer? ip.text = some (ip.atPort 53)) ∧
    (∀ s e, parseServer? s = some e → parseServer? e.text = some e) ∧
    (∀ s as bs, (∀ c ∈ as ++ bs, isBlank c = true) →
      parseServer? (.ofList (as ++ String.toList s ++ bs)) = parseServer? s) ∧
    ∀ files base configs c e, (ConfigDirectory.mk files base).load = .ok configs →
      configs.lookup = some c → c.server = some e →
      (Command.showConfig files base).error = none →
      (∃ before after, (Command.showConfig files base).output =
        Command.ofLines (before ++ ("  server:      " ++ e.text) :: after)) ∧
      ∀ content c', LookupConfig.ofProperties (.parse content) = .ok c' →
        LookupConfig.ofProperties (.parse (content ++ "\n" ++ ("server: " ++ e.text))) =
          .ok { c' with server := some e } := by
  refine ⟨parseServer?_text, Ip.parseServer?_text, fun _ e _ => e.parseServer?_text,
    fun s _ _ blank => parseServer?_between s blank, ?_⟩
  intro files base configs c e loaded enabled server complete
  refine ⟨Command.exists_output_server loaded enabled server complete, ?_⟩
  intro content c' accepted
  exact LookupConfig.ofProperties_append_server accepted e

/-- A directory that sets a server with a scope, whose longest run of zeros is not its first. -/
def scopedFiles : Files where
  read path :=
    if path = "probes.dns.enabled" then .ok "true"
    else if path = "probes.dns.properties" then .ok "server = [FE80:0:0:0001::9%007]:05353 "
    else .error .missing

def scopedServer : Endpoint := .v6 ⟨[0xfe80, 0, 0, 1, 0, 0, 0, 9], rfl⟩ 5353 7

theorem load_scopedFiles : (ConfigDirectory.mk scopedFiles "").load =
    .ok { lookup := some { server := some scopedServer } } := by
  have bare (name : String) : joinPath "" name = name := by simp [joinPath]
  simp only [ConfigDirectory.load, ConfigDirectory.settings, ConfigDirectory.enabled,
    ConfigDirectory.properties, ConfigDirectory.readOptional, bare, scopedFiles]
  rfl

theorem scoped_server_is_kept :
    parseServer? "[FE80:0:0:0001::9%007]:05353" = some scopedServer ∧
      scopedServer.text = "[fe80:0:0:1::9%7]:5353" ∧
      parseServer? scopedServer.text = some scopedServer ∧
      parseServer? "\t[fe80:0:0:1::9%7]:5353\n" = some scopedServer ∧
      parseServer? "::ffff:10.0.0.1" = some (.v6 ⟨[0, 0, 0, 0, 0, 0xffff, 0x0a00, 1], rfl⟩ 53 0) ∧
      LookupConfig.ofProperties (.parse ("names: a\nserver: ::1" ++ "\n" ++
        ("server: " ++ scopedServer.text))) =
          .ok { server := some scopedServer, names := ["a"] } := by
  obtain ⟨-, addresses, again, blanks, configured⟩ := printed_servers_are_read
  have written : parseServer? "[FE80:0:0:0001::9%007]:05353" = some scopedServer := by
    decide +kernel
  have text : scopedServer.text = "[fe80:0:0:1::9%7]:5353" := by decide +kernel
  have read := again _ _ written
  have spaced := blanks scopedServer.text ['\t'] ['\n'] (by simp [isBlank])
  have complete : (Command.showConfig scopedFiles "").error = none := by
    rw [Command.showConfig, load_scopedFiles]
    rfl
  obtain ⟨-, sets⟩ := configured scopedFiles "" _ _ scopedServer load_scopedFiles rfl rfl complete
  refine ⟨written, text, read, ?_, ?_, ?_⟩
  · rw [read, text] at spaced
    exact spaced
  · exact addresses (.v6 ⟨[0, 0, 0, 0, 0, 0xffff, 0x0a00, 1], rfl⟩)
  · exact sets _ { server := some (.v6 ⟨[0, 0, 0, 0, 0, 0, 0, 1], rfl⟩ 53 0), names := ["a"] }
      (by decide +kernel)

end Endpoint

end PingWatch
