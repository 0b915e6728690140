import PingWatch.Proofs.Address.Figures

/-!
# Printed addresses at the front of a text

A printed address is read back from the front of a text whose rest does not go on with it.

* `Apart`, `Ends`: the rests that do not go on with a group, and with a list of groups.
* `groups_group`, `groups_printGroups`: one group is read, and as many as are printed.
* `exists_longestZeros`: what is left out of an address are zero groups at a known place.
* `ipv4_print`, `ipv6_print`, `ip_print`: each reader of addresses undoes printing.
-/

namespace PingWatch

open Text

namespace Reader

variable {c : Char} {cs rest : List Char}

/-! ## Characters and separators -/

theorem char_self (c : Char) (cs : List Char) : char c (c :: cs) = some ((), cs) := by
  rw [char, if_pos rfl]

theorem char_of_ne {d : Char} (h : d ≠ c) (cs : List Char) : char c (d :: cs) = none := by
  rw [char, if_neg h]

/-- What a separated part is read behind. -/
def lead (sep : Char) (first : Bool) : List Char := if first then [] else [sep]

theorem separated_lead {α : Type} (sep : Char) (first : Bool) (read : Reader α) (cs : List Char) :
    separated sep first read (lead sep first ++ cs) = read cs := by
  cases first with
  | true => rfl
  | false =>
    show (char sep (sep :: cs)).bind _ = _
    rw [char_self, Option.bind_some]

/-! ## Addresses of version 4 -/

theorem octet_of_stops (stop : Stops 10 rest) : octet rest = none := by
  unfold octet
  rw [digits_of_stops stop]
  exact if_pos (.inl rfl)

theorem octet_rest {n : UInt8} (h : octet cs = some (n, rest)) : (digits 10 cs).2 = rest := by
  unfold octet at h
  dsimp only at h
  split at h
  · exact nomatch h
  · exact (Prod.mk.inj (Option.some.inj h)).2

theorem ipv4_print (ip : Ipv4) (stop : Stops 10 rest) :
    ipv4 (ip.print ++ rest) = some (ip, rest) := by
  have dot (cs : List Char) : Stops 10 ('.' :: cs) := stops_cons rfl cs
  have text : ip.print ++ rest = decimal ip.a.toNat ++ '.' :: (decimal ip.b.toNat ++
      '.' :: (decimal ip.c.toNat ++ '.' :: (decimal ip.d.toNat ++ rest))) := by
    simp [Ipv4.print, List.intercalate]
  rw [text, ipv4]
  simp only [octet_decimal _ (dot _), octet_decimal _ stop, char_self, Option.bind_eq_bind,
    Option.bind_some]
  rfl

/-- Without a dot behind its first digits a text does not begin with an address of version 4, even
if more digits are let in than the address could have. -/
theorem ipv4_eq_none (noDot : (digits 16 cs).2.head? ≠ some '.') : ipv4 cs = none := by
  unfold ipv4
  cases first : octet cs with
  | none => rfl
  | some read =>
    obtain ⟨n, behind⟩ := read
    show (char '.' behind).bind _ = none
    cases behind with
    | nil => rfl
    | cons d behind =>
      by_cases dot : d = '.'
      · subst dot
        rw [digits_ten_rest rfl (octet_rest first)] at noDot
        exact absurd rfl noDot
      · rw [char_of_ne dot, Option.bind_none]

/-! ## Groups -/

/-- A text that neither goes on with the group before it nor makes an octet of it. -/
structure Apart (rest : List Char) : Prop where
  stops : Stops 16 rest
  noDot : rest.head? ≠ some '.'

/-- A text that adds no group to those before it. -/
structure Ends (rest : List Char) : Prop extends Apart rest where
  colons : ∀ cs, rest = ':' :: cs → Stops 16 cs

theorem Apart.colon (cs : List Char) : Apart (':' :: cs) := ⟨stops_cons rfl cs, by simp⟩

theorem Ends.nil : Ends [] := ⟨⟨stops_nil 16, by simp⟩, by simp⟩

theorem Ends.colons_cons (cs : List Char) : Ends (':' :: ':' :: cs) where
  toApart := .colon _
  colons := by
    rintro _ ⟨⟩
    exact stops_cons rfl cs

theorem Ends.cons (stop : digitIn? 16 c = none) (noDot : c ≠ '.') (noColon : c ≠ ':')
    (cs : List Char) : Ends (c :: cs) where
  stops := stops_cons stop cs
  noDot := by simpa using noDot
  colons := by
    rintro _ ⟨⟩
    exact absurd rfl noColon

theorem group_of_stops (stop : Stops 16 rest) : group rest = none := by
  unfold group
  rw [digits_of_stops stop]
  exact if_pos (.inl rfl)

/-- Nothing that has to begin with a digit is read from a text that adds no group. -/
theorem Ends.separated_eq_none {α : Type} {read : Reader α} (ends : Ends rest)
    (fails : ∀ cs, Stops 16 cs → read cs = none) (first : Bool) :
    separated ':' first read rest = none := by
  cases first with
  | true => exact fails rest ends.stops
  | false =>
    show (char ':' rest).bind _ = none
    cases rest with
    | nil => rfl
    | cons c cs =>
      by_cases colon : c = ':'
      · subst colon
        rw [char_self, Option.bind_some]
        exact fails cs (ends.colons cs rfl)
      · rw [char_of_ne colon, Option.bind_none]

theorem ipv4_of_stops (stop : Stops 16 rest) : ipv4 rest = none := by
  rw [ipv4, octet_of_stops stop.ten]
  rfl

theorem groups_of_ends (ends : Ends rest) (left : Nat) (first : Bool) :
    groups left first rest = ([], false, rest) := by
  cases left with
  | zero => rfl
  | succ left =>
    rw [groups, ends.separated_eq_none (fun _ => ipv4_of_stops) first, ite_self,
      ends.separated_eq_none (fun _ => group_of_stops) first]

/-- A printed group is read, and then what follows it. -/
theorem groups_group (g : UInt16) (apart : Apart rest) (left : Nat) (first : Bool) :
    groups (left + 1) first (lead ':' first ++ (hexDigits g.toNat ++ rest)) =
      (g :: (groups left false rest).1, (groups left false rest).2) := by
  -- An address of version 4 is tried first, and a group may well be a number up to 255.
  have noAddress : ipv4 (hexDigits g.toNat ++ rest) = none := by
    apply ipv4_eq_none
    rw [hexDigits, digits_printed_rest printable_sixteen _ apart.stops]
    exact apart.noDot
  rw [groups, separated_lead, noAddress, ite_self, separated_lead, group_hexDigits g apart.stops]

/-- A printed address of version 4 is read in place of the last two groups. -/
theorem groups_ipv4 (ip : Ipv4) (stop : Stops 10 rest) {left : Nat} (room : 0 < left)
    (first : Bool) :
    groups (left + 1) first (lead ':' first ++ (ip.print ++ rest)) = (ip.groups, true, rest) := by
  rw [groups, separated_lead, ipv4_print ip stop, if_pos room]

/-- The groups behind the first one, each with its colon. -/
def printTail (gs : List UInt16) : List Char := gs.flatMap fun g => ':' :: hexDigits g.toNat

theorem printTail_cons (g : UInt16) (gs : List UInt16) :
    printTail (g :: gs) = ':' :: (hexDigits g.toNat ++ printTail gs) := rfl

theorem printGroups_cons (g : UInt16) (gs : List UInt16) :
    Ipv6.printGroups (g :: gs) = hexDigits g.toNat ++ printTail gs := by
  induction gs generalizing g with
  | nil => simp [Ipv6.printGroups, printTail]
  | cons g' gs ih =>
    rw [printTail_cons, ← ih g']
    simp [Ipv6.printGroups, List.intercalate]

theorem Apart.tail (apart : Apart rest) (gs : List UInt16) : Apart (printTail gs ++ rest) := by
  cases gs with
  | nil => exact apart
  | cons g gs => exact .colon _

theorem groups_printTail (ends : Ends rest) {gs : List UInt16} {left : Nat}
    (room : gs.length ≤ left) :
    groups left false (printTail gs ++ rest) = (gs, false, rest) := by
  induction gs generalizing left with
  | nil => exact groups_of_ends ends left false
  | cons g gs ih =>
    obtain ⟨left, rfl⟩ := Nat.exists_eq_succ_of_ne_zero (Nat.ne_of_gt (Nat.zero_lt_of_lt room))
    have step := groups_group g (ends.toApart.tail gs) left false
    rw [ih (Nat.le_of_succ_le_succ room)] at step
    rw [printTail_cons, List.cons_append, List.append_assoc]
    exact step

/-- Printed groups are read, if there is room for them. -/
theorem groups_printGroups (ends : Ends rest) {gs : List UInt16} {left : Nat}
    (room : gs.length ≤ left) :
    groups left true (Ipv6.printGroups gs ++ rest) = (gs, false, rest) := by
  cases gs with
  | nil => exact groups_of_ends ends left true
  | cons g gs =>
    obtain ⟨left, rfl⟩ := Nat.exists_eq_succ_of_ne_zero (Nat.ne_of_gt (Nat.zero_lt_of_lt room))
    have step := groups_group g (ends.toApart.tail gs) left true
    rw [groups_printTail ends (Nat.le_of_succ_le_succ room)] at step
    rw [printGroups_cons, List.append_assoc]
    exact step

/-- Printed groups do not begin with an address of version 4. -/
theorem ipv4_printGroups (apart : Apart rest) (gs : List UInt16) :
    ipv4 (Ipv6.printGroups gs ++ rest) = none := by
  cases gs with
  | nil => exact ipv4_of_stops apart.stops
  | cons g gs =>
    have behind := apart.tail gs
    apply ipv4_eq_none
    rw [printGroups_cons, List.append_assoc, hexDigits,
      digits_printed_rest printable_sixteen _ behind.stops]
    exact behind.noDot

end Reader

/-! ## What is left out -/

namespace Ipv6

theorem replicate_zerosAhead (gs : List UInt16) :
    List.replicate (zerosAhead gs) 0 ++ gs.dropWhile (· = 0) = gs := by
  have zeros : gs.takeWhile (· = 0) = List.replicate (zerosAhead gs) 0 := by
    rw [zerosAhead, List.eq_replicate_iff]
    exact ⟨rfl, fun g hg => of_decide_eq_true (List.all_eq_true.mp List.all_takeWhile g hg)⟩
  rw [← zeros, List.takeWhile_append_dropWhile]

/-- The longest run of zeros is one, and it stands where it is said to begin. -/
theorem exists_longestZeros (i : Nat) (gs : List UInt16) :
    ∃ front back, (longestZeros i gs).1 = i + front.length ∧
      front ++ List.replicate (longestZeros i gs).2 0 ++ back = gs := by
  induction gs generalizing i with
  | nil => exact ⟨[], [], rfl, rfl⟩
  | cons g gs ih =>
    rw [longestZeros]
    by_cases here : (longestZeros (i + 1) gs).2 ≤ zerosAhead (g :: gs)
    · rw [if_pos here]
      exact ⟨[], _, rfl, replicate_zerosAhead (g :: gs)⟩
    · rw [if_neg here]
      obtain ⟨front, back, start, same⟩ := ih (i + 1)
      refine ⟨g :: front, back, ?_, congrArg (g :: ·) same⟩
      rw [start, List.length_cons]
      omega

end Ipv6

/-- A version 4 address keeps the two groups that it is made from. -/
theorem Ipv4.groups_ofGroups (high low : UInt16) : (ofGroups high low).groups = [high, low] := by
  have joined (g : UInt16) : (g >>> 8).toUInt8.toUInt16 <<< 8 ||| g.toUInt8.toUInt16 = g := by
    have bound : g.toNat < 65536 := g.toNat_lt
    have low : g.toNat % 256 < 2 ^ 8 := Nat.mod_lt _ (by decide)
    apply UInt16.toNat.inj
    simp only [UInt16.toNat_or, UInt16.toNat_shiftLeft, UInt8.toNat_toUInt16, UInt16.toNat_toUInt8,
      UInt16.toNat_shiftRight]
    show (g.toNat >>> 8 % 256) <<< 8 % 65536 ||| g.toNat % 256 = g.toNat
    rw [Nat.shiftRight_eq_div_pow, Nat.shiftLeft_eq, Nat.mod_eq_of_lt (by omega),
      Nat.mod_eq_of_lt (by omega), ← Nat.shiftLeft_eq, ← Nat.shiftLeft_add_eq_or_of_lt low,
      Nat.shiftLeft_eq]
    omega
  rw [groups, ofGroups, joined, joined]

theorem Ipv6.groups_of_mapped {ip : Ipv6} {v4 : Ipv4} (h : ip.mapped? = some v4) :
    ip.groups = [0, 0, 0, 0, 0, 0xffff] ++ v4.groups := by
  unfold mapped? at h
  split at h
  · next high low same =>
    rw [← Option.some.inj h, Ipv4.groups_ofGroups, same]
    rfl
  · exact nomatch h

theorem Ipv6.ofGroups?_groups (ip : Ipv6) : ofGroups? ip.groups = some ip := dif_pos ip.eight

namespace Reader

variable {rest behind : List Char}

/-! ## Addresses -/

/-- Between groups that are printed and groups that are read behind two colons stand as many zeros
as there is room for. -/
theorem ipv6_compressed {front back : List UInt16} {mixed : Bool} {ip : Ipv6}
    (short : front.length < 8)
    (after : groups (7 - front.length) true behind = (back, mixed, rest))
    (same : front ++ List.replicate (8 - front.length - back.length) 0 ++ back = ip.groups) :
    ipv6 (Ipv6.printGroups front ++ ':' :: ':' :: behind) = some (ip, rest) := by
  have before : groups 8 true (Ipv6.printGroups front ++ ':' :: ':' :: behind) =
      (front, false, ':' :: ':' :: behind) :=
    groups_printGroups (.colons_cons behind) (Nat.le_of_lt short)
  rw [ipv6, before]
  dsimp only
  rw [if_neg (Nat.ne_of_lt short), if_neg Bool.false_ne_true, char_self, Option.bind_eq_bind,
    Option.bind_some, char_self, Option.bind_some, after]
  dsimp only
  rw [same, Ipv6.ofGroups?_groups, Option.map_some]

/-- The groups of an address that maps one of version 4. -/
theorem groups_mapped (v4 : Ipv4) (stop : Stops 10 rest) :
    groups 7 true (['f', 'f', 'f', 'f', ':'] ++ v4.print ++ rest) =
      (0xffff :: v4.groups, true, rest) := by
  have step := groups_group 0xffff (.colon (v4.print ++ rest)) 6 true
  have last : groups 6 false (':' :: (v4.print ++ rest)) = (v4.groups, true, rest) :=
    groups_ipv4 v4 stop (by decide) false
  rw [last] at step
  exact step

theorem ipv6_print (ip : Ipv6) (ends : Ends rest) : ipv6 (ip.print ++ rest) = some (ip, rest) := by
  rw [Ipv6.print]
  cases mapped : ip.mapped? with
  | some v4 =>
    have same := Ipv6.groups_of_mapped mapped
    exact @ipv6_compressed _ _ [] _ _ ip (by decide) (groups_mapped v4 ends.stops.ten) same.symm
  | none =>
    dsimp only
    obtain ⟨front, back, start, same⟩ := Ipv6.exists_longestZeros 0 ip.groups
    have eight := ip.eight
    split
    · next long =>
      -- The run has two groups at least, so those behind it fit into what the two colons leave.
      rw [start, Nat.zero_add]
      generalize (Ipv6.longestZeros 0 ip.groups).2 = k at same long
      rw [← same, List.length_append, List.length_append, List.length_replicate] at eight
      have room : back.length ≤ 7 - front.length := by omega
      have taken : ip.groups.take front.length = front := by
        rw [← same, List.append_assoc, List.take_left]
      have dropped : ip.groups.drop (front.length + k) = back := by
        rw [← same]
        exact List.drop_left' (by simp)
      have zeros : 8 - front.length - back.length = k := by omega
      rw [taken, dropped, List.append_assoc]
      refine ipv6_compressed (by omega) (groups_printGroups ends room) ?_
      rw [zeros, same]
    · have all : groups 8 true (Ipv6.printGroups ip.groups ++ rest) = (ip.groups, false, rest) :=
        groups_printGroups ends (Nat.le_of_eq eight)
      rw [ipv6, all]
      dsimp only
      rw [if_pos eight, Ipv6.ofGroups?_groups, Option.map_some]

/-- A printed address of version 6 does not begin with one of version 4. -/
theorem ipv4_ipv6_print (ip : Ipv6) (apart : Apart rest) : ipv4 (ip.print ++ rest) = none := by
  rw [Ipv6.print]
  cases ip.mapped? with
  | some v4 => exact ipv4_of_stops (stops_cons rfl _)
  | none =>
    dsimp only
    split
    · rw [List.append_assoc]
      exact ipv4_printGroups (.colon _) _
    · exact ipv4_printGroups apart _

theorem ip_print (a : Ip) (ends : Ends rest) : ip (a.print ++ rest) = some (a, rest) := by
  cases a with
  | v4 a =>
    rw [ip, Ip.print, ipv4_print a ends.stops.ten]
  | v6 a =>
    rw [ip, Ip.print, ipv4_ipv6_print a ends.toApart, ipv6_print a ends]
    rfl

end Reader

end PingWatch
