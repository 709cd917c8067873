import Mathlib.Data.List.TakeWhile
import SyslogIntake.Address.Reader
import SyslogIntake.Proofs.Text.Numerals

/-!
# Addresses are read as they are written

A reader of addresses takes from the beginning of a text.  It takes exactly the text of an
address if what stands behind cannot go on with it.  A long address is read in two halves
around the zeros that its text leaves out, and the groups of each half are read one after the
other; none of them is taken for the beginning of a short address, since no point follows its
digits.

**Results.**

* `ipv4_write` : the text of a short address is read as it, whatever stands behind;
* `ipv6_write` : so is that of a long address, with zeros left out or a short one inside;
* `readIpv4_write`, `readIpv6_write` : alone, too;
* `find_text` : the text of an endpoint names it.
-/

namespace SyslogIntake
namespace Address

open Numeral

theorem mark_self
    (c : Char) (rest : List Char) :
    mark c (c :: rest) = some rest := by
  simp [mark]

theorem mark_of_ne
    {c : Char} {text : List Char}
    (h : text.head? ≠ some c) :
    mark c text = none := by
  cases text with
  | nil =>
      rfl
  | cons d rest =>
      have hd : d ≠ c := by simpa using h
      simp [mark, hd]

section Numbers

variable {rest : List Char}

theorem shortNumber_digits
    {base most n : Nat}
    (hlow : 2 ≤ base) (hhigh : base ≤ 16)
    (hlength : (digits base n).length ≤ most)
    (hrest : Ends base rest) :
    shortNumber base most (digits base n ++ rest) = some (n, rest) := by
  have hfits : ¬ (digits base n = [] ∨ most < (digits base n).length) := by
    rintro (hnone | hlong)
    · exact digits_ne_nil base n hnone
    · omega
  simp only [shortNumber, digitRun, takeWhile_digits hlow hhigh hrest,
    dropWhile_digits hlow hhigh hrest, value_digits hlow hhigh]
  rw [if_neg hfits]

theorem boundedNumber_digits
    {most n : Nat}
    (hle : n ≤ most)
    (hrest : Ends 10 rest) :
    boundedNumber most (digits 10 n ++ rest) = some (n, rest) := by
  have hvalue := value_digits (show 2 ≤ 10 by decide) (by decide) n
  have hfits : ¬ (digits 10 n = [] ∨ most < n) := by
    rintro (hnone | hlarge)
    · exact digits_ne_nil 10 n hnone
    · omega
  simp only [boundedNumber, digitRun, takeWhile_digits (by decide) (by decide) hrest,
    dropWhile_digits (by decide) (by decide) hrest, hvalue]
  rw [if_neg hfits]

theorem octet_digits
    (hrest : Ends 10 rest)
    (b : UInt8) :
    octet (digits 10 b.toNat ++ rest) = some (b, rest) := by
  have hb : b.toNat < 256 := b.toNat_lt
  have hlength : (digits 10 b.toNat).length ≤ 3 :=
    length_digits_le (by decide) (by decide) (by omega)
  have hzero : ¬ ((digits 10 b.toNat ++ rest).head? = some '0' ∧
      (digits 10 b.toNat).length ≠ 1) := by
    rintro ⟨hhead, hmore⟩
    obtain ⟨c, front, hfront⟩ := List.exists_cons_of_ne_nil (digits_ne_nil 10 b.toNat)
    have hnone : b.toNat = 0 :=
      head?_digits (show 2 ≤ 10 by decide) (by decide) (by rwa [hfront] at hhead ⊢)
    rw [hnone, digits_of_lt (by decide)] at hmore
    exact hmore rfl
  have hfits : ¬ (255 < b.toNat ∨ ((digits 10 b.toNat ++ rest).head? = some '0' ∧
      (digits 10 b.toNat).length ≠ 1)) := by
    rintro (hlarge | hleading)
    · omega
    · exact hzero hleading
  rw [octet, shortNumber_digits (by decide) (by decide) hlength hrest]
  simp only [digitRun, takeWhile_digits (show 2 ≤ 10 by decide) (by decide) hrest,
    Option.bind_eq_bind, Option.bind_some]
  rw [if_neg hfits, UInt8.ofNat_toNat]

theorem group_digits
    (hrest : Ends 16 rest)
    (g : UInt16) :
    group (digits 16 g.toNat ++ rest) = some (g, rest) := by
  have hg : g.toNat < 65536 := g.toNat_lt
  have hlength : (digits 16 g.toNat).length ≤ 4 :=
    length_digits_le (by decide) (by decide) (by omega)
  rw [group, shortNumber_digits (by decide) (by decide) hlength hrest]
  simp

theorem group_of_ends
    (hrest : Ends 16 rest) :
    group rest = none := by
  have hnone : rest.takeWhile (isDigit 16) = [] := by
    cases rest with
    | nil =>
        rfl
    | cons c rest =>
        simp [hrest c rfl]
  simp [group, shortNumber, digitRun, hnone]

end Numbers

/-- The text of a short address is read as it, whatever stands behind its last digit. -/
theorem ipv4_write
    {rest : List Char}
    (hrest : Ends 10 rest)
    (address : Ipv4) :
    ipv4 (address.write ++ rest) = some (address, rest) := by
  have hpoint : ∀ more, Ends 10 ('.' :: more) := ends_cons (by decide)
  simp only [ipv4, Ipv4.write, List.append_assoc, List.cons_append]
  simp only [octet_digits (hpoint _), octet_digits hrest, mark_self, Option.bind_eq_bind,
    Option.bind_some]
  rfl

theorem octet_rest
    {text : List Char} {found : UInt8 × List Char}
    (h : octet text = some found) :
    found.2 = text.dropWhile (isDigit 10) := by
  unfold octet at h
  cases hnumber : shortNumber 10 3 text with
  | none =>
      simp [hnumber] at h
  | some number =>
      have hrest : number.2 = text.dropWhile (isDigit 10) := by
        simp only [shortNumber, Option.ite_none_left_eq_some] at hnumber
        rw [← Option.some.inj hnumber.2, digitRun]
      simp only [hnumber, Option.bind_eq_bind, Option.bind_some] at h
      rw [Option.ite_none_left_eq_some] at h
      rw [← Option.some.inj h.2]
      exact hrest

/-- A text is no short address unless a point follows the digits that it begins with. -/
theorem ipv4_of_no_point
    {text : List Char}
    (h : (text.dropWhile (isDigit 10)).head? ≠ some '.') :
    ipv4 text = none := by
  rw [ipv4]
  cases hoctet : octet text with
  | none =>
      rfl
  | some found =>
      simp only [Option.bind_eq_bind, Option.bind_some]
      rw [octet_rest hoctet, mark_of_ne h]
      rfl

/-- What cannot go on with the groups of an address. -/
structure Closes (rest : List Char) : Prop where
  ends : Ends 16 rest
  no_point : rest.head? ≠ some '.'
  no_group : (mark ':' rest).bind group = none
  no_short : (mark ':' rest).bind ipv4 = none

/-- What can stand behind a long address. -/
def Stops (rest : List Char) : Prop :=
  ∀ c ∈ rest.head?, isDigit 16 c = false ∧ c ≠ '.' ∧ c ≠ ':'

section Behind

variable {rest : List Char}

theorem Ends.decimal
    (h : Ends 16 rest) :
    Ends 10 rest := by
  intro c hc
  by_contra hdigit
  have hmore := isDigit_mono (show 10 ≤ 16 by decide) (by simpa using hdigit)
  rw [h c hc] at hmore
  cases hmore

theorem Stops.ends
    (h : Stops rest) :
    Ends 16 rest :=
  fun c hc => (h c hc).1

theorem Stops.closes
    (h : Stops rest) :
    Closes rest := by
  have hcolon : mark ':' rest = none :=
    mark_of_ne fun hhead => (h ':' hhead).2.2 rfl
  refine ⟨h.ends, fun hhead => (h '.' hhead).2.1 rfl, ?_, ?_⟩ <;> rw [hcolon] <;> rfl

theorem ipv4_of_ends
    (hends : Ends 16 rest) (hpoint : rest.head? ≠ some '.') :
    ipv4 rest = none := by
  have hwhole : rest.dropWhile (isDigit 10) = rest := by
    cases rest with
    | nil =>
        rfl
    | cons c rest =>
        simp [Ends.decimal hends c rfl]
  exact ipv4_of_no_point (by rwa [hwhole])

/-- The digits of a group are not taken for the beginning of a short address. -/
theorem ipv4_digits
    (hends : Ends 16 rest) (hpoint : rest.head? ≠ some '.')
    (n : Nat) :
    ipv4 (digits 16 n ++ rest) = none := by
  refine ipv4_of_no_point ?_
  rw [List.dropWhile_append]
  split
  · have hwhole : rest.dropWhile (isDigit 10) = rest := by
      cases rest with
      | nil =>
          rfl
      | cons c rest =>
          simp [Ends.decimal hends c rfl]
    rwa [hwhole]
  · rename_i hmore
    have hsome : (digits 16 n).dropWhile (isDigit 10) ≠ [] :=
      fun hnone => hmore (List.isEmpty_iff.2 hnone)
    obtain ⟨c, more, hfront⟩ := List.exists_cons_of_ne_nil hsome
    have hc : isDigit 16 c = true := by
      refine isDigit_of_mem_digits (show 2 ≤ 16 by decide) (by decide) n c ?_
      exact (List.dropWhile_suffix _).subset (by rw [hfront]; exact List.mem_cons_self)
    rw [hfront, List.cons_append, List.head?_cons, ne_eq, Option.some.injEq]
    rintro rfl
    exact absurd hc (by decide)

theorem closes_colons
    (rest : List Char) :
    Closes (':' :: ':' :: rest) := by
  have hends : ∀ more, Ends 16 (':' :: more) := ends_cons (by decide)
  refine ⟨hends _, by simp, ?_, ?_⟩
  · rw [mark_self]
    exact group_of_ends (hends rest)
  · rw [mark_self]
    exact ipv4_of_ends (hends rest) (by simp)

end Behind

/-- Groups behind other groups, each with its colon. -/
def following (found : List UInt16) : List Char :=
  found.flatMap fun g => ':' :: digits 16 g.toNat

theorem writeGroups_cons
    (g : UInt16) (found : List UInt16) :
    Ipv6.writeGroups (g :: found) = digits 16 g.toNat ++ following found := by
  induction found generalizing g with
  | nil =>
      simp [Ipv6.writeGroups, following]
  | cons next found ih =>
      rw [Ipv6.writeGroups, ih next]
      simp [following]

section Halves

variable {rest : List Char}

theorem following_closes
    (hrest : Closes rest)
    (found : List UInt16) :
    Ends 16 (following found ++ rest) ∧ (following found ++ rest).head? ≠ some '.' := by
  cases found with
  | nil =>
      exact ⟨hrest.ends, hrest.no_point⟩
  | cons g found =>
      exact ⟨ends_cons (by decide) _, by simp [following]⟩

/-- A group that no point follows is taken, and the rest is read on. -/
theorem groups_cons
    {first : Bool} {text more : List Char} {g : UInt16}
    (htext : separated first text = some (digits 16 g.toNat ++ more))
    (hends : Ends 16 more) (hpoint : more.head? ≠ some '.')
    (room : Nat) :
    groups first (room + 1) text =
      ⟨g :: (groups false room more).found, (groups false room more).dotted,
        (groups false room more).rest⟩ := by
  simp only [groups, htext, Option.bind_some, ipv4_digits hends hpoint, group_digits hends]

/-- A short address ends the groups, if there is room for it. -/
theorem groups_short
    {first : Bool} {text : List Char} {address : Ipv4} {room : Nat}
    (htext : (separated first text).bind ipv4 = some (address, rest))
    (hroom : 1 ≤ room) :
    groups first (room + 1) text = ⟨Ipv4.groups address, true, rest⟩ := by
  simp only [groups, htext, decide_eq_true hroom]

/-- Where neither a group nor a short address follows, no groups are read. -/
theorem groups_nil
    {first : Bool}
    (hgroup : (separated first rest).bind group = none)
    (hshort : (separated first rest).bind ipv4 = none)
    (room : Nat) :
    groups first room rest = ⟨[], false, rest⟩ := by
  cases room with
  | zero =>
      rfl
  | succ room =>
      simp only [groups, hgroup, hshort]

/-- Groups behind other groups are read one after the other. -/
theorem groups_following
    (hrest : Closes rest)
    {found : List UInt16} {room : Nat}
    (hroom : found.length ≤ room) :
    groups false room (following found ++ rest) = ⟨found, false, rest⟩ := by
  induction found generalizing room with
  | nil =>
      exact @groups_nil rest false hrest.no_group hrest.no_short room
  | cons g found ih =>
      obtain ⟨left, rfl⟩ : ∃ left, room = left + 1 :=
        Nat.exists_eq_add_of_lt (Nat.lt_of_lt_of_le (Nat.succ_pos _) hroom) |>.imp (by simp)
      obtain ⟨hends, hpoint⟩ := following_closes hrest found
      have htext : separated false (following (g :: found) ++ rest) =
          some (digits 16 g.toNat ++ (following found ++ rest)) := by
        simp [separated, following, mark]
      rw [groups_cons htext hends hpoint, ih (by simpa using hroom)]

theorem groups_write
    (hrest : Closes rest)
    (found : List UInt16) {room : Nat}
    (hroom : found.length ≤ room) :
    groups true room (Ipv6.writeGroups found ++ rest) = ⟨found, false, rest⟩ := by
  cases found with
  | nil =>
      exact @groups_nil rest true (group_of_ends hrest.ends)
        (ipv4_of_ends hrest.ends hrest.no_point) room
  | cons g found =>
      obtain ⟨left, rfl⟩ : ∃ left, room = left + 1 :=
        Nat.exists_eq_add_of_lt (Nat.lt_of_lt_of_le (Nat.succ_pos _) hroom) |>.imp (by simp)
      obtain ⟨hends, hpoint⟩ := following_closes hrest found
      have htext : separated true (Ipv6.writeGroups (g :: found) ++ rest) =
          some (digits 16 g.toNat ++ (following found ++ rest)) := by
        simp [separated, writeGroups_cons]
      rw [groups_cons htext hends hpoint, groups_following hrest (by simpa using hroom)]

end Halves

/-- The two groups that a short address came from are its groups. -/
theorem groups_ofNat
    (high low : UInt16) :
    Ipv4.groups (Ipv4.ofNat (high.toNat * 65536 + low.toNat)) = [high, low] := by
  have hhigh : high.toNat < 65536 := high.toNat_lt
  have hlow : low.toNat < 65536 := low.toNat_lt
  simp only [Ipv4.groups, Ipv4.ofNat, Octets.bigEndian, List.cons.injEq, and_true]
  constructor <;> rw [← UInt16.toNat_inj] <;> simp <;> omega

/-- A run of zero groups is so many zeros in the middle of the groups. -/
theorem split_run
    (found : List UInt16) (start : Nat) :
    found = found.take start ++ List.replicate (Ipv6.runAt found start) 0 ++
      found.drop (start + Ipv6.runAt found start) := by
  have hzeros : (found.drop start).takeWhile (· == 0) =
      List.replicate (Ipv6.runAt found start) 0 := by
    refine List.eq_replicate_iff.2 ⟨rfl, ?_⟩
    intro g hg
    simpa using List.mem_takeWhile_imp hg
  have hbehind : found.drop (start + Ipv6.runAt found start) =
      (found.drop start).dropWhile (· == 0) := by
    rw [← List.drop_drop]
    have hparts : (found.drop start).takeWhile (· == 0) ++ (found.drop start).dropWhile (· == 0) =
        found.drop start := List.takeWhile_append_dropWhile
    exact (congrArg (List.drop _) hparts.symm).trans List.drop_left
  rw [hbehind, ← hzeros, List.append_assoc, List.takeWhile_append_dropWhile,
    List.take_append_drop]

section Long

variable {rest : List Char}

/-- An address with an address inside is read as it is written. -/
theorem ipv6_embedded
    (hrest : Ends 10 rest)
    (high low : UInt16) (hlength : [0, 0, 0, 0, 0, 65535, high, low].length = 8) :
    ipv6 ([':', ':', 'f', 'f', 'f', 'f', ':'] ++
        ((Ipv4.ofNat (high.toNat * 65536 + low.toNat)).write ++ rest)) =
      some (⟨[0, 0, 0, 0, 0, 65535, high, low], hlength⟩, rest) := by
  generalize hshort : Ipv4.ofNat (high.toNat * 65536 + low.toNat) = short
  have hgroups : Ipv4.groups short = [high, low] := hshort ▸ groups_ofNat high low
  have hmarker : ['f', 'f', 'f', 'f'] = digits 16 (65535 : UInt16).toNat := by decide +kernel
  have hhead :
      groups true 8 (':' :: ':' :: (['f', 'f', 'f', 'f'] ++ ':' :: (short.write ++ rest))) =
        ⟨[], false, ':' :: ':' :: (['f', 'f', 'f', 'f'] ++ ':' :: (short.write ++ rest))⟩ :=
    groups_write (closes_colons _) [] (Nat.zero_le _)
  have hlast : groups false 6 (':' :: (short.write ++ rest)) = ⟨[high, low], true, rest⟩ := by
    have hread : (separated false (':' :: (short.write ++ rest))).bind ipv4 = some (short, rest) :=
      ipv4_write hrest short
    rw [groups_short hread (by decide), hgroups]
  have htail : groups true 7 (['f', 'f', 'f', 'f'] ++ ':' :: (short.write ++ rest)) =
      ⟨[65535, high, low], true, rest⟩ := by
    rw [hmarker, groups_cons rfl (ends_cons (by decide) _) (by simp), hlast]
  simp only [List.cons_append, List.nil_append] at hhead htail ⊢
  simp [ipv6, hhead, htail, mark_self, Ipv6.ofGroups?]

theorem ipv6_compressed
    (hrest : Stops rest)
    (address : Ipv6) {start : Nat}
    (hrun : 1 < Ipv6.runAt address.groups start) :
    ipv6 (Ipv6.writeGroups (address.groups.take start) ++ ':' :: ':' ::
        (Ipv6.writeGroups (address.groups.drop (start + Ipv6.runAt address.groups start)) ++
          rest)) =
      some (address, rest) := by
  obtain ⟨found, hlength⟩ := address
  simp only at hrun ⊢
  have hsplit := split_run found start
  generalize Ipv6.runAt found start = count at hrun hsplit ⊢
  generalize found.drop (start + count) = back at hsplit ⊢
  generalize hfront : found.take start = front at hsplit ⊢
  have htotal : front.length + count + back.length = 8 := by
    rw [← hlength, hsplit]
    simp [Nat.add_assoc]
  have hhead := groups_write (closes_colons (Ipv6.writeGroups back ++ rest)) front
    (show front.length ≤ 8 by omega)
  have htail := groups_write hrest.closes back (show back.length ≤ 7 - front.length by omega)
  have hzeros : 8 - front.length - back.length = count := by omega
  have hshort : front.length ≠ 8 := by omega
  simp only [ipv6, hhead, hshort, if_false, Bool.false_eq_true, mark_self, Option.bind_eq_bind,
    Option.bind_some, htail, hzeros, ← hsplit, Ipv6.ofGroups?, hlength, dite_true]
  rfl

theorem ipv6_whole
    (hrest : Stops rest)
    (address : Ipv6) :
    ipv6 (Ipv6.writeGroups address.groups ++ rest) = some (address, rest) := by
  have hall := groups_write hrest.closes address.groups (Nat.le_of_eq address.length_groups)
  simp [ipv6, hall, address.length_groups, Ipv6.ofGroups?]

theorem ipv6_write
    (hrest : Stops rest)
    (address : Ipv6) :
    ipv6 (address.write ++ rest) = some (address, rest) := by
  rw [Ipv6.write]
  split
  · rename_i short hshort
    obtain ⟨found, hlength⟩ := address
    unfold Ipv6.embedded? at hshort
    split at hshort
    · rename_i high low hfound
      simp only at hfound
      subst hfound
      rw [← Option.some.inj hshort, List.append_assoc]
      exact ipv6_embedded (Ends.decimal hrest.ends) high low hlength
    · cases hshort
  · simp only
    split
    · rename_i hrun
      simpa using ipv6_compressed hrest address hrun
    · exact ipv6_whole hrest address

end Long

theorem readIpv4_write
    (address : Ipv4) :
    readIpv4 address.write = some address := by
  have hread := ipv4_write (ends_nil 10) address
  rw [List.append_nil] at hread
  rw [readIpv4, hread]
  rfl

theorem readIpv6_write
    (address : Ipv6) :
    readIpv6 address.write = some address := by
  have hstops : Stops [] := by simp [Stops]
  have hread := ipv6_write hstops address
  rw [List.append_nil] at hread
  rw [readIpv6, hread]
  rfl

theorem port_digits
    (number : UInt16) :
    port (':' :: digits 10 number.toNat) = some (number, []) := by
  have hnumber : number.toNat < 65536 := number.toNat_lt
  have hread := boundedNumber_digits (show number.toNat ≤ 65535 by omega) (ends_nil 10)
  rw [List.append_nil] at hread
  simp [port, mark_self, hread]

/-- A zone is read as it is written; none is read where none is written. -/
theorem scope_write
    (zone : UInt32) (more : List Char) :
    scope ((if zone = 0 then [] else '%' :: digits 10 zone.toNat) ++ ']' :: more) =
      (zone, ']' :: more) := by
  have hzone : zone.toNat < 4294967296 := zone.toNat_lt
  split
  · rename_i hnone
    rw [hnone]
    rfl
  · have hread := boundedNumber_digits (show zone.toNat ≤ 4294967295 by omega)
      (ends_cons (c := ']') (by decide) more)
    simp [scope, mark_self, hread]

/-- The text of an endpoint is read as it. -/
theorem readEndpoint_write
    (endpoint : Endpoint) :
    readEndpoint endpoint.write = some endpoint := by
  cases endpoint with
  | v4 address number =>
      have haddress :=
        ipv4_write (ends_cons (c := ':') (by decide) (digits 10 number.toNat)) address
      have hport := port_digits number
      simp only [readEndpoint, Endpoint.write, endpoint4, haddress, hport, Option.bind_eq_bind,
        Option.bind_some]
      rfl
  | v6 address number zone =>
      have hshort : endpoint4 (Endpoint.v6 address number zone).write = none := by
        have hnone : ipv4 (Endpoint.v6 address number zone).write = none :=
          ipv4_of_ends (ends_cons (by decide) _) (by simp [Endpoint.write])
        rw [endpoint4, hnone]
        rfl
      have hstops : Stops ((if zone = 0 then [] else '%' :: digits 10 zone.toNat) ++
          ']' :: ':' :: digits 10 number.toNat) := by
        split <;> simp [Stops] <;> decide
      have haddress := ipv6_write hstops address
      have hzone := scope_write zone (':' :: digits 10 number.toNat)
      have hport := port_digits number
      rw [readEndpoint, hshort]
      simp only [Endpoint.write, endpoint6, mark_self, List.cons_append, List.append_assoc,
        Option.bind_eq_bind, Option.bind_some, haddress, hzone, hport]
      rfl

theorem find_text
    (endpoint : Endpoint) :
    find endpoint.text = .ok endpoint := by
  simp [find, Endpoint.text, readEndpoint_write]

end Address
end SyslogIntake
