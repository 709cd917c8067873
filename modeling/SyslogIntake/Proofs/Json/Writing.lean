import Mathlib.Tactic.IntervalCases
import SyslogIntake.Json.Printer
import SyslogIntake.Proofs.Json.Tidy
import SyslogIntake.Proofs.Text.Encoding
import SyslogIntake.Proofs.Text.Numerals

/-!
# Values are read as they are written

The text of a value is read octet by octet, and what a part of the text does to the reader is
stated for any place that the part can stand at.  A number is complete only when the octet behind
it does not belong to it, so behind a value the reader may still be within a number; the next
comma or closing bracket, or the end of the text, settles it.

A value that is read back has no fractions, numbers that fit into a machine word, and no more
arrays and objects within each other than the reader lets be open at once.  What comes back
has the members of its objects in order.

**Results.**

* `reads_string` : the text of a string is read as it, with all that is escaped in it;
* `reads_number` : so is the text of a whole number;
* `read_write` : the text of a value is read as the value with its members in order;
* `read_write_of_tidy` : the text of a tidy value is read as it.
-/

namespace SyslogIntake
namespace Json

open Numeral

abbrev octets (text : List Char) : Octets :=
  text.flatMap Utf8.encodeChar

/-- A text leads a reader from one mode and place to others, wherever it stands. -/
def Reads (mode : Mode) (place : Place) (text : Octets) (next : Mode) (there : Place) : Prop :=
  ∀ spot, ∃ reached, Reader.feedAll ⟨mode, place, spot⟩ text = .ok ⟨next, there, reached⟩

/-- A reader is done with what it was within as soon as the next octet does not belong to it:
then it is between tokens, at a place. -/
inductive Pending : Mode → Place → Place → Prop
  | between (place : Place) :
      Pending .between place place
  | number {gathered : Octets} {part : NumberPart} {v : Json}
      (hpart : part = .zero ∨ part = .whole)
      (hvalue : numberOf (charsOf gathered) = some v)
      (place : Place) :
      Pending (.number gathered part) place (place.afterValue v)

/-- An octet that does not go on with a number. -/
def EndsNumber (b : UInt8) : Prop :=
  digit? 10 b = none ∧ NumberPart.behindDigits true b = none

section Composition

variable {mode next last : Mode} {place there final : Place} {front back : Octets}

theorem Reads.nil
    (mode : Mode) (place : Place) :
    Reads mode place [] mode place :=
  fun spot => ⟨spot, rfl⟩

theorem Reads.append
    (hfront : Reads mode place front next there)
    (hback : Reads next there back last final) :
    Reads mode place (front ++ back) last final := by
  intro spot
  obtain ⟨middle, hmiddle⟩ := hfront spot
  obtain ⟨reached, hreached⟩ := hback middle
  refine ⟨reached, ?_⟩
  rw [feedAll_append, hmiddle]
  exact hreached

theorem Reads.octet
    {b : UInt8}
    (hsettled : ∀ spot, Reader.settled ⟨mode, place, spot⟩ b = .ok ⟨mode, place, spot⟩)
    (hstep : step mode place b = .ok (next, there)) :
    Reads mode place [b] next there := by
  intro spot
  refine ⟨spot.after b, ?_⟩
  simp only [Reader.feedAll, Reader.feed, hsettled spot, hstep]

theorem Reads.token
    {b : UInt8}
    (hstep : beginToken place b = .ok (next, there)) :
    Reads .between place [b] next there :=
  Reads.octet (fun _ => rfl) hstep

/-- An octet that does not go on with a number is read as if the number were done. -/
theorem Pending.reads
    {b : UInt8}
    (hpending : Pending mode place there)
    (hb : EndsNumber b)
    (hstep : beginToken there b = .ok (next, final)) :
    Reads mode place [b] next final := by
  cases hpending with
  | between =>
      exact Reads.token hstep
  | @number gathered part v hpart hvalue =>
      intro spot
      have hsettled : Reader.settled ⟨.number gathered part, place, spot⟩ b =
          .ok ⟨.between, place.afterValue v, spot⟩ := by
        have hnext : part.next b = none := by
          rcases hpart with rfl | rfl <;> rw [NumberPart.next.eq_def, hb.1] <;> exact hb.2
        have hend : part.mayEnd = true ∧ (!part.isSurplus b) = true ∧
            (part.next b).isNone = true := by
          refine ⟨?_, ?_, by rw [hnext]; rfl⟩
          · rcases hpart with rfl | rfl <;> rfl
          · simp [NumberPart.isSurplus, hb.1]
        simp only [Reader.settled]
        rw [if_pos (by simpa using hend)]
        simp only [Reader.endNumber, hvalue]
      refine ⟨spot.after b, ?_⟩
      simp only [Reader.feedAll, Reader.feed, hsettled, step, hstep]

theorem Pending.finish
    (hpending : Pending mode place there)
    (spot : Spot) :
    Reader.finish ⟨mode, place, spot⟩ = Reader.valueAtEnd ⟨.between, there, spot⟩ := by
  cases hpending with
  | between =>
      rfl
  | @number gathered part v hpart hvalue =>
      have hend : part.mayEnd = true := by
        rcases hpart with rfl | rfl <;> rfl
      simp only [Reader.finish, hend, if_true, Reader.endNumber, hvalue]
      rfl

end Composition

/-! The beginning of a value is the same at all places where one is due. -/

section Begin

variable {place : Place} {outer : List Frame}

/-- Where a value is due, an octet that is no blank and no closing bracket begins one. -/
theorem beginToken_value
    {b : UInt8}
    (houter : place.outer? = some outer)
    (hblank : isOneOf [' ', '\n', '\t', '\r'] b = false)
    (hclose : isOneOf [']'] b = false) :
    beginToken place b = beginValue outer place b := by
  unfold beginToken
  rw [hblank]
  cases place <;> cases houter <;> simp [hclose]

theorem afterValue_of_outer
    (houter : place.outer? = some outer)
    (v : Json) :
    place.afterValue v = .settle v outer := by
  simp [Place.afterValue, houter]

theorem reads_name
    (houter : place.outer? = some outer) :
    Reads .between place (octets ['n', 'u', 'l', 'l']) .between (place.afterValue .null) ∧
      Reads .between place (octets ['t', 'r', 'u', 'e']) .between
        (place.afterValue (.bool true)) ∧
      Reads .between place (octets ['f', 'a', 'l', 's', 'e']) .between
        (place.afterValue (.bool false)) := by
  have hfirst : ∀ {b : UInt8} {rest : Octets} {v : Json},
      isOneOf [' ', '\n', '\t', '\r'] b = false → isOneOf [']'] b = false →
      beginValue outer place b = .ok (.name rest v, place) →
      Reads .between place [b] (.name rest v) place := by
    intro b rest v hblank hclose hbegin
    exact Reads.token ((beginToken_value houter hblank hclose).trans hbegin)
  have hnull := hfirst (b := 110) (by decide) (by decide) rfl
  have htrue := hfirst (b := 116) (by decide) (by decide) rfl
  have hfalse := hfirst (b := 102) (by decide) (by decide) rfl
  refine ⟨hnull.append ?_, htrue.append ?_, hfalse.append ?_⟩
  · exact fun spot => ⟨_, rfl⟩
  · exact fun spot => ⟨_, rfl⟩
  · exact fun spot => ⟨_, rfl⟩

end Begin

/-! Strings. -/

section Strings

variable {place : Place}

theorem isOneOf_eq_false
    {chars : List Char} {b : UInt8}
    (h : ∀ c ∈ chars, b.toNat ≠ c.toNat) :
    isOneOf chars b = false := by
  have hb : b.toNat < 256 := b.toNat_lt
  have hcode : (Char.ofNat b.toNat).toNat = b.toNat := Utf8.toNat_ofNat (Or.inl (by omega))
  rw [isOneOf, Bool.eq_false_iff, ne_eq, List.contains_iff_mem]
  intro hmem
  exact h _ hmem hcode.symm

/-- The octets of a character beyond ASCII are beyond ASCII. -/
theorem encodeChar_beyond
    {c : Char} {b : UInt8}
    (hc : 0x80 ≤ c.toNat)
    (hb : b ∈ Utf8.encodeChar c) :
    0x80 ≤ b.toNat := by
  have hvalid : c.toNat < 0x110000 := by
    have hboth : c.toNat < 0xD800 ∨ 0xDFFF < c.toNat ∧ c.toNat < 0x110000 := c.valid
    omega
  have hsmall : ∀ n, 0x80 ≤ n → n < 0x100 → 0x80 ≤ (UInt8.ofNat n).toNat := by
    intro n hlow hhigh
    rw [UInt8.toNat_ofNat_of_lt' hhigh]
    exact hlow
  have hall : ∀ m ∈ Utf8.encodeChar c, ∃ n, 0x80 ≤ n ∧ n < 0x100 ∧ m = UInt8.ofNat n := by
    unfold Utf8.encodeChar
    simp only
    repeat' split
    · omega
    all_goals
      simp only [List.mem_cons, List.not_mem_nil, or_false, forall_eq_or_imp, forall_eq]
    · exact ⟨⟨_, by omega, by omega, rfl⟩, ⟨_, by omega, by omega, rfl⟩⟩
    · exact ⟨⟨_, by omega, by omega, rfl⟩, ⟨_, by omega, by omega, rfl⟩,
        ⟨_, by omega, by omega, rfl⟩⟩
    · exact ⟨⟨_, by omega, by omega, rfl⟩, ⟨_, by omega, by omega, rfl⟩,
        ⟨_, by omega, by omega, rfl⟩, ⟨_, by omega, by omega, rfl⟩⟩
  obtain ⟨n, hlow, hhigh, rfl⟩ := hall b hb
  exact hsmall n hlow hhigh

/-- Octets that are neither controls nor quotes nor backslashes are gathered. -/
theorem reads_plain
    {text : Octets}
    (h : ∀ b ∈ text, 32 ≤ b.toNat ∧ b.toNat ≠ 34 ∧ b.toNat ≠ 92)
    (gathered : Octets) :
    Reads (.quoted gathered) place text (.quoted (text.reverse ++ gathered)) place := by
  induction text generalizing gathered with
  | nil =>
      exact Reads.nil _ _
  | cons b rest ih =>
      obtain ⟨hcontrol, hquote, hback⟩ := h b List.mem_cons_self
      have hstep : step (.quoted gathered) place b = .ok (.quoted (b :: gathered), place) := by
        have hnoquote : isOneOf ['\x22'] b = false :=
          isOneOf_eq_false (by simpa using hquote)
        have hnoback : isOneOf ['\\'] b = false :=
          isOneOf_eq_false (by simpa using hback)
        have hplain : ¬ b < 32 := by
          rw [UInt8.lt_iff_toNat_lt]
          exact Nat.not_lt.2 hcontrol
        simp [step, stepString, hnoquote, hnoback, hplain]
      have hrest := ih (fun c hc => h c (List.mem_cons_of_mem b hc)) (b :: gathered)
      rw [List.reverse_cons, List.append_assoc, List.singleton_append]
      exact (Reads.octet (fun _ => rfl) hstep).append hrest

theorem reads_control
    {c : Char}
    (hc : c.toNat < 32)
    (gathered : Octets) :
    Reads (.quoted gathered) place
      (octets ['\\', 'u', '0', '0', digit (c.toNat / 16), digit (c.toNat % 16)])
      (.quoted ((Utf8.encodeChar c).reverse ++ gathered)) place := by
  have hall : ∀ n < 32, octets [digit (n / 16), digit (n % 16)] =
      [UInt8.ofNat (digit (n / 16)).toNat, UInt8.ofNat (digit (n % 16)).toNat] ∧
      unitOf [UInt8.ofNat (digit (n % 16)).toNat, UInt8.ofNat (digit (n / 16)).toNat, 48, 48] =
        some n ∧ isLow n = false := by
    decide
  obtain ⟨hoctets, hunit, hlow⟩ := hall c.toNat hc
  have hend : endUnit gathered
      [UInt8.ofNat (digit (c.toNat % 16)).toNat, UInt8.ofNat (digit (c.toNat / 16)).toNat, 48, 48] =
        .ok (.quoted ((Utf8.encodeChar c).reverse ++ gathered)) := by
    have hfirst : ¬ (0xD800 ≤ c.toNat ∧ c.toNat ≤ 0xDBFF) := by omega
    simp only [endUnit, hunit, hlow, Bool.false_eq_true, if_false, if_neg hfirst, push,
      Char.ofNat_toNat]
  have hfront : Reads (.quoted gathered) place (octets ['\\', 'u', '0', '0'])
      (.unit gathered [48, 48]) place := fun spot => ⟨_, rfl⟩
  have hthird : step (.unit gathered [48, 48]) place (UInt8.ofNat (digit (c.toNat / 16)).toNat) =
      .ok (.unit gathered [UInt8.ofNat (digit (c.toNat / 16)).toNat, 48, 48], place) := rfl
  have hlast : step (.unit gathered [UInt8.ofNat (digit (c.toNat / 16)).toNat, 48, 48]) place
      (UInt8.ofNat (digit (c.toNat % 16)).toNat) =
        .ok (.quoted ((Utf8.encodeChar c).reverse ++ gathered), place) := by
    simp only [step, List.length_cons, List.length_nil, Nat.reduceAdd, Nat.lt_irrefl, if_false,
      hend]
    rfl
  have hback := (Reads.octet (fun _ => rfl) hthird).append (Reads.octet (fun _ => rfl) hlast)
  have htext : octets ['\\', 'u', '0', '0', digit (c.toNat / 16), digit (c.toNat % 16)] =
      octets ['\\', 'u', '0', '0'] ++ octets [digit (c.toNat / 16), digit (c.toNat % 16)] := by
    rw [octets, octets, octets, ← List.flatMap_append]
    rfl
  rw [htext, hoctets]
  exact hfront.append hback

/-- A character of a string is read as it is written. -/
theorem reads_writeChar
    (c : Char) (gathered : Octets) :
    Reads (.quoted gathered) place (octets (writeChar c))
      (.quoted ((Utf8.encodeChar c).reverse ++ gathered)) place := by
  unfold writeChar
  split
  · rename_i letter hletter
    unfold letter? at hletter
    split at hletter
    · rename_i hself
      rcases hself with rfl | rfl <;> cases hletter <;> exact fun spot => ⟨_, rfl⟩
    · repeat' split at hletter
      all_goals cases hletter
      all_goals subst c
      all_goals exact fun spot => ⟨_, rfl⟩
  · rename_i hletter
    split
    · rename_i hcontrol
      exact reads_control hcontrol gathered
    · rename_i hplain
      have hquote : c ≠ '\x22' := by
        rintro rfl
        cases hletter
      have hback : c ≠ '\\' := by
        rintro rfl
        cases hletter
      rw [octets, List.flatMap_singleton]
      refine reads_plain ?_ gathered
      intro b hb
      by_cases hascii : c.toNat < 0x80
      · have hone : b = UInt8.ofNat c.toNat := by
          simpa [Utf8.encodeChar, hascii] using hb
        have hcode : b.toNat = c.toNat := by
          rw [hone, UInt8.toNat_ofNat_of_lt' (show c.toNat < 256 by omega)]
        rw [hcode]
        refine ⟨by omega, ?_, ?_⟩
        · exact fun heq => hquote (Char.toNat_inj.1 heq)
        · exact fun heq => hback (Char.toNat_inj.1 heq)
      · have hbeyond := encodeChar_beyond (by omega) hb
        omega

theorem reads_chars
    (text : List Char) (gathered : Octets) :
    Reads (.quoted gathered) place (octets (text.flatMap writeChar))
      (.quoted ((octets text).reverse ++ gathered)) place := by
  induction text generalizing gathered with
  | nil =>
      exact Reads.nil _ _
  | cons c text ih =>
      have hrest := ih ((Utf8.encodeChar c).reverse ++ gathered)
      simp only [octets, List.flatMap_cons, List.flatMap_append, List.reverse_append,
        List.append_assoc] at hrest ⊢
      exact (reads_writeChar c gathered).append hrest

/-- The octets of a text are the text, with nothing replaced. -/
theorem decodeLossy_octets
    (text : List Char) :
    Utf8.decodeLossy (octets text) = String.ofList text := by
  have hpieces : Utf8.pieces (octets text) = text.map Utf8.Piece.char := by
    have hall := Utf8.piecesFrom_encode text []
    rw [List.append_nil] at hall
    rw [Utf8.pieces_eq, hall]
    exact List.append_nil _
  rw [Utf8.decodeLossy, hpieces, List.map_map]
  congr 1
  exact List.map_id _

theorem reads_string
    (hopen : beginToken place 34 = .ok (.quoted [], place))
    (s : String) :
    Reads .between place (octets (writeString s)) .between (place.afterString s) := by
  have hchars := @reads_chars place s.toList []
  have hclose : step (.quoted ((octets s.toList).reverse ++ [])) place 34 =
      .ok (.between, place.afterString s) := by
    have hquote : isOneOf ['\x22'] 34 = true := by decide
    rw [List.append_nil]
    simp only [step, stepString, hquote, if_true, List.reverse_reverse, decodeLossy_octets,
      String.ofList_toList]
  have htext : octets (writeString s) =
      [34] ++ (octets (s.toList.flatMap writeChar) ++ [34]) := by
    rw [writeString, octets, octets, List.cons_append, List.flatMap_cons, List.flatMap_append]
    rfl
  rw [htext]
  exact (Reads.token hopen).append (hchars.append (Reads.octet (fun _ => rfl) hclose))

end Strings

/-! Whole numbers. -/

section Numbers

variable {place : Place}

/-- Digits whose value fits into a machine word are gathered to the last. -/
theorem gather_fold
    {text : List Char} {held : Nat}
    (h : text.foldl (fun sum c => sum * 10 + (digitValue? 10 c).getD 0) held ≤ mostWord) :
    gather held text =
      (text.foldl (fun sum c => sum * 10 + (digitValue? 10 c).getD 0) held, []) := by
  have hgrows : ∀ (text : List Char) (held : Nat),
      held ≤ text.foldl (fun sum c => sum * 10 + (digitValue? 10 c).getD 0) held := by
    intro text
    induction text with
    | nil =>
        exact fun held => Nat.le_refl held
    | cons c text ih =>
        intro held
        have hmore := ih (held * 10 + (digitValue? 10 c).getD 0)
        rw [List.foldl_cons]
        omega
  induction text generalizing held with
  | nil =>
      rfl
  | cons c text ih =>
      rw [List.foldl_cons] at h ⊢
      have hfits := Nat.le_trans (hgrows text _) h
      simp only [gather, if_pos hfits]
      exact ih h

/-- The digits of a number that fits into a machine word are read as a whole number. -/
theorem unsignedOf_digits
    {n : Nat}
    (h : n ≤ mostWord)
    (negative : Bool) :
    unsignedOf negative (digits 10 n) = some (wholeOf negative n) := by
  have hwhole : (digits 10 n).takeWhile (isDigit 10) = digits 10 n := by
    have hall := takeWhile_digits (show 2 ≤ 10 by decide) (by decide) (ends_nil 10) n
    rwa [List.append_nil] at hall
  have hrest : (digits 10 n).dropWhile (isDigit 10) = [] := by
    have hall := dropWhile_digits (show 2 ≤ 10 by decide) (by decide) (ends_nil 10) n
    rwa [List.append_nil] at hall
  have hplain : ¬ (digits 10 n = [] ∨ ((digits 10 n).head? = some '0' ∧ digits 10 n ≠ ['0'])) := by
    rintro (hnone | ⟨hzero, hmore⟩)
    · exact digits_ne_nil 10 n hnone
    · have hn : n = 0 := head?_digits (show 2 ≤ 10 by decide) (by decide) hzero
      rw [hn] at hmore
      exact hmore (digits_of_lt (by decide))
  have hvalue := value_digits (show 2 ≤ 10 by decide) (by decide) n
  have hgather : gather 0 (digits 10 n) = (n, []) := by
    rw [value] at hvalue
    rw [gather_fold (by rwa [hvalue]), hvalue]
  unfold unsignedOf
  simp only [hwhole, hrest, if_neg hplain, hgather, if_true]

/-- Whole numbers of a machine word, with or without a sign, are read from their text. -/
theorem numberOf_signed
    {n : Int}
    (hlow : -9223372036854775808 ≤ n) (hhigh : n ≤ mostWord) :
    numberOf (signed n).toList = some (.whole n) := by
  cases n with
  | ofNat n =>
      have hn : n ≤ mostWord := Int.ofNat_le.1 hhigh
      have hsign : ∀ rest, digits 10 n ≠ '-' :: rest := by
        intro rest hrest
        have hdigit := isDigit_of_mem_digits (show 2 ≤ 10 by decide) (by decide) n '-'
          (by simp [hrest])
        exact absurd hdigit (by decide)
      have hread := unsignedOf_digits hn false
      simp only [signed, decimal, String.toList_ofList]
      unfold numberOf
      split
      · rename_i rest hrest
        exact absurd hrest (hsign rest)
      · rw [hread]
        rfl
  | negSucc n =>
      have hn : n + 1 ≤ 9223372036854775808 := by omega
      have hfits : n + 1 ≤ mostWord := Nat.le_trans hn (by decide)
      have hsplit : (signed (.negSucc n)).toList = '-' :: digits 10 (n + 1) := by
        simp [signed, decimal]
      have hrange : ¬ (n + 1 = 0 ∨ 9223372036854775808 < n + 1) := by omega
      rw [hsplit, numberOf, unsignedOf_digits hfits, wholeOf, if_pos rfl, if_neg hrange]
      rfl

theorem exists_digit
    {c : Char}
    (h : isDigit 10 c = true) :
    ∃ d < 10, digit d = c := by
  have hrange := range_of_isDigit h
  refine ⟨c.toNat - 48, by omega, ?_⟩
  rw [digit, if_pos (by omega), show 48 + (c.toNat - 48) = c.toNat by omega, Char.ofNat_toNat]

def code (d : Nat) : UInt8 :=
  UInt8.ofNat (digit d).toNat

/-- What the reader takes the octet of a digit for. -/
theorem code_spec :
    ∀ d < 10, Utf8.encodeChar (digit d) = [code d] ∧ Char.ofNat (code d).toNat = digit d ∧
      digit? 10 (code d) = some d ∧ isOneOf [' ', '\n', '\t', '\r'] (code d) = false ∧
      isOneOf [']'] (code d) = false := by
  decide

theorem beginValue_code
    {d : Nat}
    (hd : d < 10)
    (outer : List Frame) :
    beginValue outer place (code d) =
      .ok (.number [code d] (if d = 0 then .zero else .whole), place) := by
  interval_cases d <;> rfl

theorem octets_digits
    {ds : List Nat}
    (hds : ∀ d ∈ ds, d < 10) :
    octets (ds.map digit) = ds.map code := by
  induction ds with
  | nil =>
      rfl
  | cons d ds ih =>
      have hrest := ih fun e he => hds e (List.mem_cons_of_mem d he)
      rw [octets] at hrest ⊢
      rw [List.map_cons, List.flatMap_cons, (code_spec d (hds d List.mem_cons_self)).1, hrest]
      rfl

theorem charsOf_codes
    {ds : List Nat}
    (hds : ∀ d ∈ ds, d < 10)
    (front : Octets) :
    charsOf ((ds.map code).reverse ++ front) = charsOf front ++ ds.map digit := by
  rw [charsOf, charsOf, List.reverse_append, List.reverse_reverse, List.map_append, List.map_map]
  congr 1
  exact List.map_congr_left fun d hd => (code_spec d (hds d hd)).2.1

/-- Behind a digit that is no leading zero, all digits belong to the number. -/
theorem reads_codes
    {ds : List Nat}
    (hds : ∀ d ∈ ds, d < 10)
    (gathered : Octets) :
    Reads (.number gathered .whole) place (ds.map code)
      (.number ((ds.map code).reverse ++ gathered) .whole) place := by
  induction ds generalizing gathered with
  | nil =>
      exact Reads.nil _ _
  | cons d ds ih =>
      have hdigit := (code_spec d (hds d List.mem_cons_self)).2.2.1
      have hnext : NumberPart.next .whole (code d) = some .whole := by
        rw [NumberPart.next.eq_def, hdigit]
      have hsettled : ∀ spot, Reader.settled ⟨.number gathered .whole, place, spot⟩ (code d) =
          .ok ⟨.number gathered .whole, place, spot⟩ := by
        intro spot
        simp [Reader.settled, hnext]
      have hstep : step (.number gathered .whole) place (code d) =
          .ok (.number (code d :: gathered) .whole, place) := by
        simp only [step, hnext, extend]
        rfl
      have hrest := ih (fun e he => hds e (List.mem_cons_of_mem d he)) (code d :: gathered)
      rw [List.map_cons, List.reverse_cons, List.append_assoc, List.singleton_append]
      exact (Reads.octet hsettled hstep).append hrest

/-- The values of the digits of a number, of which the first is zero only for zero. -/
theorem exists_digits
    (n : Nat) :
    ∃ d ds, digits 10 n = (d :: ds).map digit ∧ (∀ e ∈ d :: ds, e < 10) ∧
      (d = 0 → n = 0 ∧ ds = []) := by
  have hall : ∀ text : List Char, (∀ c ∈ text, isDigit 10 c = true) →
      ∃ ds : List Nat, text = ds.map digit ∧ ∀ e ∈ ds, e < 10 := by
    intro text htext
    induction text with
    | nil =>
        exact ⟨[], rfl, by simp⟩
    | cons c text ih =>
        obtain ⟨d, hd, rfl⟩ := exists_digit (htext c List.mem_cons_self)
        obtain ⟨ds, rfl, hds⟩ := ih fun e he => htext e (List.mem_cons_of_mem _ he)
        exact ⟨d :: ds, rfl, List.forall_mem_cons.2 ⟨hd, hds⟩⟩
  obtain ⟨ds, hdigits, hds⟩ :=
    hall _ (isDigit_of_mem_digits (show 2 ≤ 10 by decide) (by decide) n)
  cases ds with
  | nil =>
      exact absurd hdigits (digits_ne_nil 10 n)
  | cons d ds =>
      refine ⟨d, ds, hdigits, hds, ?_⟩
      rintro rfl
      have hn : n = 0 :=
        head?_digits (show 2 ≤ 10 by decide) (by decide) (by rw [hdigits]; rfl)
      rw [hn, digits_of_lt (by decide)] at hdigits
      exact ⟨hn, by simpa using hdigits⟩

theorem reads_natural
    {outer : List Frame} {n : Nat} {v : Json}
    (houter : place.outer? = some outer)
    (hvalue : numberOf (signed n).toList = some v) :
    ∃ mode, Reads .between place (octets (signed n).toList) mode place ∧
      Pending mode place (place.afterValue v) := by
  obtain ⟨d, ds, hdigits, hds, hzero⟩ := exists_digits n
  obtain ⟨hd, hrest⟩ := List.forall_mem_cons.1 hds
  have htext : (signed n).toList = (d :: ds).map digit := by
    simp [signed, decimal, hdigits]
  have hchars := charsOf_codes hds []
  obtain ⟨-, -, -, hblank, hclose⟩ := code_spec d hd
  have hfirst := Reads.token
    ((beginToken_value houter hblank hclose).trans (beginValue_code hd outer))
  rw [htext] at hvalue ⊢
  rw [octets_digits hds]
  by_cases hd0 : d = 0
  · obtain ⟨-, rfl⟩ := hzero hd0
    rw [if_pos hd0] at hfirst
    refine ⟨_, hfirst, .number (Or.inl rfl) ?_ place⟩
    exact (congrArg numberOf hchars).trans hvalue
  · rw [if_neg hd0] at hfirst
    refine ⟨_, hfirst.append (reads_codes hrest [code d]), .number (Or.inr rfl) ?_ place⟩
    rw [List.map_cons, List.reverse_cons, List.append_nil] at hchars
    exact (congrArg numberOf hchars).trans hvalue

/-- Behind a minus a digit that is not zero begins the number. -/
theorem step_sign
    {d : Nat}
    (hd : d < 10) (hd0 : d ≠ 0) :
    step (.number [45] .sign) place (code d) = .ok (.number [code d, 45] .whole, place) := by
  have hnext : NumberPart.next .sign (code d) = some .whole := by
    rw [NumberPart.next.eq_def, (code_spec d hd).2.2.1]
    cases d with
    | zero =>
        exact absurd rfl hd0
    | succ d =>
        rfl
  simp only [step, hnext, extend]
  rfl

theorem reads_negative
    {outer : List Frame} {n : Nat} {v : Json}
    (houter : place.outer? = some outer)
    (hvalue : numberOf (signed (.negSucc n)).toList = some v) :
    ∃ mode, Reads .between place (octets (signed (.negSucc n)).toList) mode place ∧
      Pending mode place (place.afterValue v) := by
  obtain ⟨d, ds, hdigits, hds, hzero⟩ := exists_digits (n + 1)
  obtain ⟨hd, hrest⟩ := List.forall_mem_cons.1 hds
  have hd0 : d ≠ 0 := by
    intro hd0
    have hn := (hzero hd0).1
    omega
  have htext : (signed (.negSucc n)).toList = '-' :: (d :: ds).map digit := by
    simp [signed, decimal, hdigits]
  have hchars := charsOf_codes hds [45]
  have hminus : beginToken place 45 = .ok (.number [45] .sign, place) :=
    (beginToken_value houter (by decide) (by decide)).trans rfl
  have hoctets : octets ('-' :: (d :: ds).map digit) = [45] ++ ([code d] ++ ds.map code) := by
    have hback := octets_digits hds
    rw [octets] at hback ⊢
    rw [List.flatMap_cons, hback]
    rfl
  rw [htext] at hvalue ⊢
  rw [hoctets]
  refine ⟨_, (Reads.token hminus).append ((Reads.octet (fun _ => rfl) (step_sign hd hd0)).append
    (reads_codes hrest [code d, 45])), .number (Or.inr rfl) ?_ place⟩
  rw [List.map_cons, List.reverse_cons, List.append_assoc] at hchars
  exact (congrArg numberOf hchars).trans hvalue

/-- A whole number is read as it is written, and done when the text goes on with no digit. -/
theorem reads_number
    {outer : List Frame} {n : Int}
    (houter : place.outer? = some outer)
    (hlow : -9223372036854775808 ≤ n) (hhigh : n ≤ mostWord) :
    ∃ mode, Reads .between place (octets (signed n).toList) mode place ∧
      Pending mode place (place.afterValue (.whole n)) := by
  have hvalue := numberOf_signed hlow hhigh
  cases n with
  | ofNat n =>
      exact reads_natural houter hvalue
  | negSucc n =>
      exact reads_negative houter hvalue

end Numbers

/-! Arrays and objects. -/

mutual

/-- A value that is read back: without fractions, with numbers of a machine word, and with room
for its arrays and objects to be open at once. -/
def Plain (room : Nat) : Json → Prop
  | .null | .bool _ | .string _ => True
  | .whole n => -9223372036854775808 ≤ n ∧ n ≤ mostWord
  | .real _ => False
  | .array items => 0 < room ∧ PlainItems (room - 1) items
  | .object members => 0 < room ∧ PlainMembers (room - 1) members

def PlainItems (room : Nat) : List Json → Prop
  | [] => True
  | item :: rest => Plain room item ∧ PlainItems room rest

/-- Members whose values are read back. -/
def PlainMembers (room : Nat) : List (String × Json) → Prop
  | [] => True
  | (_, value) :: rest => Plain room value ∧ PlainMembers room rest

end

theorem plainMembers_iff
    {room : Nat} {members : List (String × Json)} :
    PlainMembers room members ↔ ∀ m ∈ members, Plain room m.2 := by
  induction members with
  | nil =>
      simp [PlainMembers]
  | cons head rest ih =>
      simp [PlainMembers, ih]

/-- The text of a value is read as it, in any place where a value is due. -/
def IsRead (room : Nat) (v : Json) : Prop :=
  ∀ (place : Place) (outer : List Frame), place.outer? = some outer →
    outer.length + room ≤ mostOpen →
    ∃ mode there, Reads .between place (octets v.write) mode there ∧
      Pending mode there (place.afterValue v.tidied)

theorem octets_append
    (front back : List Char) :
    octets (front ++ back) = octets front ++ octets back :=
  List.flatMap_append

theorem octets_cons
    (c : Char) (text : List Char) :
    octets (c :: text) = octets [c] ++ octets text :=
  octets_append [c] text

theorem isRead_name
    (room : Nat) :
    IsRead room .null ∧ ∀ b, IsRead room (.bool b) := by
  refine ⟨?_, ?_⟩
  · intro place outer houter _
    exact ⟨_, _, (reads_name houter).1, .between _⟩
  · intro b place outer houter _
    cases b with
    | true =>
        exact ⟨_, _, (reads_name houter).2.1, .between _⟩
    | false =>
        exact ⟨_, _, (reads_name houter).2.2, .between _⟩

theorem isRead_string
    (room : Nat) (s : String) :
    IsRead room (.string s) := by
  intro place outer houter _
  have hopen : beginToken place 34 = .ok (.quoted [], place) :=
    (beginToken_value houter (by decide) (by decide)).trans rfl
  have hvalue : place.afterString s = place.afterValue (.string s) := by
    cases place <;> first | rfl | cases houter
  refine ⟨_, _, reads_string hopen s, ?_⟩
  rw [hvalue, tidied]
  exact .between _

theorem isRead_whole
    {room : Nat} {n : Int}
    (hlow : -9223372036854775808 ≤ n) (hhigh : n ≤ mostWord) :
    IsRead room (.whole n) := by
  intro place outer houter _
  obtain ⟨mode, hreads, hpending⟩ := reads_number houter hlow hhigh
  rw [tidied]
  exact ⟨mode, place, hreads, hpending⟩

/-- The comma and the closing brackets do not go on with a number. -/
theorem endsNumber_marks :
    EndsNumber 44 ∧ EndsNumber 93 ∧ EndsNumber 125 := by
  refine ⟨⟨by decide, by decide⟩, ⟨by decide, by decide⟩, ⟨by decide, by decide⟩⟩

section Nested

variable {room : Nat} {outer : List Frame}

/-- An opening bracket where a value is due and another array or object may be open. -/
theorem reads_open
    {place : Place}
    (houter : place.outer? = some outer)
    (hroom : outer.length < mostOpen) :
    Reads .between place [91] .between (.firstItem outer) ∧
      Reads .between place [123] .between (.firstName outer) := by
  have hlist : beginValue outer place 91 = .ok (.between, .firstItem outer) :=
    (if_pos hroom).trans rfl
  have hobject : beginValue outer place 123 = .ok (.between, .firstName outer) :=
    (if_pos hroom).trans rfl
  exact ⟨Reads.token ((beginToken_value houter (by decide) (by decide)).trans hlist),
    Reads.token ((beginToken_value houter (by decide) (by decide)).trans hobject)⟩

/-- Items that are there are read up to the closing bracket, behind others that were held. -/
def AreReadItems (room : Nat) (items : List Json) : Prop :=
  ∀ (place : Place) (held : List Json) (outer : List Frame),
    place.outer? = some (.items held :: outer) → outer.length + 1 + room ≤ mostOpen →
    items ≠ [] →
    Reads .between place (octets (writeItems items)) .between
      (.settle (.array (held.reverse ++ tidiedItems items)) outer)

/-- Members that are there are read up to the closing brace, in addition to others that were
held. -/
def AreReadMembers (room : Nat) (members : List (String × Json)) : Prop :=
  ∀ (place : Place) (held : List (String × Json)) (outer : List Frame),
    beginToken place 34 = .ok (.quoted [], place) →
    (∀ s, place.afterString s = .colon held s outer) → outer.length + 1 + room ≤ mostOpen →
    members ≠ [] →
    Reads .between place (octets (writeMembers members)) .between
      (.settle (.object (tidiedMembers held members)) outer)

theorem areReadItems_cons
    {item : Json} {rest : List Json}
    (hitem : IsRead room item) (hrest : AreReadItems room rest) :
    AreReadItems room (item :: rest) := by
  intro place held outer houter hroom _
  obtain ⟨mode, there, hreads, hpending⟩ := hitem place _ houter hroom
  rw [afterValue_of_outer houter] at hpending
  cases rest with
  | nil =>
      have hclose := hpending.reads endsNumber_marks.2.1
        (show beginToken (.afterItem (item.tidied :: held) outer) 93 =
          .ok (.between, .settle (.array (item.tidied :: held).reverse) outer) from rfl)
      rw [writeItems, octets_append, tidiedItems, tidiedItems, ← List.reverse_cons]
      exact hreads.append hclose
  | cons next rest =>
      have hcomma := hpending.reads endsNumber_marks.1
        (show beginToken (.afterItem (item.tidied :: held) outer) 44 =
          .ok (.between, .nextItem (item.tidied :: held) outer) from rfl)
      have hmore := hrest (.nextItem (item.tidied :: held) outer) (item.tidied :: held) outer rfl
        hroom (by simp)
      rw [List.reverse_cons, List.append_assoc, List.singleton_append] at hmore
      rw [writeItems, octets_append, octets_cons, tidiedItems]
      exact hreads.append (hcomma.append hmore)

theorem areReadMembers_cons
    {name : String} {value : Json} {rest : List (String × Json)}
    (hvalue : IsRead room value) (hrest : AreReadMembers room rest) :
    AreReadMembers room ((name, value) :: rest) := by
  intro place held outer hopen hname hroom _
  have hstring := reads_string hopen name
  rw [hname name] at hstring
  have hcolon := Reads.token
    (show beginToken (.colon held name outer) 58 =
      .ok (.between, .value (.members held name :: outer)) from rfl)
  obtain ⟨mode, there, hreads, hpending⟩ :=
    hvalue (.value (.members held name :: outer)) _ rfl hroom
  have hmember : Place.afterValue value.tidied (.value (.members held name :: outer)) =
      .afterMember (insert name value.tidied held) outer := rfl
  rw [hmember] at hpending
  cases rest with
  | nil =>
      have hclose := hpending.reads endsNumber_marks.2.2
        (show beginToken (.afterMember (insert name value.tidied held) outer) 125 =
          .ok (.between, .settle (.object (insert name value.tidied held)) outer) from rfl)
      rw [writeMembers, List.append_assoc, octets_append, List.cons_append, octets_cons,
        octets_append, tidiedMembers, tidiedMembers]
      exact hstring.append (hcolon.append (hreads.append hclose))
  | cons next rest =>
      have hcomma := hpending.reads endsNumber_marks.1
        (show beginToken (.afterMember (insert name value.tidied held) outer) 44 =
          .ok (.between, .nextName (insert name value.tidied held) outer) from rfl)
      have hmore := hrest (.nextName (insert name value.tidied held) outer)
        (insert name value.tidied held) outer rfl (fun _ => rfl) hroom (by simp)
      rw [writeMembers, List.append_assoc, octets_append, List.cons_append, octets_cons,
        octets_append, octets_cons _ (writeMembers _), tidiedMembers]
      exact hstring.append (hcolon.append (hreads.append (hcomma.append hmore)))

theorem isRead_array
    {items : List Json}
    (hroom : 0 < room)
    (hitems : AreReadItems (room - 1) items) :
    IsRead room (.array items) := by
  intro place outer houter hfits
  have hopen := (reads_open houter (by omega)).1
  refine ⟨_, _, ?_, .between _⟩
  rw [afterValue_of_outer houter, write, octets_cons, tidied]
  cases items with
  | nil =>
      exact hopen.append (Reads.token rfl)
  | cons item rest =>
      exact hopen.append (hitems (.firstItem outer) [] outer rfl (by omega) (by simp))

theorem isRead_object
    {members : List (String × Json)}
    (hroom : 0 < room)
    (hmembers : AreReadMembers (room - 1) members) :
    IsRead room (.object members) := by
  intro place outer houter hfits
  have hopen := (reads_open houter (by omega)).2
  refine ⟨_, _, ?_, .between _⟩
  rw [afterValue_of_outer houter, write, octets_cons, tidied]
  cases members with
  | nil =>
      exact hopen.append (Reads.token rfl)
  | cons member rest =>
      exact hopen.append
        (hmembers (.firstName outer) [] outer rfl (fun _ => rfl) (by omega) (by simp))

end Nested

mutual

/-- The text of a plain value is read as it, in any place where a value is due. -/
theorem isRead_of_plain :
    ∀ (v : Json) {room : Nat}, Plain room v → IsRead room v
  | .null, room, _ => (isRead_name room).1
  | .bool b, room, _ => (isRead_name room).2 b
  | .whole _, _, h => isRead_whole h.1 h.2
  | .real _, _, h => h.elim
  | .string s, room, _ => isRead_string room s
  | .array items, _, h => isRead_array h.1 (areReadItems_of_plain items h.2)
  | .object members, _, h => isRead_object h.1 (areReadMembers_of_plain members h.2)

theorem areReadItems_of_plain :
    ∀ (items : List Json) {room : Nat}, PlainItems room items → AreReadItems room items
  | [], _, _ => fun _ _ _ _ _ hnone => absurd rfl hnone
  | item :: rest, _, h =>
      areReadItems_cons (isRead_of_plain item h.1) (areReadItems_of_plain rest h.2)

theorem areReadMembers_of_plain :
    ∀ (members : List (String × Json)) {room : Nat}, PlainMembers room members →
      AreReadMembers room members
  | [], _, _ => fun _ _ _ _ _ _ hnone => absurd rfl hnone
  | (_, value) :: rest, _, h =>
      areReadMembers_cons (isRead_of_plain value h.1) (areReadMembers_of_plain rest h.2)

end

/-- The text of a value is read as the value with its members in order. -/
theorem read_write
    {v : Json}
    (h : Plain mostOpen v) :
    read (Utf8.encode v.text) = .ok v.tidied := by
  obtain ⟨mode, there, hreads, hpending⟩ :=
    isRead_of_plain v h (.value []) [] rfl (by simp)
  obtain ⟨spot, hall⟩ := hreads .start
  have htext : Utf8.encode v.text = octets v.write := by
    simp [Utf8.encode, text]
  rw [read, htext, Reader.start, hall, Except.bind, hpending.finish spot]
  rfl

theorem read_write_of_tidy
    {v : Json}
    (hplain : Plain mostOpen v) (htidy : v.Tidy) :
    read (Utf8.encode v.text) = .ok v := by
  rw [read_write hplain, tidied_of_tidy htidy]

end Json
end SyslogIntake
