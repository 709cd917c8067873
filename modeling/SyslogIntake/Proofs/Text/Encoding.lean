import Mathlib.Algebra.Group.Nat.Defs
import Mathlib.Tactic.SplitIfs
import SyslogIntake.Text.Utf8

/-!
# Texts and their octets

Reading octets as a text undoes writing a text as octets, and it reads nothing else.  An
octet that is not the last one of its character leaves the scan within the character; what
it owes then are the octets for the rest of the digits of the character in base sixty-four.

**Results.**

* `encode_eq` : a text is written as its own UTF-8;
* `decode_eq_some_iff` : octets are read as a text exactly if the text is written so;
* `decode_encode_append` : a text in front of other octets is read first.
-/

namespace SyslogIntake
namespace Utf8

/-- The octets that write the lowest digits of a number in base sixty-four. -/
def tails : Nat → Nat → Octets
  | 0, _ => []
  | left + 1, n => UInt8.ofNat (0x80 + n / 64 ^ left % 64) :: tails left n

/-- A number goes on from a mode: its front is there, and its next octet is one that may come. -/
structure Leads (left low high value n : Nat) : Prop where
  hvalue : n / 64 ^ left = value
  hlow : low ≤ 0x80 + n / 64 ^ (left - 1) % 64
  hhigh : 0x80 + n / 64 ^ (left - 1) % 64 ≤ high

/-- Some octets have led to a mode: those of every character that goes on from it. -/
def Begun (front : Octets) : Mode → Prop
  | .start => front = []
  | .within left low high value =>
      0 < left ∧ 0x80 ≤ low ∧ high ≤ 0xBF ∧
        ∀ n, Leads left low high value n → encodeChar (Char.ofNat n) = front ++ tails left n

theorem toNat_ofNat
    {n : Nat}
    (h : n.isValidChar) :
    (Char.ofNat n).toNat = n := by
  rw [Char.ofNat, dif_pos h]
  rfl

theorem encodeChar_one
    {n : Nat}
    (h : n < 0x80) :
    encodeChar (Char.ofNat n) = [UInt8.ofNat n] := by
  have hn : (Char.ofNat n).toNat = n := toNat_ofNat (Or.inl (by omega))
  simp [encodeChar, hn, h]

theorem encodeChar_two
    {n : Nat}
    (h : 0x80 ≤ n)
    (hlt : n < 0x800) :
    encodeChar (Char.ofNat n) = UInt8.ofNat (0xC0 + n / 64) :: tails 1 n := by
  have hn : (Char.ofNat n).toNat = n := toNat_ofNat (Or.inl (by omega))
  have hone : ¬ n < 0x80 := by omega
  simp [encodeChar, hn, hone, hlt, tails]

theorem encodeChar_three
    {n : Nat}
    (h : 0x800 ≤ n)
    (hlt : n < 0x10000)
    (hvalid : n < 0xD800 ∨ 0xDFFF < n) :
    encodeChar (Char.ofNat n) = UInt8.ofNat (0xE0 + n / 4096) :: tails 2 n := by
  have hn : (Char.ofNat n).toNat = n := by
    refine toNat_ofNat ?_
    rcases hvalid with h | h
    · exact Or.inl h
    · exact Or.inr ⟨h, by omega⟩
  have hone : ¬ n < 0x80 := by omega
  have htwo : ¬ n < 0x800 := by omega
  simp [encodeChar, hn, hone, htwo, hlt, tails]

theorem encodeChar_four
    {n : Nat}
    (h : 0x10000 ≤ n)
    (hlt : n < 0x110000) :
    encodeChar (Char.ofNat n) = UInt8.ofNat (0xF0 + n / 262144) :: tails 3 n := by
  have hn : (Char.ofNat n).toNat = n := toNat_ofNat (Or.inr ⟨by omega, hlt⟩)
  have hone : ¬ n < 0x80 := by omega
  have htwo : ¬ n < 0x800 := by omega
  have hthree : ¬ n < 0x10000 := by omega
  simp [encodeChar, hn, hone, htwo, hthree, tails]

theorem begun_two
    {b : UInt8}
    (h : 0xC2 ≤ b.toNat)
    (hlt : b.toNat < 0xE0) :
    Begun [b] (.within 1 0x80 0xBF (b.toNat - 0xC0)) := by
  refine ⟨by omega, by omega, by omega, ?_⟩
  rintro n ⟨hvalue, -, -⟩
  have hb : 0xC0 + n / 64 = b.toNat := by omega
  rw [encodeChar_two (by omega) (by omega), hb, UInt8.ofNat_toNat]
  rfl

theorem begun_three
    {b : UInt8} {low high : Nat}
    (h : 0xE0 ≤ b.toNat)
    (hlt : b.toNat < 0xF0)
    (hlow : 0x80 ≤ low)
    (hhigh : high ≤ 0xBF)
    (hfirst : b.toNat = 0xE0 → 0xA0 ≤ low)
    (hsurrogate : b.toNat = 0xED → high ≤ 0x9F) :
    Begun [b] (.within 2 low high (b.toNat - 0xE0)) := by
  refine ⟨by omega, hlow, hhigh, ?_⟩
  rintro n ⟨hvalue, hfrom, hto⟩
  have hb : 0xE0 + n / 4096 = b.toNat := by omega
  have hrange : 0x800 ≤ n := by omega
  have hvalid : n < 0xD800 ∨ 0xDFFF < n := by omega
  rw [encodeChar_three hrange (by omega) hvalid, hb, UInt8.ofNat_toNat]
  rfl

theorem begun_four
    {b : UInt8} {low high : Nat}
    (h : 0xF0 ≤ b.toNat)
    (hlt : b.toNat < 0xF5)
    (hlow : 0x80 ≤ low)
    (hhigh : high ≤ 0xBF)
    (hfirst : b.toNat = 0xF0 → 0x90 ≤ low)
    (hlast : b.toNat = 0xF4 → high ≤ 0x8F) :
    Begun [b] (.within 3 low high (b.toNat - 0xF0)) := by
  refine ⟨by omega, hlow, hhigh, ?_⟩
  rintro n ⟨hvalue, hfrom, hto⟩
  have hb : 0xF0 + n / 262144 = b.toNat := by omega
  have hrange : 0x10000 ≤ n := by omega
  have hvalid : n < 0x110000 := by omega
  rw [encodeChar_four hrange hvalid, hb, UInt8.ofNat_toNat]
  rfl

/-- An octet is a character, it is no beginning of one, or it has led to a mode. -/
theorem first_cases
    (b : UInt8) :
    (∃ c, first b = ([.char c], .start) ∧ encodeChar c = [b]) ∨
      first b = ([.broken], .start) ∨
      ∃ mode, first b = ([], mode) ∧ Begun [b] mode := by
  have hfirst := first.eq_def b
  dsimp only at hfirst
  split at hfirst
  · rename_i hone
    refine Or.inl ⟨_, hfirst, ?_⟩
    rw [encodeChar_one hone, UInt8.ofNat_toNat]
  refine Or.inr ?_
  split at hfirst
  · exact Or.inl hfirst
  split at hfirst
  · exact Or.inr ⟨_, hfirst, begun_two (by omega) ‹_›⟩
  split at hfirst
  · rename_i hleast
    have hbegun : Begun [b] (.within 2 0xA0 0xBF (b.toNat - 0xE0)) := by
      apply begun_three <;> omega
    rw [hleast] at hbegun
    exact Or.inr ⟨_, hfirst, hbegun⟩
  split at hfirst
  · refine Or.inr ⟨_, hfirst, ?_⟩
    apply begun_three <;> omega
  split at hfirst
  · refine Or.inr ⟨_, hfirst, ?_⟩
    apply begun_three <;> omega
  split at hfirst
  · rename_i hleast
    have hbegun : Begun [b] (.within 3 0x90 0xBF (b.toNat - 0xF0)) := by
      apply begun_four <;> omega
    rw [hleast] at hbegun
    exact Or.inr ⟨_, hfirst, hbegun⟩
  split at hfirst
  · refine Or.inr ⟨_, hfirst, ?_⟩
    apply begun_four <;> omega
  split at hfirst
  · rename_i hmost
    have hbegun : Begun [b] (.within 3 0x80 0x8F (b.toNat - 0xF0)) := by
      apply begun_four <;> omega
    rw [hmost] at hbegun
    exact Or.inr ⟨_, hfirst, hbegun⟩
  · exact Or.inl hfirst

/-- A number that goes on behind its next digit goes on from the mode in front of it. -/
theorem leads_digit
    {left low high value digit n : Nat}
    (hdigit : digit < 64)
    (hlow : low ≤ 0x80 + digit)
    (hhigh : 0x80 + digit ≤ high)
    (h : n / 64 ^ left = value * 64 + digit) :
    Leads (left + 1) low high value n ∧
      tails (left + 1) n = UInt8.ofNat (0x80 + digit) :: tails left n := by
  have hmod : n / 64 ^ left % 64 = digit := by omega
  have hvalue : n / 64 ^ (left + 1) = value := by
    rw [Nat.pow_succ, ← Nat.div_div_eq_div_mul]
    omega
  refine ⟨⟨hvalue, ?_, ?_⟩, ?_⟩
  · rwa [Nat.add_sub_cancel, hmod]
  · rwa [Nat.add_sub_cancel, hmod]
  · rw [tails, hmod]

/-- An octet completes the character that was begun, it breaks it off, or it goes on with it. -/
theorem step_cases
    {front : Octets} {mode : Mode}
    (hbegun : Begun front mode)
    (b : UInt8) :
    (∃ c, step mode b = ([.char c], .start) ∧ encodeChar c = front ++ [b]) ∨
      .broken ∈ (step mode b).1 ∨
      ∃ next, step mode b = ([], next) ∧ Begun (front ++ [b]) next := by
  cases mode with
  | start =>
      obtain rfl : front = [] := hbegun
      rcases first_cases b with hchar | hbroken | hnext
      · exact Or.inl hchar
      · refine Or.inr (Or.inl ?_)
        simp [step, hbroken]
      · exact Or.inr (Or.inr hnext)
  | within left low high value =>
      obtain ⟨hpos, hleast, hmost, hwrites⟩ := hbegun
      by_cases hfits : low ≤ b.toNat ∧ b.toNat ≤ high
      · obtain ⟨left, rfl⟩ : ∃ less, left = less + 1 := ⟨left - 1, by omega⟩
        have hoctet : 0x80 + (b.toNat - 0x80) = b.toNat := by omega
        have hgoes : ∀ n, n / 64 ^ left = value * 64 + (b.toNat - 0x80) →
            encodeChar (Char.ofNat n) = front ++ [b] ++ tails left n := by
          intro n hn
          obtain ⟨hleads, htails⟩ :=
            @leads_digit left low high value _ n (by omega) (by omega) (by omega) hn
          rw [hwrites n hleads, htails, hoctet, UInt8.ofNat_toNat, List.append_assoc]
          rfl
        simp only [step, if_pos hfits]
        by_cases hlast : left + 1 ≤ 1
        · obtain rfl : left = 0 := by omega
          refine Or.inl ⟨_, if_pos hlast, ?_⟩
          rw [hgoes _ (by simp), tails, List.append_nil]
        · refine Or.inr (Or.inr ⟨_, if_neg hlast, by omega, by omega, by omega, ?_⟩)
          rintro n ⟨hn, -, -⟩
          exact hgoes n hn
      · refine Or.inr (Or.inl ?_)
        simp [step, hfits]

/-- The pieces of a text behind a mode of the scan. -/
def piecesFrom : Mode → Octets → List Piece
  | mode, [] => finish mode
  | mode, b :: text => (step mode b).1 ++ piecesFrom (step mode b).2 text

theorem pieces_eq
    (text : Octets) :
    pieces text = piecesFrom .start text := by
  have hall : ∀ found mode,
      (finish (Scan.feedAll ⟨found, mode⟩ text).mode ++
        (Scan.feedAll ⟨found, mode⟩ text).found).reverse =
        found.reverse ++ piecesFrom mode text := by
    induction text with
    | nil =>
        intro found mode
        cases mode <;> simp [Scan.feedAll, finish, piecesFrom]
    | cons b text ih =>
        intro found mode
        have hrest := ih ((step mode b).1.reverse ++ found) (step mode b).2
        simpa [Scan.feedAll, Scan.feed, piecesFrom] using hrest
  simpa [pieces] using hall [] .start

theorem mapM_char?
    {found : List Piece} {chars : List Char} :
    found.mapM Piece.char? = some chars ↔ found = chars.map Piece.char := by
  induction found generalizing chars with
  | nil =>
      cases chars <;> simp
  | cons piece found ih =>
      cases piece with
      | broken =>
          cases chars <;> simp [Piece.char?]
      | char c =>
          simp only [List.mapM_cons, Piece.char?, Option.bind_eq_bind, Option.bind_some,
            Option.bind_eq_some_iff, Option.pure_def, Option.some.injEq, ih]
          constructor
          · rintro ⟨rest, rfl, rfl⟩
            rfl
          · intro h
            cases chars with
            | nil =>
                simp at h
            | cons d chars =>
                simp only [List.map_cons, List.cons.injEq, Piece.char.injEq] at h
                exact ⟨chars, h.2, by rw [h.1]⟩

/-- Octets of characters only write these characters, behind a character that was begun. -/
theorem append_eq_of_pieces
    {front text : Octets} {mode : Mode} {chars : List Char}
    (hbegun : Begun front mode)
    (h : piecesFrom mode text = chars.map Piece.char) :
    front ++ text = chars.flatMap encodeChar := by
  induction text generalizing front mode chars with
  | nil =>
      cases mode with
      | start =>
          obtain rfl : front = [] := hbegun
          obtain rfl : chars = [] := by simpa [piecesFrom, finish] using h.symm
          rfl
      | within left low high value =>
          rcases chars with _ | ⟨c, chars⟩ <;> simp [piecesFrom, finish] at h
  | cons b text ih =>
      have hassoc : front ++ b :: text = front ++ [b] ++ text := by simp
      rcases step_cases hbegun b with ⟨c, hstep, hc⟩ | hbroken | ⟨next, hstep, hnext⟩
      · rw [piecesFrom, hstep] at h
        rcases chars with _ | ⟨d, chars⟩
        · simp at h
        · simp only [List.singleton_append, List.map_cons, List.cons.injEq,
            Piece.char.injEq] at h
          obtain ⟨rfl, h⟩ := h
          rw [hassoc, ← hc, List.flatMap_cons, ← @ih [] .start chars rfl h, List.nil_append]
      · have hmem : Piece.broken ∈ chars.map Piece.char := by
          rw [← h, piecesFrom]
          exact List.mem_append_left _ hbroken
        simp at hmem
      · rw [piecesFrom, hstep, List.nil_append] at h
        rw [hassoc]
        exact ih hnext h

theorem piecesFrom_tails
    {left low high value n : Nat}
    (hpos : 0 < left)
    (hleads : Leads left low high value n)
    (rest : Octets) :
    piecesFrom (.within left low high value) (tails left n ++ rest) =
      .char (Char.ofNat n) :: piecesFrom .start rest := by
  induction left generalizing low high value with
  | zero =>
      omega
  | succ left ih =>
      obtain ⟨hvalue, hlow, hhigh⟩ := hleads
      rw [Nat.add_sub_cancel] at hlow hhigh
      have hoctet : (UInt8.ofNat (0x80 + n / 64 ^ left % 64)).toNat =
          0x80 + n / 64 ^ left % 64 := by
        simp
        omega
      have hnext : value * 64 + n / 64 ^ left % 64 = n / 64 ^ left := by
        rw [← hvalue, Nat.pow_succ, ← Nat.div_div_eq_div_mul]
        omega
      simp only [tails, List.cons_append, piecesFrom, step, hoctet, hlow, hhigh, and_self,
        if_true, Nat.add_sub_cancel_left, hnext]
      rcases left with _ | left
      · simp [tails]
      · rw [if_neg (by omega), Nat.add_sub_cancel, List.nil_append]
        exact ih (by omega) ⟨rfl, by omega, by omega⟩

theorem first_two
    {n : Nat}
    (h : 0x80 ≤ n)
    (hlt : n < 0x800) :
    ∃ low high value, first (UInt8.ofNat (0xC0 + n / 64)) = ([], .within 1 low high value) ∧
      Leads 1 low high value n := by
  have hb : (UInt8.ofNat (0xC0 + n / 64)).toNat = 0xC0 + n / 64 := by
    simp
    omega
  rw [first, hb, if_neg (by omega), if_neg (by omega), if_pos (by omega)]
  exact ⟨_, _, _, rfl, by omega, by omega, by omega⟩

theorem first_three
    {n : Nat}
    (h : 0x800 ≤ n)
    (hlt : n < 0x10000)
    (hvalid : n < 0xD800 ∨ 0xDFFF < n) :
    ∃ low high value, first (UInt8.ofNat (0xE0 + n / 4096)) = ([], .within 2 low high value) ∧
      Leads 2 low high value n := by
  have hb : (UInt8.ofNat (0xE0 + n / 4096)).toNat = 0xE0 + n / 4096 := by
    simp
    omega
  rw [first, hb, if_neg (by omega), if_neg (by omega), if_neg (by omega)]
  by_cases hleast : 0xE0 + n / 4096 = 0xE0
  · rw [if_pos hleast]
    exact ⟨_, _, _, rfl, by omega, by omega, by omega⟩
  · rw [if_neg hleast]
    by_cases hsurrogate : 0xE0 + n / 4096 = 0xED
    · rw [if_pos hsurrogate]
      exact ⟨_, _, _, rfl, by omega, by omega, by omega⟩
    · rw [if_neg hsurrogate, if_pos (by omega)]
      exact ⟨_, _, _, rfl, by omega, by omega, by omega⟩

theorem first_four
    {n : Nat}
    (h : 0x10000 ≤ n)
    (hlt : n < 0x110000) :
    ∃ low high value, first (UInt8.ofNat (0xF0 + n / 262144)) = ([], .within 3 low high value) ∧
      Leads 3 low high value n := by
  have hb : (UInt8.ofNat (0xF0 + n / 262144)).toNat = 0xF0 + n / 262144 := by
    simp
    omega
  rw [first, hb, if_neg (by omega), if_neg (by omega), if_neg (by omega), if_neg (by omega),
    if_neg (by omega), if_neg (by omega)]
  by_cases hleast : 0xF0 + n / 262144 = 0xF0
  · rw [if_pos hleast]
    exact ⟨_, _, _, rfl, by omega, by omega, by omega⟩
  · rw [if_neg hleast]
    by_cases hmost : 0xF0 + n / 262144 < 0xF4
    · rw [if_pos hmost]
      exact ⟨_, _, _, rfl, by omega, by omega, by omega⟩
    · rw [if_neg hmost, if_pos (by omega)]
      exact ⟨_, _, _, rfl, by omega, by omega, by omega⟩

theorem piecesFrom_encodeChar
    (c : Char) (rest : Octets) :
    piecesFrom .start (encodeChar c ++ rest) = .char c :: piecesFrom .start rest := by
  have hlead : ∀ {b left low high value},
      encodeChar (Char.ofNat c.toNat) = b :: tails left c.toNat → 0 < left →
      first b = ([], .within left low high value) → Leads left low high value c.toNat →
      piecesFrom .start (encodeChar c ++ rest) = .char c :: piecesFrom .start rest := by
    intro b left low high value hwrites hpos hfirst hleads
    rw [Char.ofNat_toNat] at hwrites
    rw [hwrites, List.cons_append, piecesFrom, step, hfirst, List.nil_append,
      piecesFrom_tails hpos hleads, Char.ofNat_toNat]
  have hvalid : c.toNat < 0xD800 ∨ 0xDFFF < c.toNat ∧ c.toNat < 0x110000 := c.valid
  by_cases hone : c.toNat < 0x80
  · have hwrites := encodeChar_one hone
    rw [Char.ofNat_toNat] at hwrites
    have hoctet : (UInt8.ofNat c.toNat).toNat = c.toNat := by
      simp
      omega
    rw [hwrites, List.singleton_append, piecesFrom, step, first, hoctet, if_pos hone,
      Char.ofNat_toNat]
    rfl
  · by_cases htwo : c.toNat < 0x800
    · obtain ⟨low, high, value, hfirst, hleads⟩ := first_two (by omega) htwo
      exact hlead (encodeChar_two (by omega) htwo) (by omega) hfirst hleads
    · by_cases hthree : c.toNat < 0x10000
      · obtain ⟨low, high, value, hfirst, hleads⟩ := first_three (by omega) hthree (by omega)
        exact hlead (encodeChar_three (by omega) hthree (by omega)) (by omega) hfirst hleads
      · obtain ⟨low, high, value, hfirst, hleads⟩ :=
          @first_four c.toNat (by omega) (by omega)
        exact hlead (encodeChar_four (by omega) (by omega)) (by omega) hfirst hleads

theorem piecesFrom_encode
    (chars : List Char) (rest : Octets) :
    piecesFrom .start (chars.flatMap encodeChar ++ rest) =
      chars.map Piece.char ++ piecesFrom .start rest := by
  induction chars with
  | nil =>
      rfl
  | cons c chars ih =>
      rw [List.flatMap_cons, List.append_assoc, piecesFrom_encodeChar, ih, List.map_cons,
        List.cons_append]

/-- Behind the octets of a text, octets are read as they are alone. -/
theorem decode_encode_append
    (s : String) (more : Octets) :
    decode (encode s ++ more) = (decode more).map (s ++ ·) := by
  have hpieces : pieces (encode s ++ more) = s.toList.map Piece.char ++ pieces more := by
    rw [pieces_eq, pieces_eq]
    exact piecesFrom_encode s.toList more
  rw [decode, hpieces, List.mapM_append, mapM_char?.2 rfl, decode]
  cases (pieces more).mapM Piece.char? with
  | none =>
      rfl
  | some chars =>
      simp [String.ofList_append]

/-- Octets are read as a text exactly if the text is written so. -/
theorem decode_eq_some_iff
    {text : Octets} {s : String} :
    decode text = some s ↔ text = encode s := by
  constructor
  · intro h
    obtain ⟨chars, hchars, rfl⟩ := Option.map_eq_some_iff.1 h
    rw [mapM_char?, pieces_eq] at hchars
    have htext := @append_eq_of_pieces [] text .start chars rfl hchars
    simpa [encode] using htext
  · rintro rfl
    have hread := decode_encode_append s []
    rw [List.append_nil] at hread
    rw [hread]
    simp [decode, pieces, Scan.feedAll, finish]

/-- A text is written as its own UTF-8. -/
theorem encode_eq
    (s : String) :
    (encode s).toByteArray = s.toByteArray := by
  have hchar : encodeChar = String.utf8EncodeChar := by
    funext c
    have hvalid : c.val.toNat < 0xD800 ∨ 0xDFFF < c.val.toNat ∧ c.val.toNat < 0x110000 :=
      c.valid
    simp only [encodeChar, String.utf8EncodeChar, Char.toNat, Nat.add_comm,
      ← Nat.lt_succ_iff]
    split_ifs
    · rfl
    · rw [Nat.mod_eq_of_lt (b := 0x20) (by omega)]
    · rw [Nat.mod_eq_of_lt (b := 0x10) (by omega)]
    · rw [Nat.mod_eq_of_lt (b := 0x08) (by omega)]
  calc (encode s).toByteArray
      = (s.toList.flatMap String.utf8EncodeChar).toByteArray := by rw [encode, hchar]
    _ = (String.ofList s.toList).toByteArray := String.toByteArray_ofList.symm
    _ = s.toByteArray := by rw [String.ofList_toList]

/-- Octets are read as the text whose UTF-8 they are. -/
theorem decode_eq_some_iff_toByteArray
    {text : Octets} {s : String} :
    decode text = some s ↔ text.toByteArray = s.toByteArray := by
  rw [decode_eq_some_iff, ← encode_eq, List.toByteArray_inj]

end Utf8
end SyslogIntake
