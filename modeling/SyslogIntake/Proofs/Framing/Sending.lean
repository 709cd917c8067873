import Mathlib.Data.List.Forall2
import SyslogIntake.Proofs.Framing.Reading
import SyslogIntake.Proofs.Output.Priority

/-!
# Sending messages

A client sends each message as a line or with its length in front, with a line end within
the length or none, and with more line ends behind it.  What it chose does not show in the
records: there is one for each message, and it holds what the message says.

**Results.**

* `decode_write` : a message that was sent is the first one of the decoding;
* `decode_flatMap_write` : the messages of a list are decoded one after the other;
* `Reader.readAll_sent` : a reader gives them to the records, in any cuts.
-/

namespace SyslogIntake
namespace Framing

/-- The two ways to end a line. -/
inductive LineEnd
  | feed
  | returnFeed
  deriving DecidableEq, Repr

def LineEnd.octets : LineEnd → Octets
  | feed => [Octets.lineFeed]
  | returnFeed => [Octets.carriageReturn, Octets.lineFeed]

/-- How a message is sent: as a line, or with the digits of its length in front. -/
inductive Encoding
  | line (ending : LineEnd)
  | counted (digits : Octets) (ending : Option LineEnd) (stray : List LineEnd)
  deriving DecidableEq, Repr

def Encoding.mode : Encoding → Mode
  | line _ => .line
  | counted .. => .counted

/-- A message, and how its client chose to send it. -/
structure Sending where
  message : Octets
  encoding : Encoding
  deriving DecidableEq, Repr

/-- A text begins with something that reads as a length. -/
def LengthFirst (text : Octets) : Prop :=
  ∃ digits rest, (∀ d ∈ digits, Octets.isDigit d = true) ∧ 1 ≤ digits.length ∧
    digits.length ≤ 10 ∧ text = digits ++ Octets.space :: rest

namespace Sending

/-- What a length counts: the message, and the line end within it. -/
def counted (message : Octets) (ending : Option LineEnd) : Octets :=
  message ++ (ending.map LineEnd.octets).getD []

def write (s : Sending) : Octets :=
  match s.encoding with
  | .line ending => s.message ++ ending.octets
  | .counted digits ending stray =>
      digits ++ Octets.space :: (counted s.message ending ++ stray.flatMap LineEnd.octets)

def frame (s : Sending) : Frame :=
  match s.encoding with
  | .line .feed => ⟨none, s.message⟩
  | .line .returnFeed => ⟨none, s.message ++ [Octets.carriageReturn]⟩
  | .counted _ ending _ => ⟨some (counted s.message ending).length, counted s.message ending⟩

/-- A message that can be sent, and a length that is the one of what it counts. -/
structure Fits (most : Nat) (s : Sending) : Prop where
  ne_nil : s.message ≠ []
  no_feed : Octets.lineFeed ∉ s.message
  no_return : s.message.getLast? ≠ some Octets.carriageReturn
  short : s.message.length + 2 ≤ most
  length : ∀ digits ending stray, s.encoding = .counted digits ending stray →
    (∀ d ∈ digits, Octets.isDigit d = true) ∧ digits.length ≤ 10 ∧
      Octets.decimal digits = (counted s.message ending).length

end Sending

/-- The messages that a policy tells apart: lines that begin with no length, or one framing. -/
def Expects (policy : FramingPolicy) (sent : List Sending) : Prop :=
  match policy with
  | .auto => ∀ s ∈ sent, s.encoding.mode = .line → ¬ LengthFirst s.message
  | .octetCounted => ∀ s ∈ sent, s.encoding.mode = .counted
  | .nonTransparent => ∀ s ∈ sent, s.encoding.mode = .line
  | .autoOnce =>
      (∀ s ∈ sent, s.encoding.mode = .counted) ∨
        ∀ s ∈ sent, s.encoding.mode = .line ∧ ¬ LengthFirst s.message

/-- A rule under which a message is taken for what it is. -/
def Rule.Takes (rule : Rule) (s : Sending) : Prop :=
  match s.encoding.mode with
  | .counted => rule ≠ .lines
  | .line => rule = .lines ∨ rule ≠ .counted ∧ ¬ LengthFirst s.message

/-- The messages of a list are taken one after the other. -/
def Rule.TakesAll : Rule → List Sending → Prop
  | _, [] => True
  | rule, s :: sent => rule.Takes s ∧ (rule.after s.encoding.mode).TakesAll sent

theorem isLineEnd_of_isDigit
    {b : UInt8}
    (h : Octets.isDigit b = true) :
    Search.isLineEnd b = false := by
  have hfeed : b ≠ Octets.lineFeed := by
    rintro rfl
    exact absurd h (by decide)
  have hreturn : b ≠ Octets.carriageReturn := by
    rintro rfl
    exact absurd h (by decide)
  simp [Search.isLineEnd, hfeed, hreturn]

theorem lengthAt?_eq_none
    {text : Octets} {b : UInt8}
    (h : ¬ LengthFirst text)
    (hdigit : Octets.isDigit b = false)
    (hspace : b ≠ Octets.space)
    (more : Octets) :
    lengthAt? (text ++ b :: more) = none := by
  obtain ⟨digits, rest, rfl, hdigits, hrest⟩ := exists_digits text
  cases rest with
  | nil =>
      rw [List.append_nil, lengthAt?_digits hdigits hdigit,
        if_neg fun hlength => hspace hlength.1]
  | cons c rest =>
      rw [List.append_assoc, List.cons_append, lengthAt?_digits hdigits (hrest c rest rfl)]
      refine if_neg ?_
      rintro ⟨rfl, hsome, hshort⟩
      exact h ⟨digits, rest, hdigits, hsome, hshort, rfl⟩

theorem lengthAt?_octets
    {text : Octets}
    (h : ¬ LengthFirst text)
    (ending : LineEnd) (more : Octets) :
    lengthAt? (text ++ ending.octets ++ more) = none := by
  rw [List.append_assoc]
  cases ending with
  | feed => exact lengthAt?_eq_none h (by decide) (by decide) more
  | returnFeed => exact lengthAt?_eq_none h (by decide) (by decide) (Octets.lineFeed :: more)

/-- A line without a line feed in it is the first portion of a text. -/
theorem linePortion_append_feed
    {line : Octets}
    (hfeed : Octets.lineFeed ∉ line)
    (most : Nat) (more : Octets) :
    linePortion none most (line ++ Octets.lineFeed :: more) =
      .before (if line = [] ∨ line = [Octets.carriageReturn] ∨ most < line.length then none
        else some ⟨none, line⟩) more := by
  have hplace : (line ++ Octets.lineFeed :: more).idxOf? Octets.lineFeed = some line.length := by
    rw [Search.idxOf?_append_of_notMem hfeed]
    simp [List.idxOf?_cons]
  have hdrop : (line ++ Octets.lineFeed :: more).drop (line.length + 1) = more := by
    rw [List.drop_append]
    simp
  rw [linePortion, hplace]
  simp only [List.take_left' rfl, hdrop]

theorem decode_line
    {rule : Rule} {most : Nat} {text more : Octets} {found : Option Frame}
    (hrule : rule = .lines ∨ rule ≠ .counted ∧ lengthAt? text = none)
    (hline : linePortion none most text = .before found more) :
    decode none most rule text = (decode none most (rule.after .line) more).behind found := by
  have hportion : rule.portion none most text = (.before found more, rule.after .line) := by
    rcases hrule with rfl | ⟨hrule, hlength⟩
    · simp only [Rule.portion, hline, Rule.after]
    · cases rule with
      | each | first => simp only [Rule.portion, hlength, hline]
      | counted => exact absurd rfl hrule
      | lines => simp only [Rule.portion, hline, Rule.after]
  rw [decode_eq, hportion]
  rfl

/-- A message that a length announces is decoded, unless all is lines. -/
theorem decode_counted
    {rule : Rule} {most : Nat} {text body more : Octets}
    (hrule : rule ≠ .lines)
    (hfront : text.dropWhile Search.isLineEnd = text)
    (hlength : lengthAt? text = some (body.length, body ++ more))
    (hne : body ≠ [])
    (hmost : body.length ≤ most) :
    decode none most rule text =
      (decode none most (rule.after .counted) more).behind (some ⟨some body.length, body⟩) := by
  have hbody : countedPortion none most body.length (body ++ more) =
      .before (some ⟨some body.length, body⟩) more := by
    have hall : ¬ (body ++ more).length < body.length := by
      rw [List.length_append]
      omega
    have hsome : body.length ≠ 0 := fun h => hne (List.eq_nil_of_length_eq_zero h)
    rw [countedPortion, if_neg (Nat.not_lt.2 hmost), bodyPortion, if_neg hall, if_neg hsome,
      List.take_left' rfl, List.drop_left' rfl]
  have hportion : rule.portion none most text =
      (.before (some ⟨some body.length, body⟩) more, rule.after .counted) := by
    cases rule with
    | each | first => simp only [Rule.portion, hlength, hbody]
    | counted => simp only [Rule.portion, hfront, hlength, hbody, Rule.after]
    | lines => exact absurd rfl hrule
  rw [decode_eq, hportion]
  rfl

/-- A line end that stands alone is a blank line. -/
theorem linePortion_octets
    (ending : LineEnd) (most : Nat) (more : Octets) :
    linePortion none most (ending.octets ++ more) = .before none more := by
  cases ending with
  | feed =>
      have hline := @linePortion_append_feed [] (by decide) most more
      rwa [if_pos (Or.inl rfl)] at hline
  | returnFeed =>
      have hline := @linePortion_append_feed [Octets.carriageReturn] (by decide) most more
      rwa [if_pos (Or.inr (Or.inl rfl))] at hline

/-- Line ends behind a counted message are passed over. -/
theorem decode_stray
    {rule : Rule}
    (hrule : rule = .each ∨ rule = .counted)
    (most : Nat) (stray : List LineEnd) (text : Octets) :
    decode none most rule (stray.flatMap LineEnd.octets ++ text) = decode none most rule text := by
  induction stray with
  | nil =>
      rfl
  | cons ending stray ih =>
      rw [List.flatMap_cons, List.append_assoc]
      -- at each boundary a line end is a blank line, in front of a length it is passed over
      rcases hrule with rfl | rfl
      · have hnone : ¬ LengthFirst [] := by
          rintro ⟨digits, rest, -, -, -, hempty⟩
          simp at hempty
        have hlength := lengthAt?_octets hnone ending (stray.flatMap LineEnd.octets ++ text)
        rw [List.nil_append] at hlength
        rw [@decode_line .each _ _ _ _ (Or.inr ⟨by decide, hlength⟩)
          (linePortion_octets ending most _)]
        exact ih
      · have hportion : Rule.counted.portion none most
            (ending.octets ++ (stray.flatMap LineEnd.octets ++ text)) =
              Rule.counted.portion none most (stray.flatMap LineEnd.octets ++ text) := by
          cases ending <;> rfl
        rw [decode_eq, hportion, ← decode_eq, ih]

namespace Sending

variable {most : Nat} {rule : Rule} {s : Sending}

theorem decode_write_line
    {ending : LineEnd}
    (hencoding : s.encoding = .line ending)
    (hfits : s.Fits most)
    (hrule : rule = .lines ∨ rule ≠ .counted ∧ ¬ LengthFirst s.message)
    (more : Octets) :
    decode none most rule (s.write ++ more) =
      (decode none most (rule.after .line) more).behind (some s.frame) := by
  have hshort := hfits.short
  have hwrite : s.write = s.message ++ ending.octets := by
    rw [write, hencoding]
  rw [hwrite]
  refine decode_line ?_ ?_
  · exact hrule.imp_right fun h => ⟨h.1, lengthAt?_octets h.2 ending more⟩
  · rw [List.append_assoc]
    cases ending with
    | feed =>
        have hline := linePortion_append_feed hfits.no_feed most more
        rw [if_neg] at hline
        · rw [frame, hencoding]
          exact hline
        · rintro (hnil | hreturn | hlong)
          · exact hfits.ne_nil hnil
          · exact hfits.no_return (by rw [hreturn]; rfl)
          · omega
    | returnFeed =>
        have hfeed : Octets.lineFeed ∉ s.message ++ [Octets.carriageReturn] := by
          simpa using ⟨hfits.no_feed, by decide⟩
        have hline := linePortion_append_feed hfeed most more
        rw [if_neg, List.append_assoc] at hline
        · rw [frame, hencoding]
          exact hline
        · rintro (hnil | hreturn | hlong)
          · simp at hnil
          · exact hfits.ne_nil (by simpa using hreturn)
          · rw [List.length_append, List.length_singleton] at hlong
            omega

theorem Fits.length_counted_le
    (hfits : s.Fits most)
    (ending : Option LineEnd) :
    (counted s.message ending).length ≤ most := by
  have hshort := hfits.short
  have htwo : ((ending.map LineEnd.octets).getD []).length ≤ 2 := by
    rcases ending with _ | ending
    · simp
    · cases ending <;> simp [LineEnd.octets]
  rw [counted, List.length_append]
  omega

theorem decode_write_counted
    {digits : Octets} {ending : Option LineEnd} {stray : List LineEnd}
    (hencoding : s.encoding = .counted digits ending stray)
    (hfits : s.Fits most)
    (hrule : rule ≠ .lines)
    (more : Octets) :
    decode none most rule (s.write ++ more) =
      (decode none most (rule.after .counted) more).behind (some s.frame) := by
  obtain ⟨hdigits, hmost, hdecimal⟩ := hfits.length digits ending stray hencoding
  have hne : counted s.message ending ≠ [] := by
    rw [counted]
    exact List.append_ne_nil_of_left_ne_nil hfits.ne_nil _
  have hsome : digits ≠ [] := by
    rintro rfl
    exact hne (List.eq_nil_of_length_eq_zero hdecimal.symm)
  have hwrite : s.write ++ more = digits ++ Octets.space :: (counted s.message ending ++
      (stray.flatMap LineEnd.octets ++ more)) := by
    rw [write, hencoding]
    simp
  have hlength : lengthAt? (s.write ++ more) = some ((counted s.message ending).length,
      counted s.message ending ++ (stray.flatMap LineEnd.octets ++ more)) := by
    have hone : 1 ≤ digits.length := List.length_pos_iff.2 hsome
    rw [hwrite, lengthAt?_digits hdigits (by decide), if_pos ⟨rfl, hone, hmost⟩, hdecimal]
  have hfront : (s.write ++ more).dropWhile Search.isLineEnd = s.write ++ more := by
    obtain ⟨d, later, rfl⟩ := List.exists_cons_of_ne_nil hsome
    have hd := isLineEnd_of_isDigit (hdigits d List.mem_cons_self)
    rw [hwrite, List.cons_append, List.dropWhile_cons, hd]
    rfl
  have hafter : rule.after .counted = .each ∨ rule.after .counted = .counted := by
    cases rule with
    | each => exact Or.inl rfl
    | first | counted => exact Or.inr rfl
    | lines => exact absurd rfl hrule
  rw [decode_counted hrule hfront hlength hne (hfits.length_counted_le ending),
    decode_stray hafter, frame, hencoding]

theorem decode_write
    (hfits : s.Fits most)
    (htakes : rule.Takes s)
    (more : Octets) :
    decode none most rule (s.write ++ more) =
      (decode none most (rule.after s.encoding.mode) more).behind (some s.frame) := by
  unfold Rule.Takes at htakes
  cases hencoding : s.encoding with
  | line ending =>
      rw [hencoding] at htakes
      exact decode_write_line hencoding hfits htakes more
  | counted digits ending stray =>
      rw [hencoding] at htakes
      exact decode_write_counted hencoding hfits htakes more

end Sending

/-- Messages that were sent are decoded one after the other. -/
theorem decode_flatMap_write
    {most : Nat} {rule : Rule} {sent : List Sending}
    (hfits : ∀ s ∈ sent, s.Fits most)
    (htakes : rule.TakesAll sent) :
    decode none most rule (sent.flatMap Sending.write) = ⟨sent.map Sending.frame, none⟩ := by
  induction sent generalizing rule with
  | nil =>
      exact decode_nil most rule
  | cons s sent ih =>
      rw [List.flatMap_cons, Sending.decode_write (hfits s List.mem_cons_self) htakes.1,
        ih (fun s hs => hfits s (List.mem_cons_of_mem _ hs)) htakes.2]
      rfl

theorem Rule.takesAll_of_forall
    {rule : Rule} {sent : List Sending}
    (hrule : rule ≠ .first)
    (h : ∀ s ∈ sent, rule.Takes s) :
    rule.TakesAll sent := by
  induction sent with
  | nil =>
      trivial
  | cons s sent ih =>
      have hafter : rule.after s.encoding.mode = rule := by
        cases rule with
        | first => exact absurd rfl hrule
        | each | counted | lines => rfl
      refine ⟨h s List.mem_cons_self, ?_⟩
      rw [hafter]
      exact ih fun s hs => h s (List.mem_cons_of_mem _ hs)

/-- Messages that a policy tells apart are taken for what they are. -/
theorem takesAll_of_expects
    {policy : FramingPolicy} {sent : List Sending}
    (h : Expects policy sent) :
    (Rule.ofPolicy policy).TakesAll sent := by
  have hcounted : ∀ {rule : Rule} {s : Sending}, rule ≠ .lines → s.encoding.mode = .counted →
      rule.Takes s := by
    intro rule s hrule hmode
    simpa [Rule.Takes, hmode] using hrule
  have hline : ∀ {rule : Rule} {s : Sending}, s.encoding.mode = .line →
      rule = .lines ∨ rule ≠ .counted ∧ ¬ LengthFirst s.message → rule.Takes s := by
    intro rule s hmode hrule
    simpa [Rule.Takes, hmode] using hrule
  cases policy with
  | auto =>
      refine Rule.takesAll_of_forall (by decide) ?_
      intro s hs
      cases hmode : s.encoding.mode with
      | counted => exact hcounted (by decide) hmode
      | line => exact hline hmode (Or.inr ⟨by decide, h s hs hmode⟩)
  | octetCounted =>
      exact Rule.takesAll_of_forall (by decide) fun s hs => hcounted (by decide) (h s hs)
  | nonTransparent =>
      exact Rule.takesAll_of_forall (by decide) fun s hs => hline (h s hs) (Or.inl rfl)
  | autoOnce =>
      -- the first message decides, and the others go the same way
      rcases h with hall | hall
      · cases sent with
        | nil =>
            trivial
        | cons s sent =>
            have hmode := hall s List.mem_cons_self
            refine ⟨hcounted (by decide) hmode, ?_⟩
            rw [hmode]
            exact Rule.takesAll_of_forall (by decide) fun t ht =>
              hcounted (by decide) (hall t (List.mem_cons_of_mem _ ht))
      · cases sent with
        | nil =>
            trivial
        | cons s sent =>
            obtain ⟨hmode, hfirst⟩ := hall s List.mem_cons_self
            refine ⟨hline hmode (Or.inr ⟨by decide, hfirst⟩), ?_⟩
            rw [hmode]
            exact Rule.takesAll_of_forall (by decide) fun t ht =>
              hline (hall t (List.mem_cons_of_mem _ ht)).1 (Or.inl rfl)

theorem Sending.splits_frame
    {most : Nat} {s : Sending}
    (hfits : s.Fits most)
    (c : Connection) :
    Record.Splits s.message (Record.ofFrame s.frame c).priority (Record.ofFrame s.frame c).body ∧
      (Record.ofFrame s.frame c).framing = s.encoding.mode := by
  have hsplits : ∀ (declared : Option Nat) (ending : Octets), ending ∈ Record.lineEnds →
      Record.Splits s.message (Record.ofFrame ⟨declared, s.message ++ ending⟩ c).priority
        (Record.ofFrame ⟨declared, s.message ++ ending⟩ c).body := by
    intro declared ending hending
    refine Record.splits_ofFrame ?_ hfits.no_return hending declared c
    exact fun hlast => hfits.no_feed (List.mem_of_getLast? hlast)
  rw [frame]
  cases hencoding : s.encoding with
  | line ending =>
      cases ending with
      | feed =>
          have hbare := hsplits none [] (by decide)
          rw [List.append_nil] at hbare
          exact ⟨hbare, rfl⟩
      | returnFeed =>
          exact ⟨hsplits none [Octets.carriageReturn] (by decide), rfl⟩
  | counted digits ending stray =>
      refine ⟨hsplits _ _ ?_, rfl⟩
      rcases ending with _ | ending
      · decide
      · cases ending <;> decide

end Framing

namespace Reader

/--
Messages that clients send, each in the way that its client chose, are read from a wire in
any cuts, and there is one record for each of them: its priority and its body are those of
the message, and its framing is the one that was chosen.
-/
theorem readAll_sent
    {policy : FramingPolicy} {most wait : Nat} {sent : List Framing.Sending}
    {segments : List Segment}
    (hfits : ∀ s ∈ sent, s.Fits most)
    (hexpects : Framing.Expects policy sent)
    (hcut : Cut (sent.flatMap Framing.Sending.write) wait segments)
    (c : Connection) :
    let given := readAll
      ⟨Framer.start policy most, Lookahead.fresh (Wire.ofSegments segments)⟩
    given.2 = .ended ∧
      List.Forall₂
        (fun (s : Framing.Sending) record =>
          Record.Splits s.message record.priority record.body ∧
            record.framing = s.encoding.mode)
        sent (given.1.map fun frame => Record.ofFrame frame c) := by
  obtain ⟨hframes, hends⟩ := readAll_decodes hcut policy most
  rw [Framing.decode_flatMap_write hfits (Framing.takesAll_of_expects hexpects)] at hframes hends
  refine ⟨hends, ?_⟩
  rw [hframes, List.map_map, List.forall₂_map_right_iff, List.forall₂_same]
  exact fun s hs => Framing.Sending.splits_frame (hfits s hs) c

/-- Two lines and two counted messages, with line ends of every kind. -/
def sampleSent : List Framing.Sending :=
  [⟨[60, 51, 52, 62, 65], .line .returnFeed⟩,
    ⟨[66], .counted [48, 51] (some .returnFeed) [.feed, .returnFeed]⟩,
    ⟨[60, 55, 62], .counted [51] none []⟩,
    ⟨[49, 50], .line .feed⟩]

theorem readAll_sent_sample :
    let later : Octets := [10, 48, 51, 32, 66, 13, 10, 10, 13, 10, 51, 32, 60, 55, 62, 49, 50, 10]
    let segments : List Segment := [.octets [60, 51, 52, 62, 65, 13], .pause 4, .octets later]
    let c := Connection.accepted 1 (.v4 ⟨192, 0, 2, 1⟩ 5000) (.v4 ⟨192, 0, 2, 2⟩ 601)
    let given := readAll ⟨Framer.start .auto 7, Lookahead.fresh (Wire.ofSegments segments)⟩
    let records := given.1.map fun frame => Record.ofFrame frame c
    Cut (sampleSent.flatMap Framing.Sending.write) 4 segments ∧ given.2 = .ended ∧
      records.map (fun record => ((record.priority, record.body), record.framing)) =
        [((34, [65]), .line), ((13, [66]), .counted), ((7, []), .counted),
          ((13, [49, 50]), .line)] := by
  intro later segments c given records
  have hcut : Cut (sampleSent.flatMap Framing.Sending.write) 4 segments :=
    @Cut.piece [60, 51, 52, 62, 65, 13] later 4 _ (by decide)
      (.pause 4 (@Cut.piece later [] 0 _ (by decide) .nil))
  have hfits : ∀ s ∈ sampleSent, s.Fits 7 := by
    intro s hs
    simp only [sampleSent, List.mem_cons, List.not_mem_nil, or_false] at hs
    rcases hs with rfl | rfl | rfl | rfl
    · exact ⟨by decide, by decide, by decide, by decide, by simp⟩
    · refine ⟨by decide, by decide, by decide, by decide, ?_⟩
      rintro digits ending stray ⟨⟩
      exact ⟨List.all_eq_true.1 (by decide), by decide, by decide⟩
    · refine ⟨by decide, by decide, by decide, by decide, ?_⟩
      rintro digits ending stray ⟨⟩
      exact ⟨List.all_eq_true.1 (by decide), by decide, by decide⟩
    · exact ⟨by decide, by decide, by decide, by decide, by simp⟩
  have hexpects : Framing.Expects .auto sampleSent := by
    rintro s hs - ⟨digits, rest, -, -, -, hlength⟩
    have hspace : ∀ s ∈ sampleSent, Octets.space ∉ s.message := by decide
    exact hspace s hs (by simp [hlength])
  obtain ⟨hended, hrecords⟩ := readAll_sent hfits hexpects hcut c
  refine ⟨hcut, hended, ?_⟩
  have hsame : List.Forall₂
      (fun (s : Framing.Sending) (record : Record) =>
        (Record.splitPriority s.message, s.encoding.mode) =
          ((record.priority, record.body), record.framing))
      sampleSent records :=
    hrecords.imp fun s record h => Prod.ext (Record.splitPriority_eq_iff.2 h.1) h.2.symm
  have hmap : sampleSent.map (fun s => (Record.splitPriority s.message, s.encoding.mode)) =
      records.map fun record => ((record.priority, record.body), record.framing) := by
    rwa [← List.forall₂_eq_eq_eq, List.forall₂_map_left_iff, List.forall₂_map_right_iff]
  rw [← hmap]
  rfl

end Reader
end SyslogIntake
