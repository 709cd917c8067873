import SyslogIntake.Proofs.Framing.Sending

/-!
# Locking

A reader that keeps to one framing for a connection takes it from the first boundary that it
sees, before it is known whether a message stands there.  From then on it reads as if only that
framing were allowed, so all its messages have it.  What is passed over in front of the first
message decides too: a blank line makes a line of a message that has its length in front.  As long
as the boundaries up to the first message show one framing, the first message is the one that a
reader gives who looks at each boundary anew.

**Results.**

* `decode_first` : what the first boundary shows is kept to;
* `decode_uniform` : the first message, where the boundaries up to it show one framing;
* `Reader.readAll_autoOnce`, `Reader.readAll_autoOnce_blank` : what a reader locks on.
-/

namespace SyslogIntake

/-- The policy that allows one framing only. -/
def Mode.policy : Mode → FramingPolicy
  | .counted => .octetCounted
  | .line => .nonTransparent

namespace Framing

/-- The framing that the boundary in front of a text shows. -/
def modeAt (text : Octets) : Mode :=
  if (lengthAt? text).isSome then .counted else .line

/-- The rule that keeps to a framing. -/
def Rule.only (mode : Mode) : Rule :=
  .ofPolicy mode.policy

/--
The boundaries up to the first message, or up to the end or the fault in its place, show one
framing; between lengths there may be blank lines.
-/
inductive Uniform (most : Nat) (mode : Mode) : Octets → Prop
  | nil :
      Uniform most mode []
  | last {text : Octets}
      (hmode : modeAt text = mode)
      (hlast : ∀ rest, (Rule.each.portion none most text).1 ≠ .before none rest) :
      Uniform most mode text
  | behind {text rest : Octets}
      (hmode : modeAt text = mode)
      (hskip : (Rule.each.portion none most text).1 = .before none rest)
      (hrest : Uniform most mode rest) :
      Uniform most mode text
  | blank {rest : Octets}
      (hmode : mode = .counted)
      (ending : LineEnd)
      (hrest : Uniform most mode rest) :
      Uniform most mode (ending.octets ++ rest)

/-- Two decodings begin with the same message, or they are the same and have none. -/
def Decoding.Begins (one other : Decoding) : Prop :=
  one.frames.head? = other.frames.head? ∧ (other.frames = [] → one = other)

/-- A text with a length in front does not begin with a line end. -/
theorem dropWhile_of_lengthAt?
    {text body : Octets} {length : Nat}
    (h : lengthAt? text = some (length, body)) :
    text.dropWhile Search.isLineEnd = text := by
  obtain ⟨digits, rest, rfl, hdigits, hrest⟩ := exists_digits text
  cases digits with
  | cons d digits =>
      have hd : Search.isLineEnd d = false := isLineEnd_of_isDigit (hdigits d List.mem_cons_self)
      simp [hd]
  | nil =>
      cases rest with
      | nil => rfl
      | cons b tail =>
          rw [lengthAt?_digits hdigits (hrest b tail rfl)] at h
          simp at h

/-- The first boundary is taken by each rule that allows what it shows. -/
theorem portion_only
    (close : Option String) (most : Nat) (text : Octets) :
    (Rule.only (modeAt text)).portion close most text =
      ((Rule.each.portion close most text).1, Rule.only (modeAt text)) := by
  unfold modeAt
  cases hlength : lengthAt? text with
  | none =>
      simp [Rule.only, Mode.policy, Rule.ofPolicy, Rule.portion, hlength]
  | some found =>
      simp [Rule.only, Mode.policy, Rule.ofPolicy, Rule.portion,
        dropWhile_of_lengthAt? hlength, hlength]

/-- What the first boundary shows is kept to. -/
theorem decode_first
    (close : Option String) (most : Nat) (text : Octets) :
    decode close most .first text = decode close most (.only (modeAt text)) text := by
  have hportion : Rule.first.portion close most text =
      (Rule.only (modeAt text)).portion close most text := by
    rw [portion_only]
    unfold modeAt
    cases hlength : lengthAt? text with
    | none => simp [Rule.only, Mode.policy, Rule.ofPolicy, Rule.portion, Rule.after, hlength]
    | some found => simp [Rule.only, Mode.policy, Rule.ofPolicy, Rule.portion, Rule.after, hlength]
  rw [decode_eq, hportion, ← decode_eq]

section Portions

variable {close : Option String} {most : Nat} {text : Octets} {frame : Frame}

theorem linePortion_mode
    (h : frame ∈ (linePortion close most text).found) :
    frame.mode = .line := by
  unfold linePortion at h
  split at h
  · simp only [Portion.found] at h
    split at h
    · cases h
    · cases h
      rfl
  · split at h
    · cases h
    · simp only [Portion.found] at h
      split at h
      · cases h
      · cases h
        rfl

theorem countedPortion_mode
    {length : Nat}
    (h : frame ∈ (countedPortion close most length text).found) :
    frame.mode = .counted := by
  unfold countedPortion bodyPortion at h
  split at h
  · cases h
  split at h
  · split at h <;> cases h
  · simp only [Portion.found] at h
    split at h
    · cases h
    · cases h
      rfl

/-- A rule that keeps to a framing finds no message of the other one, and goes on the same way. -/
theorem portion_only_mode
    (mode : Mode) :
    (∀ frame ∈ ((Rule.only mode).portion close most text).1.found, frame.mode = mode) ∧
      ((Rule.only mode).portion close most text).2 = Rule.only mode := by
  cases mode with
  | line =>
      exact ⟨fun frame h => linePortion_mode h, rfl⟩
  | counted =>
      simp only [Rule.only, Mode.policy, Rule.ofPolicy, Rule.portion]
      split
      · exact ⟨fun frame h => countedPortion_mode h, rfl⟩
      · refine ⟨fun frame h => ?_, rfl⟩
        unfold lackingPortion at h
        split at h
        · split at h <;> cases h
        · cases h

end Portions

/-- All messages that are decoded by a rule that keeps to a framing have it. -/
theorem mode_of_mem_decode
    {close : Option String} {most : Nat} {mode : Mode} {text : Octets} {frame : Frame}
    (h : frame ∈ (decode close most (.only mode) text).frames) :
    frame.mode = mode :=
  (decode_keeps (P := fun frame => frame.mode = mode) (Q := fun _ => True)
    (fun _ => (portion_only_mode mode).2) (fun _ => (portion_only_mode mode).1)
    (fun _ => trivial) text).1 frame h

/-- Where each boundary is looked at anew, no length is missed. -/
theorem decode_each_fault
    (most : Nat) (text : Octets) (flaw : FrameFlaw) :
    (decode none most .each text).fault ≠ some (.frameHeader flaw) := by
  refine (decode_keeps (P := fun _ => True) (Q := (· ≠ some (.frameHeader flaw))) (fun text => ?_)
    (fun _ _ _ => trivial) (fun text => ?_) text).2
  · simp only [Rule.portion]
    split <;> rfl
  · simp only [Rule.portion, countedPortion, bodyPortion, linePortion]
    split
    · split
      · simp [Portion.fault]
      split <;> simp [Portion.fault]
    · split <;> simp [Portion.fault]

/-- Where the boundaries up to the first message show one framing, it is the first message. -/
theorem decode_uniform
    {most : Nat} {mode : Mode} {text : Octets}
    (h : Uniform most mode text) :
    (decode none most (.only mode) text).Begins (decode none most .each text) := by
  have hstay : ∀ text, (Rule.each.portion none most text).2 = .each := by
    intro text
    simp only [Rule.portion]
    split <;> rfl
  induction h with
  | nil =>
      rw [decode_nil, decode_nil]
      exact ⟨rfl, fun _ => rfl⟩
  | @last text hmode hlast =>
      rw [decode_eq, ← hmode, portion_only, decode_eq _ _ _ text, hstay]
      cases hportion : (Rule.each.portion none most text).1 with
      | before found rest =>
          cases found with
          | none => exact absurd hportion (hlast rest)
          | some frame => exact ⟨rfl, fun h => by cases h⟩
      | last found fault =>
          exact ⟨rfl, fun _ => rfl⟩
  | @behind text rest hmode hskip hrest ih =>
      rw [decode_eq, ← hmode, portion_only, decode_eq _ _ _ text, hstay, hskip, hmode]
      exact ih
  | @blank rest hmode ending hrest ih =>
      subst hmode
      have hcounted := decode_stray (Or.inr rfl) most [ending] rest
      have heach := decode_stray (Or.inl rfl) most [ending] rest
      rw [List.flatMap_singleton] at hcounted heach
      rw [heach]
      exact hcounted.symm ▸ ih

/-- Two ends of one decoding are the same, unless a length is missed. -/
theorem Next.Ends.unique
    {one other : Next} {fault : Option Fault}
    (hone : one.Ends fault)
    (hother : other.Ends fault)
    (hfault : ∀ flaw, fault ≠ some (.frameHeader flaw)) :
    one = other := by
  have hbare : ∀ cause : Fault, fault = some cause.bare → cause.bare = cause := by
    intro cause hcause
    cases cause with
    | frameHeader flaw => exact absurd hcause (hfault _)
    | _ => rfl
  cases fault with
  | none =>
      exact hone.trans hother.symm
  | some fault =>
      obtain ⟨cause, rfl, hcause⟩ := hone
      obtain ⟨reason, rfl, hreason⟩ := hother
      rw [← hbare cause (congrArg some hcause.symm), ← hbare reason (congrArg some hreason.symm),
        hcause, hreason]

end Framing

namespace Reader

/--
A reader that keeps to one framing reads as if only the framing of the first boundary were
allowed, and all its messages have it.  Where the boundaries up to the first message show one
framing, the first message, or the end or the fault if there is none, is that of a reader that
looks at each boundary anew.
-/
theorem readAll_autoOnce
    {text : Octets} {wait : Nat} {segments : List Segment}
    (hcut : Cut text wait segments)
    (most : Nat) :
    let wire := Lookahead.fresh (Wire.ofSegments segments)
    let once := readAll ⟨Framer.start .autoOnce most, wire⟩
    let fixed := readAll ⟨Framer.start (Framing.modeAt text).policy most, wire⟩
    let auto := readAll ⟨Framer.start .auto most, wire⟩
    (∀ frame ∈ once.1, frame.mode = Framing.modeAt text) ∧
      (once.1 = fixed.1 ∧ ∃ fault, once.2.Ends fault ∧ fixed.2.Ends fault) ∧
      (Framing.Uniform most (Framing.modeAt text) text →
        once.1.head? = auto.1.head? ∧ (auto.1 = [] → once = auto)) := by
  intro wire once fixed auto
  obtain ⟨honce, honceEnds⟩ : once.1 = (Framing.decode none most .first text).frames ∧
      once.2.Ends (Framing.decode none most .first text).fault :=
    readAll_decodes hcut .autoOnce most
  obtain ⟨hfixed, hfixedEnds⟩ :
      fixed.1 = (Framing.decode none most (.only (Framing.modeAt text)) text).frames ∧
        fixed.2.Ends (Framing.decode none most (.only (Framing.modeAt text)) text).fault :=
    readAll_decodes hcut _ most
  obtain ⟨hauto, hautoEnds⟩ : auto.1 = (Framing.decode none most .each text).frames ∧
      auto.2.Ends (Framing.decode none most .each text).fault :=
    readAll_decodes hcut .auto most
  rw [Framing.decode_first] at honce honceEnds
  refine ⟨fun frame hframe => ?_, ⟨?_, _, honceEnds, hfixedEnds⟩, fun huniform => ?_⟩
  · rw [honce] at hframe
    exact Framing.mode_of_mem_decode hframe
  · exact honce.trans hfixed.symm
  · obtain ⟨hhead, hsame⟩ := Framing.decode_uniform huniform
    refine ⟨by rw [honce, hauto, hhead], fun hnone => ?_⟩
    have hdecode := hsame (hauto.symm.trans hnone)
    rw [hdecode] at honce honceEnds
    exact Prod.ext (honce.trans hauto.symm)
      (honceEnds.unique hautoEnds (Framing.decode_each_fault most text))

/-- A blank line and a line, and behind them a message with its length in front. -/
theorem readAll_autoOnce_lines :
    let text : Octets := [10, 97, 98, 10, 49, 32, 99]
    let segments : List Segment := [.octets [10, 97], .pause 3, .octets [98, 10, 49, 32, 99]]
    let once := readAll ⟨Framer.start .autoOnce 16, Lookahead.fresh (Wire.ofSegments segments)⟩
    let auto := readAll ⟨Framer.start .auto 16, Lookahead.fresh (Wire.ofSegments segments)⟩
    Cut text 3 segments ∧ Framing.Uniform 16 (Framing.modeAt text) text ∧
      once.1.head? = auto.1.head? ∧ ∀ frame ∈ once.1, frame.mode = .line := by
  intro text segments once auto
  have hcut : Cut text 3 segments :=
    @Cut.piece [10, 97] [98, 10, 49, 32, 99] 3 _ (by decide)
      (.pause 3 (@Cut.piece [98, 10, 49, 32, 99] [] 0 _ (by decide) .nil))
  have hline : Framing.Uniform 16 .line [97, 98, 10, 49, 32, 99] := by
    refine .last rfl fun rest h => ?_
    have hportion : (Framing.Rule.each.portion none 16 [97, 98, 10, 49, 32, 99]).1 =
        .before (some ⟨none, [97, 98]⟩) [49, 32, 99] := rfl
    simp [hportion] at h
  have huniform : Framing.Uniform 16 (Framing.modeAt text) text := .behind rfl rfl hline
  obtain ⟨hmode, -, hfirst⟩ := readAll_autoOnce hcut 16
  exact ⟨hcut, huniform, (hfirst huniform).1, hmode⟩

/--
Behind a blank line a message with its length in front is taken for a line, and its length for a
part of it.
-/
theorem readAll_autoOnce_blank :
    let text : Octets := [10, 49, 32, 97]
    let segments : List Segment := [.octets text]
    let once := readAll ⟨Framer.start .autoOnce 65536, Lookahead.fresh (Wire.ofSegments segments)⟩
    let auto := readAll ⟨Framer.start .auto 65536, Lookahead.fresh (Wire.ofSegments segments)⟩
    Cut text 0 segments ∧ once.1 = [⟨none, [49, 32, 97]⟩] ∧ auto.1 = [⟨some 1, [97]⟩] ∧
      once.1.head? ≠ auto.1.head? := by
  intro text segments once auto
  have hcut : Cut text 0 segments := @Cut.piece text [] 0 [] (by decide) .nil
  have honce : once.1 = [⟨none, [49, 32, 97]⟩] := by
    have hblank : Framing.Rule.portion none 65536 .first text =
        (.before none [49, 32, 97], .lines) := rfl
    have hline : Framing.Rule.portion none 65536 .lines [49, 32, 97] =
        (.last (some ⟨none, [49, 32, 97]⟩) none, .lines) := rfl
    refine (readAll_decodes hcut .autoOnce 65536).1.trans ?_
    change (Framing.decode none 65536 .first text).frames = _
    rw [Framing.decode_eq, hblank]
    simp [Framing.Portion.decoding, Framing.decode_eq, hline, Framing.Decoding.behind]
  have hauto : auto.1 = [⟨some 1, [97]⟩] := by
    have hblank : Framing.Rule.portion none 65536 .each text =
        (.before none [49, 32, 97], .each) := rfl
    have hcounted : Framing.Rule.portion none 65536 .each [49, 32, 97] =
        (.before (some ⟨some 1, [97]⟩) [], .each) := rfl
    refine (readAll_decodes hcut .auto 65536).1.trans ?_
    change (Framing.decode none 65536 .each text).frames = _
    rw [Framing.decode_eq, hblank]
    simp [Framing.Portion.decoding, Framing.decode_eq _ _ _ [49, 32, 97], hcounted,
      Framing.decode_nil, Framing.Decoding.behind]
  refine ⟨hcut, honce, hauto, ?_⟩
  rw [honce, hauto]
  decide

end Reader
end SyslogIntake
