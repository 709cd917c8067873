import SyslogIntake.Output.Record
import SyslogIntake.Proofs.Careful.Basic
import SyslogIntake.Proofs.Framing.Searching
import SyslogIntake.Tls.Record

/-!
# Messages by position

The beginning of a session, the boundary between messages and the priority of a message, step by
step and by position.  What is looked at was counted before, numbers have few digits, and what is
left of a message lies within it.

**Results.**

* `check_eq`, `version?_eq` : the header of the first record;
* `sniff_eq` : what stands at a boundary;
* `ofFrame_eq`, `priority_eq` : the record of a frame, and its priority.
-/

namespace SyslogIntake
namespace Careful

def check (text : Octets) : Except Mishap Tls.Verdict := do
  match text.head? with
  | none => return .undecided
  | some first =>
      if first ≠ Tls.handshakeType then return .other (.firstOctet first)
      if text.length < Tls.recordHeaderLength then return .undecided
      let major ← item text 1
      let minor ← item text 2
      if major ≠ 3 ∨ 4 < minor then return .other (.version major minor)
      let high ← item text 3
      let low ← item text 4
      let length := Octets.bigEndian high low
      if length < 4 ∨ Tls.mostRecordLength < length then return .other (.length length)
      return .session

theorem check_eq
    (text : Octets) :
    check text = .ok (Tls.check text) := by
  match text with
  | [] => rfl
  | [first] | [first, _] | [first, _, _] | [first, _, _, _] =>
      by_cases hfirst : first ≠ Tls.handshakeType <;> simp [check, Tls.check, hfirst,
        Tls.recordHeaderLength]
  | first :: major :: minor :: high :: low :: rest =>
      have hmajor : item (first :: major :: minor :: high :: low :: rest) 1 = .ok major := rfl
      have hminor : item (first :: major :: minor :: high :: low :: rest) 2 = .ok minor := rfl
      have hhigh : item (first :: major :: minor :: high :: low :: rest) 3 = .ok high := rfl
      have hlow : item (first :: major :: minor :: high :: low :: rest) 4 = .ok low := rfl
      have hlength : ¬ (first :: major :: minor :: high :: low :: rest).length <
          Tls.recordHeaderLength := by
        simp [Tls.recordHeaderLength]
      rw [check, Tls.check]
      simp only [List.head?_cons, if_neg hlength, hmajor, hminor, hhigh, hlow, ok_bind,
        pure_eq_ok]
      split
      · rfl
      split
      · rfl
      split <;> rfl

/-- The version that the header of a record of a handshake names. -/
def version? (text : Octets) : Except Mishap (Option String) := do
  if text.length < Tls.recordHeaderLength then return none
  let first ← item text 0
  if first ≠ Tls.handshakeType then return none
  let major ← item text 1
  let minor ← item text 2
  return some (Tls.versionName major minor)

theorem version?_eq
    (text : Octets) :
    version? text = .ok (Tls.version? text) := by
  match text with
  | [] | [_] | [_, _] | [_, _, _] | [_, _, _, _] => rfl
  | first :: major :: minor :: high :: low :: rest =>
      have hfirst : item (first :: major :: minor :: high :: low :: rest) 0 = .ok first := rfl
      have hmajor : item (first :: major :: minor :: high :: low :: rest) 1 = .ok major := rfl
      have hminor : item (first :: major :: minor :: high :: low :: rest) 2 = .ok minor := rfl
      have hlength : ¬ (first :: major :: minor :: high :: low :: rest).length <
          Tls.recordHeaderLength := by
        simp [Tls.recordHeaderLength]
      rw [version?, Tls.version?]
      simp only [if_neg hlength, hfirst, hmajor, hminor, ok_bind, pure_eq_ok]
      by_cases htype : first = Tls.handshakeType <;> simp [htype]

theorem decimal_lt
    {digits : Octets}
    (h : ∀ d ∈ digits, Octets.isDigit d = true) :
    Octets.decimal digits < 10 ^ digits.length := by
  suffices hfold : ∀ value, digits.foldl (fun value b => value * 10 + (b.toNat - 48)) value <
      (value + 1) * 10 ^ digits.length by
    simpa [Octets.decimal] using hfold 0
  induction digits with
  | nil =>
      intro value
      simp
  | cons d digits ih =>
      intro value
      have hd : d.toNat ≤ 57 := by
        have hdigit := h d List.mem_cons_self
        simp only [Octets.isDigit, Bool.and_eq_true, decide_eq_true_eq] at hdigit
        exact hdigit.2
      have hrest := ih (fun b hb => h b (List.mem_cons_of_mem d hb)) (value * 10 + (d.toNat - 48))
      rw [List.foldl_cons, List.length_cons, Nat.pow_succ]
      calc _ < (value * 10 + (d.toNat - 48) + 1) * 10 ^ digits.length := hrest
        _ ≤ ((value + 1) * 10) * 10 ^ digits.length := Nat.mul_le_mul_right _ (by omega)
        _ = (value + 1) * (10 ^ digits.length * 10) := by
            rw [Nat.mul_assoc, Nat.mul_comm 10]

/-- The number that digits write, if it fits a word that counts octets in memory. -/
def number? (digits : Octets) : Option Nat :=
  if Octets.decimal digits < 2 ^ wordBits then some (Octets.decimal digits) else none

/-- The value of a few digits in a word of sixteen bits. -/
def valueOf (digits : Octets) : Except Mishap Nat :=
  digits.foldlM (fun value b => do
    let tens ← product 16 value 10
    let unit ← difference b.toNat 48
    sum 16 tens unit) 0

theorem valueOf_eq
    {digits : Octets}
    (hdigits : ∀ d ∈ digits, Octets.isDigit d = true)
    (hshort : digits.length ≤ 4) :
    valueOf digits = .ok (Octets.decimal digits) := by
  suffices hfold : ∀ value, (value + 1) * 10 ^ digits.length ≤ 2 ^ 16 →
      digits.foldlM (fun value b => do
          let tens ← product 16 value 10
          let unit ← difference b.toNat 48
          sum 16 tens unit) value =
        Except.ok (digits.foldl (fun value b => value * 10 + (b.toNat - 48)) value) by
    refine hfold 0 ?_
    have hpow : 10 ^ digits.length ≤ 10 ^ 4 := Nat.pow_le_pow_right (by omega) hshort
    omega
  clear hshort
  induction digits with
  | nil =>
      intro value _
      rfl
  | cons d digits ih =>
      intro value hroom
      have hd : 48 ≤ d.toNat ∧ d.toNat ≤ 57 := by
        have hdigit := hdigits d List.mem_cons_self
        simp only [Octets.isDigit, Bool.and_eq_true, decide_eq_true_eq] at hdigit
        exact hdigit
      have hten : (value + 1) * 10 * 10 ^ digits.length ≤ 2 ^ 16 := by
        rwa [List.length_cons, Nat.pow_succ, Nat.mul_comm (10 ^ _), ← Nat.mul_assoc] at hroom
      have hone : (value + 1) * 10 ≤ 2 ^ 16 :=
        Nat.le_trans (Nat.le_mul_of_pos_right _ (Nat.pow_pos (Nat.succ_pos 9))) hten
      have hnext : (value * 10 + (d.toNat - 48) + 1) * 10 ^ digits.length ≤ 2 ^ 16 :=
        Nat.le_trans (Nat.mul_le_mul_right _ (by omega)) hten
      have hproduct : product 16 value 10 = .ok (value * 10) := product_of_lt (by omega)
      have hdifference : difference d.toNat 48 = .ok (d.toNat - 48) := difference_of_le hd.1
      have hsum : sum 16 (value * 10) (d.toNat - 48) = .ok (value * 10 + (d.toNat - 48)) :=
        sum_of_lt (by omega)
      rw [List.foldlM_cons, List.foldl_cons, hproduct, hdifference]
      simp only [ok_bind, hsum]
      exact ih (fun b hb => hdigits b (List.mem_cons_of_mem d hb)) _ hnext

/-- Recognise what stands at the boundary between messages. -/
def sniff (text : Octets) : Except Mishap Framing.Start := do
  let digits := (text.takeWhile Octets.isDigit).length
  if digits = 0 then return if text.isEmpty then .undecided else .line
  if Framing.mostDigits < digits then return .line
  if digits = text.length then return .undecided
  let next ← item text digits
  if next ≠ Octets.space then return .line
  let run ← slice text 0 digits
  match number? run with
  | none => return .line
  | some length =>
      let headerLength ← sum wordBits digits 1
      return .counted length headerLength

theorem sniff_eq
    (text : Octets) :
    sniff text = .ok (Framing.sniff text) := by
  obtain ⟨digits, rest, rfl, hdigits, hrest⟩ := Framing.exists_digits text
  have hrun : (digits ++ rest).takeWhile Octets.isDigit = digits := by
    rw [List.takeWhile_append_of_pos hdigits]
    cases rest with
    | nil => simp
    | cons b tail => simp [hrest b tail rfl]
  rw [sniff, hrun]
  by_cases hlong : Framing.mostDigits < digits.length
  · have hpos : digits.length ≠ 0 := by omega
    rw [if_neg hpos, if_pos hlong, Framing.sniff_long hdigits hrest hlong]
    rfl
  have hshort : digits.length ≤ Framing.mostDigits := Nat.le_of_not_lt hlong
  cases rest with
  | nil =>
      rw [List.append_nil, Framing.sniff_digits hdigits hshort]
      cases digits with
      | nil => rfl
      | cons d digits => rw [if_neg (by simp), if_neg hlong, if_pos rfl, pure_eq_ok]
  | cons b tail =>
      have hmore : digits.length ≠ (digits ++ b :: tail).length := by simp
      have hnext : item (digits ++ b :: tail) digits.length = .ok b :=
        item_of_getElem? (by simp)
      have hdigitRun : slice (digits ++ b :: tail) 0 digits.length = .ok digits := by
        rw [slice_front (by simp), List.take_left]
      have hnumber : number? digits = some (Octets.decimal digits) := by
        have hlt := decimal_lt hdigits
        have hpow := Nat.pow_le_pow_right (Nat.succ_pos 9) hshort
        exact if_pos (Nat.lt_of_lt_of_le hlt (Nat.le_trans hpow (by decide)))
      have hsum : sum wordBits digits.length 1 = .ok (digits.length + 1) :=
        sum_of_lt (by simp only [wordBits, Framing.mostDigits] at hshort ⊢; omega)
      rw [Framing.sniff_ended hdigits (hrest b tail rfl) hshort]
      by_cases hnone : digits = []
      · subst hnone
        simp
      have hsome : digits.length ≠ 0 := mt List.eq_nil_of_length_eq_zero hnone
      rw [if_neg hsome, if_neg hlong, if_neg hmore]
      by_cases hspace : b = Octets.space
      · subst hspace
        rw [if_pos ⟨rfl, by omega⟩]
        simp only [hnext, ok_bind, hdigitRun, hnumber, hsum, pure_eq_ok, ne_eq,
          not_true_eq_false, if_false]
      · rw [if_neg fun h => hspace h.1]
        simp only [hnext, ok_bind, hspace, ne_eq, not_false_eq_true, if_true, pure_eq_ok]

/-- The priority at the front of a message, and where the rest of it begins. -/
def splitPriority (payload : Octets) : Except Mishap (Nat × Nat) := do
  if payload.head? ≠ some Record.openBracket then return (Record.defaultPriority, 0)
  let behind ← slice payload 1 payload.length
  let digits := (Record.priorityDigits behind).length
  if digits = 0 ∨ 3 < digits then return (Record.defaultPriority, 0)
  let stop ← sum wordBits 1 digits
  if payload[stop]? ≠ some Record.closeBracket then return (Record.defaultPriority, 0)
  let run ← slice payload 1 stop
  let value ← valueOf run
  if Record.mostPriority < value then return (Record.defaultPriority, 0)
  let start ← sum wordBits digits 2
  let _ ← slice payload start payload.length
  return (value % 256, start)

/-- What is left of a message begins within it, where the priority ends. -/
theorem splitPriority_eq
    (payload : Octets) :
    ∃ start, splitPriority payload = .ok ((Record.splitPriority payload).1, start) ∧
      start ≤ payload.length ∧ (Record.splitPriority payload).2 = payload.drop start := by
  cases payload with
  | nil => exact ⟨0, rfl, Nat.le_refl _, rfl⟩
  | cons first text =>
      rw [splitPriority, Record.splitPriority]
      by_cases hopen : first = Record.openBracket
      case neg =>
        exact ⟨0, by simp [hopen], Nat.zero_le _, by simp [hopen]⟩
      subst hopen
      have hback : slice (Record.openBracket :: text) 1 (Record.openBracket :: text).length =
          .ok text := slice_back (by simp)
      have htake : text.take (Record.priorityDigits text).length = Record.priorityDigits text := by
        refine (List.prefix_iff_eq_take.1 ?_).symm
        exact (List.takeWhile_prefix _).trans (List.take_prefix 4 text)
      have hdigits : ∀ d ∈ Record.priorityDigits text, Octets.isDigit d = true := fun d hd =>
        List.mem_takeWhile_imp hd
      simp only [hback, ok_bind, List.head?_cons, ne_eq, not_true_eq_false, if_false, false_or]
      generalize Record.priorityDigits text = digits at htake hdigits ⊢
      by_cases hcount : digits.length = 0 ∨ 3 < digits.length
      · exact ⟨0, by rw [if_pos hcount, if_pos hcount]; rfl, Nat.zero_le _,
          by rw [if_pos hcount]; rfl⟩
      have hsum : sum wordBits 1 digits.length = .ok (1 + digits.length) :=
        sum_of_lt (by simp only [wordBits]; omega)
      simp only [if_neg hcount, hsum, ok_bind]
      have hstop : (Record.openBracket :: text)[1 + digits.length]? =
          (text.drop digits.length).head? := by
        rw [Nat.add_comm, List.getElem?_cons_succ, List.head?_drop]
      rw [hstop]
      cases hrest : text.drop digits.length with
      | nil => exact ⟨0, by simp, Nat.zero_le _, rfl⟩
      | cons last rest =>
          have hlength : text.length = digits.length + (rest.length + 1) := by
            have hparts := congrArg List.length (List.take_append_drop digits.length text)
            rw [List.length_append, htake, hrest, List.length_cons] at hparts
            exact hparts.symm
          have hwhole : (Record.openBracket :: text).length = text.length + 1 := rfl
          have hrun : slice (Record.openBracket :: text) 1 (1 + digits.length) = .ok digits := by
            rw [slice_of_le (by omega) (by omega), Nat.add_sub_cancel_left, List.drop_succ_cons,
              List.drop_zero, htake]
          have hvalue : valueOf digits = .ok (Octets.decimal digits) :=
            valueOf_eq hdigits (by omega)
          have hstart : sum wordBits digits.length 2 = .ok (digits.length + 2) :=
            sum_of_lt (by simp only [wordBits]; omega)
          have hleft : slice (Record.openBracket :: text) (digits.length + 2)
              (Record.openBracket :: text).length = .ok rest := by
            rw [slice_back (by omega), List.drop_succ_cons, ← List.drop_drop, hrest]
            rfl
          simp only [List.head?_cons, Option.some.injEq, hrun, hvalue, hstart, hleft, ok_bind,
            pure_eq_ok]
          by_cases hclose : last = Record.closeBracket
          case neg => exact ⟨0, by simp [hclose], Nat.zero_le _, by simp [hclose]⟩
          by_cases hlarge : Record.mostPriority < Octets.decimal digits
          · exact ⟨0, by simp [hclose, hlarge], Nat.zero_le _, by simp [hlarge]⟩
          · have hbyte : Octets.decimal digits % 256 = Octets.decimal digits :=
              Nat.mod_eq_of_lt (by simp only [Record.mostPriority] at hlarge; omega)
            refine ⟨digits.length + 2, by simp [hclose, hlarge, hbyte], by omega, ?_⟩
            rw [if_neg (by simp [hclose, hlarge]), List.drop_succ_cons, ← List.drop_drop, hrest]
            rfl

/-- Where a stretch of a text ends without one octet at its end. -/
def trimmed (b : UInt8) (text : Octets) (start stop : Nat) : Nat :=
  if start < stop ∧ text[stop - 1]? = some b then stop - 1 else stop

theorem trimmed_eq
    (b : UInt8)
    {text : Octets}
    {start stop : Nat}
    (hstart : start ≤ stop)
    (hstop : stop ≤ text.length) :
    start ≤ trimmed b text start stop ∧ trimmed b text start stop ≤ stop ∧
      (text.drop start).take (trimmed b text start stop - start) =
        Octets.trimLast b ((text.drop start).take (stop - start)) := by
  rcases Nat.eq_or_lt_of_le hstart with rfl | hlt
  · simp [trimmed, Octets.trimLast]
  · have hlength : ((text.drop start).take (stop - start)).length = stop - start := by
      rw [List.length_take, List.length_drop]
      omega
    have hlast : ((text.drop start).take (stop - start)).getLast? = text[stop - 1]? := by
      rw [List.getLast?_eq_getElem?, hlength, List.getElem?_take_of_lt (by omega),
        List.getElem?_drop]
      congr 1
      omega
    rw [trimmed, Octets.trimLast, hlast]
    by_cases hb : text[stop - 1]? = some b
    · rw [if_pos ⟨hlt, hb⟩, if_pos hb, List.dropLast_eq_take, hlength, List.take_take]
      refine ⟨by omega, by omega, ?_⟩
      congr 1
      omega
    · rw [if_neg fun h => hb h.2, if_neg hb]
      exact ⟨hstart, Nat.le_refl _, rfl⟩

/-- The record of a frame that came over a connection. -/
def ofFrame (frame : Frame) (c : Connection) : Except Mishap Record := do
  let (priority, start) ← splitPriority frame.payload
  let end₁ := trimmed Octets.lineFeed frame.payload start frame.payload.length
  let end₂ := trimmed Octets.carriageReturn frame.payload start end₁
  let body ← slice frame.payload start end₂
  return {
    facility := priority / 8
    severity := priority % 8
    body
    source := c.source
    destination := c.destination
    peerName := c.tlsPeer.bind PeerIdentity.commonName
    framing := frame.mode }

theorem ofFrame_eq
    (frame : Frame)
    (c : Connection) :
    ofFrame frame c = .ok (Record.ofFrame frame c) := by
  obtain ⟨start, hsplit, hstart, hrest⟩ := splitPriority_eq frame.payload
  have hfeed := trimmed_eq Octets.lineFeed hstart (Nat.le_refl _)
  have hreturn := trimmed_eq Octets.carriageReturn hfeed.1 hfeed.2.1
  have hall : (frame.payload.drop start).take (frame.payload.length - start) =
      (Record.splitPriority frame.payload).2 := by
    rw [hrest, List.take_of_length_le (Nat.le_of_eq List.length_drop)]
  have hbody := slice_of_le hreturn.1 (Nat.le_trans hreturn.2.1 hfeed.2.1)
  rw [hreturn.2.2, hfeed.2.2, hall] at hbody
  simp only [ofFrame, hsplit, ok_bind, hbody]
  rfl

def priority (record : Record) : Except Mishap Nat := do
  let eights ← product 8 record.facility 8
  sum 8 eights record.severity

/-- The priority of a record that was made of a frame fits an octet. -/
theorem priority_eq
    (frame : Frame)
    (c : Connection) :
    priority (.ofFrame frame c) = .ok (Record.ofFrame frame c).priority := by
  have hle := Record.splitPriority_le frame.payload
  simp only [Record.mostPriority] at hle
  have hproduct : product 8 ((Record.splitPriority frame.payload).1 / 8) 8 =
      .ok ((Record.splitPriority frame.payload).1 / 8 * 8) := product_of_lt (by omega)
  simp only [priority, Record.priority, Record.ofFrame, hproduct, ok_bind]
  exact sum_of_lt (by omega)

end Careful
end SyslogIntake
