import Mathlib.Data.List.Basic
import SyslogIntake.Proofs.Output.Traffic

/-!
# The books of the senders

Whoever sends records, and in whatever order they come to be taken: the records of one connection
are put into the queue in the order in which it has decoded them, each at most once, and each
that is taken is counted, at once or in the next step of its connection.

**Results.**

* `Books` : what the connections, the log and the count have to do with each other;
* `step_books`, `run_books` : no event disturbs it, and so no course of events does.
-/

namespace SyslogIntake

/-- Changing one element of a list changes how many there are of a kind by this one. -/
theorem List.countP_modify
    {α : Type} {p : α → Bool} {f : α → α} {l : List α} {i : Nat} {a : α}
    (h : l[i]? = some a) :
    (l.modify i f).countP p + (p a).toNat = l.countP p + (p (f a)).toNat := by
  induction l generalizing i with
  | nil => cases h
  | cons b l ih =>
      cases i with
      | zero =>
          obtain rfl := Option.some.inj h
          rw [List.modify_zero_cons, List.countP_cons, List.countP_cons]
          cases p b <;> cases p (f b) <;> simp
      | succ i =>
          have hrest := ih (i := i) h
          rw [List.modify_succ_cons, List.countP_cons, List.countP_cons]
          omega

/-- What a connection has sent is what it has decoded, but for the latest message. -/
def Sender.Faithful (s : Sender) : Prop :=
  match s.stage with
  | .sending record => s.decoded = s.accepted ++ [record]
  | .reading | .sent => s.decoded = s.accepted
  | .refused | .gone => s.accepted <+: s.decoded

namespace Sender

variable {s : Sender}

/-- A connection sends in the order of decoding. -/
theorem Faithful.accepted_prefix
    (h : s.Faithful) :
    s.accepted <+: s.decoded := by
  unfold Faithful at h
  split at h
  · exact h ▸ List.prefix_append ..
  · exact h ▸ List.prefix_refl _
  · exact h ▸ List.prefix_refl _
  · exact h
  · exact h

theorem faithful_decode
    (record : Record)
    (h : s.Faithful) :
    (s.decode record).Faithful := by
  rcases s with ⟨decoded, accepted, stage⟩
  cases stage with
  | reading =>
      have hsame : decoded = accepted := h
      exact congrArg (· ++ [record]) hsame
  | sending other => exact h
  | sent => exact h
  | refused => exact h
  | gone => exact h

theorem faithful_leave
    (h : s.Faithful) :
    s.leave.Faithful := by
  have hprefix := h.accepted_prefix
  rcases s with ⟨decoded, accepted, stage⟩
  cases stage with
  | sent => exact h
  | reading => exact hprefix
  | sending record => exact hprefix
  | refused => exact hprefix
  | gone => exact hprefix

theorem isUncounted_decode
    (record : Record)
    (s : Sender) :
    (s.decode record).isUncounted = s.isUncounted := by
  rcases s with ⟨decoded, accepted, stage⟩
  cases stage <;> rfl

theorem isUncounted_leave
    (s : Sender) :
    s.leave.isUncounted = s.isUncounted := by
  rcases s with ⟨decoded, accepted, stage⟩
  cases stage <;> rfl

theorem accepted_decode
    (record : Record)
    (s : Sender) :
    (s.decode record).accepted = s.accepted := by
  rcases s with ⟨decoded, accepted, stage⟩
  cases stage <;> rfl

theorem accepted_leave
    (s : Sender) :
    s.leave.accepted = s.accepted := by
  rcases s with ⟨decoded, accepted, stage⟩
  cases stage <;> rfl

theorem stage_of_sending?
    {record : Record}
    (h : s.sending? = some record) :
    s.stage = .sending record := by
  rcases s with ⟨decoded, accepted, stage⟩
  cases stage <;> cases h
  rfl

theorem stage_of_isUncounted
    (h : s.isUncounted = true) :
    s.stage = .sent :=
  eq_of_beq h

end Sender

namespace Traffic

/-- The records in a log that one connection has sent. -/
def sentBy (id : Nat) (log : List (Nat × Record)) : List Record :=
  (log.filter (·.1 == id)).map Prod.snd

/-- What the connections, the log and the count of records have to do with each other. -/
structure Books (t : Traffic) : Prop where
  counted : t.service.counters.records + t.senders.countP Sender.isUncounted = t.log.length
  ledger : ∀ {id s}, t.senders[id]? = some s → s.accepted = sentBy id t.log ∧ s.Faithful
  known : ∀ x ∈ t.log, x.1 < t.senders.length

theorem books_start
    (sink : Sink) :
    (start sink).Books where
  counted := rfl
  ledger h := nomatch h
  known _ h := nomatch h

variable {t : Traffic} {id : Nat} {s : Sender} {record : Record} {f : Sender → Sender}

/-- Behind a change, a connection is as before, or it is the one that was changed. -/
theorem cases_of_change
    {other : Nat} {next : Sender}
    (h : (t.change id f).senders[other]? = some next) :
    id ≠ other ∧ t.senders[other]? = some next ∨
      id = other ∧ ∃ s, t.senders[id]? = some s ∧ next = f s := by
  have hmodify : (t.change id f).senders[other]? =
      (fun s => if id = other then f s else s) <$> t.senders[other]? := List.getElem?_modify ..
  rw [hmodify] at h
  obtain ⟨s, hs, rfl⟩ := Option.map_eq_some_iff.1 h
  by_cases hid : id = other
  · exact .inr ⟨hid, s, hid ▸ hs, if_pos hid⟩
  · exact .inl ⟨hid, hs.trans (congrArg some (if_neg hid).symm)⟩

/-- A change that neither takes a record nor counts one. -/
theorem Books.change
    (h : t.Books)
    (haccepted : ∀ s, t.senders[id]? = some s → (f s).accepted = s.accepted)
    (hfaithful : ∀ s, t.senders[id]? = some s → s.Faithful → (f s).Faithful)
    (huncounted : ∀ s, t.senders[id]? = some s → (f s).isUncounted = s.isUncounted) :
    (t.change id f).Books where
  counted := by
    refine Eq.trans (congrArg (t.service.counters.records + ·) ?_) h.counted
    cases hs : t.senders[id]? with
    | none =>
        have hbehind : t.senders.length ≤ id := List.getElem?_eq_none_iff.1 hs
        exact congrArg _ (List.modify_eq_self hbehind)
    | some s =>
        have hcount := List.countP_modify (p := Sender.isUncounted) (f := f) hs
        rw [huncounted s hs] at hcount
        exact Nat.add_right_cancel hcount
  ledger {other next} hnext := by
    rcases cases_of_change hnext with ⟨-, hsame⟩ | ⟨rfl, s, hs, rfl⟩
    · exact h.ledger hsame
    · obtain ⟨hledger, hbefore⟩ := h.ledger hs
      exact ⟨(haccepted s hs).trans hledger, hfaithful s hs hbefore⟩
  known x hx := by
    rw [Traffic.change, List.length_modify]
    exact h.known x hx

theorem books_join
    (h : t.Books) :
    t.join.Books := by
  unfold join
  split
  · exact h
  refine ⟨?_, ?_, ?_⟩
  · rw [List.countP_append, List.countP_singleton]
    exact h.counted
  · intro other s hs
    rcases Nat.lt_or_ge other t.senders.length with hlt | hge
    · rw [List.getElem?_append_left hlt] at hs
      exact h.ledger hs
    · rw [List.getElem?_append_right hge] at hs
      have hnone : sentBy other t.log = [] := by
        rw [sentBy, List.filter_eq_nil_iff.2, List.map_nil]
        intro x hx hother
        have hknown := h.known x hx
        rw [eq_of_beq hother] at hknown
        omega
      obtain rfl : Sender.start = s := by
        cases hplace : other - t.senders.length with
        | zero => rw [hplace] at hs; exact Option.some.inj hs
        | succ place => rw [hplace] at hs; cases hs
      exact ⟨hnone.symm, rfl⟩
  · intro x hx
    have hknown := h.known x hx
    rw [List.length_append]
    exact Nat.lt_add_right 1 hknown

theorem books_copy
    (h : t.Books) :
    t.copy.Books := by
  unfold copy
  split
  · exact h
  · exact ⟨h.counted, h.ledger, h.known⟩

theorem exists_of_sending?
    (h : t.sending? id = some record) :
    ∃ s, t.senders[id]? = some s ∧ s.stage = .sending record := by
  obtain ⟨s, hs, hrecord⟩ := Option.bind_eq_some_iff.1 h
  exact ⟨s, hs, Sender.stage_of_sending? hrecord⟩

theorem sentBy_append
    (id other : Nat)
    (record : Record)
    (log : List (Nat × Record)) :
    sentBy other (log ++ [(id, record)]) =
      sentBy other log ++ if id = other then [record] else [] := by
  by_cases hid : id = other <;> simp [sentBy, hid]

/-- The record of a connection comes last of those that it has sent, and is yet to be counted. -/
theorem books_accept
    (h : t.Books)
    (hs : t.senders[id]? = some s)
    (hstage : s.stage = .sending record) :
    (t.accept id record).Books where
  counted := by
    have hcount := List.countP_modify (p := Sender.isUncounted) (f := .accept record) hs
    have hbefore : s.isUncounted = false := by rw [Sender.isUncounted, hstage]; rfl
    have hcounted := h.counted
    rw [hbefore] at hcount
    have hafter : (s.accept record).isUncounted = true := rfl
    rw [hafter] at hcount
    simp only [Bool.toNat_true, Bool.toNat_false, Nat.add_zero] at hcount
    change t.service.counters.records +
      (t.senders.modify id (.accept record)).countP Sender.isUncounted =
        (t.log ++ [(id, record)]).length
    rw [hcount, List.length_append, ← hcounted]
    exact (Nat.add_assoc ..).symm
  ledger {other next} hnext := by
    change _ = sentBy other (t.log ++ [(id, record)]) ∧ _
    rw [sentBy_append]
    rcases cases_of_change hnext with ⟨hid, hsame⟩ | ⟨rfl, before, hbefore, rfl⟩
    · rw [if_neg hid, List.append_nil]
      exact h.ledger hsame
    · obtain rfl : s = before := Option.some.inj (hs.symm.trans hbefore)
      obtain ⟨hledger, hfaithful⟩ := h.ledger hs
      rw [if_pos rfl, ← hledger]
      refine ⟨rfl, ?_⟩
      unfold Sender.Faithful at hfaithful
      rw [hstage] at hfaithful
      exact hfaithful
  known x hx := by
    have hlength : (t.accept id record).senders.length = t.senders.length := List.length_modify ..
    rw [hlength]
    rcases List.mem_append.1 hx with hold | hnew
    · exact h.known x hold
    · rw [List.mem_singleton.1 hnew]
      exact (List.getElem?_eq_some_iff.1 hs).1

theorem books_send
    (h : t.Books) :
    (t.send id).Books := by
  unfold send
  split
  · exact h
  · rename_i record hsending
    obtain ⟨s, hs, hstage⟩ := exists_of_sending? hsending
    split
    · split
      · exact books_accept h hs hstage
      · exact h
    · refine h.change (fun _ _ => rfl) (fun other hother hfaithful => hfaithful.accepted_prefix)
        fun other hother => ?_
      obtain rfl : s = other := Option.some.inj (hs.symm.trans hother)
      rw [Sender.isUncounted, Sender.isUncounted, hstage]
      rfl

theorem books_count
    (h : t.Books) :
    (t.count id).Books := by
  unfold count
  split
  case isFalse => exact h
  rename_i hsome
  obtain ⟨s, hs, huncounted⟩ := (Option.any_eq_true ..).1 hsome
  have hstage := Sender.stage_of_isUncounted huncounted
  refine ⟨?_, ?_, ?_⟩
  · have hcount := List.countP_modify (p := Sender.isUncounted) (f := .goOn) hs
    have hcounted := h.counted
    have hafter : s.goOn.isUncounted = false := rfl
    rw [huncounted, hafter] at hcount
    change t.service.counters.records + 1 +
      (t.senders.modify id .goOn).countP Sender.isUncounted = t.log.length
    simp only [Bool.toNat_true, Bool.toNat_false] at hcount
    omega
  · intro other next hnext
    rcases cases_of_change hnext with ⟨-, hsame⟩ | ⟨rfl, before, hbefore, rfl⟩
    · exact h.ledger hsame
    · obtain rfl : s = before := Option.some.inj (hs.symm.trans hbefore)
      obtain ⟨hledger, hfaithful⟩ := h.ledger hs
      unfold Sender.Faithful at hfaithful
      rw [hstage] at hfaithful
      exact ⟨hledger, hfaithful⟩
  · intro x hx
    rw [show (t.change id .goOn).senders.length = t.senders.length from List.length_modify ..]
    exact h.known x hx

theorem books_obey
    (h : t.Books)
    (what : Call) :
    (t.obey what).Books := by
  cases what with
  | join => exact books_join h
  | copy => exact books_copy h
  | drop => exact ⟨h.counted, h.ledger, h.known⟩
  | decode id record =>
      exact h.change (fun s _ => s.accepted_decode record)
        (fun _ _ => Sender.faithful_decode record) fun s _ => s.isUncounted_decode record
  | send id => exact books_send h
  | count id => exact books_count h
  | leave id =>
      exact h.change (fun s _ => s.accepted_leave) (fun _ _ => Sender.faithful_leave)
        fun s _ => s.isUncounted_leave

theorem same_write
    (t : Traffic)
    (what : Work) :
    (t.write what).senders = t.senders ∧ (t.write what).log = t.log ∧
      (t.write what).spare = t.spare ∧ (t.write what).service.counters = t.service.counters := by
  cases what with
  | take => rw [write, take]; split <;> exact ⟨rfl, rfl, rfl, rfl⟩
  | drain => rw [write, drain]; split <;> exact ⟨rfl, rfl, rfl, rfl⟩
  | finish => rw [write, finish]; split <;> exact ⟨rfl, rfl, rfl, rfl⟩
  | spill n => rw [write, spill]; split <;> exact ⟨rfl, rfl, rfl, rfl⟩
  | settle =>
      rw [write, settle]
      split
      · rw [flushed]; split <;> exact ⟨rfl, rfl, rfl, rfl⟩
      · rw [flushed]; split <;> exact ⟨rfl, rfl, rfl, rfl⟩
      all_goals exact ⟨rfl, rfl, rfl, rfl⟩
  | fail n report => rw [write, fail]; split <;> exact ⟨rfl, rfl, rfl, rfl⟩

theorem step_books
    (h : t.Books)
    (event : Event) :
    (t.step event).Books := by
  cases event with
  | call what => exact books_obey h what
  | work what =>
      by_cases hrunning : t.sink.isRunning
      case neg =>
        rw [step, if_neg hrunning]
        exact h
      rw [step, if_pos hrunning]
      obtain ⟨hsenders, hlog, -, hcounters⟩ := same_write t what
      refine ⟨?_, ?_, ?_⟩
      · rw [hcounters, hsenders, hlog]
        exact h.counted
      · rw [hsenders, hlog]
        exact h.ledger
      · rw [hlog, hsenders]
        exact h.known

theorem run_books
    (h : t.Books)
    (events : List Event) :
    (t.run events).Books := by
  induction events generalizing t with
  | nil => exact h
  | cons event events ih => exact ih (step_books h event)

end Traffic
end SyslogIntake
