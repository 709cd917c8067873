import SyslogIntake.Stream.Channel
import SyslogIntake.Stream.Inquiry

/-!
# Streams that are recorded

A recorder is put around a stream and remembers what every read of it brought.  Look-ahead
and channels may lie over it in any number of layers.  Between the recorder and whoever
reads on top, every layer holds octets that were delivered and not passed on yet, and a layer
that has met the end closes what lies below it.

**Results.**

* `Recording.Reads.account` : a read passes on what is held, or what the recorder hears at that
  moment;
* `Lookahead.fillMore_records` : filling a buffer keeps everything that was delivered;
* `Lookahead.fill_records` : so does filling it up to a number of octets, and the recorder is
  not read once they are there.
-/

namespace SyslogIntake

/-- The octets that a read has delivered. -/
def Delivery.text : Delivery → Octets
  | .octets text => text
  | .failed _ | .late => []

/-- The octets that several reads have delivered, in their order. -/
def Delivery.textOf (deliveries : List Delivery) : Octets :=
  deliveries.flatMap Delivery.text

@[simp]
theorem Delivery.textOf_nil :
    textOf [] = [] :=
  rfl

@[simp]
theorem Delivery.textOf_singleton
    (d : Delivery) :
    textOf [d] = d.text := by
  simp [textOf]

@[simp]
theorem Delivery.textOf_append
    (early late : List Delivery) :
    textOf (early ++ late) = textOf early ++ textOf late := by
  simp [textOf]

/-- A stream, and what the reads of it have brought. -/
structure Recorder (σ : Type) where
  inner : σ
  heard : List Delivery

/-- A recorder around a stream that was not read yet. -/
def Recorder.start {σ : Type} (inner : σ) : Recorder σ :=
  ⟨inner, []⟩

instance {σ : Type} [ByteStream σ] : ByteStream (Recorder σ) where
  read want limit r :=
    ((ByteStream.read want limit r.inner).1,
      ⟨(ByteStream.read want limit r.inner).2,
        r.heard ++ [(ByteStream.read want limit r.inner).1]⟩)
  now r := ByteStream.now r.inner
  pass time r := { r with inner := ByteStream.pass time r.inner }
  backlog r := ByteStream.backlog r.inner
  backlog_read want limit r text h := ByteStream.backlog_read want limit r.inner text h

/-- A stream with a recorder somewhere below it. -/
class Recording (τ : Type) where
  /-- What the recorder has heard. -/
  heard : τ → List Delivery
  /-- The octets that were delivered and not passed on yet. -/
  held : τ → Octets
  /-- Whether a layer above the recorder has met the end. -/
  Closed : τ → Prop

open Recording in
/--
How a read shows in the record: it passes on what is held, which is nothing only behind an
end; or nothing is held, and it passes on what the recorder hears at that moment.
-/
inductive Recording.Reads {τ : Type} [Recording τ] (want : Nat) (s next : τ) :
    Delivery → Prop
  | passed
      {text : Octets}
      (hheard : heard next = heard s)
      (hheld : held s = text ++ held next)
      (hnothing : 0 < want → text = [] → Closed s) :
      Reads want s next (.octets text)
  | listened
      {d : Delivery}
      (hempty : held s = [])
      (hopen : ¬Closed s)
      (hheard : heard next = heard s ++ [d])
      (hnothing : held next = []) :
      Reads want s next d

/-- Streams whose reads show in the record. -/
class Recorded (τ : Type) [ByteStream τ] extends Recording τ where
  /-- A read passes on what is held, or what the recorder hears. -/
  reads : ∀ (want : Nat) (limit : Option Nat) (s : τ),
    Recording.Reads want s (ByteStream.read want limit s).2 (ByteStream.read want limit s).1
  /-- No layer meets the end in a read. -/
  closed_read : ∀ (want : Nat) (limit : Option Nat) (s : τ),
    Closed (ByteStream.read want limit s).2 ↔ Closed s

namespace Recording

variable {τ : Type} [Recording τ] {want : Nat} {s next : τ} {d : Delivery}

/-- What is held and then heard is what was passed on and what is held after that. -/
theorem Reads.account
    (h : Reads want s next d) :
    ∃ news, heard next = heard s ++ news ∧
      held s ++ Delivery.textOf news = d.text ++ held next ∧
      (news = [] ∨ held s = [] ∧ ¬Closed s ∧ news = [d]) := by
  cases h with
  | passed hheard hheld hnothing =>
      refine ⟨[], by simp [hheard], ?_, Or.inl rfl⟩
      simpa [Delivery.text] using hheld
  | listened hempty hopen hheard hnothing =>
      exact ⟨[d], hheard, by simp [hempty, hnothing], Or.inr ⟨hempty, hopen, rfl⟩⟩

/-- A layer that has met the end did so when the recorder heard nothing more. -/
def Sealed (s : τ) : Prop :=
  Closed s → (heard s).getLast? = some (.octets [])

/-- A read that brings nothing comes from an end, old or new. -/
theorem Reads.nothing
    (h : Reads want s next (.octets []))
    (hwant : 0 < want)
    (hsealed : Sealed s) :
    (heard next).getLast? = some (.octets []) := by
  cases h with
  | passed hheard hheld hnothing =>
      rw [hheard]
      exact hsealed (hnothing hwant rfl)
  | listened hempty hopen hheard hnothing =>
      simp [hheard]

theorem Reads.failed
    {report : String}
    (h : Reads want s next (.failed report)) :
    held s = [] ∧ held next = [] ∧ heard next = heard s ++ [.failed report] := by
  cases h with
  | listened hempty hopen hheard hnothing =>
      exact ⟨hempty, hnothing, hheard⟩

theorem Reads.closed
    (h : Reads want s next d)
    (hclosed : Closed s) :
    heard next = heard s := by
  cases h with
  | passed hheard hheld hnothing =>
      exact hheard
  | listened hempty hopen hheard hnothing =>
      exact absurd hclosed hopen

end Recording

open Recording

instance {σ : Type} : Recording (Recorder σ) where
  heard r := r.heard
  held _ := []
  Closed _ := False

instance {σ : Type} [ByteStream σ] : Recorded (Recorder σ) where
  reads _ _ _ := .listened rfl not_false rfl rfl
  closed_read _ _ _ := Iff.rfl

namespace Lookahead

variable {τ : Type}

instance [Recording τ] : Recording (Lookahead τ) where
  heard l := heard l.inner
  held l := l.buffer ++ held l.inner
  Closed l := l.ended = true ∨ Closed l.inner

variable [ByteStream τ] [Recorded τ]

/-- A read of look-ahead takes from its buffer, or from below when that is empty. -/
theorem read_reads
    (want : Nat)
    (limit : Option Nat)
    (l : Lookahead τ) :
    Reads want l (l.read want limit).2 (l.read want limit).1 := by
  unfold read
  split
  · rename_i hbuffer
    refine .passed rfl ?_ fun hwant hnothing => ?_
    · simp [held, consume, leaving, ← List.append_assoc]
    · rcases List.take_eq_nil_iff.1 hnothing with hzero | hnil
      · exact absurd hzero (Nat.ne_of_gt hwant)
      · exact absurd hnil hbuffer
  · rename_i hbuffer
    have hbuffer : l.buffer = [] := by simpa using hbuffer
    split
    · rename_i hended
      exact .passed rfl rfl fun _ _ => Or.inl hended
    · rename_i hended
      have hinner := Recorded.reads want limit l.inner
      rcases hread : ByteStream.read want limit l.inner with ⟨d, next⟩
      rw [hread] at hinner
      cases hinner with
      | passed hheard hheld hnothing =>
          refine .passed hheard ?_ fun hwant htext => Or.inr (hnothing hwant htext)
          simpa [held, hbuffer] using hheld
      | listened hempty hopen hheard hnothing =>
          refine .listened ?_ (fun h => hopen (h.resolve_left hended)) hheard ?_
          · simpa [held, hbuffer] using hempty
          · simpa [held, hbuffer] using hnothing

theorem closed_read
    (want : Nat)
    (limit : Option Nat)
    (l : Lookahead τ) :
    Closed (l.read want limit).2 ↔ Closed l := by
  unfold read
  split
  · exact Iff.rfl
  · split
    · exact Iff.rfl
    · exact or_congr Iff.rfl (Recorded.closed_read want limit l.inner)

omit [Recorded τ] in
/-- A read that fails changes neither the buffer nor the mark of the end. -/
theorem read_failed
    {want : Nat} {limit : Option Nat} {l : Lookahead τ} {report : String}
    (h : (l.read want limit).1 = .failed report) :
    (l.read want limit).2.buffer = l.buffer ∧ (l.read want limit).2.ended = l.ended := by
  unfold read at h ⊢
  split
  · rename_i hbuffer
    simp [hbuffer] at h
  · split
    · exact ⟨rfl, rfl⟩
    · exact ⟨rfl, rfl⟩

instance : Recorded (Lookahead τ) where
  reads := read_reads
  closed_read := closed_read

/-- How filling a buffer once shows in the record, with what it says and what is heard. -/
structure FillsOnce (l next : Lookahead τ) (d : Delivery) (news : List Delivery) : Prop where
  /-- The record has grown by what is heard. -/
  heard : heard next = heard l ++ news
  /-- What is said to be added is added. -/
  added : next.buffer = l.buffer ++ d.text
  /-- Everything that was delivered is kept. -/
  kept : held l ++ Delivery.textOf news = held next
  /-- The recorder is read at most once, and only if nothing is held below the buffer. -/
  frugal : news = [] ∨ held l = l.buffer ∧ ¬Closed l ∧ news = [d]
  /-- A failure is heard. -/
  failed : ∀ {report}, d = .failed report → news = [.failed report]
  /-- The end is met where nothing is added. -/
  ended : next.ended = true ↔ l.ended = true ∨ d = .octets []
  /-- The layers below have not met the end. -/
  below : Closed next.inner ↔ Closed l.inner
  /-- The end is met when the recorder hears nothing more. -/
  isSealed : Sealed l → Sealed next

/-- Filling a buffer keeps everything that was delivered. -/
theorem fillMore_records
    (limit : Option Nat)
    (l : Lookahead τ) :
    ∃ news, FillsOnce l (l.fillMore limit).2 (l.fillMore limit).1 news := by
  by_cases hended : l.ended = true
  · rw [fillMore_ended limit hended]
    exact ⟨[], by simp, by simp [Delivery.text], by simp, Or.inl rfl, by simp, by simp [hended],
      Iff.rfl, id⟩
  · have hinner := Recorded.reads portion limit l.inner
    have hbelow := Recorded.closed_read portion limit l.inner
    unfold fillMore
    rw [if_neg hended]
    rcases hread : ByteStream.read portion limit l.inner with ⟨d, next⟩
    rw [hread] at hinner hbelow
    obtain ⟨news, hheard, hkept, hfrugal⟩ := hinner.account
    have honce : news = [] ∨ held l = l.buffer ∧ ¬Closed l ∧ news = [d] := by
      rcases hfrugal with hnone | ⟨hempty, hopen, hnews⟩
      · exact Or.inl hnone
      · exact Or.inr ⟨by simp [held, hempty], fun h => hopen (h.resolve_left hended), hnews⟩
    have hlast : Sealed l → d = .octets [] → (heard next).getLast? = some (.octets []) := by
      rintro hsealed rfl
      exact hinner.nothing (by decide) fun hclosed => hsealed (Or.inr hclosed)
    have hsame : Sealed l → Closed next → (heard next).getLast? = some (.octets []) := by
      intro hsealed hclosed
      have hclosed := hbelow.1 hclosed
      rw [hinner.closed hclosed]
      exact hsealed (Or.inr hclosed)
    refine ⟨news, ?_⟩
    cases d with
    | octets text =>
        refine ⟨hheard, rfl, ?_, honce, ?_, ?_, hbelow, ?_⟩
        · simpa [held, List.append_assoc, Delivery.text] using hkept
        · simp
        · simp [hended]
        · rintro hsealed (hnothing | hclosed)
          · exact hlast hsealed (by simpa using hnothing)
          · exact hsame hsealed hclosed
    | failed report =>
        refine ⟨hheard, by simp [Delivery.text], ?_, honce, ?_, by simp, hbelow, ?_⟩
        · simpa [held, Delivery.text] using hkept
        · rintro other hreport
          rw [hreport] at hinner
          exact List.append_cancel_left (hheard.symm.trans hinner.failed.2.2)
        · rintro hsealed (hnothing | hclosed)
          · exact absurd hnothing hended
          · exact hsame hsealed hclosed
    | late =>
        refine ⟨hheard, by simp [Delivery.text], ?_, honce, by simp, by simp, hbelow, ?_⟩
        · simpa [held, Delivery.text] using hkept
        · rintro hsealed (hnothing | hclosed)
          · exact absurd hnothing hended
          · exact hsame hsealed hclosed

/-- Fill the buffer until it holds a number of octets. -/
def fill (count : Nat) (limit : Option Nat) (l : Lookahead τ) :
    Reached Unit Bool × Lookahead τ :=
  (filling count).run limit () l

omit [Recorded τ] in
theorem fill_of_le
    {count : Nat} {l : Lookahead τ}
    (h : count ≤ l.buffer.length)
    (limit : Option Nat) :
    l.fill count limit = (.answer true, l) :=
  Inquiry.run_of_settled (by simp [filling, h])

omit [Recorded τ] in
theorem fill_of_lt
    {count : Nat} {l : Lookahead τ}
    (h : l.buffer.length < count)
    (limit : Option Nat) :
    l.fill count limit =
      match l.fillMore limit with
      | (.octets [], next) => (.answer false, next)
      | (.octets (_ :: _), next) => next.fill count limit
      | (.failed report, next) => (.failed () report, next)
      | (.late, next) => (.late (), next) := by
  have hlook : (filling count).look () l.buffer = .wanting () l.buffer := by
    simp [filling, Nat.not_le.mpr h]
  unfold fill
  rw [Inquiry.run, hlook]
  dsimp only
  split
  · rename_i hfill
    rw [show l.fillMore limit = _ from hfill]
    rfl
  · rename_i hfill
    rw [show l.fillMore limit = _ from hfill]
  · rename_i hfill
    rw [show l.fillMore limit = _ from hfill]
  · rename_i hfill
    rw [show l.fillMore limit = _ from hfill]

/-- What filling a buffer up to a number of octets says about it. -/
def FillTells (count : Nat) (l next : Lookahead τ) (news : List Delivery) :
    Reached Unit Bool → Prop
  | .answer true => count ≤ next.buffer.length ∧ next.ended = l.ended
  | .answer false => next.buffer.length < count ∧ next.ended = true
  | .failed _ report => news.getLast? = some (.failed report) ∧ next.ended = l.ended
  | .late _ => next.ended = l.ended

omit [ByteStream τ] [Recorded τ] in
/-- What is said after filling once is said of the whole. -/
theorem FillTells.after
    {count : Nat} {l next after : Lookahead τ} {more : List Delivery}
    {reached : Reached Unit Bool}
    (h : FillTells count next after more reached)
    (hended : next.ended = l.ended)
    (news : List Delivery) :
    FillTells count l after (news ++ more) reached := by
  match reached, h with
  | .answer true, h => exact ⟨h.1, h.2.trans hended⟩
  | .answer false, h => exact h
  | .failed _ report, h =>
      exact ⟨by rw [List.getLast?_append, h.1, Option.some_or], h.2.trans hended⟩
  | .late _, h => exact h.trans hended

omit [ByteStream τ] [Recorded τ] in
theorem FillTells.ended
    {count : Nat} {l next : Lookahead τ} {news : List Delivery} {reached : Reached Unit Bool}
    (h : FillTells count l next news reached)
    (hended : l.ended = true) :
    next.ended = true := by
  match reached, h with
  | .answer true, h => exact h.2.trans hended
  | .answer false, h => exact h.2
  | .failed _ report, h => exact h.2.trans hended
  | .late _, h => exact h.trans hended

/-- How filling a buffer up to a number of octets shows in the record. -/
structure FillsUp (count : Nat) (l next : Lookahead τ) (reached : Reached Unit Bool)
    (news : List Delivery) : Prop where
  /-- The record has grown by what is heard. -/
  heard : heard next = heard l ++ news
  /-- The buffer has grown. -/
  added : l.buffer <+: next.buffer
  /-- Everything that was delivered is kept. -/
  kept : held l ++ Delivery.textOf news = held next
  /-- The recorder is only read while there are fewer octets than were asked for. -/
  frugal : ∀ front d back, news = front ++ d :: back →
    ¬Closed l ∧ (held l ++ Delivery.textOf front).length < count
  /-- The layers below have not met the end. -/
  below : Closed next.inner ↔ Closed l.inner
  /-- The end is met when the recorder hears nothing more. -/
  isSealed : Sealed l → Sealed next
  /-- What is said about the buffer holds. -/
  told : FillTells count l next news reached

/-- What is added to the buffer was held below it, or is heard. -/
theorem FillsUp.moved
    {count : Nat} {l next : Lookahead τ} {reached : Reached Unit Bool} {news : List Delivery}
    (h : FillsUp count l next reached news) :
    ∃ more, next.buffer = l.buffer ++ more ∧
      held l.inner ++ Delivery.textOf news = more ++ held next.inner := by
  obtain ⟨more, hmore⟩ := h.added
  refine ⟨more, hmore.symm, ?_⟩
  have hkept : l.buffer ++ held l.inner ++ Delivery.textOf news =
      next.buffer ++ held next.inner := h.kept
  rw [← hmore, List.append_assoc, List.append_assoc] at hkept
  exact List.append_cancel_left hkept

theorem FillsUp.closed
    {count : Nat} {l next : Lookahead τ} {reached : Reached Unit Bool} {news : List Delivery}
    (h : FillsUp count l next reached news)
    (hclosed : Closed l) :
    Closed next ∧ Recording.heard next = Recording.heard l := by
  have hnone : news = [] := by
    cases news with
    | nil =>
        rfl
    | cons d back =>
        exact absurd hclosed (h.frugal [] d back rfl).1
  exact ⟨hclosed.imp h.told.ended h.below.2, by rw [h.heard, hnone, List.append_nil]⟩

namespace FillsOnce

theorem closed
    {l next : Lookahead τ} {d : Delivery} {news : List Delivery}
    (h : FillsOnce l next d news)
    (hclosed : Closed l) :
    Closed next ∧ Recording.heard next = Recording.heard l := by
  have hnone : news = [] := h.frugal.resolve_right fun hread => hread.2.1 hclosed
  exact ⟨hclosed.imp (fun hended => h.ended.2 (Or.inl hended)) h.below.2,
    by rw [h.heard, hnone, List.append_nil]⟩

variable {count : Nat} {l next after : Lookahead τ} {d : Delivery} {news more : List Delivery}
  {reached : Reached Unit Bool}

/-- Filling once reads the recorder only while octets are missing. -/
theorem missing
    (h : FillsOnce l next d news)
    (hlt : l.buffer.length < count)
    {front back : List Delivery} {found : Delivery}
    (hnews : news = front ++ found :: back) :
    front = [] ∧ back = [] ∧ ¬Closed l ∧ (held l ++ Delivery.textOf front).length < count := by
  rcases h.frugal with hnone | ⟨hheld, hopen, hone⟩
  · simp [hnone] at hnews
  · rw [hone, List.singleton_eq_append_iff] at hnews
    rcases hnews with ⟨rfl, hback⟩ | ⟨_, hback⟩
    · simp only [List.cons.injEq] at hback
      exact ⟨rfl, hback.2, hopen, by simpa [hheld] using hlt⟩
    · simp at hback

/-- To fill once may be all that there is to be done. -/
theorem fillsUp
    (h : FillsOnce l next d news)
    (hlt : l.buffer.length < count)
    (htold : FillTells count l next news reached) :
    FillsUp count l next reached news where
  heard := h.heard
  added := h.added ▸ List.prefix_append _ _
  kept := h.kept
  frugal _ _ _ hnews := (h.missing hlt hnews).2.2
  below := h.below
  isSealed := h.isSealed
  told := htold

/-- To fill once may be the beginning of it. -/
theorem andThen
    (h : FillsOnce l next d news)
    (hlt : l.buffer.length < count)
    (hd : d ≠ .octets [])
    (hrest : FillsUp count next after reached more) :
    FillsUp count l after reached (news ++ more) where
  heard := by rw [hrest.heard, h.heard, List.append_assoc]
  added := (h.added ▸ List.prefix_append _ _ : l.buffer <+: next.buffer).trans hrest.added
  kept := by rw [Delivery.textOf_append, ← List.append_assoc, h.kept, hrest.kept]
  frugal front found back hnews := by
    have hclosed : Closed next ↔ Closed l :=
      or_congr (h.ended.trans (or_iff_left hd)) h.below
    -- the read lies in what is heard first, or in what is heard after that
    rcases List.append_eq_append_iff.1 hnews with ⟨later, hfront, hmore⟩ | ⟨later, hearly, hback⟩
    · have hlater := hrest.frugal later found back hmore
      rw [hfront, Delivery.textOf_append, ← List.append_assoc, h.kept, ← hclosed]
      exact hlater
    · cases later with
      | nil =>
          have hlater := hrest.frugal [] found back (by simpa using hback.symm)
          rw [List.append_nil] at hearly
          rw [← hearly, h.kept, ← hclosed]
          simpa using hlater
      | cons first tail =>
          obtain rfl : found = first := by
            simp only [List.cons_append, List.cons.injEq] at hback
            exact hback.1
          exact (h.missing hlt hearly).2.2
  below := hrest.below.trans h.below
  isSealed hsealed := hrest.isSealed (h.isSealed hsealed)
  told := hrest.told.after (Bool.eq_iff_iff.2 (h.ended.trans (or_iff_left hd))) news

end FillsOnce

/--
Filling a buffer up to a number of octets keeps everything that was delivered, and does not
read once the octets are there.
-/
theorem fill_records
    (count : Nat)
    (limit : Option Nat)
    (l : Lookahead τ) :
    ∃ news, FillsUp count l (l.fill count limit).2 (l.fill count limit).1 news := by
  induction hsize : ByteStream.backlog l.inner using Nat.strongRecOn generalizing l with
  | ind size ih =>
      rcases Nat.lt_or_ge l.buffer.length count with hlt | hle
      · obtain ⟨news, honce⟩ := fillMore_records limit l
        rw [fill_of_lt hlt]
        rcases hfill : l.fillMore limit with ⟨(_ | ⟨b, piece⟩) | report | _, next⟩
        · rw [hfill] at honce
          refine ⟨news, honce.fillsUp hlt ⟨?_, honce.ended.2 (Or.inr rfl)⟩⟩
          rw [honce.added]
          simpa [Delivery.text] using hlt
        · rw [hfill] at honce
          obtain ⟨more, hrest⟩ := ih _ (hsize ▸ fillMore_inner hfill) next rfl
          exact ⟨news ++ more, honce.andThen hlt (by simp) hrest⟩
        · rw [hfill] at honce
          have hended : next.ended = l.ended := Bool.eq_iff_iff.2 (by simpa using honce.ended)
          exact ⟨news, honce.fillsUp hlt ⟨by simp [honce.failed rfl], hended⟩⟩
        · rw [hfill] at honce
          have hended : next.ended = l.ended := Bool.eq_iff_iff.2 (by simpa using honce.ended)
          exact ⟨news, honce.fillsUp hlt hended⟩
      · rw [fill_of_le hle]
        exact ⟨[],
          { heard := by simp
            added := List.prefix_refl _
            kept := by simp
            frugal := fun front d back hnews => by simp at hnews
            below := Iff.rfl
            isSealed := id
            told := ⟨hle, rfl⟩ }⟩

end Lookahead

namespace Channel

variable {τ : Type}

instance [Recording τ] : Recording (Channel τ) where
  heard channel := heard channel.raw
  held channel := held channel.raw
  Closed channel := Closed channel.raw

theorem record_withRaw
    [Recording τ]
    (channel : Channel τ)
    (next : Lookahead τ) :
    heard (channel.withRaw next) = heard next ∧ held (channel.withRaw next) = held next ∧
      (Closed (channel.withRaw next) ↔ Closed next) := by
  cases channel with
  | plain raw | session raw =>
      exact ⟨rfl, rfl, Iff.rfl⟩

instance [ByteStream τ] [Recorded τ] : Recorded (Channel τ) where
  reads want limit channel := by
    have hraw := Lookahead.read_reads want limit channel.raw
    obtain ⟨hheard, hheld, _⟩ := record_withRaw channel (channel.raw.read want limit).2
    change Reads want channel (channel.withRaw (channel.raw.read want limit).2)
      (channel.raw.read want limit).1
    rcases hread : channel.raw.read want limit with ⟨d, next⟩
    rw [hread] at hraw hheard hheld
    cases hraw with
    | passed hsame hsplit hnothing =>
        exact .passed (hheard.trans hsame) (hheld ▸ hsplit) hnothing
    | listened hempty hopen hnews hnothing =>
        exact .listened hempty hopen (hheard.trans hnews) (hheld.trans hnothing)
  closed_read want limit channel :=
    (record_withRaw channel _).2.2.trans (Lookahead.closed_read want limit channel.raw)

end Channel
end SyslogIntake
