import SyslogIntake.Proofs.Server.Handing

/-!
# Pieces and pauses

Serving a connection comes to what can be read off the whole text that it brings: the
stages take their octets off the front, and the rest is decoded.  Neither the pieces in
which the text arrives nor the pauses between them show in that, as long as everything
arrives in time.  Only the output can tell the difference, for its writer works during the
pauses and may find out in one of them that there is no room left.

**Results.**

* `Serving.run_account` : serving comes to what is read off the whole text;
* `Service.account_cut` : so it does not depend on how the text is cut.
-/

namespace SyslogIntake

/-- What there is to be said about a connection that was served. -/
structure Account where
  handed : List Handover
  connection : Connection
  counters : Counters
  fault : Option Fault
  deriving DecidableEq, Repr

namespace Account

/-- The account of a connection once it is closed. -/
def close (account : Account) : Account :=
  match account.fault with
  | none => { account with counters := account.counters.countClosed }
  | some _ =>
      { account with
        connection := account.connection.fail.2
        counters := account.counters.countFailed.countClosed }

@[simp]
theorem close_handed
    (account : Account) :
    account.close.handed = account.handed := by
  unfold close
  split <;> rfl

@[simp]
theorem close_fault
    (account : Account) :
    account.close.fault = account.fault := by
  unfold close
  split
  · rfl
  · rfl

end Account

/-- That the writer has stopped is all that there is to say about it. -/
theorem Fault.eq_of_bare_writerStopped
    {fault : Fault}
    (h : fault.bare = .writerStopped) :
    fault = .writerStopped := by
  cases fault <;> simp [Fault.bare] at h ⊢

theorem Progress.bare_ne_writerStopped
    {σ : Type} {progress : Progress σ}
    (h : progress.fault? ≠ some .writerStopped) :
    progress.fault?.map Fault.bare ≠ some .writerStopped := by
  intro hstopped
  obtain ⟨fault, hfault, hcause⟩ := Option.map_eq_some_iff.1 hstopped
  exact h (hfault.trans (congrArg some (Fault.eq_of_bare_writerStopped hcause)))

/-- The account of a connection that brings a whole text, if the output takes every record. -/
def Detector.account (d : Detector) (close : Option String) (text : Octets)
    (counters : Counters) (c : Connection) : Account :=
  match d.survey close text c with
  | (.error fault, c) => ⟨[], c, counters, some fault.bare⟩
  | (.ok rest, c) =>
      let decoded := Framing.decode close d.most (.ofPolicy d.framing) rest
      { handed := Serving.handovers decoded.frames c
        connection := Serving.behind decoded.frames c
        counters :=
          ((counters.countHeader c.proxy.isSome).countSession c.isTls).countRecords
            decoded.frames
        fault := decoded.fault }

/-- The account of a connection while it is served. -/
def Serving.account {σ : Type} (progress : Progress σ) (s : Serving) : Account :=
  ⟨s.handed, s.connection, s.service.counters, progress.fault?.map Fault.bare⟩

namespace Serving

variable {σ : Type}

theorem close_account
    {progress : Progress σ}
    (h : progress.isOver = true)
    (s : Serving) :
    (s.close progress).account progress = (s.account progress).close := by
  cases progress with
  | closed | failed fault =>
      rfl
  | waiting limit search stream =>
      cases h

variable [ByteStream σ] [Supplied σ]

/-- Serving comes to what is read off the whole text, unless the writer has stopped. -/
theorem run_account
    {d : Detector} {span : Span} {close : Option String} {text : Octets} {octets : σ}
    (hoctets : Supplied.Brings span close text octets)
    (hawaits : d.Awaits span)
    {s : Serving}
    (hstart : s.handed = []) :
    (s.run d octets).1.isOver = true ∧
      (s.run d octets).2.handed.map Handover.record <+:
        (d.account close text s.service.counters s.connection).handed.map Handover.record ∧
      ((s.run d octets).1.fault? ≠ some .writerStopped →
        (s.run d octets).2.account (s.run d octets).1 =
          d.account close text s.service.counters s.connection) := by
  unfold Detector.account
  rcases hsurvey : d.survey close text s.connection with ⟨fault | rest, c⟩
  · obtain ⟨time, hrun⟩ := run_fault hoctets hawaits hsurvey
    rw [hrun]
    refine ⟨rfl, ?_, fun _ => ?_⟩
    · simp [hstart]
    · simp [account, hstart, Progress.fault?]
  · obtain ⟨time, _, hover, hhands⟩ := run_hands hoctets hawaits hsurvey
    refine ⟨hover, ?_, fun hrunning => ?_⟩
    · obtain ⟨more, hmore, hfront⟩ := hhands.front_record
      rw [hmore]
      simpa [countFindings, count, hstart] using hfront
    · obtain ⟨hhanded, hconnection, hcounters, hfault⟩ :=
        hhands.complete (Progress.bare_ne_writerStopped hrunning)
      simp only [account, hhanded, hconnection, hcounters, hfault]
      simp [countFindings, count, hstart]

end Serving

namespace Service

variable {σ : Type} [ByteStream σ]

/-- How serving a connection ends, before it is closed. -/
def progress (service : Service) (d : Detector) (octets : σ) (c : Connection) : Progress σ :=
  ((Serving.start service c (ByteStream.now octets)).run d octets).1

/-- The account of a connection that was served to its end. -/
def account (service : Service) (d : Detector) (octets : σ) (c : Connection) : Account :=
  (service.serve d octets c).account (service.progress d octets c)

variable [Supplied σ]

theorem account_closed
    {d : Detector} {span : Span} {close : Option String} {text : Octets} {octets : σ}
    (hoctets : Supplied.Brings span close text octets)
    (hawaits : d.Awaits span)
    (service : Service) (c : Connection) :
    service.account d octets c =
      (((Serving.start service c (ByteStream.now octets)).run d octets).2.account
        (service.progress d octets c)).close := by
  have hover : (service.progress d octets c).isOver = true :=
    (Serving.run_account hoctets hawaits (s := Serving.start service c (ByteStream.now octets))
      rfl).1
  exact Serving.close_account hover _

/-- Serving to the end comes to what is read off the whole text. -/
theorem serve_account
    {d : Detector} {span : Span} {close : Option String} {text : Octets} {octets : σ}
    (hoctets : Supplied.Brings span close text octets)
    (hawaits : d.Awaits span)
    (service : Service) (c : Connection) :
    (service.account d octets c).handed.map Handover.record <+:
        (d.account close text service.counters c).handed.map Handover.record ∧
      ((service.account d octets c).fault ≠ some .writerStopped →
        service.account d octets c = (d.account close text service.counters c).close) := by
  obtain ⟨_, hfront, hwhole⟩ := Serving.run_account hoctets hawaits
    (s := Serving.start service c (ByteStream.now octets)) rfl
  rw [account_closed hoctets hawaits service c]
  constructor
  · rw [Account.close_handed]
    exact hfront
  · intro hrunning
    refine congrArg Account.close (hwhole fun hstopped => hrunning ?_)
    rw [Account.close_fault]
    simp [Serving.account, progress, hstopped, Fault.bare]

/--
However a text is cut into pieces, and whatever the pauses between them are, serving it comes
to the same, unless the writer of the output stops meanwhile; and what is handed on by then
is a part of what is handed on otherwise.
-/
theorem account_cut
    {text : Octets} {wait other : Nat} {segments pieces : List Segment}
    (hcut : Cut text wait segments)
    (hother : Cut text other pieces)
    (close : Option String)
    {d : Detector}
    (hdata : wait ≤ d.dataTimeout * 1000 ∧ other ≤ d.dataTimeout * 1000)
    (hhandshake : wait ≤ d.handshakeTimeout * 1000 ∧ other ≤ d.handshakeTimeout * 1000)
    (service : Service) (c : Connection) :
    let one := service.account d (Wire.ofSegments (segments ++ Segment.closing close)) c
    let two := service.account d (Wire.ofSegments (pieces ++ Segment.closing close)) c
    (one.fault ≠ some .writerStopped → two.fault ≠ some .writerStopped → one = two) ∧
      (one.handed.map Handover.record <+: two.handed.map Handover.record ∨
        two.handed.map Handover.record <+: one.handed.map Handover.record) := by
  intro one two
  have hone : d.Awaits ⟨0, wait⟩ := Detector.awaits_of_wait hdata.1 hhandshake.1
  have htwo : d.Awaits ⟨0, other⟩ := Detector.awaits_of_wait hdata.2 hhandshake.2
  obtain ⟨hfront, hwhole⟩ := serve_account (Wire.brings_ofSegments hcut close) hone service c
  obtain ⟨hfront', hwhole'⟩ :=
    serve_account (Wire.brings_ofSegments hother close) htwo service c
  constructor
  · intro hrunning hrunning'
    exact (hwhole hrunning).trans (hwhole' hrunning').symm
  · exact List.prefix_or_prefix_of_prefix hfront hfront'

/-- Two messages and a fault, in one piece and in three, on an ordinary file. -/
theorem account_cut_file :
    let service := start ⟨"out", 8, [], [], ⟨[], none⟩, none⟩
    let d : Detector := ⟨⟨.optional, .disabled, .disabled⟩, none, .none, .auto, 100, 5, 5⟩
    let c := Connection.accepted 1 (.v4 ⟨192, 0, 2, 1⟩ 5000) (.v4 ⟨192, 0, 2, 2⟩ 514)
    let one := [.octets [49, 32, 65, 66, 10]] ++ Segment.closing (some "reset")
    let two := [.octets [49], .pause 3, .octets [32, 65, 66], .pause 4, .octets [10]] ++
      Segment.closing (some "reset")
    service.account d (Wire.ofSegments one) c = service.account d (Wire.ofSegments two) c ∧
      (service.account d (Wire.ofSegments one) c).counters.records = 2 := by
  intro service d c one two
  have hone : Cut [49, 32, 65, 66, 10] 0 [.octets [49, 32, 65, 66, 10]] :=
    @Cut.piece [49, 32, 65, 66, 10] [] 0 _ (by decide) .nil
  have htwo : Cut [49, 32, 65, 66, 10] 7
      [.octets [49], .pause 3, .octets [32, 65, 66], .pause 4, .octets [10]] :=
    @Cut.piece [49] [32, 65, 66, 10] 7 _ (by decide)
      (.pause 3 (@Cut.piece [32, 65, 66] [10] 4 _ (by decide)
        (.pause 4 (@Cut.piece [10] [] 0 _ (by decide) .nil))))
  obtain ⟨hsame, _⟩ := account_cut hone htwo (some "reset") (d := d) (by decide) (by decide)
    service c
  exact ⟨hsame (by decide +kernel) (by decide +kernel), by decide +kernel⟩

/--
On a device that is full, the writer stops in a pause between two messages; without the
pause both of them are taken.
-/
theorem account_cut_full :
    let service := start ⟨"full", 8, [], [], ⟨[], some 0⟩, none⟩
    let d : Detector := ⟨⟨.disabled, .disabled, .disabled⟩, none, .none, .auto, 100, 5, 5⟩
    let c := Connection.accepted 1 (.v4 ⟨192, 0, 2, 1⟩ 5000) (.v4 ⟨192, 0, 2, 2⟩ 514)
    let one := service.account d (Wire.ofSegments [.octets [97, 10, 98, 10]]) c
    let two := service.account d
      (Wire.ofSegments [.octets [97, 10], .pause 1, .octets [98, 10]]) c
    Cut [97, 10, 98, 10] 0 [.octets [97, 10, 98, 10]] ∧
      Cut [97, 10, 98, 10] 1 [.octets [97, 10], .pause 1, .octets [98, 10]] ∧
      one.counters.records = 2 ∧ one.fault = none ∧
      two.counters.records = 1 ∧ two.fault = some .writerStopped := by
  refine ⟨@Cut.piece [97, 10, 98, 10] [] 0 _ (by decide) .nil,
    @Cut.piece [97, 10] [98, 10] 1 _ (by decide)
      (.pause 1 (@Cut.piece [98, 10] [] 0 _ (by decide) .nil)), ?_, ?_, ?_, ?_⟩
  · decide +kernel
  · decide +kernel
  · decide +kernel
  · decide +kernel

end Service
end SyslogIntake
