import SyslogIntake.Proofs.Careful.Header
import SyslogIntake.Proofs.Careful.Reading
import SyslogIntake.Proofs.Connection.Blame
import SyslogIntake.Proofs.Connection.Wrapping

/-!
# Peers do no harm

Whatever a peer sends, it does not bring down the code that looks at it by position, and a
connection without a session that fails on account of what was sent is held against the peer.

**Results.**

* `Detector.plan_of_isPlain` : which transports go without a session;
* `Serving.harmless` : no step of the code that looks at octets fails, and a failure blames the
  peer.
-/

namespace SyslogIntake

/-- No session is ever begun over the transport. -/
def Settings.IsPlain (settings : Settings) (acceptor : Option Tls.Acceptor) : Prop :=
  settings.transport = .tcp ∨ settings.transport = .proxiedTcp ∨
    settings.transport = .auto ∧ acceptor = none

/-- Without a session, there is no stage for one. -/
theorem Detector.plan_of_isPlain
    {settings : Settings} {acceptor : Option Tls.Acceptor} {d : Detector}
    (hplain : settings.IsPlain acceptor)
    (hd : ofSettings settings acceptor = .ok d) :
    d.plan.tls = .disabled := by
  unfold ofSettings at hd
  split at hd
  · cases hd
  · cases hd
    rcases hplain with htransport | htransport | ⟨htransport, rfl⟩ <;>
      simp [htransport, Plan.ofTransport]

namespace Serving

/--
The code that works by position takes every one of its steps, and comes to what there is to be
found: the header of a connection, the beginning of a session, the boundary between messages, the
next message, and the record of a message with its priority.  Only a limit for messages that
memory cannot hold lets a peer that sends as much run out of it; the room for reading ahead never
grows.  And if a connection without a session fails, but not because its stream fails, time runs
out or the writer has stopped, its peer is to blame.
-/
theorem harmless :
    (∀ text : Octets,
      Careful.parse text = .ok (ProxyHeader.parse text) ∧
      Careful.signatureLength text = .ok (ProxyHeader.signatureLength text) ∧
      Careful.sniff text = .ok (Framing.sniff text) ∧
      Careful.check text = .ok (Tls.check text) ∧
      Careful.version? text = .ok (Tls.version? text)) ∧
    (∀ {σ : Type} [ByteStream σ] [Portioned σ] (limit : Option Nat) (r : Reader σ),
      (Careful.next limit r = .ok (r.next limit) ∨
        Careful.next limit r = .error .memory ∧ 2 ^ Careful.wordBits ≤ r.room ∧
          2 ^ Careful.wordBits ≤ r.stream.backlog) ∧
      (r.next limit).2.2.room ≤ r.room) ∧
    (∀ (frame : Frame) (c : Connection),
      Careful.ofFrame frame c = .ok (.ofFrame frame c) ∧
      Careful.priority (.ofFrame frame c) = .ok (Record.ofFrame frame c).priority) ∧
    ∀ {settings : Settings} {acceptor : Option Tls.Acceptor} {d : Detector} {wire : Wire}
      {s after : Serving} {fault : Fault},
      settings.IsPlain acceptor →
      Detector.ofSettings settings acceptor = .ok d →
      wire.Sound →
      s.run d wire = (.failed fault, after) →
      (∀ wait, fault ≠ .late wait) →
      after.service.sink.stopped = none →
      fault.blamesPeer = true := by
  refine ⟨fun text => ?_, fun limit r => ?_, fun frame c => ?_, ?_⟩
  · exact ⟨Careful.parse_eq text, Careful.signatureLength_eq text, Careful.sniff_eq text,
      Careful.check_eq text, Careful.version?_eq text⟩
  · exact ⟨Careful.next_eq limit r, r.room_next limit⟩
  · exact ⟨Careful.ofFrame_eq frame c, Careful.priority_eq frame c⟩
  · intro settings acceptor d wire s after fault hplain hd hwire hrun hintime hrunning
    have hfails : Fails fault after :=
      run_fails (Detector.plan_of_isPlain hplain hd) hwire hrun
    rcases hfails with (hblames | ⟨wait, hlate⟩) | ⟨-, hstopped⟩
    · exact hblames
    · exact absurd hlate (hintime wait)
    · exact absurd hrunning hstopped

/-- A header, and a message of five octets of which only three arrive. -/
theorem harmless_truncated :
    let settings : Settings := { Settings.default with transport := .proxiedTcp }
    let d : Detector := ⟨⟨.required, .disabled, .disabled⟩, none, .none, .auto, 65536, 10, 10⟩
    let wire := Wire.ofSegments
      [.octets [80, 82, 79, 88, 89, 32, 85, 78, 75, 78, 79, 87, 78, 13, 10, 53, 32],
        .pause 2, .octets [97, 98, 99]]
    let c := Connection.accepted 1 (.v4 ⟨192, 0, 2, 1⟩ 5000) (.v4 ⟨192, 0, 2, 2⟩ 514)
    let s := start (.start ⟨"out", 8, [], [], ⟨[], none⟩, none⟩) c 0
    ∃ after, Detector.ofSettings settings none = .ok d ∧ wire.Sound ∧
      s.run d wire = (.failed (.truncated 5 3), after) ∧
      after.service.sink.stopped = none ∧
      (Fault.truncated 5 3).blamesPeer = true := by
  intro settings d wire c s
  have hd : Detector.ofSettings settings none = .ok d := rfl
  have hwire : wire.Sound := by
    intro report hmem
    simp [wire, Wire.ofSegments] at hmem
  have hfault : (s.run d wire).1.fault? = some (.truncated 5 3) := by decide +kernel
  have hrun : s.run d wire = (.failed (.truncated 5 3), (s.run d wire).2) :=
    Prod.ext (Progress.eq_of_fault? hfault) rfl
  have hrunning : (s.run d wire).2.service.sink.stopped = none := by decide +kernel
  exact ⟨_, hd, hwire, hrun, hrunning,
    harmless.2.2.2 (.inr (.inl rfl)) hd hwire hrun nofun hrunning⟩

end Serving
end SyslogIntake
