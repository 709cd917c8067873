import SyslogIntake.Proofs.Server.Passage
import SyslogIntake.Proofs.Server.Wrapping

/-!
# Stages and failures

On its passage a connection goes through the stages in their order, each errand in the stage
to which it belongs, and never back.  It is streaming from its first message on.  If it fails,
it is left in the last stage for good, and the stage that is named for the failure is that of
the errand at which it failed.

**Results.**

* `Passage.placed_of_goes` : each step leads to an errand in its own stage;
* `Passage.phase_of_goes` : a step that fails does so in the stage of its errand;
* `Passage.visited_of_goes` : no step takes back a stage;
* `Service.serve_stages` : so a connection goes forward only and names where it failed.
-/

namespace SyslogIntake

open StateTransition (Reaches)

namespace Connection

/-- The stages in which a connection has been, the present one last. -/
def visited (c : Connection) : List Stage :=
  c.left.reverse ++ [c.stage]

theorem stage_of_path
    {c : Connection} {stage : Stage} {left : List Stage}
    (h : c.path = (stage, left)) :
    c.stage = stage :=
  congrArg Prod.fst h

theorem visited_of_path
    {c : Connection} {stage : Stage} {left : List Stage}
    (h : c.path = (stage, left)) :
    c.visited = left.reverse ++ [stage] := by
  obtain ⟨rfl, rfl⟩ : c.stage = stage ∧ c.left = left := by simpa [path] using h
  rfl

theorem visited_enter
    (next : Stage)
    (c : Connection) :
    (c.enter next).visited = c.visited ++ [next] := by
  simp [visited, enter]

theorem visited_advance
    {c e : Connection}
    (next : Stage)
    (h : c.visited = e.visited) :
    c.visited <+: (e.advance next).visited := by
  rw [h]
  unfold advance
  split
  · exact List.prefix_rfl
  · rw [visited_enter]
    exact List.prefix_append _ _

theorem visited_fail
    {c : Connection}
    (h : c.stage ≠ .failed) :
    c.fail.2.visited = c.visited ++ [.failed] := by
  simp only [fail, if_neg h, visited_enter]

/-- Who a connection is. -/
def caller (c : Connection) : Nat × Endpoint :=
  (c.id, c.peer)

theorem caller_advance
    {c e : Connection}
    (next : Stage)
    (h : c.caller = e.caller) :
    (c.advance next).caller = e.caller := by
  unfold advance
  split <;> exact h

end Connection

namespace Serving

@[simp]
theorem countFindings_connection
    (s : Serving) :
    s.countFindings.connection = s.connection :=
  rfl

@[simp]
theorem countFindings_handed
    (s : Serving) :
    s.countFindings.handed = s.handed :=
  rfl

end Serving

namespace Passage

variable {σ : Type}

/-- The stage to which an errand belongs; messages have two, before the first frame and after. -/
def phase? (p : Passage σ) : Option Stage :=
  match p.errand with
  | .outerHeader _ => some .proxyHeader
  | .clientHello _ | .handshake _ _ | .innerHeader _ => some .tlsHandshake
  | .message _ _ _ => if p.serving.handed = [] then some .framingSniff else some .streaming
  | .handover _ _ _ => some .streaming
  | .finished _ _ => none

/-- The frame that is about to be handed over. -/
def frame? (p : Passage σ) : Option Frame :=
  match p.errand with
  | .handover frame _ _ => some frame
  | _ => none

/-- The path of a connection behind its stages that has handed over some messages. -/
def pathBehind (handed : List Handover) : Stage × List Stage :=
  if handed = [] then (.framingSniff, [.tlsHandshake, .proxyHeader])
  else (.streaming, [.framingSniff, .tlsHandshake, .proxyHeader])

/-- Whether a connection is in a stage to which its errand belongs. -/
def Placed (p : Passage σ) : Prop :=
  let path := p.serving.connection.path
  let handed := p.serving.handed
  match p.errand with
  | .outerHeader _ => path = (.proxyHeader, []) ∧ handed = []
  | .clientHello _ | .handshake _ _ | .innerHeader _ =>
      path = (.tlsHandshake, [.proxyHeader]) ∧ handed = []
  | .message limit _ _ => path = pathBehind handed ∧ (limit = none ↔ handed ≠ [])
  | .handover _ _ _ => path = pathBehind handed
  | .finished _ _ =>
      handed = [] ∧ (path = (.proxyHeader, []) ∨ path = (.tlsHandshake, [.proxyHeader])) ∨
        path = pathBehind handed

@[simp]
theorem pathBehind_append
    (handed : List Handover)
    (handover : Handover) :
    pathBehind (handed ++ [handover]) =
      (.streaming, [.framingSniff, .tlsHandshake, .proxyHeader]) :=
  if_neg (by simp)

theorem path_streaming
    {c : Connection} {handed : List Handover}
    (h : c.path = pathBehind handed)
    (frame : Frame) :
    (Serving.onFrame frame c).path =
      (.streaming, [.framingSniff, .tlsHandshake, .proxyHeader]) := by
  rw [Serving.path_onFrame, h]
  unfold pathBehind
  split <;> rfl

theorem start_placed
    (octets : σ)
    (service : Service)
    (id : Nat)
    (peer localEnd : Endpoint)
    (time : Nat) :
    (start octets (.start service (.accepted id peer localEnd) time)).Placed :=
  ⟨rfl, rfl⟩

/-- A connection in its place is in front of its messages, or where its messages leave it. -/
theorem Placed.path
    {p : Passage σ}
    (h : p.Placed) :
    p.serving.handed = [] ∧
        (p.serving.connection.path = (.proxyHeader, []) ∨
          p.serving.connection.path = (.tlsHandshake, [.proxyHeader])) ∨
      p.serving.connection.path = pathBehind p.serving.handed := by
  obtain ⟨s, errand⟩ := p
  cases errand with
  | outerHeader raw => exact .inl ⟨h.2, .inl h.1⟩
  | clientHello raw | handshake acceptor raw | innerHeader decoded =>
      exact .inl ⟨h.2, .inr h.1⟩
  | message limit search stream => exact .inr h.1
  | handover frame framer stream => exact .inr h
  | finished progress time => exact h

/-- A connection in its place has come through the stages in order, the last one not yet. -/
theorem Placed.ordered
    {p : Passage σ}
    (h : p.Placed) :
    (p.serving.connection.visited ++ [Stage.failed]).Pairwise
      (fun stage next => stage.rank < next.rank) := by
  rcases h.path with ⟨-, hpath | hpath⟩ | hpath
  · rw [Connection.visited_of_path hpath]
    decide
  · rw [Connection.visited_of_path hpath]
    decide
  · unfold pathBehind at hpath
    split at hpath <;> rw [Connection.visited_of_path hpath] <;> decide

/-- A connection in its place has not come into the last stage. -/
theorem Placed.not_failed
    {p : Passage σ}
    (h : p.Placed) :
    .failed ∉ p.serving.connection.visited := by
  intro hfailed
  have hlt := (List.pairwise_append.1 h.ordered).2.2 _ hfailed _ (List.mem_singleton.2 rfl)
  exact Nat.lt_irrefl _ hlt

/-- A connection in its place is streaming exactly if it has handed over a message. -/
theorem Placed.streaming_iff
    {p : Passage σ}
    (h : p.Placed) :
    .streaming ∈ p.serving.connection.visited ↔ p.serving.handed ≠ [] := by
  rcases h.path with ⟨hnone, hpath | hpath⟩ | hpath
  · simp [Connection.visited_of_path hpath, hnone]
  · simp [Connection.visited_of_path hpath, hnone]
  · unfold pathBehind at hpath
    split at hpath
    · simp [Connection.visited_of_path hpath, *]
    · simp [Connection.visited_of_path hpath, *]

variable [ByteStream σ]

theorem listen_placed
    {d : Detector} {s : Serving} {c : Connection}
    (reader : Reader (Channel σ))
    (hpath : c.path = (.tlsHandshake, [.proxyHeader]))
    (hhanded : s.handed = []) :
    (listen d reader { s with connection := c.advance .framingSniff }).Placed := by
  have hlistening : (c.advance .framingSniff).path = pathBehind [] := by
    rw [Connection.path_advance, hpath]
    rfl
  refine ⟨?_, ?_⟩
  · simpa [listen, hhanded] using hlistening
  · simp [listen, hhanded]

/-- Each step leads to an errand in its own stage. -/
theorem placed_of_goes
    {d : Detector} {p q : Passage σ}
    (hgoes : Goes d p q)
    (h : p.Placed) :
    q.Placed := by
  cases hgoes with
  | headerFault hpeeled =>
      obtain ⟨hpath, hhanded⟩ := h
      refine .inl ⟨by simpa [fail, finish] using hhanded, .inl ?_⟩
      simp only [fail, finish, Serving.goOn_connection, Connection.path_advance, hpath]
      rfl
  | header hpeeled =>
      obtain ⟨hpath, hhanded⟩ := h
      refine ⟨?_, hhanded⟩
      rw [Connection.path_advance]
      change Connection.advancePath .tlsHandshake (Connection.advance .proxyHeader _).path = _
      rw [Connection.path_advance, hpath]
      rfl
  | plain hgreeted | headedSession haccepted hproxy | innerHeader hpeeled =>
      exact listen_placed _ h.1 h.2
  | helloFault hgreeted | handshakeFault haccepted | innerFault hpeeled =>
      refine .inl ⟨?_, .inr ?_⟩
      · simpa [fail, finish] using h.2
      · simpa [fail, finish] using h.1
  | hello hgreeted | session haccepted hproxy => exact h
  | frame hfound => simpa [Placed] using h.1
  | ended hfound | messageFault hfound | late hfound =>
      refine .inr ?_
      simpa [finish] using h.1
  | refused hdelivered =>
      obtain ⟨taken, hhanded, hconnection⟩ :=
        (Serving.delivered_of_deliver hdelivered).handed
      refine .inr ?_
      simpa only [finish, hhanded, hconnection, pathBehind_append] using path_streaming h _
  | taken hdelivered =>
      obtain ⟨taken, hhanded, hconnection⟩ :=
        (Serving.delivered_of_deliver hdelivered).handed
      refine ⟨?_, ?_⟩
      · simpa only [hhanded, hconnection, pathBehind_append] using path_streaming h _
      · simp [hhanded]

/-- A step that fails does so in the stage of its errand. -/
theorem phase_of_goes
    {d : Detector} {p q : Passage σ} {fault : Fault} {time : Nat}
    (hgoes : Goes d p q)
    (h : p.Placed)
    (hfailed : q.errand = .finished (.failed fault) time) :
    p.phase? = some q.serving.connection.stage := by
  cases hgoes with
  | headerFault hpeeled =>
      have hpath : (Connection.advance .proxyHeader _).path = (.proxyHeader, []) :=
        (Connection.path_advance .proxyHeader _).trans (congrArg _ h.1)
      simp only [phase?, fail, finish, Serving.goOn_connection]
      rw [Connection.stage_of_path hpath]
  | helloFault hgreeted | handshakeFault haccepted | innerFault hpeeled =>
      simp only [phase?, fail, finish, Serving.goOn_connection]
      rw [Connection.stage_of_path h.1]
  | messageFault hfound | late hfound =>
      have hpath := h.1
      simp only [phase?, finish, Serving.hear_connection]
      unfold pathBehind at hpath
      split at hpath
      · rw [if_pos ‹_›, Connection.stage_of_path hpath]
      · rw [if_neg ‹_›, Connection.stage_of_path hpath]
  | refused hdelivered =>
      obtain ⟨taken, hhanded, hconnection⟩ :=
        (Serving.delivered_of_deliver hdelivered).handed
      simp only [phase?, finish, hconnection]
      rw [Connection.stage_of_path (path_streaming h _)]
  | header | plain | hello | session | headedSession | innerHeader | frame | ended | taken =>
      cases hfailed

/-- No step takes back a stage. -/
theorem visited_of_goes
    {d : Detector} {p q : Passage σ}
    (hgoes : Goes d p q) :
    p.serving.connection.visited <+: q.serving.connection.visited := by
  cases hgoes with
  | headerFault hpeeled =>
      simp only [fail, finish, Serving.goOn_connection]
      exact Connection.visited_advance .proxyHeader rfl
  | header hpeeled =>
      exact (Connection.visited_advance .proxyHeader rfl).trans
        (Connection.visited_advance .tlsHandshake rfl)
  | plain hgreeted | headedSession haccepted hproxy | innerHeader hpeeled =>
      simp only [stayPlain, listen, Serving.countFindings_connection, Serving.goOn_connection]
      exact Connection.visited_advance .framingSniff rfl
  | helloFault hgreeted | handshakeFault haccepted | innerFault hpeeled =>
      simp [fail, finish]
  | hello hgreeted | session haccepted hproxy => exact List.prefix_rfl
  | frame hfound | ended hfound | messageFault hfound | late hfound =>
      simp [finish]
  | refused hdelivered | taken hdelivered =>
      obtain ⟨taken, hhanded, hconnection⟩ :=
        (Serving.delivered_of_deliver hdelivered).handed
      simp only [finish, hconnection]
      exact Connection.visited_advance .streaming rfl

/-- Each step hands over the frame that is due, and nothing else. -/
theorem handed_of_goes
    {d : Detector} {p q : Passage σ}
    (hgoes : Goes d p q) :
    q.serving.handed.map Handover.frame =
      p.serving.handed.map Handover.frame ++ p.frame?.toList := by
  cases hgoes with
  | headerFault | helloFault | handshakeFault | innerFault | ended | messageFault | late =>
      simp [fail, finish, frame?]
  | header | hello | session | frame => simp [frame?]
  | plain | headedSession | innerHeader => simp [stayPlain, listen, frame?]
  | refused hdelivered | taken hdelivered =>
      obtain ⟨taken, hhanded, hconnection⟩ :=
        (Serving.delivered_of_deliver hdelivered).handed
      simp [finish, frame?, hhanded]

theorem caller_of_goes
    {d : Detector} {p q : Passage σ}
    (hgoes : Goes d p q) :
    q.serving.connection.caller = p.serving.connection.caller := by
  cases hgoes with
  | headerFault =>
      simp only [fail, finish, Serving.goOn_connection]
      exact Connection.caller_advance .proxyHeader rfl
  | @header s raw next found hpeeled =>
      have hfirst : (s.connection.advance .proxyHeader).caller = s.connection.caller :=
        Connection.caller_advance .proxyHeader rfl
      exact Connection.caller_advance .tlsHandshake hfirst
  | plain | headedSession | innerHeader =>
      simp only [stayPlain, listen, Serving.countFindings_connection, Serving.goOn_connection]
      exact Connection.caller_advance .framingSniff rfl
  | helloFault | handshakeFault | innerFault => simp [fail, finish]
  | hello | session => rfl
  | frame | ended | messageFault | late => simp [finish]
  | refused hdelivered | taken hdelivered =>
      obtain ⟨taken, hhanded, hconnection⟩ :=
        (Serving.delivered_of_deliver hdelivered).handed
      simp only [finish, hconnection]
      exact Connection.caller_advance .streaming rfl

theorem visited_of_reached
    {d : Detector} {p q : Passage σ}
    (hreached : Reaches (step d) p q) :
    p.serving.connection.visited <+: q.serving.connection.visited :=
  reached_induction (fun r => p.serving.connection.visited <+: r.serving.connection.visited)
    hreached List.prefix_rfl fun hgoes h => h.trans (visited_of_goes hgoes)

/-- A connection has handed something over once it has come to a frame. -/
theorem handed_ne_nil_iff
    {d : Detector} {p q : Passage σ}
    (hgoes : Goes d p q) :
    q.serving.handed ≠ [] ↔ p.serving.handed ≠ [] ∨ p.frame?.isSome = true := by
  have hhanded := congrArg (· ≠ []) (handed_of_goes hgoes)
  cases hdue : p.frame? <;> simpa [hdue] using hhanded

end Passage

namespace Serving

variable {σ : Type}

/-- Closing a connection adds the last stage if it failed, and nothing otherwise. -/
theorem visited_close
    {s : Serving}
    (h : .failed ∉ s.connection.visited)
    (progress : Progress σ) :
    (s.close progress).connection.visited =
      s.connection.visited ++ if progress.fault?.isSome then [Stage.failed] else [] := by
  have hstage : s.connection.stage ≠ .failed := by
    intro hfailed
    exact h (by simp [Connection.visited, hfailed])
  cases progress with
  | closed | waiting limit search stream =>
      simp [close, count, Progress.fault?]
  | failed fault =>
      simpa [close, count, note, Progress.fault?] using Connection.visited_fail hstage

/-- The line about a failure names the connection, and nothing else of it. -/
theorem failureEntry_of_caller
    {c e : Connection}
    (h : c.caller = e.caller)
    (stage : Stage)
    (fault : Fault) :
    failureEntry c stage fault = failureEntry e stage fault := by
  obtain ⟨hid, hpeer⟩ : c.id = e.id ∧ c.peer = e.peer := by simpa [Connection.caller] using h
  simp only [failureEntry, hid, hpeer]

/-- A connection that failed stays where it is. -/
theorem close_failed_stays
    {progress : Progress σ}
    (hfailed : progress.fault?.isSome = true)
    (s : Serving) :
    (s.close progress).connection.stage = .failed ∧
      (s.close progress).connection.fail.2 = (s.close progress).connection ∧
        ∀ next, (s.close progress).connection.advance next = (s.close progress).connection := by
  obtain ⟨fault, hfault⟩ := Option.isSome_iff_exists.1 hfailed
  rw [Progress.eq_of_fault? hfault]
  have hstage := close_stage (σ := σ) fault s
  refine ⟨hstage, ?_, fun next => Connection.advance_failed next hstage⟩
  rw [Connection.fail, if_pos hstage]

end Serving

namespace Service

variable {σ : Type} [ByteStream σ]

/-- The stage that is named for the failure of a connection that is served. -/
def failure? (service : Service) (d : Detector) (octets : σ) (c : Connection) : Option Stage :=
  (service.progress d octets c).fault?.map fun _ => (service.ending d octets c).connection.fail.1

variable {service : Service} {d : Detector} {octets : σ} {id : Nat} {peer localEnd : Endpoint}
  {q : Passage σ}

/-- A connection that was just accepted is always in a stage to which its errand belongs. -/
theorem ComesTo.placed
    (h : service.ComesTo d octets (.accepted id peer localEnd) q) :
    q.Placed :=
  Passage.reached_induction Passage.Placed h (Passage.start_placed _ _ _ _ _ _)
    fun hgoes hplaced => Passage.placed_of_goes hgoes hplaced

/-- At its end, a connection has been streaming exactly if it has come to a frame. -/
theorem ComesTo.streaming_iff
    (h : service.ComesTo d octets (.accepted id peer localEnd) q)
    (hover : q.errand.isOver = true) :
    .streaming ∈ q.serving.connection.visited ↔
      ∃ p, service.ComesTo d octets (.accepted id peer localEnd) p ∧ p.frame?.isSome = true := by
  rw [h.placed.streaming_iff]
  constructor
  · intro hhanded
    exact Passage.exists_cause (fun q => q.serving.handed ≠ []) (fun p => p.frame?.isSome = true)
      h (not_not.2 rfl) hhanded fun hgoes => (Passage.handed_ne_nil_iff hgoes).1
  · rintro ⟨p, hp, hdue⟩
    -- The frame is handed over by the next step, and what was handed over is kept to the end.
    have hend := hp.reached_end h hover
    obtain ⟨time, rfl⟩ := h.eq_end hover
    exact Passage.holds_of_cause (fun q => q.serving.handed ≠ []) (fun p => p.frame?.isSome = true)
      hend hdue nofun (fun hgoes hdue => (Passage.handed_ne_nil_iff hgoes).2 (.inr hdue))
      fun hgoes hhanded => (Passage.handed_ne_nil_iff hgoes).2 (.inl hhanded)

/-- The stage named for a failure is that of the errand that leads to the end. -/
theorem failure_iff
    (stage : Stage) :
    service.failure? d octets (.accepted id peer localEnd) = some stage ↔
      ∃ p q fault time, service.ComesTo d octets (.accepted id peer localEnd) p ∧
        q ∈ p.step d ∧ q.errand = .finished (.failed fault) time ∧ p.phase? = some stage := by
  constructor
  · intro hfailure
    obtain ⟨fault, hfault, hstage⟩ := Option.map_eq_some_iff.1 hfailure
    obtain ⟨p, time, hp, hstep⟩ := service.exists_last d octets (.accepted id peer localEnd)
    rw [Progress.eq_of_fault? hfault] at hstep
    refine ⟨p, _, fault, time, hp, hstep, rfl, ?_⟩
    rw [Passage.phase_of_goes (Passage.goes_of_step hstep) hp.placed rfl]
    exact congrArg some hstage
  · rintro ⟨p, q, fault, time, hp, hstep, hover, hphase⟩
    have hq : service.ComesTo d octets (.accepted id peer localEnd) q := hp.tail hstep
    rw [Passage.phase_of_goes (Passage.goes_of_step hstep) hp.placed hover] at hphase
    obtain ⟨ended, rfl⟩ := hq.eq_end (by rw [hover]; rfl)
    obtain ⟨hprogress, -⟩ : service.progress d octets (.accepted id peer localEnd) =
        .failed fault ∧ ended = time := by simpa [Passage.finish] using hover
    simpa [failure?, hprogress, Progress.fault?, Passage.finish, Connection.fail] using hphase

/-- What the journal says last about a connection that failed is where it did. -/
theorem journal_failure
    {stage : Stage} {fault : Fault}
    (hfailure : service.failure? d octets (.accepted id peer localEnd) = some stage)
    (hfault : (service.progress d octets (.accepted id peer localEnd)).fault? = some fault) :
    (service.serve d octets (.accepted id peer localEnd)).journal.getLast? =
      some (Serving.failureEntry (.accepted id peer localEnd) stage fault) := by
  obtain ⟨time, hend⟩ := service.comesTo_end d octets (.accepted id peer localEnd)
  have hcaller : (service.ending d octets (.accepted id peer localEnd)).connection.caller =
      (Connection.accepted id peer localEnd).caller :=
    Passage.reached_induction
      (fun p => p.serving.connection.caller = (Connection.accepted id peer localEnd).caller)
      hend rfl fun hgoes h => (Passage.caller_of_goes hgoes).trans h
  rw [failure?, hfault, Option.map_some, Option.some.injEq] at hfailure
  rw [serve_eq, Progress.eq_of_fault? hfault, ← Serving.failureEntry_of_caller hcaller, ← hfailure]
  exact List.getLast?_concat

/-- The stages of a connection that was served, and the last one if it failed. -/
theorem visited_serve
    (service : Service)
    (d : Detector)
    (octets : σ)
    (id : Nat)
    (peer localEnd : Endpoint) :
    (service.serve d octets (.accepted id peer localEnd)).connection.visited =
      (service.ending d octets (.accepted id peer localEnd)).connection.visited ++
        if (service.progress d octets (.accepted id peer localEnd)).fault?.isSome then
          [Stage.failed]
        else
          [] := by
  obtain ⟨time, hend⟩ := service.comesTo_end d octets (.accepted id peer localEnd)
  exact Serving.visited_close hend.placed.not_failed _

/--
A connection only goes forward through the stages and is streaming exactly if a frame of it
was decoded; it comes into the last stage exactly if it fails, at the end and for good, and what
is then named is the stage of the errand that failed, also in the journal.
-/
theorem serve_stages
    (service : Service)
    (d : Detector)
    (octets : σ)
    (id : Nat)
    (peer localEnd : Endpoint) :
    let c := Connection.accepted id peer localEnd
    let fault? := (service.progress d octets c).fault?
    let after := service.serve d octets c
    (∀ p q, service.ComesTo d octets c p → Reaches (Passage.step d) p q →
        p.serving.connection.visited <+: q.serving.connection.visited ∧
          q.serving.connection.visited <+: after.connection.visited ∧
          .failed ∉ q.serving.connection.visited) ∧
      after.connection.visited.Pairwise (fun stage next => stage.rank < next.rank) ∧
      (.streaming ∈ after.connection.visited ↔
        ∃ p, service.ComesTo d octets c p ∧ p.frame?.isSome = true) ∧
      (.failed ∈ after.connection.visited ↔ fault?.isSome = true) ∧
      (fault?.isSome = true → after.connection.stage = .failed ∧
        after.connection.fail.2 = after.connection ∧
          ∀ next, after.connection.advance next = after.connection) ∧
      (∀ stage, service.failure? d octets c = some stage ↔
        ∃ p q fault time, service.ComesTo d octets c p ∧ q ∈ p.step d ∧
          q.errand = .finished (.failed fault) time ∧ p.phase? = some stage) ∧
      ∀ stage fault, service.failure? d octets c = some stage → fault? = some fault →
        after.journal.getLast? = some (Serving.failureEntry c stage fault) := by
  intro c fault? after
  obtain ⟨time, hend⟩ := service.comesTo_end d octets c
  have hplaced := ComesTo.placed hend
  -- All is said about the stages in front of the end; closing adds the last stage at most.
  have hclosed : after.connection.visited = (service.ending d octets c).connection.visited ++
      if fault?.isSome then [Stage.failed] else [] :=
    service.visited_serve d octets id peer localEnd
  refine ⟨fun p q hp hpq => ⟨Passage.visited_of_reached hpq, ?_, ?_⟩, ?_, ?_, ?_,
    fun hfailed => Serving.close_failed_stays hfailed _, failure_iff,
    fun stage fault => journal_failure⟩
  · rw [hclosed]
    exact (Passage.visited_of_reached (ComesTo.reached_end (hp.trans hpq) hend rfl)).trans
      (List.prefix_append _ _)
  · exact (ComesTo.placed (hp.trans hpq)).not_failed
  · rw [hclosed]
    split
    · exact hplaced.ordered
    · rw [List.append_nil]
      exact (List.pairwise_append.1 hplaced.ordered).1
  · rw [hclosed, ← ComesTo.streaming_iff hend rfl, List.mem_append]
    refine or_iff_left ?_
    split <;> simp
  · rw [hclosed, List.mem_append]
    refine (or_iff_right hplaced.not_failed).trans ?_
    split <;> simp [*]

end Service
end SyslogIntake
