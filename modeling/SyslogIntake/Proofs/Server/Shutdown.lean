import SyslogIntake.Proofs.Server.Exchange
import SyslogIntake.Proofs.Server.Permits

/-!
# Shutting down

However many people ask a source questions, and whatever else happens to it, every question is
resolved at most once, and none is left when the source has ended.  The first question to shut
down that the source takes is the only one that it acknowledges.  When it does, nobody can reach
it any more, its tasks are gone, and nobody is left who could send a record.

**Results.**

* `Docket`, `step_docket`, `run_docket` : every ticket is in one place, and its reply fits;
* `Farewell`, `step_farewell`, `run_farewell` : what was taken, what was acknowledged, and when;
* `exists_ended` : a source that takes its leave can always come to its end;
* `shutdown_exact` : all that those who ask can rely on.
-/

namespace SyslogIntake
namespace Exchange

/-- The ticket of the question that the source has taken and not yet answered. -/
def inHand (x : Exchange) : List Nat :=
  if x.acknowledged then [] else x.source.phase.ticket?.toList

/-- All tickets: of those who wait, of the question in hand, and of those who have their reply. -/
def tickets (x : Exchange) : List Nat :=
  x.source.queue.map Request.ticket ++ x.source.blocked.map Request.ticket ++ x.inHand ++
    x.source.replies.map Prod.fst

/-- Where the questions are that were asked so far. -/
structure Docket (asked : List Question) (x : Exchange) : Prop where
  count : x.source.asked = asked.length
  tickets : x.tickets.Perm (List.range asked.length)
  waiting : ∀ request ∈ x.source.queue ++ x.source.blocked,
    asked[request.ticket]? = some request.question
  taken : ∀ ticket, x.source.phase.ticket? = some ticket → asked[ticket]? = some .shutdown
  resolved : ∀ answer ∈ x.source.replies, ∃ question,
    asked[answer.1]? = some question ∧ question.allows answer.2 = true
  ended : x.source.phase = .ended → x.source.queue = [] ∧ x.source.blocked = []

/-- A question that was asked keeps its ticket. -/
theorem getElem?_append_of_eq_some
    {asked : List Question}
    {ticket : Nat}
    {question : Question}
    (h : asked[ticket]? = some question)
    (more : List Question) :
    (asked ++ more)[ticket]? = some question := by
  obtain ⟨hlt, -⟩ := List.getElem?_eq_some_iff.1 h
  rw [List.getElem?_append_left hlt]
  exact h

theorem docket_start
    (endpoint : Endpoint)
    (limit : Nat) :
    Docket [] (start endpoint limit) := by
  exact {
    count := rfl
    tickets := List.Perm.refl _
    waiting := fun _ hrequest => by cases hrequest
    taken := fun _ hticket => by cases hticket
    resolved := fun _ hanswer => by cases hanswer
    ended := fun _ => ⟨rfl, rfl⟩ }

theorem docket_work
    {asked : List Question}
    {x : Exchange}
    (hx : Docket asked x)
    (event : Source.Event) :
    Docket asked (x.work event) := by
  unfold work
  split
  · exact hx
  · rename_i hwork
    have hquiet := quiet_step (Bool.not_eq_true _ ▸ hwork) x.source
    refine {
      count := hquiet.asked.trans hx.count
      tickets := ?_
      waiting := ?_
      taken := ?_
      resolved := ?_
      ended := ?_ }
    · have htickets : (⟨x.source.step event, x.acknowledged⟩ : Exchange).tickets = x.tickets := by
        simp only [Exchange.tickets, inHand, hquiet.queue, hquiet.blocked, hquiet.replies,
          hquiet.ticket]
      rw [htickets]
      exact hx.tickets
    · rw [hquiet.queue, hquiet.blocked]
      exact hx.waiting
    · rw [hquiet.ticket]
      exact hx.taken
    · rw [hquiet.replies]
      exact hx.resolved
    · intro hended
      rw [hquiet.queue, hquiet.blocked]
      exact hx.ended (hquiet.ended.1 hended)

theorem docket_call
    {asked : List Question}
    {x : Exchange}
    (hx : Docket asked x)
    (question : Question) :
    Docket (asked ++ [question]) (x.call question) := by
  have hcount := hx.count
  have hnew : (asked ++ [question])[x.source.asked]? = some question := by
    rw [hcount, List.getElem?_concat_length]
  have htickets : ∀ ticket, x.tickets.count ticket = (List.range asked.length).count ticket :=
    fun ticket => hx.tickets.count_eq ticket
  simp only [Exchange.tickets, inHand, List.count_append] at htickets
  have hwaiting : ∀ request ∈ x.source.queue ++ x.source.blocked,
      (asked ++ [question])[request.ticket]? = some request.question :=
    fun request hrequest => getElem?_append_of_eq_some (hx.waiting request hrequest) _
  have hresolved : ∀ answer ∈ x.source.replies, ∃ q,
      (asked ++ [question])[answer.1]? = some q ∧ q.allows answer.2 = true := by
    intro answer hanswer
    obtain ⟨q, hq, hallows⟩ := hx.resolved answer hanswer
    exact ⟨q, getElem?_append_of_eq_some hq _, hallows⟩
  have htaken : ∀ ticket, x.source.phase.ticket? = some ticket →
      (asked ++ [question])[ticket]? = some .shutdown :=
    fun ticket hticket => getElem?_append_of_eq_some (hx.taken ticket hticket) _
  unfold call
  dsimp only
  split
  · refine {
      count := by simp [Source.reply, hcount]
      tickets := ?_
      waiting := hwaiting
      taken := htaken
      resolved := ?_
      ended := hx.ended }
    · refine List.perm_iff_count.2 fun ticket => ?_
      have := htickets ticket
      simp only [Exchange.tickets, inHand, Source.reply, List.length_append, List.length_cons,
        List.length_nil, List.range_succ, List.count_append, List.map_cons, List.count_cons,
        List.count_nil, hcount]
      omega
    · intro answer hanswer
      rcases List.mem_cons.1 hanswer with rfl | hold
      · refine ⟨question, hnew, ?_⟩
        cases question <;> rfl
      · exact hresolved answer hold
  · rename_i hgoing
    refine {
      count := by simp [hcount]
      tickets := ?_
      waiting := ?_
      taken := htaken
      resolved := hresolved
      ended := fun hended => absurd hended hgoing }
    · refine List.perm_iff_count.2 fun ticket => ?_
      have := htickets ticket
      simp only [Exchange.tickets, inHand, List.length_append, List.length_cons,
        List.length_nil, List.range_succ, List.count_append, List.map_append, List.map_cons,
        List.map_nil, List.count_cons, List.count_nil, hcount]
      omega
    · intro request hrequest
      rw [← List.append_assoc, List.mem_append, List.mem_singleton] at hrequest
      rcases hrequest with hold | rfl
      · exact hwaiting request hold
      · exact hnew

theorem docket_enter
    {asked : List Question}
    {x : Exchange}
    (hx : Docket asked x)
    (ticket : Nat) :
    Docket asked (x.enter ticket) := by
  unfold enter
  split
  · rename_i request hfound
    split
    · have hmem := List.mem_of_find?_eq_some hfound
      have hperm := List.perm_cons_erase hmem
      have hsame : (x.source.queue ++ [request] ++ x.source.blocked.erase request).Perm
          (x.source.queue ++ x.source.blocked) := by
        rw [List.append_assoc]
        exact List.Perm.append_left _ hperm.symm
      refine { hx with
        tickets := List.Perm.trans ?_ hx.tickets
        waiting := fun other hother => hx.waiting other (hsame.subset hother)
        ended := fun hended => ?_ }
      · simp only [Exchange.tickets, inHand, ← List.map_append]
        exact ((hsame.map Request.ticket).append_right _).append_right _
      · rw [(hx.ended hended).2] at hmem
        cases hmem
    · exact hx
  · exact hx

theorem docket_receive
    {asked : List Question}
    {x : Exchange}
    (hx : Docket asked x)
    (hearly : x.source.phase = .accepting → x.acknowledged = false) :
    Docket asked x.receive := by
  have hwaiting : ∀ {request : Request} {rest : List Request},
      x.source.queue = request :: rest →
      asked[request.ticket]? = some request.question ∧
        ∀ other ∈ rest ++ x.source.blocked, asked[other.ticket]? = some other.question := by
    intro request rest hqueue
    have hall := hx.waiting
    rw [hqueue, List.cons_append] at hall
    exact List.forall_mem_cons.1 hall
  have htickets : ∀ ticket, x.tickets.count ticket = (List.range asked.length).count ticket :=
    fun ticket => hx.tickets.count_eq ticket
  simp only [Exchange.tickets, inHand, List.count_append] at htickets
  rcases receive_cases x with ⟨ticket, rest, hphase, hqueue, -, heq⟩ |
    ⟨ticket, rest, hphase, hqueue, -, heq⟩ | ⟨-, heq⟩ <;> rw [heq]
  · obtain ⟨hasked, hrest⟩ := hwaiting hqueue
    refine { hx with
      tickets := List.perm_iff_count.2 fun other => ?_
      waiting := hrest
      resolved := List.forall_mem_cons.2 ⟨⟨.active, hasked, rfl⟩, hx.resolved⟩
      ended := fun hended => absurd (hphase.symm.trans hended) (by simp) }
    have := htickets other
    simp only [hqueue, List.map_cons, List.count_cons] at this
    simp only [Exchange.tickets, inHand, Source.reply, List.map_cons, List.count_append,
      List.count_cons]
    omega
  · obtain ⟨hasked, hrest⟩ := hwaiting hqueue
    obtain ⟨journal, hdrain⟩ := Source.drain_journal ticket { x.source with queue := rest }
    rw [hdrain]
    refine { hx with
      tickets := List.perm_iff_count.2 fun other => ?_
      waiting := hrest
      taken := fun other hother => ?_
      ended := fun hended => absurd hended (by simp) }
    · have := htickets other
      simp only [hqueue, hphase, hearly hphase, SourcePhase.ticket?, Bool.false_eq_true, if_false,
        Option.toList_none, List.map_cons, List.count_cons, List.count_nil] at this
      simp only [Exchange.tickets, inHand, hearly hphase, SourcePhase.ticket?, Bool.false_eq_true,
        if_false, Option.toList_some, List.count_append, List.count_cons, List.count_nil]
      omega
    · obtain rfl := Option.some.inj hother
      exact hasked
  · exact hx

theorem docket_acknowledge
    {asked : List Question}
    {x : Exchange}
    (hx : Docket asked x) :
    Docket asked x.acknowledge := by
  unfold acknowledge
  split
  case h_2 => exact hx
  case h_1 ticket hticket =>
    split
    case isFalse => exact hx
    case isTrue h =>
      refine { hx with
        tickets := List.perm_iff_count.2 fun other => ?_
        resolved := List.forall_mem_cons.2
          ⟨⟨.shutdown, hx.taken ticket hticket, rfl⟩, hx.resolved⟩ }
      have := hx.tickets.count_eq other
      simp only [Exchange.tickets, inHand, h.2, hticket, Bool.false_eq_true, if_false,
        Option.toList_some, List.count_append, List.count_cons, List.count_nil] at this
      simp only [Exchange.tickets, inHand, Source.reply, Source.note, if_true, List.count_append,
        List.map_cons, List.count_cons, List.count_nil]
      omega

/-- All who wait get their reply when the source lets go of the queue. -/
theorem docket_hangUp
    {asked : List Question}
    {x : Exchange}
    (hx : Docket asked x) :
    Docket asked x.hangUp := by
  unfold hangUp
  split
  case isFalse => exact hx
  case isTrue h =>
    have hundelivered : (x.source.blocked.map Source.undelivered).map Prod.fst =
        x.source.blocked.map Request.ticket := by
      rw [List.map_map]
      rfl
    have hunanswered : (x.source.queue.map Source.unanswered).map Prod.fst =
        x.source.queue.map Request.ticket := by
      rw [List.map_map]
      refine List.map_congr_left fun request _ => ?_
      obtain ⟨ticket, question⟩ := request
      cases question <;> rfl
    refine {
      count := hx.count
      tickets := List.perm_iff_count.2 fun other => ?_
      waiting := fun _ hrequest => by cases hrequest
      taken := fun _ hticket => by cases hticket
      resolved := fun answer hanswer => ?_
      ended := fun _ => ⟨rfl, rfl⟩ }
    · have := hx.tickets.count_eq other
      simp only [Exchange.tickets, inHand, h.1, if_true, List.count_append,
        List.count_nil] at this
      simp only [Exchange.tickets, inHand, h.1, if_true, List.count_append, List.map_append,
        List.map_nil, List.count_nil, hundelivered, hunanswered]
      omega
    · simp only [List.mem_append, List.mem_map] at hanswer
      rcases hanswer with (⟨request, hmem, rfl⟩ | ⟨request, hmem, rfl⟩) | hold
      · exact ⟨request.question, hx.waiting request (List.mem_append_right _ hmem), by
          cases request.question <;> rfl⟩
      · have hasked := hx.waiting request (List.mem_append_left _ hmem)
        obtain ⟨ticket, question⟩ := request
        cases question <;> exact ⟨_, hasked, rfl⟩
      · exact hx.resolved answer hold

/-- What the source has taken and acknowledged so far, and how it stands then. -/
structure Farewell (received : List Nat) (x : Exchange) : Prop where
  tenure : x.source.Tenure
  early : x.source.phase = .accepting → received = [] ∧ x.acknowledged = false
  closing : ∀ ticket, x.source.phase.ticket? = some ticket → received = [ticket]
  ended : x.source.phase = .ended → x.acknowledged = true ∧ ∃ ticket, received = [ticket]
  vacated : x.acknowledged = true → x.source.phase ≠ .accepting ∧ x.source.tasks = []
  done : ∀ ticket, (ticket, Reply.done) ∈ x.source.replies ↔
    x.acknowledged = true ∧ ticket ∈ received

/-- A source that does not accept connections and has no tasks stays without, and counts nothing. -/
theorem idle_step
    {s : Source}
    (hphase : s.phase ≠ .accepting)
    (htasks : s.tasks = [])
    {event : Source.Event}
    (hquiet : event.isQuestioning = false) :
    (s.step event).tasks = [] ∧ (s.step event).counters = s.counters := by
  cases event with
  | arrive peer => simp [Source.step, Source.arrive, hphase, htasks]
  | missArrival report => simp [Source.step, Source.missArrival, hphase, htasks]
  | find id finding => simp [Source.step, Source.find, Source.serves, htasks]
  | finish id failed => simp [Source.step, Source.finish, Source.serves, htasks]
  | crash id report => simp [Source.step, Source.crash, Source.leave, Source.move, htasks]
  | abort id =>
      simp only [Source.step, Source.abort]
      split
      · simp [Source.leave, Source.move, htasks]
      all_goals exact ⟨htasks, rfl⟩
  | release id => simp [Source.step, Source.release, htasks]
  | reap id => simp [Source.step, Source.reap, htasks]
  | expire =>
      simp only [Source.step, Source.expire, htasks, List.isEmpty_nil, if_true]
      split <;> exact ⟨htasks, rfl⟩
  | ask question => cases hquiet
  | take => cases hquiet
  | conclude => cases hquiet

theorem farewell_start
    (endpoint : Endpoint)
    (limit : Nat) :
    Farewell [] (start endpoint limit) where
  tenure := Source.tenure_start endpoint limit
  early := fun _ => ⟨rfl, rfl⟩
  closing := fun _ hticket => by cases hticket
  ended := fun hended => by cases hended
  vacated := fun hacknowledged => by cases hacknowledged
  done := fun ticket => by simp [start, Source.start]

theorem farewell_work
    {received : List Nat}
    {x : Exchange}
    (hx : Farewell received x)
    (event : Source.Event) :
    Farewell received (x.work event) := by
  unfold work
  split
  · exact hx
  · rename_i hwork
    have hwork := Bool.not_eq_true _ ▸ hwork
    have hquiet := quiet_step hwork x.source
    exact {
      tenure := Source.step_tenure hx.tenure event
      early := fun hphase => hx.early (hquiet.accepting.1 hphase)
      closing := fun ticket hticket => hx.closing ticket (hquiet.ticket ▸ hticket)
      ended := fun hended => hx.ended (hquiet.ended.1 hended)
      vacated := fun hacknowledged => by
        obtain ⟨hphase, htasks⟩ := hx.vacated hacknowledged
        exact ⟨fun h => hphase (hquiet.accepting.1 h), (idle_step hphase htasks hwork).1⟩
      done := fun ticket => by
        rw [hquiet.replies]
        exact hx.done ticket }

theorem farewell_call
    {received : List Nat}
    {x : Exchange}
    (hx : Farewell received x)
    (question : Question) :
    Farewell received (x.call question) := by
  unfold call
  dsimp only
  split
  · refine { hx with done := fun ticket => ?_ }
    rw [← hx.done ticket]
    simp [Source.reply]
  · exact { hx with }

theorem farewell_enter
    {received : List Nat}
    {x : Exchange}
    (hx : Farewell received x)
    (ticket : Nat) :
    Farewell received (x.enter ticket) := by
  unfold enter
  split
  · split
    · exact { hx with }
    · exact hx
  · exact hx

/-- The first question to shut down that the source takes is the only one. -/
theorem farewell_receive
    {received : List Nat}
    {x : Exchange}
    (hx : Farewell received x) :
    Farewell (received ++ (x.takes? .receive).toList) x.receive := by
  rcases receive_cases x with ⟨ticket, rest, hphase, hqueue, htakes, heq⟩ |
    ⟨ticket, rest, hphase, hqueue, htakes, heq⟩ | ⟨htakes, heq⟩ <;> rw [htakes, heq]
  · rw [Option.toList_none, List.append_nil]
    refine { hx with done := fun other => ?_ }
    rw [← hx.done other]
    simp [Source.reply]
  · obtain ⟨rfl, hearly⟩ := hx.early hphase
    obtain ⟨journal, hdrain⟩ := Source.drain_journal ticket { x.source with queue := rest }
    rw [hdrain, List.nil_append, Option.toList_some]
    refine {
      tenure := ⟨rfl, rfl⟩
      early := fun h => absurd h (by simp)
      closing := fun other hother => by rw [Option.some.inj hother]
      ended := fun h => absurd h (by simp)
      vacated := fun hacknowledged => absurd (hearly.symm.trans hacknowledged) (by simp)
      done := fun other => ?_ }
    rw [hx.done other, hearly]
    simp
  · rw [Option.toList_none, List.append_nil]
    exact hx

/-- The question that was taken is acknowledged once the tasks are gone. -/
theorem farewell_acknowledge
    {received : List Nat}
    {x : Exchange}
    (hx : Farewell received x) :
    Farewell received x.acknowledge := by
  unfold acknowledge
  split
  case h_2 => exact hx
  case h_1 ticket hticket =>
    split
    case isFalse => exact hx
    case isTrue h =>
      have hphase : x.source.phase ≠ .accepting := by
        intro hphase
        rw [hphase] at hticket
        cases hticket
      have hreceived := hx.closing ticket hticket
      refine { hx with
        early := fun h => absurd h hphase
        ended := fun _ => ⟨rfl, ticket, hreceived⟩
        vacated := fun _ => ⟨hphase, h.1⟩
        done := fun other => ?_ }
      have hnone : (other, Reply.done) ∉ x.source.replies := by
        rw [hx.done other, h.2]
        simp
      simp [Source.reply, Source.note, hnone, hreceived]

/-- Whoever is left when the source lets go of the queue gets no acknowledgement. -/
theorem farewell_hangUp
    {received : List Nat}
    {x : Exchange}
    (hx : Farewell received x) :
    Farewell received x.hangUp := by
  unfold hangUp
  split
  case isFalse => exact hx
  case isTrue h =>
    obtain ⟨hphase, htasks⟩ := hx.vacated h.1
    refine {
      tenure := hx.tenure.with_phase hphase nofun
      early := fun hearly => absurd hearly (by simp)
      closing := fun ticket hticket => by cases hticket
      ended := ?_
      vacated := fun _ => ⟨by simp, htasks⟩
      done := fun other => ?_ }
    · rcases hticket : x.source.phase with _ | ticket | ticket | _
      case accepting => exact absurd hticket hphase
      case ended => exact absurd hticket h.2
      all_goals exact fun _ => ⟨h.1, ticket, hx.closing ticket (by rw [hticket]; rfl)⟩
    · rw [← hx.done other]
      have hleft : ∀ request, Source.unanswered request ≠ (other, .done) := by
        rintro ⟨ticket, question⟩
        cases question <;> simp [Source.unanswered]
      simp [Source.undelivered, hleft]

/-- No event loses a question, or resolves one twice. -/
theorem step_docket
    {asked : List Question}
    {received : List Nat}
    {x : Exchange}
    (hx : Docket asked x)
    (hfarewell : Farewell received x)
    (event : Event) :
    Docket (asked ++ event.question?.toList) (x.step event) := by
  cases event with
  | call question => exact docket_call hx question
  | work event => exact (List.append_nil asked).symm ▸ docket_work hx event
  | enter ticket => exact (List.append_nil asked).symm ▸ docket_enter hx ticket
  | receive =>
      exact (List.append_nil asked).symm ▸
        docket_receive hx fun hphase => (hfarewell.early hphase).2
  | acknowledge => exact (List.append_nil asked).symm ▸ docket_acknowledge hx
  | hangUp => exact (List.append_nil asked).symm ▸ docket_hangUp hx

/-- No event lets the source take its leave twice, or too early. -/
theorem step_farewell
    {received : List Nat}
    {x : Exchange}
    (hx : Farewell received x)
    (event : Event) :
    Farewell (received ++ (x.takes? event).toList) (x.step event) := by
  cases event with
  | receive => exact farewell_receive hx
  | work event => exact (List.append_nil received).symm ▸ farewell_work hx event
  | call question => exact (List.append_nil received).symm ▸ farewell_call hx question
  | enter ticket => exact (List.append_nil received).symm ▸ farewell_enter hx ticket
  | acknowledge => exact (List.append_nil received).symm ▸ farewell_acknowledge hx
  | hangUp => exact (List.append_nil received).symm ▸ farewell_hangUp hx

/-- What holds of the questions and of the leave of a source, after any course of events. -/
theorem run_docket
    {asked : List Question}
    {received : List Nat}
    {x : Exchange}
    (hx : Docket asked x)
    (hfarewell : Farewell received x)
    (events : List Event) :
    Docket (asked ++ questions events) (x.run events) ∧
      Farewell (received ++ x.received events) (x.run events) := by
  induction events generalizing asked received x with
  | nil => exact ⟨(List.append_nil asked).symm ▸ hx, (List.append_nil received).symm ▸ hfarewell⟩
  | cons event events ih =>
      have hrest := ih (step_docket hx hfarewell event) (step_farewell hfarewell event)
      have hquestions : questions (event :: events) =
          event.question?.toList ++ questions events := by
        cases hquestion : event.question? <;> simp [questions, hquestion]
      rw [run_cons, hquestions, Exchange.received, ← List.append_assoc, ← List.append_assoc]
      exact hrest

/-- A reply that was given stays given, and no other one takes its place. -/
theorem step_replies
    (x : Exchange)
    (event : Event) :
    x.source.replies <:+ (x.step event).source.replies := by
  cases event with
  | work event =>
      simp only [step, work]
      split
      · exact List.suffix_refl _
      · rename_i hwork
        have hsame := (quiet_step (Bool.not_eq_true _ ▸ hwork) x.source).replies
        exact hsame ▸ List.suffix_refl _
  | call question =>
      simp only [step, call]
      split
      · exact List.suffix_cons _ _
      · exact List.suffix_refl _
  | enter ticket =>
      simp only [step, enter]
      split
      · split <;> exact List.suffix_refl _
      · exact List.suffix_refl _
  | receive =>
      rcases receive_cases x with ⟨ticket, rest, -, -, -, heq⟩ | ⟨ticket, rest, -, -, -, heq⟩ |
        ⟨-, heq⟩
      · rw [step, heq]
        exact List.suffix_cons _ _
      · obtain ⟨journal, hdrain⟩ := Source.drain_journal ticket { x.source with queue := rest }
        have hsame : (x.step .receive).source.replies = x.source.replies := by
          rw [step, heq, hdrain]
        exact hsame ▸ List.suffix_refl _
      · have hsame : (x.step .receive).source.replies = x.source.replies := by rw [step, heq]
        exact hsame ▸ List.suffix_refl _
  | acknowledge =>
      simp only [step, acknowledge]
      split
      · split
        · exact List.suffix_cons _ _
        · exact List.suffix_refl _
      · exact List.suffix_refl _
  | hangUp =>
      simp only [step, hangUp]
      split
      · exact List.suffix_append _ _
      · exact List.suffix_refl _

/-- The replies that were given stay given in any course of events. -/
theorem run_replies
    (x : Exchange)
    (events : List Event) :
    x.source.replies <:+ (x.run events).source.replies := by
  induction events generalizing x with
  | nil => exact List.suffix_refl _
  | cons event events ih => exact (step_replies x event).trans (ih (x.step event))

/-- Nobody can reach a source, nothing is at work in it, and nobody can send records. -/
structure Deserted (s : Source) : Prop where
  unreachable : s.isListening = false
  idle : s.tasks = []
  silent : s.senders = 0

theorem deserted_of_idle
    {s : Source}
    (htenure : s.Tenure)
    (hphase : s.phase ≠ .accepting)
    (htasks : s.tasks = []) :
    Deserted s := by
  have hlistening : s.isListening = false := htenure.1.trans (beq_eq_false_iff_ne.2 hphase)
  have houtput : s.holdsOutput = false := htenure.2.trans (beq_eq_false_iff_ne.2 hphase)
  exact ⟨hlistening, htasks, by simp [Source.senders, houtput, Source.serving, htasks]⟩

/-- Once the source has said that it has shut down, nothing is counted any more. -/
theorem step_acknowledged
    {received : List Nat}
    {x : Exchange}
    (hx : Farewell received x)
    (hacknowledged : x.acknowledged = true)
    (event : Event) :
    (x.step event).acknowledged = true ∧ (x.step event).source.counters = x.source.counters := by
  obtain ⟨hphase, htasks⟩ := hx.vacated hacknowledged
  cases event with
  | work event =>
      simp only [step, work]
      split
      · exact ⟨hacknowledged, rfl⟩
      · rename_i hwork
        exact ⟨hacknowledged, (idle_step hphase htasks (Bool.not_eq_true _ ▸ hwork)).2⟩
  | call question =>
      simp only [step, call]
      split <;> exact ⟨hacknowledged, rfl⟩
  | enter ticket =>
      simp only [step, enter]
      split
      · split <;> exact ⟨hacknowledged, rfl⟩
      · exact ⟨hacknowledged, rfl⟩
  | receive => simp [step, receive, hphase, hacknowledged]
  | acknowledge =>
      simp only [step, acknowledge, hacknowledged]
      split
      · simp [hacknowledged]
      · exact ⟨hacknowledged, rfl⟩
  | hangUp =>
      simp only [step, hangUp]
      split <;> exact ⟨hacknowledged, rfl⟩

/-- After the source has said that it has shut down it is deserted for good. -/
theorem run_acknowledged
    {received : List Nat}
    {x : Exchange}
    (hx : Farewell received x)
    (hacknowledged : x.acknowledged = true)
    (events : List Event) :
    Deserted (x.run events).source ∧ (x.run events).source.counters = x.source.counters := by
  induction events generalizing received x with
  | nil =>
      obtain ⟨hphase, htasks⟩ := hx.vacated hacknowledged
      exact ⟨deserted_of_idle hx.tenure hphase htasks, rfl⟩
  | cons event events ih =>
      obtain ⟨hstill, hcounters⟩ := step_acknowledged hx hacknowledged event
      obtain ⟨hdeserted, hrest⟩ := ih (step_farewell hx event) hstill
      exact ⟨hdeserted, hrest.trans hcounters⟩

/-- What happens to the source alone, one thing after the other. -/
theorem run_work
    {events : List Source.Event}
    (hquiet : ∀ event ∈ events, event.isQuestioning = false)
    (x : Exchange) :
    x.run (events.map .work) = { x with source := x.source.run events } := by
  induction events generalizing x with
  | nil => rfl
  | cons event events ih =>
      have hhead : x.step (.work event) = { x with source := x.source.step event } := by
        simp only [step, work, hquiet event List.mem_cons_self, Bool.false_eq_true, if_false]
      rw [List.map_cons, run_cons, hhead, ih fun other hother =>
        hquiet other (List.mem_cons_of_mem event hother)]
      rfl

/-- A source that takes its leave and has no tasks says so, and ends. -/
theorem ended_of_idle
    {x : Exchange}
    {ticket : Nat}
    (hticket : x.source.phase.ticket? = some ticket)
    (htasks : x.source.tasks = []) :
    (x.run [.acknowledge, .hangUp]).source.phase = .ended := by
  have hphase : x.source.phase ≠ .ended := by
    intro hphase
    rw [hphase] at hticket
    cases hticket
  cases hacknowledged : x.acknowledged <;>
    simp [run, step, acknowledge, hangUp, Source.reply, Source.note, hticket, htasks,
      hacknowledged, hphase]

/-- A source whose tasks are aborted ends once they have taken their leave. -/
theorem exists_ended_of_aborting
    {x : Exchange}
    {ticket : Nat}
    (hphase : x.source.phase = .aborting ticket) :
    ∃ more, (x.run more).source.phase = .ended := by
  have hquiet : ∀ event ∈ x.source.ids.flatMap Source.farewell, event.isQuestioning = false := by
    intro event hevent
    obtain ⟨id, -, hfarewell⟩ := List.mem_flatMap.1 hevent
    simp only [Source.farewell, List.mem_cons, List.not_mem_nil, or_false] at hfarewell
    rcases hfarewell with rfl | rfl | rfl <;> rfl
  obtain ⟨htasks, hstill⟩ := Source.tasks_dismiss hphase
  refine ⟨(x.source.ids.flatMap Source.farewell).map .work ++ [.acknowledge, .hangUp], ?_⟩
  rw [run_append, run_work hquiet]
  have hticket : (⟨x.source.dismiss, x.acknowledged⟩ : Exchange).source.phase.ticket? =
      some ticket := by
    rw [hstill]
    rfl
  exact ended_of_idle hticket htasks

/-- A source that takes its leave can always come to its end: the time of the tasks runs out, and
those that are left are aborted. -/
theorem exists_ended
    {x : Exchange}
    (hphase : x.source.phase ≠ .accepting) :
    ∃ more, (x.run more).source.phase = .ended := by
  rcases hwhere : x.source.phase with _ | ticket | ticket | _
  case accepting => exact absurd hwhere hphase
  case ended => exact ⟨[], hwhere⟩
  case aborting => exact exists_ended_of_aborting hwhere
  case draining =>
    by_cases htasks : x.source.tasks = []
    · exact ⟨_, ended_of_idle (by rw [hwhere]; rfl) htasks⟩
    · have hexpired : (x.step (.work .expire)).source.phase = .aborting ticket := by
        simp [step, work, Source.Event.isQuestioning, Source.step, Source.expire, Source.note,
          hwhere, htasks]
      obtain ⟨more, hmore⟩ := exists_ended_of_aborting hexpired
      exact ⟨.work .expire :: more, hmore⟩

/-- What the source takes from the queue is only taken while it accepts connections. -/
theorem accepting_of_received
    {received : List Nat}
    {x : Exchange}
    (hx : Farewell received x)
    (hreceived : received ≠ []) :
    x.source.phase ≠ .accepting :=
  fun hphase => hreceived (hx.early hphase).1

theorem length_received_le
    {received : List Nat}
    {x : Exchange}
    (hx : Farewell received x) :
    received.length ≤ 1 := by
  rcases hwhere : x.source.phase with _ | ticket | ticket | _
  case accepting => simp [(hx.early hwhere).1]
  case ended =>
    obtain ⟨-, ticket, rfl⟩ := hx.ended hwhere
    exact Nat.le_refl 1
  all_goals simp [hx.closing ticket (by rw [hwhere]; rfl)]

/-- Only the question that was taken is acknowledged. -/
theorem received_of_done
    {received : List Nat}
    {x : Exchange}
    (hx : Farewell received x)
    {ticket : Nat}
    (hdone : (ticket, Reply.done) ∈ x.source.replies) :
    received = [ticket] := by
  have hlength := length_received_le hx
  obtain ⟨-, hmem⟩ := (hx.done ticket).1 hdone
  obtain ⟨front, back, happend⟩ := List.append_of_mem hmem
  rw [happend, List.length_append, List.length_cons] at hlength
  rw [happend, List.length_eq_zero_iff.1 (by omega : front.length = 0),
    List.length_eq_zero_iff.1 (by omega : back.length = 0), List.nil_append]

/-- When the source has ended every question is resolved. -/
theorem replied_of_ended
    {asked : List Question}
    {x : Exchange}
    (hx : Docket asked x)
    (hended : x.source.phase = .ended)
    {ticket : Nat}
    (hticket : ticket < asked.length) :
    ∃ reply, (ticket, reply) ∈ x.source.replies := by
  obtain ⟨hqueue, hblocked⟩ := hx.ended hended
  have hmem := hx.tickets.symm.subset (List.mem_range.2 hticket)
  simp only [tickets, inHand, hqueue, hblocked, hended, SourcePhase.ticket?, ite_self,
    Option.toList_none, List.map_nil, List.append_nil, List.nil_append] at hmem
  obtain ⟨⟨_, reply⟩, hreply, rfl⟩ := List.mem_map.1 hmem
  exact ⟨reply, hreply⟩

/-- When the source has ended a question to shut down that was not taken ends in a fault. -/
theorem fault_of_ended
    {asked : List Question}
    {received : List Nat}
    {x : Exchange}
    (hx : Docket asked x)
    (hfarewell : Farewell received x)
    (hended : x.source.phase = .ended)
    {other : Nat}
    (hother : asked[other]? = some .shutdown)
    (hleft : other ∉ received) :
    ∃ cause, (other, Reply.fault cause) ∈ x.source.replies := by
  obtain ⟨hlt, -⟩ := List.getElem?_eq_some_iff.1 hother
  obtain ⟨reply, hreply⟩ := replied_of_ended hx hended hlt
  obtain ⟨question, hquestion, hallows⟩ := hx.resolved _ hreply
  obtain rfl := Option.some.inj (hquestion.symm.trans hother)
  rcases reply with count | _ | cause
  case active => cases hallows
  case done => exact absurd ((hfarewell.done other).1 hreply).2 hleft
  case fault => exact ⟨cause, hreply⟩

/-- The source only says that it has shut down when it has no tasks and accepts no connections. -/
theorem acknowledge_of_step
    {x : Exchange}
    {event : Event}
    (hbefore : x.acknowledged = false)
    (hafter : (x.step event).acknowledged = true) :
    x.source.phase ≠ .accepting ∧ x.source.tasks = [] := by
  have hsame : ∀ y : Exchange, y.acknowledged = x.acknowledged → y.acknowledged ≠ true :=
    fun y hy h => absurd (hbefore.symm.trans (hy.symm.trans h)) (by simp)
  cases event with
  | acknowledge =>
      simp only [step, acknowledge] at hafter
      split at hafter
      · rename_i ticket hticket
        split at hafter
        · rename_i h
          refine ⟨fun hphase => ?_, h.1⟩
          rw [hphase] at hticket
          cases hticket
        · exact absurd hafter (hsame _ rfl)
      · exact absurd hafter (hsame _ rfl)
  | work event =>
      refine absurd hafter (hsame _ ?_)
      simp only [step, work]
      split <;> rfl
  | call question =>
      refine absurd hafter (hsame _ ?_)
      simp only [step, call]
      split <;> rfl
  | enter ticket =>
      refine absurd hafter (hsame _ ?_)
      simp only [step, enter]
      split
      · split <;> rfl
      · rfl
  | receive =>
      refine absurd hafter (hsame _ ?_)
      rcases receive_cases x with ⟨_, _, -, -, -, heq⟩ | ⟨_, _, -, -, -, heq⟩ | ⟨-, heq⟩ <;>
        rw [step, heq]
  | hangUp =>
      refine absurd hafter (hsame _ ?_)
      simp only [step, hangUp]
      split <;> rfl

/-- A question to shut down is acknowledged by a source that is deserted, and stays so. -/
theorem deserted_of_done
    {received : List Nat}
    {x : Exchange}
    (hx : Farewell received x)
    {event : Event}
    {ticket : Nat}
    (hbefore : (ticket, Reply.done) ∉ x.source.replies)
    (hafter : (ticket, Reply.done) ∈ (x.step event).source.replies)
    (more : List Event) :
    Deserted x.source ∧ Deserted ((x.step event).run more).source ∧
      ((x.step event).run more).source.counters = (x.step event).source.counters := by
  have hnext := step_farewell hx event
  obtain ⟨hacknowledged, hreceived⟩ := (hnext.done ticket).1 hafter
  have hyet : x.acknowledged = false := by
    rw [Bool.eq_false_iff]
    intro hyet
    -- A source that has acknowledged takes no question any more.
    have hnone : x.takes? event = none := by
      obtain ⟨hphase, -⟩ := hx.vacated hyet
      cases event <;> simp [takes?, hphase]
    rw [hnone, Option.toList_none, List.append_nil] at hreceived
    exact hbefore ((hx.done ticket).2 ⟨hyet, hreceived⟩)
  obtain ⟨hphase, htasks⟩ := acknowledge_of_step hyet hacknowledged
  exact ⟨deserted_of_idle hx.tenure hphase htasks,
    run_acknowledged hnext hacknowledged more⟩

/-- Those who ask a source questions can rely on this, whoever asks what, and whatever else
happens.  Every question is resolved at most once, by a reply that fits, and for good; when the
source has ended every question is resolved.  At most one question to shut down is ever taken, and
the source can always come to its end then; that question is acknowledged, no other one is, and
every other question to shut down ends in a fault.  A source that acknowledges cannot be reached
any more, has no tasks, and nobody is left who could send a record; so it stays, and nothing is
counted afterwards. -/
theorem shutdown_exact
    (endpoint : Endpoint)
    (limit : Nat)
    (events : List Event) :
    let begun := start endpoint limit
    let x := begun.run events
    let asked := questions events
    let taken := begun.received events
    (x.source.replies.map Prod.fst).Nodup ∧
      (∀ answer ∈ x.source.replies,
        (∃ question, asked[answer.1]? = some question ∧ question.allows answer.2 = true) ∧
        ∀ more, answer ∈ (x.run more).source.replies) ∧
      (x.source.phase = .ended →
        ∀ ticket < asked.length, ∃ reply, (ticket, reply) ∈ x.source.replies) ∧
      taken.length ≤ 1 ∧
      (∀ ticket, (ticket, Reply.done) ∈ x.source.replies → taken = [ticket]) ∧
      (∀ ticket ∈ taken, ∃ more, (x.run more).source.phase = .ended) ∧
      (∀ ticket ∈ taken, x.source.phase = .ended →
        (ticket, Reply.done) ∈ x.source.replies ∧
        ∀ other, asked[other]? = some .shutdown → other ≠ ticket →
          ∃ cause, (other, Reply.fault cause) ∈ x.source.replies) ∧
      (∀ event ticket, (ticket, Reply.done) ∉ x.source.replies →
        (ticket, Reply.done) ∈ (x.step event).source.replies →
        Deserted x.source ∧ ∀ more, Deserted ((x.step event).run more).source ∧
          ((x.step event).run more).source.counters = (x.step event).source.counters) := by
  intro begun x asked taken
  obtain ⟨hdocket, hfarewell⟩ : Docket asked x ∧ Farewell taken x :=
    run_docket (docket_start endpoint limit) (farewell_start endpoint limit) events
  refine ⟨?_, ?_, fun hended ticket hticket => replied_of_ended hdocket hended hticket,
    length_received_le hfarewell, fun ticket hticket => received_of_done hfarewell hticket,
    ?_, ?_, ?_⟩
  · have hnodup := hdocket.tickets.nodup_iff.2 List.nodup_range
    exact hnodup.sublist (List.sublist_append_right _ _)
  · exact fun answer hanswer => ⟨hdocket.resolved answer hanswer, fun more =>
      (run_replies x more).subset hanswer⟩
  · exact fun ticket hticket =>
      exists_ended (accepting_of_received hfarewell (List.ne_nil_of_mem hticket))
  · intro ticket hticket hended
    have hdone := (hfarewell.done ticket).2 ⟨(hfarewell.ended hended).1, hticket⟩
    refine ⟨hdone, fun other hother hne => fault_of_ended hdocket hfarewell hended hother ?_⟩
    rw [received_of_done hfarewell hdone, List.mem_singleton]
    exact hne
  · exact fun event ticket hbefore hafter =>
      ⟨(deserted_of_done hfarewell hbefore hafter []).1, fun more =>
        (deserted_of_done hfarewell hbefore hafter more).2⟩

/-- Three people ask at the same time, and two of them want the source to shut down; the later of
these gets its place in the queue first.  A fourth one asks between the acknowledgement and the
end, a fifth one afterwards. -/
def raced : List Event :=
  [.work (.arrive (.v4 ⟨192, 0, 2, 1⟩ 5000)), .call .shutdown, .call .shutdown, .call .active,
    .enter 2, .enter 1, .receive, .receive, .work .expire, .acknowledge, .enter 0,
    .work (.abort 1), .work (.release 1), .work (.reap 1), .acknowledge, .call .active, .hangUp,
    .call .shutdown]

/-- Only the question that is taken is acknowledged, and all the others are resolved too. -/
theorem shutdown_exact_raced :
    let begun := start (.v4 ⟨127, 0, 0, 1⟩ 601) 2
    1 ∈ begun.received raced ∧
      (begun.run raced).source.phase = .ended ∧
      (1, Reply.done) ∈ (begun.run raced).source.replies ∧
      (∃ cause, (0, Reply.fault cause) ∈ (begun.run raced).source.replies) ∧
      (∃ reply, (3, reply) ∈ (begun.run raced).source.replies) ∧
      ∃ cause, (4, Reply.fault cause) ∈ (begun.run raced).source.replies := by
  have htaken : 1 ∈ (start (.v4 ⟨127, 0, 0, 1⟩ 601) 2).received raced := by decide +kernel
  have hended : ((start (.v4 ⟨127, 0, 0, 1⟩ 601) 2).run raced).source.phase = .ended := by
    decide +kernel
  obtain ⟨-, -, hall, -, -, -, hshutdown, -⟩ :=
    shutdown_exact (.v4 ⟨127, 0, 0, 1⟩ 601) 2 raced
  obtain ⟨hdone, hothers⟩ := hshutdown 1 htaken hended
  exact ⟨htaken, hended, hdone, hothers 0 (by decide) (by decide), hall hended 3 (by decide),
    hothers 4 (by decide) (by decide)⟩

end Exchange
end SyslogIntake
