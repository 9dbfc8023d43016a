import Santiago.Lib.Rest
import Santiago.Server.Component
import Santiago.Server.Ownership

/-!
# Santiago.Server.Rest

What the process does when nobody asks for anything: no bytes come, no
connection is accepted, and no user calls.  Then its read loops, its strands
and its destructors are left, and they come to an end whatever order they take
their turns in: `work` says how many of these steps are left at most.

Where they have come to an end, every request that has come in whole is in the
hands of its user.
-/

namespace Santiago

open Effect Bytes PacketSocket

/-! ## The work that is left on a connection -/

/-- The work that a callback makes for the acceptor and behind it. -/
def Event.load : Event → Nat
  | .requestReady _ _ _ => 5
  | .closeCallback => 1
  | _ => 0

/-- What the events of a step add to the work of the acceptor. -/
def loads (es : List Event) : Nat := (es.map Event.load).sum

@[simp] theorem loads_nil : loads [] = 0 := rfl

@[simp] theorem loads_cons (e : Event) (es : List Event) : loads (e :: es) = e.load + loads es := by
  simp [loads]

/-- The load of events in a row. -/
@[simp] theorem loads_append (es es' : List Event) : loads (es ++ es') = loads es + loads es' := by
  simp [loads]

/-- Records that go out are no load. -/
@[simp] theorem loads_wrote (ps : List (FcgiHeader × Bytes)) : loads (ps.map wroteEvent) = 0 := by
  simp [loads, wroteEvent, Event.load, Function.comp_def]

namespace Connection

/-- Every byte may be part of a record that makes a request ready; a
connection that is not CLOSED still has to close. -/
def work (c : Connection) : Nat :=
  6 * c.socket.inputBuffer.length + c.socket.strand.length + if c.state = .closed then 0 else 3

/-- A connection that shuts has two things less to do: it will not close any
more, and its flush is one task. -/
theorem work_shut {c : Connection} (hwf : c.WF) (hc : c.state ≠ .closed) :
    c.shut.work + 2 = c.work := by
  have hs : c.socket.state ≠ .closed := fun hs => hc (hwf.mpr hs)
  have hstrand : c.socket.shut.strand = c.socket.strand ++ [.flushProtocolSocket] := by
    rw [PacketSocket.shut, if_neg hs]
  rw [work, work, if_pos (state_shut c), if_neg hc, socket_shut, inputBuffer_shut, hstrand,
    List.length_append, List.length_singleton]
  omega

/-- The failures to come are no work. -/
@[simp] theorem work_withFaults (c : Connection) (fs : List (Option Nat)) :
    (c.withFaults fs).work = c.work := rfl

/-- Nor are the requests. -/
@[simp] theorem work_data (c : Connection) (d : ConnectionData) :
    work { c with data := d } = c.work := rfl

/-- The same, whatever became of its requests. -/
theorem work_shut_data {c : Connection} (hwf : c.WF) (hc : c.state ≠ .closed)
    (fs : List (Option Nat)) (d : ConnectionData) :
    (shut ⟨(c.withFaults fs).socket, d, (c.withFaults fs).state⟩).work + 2 = c.work :=
  @work_shut ⟨(c.withFaults fs).socket, d, c.state⟩ hwf hc

/-- Taking a record off the buffer takes its bytes off. -/
theorem work_consumed {c : Connection} (h : FcgiHeader)
    (hlen : fcgiHeaderLen ≤ c.socket.inputBuffer.length) :
    (c.consumed h.recordLength).work + 6 ≤ c.work := by
  have hlt := FcgiHeader.length_drop_lt h hlen
  rw [work, work, inputBuffer_consumed, strand_consumed, state_consumed]
  omega

/-- A packet adds less work than the bytes of its record were worth. -/
theorem PacketEffect.work_le {c c' : Connection} {r : Nat} {t : UInt8} {content : Bytes}
    {x : Exit Unit} {es : List Event} (hwf : c.WF) (h : PacketEffect c r t content ⟨x, c', es⟩)
    (hlive : ∀ w, x ≠ .abort w) : c'.work + loads es ≤ c.work + 5 := by
  cases h with
  | rejected => simp
  | answered => simp [work_withFaults]
  | @answerFailed _ _ _ part fs k _ hc =>
      have hwork := work_shut (c := c.withFaults fs) hwf hc
      rw [work_withFaults] at hwork
      simp only [failedWrite, loads_append, loads_wrote, loads_cons, Event.load, loads_nil]
      omega
  | began => simp [work_data, Event.load]
  | beganLast _ _ _ hc => simp [work, Event.load, hc]
  | abortUnknown => simp [work_withFaults, wroteEvent, Event.load]
  | @aborted e fs =>
      have hwork : work { c.withFaults fs with data := c.data.erase r } = c.work := rfl
      rw [hwork]
      simp [wroteEvent, Event.load]
  | @abortedLast e fs _ hc =>
      have hwork := work_shut_data hwf (by rw [hc]; decide) fs (c.data.erase r)
      simp only [loads_cons, Event.load, wroteEvent, loads_nil]
      omega
  | @abortFailed _ _ fs _ hc =>
      have hwork := work_shut (c := c.withFaults fs) hwf hc
      rw [work_withFaults] at hwork
      simp only [loads_cons, Event.load, loads_nil]
      omega
  | received => simp [work_data]
  | receivedReady => simp [work_data, Event.load]
  | died => exact absurd rfl (hlive _)

/-- Each pass of the read loop lowers the work. -/
theorem PassEffect.work_lt {c c' : Connection} {again : Bool} {es : List Event} (hwf : c.WF)
    (h : PassEffect c ⟨.ret again, c', es⟩) :
    c'.work + (if again then 1 else 0) + loads es < c.work + 1 := by
  cases h with
  | drained => simp
  | incomplete => simp
  | @unsupported h hlen =>
      have hwork := work_consumed h hlen
      simp only [if_true, loads_nil]
      omega
  | @handled h content c' _ hn heffect =>
      have hle := heffect.work_le hwf (by simp)
      have hbuffer := heffect.inputBuffer_eq (by simp)
      have hwork := work_consumed (c := c') h (by rw [hbuffer]; exact hn.header_le)
      have hload : Event.load (.newPacket h.requestId h.type content) = 0 := rfl
      rw [loads_cons, hload]
      split <;> omega
  | @caught h content _ c' _ hn heffect =>
      have hle := heffect.work_le hwf (by simp)
      have hbuffer := heffect.inputBuffer_eq (by simp)
      have hwork := work_consumed (c := c') h (by rw [hbuffer]; exact hn.header_le)
      have hload : Event.load (.newPacket h.requestId h.type content) = 0 := rfl
      rw [loads_cons, hload, if_pos rfl]
      omega

/-- A reply adds no work beyond the task that it was. -/
theorem CommitEffect.work_le {c c' : Connection} {r ptr : Nat} {es : List Event} (hwf : c.WF)
    (h : CommitEffect c r ptr ⟨.ret (), c', es⟩) : c'.work + loads es ≤ c.work := by
  cases h with
  | stale => simp
  | @replied e fs =>
      have hwork : work { c.withFaults fs with data := c.data.erase r } = c.work := rfl
      rw [hwork]
      simp [Event.load]
  | @repliedLast e fs hc =>
      have hwork := work_shut_data hwf (by rw [hc]; decide) fs (c.data.erase r)
      simp only [loads_append, loads_wrote, loads_cons, Event.load, loads_nil]
      omega
  | @replyFailed e fs k size part hc =>
      have hwork := work_shut (c := c.withFaults fs) hwf hc
      rw [work_withFaults] at hwork
      simp only [loads_append, loads_wrote, loads_cons, Event.load, loads_nil]
      omega

end Connection

namespace Strand

/-- The work of a connection, and its read loop. -/
def work (s : Strand) : Nat := s.connection.work + if s.reading then 1 else 0

theorem work_mk (c : Connection) (reading : Bool) :
    work ⟨c, reading⟩ = c.work + if reading then 1 else 0 := rfl

/-- The heap is no work. -/
@[simp] theorem work_allocateFrom (s : Strand) (address : Nat) :
    (s.allocateFrom address).work = s.work := rfl

/-- The steps that a strand takes by itself. -/
def Step.isOwn : Step → Bool
  | .handleRead _ _ => false
  | .nextPacket => true
  | .runTask => true
  | .commitReply _ _ => false
  | .edit _ _ _ => false

/-- A task is taken off the queue. -/
theorem work_withStrand {c : Connection} {task : StrandTask} {rest : List StrandTask}
    (h : c.socket.strand = task :: rest) : (withStrand c rest).work + 1 = c.work := by
  have hwork : (withStrand c rest).work = 6 * c.socket.inputBuffer.length + rest.length +
    if c.state = .closed then 0 else 3 := rfl
  rw [hwork, Connection.work, h, List.length_cons]
  omega

/-- A task is put on the queue. -/
theorem work_push (s : Strand) (task : StrandTask) :
    work ⟨withStrand s.connection (s.connection.socket.strand ++ [task]), s.reading⟩ =
      s.work + 1 := by
  have hwork : (withStrand s.connection (s.connection.socket.strand ++ [task])).work =
      6 * s.connection.socket.inputBuffer.length +
        (s.connection.socket.strand ++ [task]).length +
          if s.connection.state = .closed then 0 else 3 := rfl
  rw [work_mk, hwork, work, Connection.work, List.length_append, List.length_singleton]
  omega

/-- Every step that a connection takes by itself lowers its work. -/
theorem Moves.work_lt {s s' : Strand} {l : Step} {es : List Event} (h : Moves s l s' es)
    (hwf : s.connection.WF) (he : machine.enabled s l = true) (hl : l.isOwn = true) :
    s'.work + loads es < s.work := by
  cases h with
  | pass h =>
      have hreading : s.reading = true := he
      have hwork := h.work_lt hwf
      rw [work_mk, work, hreading, if_pos rfl]
      exact hwork
  | @flush rest htasks hclosed =>
      have hwork := work_withStrand htasks
      have hle : ((withStrand s.connection rest).consumed
          (withStrand s.connection rest).socket.inputBuffer.length).work ≤
            (withStrand s.connection rest).work := by
        rw [Connection.work, Connection.work, Connection.inputBuffer_consumed,
          Connection.strand_consumed, Connection.state_consumed, List.drop_length]
        simp
      rw [work_mk, work, loads_nil]
      omega
  | @commit r ptr rest c' es htasks h =>
      have hwork := work_withStrand htasks
      have hle := Connection.CommitEffect.work_le (c := withStrand s.connection rest) hwf h
      rw [work_mk, work]
      omega
  | _ => cases hl

end Strand

/-! ## What a read loop leaves behind -/

/-- Outside its loop, a connection that is not CLOSED waits for more bytes. -/
def Strand.Idles (s : Strand) : Prop :=
  s.reading = false → s.connection.state ≠ .closed → Settled s.connection.socket.inputBuffer

/-- A pass that ends the loop leaves less than a record, unless the connection
is CLOSED. -/
theorem Connection.PassEffect.waits {c c' : Connection} {es : List Event} (hwf : c.WF)
    (h : PassEffect c ⟨.ret false, c', es⟩) (hc : c'.state ≠ .closed) :
    Settled c'.socket.inputBuffer := by
  have hwf' := h.wf hwf
  generalize hret : Exit.ret false = x at h
  cases h with
  | drained hlen => exact .inl hlen
  | @incomplete h _ hcast hversion hlen =>
      rw [Settled, hcast]
      exact .inr ⟨hversion, hlen⟩
  | unsupported => cases hret
  | @handled _ _ c' =>
      -- the loop ends behind a packet only when the socket is closed
      have hclosed : c'.socket.state = .closed := by simpa using hret
      exact absurd (hwf'.mpr hclosed) hc
  | caught => cases hret
  | died => cases hret

/-- A new connection has nothing to read. -/
theorem Strand.idles_init (fs : List (Option Nat)) (u : Nat → BitVec 32) : (init fs u).Idles := by
  intro _ _
  have hempty : (init fs u).connection.socket.inputBuffer = [] := rfl
  rw [hempty]
  exact .inl (by decide)

/-- A reply does not touch the input buffer. -/
theorem Connection.CommitEffect.inputBuffer_eq {c c' : Connection} {r ptr : Nat} {es : List Event}
    (h : CommitEffect c r ptr ⟨.ret (), c', es⟩) :
    c'.socket.inputBuffer = c.socket.inputBuffer := by
  cases h <;> simp

/-- Whenever the loop does not run, it has left less than a record. -/
theorem Strand.Moves.idles {s s' : Strand} {l : Strand.Step} {es : List Event}
    (h : Moves s l s' es) (hwf : s.connection.WF) (hs : s.Idles) : s'.Idles := by
  have hmono := h.life.state_mono.2
  intro hreading hopen
  have hwasOpen : s.connection.state ≠ .closed := fun hc => hopen (hmono hc)
  cases h with
  | readClosed hc => exact absurd hc hwasOpen
  | readFailed => exact absurd rfl hopen
  | readBytes => cases hreading
  | pass h =>
      cases hreading
      exact h.waits hwf hopen
  | flush _ hc => exact absurd hc hwasOpen
  | commit _ h =>
      rw [h.inputBuffer_eq]
      exact hs hreading hwasOpen
  | commitReply => exact hs hreading hwasOpen
  | edit => exact hs hreading hwasOpen

/-! ## The work that is left in the process -/

/-- What there is to be done about a request that nobody holds. -/
def Request.Phase.work : Request.Phase → Nat
  | .queued => 4
  | .held => 0
  | .released => 3
  | .cancelling => 2
  | .destroyed => 0

namespace Server

/-- The steps that the process takes by itself: it reads on, runs what is
queued, and destroys what nobody holds any more. -/
def Step.isOwn : Step → Bool
  | .accept _ _ => false
  | .strand _ l => l.isOwn
  | .acceptorTask _ => true
  | .commit _ => false
  | .cancel _ => false
  | .edit _ _ => false
  | .release _ => false
  | .destroy _ => true
  | .destroyValid _ => true
  | .stop => false

/-- A bound on the steps that the process can take by itself. -/
def work (s : Server) : Nat :=
  Tally.tally (fun k => k.strand.work) s.nextConnection s.connections + s.acceptorStrand.length +
    Tally.tally (fun rq => rq.phase.work) s.nextRequest s.requests

section Work

variable {s : Server}

/-- The work of the process changes by what that of one connection does. -/
theorem work_setStrand {c : Nat} {k : AcceptedConnection} (hwf : s.WF)
    (hk : s.connections c = some k) (t : Strand) :
    (s.setStrand c k.connectionId t).work + k.strand.work = s.work + t.work := by
  have hsum : Tally.tally (fun k => k.strand.work) s.nextConnection
      (Function.update s.connections c (some ⟨k.connectionId, t⟩)) + k.strand.work =
      Tally.tally (fun k => k.strand.work) s.nextConnection s.connections + t.work :=
    Tally.tally_update hk (hwf.known c k hk)
  simp only [work, setStrand]
  omega

/-- And by what the phase of one request does. -/
theorem work_setRequest {q : Nat} {rq : Request} (hwf : s.WF) (hq : s.requests q = some rq)
    (rq' : Request) : (s.setRequest q rq').work + rq.phase.work = s.work + rq'.phase.work := by
  have hsum : Tally.tally (fun rq => rq.phase.work) s.nextRequest
      (Function.update s.requests q (some rq')) + rq.phase.work =
      Tally.tally (fun rq => rq.phase.work) s.nextRequest s.requests + rq'.phase.work :=
    Tally.tally_update hq (hwf.request_lt q rq hq)
  simp only [work, setRequest]
  omega

/-- A posted task is one more to do. -/
@[simp] theorem work_post (task : AcceptorTask) : (s.post task).work = s.work + 1 := by
  simp only [work, post, List.length_append, List.length_singleton]
  omega

/-- A task that is taken off the queue is one less. -/
theorem work_withTasks {task : AcceptorTask} {rest : List AcceptorTask}
    (h : s.acceptorStrand = task :: rest) : (s.withTasks rest).work + 1 = s.work := by
  simp only [work, withTasks, h, List.length_cons]
  omega

/-- A request that is made is queued, with its task. -/
theorem work_requested (c id active r ptr : Nat) :
    (s.requested c id active r ptr).work = s.work + 5 := by
  have hsum : Tally.tally (fun rq => rq.phase.work) (s.nextRequest + 1) (Function.update s.requests
      s.nextRequest (some ⟨r, some ptr, id, active, false, c, .queued⟩)) =
      Tally.tally (fun rq => rq.phase.work) s.nextRequest s.requests + 4 := Tally.tally_insert
  simp only [work, requested, setRequest, post, List.length_append, List.length_singleton]
  omega

/-- What a user writes is no work. -/
theorem work_edited (hwf : s.WF) (rq : Request) (ptr : Nat) (change : UserEdit) :
    (s.edited rq ptr change).work = s.work := by
  obtain ⟨_, heq⟩ | ⟨k, t, hk, hm, heq⟩ := s.edited_cases rq ptr change
  · rw [heq]
  · have hwork := work_setStrand hwf hk t
    have hsame : t.work = k.strand.work := by
      cases hm
      rfl
    rw [heq]
    omega

/-- A reply that is queued is at most one task. -/
theorem work_committed (hwf : s.WF) (rq : Request) (ptr : Nat) :
    (s.committed rq ptr).work ≤ s.work + 1 := by
  obtain ⟨_, heq⟩ | ⟨k, t, hk, hm, heq⟩ := s.committed_cases rq ptr
  · rw [heq]
    exact Nat.le_succ _
  · have hwork := work_setStrand hwf hk t
    have hone : t.work = k.strand.work + 1 := by
      cases hm
      exact Strand.work_push _ _
    rw [heq]
    omega

end Work

/-- Every step that the process takes by itself lowers its work. -/
theorem Moves.work_lt {s s' : Server} {l : Step} {es : List (Nat × Event)} (h : Moves s l s' es)
    (hi : s.Invariant) (he : machine.enabled s l = true) (hl : l.isOwn = true) :
    s'.work < s.work := by
  have hstrand : ∀ {c : Nat} {k : AcceptedConnection} {l' : Strand.Step} {t : Strand}
      {es' : List Event}, l = .strand c l' → s.connections c = some k →
      Strand.Moves (k.strand.allocateFrom s.nextAddress) l' t es' →
      (s.setStrand c k.connectionId t).work + loads es' < s.work := by
    rintro c k l' t es' rfl hk hm
    obtain ⟨k', hk', hen⟩ := enabled_strand he
    rw [hk, Option.some.injEq] at hk'
    subst hk'
    have hlt := hm.work_lt (hi.wf.connection_wf c k hk) hen hl
    have hwork := work_setStrand hi.wf hk t
    rw [Strand.work_allocateFrom] at hlt
    omega
  cases h with
  | strand hk hm =>
      have hlt := hstrand rfl hk hm
      omega
  | ready hk hm =>
      have hlt := hstrand rfl hk hm
      rw [work_requested]
      simp only [loads_cons, Event.load, loads_nil] at hlt
      omega
  | closing hk hm =>
      have hlt := hstrand rfl hk hm
      rw [work_post]
      simp only [loads_append, loads_cons, Event.load, loads_nil] at hlt
      omega
  | closeConnection htasks =>
      have hwork := work_withTasks htasks
      exact Nat.lt_of_succ_le (Nat.le_of_eq hwork)
  | noRequest htasks =>
      have hwork := work_withTasks htasks
      exact Nat.lt_of_succ_le (Nat.le_of_eq hwork)
  | lost htasks =>
      have hwork := work_withTasks htasks
      exact Nat.lt_of_succ_le (Nat.le_of_eq hwork)
  | handlerDeleted htasks =>
      have hwork := work_withTasks htasks
      exact Nat.lt_of_succ_le (Nat.le_of_eq hwork)
  | @notRouted q ptr rq rest htasks hq =>
      have hpop := work_withTasks htasks
      have hset := @work_setRequest (s.withTasks rest) q rq (hi.wf.withTasks htasks (by simp)) hq
        (rq.withPhase .released)
      have hphase : rq.phase = .queued := by
        simpa [isQueued, hq] using (hi.requestsWF.count_eq_zero_of_task htasks).1
      simp only [hphase, Request.withPhase, Request.Phase.work] at hset ⊢
      omega
  | @stored q ptr rq rest htasks hq =>
      have hpop := work_withTasks htasks
      have hset := @work_setRequest (s.withTasks rest) q rq (hi.wf.withTasks htasks (by simp)) hq
        (rq.withPhase .held)
      simp only [Request.withPhase, Request.Phase.work] at hset
      have hsame : Server.work { (s.withTasks rest).setRequest q (rq.withPhase .held) with
          activeRequestHandlers := Function.update s.activeRequestHandlers rq.getId (some q) } =
          ((s.withTasks rest).setRequest q (rq.withPhase .held)).work := rfl
      rw [hsame, Request.withPhase]
      omega
  | @destroyed q rq hq hphase =>
      have hset := work_setRequest hi.wf hq (rq.withPhase .destroyed)
      simp only [hphase, Request.withPhase, Request.Phase.work] at hset ⊢
      omega
  | @cancelling q ptr rq hq hphase =>
      have hset := work_setRequest hi.wf hq (rq.withPhase .cancelling)
      simp only [hphase, Request.withPhase, Request.Phase.work] at hset ⊢
      omega
  | @destroyValid q ptr rq hq hphase =>
      have hwfe := hi.wf.edited rq ptr .cancelBuffers
      have hedit := work_edited hi.wf rq ptr .cancelBuffers
      have hcommit := work_committed hwfe rq ptr
      have hq' : ((s.edited rq ptr .cancelBuffers).committed rq ptr).requests q = some rq := by
        simpa using hq
      have hset := work_setRequest (hwfe.committed rq ptr) hq' (rq.replied.withPhase .destroyed)
      simp only [hphase, Request.withPhase, Request.Phase.work] at hset ⊢
      omega
  | denied hl' =>
      obtain rfl | rfl | ⟨change, rfl⟩ := hl' <;> cases hl
  | _ => cases hl

/-- So the process can take only finitely many of them in a row. -/
theorem lowers : machine.Lowers Step.isOwn Invariant work := by
  intro s l hi he hv hl
  have hm := moves hi.wf he hv
  exact ⟨hm.invariant hi he, hm.work_lt hi he hl⟩

/-! ## The process at rest -/

/-- Nothing is queued, read or destroyed; and a request that has come in whole
waits for its user, who can still answer it, and for nobody else. -/
structure Resting (s : Server) : Prop where
  tasks : s.acceptorStrand = []
  idle : ∀ c k, s.connections c = some k →
    k.strand.reading = false ∧ k.strand.connection.socket.strand = []
  waits : ∀ c k, s.connections c = some k → k.strand.connection.state ≠ .closed →
    Settled k.strand.connection.socket.inputBuffer
  open_of_active : ∀ c k, s.connections c = some k →
    s.activeConnections k.connectionId = some c →
    k.strand.connection.state ≠ .closed
  held : ∀ q rq, s.requests q = some rq → rq.phase = .held ∨ rq.phase = .destroyed
  ready : ∀ (c : Nat) (k : AcceptedConnection) (r : Nat) (e : Entry),
    s.connections c = some k → s.activeConnections k.connectionId = some c →
    k.strand.connection.data.requestMap[r]? = some e → e.ready = true →
    ∃! q, ∃ rq, s.requests q = some rq ∧ rq.phase = .held ∧ s.Grants rq e.ptr

/-- In every run, a connection outside its read loop has no record to read. -/
theorem idles_of_run {tr : List (Fired Server Step)} {s : Server} (h : machine.Run init tr s)
    {c : Nat} {k : AcceptedConnection} (hk : s.connections c = some k) : k.strand.Idles := by
  refine connection_inv (fun _ _ s => s.Idles) ?_ ?_ ?_ h hk
  · rintro s ⟨fs, u, rfl⟩
    exact Strand.idles_init fs u
  · intro ls t s l hwf hs he hm
    exact hm.idles hwf hs
  · exact fun _ _ _ _ hs => hs

/-- The custodian of a ready object, when no reply is queued. -/
theorem grants_of_owned {s : Server} (hi : s.Invariant) {c r : Nat} {k : AcceptedConnection}
    {e : Entry} (hk : s.connections c = some k) (ha : s.activeConnections k.connectionId = some c)
    (he : k.strand.connection.data.requestMap[r]? = some e) {q : Nat}
    (hq : s.custody.Holds e.ptr (.request q)) :
    ∃ rq, s.requests q = some rq ∧ rq.phase ≠ .destroyed ∧ s.Grants rq e.ptr := by
  obtain ⟨owed, howed, hobject⟩ := hq
  obtain ⟨rq, hrq, howes⟩ := Option.bind_eq_some_iff.mp howed
  rw [owes] at howes
  split at howes
  · cases howes
  · next hphase =>
      obtain ⟨ptr, hdata, rfl⟩ := Option.map_eq_some_iff.mp howes
      obtain rfl : ptr = e.ptr := hobject
      have hstored : s.custody.entry c r = some (e.ptr, e.ready) := by
        rw [entry_custody hk, stored, he]
        rfl
      have hactive : s.isActive c = true := isActive_iff.mpr ⟨k, hk, ha⟩
      obtain ⟨hhome, hid⟩ := hi.sound.home_eq q _ c r _ howed hstored
      have hconnection := hi.sound.connection_eq q _ howed (by rw [hhome]; exact hactive)
      simp only at hhome hid hconnection
      subst hhome hid
      have hvalid : k.strand.connection.data.isValidRequest rq.requestId e.ptr = true :=
        ConnectionData.isValidRequest_iff.mpr ⟨e, he, rfl⟩
      have hreplied : rq.hasReplied = false := by
        have hiff := hi.requestsWF.replied_iff q rq hrq
        rw [hdata] at hiff
        simpa using hiff
      refine ⟨rq, hrq, hphase, ⟨hreplied, hdata, ?_, ?_⟩⟩
      · rw [lockConnection, hconnection]
        exact hactive
      · simp [lockData, hdata, hactive, hk, hvalid]

/-- A process that can take no step of its own is at rest in this sense. -/
theorem resting_of_run {tr : List (Fired Server Step)} {s : Server} (h : machine.Run init tr s)
    (hrunning : s.running = true)
    (hrest : ∀ l, Step.isOwn l = true → machine.enabled s l = false) :
    s.Resting := by
  have hi := invariant_of_run h
  have hlive : s.terminated = false := by
    simp only [running, Bool.and_eq_true, Bool.not_eq_true'] at hrunning
    exact hrunning.2
  have htasks : s.acceptorStrand = [] := by
    have hnot := hrest (.acceptorTask true) rfl
    simpa [machine, enabled, hrunning] using hnot
  have hidle : ∀ c k, s.connections c = some k →
      k.strand.reading = false ∧ k.strand.connection.socket.strand = [] := by
    intro c k hk
    have hread := hrest (.strand c .nextPacket) rfl
    have hrun := hrest (.strand c .runTask) rfl
    have hreading : k.strand.reading = false := by
      simpa [machine, enabled, strandEnabled, Strand.machine, Strand.enabled, hk, hlive] using hread
    refine ⟨hreading, ?_⟩
    simpa [machine, enabled, strandEnabled, Strand.machine, Strand.enabled, hk, hrunning, hreading]
      using hrun
  have hheld : ∀ q rq, s.requests q = some rq → rq.phase = .held ∨ rq.phase = .destroyed := by
    intro q rq hq
    have hnot : ∀ phase, s.inPhase q phase = false → rq.phase ≠ phase := by
      intro phase hno hphase
      simp [inPhase, hq, hlive, hphase] at hno
    cases hphase : rq.phase with
    | held => exact .inl rfl
    | destroyed => exact .inr rfl
    | queued =>
        have htask := hi.queuedHaveTasks hlive q rq hq hphase
        rw [htasks] at htask
        cases htask
    | released => exact absurd hphase (hnot .released (hrest (.destroy q) rfl))
    | cancelling => exact absurd hphase (hnot .cancelling (hrest (.destroyValid q) rfl))
  refine ⟨htasks, hidle, fun c k hk => idles_of_run h hk (hidle c k hk).1, ?_, hheld, ?_⟩
  · intro c k hk ha hclosed
    have hcount := hi.wf.closing k.connectionId
    rw [htasks] at hcount
    simp [isClosed, ha, hk, hclosed] at hcount
  · intro c k r e hk ha he hready
    have hactive : c ∈ s.custody.active := isActive_iff.mpr ⟨k, hk, ha⟩
    have hstored : s.custody.entry c r = some (e.ptr, true) := by
      rw [entry_custody hk, stored, he, Option.map_some, hready]
    obtain ⟨t, ht⟩ := hi.sound.owned c r e.ptr hactive hstored
    cases t with
    | request q =>
        obtain ⟨rq, hq, hphase, hg⟩ := grants_of_owned hi hk ha he ht
        refine ⟨q, ⟨rq, hq, (hheld q rq hq).resolve_right hphase, hg⟩, ?_⟩
        rintro q' ⟨rq', hq', hphase', hg'⟩
        have hholds : s.custody.Holds e.ptr (.request q') :=
          ⟨_, (request_custody hq').trans
            (owes_of_data (by simp [hphase']) hg'.dataWeakPtr_eq), rfl⟩
        have heq := hi.sound.unique _ _ _ hholds ht
        cases heq
        rfl
    | reply c' r' =>
        -- no reply is queued anywhere
        have hmem : (r', e.ptr) ∈ s.custody.replies c' := ht
        cases hk' : s.connections c' with
        | none => simp [custody, hk'] at hmem
        | some k' =>
            rw [replies_custody hk', Strand.replies, Connection.replies,
              (hidle c' k' hk').2] at hmem
            cases hmem

/-- Left to itself the process neither starts nor stops. -/
theorem Moves.status_eq {s s' : Server} {l : Step} {es : List (Nat × Event)} (h : Moves s l s' es)
    (hl : l.isOwn = true) : s'.status = s.status := by
  cases h with
  | destroyValid => simp [setRequest]
  | denied => rfl
  | commit => cases hl
  | cancel => cases hl
  | edit => cases hl
  | release => cases hl
  | stop => cases hl
  | _ => rfl

/-- **The process comes to rest.**  Left to itself it takes at most `work` steps
more, in whatever order its threads take them, and it gets to where it can take
none.  There, unless an exception or an assertion has ended it, nothing is
queued anywhere, no whole record is left unread, and each request that has come
in whole is in the hands of one user, who can answer it. -/
theorem comes_to_rest {tr : List (Fired Server Step)} {s : Server} (h : machine.Run init tr s)
    (hstarted : s.status = .started) :
    (∀ tr' s', machine.Run s tr' s' → (∀ f ∈ tr', f.label.isOwn = true) →
      tr'.length ≤ s.work ∧
        ((∀ l, Step.isOwn l = true → machine.enabled s' l = false) →
          s'.Resting ∨ s'.terminated = true)) ∧
    ∃ tr' s', machine.Run s tr' s' ∧ (∀ f ∈ tr', f.label.isOwn = true) ∧
      machine.AtRest Step.isOwn s' := by
  have hi := invariant_of_run h
  refine ⟨fun tr' s' hrun hown => ⟨?_, fun hrest => ?_⟩, lowers.exists_run_atRest hi⟩
  · have hle := lowers.length_le hi hrun hown
    omega
  · have hstatus : s'.Invariant ∧ s'.status = .started := by
      refine hrun.inv (fun _ l => l.isOwn = true) (fun s => s.Invariant ∧ s.status = .started)
        ⟨hi, hstarted⟩ (fun s l hj he hv hl => ?_) hown
      have hm := moves hj.1.wf he hv
      exact ⟨hm.invariant hj.1 he, (hm.status_eq hl).trans hj.2⟩
    cases hterminated : s'.terminated with
    | true => exact .inr rfl
    | false =>
        refine .inl (resting_of_run (h.append hrun) ?_ hrest)
        simp [running, hstatus.2, hterminated]

/-- Behind a read of thirty-two bytes there are at most 196 steps. -/
theorem comes_to_rest_behind_read : ∃ tr s, machine.Run init tr s ∧
    ∀ tr' s', machine.Run s tr' s' → (∀ f ∈ tr', f.label.isOwn = true) →
      tr'.length ≤ 196 := by
  obtain ⟨tr, s, hrun, hs⟩ := Machine.exists_run_of_exec machine init
    [.accept [] fun _ => 0, .strand 0 (.handleRead false (emptyRequest 1))]
    (fun _ s => decide (s.status = .started) && decide (s.work ≤ 196)) (by decide)
  simp only [Bool.and_eq_true, decide_eq_true_eq] at hs
  exact ⟨tr, s, hrun, fun tr' s' hrun' hown =>
    Nat.le_trans ((comes_to_rest hrun hs.1).1 tr' s' hrun' hown).1 hs.2⟩

end Server

end Santiago
