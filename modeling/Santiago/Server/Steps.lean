import Santiago.Server

/-!
# Santiago.Server.Steps

What a step of the process can do, said once: `Moves` lists what a step does
that does not end the process, `Dies` the assertions that end it, and `ends`
shows that every step is one or the other.  `WF` is what every run keeps
without any condition.
-/

namespace Santiago.Server

open Effect Bytes PacketSocket Connection

/-! ## States that steps leave behind -/

/-- The state after `handleAccept`. -/
def accepted (s : Server) (writeFaults : List (Option Nat)) (uninitialized : Nat → BitVec 32) :
    Server :=
  { s with
    nextConnectionId := (s.nextConnectionId + 1) % 2 ^ 32
    connections := Function.update s.connections s.nextConnection
      (some ⟨s.nextConnectionId, Strand.init writeFaults uninitialized⟩)
    nextConnection := s.nextConnection + 1
    activeConnections :=
      Function.update s.activeConnections s.nextConnectionId (some s.nextConnection) }

/-- The state after `Acceptor::handleNewRequest`. -/
def requested (s : Server) (c connectionId active requestId ptr : Nat) : Server :=
  { (s.setRequest s.nextRequest
      { requestId := requestId, dataWeakPtr := some ptr, connectionId := connectionId,
        connectionWeakPtr := active, hasReplied := false, home := c, phase := .queued }).post
      (.handleNewRequest s.nextRequest) with
    nextRequest := s.nextRequest + 1 }

/-- A change of the connection object `c`, made from outside its strand. -/
def onConnection (s : Server) (c : Nat) (f : Connection → Connection) : Server :=
  match s.connections c with
  | none => s
  | some k => s.setStrand c k.connectionId
      { k.strand.allocateFrom s.nextAddress with
        connection := f (k.strand.allocateFrom s.nextAddress).connection }

/-- The state after `commitReply`. -/
abbrev committed (s : Server) (rq : Request) (ptr : Nat) : Server :=
  s.onConnection rq.connectionWeakPtr fun c =>
    Strand.withStrand c (c.socket.strand ++ [.commitReplyImpl rq.requestId ptr])

/-- The state after a change of the data. -/
abbrev edited (s : Server) (rq : Request) (ptr : Nat) (change : UserEdit) : Server :=
  s.onConnection rq.home fun c => { c with data := c.data.edit rq.requestId ptr change }

section OnConnection

variable (s : Server) (c : Nat) (f : Connection → Connection)

/-- A change of a connection does not stop or start the server. -/
@[simp] theorem status_onConnection : (s.onConnection c f).status = s.status := by
  unfold onConnection
  split <;> rfl

/-- Nor does it end the process. -/
@[simp] theorem terminated_onConnection : (s.onConnection c f).terminated = s.terminated := by
  unfold onConnection
  split <;> rfl

/-- The acceptor's table does not see a change of a connection. -/
@[simp] theorem activeConnections_onConnection :
    (s.onConnection c f).activeConnections = s.activeConnections := by
  unfold onConnection
  split <;> rfl

/-- Nor do the tasks that are queued on the acceptor's strand. -/
@[simp] theorem acceptorStrand_onConnection :
    (s.onConnection c f).acceptorStrand = s.acceptorStrand := by
  unfold onConnection
  split <;> rfl

/-- The requests of the users do not see it either. -/
@[simp] theorem requests_onConnection : (s.onConnection c f).requests = s.requests := by
  unfold onConnection
  split <;> rfl

/-- And no request is made by it. -/
@[simp] theorem nextRequest_onConnection : (s.onConnection c f).nextRequest = s.nextRequest := by
  unfold onConnection
  split <;> rfl

/-- The table of the handlers stays as it is. -/
@[simp] theorem activeRequestHandlers_onConnection :
    (s.onConnection c f).activeRequestHandlers = s.activeRequestHandlers := by
  unfold onConnection
  split <;> rfl

end OnConnection

/-- The acceptor's strand holds just these tasks. -/
def withTasks (s : Server) (tasks : List AcceptorTask) : Server :=
  { s with acceptorStrand := tasks }

/-- The request's weak pointers can both be locked, and the data is at `ptr`. -/
structure Grants (s : Server) (rq : Request) (ptr : Nat) : Prop where
  hasReplied_eq : rq.hasReplied = false
  dataWeakPtr_eq : rq.dataWeakPtr = some ptr
  lockConnection_eq : s.lockConnection rq = true
  lockData_eq : s.lockData rq = true

/-! ## The pieces, run -/

/-- A call through a request finds its connection and its object, or it throws;
it changes nothing. -/
theorem getConnectionAndRequestData_run (s : Server) (rq : Request) :
    (∃ ptr, s.Grants rq ptr ∧ getConnectionAndRequestData rq s = ⟨.ret ptr, s, []⟩) ∨
      (∀ ptr, ¬ s.Grants rq ptr) ∧
        ∃ w, getConnectionAndRequestData rq s = ⟨.throw w, s, []⟩ := by
  unfold getConnectionAndRequestData
  by_cases hr : rq.hasReplied = true
  · rw [if_pos hr]
    refine .inr ⟨fun ptr h => ?_, _, rfl⟩
    rw [h.hasReplied_eq] at hr
    contradiction
  rw [if_neg hr]
  simp only [Act.get_bind_run]
  cases hd : rq.dataWeakPtr with
  | none =>
      refine .inr ⟨fun ptr h => ?_, _, rfl⟩
      rw [h.dataWeakPtr_eq] at hd
      contradiction
  | some ptr =>
      by_cases hlock : (s.lockConnection rq && s.lockData rq) = true
      · simp only [hlock, if_true]
        rw [Bool.and_eq_true] at hlock
        exact .inl ⟨ptr, ⟨by simpa using hr, hd, hlock.1, hlock.2⟩, rfl⟩
      · simp only [hlock]
        refine .inr ⟨fun ptr' h => hlock ?_, _, rfl⟩
        rw [Bool.and_eq_true]
        exact ⟨h.lockConnection_eq, h.lockData_eq⟩

/-- `isValid()` says whether the access would succeed. -/
theorem isValid_iff {s : Server} {rq : Request} :
    s.isValid rq = true ↔ ∃ ptr, s.Grants rq ptr := by
  constructor
  · intro h
    simp only [isValid, Bool.and_eq_true, Bool.not_eq_true'] at h
    cases hd : rq.dataWeakPtr with
    | none =>
        have hlock := h.1.2
        rw [lockData, hd] at hlock
        contradiction
    | some ptr => exact ⟨ptr, h.1.1, hd, h.2, h.1.2⟩
  · intro ⟨ptr, h⟩
    simp [isValid, h.hasReplied_eq, h.lockConnection_eq, h.lockData_eq]

/-- Events that call nobody in front of the others do not matter. -/
theorem runCallbacks_append (c id : Nat) {before : List Event}
    (h : ∀ y ∈ before, y.isCallback = false) (after : List Event) (s : Server) :
    runCallbacks c id (before ++ after) s = runCallbacks c id after s := by
  induction before with
  | nil => rfl
  | cons y before ih =>
      have hy : runCallback c id y s = ⟨.ret (), s, []⟩ := by
        have hq := h y List.mem_cons_self
        cases y <;> first | rfl | cases hq
      rw [List.cons_append, runCallbacks, Act.bind_of_ret hy, Outcome.after_nil]
      exact ih fun y hy => h y (List.mem_cons_of_mem _ hy)

/-- Events that call nobody leave the server alone. -/
theorem runCallbacks_quiet {c id : Nat} {es : List Event} (h : ∀ y ∈ es, y.isCallback = false)
    (s : Server) : runCallbacks c id es s = ⟨.ret (), s, []⟩ := by
  have hrun := runCallbacks_append c id h [] s
  rw [List.append_nil] at hrun
  exact hrun

/-- A connection is accepted under an id that is free. -/
theorem handleAccept_of_none {s : Server} (h : s.activeConnections s.nextConnectionId = none)
    (fs : List (Option Nat)) (u : Nat → BitVec 32) :
    handleAccept fs u s = ⟨.ret (), s.accepted fs u, []⟩ := by
  simp only [handleAccept, Act.get_bind_run, Act.modify_bind_run, h, Option.isNone_none,
    Act.assert_true_bind_run, Act.modify_run]
  rfl

/-- An id that is in use fails the assertion, with the counter one further. -/
theorem handleAccept_of_some {s : Server} {c : Nat}
    (h : s.activeConnections s.nextConnectionId = some c) (fs : List (Option Nat))
    (u : Nat → BitVec 32) : handleAccept fs u s =
      ⟨.abort "Acceptor::handleAccept: _activeConnections.find(newConnectionId) == end",
        { s with nextConnectionId := (s.nextConnectionId + 1) % 2 ^ 32 }, []⟩ := by
  simp only [handleAccept, Act.get_bind_run, Act.modify_bind_run, h, Option.isNone_some,
    Act.assert_false_bind_run]

/-- `closeConnection` takes the connection out of the table, where it must be. -/
theorem closeConnection_run (id : Nat) (s : Server) :
    closeConnection id s =
      if (s.activeConnections id).isSome then
        ⟨.ret (), { s with
          activeConnections := Function.update s.activeConnections id none }, []⟩
      else ⟨.abort "Acceptor::closeConnection: _activeConnections.find(connectionId) != end",
        s, []⟩ := by
  simp only [closeConnection, Act.get_bind_run]
  cases (s.activeConnections id).isSome <;> rfl

/-- The close callback posts a task for a connection that the acceptor knows. -/
theorem handleConnectionClose_run (id : Nat) (s : Server) :
    handleConnectionClose id s =
      if (s.activeConnections id).isSome then ⟨.ret (), s.post (.closeConnection id), []⟩
      else ⟨.abort "Acceptor::handleConnectionClose: _activeConnections.find(connectionId) != end",
        s, []⟩ := by
  simp only [handleConnectionClose, Act.get_bind_run]
  cases (s.activeConnections id).isSome <;> rfl

/-- The request callback makes a request for a connection that the acceptor
knows, and posts it to the server. -/
theorem acceptorHandleNewRequest_run (c id r ptr : Nat) (s : Server) :
    acceptorHandleNewRequest c id r ptr s =
      match s.activeConnections id with
      | none =>
          ⟨.abort "Acceptor::handleNewRequest: _activeConnections.find(connectionId) != end", s, []⟩
      | some active => ⟨.ret (), s.requested c id active r ptr, []⟩ := by
  simp only [acceptorHandleNewRequest, Act.get_bind_run]
  cases s.activeConnections id <;> rfl

/-- A step of a connection, and behind it what its events call at the acceptor. -/
theorem strandStep_run {s : Server} {c : Nat} {k : AcceptedConnection} {l : Strand.Step}
    {x : Exit Unit} {t : Strand} {es : List Event} (hk : s.connections c = some k)
    (h : Strand.machine.act l (k.strand.allocateFrom s.nextAddress) = ⟨x, t, es⟩) :
    strandStep c l s = ((runCallbacks c k.connectionId es >>= fun _ => Act.exit x)
      (s.setStrand c k.connectionId t)).after (es.map fun e => (c, e)) := by
  simp only [strandStep, Act.get_bind_run, hk, h, Act.modify_bind_run, Act.emits_bind_run]

/-- `commitReply` puts a task on the connection's strand and calls nobody. -/
theorem strandStep_commitReply (s : Server) (rq : Request) (ptr : Nat) :
    strandStep rq.connectionWeakPtr (.commitReply rq.requestId ptr) s =
      ⟨.ret (), s.committed rq ptr, []⟩ := by
  cases hk : s.connections rq.connectionWeakPtr with
  | none => simp only [strandStep, Act.get_bind_run, committed, onConnection, hk, Act.pure_run]
  | some k =>
      rw [strandStep_run hk rfl]
      simp only [committed, onConnection, hk]
      rfl

/-- A write through a request changes one object and calls nobody. -/
theorem strandStep_edit (s : Server) (rq : Request) (ptr : Nat) (change : UserEdit) :
    strandStep rq.home (.edit rq.requestId ptr change) s =
      ⟨.ret (), s.edited rq ptr change, []⟩ := by
  cases hk : s.connections rq.home with
  | none => simp only [strandStep, Act.get_bind_run, edited, onConnection, hk, Act.pure_run]
  | some k =>
      rw [strandStep_run hk rfl]
      simp only [edited, onConnection, hk]
      rfl

/-- `commit()` posts the reply, or throws before it has done anything. -/
theorem commit_run (s : Server) (q : Nat) (rq : Request) :
    (∃ ptr, s.Grants rq ptr ∧
      Server.commit q rq s = ⟨.ret (), (s.committed rq ptr).setRequest q rq.replied, []⟩) ∨
      (∀ ptr, ¬ s.Grants rq ptr) ∧ ∃ w, Server.commit q rq s = ⟨.throw w, s, []⟩ := by
  obtain ⟨ptr, hg, h⟩ | ⟨hn, w, h⟩ := getConnectionAndRequestData_run s rq
  · refine .inl ⟨ptr, hg, ?_⟩
    rw [Server.commit, Act.bind_of_ret h, Act.bind_of_ret (strandStep_commitReply s rq ptr)]
    rfl
  · exact .inr ⟨hn, w, by rw [Server.commit, Act.bind_of_throw h]⟩

/-- `cancel` writes to the buffers and commits, or it throws and does nothing. -/
theorem cancel_run (s : Server) (q : Nat) (rq : Request) :
    (∃ ptr, s.Grants rq ptr ∧ Server.cancel q rq s =
      ⟨.ret (), ((s.edited rq ptr .cancelBuffers).committed rq ptr).setRequest q rq.replied,
        []⟩) ∨
      (∀ ptr, ¬ s.Grants rq ptr) ∧ ∃ w, Server.cancel q rq s = ⟨.throw w, s, []⟩ := by
  obtain ⟨ptr, hg, h⟩ | ⟨hn, w, h⟩ := getConnectionAndRequestData_run s rq
  · refine .inl ⟨ptr, hg, ?_⟩
    rw [Server.cancel, Act.bind_of_ret h, Act.bind_of_ret (strandStep_edit s rq ptr .cancelBuffers),
      Act.bind_of_ret (strandStep_commitReply _ rq ptr)]
    rfl
  · exact .inr ⟨hn, w, by rw [Server.cancel, Act.bind_of_throw h]⟩

/-- A write reaches the object, or it throws and does nothing. -/
theorem edit_run (s : Server) (rq : Request) (change : UserEdit) :
    (∃ ptr, s.Grants rq ptr ∧
      Server.edit rq change s = ⟨.ret (), s.edited rq ptr change, []⟩) ∨
      (∀ ptr, ¬ s.Grants rq ptr) ∧ ∃ w, Server.edit rq change s = ⟨.throw w, s, []⟩ := by
  obtain ⟨ptr, hg, h⟩ | ⟨hn, w, h⟩ := getConnectionAndRequestData_run s rq
  · refine .inl ⟨ptr, hg, ?_⟩
    rw [Server.edit, Act.bind_of_ret h, strandStep_edit]
    rfl
  · exact .inr ⟨hn, w, by rw [Server.edit, Act.bind_of_throw h]⟩

/-- The server's task, by cases: the request is valid or not, it is routed or
not, and its id has a handler or not. -/
theorem handleNewRequest_run (s : Server) (routed : Bool) (q : Nat) (rq : Request) :
    (∃ ptr, s.Grants rq ptr ∧ Server.handleNewRequest routed q rq s =
      if routed then
        if (s.activeRequestHandlers rq.getId).isNone then
          ⟨.ret (), { s.setRequest q (rq.withPhase .held) with
            activeRequestHandlers :=
              Function.update s.activeRequestHandlers rq.getId (some q) }, []⟩
        else ⟨.abort "Server::handleNewRequest: iter == _activeRequestHandlers.end()", s, []⟩
      else ⟨.ret (), s.setRequest q (rq.withPhase .released), []⟩) ∨
      (∀ ptr, ¬ s.Grants rq ptr) ∧
        ∃ w, Server.handleNewRequest routed q rq s = ⟨.throw w, s, []⟩ := by
  obtain ⟨ptr, hg, h⟩ | ⟨hn, w, h⟩ := getConnectionAndRequestData_run s rq
  · refine .inl ⟨ptr, hg, ?_⟩
    rw [Server.handleNewRequest, Act.bind_of_ret h, Outcome.after_nil]
    cases routed with
    | false => rfl
    | true =>
        simp only [if_true, Act.get_bind_run]
        cases (s.activeRequestHandlers rq.getId).isNone <;> rfl
  · exact .inr ⟨hn, w, by rw [Server.handleNewRequest, Act.bind_of_throw h]⟩

/-- The destructor's `cancel()` goes through, or its assertion fails. -/
theorem destroyValid_run (s : Server) (q : Nat) (rq : Request) :
    (∃ ptr, s.Grants rq ptr ∧ Server.destroyValid q rq s =
      ⟨.ret (), ((s.edited rq ptr .cancelBuffers).committed rq ptr).setRequest q
        (rq.replied.withPhase .destroyed), []⟩) ∨
      (∀ ptr, ¬ s.Grants rq ptr) ∧
        Server.destroyValid q rq s = ⟨.abort "Fastcgi::Request::~Request: false", s, []⟩ := by
  obtain ⟨ptr, hg, h⟩ | ⟨hn, w, h⟩ := cancel_run s q rq
  · refine .inl ⟨ptr, hg, ?_⟩
    rw [Server.destroyValid, Act.bind_of_ret (Act.tryCatch_of_ret h)]
    simp [setRequest]
  · refine .inr ⟨hn, ?_⟩
    have hcatch := Act.tryCatch_of_throw
      (h := fun _ => Act.assert false "Fastcgi::Request::~Request: false") h
    exact Act.bind_of_abort hcatch

/-- A call through a request that there is. -/
theorem withRequest_run {s : Server} {q : Nat} {rq : Request} (hq : s.requests q = some rq)
    (f : Request → Act (Nat × Event) Server Unit) : withRequest q f s = f rq s := by
  simp only [withRequest, Act.get_bind_run, hq]

/-- A task of the acceptor's strand: an exception that leaves it ends the
process. -/
theorem acceptorTask_run {s : Server} {task : AcceptorTask} {rest : List AcceptorTask}
    (h : s.acceptorStrand = task :: rest) (routed : Bool) :
    Server.acceptorTask routed s = Act.tryCatch (Server.runTask routed task) (fun what => do
      Act.modify fun s => { s with terminated := true }
      Act.throw what) (s.withTasks rest) := by
  simp only [Server.acceptorTask, Act.get_bind_run, h, Act.modify_bind_run]
  rfl

/-! ## Well-formedness -/

/-- The id is that of a connection that is CLOSED and not yet erased. -/
def isClosed (s : Server) (connectionId : Nat) : Bool :=
  match s.activeConnections connectionId with
  | none => false
  | some c => (s.connections c).any fun k => k.strand.connection.state = .closed

/-- What every state of every run has. -/
structure WF (s : Server) : Prop where
  connection_wf : ∀ c k, s.connections c = some k → k.strand.connection.WF
  nextPtr_le : ∀ c k, s.connections c = some k →
    k.strand.connection.data.nextPtr ≤ s.nextAddress
  known : ∀ c k, s.connections c = some k → c < s.nextConnection
  active : ∀ id c, s.activeConnections id = some c →
    ∃ k, s.connections c = some k ∧ k.connectionId = id
  active_of_open : ∀ c k, s.connections c = some k → k.strand.connection.state ≠ .closed →
    s.activeConnections k.connectionId = some c
  /-- One `closeConnection` task for each closed connection, and no other. -/
  closing : ∀ id, s.acceptorStrand.count (.closeConnection id) = if s.isClosed id then 1 else 0
  request_lt : ∀ q rq, s.requests q = some rq → q < s.nextRequest

/-! ## What a step can do -/

/-- Everything a step can do that does not end the process: the state it
leaves and the events. -/
inductive Moves (s : Server) : Step → Server → List (Nat × Event) → Prop
  | accept {fs : List (Option Nat)} {u : Nat → BitVec 32} :
      s.activeConnections s.nextConnectionId = none → Moves s (.accept fs u) (s.accepted fs u) []
  | strand {c : Nat} {k : AcceptedConnection} {l : Strand.Step} {t : Strand} {es : List Event} :
      s.connections c = some k → Strand.Moves (k.strand.allocateFrom s.nextAddress) l t es →
      (∀ y ∈ es, y.isCallback = false) →
      (t.connection.state = .closed → k.strand.connection.state = .closed) →
      Moves s (.strand c l) (s.setStrand c k.connectionId t) (es.map fun e => (c, e))
  | ready {c active r : Nat} {k : AcceptedConnection} {l : Strand.Step} {t : Strand}
      {ty : UInt8} {content : Bytes} {e : Entry}
      {f : RequestState → RequestData → RequestState × RequestData} :
      s.connections c = some k →
      Strand.Moves (k.strand.allocateFrom s.nextAddress) l t
        [.newPacket r ty content, .requestReady r e.ptr (f e.state e.data).2] →
      Receives ty content e f → k.strand.connection.data.requestMap[r]? = some e →
      Entry.ready ⟨(f e.state e.data).1, e.ptr, (f e.state e.data).2⟩ = true →
      t.connection.state = k.strand.connection.state →
      t.connection.data = (k.strand.allocateFrom s.nextAddress).connection.data.modifyEntry r f →
      s.activeConnections k.connectionId = some active →
      Moves s (.strand c l)
        ((s.setStrand c k.connectionId t).requested c k.connectionId active r e.ptr)
        [(c, .newPacket r ty content), (c, .requestReady r e.ptr (f e.state e.data).2)]
  | closing {c : Nat} {k : AcceptedConnection} {l : Strand.Step} {t : Strand}
      {before : List Event} : s.connections c = some k →
      Strand.Moves (k.strand.allocateFrom s.nextAddress) l t (before ++ [.closeCallback]) →
      (∀ y ∈ before, y.isCallback = false) → k.strand.connection.state ≠ .closed →
      t.connection.state = .closed → t.connection.data.requestMap = ∅ →
      Moves s (.strand c l)
        ((s.setStrand c k.connectionId t).post (.closeConnection k.connectionId))
        ((before ++ [Event.closeCallback]).map fun e => (c, e))
  | closeConnection {id : Nat} {rest : List AcceptorTask} {routed : Bool} :
      s.acceptorStrand = .closeConnection id :: rest → (s.activeConnections id).isSome →
      Moves s (.acceptorTask routed) { s.withTasks rest with
        activeConnections := Function.update s.activeConnections id none } []
  | noRequest {q : Nat} {rest : List AcceptorTask} {routed : Bool} :
      s.acceptorStrand = .handleNewRequest q :: rest → s.requests q = none →
      Moves s (.acceptorTask routed) (s.withTasks rest) []
  | lost {q : Nat} {rq : Request} {rest : List AcceptorTask} {routed : Bool} :
      s.acceptorStrand = .handleNewRequest q :: rest → s.requests q = some rq →
      (∀ ptr, ¬ s.Grants rq ptr) →
      Moves s (.acceptorTask routed) { s.withTasks rest with terminated := true } []
  | notRouted {q ptr : Nat} {rq : Request} {rest : List AcceptorTask} :
      s.acceptorStrand = .handleNewRequest q :: rest → s.requests q = some rq →
      s.Grants rq ptr →
      Moves s (.acceptorTask false) ((s.withTasks rest).setRequest q (rq.withPhase .released)) []
  | stored {q ptr : Nat} {rq : Request} {rest : List AcceptorTask} :
      s.acceptorStrand = .handleNewRequest q :: rest → s.requests q = some rq →
      s.Grants rq ptr → s.activeRequestHandlers rq.getId = none →
      Moves s (.acceptorTask true) { (s.withTasks rest).setRequest q (rq.withPhase .held) with
        activeRequestHandlers := Function.update s.activeRequestHandlers rq.getId (some q) } []
  | handlerDeleted {q : Nat} {id : Nat × Nat} {rest : List AcceptorTask} {routed : Bool} :
      s.acceptorStrand = .handleRequestDeleteImpl id q :: rest →
      (s.activeRequestHandlers id).isSome →
      Moves s (.acceptorTask routed) { s.withTasks rest with
        activeRequestHandlers := Function.update s.activeRequestHandlers id none } []
  | denied {l : Step} {q : Nat} {rq : Request} :
      l = .commit q ∨ l = .cancel q ∨ (∃ change, l = .edit q change) →
      s.requests q = some rq → (∀ ptr, ¬ s.Grants rq ptr) → Moves s l s []
  | commit {q ptr : Nat} {rq : Request} : s.requests q = some rq → rq.phase = .held →
      s.Grants rq ptr → Moves s (.commit q) ((s.committed rq ptr).setRequest q rq.replied) []
  | cancel {q ptr : Nat} {rq : Request} : s.requests q = some rq → rq.phase = .held →
      s.Grants rq ptr →
      Moves s (.cancel q)
        (((s.edited rq ptr .cancelBuffers).committed rq ptr).setRequest q rq.replied) []
  | edit {q ptr : Nat} {rq : Request} {change : UserEdit} : s.requests q = some rq →
      s.Grants rq ptr → Moves s (.edit q change) (s.edited rq ptr change) []
  | release {q : Nat} {rq : Request} : s.requests q = some rq → rq.phase = .held →
      Moves s (.release q) ((if s.status = .stopped then s
        else s.post (.handleRequestDeleteImpl rq.getId q)).setRequest q (rq.withPhase .released)) []
  | destroyed {q : Nat} {rq : Request} : s.requests q = some rq → rq.phase = .released →
      (∀ ptr, ¬ s.Grants rq ptr) →
      Moves s (.destroy q) (s.setRequest q (rq.withPhase .destroyed)) []
  | cancelling {q ptr : Nat} {rq : Request} : s.requests q = some rq → rq.phase = .released →
      s.Grants rq ptr → Moves s (.destroy q) (s.setRequest q (rq.withPhase .cancelling)) []
  | destroyValid {q ptr : Nat} {rq : Request} : s.requests q = some rq →
      rq.phase = .cancelling → s.Grants rq ptr →
      Moves s (.destroyValid q) (((s.edited rq ptr .cancelBuffers).committed rq ptr).setRequest q
        (rq.replied.withPhase .destroyed)) []
  | stop : Moves s .stop { s with status := .stopped } []

/-- Everything a step that ends the process can do: the assertion that fails
and the events before it. -/
inductive Dies (s : Server) : Step → String → List (Nat × Event) → Prop
  | accept {fs : List (Option Nat)} {u : Nat → BitVec 32} :
      (s.activeConnections s.nextConnectionId).isSome → Dies s (.accept fs u)
        "Acceptor::handleAccept: _activeConnections.find(newConnectionId) == end" []
  | strand {c : Nat} {k : AcceptedConnection} {l : Strand.Step} {w : String} {es : List Event} :
      s.connections c = some k → Strand.Dies (k.strand.allocateFrom s.nextAddress) l w es →
      Dies s (.strand c l) w (es.map fun e => (c, e))
  | ready {c r : Nat} {k : AcceptedConnection} {l : Strand.Step} {t : Strand} {ty : UInt8}
      {content : Bytes} {e : Entry}
      {f : RequestState → RequestData → RequestState × RequestData} :
      s.connections c = some k →
      Strand.Moves (k.strand.allocateFrom s.nextAddress) l t
        [.newPacket r ty content, .requestReady r e.ptr (f e.state e.data).2] →
      s.activeConnections k.connectionId = none →
      Dies s (.strand c l)
        "Acceptor::handleNewRequest: _activeConnections.find(connectionId) != end"
        [(c, .newPacket r ty content), (c, .requestReady r e.ptr (f e.state e.data).2)]
  | closeConnection {id : Nat} {rest : List AcceptorTask} {routed : Bool} :
      s.acceptorStrand = .closeConnection id :: rest → s.activeConnections id = none →
      Dies s (.acceptorTask routed)
        "Acceptor::closeConnection: _activeConnections.find(connectionId) != end" []
  | handlerExists {q ptr : Nat} {rq : Request} {rest : List AcceptorTask} :
      s.acceptorStrand = .handleNewRequest q :: rest → s.requests q = some rq →
      s.Grants rq ptr → (s.activeRequestHandlers rq.getId).isSome →
      Dies s (.acceptorTask true)
        "Server::handleNewRequest: iter == _activeRequestHandlers.end()" []
  | handlerMissing {q : Nat} {id : Nat × Nat} {rest : List AcceptorTask} {routed : Bool} :
      s.acceptorStrand = .handleRequestDeleteImpl id q :: rest →
      s.activeRequestHandlers id = none →
      Dies s (.acceptorTask routed)
        "Server::handleRequestDeleteImpl: iter != _activeRequestHandlers.end()" []
  | destroyValid {q : Nat} {rq : Request} : s.requests q = some rq → rq.phase = .cancelling →
      (∀ ptr, ¬ s.Grants rq ptr) →
      Dies s (.destroyValid q) "Fastcgi::Request::~Request: false" []

/-- How a step ends. -/
inductive Ends (s : Server) : Step → Outcome (Nat × Event) Server Unit → Prop
  | ret {l : Step} {s' : Server} {es : List (Nat × Event)} : Moves s l s' es →
      Ends s l ⟨.ret (), s', es⟩
  | lost {q : Nat} {rq : Request} {rest : List AcceptorTask} {routed : Bool} {w : String} :
      s.acceptorStrand = .handleNewRequest q :: rest → s.requests q = some rq →
      (∀ ptr, ¬ s.Grants rq ptr) →
      Ends s (.acceptorTask routed) ⟨.throw w, { s.withTasks rest with terminated := true }, []⟩
  | abort {l : Step} {w : String} {s' : Server} {es : List (Nat × Event)} : Dies s l w es →
      Ends s l ⟨.abort w, s', es⟩

/-! ### Steps of a strand -/

/-- A heap that others use keeps a connection well formed. -/
theorem allocateFrom_wf {k : Strand} (h : k.connection.WF) (address : Nat) :
    (k.allocateFrom address).connection.WF := h

/-- A connection whose step is enabled is there, and can take it. -/
theorem enabled_strand {s : Server} {c : Nat} {l : Strand.Step}
    (he : machine.enabled s (.strand c l) = true) : ∃ k, s.connections c = some k ∧
      Strand.machine.enabled (k.strand.allocateFrom s.nextAddress) l = true := by
  have hen : s.strandEnabled c l = true := he
  unfold strandEnabled at hen
  rw [Bool.and_eq_true] at hen
  obtain ⟨k, hk, hstep⟩ := (Option.any_eq_true _ _).mp hen.1
  refine ⟨k, hk, ?_⟩
  cases l <;> exact hstep

/-- Each way in which a step of a connection ends. -/
theorem ends_strand {s : Server} (hwf : s.WF) {c : Nat} {l : Strand.Step}
    (he : machine.enabled s (.strand c l) = true) :
    Ends s (.strand c l) (machine.act (.strand c l) s) := by
  obtain ⟨k, hk, hstep⟩ := enabled_strand he
  have hwfk := allocateFrom_wf (hwf.connection_wf c k hk) s.nextAddress
  have hends := Strand.ends hwfk hstep
  rcases hact : Strand.machine.act l (k.strand.allocateFrom s.nextAddress) with ⟨x, t, es⟩
  rw [hact] at hends
  have hrun : machine.act (.strand c l) s =
      ((runCallbacks c k.connectionId es >>= fun _ => Act.exit x)
        (s.setStrand c k.connectionId t)).after (es.map fun e => (c, e)) :=
    strandStep_run hk hact
  cases hends with
  | abort hdies =>
      rw [hrun, Act.bind_of_ret (runCallbacks_quiet (fun _ => hdies.isCallback) _)]
      simp only [Act.exit_run, Outcome.after_mk, List.append_nil]
      exact .abort (.strand hk hdies)
  | ret hm =>
      rcases hm.life.callbacks with ⟨hquiet, hst⟩ |
          ⟨r, ty, content, e, f, hf, hentry, hready, hst, hd, rfl⟩ |
          ⟨before, hquiet, rfl, hopen, hclosed, hempty⟩
      · rw [hrun, Act.bind_of_ret (runCallbacks_quiet hquiet _)]
        simp only [Act.exit_run, Outcome.after_mk, List.append_nil]
        exact .ret (.strand hk hm hquiet hst)
      · have hcb : runCallbacks c k.connectionId
            [.newPacket r ty content, .requestReady r e.ptr (f e.state e.data).2] =
            (acceptorHandleNewRequest c k.connectionId r e.ptr >>= fun _ => pure ()) := rfl
        rw [hcb] at hrun
        have hsame : (s.setStrand c k.connectionId t).activeConnections =
          s.activeConnections := rfl
        have hnew := acceptorHandleNewRequest_run c k.connectionId r e.ptr
          (s.setStrand c k.connectionId t)
        rw [hsame] at hnew
        cases ha : s.activeConnections k.connectionId with
        | none =>
            rw [ha] at hnew
            rw [hrun, Act.bind_of_abort (Act.bind_of_abort hnew)]
            exact .abort (.ready hk hm ha)
        | some active =>
            rw [ha] at hnew
            rw [hrun, Act.bind_of_ret (Act.bind_of_ret hnew)]
            exact .ret (.ready hk hm hf hentry hready hst hd ha)
      · have hsame : (s.setStrand c k.connectionId t).activeConnections =
          s.activeConnections := rfl
        have hclose := handleConnectionClose_run k.connectionId (s.setStrand c k.connectionId t)
        rw [hsame, hwf.active_of_open c k hk hopen, Option.isSome_some, if_pos rfl] at hclose
        have hlast : runCallbacks c k.connectionId [.closeCallback] =
            (handleConnectionClose k.connectionId >>= fun _ => pure ()) := rfl
        have hcb := runCallbacks_append c k.connectionId hquiet [.closeCallback]
          (s.setStrand c k.connectionId t)
        rw [hlast, Act.bind_of_ret hclose] at hcb
        rw [hrun, Act.bind_of_ret hcb]
        simp only [Act.pure_run, Act.exit_run, Outcome.after_mk, List.append_nil]
        exact .ret (.closing hk hm hquiet hopen hclosed hempty)

/-! ### Tasks of the acceptor -/

/-- What a request grants does not depend on the acceptor's tasks. -/
theorem grants_withTasks {s : Server} {tasks : List AcceptorTask} {rq : Request} {ptr : Nat} :
    (s.withTasks tasks).Grants rq ptr ↔ s.Grants rq ptr :=
  ⟨fun h => ⟨h.1, h.2, h.3, h.4⟩, fun h => ⟨h.1, h.2, h.3, h.4⟩⟩

/-- The exception of an access that fails leaves the task. -/
theorem acceptorTask_lost {s : Server} {q : Nat} {rq : Request} {rest : List AcceptorTask}
    (htasks : s.acceptorStrand = .handleNewRequest q :: rest) (hq : s.requests q = some rq)
    (hn : ∀ ptr, ¬ s.Grants rq ptr) (routed : Bool) :
    ∃ w, Server.acceptorTask routed s =
      ⟨.throw w, { s.withTasks rest with terminated := true }, []⟩ := by
  have hq' : (s.withTasks rest).requests q = some rq := hq
  have hwith : Server.runTask routed (.handleNewRequest q) (s.withTasks rest) =
      Server.handleNewRequest routed q rq (s.withTasks rest) := withRequest_run hq' _
  obtain ⟨ptr, hg, _⟩ | ⟨_, w, hrun⟩ := handleNewRequest_run (s.withTasks rest) routed q rq
  · exact absurd (grants_withTasks.mp hg) (hn ptr)
  · refine ⟨w, ?_⟩
    rw [acceptorTask_run htasks, Act.tryCatch_of_throw (hwith.trans hrun)]
    rfl

/-- A request whose id has a handler fails the assertion. -/
theorem acceptorTask_taken {s : Server} {q ptr : Nat} {rq : Request} {rest : List AcceptorTask}
    (htasks : s.acceptorStrand = .handleNewRequest q :: rest) (hq : s.requests q = some rq)
    (hg : s.Grants rq ptr) (ha : (s.activeRequestHandlers rq.getId).isSome) :
    Server.acceptorTask true s =
      ⟨.abort "Server::handleNewRequest: iter == _activeRequestHandlers.end()",
        s.withTasks rest, []⟩ := by
  have hq' : (s.withTasks rest).requests q = some rq := hq
  have hwith : Server.runTask true (.handleNewRequest q) (s.withTasks rest) =
      Server.handleNewRequest true q rq (s.withTasks rest) := withRequest_run hq' _
  have hsome : ((s.withTasks rest).activeRequestHandlers rq.getId).isNone = false := by
    simpa [withTasks] using ha
  obtain ⟨_, _, hrun⟩ | ⟨hn, _⟩ := handleNewRequest_run (s.withTasks rest) true q rq
  · rw [if_pos rfl, hsome, if_neg Bool.false_ne_true] at hrun
    rw [acceptorTask_run htasks, Act.tryCatch_of_abort (hwith.trans hrun)]
  · exact absurd (grants_withTasks.mpr hg) (hn ptr)

/-- A handler that is there is erased. -/
theorem acceptorTask_deleted {s : Server} {id : Nat × Nat} {q : Nat} {rest : List AcceptorTask}
    (htasks : s.acceptorStrand = .handleRequestDeleteImpl id q :: rest)
    (ha : (s.activeRequestHandlers id).isSome) (routed : Bool) :
    Server.acceptorTask routed s = ⟨.ret (), { s.withTasks rest with
      activeRequestHandlers := Function.update s.activeRequestHandlers id none }, []⟩ := by
  have hrun : Server.runTask routed (.handleRequestDeleteImpl id q) (s.withTasks rest) =
      ⟨.ret (), { s.withTasks rest with
        activeRequestHandlers := Function.update s.activeRequestHandlers id none }, []⟩ := by
    simp only [Server.runTask, Server.handleRequestDeleteImpl, Act.get_bind_run, withTasks, ha,
      Act.assert_true_bind_run, Act.modify_run]
  rw [acceptorTask_run htasks, Act.tryCatch_of_ret hrun]

/-- Each way in which a task of the acceptor's strand ends. -/
theorem ends_acceptorTask {s : Server} {routed : Bool}
    (he : machine.enabled s (.acceptorTask routed) = true) :
    Ends s (.acceptorTask routed) (machine.act (.acceptorTask routed) s) := by
  have hact : machine.act (.acceptorTask routed) s = Server.acceptorTask routed s := rfl
  rw [hact]
  cases htasks : s.acceptorStrand with
  | nil => simp [machine, enabled, htasks] at he
  | cons task rest =>
      cases task with
      | closeConnection id =>
          have hrun := closeConnection_run id (s.withTasks rest)
          have hsame : (s.withTasks rest).activeConnections = s.activeConnections := rfl
          rw [acceptorTask_run htasks]
          cases ha : s.activeConnections id with
          | none =>
              rw [hsame, ha, if_neg (by simp)] at hrun
              rw [Act.tryCatch_of_abort (x := Server.runTask routed (.closeConnection id)) hrun]
              exact .abort (.closeConnection htasks ha)
          | some c =>
              rw [hsame, ha, if_pos (by simp)] at hrun
              rw [Act.tryCatch_of_ret (x := Server.runTask routed (.closeConnection id)) hrun]
              exact .ret (.closeConnection htasks (by rw [ha]; rfl))
      | handleRequestDeleteImpl id q =>
          cases ha : s.activeRequestHandlers id with
          | none =>
              have hrun : Server.runTask routed (.handleRequestDeleteImpl id q) (s.withTasks rest) =
                  ⟨.abort "Server::handleRequestDeleteImpl: iter != _activeRequestHandlers.end()",
                    s.withTasks rest, []⟩ := by
                simp only [Server.runTask, Server.handleRequestDeleteImpl, Act.get_bind_run,
                  withTasks, ha, Option.isSome_none, Act.assert_false_bind_run]
              rw [acceptorTask_run htasks, Act.tryCatch_of_abort hrun]
              exact .abort (.handlerMissing htasks ha)
          | some q' =>
              have hsome : (s.activeRequestHandlers id).isSome := by rw [ha]; rfl
              rw [acceptorTask_deleted htasks hsome]
              exact .ret (.handlerDeleted htasks hsome)
      | handleNewRequest q =>
          cases hq : s.requests q with
          | none =>
              have hrun : Server.runTask routed (.handleNewRequest q) (s.withTasks rest) =
                  ⟨.ret (), s.withTasks rest, []⟩ := by
                simp only [Server.runTask, withRequest, Act.get_bind_run, withTasks, hq,
                  Act.pure_run]
              rw [acceptorTask_run htasks, Act.tryCatch_of_ret hrun]
              exact .ret (.noRequest htasks hq)
          | some rq =>
              have hq' : (s.withTasks rest).requests q = some rq := hq
              have hwith : Server.runTask routed (.handleNewRequest q) (s.withTasks rest) =
                  Server.handleNewRequest routed q rq (s.withTasks rest) := withRequest_run hq' _
              rcases handleNewRequest_run (s.withTasks rest) routed q rq with
                ⟨ptr, hg, hrun⟩ | ⟨hn, _⟩
              · rw [grants_withTasks] at hg
                rw [← hwith] at hrun
                cases routed with
                | false =>
                    rw [acceptorTask_run htasks, Act.tryCatch_of_ret hrun]
                    exact .ret (.notRouted htasks hq hg)
                | true =>
                    have hsame : (s.withTasks rest).activeRequestHandlers =
                      s.activeRequestHandlers := rfl
                    cases ha : s.activeRequestHandlers rq.getId with
                    | none =>
                        rw [hsame, if_pos rfl, ha, Option.isNone_none, if_pos rfl] at hrun
                        rw [acceptorTask_run htasks, Act.tryCatch_of_ret hrun]
                        exact .ret (.stored htasks hq hg ha)
                    | some q' =>
                        have hsome : (s.activeRequestHandlers rq.getId).isSome := by rw [ha]; rfl
                        rw [acceptorTask_taken htasks hq hg hsome]
                        exact .abort (.handlerExists htasks hq hg hsome)
              · have hlost : ∀ ptr, ¬ s.Grants rq ptr := fun ptr hg =>
                  hn ptr (grants_withTasks.mpr hg)
                obtain ⟨w, hrun⟩ := acceptorTask_lost htasks hq hlost routed
                rw [hrun]
                exact .lost htasks hq hlost

/-! ### Calls on a request -/

/-- A request in some phase is there. -/
theorem request_of_inPhase {s : Server} {q : Nat} {phase : Request.Phase}
    (h : s.inPhase q phase = true) : ∃ rq, s.requests q = some rq ∧ rq.phase = phase := by
  rw [inPhase, Bool.and_eq_true] at h
  cases hq : s.requests q with
  | none => simp [hq] at h
  | some rq => exact ⟨rq, rfl, by simpa [hq] using h.2⟩

/-- A user's call that returns. -/
theorem userCall_of_ret {s s' : Server} {x : Act (Nat × Event) Server Unit}
    (h : x s = ⟨.ret (), s', []⟩) : userCall x s = ⟨.ret (), s', []⟩ :=
  Act.tryCatch_of_ret h

/-- A user catches what his call throws. -/
theorem userCall_of_throw {s : Server} {x : Act (Nat × Event) Server Unit} {w : String}
    (h : x s = ⟨.throw w, s, []⟩) : userCall x s = ⟨.ret (), s, []⟩ := by
  rw [userCall, Act.tryCatch_of_throw h]
  rfl

/-- **Every step** returns and does one of the things `Moves` lists, or
throws because its request is lost, or ends the process in one of the ways
`Dies` lists. -/
theorem ends {s : Server} (hwf : s.WF) {l : Step} (he : machine.enabled s l = true) :
    Ends s l (machine.act l s) := by
  cases l with
  | accept fs u =>
      have hact : machine.act (.accept fs u) s = handleAccept fs u s := rfl
      cases ha : s.activeConnections s.nextConnectionId with
      | none =>
          rw [hact, handleAccept_of_none ha]
          exact .ret (.accept ha)
      | some c =>
          rw [hact, handleAccept_of_some ha]
          exact .abort (.accept (by rw [ha]; rfl))
  | strand c l => exact ends_strand hwf he
  | acceptorTask routed => exact ends_acceptorTask he
  | commit q =>
      obtain ⟨rq, hq, hphase⟩ := request_of_inPhase he
      have hact : machine.act (.commit q) s = userCall (withRequest q (Server.commit q)) s := rfl
      have hwith := withRequest_run hq (Server.commit q)
      obtain ⟨ptr, hg, hrun⟩ | ⟨hn, w, hrun⟩ := commit_run s q rq
      · rw [hact, userCall_of_ret (hwith.trans hrun)]
        exact .ret (.commit hq hphase hg)
      · rw [hact, userCall_of_throw (hwith.trans hrun)]
        exact .ret (.denied (.inl rfl) hq hn)
  | cancel q =>
      obtain ⟨rq, hq, hphase⟩ := request_of_inPhase he
      have hact : machine.act (.cancel q) s = userCall (withRequest q (Server.cancel q)) s := rfl
      have hwith := withRequest_run hq (Server.cancel q)
      obtain ⟨ptr, hg, hrun⟩ | ⟨hn, w, hrun⟩ := cancel_run s q rq
      · rw [hact, userCall_of_ret (hwith.trans hrun)]
        exact .ret (.cancel hq hphase hg)
      · rw [hact, userCall_of_throw (hwith.trans hrun)]
        exact .ret (.denied (.inr (.inl rfl)) hq hn)
  | edit q change =>
      obtain ⟨rq, hq, _⟩ := request_of_inPhase he
      have hact : machine.act (.edit q change) s =
        userCall (withRequest q fun rq => Server.edit rq change) s := rfl
      have hwith := withRequest_run hq fun rq => Server.edit rq change
      obtain ⟨ptr, hg, hrun⟩ | ⟨hn, w, hrun⟩ := edit_run s rq change
      · rw [hact, userCall_of_ret (hwith.trans hrun)]
        exact .ret (.edit hq hg)
      · rw [hact, userCall_of_throw (hwith.trans hrun)]
        exact .ret (.denied (.inr (.inr ⟨change, rfl⟩)) hq hn)
  | release q =>
      obtain ⟨rq, hq, hphase⟩ := request_of_inPhase he
      have hact : machine.act (.release q) s = Server.release q rq s := withRequest_run hq _
      have hrun : Server.release q rq s = ⟨.ret (), (if s.status = .stopped then s
          else s.post (.handleRequestDeleteImpl rq.getId q)).setRequest q
            (rq.withPhase .released), []⟩ := by
        cases hs : s.status <;>
          simp [Server.release, handleRequestDelete, Act.bind_run, hs]
      rw [hact, hrun]
      exact .ret (.release hq hphase)
  | destroy q =>
      obtain ⟨rq, hq, hphase⟩ := request_of_inPhase he
      have hact : machine.act (.destroy q) s = Server.destroy q rq s := withRequest_run hq _
      rw [hact]
      simp only [Server.destroy, Act.get_bind_run, Act.modify_run]
      by_cases hvalid : s.isValid rq = true
      · obtain ⟨ptr, hg⟩ := isValid_iff.mp hvalid
        rw [if_pos hvalid]
        exact .ret (.cancelling hq hphase hg)
      · rw [if_neg hvalid]
        exact .ret (.destroyed hq hphase fun ptr hg => hvalid (isValid_iff.mpr ⟨ptr, hg⟩))
  | destroyValid q =>
      obtain ⟨rq, hq, hphase⟩ := request_of_inPhase he
      have hact : machine.act (.destroyValid q) s = Server.destroyValid q rq s :=
        withRequest_run hq _
      rw [hact]
      obtain ⟨ptr, hg, hrun⟩ | ⟨hn, hrun⟩ := destroyValid_run s q rq
      · rw [hrun]
        exact .ret (.destroyValid hq hphase hg)
      · rw [hrun]
        exact .abort (.destroyValid hq hphase hn)
  | stop => exact .ret .stop

/-- Every step after which the process goes on is one of the moves. -/
theorem moves {s : Server} (hwf : s.WF) {l : Step} (he : machine.enabled s l = true)
    (hv : machine.survives s l = true) :
    Moves s l (machine.act l s).state (machine.act l s).events := by
  have hends := ends hwf he
  rw [Machine.survives] at hv
  generalize machine.act l s = o at hends hv ⊢
  cases hends with
  | ret hm => exact hm
  | lost htasks hq hn => exact .lost htasks hq hn
  | abort => contradiction

end Santiago.Server
