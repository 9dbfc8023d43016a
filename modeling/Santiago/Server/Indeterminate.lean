import Santiago.Indeterminate
import Santiago.Server.Ownership
import Santiago.Writing

/-!
# Santiago.Server.Indeterminate

Two processes that differ only in what the memory of their new objects held.
They stay `Twin`s, and write the same bytes, as long as every status that is
sent was set before: the constructor of `RequestData` leaves `_appStatus` as it
finds it, and a reply sends it whether somebody has set it or not.
-/

namespace Santiago.Server

open Effect Bytes PacketSocket

/-! ## What goes out -/

/-- The bytes connection `c` put on the wire. -/
def written (c : Nat) (t : List (Nat × Event)) : Bytes :=
  t.flatMap fun x => if x.1 = c then x.2.sent else []

/-- What an observer of the process sees of an event. -/
def shown (x : Nat × Event) : List (Nat × Event) := [(x.1, x.2.public)]

/-- What is shown of a trace has all its bytes. -/
theorem written_flatMap_shown (c : Nat) (t : List (Nat × Event)) :
    written c (t.flatMap shown) = written c t := by
  unfold written
  rw [List.flatMap_assoc]
  congr 1
  funext x
  obtain ⟨c', y⟩ := x
  cases y <;> simp [shown, Event.public, Event.sent]

/-! ## Twins -/

/-- The same connection, but for the statuses nobody has set. -/
structure SameAccepted (isSet : Nat → Prop) (k k' : AcceptedConnection) : Prop where
  connectionId_eq : k'.connectionId = k.connectionId
  reading_eq : k'.strand.reading = k.strand.reading
  socket_eq : k'.strand.connection.socket = k.strand.connection.socket
  state_eq : k'.strand.connection.state = k.strand.connection.state
  objects : SameObjects isSet k.strand.connection.data k'.strand.connection.data

/-- The same process, but for the statuses nobody has set. -/
structure Twin (isSet : Nat → Prop) (s s' : Server) : Prop where
  rest : ∃ connections, s' = { s with connections := connections }
  connections : ∀ c, Option.Rel (SameAccepted isSet) (s.connections c) (s'.connections c)
  isSet_lt : ∀ ptr, isSet ptr → ptr < s.nextAddress

variable {isSet : Nat → Prop}

/-- Two like connections stay alike when the heap grows beyond every set object. -/
theorem SameAccepted.allocateFrom {k k' : AcceptedConnection} (h : SameAccepted isSet k k')
    {address : Nat} (hlt : ∀ ptr, isSet ptr → ptr < address) :
    SameStrand isSet (k.strand.allocateFrom address) (k'.strand.allocateFrom address) := by
  refine ⟨h.reading_eq, h.socket_eq, h.state_eq, ⟨?_, h.objects.entries⟩,
    fun ptr hset => ?_⟩
  · show max k'.strand.connection.data.nextPtr address =
      max k.strand.connection.data.nextPtr address
    rw [h.objects.nextPtr_eq]
  · exact Nat.lt_of_lt_of_le (hlt ptr hset) (Nat.le_max_right _ _)

/-- The strand of one connection moves on, in both. -/
theorem setStrand_of_others {s s' : Server}
    (hrest : ∃ connections, s' = { s with connections := connections }) {c : Nat}
    (hothers : ∀ c', c' ≠ c →
      Option.Rel (SameAccepted isSet) (s.connections c') (s'.connections c'))
    {t t' : Strand} (ht : SameStrand isSet t t') {connectionId : Nat} :
    Twin isSet (s.setStrand c connectionId t) (s'.setStrand c connectionId t') := by
  obtain ⟨connections, rfl⟩ := hrest
  obtain ⟨hreading, hsocket, hstate, hobjects, hset⟩ := ht
  refine ⟨⟨Function.update connections c (some ⟨connectionId, t'⟩), ?_⟩,
    fun c' => ?_, hset⟩
  · simp [Server.setStrand, hobjects.nextPtr_eq]
  · by_cases hc : c' = c
    · subst hc
      simp only [Server.setStrand, Function.update_self]
      exact .some ⟨rfl, hreading, hsocket, hstate, hobjects⟩
    · simp only [Server.setStrand, Function.update_of_ne hc]
      exact hothers c' hc

namespace Twin

/-- What an observer cannot tell apart. -/
abbrev Alike (isSet : Nat → Prop) {α : Type} (o o' : Outcome (Nat × Event) Server α) : Prop :=
  Outcome.Alike shown (Twin isSet) Eq o o'

variable {s s' : Server} (h : Twin isSet s s')
include h

/-- Two like servers have no connection under an id, or two like ones. -/
theorem connection_cases (c : Nat) : s.connections c = none ∧ s'.connections c = none ∨
    ∃ k k', s.connections c = some k ∧ s'.connections c = some k' ∧ SameAccepted isSet k k' :=
  Table.rel_cases (h.connections c)

/-! ### What both see of themselves -/

/-- The users' requests are the same. -/
theorem requests_eq : s'.requests = s.requests := by
  obtain ⟨connections, rfl⟩ := h.rest
  rfl

/-- The acceptor holds the same connections. -/
theorem isActive_eq (c : Nat) : s'.isActive c = s.isActive c := by
  have hactive : s'.activeConnections = s.activeConnections := by
    obtain ⟨connections, rfl⟩ := h.rest
    rfl
  unfold isActive
  obtain ⟨hk, hk'⟩ | ⟨k, k', hk, hk', hsame⟩ := h.connection_cases c
  · rw [hk, hk']
  · rw [hk, hk']
    dsimp only
    rw [hsame.connectionId_eq, hactive]

/-- A request locks its connection in both, or in neither. -/
theorem lockConnection_eq (rq : Request) : s'.lockConnection rq = s.lockConnection rq :=
  h.isActive_eq rq.connectionWeakPtr

/-- A request locks its object in both, or in neither. -/
theorem lockData_eq (rq : Request) : s'.lockData rq = s.lockData rq := by
  have hvalid : ∀ ptr : Nat, ((s'.connections rq.home).any fun k =>
      k.strand.connection.data.isValidRequest rq.requestId ptr) = (s.connections rq.home).any
        fun k => k.strand.connection.data.isValidRequest rq.requestId ptr := by
    intro ptr
    obtain ⟨hk, hk'⟩ | ⟨k, k', hk, hk', hsame⟩ := h.connection_cases rq.home
    · rw [hk, hk']
    · rw [hk, hk', Option.any_some, Option.any_some, hsame.objects.isValidRequest_eq]
  have hqueued : ∀ ptr : Nat, ((s'.connections rq.connectionWeakPtr).any fun k =>
      k.strand.connection.socket.strand.contains (.commitReplyImpl rq.requestId ptr)) =
        (s.connections rq.connectionWeakPtr).any fun k =>
          k.strand.connection.socket.strand.contains (.commitReplyImpl rq.requestId ptr) := by
    intro ptr
    obtain ⟨hk, hk'⟩ | ⟨k, k', hk, hk', hsame⟩ := h.connection_cases rq.connectionWeakPtr
    · rw [hk, hk']
    · rw [hk, hk', Option.any_some, Option.any_some, hsame.socket_eq]
  unfold lockData
  cases rq.dataWeakPtr with
  | none => rfl
  | some ptr =>
      dsimp only
      rw [h.isActive_eq, hvalid, hqueued]

/-- A request is valid in both, or in neither. -/
theorem isValid_eq (rq : Request) : s'.isValid rq = s.isValid rq := by
  rw [isValid, isValid, h.lockData_eq, h.lockConnection_eq]

/-- And it grants the same object. -/
theorem grants_iff {rq : Request} {ptr : Nat} : s'.Grants rq ptr ↔ s.Grants rq ptr := by
  have hconnection := h.lockConnection_eq rq
  have hdata := h.lockData_eq rq
  constructor
  · intro hg
    exact ⟨hg.hasReplied_eq, hg.dataWeakPtr_eq, hconnection ▸ hg.lockConnection_eq,
      hdata ▸ hg.lockData_eq⟩
  · intro hg
    exact ⟨hg.hasReplied_eq, hg.dataWeakPtr_eq, hconnection ▸ hg.lockConnection_eq,
      hdata ▸ hg.lockData_eq⟩

/-- The same steps are enabled. -/
theorem enabled_eq (l : Step) : machine.enabled s' l = machine.enabled s l := by
  cases l with
  | strand c l =>
      have hstrand : ((s'.connections c).any fun k => Strand.machine.enabled k.strand l) =
          (s.connections c).any fun k => Strand.machine.enabled k.strand l := by
        obtain ⟨hk, hk'⟩ | ⟨k, k', hk, hk', hsame⟩ := h.connection_cases c
        · rw [hk, hk']
        · rw [hk, hk', Option.any_some, Option.any_some,
            Strand.enabled_congr hsame.reading_eq hsame.socket_eq]
      obtain ⟨connections, rfl⟩ := h.rest
      show (_ && _) = (_ && _)
      rw [hstrand]
      rfl
  | _ =>
      obtain ⟨connections, rfl⟩ := h.rest
      rfl

/-! ### Changes that leave the connections alone -/

/-- A change that does not look at the connections keeps two servers alike. -/
theorem map {f : Server → Server}
    (hf : ∀ (s : Server) (connections : Nat → Option AcceptedConnection),
      f { s with connections := connections } = { f s with connections := connections })
    (hconnections : (f s).connections = s.connections)
    (haddress : (f s).nextAddress = s.nextAddress) : Twin isSet (f s) (f s') := by
  obtain ⟨⟨connections, rfl⟩, hsame, hlt⟩ := h
  refine ⟨⟨connections, hf s connections⟩, ?_, by rwa [haddress]⟩
  rw [hf s connections, hconnections]
  exact hsame

/-- A request may change on both. -/
theorem setRequest (q : Nat) (rq : Request) : Twin isSet (s.setRequest q rq) (s'.setRequest q rq) :=
  h.map (f := fun s => s.setRequest q rq) (fun _ _ => rfl) rfl rfl

/-- A task may be posted on both. -/
theorem post (task : AcceptorTask) : Twin isSet (s.post task) (s'.post task) :=
  h.map (f := fun s => s.post task) (fun _ _ => rfl) rfl rfl

/-- A connection may be replaced by two like ones. -/
theorem setStrand {t t' : Strand} (ht : SameStrand isSet t t') (c connectionId : Nat) :
    Twin isSet (s.setStrand c connectionId t) (s'.setStrand c connectionId t') :=
  setStrand_of_others h.rest (fun c' _ => h.connections c') ht

/-! ### The acceptor -/

/-- An accepted connection looks the same on any memory. -/
theorem handleAccept (fs : List (Option Nat)) (u u' : Nat → BitVec 32) :
    Twin.Alike isSet (Server.handleAccept fs u s) (Server.handleAccept fs u' s') := by
  obtain ⟨connections, rfl⟩ := h.rest
  refine .get_bind (.modify_bind ?_)
  have hnext := h.map (f := fun s =>
    { s with nextConnectionId := (s.nextConnectionId + 1) % 2 ^ 32 }) (fun _ _ => rfl) rfl rfl
  refine .seq (.assert rfl hnext) fun _ t t' ht => .modify ?_
  obtain ⟨⟨connections', rfl⟩, hsame, hlt⟩ := ht
  refine ⟨⟨Function.update connections' t.nextConnection
    (some ⟨s.nextConnectionId, Strand.init fs u'⟩), rfl⟩, fun c => ?_, hlt⟩
  by_cases hc : c = t.nextConnection
  · subst hc
    simp only [Function.update_self]
    refine .some ⟨rfl, rfl, rfl, rfl, rfl, fun r => ?_⟩
    show Option.Rel _ (∅ : RequestMap)[r]? (∅ : RequestMap)[r]?
    simp only [Std.ExtTreeMap.getElem?_empty]
    exact .none
  · simp only [Function.update_of_ne hc]
    exact hsame c

/-- The close callback of the acceptor. -/
theorem handleConnectionClose (connectionId : Nat) :
    Twin.Alike isSet (Server.handleConnectionClose connectionId s)
      (Server.handleConnectionClose connectionId s') := by
  obtain ⟨connections, rfl⟩ := h.rest
  exact .get_bind (.seq (.assert rfl h) fun _ _ _ h => .modify (h.post _))

/-- The acceptor's task that takes a connection out of its table. -/
theorem closeConnection (connectionId : Nat) :
    Twin.Alike isSet (Server.closeConnection connectionId s)
      (Server.closeConnection connectionId s') := by
  obtain ⟨connections, rfl⟩ := h.rest
  refine .get_bind (.seq (.assert rfl h) fun _ _ _ h => .modify ?_)
  exact h.map (f := fun s => { s with
    activeConnections := Function.update s.activeConnections connectionId none })
    (fun _ _ => rfl) rfl rfl

/-- The request callback of the acceptor. -/
theorem acceptorHandleNewRequest (c connectionId requestId ptr : Nat) :
    Twin.Alike isSet (Server.acceptorHandleNewRequest c connectionId requestId ptr s)
      (Server.acceptorHandleNewRequest c connectionId requestId ptr s') := by
  obtain ⟨connections, rfl⟩ := h.rest
  refine .get_bind ?_
  dsimp only
  cases s.activeConnections connectionId with
  | none => exact .assert rfl h
  | some active =>
      refine .modify ?_
      exact h.map (f := fun s => s.requested c connectionId active requestId ptr)
        (fun _ _ => rfl) rfl rfl

/-- One event calls the acceptor in the same way. -/
theorem runCallback (c connectionId : Nat) (x : Event) :
    Twin.Alike isSet (Server.runCallback c connectionId x s)
      (Server.runCallback c connectionId x s') := by
  cases x with
  | requestReady r ptr data => exact h.acceptorHandleNewRequest c connectionId r ptr
  | closeCallback => exact h.handleConnectionClose connectionId
  | _ => exact .pure rfl h

omit h in
/-- The callbacks do not look at what an observer does not see. -/
theorem runCallbacks (c connectionId : Nat) {es es' : List Event}
    (hseen : es.flatMap publicly = es'.flatMap publicly) {s s' : Server} (h : Twin isSet s s') :
    Twin.Alike isSet (Server.runCallbacks c connectionId es s)
      (Server.runCallbacks c connectionId es' s') := by
  have hpublic : ∀ x y : Event, x.public = y.public →
      Server.runCallback c connectionId x = Server.runCallback c connectionId y := by
    intro x y hxy
    cases x <;> cases y <;> simp [Event.public] at hxy <;>
      simp [Server.runCallback, hxy]
  induction es generalizing es' s s' with
  | nil =>
      cases es' with
      | nil => exact .pure rfl h
      | cons y es' => cases hseen
  | cons x es ih =>
      cases es' with
      | nil => cases hseen
      | cons y es' =>
          simp only [List.flatMap_cons, publicly, List.singleton_append, List.cons.injEq] at hseen
          rw [Server.runCallbacks, Server.runCallbacks, hpublic x y hseen.1]
          exact .seq (h.runCallback c connectionId y) fun _ s s' h => ih hseen.2 h

/-! ### The strands -/

/-- A step of a strand that sets no status, and sends none that nobody has set. -/
theorem strandStep {c : Nat} {l : Strand.Step}
    (hedit : ∀ r ptr status, l ≠ .edit r ptr (.setAppStatus status))
    (hset : ∀ k task rest ptr, l = .runTask → s.connections c = some k →
      k.strand.connection.socket.strand = task :: rest →
      SendsStatus k.strand.connection task ptr → isSet ptr) :
    Twin.Alike isSet (Server.strandStep c l s) (Server.strandStep c l s') := by
  have haddress : s'.nextAddress = s.nextAddress := by
    obtain ⟨connections, rfl⟩ := h.rest
    rfl
  refine .get_bind ?_
  obtain ⟨hk, hk'⟩ | ⟨k, k', hk, hk', hsame⟩ := h.connection_cases c
  · rw [hk, hk']
    exact .pure rfl h
  rw [hk, hk']
  dsimp only
  have hstrand := hsame.allocateFrom h.isSet_lt
  have ho := hstrand.act hedit fun task rest ptr hl htasks hsends =>
    hset k task rest ptr hl hk htasks ⟨hsends.socket_open, hsends.exists_reply⟩
  rw [haddress, hsame.connectionId_eq]
  generalize Strand.machine.act l (k.strand.allocateFrom s.nextAddress) = o at ho ⊢
  generalize Strand.machine.act l (k'.strand.allocateFrom s.nextAddress) = o' at ho ⊢
  obtain ⟨hexit, hstate, hseen⟩ := ho
  refine .modify_bind (.emits_bind ?_ ?_)
  · have hshown : ∀ es : List Event, (es.map fun x => (c, x)).flatMap shown =
        (es.flatMap publicly).map fun x => (c, x) := by
      intro es
      rw [List.flatMap_map, List.map_flatMap]
      rfl
    rw [hshown, hshown, hseen]
  · exact .seq (runCallbacks c k.connectionId hseen (h.setStrand hstate c k.connectionId))
      fun _ s s' h => .exit_run hexit h

/-- A reply that is queued, with whatever status. -/
theorem commitReply (c r ptr : Nat) :
    Twin.Alike isSet (Server.strandStep c (.commitReply r ptr) s)
      (Server.strandStep c (.commitReply r ptr) s') :=
  h.strandStep (fun _ _ _ heq => by cases heq) fun _ _ _ _ heq => by cases heq

/-- A user's write, of anything but the status. -/
theorem editData (c r ptr : Nat) {change : UserEdit}
    (hchange : ∀ status, change ≠ .setAppStatus status) :
    Twin.Alike isSet (Server.strandStep c (.edit r ptr change) s)
      (Server.strandStep c (.edit r ptr change) s') := by
  refine h.strandStep (fun r ptr status heq => ?_) fun _ _ _ _ heq => by cases heq
  cases heq
  exact hchange status rfl

/-! ### The requests -/

/-- A call finds the same connection and the same object. -/
theorem getConnectionAndRequestData (rq : Request) :
    Twin.Alike isSet (Server.getConnectionAndRequestData rq s)
      (Server.getConnectionAndRequestData rq s') := by
  unfold Server.getConnectionAndRequestData
  split
  · exact .throw h
  refine .get_bind ?_
  rw [h.lockConnection_eq, h.lockData_eq]
  cases rq.dataWeakPtr with
  | none => exact .throw h
  | some ptr =>
      dsimp only
      split
      · exact .pure rfl h
      · exact .throw h

/-- `commit` does not look at the status. -/
theorem commit (q : Nat) (rq : Request) :
    Twin.Alike isSet (Server.commit q rq s) (Server.commit q rq s') :=
  .seq (h.getConnectionAndRequestData rq) fun _ _ _ h =>
    .seq (h.commitReply ..) fun _ _ _ h => .modify (h.setRequest q rq.replied)

/-- Nor does `cancel`, which sets none. -/
theorem cancel (q : Nat) (rq : Request) :
    Twin.Alike isSet (Server.cancel q rq s) (Server.cancel q rq s') :=
  .seq (h.getConnectionAndRequestData rq) fun _ _ _ h =>
    .seq (h.editData _ _ _ fun _ heq => by cases heq) fun _ _ _ h =>
      .seq (h.commitReply ..) fun _ _ _ h => .modify (h.setRequest q rq.replied)

/-- A write through a request, of anything but the status. -/
theorem edit (rq : Request) {change : UserEdit}
    (hchange : ∀ status, change ≠ .setAppStatus status) :
    Twin.Alike isSet (Server.edit rq change s) (Server.edit rq change s') :=
  .seq (h.getConnectionAndRequestData rq) fun _ _ _ h => h.editData _ _ _ hchange

/-- The destructor of a request without data. -/
theorem destroy (q : Nat) (rq : Request) :
    Twin.Alike isSet (Server.destroy q rq s) (Server.destroy q rq s') := by
  refine .get_bind (.modify ?_)
  rw [h.isValid_eq]
  exact h.setRequest q _

/-- The destructor of a request that still has to answer. -/
theorem destroyValid (q : Nat) (rq : Request) :
    Twin.Alike isSet (Server.destroyValid q rq s) (Server.destroyValid q rq s') :=
  .seq (.tryCatch (h.cancel q rq) fun _ _ _ h => .assert rfl h) fun _ _ _ h =>
    .modify (h.setRequest q _)

/-- The server's task that routes a request to its handler. -/
theorem handleNewRequest (routed : Bool) (q : Nat) (rq : Request) :
    Twin.Alike isSet (Server.handleNewRequest routed q rq s)
      (Server.handleNewRequest routed q rq s') := by
  refine .seq (h.getConnectionAndRequestData rq) fun _ s s' h => ?_
  split
  · have hhandlers : s'.activeRequestHandlers = s.activeRequestHandlers := by
      obtain ⟨connections, rfl⟩ := h.rest
      rfl
    refine .get_bind (.seq (.assert (by rw [hhandlers]) h) fun _ s s' h => .modify ?_)
    exact h.map (f := fun s => { s.setRequest q (rq.withPhase .held) with
      activeRequestHandlers := Function.update s.activeRequestHandlers rq.getId (some q) })
      (fun _ _ => rfl) rfl rfl
  · exact .modify (h.setRequest q _)

/-- The handler that lets go of its request. -/
theorem release (q : Nat) (rq : Request) :
    Twin.Alike isSet (Server.release q rq s) (Server.release q rq s') := by
  refine .seq (.get_bind ?_) fun _ s s' h => .modify (h.setRequest q _)
  obtain ⟨connections, rfl⟩ := h.rest
  exact .when rfl h fun _ => .modify (h.post _)

/-- A call through a request, when it is alike for each of them. -/
theorem withRequest (q : Nat) {f : Request → Act (Nat × Event) Server Unit}
    (hf : ∀ rq, Twin.Alike isSet (f rq s) (f rq s')) :
    Twin.Alike isSet (Server.withRequest q f s) (Server.withRequest q f s') := by
  refine .get_bind ?_
  rw [h.requests_eq]
  cases s.requests q with
  | none => exact .pure rfl h
  | some rq => exact hf rq

/-! ### Steps -/

/-- Each task of the acceptor's strand. -/
theorem runTask (routed : Bool) (task : AcceptorTask) :
    Twin.Alike isSet (Server.runTask routed task s) (Server.runTask routed task s') := by
  cases task with
  | handleNewRequest q => exact h.withRequest q fun rq => h.handleNewRequest routed q rq
  | closeConnection id => exact h.closeConnection id
  | handleRequestDeleteImpl id q =>
      obtain ⟨connections, rfl⟩ := h.rest
      refine .get_bind (.seq (.assert rfl h) fun _ s s' h => .modify ?_)
      exact h.map (f := fun s => { s with
        activeRequestHandlers := Function.update s.activeRequestHandlers id none })
        (fun _ _ => rfl) rfl rfl

/-- A turn of the acceptor's strand. -/
theorem acceptorTask (routed : Bool) :
    Twin.Alike isSet (Server.acceptorTask routed s) (Server.acceptorTask routed s') := by
  have htasks : s'.acceptorStrand = s.acceptorStrand := by
    obtain ⟨connections, rfl⟩ := h.rest
    rfl
  refine .get_bind ?_
  rw [htasks]
  cases s.acceptorStrand with
  | nil => exact .pure rfl h
  | cons task rest =>
      have hpopped := h.map (f := fun s => s.withTasks rest) (fun _ _ => rfl) rfl rfl
      refine .modify_bind (.tryCatch (hpopped.runTask routed task) fun what s s' h => ?_)
      refine .seq (.modify ?_) fun _ _ _ h => .throw h
      exact h.map (f := fun s => { s with terminated := true }) (fun _ _ => rfl) rfl rfl

omit h in
/-- A user's call, which is caught. -/
theorem userCall {x x' : Act (Nat × Event) Server Unit} (hx : Twin.Alike isSet (x s) (x' s')) :
    Twin.Alike isSet (Server.userCall x s) (Server.userCall x' s') :=
  .tryCatch hx fun _ _ _ h => .pure rfl h

/-- Both set the status of one object, which is where its request says. -/
theorem setAppStatus {rq : Request} {ptr : Nat} (hmade : ptr < s.nextAddress)
    (hhome : ∀ (c : Nat) k (r : Nat) (e : Entry), s.connections c = some k →
      k.strand.connection.data.requestMap[r]? = some e → e.ptr = ptr →
        c = rq.home ∧ r = rq.requestId) (status : BitVec 32) :
    Twin (orSet isSet ptr) (s.edited rq ptr (.setAppStatus status))
      (s'.edited rq ptr (.setAppStatus status)) := by
  have hothers : ∀ c, c ≠ rq.home →
      Option.Rel (SameAccepted (orSet isSet ptr)) (s.connections c) (s'.connections c) := by
    intro c hc
    obtain ⟨hk, hk'⟩ | ⟨k, k', hk, hk', hsame⟩ := h.connection_cases c
    · rw [hk, hk']
      exact .none
    · rw [hk, hk']
      refine .some ⟨hsame.connectionId_eq, hsame.reading_eq, hsame.socket_eq,
        hsame.state_eq, ?_⟩
      exact hsame.objects.orSet fun r e he hptr => hc (hhome c k r e hk he hptr).1
  obtain ⟨hk, hk'⟩ | ⟨k, k', hk, hk', hsame⟩ := h.connection_cases rq.home
  · simp only [edited, onConnection, hk, hk']
    refine ⟨h.rest, fun c => ?_, fun p hp => ?_⟩
    · by_cases hc : c = rq.home
      · rw [hc, hk, hk']
        exact .none
      · exact hothers c hc
    · obtain hp | rfl := hp
      · exact h.isSet_lt p hp
      · exact hmade
  · have haddress : s'.nextAddress = s.nextAddress := by
      obtain ⟨connections, rfl⟩ := h.rest
      rfl
    have hstrand := hsame.allocateFrom h.isSet_lt
    simp only [edited, onConnection, hk, hk']
    rw [hsame.connectionId_eq, haddress]
    refine setStrand_of_others h.rest hothers ?_
    refine ⟨hstrand.reading_eq, hstrand.connection.socket_eq, hstrand.connection.state_eq, ?_⟩
    exact hstrand.connection.data.setAppStatus (Nat.lt_of_lt_of_le hmade (Nat.le_max_right _ _))
      (fun r e he hptr => (hhome rq.home k r e hk he hptr).2) status

end Twin

/-! ## Statuses that are set, and statuses that are sent -/

/-- A call of `setAppStatus` that gets through to the object. -/
def SetsStatus (s : Server) (l : Step) (ptr : Nat) : Prop :=
  ∃ q status rq, l = .edit q (.setAppStatus status) ∧ s.requests q = some rq ∧ s.Grants rq ptr

/-- A reply to the object gets as far as the record that carries its status. -/
def SendsStatus (s : Server) (l : Step) (ptr : Nat) : Prop :=
  ∃ c k task rest, l = .strand c .runTask ∧ s.connections c = some k ∧
    k.strand.connection.socket.strand = task :: rest ∧
    Santiago.SendsStatus k.strand.connection task ptr

/-- Some step has set the status of the object. -/
def StatusSet (tr : List (Fired Server Step)) (ptr : Nat) : Prop :=
  ∃ f ∈ tr, f.pre.SetsStatus f.label ptr

/-- The same step; what the memory of a connection's new objects holds may be different. -/
inductive SameButMemory : Step → Step → Prop
  | accept {writeFaults : List (Option Nat)} {u u' : Nat → BitVec 32} :
      SameButMemory (.accept writeFaults u) (.accept writeFaults u')
  | same {l : Step} : SameButMemory l l

/-- A step is enabled whatever memory it gets. -/
theorem SameButMemory.enabled_eq {l l' : Step} (h : SameButMemory l l') (s : Server) :
    machine.enabled s l' = machine.enabled s l := by
  cases h <;> rfl

/-- Every step but the setting of a status. -/
theorem Twin.act_of_ne {s s' : Server} (h : Twin isSet s s') {l : Step}
    (hedit : ∀ q status, l ≠ .edit q (.setAppStatus status))
    (hstrand : ∀ c r ptr status, l ≠ .strand c (.edit r ptr (.setAppStatus status)))
    (hset : ∀ ptr, s.SendsStatus l ptr → isSet ptr) :
    Twin.Alike isSet (machine.act l s) (machine.act l s') := by
  cases l with
  | accept fs u => exact h.handleAccept fs u u
  | strand c l =>
      refine h.strandStep (fun r ptr status heq => hstrand c r ptr status (by rw [heq])) ?_
      intro k task rest ptr hl hk htasks hsends
      exact hset ptr ⟨c, k, task, rest, by rw [hl], hk, htasks, hsends⟩
  | acceptorTask routed => exact h.acceptorTask routed
  | commit q => exact Twin.userCall (h.withRequest q fun rq => h.commit q rq)
  | cancel q => exact Twin.userCall (h.withRequest q fun rq => h.cancel q rq)
  | edit q change =>
      exact Twin.userCall (h.withRequest q fun rq => h.edit rq fun status heq =>
        hedit q status (by rw [heq]))
  | release q => exact h.withRequest q fun rq => h.release q rq
  | destroy q => exact h.withRequest q fun rq => h.destroy q rq
  | destroyValid q => exact h.withRequest q fun rq => h.destroyValid q rq
  | stop =>
      have hstop := h.map (f := fun s => { s with status := .stopped }) (fun _ _ => rfl) rfl rfl
      exact ⟨.ret rfl, hstop, rfl⟩

/-- A request that sets the status sets that of the object it grants. -/
theorem setsStatus_edit_iff {s : Server} {q : Nat} {rq : Request} (hq : s.requests q = some rq)
    {status : BitVec 32} {ptr : Nat} :
    s.SetsStatus (.edit q (.setAppStatus status)) ptr ↔ s.Grants rq ptr := by
  constructor
  · rintro ⟨q', status', rq', hl, hq', hg⟩
    cases hl
    rw [hq, Option.some.injEq] at hq'
    exact hq' ▸ hg
  · intro hg
    exact ⟨q, status, rq, rfl, hq, hg⟩

/-- A request grants one object, in every state. -/
theorem Grants.ptr_eq {s s' : Server} {rq : Request} {ptr ptr' : Nat} (h : s.Grants rq ptr)
    (h' : s'.Grants rq ptr') : ptr' = ptr :=
  Option.some.inj (h'.dataWeakPtr_eq.symm.trans h.dataWeakPtr_eq)

/-- The object of a request is one that was made, and is stored where the request says. -/
theorem home_of_grants {s : Server} (hi : s.Invariant) {q : Nat} {rq : Request} {ptr : Nat}
    (hq : s.requests q = some rq) (hphase : rq.phase ≠ .destroyed) (hg : s.Grants rq ptr) :
    ptr < s.nextAddress ∧ ∀ (c : Nat) k (r : Nat) (e : Entry), s.connections c = some k →
      k.strand.connection.data.requestMap[r]? = some e → e.ptr = ptr →
        c = rq.home ∧ r = rq.requestId := by
  have howes : s.custody.request q = some ⟨ptr, rq.requestId, rq.home, rq.connectionWeakPtr⟩ :=
    (request_custody hq).trans (owes_of_data hphase hg.dataWeakPtr_eq)
  refine ⟨hi.sound.made_of_holds ptr (.request q) ⟨_, howes, rfl⟩,
    fun c k r e hk hentry hptr => ?_⟩
  have hstored : s.custody.entry c r = some (ptr, e.ready) := by
    rw [entry_custody hk, stored, hentry, ← hptr]
    rfl
  obtain ⟨hc, hr⟩ := hi.sound.home_eq q _ c r e.ready howes hstored
  exact ⟨hc.symm, hr.symm⟩

/-- A user sets the status of his request in both. -/
theorem Twin.act_setAppStatus {s s' : Server} (h : Twin isSet s s') (hi : s.Invariant) {q : Nat}
    {status : BitVec 32} (he : machine.enabled s (.edit q (.setAppStatus status)) = true) :
    Twin.Alike (fun p => isSet p ∨ s.SetsStatus (.edit q (.setAppStatus status)) p)
      (machine.act (.edit q (.setAppStatus status)) s)
      (machine.act (.edit q (.setAppStatus status)) s') := by
  obtain ⟨rq, hq, hphase⟩ := request_of_inPhase he
  have hq' : s'.requests q = some rq := by rw [h.requests_eq, hq]
  have hact : ∀ s : Server, machine.act (.edit q (.setAppStatus status)) s =
      Server.userCall (Server.withRequest q fun rq => Server.edit rq (.setAppStatus status)) s :=
    fun _ => rfl
  rw [hact, hact]
  simp only [setsStatus_edit_iff hq]
  obtain ⟨ptr, hg, hrun⟩ | ⟨hn, w, hrun⟩ := edit_run s rq (.setAppStatus status)
  · obtain ⟨ptr', hg', hrun'⟩ | ⟨hn', _⟩ := edit_run s' rq (.setAppStatus status)
    · obtain rfl := hg.ptr_eq hg'
      have hsets : (fun p => isSet p ∨ s.Grants rq p) = orSet isSet ptr' := by
        funext p
        rw [eq_iff_iff]
        exact or_congr_right ⟨hg.ptr_eq, fun heq => heq ▸ hg⟩
      obtain ⟨hmade, hhome⟩ := home_of_grants hi hq (by simp [hphase]) hg
      rw [hsets, userCall_of_ret ((withRequest_run hq _).trans hrun),
        userCall_of_ret ((withRequest_run hq' _).trans hrun')]
      exact ⟨.ret rfl, h.setAppStatus hmade hhome status, rfl⟩
    · exact absurd (h.grants_iff.mpr hg) (hn' ptr)
  · have hsets : (fun p => isSet p ∨ s.Grants rq p) = isSet := by
      funext p
      rw [eq_iff_iff, or_iff_left (hn p)]
    obtain ⟨ptr', hg', _⟩ | ⟨_, w', hrun'⟩ := edit_run s' rq (.setAppStatus status)
    · exact absurd (h.grants_iff.mp hg') (hn ptr')
    · rw [hsets, userCall_of_throw ((withRequest_run hq _).trans hrun),
        userCall_of_throw ((withRequest_run hq' _).trans hrun')]
      exact ⟨.ret rfl, h, rfl⟩

/-- A step that sets no status adds no object to those whose status is set. -/
theorem orSetsStatus_eq {s : Server} {l : Step}
    (h : ∀ q status, l ≠ .edit q (.setAppStatus status)) :
    (fun p => isSet p ∨ s.SetsStatus l p) = isSet := by
  funext p
  rw [eq_iff_iff, or_iff_left]
  rintro ⟨q, status, rq, hl, _⟩
  exact h q status hl

/-- **A step and the same step on other memory** cannot be told apart, when
the statuses it sends are set. -/
theorem Twin.act {s s' : Server} (h : Twin isSet s s') (hi : s.Invariant) {l l' : Step}
    (hl : SameButMemory l l') (he : machine.enabled s l = true)
    (hset : ∀ ptr, s.SendsStatus l ptr → isSet ptr) :
    Twin.Alike (fun p => isSet p ∨ s.SetsStatus l p) (machine.act l s) (machine.act l' s') := by
  cases hl with
  | accept =>
      rw [orSetsStatus_eq fun _ _ heq => by cases heq]
      exact h.handleAccept ..
  | same =>
      by_cases hedit : ∃ q status, l = .edit q (.setAppStatus status)
      · obtain ⟨q, status, rfl⟩ := hedit
        exact h.act_setAppStatus hi he
      · have hne : ∀ q status, l ≠ .edit q (.setAppStatus status) := fun q status heq =>
          hedit ⟨q, status, heq⟩
        rw [orSetsStatus_eq hne]
        refine h.act_of_ne hne (fun c r ptr status heq => ?_) hset
        -- a strand takes no such step by itself
        subst heq
        simp [machine, enabled, strandEnabled] at he

/-- Before the first step nothing is set, and the servers are alike. -/
theorem twin_init : Twin (StatusSet []) init init where
  rest := ⟨_, rfl⟩
  connections _ := .none
  isSet_lt ptr hset := by
    obtain ⟨f, hf, _⟩ := hset
    cases hf

/-- A status is set by the steps so far, or by the last one. -/
theorem statusSet_append_iff {tr : List (Fired Server Step)} {f : Fired Server Step} {ptr : Nat} :
    StatusSet (tr ++ [f]) ptr ↔ StatusSet tr ptr ∨ f.pre.SetsStatus f.label ptr := by
  constructor
  · rintro ⟨g, hg, hsets⟩
    rw [List.mem_append, List.mem_singleton] at hg
    obtain hg | rfl := hg
    · exact .inl ⟨g, hg, hsets⟩
    · exact .inr hsets
  · rintro (⟨g, hg, hsets⟩ | hsets)
    · exact ⟨g, List.mem_append_left _ hg, hsets⟩
    · exact ⟨f, by simp, hsets⟩

/-- Every status that is sent was set before. -/
def SendsOnlySet (tr : List (Fired Server Step)) : Prop :=
  ∀ xs f ys, tr = xs ++ f :: ys → ∀ ptr, f.pre.SendsStatus f.label ptr → StatusSet xs ptr

/-- A run sends set statuses only, if its beginning does and its last step does. -/
theorem sendsOnlySet_concat_iff {tr : List (Fired Server Step)} {f : Fired Server Step} :
    SendsOnlySet (tr ++ [f]) ↔
      SendsOnlySet tr ∧ ∀ ptr, f.pre.SendsStatus f.label ptr → StatusSet tr ptr := by
  constructor
  · intro h
    refine ⟨fun xs g ys htr => h xs g (ys ++ [f]) ?_, h tr f [] rfl⟩
    rw [htr, List.append_assoc, List.cons_append]
  · intro ⟨h, hf⟩ xs g ys htr
    obtain rfl | ⟨ys, g', rfl⟩ := List.eq_nil_or_concat ys
    · obtain ⟨rfl, hlast⟩ := List.append_inj' htr rfl
      obtain rfl := List.singleton_inj.mp hlast
      exact hf
    · rw [List.concat_eq_append, ← List.cons_append, ← List.append_assoc] at htr
      exact h xs g ys (List.append_inj' htr rfl).1

/-- The same run on other memory is there, and cannot be told apart. -/
theorem exists_twin_of_run {tr : List (Fired Server Step)} {s : Server}
    (h : machine.Run init tr s) (hset : SendsOnlySet tr) {ls : List Step}
    (hls : List.Forall₂ SameButMemory (tr.map Fired.label) ls) :
    ∃ tr' s', machine.Run init tr' s' ∧ tr'.map Fired.label = ls ∧
      tr'.flatMap (fun f => (machine.observed f).flatMap shown) =
        tr.flatMap (fun f => (machine.observed f).flatMap shown) ∧
      Twin (StatusSet tr) s s' := by
  refine h.mirror SameButMemory (fun xs (f : Fired Server Step) =>
    ∀ ptr, f.pre.SendsStatus f.label ptr → StatusSet xs ptr)
    (fun tr => Twin (StatusSet tr)) _ twin_init ?_ hset hls
  intro tr s s' l l' hrun htwin hl he hv hc
  have halike := htwin.act (invariant_of_run hrun) hl he hc
  have hsets : StatusSet (tr ++ [⟨s, l⟩]) = fun p => StatusSet tr p ∨ s.SetsStatus l p := by
    funext p
    rw [eq_iff_iff, statusSet_append_iff]
  refine ⟨?_, ?_, ?_, halike.seen.symm⟩
  · rw [hl.enabled_eq, htwin.enabled_eq, he]
  · rw [Machine.survives_iff] at hv ⊢
    rwa [← halike.exit.eq]
  · rw [hsets]
    exact halike.state

/-- **No indeterminate memory on the wire, when every status sent was set.**
Up to and including a step that may end the process, the run that differs only
in what the memory of its new objects held takes the same steps, and each of
its connections writes the same bytes. -/
theorem written_eq_of_sendsOnlySet {tr : List (Fired Server Step)} {s : Server} {l : Step}
    (h : machine.Run init tr s) (he : machine.enabled s l = true)
    (hset : SendsOnlySet (tr ++ [⟨s, l⟩])) {ls : List Step}
    (hls : List.Forall₂ SameButMemory (tr.map Fired.label ++ [l]) ls) :
    ∃ tr' s' l', machine.Run init tr' s' ∧ machine.enabled s' l' = true ∧
      tr'.map Fired.label ++ [l'] = ls ∧
      ∀ c, written c (machine.trace (tr' ++ [⟨s', l'⟩])) =
        written c (machine.trace (tr ++ [⟨s, l⟩])) := by
  obtain ⟨ls, l', rfl, hls, hl⟩ := Machine.exists_of_forall₂_concat hls
  rw [sendsOnlySet_concat_iff] at hset
  obtain ⟨tr', s', hrun', hlabels, hseen, htwin⟩ := exists_twin_of_run h hset.1 hls
  have halike := htwin.act (invariant_of_run h) hl he hset.2
  refine ⟨tr', s', l', hrun', ?_, by rw [hlabels], fun c => ?_⟩
  · rw [hl.enabled_eq, htwin.enabled_eq, he]
  · have hshown : (machine.trace (tr' ++ [⟨s', l'⟩])).flatMap shown =
        (machine.trace (tr ++ [⟨s, l⟩])).flatMap shown := by
      rw [Machine.trace_append, Machine.trace_append, Machine.trace_singleton,
        Machine.trace_singleton, List.flatMap_append, List.flatMap_append, Machine.trace,
        Machine.trace, List.flatMap_assoc, List.flatMap_assoc, hseen]
      exact congrArg _ halike.seen.symm
    rw [← written_flatMap_shown, hshown, written_flatMap_shown]

/-! ## A status that was set, and one that was not -/

/-- The same step, with `u` in the memory of new objects. -/
def Step.withMemory (u : Nat → BitVec 32) : Step → Step
  | .accept writeFaults _ => .accept writeFaults u
  | l => l

/-- The same steps on other memory. -/
theorem sameButMemory_withMemory (u : Nat → BitVec 32) (ls : List Step) :
    List.Forall₂ SameButMemory ls (ls.map (Step.withMemory u)) := by
  rw [List.forall₂_map_right_iff, List.forall₂_same]
  intro l _
  cases l with
  | accept => exact .accept
  | _ => exact .same

/-- One request of connection 0 in the hands of a user. -/
def oneRequest (u : Nat → BitVec 32) : List Step :=
  [.accept [] u, .strand 0 (.handleRead false (emptyRequest 1)), .strand 0 .nextPacket,
    .strand 0 .nextPacket, .strand 0 .nextPacket, .strand 0 .nextPacket, .acceptorTask true]

/-- The call sets a status. -/
def Step.isSetAppStatus : Step → Bool
  | .edit _ (.setAppStatus _) => true
  | _ => false

/-- A user who sets the status 7 and commits. -/
def committedSet (u : Nat → BitVec 32) : List Step :=
  oneRequest u ++ [.edit 0 (.setAppStatus 7), .commit 0]

/-- The reply of a request whose status was set shows that status. -/
theorem written_eq_of_committedSet : ∃ tr s, machine.Run init tr s ∧
    (written 0 (machine.trace (tr ++ [⟨s, .strand 0 .runTask⟩])))[27]? = some 7 ∧
    ∃ tr' s' l', machine.Run init tr' s' ∧ tr'.map Fired.label ++ [l'] =
        (committedSet (fun _ => 0) ++ [Step.strand 0 .runTask]).map (Step.withMemory fun _ => 1) ∧
      ∀ c, written c (machine.trace (tr' ++ [⟨s', l'⟩])) =
        written c (machine.trace (tr ++ [⟨s, .strand 0 .runTask⟩])) := by
  have hexec := Machine.exists_run_along machine init (committedSet fun _ => 0)
    (fun tr s => machine.enabled s (.strand 0 .runTask) &&
      decide ((written 0 (machine.trace (tr ++ [⟨s, .strand 0 .runTask⟩])))[27]? = some 7) &&
      (s.connections 0).all (fun k =>
        decide (k.strand.connection.socket.strand = [.commitReplyImpl 1 0])) &&
      tr.any fun f => f.label.isSetAppStatus && (f.pre.requests 0).any fun rq =>
        f.pre.isValid rq && decide (rq.dataWeakPtr = some 0)) (by decide)
  obtain ⟨tr, s, hrun, hlabels, hp⟩ := hexec
  simp only [Bool.and_eq_true, decide_eq_true_eq, List.any_eq_true, Option.any_eq_true,
    Option.all_eq_true] at hp
  obtain ⟨⟨⟨he, hbyte⟩, hqueue⟩, f, hf, hlabel, rq, hq, hvalid, hdata⟩ := hp
  have hmem : ∀ g ∈ tr, g.label ∈ committedSet fun _ => 0 := by
    intro g hg
    rw [← hlabels]
    exact List.mem_map_of_mem hg
  have hstatus : StatusSet tr 0 := by
    obtain ⟨ptr, hg⟩ := isValid_iff.mp hvalid
    obtain rfl : ptr = 0 := Option.some.inj (hg.dataWeakPtr_eq.symm.trans hdata)
    have hedit : f.label = .edit 0 (.setAppStatus 7) := by
      have hcases := hmem f hf
      simp only [committedSet, oneRequest, List.cons_append, List.nil_append, List.mem_cons,
        List.not_mem_nil, or_false] at hcases
      obtain hl | hl | hl | hl | hl | hl | hl | hl | hl := hcases
      all_goals first | exact hl | (rw [hl] at hlabel; cases hlabel)
    exact ⟨f, hf, 0, 7, rq, hedit, hq, hg⟩
  have hquiet : SendsOnlySet tr := by
    intro xs g ys htr ptr hsends
    obtain ⟨c, k, task, rest, hl, _⟩ := hsends
    have hcases := hmem g (by rw [htr]; simp)
    simp [committedSet, oneRequest, hl] at hcases
  have hset : SendsOnlySet (tr ++ [⟨s, .strand 0 .runTask⟩]) := by
    refine sendsOnlySet_concat_iff.mpr ⟨hquiet, fun ptr hsends => ?_⟩
    obtain ⟨c, k, task, rest, hl, hk, htasks, hsends⟩ := hsends
    cases hl
    rw [hqueue k hk] at htasks
    obtain ⟨r, e, htask, _⟩ := hsends.exists_reply
    cases htasks
    cases htask
    exact hstatus
  have hls := sameButMemory_withMemory (fun _ => 1)
    (tr.map Fired.label ++ [Step.strand 0 .runTask])
  obtain ⟨tr', s', l', hrun', _, hlabels', hsame⟩ :=
    written_eq_of_sendsOnlySet hrun he hset hls
  rw [hlabels] at hlabels'
  exact ⟨tr, s, hrun, hbyte, tr', s', l', hrun', hlabels', hsame⟩

/-- A user who cancels without having set a status. -/
def cancelledUnset (u : Nat → BitVec 32) : List Step :=
  oneRequest u ++ [.cancel 0, .strand 0 .runTask]

/-- Two runs that differ in the memory of a new object write different bytes. -/
theorem written_ne_of_cancelledUnset :
    ¬ ∀ (tr tr' : List (Fired Server Step)) (s s' : Server), machine.Run init tr s →
      machine.Run init tr' s' →
      List.Forall₂ SameButMemory (tr.map Fired.label) (tr'.map Fired.label) →
      ∀ c, written c (machine.trace tr) = written c (machine.trace tr') := by
  intro h
  obtain ⟨tr, s, hrun, hlabels, hbyte⟩ := Machine.exists_run_along machine init
    (cancelledUnset fun _ => 0)
    (fun tr _ => decide ((written 0 (machine.trace tr))[75]? = some 0)) (by decide)
  obtain ⟨tr', s', hrun', hlabels', hbyte'⟩ := Machine.exists_run_along machine init
    (cancelledUnset fun _ => 1)
    (fun tr _ => decide ((written 0 (machine.trace tr))[75]? = some 1)) (by decide)
  rw [decide_eq_true_eq] at hbyte hbyte'
  have hsame : List.Forall₂ SameButMemory (tr.map Fired.label) (tr'.map Fired.label) := by
    rw [hlabels, hlabels']
    exact sameButMemory_withMemory (fun _ => 1) _
  rw [h tr tr' s s' hrun hrun' hsame 0, hbyte'] at hbyte
  cases hbyte

end Santiago.Server
