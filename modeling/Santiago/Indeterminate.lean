import Santiago.Calls
import Santiago.Lib.Alike
import Santiago.Lib.Table
import Santiago.Strand

/-!
# Santiago.Indeterminate

What the unset `_appStatus` of a new object can be seen in.  Two connections
are `Same` when they differ at most in statuses that nobody has set; every
step of one is a step of the other that shows the same, except a reply that
gets as far as its END_REQUEST record, which carries the status.
-/

namespace Santiago

open Effect Bytes Std PacketSocket

/-! ## The same but for unset statuses -/

/-- What an observer of a connection sees: not the object behind a pointer,
and not how many entries were cleared. -/
def Event.public : Event → Event
  | .requestReady requestId ptr _ => .requestReady requestId ptr (RequestData.new 0)
  | .cleared _ => .cleared 0
  | x => x

/-- The events two runs must agree in. -/
def publicly (x : Event) : List Event := [x.public]

/-- The same entry, but for a status nobody has set; `isSet` says for which
objects somebody has. -/
structure SameEntry (isSet : Nat → Prop) (e e' : Entry) : Prop where
  state_eq : e'.state = e.state
  ptr_eq : e'.ptr = e.ptr
  data_eq : e'.data = { e.data with appStatus := e'.data.appStatus }
  appStatus_eq : isSet e.ptr → e'.data.appStatus = e.data.appStatus

/-- The same objects, but for the statuses nobody has set. -/
structure SameObjects (isSet : Nat → Prop) (d d' : ConnectionData) : Prop where
  nextPtr_eq : d'.nextPtr = d.nextPtr
  entries : ∀ r : Nat, Option.Rel (SameEntry isSet) d.requestMap[r]? d'.requestMap[r]?

/-- The same requests: the next object is one nobody has set a status of. -/
structure SameRequests (isSet : Nat → Prop) (d d' : ConnectionData) : Prop
    extends SameObjects isSet d d' where
  isSet_lt : ∀ ptr, isSet ptr → ptr < d.nextPtr

/-- The same connection, but for the statuses nobody has set. -/
structure Same (isSet : Nat → Prop) (c c' : Connection) : Prop where
  socket_eq : c'.socket = c.socket
  state_eq : c'.state = c.state
  data : SameRequests isSet c.data c'.data

variable {isSet : Nat → Prop}

/-- What `f` does has nothing to do with the status. -/
def LeavesStatus (f : RequestState → RequestData → RequestState × RequestData) : Prop :=
  ∀ state data status, f state { data with appStatus := status } =
    ((f state data).1, { (f state data).2 with appStatus := status })

/-- The status of an object after a change that leaves it. -/
theorem LeavesStatus.appStatus_eq {f : RequestState → RequestData → RequestState × RequestData}
    (h : LeavesStatus f) (state : RequestState) (data : RequestData) :
    (f state data).2.appStatus = data.appStatus :=
  congrArg (fun p => p.2.appStatus) (h state data data.appStatus)

/-- STDIN leaves the status alone. -/
theorem leavesStatus_receiveStdin (bs : Bytes) :
    LeavesStatus (ConnectionData.receiveStdin bs) := by
  intro state data status
  unfold ConnectionData.receiveStdin
  split <;> rfl

/-- PARAMS leave the status alone. -/
theorem leavesStatus_receiveParams (bs : Bytes) :
    LeavesStatus (ConnectionData.receiveParams bs) := by
  intro state data status
  unfold ConnectionData.receiveParams
  split <;> rfl

/-- Such a change keeps two entries alike. -/
theorem SameEntry.change {e e' : Entry} (h : SameEntry isSet e e')
    {f : RequestState → RequestData → RequestState × RequestData} (hf : LeavesStatus f) :
    SameEntry isSet (e.change f) (e'.change f) := by
  have hkeeps := hf.appStatus_eq
  obtain ⟨hstate, hptr, hdata, hstatus⟩ := h
  constructor
  · rw [Entry.change, Entry.change, hstate, hdata, hf]
  · exact hptr
  · rw [Entry.change, Entry.change, hstate, hdata, hf]
  · intro hset
    rw [Entry.change, Entry.change]
    dsimp only
    rw [hkeeps, hkeeps]
    exact hstatus hset

/-- Like entries are ready together. -/
theorem SameEntry.ready_eq {e e' : Entry} (h : SameEntry isSet e e') : e'.ready = e.ready := by
  rw [Entry.ready, Entry.ready, h.state_eq]

/-- Two callbacks of `ConnectionData` for the same thing. -/
inductive SameCallback (isSet : Nat → Prop) :
    Option ConnectionData.Callback → Option ConnectionData.Callback → Prop
  | none : SameCallback isSet none none
  | empty : SameCallback isSet (some .empty) (some .empty)
  | requestReady {r : Nat} {e e' : Entry} : SameEntry isSet e e' →
      SameCallback isSet (some (.requestReady r e)) (some (.requestReady r e'))

namespace SameObjects

variable {d d' : ConnectionData} (h : SameObjects isSet d d')
include h

/-- Two like maps have no entry under an id, or two like ones. -/
theorem entry_cases (r : Nat) : d.requestMap[r]? = none ∧ d'.requestMap[r]? = none ∨
    ∃ e e', d.requestMap[r]? = some e ∧ d'.requestMap[r]? = some e' ∧ SameEntry isSet e e' :=
  Table.rel_cases (h.entries r)

/-- Like maps are empty together. -/
theorem size_eq_zero_iff : d'.size = 0 ↔ d.size = 0 := by
  rw [ConnectionData.size, ConnectionData.size, ConnectionData.size_requestMap_eq_zero_iff,
    ConnectionData.size_requestMap_eq_zero_iff]
  constructor
  · intro hnone r
    obtain ⟨he, _⟩ | ⟨e, e', _, he', _⟩ := h.entry_cases r
    · exact he
    · rw [hnone r] at he'
      cases he'
  · intro hnone r
    obtain ⟨_, he'⟩ | ⟨e, e', he, _, _⟩ := h.entry_cases r
    · exact he'
    · rw [hnone r] at he
      cases he

/-- The same objects are valid in like maps. -/
theorem isValidRequest_eq (r ptr : Nat) :
    d'.isValidRequest r ptr = d.isValidRequest r ptr := by
  unfold ConnectionData.isValidRequest
  obtain ⟨he, he'⟩ | ⟨e, e', he, he', hsame⟩ := h.entry_cases r
  · rw [he, he']
  · rw [he, he']
    dsimp only
    rw [hsame.ptr_eq]

/-- Like maps call for emptiness together. -/
theorem emptyCallback : SameCallback isSet d.emptyCallback d'.emptyCallback := by
  unfold ConnectionData.emptyCallback
  have hsize : d'.requestMap.size = 0 ↔ d.requestMap.size = 0 := h.size_eq_zero_iff
  simp only [hsize]
  split
  · exact .empty
  · exact .none

/-- And for a ready entry, with like objects. -/
theorem readyCallback (r : Nat) : SameCallback isSet (d.readyCallback r) (d'.readyCallback r) := by
  unfold ConnectionData.readyCallback
  obtain ⟨he, he'⟩ | ⟨e, e', he, he', hsame⟩ := h.entry_cases r
  · rw [he, he']
    exact .none
  · rw [he, he']
    dsimp only
    rw [hsame.ready_eq]
    split
    · exact .requestReady hsame
    · exact .none

end SameObjects

namespace SameRequests

variable {d d' : ConnectionData} (h : SameRequests isSet d d')
include h

/-- A new object differs in the memory of its status only. -/
theorem insertNew (r : Nat) : SameRequests isSet (d.insertNew r) (d'.insertNew r) := by
  obtain ⟨⟨hnext, hentries⟩, hlt⟩ := h
  refine ⟨⟨?_, fun r' => ?_⟩, fun ptr hset => Nat.lt_succ_of_lt (hlt ptr hset)⟩
  · rw [ConnectionData.nextPtr_insertNew, ConnectionData.nextPtr_insertNew, hnext]
  · rw [ConnectionData.getElem?_insertNew, ConnectionData.getElem?_insertNew, hnext]
    split
    · -- the new object is one whose status nobody has set
      exact .some ⟨rfl, rfl, rfl, fun hset => absurd (hlt _ hset) (Nat.lt_irrefl _)⟩
    · exact hentries r'

/-- An entry may be erased in both. -/
theorem erase (r : Nat) : SameRequests isSet (d.erase r) (d'.erase r) := by
  obtain ⟨⟨hnext, hentries⟩, hlt⟩ := h
  refine ⟨⟨hnext, fun r' => ?_⟩, hlt⟩
  rw [ConnectionData.getElem?_erase, ConnectionData.getElem?_erase]
  split
  · exact .none
  · exact hentries r'

/-- Both may be cleared. -/
theorem clear : SameRequests isSet d.clear d'.clear := by
  refine ⟨⟨h.nextPtr_eq, fun r => ?_⟩, h.isSet_lt⟩
  rw [ConnectionData.requestMap_clear, ConnectionData.requestMap_clear]
  simp only [ExtTreeMap.getElem?_empty]
  exact .none

/-- An entry may change in both, when its status does not. -/
theorem modifyEntry (r : Nat) {f : RequestState → RequestData → RequestState × RequestData}
    (hf : LeavesStatus f) : SameRequests isSet (d.modifyEntry r f) (d'.modifyEntry r f) := by
  refine ⟨⟨h.nextPtr_eq, fun r' => ?_⟩, h.isSet_lt⟩
  rw [ConnectionData.getElem?_modifyEntry, ConnectionData.getElem?_modifyEntry]
  split
  · obtain ⟨he, he'⟩ | ⟨e, e', he, he', hsame⟩ := h.entry_cases r
    · rw [he, he']
      exact .none
    · rw [he, he']
      exact .some (hsame.change hf)
  · exact h.entries r'

/-- A reply may take the buffers out of both. -/
theorem withReply (r : Nat) (reply : RecordSocket.Reply) :
    SameRequests isSet (Connection.withReply d r reply) (Connection.withReply d' r reply) :=
  h.modifyEntry r fun _ _ _ => rfl

/-! ### The functions of `ConnectionData` -/

/-- A begin-request does the same to both. -/
theorem handleBeginRequest (r : Nat) :
    Outcome.Alike publicly (SameRequests isSet) (SameCallback isSet)
      (ConnectionData.handleBeginRequest r d) (ConnectionData.handleBeginRequest r d') := by
  rw [ConnectionData.handleBeginRequest_run, ConnectionData.handleBeginRequest_run, h.nextPtr_eq]
  obtain ⟨he, he'⟩ | ⟨e, e', he, he', _⟩ := h.entry_cases r
  · rw [he, he']
    exact ⟨.ret .none, h.insertNew r, rfl⟩
  · rw [he, he']
    exact ⟨.throw, h, rfl⟩

/-- An abort does the same to both. -/
theorem handleAbortRequest (r : Nat) :
    Outcome.Alike publicly (SameRequests isSet) (SameCallback isSet)
      (ConnectionData.handleAbortRequest r d) (ConnectionData.handleAbortRequest r d') := by
  rw [ConnectionData.handleAbortRequest_run, ConnectionData.handleAbortRequest_run]
  obtain ⟨he, he'⟩ | ⟨e, e', he, he', hsame⟩ := h.entry_cases r
  · rw [he, he']
    exact ⟨.throw, h, rfl⟩
  · rw [he, he']
    dsimp only
    rw [hsame.ptr_eq]
    exact ⟨.ret (h.erase r).emptyCallback, h.erase r, rfl⟩

/-- The end of `handleStdin` and of `handleParams`. -/
theorem received (r : Nat) {f : RequestState → RequestData → RequestState × RequestData}
    (hf : LeavesStatus f) : Outcome.Alike publicly (SameRequests isSet) (SameCallback isSet)
      ⟨.ret ((d.modifyEntry r f).readyCallback r), d.modifyEntry r f, []⟩
      ⟨.ret ((d'.modifyEntry r f).readyCallback r), d'.modifyEntry r f, []⟩ :=
  ⟨.ret ((h.modifyEntry r hf).readyCallback r), h.modifyEntry r hf, rfl⟩

/-- STDIN does the same to both. -/
theorem handleStdin (r : Nat) (bs : Bytes) :
    Outcome.Alike publicly (SameRequests isSet) (SameCallback isSet)
      (ConnectionData.handleStdin r bs d) (ConnectionData.handleStdin r bs d') := by
  rw [ConnectionData.handleStdin_run, ConnectionData.handleStdin_run]
  obtain ⟨he, he'⟩ | ⟨e, e', he, he', hsame⟩ := h.entry_cases r
  · rw [he, he']
    exact ⟨.throw, h, rfl⟩
  · rw [he, he']
    dsimp only
    rw [hsame.state_eq]
    split
    · exact ⟨.throw, h, rfl⟩
    · exact h.received r (leavesStatus_receiveStdin bs)

/-- PARAMS do the same to both. -/
theorem handleParams (r : Nat) (bs : Bytes) :
    Outcome.Alike publicly (SameRequests isSet) (SameCallback isSet)
      (ConnectionData.handleParams r bs d) (ConnectionData.handleParams r bs d') := by
  rw [ConnectionData.handleParams_run, ConnectionData.handleParams_run]
  obtain ⟨he, he'⟩ | ⟨e, e', he, he', hsame⟩ := h.entry_cases r
  · rw [he, he']
    exact ⟨.throw, h, rfl⟩
  · rw [he, he']
    dsimp only
    rw [hsame.state_eq]
    split
    · exact ⟨.throw, h, rfl⟩
    · exact h.received r (leavesStatus_receiveParams bs)

/-- A clean-up does the same to both. -/
theorem cleanupRequest (r : Nat) :
    Outcome.Alike publicly (SameRequests isSet) (SameCallback isSet)
      (ConnectionData.cleanupRequest r d) (ConnectionData.cleanupRequest r d') := by
  rw [ConnectionData.cleanupRequest_run, ConnectionData.cleanupRequest_run]
  obtain ⟨he, he'⟩ | ⟨e, e', he, he', hsame⟩ := h.entry_cases r
  · rw [he, he']
    exact ⟨.throw, h, rfl⟩
  · rw [he, he']
    dsimp only
    rw [hsame.state_eq, hsame.ptr_eq]
    split
    · exact ⟨.ret (h.erase r).emptyCallback, h.erase r, rfl⟩
    · exact ⟨.abort, h, rfl⟩

end SameRequests

/-! ## The functions of a connection -/

namespace Same

/-- What an observer cannot tell apart. -/
abbrev Alike (isSet : Nat → Prop) {α : Type} (o o' : Outcome Event Connection α) : Prop :=
  Outcome.Alike publicly (Same isSet) Eq o o'

variable {c c' : Connection}

section

variable (h : Same isSet c c')
include h

/-- Two like connections that shut stay alike. -/
theorem shut : Same isSet c.shut c'.shut := by
  refine ⟨?_, rfl, h.data.clear⟩
  rw [Connection.socket_shut, Connection.socket_shut, h.socket_eq]

/-- Code of the packet socket. -/
theorem onSocket {α : Type} (x : Act Event PacketSocket α) :
    Same.Alike isSet (Act.zoom Connection.socket Connection.setSocket x c)
      (Act.zoom Connection.socket Connection.setSocket x c') := by
  refine Outcome.Alike.zoom (S := Eq) ?_ ?_
  · rw [h.socket_eq]
    exact .refl (fun _ => rfl) (fun _ => rfl) _
  · intro t t' ht
    subst ht
    exact ⟨rfl, h.state_eq, h.data⟩

/-- They are closed and cleaned up in the same way. -/
theorem closeAndCleanup : Same.Alike isSet (Connection.closeAndCleanup c)
    (Connection.closeAndCleanup c') := by
  rw [Connection.closeAndCleanup_run, Connection.closeAndCleanup_run]
  exact ⟨.ret rfl, h.shut, rfl⟩

/-- They notice their empty maps in the same way. -/
theorem handleOnEmpty : Same.Alike isSet (Connection.handleOnEmpty c)
    (Connection.handleOnEmpty c') :=
  .get_bind (.when (by rw [h.state_eq]) h fun _ => h.closeAndCleanup)

/-- An event of the socket does the same to both. -/
theorem handleTransceiverEvent (eventInfo : TransceiverEventInfo) :
    Same.Alike isSet (Connection.handleTransceiverEvent eventInfo c)
      (Connection.handleTransceiverEvent eventInfo c') := by
  refine .get_bind (.seq (.assert (by rw [h.state_eq]) h) fun _ c c' h => ?_)
  cases eventInfo with
  | socketClosed => exact h.closeAndCleanup
  | connectionWindDown =>
      refine .seq (.modify ⟨h.socket_eq, rfl, h.data⟩) fun _ c c' h => .get_bind ?_
      exact .when (by rw [decide_eq_decide, h.data.size_eq_zero_iff]) h
        fun _ => h.closeAndCleanup

/-- Code of the request map, and the callback it ends with. -/
theorem onData {x : Act Event ConnectionData (Option ConnectionData.Callback)}
    (hx : Outcome.Alike publicly (SameRequests isSet) (SameCallback isSet) (x c.data) (x c'.data)) :
    Same.Alike isSet (Connection.onData x c) (Connection.onData x c') := by
  refine .bind (.zoom hx fun d d' hd => ⟨h.socket_eq, h.state_eq, hd⟩)
    fun cb cb' c c' hcb h => ?_
  cases hcb with
  | none => exact .pure rfl h
  | empty => exact h.handleOnEmpty
  | requestReady hentry =>
      refine .emit ?_ h
      rw [publicly, publicly, Event.public, Event.public, hentry.ptr_eq]

/-! ### Packets -/

/-- The same buffer goes out of both, and breaks off at the same byte. -/
theorem writeBuffer (r : Nat) (t : UInt8) (b : Bytes) :
    Same.Alike isSet (Connection.recordSocket.writeBuffer r t b c)
      (Connection.recordSocket.writeBuffer r t b c') :=
  h.onSocket _

/-- The same answer goes out of both. -/
theorem answer (r : Nat) (t : UInt8) (body : Bytes) :
    Same.Alike isSet (Connection.recordSocket.answer r t body c)
      (Connection.recordSocket.answer r t body c') :=
  .seq (h.writeBuffer r t body) fun _ _ _ h =>
    .when rfl h fun _ => h.handleTransceiverEvent .socketClosed

theorem handleBeginRequest (r : Nat) (content : Bytes) :
    Same.Alike isSet (Connection.recordSocket.handleBeginRequest r content c)
      (Connection.recordSocket.handleBeginRequest r content c') := by
  unfold RecordSocket.handleBeginRequest
  split
  · exact .throw h
  · dsimp only
    split
    · exact h.answer ..
    · refine .seq (h.onData (h.data.handleBeginRequest r)) fun _ c c' h => ?_
      exact .when rfl h fun _ => h.handleTransceiverEvent .connectionWindDown

/-- Every type of record does the same to both. -/
theorem dispatch (r : Nat) (t : UInt8) (content : Bytes) :
    Same.Alike isSet (Connection.recordSocket.dispatch r t content c)
      (Connection.recordSocket.dispatch r t content c') := by
  unfold RecordSocket.dispatch
  split
  · exact h.answer ..
  split
  · exact h.handleBeginRequest r content
  split
  · exact .seq (h.answer ..) fun _ c c' h => h.onData (h.data.handleAbortRequest r)
  split
  · exact h.onData (h.data.handleParams r content)
  split
  · exact h.onData (h.data.handleStdin r content)
  split
  · exact .throw h
  · exact h.answer ..

/-- So does every packet. -/
theorem handleNewPacket (ec : Bool) (r : Nat) (t : UInt8) (content : Bytes) :
    Same.Alike isSet (Connection.recordSocket.handleNewPacket ec r t content c)
      (Connection.recordSocket.handleNewPacket ec r t content c') := by
  unfold RecordSocket.handleNewPacket
  split
  · exact .seq (h.onSocket close) fun _ c c' h => h.handleTransceiverEvent .socketClosed
  · exact .seq (.emit rfl h) fun _ c c' h => h.dispatch r t content

/-- Both drop the same bytes of their buffers. -/
theorem consume (n : Nat) :
    Same.Alike isSet (Connection.owner.consume n c) (Connection.owner.consume n c') :=
  h.onSocket _

/-- A pass of the read loop does the same to both. -/
theorem nextPacket :
    Same.Alike isSet (Connection.owner.nextPacket c) (Connection.owner.nextPacket c') := by
  have hsocket : Connection.owner.socket c' = Connection.owner.socket c := h.socket_eq
  refine .get_bind ?_
  rw [hsocket]
  dsimp only
  split
  · exact .pure rfl h
  refine .tryCatch ?_ fun _ c c' h => .seq (h.consume _) fun _ c c' h => .pure rfl h
  split
  · exact .throw h
  split
  · exact .pure rfl h
  refine .seq (h.handleNewPacket false _ _ _) fun _ c c' h => ?_
  refine .seq (h.consume _) fun _ c c' h => .get_bind (.pure ?_ h)
  have hsocket : Connection.owner.socket c' = Connection.owner.socket c := h.socket_eq
  rw [hsocket]

/-- A read does the same to both, up to its loop. -/
theorem enterHandleRead (error : Bool) (bytes : Bytes) :
    Same.Alike isSet (Connection.owner.enterHandleRead error bytes c)
      (Connection.owner.enterHandleRead error bytes c') := by
  refine .seq (h.onSocket _) fun _ c c' h => .get_bind ?_
  have hsocket : Connection.owner.socket c' = Connection.owner.socket c := h.socket_eq
  rw [hsocket]
  split
  · exact .pure rfl h
  split
  · refine .seq (.emit rfl h) fun _ c c' h => .seq (h.onSocket close) fun _ c c' h => ?_
    exact .seq (h.handleNewPacket true 0 0 []) fun _ c c' h => .pure rfl h
  · exact .pure rfl h

/-! ### Replies -/

/-- The same reply, with the same status. -/
theorem sendReply (r : Nat) (out err : Bytes) (status : BitVec 32) :
    Same.Alike isSet (Connection.recordSocket.sendReply r out err status c)
      (Connection.recordSocket.sendReply r out err status c') := by
  have hstream : ∀ (t : UInt8) (b : Bytes) {c c' : Connection}, Same isSet c c' →
      Same.Alike isSet (Connection.recordSocket.sendStream r t b c)
        (Connection.recordSocket.sendStream r t b c') := by
    intro t b c c' h
    unfold RecordSocket.sendStream
    split
    · exact h.writeBuffer r t b
    · exact .pure rfl h
  refine .seq (hstream fcgiStdout out h) fun ec c c' h => ?_
  split
  · exact .pure rfl h
  refine .seq (hstream fcgiStderr err h) fun ec c c' h => ?_
  split
  · exact .pure rfl h
  refine .seq (.seq (h.writeBuffer r fcgiStdout []) fun ec c c' h => ?_) fun ec c c' h =>
    .pure rfl h
  split
  · exact .pure rfl h
  refine .seq (h.writeBuffer r fcgiStderr []) fun ec c c' h => ?_
  split
  · exact .pure rfl h
  · exact h.writeBuffer r fcgiEndRequest _

end

end Same

/-! ### How far a reply gets -/

namespace PacketSocket

/-- The socket takes the next `n` writes, and some content of the one behind them. -/
def TakesInto (s : PacketSocket) (n : Nat) : Prop :=
  s.Takes n ∧ ∀ m ≤ fcgiHeaderLen, s.writeFaults[n]? ≠ some (some m)

/-- The socket fails at the write `k`, which is one of the next `n` or fails
within the header of the one behind them. -/
structure StopsAt (s : PacketSocket) (n k : Nat) : Prop where
  le : k ≤ n
  failsAt : s.FailsAt k
  header : k = n → ∃ m ≤ fcgiHeaderLen, s.writeFaults[k]? = some (some m)

/-- The next `n` records go out whole, or one of them is the first to fail. -/
theorem takesInto_or_stopsAt (s : PacketSocket) (n : Nat) :
    s.TakesInto n ∨ ∃ k, s.StopsAt n k := by
  obtain htakes | ⟨k, hk, hfails⟩ := s.takes_or_failsAt n
  · by_cases hlast : ∃ m ≤ fcgiHeaderLen, s.writeFaults[n]? = some (some m)
    · obtain ⟨m, hm, hn⟩ := hlast
      exact .inr ⟨n, Nat.le_refl n, ⟨htakes, m, hn⟩, fun _ => ⟨m, hm, hn⟩⟩
    · exact .inl ⟨htakes, fun m hm hn => hlast ⟨m, hm, hn⟩⟩
  · exact .inr ⟨k, Nat.le_of_lt hk, hfails, fun heq => absurd heq (Nat.ne_of_lt hk)⟩

/-- The same failure, seen from behind the first `n` records. -/
theorem StopsAt.drop {s : PacketSocket} {n m k : Nat} (h : s.StopsAt (n + m) (n + k)) :
    (s.withFaults (s.writeFaults.drop n)).StopsAt m k := by
  refine ⟨Nat.le_of_add_le_add_left h.le, h.failsAt.drop, fun heq => ?_⟩
  rw [writeFaults_withFaults, List.getElem?_drop]
  exact h.header (by rw [heq])

/-- A record that is cut within its header does not show its content. -/
theorem asioWrite_of_header {s : PacketSocket} {m : Nat} (hm : m ≤ fcgiHeaderLen)
    (h : s.writeFaults[0]? = some (some m)) (header : FcgiHeader) (content content' : Bytes) :
    asioWrite header content s = asioWrite header content' s := by
  have htake : ∀ bs : Bytes, (header.toBytes ++ bs).take m = header.toBytes.take m := fun bs =>
    List.take_append_of_le_length (by rw [FcgiHeader.length_toBytes]; exact hm)
  rw [← List.head?_eq_getElem?] at h
  simp only [asioWrite, Act.get_bind_run, Act.modify_bind_run, h, Act.emit_bind_run,
    List.append_assoc, htake]

/-- Where the write of a record fails in its header, nobody sees the content. -/
theorem writeRecords_of_header {s : PacketSocket} {m : Nat} (hm : m ≤ fcgiHeaderLen)
    (h : s.writeFaults[0]? = some (some m)) {p p' : FcgiHeader × Bytes} (hheader : p'.1 = p.1) :
    writeRecords [p] s = writeRecords [p'] s := by
  obtain ⟨header, content⟩ := p
  obtain ⟨header', content'⟩ := p'
  obtain rfl : header' = header := hheader
  exact Act.bind_congr (asioWrite_of_header hm h header' content content') _

end PacketSocket

/-- The two do the same unless the socket gets beyond the header of the write
behind the next `n`. -/
def AgreeUntil {α : Type} (n : Nat) (x x' : Act Event Connection α) : Prop :=
  ∀ c : Connection, c.socket.state ≠ .closed → ∀ k, c.socket.StopsAt n k → x c = x' c

/-- Behind the same records, two ends that agree until their record `n` agree
until the record that many further on. -/
theorem AgreeUntil.seq {α : Type} {a : α} {x : Act Event Connection Bool}
    {y y' : Act Event Connection α} {ps : List (FcgiHeader × Bytes)} {n : Nat}
    (hy : AgreeUntil n y y') (hx : Connection.SendsUntil id x ps) :
    AgreeUntil (ps.length + n) (x >>= fun ec => if ec then pure a else y)
      (x >>= fun ec => if ec then pure a else y') := by
  intro c hs k hk
  obtain ⟨hok, hfail⟩ := hx c hs
  by_cases hlt : k < ps.length
  · -- the first part fails, and neither rest is tried
    obtain ⟨ec, part, hec, hrun⟩ := hfail k hlt hk.failsAt
    have hec : ec = true := hec
    subst hec
    rw [Act.bind_of_ret hrun, Act.bind_of_ret hrun]
    rfl
  · obtain ⟨m, rfl⟩ := Nat.exists_eq_add_of_le (Nat.not_lt.mp hlt)
    obtain ⟨ec, hec, hrun⟩ := hok (hk.failsAt.1.mono (Nat.le_add_right _ _))
    have hec : ec = false := hec
    subst hec
    have hrest := hy (c.withFaults (c.socket.writeFaults.drop ps.length)) hs m hk.drop
    rw [Act.bind_of_ret hrun, Act.bind_of_ret hrun]
    simp only [Bool.false_eq_true, if_false, hrest]

/-- And so they do with anything behind them. -/
theorem AgreeUntil.bind {α β : Type} {x x' : Act Event Connection α}
    {f : α → Act Event Connection β} {n : Nat} (h : AgreeUntil n x x') :
    AgreeUntil n (x >>= f) (x' >>= f) := by
  intro c hs k hk
  exact Act.bind_congr (h c hs k hk) f

/-- The header of the last record is the same for every status. -/
theorem agreeUntil_endRecord (r : Nat) (status status' : BitVec 32) :
    AgreeUntil 0
      (Connection.recordSocket.writeBuffer r fcgiEndRequest
        (RecordSocket.endRequestBody status).toBytes)
      (Connection.recordSocket.writeBuffer r fcgiEndRequest
        (RecordSocket.endRequestBody status').toBytes) := by
  intro c hs k hk
  obtain rfl := Nat.le_zero.mp hk.le
  obtain ⟨m, hm, hfails⟩ := hk.header rfl
  have hrecord : ∀ status : BitVec 32, Connection.bufferRecords r fcgiEndRequest
      (RecordSocket.endRequestBody status).toBytes = [Connection.endRecord r status] :=
    fun status => Connection.bufferRecords_short r fcgiEndRequest (by simp)
  have hheader : (Connection.endRecord r status').1 = (Connection.endRecord r status).1 := by
    simp only [Connection.endRecord, FcgiEndRequestBody.length_toBytes]
  have hwrite := writeRecords_of_header hm hfails hheader
  rw [Connection.writeBuffer_run hs, Connection.writeBuffer_run hs, hrecord, hrecord, hwrite]

/-- A reply that fails before the content of its last record does not show its status. -/
theorem agreeUntil_sendReply (r : Nat) (d : RequestData) (status status' : BitVec 32) :
    AgreeUntil (Connection.replyStreams r d).length
      (Connection.recordSocket.sendReply r d.outBuffer d.errBuffer status)
      (Connection.recordSocket.sendReply r d.outBuffer d.errBuffer status') := by
  have hend : AgreeUntil ((Connection.bufferRecords r fcgiStdout []).length +
      (Connection.bufferRecords r fcgiStderr []).length)
      (Connection.recordSocket.sendEnd r status) (Connection.recordSocket.sendEnd r status') :=
    ((agreeUntil_endRecord r status status').seq
      (Connection.sendsUntil_writeBuffer r fcgiStderr [])).seq
      (Connection.sendsUntil_writeBuffer r fcgiStdout [])
  rw [Connection.replyStreams, List.length_append, List.length_append, List.length_append]
  exact (hend.bind.seq (Connection.sendsUntil_sendStream r fcgiStderr d.errBuffer)).seq
    (Connection.sendsUntil_sendStream r fcgiStdout d.outBuffer)

/-- The task sends a reply, and the socket gets as far as the record that
carries the status, and beyond its header. -/
structure SendsStatus (c : Connection) (task : StrandTask) (ptr : Nat) : Prop where
  socket_open : c.socket.state ≠ .closed
  exists_reply : ∃ r e, task = .commitReplyImpl r ptr ∧ c.data.requestMap[r]? = some e ∧
    e.ptr = ptr ∧ c.socket.TakesInto (Connection.replyStreams r e.data).length

namespace Same

variable {c c' : Connection} (h : Same isSet c c')
include h

/-- A status is only seen when the reply gets as far as its last record. -/
theorem sendReply_of_takesInto (r : Nat) (d : RequestData) (status' : BitVec 32)
    (hstatus : c.socket.state ≠ .closed →
      c.socket.TakesInto (Connection.replyStreams r d).length → status' = d.appStatus) :
    Same.Alike isSet (Connection.recordSocket.sendReply r d.outBuffer d.errBuffer d.appStatus c)
      (Connection.recordSocket.sendReply r d.outBuffer d.errBuffer status' c') := by
  have hsocket := h.socket_eq
  have hsame : Connection.recordSocket.sendReply r d.outBuffer d.errBuffer status' c' =
      Connection.recordSocket.sendReply r d.outBuffer d.errBuffer d.appStatus c' := by
    by_cases hs : c.socket.state = .closed
    · have hs' : c'.socket.state = .closed := by rw [hsocket, hs]
      rw [Connection.sendReply_run_closed hs', Connection.sendReply_run_closed hs']
    obtain htakes | ⟨k, hk⟩ :=
      c.socket.takesInto_or_stopsAt (Connection.replyStreams r d).length
    · rw [hstatus hs htakes]
    · rw [← hsocket] at hs hk
      exact agreeUntil_sendReply r d status' d.appStatus c' hs k hk
  rw [hsame]
  exact h.sendReply r d.outBuffer d.errBuffer d.appStatus

/-- A reply does the same to both, if its status is a set one or the write fails
before the status goes out. -/
theorem commitReplyImpl {r ptr : Nat}
    (hset : SendsStatus c (.commitReplyImpl r ptr) ptr → isSet ptr) :
    Same.Alike isSet (Connection.commitReplyImpl r ptr c)
      (Connection.commitReplyImpl r ptr c') := by
  refine .get_bind ?_
  obtain ⟨he, he'⟩ | ⟨e, e', he, he', hsame⟩ := h.data.entry_cases r
  · rw [he, he']
    exact .pure rfl h
  rw [he, he']
  refine .when (h.data.isValidRequest_eq r ptr).symm h fun hvalid => .emit_bind rfl ?_
  have hptr : e.ptr = ptr := by
    obtain ⟨e₁, he₁, hptr⟩ := ConnectionData.isValidRequest_iff.mp hvalid
    rw [he] at he₁
    cases he₁
    exact hptr
  have hout : e'.data.outBuffer = e.data.outBuffer := by rw [hsame.data_eq]
  have herr : e'.data.errBuffer = e.data.errBuffer := by rw [hsame.data_eq]
  rw [hout, herr]
  have hsend := h.sendReply_of_takesInto r e.data e'.data.appStatus fun hs htakes =>
    hsame.appStatus_eq (hptr ▸ hset ⟨hs, r, e, rfl, he, hptr, htakes⟩)
  refine .seq hsend fun reply c c' h => ?_
  refine .seq (.modify ⟨h.socket_eq, h.state_eq, h.data.withReply r reply⟩) fun _ c c' h => ?_
  split
  · exact h.closeAndCleanup
  · exact h.onData (h.data.cleanupRequest r)

/-- Every task of the strand, when the status it sends is a set one. -/
theorem runTask {task : StrandTask} (hset : ∀ ptr, SendsStatus c task ptr → isSet ptr) :
    Same.Alike isSet (Connection.runTask task c) (Connection.runTask task c') := by
  cases task with
  | flushProtocolSocket => exact h.onSocket _
  | commitReplyImpl r ptr => exact h.commitReplyImpl (hset ptr)

end Same

/-! ## Changes of the data -/

/-- A user's write, of anything but the status. -/
theorem leavesStatus_apply {change : UserEdit} (h : ∀ status, change ≠ .setAppStatus status) :
    LeavesStatus fun state data => (state, change.apply data) := by
  intro state data status
  cases change with
  | setAppStatus status' => exact absurd rfl (h status')
  | _ => rfl

/-- And it keeps two maps alike. -/
theorem SameRequests.edit {d d' : ConnectionData} (h : SameRequests isSet d d') (r ptr : Nat)
    {change : UserEdit} (hchange : ∀ status, change ≠ .setAppStatus status) :
    SameRequests isSet (d.edit r ptr change) (d'.edit r ptr change) := by
  unfold ConnectionData.edit
  rw [h.isValidRequest_eq]
  split
  · exact h.modifyEntry r (leavesStatus_apply hchange)
  · exact h

/-- Somebody has set the status of one more object. -/
abbrev orSet (isSet : Nat → Prop) (ptr : Nat) : Nat → Prop := fun p => isSet p ∨ p = ptr

/-- A status set elsewhere is none of these objects'. -/
theorem SameObjects.orSet {d d' : ConnectionData} (h : SameObjects isSet d d') {ptr : Nat}
    (hne : ∀ (r : Nat) (e : Entry), d.requestMap[r]? = some e → e.ptr ≠ ptr) :
    SameObjects (orSet isSet ptr) d d' := by
  refine ⟨h.nextPtr_eq, fun r => ?_⟩
  obtain ⟨he, he'⟩ | ⟨e, e', he, he', hsame⟩ := h.entry_cases r
  · rw [he, he']
    exact .none
  · rw [he, he']
    refine .some ⟨hsame.state_eq, hsame.ptr_eq, hsame.data_eq, fun hset => ?_⟩
    obtain hset | hptr := hset
    · exact hsame.appStatus_eq hset
    · exact absurd hptr (hne r e he)

/-- `setAppStatus` sets the same status in both. -/
theorem SameRequests.setAppStatus {d d' : ConnectionData} (h : SameRequests isSet d d')
    {r ptr : Nat} (hlt : ptr < d.nextPtr)
    (hhome : ∀ (r' : Nat) (e : Entry), d.requestMap[r']? = some e → e.ptr = ptr → r' = r)
    (status : BitVec 32) :
    SameRequests (orSet isSet ptr) (d.edit r ptr (.setAppStatus status))
      (d'.edit r ptr (.setAppStatus status)) := by
  have hset : ∀ p, orSet isSet ptr p → p < d.nextPtr := by
    intro p hp
    obtain hp | rfl := hp
    · exact h.isSet_lt p hp
    · exact hlt
  unfold ConnectionData.edit
  rw [h.isValidRequest_eq]
  by_cases hvalid : d.isValidRequest r ptr = true
  · rw [if_pos hvalid, if_pos hvalid]
    obtain ⟨e, he, rfl⟩ := ConnectionData.isValidRequest_iff.mp hvalid
    refine ⟨⟨h.nextPtr_eq, fun r' => ?_⟩, hset⟩
    rw [ConnectionData.getElem?_modifyEntry, ConnectionData.getElem?_modifyEntry]
    obtain ⟨hnone, hnone'⟩ | ⟨e₁, e₁', he₁, he₁', hsame⟩ := h.entry_cases r'
    · have hr : r ≠ r' := by
        intro hr
        subst hr
        rw [he] at hnone
        cases hnone
      rw [if_neg hr, if_neg hr, hnone, hnone']
      exact .none
    · by_cases hr : r = r'
      · subst hr
        rw [if_pos rfl, if_pos rfl, he₁, he₁']
        refine .some ⟨hsame.state_eq, hsame.ptr_eq, ?_, fun _ => rfl⟩
        dsimp only [UserEdit.apply]
        rw [hsame.data_eq]
      · rw [if_neg hr, if_neg hr, he₁, he₁']
        refine .some ⟨hsame.state_eq, hsame.ptr_eq, hsame.data_eq, fun hset => ?_⟩
        obtain hset | hptr := hset
        · exact hsame.appStatus_eq hset
        · exact absurd (hhome r' e₁ he₁ hptr).symm hr
  · rw [if_neg hvalid, if_neg hvalid]
    refine ⟨h.toSameObjects.orSet fun r' e he hptr => hvalid ?_, hset⟩
    rw [hhome r' e he hptr] at he
    exact ConnectionData.isValidRequest_iff.mpr ⟨e, he, hptr⟩

/-! ## The steps of a connection -/

/-- The steps that a strand can take are those of its socket and its loop. -/
theorem Strand.enabled_congr {s s' : Strand} (hreading : s'.reading = s.reading)
    (hsocket : s'.connection.socket = s.connection.socket) (l : Strand.Step) :
    Strand.machine.enabled s' l = Strand.machine.enabled s l := by
  cases l <;> simp [Strand.machine, Strand.enabled, hreading, hsocket]

/-- Two strands that differ in the statuses that nobody has set. -/
structure SameStrand (isSet : Nat → Prop) (s s' : Strand) : Prop where
  reading_eq : s'.reading = s.reading
  connection : Same isSet s.connection s'.connection

namespace SameStrand

variable {s s' : Strand} (h : SameStrand isSet s s')
include h

/-- Code of the connection. -/
theorem zoom {α : Type} {x x' : Act Event Connection α}
    (hx : Same.Alike isSet (x s.connection) (x' s'.connection)) :
    Outcome.Alike publicly (SameStrand isSet) Eq
      (Act.zoom Strand.connection Strand.setConnection x s)
      (Act.zoom Strand.connection Strand.setConnection x' s') :=
  hx.zoom fun _ _ ht => ⟨h.reading_eq, ht⟩

theorem runTask (hset : ∀ task rest ptr, s.connection.socket.strand = task :: rest →
    SendsStatus s.connection task ptr → isSet ptr) :
    Outcome.Alike publicly (SameStrand isSet) Eq (Strand.runTask s) (Strand.runTask s') := by
  have hsocket := h.connection.socket_eq
  cases htasks : s.connection.socket.strand with
  | nil =>
      refine .get_bind ?_
      rw [hsocket, htasks]
      exact .pure rfl h
  | cons task rest =>
      have htasks' : s'.connection.socket.strand = task :: rest := by rw [hsocket, htasks]
      rw [Strand.runTask_run htasks, Strand.runTask_run htasks']
      have hrest : Same isSet (Strand.withStrand s.connection rest)
          (Strand.withStrand s'.connection rest) := by
        refine ⟨?_, h.connection.state_eq, h.connection.data⟩
        rw [Strand.withStrand, Strand.withStrand, hsocket]
      have hpopped : SameStrand isSet
          { s with connection := Strand.withStrand s.connection rest }
          { s' with connection := Strand.withStrand s'.connection rest } :=
            ⟨h.reading_eq, hrest⟩
      refine hpopped.zoom (hrest.runTask fun ptr hsends => ?_)
      exact hset task rest ptr htasks ⟨hsends.socket_open, hsends.exists_reply⟩

/-- Every step but the setting of a status. -/
theorem act {l : Strand.Step} (hedit : ∀ r ptr status, l ≠ .edit r ptr (.setAppStatus status))
    (hset : ∀ task rest ptr, l = .runTask → s.connection.socket.strand = task :: rest →
      SendsStatus s.connection task ptr → isSet ptr) :
    Outcome.Alike publicly (SameStrand isSet) Eq (Strand.machine.act l s)
      (Strand.machine.act l s') := by
  cases l with
  | handleRead error bytes =>
      exact .seq (h.zoom (h.connection.enterHandleRead error bytes)) fun enter s s' h =>
        .modify ⟨rfl, h.connection⟩
  | nextPacket =>
      exact .seq (h.zoom h.connection.nextPacket) fun again s s' h =>
        .modify ⟨rfl, h.connection⟩
  | runTask => exact h.runTask fun task rest ptr => hset task rest ptr rfl
  | commitReply r ptr =>
      refine h.zoom (.modify ⟨?_, h.connection.state_eq, h.connection.data⟩)
      dsimp only
      rw [h.connection.socket_eq]
  | edit r ptr change =>
      have hchange : ∀ status, change ≠ .setAppStatus status := by
        intro status heq
        exact hedit r ptr status (by rw [heq])
      exact h.zoom (.modify ⟨h.connection.socket_eq, h.connection.state_eq,
        h.connection.data.edit r ptr hchange⟩)

end SameStrand

end Santiago
