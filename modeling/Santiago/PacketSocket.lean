import Santiago.ConnectionData

/-!
# Santiago.PacketSocket

Packets on top of a byte stream.  `writePacket` cuts a content into records
of at most 65535 bytes and writes them one by one until a write fails;
`handleRead` appends what was read to the input buffer and hands every
complete record to the packet callback.

The socket itself is outside: `writeFaults` holds its answers to the coming
writes, and `handleRead` is called with what a read brought.  The object that
owns the socket and the callback is an `Owner`, so the read loop can be run
with any callback.
-/

namespace Santiago

open Effect Bytes

/-- A task posted to the strand of a connection. -/
inductive StrandTask where
  | flushProtocolSocket
  | commitReplyImpl (requestId ptr : Nat)
deriving DecidableEq

inductive PacketSocket.State where
  | open
  | closed
deriving DecidableEq

structure PacketSocket where
  state : PacketSocket.State
  inputBuffer : Bytes
  /-- `async_read_some` calls whose handler has not run yet. -/
  pendingReads : Nat
  /-- The queue of `*_connectionStrandPtr`, which the connection shares. -/
  strand : List StrandTask
  /-- The socket's answers to the coming writes: `some n` fails after `n`
  bytes, `none` and everything behind the list succeeds. -/
  writeFaults : List (Option Nat)

namespace PacketSocket

/-- The constructor: open, nothing buffered, no read started. -/
def init (writeFaults : List (Option Nat)) : PacketSocket where
  state := .open
  inputBuffer := []
  pendingReads := 0
  strand := []
  writeFaults := writeFaults

/-- `BUFFER_INCREMENT_SIZE`: what one read may bring at most. -/
def bufferIncrementSize : Nat := 4096

def startAsyncPacketRead : Act Event PacketSocket Unit :=
  Act.modify fun s => { s with pendingReads := s.pendingReads + 1 }

/-- `close()`: the flush of the socket is left to a task of the strand. -/
def close : Act Event PacketSocket Unit := do
  let s ← Act.get
  Act.when (s.state ≠ .closed)
    (Act.modify fun s =>
      { s with state := .closed, strand := s.strand ++ [.flushProtocolSocket] })

/-! ## Writing -/

/-- `boost::asio::write` of one record; `true` is an error. -/
def asioWrite (header : FcgiHeader) (content : Bytes) : Act Event PacketSocket Bool := do
  let s ← Act.get
  Act.modify fun s => { s with writeFaults := s.writeFaults.tail }
  match s.writeFaults.head? with
  | some (some n) => do
      Act.emit (.writeError ((header.toBytes ++ content ++
        List.replicate header.paddingLength.toNat 0).take n))
      pure true
  | _ => do
      Act.emit (.wrote header content)
      pure false

/-- The header of one fragment of `written` content bytes. -/
def fragmentHeader (requestId : Nat) (headerType : UInt8) (written : Nat) : FcgiHeader where
  version := fcgiVersion1
  type := headerType
  requestIdB1 := octet (requestId >>> 8)
  requestIdB0 := octet requestId
  contentLengthB1 := UInt8.ofNat (written >>> 8)
  contentLengthB0 := octet written
  paddingLength := UInt8.ofNat ((8 - written % 8) % 8)
  reserved := 0

/-- The loop of `writePacket` from position `n`.  A pass that goes on has
written 65535 bytes, which bounds the passes by `contentLength / 65535 + 1`. -/
def writeLoop (requestId : Nat) (headerType : UInt8) (contentLength : Nat) (content : Bytes) :
    Nat → Nat → Act Event PacketSocket Bool
  | 0, _ => pure false
  | fuel + 1, n => do
      let written := min (contentLength - n) 0xffff
      let ec ← asioWrite (fragmentHeader requestId headerType written)
        ((content.drop n).take written)
      if ec then do
        close
        pure true
      else if n + written = contentLength then
        pure false
      else
        writeLoop requestId headerType contentLength content fuel (n + written)

/-- `writePacket(requestId, headerType, contentLength, content, ec)`; the
result is the error code. -/
def writePacket (requestId : Nat) (headerType : UInt8) (contentLength : Nat) (content : Bytes) :
    Act Event PacketSocket Bool := do
  let s ← Act.get
  Act.assert (s.state ≠ .closed) "PacketSocket::writePacket: _state != CLOSED"
  writeLoop requestId headerType contentLength content (contentLength / 0xffff + 1) 0

/-! ## Reading -/

/-- The object a packet socket belongs to: where the socket sits in it, and
the callback for new packets (error, request id, type, content). -/
structure Owner (σ : Type) where
  socket : σ → PacketSocket
  setSocket : PacketSocket → σ → σ
  newPacketCallback : Bool → Nat → UInt8 → Bytes → Act Event σ Unit

namespace Owner

variable {σ α : Type} (o : Owner σ)

/-- Run code of the packet socket. -/
def onSocket (x : Act Event PacketSocket α) : Act Event σ α := Act.zoom o.socket o.setSocket x

/-- `_inputBuffer.consume(n)`, which stops at the end of the buffer. -/
def consume (n : Nat) : Act Event σ Unit :=
  o.onSocket (Act.modify fun s => { s with inputBuffer := s.inputBuffer.drop n })

/-- One evaluation of the `while` condition of `handleRead` and, when it
holds, one pass of the body; the result says whether the loop goes on. -/
def nextPacket : Act Event σ Bool := do
  let buffer := (o.socket (← Act.get)).inputBuffer
  if buffer.length < fcgiHeaderLen then
    pure false
  else
    let header := FcgiHeader.cast buffer
    Act.tryCatch
      (if header.version ≠ fcgiVersion1 then
        Act.throw "Unsupported FCGI verison"
      else if buffer.length < header.recordLength then
        pure false
      else do
        o.newPacketCallback false header.requestId header.type
          ((buffer.drop fcgiHeaderLen).take header.contentLength)
        o.consume header.recordLength
        let s ← Act.get
        pure ((o.socket s).state ≠ .closed))
      (fun _ => do
        o.consume header.recordLength
        pure true)

/-- The `while` loop.  A pass that goes on consumes at least eight bytes, so
as many passes as there are bytes are more than enough. -/
def readLoop : Nat → Act Event σ Unit
  | 0 => pure ()
  | fuel + 1 => do
      let again ← o.nextPacket
      Act.when again (readLoop fuel)

/-- `handleRead` up to its loop: the bytes are committed, a closed socket
ends the call, an error closes the socket and is passed on.  The result says
whether the loop is entered. -/
def enterHandleRead (error : Bool) (bytes : Bytes) : Act Event σ Bool := do
  o.onSocket (Act.modify fun s =>
    { s with inputBuffer := s.inputBuffer ++ bytes, pendingReads := s.pendingReads - 1 })
  let s ← Act.get
  if (o.socket s).state = .closed then
    pure false
  else if error then do
    Act.emit .readError
    o.onSocket close
    o.newPacketCallback true 0 0 []
    pure false
  else
    pure true

def handleRead (error : Bool) (bytes : Bytes) : Act Event σ Unit := do
  let enter ← o.enterHandleRead error bytes
  let s ← Act.get
  Act.when enter (o.readLoop ((o.socket s).inputBuffer.length + 1))

end Owner

/-- `flushProtocolSocket()`: drop what is buffered, then read and drop until
the socket reports an error. -/
def flushProtocolSocket : Act Event PacketSocket Unit := do
  let s ← Act.get
  Act.assert (s.state = .closed) "PacketSocket::flushProtocolSocket: _state == CLOSED"
  Act.modify fun s => { s with inputBuffer := [] }

/-! ## What a write does -/

/-- The socket after `close()`. -/
def shut (s : PacketSocket) : PacketSocket :=
  if s.state = .closed then s
  else { s with state := .closed, strand := s.strand ++ [.flushProtocolSocket] }

@[simp] theorem state_shut (s : PacketSocket) : s.shut.state = .closed := by
  unfold shut
  split <;> simp_all

@[simp] theorem inputBuffer_shut (s : PacketSocket) : s.shut.inputBuffer = s.inputBuffer := by
  unfold shut
  split <;> rfl

@[simp] theorem pendingReads_shut (s : PacketSocket) : s.shut.pendingReads = s.pendingReads := by
  unfold shut
  split <;> rfl

theorem shut_of_closed {s : PacketSocket} (h : s.state = .closed) : s.shut = s := if_pos h

@[simp] theorem shut_shut (s : PacketSocket) : s.shut.shut = s.shut :=
  shut_of_closed (state_shut s)

theorem close_run (s : PacketSocket) : close s = ⟨.ret (), s.shut, []⟩ := by
  unfold close shut
  by_cases h : s.state = .closed <;> simp [h]

/-- The socket with its answers to the coming writes replaced. -/
def withFaults (s : PacketSocket) (fs : List (Option Nat)) : PacketSocket :=
  { s with writeFaults := fs }

@[simp] theorem state_withFaults (s : PacketSocket) (fs : List (Option Nat)) :
    (s.withFaults fs).state = s.state := rfl

@[simp] theorem writeFaults_withFaults (s : PacketSocket) (fs : List (Option Nat)) :
    (s.withFaults fs).writeFaults = fs := rfl

@[simp] theorem inputBuffer_withFaults (s : PacketSocket) (fs : List (Option Nat)) :
    (s.withFaults fs).inputBuffer = s.inputBuffer := rfl

@[simp] theorem pendingReads_withFaults (s : PacketSocket) (fs : List (Option Nat)) :
    (s.withFaults fs).pendingReads = s.pendingReads := rfl

@[simp] theorem withFaults_withFaults (s : PacketSocket) (fs fs' : List (Option Nat)) :
    (s.withFaults fs).withFaults fs' = s.withFaults fs' := rfl

/-- The event of one whole record. -/
def wroteEvent (p : FcgiHeader × Bytes) : Event := .wrote p.1 p.2

/-- Write records one after the other until one fails. -/
def writeRecords : List (FcgiHeader × Bytes) → Act Event PacketSocket Bool
  | [] => pure false
  | p :: ps => do
      let ec ← asioWrite p.1 p.2
      if ec then do
        close
        pure true
      else
        writeRecords ps

/-- The records of the loop of `writePacket` from position `n`. -/
def recordsFrom (requestId : Nat) (headerType : UInt8) (contentLength : Nat) (content : Bytes) :
    Nat → Nat → List (FcgiHeader × Bytes)
  | 0, _ => []
  | fuel + 1, n =>
      let written := min (contentLength - n) 0xffff
      (fragmentHeader requestId headerType written, (content.drop n).take written) ::
        if n + written = contentLength then []
        else recordsFrom requestId headerType contentLength content fuel (n + written)

/-- The records of one `writePacket`. -/
def packetRecords (requestId : Nat) (headerType : UInt8) (contentLength : Nat) (content : Bytes) :
    List (FcgiHeader × Bytes) :=
  recordsFrom requestId headerType contentLength content (contentLength / 0xffff + 1) 0

/-- Every fragment carries the type and the id of its packet. -/
theorem header_of_mem_packetRecords {r : Nat} {t : UInt8} {len : Nat} {content : Bytes}
    {p : FcgiHeader × Bytes} (h : p ∈ packetRecords r t len content) :
    p.1.type = t ∧ (r < 65536 → p.1.requestId = r) := by
  have hfrom : ∀ (fuel n : Nat), p ∈ recordsFrom r t len content fuel n →
      ∃ written, p.1 = fragmentHeader r t written := by
    intro fuel
    induction fuel with
    | zero => intro n hp; cases hp
    | succ fuel ih =>
        intro n hp
        rw [recordsFrom] at hp
        obtain rfl | hp := List.mem_cons.mp hp
        · exact ⟨_, rfl⟩
        · split at hp
          · cases hp
          · exact ih _ hp
  obtain ⟨written, hw⟩ := hfrom _ _ h
  rw [hw]
  exact ⟨rfl, fun hr => two_octets hr⟩

theorem writeLoop_eq (r : Nat) (t : UInt8) (len : Nat) (content : Bytes) (fuel n : Nat) :
    writeLoop r t len content fuel n = writeRecords (recordsFrom r t len content fuel n) := by
  induction fuel generalizing n with
  | zero => rfl
  | succ fuel ih =>
      rw [writeLoop, recordsFrom, writeRecords]
      congr 1
      funext ec
      split
      · rfl
      · split
        · rfl
        · exact ih _

/-- On an open socket `writePacket` writes its records until one fails. -/
theorem writePacket_run {s : PacketSocket} (h : s.state ≠ .closed) (r : Nat) (t : UInt8)
    (len : Nat) (content : Bytes) :
    writePacket r t len content s = writeRecords (packetRecords r t len content) s := by
  simp only [writePacket, Act.get_bind_run, h, ne_eq, not_false_eq_true, decide_true,
    Act.assert_true_bind_run, writeLoop_eq]
  rfl

theorem writePacket_run_closed {s : PacketSocket} (h : s.state = .closed) (r : Nat) (t : UInt8)
    (len : Nat) (content : Bytes) :
    writePacket r t len content s =
      ⟨.abort "PacketSocket::writePacket: _state != CLOSED", s, []⟩ := by
  simp [writePacket, h]

/-- A record that the socket takes is followed by the rest. -/
theorem writeRecords_cons_ok (p : FcgiHeader × Bytes) (ps : List (FcgiHeader × Bytes))
    {s : PacketSocket} (h : ∀ n, s.writeFaults.head? ≠ some (some n)) :
    writeRecords (p :: ps) s =
      (writeRecords ps (s.withFaults s.writeFaults.tail)).after [wroteEvent p] := by
  have hw : asioWrite p.1 p.2 s =
      ⟨.ret false, s.withFaults s.writeFaults.tail, [wroteEvent p]⟩ := by
    simp only [asioWrite, Act.get_bind_run, Act.modify_bind_run]
    rfl
  rw [writeRecords, Act.bind_of_ret hw]
  rfl

/-- A record that fails is the last one, and closes the socket. -/
theorem writeRecords_cons_fail (p : FcgiHeader × Bytes) (ps : List (FcgiHeader × Bytes))
    {s : PacketSocket} {n : Nat} (h : s.writeFaults.head? = some (some n)) :
    ∃ part, writeRecords (p :: ps) s =
      ⟨.ret true, (s.withFaults s.writeFaults.tail).shut, [.writeError part]⟩ := by
  refine ⟨(p.1.toBytes ++ p.2 ++ List.replicate p.1.paddingLength.toNat 0).take n, ?_⟩
  have hw : asioWrite p.1 p.2 s = ⟨.ret true, s.withFaults s.writeFaults.tail, [.writeError
      ((p.1.toBytes ++ p.2 ++ List.replicate p.1.paddingLength.toNat 0).take n)]⟩ := by
    simp [asioWrite, h, withFaults]
  rw [writeRecords, Act.bind_of_ret hw]
  simp [Act.bind_of_ret (close_run _)]

/-- The socket takes the next `n` writes. -/
def Takes (s : PacketSocket) (n : Nat) : Prop :=
  ∀ j < n, ∀ m, s.writeFaults[j]? ≠ some (some m)

/-- The socket takes the next `k` writes and fails the one behind them. -/
def FailsAt (s : PacketSocket) (k : Nat) : Prop :=
  s.Takes k ∧ ∃ m, s.writeFaults[k]? = some (some m)

theorem takes_or_failsAt (s : PacketSocket) (n : Nat) : s.Takes n ∨ ∃ k < n, s.FailsAt k := by
  induction n with
  | zero => exact .inl fun j hj => absurd hj (Nat.not_lt_zero j)
  | succ n ih =>
      obtain htakes | ⟨k, hk, hfails⟩ := ih
      · by_cases hn : ∃ m, s.writeFaults[n]? = some (some m)
        · exact .inr ⟨n, Nat.lt_succ_self n, htakes, hn⟩
        · left
          intro j hj m hm
          obtain hlt | rfl := Nat.lt_succ_iff_lt_or_eq.mp hj
          · exact htakes j hlt m hm
          · exact hn ⟨m, hm⟩
      · exact .inr ⟨k, Nat.lt_succ_of_lt hk, hfails⟩

theorem Takes.mono {s : PacketSocket} {m n : Nat} (h : s.Takes n) (hle : m ≤ n) : s.Takes m :=
  fun j hj => h j (Nat.lt_of_lt_of_le hj hle)

/-- What the socket does with the writes behind the next `n`. -/
theorem Takes.drop {s : PacketSocket} {m n : Nat} (h : s.Takes (n + m)) :
    (s.withFaults (s.writeFaults.drop n)).Takes m := by
  intro j hj k hk
  rw [writeFaults_withFaults, List.getElem?_drop] at hk
  exact h (n + j) (by omega) k hk

theorem FailsAt.drop {s : PacketSocket} {k n : Nat} (h : s.FailsAt (n + k)) :
    (s.withFaults (s.writeFaults.drop n)).FailsAt k := by
  refine ⟨h.1.drop, ?_⟩
  rw [writeFaults_withFaults, List.getElem?_drop]
  exact h.2

/-- Records that the socket takes all go out. -/
theorem writeRecords_of_takes (ps : List (FcgiHeader × Bytes)) {s : PacketSocket}
    (h : s.Takes ps.length) : writeRecords ps s =
      ⟨.ret false, s.withFaults (s.writeFaults.drop ps.length), ps.map wroteEvent⟩ := by
  induction ps generalizing s with
  | nil => rfl
  | cons p ps ih =>
      have hhead : ∀ n, s.writeFaults.head? ≠ some (some n) := fun n hn =>
        h 0 (Nat.succ_pos _) n (by rwa [← List.head?_eq_getElem?])
      rw [List.length_cons, Nat.add_comm] at h
      have htail := ih h.drop
      rw [List.drop_one] at htail
      rw [writeRecords_cons_ok p ps hhead, htail]
      simp [List.drop_tail]

/-- The record that fails is the last one, and closes the socket. -/
theorem writeRecords_of_failsAt (ps : List (FcgiHeader × Bytes)) {s : PacketSocket} {k : Nat}
    (hk : k < ps.length) (h : s.FailsAt k) : ∃ part, writeRecords ps s =
      ⟨.ret true, (s.withFaults (s.writeFaults.drop (k + 1))).shut,
        (ps.take k).map wroteEvent ++ [.writeError part]⟩ := by
  induction ps generalizing s k with
  | nil => exact absurd hk (Nat.not_lt_zero k)
  | cons p ps ih =>
      cases k with
      | zero =>
          obtain ⟨_, n, hn⟩ := h
          rw [← List.head?_eq_getElem?] at hn
          obtain ⟨part, hp⟩ := writeRecords_cons_fail p ps hn
          refine ⟨part, ?_⟩
          rw [hp, ← List.drop_one]
          rfl
      | succ k =>
          have hhead : ∀ n, s.writeFaults.head? ≠ some (some n) := fun n hn =>
            h.1 0 (Nat.succ_pos _) n (by rwa [← List.head?_eq_getElem?])
          rw [Nat.add_comm] at h
          obtain ⟨part, htail⟩ := ih (Nat.lt_of_succ_lt_succ hk) h.drop
          rw [List.drop_one] at htail
          refine ⟨part, ?_⟩
          rw [writeRecords_cons_ok p ps hhead, htail]
          simp [List.drop_tail]

/-- The two ways a sequence of writes on an open socket ends: all records out,
or the records before the failing one out and the socket closed. -/
theorem writeRecords_cases (ps : List (FcgiHeader × Bytes)) (s : PacketSocket) :
    writeRecords ps s =
        ⟨.ret false, s.withFaults (s.writeFaults.drop ps.length), ps.map wroteEvent⟩ ∨
      ∃ k part, k < ps.length ∧ (∃ n, s.writeFaults[k]? = some (some n)) ∧
        writeRecords ps s =
        ⟨.ret true, (s.withFaults (s.writeFaults.drop (k + 1))).shut,
          (ps.take k).map wroteEvent ++ [.writeError part]⟩ := by
  obtain htakes | ⟨k, hk, hfails⟩ := s.takes_or_failsAt ps.length
  · exact .inl (writeRecords_of_takes ps htakes)
  · obtain ⟨part, h⟩ := writeRecords_of_failsAt ps hk hfails
    exact .inr ⟨k, part, hk, hfails.2, h⟩

end PacketSocket

end Santiago
