import Santiago.Reassembly
import Santiago.Writing

/-!
# Santiago.ReplyWire

What a reply puts on the wire: the two streams, the two empty records that
end them, and the record that ends the request.  A write that fails is the
last one, and the connection is closed in good order behind it.
-/

namespace Santiago

open Effect Bytes PacketSocket RecordSocket Connection

/-! ## The status -/

/-- An octet of a status, cut out by an arithmetic shift and a mask. -/
theorem toNat_statusOctet (status : BitVec 32) {n : Nat} (hn : n ≤ 24) :
    (UInt8.ofBitVec ((status.sshiftRight n &&& 0xff#32).setWidth 8)).toNat =
      status.toNat / 2 ^ n % 256 := by
  have hbits : (status.sshiftRight n &&& 0xff#32).setWidth 8 = status.extractLsb' n 8 := by
    ext i hi
    have hmask : ∀ (j : Nat) (hj : j < 8), (255#8)[j] = true := by decide
    have hlt : n + i < 32 := by omega
    have hge : ¬ 32 ≤ i := by omega
    simp [BitVec.getLsbD_sshiftRight, hmask i hi, hlt, hge]
  rw [hbits]
  show (status.extractLsb' n 8).toNat = _
  rw [BitVec.extractLsb'_toNat, Nat.shiftRight_eq_div_pow]

/-- The number four bytes stand for, the high byte first. -/
def bigEndian (b3 b2 b1 b0 : UInt8) : Nat :=
  ((b3.toNat * 256 + b2.toNat) * 256 + b1.toNat) * 256 + b0.toNat

theorem bigEndian_endRequestBody (status : BitVec 32) :
    bigEndian (endRequestBody status).appStatusB3 (endRequestBody status).appStatusB2
      (endRequestBody status).appStatusB1 (endRequestBody status).appStatusB0 = status.toNat := by
  have h3 := toNat_statusOctet status (n := 24) (by decide)
  have h2 := toNat_statusOctet status (n := 16) (by decide)
  have h1 := toNat_statusOctet status (n := 8) (by decide)
  have h0 : (endRequestBody status).appStatusB0.toNat = status.toNat % 256 := by
    have hzero := toNat_statusOctet status (n := 0) (by decide)
    rw [BitVec.sshiftRight_zero, Nat.pow_zero, Nat.div_one] at hzero
    exact hzero
  have hlt := status.isLt
  rw [bigEndian, h0]
  simp only [endRequestBody, h3, h2, h1]
  omega

/-! ## The records of a reply -/

/-- `sendReply` consumes what it has written. -/
theorem buffers_of_sent {r : Nat} {out err : Bytes} {status : BitVec 32} {c : Connection}
    {reply : Reply} (h : (recordSocket.sendReply r out err status c).exit = .ret reply)
    (hec : reply.ec = false) : reply.outBuffer = [] ∧ reply.errBuffer = [] := by
  rw [sendReply] at h
  obtain ⟨failed, c₁, _, _, h⟩ := Act.exists_of_bind_ret h
  cases failed with
  | true =>
      cases h
      cases hec
  | false =>
      obtain ⟨failed, c₂, _, _, h⟩ := Act.exists_of_bind_ret h
      cases failed with
      | true =>
          cases h
          cases hec
      | false =>
          obtain ⟨failed, c₃, _, _, h⟩ := Act.exists_of_bind_ret h
          cases h
          exact ⟨List.drop_length, List.drop_length⟩

/-- The records of one optional stream of a reply: none of them is empty. -/
theorem exists_streamRecords {r : Nat} (hr : r < 65536) (t : UInt8) {buffer : Bytes}
    (hlen : buffer.length < 2 ^ 32) :
    ∃ recs : List WireRecord, wire recs = (streamRecords r t buffer).flatMap recordBytes ∧
      (∀ rec ∈ recs, rec.requestId = r ∧ rec.type = t ∧ rec.content ≠ []) ∧
      recs.flatMap WireRecord.content = buffer := by
  by_cases hnil : buffer = []
  · subst hnil
    exact ⟨[], rfl, by simp, rfl⟩
  have hrecords : streamRecords r t buffer = packetRecords r t buffer.length buffer := by
    rw [streamRecords, if_pos (List.length_pos_of_ne_nil hnil).ne', bufferRecords,
      Nat.mod_eq_of_lt hlen]
  have hfragments := fragments_packetRecords r t buffer
  obtain ⟨recs, hall, hcontents, hwire⟩ := exists_wireRecords hfragments.fragment hr
  refine ⟨recs, by rw [hrecords, ← hwire]; rfl, fun rec hmem => ?_, ?_⟩
  · refine ⟨(hall rec hmem).1, (hall rec hmem).2, ?_⟩
    have hcontent : rec.content ∈ (packetRecords r t buffer.length buffer).map Prod.snd := by
      rw [← hcontents]
      exact List.mem_map_of_mem hmem
    obtain ⟨p, hp, heq⟩ := List.mem_map.mp hcontent
    rw [← heq]
    exact hfragments.ne_nil hnil p hp
  · rw [List.flatMap_def, hcontents, ← List.flatMap_def, hfragments.content_eq]

/-- A content that fits one record. -/
theorem exists_bufferRecord {r : Nat} (hr : r < 65536) (t : UInt8) {content : Bytes}
    (hlen : content.length ≤ 0xffff) :
    ∃ rec : WireRecord, rec.requestId = r ∧ rec.type = t ∧ rec.content = content ∧
      rec.toBytes = recordBytes (fragmentHeader r t content.length, content) :=
  @IsFragment.exists_wireRecord r t (fragmentHeader r t content.length, content) ⟨rfl, hlen⟩ hr

/-- A string of records is read record by record. -/
theorem reads_wire (recs : List WireRecord) :
    Reads (wire recs) (recs.map WireRecord.packet) [] := by
  induction recs with
  | nil => exact .drained (by decide)
  | cons rec recs ih =>
      rw [wire_cons, List.map_cons]
      exact ih.wireRecord rec

/-- A reply as records: the two streams, their two ends, and the end of the
request.  `status.toNat` is the status modulo 2^32, whatever its sign as an `int`. -/
structure ReplyForm (r : Nat) (out err : Bytes) (status : BitVec 32) (outs errs : List WireRecord)
    (outEnd errEnd last : WireRecord) : Prop where
  requestId_eq : ∀ rec ∈ outs ++ errs ++ [outEnd, errEnd, last], rec.requestId = r
  outs_type : ∀ rec ∈ outs, rec.type = fcgiStdout ∧ rec.content ≠ []
  outs_content : outs.flatMap WireRecord.content = out
  errs_type : ∀ rec ∈ errs, rec.type = fcgiStderr ∧ rec.content ≠ []
  errs_content : errs.flatMap WireRecord.content = err
  outEnd_eq : outEnd.type = fcgiStdout ∧ outEnd.content = []
  errEnd_eq : errEnd.type = fcgiStderr ∧ errEnd.content = []
  last_type : last.type = fcgiEndRequest
  last_content : ∃ b3 b2 b1 b0, last.content = [b3, b2, b1, b0, fcgiRequestComplete, 0, 0, 0] ∧
    bigEndian b3 b2 b1 b0 = status.toNat

/-- The records of a reply have its form, while a `uint` holds the lengths of
the two buffers. -/
theorem exists_replyForm {r : Nat} (hr : r < 65536) {d : RequestData}
    (hout : d.outBuffer.length < 2 ^ 32) (herr : d.errBuffer.length < 2 ^ 32) :
    ∃ outs errs outEnd errEnd last,
      ReplyForm r d.outBuffer d.errBuffer d.appStatus outs errs outEnd errEnd last ∧
      wire (outs ++ errs ++ [outEnd, errEnd, last]) = (replyRecords r d).flatMap recordBytes := by
  obtain ⟨outs, houtw, houts, houtc⟩ := exists_streamRecords hr fcgiStdout hout
  obtain ⟨errs, herrw, herrs, herrc⟩ := exists_streamRecords hr fcgiStderr herr
  have hnil : ([] : Bytes).length ≤ 0xffff := Nat.zero_le _
  obtain ⟨outEnd, houtid, houtt, houtn, houtb⟩ := exists_bufferRecord hr fcgiStdout hnil
  obtain ⟨errEnd, herrid, herrt, herrn, herrb⟩ := exists_bufferRecord hr fcgiStderr hnil
  have hbody : (endRequestBody d.appStatus).toBytes.length ≤ 0xffff := by
    rw [FcgiEndRequestBody.length_toBytes]
    decide
  obtain ⟨last, hlastid, hlastt, hlastc, hlastb⟩ := exists_bufferRecord hr fcgiEndRequest hbody
  have hempty : ∀ t, bufferRecords r t [] = [(fragmentHeader r t 0, [])] := fun t =>
    bufferRecords_short r t (Nat.zero_le _)
  refine ⟨outs, errs, outEnd, errEnd, last, ?_, ?_⟩
  · constructor
    case requestId_eq =>
      intro rec hmem
      simp only [List.mem_append, List.mem_cons, List.not_mem_nil, or_false] at hmem
      obtain (hmem | hmem) | rfl | rfl | rfl := hmem
      · exact (houts rec hmem).1
      · exact (herrs rec hmem).1
      · exact houtid
      · exact herrid
      · exact hlastid
    case outs_type => exact fun rec hmem => (houts rec hmem).2
    case outs_content => exact houtc
    case errs_type => exact fun rec hmem => (herrs rec hmem).2
    case errs_content => exact herrc
    case outEnd_eq => exact ⟨houtt, houtn⟩
    case errEnd_eq => exact ⟨herrt, herrn⟩
    case last_type => exact hlastt
    case last_content => exact ⟨_, _, _, _, hlastc, bigEndian_endRequestBody d.appStatus⟩
  · have hwire : wire (outs ++ errs ++ [outEnd, errEnd, last]) =
        wire outs ++ (wire errs ++ (outEnd.toBytes ++ (errEnd.toBytes ++ last.toBytes))) := by
      simp [wire]
    rw [hwire, houtw, herrw, houtb, herrb, hlastb, replyRecords, replyStreams, hempty, hempty]
    simp [endRecord]

/-- The reply to the request `r` with what `d` holds is out whole.  `sendReply`
narrows the length of a buffer to a `uint`, so a reader gets the two buffers and
the status off its records where each buffer is shorter than 2^32. -/
structure RepliesWith (bytes : Bytes) (r : Nat) (d : RequestData) : Prop where
  records : bytes = (replyRecords r d).flatMap recordBytes
  reads : d.outBuffer.length < 2 ^ 32 → d.errBuffer.length < 2 ^ 32 →
    ∃ outs errs outEnd errEnd last,
      ReplyForm r d.outBuffer d.errBuffer d.appStatus outs errs outEnd errEnd last ∧
      Reads bytes ((outs ++ errs ++ [outEnd, errEnd, last]).map WireRecord.packet) []

/-- The records of a reply are the whole reply. -/
theorem RepliesWith.of_records {bytes : Bytes} {r : Nat} {d : RequestData} (hr : r < 65536)
    (h : bytes = (replyRecords r d).flatMap recordBytes) : RepliesWith bytes r d where
  records := h
  reads hout herr := by
    obtain ⟨outs, errs, outEnd, errEnd, last, hform, hwire⟩ := exists_replyForm hr hout herr
    refine ⟨outs, errs, outEnd, errEnd, last, hform, ?_⟩
    rw [h, ← hwire]
    exact reads_wire _

/-- **Replies are well formed.**  Without a write error the bytes of a reply
are the records of `ReplyForm`, which is also what a reader gets, and both
buffers are empty afterwards. -/
theorem sendReply_wellFormed {c : Connection} (hs : c.socket.state ≠ .closed) {r : Nat}
    (hr : r < 65536) {d : RequestData} (hout : d.outBuffer.length < 2 ^ 32)
    (herr : d.errBuffer.length < 2 ^ 32) (status : BitVec 32) {reply : Reply}
    (hsent : (recordSocket.sendReply r d.outBuffer d.errBuffer
      ((UserEdit.setAppStatus status).apply d).appStatus c).exit = .ret reply)
    (hec : reply.ec = false) :
    (∃ outs errs outEnd errEnd last,
      ReplyForm r d.outBuffer d.errBuffer status outs errs outEnd errEnd last ∧
      sentBytes (recordSocket.sendReply r d.outBuffer d.errBuffer
        ((UserEdit.setAppStatus status).apply d).appStatus c).events =
          wire (outs ++ errs ++ [outEnd, errEnd, last]) ∧
      Reads (sentBytes (recordSocket.sendReply r d.outBuffer d.errBuffer
        ((UserEdit.setAppStatus status).apply d).appStatus c).events)
          ((outs ++ errs ++ [outEnd, errEnd, last]).map WireRecord.packet) []) ∧
    reply.outBuffer = [] ∧ reply.errBuffer = [] := by
  have hstatus : ((UserEdit.setAppStatus status).apply d).appStatus = status := rfl
  rw [hstatus] at hsent ⊢
  refine ⟨?_, buffers_of_sent hsent hec⟩
  have hrun := (sendsUntil_sendReply r { d with appStatus := status }).sends c hs
  obtain ⟨outs, errs, outEnd, errEnd, last, hform, hwire⟩ :=
    @exists_replyForm r hr { d with appStatus := status } hout herr
  have hbytes : sentBytes (recordSocket.sendReply r d.outBuffer d.errBuffer status c).events =
      wire (outs ++ errs ++ [outEnd, errEnd, last]) := by
    obtain ⟨_, _, h⟩ | ⟨failed, _, _, hfailed, _, _, h⟩ := hrun
    · rw [h, sentBytes_map_wroteEvent, hwire]
    · rw [h] at hsent
      cases hsent
      rw [hfailed] at hec
      cases hec
  refine ⟨outs, errs, outEnd, errEnd, last, hform, hbytes, ?_⟩
  rw [hbytes]
  exact reads_wire _

/-- Request 1 answered with one byte and the status -1. -/
theorem sendReply_wellFormed_negative :
    ∃ outs errs outEnd errEnd last, ReplyForm 1 [65] [] (-1) outs errs outEnd errEnd last ∧
      (recordSocket.sendReply 1 [65] [] (-1)
        (Strand.init [] fun _ => 0).connection).events.length = 4 := by
  let c := (Strand.init [] fun _ => 0).connection
  let d : RequestData := { RequestData.new 0 with outBuffer := [65] }
  have hs : c.socket.state ≠ .closed := by decide
  have hout : d.outBuffer.length < 2 ^ 32 := by decide
  have herr : d.errBuffer.length < 2 ^ 32 := by decide
  have hsent : (recordSocket.sendReply 1 d.outBuffer d.errBuffer
      ((UserEdit.setAppStatus (-1)).apply d).appStatus c).exit = .ret ⟨false, [], []⟩ := rfl
  obtain ⟨⟨outs, errs, outEnd, errEnd, last, hform, _, _⟩, _, _⟩ :=
    sendReply_wellFormed hs (by decide) hout herr (-1) hsent rfl
  exact ⟨outs, errs, outEnd, errEnd, last, hform, by decide⟩

/-! ## A reply that is cut short -/

/-- A write was attempted. -/
def Event.isWrite : Event → Bool
  | .wrote _ _ => true
  | .writeError _ => true
  | _ => false

/-- The record of an event that wrote one. -/
def Event.record? : Event → Option (FcgiHeader × Bytes)
  | .wrote header content => some (header, content)
  | _ => none

/-- The records that a run wrote whole. -/
def writtenRecords (es : List Event) : List (FcgiHeader × Bytes) := es.filterMap Event.record?

theorem filter_isWrite_map (ps : List (FcgiHeader × Bytes)) :
    (ps.map wroteEvent).filter Event.isWrite = ps.map wroteEvent :=
  List.filter_eq_self.mpr fun x hx => by
    obtain ⟨p, _, rfl⟩ := List.mem_map.mp hx
    rfl

theorem writtenRecords_map (ps : List (FcgiHeader × Bytes)) :
    writtenRecords (ps.map wroteEvent) = ps := by
  rw [writtenRecords, List.filterMap_map]
  exact List.filterMap_some

/-- The reply `records` failed at its record `k`: the records before it went
out, nothing was tried behind it, and the connection is closed. -/
structure CutShort (records : List (FcgiHeader × Bytes)) (k : Nat)
    (out : Outcome Event Connection Unit) : Prop where
  exit_eq : out.exit = .ret ()
  writes_eq : ∃ part, out.events.filter Event.isWrite =
    (records.take k).map wroteEvent ++ [.writeError part]
  socket_closed : out.state.socket.state = .closed
  state_closed : out.state.state = .closed
  map_empty : ∀ r' : Nat, out.state.data.requestMap[r']? = none
  closed_once : out.events.count .closeCallback = 1

/-- The reply `records` went out whole: its entry is gone and no other, and
the connection closed if it was winding down and this was its last request. -/
structure WentOut (c : Connection) (r : Nat) (records : List (FcgiHeader × Bytes))
    (out : Outcome Event Connection Unit) : Prop where
  exit_eq : out.exit = .ret ()
  writes_eq : out.events.filter Event.isWrite = records.map wroteEvent
  entry_gone : out.state.data.requestMap[r]? = none
  others_stay : ∀ r', r' ≠ r → out.state.data.requestMap[r']? = c.data.requestMap[r']?
  closes_iff : out.state.state = .closed ↔
    c.state = .closing ∧ ∀ r', r' ≠ r → c.data.requestMap[r']? = none
  state_eq : out.state.state ≠ .closed → out.state.state = c.state
  socket_iff : out.state.socket.state = .closed ↔ out.state.state = .closed
  closed_once : out.events.count .closeCallback = if out.state.state = .closed then 1 else 0

/-- The last entry leaves the map. -/
theorem size_erase_eq_zero_iff (d : ConnectionData) (r : Nat) :
    (d.erase r).size = 0 ↔ ∀ r', r' ≠ r → d.requestMap[r']? = none := by
  rw [ConnectionData.size, ConnectionData.size_requestMap_eq_zero_iff]
  constructor
  · intro h r' hne
    have hr := h r'
    rwa [ConnectionData.getElem?_erase, if_neg (Ne.symm hne)] at hr
  · intro h r'
    rw [ConnectionData.getElem?_erase]
    split
    · rfl
    · next hne => exact h r' (Ne.symm hne)

theorem inCompleted_of_ready {e : Entry} (h : e.ready = true) : e.state &&& inCompleted ≠ 0 := by
  rw [Entry.ready, Bool.and_eq_true] at h
  simpa using h.2

theorem count_closeCallback_map (ps : List (FcgiHeader × Bytes)) :
    (ps.map wroteEvent).count .closeCallback = 0 :=
  List.count_eq_zero.mpr fun hmem => by
    obtain ⟨p, _, hp⟩ := List.mem_map.mp hmem
    cases hp

/-- A reply whose writes all go well. -/
theorem wentOut_of_takes {c : Connection} (hwf : c.WF) (hc : c.state ≠ .closed) {r : Nat}
    {e : Entry} (he : c.data.requestMap[r]? = some e) (hready : e.ready = true)
    (htakes : c.socket.Takes (replyRecords r e.data).length) :
    WentOut c r (replyRecords r e.data) (commitReplyImpl r e.ptr c) := by
  have hs : c.socket.state ≠ .closed := fun hs => hc (hwf.mpr hs)
  obtain ⟨reply, hec, h⟩ := (sendsUntil_sendReply r e.data c hs).1 htakes
  rw [commitReplyImpl_sent he (inCompleted_of_ready hready) h hec]
  have herase := size_erase_eq_zero_iff c.data r
  have hgone : (c.data.erase r).requestMap[r]? = none := by
    rw [ConnectionData.getElem?_erase, if_pos rfl]
  have hstay : ∀ r', r' ≠ r → (c.data.erase r).requestMap[r']? = c.data.requestMap[r']? :=
    fun r' hne => by rw [ConnectionData.getElem?_erase, if_neg (Ne.symm hne)]
  split
  · next hlast =>
      obtain ⟨hclosing, hempty⟩ := hlast
      constructor
      case exit_eq => rfl
      case writes_eq => simp [List.filter_append, filter_isWrite_map, Event.isWrite]
      case entry_gone => simp
      case others_stay =>
        intro r' hne
        rw [herase.mp hempty r' hne]
        simp
      case closes_iff => exact ⟨fun _ => ⟨hclosing, herase.mp hempty⟩, fun _ => rfl⟩
      case state_eq => exact fun hne => absurd rfl hne
      case socket_iff => simp
      case closed_once => simp [List.count_append, count_closeCallback_map]
  · next hlast =>
      constructor
      case exit_eq => rfl
      case writes_eq => simp [List.filter_append, filter_isWrite_map, Event.isWrite]
      case entry_gone => exact hgone
      case others_stay => exact hstay
      case closes_iff =>
        rw [← herase]
        exact ⟨fun h => absurd h hc, fun h => absurd h hlast⟩
      case state_eq => exact fun _ => rfl
      case socket_iff => exact ⟨fun h => absurd h hs, fun h => absurd h hc⟩
      case closed_once => simp [List.count_append, count_closeCallback_map, hc]

/-- A reply that the socket fails. -/
theorem cutShort_of_failsAt {c : Connection} (hwf : c.WF) (hc : c.state ≠ .closed) {r : Nat}
    {e : Entry} (he : c.data.requestMap[r]? = some e) {k : Nat}
    (hk : k < (replyRecords r e.data).length) (hfails : c.socket.FailsAt k) :
    CutShort (replyRecords r e.data) k (commitReplyImpl r e.ptr c) := by
  have hs : c.socket.state ≠ .closed := fun hs => hc (hwf.mpr hs)
  obtain ⟨reply, part, hec, h⟩ := (sendsUntil_sendReply r e.data c hs).2 k hk hfails
  rw [commitReplyImpl_cut he h hec]
  have hwrites : ∀ (ps : List (FcgiHeader × Bytes)) (n : Nat),
      (Event.sendReply r e.ptr :: (ps.map wroteEvent ++ [Event.writeError part]) ++
        [Event.cleared n, Event.closeCallback]).filter Event.isWrite =
          ps.map wroteEvent ++ [.writeError part] := fun ps n => by
    simp [List.filter_append, filter_isWrite_map, List.filter_cons, Event.isWrite]
  have hcount : ∀ (ps : List (FcgiHeader × Bytes)) (n : Nat),
      (Event.sendReply r e.ptr :: (ps.map wroteEvent ++ [Event.writeError part]) ++
        [Event.cleared n, Event.closeCallback]).count .closeCallback = 1 := fun ps n => by
    simp [List.count_append, count_closeCallback_map]
  constructor
  case exit_eq => rfl
  case writes_eq => exact ⟨part, hwrites _ _⟩
  case socket_closed => simp
  case state_closed => rfl
  case map_empty => simp
  case closed_once => exact hcount _ _

/-- The records of a reply that nothing interrupts. -/
theorem writtenRecords_sent {c : Connection} (hwf : c.WF) (hc : c.state ≠ .closed) {r : Nat}
    {e : Entry} (he : c.data.requestMap[r]? = some e) (hready : e.ready = true) :
    writtenRecords (commitReplyImpl r e.ptr (c.withFaults [])).events = replyRecords r e.data := by
  have htakes : (c.withFaults []).socket.Takes (replyRecords r e.data).length :=
    fun j _ m hm => by simp at hm
  have hwrites := (wentOut_of_takes (c := c.withFaults []) hwf hc he hready htakes).writes_eq
  have hfilter : ∀ es : List Event,
      writtenRecords (es.filter Event.isWrite) = writtenRecords es := by
    intro es
    rw [writtenRecords, writtenRecords, List.filterMap_filter]
    congr 1
    funext x
    cases x <;> rfl
  rw [← hfilter, hwrites, writtenRecords_map]

/-- **A failing write ends a reply cleanly**, whichever record it hits; and
when no write fails, the request is answered and gone. -/
theorem commitReplyImpl_clean {c : Connection} (hwf : c.WF) (hc : c.state ≠ .closed) {r : Nat}
    {e : Entry} (he : c.data.requestMap[r]? = some e) (hready : e.ready = true) :
    let records := writtenRecords (commitReplyImpl r e.ptr (c.withFaults [])).events
    (∀ k < records.length, c.socket.FailsAt k →
      CutShort records k (commitReplyImpl r e.ptr c)) ∧
    (c.socket.Takes records.length → WentOut c r records (commitReplyImpl r e.ptr c)) := by
  rw [writtenRecords_sent hwf hc he hready]
  exact ⟨fun _ hk hfails => cutShort_of_failsAt hwf hc he hk hfails,
    fun htakes => wentOut_of_takes hwf hc he hready htakes⟩

/-- A connection with one ready request, whose second write will fail. -/
def oneReady : Connection where
  socket := PacketSocket.init [none, some 3]
  data := ((ConnectionData.init fun _ => 0).insertNew 1).modifyEntry 1 fun _ data =>
    (inCompleted ||| paramsCompleted, data)
  state := .open

/-- The empty record of the stdout stream goes out, the next one does not. -/
theorem commitReplyImpl_clean_second_write : ∃ records : List (FcgiHeader × Bytes),
    records.length = 3 ∧ CutShort records 1 (commitReplyImpl 1 0 oneReady) := by
  have hwf : oneReady.WF := by simp [WF, oneReady, PacketSocket.init]
  have he : oneReady.data.requestMap[1]? =
      some ⟨inCompleted ||| paramsCompleted, 0, RequestData.new 0⟩ := by decide
  have hfails : oneReady.socket.FailsAt 1 := by
    refine ⟨fun j hj m hm => ?_, 3, rfl⟩
    have hzero : j = 0 := by omega
    subst hzero
    cases hm
  obtain ⟨hcut, _⟩ := commitReplyImpl_clean hwf (by decide) he (by decide)
  exact ⟨_, by decide, hcut 1 (by decide) hfails⟩

end Santiago
