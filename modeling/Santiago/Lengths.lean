import Santiago.Strand
import Santiago.Writing

/-!
# Santiago.Lengths

The sizes of three buffers are `size_t`s that go through `unsigned int`
parameters: the stream of params through `ParsePairs`, and the two output
streams through `writePacket`.  Nothing bounds the buffers, and `sendReply`
consumes all of a buffer, however much of it the narrowed length covered.

`KeepsLengths` says of one request that none of the three loses anything.
`lengths_kept_iff` says which runs keep it: those in which no PARAMS record
and no write of a user takes one of the buffers to 2^32 bytes.
-/

namespace Santiago

open Effect Bytes Std PacketSocket RecordSocket Connection

/-! ## Narrowed lengths -/

/-- A `size_t` that is passed as an `unsigned int`. -/
def asUint (size : Nat) : Nat := size % 2 ^ 32

theorem asUint_eq_iff {size : Nat} : asUint size = size ↔ size < 2 ^ 32 := by
  rw [asUint]
  constructor
  · intro h
    rw [← h]
    exact Nat.mod_lt _ (by decide)
  · exact Nat.mod_eq_of_lt

/-- The length `parseFCGIParams` passes. -/
theorem RequestData.parseFCGIParams_passes (d : RequestData) :
    d.parseFCGIParams =
      { d with
        paramsMap := parsePairs d.paramsBuffer (asUint d.paramsBuffer.length) d.paramsMap } :=
  rfl

/-- The length `sendReply` passes for each of its buffers. -/
theorem RecordSocket.writeBuffer_passes {σ : Type} (rs : RecordSocket σ) (r : Nat) (t : UInt8)
    (buffer : Bytes) :
    rs.writeBuffer r t buffer = rs.onSocket (writePacket r t (asUint buffer.length) buffer) :=
  rfl

/-! ## What a request loses -/

/-- What the records of one type that went out whole carry. -/
def contentOf (t : UInt8) (es : List Event) : Bytes :=
  es.flatMap fun
    | .wrote header content => if header.type = t then content else []
    | _ => []

/-- No length of the request `r` is lost: all of its params are parsed, and of
each output stream `sendReply` writes all that it consumes. -/
structure KeepsLengths (r : Nat) (d : RequestData) : Prop where
  params_length : asUint d.paramsBuffer.length = d.paramsBuffer.length
  out_length : asUint d.outBuffer.length = d.outBuffer.length
  err_length : asUint d.errBuffer.length = d.errBuffer.length
  params_parsed : d.parseFCGIParams.paramsMap =
    parsePairs d.paramsBuffer d.paramsBuffer.length d.paramsMap
  out_written : ∀ (c : Connection) (reply : Reply), c.socket.state ≠ .closed →
    (recordSocket.sendReply r d.outBuffer d.errBuffer d.appStatus c).exit = .ret reply →
    reply.outBuffer = [] → contentOf fcgiStdout
      (recordSocket.sendReply r d.outBuffer d.errBuffer d.appStatus c).events = d.outBuffer
  err_written : ∀ (c : Connection) (reply : Reply), c.socket.state ≠ .closed →
    (recordSocket.sendReply r d.outBuffer d.errBuffer d.appStatus c).exit = .ret reply →
    reply.errBuffer = [] → contentOf fcgiStderr
      (recordSocket.sendReply r d.outBuffer d.errBuffer d.appStatus c).events = d.errBuffer

/-- Every buffer of the request is shorter than 2^32 bytes. -/
structure RequestData.FitsUint (d : RequestData) : Prop where
  params : d.paramsBuffer.length < 2 ^ 32
  out : d.outBuffer.length < 2 ^ 32
  err : d.errBuffer.length < 2 ^ 32

@[simp] theorem contentOf_nil (t : UInt8) : contentOf t [] = [] := rfl

@[simp] theorem contentOf_append (t : UInt8) (es es' : List Event) :
    contentOf t (es ++ es') = contentOf t es ++ contentOf t es' :=
  List.flatMap_append

/-- Records of one type carry their contents. -/
theorem contentOf_map_of_type {t : UInt8} {ps : List (FcgiHeader × Bytes)}
    (h : ∀ p ∈ ps, p.1.type = t) : contentOf t (ps.map wroteEvent) = ps.flatMap Prod.snd := by
  rw [contentOf, List.flatMap_map]
  refine List.flatMap_congr fun p hp => ?_
  simp [wroteEvent, h p hp]

/-- Records of other types, and empty ones, carry nothing. -/
theorem contentOf_map_eq_nil {t : UInt8} {ps : List (FcgiHeader × Bytes)}
    (h : ∀ p ∈ ps, p.1.type = t → p.2 = []) : contentOf t (ps.map wroteEvent) = [] := by
  rw [contentOf, List.flatMap_map, List.flatMap_eq_nil_iff]
  intro p hp
  by_cases ht : p.1.type = t
  · simp [wroteEvent, ht, h p hp ht]
  · simp [wroteEvent, ht]

/-- However far the writes of `ps` get, a type that only empty records have
carries nothing. -/
theorem Connection.Sends.contentOf_eq_nil {α : Type} {code : α → Bool}
    {x : Act Event Connection α} {ps : List (FcgiHeader × Bytes)} (h : Sends code x ps)
    {c : Connection} (hs : c.socket.state ≠ .closed) {t : UInt8}
    (hps : ∀ p ∈ ps, p.1.type = t → p.2 = []) : contentOf t (x c).events = [] := by
  obtain ⟨a, _, hx⟩ | ⟨a, k, part, _, _, _, hx⟩ := h c hs
  · rw [hx]
    exact contentOf_map_eq_nil hps
  · rw [hx, contentOf_append, contentOf_map_eq_nil fun p hp => hps p (List.mem_of_mem_take hp)]
    rfl

theorem type_of_mem_streamRecords {r : Nat} {t : UInt8} {b : Bytes} {p : FcgiHeader × Bytes}
    (h : p ∈ streamRecords r t b) : p.1.type = t := by
  unfold streamRecords at h
  split at h
  · exact (header_of_mem_packetRecords h).1
  · cases h

/-- The loop of `writePacket` looks at no more than it is told. -/
theorem recordsFrom_take (r : Nat) (t : UInt8) {len : Nat} (content : Bytes) (fuel : Nat) {n : Nat}
    (hn : n ≤ len) :
    recordsFrom r t len content fuel n = recordsFrom r t len (content.take len) fuel n := by
  induction fuel generalizing n with
  | zero => rfl
  | succ fuel ih =>
      have hpiece : ((content.take len).drop n).take (min (len - n) 0xffff) =
          (content.drop n).take (min (len - n) 0xffff) := by
        rw [List.drop_take, List.take_take, Nat.min_eq_left (Nat.min_le_left _ _)]
      rw [recordsFrom, recordsFrom, hpiece, ih (by omega)]

/-- What `writePacket` makes of a buffer are the records of its first bytes,
as many as the narrowed length says. -/
theorem fragments_bufferRecords (r : Nat) (t : UInt8) (b : Bytes) :
    Fragments r t (b.take (asUint b.length)) (bufferRecords r t b) := by
  have hlen : (b.take (asUint b.length)).length = asUint b.length :=
    List.length_take_of_le (Nat.mod_le _ _)
  have hrecords : bufferRecords r t b =
      packetRecords r t (asUint b.length) (b.take (asUint b.length)) :=
    recordsFrom_take r t b _ (Nat.zero_le _)
  have hfragments := fragments_packetRecords r t (b.take (asUint b.length))
  rwa [hlen, ← hrecords] at hfragments

theorem flatMap_streamRecords (r : Nat) (t : UInt8) (b : Bytes) :
    (streamRecords r t b).flatMap Prod.snd = b.take (asUint b.length) := by
  unfold streamRecords
  split
  · exact (fragments_bufferRecords r t b).content_eq
  · next hnil =>
      rw [ne_eq, Decidable.not_not, List.length_eq_zero_iff] at hnil
      rw [hnil]
      rfl

/-- One stream of a reply is written as far as its narrowed length goes, or
the write of it failed. -/
theorem sendStream_content {c : Connection} (hs : c.socket.state ≠ .closed) (r : Nat) (t : UInt8)
    (b : Bytes) :
    ∃ ec c' es, recordSocket.sendStream r t b c = ⟨.ret ec, c', es⟩ ∧
      (ec = false → c'.socket.state ≠ .closed ∧ contentOf t es = b.take (asUint b.length)) ∧
      (ec = true → b ≠ []) ∧ ∀ t', t' ≠ t → contentOf t' es = [] := by
  have hsends := (sendsUntil_sendStream r t b).sends
  have hother : ∀ t', t' ≠ t → contentOf t' (recordSocket.sendStream r t b c).events = [] :=
    fun t' hne => hsends.contentOf_eq_nil hs fun p hp ht =>
      absurd (ht.symm.trans (type_of_mem_streamRecords hp)) hne
  obtain ⟨ec, hec, hrun⟩ | ⟨ec, k, part, hec, hk, _, hrun⟩ := hsends c hs
  · have hec : ec = false := hec
    subst hec
    rw [hrun] at hother
    refine ⟨false, _, _, hrun, fun _ => ⟨hs, ?_⟩, by simp, hother⟩
    rw [contentOf_map_of_type fun p hp => type_of_mem_streamRecords hp]
    exact flatMap_streamRecords r t b
  · have hec : ec = true := hec
    subst hec
    rw [hrun] at hother
    refine ⟨true, _, _, hrun, by simp, ?_, hother⟩
    rintro - rfl
    exact absurd hk (Nat.not_lt_zero k)

/-- The end of a reply writes nothing more of the two streams. -/
theorem sendEnd_content {c : Connection} (hs : c.socket.state ≠ .closed) (r : Nat)
    (appStatus : BitVec 32) {t : UInt8} (ht : t ≠ fcgiEndRequest) :
    contentOf t (recordSocket.sendEnd r appStatus c).events = [] := by
  refine (sendsUntil_sendEnd r appStatus).sends.contentOf_eq_nil hs ?_
  intro p hp heq
  rw [bufferRecords_short r fcgiStdout (by simp), bufferRecords_short r fcgiStderr (by simp)] at hp
  simp only [List.mem_append, List.mem_singleton] at hp
  obtain rfl | rfl | rfl := hp
  · rfl
  · rfl
  · exact absurd heq.symm ht

/-- **What `sendReply` has written of a buffer that it consumed**: the first
bytes, as many as the narrowed length says. -/
theorem sendReply_content {c : Connection} (hs : c.socket.state ≠ .closed) {r : Nat}
    {out err : Bytes} {appStatus : BitVec 32} {reply : Reply}
    (h : (recordSocket.sendReply r out err appStatus c).exit = .ret reply) :
    (reply.outBuffer = [] →
      contentOf fcgiStdout (recordSocket.sendReply r out err appStatus c).events =
        out.take (asUint out.length)) ∧
    (reply.errBuffer = [] →
      contentOf fcgiStderr (recordSocket.sendReply r out err appStatus c).events =
        err.take (asUint err.length)) := by
  have hne : fcgiStderr ≠ fcgiStdout := by decide
  obtain ⟨ec, c₁, es₁, hrun₁, hok₁, hfail₁, hother₁⟩ :=
    sendStream_content hs r fcgiStdout out
  rw [sendReply, Act.bind_of_ret hrun₁] at h ⊢
  cases ec with
  | true =>
      simp only [if_true, Act.pure_run, Outcome.after_mk, Exit.ret.injEq, List.append_nil] at h ⊢
      subst h
      refine ⟨fun hnil => absurd hnil (hfail₁ rfl), fun hnil => ?_⟩
      have hnil : err = [] := hnil
      rw [hother₁ _ hne, hnil, List.take_nil]
  | false =>
      obtain ⟨hs₁, hcontent₁⟩ := hok₁ rfl
      obtain ⟨ec, c₂, es₂, hrun₂, hok₂, hfail₂, hother₂⟩ :=
        sendStream_content hs₁ r fcgiStderr err
      simp only [Bool.false_eq_true, if_false, Act.bind_of_ret hrun₂, Outcome.after_after,
        Outcome.exit_after, Outcome.events_after, contentOf_append, hcontent₁, hother₁ _ hne,
        hother₂ _ hne.symm, List.append_nil, List.nil_append] at h ⊢
      cases ec with
      | true =>
          simp only [if_true, Act.pure_run, Exit.ret.injEq, contentOf_nil, List.append_nil] at h ⊢
          subst h
          exact ⟨fun _ => trivial, fun hnil => absurd hnil (hfail₂ rfl)⟩
      | false =>
          obtain ⟨hs₂, hcontent₂⟩ := hok₂ rfl
          have hend : ∀ t : UInt8, t ≠ fcgiEndRequest →
              contentOf t ((recordSocket.sendEnd r appStatus >>= fun ec =>
                (pure ⟨ec, out.drop out.length, err.drop err.length⟩ :
                  Act Event Connection Reply)) c₂).events = [] := by
            intro t ht
            have hquiet := sendEnd_content hs₂ r appStatus ht
            rcases hrun₃ : recordSocket.sendEnd r appStatus c₂ with ⟨exit, c₃, es₃⟩
            rw [hrun₃] at hquiet
            cases exit with
            | ret ec => simpa [Act.bind_of_ret hrun₃] using hquiet
            | throw w => simpa [Act.bind_of_throw hrun₃] using hquiet
            | abort w => simpa [Act.bind_of_abort hrun₃] using hquiet
          simp only [Bool.false_eq_true, if_false, hend fcgiStdout (by decide),
            hend fcgiStderr (by decide), hcontent₂, List.append_nil]
          exact ⟨fun _ => trivial, fun _ => trivial⟩

/-- Lengths are kept exactly by the buffers that fit. -/
theorem keepsLengths_iff (r : Nat) (d : RequestData) : KeepsLengths r d ↔ d.FitsUint := by
  constructor
  · intro h
    exact ⟨asUint_eq_iff.mp h.params_length, asUint_eq_iff.mp h.out_length,
      asUint_eq_iff.mp h.err_length⟩
  · intro h
    have hparams := asUint_eq_iff.mpr h.params
    have hout := asUint_eq_iff.mpr h.out
    have herr := asUint_eq_iff.mpr h.err
    refine ⟨hparams, hout, herr, by rw [d.parseFCGIParams_passes, hparams], ?_, ?_⟩
    · intro c reply hs hret hnil
      rw [(sendReply_content hs hret).1 hnil, hout, List.take_length]
    · intro c reply hs hret hnil
      rw [(sendReply_content hs hret).2 hnil, herr, List.take_length]

/-! ## What grows a buffer -/

/-- Every buffer of every request of the connection fits. -/
def ConnectionData.FitsUint (d : ConnectionData) : Prop :=
  ∀ (r : Nat) (e : Entry), d.requestMap[r]? = some e → e.data.FitsUint

namespace ConnectionData

variable {d : ConnectionData}

theorem fitsUint_clear : d.clear.FitsUint := by
  intro r e he
  simp at he

theorem FitsUint.erase (h : d.FitsUint) (r : Nat) : (d.erase r).FitsUint := by
  intro r' e he
  rw [getElem?_erase] at he
  split at he
  · cases he
  · exact h r' e he

theorem FitsUint.insertNew (h : d.FitsUint) (r : Nat) : (d.insertNew r).FitsUint := by
  intro r' e he
  rw [getElem?_insertNew] at he
  split at he
  · cases he
    exact ⟨by simp [RequestData.new], by simp [RequestData.new], by simp [RequestData.new]⟩
  · exact h r' e he

/-- After a change of one entry it is the changed one that decides. -/
theorem FitsUint.modifyEntry_iff (h : d.FitsUint) {r : Nat} {e : Entry}
    (he : d.requestMap[r]? = some e)
    (f : RequestState → RequestData → RequestState × RequestData) :
    (d.modifyEntry r f).FitsUint ↔ (f e.state e.data).2.FitsUint := by
  have hget := d.getElem?_modifyEntry r
  constructor
  · intro hfits
    refine hfits r ⟨(f e.state e.data).1, e.ptr, (f e.state e.data).2⟩ ?_
    rw [hget, if_pos rfl, he]
    rfl
  · intro hfits r' e' he'
    rw [hget] at he'
    split at he'
    · rw [he] at he'
      cases he'
      exact hfits
    · exact h r' e' he'

end ConnectionData

/-- A stdin packet grows none of the three buffers. -/
theorem fitsUint_receiveStdin {d : RequestData} (h : d.FitsUint) (content : Bytes)
    (state : RequestState) : (ConnectionData.receiveStdin content state d).2.FitsUint := by
  unfold ConnectionData.receiveStdin
  split
  · exact h
  · exact ⟨h.params, h.out, h.err⟩

/-- A params packet grows the params buffer. -/
theorem fitsUint_receiveParams_iff {d : RequestData} (h : d.FitsUint) (content : Bytes)
    (state : RequestState) :
    (ConnectionData.receiveParams content state d).2.FitsUint ↔
      d.paramsBuffer.length + content.length < 2 ^ 32 := by
  unfold ConnectionData.receiveParams
  split
  · next hnil =>
      rw [hnil, Nat.add_zero]
      exact ⟨fun _ => h.params, fun _ => ⟨h.params, h.out, h.err⟩⟩
  · rw [← List.length_append]
    exact ⟨fun hfits => hfits.params, fun hlt => ⟨hlt, h.out, h.err⟩⟩

/-- What a user writes still fits behind what is in the buffer. -/
def UserEdit.StaysBelow : UserEdit → RequestData → Prop
  | .out bs, d => d.outBuffer.length + bs.length < 2 ^ 32
  | .err bs, d => d.errBuffer.length + bs.length < 2 ^ 32
  | .cancelBuffers, d => d.errBuffer.length + cancelText.length < 2 ^ 32
  | .setAppStatus _, _ => True
  | .fcgiParams _, _ => True

theorem fitsUint_apply_iff {d : RequestData} (h : d.FitsUint) (change : UserEdit) :
    (change.apply d).FitsUint ↔ change.StaysBelow d := by
  cases change with
  | out bs =>
      rw [UserEdit.StaysBelow, ← List.length_append]
      exact ⟨fun hfits => hfits.out, fun hlt => ⟨h.params, hlt, h.err⟩⟩
  | err bs =>
      rw [UserEdit.StaysBelow, ← List.length_append]
      exact ⟨fun hfits => hfits.err, fun hlt => ⟨h.params, h.out, hlt⟩⟩
  | setAppStatus status => exact ⟨fun _ => trivial, fun _ => ⟨h.params, h.out, h.err⟩⟩
  | fcgiParams params => exact ⟨fun _ => trivial, fun _ => ⟨h.params, h.out, h.err⟩⟩
  | cancelBuffers =>
      rw [UserEdit.StaysBelow, ← List.length_append]
      refine ⟨fun hfits => hfits.err, fun hlt => ⟨h.params, ?_, hlt⟩⟩
      simp [UserEdit.apply]

/-- The same for the params that a packet brings: it is appended to an entry
whose params are still open. -/
def ParamsStayBelow (d : ConnectionData) (r : Nat) (t : UInt8) (content : Bytes) : Prop :=
  t = fcgiParams → ∀ e, d.requestMap[r]? = some e → e.state &&& paramsCompleted = 0 →
    e.data.paramsBuffer.length + content.length < 2 ^ 32

theorem ParamsStayBelow.of_ne {d : ConnectionData} {r : Nat} {t : UInt8} {content : Bytes}
    (ht : t ≠ fcgiParams) : ParamsStayBelow d r t content :=
  fun heq => absurd heq ht

/-- A packet that is rejected is appended nowhere. -/
theorem Connection.Rejects.paramsStayBelow {d : ConnectionData} {r : Nat} {t : UInt8}
    {content : Bytes} (h : Rejects d r t content) : ParamsStayBelow d r t content := by
  cases h with
  | shortBegin ht => exact .of_ne (by rw [ht]; decide)
  | idInUse hb => exact .of_ne (by rw [hb.1]; decide)
  | streamUnknown _ hnone =>
      intro _ e he
      rw [hnone] at he
      cases he
  | stdinClosed ht => exact .of_ne (by rw [ht]; decide)
  | paramsClosed _ he hbit =>
      intro _ e' he' hopen
      rw [he] at he'
      cases he'
      exact absurd hopen hbit
  | data ht => exact .of_ne (by rw [ht]; decide)

theorem Connection.Answer.type_ne_params {r r' : Nat} {t t' : UInt8} {content body : Bytes}
    (h : Answer r t content r' t' body) : t ≠ fcgiParams := by
  cases h with
  | getValues ht => rw [ht]; decide
  | unknownRole ht => rw [ht]; decide
  | unknownType ht =>
      rintro rfl
      exact ht (by simp)

/-- A packet for an open stream keeps the buffers below the bound exactly when
the params it brings stay below it. -/
theorem Connection.Receives.fitsUint_iff {d : ConnectionData} (hd : d.FitsUint) {r : Nat}
    {t : UInt8} {content : Bytes} {e : Entry}
    {f : RequestState → RequestData → RequestState × RequestData} (h : Receives t content e f)
    (he : d.requestMap[r]? = some e) :
    (d.modifyEntry r f).FitsUint ↔ ParamsStayBelow d r t content := by
  rw [hd.modifyEntry_iff he]
  cases h with
  | stdin ht =>
      have hne : t ≠ fcgiParams := by rw [ht]; decide
      exact ⟨fun _ => .of_ne hne, fun _ => fitsUint_receiveStdin (hd r e he) content e.state⟩
  | params ht hbit =>
      rw [fitsUint_receiveParams_iff (hd r e he)]
      constructor
      · intro hlt _ e' he' _
        rw [he] at he'
        cases he'
        exact hlt
      · intro hbelow
        exact hbelow ht e he hbit

theorem Connection.PacketEffect.fitsUint_iff {c : Connection} (hd : c.data.FitsUint) {r : Nat}
    {t : UInt8} {content : Bytes} {o : Outcome Event Connection Unit}
    (h : PacketEffect c r t content o) (hlive : ∀ w, o.exit ≠ .abort w) :
    o.state.data.FitsUint ↔ ParamsStayBelow c.data r t content := by
  cases h with
  | rejected hr => exact ⟨fun _ => hr.paramsStayBelow, fun _ => hd⟩
  | answered ha => exact ⟨fun _ => .of_ne ha.type_ne_params, fun _ => hd⟩
  | answerFailed ha =>
      exact ⟨fun _ => .of_ne ha.type_ne_params, fun _ => ConnectionData.fitsUint_clear⟩
  | began hb => exact ⟨fun _ => .of_ne (by rw [hb.1]; decide), fun _ => hd.insertNew r⟩
  | beganLast hb => exact ⟨fun _ => .of_ne (by rw [hb.1]; decide), fun _ => hd.insertNew r⟩
  | abortUnknown ht => exact ⟨fun _ => .of_ne (by rw [ht]; decide), fun _ => hd⟩
  | aborted ht => exact ⟨fun _ => .of_ne (by rw [ht]; decide), fun _ => hd.erase r⟩
  | abortedLast ht =>
      exact ⟨fun _ => .of_ne (by rw [ht]; decide), fun _ => ConnectionData.fitsUint_clear⟩
  | abortFailed ht =>
      exact ⟨fun _ => .of_ne (by rw [ht]; decide), fun _ => ConnectionData.fitsUint_clear⟩
  | received hf he => exact hf.fitsUint_iff hd he
  | receivedReady hf he => exact hf.fitsUint_iff hd he
  | died => exact absurd rfl (hlive _)

theorem Connection.CommitEffect.fitsUint {c c' : Connection} (hd : c.data.FitsUint) {r ptr : Nat}
    {es : List Event} (h : CommitEffect c r ptr ⟨.ret (), c', es⟩) : c'.data.FitsUint := by
  cases h with
  | stale => exact hd
  | replied => exact hd.erase r
  | repliedLast => exact ConnectionData.fitsUint_clear
  | replyFailed => exact ConnectionData.fitsUint_clear

/-- A buffer has one next record at most. -/
theorem Connection.NextRecord.unique {b : Bytes} {h h' : FcgiHeader} {content content' : Bytes}
    (hn : NextRecord b h content) (hn' : NextRecord b h' content') :
    h = h' ∧ content = content' := by
  obtain rfl := hn.cast_eq.symm.trans hn'.cast_eq
  exact ⟨rfl, hn.content_eq.symm.trans hn'.content_eq⟩

/-- What the next record, when it is a whole one, appends stays below 2^32 bytes. -/
def NextStaysBelow (c : Connection) : Prop :=
  ∀ header content, NextRecord c.socket.inputBuffer header content →
    ParamsStayBelow c.data header.requestId header.type content

theorem Connection.PassEffect.fitsUint_iff {c c' : Connection} (hd : c.data.FitsUint)
    {again : Bool} {es : List Event} (h : PassEffect c ⟨.ret again, c', es⟩) :
    c'.data.FitsUint ↔ NextStaysBelow c := by
  have hone : ∀ {header content}, NextRecord c.socket.inputBuffer header content →
      (NextStaysBelow c ↔ ParamsStayBelow c.data header.requestId header.type content) := by
    intro header content hn
    refine ⟨fun hbelow => hbelow _ _ hn, fun hbelow header' content' hn' => ?_⟩
    obtain ⟨rfl, rfl⟩ := hn.unique hn'
    exact hbelow
  cases h with
  | drained hlen =>
      exact ⟨fun _ _ _ hn => absurd hn.header_le (Nat.not_le.mpr hlen), fun _ => hd⟩
  | unsupported _ hcast hv =>
      refine ⟨fun _ _ _ hn => ?_, fun _ => hd⟩
      rw [hn.cast_eq.symm.trans hcast] at hn
      exact absurd hn.version_eq hv
  | incomplete _ hcast _ hlt =>
      refine ⟨fun _ _ _ hn => ?_, fun _ => hd⟩
      rw [hn.cast_eq.symm.trans hcast] at hn
      exact absurd hn.record_le (Nat.not_le.mpr hlt)
  | handled hn h =>
      rw [hone hn]
      exact h.fitsUint_iff hd (by simp)
  | caught hn h =>
      rw [hone hn]
      exact h.fitsUint_iff hd (by simp)

namespace Strand

/-- No length of any request of the connection is lost. -/
def KeepsLengths (s : Strand) : Prop :=
  ∀ (r : Nat) (e : Entry), s.connection.data.requestMap[r]? = some e →
    Santiago.KeepsLengths r e.data

/-- What the step appends to a buffer stays below 2^32 bytes: the content of
a PARAMS record that is next in the input, or what a user writes. -/
def StaysBelow (s : Strand) : Step → Prop
  | .nextPacket => NextStaysBelow s.connection
  | .edit r ptr change => ∀ e, s.connection.data.requestMap[r]? = some e → e.ptr = ptr →
      change.StaysBelow e.data
  | .handleRead _ _ => True
  | .runTask => True
  | .commitReply _ _ => True

theorem keepsLengths_iff (s : Strand) : s.KeepsLengths ↔ s.connection.data.FitsUint :=
  forall₃_congr fun r e _ => Santiago.keepsLengths_iff r e.data

/-- **One step** keeps all lengths exactly when what it appends stays below
the bound. -/
theorem Moves.fitsUint_iff {s s' : Strand} {l : Step} {es : List Event} (h : Moves s l s' es)
    (hd : s.connection.data.FitsUint) : s'.connection.data.FitsUint ↔ s.StaysBelow l := by
  cases h with
  | readClosed => exact iff_of_true hd trivial
  | readFailed => exact iff_of_true ConnectionData.fitsUint_clear trivial
  | readBytes => exact iff_of_true hd trivial
  | pass h => exact h.fitsUint_iff hd
  | flush => exact iff_of_true hd trivial
  | @commit _ _ rest _ _ _ h =>
      have hfits := Connection.CommitEffect.fitsUint (c := withStrand s.connection rest) hd h
      exact iff_of_true hfits trivial
  | commitReply => exact iff_of_true hd trivial
  | @edit r ptr change =>
      dsimp only
      unfold ConnectionData.edit
      split
      · next hvalid =>
          obtain ⟨e, he, hptr⟩ := ConnectionData.isValidRequest_iff.mp hvalid
          rw [hd.modifyEntry_iff he, fitsUint_apply_iff (hd r e he)]
          constructor
          · intro hbelow e' he' _
            rw [he] at he'
            cases he'
            exact hbelow
          · intro hbelow
            exact hbelow e he hptr
      · next hvalid =>
          refine iff_of_true hd fun e he hptr => ?_
          exact absurd (ConnectionData.isValidRequest_iff.mpr ⟨e, he, hptr⟩) hvalid

theorem fitsUint_init (fs : List (Option Nat)) (u : Nat → BitVec 32) :
    (init fs u).connection.data.FitsUint := by
  intro r e he
  have hdata : (init fs u).connection.data = ConnectionData.init u := rfl
  simp [hdata] at he

end Strand

/-- **Lengths.**  A run keeps every length of every request, in every state it
reaches, exactly when no step of it takes a params or output buffer to 2^32
bytes. -/
theorem lengths_kept_iff {fs : List (Option Nat)} {u : Nat → BitVec 32}
    {tr : List (Fired Strand Strand.Step)} {s : Strand}
    (h : Strand.machine.Run (Strand.init fs u) tr s) :
    ((∀ f ∈ tr, f.pre.KeepsLengths) ∧ s.KeepsLengths) ↔
      ∀ f ∈ tr, f.pre.StaysBelow f.label := by
  refine Machine.Run.forall_iff Strand.StaysBelow Strand.KeepsLengths ?_ ?_ h
  · exact (Strand.keepsLengths_iff _).mpr (Strand.fitsUint_init fs u)
  · intro tr s l hrun hkeeps he hv
    rw [Strand.keepsLengths_iff] at hkeeps ⊢
    exact (Strand.moves (Strand.wf_of_run hrun) he hv).fitsUint_iff hkeeps

/-! ## Runs that reach the bound -/

namespace Strand

/-- A record's content has a 16-bit length. -/
theorem length_content_lt {b content : Bytes} {h : FcgiHeader} (hn : NextRecord b h content) :
    content.length < 65536 := by
  have htake : content.length ≤ h.contentLength := by
    rw [← hn.content_eq]
    exact List.length_take_le _ _
  exact Nat.lt_of_le_of_lt htake (two_octets_lt _ _)

/-- A read that brings a request with empty streams, and its three records. -/
def emptyRequest : List Step :=
  [.handleRead false ([1, 1, 0, 1, 0, 8, 0, 0, 0, 1, 1, 0, 0, 0, 0, 0] ++
    [1, 4, 0, 1, 0, 0, 0, 0, 1, 5, 0, 1, 0, 0, 0, 0]), .nextPacket, .nextPacket, .nextPacket]

/-- The request is complete, and nothing was appended to any of its buffers. -/
theorem exists_run_emptyRequest : ∃ tr s, machine.Run (init [] fun _ => 0) tr s ∧
    (∀ f ∈ tr, f.pre.StaysBelow f.label) ∧
    ∃ e, s.connection.data.requestMap[1]? = some e ∧ e.ptr = 0 ∧ e.ready = true ∧
      e.data.outBuffer = [] := by
  obtain ⟨tr, s, hrun, hlabels, hends⟩ := Machine.exists_run_along machine (init [] fun _ => 0)
    emptyRequest (fun tr s => (tr.all fun f => f.pre.connection.data.requestMap.toList.all fun p =>
        p.2.data.paramsBuffer = []) &&
      s.connection.data.requestMap[1]?.any fun e =>
        e.ptr = 0 && (e.ready && e.data.outBuffer = [])) (by decide)
  rw [Bool.and_eq_true, List.all_eq_true, Option.any_eq_true] at hends
  obtain ⟨hempty, e, he, hready⟩ := hends
  simp only [Bool.and_eq_true, decide_eq_true_eq] at hready
  refine ⟨tr, s, hrun, fun f hf => ?_, e, he, hready⟩
  have hlabel : f.label ∈ emptyRequest := by
    rw [← hlabels]
    exact List.mem_map_of_mem hf
  have hpass : NextStaysBelow f.pre.connection := by
    intro header content hn _ e he _
    have hmem := List.all_eq_true.mp (hempty f hf) (header.requestId, e)
      (ExtTreeMap.mem_toList_iff_getElem?_eq_some.mpr he)
    have hlt := length_content_lt hn
    rw [of_decide_eq_true hmem, List.length_nil]
    omega
  simp only [emptyRequest, List.mem_cons, List.not_mem_nil, or_false] at hlabel
  obtain hl | hl | hl | hl := hlabel
  · rw [hl]
    trivial
  all_goals
    rw [hl]
    exact hpass

/-- The user of that request writes `bs`. -/
theorem exists_run_written (bs : Bytes) : ∃ tr s, machine.Run (init [] fun _ => 0) tr s ∧
    (bs.length < 2 ^ 32 → ∀ f ∈ tr, f.pre.StaysBelow f.label) ∧
    ∃ e, s.connection.data.requestMap[1]? = some e ∧ e.ready = true ∧
      e.data.outBuffer = bs := by
  obtain ⟨tr, s, hrun, hbelow, e, he, hptr, hready, hout⟩ := exists_run_emptyRequest
  have hvalid : s.connection.data.isValidRequest 1 0 = true :=
    ConnectionData.isValidRequest_iff.mpr ⟨e, he, hptr⟩
  have hdata : (machine.act (.edit 1 0 (.out bs)) s).state.connection.data =
      s.connection.data.edit 1 0 (.out bs) := rfl
  refine ⟨_, _, hrun.step (l := .edit 1 0 (.out bs)) rfl rfl, fun hlen => ?_, ?_⟩
  · rw [List.forall_mem_append, List.forall_mem_singleton]
    refine ⟨hbelow, fun e' he' _ => ?_⟩
    rw [he] at he'
    cases he'
    simpa [UserEdit.StaysBelow, hout] using hlen
  · refine ⟨⟨e.state, e.ptr, UserEdit.apply (.out bs) e.data⟩, ?_, hready, ?_⟩
    · rw [hdata, ConnectionData.edit, if_pos hvalid, ConnectionData.getElem?_modifyEntry,
        if_pos rfl, he]
      rfl
    · simp [UserEdit.apply, hout]

end Strand

/-- Two bytes of output. -/
theorem lengths_kept_iff_written : ∃ tr s,
    Strand.machine.Run (Strand.init [] fun _ => 0) tr s ∧ s.KeepsLengths ∧
    ∃ e, s.connection.data.requestMap[1]? = some e ∧ e.ready = true ∧
      e.data.outBuffer = [72, 105] := by
  obtain ⟨tr, s, hrun, hbelow, hentry⟩ := Strand.exists_run_written [72, 105]
  exact ⟨tr, s, hrun, ((lengths_kept_iff hrun).mpr (hbelow (by decide))).2, hentry⟩

/-- 2^32 bytes of output: `writePacket` is told that there are none. -/
theorem lengths_lost : ¬ ∀ fs u tr s, Strand.machine.Run (Strand.init fs u) tr s →
    s.KeepsLengths := by
  intro h
  obtain ⟨tr, s, hrun, _, e, he, _, hout⟩ :=
    Strand.exists_run_written (List.replicate (2 ^ 32) 0)
  have hlength := asUint_eq_iff.mp (h _ _ tr s hrun 1 e he).out_length
  rw [hout, List.length_replicate] at hlength
  exact absurd hlength (Nat.lt_irrefl _)

end Santiago
