import Santiago.Framing

/-!
# Santiago.Reassembly

From packets to requests.  The packets of one request id build up one entry
of the request map, whatever the packets between them do to other ids; the
entry becomes ready with the second of the two empty packets, and then holds
the peer's stdin and the peer's parameters.
-/

namespace Santiago

open Effect Bytes PacketSocket Connection

/-! ## The records of a request -/

/-- A byte string cut into the records of one stream, which an empty one closes. -/
inductive StreamRecords : Bytes → List WireRecord → Prop
  | close {last : WireRecord} : last.content = [] → StreamRecords [] [last]
  | cons {rec : WireRecord} {recs : List WireRecord} {bytes : Bytes} : rec.content ≠ [] →
      StreamRecords bytes recs → StreamRecords (rec.content ++ bytes) (rec :: recs)

/-- The records of a stream among some records. -/
def ofType (t : UInt8) (recs : List WireRecord) : List WireRecord :=
  recs.filter fun rec => rec.type = t

/-- A request: how it begins, and the records of its two streams. -/
structure RequestRecords (pairs : List (Bytes × Bytes)) (stdin : Bytes) (begin : WireRecord)
    (body : List WireRecord) : Prop where
  begins : BeginsRequest begin.type begin.content
  streams : ∀ rec ∈ body, rec.type = fcgiParams ∨ rec.type = fcgiStdin
  params : ∃ bytes, PairsForm pairs bytes ∧ bytes.length < 2 ^ 32 ∧
    StreamRecords bytes (ofType fcgiParams body)
  stdin : StreamRecords stdin (ofType fcgiStdin body)

/-- A record that can change the entry of the id `r`. -/
def addresses (r : Nat) (rec : WireRecord) : Bool :=
  rec.requestId = r &&
    (rec.type = fcgiBeginRequest || rec.type = fcgiAbortRequest || rec.type = fcgiParams ||
      rec.type = fcgiStdin)

/-- An empty stream record of the id `r`. -/
def Closes (r : Nat) (rec : WireRecord) : Prop :=
  rec.requestId = r ∧ (rec.type = fcgiParams ∨ rec.type = fcgiStdin) ∧ rec.content = []

theorem StreamRecords.ne_nil_of_append {bytes : Bytes} {xs ys : List WireRecord} {y : WireRecord}
    (h : StreamRecords bytes (xs ++ y :: ys)) : ∀ x ∈ xs, x.content ≠ [] := by
  induction xs generalizing bytes with
  | nil => nofun
  | cons x xs ih =>
      generalize hrecs : x :: xs ++ y :: ys = recs at h
      cases h with
      | close => simp at hrecs
      | cons hne h =>
          obtain ⟨rfl, rfl⟩ := List.cons.inj hrecs
          intro z hz
          cases hz with
          | head => exact hne
          | tail _ hz => exact ih h z hz

theorem StreamRecords.last_eq_nil {bytes : Bytes} {xs : List WireRecord} {y : WireRecord}
    (h : StreamRecords bytes (xs ++ [y])) : y.content = [] := by
  induction xs generalizing bytes with
  | nil =>
      generalize hrecs : [] ++ [y] = recs at h
      cases h with
      | close hlast =>
          obtain rfl := List.singleton_inj.mp hrecs
          exact hlast
      | cons hne h =>
          obtain ⟨rfl, rfl⟩ := List.cons.inj hrecs
          cases h
  | cons x xs ih =>
      generalize hrecs : x :: xs ++ [y] = recs at h
      cases h with
      | close => simp at hrecs
      | cons hne h =>
          obtain ⟨rfl, rfl⟩ := List.cons.inj hrecs
          exact ih h

theorem StreamRecords.flatMap_content {bytes : Bytes} {recs : List WireRecord}
    (h : StreamRecords bytes recs) : recs.flatMap WireRecord.content = bytes := by
  induction h with
  | close hlast => simp [hlast]
  | cons hne _ ih => rw [List.flatMap_cons, ih]

theorem StreamRecords.exists_empty {bytes : Bytes} {recs : List WireRecord}
    (h : StreamRecords bytes recs) : ∃ rec ∈ recs, rec.content = [] := by
  induction h with
  | close hlast => exact ⟨_, List.mem_cons_self, hlast⟩
  | cons _ _ ih =>
      obtain ⟨rec, hmem, hrec⟩ := ih
      exact ⟨rec, List.mem_cons_of_mem _ hmem, hrec⟩

/-! ## The entry they build -/

/-- A stream was closed by one of the records. -/
def closedBy (t : UInt8) (recs : List WireRecord) : Bool :=
  (ofType t recs).any fun rec => rec.content.isEmpty

/-- What the records brought of a stream. -/
def contents (t : UInt8) (recs : List WireRecord) : Bytes :=
  (ofType t recs).flatMap WireRecord.content

/-- The entry after the stream records `recs`. -/
def entryAfter (ptr : Nat) (appStatus : BitVec 32) (recs : List WireRecord) : Entry where
  state := (if closedBy fcgiStdin recs then inCompleted else 0) |||
    (if closedBy fcgiParams recs then paramsCompleted else 0)
  ptr := ptr
  data := { RequestData.new appStatus with
    in_ := contents fcgiStdin recs
    paramsBuffer := contents fcgiParams recs
    paramsMap :=
      if closedBy fcgiParams recs then
        parsePairs (contents fcgiParams recs) ((contents fcgiParams recs).length % 2 ^ 32) ∅
      else ∅ }

/-- What one stream record does to an entry. -/
def Entry.receive (e : Entry) (t : UInt8) (content : Bytes) : Entry :=
  if t = fcgiStdin then
    ⟨(ConnectionData.receiveStdin content e.state e.data).1, e.ptr,
      (ConnectionData.receiveStdin content e.state e.data).2⟩
  else
    ⟨(ConnectionData.receiveParams content e.state e.data).1, e.ptr,
      (ConnectionData.receiveParams content e.state e.data).2⟩

/-- The stream is still open. -/
def Entry.Accepts (e : Entry) (t : UInt8) : Prop :=
  if t = fcgiStdin then e.state &&& inCompleted = 0 else e.state &&& paramsCompleted = 0

section EntryAfter

variable {ptr : Nat} {appStatus : BitVec 32} {done : List WireRecord} {rec : WireRecord}

theorem closedBy_append (t : UInt8) (done : List WireRecord) (rec : WireRecord) :
    closedBy t (done ++ [rec]) = (closedBy t done || (rec.type == t && rec.content.isEmpty)) := by
  unfold closedBy ofType
  by_cases h : rec.type = t <;> simp [List.filter_append, h]

theorem contents_append (t : UInt8) (done : List WireRecord) (rec : WireRecord) :
    contents t (done ++ [rec]) = contents t done ++ if rec.type = t then rec.content else [] := by
  unfold contents ofType
  by_cases h : rec.type = t <;> simp [List.filter_append, h]

theorem entryAfter_nil :
    entryAfter ptr appStatus [] = ⟨0, ptr, RequestData.new appStatus⟩ := rfl

theorem accepts_entryAfter {t : UInt8} (h : closedBy t done = false)
    (ht : t = fcgiParams ∨ t = fcgiStdin) : (entryAfter ptr appStatus done).Accepts t := by
  obtain rfl | rfl := ht
  · rw [Entry.Accepts, if_neg (by decide)]
    simp only [entryAfter, h, Bool.false_eq_true, if_false]
    split <;> decide
  · rw [Entry.Accepts, if_pos rfl]
    simp only [entryAfter, h, Bool.false_eq_true, if_false]
    split <;> decide

theorem ready_entryAfter :
    (entryAfter ptr appStatus done).ready =
      (closedBy fcgiParams done && closedBy fcgiStdin done) := by
  cases hp : closedBy fcgiParams done <;> cases hs : closedBy fcgiStdin done <;>
    simp only [Entry.ready, entryAfter, hp, hs, if_true, Bool.false_eq_true, if_false] <;> decide

/-- A record of a stream that is still open is put behind the earlier ones. -/
theorem receive_entryAfter (h : closedBy rec.type done = false)
    (ht : rec.type = fcgiParams ∨ rec.type = fcgiStdin) :
    (entryAfter ptr appStatus done).receive rec.type rec.content =
      entryAfter ptr appStatus (done ++ [rec]) := by
  have hps : fcgiParams ≠ fcgiStdin := by decide
  have hsp : fcgiStdin ≠ fcgiParams := by decide
  obtain ht | ht := ht
  · rw [ht] at h
    have hin : closedBy fcgiStdin (done ++ [rec]) = closedBy fcgiStdin done := by
      simp [closedBy_append, ht, hps]
    have hinBytes : contents fcgiStdin (done ++ [rec]) = contents fcgiStdin done := by
      simp [contents_append, ht, hps]
    have hparams : closedBy fcgiParams (done ++ [rec]) = rec.content.isEmpty := by
      simp [closedBy_append, ht, h]
    have hparamsBytes : contents fcgiParams (done ++ [rec]) =
        contents fcgiParams done ++ rec.content := by
      simp [contents_append, ht]
    rw [Entry.receive, if_neg (ht ▸ hps), entryAfter, entryAfter, hin, hinBytes, hparams,
      hparamsBytes, h]
    cases hcontent : rec.content with
    | nil =>
        simp [ConnectionData.receiveParams, RequestData.parseFCGIParams, RequestData.new]
    | cons b bs =>
        simp [ConnectionData.receiveParams]
  · rw [ht] at h
    have hin : closedBy fcgiStdin (done ++ [rec]) = rec.content.isEmpty := by
      simp [closedBy_append, ht, h]
    have hinBytes : contents fcgiStdin (done ++ [rec]) =
        contents fcgiStdin done ++ rec.content := by
      simp [contents_append, ht]
    have hparams : closedBy fcgiParams (done ++ [rec]) = closedBy fcgiParams done := by
      simp [closedBy_append, ht, hsp]
    have hparamsBytes : contents fcgiParams (done ++ [rec]) = contents fcgiParams done := by
      simp [contents_append, ht, hsp]
    rw [Entry.receive, if_pos ht, entryAfter, entryAfter, hin, hinBytes, hparams,
      hparamsBytes, h]
    cases hcontent : rec.content with
    | nil =>
        simp only [ConnectionData.receiveStdin, List.length_nil, if_true, List.append_nil,
          Bool.false_eq_true, if_false, List.isEmpty_nil, UInt8.zero_or, UInt8.or_comm]
    | cons b bs =>
        simp [ConnectionData.receiveStdin]

end EntryAfter

/-! ## What a packet does to one id -/

section Packets

variable {c c' : Connection} {r r' : Nat} {t : UInt8} {content : Bytes} {x : Exit Unit}
  {es : List Event}

/-- A packet that is not for this entry leaves it alone. -/
theorem Connection.PacketEffect.other (h : PacketEffect c r' t content ⟨x, c', es⟩)
    (hc' : c'.state ≠ .closed)
    (hne : r' = r → t ∉ [fcgiBeginRequest, fcgiAbortRequest, fcgiParams, fcgiStdin]) :
    c'.data.requestMap[r]? = c.data.requestMap[r]? ∧ ∀ ptr d, .requestReady r ptr d ∉ es := by
  have hid : ∀ {t' : UInt8}, t = t' →
      t' ∈ [fcgiBeginRequest, fcgiAbortRequest, fcgiParams, fcgiStdin] → r' ≠ r := by
    rintro t' rfl ht heq
    exact hne heq ht
  have hreceives : ∀ {e : Entry}
      {f : RequestState → RequestData → RequestState × RequestData},
      Receives t content e f → r' ≠ r := by
    rintro e f (⟨ht, _⟩ | ⟨ht, _⟩)
    · exact hid ht (by decide)
    · exact hid ht (by decide)
  cases h with
  | rejected => exact ⟨rfl, nofun⟩
  | answered => exact ⟨rfl, by simp [wroteEvent]⟩
  | answerFailed => exact absurd rfl hc'
  | began hb =>
      have hr := hid hb.1 (by decide)
      exact ⟨by simp [ConnectionData.getElem?_insertNew, hr], by simp⟩
  | beganLast hb =>
      have hr := hid hb.1 (by decide)
      exact ⟨by simp [ConnectionData.getElem?_insertNew, hr], by simp⟩
  | abortUnknown => exact ⟨rfl, by simp [wroteEvent]⟩
  | aborted ht =>
      have hr := hid ht (by decide)
      exact ⟨by simp [ConnectionData.getElem?_erase, hr], by simp [wroteEvent]⟩
  | abortedLast => exact absurd rfl hc'
  | abortFailed => exact absurd rfl hc'
  | received hf =>
      have hr := hreceives hf
      exact ⟨by simp [ConnectionData.getElem?_modifyEntry, hr], nofun⟩
  | receivedReady hf =>
      have hr := hreceives hf
      refine ⟨by simp [ConnectionData.getElem?_modifyEntry, hr], fun ptr d hmem => ?_⟩
      simp only [List.mem_singleton, Event.requestReady.injEq] at hmem
      exact hr hmem.1.symm
  | died _ hclosed => exact absurd hclosed hc'

/-- A begin-request that is accepted stores a new entry. -/
theorem Connection.PacketEffect.begins (h : PacketEffect c r t content ⟨x, c', es⟩)
    (hc' : c'.state ≠ .closed) (hb : BeginsRequest t content)
    (hfree : c.data.requestMap[r]? = none) :
    c'.data.requestMap[r]? =
        some (entryAfter c.data.nextPtr (c.data.uninitialized c.data.nextPtr) []) ∧
      ∀ ptr d, .requestReady r ptr d ∉ es := by
  obtain ⟨rfl, hlen, hrole⟩ := hb
  cases h with
  | rejected h =>
      exfalso
      cases h with
      | shortBegin _ hlt => exact absurd hlen (Nat.not_le.mpr hlt)
      | idInUse _ hsome => exact hsome hfree
      | streamUnknown ht => rcases ht with ht | ht <;> cases ht
      | stdinClosed ht => cases ht
      | paramsClosed ht => cases ht
      | data ht => cases ht
  | answered ha =>
      exfalso
      cases ha with
      | getValues ht => cases ht
      | unknownRole _ _ hne => exact hne hrole
      | unknownType ht => exact ht (by decide)
  | answerFailed => exact absurd rfl hc'
  | began => exact ⟨by simp [ConnectionData.getElem?_insertNew, entryAfter_nil], by simp⟩
  | beganLast => exact ⟨by simp [ConnectionData.getElem?_insertNew, entryAfter_nil], by simp⟩
  | abortUnknown ht => cases ht
  | aborted ht => cases ht
  | abortedLast => exact absurd rfl hc'
  | abortFailed => exact absurd rfl hc'
  | received hf => cases hf with
    | stdin ht => cases ht
    | params ht => cases ht
  | receivedReady hf => cases hf with
    | stdin ht => cases ht
    | params ht => cases ht
  | died _ hclosed => exact absurd hclosed hc'

/-- A stream packet for an entry whose stream is open is received, and
announces the entry when it makes it ready. -/
theorem Connection.PacketEffect.receives {e : Entry}
    (h : PacketEffect c r t content ⟨x, c', es⟩) (hc' : c'.state ≠ .closed)
    (ht : t = fcgiParams ∨ t = fcgiStdin) (he : c.data.requestMap[r]? = some e)
    (hopen : e.Accepts t) :
    c'.data.requestMap[r]? = some (e.receive t content) ∧
      es = if (e.receive t content).ready then
        [.requestReady r e.ptr (e.receive t content).data] else [] := by
  have hreceive : ∀ {f : RequestState → RequestData → RequestState × RequestData},
      Receives t content e f →
        (⟨(f e.state e.data).1, e.ptr, (f e.state e.data).2⟩ : Entry) =
          e.receive t content := by
    rintro f (⟨rfl, _⟩ | ⟨rfl, _⟩)
    · rw [Entry.receive, if_pos rfl]
    · rw [Entry.receive, if_neg (by decide)]
  have hentry : ∀ {f : RequestState → RequestData → RequestState × RequestData},
      Receives t content e f →
        (c.data.modifyEntry r f).requestMap[r]? = some (e.receive t content) := by
    intro f hf
    rw [ConnectionData.getElem?_modifyEntry, if_pos rfl, he, ← hreceive hf]
    rfl
  have htype : ∀ {t' : UInt8}, t = t' → t' ≠ fcgiParams → t' ≠ fcgiStdin → False := by
    rintro t' rfl hp hs
    exact ht.elim hp hs
  cases h with
  | rejected h =>
      exfalso
      cases h with
      | shortBegin h => exact htype h (by decide) (by decide)
      | idInUse h => exact htype h.1 (by decide) (by decide)
      | streamUnknown _ hnone =>
          rw [he] at hnone
          cases hnone
      | stdinClosed h he' hbit =>
          obtain rfl : e = _ := by simpa [he] using he'
          rw [Entry.Accepts, if_pos h] at hopen
          exact hbit hopen
      | paramsClosed h he' hbit =>
          obtain rfl : e = _ := by simpa [he] using he'
          rw [Entry.Accepts, if_neg (by rw [h]; decide)] at hopen
          exact hbit hopen
      | data h => exact htype h (by decide) (by decide)
  | answered ha =>
      exfalso
      cases ha with
      | getValues h => exact htype h (by decide) (by decide)
      | unknownRole h => exact htype h (by decide) (by decide)
      | unknownType h => rcases ht with rfl | rfl <;> exact h (by decide)
  | answerFailed => exact absurd rfl hc'
  | began h => exact (htype h.1 (by decide) (by decide)).elim
  | beganLast h => exact (htype h.1 (by decide) (by decide)).elim
  | abortUnknown h => exact (htype h (by decide) (by decide)).elim
  | aborted h => exact (htype h (by decide) (by decide)).elim
  | abortedLast => exact absurd rfl hc'
  | abortFailed => exact absurd rfl hc'
  | received hf he' hready =>
      obtain rfl : e = _ := by simpa [he] using he'
      rw [hreceive hf] at hready
      exact ⟨hentry hf, by rw [hready]; rfl⟩
  | @receivedReady _ f hf he' hready =>
      obtain rfl : e = _ := by simpa [he] using he'
      have hdata : (f e.state e.data).2 = (e.receive t content).data := by rw [← hreceive hf]
      rw [hreceive hf] at hready
      exact ⟨hentry hf, by rw [hready, hdata]; rfl⟩
  | died _ hclosed => exact absurd hclosed hc'

end Packets

/-! ## Runs of packets -/

/-- The packets handed to `handleNewPacket`, in order. -/
def packets (es : List Event) : List (Nat × UInt8 × Bytes) :=
  es.filterMap fun x => match x with
    | .newPacket r t content => some (r, t, content)
    | _ => none

def WireRecord.packet (rec : WireRecord) : Nat × UInt8 × Bytes :=
  (rec.requestId, rec.type, rec.content)

theorem packets_append (es es' : List Event) : packets (es ++ es') = packets es ++ packets es' :=
  List.filterMap_append

theorem packets_eq_nil {es : List Event}
    (h : ∀ r t content, Event.newPacket r t content ∉ es) : packets es = [] := by
  rw [packets, List.filterMap_eq_nil_iff]
  intro y hy
  cases y with
  | newPacket r t content => exact absurd hy (h r t content)
  | _ => rfl

namespace Connection

variable {c c' : Connection} {r : Nat} {recs : List WireRecord} {es : List Event}

theorem PacketEffect.live {c c' : Connection} {r : Nat} {t : UInt8} {content : Bytes}
    {x : Exit Unit} {es : List Event} (h : PacketEffect c r t content ⟨x, c', es⟩)
    (hc' : c'.state ≠ .closed) : ∀ w, x ≠ .abort w := by
  rintro w rfl
  exact hc' h.closed_of_abort.2

/-- Every record is handed on, once and in order. -/
theorem Dispatched.packets_eq (h : Dispatched c recs es c') :
    packets es = recs.map WireRecord.packet := by
  induction h with
  | nil => rfl
  | @cons _ _ _ _ rec recs _ es₁ es₂ _ _ heff hc' _ ih =>
      have hnil : packets es₁ = [] :=
        packets_eq_nil fun _ _ _ => heff.newPacket_notMem (heff.live hc')
      have hhead : packets (.newPacket rec.requestId rec.type rec.content :: (es₁ ++ es₂)) =
          rec.packet :: packets (es₁ ++ es₂) := rfl
      rw [hhead, packets_append, hnil, ih]
      rfl

/-- Records for other entries leave this one alone and never announce it. -/
theorem Dispatched.other (h : Dispatched c recs es c')
    (hother : ∀ rec ∈ recs, ¬ addresses r rec) :
    c'.data.requestMap[r]? = c.data.requestMap[r]? ∧ ∀ ptr d, .requestReady r ptr d ∉ es := by
  induction h with
  | nil hs => exact ⟨by rw [hs.data_eq], nofun⟩
  | @cons _ _ _ _ rec recs _ es₁ es₂ hs _ heff hc' _ ih =>
      have hrec := hother rec List.mem_cons_self
      obtain ⟨hmap, hready⟩ := heff.other (r := r) hc' (by
        intro hid hmem
        simp [addresses, hid] at hrec hmem
        tauto)
      obtain ⟨hmap', hready'⟩ := ih fun rec' hmem => hother rec' (List.mem_cons_of_mem _ hmem)
      refine ⟨by rw [hmap', hmap, hs.data_eq], fun ptr d hmem => ?_⟩
      rw [List.mem_cons, List.mem_append] at hmem
      obtain hmem | hmem | hmem := hmem
      · cases hmem
      · exact hready ptr d hmem
      · exact hready' ptr d hmem

end Connection

/-- In front of a record its stream is open. -/
theorem RequestRecords.closedBy_eq_false {pairs : List (Bytes × Bytes)} {stdin : Bytes}
    {begin rec : WireRecord} {done rest : List WireRecord}
    (h : RequestRecords pairs stdin begin (done ++ rec :: rest)) :
    closedBy rec.type done = false := by
  have hstream : ∃ bytes, StreamRecords bytes (ofType rec.type (done ++ rec :: rest)) := by
    obtain ht | ht := h.streams rec (by simp)
    · obtain ⟨bytes, _, _, hs⟩ := h.params
      exact ⟨bytes, ht ▸ hs⟩
    · exact ⟨stdin, ht ▸ h.stdin⟩
  obtain ⟨bytes, hs⟩ := hstream
  have hsplit : ofType rec.type (done ++ rec :: rest) =
      ofType rec.type done ++ rec :: ofType rec.type rest := by
    simp [ofType, List.filter_append]
  rw [hsplit] at hs
  rw [closedBy, List.any_eq_false]
  intro x hx hempty
  exact hs.ne_nil_of_append x hx (List.isEmpty_iff.mp hempty)

/-- With its last record the request is complete. -/
theorem RequestRecords.closedBy_eq_true {pairs : List (Bytes × Bytes)} {stdin : Bytes}
    {begin : WireRecord} {body : List WireRecord} (h : RequestRecords pairs stdin begin body) :
    closedBy fcgiParams body = true ∧ closedBy fcgiStdin body = true := by
  have hclosed : ∀ {t : UInt8} {bytes : Bytes}, StreamRecords bytes (ofType t body) →
      closedBy t body = true := by
    intro t bytes hs
    obtain ⟨rec, hmem, hrec⟩ := hs.exists_empty
    exact List.any_eq_true.mpr ⟨rec, hmem, List.isEmpty_iff.mpr hrec⟩
  obtain ⟨_, _, _, hp⟩ := h.params
  exact ⟨hclosed hp, hclosed h.stdin⟩

/-- The last record is empty. -/
theorem RequestRecords.last_eq_nil {pairs : List (Bytes × Bytes)} {stdin : Bytes}
    {begin last : WireRecord} {body : List WireRecord}
    (h : RequestRecords pairs stdin begin (body ++ [last])) : last.content = [] := by
  have hsplit : ofType last.type (body ++ [last]) = ofType last.type body ++ [last] := by
    simp [ofType, List.filter_append]
  obtain ht | ht := h.streams last (by simp)
  · obtain ⟨_, _, _, hs⟩ := h.params
    rw [← ht, hsplit] at hs
    exact hs.last_eq_nil
  · have hs := h.stdin
    rw [← ht, hsplit] at hs
    exact hs.last_eq_nil

/-- Before its last record a request is not ready. -/
theorem RequestRecords.ready_eq_false {pairs : List (Bytes × Bytes)} {stdin : Bytes}
    {begin rec : WireRecord} {done rest : List WireRecord} {ptr : Nat} {appStatus : BitVec 32}
    (h : RequestRecords pairs stdin begin (done ++ rec :: rest)) :
    (entryAfter ptr appStatus done).ready = false := by
  have hopen := h.closedBy_eq_false
  rw [ready_entryAfter]
  obtain ht | ht := h.streams rec (by simp)
  · rw [ht] at hopen
    rw [hopen, Bool.false_and]
  · rw [ht] at hopen
    rw [hopen, Bool.and_false]

/-- The next record of a request is put into its entry. -/
theorem Connection.PacketEffect.builds {c c' : Connection} {r ptr : Nat} {appStatus : BitVec 32}
    {pairs : List (Bytes × Bytes)} {stdin : Bytes} {begin rec : WireRecord}
    {done rest : List WireRecord} {x : Exit Unit} {es : List Event}
    (hrequest : RequestRecords pairs stdin begin (done ++ rec :: rest))
    (h : PacketEffect c r rec.type rec.content ⟨x, c', es⟩) (hc' : c'.state ≠ .closed)
    (hentry : c.data.requestMap[r]? = some (entryAfter ptr appStatus done)) :
    c'.data.requestMap[r]? = some (entryAfter ptr appStatus (done ++ [rec])) ∧
      es = if (entryAfter ptr appStatus (done ++ [rec])).ready then
        [.requestReady r ptr (entryAfter ptr appStatus (done ++ [rec])).data] else [] := by
  have ht := hrequest.streams rec (by simp)
  have hopen := hrequest.closedBy_eq_false
  have hreceives := h.receives hc' ht hentry (accepts_entryAfter hopen ht)
  rw [receive_entryAfter hopen ht] at hreceives
  exact hreceives

namespace Connection

variable {c c' : Connection} {r : Nat} {recs : List WireRecord} {es : List Event}

/-- The records of one request, up to one before its last, build up the entry
and leave it short of ready. -/
theorem Dispatched.builds {ptr : Nat} {appStatus : BitVec 32} {done rest body : List WireRecord}
    {pairs : List (Bytes × Bytes)} {stdin : Bytes} {begin : WireRecord}
    (hrequest : RequestRecords pairs stdin begin body) (h : Dispatched c recs es c')
    (hentry : c.data.requestMap[r]? = some (entryAfter ptr appStatus done))
    (hbody : body = done ++ (recs.filter (addresses r) ++ rest)) (hrest : rest ≠ []) :
    c'.data.requestMap[r]? =
        some (entryAfter ptr appStatus (done ++ recs.filter (addresses r))) ∧
      ∀ p d, .requestReady r p d ∉ es := by
  induction h generalizing done with
  | nil hs => exact ⟨by rw [hs.data_eq, hentry]; simp, nofun⟩
  | @cons _ _ _ _ rec recs _ es₁ es₂ hs _ heff hc' _ ih =>
      rw [← hs.data_eq] at hentry
      by_cases hrec : addresses r rec = true
      · have hid : rec.requestId = r := by
          simp only [addresses, Bool.and_eq_true, decide_eq_true_eq] at hrec
          exact hrec.1
        have hfilter : (rec :: recs).filter (addresses r) = rec :: recs.filter (addresses r) :=
          List.filter_cons_of_pos hrec
        rw [hfilter] at hbody ⊢
        have hnext : body = (done ++ [rec]) ++ (recs.filter (addresses r) ++ rest) := by
          simp [hbody]
        subst hbody
        rw [hid] at heff
        obtain ⟨hentry₁, hes₁⟩ := heff.builds hrequest hc' hentry
        have hwait : (entryAfter ptr appStatus (done ++ [rec])).ready = false := by
          cases htail : recs.filter (addresses r) ++ rest with
          | nil => exact absurd (List.append_eq_nil_iff.mp htail).2 hrest
          | cons y ys =>
              rw [hnext, htail] at hrequest
              exact hrequest.ready_eq_false
        rw [hwait, if_neg Bool.false_ne_true] at hes₁
        subst hes₁
        obtain ⟨hmap, hready⟩ := ih hentry₁ hnext
        refine ⟨by rw [hmap]; simp, fun p d hmem => ?_⟩
        rw [List.nil_append, List.mem_cons] at hmem
        obtain hmem | hmem := hmem
        · cases hmem
        · exact hready p d hmem
      · have hfilter : (rec :: recs).filter (addresses r) = recs.filter (addresses r) :=
          List.filter_cons_of_neg hrec
        rw [hfilter] at hbody ⊢
        have hone := Dispatched.other (r := r)
          (.cons ⟨rfl, rfl, hs.wf⟩ ‹_› heff hc'
            (.nil ⟨rfl, rfl, heff.wf (heff.live hc') hs.wf⟩))
          (fun rec' hmem => by
            rw [List.mem_singleton] at hmem
            exact hmem ▸ hrec)
        obtain ⟨hmap₁, hready₁⟩ := hone
        rw [← hmap₁] at hentry
        obtain ⟨hmap, hready⟩ := ih hentry hbody
        refine ⟨hmap, fun p d hmem => ?_⟩
        rw [List.mem_cons, List.mem_append] at hmem
        obtain hmem | hmem | hmem := hmem
        · cases hmem
        · exact hready₁ p d (by simp [hmem])
        · exact hready p d hmem

/-- From a begin-request to one record before the last of the request. -/
theorem Dispatched.begins_builds {rest body : List WireRecord} {pairs : List (Bytes × Bytes)}
    {stdin : Bytes} {begin : WireRecord} (hwf : c.WF)
    (hrequest : RequestRecords pairs stdin begin (body ++ rest)) (h : Dispatched c recs es c')
    (hfree : c.data.requestMap[r]? = none) (hrecs : recs.filter (addresses r) = begin :: body)
    (hrest : rest ≠ []) :
    ∃ ptr appStatus, c'.data.requestMap[r]? = some (entryAfter ptr appStatus body) ∧
      ∀ p d, .requestReady r p d ∉ es := by
  obtain ⟨l₁, l₂, rfl, hl₁, hbegin, rfl⟩ := List.filter_eq_cons_iff.mp hrecs
  obtain ⟨c₁, es₁, es₂, rfl, hfst, hsnd⟩ := h.split hwf
  obtain ⟨hmap₁, hready₁⟩ := hfst.other hl₁
  have hid : begin.requestId = r := by
    simp only [addresses, Bool.and_eq_true, decide_eq_true_eq] at hbegin
    exact hbegin.1
  cases hsnd with
  | @cons _ c₀ c₂ _ _ _ _ esb es₃ hs _ heff hc' htail =>
      rw [hid] at heff
      have hfree₀ : c₀.data.requestMap[r]? = none := by rw [hs.data_eq, hmap₁, hfree]
      obtain ⟨hentry, hready₂⟩ := heff.begins hc' hrequest.begins hfree₀
      obtain ⟨hmap, hready₃⟩ := htail.builds hrequest hentry rfl hrest
      refine ⟨_, _, hmap, fun p d hmem => ?_⟩
      simp only [List.mem_append, List.mem_cons, reduceCtorEq, false_or] at hmem
      obtain hmem | hmem | hmem := hmem
      · exact hready₁ p d hmem
      · exact hready₂ p d hmem
      · exact hready₃ p d hmem

end Connection

/-- What a complete request holds. -/
theorem RequestRecords.data_eq {pairs : List (Bytes × Bytes)} {stdin : Bytes}
    {begin : WireRecord} {body : List WireRecord} (h : RequestRecords pairs stdin begin body)
    (ptr : Nat) (appStatus : BitVec 32) :
    (entryAfter ptr appStatus body).ready = true ∧
      (entryAfter ptr appStatus body).data.in_ = stdin ∧
      ∀ key, (entryAfter ptr appStatus body).data.paramsMap[key]? = pairs.lookup key := by
  obtain ⟨hp, hs⟩ := h.closedBy_eq_true
  obtain ⟨bytes, hform, hlen, hparams⟩ := h.params
  have hcontents : contents fcgiParams body = bytes := hparams.flatMap_content
  refine ⟨by rw [ready_entryAfter, hp, hs]; rfl, h.stdin.flatMap_content, fun key => ?_⟩
  simp only [entryAfter, hp, if_true, hcontents]
  rw [Nat.mod_eq_of_lt hlen, parsePairs_of_form hform, getElem?_insertPairs]
  simp

/-- In front of the last record the other stream was closed. -/
theorem RequestRecords.other_closed {pairs : List (Bytes × Bytes)} {stdin : Bytes}
    {begin last : WireRecord} {body pre : List WireRecord} {r : Nat}
    (h : RequestRecords pairs stdin begin (body ++ [last]))
    (hpre : pre.filter (addresses r) = begin :: body) :
    ∃ first ∈ pre, Closes r first ∧ first.type ≠ last.type := by
  obtain ⟨hp, hs⟩ := h.closedBy_eq_true
  have hfirst : ∀ {t : UInt8}, t = fcgiParams ∨ t = fcgiStdin → last.type ≠ t →
      closedBy t (body ++ [last]) = true →
        ∃ first ∈ pre, Closes r first ∧ first.type ≠ last.type := by
    intro t ht hne hclosed
    rw [closedBy_append, beq_false_of_ne hne, Bool.false_and, Bool.or_false] at hclosed
    obtain ⟨first, hmem, hempty⟩ := List.any_eq_true.mp hclosed
    obtain ⟨hbody, htype⟩ := List.mem_filter.mp hmem
    have htype : first.type = t := by simpa using htype
    have hfilter : first ∈ pre.filter (addresses r) := by
      rw [hpre]
      exact List.mem_cons_of_mem _ hbody
    obtain ⟨hin, haddr⟩ := List.mem_filter.mp hfilter
    simp only [addresses, Bool.and_eq_true, decide_eq_true_eq] at haddr
    exact ⟨first, hin, ⟨haddr.1, htype ▸ ht, List.isEmpty_iff.mp hempty⟩,
      htype ▸ hne.symm⟩
  obtain ht | ht := h.streams last (by simp)
  · exact hfirst (.inr rfl) (by rw [ht]; decide) hs
  · exact hfirst (.inl rfl) (by rw [ht]; decide) hp

open Connection in
/-- **Reassembly, end to end.**  The records of a request, mixed with records
for other entries and cut into reads in any way, announce the request once:
right behind the packet `last`, the second of its two empty ones, with the
peer's stdin and with each parameter at its first value. -/
theorem request_reassembled {c : Connection} {chunks : List Bytes} {recs body : List WireRecord}
    {begin : WireRecord} {r : Nat} {pairs : List (Bytes × Bytes)} {stdin : Bytes} (hwf : c.WF)
    (hbuf : c.socket.inputBuffer = []) (hfree : c.data.requestMap[r]? = none)
    (hrequest : RequestRecords pairs stdin begin body)
    (hrecs : recs.filter (addresses r) = begin :: body) (hchunks : chunks.flatten = wire recs)
    (hopen : (feed chunks c).state.state ≠ .closed) :
    (feed chunks c).exit = .ret () ∧
    ∃ pre last post before after ptr d, recs = pre ++ last :: post ∧
      (feed chunks c).events =
        before ++ .newPacket r last.type [] :: .requestReady r ptr d :: after ∧
      packets before = pre.map WireRecord.packet ∧ packets after = post.map WireRecord.packet ∧
      (∃ first ∈ pre, Closes r first ∧ first.type ≠ last.type) ∧ Closes r last ∧
      (∀ rec ∈ post, ¬ Closes r rec) ∧
      (∀ p d', .requestReady r p d' ∉ before ∧ .requestReady r p d' ∉ after) ∧
      d.in_ = stdin ∧ ∀ key, d.paramsMap[key]? = pairs.lookup key := by
  obtain ⟨hall, hexit⟩ := feed_dispatched hwf (by rw [hbuf]; exact hchunks)
    (fun rec _ _ => by
      rw [hbuf, rec.length_toBytes]
      exact Nat.lt_of_lt_of_le (by decide) rec.header.eight_le_recordLength) hopen
  refine ⟨hexit, ?_⟩
  obtain rfl | ⟨body', last, hbody⟩ := List.eq_nil_or_concat body
  · have hnone := hrequest.stdin
    cases hnone
  rw [List.concat_eq_append] at hbody
  subst hbody
  -- the last record of the request, and the records before and behind it
  rw [← List.cons_append] at hrecs
  obtain ⟨recs₁, recs₂, rfl, hbefore, hlast⟩ := List.filter_eq_append_iff.mp hrecs
  obtain ⟨mid, post, rfl, hmid, haddr, hpost⟩ := List.filter_eq_cons_iff.mp hlast
  have hpre : (recs₁ ++ mid).filter (addresses r) = begin :: body' := by
    rw [List.filter_append, hbefore, List.filter_eq_nil_iff.mpr hmid, List.append_nil]
  rw [← List.append_assoc] at hall ⊢
  generalize recs₁ ++ mid = pre at hall hpre
  obtain ⟨c₁, before, es, hes, hfst, hsnd⟩ := hall.split hwf
  obtain ⟨ptr, appStatus, hentry, hnone⟩ :=
    hfst.begins_builds hwf hrequest hfree hpre (List.cons_ne_nil last [])
  have hid : last.requestId = r := by
    simp only [addresses, Bool.and_eq_true, decide_eq_true_eq] at haddr
    exact haddr.1
  have hempty := hrequest.last_eq_nil
  have htype := hrequest.streams last (by simp)
  obtain ⟨hready, hin, hparams⟩ := hrequest.data_eq ptr appStatus
  cases hsnd with
  | @cons _ c₀ c₂ _ _ _ _ es₁ after hs _ heff hc' htail =>
      rw [hid] at heff hes
      rw [← hs.data_eq] at hentry
      obtain ⟨_, hes₁⟩ := heff.builds hrequest hc' hentry
      rw [hready, if_pos rfl] at hes₁
      have hother : ∀ rec ∈ post, ¬ addresses r rec := List.filter_eq_nil_iff.mp hpost
      refine ⟨pre, last, post, before, after, ptr, _, rfl, ?_, hfst.packets_eq, htail.packets_eq,
        ?_, ⟨hid, htype, hempty⟩, ?_, fun p d' =>
          ⟨hnone p d', (htail.other hother).2 p d'⟩, hin,
        hparams⟩
      · rw [hes, hes₁, hempty]
        rfl
      · exact hrequest.other_closed hpre
      · rintro rec hmem ⟨hid', ht, _⟩
        refine hother rec hmem ?_
        obtain ht | ht := ht <;> simp [addresses, hid', ht]

/-- A record of request 1 without padding. -/
def plainRecord (t : UInt8) (content : Bytes) (h : content.length < 65536) : WireRecord where
  type := t
  requestId := 1
  content := content
  padding := []
  reserved := 0
  requestId_lt := by decide
  content_lt := h
  padding_lt := by decide

open Connection in
/-- One parameter and one byte of stdin, read in three pieces. -/
theorem request_reassembled_in_three_reads :
    ∃ chunks : List Bytes, chunks.length = 3 ∧ ∃ ptr d,
      .requestReady 1 ptr d ∈ (feed chunks (Strand.init [] fun _ => 0).connection).events ∧
        d.in_ = [7] ∧ d.paramsMap[([97] : Bytes)]? = some [98] := by
  let begin := plainRecord fcgiBeginRequest [0, 1, 1, 0, 0, 0, 0, 0] (by decide)
  let param := plainRecord fcgiParams [1, 1, 97, 98] (by decide)
  let input := plainRecord fcgiStdin [7] (by decide)
  let body := [param, input, plainRecord fcgiStdin [] (by decide),
    plainRecord fcgiParams [] (by decide)]
  have hform : PairsForm [([97], [98])] [1, 1, 97, 98] :=
    @PairsForm.cons [97] [98] [1] [1] [] [] (.short (by decide)) (.short (by decide)) .nil
  have hrequest : RequestRecords [([97], [98])] [7] begin body :=
    { begins := by decide
      streams := by decide
      params := ⟨[1, 1, 97, 98], hform, by decide,
        .cons (by decide : param.content ≠ []) (.close rfl)⟩
      stdin := .cons (by decide : input.content ≠ []) (.close rfl) }
  have hrecs : (begin :: body).filter (addresses 1) = begin :: body := rfl
  let bytes := wire (begin :: body)
  have hopen : (feed [bytes.take 3, (bytes.drop 3).take 20, bytes.drop 23]
      (Strand.init [] fun _ => 0).connection).state.state ≠ .closed := by decide
  obtain ⟨_, _, _, _, _, _, ptr, d, _, hes, _, _, _, _, _, _, hin, hparams⟩ :=
    request_reassembled (r := 1) (Strand.wf_init [] fun _ => 0) rfl
      (by decide) hrequest hrecs (by decide) hopen
  refine ⟨[bytes.take 3, (bytes.drop 3).take 20, bytes.drop 23], rfl, ptr, d, ?_, hin,
    hparams [97]⟩
  rw [hes]
  simp

end Santiago
