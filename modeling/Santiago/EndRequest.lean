import Santiago.RequestLife

/-!
# Santiago.EndRequest

Every request gets one end record.  An `Account` follows one entry of the
request map through what was observed: it is opened when the entry begins,
counts the END_REQUEST records written under its id, and is closed when the
entry is erased.

The accounts add up as long as two packets stay out: an abort, whose answer
goes out under the type number `FCGI_REQUEST_COMPLETE` instead of
`FCGI_END_REQUEST`, and a begin-request for an unsupported role under an id
that is in use, which is answered before the id is looked up.
-/

namespace Santiago

open Effect Bytes PacketSocket Connection

/-! ## Accounts -/

/-- An entry of the request map: not begun, in the map with that many end
records written under its id, or gone with that many. -/
inductive Account where
  | unborn
  | alive (ends : Nat)
  | left (ends : Nat)
deriving DecidableEq

/-- What one event does to the account of the object `ptr` under the id `r`. -/
def Account.step (r ptr : Nat) : Account → Event → Account
  | .unborn, .began r' ptr' => if r' = r ∧ ptr' = ptr then .alive 0 else .unborn
  | .alive n, .wrote header _ =>
      if header.type = fcgiEndRequest ∧ header.requestId = r then .alive (n + 1) else .alive n
  | .alive n, .erased r' ptr' => if r' = r ∧ ptr' = ptr then .left n else .alive n
  | a, _ => a

/-- The account of the object `ptr` under the id `r` after the events `t`. -/
def account (r ptr : Nat) (t : List Event) : Account := t.foldl (Account.step r ptr) .unborn

/-- The record at this place ends an entry: the entry is erased right behind it. -/
def EndsEntry (r : Nat) (before after : List Event) : Prop :=
  ∃ ptr rest, after = .erased r ptr :: rest ∧ account r ptr before = .alive 0

/-- The record at this place answers a begin-request for an unsupported role. -/
def AnswersUnknownRole (r : Nat) (before : List Event) : Prop :=
  ∃ earlier content, before = earlier ++ [.newPacket r fcgiBeginRequest content] ∧
    FcgiBeginRequestBody.size ≤ content.length ∧
    (FcgiBeginRequestBody.cast content).role ≠ fcgiResponder

/-- The record types a server writes. -/
def writtenTypes : List UInt8 :=
  [fcgiStdout, fcgiStderr, fcgiEndRequest, fcgiGetValuesResult, fcgiUnknownType]

/-- The accounts add up. -/
structure EndAccounting (t : List Event) : Prop where
  one_end : ∀ r ptr n, account r ptr t = .left n → n = 1
  purpose : ∀ before header content after, t = before ++ .wrote header content :: after →
    header.type = fcgiEndRequest →
      EndsEntry header.requestId before after ∨ AnswersUnknownRole header.requestId before
  types : ∀ header content, .wrote header content ∈ t → header.type ∈ writtenTypes

/-! ## Accounts over more events -/

/-- The account of a trace goes on from the account of its beginning. -/
theorem account_append (r ptr : Nat) (t es : List Event) :
    account r ptr (t ++ es) = es.foldl (Account.step r ptr) (account r ptr t) := by
  rw [account, account, List.foldl_append]

/-- A request that has not begun stays so while no `began` of it comes. -/
theorem foldl_unborn {r ptr : Nat} {es : List Event} (h : .began r ptr ∉ es) :
    es.foldl (Account.step r ptr) .unborn = .unborn := by
  induction es with
  | nil => rfl
  | cons x es ih =>
      rw [List.mem_cons, not_or] at h
      have hx : Account.step r ptr .unborn x = .unborn := by
        cases x with
        | began r' ptr' =>
            rw [Account.step, if_neg]
            rintro ⟨rfl, rfl⟩
            exact h.1 rfl
        | _ => rfl
      rw [List.foldl_cons, hx, ih h.2]

/-- Nothing happens to an entry that is not erased and gets no end record. -/
theorem foldl_alive {r ptr n : Nat} {es : List Event} (herased : .erased r ptr ∉ es)
    (hend : ∀ header content, .wrote header content ∈ es → header.type = fcgiEndRequest →
      header.requestId ≠ r) :
    es.foldl (Account.step r ptr) (.alive n) = .alive n := by
  induction es with
  | nil => rfl
  | cons x es ih =>
      rw [List.mem_cons, not_or] at herased
      have hx : Account.step r ptr (.alive n) x = .alive n := by
        cases x with
        | erased r' ptr' =>
            rw [Account.step, if_neg]
            rintro ⟨rfl, rfl⟩
            exact herased.1 rfl
        | wrote header content =>
            rw [Account.step, if_neg]
            rintro ⟨ht, hr⟩
            exact hend header content List.mem_cons_self ht hr
        | _ => rfl
      rw [List.foldl_cons, hx,
        ih herased.2 fun header content hw => hend header content (List.mem_cons_of_mem _ hw)]

/-- What happens behind its `erased` is not of the request any more. -/
theorem foldl_left (r ptr n : Nat) (es : List Event) :
    es.foldl (Account.step r ptr) (.left n) = .left n := by
  induction es with
  | nil => rfl
  | cons x es ih => rw [List.foldl_cons, Account.step.eq_def]; cases x <;> exact ih

/-- An account is only closed by its own erasure. -/
theorem eq_left_of_foldl {r ptr n : Nat} {es : List Event} {a : Account}
    (herased : .erased r ptr ∉ es) (h : es.foldl (Account.step r ptr) a = .left n) :
    a = .left n := by
  induction es generalizing a with
  | nil => exact h
  | cons x es ih =>
      rw [List.mem_cons, not_or] at herased
      have hstep := ih herased.2 h
      cases a with
      | left m => rw [← hstep]; cases x <;> rfl
      | unborn =>
          cases x with
          | began r' ptr' =>
              rw [Account.step] at hstep
              split at hstep <;> cases hstep
          | _ => cases hstep
      | alive m =>
          cases x with
          | wrote header content =>
              rw [Account.step] at hstep
              split at hstep <;> cases hstep
          | erased r' ptr' =>
              rw [Account.step] at hstep
              split at hstep
              · next heq =>
                  obtain ⟨rfl, rfl⟩ := heq
                  exact absurd rfl herased.1
              · cases hstep
          | _ => cases hstep

/-! ## The records of a step -/

/-- The records of an answer bear its type, and its id if that fits. -/
theorem mem_answer {r : Nat} {t : UInt8} {b : Bytes} {header : FcgiHeader} {content : Bytes}
    (h : .wrote header content ∈ (bufferRecords r t b).map wroteEvent) :
    header.type = t ∧ (r < 65536 → header.requestId = r) := by
  obtain ⟨p, hp, hw⟩ := List.mem_map.mp h
  cases hw
  exact header_of_mem_packetRecords hp

/-- In front of its last record a reply writes its two streams. -/
theorem mem_replyStreams {r : Nat} {d : RequestData} {header : FcgiHeader} {content : Bytes}
    (h : .wrote header content ∈ (replyStreams r d).map wroteEvent) :
    header.type = fcgiStdout ∨ header.type = fcgiStderr := by
  have hstream : ∀ (t : UInt8) (b : Bytes),
      .wrote header content ∈ (streamRecords r t b).map wroteEvent → header.type = t := by
    intro t b hw
    unfold streamRecords at hw
    split at hw
    · exact (mem_answer hw).1
    · cases hw
  simp only [replyStreams, List.map_append, List.mem_append] at h
  obtain h | h | h | h := h
  · exact .inl (hstream _ _ h)
  · exact .inr (hstream _ _ h)
  · exact .inl (mem_answer h).1
  · exact .inr (mem_answer h).1

theorem map_replyRecords (r : Nat) (d : RequestData) :
    (replyRecords r d).map wroteEvent =
      (replyStreams r d).map wroteEvent ++ [wroteEvent (endRecord r d.appStatus)] := by
  rw [replyRecords, List.map_append, List.map_singleton]

/-- The end record bears the id of the request, if that fits. -/
theorem requestId_endRecord {r : Nat} (h : r < 65536) (appStatus : BitVec 32) :
    (endRecord r appStatus).1.requestId = r := two_octets h

/-! ## One step -/

/-- The accounts of the entries in the map, and of objects still to come. -/
structure Ledger (d : ConnectionData) (t : List Event) : Prop where
  alive : ∀ r ptr, d.isValidRequest r ptr = true → r < 65536 ∧ account r ptr t = .alive 0
  unborn : ∀ r ptr, d.nextPtr ≤ ptr → account r ptr t = .unborn
  accounting : EndAccounting t

variable {st st' : Connection.State} {d d' : ConnectionData} {t es : List Event}

/-- Records behind a trace whose accounts add up. -/
theorem EndAccounting.append (h : EndAccounting t)
    (hone : ∀ r ptr n, account r ptr (t ++ es) = .left n → n = 1)
    (hpurpose : ∀ before header content after, es = before ++ .wrote header content :: after →
      header.type = fcgiEndRequest → EndsEntry header.requestId (t ++ before) after ∨
        AnswersUnknownRole header.requestId (t ++ before))
    (htypes : ∀ header content, .wrote header content ∈ es → header.type ∈ writtenTypes) :
    EndAccounting (t ++ es) where
  one_end := hone
  purpose := by
    intro before header content after heq htype
    obtain ⟨mid, rfl, hes⟩ | ⟨mid, hmid, hafter⟩ := List.append_eq_append_iff.mp heq
    · exact hpurpose mid header content after hes htype
    · cases mid with
      | nil =>
          rw [List.append_nil] at hmid
          rw [List.nil_append] at hafter
          subst hmid
          have hp := hpurpose [] header content after hafter.symm htype
          rwa [List.append_nil] at hp
      | cons x mid =>
          obtain ⟨rfl, rfl⟩ := List.cons.inj hafter
          obtain ⟨ptr, rest, hm, ha⟩ | hu := h.purpose before header content mid hmid htype
          · subst hm
            exact .inl ⟨ptr, rest ++ es, rfl, ha⟩
          · exact .inr hu
  types := by
    intro header content hw
    obtain hw | hw := List.mem_append.mp hw
    · exact h.types header content hw
    · exact htypes header content hw

/-- A step that takes no entry and writes end records only for ids not in the
map, each of them as an answer. -/
theorem Ledger.same (h : Ledger d t)
    (hvalid : ∀ r ptr, d'.isValidRequest r ptr = d.isValidRequest r ptr)
    (hnext : d'.nextPtr = d.nextPtr) (hbegan : ∀ r ptr, .began r ptr ∉ es)
    (herased : ∀ r ptr, .erased r ptr ∉ es)
    (hend : ∀ before header content after, es = before ++ .wrote header content :: after →
      header.type = fcgiEndRequest →
        d.requestMap[header.requestId]? = none ∧
          AnswersUnknownRole header.requestId (t ++ before))
    (htypes : ∀ header content, .wrote header content ∈ es → header.type ∈ writtenTypes) :
    Ledger d' (t ++ es) where
  alive := by
    intro r ptr hin
    rw [hvalid] at hin
    obtain ⟨hr, ha⟩ := h.alive r ptr hin
    refine ⟨hr, ?_⟩
    rw [account_append, ha]
    refine foldl_alive (herased r ptr) fun header content hw htype heq => ?_
    obtain ⟨before, after, hes⟩ := List.append_of_mem hw
    have hnone := (hend before header content after hes htype).1
    obtain ⟨e, he, _⟩ := ConnectionData.isValidRequest_iff.mp hin
    rw [heq, he] at hnone
    cases hnone
  unborn := by
    intro r ptr hp
    rw [hnext] at hp
    rw [account_append, h.unborn r ptr hp]
    exact foldl_unborn (hbegan r ptr)
  accounting := by
    refine h.accounting.append ?_ ?_ htypes
    · intro r ptr n ha
      rw [account_append] at ha
      exact h.accounting.one_end r ptr n (eq_left_of_foldl (herased r ptr) ha)
    · intro before header content after hes htype
      exact .inr (hend before header content after hes htype).2

/-- A step that writes nothing and keeps the entries. -/
theorem Ledger.silent (h : Ledger d t)
    (hvalid : ∀ r ptr, d'.isValidRequest r ptr = d.isValidRequest r ptr)
    (hnext : d'.nextPtr = d.nextPtr) (hbegan : ∀ r ptr, .began r ptr ∉ es)
    (herased : ∀ r ptr, .erased r ptr ∉ es)
    (hwrote : ∀ header content, .wrote header content ∉ es) : Ledger d' (t ++ es) := by
  refine h.same hvalid hnext hbegan herased ?_ fun header content hw =>
    absurd hw (hwrote header content)
  intro before header content after hes _
  exact absurd (by rw [hes]; simp) (hwrote header content)

/-- A request that begins is entered into the ledger. -/
theorem Ledger.began (h : Ledger d t) {r : Nat} {content : Bytes} (hr : r < 65536)
    (hnone : d.requestMap[r]? = none) :
    Ledger (d.insertNew r)
      (t ++ [.newPacket r fcgiBeginRequest content, .began r d.nextPtr]) where
  alive := by
    intro r' ptr hin
    rw [ConnectionData.isValidRequest_insertNew hnone, Bool.or_eq_true] at hin
    obtain hin | hnew := hin
    · obtain ⟨hr', ha⟩ := h.alive r' ptr hin
      refine ⟨hr', ?_⟩
      rw [account_append, ha]
      exact foldl_alive (by simp) (by simp)
    · simp only [Bool.and_eq_true, beq_iff_eq] at hnew
      obtain ⟨rfl, rfl⟩ := hnew
      refine ⟨hr, ?_⟩
      rw [account_append, h.unborn r d.nextPtr (Nat.le_refl _)]
      simp [Account.step]
  unborn := by
    intro r' ptr hp
    rw [ConnectionData.nextPtr_insertNew] at hp
    rw [account_append, h.unborn r' ptr (by omega)]
    refine foldl_unborn ?_
    simp only [List.mem_cons, Event.began.injEq, reduceCtorEq, List.not_mem_nil, or_false,
      false_or, not_and]
    intro _
    omega
  accounting := by
    refine h.accounting.append ?_ ?_ (by simp)
    · intro r' ptr n ha
      rw [account_append] at ha
      exact h.accounting.one_end r' ptr n (eq_left_of_foldl (by simp) ha)
    · intro before header content' after hes _
      have hw : Event.wrote header content' ∈ before ++ .wrote header content' :: after := by simp
      rw [← hes] at hw
      simp at hw

/-- The place of the one element with `P` in a list. -/
theorem eq_of_append_cons_eq {α : Type} {P : α → Prop} {xs ys xs' ys' : List α} {a b : α}
    (hxs : ∀ x ∈ xs, ¬ P x) (hys : ∀ y ∈ ys, ¬ P y) (hb : P b)
    (h : xs ++ a :: ys = xs' ++ b :: ys') : xs' = xs ∧ b = a ∧ ys' = ys := by
  obtain ⟨mid, rfl, hmid⟩ | ⟨mid, rfl, hmid⟩ := List.append_eq_append_iff.mp h
  · cases mid with
    | nil =>
        obtain ⟨rfl, rfl⟩ := List.cons.inj hmid
        exact ⟨List.append_nil _, rfl, rfl⟩
    | cons x mid =>
        obtain ⟨rfl, rfl⟩ := List.cons.inj hmid
        exact absurd hb (hys b (by simp))
  · cases mid with
    | nil =>
        obtain ⟨rfl, rfl⟩ := List.cons.inj hmid
        exact ⟨(List.append_nil _).symm, rfl, rfl⟩
    | cons x mid =>
        obtain ⟨rfl, rfl⟩ := List.cons.inj hmid
        exact absurd hb (hxs b (by simp))

/-- The events of a whole reply in front of its end record. -/
def replyOpening (r : Nat) (e : Entry) : List Event :=
  .sendReply r e.ptr :: (replyStreams r e.data).map wroteEvent

/-- Before the end record a reply writes STDOUT and STDERR only. -/
theorem mem_replyOpening {r : Nat} {e : Entry} {header : FcgiHeader} {content : Bytes}
    (h : .wrote header content ∈ replyOpening r e) :
    header.type = fcgiStdout ∨ header.type = fcgiStderr := by
  obtain h | h := List.mem_cons.mp h
  · cases h
  · exact mem_replyStreams h

/-- The events of a whole reply, to the end of the step. -/
def replyEvents (r : Nat) (e : Entry) (rest : List Event) : List Event :=
  replyOpening r e ++ wroteEvent (endRecord r e.data.appStatus) :: .erased r e.ptr :: rest

section Reply

variable {r : Nat} {e : Entry} {rest : List Event}

/-- A reply begins no request. -/
theorem began_notMem_replyEvents (hrest : ∀ x ∈ rest, x = .cleared 0 ∨ x = .closeCallback)
    (r' ptr : Nat) : .began r' ptr ∉ replyEvents r e rest := by
  intro h
  simp only [replyEvents, replyOpening, wroteEvent, List.mem_append, List.mem_cons, List.mem_map,
    reduceCtorEq, and_false, exists_false, false_or] at h
  obtain h | h := hrest _ h <;> cases h

/-- A reply erases its own request only. -/
theorem erased_mem_replyEvents (hrest : ∀ x ∈ rest, x = .cleared 0 ∨ x = .closeCallback)
    {r' ptr : Nat} (h : .erased r' ptr ∈ replyEvents r e rest) : r' = r ∧ ptr = e.ptr := by
  simp only [replyEvents, replyOpening, wroteEvent, List.mem_append, List.mem_cons, List.mem_map,
    reduceCtorEq, and_false, exists_false, false_or, Event.erased.injEq] at h
  obtain h | h := h
  · exact h
  · obtain h | h := hrest _ h <;> cases h

/-- A reply writes STDOUT, STDERR and its own end record, and nothing else. -/
theorem wrote_mem_replyEvents (hrest : ∀ x ∈ rest, x = .cleared 0 ∨ x = .closeCallback)
    {header : FcgiHeader} {content : Bytes} (h : .wrote header content ∈ replyEvents r e rest) :
    header.type = fcgiStdout ∨ header.type = fcgiStderr ∨
      header = (endRecord r e.data.appStatus).1 := by
  obtain h | h := List.mem_append.mp h
  · obtain h | h := mem_replyOpening h
    · exact .inl h
    · exact .inr (.inl h)
  · simp only [wroteEvent, List.mem_cons, Event.wrote.injEq, reduceCtorEq, false_or] at h
    obtain ⟨h, _⟩ | h := h
    · exact .inr (.inr h)
    · obtain h | h := hrest _ h <;> cases h

/-- The account of the replied entry: one end record, then gone. -/
theorem foldl_replyEvents (hr : r < 65536) :
    (replyEvents r e rest).foldl (Account.step r e.ptr) (.alive 0) = .left 1 := by
  have hopening : (replyOpening r e).foldl (Account.step r e.ptr) (.alive 0) = .alive 0 := by
    refine foldl_alive ?_ fun header content hw htype => ?_
    · simp [replyOpening, wroteEvent]
    · obtain h | h := mem_replyOpening hw <;> rw [h] at htype <;> cases htype
  have hend : Account.step r e.ptr (.alive 0) (wroteEvent (endRecord r e.data.appStatus)) =
      .alive 1 := by
    rw [wroteEvent, Account.step, if_pos ⟨rfl, requestId_endRecord hr _⟩]
  have herased : Account.step r e.ptr (.alive 1) (.erased r e.ptr) = .left 1 := by
    rw [Account.step, if_pos ⟨rfl, rfl⟩]
  rw [replyEvents, List.foldl_append, hopening, List.foldl_cons, hend, List.foldl_cons, herased]
  exact foldl_left _ _ _ _

/-- A reply closes the account of its entry at one, and leaves the others alone. -/
theorem Ledger.replied (h : Ledger d t) (d' : ConnectionData) (rest : List Event)
    (he : d.requestMap[r]? = some e)
    (hvalid : ∀ r' ptr, d'.isValidRequest r' ptr = true →
      r' ≠ r ∧ d.isValidRequest r' ptr = true)
    (hnext : d'.nextPtr = d.nextPtr)
    (hrest : ∀ x ∈ rest, x = .cleared 0 ∨ x = .closeCallback) :
    Ledger d' (t ++ replyEvents r e rest) := by
  have hin : d.isValidRequest r e.ptr = true :=
    ConnectionData.isValidRequest_iff.mpr ⟨e, he, rfl⟩
  obtain ⟨hr, halive⟩ := h.alive r e.ptr hin
  have hid := requestId_endRecord hr e.data.appStatus
  refine ⟨?_, ?_, h.accounting.append ?_ ?_ ?_⟩
  · intro r' ptr hin'
    obtain ⟨hne, hin'⟩ := hvalid r' ptr hin'
    obtain ⟨hr', ha⟩ := h.alive r' ptr hin'
    refine ⟨hr', ?_⟩
    rw [account_append, ha]
    refine foldl_alive (fun hmem => hne (erased_mem_replyEvents hrest hmem).1) ?_
    intro header content hw htype heq
    obtain ht | ht | ht := wrote_mem_replyEvents hrest hw
    · rw [ht] at htype
      cases htype
    · rw [ht] at htype
      cases htype
    · rw [ht, hid] at heq
      exact hne heq.symm
  · intro r' ptr hp
    rw [hnext] at hp
    rw [account_append, h.unborn r' ptr hp]
    exact foldl_unborn (began_notMem_replyEvents hrest r' ptr)
  · intro r' ptr n ha
    rw [account_append] at ha
    by_cases hmem : .erased r' ptr ∈ replyEvents r e rest
    · obtain ⟨rfl, rfl⟩ := erased_mem_replyEvents hrest hmem
      rw [halive, foldl_replyEvents hr] at ha
      cases ha
      rfl
    · exact h.accounting.one_end r' ptr n (eq_left_of_foldl hmem ha)
  · intro before header content after hes htype
    have hplace := eq_of_append_cons_eq
      (P := fun x => ∃ header content, x = .wrote header content ∧ header.type = fcgiEndRequest)
      (fun x hx ⟨header, content, hw, htype⟩ => by
        subst hw
        obtain ht | ht := mem_replyOpening hx <;> rw [ht] at htype <;> cases htype)
      (fun x hx ⟨header, content, hw, _⟩ => by
        subst hw
        obtain hx | hx := List.mem_cons.mp hx
        · cases hx
        · rcases hrest _ hx with hx | hx <;> cases hx)
      ⟨header, content, rfl, htype⟩ hes
    obtain ⟨rfl, hw, rfl⟩ := hplace
    cases hw
    rw [hid]
    refine .inl ⟨e.ptr, rest, rfl, ?_⟩
    rw [account_append, halive]
    refine foldl_alive (by simp [replyOpening, wroteEvent]) fun header content hw htype => ?_
    obtain ht | ht := mem_replyOpening hw <;> rw [ht] at htype <;> cases htype
  · intro header content hw
    have hend : fcgiEndRequest ∈ writtenTypes := by decide
    obtain ht | ht | ht := wrote_mem_replyEvents hrest hw
    · rw [ht]
      decide
    · rw [ht]
      decide
    · rw [ht]
      exact hend

end Reply

/-- What `handleNewPacket` answers by itself, it answers under a proper type,
and with an end record only to a begin-request for an unsupported role. -/
theorem Connection.Answer.type_mem {r r' : Nat} {t t' : UInt8} {content body : Bytes}
    (h : Answer r t content r' t' body) :
    t' ∈ writtenTypes ∧ (t' = fcgiEndRequest → r' = r ∧ t = fcgiBeginRequest ∧
      FcgiBeginRequestBody.size ≤ content.length ∧
      (FcgiBeginRequestBody.cast content).role ≠ fcgiResponder ∧
      bufferRecords r' t' body = [(fragmentHeader r t' body.length, body)]) := by
  cases h with
  | getValues => exact ⟨by decide, fun h => by cases h⟩
  | unknownRole ht hlen hrole =>
      exact ⟨by decide, fun _ => ⟨rfl, ht, hlen, hrole,
        bufferRecords_short r _ (by decide)⟩⟩
  | unknownType => exact ⟨by decide, fun h => by cases h⟩

/-- **One step** keeps the accounts, if it is not the abort of a request, no
begin-request for an unsupported role meets its id in the map, and the socket
does not fail. -/
theorem Life.ledger (h : Life st d st' d' es) (hledger : Ledger d t)
    (hok : ∀ x ∈ es, x.isSocketError = false)
    (habort : ∀ r content, .newPacket r fcgiAbortRequest content ∉ es)
    (hrole : ∀ r content, .newPacket r fcgiBeginRequest content ∈ es →
      FcgiBeginRequestBody.size ≤ content.length →
        (FcgiBeginRequestBody.cast content).role ≠ fcgiResponder → d.requestMap[r]? = none) :
    Ledger d' (t ++ es) := by
  cases h with
  | silent => exact hledger.silent (fun _ _ => rfl) rfl (by simp) (by simp) (by simp)
  | @edited r ptr change =>
      exact hledger.silent (fun r' ptr' => d.isValidRequest_edit r' r ptr' ptr change)
        (d.nextPtr_edit r ptr change) (by simp) (by simp) (by simp)
  | rejected => exact hledger.silent (fun _ _ => rfl) rfl (by simp) (by simp) (by simp)
  | @answered r r' t' t'' content body hc hr ha =>
      have hwrote : ∀ header content', .wrote header content' ∈ .newPacket r t' content ::
          (bufferRecords r' t'' body).map wroteEvent → header.type = t'' := by
        intro header content' hw
        obtain hw | hw := List.mem_cons.mp hw
        · cases hw
        · exact (mem_answer hw).1
      refine hledger.same (fun _ _ => rfl) rfl (by simp [wroteEvent]) (by simp [wroteEvent]) ?_
        fun header content' hw => hwrote header content' hw ▸ ha.type_mem.1
      intro before header content' after hes htype
      have htype' := hwrote header content' (by rw [hes]; simp)
      rw [htype] at htype'
      obtain ⟨rfl, rfl, hlen, hunknown, hrecords⟩ := ha.type_mem.2 htype'.symm
      have hnone := hrole r' content List.mem_cons_self hlen hunknown
      -- the answer is one record, right behind the packet
      rw [hrecords, List.map_singleton, ← List.singleton_append] at hes
      obtain ⟨rfl, hw, _⟩ := eq_of_append_cons_eq (P := fun x => ∃ h c, x = .wrote h c)
        (fun x hx hw => by
          obtain ⟨_, _, hw⟩ := hw
          rw [List.mem_singleton, hw] at hx
          cases hx) (by simp) ⟨header, content', rfl⟩ hes
      cases hw
      have hid : (fragmentHeader r' t'' body.length).requestId = r' := two_octets hr
      rw [hid]
      exact ⟨hnone, t, content, rfl, hlen, hunknown⟩
  | @abortUnknown r content => exact absurd List.mem_cons_self (habort r content)
  | @failed before x n _ _ hx =>
      have hfalse := hok x (by simp)
      rw [hx] at hfalse
      cases hfalse
  | began hr _ _ hnone => exact hledger.began hr hnone
  | beganLast _ hr _ _ hnone => exact hledger.began hr hnone
  | @received r _ _ _ f =>
      exact hledger.silent (fun r' ptr => d.isValidRequest_modifyEntry r' r ptr f) rfl (by simp)
        (by simp) (by simp)
  | @receivedReady r _ _ _ f =>
      exact hledger.silent (fun r' ptr => d.isValidRequest_modifyEntry r' r ptr f) rfl (by simp)
        (by simp) (by simp)
  | @left r e before _ he hleaves _ =>
      cases hleaves with
      | @abort content => exact absurd List.mem_cons_self (habort r content)
      | reply =>
          have hreplied := hledger.replied (d.erase r) [] he
            (fun r' ptr hin => by
              rw [ConnectionData.isValidRequest_erase, Bool.and_eq_true, bne_iff_ne] at hin
              exact ⟨hin.1.symm, hin.2⟩) rfl (by simp)
          simpa [replyEvents, replyOpening, map_replyRecords] using hreplied
  | @leftLast r e before _ he hleaves _ =>
      cases hleaves with
      | @abort content => exact absurd List.mem_cons_self (habort r content)
      | reply =>
          have hreplied := hledger.replied (d.erase r).clear [.cleared 0, .closeCallback] he
            (fun r' ptr hin => by simp at hin) rfl (by simp)
          simpa [replyEvents, replyOpening, map_replyRecords] using hreplied

/-! ## Runs -/

namespace Strand

variable {fs : List (Option Nat)} {u : Nat → BitVec 32}
    {tr : List (Fired Strand Step)} {s : Strand}

/-- The next packet is an abort, or a begin-request for an unsupported role
under an id that is in use. -/
def MisplacesEnd (s : Strand) (l : Step) : Prop :=
  l = .nextPacket ∧ ∃ header content,
    NextRecord s.connection.socket.inputBuffer header content ∧
      (header.type = fcgiAbortRequest ∨
        header.type = fcgiBeginRequest ∧ FcgiBeginRequestBody.size ≤ content.length ∧
          (FcgiBeginRequestBody.cast content).role ≠ fcgiResponder ∧
          s.connection.data.requestMap[header.requestId]? ≠ none)

theorem ledger_init (fs : List (Option Nat)) (u : Nat → BitVec 32) :
    Ledger (init fs u).connection.data [] where
  alive := by
    intro r ptr h
    simp [ConnectionData.isValidRequest, init, Connection.start, Connection.init, setSocket] at h
  unborn := fun _ _ _ => rfl
  accounting :=
    { one_end := nofun
      purpose := fun _ _ _ _ h => by simp at h
      types := nofun }

/-- **End records.**  In a run without socket errors in which no abort is
handled, and no begin-request for an unsupported role under an id in use,
every entry that left the request map had one end record under its id while it
was in it, every end record ends an entry or answers an unsupported role, and
every record has one of the types a server writes. -/
theorem end_accounting (h : machine.Run (init fs u) tr s)
    (hok : ∀ x ∈ machine.trace tr, x.isSocketError = false)
    (hc : ∀ f ∈ tr, ¬ f.pre.MisplacesEnd f.label) : EndAccounting (machine.trace tr) := by
  have hledger := inv
    (fun s l => ¬ s.MisplacesEnd l ∧ ∀ x ∈ (machine.act l s).events, x.isSocketError = false)
    (fun t s => Ledger s.connection.data t) (ledger_init fs u)
    (fun t s l hwf hj he hc hm => by
      refine hm.life.ledger hj hc.2 ?_ ?_
      · intro r content hp
        obtain ⟨hl, header, hn, _, ht⟩ := hm.nextRecord hp
        exact hc.1 ⟨hl, header, content, hn, .inl ht⟩
      · intro r content hp hlen hrole
        obtain ⟨hl, header, hn, rfl, ht⟩ := hm.nextRecord hp
        by_contra hin
        exact hc.1 ⟨hl, header, content, hn, .inr ⟨ht, hlen, hrole, hin⟩⟩) h
    (fun f hf => ⟨hc f hf, fun x hx => hok x (Machine.mem_trace hf hx)⟩)
  exact hledger.accounting

/-- A request comes in whole and is answered: its entry leaves with the one end
record of its reply. -/
theorem end_accounting_replied :
    ∃ tr s, machine.Run (init [] fun _ => 0) tr s ∧ account 1 0 (machine.trace tr) = .left 1 ∧
      EndAccounting (machine.trace tr) := by
  obtain ⟨tr, s, hrun, hp⟩ := Machine.exists_run_of_exec machine (init [] fun _ => 0)
    [.handleRead false [1, 1, 0, 1, 0, 8, 0, 0, 0, 1, 1, 0, 0, 0, 0, 0,
      1, 4, 0, 1, 0, 0, 0, 0, 1, 5, 0, 1, 0, 0, 0, 0], .nextPacket, .nextPacket, .nextPacket,
      .nextPacket, .commitReply 1 0, .runTask]
    (fun tr _ => account 1 0 (machine.trace tr) = .left 1 &&
      (machine.trace tr).all (fun x => !x.isSocketError) &&
      tr.all fun f =>
        (FcgiHeader.cast f.pre.connection.socket.inputBuffer).type ≠ fcgiAbortRequest &&
        ((FcgiHeader.cast f.pre.connection.socket.inputBuffer).type ≠ fcgiBeginRequest ||
          f.pre.connection.data.size = 0)) (by decide)
  simp only [Bool.and_eq_true, Bool.or_eq_true, decide_eq_true_eq, List.all_eq_true,
    Bool.not_eq_true'] at hp
  refine ⟨tr, s, hrun, hp.1.1, end_accounting hrun hp.1.2 fun f hf hmis => ?_⟩
  obtain ⟨hnoAbort, hbegins⟩ := hp.2 f hf
  obtain ⟨_, header, content, hn, habort | ⟨hbegin, _, _, hin⟩⟩ := hmis
  · rw [hn.cast_eq] at hnoAbort
    exact hnoAbort habort
  · rw [hn.cast_eq] at hbegins
    obtain hne | hempty := hbegins
    · exact hne hbegin
    · exact hin ((ConnectionData.size_requestMap_eq_zero_iff _).mp hempty _)

/-- A request is begun and aborted: its entry leaves without an end record. -/
theorem end_accounting_abort :
    ∃ tr s, machine.Run (init [] fun _ => 0) tr s ∧
      (∀ x ∈ machine.trace tr, x.isSocketError = false) ∧
      account 1 0 (machine.trace tr) = .left 0 ∧ ¬ EndAccounting (machine.trace tr) := by
  obtain ⟨tr, s, hrun, hp⟩ := Machine.exists_run_of_exec machine (init [] fun _ => 0)
    [.handleRead false [1, 1, 0, 1, 0, 8, 0, 0, 0, 1, 1, 0, 0, 0, 0, 0,
      1, 2, 0, 1, 0, 0, 0, 0], .nextPacket, .nextPacket]
    (fun tr _ => (machine.trace tr).all (fun x => !x.isSocketError) &&
      account 1 0 (machine.trace tr) = .left 0) (by decide)
  simp only [Bool.and_eq_true, decide_eq_true_eq, List.all_eq_true, Bool.not_eq_true'] at hp
  refine ⟨tr, s, hrun, hp.1, hp.2, fun hok => ?_⟩
  have hone := hok.one_end 1 0 0 hp.2
  contradiction

end Strand

end Santiago
