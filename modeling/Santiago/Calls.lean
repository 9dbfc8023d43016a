import Santiago.ConnectionData

/-!
# Santiago.Calls

Any sequence of calls of the functions of `ConnectionData`, by callers that
catch what they throw.  What a call does to an entry of the map is a function
of that entry alone, which is why the requests of one connection do not meet:
`requests_independent` takes the calls of one id out of any mixture and gets
the same answers, the same notifications and the same entry.
-/

namespace Santiago

open Effect Bytes Std

/-- The entry with what `receiveStdin` or `receiveParams` makes of it. -/
def Entry.change (e : Entry) (f : RequestState → RequestData → RequestState × RequestData) :
    Entry where
  state := (f e.state e.data).1
  ptr := e.ptr
  data := (f e.state e.data).2

namespace ConnectionData

/-! ## Calls -/

/-- The functions that take an id. -/
inductive Call where
  | handleBeginRequest (requestId : Nat)
  | handleAbortRequest (requestId : Nat)
  | handleStdin (requestId : Nat) (inBuffer : Bytes)
  | handleParams (requestId : Nat) (inBuffer : Bytes)
  | cleanupRequest (requestId : Nat)
deriving DecidableEq

namespace Call

/-- The id that the function is called with. -/
def requestId : Call → Nat
  | .handleBeginRequest r => r
  | .handleAbortRequest r => r
  | .handleStdin r _ => r
  | .handleParams r _ => r
  | .cleanupRequest r => r

/-- The call. -/
def run : Call → Act Event ConnectionData (Option Callback)
  | .handleBeginRequest r => ConnectionData.handleBeginRequest r
  | .handleAbortRequest r => ConnectionData.handleAbortRequest r
  | .handleStdin r bs => ConnectionData.handleStdin r bs
  | .handleParams r bs => ConnectionData.handleParams r bs
  | .cleanupRequest r => ConnectionData.cleanupRequest r

end Call

/-- `_requestReadyCallbackFn`, bound so that it can be seen. -/
def announce : Option Callback → Act Event ConnectionData Unit
  | some (.requestReady requestId e) => Act.emit (.requestReady requestId e.ptr e.data)
  | some .empty => pure ()
  | none => pure ()

/-- The calls in any order.  Only the entry of a ready request is cleaned up:
`commitReplyImpl` does it behind a reply, and only a ready request gets one. -/
def calls : Machine Event ConnectionData Call where
  enabled d
    | .cleanupRequest r => d.requestMap[r]?.any Entry.ready
    | _ => true
  act c := do announce (← c.run)

/-! ## What a call does -/

/-- What the call throws when it finds this entry under its id. -/
def Call.refusal : Call → Option Entry → Option String
  | .handleBeginRequest _, some _ => some "requestId already exists"
  | .handleBeginRequest _, none => none
  | .handleAbortRequest _, none => some "abort requestId does not exist"
  | .handleAbortRequest _, some _ => none
  | .handleStdin _ _, none => some "stdin requestId does not exist"
  | .handleStdin _ _, some e =>
      if e.state &&& inCompleted ≠ 0 then some "stdin already closed" else none
  | .handleParams _ _, none => some "params requestId does not exist"
  | .handleParams _ _, some e =>
      if e.state &&& paramsCompleted ≠ 0 then some "params already closed" else none
  | .cleanupRequest _, none => some "requestId does not exist"
  | .cleanupRequest _, some _ => none

/-- What an accepted call makes of the entry; `new` is the one a begin stores. -/
def Call.effect (new : Entry) : Call → Option Entry → Option Entry
  | .handleBeginRequest _, _ => some new
  | .handleAbortRequest _, _ => none
  | .handleStdin _ bs, e => e.map (·.change (receiveStdin bs))
  | .handleParams _ bs, e => e.map (·.change (receiveParams bs))
  | .cleanupRequest _, _ => none

/-- The entry an accepted call announces. -/
def Call.announced : Call → Option Entry → Option Entry
  | .handleStdin _ bs, e => (e.map (·.change (receiveStdin bs))).filter Entry.ready
  | .handleParams _ bs, e => (e.map (·.change (receiveParams bs))).filter Entry.ready
  | _, _ => none

/-- How many objects an accepted call allocates. -/
def Call.allocates : Call → Nat
  | .handleBeginRequest _ => 1
  | _ => 0

/-- The entry `handleBeginRequest` stores. -/
def newEntry (d : ConnectionData) : Entry :=
  ⟨0, d.nextPtr, RequestData.new (d.uninitialized d.nextPtr)⟩

/-- The objects announced by some events, each under its id. -/
def announcements (es : List Event) : List (Nat × Nat × RequestData) :=
  es.filterMap fun x => match x with
    | .requestReady r ptr data => some (r, ptr, data)
    | _ => none

/-- A call of the function throws and does nothing, or changes its own entry. -/
inductive Called (d : ConnectionData) (c : Call) : Outcome Event ConnectionData Unit → Prop
  | refused {what : String} : c.refusal d.requestMap[c.requestId]? = some what →
      Called d c ⟨.throw what, d, []⟩
  | accepted {d' : ConnectionData} {es : List Event} :
      c.refusal d.requestMap[c.requestId]? = none →
      (∀ r : Nat, d'.requestMap[r]? =
        if c.requestId = r then c.effect d.newEntry d.requestMap[c.requestId]?
        else d.requestMap[r]?) →
      d'.nextPtr = d.nextPtr + c.allocates →
      announcements es = (c.announced d.requestMap[c.requestId]?).toList.map
        (fun e => (c.requestId, e.ptr, e.data)) →
      Called d c ⟨.ret (), d', es⟩

/-- The events of `announce`. -/
def announceEvents : Option Callback → List Event
  | some (.requestReady requestId e) => [.requestReady requestId e.ptr e.data]
  | some .empty => []
  | none => []

/-- The announcement changes nothing. -/
theorem announce_run (callback : Option Callback) (d : ConnectionData) :
    announce callback d = ⟨.ret (), d, announceEvents callback⟩ := by
  match callback with
  | some (.requestReady requestId e) => rfl
  | some .empty => rfl
  | none => rfl

/-- The callback for emptiness announces nothing. -/
theorem announcements_emptyCallback (d : ConnectionData) :
    announcements (announceEvents d.emptyCallback) = [] := by
  unfold emptyCallback
  split <;> rfl

/-- The callback for a ready entry announces it. -/
theorem announcements_readyCallback {d : ConnectionData} {r : Nat} {e : Entry}
    (he : d.requestMap[r]? = some e) : announcements (announceEvents (d.readyCallback r)) =
      ((some e).filter Entry.ready).toList.map fun e => (r, e.ptr, e.data) := by
  unfold readyCallback
  rw [he, Option.filter_some]
  dsimp only
  split <;> rfl

/-- A call that throws announces nothing. -/
theorem act_of_throw {d : ConnectionData} {c : Call} {what : String}
    (h : c.run d = ⟨.throw what, d, []⟩) : calls.act c d = ⟨.throw what, d, []⟩ :=
  Act.bind_of_throw h

/-- A call that returns announces what its callback says. -/
theorem act_of_ret {d d' : ConnectionData} {c : Call} {callback : Option Callback}
    {es : List Event} (h : c.run d = ⟨.ret callback, d', es⟩) :
    calls.act c d = ⟨.ret (), d', es ++ announceEvents callback⟩ := by
  have hact := Act.bind_of_ret (f := announce) h
  rw [announce_run] at hact
  exact hact

/-- A call that throws, for what its function does. -/
theorem called_of_throw {d : ConnectionData} {c : Call} {what : String}
    (hrefusal : c.refusal d.requestMap[c.requestId]? = some what)
    (h : c.run d = ⟨.throw what, d, []⟩) : Called d c (calls.act c d) := by
  rw [act_of_throw h]
  exact .refused hrefusal

/-- An erasing call, for what its function does. -/
theorem called_of_erase {d : ConnectionData} {c : Call} {r : Nat} {e : Entry}
    (hid : c.requestId = r) (hrefusal : c.refusal d.requestMap[r]? = none)
    (heffect : ∀ new o, c.effect new o = none) (hannounced : ∀ o, c.announced o = none)
    (hallocates : c.allocates = 0)
    (h : c.run d = ⟨.ret (d.erase r).emptyCallback, d.erase r, [.erased r e.ptr]⟩) :
    Called d c (calls.act c d) := by
  subst hid
  rw [act_of_ret h]
  refine .accepted hrefusal (fun r' => ?_) (by rw [hallocates]; rfl) ?_
  · rw [getElem?_erase, heffect]
  · rw [hannounced]
    exact announcements_emptyCallback _

/-- A receiving call, for what its function does. -/
theorem called_of_receive {d : ConnectionData} {c : Call} {r : Nat} {e : Entry}
    {f : RequestState → RequestData → RequestState × RequestData} (hid : c.requestId = r)
    (he : d.requestMap[r]? = some e) (hrefusal : c.refusal (some e) = none)
    (heffect : ∀ new, c.effect new (some e) = some (e.change f))
    (hannounced : c.announced (some e) = (some (e.change f)).filter Entry.ready)
    (hallocates : c.allocates = 0)
    (h : c.run d = ⟨.ret ((d.modifyEntry r f).readyCallback r), d.modifyEntry r f, []⟩) :
    Called d c (calls.act c d) := by
  subst hid
  have hentry : (d.modifyEntry c.requestId f).requestMap[c.requestId]? = some (e.change f) := by
    rw [getElem?_modifyEntry, if_pos rfl, he]
    rfl
  rw [act_of_ret h]
  refine .accepted (by rw [he, hrefusal]) (fun r' => ?_) (by rw [hallocates]; rfl) ?_
  · rw [getElem?_modifyEntry, he, heffect]
    rfl
  · rw [he, hannounced]
    exact announcements_readyCallback hentry

/-- Every begin. -/
theorem called_handleBeginRequest (d : ConnectionData) (r : Nat) :
    Called d (.handleBeginRequest r) (calls.act (.handleBeginRequest r) d) := by
  have hrun := handleBeginRequest_run d r
  cases he : d.requestMap[r]? with
  | none =>
      simp only [he, Option.isSome_none, Bool.false_eq_true, if_false] at hrun
      rw [act_of_ret (c := .handleBeginRequest r) hrun]
      refine .accepted (by rw [Call.requestId, he]; rfl) (fun r' => ?_) rfl rfl
      rw [getElem?_insertNew]
      rfl
  | some e =>
      simp only [he, Option.isSome_some, if_true] at hrun
      exact called_of_throw (by rw [Call.requestId, he]; rfl) hrun

/-- Every abort. -/
theorem called_handleAbortRequest (d : ConnectionData) (r : Nat) :
    Called d (.handleAbortRequest r) (calls.act (.handleAbortRequest r) d) := by
  have hrun := handleAbortRequest_run d r
  cases he : d.requestMap[r]? with
  | none =>
      simp only [he] at hrun
      exact called_of_throw (by rw [Call.requestId, he]; rfl) hrun
  | some e =>
      simp only [he] at hrun
      exact called_of_erase rfl (by rw [Call.requestId, he]; rfl) (fun _ _ => rfl)
        (fun _ => rfl) rfl hrun

/-- Every piece of STDIN. -/
theorem called_handleStdin (d : ConnectionData) (r : Nat) (bs : Bytes) :
    Called d (.handleStdin r bs) (calls.act (.handleStdin r bs) d) := by
  have hrun := handleStdin_run d r bs
  cases he : d.requestMap[r]? with
  | none =>
      simp only [he] at hrun
      exact called_of_throw (by rw [Call.requestId, he]; rfl) hrun
  | some e =>
      simp only [he] at hrun
      by_cases hbit : e.state &&& inCompleted ≠ 0
      · rw [if_pos hbit] at hrun
        exact called_of_throw (by rw [Call.requestId, he, Call.refusal, if_pos hbit]) hrun
      · rw [if_neg hbit] at hrun
        exact called_of_receive rfl he (by rw [Call.refusal, if_neg hbit]) (fun _ => rfl) rfl
          rfl hrun

/-- Every piece of PARAMS. -/
theorem called_handleParams (d : ConnectionData) (r : Nat) (bs : Bytes) :
    Called d (.handleParams r bs) (calls.act (.handleParams r bs) d) := by
  have hrun := handleParams_run d r bs
  cases he : d.requestMap[r]? with
  | none =>
      simp only [he] at hrun
      exact called_of_throw (by rw [Call.requestId, he]; rfl) hrun
  | some e =>
      simp only [he] at hrun
      by_cases hbit : e.state &&& paramsCompleted ≠ 0
      · rw [if_pos hbit] at hrun
        exact called_of_throw (by rw [Call.requestId, he, Call.refusal, if_pos hbit]) hrun
      · rw [if_neg hbit] at hrun
        exact called_of_receive rfl he (by rw [Call.refusal, if_neg hbit]) (fun _ => rfl) rfl
          rfl hrun

/-- A clean-up that passes its assertion throws or erases. -/
theorem called_cleanupRequest {d : ConnectionData} {r : Nat}
    (hbit : ∀ e : Entry, d.requestMap[r]? = some e → e.state &&& inCompleted ≠ 0) :
    Called d (.cleanupRequest r) (calls.act (.cleanupRequest r) d) := by
  have hrun := cleanupRequest_run d r
  cases he : d.requestMap[r]? with
  | none =>
      simp only [he] at hrun
      exact called_of_throw (by rw [Call.requestId, he]; rfl) hrun
  | some e =>
      simp only [he, if_pos (hbit e he)] at hrun
      exact called_of_erase rfl (by rw [Call.requestId, he]; rfl) (fun _ _ => rfl)
        (fun _ => rfl) rfl hrun

/-- Any call that does not fail its assertion. -/
theorem called_of_survives {d : ConnectionData} {c : Call} (hv : calls.survives d c = true) :
    Called d c (calls.act c d) := by
  cases c with
  | handleBeginRequest r => exact called_handleBeginRequest d r
  | handleAbortRequest r => exact called_handleAbortRequest d r
  | handleStdin r bs => exact called_handleStdin d r bs
  | handleParams r bs => exact called_handleParams d r bs
  | cleanupRequest r =>
      refine called_cleanupRequest fun e he => ?_
      intro hbit
      have hrun := cleanupRequest_run d r
      simp only [he, if_neg (not_not_intro hbit)] at hrun
      have habort := Act.bind_of_abort (f := announce) hrun
      exact Machine.survives_iff.mp hv _ (congrArg Outcome.exit habort)

/-- Every call a caller may make. -/
theorem called {d : ConnectionData} {c : Call} (hen : calls.enabled d c = true) :
    Called d c (calls.act c d) := by
  cases c with
  | handleBeginRequest r => exact called_handleBeginRequest d r
  | handleAbortRequest r => exact called_handleAbortRequest d r
  | handleStdin r bs => exact called_handleStdin d r bs
  | handleParams r bs => exact called_handleParams d r bs
  | cleanupRequest r =>
      refine called_cleanupRequest fun e he => ?_
      have hready : d.requestMap[r]?.any Entry.ready = true := hen
      rw [he, Option.any_some, Entry.ready, Bool.and_eq_true, decide_eq_true_eq,
        decide_eq_true_eq] at hready
      exact hready.2

/-- None of these calls fails an assertion. -/
theorem Called.ne_abort {d : ConnectionData} {c : Call} {out : Outcome Event ConnectionData Unit}
    (h : Called d c out) (what : String) : out.exit ≠ .abort what := by
  cases h with
  | refused => simp
  | accepted => simp

/-- So the process goes on behind each of them. -/
theorem survives_calls {d : ConnectionData} {c : Call} (hen : calls.enabled d c = true) :
    calls.survives d c = true :=
  Machine.survives_iff.mpr fun what => (called hen).ne_abort what

/-! ## Requests do not meet -/

/-- What came in for a request. -/
structure Streams where
  in_ : Bytes
  paramsBuffer : Bytes
  paramsMap : ParamsMap

/-- The streams of an object, and the parameters parsed of them. -/
def streams (data : RequestData) : Streams where
  in_ := data.in_
  paramsBuffer := data.paramsBuffer
  paramsMap := data.paramsMap

/-- What the calls have made of an entry.  The address of the object and the
status nobody has set are the allocator's. -/
structure Received where
  state : RequestState
  streams : Streams

/-- What came in for an entry. -/
def received (e : Entry) : Received where
  state := e.state
  streams := streams e.data

/-- What the map holds under an id. -/
def receivedAt (d : ConnectionData) (r : Nat) : Option Received :=
  d.requestMap[r]?.map received

section Congr

variable {e e' new new' : Entry} {o o' : Option Entry}

/-- Entries that received the same are ready together. -/
theorem ready_congr (h : received e = received e') : e.ready = e'.ready := by
  have hstate : e.state = e'.state := congrArg Received.state h
  rw [Entry.ready, Entry.ready, hstate]

/-- The same STDIN keeps them the same. -/
theorem received_receiveStdin (h : received e = received e') (bs : Bytes) :
    received (e.change (receiveStdin bs)) = received (e'.change (receiveStdin bs)) := by
  simp only [received, streams, Received.mk.injEq, Streams.mk.injEq] at h
  obtain ⟨hstate, hin, hbuffer, hmap⟩ := h
  unfold receiveStdin Entry.change received streams
  dsimp only
  split
  · simp [hstate, hin, hbuffer, hmap]
  · simp [hstate, hin, hbuffer, hmap]

/-- And the same PARAMS. -/
theorem received_receiveParams (h : received e = received e') (bs : Bytes) :
    received (e.change (receiveParams bs)) = received (e'.change (receiveParams bs)) := by
  simp only [received, streams, Received.mk.injEq, Streams.mk.injEq] at h
  obtain ⟨hstate, hin, hbuffer, hmap⟩ := h
  unfold receiveParams Entry.change received streams
  dsimp only
  split
  · simp [RequestData.parseFCGIParams, hstate, hin, hbuffer, hmap]
  · simp [hstate, hin, hbuffer, hmap]

/-- Two ids that hold the same hold nothing, or entries that received the same. -/
theorem map_received_cases (h : o.map received = o'.map received) :
    o = none ∧ o' = none ∨ ∃ e e', o = some e ∧ o' = some e' ∧
      received e = received e' := by
  cases o with
  | none =>
      cases o' with
      | none => exact .inl ⟨rfl, rfl⟩
      | some e' => cases h
  | some e =>
      cases o' with
      | none => cases h
      | some e' => exact .inr ⟨e, e', rfl, rfl, Option.some.inj h⟩

/-- A call is refused for what was received, and for nothing else. -/
theorem Call.refusal_congr (c : Call) (h : o.map received = o'.map received) :
    c.refusal o = c.refusal o' := by
  obtain ⟨rfl, rfl⟩ | ⟨e, e', rfl, rfl, he⟩ := map_received_cases h
  · rfl
  · have hstate : e.state = e'.state := congrArg Received.state he
    cases c <;> simp only [Call.refusal, hstate]

/-- What a call makes of an entry depends on what was received. -/
theorem Call.effect_congr (c : Call) (hnew : received new = received new')
    (h : o.map received = o'.map received) :
    (c.effect new o).map received = (c.effect new' o').map received := by
  obtain ⟨rfl, rfl⟩ | ⟨e, e', rfl, rfl, he⟩ := map_received_cases h
  · cases c with
    | handleBeginRequest => exact congrArg some hnew
    | _ => rfl
  · cases c with
    | handleBeginRequest => exact congrArg some hnew
    | handleStdin _ bs => exact congrArg some (received_receiveStdin he bs)
    | handleParams _ bs => exact congrArg some (received_receiveParams he bs)
    | handleAbortRequest => rfl
    | cleanupRequest => rfl

/-- What is announced when it is ready, of two entries that received the same. -/
theorem filter_ready_congr (h : received e = received e') :
    ((some e).filter Entry.ready).map received = ((some e').filter Entry.ready).map received := by
  rw [Option.filter_some, Option.filter_some, ready_congr h]
  split
  · exact congrArg some h
  · rfl

/-- What a call announces depends on what was received. -/
theorem Call.announced_congr (c : Call) (h : o.map received = o'.map received) :
    (c.announced o).map received = (c.announced o').map received := by
  obtain ⟨rfl, rfl⟩ | ⟨e, e', rfl, rfl, he⟩ := map_received_cases h
  · cases c <;> rfl
  · cases c with
    | handleStdin _ bs => exact filter_ready_congr (received_receiveStdin he bs)
    | handleParams _ bs => exact filter_ready_congr (received_receiveParams he bs)
    | _ => rfl

/-- A caller that holds what another one holds may make the calls it may make. -/
theorem enabled_congr {d d' : ConnectionData} {c : Call} (heq : d.receivedAt c.requestId =
    d'.receivedAt c.requestId) (hen : calls.enabled d c = true) : calls.enabled d' c = true := by
  cases c with
  | cleanupRequest r =>
      have hen : d.requestMap[r]?.any Entry.ready = true := hen
      show d'.requestMap[r]?.any Entry.ready = true
      obtain ⟨ho, ho'⟩ | ⟨e, e', ho, ho', he⟩ := map_received_cases heq
      · rw [Call.requestId] at ho
        rw [ho] at hen
        cases hen
      · rw [Call.requestId] at ho ho'
        rw [ho, Option.any_some] at hen
        rw [ho', Option.any_some, ← ready_congr he, hen]
  | _ => rfl

end Congr

/-- What can be seen of one id. -/
inductive Seen where
  /-- A call with the id returned, or threw this. -/
  | answer (exit : Exit Unit)
  /-- The ready callback was called for the id. -/
  | ready (data : Streams)

/-- What a call shows of the id `r`. -/
def seenOf (r : Nat) (f : Fired ConnectionData Call) : List Seen :=
  (if f.label.requestId = r then [.answer (calls.act f.label f.pre).exit] else []) ++
    ((announcements (calls.observed f)).filter fun x => x.1 = r).map
      fun x => .ready (streams x.2.2)

/-- A call with another id shows nothing of this one and leaves its entry alone. -/
theorem Called.other {d : ConnectionData} {c : Call} {out : Outcome Event ConnectionData Unit}
    {r : Nat} (h : Called d c out) (hne : c.requestId ≠ r) :
    out.state.receivedAt r = d.receivedAt r ∧
      (announcements out.events).filter (fun x => x.1 = r) = [] := by
  cases h with
  | refused => exact ⟨rfl, rfl⟩
  | accepted _ hlookup _ hes =>
      constructor
      · rw [receivedAt, hlookup, if_neg hne]
        rfl
      · rw [hes]
        cases c.announced d.requestMap[c.requestId]? with
        | none => rfl
        | some e => simp [hne]

/-- What a call with the id makes of the entry, and of what is seen, depends on
what was received under the id and on nothing else. -/
theorem Called.same {d d' : ConnectionData} {c : Call} {r : Nat}
    {out out' : Outcome Event ConnectionData Unit} (h : Called d c out) (h' : Called d' c out')
    (hid : c.requestId = r) (heq : d.receivedAt r = d'.receivedAt r) :
    out'.exit = out.exit ∧ out.state.receivedAt r = out'.state.receivedAt r ∧
      ((announcements out'.events).filter fun x => x.1 = r).map (fun x => streams x.2.2) =
        ((announcements out.events).filter fun x => x.1 = r).map fun x => streams x.2.2 := by
  subst hid
  have hrefusal := c.refusal_congr heq
  cases h with
  | refused hwhat =>
      cases h' with
      | refused hwhat' =>
          rw [hrefusal, hwhat'] at hwhat
          obtain rfl := Option.some.inj hwhat
          exact ⟨rfl, heq, rfl⟩
      | accepted hnone =>
          rw [hrefusal, hnone] at hwhat
          cases hwhat
  | accepted hnone hlookup _ hes =>
      cases h' with
      | refused hwhat' =>
          rw [hrefusal, hwhat'] at hnone
          cases hnone
      | accepted _ hlookup' _ hes' =>
          have hannounced := c.announced_congr heq
          refine ⟨rfl, ?_, ?_⟩
          · rw [receivedAt, receivedAt, hlookup, hlookup', if_pos rfl, if_pos rfl]
            exact c.effect_congr rfl heq
          · rw [hes, hes']
            obtain ⟨ho, ho'⟩ | ⟨e, e', ho, ho', he⟩ := map_received_cases hannounced
            · rw [ho, ho']
            · have hstreams : streams e.data = streams e'.data := congrArg Received.streams he
              rw [ho, ho']
              simp [hstreams]

/-- **Requests do not meet**: in any mixture of calls for any ids, the calls
with the id `r` get the answers, the ready callback for `r` gets the requests,
and the map is left with the entry, that they get when they are made alone. -/
theorem requests_independent {u u' : Nat → BitVec 32} {tr : List (Fired ConnectionData Call)}
    {d : ConnectionData} (h : calls.Run (init u) tr d) (r : Nat) :
    ∃ tr' d', calls.exec (init u')
        ((tr.map Fired.label).filter fun c => c.requestId = r) = some (tr', d') ∧
      tr'.flatMap (seenOf r) = tr.flatMap (seenOf r) ∧ d'.receivedAt r = d.receivedAt r := by
  have hother : ∀ (d d' : ConnectionData) (c : Call), d.receivedAt r = d'.receivedAt r →
      calls.enabled d c = true → True → decide (c.requestId = r) = false →
      (calls.act c d).state.receivedAt r = d'.receivedAt r ∧ seenOf r ⟨d, c⟩ = [] := by
    intro d d' c heq hen _ hp
    have hne : c.requestId ≠ r := of_decide_eq_false hp
    obtain ⟨hentry, hnil⟩ := (called hen).other hne
    refine ⟨hentry.trans heq, ?_⟩
    rw [seenOf, if_neg hne, Machine.observed, hnil]
    rfl
  have hsame : ∀ (d d' : ConnectionData) (c : Call), d.receivedAt r = d'.receivedAt r →
      calls.enabled d c = true → calls.survives d c = true → True →
      decide (c.requestId = r) = true → calls.enabled d' c = true ∧
        calls.survives d' c = true ∧
        (calls.act c d).state.receivedAt r = (calls.act c d').state.receivedAt r ∧
        seenOf r ⟨d', c⟩ = seenOf r ⟨d, c⟩ := by
    intro d d' c heq hen _ _ hp
    have hid : c.requestId = r := of_decide_eq_true hp
    have hen' : calls.enabled d' c = true := enabled_congr (hid ▸ heq) hen
    obtain ⟨hexit, hentry, hstreams⟩ := (called hen).same (called hen') hid heq
    refine ⟨hen', survives_calls hen', hentry, ?_⟩
    have hready := congrArg (List.map Seen.ready) hstreams
    rw [List.map_map, List.map_map] at hready
    rw [seenOf, seenOf, if_pos hid, if_pos hid]
    show [Seen.answer (calls.act c d').exit] ++ _ = [Seen.answer (calls.act c d).exit] ++ _
    rw [hexit]
    exact congrArg _ hready
  have hinit : (init u).receivedAt r = (init u').receivedAt r := by
    rw [receivedAt, receivedAt, requestMap_init, requestMap_init]
  have hproject : ∃ tr' d', calls.Run (init u') tr' d' ∧ tr'.map Fired.label =
      (tr.map Fired.label).filter (fun c => c.requestId = r) ∧
      tr'.flatMap (seenOf r) = tr.flatMap (seenOf r) ∧ d.receivedAt r = d'.receivedAt r :=
    h.project _ (fun _ _ => True) (fun d d' => d.receivedAt r = d'.receivedAt r) _ hinit hother
      hsame fun _ _ => trivial
  obtain ⟨tr', d', hrun, hlabels, hseen, hentry⟩ := hproject
  refine ⟨tr', d', ?_, hseen, hentry.symm⟩
  rw [← hlabels]
  exact Machine.exec_of_run hrun

/-- Two requests, one of them answered before the other one is complete, and a
packet that comes too late. -/
def mixture : List Call :=
  [.handleBeginRequest 1, .handleBeginRequest 2, .handleParams 1 [], .handleStdin 2 [5],
    .handleStdin 1 [7], .handleStdin 1 [], .cleanupRequest 1, .handleStdin 1 [3]]

/-- The first of the two requests, alone and in the mixture. -/
theorem requests_independent_mixture :
    ∃ tr d, calls.Run (init fun _ => 0) tr d ∧ tr.map Fired.label = mixture ∧
      ∃ tr' d', calls.exec (init fun _ => 1)
          ((tr.map Fired.label).filter fun c => c.requestId = 1) = some (tr', d') ∧
        tr'.flatMap (seenOf 1) = tr.flatMap (seenOf 1) ∧ d'.receivedAt 1 = d.receivedAt 1 := by
  obtain ⟨tr, d, hrun, hlabels⟩ := Machine.exists_run_of_exec calls (init fun _ => 0) mixture
    (fun tr _ => tr.map Fired.label = mixture) (by decide)
  exact ⟨tr, d, hrun, of_decide_eq_true hlabels, requests_independent hrun 1⟩

end ConnectionData

end Santiago
