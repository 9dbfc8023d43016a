import Santiago.Calls

/-!
# Santiago.Ready

When a request is handed to the user.  The two bits of an entry are closed in
either order, and every data packet ends with a look at them; an object is
announced by the packet that closes the second stream, with all that came in,
and no packet can change what it holds from then on.
-/

namespace Santiago

open Effect Bytes Std

/-! ## The two bits -/

/-- One of the two streams is closed. -/
def Entry.halfReady (e : Entry) : Bool :=
  (e.state &&& paramsCompleted ≠ 0) != (e.state &&& inCompleted ≠ 0 : Bool)

theorem or_and_bits (state bit mask : RequestState) :
    (state ||| bit) &&& mask = (state &&& mask) ||| (bit &&& mask) := by
  apply UInt8.eq_of_toBitVec_eq
  ext i hi
  simp [Bool.and_or_distrib_right]

/-- Closing one stream sets its bit and leaves the other one alone. -/
theorem inCompleted_or (state : RequestState) :
    (state ||| inCompleted) &&& paramsCompleted = state &&& paramsCompleted ∧
      (state ||| inCompleted) &&& inCompleted ≠ 0 := by
  rw [or_and_bits, or_and_bits]
  constructor
  · have hbits : inCompleted &&& paramsCompleted = 0 := by decide
    rw [hbits, UInt8.or_zero]
  · rw [UInt8.and_self, Ne, UInt8.or_eq_zero_iff]
    simp [inCompleted]

theorem paramsCompleted_or (state : RequestState) :
    (state ||| paramsCompleted) &&& inCompleted = state &&& inCompleted ∧
      (state ||| paramsCompleted) &&& paramsCompleted ≠ 0 := by
  rw [or_and_bits, or_and_bits]
  constructor
  · have hbits : paramsCompleted &&& inCompleted = 0 := by decide
    rw [hbits, UInt8.or_zero]
  · rw [UInt8.and_self, Ne, UInt8.or_eq_zero_iff]
    simp [paramsCompleted]

namespace ConnectionData

/-! ## What an open stream does to its object -/

/-- The function that puts a stream call's bytes into the object. -/
def Call.receive : Call → Option (RequestState → RequestData → RequestState × RequestData)
  | .handleStdin _ bs => some (receiveStdin bs)
  | .handleParams _ bs => some (receiveParams bs)
  | _ => none

/-- What a call brings of the request's stdin. -/
def Call.stdin : Call → Bytes
  | .handleStdin _ bs => bs
  | _ => []

/-- What a call brings of the request's params. -/
def Call.params : Call → Bytes
  | .handleParams _ bs => bs
  | _ => []

/-- The object of the entry, when just this came in for it. -/
structure Holds (e : Entry) (stdin params : Bytes) : Prop where
  in_eq : e.data.in_ = stdin
  paramsBuffer_eq : e.data.paramsBuffer = params
  paramsMap_eq : e.data.paramsMap =
    if e.state &&& paramsCompleted ≠ 0 then parsePairs params (params.length % 2 ^ 32) ∅
    else ∅

section Receive

variable {c : Call} {e : Entry} {f : RequestState → RequestData → RequestState × RequestData}

/-- A stream call is accepted where its stream is open. -/
theorem receive_cases (hf : c.receive = some f) (hrefusal : c.refusal (some e) = none) :
    (∃ r bs, c = .handleStdin r bs ∧ f = receiveStdin bs ∧ e.state &&& inCompleted = 0) ∨
      ∃ r bs, c = .handleParams r bs ∧ f = receiveParams bs ∧
        e.state &&& paramsCompleted = 0 := by
  cases c with
  | handleStdin r bs =>
      obtain rfl := Option.some.inj hf
      by_cases hbit : e.state &&& inCompleted = 0
      · exact .inl ⟨r, bs, rfl, rfl, hbit⟩
      · rw [Call.refusal, if_pos hbit] at hrefusal
        cases hrefusal
  | handleParams r bs =>
      obtain rfl := Option.some.inj hf
      by_cases hbit : e.state &&& paramsCompleted = 0
      · exact .inr ⟨r, bs, rfl, rfl, hbit⟩
      · rw [Call.refusal, if_pos hbit] at hrefusal
        cases hrefusal
  | handleBeginRequest => cases hf
  | handleAbortRequest => cases hf
  | cleanupRequest => cases hf

theorem not_ready_of_receive (hf : c.receive = some f) (hrefusal : c.refusal (some e) = none) :
    e.ready = false := by
  obtain ⟨_, _, _, _, hbit⟩ | ⟨_, _, _, _, hbit⟩ := receive_cases hf hrefusal
  · simp [Entry.ready, hbit]
  · simp [Entry.ready, hbit]

/-- An accepted call that makes an entry ready closes the second stream. -/
theorem halfReady_of_receive (hf : c.receive = some f) (hrefusal : c.refusal (some e) = none)
    (hready : (e.change f).ready = true) : e.halfReady = true := by
  obtain ⟨r, bs, rfl, rfl, hbit⟩ | ⟨r, bs, rfl, rfl, hbit⟩ := receive_cases hf hrefusal
  · cases bs with
    | nil =>
        obtain ⟨hother, _⟩ := inCompleted_or e.state
        have hparams : e.state &&& paramsCompleted ≠ 0 := by
          rw [← hother]
          simp only [Entry.ready, Entry.change, receiveStdin, List.length_nil, if_true,
            Bool.and_eq_true, decide_eq_true_eq] at hready
          exact hready.1
        simp [Entry.halfReady, hbit, hparams]
    | cons b bs =>
        simp [Entry.ready, Entry.change, receiveStdin, hbit] at hready
  · cases bs with
    | nil =>
        obtain ⟨hother, _⟩ := paramsCompleted_or e.state
        have hin : e.state &&& inCompleted ≠ 0 := by
          rw [← hother]
          simp only [Entry.ready, Entry.change, receiveParams, List.length_nil, if_true,
            Bool.and_eq_true, decide_eq_true_eq] at hready
          exact hready.2
        simp [Entry.halfReady, hbit, hin]
    | cons b bs =>
        simp [Entry.ready, Entry.change, receiveParams, hbit] at hready

/-- An accepted call puts its bytes behind the earlier ones. -/
theorem Holds.receive {stdin params : Bytes} (h : Holds e stdin params) (hf : c.receive = some f)
    (hrefusal : c.refusal (some e) = none) :
    Holds (e.change f) (stdin ++ c.stdin) (params ++ c.params) := by
  obtain ⟨hin, hbuffer, hmap⟩ := h
  obtain ⟨r, bs, rfl, rfl, hbit⟩ | ⟨r, bs, rfl, rfl, hbit⟩ := receive_cases hf hrefusal
  · cases bs with
    | nil =>
        obtain ⟨hother, _⟩ := inCompleted_or e.state
        constructor
        · simp [Entry.change, receiveStdin, Call.stdin, hin]
        · simp [Entry.change, receiveStdin, Call.params, hbuffer]
        · simp only [Entry.change, receiveStdin, List.length_nil, if_true, Call.params,
            List.append_nil, hother, hmap]
    | cons b bs =>
        constructor
        · simp [Entry.change, receiveStdin, Call.stdin, hin]
        · simp [Entry.change, receiveStdin, Call.params, hbuffer]
        · simp [Entry.change, receiveStdin, Call.params, hmap]
  · rw [if_neg (by simp [hbit])] at hmap
    cases bs with
    | nil =>
        obtain ⟨_, hset⟩ := paramsCompleted_or e.state
        constructor
        · simp [Entry.change, receiveParams, RequestData.parseFCGIParams, Call.stdin, hin]
        · simp [Entry.change, receiveParams, RequestData.parseFCGIParams, Call.params, hbuffer]
        · simp [Entry.change, receiveParams, RequestData.parseFCGIParams, Call.params, hset,
            hbuffer, hmap]
    | cons b bs =>
        constructor
        · simp [Entry.change, receiveParams, Call.stdin, hin]
        · simp [Entry.change, receiveParams, Call.params, hbuffer]
        · simp [Entry.change, receiveParams, hbit, hmap]

end Receive

/-! ## Any sequence of calls -/

/-- A call of any function of the class that changes the map; `size()` and
`isValidRequest()` only look at it. -/
inductive AnyCall where
  | of (c : Call)
  | clear
deriving DecidableEq

namespace AnyCall

def run : AnyCall → Act Event ConnectionData (Option Callback)
  | .of c => c.run
  | .clear => do
      Act.modify (·.clear)
      pure none

/-- The id that the call is made with. -/
def requestId : AnyCall → Option Nat
  | .of c => some c.requestId
  | .clear => none

/-- What the call brings of its request's stdin. -/
def stdin : AnyCall → Bytes
  | .of c => c.stdin
  | .clear => []

/-- What the call brings of its request's params. -/
def params : AnyCall → Bytes
  | .of c => c.params
  | .clear => []

end AnyCall

/-- The calls in any order, by callers that may make each of them at any time:
any entry may be cleaned up, as long as the assertion there holds. -/
def anyCalls : Machine Event ConnectionData AnyCall where
  enabled _ _ := true
  act l := do announce (← l.run)

/-! ## What a call does to one object -/

/-- The call found the object under its id and returned. -/
def AcceptedFor (ptr : Nat) (f : Fired ConnectionData AnyCall) : Prop :=
  f.label.requestId.any (fun r => f.pre.isValidRequest r ptr) = true ∧
    (anyCalls.act f.label f.pre).exit = .ret ()

instance (ptr : Nat) (f : Fired ConnectionData AnyCall) : Decidable (AcceptedFor ptr f) :=
  inferInstanceAs (Decidable (_ ∧ _))

/-- An accepted call finds the object in the entry of its id. -/
theorem AcceptedFor.ptr_eq {ptr : Nat} {d : ConnectionData} {c : Call}
    (h : AcceptedFor ptr ⟨d, .of c⟩) {e : Entry} (he : d.requestMap[c.requestId]? = some e) :
    e.ptr = ptr := by
  obtain ⟨e', he', hptr⟩ := isValidRequest_iff.mp h.1
  rw [he, Option.some.injEq] at he'
  exact he' ▸ hptr

/-- A call that returns and finds the object is accepted for it. -/
theorem AcceptedFor.of_entry {ptr : Nat} {f : Fired ConnectionData AnyCall} {r : Nat} {e : Entry}
    (hid : f.label.requestId = some r) (he : f.pre.requestMap[r]? = some e) (hptr : e.ptr = ptr)
    (hexit : (anyCalls.act f.label f.pre).exit = .ret ()) : AcceptedFor ptr f := by
  refine ⟨?_, hexit⟩
  rw [hid, Option.any_some]
  exact isValidRequest_iff.mpr ⟨e, he, hptr⟩

/-- What the call brought the object of its stdin. -/
def stdinFor (ptr : Nat) (f : Fired ConnectionData AnyCall) : Bytes :=
  if AcceptedFor ptr f then f.label.stdin else []

/-- What the call brought the object of its params. -/
def paramsFor (ptr : Nat) (f : Fired ConnectionData AnyCall) : Bytes :=
  if AcceptedFor ptr f then f.label.params else []

/-- The announcements of one object. -/
def told (ptr : Nat) (es : List Event) : List (Nat × Nat × RequestData) :=
  (announcements es).filter fun x => x.2.1 = ptr

theorem told_append (ptr : Nat) (es es' : List Event) :
    told ptr (es ++ es') = told ptr es ++ told ptr es' := by
  simp [told, announcements]

theorem mem_told {r ptr : Nat} {data : RequestData} {es : List Event} :
    (r, ptr, data) ∈ told ptr es ↔ (r, ptr, data) ∈ announcements es := by
  simp [told]

/-- What a call does to the object `ptr`. -/
inductive CalledFor (ptr : Nat) (f : Fired ConnectionData AnyCall) : Prop
  /-- The call threw, or it was for another object, or it cleared the map. -/
  | other : ¬ AcceptedFor ptr f → told ptr (anyCalls.observed f) = [] →
      (∀ (r : Nat) (e : Entry), e.ptr = ptr → (anyCalls.post f).requestMap[r]? = some e →
        f.pre.requestMap[r]? = some e ∨ e = f.pre.newEntry) → CalledFor ptr f
  /-- The object received the call's bytes. -/
  | received {c : Call} {e : Entry}
      {g : RequestState → RequestData → RequestState × RequestData} : f.label = .of c →
      AcceptedFor ptr f → f.pre.requestMap[c.requestId]? = some e → e.ptr = ptr →
      c.receive = some g → c.refusal (some e) = none →
      (∀ (r : Nat) (e' : Entry), e'.ptr = ptr → (anyCalls.post f).requestMap[r]? = some e' →
        r = c.requestId ∧ e' = e.change g) →
      (anyCalls.post f).requestMap[c.requestId]? = some (e.change g) →
      told ptr (anyCalls.observed f) =
        (if (e.change g).ready then [(c.requestId, ptr, (e.change g).data)] else []) →
      CalledFor ptr f
  /-- The object was taken out of the map. -/
  | erased : AcceptedFor ptr f → f.label.stdin = [] → f.label.params = [] →
      told ptr (anyCalls.observed f) = [] →
      (∀ (r : Nat) (e : Entry), e.ptr = ptr → (anyCalls.post f).requestMap[r]? ≠ some e) →
      CalledFor ptr f

/-- An accepted call finds no entry and begins one, or finds one and receives
for it or erases it. -/
theorem effect_cases {c : Call} {o : Option Entry} (h : c.refusal o = none) (new : Entry) :
    (o = none ∧ c.effect new o = some new ∧ c.announced o = none) ∨
    (∃ e f, o = some e ∧ c.receive = some f ∧ c.effect new o = some (e.change f) ∧
      c.announced o = (some (e.change f)).filter Entry.ready) ∨
    ∃ e, o = some e ∧ c.effect new o = none ∧ c.announced o = none ∧ c.stdin = [] ∧
      c.params = [] := by
  cases o with
  | none =>
      cases c with
      | handleBeginRequest r => exact .inl ⟨rfl, rfl, rfl⟩
      | handleAbortRequest r => cases h
      | handleStdin r bs => cases h
      | handleParams r bs => cases h
      | cleanupRequest r => cases h
  | some e =>
      cases c with
      | handleBeginRequest r => cases h
      | handleAbortRequest r => exact .inr (.inr ⟨e, rfl, rfl, rfl, rfl, rfl⟩)
      | handleStdin r bs => exact .inr (.inl ⟨e, _, rfl, rfl, rfl, rfl⟩)
      | handleParams r bs => exact .inr (.inl ⟨e, _, rfl, rfl, rfl, rfl⟩)
      | cleanupRequest r => exact .inr (.inr ⟨e, rfl, rfl, rfl, rfl, rfl⟩)

section CalledFor

variable {d d' : ConnectionData} {c : Call} {o' : Option Entry}
  (hlookup : ∀ r : Nat, d'.requestMap[r]? = if c.requestId = r then o' else d.requestMap[r]?)
include hlookup

/-- What a call leaves under another id, or under its own. -/
theorem post_cases {r : Nat} {e : Entry} (he : d'.requestMap[r]? = some e) :
    c.requestId = r ∧ o' = some e ∨ c.requestId ≠ r ∧ d.requestMap[r]? = some e := by
  rw [hlookup] at he
  split at he
  · next hid => exact .inl ⟨hid, he⟩
  · next hid => exact .inr ⟨hid, he⟩

/-- An object is stored under one id only. -/
theorem requestId_of_ptr {e e' : Entry} (he : d.requestMap[c.requestId]? = some e)
    {r : Nat} (he' : d'.requestMap[r]? = some e') (hptr : e.ptr = e'.ptr) :
    c.requestId = r ∧ o' = some e' := by
  obtain hown | ⟨hid, hpre⟩ := post_cases hlookup he'
  · exact hown
  · exact absurd (d.ptr_inj _ _ _ _ he hpre hptr) hid

end CalledFor

/-- A call that received for its entry, seen from any object. -/
theorem calledFor_of_receive (ptr : Nat) {d : ConnectionData} {c : Call} {e : Entry}
    {g : RequestState → RequestData → RequestState × RequestData}
    (he : d.requestMap[c.requestId]? = some e) (hg : c.receive = some g)
    (hrefusal : c.refusal (some e) = none) (hexit : (anyCalls.act (.of c) d).exit = .ret ())
    (hlookup : ∀ r : Nat, (anyCalls.post ⟨d, .of c⟩).requestMap[r]? =
      if c.requestId = r then some (e.change g) else d.requestMap[r]?)
    (hannounced : announcements (anyCalls.observed ⟨d, .of c⟩) =
      ((some (e.change g)).filter Entry.ready).toList.map
        fun e => (c.requestId, e.ptr, e.data)) : CalledFor ptr ⟨d, .of c⟩ := by
  have hsame : (e.change g).ptr = e.ptr := rfl
  by_cases hptr : e.ptr = ptr
  · refine .received rfl (.of_entry rfl he hptr hexit) he hptr hg hrefusal ?_ ?_ ?_
    · intro r e' hptr' he'
      obtain ⟨hid, hchange⟩ := requestId_of_ptr hlookup he he' (hptr.trans hptr'.symm)
      exact ⟨hid.symm, (Option.some.inj hchange).symm⟩
    · rw [hlookup, if_pos rfl]
    · rw [told, hannounced, Option.filter_some]
      split <;> simp [hsame, hptr]
  · refine .other ?_ ?_ ?_
    · exact fun haccepted => hptr (haccepted.ptr_eq he)
    · rw [told, hannounced, Option.filter_some]
      split <;> simp [hsame, hptr]
    · intro r e' hptr' he'
      obtain ⟨_, hchange⟩ | ⟨_, hpre⟩ := post_cases hlookup he'
      · rw [← hptr', ← Option.some.inj hchange, hsame] at hptr
        exact absurd rfl hptr
      · exact .inl hpre

/-- A call that erased its entry, seen from any object. -/
theorem calledFor_of_erase (ptr : Nat) {d : ConnectionData} {c : Call} {e : Entry}
    (he : d.requestMap[c.requestId]? = some e) (hstdin : c.stdin = []) (hparams : c.params = [])
    (hexit : (anyCalls.act (.of c) d).exit = .ret ())
    (hlookup : ∀ r : Nat, (anyCalls.post ⟨d, .of c⟩).requestMap[r]? =
      if c.requestId = r then none else d.requestMap[r]?)
    (hquiet : told ptr (anyCalls.observed ⟨d, .of c⟩) = []) : CalledFor ptr ⟨d, .of c⟩ := by
  by_cases hptr : e.ptr = ptr
  · refine .erased (.of_entry rfl he hptr hexit) hstdin hparams hquiet ?_
    intro r e' hptr' he'
    obtain ⟨_, hnone⟩ := requestId_of_ptr hlookup he he' (hptr.trans hptr'.symm)
    cases hnone
  · refine .other ?_ hquiet ?_
    · exact fun haccepted => hptr (haccepted.ptr_eq he)
    · intro r e' _ he'
      obtain ⟨_, hnone⟩ | ⟨_, hpre⟩ := post_cases hlookup he'
      · cases hnone
      · exact .inl hpre

/-- A call of one of the functions that take an id, seen from any object. -/
theorem Called.calledFor (ptr : Nat) {d : ConnectionData} {c : Call}
    (h : Called d c (anyCalls.act (.of c) d)) : CalledFor ptr ⟨d, .of c⟩ := by
  generalize hout : anyCalls.act (.of c) d = out at h
  have hpost : anyCalls.post ⟨d, .of c⟩ = out.state := congrArg Outcome.state hout
  have hobserved : anyCalls.observed ⟨d, .of c⟩ = out.events := congrArg Outcome.events hout
  have hexit : (anyCalls.act (.of c) d).exit = out.exit := congrArg Outcome.exit hout
  cases h with
  | refused hwhat =>
      refine .other ?_ ?_ ?_
      · intro haccepted
        rw [AcceptedFor, hexit] at haccepted
        cases haccepted.2
      · rw [hobserved]
        rfl
      · intro r e _ he
        rw [hpost] at he
        exact .inl he
  | @accepted d' es hnone hlookup _ hes =>
      dsimp only at hpost hobserved hexit
      rw [← hpost] at hlookup
      rw [← hobserved] at hes
      obtain ⟨ho, heffect, hannounced⟩ | ⟨e, g, ho, hg, heffect, hannounced⟩ |
        ⟨e, ho, heffect, hannounced, hstdin, hparams⟩ := effect_cases hnone d.newEntry
      · rw [heffect] at hlookup
        rw [hannounced] at hes
        refine .other ?_ ?_ ?_
        · intro haccepted
          obtain ⟨e, he, _⟩ := isValidRequest_iff.mp haccepted.1
          rw [ho] at he
          cases he
        · rw [told, hes]
          rfl
        · intro r e _ he
          obtain ⟨_, hnew⟩ | ⟨_, hpre⟩ := post_cases hlookup he
          · exact .inr (Option.some.inj hnew).symm
          · exact .inl hpre
      · rw [heffect] at hlookup
        rw [hannounced] at hes
        exact calledFor_of_receive ptr ho hg (ho ▸ hnone) hexit hlookup hes
      · rw [heffect] at hlookup
        rw [hannounced] at hes
        exact calledFor_of_erase ptr ho hstdin hparams hexit hlookup (by rw [told, hes]; rfl)

/-- Any call that does not fail its assertion, seen from any object. -/
theorem calledFor (ptr : Nat) {f : Fired ConnectionData AnyCall}
    (hv : anyCalls.survives f.pre f.label = true) : CalledFor ptr f := by
  obtain ⟨d, l⟩ := f
  cases l with
  | of c => exact (called_of_survives hv).calledFor ptr
  | clear =>
      refine .other ?_ rfl ?_
      · intro haccepted
        cases haccepted.1
      · intro r e _ he
        have hnone : (∅ : RequestMap)[r]? = some e := he
        simp at hnone

/-- No call gives an address back. -/
theorem nextPtr_le_post {f : Fired ConnectionData AnyCall}
    (hv : anyCalls.survives f.pre f.label = true) :
      f.pre.nextPtr ≤ (anyCalls.post f).nextPtr := by
  obtain ⟨d, l⟩ := f
  cases l with
  | clear => exact Nat.le_refl d.nextPtr
  | of c =>
      have h : Called d c (anyCalls.act (.of c) d) := called_of_survives hv
      show d.nextPtr ≤ (anyCalls.act (.of c) d).state.nextPtr
      generalize anyCalls.act (.of c) d = out at h
      cases h with
      | refused => exact Nat.le_refl _
      | accepted _ _ hnext =>
          dsimp only
          omega

/-- An accepted call is for an object that was allocated. -/
theorem AcceptedFor.ptr_lt {ptr : Nat} {f : Fired ConnectionData AnyCall} (h : AcceptedFor ptr f) :
    ptr < f.pre.nextPtr := by
  obtain ⟨r, _, hvalid⟩ := (Option.any_eq_true _ _).mp h.1
  obtain ⟨e, he, rfl⟩ := isValidRequest_iff.mp hvalid
  exact f.pre.ptr_lt _ e he

/-! ## Runs -/

/-- What a run has told of the object `ptr`, and what the object holds behind it. -/
structure Told (ptr : Nat) (tr : List (Fired ConnectionData AnyCall)) (d : ConnectionData) :
    Prop where
  fresh : d.nextPtr ≤ ptr →
    tr.flatMap (stdinFor ptr) = [] ∧ tr.flatMap (paramsFor ptr) = [] ∧
      told ptr (anyCalls.trace tr) = []
  holds : ∀ (r : Nat) (e : Entry), d.requestMap[r]? = some e → e.ptr = ptr →
    Holds e (tr.flatMap (stdinFor ptr)) (tr.flatMap (paramsFor ptr)) ∧
      (e.ready = false → told ptr (anyCalls.trace tr) = [])
  once : (told ptr (anyCalls.trace tr)).length ≤ 1

theorem told_init (ptr : Nat) (u : Nat → BitVec 32) : Told ptr [] (init u) := by
  constructor
  · intro _
    exact ⟨rfl, rfl, rfl⟩
  · intro r e he
    rw [requestMap_init] at he
    simp at he
  · exact Nat.zero_le 1

theorem holds_newEntry (d : ConnectionData) : Holds d.newEntry [] [] := by
  constructor
  · rfl
  · rfl
  · rw [if_neg (by simp [newEntry])]
    rfl

/-- A new object is told of by nothing before it. -/
theorem Told.step {ptr : Nat} {tr : List (Fired ConnectionData AnyCall)}
    {f : Fired ConnectionData AnyCall} (h : Told ptr tr f.pre)
    (hv : anyCalls.survives f.pre f.label = true) : Told ptr (tr ++ [f]) (anyCalls.post f) := by
  have hnext := nextPtr_le_post hv
  have hstdin : (tr ++ [f]).flatMap (stdinFor ptr) =
      tr.flatMap (stdinFor ptr) ++ stdinFor ptr f := by
    simp
  have hparams : (tr ++ [f]).flatMap (paramsFor ptr) =
      tr.flatMap (paramsFor ptr) ++ paramsFor ptr f := by
    simp
  have htold : told ptr (anyCalls.trace (tr ++ [f])) =
      told ptr (anyCalls.trace tr) ++ told ptr (anyCalls.observed f) := by
    rw [Machine.trace_append, Machine.trace_singleton, told_append]
  cases calledFor ptr hv with
  | other haccepted hquiet hvtry =>
      rw [stdinFor, if_neg haccepted, List.append_nil] at hstdin
      rw [paramsFor, if_neg haccepted, List.append_nil] at hparams
      rw [hquiet, List.append_nil] at htold
      constructor
      · intro hle
        rw [hstdin, hparams, htold]
        exact h.fresh (hnext.trans hle)
      · intro r e he hptr
        rw [hstdin, hparams, htold]
        obtain hpre | rfl := hvtry r e hptr he
        · exact h.holds r e hpre hptr
        · obtain ⟨hin, hbuffer, hnone⟩ := h.fresh (Nat.le_of_eq hptr)
          rw [hin, hbuffer]
          exact ⟨holds_newEntry f.pre, fun _ => hnone⟩
      · rw [htold]
        exact h.once
  | @received c e g hl haccepted he hptr hg hrefusal hpost _ htells =>
      rw [stdinFor, if_pos haccepted, hl, AnyCall.stdin] at hstdin
      rw [paramsFor, if_pos haccepted, hl, AnyCall.params] at hparams
      obtain ⟨hholds, hquiet⟩ := h.holds _ e he hptr
      rw [hquiet (not_ready_of_receive hg hrefusal), List.nil_append, htells] at htold
      constructor
      · intro hle
        exact absurd haccepted.ptr_lt (Nat.not_lt.mpr (hnext.trans hle))
      · intro r e' he' hptr'
        obtain ⟨_, rfl⟩ := hpost r e' hptr' he'
        rw [hstdin, hparams, htold]
        refine ⟨hholds.receive hg hrefusal, fun hready => ?_⟩
        rw [hready]
        rfl
      · rw [htold]
        split <;> simp
  | erased haccepted hin hbuffer hquiet hpost =>
      rw [stdinFor, if_pos haccepted, hin, List.append_nil] at hstdin
      rw [paramsFor, if_pos haccepted, hbuffer, List.append_nil] at hparams
      rw [hquiet, List.append_nil] at htold
      constructor
      · intro hle
        exact absurd haccepted.ptr_lt (Nat.not_lt.mpr (hnext.trans hle))
      · intro r e he hptr
        exact absurd he (hpost r e hptr)
      · rw [htold]
        exact h.once

theorem told_of_run {u : Nat → BitVec 32} {tr : List (Fired ConnectionData AnyCall)}
    {d : ConnectionData} (h : anyCalls.Run (init u) tr d) (ptr : Nat) : Told ptr tr d := by
  induction h with
  | nil => exact told_init ptr u
  | step _ _ hv ih => exact ih.step hv

/-- The entry of the object was announced, and is what it was then. -/
def Announced (r ptr : Nat) (data : RequestData) (d : ConnectionData) : Prop :=
  ptr < d.nextPtr ∧ ∀ (r' : Nat) (e : Entry), d.requestMap[r']? = some e → e.ptr = ptr →
    r' = r ∧ e.ready = true ∧ e.data = data

/-- An announced object changes no more while it is in the map. -/
theorem Announced.step {r ptr : Nat} {data : RequestData} {f : Fired ConnectionData AnyCall}
    (h : Announced r ptr data f.pre) (hv : anyCalls.survives f.pre f.label = true) :
    Announced r ptr data (anyCalls.post f) := by
  obtain ⟨hlt, hvtry⟩ := h
  refine ⟨Nat.lt_of_lt_of_le hlt (nextPtr_le_post hv), fun r' e he hptr => ?_⟩
  cases calledFor ptr hv with
  | other _ _ hpost =>
      obtain hpre | rfl := hpost r' e hptr he
      · exact hvtry r' e hpre hptr
      · exact absurd hlt (Nat.not_lt.mpr (Nat.le_of_eq hptr))
  | received _ _ he₀ hptr₀ hg hrefusal _ _ _ =>
      obtain ⟨_, hready, _⟩ := hvtry _ _ he₀ hptr₀
      rw [not_ready_of_receive hg hrefusal] at hready
      cases hready
  | erased _ _ _ _ hpost => exact absurd he (hpost r' e hptr)

theorem announced_of_run {r ptr : Nat} {data : RequestData} {d₀ d : ConnectionData}
    {tr : List (Fired ConnectionData AnyCall)} (h0 : Announced r ptr data d₀)
    (h : anyCalls.Run d₀ tr d) : Announced r ptr data d := by
  induction h with
  | nil => exact h0
  | step _ _ hv ih => exact ih.step (f := ⟨_, _⟩) hv

/-- A ready entry takes no more data. -/
theorem refusal_of_ready {c : Call} {e : Entry} (hready : e.ready = true)
    (hc : ∃ f, c.receive = some f) : ∃ what, c.refusal (some e) = some what := by
  obtain ⟨f, hf⟩ := hc
  cases hrefusal : c.refusal (some e) with
  | none =>
      rw [not_ready_of_receive hf hrefusal] at hready
      cases hready
  | some what => exact ⟨what, rfl⟩

/-- The call returned, and with it the object under `r` has its second bit. -/
def SetsSecondBit (r ptr : Nat) (f : Fired ConnectionData AnyCall) : Prop :=
  f.label.requestId = some r ∧ (anyCalls.act f.label f.pre).exit = .ret () ∧
    ∃ e e' : Entry, f.pre.requestMap[r]? = some e ∧ e.ptr = ptr ∧ e.halfReady = true ∧
      (anyCalls.post f).requestMap[r]? = some e' ∧ e'.ptr = ptr ∧ e'.ready = true

/-- The object holds all that the calls brought it, parsed. -/
def HoldsAll (ptr : Nat) (tr : List (Fired ConnectionData AnyCall)) (data : RequestData) : Prop :=
  data.in_ = tr.flatMap (stdinFor ptr) ∧ data.paramsBuffer = tr.flatMap (paramsFor ptr) ∧
    data.paramsMap = parsePairs data.paramsBuffer (data.paramsBuffer.length % 2 ^ 32) ∅

/-- While the object is in the map it is `data`, and a stream call for its id
throws and changes nothing. -/
def Frozen (r ptr : Nat) (data : RequestData) (f : Fired ConnectionData AnyCall) : Prop :=
  ∀ e : Entry, f.pre.requestMap[r]? = some e → e.ptr = ptr →
    e.ready = true ∧ e.data = data ∧
      ∀ bs, f.label = .of (.handleStdin r bs) ∨ f.label = .of (.handleParams r bs) →
        ∃ what, (anyCalls.act f.label f.pre).exit = .throw what ∧ anyCalls.post f = f.pre

/-- A call announces an object exactly when it sets the second bit. -/
theorem announces_iff {r ptr : Nat} {f : Fired ConnectionData AnyCall}
    (hv : anyCalls.survives f.pre f.label = true) :
    (∃ data, (r, ptr, data) ∈ announcements (anyCalls.observed f)) ↔
      SetsSecondBit r ptr f := by
  constructor
  · rintro ⟨data, hmem⟩
    rw [← mem_told] at hmem
    cases calledFor ptr hv with
    | other _ hquiet _ =>
        rw [hquiet] at hmem
        cases hmem
    | @received c e g hl haccepted he hptr hg hrefusal _ hpost htells =>
        rw [htells] at hmem
        cases hready : (e.change g).ready with
        | true =>
            rw [hready, if_pos rfl, List.mem_singleton] at hmem
            obtain ⟨rfl, _⟩ := Prod.mk.inj hmem
            exact ⟨by rw [hl, AnyCall.requestId], haccepted.2, e, e.change g, he, hptr,
              halfReady_of_receive hg hrefusal hready, hpost, hptr, hready⟩
        | false =>
            rw [hready] at hmem
            cases hmem
    | erased _ _ _ hquiet _ =>
        rw [hquiet] at hmem
        cases hmem
  · rintro ⟨hid, hexit, e, e', he, hptr, hhalf, he', hptr', hready'⟩
    have haccepted : AcceptedFor ptr f := .of_entry hid he hptr hexit
    cases calledFor ptr hv with
    | other hnot _ _ => exact absurd haccepted hnot
    | @received c e₀ g _ _ he₀ _ hg hrefusal hall hpost htells =>
        obtain ⟨rfl, rfl⟩ := hall _ e' hptr' he'
        rw [hready', if_pos rfl] at htells
        exact ⟨(e₀.change g).data,
          mem_told.mp (by rw [htells]; exact List.mem_singleton_self _)⟩
    | erased _ _ _ _ hgone => exact absurd he' (hgone _ e' hptr')

/-- Stream calls for an announced object are refused. -/
theorem Announced.frozen {r ptr : Nat} {data : RequestData} {f : Fired ConnectionData AnyCall}
    (h : Announced r ptr data f.pre) (hv : anyCalls.survives f.pre f.label = true) :
    Frozen r ptr data f := by
  intro e he hptr
  obtain ⟨_, hready, hdata⟩ := h.2 r e he hptr
  refine ⟨hready, hdata, fun bs hlabel => ?_⟩
  obtain ⟨c, hl, hid, hreceive⟩ : ∃ c, f.label = .of c ∧ c.requestId = r ∧
      ∃ g, c.receive = some g := by
    obtain hlabel | hlabel := hlabel
    · exact ⟨_, hlabel, rfl, _, rfl⟩
    · exact ⟨_, hlabel, rfl, _, rfl⟩
  obtain ⟨what, hwhat⟩ := refusal_of_ready hready hreceive
  rw [hl] at hv
  have hcalled : Called f.pre c (anyCalls.act (.of c) f.pre) := called_of_survives hv
  have hpost : anyCalls.post f = (anyCalls.act (.of c) f.pre).state := by rw [Machine.post, hl]
  rw [hpost, hl]
  generalize anyCalls.act (.of c) f.pre = out at hcalled
  cases hcalled with
  | refused hwhat' => exact ⟨_, rfl, rfl⟩
  | accepted hnone =>
      rw [hid, he, hwhat] at hnone
      cases hnone

/-- What is announced holds all that came in, and is announced as it stays. -/
theorem Told.announced {r ptr : Nat} {tr : List (Fired ConnectionData AnyCall)}
    {f : Fired ConnectionData AnyCall} {data : RequestData} (h : Told ptr tr f.pre)
    (hv : anyCalls.survives f.pre f.label = true)
    (hmem : (r, ptr, data) ∈ announcements (anyCalls.observed f)) :
    HoldsAll ptr (tr ++ [f]) data ∧ Announced r ptr data (anyCalls.post f) := by
  rw [← mem_told] at hmem
  cases calledFor ptr hv with
  | other _ hquiet _ =>
      rw [hquiet] at hmem
      cases hmem
  | erased _ _ _ hquiet _ =>
      rw [hquiet] at hmem
      cases hmem
  | @received c e g _ haccepted he hptr hg hrefusal hall hpost htells =>
      cases hready : (e.change g).ready with
      | false =>
          rw [htells, hready] at hmem
          cases hmem
      | true =>
          rw [htells, hready, if_pos rfl, List.mem_singleton] at hmem
          simp only [Prod.mk.injEq, true_and] at hmem
          obtain ⟨rfl, rfl⟩ := hmem
          obtain ⟨⟨hin, hbuffer, hmap⟩, _⟩ := (h.step hv).holds _ _ hpost hptr
          have hbit : (e.change g).state &&& paramsCompleted ≠ 0 := by
            rw [Entry.ready, Bool.and_eq_true, decide_eq_true_eq] at hready
            exact hready.1
          rw [if_pos hbit, ← hbuffer] at hmap
          refine ⟨⟨hin, hbuffer, hmap⟩,
            Nat.lt_of_lt_of_le haccepted.ptr_lt (nextPtr_le_post hv), ?_⟩
          intro r' e' he' hptr'
          obtain ⟨rfl, rfl⟩ := hall r' e' hptr' he'
          exact ⟨rfl, hready, rfl⟩

/-- **Ready exactly once**: in any sequence of calls an object is announced at
most once, by the call that sets its second bit; it then holds all that came
in for it, and is left alone for as long as it is in the map. -/
theorem ready_once {u : Nat → BitVec 32} {tr : List (Fired ConnectionData AnyCall)}
    {d : ConnectionData} (h : anyCalls.Run (init u) tr d) (ptr : Nat) :
    (told ptr (anyCalls.trace tr)).length ≤ 1 ∧
      ∀ xs f ys, tr = xs ++ f :: ys → ∀ r,
        ((∃ data, (r, ptr, data) ∈ announcements (anyCalls.observed f)) ↔
          SetsSecondBit r ptr f) ∧
        ∀ data, (r, ptr, data) ∈ announcements (anyCalls.observed f) →
          HoldsAll ptr (xs ++ [f]) data ∧ ∀ g ∈ ys, Frozen r ptr data g := by
  refine ⟨(told_of_run h ptr).once, ?_⟩
  intro xs f ys htr r
  subst htr
  obtain ⟨hbefore, _, hv, hafter⟩ := h.split
  refine ⟨announces_iff hv, fun data hmem => ?_⟩
  obtain ⟨hholds, hannounced⟩ := (told_of_run hbefore ptr).announced hv hmem
  refine ⟨hholds, fun g hg => ?_⟩
  obtain ⟨_, _, _, hrun, _, hv'⟩ := hafter.fired hg
  exact (announced_of_run hannounced hrun).frozen hv'

/-- The mixture, then a request that is cleaned up with one stream open, and a
clean-up behind `clear()`, which throws. -/
def anyMixture : List AnyCall :=
  mixture.map .of ++ [.of (.handleBeginRequest 1), .of (.handleStdin 1 []),
    .of (.cleanupRequest 1), .clear, .of (.cleanupRequest 2)]

/-- The first object of the mixture is announced and then cleaned up. -/
theorem ready_once_mixture :
    ∃ tr d, anyCalls.Run (init fun _ => 0) tr d ∧ tr.map Fired.label = anyMixture ∧
      (told 0 (anyCalls.trace tr)).length = 1 ∧ (told 0 (anyCalls.trace tr)).length ≤ 1 ∧
      ∀ xs f ys, tr = xs ++ f :: ys → ∀ r,
        ((∃ data, (r, 0, data) ∈ announcements (anyCalls.observed f)) ↔
          SetsSecondBit r 0 f) ∧
        ∀ data, (r, 0, data) ∈ announcements (anyCalls.observed f) →
          HoldsAll 0 (xs ++ [f]) data ∧ ∀ g ∈ ys, Frozen r 0 data g := by
  obtain ⟨tr, d, hrun, hends⟩ := Machine.exists_run_of_exec anyCalls
    (init fun _ => 0) anyMixture
    (fun tr _ => tr.map Fired.label = anyMixture && (told 0 (anyCalls.trace tr)).length = 1)
    (by decide)
  rw [Bool.and_eq_true, decide_eq_true_eq, decide_eq_true_eq] at hends
  exact ⟨tr, d, hrun, hends.1, hends.2, ready_once hrun 0⟩

end ConnectionData

end Santiago
