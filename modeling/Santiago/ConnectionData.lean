import Santiago.Lib.Machine
import Santiago.RequestData

/-!
# Santiago.ConnectionData

The map of the requests alive on a connection.  An entry pairs the two
completion bits with a `RequestData` object; the object is identified by a
`ptr`, the address its `shared_ptr` and `weak_ptr`s hold.  `ConnectionData`
carries the proof that no two entries share an object and that the next
object is a new one, so a pointer comparison means what it says.

Every function of the class that calls one of the two callbacks does so as
its last action, so it returns the `Callback` and `Santiago.Connection`, which
bound them in its constructor, runs it.
-/

namespace Santiago

open Effect Bytes Std

/-! ## What can be observed of a connection -/

/-- The calls a connection makes to the socket and to the acceptor, with the
changes to its request map, in the order in which they happen. -/
inductive Event where
  /-- `handleNewPacket` is entered without an error code. -/
  | newPacket (requestId : Nat) (headerType : UInt8) (content : Bytes)
  /-- A record went out whole. -/
  | wrote (header : FcgiHeader) (content : Bytes)
  /-- A write failed after `sent` of the record. -/
  | writeError (sent : Bytes)
  /-- `handleRead` is entered with an error code on an open socket. -/
  | readError
  /-- `handleBeginRequest` stored a new object. -/
  | began (requestId ptr : Nat)
  /-- One entry was erased from the request map. -/
  | erased (requestId ptr : Nat)
  /-- `_data.clear()` ran on a map of this size. -/
  | cleared (size : Nat)
  /-- `sendReply` is entered for this object. -/
  | sendReply (requestId ptr : Nat)
  /-- `_newRequestCallbackFn`, with what the object holds at that moment. -/
  | requestReady (requestId ptr : Nat) (data : RequestData)
  /-- `_closeCallbackFn`. -/
  | closeCallback
deriving DecidableEq

/-! ## The request map -/

/-- `unsigned char` with two bits in use. -/
abbrev RequestState := UInt8

/-- The bit of a request whose STDIN has ended. -/
def inCompleted : RequestState := 1
/-- The bit of a request whose PARAMS have ended. -/
def paramsCompleted : RequestState := 2

/-- `pair<RequestState,RequestDataPtr>`: the bits, the pointer, and the object it points to. -/
structure Entry where
  state : RequestState
  ptr : Nat
  data : RequestData
deriving DecidableEq

/-- Both completion bits are set. -/
def Entry.ready (e : Entry) : Bool :=
  e.state &&& paramsCompleted ≠ 0 && e.state &&& inCompleted ≠ 0

/-- `std::map<uint, pair<RequestState,RequestDataPtr>>`, ordered by the id. -/
abbrev RequestMap := ExtTreeMap Nat Entry

/-- The class: its map, and the heap that the objects of its entries come from. -/
structure ConnectionData where
  requestMap : RequestMap
  /-- The address of the next `new RequestData()`. -/
  nextPtr : Nat
  /-- What the memory of each new object holds where no constructor writes. -/
  uninitialized : Nat → BitVec 32
  ptr_lt : ∀ (r : Nat) (e : Entry), requestMap[r]? = some e → e.ptr < nextPtr
  ptr_inj : ∀ (r₁ r₂ : Nat) (e₁ e₂ : Entry), requestMap[r₁]? = some e₁ →
    requestMap[r₂]? = some e₂ → e₁.ptr = e₂.ptr → r₁ = r₂

namespace ConnectionData

/-- The constructor: an empty map. -/
def init (uninitialized : Nat → BitVec 32) : ConnectionData where
  requestMap := ∅
  nextPtr := 0
  uninitialized := uninitialized
  ptr_lt := by simp
  ptr_inj := by simp

/-- `_requestMap[requestId_] = pair(0, new RequestData())`. -/
def insertNew (d : ConnectionData) (requestId : Nat) : ConnectionData where
  requestMap := d.requestMap.insert requestId
    ⟨0, d.nextPtr, RequestData.new (d.uninitialized d.nextPtr)⟩
  nextPtr := d.nextPtr + 1
  uninitialized := d.uninitialized
  ptr_lt := by
    intro r e h
    rw [ExtTreeMap.getElem?_insert] at h
    split at h
    · simp only [Option.some.injEq] at h
      subst h
      exact Nat.lt_succ_self _
    · exact Nat.lt_succ_of_lt (d.ptr_lt r e h)
  ptr_inj := by
    intro r₁ r₂ e₁ e₂ h₁ h₂ hp
    rw [ExtTreeMap.getElem?_insert] at h₁ h₂
    split at h₁ <;> split at h₂
    · next hc₁ hc₂ =>
        exact (LawfulEqCmp.eq_of_compare hc₁).symm.trans (LawfulEqCmp.eq_of_compare hc₂)
    · simp only [Option.some.injEq] at h₁
      subst h₁
      exact absurd hp (Nat.ne_of_gt (d.ptr_lt r₂ e₂ h₂))
    · simp only [Option.some.injEq] at h₂
      subst h₂
      exact absurd hp (Nat.ne_of_lt (d.ptr_lt r₁ e₁ h₁))
    · exact d.ptr_inj r₁ r₂ e₁ e₂ h₁ h₂ hp

/-- `_requestMap.erase(iter)`. -/
def erase (d : ConnectionData) (requestId : Nat) : ConnectionData where
  requestMap := d.requestMap.erase requestId
  nextPtr := d.nextPtr
  uninitialized := d.uninitialized
  ptr_lt := by
    intro r e h
    rw [ExtTreeMap.getElem?_erase] at h
    split at h
    · contradiction
    · exact d.ptr_lt r e h
  ptr_inj := by
    intro r₁ r₂ e₁ e₂ h₁ h₂ hp
    rw [ExtTreeMap.getElem?_erase] at h₁ h₂
    split at h₁ <;> split at h₂ <;> try contradiction
    exact d.ptr_inj r₁ r₂ e₁ e₂ h₁ h₂ hp

/-- Write through `iter`: the bits and the object change, the pointer stays. -/
def modifyEntry (d : ConnectionData) (requestId : Nat)
    (f : RequestState → RequestData → RequestState × RequestData) : ConnectionData where
  requestMap := d.requestMap.modify requestId
    fun e => ⟨(f e.state e.data).1, e.ptr, (f e.state e.data).2⟩
  nextPtr := d.nextPtr
  uninitialized := d.uninitialized
  ptr_lt := by
    intro r e h
    rw [ExtTreeMap.getElem?_modify] at h
    split at h
    · obtain ⟨e', he', rfl⟩ := Option.map_eq_some_iff.mp h
      exact d.ptr_lt requestId e' he'
    · exact d.ptr_lt r e h
  ptr_inj := by
    intro r₁ r₂ e₁ e₂ h₁ h₂ hp
    have lift : ∀ (r : Nat) (e : Entry), (d.requestMap.modify requestId
        fun e => ⟨(f e.state e.data).1, e.ptr, (f e.state e.data).2⟩)[r]? = some e →
        ∃ e' : Entry, d.requestMap[r]? = some e' ∧ e'.ptr = e.ptr := by
      intro r e h
      rw [ExtTreeMap.getElem?_modify] at h
      split at h
      · next hc =>
          obtain ⟨e', he', rfl⟩ := Option.map_eq_some_iff.mp h
          rw [← LawfulEqCmp.eq_of_compare hc]
          exact ⟨e', he', rfl⟩
      · exact ⟨e, h, rfl⟩
    obtain ⟨e₁', h₁', hp₁⟩ := lift r₁ e₁ h₁
    obtain ⟨e₂', h₂', hp₂⟩ := lift r₂ e₂ h₂
    exact d.ptr_inj r₁ r₂ e₁' e₂' h₁' h₂' (by rw [hp₁, hp₂, hp])

/-- `_requestMap.clear()`. -/
def clear (d : ConnectionData) : ConnectionData where
  requestMap := ∅
  nextPtr := d.nextPtr
  uninitialized := d.uninitialized
  ptr_lt := by simp
  ptr_inj := by simp

/-- Every connection allocates from one heap: what is below `address` is taken. -/
def allocateFrom (d : ConnectionData) (address : Nat) : ConnectionData where
  requestMap := d.requestMap
  nextPtr := max d.nextPtr address
  uninitialized := d.uninitialized
  ptr_lt r e h := Nat.lt_of_lt_of_le (d.ptr_lt r e h) (Nat.le_max_left _ _)
  ptr_inj := d.ptr_inj

@[simp] theorem requestMap_allocateFrom (d : ConnectionData) (address : Nat) :
    (d.allocateFrom address).requestMap = d.requestMap := rfl

/-- The next object lies behind what the others have taken. -/
theorem nextPtr_allocateFrom {d : ConnectionData} {address : Nat} (h : d.nextPtr ≤ address) :
    (d.allocateFrom address).nextPtr = address :=
  Nat.max_eq_right h

/-! ### Lookups after each change -/

/-- A new entry is found under its id, the others under theirs. -/
theorem getElem?_insertNew (d : ConnectionData) (r r' : Nat) :
    (d.insertNew r).requestMap[r']? =
      if r = r' then some ⟨0, d.nextPtr, RequestData.new (d.uninitialized d.nextPtr)⟩
      else d.requestMap[r']? := by
  simp [insertNew, ExtTreeMap.getElem?_insert]

/-- An erased entry is found no more, the others are. -/
theorem getElem?_erase (d : ConnectionData) (r r' : Nat) :
    (d.erase r).requestMap[r']? = if r = r' then none else d.requestMap[r']? := by
  simp [erase, ExtTreeMap.getElem?_erase]

/-- A change is found under its id only. -/
theorem getElem?_modifyEntry (d : ConnectionData) (r r' : Nat)
    (f : RequestState → RequestData → RequestState × RequestData) :
    (d.modifyEntry r f).requestMap[r']? =
      if r = r' then
        d.requestMap[r]?.map fun e => ⟨(f e.state e.data).1, e.ptr, (f e.state e.data).2⟩
      else d.requestMap[r']? := by
  simp [modifyEntry, ExtTreeMap.getElem?_modify]

/-- An empty map holds nothing under any id. -/
theorem size_requestMap_eq_zero_iff (d : ConnectionData) :
    d.requestMap.size = 0 ↔ ∀ r : Nat, d.requestMap[r]? = none := by
  rw [← ExtTreeMap.eq_empty_iff_size_eq_zero]
  constructor
  · intro h r
    rw [h]
    simp
  · intro h
    apply ExtTreeMap.ext_getElem?
    intro r
    rw [h r]
    simp

/-- A change of an entry that is then erased leaves no trace. -/
theorem erase_modifyEntry (d : ConnectionData) (r : Nat)
    (f : RequestState → RequestData → RequestState × RequestData) :
    (d.modifyEntry r f).erase r = d.erase r := by
  have hmap : ((d.modifyEntry r f).erase r).requestMap = (d.erase r).requestMap := by
    apply ExtTreeMap.ext_getElem?
    intro r'
    rw [getElem?_erase, getElem?_erase, getElem?_modifyEntry]
    split <;> rfl
  simp only [erase, modifyEntry, mk.injEq, and_self, and_true] at hmap ⊢
  exact hmap

/-- A change of a map that is then cleared leaves no trace. -/
@[simp] theorem clear_modifyEntry (d : ConnectionData) (r : Nat)
    (f : RequestState → RequestData → RequestState × RequestData) :
    (d.modifyEntry r f).clear = d.clear := rfl

/-- A map with a new entry is not empty. -/
theorem size_insertNew_ne_zero (d : ConnectionData) (r : Nat) :
    (d.insertNew r).requestMap.size ≠ 0 := by
  intro h
  have hr := (size_requestMap_eq_zero_iff _).mp h r
  rw [getElem?_insertNew, if_pos rfl] at hr
  contradiction

/-- A change of an entry makes no map empty. -/
theorem size_modifyEntry_eq_zero_iff (d : ConnectionData) (r : Nat)
    (f : RequestState → RequestData → RequestState × RequestData) :
    (d.modifyEntry r f).requestMap.size = 0 ↔ d.requestMap.size = 0 := by
  rw [size_requestMap_eq_zero_iff, size_requestMap_eq_zero_iff]
  constructor
  · intro h r'
    have hr := h r'
    rw [getElem?_modifyEntry] at hr
    split at hr
    · next heq =>
        subst heq
        simpa using hr
    · exact hr
  · intro h r'
    rw [getElem?_modifyEntry, h r, h r']
    split <;> rfl

/-- A cleared map is empty. -/
@[simp] theorem requestMap_clear (d : ConnectionData) : d.clear.requestMap = ∅ := rfl

/-- A new map is empty. -/
@[simp] theorem requestMap_init (u : Nat → BitVec 32) : (init u).requestMap = ∅ := rfl

/-- A new entry takes one address. -/
@[simp] theorem nextPtr_insertNew (d : ConnectionData) (r : Nat) :
    (d.insertNew r).nextPtr = d.nextPtr + 1 := rfl

@[simp] theorem nextPtr_erase (d : ConnectionData) (r : Nat) : (d.erase r).nextPtr = d.nextPtr :=
  rfl

@[simp] theorem nextPtr_modifyEntry (d : ConnectionData) (r : Nat)
    (f : RequestState → RequestData → RequestState × RequestData) :
    (d.modifyEntry r f).nextPtr = d.nextPtr := rfl

@[simp] theorem nextPtr_clear (d : ConnectionData) : d.clear.nextPtr = d.nextPtr := rfl

/-! ## The functions of the class -/

/-- A call of `_requestReadyCallbackFn` or `_emptyCallbackFn`. -/
inductive Callback where
  | requestReady (requestId : Nat) (e : Entry)
  | empty

/-- `checkForEmptyRequestMap()`. -/
def checkForEmptyRequestMap : Act Event ConnectionData (Option Callback) := do
  let d ← Act.get
  pure (if d.requestMap.size = 0 then some .empty else none)

/-- `checkForRequestReady(iter)`. -/
def checkForRequestReady (requestId : Nat) : Act Event ConnectionData (Option Callback) := do
  let d ← Act.get
  match d.requestMap[requestId]? with
  | none => pure none
  | some e => pure (if e.ready then some (.requestReady requestId e) else none)

/-- A new entry, unless its id is in use. -/
def handleBeginRequest (requestId : Nat) : Act Event ConnectionData (Option Callback) := do
  let d ← Act.get
  if d.requestMap[requestId]?.isSome then
    Act.throw "requestId already exists"
  else do
    Act.modify (·.insertNew requestId)
    Act.emit (.began requestId d.nextPtr)
    pure none

/-- The entry is erased; the callback is made when it was the last one. -/
def handleAbortRequest (requestId : Nat) : Act Event ConnectionData (Option Callback) := do
  let d ← Act.get
  match d.requestMap[requestId]? with
  | none => Act.throw "abort requestId does not exist"
  | some e => do
      Act.modify (·.erase requestId)
      Act.emit (.erased requestId e.ptr)
      checkForEmptyRequestMap

/-- What `handleStdin` does to an open entry. -/
def receiveStdin (inBuffer : Bytes) (state : RequestState) (data : RequestData) :
    RequestState × RequestData :=
  if inBuffer.length = 0 then
    (state ||| inCompleted, data)
  else
    (state, { data with in_ := data.in_ ++ inBuffer })

/-- STDIN of an entry that still takes it, and the look at the two bits behind
it. -/
def handleStdin (requestId : Nat) (inBuffer : Bytes) :
    Act Event ConnectionData (Option Callback) := do
  let d ← Act.get
  match d.requestMap[requestId]? with
  | none => Act.throw "stdin requestId does not exist"
  | some e =>
      if e.state &&& inCompleted ≠ 0 then
        Act.throw "stdin already closed"
      else do
        Act.modify (·.modifyEntry requestId (receiveStdin inBuffer))
        checkForRequestReady requestId

/-- What `handleParams` does to an open entry. -/
def receiveParams (inBuffer : Bytes) (state : RequestState) (data : RequestData) :
    RequestState × RequestData :=
  if inBuffer.length = 0 then
    (state ||| paramsCompleted, data.parseFCGIParams)
  else
    (state, { data with paramsBuffer := data.paramsBuffer ++ inBuffer })

/-- PARAMS of an entry that still takes them, and the look at the two bits. -/
def handleParams (requestId : Nat) (inBuffer : Bytes) :
    Act Event ConnectionData (Option Callback) := do
  let d ← Act.get
  match d.requestMap[requestId]? with
  | none => Act.throw "params requestId does not exist"
  | some e =>
      if e.state &&& paramsCompleted ≠ 0 then
        Act.throw "params already closed"
      else do
        Act.modify (·.modifyEntry requestId (receiveParams inBuffer))
        checkForRequestReady requestId

/-- The assertion names the same bit twice; the second was meant to be the other one. -/
def cleanupRequest (requestId : Nat) : Act Event ConnectionData (Option Callback) := do
  let d ← Act.get
  match d.requestMap[requestId]? with
  | none => Act.throw "requestId does not exist"
  | some e => do
      Act.assert (e.state &&& inCompleted ≠ 0 && e.state &&& inCompleted ≠ 0)
        "ConnectionData::cleanupRequest: IN_COMPLETED"
      Act.modify (·.erase requestId)
      Act.emit (.erased requestId e.ptr)
      checkForEmptyRequestMap

/-- `size()`; request ids have sixteen bits, so the map fits its `uint`. -/
def size (d : ConnectionData) : Nat := d.requestMap.size

/-- The entry of the id holds this very object. -/
def isValidRequest (d : ConnectionData) (requestId ptr : Nat) : Bool :=
  match d.requestMap[requestId]? with
  | some e => e.ptr == ptr
  | none => false

/-- A user's access to the object behind `ptr`.  An object that is no longer
in the map is never sent, so a change of it is not kept. -/
def edit (d : ConnectionData) (requestId ptr : Nat) (change : UserEdit) : ConnectionData :=
  if d.isValidRequest requestId ptr then
    d.modifyEntry requestId fun state data => (state, change.apply data)
  else
    d

/-! ### The identity check -/

/-- A valid object is the one that is stored under the id. -/
theorem isValidRequest_iff {d : ConnectionData} {r ptr : Nat} :
    d.isValidRequest r ptr = true ↔ ∃ e, d.requestMap[r]? = some e ∧ e.ptr = ptr := by
  unfold isValidRequest
  cases d.requestMap[r]? <;> simp

/-- A change of an entry keeps its object. -/
theorem isValidRequest_modifyEntry (d : ConnectionData) (r r' ptr : Nat)
    (f : RequestState → RequestData → RequestState × RequestData) :
    (d.modifyEntry r' f).isValidRequest r ptr = d.isValidRequest r ptr := by
  unfold isValidRequest
  rw [getElem?_modifyEntry]
  by_cases heq : r' = r
  · subst heq
    cases d.requestMap[r']? <;> simp
  · simp [heq]

/-- What a user writes keeps every object where it is. -/
theorem isValidRequest_edit (d : ConnectionData) (r r' ptr ptr' : Nat) (change : UserEdit) :
    (d.edit r' ptr' change).isValidRequest r ptr = d.isValidRequest r ptr := by
  unfold edit
  split
  · exact d.isValidRequest_modifyEntry r r' ptr _
  · rfl

/-- A user's access allocates nothing. -/
@[simp] theorem nextPtr_edit (d : ConnectionData) (r ptr : Nat) (change : UserEdit) :
    (d.edit r ptr change).nextPtr = d.nextPtr := by
  unfold edit
  split <;> rfl

/-- Under an id that is free a new object becomes valid, and nothing else does. -/
theorem isValidRequest_insertNew {d : ConnectionData} {r : Nat} (h : d.requestMap[r]? = none)
    (r' ptr : Nat) : (d.insertNew r).isValidRequest r' ptr =
      (d.isValidRequest r' ptr || (r == r' && d.nextPtr == ptr)) := by
  unfold isValidRequest
  rw [getElem?_insertNew]
  by_cases heq : r = r'
  · subst heq
    simp [h]
  · simp [heq]

/-- The objects of all other ids stay valid. -/
theorem isValidRequest_erase (d : ConnectionData) (r r' ptr : Nat) :
    (d.erase r).isValidRequest r' ptr = (r != r' && d.isValidRequest r' ptr) := by
  unfold isValidRequest
  rw [getElem?_erase]
  by_cases heq : r = r' <;> simp [heq]

/-- A cleared map has no valid object. -/
@[simp] theorem isValidRequest_clear (d : ConnectionData) (r ptr : Nat) :
    d.clear.isValidRequest r ptr = false := by
  simp [isValidRequest, clear]

/-- Nor has an empty one. -/
theorem isValidRequest_of_size_eq_zero {d : ConnectionData} (h : d.size = 0) (r ptr : Nat) :
    d.isValidRequest r ptr = false := by
  unfold isValidRequest
  rw [(size_requestMap_eq_zero_iff d).mp h r]

/-! ## What each function does -/

/-- The callback `checkForEmptyRequestMap` makes. -/
def emptyCallback (d : ConnectionData) : Option Callback :=
  if d.requestMap.size = 0 then some .empty else none

/-- The callback `checkForRequestReady` makes. -/
def readyCallback (d : ConnectionData) (requestId : Nat) : Option Callback :=
  match d.requestMap[requestId]? with
  | none => none
  | some e => if e.ready then some (.requestReady requestId e) else none

/-- The look at the two bits changes nothing. -/
theorem checkForRequestReady_run (d : ConnectionData) (r : Nat) :
    checkForRequestReady r d = ⟨.ret (d.readyCallback r), d, []⟩ := by
  simp only [checkForRequestReady, readyCallback, Act.get_bind_run]
  cases d.requestMap[r]? <;> rfl

/-- `handleBeginRequest` throws for an id in use, and stores a new object under
one that is free. -/
theorem handleBeginRequest_run (d : ConnectionData) (r : Nat) :
    handleBeginRequest r d =
      if d.requestMap[r]?.isSome then ⟨.throw "requestId already exists", d, []⟩
      else ⟨.ret none, d.insertNew r, [.began r d.nextPtr]⟩ := by
  simp only [handleBeginRequest, Act.get_bind_run]
  split <;> simp

/-- `handleAbortRequest` throws for an unknown id, and erases the entry of a
known one. -/
theorem handleAbortRequest_run (d : ConnectionData) (r : Nat) :
    handleAbortRequest r d =
      match d.requestMap[r]? with
      | none => ⟨.throw "abort requestId does not exist", d, []⟩
      | some e => ⟨.ret (d.erase r).emptyCallback, d.erase r, [.erased r e.ptr]⟩ := by
  simp only [handleAbortRequest, Act.get_bind_run]
  cases d.requestMap[r]? with
  | none => simp
  | some e => simp [checkForEmptyRequestMap, emptyCallback]

/-- `handleStdin` throws for an unknown id and for a stream that has ended;
otherwise the entry takes the bytes. -/
theorem handleStdin_run (d : ConnectionData) (r : Nat) (bs : Bytes) :
    handleStdin r bs d =
      match d.requestMap[r]? with
      | none => ⟨.throw "stdin requestId does not exist", d, []⟩
      | some e =>
          if e.state &&& inCompleted ≠ 0 then ⟨.throw "stdin already closed", d, []⟩
          else ⟨.ret ((d.modifyEntry r (receiveStdin bs)).readyCallback r),
            d.modifyEntry r (receiveStdin bs), []⟩ := by
  simp only [handleStdin, Act.get_bind_run]
  cases d.requestMap[r]? with
  | none => rfl
  | some e =>
      dsimp only
      split
      · rfl
      · simp [checkForRequestReady_run]

/-- `handleParams` throws for an unknown id and for a stream that has ended;
otherwise the entry takes the bytes. -/
theorem handleParams_run (d : ConnectionData) (r : Nat) (bs : Bytes) :
    handleParams r bs d =
      match d.requestMap[r]? with
      | none => ⟨.throw "params requestId does not exist", d, []⟩
      | some e =>
          if e.state &&& paramsCompleted ≠ 0 then ⟨.throw "params already closed", d, []⟩
          else ⟨.ret ((d.modifyEntry r (receiveParams bs)).readyCallback r),
            d.modifyEntry r (receiveParams bs), []⟩ := by
  simp only [handleParams, Act.get_bind_run]
  cases d.requestMap[r]? with
  | none => rfl
  | some e =>
      dsimp only
      split
      · rfl
      · simp [checkForRequestReady_run]

/-- `cleanupRequest` throws for an unknown id; it erases an entry whose STDIN
has ended, and fails its assertion for any other. -/
theorem cleanupRequest_run (d : ConnectionData) (r : Nat) :
    cleanupRequest r d =
      match d.requestMap[r]? with
      | none => ⟨.throw "requestId does not exist", d, []⟩
      | some e =>
          if e.state &&& inCompleted ≠ 0 then
            ⟨.ret (d.erase r).emptyCallback, d.erase r, [.erased r e.ptr]⟩
          else ⟨.abort "ConnectionData::cleanupRequest: IN_COMPLETED", d, []⟩ := by
  simp only [cleanupRequest, Act.get_bind_run]
  cases d.requestMap[r]? with
  | none => rfl
  | some e =>
      by_cases h : e.state &&& inCompleted ≠ 0
      · simp [h, checkForEmptyRequestMap, emptyCallback]
      · simp [h]

end ConnectionData

end Santiago
