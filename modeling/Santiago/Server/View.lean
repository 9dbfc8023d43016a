import Santiago.Custody
import Santiago.Replies
import Santiago.Server.Requests

/-!
# Santiago.Server.View

The process seen through `Custody`: which objects its connections store,
which replies are queued, and which requests still owe one.  `Moves.custody`
shows that a step of the process is a step of `Custody`, so the custodian of
every ready object is the one `Custody.Sound` speaks of.
-/

namespace Santiago.Server

open Effect Bytes PacketSocket Connection

/-- The object of an entry, and whether it is ready. -/
def stored (d : ConnectionData) (r : Nat) : Option (Nat × Bool) :=
  d.requestMap[r]?.map fun e => (e.ptr, e.ready)

/-- What a request still owes: one that is destroyed or has replied owes nothing. -/
def owes (rq : Request) : Option (Custody.Request Nat Nat Nat) :=
  if rq.phase = .destroyed then none
  else rq.dataWeakPtr.map fun ptr => ⟨ptr, rq.requestId, rq.home, rq.connectionWeakPtr⟩

/-- Who has what, seen from outside the connections and the requests. -/
def custody (s : Server) : Custody Nat Nat Nat Nat where
  entry c r := (s.connections c).bind fun k => stored k.strand.connection.data r
  replies c := (s.connections c).elim [] fun k => k.strand.replies
  request q := (s.requests q).bind owes
  active := {c | s.isActive c = true}
  known := {c | c < s.nextConnection}
  made := {ptr | ptr < s.nextAddress}

/-! ## What each change looks like -/

/-- A connection that the acceptor holds. -/
theorem isActive_iff {s : Server} {c : Nat} : s.isActive c = true ↔
    ∃ k, s.connections c = some k ∧ s.activeConnections k.connectionId = some c := by
  unfold isActive
  cases s.connections c with
  | none => simp
  | some k => simp

/-- The acceptor holds a connection whatever its strand does. -/
theorem isActive_setStrand {s : Server} {c : Nat} {k : AcceptedConnection}
    (hk : s.connections c = some k) (t : Strand) (c' : Nat) :
    (s.setStrand c k.connectionId t).isActive c' = s.isActive c' := by
  unfold isActive setStrand
  by_cases hc : c' = c
  · subst hc
    simp [hk]
  · simp [hc]

/-- A step of a connection shows in its own entries and replies. -/
theorem custody_setStrand {s : Server} {c : Nat} {k : AcceptedConnection}
    (hk : s.connections c = some k) (t : Strand) :
    (s.setStrand c k.connectionId t).custody = { s.custody with
      entry := Function.update s.custody.entry c (stored t.connection.data)
      replies := Function.update s.custody.replies c t.replies
      made := {ptr | ptr < t.connection.data.nextPtr} } := by
  have hentry : (s.setStrand c k.connectionId t).custody.entry =
      Function.update s.custody.entry c (stored t.connection.data) := by
    funext c' r
    by_cases hc : c' = c
    · subst hc
      simp [custody, setStrand]
    · simp [custody, setStrand, hc]
  have hreplies : (s.setStrand c k.connectionId t).custody.replies =
      Function.update s.custody.replies c t.replies := by
    funext c'
    by_cases hc : c' = c
    · subst hc
      simp [custody, setStrand]
    · simp [custody, setStrand, hc]
  have hactive : (s.setStrand c k.connectionId t).custody.active = s.custody.active := by
    ext c'
    show (s.setStrand c k.connectionId t).isActive c' = true ↔ s.isActive c' = true
    rw [isActive_setStrand hk]
  dsimp only
  rw [← hentry, ← hreplies, ← hactive]
  rfl

/-- A change of a request shows in what it owes. -/
theorem custody_setRequest (s : Server) (q : Nat) (rq : Request) :
    (s.setRequest q rq).custody = { s.custody with
      request := Function.update s.custody.request q (owes rq) } := by
  have hrequest : (s.setRequest q rq).custody.request =
      Function.update s.custody.request q (owes rq) := by
    funext q'
    by_cases hq : q' = q
    · subst hq
      simp [custody, setRequest]
    · simp [custody, setRequest, hq]
  dsimp only
  rw [← hrequest]
  rfl

/-- A request whose debt does not change is seen as it was. -/
theorem custody_setRequest_same {s : Server} {q : Nat} {rq rq' : Request}
    (hq : s.requests q = some rq') (h : owes rq = owes rq') :
    (s.setRequest q rq).custody = s.custody := by
  have hsame : s.custody.request q = owes rq := by
    simp [custody, hq, h]
  rw [custody_setRequest, ← hsame, Function.update_eq_self]

/-- The entries of a connection that is there. -/
theorem entry_custody {s : Server} {c : Nat} {k : AcceptedConnection}
    (hk : s.connections c = some k) : s.custody.entry c = stored k.strand.connection.data := by
  funext r
  simp [custody, hk]

/-- The replies queued on a connection that is there. -/
theorem replies_custody {s : Server} {c : Nat} {k : AcceptedConnection}
    (hk : s.connections c = some k) : s.custody.replies c = k.strand.replies := by
  simp [custody, hk]

/-- An object is stored under one id. -/
theorem stored_inj {d : ConnectionData} {r r' : Nat} {x x' : Nat × Bool}
    (h : stored d r = some x) (h' : stored d r' = some x') (heq : x.1 = x'.1) : r = r' := by
  obtain ⟨e, he, rfl⟩ := Option.map_eq_some_iff.mp h
  obtain ⟨e', he', rfl⟩ := Option.map_eq_some_iff.mp h'
  exact d.ptr_inj r r' e e' he he' heq

/-- What a user writes moves no object. -/
theorem stored_edit (d : ConnectionData) (r ptr : Nat) (change : UserEdit) :
    stored (d.edit r ptr change) = stored d := by
  funext r'
  unfold stored ConnectionData.edit
  split
  · rw [ConnectionData.getElem?_modifyEntry]
    split
    · next heq =>
        subst heq
        cases d.requestMap[r]? <;> rfl
    · rfl
  · rfl

/-- A valid object is a stored one. -/
theorem isValidRequest_iff_stored {d : ConnectionData} {r ptr : Nat} :
    d.isValidRequest r ptr = true ↔ ∃ b, stored d r = some (ptr, b) := by
  rw [ConnectionData.isValidRequest_iff, stored]
  constructor
  · intro ⟨e, he, hp⟩
    exact ⟨e.ready, by simp [he, hp]⟩
  · intro ⟨b, hb⟩
    obtain ⟨e, he, hx⟩ := Option.map_eq_some_iff.mp hb
    exact ⟨e, he, (Prod.mk.inj hx).1⟩

/-- A connection that stores what it stored. -/
theorem custody_setStrand_same {s : Server} {c : Nat} {k : AcceptedConnection} {t : Strand}
    (hk : s.connections c = some k)
    (hstored : stored t.connection.data = stored k.strand.connection.data)
    (hnext : t.connection.data.nextPtr = s.nextAddress) :
    (s.setStrand c k.connectionId t).custody = { s.custody with
      replies := Function.update s.custody.replies c t.replies } := by
  rw [custody_setStrand hk, hstored, hnext, ← entry_custody hk, Function.update_eq_self]
  rfl

/-! ### Commits and edits -/

/-- A change of an object changes nothing that counts. -/
theorem custody_edited {s : Server} (hwf : s.WF) (rq : Request) (ptr : Nat) (change : UserEdit) :
    (s.edited rq ptr change).custody = s.custody := by
  obtain ⟨_, heq⟩ | ⟨k, t, hk, hm, heq⟩ := s.edited_cases rq ptr change
  · rw [heq]
  · have hnext := ConnectionData.nextPtr_allocateFrom (hwf.nextPtr_le _ k hk)
    cases hm with
    | edit =>
        rw [heq, custody_setStrand_same hk (stored_edit _ _ _ _)
          ((ConnectionData.nextPtr_edit _ _ _ _).trans hnext)]
        show { s.custody with
          replies := Function.update s.custody.replies rq.home k.strand.replies } = s.custody
        rw [← replies_custody hk, Function.update_eq_self]

/-- A commit puts a reply on the queue of a connection that exists. -/
theorem custody_committed {s : Server} (hwf : s.WF) {rq : Request} {k : AcceptedConnection}
    (hk : s.connections rq.connectionWeakPtr = some k) (ptr : Nat) :
    (s.committed rq ptr).custody = { s.custody with
      replies := Function.update s.custody.replies rq.connectionWeakPtr
        (s.custody.replies rq.connectionWeakPtr ++ [(rq.requestId, ptr)]) } := by
  have hnext := ConnectionData.nextPtr_allocateFrom (hwf.nextPtr_le _ k hk)
  obtain ⟨hnone, _⟩ | ⟨k', t, hk', hm, heq⟩ := s.committed_cases rq ptr
  · rw [hk] at hnone
    cases hnone
  · rw [hk, Option.some.injEq] at hk'
    subst hk'
    have hturn := hm.turn
    cases hturn with
    | keep _ hne => exact absurd rfl (hne rq.requestId ptr)
    | commitReply hreplies hdata =>
        have hstored : stored t.connection.data = stored k.strand.connection.data := by
          rw [hdata]
          rfl
        rw [heq, custody_setStrand_same hk hstored (hdata ▸ hnext), hreplies, replies_custody hk]
        rfl

/-! ### Steps of a strand -/

/-- What the map of a connection does in a step is what `Custody` allows. -/
theorem evolves_of_life {s : Server} (hwf : s.WF) {c : Nat} {k : AcceptedConnection}
    (hk : s.connections c = some k) {st st' : Connection.State} {d' : ConnectionData}
    {es : List Event}
    (h : Life st (k.strand.allocateFrom s.nextAddress).connection.data st' d' es)
    (hquiet : ∀ r ptr data, .requestReady r ptr data ∉ es) :
    s.custody.Evolves c (stored d') {ptr | ptr < d'.nextPtr} where
  made_subset ptr hptr := by
    have hfrom : s.nextAddress ≤ (k.strand.allocateFrom s.nextAddress).connection.data.nextPtr :=
      Nat.le_max_right _ _
    exact Nat.lt_of_lt_of_le hptr (Nat.le_trans hfrom h.nextPtr_le)
  entry_cases r x hx := by
    obtain ⟨e, he, rfl⟩ := Option.map_eq_some_iff.mp hx
    have hnext := ConnectionData.nextPtr_allocateFrom (hwf.nextPtr_le c k hk)
    obtain ⟨e', he', hptr, hready⟩ | ⟨hptr, hready, hlt⟩ := h.entry hquiet he
    · left
      have hstored : stored k.strand.connection.data r = some (e'.ptr, e'.ready) := by
        rw [stored, show k.strand.connection.data.requestMap[r]? = some e' from he']
        rfl
      rw [entry_custody hk, hstored, hptr, hready]
    · right
      have hnew : e.ptr = s.nextAddress := hptr.trans hnext
      refine ⟨hready, ?_, ?_⟩
      · show ¬ e.ptr < s.nextAddress
        omega
      · show e.ptr < d'.nextPtr
        omega
  inj _ _ _ _ := stored_inj

/-- A connection that is there is known. -/
theorem known_custody {s : Server} (hwf : s.WF) {c : Nat} {k : AcceptedConnection}
    (hk : s.connections c = some k) : c ∈ s.custody.known :=
  hwf.known c k hk

/-- A step of a strand in which no request becomes ready. -/
theorem custody_strand {s : Server} (hwf : s.WF) {c : Nat} {k : AcceptedConnection}
    {l : Strand.Step} {t : Strand} {es : List Event} (hk : s.connections c = some k)
    (he : machine.enabled s (.strand c l) = true)
    (hm : Strand.Moves (k.strand.allocateFrom s.nextAddress) l t es)
    (hquiet : ∀ r ptr data, .requestReady r ptr data ∉ es) :
    Custody.Step s.custody (s.setStrand c k.connectionId t).custody := by
  have hevolves := evolves_of_life hwf hk hm.life hquiet
  have hreplies := replies_custody hk
  rw [custody_setStrand hk]
  cases hm.turn with
  | keep hsame =>
      have hkeep : t.replies = s.custody.replies c := hsame.trans hreplies.symm
      rw [hkeep, Function.update_eq_self]
      exact .turn (known_custody hwf hk) hevolves
  | commitReply =>
      have hen : s.strandEnabled c (.commitReply _ _) = true := he
      simp [strandEnabled] at hen
  | @commitReplyImpl r ptr rest _ _ htasks hhead heffect =>
      obtain ⟨hgone, hnext, hstored, _⟩ := heffect.settles
      have hmade : {ptr | ptr < t.connection.data.nextPtr} = s.custody.made := by
        have haddress : t.connection.data.nextPtr = s.nextAddress :=
          hnext.trans (ConnectionData.nextPtr_allocateFrom (hwf.nextPtr_le c k hk))
        rw [haddress]
        rfl
      rw [hmade]
      refine .settle (hreplies.trans hhead) fun r' x hx => ?_
      obtain ⟨e, he', rfl⟩ := Option.map_eq_some_iff.mp hx
      refine ⟨?_, fun heq hptr => ?_⟩
      · rw [entry_custody hk, stored,
          show k.strand.connection.data.requestMap[r']? = some e from hstored r' e he']
        rfl
      · subst heq
        have hvalid : t.connection.data.isValidRequest r' ptr = true :=
          ConnectionData.isValidRequest_iff.mpr ⟨e, he', hptr⟩
        rw [hgone] at hvalid
        cases hvalid

/-- The step in which a request becomes ready hands it over. -/
theorem custody_ready {s : Server} (hwf : s.WF) {c active r : Nat} {k : AcceptedConnection}
    {l : Strand.Step} {t : Strand} {ty : UInt8} {content : Bytes} {e : Entry}
    {f : RequestState → RequestData → RequestState × RequestData}
    (hk : s.connections c = some k) (he : machine.enabled s (.strand c l) = true)
    (hm : Strand.Moves (k.strand.allocateFrom s.nextAddress) l t
      [.newPacket r ty content, .requestReady r e.ptr (f e.state e.data).2])
    (hf : Receives ty content e f) (hentry : k.strand.connection.data.requestMap[r]? = some e)
    (hready : Entry.ready ⟨(f e.state e.data).1, e.ptr, (f e.state e.data).2⟩ = true)
    (hdata : t.connection.data =
      (k.strand.allocateFrom s.nextAddress).connection.data.modifyEntry r f)
    (ha : s.activeConnections k.connectionId = some active) :
    Custody.Step s.custody
      ((s.setStrand c k.connectionId t).requested c k.connectionId active r e.ptr).custody := by
  have hreplies : t.replies = s.custody.replies c := by
    rw [replies_custody hk]
    cases hm.turn with
    | keep hsame => exact hsame
    | commitReplyImpl _ _ heffect =>
        exact absurd List.mem_cons_self heffect.newPacket_notMem
  have hmade : t.connection.data.nextPtr = s.nextAddress := by
    rw [hdata]
    exact ConnectionData.nextPtr_allocateFrom (hwf.nextPtr_le c k hk)
  have hstored : stored t.connection.data =
      Function.update (s.custody.entry c) r (some (e.ptr, true)) := by
    funext r'
    rw [hdata, stored, ConnectionData.getElem?_modifyEntry, entry_custody hk]
    by_cases hr : r' = r
    · subst hr
      rw [if_pos rfl, Function.update_self,
        show (k.strand.allocateFrom s.nextAddress).connection.data.requestMap[r']? = some e
          from hentry]
      simp [hready]
    · rw [if_neg (Ne.symm hr), Function.update_of_ne hr]
      rfl
  have hnew : s.requests s.nextRequest = none := by
    cases hq : s.requests s.nextRequest with
    | none => rfl
    | some rq => exact absurd (hwf.request_lt _ rq hq) (Nat.lt_irrefl _)
  have hview : ((s.setStrand c k.connectionId t).requested c k.connectionId active r
      e.ptr).custody = { s.custody with
        entry := Function.update s.custody.entry c
          (Function.update (s.custody.entry c) r (some (e.ptr, true)))
        request := Function.update s.custody.request s.nextRequest
          (some ⟨e.ptr, r, c, active⟩) } := by
    have hset := custody_setRequest (s.setStrand c k.connectionId t) s.nextRequest
      { requestId := r, dataWeakPtr := some e.ptr, connectionId := k.connectionId,
        connectionWeakPtr := active, hasReplied := false, home := c, phase := .queued }
    rw [custody_setStrand hk, hreplies, Function.update_eq_self, hmade, hstored] at hset
    exact hset
  have hnone : s.custody.request s.nextRequest = none := by
    show (s.requests s.nextRequest).bind owes = none
    rw [hnew]
    rfl
  have hold : s.custody.entry c r = some (e.ptr, false) := by
    rw [entry_custody hk, stored, hentry, Option.map_some, hf.ready_eq_false]
  have hactive : c ∈ s.custody.active → active = c := by
    intro hc
    obtain ⟨k', hk', ha'⟩ := isActive_iff.mp hc
    rw [hk, Option.some.injEq] at hk'
    subst hk'
    rw [ha, Option.some.injEq] at ha'
    exact ha'
  rw [hview]
  exact @Custody.Step.ready _ _ _ _ _ _ _ s.custody c s.nextRequest ⟨e.ptr, r, c, active⟩
    hnone rfl hold hactive

/-! ### Steps on requests -/

/-- A request with an object owes the reply for it. -/
theorem owes_of_data {rq : Request} {ptr : Nat} (hphase : rq.phase ≠ .destroyed)
    (hdata : rq.dataWeakPtr = some ptr) :
    owes rq = some ⟨ptr, rq.requestId, rq.home, rq.connectionWeakPtr⟩ := by
  rw [owes, if_neg hphase, hdata]
  rfl

/-- A request that has replied owes nothing. -/
theorem owes_replied (rq : Request) (phase : Request.Phase) :
    owes (rq.replied.withPhase phase) = none := by
  rw [owes]
  split
  · rfl
  · rfl

/-- What a live request owes does not depend on where it is. -/
theorem owes_withPhase {rq : Request} {phase : Request.Phase} (h : rq.phase ≠ .destroyed)
    (h' : phase ≠ .destroyed) : owes (rq.withPhase phase) = owes rq := by
  rw [owes, owes, if_neg h, if_neg (show (rq.withPhase phase).phase ≠ .destroyed from h')]
  rfl

/-- What a request owes. -/
theorem request_custody {s : Server} {q : Nat} {rq : Request} (hq : s.requests q = some rq) :
    s.custody.request q = owes rq := by
  show (s.requests q).bind owes = _
  rw [hq]
  rfl

/-- A request that replies hands its object to the queue. -/
theorem custody_replied {s : Server} (hwf : s.WF) {q ptr : Nat} {rq rq' : Request}
    (hactive : s.isActive rq.connectionWeakPtr = true)
    (hq : s.requests q = some rq) (hphase : rq.phase ≠ .destroyed)
    (hdata : rq.dataWeakPtr = some ptr) (howes : owes rq' = none) :
    Custody.Step s.custody ((s.committed rq ptr).setRequest q rq').custody := by
  have hrequest := (request_custody hq).trans (owes_of_data hphase hdata)
  obtain ⟨k, hk, _⟩ := isActive_iff.mp hactive
  rw [custody_setRequest, custody_committed hwf hk, howes]
  exact .commit hrequest hactive

/-- The same for `cancel()`, which changes the buffers first. -/
theorem custody_cancelled {s : Server} (hwf : s.WF) {q ptr : Nat} {rq rq' : Request}
    (hq : s.requests q = some rq) (hphase : rq.phase ≠ .destroyed) (hg : s.Grants rq ptr)
    (howes : owes rq' = none) :
    Custody.Step s.custody
      (((s.edited rq ptr .cancelBuffers).committed rq ptr).setRequest q rq').custody := by
  have hactive : rq.connectionWeakPtr ∈ (s.edited rq ptr .cancelBuffers).custody.active := by
    rw [custody_edited hwf]
    exact hg.lockConnection_eq
  have hstep := custody_replied (hwf.edited rq ptr .cancelBuffers) hactive (q := q)
    (by simpa using hq) hphase hg.dataWeakPtr_eq howes
  rw [custody_edited hwf] at hstep
  exact hstep

/-- A request that dies without a reply has lost its object or its connection. -/
theorem custody_dropped {s : Server} (hr : s.RequestsWF) {q : Nat} {rq : Request}
    (hq : s.requests q = some rq) (hphase : rq.phase ≠ .destroyed)
    (hlost : ∀ ptr, ¬ s.Grants rq ptr) :
    Custody.Step s.custody (s.setRequest q (rq.withPhase .destroyed)).custody := by
  have howes : owes (rq.withPhase .destroyed) = none := rfl
  rw [custody_setRequest, howes]
  cases hdata : rq.dataWeakPtr with
  | none =>
      have hnone : s.custody.request q = none := by
        rw [request_custody hq, owes, if_neg hphase, hdata]
        rfl
      rw [← hnone, Function.update_eq_self]
      exact .skip
  | some ptr =>
      have hrequest := (request_custody hq).trans (owes_of_data hphase hdata)
      refine .drop hrequest fun hconnection hhome b hentry =>
        hlost ptr ⟨?_, hdata, hconnection, ?_⟩
      · have hiff := hr.replied_iff q rq hq
        rw [hdata] at hiff
        simpa using hiff
      · obtain ⟨k, hk, _⟩ := isActive_iff.mp hhome
        have hvalid : k.strand.connection.data.isValidRequest rq.requestId ptr = true := by
          rw [isValidRequest_iff_stored]
          rw [entry_custody hk] at hentry
          exact ⟨b, hentry⟩
        rw [lockData, hdata]
        simp only [hk, Option.any_some, hvalid, Bool.and_true]
        rw [show s.isActive rq.home = true from hhome]
        rfl

/-! ### Connections that come and go -/

/-- A new connection is known and active, and has nothing yet. -/
theorem custody_accepted {s : Server} (hwf : s.WF) (fs : List (Option Nat)) (u : Nat → BitVec 32)
    (hfree : s.activeConnections s.nextConnectionId = none) :
    (s.accepted fs u).custody = { s.custody with
      active := insert s.nextConnection s.custody.active
      known := insert s.nextConnection s.custody.known } := by
  have hnew : s.connections s.nextConnection = none := by
    cases hk : s.connections s.nextConnection with
    | none => rfl
    | some k => exact absurd (hwf.known _ k hk) (Nat.lt_irrefl _)
  have hentry : (s.accepted fs u).custody.entry = s.custody.entry := by
    funext c r
    by_cases hc : c = s.nextConnection
    · subst hc
      simp [custody, accepted, hnew, stored, Strand.init, Connection.start, Connection.init,
        Connection.setSocket]
    · simp [custody, accepted, hc]
  have hreplies : (s.accepted fs u).custody.replies = s.custody.replies := by
    funext c
    by_cases hc : c = s.nextConnection
    · subst hc
      simp [custody, accepted, hnew]
      rfl
    · simp [custody, accepted, hc]
  have hactive : (s.accepted fs u).custody.active =
      insert s.nextConnection s.custody.active := by
    ext c
    show (s.accepted fs u).isActive c = true ↔ c = s.nextConnection ∨ s.isActive c = true
    rw [isActive_iff, isActive_iff]
    by_cases hc : c = s.nextConnection
    · subst hc
      simp [accepted]
    · have hsame : (s.accepted fs u).connections c = s.connections c := Function.update_of_ne hc ..
      rw [hsame]
      constructor
      · intro h
        obtain ⟨k, hk, ha⟩ := h
        obtain ⟨_, hself⟩ | ⟨_, ha⟩ := Table.of_insert ha
        · exact absurd hself hc
        · exact .inr ⟨k, hk, ha⟩
      · intro h
        obtain h | ⟨k, hk, ha⟩ := h
        · exact absurd h hc
        · have hne : k.connectionId ≠ s.nextConnectionId := fun heq => by
            rw [heq, hfree] at ha
            cases ha
          exact ⟨k, hk, (Function.update_of_ne hne ..).trans ha⟩
  have hknown : (s.accepted fs u).custody.known = insert s.nextConnection s.custody.known := by
    ext c
    show c < s.nextConnection + 1 ↔ c = s.nextConnection ∨ c < s.nextConnection
    omega
  dsimp only
  rw [← hentry, ← hreplies, ← hactive, ← hknown]
  rfl

/-- A connection that leaves the acceptor's table is active no more. -/
theorem custody_closeConnection {s : Server} (hwf : s.WF) {id c : Nat} (rest : List AcceptorTask)
    (ha : s.activeConnections id = some c) :
    Server.custody { s.withTasks rest with
      activeConnections := Function.update s.activeConnections id none } =
      { s.custody with active := s.custody.active \ {c} } := by
  have hactive : (Server.custody { s.withTasks rest with
      activeConnections := Function.update s.activeConnections id none }).active =
      s.custody.active \ {c} := by
    ext c'
    show isActive _ c' = true ↔ s.isActive c' = true ∧ c' ≠ c
    rw [isActive_iff, isActive_iff]
    constructor
    · intro ⟨k, hk, ha'⟩
      obtain ⟨hne, ha'⟩ := Table.of_erase ha'
      refine ⟨⟨k, hk, ha'⟩, fun heq => hne ?_⟩
      -- the connection that is erased is the one its id names
      obtain ⟨k', hk', hid⟩ := hwf.active id c ha
      have hk : s.connections c' = some k := hk
      rw [heq, hk', Option.some.injEq] at hk
      rw [← hk, hid]
    · intro ⟨⟨k, hk, ha'⟩, hc⟩
      have hne : k.connectionId ≠ id := fun heq => by
        rw [heq, ha, Option.some.injEq] at ha'
        exact hc ha'.symm
      exact ⟨k, hk, (Function.update_of_ne hne ..).trans ha'⟩
  dsimp only
  rw [← hactive]
  rfl

/-! ## Every step -/

/-- **A step of the process is a step of `Custody`.** -/
theorem Moves.custody {s s' : Server} {l : Step} {es : List (Nat × Event)} (h : Moves s l s' es)
    (hwf : s.WF) (hr : s.RequestsWF) (he : machine.enabled s l = true) :
    Custody.Step s.custody s'.custody := by
  have hquiet : ∀ {es : List Event}, (∀ y ∈ es, y.isCallback = false) →
      ∀ r ptr data, .requestReady r ptr data ∉ es := by
    intro es hes r ptr data hmem
    have hfalse := hes _ hmem
    cases hfalse
  cases h with
  | accept hfree =>
      rw [custody_accepted hwf _ _ hfree]
      exact .accept (Nat.lt_irrefl _)
  | strand hk hm hes _ => exact custody_strand hwf hk he hm (hquiet hes)
  | ready hk hm hf hentry hready _ hdata ha =>
      exact custody_ready hwf hk he hm hf hentry hready hdata ha
  | closing hk hm hes =>
      refine custody_strand hwf hk he hm fun r ptr data hmem => ?_
      rw [List.mem_append, List.mem_singleton] at hmem
      obtain hmem | hmem := hmem
      · exact hquiet hes r ptr data hmem
      · cases hmem
  | closeConnection _ ha =>
      obtain ⟨c, ha⟩ := Option.isSome_iff_exists.mp ha
      rw [custody_closeConnection hwf _ ha]
      exact .close
  | noRequest => exact .skip
  | lost => exact .skip
  | @notRouted q ptr rq rest htasks hq hg =>
      have hqueued := (hr.count_eq_zero_of_task htasks).1
      have hphase : rq.phase = .queued := by simpa [isQueued, hq] using hqueued
      have hsame : (s.withTasks rest).requests q = some rq := hq
      rw [custody_setRequest_same hsame (owes_withPhase (by simp [hphase]) (by simp))]
      exact .skip
  | @stored q ptr rq rest htasks hq hg =>
      have hqueued := (hr.count_eq_zero_of_task htasks).1
      have hphase : rq.phase = .queued := by simpa [isQueued, hq] using hqueued
      have hsame : (s.withTasks rest).requests q = some rq := hq
      have howes : owes (rq.withPhase .held) = owes rq :=
        owes_withPhase (by simp [hphase]) (by simp)
      have hview : Server.custody { (s.withTasks rest).setRequest q (rq.withPhase .held) with
          activeRequestHandlers := Function.update s.activeRequestHandlers rq.getId (some q) } =
          s.custody := custody_setRequest_same hsame howes
      rw [hview]
      exact .skip
  | handlerDeleted => exact .skip
  | denied => exact .skip
  | commit hq hphase hg =>
      exact custody_replied hwf hg.lockConnection_eq hq (by simp [hphase]) hg.dataWeakPtr_eq
        (owes_replied _ _)
  | cancel hq hphase hg =>
      exact custody_cancelled hwf hq (by simp [hphase]) hg (owes_replied _ _)
  | edit =>
      rw [custody_edited hwf]
      exact .skip
  | @release q rq hq hphase =>
      have howes : owes (rq.withPhase .released) = owes rq :=
        owes_withPhase (by simp [hphase]) (by simp)
      split
      · rw [custody_setRequest_same hq howes]
        exact .skip
      · have hsame : (s.post (.handleRequestDeleteImpl rq.getId q)).requests q = some rq := hq
        rw [custody_setRequest_same hsame howes]
        exact .skip
  | destroyed hq hphase hlost =>
      exact custody_dropped hr hq (by simp [hphase]) hlost
  | cancelling hq hphase =>
      rw [custody_setRequest_same hq (owes_withPhase (by simp [hphase]) (by simp))]
      exact .skip
  | destroyValid hq hphase hg =>
      exact custody_cancelled hwf hq (by simp [hphase]) hg (owes_replied _ _)
  | stop => exact .skip

/-! ## Every run -/

/-- What every run keeps. -/
structure Invariant (s : Server) : Prop where
  wf : s.WF
  requestsWF : s.RequestsWF
  queuedHaveTasks : s.QueuedHaveTasks
  sound : s.custody.Sound

/-- The invariant holds before the first step. -/
theorem invariant_init : init.Invariant where
  wf := wf_init
  requestsWF := requestsWF_init
  queuedHaveTasks := fun _ _ _ h => nomatch h
  sound := Custody.sound_of_empty (fun _ _ => rfl) (fun _ => rfl) (fun _ => rfl)

/-- Every step keeps it. -/
theorem Moves.invariant {s s' : Server} {l : Step} {es : List (Nat × Event)}
    (h : Moves s l s' es) (hi : s.Invariant) (he : machine.enabled s l = true) :
    s'.Invariant where
  wf := h.wf hi.wf
  requestsWF := h.requestsWF hi.wf hi.requestsWF
  queuedHaveTasks := h.queuedHaveTasks hi.queuedHaveTasks
  sound := hi.sound.step (h.custody hi.wf hi.requestsWF he)

/-- The induction rule for the process: what every step keeps that meets `C`
holds after every run whose steps all meet it. -/
theorem inv {tr : List (Fired Server Step)} {s : Server} (C : Server → Step → Prop)
    (J : List (Nat × Event) → Server → Prop) (h0 : J [] init)
    (hs : ∀ (t : List (Nat × Event)) (s : Server) (l : Step), s.Invariant → J t s →
      machine.enabled s l = true → C s l →
        Moves s l (machine.act l s).state (machine.act l s).events →
          J (t ++ (machine.act l s).events) (machine.act l s).state)
    (h : machine.Run init tr s) (hc : ∀ f ∈ tr, C f.pre f.label) :
    s.Invariant ∧ J (machine.trace tr) s :=
  h.inv_trace C (fun t s => s.Invariant ∧ J t s) ⟨invariant_init, h0⟩
    (fun t s l hj he hv hc =>
      have hm := moves hj.1.wf he hv
      ⟨hm.invariant hj.1 he, hs t s l hj.1 hj.2 he hc hm⟩) hc

/-- So it holds in every run. -/
theorem invariant_of_run {tr : List (Fired Server Step)} {s : Server}
    (h : machine.Run init tr s) : s.Invariant :=
  (inv (fun _ _ => True) (fun _ _ => True) trivial (fun _ _ _ _ _ _ _ _ => trivial) h
    fun _ _ => trivial).1

end Santiago.Server
