import Santiago.Server.Component
import Santiago.Server.Indeterminate

/-!
# Santiago.Server.Written

The way of a user's output.  A user writes through the request he was handed;
the object behind it belongs to a connection and is sent by that connection's
strand, long after the user has let go of the request.  In between, packets
arrive for the same and for other ids, other users write and commit, requests
are aborted and begun again under their old ids.

`Written` ties the two ends together over any run: an object that is not ready
was written to by nobody, and a ready one holds what was written through the
one request that was ever made for it, from its making on and in that order.
-/

namespace Santiago

open Effect Bytes PacketSocket Connection

/-! ## The part of an object that a reply sends -/

/-- What `sendReply` takes of a request's data. -/
def RequestData.output (d : RequestData) : Bytes × Bytes × BitVec 32 :=
  (d.outBuffer, d.errBuffer, d.appStatus)

/-- The object `d` after a user's changes, one after the other. -/
def RequestData.after (changes : List UserEdit) (d : RequestData) : RequestData :=
  changes.foldl (fun d change => change.apply d) d

/-- Changes in a row. -/
theorem RequestData.after_append (changes changes' : List UserEdit) (d : RequestData) :
    d.after (changes ++ changes') = (d.after changes).after changes' :=
  List.foldl_append

/-- No change. -/
@[simp] theorem RequestData.after_nil (d : RequestData) : d.after [] = d := rfl

/-- What a change makes of the output does not depend on the input. -/
theorem UserEdit.output_apply (change : UserEdit) {d d' : RequestData}
    (h : d.output = d'.output) : (change.apply d).output = (change.apply d').output := by
  simp only [RequestData.output, Prod.mk.injEq] at h
  obtain ⟨hout, herr, hstatus⟩ := h
  cases change <;> simp [UserEdit.apply, RequestData.output, hout, herr, hstatus]

/-- What the buffers and the status become depends on what they were. -/
theorem RequestData.output_after (changes : List UserEdit) {d d' : RequestData}
    (h : d.output = d'.output) : (d.after changes).output = (d'.after changes).output := by
  induction changes generalizing d d' with
  | nil => exact h
  | cons change changes ih => exact ih (change.output_apply h)

/-- The records of a reply depend on the output of its object only. -/
theorem replyRecords_congr (r : Nat) {d d' : RequestData} (h : d.output = d'.output) :
    replyRecords r d = replyRecords r d' := by
  simp only [RequestData.output, Prod.mk.injEq] at h
  obtain ⟨hout, herr, hstatus⟩ := h
  rw [replyRecords, replyRecords, replyStreams, replyStreams, hout, herr, hstatus]

/-- What a client sends does not reach the output of an object. -/
theorem Connection.Receives.output_eq {t : UInt8} {content : Bytes} {e : Entry}
    {f : RequestState → RequestData → RequestState × RequestData} (h : Receives t content e f)
    (st : RequestState) (d : RequestData) : (f st d).2.output = d.output := by
  cases h with
  | stdin =>
      unfold ConnectionData.receiveStdin
      split <;> rfl
  | params =>
      unfold ConnectionData.receiveParams
      split <;> rfl

/-! ## What the steps of a strand do to the output -/

namespace ConnectionData

/-- What is stored in `d'` was stored in `d` with the same output, and unchanged
if it was ready, or it is new. -/
def KeepsOutput (d d' : ConnectionData) : Prop :=
  ∀ (r : Nat) (e : Entry), d'.requestMap[r]? = some e →
    (∃ e', d.requestMap[r]? = some e' ∧ e'.ptr = e.ptr ∧ e'.data.output = e.data.output ∧
      (e'.ready = true → e' = e)) ∨
      e.ready = false ∧ e.ptr = d.nextPtr ∧ ∃ status, e.data = RequestData.new status

/-- Nothing happens to any output. -/
theorem KeepsOutput.refl (d : ConnectionData) : d.KeepsOutput d :=
  fun _ e he => .inl ⟨e, he, rfl, rfl, fun _ => rfl⟩

/-- A cleared map keeps the output of all that is left in it. -/
theorem keepsOutput_clear (d : ConnectionData) : d.KeepsOutput d.clear := by
  intro r e he
  simp at he

/-- So does a map that loses an entry. -/
theorem keepsOutput_erase (d : ConnectionData) (r : Nat) : d.KeepsOutput (d.erase r) := by
  intro r' e he
  rw [getElem?_erase] at he
  split at he
  · cases he
  · exact .inl ⟨e, he, rfl, rfl, fun _ => rfl⟩

/-- So does one with a new entry, which is not ready. -/
theorem keepsOutput_insertNew (d : ConnectionData) (r : Nat) : d.KeepsOutput (d.insertNew r) := by
  intro r' e he
  rw [getElem?_insertNew] at he
  split at he
  · cases he
    exact .inr ⟨by simp [Entry.ready], rfl, _, rfl⟩
  · exact .inl ⟨e, he, rfl, rfl, fun _ => rfl⟩

/-- So does a change of an entry that is not ready yet, if it leaves the output. -/
theorem keepsOutput_modifyEntry {d : ConnectionData} {r : Nat} {e₀ : Entry}
    {f : RequestState → RequestData → RequestState × RequestData}
    (hold : d.requestMap[r]? = some e₀) (hready : e₀.ready = false)
    (hf : (f e₀.state e₀.data).2.output = e₀.data.output) :
    d.KeepsOutput (d.modifyEntry r f) := by
  intro r' e he
  rw [getElem?_modifyEntry] at he
  split at he
  · next heq =>
      subst heq
      rw [hold] at he
      obtain rfl := Option.some.inj he
      refine .inl ⟨e₀, hold, rfl, hf.symm, fun hyes => ?_⟩
      rw [hready] at hyes
      cases hyes
  · exact .inl ⟨e, he, rfl, rfl, fun _ => rfl⟩

end ConnectionData

open ConnectionData in
/-- A packet keeps the output of every object. -/
theorem Connection.PacketEffect.keepsOutput {c c' : Connection} {r : Nat} {t : UInt8}
    {content : Bytes} {x : Exit Unit} {es : List Event}
    (h : PacketEffect c r t content ⟨x, c', es⟩) (hlive : ∀ w, x ≠ .abort w) :
    c.data.KeepsOutput c'.data := by
  cases h with
  | rejected => exact .refl _
  | answered => exact .refl _
  | answerFailed => exact keepsOutput_clear _
  | began => exact keepsOutput_insertNew _ _
  | beganLast => exact keepsOutput_insertNew _ _
  | abortUnknown => exact .refl _
  | aborted => exact keepsOutput_erase _ _
  | abortedLast =>
      intro r e he
      simp at he
  | abortFailed => exact keepsOutput_clear _
  | received hf hold =>
      exact keepsOutput_modifyEntry hold hf.ready_eq_false (hf.output_eq _ _)
  | receivedReady hf hold =>
      exact keepsOutput_modifyEntry hold hf.ready_eq_false (hf.output_eq _ _)
  | died => exact absurd rfl (hlive _)

open ConnectionData in
/-- The strand itself never writes to an object's output. -/
theorem Strand.Moves.keepsOutput {s s' : Strand} {l : Strand.Step} {es : List Event}
    (h : Moves s l s' es) (hown : ∀ r ptr change, l ≠ .edit r ptr change) :
    s.connection.data.KeepsOutput s'.connection.data := by
  cases h with
  | readClosed => exact .refl _
  | readFailed => exact keepsOutput_clear _
  | readBytes => exact .refl _
  | pass h =>
      cases h with
      | drained => exact .refl _
      | unsupported => exact .refl _
      | incomplete => exact .refl _
      | handled _ h =>
          have hkeeps := h.keepsOutput (by simp)
          exact hkeeps
      | caught _ h =>
          have hkeeps := h.keepsOutput (by simp)
          exact hkeeps
  | flush => exact .refl _
  | commit _ h =>
      cases h with
      | stale => exact .refl _
      | replied => exact keepsOutput_erase _ _
      | repliedLast =>
          intro r e he
          simp at he
      | replyFailed => exact keepsOutput_clear _
  | commitReply => exact .refl _
  | edit => exact absurd rfl (hown _ _ _)

/-- A reply to a ready entry puts its records out, up to a write that fails. -/
theorem Strand.sentBytes_reply {s : Strand} {r : Nat} {e : Entry} {rest : List StrandTask}
    (hwf : s.connection.WF)
    (htasks : s.connection.socket.strand = .commitReplyImpl r e.ptr :: rest)
    (he : s.connection.data.requestMap[r]? = some e) (hready : e.ready = true) :
    sentBytes (machine.act .runTask s).events <+: blockBytes (replyRecords r e.data) ∧
      (machine.survives s .runTask = true →
        (∀ part, .writeError part ∉ (machine.act .runTask s).events) →
          sentBytes (machine.act .runTask s).events = blockBytes (replyRecords r e.data)) := by
  have heffect := commitReplyImpl_effect (c := withStrand s.connection rest) hwf r e.ptr
  have hput : s.connection.state ≠ .closed →
      sentBytes (commitReplyImpl r e.ptr (withStrand s.connection rest)).events <+:
        blockBytes (replyRecords r e.data) := fun hc =>
    @sentBytes_commitReplyImpl (withStrand s.connection rest) (fun hs => hc (hwf.mpr hs)) r e he
  have hrun : machine.act .runTask s = _ := runTask_run htasks
  rw [Machine.survives, hrun, Act.zoom_run, Connection.runTask]
  generalize commitReplyImpl r e.ptr (withStrand s.connection rest) = o at heffect hput ⊢
  have hsame : ∀ {e'}, (withStrand s.connection rest).data.requestMap[r]? = some e' →
      e = e' := by
    intro e' he'
    exact Option.some.inj (he.symm.trans he')
  cases heffect with
  | stale hstale =>
      have hvalid : s.connection.data.isValidRequest r e.ptr = true :=
        ConnectionData.isValidRequest_iff.mpr ⟨e, he, rfl⟩
      exact absurd (hstale.symm.trans hvalid) Bool.false_ne_true
  | replied _ he' =>
      obtain rfl := hsame he'
      have hsent : sentBytes (.sendReply r e.ptr :: (replyRecords r e.data).map wroteEvent ++
          [.erased r e.ptr]) = blockBytes (replyRecords r e.data) := by
        simp [sentBytes_cons, sentBytes_append, sentBytes_map_wroteEvent, Event.sent, blockBytes]
      exact ⟨by rw [hsent], fun _ _ => hsent⟩
  | repliedLast _ he' =>
      obtain rfl := hsame he'
      have hsent : sentBytes (.sendReply r e.ptr :: (replyRecords r e.data).map wroteEvent ++
          [.erased r e.ptr, .cleared 0, .closeCallback]) =
            blockBytes (replyRecords r e.data) := by
        simp [sentBytes_cons, sentBytes_append, sentBytes_map_wroteEvent, Event.sent, blockBytes]
      exact ⟨by rw [hsent], fun _ _ => hsent⟩
  | @replyFailed _ _ _ _ part hc =>
      refine ⟨hput hc, fun _ herror => absurd ?_ (herror part)⟩
      exact List.mem_append_right _ (List.mem_cons_self ..)
  | incomplete he' _ hbit =>
      obtain rfl := hsame he'
      simp [Entry.ready, hbit] at hready
  | died => exact ⟨List.nil_prefix, fun hv => absurd hv Bool.false_ne_true⟩

namespace Server

/-! ## Entries after a step -/

/-- The entry that connection `c` stores under the id `r`. -/
def entryAt (s : Server) (c r : Nat) : Option Entry :=
  (s.connections c).bind fun k => k.strand.connection.data.requestMap[r]?

/-- The entry of an id, on a connection that is there. -/
theorem entryAt_eq {s : Server} {c : Nat} {k : AcceptedConnection} (hk : s.connections c = some k)
    (r : Nat) : s.entryAt c r = k.strand.connection.data.requestMap[r]? := by
  rw [entryAt, hk]
  rfl

/-- The entries are those of the connections. -/
theorem entryAt_congr {s s' : Server} (h : s'.connections = s.connections) :
    s'.entryAt = s.entryAt := by
  funext c r
  rw [entryAt, entryAt, h]

/-- With another strand on one connection, the entries of the others stay. -/
theorem entryAt_setStrand (s : Server) (c id : Nat) (t : Strand) (c' r : Nat) :
    (s.setStrand c id t).entryAt c' r =
      if c' = c then t.connection.data.requestMap[r]? else s.entryAt c' r := by
  split
  · next heq =>
      subst heq
      have hk : (s.setStrand c' id t).connections c' = some ⟨id, t⟩ := Function.update_self ..
      rw [entryAt_eq hk]
  · next hne =>
      have hsame : (s.setStrand c id t).connections c' = s.connections c' :=
        Function.update_of_ne hne ..
      rw [entryAt, entryAt, hsame]

/-- A queued reply changes no entry. -/
theorem entryAt_committed (s : Server) (rq : Request) (ptr : Nat) :
    (s.committed rq ptr).entryAt = s.entryAt := by
  funext c r
  unfold committed onConnection
  cases hk : s.connections rq.connectionWeakPtr with
  | none => rfl
  | some k =>
      rw [entryAt_setStrand]
      split
      · next heq =>
          subst heq
          rw [entryAt_eq hk]
          rfl
      · rfl

/-- A user's change reaches the entry that holds his object, and no other. -/
theorem entryAt_edited {s : Server} {rq : Request} {ptr : Nat} {change : UserEdit} {c r : Nat}
    {e : Entry} (he : (s.edited rq ptr change).entryAt c r = some e) :
    ∃ e', s.entryAt c r = some e' ∧ e'.ptr = e.ptr ∧ e'.ready = e.ready ∧
      e.data = if c = rq.home ∧ r = rq.requestId ∧ e.ptr = ptr then change.apply e'.data
        else e'.data := by
  unfold edited onConnection at he
  cases hk : s.connections rq.home with
  | none =>
      rw [hk] at he
      refine ⟨e, he, rfl, rfl, ?_⟩
      rw [if_neg]
      rintro ⟨rfl, _, _⟩
      rw [entryAt, hk] at he
      cases he
  | some k =>
      simp only [hk] at he
      rw [entryAt_setStrand] at he
      split at he
      · next heq =>
          subst heq
          rw [entryAt_eq hk]
          simp only [ConnectionData.edit] at he
          split at he
          · next hvalid =>
              obtain ⟨e₀, he₀, hptr⟩ := ConnectionData.isValidRequest_iff.mp hvalid
              rw [ConnectionData.getElem?_modifyEntry] at he
              split at he
              · next heq =>
                  subst heq
                  rw [he₀] at he
                  cases he
                  exact ⟨e₀, he₀, rfl, rfl, by rw [if_pos ⟨rfl, rfl, hptr⟩]⟩
              · next hne =>
                  exact ⟨e, he, rfl, rfl, by rw [if_neg fun h => hne h.2.1.symm]⟩
          · next hvalid =>
              refine ⟨e, he, rfl, rfl, ?_⟩
              rw [if_neg]
              rintro ⟨_, rfl, hptr⟩
              exact hvalid (ConnectionData.isValidRequest_iff.mpr ⟨e, he, hptr⟩)
      · next hne => exact ⟨e, he, rfl, rfl, by rw [if_neg fun h => hne h.1]⟩

/-! ## Who wrote what -/

/-- The request that a step writes through, and the change. -/
def Step.writes : Step → Option (Nat × UserEdit)
  | .edit q change => some (q, change)
  | .cancel q => some (q, .cancelBuffers)
  | .destroyValid q => some (q, .cancelBuffers)
  | .accept _ _ => none
  | .strand _ _ => none
  | .acceptorTask _ => none
  | .commit _ => none
  | .release _ => none
  | .destroy _ => none
  | .stop => none

/-- The changes that a step makes through the request `q`; an access that is
denied makes none. -/
def changesBy (q : Nat) (f : Fired Server Step) : List UserEdit :=
  match f.label.writes with
  | none => []
  | some (q', change) => if q' = q ∧ (f.pre.granted q').isSome then [change] else []

/-- The step makes the request `q` for the object `ptr`, which connection `c`
stores under the id `r` and which is `d`. -/
def HandsOut (q c r ptr : Nat) (d : RequestData) (f : Fired Server Step) : Prop :=
  f.pre.nextRequest = q ∧ (c, .requestReady r ptr d) ∈ machine.observed f

/-- Some step of the run does. -/
def Handed (tr : List (Fired Server Step)) (q c r ptr : Nat) (d : RequestData) : Prop :=
  ∃ f ∈ tr, HandsOut q c r ptr d f

/-- The request `q` was made for this object. -/
def Made (tr : List (Fired Server Step)) (q c r ptr : Nat) : Prop :=
  ∃ d, Handed tr q c r ptr d

/-- Every stored object holds what was written for it. -/
structure Written (tr : List (Fired Server Step)) (s : Server) : Prop where
  fresh : ∀ c r e, s.entryAt c r = some e → e.ready = false →
    ∃ status, e.data.output = (RequestData.new status).output
  ready : ∀ c r e, s.entryAt c r = some e → e.ready = true →
    ∃ q status d, Handed tr q c r e.ptr d ∧ d.output = (RequestData.new status).output ∧
      e.data = d.after (tr.flatMap (changesBy q))
  request : ∀ q rq ptr, s.requests q = some rq → rq.dataWeakPtr = some ptr →
    Made tr q rq.home rq.requestId ptr
  made : ∀ q c r ptr, Made tr q c r ptr → q < s.nextRequest ∧ ptr < s.nextAddress ∧
    ∀ c' r' e, s.entryAt c' r' = some e → e.ptr = ptr → e.ready = true
  once : ∀ q c r q' c' r' ptr, Made tr q c r ptr → Made tr q' c' r' ptr → q' = q
  same : ∀ q c r ptr d c' r' ptr' d', Handed tr q c r ptr d → Handed tr q c' r' ptr' d' →
    c' = c ∧ r' = r ∧ ptr' = ptr ∧ d' = d
  unborn : ∀ q, s.nextRequest ≤ q → tr.flatMap (changesBy q) = []

/-- Before the first step nothing was handed out. -/
theorem written_init : Written [] init where
  fresh _ _ _ h := nomatch h
  ready _ _ _ h := nomatch h
  request _ _ _ h := nomatch h
  made _ _ _ _ h := by
    obtain ⟨_, f, hf, _⟩ := h
    cases hf
  once _ _ _ _ _ _ _ h := by
    obtain ⟨_, f, hf, _⟩ := h
    cases hf
  same _ _ _ _ _ _ _ _ _ h := by
    obtain ⟨f, hf, _⟩ := h
    cases hf
  unborn _ _ := rfl

/-- Only a request that exists is written through. -/
theorem changesBy_of_unborn {s : Server} (hwf : s.WF) {q : Nat} (hq : s.nextRequest ≤ q)
    (l : Step) : changesBy q ⟨s, l⟩ = [] := by
  have hnone : s.granted q = none := by
    cases hrq : s.requests q with
    | none => rw [granted, hrq, Option.bind_none]
    | some rq => exact absurd (hwf.request_lt q rq hrq) (Nat.not_lt.mpr hq)
  unfold changesBy
  split
  · rfl
  · rw [if_neg]
    rintro ⟨rfl, hsome⟩
    rw [hnone] at hsome
    cases hsome

/-- A step that writes through no request. -/
theorem changesBy_of_silent {s : Server} {l : Step} (hl : l.writes = none) (q : Nat) :
    changesBy q ⟨s, l⟩ = [] := by
  rw [changesBy, hl]

/-- A request without an object changes nothing. -/
theorem changesBy_of_denied {s : Server} {l : Step} {q : Nat} {change : UserEdit}
    (hl : l.writes = some (q, change)) (hq : s.granted q = none) (q' : Nat) :
    changesBy q' ⟨s, l⟩ = [] := by
  simp [changesBy, hl, hq]

/-- A request with an object makes the change that its user asked for. -/
theorem changesBy_of_granted {s : Server} {l : Step} {q : Nat} {change : UserEdit}
    (hl : l.writes = some (q, change)) (hq : (s.granted q).isSome) (q' : Nat) :
    changesBy q' ⟨s, l⟩ = if q = q' then [change] else [] := by
  simp [changesBy, hl, hq]

/-- What was handed out by the end of a run, by its last step or before. -/
theorem handed_append_iff {tr : List (Fired Server Step)} {f : Fired Server Step} {q c r ptr : Nat}
    {d : RequestData} :
    Handed (tr ++ [f]) q c r ptr d ↔ Handed tr q c r ptr d ∨ HandsOut q c r ptr d f := by
  simp [Handed, or_and_right, exists_or]

/-- What was handed out stays so. -/
theorem Handed.append {tr : List (Fired Server Step)} {q c r ptr : Nat} {d : RequestData}
    (h : Handed tr q c r ptr d) (f : Fired Server Step) : Handed (tr ++ [f]) q c r ptr d :=
  handed_append_iff.mpr (.inl h)

/-- The requests made by the end of a run, by its last step or before. -/
theorem made_append_iff {tr : List (Fired Server Step)} {f : Fired Server Step} {q c r ptr : Nat} :
    Made (tr ++ [f]) q c r ptr ↔ Made tr q c r ptr ∨ ∃ d, HandsOut q c r ptr d f := by
  simp [Made, handed_append_iff, exists_or]

/-- What was made stays so. -/
theorem Made.append {tr : List (Fired Server Step)} {q c r ptr : Nat} (h : Made tr q c r ptr)
    (f : Fired Server Step) : Made (tr ++ [f]) q c r ptr :=
  made_append_iff.mpr (.inl h)

/-- What a step that makes no request does to entries and requests: the output
of an entry, and a ready entry altogether, changes by what is written through
its request. -/
structure Evolves (tr : List (Fired Server Step)) (s : Server) (l : Step) (s' : Server) : Prop where
  entries : ∀ c r e, s'.entryAt c r = some e →
    (∃ e' changes, s.entryAt c r = some e' ∧ e'.ptr = e.ptr ∧ e'.ready = e.ready ∧
      e.data.output = (e'.data.after changes).output ∧ (e.ready = false → changes = []) ∧
      (e.ready = true → e.data = e'.data.after changes) ∧
      ∀ q, Made tr q c r e.ptr → changesBy q ⟨s, l⟩ = changes) ∨
    e.ready = false ∧ s.nextAddress ≤ e.ptr ∧ ∃ status, e.data = RequestData.new status
  requests : ∀ q rq' ptr, s'.requests q = some rq' → rq'.dataWeakPtr = some ptr →
    ∃ rq, s.requests q = some rq ∧ rq.dataWeakPtr = some ptr ∧ rq.home = rq'.home ∧
      rq.requestId = rq'.requestId
  nextRequest_eq : s'.nextRequest = s.nextRequest
  nextAddress_le : s.nextAddress ≤ s'.nextAddress
  makes : ∀ q c r ptr d, ¬ HandsOut q c r ptr d ⟨s, l⟩

/-- A step that hands nothing out keeps what was written in step with what is
stored. -/
theorem Written.evolves {tr : List (Fired Server Step)} {s s' : Server} {l : Step}
    (h : Written tr s) (hwf : s.WF) (he : Evolves tr s l s') : Written (tr ++ [⟨s, l⟩]) s' := by
  have hmade : ∀ {q c r ptr}, Made (tr ++ [⟨s, l⟩]) q c r ptr → Made tr q c r ptr := by
    intro q c r ptr hm
    exact (made_append_iff.mp hm).resolve_right fun ⟨d, hd⟩ => he.makes q c r ptr d hd
  constructor
  case fresh =>
    intro c r e hentry hready
    obtain ⟨e', changes, he', _, hsame, hout, hnil, _⟩ | ⟨_, _, status, hdata⟩ :=
      he.entries c r e hentry
    · obtain ⟨status, hfresh⟩ := h.fresh c r e' he' (hsame.trans hready)
      rw [hnil hready] at hout
      exact ⟨status, hout.trans hfresh⟩
    · exact ⟨status, by rw [hdata]⟩
  case ready =>
    intro c r e hentry hready
    obtain ⟨e', changes, he', hptr, hsame, _, _, hdata, hchanges⟩ | ⟨hnot, _⟩ :=
      he.entries c r e hentry
    · obtain ⟨q, status, d, hq, hfresh, hwritten⟩ := h.ready c r e' he' (hsame.trans hready)
      rw [hptr] at hq
      refine ⟨q, status, d, hq.append _, hfresh, ?_⟩
      rw [List.flatMap_append, List.flatMap_singleton, hchanges q ⟨d, hq⟩,
        RequestData.after_append,
        hdata hready, hwritten]
    · rw [hready] at hnot
      cases hnot
  case request =>
    intro q rq' ptr hq hptr
    obtain ⟨rq, hrq, hdata, hhome, hid⟩ := he.requests q rq' ptr hq hptr
    have hold := h.request q rq ptr hrq hdata
    rw [hhome, hid] at hold
    exact hold.append _
  case made =>
    intro q c r ptr hm
    obtain ⟨hq, hlt, hready⟩ := h.made q c r ptr (hmade hm)
    refine ⟨by rw [he.nextRequest_eq]; exact hq, Nat.lt_of_lt_of_le hlt he.nextAddress_le, ?_⟩
    intro c' r' e hentry hptr
    obtain ⟨e', _, he', hptr', hsame, _⟩ | ⟨_, hle, _⟩ := he.entries c' r' e hentry
    · exact hsame.symm.trans (hready c' r' e' he' (hptr'.trans hptr))
    · exact absurd (hptr ▸ hle) (Nat.not_le.mpr hlt)
  case once =>
    intro q c r q' c' r' ptr hm hm'
    exact h.once q c r q' c' r' ptr (hmade hm) (hmade hm')
  case same =>
    intro q c r ptr d c' r' ptr' d' hm hm'
    have hold : ∀ {c r ptr d}, Handed (tr ++ [⟨s, l⟩]) q c r ptr d →
        Handed tr q c r ptr d :=
      fun hm => (handed_append_iff.mp hm).resolve_right (he.makes _ _ _ _ _)
    exact h.same q c r ptr d c' r' ptr' d' (hold hm) (hold hm')
  case unborn =>
    intro q hq
    rw [he.nextRequest_eq] at hq
    rw [List.flatMap_append, List.flatMap_singleton, h.unborn q hq, changesBy_of_unborn hwf hq]
    rfl

/-! ## A step that makes no request -/

/-- No request is made, and none is bound to anything else. -/
def KeepsRequests (s s' : Server) : Prop :=
  ∀ q rq' ptr, s'.requests q = some rq' → rq'.dataWeakPtr = some ptr →
    ∃ rq, s.requests q = some rq ∧ rq.dataWeakPtr = some ptr ∧ rq.home = rq'.home ∧
      rq.requestId = rq'.requestId

/-- The requests are as they were. -/
theorem keepsRequests_of_eq {s s' : Server} (h : s'.requests = s.requests) :
    KeepsRequests s s' := by
  intro q rq ptr hq hptr
  rw [h] at hq
  exact ⟨rq, hq, hptr, rfl, rfl⟩

/-- A new phase keeps what a request has. -/
theorem keepsRequests_withPhase {s s' : Server} {q : Nat} {rq : Request} {phase : Request.Phase}
    (hq : s.requests q = some rq)
    (h : s'.requests = Function.update s.requests q (some (rq.withPhase phase))) :
    KeepsRequests s s' := by
  intro q' rq'' ptr hq' hptr
  rw [h] at hq'
  obtain ⟨rfl, rfl⟩ | ⟨_, hq'⟩ := Table.of_insert hq'
  · exact ⟨rq, hq, hptr, rfl, rfl⟩
  · exact ⟨rq'', hq', hptr, rfl, rfl⟩

/-- A request that has replied has no object to keep. -/
theorem keepsRequests_replied {s s' : Server} {q : Nat} {rq : Request}
    (h : s'.requests = s.requests) (hdata : rq.dataWeakPtr = none) :
    KeepsRequests s (s'.setRequest q rq) := by
  intro q' rq'' ptr hq' hptr
  rw [setRequest, h] at hq'
  obtain ⟨rfl, rfl⟩ | ⟨_, hq'⟩ := Table.of_insert hq'
  · rw [hdata] at hptr
    cases hptr
  · exact ⟨rq'', hq', hptr, rfl, rfl⟩

/-- A user allocates nothing. -/
theorem nextAddress_edited {s : Server} (hwf : s.WF) (rq : Request) (ptr : Nat)
    (change : UserEdit) : (s.edited rq ptr change).nextAddress = s.nextAddress := by
  obtain ⟨_, heq⟩ | ⟨k, t, hk, hm, heq⟩ := s.edited_cases rq ptr change
  · rw [heq]
  · rw [heq]
    cases hm
    exact (ConnectionData.nextPtr_edit _ _ _ _).trans
      (ConnectionData.nextPtr_allocateFrom (hwf.nextPtr_le _ k hk))

/-- Nor does a reply. -/
theorem nextAddress_committed {s : Server} (hwf : s.WF) (rq : Request) (ptr : Nat) :
    (s.committed rq ptr).nextAddress = s.nextAddress := by
  obtain ⟨_, heq⟩ | ⟨k, t, hk, hm, heq⟩ := s.committed_cases rq ptr
  · rw [heq]
  · rw [heq]
    cases hm
    exact ConnectionData.nextPtr_allocateFrom (hwf.nextPtr_le _ k hk)

/-- A step without a ready callback hands nothing out. -/
theorem not_handsOut {s : Server} {l : Step}
    (h : ∀ c r ptr d, (c, .requestReady r ptr d) ∉ (machine.act l s).events) (q c r ptr : Nat)
    (d : RequestData) : ¬ HandsOut q c r ptr d ⟨s, l⟩ := by
  rintro ⟨_, hmem⟩
  exact h c r ptr d hmem

section Evolves

variable {tr : List (Fired Server Step)} {s s' : Server} {l : Step}

/-- A step that writes nothing and whose connections store what they stored, or
begin a request. -/
theorem Evolves.of_silent (hentries : ∀ c r e, s'.entryAt c r = some e →
      (∃ e', s.entryAt c r = some e' ∧ e'.ptr = e.ptr ∧ e'.ready = e.ready ∧
        e.data.output = e'.data.output ∧ (e.ready = true → e.data = e'.data)) ∨
      e.ready = false ∧ s.nextAddress ≤ e.ptr ∧ ∃ status, e.data = RequestData.new status)
    (hsilent : ∀ q, changesBy q ⟨s, l⟩ = []) (hrequests : KeepsRequests s s')
    (hnext : s'.nextRequest = s.nextRequest) (haddress : s.nextAddress ≤ s'.nextAddress)
    (hnot : ∀ c r ptr d, (c, .requestReady r ptr d) ∉ (machine.act l s).events) :
    Evolves tr s l s' where
  entries c r e he := by
    obtain ⟨e', he', hptr, hready, hout, hdata⟩ | hnew := hentries c r e he
    · exact .inl ⟨e', [], he', hptr, hready, hout, fun _ => rfl, hdata, fun q _ => hsilent q⟩
    · exact .inr hnew
  requests := hrequests
  nextRequest_eq := hnext
  nextAddress_le := haddress
  makes := not_handsOut hnot

/-- A step that leaves the connections alone. -/
theorem Evolves.of_connections_eq (hconnections : s'.connections = s.connections)
    (hsilent : ∀ q, changesBy q ⟨s, l⟩ = []) (hrequests : KeepsRequests s s')
    (hnext : s'.nextRequest = s.nextRequest) (haddress : s'.nextAddress = s.nextAddress)
    (hnot : ∀ c r ptr d, (c, .requestReady r ptr d) ∉ (machine.act l s).events) :
    Evolves tr s l s' := by
  refine .of_silent (fun c r e he => ?_) hsilent hrequests hnext (Nat.le_of_eq haddress.symm) hnot
  rw [entryAt_congr hconnections] at he
  exact .inl ⟨e, he, rfl, rfl, rfl, fun _ => rfl⟩

/-- What is written through a request arrives in the object that was made for
it, and in no other. -/
theorem Evolves.of_written (hw : Written tr s) {q ptr : Nat} {rq : Request} {change : UserEdit}
    (hl : l.writes = some (q, change)) (hq : s.requests q = some rq) (hg : s.Grants rq ptr)
    (hentries : s'.entryAt = (s.edited rq ptr change).entryAt) (hrequests : KeepsRequests s s')
    (hnext : s'.nextRequest = s.nextRequest) (haddress : s'.nextAddress = s.nextAddress)
    (hnot : ∀ c r ptr d, (c, .requestReady r ptr d) ∉ (machine.act l s).events) :
    Evolves tr s l s' where
  entries c r e he := by
    rw [hentries] at he
    obtain ⟨e', he', hptr, hready, hdata⟩ := entryAt_edited he
    have hmade := hw.request q rq ptr hq hg.dataWeakPtr_eq
    have hgranted : (s.granted q).isSome := by
      rw [granted_of_grants hq hg]
      rfl
    have hafter : e.data = e'.data.after
        (if c = rq.home ∧ r = rq.requestId ∧ e.ptr = ptr then [change] else []) := by
      rw [hdata]
      split <;> rfl
    refine .inl ⟨e', _, he', hptr, hready, congrArg _ hafter, fun hnotReady => ?_,
      fun _ => hafter,
      fun q' hq' => ?_⟩
    · rw [if_neg]
      rintro ⟨_, _, heq⟩
      have hwasReady := (hw.made q _ _ ptr hmade).2.2 c r e' he' (hptr.trans heq)
      rw [hready, hnotReady] at hwasReady
      cases hwasReady
    · rw [changesBy_of_granted hl hgranted]
      by_cases heq : q = q'
      · subst heq
        obtain ⟨_, hq'⟩ := hq'
        obtain ⟨_, hmade⟩ := hmade
        obtain ⟨rfl, rfl, rfl, _⟩ := hw.same q _ _ _ _ _ _ _ _ hq' hmade
        rw [if_pos rfl, if_pos ⟨rfl, rfl, rfl⟩]
      · rw [if_neg heq, if_neg]
        rintro ⟨rfl, rfl, rfl⟩
        exact heq (hw.once q' _ _ q _ _ _ hq' hmade)
  requests := hrequests
  nextRequest_eq := hnext
  nextAddress_le := Nat.le_of_eq haddress.symm
  makes := not_handsOut hnot

/-- A step of a strand whose callbacks make no request. -/
theorem Evolves.of_strand (hwf : s.WF) {c : Nat} {k : AcceptedConnection} {l' : Strand.Step}
    {t : Strand} {es : List Event} (hk : s.connections c = some k)
    (hm : Strand.Moves (k.strand.allocateFrom s.nextAddress) l' t es)
    (hown : ∀ r ptr change, l' ≠ .edit r ptr change)
    (hquiet : ∀ r ptr d, .requestReady r ptr d ∉ es)
    (hconnections : s'.connections = (s.setStrand c k.connectionId t).connections)
    (hrequests : s'.requests = s.requests) (hnext : s'.nextRequest = s.nextRequest)
    (haddress : s'.nextAddress = t.connection.data.nextPtr)
    (hnot : ∀ c r ptr d, (c, .requestReady r ptr d) ∉ (machine.act l s).events)
    (hl : l.writes = none) : Evolves tr s l s' := by
  have hfrom := ConnectionData.nextPtr_allocateFrom (hwf.nextPtr_le c k hk)
  refine .of_silent (fun c' r e he => ?_) (changesBy_of_silent hl) (keepsRequests_of_eq hrequests)
    hnext ?_ hnot
  · rw [entryAt_congr hconnections, entryAt_setStrand] at he
    split at he
    · next heq =>
        subst heq
        rw [entryAt_eq hk]
        obtain ⟨e', he', hptr, hout, hsame⟩ | ⟨hready, hptr, hnew⟩ :=
          hm.keepsOutput hown r e he
        · obtain ⟨e'', he'', _, hready⟩ | ⟨_, hready, _⟩ := hm.life.entry hquiet he
          · rw [he', Option.some.injEq] at he''
            subst he''
            refine .inl ⟨e', he', hptr, hready, hout.symm, fun hyes => ?_⟩
            rw [hsame (hready.trans hyes)]
          · -- an address that is in the map is not the next one
            have hlt := (k.strand.allocateFrom s.nextAddress).connection.data.ptr_lt r e' he'
            omega
        · exact .inr ⟨hready, Nat.le_of_eq (hptr.trans hfrom).symm, hnew⟩
    · exact .inl ⟨e, he, rfl, rfl, rfl, fun _ => rfl⟩
  · rw [haddress, ← hfrom]
    exact hm.life.nextPtr_le

end Evolves

/-- A step in which no request becomes ready. -/
theorem Moves.evolves {tr : List (Fired Server Step)} {s s' : Server} {l : Step}
    {es : List (Nat × Event)} (h : Moves s l s' es) (hw : Written tr s) (hwf : s.WF)
    (he : machine.enabled s l = true) (hes : (machine.act l s).events = es)
    (hnot : ∀ c r ptr d, (c, .requestReady r ptr d) ∉ es) : Evolves tr s l s' := by
  have hown : ∀ {c l'}, l = .strand c l' → ∀ r ptr change, l' ≠ .edit r ptr change := by
    rintro c l' rfl r ptr change rfl
    simp [machine, enabled, strandEnabled] at he
  have hquiet : ∀ {c : Nat} {es' : List Event}, es = es'.map (fun e => (c, e)) →
      ∀ r ptr d, .requestReady r ptr d ∉ es' := by
    rintro c es' rfl r ptr d hmem
    exact hnot c r ptr d (List.mem_map_of_mem hmem)
  have hcancelled : ∀ rq ptr, (((s.edited rq ptr .cancelBuffers).committed rq ptr).nextAddress) =
      s.nextAddress := fun rq ptr =>
    (nextAddress_committed (hwf.edited _ _ _) rq ptr).trans (nextAddress_edited hwf rq ptr _)
  have hnone := hnot
  rw [← hes] at hnot
  cases h with
  | strand hk hm =>
      exact .of_strand hwf hk hm (hown rfl) (hquiet rfl) rfl rfl rfl rfl hnot rfl
  | ready => exact absurd (List.mem_cons_of_mem _ (List.mem_cons_self ..)) (hnone _ _ _ _)
  | closing hk hm =>
      exact .of_strand hwf hk hm (hown rfl) (hquiet rfl) rfl rfl rfl rfl hnot rfl
  | @accept fs u hfree =>
      refine .of_silent (fun c r e he => ?_) (changesBy_of_silent rfl) (keepsRequests_of_eq rfl) rfl
        (Nat.le_refl _) hnot
      refine .inl ⟨e, ?_, rfl, rfl, rfl, fun _ => rfl⟩
      rw [entryAt, Option.bind_eq_some_iff] at he ⊢
      obtain ⟨k, hk, he⟩ := he
      obtain ⟨rfl, rfl⟩ | ⟨_, hk⟩ := Table.of_insert hk
      · have hempty : (Strand.init fs u).connection.data.requestMap[r]? = none := rfl
        rw [hempty] at he
        cases he
      · exact ⟨k, hk, he⟩
  | closeConnection =>
      exact .of_connections_eq rfl (changesBy_of_silent rfl) (keepsRequests_of_eq rfl) rfl rfl hnot
  | noRequest =>
      exact .of_connections_eq rfl (changesBy_of_silent rfl) (keepsRequests_of_eq rfl) rfl rfl hnot
  | lost =>
      exact .of_connections_eq rfl (changesBy_of_silent rfl) (keepsRequests_of_eq rfl) rfl rfl hnot
  | handlerDeleted =>
      exact .of_connections_eq rfl (changesBy_of_silent rfl) (keepsRequests_of_eq rfl) rfl rfl hnot
  | notRouted _ hq =>
      exact .of_connections_eq rfl (changesBy_of_silent rfl)
        (keepsRequests_withPhase hq rfl) rfl rfl hnot
  | stored _ hq =>
      exact .of_connections_eq rfl (changesBy_of_silent rfl)
        (keepsRequests_withPhase hq rfl) rfl rfl hnot
  | denied hl hq hn =>
      have hsilent : ∀ q, changesBy q ⟨s, l⟩ = [] := by
        obtain rfl | rfl | ⟨change, rfl⟩ := hl
        · exact changesBy_of_silent rfl
        · exact changesBy_of_denied rfl (granted_of_not hq hn)
        · exact changesBy_of_denied rfl (granted_of_not hq hn)
      exact .of_connections_eq rfl hsilent (keepsRequests_of_eq rfl) rfl rfl hnot
  | @commit q ptr rq hq =>
      refine .of_silent (fun c r e he => ?_) (changesBy_of_silent rfl)
        (keepsRequests_replied (by simp) rfl)
        (by simp [setRequest]) (Nat.le_of_eq (nextAddress_committed hwf _ _).symm) hnot
      have hsame := congrFun (congrFun (entryAt_committed s rq ptr) c) r
      rw [← hsame]
      exact .inl ⟨e, he, rfl, rfl, rfl, fun _ => rfl⟩
  | cancel hq hphase hg =>
      exact .of_written hw rfl hq hg (entryAt_committed _ _ _)
        (keepsRequests_replied (by simp) rfl)
        (by simp [setRequest]) (hcancelled _ _) hnot
  | edit hq hg =>
      exact .of_written hw rfl hq hg rfl (keepsRequests_of_eq (by simp)) (by simp)
        (nextAddress_edited hwf _ _ _) hnot
  | destroyValid hq hphase hg =>
      exact .of_written hw rfl hq hg (entryAt_committed _ _ _)
        (keepsRequests_replied (by simp) rfl)
        (by simp [setRequest]) (hcancelled _ _) hnot
  | release hq =>
      split
      · exact .of_connections_eq rfl (changesBy_of_silent rfl)
          (keepsRequests_withPhase hq rfl) rfl rfl hnot
      · exact .of_connections_eq rfl (changesBy_of_silent rfl)
          (keepsRequests_withPhase hq rfl) rfl rfl hnot
  | destroyed hq =>
      exact .of_connections_eq rfl (changesBy_of_silent rfl)
        (keepsRequests_withPhase hq rfl) rfl rfl hnot
  | cancelling hq =>
      exact .of_connections_eq rfl (changesBy_of_silent rfl)
        (keepsRequests_withPhase hq rfl) rfl rfl hnot
  | stop =>
      exact .of_connections_eq rfl (changesBy_of_silent rfl) (keepsRequests_of_eq rfl) rfl rfl hnot

/-! ## The step in which a request becomes ready -/

section Ready

variable {tr : List (Fired Server Step)} {s s' : Server} {l : Step} {c r : Nat} {e : Entry}
  {f : RequestState → RequestData → RequestState × RequestData}

/-- What a step that makes a request does to entries and requests. -/
structure Readies (s : Server) (l : Step) (c r : Nat) (e : Entry)
    (f : RequestState → RequestData → RequestState × RequestData) (s' : Server) : Prop where
  entry : s.entryAt c r = some e
  output_eq : (f e.state e.data).2.output = e.data.output
  was_ready : e.ready = false
  ready : Entry.ready ⟨(f e.state e.data).1, e.ptr, (f e.state e.data).2⟩ = true
  entries : ∀ c' r', s'.entryAt c' r' =
    if c' = c ∧ r' = r then some ⟨(f e.state e.data).1, e.ptr, (f e.state e.data).2⟩
    else s.entryAt c' r'
  requests : ∀ q rq', s'.requests q = some rq' → s.requests q = some rq' ∨
    q = s.nextRequest ∧ rq'.dataWeakPtr = some e.ptr ∧ rq'.home = c ∧ rq'.requestId = r
  nextRequest_eq : s'.nextRequest = s.nextRequest + 1
  nextAddress_eq : s'.nextAddress = s.nextAddress
  makes : ∀ q c' r' ptr d, HandsOut q c' r' ptr d ⟨s, l⟩ ↔
    q = s.nextRequest ∧ c' = c ∧ r' = r ∧ ptr = e.ptr ∧ d = (f e.state e.data).2
  silent : l.writes = none

/-- A step that hands an object out: with its request the changes begin anew. -/
theorem Written.readies (h : Written tr s) (hi : s.Invariant) (hr : Readies s l c r e f s') :
    Written (tr ++ [⟨s, l⟩]) s' := by
  have hmade : ∀ {q c' r' ptr}, Made (tr ++ [⟨s, l⟩]) q c' r' ptr ↔ Made tr q c' r' ptr ∨
      q = s.nextRequest ∧ c' = c ∧ r' = r ∧ ptr = e.ptr := by
    intro q c' r' ptr
    rw [made_append_iff]
    simp only [hr.makes]
    simp
  have hchanges : ∀ q, (tr ++ [(⟨s, l⟩ : Fired Server Step)]).flatMap (changesBy q) =
      tr.flatMap (changesBy q) := by
    intro q
    rw [List.flatMap_append, List.flatMap_singleton, changesBy_of_silent hr.silent, List.append_nil]
  -- an entry is the one that is ready now, or it was there before
  have hentry : ∀ {c' r' e'}, s'.entryAt c' r' = some e' →
      (c' = c ∧ r' = r) ∧ e' = ⟨(f e.state e.data).1, e.ptr, (f e.state e.data).2⟩ ∨
        ¬ (c' = c ∧ r' = r) ∧ s.entryAt c' r' = some e' := by
    intro c' r' e' he'
    rw [hr.entries] at he'
    split at he'
    · next heq =>
        cases he'
        exact .inl ⟨heq, rfl⟩
    · next hne => exact .inr ⟨hne, he'⟩
  have hcustody : ∀ {c' r' e'}, s.entryAt c' r' = some e' →
      s.custody.entry c' r' = some (e'.ptr, e'.ready) := by
    intro c' r' e' he'
    obtain ⟨k, hk, he'⟩ := Option.bind_eq_some_iff.mp he'
    rw [entry_custody hk, stored, he']
    rfl
  constructor
  case fresh =>
    intro c' r' e' he' hnot
    obtain ⟨_, rfl⟩ | ⟨_, he'⟩ := hentry he'
    · rw [hr.ready] at hnot
      cases hnot
    · exact h.fresh c' r' e' he' hnot
  case ready =>
    intro c' r' e' he' hready
    obtain ⟨⟨rfl, rfl⟩, rfl⟩ | ⟨_, he'⟩ := hentry he'
    · obtain ⟨status, hfresh⟩ := h.fresh _ _ e hr.entry hr.was_ready
      refine ⟨s.nextRequest, status, _,
        handed_append_iff.mpr (.inr ((hr.makes ..).mpr ⟨rfl, rfl, rfl, rfl, rfl⟩)),
        hr.output_eq.trans hfresh, ?_⟩
      rw [hchanges, h.unborn _ (Nat.le_refl _), RequestData.after_nil]
    · obtain ⟨q, status, d, hq, hfresh, hdata⟩ := h.ready c' r' e' he' hready
      exact ⟨q, status, d, hq.append _, hfresh, by rw [hchanges, hdata]⟩
  case request =>
    intro q rq' ptr hq hptr
    obtain hq | ⟨rfl, hdata, hhome, hid⟩ := hr.requests q rq' hq
    · exact hmade.mpr (.inl (h.request q rq' ptr hq hptr))
    · rw [hdata] at hptr
      cases hptr
      exact hmade.mpr (.inr ⟨rfl, hhome, hid, rfl⟩)
  case made =>
    intro q c' r' ptr hm
    rw [hr.nextRequest_eq, hr.nextAddress_eq]
    obtain hm | ⟨rfl, rfl, rfl, rfl⟩ := hmade.mp hm
    · obtain ⟨hq, hlt, hready⟩ := h.made q c' r' ptr hm
      refine ⟨Nat.lt_succ_of_lt hq, hlt, fun c'' r'' e'' he'' hptr => ?_⟩
      obtain ⟨_, rfl⟩ | ⟨_, he''⟩ := hentry he''
      · exact hr.ready
      · exact hready c'' r'' e'' he'' hptr
    · refine ⟨Nat.lt_succ_self _, (hi.sound.entry_made _ _ _ (hcustody hr.entry)).2, ?_⟩
      intro c'' r'' e'' he'' hptr
      obtain ⟨_, rfl⟩ | ⟨hne, he''⟩ := hentry he''
      · exact hr.ready
      · -- no other entry holds the same object
        exact absurd (hi.sound.entry_inj _ _ _ _ _ _ (hcustody he'') (hcustody hr.entry) hptr) hne
  case once =>
    intro q c₁ r₁ q' c₂ r₂ ptr hm hm'
    have hnew : ∀ {q c' r'}, ¬ Made tr q c' r' e.ptr := by
      intro q c' r' hm
      have hwasReady := (h.made q c' r' _ hm).2.2 _ _ e hr.entry rfl
      rw [hr.was_ready] at hwasReady
      cases hwasReady
    obtain hm | ⟨rfl, _, _, rfl⟩ := hmade.mp hm
    · obtain hm' | ⟨_, _, _, rfl⟩ := hmade.mp hm'
      · exact h.once q c₁ r₁ q' c₂ r₂ ptr hm hm'
      · exact absurd hm hnew
    · obtain hm' | ⟨rfl, _⟩ := hmade.mp hm'
      · exact absurd hm' hnew
      · rfl
  case same =>
    intro q c₁ r₁ ptr₁ d₁ c₂ r₂ ptr₂ d₂ hm hm'
    have hnew : ∀ {c' r' ptr d}, ¬ Handed tr s.nextRequest c' r' ptr d := fun hm =>
      Nat.lt_irrefl _ (h.made _ _ _ _ ⟨_, hm⟩).1
    rw [handed_append_iff, hr.makes] at hm hm'
    obtain hm | ⟨rfl, rfl, rfl, rfl, rfl⟩ := hm
    · obtain hm' | ⟨rfl, _⟩ := hm'
      · exact h.same q c₁ r₁ ptr₁ d₁ c₂ r₂ ptr₂ d₂ hm hm'
      · exact absurd hm hnew
    · obtain hm' | ⟨_, hc, hid, hptr, hdata⟩ := hm'
      · exact absurd hm' hnew
      · exact ⟨hc, hid, hptr, hdata⟩
  case unborn =>
    intro q hq
    rw [hr.nextRequest_eq] at hq
    rw [hchanges]
    exact h.unborn q (Nat.le_of_succ_le hq)

end Ready

/-- Every step with a ready callback is of this kind. -/
theorem Moves.readies {s s' : Server} {l : Step} {es : List (Nat × Event)} (h : Moves s l s' es)
    (hwf : s.WF) (hes : (machine.act l s).events = es)
    {c r ptr : Nat} {d : RequestData} (hready : (c, .requestReady r ptr d) ∈ es) :
    ∃ e f, Readies s l c r e f s' := by
  cases h with
  | strand _ _ hquiet =>
      obtain ⟨y, hy, heq⟩ := List.mem_map.mp hready
      cases heq
      cases hquiet _ hy
  | closing _ _ hquiet =>
      obtain ⟨y, hy, heq⟩ := List.mem_map.mp hready
      cases heq
      rw [List.mem_append, List.mem_singleton] at hy
      obtain hy | hy := hy
      · cases hquiet _ hy
      · cases hy
  | @ready c active r k l' t ty content e f hk hm hf hentry hbits hstate hdata ha =>
      have hfrom := ConnectionData.nextPtr_allocateFrom (hwf.nextPtr_le c k hk)
      simp only [List.mem_cons, Prod.mk.injEq, reduceCtorEq, and_false, Event.requestReady.injEq,
        List.not_mem_nil, or_false, false_or] at hready
      obtain ⟨rfl, rfl, rfl, rfl⟩ := hready
      refine ⟨e, f, ⟨(entryAt_eq hk _).trans hentry, hf.output_eq _ _, hf.ready_eq_false, hbits,
        fun c' r' => ?_, fun q rq' hq => ?_, rfl, ?_, fun q c' r' ptr d => ?_, rfl⟩⟩
      · have hsame : ((s.setStrand c k.connectionId t).requested c k.connectionId active r
            e.ptr).entryAt c' r' = (s.setStrand c k.connectionId t).entryAt c' r' := rfl
        rw [hsame, entryAt_setStrand]
        by_cases hc : c' = c
        · subst hc
          rw [if_pos rfl, hdata, ConnectionData.getElem?_modifyEntry, entryAt_eq hk]
          by_cases hr : r = r'
          · subst hr
            rw [if_pos rfl, if_pos ⟨rfl, rfl⟩]
            exact congrArg (Option.map _) hentry
          · rw [if_neg hr, if_neg fun h => hr h.2.symm]
            rfl
        · rw [if_neg hc, if_neg fun h => hc h.1]
      · obtain ⟨rfl, rfl⟩ | ⟨_, hq⟩ := Table.of_insert hq
        · exact .inr ⟨rfl, rfl, rfl, rfl⟩
        · exact .inl hq
      · show t.connection.data.nextPtr = s.nextAddress
        rw [hdata]
        exact hfrom
      · simp only [HandsOut, Machine.observed, hes, List.mem_cons, Prod.mk.injEq, reduceCtorEq,
          and_false, Event.requestReady.injEq, List.not_mem_nil, or_false, false_or,
          eq_comm (a := s.nextRequest)]
  | _ => cases hready

/-- In every run what is stored is what was written. -/
theorem written_of_run {tr : List (Fired Server Step)} {s : Server} (h : machine.Run init tr s) :
    Written tr s := by
  induction h with
  | nil => exact written_init
  | @step tr s l hrun he hv ih =>
      have hi := invariant_of_run hrun
      have hm := moves hi.wf he hv
      by_cases hready : ∃ c r ptr d, (c, .requestReady r ptr d) ∈ (machine.act l s).events
      · obtain ⟨c, r, ptr, d, hready⟩ := hready
        obtain ⟨e, f, hreadies⟩ := hm.readies hi.wf rfl hready
        exact ih.readies hi hreadies
      · refine ih.evolves hi.wf (hm.evolves ih hi.wf he rfl fun c r ptr d hmem => ?_)
        exact hready ⟨c, r, ptr, d, hmem⟩

/-- What was handed out was announced by its connection. -/
theorem Handed.announced {tr : List (Fired Server Step)} {q c r ptr : Nat} {d : RequestData}
    (h : Handed tr q c r ptr d) : .requestReady r ptr d ∈ eventsOf c (machine.trace tr) := by
  obtain ⟨f, hf, _, hmem⟩ := h
  rw [← flatMap_observed, List.mem_flatMap]
  exact ⟨f, hf, by simpa [eventsOf] using hmem⟩

/-- The bytes that the events of one connection put on its wire. -/
theorem written_map (c : Nat) (es : List Event) :
    written c (es.map fun e => (c, e)) = sentBytes es := by
  rw [written, List.flatMap_map]
  simp [sentBytes]

/-- The events of a step of a connection are those of its own machine. -/
theorem events_strand {s : Server} {c : Nat} {k : AcceptedConnection} (l : Strand.Step)
    (hk : s.connections c = some k) : (machine.act (.strand c l) s).events =
      (Strand.machine.act l (k.strand.allocateFrom s.nextAddress)).events.map fun e => (c, e) := by
  rcases hrun : Strand.machine.act l (k.strand.allocateFrom s.nextAddress) with ⟨x, t, es⟩
  obtain ⟨x', s', hcallbacks, _⟩ :=
    runCallbacks_connections c k.connectionId es (s.setStrand c k.connectionId t)
  have hact : machine.act (.strand c l) s = _ := strandStep_run hk hrun
  rw [hact, Outcome.events_after, Act.bind_run, hcallbacks]
  cases x' <;> simp

/-- A connection stores requests under the ids of packets only. -/
theorem requestId_lt_of_run {tr : List (Fired Server Step)} {s : Server} {c : Nat}
    {k : AcceptedConnection} (h : machine.Run init tr s) (hk : s.connections c = some k)
    {r ptr : Nat} (hvalid : k.strand.connection.data.isValidRequest r ptr = true) : r < 65536 := by
  revert r ptr
  refine connection_inv (fun _ _ s => ∀ {r ptr : Nat},
    s.connection.data.isValidRequest r ptr = true → r < 65536) ?_ ?_ ?_ h hk
  · rintro _ ⟨fs, u, rfl⟩ r ptr hvalid
    have hempty : (Strand.init fs u).connection.data.size = 0 := rfl
    rw [ConnectionData.isValidRequest_of_size_eq_zero hempty] at hvalid
    cases hvalid
  · intro _ _ s l _ hj _ hm r ptr hvalid
    exact hm.life.requestId_lt (fun _ _ => hj) hvalid
  · exact fun _ _ _ _ hj => hj

/-- A reply carries the id of a packet. -/
theorem sent_lt {tr : List (Fired Server Step)} {s : Server} {l : Step} {c r ptr : Nat}
    (h : machine.Run init tr s) (he : machine.enabled s l = true)
    (hsend : (c, .sendReply r ptr) ∈ (machine.act l s).events) : r < 65536 := by
  obtain ⟨hnot, _⟩ | ⟨_, k, _, _, _, e, rfl, hk, _, hentry, hptr, _, honly, _⟩ :=
    sendReply_cases (invariant_of_run h) he
  · exact absurd hsend (hnot c r ptr)
  · obtain ⟨rfl, rfl, rfl⟩ := honly c r ptr hsend
    exact requestId_lt_of_run h hk (ConnectionData.isValidRequest_iff.mpr ⟨e, hentry, hptr⟩)

/-- The reply to an object: the one request that was made for it, and what its
buffers hold after everything that was done through that request. -/
theorem Written.reply {tr : List (Fired Server Step)} {s : Server} {l : Step} {c r ptr : Nat}
    (hw : Written tr s) (hi : s.Invariant) (he : machine.enabled s l = true)
    (hsend : (c, .sendReply r ptr) ∈ (machine.act l s).events) :
    ∃ q status d, Handed tr q c r ptr d ∧ d.output = (RequestData.new status).output ∧
      written c (machine.act l s).events <+:
        blockBytes (replyRecords r (d.after (tr.flatMap (changesBy q)))) ∧
      (machine.survives s l = true →
        (∀ part, (c, .writeError part) ∉ (machine.act l s).events) →
        written c (machine.act l s).events =
          blockBytes (replyRecords r (d.after (tr.flatMap (changesBy q))))) := by
  obtain ⟨hnot, _⟩ | ⟨c', k, r', ptr', rest, e, rfl, hk, htasks, hentry, hptr,
    hready, honly, _⟩ :=
    sendReply_cases hi he
  · exact absurd hsend (hnot c r ptr)
  obtain ⟨rfl, rfl, rfl⟩ := honly c r ptr hsend
  subst hptr
  obtain ⟨q, status, d, hmade, hfresh, hdata⟩ :=
    hw.ready c r e ((entryAt_eq hk r).trans hentry) hready
  have hreply := Strand.sentBytes_reply (s := k.strand.allocateFrom s.nextAddress)
    (hi.wf.connection_wf c k hk) htasks hentry hready
  rw [hdata] at hreply
  rw [events_strand .runTask hk, written_map]
  refine ⟨q, status, d, hmade, hfresh, hreply.1, fun hv herror => hreply.2 ?_
    fun part hmem => ?_⟩
  · obtain ⟨x, t, es, hrun, hx, _⟩ := act_strand hk hv
    rw [Machine.survives_iff, hrun]
    exact hx
  · exact herror part (List.mem_map_of_mem hmem)

/-- **The reply is what the buffers hold.**  Whatever happened on the connections
and to the other requests since an object was handed out, and however often its
id was used before and since: exactly one request was ever made for the object,
which had no output then, and its reply puts out the records of what its buffers
hold after everything done through that request, of that and nothing else; only
a write that fails breaks it off, or an assertion that ends the process in this
step.  Writing appends to a buffer, cancelling empties out and writes a text of
its own.  A web server reads the buffers and the status off a whole reply while
each buffer is shorter than 2^32. -/
theorem reply_is_what_was_written {tr : List (Fired Server Step)} {s : Server} {l : Step}
    {c r ptr : Nat} (h : machine.Run init tr s) (he : machine.enabled s l = true)
    (hsend : (c, .sendReply r ptr) ∈ (machine.act l s).events) :
    ∃ q status d, Handed tr q c r ptr d ∧
      (∀ q' c' r', Made tr q' c' r' ptr → q' = q ∧ c' = c ∧ r' = r) ∧
      d.output = (RequestData.new status).output ∧
      ∃ d', d' = d.after (tr.flatMap (changesBy q)) ∧
        written c (machine.act l s).events <+: blockBytes (replyRecords r d') ∧
        (machine.survives s l = true →
          (∀ part, (c, .writeError part) ∉ (machine.act l s).events) →
          RepliesWith (written c (machine.act l s).events) r d') := by
  have hw := written_of_run h
  obtain ⟨q, status, d, hmade, hfresh, hprefix, hwhole⟩ :=
    hw.reply (invariant_of_run h) he hsend
  refine ⟨q, status, d, hmade, fun q' c' r' hmade' => ?_, hfresh, _, rfl, hprefix,
    fun hv herror => .of_records (sent_lt h he hsend) (hwhole hv herror)⟩
  obtain rfl := hw.once q c r q' c' r' _ ⟨d, hmade⟩ hmade'
  obtain ⟨_, hmade'⟩ := hmade'
  obtain ⟨rfl, rfl, _⟩ := hw.same _ _ _ _ _ _ _ _ _ hmade hmade'
  exact ⟨rfl, rfl, rfl⟩

/-- Two users write to the two requests of one connection in turns; the first
one's reply holds his two letters. -/
theorem reply_is_what_was_written_in_turns : ∃ tr s, machine.Run init tr s ∧
    (written 0 (machine.act (.strand 0 .runTask) s).events).take 10 =
      [1, 6, 0, 1, 0, 2, 6, 0, 97, 98] ∧
    ∃ q d d', Handed tr q 0 1 0 d ∧ d' = d.after (tr.flatMap (changesBy q)) ∧
      written 0 (machine.act (.strand 0 .runTask) s).events <+: blockBytes (replyRecords 1 d') := by
  obtain ⟨tr, s, hrun, hs⟩ := Machine.exists_run_of_exec machine init
    [.accept [] fun _ => 0, .strand 0 (.handleRead false (emptyRequest 1 ++
        [1, 1, 0, 2, 0, 8, 0, 0, 0, 1, 1, 0, 0, 0, 0, 0, 1, 4, 0, 2, 0, 0, 0, 0,
          1, 5, 0, 2, 0, 0, 0, 0])),
      .strand 0 .nextPacket, .strand 0 .nextPacket, .strand 0 .nextPacket, .strand 0 .nextPacket,
      .strand 0 .nextPacket, .strand 0 .nextPacket, .strand 0 .nextPacket, .acceptorTask true,
      .acceptorTask true, .edit 0 (.out [97]), .edit 1 (.out [120]), .edit 0 (.out [98]), .commit 0]
    (fun _ s => machine.enabled s (.strand 0 .runTask) &&
      (decide ((0, Event.sendReply 1 0) ∈ (machine.act (.strand 0 .runTask) s).events) &&
        decide ((written 0 (machine.act (.strand 0 .runTask) s).events).take 10 =
          [1, 6, 0, 1, 0, 2, 6, 0, 97, 98]))) (by decide +kernel)
  simp only [Bool.and_eq_true, decide_eq_true_eq] at hs
  obtain ⟨he, hsend, hbytes⟩ := hs
  obtain ⟨q, _, d, hmade, _, _, d', hd, hprefix, _⟩ := reply_is_what_was_written hrun he hsend
  exact ⟨tr, s, hrun, hbytes, q, d, d', hmade, hd, hprefix⟩

end Server

end Santiago
