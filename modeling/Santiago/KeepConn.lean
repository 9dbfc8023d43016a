import Santiago.WindDown

/-!
# Santiago.KeepConn

The `FCGI_KEEP_CONN` flag over a whole run.  A begin-request without it asks
that the connection close behind its last request.  `handleNewPacket` looks
at the flag only behind the role: a begin-request of a role it does not
support is answered and forgotten, flag and all, and the connection stays.
-/

namespace Santiago

open Effect Bytes PacketSocket Connection

namespace Life

variable {st st' : Connection.State} {d d' : ConnectionData} {es : List Event}

theorem begin_notMem_leaves {r r' : Nat} {e : Entry} {before : List Event} {content : Bytes}
    (h : Leaves r' e before) : .newPacket r fcgiBeginRequest content ∉ before := by
  cases h with
  | abort => simp [wroteEvent, fcgiBeginRequest, fcgiAbortRequest]
  | reply => simpa using newPacket_notMem_wrote

/-- A begin-request that a step answers by itself has a role nobody supports. -/
theorem unknownRole_of_wrote (h : Life st d st' d' es) {r : Nat} {content body : Bytes}
    {header : FcgiHeader} (hp : .newPacket r fcgiBeginRequest content ∈ es)
    (hw : .wrote header body ∈ es) :
    st' = .closed ∨ FcgiBeginRequestBody.size ≤ content.length ∧
      (FcgiBeginRequestBody.cast content).role ≠ fcgiResponder := by
  cases h with
  | silent => cases hw
  | edited => cases hw
  | rejected => simp at hw
  | @answered r₀ r' t t' content₀ body' _ _ ha =>
      rw [List.mem_cons] at hp
      obtain hp | hp := hp
      · cases hp
        cases ha with
        | getValues ht => cases ht
        | unknownRole _ hsize hrole => exact .inr ⟨hsize, hrole⟩
        | unknownType ht => exact absurd (by decide) ht
      · exact absurd hp newPacket_notMem_wrote
  | abortUnknown => simp [wroteEvent, fcgiBeginRequest, fcgiAbortRequest] at hp
  | failed => exact .inl rfl
  | began => simp at hw
  | beganLast => simp at hw
  | received => simp at hw
  | receivedReady => simp at hw
  | left _ _ hleaves =>
      rw [List.mem_append] at hp
      obtain hp | hp := hp
      · exact absurd hp (begin_notMem_leaves hleaves)
      · simp at hp
  | leftLast _ _ hleaves => exact .inl rfl

end Life

namespace Strand

/-- The step receives a begin-request without the flag, and it gets an
end-request body: at once for its role, or, behind the step, by the abort or
the reply that takes the request it stored out of the map. -/
def AnsweredLast (f : Fired Strand Step) (later : List (Fired Strand Step)) : Prop :=
  ∃ r content, .newPacket r fcgiBeginRequest content ∈ machine.observed f ∧
    ¬ KeepsConnection content ∧
    ((∃ header, .wrote header RecordSocket.unknownRoleBody ∈ machine.observed f) ∨
      ∃ ptr, .began r ptr ∈ machine.observed f ∧
        ∃ g ∈ later, .erased r ptr ∈ machine.observed g)

/-- Once a begin-request without the flag is answered, a connection without
requests is CLOSED. -/
def HonoursKeepConn (tr : List (Fired Strand Step)) (s : Strand) : Prop :=
  ∀ xs f ys, tr = xs ++ f :: ys → AnsweredLast f ys → s.connection.data.size = 0 →
    s.connection.state = .closed

/-- The next packet of an OPEN connection is a begin-request of an unsupported
role, without the flag. -/
def DropsFlag (s : Strand) (l : Step) : Prop :=
  l = .nextPacket ∧ s.connection.state = .open ∧ ∃ header content,
    NextRecord s.connection.socket.inputBuffer header content ∧
    header.type = fcgiBeginRequest ∧ FcgiBeginRequestBody.size ≤ content.length ∧
    (FcgiBeginRequestBody.cast content).role ≠ fcgiResponder ∧ ¬ KeepsConnection content

/-- A step that receives a begin-request without the flag, and answers or
stores it, leaves the connection CLOSING or CLOSED if it does not drop the flag. -/
theorem state_ne_open_of_answeredLast {f : Fired Strand Step} {later : List (Fired Strand Step)}
    (hm : Moves f.pre f.label (machine.post f) (machine.observed f))
    (hkeeps : ¬ DropsFlag f.pre f.label) (h : AnsweredLast f later) :
    (machine.post f).connection.state ≠ .open := by
  obtain ⟨r, content, hp, hflag, ⟨header, hw⟩ | ⟨ptr, hb, _⟩⟩ := h
  · obtain hclosed | ⟨hsize, hrole⟩ := hm.life.unknownRole_of_wrote hp hw
    · rw [hclosed]
      decide
    · obtain ⟨hl, next, hnext, _, htype⟩ := hm.nextRecord hp
      refine hm.life.state_mono.1 fun hopen => ?_
      exact hkeeps ⟨hl, hopen, next, content, hnext, htype, hsize, hrole, hflag⟩
  · exact hm.life.windsDown hp hb hflag

/-- **Keeping or closing**: in every run in which no begin-request's flag is
dropped, a connection that has answered a begin-request without
`FCGI_KEEP_CONN` is CLOSED whenever its request map is empty. -/
theorem honoursKeepConn_of_run {fs : List (Option Nat)} {u : Nat → BitVec 32}
    {tr : List (Fired Strand Step)} {s : Strand} (h : machine.Run (init fs u) tr s)
    (hkeeps : ∀ f ∈ tr, ¬ DropsFlag f.pre f.label) : HonoursKeepConn tr s := by
  intro xs f ys htr hanswered hsize
  have hf := moves_of_mem h (f := f) (by simp [htr])
  have hne := state_ne_open_of_answeredLast hf (hkeeps f (by simp [htr])) hanswered
  have hclosing := closing_of_run h
  subst htr
  obtain ⟨hbefore, _, _, hafter⟩ := h.split
  have hopen := state_ne_open_of_run (hf.wf (wf_of_run hbefore)) hafter hne
  exact eq_closed hopen fun hc => hclosing hc hsize

/-- A request of the supported role, aborted: the connection is CLOSED behind it. -/
theorem honoursKeepConn_of_abort : ∃ tr s, machine.Run (init [] fun _ => 0) tr s ∧
    s.connection.state = .closed ∧ tr.length = 3 ∧ HonoursKeepConn tr s := by
  obtain ⟨tr, s, hrun, hends⟩ := Machine.exists_run_of_exec machine (init [] fun _ => 0)
    [.handleRead false [1, 1, 0, 1, 0, 8, 0, 0, 0, 1, 0, 0, 0, 0, 0, 0, 1, 2, 0, 1, 0, 0, 0, 0],
      .nextPacket, .nextPacket]
    (fun tr s => (s.connection.state = .closed && tr.length = 3) && tr.all fun f =>
      (FcgiHeader.cast f.pre.connection.socket.inputBuffer).type ≠ fcgiBeginRequest ||
        (FcgiBeginRequestBody.cast ((f.pre.connection.socket.inputBuffer.drop fcgiHeaderLen).take
          (FcgiHeader.cast f.pre.connection.socket.inputBuffer).contentLength)).role =
            fcgiResponder) (by decide)
  rw [Bool.and_eq_true, Bool.and_eq_true, decide_eq_true_eq, decide_eq_true_eq] at hends
  obtain ⟨⟨hclosed, hlength⟩, hroles⟩ := hends
  refine ⟨tr, s, hrun, hclosed, hlength, honoursKeepConn_of_run hrun ?_⟩
  intro f hf hdrops
  obtain ⟨_, _, header, content, hnext, htype, _, hrole, _⟩ := hdrops
  have hf := List.all_eq_true.mp hroles f hf
  rw [hnext.cast_eq, hnext.content_eq, Bool.or_eq_true, decide_eq_true_eq, decide_eq_true_eq] at hf
  obtain hf | hf := hf
  · exact hf htype
  · exact hrole hf

/-- A begin-request of role 2, an authorizer's, without the flag: it is
answered, and the connection stays OPEN with no request. -/
theorem flag_dropped_with_role : ¬ ∀ fs u tr s, machine.Run (init fs u) tr s →
    (∀ x ∈ machine.trace tr, x.isSocketError = false) → HonoursKeepConn tr s := by
  intro h
  obtain ⟨tr, s, hrun, hends⟩ := Machine.exists_run_of_exec machine (init [] fun _ => 0)
    [.handleRead false [1, 1, 0, 1, 0, 8, 0, 0, 0, 2, 0, 0, 0, 0, 0, 0], .nextPacket]
    (fun tr s => (s.connection.state = .open && s.connection.data.size = 0) &&
      ((machine.trace tr).all (fun x => x.isSocketError = false) && tr.getLast?.any fun g =>
        machine.observed g = [.newPacket 1 fcgiBeginRequest [0, 2, 0, 0, 0, 0, 0, 0],
          .wrote (fragmentHeader 1 fcgiEndRequest 8) RecordSocket.unknownRoleBody])) (by decide)
  simp only [Bool.and_eq_true, decide_eq_true_eq, List.all_eq_true] at hends
  obtain ⟨⟨hopen, hsize⟩, hok, hlast⟩ := hends
  obtain ⟨g, hg, hobserved⟩ := (Option.any_eq_true _ _).mp hlast
  obtain ⟨xs, hxs⟩ := List.getLast?_eq_some_iff.mp hg
  have hanswered : AnsweredLast g [] := by
    refine ⟨1, [0, 2, 0, 0, 0, 0, 0, 0], ?_, not_not_intro (by decide),
      .inl ⟨fragmentHeader 1 fcgiEndRequest 8, ?_⟩⟩
    · rw [of_decide_eq_true hobserved]
      exact List.mem_cons_self
    · rw [of_decide_eq_true hobserved]
      exact List.mem_cons_of_mem _ List.mem_cons_self
  have hclosed := h _ _ tr s hrun hok xs g [] hxs hanswered hsize
  rw [hopen] at hclosed
  cases hclosed

end Strand

end Santiago
