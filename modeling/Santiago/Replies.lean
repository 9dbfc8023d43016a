import Santiago.RequestLife

/-!
# Santiago.Replies

The replies waiting on the strand of a connection, and the entries they are
for.  `Turn` says what a step does to the queue: nothing, or it takes a
commit to the end of it, or it runs the `commitReplyImpl` at its head.
-/

namespace Santiago

open Effect Bytes PacketSocket Connection

/-- What a task replies to. -/
def StrandTask.reply : StrandTask → Option (Nat × Nat)
  | .flushProtocolSocket => none
  | .commitReplyImpl requestId ptr => some (requestId, ptr)

namespace Connection

/-- The replies queued on the strand, in order. -/
def replies (c : Connection) : List (Nat × Nat) := c.socket.strand.filterMap StrandTask.reply

/-- The replies of a connection are those its strand still has to run. -/
theorem mem_replies {c : Connection} {r ptr : Nat} :
    (r, ptr) ∈ c.replies ↔ .commitReplyImpl r ptr ∈ c.socket.strand := by
  rw [replies, List.mem_filterMap]
  constructor
  · intro ⟨task, hmem, htask⟩
    cases task with
    | flushProtocolSocket => cases htask
    | commitReplyImpl r' ptr' =>
        cases htask
        exact hmem
  · intro h
    exact ⟨_, h, rfl⟩

/-- The close posts a flush, and no reply. -/
@[simp] theorem replies_shut (c : Connection) : c.shut.replies = c.replies := by
  rw [replies, socket_shut, PacketSocket.shut]
  split
  · rfl
  · simp [replies, StrandTask.reply]

@[simp] theorem replies_withFaults (c : Connection) (fs : List (Option Nat)) :
    (c.withFaults fs).replies = c.replies := rfl

@[simp] theorem replies_consumed (c : Connection) (n : Nat) : (c.consumed n).replies = c.replies :=
  rfl

@[simp] theorem replies_received (c : Connection) (bytes : Bytes) :
    (c.received bytes).replies = c.replies := rfl

/-- A packet leaves the queued replies as they are. -/
theorem PacketEffect.replies_eq {c c' : Connection} {r : Nat} {t : UInt8} {content : Bytes}
    {x : Exit Unit} {es : List Event} (h : PacketEffect c r t content ⟨x, c', es⟩)
    (hlive : ∀ w, x ≠ .abort w) : c'.replies = c.replies := by
  cases h with
  | rejected => rfl
  | answered => rfl
  | answerFailed => simp
  | began => rfl
  | beganLast => rfl
  | abortUnknown => rfl
  | aborted => rfl
  | abortedLast => exact replies_shut _
  | abortFailed => simp
  | received => rfl
  | receivedReady => rfl
  | died => exact absurd rfl (hlive _)

/-- A pass leaves the queued replies as they are. -/
theorem PassEffect.replies_eq {c c' : Connection} {again : Bool} {es : List Event}
    (h : PassEffect c ⟨.ret again, c', es⟩) : c'.replies = c.replies := by
  cases h with
  | drained => rfl
  | unsupported => rfl
  | incomplete => rfl
  | handled _ h => exact h.replies_eq (by simp)
  | caught _ h => exact h.replies_eq (by simp)

/-- A reply that runs leaves the replies behind it as they are. -/
theorem CommitEffect.replies_eq {c c' : Connection} {r ptr : Nat} {es : List Event}
    (h : CommitEffect c r ptr ⟨.ret (), c', es⟩) : c'.replies = c.replies := by
  cases h with
  | stale => rfl
  | replied => rfl
  | repliedLast => exact replies_shut _
  | replyFailed => simp

/-! ## Who sends a reply -/

/-- The records that are written are no reply of their own. -/
theorem sendReply_notMem_wrote {r ptr : Nat} {ps : List (FcgiHeader × Bytes)} :
    Event.sendReply r ptr ∉ ps.map wroteEvent := by
  intro hmem
  obtain ⟨_, _, hw⟩ := wroteEvent_quiet hmem
  cases hw

/-- A packet never sends a reply. -/
theorem PacketEffect.sendReply_notMem {c c' : Connection} {r r' ptr : Nat} {t : UInt8}
    {content : Bytes} {x : Exit Unit} {es : List Event}
    (h : PacketEffect c r t content ⟨x, c', es⟩) (hlive : ∀ w, x ≠ .abort w) :
    .sendReply r' ptr ∉ es := by
  cases h with
  | answered => exact sendReply_notMem_wrote
  | answerFailed =>
      rw [failedWrite, List.mem_append, not_or]
      exact ⟨sendReply_notMem_wrote, by simp⟩
  | died => exact absurd rfl (hlive _)
  | _ => simp [wroteEvent]

/-- A pass sends no reply. -/
theorem PassEffect.sendReply_notMem {c c' : Connection} {r ptr : Nat} {again : Bool}
    {es : List Event} (h : PassEffect c ⟨.ret again, c', es⟩) : .sendReply r ptr ∉ es := by
  cases h with
  | drained => simp
  | unsupported => simp
  | incomplete => simp
  | handled _ h =>
      have hnot := @PacketEffect.sendReply_notMem _ _ _ r ptr _ _ _ _ h (by simp)
      simpa using hnot
  | caught _ h =>
      have hnot := @PacketEffect.sendReply_notMem _ _ _ r ptr _ _ _ _ h (by simp)
      simpa using hnot

/-- What is left to say of a reply that ran: the object is not stored under
its id afterwards, and if it was sent at all, it was sent once and was stored. -/
theorem CommitEffect.settles {c c' : Connection} {r ptr : Nat} {es : List Event}
    (h : CommitEffect c r ptr ⟨.ret (), c', es⟩) :
    c'.data.isValidRequest r ptr = false ∧ c'.data.nextPtr = c.data.nextPtr ∧
      (∀ (r' : Nat) (e : Entry), c'.data.requestMap[r']? = some e →
        c.data.requestMap[r']? = some e) ∧
      (es = [] ∧ c.data.isValidRequest r ptr = false ∨ ∃ es', es = .sendReply r ptr :: es' ∧
        (∀ r' ptr', .sendReply r' ptr' ∉ es') ∧ c.data.isValidRequest r ptr = true) := by
  have herase : ∀ (r' : Nat) (e : Entry), (c.data.erase r).requestMap[r']? = some e →
      c.data.requestMap[r']? = some e := by
    intro r' e he
    rw [ConnectionData.getElem?_erase] at he
    split at he
    · cases he
    · exact he
  cases h with
  | stale hstale => exact ⟨hstale, rfl, fun _ _ he => he, .inl ⟨rfl, hstale⟩⟩
  | replied _ he hp =>
      refine ⟨by simp [ConnectionData.isValidRequest_erase], rfl, herase,
        .inr ⟨_, List.cons_append, ?_, ConnectionData.isValidRequest_iff.mpr ⟨_, he, hp⟩⟩⟩
      intro r' ptr' hmem
      rw [List.mem_append] at hmem
      obtain hmem | hmem := hmem
      · exact sendReply_notMem_wrote hmem
      · simp at hmem
  | repliedLast _ he hp =>
      refine ⟨by simp, rfl, by simp, .inr ⟨_, List.cons_append, ?_,
        ConnectionData.isValidRequest_iff.mpr ⟨_, he, hp⟩⟩⟩
      intro r' ptr' hmem
      rw [List.mem_append] at hmem
      obtain hmem | hmem := hmem
      · exact sendReply_notMem_wrote hmem
      · simp at hmem
  | replyFailed _ he hp =>
      refine ⟨by simp, rfl, by simp, .inr ⟨_, List.cons_append, ?_,
        ConnectionData.isValidRequest_iff.mpr ⟨_, he, hp⟩⟩⟩
      intro r' ptr' hmem
      rw [List.mem_append] at hmem
      obtain hmem | hmem := hmem
      · exact sendReply_notMem_wrote hmem
      · simp at hmem

end Connection

/-! ## What a step does to the queue -/

namespace Strand

def replies (s : Strand) : List (Nat × Nat) := s.connection.replies

/-- Everything a step can do to the replies of its connection. -/
inductive Turn (s : Strand) : Step → Strand → List Event → Prop
  | keep {l : Step} {s' : Strand} {es : List Event} : s'.replies = s.replies →
      (∀ r ptr, l ≠ .commitReply r ptr) →
      (∀ r ptr, .sendReply r ptr ∉ es) → Turn s l s' es
  | commitReply {r ptr : Nat} {s' : Strand} : s'.replies = s.replies ++ [(r, ptr)] →
      s'.connection.data = s.connection.data → Turn s (.commitReply r ptr) s' []
  | commitReplyImpl {r ptr : Nat} {rest : List StrandTask} {s' : Strand} {es : List Event} :
      s.connection.socket.strand = .commitReplyImpl r ptr :: rest →
      s.replies = (r, ptr) :: s'.replies →
      CommitEffect (withStrand s.connection rest) r ptr ⟨.ret (), s'.connection, es⟩ →
      Turn s .runTask s' es

/-- Every step of a connection that returns turns its replies over as `Turn`
says. -/
theorem Moves.turn {s s' : Strand} {l : Step} {es : List Event} (h : Moves s l s' es) :
    Turn s l s' es := by
  cases h with
  | readClosed => exact .keep rfl (by simp) (by simp)
  | readFailed => exact .keep (replies_shut _) (by simp) (by simp)
  | readBytes => exact .keep rfl (by simp) (by simp)
  | pass h => exact .keep h.replies_eq (by simp) fun _ _ => h.sendReply_notMem
  | flush htasks =>
      refine .keep ?_ (by simp) (by simp)
      rw [replies, replies, Connection.replies, Connection.replies, htasks]
      rfl
  | @commit r ptr rest c' es htasks h =>
      refine .commitReplyImpl htasks ?_ h
      have hrest : c'.replies = rest.filterMap StrandTask.reply := h.replies_eq
      rw [replies, replies, hrest, Connection.replies, htasks]
      rfl
  | commitReply =>
      refine .commitReply ?_ rfl
      simp [replies, Connection.replies, withStrand, StrandTask.reply]
  | edit => exact .keep rfl (by simp) (by simp)

/-- The task at the head of the queue is the one that runs. -/
theorem Moves.commit_of_head {s s' : Strand} {r ptr : Nat} {rest : List StrandTask}
    {es : List Event} (h : Moves s .runTask s' es)
    (htasks : s.connection.socket.strand = .commitReplyImpl r ptr :: rest) :
    CommitEffect (withStrand s.connection rest) r ptr ⟨.ret (), s'.connection, es⟩ := by
  cases h with
  | flush hflush => exact absurd (htasks.symm.trans hflush) (by simp)
  | commit hcommit heffect =>
      rw [htasks] at hcommit
      cases hcommit
      exact heffect

/-- If the process dies where a reply heads the strand, it died in that reply. -/
theorem Dies.commit_of_head {s : Strand} {r ptr : Nat} {rest : List StrandTask} {w : String}
    {es : List Event} (h : Dies s .runTask w es)
    (htasks : s.connection.socket.strand = .commitReplyImpl r ptr :: rest) :
    ∃ c', CommitEffect (withStrand s.connection rest) r ptr ⟨.abort w, c', es⟩ := by
  cases h with
  | flush hflush => exact absurd (htasks.symm.trans hflush) (by simp)
  | commit hcommit heffect =>
      rw [htasks] at hcommit
      cases hcommit
      exact ⟨_, heffect⟩

/-! ## What a step sends -/

/-- The reply among the events of a step: none, or the one that the task at
the head of the queue asked for, whose object is stored. -/
inductive SendsReply (s : Strand) (l : Step) (es : List Event) : Prop
  | none : (∀ r ptr, .sendReply r ptr ∉ es) → SendsReply s l es
  | one {r ptr : Nat} {rest : List StrandTask} {es' : List Event} : l = .runTask →
      s.connection.socket.strand = .commitReplyImpl r ptr :: rest →
      s.connection.data.isValidRequest r ptr = true → es = .sendReply r ptr :: es' →
      (∀ r' ptr', .sendReply r' ptr' ∉ es') → SendsReply s l es

/-- A step that returns sends a reply only as `SendsReply` says. -/
theorem Moves.sendsReply {s s' : Strand} {l : Step} {es : List Event} (h : Moves s l s' es) :
    SendsReply s l es := by
  cases h.turn with
  | keep _ _ hnot => exact .none hnot
  | commitReply => exact .none (by simp)
  | commitReplyImpl htasks _ heffect =>
      obtain ⟨_, _, _, ⟨rfl, _⟩ | ⟨es', hes, hnot, hvalid⟩⟩ := heffect.settles
      · exact .none (by simp)
      · exact .one rfl htasks hvalid hes hnot

/-- So does one in which the process dies. -/
theorem Dies.sendsReply {s : Strand} {l : Step} {w : String} {es : List Event}
    (h : Dies s l w es) : SendsReply s l es := by
  cases h with
  | pass h =>
      cases h with
      | died _ h =>
          cases h with
          | died _ _ hes => exact .none (by obtain rfl | rfl := hes <;> simp)
  | flush => exact .none (by simp)
  | commit htasks h =>
      cases h with
      | incomplete he hp =>
          exact .one rfl htasks (ConnectionData.isValidRequest_iff.mpr ⟨_, he, hp⟩) rfl
            fun _ _ => sendReply_notMem_wrote
      | died _ he hp =>
          exact .one rfl htasks (ConnectionData.isValidRequest_iff.mpr ⟨_, he, hp⟩) rfl
            (by simp)

/-- However a step ends, it sends a reply only as `SendsReply` says. -/
theorem Ends.sendsReply {s : Strand} {l : Step} {o : Outcome Event Strand Unit}
    (h : Ends s l o) : SendsReply s l o.events := by
  cases h with
  | ret h => exact h.sendsReply
  | abort h => exact h.sendsReply

/-- A reply whose object is not stored any more does nothing. -/
theorem Ends.events_of_stale {s : Strand} {r ptr : Nat} {rest : List StrandTask}
    {o : Outcome Event Strand Unit} (h : Ends s .runTask o)
    (htasks : s.connection.socket.strand = .commitReplyImpl r ptr :: rest)
    (hstale : s.connection.data.isValidRequest r ptr = false) : o.events = [] := by
  have hstored : ∀ e, s.connection.data.requestMap[r]? = some e → e.ptr ≠ ptr := by
    intro e he hp
    have hvalid := ConnectionData.isValidRequest_iff.mpr ⟨e, he, hp⟩
    rw [hstale] at hvalid
    cases hvalid
  cases h with
  | ret h =>
      obtain ⟨_, _, _, ⟨hes, _⟩ | ⟨_, _, _, hvalid⟩⟩ :=
        (h.commit_of_head htasks).settles
      · exact hes
      · exact absurd (hstale.symm.trans hvalid) Bool.false_ne_true
  | abort h =>
      obtain ⟨_, heffect⟩ := h.commit_of_head htasks
      cases heffect with
      | incomplete he hp => exact absurd hp (hstored _ he)
      | died _ he hp => exact absurd hp (hstored _ he)

end Strand

/-! ## Where an entry comes from -/

/-- A packet is taken by a request only while the request is not ready. -/
theorem Connection.Receives.ready_eq_false {t : UInt8} {content : Bytes} {e : Entry}
    {f : RequestState → RequestData → RequestState × RequestData}
    (h : Receives t content e f) :
    e.ready = false := by
  cases h with
  | stdin _ hbit => simp [Entry.ready, hbit]
  | params _ hbit => simp [Entry.ready, hbit]

/-- An entry that is stored after a step was stored before under the same id,
holds the same object and is as ready as it was, or its object is new; unless
the step made it ready. -/
theorem Life.entry {st st' : Connection.State} {d d' : ConnectionData} {es : List Event}
    (h : Life st d st' d' es) (hquiet : ∀ r ptr data, .requestReady r ptr data ∉ es)
    {r : Nat} {e : Entry} (he : d'.requestMap[r]? = some e) :
    (∃ e', d.requestMap[r]? = some e' ∧ e'.ptr = e.ptr ∧ e'.ready = e.ready) ∨
      e.ptr = d.nextPtr ∧ e.ready = false ∧ d.nextPtr < d'.nextPtr := by
  have hnew : ∀ {r₀ : Nat}, (d.insertNew r₀).requestMap[r]? = some e →
      (∃ e', d.requestMap[r]? = some e' ∧ e'.ptr = e.ptr ∧ e'.ready = e.ready) ∨
        e.ptr = d.nextPtr ∧ e.ready = false ∧ d.nextPtr < (d.insertNew r₀).nextPtr := by
    intro r₀ he
    rw [ConnectionData.getElem?_insertNew] at he
    split at he
    · cases he
      exact .inr ⟨rfl, by simp [Entry.ready], Nat.lt_succ_self _⟩
    · exact .inl ⟨e, he, rfl, rfl⟩
  have herase : ∀ {r₀ : Nat}, (d.erase r₀).requestMap[r]? = some e →
      d.requestMap[r]? = some e := by
    intro r₀ he
    rw [ConnectionData.getElem?_erase] at he
    split at he
    · cases he
    · exact he
  cases h with
  | silent => exact .inl ⟨e, he, rfl, rfl⟩
  | rejected => exact .inl ⟨e, he, rfl, rfl⟩
  | answered => exact .inl ⟨e, he, rfl, rfl⟩
  | abortUnknown => exact .inl ⟨e, he, rfl, rfl⟩
  | @edited r₀ ptr change =>
      left
      unfold ConnectionData.edit at he
      split at he
      · rw [ConnectionData.getElem?_modifyEntry] at he
        split at he
        · next heq =>
            subst heq
            obtain ⟨e', he', rfl⟩ := Option.map_eq_some_iff.mp he
            exact ⟨e', he', rfl, rfl⟩
        · exact ⟨e, he, rfl, rfl⟩
      · exact ⟨e, he, rfl, rfl⟩
  | failed => simp at he
  | began => exact hnew he
  | beganLast => exact hnew he
  | received hf hpre hready =>
      left
      rw [ConnectionData.getElem?_modifyEntry] at he
      split at he
      · next heq =>
          subst heq
          rw [hpre] at he
          cases he
          exact ⟨_, hpre, rfl, hf.ready_eq_false.trans hready.symm⟩
      · exact ⟨e, he, rfl, rfl⟩
  | receivedReady => exact absurd (List.mem_cons_of_mem _ List.mem_cons_self) (hquiet _ _ _)
  | left => exact .inl ⟨e, herase he, rfl, rfl⟩
  | leftLast => simp at he

end Santiago
