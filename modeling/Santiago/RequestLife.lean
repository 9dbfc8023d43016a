import Santiago.Strand

/-!
# Santiago.RequestLife

A step of a connection, seen from its request map: how the state of the
connection and the map change, with the events of the step, and nothing of
the socket and its buffers.  `Strand.Moves.life` reads it off the steps.
-/

namespace Santiago

open Effect Bytes PacketSocket Connection

/-- A read or a write of the socket failed. -/
def Event.isSocketError : Event → Bool
  | .readError => true
  | .writeError _ => true
  | _ => false

/-- The two calls a connection makes to the acceptor. -/
def Event.isCallback : Event → Bool
  | .requestReady _ _ _ => true
  | .closeCallback => true
  | _ => false

/-- The events in front of an entry's removal: its own abort, or its own reply. -/
inductive Leaves (r : Nat) (e : Entry) : List Event → Prop
  | abort {content : Bytes} :
      Leaves r e [.newPacket r fcgiAbortRequest content, wroteEvent (abortRecord r)]
  | reply : Leaves r e (.sendReply r e.ptr :: (replyRecords r e.data).map wroteEvent)

/-- What happens to the state and the request map of a connection in one
step, with the events of the step. -/
inductive Life (st : Connection.State) (d : ConnectionData) :
    Connection.State → ConnectionData → List Event → Prop
  | silent : Life st d st d []
  | edited {r ptr : Nat} {change : UserEdit} : Life st d st (d.edit r ptr change) []
  | rejected {r : Nat} {t : UInt8} {content : Bytes} :
      Life st d st d [.newPacket r t content]
  | answered {r r' : Nat} {t t' : UInt8} {content body : Bytes} : st ≠ .closed →
      r < 65536 → Answer r t content r' t' body →
      Life st d st d
        (.newPacket r t content :: (bufferRecords r' t' body).map wroteEvent)
  | abortUnknown {r : Nat} {content : Bytes} : st ≠ .closed →
      d.requestMap[r]? = none →
      Life st d st d
        [.newPacket r fcgiAbortRequest content, wroteEvent (abortRecord r)]
  | failed {before : List Event} {x : Event} {n : Nat} : st ≠ .closed →
      (∀ y ∈ before, (∃ r t content, y = .newPacket r t content) ∨
        (∃ h content, y = .wrote h content) ∨ ∃ r ptr, y = .sendReply r ptr) →
      x.isSocketError = true →
      Life st d .closed d.clear (before ++ [x, .cleared n, .closeCallback])
  | began {r : Nat} {content : Bytes} : r < 65536 → BeginsRequest fcgiBeginRequest content →
      KeepsConnection content → d.requestMap[r]? = none →
      Life st d st (d.insertNew r)
        [.newPacket r fcgiBeginRequest content, .began r d.nextPtr]
  | beganLast {r : Nat} {content : Bytes} : st ≠ .closed → r < 65536 →
      BeginsRequest fcgiBeginRequest content → ¬ KeepsConnection content →
      d.requestMap[r]? = none →
      Life st d .closing (d.insertNew r)
        [.newPacket r fcgiBeginRequest content, .began r d.nextPtr]
  | received {r : Nat} {t : UInt8} {content : Bytes} {e : Entry}
      {f : RequestState → RequestData → RequestState × RequestData} :
      Receives t content e f → d.requestMap[r]? = some e →
      Entry.ready ⟨(f e.state e.data).1, e.ptr, (f e.state e.data).2⟩ = false →
      Life st d st (d.modifyEntry r f) [.newPacket r t content]
  | receivedReady {r : Nat} {t : UInt8} {content : Bytes} {e : Entry}
      {f : RequestState → RequestData → RequestState × RequestData} :
      Receives t content e f → d.requestMap[r]? = some e →
      Entry.ready ⟨(f e.state e.data).1, e.ptr, (f e.state e.data).2⟩ = true →
      Life st d st (d.modifyEntry r f)
        [.newPacket r t content, .requestReady r e.ptr (f e.state e.data).2]
  | left {r : Nat} {e : Entry} {before : List Event} : st ≠ .closed →
      d.requestMap[r]? = some e → Leaves r e before →
      ¬ (st = .closing ∧ (d.erase r).size = 0) →
      Life st d st (d.erase r) (before ++ [.erased r e.ptr])
  | leftLast {r : Nat} {e : Entry} {before : List Event} : st = .closing →
      d.requestMap[r]? = some e → Leaves r e before → (d.erase r).size = 0 →
      Life st d .closed (d.erase r).clear
        (before ++ [.erased r e.ptr, .cleared 0, .closeCallback])

theorem wroteEvent_quiet {ps : List (FcgiHeader × Bytes)} {y : Event}
    (h : y ∈ ps.map wroteEvent) : ∃ header content, y = .wrote header content := by
  obtain ⟨p, _, rfl⟩ := List.mem_map.mp h
  exact ⟨p.1, p.2, rfl⟩

theorem Connection.PacketEffect.life {c c' : Connection} {r : Nat} {t : UInt8} {content : Bytes}
    {x : Exit Unit} {es : List Event} (hr : r < 65536)
    (h : PacketEffect c r t content ⟨x, c', es⟩) (hlive : ∀ w, x ≠ .abort w) :
    Life c.state c.data c'.state c'.data (.newPacket r t content :: es) := by
  cases h with
  | rejected => exact .rejected
  | answered ha hc _ => exact .answered hc hr ha
  | @answerFailed r' t' body part _ k ha hc _ =>
      have hlife := @Life.failed c.state c.data
        (.newPacket r t content :: ((bufferRecords r' t' body).take k).map wroteEvent)
        (.writeError part) c.data.size hc (by
          intro y hy
          cases hy with
          | head => exact .inl ⟨_, _, _, rfl⟩
          | tail _ hy => exact .inr (.inl (wroteEvent_quiet hy))) rfl
      simpa [failedWrite] using hlife
  | began hb hk hn =>
      obtain rfl := hb.1
      exact .began hr hb hk hn
  | beganLast hb hk hn hc =>
      obtain rfl := hb.1
      exact .beganLast hc hr hb hk hn
  | abortUnknown ht hc hn _ =>
      subst ht
      exact .abortUnknown hc hn
  | aborted ht hc he _ hlast =>
      subst ht
      exact .left hc he .abort hlast
  | abortedLast ht hc he _ hlast =>
      subst ht
      exact .leftLast hc he .abort hlast
  | @abortFailed _ part _ ht hc _ =>
      exact @Life.failed _ _ [.newPacket r t content] (.writeError part) _ hc (by
        intro y hy
        rw [List.mem_singleton] at hy
        exact .inl ⟨_, _, _, hy⟩) rfl
  | received hf he hready => exact .received hf he hready
  | receivedReady hf he hready => exact .receivedReady hf he hready
  | died => exact absurd rfl (hlive _)

theorem Connection.PassEffect.life {c c' : Connection} {again : Bool} {es : List Event}
    (h : PassEffect c ⟨.ret again, c', es⟩) : Life c.state c.data c'.state c'.data es := by
  cases h with
  | drained => exact .silent
  | unsupported => exact .silent
  | incomplete => exact .silent
  | handled hn h =>
      have hlife := h.life (FcgiHeader.requestId_lt _) (by simp)
      exact hlife
  | caught hn h =>
      have hlife := h.life (FcgiHeader.requestId_lt _) (by simp)
      exact hlife

theorem Connection.CommitEffect.life {c c' : Connection} {r ptr : Nat} {es : List Event}
    (h : CommitEffect c r ptr ⟨.ret (), c', es⟩) : Life c.state c.data c'.state c'.data es := by
  cases h with
  | stale => exact .silent
  | replied hc he hp _ _ hlast =>
      subst hp
      exact .left hc he .reply hlast
  | repliedLast hc he hp _ _ hlast =>
      subst hp
      exact .leftLast hc he .reply hlast
  | @replyFailed e _ k n part hc he hp _ =>
      refine @Life.failed _ _ (.sendReply r ptr :: ((replyRecords r e.data).take k).map wroteEvent)
        (.writeError part) _ hc ?_ rfl
      intro y hy
      cases hy with
      | head => exact .inr (.inr ⟨_, _, rfl⟩)
      | tail _ hy => exact .inr (.inl (wroteEvent_quiet hy))

/-- **Every step** does to the request map one of the things `Life` lists. -/
theorem Strand.Moves.life {s s' : Strand} {l : Strand.Step} {es : List Event}
    (h : Moves s l s' es) :
    Life s.connection.state s.connection.data s'.connection.state s'.connection.data es := by
  cases h with
  | readClosed => exact .silent
  | readFailed hc => exact @Life.failed _ _ [] .readError _ hc (by simp) rfl
  | readBytes => exact .silent
  | pass h => exact h.life
  | flush => exact .silent
  | commit _ h => exact h.life
  | commitReply => exact .silent
  | edit => exact .edited

/-- CLOSED and CLOSING are never left for OPEN, and CLOSED is never left. -/
theorem Life.state_mono {st st' : Connection.State} {d d' : ConnectionData} {es : List Event}
    (h : Life st d st' d' es) :
    (st ≠ .open → st' ≠ .open) ∧ (st = .closed → st' = .closed) := by
  cases h with
  | failed => exact ⟨fun _ => nofun, fun _ => rfl⟩
  | beganLast hc => exact ⟨fun _ => nofun, fun hst => absurd hst hc⟩
  | leftLast hc => exact ⟨fun _ => nofun, fun _ => rfl⟩
  | _ => exact ⟨id, id⟩

/-- No step gives an address back. -/
theorem Life.nextPtr_le {st st' : Connection.State} {d d' : ConnectionData} {es : List Event}
    (h : Life st d st' d' es) : d.nextPtr ≤ d'.nextPtr := by
  cases h with
  | edited => simp
  | began => simp
  | beganLast => simp
  | _ => exact Nat.le_refl _

/-- Every id in the request map came in the header of a record. -/
theorem Life.requestId_lt {st st' : Connection.State} {d d' : ConnectionData} {es : List Event}
    (h : Life st d st' d' es) (hlt : ∀ r ptr, d.isValidRequest r ptr = true → r < 65536)
    {r ptr : Nat} (hvalid : d'.isValidRequest r ptr = true) : r < 65536 := by
  cases h with
  | began hr _ _ hfree | beganLast _ hr _ _ hfree =>
      rw [ConnectionData.isValidRequest_insertNew hfree, Bool.or_eq_true, Bool.and_eq_true,
        beq_iff_eq] at hvalid
      obtain hold | ⟨rfl, _⟩ := hvalid
      · exact hlt r ptr hold
      · exact hr
  | edited =>
      rw [ConnectionData.isValidRequest_edit] at hvalid
      exact hlt r ptr hvalid
  | received | receivedReady =>
      rw [ConnectionData.isValidRequest_modifyEntry] at hvalid
      exact hlt r ptr hvalid
  | left =>
      rw [ConnectionData.isValidRequest_erase, Bool.and_eq_true] at hvalid
      exact hlt r ptr hvalid.2
  | failed | leftLast =>
      rw [ConnectionData.isValidRequest_clear] at hvalid
      cases hvalid
  | silent | rejected | answered | abortUnknown => exact hlt r ptr hvalid

theorem isCallback_wrote {ps : List (FcgiHeader × Bytes)} {y : Event}
    (h : y ∈ ps.map wroteEvent) : y.isCallback = false := by
  obtain ⟨header, content, rfl⟩ := wroteEvent_quiet h
  rfl

theorem Leaves.isCallback {r : Nat} {e : Entry} {before : List Event} (h : Leaves r e before)
    {y : Event} (hy : y ∈ before) : y.isCallback = false := by
  cases h with
  | abort =>
      simp only [List.mem_cons, List.not_mem_nil, or_false] at hy
      rcases hy with rfl | rfl <;> rfl
  | reply =>
      obtain rfl | hy := List.mem_cons.mp hy
      · rfl
      · exact isCallback_wrote hy

/-- A step that ends the process calls nobody first. -/
theorem Strand.Dies.isCallback {s : Strand} {l : Strand.Step} {w : String} {es : List Event}
    (h : Dies s l w es) {y : Event} (hy : y ∈ es) : y.isCallback = false := by
  cases h with
  | pass h =>
      cases h with
      | died _ h =>
          cases h with
          | died _ _ hes =>
              obtain rfl | rfl := hes
              · rw [List.mem_singleton] at hy
                rw [hy]
                rfl
              · simp only [List.mem_cons, List.not_mem_nil, or_false] at hy
                obtain rfl | rfl := hy <;> rfl
  | flush => cases hy
  | commit _ h =>
      cases h with
      | incomplete =>
          rw [List.mem_cons] at hy
          obtain rfl | hy := hy
          · rfl
          · exact isCallback_wrote hy
      | died =>
          rw [List.mem_singleton] at hy
          rw [hy]
          rfl

/-- A step calls the acceptor at most once, as the last thing it does: when a
request becomes ready, or when the connection closes. -/
theorem Life.callbacks {st st' : Connection.State} {d d' : ConnectionData} {es : List Event}
    (h : Life st d st' d' es) :
    (∀ y ∈ es, y.isCallback = false) ∧ (st' = .closed → st = .closed) ∨
    (∃ r t content e f, Receives t content e f ∧ d.requestMap[r]? = some e ∧
      Entry.ready ⟨(f e.state e.data).1, e.ptr, (f e.state e.data).2⟩ = true ∧ st' = st ∧
      d' = d.modifyEntry r f ∧
      es = [.newPacket r t content, .requestReady r e.ptr (f e.state e.data).2]) ∨
    ∃ before, (∀ y ∈ before, y.isCallback = false) ∧ es = before ++ [.closeCallback] ∧
      st ≠ .closed ∧ st' = .closed ∧ d'.requestMap = ∅ := by
  cases h with
  | silent => exact .inl ⟨by simp, id⟩
  | edited => exact .inl ⟨by simp, id⟩
  | rejected => exact .inl ⟨by simp [Event.isCallback], id⟩
  | answered =>
      refine .inl ⟨fun y hy => ?_, id⟩
      obtain rfl | hy := List.mem_cons.mp hy
      · rfl
      · exact isCallback_wrote hy
  | abortUnknown => exact .inl ⟨by simp [Event.isCallback, wroteEvent], id⟩
  | @failed before x n hc hbefore hx =>
      refine .inr (.inr ⟨before ++ [x, .cleared n], ?_, by simp, hc, rfl, rfl⟩)
      intro y hy
      rw [List.mem_append] at hy
      obtain hy | hy := hy
      · obtain ⟨_, _, _, rfl⟩ | ⟨_, _, rfl⟩ | ⟨_, _, rfl⟩ := hbefore y hy <;> rfl
      · simp only [List.mem_cons, List.not_mem_nil, or_false] at hy
        obtain rfl | rfl := hy
        · cases y <;> first | rfl | cases hx
        · rfl
  | began => exact .inl ⟨by simp [Event.isCallback], id⟩
  | beganLast => exact .inl ⟨by simp [Event.isCallback], by simp⟩
  | received => exact .inl ⟨by simp [Event.isCallback], id⟩
  | receivedReady hf he hready =>
      exact .inr (.inl ⟨_, _, _, _, _, hf, he, hready, rfl, rfl, rfl⟩)
  | left hc he hleaves hlast =>
      refine .inl ⟨fun y hy => ?_, id⟩
      rw [List.mem_append, List.mem_singleton] at hy
      obtain hy | rfl := hy
      · exact hleaves.isCallback hy
      · rfl
  | @leftLast r e before hst he hleaves hsize =>
      refine .inr (.inr ⟨before ++ [.erased r e.ptr, .cleared 0], ?_, by simp, ?_, rfl, rfl⟩)
      · intro y hy
        rw [List.mem_append] at hy
        obtain hy | hy := hy
        · exact hleaves.isCallback hy
        · simp only [List.mem_cons, List.not_mem_nil, or_false] at hy
          obtain rfl | rfl := hy <;> rfl
      · simp [hst]

end Santiago
