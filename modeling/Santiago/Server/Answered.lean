import Santiago.Server.Received
import Santiago.Server.Rest
import Santiago.Server.Written

/-!
# Santiago.Server.Answered

What becomes of a request.  `Books` keeps the books of one connection: as
long as its socket does not fail, each request that began is stored, or it has
left behind its own abort or its whole reply.  Where the process is at rest
there is nothing in between: a stored request is still coming in, or it is in
the hands of the one user that it was made for.
-/

namespace Santiago

open Effect Bytes PacketSocket Connection Chunks

/-! ## The books of a connection -/

/-- The entry with the object `ptr` has left the map, behind its own abort or
its own reply. -/
def Parted (t : List Event) (r ptr : Nat) : Prop :=
  ∃ (e : Entry) (before xs ys : List Event), e.ptr = ptr ∧ Leaves r e before ∧
    t = xs ++ (before ++ .erased r ptr :: ys)

/-- What happened before does not matter. -/
theorem Parted.append_left {t : List Event} {r ptr : Nat} (h : Parted t r ptr) (es : List Event) :
    Parted (es ++ t) r ptr := by
  obtain ⟨e, before, xs, ys, hptr, hleaves, rfl⟩ := h
  exact ⟨e, before, es ++ xs, ys, hptr, hleaves, by rw [List.append_assoc]⟩

/-- Neither does what happens after. -/
theorem Parted.append_right {t : List Event} {r ptr : Nat} (h : Parted t r ptr) (es : List Event) :
    Parted (t ++ es) r ptr := by
  obtain ⟨e, before, xs, ys, hptr, hleaves, rfl⟩ := h
  exact ⟨e, before, xs, ys ++ es, hptr, hleaves, by simp⟩

/-- The two events that change which entries there are. -/
def Event.isTurnover : Event → Bool
  | .began _ _ => true
  | .erased _ _ => true
  | _ => false

/-- A step, seen from the entries of the map: they stay, they are all cleared
because the socket fails, a new one begins, or one leaves. -/
inductive Turnover (d d' : ConnectionData) : List Event → Prop
  | same {es : List Event} : (∀ r ptr, d'.isValidRequest r ptr = d.isValidRequest r ptr) →
      (∀ y ∈ es, y.isTurnover = false) → Turnover d d' es
  | cleared {es : List Event} : (∃ x ∈ es, x.isSocketError = true) → d' = d.clear →
      (∀ y ∈ es, y.isTurnover = false) → Turnover d d' es
  | began {r : Nat} {content : Bytes} :
      r < 65536 → d.requestMap[r]? = none → d' = d.insertNew r →
      Turnover d d' [.newPacket r fcgiBeginRequest content, .began r d.nextPtr]
  | left {r : Nat} {e : Entry} {before rest : List Event} : d.requestMap[r]? = some e →
      Leaves r e before → (∀ y ∈ rest, y.isTurnover = false) →
      (d' = d.erase r ∨ (d.erase r).size = 0 ∧ d' = (d.erase r).clear) →
      Turnover d d' (before ++ .erased r e.ptr :: rest)

theorem isTurnover_wrote {ps : List (FcgiHeader × Bytes)} {y : Event}
    (h : y ∈ ps.map wroteEvent) : y.isTurnover = false := by
  obtain ⟨_, _, rfl⟩ := wroteEvent_quiet h
  rfl

/-- A request that leaves the map neither begins nor erases one before it does. -/
theorem Leaves.isTurnover {r : Nat} {e : Entry} {before : List Event} (h : Leaves r e before)
    {y : Event} (hy : y ∈ before) : y.isTurnover = false := by
  cases h with
  | abort =>
      simp only [List.mem_cons, List.not_mem_nil, or_false] at hy
      obtain rfl | rfl := hy <;> rfl
  | reply =>
      obtain rfl | hy := List.mem_cons.mp hy
      · rfl
      · exact isTurnover_wrote hy

/-- The life of the requests in a step, as a turnover of the map. -/
theorem Life.turnover {st st' : Connection.State} {d d' : ConnectionData} {es : List Event}
    (h : Life st d st' d' es) : Turnover d d' es := by
  cases h with
  | silent => exact .same (fun _ _ => rfl) (by simp)
  | edited => exact .same (fun r ptr => d.isValidRequest_edit r _ ptr _ _) (by simp)
  | rejected => exact .same (fun _ _ => rfl) (by simp [Event.isTurnover])
  | answered =>
      refine .same (fun _ _ => rfl) fun y hy => ?_
      obtain rfl | hy := List.mem_cons.mp hy
      · rfl
      · exact isTurnover_wrote hy
  | abortUnknown => exact .same (fun _ _ => rfl) (by simp [wroteEvent, Event.isTurnover])
  | failed _ hbefore herror =>
      refine .cleared ⟨_, by simp, herror⟩ rfl fun y hy => ?_
      obtain hy | hy := List.mem_append.mp hy
      · obtain ⟨_, _, _, rfl⟩ | ⟨_, _, rfl⟩ | ⟨_, _, rfl⟩ := hbefore y hy <;> rfl
      · simp only [List.mem_cons, List.not_mem_nil, or_false] at hy
        obtain rfl | rfl | rfl := hy
        · cases y <;> first | rfl | cases herror
        · rfl
        · rfl
  | began hr _ _ hnone => exact .began hr hnone rfl
  | beganLast _ hr _ _ hnone => exact .began hr hnone rfl
  | received =>
      exact .same (fun r ptr => d.isValidRequest_modifyEntry r _ ptr _) (by simp [Event.isTurnover])
  | receivedReady =>
      exact .same (fun r ptr => d.isValidRequest_modifyEntry r _ ptr _) (by simp [Event.isTurnover])
  | left _ he hleaves => exact .left he hleaves (by simp) (.inl rfl)
  | leftLast _ he hleaves hsize =>
      exact .left he hleaves (by simp [Event.isTurnover]) (.inr ⟨hsize, rfl⟩)

namespace Turnover

variable {d d' : ConnectionData} {es : List Event} {r ptr : Nat}

/-- A request that begins is stored. -/
theorem of_began (h : Turnover d d' es) (hmem : .began r ptr ∈ es) :
    r < 65536 ∧ d'.isValidRequest r ptr = true := by
  cases h with
  | same _ hquiet => cases hquiet _ hmem
  | cleared _ _ hquiet => cases hquiet _ hmem
  | began hr hnone hd =>
      simp only [List.mem_cons, reduceCtorEq, Event.began.injEq, List.not_mem_nil, or_false,
        false_or] at hmem
      obtain ⟨rfl, rfl⟩ := hmem
      exact ⟨hr, by simp [hd, ConnectionData.isValidRequest_insertNew hnone]⟩
  | left _ hleaves hquiet =>
      obtain hmem | hmem := List.mem_append.mp hmem
      · cases hleaves.isTurnover hmem
      · obtain hmem | hmem := List.mem_cons.mp hmem
        · cases hmem
        · cases hquiet _ hmem

/-- An entry that is erased leaves behind its abort or its reply. -/
theorem of_erased (h : Turnover d d' es) (hmem : .erased r ptr ∈ es) :
    Parted es r ptr ∧ ptr < d.nextPtr ∧ d'.isValidRequest r ptr = false := by
  cases h with
  | same _ hquiet => cases hquiet _ hmem
  | cleared _ _ hquiet => cases hquiet _ hmem
  | began => simp at hmem
  | @left r' e before rest he hleaves hquiet hd =>
      obtain hmem | hmem := List.mem_append.mp hmem
      · cases hleaves.isTurnover hmem
      · obtain hmem | hmem := List.mem_cons.mp hmem
        · cases hmem
          refine ⟨⟨e, before, [], rest, rfl, hleaves, rfl⟩, d.ptr_lt _ _ he, ?_⟩
          obtain rfl | ⟨_, rfl⟩ := hd
          · simp [ConnectionData.isValidRequest_erase]
          · simp
        · cases hquiet _ hmem

/-- No object comes back. -/
theorem valid_before (h : Turnover d d' es) (hlt : ptr < d.nextPtr)
    (hin : d'.isValidRequest r ptr = true) : d.isValidRequest r ptr = true := by
  cases h with
  | same hsame => rwa [hsame] at hin
  | cleared _ hd =>
      subst hd
      simp at hin
  | began _ hnone hd =>
      rw [hd, ConnectionData.isValidRequest_insertNew hnone, Bool.or_eq_true, Bool.and_eq_true,
        beq_iff_eq, beq_iff_eq] at hin
      obtain hin | ⟨_, heq⟩ := hin
      · exact hin
      · omega
  | left _ _ _ hd =>
      obtain rfl | ⟨_, rfl⟩ := hd
      · rw [ConnectionData.isValidRequest_erase, Bool.and_eq_true] at hin
        exact hin.2
      · simp at hin

/-- As long as the socket does not fail, an entry stays or is erased. -/
theorem stays_or_leaves (h : Turnover d d' es) (hsound : ∀ x ∈ es, x.isSocketError = false)
    (hin : d.isValidRequest r ptr = true) :
    d'.isValidRequest r ptr = true ∨ .erased r ptr ∈ es := by
  cases h with
  | same hsame => exact .inl (by rw [hsame, hin])
  | cleared herror =>
      obtain ⟨x, hx, herror⟩ := herror
      rw [hsound x hx] at herror
      cases herror
  | began _ hnone hd =>
      exact .inl (by rw [hd, ConnectionData.isValidRequest_insertNew hnone, hin, Bool.true_or])
  | @left r' e before rest he _ _ hd =>
      by_cases hr : r' = r
      · subst hr
        obtain ⟨e', he', rfl⟩ := ConnectionData.isValidRequest_iff.mp hin
        rw [he, Option.some.injEq] at he'
        subst he'
        exact .inr (List.mem_append_right _ (List.mem_cons_self ..))
      · have hstays : (d.erase r').isValidRequest r ptr = true := by
          rw [ConnectionData.isValidRequest_erase, hin]
          simp [hr]
        obtain rfl | ⟨hsize, _⟩ := hd
        · exact .inl hstays
        · -- the last request leaves no other behind
          rw [ConnectionData.isValidRequest_of_size_eq_zero hsize] at hstays
          cases hstays

end Turnover

/-- Every object that was erased parted, and is not stored any more.  As long
as no read or write has failed, every other object that began is stored. -/
structure Books (t : List Event) (d : ConnectionData) : Prop where
  gone : ∀ r ptr, .erased r ptr ∈ t →
    Parted t r ptr ∧ ptr < d.nextPtr ∧ d.isValidRequest r ptr = false
  kept : (∀ x ∈ t, x.isSocketError = false) → ∀ r ptr, .began r ptr ∈ t →
    d.isValidRequest r ptr = true ∨ .erased r ptr ∈ t

/-- One more step of the connection. -/
theorem Books.step {t es : List Event} {d d' : ConnectionData} (h : Books t d)
    (hturnover : Turnover d d' es) (hle : d.nextPtr ≤ d'.nextPtr) : Books (t ++ es) d' where
  gone r ptr hmem := by
    obtain hmem | hmem := List.mem_append.mp hmem
    · obtain ⟨hparted, hlt, hout⟩ := h.gone r ptr hmem
      refine ⟨hparted.append_right es, Nat.lt_of_lt_of_le hlt hle, ?_⟩
      by_contra hin
      rw [Bool.not_eq_false] at hin
      rw [hturnover.valid_before hlt hin] at hout
      cases hout
    · obtain ⟨hparted, hlt, hout⟩ := hturnover.of_erased hmem
      exact ⟨hparted.append_left t, Nat.lt_of_lt_of_le hlt hle, hout⟩
  kept hsound r ptr hmem := by
    rw [List.forall_mem_append] at hsound
    obtain hmem | hmem := List.mem_append.mp hmem
    · obtain hin | herased := h.kept hsound.1 r ptr hmem
      · obtain hin | herased := hturnover.stays_or_leaves hsound.2 hin
        · exact .inl hin
        · exact .inr (List.mem_append_right _ herased)
      · exact .inr (List.mem_append_left _ herased)
    · exact .inl (hturnover.of_began hmem).2

/-- Others may allocate. -/
theorem Books.allocate {t : List Event} {d : ConnectionData} (h : Books t d) (address : Nat) :
    Books t (d.allocateFrom address) where
  gone r ptr hmem := by
    obtain ⟨hparted, hlt, hout⟩ := h.gone r ptr hmem
    exact ⟨hparted, Nat.lt_of_lt_of_le hlt (Nat.le_max_left _ _), hout⟩
  kept := h.kept

/-! ## Closing without a failure -/

namespace Server

/-- What was handed out stays handed out as the run goes on. -/
theorem Handed.mono {tr tr' : List (Fired Server Step)} {q c r ptr : Nat} {d : RequestData}
    (h : Handed tr q c r ptr d) (hsub : tr ⊆ tr') : Handed tr' q c r ptr d := by
  obtain ⟨f, hf, hhands⟩ := h
  exact ⟨f, hsub hf, hhands⟩

/-- The request that a step answers: its user commits or cancels it, or its
destructor does. -/
def Step.answers : Step → Option Nat
  | .commit q => some q
  | .cancel q => some q
  | .destroyValid q => some q
  | .accept _ _ => none
  | .strand _ _ => none
  | .acceptorTask _ => none
  | .edit _ _ => none
  | .release _ => none
  | .destroy _ => none
  | .stop => none

/-- Who has answered a request has no data any more. -/
theorem Moves.replied {s s' : Server} {l : Step} {es : List (Nat × Event)} (h : Moves s l s' es)
    {q : Nat} (hl : l.answers = some q) (hgranted : (s.granted q).isSome) :
    ∀ rq, s'.requests q = some rq → rq.dataWeakPtr = none := by
  have hset : ∀ {t : Server} {rq₀ : Request}, rq₀.dataWeakPtr = none →
      ∀ rq, (t.setRequest q rq₀).requests q = some rq → rq.dataWeakPtr = none := by
    intro t rq₀ hnone rq hq
    have hself : (t.setRequest q rq₀).requests q = some rq₀ := Function.update_self ..
    rw [hself, Option.some.injEq] at hq
    exact hq ▸ hnone
  cases h with
  | denied hl' hq hn =>
      obtain rfl | rfl | ⟨change, rfl⟩ := hl'
      · cases hl
        rw [granted_of_not hq hn] at hgranted
        cases hgranted
      · cases hl
        rw [granted_of_not hq hn] at hgranted
        cases hgranted
      · cases hl
  | commit =>
      cases hl
      exact hset rfl
  | cancel =>
      cases hl
      exact hset rfl
  | destroyValid =>
      cases hl
      exact hset rfl
  | _ => cases hl

end Server

end Santiago
