import Santiago.EndRequest
import Santiago.Server.Answered
import Santiago.Server.Arrived
import Santiago.WindDown

/-!
# Santiago.Server.Served

A request on its whole way.  `Begins` says where the entries of a connection
come from: each begin-request that finds its id free stores a new object.
From there a request whose records have arrived is followed through the read
loop, the request map and the hands of its user to the reply on the wire.
-/

namespace Santiago

open Effect Bytes PacketSocket Connection Chunks

/-! ## How requests begin -/

/-- An object with the id `r` has begun and was not erased. -/
def InUse (t : List Event) (r : Nat) : Prop := ∃ ptr, .began r ptr ∈ t ∧ .erased r ptr ∉ t

/-- A step, seen from the requests that begin: none does, one finds its id in
use, or one is stored. -/
inductive Beginning (d : ConnectionData) (es : List Event) : Prop
  | quiet : (∀ r ptr, .began r ptr ∉ es) →
      (∀ r content, BeginsRequest fcgiBeginRequest content →
        .newPacket r fcgiBeginRequest content ∉ es) → Beginning d es
  | refused {r : Nat} {content : Bytes} : d.requestMap[r]? ≠ none →
      es = [.newPacket r fcgiBeginRequest content] → Beginning d es
  | began {r : Nat} {content : Bytes} : BeginsRequest fcgiBeginRequest content →
      es = [.newPacket r fcgiBeginRequest content, .began r d.nextPtr] → Beginning d es

theorem Beginning.nil (d : ConnectionData) : Beginning d [] := .quiet (by simp) (by simp)

/-- A request begins directly behind its begin-request, the first event of the
step, and takes the next object. -/
theorem Beginning.of_began {d : ConnectionData} {es zs ys : List Event} {r ptr : Nat}
    (h : Beginning d es) (hes : es = zs ++ .began r ptr :: ys) :
    ptr = d.nextPtr ∧ ∃ content, BeginsRequest fcgiBeginRequest content ∧
      zs = [.newPacket r fcgiBeginRequest content] := by
  cases h with
  | quiet hnone => exact absurd (by simp [hes]) (hnone r ptr)
  | refused _ heq =>
      rw [heq] at hes
      have hmem : Event.began r ptr ∈ zs ++ .began r ptr :: ys := by simp
      simp [← hes] at hmem
  | began hbegins heq =>
      rw [heq] at hes
      obtain _ | ⟨z, _ | ⟨z', zs⟩⟩ := zs
      · simp at hes
      · simp only [List.cons_append, List.nil_append, List.cons.injEq, Event.began.injEq] at hes
        obtain ⟨rfl, ⟨rfl, rfl⟩, _⟩ := hes
        exact ⟨rfl, _, hbegins, rfl⟩
      · simp at hes

/-- A begin-request is the first event of its step; behind it the request
begins, unless its id is in use. -/
theorem Beginning.of_packet {d : ConnectionData} {es zs ys : List Event} {r : Nat}
    {content : Bytes} (h : Beginning d es)
    (hes : es = zs ++ .newPacket r fcgiBeginRequest content :: ys)
    (hbegins : BeginsRequest fcgiBeginRequest content) :
    zs = [] ∧ (ys = [.began r d.nextPtr] ∨ d.requestMap[r]? ≠ none) := by
  cases h with
  | quiet _ hnone => exact absurd (by simp [hes]) (hnone r content hbegins)
  | refused hsome heq =>
      rw [heq] at hes
      cases zs with
      | nil =>
          simp only [List.nil_append, List.cons.injEq, Event.newPacket.injEq] at hes
          obtain ⟨⟨rfl, _⟩, _⟩ := hes
          exact ⟨rfl, .inr hsome⟩
      | cons => simp at hes
  | began _ heq =>
      rw [heq] at hes
      obtain _ | ⟨z, zs⟩ := zs
      · simp only [List.nil_append, List.cons.injEq, Event.newPacket.injEq] at hes
        obtain ⟨⟨rfl, _⟩, rfl⟩ := hes
        exact ⟨rfl, .inl rfl⟩
      · cases zs <;> simp at hes

namespace Connection

end Connection

/-- Each object begins directly behind a begin-request of its id, and before
anything else is heard of it; and each begin-request begins an object, unless
its id is in use. -/
structure Begins (t : List Event) (d : ConnectionData) : Prop where
  lt : ∀ r ptr, .began r ptr ∈ t → ptr < d.nextPtr
  first : ∀ xs r ptr ys, t = xs ++ .began r ptr :: ys →
    ∀ r', .began r' ptr ∉ xs ∧ .erased r' ptr ∉ xs
  behind : ∀ xs r ptr ys, t = xs ++ .began r ptr :: ys →
    ∃ zs content, BeginsRequest fcgiBeginRequest content ∧
      xs = zs ++ [.newPacket r fcgiBeginRequest content]
  begins : ∀ xs r content ys, t = xs ++ .newPacket r fcgiBeginRequest content :: ys →
    BeginsRequest fcgiBeginRequest content → (∃ ptr zs, ys = .began r ptr :: zs) ∨ InUse xs r

/-- One more step of the connection. -/
theorem Begins.step {t es : List Event} {d d' : ConnectionData} (h : Begins t d)
    (hbooks : Books t d) (hcame : ∀ r e, d.requestMap[r]? = some e → Came t r e)
    (hturnover : Turnover d d' es) (hle : d.nextPtr ≤ d'.nextPtr) (hbeginning : Beginning d es) :
    Begins (t ++ es) d' where
  lt r ptr hmem := by
    obtain hmem | hmem := List.mem_append.mp hmem
    · exact Nat.lt_of_lt_of_le (h.lt r ptr hmem) hle
    · obtain ⟨e, he, rfl⟩ := ConnectionData.isValidRequest_iff.mp (hturnover.of_began hmem).2
      exact d'.ptr_lt r e he
  first xs r ptr ys hsplit r' := by
    obtain ⟨zs, ht, _⟩ | ⟨zs, rfl, hes⟩ := split_of_append hsplit
    · exact h.first xs r ptr zs ht r'
    · obtain ⟨rfl, content, _, rfl⟩ := hbeginning.of_began hes
      have hbegan : .began r' d.nextPtr ∉ t := fun hmem => Nat.lt_irrefl _ (h.lt _ _ hmem)
      have herased : .erased r' d.nextPtr ∉ t := fun hmem =>
        Nat.lt_irrefl _ (hbooks.gone _ _ hmem).2.1
      simp [hbegan, herased]
  behind xs r ptr ys hsplit := by
    obtain ⟨zs, ht, _⟩ | ⟨zs, rfl, hes⟩ := split_of_append hsplit
    · exact h.behind xs r ptr zs ht
    · obtain ⟨_, content, hbegins, rfl⟩ := hbeginning.of_began hes
      exact ⟨t, content, hbegins, rfl⟩
  begins xs r content ys hsplit hbegins := by
    obtain ⟨zs, ht, rfl⟩ | ⟨zs, rfl, hes⟩ := split_of_append hsplit
    · obtain ⟨ptr, zs, rfl⟩ | hinUse := h.begins xs r content zs ht hbegins
      · exact .inl ⟨ptr, zs ++ es, rfl⟩
      · exact .inr hinUse
    · obtain ⟨rfl, rfl | hsome⟩ := hbeginning.of_packet hes hbegins
      · exact .inl ⟨_, [], rfl⟩
      · obtain ⟨e, he⟩ := Option.ne_none_iff_exists'.mp hsome
        obtain ⟨before, after, ht, _⟩ := hcame r e he
        refine .inr ⟨e.ptr, by simp [ht], fun hmem => ?_⟩
        rw [List.append_nil] at hmem
        have hgone := (hbooks.gone r e.ptr hmem).2.2
        rw [ConnectionData.isValidRequest_iff.mpr ⟨e, he, rfl⟩] at hgone
        cases hgone

/-! ## A socket that has not failed -/

/-- A read or write that fails closes the connection. -/
theorem Life.sound {st st' : Connection.State} {d d' : ConnectionData} {es : List Event}
    (h : Life st d st' d' es) (hopen : st' ≠ .closed) :
      ∀ x ∈ es, x.isSocketError = false := by
  have hwrote : ∀ {ps : List (FcgiHeader × Bytes)} {x : Event}, x ∈ ps.map wroteEvent →
      x.isSocketError = false := by
    intro ps x hx
    obtain ⟨_, _, rfl⟩ := wroteEvent_quiet hx
    rfl
  cases h with
  | silent => simp
  | edited => simp
  | rejected => simp [Event.isSocketError]
  | answered =>
      intro x hx
      obtain rfl | hx := List.mem_cons.mp hx
      · rfl
      · exact hwrote hx
  | abortUnknown => simp [Event.isSocketError, wroteEvent]
  | failed => exact absurd rfl hopen
  | began => simp [Event.isSocketError]
  | beganLast => simp [Event.isSocketError]
  | received => simp [Event.isSocketError]
  | receivedReady => simp [Event.isSocketError]
  | left _ _ hleaves =>
      intro x hx
      obtain hx | hx := List.mem_append.mp hx
      · cases hleaves with
        | abort =>
            simp only [List.mem_cons, List.not_mem_nil, or_false] at hx
            obtain rfl | rfl := hx <;> rfl
        | reply =>
            obtain rfl | hx := List.mem_cons.mp hx
            · rfl
            · exact hwrote hx
      · obtain rfl := List.mem_singleton.mp hx
        rfl
  | leftLast => exact absurd rfl hopen

namespace Server

end Server

/-! ## From the packets to the object -/

theorem mem_packets {r : Nat} {t : UInt8} {content : Bytes} {es : List Event} :
    (r, t, content) ∈ packets es ↔ .newPacket r t content ∈ es := by
  rw [packets, List.mem_filterMap]
  constructor
  · rintro ⟨y, hy, heq⟩
    cases y with
    | newPacket => cases heq; exact hy
    | _ => cases heq
  · exact fun hmem => ⟨_, hmem, rfl⟩

/-- The event of a packet in the middle. -/
theorem exists_of_packets {es : List Event} {ps qs : List (Nat × UInt8 × Bytes)} {r : Nat}
    {t : UInt8} {content : Bytes} (h : packets es = ps ++ (r, t, content) :: qs) :
    ∃ xs ys, es = xs ++ .newPacket r t content :: ys ∧ packets xs = ps ∧ packets ys = qs := by
  obtain ⟨xs, es', rfl, hxs, hes⟩ := List.filterMap_eq_append_iff.mp h
  obtain ⟨mid, y, ys, rfl, hmid, hy, hys⟩ := List.filterMap_eq_cons_iff.mp hes
  cases y with
  | newPacket =>
      cases hy
      refine ⟨xs ++ mid, ys, by simp, ?_, hys⟩
      have hnone : packets mid = [] := List.filterMap_eq_nil_iff.mpr hmid
      have hps : packets xs = ps := hxs
      rw [packets_append, hnone, hps, List.append_nil]
  | _ => cases hy

/-- What comes of a stream is what its records hold. -/
theorem chunks_of_packets {es : List Event} {recs : List WireRecord} {r : Nat} {t : UInt8}
    (h : packets es = recs.map WireRecord.packet) (ht : t = fcgiParams ∨ t = fcgiStdin) :
    chunks r t es = (ofType t (recs.filter (addresses r))).map WireRecord.content := by
  have hchunks : chunks r t es = (packets es).filterMap fun p =>
      if p.1 = r ∧ p.2.1 = t then some p.2.2 else none := by
    rw [packets, chunks, List.filterMap_filterMap]
    congr 1
    funext y
    cases y <;> rfl
  rw [hchunks, h]
  clear hchunks h
  induction recs with
  | nil => rfl
  | cons rec recs ih =>
      rw [List.map_cons, List.filterMap_cons, ih]
      by_cases hin : rec.requestId = r ∧ rec.type = t
      · have haddr : addresses r rec = true := by
          obtain ht | ht := ht <;> simp [addresses, hin, ht]
        simp [WireRecord.packet, hin, haddr, ofType]
      · have hdrop : ofType t ((rec :: recs).filter (addresses r)) =
            ofType t (recs.filter (addresses r)) := by
          rw [List.filter_cons]
          split
          · next haddr =>
              have hid : rec.requestId = r := by
                simp only [addresses, Bool.and_eq_true, decide_eq_true_eq] at haddr
                exact haddr.1
              have hne : rec.type ≠ t := fun heq => hin ⟨hid, heq⟩
              simp [ofType, hne]
          · rfl
        rw [hdrop]
        simp [WireRecord.packet, hin]

/-- A stream that its records spell out. -/
theorem StreamRecords.spells {bytes : Bytes} {recs : List WireRecord}
    (h : StreamRecords bytes recs) :
    Closed (recs.map WireRecord.content) ∧ payload (recs.map WireRecord.content) = bytes := by
  induction h with
  | @close last hnil => simp [hnil, Closed, payload]
  | @cons rec recs bytes hne _ ih =>
      rw [List.map_cons, payload_cons hne, ih.2]
      exact ⟨List.mem_cons_of_mem _ ih.1, rfl⟩

/-- A request is whole behind `began r ptr`: nothing else of its id begins, and
its packets are those of the request. -/
structure Whole (ys : List Event) (r : Nat) (pairs : List (Bytes × Bytes)) (stdin : Bytes) :
    Prop where
  alone : ∀ ptr, .began r ptr ∉ ys
  unaborted : ∀ content, .newPacket r fcgiAbortRequest content ∉ ys
  stdin : Closed (chunks r fcgiStdin ys) ∧ payload (chunks r fcgiStdin ys) = stdin
  params : Closed (chunks r fcgiParams ys) ∧
    ∃ bytes, payload (chunks r fcgiParams ys) = bytes ∧ PairsForm pairs bytes ∧
      bytes.length < 2 ^ 32

/-- Without a begin-request of its id no object begins. -/
theorem Begins.alone {t xs ys : List Event} {d : ConnectionData} {r ptr : Nat} (h : Begins t d)
    (ht : t = xs ++ .began r ptr :: ys)
    (hnone : ∀ content, .newPacket r fcgiBeginRequest content ∉ ys) (ptr' : Nat) :
    .began r ptr' ∉ ys := by
  intro hmem
  obtain ⟨mid, after, rfl⟩ := List.append_of_mem hmem
  obtain ⟨zs, content, _, hbehind⟩ :=
    h.behind (xs ++ .began r ptr :: mid) r ptr' after (by simp [ht])
  obtain ⟨us, _, hnil⟩ | ⟨us, _, hus⟩ := split_of_append hbehind
  · simp at hnil
  · have hin : .newPacket r fcgiBeginRequest content ∈ Event.began r ptr :: mid := by simp [hus]
    obtain hin | hin := List.mem_cons.mp hin
    · cases hin
    · exact hnone content (List.mem_append_left _ hin)

/-- And an id that was free stays free. -/
theorem Begins.not_inUse {t₀ xs ys : List Event} {d₀ d : ConnectionData} {r : Nat}
    (h : Begins (t₀ ++ (xs ++ ys)) d) (h₀ : Begins t₀ d₀)
    (hfree : ∀ ptr, .began r ptr ∈ t₀ → .erased r ptr ∈ t₀)
    (hnone : ∀ content, .newPacket r fcgiBeginRequest content ∉ xs) :
      ¬ InUse (t₀ ++ xs) r := by
  rintro ⟨ptr, hbegan, herased⟩
  obtain hmem | hmem := List.mem_append.mp hbegan
  · exact herased (List.mem_append_left _ (hfree ptr hmem))
  obtain ⟨mid, after, rfl⟩ := List.append_of_mem hmem
  obtain ⟨zs, content, hbegins, hbehind⟩ := h.behind (t₀ ++ mid) r ptr (after ++ ys) (by simp)
  obtain ⟨us, rfl, hnil⟩ | ⟨us, _, rfl⟩ := split_of_append hbehind
  · -- the begin-request would be the last event of a step, but it begins an object
    obtain ⟨rfl, rfl⟩ := List.append_eq_nil_iff.mp hnil.symm
    obtain ⟨_, _, hnot⟩ | ⟨ptr', hin, hout⟩ := h₀.begins zs r content [] rfl hbegins
    · cases hnot
    · have hgone := hfree ptr' (List.mem_append_left _ hin)
      simp [hout] at hgone
  · exact hnone content (by simp)

/-- A packet for the entry of the id is one of its records. -/
theorem exists_of_addressed {es : List Event} {recs : List WireRecord} {r : Nat} {t : UInt8}
    {content : Bytes} (h : packets es = recs.map WireRecord.packet)
    (hmem : .newPacket r t content ∈ es) (ht : t = fcgiBeginRequest ∨ t = fcgiAbortRequest) :
    ∃ rec ∈ recs.filter (addresses r), rec.type = t := by
  rw [← mem_packets, h] at hmem
  obtain ⟨rec, hrec, heq⟩ := List.mem_map.mp hmem
  obtain ⟨rfl, rfl, _⟩ := heq
  refine ⟨rec, List.mem_filter.mpr ⟨hrec, ?_⟩, rfl⟩
  obtain ht | ht := ht <;> simp [addresses, ht]

/-- Where the id was free, the records of a request begin an object, and the
request is whole behind its beginning. -/
theorem Begins.whole {t₀ t₁ : List Event} {d₀ d : ConnectionData}
    {recs body : List WireRecord}
    {begin : WireRecord} {r : Nat} {pairs : List (Bytes × Bytes)} {stdin : Bytes}
    (h : Begins (t₀ ++ t₁) d) (h₀ : Begins t₀ d₀)
    (hfree : ∀ ptr, .began r ptr ∈ t₀ → .erased r ptr ∈ t₀)
    (hpackets : packets t₁ = recs.map WireRecord.packet)
    (hrequest : RequestRecords pairs stdin begin body)
    (hrecs : recs.filter (addresses r) = begin :: body) :
    ∃ xs ptr ys, t₀ ++ t₁ = xs ++ .began r ptr :: ys ∧ Whole ys r pairs stdin := by
  obtain ⟨pre, post, rfl, hpre, haddr, hpost⟩ := List.filter_eq_cons_iff.mp hrecs
  rw [List.map_append, List.map_cons] at hpackets
  obtain ⟨xs, ys, rfl, hxs, hys⟩ := exists_of_packets hpackets
  have hid : begin.requestId = r := by
    simp only [addresses, Bool.and_eq_true, decide_eq_true_eq] at haddr
    exact haddr.1
  have htype : begin.type = fcgiBeginRequest := hrequest.begins.1
  have hbegins : BeginsRequest fcgiBeginRequest begin.content := htype ▸ hrequest.begins
  rw [hid, htype] at h ⊢
  -- neither before it nor behind it a record of the id is a begin or an abort
  have hbefore : ∀ content, .newPacket r fcgiBeginRequest content ∉ xs := fun content hmem => by
    obtain ⟨rec, hrec, _⟩ := exists_of_addressed hxs hmem (.inl rfl)
    obtain ⟨hrec, haddr'⟩ := List.mem_filter.mp hrec
    exact hpre rec hrec haddr'
  have hbehind : ∀ t content, t = fcgiBeginRequest ∨ t = fcgiAbortRequest →
      .newPacket r t content ∉ ys := fun t content ht hmem => by
    obtain ⟨rec, hrec, rfl⟩ := exists_of_addressed hys hmem ht
    rw [hpost] at hrec
    obtain hstream | hstream := hrequest.streams rec hrec <;> rw [hstream] at ht <;>
      rcases ht with ht | ht <;> cases ht
  obtain ⟨ptr, zs, rfl⟩ | hinUse := h.begins (t₀ ++ xs) r begin.content ys (by simp) hbegins
  · have hzs : packets zs = post.map WireRecord.packet := hys
    have hall : t₀ ++ (xs ++ .newPacket r fcgiBeginRequest begin.content :: .began r ptr :: zs) =
        (t₀ ++ xs ++ [.newPacket r fcgiBeginRequest begin.content]) ++
          .began r ptr :: zs := by simp
    obtain ⟨bytes, hform, hlen, hparams⟩ := hrequest.params
    refine ⟨_, ptr, zs, hall, ?_, ?_, ?_, ?_⟩
    · exact h.alone hall fun content hmem =>
        hbehind _ content (.inl rfl) (List.mem_cons_of_mem _ hmem)
    · exact fun content hmem => hbehind _ content (.inr rfl) (List.mem_cons_of_mem _ hmem)
    · rw [chunks_of_packets hzs (.inr rfl), hpost]
      exact hrequest.stdin.spells
    · rw [chunks_of_packets hzs (.inl rfl), hpost]
      exact ⟨hparams.spells.1, bytes, hparams.spells.2, hform, hlen⟩
  · exact absurd hinUse (h.not_inUse h₀ hfree hbefore)

namespace Server

end Server

end Santiago
