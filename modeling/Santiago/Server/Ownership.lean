import Santiago.Server.View

/-!
# Santiago.Server.Ownership

Who answers a ready request, and how often.  A ready request that is stored
on an active connection has one owner, a live `Fastcgi::Request` that has not
replied or a queued reply; and a reply is sent at most once for an object,
while the object is stored under the id it is sent on.
-/

namespace Santiago.Server

open Effect Bytes PacketSocket Connection

/-! ## Replies that are sent -/

/-- The event is a call of `sendReply` for the object at `ptr`. -/
def sends (ptr : Nat) : Nat × Event → Bool
  | (_, .sendReply _ ptr') => ptr' = ptr
  | _ => false

theorem countP_sends_eq_zero {es : List Event} {c ptr : Nat}
    (h : ∀ r ptr, .sendReply r ptr ∉ es) : (es.map fun e => (c, e)).countP (sends ptr) = 0 := by
  rw [List.countP_map, List.countP_eq_zero]
  intro e he hsends
  cases e with
  | sendReply r ptr' => exact h r ptr' he
  | _ => cases hsends

/-- What an observer sees of a step is what he sees of a strand. -/
theorem Ends.events {s : Server} {l : Step} {o : Outcome (Nat × Event) Server Unit}
    (h : Ends s l o) : o.events = [] ∨
      ∃ c k l' o', l = .strand c l' ∧ s.connections c = some k ∧
        Strand.Ends (k.strand.allocateFrom s.nextAddress) l' o' ∧
        o.events = o'.events.map fun e => (c, e) := by
  cases h with
  | ret hm =>
      cases hm with
      | strand hk hm => exact .inr ⟨_, _, _, _, rfl, hk, .ret hm, rfl⟩
      | ready hk hm => exact .inr ⟨_, _, _, _, rfl, hk, .ret hm, rfl⟩
      | closing hk hm => exact .inr ⟨_, _, _, _, rfl, hk, .ret hm, rfl⟩
      | _ => exact .inl rfl
  | lost => exact .inl rfl
  | @abort _ _ s' _ hdies =>
      cases hdies with
      | @strand c k _ _ _ hk hdies =>
          exact .inr ⟨c, k, _, ⟨.abort _, k.strand, _⟩, rfl, hk, .abort hdies, rfl⟩
      | ready hk hm => exact .inr ⟨_, _, _, _, rfl, hk, .ret hm, rfl⟩
      | _ => exact .inl rfl

/-- What a step sends: nothing, or one reply, for the task at the head of a
strand whose object is stored and ready. -/
theorem sendReply_cases {s : Server} (hi : s.Invariant) {l : Step}
    (he : machine.enabled s l = true) :
    (∀ c r ptr, (c, .sendReply r ptr) ∉ (machine.act l s).events) ∧
        (∀ ptr, (machine.act l s).events.countP (sends ptr) = 0) ∨
      ∃ c k r ptr rest e, l = .strand c .runTask ∧ s.connections c = some k ∧
        k.strand.connection.socket.strand = .commitReplyImpl r ptr :: rest ∧
        k.strand.connection.data.requestMap[r]? = some e ∧ e.ptr = ptr ∧ e.ready = true ∧
        (∀ c' r' ptr', (c', .sendReply r' ptr') ∈ (machine.act l s).events →
          c' = c ∧ r' = r ∧ ptr' = ptr) ∧
        ∀ ptr', (machine.act l s).events.countP (sends ptr') = if ptr' = ptr then 1 else 0 := by
  have hends := ends hi.wf he
  generalize machine.act l s = o at hends ⊢
  obtain hnil | ⟨c, k, l', o', rfl, hk, hends', hevents⟩ := hends.events
  · rw [hnil]
    exact .inl ⟨by simp, by simp⟩
  rw [hevents]
  cases hends'.sendsReply with
  | none hnot =>
      refine .inl ⟨fun c' r ptr hmem => ?_, fun ptr => countP_sends_eq_zero hnot⟩
      obtain ⟨e, hmem, heq⟩ := List.mem_map.mp hmem
      cases heq
      exact hnot r ptr hmem
  | @one r ptr rest es' hl htasks hvalid hes hnot =>
      subst hl
      obtain ⟨e, hentry, hptr⟩ := ConnectionData.isValidRequest_iff.mp hvalid
      have htasks : k.strand.connection.socket.strand = .commitReplyImpl r ptr :: rest := htasks
      have hentry : k.strand.connection.data.requestMap[r]? = some e := hentry
      -- the queued reply is a custodian of the object, so its entry is ready
      have hholds : s.custody.Holds ptr (.reply c r) := by
        show (r, ptr) ∈ s.custody.replies c
        rw [replies_custody hk]
        exact mem_replies.mpr (by rw [htasks]; exact List.mem_cons_self)
      have hstored : s.custody.entry c r = some (ptr, e.ready) := by
        rw [entry_custody hk, stored, hentry, ← hptr]
        rfl
      have hready := hi.sound.ready_of_holds _ _ _ _ _ hholds hstored
      refine .inr ⟨c, k, r, ptr, rest, e, rfl, hk, htasks, hentry, hptr, hready, ?_, ?_⟩
      · intro c' r' ptr' hmem
        obtain ⟨y, hy, heq⟩ := List.mem_map.mp hmem
        cases heq
        rw [hes, List.mem_cons] at hy
        obtain hy | hy := hy
        · cases hy
          exact ⟨rfl, rfl, rfl⟩
        · exact absurd hy (hnot r' ptr')
      · intro ptr'
        rw [hes, List.map_cons, List.countP_cons, countP_sends_eq_zero hnot]
        simp [sends, eq_comm]

/-- What a step of a strand leaves on its connection. -/
theorem Moves.strand_inv {s s' : Server} {c : Nat} {l : Strand.Step} {es : List (Nat × Event)}
    (h : Moves s (.strand c l) s' es) {k : AcceptedConnection} (hk : s.connections c = some k) :
    ∃ t es', Strand.Moves (k.strand.allocateFrom s.nextAddress) l t es' ∧
      es = es'.map (fun e => (c, e)) ∧ s'.connections c = some ⟨k.connectionId, t⟩ := by
  have hself : ∀ t : Strand, (s.setStrand c k.connectionId t).connections c =
      some ⟨k.connectionId, t⟩ := fun t => Function.update_self ..
  cases h with
  | strand hk' hm =>
      rw [hk, Option.some.injEq] at hk'
      subst hk'
      exact ⟨_, _, hm, rfl, hself _⟩
  | ready hk' hm =>
      rw [hk, Option.some.injEq] at hk'
      subst hk'
      exact ⟨_, _, hm, rfl, hself _⟩
  | closing hk' hm =>
      rw [hk, Option.some.injEq] at hk'
      subst hk'
      exact ⟨_, _, hm, rfl, hself _⟩
  | denied hl => simp at hl

/-- The object of a reply that was sent is stored nowhere afterwards. -/
theorem spent_of_sent {s s' : Server} (hi : s.Invariant) {c r : Nat} {k : AcceptedConnection}
    {rest : List StrandTask} {e : Entry} {es : List (Nat × Event)}
    (he : machine.enabled s (.strand c .runTask) = true)
    (hm : Moves s (.strand c .runTask) s' es) (hk : s.connections c = some k)
    (htasks : k.strand.connection.socket.strand = .commitReplyImpl r e.ptr :: rest)
    (hentry : k.strand.connection.data.requestMap[r]? = some e) :
    s'.custody.Spent e.ptr := by
  have hstored : s.custody.entry c r = some (e.ptr, e.ready) := by
    rw [entry_custody hk, stored, hentry]
    rfl
  have hmade := (hi.sound.entry_made _ _ _ hstored).2
  have hstep := hm.custody hi.wf hi.requestsWF he
  refine ⟨hstep.made_subset hmade, fun c' r' b hx => ?_⟩
  -- it could only be where it was, and the reply has erased it there
  obtain ⟨b', hold⟩ := hstep.stored_before hx hmade
  obtain ⟨rfl, rfl⟩ := hi.sound.entry_inj _ _ _ _ _ _ hold hstored rfl
  obtain ⟨t, es', hmove, _, hk'⟩ := hm.strand_inv hk
  have heffect := hmove.commit_of_head htasks
  rw [entry_custody hk'] at hx
  have hvalid : t.connection.data.isValidRequest r' e.ptr = true :=
    isValidRequest_iff_stored.mpr ⟨b, hx⟩
  rw [heffect.settles.1] at hvalid
  cases hvalid

/-- After every run, an object is sent at most one reply, and one that was
sent a reply is stored nowhere. -/
theorem spent_of_run {tr : List (Fired Server Step)} {s : Server} (h : machine.Run init tr s)
    (ptr : Nat) : (machine.trace tr).countP (sends ptr) = 0 ∨
      (machine.trace tr).countP (sends ptr) = 1 ∧ s.custody.Spent ptr := by
  refine (inv (fun _ _ => True) (fun t s => t.countP (sends ptr) = 0 ∨
    t.countP (sends ptr) = 1 ∧ s.custody.Spent ptr) (.inl rfl) ?_ h fun _ _ => trivial).2
  intro t s l hi hj he _ hm
  rw [List.countP_append]
  have hstep := hm.custody hi.wf hi.requestsWF he
  obtain ⟨_, hzero⟩ | ⟨c, k, r, ptr', rest, e, rfl, hk, htasks, hentry, rfl,
    _, _, hcount⟩ :=
    sendReply_cases hi he
  · rw [hzero]
    obtain hj | ⟨hj, hspent⟩ := hj
    · exact .inl hj
    · exact .inr ⟨hj, hspent.step hstep⟩
  · rw [hcount]
    by_cases hptr : ptr = e.ptr
    · subst hptr
      rw [if_pos rfl]
      obtain hj | ⟨_, _, hgone⟩ := hj
      · exact .inr ⟨by omega, spent_of_sent hi he hm hk htasks hentry⟩
      · -- what was sent before is stored nowhere, and so nothing is sent now
        have hstored : s.custody.entry c r = some (e.ptr, e.ready) := by
          rw [entry_custody hk, stored, hentry]
          rfl
        exact absurd hstored (hgone c r e.ready)
    · rw [if_neg hptr]
      obtain hj | ⟨hj, hspent⟩ := hj
      · exact .inl hj
      · exact .inr ⟨hj, hspent.step hstep⟩

/-- **At most one reply, and never to the wrong request.**  In every run, up
to and including a step that ends the process, an object is sent at most one
reply; a reply is sent by the task at the head of a strand, for the object
that the map then holds under the reply's id, with both bits set; and a reply
to an object that is not stored any more does nothing at all. -/
theorem sendReply_once_for_stored {tr : List (Fired Server Step)} {s : Server} {l : Step}
    (h : machine.Run init tr s) (he : machine.enabled s l = true) :
    (∀ ptr, (machine.trace tr ++ (machine.act l s).events).countP (sends ptr) ≤ 1) ∧
    (∀ c r ptr, (c, .sendReply r ptr) ∈ (machine.act l s).events →
      l = .strand c .runTask ∧ ∃ k rest e, s.connections c = some k ∧
        k.strand.connection.socket.strand = .commitReplyImpl r ptr :: rest ∧
        k.strand.connection.data.requestMap[r]? = some e ∧ e.ptr = ptr ∧
        e.state &&& inCompleted ≠ 0 ∧ e.state &&& paramsCompleted ≠ 0) ∧
    ∀ c k r ptr rest, l = .strand c .runTask → s.connections c = some k →
      k.strand.connection.socket.strand = .commitReplyImpl r ptr :: rest →
      k.strand.connection.data.isValidRequest r ptr = false → (machine.act l s).events = [] := by
  have hi := invariant_of_run h
  have hcases := sendReply_cases hi he
  refine ⟨fun ptr => ?_, fun c r ptr hmem => ?_, ?_⟩
  · have hspent := spent_of_run h ptr
    rw [List.countP_append]
    obtain ⟨_, hzero⟩ | ⟨c, k, r, ptr', rest, e, _, hk, _, hentry, rfl, _, _, hcount⟩ :=
      hcases
    · rw [hzero]
      omega
    · rw [hcount]
      obtain hsent | ⟨hsent, _, hgone⟩ := hspent
      · split <;> omega
      · have hstored : s.custody.entry c r = some (e.ptr, e.ready) := by
          rw [entry_custody hk, stored, hentry]
          rfl
        have hne : ptr ≠ e.ptr := fun heq => hgone c r e.ready (heq ▸ hstored)
        rw [if_neg hne]
        omega
  · obtain ⟨hnot, _⟩ | ⟨c', k, r', ptr', rest, e, rfl, hk, htasks, hentry, hptr,
      hready, honly,
      _⟩ := hcases
    · exact absurd hmem (hnot c r ptr)
    · obtain ⟨rfl, rfl, rfl⟩ := honly c r ptr hmem
      simp only [Entry.ready, Bool.and_eq_true, decide_eq_true_eq] at hready
      exact ⟨rfl, k, rest, e, hk, htasks, hentry, hptr, hready.2, hready.1⟩
  · rintro c k r ptr rest rfl hk htasks hstale
    obtain hnil | ⟨c', k', l', o', hl, hk', hends, hevents⟩ := (ends hi.wf he).events
    · exact hnil
    · cases hl
      rw [hk, Option.some.injEq] at hk'
      subst hk'
      rw [hevents, hends.events_of_stale htasks hstale, List.map_nil]

/-- The records of an empty request with id 1; `flags` is the byte with `FCGI_KEEP_CONN`. -/
def emptyRequest (flags : UInt8) : Bytes :=
  [1, 1, 0, 1, 0, 8, 0, 0, 0, 1, flags, 0, 0, 0, 0, 0] ++ [1, 4, 0, 1, 0, 0, 0, 0] ++
    [1, 5, 0, 1, 0, 0, 0, 0]

/-- The reply to a request that was committed goes out once. -/
theorem sendReply_once_for_commit : ∃ tr s, machine.Run init tr s ∧
    (0, Event.sendReply 1 0) ∈ (machine.act (.strand 0 .runTask) s).events ∧
    (machine.trace tr ++ (machine.act (.strand 0 .runTask) s).events).countP (sends 0) ≤ 1 := by
  obtain ⟨tr, s, hrun, hs⟩ := Machine.exists_run_of_exec machine init
    [.accept [] fun _ => 0, .strand 0 (.handleRead false (emptyRequest 1)), .strand 0 .nextPacket,
      .strand 0 .nextPacket, .strand 0 .nextPacket, .strand 0 .nextPacket, .acceptorTask true,
      .commit 0]
    (fun _ s => machine.enabled s (.strand 0 .runTask) &&
      decide ((0, Event.sendReply 1 0) ∈ (machine.act (.strand 0 .runTask) s).events)) (by decide)
  rw [Bool.and_eq_true, decide_eq_true_eq] at hs
  exact ⟨tr, s, hrun, hs.2, (sendReply_once_for_stored hrun hs.1).1 0⟩

/-! ## The owner of a ready request -/

/-- The request is alive, owes the object at `ptr` a reply, and is held: a
queued one by its task, any other by a user or its own destructor. -/
def Unreplied (s : Server) (ptr q : Nat) : Prop :=
  ∃ rq, s.requests q = some rq ∧ rq.dataWeakPtr = some ptr ∧ rq.hasReplied = false ∧
    rq.phase ≠ .destroyed ∧ (rq.phase = .queued → .handleNewRequest q ∈ s.acceptorStrand)

/-- How many replies to the object at `ptr` are queued on the strand of `c`. -/
def queuedReplies (s : Server) (c ptr : Nat) : Nat :=
  (s.connections c).elim 0 fun k =>
    k.strand.connection.socket.strand.countP fun task => task.reply.any fun x => x.2 = ptr

theorem queuedReplies_eq (s : Server) (c ptr : Nat) :
    s.queuedReplies c ptr = ((s.custody.replies c).map Prod.snd).count ptr := by
  cases hk : s.connections c with
  | none => simp [queuedReplies, custody, hk]
  | some k =>
      rw [replies_custody hk]
      simp only [queuedReplies, hk, Option.elim_some, Strand.replies, Connection.replies,
        List.count_eq_countP, List.countP_map, List.countP_filterMap]
      congr 1
      funext task
      cases task with
      | flushProtocolSocket => rfl
      | commitReplyImpl r ptr' => rfl

theorem queuedReplies_le_one {s : Server} (hi : s.Invariant) (c ptr : Nat) :
    s.queuedReplies c ptr ≤ 1 := by
  rw [queuedReplies_eq]
  exact List.nodup_iff_count_le_one.mp (hi.sound.once c) ptr

theorem queuedReplies_pos_iff {s : Server} {c ptr : Nat} :
    0 < s.queuedReplies c ptr ↔ ∃ r, s.custody.Holds ptr (.reply c r) := by
  rw [queuedReplies_eq, List.count_pos_iff, List.mem_map]
  constructor
  · rintro ⟨⟨r, ptr'⟩, hmem, rfl⟩
    exact ⟨r, hmem⟩
  · rintro ⟨r, hmem⟩
    exact ⟨(r, ptr), hmem, rfl⟩

/-- A live request that owes a reply is what `Custody` calls a custodian. -/
theorem unreplied_iff {s : Server} (hi : s.Invariant) (hlive : s.terminated = false)
    {ptr q : Nat} : s.Unreplied ptr q ↔ s.custody.Holds ptr (.request q) := by
  constructor
  · rintro ⟨rq, hq, hdata, _, hphase, _⟩
    exact ⟨_, (request_custody hq).trans (owes_of_data hphase hdata), rfl⟩
  · rintro ⟨owed, howed, rfl⟩
    obtain ⟨rq, hq, howes⟩ := Option.bind_eq_some_iff.mp howed
    rw [owes] at howes
    split at howes
    · cases howes
    · next hphase =>
        obtain ⟨ptr, hdata, rfl⟩ := Option.map_eq_some_iff.mp howes
        have hreplied : rq.hasReplied = false := by
          have hiff := hi.requestsWF.replied_iff q rq hq
          rw [hdata] at hiff
          simpa using hiff
        exact ⟨rq, hq, hdata, hreplied, hphase, hi.queuedHaveTasks hlive q rq hq⟩

/-- **No ready request is orphaned.**  While the process runs, a ready
request stored on an active connection is owned once: by one live request
that has not replied, with no reply queued anywhere, or by one queued reply
on its own connection and under its own id, with no such request alive. -/
theorem ready_owned_once {tr : List (Fired Server Step)} {s : Server} {c r : Nat}
    {k : AcceptedConnection} {e : Entry} (h : machine.Run init tr s)
    (hlive : s.terminated = false) (hk : s.connections c = some k)
    (ha : s.activeConnections k.connectionId = some c)
    (he : k.strand.connection.data.requestMap[r]? = some e)
    (hin : e.state &&& inCompleted ≠ 0) (hparams : e.state &&& paramsCompleted ≠ 0) :
    (∃! q, s.Unreplied e.ptr q) ∧ (∀ c', s.queuedReplies c' e.ptr = 0) ∨
      (∀ q, ¬ s.Unreplied e.ptr q) ∧
        k.strand.connection.socket.strand.count (.commitReplyImpl r e.ptr) = 1 ∧
        ∀ c', s.queuedReplies c' e.ptr = if c' = c then 1 else 0 := by
  have hi := invariant_of_run h
  have hactive : c ∈ s.custody.active := isActive_iff.mpr ⟨k, hk, ha⟩
  have hready : e.ready = true := by simp [Entry.ready, hin, hparams]
  have hstored : s.custody.entry c r = some (e.ptr, true) := by
    rw [entry_custody hk, stored, he, Option.map_some, hready]
  obtain ⟨t, ht⟩ := hi.sound.owned c r e.ptr hactive hstored
  have hunique := hi.sound.unique e.ptr
  cases t with
  | request q =>
      left
      refine ⟨⟨q, (unreplied_iff hi hlive).mpr ht, fun q' hq' => ?_⟩, fun c' => ?_⟩
      · have heq := hunique _ _ ((unreplied_iff hi hlive).mp hq') ht
        simpa using heq
      · by_contra hpos
        obtain ⟨r', hr'⟩ := queuedReplies_pos_iff.mp (Nat.pos_of_ne_zero hpos)
        have heq := hunique _ _ hr' ht
        cases heq
  | reply c₁ r₁ =>
      right
      obtain ⟨rfl, rfl⟩ := hi.sound.reply_eq _ _ _ _ _ _ ht hstored hactive
      refine ⟨fun q hq => ?_, ?_, fun c' => ?_⟩
      · have heq := hunique _ _ ((unreplied_iff hi hlive).mp hq) ht
        cases heq
      · -- the queue of `c₁` has one reply to the object, and this one is in it
        have hle := queuedReplies_le_one hi c₁ e.ptr
        simp only [queuedReplies, hk, Option.elim_some] at hle
        have hcount : k.strand.connection.socket.strand.count (.commitReplyImpl r₁ e.ptr) ≤
            k.strand.connection.socket.strand.countP fun task =>
              task.reply.any fun x => x.2 = e.ptr := by
          rw [List.count_eq_countP]
          refine List.countP_mono_left fun task _ htask => ?_
          rw [beq_iff_eq] at htask
          simp [htask, StrandTask.reply]
        have hmem : .commitReplyImpl r₁ e.ptr ∈ k.strand.connection.socket.strand := by
          rw [Custody.Holds, replies_custody hk] at ht
          exact mem_replies.mp ht
        have hpos := List.count_pos_iff.mpr hmem
        omega
      · split
        · next heq =>
            have hle := queuedReplies_le_one hi c' e.ptr
            have hpos := queuedReplies_pos_iff.mpr ⟨r₁, heq ▸ ht⟩
            omega
        · next hne =>
            by_contra hpos
            obtain ⟨r', hr'⟩ := queuedReplies_pos_iff.mp (Nat.pos_of_ne_zero hpos)
            have heq := hunique _ _ hr' ht
            rw [Custody.Custodian.reply.injEq] at heq
            exact hne heq.1

/-- A request that has just become ready is owned by the request made for it. -/
theorem ready_owned_once_by_request : ∃ tr s, machine.Run init tr s ∧ ∃ q, s.Unreplied 0 q ∧
    ∀ c, s.queuedReplies c 0 = 0 := by
  obtain ⟨tr, s, hrun, hs⟩ := Machine.exists_run_of_exec machine init
    [.accept [] fun _ => 0, .strand 0 (.handleRead false (emptyRequest 1)), .strand 0 .nextPacket,
      .strand 0 .nextPacket, .strand 0 .nextPacket]
    (fun _ s => !s.terminated && (s.connections 0).any fun k =>
      s.activeConnections k.connectionId = some 0 && k.strand.connection.socket.strand.isEmpty &&
        (k.strand.connection.data.requestMap[1]?).any fun e => e.ptr = 0 &&
          e.state &&& inCompleted ≠ 0 && e.state &&& paramsCompleted ≠ 0) (by decide)
  simp only [Bool.and_eq_true, Bool.not_eq_true', Option.any_eq_true, decide_eq_true_eq,
    List.isEmpty_iff] at hs
  obtain ⟨hlive, k, hk, ⟨ha, hempty⟩, e, he, ⟨hptr, hin⟩, hparams⟩ := hs
  have howned := ready_owned_once hrun hlive hk ha he hin hparams
  rw [hptr, hempty] at howned
  obtain ⟨⟨q, hq, _⟩, hnone⟩ | ⟨_, hcount, _⟩ := howned
  · exact ⟨tr, s, hrun, q, hq, hnone⟩
  · cases hcount

end Santiago.Server
