import Santiago.RequestLife

/-!
# Santiago.ReadSide

The read side under asio: a call of `handleRead` answers one pending
`async_read_some`, with 1 to 4096 bytes or with an error.  `start()` asks for
the first read, and nothing in `handleRead` asks for another, so a
connection hears the peer exactly as long as no call of `handleRead` leaves
its loop with the socket still OPEN.
-/

namespace Santiago.Strand

open Effect Bytes PacketSocket Connection

/-- asio has a pending read to answer, and answers as documented. -/
def delivers (s : Strand) : Step → Bool
  | .handleRead error bytes =>
      s.connection.socket.pendingReads != 0 &&
        if error then bytes.isEmpty
        else 1 ≤ bytes.length && bytes.length ≤ bufferIncrementSize
  | _ => true

/-- The strand with asio in front of it. -/
def asioMachine : Machine Event Strand Step where
  enabled s l := machine.enabled s l && delivers s l
  act := machine.act

/-- Between two calls of `handleRead` on an OPEN socket one read is pending,
so whatever the peer sends next, or his disconnect, can be delivered. -/
def Listens (s : Strand) : Prop :=
  s.connection.socket.state = .open → s.reading = false →
    s.connection.socket.pendingReads = 1 ∧
    (∀ bytes : Bytes, 1 ≤ bytes.length → bytes.length ≤ bufferIncrementSize →
      asioMachine.enabled s (.handleRead false bytes) = true) ∧
    asioMachine.enabled s (.handleRead true []) = true

/-- The pass finds no complete record on an OPEN socket, and `handleRead` returns. -/
def LeavesLoopOpen (s : Strand) (l : Step) : Prop :=
  l = .nextPacket ∧ s.connection.socket.state = .open ∧
    (s.connection.socket.inputBuffer.length < fcgiHeaderLen ∨
      (FcgiHeader.cast s.connection.socket.inputBuffer).version = fcgiVersion1 ∧
        s.connection.socket.inputBuffer.length <
          (FcgiHeader.cast s.connection.socket.inputBuffer).recordLength)

theorem listens_of_pending {s : Strand} (h : s.connection.socket.state = .open →
    s.reading = false → s.connection.socket.pendingReads = 1) : s.Listens := by
  intro hs hr
  have hp := h hs hr
  refine ⟨hp, fun bytes h1 h2 => ?_, ?_⟩
  · simp [asioMachine, machine, enabled, delivers, hr, hp, h1, h2]
  · simp [asioMachine, machine, enabled, delivers, hr, hp]

/-- A pass that leaves the loop has closed the socket or found no record. -/
theorem leavesLoopOpen_of_pass {s : Strand} {c' : Connection} {es : List Event}
    (h : PassEffect s.connection ⟨.ret false, c', es⟩) (ho : c'.socket.state = .open) :
    s.LeavesLoopOpen .nextPacket := by
  generalize hx : Exit.ret false = x at h
  cases h with
  | drained hlen => exact ⟨rfl, ho, .inl hlen⟩
  | unsupported => cases hx
  | incomplete hlen hcast hv hrec =>
      subst hcast
      exact ⟨rfl, ho, .inr ⟨hv, hrec⟩⟩
  | handled _ _ =>
      simp only [Exit.ret.injEq, eq_comm (a := false), decide_eq_false_iff_not, not_not] at hx
      simp [hx] at ho
  | caught => cases hx
  | died => cases hx

/-- An OPEN socket was OPEN before the step. -/
theorem Moves.open_mono {s s' : Strand} {l : Step} {es : List Event} (h : Moves s l s' es)
    (hwf : s.connection.WF) (ho : s'.connection.socket.state = .open) :
    s.connection.socket.state = .open := by
  cases hs : s.connection.socket.state with
  | closed =>
      have hclosed := (h.wf hwf).mp (h.life.state_mono.2 (hwf.mpr hs))
      rw [ho] at hclosed
      contradiction
  | _ => rfl

/-- The pending reads, with the one `handleRead` is working on. -/
def reads (s : Strand) : Nat := s.connection.socket.pendingReads + if s.reading then 1 else 0

/-- A step keeps the number of reads, or gives the read of a running
`handleRead` up for good. -/
theorem Moves.reads_eq {s s' : Strand} {l : Step} {es : List Event} (h : Moves s l s' es)
    (hwf : s.connection.WF) (he : asioMachine.enabled s l = true) :
    s'.reads = s.reads ∨
      s'.reads + 1 = s.reads ∧ (s'.connection.socket.state = .open → s.LeavesLoopOpen l) := by
  have hen : machine.enabled s l = true ∧ delivers s l = true := by
    simpa [asioMachine] using he
  cases h with
  | readClosed hc =>
      simp only [machine, enabled, delivers, Bool.not_eq_true', Bool.and_eq_true, bne_iff_ne,
        ne_eq] at hen
      right
      refine ⟨?_, fun ho => ?_⟩
      · simp only [reads, received, hen.1, Bool.false_eq_true, if_false]
        omega
      · have hs := hwf.mp hc
        simp [hs] at ho
  | readFailed =>
      simp only [machine, enabled, delivers, Bool.not_eq_true', Bool.and_eq_true, bne_iff_ne,
        ne_eq] at hen
      right
      refine ⟨?_, fun ho => by simp at ho⟩
      simp only [reads, received, socket_shut, pendingReads_shut, hen.1, Bool.false_eq_true,
        if_false]
      omega
  | readBytes =>
      simp only [machine, enabled, delivers, Bool.not_eq_true', Bool.and_eq_true, bne_iff_ne,
        ne_eq] at hen
      left
      simp only [reads, received, hen.1, Bool.false_eq_true, if_false, if_true]
      omega
  | @pass again c' _ h =>
      have hreading : s.reading = true := hen.1
      cases again with
      | true =>
          left
          simp only [reads, hreading, h.pendingReads_eq]
      | false =>
          right
          refine ⟨?_, fun ho => leavesLoopOpen_of_pass h ho⟩
          simp [reads, hreading, h.pendingReads_eq]
  | flush => exact .inl rfl
  | commit _ h =>
      left
      simp only [reads, h.pendingReads_eq]
      rfl
  | commitReply => exact .inl rfl
  | edit => exact .inl rfl

/-- A pass that leaves the loop of an OPEN socket leaves no read behind. -/
theorem LeavesLoopOpen.reads_eq {s s' : Strand} {l : Step} {es : List Event}
    (h : s.LeavesLoopOpen l) (hm : Moves s l s' es) :
    s'.connection = s.connection ∧ s'.reading = false := by
  obtain ⟨rfl, _, hbuffer⟩ := h
  cases hm with
  | pass h =>
      generalize hx : Exit.ret _ = x at h
      cases h with
      | drained => exact ⟨rfl, by simpa using hx⟩
      | unsupported hlen hcast hv =>
          subst hcast
          obtain hlt | ⟨hv', _⟩ := hbuffer
          · exact absurd hlt (Nat.not_lt.mpr hlen)
          · exact absurd hv' hv
      | incomplete => exact ⟨rfl, by simpa using hx⟩
      | handled hn =>
          obtain hlt | ⟨_, hlt⟩ := hbuffer
          · exact absurd hlt (Nat.not_lt.mpr hn.header_le)
          · exact absurd (hn.cast_eq ▸ hlt) (Nat.not_lt.mpr hn.record_le)
      | caught hn =>
          obtain hlt | ⟨_, hlt⟩ := hbuffer
          · exact absurd hlt (Nat.not_lt.mpr hn.header_le)
          · exact absurd (hn.cast_eq ▸ hlt) (Nat.not_lt.mpr hn.record_le)
      | died => cases hx

/-! ## Runs -/

variable {fs : List (Option Nat)} {u : Nat → BitVec 32}
    {tr : List (Fired Strand Step)} {s : Strand}

theorem reads_init (fs : List (Option Nat)) (u : Nat → BitVec 32) : (init fs u).reads = 1 := rfl

/-- What asio allows is a run of the strand. -/
theorem run_of_asio {s₀ : Strand} (h : asioMachine.Run s₀ tr s) : machine.Run s₀ tr s := by
  induction h with
  | nil => exact .nil
  | step _ he hv ih =>
      have hen := (Bool.and_eq_true_iff.mp he).1
      exact .step ih hen hv

theorem moves_of_asio {s₀ : Strand} (hwf : s₀.connection.WF) {l : Step}
    (he : asioMachine.enabled s₀ l = true) (hv : asioMachine.survives s₀ l = true) :
    Moves s₀ l (asioMachine.act l s₀).state (asioMachine.act l s₀).events :=
  moves hwf (Bool.and_eq_true_iff.mp he).1 hv

theorem reads_le_one (h : asioMachine.Run (init fs u) tr s) : s.reads ≤ 1 := by
  have hboth := h.inv (fun _ _ => True) (fun s => s.connection.WF ∧ s.reads ≤ 1)
    ⟨wf_init fs u, (reads_init fs u).le⟩
    (fun s l hi he hv _ => by
      have hm := moves_of_asio hi.1 he hv
      refine ⟨hm.wf hi.1, ?_⟩
      obtain h | ⟨h, _⟩ := hm.reads_eq hi.1 he <;> omega) (fun _ _ => trivial)
  exact hboth.2

theorem reads_of_run (h : asioMachine.Run (init fs u) tr s)
    (hc : ∀ f ∈ tr, ¬ f.pre.LeavesLoopOpen f.label) :
    s.connection.socket.state = .open → s.reads = 1 := by
  have hboth := h.inv (fun s l => ¬ s.LeavesLoopOpen l)
    (fun s => s.connection.WF ∧ (s.connection.socket.state = .open → s.reads = 1))
    ⟨wf_init fs u, fun _ => reads_init fs u⟩
    (fun s l hi he hv hc => by
      have hm := moves_of_asio hi.1 he hv
      refine ⟨hm.wf hi.1, fun ho => ?_⟩
      have hpre := hi.2 (hm.open_mono hi.1 ho)
      obtain h | ⟨_, h⟩ := hm.reads_eq hi.1 he
      · exact h.trans hpre
      · exact absurd (h ho) hc) hc
  exact hboth.2

/-- **One read is outstanding** in every state of a run in which no pass
leaves the loop on an OPEN socket, and in no other run. -/
theorem listens_iff (h : asioMachine.Run (init fs u) tr s) :
    ((init fs u).Listens ∧ ∀ f ∈ tr, (asioMachine.post f).Listens) ↔
      ∀ f ∈ tr, ¬ f.pre.LeavesLoopOpen f.label := by
  constructor
  · intro ⟨_, hlisten⟩ f hf hleaves
    obtain ⟨tr₁, _, _, hpre, he, hv⟩ := h.fired hf
    have hle := reads_le_one hpre
    have hwf := wf_of_run (run_of_asio hpre)
    obtain ⟨hsame, hidle⟩ := hleaves.reads_eq (moves_of_asio hwf he hv)
    have hreading : f.pre.reading = true := by
      obtain ⟨hl, _⟩ := hleaves
      rw [hl] at he
      simpa [asioMachine, machine, enabled, delivers] using he
    have hone := (hlisten f hf (hsame ▸ hleaves.2.1) hidle).1
    rw [show (asioMachine.post f).connection = f.pre.connection from hsame] at hone
    simp only [reads, hreading, if_true] at hle
    omega
  · intro hc
    refine ⟨listens_of_pending fun _ _ => rfl,
      fun f hf => listens_of_pending fun ho hidle => ?_⟩
    obtain ⟨tr₁, tr₂, htr, hpre, he, hv⟩ := h.fired hf
    have hone := reads_of_run (.step hpre he hv) (by
      intro g hg
      refine hc g ?_
      rw [htr]
      obtain hg | hg := List.mem_append.mp hg
      · exact List.mem_append_left _ hg
      · rw [List.mem_singleton] at hg
        subst hg
        simp) ho
    have hpost : (asioMachine.post f).reads = 1 := hone
    simpa [reads, hidle] using hpost

/-- A request that is not to keep the connection comes with its own abort: the
loop closes the connection and ends, and the peer was heard all along. -/
theorem listens_iff_aborted :
    ∃ tr s, asioMachine.Run (init [] fun _ => 0) tr s ∧ .erased 1 0 ∈ asioMachine.trace tr ∧
      s.connection.state = .closed ∧ s.reading = false ∧
      ∀ f ∈ tr, (asioMachine.post f).Listens := by
  obtain ⟨tr, s, hrun, hp⟩ := Machine.exists_run_of_exec asioMachine (init [] fun _ => 0)
    [.handleRead false [1, 1, 0, 1, 0, 8, 0, 0, 0, 1, 0, 0, 0, 0, 0, 0, 1, 2, 0, 1, 0, 0, 0, 0],
      .nextPacket, .nextPacket]
    (fun tr s => .erased 1 0 ∈ asioMachine.trace tr && (s.connection.state = .closed &&
      (!s.reading && tr.all fun f => match f.label with
        | .nextPacket => f.pre.connection.socket.state ≠ .open ||
            (fcgiHeaderLen ≤ f.pre.connection.socket.inputBuffer.length &&
              (FcgiHeader.cast f.pre.connection.socket.inputBuffer).recordLength ≤
                f.pre.connection.socket.inputBuffer.length)
        | _ => true))) (by decide)
  simp only [Bool.and_eq_true, Bool.not_eq_true', decide_eq_true_eq, List.all_eq_true] at hp
  obtain ⟨herased, hclosed, hleft, hwhole⟩ := hp
  refine ⟨tr, s, hrun, herased, hclosed, hleft,
    ((listens_iff hrun).mpr fun f hf hleaves => ?_).2⟩
  obtain ⟨hl, hopen, hshort⟩ := hleaves
  have hlong := hwhole f hf
  rw [hl] at hlong
  simp only [Bool.or_eq_true, Bool.and_eq_true, decide_eq_true_eq] at hlong
  obtain hne | ⟨hheader, hrecord⟩ := hlong
  · exact hne hopen
  · omega

/-- One byte arrives: `handleRead` returns on an OPEN socket and no read is pending. -/
theorem deaf_after_one_byte :
    ∃ tr s, asioMachine.Run (init [] fun _ => 0) tr s ∧ s.connection.socket.state = .open ∧
      s.reading = false ∧ s.connection.socket.pendingReads = 0 ∧ ¬ s.Listens := by
  obtain ⟨tr, s, hrun, hp⟩ := Machine.exists_run_of_exec asioMachine (init [] fun _ => 0)
    [.handleRead false [1], .nextPacket]
    (fun _ s => s.connection.socket.state = .open && !s.reading &&
      s.connection.socket.pendingReads = 0) (by decide)
  simp only [Bool.and_eq_true, decide_eq_true_eq, Bool.not_eq_true'] at hp
  obtain ⟨⟨ho, hr⟩, hz⟩ := hp
  refine ⟨tr, s, hrun, ho, hr, hz, fun hlisten => ?_⟩
  have hone := (hlisten ho hr).1
  omega

end Santiago.Strand
