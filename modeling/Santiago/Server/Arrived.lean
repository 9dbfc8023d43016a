import Santiago.Reassembly
import Santiago.Server.Rest

/-!
# Santiago.Server.Arrived

The bytes of a connection.  Reads bring them in pieces; the passes of the read
loop take packets off them, and between two passes users commit, other
connections move and the strand sends replies.  `dispatched_as_arrived` says of
any moment of any run that the packets dispatched so far, and behind them those
that can be read off the buffer, are the packets of all that arrived.
-/

namespace Santiago

open Effect Bytes PacketSocket Connection

/-- What the reads among some steps brought. -/
def Strand.Step.bytes : Strand.Step → Bytes
  | .handleRead _ bytes => bytes
  | _ => []

def arrived (ls : List Strand.Step) : Bytes := ls.flatMap Strand.Step.bytes

@[simp] theorem arrived_append (ls ls' : List Strand.Step) :
    arrived (ls ++ ls') = arrived ls ++ arrived ls' := List.flatMap_append

@[simp] theorem arrived_singleton (l : Strand.Step) : arrived [l] = l.bytes :=
  List.flatMap_singleton ..

/-- Nothing is read off a settled buffer. -/
theorem reads_of_settled {b : Bytes} (h : Settled b) : Reads b [] b := by
  obtain h | ⟨hv, hlt⟩ := h
  · exact .drained h
  · by_cases hlen : b.length < fcgiHeaderLen
    · exact .drained hlen
    · exact .incomplete (Nat.not_lt.mp hlen) hv hlt

/-! ## What a pass of the loop takes -/

/-- The packets of the events `es` are the first ones of the buffer `b`, and
`b'` is left of it. -/
def TakesOff (b b' : Bytes) (es : List Event) : Prop :=
  ∀ ps rest, Reads b ps rest → ∃ ps', ps = packets es ++ ps' ∧ Reads b' ps' rest

/-- Where no packet comes, nothing is taken. -/
theorem takesOff_quiet {b : Bytes} {es : List Event}
    (h : ∀ r t content, .newPacket r t content ∉ es) : TakesOff b b es := by
  intro ps rest hreads
  rw [packets_eq_nil h]
  exact ⟨ps, rfl, hreads⟩

namespace Connection

/-- The packet of a pass is the first one of the buffer. -/
theorem NextRecord.takesOff {b content : Bytes} {h : FcgiHeader} (hn : NextRecord b h content)
    {es : List Event} (hes : ∀ r t content, .newPacket r t content ∉ es) :
    TakesOff b (b.drop h.recordLength) (.newPacket h.requestId h.type content :: es) := by
  obtain ⟨hlen, rfl, hv, hle, rfl⟩ := hn
  intro ps rest hreads
  have hone : packets (.newPacket (FcgiHeader.cast b).requestId (FcgiHeader.cast b).type
      ((b.drop fcgiHeaderLen).take (FcgiHeader.cast b).contentLength) :: es) = [packetAt b] := by
    rw [← List.singleton_append, packets_append, packets_eq_nil hes]
    rfl
  rw [hone]
  cases hreads with
  | drained hlt => exact absurd hlen (Nat.not_le.mpr hlt)
  | unsupported _ hnot => exact absurd hv hnot
  | incomplete _ _ hlt => exact absurd hle (Nat.not_le.mpr hlt)
  | packet _ _ hrest => exact ⟨_, rfl, hrest⟩

/-- A pass takes its packet off the front of the buffer, or nothing. -/
theorem PassEffect.takesOff {c c' : Connection} {again : Bool} {es : List Event}
    (h : PassEffect c ⟨.ret again, c', es⟩) :
    TakesOff c.socket.inputBuffer c'.socket.inputBuffer es := by
  cases h with
  | drained => exact takesOff_quiet (by simp)
  | incomplete => exact takesOff_quiet (by simp)
  | @unsupported h hlen hcast hv =>
      subst hcast
      intro ps rest hreads
      cases hreads with
      | drained hlt => exact absurd hlen (Nat.not_le.mpr hlt)
      | unsupported _ _ hrest => exact ⟨ps, rfl, hrest⟩
      | incomplete _ hnot => exact absurd hnot hv
      | packet hnot => exact absurd hnot hv
  | handled hn heffect =>
      rw [inputBuffer_consumed, heffect.inputBuffer_eq (by simp)]
      exact hn.takesOff fun _ _ _ => heffect.newPacket_notMem (by simp)
  | caught hn heffect =>
      rw [inputBuffer_consumed, heffect.inputBuffer_eq (by simp)]
      exact hn.takesOff fun _ _ _ => heffect.newPacket_notMem (by simp)

end Connection

/-! ## The bytes of a run -/

/-- The connection reads its buffer: its loop runs, or a read will start it. -/
def Strand.TakesPackets (s : Strand) : Prop := s.reading = true ∨ s.connection.state ≠ .closed

/-- After the steps `ls` with the events `t`: the packets of what arrived are
those that were dispatched and, while the connection listens, those that the
buffer holds. -/
def Accounted (ls : List Strand.Step) (t : List Event) (s : Strand) : Prop :=
  SkipsHeadersOnly (arrived ls) → ∃ ps rest, Reads (arrived ls) (packets t ++ ps) rest ∧
    (s.TakesPackets → Reads s.connection.socket.inputBuffer ps rest)

theorem accounted_init (fs : List (Option Nat)) (u : Nat → BitVec 32) :
    Accounted [] [] (Strand.init fs u) := by
  intro _
  have hempty : (Strand.init fs u).connection.socket.inputBuffer = [] := rfl
  rw [hempty]
  exact ⟨[], [], .drained (by decide), fun _ => .drained (by decide)⟩

/-- A step that is no read and dispatches what it takes off the buffer. -/
theorem Accounted.step {ls : List Strand.Step} {t es : List Event} {s s' : Strand}
    {l : Strand.Step} (h : Accounted ls t s) (hl : l.bytes = [])
    (hlistens : s'.TakesPackets → s.TakesPackets)
    (htakes : s.TakesPackets → TakesOff s.connection.socket.inputBuffer
      s'.connection.socket.inputBuffer es)
    (hquiet : ¬ s.TakesPackets → ∀ r t content, .newPacket r t content ∉ es) :
    Accounted (ls ++ [l]) (t ++ es) s' := by
  intro hskips
  rw [arrived_append, arrived_singleton, hl, List.append_nil] at hskips ⊢
  obtain ⟨ps, rest, hreads, hbuffer⟩ := h hskips
  rw [packets_append]
  by_cases hlistening : s.TakesPackets
  · obtain ⟨ps', rfl, hbuffer'⟩ := htakes hlistening ps rest (hbuffer hlistening)
    rw [← List.append_assoc] at hreads
    exact ⟨ps', rest, hreads, fun _ => hbuffer'⟩
  · rw [packets_eq_nil (hquiet hlistening), List.append_nil]
    exact ⟨ps, rest, hreads, fun h => absurd (hlistens h) hlistening⟩

/-- A read. -/
theorem Accounted.read {ls : List Strand.Step} {t : List Event} {s s' : Strand} {error : Bool}
    {bytes : Bytes} {es : List Event} (h : Accounted ls t s)
    (hes : ∀ r t content, .newPacket r t content ∉ es)
    (hlistens : s'.TakesPackets → Settled s.connection.socket.inputBuffer ∧ s.TakesPackets ∧
      s'.connection.socket.inputBuffer = s.connection.socket.inputBuffer ++ bytes) :
    Accounted (ls ++ [.handleRead error bytes]) (t ++ es) s' := by
  intro hskips
  rw [arrived_append, arrived_singleton] at hskips ⊢
  obtain ⟨ps, rest, hreads, hbuffer⟩ := h hskips.of_append
  obtain ⟨ps', rest', hmore⟩ := Reads.total (rest ++ bytes)
  have hall := (hreads.append hskips).2 hmore
  rw [packets_append, packets_eq_nil hes, List.append_nil]
  refine ⟨ps ++ ps', rest', by rwa [← List.append_assoc], fun hs => ?_⟩
  obtain ⟨hsettled, hlistened, hbuffer'⟩ := hlistens hs
  -- outside the loop nothing is left to be dispatched
  obtain ⟨rfl, rfl⟩ := (hbuffer hlistened).unique (reads_of_settled hsettled)
  rw [hbuffer']
  exact hmore

/-- One more step of the connection. -/
theorem Strand.Moves.accounted {ls : List Step} {t es : List Event} {s s' : Strand} {l : Step}
    (h : Accounted ls t s) (hidles : s.Idles) (he : machine.enabled s l = true)
    (hm : Moves s l s' es) : Accounted (ls ++ [l]) (t ++ es) s' := by
  have hmono := hm.life.state_mono.2
  cases hm with
  | readClosed hc =>
      refine h.read (by simp) fun hs => ?_
      obtain hs | hs := hs
      · cases hs
      · exact absurd hc hs
  | readFailed =>
      refine h.read (by simp) fun hs => ?_
      obtain hs | hs := hs
      · cases hs
      · exact absurd rfl hs
  | readBytes hc =>
      have hreading : s.reading = false := by simpa [machine, enabled] using he
      exact h.read (by simp) fun _ => ⟨hidles hreading hc, .inr hc, rfl⟩
  | pass hpass =>
      have hreading : s.reading = true := he
      exact h.step rfl (fun _ => .inl hreading) (fun _ => hpass.takesOff)
        fun hnot => absurd (.inl hreading) hnot
  | flush _ hc =>
      have hreading : s.reading = false := by
        simp only [machine, enabled, Bool.and_eq_true, Bool.not_eq_true'] at he
        exact he.1
      have hnot : ¬ s.TakesPackets := by
        rintro (hs | hs)
        · rw [hreading] at hs
          cases hs
        · exact hs hc
      exact h.step rfl (fun hs => hs) (fun hs => absurd hs hnot) fun _ => by simp
  | commit _ hcommit =>
      refine h.step rfl ?_ (fun _ => ?_) fun _ => ?_
      · rintro (hs | hs)
        · exact .inl hs
        · exact .inr fun hc => hs (hmono hc)
      · rw [hcommit.inputBuffer_eq]
        exact takesOff_quiet fun _ _ _ => hcommit.newPacket_notMem
      · exact fun _ _ _ => hcommit.newPacket_notMem
  | commitReply =>
      exact h.step rfl (fun hs => hs) (fun _ => takesOff_quiet (by simp)) fun _ => by simp
  | edit => exact h.step rfl (fun hs => hs) (fun _ => takesOff_quiet (by simp)) fun _ => by simp

namespace Server

/-- In every run the bytes that arrived are accounted for on each connection. -/
theorem accounted_of_run {tr : List (Fired Server Step)} {s : Server} {c : Nat}
    {k : AcceptedConnection} (h : machine.Run init tr s) (hk : s.connections c = some k) :
    Accounted (tr.flatMap (stepsAt c)) (eventsOf c (machine.trace tr)) k.strand ∧
      k.strand.Idles :=
  connection_inv (fun ls t s => Accounted ls t s ∧ s.Idles)
    (by
      rintro _ ⟨fs, u, rfl⟩
      exact ⟨accounted_init fs u, Strand.idles_init fs u⟩)
    (fun _ _ _ _ hwf hj he hm =>
      ⟨hm.accounted hj.1 hj.2 ((Bool.and_eq_true _ _).mp he).1, hm.idles hwf hj.2⟩)
    (fun _ _ _ _ hj => hj) h hk

/-- **What a connection dispatches is what arrived on it**, at any moment of
any run and however the bytes were cut into reads: the packets that its events
hand to the record socket, and behind them those that the buffer still holds,
are the packets of all the bytes that arrived, each once and in their order.
Outside the loop nothing is left to be dispatched.  A connection that does not
listen any more has dispatched the first of them.  (Cuts show in a record of an
unsupported version that has more than its header.) -/
theorem dispatched_as_arrived {tr : List (Fired Server Step)} {s : Server} {c : Nat}
    {k : AcceptedConnection} (h : machine.Run init tr s) (hk : s.connections c = some k)
    (hskips : SkipsHeadersOnly (arrived (tr.flatMap (stepsAt c)))) :
    ∃ ps rest, Reads (arrived (tr.flatMap (stepsAt c)))
        (packets (eventsOf c (machine.trace tr)) ++ ps) rest ∧
      (k.strand.TakesPackets → Reads k.strand.connection.socket.inputBuffer ps rest) ∧
      (k.strand.reading = false → k.strand.connection.state ≠ .closed →
        ps = [] ∧ rest = k.strand.connection.socket.inputBuffer) := by
  have haccounted := accounted_of_run h hk
  obtain ⟨ps, rest, hreads, hbuffer⟩ := haccounted.1 hskips
  refine ⟨ps, rest, hreads, hbuffer, fun hreading hopen => ?_⟩
  have hsettled := reads_of_settled (haccounted.2 hreading hopen)
  exact (hbuffer (.inr hopen)).unique hsettled

/-- A record comes in two reads, with the beginning of the next one behind it. -/
theorem dispatched_as_arrived_cut :
    ∃ tr s k, machine.Run init tr s ∧ s.connections 0 = some k ∧
    packets (eventsOf 0 (machine.trace tr)) = [(1, 5, [97])] ∧
    k.strand.connection.socket.inputBuffer = [1, 5] ∧
    ∃ ps rest, Reads (arrived (tr.flatMap (stepsAt 0)))
        (packets (eventsOf 0 (machine.trace tr)) ++ ps) rest ∧
      (k.strand.TakesPackets → Reads k.strand.connection.socket.inputBuffer ps rest) := by
  obtain ⟨tr, s, hrun, hs⟩ := Machine.exists_run_of_exec machine init
    [.accept [] fun _ => 0, .strand 0 (.handleRead false [1, 5, 0, 1, 0]), .strand 0 .nextPacket,
      .strand 0 (.handleRead false [1, 0, 0, 97, 1, 5]), .strand 0 .nextPacket,
      .strand 0 .nextPacket]
    (fun tr s => (s.connections 0).any fun k =>
      k.strand.connection.socket.inputBuffer = [1, 5] &&
        (packets (eventsOf 0 (machine.trace tr)) = [(1, 5, [97])] &&
          arrived (tr.flatMap (stepsAt 0)) = [1, 5, 0, 1, 0, 1, 0, 0, 97, 1, 5])) (by decide)
  simp only [Option.any_eq_true, Bool.and_eq_true, decide_eq_true_eq] at hs
  obtain ⟨k, hk, hbuffer, hpackets, harrived⟩ := hs
  have hskips : SkipsHeadersOnly (arrived (tr.flatMap (stepsAt 0))) := by
    rw [harrived]
    exact .packet (by decide) (by decide) (.drained (by decide))
  obtain ⟨ps, rest, hreads, hlistens, _⟩ := dispatched_as_arrived hrun hk hskips
  exact ⟨tr, s, k, hrun, hk, hpackets, hbuffer, ps, rest, hreads, hlistens⟩

end Server

end Santiago
