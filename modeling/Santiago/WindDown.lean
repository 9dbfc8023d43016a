import Santiago.RequestLife

/-!
# Santiago.WindDown

Winding down.  A begin-request without `FCGI_KEEP_CONN` makes the connection
CLOSING, and new requests may still arrive; the connection closes with the
last request of its map, and never with a request in it unless the socket
has failed.
-/

namespace Santiago

open Effect Bytes PacketSocket Connection

namespace Life

variable {st st' : Connection.State} {d d' : ConnectionData} {es : List Event}

/-- What a user does to a reply takes no request away and adds none. -/
theorem size_edit_eq_zero_iff (d : ConnectionData) (r ptr : Nat) (change : UserEdit) :
    (d.edit r ptr change).size = 0 ↔ d.size = 0 := by
  unfold ConnectionData.edit
  split
  · exact ConnectionData.size_modifyEntry_eq_zero_iff d _ _
  · exact Iff.rfl

/-- A step never leaves a CLOSING connection without requests. -/
theorem closing_size_ne_zero (h : Life st d st' d' es) (hinv : st = .closing → d.size ≠ 0) :
    st' = .closing → d'.size ≠ 0 := by
  intro hst
  cases h with
  | silent => exact hinv hst
  | edited => exact (size_edit_eq_zero_iff _ _ _ _).not.mpr (hinv hst)
  | rejected => exact hinv hst
  | answered => exact hinv hst
  | abortUnknown => exact hinv hst
  | failed => cases hst
  | began => exact d.size_insertNew_ne_zero _
  | beganLast => exact d.size_insertNew_ne_zero _
  | received => exact (d.size_modifyEntry_eq_zero_iff _ _).not.mpr (hinv hst)
  | receivedReady => exact (d.size_modifyEntry_eq_zero_iff _ _).not.mpr (hinv hst)
  | left _ _ _ hlast => exact fun hz => hlast ⟨hst, hz⟩
  | leftLast => cases hst

/-- An entry leaves the map through its abort, its reply, or a failing socket. -/
theorem leaves_cases (h : Life st d st' d' es) {r ptr : Nat}
    (hin : d.isValidRequest r ptr = true) (hgone : d'.isValidRequest r ptr = false) :
    (∃ content, Event.newPacket r fcgiAbortRequest content ∈ es) ∨ .sendReply r ptr ∈ es ∨
      ∃ x ∈ es, x.isSocketError = true := by
  have hsame : d' ≠ d := fun heq => by simp [heq, hin] at hgone
  have hleft : ∀ {r' : Nat} {e : Entry} {before rest : List Event},
      d.requestMap[r']? = some e → Leaves r' e before →
        (d.erase r').isValidRequest r ptr = false →
        (∃ content, Event.newPacket r fcgiAbortRequest content ∈ before ++ rest) ∨
          .sendReply r ptr ∈ before ++ rest ∨
            ∃ x ∈ before ++ rest, x.isSocketError = true := by
    intro r' e before rest he hleaves herase
    rw [ConnectionData.isValidRequest_erase, hin, Bool.and_true] at herase
    obtain rfl : r' = r := by simpa using herase
    obtain ⟨e', he', rfl⟩ := ConnectionData.isValidRequest_iff.mp hin
    obtain rfl : e = e' := by simpa [he] using he'
    cases hleaves with
    | @abort content => exact .inl ⟨content, by simp⟩
    | reply => exact .inr (.inl (by simp))
  cases h with
  | silent => exact absurd rfl hsame
  | edited => simp [ConnectionData.isValidRequest_edit, hin] at hgone
  | rejected => exact absurd rfl hsame
  | answered => exact absurd rfl hsame
  | abortUnknown => exact absurd rfl hsame
  | @failed before x n _ _ hx => exact .inr (.inr ⟨x, by simp, hx⟩)
  | began _ _ _ hn => simp [ConnectionData.isValidRequest_insertNew hn, hin] at hgone
  | beganLast _ _ _ _ hn => simp [ConnectionData.isValidRequest_insertNew hn, hin] at hgone
  | received => simp [ConnectionData.isValidRequest_modifyEntry, hin] at hgone
  | receivedReady => simp [ConnectionData.isValidRequest_modifyEntry, hin] at hgone
  | left _ he hleaves => exact hleft he hleaves hgone
  | leftLast _ he hleaves hsize =>
      exact hleft he hleaves (ConnectionData.isValidRequest_of_size_eq_zero hsize r ptr)

/-- A non-empty map is cleared only right behind a socket error. -/
def ClearedBehindError (x y : Event) : Prop :=
  ∀ n, y = .cleared n → n ≠ 0 → x.isSocketError = true

/-- An event other than `_data.clear()`. -/
def Quiet (x : Event) : Prop := ∀ n, x ≠ .cleared n

theorem isChain_of_quiet {es : List Event} (h : ∀ y ∈ es, Quiet y) :
    es.IsChain ClearedBehindError := by
  induction es with
  | nil => exact .nil
  | cons x es ih =>
      refine List.isChain_cons.mpr ⟨?_, ih fun y hy => h y (List.mem_cons_of_mem _ hy)⟩
      intro y hy n hyn _
      exact absurd hyn (h y (List.mem_cons_of_mem _ (List.mem_of_mem_head? hy)) n)

/-- Writing clears nothing. -/
theorem quiet_wrote {ps : List (FcgiHeader × Bytes)} : ∀ y ∈ ps.map wroteEvent, Quiet y := by
  intro y hy n heq
  obtain ⟨_, _, hw⟩ := wroteEvent_quiet hy
  rw [heq] at hw
  cases hw

theorem quiet_cons {x : Event} {es : List Event} (hx : Quiet x) (h : ∀ y ∈ es, Quiet y) :
    ∀ y ∈ x :: es, Quiet y := by
  intro y hy
  cases hy with
  | head => exact hx
  | tail _ hy => exact h y hy

/-- A request that leaves the map clears nothing before it does. -/
theorem quiet_leaves {r : Nat} {e : Entry} {before : List Event} (h : Leaves r e before) :
    ∀ y ∈ before, Quiet y := by
  cases h with
  | abort => exact quiet_cons nofun (quiet_cons nofun nofun)
  | reply => exact quiet_cons nofun quiet_wrote

/-- A step clears the map at its end or not at all. -/
theorem clears_last (h : Life st d st' d' es) :
    (∀ y ∈ es, Quiet y) ∨ ∃ before x n, es = before ++ [x, .cleared n, .closeCallback] ∧
      (∀ y ∈ before, Quiet y) ∧ Quiet x ∧ (n ≠ 0 → x.isSocketError = true) := by
  cases h with
  | silent => exact .inl nofun
  | edited => exact .inl nofun
  | rejected => exact .inl (quiet_cons nofun nofun)
  | answered => exact .inl (quiet_cons nofun quiet_wrote)
  | abortUnknown => exact .inl (quiet_cons nofun (quiet_cons nofun nofun))
  | @failed before x n _ hbefore hx =>
      refine .inr ⟨before, x, n, rfl, ?_, ?_, fun _ => hx⟩
      · intro y hy n heq
        subst heq
        obtain ⟨_, _, _, h⟩ | ⟨_, _, h⟩ | ⟨_, _, h⟩ := hbefore _ hy <;> cases h
      · intro n heq
        subst heq
        cases hx
  | began => exact .inl (quiet_cons nofun (quiet_cons nofun nofun))
  | beganLast => exact .inl (quiet_cons nofun (quiet_cons nofun nofun))
  | received => exact .inl (quiet_cons nofun nofun)
  | receivedReady => exact .inl (quiet_cons nofun (quiet_cons nofun nofun))
  | left _ _ hleaves =>
      refine .inl fun y hy => ?_
      obtain hy | hy := List.mem_append.mp hy
      · exact quiet_leaves hleaves y hy
      · rw [List.mem_singleton] at hy
        subst hy
        exact nofun
  | leftLast _ _ hleaves =>
      exact .inr ⟨_, _, 0, rfl, quiet_leaves hleaves, nofun, fun h => absurd rfl h⟩

/-- Within a step a non-empty map is cleared only right behind a socket error,
and no step starts with that. -/
theorem isChain (h : Life st d st' d' es) :
    (∀ y ∈ es.head?, Quiet y) ∧ es.IsChain ClearedBehindError := by
  obtain hq | ⟨before, x, n, rfl, hq, hx, hn⟩ := h.clears_last
  · exact ⟨fun y hy => hq y (List.mem_of_mem_head? hy), isChain_of_quiet hq⟩
  constructor
  · intro y hy
    cases before with
    | nil =>
        simp only [List.nil_append, List.head?_cons, Option.mem_some_iff] at hy
        exact hy ▸ hx
    | cons z zs =>
        simp only [List.cons_append, List.head?_cons, Option.mem_some_iff] at hy
        exact hy ▸ hq z List.mem_cons_self
  · refine (isChain_of_quiet hq).append ?_ ?_
    · refine .cons_cons ?_ (.cons_cons (fun _ h => by cases h) (.singleton _))
      intro m hm hne
      obtain rfl : n = m := by simpa using hm
      exact hn hne
    · intro _ _ y hy m hm
      simp only [List.head?_cons, Option.mem_some_iff] at hy
      exact absurd (hy ▸ hm) (hx m)

theorem began_notMem_wrote {ps : List (FcgiHeader × Bytes)} {r ptr : Nat} :
    .began r ptr ∉ ps.map wroteEvent := by
  intro h
  obtain ⟨_, _, hw⟩ := wroteEvent_quiet h
  cases hw

/-- A request that leaves the map begins none. -/
theorem began_notMem_leaves {r r' ptr : Nat} {e : Entry} {before : List Event}
    (h : Leaves r e before) : .began r' ptr ∉ before := by
  cases h with
  | abort => simp [wroteEvent]
  | reply => simpa using began_notMem_wrote

/-- An accepted begin-request without `FCGI_KEEP_CONN` winds the connection down. -/
theorem windsDown (h : Life st d st' d' es) {r ptr : Nat} {content : Bytes}
    (hp : Event.newPacket r fcgiBeginRequest content ∈ es) (hb : .began r ptr ∈ es)
    (hk : ¬ KeepsConnection content) : st' ≠ .open := by
  cases h with
  | silent => cases hb
  | edited => cases hb
  | rejected => simp at hb
  | answered =>
      rw [List.mem_cons] at hb
      obtain hb | hb := hb
      · cases hb
      · exact absurd hb began_notMem_wrote
  | abortUnknown => simp [wroteEvent] at hb
  | failed => simp
  | @began _ content' _ _ hkeep =>
      simp only [List.mem_cons, Event.newPacket.injEq, reduceCtorEq, List.not_mem_nil, or_self,
        or_false] at hp
      obtain ⟨_, _, rfl⟩ := hp
      exact absurd hkeep hk
  | beganLast => simp
  | received => simp at hb
  | receivedReady => simp at hb
  | left _ _ hleaves =>
      rw [List.mem_append, List.mem_singleton] at hb
      obtain hb | hb := hb
      · exact absurd hb (began_notMem_leaves hleaves)
      · cases hb
  | leftLast => simp

end Life

/-! ## Runs -/

namespace Strand

variable {fs : List (Option Nat)} {u : Nat → BitVec 32}
    {tr : List (Fired Strand Step)} {s : Strand}

/-- In every run a CLOSING connection still has requests. -/
theorem closing_of_run (h : machine.Run (init fs u) tr s) :
    s.connection.state = .closing → s.connection.data.size ≠ 0 :=
  inv (fun _ _ => True) (fun _ s => s.connection.state = .closing → s.connection.data.size ≠ 0)
    (by simp [init, Connection.start, Connection.init, setSocket])
    (fun _ _ _ _ hj _ _ hm => hm.life.closing_size_ne_zero hj) h (fun _ _ => trivial)

/-- In a whole run, too, a non-empty map is cleared only right behind an error. -/
theorem isChain_of_run (h : machine.Run (init fs u) tr s) :
    (machine.trace tr).IsChain Life.ClearedBehindError ∧
      ∀ y ∈ (machine.trace tr).head?, Life.Quiet y :=
  inv (fun _ _ => True)
    (fun t _ => t.IsChain Life.ClearedBehindError ∧ ∀ y ∈ t.head?, Life.Quiet y)
    ⟨.nil, nofun⟩
    (fun t _ _ _ hj _ _ hm => by
      obtain ⟨hhead, hchain⟩ := hm.life.isChain
      refine ⟨hj.1.append hchain fun x _ y hy n hyn _ => absurd hyn (hhead y hy n), ?_⟩
      intro y hy
      cases t with
      | nil => exact hhead y hy
      | cons z zs => exact hj.2 y hy) h (fun _ _ => trivial)

/-- The step of a run, with what it does. -/
theorem moves_of_mem (h : machine.Run (init fs u) tr s) {f : Fired Strand Step} (hf : f ∈ tr) :
    Moves f.pre f.label (machine.post f) (machine.observed f) := by
  obtain ⟨tr₁, tr₂, _, hrun, he, hv⟩ := h.fired hf
  exact moves (wf_of_run hrun) he hv

/-- A connection that is not OPEN does not open again. -/
theorem state_ne_open_of_run {s₀ : Strand} (hwf : s₀.connection.WF)
    (h : machine.Run s₀ tr s) (hs : s₀.connection.state ≠ .open) :
      s.connection.state ≠ .open :=
  (h.inv (fun _ _ => True) (fun s => s.connection.WF ∧ s.connection.state ≠ .open) ⟨hwf, hs⟩
    (fun _ _ hi he hv _ =>
      have hm := moves hi.1 he hv
      ⟨hm.wf hi.1, hm.life.state_mono.1 hi.2⟩) (fun _ _ => trivial)).2

/-- The step accepts a begin-request without `FCGI_KEEP_CONN`. -/
def WindsDown (f : Fired Strand Step) : Prop :=
  ∃ r ptr content, Event.newPacket r fcgiBeginRequest content ∈ machine.observed f ∧
    .began r ptr ∈ machine.observed f ∧ ¬ KeepsConnection content

theorem eq_closed {st : Connection.State} (ho : st ≠ .open) (hc : st ≠ .closing) :
    st = .closed := by
  cases st <;> trivial

/-- **Winding down.**  A CLOSING connection has a request; the map is cleared
with requests in it only right behind a socket error; and as long as the
socket does not fail a request leaves through its own abort or reply, and a
connection that accepted a begin-request without `FCGI_KEEP_CONN` is CLOSED by
the step that takes its last request. -/
theorem wind_down (h : machine.Run (init fs u) tr s) :
    (s.connection.state = .closing → s.connection.data.size ≠ 0) ∧
    (∀ t₁ n t₂, machine.trace tr = t₁ ++ .cleared n :: t₂ → n ≠ 0 →
      ∃ t₀ x, t₁ = t₀ ++ [x] ∧ x.isSocketError = true) ∧
    ((∀ x ∈ machine.trace tr, x.isSocketError = false) →
      (∀ f ∈ tr, ∀ r ptr, f.pre.connection.data.isValidRequest r ptr = true →
        (machine.post f).connection.data.isValidRequest r ptr = false →
          (∃ content, .newPacket r fcgiAbortRequest content ∈ machine.observed f) ∨
            .sendReply r ptr ∈ machine.observed f) ∧
      ∀ tr₁ f tr₂ g tr₃, tr = tr₁ ++ f :: (tr₂ ++ g :: tr₃) → WindsDown f →
        g.pre.connection.data.size ≠ 0 → (machine.post g).connection.data.size = 0 →
          (machine.post g).connection.state = .closed) := by
  refine ⟨closing_of_run h, ?_, fun hok => ⟨?_, ?_⟩⟩
  · intro t₁ n t₂ ht hn
    obtain ⟨hchain, hhead⟩ := isChain_of_run h
    rw [ht] at hchain hhead
    obtain rfl | ⟨t₀, x, rfl⟩ := List.eq_nil_or_concat t₁
    · exact absurd rfl (hhead (.cleared n) (by simp) n)
    · rw [List.concat_eq_append] at hchain ⊢
      obtain ⟨_, _, hlast⟩ := List.isChain_append.mp hchain
      exact ⟨t₀, x, rfl, hlast x (by simp) (.cleared n) (by simp) n rfl hn⟩
  · intro f hf r ptr hin hgone
    obtain ha | hr | ⟨x, hx, herr⟩ := (moves_of_mem h hf).life.leaves_cases hin hgone
    · exact .inl ha
    · exact .inr hr
    · rw [hok x (Machine.mem_trace hf hx)] at herr
      contradiction
  · intro tr₁ f tr₂ g tr₃ htr hwind _ hsize
    have hf := moves_of_mem h (f := f) (by simp [htr])
    have hg := moves_of_mem h (f := g) (by simp [htr])
    rw [htr] at h
    obtain ⟨hpre, _, _, hafter⟩ := h.split
    have hwf := hf.wf (wf_of_run hpre)
    obtain ⟨hmid, _, _, _⟩ := hafter.split
    obtain ⟨r, ptr, content, hp, hb, hk⟩ := hwind
    have hopen := state_ne_open_of_run hwf hmid (hf.life.windsDown hp hb hk)
    have hprefix : machine.Run (init fs u) ((tr₁ ++ f :: tr₂) ++ g :: tr₃) s := by
      simpa using h
    obtain ⟨hpre', heg', hvg', _⟩ := hprefix.split
    refine eq_closed (hg.life.state_mono.1 hopen) fun hclosing => ?_
    exact closing_of_run (.step hpre' heg' hvg') hclosing hsize

/-- A begin-request without `FCGI_KEEP_CONN` leaves the connection CLOSING, with a request. -/
theorem wind_down_of_one_request :
    ∃ tr s, machine.Run (init [] fun _ => 0) tr s ∧ s.connection.state = .closing ∧
      s.connection.data.size ≠ 0 := by
  obtain ⟨tr, s, hrun, hs⟩ := Machine.exists_run_of_exec machine (init [] fun _ => 0)
    [.handleRead false [1, 1, 0, 1, 0, 8, 0, 0, 0, 1, 0, 0, 0, 0, 0, 0], .nextPacket]
    (fun _ s => s.connection.state = .closing) (by decide)
  have hclosing : s.connection.state = .closing := by simpa using hs
  exact ⟨tr, s, hrun, hclosing, (wind_down hrun).1 hclosing⟩

end Strand

end Santiago
