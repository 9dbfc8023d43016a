import Santiago.Lib.Table

/-!
# Santiago.Custody

Who has to answer a ready request.  Connections store objects under request
ids; an object that becomes ready is handed to one request, which either puts
one reply on the queue of its connection or is dropped.  `Custody` says that
and nothing more: connections, ids, objects and requests are arbitrary types,
and the packets, the socket and the server are gone.

`Sound.step` is the invariant of every step: one custodian for each ready
object that is still stored on an active connection.
-/

namespace Santiago

variable {C R O Q : Type}

/-- A request that still owes a reply. -/
structure Custody.Request (C R O : Type) where
  object : O
  requestId : R
  /-- Where the object was stored when it became ready. -/
  home : C
  /-- Where the reply will be queued. -/
  connection : C

structure Custody (C R O Q : Type) where
  /-- The objects stored by a connection, and whether they are ready. -/
  entry : C → R → Option (O × Bool)
  /-- The replies queued on a connection. -/
  replies : C → List (R × O)
  request : Q → Option (Custody.Request C R O)
  active : Set C
  /-- The connections and the objects made so far. -/
  known : Set C
  made : Set O

namespace Custody

/-- Somebody who has to see to it that an object is answered. -/
inductive Custodian (C R Q : Type) where
  | request (q : Q)
  | reply (c : C) (r : R)

def Holds (v : Custody C R O Q) (o : O) : Custodian C R Q → Prop
  | .request q => ∃ rq, v.request q = some rq ∧ rq.object = o
  | .reply c r => (r, o) ∈ v.replies c

/-- What a connection does to its own map: it drops entries, and stores new
objects that are not ready. -/
structure Evolves (v : Custody C R O Q) (c : C) (m : R → Option (O × Bool)) (made : Set O) :
    Prop where
  made_subset : v.made ⊆ made
  entry_cases : ∀ r x, m r = some x →
    v.entry c r = some x ∨ x.2 = false ∧ x.1 ∉ v.made ∧ x.1 ∈ made
  inj : ∀ r x r' x', m r = some x → m r' = some x' → x.1 = x'.1 → r = r'

section Step

variable [DecidableEq C] [DecidableEq R] [DecidableEq Q]

/-- The steps that matter for custody. -/
inductive Step (v : Custody C R O Q) : Custody C R O Q → Prop
  | skip : Step v v
  /-- A connection handles a packet. -/
  | turn {c : C} {m : R → Option (O × Bool)} {made : Set O} : c ∈ v.known →
      v.Evolves c m made →
      Step v { v with entry := Function.update v.entry c m, made := made }
  /-- An object becomes ready and gets its request. -/
  | ready {c : C} {q : Q} {rq : Custody.Request C R O} : v.request q = none → rq.home = c →
      v.entry c rq.requestId = some (rq.object, false) →
        (c ∈ v.active → rq.connection = c) →
      Step v { v with
        entry := Function.update v.entry c
          (Function.update (v.entry c) rq.requestId (some (rq.object, true)))
        request := Function.update v.request q (some rq) }
  /-- A request queues its reply. -/
  | commit {q : Q} {rq : Custody.Request C R O} : v.request q = some rq →
      rq.connection ∈ v.active → Step v { v with
        request := Function.update v.request q none
        replies := Function.update v.replies rq.connection
          (v.replies rq.connection ++ [(rq.requestId, rq.object)]) }
  /-- A request is dropped whose object or connection is gone. -/
  | drop {q : Q} {rq : Custody.Request C R O} : v.request q = some rq →
      (rq.connection ∈ v.active → rq.home ∈ v.active →
        ∀ b, v.entry rq.home rq.requestId ≠ some (rq.object, b)) →
      Step v { v with request := Function.update v.request q none }
  /-- A queued reply runs; its object is not stored under its id afterwards. -/
  | settle {c : C} {r : R} {o : O} {rest : List (R × O)} {m : R → Option (O × Bool)} :
      v.replies c = (r, o) :: rest →
      (∀ r' x, m r' = some x → v.entry c r' = some x ∧ (r' = r → x.1 ≠ o)) →
      Step v { v with
        entry := Function.update v.entry c m
        replies := Function.update v.replies c rest }
  | accept {c : C} : c ∉ v.known →
      Step v { v with active := insert c v.active, known := insert c v.known }
  | close {c : C} : Step v { v with active := v.active \ {c} }

end Step

/-! ## The invariant -/

/-- Objects, ids and custodians fit together. -/
structure Sound (v : Custody C R O Q) : Prop where
  entry_made : ∀ c r x, v.entry c r = some x → c ∈ v.known ∧ x.1 ∈ v.made
  entry_inj : ∀ c r x c' r' x', v.entry c r = some x →
    v.entry c' r' = some x' → x.1 = x'.1 →
    c = c' ∧ r = r'
  made_of_holds : ∀ o t, v.Holds o t → o ∈ v.made
  ready_of_holds : ∀ o t c r b, v.Holds o t → v.entry c r = some (o, b) → b = true
  home_known : ∀ q rq, v.request q = some rq → rq.home ∈ v.known
  home_eq : ∀ q rq c r b, v.request q = some rq → v.entry c r = some (rq.object, b) →
    rq.home = c ∧ rq.requestId = r
  connection_eq : ∀ q rq, v.request q = some rq → rq.home ∈ v.active →
    rq.connection = rq.home
  reply_eq : ∀ c r o c' r' b, (r, o) ∈ v.replies c → v.entry c' r' = some (o, b) →
    c' ∈ v.active → c = c' ∧ r = r'
  unique : ∀ o t t', v.Holds o t → v.Holds o t' → t = t'
  once : ∀ c, ((v.replies c).map Prod.snd).Nodup
  owned : ∀ c r o, c ∈ v.active → v.entry c r = some (o, true) → ∃ t, v.Holds o t

variable {v v' : Custody C R O Q}

/-- Nothing is stored, queued, held or active. -/
theorem sound_of_empty (hentry : ∀ c r, v.entry c r = none) (hreplies : ∀ c, v.replies c = [])
    (hrequest : ∀ q, v.request q = none) : v.Sound := by
  have hholds : ∀ o t, ¬ v.Holds o t := by
    intro o t h
    cases t with
    | request q =>
        obtain ⟨rq, hq, _⟩ := h
        rw [hrequest] at hq
        cases hq
    | reply c r =>
        rw [Holds, hreplies] at h
        cases h
  constructor <;> simp [hentry, hreplies, hrequest, hholds]

section Turn

variable [DecidableEq C]

/-- What a connection stores after a turn it stored before, or it is new. -/
theorem Evolves.entry_cases' {c : C} {m : R → Option (O × Bool)} {made : Set O}
    (h : v.Evolves c m made) {c' : C} {r : R} {x : O × Bool}
    (hx : Function.update v.entry c m c' r = some x) :
    v.entry c' r = some x ∨ c' = c ∧ x.2 = false ∧ x.1 ∉ v.made ∧ x.1 ∈ made := by
  by_cases hc : c' = c
  · subst hc
    rw [Function.update_self] at hx
    obtain hold | hnew := h.entry_cases r x hx
    · exact .inl hold
    · exact .inr ⟨rfl, hnew⟩
  · rw [Function.update_of_ne hc] at hx
    exact .inl hx

/-- A connection's own step: it drops entries, and stores new objects. -/
theorem Sound.turn (h : v.Sound) {c : C} {m : R → Option (O × Bool)} {made : Set O}
    (hc : c ∈ v.known) (he : v.Evolves c m made) :
    Sound { v with entry := Function.update v.entry c m, made := made } where
  entry_made c' r x hx := by
    obtain hold | ⟨rfl, _, _, hmade⟩ := he.entry_cases' hx
    · have hpre := h.entry_made _ _ _ hold
      exact ⟨hpre.1, he.made_subset hpre.2⟩
    · exact ⟨hc, hmade⟩
  entry_inj c₁ r₁ x₁ c₂ r₂ x₂ h₁ h₂ heq := by
    obtain hold₁ | ⟨rfl, _, hnew₁, _⟩ := he.entry_cases' h₁
    · obtain hold₂ | ⟨rfl, _, hnew₂, _⟩ := he.entry_cases' h₂
      · exact h.entry_inj _ _ _ _ _ _ hold₁ hold₂ heq
      · exact absurd (heq ▸ (h.entry_made _ _ _ hold₁).2) hnew₂
    · obtain hold₂ | ⟨rfl, _, hnew₂, _⟩ := he.entry_cases' h₂
      · exact absurd (heq ▸ (h.entry_made _ _ _ hold₂).2) hnew₁
      · simp only [Function.update_self] at h₁ h₂
        exact ⟨rfl, he.inj _ _ _ _ h₁ h₂ heq⟩
  made_of_holds o t ht := he.made_subset (h.made_of_holds o t ht)
  ready_of_holds o t c' r b ht hx := by
    obtain hold | ⟨_, _, hnew, _⟩ := he.entry_cases' hx
    · exact h.ready_of_holds o t c' r b ht hold
    · exact absurd (h.made_of_holds o t ht) hnew
  home_known := h.home_known
  home_eq q rq c' r b hq hx := by
    obtain hold | ⟨_, _, hnew, _⟩ := he.entry_cases' hx
    · exact h.home_eq q rq c' r b hq hold
    · exact absurd (h.made_of_holds _ (.request q) ⟨rq, hq, rfl⟩) hnew
  connection_eq := h.connection_eq
  reply_eq c₁ r o c₂ r' b hr hx hactive := by
    obtain hold | ⟨_, _, hnew, _⟩ := he.entry_cases' hx
    · exact h.reply_eq c₁ r o c₂ r' b hr hold hactive
    · exact absurd (h.made_of_holds o (.reply c₁ r) hr) hnew
  unique := h.unique
  once := h.once
  owned c' r o hactive hx := by
    obtain hold | ⟨_, hready, _⟩ := he.entry_cases' hx
    · exact h.owned c' r o hactive hold
    · cases hready

end Turn

/-- A custodian other than `q` does not care what becomes of `q`. -/
theorem holds_of_ne [DecidableEq Q] {q : Q} {x : Option (Request C R O)}
    {entry : C → R → Option (O × Bool)} {o : O} {t : Custodian C R Q} (ht : v.Holds o t)
    (hne : t ≠ .request q) :
    Holds { v with entry := entry, request := Function.update v.request q x } o t := by
  cases t with
  | reply c r => exact ht
  | request q' =>
      obtain ⟨rq', hq', hobj⟩ := ht
      have hq : q' ≠ q := fun heq => hne (congrArg _ heq)
      exact ⟨rq', by simpa only [Function.update_of_ne hq] using hq', hobj⟩

/-- The new request is the only new custodian. -/
theorem holds_ready [DecidableEq Q] {q : Q} {rq : Request C R O}
    {entry : C → R → Option (O × Bool)} {o : O} {t : Custodian C R Q}
    (ht : Holds { v with entry := entry, request := Function.update v.request q (some rq) } o t) :
    t = .request q ∧ o = rq.object ∨ v.Holds o t ∧ t ≠ .request q := by
  cases t with
  | reply c r => exact .inr ⟨ht, nofun⟩
  | request q' =>
      obtain ⟨rq', hq, rfl⟩ := ht
      obtain ⟨rfl, rfl⟩ | ⟨hne, hq⟩ := Table.of_insert hq
      · exact .inl ⟨rfl, rfl⟩
      · exact .inr ⟨⟨rq', hq, rfl⟩, by simpa using hne⟩

section Ready

variable [DecidableEq C] [DecidableEq R]

/-- The object that becomes ready is the only one whose entry changes. -/
theorem Sound.entry_ready (h : v.Sound) {rq : Request C R O}
    (hold : v.entry rq.home rq.requestId = some (rq.object, false)) {c : C} {r : R} {x : O × Bool}
    (hx : Function.update v.entry rq.home (Function.update (v.entry rq.home) rq.requestId
      (some (rq.object, true))) c r = some x) :
    c = rq.home ∧ r = rq.requestId ∧ x = (rq.object, true) ∨
      v.entry c r = some x ∧ x.1 ≠ rq.object := by
  by_cases hcr : c = rq.home ∧ r = rq.requestId
  · obtain ⟨rfl, rfl⟩ := hcr
    rw [Function.update_self, Function.update_self] at hx
    exact .inl ⟨rfl, rfl, (Option.some.inj hx).symm⟩
  · have hpre : v.entry c r = some x := by
      by_cases hc : c = rq.home
      · subst hc
        rwa [Function.update_self, Function.update_of_ne fun hr => hcr ⟨rfl, hr⟩] at hx
      · rwa [Function.update_of_ne hc] at hx
    exact .inr ⟨hpre, fun heq => hcr (h.entry_inj _ _ _ _ _ _ hpre hold heq)⟩

variable [DecidableEq Q]

/-- A request becomes ready: its object gets its one custodian. -/
theorem Sound.ready (h : v.Sound) {q : Q} {rq : Request C R O} (hq : v.request q = none)
    (hold : v.entry rq.home rq.requestId = some (rq.object, false))
    (hconn : rq.home ∈ v.active → rq.connection = rq.home) :
    Sound { v with
      entry := Function.update v.entry rq.home
        (Function.update (v.entry rq.home) rq.requestId (some (rq.object, true)))
      request := Function.update v.request q (some rq) } := by
  have hmade := h.entry_made _ _ _ hold
  -- an entry that is not ready has no custodian
  have hfree : ∀ t, ¬ v.Holds rq.object t := fun t ht => by
    have hb := h.ready_of_holds _ t _ _ _ ht hold
    cases hb
  constructor
  case entry_made =>
    intro c r x hx
    obtain ⟨rfl, rfl, rfl⟩ | ⟨hpre, _⟩ := h.entry_ready hold hx
    · exact hmade
    · exact h.entry_made c r x hpre
  case entry_inj =>
    intro c₁ r₁ x₁ c₂ r₂ x₂ h₁ h₂ heq
    obtain ⟨rfl, rfl, rfl⟩ | ⟨hpre₁, hne₁⟩ := h.entry_ready hold h₁
    · obtain ⟨rfl, rfl, _⟩ | ⟨_, hne₂⟩ := h.entry_ready hold h₂
      · exact ⟨rfl, rfl⟩
      · exact absurd heq.symm hne₂
    · obtain ⟨rfl, rfl, rfl⟩ | ⟨hpre₂, _⟩ := h.entry_ready hold h₂
      · exact absurd heq hne₁
      · exact h.entry_inj _ _ _ _ _ _ hpre₁ hpre₂ heq
  case made_of_holds =>
    intro o t ht
    obtain ⟨_, rfl⟩ | ⟨hpre, _⟩ := holds_ready ht
    · exact hmade.2
    · exact h.made_of_holds o t hpre
  case ready_of_holds =>
    intro o t c r b ht hx
    obtain ⟨_, _, heq⟩ | ⟨hpre, hne⟩ := h.entry_ready hold hx
    · exact (Prod.mk.inj heq).2
    · obtain ⟨_, rfl⟩ | ⟨ht, _⟩ := holds_ready ht
      · exact absurd rfl hne
      · exact h.ready_of_holds o t c r b ht hpre
  case home_known =>
    intro q' rq' hq'
    obtain ⟨_, rfl⟩ | ⟨_, hq'⟩ := Table.of_insert hq'
    · exact hmade.1
    · exact h.home_known q' rq' hq'
  case home_eq =>
    intro q' rq' c r b hq' hx
    obtain ⟨_, rfl⟩ | ⟨_, hq'⟩ := Table.of_insert hq'
    · obtain ⟨rfl, rfl, _⟩ | ⟨_, hne⟩ := h.entry_ready hold hx
      · exact ⟨rfl, rfl⟩
      · exact absurd rfl hne
    · obtain ⟨_, _, hobj⟩ | ⟨hpre, _⟩ := h.entry_ready hold hx
      · exact absurd ⟨rq', hq', (Prod.mk.inj hobj).1⟩ (hfree (.request q'))
      · exact h.home_eq q' rq' c r b hq' hpre
  case connection_eq =>
    intro q' rq' hq' hactive
    obtain ⟨_, rfl⟩ | ⟨_, hq'⟩ := Table.of_insert hq'
    · exact hconn hactive
    · exact h.connection_eq q' rq' hq' hactive
  case reply_eq =>
    intro c₁ r₁ o c₂ r₂ b hr hx hactive
    obtain ⟨_, _, hobj⟩ | ⟨hpre, _⟩ := h.entry_ready hold hx
    · rw [(Prod.mk.inj hobj).1] at hr
      exact absurd hr (hfree (.reply c₁ r₁))
    · exact h.reply_eq c₁ r₁ o c₂ r₂ b hr hpre hactive
  case unique =>
    intro o t t' ht ht'
    obtain ⟨rfl, rfl⟩ | ⟨hpre, _⟩ := holds_ready ht
    · obtain ⟨rfl, _⟩ | ⟨hpre', _⟩ := holds_ready ht'
      · rfl
      · exact absurd hpre' (hfree t')
    · obtain ⟨rfl, rfl⟩ | ⟨hpre', _⟩ := holds_ready ht'
      · exact absurd hpre (hfree t)
      · exact h.unique o t t' hpre hpre'
  case once => exact h.once
  case owned =>
    intro c r o hactive hx
    obtain ⟨_, _, hobj⟩ | ⟨hpre, _⟩ := h.entry_ready hold hx
    · refine ⟨.request q, rq, ?_, (Prod.mk.inj hobj).1.symm⟩
      exact Function.update_self q (some rq) v.request
    · obtain ⟨t, ht⟩ := h.owned c r o hactive hpre
      refine ⟨t, holds_of_ne ht fun heq => ?_⟩
      subst heq
      obtain ⟨rq', hq', _⟩ := ht
      rw [hq] at hq'
      cases hq'

end Ready

section Commit

variable [DecidableEq C] [DecidableEq Q]

/-- The reply takes over from the request. -/
theorem holds_commit {q : Q} {rq : Request C R O} {o : O} {t : Custodian C R Q}
    (ht : Holds { v with
      request := Function.update v.request q none
      replies := Function.update v.replies rq.connection
        (v.replies rq.connection ++ [(rq.requestId, rq.object)]) } o t) :
    t = .reply rq.connection rq.requestId ∧ o = rq.object ∨ v.Holds o t ∧
      t ≠ .request q := by
  cases t with
  | request q' =>
      obtain ⟨rq', hq, rfl⟩ := ht
      obtain ⟨hne, hq⟩ := Table.of_erase hq
      exact .inr ⟨⟨rq', hq, rfl⟩, by simpa using hne⟩
  | reply c r =>
      simp only [Holds] at ht
      by_cases hc : c = rq.connection
      · subst hc
        rw [Function.update_self, List.mem_append, List.mem_singleton] at ht
        obtain hpre | heq := ht
        · exact .inr ⟨hpre, nofun⟩
        · cases heq
          exact .inl ⟨rfl, rfl⟩
      · rw [Function.update_of_ne hc] at ht
        exact .inr ⟨ht, nofun⟩

/-- A request is committed: the reply takes over from it. -/
theorem Sound.commit (h : v.Sound) {q : Q} {rq : Request C R O} (hq : v.request q = some rq) :
    Sound { v with
      request := Function.update v.request q none
      replies := Function.update v.replies rq.connection
        (v.replies rq.connection ++ [(rq.requestId, rq.object)]) } := by
  have hself : v.Holds rq.object (.request q) := ⟨rq, hq, rfl⟩
  have honly : ∀ t, v.Holds rq.object t → t = .request q := fun t ht =>
    h.unique _ _ _ ht hself
  constructor
  case entry_made => exact h.entry_made
  case entry_inj => exact h.entry_inj
  case made_of_holds =>
    intro o t ht
    obtain ⟨_, rfl⟩ | ⟨hpre, _⟩ := holds_commit ht
    · exact h.made_of_holds _ _ hself
    · exact h.made_of_holds o t hpre
  case ready_of_holds =>
    intro o t c r b ht hx
    obtain ⟨_, rfl⟩ | ⟨hpre, _⟩ := holds_commit ht
    · exact h.ready_of_holds _ _ c r b hself hx
    · exact h.ready_of_holds o t c r b hpre hx
  case home_known => exact fun q' rq' hq' => h.home_known q' rq' (Table.of_erase hq').2
  case home_eq =>
    exact fun q' rq' c r b hq' hx => h.home_eq q' rq' c r b (Table.of_erase hq').2 hx
  case connection_eq =>
    exact fun q' rq' hq' hactive => h.connection_eq q' rq' (Table.of_erase hq').2 hactive
  case reply_eq =>
    intro c r o c' r' b hr hx hactive
    obtain ⟨heq, rfl⟩ | ⟨hpre, _⟩ := holds_commit (t := .reply c r) hr
    · cases heq
      obtain ⟨rfl, rfl⟩ := h.home_eq q rq c' r' b hq hx
      exact ⟨h.connection_eq q rq hq hactive, rfl⟩
    · exact h.reply_eq c r o c' r' b hpre hx hactive
  case unique =>
    intro o t t' ht ht'
    obtain ⟨rfl, rfl⟩ | ⟨hpre, hne⟩ := holds_commit ht
    · obtain ⟨rfl, _⟩ | ⟨hpre', hne'⟩ := holds_commit ht'
      · rfl
      · exact absurd (honly t' hpre') hne'
    · obtain ⟨rfl, rfl⟩ | ⟨hpre', _⟩ := holds_commit ht'
      · exact absurd (honly t hpre) hne
      · exact h.unique o t t' hpre hpre'
  case once =>
    intro c
    dsimp only
    by_cases hc : c = rq.connection
    · subst hc
      rw [Function.update_self, List.map_append, List.nodup_append']
      refine ⟨h.once _, List.nodup_singleton _, List.disjoint_singleton.mpr ?_⟩
      intro hmem
      obtain ⟨⟨r, o⟩, hr, rfl⟩ := List.mem_map.mp hmem
      have heq := honly (.reply rq.connection r) hr
      cases heq
    · rw [Function.update_of_ne hc]
      exact h.once c
  case owned =>
    intro c r o hactive hx
    obtain ⟨t, ht⟩ := h.owned c r o hactive hx
    cases t with
    | request q' =>
        obtain ⟨rq', hq', rfl⟩ := ht
        by_cases hne : q' = q
        · subst hne
          rw [hq, Option.some.injEq] at hq'
          subst hq'
          refine ⟨.reply rq.connection rq.requestId, ?_⟩
          simp only [Holds, Function.update_self]
          exact List.mem_append_right _ (List.mem_singleton_self _)
        · refine ⟨.request q', rq', ?_, rfl⟩
          simpa only [Function.update_of_ne hne] using hq'
    | reply c' r' =>
        refine ⟨.reply c' r', ?_⟩
        simp only [Holds]
        by_cases hc : c' = rq.connection
        · subst hc
          rw [Function.update_self]
          exact List.mem_append_left _ ht
        · rwa [Function.update_of_ne hc]

end Commit

/-- A request lets go of an object that is not stored, or whose connection is
erased. -/
theorem Sound.drop [DecidableEq Q] (h : v.Sound) {q : Q} {rq : Request C R O}
    (hq : v.request q = some rq)
    (hgone : rq.connection ∈ v.active → rq.home ∈ v.active →
      ∀ b, v.entry rq.home rq.requestId ≠ some (rq.object, b)) :
    Sound { v with request := Function.update v.request q none } := by
  have hholds : ∀ o t, Holds { v with request := Function.update v.request q none } o t →
      v.Holds o t := by
    intro o t ht
    cases t with
    | request q' =>
        obtain ⟨rq', hq', rfl⟩ := ht
        exact ⟨rq', (Table.of_erase hq').2, rfl⟩
    | reply c r => exact ht
  constructor
  case entry_made => exact h.entry_made
  case entry_inj => exact h.entry_inj
  case made_of_holds => exact fun o t ht => h.made_of_holds o t (hholds o t ht)
  case ready_of_holds => exact fun o t c r b ht => h.ready_of_holds o t c r b (hholds o t ht)
  case home_known => exact fun q' rq' hq' => h.home_known q' rq' (Table.of_erase hq').2
  case home_eq => exact fun q' rq' c r b hq' => h.home_eq q' rq' c r b (Table.of_erase hq').2
  case connection_eq => exact fun q' rq' hq' => h.connection_eq q' rq' (Table.of_erase hq').2
  case reply_eq => exact h.reply_eq
  case unique => exact fun o t t' ht ht' => h.unique o t t' (hholds o t ht) (hholds o t' ht')
  case once => exact h.once
  case owned =>
    intro c r o hactive hx
    obtain ⟨t, ht⟩ := h.owned c r o hactive hx
    refine ⟨t, holds_of_ne ht fun heq => ?_⟩
    -- the dropped request was the custodian, so the entry is the one that is gone
    subst heq
    obtain ⟨rq', hq', rfl⟩ := ht
    rw [hq, Option.some.injEq] at hq'
    subst hq'
    obtain ⟨rfl, rfl⟩ := h.home_eq q rq c r true hq hx
    have hconn := h.connection_eq q rq hq hactive
    exact absurd hx (hgone (hconn ▸ hactive) hactive true)

/-- The first reply of a connection is through, and its object is not stored
behind it. -/
theorem Sound.settle [DecidableEq C] (h : v.Sound) {c : C} {r : R} {o : O} {rest : List (R × O)}
    {m : R → Option (O × Bool)} (hr : v.replies c = (r, o) :: rest)
    (hm : ∀ r' x, m r' = some x → v.entry c r' = some x ∧ (r' = r → x.1 ≠ o)) :
    Sound { v with
      entry := Function.update v.entry c m
      replies := Function.update v.replies c rest } := by
  have hentry : ∀ {c' r' x}, Function.update v.entry c m c' r' = some x →
      v.entry c' r' = some x ∧ (c' = c → r' = r → x.1 ≠ o) := by
    intro c' r' x hx
    by_cases hc : c' = c
    · subst hc
      rw [Function.update_self] at hx
      exact ⟨(hm r' x hx).1, fun _ => (hm r' x hx).2⟩
    · rw [Function.update_of_ne hc] at hx
      exact ⟨hx, fun heq => absurd heq hc⟩
  have hreply : ∀ {c' x}, x ∈ Function.update v.replies c rest c' → x ∈ v.replies c' := by
    intro c' x hx
    by_cases hc : c' = c
    · subst hc
      rw [Function.update_self] at hx
      rw [hr]
      exact List.mem_cons_of_mem _ hx
    · rwa [Function.update_of_ne hc] at hx
  have hholds : ∀ o' t, Holds { v with
      entry := Function.update v.entry c m
      replies := Function.update v.replies c rest } o' t → v.Holds o' t := by
    intro o' t ht
    cases t with
    | request q => exact ht
    | reply c' r' => exact hreply ht
  constructor
  case entry_made => exact fun c' r' x hx => h.entry_made c' r' x (hentry hx).1
  case entry_inj =>
    exact fun c₁ r₁ x₁ c₂ r₂ x₂ h₁ h₂ =>
      h.entry_inj _ _ _ _ _ _ (hentry h₁).1 (hentry h₂).1
  case made_of_holds => exact fun o' t ht => h.made_of_holds o' t (hholds o' t ht)
  case ready_of_holds =>
    exact fun o' t c' r' b ht hx => h.ready_of_holds o' t c' r' b (hholds o' t ht) (hentry hx).1
  case home_known => exact h.home_known
  case home_eq => exact fun q rq c' r' b hq hx => h.home_eq q rq c' r' b hq (hentry hx).1
  case connection_eq => exact h.connection_eq
  case reply_eq =>
    exact fun c₁ r₁ o' c₂ r₂ b hr hx =>
      h.reply_eq c₁ r₁ o' c₂ r₂ b (hreply hr) (hentry hx).1
  case unique => exact fun o' t t' ht ht' => h.unique o' t t' (hholds o' t ht) (hholds o' t' ht')
  case once =>
    intro c'
    dsimp only
    by_cases hc : c' = c
    · subst hc
      have honce := h.once c'
      rw [hr, List.map_cons, List.nodup_cons] at honce
      rw [Function.update_self]
      exact honce.2
    · rw [Function.update_of_ne hc]
      exact h.once c'
  case owned =>
    intro c' r' o' hactive hx
    obtain ⟨hstored, hne⟩ := hentry hx
    obtain ⟨t, ht⟩ := h.owned c' r' o' hactive hstored
    cases t with
    | request q => exact ⟨.request q, ht⟩
    | reply c₁ r₁ =>
        refine ⟨.reply c₁ r₁, ?_⟩
        simp only [Holds]
        by_cases hc : c₁ = c
        · subst hc
          have hmem : (r₁, o') ∈ v.replies c₁ := ht
          rw [hr, List.mem_cons] at hmem
          rw [Function.update_self]
          obtain heq | hrest := hmem
          · -- the reply that ran was the custodian, so its entry is not stored any more
            obtain ⟨rfl, rfl⟩ := Prod.mk.inj heq
            obtain ⟨rfl, rfl⟩ := h.reply_eq _ _ _ _ _ true ht hstored hactive
            exact absurd rfl (hne rfl rfl)
          · exact hrest
        · rwa [Function.update_of_ne hc]

/-- A new connection becomes active, with no objects of its own. -/
theorem Sound.accept (h : v.Sound) {c : C} (hc : c ∉ v.known) :
    Sound { v with active := insert c v.active, known := insert c v.known } := by
  have hstored : ∀ {c' r x}, v.entry c' r = some x → c' ∈ insert c v.active →
      c' ∈ v.active := by
    intro c' r x hx hactive
    obtain rfl | hactive := hactive
    · exact absurd (h.entry_made _ _ _ hx).1 hc
    · exact hactive
  constructor
  case entry_made =>
    intro c' r x hx
    have hpre := h.entry_made c' r x hx
    exact ⟨Set.mem_insert_of_mem c hpre.1, hpre.2⟩
  case entry_inj => exact h.entry_inj
  case made_of_holds => exact h.made_of_holds
  case ready_of_holds => exact h.ready_of_holds
  case home_known => exact fun q rq hq => Set.mem_insert_of_mem c (h.home_known q rq hq)
  case home_eq => exact h.home_eq
  case connection_eq =>
    intro q rq hq hactive
    obtain heq | hactive := hactive
    · exact absurd (heq ▸ h.home_known q rq hq) hc
    · exact h.connection_eq q rq hq hactive
  case reply_eq =>
    exact fun c₁ r₁ o c₂ r₂ b hr hx hactive =>
      h.reply_eq c₁ r₁ o c₂ r₂ b hr hx (hstored hx hactive)
  case unique => exact h.unique
  case once => exact h.once
  case owned => exact fun c' r o hactive hx => h.owned c' r o (hstored hx hactive) hx

/-- A connection that is erased is active no more. -/
theorem Sound.close (h : v.Sound) (c : C) : Sound { v with active := v.active \ {c} } := by
  constructor
  case entry_made => exact h.entry_made
  case entry_inj => exact h.entry_inj
  case made_of_holds => exact h.made_of_holds
  case ready_of_holds => exact h.ready_of_holds
  case home_known => exact h.home_known
  case home_eq => exact h.home_eq
  case connection_eq => exact fun q rq hq hactive => h.connection_eq q rq hq hactive.1
  case reply_eq =>
    exact fun c₁ r₁ o c₂ r₂ b hr hx hactive =>
      h.reply_eq c₁ r₁ o c₂ r₂ b hr hx hactive.1
  case unique => exact h.unique
  case once => exact h.once
  case owned => exact fun c' r o hactive hx => h.owned c' r o hactive.1 hx

/-- **Every step keeps the objects and their custodians sound.** -/
theorem Sound.step [DecidableEq C] [DecidableEq R] [DecidableEq Q] (h : v.Sound)
    (hstep : v.Step v') : v'.Sound := by
  cases hstep with
  | skip => exact h
  | turn hc he => exact h.turn hc he
  | ready hq hhome hold hconn =>
      subst hhome
      exact h.ready hq hold hconn
  | commit hq => exact h.commit hq
  | drop hq hgone => exact h.drop hq hgone
  | settle hr hm => exact h.settle hr hm
  | accept hc => exact h.accept hc
  | close => exact h.close _

/-! ## Objects that are gone -/

/-- The object was made and is stored nowhere. -/
def Spent (v : Custody C R O Q) (o : O) : Prop :=
  o ∈ v.made ∧ ∀ c r b, v.entry c r ≠ some (o, b)

/-- An object that was made before a step and is stored behind it was stored
before it, under the same id. -/
theorem Step.stored_before [DecidableEq C] [DecidableEq R] [DecidableEq Q] (hstep : v.Step v')
    {c : C} {r : R} {o : O} {b : Bool} (hx : v'.entry c r = some (o, b)) (hmade : o ∈ v.made) :
    ∃ b', v.entry c r = some (o, b') := by
  cases hstep with
  | skip => exact ⟨b, hx⟩
  | turn _ he =>
      obtain hold | ⟨_, _, hnew, _⟩ := he.entry_cases' hx
      · exact ⟨b, hold⟩
      · exact absurd hmade hnew
  | @ready c' q rq _ _ hold =>
      dsimp only at hx
      by_cases hc : c = c'
      · subst hc
        rw [Function.update_self] at hx
        obtain ⟨rfl, heq⟩ | ⟨_, hx⟩ := Table.of_insert hx
        · rw [Prod.mk.injEq] at heq
          rw [heq.1]
          exact ⟨false, hold⟩
        · exact ⟨b, hx⟩
      · rw [Function.update_of_ne hc] at hx
        exact ⟨b, hx⟩
  | commit => exact ⟨b, hx⟩
  | drop => exact ⟨b, hx⟩
  | @settle c' r' o' rest m _ hm =>
      dsimp only at hx
      by_cases hc : c = c'
      · subst hc
        rw [Function.update_self] at hx
        exact ⟨b, (hm r _ hx).1⟩
      · rw [Function.update_of_ne hc] at hx
        exact ⟨b, hx⟩
  | accept => exact ⟨b, hx⟩
  | close => exact ⟨b, hx⟩

/-- Objects are made, and never unmade. -/
theorem Step.made_subset [DecidableEq C] [DecidableEq R] [DecidableEq Q] (hstep : v.Step v') :
    v.made ⊆ v'.made := by
  cases hstep with
  | turn _ he => exact he.made_subset
  | _ => exact fun _ h => h

/-- A reply that is queued was queued before, or its connection is active. -/
theorem Step.replies_cases [DecidableEq C] [DecidableEq R] [DecidableEq Q] (hstep : v.Step v')
    {c : C} (hc : v'.replies c ≠ []) : v.replies c ≠ [] ∨ c ∈ v.active := by
  cases hstep with
  | @commit q rq _ hactive =>
      by_cases heq : c = rq.connection
      · subst heq
        exact .inr hactive
      · left
        simpa only [Function.update_of_ne heq] using hc
  | @settle c' r o rest m hr _ =>
      left
      by_cases heq : c = c'
      · subst heq
        simp [hr]
      · simpa only [Function.update_of_ne heq] using hc
  | _ => exact .inl hc

/-- What is gone does not come back. -/
theorem Spent.step [DecidableEq C] [DecidableEq R] [DecidableEq Q] {o : O} (h : v.Spent o)
    (hstep : v.Step v') : v'.Spent o := by
  refine ⟨hstep.made_subset h.1, fun c r b hx => ?_⟩
  obtain ⟨b', hold⟩ := hstep.stored_before hx h.1
  exact h.2 c r b' hold

end Custody

end Santiago
