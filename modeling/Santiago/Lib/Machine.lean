import Santiago.Lib.Effect

/-!
# Santiago.Lib.Machine

Systems that take one atomic step after another.  A `Machine` says which
labels may fire in a state and which `Act` each of them is; a `Run` is a
finite sequence of fired labels in any order the guards allow, so a theorem
about every run is a theorem about every interleaving.  A step that aborts
ends the process: no state follows it, and it is no step of a run.

`Run.inv` and `Run.inv_trace` are the induction rules, for runs whose steps
all meet a condition `C`, and `Run.forall_iff` for a `C` that is exact;
`Run.project` and `Run.mirror` are the rules for two runs beside each other;
`exec` replays a list of labels, `exec_of_run` and `exists_run_of_exec` go
between a replay and a run.
-/

open Effect

/-- A labelled transition system whose steps are `Act`s. -/
structure Machine (ε σ ℓ : Type) where
  enabled : σ → ℓ → Bool
  act : ℓ → Act ε σ Unit

/-- A step of a run: the state it was taken in and its label. -/
structure Fired (σ ℓ : Type) where
  pre : σ
  label : ℓ

namespace Machine

variable {ε σ ℓ : Type} (M : Machine ε σ ℓ)

/-! ## Runs -/

/-- The process is still there after the step. -/
def survives (s : σ) (l : ℓ) : Bool :=
  match (M.act l s).exit with
  | .abort _ => false
  | _ => true

variable {M} in
/-- Only an abort ends the process. -/
theorem survives_iff {s : σ} {l : ℓ} :
    M.survives s l = true ↔ ∀ what, (M.act l s).exit ≠ .abort what := by
  unfold survives
  split
  · next w hw => simp [hw]
  · next hne => simpa using hne

/-- The finite runs from `s₀`: the steps taken and the state reached. -/
inductive Run (s₀ : σ) : List (Fired σ ℓ) → σ → Prop
  | nil : Run s₀ [] s₀
  | step {tr : List (Fired σ ℓ)} {s : σ} {l : ℓ} : Run s₀ tr s → M.enabled s l = true →
      M.survives s l = true → Run s₀ (tr ++ [⟨s, l⟩]) (M.act l s).state

/-- What one step lets an observer see. -/
def observed (f : Fired σ ℓ) : List ε := (M.act f.label f.pre).events

/-- The state a step leaves behind. -/
def post (f : Fired σ ℓ) : σ := (M.act f.label f.pre).state

/-- What a run lets an observer see, in order. -/
def trace (tr : List (Fired σ ℓ)) : List ε := tr.flatMap M.observed

@[simp] theorem trace_nil : M.trace [] = [] := rfl

@[simp] theorem trace_append (xs ys : List (Fired σ ℓ)) :
    M.trace (xs ++ ys) = M.trace xs ++ M.trace ys := by
  simp [trace]

@[simp] theorem trace_singleton (f : Fired σ ℓ) : M.trace [f] = M.observed f := by
  simp [trace]

variable {M} {s₀ s : σ} {tr : List (Fired σ ℓ)}

/-! ## Induction over runs -/

/-- An invariant that every step under the condition `C` keeps holds after
every run whose steps all meet `C`. -/
theorem Run.inv (C : σ → ℓ → Prop) (I : σ → Prop) (h0 : I s₀)
    (hs : ∀ s l, I s → M.enabled s l = true → M.survives s l = true → C s l →
      I (M.act l s).state)
    (h : M.Run s₀ tr s) (hc : ∀ f ∈ tr, C f.pre f.label) : I s := by
  induction h with
  | nil => exact h0
  | @step tr s l _ he hv ih =>
      have hpre : I s := ih fun f hf => hc f (List.mem_append_left _ hf)
      exact hs s l hpre he hv (hc ⟨s, l⟩ (by simp))

/-- The same for a relation between what was observed so far and the state. -/
theorem Run.inv_trace (C : σ → ℓ → Prop) (J : List ε → σ → Prop) (h0 : J [] s₀)
    (hs : ∀ t s l, J t s → M.enabled s l = true → M.survives s l = true → C s l →
      J (t ++ (M.act l s).events) (M.act l s).state)
    (h : M.Run s₀ tr s) (hc : ∀ f ∈ tr, C f.pre f.label) : J (M.trace tr) s := by
  induction h with
  | nil => exact h0
  | @step tr s l _ he hv ih =>
      have hpre : J (M.trace tr) s := ih fun f hf => hc f (List.mem_append_left _ hf)
      rw [trace_append, trace_singleton]
      exact hs _ s l hpre he hv (hc ⟨s, l⟩ (by simp))

/-- Where a step keeps `I` exactly when it meets `C`, a run keeps it all along
exactly when all its steps meet `C`. -/
theorem Run.forall_iff (C : σ → ℓ → Prop) (I : σ → Prop) (h0 : I s₀)
    (hs : ∀ tr s l, M.Run s₀ tr s → I s → M.enabled s l = true → M.survives s l = true →
      (I (M.act l s).state ↔ C s l)) (h : M.Run s₀ tr s) :
    ((∀ f ∈ tr, I f.pre) ∧ I s) ↔ ∀ f ∈ tr, C f.pre f.label := by
  induction h with
  | nil => simp [h0]
  | @step tr s l hr he hv ih =>
      simp only [List.forall_mem_append, List.forall_mem_singleton]
      rw [← ih]
      constructor
      · rintro ⟨⟨hpre, hi⟩, hpost⟩
        exact ⟨⟨hpre, hi⟩, (hs tr s l hr hi he hv).mp hpost⟩
      · rintro ⟨⟨hpre, hi⟩, hc⟩
        exact ⟨⟨hpre, hi⟩, (hs tr s l hr hi he hv).mpr hc⟩

/-- Every step of a run was taken in a state that a shorter run reaches. -/
theorem Run.fired (h : M.Run s₀ tr s) {f : Fired σ ℓ} (hf : f ∈ tr) :
    ∃ tr₁ tr₂, tr = tr₁ ++ f :: tr₂ ∧ M.Run s₀ tr₁ f.pre ∧
      M.enabled f.pre f.label = true ∧ M.survives f.pre f.label = true := by
  induction h with
  | nil => simp at hf
  | @step tr s l hr he hv ih =>
      rw [List.mem_append, List.mem_singleton] at hf
      cases hf with
      | inl hf =>
          obtain ⟨tr₁, tr₂, rfl, hrest⟩ := ih hf
          exact ⟨tr₁, tr₂ ++ [⟨s, l⟩], by simp, hrest⟩
      | inr hf => subst hf; exact ⟨tr, [], rfl, hr, he, hv⟩

/-- The steps of a run and the attempt of one more, which may end the process:
each is attempted in a state that a run reaches. -/
theorem Run.attempted (h : M.Run s₀ tr s) {l : ℓ} (he : M.enabled s l = true) {f : Fired σ ℓ}
    (hf : f ∈ tr ++ [⟨s, l⟩]) :
    (∃ tr', M.Run s₀ tr' f.pre) ∧ M.enabled f.pre f.label = true := by
  rw [List.mem_append, List.mem_singleton] at hf
  cases hf with
  | inl hf =>
      obtain ⟨tr₁, _, _, hrun, hen, _⟩ := h.fired hf
      exact ⟨⟨tr₁, hrun⟩, hen⟩
  | inr hf =>
      subst hf
      exact ⟨⟨tr, h⟩, he⟩

/-- Two conditions that agree wherever a run gets agree on everything a run attempts. -/
theorem Run.forall_attempted_iff (h : M.Run s₀ tr s) {l : ℓ} (he : M.enabled s l = true)
    {P Q : σ → ℓ → Prop}
    (hpq : ∀ tr s l, M.Run s₀ tr s → M.enabled s l = true → (P s l ↔ Q s l)) :
    (∀ f ∈ tr ++ [⟨s, l⟩], P f.pre f.label) ↔
      ∀ f ∈ tr ++ [⟨s, l⟩], Q f.pre f.label := by
  refine forall₂_congr fun f hf => ?_
  obtain ⟨⟨tr', hrun⟩, hen⟩ := h.attempted he hf
  exact hpq tr' f.pre f.label hrun hen

/-- A run through the step `f` is a run up to it, the step, and a run behind it. -/
theorem Run.split {xs ys : List (Fired σ ℓ)} {f : Fired σ ℓ}
    (h : M.Run s₀ (xs ++ f :: ys) s) :
    M.Run s₀ xs f.pre ∧ M.enabled f.pre f.label = true ∧ M.survives f.pre f.label = true ∧
      M.Run (M.post f) ys s := by
  generalize htr : xs ++ f :: ys = tr at h
  induction h generalizing ys with
  | nil => simp at htr
  | @step tr s l hr he hv ih =>
      obtain rfl | ⟨ys', g, rfl⟩ := List.eq_nil_or_concat ys
      · obtain ⟨rfl, hf⟩ := List.append_inj' htr rfl
        obtain rfl := List.singleton_inj.mp hf
        exact ⟨hr, he, hv, .nil⟩
      · rw [List.concat_eq_append, ← List.cons_append, ← List.append_assoc] at htr
        obtain ⟨hinit, hg⟩ := List.append_inj' htr rfl
        obtain rfl := List.singleton_inj.mp hg
        obtain ⟨hpre, he', hv', hpost⟩ := ih hinit
        rw [List.concat_eq_append]
        exact ⟨hpre, he', hv', .step hpost he hv⟩

/-- What stands before an attempted step is a run to the state it is attempted in. -/
theorem Run.before_attempted (h : M.Run s₀ tr s) {l : ℓ} {xs ys : List (Fired σ ℓ)}
    {f : Fired σ ℓ} (hsplit : tr ++ [⟨s, l⟩] = xs ++ f :: ys) : M.Run s₀ xs f.pre := by
  obtain rfl | ⟨ys, g, rfl⟩ := List.eq_nil_or_concat ys
  · obtain ⟨rfl, hlast⟩ := List.append_inj' hsplit rfl
    obtain rfl := List.singleton_inj.mp hlast
    exact h
  · rw [List.concat_eq_append, ← List.cons_append, ← List.append_assoc] at hsplit
    obtain ⟨rfl, _⟩ := List.append_inj' hsplit rfl
    exact h.split.1

theorem mem_trace {tr : List (Fired σ ℓ)} {f : Fired σ ℓ} {x : ε} (hf : f ∈ tr)
    (hx : x ∈ M.observed f) : x ∈ M.trace tr :=
  List.mem_flatMap.mpr ⟨f, hf, hx⟩

/-! ## Two runs beside each other -/

/-- The steps whose labels `p` picks can be taken without the others, when the
others neither touch the relation `R` nor show anything: a second run takes
just them, sees the same and ends in a related state. -/
theorem Run.project {ω : Type} (p : ℓ → Bool) (C : σ → ℓ → Prop)
    (R : σ → σ → Prop) (see : Fired σ ℓ → List ω) {s₀' : σ} (h0 : R s₀ s₀')
    (hother : ∀ s s' l, R s s' → M.enabled s l = true → C s l → p l = false →
      R (M.act l s).state s' ∧ see ⟨s, l⟩ = [])
    (hsame : ∀ s s' l, R s s' → M.enabled s l = true → M.survives s l = true → C s l →
      p l = true → M.enabled s' l = true ∧ M.survives s' l = true ∧
        R (M.act l s).state (M.act l s').state ∧ see ⟨s', l⟩ = see ⟨s, l⟩)
    (h : M.Run s₀ tr s) (hc : ∀ f ∈ tr, C f.pre f.label) :
    ∃ tr' s', M.Run s₀' tr' s' ∧ tr'.map Fired.label = (tr.map Fired.label).filter p ∧
      tr'.flatMap see = tr.flatMap see ∧ R s s' := by
  induction h with
  | nil => exact ⟨[], s₀', .nil, rfl, rfl, h0⟩
  | @step tr s l _ he hv ih =>
      obtain ⟨tr', s', hrun, hlabels, hsee, hR⟩ :=
        ih fun f hf => hc f (List.mem_append_left _ hf)
      have hl : C s l := hc ⟨s, l⟩ (by simp)
      cases hp : p l with
      | false =>
          obtain ⟨hpost, hnil⟩ := hother s s' l hR he hl hp
          exact ⟨tr', s', hrun, by simp [hlabels, hp], by simp [hsee, hnil], hpost⟩
      | true =>
          obtain ⟨he', hv', hpost, heq⟩ := hsame s s' l hR he hv hl hp
          exact ⟨tr' ++ [⟨s', l⟩], _, .step hrun he' hv', by simp [hlabels, hp],
            by simp [hsee, heq], hpost⟩

/-- A list beside an extended one is itself extended. -/
theorem exists_of_forall₂_concat {α β : Type} {L : α → β → Prop} {as : List α} {a : α}
    {ls : List β} (h : List.Forall₂ L (as ++ [a]) ls) :
    ∃ bs b, ls = bs ++ [b] ∧ List.Forall₂ L as bs ∧ L a b := by
  induction as generalizing ls with
  | nil =>
      obtain ⟨b, bs, hab, hnil, rfl⟩ := List.forall₂_cons_left_iff.mp h
      cases hnil
      exact ⟨[], b, rfl, .nil, hab⟩
  | cons a' as ih =>
      obtain ⟨b, bs, hab, hrest, rfl⟩ := List.forall₂_cons_left_iff.mp h
      obtain ⟨bs', b', rfl, hbs, hb⟩ := ih hrest
      exact ⟨b :: bs', b', rfl, .cons hab hbs, hb⟩

/-- A second run can take a step beside each step of the first, when related
labels lead from related states to related states and show the same.  The
relation and the condition `C` may look back at the run so far. -/
theorem Run.mirror {ω : Type} (L : ℓ → ℓ → Prop)
    (C : List (Fired σ ℓ) → Fired σ ℓ → Prop)
    (R : List (Fired σ ℓ) → σ → σ → Prop) (see : Fired σ ℓ → List ω) {s₀' : σ}
    (h0 : R [] s₀ s₀')
    (hstep : ∀ tr s s' l l', M.Run s₀ tr s → R tr s s' → L l l' → M.enabled s l = true →
      M.survives s l = true → C tr ⟨s, l⟩ → M.enabled s' l' = true ∧
        M.survives s' l' = true ∧
        R (tr ++ [⟨s, l⟩]) (M.act l s).state (M.act l' s').state ∧
          see ⟨s', l'⟩ = see ⟨s, l⟩)
    (h : M.Run s₀ tr s) (hc : ∀ xs f ys, tr = xs ++ f :: ys → C xs f) {ls : List ℓ}
    (hls : List.Forall₂ L (tr.map Fired.label) ls) :
    ∃ tr' s', M.Run s₀' tr' s' ∧ tr'.map Fired.label = ls ∧
      tr'.flatMap see = tr.flatMap see ∧
      R tr s s' := by
  induction h generalizing ls with
  | nil =>
      cases hls
      exact ⟨[], s₀', .nil, rfl, rfl, h0⟩
  | @step tr s l hrun he hv ih =>
      rw [List.map_append] at hls
      obtain ⟨ls, l', rfl, hls, hl⟩ := exists_of_forall₂_concat hls
      have hinit : ∀ xs f ys, tr = xs ++ f :: ys → C xs f := by
        intro xs f ys htr
        exact hc xs f (ys ++ [⟨s, l⟩]) (by rw [htr, List.append_assoc, List.cons_append])
      obtain ⟨tr', s', hrun', hlabels, hsee, hR⟩ := ih hinit hls
      obtain ⟨he', hv', hpost, heq⟩ :=
        hstep tr s s' l l' hrun hR hl he hv (hc tr ⟨s, l⟩ [] rfl)
      exact ⟨tr' ++ [⟨s', l'⟩], _, .step hrun' he' hv', by simp [hlabels],
        by simp [hsee, heq],
        hpost⟩

/-! ## Replaying a list of labels -/

variable (M) in
/-- Fire the labels one after the other, on top of the steps `acc`. -/
def execFrom (acc : List (Fired σ ℓ)) : σ → List ℓ → Option (List (Fired σ ℓ) × σ)
  | s, [] => some (acc, s)
  | s, l :: ls =>
      if M.enabled s l && M.survives s l then
        execFrom (acc ++ [⟨s, l⟩]) (M.act l s).state ls
      else
        none

variable (M) in
/-- Fire the labels one after the other from `s`. -/
def exec (s : σ) (ls : List ℓ) : Option (List (Fired σ ℓ) × σ) := M.execFrom [] s ls

theorem run_of_execFrom {acc : List (Fired σ ℓ)} {s s' : σ} {ls : List ℓ}
    (hr : M.Run s₀ acc s) (he : M.execFrom acc s ls = some (tr, s')) : M.Run s₀ tr s' := by
  induction ls generalizing acc s with
  | nil =>
      simp only [execFrom, Option.some.injEq, Prod.mk.injEq] at he
      obtain ⟨rfl, rfl⟩ := he
      exact hr
  | cons l ls ih =>
      rw [execFrom] at he
      split at he
      · next hg =>
          rw [Bool.and_eq_true] at hg
          exact ih (.step hr hg.1 hg.2) he
      · contradiction

/-- A replay takes the steps it was given. -/
theorem map_label_of_execFrom {acc : List (Fired σ ℓ)} {s s' : σ} {ls : List ℓ}
    (he : M.execFrom acc s ls = some (tr, s')) :
    tr.map Fired.label = acc.map Fired.label ++ ls := by
  induction ls generalizing acc s with
  | nil =>
      simp only [execFrom, Option.some.injEq, Prod.mk.injEq] at he
      rw [he.1, List.append_nil]
  | cons l ls ih =>
      rw [execFrom] at he
      split at he
      · rw [ih he]
        simp
      · contradiction

theorem execFrom_append (acc : List (Fired σ ℓ)) (s : σ) (ls ls' : List ℓ) :
    M.execFrom acc s (ls ++ ls') =
      (M.execFrom acc s ls).bind fun r => M.execFrom r.1 r.2 ls' := by
  induction ls generalizing acc s with
  | nil => rfl
  | cons l ls ih =>
      rw [List.cons_append, execFrom, execFrom]
      split
      · exact ih _ _
      · rfl

/-- A run is the replay of its labels, so they determine it. -/
theorem exec_of_run (h : M.Run s₀ tr s) : M.exec s₀ (tr.map Fired.label) = some (tr, s) := by
  induction h with
  | nil => rfl
  | @step tr s l _ he hv ih =>
      rw [exec] at ih
      rw [exec, List.map_append, execFrom_append, ih]
      simp [execFrom, he, hv]

/-- A list of labels whose replay ends as `p` asks is a run that does. -/
theorem exists_run_along (M : Machine ε σ ℓ) (s₀ : σ) (ls : List ℓ)
    (p : List (Fired σ ℓ) → σ → Bool)
    (h : (M.exec s₀ ls).any (fun r => p r.1 r.2) = true) :
    ∃ tr s, M.Run s₀ tr s ∧ tr.map Fired.label = ls ∧ p tr s = true := by
  cases he : M.exec s₀ ls with
  | none => rw [he] at h; contradiction
  | some r =>
      obtain ⟨tr, s⟩ := r
      rw [he] at h
      exact ⟨tr, s, run_of_execFrom .nil he, map_label_of_execFrom he, h⟩

theorem exists_run_of_exec (M : Machine ε σ ℓ) (s₀ : σ) (ls : List ℓ)
    (p : List (Fired σ ℓ) → σ → Bool)
    (h : (M.exec s₀ ls).any (fun r => p r.1 r.2) = true) :
    ∃ tr s, M.Run s₀ tr s ∧ p tr s = true := by
  obtain ⟨tr, s, hrun, _, hp⟩ := exists_run_along M s₀ ls p h
  exact ⟨tr, s, hrun, hp⟩

end Machine
