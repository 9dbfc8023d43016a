import Santiago.Lib.Machine

/-!
# Santiago.Lib.Component

A machine inside a machine.  The states of `M` hold a state of `N` at a place
that is empty at first; a step of `M` either leaves that place alone, or fills
it with a state that `N` may start in, or makes `N` take some steps of its own.
`Run.component` reads the run of `N` off a run of `M`, so everything that is
proved of `N` alone holds of it inside `M`, however its steps interleave with
the rest.
-/

open Effect

namespace Machine

variable {ε σ ℓ ω τ κ δ : Type} {M : Machine ε σ ℓ} {N : Machine ω τ κ}

/-- A run that goes on where another one ended. -/
theorem Run.append {t₀ t t' : τ} {tr tr' : List (Fired τ κ)} (h : N.Run t₀ tr t)
    (h' : N.Run t tr' t') : N.Run t₀ (tr ++ tr') t' := by
  induction h' with
  | nil =>
      rw [List.append_nil]
      exact h
  | step _ he hv ih =>
      rw [← List.append_assoc]
      exact .step ih he hv

/-- One step as a run. -/
theorem Run.single {t : τ} {l : κ} (he : N.enabled t l = true) (hv : N.survives t l = true) :
    N.Run t [⟨t, l⟩] (N.act l t).state :=
  .step .nil he hv

/-- What the part of a state says after a run of which `see` was observed of
the part and `done` were the steps of its own: it is not there yet, or it is
where a run of `N` from a starting state has taken it. -/
def Behaves (N : Machine ω τ κ) (start : τ → Prop) (own : κ → Option δ) (part : Option τ)
    (see : List ω) (done : List δ) : Prop :=
  match part with
  | none => see = [] ∧ done = []
  | some t => ∃ t₀ tr, start t₀ ∧ N.Run t₀ tr t ∧ N.trace tr = see ∧
      tr.filterMap (fun f => own f.label) = done

section

variable {start : τ → Prop} {own : κ → Option δ} {see : List ω} {done : List δ}

theorem Behaves.started {t : τ} (h : N.Behaves start own none see done) (ht : start t) :
    N.Behaves start own (some t) see done := by
  obtain ⟨rfl, rfl⟩ := h
  exact ⟨t, [], ht, .nil, rfl, rfl⟩

/-- The part takes some steps. -/
theorem Behaves.run {t t' : τ} {tr : List (Fired τ κ)}
    (h : N.Behaves start own (some t) see done)
    (hrun : N.Run t tr t') : N.Behaves start own (some t') (see ++ N.trace tr)
      (done ++ tr.filterMap fun f => own f.label) := by
  obtain ⟨t₀, tr₀, hstart, hrun₀, rfl, rfl⟩ := h
  refine ⟨t₀, tr₀ ++ tr, hstart, hrun₀.append hrun, trace_append .., ?_⟩
  rw [List.filterMap_append]

end

/-- **A part of a run is a run**: what is observed of the part, and the steps
of its own that it takes, are those of a run of `N`. -/
theorem Run.component {s₀ s : σ} {tr : List (Fired σ ℓ)} (part : σ → Option τ)
    (start : τ → Prop)
    (own : κ → Option δ) (see : Fired σ ℓ → List ω) (does : Fired σ ℓ → List δ)
    (h0 : part s₀ = none)
    (hstep : ∀ tr s l before done, M.Run s₀ tr s → M.enabled s l = true →
      M.survives s l = true →
      N.Behaves start own (part s) before done →
      N.Behaves start own (part (M.act l s).state) (before ++ see ⟨s, l⟩)
        (done ++ does ⟨s, l⟩))
    (h : M.Run s₀ tr s) :
    N.Behaves start own (part s) (tr.flatMap see) (tr.flatMap does) := by
  induction h with
  | nil =>
      rw [h0]
      exact ⟨rfl, rfl⟩
  | @step tr s l hrun he hv ih =>
      rw [List.flatMap_append, List.flatMap_append, List.flatMap_singleton, List.flatMap_singleton]
      exact hstep tr s l _ _ hrun he hv ih

end Machine
