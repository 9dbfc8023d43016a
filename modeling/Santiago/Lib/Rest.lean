import Santiago.Lib.Component

/-!
# Santiago.Lib.Rest

Machines that come to rest.  Some steps of a machine are taken for somebody
outside it, the others are its own.  Where each of its own steps lowers a
measure, it takes no more of them than the measure says, in whatever order,
and so it comes to where it takes none.

`Tally` is the measure of a table: the sum of what its entries count.
-/

open Effect

namespace Machine

variable {ε σ ℓ : Type} {M : Machine ε σ ℓ} {own : ℓ → Bool}
    {I : σ → Prop} {μ : σ → Nat}
  {s₀ s : σ} {tr : List (Fired σ ℓ)}

/-- None of its own steps can be taken, or only one that ends the process. -/
def AtRest (M : Machine ε σ ℓ) (own : ℓ → Bool) (s : σ) : Prop :=
  ∀ l, own l = true → M.enabled s l = true → M.survives s l = false

/-- Its own steps keep the invariant and lower the measure. -/
def Lowers (M : Machine ε σ ℓ) (own : ℓ → Bool) (I : σ → Prop)
    (μ : σ → Nat) : Prop :=
  ∀ s l, I s → M.enabled s l = true → M.survives s l = true → own l = true →
    I (M.act l s).state ∧ μ (M.act l s).state < μ s

/-- The measure bounds the runs of own steps. -/
theorem Lowers.length_le (hl : M.Lowers own I μ) (hi : I s₀) (h : M.Run s₀ tr s)
    (hown : ∀ f ∈ tr, own f.label = true) : tr.length + μ s ≤ μ s₀ := by
  have hboth : I s ∧ tr.length + μ s ≤ μ s₀ := by
    induction h with
    | nil => exact ⟨hi, by simp⟩
    | @step tr s l _ he hv ih =>
        obtain ⟨hi, hle⟩ := ih fun f hf => hown f (List.mem_append_left _ hf)
        obtain ⟨hi', hlt⟩ := hl s l hi he hv (hown ⟨s, l⟩ (by simp))
        rw [List.length_append, List.length_singleton]
        exact ⟨hi', by omega⟩
  exact hboth.2

/-- Own steps lead to where there are none left. -/
theorem Lowers.exists_run_atRest (hl : M.Lowers own I μ) (hi : I s₀) :
    ∃ tr s, M.Run s₀ tr s ∧ (∀ f ∈ tr, own f.label = true) ∧ M.AtRest own s := by
  induction hn : μ s₀ using Nat.strong_induction_on generalizing s₀ with
  | _ n ih =>
      by_cases hrest : M.AtRest own s₀
      · exact ⟨[], s₀, .nil, by simp, hrest⟩
      · simp only [AtRest, not_forall, Bool.not_eq_false] at hrest
        obtain ⟨l, hown, he, hv⟩ := hrest
        obtain ⟨hi', hlt⟩ := hl s₀ l hi he hv hown
        obtain ⟨tr, s, hrun, hall, hrest⟩ := ih _ (hn ▸ hlt) hi' rfl
        refine ⟨⟨s₀, l⟩ :: tr, s, (Run.single he hv).append hrun, ?_, hrest⟩
        rw [List.forall_mem_cons]
        exact ⟨hown, hall⟩

end Machine

namespace Tally

variable {α : Type} {w : α → Nat} {n k : Nat} {f : Nat → Option α} {a a' : α}

/-- The sum of what the entries below `n` count. -/
def tally (w : α → Nat) (n : Nat) (f : Nat → Option α) : Nat :=
  ∑ i ∈ Finset.range n, (f i).elim 0 w

/-- An entry is exchanged. -/
theorem tally_update (hk : f k = some a) (hlt : k < n) :
    tally w n (Function.update f k (some a')) + w a = tally w n f + w a' := by
  have hmem : k ∈ Finset.range n := Finset.mem_range.mpr hlt
  rw [tally, tally, ← Finset.sum_erase_add _ _ hmem, ← Finset.sum_erase_add _ _ hmem,
    Function.update_self, hk, Option.elim_some, Option.elim_some]
  have hsame : ∑ i ∈ (Finset.range n).erase k, (Function.update f k (some a') i).elim 0 w =
      ∑ i ∈ (Finset.range n).erase k, (f i).elim 0 w :=
    Finset.sum_congr rfl fun i hi => by rw [Function.update_of_ne (Finset.ne_of_mem_erase hi)]
  rw [hsame]
  omega

/-- An entry is added behind the others. -/
theorem tally_insert : tally w (n + 1) (Function.update f n (some a)) = tally w n f + w a := by
  rw [tally, Finset.sum_range_succ, Function.update_self, Option.elim_some]
  have hsame : ∑ i ∈ Finset.range n, (Function.update f n (some a) i).elim 0 w = tally w n f :=
    Finset.sum_congr rfl fun i hi => by
      rw [Function.update_of_ne (Nat.ne_of_lt (Finset.mem_range.mp hi))]
  rw [hsame]

end Tally
