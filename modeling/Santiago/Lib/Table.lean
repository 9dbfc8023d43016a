import Mathlib

/-!
# Santiago.Lib.Table

Partial maps as functions into `Option`, changed one key at a time by
`Function.update`: where an entry of the changed map comes from; two lookups
beside each other; and lists of pairs without a key twice.
-/

namespace Table

variable {κ α : Type} [DecidableEq κ] {f : κ → Option α} {k k' : κ} {a a' : α}

theorem of_insert (h : Function.update f k (some a) k' = some a') :
    k' = k ∧ a' = a ∨ k' ≠ k ∧ f k' = some a' := by
  by_cases hk : k' = k
  · subst hk
    rw [Function.update_self, Option.some.injEq] at h
    exact .inl ⟨rfl, h.symm⟩
  · rw [Function.update_of_ne hk] at h
    exact .inr ⟨hk, h⟩

theorem of_erase (h : Function.update f k none k' = some a') : k' ≠ k ∧ f k' = some a' := by
  by_cases hk : k' = k
  · subst hk
    rw [Function.update_self] at h
    cases h
  · rw [Function.update_of_ne hk] at h
    exact ⟨hk, h⟩

/-- Related lookups find nothing, or related entries. -/
theorem rel_cases {β : Type} {R : α → β → Prop} {o : Option α} {o' : Option β}
    (h : Option.Rel R o o') :
    o = none ∧ o' = none ∨ ∃ a b, o = some a ∧ o' = some b ∧ R a b := by
  cases h with
  | none => exact .inl ⟨rfl, rfl⟩
  | some hab => exact .inr ⟨_, _, rfl, rfl, hab⟩

/-- In a list without a key twice every pair is found. -/
theorem lookup_eq_some_iff_mem {β : Type} [BEq β] [LawfulBEq β] {ps : List (β × α)} {b : β}
    (h : (ps.map Prod.fst).Nodup) : ps.lookup b = some a ↔ (b, a) ∈ ps := by
  induction ps with
  | nil => simp
  | cons p ps ih =>
      obtain ⟨b', a'⟩ := p
      rw [List.map_cons, List.nodup_cons] at h
      rw [List.lookup_cons, List.mem_cons]
      by_cases hb : b = b'
      · subst hb
        have hnot : (b, a) ∉ ps := fun hmem => h.1 (List.mem_map.mpr ⟨_, hmem, rfl⟩)
        simp [hnot, eq_comm]
      · have hbeq : (b == b') = false := by simpa using hb
        rw [hbeq]
        simp [hb, ih h.2]

end Table
