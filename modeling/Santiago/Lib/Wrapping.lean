import Mathlib

/-!
# Santiago.Lib.Wrapping

Names handed out by a counter that wraps at `N`.  The `c`-th taker gets the
name `c % N` and has it until it is freed; the counter never looks whether a
name is still in use.  `freedInTime_iff` says when it need not: every name
must be free again before the counter has gone once around.
-/

namespace Wrapping

/-- A use of the counter. -/
inductive Use where
  | take
  | free (name : Nat)
deriving DecidableEq

/-- How many names were taken. -/
def takes (us : List Use) : Nat := us.count .take

/-- The `c`-th taker has the name. -/
def Has (N : Nat) (us : List Use) (name c : Nat) : Prop :=
  ∃ xs ys, us = xs ++ .take :: ys ∧ takes xs = c ∧ c % N = name ∧ .free name ∉ ys

/-- Every name is freed before `N` more are taken. -/
def FreedInTime (N : Nat) (us : List Use) : Prop :=
  ∀ xs ys zs, us = xs ++ .take :: (ys ++ .take :: zs) → takes ys + 1 = N →
    .free (takes xs % N) ∈ ys

variable {N name c : Nat} {us vs : List Use}

@[simp] theorem takes_append (us vs : List Use) : takes (us ++ vs) = takes us + takes vs :=
  List.count_append

@[simp] theorem takes_cons_take (us : List Use) : takes (.take :: us) = takes us + 1 := by
  simp [takes]

@[simp] theorem takes_cons_free (name : Nat) (us : List Use) :
    takes (.free name :: us) = takes us := by
  simp [takes]

@[simp] theorem takes_nil : takes [] = 0 := rfl

theorem not_has_nil : ¬ Has N [] name c := by
  rintro ⟨xs, ys, hus, _⟩
  simp at hus

/-- A taker gets the next name, and the others keep theirs. -/
theorem has_take : Has N (us ++ [.take]) name c ↔
    Has N us name c ∨ c = takes us ∧ name = c % N := by
  constructor
  · rintro ⟨xs, ys, hus, hxs, hname, hfree⟩
    obtain rfl | ⟨ys, u, rfl⟩ := List.eq_nil_or_concat ys
    · obtain ⟨rfl, _⟩ := List.append_inj' hus rfl
      exact .inr ⟨hxs.symm, hname.symm⟩
    · rw [List.concat_eq_append, ← List.cons_append, ← List.append_assoc] at hus
      obtain ⟨hinit, _⟩ := List.append_inj' hus rfl
      exact .inl ⟨xs, ys, hinit, hxs, hname, fun h => hfree (by simp [h])⟩
  · rintro (⟨xs, ys, rfl, hxs, hname, hfree⟩ | ⟨rfl, rfl⟩)
    · exact ⟨xs, ys ++ [.take], by simp, hxs, hname, by simpa using hfree⟩
    · exact ⟨us, [], rfl, rfl, rfl, by simp⟩

/-- A freed name is nobody's. -/
theorem has_free {freed : Nat} : Has N (us ++ [.free freed]) name c ↔
    Has N us name c ∧ name ≠ freed := by
  constructor
  · rintro ⟨xs, ys, hus, hxs, hname, hfree⟩
    obtain rfl | ⟨ys, u, rfl⟩ := List.eq_nil_or_concat ys
    · obtain ⟨_, hlast⟩ := List.append_inj' hus rfl
      cases hlast
    · rw [List.concat_eq_append, ← List.cons_append, ← List.append_assoc] at hus
      obtain ⟨hinit, hlast⟩ := List.append_inj' hus rfl
      obtain rfl := List.singleton_inj.mp hlast
      rw [List.concat_eq_append, List.mem_append, List.mem_singleton, not_or] at hfree
      exact ⟨⟨xs, ys, hinit, hxs, hname, hfree.1⟩, fun heq => hfree.2 (by rw [heq])⟩
  · rintro ⟨⟨xs, ys, rfl, hxs, hname, hfree⟩, hne⟩
    refine ⟨xs, ys ++ [.free freed], by simp, hxs, hname, ?_⟩
    simp [hfree, hne]

/-- Among enough uses there is a taker with `n` takers before it. -/
theorem exists_take {n : Nat} (h : n < takes us) :
    ∃ xs ys, us = xs ++ .take :: ys ∧ takes xs = n := by
  induction us generalizing n with
  | nil => simp at h
  | cons u us ih =>
      cases u with
      | free name =>
          rw [takes_cons_free] at h
          obtain ⟨xs, ys, rfl, hxs⟩ := ih h
          exact ⟨.free name :: xs, ys, rfl, by simp [hxs]⟩
      | take =>
          rw [takes_cons_take] at h
          cases n with
          | zero => exact ⟨[], us, rfl, rfl⟩
          | succ n =>
              obtain ⟨xs, ys, rfl, hxs⟩ := ih (Nat.lt_of_succ_lt_succ h)
              exact ⟨.take :: xs, ys, rfl, by simp [hxs]⟩

/-- Two takers of one name are a multiple of `N` apart. -/
theorem exists_mul_of_mod_eq {a b : Nat} (h : (a + 1 + b) % N = a % N) :
    ∃ k, b + 1 = N * k := by
  have hdvd : N ∣ a + 1 + b - a := (Nat.modEq_iff_dvd' (by omega)).mp h.symm
  obtain ⟨k, hk⟩ := hdvd
  exact ⟨k, by omega⟩

/-- The counter hands out no name that is in use, exactly when every name is
freed in time. -/
theorem freedInTime_iff (hN : 0 < N) : FreedInTime N us ↔
    ∀ vs ws, us = vs ++ .take :: ws → ∀ c, ¬ Has N vs (takes vs % N) c := by
  constructor
  · rintro h vs ws rfl c ⟨xs, ys, rfl, rfl, hname, hfree⟩
    have hmod : (takes xs + 1 + takes ys) % N = takes xs % N := by
      have htakes : takes (xs ++ .take :: ys) = takes xs + 1 + takes ys := by
        simp
        omega
      rw [hname, htakes]
    obtain ⟨k, hk⟩ := exists_mul_of_mod_eq hmod
    rw [← hname] at hfree
    -- the counter has gone around `k` times; the first time already found the name taken
    cases k with
    | zero => omega
    | succ k =>
        cases k with
        | zero => exact hfree (h xs ys ws (by simp) (by omega))
        | succ k =>
            have hlt : N - 1 < takes ys := by
              have hmul : N * (k + 1 + 1) = N * k + N + N := by ring
              omega
            obtain ⟨ys₁, ys₂, rfl, hys₁⟩ := exists_take hlt
            have hmem := h xs ys₁ (ys₂ ++ .take :: ws) (by simp) (by omega)
            exact hfree (List.mem_append_left _ hmem)
  · rintro h xs ys zs rfl hys
    by_contra hfree
    refine h (xs ++ .take :: ys) zs (by simp) (takes xs) ⟨xs, ys, rfl, rfl, ?_, ?_⟩
    · have htakes : takes (xs ++ .take :: ys) = takes xs + N := by
        simp
        omega
      rw [htakes, Nat.add_mod_right]
    · have htakes : takes (xs ++ .take :: ys) = takes xs + N := by
        simp
        omega
      rwa [htakes, Nat.add_mod_right]

end Wrapping
