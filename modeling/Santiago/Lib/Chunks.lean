import Mathlib

/-!
# Santiago.Lib.Chunks

A stream that comes in chunks and ends with an empty one.  What comes behind
the empty chunk is not part of it.
-/

namespace Chunks

variable {α : Type} {chunks more : List (List α)} {xs : List α}

/-- The empty chunk has come. -/
def Closed (chunks : List (List α)) : Prop := [] ∈ chunks

/-- What the chunks before the empty one hold. -/
def payload (chunks : List (List α)) : List α := (chunks.takeWhile fun xs => !xs.isEmpty).flatten

@[simp] theorem not_closed_nil : ¬ Closed ([] : List (List α)) := List.not_mem_nil

@[simp] theorem payload_nil : payload ([] : List (List α)) = [] := rfl

theorem Closed.append (h : Closed chunks) (more : List (List α)) : Closed (chunks ++ more) :=
  List.mem_append_left _ h

theorem payload_cons (hx : xs ≠ []) : payload (xs :: chunks) = xs ++ payload chunks := by
  have hin : (!xs.isEmpty) = true := by simpa using hx
  rw [payload, List.takeWhile_cons, if_pos hin, List.flatten_cons]
  rfl

/-- Nothing is added to a closed stream. -/
theorem Closed.payload_append (h : Closed chunks) (more : List (List α)) :
    payload (chunks ++ more) = payload chunks := by
  obtain ⟨before, after, rfl⟩ := List.append_of_mem h
  simp only [payload, List.append_assoc, List.cons_append]
  induction before with
  | nil => rfl
  | cons x before ih =>
      simp only [List.cons_append, List.takeWhile_cons]
      cases x with
      | nil => rfl
      | cons a x => simpa using ih (by simp [Closed])

/-- A stream that is open is all of its chunks. -/
theorem payload_of_open (h : ¬ Closed chunks) : payload chunks = chunks.flatten := by
  have hall : ∀ x ∈ chunks, (!x.isEmpty) = true := fun x hx => by
    cases x with
    | nil => exact absurd hx h
    | cons => rfl
  rw [payload, List.takeWhile_eq_self_iff.mpr hall]

/-- A chunk that is not empty is added to an open stream. -/
theorem payload_concat (h : ¬ Closed chunks) (hx : xs ≠ []) :
    payload (chunks ++ [xs]) = payload chunks ++ xs ∧ ¬ Closed (chunks ++ [xs]) := by
  have hopen : ¬ Closed (chunks ++ [xs]) := by
    simp only [Closed, List.mem_append, List.mem_singleton, not_or]
    exact ⟨h, hx.symm⟩
  exact ⟨by rw [payload_of_open hopen, payload_of_open h, List.flatten_append]; simp, hopen⟩

/-- The empty chunk closes an open stream and adds nothing. -/
theorem payload_close (h : ¬ Closed chunks) :
    payload (chunks ++ [[]]) = payload chunks ∧ Closed (chunks ++ [[]]) := by
  refine ⟨?_, by simp [Closed]⟩
  rw [payload_of_open h, payload, List.takeWhile_append_of_pos]
  · simp
  · intro x hx
    cases x with
    | nil => exact absurd hx h
    | cons => rfl

end Chunks
