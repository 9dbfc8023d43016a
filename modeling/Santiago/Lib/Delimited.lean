import Mathlib

/-!
# Santiago.Lib.Delimited

Self-delimiting encodings: strings that tell where they end.  `F a xs` says
that `xs` encodes `a`; a value may have more than one encoding.

Encodings that stand one behind the other can be taken apart in one way only
(`Many.unique`), and every string splits in exactly one way into encodings
and a rest that begins with none (`exists_splits`, `Splits.unique`).
-/

namespace Delimited

variable {α γ : Type}

/-- No encoding is empty, and none is the beginning of another one. -/
structure Delimits (F : α → List γ → Prop) : Prop where
  ne_nil : ∀ a xs, F a xs → xs ≠ []
  unique : ∀ a b xs ys rs ss, F a xs → F b ys → xs ++ rs = ys ++ ss → a = b ∧ xs = ys

/-- The encodings of a list, one behind the other. -/
inductive Many (F : α → List γ → Prop) : List α → List γ → Prop
  | nil : Many F [] []
  | cons {a : α} {as : List α} {xs ys : List γ} : F a xs → Many F as ys →
      Many F (a :: as) (xs ++ ys)

/-- The string begins with an encoding. -/
def Starts (F : α → List γ → Prop) (zs : List γ) : Prop :=
  ∃ a xs rs, F a xs ∧ zs = xs ++ rs

/-- The string is the encodings of `as` and a rest that begins with no other. -/
structure Splits (F : α → List γ → Prop) (zs : List γ) (as : List α)
    (rest : List γ) : Prop where
  eq_append : ∃ front, Many F as front ∧ zs = front ++ rest
  not_starts : ¬ Starts F rest

variable {F : α → List γ → Prop}

theorem Many.eq_nil {xs : List γ} (h : Many F [] xs) : xs = [] := by
  cases h
  rfl

theorem Delimits.not_starts_nil (hF : Delimits F) : ¬ Starts F [] := by
  rintro ⟨a, xs, rs, ha, hnil⟩
  exact hF.ne_nil a xs ha (List.append_eq_nil_iff.mp hnil.symm).1

theorem Many.eq_nil_of_nil (hF : Delimits F) {as : List α} (h : Many F as []) : as = [] := by
  generalize hzs : ([] : List γ) = zs at h
  cases h with
  | nil => rfl
  | cons ha _ => exact absurd (List.append_eq_nil_iff.mp hzs.symm).1 (hF.ne_nil _ _ ha)

/-- Encodings at the front of a string are the first ones of any sequence of
encodings that cannot go on.  Induction on the shorter sequence: the two
strings agree on the next encoding, which is the same in both. -/
theorem Many.exists_append (hF : Delimits F) {as bs : List α} {xs ys rs ss : List γ}
    (hb : Many F bs ys) (ha : Many F as xs) (heq : xs ++ rs = ys ++ ss) (hstop : ¬ Starts F rs) :
    ∃ cs mid, as = bs ++ cs ∧ xs = ys ++ mid ∧ Many F cs mid := by
  induction hb generalizing as xs with
  | nil => exact ⟨as, xs, rfl, rfl, ha⟩
  | @cons b bs y ys hb _ ih =>
      rw [List.append_assoc] at heq
      cases ha with
      | nil => exact absurd ⟨b, y, ys ++ ss, hb, heq⟩ hstop
      | @cons a as x xs ha has =>
          rw [List.append_assoc] at heq
          obtain ⟨rfl, rfl⟩ := hF.unique _ _ _ _ _ _ ha hb heq
          obtain ⟨cs, mid, rfl, rfl, hmid⟩ := ih has (List.append_cancel_left heq)
          exact ⟨cs, mid, rfl, (List.append_assoc ..).symm, hmid⟩

/-- A string of encodings is taken apart in one way only. -/
theorem Many.unique (hF : Delimits F) {as bs : List α} {zs : List γ} (ha : Many F as zs)
    (hb : Many F bs zs) : as = bs := by
  obtain ⟨cs, mid, rfl, hmid, hcs⟩ :=
    @Many.exists_append _ _ _ hF _ _ _ _ [] [] hb ha rfl hF.not_starts_nil
  rw [List.self_eq_append_right] at hmid
  subst hmid
  rw [hcs.eq_nil_of_nil hF, List.append_nil]

namespace Splits

variable {zs rest rest' : List γ} {as bs : List α}

/-- The split is the longest one: any encodings at the front are its first ones. -/
theorem isPrefix (hF : Delimits F) (h : Splits F zs as rest) {ys ss : List γ} (hb : Many F bs ys)
    (hzs : zs = ys ++ ss) : bs <+: as := by
  obtain ⟨front, ha, rfl⟩ := h.eq_append
  obtain ⟨cs, _, hcs, _, _⟩ := hb.exists_append hF ha hzs h.not_starts
  exact ⟨cs, hcs.symm⟩

theorem unique (hF : Delimits F) (h : Splits F zs as rest) (h' : Splits F zs bs rest') :
    as = bs ∧ rest = rest' := by
  obtain ⟨front, ha, rfl⟩ := h.eq_append
  obtain ⟨front', hb, heq⟩ := h'.eq_append
  obtain ⟨cs, mid, hcs, rfl, hmid⟩ := hb.exists_append hF ha heq h.not_starts
  obtain ⟨ds, _, hds, _, _⟩ := ha.exists_append hF hb heq.symm h'.not_starts
  have hnil : cs = [] := by
    have hlen := congrArg List.length hds
    rw [hcs, List.length_append, List.length_append] at hlen
    exact List.eq_nil_of_length_eq_zero (by omega)
  subst hnil
  have hmid := hmid.eq_nil
  subst hmid
  rw [List.append_nil] at hcs heq
  exact ⟨hcs, List.append_cancel_left heq⟩

theorem of_not_starts (h : ¬ Starts F zs) : Splits F zs [] zs := ⟨⟨[], .nil, rfl⟩, h⟩

theorem cons {a : α} {xs : List γ} (ha : F a xs) (h : Splits F zs as rest) :
    Splits F (xs ++ zs) (a :: as) rest := by
  obtain ⟨front, has, rfl⟩ := h.eq_append
  exact ⟨⟨xs ++ front, .cons ha has, (List.append_assoc ..).symm⟩, h.not_starts⟩

end Splits

/-- Every string splits. -/
theorem exists_splits (hF : Delimits F) (zs : List γ) : ∃ as rest, Splits F zs as rest := by
  induction hn : zs.length using Nat.strong_induction_on generalizing zs with
  | _ n ih =>
      subst hn
      by_cases h : Starts F zs
      · obtain ⟨a, xs, rs, ha, rfl⟩ := h
        have hpos := List.length_pos_of_ne_nil (hF.ne_nil a xs ha)
        have hlt : rs.length < (xs ++ rs).length := by
          rw [List.length_append]
          omega
        obtain ⟨as, rest, hrest⟩ := ih rs.length hlt rs rfl
        exact ⟨a :: as, rest, hrest.cons ha⟩
      · exact ⟨[], zs, .of_not_starts h⟩

end Delimited
