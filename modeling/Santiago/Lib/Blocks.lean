import Santiago.Lib.Effect

/-!
# Santiago.Lib.Blocks

Output that comes in blocks.  Some events ask for a block of output, and the
party that is asked puts the block out at once: as a whole, or broken off
somewhere, and then nothing ever follows it.

`Answered` is what stands in the output after any number of such steps, and
`Answered.step` adds one more.  All that an observer of the output needs is
`Answered.isPrefix`: he sees the beginning of whole blocks in the order of the
questions.
-/

namespace Blocks

variable {α β ε : Type} (bytes : β → List α) (Answers : ε → β → Prop)

/-- The blocks one after the other, the last one possibly broken off. -/
inductive PutsOut : List β → Bool → List α → Prop
  | whole (blocks : List β) : PutsOut blocks false (blocks.flatMap bytes)
  | broken (blocks : List β) {b : β} {part : List α} : part <+: bytes b →
      PutsOut (blocks ++ [b]) true (blocks.flatMap bytes ++ part)

/-- Every question got its block, in order. -/
structure Answered (asked : List ε) (blocks : List β) (broken : Bool) (out : List α) : Prop where
  each : List.Forall₂ Answers asked blocks
  puts : PutsOut bytes blocks broken out

/-- What one step does: it is asked nothing and puts out nothing, or it is
asked once and answers, with a whole block or with a broken one. -/
inductive StepAnswers (asks : ε → Bool) (shows : ε → List α) (es : List ε) : Bool → Prop
  | silent : es.filter asks = [] → es.flatMap shows = [] → StepAnswers asks shows es false
  | whole {x : ε} {b : β} : es.filter asks = [x] → Answers x b →
      es.flatMap shows = bytes b →
      StepAnswers asks shows es false
  | broken {x : ε} {b : β} : es.filter asks = [x] → Answers x b →
      es.flatMap shows <+: bytes b →
      StepAnswers asks shows es true

variable {bytes Answers} {asked : List ε} {blocks : List β} {broken : Bool} {out : List α}

theorem PutsOut.isPrefix (h : PutsOut bytes blocks broken out) : out <+: blocks.flatMap bytes := by
  cases h with
  | whole => exact List.prefix_rfl
  | broken blocks hpart =>
      rw [List.flatMap_append, List.flatMap_singleton]
      exact List.prefix_append_right_inj _ |>.mpr hpart

theorem PutsOut.eq_of_whole (h : PutsOut bytes blocks false out) : out = blocks.flatMap bytes := by
  cases h with
  | whole => rfl

/-- An observer sees the beginning of whole blocks. -/
theorem Answered.isPrefix (h : Answered bytes Answers asked blocks broken out) :
    out <+: blocks.flatMap bytes :=
  h.puts.isPrefix

theorem answered_nil : Answered bytes Answers [] [] false [] where
  each := .nil
  puts := .whole []

/-- A party that is asked has not broken off before. -/
theorem not_broken_of_asked {asks : ε → Bool} {es : List ε} {x : ε}
    (hdead : broken = true → es.filter asks = []) (hasks : es.filter asks = [x]) :
    broken = false := by
  cases broken with
  | false => rfl
  | true => exact absurd (hasks.symm.trans (hdead rfl)) (List.cons_ne_nil _ _)

/-- One more step; behind a broken block it must be a silent one. -/
theorem Answered.step {asks : ε → Bool} {shows : ε → List α} {t es : List ε} {breaks : Bool}
    (h : Answered bytes Answers (t.filter asks) blocks broken (t.flatMap shows))
    (hs : StepAnswers bytes Answers asks shows es breaks)
    (hdead : broken = true → es.filter asks = []) :
    ∃ blocks', Answered bytes Answers ((t ++ es).filter asks) blocks' (broken || breaks)
      ((t ++ es).flatMap shows) := by
  obtain ⟨heach, hputs⟩ := h
  simp only [List.filter_append, List.flatMap_append]
  cases hs with
  | silent hasks hshows =>
      refine ⟨blocks, ?_, ?_⟩
      · rw [hasks, List.append_nil]
        exact heach
      · rw [hshows, List.append_nil, Bool.or_false]
        exact hputs
  | @whole x b hasks hx hshows =>
      obtain rfl := not_broken_of_asked hdead hasks
      refine ⟨blocks ++ [b], ?_, ?_⟩
      · rw [hasks]
        exact List.rel_append heach (.cons hx .nil)
      · have hall : PutsOut bytes _ _ _ := .whole (blocks ++ [b])
        rw [List.flatMap_append, List.flatMap_singleton] at hall
        rw [hshows, hputs.eq_of_whole]
        exact hall
  | @broken x b hasks hx hshows =>
      obtain rfl := not_broken_of_asked hdead hasks
      refine ⟨blocks ++ [b], ?_, ?_⟩
      · rw [hasks]
        exact List.rel_append heach (.cons hx .nil)
      · rw [hputs.eq_of_whole]
        exact .broken blocks hshows

end Blocks
