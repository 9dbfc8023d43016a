import Santiago.Lib.Effect

/-!
# Santiago.Lib.Alike

Two runs of the same code from two related states.  `Outcome.Alike` says that
an observer who sees `see e` of an event `e` cannot tell them apart: they end
in the same way, in related states, and show the same.  There is one rule for
each way to write a block, so that a proof follows the code.
-/

namespace Effect

variable {ε σ τ α β ω : Type}

/-- The same way to end, with related results. -/
inductive Exit.Alike (Q : α → α → Prop) : Exit α → Exit α → Prop
  | ret {a b : α} : Q a b → Alike Q (.ret a) (.ret b)
  | throw {what : String} : Alike Q (.throw what) (.throw what)
  | abort {assertion : String} : Alike Q (.abort assertion) (.abort assertion)

theorem Exit.alike_refl {Q : α → α → Prop} (hQ : ∀ a, Q a a) (x : Exit α) :
    x.Alike Q x := by
  cases x with
  | ret a => exact .ret (hQ a)
  | throw what => exact .throw
  | abort assertion => exact .abort

theorem Exit.Alike.eq {x y : Exit α} (h : x.Alike Eq y) : x = y := by
  cases h with
  | ret hab => rw [hab]
  | throw => rfl
  | abort => rfl

structure Outcome.Alike (see : ε → List ω) (R : σ → σ → Prop) (Q : α → α → Prop)
    (o o' : Outcome ε σ α) : Prop where
  exit : o.exit.Alike Q o'.exit
  state : R o.state o'.state
  seen : o.events.flatMap see = o'.events.flatMap see

namespace Outcome.Alike

variable {see : ε → List ω} {R : σ → σ → Prop} {Q : α → α → Prop}
    {P : β → β → Prop}
  {s s' : σ}

/-! ## Single statements -/

theorem pure {a b : α} (hQ : Q a b) (hR : R s s') :
    Alike see R Q ((Pure.pure a : Act ε σ α) s) ((Pure.pure b : Act ε σ α) s') :=
  ⟨.ret hQ, hR, rfl⟩

theorem throw {what : String} (hR : R s s') :
    Alike see R Q ((Act.throw what : Act ε σ α) s) (Act.throw what s') :=
  ⟨.throw, hR, rfl⟩

theorem modify {f g : σ → σ} (hR : R (f s) (g s')) :
    Alike see R Eq ((Act.modify f : Act ε σ Unit) s) (Act.modify g s') :=
  ⟨.ret rfl, hR, rfl⟩

theorem emit {e e' : ε} (he : see e = see e') (hR : R s s') :
    Alike see R Eq ((Act.emit e : Act ε σ Unit) s) (Act.emit e' s') :=
  ⟨.ret rfl, hR, by simp [he]⟩

theorem assert {c c' : Bool} {assertion : String} (hc : c = c') (hR : R s s') :
    Alike see R Eq ((Act.assert c assertion : Act ε σ Unit) s) (Act.assert c' assertion s') := by
  subst hc
  cases c with
  | true => exact ⟨.ret rfl, hR, rfl⟩
  | false => exact ⟨.abort, hR, rfl⟩

theorem exit_run {x x' : Exit α} (hx : x.Alike Q x') (hR : R s s') :
    Alike see R Q ((Act.exit x : Act ε σ α) s) (Act.exit x' s') :=
  ⟨hx, hR, rfl⟩

/-! ## Blocks -/

/-- The rest of a block, after a statement. -/
theorem bind {x x' : Act ε σ α} {f f' : α → Act ε σ β} (hx : Alike see R Q (x s) (x' s'))
    (hf : ∀ a b t t', Q a b → R t t' → Alike see R P (f a t) (f' b t')) :
    Alike see R P ((x >>= f) s) ((x' >>= f') s') := by
  rw [Act.bind_run, Act.bind_run]
  generalize x s = o at hx ⊢
  generalize x' s' = o' at hx ⊢
  obtain ⟨exit, t, es⟩ := o
  obtain ⟨exit', t', es'⟩ := o'
  obtain ⟨hexit, hstate, hseen⟩ := hx
  dsimp only at hexit hstate hseen
  cases hexit with
  | ret hab =>
      obtain ⟨hexit', hstate', hseen'⟩ := hf _ _ _ _ hab hstate
      exact ⟨hexit', hstate', by simp [hseen, hseen']⟩
  | throw => exact ⟨.throw, hstate, hseen⟩
  | abort => exact ⟨.abort, hstate, hseen⟩

/-- The rest of a block, after a statement with the same result. -/
theorem seq {x x' : Act ε σ α} {f f' : α → Act ε σ β} (hx : Alike see R Eq (x s) (x' s'))
    (hf : ∀ a t t', R t t' → Alike see R P (f a t) (f' a t')) :
    Alike see R P ((x >>= f) s) ((x' >>= f') s') := by
  refine hx.bind fun a b t t' hab hR => ?_
  subst hab
  exact hf a t t' hR

/-- The rest of a block that reads the state. -/
theorem get_bind {f f' : σ → Act ε σ β} (hf : Alike see R P (f s s) (f' s' s')) :
    Alike see R P ((Act.get >>= f) s) ((Act.get >>= f') s') := hf

/-- The rest of a block, after an event. -/
theorem emit_bind {e e' : ε} {f f' : Unit → Act ε σ β} (he : see e = see e')
    (hf : Alike see R P (f () s) (f' () s')) :
    Alike see R P ((Act.emit e >>= f) s) ((Act.emit e' >>= f') s') :=
  ⟨hf.exit, hf.state, by simp [he, hf.seen]⟩

theorem emits_bind {es es' : List ε} {f f' : Unit → Act ε σ β}
    (hes : es.flatMap see = es'.flatMap see) (hf : Alike see R P (f () s) (f' () s')) :
    Alike see R P ((Act.emits es >>= f) s) ((Act.emits es' >>= f') s') :=
  ⟨hf.exit, hf.state, by simp [hes, hf.seen]⟩

theorem modify_bind {g g' : σ → σ} {f f' : Unit → Act ε σ β}
    (hf : Alike see R P (f () (g s)) (f' () (g' s'))) :
    Alike see R P ((Act.modify g >>= f) s) ((Act.modify g' >>= f') s') := hf

theorem when {c c' : Bool} {x x' : Act ε σ Unit} (hc : c = c') (hR : R s s')
    (hx : c = true → Alike see R Eq (x s) (x' s')) :
    Alike see R Eq (Act.when c x s) (Act.when c' x' s') := by
  subst hc
  cases c with
  | true => exact hx rfl
  | false => exact pure rfl hR

theorem tryCatch {x x' : Act ε σ α} {h h' : String → Act ε σ α}
    (hx : Alike see R Q (x s) (x' s'))
    (hh : ∀ what t t', R t t' → Alike see R Q (h what t) (h' what t')) :
    Alike see R Q (Act.tryCatch x h s) (Act.tryCatch x' h' s') := by
  unfold Act.tryCatch
  generalize x s = o at hx ⊢
  generalize x' s' = o' at hx ⊢
  obtain ⟨exit, t, es⟩ := o
  obtain ⟨exit', t', es'⟩ := o'
  obtain ⟨hexit, hstate, hseen⟩ := hx
  dsimp only at hexit hstate hseen
  cases hexit with
  | ret hab => exact ⟨.ret hab, hstate, hseen⟩
  | throw =>
      obtain ⟨hexit', hstate', hseen'⟩ := hh _ _ _ hstate
      exact ⟨hexit', hstate', by simp [hseen, hseen']⟩
  | abort => exact ⟨.abort, hstate, hseen⟩

/-- Code of a component, on related components. -/
theorem zoom {part : σ → τ} {put : τ → σ → σ} {S : τ → τ → Prop}
    {x x' : Act ε τ α} (hx : Alike see S Q (x (part s)) (x' (part s')))
    (hput : ∀ t t', S t t' → R (put t s) (put t' s')) :
    Alike see R Q (Act.zoom part put x s) (Act.zoom part put x' s') :=
  ⟨hx.exit, hput _ _ hx.state, hx.seen⟩

/-- The same run, twice. -/
theorem refl (hR : ∀ t, R t t) (hQ : ∀ a, Q a a) (o : Outcome ε σ α) : Alike see R Q o o :=
  ⟨Exit.alike_refl hQ o.exit, hR o.state, rfl⟩

end Outcome.Alike

end Effect
