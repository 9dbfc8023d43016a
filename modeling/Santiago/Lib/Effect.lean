import Mathlib

/-!
# Santiago.Lib.Effect

Imperative code as a function of its state.  An `Act ε σ α` runs from a
state `σ`, emits observable events `ε` in order, and ends in one of three
ways: it returns an `α`, an exception propagates out of it, or an assertion
fails and the process is gone.  Neither an exception nor an abort undoes
what was done before it: the state and the events up to that point stay.

The lemmas below run a `do` block one statement at a time; a caller never
unfolds `bind`.  `Act.Loops` is the meaning of a `while` loop, without a bound
on its passes.
-/

namespace Effect

variable {ε σ τ α β : Type}

/-! ## Outcomes -/

/-- How a piece of code ends. -/
inductive Exit (α : Type) where
  | ret (a : α)
  | throw (what : String)
  | abort (assertion : String)
deriving DecidableEq

/-- The end of a run: how it ended, in which state, and what was observed. -/
structure Outcome (ε σ α : Type) where
  exit : Exit α
  state : σ
  events : List ε

/-- The same outcome, with `es` observed before it. -/
def Outcome.after (es : List ε) (o : Outcome ε σ α) : Outcome ε σ α :=
  { o with events := es ++ o.events }

namespace Outcome

@[simp] theorem exit_after (es : List ε) (o : Outcome ε σ α) : (o.after es).exit = o.exit := rfl

@[simp] theorem state_after (es : List ε) (o : Outcome ε σ α) :
    (o.after es).state = o.state := rfl

@[simp] theorem events_after (es : List ε) (o : Outcome ε σ α) :
    (o.after es).events = es ++ o.events := rfl

@[simp] theorem after_nil (o : Outcome ε σ α) : o.after [] = o := rfl

@[simp] theorem after_mk (es es' : List ε) (x : Exit α) (s : σ) :
    Outcome.after es ⟨x, s, es'⟩ = ⟨x, s, es ++ es'⟩ := rfl

/-- Events in front of events. -/
@[simp] theorem after_after (es es' : List ε) (o : Outcome ε σ α) :
    (o.after es').after es = o.after (es ++ es') := by
  simp [Outcome.after]

end Outcome

/-! ## Actions -/

/-- Code that reads and writes a state `σ`, emits events `ε` and returns an `α`. -/
def Act (ε σ α : Type) : Type := σ → Outcome ε σ α

namespace Act

/-- Sequencing: an exception or an abort of `x` ends the block. -/
protected def bind (x : Act ε σ α) (f : α → Act ε σ β) : Act ε σ β := fun s =>
  match x s with
  | ⟨.ret a, s', es⟩ => (f a s').after es
  | ⟨.throw w, s', es⟩ => ⟨.throw w, s', es⟩
  | ⟨.abort w, s', es⟩ => ⟨.abort w, s', es⟩

instance : Monad (Act ε σ) where
  pure a := fun s => ⟨.ret a, s, []⟩
  bind := Act.bind

/-- Read the state. -/
def get : Act ε σ σ := fun s => ⟨.ret s, s, []⟩

/-- Change the state. -/
def modify (f : σ → σ) : Act ε σ Unit := fun s => ⟨.ret (), f s, []⟩

/-- Emit one observable event. -/
def emit (e : ε) : Act ε σ Unit := fun s => ⟨.ret (), s, [e]⟩

/-- Emit observable events, one behind the other. -/
def emits (es : List ε) : Act ε σ Unit := fun s => ⟨.ret (), s, es⟩

/-- End as other code ended. -/
def exit (x : Exit α) : Act ε σ α := fun s => ⟨x, s, []⟩

/-- Throw an exception. -/
def throw (what : String) : Act ε σ α := fun s => ⟨.throw what, s, []⟩

/-- End the process when the asserted condition is false. -/
def assert (c : Bool) (assertion : String) : Act ε σ Unit := fun s =>
  if c then ⟨.ret (), s, []⟩ else ⟨.abort assertion, s, []⟩

/-- An `if` without an `else`. -/
def when (c : Bool) (x : Act ε σ Unit) : Act ε σ Unit := if c then x else pure ()

/-- `try x catch`: the handler runs in the state the exception left behind. -/
def tryCatch (x : Act ε σ α) (h : String → Act ε σ α) : Act ε σ α := fun s =>
  match x s with
  | ⟨.throw w, s', es⟩ => (h w s').after es
  | o => o

/-- Run code of a component on the part of the state that belongs to it. -/
def zoom (part : σ → τ) (put : τ → σ → σ) (x : Act ε τ α) : Act ε σ α := fun s =>
  ⟨(x (part s)).exit, put (x (part s)).state s, (x (part s)).events⟩

/-! ## Running a block -/

@[simp] theorem pure_run (a : α) (s : σ) : (pure a : Act ε σ α) s = ⟨.ret a, s, []⟩ := rfl

@[simp] theorem get_run (s : σ) : (get : Act ε σ σ) s = ⟨.ret s, s, []⟩ := rfl

@[simp] theorem modify_run (f : σ → σ) (s : σ) :
    (modify f : Act ε σ Unit) s = ⟨.ret (), f s, []⟩ :=
  rfl

@[simp] theorem emit_run (e : ε) (s : σ) :
    (emit e : Act ε σ Unit) s = ⟨.ret (), s, [e]⟩ := rfl

@[simp] theorem emits_run (es : List ε) (s : σ) :
    (emits es : Act ε σ Unit) s = ⟨.ret (), s, es⟩ := rfl

@[simp] theorem exit_run (x : Exit α) (s : σ) : (exit x : Act ε σ α) s = ⟨x, s, []⟩ := rfl

@[simp] theorem throw_run (w : String) (s : σ) :
    (throw w : Act ε σ α) s = ⟨.throw w, s, []⟩ := rfl

@[simp] theorem assert_true_run (w : String) (s : σ) :
    (assert true w : Act ε σ Unit) s = ⟨.ret (), s, []⟩ := rfl

@[simp] theorem assert_false_run (w : String) (s : σ) :
    (assert false w : Act ε σ Unit) s = ⟨.abort w, s, []⟩ := rfl

/-- A second act runs where the first one returns. -/
theorem bind_run (x : Act ε σ α) (f : α → Act ε σ β) (s : σ) :
    (x >>= f) s = match x s with
      | ⟨.ret a, s', es⟩ => (f a s').after es
      | ⟨.throw w, s', es⟩ => ⟨.throw w, s', es⟩
      | ⟨.abort w, s', es⟩ => ⟨.abort w, s', es⟩ := rfl

/-- Only what the first statement does in this state counts. -/
theorem bind_congr {x x' : Act ε σ α} {s : σ} (h : x s = x' s) (f : α → Act ε σ β) :
    (x >>= f) s = (x' >>= f) s := by
  rw [bind_run, bind_run, h]

/-- The rest of a block runs from where a returning statement left off. -/
theorem bind_of_ret {x : Act ε σ α} {f : α → Act ε σ β} {s s' : σ} {a : α} {es : List ε}
    (h : x s = ⟨.ret a, s', es⟩) : (x >>= f) s = (f a s').after es := by
  rw [bind_run, h]

/-- An exception passes over what follows. -/
theorem bind_of_throw {x : Act ε σ α} {f : α → Act ε σ β} {s s' : σ}
    {w : String} {es : List ε}
    (h : x s = ⟨.throw w, s', es⟩) : (x >>= f) s = ⟨.throw w, s', es⟩ := by
  rw [bind_run, h]

/-- So does a failed assertion. -/
theorem bind_of_abort {x : Act ε σ α} {f : α → Act ε σ β} {s s' : σ}
    {w : String} {es : List ε}
    (h : x s = ⟨.abort w, s', es⟩) : (x >>= f) s = ⟨.abort w, s', es⟩ := by
  rw [bind_run, h]

/-- A block that returned ran its first statement to a return. -/
theorem exists_of_bind_ret {x : Act ε σ α} {f : α → Act ε σ β} {s : σ} {b : β}
    (h : ((x >>= f) s).exit = .ret b) :
    ∃ a s' es, x s = ⟨.ret a, s', es⟩ ∧ (f a s').exit = .ret b := by
  rw [bind_run] at h
  cases hx : x s with
  | mk exit s' es =>
      rw [hx] at h
      cases exit with
      | ret a => exact ⟨a, s', es, rfl, h⟩
      | throw w => cases h
      | abort w => cases h

@[simp] theorem pure_bind_run (a : α) (f : α → Act ε σ β) (s : σ) :
    ((pure a : Act ε σ α) >>= f) s = f a s := rfl

@[simp] theorem get_bind_run (f : σ → Act ε σ β) (s : σ) : (get >>= f) s = f s s := rfl

@[simp] theorem modify_bind_run (g : σ → σ) (f : Unit → Act ε σ β) (s : σ) :
    (modify g >>= f) s = f () (g s) := rfl

@[simp] theorem emit_bind_run (e : ε) (f : Unit → Act ε σ β) (s : σ) :
    (emit e >>= f) s = (f () s).after [e] := rfl

@[simp] theorem emits_bind_run (es : List ε) (f : Unit → Act ε σ β) (s : σ) :
    (emits es >>= f) s = (f () s).after es := rfl

@[simp] theorem throw_bind_run (w : String) (f : α → Act ε σ β) (s : σ) :
    (throw w >>= f) s = ⟨.throw w, s, []⟩ := rfl

@[simp] theorem assert_true_bind_run (w : String) (f : Unit → Act ε σ β) (s : σ) :
    (assert true w >>= f) s = f () s := rfl

@[simp] theorem assert_false_bind_run (w : String) (f : Unit → Act ε σ β) (s : σ) :
    (assert false w >>= f) s = ⟨.abort w, s, []⟩ := rfl

@[simp] theorem when_true (x : Act ε σ Unit) : when true x = x := rfl

@[simp] theorem when_false (x : Act ε σ Unit) : when false x = pure () := rfl

/-- An act on a part of the state. -/
@[simp] theorem zoom_run (part : σ → τ) (put : τ → σ → σ) (x : Act ε τ α) (s : σ) :
    zoom part put x s =
      ⟨(x (part s)).exit, put (x (part s)).state s, (x (part s)).events⟩ := rfl

/-! ## try and catch -/

/-- Nothing is caught of what returns. -/
theorem tryCatch_of_ret {x : Act ε σ α} {h : String → Act ε σ α} {s s' : σ}
    {a : α} {es : List ε}
    (hx : x s = ⟨.ret a, s', es⟩) : tryCatch x h s = ⟨.ret a, s', es⟩ := by
  rw [tryCatch, hx]

/-- What is thrown is handled. -/
theorem tryCatch_of_throw {x : Act ε σ α} {h : String → Act ε σ α} {s s' : σ} {w : String}
    {es : List ε} (hx : x s = ⟨.throw w, s', es⟩) : tryCatch x h s = (h w s').after es := by
  rw [tryCatch, hx]

/-- A failed assertion is not caught. -/
theorem tryCatch_of_abort {x : Act ε σ α} {h : String → Act ε σ α} {s s' : σ} {w : String}
    {es : List ε} (hx : x s = ⟨.abort w, s', es⟩) :
      tryCatch x h s = ⟨.abort w, s', es⟩ := by
  rw [tryCatch, hx]

/-! ## while -/

/-- The loop over `body`, which returns whether it goes on, ends like this. -/
inductive Loops (body : Act ε σ Bool) : σ → Outcome ε σ Unit → Prop
  | ended {s s' : σ} {es : List ε} : body s = ⟨.ret false, s', es⟩ →
      Loops body s ⟨.ret (), s', es⟩
  | again {s s' : σ} {es : List ε} {o : Outcome ε σ Unit} : body s = ⟨.ret true, s', es⟩ →
      Loops body s' o → Loops body s (o.after es)
  | thrown {s s' : σ} {w : String} {es : List ε} : body s = ⟨.throw w, s', es⟩ →
      Loops body s ⟨.throw w, s', es⟩
  | aborted {s s' : σ} {w : String} {es : List ε} : body s = ⟨.abort w, s', es⟩ →
      Loops body s ⟨.abort w, s', es⟩

/-- A loop ends when every pass that goes on makes something smaller. -/
theorem Loops.exists_of_measure {body : Act ε σ Bool} (μ : σ → Nat)
    (h : ∀ s s' es, body s = ⟨.ret true, s', es⟩ → μ s' < μ s) (s : σ) :
    ∃ o, Loops body s o := by
  induction hn : μ s using Nat.strong_induction_on generalizing s with
  | _ n ih =>
      subst hn
      cases hbody : body s with
      | mk exit s' es =>
          cases exit with
          | ret go =>
              cases go with
              | false => exact ⟨_, .ended hbody⟩
              | true =>
                  obtain ⟨o, ho⟩ := ih (μ s') (h s s' es hbody) s' rfl
                  exact ⟨_, .again hbody ho⟩
          | throw w => exact ⟨_, .thrown hbody⟩
          | abort w => exact ⟨_, .aborted hbody⟩

end Act

end Effect
