/-!
# Steps that may fail and keep a state

A step that fails leaves the state that it has come to, and the steps behind it are not taken.

Results:
* `run_bind`: a step and those behind it.
* `run_bind_eq_ok`: what comes to a good end does so step by step.
* `map_eq_ok`, `map_eq_error`: what is made of a result, without a state.
-/
namespace Interleave.Fallible

variable {σ ε α β : Type} {x : ExceptT ε (StateM σ) α} {f : α → ExceptT ε (StateM σ) β}
  {s s' : σ} {b : β}

theorem run_bind (x : ExceptT ε (StateM σ) α) (f : α → ExceptT ε (StateM σ) β) (s : σ) :
    (x >>= f).run.run s = match x.run.run s with
      | (.ok a, s') => (f a).run.run s'
      | (.error fault, s') => (.error fault, s') := by
  change (match x.run.run s with
    | (result, s') => (ExceptT.bindCont f result).run s') = _
  obtain ⟨result, s'⟩ := x.run.run s
  cases result <;> rfl

theorem run_bind_eq_ok : (x >>= f).run.run s = (.ok b, s') ↔
    ∃ a between, x.run.run s = (.ok a, between) ∧ (f a).run.run between = (.ok b, s') := by
  rw [run_bind]
  obtain ⟨result, between⟩ := x.run.run s
  cases result with
  | error fault =>
    constructor
    · intro h
      cases h
    · intro ⟨_, _, hfirst, _⟩
      cases hfirst
  | ok a =>
    constructor
    · intro h
      exact ⟨a, between, rfl, h⟩
    · intro ⟨_, _, hfirst, hrest⟩
      cases hfirst
      exact hrest

theorem map_eq_ok {x : Except ε α} {f : α → β} : x.map f = .ok b ↔ ∃ a, x = .ok a ∧ f a = b := by
  cases x <;> simp [Except.map]

theorem map_eq_error {x : Except ε α} {f : α → β} {fault : ε} :
    x.map f = .error fault ↔ x = .error fault := by
  cases x <;> simp [Except.map]

end Interleave.Fallible
