import XttsServer.Foundations.Transition

/-!
Machines that run inside a larger one, or behind a view that hides some of their
steps. Runs of the larger machine are seen as runs of the smaller one, so that all
that holds of the latter's runs holds here too.
-/

set_option autoImplicit false
set_option relaxedAutoImplicit false

namespace XttsServer.Foundations.Transition

universe u v w

variable {σ σ' : Type u} {ε ε' : Type v} {ω ω' : Type w}

/-- Each step that `M` takes under `P` looks, through `f` and `view`, like some steps of `N` that
meet `Q`; none of them for a step that `N` does not see. -/
structure Simulation (M : Machine σ ε ω) (P : σ → ε → Prop) (N : Machine σ' ε' ω')
    (Q : σ' → ε' → Prop) (f : σ → σ') (view : ω → Option ω') : Prop where
  init : f M.init = N.init
  step : ∀ {tr : List ω} {s t : σ} {e : ε} {o : List ω}, Reach M P tr s → P s e →
    M.step s e = some (t, o) → Run N Q (f s) (o.filterMap view) (f t)

variable {M : Machine σ ε ω} {N : Machine σ' ε' ω'} {P : σ → ε → Prop} {Q : σ' → ε' → Prop}
  {f : σ → σ'} {view : ω → Option ω'} {s t : σ} {tr tr' : List ω}

theorem Simulation.run (sim : Simulation M P N Q f view) (before : Reach M P tr s)
    (h : Run M P s tr' t) : Run N Q (f s) (tr'.filterMap view) (f t) := by
  induction h with
  | refl => exact .refl
  | tail earlier meets step ih =>
    rw [List.filterMap_append]
    exact ih.trans (sim.step (before.trans earlier) meets step)

theorem Simulation.reach (sim : Simulation M P N Q f view) (h : Reach M P tr s) :
    Reach N Q (tr.filterMap view) (f s) := by
  rw [Reach, ← sim.init]
  exact sim.run .refl h

theorem Run.single {e : ε} {o : List ω} (meets : P s e) (step : M.step s e = some (t, o)) :
    Run M P s o t := by
  simpa using Run.refl.tail meets step

end XttsServer.Foundations.Transition
