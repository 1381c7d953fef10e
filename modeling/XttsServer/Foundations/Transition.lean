import Mathlib.Data.List.Basic
import Mathlib.Logic.Relation

/-!
Machines whose steps are picked by an environment and report what they do.
A run keeps the observations of all its steps in order. Runs are indexed by a
condition on the steps taken, so that a property of all runs and a property of
the runs that avoid some step have one induction rule.
-/

set_option autoImplicit false
set_option relaxedAutoImplicit false

namespace XttsServer.Foundations.Transition

universe u v w

/-- `step s e` is `none` when the event `e` cannot happen in the state `s`. -/
structure Machine (σ : Type u) (ε : Type v) (ω : Type w) where
  init : σ
  step : σ → ε → Option (σ × List ω)

variable {σ : Type u} {ε : Type v} {ω : Type w}

/-- `Run M P s tr t`: from `s` to `t` by steps that each meet `P`, observing `tr`. -/
inductive Run (M : Machine σ ε ω) (P : σ → ε → Prop) (s : σ) : List ω → σ → Prop
  | refl : Run M P s [] s
  | tail {t u : σ} {tr o : List ω} {e : ε} :
      Run M P s tr t → P t e → M.step t e = some (u, o) → Run M P s (tr ++ o) u

/-- The states reached from the initial one, with the observations made on the way. -/
abbrev Reach (M : Machine σ ε ω) (P : σ → ε → Prop) (tr : List ω) (s : σ) : Prop :=
  Run M P M.init tr s

def anyStep : σ → ε → Prop := fun _ _ => True

variable {M : Machine σ ε ω} {P Q : σ → ε → Prop} {s t u : σ} {tr tr' : List ω}

theorem Run.mono (weaker : ∀ s e, P s e → Q s e) (h : Run M P s tr t) : Run M Q s tr t := by
  induction h with
  | refl => exact .refl
  | tail _ meets step ih => exact ih.tail (weaker _ _ meets) step

theorem Run.trans (h : Run M P s tr t) (g : Run M P t tr' u) : Run M P s (tr ++ tr') u := by
  induction g with
  | refl => simpa using h
  | tail _ meets step ih =>
    rw [← List.append_assoc]
    exact ih.tail meets step

/-- The condition may be exchanged for one that it implies on the states it leads to. -/
theorem Run.mono_of_reach (weaker : ∀ tr s e, Reach M P tr s → P s e → Q s e)
    (h : Reach M P tr t) : Reach M Q tr t := by
  induction h with
  | refl => exact .refl
  | tail before meets step ih => exact ih.tail (weaker _ _ _ before meets) step

/-- The condition may be exchanged for one that it implies on the steps taken. -/
theorem Run.mono_of_step
    (weaker : ∀ tr s e t o, Reach M P tr s → M.step s e = some (t, o) → P s e → Q s e)
    (h : Reach M P tr t) : Reach M Q tr t := by
  induction h with
  | refl => exact .refl
  | tail before meets step ih => exact ih.tail (weaker _ _ _ _ _ before step meets) step

/-! ### Chains of changes -/

/-- `Chain R s tr t`: from `s` to `t` by changes that `R` relates, observing `tr`. -/
inductive Chain (R : σ → σ → List ω → Prop) (s : σ) : List ω → σ → Prop
  | refl : Chain R s [] s
  | tail {t u : σ} {tr o : List ω} : Chain R s tr t → R t u o → Chain R s (tr ++ o) u

variable {R R' : σ → σ → List ω → Prop} {o : List ω}

theorem Chain.single (h : R s t o) : Chain R s o t := by
  simpa using Chain.refl.tail h

theorem Chain.mono (weaker : ∀ s t o, R s t o → R' s t o) (h : Chain R s tr t) :
    Chain R' s tr t := by
  induction h with
  | refl => exact .refl
  | tail _ change ih => exact ih.tail (weaker _ _ _ change)

theorem Chain.trans (h : Chain R s tr t) (g : Chain R t tr' u) : Chain R s (tr ++ tr') u := by
  induction g with
  | refl => simpa using h
  | tail _ change ih =>
    rw [← List.append_assoc]
    exact ih.tail change

theorem Chain.head (change : R s t o) (h : Chain R t tr u) : Chain R s (o ++ tr) u :=
  (Chain.single change).trans h

/-- Every observation of a chain is made by one of its changes. -/
theorem Chain.exists_change (h : Chain R s tr t) {x : ω} (member : x ∈ tr) :
    ∃ before a b o after, Chain R s before a ∧ R a b o ∧ x ∈ o ∧ Chain R b after t ∧
      tr = before ++ o ++ after := by
  induction h with
  | refl => cases member
  | tail earlier change ih =>
    rcases List.mem_append.mp member with old | new
    · obtain ⟨before, a, b, o, after, reaches, made, told, rest, rfl⟩ := ih old
      exact ⟨before, a, b, o, _, reaches, made, told, rest.tail change, by simp⟩
    · exact ⟨_, _, _, _, [], earlier, change, new, .refl, by simp⟩

/-- Splitting each step into changes splits a whole run. -/
theorem Run.chain (h : Run M P s tr t)
    (split : ∀ s e s' o, P s e → M.step s e = some (s', o) → Chain R s o s') :
    Chain R s tr t := by
  induction h with
  | refl => exact .refl
  | tail _ meets step ih => exact ih.trans (split _ _ _ _ meets step)

/-! ### Executions -/

/-- Feed a list of events to the machine, checking the condition on each step. -/
def exec (M : Machine σ ε ω) (P : σ → ε → Prop) [∀ s e, Decidable (P s e)] :
    σ → List ε → Option (σ × List ω)
  | s, [] => some (s, [])
  | s, e :: es =>
      if P s e then
        (M.step s e).bind fun (t, o) => (exec M P t es).map fun (u, o') => (u, o ++ o')
      else none

instance : ∀ (s : σ) (e : ε), Decidable (anyStep s e) :=
  fun _ _ => inferInstanceAs (Decidable True)

variable [∀ s e, Decidable (P s e)]

private theorem run_of_exec_from {es : List ε} (start : Run M P s tr t)
    (h : exec M P t es = some (u, tr')) : Run M P s (tr ++ tr') u := by
  induction es generalizing t tr tr' with
  | nil =>
    obtain ⟨rfl, rfl⟩ : t = u ∧ [] = tr' := by simpa [exec] using h
    simpa using start
  | cons e es ih =>
    by_cases meets : P t e
    · simp only [exec, if_pos meets] at h
      obtain ⟨⟨t', o⟩, step, rest⟩ := Option.bind_eq_some_iff.mp h
      obtain ⟨⟨u', o'⟩, tail, same⟩ := Option.map_eq_some_iff.mp rest
      obtain ⟨rfl, rfl⟩ := Prod.mk.inj same
      rw [← List.append_assoc]
      exact ih (start.tail meets step) tail
    · simp [exec, meets] at h

/-- An execution that does not get stuck is a run. -/
theorem run_of_exec {es : List ε} (h : exec M P s es = some (t, tr)) : Run M P s tr t := by
  simpa using run_of_exec_from .refl h

theorem reach_of_exec {es : List ε} (h : (exec M P M.init es).isSome) :
    Reach M P ((exec M P M.init es).get h).2 ((exec M P M.init es).get h).1 :=
  run_of_exec (Option.some_get h).symm

end XttsServer.Foundations.Transition
