import XttsServer.Foundations.Transition

/-!
How far a machine is from an end, measured by a number. Steps that lower it lead to the
end, whichever of them are taken; and where only what comes in raises it, what comes in
bounds the number of these steps.
-/

set_option autoImplicit false
set_option relaxedAutoImplicit false

namespace XttsServer.Foundations.Transition

universe u v w

variable {σ : Type u} {ε : Type v} {ω : Type w} {M : Machine σ ε ω} {P : σ → ε → Prop} {s t : σ}

/-! ### Reaching an end -/

/-- Where each state of an invariant that is not at its end has a run that keeps the invariant and
lowers a size, the end can be reached. -/
theorem exists_run_to_end {I E : σ → Prop} {size : σ → Nat}
    (goesOn : ∀ {s}, I s → ¬ E s → ∃ tr t, Run M P s tr t ∧ I t ∧ size t < size s) (here : I s) :
    ∃ tr t, Run M P s tr t ∧ I t ∧ E t := by
  induction n : size s using Nat.strongRecOn generalizing s with
  | ind n ih =>
    by_cases done : E s
    · exact ⟨[], s, .refl, here, done⟩
    · obtain ⟨tr₁, t, run, kept, less⟩ := goesOn here done
      obtain ⟨tr₂, u, rest, there, done⟩ := ih (size t) (n ▸ less) kept rfl
      exact ⟨tr₁ ++ tr₂, u, run.trans rest, there, done⟩

/-! ### Ends that cannot be missed -/

/-- Until the goal there is always a step that `must` admits, and whichever steps are taken that
`may` admits, the goal is come to. -/
inductive Inevitable (M : Machine σ ε ω) (may must : σ → ε → Prop) (goal : σ → Prop) : σ → Prop
  | here {s : σ} (there : goal s) : Inevitable M may must goal s
  | later {s : σ} (enabled : ∃ e t o, must s e ∧ M.step s e = some (t, o))
      (next : ∀ e t o, may s e → M.step s e = some (t, o) → Inevitable M may must goal t) :
      Inevitable M may must goal s

/-- What an invariant guarantees a step towards, with a size that all steps lower, cannot be
missed. -/
theorem inevitable_of_size {may must : σ → ε → Prop} {goal I : σ → Prop} (size : σ → Nat)
    (goesOn : ∀ {s}, I s → ¬ goal s → ∃ e t o, must s e ∧ M.step s e = some (t, o))
    (kept : ∀ {s e t o}, I s → may s e → M.step s e = some (t, o) → I t ∧ size t < size s)
    (here : I s) : Inevitable M may must goal s := by
  induction n : size s using Nat.strongRecOn generalizing s with
  | ind n ih =>
    by_cases done : goal s
    · exact .here done
    · refine .later (goesOn here done) fun e t o allowed step => ?_
      obtain ⟨there, less⟩ := kept here allowed step
      exact ih (size t) (n ▸ less) there rfl

/-! ### Paying for steps -/

/-- A size that `busy` steps lower and that grows by the credit of what is observed bounds the
number of the busy steps in any run. -/
theorem countP_busy_le [∀ s e, Decidable (P s e)] (size : σ → Nat) (busy : ε → Bool)
    (credit : List ω → Nat) {all tr : List ω} {es : List ε}
    (additive : ∀ o o', credit (o ++ o') = credit o + credit o')
    (pays : ∀ {tr s e t o}, Reach M P tr s → P s e → M.step s e = some (t, o) → tr ++ o <+: all →
      size t + (busy e).toNat ≤ size s + credit o)
    (before : Reach M P tr s) {tr' : List ω} (run : exec M P s es = some (t, tr'))
    (whole : tr ++ tr' = all) : size t + es.countP busy ≤ size s + credit tr' := by
  induction es generalizing s tr tr' with
  | nil =>
    obtain ⟨rfl, rfl⟩ : s = t ∧ [] = tr' := by simpa [exec] using run
    simp
  | cons e es ih =>
    by_cases meets : P s e
    · simp only [exec, if_pos meets] at run
      obtain ⟨⟨u, o⟩, step, rest⟩ := Option.bind_eq_some_iff.mp run
      obtain ⟨⟨t', o'⟩, tail, same⟩ := Option.map_eq_some_iff.mp rest
      obtain ⟨rfl, rfl⟩ := Prod.mk.inj same
      have parts : (tr ++ o) ++ o' = all := by rw [List.append_assoc, whole]
      have now := pays before meets step ⟨o', parts⟩
      have later := ih (before.tail meets step) tail parts
      have counted : (busy e).toNat = if busy e = true then 1 else 0 := by cases busy e <;> rfl
      have paid : credit (o ++ o') = credit o + credit o' := additive o o'
      rw [List.countP_cons, ← counted]
      dsimp only at paid now later ⊢
      omega
    · simp [exec, meets] at run

end XttsServer.Foundations.Transition
