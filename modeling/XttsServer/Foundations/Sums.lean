import Mathlib.Algebra.BigOperators.Group.Finset.Basic
import Mathlib.Algebra.GroupWithZero.Nat
import Mathlib.Algebra.Order.BigOperators.Group.Finset

/-!
Sums of natural numbers of which one term changes.
-/

set_option autoImplicit false
set_option relaxedAutoImplicit false

namespace XttsServer.Foundations

variable {α κ : Type} {known : Finset α} {f g : α → Nat} {a : α}

theorem sum_of_one [DecidableEq α] (member : a ∈ known) (others : ∀ b ∈ known, b ≠ a → g b = f b) :
    ∑ b ∈ known, g b + f a = ∑ b ∈ known, f b + g a := by
  have same : ∑ b ∈ known.erase a, g b = ∑ b ∈ known.erase a, f b :=
    Finset.sum_congr rfl fun b hb => others b (Finset.mem_of_mem_erase hb)
      (Finset.ne_of_mem_erase hb)
  rw [← Finset.add_sum_erase known g member, ← Finset.add_sum_erase known f member, same]
  omega

/-- Where keys tell the terms apart, one key makes the sum larger once. -/
theorem sum_le_of_key [DecidableEq κ] {key : α → κ} {k : κ} {d : Nat}
    (inj : ∀ a ∈ known, ∀ b ∈ known, key a = key b → a = b)
    (le : ∀ b ∈ known, g b ≤ f b + if key b = k then d else 0) :
    ∑ b ∈ known, g b ≤ ∑ b ∈ known, f b + d := by
  have alone : (known.filter fun b => key b = k).card ≤ 1 := by
    refine Finset.card_le_one.mpr fun a ha b hb => ?_
    obtain ⟨known_a, same_a⟩ := Finset.mem_filter.mp ha
    obtain ⟨known_b, same_b⟩ := Finset.mem_filter.mp hb
    exact inj a known_a b known_b (same_a.trans same_b.symm)
  calc ∑ b ∈ known, g b ≤ ∑ b ∈ known, (f b + if key b = k then d else 0) := Finset.sum_le_sum le
    _ = ∑ b ∈ known, f b + (known.filter fun b => key b = k).card * d := by
      rw [Finset.sum_add_distrib, ← Finset.sum_filter, Finset.sum_const, Nat.nsmul_eq_mul]
    _ ≤ ∑ b ∈ known, f b + d :=
      Nat.add_le_add_left (Nat.le_trans (Nat.mul_le_mul_right d alone) (Nat.one_mul d).le) _

theorem sum_map_set {α : Type} {f : α → Nat} {l : List α} {i : Nat} {old : α} (new : α)
    (here : l[i]? = some old) :
    ((l.set i new).map f).sum + f old = (l.map f).sum + f new := by
  induction l generalizing i with
  | nil => cases here
  | cons a l ih =>
    cases i with
    | zero =>
      obtain rfl : a = old := by simpa using here
      simp only [List.set_cons_zero, List.map_cons, List.sum_cons]
      omega
    | succ i =>
      have rest := ih (by simpa using here)
      simp only [List.set_cons_succ, List.map_cons, List.sum_cons]
      omega

end XttsServer.Foundations
