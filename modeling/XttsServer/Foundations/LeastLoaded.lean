import Mathlib.Data.List.MinMax
import Mathlib.Data.Prod.Lex
import Mathlib.Algebra.BigOperators.Group.List.Basic
import Mathlib.Algebra.GroupWithZero.Nat
import Mathlib.Algebra.Order.BigOperators.Group.List

/-!
Routing to the least loaded member of the least loaded group: members carry a
load and belong to groups, and the choice minimises the total of the group
first and the member's own load second.
-/

set_option autoImplicit false
set_option relaxedAutoImplicit false

namespace XttsServer.Foundations.LeastLoaded

universe u v

variable {α : Type u} {γ : Type v} [DecidableEq γ] (group : α → γ) (load : α → ℕ)

def groupLoad (l : List α) (g : γ) : ℕ := ((l.filter fun a => group a = g).map load).sum

def routingKey (l : List α) (a : α) : ℕ ×ₗ ℕ := toLex (groupLoad group load l (group a), load a)

def leastLoaded (l : List α) : Option α := l.argmin (routingKey group load l)

/-- Some idle member belongs to a group that no other group undercuts. -/
def IdleInLeastGroup (l : List α) : Prop :=
  ∃ a ∈ l, load a = 0 ∧ ∀ b ∈ l, groupLoad group load l (group a) ≤ groupLoad group load l (group b)

instance (l : List α) : Decidable (IdleInLeastGroup group load l) :=
  inferInstanceAs (Decidable (∃ a ∈ l, _))

variable {group load} {l : List α} {m : α}

theorem leastLoaded_mem (h : leastLoaded group load l = some m) : m ∈ l :=
  List.argmin_mem (Option.mem_def.mpr h)

theorem leastLoaded_isSome (h : l ≠ []) : ∃ m, leastLoaded group load l = some m := by
  rw [← Option.ne_none_iff_exists']
  exact fun none => h (List.argmin_eq_none.mp none)

private theorem leastLoaded_le (h : leastLoaded group load l = some m) {a : α} (ha : a ∈ l) :
    routingKey group load l m ≤ routingKey group load l a :=
  List.le_of_mem_argmin ha (Option.mem_def.mpr h)

/-- No group is less loaded than the group of the choice. -/
theorem groupLoad_leastLoaded_le (h : leastLoaded group load l = some m) {a : α} (ha : a ∈ l) :
    groupLoad group load l (group m) ≤ groupLoad group load l (group a) := by
  rcases Prod.Lex.le_iff.mp (leastLoaded_le h ha) with less | ⟨same, _⟩
  · exact le_of_lt less
  · exact le_of_eq same

/-- Among the least loaded groups no member is less loaded than the choice. -/
theorem load_leastLoaded_le (h : leastLoaded group load l = some m) {a : α} (ha : a ∈ l)
    (least : groupLoad group load l (group a) ≤ groupLoad group load l (group m)) :
    load m ≤ load a := by
  rcases Prod.Lex.le_iff.mp (leastLoaded_le h ha) with less | ⟨_, own⟩
  · exact absurd less (not_lt.mpr least)
  · exact own

/-- The choice is idle exactly when a least loaded group has an idle member. -/
theorem leastLoaded_idle_iff (h : leastLoaded group load l = some m) :
    load m = 0 ↔ IdleInLeastGroup group load l := by
  constructor
  · intro idle
    exact ⟨m, leastLoaded_mem h, idle, fun b hb => groupLoad_leastLoaded_le h hb⟩
  · rintro ⟨a, ha, idle, least⟩
    have own := load_leastLoaded_le h ha (least m (leastLoaded_mem h))
    omega

theorem idleInLeastGroup_of_one_group (one : ∀ a ∈ l, ∀ b ∈ l, group a = group b)
    (idle : ∃ a ∈ l, load a = 0) : IdleInLeastGroup group load l := by
  obtain ⟨a, ha, zero⟩ := idle
  exact ⟨a, ha, zero, fun b hb => le_of_eq (by rw [one a ha b hb])⟩

theorem idleInLeastGroup_of_singletons
    (alone : ∀ a ∈ l, ∀ b ∈ l, group a = group b → load a = 0 → load b = 0)
    (idle : ∃ a ∈ l, load a = 0) : IdleInLeastGroup group load l := by
  obtain ⟨a, ha, zero⟩ := idle
  refine ⟨a, ha, zero, fun b _ => ?_⟩
  have empty : groupLoad group load l (group a) = 0 := by
    apply List.sum_eq_zero
    intro x hx
    obtain ⟨c, hc, rfl⟩ := List.mem_map.mp hx
    obtain ⟨member, same⟩ := List.mem_filter.mp hc
    exact alone a ha c member (by simpa using (of_decide_eq_true same).symm) zero
  rw [empty]
  exact Nat.zero_le _

end XttsServer.Foundations.LeastLoaded
