import Mathlib.Algebra.BigOperators.Group.Finset.Piecewise
import Mathlib.Algebra.Order.BigOperators.Group.Finset
import Mathlib.Algebra.Order.Ring.Nat
import Mathlib.Data.Finset.Max
import Mathlib.Data.List.Dedup
import XttsServer.Foundations.LeastLoaded

/-!
How far loads are apart, and what routing to the least loaded member does to it.
One more request on a least value leaves the spread as it was or makes it one, so
loads that start even stay within one of each other.
-/

set_option autoImplicit false
set_option relaxedAutoImplicit false

namespace XttsServer.Foundations.Balance

open XttsServer.Foundations.LeastLoaded

universe u v

/-! ### Spread -/

def spread (xs : List ℕ) : ℕ := xs.max?.getD 0 - xs.min?.getD 0

private theorem spread_le_iff {xs : List ℕ} {d : ℕ} :
    spread xs ≤ d ↔ ∀ x ∈ xs, ∀ y ∈ xs, x ≤ y + d := by
  rcases eq_or_ne xs [] with rfl | some_value
  · simp [spread]
  · obtain ⟨greatest, max⟩ := Option.ne_none_iff_exists'.mp
      (mt List.max?_eq_none_iff.mp some_value)
    obtain ⟨least, min⟩ := Option.ne_none_iff_exists'.mp (mt List.min?_eq_none_iff.mp some_value)
    rw [spread, max, min, Option.getD_some, Option.getD_some, Nat.sub_le_iff_le_add']
    rw [List.max?_eq_some_iff] at max
    rw [List.min?_eq_some_iff] at min
    constructor
    · intro bound x hx y hy
      calc x ≤ greatest := max.2 x hx
        _ ≤ least + d := bound
        _ ≤ y + d := Nat.add_le_add_right (min.2 y hy) d
    · exact fun apart => apart greatest max.1 least min.1

/-- Where all that is new is one more than a least value, the spread does not grow beyond one. -/
private theorem spread_bump_le {xs ys : List ℕ} {m : ℕ} (member : m ∈ xs) (least : ∀ x ∈ xs, m ≤ x)
    (bump : ∀ y ∈ ys, y ∈ xs ∨ y = m + 1) : spread ys ≤ max (spread xs) 1 := by
  have apart := spread_le_iff.mp (le_refl (spread xs))
  rw [spread_le_iff]
  intro y hy z hz
  have bound : spread xs ≤ max (spread xs) 1 := le_max_left _ _
  have one : 1 ≤ max (spread xs) 1 := le_max_right _ _
  rcases bump y hy with old | rfl <;> rcases bump z hz with old' | rfl
  · exact (apart y old z old').trans (by omega)
  · exact (apart y old m member).trans (by omega)
  · exact (Nat.add_le_add_right (least z old') 1).trans (by omega)
  · omega

/-- Values that are within one of each other are their mean, rounded down or up. -/
private theorem floor_or_ceil {α : Type u} {s : Finset α} {f : α → ℕ} {total : ℕ}
    (sum : ∑ a ∈ s, f a = total) (even : ∀ a ∈ s, ∀ b ∈ s, f a ≤ f b + 1) {a : α} (member : a ∈ s) :
    f a = total / s.card ∨ f a = (total + s.card - 1) / s.card := by
  have some_member : 0 < s.card := Finset.card_pos.mpr ⟨a, member⟩
  obtain ⟨least, in_s, bound⟩ := Finset.exists_min_image s f ⟨a, member⟩
  have constant (k : ℕ) : ∑ _ ∈ s, k = s.card * k := by
    rw [Finset.sum_const, nsmul_eq_mul, Nat.cast_id]
  have upper : total < s.card * (f least + 1) := by
    rw [← sum, ← constant]
    exact Finset.sum_lt_sum (fun b hb => even b hb least in_s) ⟨least, in_s, Nat.lt_succ_self _⟩
  have next : s.card * (f least + 1) = s.card * f least + s.card := Nat.mul_succ _ _
  rcases Nat.eq_or_lt_of_le (bound a member) with same | more
  · have lower : s.card * f least ≤ total := by
      rw [← sum, ← constant]
      exact Finset.sum_le_sum bound
    refine .inl (Eq.symm (Nat.div_eq_of_lt_le ?_ ?_))
    · rw [← same, Nat.mul_comm]
      exact lower
    · rw [← same, Nat.mul_comm]
      exact upper
  · have lower : s.card * f least < total := by
      rw [← sum, ← constant]
      exact Finset.sum_lt_sum bound ⟨a, member, more⟩
    have above : f a = f least + 1 := le_antisymm (even a member least in_s) more
    refine .inr (Eq.symm (Nat.div_eq_of_lt_le ?_ ?_))
    · rw [above, Nat.mul_comm]
      omega
    · rw [above, Nat.succ_mul, Nat.mul_comm]
      omega

/-! ### Routing -/

section routing

variable {α : Type u} {γ : Type v} [DecidableEq γ] (group : α → γ) (load : α → ℕ)

def pick (l : List α) : Option ℕ :=
  (leastLoaded (fun p : α × ℕ => group p.1) (fun p => load p.1) l.zipIdx).map Prod.snd

def groups (l : List α) : List γ := (l.map group).dedup

def groupLoads (l : List α) : List ℕ := (groups group l).map (groupLoad group load l)

def memberLoads (l : List α) (g : γ) : List ℕ := (l.filter fun a => group a = g).map load

variable {group load} {l : List α} {i : ℕ} {g : γ}

private theorem mem_groups : g ∈ groups group l ↔ ∃ a ∈ l, group a = g := by
  rw [groups, List.mem_dedup, List.mem_map]

private theorem mem_memberLoads {k : ℕ} :
    k ∈ memberLoads group load l g ↔ ∃ a ∈ l, group a = g ∧ load a = k := by
  simp [memberLoads, and_assoc]

private theorem groupLoad_zipIdx (l : List α) (g : γ) :
    groupLoad (fun p : α × ℕ => group p.1) (fun p => load p.1) l.zipIdx g =
      groupLoad group load l g := by
  rw [groupLoad, groupLoad]
  conv_rhs => rw [← List.zipIdx_map_fst 0 l]
  rw [List.filter_map, List.map_map]
  rfl

theorem pick_least (picked : pick group load l = some i) : ∃ a, l[i]? = some a ∧
    (∀ b ∈ l, groupLoad group load l (group a) ≤ groupLoad group load l (group b)) ∧
    ∀ b ∈ l, group b = group a → load a ≤ load b := by
  obtain ⟨⟨a, j⟩, chosen, rfl⟩ := Option.map_eq_some_iff.mp picked
  have place {b : α} (member : b ∈ l) : ∃ k, (b, k) ∈ l.zipIdx := by
    obtain ⟨k, at'⟩ := List.getElem?_of_mem member
    exact ⟨k, List.mk_mem_zipIdx_iff_getElem?.mpr at'⟩
  refine ⟨a, List.mk_mem_zipIdx_iff_getElem?.mp (leastLoaded_mem chosen), fun b member => ?_, ?_⟩
  · obtain ⟨k, at'⟩ := place member
    have bound := groupLoad_leastLoaded_le chosen at'
    rwa [groupLoad_zipIdx, groupLoad_zipIdx] at bound
  · intro b member same
    obtain ⟨k, at'⟩ := place member
    exact load_leastLoaded_le chosen at' (le_of_eq (by rw [same]))

theorem pick_idle (picked : pick group load l = some i) (there : g ∈ groups group l)
    (idle : ∀ b ∈ l, group b = g → load b = 0) :
    ∃ a, l[i]? = some a ∧ load a = 0 ∧ ∀ b ∈ l, group b = group a → load b = 0 := by
  obtain ⟨a, at', least, -⟩ := pick_least picked
  obtain ⟨c, in_l, rfl⟩ := mem_groups.mp there
  have none : groupLoad group load l (group c) = 0 := by
    refine List.sum_eq_zero fun k hk => ?_
    obtain ⟨b, hb, rfl⟩ := List.mem_map.mp hk
    obtain ⟨member, same⟩ := List.mem_filter.mp hb
    exact idle b member (of_decide_eq_true same)
  have total : groupLoad group load l (group a) = 0 := Nat.le_zero.mp (none ▸ least c in_l)
  have all (b : α) (member : b ∈ l) (same : group b = group a) : load b = 0 :=
    List.sum_eq_zero_iff.mp total _
      (List.mem_map_of_mem (List.mem_filter.mpr ⟨member, decide_eq_true same⟩))
  exact ⟨a, at', all a (List.mem_of_getElem? at') rfl, all⟩

/-! ### One more request -/

variable {bump : α → α}

/-- The member at a position is exchanged for one of the same group with one request more. -/
structure Bump (group : α → γ) (load : α → ℕ) (bump : α → α) : Prop where
  group_eq : ∀ a, group (bump a) = group a
  load_eq : ∀ a, load (bump a) = load a + 1

omit [DecidableEq γ] in
private theorem modify_split (bump : α → α) {a : α} (at' : l[i]? = some a) :
    ∃ before after, l = before ++ a :: after ∧ l.modify i bump = before ++ bump a :: after := by
  obtain ⟨inside, rfl⟩ := List.getElem?_eq_some_iff.mp at'
  refine ⟨l.take i, l.drop (i + 1), ?_, List.modify_eq_take_cons_drop inside⟩
  rw [← List.drop_eq_getElem_cons inside, List.take_append_drop]

variable (bumps : Bump group load bump) {a : α} (at' : l[i]? = some a)

include bumps at'

private theorem groups_modify : groups group (l.modify i bump) = groups group l := by
  obtain ⟨before, after, here, there⟩ := modify_split bump at'
  rw [there, here, groups, groups]
  simp only [List.map_append, List.map_cons, bumps.group_eq]

private theorem groupLoad_modify (g : γ) : groupLoad group load (l.modify i bump) g =
    groupLoad group load l g + if group a = g then 1 else 0 := by
  obtain ⟨before, after, here, there⟩ := modify_split bump at'
  rw [there, here, groupLoad, groupLoad]
  simp only [List.filter_append, List.filter_cons, bumps.group_eq, decide_eq_true_eq]
  split_ifs with own
  · simp only [List.map_append, List.map_cons, List.sum_append, List.sum_cons, bumps.load_eq]
    omega
  · rfl

theorem members_modify_other (other : group a ≠ g) :
    ((l.modify i bump).filter fun b => group b = g) = l.filter fun b => group b = g := by
  obtain ⟨before, after, here, there⟩ := modify_split bump at'
  rw [there, here]
  simp only [List.filter_append, List.filter_cons, bumps.group_eq, decide_eq_true_eq, if_neg other]

private theorem mem_memberLoads_modify {k : ℕ}
    (member : k ∈ memberLoads group load (l.modify i bump) g) :
    k ∈ memberLoads group load l g ∨ k = load a + 1 := by
  obtain ⟨before, after, here, there⟩ := modify_split bump at'
  obtain ⟨b, in_l, same, rfl⟩ := mem_memberLoads.mp member
  rw [there, List.mem_append, List.mem_cons] at in_l
  rcases in_l with old | rfl | old
  · exact .inl (mem_memberLoads.mpr ⟨b, by simp [here, old], same, rfl⟩)
  · exact .inr (bumps.load_eq a)
  · exact .inl (mem_memberLoads.mpr ⟨b, by simp [here, old], same, rfl⟩)

omit at'

theorem spread_groupLoads_pick (picked : pick group load l = some i) :
    spread (groupLoads group load (l.modify i bump)) ≤ max
      (spread (groupLoads group load l)) 1 := by
  obtain ⟨a, at', least, -⟩ := pick_least picked
  have own : group a ∈ groups group l := mem_groups.mpr ⟨a, List.mem_of_getElem? at', rfl⟩
  refine spread_bump_le (m := groupLoad group load l (group a)) (List.mem_map_of_mem own) ?_ ?_
  · intro x member
    obtain ⟨g, in_groups, rfl⟩ := List.mem_map.mp member
    obtain ⟨b, in_l, rfl⟩ := mem_groups.mp in_groups
    exact least b in_l
  · intro y member
    rw [groupLoads, groups_modify bumps at', List.mem_map] at member
    obtain ⟨g, in_groups, rfl⟩ := member
    rw [groupLoad_modify bumps at']
    split_ifs with here
    · exact .inr (by rw [here])
    · exact .inl (List.mem_map_of_mem in_groups)

theorem spread_memberLoads_pick (picked : pick group load l = some i) (g : γ) :
    spread (memberLoads group load (l.modify i bump) g) ≤
      max (spread (memberLoads group load l g)) 1 := by
  obtain ⟨a, at', -, least⟩ := pick_least picked
  by_cases own : group a = g
  · subst own
    refine spread_bump_le (m := load a)
      (mem_memberLoads.mpr ⟨a, List.mem_of_getElem? at', rfl, rfl⟩) ?_ ?_
    · intro x member
      obtain ⟨b, in_l, same, rfl⟩ := mem_memberLoads.mp member
      exact least b in_l same
    · exact fun y member => mem_memberLoads_modify bumps at' member
  · rw [memberLoads, members_modify_other bumps at' own]
    exact le_max_left _ _

/-! ### Many requests -/

omit bumps

/-- `Routed l n l'`: from `l` to `l'` by `n` requests, each put on the member that is picked. -/
inductive Routed (group : α → γ) (load : α → ℕ) (l : List α) : ℕ → List α → Prop
  | refl : Routed group load l 0 l
  | tail {n : ℕ} {l' : List α} {i : ℕ} {bump : α → α} : Routed group load l n l' →
      Bump group load bump → pick group load l' = some i → Routed group load l (n + 1)
        (l'.modify i bump)

variable {n : ℕ} {l' : List α}

theorem Routed.groups_eq (h : Routed group load l n l') : groups group l' = groups group l := by
  induction h with
  | refl => rfl
  | tail _ bumps picked ih =>
    obtain ⟨a, at', -⟩ := pick_least picked
    rw [groups_modify bumps at', ih]

theorem Routed.total (h : Routed group load l n l') :
    ∑ g ∈ (groups group l).toFinset, groupLoad group load l' g =
      (∑ g ∈ (groups group l).toFinset, groupLoad group load l g) + n := by
  induction h with
  | refl => rfl
  | @tail n mid i bump before bumps picked ih =>
    obtain ⟨a, at', -⟩ := pick_least picked
    have own : group a ∈ (groups group l).toFinset := by
      rw [List.mem_toFinset, ← before.groups_eq, mem_groups]
      exact ⟨a, List.mem_of_getElem? at', rfl⟩
    simp only [groupLoad_modify bumps at', Finset.sum_add_distrib, ih, Finset.sum_ite_eq,
      if_pos own]
    rfl

theorem Routed.even (h : Routed group load l n l') (d : ℕ) (some_apart : 1 ≤ d)
    (groups_even : spread (groupLoads group load l) ≤ d)
    (members_even : ∀ g, spread (memberLoads group load l g) ≤ d) :
    spread (groupLoads group load l') ≤ d ∧ ∀ g, spread (memberLoads group load l' g) ≤ d := by
  induction h with
  | refl => exact ⟨groups_even, members_even⟩
  | tail _ bumps picked ih =>
    exact ⟨(spread_groupLoads_pick bumps picked).trans (max_le ih.1 some_apart),
      fun g => (spread_memberLoads_pick bumps picked g).trans (max_le (ih.2 g) some_apart)⟩

/-- From an idle start the groups share the requests evenly, and so do the members of each. -/
theorem Routed.balanced (h : Routed group load l n l') (idle : ∀ a ∈ l, load a = 0) :
    (∀ g ∈ groups group l, groupLoad group load l' g = n / (groups group l).length ∨
      groupLoad group load l' g = (n + (groups group l).length - 1) / (groups group l).length) ∧
    ∀ a ∈ l', ∀ b ∈ l', group a = group b → load a ≤ load b + 1 := by
  have empty (g : γ) : groupLoad group load l g = 0 := by
    refine List.sum_eq_zero fun k hk => ?_
    obtain ⟨b, hb, rfl⟩ := List.mem_map.mp hk
    exact idle b (List.mem_filter.mp hb).1
  have zero {xs : List ℕ} (all : ∀ x ∈ xs, x = 0) : spread xs ≤ 1 :=
    spread_le_iff.mpr fun x hx y _ => by
      rw [all x hx]
      exact Nat.zero_le _
  obtain ⟨groups_even, members_even⟩ := h.even 1 le_rfl
    (zero fun x member => by
      obtain ⟨g, -, rfl⟩ := List.mem_map.mp member
      exact empty g)
    (fun g => zero fun x member => by
      obtain ⟨a, in_l, -, rfl⟩ := mem_memberLoads.mp member
      exact idle a in_l)
  constructor
  · intro g there
    have total := h.total
    simp only [empty, Finset.sum_const_zero, Nat.zero_add] at total
    have card : (groups group l).toFinset.card = (groups group l).length :=
      List.toFinset_card_of_nodup (List.nodup_dedup _)
    rw [← card]
    have in_loads {g : γ} (in_groups : g ∈ (groups group l).toFinset) :
        groupLoad group load l' g ∈ groupLoads group load l' := by
      rw [List.mem_toFinset, ← h.groups_eq] at in_groups
      exact List.mem_map_of_mem in_groups
    exact floor_or_ceil total (fun g hg g' hg' =>
      spread_le_iff.mp groups_even _ (in_loads hg) _ (in_loads hg')) (List.mem_toFinset.mpr there)
  · intro a in_l b in_l' same
    exact spread_le_iff.mp (members_even (group b)) _ (mem_memberLoads.mpr ⟨a, in_l, same, rfl⟩) _
      (mem_memberLoads.mpr ⟨b, in_l', rfl, rfl⟩)

end routing

end XttsServer.Foundations.Balance
