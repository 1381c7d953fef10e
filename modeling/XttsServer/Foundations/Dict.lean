import Mathlib.Data.List.Nodup
import Mathlib.Logic.Function.Basic

/-!
Insertion-ordered dictionaries: the keys are pairwise distinct by construction,
assigning to a present key keeps its place and a new key goes to the end. Where the
order does not matter a table is a function, and an assignment updates it.
-/

set_option autoImplicit false
set_option relaxedAutoImplicit false

namespace XttsServer.Foundations

universe u v

/-- A list of entries that carries the distinctness of its keys. -/
structure Dict (κ : Type u) (α : Type v) where
  entries : List (κ × α)
  nodup : (entries.map Prod.fst).Nodup
  deriving DecidableEq

namespace Dict

variable {κ : Type u} {α : Type v}

def empty : Dict κ α := ⟨[], List.nodup_nil⟩

def keys (d : Dict κ α) : List κ := d.entries.map Prod.fst

def size (d : Dict κ α) : Nat := d.entries.length

theorem keys_nodup (d : Dict κ α) : d.keys.Nodup := d.nodup

theorem length_keys (d : Dict κ α) : d.keys.length = d.size := List.length_map _

variable [DecidableEq κ]

def get? (d : Dict κ α) (k : κ) : Option α :=
  (d.entries.find? fun e => e.1 = k).map Prod.snd

/-- Change the value of a key where it stands; an absent key stays absent. -/
def modify (d : Dict κ α) (k : κ) (f : α → α) : Dict κ α where
  entries := d.entries.map fun e => if e.1 = k then (e.1, f e.2) else e
  nodup := by
    have same : (d.entries.map fun e => if e.1 = k then (e.1, f e.2) else e).map Prod.fst =
        d.entries.map Prod.fst := by
      rw [List.map_map]
      apply List.map_congr_left
      intro e _
      by_cases h : e.1 = k <;> simp [h]
    rw [same]
    exact d.nodup

def erase (d : Dict κ α) (k : κ) : Dict κ α where
  entries := d.entries.filter fun e => e.1 ≠ k
  nodup := d.nodup.sublist (List.filter_sublist.map Prod.fst)

def filterKeys (d : Dict κ α) (f : κ → Bool) : Dict κ α where
  entries := d.entries.filter fun e => f e.1
  nodup := d.nodup.sublist (List.filter_sublist.map Prod.fst)

/-- Assign to a key: in place when it is present, at the end when it is new. -/
def set (d : Dict κ α) (k : κ) (x : α) : Dict κ α :=
  if h : k ∈ d.keys then d.modify k fun _ => x
  else ⟨d.entries ++ [(k, x)], by
    rw [List.map_append, List.nodup_append]
    refine ⟨d.nodup, by simp, ?_⟩
    rintro a ha b hb rfl
    obtain rfl : a = k := by simpa using hb
    exact h ha⟩

@[simp] theorem get?_empty (k : κ) : (empty : Dict κ α).get? k = none := rfl

theorem get?_eq_some_iff (d : Dict κ α) (k : κ) (x : α) :
    d.get? k = some x ↔ (k, x) ∈ d.entries := by
  constructor
  · intro h
    obtain ⟨⟨k', y⟩, found, rfl⟩ := Option.map_eq_some_iff.mp h
    have hk : k' = k := by simpa using List.find?_some found
    exact hk ▸ List.mem_of_find?_eq_some found
  · intro member
    cases found : d.entries.find? fun e => e.1 = k with
    | none =>
      have absent := List.find?_eq_none.mp found _ member
      simp at absent
    | some e =>
      obtain ⟨k', y⟩ := e
      have hk : k' = k := by simpa using List.find?_some found
      have here := List.mem_of_find?_eq_some found
      subst hk
      have same := List.inj_on_of_nodup_map d.nodup here member rfl
      simp [get?, found, (Prod.mk.inj same).2]

theorem mem_keys_iff (d : Dict κ α) (k : κ) : k ∈ d.keys ↔ ∃ x, d.get? k = some x := by
  simp [keys, get?_eq_some_iff]

theorem get?_eq_none_iff (d : Dict κ α) (k : κ) : d.get? k = none ↔ k ∉ d.keys := by
  rw [mem_keys_iff]
  cases d.get? k <;> simp

theorem get?_modify (d : Dict κ α) (k : κ) (f : α → α) (j : κ) :
    (d.modify k f).get? j = if j = k then (d.get? k).map f else d.get? j := by
  apply Option.ext
  intro y
  rw [get?_eq_some_iff]
  simp only [modify, List.mem_map]
  by_cases hj : j = k
  · subst hj
    rw [if_pos rfl, Option.map_eq_some_iff]
    constructor
    · rintro ⟨⟨k', x⟩, member, same⟩
      by_cases hk : k' = j
      · subst hk
        simp only [if_true, Prod.mk.injEq, true_and] at same
        exact ⟨x, (get?_eq_some_iff d _ x).mpr member, same⟩
      · simp only [if_neg hk, Prod.mk.injEq] at same
        exact absurd same.1 hk
    · rintro ⟨x, found, rfl⟩
      exact ⟨(j, x), (get?_eq_some_iff d j x).mp found, by simp⟩
  · rw [if_neg hj, get?_eq_some_iff]
    constructor
    · rintro ⟨⟨k', x⟩, member, same⟩
      by_cases hk : k' = k
      · simp only [hk, if_true, Prod.mk.injEq] at same
        exact absurd same.1.symm hj
      · simp only [if_neg hk] at same
        exact same ▸ member
    · intro member
      exact ⟨(j, y), member, by simp [hj]⟩

theorem get?_erase (d : Dict κ α) (k j : κ) :
    (d.erase k).get? j = if j = k then none else d.get? j := by
  apply Option.ext
  intro y
  rw [get?_eq_some_iff]
  by_cases hj : j = k
  · subst hj
    simp [erase]
  · rw [if_neg hj, get?_eq_some_iff]
    simp [erase, hj]

theorem get?_filterKeys (d : Dict κ α) (f : κ → Bool) (j : κ) :
    (d.filterKeys f).get? j = if f j then d.get? j else none := by
  apply Option.ext
  intro y
  rw [get?_eq_some_iff]
  by_cases kept : f j = true
  · rw [if_pos kept, get?_eq_some_iff]
    simp [filterKeys, kept]
  · rw [if_neg kept]
    simp [filterKeys, kept]

@[simp] theorem keys_modify (d : Dict κ α) (k : κ) (f : α → α) : (d.modify k f).keys = d.keys := by
  simp only [keys, modify, List.map_map]
  apply List.map_congr_left
  intro e _
  by_cases h : e.1 = k <;> simp [h]

theorem keys_erase (d : Dict κ α) (k : κ) : (d.erase k).keys = d.keys.erase k := by
  rw [List.Nodup.erase_eq_filter d.keys_nodup, keys, keys, erase, List.filter_map]
  congr 1
  apply List.filter_congr
  intro e _
  rw [Bool.eq_iff_iff]
  simp

theorem keys_set_of_notMem (d : Dict κ α) (k : κ) (x : α) (new : k ∉ d.keys) :
    (d.set k x).keys = d.keys ++ [k] := by
  rw [set, dif_neg new]
  simp [keys]

theorem mem_keys_set (d : Dict κ α) (k j : κ) (x : α) :
    j ∈ (d.set k x).keys ↔ j ∈ d.keys ∨ j = k := by
  by_cases h : k ∈ d.keys
  · simp only [set, dif_pos h, keys_modify]
    constructor
    · exact Or.inl
    · rintro (hj | rfl)
      · exact hj
      · exact h
  · rw [keys_set_of_notMem d k x h, List.mem_append, List.mem_singleton]

theorem get?_set (d : Dict κ α) (k j : κ) (x : α) :
    (d.set k x).get? j = if j = k then some x else d.get? j := by
  by_cases h : k ∈ d.keys
  · obtain ⟨y, found⟩ := (mem_keys_iff d k).mp h
    simp [set, h, get?_modify, found]
  · have new : d.get? k = none := (get?_eq_none_iff d k).mpr h
    apply Option.ext
    intro y
    rw [get?_eq_some_iff]
    simp only [set, dif_neg h, List.mem_append, List.mem_singleton, ← get?_eq_some_iff,
      Prod.mk.injEq]
    by_cases hj : j = k
    · subst hj
      simp [new, eq_comm]
    · simp [hj]

end Dict

section Update

variable {κ : Type u} {α : Type v} [DecidableEq κ] {f : κ → Option α} {k : κ} {x : α}

theorem some_of_update {j : κ} {y : α} (found : Function.update f k (some x) j = some y) :
    j = k ∧ y = x ∨ j ≠ k ∧ f j = some y := by
  by_cases here : j = k
  · rw [here, Function.update_self] at found
    exact .inl ⟨here, (Option.some.inj found).symm⟩
  · rw [Function.update_of_ne here] at found
    exact .inr ⟨here, found⟩

theorem forall_of_update {p : κ → α → Prop} (new : p k x) (old : ∀ j y, f j = some y → p j y) :
    ∀ j y, Function.update f k (some x) j = some y → p j y := by
  intro j y found
  rcases some_of_update found with ⟨rfl, rfl⟩ | ⟨-, there⟩
  · exact new
  · exact old j y there

end Update

end XttsServer.Foundations
