import Mathlib.Data.List.Nodup
import Mathlib.Data.List.Count

/-!
Ledgers of slots: a log of takes and gives, each of a key at a place. A log is
sound when no key is taken twice and only what is outstanding is given back.
-/

set_option autoImplicit false
set_option relaxedAutoImplicit false

namespace XttsServer.Foundations.Ledger

universe u v

inductive Entry (κ : Type u) (ι : Type v)
  | take (key : κ) (place : ι)
  | give (key : κ) (place : ι)
  deriving DecidableEq

variable {κ : Type u} {ι : Type v}

def taken (log : List (Entry κ ι)) : List (κ × ι) :=
  log.filterMap fun | .take k i => some (k, i) | .give _ _ => none

def given (log : List (Entry κ ι)) : List (κ × ι) :=
  log.filterMap fun | .take _ _ => none | .give k i => some (k, i)

@[simp] theorem taken_nil : taken ([] : List (Entry κ ι)) = [] := rfl

@[simp] theorem taken_take (log : List (Entry κ ι)) (k : κ) (i : ι) :
    taken (log ++ [.take k i]) = taken log ++ [(k, i)] := by simp [taken]

@[simp] theorem taken_give (log : List (Entry κ ι)) (k : κ) (i : ι) :
    taken (log ++ [.give k i]) = taken log := by simp [taken]

@[simp] theorem given_take (log : List (Entry κ ι)) (k : κ) (i : ι) :
    given (log ++ [.take k i]) = given log := by simp [given]

@[simp] theorem given_give (log : List (Entry κ ι)) (k : κ) (i : ι) :
    given (log ++ [.give k i]) = given log ++ [(k, i)] := by simp [given]

variable [DecidableEq κ] [DecidableEq ι]

def settle (pending : List (κ × ι)) : Entry κ ι → List (κ × ι)
  | .take k i => pending ++ [(k, i)]
  | .give k i => pending.erase (k, i)

/-- What has been taken and not been given back, in the order of the takes. -/
def outstanding (log : List (Entry κ ι)) : List (κ × ι) := log.foldl settle []

@[simp] theorem outstanding_take (log : List (Entry κ ι)) (k : κ) (i : ι) :
    outstanding (log ++ [.take k i]) = outstanding log ++ [(k, i)] := by
  simp [outstanding, settle]

@[simp] theorem outstanding_give (log : List (Entry κ ι)) (k : κ) (i : ι) :
    outstanding (log ++ [.give k i]) = (outstanding log).erase (k, i) := by
  simp [outstanding, settle]

/-- No key is taken twice, and only what is outstanding is given back. -/
inductive Sound : List (Entry κ ι) → Prop
  | nil : Sound []
  | take {log : List (Entry κ ι)} {k : κ} {i : ι} (earlier : Sound log)
      (new : k ∉ (taken log).map Prod.fst) : Sound (log ++ [.take k i])
  | give {log : List (Entry κ ι)} {k : κ} {i : ι} (earlier : Sound log)
      (owed : (k, i) ∈ outstanding log) : Sound (log ++ [.give k i])

variable {log : List (Entry κ ι)}

theorem Sound.taken_nodup (h : Sound log) : ((taken log).map Prod.fst).Nodup := by
  induction h with
  | nil => exact List.nodup_nil
  | take _ new ih =>
    rw [taken_take, List.map_append, List.nodup_append]
    refine ⟨ih, List.nodup_singleton _, ?_⟩
    rintro a ha b hb rfl
    obtain rfl : a = _ := List.mem_singleton.mp hb
    exact new ha
  | give _ _ ih =>
    rw [taken_give]
    exact ih

theorem Sound.outstanding_sublist (h : Sound log) : (outstanding log).Sublist (taken log) := by
  induction h with
  | nil => exact List.Sublist.slnil
  | take _ _ ih =>
    rw [outstanding_take, taken_take]
    exact ih.append (List.Sublist.refl _)
  | give _ _ ih =>
    rw [outstanding_give, taken_give]
    exact List.erase_sublist.trans ih

theorem Sound.outstanding_nodup (h : Sound log) : ((outstanding log).map Prod.fst).Nodup :=
  h.taken_nodup.sublist (h.outstanding_sublist.map Prod.fst)

theorem Sound.outstanding_place (h : Sound log) {k : κ} {i i' : ι} (a : (k, i) ∈ outstanding log)
    (b : (k, i') ∈ outstanding log) : i = i' :=
  (Prod.mk.inj (List.inj_on_of_nodup_map h.outstanding_nodup a b rfl)).2

theorem Sound.mem_outstanding_erase (h : Sound log) {k : κ} {i : ι}
    (owed : (k, i) ∈ outstanding log) (p : κ × ι) :
    p ∈ (outstanding log).erase (k, i) ↔ p ∈ outstanding log ∧ p.1 ≠ k := by
  rw [h.outstanding_nodup.of_map.mem_erase_iff]
  constructor
  · rintro ⟨other, member⟩
    refine ⟨member, fun same => other ?_⟩
    exact List.inj_on_of_nodup_map h.outstanding_nodup member owed same
  · rintro ⟨member, other⟩
    exact ⟨fun same => other (congrArg Prod.fst same), member⟩

theorem Sound.given_subset (h : Sound log) : given log ⊆ taken log := by
  induction h with
  | nil => exact List.nil_subset _
  | take _ _ ih =>
    rw [given_take, taken_take]
    exact fun p hp => List.mem_append_left _ (ih hp)
  | give earlier owed ih =>
    rw [given_give, taken_give]
    intro p hp
    rcases List.mem_append.mp hp with old | same
    · exact ih old
    · rw [List.mem_singleton.mp same]
      exact earlier.outstanding_sublist.subset owed

/-- What is outstanding is what was taken and has not been given back, in the same order. -/
private theorem Sound.outstanding_eq (h : Sound log) :
    outstanding log = (taken log).filter (· ∉ given log) := by
  induction h with
  | nil => rfl
  | @take log k i earlier new ih =>
    have unreturned : (k, i) ∉ given log := fun back =>
      new (List.mem_map.mpr ⟨_, earlier.given_subset back, rfl⟩)
    rw [outstanding_take, taken_take, given_take, List.filter_append, ih]
    simp [unreturned]
  | @give log k i earlier owed ih =>
    rw [outstanding_give, taken_give, given_give,
      List.Nodup.erase_eq_filter earlier.outstanding_nodup.of_map, ih, List.filter_filter]
    apply List.filter_congr
    intro p _
    rw [Bool.eq_iff_iff]
    simp [and_comm]

private theorem Sound.mem_outstanding_iff (h : Sound log) (p : κ × ι) :
    p ∈ outstanding log ↔ p ∈ taken log ∧ p ∉ given log := by
  rw [h.outstanding_eq]
  simp

theorem Sound.given_nodup (h : Sound log) : ((given log).map Prod.fst).Nodup := by
  induction h with
  | nil => exact List.nodup_nil
  | take _ _ ih =>
    rw [given_take]
    exact ih
  | @give log k i earlier owed ih =>
    rw [given_give, List.map_append, List.nodup_append]
    refine ⟨ih, List.nodup_singleton _, ?_⟩
    rintro a ha b hb rfl
    obtain rfl : a = k := List.mem_singleton.mp hb
    obtain ⟨p, back, same⟩ := List.mem_map.mp ha
    have once : p = (a, i) := List.inj_on_of_nodup_map earlier.taken_nodup
      (earlier.given_subset back) (earlier.outstanding_sublist.subset owed) same
    exact ((earlier.mem_outstanding_iff _).mp owed).2 (once ▸ back)

/-! ### The view of one place -/

section Place

variable {κ : Type u} {ι : Type v} [DecidableEq ι]

def atPlace (i : ι) (l : List (κ × ι)) : List κ := (l.filter fun p => p.2 = i).map Prod.fst

theorem atPlace_concat (i : ι) (l : List (κ × ι)) (p : κ × ι) :
    atPlace i (l ++ [p]) = if p.2 = i then atPlace i l ++ [p.1] else atPlace i l := by
  by_cases here : p.2 = i <;> simp [atPlace, List.filter_append, here]

theorem mem_atPlace {i : ι} {l : List (κ × ι)} {k : κ} : k ∈ atPlace i l ↔ (k, i) ∈ l := by
  simp [atPlace]

theorem atPlace_sublist (i : ι) (l : List (κ × ι)) :
    (atPlace i l).Sublist (l.map Prod.fst) := List.filter_sublist.map Prod.fst

end Place

theorem Sound.atPlace_outstanding (h : Sound log) (i : ι) :
    atPlace i (outstanding log) = (atPlace i (taken log)).filter (· ∉ atPlace i (given log)) := by
  rw [h.outstanding_eq]
  unfold atPlace
  rw [List.filter_map, List.filter_filter, List.filter_filter]
  congr 1
  apply List.filter_congr
  rintro ⟨k, i'⟩ _
  rw [Bool.eq_iff_iff]
  by_cases here : i' = i <;> simp [here]

theorem Sound.atPlace_give (h : Sound log) {k : κ} {i : ι} (owed : (k, i) ∈ outstanding log)
    (j : ι) : atPlace j ((outstanding log).erase (k, i)) =
      if i = j then (atPlace j (outstanding log)).erase k else atPlace j (outstanding log) := by
  have only : ∀ p ∈ outstanding log, p.1 = k ↔ p = (k, i) := fun p hp =>
    ⟨List.inj_on_of_nodup_map h.outstanding_nodup hp owed, fun e => congrArg Prod.fst e⟩
  have erased : (outstanding log).erase (k, i) = (outstanding log).filter (·.1 ≠ k) := by
    rw [List.Nodup.erase_eq_filter h.outstanding_nodup.of_map]
    apply List.filter_congr
    intro p hp
    rw [Bool.eq_iff_iff]
    simp [only p hp]
  rw [erased, atPlace, List.filter_comm]
  by_cases here : i = j
  · have nodup := h.outstanding_nodup.sublist (atPlace_sublist j (outstanding log))
    rw [if_pos here, nodup.erase_eq_filter, atPlace, List.filter_map]
    congr 1
    apply List.filter_congr
    intro p _
    rw [Bool.eq_iff_iff]
    simp
  · rw [if_neg here, atPlace]
    congr 1
    apply List.filter_eq_self.mpr
    intro p hp
    obtain ⟨member, place⟩ := List.mem_filter.mp hp
    have elsewhere : p.1 ≠ k := fun same => by
      rw [(only p member).mp same] at place
      exact here (of_decide_eq_true place)
    simpa using elsewhere

end XttsServer.Foundations.Ledger
