import Mathlib.Algebra.BigOperators.Group.Finset.Piecewise
import XttsServer.Foundations.Refinement
import XttsServer.Foundations.Sums

/-!
A service station: customers wait in one line for several servers, the first in line
is admitted first, and the line is closed to newcomers when it is too long. Some
customers go to a server directly. A server may have several customers at a time, but
the line only moves while some server has none.
-/

set_option autoImplicit false
set_option relaxedAutoImplicit false

namespace XttsServer.Foundations.Station

open XttsServer.Foundations XttsServer.Foundations.Transition

variable {κ ι : Type}

structure Rules (ι : Type) where
  servers : Finset ι
  /-- How many may wait behind the first in line; `none` for any number. -/
  capacity : Option Nat

variable {rules : Rules ι}

def Rules.room (rules : Rules ι) (length : Nat) : Bool := rules.capacity.all (length ≤ ·)

def Rules.full (rules : Rules ι) (length : Nat) : Bool := rules.capacity.any (· ≤ length)

structure State (κ ι : Type) where
  line : List κ
  serving : ι → List κ
  served : ι → Nat

def State.empty : State κ ι where
  line := []
  serving := fun _ => []
  served := fun _ => 0

inductive Event (κ ι : Type)
  | arrive (k : κ)
  | turnAway (k : κ)
  /-- The first in line goes to the server. -/
  | advance (i : ι)
  /-- A customer goes to the server without waiting. -/
  | direct (k : κ) (i : ι)
  | leave (k : κ) (i : ι)

inductive Obs (κ ι : Type)
  | arrived (k : κ)
  | turnedAway (k : κ)
  | admitted (k : κ) (i : ι)
  | direct (k : κ) (i : ι)
  | left (k : κ) (i : ι)
  deriving DecidableEq

/-! ### What a run has observed -/

@[simp] def Obs.arrived? : Obs κ ι → Option κ
  | .arrived k => some k
  | _ => none

@[simp] def Obs.admitted? : Obs κ ι → Option (κ × ι)
  | .admitted k i => some (k, i)
  | _ => none

@[simp] def Obs.direct? : Obs κ ι → Option (κ × ι)
  | .direct k i => some (k, i)
  | _ => none

@[simp] def Obs.started? : Obs κ ι → Option (κ × ι)
  | .admitted k i => some (k, i)
  | .direct k i => some (k, i)
  | _ => none

@[simp] def Obs.left? : Obs κ ι → Option (κ × ι)
  | .left k i => some (k, i)
  | _ => none

abbrev arrivals (tr : List (Obs κ ι)) : List κ := tr.filterMap Obs.arrived?

abbrev admissions (tr : List (Obs κ ι)) : List (κ × ι) := tr.filterMap Obs.admitted?

abbrev directs (tr : List (Obs κ ι)) : List (κ × ι) := tr.filterMap Obs.direct?

abbrev departures (tr : List (Obs κ ι)) : List (κ × ι) := tr.filterMap Obs.left?

private theorem comers_append (tr o : List (Obs κ ι)) :
    (arrivals (tr ++ o)).length + (directs (tr ++ o)).length =
      (arrivals tr).length + (directs tr).length + ((arrivals o).length + (directs o).length) := by
  simp only [arrivals, directs, List.filterMap_append, List.length_append]
  omega

variable [DecidableEq ι]

def startedAt (tr : List (Obs κ ι)) (i : ι) : List κ :=
  ((tr.filterMap Obs.started?).filter (·.2 = i)).map Prod.fst

def leftFrom (tr : List (Obs κ ι)) (i : ι) :
    List κ := ((departures tr).filter (·.2 = i)).map Prod.fst

private theorem startedAt_append (tr o : List (Obs κ ι)) (i : ι) :
    startedAt (tr ++ o) i = startedAt tr i ++ startedAt o i := by
  simp [startedAt]

private theorem leftFrom_append (tr o : List (Obs κ ι)) (i : ι) :
    leftFrom (tr ++ o) i = leftFrom tr i ++ leftFrom o i := by
  simp [leftFrom]

/-! ### The customers of a server -/

def State.begin (s : State κ ι) (k : κ) (i : ι) : State κ ι :=
  { s with serving := Function.update s.serving i (s.serving i ++ [k]) }

def State.load (s : State κ ι) (i : ι) : Nat := (s.serving i).length + s.served i

private theorem State.load_begin (s : State κ ι) (k : κ) (i j : ι) :
    (s.begin k i).load j = s.load j + if j = i then 1 else 0 := by
  by_cases here : j = i
  · subst here
    simp only [State.load, State.begin, Function.update_self, List.length_append,
      List.length_singleton, if_true]
    omega
  · simp [State.load, State.begin, here]

private theorem sum_load_begin (s : State κ ι) (k : κ) {i : ι} (member : i ∈ rules.servers) :
    ∑ j ∈ rules.servers, (s.begin k i).load j = ∑ j ∈ rules.servers, s.load j + 1 := by
  simp [State.load_begin, Finset.sum_add_distrib, member]

variable [DecidableEq κ]

def State.finish (s : State κ ι) (k : κ) (i : ι) : State κ ι :=
  { s with
    serving := Function.update s.serving i ((s.serving i).erase k)
    served := Function.update s.served i (s.served i + 1) }

theorem State.load_finish (s : State κ ι) {k : κ} {i : ι} (present : k ∈ s.serving i) (j : ι) :
    (s.finish k i).load j = s.load j := by
  by_cases here : j = i
  · subst here
    have one : 0 < (s.serving j).length := List.length_pos_of_mem present
    simp only [State.load, State.finish, Function.update_self, List.length_erase_of_mem present]
    omega
  · simp [State.load, State.finish, here]

/-! ### Steps -/

def step (rules : Rules ι) (s : State κ ι) : Event κ ι → Option (State κ ι × List (Obs κ ι))
  | .arrive k =>
      if rules.room s.line.length then some ({ s with line := s.line ++ [k] }, [.arrived k])
      else none
  | .turnAway k => if rules.full s.line.length then some (s, [.turnedAway k]) else none
  | .advance i =>
      match s.line with
      | [] => none
      | k :: rest =>
          if i ∈ rules.servers ∧ ∃ j ∈ rules.servers, s.serving j = [] then
            some (State.begin { s with line := rest } k i, [.admitted k i])
          else none
  | .direct k i => if i ∈ rules.servers then some (s.begin k i, [.direct k i]) else none
  | .leave k i =>
      if i ∈ rules.servers ∧ k ∈ s.serving i then some (s.finish k i, [.left k i]) else none

def station (rules : Rules ι) : Machine (State κ ι) (Event κ ι) (Obs κ ι) := ⟨.empty, step rules⟩

inductive Moves (rules : Rules ι) (s : State κ ι) : State κ ι → List (Obs κ ι) → Prop
  | arrive {k : κ} (room : rules.room s.line.length = true) :
      Moves rules s { s with line := s.line ++ [k] } [.arrived k]
  | turnAway {k : κ} (full : rules.full s.line.length = true) : Moves rules s s [.turnedAway k]
  | advance {k : κ} {rest : List κ} {i : ι} (line : s.line = k :: rest) (member : i ∈ rules.servers)
      (idle : ∃ j ∈ rules.servers, s.serving j = []) :
      Moves rules s (State.begin { s with line := rest } k i) [.admitted k i]
  | direct {k : κ} {i : ι} (member : i ∈ rules.servers) :
      Moves rules s (s.begin k i) [.direct k i]
  | leave {k : κ} {i : ι} (member : i ∈ rules.servers) (present : k ∈ s.serving i) :
      Moves rules s (s.finish k i) [.left k i]

variable {s t : State κ ι} {tr o : List (Obs κ ι)} {e : Event κ ι}

private theorem step_moves (h : step rules s e = some (t, o)) : Moves rules s t o := by
  cases e with
  | arrive k =>
    simp only [step] at h
    split_ifs at h with room
    obtain ⟨rfl, rfl⟩ := Prod.mk.inj (Option.some.inj h)
    exact .arrive room
  | turnAway k =>
    simp only [step] at h
    split_ifs at h with full
    obtain ⟨rfl, rfl⟩ := Prod.mk.inj (Option.some.inj h)
    exact .turnAway full
  | advance i =>
    simp only [step] at h
    split at h
    · cases h
    · rename_i k rest line
      split_ifs at h with fine
      obtain ⟨rfl, rfl⟩ := Prod.mk.inj (Option.some.inj h)
      exact .advance line fine.1 fine.2
  | direct k i =>
    simp only [step] at h
    split_ifs at h with member
    obtain ⟨rfl, rfl⟩ := Prod.mk.inj (Option.some.inj h)
    exact .direct member
  | leave k i =>
    simp only [step] at h
    split_ifs at h with fine
    obtain ⟨rfl, rfl⟩ := Prod.mk.inj (Option.some.inj h)
    exact .leave fine.1 fine.2

theorem Moves.run (h : Moves rules s t o) : Run (station rules) anyStep s o t := by
  cases h with
  | @arrive k room => exact .single (e := .arrive k) trivial (by simp [station, step, room])
  | @turnAway k full => exact .single (e := .turnAway k) trivial (by simp [station, step, full])
  | @advance k rest i line member idle =>
    refine .single (e := .advance i) trivial ?_
    simp only [station, step, line]
    exact if_pos ⟨member, idle⟩
  | @direct k i member => exact .single (e := .direct k i) trivial (by simp [station, step, member])
  | @leave k i member present =>
    exact .single (e := .leave k i) trivial (by simp [station, step, member, present])

/-! ### Laws of the station -/

/-- The line is first in, first out. -/
theorem arrivals_eq (h : Reach (station rules) anyStep tr s) :
    arrivals tr = (admissions tr).map Prod.fst ++ s.line := by
  induction h with
  | refl => rfl
  | tail _ _ step ih =>
    simp only [arrivals, admissions, List.filterMap_append, List.map_append] at ih ⊢
    rw [ih]
    cases step_moves step with
    | advance line => simp [List.filterMap_cons, line, State.begin]
    | _ => simp [List.filterMap_cons, State.begin, State.finish]

theorem line_length_le (h : Reach (station rules) anyStep tr s) {c : Nat}
    (bound : rules.capacity = some c) : s.line.length ≤ c + 1 := by
  induction h with
  | refl => exact Nat.zero_le _
  | tail _ _ step ih =>
    cases step_moves step with
    | arrive room =>
      rw [Rules.room, bound, Option.all_some, decide_eq_true_iff] at room
      simpa using room
    | advance line =>
      rw [line, List.length_cons] at ih
      exact Nat.le_of_succ_le ih
    | _ => exact ih

theorem served_eq (h : Reach (station rules) anyStep tr s) (i : ι) :
    s.served i = (leftFrom tr i).length := by
  induction h with
  | refl => rfl
  | tail _ _ step ih =>
    rw [leftFrom_append, List.length_append, ← ih]
    cases step_moves step with
    | @leave k j =>
      by_cases here : i = j
      · subst here
        simp [leftFrom, State.finish]
      · simp [leftFrom, State.finish, here, Ne.symm here]
    | _ => simp [leftFrom, List.filterMap_cons, State.begin]

theorem startedAt_perm (h : Reach (station rules) anyStep tr s) (i : ι) :
    (startedAt tr i).Perm (leftFrom tr i ++ s.serving i) := by
  induction h with
  | refl => exact .nil
  | @tail s t tr o e _ _ step ih =>
    rw [startedAt_append, leftFrom_append]
    cases step_moves step with
    | arrive | turnAway => simpa [startedAt, leftFrom, List.filterMap_cons] using ih
    | @advance k rest j | @direct k j =>
      by_cases here : i = j
      · subst here
        simpa [startedAt, leftFrom, List.filterMap_cons, State.begin] using ih.append_right [k]
      · simpa [startedAt, leftFrom, List.filterMap_cons, State.begin, here, Ne.symm here] using ih
    | @leave k j member present =>
      by_cases here : i = j
      · subst here
        have moved := (List.perm_cons_erase present).append_left (leftFrom tr i)
        simpa [startedAt, leftFrom, List.filterMap_cons, State.finish] using ih.trans moved
      · simpa [startedAt, leftFrom, List.filterMap_cons, State.finish, here, Ne.symm here] using ih

/-- Everybody who came is in line, being served, or has been served. -/
theorem balance (h : Reach (station rules) anyStep tr s) :
    s.line.length + ∑ i ∈ rules.servers, s.load i = (arrivals tr).length + (directs tr).length := by
  induction h with
  | refl => simp [station, State.empty, State.load]
  | @tail s t tr o e _ _ step ih =>
    rw [comers_append, ← ih]
    cases step_moves step with
    | @arrive k =>
      have same : ∀ i, State.load { s with line := s.line ++ [k] } i = s.load i := fun i => rfl
      simp only [same, List.length_append, List.length_singleton]
      change _ = _ + (1 + 0)
      omega
    | turnAway => rfl
    | @advance k rest i line member =>
      have same : ∀ i, State.load { s with line := rest } i = s.load i := fun i => rfl
      rw [line, List.length_cons, sum_load_begin _ k member]
      simp only [same]
      change rest.length + _ = _ + (0 + 0)
      omega
    | @direct k i member =>
      rw [sum_load_begin _ k member]
      change s.line.length + _ = _ + (0 + 1)
      omega
    | @leave k i member present =>
      simp only [State.load_finish _ present]
      rfl

end XttsServer.Foundations.Station
