import Mathlib.Data.List.Nodup

/-!
A pool of threads that take up the calls submitted to it in order. Calls are
told apart by name: no call is in the pool twice.
-/

set_option autoImplicit false
set_option relaxedAutoImplicit false

namespace XttsServer.Foundations

universe u v

/-- The calls that `size` threads run, each with the time at which a thread took it up, and those
that wait for a thread, the next one first. -/
structure Executor (κ : Type u) (τ : Type v) (size : Nat) where
  running : List (κ × τ)
  waiting : List κ
  distinct : (running.map Prod.fst ++ waiting).Nodup
  bounded : running.length ≤ size

namespace Executor

variable {κ : Type u} {τ : Type v} {size : Nat}

def idle : Executor κ τ size := ⟨[], [], List.nodup_nil, Nat.zero_le _⟩

def calls (p : Executor κ τ size) : List κ := p.running.map Prod.fst ++ p.waiting

/-- The head of the waiting calls is taken up, if a thread is free. -/
def start (p : Executor κ τ size) (now : τ) : Option (κ × Executor κ τ size) :=
  match h : p.waiting with
  | [] => none
  | c :: rest =>
      if free : p.running.length < size then
        some (c, ⟨p.running ++ [(c, now)], rest, by simpa [h] using p.distinct,
          by simpa [Nat.succ_le_iff] using free⟩)
      else none

@[simp] theorem calls_idle : (idle : Executor κ τ size).calls = [] := rfl

theorem start_eq_some {p p' : Executor κ τ size} {now : τ} {c : κ}
    (h : p.start now = some (c, p')) :
    p.waiting = c :: p'.waiting ∧ p'.running = p.running ++ [(c, now)] := by
  unfold start at h
  split at h
  · cases h
  · rename_i c' rest waiting
    split_ifs at h
    obtain ⟨rfl, rfl⟩ := Prod.mk.inj (Option.some.inj h)
    exact ⟨waiting, rfl⟩

theorem calls_start {p p' : Executor κ τ size} {now : τ} {c : κ}
    (h : p.start now = some (c, p')) : p'.calls = p.calls := by
  obtain ⟨waiting, running⟩ := start_eq_some h
  simp [calls, waiting, running]

/-- A pool with a call in it runs one, or a thread can take one up. -/
theorem running_or_start {p : Executor κ τ size} (threads : 0 < size) (some_call : p.calls ≠ [])
    (now : τ) : p.running ≠ [] ∨ ∃ c p', p.start now = some (c, p') := by
  by_cases none : p.running = []
  · right
    unfold start
    split
    · rename_i waiting
      exact absurd (by simp [calls, none, waiting]) some_call
    · have free : p.running.length < size := by simpa [none] using threads
      exact ⟨_, _, dif_pos free⟩
  · exact .inl none

variable [DecidableEq κ]

def submit (p : Executor κ τ size) (c : κ) : Executor κ τ size :=
  if new : c ∈ p.calls then p
  else
    ⟨p.running, p.waiting ++ [c], by
      rw [← List.append_assoc, List.nodup_append]
      refine ⟨p.distinct, List.nodup_singleton c, ?_⟩
      rintro a old b last rfl
      exact new (List.mem_singleton.mp last ▸ old), p.bounded⟩

/-- A call that no thread has taken up is given up. -/
def cancel (p : Executor κ τ size) (c : κ) : Executor κ τ size :=
  ⟨p.running, p.waiting.erase c,
    p.distinct.sublist (List.Sublist.append_left List.erase_sublist _), p.bounded⟩

def finish (p : Executor κ τ size) (c : κ) : Executor κ τ size :=
  ⟨p.running.filter fun r => r.1 ≠ c, p.waiting,
    p.distinct.sublist (List.Sublist.append_right (List.filter_sublist.map _) _),
    Nat.le_trans (List.length_filter_le _ _) p.bounded⟩

/-- When the call was taken up, if a thread runs it. -/
def started? (p : Executor κ τ size) (c : κ) : Option τ :=
  (p.running.find? fun r => r.1 = c).map Prod.snd

theorem started?_isSome {p : Executor κ τ size} {c : κ} (running : c ∈ p.running.map Prod.fst) :
    ∃ t, p.started? c = some t := by
  obtain ⟨r, member, rfl⟩ := List.mem_map.mp running
  rw [← Option.isSome_iff_exists, started?, Option.isSome_map, List.find?_isSome]
  exact ⟨r, member, by simp⟩

theorem running_of_started? {p : Executor κ τ size} {c : κ} {t : τ} (h : p.started? c = some t) :
    c ∈ p.running.map Prod.fst := by
  obtain ⟨r, found, -⟩ := Option.map_eq_some_iff.mp h
  have same : r.1 = c := by simpa using List.find?_some found
  exact same ▸ List.mem_map_of_mem (List.mem_of_find?_eq_some found)

theorem mem_calls_of_started? {p : Executor κ τ size} {c : κ} {t : τ} (h : p.started? c = some t) :
    c ∈ p.calls := List.mem_append_left _ (running_of_started? h)

@[simp] theorem running_submit (p : Executor κ τ size) (c : κ) :
    (p.submit c).running = p.running := by
  unfold submit
  split <;> rfl

private theorem waiting_submit {p : Executor κ τ size} {c : κ} (new : c ∉ p.calls) :
    (p.submit c).waiting = p.waiting ++ [c] := by rw [submit, dif_neg new]

theorem countP_waiting_submit (p : Executor κ τ size) (c : κ) (f : κ → Bool) :
    (p.submit c).waiting.countP f ≤ p.waiting.countP f + 1 := by
  by_cases old : c ∈ p.calls
  · rw [submit, dif_pos old]
    exact Nat.le_succ _
  · rw [waiting_submit old, List.countP_append]
    exact Nat.add_le_add_left List.countP_le_length _

theorem mem_calls_submit {p : Executor κ τ size} {c d : κ} :
    d ∈ (p.submit c).calls ↔ d ∈ p.calls ∨ d = c := by
  by_cases old : c ∈ p.calls
  · rw [submit, dif_pos old]
    exact ⟨.inl, fun h => h.elim id fun same => same ▸ old⟩
  · simp [calls, waiting_submit old, or_assoc]

theorem mem_calls_finish {p : Executor κ τ size} {c d : κ} (running : c ∈ p.running.map Prod.fst) :
    d ∈ (p.finish c).calls ↔ d ∈ p.calls ∧ d ≠ c := by
  have apart : c ∉ p.waiting := fun waits =>
    (List.nodup_append.mp p.distinct).2.2 c running c waits rfl
  simp only [calls, finish, List.mem_append, List.mem_map, List.mem_filter, decide_not,
    Bool.not_eq_true', decide_eq_false_iff_not]
  constructor
  · rintro (⟨r, ⟨member, other⟩, rfl⟩ | waits)
    · exact ⟨.inl ⟨r, member, rfl⟩, other⟩
    · exact ⟨.inr waits, fun same => apart (same ▸ waits)⟩
  · rintro ⟨⟨r, member, rfl⟩ | waits, other⟩
    · exact .inl ⟨r, ⟨member, other⟩, rfl⟩
    · exact .inr waits

@[simp] theorem waiting_finish (p : Executor κ τ size) (c : κ) :
    (p.finish c).waiting = p.waiting := rfl

/-! ### The work of the pool -/

/-- What the calls have ahead of them: to be taken up and to be done. -/
def load (p : Executor κ τ size) : Nat := 2 * p.waiting.length + p.running.length

omit [DecidableEq κ] in
theorem load_start {p p' : Executor κ τ size} {now : τ} {c : κ} (h : p.start now = some (c, p')) :
    p'.load < p.load := by
  obtain ⟨waiting, running⟩ := start_eq_some h
  rw [load, load, waiting, running, List.length_cons, List.length_append, List.length_singleton]
  omega

theorem load_submit (p : Executor κ τ size) (c : κ) : (p.submit c).load ≤ p.load + 2 := by
  by_cases old : c ∈ p.calls
  · rw [submit, dif_pos old]
    exact Nat.le_add_right _ _
  · rw [load, load, waiting_submit old, running_submit, List.length_append, List.length_singleton]
    omega

theorem load_cancel (p : Executor κ τ size) (c : κ) : (p.cancel c).load ≤ p.load :=
  Nat.add_le_add_right (Nat.mul_le_mul_left 2 (List.length_erase_le ..)) _

theorem load_finish (p : Executor κ τ size) (c : κ) : (p.finish c).load ≤ p.load :=
  Nat.add_le_add_left (List.length_filter_le ..) _

theorem load_finish_lt {p : Executor κ τ size} {c : κ} (running : c ∈ p.running.map Prod.fst) :
    (p.finish c).load < p.load := by
  obtain ⟨r, member, rfl⟩ := List.mem_map.mp running
  refine Nat.add_lt_add_left (List.length_filter_lt_length_iff_exists.mpr ⟨r, member, ?_⟩) _
  simp

end Executor

end XttsServer.Foundations
