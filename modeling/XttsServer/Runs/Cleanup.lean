import XttsServer.Foundations.Refinement
import XttsServer.Model.Cleanup
import XttsServer.Runs.Records
import XttsServer.Runs.Pipeline

/-!
How the records of the job store grow old: what is not a pass of the eviction keeps
every record, and stamps it with the current time or leaves its `finished_at`.
-/

set_option autoImplicit false
set_option relaxedAutoImplicit false

namespace XttsServer.Model

open XttsServer.Foundations XttsServer.Foundations.Transition

variable {cfg : Config} {P : State → Event → Prop} {s s' s₀ : State} {e : Event}
  {tr tr' o : List Obs} {lo mid hi now : ℚ} {old store new : JobStore}

/-! ### Stamps -/

def Job.FinishedIn (lo hi : ℚ) (job : Job) : Prop :=
  ∃ t, job.finishedAt = some t ∧ lo ≤ t ∧ t ≤ hi

/-- From `old` to `new` in the span from `lo` to `hi`, without an eviction. -/
structure Aging (lo hi : ℚ) (old new : JobStore) : Prop where
  kept : ∀ j job, old.get? j = some job → ∃ job', new.get? j = some job' ∧
    (job'.finishedAt = job.finishedAt ∨ job'.FinishedIn lo hi)
  stamped : ∀ j job', new.get? j = some job' → job'.FinishedIn lo hi ∨
    (job'.finishedAt = none ∧ job'.status.terminal = false) ∨
    ∃ job, old.get? j = some job ∧ job'.finishedAt = job.finishedAt ∧
      (job'.status.terminal = true → job.status.terminal = true)

theorem Job.FinishedIn.mono {job : Job} (h : job.FinishedIn lo hi) {lo' hi' : ℚ}
    (earlier : lo' ≤ lo) (later : hi ≤ hi') : job.FinishedIn lo' hi' := by
  obtain ⟨t, finished, low, high⟩ := h
  exact ⟨t, finished, earlier.trans low, high.trans later⟩

namespace Aging

private theorem refl (store : JobStore) : Aging lo hi store store where
  kept _ job found := ⟨job, found, .inl rfl⟩
  stamped _ job found := .inr (.inr ⟨job, found, rfl, id⟩)

private theorem trans (first : Aging lo mid old store) (second : Aging mid hi store new)
    (le : lo ≤ mid) (le' : mid ≤ hi) : Aging lo hi old new where
  kept j job found := by
    obtain ⟨job₁, found₁, stamp₁⟩ := first.kept j job found
    obtain ⟨job₂, found₂, stamp₂⟩ := second.kept j job₁ found₁
    refine ⟨job₂, found₂, ?_⟩
    rcases stamp₂ with same | fresh
    · rcases stamp₁ with same₁ | ⟨t, finished, low, high⟩
      · exact .inl (same.trans same₁)
      · exact .inr ⟨t, same.trans finished, low, high.trans le'⟩
    · exact .inr (fresh.mono le (le_refl _))
  stamped j job₂ found₂ := by
    rcases second.stamped j job₂ found₂ with fresh | unfinished | ⟨job₁, found₁, same, terminal⟩
    · exact .inl (fresh.mono le (le_refl _))
    · exact .inr (.inl unfinished)
    · rcases first.stamped j job₁ found₁ with ⟨t, finished, low, high⟩ | ⟨none, active⟩ |
        ⟨job, found, same₁, terminal₁⟩
      · exact .inl ⟨t, same.trans finished, low, high.trans le'⟩
      · refine .inr (.inl ⟨same.trans none, ?_⟩)
        cases closed : job₂.status.terminal with
        | false => rfl
        | true =>
          rw [terminal closed] at active
          cases active
      · exact .inr (.inr ⟨job, found, same.trans same₁, fun closed => terminal₁ (terminal closed)⟩)

private theorem modify (store : JobStore) (k : JobId) {f : Job → Job}
    (stamps : ∀ job, (f job).FinishedIn lo hi ∨ ((f job).finishedAt = job.finishedAt ∧
      ((f job).status.terminal = true → job.status.terminal = true))) :
    Aging lo hi store (Dict.modify store k f) where
  kept j job found := by
    rw [Dict.get?_modify]
    split_ifs with here
    · subst here
      exact ⟨f job, by rw [found, Option.map_some], (stamps job).symm.imp And.left id⟩
    · exact ⟨job, found, .inl rfl⟩
  stamped j job' found := by
    rw [Dict.get?_modify] at found
    split_ifs at found with here
    · subst here
      obtain ⟨job, there, rfl⟩ := Option.map_eq_some_iff.mp found
      exact (stamps job).imp id fun same => .inr ⟨job, there, same⟩
    · exact .inr (.inr ⟨job', found, rfl, id⟩)

private theorem create {store : JobStore} {k : JobId} (new : k ∉ store.keys)
    (text lang spk : String) : Aging lo hi store (store.create now k text lang spk) where
  kept j job found := by
    have other : j ≠ k := by
      rintro rfl
      exact new ((Dict.mem_keys_iff _ _).mpr ⟨job, found⟩)
    exact ⟨job, (JobStore.get?_create_of_ne _ _ _ _ _ _ other).trans found, .inl rfl⟩
  stamped j job' found := by
    obtain ⟨job, pristine, records⟩ := store.get?_create now k text lang spk
    rw [records] at found
    split_ifs at found
    · obtain rfl := Option.some.inj found
      exact .inr (.inl ⟨pristine.finished, by rw [pristine.status]; rfl⟩)
    · exact .inr (.inr ⟨job', found, rfl, id⟩)

private theorem markRunning (store : JobStore) (k : JobId) (workerId : String) (gpuIndex : Int)
    (ms : ℚ) : Aging lo hi store (store.markRunning now k workerId gpuIndex ms) :=
  .modify store k fun _ => .inr ⟨rfl, nofun⟩

private theorem markDone (store : JobStore) (k : JobId) (path : Path) :
    Aging now now store (store.markDone now k path) :=
  .modify store k fun _ => .inl ⟨now, rfl, le_refl _, le_refl _⟩

private theorem markFailed (store : JobStore) (k : JobId) (error : String) :
    Aging now now store (store.markFailed now k error) :=
  .modify store k fun _ => .inl ⟨now, rfl, le_refl _, le_refl _⟩

private theorem clearAudioPath (store : JobStore) (k : JobId) :
    Aging lo hi store (store.clearAudioPath k) :=
  .modify store k fun _ => .inr ⟨rfl, id⟩

private theorem failAll (store : JobStore) (error : String) (ids : List JobId) :
    Aging now now store (store.failAll now error ids) := by
  induction ids generalizing store with
  | nil => exact .refl store
  | cons k ids ih =>
    rw [JobStore.failAll, List.foldl_cons]
    exact (markFailed store k error).trans (ih _) (le_refl _) (le_refl _)

end Aging

/-! ### Changes -/

private theorem keys_used (h : Visit cfg P tr s) : s.jobs.keys ⊆ s.used := by
  induction h using visit_induction with
  | start => simp [State.init, Dict.keys, Dict.empty]
  | change before ih _ change =>
    have used := change.grows.1
    rcases change.keys with fewer | ⟨k, -, drawn, one, -⟩
    · exact fun j member => used (ih (fewer member))
    · intro j member
      rcases one j member with old | rfl
      · exact used (ih old)
      · exact drawn

private theorem aging_onComplete (cb : OnComplete) (w : WorkerRef) (result : SynthesisResult)
    (ms : ℚ) :
    Aging s.now s.now s.jobs (onComplete s cb w result ms).1.1.jobs := by
  cases cb with
  | bridge j => exact .refl _
  | store j fmt dir =>
    have running : Aging s.now s.now s.jobs (markRunning s j w ms).1.jobs ∧
        (markRunning s j w ms).1.now = s.now := by
      unfold markRunning
      split
      · exact ⟨.refl _, rfl⟩
      · exact ⟨.markRunning .., rfl⟩
    obtain ⟨aged, clock⟩ := running
    simp only [onComplete, markFailed, clock]
    split
    · rename_i error _
      by_cases some_error : error ≠ ""
      · rw [if_pos some_error]
        exact aged.trans (.markFailed ..) (le_refl _) (le_refl _)
      · rw [if_neg some_error]
        exact aged
    · exact aged

private theorem Change.aging (before : Visit cfg P tr s) (other : e.evicts = false)
    (change : Change cfg s₀ e s s' o) : Aging s.now s'.now s.jobs s'.jobs := by
  have new : ∀ {k : JobId}, s.canDraw k → k ∉ s.jobs.keys :=
    fun fresh member => fresh.2 (keys_used before member)
  cases change with
  | jobQueued fresh => exact .create (new fresh) ..
  | jobRaised fresh => exact .create (new fresh) ..
  | jobTurnedAway fresh =>
    exact (Aging.create (new fresh) ..).trans (.markFailed ..) (le_refl _) (le_refl _)
  | batchRefused fresh =>
    exact (Aging.create (new fresh) ..).trans (.failAll ..) (le_refl _) (le_refl _)
  | @collected k w r cb t t0 outcome result workers drain i next jobs futures statuses event task
      value slot call =>
    have aged := @aging_onComplete { s with workers, drain } cb w result ((s.now - t0) * 1000)
    rw [call] at aged
    exact aged
  | saved => exact .markDone ..
  | deleteAfterSend => exact .clearAudioPath ..
  | evict event =>
    rw [event] at other
    cases other
  | _ => exact .refl _

private theorem step_aging (before : Visit cfg anyStep tr s) (other : e.evicts = false)
    (taken : step cfg s e = some (s', o)) :
    s.now ≤ s'.now ∧ Aging s.now s'.now s.jobs s'.jobs := by
  refine before.keeps_along (step_changes taken)
    (I := fun t => s.now ≤ t.now ∧ Aging s.now t.now s.jobs t.jobs)
    (fun _ _ _ change => ⟨s, e, trivial, change⟩) ⟨le_refl _, .refl _⟩ ?_
  rintro tr a b o visit change ⟨forward, aged⟩
  exact ⟨forward.trans change.forward, aged.trans (change.aging visit other) forward change.forward⟩

/-! ### The server with its cleanup loop -/

variable {slack : ℚ} {u u' : CleanupState} {ev : CleanupEvent}

/-- What holds of every run of the server holds of its runs with the loop. -/
private theorem cleaned_server : Simulation (cleaned cfg) (punctual slack) (server cfg) anyStep
    CleanupState.server some where
  init := rfl
  step {tr s t e o} _ _ taken := by
    rw [List.filterMap_some]
    cases e with
    | server event =>
      simp only [cleaned, cleanupStep] at taken
      split_ifs at taken
      obtain ⟨⟨server, told⟩, stepped, same⟩ := Option.map_eq_some_iff.mp taken
      obtain ⟨rfl, rfl⟩ := Prod.mk.inj same
      exact .single trivial stepped
    | pass failures =>
      simp only [cleaned, cleanupStep] at taken
      split_ifs at taken
      obtain ⟨rfl, rfl⟩ := Prod.mk.inj (Option.some.inj taken)
      exact .single (e := .evict failures) trivial rfl

/-- What a step of the loop's server can do to the records. -/
inductive CleanupMove (cfg : Config) (u u' : CleanupState) : CleanupEvent → Prop
  | server {event : Event} (wake : u'.wake = u.wake)
      (forward : u.server.now ≤ u'.server.now)
      (aged : Aging u.server.now u'.server.now u.server.jobs u'.server.jobs)
      (clock : (∃ dt, event = .tick dt ∧ 0 ≤ dt ∧ u'.server.now = u.server.now + dt) ∨
        u'.server.now = u.server.now) : CleanupMove cfg u u' (.server event)
  | pass {failures : List Path} (due : u.wake ≤ u.server.now)
      (wake : u'.wake = u.server.now + cleanupPeriod) (now : u'.server.now = u.server.now)
      (records : ∀ j, u'.server.jobs.get? j = (u.server.jobs.get? j).filter fun job =>
        !job.expired (u.server.now - cfg.settings.jobTtlSeconds)) :
      CleanupMove cfg u u' (.pass failures)

theorem cleanup_move (before : Reach (cleaned cfg) (punctual slack) tr u)
    (taken : cleanupStep cfg u ev = some (u', o)) : CleanupMove cfg u u' ev := by
  have visit := visit_of_reach (cleaned_server.reach before)
  cases ev with
  | server event =>
    simp only [cleanupStep] at taken
    split_ifs at taken with evicts
    obtain ⟨⟨server, told⟩, stepped, same⟩ := Option.map_eq_some_iff.mp taken
    obtain ⟨rfl, rfl⟩ := Prod.mk.inj same
    obtain ⟨forward, aged⟩ := step_aging visit (Bool.eq_false_iff.mpr evicts) stepped
    exact .server rfl forward aged (step_now stepped)
  | pass failures =>
    simp only [cleanupStep] at taken
    split_ifs at taken with early
    obtain ⟨rfl, rfl⟩ := Prod.mk.inj (Option.some.inj taken)
    exact .pass (not_lt.mp early) rfl rfl fun j => get?_evictExpired ..

end XttsServer.Model
