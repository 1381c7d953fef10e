import XttsServer.Runs.Lifecycle

/-!
Submitted batches: what the loop of `submit_batch` leaves of the other jobs, what an
accepted batch has put on the queue, and how a job fares that no batch can refuse.
-/

set_option autoImplicit false
set_option relaxedAutoImplicit false

namespace XttsServer.Model

open XttsServer.Foundations XttsServer.Foundations.Transition

variable {cfg : Config} {P : State → Event → Prop} {s s' s₀ s₁ : State} {e : Event}
  {tr tr' o o' : List Obs} {j : JobId}

/-! ### The other jobs -/

/-- Record, carrier and statuses of the job are as they were. -/
structure Untouched (s s' : State) (o : List Obs) (j : JobId) : Prop where
  record : s'.jobs.get? j = s.jobs.get? j
  phase : s'.phase j = s.phase j
  silent : history o j = []

private theorem Untouched.trans (h : Untouched s s₁ o j) (g : Untouched s₁ s' o' j) :
    Untouched s s' (o ++ o') j where
  record := g.record.trans h.record
  phase := g.phase.trans h.phase
  silent := by rw [history, List.filterMap_append, ← history, ← history, h.silent, g.silent]; rfl

private theorem submitOne_others {r : Resolved} {k : JobId} {raises : Bool} {answer : Submitted}
    (run : submitOne cfg s r k raises = ((s', o), answer)) (other : j ≠ k) :
    Untouched s s' o j := by
  have there : ¬ k = j := fun same => other same.symm
  have record : (createJob s r k).jobs.get? j = s.jobs.get? j :=
    JobStore.get?_create_of_ne _ _ _ _ _ _ other
  rcases submitOne_cases run with ⟨-, -, rfl, rfl⟩ | ⟨-, -, rfl, rfl⟩ | ⟨-, -, rfl, rfl⟩
  · exact ⟨record, phase_congr rfl rfl j, by simp [there]⟩
  · refine ⟨record, ?_, by simp [there]⟩
    have queued := @phase_queue s
      { makeQueue (createJob s r k) with queue := s.queue ++ [storeItem cfg s r k] }
      (storeItem cfg s r k) (List.append_assoc ..).symm rfl j
    have named : (storeItem cfg s r k).jobId = k := rfl
    simpa [named, there] using queued
  · exact ⟨record, phase_congr rfl rfl j, by simp [there]⟩

private theorem submitOne_used {r : Resolved} {raises : Bool} {answer : Submitted}
    (run : submitOne cfg s r j raises = ((s', o), answer)) : s'.used = j :: s.used := by
  rcases submitOne_cases run with ⟨-, -, rfl, -⟩ | ⟨-, -, rfl, -⟩ | ⟨-, -, rfl, -⟩ <;> rfl

/-- What the loop has made of the jobs that it has not created, and of those that it has. -/
private structure LoopFrame (s s' : State) (created all ids : List JobId) (o : List Obs) :
    Prop where
  grows : created ⊆ all
  named : all ⊆ created ++ ids
  drawn : created ⊆ s.used → all ⊆ s'.used
  others : ∀ k ∉ all, Untouched s s' o k

private theorem submitLoop_frame {rest : List (Resolved × JobId)} {created all : List JobId}
    {raiseAt : Option Nat} {answer : Except Exc Unit}
    (run : submitLoop cfg s created rest raiseAt = ((s', o), all, answer)) :
    LoopFrame s s' created all (rest.map Prod.snd) o := by
  induction rest generalizing s created raiseAt o with
  | nil =>
    simp only [submitLoop, Prod.mk.injEq] at run
    obtain ⟨⟨rfl, rfl⟩, rfl, -⟩ := run
    exact ⟨List.Subset.refl _, by simp, id, fun _ _ => ⟨rfl, rfl, rfl⟩⟩
  | cons p rest ih =>
    obtain ⟨r, k⟩ := p
    cases one : submitOne cfg s r k (raiseAt = some 0) with
    | mk effect result =>
      obtain ⟨s₁, o₁⟩ := effect
      have used := submitOne_used one
      have first : ∀ {j}, j ∉ created ++ [k] → Untouched s s₁ o₁ j := fun absent =>
        submitOne_others one fun same => absent (by simp [same])
      have begun : created ⊆ s.used → created ++ [k] ⊆ s₁.used := by
        intro old
        rw [used]
        exact List.append_subset.mpr ⟨fun _ member => List.mem_cons_of_mem _ (old member), by simp⟩
      have stopped : created ++ [k] ⊆ created ++ ((r, k) :: rest).map Prod.snd := by
        rw [List.map_cons]
        exact List.append_subset.mpr ⟨List.subset_append_left _ _, by simp⟩
      rw [submitLoop, one] at run
      cases result with
      | raised =>
        simp only [Prod.mk.injEq] at run
        obtain ⟨⟨rfl, rfl⟩, rfl, -⟩ := run
        exact ⟨List.subset_append_left _ _, stopped, begun, fun _ => first⟩
      | full text =>
        dsimp only at run
        rw [markAllFailed_eq] at run
        simp only [Prod.mk.injEq] at run
        obtain ⟨⟨rfl, rfl⟩, rfl, -⟩ := run
        refine ⟨List.subset_append_left _ _, stopped, begun, fun j absent =>
          (first absent).trans ?_⟩
        refine ⟨JobStore.get?_failAll_of_notMem _ _ _ _ absent, phase_congr rfl rfl j, ?_⟩
        exact List.eq_nil_iff_forall_not_mem.mpr fun _ told => absent (mem_history_failMarks told).2
      | enqueued =>
        dsimp only at run
        cases tail : submitLoop cfg s₁ (created ++ [k]) rest (raiseAt.map (· - 1)) with
        | mk effect result =>
          obtain ⟨s₂, o₂⟩ := effect
          obtain ⟨all', answer'⟩ := result
          rw [tail] at run
          simp only [Prod.mk.injEq] at run
          obtain ⟨⟨rfl, rfl⟩, rfl, rfl⟩ := run
          obtain ⟨grows, named, drawn, others⟩ := ih tail
          refine ⟨fun _ old => grows (List.mem_append_left _ old), ?_, fun old => drawn (begun old),
            fun j absent => (first fun member => absent (grows member)).trans (others j absent)⟩
          simpa using named

private theorem submitBatch_frame {items : List BatchItem} {speakers : SpeakerView}
    {ids : List JobId} {raiseAt : Option Nat}
    (taken : step cfg s (.submitBatch items speakers ids raiseAt) = some (s', o)) :
    ∃ created, created ⊆ ids ∧ created ⊆ s'.used ∧ ∀ k ∉ created, Untouched s s' o k := by
  simp only [step] at taken
  split_ifs at taken
  unfold submitBatch at taken
  split at taken
  · obtain ⟨rfl, rfl⟩ := Prod.mk.inj (Option.some.inj taken)
    exact ⟨[], by simp, by simp, fun _ _ => ⟨rfl, rfl, by simp⟩⟩
  · rename_i rs _
    cases loop : submitLoop cfg s [] (rs.zip ids) raiseAt with
    | mk effect result =>
      obtain ⟨s₁, o₁⟩ := effect
      obtain ⟨all, answer⟩ := result
      rw [loop] at taken
      obtain ⟨rfl, rfl⟩ := Prod.mk.inj (Option.some.inj taken)
      obtain ⟨-, named, drawn, others⟩ := submitLoop_frame loop
      refine ⟨all, fun k member => ?_, drawn (by simp), fun k absent => ?_⟩
      · obtain ⟨p, there, rfl⟩ := List.mem_map.mp (named member)
        exact (List.of_mem_zip there).2
      · exact (others k absent).trans ⟨rfl, rfl, by simp⟩

/-! ### Jobs that no batch can refuse -/

theorem step_grows (taken : step cfg s e = some (s', o)) : s.used ⊆ s'.used := by
  have changes := step_changes taken
  clear taken
  induction changes with
  | refl => exact List.Subset.refl _
  | tail _ change ih => exact fun _ old => change.grows.1 (ih old)

private theorem step_cases (taken : step cfg s e = some (s', o)) :
    (∃ created, created ⊆ s'.used ∧ (∀ k ∈ created, s.canDraw k) ∧
      ∀ k ∉ created, Untouched s s' o k) ∨ splitsBatch cfg s e = false := by
  cases e with
  | submitBatch items speakers ids raiseAt =>
    obtain ⟨created, named, drawn, others⟩ := submitBatch_frame taken
    simp only [step] at taken
    split_ifs at taken with fresh
    exact .inl ⟨created, drawn, fun k member => (canDraw_of_fresh fresh.1).2 k
      (named member), others⟩
  | _ => exact .inr rfl

private theorem keeps_step {I : List Obs → State → Prop} (h : Reach (server cfg) P tr s)
    (meets : P s e) (taken : step cfg s e = some (s', o)) (start : I tr s)
    (kept : ∀ {tr : List Obs} {a b : State} {o : List Obs}, Visit cfg P tr a →
      Change cfg s e a b o → I tr a → I (tr ++ o) b) : I (tr ++ o) s' := by
  have changes := step_changes taken
  clear taken
  induction changes with
  | refl => simpa using start
  | tail before change ih =>
    rw [← List.append_assoc]
    exact kept ((visit_of_reach h).trans (before.mono fun _ _ _ made =>
      ⟨_, _, meets, made⟩)) change ih

/-- No record and no status tells of a job whose id has not been drawn. -/
def Unborn (j : JobId) (tr : List Obs) (s : State) : Prop :=
  j ∉ s.used → s.jobs.get? j = none ∧ history tr j = []

private theorem Unborn.change (h : Unborn j tr s) (visit : Visit cfg P tr s)
    (whole : splitsBatch cfg s₀ e = false) (change : Change cfg s₀ e s s' o) :
    Unborn j (tr ++ o) s' := by
  intro fresh'
  have fresh : j ∉ s.used := fun drawn => fresh' (change.grows.1 drawn)
  obtain ⟨absent, silent⟩ := h fresh
  have split : history (tr ++ o) j = history tr j ++ history o j := List.filterMap_append
  rw [split, silent, List.nil_append]
  have idle : ∀ {phase : Phase}, s.phase j ≠ some phase :=
    fun carrier => fresh (used_of_phase visit carrier)
  cases change.job visit j with
  | same record _ told =>
    rw [absent, Option.map_none, Option.map_eq_none_iff] at record
    exact ⟨record, told⟩
  | queued _ drawn | turnedAway _ drawn | stranded _ _ drawn => exact absurd drawn fresh'
  | refused split =>
    rw [whole] at split
    cases split
  | runs was | fails was | finishes was | raises _ was => exact absurd was idle
  | evicted _ record =>
    rw [absent] at record
    cases record

theorem unborn (h : Reach (server cfg) P tr s) (j : JobId) : Unborn j tr s := by
  induction h with
  | refl => exact fun _ => ⟨rfl, rfl⟩
  | tail before meets taken ih =>
    rcases step_cases taken with ⟨created, drawn, -, others⟩ | whole
    · intro fresh
      obtain ⟨absent, told⟩ := ih fun old => fresh (step_grows taken old)
      have other := others j fun member => fresh (drawn member)
      refine ⟨other.record.trans absent, ?_⟩
      rw [history, List.filterMap_append, ← history, ← history, told, other.silent]
      rfl
    · exact keeps_step before meets taken ih fun visit change now => now.change visit whole change

theorem life_of_fresh (h : Reach (server cfg) P tr s) (fresh : j ∉ s.used) : Life tr s j := by
  obtain ⟨absent, silent⟩ := unborn h j fresh
  have idle : ∀ {phase : Phase}, s.phase j ≠ some phase :=
    fun carrier => fresh (used_of_phase (visit_of_reach h) carrier)
  refine ⟨silent ▸ .unborn, fun born => absurd silent born, ?_, ?_, fun carrier =>
    absurd carrier idle,
    fun carrier => absurd carrier idle⟩
  · intro job found
    rw [absent] at found
    cases found
  · intro _ status last
    rw [silent] at last
    cases last

/-- A batch that was not split, and any step that is no batch, lets every job live. -/
theorem Life.whole_step (life : Life tr s j) (h : Reach (server cfg) P tr s) (meets : P s e)
    (whole : splitsBatch cfg s e = false) (taken : Model.step cfg s e = some (s', o)) :
    Life (tr ++ o) s' j :=
  keeps_step (I := fun tr s => Life tr s j) h meets taken life fun visit change now =>
    now.step change.grows.1 whole (change.job visit j)

/-- A job that has been created lives on, whatever batches are split. -/
private theorem Life.next (life : Life tr s j) (h : Reach (server cfg) P tr s) (drawn : j ∈ s.used)
    (meets : P s e) (taken : Model.step cfg s e = some (s', o)) : Life (tr ++ o) s' j := by
  rcases step_cases taken with ⟨created, -, fresh, others⟩ | whole
  · have other := others j fun member => (fresh j member).2 drawn
    have kept : JobStep cfg s s s' (.tick 0) o j :=
      .same (congrArg _ other.record) other.phase other.silent
    exact life.step (step_grows taken) rfl kept
  · exact life.whole_step h meets whole taken

theorem Life.along (life : Life tr s j) (h : Reach (server cfg) P tr s) (drawn : j ∈ s.used)
    (run : Run (server cfg) P s tr' s') : Life (tr ++ tr') s' j ∧ j ∈ s'.used := by
  induction run with
  | refl => exact ⟨by simpa using life, drawn⟩
  | tail before meets taken ih =>
    rw [← List.append_assoc]
    exact ⟨ih.1.next (h.trans before) ih.2 meets taken, step_grows taken ih.2⟩

/-! ### Accepted batches -/

def batchItems (cfg : Config) (now : ℚ) (queue : QueueId) (pairs : List (Resolved × JobId)) :
    List QueuedItem :=
  (pairs.zipIdx queue).map fun ((r, j), q) =>
    jobItem now (r.toRequest j q) (.store j r.format cfg.settings.outputsDir)

private theorem submitLoop_accepts {rest : List (Resolved × JobId)} {created all : List JobId}
    {raiseAt : Option Nat} (run : submitLoop cfg s created rest raiseAt = ((s', o), all, .ok ())) :
    all = created ++ rest.map Prod.snd ∧
      s'.queue = s.queue ++ batchItems cfg s.now s.nextQueue rest ∧
      (0 < cfg.settings.maxQueueSize → s.queue.length ≤ cfg.settings.maxQueueSize →
        s'.queue.length ≤ cfg.settings.maxQueueSize) := by
  induction rest generalizing s created raiseAt o with
  | nil =>
    simp only [submitLoop, Prod.mk.injEq] at run
    obtain ⟨⟨rfl, rfl⟩, rfl, -⟩ := run
    exact ⟨by simp, by simp [batchItems], fun _ => id⟩
  | cons p rest ih =>
    obtain ⟨r, j⟩ := p
    cases submitLoop_cases run with
    | enqueued room tail =>
      obtain ⟨rfl, queue, bound⟩ := ih tail
      refine ⟨by simp, ?_, fun bounded _ => bound bounded ?_⟩
      · rw [queue, List.append_assoc]
        rfl
      · have less : ¬ cfg.settings.maxQueueSize ≤ s.queue.length := fun full => by
          rw [queueFull_iff.mpr ⟨bounded, full⟩] at room
          cases room
        rw [List.length_append, List.length_singleton]
        omega

/-- What an accepted batch has done. -/
structure Accepted (cfg : Config) (s s' : State) (items : List BatchItem) (speakers : SpeakerView)
    (ids created : List JobId) (rs : List Resolved) : Prop where
  valid : resolveBatch cfg.settings speakers items = .ok rs
  enough : ids.length = items.length
  fresh : ids.Nodup ∧ ∀ j ∈ ids, s.canDraw j
  created : created = ids
  queue : s'.queue = s.queue ++ batchItems cfg s.now s.nextQueue (rs.zip ids)
  drawn : ids ⊆ s'.used

theorem accepted_batch {items : List BatchItem} {speakers : SpeakerView} {ids created : List JobId}
    {raiseAt : Option Nat}
    (taken : step cfg s (.submitBatch items speakers ids raiseAt) = some (s', o))
    (told : .batch created (.ok ()) ∈ o) :
    splitsBatch cfg s (.submitBatch items speakers ids raiseAt) = false ∧
      ∃ rs, Accepted cfg s s' items speakers ids created rs := by
  simp only [step] at taken
  split_ifs at taken with fresh
  have count := fun {rs} => @length_resolveBatch cfg.settings speakers items rs
  unfold submitBatch at taken
  split at taken
  · obtain ⟨rfl, rfl⟩ := Prod.mk.inj (Option.some.inj taken)
    simp at told
  · rename_i rs valid
    have length := count valid
    cases loop : submitLoop cfg s [] (rs.zip ids) raiseAt with
    | mk effect result =>
      obtain ⟨s₁, o₁⟩ := effect
      obtain ⟨all, answer⟩ := result
      rw [loop] at taken
      obtain ⟨rfl, rfl⟩ := Prod.mk.inj (Option.some.inj taken)
      have silent := (submitLoop_grows loop).2.2
      obtain ⟨rfl, rfl⟩ : created = all ∧ .ok () = answer := by simpa [silent] using told
      obtain ⟨named, queue, bound⟩ := submitLoop_accepts loop
      have names : (rs.zip ids).map Prod.snd = ids := List.map_snd_zip (by omega)
      rw [names, List.nil_append] at named
      have drawn := (submitLoop_frame loop).drawn (by simp)
      refine ⟨?_, rs, valid, fresh.2, canDraw_of_fresh fresh.1, named, queue, named ▸ drawn⟩
      cases raiseAt with
      | some k => rfl
      | none =>
        have block : (batchItems cfg s.now s.nextQueue (rs.zip ids)).length = items.length := by
          simp [batchItems]
          omega
        rw [queue, List.length_append, block] at bound
        simp only [splitsBatch, valid, decide_eq_false_iff_not, not_and, not_lt]
        intro room
        have := bound (by omega) (by omega)
        omega

end XttsServer.Model
