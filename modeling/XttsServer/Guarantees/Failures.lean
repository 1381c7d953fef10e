import XttsServer.Guarantees.Completion

/-!
Whether a result without audio is always taken for the failure that it is.
-/

set_option autoImplicit false
set_option relaxedAutoImplicit false

namespace XttsServer.Guarantees

open XttsServer.Model XttsServer.Foundations XttsServer.Foundations.Transition

variable {cfg : Config} {P : State → Event → Prop} {s s' s₀ : State} {e : Event}
  {tr o : List Obs}

/-- `if result.error`. -/
def reportsError (result : SynthesisResult) : Bool :=
  match result.error with
  | some error => error ≠ ""
  | none => false

/-- The result is taken for a failure exactly when there is no audio. -/
def Classified (result : SynthesisResult) : Prop := reportsError result = true ↔ result.audio = none

/-- What is left of a job whose callback was called with a result without audio. -/
structure MarkedFailed (s : State) (j job : JobId) : Prop where
  ended : ∃ w r cb t, s.tasks j = some (.collector w r cb t .ended)
  record : ∀ record, s.jobs.get? job = some record →
    record.status = .failed ∧ ∃ reason, record.error = some reason ∧ reason ≠ ""

/-- No thread is in `save_audio` without an array. -/
def SavesAudio (s : State) : Prop :=
  ∀ j w r cb t result opened, s.tasks j = some (.collector w r cb t (.saving result opened)) →
    result.audio ≠ none

/-- The collector that has waited, resumed, hands over a result that is taken for what it is. -/
structure Recognised (cfg : Config) (s : State) (j : JobId) (w : WorkerRef) (r : Request)
    (cb : OnComplete) (outcome : GetOutcome) (result : SynthesisResult) (s' : State)
    (o : List Obs) :
    Prop where
  value : collectedResult cfg r.jobId outcome = some result
  resumed : step cfg s (.resume j) = some (s', o)
  told : .completed cb w result ∈ o
  classified : Classified result
  failed : result.audio = none → ∀ job fmt dir, cb = .store job fmt dir → MarkedFailed s' j job
  unsaved : ∀ w r cb t result opened,
    s'.tasks j = some (.collector w r cb t (.saving result opened)) → result.audio ≠ none

/-- An executor thread's `get` for a collector raises an exception without a text. -/
def silentError (s : State) : Event → Bool
  | .getError j text =>
      text = "" && match s.tasks j with
        | some (.collector _ _ _ _ _) => true
        | _ => false
  | _ => false

def errorsSpeak (s : State) (e : Event) : Prop := silentError s e = false

instance (s : State) (e : Event) : Decidable (errorsSpeak s e) :=
  inferInstanceAs (Decidable (_ = _))

structure FailuresRecognised (cfg : Config) (tr : List Obs) (s : State) : Prop where
  /-- However the wait ended, other than by an exception without a text. -/
  each : ∀ j w r cb t t0 outcome, s.tasks j = some (.collector w r cb t (.got t0 outcome)) →
    ((∃ result s' o, Recognised cfg s j w r cb outcome result s' o) ↔ outcome ≠ .error "")
  /-- Over the runs without such an exception. -/
  runs : Reach (server cfg) errorsSpeak tr s → SavesAudio s ∧
    ∀ cb w result, .completed cb w result ∈ tr → Classified result

/-! ### What the wait ends with -/

private theorem reply_shape (h : Visit cfg P tr s) {w : WorkerRef} {r : Request} {m : Message}
    (told : .replied w r m ∈ tr) :
    (∃ outcome, outcome ≠ .raised "" ∧ m = closingMessage r outcome) ∨ ∃ c, m = .chunk c := by
  obtain ⟨_, _, _, _, _, _, ⟨_, _, _, change⟩, told, _⟩ := h.exists_change told
  rcases change.replied told with ⟨outcome, -, -, traced, same⟩ | ⟨r', c, -, same⟩
  · exact .inl ⟨outcome, traced, same⟩
  · exact .inr ⟨c, same⟩

private theorem append_ne_empty {a b c : String} (some_text : a ≠ "") :
    a ++ b ++ c ≠ "" := fun empty =>
  some_text (String.append_eq_empty_iff.mp (String.append_eq_empty_iff.mp empty).1).1

private theorem timeoutText_ne_empty (cfg : Config) : timeoutText cfg ≠ "" := by
  unfold timeoutText
  exact append_ne_empty (by decide)

/-- A collector goes on with a result that is taken for what it is, unless its wait has ended in
an exception without a text. -/
private theorem collectedResult_classified (h : Visit cfg P tr s) {j : JobId} {w : WorkerRef}
    {r : Request} {cb : OnComplete} {t t0 : ℚ} {outcome : GetOutcome}
    (task : s.tasks j = some (.collector w r cb t (.got t0 outcome))) :
    ∃ result, collectedResult cfg r.jobId outcome = some result ∧
      (Classified result ↔ outcome ≠ .error "") := by
  cases outcome with
  | empty =>
    refine ⟨_, rfl, iff_of_true ?_ nofun⟩
    simp [Classified, reportsError, timeoutText_ne_empty]
  | error text => exact ⟨_, rfl, by simp [Classified, reportsError]⟩
  | item m =>
    obtain ⟨v, told⟩ := tasks_heard h j _ task
    obtain ⟨-, -, r', rfl⟩ := collector_serves h task
    have answers := ((handled h).replied v _ m told).2
    rcases reply_shape h told with ⟨outcome, traced, rfl⟩ | ⟨c, rfl⟩
    · cases outcome with
      | arrays audio other => exact ⟨_, rfl, by simp [Classified, reportsError]⟩
      | raised text =>
        have some_text : text ≠ "" := fun empty => traced (by rw [empty])
        exact ⟨_, rfl, by simp [Classified, reportsError, some_text]⟩
    · cases answers

/-! ### What the callback makes of it -/

variable {j : JobId} {w : WorkerRef} {r : Request} {cb : OnComplete} {t t0 : ℚ}
  {outcome : GetOutcome} {result : SynthesisResult}

def releasedBy (s : State) (w : WorkerRef) (r : Request) (t0 : ℚ) : Effect :=
  releaseSlot s w ((s.now - t0) * 1000) r.jobId

def calledBy (s : State) (w : WorkerRef) (r : Request) (cb : OnComplete) (t0 : ℚ)
    (result : SynthesisResult) : Effect × CollectPc :=
  onComplete (releasedBy s w r t0).1 cb w result ((s.now - t0) * 1000)

theorem resume_collector (task : s.tasks j = some (.collector w r cb t (.got t0 outcome)))
    (value : collectedResult cfg r.jobId outcome = some result) :
    step cfg s (.resume j) =
      some ((calledBy s w r cb t0 result).1.1.setTask j
          (.collector w r cb t (calledBy s w r cb t0 result).2),
        (releasedBy s w r t0).2 ++ [.completed cb w result] ++
          (calledBy s w r cb t0 result).1.2) := by
  simp only [step, resume, task, resumeCollector, value]
  rfl

private theorem onComplete_failure {error : String} (reported : result.error = some error)
    (some_text : error ≠ "") (job : JobId) (fmt : AudioFormat) (dir : Path) (w : WorkerRef)
    (ms : ℚ) :
    (onComplete s (.store job fmt dir) w result ms).2 = .ended ∧
      ∀ record, (onComplete s (.store job fmt dir) w result ms).1.1.jobs.get? job = some record →
        record.status = .failed ∧ record.error = some error := by
  simp only [onComplete, reported, ne_eq, some_text, not_false_eq_true, if_true, markFailed,
    JobStore.markFailed, Dict.get?_modify]
  refine ⟨trivial, fun record found => ?_⟩
  obtain ⟨old, -, rfl⟩ := Option.map_eq_some_iff.mp found
  exact ⟨rfl, rfl⟩

private theorem onComplete_saving {result' : SynthesisResult} {opened : Bool} {ms : ℚ}
    (saving : (onComplete s cb w result ms).2 = .saving result' opened) :
    result' = result ∧ reportsError result = false := by
  cases cb with
  | bridge job => cases saving
  | store job fmt dir =>
    cases reported : result.error with
    | none =>
      simp only [onComplete, reported, CollectPc.saving.injEq] at saving
      exact ⟨saving.1.symm, by simp [reportsError, reported]⟩
    | some error =>
      by_cases empty : error = ""
      · simp only [onComplete, reported, empty, ne_eq, not_true, if_false,
          CollectPc.saving.injEq] at saving
        exact ⟨saving.1.symm, by simp [reportsError, reported, empty]⟩
      · simp [onComplete, reported, empty] at saving

private theorem reportsError_iff : reportsError result = true ↔
    ∃ error, result.error = some error ∧ error ≠ "" := by
  cases error : result.error <;> simp [reportsError, error]

private theorem setTask_self (s : State) (j : JobId) (t : Task) :
    (s.setTask j t).tasks j = some t :=
  Function.update_self ..

private theorem recognised_iff (h : Visit cfg P tr s)
    (task : s.tasks j = some (.collector w r cb t (.got t0 outcome))) :
    (∃ result s' o, Recognised cfg s j w r cb outcome result s' o) ↔ outcome ≠ .error "" := by
  obtain ⟨result, value, classified⟩ := collectedResult_classified h task
  constructor
  · rintro ⟨result', s', o, recognised⟩
    obtain rfl : result = result' := Option.some.inj (value.symm.trans recognised.value)
    exact classified.mp recognised.classified
  · intro speaks
    have seen := classified.mpr speaks
    refine ⟨result, _, _, value, resume_collector task value, by simp, seen, ?_, ?_⟩
    · rintro silent job fmt dir rfl
      obtain ⟨error, reported, some_text⟩ := reportsError_iff.mp (seen.mpr silent)
      obtain ⟨ends, marked⟩ := onComplete_failure (s := (releasedBy s w r t0).1) reported some_text
        job fmt dir w ((s.now - t0) * 1000)
      refine ⟨⟨w, r, .store job fmt dir, t, ?_⟩, fun record found => ?_⟩
      · rw [setTask_self]
        exact congrArg (fun pc => some (Task.collector w r (.store job fmt dir) t pc)) ends
      · obtain ⟨status, reason⟩ := marked record found
        exact ⟨status, error, reason, some_text⟩
    · intro w' r' cb' t' result' opened there
      rw [setTask_self] at there
      injection there with there
      injection there with _ _ _ _ there
      obtain ⟨rfl, quiet⟩ := onComplete_saving there
      intro silent
      rw [seen.mpr silent] at quiet
      cases quiet

/-! ### Runs without silent errors -/

/-- The collector has not waited in vain without a word, and saves an array. -/
def taskSpeaks : Task → Prop
  | .collector _ _ _ _ (.got _ outcome) => outcome ≠ .error ""
  | .collector _ _ _ _ (.saving result _) => result.audio ≠ none
  | _ => True

private theorem speaks_deliver {t : Task} (blocked : t.getting? = some t0)
    (quiet : ∀ w r cb at' pc, t = .collector w r cb at' pc → outcome ≠ .error "") :
    taskSpeaks (t.deliver outcome) := by
  cases t with
  | collector w r cb at' pc =>
    cases pc <;> simp only [Task.getting?] at blocked <;> try contradiction
    exact quiet w r cb at' _ rfl
  | stream r pc => cases pc <;> trivial
  | clone w r pc => cases pc <;> trivial

private theorem speaks_move {now : ℚ} {t t' : Task} {frame : Option Frame}
    (task : s.tasks j = some t) (move : Move cfg now j e t t' frame) (meets : errorsSpeak s e)
    (before : taskSpeaks t) : taskSpeaks t' := by
  cases move with
  | timeout blocked => exact speaks_deliver blocked fun _ _ _ _ _ _ => by simp
  | @error t t0 text blocked =>
    refine speaks_deliver blocked ?_
    rintro w r cb at' pc rfl silent
    obtain rfl : text = "" := by simpa using silent
    simp [errorsSpeak, silentError, task] at meets
  | _ => trivial

private theorem tasks_speak (h : Visit cfg errorsSpeak tr s) :
    ∀ j t, s.tasks j = some t → taskSpeaks t := by
  induction h using visit_induction with
  | start => simp [State.init]
  | @change s₀ e s s' tr o before ih meets change =>
    have update : ∀ {j : JobId} {t' : Task}, taskSpeaks t' → ∀ k t,
        Function.update s.tasks j (some t') k = some t → taskSpeaks t :=
      fun new => forall_of_update new ih
    cases change with
    | streamQueued | cloneStart | clonePut | cloneDone | cancelAwaiting | cancelAssigned | leave
    | saveWrite | saved => exact update trivial
    | @saveOpen j w r job fmt dir t result audio task encoded =>
      exact update (show result.audio ≠ none by simp [encoded])
    | @handedOver item w loop =>
      dsimp only
      rcases handedOver_cases before loop with ⟨cb, -, -, tasks⟩ | ⟨-, tasks⟩ | ⟨-, tasks⟩
      · exact tasks ▸ update trivial
      · exact tasks ▸ update trivial
      · exact tasks ▸ ih
    | @move j t t' frame task move => exact update (speaks_move task move meets (ih j t task))
    | @getReply j t t0 m rest task blocked =>
      exact update (speaks_deliver blocked fun _ _ _ _ _ _ => by simp)
    | @collected j w r cb t t0 outcome result workers drain i next _ _ _ _ task value _ call =>
      refine update ?_
      obtain ⟨result', value', classified⟩ := collectedResult_classified before task
      obtain rfl : result = result' := Option.some.inj (value.symm.trans value')
      cases next with
      | saving result' opened =>
        obtain ⟨rfl, quiet⟩ := onComplete_saving (congrArg Prod.snd call)
        intro silent
        rw [(classified.mpr (ih j _ task)).mpr silent] at quiet
        cases quiet
      | got t1 outcome' => cases onComplete_holds call
      | _ => trivial
    | _ => exact ih

private theorem completed_by (change : Change cfg s₀ e s s' o) {cb : OnComplete} {w : WorkerRef}
    {result : SynthesisResult} (told : .completed cb w result ∈ o) :
    ∃ j r t t0 outcome, s.tasks j = some (.collector w r cb t (.got t0 outcome)) ∧
      collectedResult cfg r.jobId outcome = some result := by
  cases change with
  | @collected j w' r cb' t t0 outcome result' _ _ _ _ _ _ _ _ task value =>
    obtain ⟨rfl, rfl, rfl⟩ : cb = cb' ∧ w = w' ∧ result = result' := by simpa using told
    exact ⟨j, r, t, t0, outcome, task, value⟩
  | jobTurnedAway _ _ told' => rcases told' with rfl | rfl <;> simp at told
  | @answered _ a answer => cases a <;> simp [Obs.isAnswer] at answer told
  | _ => simp [marks_eq_map] at told

private theorem completed_classified (h : Visit cfg errorsSpeak tr s) {cb : OnComplete}
    {w : WorkerRef} {result : SynthesisResult} (told : .completed cb w result ∈ tr) :
    Classified result := by
  obtain ⟨_, _, _, _, _, before, ⟨_, _, _, change⟩, told, _⟩ := h.exists_change told
  obtain ⟨j, r, t, t0, outcome, task, value⟩ := completed_by change told
  obtain ⟨result', value', classified⟩ := collectedResult_classified before task
  obtain rfl : result = result' := Option.some.inj (value.symm.trans value')
  exact classified.mpr (tasks_speak before j _ task)

/-- A job without audio is taken for a failure, unless its wait ended without a word. -/
theorem failures_recognised (h : Reach (server cfg) anyStep tr s) :
    FailuresRecognised cfg tr s := by
  refine ⟨fun j w r cb t t0 outcome task => recognised_iff (visit_of_reach h) task, fun run => ?_⟩
  have visit := visit_of_reach run
  exact ⟨fun j w r cb t result opened task => tasks_speak visit j _ task,
    fun cb w result told => completed_classified visit told⟩

/-- A job whose wait has ended with the error of its worker. -/
def failedJob : List Event :=
  [.submitTts sayHello noSpeakers "a" false, .resumeDrain, .drainPut, .resumeDrain, .resume "a",
    .workerTake 0, .workerReply 0 (.raised "RuntimeError: CUDA out of memory"), .getReply "a"]

private theorem failedJob_runs : (runOf oneWorker failedJob).isSome = true := by decide +kernel

theorem failures_recognised_failed_job : FailuresRecognised oneWorker
    ((runOf oneWorker failedJob).get failedJob_runs).2
    ((runOf oneWorker failedJob).get failedJob_runs).1 :=
  failures_recognised (reach_of_exec failedJob_runs)

/-- A job whose result queue breaks: `get` raises an `EOFError()`, whose text is empty. -/
def brokenQueue : List Event :=
  [.submitTts sayHello noSpeakers "a" false, .resumeDrain, .drainPut, .resumeDrain, .resume "a",
    .getError "a" "", .resume "a"]

private theorem brokenQueue_runs : (runOf oneWorker brokenQueue).isSome = true := by decide +kernel

def savesNothing : Task → Bool
  | .collector _ _ _ _ (.saving result _) => result.audio.isNone
  | _ => false

/-- Its collector goes on to save the audio that it has not got. -/
theorem silent_failure : ¬ ∀ cfg tr s, Reach (server cfg) anyStep tr s →
    SavesAudio s ∧ ∀ cb w result, .completed cb w result ∈ tr → Classified result := by
  intro all
  have saves := (all oneWorker _ _ (reach_of_exec brokenQueue_runs)).1
  have saving : (((runOf oneWorker brokenQueue).get brokenQueue_runs).1.tasks "a").any
      savesNothing = true := by decide +kernel
  obtain ⟨task, there, silent⟩ := (Option.any_eq_true _ _).mp saving
  unfold savesNothing at silent
  split at silent
  · exact saves "a" _ _ _ _ _ _ there (Option.isNone_iff_eq_none.mp silent)
  · cases silent

end XttsServer.Guarantees
