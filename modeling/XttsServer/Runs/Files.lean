import XttsServer.Runs.Downloads

/-!
The content of the audio files: what a callback has written stays as it is until
the file is removed, and the file of a record is the one that its job has written.
-/

set_option autoImplicit false
set_option relaxedAutoImplicit false

namespace XttsServer.Model

open XttsServer.Foundations XttsServer.Foundations.Transition

variable {cfg : Config} {P : State → Event → Prop} {s s' s₀ : State} {e : Event}
  {tr tr' o : List Obs}

/-! ### The path of a job -/

/-- The path that the callback of the job's item writes to. -/
def Destined (cfg : Config) (tr : List Obs) (j : JobId) (p : Path) : Prop :=
  ∃ item fmt, item ∈ accepted tr ∧
    item.onComplete = some (.store j fmt cfg.settings.outputsDir) ∧
      p = audioPath cfg.settings.outputsDir j fmt

private theorem Destined.mono {j : JobId} {p : Path} (h : Destined cfg tr j p) (o : List Obs) :
    Destined cfg (tr ++ o) j p := by
  obtain ⟨item, fmt, member, rest⟩ := h
  refine ⟨item, fmt, ?_, rest⟩
  rw [accepted, List.filterMap_append]
  exact List.mem_append_left _ member

private theorem jobId_of_store {item : QueuedItem} (proper : item.Proper cfg) {j : JobId}
    {fmt : AudioFormat} {dir : Path} (callback : item.onComplete = some (.store j fmt dir)) :
    item.jobId = j := by
  cases proper with
  | @job now r cb own =>
    obtain rfl : cb = .store j fmt dir := Option.some.inj callback
    rcases own with other | ⟨fmt', same⟩
    · cases other
    · exact (OnComplete.store.inj same).1.symm
  | stream => cases callback

theorem Destined.unique (h : Visit cfg P tr s) {j : JobId} {p q : Path}
    (mine : Destined cfg tr j p) (again : Destined cfg tr j q) : p = q := by
  obtain ⟨item, fmt, member, callback, rfl⟩ := mine
  obtain ⟨item', fmt', member', callback', rfl⟩ := again
  have same : item.jobId = item'.jobId :=
    (jobId_of_store (proper_of_accepted h member) callback).trans
      (jobId_of_store (proper_of_accepted h member') callback').symm
  obtain rfl := accepted_unique h member member' same
  rw [callback, Option.some.injEq] at callback'
  rw [(OnComplete.store.inj callback').2.1]

theorem Destined.of_collector (h : Visit cfg P tr s) {j k : JobId} {w : WorkerRef} {r : Request}
    {fmt : AudioFormat} {dir : Path} {t : ℚ} {pc : CollectPc}
    (task : s.tasks j = some (.collector w r (.store k fmt dir) t pc)) :
    k = j ∧ dir = cfg.settings.outputsDir ∧ Destined cfg tr j (audioPath dir k fmt) := by
  obtain rfl : k = j := (collector_serves h task).1
  have serves := (placed h).serves k _ task
  have place : dir = cfg.settings.outputsDir := by
    cases serves.fits with
    | collector own =>
      rcases own with other | ⟨fmt', same⟩
      · cases other
      · exact (OnComplete.store.inj same).2.2
  obtain ⟨item, told, -, callback⟩ := serves.origin
  have member : item ∈ accepted tr := drained_accepted h told
  subst place
  exact ⟨rfl, rfl, item, fmt, member, callback, rfl⟩

theorem Task.savedPath_eq {t : Task} {p : Path} (path : t.savedPath = some p) :
    ∃ w r j fmt dir at', t = .collector w r (.store j fmt dir) at' .saved ∧
      p = audioPath dir j fmt := by
  unfold Task.savedPath at path
  split at path
  · exact ⟨_, _, _, _, _, _, rfl, (Option.some.inj path).symm⟩
  · cases path

/-- Records and responses have the path of their job. -/
structure OwnPaths (cfg : Config) (tr : List Obs) (s : State) : Prop where
  record : ∀ j p, s.audio? j = some p → Destined cfg tr j p
  download : ∀ pc ∈ s.downloads, ∀ j p, pc.file? = some (j, p) → Destined cfg tr j p

theorem ownPaths (h : Visit cfg P tr s) : OwnPaths cfg tr s := by
  induction h using visit_induction with
  | start => exact ⟨by simp [State.init, State.audio?], by simp [State.init]⟩
  | @change s₀ e s s' tr o before ih _ change =>
    have audio := change.audio before
    refine ⟨fun j p found => ?_, fun pc member j p mine => ?_⟩
    · rcases audio.audio_source found with old | ⟨t, task, path, -⟩
      · exact (ih.record j p old).mono o
      · obtain ⟨w, r, k, fmt, dir, at', rfl, rfl⟩ := Task.savedPath_eq path
        exact (Destined.of_collector before task).2.2.mono o
    · rcases audio.file_source member mine with ⟨pc', old, same, -⟩ | ⟨path, -⟩
      · exact (ih.download pc' old j p same).mono o
      · exact (ih.record j p path).mono o

/-! ### What the callbacks are at -/

/-- The callback is in `save_audio` or has just returned from it. -/
def Task.saves : Task → Bool
  | .collector _ _ _ _ (.saving _ _) => true
  | .collector _ _ _ _ .saved => true
  | _ => false

/-- The file that the callback has created and not yet told the job store of. -/
def Task.writing : Task → Option Path
  | .collector _ _ (.store j fmt dir) _ (.saving _ true) => some (audioPath dir j fmt)
  | .collector _ _ (.store j fmt dir) _ .saved => some (audioPath dir j fmt)
  | _ => none

private theorem Task.writing_eq {t : Task} {p : Path} (path : t.writing = some p) :
    ∃ w r j fmt dir at' pc, t = .collector w r (.store j fmt dir) at' pc ∧
      p = audioPath dir j fmt ∧ ((∃ result, pc = .saving result true) ∨ pc = .saved) := by
  unfold Task.writing at path
  split at path
  · exact ⟨_, _, _, _, _, _, _, rfl, (Option.some.inj path).symm, .inl ⟨_, rfl⟩⟩
  · exact ⟨_, _, _, _, _, _, _, rfl, (Option.some.inj path).symm, .inr rfl⟩
  · cases path

private theorem Task.writing_of_savedPath {t : Task} {p : Path} (path : t.savedPath = some p) :
    t.writing = some p := by
  obtain ⟨w, r, j, fmt, dir, at', rfl, rfl⟩ := Task.savedPath_eq path
  rfl

private theorem Task.saves_of_writing {t : Task} {p : Path} (path : t.writing = some p) :
    t.saves = true := by
  obtain ⟨_, _, _, _, _, _, pc, rfl, -, ⟨result, rfl⟩ | rfl⟩ := Task.writing_eq path <;> rfl

theorem Task.phase_of_writing {t : Task} {p : Path} (path : t.writing = some p) :
    t.phase = some .saving ∧ t.idle = false := by
  obtain ⟨_, _, _, _, _, _, pc, rfl, -, ⟨result, rfl⟩ | rfl⟩ := Task.writing_eq path <;>
    exact ⟨rfl, rfl⟩

private theorem Task.saves_deliver {t : Task} {t0 : ℚ} (blocked : t.getting? = some t0)
    (outcome : GetOutcome) : (t.deliver outcome).saves = false := by
  cases t with
  | collector w r cb at' pc => cases pc <;> simp_all [Task.getting?, Task.deliver, Task.saves]
  | stream r pc => cases pc <;> rfl
  | clone w r pc => cases pc <;> rfl

private theorem Move.saves {now : ℚ} {k : JobId} {t t' : Task} {frame : Option Frame}
    (h : Move cfg now k e t t' frame) : t'.saves = false := by
  cases h with
  | timeout blocked => exact Task.saves_deliver blocked _
  | error blocked => exact Task.saves_deliver blocked _
  | _ => rfl

private theorem saves_update {tasks : JobId → Option Task} {j k : JobId} {new t' : Task}
    (task : Function.update tasks k (some new) j = some t') (saving : t'.saves = true)
    (not_new : new.saves = false) : tasks j = some t' := by
  rcases some_of_update task with ⟨-, rfl⟩ | ⟨-, old⟩
  · rw [not_new] at saving
    cases saving
  · exact old

/-- How a callback has come to where it is in `save_audio`. -/
inductive SaveSource (s s' : State) (o : List Obs) (j : JobId) (t' : Task) : Prop
  | old (task : s.tasks j = some t')
  | called {w : WorkerRef} {r : Request} {cb : OnComplete} {t : ℚ} {result : SynthesisResult}
      (now : t' = .collector w r cb t (.saving result false)) (told : .completed cb w result ∈ o)
  | opened {w : WorkerRef} {r : Request} {k : JobId} {fmt : AudioFormat} {dir : Path} {t : ℚ}
      {result : SynthesisResult}
      (task : s.tasks j = some (.collector w r (.store k fmt dir) t (.saving result false)))
      (now : t' = .collector w r (.store k fmt dir) t (.saving result true))
      (files : s'.files = s.files.write (audioPath dir k fmt) .partially)
  | written {w : WorkerRef} {r : Request} {k : JobId} {fmt : AudioFormat} {dir : Path} {t : ℚ}
      {result : SynthesisResult} {audio : Ndarray}
      (task : s.tasks j = some (.collector w r (.store k fmt dir) t (.saving result true)))
      (encoded : result.audio = some audio)
      (now : t' = .collector w r (.store k fmt dir) t .saved)
      (files : s'.files = s.files.write (audioPath dir k fmt)
        (.complete audio fmt result.sampleRate))

private theorem Change.saveSource (before : Visit cfg P tr s) (change : Change cfg s₀ e s s' o)
    {j : JobId} {t' : Task} (task' : s'.tasks j = some t') (saving : t'.saves = true) :
    SaveSource s s' o j t' := by
  cases change with
  | streamQueued | cloneStart | clonePut | leave | cloneDone | cancelAwaiting | cancelAssigned
  | saved => exact .old (saves_update task' saving rfl)
  | move _ move => exact .old (saves_update task' saving move.saves)
  | getReply _ blocked => exact .old (saves_update task' saving (Task.saves_deliver blocked _))
  | @collected k w r cb t t0 outcome result workers drain i next jobs futures statuses event task
      value slot call =>
    rcases some_of_update task' with ⟨rfl, rfl⟩ | ⟨-, old⟩
    · cases cb with
      | bridge =>
        have next_eq : CollectPc.ended = next := congrArg Prod.snd call
        subst next_eq
        cases saving
      | store =>
        obtain ⟨handle, found⟩ := collector_handle before task slot
        rcases onComplete_store found call with ⟨rfl, -⟩ | ⟨rfl, -⟩
        · exact .called rfl (by simp)
        · cases saving
    · exact .old old
  | @handedOver item w loop =>
    dsimp only at task'
    rcases handedOver_cases before loop with ⟨cb, -, -, tasks⟩ | ⟨-, tasks⟩ | ⟨-, tasks⟩
    · rw [tasks] at task'
      exact .old (saves_update task' saving rfl)
    · rw [tasks] at task'
      exact .old (saves_update task' saving rfl)
    · exact .old (tasks ▸ task')
  | saveOpen task =>
    rcases some_of_update task' with ⟨rfl, rfl⟩ | ⟨-, old⟩
    · exact .opened task rfl rfl
    · exact .old old
  | saveWrite task encoded =>
    rcases some_of_update task' with ⟨rfl, rfl⟩ | ⟨-, old⟩
    · exact .written task encoded rfl rfl
    · exact .old old
  | _ => exact .old task'

/-! ### What is in the files -/

def Unsaving (s : State) (j : JobId) : Prop :=
  ∀ w r k fmt dir t result opened,
    s.tasks j ≠ some (.collector w r (.store k fmt dir) t (.saving result opened))

theorem unsaving_of_closed (h : Visit cfg P tr s) {j : JobId} (closed : Closed s j) :
    Unsaving s j := by
  intro w r k fmt dir t result opened task
  have phase := phase_of_task h task rfl
  rw [closed.2] at phase
  cases phase

private theorem unsaving_of_saved {j : JobId} {t : Task} {p : Path} (task : s.tasks j = some t)
    (path : t.savedPath = some p) : Unsaving s j := by
  obtain ⟨_, _, _, _, _, _, rfl, -⟩ := Task.savedPath_eq path
  intro w r k fmt dir t result opened other
  rw [task] at other
  cases other

/-- The file of a job that is not being saved stays as it is until it is removed. -/
theorem Change.content (before : Visit cfg P tr s) (change : Change cfg s₀ e s s' o) {j : JobId}
    {p : Path} (named : NamedFor cfg j p) (drawn : j ∈ s.used) (idle : Unsaving s j) :
    s'.files p = s.files p ∨ s'.files p = none := by
  have apart : ∀ {k w r b fmt dir t result opened},
      s.tasks k = some (.collector w r (.store b fmt dir) t (.saving result opened)) →
        p ≠ audioPath dir b fmt := by
    rintro k w r b fmt dir t result opened task rfl
    obtain ⟨rfl, rfl, -⟩ := Destined.of_collector before task
    have other := used_of_task before (placed before) task
    obtain rfl := named.unique before ⟨fmt, rfl⟩ drawn other
    exact idle _ _ _ _ _ _ _ _ task
  cases change with
  | saveOpen task => exact .inl (Function.update_of_ne (apart task) _ _)
  | saveWrite task => exact .inl (Function.update_of_ne (apart task) _ _)
  | @deleteAfterSend g k path fails =>
    dsimp only
    split_ifs
    · exact .inl rfl
    · by_cases same : p = path
      · exact .inr (by rw [same, Files.remove, Function.update_self])
      · exact .inl (Function.update_of_ne same _ _)
  | @evict failures jobs files _ pass =>
    have kept := evictExpired_content s.jobs s.files s.now cfg.settings.jobTtlSeconds failures p
    rwa [pass] at kept
  | _ => exact .inl rfl

/-- The file is the complete audio of a result that the job's callback was called with. -/
def HoldsAudio (cfg : Config) (tr : List Obs) (files : Files) (j : JobId) (p : Path) : Prop :=
  ∃ fmt w result audio, .completed (.store j fmt cfg.settings.outputsDir) w result ∈ tr ∧
    result.audio = some audio ∧ p = audioPath cfg.settings.outputsDir j fmt ∧
      files p = some (.complete audio fmt result.sampleRate)

theorem HoldsAudio.keep {j : JobId} {p : Path} (h : HoldsAudio cfg tr s.files j p)
    (content : s'.files p = s.files p ∨ s'.files p = none) (there : s'.files.isFile p = true) :
    HoldsAudio cfg (tr ++ o) s'.files j p := by
  obtain ⟨fmt, w, result, audio, told, encoded, path, file⟩ := h
  have same : s'.files p = s.files p := by
    refine content.resolve_right fun gone => ?_
    rw [Files.isFile, gone] at there
    cases there
  exact ⟨fmt, w, result, audio, List.mem_append_left _ told, encoded, path, same.trans file⟩

structure Contents (cfg : Config) (tr : List Obs) (s : State) : Prop where
  saving : ∀ j w r cb t result opened,
    s.tasks j = some (.collector w r cb t (.saving result opened)) → .completed cb w result ∈ tr
  writing : ∀ j t p, s.tasks j = some t → t.writing = some p → s.files.isFile p = true
  saved : ∀ j t p, s.tasks j = some t → t.savedPath = some p → HoldsAudio cfg tr s.files j p
  record : ∀ j p, s.audio? j = some p → HoldsAudio cfg tr s.files j p

theorem NamedFor.of_writing (h : Visit cfg P tr s) {j : JobId} {t : Task} {p : Path}
    (task : s.tasks j = some t) (path : t.writing = some p) : NamedFor cfg j p := by
  obtain ⟨_, _, _, fmt, _, _, _, rfl, rfl, -⟩ := Task.writing_eq path
  obtain ⟨rfl, rfl, -⟩ := Destined.of_collector h task
  exact ⟨fmt, rfl⟩

private theorem Contents.step (h : Contents cfg tr s) (before : Visit cfg P tr s)
    (meets : P s₀ e) (change : Change cfg s₀ e s s' o) : Contents cfg (tr ++ o) s' := by
  have source : ∀ {j t'}, s'.tasks j = some t' → t'.saves = true → SaveSource s s' o j t' :=
    fun task' saving => change.saveSource before task' saving
  have shelved := shelf before
  have next := shelf (before.next meets change)
  -- The file of a job that is still being saved is not removed.
  have keeps : ∀ {j t p}, s.tasks j = some t → t.writing = some p →
      s.files.isFile p = true → s'.files.isFile p = true := by
    intro j t p task path there
    by_contra gone
    obtain ⟨phase, busy⟩ := Task.phase_of_writing path
    obtain ⟨ended, -⟩ := (change.audio before).loses before shelved (.of_writing before task path)
      (used_of_task before (placed before) task) there (by simpa using gone)
    have carried := phase_of_task before task busy
    rw [ended.2, phase] at carried
    cases carried
  refine ⟨?_, ?_, ?_, ?_⟩
  · intro j w r cb t result opened task'
    cases source task' rfl with
    | old task => exact List.mem_append_left _ (h.saving _ _ _ _ _ _ _ task)
    | called now told =>
      cases now
      exact List.mem_append_right _ told
    | opened task now =>
      cases now
      exact List.mem_append_left _ (h.saving _ _ _ _ _ _ _ task)
    | written _ _ now => cases now
  · intro j t' p task' path
    cases source task' (Task.saves_of_writing path) with
    | old task => exact keeps task path (h.writing _ _ _ task path)
    | called now =>
      subst now
      obtain ⟨_, _, _, _, _, _, _, same, -, ⟨_, rfl⟩ | rfl⟩ := Task.writing_eq path <;> cases same
    | opened task now files =>
      subst now
      obtain rfl := Option.some.inj path
      exact files ▸ Files.isFile_write s.files _ _ (.inl rfl)
    | written task _ now files =>
      subst now
      obtain rfl := Option.some.inj path
      exact files ▸ Files.isFile_write s.files _ _ (.inl rfl)
  · intro j t' p task' path
    have writes := Task.writing_of_savedPath path
    cases source task' (Task.saves_of_writing writes) with
    | old task =>
      refine (h.saved j t' p task path).keep ?_ (keeps task writes (h.writing _ _ _ task writes))
      exact change.content before (.of_saved before task path)
        (used_of_task before (placed before) task) (unsaving_of_saved task path)
    | called now =>
      subst now
      obtain ⟨_, _, _, _, _, _, same, -⟩ := Task.savedPath_eq path
      cases same
    | opened _ now =>
      subst now
      obtain ⟨_, _, _, _, _, _, same, -⟩ := Task.savedPath_eq path
      cases same
    | @written w r k fmt dir t result audio task encoded now files =>
      subst now
      obtain rfl := Option.some.inj path
      have told := h.saving _ _ _ _ _ _ _ task
      obtain ⟨rfl, rfl, -⟩ := Destined.of_collector before task
      refine ⟨fmt, w, result, audio, List.mem_append_left _ told, encoded, rfl, ?_⟩
      rw [files, Files.write, Function.update_self]
  · intro j p found
    have there := (next.record j p found).2
    rcases (change.audio before).audio_source found with old | ⟨t, task, path, -⟩
    · have owner := (shelved.record j p old).1
      exact (h.record j p old).keep (change.content before owner.named owner.closed.1
        (unsaving_of_closed before owner.closed)) there
    · exact (h.saved j t p task path).keep (change.content before (.of_saved before task path)
        (used_of_task before (placed before) task) (unsaving_of_saved task path)) there

theorem contents (h : Visit cfg P tr s) : Contents cfg tr s := by
  induction h using visit_induction with
  | start =>
    exact ⟨by simp [State.init], by simp [State.init], by simp [State.init],
      by simp [State.init, State.audio?]⟩
  | change before ih meets change => exact ih.step before meets change

/-! ### Who knows of a file -/

/-- Some callback is writing the file, or some record has its path. -/
def Tracked (s : State) (q : Path) : Prop :=
  (∃ j t, s.tasks j = some t ∧ t.writing = some q) ∨ ∃ j, s.audio? j = some q

private theorem audio_of_old {store : JobStore} {now : ℚ} {j k : JobId} {text lang spk : String}
    {q : Path} (other : j ≠ k) (found : (store.get? j).bind Job.audioPath = some q) :
    ((store.create now k text lang spk).get? j).bind Job.audioPath = some q := by
  rw [JobStore.get?_create_of_ne _ _ _ _ _ _ other]
  exact found

/-- How a record can come to lose its path. -/
inductive PathLost (cfg : Config) (s₀ s s' : State) (e : Event) (j : JobId) : Prop
  | cleared {g : Nat} {p : Path} {fails : Bool} (event : e = .deleteAfterSend g fails)
      (start : s = s₀) (download : s.downloads[g]? = some (.sending j p))
      (files : s'.files = if fails then s.files else s.files.remove p)
  | evicted {failures : List Path} {job : Job} (event : e = .evict failures) (start : s = s₀)
      (record : s.jobs.get? j = some job)
      (old : job.expired (s.now - cfg.settings.jobTtlSeconds) = true)
      (pass : evictExpired s.jobs s.files s.now cfg.settings.jobTtlSeconds failures =
        (s'.jobs, s'.files))

theorem Change.audio_kept (before : Visit cfg P tr s) (change : Change cfg s₀ e s s' o) {j : JobId}
    {q : Path} (found : s.audio? j = some q) :
    s'.audio? j = some q ∨ PathLost cfg s₀ s s' e j := by
  have closed := ((shelf before).record j q found).1.closed
  have apart : ∀ {k}, s.canDraw k → j ≠ k := fun fresh same => fresh.2 (same ▸ closed.1)
  cases change with
  | jobQueued fresh | jobRaised fresh => exact .inl (audio_of_old (apart fresh) found)
  | jobTurnedAway fresh =>
    exact .inl ((audioPath_markFailed ..).trans (audio_of_old (apart fresh) found))
  | batchRefused fresh =>
    exact .inl ((audioPath_failAll ..).trans (audio_of_old (apart fresh) found))
  | @collected k w r cb t t0 outcome result workers drain i next jobs futures statuses event task
      value slot call =>
    obtain ⟨handle, at_hand⟩ := collector_handle before task slot
    exact .inl ((onComplete_audioPath at_hand call j).trans found)
  | @saved k w r b fmt dir t task =>
    obtain rfl : b = k := (collector_serves before task).1
    have other : j ≠ b := by
      rintro rfl
      have phase := phase_of_task before task rfl
      rw [closed.2] at phase
      cases phase
    refine .inl ?_
    rw [State.audio?, JobStore.markDone, Dict.get?_modify, if_neg other]
    exact found
  | @deleteAfterSend g k p fails download event =>
    by_cases here : j = k
    · exact .inr (.cleared event rfl (here ▸ download) rfl)
    · refine .inl ?_
      rw [State.audio?, JobStore.clearAudioPath, Dict.get?_modify, if_neg here]
      exact found
  | @evict failures jobs files event pass =>
    obtain ⟨job, record, path⟩ := Option.bind_eq_some_iff.mp found
    by_cases old : job.expired (s.now - cfg.settings.jobTtlSeconds) = true
    · exact .inr (.evicted event rfl record old pass)
    · have kept := get?_evictExpired s.jobs s.files s.now cfg.settings.jobTtlSeconds failures j
      rw [pass, record, Option.filter_some] at kept
      have there : jobs.get? j = some job := by simpa [old] using kept
      exact .inl (by rw [State.audio?, there, Option.bind_some, path])
  | _ => exact .inl found

private theorem Move.writing {now : ℚ} {k : JobId} {t t' : Task} {frame : Option Frame}
    (h : Move cfg now k e t t' frame) {q : Path} (path : t.writing = some q) :
    e = .saveRaise k ∧ ∃ w r i fmt dir at' result,
      t = .collector w r (.store i fmt dir) at' (.saving result true) := by
  cases h with
  | saveRaise =>
    obtain ⟨_, _, _, _, _, _, _, same, -, ⟨_, rfl⟩ | rfl⟩ := Task.writing_eq path <;> cases same
    exact ⟨rfl, _, _, _, _, _, _, _, rfl⟩
  | @collectorStart w r cb | @collectorRaised w r cb => cases cb <;> cases path
  | timeout blocked | error blocked =>
    obtain ⟨_, _, _, _, _, _, _, rfl, -, ⟨_, rfl⟩ | rfl⟩ := Task.writing_eq path <;> cases blocked
  | _ => cases path

/-- How a callback that has created its file can be over with it. -/
inductive WriterLost (s₀ s s' : State) (e : Event) (j : JobId) (q : Path) : Prop
  | raised {w : WorkerRef} {r : Request} {i : JobId} {fmt : AudioFormat} {dir : Path} {t : ℚ}
      {result : SynthesisResult} (event : e = .saveRaise j) (start : s = s₀)
      (task : s.tasks j = some (.collector w r (.store i fmt dir) t (.saving result true)))
  | marked {w : WorkerRef} {r : Request} {fmt : AudioFormat} {dir : Path} {t : ℚ}
      (event : e = .resume j) (start : s = s₀)
      (task : s.tasks j = some (.collector w r (.store j fmt dir) t .saved))
      (path : q = audioPath dir j fmt) (jobs : s'.jobs = s.jobs.markDone s.now j q)

theorem Change.writer_kept (before : Visit cfg P tr s) (change : Change cfg s₀ e s s' o)
    {j : JobId} {t : Task} {q : Path} (task : s.tasks j = some t) (path : t.writing = some q) :
    (∃ t', s'.tasks j = some t' ∧ t'.writing = some q) ∨ WriterLost s₀ s s' e j q := by
  -- Another task's update keeps this one.
  have aside : ∀ {k : JobId} {t₁ : Option Task} {t₂ : Task}, s.tasks k = t₁ →
      (∀ t₀, t₁ = some t₀ → t₀.writing = none) →
      ∃ t', Function.update s.tasks k (some t₂) j = some t' ∧ t'.writing = some q := by
    intro k t₁ t₂ there quiet
    have other : j ≠ k := by
      rintro rfl
      have none := quiet t (there.symm.trans task)
      rw [path] at none
      cases none
    exact ⟨t, by rw [Function.update_of_ne other, task], path⟩
  have fresh_aside : ∀ {k : JobId} {t₂ : Task}, s.canDraw k →
      ∃ t', Function.update s.tasks k (some t₂) j = some t' ∧ t'.writing = some q :=
    fun fresh => aside (tasks_of_fresh before (placed before) fresh) (by simp)
  cases change with
  | streamQueued fresh | cloneStart _ fresh => exact .inl (fresh_aside fresh)
  | clonePut there | leave there | cloneDone _ there | cancelAwaiting _ there
  | cancelAssigned _ there =>
    exact .inl (aside there fun t₀ same => by cases same; rfl)
  | @collected k w r cb t t0 outcome result workers drain i next jobs futures statuses
      event there =>
    exact .inl (aside there fun t₀ same => by cases same; cases cb <;> rfl)
  | getReply there blocked =>
    refine .inl (aside there fun t₀ same => ?_)
    obtain rfl := Option.some.inj same
    by_contra writes
    obtain ⟨p, writes⟩ := Option.ne_none_iff_exists'.mp writes
    obtain ⟨_, _, _, _, _, _, _, rfl, -, ⟨_, rfl⟩ | rfl⟩ := Task.writing_eq writes <;> cases blocked
  | @move k t₁ t' frame there move =>
    by_cases here : j = k
    · subst here
      rw [task] at there
      obtain rfl := Option.some.inj there
      obtain ⟨event, w, r, i, fmt, dir, at', result, rfl⟩ := move.writing path
      exact .inr (.raised event rfl task)
    · exact .inl ⟨t, (Function.update_of_ne here _ _).trans task, path⟩
  | @handedOver item w loop =>
    rcases handedOver_cases before loop with ⟨cb, -, free, tasks⟩ | ⟨waits, tasks⟩ | ⟨-, tasks⟩
    · rw [tasks]
      exact .inl (aside free (by simp))
    · rw [tasks]
      exact .inl (aside waits fun t₀ same => by cases same; rfl)
    · exact .inl ⟨t, tasks ▸ task, path⟩
  | saveOpen there => exact .inl (aside there fun t₀ same => by cases same; rfl)
  | @saveWrite k w r b fmt dir t₁ result audio there =>
    by_cases here : j = k
    · subst here
      rw [task] at there
      obtain rfl := Option.some.inj there
      exact .inl ⟨_, Function.update_self _ _ _, path⟩
    · exact .inl ⟨t, (Function.update_of_ne here _ _).trans task, path⟩
  | @saved k w r b fmt dir t₁ there event =>
    by_cases here : j = k
    · subst here
      obtain rfl : b = j := (collector_serves before there).1
      rw [task] at there
      obtain rfl := Option.some.inj there
      obtain rfl := Option.some.inj path
      exact .inr (.marked event rfl task rfl rfl)
    · exact .inl ⟨t, (Function.update_of_ne here _ _).trans task, path⟩
  | _ => exact .inl ⟨t, task, path⟩

theorem Change.file_source (change : Change cfg s₀ e s s' o) {q : Path}
    (there : s'.files.isFile q = true) : s.files.isFile q = true ∨
      ∃ j t, s'.tasks j = some t ∧ t.writing = some q := by
  have writes : ∀ {k : JobId} {t : Task} {file : SavedFile} {p : Path}, t.writing = some p →
      (s.files.write p file).isFile q = true → s.files.isFile q = true ∨
        ∃ j t', Function.update s.tasks k (some t) j = some t' ∧ t'.writing = some q := by
    intro k t file p path there
    by_cases same : q = p
    · exact .inr ⟨k, t, Function.update_self _ _ _, same ▸ path⟩
    · rw [Files.isFile, Files.write, Function.update_of_ne same] at there
      exact .inl there
  cases change with
  | saveOpen => exact writes rfl there
  | saveWrite => exact writes rfl there
  | @deleteAfterSend g k path fails =>
    refine .inl ?_
    dsimp only at there
    split_ifs at there
    · exact there
    · by_cases same : q = path
      · rw [same, Files.isFile, Files.remove, Function.update_self] at there
        cases there
      · rwa [Files.isFile_remove_of_ne _ same] at there
  | @evict failures jobs files _ pass =>
    have kept := evictExpired_content s.jobs s.files s.now cfg.settings.jobTtlSeconds failures q
    rw [pass] at kept
    refine .inl ?_
    rcases kept with same | gone
    · rwa [Files.isFile, ← same]
    · have absent : files q = none := gone
      simp [Files.isFile, absent] at there
  | _ => exact .inl there

end XttsServer.Model
