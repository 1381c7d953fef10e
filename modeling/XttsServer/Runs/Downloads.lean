import XttsServer.Runs.Lifecycle

/-!
The audio files and their downloads: which changes set the path of a record, write
or remove a file and move a response on, and what every run keeps of them.
-/

set_option autoImplicit false
set_option relaxedAutoImplicit false

namespace XttsServer.Model

open XttsServer.Foundations XttsServer.Foundations.Transition

variable {cfg : Config} {P : State → Event → Prop} {s s' s₀ : State} {e : Event}
  {tr tr' o : List Obs}

/-! ### Paths -/

theorem notMem_of_uuid {j : JobId} (uuid : isUuid j = true) {c : Char}
    (foreign : (c.isDigit || (decide ('a' ≤ c) && decide (c ≤ 'f')) || decide (c = '-')) = false) :
    c ∉ j.toList := by
  intro member
  simp only [isUuid, Bool.and_eq_true, List.all_eq_true] at uuid
  rw [uuid.2 c member] at foreign
  cases foreign

private theorem osPathJoin_outputFilename (dir : Path) {j : JobId} (uuid : isUuid j = true)
    (fmt : AudioFormat) : audioPath dir j fmt =
      (if dir = "" ∨ dir.toList.getLast? = some '/' then dir else dir ++ "/") ++
        outputFilename j fmt := by
  have relative : (outputFilename j fmt).toList.head? ≠ some '/' := by
    have slash := notMem_of_uuid uuid (c := '/') (by decide)
    have some_char : j.toList ≠ [] := by
      simp only [isUuid, Bool.and_eq_true, decide_eq_true_eq] at uuid
      simpa using uuid.1
    rw [outputFilename, String.toList_append, String.toList_append, List.append_assoc,
      List.head?_append_of_ne_nil _ some_char]
    exact fun first => slash (List.mem_of_head? first)
  rw [audioPath, osPathJoin, if_neg relative]
  split_ifs <;> rfl

private theorem audioPath_inj (dir : Path) {j k : JobId} (uuid_j : isUuid j = true)
    (uuid_k : isUuid k = true) {fmt fmt' : AudioFormat}
    (same : audioPath dir j fmt = audioPath dir k fmt') : j = k := by
  rw [osPathJoin_outputFilename dir uuid_j, osPathJoin_outputFilename dir uuid_k] at same
  have names := congrArg String.toList same
  simp only [String.toList_append, List.append_cancel_left_eq, outputFilename, List.append_assoc]
    at names
  -- The ids end at the first dot.
  have stem : ∀ {i : JobId}, isUuid i = true → ∀ rest : List Char,
      (i.toList ++ ('.' :: rest)).takeWhile (· ≠ '.') = i.toList := by
    intro i uuid rest
    have dot := notMem_of_uuid uuid (c := '.') (by decide)
    have before : ∀ c ∈ i.toList, decide (c ≠ '.') = true := by
      intro c hc
      exact decide_eq_true fun same => dot (same ▸ hc)
    rw [List.takeWhile_append_of_pos before]
    simp
  have cut := congrArg (List.takeWhile (· ≠ '.')) names
  have point : ".".toList = ['.'] := rfl
  simp only [point, List.singleton_append, stem uuid_j, stem uuid_k] at cut
  exact String.toList_injective cut

theorem audioPath_ne_empty (dir : Path) {j : JobId} (uuid : isUuid j = true) (fmt : AudioFormat) :
    audioPath dir j fmt ≠ "" := by
  intro empty
  have chars := congrArg String.toList empty
  rw [osPathJoin_outputFilename dir uuid, outputFilename] at chars
  simp [String.toList_append] at chars

/-! ### Records and their paths -/

private theorem audioPath_modify (store : JobStore) (k : JobId) {f : Job → Job}
    (kept : ∀ job, (f job).audioPath = job.audioPath) (j : JobId) :
    ((store.modify k f).get? j).bind Job.audioPath = (store.get? j).bind Job.audioPath := by
  rw [Dict.get?_modify]
  split_ifs with here
  · subst here
    cases store.get? j with
    | none => rfl
    | some job => exact kept job
  · rfl

private theorem audioPath_markRunning (store : JobStore) (now : ℚ) (k : JobId) (workerId : String)
    (gpuIndex : Int) (ms : ℚ) (j : JobId) :
    ((store.markRunning now k workerId gpuIndex ms).get? j).bind Job.audioPath =
      (store.get? j).bind Job.audioPath :=
  audioPath_modify store k (f := fun job => job.markRunning now workerId gpuIndex ms)
    (fun _ => rfl) j

theorem audioPath_markFailed (store : JobStore) (now : ℚ) (k : JobId) (error : String) (j : JobId) :
    ((store.markFailed now k error).get? j).bind Job.audioPath =
      (store.get? j).bind Job.audioPath :=
  audioPath_modify store k (f := fun job => job.markFailed now error) (fun _ => rfl) j

theorem audioPath_failAll (store : JobStore) (now : ℚ) (error : String) (ids : List JobId)
    (j : JobId) : ((store.failAll now error ids).get? j).bind Job.audioPath =
      (store.get? j).bind Job.audioPath := by
  induction ids generalizing store with
  | nil => rfl
  | cons k ids ih =>
    rw [JobStore.failAll, List.foldl_cons]
    exact (ih _).trans (audioPath_markFailed _ _ _ _ _)

private theorem audioPath_of_create {store : JobStore} {now : ℚ} {k : JobId}
    {text lang spk : String} {j : JobId} {p : Path}
    (found : ((store.create now k text lang spk).get? j).bind Job.audioPath = some p) :
    (store.get? j).bind Job.audioPath = some p := by
  rw [JobStore.create, Dict.get?_set] at found
  split_ifs at found
  · cases found
  · exact found

theorem onComplete_audioPath {cb : OnComplete} {w : WorkerRef} {result : SynthesisResult} {ms : ℚ}
    {jobs : JobStore} {futures : JobId → Option SynthesisResult} {statuses : List JobStatus}
    {next : CollectPc} {handle : WorkerHandle} (found : s.workers[w]? = some handle)
    (call : onComplete s cb w result ms =
      (({ s with jobs, resultFutures := futures }, statuses.map (.marked cb.jobId)), next))
    (j : JobId) : (jobs.get? j).bind Job.audioPath = (s.jobs.get? j).bind Job.audioPath := by
  cases cb with
  | bridge k =>
    have jobs_eq := congrArg (fun r => r.1.1.jobs) call
    simp only [onComplete] at jobs_eq
    rw [← jobs_eq]
  | store k fmt dir =>
    rcases onComplete_store found call with ⟨-, rfl, -⟩ | ⟨-, ⟨error, rfl⟩, -⟩
    · exact audioPath_markRunning ..
    · exact (audioPath_markFailed ..).trans (audioPath_markRunning ..)

/-! ### What a change does to files and downloads -/

/-- The file of a collector that has saved its audio and not yet marked its job. -/
def Task.savedPath : Task → Option Path
  | .collector _ _ (.store j fmt dir) _ .saved => some (audioPath dir j fmt)
  | _ => none

theorem Task.phase_of_saved {t : Task} {p : Path} (path : t.savedPath = some p) :
    t.phase = some .saving ∧ t.idle = false := by
  unfold Task.savedPath at path
  split at path
  · exact ⟨rfl, rfl⟩
  · cases path

/-- The job and the file of a response that is not over. -/
def DownloadPc.file? : DownloadPc → Option (JobId × Path)
  | .opening j p => some (j, p)
  | .sending j p => some (j, p)
  | .ended => none

def DownloadPc.holds (j : JobId) (pc : DownloadPc) : Bool := pc.file?.any fun file => file.1 = j

@[simp] def Obs.isDownload : Obs → Bool
  | .audio _ _ _ => true
  | .served _ _ => true
  | .vanished _ _ => true
  | _ => false

inductive AudioStep (cfg : Config) (s₀ s s' : State) (e : Event) (o : List Obs) : Prop
  | aside (downloads : s'.downloads = s.downloads)
      (files : ∀ q, s.files.isFile q = true → s'.files.isFile q = true)
      (audio : ∀ k q, s'.audio? k = some q → s.audio? k = some q)
      (silent : o.filter Obs.isDownload = [])
  | saved {j : JobId} {t : Task} {p : Path} (task : s.tasks j = some t)
      (path : t.savedPath = some p) (ended : s'.phase j = none)
      (downloads : s'.downloads = s.downloads) (files : s'.files = s.files)
      (audio : ∀ k q, s'.audio? k = some q → s.audio? k = some q ∨ k = j ∧ q = p)
      (silent : o.filter Obs.isDownload = [])
  | asked {j : JobId} {pc : DownloadPc} {answer : Except Exc Path} (event : e = .getAudio j)
      (start : s = s₀) (given : audioAnswer s.files j (s.jobs.get? j) = answer)
      (next : pc = .ended ∧ (∃ exc, answer = .error exc) ∨
        ∃ p, s.audio? j = some p ∧ pc = .opening j p ∧ answer = .ok p)
      (downloads : s'.downloads = s.downloads ++ [pc]) (files : s'.files = s.files)
      (jobs : s'.jobs = s.jobs) (told : o = [.audio s.downloads.length j answer])
  | opened {g : Nat} {j : JobId} {p : Path} (download : s.downloads[g]? = some (.opening j p))
      (downloads : s'.downloads = s.downloads.set g (.sending j p)) (files : s'.files = s.files)
      (jobs : s'.jobs = s.jobs) (told : o = [.served g j])
  | vanished {g : Nat} {j : JobId} {p : Path} (download : s.downloads[g]? = some (.opening j p))
      (absent : s.files.isFile p = false) (downloads : s'.downloads = s.downloads.set g .ended)
      (files : s'.files = s.files) (jobs : s'.jobs = s.jobs) (told : o = [.vanished g j])
  | deleted {g : Nat} {j : JobId} {p : Path} (download : s.downloads[g]? = some (.sending j p))
      (downloads : s'.downloads = s.downloads.set g .ended)
      (files : ∀ q, q ≠ p → s.files.isFile q = true → s'.files.isFile q = true)
      (audio : ∀ k, s'.audio? k = if k = j then none else s.audio? k) (told : o = [])
  | evicted {failures : List Path} (event : e = .evict failures) (start : s = s₀)
      (downloads : s'.downloads = s.downloads)
      (files : ∀ q, s.files.isFile q = true →
        (∀ k job, s.jobs.get? k = some job →
          job.expired (s.now - cfg.settings.jobTtlSeconds) = true → job.audioPath = some q →
            q ∈ failures) → s'.files.isFile q = true)
      (audio : ∀ k q, s'.audio? k = some q → ∃ job, s.jobs.get? k = some job ∧
        job.audioPath = some q ∧ job.expired (s.now - cfg.settings.jobTtlSeconds) = false)
      (told : o = [])

private theorem AudioStep.quiet (downloads : s'.downloads = s.downloads)
    (files : s'.files = s.files) (audio : ∀ k q, s'.audio? k = some q → s.audio? k = some q)
    (silent : o.filter Obs.isDownload = []) : AudioStep cfg s₀ s s' e o :=
  .aside downloads (fun _ there => files ▸ there) audio silent

theorem Change.audio (before : Visit cfg P tr s) (change : Change cfg s₀ e s s' o) :
    AudioStep cfg s₀ s s' e o := by
  cases change with
  | jobQueued | jobRaised =>
    exact .quiet rfl rfl (fun _ _ found => audioPath_of_create found) (by simp)
  | jobTurnedAway _ _ told =>
    refine .quiet rfl rfl (fun k q found => ?_) (by rcases told with rfl | rfl <;> simp)
    exact audioPath_of_create ((audioPath_markFailed ..).symm.trans found)
  | batchRefused =>
    refine .quiet rfl rfl (fun k q found => ?_) ?_
    · exact audioPath_of_create ((audioPath_failAll _ _ _ _ k).symm.trans found)
    · simp [List.filter_map, Function.comp_def]
  | @answered _ a answer =>
    refine .quiet rfl rfl (fun _ _ found => found) ?_
    cases a <;> simp [Obs.isAnswer] at answer ⊢
  | @collected j w r cb t t0 outcome result workers drain i next jobs futures statuses event task
      value slot call =>
    obtain ⟨handle, found⟩ := collector_handle before task slot
    refine .quiet rfl rfl (fun k q there => ?_) (by simp [List.filter_map, Function.comp_def])
    exact (onComplete_audioPath found call k).symm.trans there
  | leave | cloneDone | move =>
    exact .quiet rfl rfl (fun _ _ found => found) (by simp [List.filter_map, Function.comp_def])
  | saveOpen | saveWrite =>
    refine .aside rfl (fun q there => ?_) (fun _ _ found => found) (by simp)
    exact Files.isFile_write s.files _ _ (.inr there)
  | @saved j w r job fmt dir t task =>
    have named : job = j := (collector_serves before task).1
    subst named
    have ended : (Task.collector w r (.store job fmt dir) t .ended).phase = none := rfl
    refine .saved task rfl ?_ rfl rfl (fun k q found => ?_)
      (by simp [marks_eq_map, List.filter_map, Function.comp_def])
    · refine (phase_update_self before task rfl ?_ ?_).trans ended <;> rfl
    · simp only [State.audio?, JobStore.markDone, Dict.get?_modify] at found
      split_ifs at found with here
      · obtain ⟨job', present, path⟩ := Option.bind_eq_some_iff.mp found
        obtain ⟨old, -, rfl⟩ := Option.map_eq_some_iff.mp present
        exact .inr ⟨here, (Option.some.inj path).symm⟩
      · exact .inl found
  | getAudio event given next => exact .asked event rfl given next rfl rfl rfl rfl
  | openFile download => exact .opened download rfl rfl rfl rfl
  | vanished download absent => exact .vanished download absent rfl rfl rfl rfl
  | @deleteAfterSend g j p fails download =>
    refine .deleted download rfl (fun q other there => ?_) (fun k => ?_) rfl
    · dsimp only
      split_ifs
      · exact there
      · rwa [Files.isFile_remove_of_ne _ other]
    · simp only [State.audio?, JobStore.clearAudioPath, Dict.get?_modify]
      split_ifs with here
      · cases s.jobs.get? j <;> rfl
      · rfl
  | @evict failures jobs files event pass =>
    have kept := get?_evictExpired s.jobs s.files s.now cfg.settings.jobTtlSeconds failures
    have spare := @isFile_evictExpired s.jobs s.files s.now cfg.settings.jobTtlSeconds failures
    rw [pass] at kept spare
    refine .evicted event rfl rfl (fun q there spared => spare there spared)
      (fun k q found => ?_) rfl
    obtain ⟨job, there, path⟩ := Option.bind_eq_some_iff.mp found
    obtain ⟨old, young⟩ := Option.filter_eq_some_iff.mp ((kept k).symm.trans there)
    exact ⟨job, old, path, by simpa using young⟩
  | _ => exact .quiet rfl rfl (fun _ _ found => found) (by simp)

private theorem saved_update {tasks : JobId → Option Task} {j k : JobId} {new t' : Task} {p : Path}
    (task : Function.update tasks k (some new) j = some t') (path : t'.savedPath = some p)
    (not_yet : new.savedPath = none) : ∃ t, tasks j = some t ∧ t.savedPath = some p := by
  rcases some_of_update task with ⟨-, rfl⟩ | ⟨-, old⟩
  · rw [not_yet] at path
    cases path
  · exact ⟨t', old, path⟩

private theorem Task.savedPath_deliver {t : Task} {t0 : ℚ} (blocked : t.getting? = some t0)
    (outcome : GetOutcome) : (t.deliver outcome).savedPath = none := by
  cases t with
  | collector w r cb at' pc =>
    cases pc <;> simp only [Task.getting?] at blocked <;> try contradiction
    cases cb <;> rfl
  | stream r pc => cases pc <;> rfl
  | clone w r pc => cases pc <;> rfl

private theorem Move.savedPath {now : ℚ} {k : JobId} {t t' : Task} {frame : Option Frame}
    (h : Move cfg now k e t t' frame) : t'.savedPath = none := by
  cases h with
  | @collectorStart w r cb | @collectorRaised w r cb | @saveRaise w r cb => cases cb <;> rfl
  | timeout blocked => exact Task.savedPath_deliver blocked _
  | error blocked => exact Task.savedPath_deliver blocked _
  | _ => rfl

private theorem Change.saves (before : Visit cfg P tr s) (change : Change cfg s₀ e s s' o)
    {j : JobId} {t' : Task} {p : Path} (task' : s'.tasks j = some t')
    (path : t'.savedPath = some p) :
    (∃ t, s.tasks j = some t ∧ t.savedPath = some p) ∨ s'.files.isFile p = true := by
  cases change with
  | streamQueued | cloneStart | clonePut | leave | cloneDone | cancelAwaiting | cancelAssigned
  | saveOpen | saved => exact .inl (saved_update task' path rfl)
  | move _ move => exact .inl (saved_update task' path move.savedPath)
  | getReply _ blocked => exact .inl (saved_update task' path (Task.savedPath_deliver blocked _))
  | @collected k w r cb t t0 outcome result workers drain i next jobs futures statuses event task
      value slot call =>
    refine .inl (saved_update task' path ?_)
    cases cb with
    | bridge => rfl
    | store =>
      obtain ⟨handle, found⟩ := collector_handle before task slot
      rcases onComplete_store found call with ⟨rfl, -⟩ | ⟨rfl, -⟩ <;> rfl
  | @handedOver item w loop =>
    dsimp only at task'
    rcases handedOver_cases before loop with ⟨cb, -, -, tasks⟩ | ⟨-, tasks⟩ | ⟨-, tasks⟩
    · rw [tasks] at task'
      exact .inl (saved_update task' path (by cases cb <;> rfl))
    · rw [tasks] at task'
      exact .inl (saved_update task' path rfl)
    · exact .inl ⟨t', tasks ▸ task', path⟩
  | @saveWrite k w r job fmt dir t result audio task =>
    rcases some_of_update task' with ⟨-, rfl⟩ | ⟨-, old⟩
    · exact .inr (Files.isFile_write s.files _ _ (.inl (Option.some.inj path).symm))
    · exact .inl ⟨t', old, path⟩
  | _ => exact .inl ⟨t', task', path⟩

/-! ### Every file has its owner -/

/-- The path is one that the job's collector writes to. -/
def NamedFor (cfg : Config) (j : JobId) (p : Path) : Prop :=
  ∃ fmt, p = audioPath cfg.settings.outputsDir j fmt

theorem NamedFor.unique (h : Visit cfg P tr s) {j k : JobId} {p : Path} (mine : NamedFor cfg j p)
    (yours : NamedFor cfg k p) (drawn_j : j ∈ s.used) (drawn_k : k ∈ s.used) : j = k := by
  obtain ⟨fmt, rfl⟩ := mine
  obtain ⟨fmt', same⟩ := yours
  exact audioPath_inj _ (used_uuid h j drawn_j) (used_uuid h k drawn_k) same

theorem NamedFor.of_saved (h : Visit cfg P tr s) {j : JobId} {t : Task} {p : Path}
    (task : s.tasks j = some t) (path : t.savedPath = some p) : NamedFor cfg j p := by
  unfold Task.savedPath at path
  split at path
  · rename_i w r k fmt dir at'
    have serves := (placed h).serves j _ task
    have named : r.jobId = j := serves.named
    obtain rfl := Option.some.inj path
    cases serves.fits with
    | collector own =>
      rcases own with other | ⟨fmt', same⟩
      · cases other
      · obtain ⟨rfl, rfl, rfl⟩ := OnComplete.store.inj same
        exact ⟨fmt, congrArg (audioPath _ · fmt) named⟩
  · cases path

/-- The job is over, and the path is that of its audio. -/
structure Shelved (cfg : Config) (s : State) (j : JobId) (p : Path) : Prop where
  closed : Closed s j
  named : NamedFor cfg j p

structure Shelf (cfg : Config) (tr : List Obs) (s : State) : Prop where
  record : ∀ j p, s.audio? j = some p → Shelved cfg s j p ∧ s.files.isFile p = true
  saved : ∀ j t p, s.tasks j = some t → t.savedPath = some p → s.files.isFile p = true
  download : ∀ pc ∈ s.downloads, ∀ j p, pc.file? = some (j, p) → Shelved cfg s j p
  answered : ∀ g j p, .audio g j (.ok p) ∈ tr → Closed s j

/-- The two ways in which the file of a job is lost. -/
inductive FileLost (cfg : Config) (s₀ s s' : State) (e : Event) (j : JobId) (p : Path) : Prop
  | deleted {g : Nat} (download : s.downloads[g]? = some (.sending j p))
      (downloads : s'.downloads = s.downloads.set g .ended)
  | evicted {failures : List Path} {job : Job} (event : e = .evict failures) (start : s = s₀)
      (record : s.jobs.get? j = some job)
      (old : job.expired (s.now - cfg.settings.jobTtlSeconds) = true) (unlisted : p ∉ failures)

theorem AudioStep.loses (before : Visit cfg P tr s) (shelf : Shelf cfg tr s)
    (step : AudioStep cfg s₀ s s' e o) {j : JobId} {p : Path} (named : NamedFor cfg j p)
    (drawn : j ∈ s.used) (there : s.files.isFile p = true) (gone : s'.files.isFile p = false) :
    Closed s j ∧ s'.audio? j = none ∧ FileLost cfg s₀ s s' e j p := by
  have kept : ¬ s'.files.isFile p = true := by simp [gone]
  cases step with
  | aside _ files => exact absurd (files p there) kept
  | saved _ _ _ _ files | asked _ _ _ _ _ files | opened _ _ files | vanished _ _ _ files =>
    exact absurd (files ▸ there) kept
  | @deleted g k q download downloads files audio =>
    obtain rfl : p = q := by
      by_contra other
      exact kept (files p other there)
    have owner := shelf.download _ (List.mem_of_getElem? download) k p rfl
    obtain rfl := named.unique before owner.named drawn owner.closed.1
    exact ⟨owner.closed, (audio j).trans (if_pos rfl), .deleted download downloads⟩
  | @evicted failures event start downloads files audio =>
    by_contra other
    refine kept (files p there fun k job found old path => ?_)
    have audio_k : s.audio? k = some p := by rw [State.audio?, found, Option.bind_some, path]
    have owner := (shelf.record k p audio_k).1
    obtain rfl := named.unique before owner.named drawn owner.closed.1
    by_contra unlisted
    refine other ⟨owner.closed, ?_, .evicted event start found old unlisted⟩
    rw [Option.eq_none_iff_forall_ne_some]
    intro q still
    obtain ⟨job', found', -, young⟩ := audio j q still
    rw [found] at found'
    rw [← Option.some.inj found', old] at young
    cases young

private theorem file_of_set {downloads : List DownloadPc} {g : Nat} {old new pc : DownloadPc}
    {j : JobId} {p : Path} (download : downloads[g]? = some old)
    (member : pc ∈ downloads.set g new) (same : new.file? = none ∨ new.file? = old.file?)
    (opened : new ≠ .opening j p) (mine : pc.file? = some (j, p)) :
    ∃ pc' ∈ downloads, pc'.file? = some (j, p) ∧ (pc = .opening j p → pc' = pc) := by
  rcases List.mem_or_eq_of_mem_set member with there | rfl
  · exact ⟨pc, there, mine, fun _ => rfl⟩
  · rcases same with none | same
    · rw [none] at mine
      cases mine
    · exact ⟨old, List.mem_of_getElem? download, same ▸ mine, fun here => absurd here opened⟩

theorem AudioStep.audio_source (step : AudioStep cfg s₀ s s' e o) {j : JobId} {p : Path}
    (found : s'.audio? j = some p) : s.audio? j = some p ∨
      ∃ t, s.tasks j = some t ∧ t.savedPath = some p ∧ s'.phase j = none := by
  cases step with
  | aside _ _ audio => exact .inl (audio j p found)
  | saved task path ended _ _ audio =>
    rcases audio j p found with old | ⟨rfl, rfl⟩
    · exact .inl old
    · exact .inr ⟨_, task, path, ended⟩
  | asked _ _ _ _ _ _ jobs | opened _ _ _ jobs | vanished _ _ _ _ jobs =>
    rw [State.audio?, jobs] at found
    exact .inl found
  | deleted _ _ _ audio =>
    rw [audio] at found
    split_ifs at found
    exact .inl found
  | evicted _ _ _ _ audio =>
    obtain ⟨job, there, path, -⟩ := audio j p found
    exact .inl (by rw [State.audio?, there, Option.bind_some, path])

/-- A response has the file of its job's record. -/
theorem AudioStep.file_source (step : AudioStep cfg s₀ s s' e o) {j : JobId} {p : Path}
    {pc : DownloadPc} (member : pc ∈ s'.downloads) (mine : pc.file? = some (j, p)) :
    (∃ pc' ∈ s.downloads, pc'.file? = some (j, p) ∧ (pc = .opening j p → pc' = pc)) ∨
      s.audio? j = some p ∧ e = .getAudio j := by
  cases step with
  | aside downloads | saved _ _ _ downloads | evicted _ _ downloads =>
    exact .inl ⟨pc, downloads ▸ member, mine, fun _ => rfl⟩
  | asked event _ _ next downloads =>
    rw [downloads] at member
    rcases List.mem_append.mp member with old | new
    · exact .inl ⟨pc, old, mine, fun _ => rfl⟩
    · rw [List.mem_singleton.mp new] at mine
      rcases next with ⟨rfl, -⟩ | ⟨q, path, rfl, -⟩
      · cases mine
      · cases mine
        exact .inr ⟨path, event⟩
  | opened download downloads =>
    rw [downloads] at member
    exact .inl (file_of_set download member (.inr rfl) (by simp) mine)
  | vanished download _ downloads | deleted download downloads =>
    rw [downloads] at member
    exact .inl (file_of_set download member (.inl rfl) (by simp) mine)

theorem AudioStep.asks (step : AudioStep cfg s₀ s s' e o) {g : Nat} {j : JobId}
    {answer : Except Exc Path} (told : .audio g j answer ∈ o) :
    audioAnswer s.files j (s.jobs.get? j) = answer ∧ o = [.audio g j answer] ∧
      ∀ p, answer = .ok p → s.audio? j = some p := by
  cases step with
  | aside _ _ _ silent | saved _ _ _ _ _ _ silent =>
    exact absurd rfl (List.filter_eq_nil_iff.mp silent _ told)
  | asked _ _ given next _ _ _ whole =>
    rw [whole] at told
    obtain ⟨rfl, rfl, rfl⟩ := Obs.audio.inj (List.mem_singleton.mp told)
    refine ⟨given, whole, ?_⟩
    rintro p rfl
    rcases next with ⟨-, exc, other⟩ | ⟨q, path, -, same⟩
    · cases other
    · exact Except.ok.inj same ▸ path
  | opened _ _ _ _ whole | vanished _ _ _ _ _ whole | deleted _ _ _ _ whole
  | evicted _ _ _ _ _ whole => simp [whole] at told

private theorem Shelf.step (h : Shelf cfg tr s) (before : Visit cfg P tr s)
    (change : Change cfg s₀ e s s' o) : Shelf cfg (tr ++ o) s' := by
  have used := change.grows.1
  have audio := change.audio before
  have closed : ∀ {j}, Closed s j → Closed s' j :=
    fun here => (change.job before _).closed here used
  -- A file of which the path is still set has not been lost.
  have keeps : ∀ {j p}, NamedFor cfg j p → j ∈ s.used → s.files.isFile p = true →
      ¬ (Closed s j ∧ s'.audio? j = none) → s'.files.isFile p = true := by
    intro j p named drawn there open_
    by_contra gone
    obtain ⟨ended, unset, -⟩ := audio.loses before h named drawn there (by simpa using gone)
    exact open_ ⟨ended, unset⟩
  refine ⟨fun j p found => ?_, fun j t p task path => ?_, fun pc member j p mine => ?_,
    fun g j p told => ?_⟩
  · have still : ¬ (Closed s j ∧ s'.audio? j = none) := by simp [found]
    rcases audio.audio_source found with old | ⟨t, task, path, ended⟩
    · obtain ⟨here, there⟩ := h.record j p old
      exact ⟨⟨closed here.closed, here.named⟩, keeps here.named here.closed.1 there still⟩
    · have named := NamedFor.of_saved before task path
      have drawn := used_of_task before (placed before) task
      exact ⟨⟨⟨used drawn, ended⟩, named⟩, keeps named drawn (h.saved j t p task path) still⟩
  · rcases change.saves before task path with ⟨t', task', path'⟩ | now
    · refine keeps (.of_saved before task' path') (used_of_task before (placed before) task')
        (h.saved j t' p task' path') fun ended => ?_
      obtain ⟨phase, busy⟩ := Task.phase_of_saved path'
      rw [Closed, phase_of_task before task' busy, phase] at ended
      cases ended.1.2
    · exact now
  · have here : Shelved cfg s j p := by
      rcases audio.file_source member mine with ⟨pc', old, same, -⟩ | ⟨path, -⟩
      · exact h.download pc' old j p same
      · exact (h.record j p path).1
    exact ⟨closed here.closed, here.named⟩
  · rcases List.mem_append.mp told with old | new
    · exact closed (h.answered g j p old)
    · have path := (audio.asks new).2.2 p rfl
      exact closed (h.record j p path).1.closed

theorem shelf (h : Visit cfg P tr s) : Shelf cfg tr s := by
  induction h using visit_induction with
  | start =>
    exact ⟨by simp [State.init, State.audio?], by simp [State.init], by simp [State.init], by simp⟩
  | change before ih _ change => exact ih.step before change

/-! ### Records -/

theorem filed (h : Visit cfg P tr s) : s.jobs.Filed := by
  induction h using visit_induction with
  | start => exact ⟨fun j job found => by simp [State.init] at found⟩
  | @change s₀ e s s' tr o before ih _ change =>
    have failAll : ∀ (store : JobStore) (now : ℚ) (error : String) (ids : List JobId),
        store.Filed → (store.failAll now error ids).Filed := by
      intro store now error ids
      induction ids generalizing store with
      | nil => exact id
      | cons k ids more => exact fun own => more _ (own.markFailed now k error)
    cases change with
    | jobQueued | jobRaised => exact ih.create ..
    | jobTurnedAway => exact (ih.create ..).markFailed ..
    | batchRefused => exact failAll _ _ _ _ (ih.create ..)
    | saved => exact ih.markDone ..
    | deleteAfterSend => exact ih.clearAudioPath _
    | @collected k w r cb t t0 outcome result workers drain i next jobs futures statuses event task
        value slot call =>
      cases cb with
      | bridge =>
        have jobs_eq := congrArg (fun r => r.1.1.jobs) call
        simp only [onComplete] at jobs_eq
        exact jobs_eq ▸ ih
      | store =>
        obtain ⟨handle, at_hand⟩ := collector_handle before task slot
        rcases onComplete_store at_hand call with ⟨-, rfl, -⟩ | ⟨-, ⟨error, rfl⟩, -⟩
        · exact ih.markRunning ..
        · exact (ih.markRunning ..).markFailed ..
    | @evict failures jobs files _ pass =>
      refine ⟨fun j job found => ih.own j job ?_⟩
      have kept := get?_evictExpired s₀.jobs s₀.files s₀.now cfg.settings.jobTtlSeconds failures j
      rw [pass] at kept
      exact (Option.filter_eq_some_iff.mp (kept.symm.trans found)).1
    | _ => exact ih

theorem done_of_audio (h : Visit cfg P tr s) {j : JobId} {job : Job} {p : Path}
    (found : s.jobs.get? j = some job) (path : job.audioPath = some p) :
    job.status = .done ∧ job.finishedAt.isSome = true := by
  induction h using visit_induction generalizing job p with
  | start => simp [State.init] at found
  | @change s₀ e s s' tr o before ih _ change =>
    have audio' : s'.audio? j = some p := by rw [State.audio?, found, Option.bind_some, path]
    have step := change.job before j
    rcases (change.audio before).audio_source audio' with old | ⟨t, task, saved, ended⟩
    · obtain ⟨⟨drawn, idle⟩, -⟩ := ((shelf before).record j p old).1
      obtain ⟨was, there, old_path⟩ := Option.bind_eq_some_iff.mp old
      obtain ⟨done, timed⟩ := ih there old_path
      cases step with
      | same record =>
        obtain ⟨job', there', same⟩ := outcome_of_map record found
        rw [there] at there'
        obtain rfl := Option.some.inj there'
        simp only [Job.outcome, Prod.mk.injEq] at same
        exact ⟨same.1.trans done, same.2.2 ▸ timed⟩
      | queued fresh | turnedAway fresh | stranded _ fresh => exact absurd drawn fresh
      | refused _ start =>
        rcases start with fresh | waiting
        · exact absurd drawn fresh
        · rw [there, Option.map_some, done] at waiting
          cases waiting
      | runs start | fails start | finishes start | raises _ start =>
        rw [idle] at start
        cases start
      | evicted _ _ _ gone =>
        rw [gone] at found
        cases found
    · have phase : s.phase j = some .saving := by
        obtain ⟨saving, busy⟩ := Task.phase_of_saved saved
        rw [phase_of_task before task busy, saving]
      cases step with
      | finishes _ record _ _ timed =>
        obtain ⟨-, -, done⟩ := status_of_map record found
        exact ⟨done, timed job found⟩
      | raises _ _ record =>
        have unset : s.audio? j = some p := by
          rw [State.audio?, ← record, found, Option.bind_some, path]
        have closed := ((shelf before).record j p unset).1.closed.2
        rw [phase] at closed
        cases closed
      | same _ kept | refused _ _ _ kept | evicted _ _ _ _ kept =>
        rw [kept, phase] at ended
        cases ended
      | queued fresh | turnedAway fresh | stranded _ fresh =>
        exact absurd (used_of_phase before phase) fresh
      | runs start | fails start =>
        rw [phase] at start
        cases start

/-! ### Done jobs -/

private theorem mem_history {j : JobId} {status : JobStatus} (told : .marked j status ∈ tr) :
    status ∈ history tr j := List.mem_filterMap.mpr ⟨_, told, by simp⟩

/-- A job that was marked as done stays done until its record is removed. -/
theorem done_stays (h : Visit cfg P tr s) {j : JobId} (done : .marked j .done ∈ tr) :
    Closed s j ∧ ∀ job, s.jobs.get? j = some job → job.status = .done := by
  induction h using visit_induction with
  | start => cases done
  | @change s₀ e s s' tr o before ih _ change =>
    have used := change.grows.1
    have step := change.job before j
    rcases List.mem_append.mp done with old | new
    · obtain ⟨closed, stays⟩ := ih old
      refine ⟨step.closed closed used, fun job' found => ?_⟩
      cases step with
      | same record =>
        obtain ⟨job, there, same⟩ := outcome_of_map record found
        exact (congrArg Prod.fst same).trans (stays job there)
      | queued fresh | turnedAway fresh | stranded _ fresh => exact absurd closed.1 fresh
      | refused _ was =>
        rcases was with fresh | waiting
        · exact absurd closed.1 fresh
        · obtain ⟨job, there, pending⟩ := Option.map_eq_some_iff.mp waiting
          rw [stays job there] at pending
          cases pending
      | runs was | fails was | finishes was | raises _ was =>
        rw [closed.2] at was
        cases was
      | evicted _ _ _ gone =>
        rw [gone] at found
        cases found
    · have told := mem_history new
      cases step with
      | finishes was record phase =>
        refine ⟨⟨used (used_of_phase before was), phase⟩, fun job' found => ?_⟩
        obtain ⟨job, -, status⟩ := status_of_map record found
        exact status
      | refused _ _ _ _ other => exact absurd told other
      | same _ _ silent | raises _ _ _ _ silent | evicted _ _ _ _ _ silent => simp [silent] at told
      | queued _ _ _ _ list | turnedAway _ _ _ _ list | stranded _ _ _ _ _ list =>
        simp [list] at told
      | runs _ _ _ list | fails _ _ _ list =>
        rw [list] at told
        split_ifs at told <;> simp at told

end XttsServer.Model
