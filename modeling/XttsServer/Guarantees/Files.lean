import XttsServer.Guarantees.Downloads
import XttsServer.Runs.Files

/-!
What the job store says about the audio files against what is on disk: an advertised
file is there and complete, and a file that is there is accounted for.
-/

set_option autoImplicit false
set_option relaxedAutoImplicit false

namespace XttsServer.Guarantees

open XttsServer.Model XttsServer.Foundations XttsServer.Foundations.Transition

variable {cfg : Config} {P : State → Event → Prop} {s s' s₀ : State} {e : Event}
  {tr o : List Obs}

/-! ### Advertised audio -/

structure AudioThere (cfg : Config) (tr : List Obs) (s : State) : Prop where
  /-- At the `audio_path` of a job that is done is what was saved for this job. -/
  complete : ∀ j job p, s.jobs.get? j = some job → job.status = .done →
    job.audioPath = some p → p ≠ "" → HoldsAudio cfg tr s.files j p
  /-- An `audio_url` is given exactly when `get_audio` would serve the file now. -/
  advertised : ∀ j job, s.jobs.get? j = some job →
    ((jobToResponse job).audioUrl = some s!"/v1/tts/{j}/audio" ∨
      (jobToResponse job).audioUrl = none) ∧
    ((jobToResponse job).audioUrl ≠ none ↔
      ∃ p, audioAnswer s.files j (s.jobs.get? j) = .ok p)
  /-- `get_audio` never misses the file of a job. -/
  found : ∀ j, audioAnswer s.files j (s.jobs.get? j) ≠
    .error (.http 500 "Audio file not found on disk.")

private theorem failed_text (j : JobId) (error : String) :
    s!"Job '{j}' failed: {error}" ≠ "Audio file not found on disk." := by
  intro same
  have first : (s!"Job '{j}' failed: {error}").toList.head? = some 'J' := by
    rw [String.toList_append, String.toList_append, String.toList_append, List.append_assoc,
      List.append_assoc]
    rfl
  rw [same] at first
  revert first
  decide

private theorem audioAnswer_of_file {files : Files} {j : JobId} {job : Job}
    (present : ∀ p, job.audioPath = some p → files.isFile p = true) :
    (∃ p, audioAnswer files j (some job) = .ok p) ↔
      job.status = .done ∧ orDefault job.audioPath "" ≠ "" := by
  have there : orDefault job.audioPath "" ≠ "" →
      files.isFile (orDefault job.audioPath "") = true := by
    cases path : job.audioPath with
    | none => exact fun some_path => absurd rfl some_path
    | some p =>
      by_cases empty : p = ""
      · simp [orDefault, empty]
      · intro _
        simpa [orDefault, empty] using present p path
  simp only [audioAnswer]
  split_ifs with failed unfinished empty present'
  · simp [failed]
  · simp [unfinished]
  · simp [empty]
  · have done : job.status = .done := by simpa using unfinished
    simp [done, empty]
  · exact absurd (there empty) present'

/-- Advertised audio is really there, in every state between two steps. -/
theorem audio_there (h : Reach (server cfg) anyStep tr s) : AudioThere cfg tr s := by
  have visit := visit_of_reach h
  have present : ∀ j job, s.jobs.get? j = some job → ∀ p, job.audioPath = some p →
      s.files.isFile p = true := by
    intro j job found p path
    exact ((shelf visit).record j p (by rw [State.audio?, found, Option.bind_some, path])).2
  refine ⟨?_, ?_, ?_⟩
  · intro j job p found _ path _
    exact (contents visit).record j p (by rw [State.audio?, found, Option.bind_some, path])
  · intro j job found
    have own := (filed visit).own j job found
    rw [found, audioAnswer_of_file (present j job found)]
    simp only [jobToResponse, own]
    split_ifs with advertised
    · exact ⟨.inl rfl, by simp [advertised]⟩
    · exact ⟨.inr rfl, by simpa using advertised⟩
  · intro j missing
    cases found : s.jobs.get? j with
    | none => simp [audioAnswer, found] at missing
    | some job =>
      rw [found] at missing
      simp only [audioAnswer] at missing
      split_ifs at missing with failed unfinished empty there
      · exact failed_text j (pyStr job.error) (by simpa using missing)
      · simp at missing
      · simp at missing
      · cases path : job.audioPath with
        | none => exact empty (by simp [path, orDefault])
        | some p =>
          have some_path : p ≠ "" := fun none => empty (by simp [path, orDefault, none])
          simp only [path, orDefault, if_neg some_path] at there
          exact there (present j job found p path)

private theorem savedJob_runs : (runOf oneWorker savedJob).isSome = true := by decide +kernel

theorem audio_there_saved_job :
    AudioThere oneWorker ((runOf oneWorker savedJob).get savedJob_runs).2
      ((runOf oneWorker savedJob).get savedJob_runs).1 := audio_there (reach_of_exec savedJob_runs)

/-! ### Orphaned files -/

/-- Every file is being written by a running callback, or is the audio of a record, which is one
that the TTL cleanup comes to. -/
def NoOrphans (s : State) : Prop :=
  ∀ q, s.files.isFile q = true →
    (∃ j t, s.tasks j = some t ∧ t.writing = some q) ∨
      ∃ j job, s.jobs.get? j = some job ∧ job.audioPath = some q ∧
        job.status.terminal = true ∧ job.finishedAt.isSome = true

/-- `save_audio` raises once it has created its file, `mark_done` finds no record for the file
just written, or `os.remove` of a file that is there fails after a download or in the evictor. -/
def abandons (cfg : Config) (s : State) : Event → Bool
  | .saveRaise j =>
      match s.tasks j with
      | some (.collector _ _ (.store _ _ _) _ (.saving _ opened)) => opened
      | _ => false
  | .resume j =>
      match s.tasks j with
      | some (.collector _ _ (.store k _ _) _ .saved) => (s.jobs.get? k).isNone
      | _ => false
  | .deleteAfterSend g removeFails =>
      match s.downloads[g]? with
      | some (.sending _ path) => removeFails && s.files.isFile path
      | _ => false
  | .evict failures =>
      s.jobs.entries.any fun entry =>
        entry.2.expired (s.now - cfg.settings.jobTtlSeconds) &&
          entry.2.audioPath.any fun path => path ∈ failures && s.files.isFile path
  | _ => false

def keepsFiles (cfg : Config) (s : State) (e : Event) : Prop := abandons cfg s e = false

instance (s : State) (e : Event) : Decidable (keepsFiles cfg s e) :=
  inferInstanceAs (Decidable (_ = _))

private theorem noOrphans_iff (h : Visit cfg P tr s) :
    NoOrphans s ↔ ∀ q, s.files.isFile q = true → Tracked s q := by
  refine forall_congr' fun q => imp_congr_right fun _ => or_congr_right ?_
  constructor
  · rintro ⟨j, job, found, path, -⟩
    exact ⟨j, by rw [State.audio?, found, Option.bind_some, path]⟩
  · rintro ⟨j, audio⟩
    obtain ⟨job, found, path⟩ := Option.bind_eq_some_iff.mp audio
    obtain ⟨done, timed⟩ := done_of_audio h found path
    exact ⟨j, job, found, path, by rw [done]; rfl, timed⟩

private theorem path_ne_empty (h : Visit cfg P tr s) {j : JobId} {q : Path}
    (audio : s.audio? j = some q) : q ≠ "" := by
  obtain ⟨⟨closed, fmt, rfl⟩, -⟩ := (shelf h).record j q audio
  exact audioPath_ne_empty _ (used_uuid h j closed.1) fmt

private theorem Change.tracked (before : Visit cfg P tr s) (change : Change cfg s₀ e s s' o)
    (careful : keepsFiles cfg s₀ e) (all : ∀ q, s.files.isFile q = true → Tracked s q) {q : Path}
    (there : s'.files.isFile q = true) : Tracked s' q := by
  rcases change.file_source there with old | writer
  · rcases all q old with ⟨j, t, task, path⟩ | ⟨j, audio⟩
    · rcases change.writer_kept before task path with kept | lost
      · exact .inl ⟨j, kept⟩
      · cases lost with
        | raised event start task => simp [keepsFiles, abandons, event, ← start, task] at careful
        | marked event start task path jobs =>
          have present : (s.jobs.get? j).isNone = false := by
            simpa [keepsFiles, abandons, event, ← start, task] using careful
          obtain ⟨job, found⟩ := Option.isSome_iff_exists.mp (by simpa using present)
          refine .inr ⟨j, ?_⟩
          rw [State.audio?, jobs, JobStore.markDone, Dict.get?_modify, if_pos rfl, found]
          rfl
    · rcases change.audio_kept before audio with kept | lost
      · exact .inr ⟨j, kept⟩
      · cases lost with
        | @cleared g p fails event start download files =>
          have paths := ownPaths before
          obtain rfl : q = p := Destined.unique before (paths.record j q audio)
            (paths.download _ (List.mem_of_getElem? download) j p rfl)
          obtain rfl : fails = false := by
            simpa [keepsFiles, abandons, event, ← start, download, old] using careful
          simp [files, Files.isFile, Files.remove] at there
        | @evicted failures job event start record expired pass =>
          obtain ⟨job', record', path⟩ := Option.bind_eq_some_iff.mp audio
          rw [record] at record'
          obtain rfl := Option.some.inj record'
          have unlisted : q ∉ failures := by
            intro listed
            have entry := (Dict.get?_eq_some_iff _ _ _).mp record
            simp only [keepsFiles, abandons, event, ← start, List.any_eq_false] at careful
            exact careful (j, job) entry (by simp [expired, path, listed, old])
          have gone := evictExpired_removes s.jobs s.files s.now cfg.settings.jobTtlSeconds
            failures record expired path (path_ne_empty before audio) unlisted
          rw [pass, there] at gone
          cases gone
  · exact .inl writer

/-- While no step leaves a file behind, all files are kept track of. -/
private theorem tracked_of_visit (h : Visit cfg (keepsFiles cfg) tr s) :
    ∀ q, s.files.isFile q = true → Tracked s q := by
  induction h using visit_induction with
  | start => simp [State.init, Files.isFile]
  | change before ih meets change => exact fun q => Change.tracked before change meets ih

/-- A file of a job that is not writing it, and whose record does not have it, is lost. -/
private theorem not_tracked (h : Visit cfg P tr s) {j : JobId} {q : Path}
    (named : NamedFor cfg j q) (drawn : j ∈ s.used)
    (idle : ∀ t, s.tasks j = some t → t.writing ≠ some q) (unset : s.audio? j ≠ some q) :
    ¬ Tracked s q := by
  rintro (⟨k, t, task, path⟩ | ⟨k, audio⟩)
  · obtain rfl := named.unique h (.of_writing h task path) drawn (used_of_task h (placed h) task)
    exact idle t task path
  · obtain ⟨owner, -⟩ := (shelf h).record k q audio
    obtain rfl := named.unique h owner.named drawn owner.closed.1
    exact unset audio

private theorem idle_of_closed (h : Visit cfg P tr s) {j : JobId} (closed : Closed s j) {q : Path}
    {t : Task} (task : s.tasks j = some t) : t.writing ≠ some q := by
  intro path
  obtain ⟨saving, busy⟩ := Task.phase_of_writing path
  have phase := phase_of_task h task busy
  rw [closed.2, saving] at phase
  cases phase

private theorem abandons_file (h : Visit cfg anyStep tr s) (taken : step cfg s e = some (s', o))
    (careless : abandons cfg s e = true) :
    ∃ q, s'.files.isFile q = true ∧ ¬ Tracked s' q := by
  have next : Visit cfg anyStep (tr ++ o) s' :=
    h.trans ((step_changes taken).mono fun _ _ _ change => ⟨s, e, trivial, change⟩)
  cases e with
  | saveRaise j =>
    simp only [abandons] at careless
    split at careless
    · rename_i w r k fmt dir t result opened task
      subst careless
      have drawn : j ∈ s.used := used_of_task h (placed h) task
      simp only [step, Model.saveRaise, task] at taken
      obtain ⟨rfl, rfl⟩ := Prod.mk.inj (Option.some.inj taken)
      have named := NamedFor.of_writing h task rfl
      refine ⟨_, (contents h).writing j _ _ task rfl, ?_⟩
      refine not_tracked next named drawn ?_ ?_
      · intro t' task'
        simp only [State.setTask, Function.update_self] at task'
        cases task'
        simp [Task.writing]
      · intro audio
        exact idle_of_closed h ((shelf h).record j _ audio).1.closed task rfl
    · cases careless
  | resume j =>
    simp only [abandons] at careless
    split at careless
    · rename_i w r k fmt dir t task
      obtain rfl : k = j := (collector_serves h task).1
      have drawn : k ∈ s.used := used_of_task h (placed h) task
      simp only [step, resume, task, resumeCollector, markDone] at taken
      obtain ⟨rfl, rfl⟩ := Prod.mk.inj (Option.some.inj taken)
      have named := NamedFor.of_writing h task rfl
      refine ⟨_, (contents h).writing k _ _ task rfl, ?_⟩
      refine not_tracked next named drawn ?_ ?_
      · intro t' task'
        simp only [State.setTask, Function.update_self] at task'
        cases task'
        simp [Task.writing]
      · have absent : s.jobs.get? k = none := by simpa using careless
        simp [State.audio?, State.setTask, JobStore.markDone, Dict.get?_modify, absent]
    · cases careless
  | deleteAfterSend g fails =>
    simp only [abandons] at careless
    split at careless
    · rename_i j p download
      simp only [Bool.and_eq_true] at careless
      obtain ⟨rfl, there⟩ := careless
      have owner := (shelf h).download _ (List.mem_of_getElem? download) j p rfl
      simp only [step, Model.deleteAfterSend, download] at taken
      obtain ⟨rfl, rfl⟩ := Prod.mk.inj (Option.some.inj taken)
      refine ⟨p, there, not_tracked next owner.named owner.closed.1 ?_ ?_⟩
      · exact fun t task => idle_of_closed h owner.closed task
      · simp only [State.audio?, JobStore.clearAudioPath, Dict.get?_modify, if_true]
        cases s.jobs.get? j <;> simp [Job.clearAudioPath]
    · cases careless
  | evict failures =>
    simp only [abandons, List.any_eq_true] at careless
    obtain ⟨⟨j, job⟩, entry, careless⟩ := careless
    simp only [Bool.and_eq_true, Option.any_eq_true, decide_eq_true_eq] at careless
    obtain ⟨old, p, path, listed, there⟩ := careless
    have record := (Dict.get?_eq_some_iff s.jobs j job).mpr entry
    have owner := ((shelf h).record j p (by rw [State.audio?, record, Option.bind_some, path])).1
    obtain ⟨rfl, rfl⟩ := Prod.mk.inj (Option.some.inj taken)
    refine ⟨p, ?_, not_tracked next owner.named owner.closed.1 ?_ ?_⟩
    · exact isFile_evictExpired _ _ _ _ _ there fun _ _ _ _ _ => listed
    · exact fun t task => idle_of_closed h owner.closed task
    · intro audio
      have kept := get?_evictExpired s.jobs s.files s.now cfg.settings.jobTtlSeconds failures j
      simp only [record, Option.filter_some, old, Bool.not_true, Bool.false_eq_true,
        if_false] at kept
      change (((evictExpired s.jobs s.files s.now cfg.settings.jobTtlSeconds
        failures).1.get? j).bind
        fun job => job.audioPath) = some p at audio
      rw [kept] at audio
      cases audio
  | _ => cases careless

private theorem orphans_of_abandons (h : Reach (server cfg) anyStep tr s)
    (taken : (step cfg s e).isSome = true) (careless : abandons cfg s e = true) :
    ∃ tr' s', Reach (server cfg) anyStep tr' s' ∧ ¬ NoOrphans s' := by
  obtain ⟨⟨s', o⟩, taken⟩ := Option.isSome_iff_exists.mp taken
  have next : Reach (server cfg) anyStep (tr ++ o) s' := h.tail trivial taken
  obtain ⟨q, there, lost⟩ := abandons_file (visit_of_reach h) taken careless
  exact ⟨_, s', next, fun kept => lost ((noOrphans_iff (visit_of_reach next)).mp kept q there)⟩

/-- In a run that leaves no file behind all files are kept track of, and a next step keeps it so
exactly when it leaves no file behind either. -/
theorem no_orphans (h : Reach (server cfg) (keepsFiles cfg) tr s) :
    NoOrphans s ∧ ∀ e s' o, step cfg s e = some (s', o) → (NoOrphans s' ↔ keepsFiles cfg s e) := by
  have visit := visit_of_reach h
  have any : Visit cfg anyStep tr s := visit_of_reach (h.mono fun _ _ _ => trivial)
  refine ⟨(noOrphans_iff visit).mpr (tracked_of_visit visit), fun e s' o taken =>
    ⟨?_, fun meets => ?_⟩⟩
  · intro kept
    have next : Visit cfg anyStep (tr ++ o) s' :=
      any.trans ((step_changes taken).mono fun _ _ _ change => ⟨s, e, trivial, change⟩)
    by_contra careless
    obtain ⟨q, there, lost⟩ := abandons_file any taken (by simpa [keepsFiles] using careless)
    exact lost ((noOrphans_iff next).mp kept q there)
  · have next := visit_of_reach (h.tail meets taken)
    exact (noOrphans_iff next).mpr (tracked_of_visit next)

private theorem savedJob_keeps :
    (exec (server oneWorker) (keepsFiles oneWorker) (server oneWorker).init
    savedJob).isSome = true := by decide +kernel

theorem no_orphans_saved_job :
    let last := ((exec (server oneWorker) (keepsFiles oneWorker) (server oneWorker).init
      savedJob).get savedJob_keeps).1
    NoOrphans last ∧ ∀ e s' o, step oneWorker last e = some (s', o) →
      (NoOrphans s' ↔ keepsFiles oneWorker last e) :=
  no_orphans (reach_of_exec savedJob_keeps)

def sentAudio : List Event := savedJob ++ [.getAudio "a", .openFile 0]

private theorem sentAudio_runs : (runOf oneWorker sentAudio).isSome = true := by decide +kernel

/-- `os.remove` fails after the download, and the record forgets the file. -/
theorem orphaned_by_failed_remove :
    ¬ ∀ cfg tr s, Reach (server cfg) anyStep tr s → NoOrphans s := by
  intro all
  have taken : (step oneWorker ((runOf oneWorker sentAudio).get sentAudio_runs).1
      (.deleteAfterSend 0 true)).isSome = true := by decide +kernel
  have careless : abandons oneWorker ((runOf oneWorker sentAudio).get sentAudio_runs).1
      (.deleteAfterSend 0 true) = true := by decide +kernel
  obtain ⟨tr', s', reached, orphans⟩ := orphans_of_abandons (reach_of_exec sentAudio_runs)
    taken careless
  exact orphans (all oneWorker tr' s' reached)

end XttsServer.Guarantees
