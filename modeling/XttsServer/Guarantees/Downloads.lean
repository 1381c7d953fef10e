import XttsServer.Guarantees.Slots
import XttsServer.Runs.Downloads

/-!
What a client may expect of the download of a finished job: that it happens once,
and that the file stays until it has happened.
-/

set_option autoImplicit false
set_option relaxedAutoImplicit false

namespace XttsServer.Guarantees

open XttsServer.Model XttsServer.Foundations XttsServer.Foundations.Transition

variable {cfg : Config} {P : State → Event → Prop} {s s' s₀ : State} {e : Event}
  {tr o : List Obs}

/-! ### Overlapping downloads -/

/-- A job whose audio can be had is asked for while an earlier response still has it. -/
def overlapsDownload (s : State) : Event → Bool
  | .getAudio j => (s.audio? j).isSome && s.downloads.any (DownloadPc.holds j)
  | _ => false

/-- The cleanup removes the file of a response that has not opened it. -/
def evictsUnopened (cfg : Config) (s : State) : Event → Bool
  | .evict failures => s.downloads.any fun
      | .opening j p => p ∉ failures &&
          (s.jobs.get? j).any fun job => job.expired (s.now - cfg.settings.jobTtlSeconds)
      | _ => false
  | _ => false

def oneAtATime (cfg : Config) (s : State) (e : Event) : Prop :=
  overlapsDownload s e = false ∧ evictsUnopened cfg s e = false

instance (s : State) (e : Event) : Decidable (oneAtATime cfg s e) :=
  inferInstanceAs (Decidable (_ ∧ _))

/-- The answer is the audio, 410 or 404. -/
def servedOrGone : Except Exc Path → Bool
  | .ok _ => true
  | .error (.http status _) => status = 410 || status = 404
  | .error _ => false

structure OneShot (tr : List Obs) : Prop where
  once : ∀ j, (downloadsOf tr j).length ≤ 1
  /-- After the job is done, every call that does not get the audio is told that it is gone. -/
  gone : ∀ j, tr.Pairwise fun before after => before = .marked j .done →
    ∀ g answer, after = .audio g j answer → servedOrGone answer = true
  intact : ∀ g j, .vanished g j ∉ tr

/-! ### The answers after a job is done -/

private theorem audioAnswer_of_done (h : Visit cfg P tr s) {j : JobId}
    (done : ∀ job, s.jobs.get? j = some job → job.status = .done) :
    servedOrGone (audioAnswer s.files j (s.jobs.get? j)) = true := by
  cases found : s.jobs.get? j with
  | none => rfl
  | some job =>
    cases path : job.audioPath with
    | none => simp [audioAnswer, done job found, path, orDefault, servedOrGone]
    | some p =>
      have audio : s.audio? j = some p := by rw [State.audio?, found, Option.bind_some, path]
      obtain ⟨-, there⟩ := (shelf h).record j p audio
      by_cases empty : p = ""
      · simp [audioAnswer, done job found, path, orDefault, empty, servedOrGone]
      · simp [audioAnswer, done job found, path, orDefault, empty, there, servedOrGone]

/-- Whatever downloads overlap, a done job is found with its file, without a path, or not at
all. -/
private theorem done_answers (h : Visit cfg P tr s) (j : JobId) :
    tr.Pairwise fun before after => before = .marked j .done →
      ∀ g answer, after = .audio g j answer → servedOrGone answer = true := by
  induction h using visit_induction with
  | start => exact .nil
  | change before ih _ change =>
    have audio := change.audio before
    refine List.pairwise_append.mpr ⟨ih, List.pairwise_of_forall_mem_list ?_, ?_⟩
    · rintro x marked y told rfl g answer rfl
      rw [(audio.asks told).2.1] at marked
      cases List.mem_singleton.mp marked
    · rintro x marked y told rfl g answer rfl
      rw [← (audio.asks told).1]
      exact audioAnswer_of_done before (done_stays before marked).2

/-! ### Counting downloads -/

private theorem countP_set_add {α : Type} {l : List α} {i : Nat} {old new : α} (p : α → Bool)
    (found : l[i]? = some old) : (l.set i new).countP p + (if p old then 1 else 0) =
      l.countP p + if p new then 1 else 0 := by
  obtain ⟨range, rfl⟩ := List.getElem?_eq_some_iff.mp found
  have counted : (if p l[i] then 1 else 0) ≤ l.countP p := by
    split_ifs with here
    · exact List.one_le_countP_iff.mpr ⟨_, List.getElem_mem range, here⟩
    · exact Nat.zero_le _
  rw [List.countP_set range]
  omega

/-- What a change does to the number of responses that have the audio of a job, as long as no
file vanishes. -/
inductive Tally (s₀ s s' : State) (e : Event) (o : List Obs) (j : JobId) : Prop
  | same (live : s'.downloads.countP (DownloadPc.holds j) = s.downloads.countP (DownloadPc.holds j))
      (silent : downloadsOf o j = [])
  | starts {p : Path} (event : e = .getAudio j) (start : s = s₀) (path : s.audio? j = some p)
      (live : s'.downloads.countP (DownloadPc.holds j) =
        s.downloads.countP (DownloadPc.holds j) + 1)
      (told : (downloadsOf o j).length = 1)
  | ends (unset : s'.audio? j = none)
      (live : s'.downloads.countP (DownloadPc.holds j) + 1 =
        s.downloads.countP (DownloadPc.holds j))
      (silent : downloadsOf o j = [])

private theorem mem_downloadsOf {g : Nat} {j : JobId} :
    g ∈ downloadsOf tr j ↔ ∃ p, .audio g j (.ok p) ∈ tr := by
  rw [downloadsOf, List.mem_filterMap]
  constructor
  · rintro ⟨x, member, same⟩
    cases x with
    | audio g' k answer =>
      cases answer with
      | error exc => cases same
      | ok p =>
        obtain ⟨rfl, rfl⟩ : k = j ∧ g' = g := by simpa using same
        exact ⟨p, member⟩
    | _ => cases same
  · exact fun ⟨p, member⟩ => ⟨_, member, by simp⟩

private theorem downloadsOf_eq_nil {j : JobId} (silent : o.filter Obs.isDownload = []) :
    downloadsOf o j = [] := by
  rw [downloadsOf, List.filterMap_eq_nil_iff]
  intro x member
  have quiet := List.filter_eq_nil_iff.mp silent x member
  cases x <;> simp at quiet ⊢

private theorem Tally.of_step (step : AudioStep cfg s₀ s s' e o)
    (present : ∀ j p, .opening j p ∈ s.downloads → s.files.isFile p = true) (j : JobId) :
    Tally s₀ s s' e o j := by
  cases step with
  | aside downloads _ _ silent | saved _ _ _ downloads _ _ silent =>
    exact .same (by rw [downloads]) (downloadsOf_eq_nil silent)
  | evicted _ _ downloads _ _ told => exact .same (by rw [downloads]) (by simp [told])
  | @asked k pc answer event start given next downloads files jobs told =>
    rcases next with ⟨rfl, exc, rfl⟩ | ⟨p, path, rfl, rfl⟩
    · exact .same (by simp [downloads, DownloadPc.holds, DownloadPc.file?]) (by simp [told])
    · by_cases here : k = j
      · subst here
        exact .starts event start path (by simp [downloads, DownloadPc.holds, DownloadPc.file?])
          (by simp [told])
      · exact .same (by simp [downloads, DownloadPc.holds, DownloadPc.file?, here])
          (by simp [told, here])
  | @opened g k p download downloads files jobs told =>
    have count := @countP_set_add _ _ _ _ (.sending k p) (DownloadPc.holds j) download
    refine .same ?_ (by simp [told])
    rw [downloads]
    exact Nat.add_right_cancel count
  | @vanished g k p download absent =>
    rw [present k p (List.mem_of_getElem? download)] at absent
    cases absent
  | @deleted g k p download downloads files audio told =>
    have count := @countP_set_add _ _ _ _ .ended (DownloadPc.holds j) download
    by_cases here : k = j
    · refine .ends (by rw [audio, if_pos here.symm]) ?_ (by simp [told])
      simpa [downloads, DownloadPc.holds, DownloadPc.file?, here] using count
    · refine .same ?_ (by simp [told])
      simpa [downloads, DownloadPc.holds, DownloadPc.file?, here] using count

/-- How the responses of a run stand when downloads do not overlap. -/
private structure Single (tr : List Obs) (s : State) : Prop where
  once : ∀ j, (downloadsOf tr j).length ≤ 1
  live : ∀ j, s.downloads.countP (DownloadPc.holds j) ≤ (downloadsOf tr j).length
  /-- Only the response itself can still have the path of a job that was downloaded. -/
  spent : ∀ j p, s.audio? j = some p → downloadsOf tr j ≠ [] →
    0 < s.downloads.countP (DownloadPc.holds j)
  present : ∀ j p, .opening j p ∈ s.downloads → s.files.isFile p = true
  intact : ∀ g j, .vanished g j ∉ tr

private theorem Single.counts (h : Single tr s) (before : Visit cfg P tr s)
    (free : overlapsDownload s₀ e = false) (step : AudioStep cfg s₀ s s' e o) (j : JobId) :
    (downloadsOf (tr ++ o) j).length ≤ 1 ∧
      s'.downloads.countP (DownloadPc.holds j) ≤ (downloadsOf (tr ++ o) j).length ∧
      ∀ p, s'.audio? j = some p → downloadsOf (tr ++ o) j ≠ [] →
        0 < s'.downloads.countP (DownloadPc.holds j) := by
  have split : downloadsOf (tr ++ o) j = downloadsOf tr j ++ downloadsOf o j :=
    List.filterMap_append
  have once := h.once j
  have live := h.live j
  rw [split, List.length_append]
  cases Tally.of_step step h.present j with
  | same count silent =>
    rw [count, silent, List.append_nil, List.length_nil]
    refine ⟨once, live, fun p found served => ?_⟩
    rcases step.audio_source found with old | ⟨t, task, path, -⟩
    · exact h.spent j p old served
    · -- A job that was downloaded has no collector that could set its path again.
      obtain ⟨g, member⟩ := List.exists_mem_of_ne_nil _ served
      obtain ⟨q, told⟩ := mem_downloadsOf.mp member
      have closed := (shelf before).answered g j q told
      obtain ⟨phase, busy⟩ := Task.phase_of_saved path
      rw [Closed, phase_of_task before task busy, phase] at closed
      cases closed.2
  | starts event start path count told =>
    subst start event
    have idle : s.downloads.countP (DownloadPc.holds j) = 0 := by
      rw [overlapsDownload, path, Option.isSome_some, Bool.true_and] at free
      exact List.countP_eq_zero.mpr fun pc member => by
        simpa using List.any_eq_false.mp free pc member
    have first : downloadsOf tr j = [] := by
      by_contra served
      exact absurd (h.spent j _ path served) (by omega)
    rw [count, idle, told, first]
    exact ⟨Nat.le_refl _, Nat.le_refl _, fun _ _ _ => Nat.one_pos⟩
  | ends unset count silent =>
    rw [silent, List.length_nil]
    refine ⟨once, by omega, fun p found _ => ?_⟩
    rw [unset] at found
    cases found

private theorem Single.step (h : Single tr s) (before : Visit cfg P tr s)
    (meets : oneAtATime cfg s₀ e) (change : Change cfg s₀ e s s' o) : Single (tr ++ o) s' := by
  have audio := change.audio before
  have counts := h.counts before meets.1 audio
  refine ⟨fun j => (counts j).1, fun j => (counts j).2.1, fun j => (counts j).2.2,
    fun j p member => ?_, fun g j told => ?_⟩
  · have source := audio.file_source member rfl
    have there : Shelved cfg s j p ∧ s.files.isFile p = true := by
      rcases source with ⟨pc, old, -, same⟩ | ⟨path, -⟩
      · obtain rfl := same rfl
        exact ⟨(shelf before).download _ old j p rfl, h.present j p old⟩
      · exact (shelf before).record j p path
    by_contra gone
    obtain ⟨-, -, lost⟩ := audio.loses before (shelf before) there.1.named there.1.closed.1 there.2
      (by simpa using gone)
    cases lost with
    | @deleted g download downloads =>
      -- The response that deletes the file would be a second one.
      have count := @countP_set_add _ _ _ _ .ended (DownloadPc.holds j) download
      have once := h.once j
      have live := h.live j
      have here : 0 < s'.downloads.countP (DownloadPc.holds j) :=
        List.countP_pos_iff.mpr ⟨_, member, by simp [DownloadPc.holds, DownloadPc.file?]⟩
      simp [← downloads, DownloadPc.holds, DownloadPc.file?] at count
      omega
    | @evicted failures job event start record old unlisted =>
      subst start event
      rcases source with ⟨pc, there, -, same⟩ | ⟨-, asked⟩
      · obtain rfl := same rfl
        have spared := List.any_eq_false.mp meets.2 _ there
        simp [record, old, unlisted] at spared
      · cases asked
  · rcases List.mem_append.mp told with old | new
    · exact h.intact g j old
    · cases audio with
      | @vanished g k p download absent =>
        rw [h.present k p (List.mem_of_getElem? download)] at absent
        cases absent
      | aside _ _ _ silent | saved _ _ _ _ _ _ silent =>
        exact absurd rfl (List.filter_eq_nil_iff.mp silent _ new)
      | asked _ _ _ _ _ _ _ whole | opened _ _ _ _ whole | deleted _ _ _ _ whole
      | evicted _ _ _ _ _ whole => simp [whole] at new

private theorem single (h : Visit cfg (oneAtATime cfg) tr s) : Single tr s := by
  induction h using visit_induction with
  | start => exact ⟨by simp, by simp [State.init], by simp, by simp [State.init], by simp⟩
  | change before ih meets change => exact ih.step before meets change

/-- As long as downloads of a job do not overlap with one another, nor their start with its
eviction, each job is downloaded at most once, and its file is there until it was. -/
theorem one_shot (h : Reach (server cfg) (oneAtATime cfg) tr s) : OneShot tr := by
  have visit := visit_of_reach h
  exact ⟨(single visit).once, done_answers visit, (single visit).intact⟩

def savedJob : List Event := oneJob ++ [.saveOpen "a", .saveWrite "a", .resume "a"]

/-- A download to its end, and a late one. -/
def oneDownload : List Event :=
  savedJob ++ [.getAudio "a", .openFile 0, .deleteAfterSend 0 false, .getAudio "a"]

private theorem oneDownload_runs :
    (exec (server oneWorker) (oneAtATime oneWorker) (server oneWorker).init
    oneDownload).isSome = true := by decide +kernel

theorem one_shot_one_download :
    OneShot ((exec (server oneWorker) (oneAtATime oneWorker) (server oneWorker).init
      oneDownload).get oneDownload_runs).2 :=
  one_shot (reach_of_exec oneDownload_runs)

/-- Two clients that ask for the same job at once. -/
def twoDownloads : List Event := savedJob ++ [.getAudio "a", .getAudio "a"]

private theorem twoDownloads_runs : (runOf oneWorker twoDownloads).isSome = true := by
  decide +kernel

/-- Both clients get the audio. -/
theorem audio_served_twice : ¬ ∀ cfg tr s, Reach (server cfg) anyStep tr s → OneShot tr := by
  intro all
  have once :
      (downloadsOf ((runOf oneWorker twoDownloads).get twoDownloads_runs).2 "a").length ≤ 1 :=
    (all oneWorker _ _ (reach_of_exec twoDownloads_runs)).once "a"
  have both :
      downloadsOf ((runOf oneWorker twoDownloads).get twoDownloads_runs).2 "a" = [0, 1] := by
    decide +kernel
  rw [both] at once
  cases once with
  | step too_many => cases too_many

-- The eviction of a job whose download has not opened the file yet.
example : ((runOf oneWorker (savedJob ++ [.getAudio "a", .tick 301, .evict [], .openFile 0])).map
    fun run => decide (.vanished 0 "a" ∈ run.2)) = some true := by decide +kernel

end XttsServer.Guarantees
