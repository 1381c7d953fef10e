import XttsServer.Runs.Pipeline
import XttsServer.Runs.Downloads

/-!
What one pass of the TTL eviction removes, from the store and from disk, and what
it leaves as it is.
-/

set_option autoImplicit false
set_option relaxedAutoImplicit false

namespace XttsServer.Guarantees

open XttsServer.Model XttsServer.Foundations XttsServer.Foundations.Transition

variable {store : JobStore} {files : Files} {now : ℚ} {ttl : Int} {failures : List Path}

/-- The job is over, and has been for longer than the time to live. -/
def TooOld (now : ℚ) (ttl : Int) (job : Job) : Prop :=
  (job.status = .done ∨ job.status = .failed) ∧
    ∃ finishedAt, job.finishedAt = some finishedAt ∧ finishedAt < now - ttl

def DistinctPaths (store : JobStore) : Prop :=
  ∀ j k job job' q, store.get? j = some job → store.get? k = some job' →
    job.audioPath = some q → job'.audioPath = some q → j = k

private theorem expired_iff (job : Job) : job.expired (now - ttl) = true ↔ TooOld now ttl job := by
  unfold Job.expired TooOld
  rw [Bool.and_eq_true]
  refine and_congr ?_ ?_
  · cases job.status <;> simp [JobStatus.terminal]
  · cases job.finishedAt <;> simp

instance (now : ℚ) (ttl : Int) (job : Job) : Decidable (TooOld now ttl job) :=
  decidable_of_iff _ (expired_iff job)

/-- What the pass makes of the store and of the files. -/
structure EvictsExactly (store : JobStore) (files : Files) (now : ℚ) (ttl : Int)
    (failures : List Path) (store' : JobStore) (files' : Files) : Prop where
  /-- The other records are as they were and in order. -/
  records : store'.entries = store.entries.filter fun e => ¬ TooOld now ttl e.2
  /-- A file that the pass changes is the file of an evicted job. -/
  contained : ∀ q, files' q ≠ files q →
    ∃ j job, store.get? j = some job ∧ TooOld now ttl job ∧ job.audioPath = some q
  survivors : ∀ j job q, store'.get? j = some job → job.audioPath = some q → files' q = files q
  /-- Of an evicted job the file is removed, unless `os.remove` raises for it. -/
  cleans : ∀ j job q, store.get? j = some job → TooOld now ttl job → job.audioPath = some q →
    q ≠ "" → files' q = if q ∈ failures then files q else none
  again : ∀ failures', evictExpired store' files' now ttl failures' = (store', files')

private theorem evictExpired_of_none (none : ∀ e ∈ store.entries, e.2.expired (now - ttl) = false) :
    evictExpired store files now ttl failures = (store, files) := by
  have records := entries_evictExpired store files now ttl failures
  have kept := files_evictExpired store files now ttl failures
  generalize evictExpired store files now ttl failures = result at records kept
  obtain ⟨store', files'⟩ := result
  refine Prod.ext ?_ (funext fun q => ?_)
  · cases store
    cases store'
    rw [List.filter_eq_self.mpr fun e member => by rw [none e member]; rfl] at records
    simpa using records
  · rw [kept, if_neg]
    rintro ⟨-, -, e, member, old, -⟩
    rw [none e member] at old
    cases old

private theorem evictsExactly (store : JobStore) (files : Files) (now : ℚ) (ttl : Int)
    (failures : List Path) (distinct : DistinctPaths store) :
    EvictsExactly store files now ttl failures (evictExpired store files now ttl failures).1
      (evictExpired store files now ttl failures).2 := by
  have records := entries_evictExpired store files now ttl failures
  have member {j : JobId} {job : Job} (found : store.get? j = some job) :
      (j, job) ∈ store.entries :=
    (Dict.get?_eq_some_iff _ _ _).mp found
  refine ⟨?_, fun q changed => ?_, fun j job q found named => ?_,
    fun j job q found old named some_name => ?_, fun failures' => ?_⟩
  · rw [records]
    refine List.filter_congr fun e _ => ?_
    rw [Bool.eq_iff_iff, Bool.not_eq_true', decide_eq_true_eq, ← expired_iff, Bool.not_eq_true]
  · rw [files_evictExpired] at changed
    split_ifs at changed with lost
    · obtain ⟨-, -, ⟨j, job⟩, there, old, named⟩ := lost
      exact ⟨j, job, (Dict.get?_eq_some_iff _ _ _).mpr there, (expired_iff job).mp old, named⟩
    · exact absurd rfl changed
  · rw [get?_evictExpired, Option.filter_eq_some_iff] at found
    rw [files_evictExpired, if_neg]
    rintro ⟨-, -, ⟨k, other⟩, there, old, named'⟩
    have found' := (Dict.get?_eq_some_iff _ _ _).mpr there
    obtain rfl := distinct j k job other q found.1 found' named named'
    obtain rfl := Option.some.inj (found.1.symm.trans found')
    rw [old] at found
    exact Bool.false_ne_true found.2
  · rw [files_evictExpired]
    have mine : ∃ e ∈ store.entries, e.2.expired (now - ttl) = true ∧ e.2.audioPath = some q :=
      ⟨(j, job), member found, (expired_iff job).mpr old, named⟩
    simp only [some_name, mine, ne_eq, not_false_eq_true, true_and, and_true, ite_not]
  · refine evictExpired_of_none fun e kept => ?_
    rw [records, List.mem_filter] at kept
    simpa using kept.2

private theorem distinctPaths_of_reach {cfg : Config} {P : State → Event → Prop} {tr : List Obs}
    {s : State} (h : Reach (server cfg) P tr s) : DistinctPaths s.jobs := by
  have visit := visit_of_reach h
  have drawn {j : JobId} {job : Job} (found : s.jobs.get? j = some job) : j ∈ s.used :=
    (jobRequests visit).used ((Dict.mem_keys_iff _ _).mpr ⟨job, found⟩)
  have owns {j : JobId} {job : Job} {q : Path} (found : s.jobs.get? j = some job)
      (named : job.audioPath = some q) : NamedFor cfg j q := by
    have audio : s.audio? j = some q := by rw [State.audio?, found, Option.bind_some, named]
    exact ((shelf visit).record j q audio).1.named
  intro j k job job' q found found' named named'
  exact (owns found named).unique visit (owns found' named') (drawn found) (drawn found')

/-- A pass evicts exactly what is too old, for every store, clock, time to live and pattern of
failures when no two jobs have one file; and so it does in every state that the server can reach. -/
theorem eviction_exact :
    (∀ store files now ttl failures, DistinctPaths store → EvictsExactly store files
      now ttl failures (evictExpired store files now ttl failures).1
        (evictExpired store files now ttl failures).2) ∧
    ∀ {cfg : Config} {P : State → Event → Prop} {tr o : List Obs} {s s' : State}
        {failures : List Path},
      Reach (server cfg) P tr s → step cfg s (.evict failures) = some (s', o) →
        EvictsExactly s.jobs s.files s.now cfg.settings.jobTtlSeconds failures s'.jobs
          s'.files := by
  refine ⟨evictsExactly, fun {cfg P tr o s s' failures} h taken => ?_⟩
  obtain ⟨rfl, -⟩ := Prod.mk.inj (Option.some.inj taken)
  exact evictsExactly s.jobs s.files s.now _ failures (distinctPaths_of_reach h)

instance (store : JobStore) : Decidable (DistinctPaths store) :=
  decidable_of_iff (∀ e ∈ store.entries, ∀ e' ∈ store.entries, e.2.audioPath.isSome →
    e.2.audioPath = e'.2.audioPath → e.1 = e'.1) <| by
  constructor
  · intro all j k job job' q found found' named named'
    exact all (j, job) ((Dict.get?_eq_some_iff _ _ _).mp found) (k, job')
      ((Dict.get?_eq_some_iff _ _ _).mp found') (by simp [named]) (named.trans named'.symm)
  · intro distinct e member e' member' some_path same
    obtain ⟨q, named⟩ := Option.isSome_iff_exists.mp some_path
    exact distinct e.1 e'.1 e.2 e'.2 q ((Dict.get?_eq_some_iff _ _ _).mpr member)
      ((Dict.get?_eq_some_iff _ _ _).mpr member') named (same ▸ named)

/-- Two old jobs, of which one's file cannot be removed, one that is done but young, and one that
runs. -/
def agedJobs : JobStore where
  entries :=
    let job (jobId : JobId) (finishedAt : ℚ) : Job :=
      { jobId, status := .done, createdAt := 0, finishedAt, audioPath := s!"./outputs/{jobId}.wav" }
    [("old", job "old" 1), ("young", job "young" 9), ("stuck", job "stuck" 2),
      ("running", { jobId := "running", status := .running, createdAt := 0 })]
  nodup := by decide

def agedFiles : Files :=
  fun q => if q = "./outputs/young.wav" ∨ q = "./outputs/stuck.wav" then some .partially else none

theorem eviction_exact_four_jobs :
    agedJobs.keys = ["old", "young", "stuck", "running"] ∧
      (evictExpired agedJobs agedFiles 10 5 ["./outputs/stuck.wav"]).1.keys = ["young", "running"] ∧
        EvictsExactly agedJobs agedFiles 10 5 ["./outputs/stuck.wav"]
          (evictExpired agedJobs agedFiles 10 5 ["./outputs/stuck.wav"]).1
          (evictExpired agedJobs agedFiles 10 5 ["./outputs/stuck.wav"]).2 := by
  have exact := eviction_exact.1 agedJobs agedFiles 10 5 ["./outputs/stuck.wav"] (by decide +kernel)
  refine ⟨by decide, ?_, exact⟩
  rw [Dict.keys, exact.records]
  decide +kernel

end XttsServer.Guarantees
