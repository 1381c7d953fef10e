import XttsServer.Guarantees.SpeakerCache
import XttsServer.Model.Seeding

/-!
What a startup makes of a speakers directory whose writers were stopped half-way:
which stops it gets past, and that one damaged speaker takes all the others with it.
-/

set_option autoImplicit false
set_option relaxedAutoImplicit false

namespace XttsServer.Guarantees

open XttsServer.Model XttsServer.Foundations XttsServer.Foundations.Transition

variable {d : SpeakersDir} {disk disk' : Disk} {e : DiskEvent} {c : Component}

structure Complete (d : SpeakersDir) (disk : Disk) (c : Component) (gpt emb : Ndarray)
    (fields : Dict String String) : Prop where
  latents : d.entryFile disk c latentsNpz = some (.npz gpt emb)
  info : d.entryFile disk c metaJson = some (.json fields)

/-- The next startup loads every complete speaker, whatever the order of the entries, and the list
of speakers has each of them. -/
structure Recovers (d : SpeakersDir) (disk : Disk) : Prop where
  loads : ∀ entries : List Component, entries.Perm (disk.children d.root) →
    (∃ k, (SpeakerStore.preloadAll d ⟨disk, .empty⟩ entries).2 = .ok k) ∧
      ∀ c gpt emb fields, Complete d disk c gpt emb fields → ∃ record,
        (SpeakerStore.preloadAll d ⟨disk, .empty⟩ entries).1.cache.get? c.name = some record ∧
          record.gptCondLatent = gpt ∧ record.speakerEmbedding = emb
  lists : ∃ l, listSpeakers d disk = .ok l ∧
    ∀ c gpt emb fields, Complete d disk c gpt emb fields → fields ∈ l

/-- No process was stopped inside `np.savez` or `json.dump`. -/
def stopsBetweenWrites (d : SpeakersDir) (disk : Disk) : DiskEvent → Prop
  | .register _ done => done ≠ 4 ∧ done ≠ 6
  | .seed force sp done => seedPlan d disk force sp = [] ∨ done ≠ 2 ∧ done ≠ 4
  | _ => True

/-! ### Readable directories -/

/-- The entry has no damaged latents and no damaged metadata. -/
def Readable (d : SpeakersDir) (disk : Disk) (c : Component) : Prop :=
  d.latentsReadable disk c = true ∧ d.metaReadable disk c = true

private theorem loads_of_readable (readable : Readable d disk c) :
    ∃ found, d.loadFromDisk disk c.name = .ok found := by
  rw [loadFromDisk_component, loadFiles_ok_iff]
  exact ⟨readable.1, fun _ => readable.2⟩

private theorem recovers_iff : Recovers d disk ↔ ∀ c, Readable d disk c := by
  constructor
  · rintro ⟨loads, l, lists, -⟩ c
    obtain ⟨⟨k, returned⟩, -⟩ := loads _ (List.Perm.refl _)
    rw [preloadAll_eq (List.Perm.refl _)] at returned
    have info := listSpeakers_ok_iff.mp ⟨l, lists⟩ c
    refine ⟨?_, info⟩
    by_cases there : disk.node (d.root ++ [c]) = none
    · rw [SpeakersDir.latentsReadable, entryFile_of_absent there]
      rfl
    · have found := loads_of_preloadEntries (disk.nodup_children d.root) returned
        (FileTree.mem_children.mpr there) rfl
      rw [loadFromDisk_component, loadFiles_ok_iff] at found
      exact found.1
  · intro readable
    constructor
    · intro entries all
      rw [preloadAll_eq all]
      obtain ⟨cache, result, holds⟩ := preloadEntries_ok (d := d) (s := ⟨disk, .empty⟩) 0
        (all.nodup_iff.mpr (disk.nodup_children d.root)) fun c _ _ => loads_of_readable (readable c)
      rw [result]
      refine ⟨⟨_, rfl⟩, fun c gpt emb fields complete => ?_⟩
      obtain ⟨found, loads⟩ := loads_of_readable (readable c)
      have files := loadFromDisk_component d disk c ▸ loads
      rw [complete.latents] at files
      cases found with
      | none => cases loadFiles_ok_none_iff.mp files
      | some record =>
        have there : c ∈ entries := by
          rw [all.mem_iff, FileTree.mem_children,
            FileTree.isDir_iff.mp (isDir_of_entryFile complete.latents)]
          simp
        obtain ⟨gpt_eq, emb_eq⟩ : gpt = record.gptCondLatent ∧ emb = record.speakerEmbedding := by
          simpa using (latents_of_loadFiles files).1
        exact ⟨record, (holds c.name record).mpr (.inr ⟨rfl, c, there, rfl, loads⟩), gpt_eq.symm,
          emb_eq.symm⟩
    · obtain ⟨l, lists⟩ := listSpeakers_ok_iff.mpr fun c => (readable c).2
      exact ⟨l, lists, fun c gpt emb fields complete =>
        (mem_of_listSpeakers lists).mpr ⟨c, complete.info⟩⟩

private theorem readable_congr
    (latents : d.entryFile disk' c latentsNpz = d.entryFile disk c latentsNpz)
    (info : d.entryFile disk' c metaJson = d.entryFile disk c metaJson) :
    Readable d disk' c ↔ Readable d disk c := by
  rw [Readable, Readable, SpeakersDir.latentsReadable, SpeakersDir.latentsReadable,
    SpeakersDir.metaReadable, SpeakersDir.metaReadable, latents, info]

private theorem readable_of_less (less : ∀ q, disk'.node q = disk.node q ∨ disk'.node q = none)
    (readable : Readable d disk c) : Readable d disk' c := by
  have file (file : Component) : d.entryFile disk' c file = d.entryFile disk c file ∨
      d.entryFile disk' c file = none := by
    rcases less (d.root ++ [c, file]) with same | gone
    · exact .inl (FileTree.node_congr same).2
    · exact .inr (by rw [SpeakersDir.entryFile, FileTree.read, gone])
  constructor
  · rw [SpeakersDir.latentsReadable]
    rcases file latentsNpz with same | gone
    · rw [same]
      exact readable.1
    · rw [gone]
      rfl
  · rw [SpeakersDir.metaReadable]
    rcases file metaJson with same | gone
    · rw [same]
      exact readable.2
    · rw [gone]
      rfl

/-- A speaker that is being saved is readable but inside the two writes. -/
private theorem readable_of_save {n : SpeakerName} {pre : List FileAction} {gpt emb : Ndarray}
    {fields : Dict String String} {done : Nat} (readable : Readable d disk n.component)
    (before : ∀ a ∈ pre, ∀ file, file = latentsNpz ∨ file = metaJson →
      d.speakerDir n ++ [file] ≠ a.target)
    (h : runActions disk ((pre ++ saveActions (d.speakerDir n) gpt emb fields).take done) =
      some disk') :
    Readable d disk' n.component ↔ done ≠ pre.length + 1 ∧ done ≠ pre.length + 3 := by
  rw [Readable, SpeakersDir.latentsReadable, SpeakersDir.metaReadable,
    entryFile_latents_of_save (fun a member => before a member _ (.inl rfl)) h,
    entryFile_meta_of_save (fun a member => before a member _ (.inr rfl)) h]
  obtain ⟨latents, info⟩ := readable
  rw [SpeakersDir.latentsReadable] at latents
  rw [SpeakersDir.metaReadable] at info
  by_cases early : done ≤ pre.length
  · rw [if_pos early, if_pos (by omega)]
    exact iff_of_true ⟨latents, info⟩ (by omega)
  · rw [if_neg early]
    by_cases opened : done = pre.length + 1
    · rw [if_pos opened]
      exact iff_of_false (fun both => Bool.false_ne_true both.1) (by omega)
    · rw [if_neg opened]
      by_cases saved : done ≤ pre.length + 2
      · rw [if_pos saved]
        exact iff_of_true ⟨rfl, info⟩ (by omega)
      · rw [if_neg saved]
        by_cases reopened : done = pre.length + 3
        · rw [if_pos reopened]
          exact iff_of_false (fun both => Bool.false_ne_true both.2) (by omega)
        · rw [if_neg reopened]
          exact iff_of_true ⟨rfl, rfl⟩ ⟨opened, reopened⟩

private theorem readable_of_others {n : SpeakerName} {actions : List FileAction}
    (own : ∀ a ∈ actions, d.speakerDir n <+: a.target) (h : runActions disk actions = some disk')
    (other : c ≠ n.component) : Readable d disk' c ↔ Readable d disk c := by
  have file (file : Component) : d.entryFile disk' c file = d.entryFile disk c file := by
    refine entryFile_of_node (node_of_runActions h fun a member same => other ?_)
    have inside := own a member
    rw [← same, SpeakersDir.speakerDir, List.append_assoc, List.prefix_append_right_inj] at inside
    simpa [eq_comm] using inside
  exact readable_congr (file latentsNpz) (file metaJson)

private theorem forall_readable_iff {n : SpeakerName} {actions : List FileAction}
    (own : ∀ a ∈ actions, d.speakerDir n <+: a.target) (h : runActions disk actions = some disk')
    (readable : ∀ c, Readable d disk c) :
    (∀ c, Readable d disk' c) ↔ Readable d disk' n.component := by
  refine ⟨fun all => all _, fun saved c => ?_⟩
  by_cases other : c = n.component
  · exact other ▸ saved
  · exact (readable_of_others own h other).mpr (readable c)

private theorem readable_of_register {r : Registration} {done : Nat}
    (readable : ∀ c, Readable d disk c)
    (h : runActions disk ((registerActions d disk r).take done) = some disk') :
    (∀ c, Readable d disk' c) ↔ done ≠ 4 ∧ done ≠ 6 := by
  rw [forall_readable_iff (fun a member => speakerDir_prefix_target (List.mem_of_mem_take member)) h
    readable]
  obtain ⟨a, b, list, ta, tb, -, -⟩ := registerActions_eq d disk r
  rw [list] at h
  refine readable_of_save (readable _) (fun x member file which => ?_) h
  have apart : copyTarget d disk r ≠ d.speakerDir r.name ++ [file] := by
    rcases which with rfl | rfl
    · exact copyTarget_ne (by decide)
    · exact copyTarget_ne (by decide)
  simp only [List.mem_cons, List.not_mem_nil, or_false] at member
  rcases member with rfl | rfl | rfl
  · exact (speakerDir_ne_append r.name file).symm
  · exact fun same => apart (ta ▸ same.symm)
  · exact fun same => apart (tb ▸ same.symm)

private theorem readable_of_seed {n : SpeakerName} {sp : StudioSpeaker} {done : Nat}
    (readable : ∀ c, Readable d disk c)
    (h : runActions disk ((seedActions d n sp).take done) = some disk') :
    (∀ c, Readable d disk' c) ↔ done ≠ 2 ∧ done ≠ 4 := by
  have inside (file : Component) : d.speakerDir n <+: d.speakerDir n ++ [file] :=
    List.prefix_append _ _
  have own : ∀ a ∈ (seedActions d n sp).take done, d.speakerDir n <+: a.target := by
    intro a member
    have listed := List.mem_of_mem_take member
    simp only [seedActions, saveActions, List.cons_append, List.nil_append, List.mem_cons,
      List.not_mem_nil, or_false] at listed
    rcases listed with rfl | rfl | rfl | rfl | rfl
    · exact List.prefix_refl _
    · exact inside latentsNpz
    · exact inside latentsNpz
    · exact inside metaJson
    · exact inside metaJson
  rw [forall_readable_iff own h readable]
  refine readable_of_save (readable _) (fun x member file _ => ?_) h
  rw [List.mem_singleton.mp member]
  exact (speakerDir_ne_append n file).symm

private theorem readable_of_upload {audio : List UInt8} {tmp : Component} {done : Nat}
    (fresh : ¬ (tmp = latentsNpz ∨ tmp = metaJson)) (readable : ∀ c, Readable d disk c)
    (h : runActions disk ((uploadActions d audio tmp).take done) = some disk') (c : Component) :
    Readable d disk' c := by
  have file (file : Component) (other : file ≠ tmp) :
      d.entryFile disk' c file = d.entryFile disk c file := by
    refine entryFile_of_node (node_of_runActions h fun a member same => ?_)
    have listed := List.mem_of_mem_take member
    simp only [uploadActions, List.mem_cons, List.not_mem_nil, or_false] at listed
    rcases listed with rfl | rfl | rfl
    · simp [FileAction.target] at same
    · exact other (by simpa using (List.append_inj' same rfl).2)
    · exact other (by simpa using (List.append_inj' same rfl).2)
  rw [not_or] at fresh
  exact (readable_congr (file _ (Ne.symm fresh.1)) (file _ (Ne.symm fresh.2))).mpr (readable c)

/-- One writer damages nothing, unless it is stopped inside one of the two writes. -/
private theorem readable_step (readable : ∀ c, Readable d disk c)
    (taken : diskStep d disk e = some disk') :
    (∀ c, Readable d disk' c) ↔ stopsBetweenWrites d disk e := by
  cases e with
  | register r done => exact readable_of_register readable taken
  | deleteSome n gone =>
    refine iff_of_true (fun c => readable_of_less (fun q => ?_) (readable c)) trivial
    rw [node_of_removeBelow taken]
    split_ifs
    · exact .inr rfl
    · exact .inl rfl
  | delete n =>
    obtain rfl := Option.some.inj taken
    refine iff_of_true (fun c => readable_of_less (fun q => ?_) (readable c)) trivial
    rw [FileTree.node_rmtree]
    split_ifs
    · exact .inr rfl
    · exact .inl rfl
  | seed force sp done =>
    rw [diskStep] at taken
    rw [stopsBetweenWrites]
    by_cases skipped : seedPlan d disk force sp = []
    · rw [skipped, List.take_nil] at taken
      obtain rfl := Option.some.inj taken
      exact iff_of_true readable (.inl skipped)
    · obtain ⟨n, plan⟩ : ∃ n, seedPlan d disk force sp = seedActions d n sp := by
        cases slug : sp.slug? with
        | none => exact absurd (by simp only [seedPlan, slug]) skipped
        | some n =>
          refine ⟨n, ?_⟩
          simp only [seedPlan, slug] at skipped ⊢
          split_ifs at skipped ⊢ with there
          · exact absurd rfl skipped
          · rfl
      rw [plan] at taken
      rw [readable_of_seed readable taken, or_iff_right skipped]
  | upload audio tmp done =>
    rw [diskStep] at taken
    split_ifs at taken with clash
    exact iff_of_true (readable_of_upload clash readable taken) trivial
  | removeTmp tmp =>
    refine iff_of_true (fun c => readable_of_less (fun q => ?_) (readable c)) trivial
    rw [FileTree.remove_eq_some taken]
    split_ifs
    · exact .inr rfl
    · exact .inl rfl

/-- In a run whose writers are stopped outside the two writes alone every startup gets past the
directory that is left, and after one more writer it does so exactly when this one is too. -/
theorem crash_safe (wf : WellFormed d disk) {tr : List Unit} {t : Disk}
    (h : Reach (speakersDisk d disk) (stopsBetweenWrites d) tr t) :
    Recovers d t ∧ ∀ e t', diskStep d t e = some t' →
      (Recovers d t' ↔ stopsBetweenWrites d t e) := by
  have readable : ∀ c, Readable d t c := by
    induction h with
    | refl =>
      refine fun c => ⟨?_, wf.metaReadable c⟩
      rw [SpeakersDir.latentsReadable]
      rcases wf.speakers c with ⟨none, -⟩ | ⟨gpt, emb, fields, latents, -, -⟩
      · exact none ▸ rfl
      · exact latents ▸ rfl
    | tail _ meets step ih =>
      obtain ⟨t', taken, same⟩ := Option.map_eq_some_iff.mp step
      obtain ⟨rfl, rfl⟩ := Prod.mk.inj same
      exact (readable_step ih taken).mpr meets
  refine ⟨recovers_iff.mpr readable, fun e t' taken => ?_⟩
  rw [recovers_iff, readable_step readable taken]

/-- A clone of a new speaker, its upload kept in a temporary file. -/
def bobRegistration : Registration :=
  ⟨⟨"bob", by decide +kernel⟩, speakersConfig.dir.root ++ [tmpDir], ⟨"upload.wav", by decide⟩,
    ⟨[1, 1, 1], [3]⟩, ⟨[1, 1, 1], [4]⟩, "2024-01-01"⟩

/-- The registration is stopped after `done` file operations. -/
def stoppedClone (done : Nat) : List DiskEvent :=
  [.upload [1, 2, 3] ⟨"upload.wav", by decide⟩ 3, .register bobRegistration done]

instance (d : SpeakersDir) (disk : Disk) (e : DiskEvent) :
    Decidable (stopsBetweenWrites d disk e) := by
  unfold stopsBetweenWrites
  split <;> infer_instance

private theorem stoppedClone_runs : (exec (speakersDisk speakersConfig.dir aliceDisk)
    (stopsBetweenWrites speakersConfig.dir) aliceDisk (stoppedClone 5)).isSome = true := by
  decide +kernel

theorem crash_safe_stopped_clone :
    let last := ((exec (speakersDisk speakersConfig.dir aliceDisk)
      (stopsBetweenWrites speakersConfig.dir) aliceDisk (stoppedClone 5)).get stoppedClone_runs).1
    Recovers speakersConfig.dir last ∧ ∀ e t', diskStep speakersConfig.dir last e = some t' →
      (Recovers speakersConfig.dir t' ↔ stopsBetweenWrites speakersConfig.dir last e) :=
  crash_safe aliceDisk_wellFormed
    (reach_of_exec (M := speakersDisk speakersConfig.dir aliceDisk)
      (P := stopsBetweenWrites speakersConfig.dir) stoppedClone_runs)

private theorem stoppedClone_damages :
    (exec (speakersDisk speakersConfig.dir aliceDisk) anyStep aliceDisk (stoppedClone 4)).isSome =
      true := by decide +kernel

/-- Stopped inside `np.savez` for a new speaker: the next startup raises. -/
theorem not_crash_safe : ¬ ∀ d disk, WellFormed d disk → ∀ tr t,
    Reach (speakersDisk d disk) anyStep tr t → Recovers d t := by
  intro all
  have recovers := all speakersConfig.dir aliceDisk aliceDisk_wellFormed _ _
    (reach_of_exec (M := speakersDisk speakersConfig.dir aliceDisk) (P := anyStep)
      stoppedClone_damages)
  have readable := (recovers_iff.mp recovers bobRegistration.name.component).1
  revert readable
  decide +kernel

end XttsServer.Guarantees
