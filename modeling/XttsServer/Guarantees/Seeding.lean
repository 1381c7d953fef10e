import XttsServer.Guarantees.DryRun
import XttsServer.Guarantees.SpeakerCrash
import XttsServer.Guarantees.SpeakerNames

/-!
Seeding again and again. The script takes a speaker with a `latents.npz` for one that
is done, so that it repairs what an earlier run left unfinished before this file only.
-/

set_option autoImplicit false
set_option relaxedAutoImplicit false

namespace XttsServer.Guarantees

open XttsServer.Model XttsServer.Foundations XttsServer.Foundations.Transition

variable {cfg : SeedConfig} {d : SpeakersDir} {disk disk' : Disk} {c : Component} {n : SpeakerName}
  {sp : StudioSpeaker} {k : Nat}

/-- Both files are complete, the store can load the speaker, and the list has it. -/
def Usable (d : SpeakersDir) (disk : Disk) (c : Component) : Prop :=
  ∃ gpt emb fields, Complete d disk c gpt emb fields ∧ fields.get? "name" = some c.name ∧
    (∃ record, d.loadFromDisk disk c.name = .ok (some record) ∧
      record.gptCondLatent = gpt ∧ record.speakerEmbedding = emb) ∧
    ∃ l, listSpeakers d disk = .ok l ∧ fields ∈ l

/-- A run without `--force` that reports no errors leaves every speaker usable that has a slug, and
a further one changes nothing. -/
def Completes (cfg : SeedConfig) (disk : Disk) : Prop :=
  ∀ speakers env,
    let after := seedMain cfg ⟨false, false⟩ env speakers disk
    after.exitCode = 0 →
      (∀ displayName ∈ speakers.keys, ∀ n, cfg.slug? displayName = some n →
        Usable cfg.dir after.disk n.component) ∧
      ∀ env', (seedMain cfg ⟨false, false⟩ env' speakers after.disk).disk = after.disk

/-- No write of a speaker fails from the opening of `latents.npz` on until `meta.json` is complete,
or only between the two files of a speaker that has both already. -/
def keepsPairs (cfg : SeedConfig) (disk : Disk) (e : SeedArgs × SeedEntry) : Prop :=
  match cfg.slug? e.2.displayName, e.2.stops with
  | some n, some k =>
      e.1.dryRun = true ∨ cfg.present disk n ∧ e.1.force = false ∨
        e.2.tensors.convert.isOk = false ∨ ¬ Makeable disk (cfg.dir.speakerDir n) ∨
          k ≤ cfg.dir.depth ∨ cfg.dir.depth + 4 ≤ k ∨ k = cfg.dir.depth + 2 ∧ cfg.present disk n
  | _, _ => True

/-! ### Pairs of files -/

/-- The two files of the entry are both absent, or both complete with the name of the entry. -/
def Paired (d : SpeakersDir) (disk : Disk) (c : Component) : Prop :=
  disk.node (d.root ++ [c] ++ [latentsNpz]) = none ∧ disk.node
    (d.root ++ [c] ++ [metaJson]) = none ∨ ∃ gpt emb fields, Complete d disk c gpt emb fields ∧
      fields.get? "name" = some c.name

private theorem paired_congr (same : ∀ file, disk'.node (d.root ++ [c] ++ [file]) =
    disk.node (d.root ++ [c] ++ [file])) : Paired d disk' c ↔ Paired d disk c := by
  refine or_congr (by rw [same, same]) ?_
  refine exists_congr fun gpt => exists_congr fun emb => exists_congr fun fields => ?_
  refine and_congr_left fun _ => ?_
  constructor
  · rintro ⟨latents, info⟩
    exact ⟨(entryFile_of_node (same _)).symm.trans latents,
      (entryFile_of_node (same _)).symm.trans info⟩
  · rintro ⟨latents, info⟩
    exact ⟨(entryFile_of_node (same _)).trans latents, (entryFile_of_node (same _)).trans info⟩

private theorem entryFile_none {file : Component}
    (absent : disk.node (d.root ++ [c] ++ [file]) = none) :
    d.entryFile disk c file = none := by
  rw [List.append_assoc] at absent
  rw [SpeakersDir.entryFile, FileTree.read, show [c, file] = [c] ++ [file] from rfl, absent]

namespace Paired

private theorem complete (paired : Paired d disk c)
    (there : (d.entryFile disk c latentsNpz).isSome = true) :
    ∃ gpt emb fields, Complete d disk c gpt emb fields ∧ fields.get? "name" = some c.name := by
  refine paired.resolve_left fun absent => ?_
  rw [entryFile_none absent.1] at there
  cases there

private theorem absent (paired : Paired d disk c)
    (none : ¬ (d.entryFile disk c latentsNpz).isSome = true) :
    d.entryFile disk c metaJson = Option.none := by
  rcases paired with absent | ⟨gpt, emb, fields, complete, -⟩
  · exact entryFile_none absent.2
  · rw [complete.latents] at none
    exact absurd rfl none

private theorem metaReadable (paired : Paired d disk c) : d.metaReadable disk c = true := by
  rw [SpeakersDir.metaReadable]
  rcases paired with absent | ⟨gpt, emb, fields, complete, -⟩
  · rw [entryFile_none absent.2]
    rfl
  · rw [complete.info]
    rfl

private theorem not_dir (paired : Paired d disk c) {file : Component}
    (which : file = latentsNpz ∨ file = metaJson) :
    disk.node (d.root ++ [c] ++ [file]) ≠ some .dir := by
  rcases paired with ⟨latents, info⟩ | ⟨gpt, emb, fields, ⟨latents, info⟩, -⟩
  · rcases which with rfl | rfl
    · rw [latents]
      simp
    · rw [info]
      simp
  · rcases which with rfl | rfl
    · rw [entryFile_eq_some_iff.mp latents]
      simp
    · rw [entryFile_eq_some_iff.mp info]
      simp

end Paired

private theorem usable_of_paired (paired : ∀ c, Paired d disk c)
    (there : (d.entryFile disk c latentsNpz).isSome = true) : Usable d disk c := by
  obtain ⟨gpt, emb, fields, complete, name⟩ := (paired c).complete there
  obtain ⟨-, record, loads⟩ := loads_of_complete ⟨gpt, emb, complete.latents⟩
    (paired c).metaReadable
  have found := (latents_of_loadFiles (loadFromDisk_component d disk c ▸ loads)).1
  obtain ⟨rfl, rfl⟩ : gpt = record.gptCondLatent ∧ emb = record.speakerEmbedding := by
    simpa [complete.latents] using found
  obtain ⟨l, lists⟩ := listSpeakers_ok_iff.mpr fun c => (paired c).metaReadable
  exact ⟨_, _, fields, complete, name, ⟨record, loads, rfl, rfl⟩, l, lists,
    (mem_of_listSpeakers lists).mpr ⟨c, complete.info⟩⟩

/-! ### One round -/

private theorem paired_of_stopped (paired : Paired d disk n.component)
    (ran : runActions disk ((seedWrites d n sp).take k) = some disk') (late : d.depth < k)
    (early : k < d.depth + 4) :
    (d.entryFile disk' n.component latentsNpz).isSome = true ∧
      (Paired d disk' n.component ↔
        k = d.depth + 2 ∧ (d.entryFile disk n.component latentsNpz).isSome = true) := by
  have latents := entryFile_latents_of_seed ran
  have info := entryFile_meta_of_seed ran
  rw [if_neg (by omega)] at latents
  by_cases opened : k = d.depth + 1
  · rw [if_pos opened] at latents
    refine ⟨by rw [latents]; rfl, iff_of_false (fun paired' => ?_) (by omega)⟩
    obtain ⟨gpt, emb, fields, complete, -⟩ := paired'.complete (by rw [latents]; rfl)
    cases latents.symm.trans complete.latents
  · rw [if_neg opened] at latents
    refine ⟨by rw [latents]; rfl, ?_⟩
    by_cases between : k = d.depth + 2
    · rw [if_pos (by omega)] at info
      rw [and_iff_right between]
      constructor
      · intro paired'
        obtain ⟨gpt, emb, fields, complete, -⟩ := paired'.complete (by rw [latents]; rfl)
        by_contra none
        cases (info.trans (paired.absent none)).symm.trans complete.info
      · intro there
        obtain ⟨gpt, emb, fields, complete, name⟩ := paired.complete there
        exact .inr ⟨_, _, fields, ⟨latents, info.trans complete.info⟩, name⟩
    · rw [if_neg (by omega), if_pos (by omega)] at info
      refine iff_of_false (fun paired' => ?_) (by omega)
      obtain ⟨gpt, emb, fields, complete, -⟩ := paired'.complete (by rw [latents]; rfl)
      cases info.symm.trans complete.info

private theorem paired_others (paired : ∀ c, Paired d disk c)
    (ran : runActions disk ((seedWrites d n sp).take k) = some disk')
    (own : Paired d disk' n.component) (c : Component) : Paired d disk' c := by
  by_cases same : c = n.component
  · exact same ▸ own
  · exact (paired_congr (node_others_of_seed ran same)).mpr (paired c)

private theorem paired_of_seed (paired : ∀ c, Paired d disk c) (named : slugify sp.ascii = n.name)
    (ran : runActions disk (seedWrites d n sp) = some disk') (c : Component) :
    Paired d disk' c := by
  obtain ⟨latents, info⟩ := entryFiles_of_seed ran
  rw [← List.take_length (l := seedWrites d n sp)] at ran
  exact paired_others paired ran
    (.inr ⟨_, _, _, ⟨latents, info⟩, sp.fields_name.trans (congrArg some named)⟩) c

/-- A round keeps the pairs, or it leaves a speaker that is taken for done and is not. -/
private theorem paired_round {s : SeedState} (paired : ∀ c, Paired cfg.dir disk c)
    {e : SeedArgs × SeedEntry} (round : SeedRound cfg e.1 { disk } e.2 s) :
    keepsPairs cfg disk e ∧ (∀ c, Paired cfg.dir s.disk c) ∨
      ¬ keepsPairs cfg disk e ∧ ∃ n, cfg.slug? e.2.displayName = some n ∧
        cfg.present s.disk n ∧ ¬ Paired cfg.dir s.disk n.component := by
  obtain ⟨args, e⟩ := e
  have harmless {n : SpeakerName} (slug : cfg.slug? e.displayName = some n)
      (fine : ∀ k, e.stops = some k → args.dryRun = true ∨ cfg.present disk n ∧ args.force = false ∨
        e.tensors.convert.isOk = false ∨ ¬ Makeable disk (cfg.dir.speakerDir n) ∨
          k ≤ cfg.dir.depth ∨ cfg.dir.depth + 4 ≤ k ∨ k = cfg.dir.depth + 2 ∧ cfg.present disk n) :
      keepsPairs cfg disk (args, e) := by
    unfold keepsPairs
    split
    · rename_i n' k slug' stop
      obtain rfl := Option.some.inj (slug.symm.trans slug')
      exact fine k stop
    · trivial
  cases round with
  | noSlug none =>
    refine .inl ⟨?_, paired⟩
    have own : cfg.slug? e.displayName = Option.none := none
    simp [keepsPairs, own]
  | present slug there keeps =>
    exact .inl ⟨harmless slug fun _ _ => .inr (.inl ⟨there, keeps⟩), paired⟩
  | unconverted slug goes raises =>
    exact .inl ⟨harmless slug fun _ _ => .inr (.inr (.inl (congrArg Except.isOk raises))), paired⟩
  | planned slug goes converts dry => exact .inl ⟨harmless slug fun _ _ => .inl dry, paired⟩
  | @written n gpt emb disk' slug goes converts real tried =>
    have ran := runActions_of_attempt tried
    have named : slugify (cfg.studio e gpt emb).ascii = n.name := (name_of_slug? slug).symm
    refine .inl ⟨harmless slug fun k stop => ?_, paired_of_seed paired named ran⟩
    by_cases late : cfg.dir.depth + 4 ≤ k
    · exact .inr (.inr (.inr (.inr (.inr (.inl late)))))
    · obtain ⟨mid, part⟩ := runActions_take ran k
      have stopped := attempt_of_stopped part (by rw [length_seedWrites]; omega)
      rw [stop, stopped] at tried
      cases congrArg Prod.snd tried
  | @failed n gpt emb disk' slug goes converts real tried =>
    rcases attempt_cases disk (seedWrites cfg.dir n (cfg.studio e gpt emb)) e.stops with
      ⟨mid, same, -⟩ | ⟨mid, k, same, early, ran, why⟩
    · cases congrArg Prod.snd (same.symm.trans tried)
    · obtain ⟨rfl, -⟩ := Prod.mk.inj (same.symm.trans tried)
      -- a directory that can be made is written to, until the attempt stops
      have stops (makeable : Makeable disk (cfg.dir.speakerDir n)) : e.stops = some k := by
        refine why.resolve_right fun stuck => ?_
        obtain ⟨whole, all⟩ := runActions_seedWrites makeable
          ((paired n.component).not_dir (.inl rfl)) ((paired n.component).not_dir (.inr rfl))
          (cfg.studio e gpt emb)
        rw [← List.take_length (l := seedWrites _ _ _), stuck _ early] at all
        cases all
      rw [length_seedWrites] at early
      by_cases late : k ≤ cfg.dir.depth
      · refine .inl ⟨harmless slug fun j stop => ?_, paired_others paired ran
          ((paired_congr (node_of_seed_early ran late)).mpr (paired _))⟩
        by_cases makeable : Makeable disk (cfg.dir.speakerDir n)
        · obtain rfl := Option.some.inj (stop.symm.trans (stops makeable))
          exact .inr (.inr (.inr (.inr (.inl late))))
        · exact .inr (.inr (.inr (.inl makeable)))
      · have makeable := makeable_of_seed ran (by omega)
        have stop := stops makeable
        obtain ⟨there, pairs⟩ := paired_of_stopped (paired _) ran (by omega) early
        by_cases fine : k = cfg.dir.depth + 2 ∧ cfg.present disk n
        · refine .inl ⟨harmless slug fun j stop' => ?_, paired_others paired ran (pairs.mpr fine)⟩
          obtain rfl := Option.some.inj (stop'.symm.trans stop)
          exact .inr (.inr (.inr (.inr (.inr (.inr fine)))))
        · refine .inr ⟨?_, n, slug, there, fun paired' => fine (pairs.mp paired')⟩
          have own : cfg.slug? e.displayName = some n := slug
          simp only [keepsPairs, own, stop]
          rintro (dry | ⟨exists', keeps⟩ | fails | blocked | before | after | both)
          · cases real.symm.trans dry
          · cases keeps.symm.trans (goes exists')
          · cases fails.symm.trans (congrArg Except.isOk converts)
          · exact blocked makeable
          · exact late before
          · omega
          · exact fine both

/-! ### Runs -/

section runs

variable {env : SeedEnv} {speakers : List (String × StudioTensors)}

/-- A run that reports no errors has kept the pairs, and it has got each speaker that has a slug. -/
private theorem present_of_run (paired : ∀ c, Paired cfg.dir disk c)
    (well : (cfg.rounds ⟨false, false⟩ env disk speakers).errors = 0) :
    (∀ c, Paired cfg.dir (cfg.rounds ⟨false, false⟩ env disk speakers).disk c) ∧
      ∀ a ∈ speakers, ∀ n, cfg.slug? a.1 = some n →
        cfg.present (cfg.rounds ⟨false, false⟩ env disk speakers).disk n := by
  revert well
  refine rounds_induct (P := fun speakers s => s.errors = 0 → (∀ c, Paired cfg.dir s.disk c) ∧
    ∀ a ∈ speakers, ∀ n, cfg.slug? a.1 = some n → cfg.present s.disk n) speakers
    (fun _ => ⟨paired, fun a member => by cases member⟩) ?_
  intro speakers speaker s t before round well
  have add {t : SeedState} (earlier : ∀ a ∈ speakers, ∀ n, cfg.slug? a.1 = some n →
      cfg.present t.disk n) (last : ∀ n, cfg.slug? speaker.1 = some n → cfg.present t.disk n) :
      ∀ a ∈ speakers ++ [speaker], ∀ n, cfg.slug? a.1 = some n → cfg.present t.disk n := by
    intro a member
    rcases List.mem_append.mp member with old | new
    · exact earlier a old
    · exact List.mem_singleton.mp new ▸ last
  cases round with
  | noSlug none =>
    obtain ⟨pairs, there⟩ := before well
    exact ⟨pairs, add there fun n slug => by cases none.symm.trans slug⟩
  | @present m slug found keeps =>
    obtain ⟨pairs, there⟩ := before well
    refine ⟨pairs, add there fun n slug' => ?_⟩
    obtain rfl := Option.some.inj (slug.symm.trans slug')
    exact found
  | unconverted slug goes raises => simp at well
  | planned slug goes converts dry => cases dry
  | @written m gpt emb disk' slug goes converts real tried =>
    obtain ⟨pairs, there⟩ := before well
    have ran := runActions_of_attempt tried
    have named : slugify (cfg.studio (env.entry speaker) gpt emb).ascii = m.name :=
      (name_of_slug? slug).symm
    refine ⟨paired_of_seed pairs named ran, add (fun a member n slug' => ?_) ?_⟩
    · exact (present_of_written ran).mpr (.inr (there a member n slug'))
    · exact fun n slug' => (present_of_written ran).mpr
        (.inl (Option.some.inj (slug'.symm.trans slug)))
  | failed slug goes converts real tried => simp at well

private theorem disk_of_run
    (there : ∀ a ∈ speakers, ∀ n, cfg.slug? a.1 = some n → cfg.present disk n) :
    (cfg.rounds ⟨false, false⟩ env disk speakers).disk = disk := by
  revert there
  refine rounds_induct (P := fun speakers s => (∀ a ∈ speakers, ∀ n, cfg.slug? a.1 = some n →
    cfg.present disk n) → s.disk = disk) speakers (fun _ => rfl) ?_
  intro speakers speaker s t before round there
  have same := before fun a member => there a (List.mem_append_left _ member)
  have last := there speaker (by simp)
  cases round with
  | written slug goes converts real tried => cases goes (same ▸ last _ slug)
  | failed slug goes converts real tried => cases goes (same ▸ last _ slug)
  | _ => exact same

end runs

private theorem exitCode_eq_zero_iff {s : SeedState} : s.exitCode = 0 ↔ s.errors = 0 := by
  rw [SeedState.exitCode]
  split_ifs with none <;> simp [none]

private theorem completes_of_paired (paired : ∀ c, Paired cfg.dir disk c) : Completes cfg disk := by
  intro speakers env after well
  have errors := exitCode_eq_zero_iff.mp well
  have run : after = cfg.rounds ⟨false, false⟩ env disk speakers.entries := seedMain_eq ..
  rw [run] at errors ⊢
  obtain ⟨pairs, there⟩ := present_of_run paired errors
  refine ⟨fun displayName member n slug => ?_, fun env' => ?_⟩
  · obtain ⟨a, listed, rfl⟩ := List.mem_map.mp member
    exact usable_of_paired pairs (there a listed n slug)
  · rw [seedMain_eq]
    exact disk_of_run there

/-- A speaker that is taken for done and is not stays as it is, and the run reports no error. -/
private theorem not_completes {displayName : String} (slug : cfg.slug? displayName = some n)
    (there : cfg.present disk n) (other : ¬ Paired cfg.dir disk n.component) :
    ¬ Completes cfg disk := by
  intro completes
  let speakers : Dict String StudioTensors := Dict.empty.set displayName ⟨.error "", .error ""⟩
  let env : SeedEnv := ⟨fun _ => "", fun _ => none⟩
  have run : seedMain cfg ⟨false, false⟩ env speakers disk =
      SeedState.seedOne cfg ⟨false, false⟩ { disk }
        (env.entry (displayName, ⟨.error "", .error ""⟩)) := by
    rw [seedMain_eq]
    exact rounds_concat cfg ⟨false, false⟩ env disk [] _
  have after := completes speakers env
  rw [run] at after
  have round := seedOne_round cfg ⟨false, false⟩ { disk }
    (env.entry (displayName, ⟨.error "", .error ""⟩))
  generalize SeedState.seedOne cfg ⟨false, false⟩ { disk } _ = t at after round
  have listed : displayName ∈ speakers.keys := by simp [speakers, Dict.mem_keys_set]
  have done {t : SeedState} (same : t.disk = disk)
      (usable : ∀ displayName ∈ speakers.keys, ∀ n, cfg.slug? displayName = some n →
        Usable cfg.dir t.disk n.component) : False := by
    obtain ⟨gpt, emb, fields, complete, name, -⟩ := same ▸ usable displayName listed n slug
    exact other (.inr ⟨gpt, emb, fields, complete, name⟩)
  cases round with
  | noSlug none => cases none.symm.trans slug
  | present => exact done rfl (after rfl).1
  | unconverted slug' goes raises =>
    obtain rfl := Option.some.inj (slug.symm.trans slug')
    cases goes there
  | planned slug' goes converts dry => cases dry
  | written slug' goes converts real tried => cases converts
  | failed slug' goes converts real tried => cases converts

/-- After runs in which no write fails inside a pair, a run without errors completes the seeding,
and after one more round it does so exactly when no write fails inside a pair there. -/
theorem seeding_repeatable (paired : ∀ c, Paired cfg.dir disk c) {tr : List Unit} {t : Disk}
    (h : Reach (seedings cfg disk) (keepsPairs cfg) tr t) :
    Completes cfg t ∧ ∀ e t', (seedings cfg disk).step t e = some (t', []) →
      (Completes cfg t' ↔ keepsPairs cfg t e) := by
  have pairs : ∀ c, Paired cfg.dir t c := by
    induction h with
    | refl => exact paired
    | tail _ meets taken ih =>
      obtain ⟨rfl, -⟩ := Prod.mk.inj (Option.some.inj taken)
      rcases paired_round ih (seedOne_round cfg _ _ _) with ⟨-, kept⟩ | ⟨breaks, -⟩
      · exact kept
      · exact absurd meets breaks
  refine ⟨completes_of_paired pairs, fun e t' taken => ?_⟩
  obtain ⟨rfl, -⟩ := Prod.mk.inj (Option.some.inj taken)
  rcases paired_round pairs (seedOne_round cfg _ _ _) with
    ⟨keeps, kept⟩ | ⟨breaks, n, slug, there, other⟩
  · exact iff_of_true (completes_of_paired kept) keeps
  · exact iff_of_false (not_completes slug there other) breaks

instance (cfg : SeedConfig) (disk : Disk) (e : SeedArgs × SeedEntry) :
    Decidable (keepsPairs cfg disk e) := by
  unfold keepsPairs
  split <;> infer_instance

/-- A run on an empty disk that fails before it writes a file, and a second one that does not. -/
def seededTwice : List (SeedArgs × SeedEntry) :=
  [(⟨false, false⟩, ⟨"Claribel Dervla", studioTensors, "2024-01-01", some 2⟩),
    (⟨false, false⟩, ⟨"Claribel Dervla", studioTensors, "2024-01-02", none⟩)]

private theorem seededTwice_runs : (exec (seedings seedConfig .bare) (keepsPairs seedConfig) .bare
    seededTwice).isSome = true := by decide +kernel

private theorem paired_bare (d : SpeakersDir) (c : Component) : Paired d .bare c := by
  have empty (q : List Component) (below : q ≠ []) : (FileTree.bare : Disk).node q = none := by
    rw [FileTree.node, FileTree.bare, Dict.get?_set, if_neg below, Dict.get?_empty]
  exact .inl ⟨empty _ (by simp), empty _ (by simp)⟩

theorem seeding_repeatable_seeded_twice :
    let last := ((exec (seedings seedConfig .bare) (keepsPairs seedConfig) .bare seededTwice).get
      seededTwice_runs).1
    Completes seedConfig last ∧ ∀ e t', (seedings seedConfig .bare).step last e = some (t', []) →
      (Completes seedConfig t' ↔ keepsPairs seedConfig last e) :=
  seeding_repeatable (paired_bare seedConfig.dir)
    (reach_of_exec (M := seedings seedConfig .bare) (P := keepsPairs seedConfig) seededTwice_runs)

private theorem reach_of_seedMain {tr : List Unit} {t : Disk}
    (h : Reach (seedings cfg disk) anyStep tr t) (args : SeedArgs) (env : SeedEnv)
    (speakers : Dict String StudioTensors) :
    Reach (seedings cfg disk) anyStep tr (seedMain cfg args env speakers t).disk := by
  rw [seedMain_eq]
  induction speakers.entries using List.reverseRecOn with
  | nil => exact h
  | append_singleton speakers speaker ih =>
    rw [rounds_concat, disk_seedOne]
    simpa using ih.tail (e := (args, env.entry speaker)) trivial rfl

/-- The write of `meta.json` fails. -/
def diskFull : SeedEnv := ⟨fun _ => "2024-01-01", fun _ => some 4⟩

def claribel : SpeakerName := ⟨"Claribel_Dervla", by decide +kernel⟩

/-- After that a run reports no errors and leaves the speaker without `meta.json`. -/
theorem seeding_not_repeatable : ¬ ∀ cfg disk, (∀ c, Paired cfg.dir disk c) →
    ∀ tr t, Reach (seedings cfg disk) anyStep tr t → Completes cfg t := by
  intro all
  let speakers : Dict String StudioTensors := Dict.empty.set "Claribel Dervla" studioTensors
  let first := seedMain seedConfig ⟨false, false⟩ diskFull speakers .bare
  have completes := all seedConfig .bare (paired_bare seedConfig.dir) [] first.disk
    (reach_of_seedMain .refl ⟨false, false⟩ diskFull speakers)
  obtain ⟨usable, -⟩ := completes speakers noStops (by decide +kernel)
  have slug : (seedConfig.slug? "Claribel Dervla").map SpeakerName.name = some claribel.name := by
    decide +kernel
  obtain ⟨n, found, same⟩ := Option.map_eq_some_iff.mp slug
  obtain rfl : n = claribel := eq_of_name same
  obtain ⟨gpt, emb, fields, complete, -⟩ := usable "Claribel Dervla" (by decide +kernel) _ found
  have absent : seedConfig.dir.entryFile
      (seedMain seedConfig ⟨false, false⟩ noStops speakers first.disk).disk claribel.component
        metaJson = none := by decide +kernel
  cases absent.symm.trans complete.info

end XttsServer.Guarantees
