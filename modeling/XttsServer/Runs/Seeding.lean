import XttsServer.Model.SeedScript
import XttsServer.Runs.Speakers
import XttsServer.Runs.SpeakerWrites

/-!
What one round of the seeding script does to SPEAKERS_DIR, in each of the ways that
it may end, and what a whole run makes of it.
-/

set_option autoImplicit false
set_option relaxedAutoImplicit false

namespace XttsServer.Model

open XttsServer.Foundations

variable {d : SpeakersDir} {disk disk' : Disk} {n : SpeakerName} {sp : StudioSpeaker}
  {actions : List FileAction} {stops : Option Nat} {k : Nat}

/-! ### Attempts -/

private theorem attempt_cons (disk : Disk) (a : FileAction) (rest : List FileAction)
    (now : stops ≠ some 0) :
    attempt disk (a :: rest) stops =
      match a.run disk with
      | none => (disk, false)
      | some mid => attempt mid rest (stops.map (· - 1)) := by
  cases stops with
  | none => rfl
  | some k =>
    cases k with
    | zero => exact absurd rfl now
    | succ k => rfl

/-- The operations are all done, or some of them are, and then either the next one raises by itself
or it is where the attempt stops. -/
theorem attempt_cases (disk : Disk) (actions : List FileAction) (stops : Option Nat) :
    (∃ disk', attempt disk actions stops = (disk', true) ∧ runActions disk actions = some disk') ∨
      ∃ disk' k, attempt disk actions stops = (disk', false) ∧ k < actions.length ∧
        runActions disk (actions.take k) = some disk' ∧
          (stops = some k ∨ ∀ j, k < j → runActions disk (actions.take j) = none) := by
  induction actions generalizing disk stops with
  | nil => exact .inl ⟨disk, rfl, rfl⟩
  | cons a rest ih =>
    by_cases now : stops = some 0
    · subst now
      exact .inr ⟨disk, 0, rfl, Nat.succ_pos _, rfl, .inl rfl⟩
    · have goes := attempt_cons disk a rest now
      cases ran : a.run disk with
      | none =>
        rw [ran] at goes
        refine .inr ⟨disk, 0, goes, Nat.succ_pos _, rfl, .inr fun j later => ?_⟩
        obtain ⟨i, rfl⟩ := Nat.exists_eq_succ_of_ne_zero (Nat.ne_of_gt later)
        rw [List.take_succ_cons, runActions, ran]
        rfl
      | some mid =>
        rw [ran] at goes
        have first (more : List FileAction) :
            runActions disk (a :: more) = runActions mid more := by
          rw [runActions, ran]
          rfl
        rcases ih mid (stops.map (· - 1)) with
          ⟨disk', done, all⟩ | ⟨disk', k, failed, early, some_done, why⟩
        · exact .inl ⟨disk', goes.trans done, (first rest).trans all⟩
        · refine .inr ⟨disk', k + 1, goes.trans failed, Nat.succ_lt_succ early, ?_, ?_⟩
          · rw [List.take_succ_cons, first, some_done]
          · rcases why with stop | stuck
            · obtain ⟨i, rfl, here⟩ := Option.map_eq_some_iff.mp stop
              have positive : i ≠ 0 := fun zero => now (congrArg some zero)
              exact .inl (congrArg some (by omega))
            · refine .inr fun j later => ?_
              obtain ⟨i, rfl⟩ := Nat.exists_eq_succ_of_ne_zero (by omega : j ≠ 0)
              rw [List.take_succ_cons, first]
              exact stuck i (Nat.lt_of_succ_lt_succ later)

theorem runActions_of_attempt (tried : attempt disk actions stops = (disk', true)) :
    runActions disk actions = some disk' := by
  rcases attempt_cases disk actions stops with ⟨all, same, ran⟩ | ⟨some_done, k, same, -⟩
  · obtain ⟨rfl, -⟩ := Prod.mk.inj (tried.symm.trans same)
    exact ran
  · cases congrArg Prod.snd (tried.symm.trans same)

theorem attempt_of_stopped (done : runActions disk (actions.take k) = some disk')
    (early : k < actions.length) : attempt disk actions (some k) = (disk', false) := by
  induction actions generalizing disk k with
  | nil => cases early
  | cons a rest ih =>
    cases k with
    | zero =>
      obtain rfl := Option.some.inj done
      rfl
    | succ k =>
      obtain ⟨mid, ran, later⟩ := Option.bind_eq_some_iff.mp done
      have goes : attempt disk (a :: rest) (some (k + 1)) = attempt mid rest (some k) := by
        rw [attempt_cons disk a rest (by simp), ran]
        rfl
      rw [goes, ih later (Nat.lt_of_succ_lt_succ early)]

theorem runActions_take (done : runActions disk actions = some disk') (k : Nat) :
    ∃ mid, runActions disk (actions.take k) = some mid := by
  rw [← List.take_append_drop k actions, runActions_append] at done
  obtain ⟨mid, first, -⟩ := Option.bind_eq_some_iff.mp done
  exact ⟨mid, first⟩

/-! ### The directory of a speaker -/

private theorem length_makeParents (above rest : List Component) :
    (makeParents above rest).length = rest.length := by
  induction rest generalizing above with
  | nil => rfl
  | cons c rest ih => rw [makeParents, List.length_cons, ih, List.length_cons]

private theorem makeParents_concat (above rest : List Component) (c : Component) :
    makeParents above (rest ++ [c]) = makeParents above rest ++ [.mkdir (above ++ rest) c] := by
  induction rest generalizing above with
  | nil => simp [makeParents]
  | cons c' rest ih => simp [makeParents, ih]

private theorem target_of_makeParents {above rest : List Component} {a : FileAction}
    (member : a ∈ makeParents above rest) : a.target <+: above ++ rest := by
  induction rest generalizing above with
  | nil => cases member
  | cons c rest ih =>
    rcases List.mem_cons.mp member with rfl | later
    · exact ⟨rest, by simp [FileAction.target]⟩
    · simpa using ih later

/-- The path of the directory can be made: there is no file on it. -/
def Makeable (disk : Disk) (path : List Component) : Prop := ∀ p ∈ path.inits, disk.read p = none

instance (disk : Disk) (path : List Component) : Decidable (Makeable disk path) := by
  unfold Makeable
  infer_instance

private theorem read_above {p q : List Component} (there : disk.node q = some .dir)
    (above : p <+: q) :
    disk.read p = none := by
  have dir : disk.node p = some .dir := by
    by_cases same : p = q
    · rw [same, there]
    · exact FileTree.node_of_below (by rw [there]; simp) above same
  rw [FileTree.read, dir]

private theorem mkdir_isSome {p : List Component} {c : Component} (parent : disk.node p = some .dir)
    (free : disk.read (p ++ [c]) = none) : ∃ disk', disk.mkdir p c = some disk' := by
  unfold FileTree.mkdir
  split
  · exact ⟨_, rfl⟩
  · rename_i content there
    rw [FileTree.read_eq_some_iff.mpr there] at free
    cases free
  · rw [dif_pos (FileTree.isDir_iff.mpr parent)]
    exact ⟨_, rfl⟩

private theorem makeParents_iff {above rest : List Component}
    (there : disk.node above = some .dir) :
    (∃ disk', runActions disk (makeParents above rest) = some disk') ↔
      Makeable disk (above ++ rest) := by
  induction rest generalizing disk above with
  | nil =>
    refine iff_of_true ⟨disk, rfl⟩ fun p member => read_above there ?_
    simpa using member
  | cons c rest ih =>
    have split : above ++ c :: rest = above ++ [c] ++ rest := by simp
    rw [makeParents, split]
    by_cases free : disk.read (above ++ [c]) = none
    · obtain ⟨mid, made⟩ := mkdir_isSome there free
      have node := (FileTree.mkdir_eq_some made).2
      have first : runActions disk (.mkdir above c :: makeParents (above ++ [c]) rest) =
          runActions mid (makeParents (above ++ [c]) rest) := by
        rw [runActions, FileAction.run, made]
        rfl
      have made' : mid.node (above ++ [c]) = some .dir := by rw [node, if_pos rfl]
      rw [first]
      refine (ih made').trans ?_
      refine forall₂_congr fun p member => ?_
      by_cases own : p = above ++ [c]
      · rw [own, free, FileTree.read, node, if_pos rfl]
      · have same : mid.node p = disk.node p := by rw [node, if_neg own]
        rw [(FileTree.node_congr same).2]
    · refine iff_of_false ?_ fun made => free (made _ (by simp))
      rintro ⟨disk', done⟩
      obtain ⟨mid, made, -⟩ := Option.bind_eq_some_iff.mp done
      exact free (FileTree.mkdir_eq_some made).1

private theorem runActions_file {p : List Component} {c : Component} (content : FileContent)
    (parent : disk.node p = some .dir) (free : disk.node (p ++ [c]) ≠ some .dir) :
    ∃ disk', runActions disk [.create p c, .fill p c content] = some disk' ∧
      ∀ q, disk'.node q = if q = p ++ [c] then some (.file content) else disk.node q := by
  have writes {disk : Disk} (content : FileContent) (parent : disk.node p = some .dir)
      (free : disk.node (p ++ [c]) ≠ some .dir) : ∃ disk', disk.write p c content = some disk' := by
    unfold FileTree.write
    rw [dif_pos ⟨FileTree.isDir_iff.mpr parent, fun dir => free (FileTree.isDir_iff.mp dir)⟩]
    exact ⟨_, rfl⟩
  obtain ⟨mid, first⟩ := writes .truncated parent free
  have opened := (FileTree.write_eq_some first).2
  have still : mid.node p = some .dir := by rw [opened, if_neg (by simp), parent]
  obtain ⟨disk', second⟩ := writes content still (by rw [opened, if_pos rfl]; simp)
  refine ⟨disk', ?_, fun q => ?_⟩
  · simp only [runActions, FileAction.run, first, second, Option.bind_some]
  · rw [(FileTree.write_eq_some second).2, opened]
    split_ifs <;> rfl

/-! ### The files of a speaker -/

private theorem seedWrites_eq (d : SpeakersDir) (n : SpeakerName) (sp : StudioSpeaker) :
    seedWrites d n sp = makeParents [] (d.speakerDir n) ++
      saveActions (d.speakerDir n) sp.gptCondLatent sp.speakerEmbedding sp.fields := by
  have dir : d.speakerDir n = d.root ++ [n.component] := rfl
  rw [seedWrites, seedActions, dir, makeParents_concat, List.append_assoc, List.nil_append]

abbrev SpeakersDir.depth (d : SpeakersDir) : Nat := d.root.length + 1

private theorem length_speakerDir (n : SpeakerName) :
    (makeParents [] (d.speakerDir n)).length = d.depth := by
  rw [length_makeParents, SpeakersDir.speakerDir, List.length_append, List.length_singleton]

theorem length_seedWrites (d : SpeakersDir) (n : SpeakerName) (sp : StudioSpeaker) :
    (seedWrites d n sp).length = d.depth + 4 := by
  rw [seedWrites_eq, List.length_append, length_speakerDir]
  rfl

private theorem speakerFile_ne_target {file : Component} {a : FileAction}
    (member : a ∈ makeParents [] (d.speakerDir n)) : d.speakerDir n ++ [file] ≠ a.target := by
  intro same
  have above := target_of_makeParents member
  rw [List.nil_append, ← same] at above
  exact not_child_above _ _ above

private theorem node_of_makeParents
    (made : runActions disk (makeParents [] (d.speakerDir n)) = some disk') (file : Component) :
    disk'.node (d.speakerDir n ++ [file]) = disk.node (d.speakerDir n ++ [file]) :=
  node_of_runActions made fun _ => speakerFile_ne_target

theorem makeable_of_seed (ran : runActions disk ((seedWrites d n sp).take k) = some disk')
    (late : d.depth ≤ k) : Makeable disk (d.speakerDir n) := by
  obtain ⟨mid, made⟩ := runActions_take ran d.depth
  rw [List.take_take, Nat.min_eq_left late, seedWrites_eq, List.take_append,
    List.take_of_length_le (Nat.le_of_eq (length_speakerDir n)), length_speakerDir, Nat.sub_self,
    List.take_zero, List.append_nil] at made
  exact (makeParents_iff disk.rooted).mp ⟨mid, made⟩

theorem node_of_seed_early (ran : runActions disk ((seedWrites d n sp).take k) = some disk')
    (early : k ≤ d.depth) (file : Component) :
    disk'.node (d.root ++ [n.component] ++ [file]) = disk.node
      (d.root ++ [n.component] ++ [file]) := by
  rw [seedWrites_eq, List.take_append_of_le_length (length_speakerDir n ▸ early)] at ran
  exact node_of_runActions ran fun _ member => speakerFile_ne_target (List.mem_of_mem_take member)

theorem runActions_seedWrites (makeable : Makeable disk (d.speakerDir n))
    (latents : disk.node (d.speakerDir n ++ [latentsNpz]) ≠ some .dir)
    (info : disk.node (d.speakerDir n ++ [metaJson]) ≠ some .dir) (sp : StudioSpeaker) :
    ∃ whole, runActions disk (seedWrites d n sp) = some whole := by
  obtain ⟨mid, made⟩ : ∃ mid, runActions disk (makeParents [] (d.speakerDir n)) = some mid :=
    (makeParents_iff disk.rooted).mpr makeable
  have dir : mid.node (d.speakerDir n) = some .dir := by
    have path : d.speakerDir n = d.root ++ [n.component] := rfl
    rw [path, makeParents_concat] at made
    obtain ⟨x, there, rfl⟩ := node_of_last _ [] made (by simp)
    exact there
  obtain ⟨saved, first, node⟩ := runActions_file (.npz sp.gptCondLatent sp.speakerEmbedding) dir
    (node_of_makeParents made latentsNpz ▸ latents)
  have still : saved.node (d.speakerDir n) = some .dir := by
    rw [node, if_neg (speakerDir_ne_append n _), dir]
  have free : saved.node (d.speakerDir n ++ [metaJson]) ≠ some .dir := by
    rw [node, if_neg (file_ne_file n (by decide)), node_of_makeParents made]
    exact info
  obtain ⟨whole, second, -⟩ := runActions_file (.json sp.fields) still free
  refine ⟨whole, ?_⟩
  have parts : saveActions (d.speakerDir n) sp.gptCondLatent sp.speakerEmbedding sp.fields =
      [.create (d.speakerDir n) latentsNpz,
        .fill (d.speakerDir n) latentsNpz (.npz sp.gptCondLatent sp.speakerEmbedding)] ++
      [.create (d.speakerDir n) metaJson, .fill (d.speakerDir n) metaJson (.json sp.fields)] := rfl
  rw [seedWrites_eq, runActions_append, made, Option.bind_some, parts, runActions_append, first,
    Option.bind_some, second]

theorem entryFile_latents_of_seed
    (ran : runActions disk ((seedWrites d n sp).take k) = some disk') :
    d.entryFile disk' n.component latentsNpz =
      if k ≤ d.depth then d.entryFile disk n.component latentsNpz
      else if k = d.depth + 1 then some .truncated
      else some (.npz sp.gptCondLatent sp.speakerEmbedding) := by
  rw [seedWrites_eq] at ran
  simpa only [length_speakerDir] using
    entryFile_latents_of_save (fun _ member => speakerFile_ne_target member) ran

theorem entryFile_meta_of_seed
    (ran : runActions disk ((seedWrites d n sp).take k) = some disk') :
    d.entryFile disk' n.component metaJson =
      if k ≤ d.depth + 2 then d.entryFile disk n.component metaJson
      else if k = d.depth + 3 then some .truncated
      else some (.json sp.fields) := by
  rw [seedWrites_eq] at ran
  simpa only [length_speakerDir] using
    entryFile_meta_of_save (fun _ member => speakerFile_ne_target member) ran

theorem entryFiles_of_seed (ran : runActions disk (seedWrites d n sp) = some disk') :
    d.entryFile disk' n.component latentsNpz =
        some (.npz sp.gptCondLatent sp.speakerEmbedding) ∧
      d.entryFile disk' n.component metaJson = some (.json sp.fields) := by
  rw [← List.take_of_length_le (Nat.le_of_eq (length_seedWrites d n sp))] at ran
  refine ⟨?_, ?_⟩
  · rw [entryFile_latents_of_seed ran, if_neg (by omega), if_neg (by omega)]
  · rw [entryFile_meta_of_seed ran, if_neg (by omega), if_neg (by omega)]

@[simp] theorem StudioSpeaker.fields_name (sp : StudioSpeaker) :
    sp.fields.get? "name" = some (slugify sp.ascii) := by
  simp [StudioSpeaker.fields, Dict.get?_set]

theorem node_others_of_seed (ran : runActions disk ((seedWrites d n sp).take k) = some disk')
    {c : Component} (other : c ≠ n.component) (file : Component) :
    disk'.node (d.root ++ [c] ++ [file]) = disk.node (d.root ++ [c] ++ [file]) := by
  refine node_of_runActions ran fun a member same => ?_
  have listed := List.mem_of_mem_take member
  rw [seedWrites_eq, List.mem_append] at listed
  have up : d.speakerDir n <+: d.root ++ [c] ++ [file] ∨ d.root ++ [c] ++ [file] <+:
      d.speakerDir n := by
    rcases listed with above | inside
    · exact .inr (same ▸ by simpa using target_of_makeParents above)
    · refine .inl (same ▸ ?_)
      simp only [saveActions, List.mem_cons, List.not_mem_nil, or_false] at inside
      rcases inside with rfl | rfl | rfl | rfl
      · exact List.prefix_append _ _
      · exact List.prefix_append _ _
      · exact List.prefix_append _ _
      · exact List.prefix_append _ _
  rcases up with inside | above
  · exact other (component_unique (inside.trans (List.prefix_refl _)) (List.prefix_append _ _)).symm
  · have shorter := above.length_le
    simp [SpeakersDir.speakerDir] at shorter

/-! ### Rounds -/

section rounds

variable {cfg : SeedConfig} {args : SeedArgs} {s t : SeedState} {e : SeedEntry}

theorem name_of_slug? {displayName : String} {n : SpeakerName}
    (h : cfg.slug? displayName = some n) :
    n.name = slugOf cfg.nfkd displayName := by
  unfold SeedConfig.slug? at h
  split_ifs at h
  obtain rfl := Option.some.inj h
  rfl

def SeedConfig.present (cfg : SeedConfig) (disk : Disk) (n : SpeakerName) : Prop :=
  (cfg.dir.entryFile disk n.component latentsNpz).isSome = true

instance (cfg : SeedConfig) (disk : Disk) (n : SpeakerName) : Decidable (cfg.present disk n) :=
  inferInstanceAs (Decidable (_ = true))

theorem present_of_written {m : SpeakerName}
    (ran : runActions disk (seedWrites cfg.dir n sp) = some disk') :
    cfg.present disk' m ↔ m = n ∨ cfg.present disk m := by
  by_cases own : m = n
  · subst own
    refine iff_of_true ?_ (.inl rfl)
    rw [SeedConfig.present, (entryFiles_of_seed ran).1]
    rfl
  · have other : m.component ≠ n.component :=
      fun same => own (eq_of_name (congrArg Component.name same))
    rw [← List.take_length (l := seedWrites cfg.dir n sp)] at ran
    rw [or_iff_right own, SeedConfig.present, SeedConfig.present,
      entryFile_of_node (node_others_of_seed ran other latentsNpz)]

/-- The ways in which a round of the loop may end. -/
inductive SeedRound (cfg : SeedConfig) (args : SeedArgs) (s : SeedState) (e : SeedEntry) :
    SeedState → Prop
  | noSlug (none : cfg.slug? e.displayName = none) :
      SeedRound cfg args s e
        { s with skipped := s.skipped + 1, lines := s.lines ++ [.noSlug e.displayName] }
  | present {n : SpeakerName} (slug : cfg.slug? e.displayName = some n)
      (there : cfg.present s.disk n) (keeps : args.force = false) :
      SeedRound cfg args s e
        { s with skipped := s.skipped + 1, lines := s.lines ++ [.alreadyExists n.name] }
  | unconverted {n : SpeakerName} {error : String} (slug : cfg.slug? e.displayName = some n)
      (goes : cfg.present s.disk n → args.force = true)
      (raises : e.tensors.convert = .error error) :
      SeedRound cfg args s e
        { s with errors := s.errors + 1, lines := s.lines ++ [.conversionFailed n.name error] }
  | planned {n : SpeakerName} {gpt emb : Ndarray} (slug : cfg.slug? e.displayName = some n)
      (goes : cfg.present s.disk n → args.force = true)
      (converts : e.tensors.convert = .ok (gpt, emb)) (dry : args.dryRun = true) :
      SeedRound cfg args s e
        { s with
          registered := s.registered + 1
          lines := s.lines ++ [.announced "dry-run" n.name gpt.shape emb.shape e.displayName] }
  | written {n : SpeakerName} {gpt emb : Ndarray} {disk : Disk}
      (slug : cfg.slug? e.displayName = some n) (goes : cfg.present s.disk n → args.force = true)
      (converts : e.tensors.convert = .ok (gpt, emb)) (real : args.dryRun = false)
      (tried : attempt s.disk (seedWrites cfg.dir n (cfg.studio e gpt emb)) e.stops =
        (disk, true)) :
      SeedRound cfg args s e
        { s with
          disk
          registered := s.registered + 1
          lines := s.lines ++ [.announced "register" n.name gpt.shape emb.shape e.displayName] }
  | failed {n : SpeakerName} {gpt emb : Ndarray} {disk : Disk}
      (slug : cfg.slug? e.displayName = some n) (goes : cfg.present s.disk n → args.force = true)
      (converts : e.tensors.convert = .ok (gpt, emb)) (real : args.dryRun = false)
      (tried : attempt s.disk (seedWrites cfg.dir n (cfg.studio e gpt emb)) e.stops =
        (disk, false)) :
      SeedRound cfg args s e
        { s with
          disk
          errors := s.errors + 1
          lines := s.lines ++ [.announced "register" n.name gpt.shape emb.shape e.displayName] ++
            [.writeFailed n.name (cfg.errorText .os)] }

theorem seedOne_round (cfg : SeedConfig) (args : SeedArgs) (s : SeedState) (e : SeedEntry) :
    SeedRound cfg args s e (s.seedOne cfg args e) := by
  unfold SeedState.seedOne
  split
  · rename_i none
    exact .noSlug none
  · rename_i n slug
    have found : (cfg.dir.file? s.disk n.name latentsNpz).isSome = true ↔ cfg.present s.disk n := by
      rw [SeedConfig.present, SpeakersDir.entryFile, ← file?_component]
      rfl
    split_ifs with skips dry
    · exact .present slug (found.mp skips.1) (Bool.eq_false_of_not_eq_true skips.2)
    · have goes : cfg.present s.disk n → args.force = true := fun there => by
        simpa [found.mpr there] using skips
      split
      · rename_i raises
        exact .unconverted slug goes raises
      · rename_i converts
        exact .planned slug goes converts dry
    · have goes : cfg.present s.disk n → args.force = true := fun there => by
        simpa [found.mpr there] using skips
      rw [Bool.not_eq_true] at dry
      split
      · rename_i raises
        exact .unconverted slug goes raises
      · rename_i converts
        dsimp only
        split
        · rename_i tried
          exact .written slug goes converts dry tried
        · rename_i tried
          exact .failed slug goes converts dry tried

theorem disk_seedOne (cfg : SeedConfig) (args : SeedArgs) (s : SeedState) (e : SeedEntry) :
    (s.seedOne cfg args e).disk = (SeedState.seedOne cfg args { disk := s.disk } e).disk := by
  unfold SeedState.seedOne
  cases cfg.slug? e.displayName with
  | none => rfl
  | some n =>
    dsimp only
    split_ifs
    · rfl
    · cases e.tensors.convert <;> rfl
    · cases e.tensors.convert with
      | error error => rfl
      | ok arrays =>
        dsimp only
        cases (attempt s.disk (seedWrites cfg.dir n (cfg.studio e arrays.1 arrays.2)) e.stops).2 <;>
          split <;> rfl

def SeedConfig.rounds (cfg : SeedConfig) (args : SeedArgs) (env : SeedEnv) (disk : Disk)
    (speakers : List (String × StudioTensors)) : SeedState :=
  speakers.foldl (fun s speaker => s.seedOne cfg args (env.entry speaker)) { disk }

theorem seedMain_eq (cfg : SeedConfig) (args : SeedArgs) (env : SeedEnv)
    (speakers : Dict String StudioTensors) (disk : Disk) :
    seedMain cfg args env speakers disk = cfg.rounds args env disk speakers.entries := by
  rw [seedMain, SeedConfig.rounds, List.foldl_map]

@[simp] theorem rounds_nil (cfg : SeedConfig) (args : SeedArgs) (env : SeedEnv) (disk : Disk) :
    cfg.rounds args env disk [] = { disk } := rfl

theorem rounds_concat (cfg : SeedConfig) (args : SeedArgs) (env : SeedEnv) (disk : Disk)
    (speakers : List (String × StudioTensors)) (speaker : String × StudioTensors) :
    cfg.rounds args env disk (speakers ++ [speaker]) =
      (cfg.rounds args env disk speakers).seedOne cfg args (env.entry speaker) := by
  simp only [SeedConfig.rounds, List.foldl_append, List.foldl_cons, List.foldl_nil]

section induction

variable {env : SeedEnv} {disk : Disk} (speakers : List (String × StudioTensors))

theorem rounds_induct {P : List (String × StudioTensors) → SeedState → Prop} (start : P [] { disk })
    (round : ∀ speakers speaker s t, P speakers s → SeedRound cfg args s (env.entry speaker) t →
      P (speakers ++ [speaker]) t) :
    P speakers (cfg.rounds args env disk speakers) := by
  induction speakers using List.reverseRecOn with
  | nil => exact start
  | append_singleton speakers speaker ih =>
    rw [rounds_concat]
    exact round _ _ _ _ ih (seedOne_round ..)

end induction

end rounds

end XttsServer.Model
