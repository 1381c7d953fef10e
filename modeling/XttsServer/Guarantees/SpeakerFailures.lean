import XttsServer.Guarantees.SpeakerCrash

/-!
What a registration or a deletion that raises changes for the callers of the store:
the failures after which every view answers as before, and all others.
-/

set_option autoImplicit false
set_option relaxedAutoImplicit false

namespace XttsServer.Guarantees

open XttsServer.Model XttsServer.Foundations

variable {d : SpeakersDir} {disk disk' : Disk} {s s' : SpeakerStore} {c : Component}

/-- The three views answer in `s'` as in `s`, for every name. -/
structure SameViews (d : SpeakersDir) (s s' : SpeakerStore) : Prop where
  known : ∀ n : SpeakerName, s'.exists d n.name = s.exists d n.name
  got : ∀ n : SpeakerName, (s'.get d n.name).2 = (s.get d n.name).2
  listed : listSpeakers d s'.disk = listSpeakers d s.disk

/-! ### The answers for one speaker -/

def latents? (content : Option FileContent) : Option (Ndarray × Ndarray) :=
  content.bind FileContent.arrays?

/-- The time that a `meta.json` gives, empty without one; a damaged file gives none. -/
def createdAt? : Option FileContent → Option String
  | none => some ""
  | some content => content.fields?.map fun fields => (fields.get? "created_at").getD ""

@[simp] theorem latents?_none : latents? none = none := rfl

@[simp] theorem latents?_truncated : latents? (some .truncated) = none := rfl

@[simp] theorem latents?_npz (gpt emb : Ndarray) :
    latents? (some (.npz gpt emb)) = some (gpt, emb) := rfl

@[simp] theorem createdAt?_none : createdAt? none = some "" := rfl

@[simp] theorem createdAt?_truncated : createdAt? (some .truncated) = none := rfl

private theorem isSome_of_latents? {content : Option FileContent} {arrays : Ndarray × Ndarray}
    (h : latents? content = some arrays) : content.isSome = true := by
  cases content with
  | none => cases h
  | some content => rfl

private theorem createdAt?_eq_none_iff :
    createdAt? (d.entryFile disk c metaJson) = none ↔ d.metaReadable disk c = false := by
  rw [SpeakersDir.metaReadable]
  cases d.entryFile disk c metaJson <;> simp [createdAt?]

section answers

variable {name : String} {wavPath : Path}
  {latents ref info latents' ref' info' : Option FileContent}

private theorem loadFiles_eq (name : String) (wavPath : Path)
    (latents ref info : Option FileContent) :
    loadFiles name wavPath latents ref info =
      if latents = none then .ok none
      else
        match latents? latents, createdAt? info with
        | none, _ => .error .badNpz
        | some _, none => .error .badJson
        | some (gpt, emb), some createdAt =>
            .ok (some ⟨name, if ref.isSome then wavPath else "", gpt, emb, createdAt⟩) := by
  cases latents with
  | none => rfl
  | some content =>
    cases content with
    | npz gpt emb =>
      cases info with
      | none => rfl
      | some content => cases content <;> rfl
    | _ => cases info <;> rfl

private theorem loadFiles_eq_record_iff {record : SpeakerRecord} :
    loadFiles name wavPath latents ref info = .ok (some record) ↔
      latents? latents = some (record.gptCondLatent, record.speakerEmbedding) ∧
        createdAt? info = some record.createdAt ∧ record.name = name ∧
          record.wavPath = if ref.isSome then wavPath else "" := by
  rw [loadFiles_eq]
  by_cases absent : latents = none
  · simp [absent, latents?]
  · rw [if_neg absent]
    cases arrays : latents? latents with
    | none => simp
    | some pair =>
      cases time : createdAt? info with
      | none => simp
      | some createdAt =>
        obtain ⟨gpt, emb⟩ := pair
        cases record
        simp only [Except.ok.injEq, Option.some.injEq, SpeakerRecord.mk.injEq, Prod.mk.injEq]
        tauto

/-- What two sets of files must have in common for the speaker to look the same: the latents, and
unless these or the metadata are damaged, everything that a record is made of. -/
private theorem loadFiles_eq_iff (proper : wavPath ≠ "") :
    loadFiles name wavPath latents' ref' info' = loadFiles name wavPath latents ref info ↔
      (latents' = none ↔ latents = none) ∧ (latents? latents' = none ↔ latents? latents = none) ∧
        (latents? latents ≠ none → createdAt? info' = createdAt? info ∧
          (createdAt? info ≠ none →
            latents? latents' = latents? latents ∧ ref'.isSome = ref.isSome)) := by
  have path (x y : Bool) : (if x then wavPath else "") = (if y then wavPath else "") ↔ x = y := by
    cases x <;> cases y <;> simp [proper, Ne.symm proper]
  have nothing {files : Option FileContent} (absent : files = none) : latents? files = none := by
    rw [absent]
    rfl
  rw [loadFiles_eq, loadFiles_eq]
  by_cases absent : latents = none
  · have damaged := nothing absent
    by_cases absent' : latents' = none
    · simp [absent, absent', latents?]
    · rw [if_neg absent', if_pos absent]
      refine iff_of_false (fun same => ?_) fun same => absent' (same.1.mpr absent)
      split at same <;> simp at same
  · by_cases absent' : latents' = none
    · rw [if_pos absent', if_neg absent]
      refine iff_of_false (fun same => ?_) fun same => absent (same.1.mp absent')
      split at same <;> simp at same
    · rw [if_neg absent, if_neg absent']
      cases arrays : latents? latents <;> cases arrays' : latents? latents' <;>
        cases time : createdAt? info <;> cases time' : createdAt? info' <;>
        simp [absent, absent', path]
      -- both files are complete before and after
      rw [Prod.ext_iff]
      tauto

private theorem loadFiles_ne_notFound :
    loadFiles name wavPath latents ref info ≠ .error (.notFound name) := by
  rw [loadFiles_eq]
  by_cases absent : latents = none
  · simp [absent]
  · rw [if_neg absent]
    cases latents? latents <;> cases createdAt? info <;> simp

end answers

/-! ### What the views depend on -/

private theorem listSpeakers_error_iff :
    listSpeakers d disk = .error .badJson ↔ ∃ c, d.metaReadable disk c = false := by
  constructor
  · intro failed
    by_contra all
    push Not at all
    obtain ⟨l, lists⟩ := listSpeakers_ok_iff.mpr fun c => by simpa using all c
    rw [failed] at lists
    cases lists
  · rintro ⟨c, damaged⟩
    have not_ok : ¬ ∃ l, listSpeakers d disk = .ok l := by
      rw [listSpeakers_ok_iff]
      exact fun all => Bool.false_ne_true (damaged.symm.trans (all c))
    rw [listSpeakers_eq] at not_ok ⊢
    split_ifs at not_ok ⊢
    · exact absurd ⟨_, rfl⟩ not_ok
    · rfl

private theorem wavPath_ne_empty (d : SpeakersDir) (name : String) : d.wavPath name ≠ "" := by
  intro empty
  have chars := congrArg String.toList empty
  rw [SpeakersDir.wavPath, osPathJoin] at chars
  split_ifs at chars <;> simp at chars

private theorem get_congr {name : String} (cached : s'.cache.get? name = s.cache.get? name)
    (loads : d.loadFromDisk s'.disk name = d.loadFromDisk s.disk name) :
    (s'.get d name).2 = (s.get d name).2 := by
  rw [SpeakerStore.get, SpeakerStore.get, cached, loads]
  split
  · rfl
  · split <;> rfl

private theorem got_eq_iff {n : SpeakerName} (absent : s.cache.get? n.name = none)
    (absent' : s'.cache.get? n.name = none) :
    (s'.get d n.name).2 = (s.get d n.name).2 ↔
      d.loadFromDisk s'.disk n.name = d.loadFromDisk s.disk n.name := by
  refine ⟨fun same => ?_, get_congr (absent'.trans absent.symm)⟩
  rw [SpeakerStore.get, SpeakerStore.get, absent, absent'] at same
  have other : d.loadFromDisk s.disk n.name ≠ .error (.notFound n.name) := loadFiles_ne_notFound
  have other' : d.loadFromDisk s'.disk n.name ≠ .error (.notFound n.name) := loadFiles_ne_notFound
  revert same other other'
  rcases d.loadFromDisk s.disk n.name with e | _ | record <;>
    rcases d.loadFromDisk s'.disk n.name with e' | _ | record' <;> simp_all

private theorem got_record_iff {name : String} {record : SpeakerRecord}
    (absent : s.cache.get? name = none) :
    (s.get d name).2 = .ok record ↔ d.loadFromDisk s.disk name = .ok (some record) := by
  rw [SpeakerStore.get, absent]
  rcases d.loadFromDisk s.disk name with e | _ | found <;> simp

private theorem sameViews_iff (d : SpeakersDir) (s s' : SpeakerStore) {n : SpeakerName}
    (files : ∀ c, c ≠ n.component → ∀ file, d.entryFile s'.disk c file = d.entryFile s.disk c file)
    (cache : ∀ name, name ≠ n.name → s'.cache.get? name = s.cache.get? name) :
    SameViews d s s' ↔ (s'.exists d n.name = s.exists d n.name ∧
      (s'.get d n.name).2 = (s.get d n.name).2) ∧ listSpeakers d s'.disk =
        listSpeakers d s.disk := by
  refine ⟨fun same => ⟨⟨same.known n, same.got n⟩, same.listed⟩, fun ⟨⟨known, got⟩, listed⟩ => ?_⟩
  have other {m : SpeakerName} (apart : m.name ≠ n.name) : m.component ≠ n.component :=
    fun same => apart (congrArg Component.name same)
  refine ⟨fun m => ?_, fun m => ?_, listed⟩
  · by_cases own : m.name = n.name
    · rw [own]
      exact known
    · have latents := files m.component (other own) latentsNpz
      rw [SpeakersDir.entryFile, SpeakersDir.entryFile, ← file?_component,
        ← file?_component] at latents
      rw [SpeakerStore.exists, SpeakerStore.exists, cache _ own,
        show m.name = m.component.name from rfl, latents]
  · by_cases own : m.name = n.name
    · rw [own]
      exact got
    · have loads : d.loadFromDisk s'.disk m.name = d.loadFromDisk s.disk m.name :=
        loadFromDisk_congr_entry (c := m.component) (files m.component (other own))
      exact get_congr (cache _ own) loads

private theorem sameAnswers_iff (d : SpeakersDir) (s s' : SpeakerStore) {n : SpeakerName}
    (absent : s.cache.get? n.name = none) (absent' : s'.cache.get? n.name = none) :
    (s'.exists d n.name = s.exists d n.name ∧ (s'.get d n.name).2 = (s.get d n.name).2) ↔
      d.loadFromDisk s'.disk n.name = d.loadFromDisk s.disk n.name := by
  rw [got_eq_iff absent absent', and_iff_right_of_imp fun same => ?_]
  have files := (loadFiles_eq_iff (wavPath_ne_empty d n.name)).mp same
  rw [SpeakerStore.exists, SpeakerStore.exists, absent, absent', Option.isSome_none, Bool.false_or,
    Bool.false_or, Bool.eq_iff_iff, Option.isSome_iff_ne_none, Option.isSome_iff_ne_none]
  exact not_congr files.1

/-! ### register -/

/-- What is under `ref.wav` in the speaker's directory, a file or a directory. -/
def refThere (d : SpeakersDir) (disk : Disk) (n : SpeakerName) : Prop :=
  disk.node (d.speakerDir n ++ [refWav]) ≠ none

/-- What a registration has written after `done` of its file operations makes no difference to the
files of a speaker that is not cached. -/
def registerUnseen (d : SpeakersDir) (disk : Disk) (r : Registration) (done : Nat) : Prop :=
  let latents := d.entryFile disk r.name.component latentsNpz
  let damaged := d.metaReadable disk r.name.component = false
  match done with
  | 0 | 1 => True
  | 2 | 3 => latents? latents = none ∨ damaged ∨ refThere d disk r.name
  | 4 => latents ≠ none ∧ latents? latents = none
  | 5 => latents? latents ≠ none ∧
      (damaged ∨ latents? latents = some (r.gptCondLatent, r.speakerEmbedding) ∧
        refThere d disk r.name)
  | _ => latents? latents ≠ none ∧ damaged

/-- A registration that raises after `done` of its file operations shows in no view: not in that of
the speaker, and not in the list, which a metadata file that is opened already breaks. -/
def registerHarmless (d : SpeakersDir) (s : SpeakerStore) (r : Registration) (done : Nat) : Prop :=
  (s.cache.get? r.name.name = none → registerUnseen d s.disk r done) ∧
    (done = 6 → ∃ c, d.metaReadable s.disk c = false)

section register

variable {r : Registration} {done : Nat}

/-- The copy makes the audio appear unless something is there: a file is overwritten, and a
directory receives it. -/
private theorem ref_of_register
    (h : runActions disk ((registerActions d disk r).take done) = some disk') :
    (d.entryFile disk' r.name.component refWav).isSome =
        (d.entryFile disk r.name.component refWav).isSome ↔
      done < 2 ∨ refThere d disk r.name := by
  have file (disk : Disk) : (d.entryFile disk r.name.component refWav).isSome = true →
      disk.node (d.speakerDir r.name ++ [refWav]) ≠ none := by
    intro there
    obtain ⟨content, here⟩ := Option.isSome_iff_exists.mp there
    rw [SpeakersDir.speakerDir, entryFile_eq_some_iff.mp here]
    simp
  by_cases plain : disk.isDir (d.speakerDir r.name ++ [refWav]) = false
  · have written := entryFile_ref_of_register plain h
    split_ifs at written with early
    · exact iff_of_true (congrArg Option.isSome written) (.inl early)
    · rw [written, eq_comm, or_iff_right early]
      refine ⟨file disk, fun there => ?_⟩
      obtain ⟨x, here⟩ := Option.ne_none_iff_exists'.mp there
      cases x with
      | dir => exact absurd (plain.symm.trans (FileTree.isDir_iff.mpr here)) Bool.false_ne_true
      | file content => exact Option.isSome_iff_exists.mpr ⟨content, entryFile_eq_some_iff.mpr here⟩
  · have folder := FileTree.isDir_iff.mp (Bool.not_eq_false _ ▸ plain)
    obtain ⟨a, b, list, ta, tb, -, -⟩ := registerActions_eq d disk r
    rw [copyTarget, if_pos (FileTree.isDir_iff.mpr folder)] at ta tb
    refine iff_of_true (congrArg Option.isSome (entryFile_of_node
      (node_of_runActions h fun x member => ?_))) (.inr (by rw [refThere, folder]; simp))
    have listed := List.mem_of_mem_take member
    rw [list] at listed
    simp only [saveActions, List.cons_append, List.nil_append, List.mem_cons, List.not_mem_nil,
      or_false] at listed
    have below : d.speakerDir r.name ++ [refWav] ≠ d.speakerDir r.name ++ [refWav] ++
        [r.sourceName] := by
      simp
    rcases listed with rfl | rfl | rfl | rfl | rfl | rfl | rfl
    · exact (speakerDir_ne_append r.name refWav).symm
    · exact ta ▸ below
    · exact tb ▸ below
    · exact file_ne_file r.name (by decide)
    · exact file_ne_file r.name (by decide)
    · exact file_ne_file r.name (by decide)
    · exact file_ne_file r.name (by decide)

private theorem registerActions_length (d : SpeakersDir) (disk : Disk) (r : Registration) :
    (registerActions d disk r).length = 7 := by
  obtain ⟨a, b, list, -⟩ := registerActions_eq d disk r
  rw [list]
  rfl

/-- What the failed registration has done to the list: the metadata is touched last. -/
private theorem list_after_register_iff (short : done < 7)
    (h : runActions disk ((registerActions d disk r).take done) = some disk') :
    listSpeakers d disk' = listSpeakers d disk ↔
      (done = 6 → ∃ c, d.metaReadable disk c = false) := by
  have own := entryFile_meta_of_register h
  by_cases opened : done = 6
  · subst opened
    simp only [show ¬ 6 ≤ 5 from by omega, if_false, if_true] at own
    have broken : listSpeakers d disk' = .error .badJson := by
      rw [listSpeakers_error_iff]
      exact ⟨r.name.component, by rw [SpeakersDir.metaReadable, own]; rfl⟩
    rw [broken, eq_comm, listSpeakers_error_iff]
    exact (imp_iff_right rfl).symm
  · refine iff_of_true (listSpeakers_congr fun c => ?_) fun now => absurd now opened
    by_cases own' : c = r.name.component
    · rw [own', own, if_pos (by omega)]
    · exact entryFile_others_of_register h own' metaJson

private theorem load_after_register_iff (short : done < 7)
    (h : runActions disk ((registerActions d disk r).take done) = some disk') :
    d.loadFromDisk disk' r.name.name = d.loadFromDisk disk r.name.name ↔
      registerUnseen d disk r done := by
  have load (disk : Disk) := loadFromDisk_component d disk r.name.component
  have name : r.name.component.name = r.name.name := rfl
  rw [← name, load, load, loadFiles_eq_iff (wavPath_ne_empty d _), ref_of_register h,
    entryFile_latents_of_register h, entryFile_meta_of_register h]
  unfold registerUnseen
  simp only [← createdAt?_eq_none_iff]
  clear h
  obtain rfl | rfl | rfl | rfl | rfl | rfl | rfl :
      done = 0 ∨ done = 1 ∨ done = 2 ∨ done = 3 ∨ done = 4 ∨ done = 5 ∨ done = 6 := by omega
  all_goals simp
  all_goals grind [latents?_none]

private theorem sameViews_of_registerRaises_iff (h : s.registerRaises d r done = some s') :
    SameViews d s s' ↔ registerHarmless d s r done := by
  rw [SpeakerStore.registerRaises, registerActions_length] at h
  split_ifs at h with short
  obtain ⟨disk', ran, rfl⟩ := Option.map_eq_some_iff.mp h
  rw [sameViews_iff d s ⟨disk', s.cache⟩ (fun c other => entryFile_others_of_register ran other)
      fun _ _ => rfl,
    registerHarmless, list_after_register_iff short ran]
  refine and_congr_left' ?_
  cases cached : s.cache.get? r.name.name with
  | none =>
    rw [sameAnswers_iff d s ⟨disk', s.cache⟩ cached cached, load_after_register_iff short ran,
      imp_iff_right rfl]
  | some record => simp [SpeakerStore.exists, SpeakerStore.get, cached]

end register

/-! ### delete -/

abbrev Removed (gone : List (List Component × Component)) (file : Component) :
    Prop := ([], file) ∈ gone

/-- What is left of the speaker's files gives the record that `get` answered with before: the one
that was cached, or else the one that all files gave. -/
def deleteUnseen (d : SpeakersDir) (s : SpeakerStore) (n : SpeakerName)
    (gone : List (List Component × Component)) : Prop :=
  let latents := d.entryFile s.disk n.component latentsNpz
  let ref := d.entryFile s.disk n.component refWav
  let info := d.entryFile s.disk n.component metaJson
  match s.cache.get? n.name with
  | none => latents ≠ none → ¬ Removed gone latentsNpz ∧
      (latents? latents ≠ none → (Removed gone metaJson → createdAt? info = some "") ∧
        (createdAt? info ≠ none → Removed gone refWav → ref = none))
  | some record => ¬ Removed gone latentsNpz ∧
      latents? latents = some (record.gptCondLatent, record.speakerEmbedding) ∧
      (if Removed gone metaJson then some "" else createdAt? info) = some record.createdAt ∧
      record.name = n.name ∧
      record.wavPath = if ref.isSome ∧ ¬ Removed gone refWav then d.wavPath n.name else ""

/-- A deletion that raises with some files gone shows in no view: not in that of the speaker, and
not in the list, which has one entry less unless there was none or it fails anyway. -/
def deleteHarmless (d : SpeakersDir) (s : SpeakerStore) (n : SpeakerName)
    (gone : List (List Component × Component)) : Prop :=
  deleteUnseen d s n gone ∧
    (Removed gone metaJson → d.entryFile s.disk n.component metaJson ≠ none →
      ∃ c, c ≠ n.component ∧ d.metaReadable s.disk c = false)

section delete

variable {n : SpeakerName} {gone : List (List Component × Component)}

private theorem entryFile_of_removeBelow (h : removeBelow disk (d.speakerDir n) gone = some disk')
    (file : Component) :
    d.entryFile disk' n.component file =
      if Removed gone file then none else d.entryFile disk n.component file := by
  have place : d.root ++ [n.component, file] ∈ gone.map (fun g => d.speakerDir n ++ g.1 ++ [g.2]) ↔
      Removed gone file := by
    rw [List.mem_map]
    constructor
    · rintro ⟨⟨p, c⟩, member, same⟩
      have tail : p ++ [c] = [file] := by simpa [SpeakersDir.speakerDir] using same
      obtain ⟨rfl, last⟩ := List.append_inj' (tail.trans (List.nil_append [file]).symm) rfl
      obtain rfl : c = file := by simpa using last
      exact member
    · exact fun member => ⟨_, member, by simp [SpeakersDir.speakerDir]⟩
  rw [SpeakersDir.entryFile, FileTree.read, node_of_removeBelow h]
  by_cases removed : Removed gone file
  · rw [if_pos (place.mpr removed), if_pos removed]
  · rw [if_neg fun there => removed (place.mp there), if_neg removed]
    rfl

private theorem entryFile_others_of_removeBelow
    (h : removeBelow disk (d.speakerDir n) gone = some disk') {c : Component}
    (other : c ≠ n.component) (file : Component) :
    d.entryFile disk' c file = d.entryFile disk c file := by
  refine entryFile_of_node ?_
  rw [node_of_removeBelow h, if_neg]
  intro member
  obtain ⟨g, -, same⟩ := List.mem_map.mp member
  refine other ?_
  have first : n.component = c := by
    rw [SpeakersDir.speakerDir] at same
    simp only [List.append_assoc, List.append_cancel_left_eq, List.cons_append,
      List.nil_append, List.cons.injEq] at same
    exact same.1
  exact first.symm

private theorem list_after_delete_iff (h : removeBelow disk (d.speakerDir n) gone = some disk') :
    listSpeakers d disk' = listSpeakers d disk ↔
      (Removed gone metaJson → d.entryFile disk n.component metaJson ≠ none →
        ∃ c, c ≠ n.component ∧ d.metaReadable disk c = false) := by
  have own := entryFile_of_removeBelow h metaJson
  have others {c : Component} (other : c ≠ n.component) : d.metaReadable disk' c =
      d.metaReadable disk c := by
    rw [SpeakersDir.metaReadable, SpeakersDir.metaReadable, entryFile_others_of_removeBelow h other]
  by_cases touched : Removed gone metaJson ∧ d.entryFile disk n.component metaJson ≠ none
  · obtain ⟨removed, there⟩ := touched
    rw [if_pos removed] at own
    rw [imp_iff_right removed, imp_iff_right there]
    constructor
    · intro same
      by_contra readable
      push Not at readable
      have readable' (c : Component) : d.metaReadable disk' c = true := by
        by_cases other : c = n.component
        · rw [SpeakersDir.metaReadable, other, own]
          rfl
        · rw [others other]
          simpa using readable c other
      obtain ⟨l, lists'⟩ := listSpeakers_ok_iff.mpr readable'
      have count := length_of_listSpeakers lists'
      rw [length_of_listSpeakers (same.symm.trans lists')] at count
      -- the list has lost the entry of the speaker
      have fewer : (n.component :: d.shown disk') ⊆ d.shown disk := by
        intro c member
        rw [mem_shown]
        rcases List.mem_cons.mp member with rfl | shown
        · exact Option.isSome_iff_ne_none.mpr there
        · rw [mem_shown] at shown
          by_cases other : c = n.component
          · rw [other, own] at shown
            cases shown
          · rwa [entryFile_others_of_removeBelow h other] at shown
      have distinct : (n.component :: d.shown disk').Nodup := by
        refine List.nodup_cons.mpr ⟨fun shown => ?_, nodup_shown d disk'⟩
        rw [mem_shown, own] at shown
        cases shown
      have longer := (List.subperm_of_subset distinct fewer).length_le
      rw [List.length_cons] at longer
      omega
    · rintro ⟨c, other, damaged⟩
      rw [listSpeakers_error_iff.mpr ⟨c, damaged⟩, listSpeakers_error_iff]
      exact ⟨c, (others other).trans damaged⟩
  · refine iff_of_true (listSpeakers_congr fun c => ?_) fun removed there =>
      absurd ⟨removed, there⟩ touched
    by_cases own' : c = n.component
    · rw [own', own]
      split_ifs with removed
      · by_contra there
        exact touched ⟨removed, Ne.symm there⟩
      · rfl
    · exact entryFile_others_of_removeBelow h own' metaJson

private theorem answers_after_delete_iff
    (h : removeBelow s.disk (d.speakerDir n) gone = some disk') :
    (SpeakerStore.exists d ⟨disk', s.cache.erase n.name⟩ n.name = s.exists d n.name ∧
        (SpeakerStore.get d ⟨disk', s.cache.erase n.name⟩ n.name).2 = (s.get d n.name).2) ↔
      deleteUnseen d s n gone := by
  have latents := entryFile_of_removeBelow h latentsNpz
  have ref := entryFile_of_removeBelow h refWav
  have info := entryFile_of_removeBelow h metaJson
  have evicted : (s.cache.erase n.name).get? n.name = none := by rw [Dict.get?_erase, if_pos rfl]
  have load (disk : Disk) := loadFromDisk_component d disk n.component
  have name : n.component.name = n.name := rfl
  rw [deleteUnseen]
  cases cached : s.cache.get? n.name with
  | none =>
    rw [sameAnswers_iff d s ⟨disk', s.cache.erase n.name⟩ cached evicted]
    dsimp only
    rw [← name, load, load, loadFiles_eq_iff (wavPath_ne_empty d _), latents, ref, info]
    -- removed or not, each of the three files is the one that was there or none
    clear latents ref info
    generalize d.entryFile s.disk n.component refWav = ref
    by_cases goneLatents : Removed gone latentsNpz <;> by_cases goneRef : Removed gone refWav <;>
      by_cases goneInfo : Removed gone metaJson <;> cases ref <;>
      simp only [goneLatents, goneRef, goneInfo, if_true, if_false, latents?_none, createdAt?_none,
        Option.isSome_none, Option.isSome_some] <;>
      grind [latents?_none]
  | some record =>
    dsimp only
    have file : d.file? disk' n.name latentsNpz = d.entryFile disk' n.component latentsNpz :=
      file?_component d disk' n.component latentsNpz
    have answers : SpeakerStore.exists d s n.name = true ∧ (s.get d n.name).2 = .ok record := by
      simp [SpeakerStore.exists, SpeakerStore.get, cached]
    rw [answers.1, answers.2, got_record_iff evicted, ← name, load, loadFiles_eq_record_iff,
      latents, ref, info]
    have known : SpeakerStore.exists d ⟨disk', s.cache.erase n.name⟩ n.name =
        (d.entryFile disk' n.component latentsNpz).isSome := by
      rw [SpeakerStore.exists, evicted, file]
      rfl
    rw [name, known, latents, and_iff_right_of_imp fun whole => isSome_of_latents? whole.1,
      apply_ite createdAt?, createdAt?_none]
    by_cases goneLatents : Removed gone latentsNpz <;> by_cases goneRef : Removed gone refWav <;>
      simp [goneLatents, goneRef]

private theorem sameViews_of_deleteRaises_iff (h : s.deleteRaises d n gone = some s') :
    SameViews d s s' ↔ deleteHarmless d s n gone := by
  rw [SpeakerStore.deleteRaises] at h
  split_ifs at h
  obtain ⟨disk', removed, rfl⟩ := Option.map_eq_some_iff.mp h
  rw [sameViews_iff d s ⟨disk', s.cache.erase n.name⟩
      (fun c other => entryFile_others_of_removeBelow removed other)
      fun name other => by rw [Dict.get?_erase, if_neg other],
    answers_after_delete_iff removed, list_after_delete_iff removed, deleteHarmless]

end delete

/-! ### Both -/

/-- A call of the store that raises leaves every view as it was exactly when what it did before
makes no difference. -/
theorem failure_unseen_iff (d : SpeakersDir) (s : SpeakerStore) :
    (∀ r done s', s.registerRaises d r done = some s' →
      (SameViews d s s' ↔ registerHarmless d s r done)) ∧
    ∀ n gone s', s.deleteRaises d n gone = some s' →
      (SameViews d s s' ↔ deleteHarmless d s n gone) :=
  ⟨fun _ _ _ => sameViews_of_registerRaises_iff, fun _ _ _ => sameViews_of_deleteRaises_iff⟩

/-- The disk with the upload of the new speaker, and nothing cached. -/
def uploadedStore : SpeakerStore :=
  ⟨(runActions aliceDisk (uploadActions speakersConfig.dir [1, 2, 3]
    bobRegistration.sourceName)).getD aliceDisk, .empty⟩

private theorem savez_raises :
    (uploadedStore.registerRaises speakersConfig.dir bobRegistration 4).isSome = true := by
  decide +kernel

private theorem rmtree_raises :
    (uploadedStore.deleteRaises speakersConfig.dir alice [([], latentsNpz)]).isSome = true := by
  decide +kernel

theorem failure_unseen_iff_uploaded :
    (SameViews speakersConfig.dir uploadedStore ((uploadedStore.registerRaises speakersConfig.dir
        bobRegistration 4).get savez_raises) ↔
      registerHarmless speakersConfig.dir uploadedStore bobRegistration 4) ∧
    (SameViews speakersConfig.dir uploadedStore ((uploadedStore.deleteRaises
      speakersConfig.dir alice
        [([], latentsNpz)]).get rmtree_raises) ↔
      deleteHarmless speakersConfig.dir uploadedStore alice [([], latentsNpz)]) :=
  ⟨(failure_unseen_iff speakersConfig.dir uploadedStore).1 _ _ _
    (Option.some_get savez_raises).symm, (failure_unseen_iff speakersConfig.dir uploadedStore).2 _ _
      _ (Option.some_get rmtree_raises).symm⟩

private theorem savez_shows :
    ((uploadedStore.registerRaises speakersConfig.dir bobRegistration 4).get savez_raises).exists
        speakersConfig.dir bobRegistration.name.name ≠
      uploadedStore.exists speakersConfig.dir bobRegistration.name.name := by
  decide +kernel

/-- `np.savez` of a new speaker raises: the name is taken from then on. -/
theorem failure_seen : ¬ ∀ d (s : SpeakerStore),
    (∀ r done s', s.registerRaises d r done = some s' → SameViews d s s') ∧
      ∀ n gone s', s.deleteRaises d n gone = some s' → SameViews d s s' := by
  intro all
  have same := (all speakersConfig.dir uploadedStore).1 bobRegistration 4 _
    (Option.some_get savez_raises).symm
  exact savez_shows (same.known bobRegistration.name)

end XttsServer.Guarantees
