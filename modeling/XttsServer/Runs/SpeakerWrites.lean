import XttsServer.Runs.SpeakerViews

/-!
What a registration has written when some of its file operations are done, and what
a deletion that raises has left: the files of the speaker, and those of the others.
-/

set_option autoImplicit false
set_option relaxedAutoImplicit false

namespace XttsServer.Model

open XttsServer.Foundations

variable {d : SpeakersDir} {disk disk' : Disk} {r : Registration} {k : Nat}

/-! ### register -/

theorem entryFile_of_node {c file : Component}
    (same : disk'.node (d.root ++ [c] ++ [file]) = disk.node (d.root ++ [c] ++ [file])) :
    d.entryFile disk' c file = d.entryFile disk c file := by
  rw [List.append_assoc] at same
  exact (FileTree.node_congr same).2

theorem entryFile_eq_some_iff {c file : Component} {content : FileContent} :
    d.entryFile disk c file = some content ↔
      disk.node (d.root ++ [c] ++ [file]) = some (.file content) := by
  rw [SpeakersDir.entryFile, FileTree.read_eq_some_iff, List.append_assoc]
  rfl

/-- Where the copy of the reference audio goes: to `ref.wav`, or into a directory of this name. -/
def copyTarget (d : SpeakersDir) (disk : Disk) (r : Registration) : List Component :=
  if disk.isDir (d.speakerDir r.name ++ [refWav]) then
    d.speakerDir r.name ++ [refWav] ++ [r.sourceName]
  else d.speakerDir r.name ++ [refWav]

/-- What a registration does before it saves: the directory is made and the audio copied. -/
theorem registerActions_eq (d : SpeakersDir) (disk : Disk) (r : Registration) :
    ∃ a b, registerActions d disk r =
        [.mkdir d.root r.name.component, a, b] ++
          saveActions (d.speakerDir r.name) r.gptCondLatent r.speakerEmbedding (speakerMeta r) ∧
      a.target = copyTarget d disk r ∧ b.target = copyTarget d disk r ∧
        (∀ x, a.Leaves x → ∃ content, x = .file content) ∧
        ∀ x, b.Leaves x → ∃ content, x = .file content := by
  rw [registerActions, copyActions, copyTarget]
  cases disk.isDir (d.speakerDir r.name ++ [refWav])
  all_goals exact ⟨_, _, rfl, rfl, rfl, fun x left => ⟨_, left⟩, fun x left => left⟩

theorem copyTarget_ne {file : Component} (other : file ≠ refWav) :
    copyTarget d disk r ≠ d.speakerDir r.name ++ [file] := by
  rw [copyTarget]
  split_ifs
  · simp
  · simpa using Ne.symm other

theorem speakerDir_ne_append (n : SpeakerName) (file : Component) :
    d.speakerDir n ≠ d.speakerDir n ++ [file] := by simp

theorem file_ne_file (n : SpeakerName) {file file' : Component} (other : file ≠ file') :
    d.speakerDir n ++ [file] ≠ d.speakerDir n ++ [file'] := by simpa using other

/-! ### Saving -/

section save

variable {pre : List FileAction} {n : SpeakerName} {gpt emb : Ndarray} {fields : Dict String String}

/-- The two files are first opened and then filled; the latents come first. -/
theorem entryFile_latents_of_save (before : ∀ a ∈ pre, d.speakerDir n ++ [latentsNpz] ≠ a.target)
    (h : runActions disk ((pre ++ saveActions (d.speakerDir n) gpt emb fields).take k) =
      some disk') :
    d.entryFile disk' n.component latentsNpz =
      if k ≤ pre.length then d.entryFile disk n.component latentsNpz
      else if k = pre.length + 1 then some .truncated
      else some (.npz gpt emb) := by
  rw [List.take_append] at h
  split_ifs with early now
  · rw [show k - pre.length = 0 from by omega, List.take_zero, List.append_nil] at h
    exact entryFile_of_node
      (node_of_runActions h fun a member => before a (List.mem_of_mem_take member))
  · rw [List.take_of_length_le (by omega), show k - pre.length = 1 from by omega] at h
    obtain ⟨x, there, rfl⟩ := node_of_last pre [] h (by simp)
    exact entryFile_eq_some_iff.mpr there
  · obtain ⟨j, rfl⟩ : ∃ j, k = pre.length + (j + 2) := ⟨k - pre.length - 2, by omega⟩
    rw [List.take_of_length_le (by omega), Nat.add_sub_cancel_left] at h
    rw [saveActions, List.take_succ_cons, List.take_succ_cons, List.append_cons] at h
    obtain ⟨x, there, rfl⟩ := node_of_last _ _ h fun a member => by
      have later := List.mem_of_mem_take member
      simp only [List.mem_cons, List.not_mem_nil, or_false] at later
      rcases later with rfl | rfl
      · exact file_ne_file n (by decide)
      · exact file_ne_file n (by decide)
    exact entryFile_eq_some_iff.mpr there

theorem entryFile_meta_of_save (before : ∀ a ∈ pre, d.speakerDir n ++ [metaJson] ≠ a.target)
    (h : runActions disk ((pre ++ saveActions (d.speakerDir n) gpt emb fields).take k) =
      some disk') :
    d.entryFile disk' n.component metaJson =
      if k ≤ pre.length + 2 then d.entryFile disk n.component metaJson
      else if k = pre.length + 3 then some .truncated
      else some (.json fields) := by
  rw [List.take_append] at h
  split_ifs with early now
  · refine entryFile_of_node (node_of_runActions h fun a member => ?_)
    rcases List.mem_append.mp member with first | second
    · exact before a (List.mem_of_mem_take first)
    · have latents := List.take_subset_take_left _ (show k - pre.length ≤ 2 by omega) second
      simp only [saveActions, List.take_succ_cons, List.take_zero, List.mem_cons,
        List.not_mem_nil, or_false] at latents
      rcases latents with rfl | rfl
      · exact file_ne_file n (by decide)
      · exact file_ne_file n (by decide)
  · rw [List.take_of_length_le (by omega), show k - pre.length = 3 from by omega, saveActions,
      List.take_succ_cons, List.take_succ_cons, List.take_succ_cons, List.take_zero,
      List.append_cons, List.append_cons] at h
    obtain ⟨x, there, rfl⟩ := node_of_last _ [] h (by simp)
    exact entryFile_eq_some_iff.mpr there
  · obtain ⟨j, rfl⟩ : ∃ j, k = pre.length + (j + 4) := ⟨k - pre.length - 4, by omega⟩
    rw [List.take_of_length_le (by omega), Nat.add_sub_cancel_left, saveActions,
      List.take_succ_cons, List.take_succ_cons, List.take_succ_cons, List.take_succ_cons,
      List.take_nil, List.append_cons, List.append_cons, List.append_cons] at h
    obtain ⟨x, there, rfl⟩ := node_of_last _ [] h (by simp)
    exact entryFile_eq_some_iff.mpr there

end save

/-! ### Registering -/

theorem entryFile_latents_of_register
    (h : runActions disk ((registerActions d disk r).take k) = some disk') :
    d.entryFile disk' r.name.component latentsNpz =
      if k ≤ 3 then d.entryFile disk r.name.component latentsNpz
      else if k = 4 then some .truncated
      else some (.npz r.gptCondLatent r.speakerEmbedding) := by
  obtain ⟨a, b, list, ta, tb, -, -⟩ := registerActions_eq d disk r
  rw [list] at h
  have apart : copyTarget d disk r ≠ d.speakerDir r.name ++ [latentsNpz] :=
    copyTarget_ne (by decide)
  refine entryFile_latents_of_save (fun x member => ?_) h
  simp only [List.mem_cons, List.not_mem_nil, or_false] at member
  rcases member with rfl | rfl | rfl
  · exact (speakerDir_ne_append r.name latentsNpz).symm
  · exact fun same => apart (ta ▸ same.symm)
  · exact fun same => apart (tb ▸ same.symm)

theorem entryFile_meta_of_register
    (h : runActions disk ((registerActions d disk r).take k) = some disk') :
    d.entryFile disk' r.name.component metaJson =
      if k ≤ 5 then d.entryFile disk r.name.component metaJson
      else if k = 6 then some .truncated
      else some (.json (speakerMeta r)) := by
  obtain ⟨a, b, list, ta, tb, -, -⟩ := registerActions_eq d disk r
  rw [list] at h
  have apart : copyTarget d disk r ≠ d.speakerDir r.name ++ [metaJson] := copyTarget_ne (by decide)
  refine entryFile_meta_of_save (fun x member => ?_) h
  simp only [List.mem_cons, List.not_mem_nil, or_false] at member
  rcases member with rfl | rfl | rfl
  · exact (speakerDir_ne_append r.name metaJson).symm
  · exact fun same => apart (ta ▸ same.symm)
  · exact fun same => apart (tb ▸ same.symm)

/-- Where `ref.wav` is no directory, it is a file once it has been opened. -/
theorem entryFile_ref_of_register (plain : disk.isDir (d.speakerDir r.name ++ [refWav]) = false)
    (h : runActions disk ((registerActions d disk r).take k) = some disk') :
    if k < 2 then d.entryFile disk' r.name.component refWav =
      d.entryFile disk r.name.component refWav
    else (d.entryFile disk' r.name.component refWav).isSome = true := by
  obtain ⟨a, b, list, ta, tb, leaves_a, leaves_b⟩ := registerActions_eq d disk r
  rw [list] at h
  rw [copyTarget, plain, if_neg Bool.false_ne_true] at ta tb
  split_ifs with early
  · refine entryFile_of_node (node_of_runActions h fun x member => ?_)
    have first := List.take_subset_take_left _ (show k ≤ 1 by omega) member
    simp only [List.cons_append, List.take_succ_cons, List.take_zero, List.mem_cons,
      List.not_mem_nil, or_false] at first
    subst first
    exact (speakerDir_ne_append r.name refWav).symm
  · obtain ⟨content, there⟩ : ∃ content, disk'.node (d.speakerDir r.name ++ [refWav]) =
        some (.file content) := by
      by_cases now : k = 2
      · subst now
        obtain ⟨x, there, left⟩ := node_of_last [_] [] h (by simp)
        obtain ⟨content, rfl⟩ := leaves_a x left
        exact ⟨content, ta ▸ there⟩
      · obtain ⟨j, rfl⟩ : ∃ j, k = j + 3 := ⟨k - 3, by omega⟩
        obtain ⟨x, there, left⟩ := node_of_last [_, _] (List.take j [_, _, _, _]) h
          fun x member => by
          have later := List.mem_of_mem_take member
          simp only [List.mem_cons, List.not_mem_nil, or_false] at later
          rw [tb]
          rcases later with rfl | rfl | rfl | rfl
          · exact file_ne_file r.name (by decide)
          · exact file_ne_file r.name (by decide)
          · exact file_ne_file r.name (by decide)
          · exact file_ne_file r.name (by decide)
        obtain ⟨content, rfl⟩ := leaves_b x left
        exact ⟨content, tb ▸ there⟩
    rw [Option.isSome_iff_exists]
    exact ⟨content, entryFile_eq_some_iff.mpr there⟩

theorem node_of_register_outside
    (h : runActions disk ((registerActions d disk r).take k) = some disk') {q : List Component}
    (outside : ¬ d.speakerDir r.name <+: q) : disk'.node q = disk.node q := by
  refine node_of_runActions h fun a member same => outside ?_
  rw [same]
  exact speakerDir_prefix_target (List.mem_of_mem_take member)

theorem entryFile_others_of_register
    (h : runActions disk ((registerActions d disk r).take k) = some disk') {c : Component}
    (other : c ≠ r.name.component) (file : Component) :
    d.entryFile disk' c file = d.entryFile disk c file := by
  refine entryFile_of_node (node_of_register_outside h fun inside => other ?_)
  have same : r.name.component = c := by simpa [SpeakersDir.speakerDir] using inside
  exact same.symm

theorem take_registerActions (d : SpeakersDir) (disk : Disk) (r : Registration) :
    (registerActions d disk r).take 7 = registerActions d disk r := by
  obtain ⟨a, b, list, -⟩ := registerActions_eq d disk r
  rw [list]
  rfl

theorem loadFromDisk_congr_entry {c : Component}
    (same : ∀ file, d.entryFile disk' c file = d.entryFile disk c file) :
    d.loadFromDisk disk' c.name = d.loadFromDisk disk c.name := by
  simp only [loadFromDisk_component, same]

/-- What has been registered is loaded from disk as it was registered. -/
theorem loadFromDisk_of_register (plain : disk.isDir (d.speakerDir r.name ++ [refWav]) = false)
    (h : runActions disk (registerActions d disk r) = some disk') :
    d.loadFromDisk disk' r.name.name = .ok (some (registeredRecord d r)) := by
  rw [← take_registerActions] at h
  have latents := entryFile_latents_of_register h
  have info := entryFile_meta_of_register h
  have ref := entryFile_ref_of_register plain h
  simp only [show ¬ 7 ≤ 3 from by omega, show ¬ 7 = 4 from by omega, if_false] at latents
  simp only [show ¬ 7 ≤ 5 from by omega, show ¬ 7 = 6 from by omega, if_false] at info
  simp only [show ¬ 7 < 2 from by omega, if_false] at ref
  have load := loadFromDisk_component d disk' r.name.component
  rw [latents, info] at load
  refine load.trans ?_
  have createdAt : (speakerMeta r).get? "created_at" = some r.createdAt := by
    rw [speakerMeta, Dict.get?_set, if_pos rfl]
  simp only [loadFiles, ref, if_true, createdAt, Option.getD_some]
  rfl

/-! ### delete -/

theorem entryFile_rmtree (n : SpeakerName) (c file : Component) :
    d.entryFile (disk.rmtree d.root n.component) c file =
      if c = n.component then none else d.entryFile disk c file := by
  have below : d.root ++ [n.component] <+: d.root ++ [c, file] ↔ c = n.component := by
    rw [List.prefix_append_right_inj]
    simp [List.prefix_cons_iff, eq_comm]
  rw [SpeakersDir.entryFile, FileTree.read, FileTree.node_rmtree]
  split_ifs with inside own own
  · rfl
  · exact absurd (below.mp inside) own
  · exact absurd (below.mpr own) inside
  · rfl

end XttsServer.Model
