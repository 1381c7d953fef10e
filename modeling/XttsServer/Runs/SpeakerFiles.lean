import XttsServer.Model.Speakers

/-!
What the file operations of the speaker store leave as it was, and what its reading
methods see of a directory that a name leads to.
-/

set_option autoImplicit false
set_option relaxedAutoImplicit false

namespace XttsServer.Model

open XttsServer.Foundations

variable {d : SpeakersDir} {disk disk' : Disk} {n : SpeakerName} {q : List Component}

/-! ### Frames -/

theorem not_child_above (p : List Component) (c : Component) : ¬ p ++ [c] <+: p := by
  intro above
  have longer := above.length_le
  simp at longer

def FileAction.target : FileAction → List Component
  | .mkdir p c => p ++ [c]
  | .create p c => p ++ [c]
  | .fill p c _ => p ++ [c]
  | .openCopy _ p c => p ++ [c]
  | .fillCopy _ p c => p ++ [c]

private theorem FileAction.node_of_run {a : FileAction} (h : a.run disk = some disk')
    (other : q ≠ a.target) : disk'.node q = disk.node q := by
  have frame {p : List Component} {c : Component} {content : FileContent}
      (written : disk.write p c content = some disk') (other : q ≠ p ++ [c]) :
      disk'.node q = disk.node q := by
    rw [(FileTree.write_eq_some written).2, if_neg other]
  cases a with
  | mkdir p c =>
    rw [(FileTree.mkdir_eq_some h).2]
    exact if_neg other
  | create p c => exact frame h other
  | fill p c content => exact frame h other
  | openCopy source p c =>
    rw [FileAction.run] at h
    split_ifs at h
    exact frame h other
  | fillCopy source p c =>
    obtain ⟨content, -, written⟩ := Option.bind_eq_some_iff.mp h
    exact frame written other

theorem node_of_runActions {actions : List FileAction} (h : runActions disk actions = some disk')
    (other : ∀ a ∈ actions, q ≠ a.target) : disk'.node q = disk.node q := by
  induction actions generalizing disk with
  | nil =>
    obtain rfl := Option.some.inj h
    rfl
  | cons a rest ih =>
    obtain ⟨mid, first, later⟩ := Option.bind_eq_some_iff.mp h
    rw [ih later fun b member => other b (List.mem_cons_of_mem _ member),
      a.node_of_run first (other a List.mem_cons_self)]

/-- What a file operation may leave at the place it changes. -/
def FileAction.Leaves : FileAction → Node FileContent → Prop
  | .mkdir _ _, x => x = .dir
  | .create _ _, x => x = .file .truncated
  | .fill _ _ content, x => x = .file content
  | .openCopy _ _ _, x => x = .file .truncated
  | .fillCopy _ _ _, x => ∃ content, x = .file content

private theorem FileAction.node_target_of_run {a : FileAction} (h : a.run disk = some disk') :
    ∃ x, disk'.node a.target = some x ∧ a.Leaves x := by
  have written {p : List Component} {c : Component} {content : FileContent}
      (h : disk.write p c content = some disk') : disk'.node (p ++ [c]) = some (.file content) := by
    rw [(FileTree.write_eq_some h).2, if_pos rfl]
  cases a with
  | mkdir p c =>
    exact ⟨.dir, by rw [FileAction.target, (FileTree.mkdir_eq_some h).2, if_pos rfl], rfl⟩
  | create p c => exact ⟨_, written h, rfl⟩
  | fill p c content => exact ⟨_, written h, rfl⟩
  | openCopy source p c =>
    rw [FileAction.run] at h
    split_ifs at h
    exact ⟨_, written h, rfl⟩
  | fillCopy source p c =>
    obtain ⟨content, -, h⟩ := Option.bind_eq_some_iff.mp h
    exact ⟨_, written h, content, rfl⟩

/-- The last operation on a place decides what is there. -/
theorem node_of_last (pre post : List FileAction) {a : FileAction}
    (h : runActions disk (pre ++ a :: post) = some disk') (last : ∀ b ∈ post, a.target ≠ b.target) :
    ∃ x, disk'.node a.target = some x ∧ a.Leaves x := by
  induction pre generalizing disk with
  | nil =>
    obtain ⟨mid, ran, later⟩ := Option.bind_eq_some_iff.mp h
    rw [node_of_runActions later last]
    exact a.node_target_of_run ran
  | cons b pre ih =>
    obtain ⟨mid, -, later⟩ := Option.bind_eq_some_iff.mp h
    exact ih later

theorem runActions_append (disk : Disk) (actions more : List FileAction) :
    runActions disk (actions ++ more) = (runActions disk actions).bind (runActions · more) := by
  induction actions generalizing disk with
  | nil => rfl
  | cons a rest ih =>
    simp only [List.cons_append, runActions, ih]
    cases a.run disk <;> rfl

theorem speakerDir_prefix_target {r : Registration} {a : FileAction}
    (member : a ∈ registerActions d disk r) : d.speakerDir r.name <+: a.target := by
  have whole : d.speakerDir r.name <+: d.root ++ [r.name.component] := List.prefix_refl _
  have inside (c : Component) : d.speakerDir r.name <+: d.speakerDir r.name ++ [c] :=
    List.prefix_append _ _
  have deeper : d.speakerDir r.name <+: d.speakerDir r.name ++ [refWav] ++ [r.sourceName] := by
    rw [List.append_assoc]
    exact List.prefix_append _ _
  rw [registerActions, copyActions, saveActions] at member
  split_ifs at member with folder
  all_goals
    simp only [List.cons_append, List.nil_append, List.mem_cons, List.not_mem_nil, or_false]
      at member
    rcases member with rfl | rfl | rfl | rfl | rfl | rfl | rfl
  · exact whole
  · exact deeper
  · exact deeper
  · exact inside _
  · exact inside _
  · exact inside _
  · exact inside _
  · exact whole
  · exact inside _
  · exact inside _
  · exact inside _
  · exact inside _
  · exact inside _
  · exact inside _

theorem node_of_removeBelow {dir : List Component} {gone : List (List Component × Component)}
    (h : removeBelow disk dir gone = some disk') (q : List Component) :
    disk'.node q = if q ∈ gone.map (fun g => dir ++ g.1 ++ [g.2]) then none else disk.node q := by
  induction gone generalizing disk with
  | nil =>
    obtain rfl := Option.some.inj h
    rfl
  | cons g rest ih =>
    obtain ⟨mid, first, later⟩ := Option.bind_eq_some_iff.mp h
    rw [ih later, FileTree.remove_eq_some first, List.map_cons]
    by_cases here : q = dir ++ g.1 ++ [g.2]
    · simp [here]
    · simp only [List.mem_cons, here, false_or, if_false]

/-! ### What is read -/

theorem resolve_component (d : SpeakersDir) (disk : Disk) (c : Component) :
    d.resolve disk c.name = if disk.isDir d.root then some (d.root ++ [c]) else none := by
  simp only [SpeakersDir.resolve, isAbsolute_component, hops_component, FileTree.walk,
    Bool.false_eq_true, if_false]

theorem file?_component (d : SpeakersDir) (disk : Disk) (c file : Component) :
    d.file? disk c.name file = disk.read (d.root ++ [c, file]) := by
  rw [SpeakersDir.file?, resolve_component]
  split_ifs with there
  · simp
  · have other : disk.node d.root ≠ some .dir := fun dir => there (FileTree.isDir_iff.mpr dir)
    have absent := FileTree.node_append_eq_none other c [file]
    rw [FileTree.read, absent]
    rfl

theorem latents_of_loadFiles {name : String} {wavPath : Path}
    {latents ref info : Option FileContent} {record : SpeakerRecord}
    (h : loadFiles name wavPath latents ref info = .ok (some record)) :
    latents = some (.npz record.gptCondLatent record.speakerEmbedding) ∧ record.name = name := by
  unfold loadFiles at h
  split at h
  · cases h
  · dsimp only at h
    generalize (if ref.isSome then wavPath else "") = wavPath at h
    split at h
    · obtain rfl := Option.some.inj (Except.ok.inj h)
      exact ⟨rfl, rfl⟩
    · obtain rfl := Option.some.inj (Except.ok.inj h)
      exact ⟨rfl, rfl⟩
    · cases h
  · cases h

theorem latents_of_loadFromDisk {name : String} {record : SpeakerRecord}
    (h : d.loadFromDisk disk name = .ok (some record)) :
    ∃ p, d.resolve disk name = some p ∧
      disk.read (p ++ [latentsNpz]) =
        some (.npz record.gptCondLatent record.speakerEmbedding) ∧ record.name = name := by
  obtain ⟨found, own⟩ := latents_of_loadFiles h
  obtain ⟨p, leads, here⟩ := Option.bind_eq_some_iff.mp found
  exact ⟨p, leads, here, own⟩

end XttsServer.Model
