import XttsServer.Guarantees.SpeakerPaths
import XttsServer.Runs.SpeakerWrites

/-!
The speaker store against one that keeps nothing in memory: both give the same
results on the same calls, and so does a store that is started anew in between.
-/

set_option autoImplicit false
set_option relaxedAutoImplicit false

namespace XttsServer.Guarantees

open XttsServer.Model XttsServer.Foundations

variable {d : SpeakersDir} {disk disk' : Disk} {s s' : SpeakerStore}

/-! ### Calls -/

/-- A call of one of the store's methods; the entries of `preload_all` come in any order. -/
inductive StoreOp
  | register (r : Registration)
  | delete (n : SpeakerName)
  | get (n : SpeakerName)
  | existsSpeaker (n : SpeakerName)
  | listSpeakers
  | preloadAll (entries : List Component)

inductive StoreResult
  | registered (record : SpeakerRecord)
  | deleted (result : Except SpeakerError Unit)
  | got (result : Except SpeakerError SpeakerRecord)
  | existed (result : Bool)
  | listed (result : Except SpeakerError (List (Dict String String)))
  | preloaded (result : Except SpeakerError Nat)
  deriving DecidableEq

/-- A call that returns, or raises what it is documented to raise. -/
def apply (d : SpeakersDir) (s : SpeakerStore) : StoreOp → Option (SpeakerStore × StoreResult)
  | .register r => (s.register d r).map fun result => (result.1, .registered result.2)
  | .delete n => some ((s.delete d n).1, .deleted (s.delete d n).2)
  | .get n => some ((s.get d n.name).1, .got (s.get d n.name).2)
  | .existsSpeaker n => some (s, .existed (s.exists d n.name))
  | .listSpeakers => some (s, .listed (listSpeakers d s.disk))
  | .preloadAll entries =>
      if entries.Perm (s.disk.children d.root) then
        some ((s.preloadAll d entries).1, .preloaded (s.preloadAll d entries).2)
      else none

def applyAll (d : SpeakersDir) :
    SpeakerStore → List StoreOp → Option (SpeakerStore × List StoreResult)
  | s, [] => some (s, [])
  | s, op :: ops =>
      (apply d s op).bind fun (s', result) =>
        (applyAll d s' ops).map fun (t, results) => (t, result :: results)

/-- The same calls of a store that has no cache: it finds nothing in memory and leaves nothing
there. -/
def applyUncached (d : SpeakersDir) : Disk → List StoreOp → Option (Disk × List StoreResult)
  | disk, [] => some (disk, [])
  | disk, op :: ops =>
      (apply d ⟨disk, .empty⟩ op).bind fun (s', result) =>
        (applyUncached d s'.disk ops).map fun (t, results) => (t, result :: results)

/-! ### Directories -/

/-- Each entry is a complete speaker under its own name, or has none of the two files. -/
structure WellFormed (d : SpeakersDir) (disk : Disk) : Prop where
  root : disk.isDir d.root = true
  speakers : ∀ c,
    (d.entryFile disk c latentsNpz = none ∧ d.entryFile disk c metaJson = none) ∨
    ∃ gpt emb fields, d.entryFile disk c latentsNpz = some (.npz gpt emb) ∧
      d.entryFile disk c metaJson = some (.json fields) ∧ fields.get? "name" = some c.name
  noFolder : ∀ c, disk.isDir (d.root ++ [c, refWav]) = false

def Coherent (d : SpeakersDir) (s : SpeakerStore) : Prop :=
  ∀ (n : SpeakerName) record, s.cache.get? n.name = some record →
    d.loadFromDisk s.disk n.name = .ok (some record)

private theorem coherent_empty (d : SpeakersDir) (disk : Disk) : Coherent d ⟨disk, .empty⟩ :=
  fun _ _ cached => by cases cached

namespace WellFormed

private theorem loads (wf : WellFormed d disk) (c : Component) :
    ∃ found, d.loadFromDisk disk c.name = .ok found := by
  rw [loadFromDisk_component, loadFiles_ok_iff]
  rcases wf.speakers c with ⟨latents, info⟩ | ⟨gpt, emb, fields, latents, info, -⟩
  · simp [latents]
  · simp [latents, info, FileContent.arrays?, FileContent.fields?]

theorem metaReadable (wf : WellFormed d disk) (c : Component) : d.metaReadable disk c = true := by
  rw [SpeakersDir.metaReadable]
  rcases wf.speakers c with ⟨-, info⟩ | ⟨gpt, emb, fields, -, info, -⟩
  · simp [info]
  · simp [info, FileContent.fields?]

private theorem ref_plain (wf : WellFormed d disk) (n : SpeakerName) :
    disk.isDir (d.speakerDir n ++ [refWav]) = false := by
  rw [SpeakersDir.speakerDir, List.append_assoc]
  exact wf.noFolder n.component

private theorem register (wf : WellFormed d disk) {r : Registration}
    (ran : runActions disk (registerActions d disk r) = some disk') : WellFormed d disk' := by
  have plain := wf.ref_plain r.name
  rw [← take_registerActions] at ran
  refine ⟨?_, fun c => ?_, fun c => ?_⟩
  · rw [FileTree.isDir_iff, node_of_register_outside ran]
    · exact FileTree.isDir_iff.mp wf.root
    · exact not_child_above _ _
  · by_cases own : c = r.name.component
    · subst own
      have latents := entryFile_latents_of_register ran
      have info := entryFile_meta_of_register ran
      refine .inr ⟨r.gptCondLatent, r.speakerEmbedding, speakerMeta r, latents, info, ?_⟩
      rw [speakerMeta, Dict.get?_set, if_neg (by decide), Dict.get?_set, if_pos rfl]
      rfl
    · simp only [entryFile_others_of_register ran own]
      exact wf.speakers c
  · by_contra folder
    rw [Bool.not_eq_false, FileTree.isDir_iff] at folder
    by_cases own : c = r.name.component
    · subst own
      obtain ⟨content, file⟩ := Option.isSome_iff_exists.mp (entryFile_ref_of_register plain ran)
      rw [SpeakersDir.entryFile, FileTree.read_eq_some_iff, folder] at file
      cases file
    · rw [node_of_register_outside ran fun inside => own ?_] at folder
      · exact Bool.false_ne_true ((wf.noFolder c).symm.trans (FileTree.isDir_iff.mpr folder))
      · simpa [SpeakersDir.speakerDir, eq_comm] using inside

private theorem delete (wf : WellFormed d disk) (n : SpeakerName) :
    WellFormed d (disk.rmtree d.root n.component) := by
  refine ⟨?_, fun c => ?_, fun c => ?_⟩
  · rw [FileTree.isDir_iff, FileTree.node_rmtree, if_neg (not_child_above _ _)]
    exact FileTree.isDir_iff.mp wf.root
  · simp only [entryFile_rmtree]
    split_ifs
    · exact .inl ⟨rfl, rfl⟩
    · exact wf.speakers c
  · by_contra folder
    rw [Bool.not_eq_false, FileTree.isDir_iff, FileTree.node_rmtree] at folder
    split_ifs at folder
    exact Bool.false_ne_true ((wf.noFolder c).symm.trans (FileTree.isDir_iff.mpr folder))

end WellFormed

/-! ### One call -/

/-- Results are equal, but for the number of speakers that `preload_all` has newly loaded. -/
inductive SameResult : StoreResult → StoreResult → Prop
  | refl (result : StoreResult) : SameResult result result
  | preloaded (k m : Nat) : SameResult (.preloaded (.ok k)) (.preloaded (.ok m))

namespace Coherent

private theorem register (coherent : Coherent d s) (wf : WellFormed d s.disk) {r : Registration}
    (ran : runActions s.disk (registerActions d s.disk r) = some disk') :
    Coherent d ⟨disk', s.cache.set r.name.name (registeredRecord d r)⟩ := by
  intro n record cached
  rw [Dict.get?_set] at cached
  split_ifs at cached with own
  · obtain rfl := Option.some.inj cached
    rw [own]
    exact loadFromDisk_of_register (wf.ref_plain r.name) ran
  · have other : n.component ≠ r.name.component := fun same => own (congrArg Component.name same)
    rw [← take_registerActions] at ran
    have same := loadFromDisk_congr_entry fun file => entryFile_others_of_register ran other file
    exact same.trans (coherent n record cached)

private theorem delete (coherent : Coherent d s) (n : SpeakerName) :
    Coherent d ⟨s.disk.rmtree d.root n.component, s.cache.erase n.name⟩ := by
  intro n' record cached
  rw [Dict.get?_erase] at cached
  split_ifs at cached with own
  have other : n'.component ≠ n.component := fun same => own (congrArg Component.name same)
  have same : d.loadFromDisk (s.disk.rmtree d.root n.component) n'.component.name =
      d.loadFromDisk s.disk n'.component.name :=
    loadFromDisk_congr_entry fun file => (entryFile_rmtree n _ file).trans (if_neg other)
  exact same.trans (coherent n' record cached)

private theorem set (coherent : Coherent d s) {name : String} {record : SpeakerRecord}
    (loads : d.loadFromDisk s.disk name = .ok (some record)) :
    Coherent d { s with cache := s.cache.set name record } := by
  intro n record' cached
  rw [Dict.get?_set] at cached
  split_ifs at cached with own
  · rw [own, loads, Option.some.inj cached]
  · exact coherent n record' cached

end Coherent

private theorem get_uncached (coherent : Coherent d s) (n : SpeakerName) :
    (s.get d n.name).2 = (SpeakerStore.get d ⟨s.disk, .empty⟩ n.name).2 ∧
      (s.get d n.name).1.disk = s.disk ∧ Coherent d (s.get d n.name).1 := by
  cases cached : s.cache.get? n.name with
  | some record =>
    have loads := coherent n record cached
    simp [SpeakerStore.get, cached, loads, coherent]
  | none =>
    cases loads : d.loadFromDisk s.disk n.name with
    | error e => simp [SpeakerStore.get, cached, loads, coherent]
    | ok found =>
      cases found with
      | none => simp [SpeakerStore.get, cached, loads, coherent]
      | some record => simp [SpeakerStore.get, cached, loads, coherent.set loads]

private theorem exists_iff (coherent : Coherent d s) (n : SpeakerName) :
    s.exists d n.name = true ↔ (d.entryFile s.disk n.component latentsNpz).isSome = true := by
  have file := file?_component d s.disk n.component latentsNpz
  change d.file? s.disk n.name latentsNpz = _ at file
  rw [SpeakerStore.exists, file, SpeakersDir.entryFile, Bool.or_eq_true]
  refine or_iff_right_of_imp fun cached => ?_
  obtain ⟨record, cached⟩ := Option.isSome_iff_exists.mp cached
  have loads := coherent n record cached
  rw [← file]
  exact Option.isSome_iff_exists.mpr ⟨_, (latents_of_loadFiles loads).1⟩

private theorem preloadAll_ok (wf : WellFormed d s.disk) (coherent : Coherent d s)
    {entries : List Component} (all : entries.Perm (s.disk.children d.root)) :
    (s.preloadAll d entries).1.disk = s.disk ∧ Coherent d (s.preloadAll d entries).1 ∧
      (s.preloadAll d entries).2 = .ok (entries.filter (d.pending s)).length := by
  obtain ⟨cache, result, holds⟩ := preloadEntries_ok (d := d) (s := s) 0
    (all.nodup_iff.mpr (s.disk.nodup_children d.root)) fun c _ _ => wf.loads c
  rw [SpeakerStore.preloadAll, if_neg (by simp [wf.root]), result]
  refine ⟨rfl, fun n record cached => ?_, by rw [Nat.zero_add]⟩
  rcases (holds n.name record).mp cached with before | ⟨-, c, -, -, loads⟩
  · exact coherent n record before
  · exact loads

/-- One call of a store whose cache is coherent does what it does without a cache. -/
private theorem apply_uncached (wf : WellFormed d s.disk) (coherent : Coherent d s) (op : StoreOp) :
    (apply d s op = none ∧ apply d ⟨s.disk, .empty⟩ op = none) ∨
    ∃ s' r t r', apply d s op = some (s', r) ∧ apply d ⟨s.disk, .empty⟩ op = some (t, r') ∧
      s'.disk = t.disk ∧ SameResult r r' ∧ WellFormed d s'.disk ∧ Coherent d s' := by
  cases op with
  | register r =>
    cases ran : runActions s.disk (registerActions d s.disk r) with
    | none => exact .inl (by simp [apply, SpeakerStore.register, ran])
    | some disk =>
      have registers (cache : Dict String SpeakerRecord) : apply d ⟨s.disk, cache⟩ (.register r) =
          some (⟨disk, cache.set r.name.name (registeredRecord d r)⟩,
            .registered (registeredRecord d r)) := by
        simp only [apply, SpeakerStore.register, ran, Option.map_some]
      exact .inr ⟨_, _, _, _, registers s.cache, registers .empty, rfl, .refl _, wf.register ran,
        coherent.register wf ran⟩
  | delete n =>
    refine .inr ⟨_, _, _, _, rfl, rfl, ?_⟩
    rw [SpeakerStore.delete, SpeakerStore.delete]
    dsimp only
    split_ifs
    · exact ⟨rfl, .refl _, wf.delete n, coherent.delete n⟩
    · exact ⟨rfl, .refl _, wf, coherent⟩
  | get n =>
    obtain ⟨result, disk, kept⟩ := get_uncached coherent n
    obtain ⟨-, bare, -⟩ := get_uncached (coherent_empty d s.disk) n
    refine .inr ⟨_, _, _, _, rfl, rfl, disk.trans bare.symm, ?_, disk ▸ wf, kept⟩
    rw [result]
    exact .refl _
  | existsSpeaker n =>
    refine .inr ⟨_, _, _, _, rfl, rfl, rfl, ?_, wf, coherent⟩
    have same : s.exists d n.name = SpeakerStore.exists d ⟨s.disk, .empty⟩ n.name := by
      rw [Bool.eq_iff_iff, exists_iff coherent, exists_iff (coherent_empty d s.disk)]
    rw [same]
    exact .refl _
  | listSpeakers => exact .inr ⟨_, _, _, _, rfl, rfl, rfl, .refl _, wf, coherent⟩
  | preloadAll entries =>
    by_cases all : entries.Perm (s.disk.children d.root)
    · obtain ⟨disk, kept, result⟩ := preloadAll_ok wf coherent all
      obtain ⟨bare, -, counted⟩ := preloadAll_ok (s := ⟨s.disk, .empty⟩) wf
        (coherent_empty d s.disk) all
      refine .inr ⟨_, _, _, _, if_pos all, if_pos all, disk.trans bare.symm, ?_, disk ▸ wf, kept⟩
      rw [result, counted]
      exact .preloaded _ _
    · exact .inl ⟨if_neg all, if_neg all⟩

/-! ### Whole runs -/

private theorem SameResult.trans_symm {r r' r'' : StoreResult} (h : SameResult r r'')
    (g : SameResult r' r'') :
    SameResult r r' := by
  cases g with
  | refl => exact h
  | preloaded k m =>
    cases h with
    | refl => exact .preloaded m k
    | preloaded k' _ => exact .preloaded k' k

private theorem sameResults_trans_symm {l l' l'' : List StoreResult}
    (h : List.Forall₂ SameResult l l'') (g : List.Forall₂ SameResult l' l'') :
    List.Forall₂ SameResult l l' := by
  induction h generalizing l' with
  | nil =>
    cases g
    exact .nil
  | cons first _ ih =>
    cases g with
    | cons first' rest' => exact .cons (first.trans_symm first') (ih rest')

/-- As many calls return, they leave the same disk, and their results are the same. -/
def SameRun {σ τ : Type} (disk : σ → Disk) (disk' : τ → Disk)
    (run : Option (σ × List StoreResult)) (run' : Option (τ × List StoreResult)) : Prop :=
  Option.Rel (fun a b => disk a.1 = disk' b.1 ∧ List.Forall₂ SameResult a.2 b.2) run run'

private theorem SameRun.cons {σ τ : Type} {disk : σ → Disk} {disk' : τ → Disk}
    {run : Option (σ × List StoreResult)} {run' : Option (τ × List StoreResult)}
    {r r' : StoreResult} (first : SameResult r r') (later : SameRun disk disk' run run') :
    SameRun disk disk' (run.map fun x => (x.1, r :: x.2)) (run'.map fun x => (x.1, r' :: x.2)) := by
  cases later with
  | none => exact .none
  | some rest => exact .some ⟨rest.1, .cons first rest.2⟩

private theorem SameRun.trans_symm {σ τ υ : Type} {disk : σ → Disk} {disk' : τ → Disk}
    {disk'' : υ → Disk} {run : Option (σ × List StoreResult)} {run' : Option (τ × List StoreResult)}
    {bare : Option (υ × List StoreResult)} (h : SameRun disk disk'' run bare)
    (g : SameRun disk' disk'' run' bare) : SameRun disk disk' run run' := by
  cases h with
  | none =>
    cases g
    exact .none
  | some same =>
    cases g with
    | some same' =>
      exact .some ⟨same.1.trans same'.1.symm, sameResults_trans_symm same.2 same'.2⟩

private theorem applyAll_uncached (wf : WellFormed d s.disk) (coherent : Coherent d s)
    (ops : List StoreOp) :
    SameRun SpeakerStore.disk id (applyAll d s ops) (applyUncached d s.disk ops) ∧
      ∀ t results, applyAll d s ops = some (t, results) → WellFormed d t.disk ∧ Coherent d t := by
  induction ops generalizing s with
  | nil =>
    refine ⟨.some ⟨rfl, .nil⟩, fun t results same => ?_⟩
    obtain ⟨rfl, rfl⟩ := Prod.mk.inj (Option.some.inj same)
    exact ⟨wf, coherent⟩
  | cons op ops ih =>
    rw [applyAll, applyUncached]
    rcases apply_uncached wf coherent op with ⟨none, none'⟩ |
      ⟨s', r, t, r', one, other, disk, same, wf', coherent'⟩
    · rw [none, none']
      exact ⟨.none, fun t results same => by cases same⟩
    · obtain ⟨later, keeps⟩ := ih wf' coherent'
      rw [one, other, Option.bind_some, Option.bind_some]
      dsimp only
      rw [← disk]
      refine ⟨?_, fun u results ends => ?_⟩
      · exact later.cons same
      · obtain ⟨⟨u', rest⟩, ran, last⟩ := Option.map_eq_some_iff.mp ends
        obtain ⟨rfl, rfl⟩ := Prod.mk.inj last
        exact keeps _ _ ran

private theorem applyAll_of_coherent (wf : WellFormed d s.disk) (coherent : Coherent d s)
    (coherent' : Coherent d s') (disk : s'.disk = s.disk) (ops : List StoreOp) :
    SameRun SpeakerStore.disk SpeakerStore.disk (applyAll d s ops) (applyAll d s' ops) := by
  have other := (applyAll_uncached (disk.symm ▸ wf) coherent' ops).1
  rw [disk] at other
  exact (applyAll_uncached wf coherent ops).1.trans_symm other

/-! ### Three views -/

/-- The name is the `name` of an entry of `list_speakers`. -/
def Listed (d : SpeakersDir) (disk : Disk) (name : String) : Prop :=
  ∃ entries fields, listSpeakers d disk = .ok entries ∧ fields ∈ entries ∧
    fields.get? "name" = some name

private theorem get_ok_iff (coherent : Coherent d s) (wf : WellFormed d s.disk) (n : SpeakerName) :
    (∃ record, (s.get d n.name).2 = .ok record) ↔
      (d.entryFile s.disk n.component latentsNpz).isSome = true := by
  rw [(get_uncached coherent n).1]
  obtain ⟨found, loads⟩ := wf.loads n.component
  change d.loadFromDisk s.disk n.name = .ok found at loads
  have nothing : d.loadFromDisk s.disk n.name = .ok none ↔
      d.entryFile s.disk n.component latentsNpz = none :=
    (loadFromDisk_component d s.disk n.component ▸ loadFiles_ok_none_iff)
  rw [Option.isSome_iff_ne_none, Ne, ← nothing]
  cases found with
  | none => simp [SpeakerStore.get, loads]
  | some record => simp [SpeakerStore.get, loads]

private theorem listed_iff (wf : WellFormed d disk) (n : SpeakerName) :
    Listed d disk n.name ↔ (d.entryFile disk n.component latentsNpz).isSome = true := by
  obtain ⟨l, lists⟩ := listSpeakers_ok_iff.mpr wf.metaReadable
  constructor
  · rintro ⟨l', fields, same, member, name⟩
    obtain ⟨c, info⟩ := (mem_of_listSpeakers same).mp member
    rcases wf.speakers c with ⟨-, none⟩ | ⟨gpt, emb, fields', latents, info', own⟩
    · rw [none] at info
      cases info
    · obtain rfl := FileContent.json.inj (Option.some.inj (info.symm.trans info'))
      have this : c = n.component := by
        cases c
        exact Component.mk.injEq .. ▸ Option.some.inj (own.symm.trans name)
      rw [← this, latents]
      rfl
  · intro there
    rcases wf.speakers n.component with ⟨none, -⟩ | ⟨gpt, emb, fields, -, info, own⟩
    · rw [none] at there
      cases there
    · exact ⟨l, fields, lists, (mem_of_listSpeakers lists).mpr ⟨_, info⟩, own⟩

/-- On a well-formed directory the calls give what they give without a cache, and a store that is
started anew goes on as the old one would. The number that `preload_all` returns is of the speakers
that were not cached yet. The three views of a name agree. -/
theorem cache_transparent (wf : WellFormed d disk) (ops : List StoreOp) :
    SameRun SpeakerStore.disk id (applyAll d ⟨disk, .empty⟩ ops) (applyUncached d disk ops) ∧
      ∀ s results, applyAll d ⟨disk, .empty⟩ ops = some (s, results) →
        (∀ entries, entries.Perm (s.disk.children d.root) →
          (s.preloadAll d entries).2 = .ok (entries.filter (d.pending s)).length ∧
            ∀ more, SameRun SpeakerStore.disk SpeakerStore.disk (applyAll d s more)
              (applyAll d (SpeakerStore.preloadAll d ⟨s.disk, .empty⟩ entries).1 more)) ∧
          ∀ n : SpeakerName,
            (s.exists d n.name = true ↔ ∃ record, (s.get d n.name).2 = .ok record) ∧
              (s.exists d n.name = true ↔ Listed d s.disk n.name) := by
  obtain ⟨uncached, keeps⟩ := applyAll_uncached (s := ⟨disk, .empty⟩) wf (coherent_empty d disk) ops
  refine ⟨uncached, fun s results ran => ?_⟩
  obtain ⟨wf', coherent⟩ := keeps s results ran
  refine ⟨fun entries all => ⟨(preloadAll_ok wf' coherent all).2.2, fun more => ?_⟩, fun n => ?_⟩
  · obtain ⟨same, coherent', -⟩ :=
      preloadAll_ok (s := ⟨s.disk, .empty⟩) wf' (coherent_empty d s.disk) all
    exact applyAll_of_coherent wf' coherent coherent' same more
  · rw [exists_iff coherent, get_ok_iff coherent wf', listed_iff wf']
    exact ⟨.rfl, .rfl⟩

theorem aliceDisk_wellFormed : WellFormed speakersConfig.dir aliceDisk := by
  have children : aliceDisk.children speakersConfig.dir.root = [alice.component] := by
    decide +kernel
  have others (c : Component) (other : c ≠ alice.component) :
      aliceDisk.node (speakersConfig.dir.root ++ [c]) = none := by
    by_contra there
    have member := FileTree.mem_children.mpr there
    rw [children, List.mem_singleton] at member
    exact other member
  refine ⟨by decide +kernel, fun c => ?_, fun c => ?_⟩
  · by_cases own : c = alice.component
    · subst own
      exact .inr ⟨⟨[1, 1, 1], [7]⟩, ⟨[1, 1, 1], [9]⟩, Dict.empty.set "name" "alice",
        by decide +kernel, by decide +kernel, by decide +kernel⟩
    · exact .inl ⟨entryFile_of_absent (others c own) _, entryFile_of_absent (others c own) _⟩
  · by_cases own : c = alice.component
    · subst own
      decide +kernel
    · have absent :=
        FileTree.node_append_eq_none (t := aliceDisk) (by rw [others c own]; simp) refWav []
      rw [← Bool.not_eq_true, FileTree.isDir_iff]
      rw [List.append_assoc] at absent
      intro there
      cases absent.symm.trans there

def aliceCalls : List StoreOp :=
  [.preloadAll [alice.component], .listSpeakers, .get alice, .delete alice, .existsSpeaker alice]

theorem cache_transparent_alice :
    SameRun SpeakerStore.disk id (applyAll speakersConfig.dir ⟨aliceDisk, .empty⟩ aliceCalls)
        (applyUncached speakersConfig.dir aliceDisk aliceCalls) ∧
      ∀ s results, applyAll speakersConfig.dir ⟨aliceDisk, .empty⟩ aliceCalls = some (s, results) →
        (∀ entries, entries.Perm (s.disk.children speakersConfig.dir.root) →
          (s.preloadAll speakersConfig.dir entries).2 =
              .ok (entries.filter (speakersConfig.dir.pending s)).length ∧
            ∀ more, SameRun SpeakerStore.disk SpeakerStore.disk (applyAll speakersConfig.dir s more)
              (applyAll speakersConfig.dir
                (SpeakerStore.preloadAll speakersConfig.dir ⟨s.disk, .empty⟩ entries).1 more)) ∧
          ∀ n : SpeakerName,
            (s.exists speakersConfig.dir n.name = true ↔
                ∃ record, (s.get speakersConfig.dir n.name).2 = .ok record) ∧
              (s.exists speakersConfig.dir n.name = true ↔ Listed speakersConfig.dir
                s.disk n.name) :=
  cache_transparent aliceDisk_wellFormed aliceCalls

/-- What the second of two calls of `preload_all` returns tells a cache from none. -/
theorem preload_counts_differ : ¬ ∀ d disk ops, WellFormed d disk →
    (applyAll d ⟨disk, .empty⟩ ops).map Prod.snd = (applyUncached d disk ops).map Prod.snd := by
  intro all
  have same := all speakersConfig.dir aliceDisk
    [.preloadAll [alice.component], .preloadAll [alice.component]] aliceDisk_wellFormed
  revert same
  decide +kernel

end XttsServer.Guarantees
