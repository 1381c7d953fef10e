import XttsServer.Runs.SpeakerFiles

/-!
The views of the speaker store over whole directories: what the loops of
`list_speakers` and `preload_all` make of the files of each entry.
-/

set_option autoImplicit false
set_option relaxedAutoImplicit false

namespace XttsServer.Model

open XttsServer.Foundations

variable {d : SpeakersDir} {disk disk' : Disk} {c : Component} {s : SpeakerStore}

/-! ### The files of an entry -/

def FileContent.fields? : FileContent → Option (Dict String String)
  | .json fields => some fields
  | _ => none

def FileContent.arrays? : FileContent → Option (Ndarray × Ndarray)
  | .npz gpt emb => some (gpt, emb)
  | _ => none

def SpeakersDir.entryFile (d : SpeakersDir) (disk : Disk) (c file : Component) :
    Option FileContent :=
  disk.read (d.root ++ [c, file])

def SpeakersDir.metaReadable (d : SpeakersDir) (disk : Disk) (c : Component) : Bool :=
  (d.entryFile disk c metaJson).all fun content => content.fields?.isSome

def SpeakersDir.latentsReadable (d : SpeakersDir) (disk : Disk) (c : Component) : Bool :=
  (d.entryFile disk c latentsNpz).all fun content => content.arrays?.isSome

private theorem entryFile_of_not_isDir (other : ¬ disk.isDir (d.root ++ [c]) = true)
    (file : Component) :
    d.entryFile disk c file = none := by
  have absent := FileTree.node_append_eq_none (q := [])
    (fun dir => other (FileTree.isDir_iff.mpr dir)) file
  rw [List.append_assoc] at absent
  rw [SpeakersDir.entryFile, FileTree.read, show [c, file] = [c] ++ [file] from rfl, absent]

theorem isDir_of_entryFile {file : Component} {content : FileContent}
    (h : d.entryFile disk c file = some content) : disk.isDir (d.root ++ [c]) = true := by
  by_contra other
  rw [entryFile_of_not_isDir other] at h
  cases h

theorem loadFromDisk_component (d : SpeakersDir) (disk : Disk) (c : Component) :
    d.loadFromDisk disk c.name =
      loadFiles c.name (d.wavPath c.name) (d.entryFile disk c latentsNpz)
        (d.entryFile disk c refWav) (d.entryFile disk c metaJson) := by
  simp only [SpeakersDir.loadFromDisk, file?_component, SpeakersDir.entryFile]

/-! ### list_speakers -/

private theorem listEntries_cons (c : Component) (rest : List Component) :
    listEntries d disk (c :: rest) =
      match d.entryFile disk c metaJson with
      | none => listEntries d disk rest
      | some (.json fields) => (listEntries d disk rest).map (fields :: ·)
      | some _ => .error .badJson := by
  rw [listEntries]
  split_ifs with there
  · rfl
  · rw [entryFile_of_not_isDir there]

private theorem listEntries_eq (d : SpeakersDir) (disk : Disk) (entries : List Component) :
    listEntries d disk entries =
      if entries.all (d.metaReadable disk) then
        .ok (entries.filterMap fun c => (d.entryFile disk c metaJson).bind FileContent.fields?)
      else .error .badJson := by
  induction entries with
  | nil => rfl
  | cons c rest ih =>
    rw [listEntries_cons, ih]
    cases content : d.entryFile disk c metaJson with
    | none => simp [SpeakersDir.metaReadable, content]
    | some content' =>
      cases content' with
      | json fields =>
        have readable : d.metaReadable disk c = true := by
          simp [SpeakersDir.metaReadable, content, FileContent.fields?]
        simp only [List.all_cons, readable, Bool.true_and, List.filterMap_cons, content,
          Option.bind_some, FileContent.fields?]
        split_ifs <;> rfl
      | _ => simp [SpeakersDir.metaReadable, content, FileContent.fields?]

def SpeakersDir.sorted (d : SpeakersDir) (disk : Disk) : List Component :=
  (disk.children d.root).insertionSort fun a b => a.name ≤ b.name

private theorem mem_sorted : c ∈ d.sorted disk ↔ disk.node (d.root ++ [c]) ≠ none := by
  rw [SpeakersDir.sorted, List.mem_insertionSort, FileTree.mem_children]

private theorem all_sorted_iff (d : SpeakersDir) (disk : Disk) {p : Component → Bool}
    (absent : ∀ c, disk.node (d.root ++ [c]) = none → p c = true) :
    (d.sorted disk).all p = true ↔ ∀ c, p c = true := by
  rw [List.all_eq_true]
  refine ⟨fun all c => ?_, fun all c _ => all c⟩
  by_cases there : disk.node (d.root ++ [c]) = none
  · exact absent c there
  · exact all c (mem_sorted.mpr there)

theorem entryFile_of_absent (absent : disk.node (d.root ++ [c]) = none) (file : Component) :
    d.entryFile disk c file = none := by
  refine entryFile_of_not_isDir (fun dir => ?_) file
  rw [FileTree.isDir_iff, absent] at dir
  cases dir

theorem listSpeakers_eq (d : SpeakersDir) (disk : Disk) :
    listSpeakers d disk =
      if (d.sorted disk).all (d.metaReadable disk) then
        .ok ((d.sorted disk).filterMap fun c =>
          (d.entryFile disk c metaJson).bind FileContent.fields?)
      else .error .badJson := by
  rw [listSpeakers]
  by_cases there : disk.isDir d.root = true
  · rw [if_neg (not_not.mpr there)]
    exact listEntries_eq d disk _
  · have none : d.sorted disk = [] := by
      rw [List.eq_nil_iff_forall_not_mem]
      intro c member
      exact mem_sorted.mp member
        (FileTree.node_append_eq_none (fun dir => there (FileTree.isDir_iff.mpr dir)) c [])
    rw [if_pos there, none]
    rfl

theorem listSpeakers_ok_iff :
    (∃ l, listSpeakers d disk = .ok l) ↔ ∀ c, d.metaReadable disk c = true := by
  rw [listSpeakers_eq, ← all_sorted_iff d disk]
  · split_ifs with all <;> simp [all]
  · intro c absent
    rw [SpeakersDir.metaReadable, entryFile_of_absent absent]
    rfl

theorem mem_of_listSpeakers {l : List (Dict String String)} (h : listSpeakers d disk = .ok l)
    {fields : Dict String String} :
    fields ∈ l ↔ ∃ c, d.entryFile disk c metaJson = some (.json fields) := by
  rw [listSpeakers_eq] at h
  split_ifs at h
  obtain rfl := Except.ok.inj h
  rw [List.mem_filterMap]
  constructor
  · rintro ⟨c, -, found⟩
    obtain ⟨content, here, is_json⟩ := Option.bind_eq_some_iff.mp found
    cases content <;> simp [FileContent.fields?] at is_json
    exact ⟨c, is_json ▸ here⟩
  · rintro ⟨c, here⟩
    refine ⟨c, mem_sorted.mpr fun absent => ?_, by rw [here]; rfl⟩
    rw [entryFile_of_absent absent] at here
    cases here

def SpeakersDir.shown (d : SpeakersDir) (disk : Disk) : List Component :=
  (d.sorted disk).filter fun c => (d.entryFile disk c metaJson).isSome

theorem mem_shown : c ∈ d.shown disk ↔ (d.entryFile disk c metaJson).isSome = true := by
  rw [SpeakersDir.shown, List.mem_filter, mem_sorted]
  refine and_iff_right_of_imp fun there absent => ?_
  rw [entryFile_of_absent absent] at there
  cases there

theorem nodup_shown (d : SpeakersDir) (disk : Disk) : (d.shown disk).Nodup :=
  ((List.perm_insertionSort _ _).nodup_iff.mpr (disk.nodup_children d.root)).filter _

private theorem shown_congr
    (same : ∀ c, (d.entryFile disk' c metaJson).isSome = (d.entryFile disk c metaJson).isSome) :
    d.shown disk' = d.shown disk := by
  have perm : (d.shown disk').Perm (d.shown disk) :=
    (List.perm_ext_iff_of_nodup (nodup_shown d disk') (nodup_shown d disk)).mpr fun c => by
      rw [mem_shown, mem_shown, same]
  have total : Std.Total fun a b : Component => a.name ≤ b.name :=
    ⟨fun a b => le_total a.name b.name⟩
  have trans : IsTrans Component fun a b => a.name ≤ b.name := ⟨fun _ _ _ => le_trans⟩
  have sorted (disk : Disk) : (d.shown disk).Pairwise fun a b => a.name ≤ b.name :=
    (List.pairwise_insertionSort _ _).filter _
  refine List.Perm.eq_of_pairwise (fun a b _ _ le ge => ?_) (sorted disk') (sorted disk) perm
  have name := le_antisymm le ge
  cases a
  cases b
  simpa using name

private theorem filterMap_sorted (d : SpeakersDir) (disk : Disk) :
    ((d.sorted disk).filterMap fun c => (d.entryFile disk c metaJson).bind FileContent.fields?) =
      (d.shown disk).filterMap fun c => (d.entryFile disk c metaJson).bind FileContent.fields? := by
  rw [SpeakersDir.shown, List.filterMap_filter]
  refine List.filterMap_congr fun c _ => ?_
  cases d.entryFile disk c metaJson <;> rfl

theorem length_of_listSpeakers {l : List (Dict String String)} (h : listSpeakers d disk = .ok l) :
    l.length = (d.shown disk).length := by
  have readable := listSpeakers_ok_iff.mp ⟨l, h⟩
  rw [listSpeakers_eq, filterMap_sorted] at h
  split_ifs at h
  obtain rfl := Except.ok.inj h
  rw [List.length_filterMap_eq_countP, List.countP_eq_length]
  intro c member
  obtain ⟨content, here⟩ := Option.isSome_iff_exists.mp (mem_shown.mp member)
  have complete := readable c
  rw [SpeakersDir.metaReadable, here] at complete
  rw [here]
  exact complete

theorem listSpeakers_congr
    (same : ∀ c, d.entryFile disk' c metaJson = d.entryFile disk c metaJson) :
    listSpeakers d disk' = listSpeakers d disk := by
  have readable (c : Component) : d.metaReadable disk' c = d.metaReadable disk c := by
    rw [SpeakersDir.metaReadable, SpeakersDir.metaReadable, same]
  have all : (d.sorted disk').all (d.metaReadable disk') =
      (d.sorted disk).all (d.metaReadable disk) := by
    have absent (disk : Disk) (c : Component) (none : disk.node (d.root ++ [c]) = none) :
        d.metaReadable disk c = true := by
      rw [SpeakersDir.metaReadable, entryFile_of_absent none]
      rfl
    rw [Bool.eq_iff_iff, all_sorted_iff d disk' (absent disk'), all_sorted_iff d disk (absent disk)]
    simp only [readable]
  rw [listSpeakers_eq, listSpeakers_eq, all, filterMap_sorted, filterMap_sorted,
    shown_congr fun c => congrArg Option.isSome (same c)]
  simp only [same]

/-! ### preload_all -/

/-- An entry that `_load_from_disk` does not raise on: its latents are absent or complete, and with
complete latents so is its `meta.json`. -/
theorem loadFiles_ok_iff {name : String} {wavPath : Path} {latents ref info : Option FileContent} :
    (∃ found, loadFiles name wavPath latents ref info = .ok found) ↔
      latents.all (fun content => content.arrays?.isSome) ∧
        (latents.isSome → info.all fun content => content.fields?.isSome) := by
  cases latents with
  | none => simp [loadFiles]
  | some content =>
    cases content with
    | npz gpt emb =>
      cases info with
      | none => simp [loadFiles, FileContent.arrays?]
      | some content => cases content <;> simp [loadFiles, FileContent.arrays?, FileContent.fields?]
    | _ => simp [loadFiles, FileContent.arrays?]

/-- What `preload_all` still has to load. -/
def SpeakersDir.pending (d : SpeakersDir) (s : SpeakerStore) (c : Component) : Bool :=
  (s.cache.get? c.name).isNone && (d.entryFile s.disk c latentsNpz).isSome

theorem loadFiles_ok_none_iff {name : String} {wavPath : Path}
    {latents ref info : Option FileContent} :
    loadFiles name wavPath latents ref info = .ok none ↔ latents = none := by
  cases latents with
  | none => simp [loadFiles]
  | some content =>
    cases content with
    | npz gpt emb =>
      cases info with
      | none => simp [loadFiles]
      | some content => cases content <;> simp [loadFiles]
    | _ => simp [loadFiles]

private theorem preloadEntries_cons (loaded : Nat) (rest : List Component)
    (sound : s.cache.get? c.name = none → ∃ found, d.loadFromDisk s.disk c.name = .ok found) :
    (d.pending s c = true ∧ s.cache.get? c.name = none ∧
      ∃ record, d.loadFromDisk s.disk c.name = .ok (some record) ∧
        preloadEntries d s loaded (c :: rest) =
          preloadEntries d { s with cache := s.cache.set c.name record } (loaded + 1) rest) ∨
    (d.pending s c = false ∧
      (s.cache.get? c.name = none → d.loadFromDisk s.disk c.name = .ok none) ∧
        preloadEntries d s loaded (c :: rest) = preloadEntries d s loaded rest) := by
  rw [preloadEntries]
  cases cached : s.cache.get? c.name with
  | some record => simp [SpeakersDir.pending, cached]
  | none =>
    obtain ⟨found, loads⟩ := sound cached
    by_cases latents : d.entryFile s.disk c latentsNpz = none
    · have nothing : d.loadFromDisk s.disk c.name = .ok none := by
        rw [loadFromDisk_component, loadFiles_ok_none_iff, latents]
      refine .inr ⟨by simp [SpeakersDir.pending, latents], fun _ => nothing, ?_⟩
      simp only [nothing, ite_self]
    · have there : s.disk.isDir (d.root ++ [c]) = true := by
        obtain ⟨content, here⟩ := Option.ne_none_iff_exists'.mp latents
        exact isDir_of_entryFile here
      cases found with
      | none =>
        exact absurd (loadFiles_ok_none_iff.mp (loadFromDisk_component d _ c ▸ loads)) latents
      | some record =>
        refine .inl ⟨?_, rfl, record, loads, ?_⟩
        · simpa [SpeakersDir.pending, cached] using Option.isSome_iff_ne_none.mpr latents
        · rw [if_neg (by simp [there])]
          simp only [loads]

private theorem name_ne_of_nodup_cons {entry : Component} {rest : List Component}
    (distinct : (entry :: rest).Nodup) : ∀ c ∈ rest, c.name ≠ entry.name := by
  rintro c member same
  obtain rfl : c = entry := by
    cases c
    cases entry
    simpa using same
  exact (List.nodup_cons.mp distinct).1 member

/-- Where no entry makes it raise, preloading caches what each entry that is not cached has. -/
theorem preloadEntries_ok {entries : List Component} (loaded : Nat) (distinct : entries.Nodup)
    (sound : ∀ c ∈ entries, s.cache.get? c.name = none →
      ∃ found, d.loadFromDisk s.disk c.name = .ok found) :
    ∃ cache, preloadEntries d s loaded entries =
        (⟨s.disk, cache⟩, .ok (loaded + (entries.filter (d.pending s)).length)) ∧
      ∀ name record, cache.get? name = some record ↔
        s.cache.get? name = some record ∨ s.cache.get? name = none ∧
          ∃ c ∈ entries, c.name = name ∧ d.loadFromDisk s.disk name = .ok (some record) := by
  induction entries generalizing s loaded with
  | nil => exact ⟨s.cache, rfl, by simp⟩
  | cons c rest ih =>
    have others := name_ne_of_nodup_cons distinct
    rcases preloadEntries_cons loaded rest (sound c List.mem_cons_self) with
      ⟨pending, absent, record, loads, same⟩ | ⟨settled, nothing, same⟩
    · obtain ⟨cache, result, holds⟩ := ih (s := { s with cache := s.cache.set c.name record })
        (loaded + 1) (List.nodup_cons.mp distinct).2 fun c' member none => by
          rw [Dict.get?_set, if_neg (others c' member)] at none
          exact sound c' (List.mem_cons_of_mem c member) none
      refine ⟨cache, ?_, fun name r => ?_⟩
      · have kept : rest.filter (d.pending { s with cache := s.cache.set c.name record }) =
            rest.filter (d.pending s) := by
          refine List.filter_congr fun c' member => ?_
          simp only [SpeakersDir.pending, Dict.get?_set, if_neg (others c' member)]
        rw [same, result, kept, List.filter_cons, if_pos pending, List.length_cons]
        congr 2
        omega
      · rw [holds, Dict.get?_set]
        by_cases own : name = c.name
        · subst own
          simp [absent, loads]
        · simp [own, Ne.symm own]
    · obtain ⟨cache, result, holds⟩ := ih loaded (List.nodup_cons.mp distinct).2
        fun c' member => sound c' (List.mem_cons_of_mem c member)
      refine ⟨cache, ?_, fun name r => ?_⟩
      · rw [same, result, List.filter_cons, if_neg (by simp [settled])]
      · rw [holds]
        refine or_congr_right (and_congr_right fun absent => ?_)
        by_cases own : c.name = name
        · subst own
          simp [nothing absent]
        · simp [own]

theorem loads_of_preloadEntries {entries : List Component} {loaded k : Nat}
    (distinct : entries.Nodup) (h : (preloadEntries d s loaded entries).2 = .ok k) {c : Component}
    (member : c ∈ entries) (absent : s.cache.get? c.name = none) :
    ∃ found, d.loadFromDisk s.disk c.name = .ok found := by
  induction entries generalizing s loaded with
  | nil => cases member
  | cons entry rest ih =>
    have first : s.cache.get? entry.name = none →
        ∃ found, d.loadFromDisk s.disk entry.name = .ok found := by
      intro none
      cases loads : d.loadFromDisk s.disk entry.name with
      | ok found => exact ⟨found, rfl⟩
      | error e =>
        have there : s.disk.isDir (d.root ++ [entry]) = true := by
          by_contra other
          rw [loadFromDisk_component, entryFile_of_not_isDir other] at loads
          cases loads
        rw [preloadEntries, if_neg (by simp [there, none]), loads] at h
        cases h
    rcases preloadEntries_cons loaded rest first with
      ⟨-, -, record, -, same⟩ | ⟨-, -, same⟩
    · rw [same] at h
      rcases List.mem_cons.mp member with rfl | inside
      · exact first absent
      · refine ih (s := { s with cache := s.cache.set entry.name record })
          (List.nodup_cons.mp distinct).2 h inside ?_
        rw [Dict.get?_set, if_neg (name_ne_of_nodup_cons distinct c inside)]
        exact absent
    · rw [same] at h
      rcases List.mem_cons.mp member with rfl | inside
      · exact first absent
      · exact ih (List.nodup_cons.mp distinct).2 h inside absent

/-- Without SPEAKERS_DIR there are no entries, so that the loop runs in every case. -/
theorem preloadAll_eq {entries : List Component} (all : entries.Perm (s.disk.children d.root)) :
    s.preloadAll d entries = preloadEntries d s 0 entries := by
  rw [SpeakerStore.preloadAll]
  split_ifs with there
  · rfl
  · have none : s.disk.children d.root = [] := by
      rw [List.eq_nil_iff_forall_not_mem]
      intro c member
      exact FileTree.mem_children.mp member
        (FileTree.node_append_eq_none (fun dir => there (FileTree.isDir_iff.mpr dir)) c [])
    rw [none, List.perm_nil] at all
    rw [all]
    rfl

end XttsServer.Model
