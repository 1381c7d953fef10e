import XttsServer.Model.SpeakerServer
import XttsServer.Runs.SpeakerFiles

/-!
What a step of the speaker endpoints does to the disk, the cache and the clone
requests, as a sequence of changes of a few kinds.
-/

set_option autoImplicit false
set_option relaxedAutoImplicit false

namespace XttsServer.Model

open XttsServer.Foundations XttsServer.Foundations.Transition

variable {cfg : SpeakerConfig} {s s' : SpeakerState} {e : SpeakerEvent} {o : List SpeakerObs}
  {name : String}

/-! ### Directories -/

theorem component_unique {root q : List Component} {c c' : Component} (h : root ++ [c] <+: q)
    (h' : root ++ [c'] <+: q) : c = c' := by
  have same := (List.prefix_of_prefix_length_le h h' (by simp)).eq_of_length (by simp)
  simpa using same

theorem name_unique {n n' : SpeakerName} {q : List Component}
    (h : cfg.dir.speakerDir n <+: q) (h' : cfg.dir.speakerDir n' <+: q) : n.name = n'.name :=
  congrArg Component.name (component_unique h h')

theorem eq_of_name {n n' : SpeakerName} (same : n'.name = n.name) : n' = n := by
  cases n
  cases n'
  simpa using same

theorem component_of_name {n n' : SpeakerName} (same : n'.name = n.name) :
    n'.component = n.component := congrArg SpeakerName.component (eq_of_name same)

theorem component_ne_tmpDir (n : SpeakerName) : n.component ≠ tmpDir := by
  intro same
  have matched := n.matches
  have name : n.name = ".tmp" := congrArg Component.name same
  rw [name] at matched
  revert matched
  decide +kernel

/-! ### Parts of the handlers -/

private theorem name_of_checkedName {n : SpeakerName} (h : checkedName name = .ok n) :
    n.name = name := by
  unfold checkedName at h
  split at h
  · obtain rfl := Except.ok.inj h
    rfl
  · cases h

private theorem checkedName_name (n : SpeakerName) : checkedName n.name = .ok n := by
  unfold checkedName
  split
  · rfl
  · rename_i e wrong
    rw [n.valid] at wrong
    cases wrong

theorem SpeakerState.get_of_cached {record : SpeakerRecord}
    (cached : s.store.cache.get? name = some record) :
    s.get cfg name = ((s, [.got name record (s.origin name)]), .ok record) := by
  simp [SpeakerState.get, SpeakerStore.get, cached]

theorem SpeakerState.get_of_loaded {record : SpeakerRecord} {p : List Component}
    (absent : s.store.cache.get? name = none) (leads : cfg.dir.resolve s.store.disk name = some p)
    (found : cfg.dir.loadFromDisk s.store.disk name = .ok (some record)) :
    s.get cfg name =
      (({ s with
          store := { s.store with cache := s.store.cache.set name record }
          origin := Function.update s.origin name p },
        [.built (osPathJoin cfg.dir.path name), .got name record p]), .ok record) := by
  simp [SpeakerState.get, SpeakerStore.get, absent, leads, found]

theorem SpeakerState.get_cases (cfg : SpeakerConfig) (s : SpeakerState) (name : String) :
    (∃ record, s.store.cache.get? name = some record ∧
      s.get cfg name = ((s, [.got name record (s.origin name)]), .ok record)) ∨
    (∃ record p, s.store.cache.get? name = none ∧ cfg.dir.resolve s.store.disk name = some p ∧
      cfg.dir.loadFromDisk s.store.disk name = .ok (some record) ∧
      s.get cfg name =
        (({ s with
            store := { s.store with cache := s.store.cache.set name record }
            origin := Function.update s.origin name p },
          [.built (osPathJoin cfg.dir.path name), .got name record p]), .ok record)) ∨
    (∃ e, s.store.cache.get? name = none ∧
      s.get cfg name = ((s, [.built (osPathJoin cfg.dir.path name)]), .error e)) := by
  cases cached : s.store.cache.get? name with
  | some record => exact .inl ⟨record, rfl, SpeakerState.get_of_cached cached⟩
  | none =>
    refine .inr ?_
    cases found : cfg.dir.loadFromDisk s.store.disk name with
    | error e => exact .inr ⟨e, rfl, by simp [SpeakerState.get, SpeakerStore.get, cached, found]⟩
    | ok loaded =>
      cases loaded with
      | none =>
        exact .inr ⟨.notFound name, rfl, by
          simp [SpeakerState.get, SpeakerStore.get, cached, found]⟩
      | some record =>
        obtain ⟨p, leads, -⟩ := latents_of_loadFromDisk found
        exact .inl ⟨record, p, rfl, leads, rfl, SpeakerState.get_of_loaded cached leads found⟩

theorem SpeakerState.getSpeaker_eq (cfg : SpeakerConfig) (s : SpeakerState) (n : SpeakerName) :
    s.getSpeaker cfg n.name = ((s.get cfg n.name).1.1, (s.get cfg n.name).1.2 ++
      [.answered (match (s.get cfg n.name).2 with
        | .ok record => .ok (.info record.name record.createdAt)
        | .error e => .error (speakerExc cfg n.name e))]) := by
  rw [SpeakerState.getSpeaker, checkedName_name]
  dsimp only
  generalize s.get cfg n.name = got
  obtain ⟨⟨s', o⟩, result⟩ := got
  cases result <;> rfl

theorem SpeakerState.resolve_name (cfg : SpeakerConfig) (s : SpeakerState) (name : String) :
    ∃ answer, s.resolve cfg (.name name) =
      ((s.get cfg name).1.1, (s.get cfg name).1.2 ++ [.answered answer]) := ⟨_, rfl⟩

/-- A deletion finds no directory, or it drops the record and removes all below the directory or
some of it. -/
inductive Deletes (cfg : SpeakerConfig) (s : SpeakerState) (name : String) :
    SpeakerState → List SpeakerObs → Prop
  | refused (e : Exc) : Deletes cfg s name s [.answered (.error e)]
  | absent {n : SpeakerName} (e : Exc) :
      Deletes cfg s name s [.built (osPathJoin cfg.dir.path n.name), .answered (.error e)]
  | deleted {n : SpeakerName} (own : n.name = name) (answer : SpeakerAnswer)
      (there : s.store.disk.isDir (cfg.dir.speakerDir n) = true) :
      Deletes cfg s name
        { s with store := ⟨s.store.disk.rmtree cfg.dir.root n.component,
          s.store.cache.erase n.name⟩ }
        [.built (osPathJoin cfg.dir.path n.name), .deleted (cfg.dir.speakerDir n),
          .answered (.ok answer)]
  | raised {n : SpeakerName} (own : n.name = name) (e : Exc) {disk : Disk}
      {gone : List (List Component × Component)}
      (there : s.store.disk.isDir (cfg.dir.speakerDir n) = true)
      (removed : removeBelow s.store.disk (cfg.dir.speakerDir n) gone = some disk) :
      Deletes cfg s name { s with store := ⟨disk, s.store.cache.erase n.name⟩ }
        [.built (osPathJoin cfg.dir.path n.name), .answered (.error e)]

theorem SpeakerState.deleteSpeaker_cases {gone : Option (List (List Component × Component))}
    (h : s.deleteSpeaker cfg name gone = some (s', o)) : Deletes cfg s name s' o := by
  unfold SpeakerState.deleteSpeaker at h
  split at h
  · obtain ⟨rfl, rfl⟩ := Prod.mk.inj (Option.some.inj h)
    exact .refused _
  · rename_i n checked
    have own := name_of_checkedName checked
    cases gone with
    | none =>
      rw [SpeakerStore.delete] at h
      dsimp only at h
      split_ifs at h with there
      · obtain ⟨rfl, rfl⟩ := Prod.mk.inj (Option.some.inj h)
        exact .deleted own _ there
      · obtain ⟨rfl, rfl⟩ := Prod.mk.inj (Option.some.inj h)
        exact .absent _
    | some gone =>
      obtain ⟨store, raised, same⟩ := Option.map_eq_some_iff.mp h
      obtain ⟨rfl, rfl⟩ := Prod.mk.inj same
      rw [SpeakerStore.deleteRaises] at raised
      split_ifs at raised with there
      obtain ⟨disk, removed, rfl⟩ := Option.map_eq_some_iff.mp raised
      exact .raised own _ there removed

theorem SpeakerState.deleteSpeaker_of_isDir {n : SpeakerName}
    (there : s.store.disk.isDir (cfg.dir.speakerDir n) = true) :
    s.deleteSpeaker cfg n.name none =
      some ({ s with
          store := ⟨s.store.disk.rmtree cfg.dir.root n.component, s.store.cache.erase n.name⟩ },
        [.built (osPathJoin cfg.dir.path n.name), .deleted (cfg.dir.speakerDir n),
          .answered (.ok (.deleted s!"Speaker '{n.name}' deleted."))]) := by
  simp only [SpeakerState.deleteSpeaker, checkedName_name, SpeakerStore.delete, there, if_true]

/-- The upload is refused, or its temporary file gets written, in part or whole. -/
inductive Uploads (cfg : SpeakerConfig) (s : SpeakerState) (i : Nat) (audio : List UInt8)
    (tmp : Component) : SpeakerState → List SpeakerObs → Prop
  | refused (e : Exc) :
      Uploads cfg s i audio tmp { s with clones := s.clones.eraseIdx i } [.answered (.error e)]
  | failed {disk disk' : Disk} (e : Exc)
      (fresh : s.store.disk.node (cfg.dir.root ++ [tmpDir] ++ [tmp]) = none)
      (made : s.store.disk.mkdir cfg.dir.root tmpDir = some disk)
      (written : disk.write (cfg.dir.root ++ [tmpDir]) tmp .truncated = some disk') :
      Uploads cfg s i audio tmp
        { s with clones := s.clones.eraseIdx i, store := { s.store with disk := disk' } }
        [.answered (.error e)]
  | stored {n : SpeakerName} {disk disk' : Disk}
      (waiting : s.clones[i]? = some (.uploading n))
      (fresh : s.store.disk.node (cfg.dir.root ++ [tmpDir] ++ [tmp]) = none)
      (made : s.store.disk.mkdir cfg.dir.root tmpDir = some disk)
      (written : disk.write (cfg.dir.root ++ [tmpDir]) tmp (.audio audio) = some disk') :
      Uploads cfg s i audio tmp
        { s with clones := s.clones.set i (.computing n tmp), store :=
          { s.store with disk := disk' } }
        []

theorem SpeakerState.cloneUpload_cases {i : Nat} {audio : List UInt8} {tmp : Component}
    {fails : Bool} (h : s.cloneUpload cfg i audio tmp fails = some (s', o)) :
    Uploads cfg s i audio tmp s' o := by
  unfold SpeakerState.cloneUpload at h
  split at h
  · rename_i n waiting
    cases made : s.store.disk.mkdir cfg.dir.root tmpDir with
    | none =>
      simp only [made] at h
      split_ifs at h
      all_goals
        obtain ⟨rfl, rfl⟩ := Prod.mk.inj (Option.some.inj h)
        exact .refused _
    | some disk =>
      simp only [made] at h
      split_ifs at h with empty large taken broken
      · obtain ⟨rfl, rfl⟩ := Prod.mk.inj (Option.some.inj h)
        exact .refused _
      · obtain ⟨rfl, rfl⟩ := Prod.mk.inj (Option.some.inj h)
        exact .refused _
      · obtain ⟨disk', written, same⟩ := Option.map_eq_some_iff.mp h
        obtain ⟨rfl, rfl⟩ := Prod.mk.inj same
        exact .failed _ (not_not.mp taken) made written
      · obtain ⟨disk', written, same⟩ := Option.map_eq_some_iff.mp h
        obtain ⟨rfl, rfl⟩ := Prod.mk.inj same
        exact .stored waiting (not_not.mp taken) made written
  · cases h

/-- How a clone request ends once it has its latents, or an error in their place. -/
inductive CloneEnds (cfg : SpeakerConfig) (s : SpeakerState) (i : Nat) (result : LatentsResult)
    (createdAt : String) : SpeakerState → List SpeakerObs → Prop
  | failed (e : Exc) :
      CloneEnds cfg s i result createdAt { s with clones := s.clones.eraseIdx i }
        [.answered (.error e)]
  | taken {n : SpeakerName} (e : Exc) :
      CloneEnds cfg s i result createdAt { s with clones := s.clones.eraseIdx i }
        ((s.exists cfg n).1 ++ [.answered (.error e)])
  | raised {n : SpeakerName} {tmp : Component} {gpt emb : Ndarray} {done : Nat} {disk : Disk}
      (waiting : s.clones[i]? = some (.computing n tmp)) (e : Exc)
      (free : s.store.exists cfg.dir n.name = false)
      (ran : runActions s.store.disk ((registerActions cfg.dir s.store.disk
        (cloneRegistration cfg n tmp gpt emb createdAt)).take done) = some disk) :
      CloneEnds cfg s i result createdAt
        { s with clones := s.clones.eraseIdx i, store := { s.store with disk } }
        ((s.exists cfg n).1 ++ [.built (osPathJoin cfg.dir.path n.name),
          .writing (cfg.dir.speakerDir n), .answered (.error e)])
  | registered {n : SpeakerName} {tmp : Component} {gpt emb : Ndarray} {disk : Disk}
      (text : String) (waiting : s.clones[i]? = some (.computing n tmp))
      (free : s.store.exists cfg.dir n.name = false)
      (well : result.error.filter (· ≠ "") = none) (first : result.gptCondLatent = some gpt)
      (second : result.speakerEmbedding = some emb)
      (ran : runActions s.store.disk (registerActions cfg.dir s.store.disk
        (cloneRegistration cfg n tmp gpt emb createdAt)) = some disk) :
      CloneEnds cfg s i result createdAt
        { s with
          clones := s.clones.eraseIdx i
          store := (SpeakerStore.mk disk (s.store.cache.set n.name
            (registeredRecord cfg.dir (cloneRegistration cfg n tmp gpt emb createdAt)))).removeTmp
              cfg tmp
          origin := Function.update s.origin n.name (cfg.dir.speakerDir n) }
        ((s.exists cfg n).1 ++ [.built (osPathJoin cfg.dir.path n.name),
          .writing (cfg.dir.speakerDir n), .answered (.ok (.created n.name createdAt text))])

theorem SpeakerState.cloneLatents_cases {i : Nat} {result : LatentsResult} {createdAt : String}
    {stops : Option Nat} (h : s.cloneLatents cfg i result createdAt stops = some (s', o)) :
    CloneEnds cfg s i result createdAt s' o := by
  unfold SpeakerState.cloneLatents at h
  split at h
  · rename_i n tmp waiting
    dsimp only at h
    split at h
    · rename_i gpt emb well first second
      split_ifs at h with free
      · obtain ⟨rfl, rfl⟩ := Prod.mk.inj (Option.some.inj h)
        exact .taken _
      · rw [Bool.not_eq_true] at free
        cases stops with
        | none =>
          obtain ⟨⟨store, record⟩, registers, same⟩ := Option.map_eq_some_iff.mp h
          obtain ⟨rfl, rfl⟩ := Prod.mk.inj same
          obtain ⟨disk, ran, same⟩ := Option.map_eq_some_iff.mp registers
          obtain ⟨rfl, rfl⟩ := Prod.mk.inj same
          exact .registered _ waiting free well first second ran
        | some done =>
          obtain ⟨store, raised, same⟩ := Option.map_eq_some_iff.mp h
          obtain ⟨rfl, rfl⟩ := Prod.mk.inj same
          rw [SpeakerStore.registerRaises] at raised
          split_ifs at raised
          obtain ⟨disk, ran, rfl⟩ := Option.map_eq_some_iff.mp raised
          exact .raised waiting _ free ran
    · obtain ⟨rfl, rfl⟩ := Prod.mk.inj (Option.some.inj h)
      exact .failed _
    · obtain ⟨rfl, rfl⟩ := Prod.mk.inj (Option.some.inj h)
      exact .failed _
  · cases h

/-! ### Changes -/

/-- The names that a step looks up or checks for, and the store it does so in. -/
def SpeakerEvent.looksUp (s : SpeakerStore) : SpeakerEvent → SpeakerStore → String → Prop
  | .resolve (.name n), store, name => store = s ∧ name = n
  | _, _, name => ∃ c : Component, c.name = name

inductive SpeakerChange (cfg : SpeakerConfig) (names : SpeakerStore → String → Prop) :
    SpeakerState → SpeakerState → List SpeakerObs → Prop
  | tasks {s : SpeakerState} (clones : List CloneTask) :
      SpeakerChange cfg names s { s with clones } []
  | answered {s : SpeakerState} (answer : Except Exc SpeakerAnswer) :
      SpeakerChange cfg names s s [.answered answer]
  | built {s : SpeakerState} {name : String} (allowed : names s.store name) :
      SpeakerChange cfg names s s [.built (osPathJoin cfg.dir.path name)]
  | got {s : SpeakerState} {name : String} {record : SpeakerRecord}
      (cached : s.store.cache.get? name = some record) :
      SpeakerChange cfg names s s [.got name record (s.origin name)]
  | loaded {s : SpeakerState} {name : String} {record : SpeakerRecord} {p : List Component}
      (allowed : names s.store name) (absent : s.store.cache.get? name = none)
      (leads : cfg.dir.resolve s.store.disk name = some p)
      (found : cfg.dir.loadFromDisk s.store.disk name = .ok (some record)) :
      SpeakerChange cfg names s
        { s with
          store := { s.store with cache := s.store.cache.set name record }
          origin := Function.update s.origin name p } []
  | deleted {s : SpeakerState} {n : SpeakerName}
      (there : s.store.disk.isDir (cfg.dir.speakerDir n) = true) :
      SpeakerChange cfg names s
        { s with store := ⟨s.store.disk.rmtree cfg.dir.root n.component,
          s.store.cache.erase n.name⟩ }
        [.deleted (cfg.dir.speakerDir n)]
  /-- A deletion that raises. -/
  | removed {s : SpeakerState} {n : SpeakerName} {disk : Disk}
      (less : ∀ q, disk.node q = s.store.disk.node q ∨ disk.node q = none) :
      SpeakerChange cfg names s { s with store := ⟨disk, s.store.cache.erase n.name⟩ } []
  /-- A temporary file is written or removed. -/
  | tmp {s : SpeakerState} {disk : Disk}
      (frame : ∀ q, ¬ (cfg.dir.root ++ [tmpDir]) <+: q → disk.node q = s.store.disk.node q) :
      SpeakerChange cfg names s { s with store := { s.store with disk } } []
  /-- A registration that raises. -/
  | written {s : SpeakerState} {n : SpeakerName} {disk : Disk}
      (frame : ∀ q, ¬ cfg.dir.speakerDir n <+: q → disk.node q = s.store.disk.node q) :
      SpeakerChange cfg names s { s with store := { s.store with disk } }
        [.writing (cfg.dir.speakerDir n)]
  | registered {s : SpeakerState} {n : SpeakerName} {disk : Disk}
      (frame : ∀ q, ¬ cfg.dir.speakerDir n <+: q → disk.node q = s.store.disk.node q)
      {record : SpeakerRecord} (own : record.name = n.name) :
      SpeakerChange cfg names s
        { s with
          store := ⟨disk, s.store.cache.set n.name record⟩
          origin := Function.update s.origin n.name (cfg.dir.speakerDir n) }
        [.writing (cfg.dir.speakerDir n)]
  | restarted {s : SpeakerState} :
      SpeakerChange cfg names s
        ⟨⟨s.store.disk, .empty⟩, fun name => (cfg.dir.resolve s.store.disk name).getD [], []⟩ []
  | started {s : SpeakerState} (loaded : Nat) : SpeakerChange cfg names s s [.started loaded]

section changes

variable {names : SpeakerStore → String → Prop}

private theorem SpeakerState.get_changes (cfg : SpeakerConfig) (s : SpeakerState)
    (allowed : names s.store name) :
    Chain (SpeakerChange cfg names) s (s.get cfg name).1.2 (s.get cfg name).1.1 := by
  rcases s.get_cases cfg name with
    ⟨record, cached, same⟩ | ⟨record, p, absent, leads, found, same⟩ | ⟨e, -, same⟩
  · rw [same]
    exact .single (.got cached)
  · rw [same]
    let after : SpeakerState :=
      { s with
        store := { s.store with cache := s.store.cache.set name record }
        origin := Function.update s.origin name p }
    have cached : after.store.cache.get? name = some record := by
      rw [Dict.get?_set, if_pos rfl]
    have last : SpeakerChange cfg names after after [.got name record (after.origin name)] :=
      .got cached
    rw [show after.origin name = p from Function.update_self ..] at last
    exact ((Chain.single (.built allowed)).tail (.loaded allowed absent leads found)).tail last
  · rw [same]
    exact .single (.built allowed)

private theorem SpeakerState.exists_changes (cfg : SpeakerConfig) (s : SpeakerState)
    {n : SpeakerName} (allowed : names s.store n.name) :
    Chain (SpeakerChange cfg names) s (s.exists cfg n).1 s := by
  rw [SpeakerState.exists]
  dsimp only
  split_ifs
  · exact .refl
  · exact .single (.built allowed)

private theorem chain_answered {tr : List SpeakerObs} (h : Chain (SpeakerChange cfg names) s tr s')
    (answer : Except Exc SpeakerAnswer) :
    Chain (SpeakerChange cfg names) s (tr ++ [.answered answer]) s' := h.tail (.answered answer)

variable (plain : ∀ (store : SpeakerStore) (c : Component), names store c.name)

include plain

private theorem SpeakerState.getSpeaker_changes (s : SpeakerState) :
    Chain (SpeakerChange cfg names) s (s.getSpeaker cfg name).2 (s.getSpeaker cfg name).1 := by
  unfold SpeakerState.getSpeaker
  split
  · exact .single (.answered _)
  · rename_i n _
    have before := s.get_changes cfg (plain _ n.component)
    dsimp only [SpeakerName.component] at before
    dsimp only
    split
    · exact chain_answered before _
    · exact chain_answered before _

private theorem SpeakerState.deleteSpeaker_changes
    {gone : Option (List (List Component × Component))}
    (h : s.deleteSpeaker cfg name gone = some (s', o)) :
    Chain (SpeakerChange cfg names) s o s' := by
  have built (n : SpeakerName) :
      Chain (SpeakerChange cfg names) s [.built (osPathJoin cfg.dir.path n.name)] s :=
    .single (.built (plain _ n.component))
  cases SpeakerState.deleteSpeaker_cases h with
  | refused e => exact .single (.answered _)
  | absent e => exact chain_answered (built _) _
  | deleted own answer there => exact chain_answered ((built _).tail (.deleted there)) _
  | raised own e there removed =>
    refine chain_answered ((built _).tail (.removed fun q => ?_)) _
    rw [node_of_removeBelow removed]
    split_ifs
    · exact .inr rfl
    · exact .inl rfl

private theorem SpeakerState.cloneSpeaker_changes (s : SpeakerState) :
    Chain (SpeakerChange cfg names) s (s.cloneSpeaker cfg name).2 (s.cloneSpeaker cfg name).1 := by
  unfold SpeakerState.cloneSpeaker
  split
  · exact .single (.answered _)
  · rename_i n _
    have asked := s.exists_changes cfg (n := n) (plain _ n.component)
    dsimp only
    split_ifs
    · exact chain_answered asked _
    · simpa using asked.tail (.tasks _)

omit plain in
theorem node_of_upload {disk disk' disk'' : Disk} {tmp : Component} {content : FileContent}
    (made : disk.mkdir cfg.dir.root tmpDir = some disk')
    (written : disk'.write (cfg.dir.root ++ [tmpDir]) tmp content = some disk'')
    (q : List Component) :
    disk''.node q =
      if q = cfg.dir.root ++ [tmpDir] ++ [tmp] then some (.file content)
      else if q = cfg.dir.root ++ [tmpDir] then some .dir else disk.node q := by
  rw [(FileTree.write_eq_some written).2, (FileTree.mkdir_eq_some made).2]

omit plain in
private theorem SpeakerState.cloneUpload_changes {i : Nat} {audio : List UInt8} {tmp : Component}
    {fails : Bool} (h : s.cloneUpload cfg i audio tmp fails = some (s', o)) :
    Chain (SpeakerChange cfg names) s o s' := by
  have frame {content : FileContent} {disk disk' : Disk}
      (made : s.store.disk.mkdir cfg.dir.root tmpDir = some disk)
      (written : disk.write (cfg.dir.root ++ [tmpDir]) tmp content = some disk') :
      ∀ q, ¬ (cfg.dir.root ++ [tmpDir]) <+: q → disk'.node q = s.store.disk.node q := by
    intro q outside
    rw [node_of_upload made written, if_neg, if_neg]
    · rintro rfl
      exact outside (List.prefix_refl _)
    · rintro rfl
      exact outside (List.prefix_append _ _)
  cases SpeakerState.cloneUpload_cases h with
  | refused e =>
    have ended : Chain (SpeakerChange cfg names) s [] _ := .single (.tasks (s.clones.eraseIdx i))
    simpa using chain_answered ended (.error e)
  | failed e fresh made written =>
    have stored : Chain (SpeakerChange cfg names) s [] _ := .single (.tmp (frame made written))
    simpa using (stored.tail (.tasks _)).tail (.answered _)
  | stored waiting fresh made written =>
    have stored : Chain (SpeakerChange cfg names) s [] _ := .single (.tmp (frame made written))
    simpa using stored.tail (.tasks _)

omit plain in
private theorem SpeakerStore.removeTmp_change (s : SpeakerState) (tmp : Component) :
    SpeakerChange cfg names s { s with store := s.store.removeTmp cfg tmp } [] := by
  rw [SpeakerStore.removeTmp]
  split_ifs
  · refine .tmp fun q outside => ?_
    cases removed : s.store.disk.remove (cfg.dir.root ++ [tmpDir]) tmp with
    | none => rfl
    | some disk =>
      rw [Option.getD_some, FileTree.remove_eq_some removed, if_neg]
      rintro rfl
      exact outside (List.prefix_append _ _)
  · exact .tmp fun q _ => rfl

omit plain in
theorem written_frame {r : Registration} {disk disk' : Disk} {actions : List FileAction}
    (some_actions : ∀ a ∈ actions, a ∈ registerActions cfg.dir disk r)
    (ran : runActions disk actions = some disk') :
    ∀ q, ¬ cfg.dir.speakerDir r.name <+: q → disk'.node q = disk.node q := by
  refine fun q outside => node_of_runActions ran fun a member same => outside ?_
  rw [same]
  exact speakerDir_prefix_target (some_actions a member)

private theorem SpeakerState.cloneLatents_changes {i : Nat} {result : LatentsResult}
    {createdAt : String} {stops : Option Nat}
    (h : s.cloneLatents cfg i result createdAt stops = some (s', o)) :
    Chain (SpeakerChange cfg names) s o s' := by
  have ended : Chain (SpeakerChange cfg names) s [] { s with clones := s.clones.eraseIdx i } :=
    .single (.tasks _)
  have asked (n : SpeakerName) : Chain (SpeakerChange cfg names) s (s.exists cfg n).1
      { s with clones := s.clones.eraseIdx i } := by
    simpa using (s.exists_changes cfg (n := n) (plain _ n.component)).trans ended
  have built (n : SpeakerName) :=
    (asked n).tail (.built (plain s.store n.component))
  cases SpeakerState.cloneLatents_cases h with
  | failed e => exact chain_answered ended _
  | taken e => exact chain_answered (asked _) _
  | @raised n tmp gpt emb done disk waiting e free ran =>
    have frame := written_frame (fun a => List.mem_of_mem_take) ran
    have written := (built n).tail (.written (n := n) frame)
    simpa [SpeakerName.component] using chain_answered written _
  | @registered n tmp gpt emb disk text waiting free well first second ran =>
    have frame := written_frame (fun a member => member) ran
    have own : (registeredRecord cfg.dir
        (cloneRegistration cfg n tmp gpt emb createdAt)).name = n.name := rfl
    have registered := (built n).tail
      (.registered (s := { s with clones := s.clones.eraseIdx i }) (n := n) frame own)
    simpa [SpeakerName.component] using chain_answered
      (registered.tail (SpeakerStore.removeTmp_change _ _)) _

omit plain in
private theorem SpeakerState.cloneRaises_changes {i : Nat} {exc : Exc}
    (h : s.cloneRaises i exc = some (s', o)) : Chain (SpeakerChange cfg names) s o s' := by
  have ended : Chain (SpeakerChange cfg names) s [] { s with clones := s.clones.eraseIdx i } :=
    .single (.tasks _)
  unfold SpeakerState.cloneRaises at h
  split at h
  · obtain ⟨rfl, rfl⟩ := Prod.mk.inj (Option.some.inj h)
    exact chain_answered ended _
  · cases h

private theorem preloadEntries_changes (entries : List Component) (loaded : Nat)
    (origin : s.origin = fun name => (cfg.dir.resolve s.store.disk name).getD []) :
    Chain (SpeakerChange cfg names) s []
      { s with store := (preloadEntries cfg.dir s.store loaded entries).1 } := by
  induction entries generalizing s loaded with
  | nil => exact .refl
  | cons entry rest ih =>
    rw [preloadEntries]
    split_ifs with skipped
    · exact ih _ origin
    · rw [not_or, Option.not_isSome_iff_eq_none] at skipped
      cases load : cfg.dir.loadFromDisk s.store.disk entry.name with
      | error e => exact .refl
      | ok found =>
        cases found with
        | none => exact ih _ origin
        | some record =>
          obtain ⟨p, leads, -⟩ := latents_of_loadFromDisk load
          have here : Function.update s.origin entry.name p = s.origin := by
            have value : s.origin entry.name = p := by simp only [origin, leads, Option.getD_some]
            rw [← value, Function.update_eq_self]
          have change : SpeakerChange cfg names s _ [] :=
            .loaded (plain _ entry) skipped.2 leads load
          rw [here] at change
          let after : SpeakerState :=
            { s with store := { s.store with cache := s.store.cache.set entry.name record } }
          exact (ih (s := after) _ origin).head change

private theorem SpeakerState.startup_changes {entries : List Component}
    (h : s.startup cfg entries = some (s', o)) : Chain (SpeakerChange cfg names) s o s' := by
  unfold SpeakerState.startup at h
  split_ifs at h
  rw [SpeakerStore.preloadAll] at h
  have restarted : Chain (SpeakerChange cfg names) s [] _ := .single .restarted
  split_ifs at h with there
  · split at h
    · rename_i store loaded result
      obtain ⟨rfl, rfl⟩ := Prod.mk.inj (Option.some.inj h)
      have preloaded := restarted.trans (preloadEntries_changes plain entries 0 rfl)
      dsimp only at preloaded
      rw [result] at preloaded
      exact preloaded.tail (.started loaded)
    · cases h
  · obtain ⟨rfl, rfl⟩ := Prod.mk.inj (Option.some.inj h)
    exact restarted.tail (.started 0)

end changes

/-- What a step does is a sequence of such changes. -/
theorem speakerStep_changes (h : speakerStep cfg s e = some (s', o)) :
    Chain (SpeakerChange cfg (e.looksUp s.store)) s o s' := by
  have plain (_ : SpeakerStore) (c : Component) : ∃ c' : Component, c'.name = c.name := ⟨c, rfl⟩
  cases e with
  | startup entries => exact SpeakerState.startup_changes plain h
  | resolve speaker =>
    cases speaker with
    | name name =>
      obtain ⟨answer, same⟩ := s.resolve_name cfg name
      obtain ⟨rfl, rfl⟩ := Prod.mk.inj (same.symm.trans (Option.some.inj h))
      have allowed : (SpeakerEvent.resolve (.name name)).looksUp s.store s.store name := ⟨rfl, rfl⟩
      exact chain_answered (s.get_changes cfg allowed) _
    | embedding rows emb =>
      obtain ⟨rfl, rfl⟩ := Prod.mk.inj (Option.some.inj h)
      exact .single (.answered _)
  | getSpeaker name =>
    obtain ⟨rfl, rfl⟩ := Prod.mk.inj (Option.some.inj h)
    exact s.getSpeaker_changes plain
  | deleteSpeaker name gone => exact SpeakerState.deleteSpeaker_changes plain h
  | listSpeakers =>
    obtain ⟨rfl, rfl⟩ := Prod.mk.inj (Option.some.inj h)
    split
    · exact .single (.answered _)
    · exact .single (.answered _)
  | cloneSpeaker name =>
    obtain ⟨rfl, rfl⟩ := Prod.mk.inj (Option.some.inj h)
    exact s.cloneSpeaker_changes plain
  | cloneUpload i audio tmp fails => exact SpeakerState.cloneUpload_changes h
  | cloneLatents i result createdAt stops => exact SpeakerState.cloneLatents_changes plain h
  | cloneRaises i e => exact SpeakerState.cloneRaises_changes h

end XttsServer.Model
