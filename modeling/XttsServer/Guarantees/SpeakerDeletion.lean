import XttsServer.Guarantees.SpeakerPaths

/-!
Deleted speakers. The cache goes by the name that a request gave, the disk by the
directory that the name leads to, and a deletion evicts one name.
-/

set_option autoImplicit false
set_option relaxedAutoImplicit false

namespace XttsServer.Guarantees

open XttsServer.Model XttsServer.Foundations XttsServer.Foundations.Transition

variable {cfg : SpeakerConfig} {s s' : SpeakerState} {tr o : List SpeakerObs}

/-- The directory was deleted, and no registration has written it since. -/
def Gone (tr : List SpeakerObs) (dir : List Component) : Prop :=
  ∃ before after, tr = before ++ .deleted dir :: after ∧ .writing dir ∉ after

/-- No `get` has returned a record from a directory, or from below one, that was gone. -/
def NoStale (cfg : SpeakerConfig) (tr : List SpeakerObs) : Prop :=
  ∀ before name record origin, before ++ [.got name record origin] <+: tr →
    ∀ n, Gone before (cfg.dir.speakerDir n) → ¬ cfg.dir.speakerDir n <+: origin

/-- A name that gets loaded from a speaker's directory, or from below it, is that speaker's. -/
def loadsAsNamed (cfg : SpeakerConfig) (s : SpeakerState) : SpeakerEvent → Prop
  | .resolve (.name name) =>
      s.store.cache.get? name = none →
        ∀ p record n, cfg.dir.resolve s.store.disk name = some p →
          cfg.dir.loadFromDisk s.store.disk name = .ok (some record) →
            cfg.dir.speakerDir n <+: p → name = n.name
  | _ => True

/-! ### Traces -/

private theorem gone_concat {x : SpeakerObs} {dir : List Component} (h : Gone (tr ++ [x]) dir) :
    x = .deleted dir ∨ Gone tr dir ∧ x ≠ .writing dir := by
  obtain ⟨before, after, split, quiet⟩ := h
  induction after using List.reverseRecOn with
  | nil => exact .inl (by simpa using (List.append_inj' split rfl).2)
  | append_singleton after y _ =>
    rw [← List.cons_append, ← List.append_assoc] at split
    obtain ⟨rfl, last⟩ := List.append_inj' split rfl
    obtain rfl : x = y := by simpa using last
    rw [List.mem_append, not_or, List.mem_singleton] at quiet
    exact .inr ⟨⟨before, after, rfl, quiet.1⟩, Ne.symm quiet.2⟩

private theorem noStale_concat {x : SpeakerObs} (earlier : NoStale cfg tr)
    (last : ∀ name record origin, x = .got name record origin →
      ∀ n, Gone tr (cfg.dir.speakerDir n) → ¬ cfg.dir.speakerDir n <+: origin) :
    NoStale cfg (tr ++ [x]) := by
  intro before name record origin h
  rcases List.prefix_concat_iff.mp h with same | inside
  · obtain ⟨rfl, same⟩ := List.append_inj' same rfl
    exact last name record origin (by simpa using same.symm)
  · exact earlier before name record origin inside

/-! ### The invariant -/

variable {disk : Disk} {cache : Dict String SpeakerRecord} {origin : String → List Component}
  {name : String} {record : SpeakerRecord}

structure Evicted (cfg : SpeakerConfig) (tr : List SpeakerObs) (disk : Disk)
    (cache : Dict String SpeakerRecord) (origin : String → List Component) : Prop where
  /-- What is cached from a speaker's directory is cached under the speaker's name. -/
  keyed : ∀ name record n, cache.get? name = some record →
    cfg.dir.speakerDir n <+: origin name → name = n.name
  /-- Of a directory that is gone nothing is left. -/
  empty : ∀ n, Gone tr (cfg.dir.speakerDir n) → ∀ q, cfg.dir.speakerDir n <+: q → disk.node q = none
  evicted : ∀ n, Gone tr (cfg.dir.speakerDir n) → cache.get? n.name = none
  noStale : NoStale cfg tr

namespace Evicted

private theorem quiet (inv : Evicted cfg tr disk cache origin) {x : SpeakerObs}
    (deleted : ∀ dir, x ≠ .deleted dir) (got : ∀ name record p, x ≠ .got name record p) :
    Evicted cfg (tr ++ [x]) disk cache origin where
  keyed := inv.keyed
  empty n h := inv.empty n ((gone_concat h).resolve_left (deleted _)).1
  evicted n h := inv.evicted n ((gone_concat h).resolve_left (deleted _)).1
  noStale := noStale_concat inv.noStale fun name record p same => absurd same (got name record p)

private theorem got (inv : Evicted cfg tr disk cache origin)
    (cached : cache.get? name = some record) :
    Evicted cfg (tr ++ [.got name record (origin name)]) disk cache origin where
  keyed := inv.keyed
  empty n h := inv.empty n ((gone_concat h).resolve_left (by simp)).1
  evicted n h := inv.evicted n ((gone_concat h).resolve_left (by simp)).1
  noStale := by
    refine noStale_concat inv.noStale fun name' record' p same n gone below => ?_
    obtain ⟨rfl, rfl, rfl⟩ : name = name' ∧ record = record' ∧ origin name = p := by
      simpa using same
    obtain rfl := inv.keyed name record n cached below
    rw [inv.evicted n gone] at cached
    cases cached

private theorem onDisk (inv : Evicted cfg tr disk cache origin) {disk' : Disk}
    (kept : ∀ n, Gone tr (cfg.dir.speakerDir n) → ∀ q, cfg.dir.speakerDir n <+: q →
      disk'.node q = disk.node q ∨ disk'.node q = none) : Evicted cfg tr disk' cache origin where
  keyed := inv.keyed
  empty n gone q below := by
    rcases kept n gone q below with same | none
    · rw [same, inv.empty n gone q below]
    · exact none
  evicted := inv.evicted
  noStale := inv.noStale

private theorem erase (inv : Evicted cfg tr disk cache origin) (name : String) :
    Evicted cfg tr disk (cache.erase name) origin where
  keyed name' record' n cached below := by
    rw [Dict.get?_erase] at cached
    split_ifs at cached
    exact inv.keyed name' record' n cached below
  empty := inv.empty
  evicted n gone := by rw [Dict.get?_erase, inv.evicted n gone, ite_self]
  noStale := inv.noStale

private theorem set (inv : Evicted cfg tr disk cache origin) {p : List Component}
    (named : ∀ n, cfg.dir.speakerDir n <+: p → name = n.name)
    (there : ∀ n, Gone tr (cfg.dir.speakerDir n) → n.name ≠ name) :
    Evicted cfg tr disk (cache.set name record) (Function.update origin name p) where
  keyed name' record' n cached below := by
    by_cases same : name' = name
    · subst same
      rw [Function.update_self] at below
      exact named n below
    · rw [Dict.get?_set, if_neg same] at cached
      rw [Function.update_of_ne same] at below
      exact inv.keyed name' record' n cached below
  empty := inv.empty
  evicted n gone := by rw [Dict.get?_set, if_neg (there n gone), inv.evicted n gone]
  noStale := inv.noStale

private theorem ne_of_loaded (inv : Evicted cfg tr disk cache origin)
    (found : cfg.dir.loadFromDisk disk name = .ok (some record)) {n : SpeakerName}
    (gone : Gone tr (cfg.dir.speakerDir n)) : n.name ≠ name := by
  rintro rfl
  obtain ⟨p, leads, latents, -⟩ := latents_of_loadFromDisk found
  have own := resolve_component cfg.dir disk n.component
  change cfg.dir.resolve disk n.name = _ at own
  rw [leads] at own
  split_ifs at own
  obtain rfl := Option.some.inj own
  have below : cfg.dir.speakerDir n <+: cfg.dir.root ++ [n.component] ++ [latentsNpz] :=
    List.prefix_append _ _
  rw [FileTree.read_eq_some_iff, inv.empty n gone _ below] at latents
  cases latents

private theorem deleted (inv : Evicted cfg tr disk cache origin) (n : SpeakerName) :
    Evicted cfg (tr ++ [.deleted (cfg.dir.speakerDir n)]) (disk.rmtree cfg.dir.root n.component)
      (cache.erase n.name) origin := by
  -- a directory that is gone now is the one deleted or was gone before
  have cases' {n' : SpeakerName} (h : Gone (tr ++ [.deleted (cfg.dir.speakerDir n)])
      (cfg.dir.speakerDir n')) : cfg.dir.speakerDir n' = cfg.dir.speakerDir n ∨
        Gone tr (cfg.dir.speakerDir n') := by
    rcases gone_concat h with now | ⟨before, -⟩
    · exact .inl (SpeakerObs.deleted.inj now).symm
    · exact .inr before
  have smaller :
      Evicted cfg tr (disk.rmtree cfg.dir.root n.component) (cache.erase n.name) origin := by
    refine (inv.erase n.name).onDisk fun n' gone q below => ?_
    rw [FileTree.node_rmtree]
    split_ifs
    · exact .inr rfl
    · exact .inl rfl
  refine ⟨smaller.keyed, fun n' h q below => ?_, fun n' h => ?_,
    noStale_concat inv.noStale (by simp)⟩
  · rcases cases' h with same | before
    · rw [same] at below
      exact (FileTree.node_rmtree ..).trans (if_pos below)
    · exact smaller.empty n' before q below
  · rcases cases' h with same | before
    · have own : cfg.dir.speakerDir n <+: cfg.dir.speakerDir n' := by rw [same]
      rw [Dict.get?_erase, if_pos (name_unique (List.prefix_refl _) own)]
    · exact smaller.evicted n' before

private theorem ne_of_written {n n' : SpeakerName}
    (h : Gone (tr ++ [.writing (cfg.dir.speakerDir n)]) (cfg.dir.speakerDir n')) :
    n'.name ≠ n.name := by
  intro same
  obtain rfl : n' = n := by
    cases n
    cases n'
    simpa using same
  rcases gone_concat h with now | ⟨-, other⟩
  · cases now
  · exact other rfl

private theorem written (inv : Evicted cfg tr disk cache origin) {n : SpeakerName} {disk' : Disk}
    (frame : ∀ q, ¬ cfg.dir.speakerDir n <+: q → disk'.node q = disk.node q) :
    Evicted cfg (tr ++ [.writing (cfg.dir.speakerDir n)]) disk' cache origin := by
  refine (inv.quiet (by simp) (by simp)).onDisk fun n' gone q below =>
    .inl (frame q fun inside => ?_)
  exact ne_of_written gone (name_unique below inside)

end Evicted

private theorem Evicted.change {names : SpeakerStore → String → Prop}
    (inv : Evicted cfg tr s.store.disk s.store.cache s.origin)
    (named : ∀ store name p record n, names store name → store.cache.get? name = none →
      cfg.dir.resolve store.disk name = some p → cfg.dir.loadFromDisk store.disk name =
        .ok (some record) → cfg.dir.speakerDir n <+: p → name = n.name)
    (change : SpeakerChange cfg names s s' o) :
    Evicted cfg (tr ++ o) s'.store.disk s'.store.cache s'.origin := by
  cases change with
  | tasks clones => simpa using inv
  | answered answer => exact inv.quiet (by simp) (by simp)
  | built allowed => exact inv.quiet (by simp) (by simp)
  | got cached => exact inv.got cached
  | loaded allowed absent leads found =>
    rw [List.append_nil]
    exact inv.set (fun n below => named _ _ _ _ _ allowed absent leads found below)
      fun n gone => inv.ne_of_loaded found gone
  | deleted there => exact inv.deleted _
  | removed less =>
    rw [List.append_nil]
    exact (inv.erase _).onDisk fun n' gone q below => less q
  | tmp frame =>
    rw [List.append_nil]
    refine inv.onDisk fun n gone q below => .inl (frame q fun inside => ?_)
    exact component_ne_tmpDir n (component_unique below inside)
  | written frame => exact inv.written frame
  | registered frame own =>
    refine (inv.written frame).set (fun n below => ?_) fun n gone => Evicted.ne_of_written gone
    exact name_unique (List.prefix_refl _) below
  | restarted =>
    rw [List.append_nil]
    exact ⟨fun _ _ _ cached => (by cases cached), inv.empty, fun _ _ => rfl, inv.noStale⟩
  | started loaded => exact inv.quiet (by simp) (by simp)

/-- A name that a directory can hold is loaded from its own directory only. -/
private theorem name_of_component {n : SpeakerName} {c : Component} {p : List Component}
    (leads : cfg.dir.resolve disk c.name = some p) (below : cfg.dir.speakerDir n <+: p) :
    c.name = n.name := by
  rw [resolve_component] at leads
  split_ifs at leads
  obtain rfl := Option.some.inj leads
  exact congrArg Component.name (component_unique (List.prefix_refl _) below)

private theorem Evicted.step {e : SpeakerEvent}
    (inv : Evicted cfg tr s.store.disk s.store.cache s.origin)
    (meets : loadsAsNamed cfg s e) (taken : speakerStep cfg s e = some (s', o)) :
    Evicted cfg (tr ++ o) s'.store.disk s'.store.cache s'.origin := by
  have named : ∀ store name p record n, e.looksUp s.store store name →
      store.cache.get? name = none → cfg.dir.resolve store.disk name = some p →
        cfg.dir.loadFromDisk store.disk name = .ok (some record) →
          cfg.dir.speakerDir n <+: p → name = n.name := by
    intro store name p record n looked absent leads found below
    unfold SpeakerEvent.looksUp at looked
    split at looked
    · obtain ⟨rfl, rfl⟩ := looked
      exact meets absent p record n leads found below
    · obtain ⟨c, rfl⟩ := looked
      exact name_of_component leads below
  have chain := speakerStep_changes taken
  clear taken
  generalize e.looksUp s.store = names at named chain
  induction chain with
  | refl => simpa using inv
  | tail _ change ih =>
    rw [← List.append_assoc]
    exact ih.change named change

private theorem evicted_of_reach {disk : Disk}
    (h : Reach (speakerServer cfg disk) (loadsAsNamed cfg) tr s) :
    Evicted cfg tr s.store.disk s.store.cache s.origin := by
  induction h with
  | refl =>
    refine ⟨fun _ _ _ cached => (by cases cached), fun n gone => ?_, fun n gone => rfl, ?_⟩
    · obtain ⟨before, after, split, -⟩ := gone
      simp at split
    · intro before name record p split
      simp at split
  | tail _ meets taken ih => exact ih.step meets taken

/-! ### Deletion is complete -/

private theorem resolve_of_get {s' : SpeakerState} {o : List SpeakerObs}
    {result : Except SpeakerError SpeakerRecord} (h : s.get cfg name = ((s', o), result)) :
    ∃ answer, speakerStep cfg s (.resolve (.name name)) = some (s', o ++ [.answered answer]) := by
  obtain ⟨answer, resolved⟩ := s.resolve_name cfg name
  exact ⟨answer, congrArg some (by rw [resolved, h])⟩

/-- A lookup that loads a speaker's directory under another name can be followed by two requests
that break the claim: the speaker is deleted, and the lookup made again. -/
private theorem stale_of_other_name {e : SpeakerEvent} (other : ¬ loadsAsNamed cfg s e)
    (disk : Disk) (tr : List SpeakerObs) :
    ∃ tr' s', Run (speakerServer cfg disk) anyStep s tr' s' ∧ ¬ NoStale cfg (tr ++ tr') := by
  unfold loadsAsNamed at other
  split at other
  · rename_i name
    push Not at other
    obtain ⟨absent, p, record, n, leads, found, below, apart⟩ := other
    obtain ⟨p', leads', latents, -⟩ := latents_of_loadFromDisk found
    obtain rfl := Option.some.inj (leads.symm.trans leads')
    have there : s.store.disk.isDir (cfg.dir.speakerDir n) = true := by
      have file : s.store.disk.node (p ++ [latentsNpz]) ≠ none := by
        rw [FileTree.read_eq_some_iff.mp latents]
        simp
      refine FileTree.isDir_iff.mpr
        (FileTree.node_of_below file (below.trans (List.prefix_append _ _)) fun same => ?_)
      have longer := below.length_le
      rw [same] at longer
      simp at longer
    let loaded : SpeakerState := { s with
      store := { s.store with cache := s.store.cache.set name record }
      origin := Function.update s.origin name p }
    let evicted : SpeakerState := { loaded with
      store := ⟨s.store.disk.rmtree cfg.dir.root n.component, loaded.store.cache.erase n.name⟩ }
    have cached : evicted.store.cache.get? name = some record := by
      rw [Dict.get?_erase, if_neg apart, Dict.get?_set, if_pos rfl]
    have origin : evicted.origin name = p := Function.update_self ..
    obtain ⟨first, loads⟩ : ∃ answer, (speakerServer cfg disk).step s (.resolve (.name name)) =
        some (loaded, [.built (osPathJoin cfg.dir.path name), .got name record p] ++
          [.answered answer]) := resolve_of_get (SpeakerState.get_of_loaded absent leads found)
    obtain ⟨second, deletes⟩ : ∃ answer, (speakerServer cfg disk).step loaded
        (.deleteSpeaker n.name none) = some (evicted, [.built (osPathJoin cfg.dir.path n.name),
          .deleted (cfg.dir.speakerDir n), .answered answer]) :=
      ⟨_, SpeakerState.deleteSpeaker_of_isDir (s := loaded) there⟩
    obtain ⟨third, again⟩ : ∃ answer, (speakerServer cfg disk).step evicted
      (.resolve (.name name)) =
        some (evicted, [.got name record (evicted.origin name)] ++ [.answered answer]) :=
      resolve_of_get (SpeakerState.get_of_cached cached)
    rw [origin] at again
    refine ⟨_, evicted, ((Run.refl.tail trivial loads).tail trivial deletes).tail trivial again,
      fun fresh => ?_⟩
    refine fresh (tr ++ ([.built (osPathJoin cfg.dir.path name), .got name record p] ++
      [.answered first]) ++ [.built (osPathJoin cfg.dir.path n.name),
        .deleted (cfg.dir.speakerDir n), .answered second]) name record p ⟨[.answered third], ?_⟩ n
      ⟨tr ++ ([.built (osPathJoin cfg.dir.path name), .got name record p] ++ [.answered first]) ++
        [.built (osPathJoin cfg.dir.path n.name)], [.answered second], ?_, ?_⟩ below
    · simp
    · simp
    · simp
  · exact absurd trivial other

/-- In a run whose lookups load speakers under their own names alone no deleted speaker is ever
returned, and any other lookup can be followed by requests after which one is. -/
theorem deletion_complete {disk : Disk}
    (h : Reach (speakerServer cfg disk) (loadsAsNamed cfg) tr s) :
    NoStale cfg tr ∧ ∀ e, ¬ loadsAsNamed cfg s e →
      ∃ tr' s', Run (speakerServer cfg disk) anyStep s tr' s' ∧ ¬ NoStale cfg (tr ++ tr') :=
  ⟨(evicted_of_reach h).noStale, fun _ other => stale_of_other_name other disk tr⟩

/-- Lookups of names that a directory can hold, as all that pass the check of the other
endpoints. -/
def plainNames (_ : SpeakerState) : SpeakerEvent → Bool
  | .resolve (.name name) => isPlain name
  | _ => true

private theorem loadsAsNamed_of_plainNames (s : SpeakerState) (e : SpeakerEvent)
    (plain : plainNames s e = true) : loadsAsNamed cfg s e := by
  unfold loadsAsNamed
  split
  · exact fun _ p record n leads _ below => name_of_component (c := ⟨_, plain⟩) leads below
  · trivial

/-- The speaker is looked up, deleted, and looked up again. -/
def deletedAlice : List SpeakerEvent :=
  [.resolve (.name "alice"), .deleteSpeaker "alice" none, .resolve (.name "alice")]

private theorem deletedAlice_runs : (exec (speakerServer speakersConfig aliceDisk)
    (fun s e => plainNames s e = true) (speakerServer speakersConfig aliceDisk).init
    deletedAlice).isSome = true := by decide +kernel

theorem deletion_complete_deleted_alice :
    let last := (exec (speakerServer speakersConfig aliceDisk) (fun s e => plainNames s e = true)
      (speakerServer speakersConfig aliceDisk).init deletedAlice).get deletedAlice_runs
    NoStale speakersConfig last.2 ∧ ∀ e, ¬ loadsAsNamed speakersConfig last.1 e →
      ∃ tr' s', Run (speakerServer speakersConfig aliceDisk) anyStep last.1 tr' s' ∧
        ¬ NoStale speakersConfig (last.2 ++ tr') :=
  deletion_complete ((reach_of_exec deletedAlice_runs).mono loadsAsNamed_of_plainNames)

private theorem otherName_of_alice : ¬ loadsAsNamed speakersConfig
    (speakerServer speakersConfig aliceDisk).init (.resolve (.name "./alice")) := by
  intro named
  have same := named rfl (speakersConfig.dir.speakerDir alice)
    ⟨"./alice", "", ⟨[1, 1, 1], [7]⟩, ⟨[1, 1, 1], [9]⟩, ""⟩ alice (by decide +kernel)
    (by decide +kernel) (List.prefix_refl _)
  revert same
  decide

/-- `POST /v1/tts` for `./alice`, `DELETE /v1/speakers/alice`, and the first request again. -/
theorem deletion_not_complete : ¬ ∀ cfg disk tr s,
    Reach (speakerServer cfg disk) anyStep tr s → NoStale cfg tr := by
  intro all
  obtain ⟨tr, s, run, stale⟩ := stale_of_other_name otherName_of_alice aliceDisk []
  exact stale (all speakersConfig aliceDisk tr s run)

end XttsServer.Guarantees
