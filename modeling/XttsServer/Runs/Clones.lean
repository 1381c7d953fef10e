import XttsServer.Model.Clones
import XttsServer.Runs.Delivery
import XttsServer.Runs.Speakers

/-!
What the steps of clone requests do to the store while other requests run, and what
a clone request that waits for its latents can count on: its upload is in its file,
and a worker has made every reply to it from there.
-/

set_option autoImplicit false
set_option relaxedAutoImplicit false

namespace XttsServer.Model

open XttsServer.Foundations XttsServer.Foundations.Transition

variable {cfg : Config} {scfg : SpeakerConfig} {computes : List UInt8 → ModelOutcome → Prop}
  {store : SpeakerStore}

/-! ### Steps -/

section steps

variable {s : SpeakerState} {s' : SpeakerState} {o : List SpeakerObs} {i : Nat}

theorem SpeakerState.goOn_cases {createdAt : String} {stops : Option Nat}
    {result : Except Exc LatentsResult} (h : s.goOn scfg i createdAt stops result = some (s', o)) :
    (∃ latents, result = .ok latents ∧ CloneEnds scfg s i latents createdAt s' o) ∨
    ∃ e, s' = { s with clones := s.clones.eraseIdx i } ∧ o = [.answered (.error e)] := by
  cases result with
  | ok latents => exact .inl ⟨latents, rfl, SpeakerState.cloneLatents_cases h⟩
  | error e =>
    rw [SpeakerState.goOn, SpeakerState.cloneRaises] at h
    split at h
    · obtain ⟨rfl, rfl⟩ := Prod.mk.inj (Option.some.inj h)
      exact .inr ⟨e, rfl, rfl⟩
    · cases h

end steps

inductive CloneChange (cfg : Config) (scfg : SpeakerConfig) (s : CloneState) :
    CloneEvent → CloneState → List CloneObs → Prop
  | server {event : Event} {server : State} {o : List Obs} (other : event.ofClone s.server = false)
      (taken : step cfg s.server event = some (server, o)) :
      CloneChange cfg scfg s (.server event) { s with server } (o.map .server)
  | speakers {event : SpeakerEvent} {speakers : SpeakerState} {o : List SpeakerObs}
      (other : event.ofClone = false)
      (taken : speakerStep scfg s.speakers event = some (speakers, o)) :
      CloneChange cfg scfg s (.speakers event) { s with speakers } (o.map .speakers)
  /-- The upload is refused, or writing it fails. -/
  | refused {i : Nat} {audio : List UInt8} {tmp : Component} {fails : Bool} {jobId : JobId}
      {speakers : SpeakerState} {o : List SpeakerObs} (spoken : o ≠ [])
      (ended : Uploads scfg s.speakers i audio tmp speakers o) :
      CloneChange cfg scfg s (.upload i audio tmp fails jobId) { s with speakers } (o.map .speakers)
  | uploaded {i : Nat} {n : SpeakerName} {audio : List UInt8} {tmp : Component} {fails : Bool}
      {jobId : JobId} {speakers : SpeakerState} {server : State} {o : List Obs} {task : Task}
      (waiting : s.speakers.clones[i]? = some (.uploading n))
      (stored : Uploads scfg s.speakers i audio tmp speakers [])
      (taken : step cfg s.server (.computeLatents jobId (scfg.dir.tmpPath tmp)) = some (server, o))
      (asked : server.tasks jobId = some task) :
      CloneChange cfg scfg s (.upload i audio tmp fails jobId)
        ⟨server, speakers, Function.update s.jobIds tmp (some jobId)⟩
        (.uploaded jobId n audio :: o.map .server)
  /-- The upload is stored, and there are no workers. -/
  | undispatched {i : Nat} {n : SpeakerName} {audio : List UInt8} {tmp : Component} {fails : Bool}
      {jobId : JobId} {speakers : SpeakerState} {server : State} {o : List Obs} (e : Exc)
      (waiting : s.speakers.clones[i]? = some (.uploading n))
      (stored : Uploads scfg s.speakers i audio tmp speakers [])
      (taken : step cfg s.server (.computeLatents jobId (scfg.dir.tmpPath tmp)) =
        some (server, o)) :
      CloneChange cfg scfg s (.upload i audio tmp fails jobId)
        { s with server, speakers := { speakers with clones := speakers.clones.eraseIdx i } }
        (.uploaded jobId n audio :: o.map .server ++ [.cloned jobId n (.answered (.error e))])
  | finished {i : Nat} {n : SpeakerName} {tmp : Component} {createdAt : String} {stops : Option Nat}
      {jobId : JobId} {w : WorkerRef} {r : Request} {outcome : GetOutcome} {server : State}
      {o : List Obs} {result : Except Exc LatentsResult} {speakers : SpeakerState}
      {o' : List SpeakerObs} (waiting : s.speakers.clones[i]? = some (.computing n tmp))
      (id : s.jobIds tmp = some jobId)
      (task : s.server.tasks jobId = some (.clone w r (.got outcome)))
      (taken : step cfg s.server (.resume jobId) = some (server, o))
      (value : computedLatents cfg jobId outcome = some result)
      (goesOn : s.speakers.goOn scfg i createdAt stops result = some (speakers, o')) :
      CloneChange cfg scfg s (.finish i createdAt stops) { s with server, speakers }
        (o.map .server ++ o'.map (.cloned jobId n))

variable {s t : CloneState} {e : CloneEvent} {o : List CloneObs} {tr : List CloneObs}

private theorem upload_change {i : Nat} {audio : List UInt8} {tmp : Component} {fails : Bool}
    {jobId : JobId} (h : s.upload cfg scfg i audio tmp fails jobId = some (t, o)) :
    CloneChange cfg scfg s (.upload i audio tmp fails jobId) t o := by
  unfold CloneState.upload at h
  split at h
  · rename_i task speakers waiting written
    have stored := SpeakerState.cloneUpload_cases written
    obtain ⟨n, rfl⟩ : ∃ n, task = .uploading n := by
      cases stored with
      | stored waiting' => exact ⟨_, Option.some.inj (waiting.symm.trans waiting')⟩
    split at h
    · cases h
    · rename_i server o' taken
      dsimp only at h
      split at h
      · rename_i asked
        obtain ⟨rfl, rfl⟩ := Prod.mk.inj (Option.some.inj h)
        exact .uploaded waiting stored taken asked
      · obtain ⟨⟨after, o''⟩, raised, same⟩ := Option.map_eq_some_iff.mp h
        obtain ⟨rfl, rfl⟩ := Prod.mk.inj same
        rw [SpeakerState.cloneRaises] at raised
        split at raised
        · obtain ⟨rfl, rfl⟩ := Prod.mk.inj (Option.some.inj raised)
          exact .undispatched _ waiting stored taken
        · cases raised
  · rename_i speakers o' written silent
    obtain ⟨rfl, rfl⟩ := Prod.mk.inj (Option.some.inj h)
    have ended := SpeakerState.cloneUpload_cases written
    refine .refused (fun empty => ?_) ended
    subst empty
    cases ended with
    | stored waiting => exact silent _ waiting rfl
  · cases h

private theorem finish_change {i : Nat} {createdAt : String} {stops : Option Nat}
    (h : s.finish cfg scfg i createdAt stops = some (t, o)) :
    CloneChange cfg scfg s (.finish i createdAt stops) t o := by
  unfold CloneState.finish at h
  split at h
  · rename_i n tmp waiting
    split at h
    · cases h
    · rename_i jobId id
      split at h
      · rename_i w r outcome task
        split at h
        · rename_i server o' result taken value
          obtain ⟨⟨speakers, o''⟩, goesOn, same⟩ := Option.map_eq_some_iff.mp h
          obtain ⟨rfl, rfl⟩ := Prod.mk.inj same
          exact .finished waiting id task taken value goesOn
        · cases h
      · cases h
  · cases h

theorem cloneStep_cases (h : cloneStep cfg scfg s e = some (t, o)) :
    CloneChange cfg scfg s e t o := by
  cases e with
  | server event =>
    simp only [cloneStep] at h
    split_ifs at h with other
    obtain ⟨⟨server, o'⟩, taken, same⟩ := Option.map_eq_some_iff.mp h
    obtain ⟨rfl, rfl⟩ := Prod.mk.inj same
    exact .server (Bool.not_eq_true _ ▸ other) taken
  | speakers event =>
    simp only [cloneStep] at h
    split_ifs at h with other
    obtain ⟨⟨speakers, o'⟩, taken, same⟩ := Option.map_eq_some_iff.mp h
    obtain ⟨rfl, rfl⟩ := Prod.mk.inj same
    exact .speakers (Bool.not_eq_true _ ▸ other) taken
  | upload i audio tmp fails jobId => exact upload_change h
  | finish i createdAt stops => exact finish_change h

/-! ### The dispatcher's part -/

@[simp] def CloneObs.server? : CloneObs → Option Obs
  | .server obs => some obs
  | _ => none

def served (tr : List CloneObs) : List Obs := tr.filterMap CloneObs.server?

@[simp] theorem served_append (tr o : List CloneObs) : served (tr ++ o) = served tr ++ served o :=
  List.filterMap_append

@[simp] theorem served_uploaded (jobId : JobId) (n : SpeakerName) (audio : List UInt8)
    (o : List CloneObs) : served (.uploaded jobId n audio :: o) = served o := rfl

@[simp] theorem served_answered (jobId : JobId) (n : SpeakerName) (obs : SpeakerObs) :
    served [.cloned jobId n obs] = [] := rfl

@[simp] theorem served_server (o : List Obs) : served (o.map .server) = o := by
  simp [served, List.filterMap_map, Function.comp_def]

@[simp] theorem served_speakers (o : List SpeakerObs) : served (o.map .speakers) = [] := by
  simp [served, List.filterMap_map, Function.comp_def]

@[simp] theorem served_cloned (jobId : JobId) (n : SpeakerName) (o : List SpeakerObs) :
    served (o.map (.cloned jobId n)) = [] := by
  simp [served, List.filterMap_map, Function.comp_def]

private theorem server_of_cloneStep (h : cloneStep cfg scfg s e = some (t, o)) :
    (∃ event, step cfg s.server event = some (t.server, served o)) ∨
    t.server = s.server ∧ served o = [] := by
  cases cloneStep_cases h with
  | server other taken => exact .inl ⟨_, by simpa using taken⟩
  | speakers other taken => exact .inr ⟨rfl, by simp⟩
  | refused spoken ended => exact .inr ⟨rfl, by simp⟩
  | uploaded waiting stored taken asked => exact .inl ⟨_, by simpa using taken⟩
  | undispatched e waiting stored taken => exact .inl ⟨_, by simpa using taken⟩
  | finished waiting id task taken value goesOn => exact .inl ⟨_, by simpa using taken⟩

theorem reach_served {P : CloneState → CloneEvent → Prop}
    (h : Reach (cloneServer cfg scfg store) P tr s) :
    Reach (server cfg) anyStep (served tr) s.server := by
  induction h with
  | refl => exact .refl
  | tail before meets taken ih =>
    rw [served_append]
    rcases server_of_cloneStep taken with ⟨event, stepped⟩ | ⟨same, silent⟩
    · exact ih.tail trivial stepped
    · rw [same, silent, List.append_nil]
      exact ih

section server

variable {s s' : State} {event : Event} {o tr : List Obs} {P : State → Event → Prop}

private theorem used_of_step (h : step cfg s event = some (s', o)) : s.used ⊆ s'.used := by
  have chain := step_changes h
  clear h
  induction chain with
  | refl => exact fun _ => id
  | tail _ change ih => exact fun j known => change.grows.1 (ih known)

private theorem reply_of_step (h : step cfg s event = some (s', o)) {w : WorkerRef} {r : Request}
    {m : Message} (told : .replied w r m ∈ o) :
    (∃ outcome, event = .workerReply w outcome ∧ (s.processes w).current = some r ∧
      m = closingMessage r outcome) ∨ ∃ r', r = .stream r' := by
  obtain ⟨_, _, _, _, _, _, change, told, -⟩ := (step_changes h).exists_change told
  rcases change.replied told with ⟨outcome, same, current, -, closes⟩ | ⟨r', _, same, -⟩
  · exact .inl ⟨outcome, same, current, closes⟩
  · exact .inr ⟨r', same⟩

private theorem step_computeLatents {j : JobId} {path : Path}
    (h : step cfg s (.computeLatents j path) = some (s', o)) :
    s.canDraw j ∧ j ∈ s'.used ∧
      ((∃ w, o = [.dispatched (.computeLatents ⟨j, path, s.nextQueue⟩) w]) ∨
        o = [] ∧ s'.tasks = s.tasks) := by
  simp only [step] at h
  split_ifs at h with fresh
  obtain ⟨-, drawable⟩ := canDraw_of_fresh fresh
  refine ⟨drawable j List.mem_cons_self, ?_⟩
  rw [computeLatents] at h
  dsimp only at h
  split at h
  · obtain ⟨rfl, rfl⟩ := Prod.mk.inj (Option.some.inj h)
    exact ⟨List.mem_cons_self, .inr ⟨rfl, rfl⟩⟩
  · rename_i w picked
    obtain ⟨rfl, rfl⟩ := Prod.mk.inj (Option.some.inj h)
    exact ⟨List.mem_cons_self, .inl ⟨w, rfl⟩⟩

end server

/-! ### The store's part -/

def CloneTask.computing? : CloneTask → Option (SpeakerName × Component)
  | .computing n tmp => some (n, tmp)
  | .uploading _ => none

/-- The clone requests that wait for latents, with their files. -/
def SpeakerState.computing (s : SpeakerState) : List (SpeakerName × Component) :=
  s.clones.filterMap CloneTask.computing?

def SpeakerEvent.deletes (scfg : SpeakerConfig) (s : SpeakerState) (n : SpeakerName) :
    SpeakerEvent → Bool
  | .deleteSpeaker name _ => name = n.name && s.store.disk.isDir (scfg.dir.speakerDir n)
  | _ => false

private theorem tmpFile_outside (n : SpeakerName) (tmp : Component) :
    ¬ scfg.dir.speakerDir n <+: scfg.dir.tmpFile tmp := fun below =>
  component_ne_tmpDir n (component_unique below (List.prefix_append _ _))

section speakers

variable {s s' : SpeakerState} {event : SpeakerEvent} {o : List SpeakerObs}

private theorem SpeakerState.get_frame (s : SpeakerState) (name : String) :
    (s.get scfg name).1.1.clones = s.clones ∧ (s.get scfg name).1.1.store.disk = s.store.disk ∧
      ∀ k record, s.store.cache.get? k = some record →
        (s.get scfg name).1.1.store.cache.get? k = some record := by
  rcases s.get_cases scfg name with
    ⟨record, cached, same⟩ | ⟨record, p, absent, -, -, same⟩ | ⟨e, -, same⟩
  · rw [same]
    exact ⟨rfl, rfl, fun _ _ => id⟩
  · rw [same]
    refine ⟨rfl, rfl, fun k other cached => ?_⟩
    dsimp only
    rw [Dict.get?_set, if_neg]
    · exact cached
    · rintro rfl
      rw [absent] at cached
      cases cached
  · rw [same]
    exact ⟨rfl, rfl, fun _ _ => id⟩

/-- What the steps of other requests leave as it is. -/
structure LeavesClones (scfg : SpeakerConfig) (s : SpeakerState) (event : SpeakerEvent)
    (s' : SpeakerState) : Prop where
  computing : s'.computing = s.computing
  uploads : ∀ tmp, s'.store.disk.node (scfg.dir.tmpFile tmp) =
    s.store.disk.node (scfg.dir.tmpFile tmp)
  cached : ∀ (n : SpeakerName) record, event.deletes scfg s n = false →
    s.store.cache.get? n.name = some record → s'.store.cache.get? n.name = some record

private theorem leavesClones_get (name : String) :
    LeavesClones scfg s event (s.get scfg name).1.1 where
  computing := congrArg (List.filterMap CloneTask.computing?) (s.get_frame name).1
  uploads tmp := by rw [(s.get_frame name).2.1]
  cached n record _ := (s.get_frame name).2.2 n.name record

private theorem leavesClones_refl : LeavesClones scfg s event s :=
  ⟨rfl, fun _ => rfl, fun _ _ _ => id⟩

private theorem leavesClones_delete {name : String}
    {gone : Option (List (List Component × Component))} (h : Deletes scfg s name s' o) :
    LeavesClones scfg s (.deleteSpeaker name gone) s' := by
  -- the record of another name stays
  have erased {n : SpeakerName} (own : n.name = name)
      (there : s.store.disk.isDir (scfg.dir.speakerDir n) = true) (m : SpeakerName)
      (record : SpeakerRecord)
      (kept : (SpeakerEvent.deleteSpeaker name gone).deletes scfg s m = false)
      (cached : s.store.cache.get? m.name = some record) :
      (s.store.cache.erase n.name).get? m.name = some record := by
    rw [Dict.get?_erase, if_neg]
    · exact cached
    · intro same
      obtain rfl : m = n := eq_of_name same
      simp [SpeakerEvent.deletes, own, there] at kept
  cases h with
  | refused => exact leavesClones_refl
  | absent => exact leavesClones_refl
  | @deleted n own answer there =>
    refine ⟨rfl, fun tmp => ?_, erased own there⟩
    dsimp only
    exact (FileTree.node_rmtree ..).trans (if_neg (tmpFile_outside n tmp))
  | @raised n own e disk gone there removed =>
    refine ⟨rfl, fun tmp => ?_, erased own there⟩
    dsimp only
    rw [node_of_removeBelow removed, if_neg]
    intro member
    obtain ⟨⟨p, c⟩, -, same⟩ := List.mem_map.mp member
    have below : scfg.dir.speakerDir n <+: scfg.dir.tmpFile tmp := by
      rw [← same, List.append_assoc]
      exact List.prefix_append _ _
    exact tmpFile_outside n tmp below

theorem leavesClones_of_step (h : speakerStep scfg s event = some (s', o))
    (other : event.ofClone = false) : LeavesClones scfg s event s' := by
  cases event with
  | resolve speaker =>
    obtain ⟨rfl, rfl⟩ := Prod.mk.inj (Option.some.inj h)
    cases speaker with
    | name name => exact leavesClones_get name
    | embedding rows emb => exact leavesClones_refl
  | getSpeaker name =>
    obtain ⟨rfl, rfl⟩ := Prod.mk.inj (Option.some.inj h)
    split
    · exact leavesClones_refl
    · dsimp only
      split <;> exact leavesClones_get _
  | deleteSpeaker name gone => exact leavesClones_delete (SpeakerState.deleteSpeaker_cases h)
  | listSpeakers =>
    obtain ⟨rfl, rfl⟩ := Prod.mk.inj (Option.some.inj h)
    split <;> exact leavesClones_refl
  | cloneSpeaker name =>
    obtain ⟨rfl, rfl⟩ := Prod.mk.inj (Option.some.inj h)
    split
    · exact leavesClones_refl
    · dsimp only
      split_ifs
      · exact leavesClones_refl
      · refine ⟨?_, fun _ => rfl, fun _ _ _ => id⟩
        simp [SpeakerState.computing, CloneTask.computing?]
  | _ => cases other

end speakers

section computing

variable {s s' : SpeakerState} {o : List SpeakerObs} {i : Nat} {n m : SpeakerName}
  {tmp tmp' : Component} {audio : List UInt8}

private theorem computing_erase_sublist (s : SpeakerState) (i : Nat) :
    ((s.clones.eraseIdx i).filterMap CloneTask.computing?).Sublist s.computing :=
  (List.eraseIdx_sublist s.clones i).filterMap _

private theorem computing_perm (waiting : s.clones[i]? = some (.computing n tmp)) :
    ((n, tmp) :: (s.clones.eraseIdx i).filterMap CloneTask.computing?).Perm s.computing := by
  obtain ⟨inside, here⟩ := List.getElem?_eq_some_iff.mp waiting
  have perm := (List.getElem_cons_eraseIdx_perm inside).filterMap CloneTask.computing?
  rwa [here] at perm

private theorem computing_set_perm (waiting : s.clones[i]? = some (.uploading m)) :
    ((s.clones.set i (.computing n tmp)).filterMap CloneTask.computing?).Perm
      ((n, tmp) :: s.computing) := by
  obtain ⟨inside, here⟩ := List.getElem?_eq_some_iff.mp waiting
  have added := (List.set_perm_cons_eraseIdx inside (.computing n tmp)).filterMap
    CloneTask.computing?
  have others := (List.getElem_cons_eraseIdx_perm inside).filterMap CloneTask.computing?
  rw [here] at others
  exact added.trans (others.cons _)

private theorem tmpFile_inj : scfg.dir.tmpFile tmp = scfg.dir.tmpFile tmp' ↔ tmp = tmp' := by
  simp [SpeakersDir.tmpFile]

private theorem Uploads.kept (h : Uploads scfg s i audio tmp s' o) {x : Node FileContent}
    (there : s.store.disk.node (scfg.dir.tmpFile tmp') = some x) :
    s'.store.disk.node (scfg.dir.tmpFile tmp') = some x := by
  have written {content : FileContent} {disk disk' : Disk}
      (fresh : s.store.disk.node (scfg.dir.root ++ [tmpDir] ++ [tmp]) = none)
      (made : s.store.disk.mkdir scfg.dir.root tmpDir = some disk)
      (written : disk.write (scfg.dir.root ++ [tmpDir]) tmp content = some disk') :
      disk'.node (scfg.dir.tmpFile tmp') = some x := by
    rw [node_of_upload made written, if_neg, if_neg]
    · exact there
    · simp [SpeakersDir.tmpFile]
    · intro same
      rw [same, fresh] at there
      cases there
  cases h with
  | refused => exact there
  | failed e fresh made stored => exact written fresh made stored
  | stored waiting fresh made stored => exact written fresh made stored

theorem Uploads.cache (h : Uploads scfg s i audio tmp s' o) : s'.store.cache = s.store.cache := by
  cases h <;> rfl

private theorem Uploads.ended (h : Uploads scfg s i audio tmp s' o) (spoken : o ≠ []) :
    s'.clones = s.clones.eraseIdx i := by
  cases h with
  | refused | failed => rfl
  | stored => exact absurd rfl spoken

private theorem Uploads.here (h : Uploads scfg s i audio tmp s' [])
    (waiting : s.clones[i]? = some (.uploading n)) :
    s'.clones = s.clones.set i (.computing n tmp) ∧
      s.store.disk.node (scfg.dir.tmpFile tmp) = none ∧
      s'.store.disk.node (scfg.dir.tmpFile tmp) = some (.file (.audio audio)) := by
  cases h with
  | stored waiting' fresh made written =>
    obtain rfl : n = _ := by simpa using waiting.symm.trans waiting'
    exact ⟨rfl, fresh, (node_of_upload made written _).trans (if_pos rfl)⟩

@[simp] theorem removeTmp_cache (store : SpeakerStore) (tmp : Component) :
    (store.removeTmp scfg tmp).cache = store.cache := by
  rw [SpeakerStore.removeTmp]
  split_ifs <;> rfl

private theorem removeTmp_node (store : SpeakerStore) (tmp : Component) {q : List Component}
    (other : q ≠ scfg.dir.tmpFile tmp) :
    (store.removeTmp scfg tmp).disk.node q = store.disk.node q := by
  rw [SpeakerStore.removeTmp]
  split_ifs
  · cases removed : store.disk.remove (scfg.dir.root ++ [tmpDir]) tmp with
    | none => rfl
    | some disk => exact (FileTree.remove_eq_some removed q).trans (if_neg other)
  · rfl

private theorem CloneEnds.kept {latents : LatentsResult} {createdAt : String}
    (h : CloneEnds scfg s i latents createdAt s' o)
    (waiting : s.clones[i]? = some (.computing n tmp)) (other : tmp' ≠ tmp) :
    s'.clones = s.clones.eraseIdx i ∧ s'.store.disk.node (scfg.dir.tmpFile tmp') =
      s.store.disk.node (scfg.dir.tmpFile tmp') := by
  cases h with
  | failed | taken => exact ⟨rfl, rfl⟩
  | @raised m tmp'' gpt emb done disk _ e free ran =>
    exact ⟨rfl, written_frame (fun a => List.mem_of_mem_take) ran _ (tmpFile_outside m tmp')⟩
  | @registered m tmp'' gpt emb disk text waiting' free well first second ran =>
    obtain ⟨rfl, rfl⟩ : n = m ∧ tmp = tmp'' := by simpa using waiting.symm.trans waiting'
    refine ⟨rfl, ?_⟩
    dsimp only
    rw [removeTmp_node _ tmp (mt tmpFile_inj.mp other)]
    exact written_frame (fun a => id) ran _ (tmpFile_outside n tmp')

end computing

/-! ### Uploads -/

@[simp] def CloneObs.upload? : CloneObs → Option (JobId × SpeakerName × List UInt8)
  | .uploaded jobId n audio => some (jobId, n, audio)
  | _ => none

def uploads (tr : List CloneObs) : List (JobId × SpeakerName × List UInt8) :=
  tr.filterMap CloneObs.upload?

private theorem mem_uploads {j : JobId} {n : SpeakerName} {audio : List UInt8} :
    (j, n, audio) ∈ uploads tr ↔ .uploaded j n audio ∈ tr := by
  rw [uploads, List.mem_filterMap]
  constructor
  · rintro ⟨x, member, same⟩
    cases x with
    | uploaded j' n' audio' =>
      obtain ⟨rfl, rfl, rfl⟩ : j' = j ∧ n' = n ∧ audio' = audio := by simpa using same
      exact member
    | _ => cases same
  · exact fun member => ⟨_, member, rfl⟩

@[simp] theorem uploads_server (o : List Obs) : uploads (o.map .server) = [] := by
  simp [uploads, List.filterMap_map, Function.comp_def]

@[simp] theorem uploads_speakers (o : List SpeakerObs) : uploads (o.map .speakers) = [] := by
  simp [uploads, List.filterMap_map, Function.comp_def]

@[simp] theorem uploads_cloned (jobId : JobId) (n : SpeakerName) (o : List SpeakerObs) :
    uploads (o.map (.cloned jobId n)) = [] := by
  simp [uploads, List.filterMap_map, Function.comp_def]

@[simp] theorem uploads_append (tr o : List CloneObs) :
    uploads (tr ++ o) = uploads tr ++ uploads o :=
  List.filterMap_append

@[simp] theorem uploads_uploaded (jobId : JobId) (n : SpeakerName) (audio : List UInt8)
    (o : List CloneObs) :
    uploads (.uploaded jobId n audio :: o) = (jobId, n, audio) :: uploads o := rfl

@[simp] theorem uploads_answered (jobId : JobId) (n : SpeakerName) (obs : SpeakerObs) :
    uploads [.cloned jobId n obs] = [] := rfl

private theorem uploads_of_cloneStep (h : cloneStep cfg scfg s e = some (t, o)) :
    uploads o = [] ∨ ∃ j n audio, uploads o = [(j, n, audio)] ∧ j ∉ s.server.used ∧
      j ∈ t.server.used := by
  cases cloneStep_cases h with
  | server | speakers | refused | finished => exact .inl (by simp)
  | @uploaded i n audio tmp fails jobId _ _ _ _ _ _ taken =>
    obtain ⟨fresh, drawn, -⟩ := step_computeLatents taken
    exact .inr ⟨jobId, n, audio, by simp, fresh.2, drawn⟩
  | @undispatched i n audio tmp fails jobId _ _ _ _ _ _ taken =>
    obtain ⟨fresh, drawn, -⟩ := step_computeLatents taken
    exact .inr ⟨jobId, n, audio, by simp, fresh.2, drawn⟩

private theorem used_of_cloneStep (h : cloneStep cfg scfg s e = some (t, o)) :
    s.server.used ⊆ t.server.used := by
  rcases server_of_cloneStep h with ⟨event, taken⟩ | ⟨same, -⟩
  · exact used_of_step taken
  · rw [same]
    exact fun _ => id

private theorem uploads_drawn {P : CloneState → CloneEvent → Prop}
    (h : Reach (cloneServer cfg scfg store) P tr s) :
    ((uploads tr).map Prod.fst).Nodup ∧ ∀ j ∈ (uploads tr).map Prod.fst, j ∈ s.server.used := by
  induction h with
  | refl => exact ⟨List.nodup_nil, fun _ none => by cases none⟩
  | @tail s t tr o e before meets taken ih =>
    obtain ⟨nodup, drawn⟩ := ih
    have used := used_of_cloneStep taken
    rw [uploads_append, List.map_append]
    rcases uploads_of_cloneStep taken with none | ⟨j, n, audio, one, fresh, new⟩
    · rw [none, List.map_nil, List.append_nil]
      exact ⟨nodup, fun j known => used (drawn j known)⟩
    · rw [one, show [(j, n, audio)].map Prod.fst = [j] from rfl]
      refine ⟨List.nodup_append.mpr ⟨nodup, List.nodup_singleton j, ?_⟩, ?_⟩
      · rintro k known k' last rfl
        exact fresh (List.mem_singleton.mp last ▸ drawn k known)
      · intro k known
        rcases List.mem_append.mp known with old | last
        · exact used (drawn k old)
        · exact List.mem_singleton.mp last ▸ new

theorem upload_of_id {P : CloneState → CloneEvent → Prop}
    (h : Reach (cloneServer cfg scfg store) P tr s) {j : JobId} {n n' : SpeakerName}
    {audio audio' : List UInt8} (told : .uploaded j n audio ∈ tr)
    (again : .uploaded j n' audio' ∈ tr) :
    n = n' ∧ audio = audio' := by
  have same := List.inj_on_of_nodup_map (uploads_drawn h).1 (mem_uploads.mpr told)
    (mem_uploads.mpr again) rfl
  simpa using same

/-! ### What a waiting request can count on -/

/-- Of the clone request for the name that waits for the latents of the file: its id and its
upload, which the file still holds, and what the replies to it are made of. -/
structure Waits (scfg : SpeakerConfig) (computes : List UInt8 → ModelOutcome → Prop)
    (tr : List CloneObs) (s : CloneState) (n : SpeakerName) (tmp : Component) (j : JobId)
    (audio : List UInt8) : Prop where
  id : s.jobIds tmp = some j
  told : .uploaded j n audio ∈ tr
  file : s.speakers.store.disk.node (scfg.dir.tmpFile tmp) = some (.file (.audio audio))
  asked : ∃ q, .computeLatents ⟨j, scfg.dir.tmpPath tmp, q⟩ ∈ requests (served tr)
  replies : ∀ w r m, .replied w r m ∈ served tr → r.jobId = j →
    ∃ outcome, computes audio outcome ∧ m = closingMessage r outcome

/-- No two waiting requests have one file, and each can count on its own. -/
structure Uploaded (scfg : SpeakerConfig) (computes : List UInt8 → ModelOutcome → Prop)
    (tr : List CloneObs) (s : CloneState) : Prop where
  apart : (s.speakers.computing.map Prod.snd).Nodup
  waits : ∀ n tmp, (n, tmp) ∈ s.speakers.computing → ∃ j audio,
    Waits scfg computes tr s n tmp j audio

variable {n : SpeakerName} {tmp : Component} {j : JobId} {audio : List UInt8}

private theorem Waits.next (h : Waits scfg computes tr s n tmp j audio)
    (id : t.jobIds tmp = s.jobIds tmp)
    (file : ∀ x, s.speakers.store.disk.node (scfg.dir.tmpFile tmp) = some x →
      t.speakers.store.disk.node (scfg.dir.tmpFile tmp) = some x)
    (replies : ∀ w r m, .replied w r m ∈ served o → r.jobId = j →
      ∃ outcome, computes audio outcome ∧ m = closingMessage r outcome) :
    Waits scfg computes (tr ++ o) t n tmp j audio where
  id := id.trans h.id
  told := List.mem_append_left o h.told
  file := file _ h.file
  asked := by
    obtain ⟨q, known⟩ := h.asked
    refine ⟨q, ?_⟩
    rw [served_append, requests, List.filterMap_append]
    exact List.mem_append_left _ known
  replies w r m told own := by
    rw [served_append, List.mem_append] at told
    rcases told with old | new
    · exact h.replies w r m old own
    · exact replies w r m new own

private theorem Waits.replies_step (h : Waits scfg computes tr s n tmp j audio)
    (before : Reach (cloneServer cfg scfg store) (computesFromFile scfg computes) tr s)
    (meets : computesFromFile scfg computes s e) (taken : cloneStep cfg scfg s e = some (t, o))
    (w : WorkerRef) (r : Request) (m : Message) (told : .replied w r m ∈ served o)
    (own : r.jobId = j) : ∃ outcome, computes audio outcome ∧ m = closingMessage r outcome := by
  have visit := visit_of_reach (reach_served (before.tail meets taken))
  rw [served_append] at visit
  obtain ⟨q, asked⟩ := h.asked
  have known : .computeLatents ⟨j, scfg.dir.tmpPath tmp, q⟩ ∈ requests (served tr ++ served o) := by
    rw [requests, List.filterMap_append]
    exact List.mem_append_left _ asked
  obtain rfl : r = .computeLatents ⟨j, scfg.dir.tmpPath tmp, q⟩ :=
    request_of_id visit (replied_known visit (List.mem_append_right _ told)) known own
  -- only a step of the worker makes a reply
  have of_step {event : Event} {server : State} {o' : List Obs}
      (stepped : step cfg s.server event = some (server, o'))
      (told : .replied w (.computeLatents ⟨j, scfg.dir.tmpPath tmp, q⟩) m ∈ o') :
      ∃ outcome, event = .workerReply w outcome ∧
        (s.server.processes w).current = some (.computeLatents ⟨j, scfg.dir.tmpPath tmp, q⟩) ∧
        m = closingMessage (.computeLatents ⟨j, scfg.dir.tmpPath tmp, q⟩) outcome := by
    rcases reply_of_step stepped told with found | ⟨r', stream⟩
    · exact found
    · cases stream
  cases cloneStep_cases taken with
  | @server event server o' other stepped =>
    obtain ⟨outcome, rfl, current, closes⟩ := of_step stepped (by simpa using told)
    refine ⟨outcome, ?_, closes⟩
    rw [computesFromFile] at meets
    simp only [current] at meets
    refine meets tmp (FileTree.mem_children.mpr ?_) rfl audio ?_
    · rw [show scfg.dir.root ++ [tmpDir] ++ [tmp] = scfg.dir.tmpFile tmp from rfl, h.file]
      exact Option.some_ne_none _
    · rw [SpeakersDir.upload?, FileTree.read_eq_some_iff.mpr h.file]
      rfl
  | speakers | refused => simp at told
  | uploaded _ _ stepped =>
    obtain ⟨_, other, -⟩ := of_step stepped (by simpa using told)
    cases other
  | undispatched _ _ _ stepped =>
    obtain ⟨_, other, -⟩ := of_step stepped (by simpa using told)
    cases other
  | finished _ _ _ stepped =>
    obtain ⟨_, other, -⟩ := of_step stepped (by simpa using told)
    cases other

private theorem Uploaded.fewer (h : Uploaded scfg computes tr s)
    (before : Reach (cloneServer cfg scfg store) (computesFromFile scfg computes) tr s)
    (meets : computesFromFile scfg computes s e) (taken : cloneStep cfg scfg s e = some (t, o))
    (fewer : t.speakers.computing.Sublist s.speakers.computing) (ids : t.jobIds = s.jobIds)
    (files : ∀ p ∈ t.speakers.computing, ∀ x,
      s.speakers.store.disk.node (scfg.dir.tmpFile p.2) = some x →
        t.speakers.store.disk.node (scfg.dir.tmpFile p.2) = some x) :
    Uploaded scfg computes (tr ++ o) t := by
  refine ⟨h.apart.sublist (fewer.map Prod.snd), fun n tmp member => ?_⟩
  obtain ⟨j, audio, waits⟩ := h.waits n tmp (fewer.subset member)
  exact ⟨j, audio, waits.next (by rw [ids]) (files _ member)
    (waits.replies_step before meets taken)⟩

/-- A request begins to wait, under a fresh id and with a file of its own. -/
private theorem Uploaded.more (h : Uploaded scfg computes tr s)
    (before : Reach (cloneServer cfg scfg store) (computesFromFile scfg computes) tr s) {i : Nat}
    {fails : Bool} {speakers : SpeakerState} {server : State} {o : List Obs} {task : Task}
    (waiting : s.speakers.clones[i]? = some (.uploading n))
    (stored : Uploads scfg s.speakers i audio tmp speakers [])
    (stepped : step cfg s.server (.computeLatents j (scfg.dir.tmpPath tmp)) = some (server, o))
    (asked : server.tasks j = some task)
    (taken : cloneStep cfg scfg s (.upload i audio tmp fails j) =
      some (⟨server, speakers, Function.update s.jobIds tmp (some j)⟩,
        .uploaded j n audio :: o.map .server)) :
    Uploaded scfg computes (tr ++ .uploaded j n audio :: o.map .server)
      ⟨server, speakers, Function.update s.jobIds tmp (some j)⟩ := by
  have visit := visit_of_reach (reach_served before)
  obtain ⟨clones, free, here⟩ := stored.here waiting
  have perm : speakers.computing.Perm ((n, tmp) :: s.speakers.computing) := by
    rw [SpeakerState.computing, clones]
    exact computing_set_perm waiting
  -- a request that waits has its file, and this one was not there
  have apart : ∀ m tmp', (m, tmp') ∈ s.speakers.computing → tmp' ≠ tmp := by
    rintro m tmp' member rfl
    obtain ⟨_, _, waits⟩ := h.waits m tmp' member
    have there := waits.file
    rw [free] at there
    cases there
  obtain ⟨fresh, -, made⟩ := step_computeLatents stepped
  obtain ⟨w, rfl⟩ : ∃ w, o = [.dispatched
      (.computeLatents ⟨j, scfg.dir.tmpPath tmp, s.server.nextQueue⟩) w] := by
    refine made.resolve_right fun none => ?_
    rw [none.2, tasks_of_fresh visit (placed visit) fresh] at asked
    cases asked
  refine ⟨?_, fun m tmp' member => ?_⟩
  · refine (perm.map Prod.snd).nodup_iff.mpr (List.nodup_cons.mpr ⟨fun member => ?_, h.apart⟩)
    obtain ⟨⟨m, tmp'⟩, there, same⟩ := List.mem_map.mp member
    exact apart m tmp' there same
  · rcases List.mem_cons.mp (perm.subset member) with new | old
    · obtain ⟨rfl, rfl⟩ := Prod.mk.inj new
      refine ⟨j, audio, Function.update_self .., by simp, here, ⟨s.server.nextQueue, ?_⟩, ?_⟩
      · rw [served_append, served_uploaded, served_server, requests, List.filterMap_append]
        exact List.mem_append_right _ List.mem_cons_self
      · intro w' r m' told own
        have replied : .replied w' r m' ∈ served tr := by
          rw [served_append, served_uploaded, served_server] at told
          simpa using told
        exact absurd ((registered visit).drawn r (replied_known visit replied)) (own ▸ fresh.2)
    · obtain ⟨k, audio', waits⟩ := h.waits m tmp' old
      refine ⟨k, audio', waits.next (Function.update_of_ne (apart m tmp' old) ..)
        (fun x there => stored.kept there) (waits.replies_step before ?_ taken)⟩
      trivial

theorem uploaded_of_reach
    (h : Reach (cloneServer cfg scfg store) (computesFromFile scfg computes) tr s) :
    Uploaded scfg computes tr s := by
  induction h with
  | refl => exact ⟨List.nodup_nil, fun n tmp none => by cases none⟩
  | @tail s t tr o e before meets taken ih =>
    have fewer := ih.fewer before meets taken
    cases cloneStep_cases taken with
    | server other stepped => exact fewer (List.Sublist.refl _) rfl fun _ _ _ => id
    | speakers other stepped =>
      have leaves := leavesClones_of_step stepped other
      refine fewer (leaves.computing ▸ List.Sublist.refl _) rfl fun p _ x there => ?_
      exact (leaves.uploads p.2).trans there
    | refused spoken ended =>
      refine fewer ?_ rfl fun p _ x there => ended.kept there
      rw [SpeakerState.computing, ended.ended spoken]
      exact computing_erase_sublist ..
    | uploaded waiting stored stepped asked =>
      exact ih.more before waiting stored stepped asked taken
    | undispatched e waiting stored stepped =>
      refine fewer ?_ rfl fun p _ x there => stored.kept there
      rw [SpeakerState.computing, (stored.here waiting).1, List.eraseIdx_set_eq]
      exact computing_erase_sublist ..
    | @finished i n tmp _ _ _ _ _ _ _ _ _ speakers _ waiting id task stepped value goesOn =>
      have perm := (computing_perm waiting).map Prod.snd
      have others :
          ∀ p ∈ (s.speakers.clones.eraseIdx i).filterMap CloneTask.computing?, p.2 ≠ tmp :=
        fun p member same => (List.nodup_cons.mp (perm.nodup_iff.mpr ih.apart)).1
          (List.mem_map.mpr ⟨p, member, same⟩)
      rcases SpeakerState.goOn_cases goesOn with ⟨latents, -, ends⟩ | ⟨exc, rfl, -⟩
      · have clones : speakers.clones = s.speakers.clones.eraseIdx i := by
          cases ends <;> rfl
        refine fewer ?_ rfl fun p member x there => ?_
        · rw [SpeakerState.computing, clones]
          exact computing_erase_sublist ..
        · rw [SpeakerState.computing, clones] at member
          exact (ends.kept waiting (others p member)).2.trans there
      · exact fewer (computing_erase_sublist ..) rfl fun _ _ _ there => there

end XttsServer.Model
