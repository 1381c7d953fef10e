import XttsServer.Guarantees.Slots
import XttsServer.Guarantees.SpeakerPaths
import XttsServer.Runs.Clones

/-!
Registering a name is exclusive: whatever else runs while a clone request waits for
its latents, it registers its speaker only where there is none, and then no other
does until a deletion.
-/

set_option autoImplicit false
set_option relaxedAutoImplicit false

namespace XttsServer.Guarantees

open XttsServer.Model XttsServer.Foundations XttsServer.Foundations.Transition

variable {cfg : Config} {scfg : SpeakerConfig} {computes : List UInt8 → ModelOutcome → Prop}
  {store : SpeakerStore} {s t : CloneState} {e : CloneEvent} {o tr : List CloneObs}
  {n : SpeakerName} {j : JobId}

@[simp] def winner? (n : SpeakerName) : CloneObs → Option JobId
  | .cloned j m (.answered (.ok _)) => if m.name = n.name then some j else none
  | _ => none

/-- The clone requests for the name that are answered 201. -/
def winners (n : SpeakerName) (tr : List CloneObs) : List JobId := tr.filterMap (winner? n)

/-- No DELETE of the name finds its directory. -/
def keeps (scfg : SpeakerConfig) (n : SpeakerName) (s : CloneState) : CloneEvent → Prop
  | .speakers event => event.deletes scfg s.speakers n = false
  | _ => True

instance (scfg : SpeakerConfig) (n : SpeakerName) (s : CloneState) (e : CloneEvent) :
    Decidable (keeps scfg n s e) := by
  unfold keeps
  split <;> infer_instance

def ofCloneRequest : CloneEvent → Bool
  | .speakers (.cloneSpeaker _) => true
  | .upload _ _ _ _ _ => true
  | .finish _ _ _ => true
  | _ => false

/-- What can be said of the clone requests of any server that has come to this state. -/
structure Exclusive (cfg : Config) (scfg : SpeakerConfig) (store : SpeakerStore)
    (computes : List UInt8 → ModelOutcome → Prop) (tr : List CloneObs) (s : CloneState) : Prop where
  /-- `register` is called by a clone request, and only for a name that does not exist. -/
  free : ∀ e t o, cloneStep cfg scfg s e = some (t, o) → (∀ dir, .speakers (.writing dir) ∉ o) ∧
    ∀ j n dir, .cloned j n (.writing dir) ∈ o →
      dir = scfg.dir.speakerDir n ∧ s.speakers.store.exists scfg.dir n.name = false
  /-- A clone request is answered 201 for its own name, or with an error. -/
  answers : ∀ e t o, cloneStep cfg scfg s e = some (t, o) → ofCloneRequest e = true →
    (∀ a, .speakers (.answered a) ∈ o → ∃ exc, a = .error exc) ∧
    ∀ j n a, .cloned j n (.answered a) ∈ o →
      (∃ exc, a = .error exc) ∨ ∃ createdAt text, a = .ok (.created n.name createdAt text)
  /-- Up to a DELETE that finds the directory at most one is answered 201 for the name. -/
  once : ∀ n tr' t, Run (cloneServer cfg scfg store) (keeps scfg n) s tr' t →
    (winners n tr').length ≤ 1
  /-- What `get` returns in such a run is what a worker has computed from this request's own
  upload. -/
  own : ∀ n tr' t, Run (cloneServer cfg scfg store)
      (fun s e => keeps scfg n s e ∧ computesFromFile scfg computes s e) s tr' t →
    ∀ j ∈ winners n tr', ∃ audio record, .uploaded j n audio ∈ tr ++ tr' ∧
      (∀ m audio', .uploaded j m audio' ∈ tr ++ tr' → n = m ∧ audio = audio') ∧
      computes audio (.arrays record.gptCondLatent record.speakerEmbedding) ∧
      (t.speakers.store.get scfg.dir n.name).2 = .ok record ∧
      ∀ record' origin, .speakers (.got n.name record' origin) ∈ tr' → record' = record

/-! ### What one step shows -/

section steps

variable {s s' : SpeakerState} {event : SpeakerEvent} {o : List SpeakerObs} {i : Nat}
  {m : SpeakerName}

private theorem exists_silent (s : SpeakerState) (n : SpeakerName) :
    (∀ dir, .writing dir ∉ (s.exists scfg n).1) ∧ ∀ a, .answered a ∉ (s.exists scfg n).1 := by
  rw [SpeakerState.exists]
  dsimp only
  split_ifs <;> simp

private theorem get_silent (s : SpeakerState) (name : String) (dir : List Component) :
    .writing dir ∉ (s.get scfg name).1.2 := by
  rcases s.get_cases scfg name with
    ⟨record, -, same⟩ | ⟨record, p, -, -, -, same⟩ | ⟨e, -, same⟩ <;>
    simp [same]

private theorem not_writing_of_step (h : speakerStep scfg s event = some (s', o))
    (other : event.ofClone = false) (dir : List Component) : .writing dir ∉ o := by
  cases event with
  | resolve speaker =>
    cases speaker with
    | name name =>
      obtain ⟨answer, same⟩ := s.resolve_name scfg name
      obtain ⟨rfl, rfl⟩ := Prod.mk.inj (same.symm.trans (Option.some.inj h))
      simpa using get_silent s name dir
    | embedding rows emb =>
      obtain ⟨rfl, rfl⟩ := Prod.mk.inj (Option.some.inj h)
      simp
  | getSpeaker name =>
    obtain ⟨rfl, rfl⟩ := Prod.mk.inj (Option.some.inj h)
    split
    · simp [SpeakerState.fail]
    · dsimp only
      split <;> simpa using get_silent s _ dir
  | deleteSpeaker name gone => cases SpeakerState.deleteSpeaker_cases h <;> simp
  | listSpeakers =>
    obtain ⟨rfl, rfl⟩ := Prod.mk.inj (Option.some.inj h)
    split <;> simp [SpeakerState.fail]
  | cloneSpeaker name =>
    obtain ⟨rfl, rfl⟩ := Prod.mk.inj (Option.some.inj h)
    split
    · simp [SpeakerState.fail]
    · dsimp only
      split_ifs <;> simp [(exists_silent s _).1 dir]
  | _ => cases other

private theorem cached_of_get {key name : String} {record : SpeakerRecord} {origin : List Component}
    (told : .got name record origin ∈ (s.get scfg key).1.2) :
    (s.get scfg key).1.1.store.cache.get? name = some record := by
  rcases s.get_cases scfg key with ⟨found, cached, same⟩ | ⟨found, p, -, -, -, same⟩ | ⟨e, -, same⟩
  · rw [same] at told ⊢
    obtain ⟨rfl, rfl, -⟩ : name = key ∧ record = found ∧ origin = s.origin key := by
      simpa using told
    exact cached
  · rw [same] at told ⊢
    obtain ⟨rfl, rfl, -⟩ : name = key ∧ record = found ∧ origin = p := by simpa using told
    exact (Dict.get?_set ..).trans (if_pos rfl)
  · simp [same] at told

/-- What `get` has returned is in memory after the step. -/
private theorem cached_of_got (h : speakerStep scfg s event = some (s', o))
    (other : event.ofClone = false) {name : String} {record : SpeakerRecord}
    {origin : List Component} (told : .got name record origin ∈ o) :
    s'.store.cache.get? name = some record := by
  cases event with
  | resolve speaker =>
    cases speaker with
    | name key =>
      obtain ⟨answer, same⟩ := s.resolve_name scfg key
      obtain ⟨rfl, rfl⟩ := Prod.mk.inj (same.symm.trans (Option.some.inj h))
      exact cached_of_get (by simpa using told)
    | embedding rows emb =>
      obtain ⟨rfl, rfl⟩ := Prod.mk.inj (Option.some.inj h)
      simp at told
  | getSpeaker key =>
    obtain ⟨rfl, rfl⟩ := Prod.mk.inj (Option.some.inj h)
    split at told
    · simp [SpeakerState.fail] at told
    · dsimp only at told ⊢
      split at told <;> exact cached_of_get (by simpa using told)
  | deleteSpeaker key gone => cases SpeakerState.deleteSpeaker_cases h <;> simp at told
  | listSpeakers =>
    obtain ⟨rfl, rfl⟩ := Prod.mk.inj (Option.some.inj h)
    split at told <;> simp [SpeakerState.fail] at told
  | cloneSpeaker key =>
    obtain ⟨rfl, rfl⟩ := Prod.mk.inj (Option.some.inj h)
    split at told
    · simp [SpeakerState.fail] at told
    · rename_i n checked
      have asked : .got name record origin ∉ (s.exists scfg n).1 := by
        rw [SpeakerState.exists]
        dsimp only
        split_ifs <;> simp
      dsimp only at told
      split_ifs at told <;> simp [asked] at told
  | _ => cases other

private theorem free_of_ends {latents : LatentsResult} {createdAt : String} {tmp : Component}
    (h : CloneEnds scfg s i latents createdAt s' o)
    (waiting : s.clones[i]? = some (.computing n tmp)) {dir : List Component}
    (writes : .writing dir ∈ o) :
    dir = scfg.dir.speakerDir n ∧ s.store.exists scfg.dir n.name = false := by
  cases h with
  | failed => simp at writes
  | @taken m => simp [(exists_silent s m).1 dir] at writes
  | @raised m _ _ _ _ _ waiting' _ free =>
    obtain ⟨rfl, -⟩ : n = m ∧ tmp = _ := by simpa using waiting.symm.trans waiting'
    simp [(exists_silent s n).1 dir] at writes
    exact ⟨writes, free⟩
  | @registered m _ _ _ _ _ waiting' free =>
    obtain ⟨rfl, -⟩ : n = m ∧ tmp = _ := by simpa using waiting.symm.trans waiting'
    simp [(exists_silent s n).1 dir] at writes
    exact ⟨writes, free⟩

private theorem answer_of_ends {latents : LatentsResult} {createdAt : String} {tmp : Component}
    (h : CloneEnds scfg s i latents createdAt s' o)
    (waiting : s.clones[i]? = some (.computing n tmp)) {a : Except Exc SpeakerAnswer}
    (told : .answered a ∈ o) :
    (∃ exc, a = .error exc) ∨ ∃ createdAt text, a = .ok (.created n.name createdAt text) := by
  cases h with
  | failed => exact .inl ⟨_, by simpa using told⟩
  | @taken m => exact .inl ⟨_, by simpa [(exists_silent s m).2 a] using told⟩
  | @raised m => exact .inl ⟨_, by simpa [(exists_silent s m).2 a] using told⟩
  | @registered m _ _ _ _ _ waiting' =>
    obtain ⟨rfl, -⟩ : n = m ∧ tmp = _ := by simpa using waiting.symm.trans waiting'
    exact .inr ⟨_, _, by simpa [(exists_silent s n).2 a] using told⟩

end steps

private theorem mem_finished {k : JobId} {m : SpeakerName} {o : List Obs} {o' : List SpeakerObs}
    {x : SpeakerObs} : .cloned j n x ∈ o.map CloneObs.server ++ o'.map (.cloned k m) ↔
      x ∈ o' ∧ k = j ∧ m = n := by
  simp

private theorem free_of_step (taken : cloneStep cfg scfg s e = some (t, o)) :
    (∀ dir, .speakers (.writing dir) ∉ o) ∧ ∀ j n dir, .cloned j n (.writing dir) ∈ o →
      dir = scfg.dir.speakerDir n ∧ s.speakers.store.exists scfg.dir n.name = false := by
  cases cloneStep_cases taken with
  | server => exact ⟨by simp, by simp⟩
  | speakers other stepped =>
    exact ⟨fun dir => by simpa using not_writing_of_step stepped other dir, by simp⟩
  | refused spoken ended => exact ⟨by cases ended <;> simp, by simp⟩
  | uploaded => exact ⟨by simp, by simp⟩
  | undispatched => exact ⟨by simp, by simp⟩
  | finished waiting id task stepped value goesOn =>
    refine ⟨by simp, fun j n dir writes => ?_⟩
    obtain ⟨here, rfl, rfl⟩ := mem_finished.mp writes
    rcases SpeakerState.goOn_cases goesOn with ⟨latents, -, ends⟩ | ⟨exc, -, rfl⟩
    · exact free_of_ends ends waiting here
    · simp at here

private theorem answers_of_step (taken : cloneStep cfg scfg s e = some (t, o))
    (request : ofCloneRequest e = true) :
    (∀ a, .speakers (.answered a) ∈ o → ∃ exc, a = .error exc) ∧
    ∀ j n a, .cloned j n (.answered a) ∈ o →
      (∃ exc, a = .error exc) ∨ ∃ createdAt text, a = .ok (.created n.name createdAt text) := by
  cases cloneStep_cases taken with
  | server => cases request
  | @speakers event speakers o other stepped =>
    refine ⟨fun a told => ?_, by simp⟩
    cases event with
    | cloneSpeaker name =>
      have told : .answered a ∈ o := by simpa using told
      obtain ⟨rfl, rfl⟩ := Prod.mk.inj (Option.some.inj stepped)
      split at told
      · exact ⟨_, by simpa [SpeakerState.fail] using told⟩
      · dsimp only at told
        split_ifs at told
        · exact ⟨_, by simpa [(exists_silent s.speakers _).2 a] using told⟩
        · exact absurd told ((exists_silent s.speakers _).2 a)
    | _ => cases request
  | refused spoken ended =>
    refine ⟨fun a told => ?_, by simp⟩
    cases ended with
    | refused | failed => exact ⟨_, by simpa using told⟩
    | stored => exact absurd rfl spoken
  | uploaded => exact ⟨by simp, by simp⟩
  | @undispatched _ m _ _ _ k _ _ _ exc =>
    refine ⟨by simp, fun j n a told => .inl ⟨exc, ?_⟩⟩
    have told : j = k ∧ n = m ∧ a = .error exc := by simpa using told
    exact told.2.2
  | finished waiting id task stepped value goesOn =>
    refine ⟨by simp, fun j n a told => ?_⟩
    obtain ⟨here, rfl, rfl⟩ := mem_finished.mp told
    rcases SpeakerState.goOn_cases goesOn with ⟨latents, -, ends⟩ | ⟨exc, -, rfl⟩
    · exact answer_of_ends ends waiting here
    · exact .inl ⟨exc, by simpa using here⟩

/-! ### The winner -/

@[simp] theorem winners_append (n : SpeakerName) (tr o : List CloneObs) :
    winners n (tr ++ o) = winners n tr ++ winners n o := List.filterMap_append

@[simp] theorem winners_uploaded (n m : SpeakerName) (audio : List UInt8) (o : List CloneObs) :
    winners n (.uploaded j m audio :: o) = winners n o := rfl

@[simp] theorem winners_server (n : SpeakerName) (o : List Obs) :
    winners n (o.map .server) = [] := by
  simp [winners, List.filterMap_map, Function.comp_def]

@[simp] theorem winners_speakers (n : SpeakerName) (o : List SpeakerObs) :
    winners n (o.map .speakers) = [] := by
  simp [winners, List.filterMap_map, Function.comp_def]

/-- The step answers the clone request with this id 201, for a name that did not exist, and leaves
the arrays of the worker's reply in memory. -/
structure Wins (cfg : Config) (scfg : SpeakerConfig) (s t : CloneState) (n : SpeakerName)
    (tmp : Component) (j : JobId) (record : SpeakerRecord) : Prop where
  waiting : (n, tmp) ∈ s.speakers.computing
  id : s.jobIds tmp = some j
  free : s.speakers.store.exists scfg.dir n.name = false
  reply : ∃ w r latents, s.server.tasks j = some (.clone w r (.got (.item (.latents latents)))) ∧
    latents.gptCondLatent = some record.gptCondLatent ∧
    latents.speakerEmbedding = some record.speakerEmbedding
  cached : t.speakers.store.cache.get? n.name = some record

private theorem winners_silent {m : SpeakerName} {o : List SpeakerObs}
    (failed : ∀ a, .answered (.ok a) ∉ o) : winners n (o.map (.cloned j m)) = [] := by
  rw [winners, List.filterMap_map, List.filterMap_eq_nil_iff]
  intro x member
  cases x with
  | answered a =>
    cases a with
    | ok a => exact absurd member (failed a)
    | error e => rfl
  | _ => rfl

private theorem winners_of_step (taken : cloneStep cfg scfg s e = some (t, o)) :
    winners n o = [] ∨ ∃ tmp j record, winners n o = [j] ∧ Wins cfg scfg s t n tmp j record := by
  cases cloneStep_cases taken with
  | server | speakers | refused | uploaded => exact .inl (by simp)
  | undispatched => exact .inl (by simp; rfl)
  | @finished i m tmp createdAt stops jobId w r outcome server o' result speakers o''
      waiting id task stepped value goesOn =>
    rw [winners_append, winners_server, List.nil_append]
    rcases SpeakerState.goOn_cases goesOn with ⟨latents, rfl, ends⟩ | ⟨exc, -, rfl⟩
    · cases ends with
      | failed => exact .inl (winners_silent (by simp))
      | @taken k => exact .inl (winners_silent (by simp [(exists_silent s.speakers k).2]))
      | @raised k => exact .inl (winners_silent (by simp [(exists_silent s.speakers k).2]))
      | @registered k tmp' gpt emb disk text waiting' free well first second ran =>
        obtain ⟨rfl, rfl⟩ : m = k ∧ tmp = tmp' := by simpa using waiting.symm.trans waiting'
        have asked : winners n ((s.speakers.exists scfg m).1.map (.cloned jobId m)) = [] :=
          winners_silent (by simp [(exists_silent s.speakers m).2])
        by_cases own : m.name = n.name
        · obtain rfl : m = n := eq_of_name own
          refine .inr ⟨tmp, jobId, registeredRecord scfg.dir
            (cloneRegistration scfg m tmp gpt emb createdAt), ?_, ?_⟩
          · rw [List.map_append, winners_append, asked]
            simp [winners]
          · refine ⟨List.mem_filterMap.mpr ⟨_, List.mem_of_getElem? waiting, rfl⟩, id, free, ?_, ?_⟩
            · refine ⟨w, r, latents, ?_, first, second⟩
              cases outcome with
              | item message =>
                cases message with
                | latents found =>
                  obtain rfl : found = latents := by simpa [computedLatents] using value
                  exact task
                | _ => cases value
              | empty =>
                obtain rfl : _ = latents := by simpa [computedLatents] using value
                cases first
              | error text => cases value
            · dsimp only
              rw [removeTmp_cache, Dict.get?_set, if_pos rfl]
        · refine .inl ?_
          rw [List.map_append, winners_append, asked]
          simp [winners, own]
    · exact .inl (winners_silent (by simp))

/-- A name that has its record in memory is not registered again, and only a DELETE that finds the
directory takes the record away. -/
private theorem cached_of_step {record : SpeakerRecord} (kept : keeps scfg n s e)
    (cached : s.speakers.store.cache.get? n.name = some record)
    (taken : cloneStep cfg scfg s e = some (t, o)) :
    t.speakers.store.cache.get? n.name = some record ∧ winners n o = [] := by
  have taken_name : s.speakers.store.exists scfg.dir n.name = true := by
    rw [SpeakerStore.exists, cached]
    rfl
  refine ⟨?_, (winners_of_step taken).resolve_right ?_⟩
  · cases cloneStep_cases taken with
    | server => exact cached
    | speakers other stepped =>
      exact (leavesClones_of_step stepped other).cached n record kept cached
    | refused spoken ended => exact ended.cache ▸ cached
    | uploaded waiting stored => exact stored.cache ▸ cached
    | undispatched _ waiting stored => exact stored.cache ▸ cached
    | finished waiting id task stepped value goesOn =>
      rcases SpeakerState.goOn_cases goesOn with ⟨latents, -, ends⟩ | ⟨exc, rfl, -⟩
      · cases ends with
        | failed | taken | raised => exact cached
        | @registered m _ _ _ _ _ _ free =>
          dsimp only
          rw [removeTmp_cache, Dict.get?_set, if_neg]
          · exact cached
          · intro same
            rw [← same, taken_name] at free
            cases free
      · exact cached
  · rintro ⟨tmp, j, record', -, wins⟩
    rw [wins.free] at taken_name
    cases taken_name

def Got (n : SpeakerName) (record : SpeakerRecord) (tr : List CloneObs) : Prop :=
  ∃ origin, .speakers (.got n.name record origin) ∈ tr

private theorem got_append {record : SpeakerRecord} (h : Got n record (tr ++ o)) :
    Got n record tr ∨ Got n record o := by
  obtain ⟨origin, told⟩ := h
  exact (List.mem_append.mp told).imp (fun old => ⟨origin, old⟩) fun new => ⟨origin, new⟩

private theorem cached_of_cloneStep {record : SpeakerRecord}
    (taken : cloneStep cfg scfg s e = some (t, o)) (got : Got n record o) :
    t.speakers.store.cache.get? n.name = some record := by
  obtain ⟨origin, told⟩ := got
  cases cloneStep_cases taken with
  | speakers other stepped => exact cached_of_got stepped other (by simpa using told)
  | refused spoken ended => cases ended <;> simp at told
  | _ => simp at told

/-- A run without a DELETE that finds the directory answers no clone request 201, or one. What
`get` returns in it stays in memory. -/
private theorem winner_of_run {P : CloneState → CloneEvent → Prop}
    (kept : ∀ s e, P s e → keeps scfg n s e) (h : Run (cloneServer cfg scfg store) P s tr t) :
    (winners n tr = [] ∧
      ∀ record, Got n record tr → t.speakers.store.cache.get? n.name = some record) ∨
    ∃ tmp j record, winners n tr = [j] ∧ t.speakers.store.cache.get? n.name = some record ∧
      (∀ record', Got n record' tr → record' = record) ∧
      ∃ before a b, Run (cloneServer cfg scfg store) P s before a ∧ before <+: tr ∧
        Wins cfg scfg a b n tmp j record := by
  induction h with
  | refl => exact .inl ⟨rfl, fun record ⟨origin, told⟩ => by cases told⟩
  | @tail t u tr o e before meets taken ih =>
    rw [winners_append]
    have stays {record : SpeakerRecord}
        (cached : t.speakers.store.cache.get? n.name = some record) :=
      cached_of_step (kept t e meets) cached taken
    rcases ih with
      ⟨none, held⟩ | ⟨tmp, j, record, one, cached, all, earlier, a, b, run, below, wins⟩
    · rw [none, List.nil_append]
      rcases winners_of_step taken with still | ⟨tmp, j, record, one, wins⟩
      · refine .inl ⟨still, fun record got => ?_⟩
        rcases got_append got with old | new
        · exact (stays (held record old)).1
        · exact cached_of_cloneStep taken new
      · refine .inr ⟨tmp, j, record, one, wins.cached, fun record' got => ?_, tr, t, u, before,
          List.prefix_append _ _, wins⟩
        rcases got_append got with old | new
        · -- a record that was there would have kept the name from being registered
          rw [(stays (held record' old)).2] at one
          cases one
        · exact Option.some.inj ((cached_of_cloneStep taken new).symm.trans wins.cached)
    · obtain ⟨after, none⟩ := stays cached
      refine .inr ⟨tmp, j, record, by rw [one, none, List.append_nil], after, fun record' got => ?_,
        earlier, a, b, run, below.trans (List.prefix_append _ _), wins⟩
      rcases got_append got with old | new
      · exact all record' old
      · exact Option.some.inj ((cached_of_cloneStep taken new).symm.trans after)

private theorem arrays_of_closing {r : Request} {outcome : ModelOutcome} {latents : LatentsResult}
    {gpt emb : Ndarray} (closes : .latents latents = closingMessage r outcome)
    (first : latents.gptCondLatent = some gpt) (second : latents.speakerEmbedding = some emb) :
    outcome = .arrays gpt emb := by
  cases r with
  | computeLatents r =>
    cases outcome with
    | arrays gpt' emb' =>
      obtain rfl := Message.latents.inj closes
      rw [Option.some.inj first, Option.some.inj second]
    | raised text =>
      obtain rfl := Message.latents.inj closes
      cases first
  | _ => cases outcome <;> cases closes

/-- The arrays that a winner registers are made of its own upload. -/
private theorem own_of_wins {tmp : Component} {record : SpeakerRecord}
    (h : Reach (cloneServer cfg scfg store) (computesFromFile scfg computes) tr s)
    (wins : Wins cfg scfg s t n tmp j record) :
    ∃ audio, .uploaded j n audio ∈ tr ∧
      computes audio (.arrays record.gptCondLatent record.speakerEmbedding) := by
  obtain ⟨k, audio, waits⟩ := (uploaded_of_reach h).waits n tmp wins.waiting
  obtain rfl : j = k := by simpa using wins.id.symm.trans waits.id
  refine ⟨audio, waits.told, ?_⟩
  obtain ⟨w, r, latents, task, first, second⟩ := wins.reply
  have visit := visit_of_reach (reach_served h)
  obtain ⟨v, replied⟩ := tasks_heard visit j _ task
  obtain ⟨outcome, computed, closes⟩ := waits.replies v r _ replied (request_named visit task)
  exact arrays_of_closing closes first second ▸ computed

/-- Registering a name is exclusive until a DELETE finds its directory, even one that then
raises. -/
theorem registration_exclusive
    (h : Reach (cloneServer cfg scfg store) (computesFromFile scfg computes) tr s) :
    Exclusive cfg scfg store computes tr s where
  free _ _ _ taken := free_of_step taken
  answers _ _ _ taken request := answers_of_step taken request
  once n tr' t run := by
    rcases winner_of_run (fun _ _ => id) run with ⟨none, -⟩ | ⟨_, j, _, one, -⟩
    · rw [none]
      exact Nat.zero_le 1
    · rw [one]
      exact Nat.le_refl 1
  own n tr' t run j won := by
    have whole := h.trans (run.mono fun _ _ meets => meets.2)
    rcases winner_of_run (fun _ _ meets => meets.1) run with
      ⟨none, -⟩ | ⟨tmp, k, record, one, cached, all, before, a, b, earlier, below, wins⟩
    · rw [none] at won
      cases won
    · obtain rfl : j = k := by simpa [one] using won
      obtain ⟨audio, told, computed⟩ :=
        own_of_wins (h.trans (earlier.mono fun _ _ meets => meets.2)) wins
      have told' : .uploaded j n audio ∈ tr ++ tr' := by
        rcases List.mem_append.mp told with old | new
        · exact List.mem_append_left _ old
        · exact List.mem_append_right _ (below.subset new)
      refine ⟨audio, record, told', fun m audio' again => upload_of_id whole told' again, computed,
        ?_, fun record' origin got => all record' ⟨origin, got⟩⟩
      rw [SpeakerStore.get, cached]

/-! ### Runs of one worker -/

/-- A model whose latents are the length of the audio. -/
def lengthLatents (audio : List UInt8) : ModelOutcome :=
  .arrays ⟨[1, 1, 1], [audio.length.toUInt32]⟩ ⟨[1, 1, 1], [audio.length.toUInt32]⟩

/-- The worker computes the latents of the request with this id, and the parent gets them. -/
def latentsOf (j : JobId) (audio : List UInt8) : List CloneEvent :=
  [.server (.clonePut j), .server (.resume j), .server (.workerTake 0),
    .server (.workerReply 0 (lengthLatents audio)), .server (.getReply j)]

def firstWav : Component := ⟨"1.wav", by decide⟩

def secondWav : Component := ⟨"2.wav", by decide⟩

def aliceStore : SpeakerStore := ⟨aliceDisk, .empty⟩

/-- Two clone requests for one name, which both find it free. -/
def twoClones : List CloneEvent :=
  [.speakers (.cloneSpeaker "bob"), .speakers (.cloneSpeaker "bob"),
    .upload 0 [1, 2, 3] firstWav false "a", .upload 1 [4, 5] secondWav false "b"] ++
    latentsOf "a" [1, 2, 3] ++ latentsOf "b" [4, 5] ++ [.finish 1 "" none, .finish 0 "" none]

def cloneRun (s : CloneState) (events : List CloneEvent) : Option CloneEffect :=
  exec (cloneServer oneWorker speakersConfig aliceStore)
    (computesFromFile speakersConfig fun audio outcome => outcome = lengthLatents audio) s events

def cloneStart : CloneState := (cloneServer oneWorker speakersConfig aliceStore).init

private theorem twoClones_runs : (cloneRun cloneStart twoClones).isSome = true := by decide +kernel

private theorem bob_accepted : validateSpeakerName "bob" = .ok () := by decide +kernel

theorem registration_exclusive_two_clones :
    let run := (cloneRun cloneStart twoClones).get twoClones_runs
    Exclusive oneWorker speakersConfig aliceStore (fun audio outcome => outcome =
      lengthLatents audio)
        run.2 run.1 ∧
      winners ⟨"bob", bob_accepted⟩ run.2 = ["b"] :=
  ⟨registration_exclusive (reach_of_exec twoClones_runs), by decide +kernel⟩

@[simp] def deleted? : CloneObs → Option (List Component)
  | .speakers (.deleted dir) => some dir
  | _ => none

def deletions (tr : List CloneObs) : List (List Component) := tr.filterMap deleted?

def deleteAlice : List CloneEvent := [.speakers (.deleteSpeaker "alice" none)]

/-- Two clones, and between them a DELETE whose `shutil.rmtree` raises after it has removed the
latents. -/
def clonedTwice : List CloneEvent :=
  [.speakers (.cloneSpeaker "alice"), .upload 0 [1, 2, 3] firstWav false "a"] ++
    latentsOf "a" [1, 2, 3] ++ [.finish 0 "" none,
    .speakers (.deleteSpeaker "alice" (some [([], latentsNpz)])),
    .speakers (.cloneSpeaker "alice"), .upload 0 [4, 5] secondWav false "b"] ++
    latentsOf "b" [4, 5] ++ [.finish 0 "" none]

private theorem deleteAlice_runs : (cloneRun cloneStart deleteAlice).isSome = true := by
  decide +kernel

private theorem clonedTwice_runs :
    (cloneRun ((cloneRun cloneStart deleteAlice).get deleteAlice_runs).1
      clonedTwice).isSome = true := by
  decide +kernel

private theorem deleteAgain_runs : (cloneRun ((cloneRun ((cloneRun cloneStart deleteAlice).get
    deleteAlice_runs).1 clonedTwice).get clonedTwice_runs).1 deleteAlice).isSome = true := by
  decide +kernel

/-- Between two deletions that succeed two clones of the name are answered 201. -/
theorem registration_not_exclusive : ¬ ∀ cfg scfg store computes n tr s between t tr' u,
    Reach (cloneServer cfg scfg store) (computesFromFile scfg computes) tr s →
    scfg.dir.speakerDir n ∈ deletions tr →
    Run (cloneServer cfg scfg store) (computesFromFile scfg computes) s between t →
    scfg.dir.speakerDir n ∉ deletions between →
    Run (cloneServer cfg scfg store) (computesFromFile scfg computes) t tr' u →
    scfg.dir.speakerDir n ∈ deletions tr' → (winners n between).length ≤ 1 := by
  intro all
  have one :=
    all oneWorker speakersConfig aliceStore (fun audio outcome => outcome = lengthLatents audio)
      alice _ _ _ _ _ _ (reach_of_exec deleteAlice_runs) (by decide +kernel)
    (run_of_exec (Option.some_get clonedTwice_runs).symm) (by decide +kernel)
    (run_of_exec (Option.some_get deleteAgain_runs).symm) (by decide +kernel)
  revert one
  decide +kernel

end XttsServer.Guarantees
