import XttsServer.Runs.Advance

/-!
The server in its executor. What a step of the pool does, and that a run of it is
a run of the server in which the executor holds just the calls that are awaited.
-/

set_option autoImplicit false
set_option relaxedAutoImplicit false

namespace XttsServer.Model

open XttsServer.Foundations XttsServer.Foundations.Transition

variable {cfg : Config} {threads : Nat}

def keepsHandlers (_ : State) (e : Event) : Prop := e.cancelled = none

def uncancelled (_ : PoolState threads) : PoolEvent → Prop
  | .server e => e.cancelled = none
  | _ => True

instance : ∀ (s : PoolState threads) (e : PoolEvent), Decidable (uncancelled s e)
  | _, .server e => inferInstanceAs (Decidable (e.cancelled = none))
  | _, .start => inferInstanceAs (Decidable True)
  | _, .resumeSpeech _ => inferInstanceAs (Decidable True)
  | _, .encode _ _ => inferInstanceAs (Decidable True)
  | _, .abandoned _ => inferInstanceAs (Decidable True)

/-! ### What a step does -/

def SpeechPc.inThread : SpeechPc → Bool
  | .encoding _ _ => true
  | _ => false

variable {s s' : PoolState threads} {e : PoolEvent} {tr o : List PoolObs}

/-- What a step of the pool does when it cancels nothing. -/
inductive PoolChange (cfg : Config) (s s' : PoolState threads) : PoolEvent → List PoolObs → Prop
  | works {e : Event} {a : State} {o : List Obs} {c : Call} {t : ℚ}
      (taken : step cfg s.server e = some (a, o)) (thread : e.threadOf s.server = some c)
      (running : s.executor.started? c = some t) (inside : e.returns = false)
      (next : s' = { s with server := a }) : PoolChange cfg s s' (.server e) (o.map .server)
  | returns {e : Event} {a : State} {o : List Obs} {c : Call} {t : ℚ}
      (taken : step cfg s.server e = some (a, o)) (thread : e.threadOf s.server = some c)
      (running : s.executor.started? c = some t) (done : e.returns = true)
      (next : s' = { s with server := a, executor := s.executor.finish c }) :
      PoolChange cfg s s' (.server e) (o.map .server ++ [.returned c])
  | quiet {e : Event} {a : State} {o : List Obs} (taken : step cfg s.server e = some (a, o))
      (thread : e.threadOf s.server = none) (submitted : e.submitted a = none)
      (next : s' = { s with server := a, speech := openSpeech cfg s o e }) :
      PoolChange cfg s s' (.server e) (o.map .server)
  | submits {e : Event} {a : State} {o : List Obs} {c : Call}
      (taken : step cfg s.server e = some (a, o)) (thread : e.threadOf s.server = none)
      (submitted : e.submitted a = some c)
      (next : s' =
        { server := a, speech := openSpeech cfg s o e, executor := s.executor.submit c }) :
      PoolChange cfg s s' (.server e) (o.map .server ++ [.submitted c])
  | starts {c : Call} {executor : Executor Call ℚ threads}
      (start : s.executor.start s.server.now = some (c, executor))
      (next : s' = { s with executor }) : PoolChange cfg s s' .start [.started c]
  | answers {j : JobId} {speech : Speech} {answer : Except Exc SpeechAnswer}
      (here : s.speech j = some speech) (free : speech.pc.inThread = false)
      (next : s' = s.setSpeech j { speech with pc := .ended }) :
      PoolChange cfg s s' (.resumeSpeech j) [.speech j answer]
  | encodes {j : JobId} {speech : Speech} {ms : ℚ} {result : SynthesisResult}
      (here : s.speech j = some speech) (waits : speech.pc = .awaiting)
      (next : s' = { s.setSpeech j { speech with pc := .encoding ms result } with
        executor := s.executor.submit ⟨.encode, j⟩ }) :
      PoolChange cfg s s' (.resumeSpeech j) [.submitted ⟨.encode, j⟩]
  | encoded {j : JobId} {raised : Option String} {speech : Speech} {ms : ℚ}
      {result : SynthesisResult} {data : Except String AudioBytes} {t : ℚ}
      (here : s.speech j = some speech) (inside : speech.pc = .encoding ms result)
      (running : s.executor.started? ⟨.encode, j⟩ = some t)
      (next : s' = { s.setSpeech j { speech with pc := .encoded ms data } with
        executor := s.executor.finish ⟨.encode, j⟩ }) :
      PoolChange cfg s s' (.encode j raised) [.returned ⟨.encode, j⟩]
  | abandoned {j : JobId} {task : Task} {t : ℚ} (here : s.server.tasks j = some task)
      (left : task.getting? = none) (running : s.executor.started? ⟨.get, j⟩ = some t)
      (next : s' = { s with executor := s.executor.finish ⟨.get, j⟩ }) :
      PoolChange cfg s s' (.abandoned j) [.returned ⟨.get, j⟩]

private theorem serverStep_changes {e : Event} (kept : e.cancelled = none)
    (h : serverStep cfg s e = some (s', o)) : PoolChange cfg s s' (.server e) o := by
  unfold serverStep at h
  cases taken : step cfg s.server e with
  | none => simp [taken] at h
  | some effect =>
    obtain ⟨a, o'⟩ := effect
    simp only [taken, kept] at h
    cases thread : e.threadOf s.server with
    | some c =>
      simp only [thread] at h
      cases running : s.executor.started? c with
      | none => simp [running] at h
      | some t =>
        simp only [running] at h
        split_ifs at h with late done
        · obtain ⟨rfl, rfl⟩ := Prod.mk.inj (Option.some.inj h)
          exact .returns taken thread running done rfl
        · obtain ⟨rfl, rfl⟩ := Prod.mk.inj (Option.some.inj h)
          exact .works taken thread running (by simpa using done) rfl
    | none =>
      simp only [thread] at h
      cases submitted : e.submitted a with
      | none =>
        simp only [submitted] at h
        obtain ⟨rfl, rfl⟩ := Prod.mk.inj (Option.some.inj h)
        exact .quiet taken thread submitted rfl
      | some c =>
        simp only [submitted] at h
        obtain ⟨rfl, rfl⟩ := Prod.mk.inj (Option.some.inj h)
        exact .submits taken thread submitted rfl

private theorem resumeSpeech_changes {j : JobId} (h : resumeSpeech s j = some (s', o)) :
    PoolChange cfg s s' (.resumeSpeech j) o := by
  unfold resumeSpeech at h
  split at h
  · rename_i here
    split at h
    · cases h
    · dsimp only at h
      split_ifs at h
      · obtain ⟨rfl, rfl⟩ := Prod.mk.inj (Option.some.inj h)
        exact .answers here rfl rfl
      · obtain ⟨rfl, rfl⟩ := Prod.mk.inj (Option.some.inj h)
        exact .encodes here rfl rfl
  · rename_i here
    obtain ⟨rfl, rfl⟩ := Prod.mk.inj (Option.some.inj h)
    exact .answers here rfl rfl
  · rename_i here
    obtain ⟨rfl, rfl⟩ := Prod.mk.inj (Option.some.inj h)
    exact .answers here rfl rfl
  · cases h

private theorem encode_changes {j : JobId} {raised : Option String}
    (h : encode s j raised = some (s', o)) : PoolChange cfg s s' (.encode j raised) o := by
  unfold encode at h
  dsimp only at h
  split at h
  · rename_i here running
    split at h
    · obtain ⟨rfl, rfl⟩ := Prod.mk.inj (Option.some.inj h)
      exact .encoded here rfl running rfl
    · obtain ⟨rfl, rfl⟩ := Prod.mk.inj (Option.some.inj h)
      exact .encoded here rfl running rfl
    · cases h
  · cases h

theorem poolStep_changes (kept : uncancelled s e) (h : poolStep cfg s e = some (s', o)) :
    PoolChange cfg s s' e o := by
  cases e with
  | server e => exact serverStep_changes kept h
  | start =>
    change startCall s = _ at h
    unfold startCall at h
    split at h
    · rename_i start
      obtain ⟨rfl, rfl⟩ := Prod.mk.inj (Option.some.inj h)
      exact .starts start rfl
    · cases h
  | resumeSpeech j => exact resumeSpeech_changes h
  | encode j raised => exact encode_changes h
  | abandoned j =>
    change abandoned cfg s j = _ at h
    unfold abandoned at h
    dsimp only at h
    split at h
    · rename_i here running
      split_ifs at h with left
      obtain ⟨rfl, rfl⟩ := Prod.mk.inj (Option.some.inj h)
      exact .abandoned here (Option.isNone_iff_eq_none.mp left.1) running rfl
    · cases h

/-! ### Runs of the server -/

@[simp] theorem serverTrace_server (o : List Obs) : serverTrace (o.map .server) = o := by
  rw [serverTrace, List.filterMap_map]
  exact List.filterMap_some

theorem serverTrace_append (tr o : List PoolObs) :
    serverTrace (tr ++ o) = serverTrace tr ++ serverTrace o := List.filterMap_append

theorem server_reach (h : Reach (pooled cfg threads) uncancelled tr s) :
    Reach (server cfg) keepsHandlers (serverTrace tr) s.server := by
  induction h with
  | refl => exact .refl
  | @tail s s' tr o e before meets poolTaken ih =>
    have same : ∀ {o : List PoolObs}, serverTrace o = [] →
        Reach (server cfg) keepsHandlers (serverTrace (tr ++ o)) s.server := fun silent => by
      rwa [serverTrace_append, silent, List.append_nil]
    have more : ∀ {e : Event} {a : State} {o : List Obs} {o' : List PoolObs},
        e.cancelled = none → step cfg s.server e = some (a, o) → serverTrace o' = o →
        Reach (server cfg) keepsHandlers (serverTrace (tr ++ o')) a := fun kept taken told => by
      rw [serverTrace_append, told]
      exact Run.tail ih kept taken
    cases poolStep_changes meets poolTaken with
    | works taken _ _ _ next | quiet taken _ _ next =>
      subst next
      exact more meets taken (serverTrace_server _)
    | returns taken _ _ _ next | submits taken _ _ next =>
      subst next
      refine more meets taken ?_
      rw [serverTrace_append, serverTrace_server]
      exact List.append_nil _
    | starts _ next | answers _ _ next | encodes _ _ next | encoded _ _ _ next
    | abandoned _ _ _ next =>
      subst next
      exact same rfl

/-! ### The calls in the executor -/

/-- A `_run_synthesis` call waits for the call. -/
def PoolState.encodes (s : PoolState threads) (c : Call) : Prop :=
  c.kind = .encode ∧ ∃ speech, s.speech c.jobId = some speech ∧ speech.pc.inThread = true

@[simp] theorem speech_setSpeech (s : PoolState threads) (j k : JobId) (speech : Speech) :
    (s.setSpeech j speech).speech k = if k = j then some speech else s.speech k := by
  rw [PoolState.setSpeech]
  split_ifs with same
  · subst same
    exact Function.update_self ..
  · exact Function.update_of_ne same ..

private theorem encodes_setSpeech (s : PoolState threads) (j : JobId) (speech : Speech) (c : Call) :
    (s.setSpeech j speech).encodes c ↔
      if c = ⟨.encode, j⟩ then speech.pc.inThread = true else s.encodes c := by
  obtain ⟨k, i⟩ := c
  by_cases here : i = j
  · subst here
    by_cases encode : k = .encode <;> simp [PoolState.encodes, encode]
  · simp [PoolState.encodes, here]

private theorem awaits_kind {s : State} {c : Call} (h : s.awaits c) : c.kind ≠ .encode := by
  rcases h with drain | call
  · cases loop : s.drain with
    | putting item w =>
      rw [loop] at drain
      obtain rfl : (⟨.put, item.jobId⟩ : Call) = c := Option.some.inj drain
      simp
    | _ =>
      rw [loop] at drain
      cases drain
  · obtain ⟨k', waits, same⟩ := Option.map_eq_some_iff.mp call
    obtain ⟨t, -, kind⟩ := Option.bind_eq_some_iff.mp waits
    intro encode
    obtain rfl : k' = .encode := (congrArg Call.kind same).trans encode
    cases t with
    | collector w r cb at' pc => cases pc <;> simp [Task.call?] at kind
    | stream r pc => cases pc <;> simp [Task.call?] at kind
    | clone w r pc => cases pc <;> simp [Task.call?] at kind

/-- What the executor has to do with the rest of the server: it holds the calls that are awaited
and no other, whoever goes on from a `put` has seen it return, and the result that a
`_run_synthesis` call waits for is there or on its way. -/
structure Threaded (tr : List PoolObs) (s : PoolState threads) : Prop where
  calls : ∀ c, c ∈ s.executor.calls ↔ s.server.awaits c ∨ s.encodes c
  puts : ∀ j, s.server.wasPut j → .returned ⟨.put, j⟩ ∈ tr
  bridges : ∀ j speech, s.speech j = some speech → speech.pc = .awaiting → s.server.bridges j
  known : ∀ j, s.speech j ≠ none → ∃ r ∈ requests (serverTrace tr), r.jobId = j

theorem runSynthesis_accepts {a b : State} {o : List Obs} {body : TtsRequest}
    {speakers : SpeakerView} {j : JobId} (value : runSynthesis cfg a body speakers j = (b, o))
    {item : QueuedItem} (told : .accepted item ∈ o) :
    ∃ r, resolveTts cfg.settings speakers body = .ok r ∧
      item = jobItem a.now (r.toRequest j a.nextQueue) (.bridge j) ∧
      b = { makeQueue { a with used := j :: a.used } with queue := a.queue ++ [item] } := by
  simp only [runSynthesis, enqueue] at value
  split at value
  · obtain ⟨-, rfl⟩ := Prod.mk.inj value
    simp at told
  · rename_i r resolved
    by_cases full : queueFull cfg (makeQueue { a with used := j :: a.used }) = true
    · rw [if_pos full] at value
      obtain ⟨-, rfl⟩ := Prod.mk.inj value
      simp at told
    · rw [if_neg full] at value
      obtain ⟨rfl, rfl⟩ := Prod.mk.inj value
      obtain rfl : item = _ := Obs.accepted.inj (List.mem_singleton.mp told)
      exact ⟨r, resolved, rfl, rfl⟩

theorem runSynthesis_accepted {a b : State} {o : List Obs} {body : TtsRequest}
    {speakers : SpeakerView} {j : JobId}
    (taken : step cfg a (.runSynthesis body speakers j) = some (b, o)) {item : QueuedItem}
    (told : .accepted item ∈ o) :
    j ∉ a.used ∧ b.bridges j ∧ item.jobId = j := by
  simp only [step] at taken
  split_ifs at taken with fresh
  have unused : j ∉ a.used := by
    simp only [State.fresh, Bool.and_eq_true, decide_eq_true_eq, List.all_eq_true] at fresh
    exact (fresh.2 j List.mem_cons_self).2
  obtain ⟨r, -, rfl, rfl⟩ := runSynthesis_accepts (Option.some.inj taken) told
  exact ⟨unused, .inl ⟨_, List.mem_append_right _ (List.mem_append_right _
    List.mem_cons_self), rfl⟩, rfl⟩

private theorem openSpeech_cases (s : PoolState threads) (o : List Obs) (e : Event) :
    openSpeech cfg s o e = s.speech ∨ ∃ body speakers j speech item,
      e = .runSynthesis body speakers j ∧ .accepted item ∈ o ∧ speech.pc = .awaiting ∧
        openSpeech cfg s o e = Function.update s.speech j (some speech) := by
  unfold openSpeech
  split
  · rename_i body speakers j
    split_ifs with accepted
    · obtain ⟨x, told, kind⟩ := List.any_eq_true.mp accepted
      cases x with
      | accepted item => exact .inr ⟨body, speakers, j, _, item, rfl, told, rfl, rfl⟩
      | _ => cases kind
    · exact .inl rfl
  · exact .inl rfl

section Steps

variable (h : Reach (pooled cfg threads) uncancelled tr s) (ih : Threaded tr s)

include h ih

private theorem Threaded.spoken {e : Event} {a : State} {o : List Obs} (kept : e.cancelled = none)
    (taken : step cfg s.server e = some (a, o)) :
    (∀ j speech, s.speech j = some speech → speech.pc = .awaiting → a.bridges j) ∧
      ∀ j, s.speech j ≠ none → ∃ r ∈ requests (serverTrace tr ++ o), r.jobId = j := by
  refine ⟨fun j speech here waits => ?_, fun j here => ?_⟩
  · exact step_bridges (server_reach h) kept taken (ih.bridges j speech here waits)
  · obtain ⟨r, told, named⟩ := ih.known j here
    exact ⟨r, by rw [requests, List.filterMap_append]; exact List.mem_append_left _ told, named⟩

private theorem Threaded.opened {e : Event} {a : State} {o : List Obs} (kept : e.cancelled = none)
    (taken : step cfg s.server e = some (a, o)) :
    (∀ j, (∃ speech, openSpeech cfg s o e j = some speech ∧ speech.pc.inThread = true) ↔
      ∃ speech, s.speech j = some speech ∧ speech.pc.inThread = true) ∧
    (∀ j speech, openSpeech cfg s o e j = some speech → speech.pc = .awaiting → a.bridges j) ∧
    ∀ j, openSpeech cfg s o e j ≠ none → ∃ r ∈ requests (serverTrace tr ++ o), r.jobId = j := by
  obtain ⟨bridges, known⟩ := ih.spoken h kept taken
  rcases openSpeech_cases s o e with same | ⟨body, speakers, j, speech, item, rfl, told, pc, update⟩
  · rw [same]
    exact ⟨fun _ => Iff.rfl, bridges, known⟩
  · obtain ⟨unused, bridged, named⟩ := runSynthesis_accepted taken told
    have new : s.speech j = none := by
      by_contra here
      obtain ⟨r, told, rfl⟩ := ih.known j here
      exact unused ((registered (visit_of_reach (server_reach h))).drawn r told)
    rw [update]
    refine ⟨fun k => ?_, fun k speech' here waits => ?_, fun k here => ?_⟩
    · by_cases same : k = j
      · simp [same, new, pc, SpeechPc.inThread]
      · rw [Function.update_of_ne same]
    · by_cases same : k = j
      · exact same ▸ bridged
      · rw [Function.update_of_ne same] at here
        exact bridges k speech' here waits
    · by_cases same : k = j
      · refine ⟨item.request, ?_, named.trans same.symm⟩
        rw [requests, List.filterMap_append]
        exact List.mem_append_right _ (List.mem_filterMap.mpr ⟨_, told, rfl⟩)
      · rw [Function.update_of_ne same] at here
        exact known k here

private theorem Threaded.putsAlong {e : Event} {a : State} {o : List Obs}
    (kept : e.cancelled = none) (taken : step cfg s.server e = some (a, o)) {o' : List PoolObs}
    (told : ∀ j, e.threadOf s.server = some ⟨.put, j⟩ → .returned ⟨.put, j⟩ ∈ o') (j : JobId)
    (put : a.wasPut j) : .returned ⟨.put, j⟩ ∈ tr ++ o' := by
  rcases step_wasPut (server_reach h) kept taken put with before | now
  · exact List.mem_append_left _ (ih.puts j before)
  · exact List.mem_append_right _ (told j now)

private theorem Threaded.step {e : PoolEvent} (meets : uncancelled s e)
    (poolTaken : poolStep cfg s e = some (s', o)) : Threaded (tr ++ o) s' := by
  have reach := server_reach h
  have same : ∀ {o : List PoolObs}, serverTrace o = [] → ∀ j, s.speech j ≠ none →
      ∃ r ∈ requests (serverTrace (tr ++ o)), r.jobId = j := fun silent j here => by
    rw [serverTrace_append, silent, List.append_nil]
    exact ih.known j here
  have putsBefore : ∀ (o : List PoolObs) j, s.server.wasPut j → .returned ⟨.put, j⟩ ∈ tr ++ o :=
    fun o j put => List.mem_append_left _ (ih.puts j put)
  -- The calls after the return of the call that a thread runs.
  have finished : ∀ {c : Call} {t : ℚ}, s.executor.started? c = some t → ∀ d,
      d ∈ (s.executor.finish c).calls ↔ (s.server.awaits d ∨ s.encodes d) ∧ d ≠ c :=
    fun running d => by
      rw [Executor.mem_calls_finish (Executor.running_of_started? running), ih.calls d]
  -- A `_run_synthesis` call goes on.
  have known : ∀ {j : JobId} {speech speech' : Speech} {o : List PoolObs}, serverTrace o = [] →
      s.speech j = some speech → ∀ k, (s.setSpeech j speech').speech k ≠ none →
      ∃ r ∈ requests (serverTrace (tr ++ o)), r.jobId = k := fun silent here k there => by
    refine same silent k fun gone => there ?_
    rw [speech_setSpeech, gone, if_neg]
    rintro rfl
    rw [here] at gone
    cases gone
  have bridges : ∀ {j : JobId} {speech' : Speech}, speech'.pc ≠ .awaiting →
      ∀ k speech, (s.setSpeech j speech').speech k = some speech → speech.pc = .awaiting →
        s.server.bridges k := fun {j speech'} done k speech there waits => by
    rw [speech_setSpeech] at there
    split_ifs at there with mine
    · exact absurd (Option.some.inj there ▸ waits) done
    · exact ih.bridges k speech there waits
  have inside : ∀ {j : JobId} {speech : Speech}, s.speech j = some speech →
      (s.encodes ⟨.encode, j⟩ ↔ speech.pc.inThread = true) := fun here => by
    simp [PoolState.encodes, here]
  cases poolStep_changes meets poolTaken with
  | @works e a o c t taken thread running inside next =>
    subst next
    obtain ⟨bridges, known⟩ := ih.spoken h meets taken
    refine ⟨fun d => ?_, ih.putsAlong h meets taken fun j put => ?_, bridges, ?_⟩
    · refine (ih.calls d).trans (or_congr_left ?_)
      cases step_calls reach meets taken meets with
      | quiet thread' | submits thread' => rw [thread] at thread'; cases thread'
      | works _ _ _ awaits => exact (awaits d).symm
      | returns _ done => rw [inside] at done; cases done
    · cases e <;> simp [Event.returns, Event.threadOf] at inside put
    · rwa [serverTrace_append, serverTrace_server]
  | @returns e a o c t taken thread running done next =>
    subst next
    obtain ⟨bridges, known⟩ := ih.spoken h meets taken
    refine ⟨fun d => ?_, ih.putsAlong h meets taken fun j put => ?_, bridges, ?_⟩
    · refine (finished running d).trans ?_
      cases step_calls reach meets taken meets with
      | quiet thread' | submits thread' => rw [thread] at thread'; cases thread'
      | works _ inside => rw [done] at inside; cases inside
      | returns thread' _ mine awaits =>
        obtain rfl := Option.some.inj (thread.symm.trans thread')
        have other : s.encodes d → d ≠ c := fun encodes same => awaits_kind mine (same ▸ encodes.1)
        rw [or_and_right]
        exact or_congr (awaits d).symm (and_iff_left_of_imp other)
    · obtain rfl := Option.some.inj (thread.symm.trans put)
      exact List.mem_append_right _ List.mem_cons_self
    · rwa [serverTrace_append, serverTrace_append, serverTrace_server,
        show serverTrace [PoolObs.returned c] = [] from rfl, List.append_nil]
  | @quiet e a o taken thread submitted next =>
    subst next
    obtain ⟨inThread, bridges, known⟩ := ih.opened h meets taken
    refine ⟨fun c => ?_, ih.putsAlong h meets taken fun j put => ?_, bridges, ?_⟩
    · refine (ih.calls c).trans (or_congr ?_ (and_congr_right fun _ => (inThread c.jobId).symm))
      cases step_calls reach meets taken meets with
      | quiet _ _ awaits => exact (awaits c).symm
      | submits _ submitted' => rw [submitted] at submitted'; cases submitted'
      | works thread' | returns thread' => rw [thread] at thread'; cases thread'
    · rw [thread] at put
      cases put
    · rwa [serverTrace_append, serverTrace_server]
  | @submits e a o c taken thread submitted next =>
    subst next
    obtain ⟨inThread, bridges, known⟩ := ih.opened h meets taken
    refine ⟨fun d => ?_, ih.putsAlong h meets taken fun j put => ?_, bridges, ?_⟩
    · refine Executor.mem_calls_submit.trans ((or_congr_left (ih.calls d)).trans ?_)
      cases step_calls reach meets taken meets with
      | quiet _ submitted' => rw [submitted] at submitted'; cases submitted'
      | submits _ submitted' _ awaits =>
        obtain rfl := Option.some.inj (submitted.symm.trans submitted')
        exact or_right_comm.trans
          (or_congr (awaits d).symm (and_congr_right fun _ => (inThread d.jobId).symm))
      | works thread' | returns thread' => rw [thread] at thread'; cases thread'
    · rw [thread] at put
      cases put
    · rwa [serverTrace_append, serverTrace_append, serverTrace_server,
        show serverTrace [PoolObs.submitted c] = [] from rfl, List.append_nil]
  | starts start next =>
    subst next
    refine ⟨fun c => ?_, putsBefore _, ih.bridges, same rfl⟩
    rw [Executor.calls_start start]
    exact ih.calls c
  | @answers j speech answer here free next =>
    subst next
    refine ⟨fun c => ?_, putsBefore _, bridges (by simp), known rfl here⟩
    refine (ih.calls c).trans (or_congr_right ?_)
    rw [encodes_setSpeech]
    split_ifs with mine
    · rw [mine, inside here, free]
      simp [SpeechPc.inThread]
    · exact Iff.rfl
  | @encodes j speech ms result here waits next =>
    subst next
    refine ⟨fun c => ?_, putsBefore _, bridges (by simp), known rfl here⟩
    refine Executor.mem_calls_submit.trans ((or_congr_left (ih.calls c)).trans ?_)
    rw [or_assoc]
    refine or_congr_right (Iff.trans ?_ (encodes_setSpeech ..).symm)
    split_ifs with mine
    · simp [mine, SpeechPc.inThread]
    · simp [mine]
  | @encoded j raised speech ms result data t here coding running next =>
    subst next
    refine ⟨fun c => ?_, putsBefore _, bridges (by simp), known rfl here⟩
    change c ∈ (s.executor.finish _).calls ↔ s.server.awaits c ∨ (s.setSpeech j _).encodes c
    rw [finished running, encodes_setSpeech]
    split_ifs with mine
    · have other : ¬ s.server.awaits c := fun waits => awaits_kind waits (by rw [mine])
      simp [mine, SpeechPc.inThread, mine ▸ other]
    · simp [mine]
  | @abandoned j task t here left running next =>
    -- The executor holds awaited calls only, and the task waits for none.
    exfalso
    rcases (ih.calls ⟨.get, j⟩).mp (Executor.mem_calls_of_started? running) with
      (drain | call) | ⟨encode, -⟩
    · cases loop : s.server.drain <;> simp [loop, DrainPc.call?] at drain
    · rw [call?_of_task here] at call
      cases task with
      | collector w r cb at' pc => cases pc <;> simp [Task.call?, Task.getting?] at call left
      | stream r pc => cases pc <;> simp [Task.call?, Task.getting?] at call left
      | clone w r pc => cases pc <;> simp [Task.call?, Task.getting?] at call left
    · cases encode

end Steps

theorem threaded (h : Reach (pooled cfg threads) uncancelled tr s) : Threaded tr s := by
  induction h with
  | refl =>
    refine ⟨fun c => ?_, ?_, by simp [pooled, PoolState.init], by simp [pooled, PoolState.init]⟩
    · simp [pooled, PoolState.init, State.awaits, State.init, DrainPc.call?, State.call?,
        PoolState.encodes]
    · simp [pooled, PoolState.init, State.wasPut, State.init]
  | tail before meets taken ih => exact ih.step before meets taken

end XttsServer.Model
