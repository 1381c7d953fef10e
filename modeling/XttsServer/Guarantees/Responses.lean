import Mathlib.Tactic.Linarith
import XttsServer.Guarantees.Completion
import XttsServer.Guarantees.Downloads
import XttsServer.Guarantees.Endpoints
import XttsServer.Runs.Batches
import XttsServer.Runs.Records
import XttsServer.Runs.Responses

/-!
What clients get to hear: a `_run_synthesis` call is answered with the audio that a worker
made for this very request, and a download is labelled as what it is.
-/

set_option autoImplicit false
set_option relaxedAutoImplicit false

namespace XttsServer.Guarantees

open XttsServer.Model XttsServer.Foundations XttsServer.Foundations.Transition

variable {cfg : Config}

/-! ### Speech -/

section Speech

variable {threads : Nat} {s s' : PoolState threads} {e : PoolEvent} {tr o tr' : List PoolObs}
  {body : TtsRequest} {j : JobId} {t0 : ℚ}

def answersTo (j : JobId) (tr : List PoolObs) : List (Except Exc SpeechAnswer) :=
  tr.filterMap fun
    | .speech i answer => if i = j then some answer else none
    | _ => none

/-- The result that the callback of the call was called with, which is no failure. -/
def Synthesised (tr : List PoolObs) (j : JobId) (fmt : AudioFormat) (b : AudioBytes) : Prop :=
  ∃ w result audio, .completed (.bridge j) w result ∈ serverTrace tr ∧ result.audio = some audio ∧
    b = ⟨audio, fmt, result.sampleRate⟩

/-- What the call knows at its program point. -/
def Knows (tr : List PoolObs) (j : JobId) (fmt : AudioFormat) : SpeechPc → Prop
  | .awaiting => True
  | .encoding ms result => 0 ≤ ms ∧ ∃ w, .completed (.bridge j) w result ∈ serverTrace tr
  | .encoded ms data => 0 ≤ ms ∧ ∀ b, data = .ok b → Synthesised tr j fmt b
  | .ended => True

/-- What an answer rests on; any other exception is one of the encoder. -/
def Founded (cfg : Config) (tr : List PoolObs) (body : TtsRequest) (j : JobId) :
    Except Exc SpeechAnswer → Prop
  | .ok answer => Synthesised tr j body.format answer.audioData ∧
      answer.language = orDefault body.language cfg.settings.defaultLanguage ∧ 0 ≤
        answer.synthesisMs
  | .error (.http status detail) => status = 500 ∧ ∃ w result error,
      .completed (.bridge j) w result ∈ serverTrace tr ∧ result.error = some error ∧ error ≠ "" ∧
        detail = s!"Synthesis failed: {pyTake error 300}"
  | .error _ => True

private theorem Synthesised.mono {fmt : AudioFormat} {b : AudioBytes} (h : Synthesised tr j fmt b)
    (o : List PoolObs) : Synthesised (tr ++ o) j fmt b := by
  obtain ⟨w, result, audio, told, rest⟩ := h
  exact ⟨w, result, audio, by rw [serverTrace_append]; exact List.mem_append_left _ told, rest⟩

private theorem Knows.mono {fmt : AudioFormat} {pc : SpeechPc} (h : Knows tr j fmt pc)
    (o : List PoolObs) : Knows (tr ++ o) j fmt pc := by
  cases pc with
  | awaiting | ended => trivial
  | encoding ms result =>
    obtain ⟨since, w, told⟩ := h
    exact ⟨since, w, by rw [serverTrace_append]; exact List.mem_append_left _ told⟩
  | encoded ms data => exact ⟨h.1, fun b same => (h.2 b same).mono o⟩

private theorem Founded.mono {answer : Except Exc SpeechAnswer} (h : Founded cfg tr body j answer)
    (o : List PoolObs) : Founded cfg (tr ++ o) body j answer := by
  match answer, h with
  | .ok _, h => exact ⟨h.1.mono o, h.2⟩
  | .error (.http _ _), ⟨status, w, result, error, told, rest⟩ =>
    exact ⟨status, w, result, error,
      by rw [serverTrace_append]; exact List.mem_append_left _ told, rest⟩
  | .error .makeQueue, _ => trivial
  | .error (.other _), _ => trivial

/-- The call since its acceptance, `tr` being the whole run and `tr'` what came after. -/
structure Called (cfg : Config) (body : TtsRequest) (j : JobId) (t0 : ℚ) (tr tr' : List PoolObs)
    (s : PoolState threads) : Prop where
  drawn : j ∈ s.server.used
  since : t0 ≤ s.server.now
  answered : ∃ pc, s.speech j = some
      ⟨body.format, orDefault body.language cfg.settings.defaultLanguage, t0, pc⟩ ∧
    Knows tr j body.format pc ∧ (answersTo j tr').length = if pc = .ended then 1 else 0
  founded : ∀ answer ∈ answersTo j tr', Founded cfg tr body j answer

private theorem answersTo_append (tr o : List PoolObs) :
    answersTo j (tr ++ o) = answersTo j tr ++ answersTo j o := List.filterMap_append

private theorem answersTo_eq_nil (silent : ∀ answer, .speech j answer ∉ o) :
    answersTo j o = [] := by
  refine List.filterMap_eq_nil_iff.mpr fun x told => ?_
  cases x with
  | speech i answer =>
    have other : i ≠ j := fun same => silent answer (same ▸ told)
    simp [other]
  | _ => rfl

private theorem run_grows {a b : State} {tr : List Obs} {P : State → Event → Prop}
    (run : Run (server cfg) P a tr b) : a.used ⊆ b.used ∧ a.now ≤ b.now := by
  induction run with
  | refl => exact ⟨List.Subset.refl _, le_rfl⟩
  | @tail b c tr e o _ _ taken ih =>
    exact ⟨fun k member => step_grows taken (ih.1 member), ih.2.trans (step_forward taken)⟩

private theorem drawn_once {speakers : SpeakerView}
    (taken : poolStep cfg s (.server (.runSynthesis body speakers j)) = some (s', o)) :
    j ∉ s.server.used := by
  simp only [poolStep, serverStep, step] at taken
  split at taken
  · cases taken
  · rename_i value
    split_ifs at value with fresh
    simp only [State.fresh, Bool.and_eq_true, decide_eq_true_eq, List.all_eq_true] at fresh
    exact (fresh.2 j List.mem_cons_self).2

private theorem Called.step (h : Called cfg body j t0 tr tr' s)
    (before : Reach (pooled cfg threads) anyStep tr s) (taken : poolStep cfg s e = some (s', o)) :
    Called cfg body j t0 (tr ++ o) (tr' ++ o) s' := by
  obtain ⟨used, later⟩ := run_grows ((pool_simulates cfg threads).step before trivial taken)
  obtain ⟨pc, here, knows, count⟩ := h.answered
  have old : ∀ answer ∈ answersTo j tr', Founded cfg (tr ++ o) body j answer :=
    fun answer told => (h.founded answer told).mono o
  have waited : 0 ≤ (s.server.now - t0) * 1000 := by
    have := h.since
    linarith
  -- The call goes on without an answer, or with one.
  have goesOn : ∀ {pc'}, s'.speech j = some
        ⟨body.format, orDefault body.language cfg.settings.defaultLanguage, t0, pc'⟩ →
      Knows (tr ++ o) j body.format pc' → (pc' = .ended ↔ pc = .ended) →
      (∀ answer, .speech j answer ∉ o) → Called cfg body j t0 (tr ++ o) (tr' ++ o) s' :=
    fun {pc'} there knows' same silent => by
      have quiet : answersTo j (tr' ++ o) = answersTo j tr' := by
        rw [answersTo_append, answersTo_eq_nil silent, List.append_nil]
      refine ⟨used h.drawn, h.since.trans later, ⟨pc', there, knows', ?_⟩, quiet ▸ old⟩
      rw [quiet, count]
      exact if_congr same.symm rfl rfl
  have ends : ∀ answer, s'.speech j = some
        ⟨body.format, orDefault body.language cfg.settings.defaultLanguage, t0, .ended⟩ →
      pc ≠ .ended → o = [.speech j answer] → Founded cfg (tr ++ o) body j answer →
      Called cfg body j t0 (tr ++ o) (tr' ++ o) s' := fun answer there open_ told founded => by
    have one : answersTo j (tr' ++ o) = answersTo j tr' ++ [answer] := by
      rw [answersTo_append, told]
      simp [answersTo]
    refine ⟨used h.drawn, h.since.trans later, ⟨.ended, there, trivial, ?_⟩, fun a told => ?_⟩
    · rw [one, List.length_append, count, if_neg open_]
      rfl
    · rcases List.mem_append.mp (one ▸ told) with earlier | last
      · exact old a earlier
      · rw [List.mem_singleton.mp last]
        exact founded
  have completed : ∀ {result}, s.server.resultFutures j = some result →
      ∃ w, .completed (.bridge j) w result ∈ serverTrace (tr ++ o) := fun future => by
    obtain ⟨w, told⟩ := future_completed (pool_visits before) future
    exact ⟨w, by rw [serverTrace_append]; exact List.mem_append_left _ told⟩
  cases poolStep_speech taken j with
  | aside same silent => exact goesOn (same.trans here) (knows.mono o) Iff.rfl silent
  | opened event =>
    subst event
    exact absurd h.drawn (drawn_once taken)
  | failed here' future reason filled next told =>
    obtain ⟨rfl, rfl, rfl, rfl⟩ := Speech.mk.inj (Option.some.inj (here.symm.trans here'))
    obtain ⟨w, called⟩ := completed future
    exact ends _ next (by simp) told ⟨rfl, w, _, _, called, reason, filled, rfl⟩
  | encodes here' future fine next silent =>
    obtain ⟨rfl, rfl, rfl, rfl⟩ := Speech.mk.inj (Option.some.inj (here.symm.trans here'))
    exact goesOn next ⟨waited, completed future⟩ (by simp) silent
  | encoded here' next bytes silent =>
    obtain ⟨rfl, rfl, rfl, rfl⟩ := Speech.mk.inj (Option.some.inj (here.symm.trans here'))
    obtain ⟨since, w, called⟩ := knows.mono o
    refine goesOn next ⟨since, fun b same => ?_⟩ (by simp) silent
    obtain ⟨audio, array, rfl⟩ := bytes b same
    exact ⟨w, _, audio, called, array, rfl⟩
  | answered here' next told =>
    obtain ⟨rfl, rfl, rfl, rfl⟩ := Speech.mk.inj (Option.some.inj (here.symm.trans here'))
    exact ends _ next (by simp) told ⟨(knows.mono o).2 _ rfl, rfl, knows.1⟩
  | raised here' next told =>
    obtain ⟨rfl, rfl, rfl, rfl⟩ := Speech.mk.inj (Option.some.inj (here.symm.trans here'))
    exact ends _ next (by simp) told trivial

/-! ### From the request to the response -/

/-- A response with audio: a worker's reply to the request, in the format asked for. -/
structure Rendered (tr : List Obs) (bytes : AudioBytes → List UInt8) (body : TtsRequest)
    (r : SynthesisRequest) (answer : SpeechAnswer) : Prop where
  source : ∃ w result audio, .replied w (.synthesis r) (.result result) ∈ tr ∧
    result.audio = some audio ∧ answer.audioData = ⟨audio, body.format, result.sampleRate⟩
  file : (synthesiseSpeechFile bytes answer).content = bytes answer.audioData
  decoded : Base64.decode (synthesiseSpeech bytes body answer).audioB64 =
    some (bytes answer.audioData)
  echoed : (synthesiseSpeech bytes body answer).language = r.language ∧
    (synthesiseSpeech bytes body answer).params = r.params
  elapsed : 0 ≤ (synthesiseSpeech bytes body answer).elapsedTime

/-- What the accepted call `j` for `body` hears in the rest `tr'` of the run `tr`. -/
structure EndToEnd (cfg : Config) (tr tr' : List PoolObs) (bytes : AudioBytes → List UInt8)
    (body : TtsRequest) (j : JobId) (r : SynthesisRequest) : Prop where
  asked : r.jobId = j ∧ r.text = body.text ∧ r.params = body.params ∧
    r.language = orDefault body.language cfg.settings.defaultLanguage
  once : (answersTo j tr').length ≤ 1
  audio : ∀ answer, .speech j (.ok answer) ∈ tr' → Rendered (serverTrace tr) bytes body r answer
  failed : ∀ status detail, .speech j (.error (.http status detail)) ∈ tr' →
    status = 500 ∧ ∃ error, error ≠ "" ∧ detail = s!"Synthesis failed: {pyTake error 300}" ∧
      ∃ w result, result.error = some error ∧
        (.replied w (.synthesis r) (.result result) ∈ serverTrace tr ∨ OwnError j result)

private theorem mem_answersTo {answer : Except Exc SpeechAnswer} :
    answer ∈ answersTo j tr ↔ .speech j answer ∈ tr := by
  rw [answersTo, List.mem_filterMap]
  constructor
  · rintro ⟨x, member, same⟩
    cases x with
    | speech i answer =>
      obtain ⟨rfl, rfl⟩ : i = j ∧ _ = _ := by simpa using same
      exact member
    | _ => cases same
  · exact fun member => ⟨_, member, if_pos rfl⟩

/-- The request is what `_run_synthesis` makes of its body. -/
structure AskedFor (cfg : Config) (speakers : SpeakerView) (body : TtsRequest) (j : JobId)
    (r : SynthesisRequest) : Prop where
  named : r.jobId = j
  text : r.text = body.text
  params : r.params = body.params
  language : r.language = orDefault body.language cfg.settings.defaultLanguage
  latents : ∃ speakerId, resolveSpeaker speakers body.speaker =
    .ok (r.gptCondLatent, r.speakerEmbedding, speakerId)

private theorem runSynthesis_asks {s s' : State} {o : List Obs} {speakers : SpeakerView}
    {item : QueuedItem} (taken : runSynthesis cfg s body speakers j = (s', o))
    (accept : .accepted item ∈ o) : j ∈ s'.used ∧ s'.now = s.now ∧
      ∃ r, item.request = .synthesis r ∧ AskedFor cfg speakers body j r := by
  obtain ⟨r, resolved, rfl, rfl⟩ := runSynthesis_accepts taken accept
  have shown := resolveTts_eq cfg.settings speakers body
  have same : ∃ latents, resolveSpeaker speakers body.speaker = .ok latents ∧
      r = resolvedBy cfg.settings body latents := by
    rw [resolved] at shown
    split_ifs at shown
    · obtain ⟨latents, loaded, same⟩ := Option.map_eq_some_iff.mp shown.symm
      refine ⟨latents, ?_, same.symm⟩
      rw [loads] at loaded
      split_ifs at loaded
      cases found : resolveSpeaker speakers body.speaker <;> simp_all [Except.toOption]
    · cases shown
  obtain ⟨⟨gpt, emb, speakerId⟩, loaded, rfl⟩ := same
  exact ⟨List.mem_cons_self, rfl, _, rfl, rfl, rfl, rfl, rfl, speakerId, loaded⟩

private theorem Called.start (tr : List PoolObs) {speakers : SpeakerView} {item : QueuedItem}
    (taken : poolStep cfg s (.server (.runSynthesis body speakers j)) = some (s', o))
    (accept : .server (.accepted item) ∈ o) :
    Called cfg body j s.server.now (tr ++ o) [] s' ∧
      ∃ r, item.request = .synthesis r ∧ AskedFor cfg speakers body j r := by
  simp only [poolStep, serverStep] at taken
  split at taken
  · cases taken
  · rename_i server o₁ stepped
    simp only [Event.threadOf, Event.submitted, Event.cancelled] at taken
    obtain ⟨rfl, rfl⟩ := Prod.mk.inj (Option.some.inj taken)
    have told : .accepted item ∈ o₁ := by simpa using accept
    simp only [Model.step] at stepped
    split_ifs at stepped
    obtain ⟨used, same, asked⟩ := runSynthesis_asks (Option.some.inj stepped) told
    have opened : openSpeech cfg s o₁ (.runSynthesis body speakers j) j = some
        ⟨body.format, orDefault body.language cfg.settings.defaultLanguage, s.server.now,
          .awaiting⟩ :=
      (congrFun (if_pos (List.any_eq_true.mpr ⟨_, told, rfl⟩)) j).trans (Function.update_self ..)
    exact ⟨⟨used, same ▸ le_rfl, ⟨.awaiting, opened, trivial, rfl⟩, by simp [answersTo]⟩, asked⟩

theorem called_of_run {s₁ s₂ : PoolState threads} {speakers : SpeakerView} {item : QueuedItem}
    (before : Reach (pooled cfg threads) anyStep tr s)
    (taken : poolStep cfg s (.server (.runSynthesis body speakers j)) = some (s₁, o))
    (accept : .server (.accepted item) ∈ o) (run : Run (pooled cfg threads) anyStep s₁ tr' s₂) :
    Reach (pooled cfg threads) anyStep (tr ++ o ++ tr') s₂ ∧
      Called cfg body j s.server.now (tr ++ o ++ tr') tr' s₂ ∧
      ∃ r, item.request = .synthesis r ∧ AskedFor cfg speakers body j r := by
  obtain ⟨start, asked⟩ := Called.start tr taken accept
  have reach : Reach (pooled cfg threads) anyStep (tr ++ o) s₁ :=
    before.tail (e := .server (.runSynthesis body speakers j)) trivial taken
  refine ⟨reach.trans run, ?_, asked⟩
  induction run with
  | refl => simpa using start
  | tail earlier _ step ih =>
    rw [← List.append_assoc]
    exact ih.step (reach.trans earlier) step

/-- What the callback of the call was given comes from the worker of its own request. -/
private theorem completed_source (h : Reach (pooled cfg threads) anyStep tr s) {item : QueuedItem}
    {r : SynthesisRequest} (request : item.request = .synthesis r) (named : r.jobId = j)
    (accept : .server (.accepted item) ∈ tr) {w : WorkerRef} {result : SynthesisResult}
    (completed : .completed (.bridge j) w result ∈ serverTrace tr) :
    .replied w (.synthesis r) (.result result) ∈ serverTrace tr ∨ OwnError j result := by
  have visit := pool_visits h
  obtain ⟨item', r', own⟩ := own_completion visit completed
  have same : item'.jobId = item.jobId := by
    rw [QueuedItem.jobId, own.request, QueuedItem.jobId, request]
    exact own.named.symm.trans named.symm
  have accept' : item ∈ accepted (serverTrace tr) :=
    mem_accepted.mpr (List.mem_filterMap.mpr ⟨.server (.accepted item), accept, rfl⟩)
  obtain rfl := accepted_unique visit (mem_accepted.mpr own.accepted) accept' same
  obtain rfl : r' = r := Request.synthesis.inj (own.request.symm.trans request)
  exact named ▸ own.source

theorem Called.endToEnd (called : Called cfg body j t0 tr tr' s)
    (h : Reach (pooled cfg threads) anyStep tr s) (bytes : AudioBytes → List UInt8)
    {speakers : SpeakerView} {item : QueuedItem} {r : SynthesisRequest}
    (request : item.request = .synthesis r) (asked : AskedFor cfg speakers body j r)
    (accept : .server (.accepted item) ∈ tr) : EndToEnd cfg tr tr' bytes body j r := by
  have told {w : WorkerRef} {result : SynthesisResult}
      (completed : .completed (.bridge j) w result ∈ serverTrace tr) :=
    completed_source h request asked.named accept completed
  refine ⟨⟨asked.named, asked.text, asked.params, asked.language⟩, ?_, fun answer heard => ?_,
    fun status detail heard => ?_⟩
  · obtain ⟨pc, -, -, count⟩ := called.answered
    rw [count]
    split_ifs <;> omega
  · obtain ⟨⟨w, result, audio, completed, array, same⟩, language, since⟩ :=
      called.founded _ (mem_answersTo.mpr heard)
    have replied := (told completed).resolve_right fun own => by
      obtain ⟨text, rfl⟩ := own
      cases array
    exact ⟨⟨w, result, audio, replied, array, same⟩, rfl, Base64.decode_encode _,
      ⟨language.trans asked.language.symm, asked.params.symm⟩, div_nonneg since (by norm_num)⟩
  · obtain ⟨status, w, result, error, completed, reason, filled, rfl⟩ :=
      called.founded _ (mem_answersTo.mpr heard)
    exact ⟨status, error, filled, rfl, w, result, reason, told completed⟩

/-- Every accepted `_run_synthesis` call is answered at most once: with the audio that a worker made
for this very request, as the client can decode it, or with the error that its request met. -/
theorem speech_end_to_end (bytes : AudioBytes → List UInt8) {s₁ s₂ : PoolState threads}
    {speakers : SpeakerView} {item : QueuedItem} (before : Reach (pooled cfg threads) anyStep tr s)
    (taken : poolStep cfg s (.server (.runSynthesis body speakers j)) = some (s₁, o))
    (accept : .server (.accepted item) ∈ o) (run : Run (pooled cfg threads) anyStep s₁ tr' s₂) :
    ∃ r, item.request = .synthesis r ∧ EndToEnd cfg (tr ++ o ++ tr') tr' bytes body j r := by
  obtain ⟨reach, called, r, request, asked⟩ := called_of_run before taken accept run
  exact ⟨r, request, called.endToEnd reach bytes request asked
    (List.mem_append_left _ (List.mem_append_right _ accept))⟩

/-! ### A spoken greeting -/

/-- From the enqueue of the call's request to its answer. -/
def spokenGreeting : List PoolEvent :=
  [.server .resumeDrain, .start, .server .drainPut, .server .resumeDrain, .server (.resume "a"),
    .start, .server (.workerTake 0), .server (.workerReply 0 (.arrays ⟨[1], [0]⟩ ⟨[], []⟩)),
    .server (.getReply "a"), .server (.resume "a"), .resumeSpeech "a", .start, .encode "a" none,
    .resumeSpeech "a"]

private theorem askedGreeting_steps :
    (poolStep oneWorker (.init oneWorker : PoolState 1)
      (.server (.runSynthesis sayHello noSpeakers "a"))).isSome = true := by decide +kernel

private theorem spokenGreeting_runs : (exec (pooled oneWorker 1) anyStep
    ((poolStep oneWorker (.init oneWorker : PoolState 1)
      (.server (.runSynthesis sayHello noSpeakers "a"))).get askedGreeting_steps).1
    spokenGreeting).isSome = true := by decide +kernel

/-- The first four bytes of a WAV file. -/
def riff : AudioBytes → List UInt8 := fun _ => [82, 73, 70, 70]

theorem speech_end_to_end_greeting : ∃ (tr' : List PoolObs) (s : PoolState 1) (r : SynthesisRequest)
    (answer : SpeechAnswer), Reach (pooled oneWorker 1) anyStep tr' s ∧
      .speech "a" (.ok answer) ∈ tr' ∧ Rendered (serverTrace tr') riff sayHello r answer := by
  have taken := (Option.some_get askedGreeting_steps).symm
  have run := run_of_exec (Option.some_get spokenGreeting_runs).symm
  have accept : .server (.accepted (jobItem 0
      ⟨"a", "hello", "tr", ⟨[1, 1, 1], [0]⟩, ⟨[1, 1, 1], [0]⟩, 0, {}⟩ (.bridge "a"))) ∈
        ((poolStep oneWorker (.init oneWorker : PoolState 1)
          (.server (.runSynthesis sayHello noSpeakers "a"))).get
            askedGreeting_steps).2 := by decide +kernel
  obtain ⟨r, -, whole⟩ := speech_end_to_end riff .refl taken accept run
  have heard : .speech "a" (.ok ⟨⟨⟨[1], [0]⟩, .wav, 24000⟩, 0, "tr", .wav⟩) ∈
      ((exec (pooled oneWorker 1) anyStep _ spokenGreeting).get
        spokenGreeting_runs).2 := by decide +kernel
  exact ⟨_, _, r, _,
    (Run.refl.tail (e := .server (.runSynthesis sayHello noSpeakers "a")) trivial taken).trans run,
    List.mem_append_right _ heard, whole.audio _ heard⟩

end Speech

/-! ### Downloads -/

section Downloads

variable {s s' : State} {e : Event} {tr o : List Obs} {g : Nat} {j : JobId}

/-- The response to a download of the job `j` that sends the file `p`: the audio that a worker made
for the job's request, in the job's format, and labelled as that. -/
structure Labelled (cfg : Config) (tr : List Obs) (files : Files) (g : Nat) (j : JobId) (p : Path)
    (r : SynthesisRequest) (fmt : AudioFormat) : Prop where
  answered : .audio g j (.ok p) ∈ tr
  accepted : ∃ item, .accepted item ∈ tr ∧ item.request = .synthesis r ∧
    item.onComplete = some (.store j fmt cfg.settings.outputsDir)
  named : r.jobId = j
  content : ∃ w result audio, .replied w (.synthesis r) (.result result) ∈ tr ∧
    result.audio = some audio ∧ files p = some (.complete audio fmt result.sampleRate)
  headers : fileHeaders p = (mimeType fmt.name).map (⟨·, outputFilename j fmt⟩)

private theorem served_event (taken : step cfg s e = some (s', o)) (told : .served g j ∈ o) :
    ∃ k, e = .openFile k := by
  obtain ⟨_, _, _, _, -, -, change, told', -⟩ := (step_changes taken).exists_change told
  cases change with
  | openFile _ _ event => exact ⟨_, event⟩
  | jobTurnedAway _ _ told'' => rcases told'' with rfl | rfl <;> simp at told'
  | @answered _ a answer => cases a <;> simp [Obs.isAnswer] at answer told'
  | _ => simp [marks_eq_map] at told'

theorem labelled_of_served {P : State → Event → Prop} (visit : Visit cfg P tr s)
    (taken : step cfg s e = some (s', o)) (told : .served g j ∈ o) :
    ∃ p r fmt, Labelled cfg tr s'.files g j p r fmt := by
  obtain ⟨k, rfl⟩ := served_event taken told
  simp only [step, openFile] at taken
  split at taken
  · rename_i i p download
    split_ifs at taken with present <;> obtain ⟨rfl, rfl⟩ := Prod.mk.inj (Option.some.inj taken)
    · obtain ⟨rfl, rfl⟩ : g = k ∧ j = i := by simpa using told
      obtain ⟨fmt, w, result, audio, completed, array, rfl, file⟩ :=
        downloads_hold visit _ (List.mem_of_getElem? download) j p rfl present
      obtain ⟨item, r, own⟩ := own_completion visit completed
      have replied := own.source.resolve_right fun failed => by
        obtain ⟨text, rfl⟩ := failed
        cases array
      have drawn : j ∈ s.used := by
        have known :=
          (registered visit).drawn _ (request_mem_requests (mem_accepted.mpr own.accepted))
        rwa [own.request, Request.jobId, ← own.named] at known
      exact ⟨_, r, fmt, opening_answered visit download,
        ⟨item, own.accepted, own.request, own.callback⟩, own.named.symm,
          ⟨w, result, audio, replied, array, file⟩,
        fileHeaders_audioPath _ (used_uuid visit j drawn) fmt⟩
    · simp at told
  · cases taken

/-- Whenever a download begins to send, it sends the audio of its own job with the media type of the
job's format. -/
theorem download_end_to_end (h : Reach (server cfg) anyStep tr s)
    (taken : step cfg s e = some (s', o)) (told : .served g j ∈ o) :
    ∃ p r fmt, Labelled cfg tr s'.files g j p r fmt :=
  labelled_of_served (visit_of_reach h) taken told

/-- A finished download in reach of its file. -/
def askedAudio : List Event := savedJob ++ [.getAudio "a"]

private theorem askedAudio_runs : (runOf oneWorker askedAudio).isSome = true := by decide +kernel

private theorem askedAudio_opens :
    (step oneWorker ((runOf oneWorker askedAudio).get askedAudio_runs).1 (.openFile 0)).isSome =
      true := by decide +kernel

theorem download_end_to_end_saved_job : ∃ files p r fmt,
    Labelled oneWorker ((runOf oneWorker askedAudio).get askedAudio_runs).2 files 0 "a" p r fmt :=
  ⟨_, download_end_to_end (reach_of_exec askedAudio_runs) (Option.some_get askedAudio_opens).symm
    (by decide +kernel)⟩

end Downloads

end XttsServer.Guarantees
