import XttsServer.Foundations.Words
import XttsServer.Guarantees.Responses
import XttsServer.Guarantees.Streams
import XttsServer.Model.Clones
import XttsServer.Runs.Deployment

/-!
The server with the processes it really has. They do not hold it up, and what a client hears,
downloads or is streamed is what the model made of the text that was asked for.
-/

set_option autoImplicit false
set_option relaxedAutoImplicit false

namespace XttsServer.Guarantees

open XttsServer.Model XttsServer.Foundations XttsServer.Foundations.Transition

variable {σ κ : Type} {py : Runtime σ κ} {args : WorkerRef → WorkerArgs} {cfg : Config}
  {threads : Nat} {s s' : DeployedState threads} {tr o : List PoolObs}

/-! ### The processes -/

/-- What waits for a process can be taken while the request's task has not ended, and a process at
work has something to put; what has been put for a request is its handler's, from the first message
on, and all of it once the handler is done. A process is only lost over a request whose task has
ended, and to which nobody has replied. -/
structure Attended (py : Runtime σ κ) (args : WorkerRef → WorkerArgs) (cfg : Config)
    (tr : List PoolObs) (s : DeployedState threads) : Prop where
  gets : ∀ w r rest, s.lost w = false → s.pool.server.processes w = ⟨r :: rest, none⟩ →
    ¬ Ended s.pool.server.tasks r.jobId → deployedStep py args cfg s (.getRaises w) = none ∧
      ∀ world, (deployedStep py args cfg s (.take w world)).isSome = true
  goesOn : ∀ w r, (s.pool.server.processes w).current = some r →
    (deployedStep py args cfg s (.put w)).isSome = true
  replies : ∀ w r m, .replied w r m ∈ serverTrace tr → ∃ world,
    putOn (serverTrace tr) r.resultQueue <+: (puts (handlerLog py (args w) world r)).map Prod.snd ∧
      ((s.pool.server.processes w).current ≠ some r →
        putOn (serverTrace tr) r.resultQueue = (puts (handlerLog py (args w) world r)).map Prod.snd)
  lost : ∀ w, s.lost w = true → ∃ r rest, s.pool.server.processes w = ⟨r :: rest, none⟩ ∧
    Ended s.pool.server.tasks r.jobId ∧ ∀ v m, .replied v r m ∉ serverTrace tr

/-- The server with processes that run `worker_main` refines the server whose workers may reply in
any way, whatever the model does; and its processes are held up by nothing, unless they come too
late to a request. -/
theorem workers_refine (py : Runtime σ κ) (args : WorkerRef → WorkerArgs) (cfg : Config)
    (threads : Nat) :
    Simulation (deployed py args cfg threads) anyStep (pooled cfg threads) anyStep
      DeployedState.pool some ∧
    ∀ {tr s}, Reach (deployed py args cfg threads) anyStep tr s → Attended py args cfg tr s := by
  refine ⟨deployed_simulates py args cfg threads, fun {tr s} h => ?_⟩
  obtain ⟨reach, works⟩ := deployed_works h
  refine ⟨fun w r rest alive idle waits => ⟨?_, fun world => ?_⟩, fun w r current => ?_,
    works.replied, fun w gone => ?_⟩
  · have kept : s.pool.server.dropped r = false := by
      rw [State.dropped, Bool.eq_false_iff.mpr waits, Bool.false_and]
    simp [deployedStep, getRaises, alive, idle, kept]
  · simp [deployedStep, takeRequest, alive, idle]
  · cases process : s.pool.server.processes w with
    | mk queue running =>
    obtain rfl : running = some r := by rw [process] at current; exact current
    obtain ⟨-, -, -, more, -⟩ := works.busy w r (by rw [process])
    obtain ⟨⟨q, m⟩, rest, pending⟩ := List.exists_cons_of_ne_nil more
    simp [deployedStep, putNext_eq process pending]
  · obtain ⟨r, rest, stuck, gaveUp⟩ := works.lost w gone
    exact ⟨r, rest, stuck, gaveUp, queued_silent (w := w) (pool_visits reach) (by simp [stuck])⟩

/-- A model that says the same to everything. -/
abbrev parrot : Runtime Unit Ndarray := oneChunk ⟨[1], [258]⟩

def onCpu : WorkerRef → WorkerArgs := fun _ => ⟨"cpu", 0, false⟩

def deployedGreeting : List (DeployedEvent Unit) :=
  [.pool (.server .resumeDrain), .pool .start, .pool (.server .drainPut),
    .pool (.server .resumeDrain), .pool (.server (.resume "a")), .pool .start, .take 0 (), .put 0,
    .pool (.server (.getReply "a")), .pool (.server (.resume "a")), .pool (.resumeSpeech "a"),
    .pool .start, .pool (.encode "a" none), .pool (.resumeSpeech "a")]

/-- A worker is so slow that the task of its job has given up when it comes to the request; the
other one is streaming. -/
def lostWorker : List (DeployedEvent Unit) :=
  [.pool (.server (.submitTts sayHello noSpeakers "a" false)),
    .pool (.server (.streamTts { text := "hello", speaker := .embedding [[0]] [0] }
      noSpeakers "b")),
    .pool (.server .resumeDrain), .pool .start, .pool (.server .drainPut),
    .pool (.server .resumeDrain), .pool .start, .pool (.server .drainPut),
    .pool (.server .resumeDrain), .pool (.server (.resume "a")), .pool .start, .take 1 (), .put 1,
    .pool (.server (.tick 300)), .pool (.server (.getTimeout "a")), .pool (.server (.resume "a")),
    .getRaises 0]

private theorem lostWorker_runs : (exec (deployed parrot onCpu twoWorkers 2) anyStep
    (deployed parrot onCpu twoWorkers 2).init lostWorker).isSome = true := by decide +kernel

theorem workers_refine_lost_worker : Attended parrot onCpu twoWorkers
    ((exec (deployed parrot onCpu twoWorkers 2) anyStep (deployed parrot onCpu twoWorkers 2).init
      lostWorker).get lostWorker_runs).2
    ((exec (deployed parrot onCpu twoWorkers 2) anyStep (deployed parrot onCpu twoWorkers 2).init
      lostWorker).get lostWorker_runs).1 :=
  (workers_refine parrot onCpu twoWorkers 2).2 (reach_of_exec lostWorker_runs)

private theorem handler_of_reply {P : DeployedState threads → DeployedEvent σ → Prop}
    (h : Reach (deployed py args cfg threads) P tr s) {w : WorkerRef} {r : Request} {m : Message}
    (told : .replied w r m ∈ serverTrace tr) :
    ∃ world, (r.resultQueue, m) ∈ puts (handlerLog py (args w) world r) := by
  obtain ⟨world, front, -⟩ := (deployed_works h).2.replied w r m told
  have member : m ∈ putOn (serverTrace tr) r.resultQueue :=
    List.mem_filterMap.mpr ⟨_, told, by simp⟩
  obtain ⟨⟨q, m'⟩, put, same⟩ := List.mem_map.mp (front.subset member)
  obtain rfl : m' = m := same
  obtain ⟨before, after, split⟩ := List.append_of_mem put
  obtain ⟨rfl, -⟩ := (handlerLog_served py (args w) world r).next split
  exact ⟨world, put⟩

private theorem spoken_of_reply {P : DeployedState threads → DeployedEvent σ → Prop}
    (h : Reach (deployed py args cfg threads) P tr s) {w : WorkerRef} {r : SynthesisRequest}
    {result : SynthesisResult} {audio : Ndarray}
    (told : .replied w (.synthesis r) (.result result) ∈ serverTrace tr)
    (array : result.audio = some audio) :
    result = { jobId := r.jobId, audio := some audio } ∧ Spoken py (args w) r audio := by
  obtain ⟨world, put⟩ := handler_of_reply h told
  exact (handlerLog_served py (args w) world (.synthesis r)).spoken put array

/-! ### Speech -/

/-- The answer to an accepted `_run_synthesis` call has the array that the model's inference
returned for the text, the language, the parameters and the speaker of the call, in the format asked
for, and there is no second one. -/
theorem speech_spoken (bytes : AudioBytes → List UInt8) {s₁ s₂ : DeployedState threads}
    {body : TtsRequest} {speakers : SpeakerView} {j : JobId} {tr' : List PoolObs}
      {item : QueuedItem}
    (before : Reach (deployed py args cfg threads) anyStep tr s)
    (taken : deployedStep py args cfg s (.pool (.server (.runSynthesis body speakers j))) =
      some (s₁, o))
    (accept : .server (.accepted item) ∈ o) (run : Run (deployed py args cfg threads)
      anyStep s₁ tr' s₂) :
    ∃ r, item.request = .synthesis r ∧ AskedFor cfg speakers body j r ∧
      (answersTo j tr').length ≤ 1 ∧ ∀ answer, .speech j (.ok answer) ∈ tr' → ∃ w audio,
        Spoken py (args w) r audio ∧ (synthesiseSpeechFile bytes answer).content =
          bytes ⟨audio, body.format, 24000⟩ ∧
        Base64.decode (synthesiseSpeech bytes body answer).audioB64 =
          some (bytes ⟨audio, body.format, 24000⟩) := by
  have reached : Reach (deployed py args cfg threads) anyStep (tr ++ o) s₁ :=
    before.tail (e := .pool (.server (.runSynthesis body speakers j))) trivial taken
  have later := (deployed_simulates py args cfg threads).run reached run
  rw [List.filterMap_some] at later
  simp only [deployedStep, PoolEvent.ofWorker, Event.ofWorker, Bool.false_eq_true,
    if_false] at taken
  obtain ⟨⟨a, told⟩, stepped, same⟩ := Option.map_eq_some_iff.mp taken
  obtain ⟨rfl, rfl⟩ := Prod.mk.inj same
  obtain ⟨reach, called, r, request, asked⟩ :=
    called_of_run (deployed_works before).1 stepped accept later
  have whole := called.endToEnd reach bytes request asked
    (List.mem_append_left _ (List.mem_append_right _ accept))
  refine ⟨r, request, asked, whole.once, fun answer heard => ?_⟩
  have rendered := whole.audio answer heard
  obtain ⟨w, result, audio, replied, array, data⟩ := rendered.source
  obtain ⟨rfl, spoken⟩ := spoken_of_reply (reached.trans run) replied array
  exact ⟨w, audio, spoken, data ▸ rendered.file, data ▸ rendered.decoded⟩

private theorem deployedAsked_steps :
    (deployedStep parrot onCpu oneWorker (.init oneWorker : DeployedState 1)
      (.pool (.server (.runSynthesis sayHello noSpeakers "a")))).isSome = true := by decide +kernel

private theorem deployedSpoken_runs : (exec (deployed parrot onCpu oneWorker 1) anyStep
    ((deployedStep parrot onCpu oneWorker (.init oneWorker : DeployedState 1)
      (.pool (.server (.runSynthesis sayHello noSpeakers "a")))).get deployedAsked_steps).1
    deployedGreeting).isSome = true := by decide +kernel

theorem speech_spoken_greeting : ∃ (r : SynthesisRequest) (w : WorkerRef) (audio : Ndarray),
    AskedFor oneWorker noSpeakers sayHello "a" r ∧ Spoken parrot (onCpu w) r audio ∧
      Base64.decode (synthesiseSpeech riff sayHello
        ⟨⟨⟨[1], [258]⟩, .wav, 24000⟩, 0, "tr", .wav⟩).audioB64 =
          some (riff ⟨audio, .wav, 24000⟩) := by
  have taken := (Option.some_get deployedAsked_steps).symm
  have accept : .server (.accepted (jobItem 0
      ⟨"a", "hello", "tr", ⟨[1, 1, 1], [0]⟩, ⟨[1, 1, 1], [0]⟩, 0, {}⟩ (.bridge "a"))) ∈
        ((deployedStep parrot onCpu oneWorker (.init oneWorker : DeployedState 1)
          (.pool (.server (.runSynthesis sayHello noSpeakers "a")))).get
            deployedAsked_steps).2 := by
    decide +kernel
  have heard : .speech "a" (.ok ⟨⟨⟨[1], [258]⟩, .wav, 24000⟩, 0, "tr", .wav⟩) ∈
      ((exec (deployed parrot onCpu oneWorker 1) anyStep _ deployedGreeting).get
        deployedSpoken_runs).2 := by
    decide +kernel
  obtain ⟨r, -, asked, -, answers⟩ := speech_spoken riff .refl taken accept
    (run_of_exec (Option.some_get deployedSpoken_runs).symm)
  obtain ⟨w, audio, spoken, -, decoded⟩ := answers _ heard
  exact ⟨r, w, audio, asked, spoken, decoded⟩

/-- Whenever a download begins to send a file, it has the array that the model's inference returned
for the text, the language and the latents of the job's request. -/
theorem download_spoken {e : DeployedEvent σ} {g : Nat} {j : JobId}
    (h : Reach (deployed py args cfg threads) anyStep tr s)
    (taken : deployedStep py args cfg s e = some (s', o)) (told : .server (.served g j) ∈ o) :
    ∃ p r fmt w audio, Labelled cfg (serverTrace tr) s'.pool.server.files g j p r fmt ∧
      Spoken py (args w) r audio ∧ s'.pool.server.files p = some (.complete audio fmt 24000) := by
  obtain ⟨reach, works⟩ := deployed_works h
  obtain ⟨⟨event, -, stepped⟩ | ⟨-, rfl⟩, -⟩ := deployedStep_works (pool_visits reach) works taken
  swap
  · cases told
  have served : .served g j ∈ serverTrace o := List.mem_filterMap.mpr ⟨_, told, rfl⟩
  rcases poolStep_server stepped with ⟨event, sent, rfl, step, same⟩ | ⟨-, silent⟩
  · obtain ⟨p, r, fmt, labelled⟩ := labelled_of_served (pool_visits reach) step (same ▸ served)
    obtain ⟨w, result, audio, replied, array, file⟩ := labelled.content
    obtain ⟨rfl, spoken⟩ := spoken_of_reply h replied array
    exact ⟨p, r, fmt, w, audio, labelled, spoken, file⟩
  · rw [silent] at served
    cases served

def deployedDownload : List (DeployedEvent Unit) :=
  [.pool (.server (.submitTts sayHello noSpeakers "a" false)), .pool (.server .resumeDrain),
    .pool .start, .pool (.server .drainPut), .pool (.server .resumeDrain),
    .pool (.server (.resume "a")), .pool .start, .take 0 (), .put 0,
    .pool (.server (.getReply "a")), .pool (.server (.resume "a")), .pool .start,
    .pool (.server (.saveOpen "a")), .pool (.server (.saveWrite "a")),
    .pool (.server (.resume "a")), .pool (.server (.getAudio "a"))]

private theorem deployedDownload_runs : (exec (deployed parrot onCpu oneWorker 1) anyStep
    (deployed parrot onCpu oneWorker 1).init deployedDownload).isSome = true := by decide +kernel

private theorem deployedDownload_opens : (deployedStep parrot onCpu oneWorker
    ((exec (deployed parrot onCpu oneWorker 1) anyStep (deployed parrot onCpu oneWorker 1).init
      deployedDownload).get deployedDownload_runs).1
        (.pool (.server (.openFile 0)))).isSome = true := by
  decide +kernel

theorem download_spoken_saved_job : ∃ (s : DeployedState 1) (p : Path) (r : SynthesisRequest)
    (fmt : AudioFormat) (w : WorkerRef) (audio : Ndarray), Spoken parrot (onCpu w) r audio ∧
      s.pool.server.files p = some (.complete audio fmt 24000) := by
  obtain ⟨p, r, fmt, w, audio, -, spoken, file⟩ := download_spoken (g := 0) (j := "a")
    (reach_of_exec deployedDownload_runs) (Option.some_get deployedDownload_opens).symm
      (by decide +kernel)
  exact ⟨_, p, r, fmt, w, audio, spoken, file⟩

/-! ### Latents -/

/-- The latents that `compute_latents` returns are those that the model found in the file at the
path that it was called with. -/
theorem latents_computed {j : JobId} {w : WorkerRef} {r : Request} {outcome : GetOutcome}
    {result : LatentsResult} {gpt emb : Ndarray}
    (h : Reach (deployed py args cfg threads) anyStep tr s)
    (task : s.pool.server.tasks j = some (.clone w r (.got outcome)))
    (value : computedLatents cfg j outcome = some (.ok result))
    (arrays : result.gptCondLatent = some gpt ∧ result.speakerEmbedding = some emb) :
    ∃ wavPath queue, r = .computeLatents ⟨j, wavPath, queue⟩ ∧
      Conditioned py ⟨j, wavPath, queue⟩ gpt emb := by
  have visit := pool_visits (deployed_works h).1
  have serves := (placed visit).serves j _ task
  have fits := serves.fits
  cases outcome with
  | item m =>
    cases m with
    | latents x =>
      obtain rfl : x = result := by simpa [computedLatents] using value
      obtain ⟨v, told⟩ := tasks_heard visit j _ task
      obtain ⟨world, put⟩ := handler_of_reply h told
      cases r with
      | computeLatents r =>
        obtain ⟨k, wavPath, queue⟩ := r
        obtain rfl : k = j := serves.named
        exact ⟨wavPath, queue, rfl,
          (handlerLog_served py (args v) world (.computeLatents
            ⟨k, wavPath, queue⟩)).conditioned put arrays.1 arrays.2⟩
      | synthesis | stream => cases fits
    | _ => cases value
  | empty =>
    obtain rfl : _ = result := by simpa [computedLatents] using value
    cases arrays.1
  | error text => cases value

def deployedLatents : List (DeployedEvent Unit) :=
  [.pool (.server (.computeLatents "a" "speaker.wav")), .pool .start,
    .pool (.server (.clonePut "a")), .pool (.server (.resume "a")), .pool .start, .take 0 (),
    .put 0, .pool (.server (.getReply "a"))]

private theorem deployedLatents_runs : (exec (deployed parrot onCpu oneWorker 1) anyStep
    (deployed parrot onCpu oneWorker 1).init deployedLatents).isSome = true := by decide +kernel

def parrotLatents : LatentsResult :=
  { jobId := "a", gptCondLatent := some ⟨[1], [258]⟩, speakerEmbedding := some ⟨[1], [258]⟩ }

private theorem deployedLatents_got : ((exec (deployed parrot onCpu oneWorker 1) anyStep
    (deployed parrot onCpu oneWorker 1).init deployedLatents).get
      deployedLatents_runs).1.pool.server.tasks "a" = some
        (.clone 0 (.computeLatents ⟨"a", "speaker.wav", 0⟩)
          (.got (.item (.latents parrotLatents)))) := by
  decide +kernel

theorem latents_computed_speaker : ∃ wavPath queue,
    Request.computeLatents ⟨"a", "speaker.wav", 0⟩ = .computeLatents ⟨"a", wavPath, queue⟩ ∧
      Conditioned parrot ⟨"a", wavPath, queue⟩ ⟨[1], [258]⟩ ⟨[1], [258]⟩ :=
  latents_computed (reach_of_exec deployedLatents_runs) deployedLatents_got rfl ⟨rfl, rfl⟩

/-! ### Streams -/

def undropped (j : JobId) (_ : DeployedState threads) : DeployedEvent σ → Prop
  | .pool (.server e) => e.drops j = false
  | _ => True

instance (j : JobId) :
    ∀ (s : DeployedState threads) (e : DeployedEvent σ), Decidable (undropped j s e)
  | _, .pool (.server e) => inferInstanceAs (Decidable (e.drops j = false))
  | _, .pool .start => inferInstanceAs (Decidable True)
  | _, .pool (.resumeSpeech _) => inferInstanceAs (Decidable True)
  | _, .pool (.encode _ _) => inferInstanceAs (Decidable True)
  | _, .pool (.abandoned _) => inferInstanceAs (Decidable True)
  | _, .take _ _ => inferInstanceAs (Decidable True)
  | _, .getRaises _ => inferInstanceAs (Decidable True)
  | _, .put _ => inferInstanceAs (Decidable True)

def binaries (tr : List PoolObs) (j : JobId) : List (List UInt8) :=
  (framesTo (serverTrace tr) j).filterMap fun frame => match frame.onWire with
    | .binary bytes => some bytes
    | .text _ => none

/-- The binary messages of a stream that has sent the chunks are these, each by itself and all of
them together. -/
private theorem binaries_decode {j : JobId} {chunks : List SynthesisChunk} {last : List Frame}
    (frames : framesTo (serverTrace tr) j = (chunks.map fun x => .bytes x.chunk) ++ last)
    (text : ∀ frame ∈ last, ∀ c, frame ≠ .bytes c) :
    (binaries tr j).map Words.decode = chunks.map (fun x => some x.chunk.data) ∧
      Words.decode (binaries tr j).flatten = some (chunks.flatMap fun x => x.chunk.data) := by
  have sent : binaries tr j = chunks.map fun x => Words.encode x.chunk.data := by
    rw [binaries, frames, List.filterMap_append, List.filterMap_map]
    have none : last.filterMap (fun frame => match frame.onWire with
        | .binary bytes => some bytes
        | .text _ => none) = [] := by
      refine List.filterMap_eq_nil_iff.mpr fun frame member => ?_
      cases frame with
      | bytes c => exact absurd rfl (text _ member c)
      | done | error => rfl
    rw [none, List.append_nil, ← List.filterMap_eq_map]
    rfl
  rw [sent, List.map_map]
  refine ⟨List.map_congr_left fun x _ => Words.decode_encode _, Words.decode_eq_some_iff.mpr ?_⟩
  clear sent frames
  induction chunks with
  | nil => rfl
  | cons x rest ih =>
    rw [List.map_cons, List.flatten_cons, List.flatMap_cons, Words.encode_append, ih]

/-- While its client stays, what a stream's client has got are the samples that the model's
generator yielded for the text, the language, the parameters and the latents of the request, from
the first on, in order and without a gap; after the message that the stream is done these are all of
them. -/
theorem stream_heard {r : StreamSynthesisRequest} {w : WorkerRef}
    (h : Reach (deployed py args cfg threads) (undropped r.jobId) tr s)
    (dispatched : .server (.dispatched (.stream r) w) ∈ tr) : ∃ sent : List Ndarray,
      Uttered py (args w) r sent (.done ∈ framesTo (serverTrace tr) r.jobId) ∧
      (binaries tr r.jobId).map Words.decode = sent.map (fun chunk => some chunk.data) ∧
      Words.decode (binaries tr r.jobId).flatten = some (sent.flatMap Ndarray.data) := by
  have reach : Reach (server cfg) (stays r.jobId) (serverTrace tr) s.pool.server :=
    deployed_server (fun kept => kept)
      (fun {a event} worker => by cases event <;> first | rfl | cases worker) h
  have visit := visit_staysFresh reach
  have known : .dispatched (.stream r) w ∈ serverTrace tr :=
    List.mem_filterMap.mpr ⟨_, dispatched, rfl⟩
  obtain ⟨pc, task⟩ := stream_task visit known
  obtain ⟨chunks, rest, last, fetched, frames, holds⟩ := (streamed visit task).split
  have text : ∀ frame ∈ last, ∀ c, frame ≠ .bytes c := fun frame member => by
    cases holds with
    | ended _ other => rw [List.mem_singleton.mp member]; exact other
    | _ => cases member
  have ends : .done ∈ framesTo (serverTrace tr) r.jobId →
      ∃ x : SynthesisStreamEnd, rest = [.streamEnd x] ∧ (x.error = none ∨ x.error = some "") :=
        fun done => by
    rw [frames] at done
    cases holds with
    | ended ends => exact ends (by simpa [eq_comm] using done)
    | _ => simp at done
  obtain ⟨each, whole⟩ := binaries_decode frames text
  refine ⟨chunks.map SynthesisChunk.chunk, ?_, by rw [each, List.map_map]; rfl, ?_⟩
  · have arrived : chunks.map Message.chunk ++ rest <+: putOn (serverTrace tr) r.resultQueue := by
      rw [← fetched, fifo visit r.resultQueue]
      exact List.prefix_append ..
    cases put : putOn (serverTrace tr) r.resultQueue with
    | nil =>
      -- Nothing has come from the worker yet.
      rw [put] at arrived
      obtain ⟨none, empty⟩ := List.append_eq_nil_iff.mp (List.prefix_nil.mp arrived)
      refine .inl ⟨by simpa using none, fun done => ?_⟩
      obtain ⟨x, same, -⟩ := ends done
      rw [empty] at same
      cases same
    | cons m more =>
      have first : m ∈ putOn (serverTrace tr) r.resultQueue := by rw [put]; exact List.mem_cons_self
      obtain ⟨obs, told, is⟩ := List.mem_filterMap.mp first
      obtain ⟨v, told⟩ : ∃ v, .replied v (.stream r) m ∈ serverTrace tr := by
        cases obs with
        | replied v r' m' =>
          obtain ⟨queue, rfl⟩ : r'.resultQueue = r.resultQueue ∧ m' = m := by simpa using is
          exact ⟨v, request_of_queue visit (replied_known visit told)
            (dispatched_request visit known) queue ▸ told⟩
        | _ => cases is
      obtain rfl := dispatched_unique visit ((handled visit).replied v _ m told).1 known
      obtain ⟨world, front, -⟩ := (deployed_works h).2.replied v _ m told
      obtain ⟨x, messages, clean⟩ := handler_messages py (args v) r world
      have inside : chunks.map Message.chunk ++ rest <+:
          messagesOf r.jobId (chunksOf py (handlerActs py (args v) r world)) x :=
        arrived.trans (front.trans (by rw [← messages]; rfl))
      refine (handlerActs_served py (args v) r world).uttered.front (chunks_front inside)
        fun done => ?_
      obtain ⟨x', same, quiet⟩ := ends done
      rw [same] at inside
      obtain ⟨all, rfl⟩ := chunks_whole inside
      exact ⟨all, clean quiet⟩
  · rw [whole, List.flatMap_map]

def deployedStream : List (DeployedEvent Unit) :=
  [.pool (.server (.streamTts { text := "hello", speaker := .embedding [[0]] [0] } noSpeakers "a")),
    .pool (.server .resumeDrain), .pool .start, .pool (.server .drainPut),
    .pool (.server .resumeDrain), .pool (.server (.resume "a")), .pool .start, .take 0 (), .put 0,
    .put 0, .pool (.server (.getReply "a")), .pool (.server (.resume "a")),
    .pool (.server (.sent "a")), .pool .start, .pool (.server (.getReply "a")),
    .pool (.server (.resume "a")), .pool (.server (.sent "a"))]

private theorem deployedStream_runs : (exec (deployed parrot onCpu oneWorker 1) (undropped "a")
    (deployed parrot onCpu oneWorker 1).init deployedStream).isSome = true := by decide +kernel

theorem stream_heard_one_chunk :
    ∃ sent : List Ndarray, Uttered parrot (onCpu 0) helloStream sent True ∧
    some (sent.flatMap Ndarray.data) = some [258] := by
  have done :
      .done ∈ framesTo (serverTrace ((exec (deployed parrot onCpu oneWorker 1) (undropped "a")
        (deployed parrot onCpu oneWorker 1).init deployedStream).get
          deployedStream_runs).2) "a" := by
    decide +kernel
  obtain ⟨sent, uttered, -, whole⟩ := stream_heard (r := helloStream) (w := 0)
    (reach_of_exec deployedStream_runs) (by decide +kernel)
  refine ⟨sent, uttered.front (List.prefix_refl sent) fun _ => ⟨rfl, done⟩, whole.symm.trans ?_⟩
  decide +kernel

end XttsServer.Guarantees
