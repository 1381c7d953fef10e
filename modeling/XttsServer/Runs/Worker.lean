import XttsServer.Model.Tasks
import XttsServer.Model.Worker

/-!
What the handlers of the worker process leave behind, for every behaviour of the
libraries they call: one closing message, after the chunks of a stream. It has what the
model made of the request, or the exception that was raised on the way to that.
-/

set_option autoImplicit false
set_option relaxedAutoImplicit false

namespace XttsServer.Model

open XttsServer.Foundations.Effects

variable {σ κ α β γ : Type} {py : Runtime σ κ} {args : WorkerArgs}

/-! ### What the libraries make of a request -/

def Returned (f : LibCall σ α) (a : α) : Prop := ∃ s, (f s).1 = .ok a

def Raised (f : LibCall σ α) (e : PyException) : Prop := ∃ s, (f s).1 = .error e

/-- The latents of a request on the device of the worker. -/
structure OnDevice (py : Runtime σ κ) (args : WorkerArgs) (gpt emb : Ndarray) (g e : κ) : Prop where
  gpt : Returned (py.toDevice gpt args.device) g
  emb : Returned (py.toDevice emb args.device) e

/-- The exception keeps the handler from calling the model. -/
inductive PreparationRaises (py : Runtime σ κ) (args : WorkerArgs) (gpt emb : Ndarray)
    (e : PyException) : Prop
  | gpt (raised : Raised (py.toDevice gpt args.device) e)
  | emb (raised : Raised (py.toDevice emb args.device) e)
  | autocast (raised : Raised (py.autocastEnter args.fp16) e)

/-- The array is what the model makes of the request. -/
def Spoken (py : Runtime σ κ) (args : WorkerArgs) (r : SynthesisRequest) (audio : Ndarray) : Prop :=
  ∃ g e outputs wav, OnDevice py args r.gptCondLatent r.speakerEmbedding g e ∧
    Returned (py.inference r.text r.language g e r.params) outputs ∧
    Returned (py.wav outputs) wav ∧ py.toFloat32 wav = .ok audio

/-- A step of the synthesis of the request raises. -/
inductive SynthesisRaises (py : Runtime σ κ) (args : WorkerArgs) (r : SynthesisRequest)
    (e : PyException) : Prop
  | preparation (raised : PreparationRaises py args r.gptCondLatent r.speakerEmbedding e)
  | inference {gpt emb : κ} (device : OnDevice py args r.gptCondLatent r.speakerEmbedding gpt emb)
      (raised : Raised (py.inference r.text r.language gpt emb r.params) e)
  | autocast (raised : Raised py.autocastExit e)
  | wav {gpt emb outputs : κ} (device : OnDevice py args r.gptCondLatent r.speakerEmbedding gpt emb)
      (spoke : Returned (py.inference r.text r.language gpt emb r.params) outputs)
      (raised : Raised (py.wav outputs) e)
  | conversion {gpt emb outputs wav : κ}
      (device : OnDevice py args r.gptCondLatent r.speakerEmbedding gpt emb)
      (spoke : Returned (py.inference r.text r.language gpt emb r.params) outputs)
      (wave : Returned (py.wav outputs) wav) (raised : py.toFloat32 wav = .error e)
  | length {audio : Ndarray} (spoken : Spoken py args r audio) (raised : pyLen py audio = .error e)
  | memory {audio : Ndarray} (spoken : Spoken py args r audio)
      (raised : Raised (py.memoryAllocated args.gpuIndex) e)

/-- The generator is one that the model returns for the request. -/
def Generates (py : Runtime σ κ) (args : WorkerArgs) (r : StreamSynthesisRequest)
    (chunks : Generator σ κ) : Prop :=
  ∃ g e, OnDevice py args r.gptCondLatent r.speakerEmbedding g e ∧
    Returned (py.inferenceStream r.text r.language g e r.params) chunks

/-- The chunk is what a `next` on the generator yields, converted. -/
def Yields (py : Runtime σ κ) (next : LibCall σ κ) (chunk : Ndarray) : Prop :=
  ∃ x, Returned next x ∧ py.toFloat32 x = .ok chunk

/-- The chunks are the first ones of a generator of the request; they are all of its chunks if it
has come to its end. -/
def Uttered (py : Runtime σ κ) (args : WorkerArgs) (r : StreamSynthesisRequest)
    (chunks : List Ndarray) (whole : Prop) : Prop :=
  chunks = [] ∧ ¬ whole ∨ ∃ generator, Generates py args r generator ∧
    List.Forall₂ (Yields py) (generator.yields.take chunks.length) chunks ∧
    (whole → generator.yields.length = chunks.length)

/-- The chunks are all that a generator of the request yields, and it ends without an exception. -/
def UtteredWhole (py : Runtime σ κ) (args : WorkerArgs) (r : StreamSynthesisRequest)
    (chunks : List Ndarray) : Prop :=
  ∃ generator, Generates py args r generator ∧ List.Forall₂ (Yields py) generator.yields chunks ∧
    Returned generator.finish ()

/-- Once these chunks have been yielded, a step of the stream of the request raises. -/
inductive StreamRaises (py : Runtime σ κ) (args : WorkerArgs) (r : StreamSynthesisRequest)
    (chunks : List Ndarray) (e : PyException) : Prop
  | preparation (none : chunks = [])
      (raised : PreparationRaises py args r.gptCondLatent r.speakerEmbedding e)
  | model {gpt emb : κ} (none : chunks = [])
      (device : OnDevice py args r.gptCondLatent r.speakerEmbedding gpt emb)
      (raised : Raised (py.inferenceStream r.text r.language gpt emb r.params) e)
  | next {generator : Generator σ κ} {next : LibCall σ κ} (made : Generates py args r generator)
      (each : List.Forall₂ (Yields py) (generator.yields.take chunks.length) chunks)
      (here : generator.yields[chunks.length]? = some next) (raised : Raised next e)
  | conversion {generator : Generator σ κ} {next : LibCall σ κ} {x : κ}
      (made : Generates py args r generator)
      (each : List.Forall₂ (Yields py) (generator.yields.take chunks.length) chunks)
      (here : generator.yields[chunks.length]? = some next) (yielded : Returned next x)
      (raised : py.toFloat32 x = .error e)
  | finish {generator : Generator σ κ} (made : Generates py args r generator)
      (each : List.Forall₂ (Yields py) generator.yields chunks) (raised : Raised generator.finish e)
  | autocast (uttered : Uttered py args r chunks False) (raised : Raised py.autocastExit e)

/-- The arrays are the latents that the model finds in the file. -/
def Conditioned (py : Runtime σ κ) (r : ComputeLatentsRequest) (gpt emb : Ndarray) : Prop :=
  ∃ g e, Returned (py.getConditioningLatents [r.wavPath]) (g, e) ∧ Returned (py.cpuNumpy g) gpt ∧
    Returned (py.cpuNumpy e) emb

/-- A step of the computation of the latents raises. -/
inductive LatentsRaise (py : Runtime σ κ) (r : ComputeLatentsRequest) (e : PyException) : Prop
  | model (raised : Raised (py.getConditioningLatents [r.wavPath]) e)
  | gpt {gpt emb : κ} (found : Returned (py.getConditioningLatents [r.wavPath]) (gpt, emb))
      (raised : Raised (py.cpuNumpy gpt) e)
  | emb {gpt emb : κ} (found : Returned (py.getConditioningLatents [r.wavPath]) (gpt, emb))
      (raised : Raised (py.cpuNumpy emb) e)

/-- The chunks and the outcome of the closing message are what the libraries make of the request: it
has arrays when every step has returned, and an exception when a step has raised it. -/
inductive Answers (py : Runtime σ κ) (args : WorkerArgs) :
    Request → List Ndarray → ModelOutcome → Prop
  | spoken {r : SynthesisRequest} {audio other : Ndarray} (spoken : Spoken py args r audio) :
      Answers py args (.synthesis r) [] (.arrays audio other)
  | unspoken {r : SynthesisRequest} {e : PyException} (raised : SynthesisRaises py args r e) :
      Answers py args (.synthesis r) [] (.raised e.traceback)
  | uttered {r : StreamSynthesisRequest} {chunks : List Ndarray} {a b : Ndarray}
      (whole : UtteredWhole py args r chunks) : Answers py args (.stream r) chunks (.arrays a b)
  | unuttered {r : StreamSynthesisRequest} {chunks : List Ndarray} {e : PyException}
      (uttered : Uttered py args r chunks False) (raised : StreamRaises py args r chunks e) :
      Answers py args (.stream r) chunks (.raised e.traceback)
  | conditioned {r : ComputeLatentsRequest} {gpt emb : Ndarray} (found : Conditioned py r gpt emb) :
      Answers py args (.computeLatents r) [] (.arrays gpt emb)
  | unconditioned {r : ComputeLatentsRequest} {e : PyException} (raised : LatentsRaise py r e) :
      Answers py args (.computeLatents r) [] (.raised e.traceback)

/-! ### Parts of a handler -/

/-- The chunks that the stream loop has for its `result_queue`: what the generator yielded,
converted. -/
def chunksOf (py : Runtime σ κ) (acts : List (Act κ)) : List Ndarray :=
  (yieldedIn acts).filterMap fun x => (py.toFloat32 x).toOption

@[simp] theorem chunksOf_append (o o' : List (Act κ)) :
    chunksOf py (o ++ o') = chunksOf py o ++ chunksOf py o' := by
  simp [chunksOf]

private theorem chunksOf_quiet {acts : List (Act κ)} (quiet : yieldedIn acts = []) :
    chunksOf py acts = [] := by
  rw [chunksOf, quiet]
  rfl

def chunkPuts (queue : QueueId) (jobId : JobId) (chunks : List Ndarray) :
    List (QueueId × Message) :=
  chunks.map fun chunk => (queue, .chunk { jobId, chunk })

@[simp] theorem chunkPuts_append (queue : QueueId) (jobId : JobId) (cs cs' : List Ndarray) :
    chunkPuts queue jobId (cs ++ cs') = chunkPuts queue jobId cs ++ chunkPuts queue jobId cs' :=
  List.map_append

def errorOf : Except PyException α → Option PyException
  | .ok _ => none
  | .error e => some e

/-- What a part of the handler of a request leaves: every chunk that it has converted has been
put and nothing else, and it ends with the last exception that was raised in it. -/
structure Part (py : Runtime σ κ) (r : Request) (α : Type) (acts : List (Act κ))
    (ended : Except PyException α) : Prop where
  puts : puts acts = chunkPuts r.resultQueue r.jobId (chunksOf py acts)
  streams : (∀ r', r ≠ .stream r') → yieldedIn acts = []
  raised : (raisedIn acts).getLast? = errorOf ended

private theorem raised_append {o o' : List (Act κ)} {r : Except PyException α}
    {r' : Except PyException β} (h : (raisedIn o).getLast? = errorOf r)
    (h' : (raisedIn o').getLast? = errorOf r') :
    (raisedIn (o ++ o')).getLast? = (errorOf r').or (errorOf r) := by
  rw [raisedIn_append, List.getLast?_append, h, h']

private theorem Part.append {r : Request} {o o' : List (Act κ)} {ended : Except PyException α}
    {ended' : Except PyException β} {last : Except PyException γ} (h : Part py r α o ended)
    (h' : Part py r β o' ended') (same : (errorOf ended').or (errorOf ended) = errorOf last) :
    Part py r γ (o ++ o') last where
  puts := by simp [h.puts, h'.puts]
  streams whole := by simp [h.streams whole, h'.streams whole]
  raised := (raised_append h.raised h'.raised).trans same

private theorem part_compositional (py : Runtime σ κ) (r : Request) :
    Compositional (Part py r) where
  done _ := ⟨rfl, fun _ => rfl, rfl⟩
  goes h h' := h.append h' (Option.or_none ..)
  stops h := ⟨h.puts, h.streams, h.raised⟩
  cleans h h' := h.append h' rfl
  replaces h h' := h.append h' rfl

variable {r : Request}

private theorem part_call (f : LibCall σ α) : Sat (call f) (Part py r α) :=
  sat_call (fun _ => ⟨rfl, fun _ => rfl, rfl⟩) fun _ => ⟨rfl, fun _ => rfl, rfl⟩

private theorem sat_elapsed_bind {t0 : ℚ} {f : ℚ → Worker σ κ α}
    {Q : List (Act κ) → Except PyException α → Prop} (next : ∀ ms, Sat (f ms) Q) :
    Sat (elapsedSince py t0 >>= f) Q :=
  fun s => next _ (py.monotonic s).2

private theorem sat_clock_bind {f : ℚ → Worker σ κ α}
    {Q : List (Act κ) → Except PyException α → Prop} (next : ∀ t0, Sat (f t0) Q) :
    Sat (read py.monotonic >>= f) Q :=
  fun s => next _ (py.monotonic s).2

private theorem finishes_libCall {f : LibCall σ α} {V : PyException → Prop}
    (raises : ∀ e, Raised f e → V e) :
    Finishes (call f : Worker σ κ α) (Returned f) V :=
  finishes_call (fun s _ returned => ⟨s, returned⟩) fun s e raised => raises e ⟨s, raised⟩

private theorem finishes_callPure {x : Except PyException α} {V : PyException → Prop}
    (raises : ∀ e, x = .error e → V e) :
    Finishes (callPure x : Worker σ κ α) (fun a => x = .ok a) V :=
  finishes_call (fun _ _ returned => returned) fun _ e raised => raises e raised

/-! ### Synthesis -/

private theorem part_synthesize (request : SynthesisRequest) (t0 : ℚ) :
    Sat (synthesize py args request t0) (Part py r _) := by
  have seq := part_compositional py r
  refine seq.bind (part_call _) fun _ => seq.bind (part_call _) fun _ => ?_
  refine seq.bind (seq.within (part_call _) (part_call _) (part_call _)) fun _ => ?_
  refine seq.bind (part_call _) fun _ => seq.bind (part_call _) fun _ => ?_
  refine sat_elapsed_bind fun _ => seq.bind (part_call _) fun _ => ?_
  split
  · exact seq.bind (part_call _) fun _ => seq.pure _
  · exact seq.pure _

private theorem finishes_synthesize (request : SynthesisRequest) (t0 : ℚ) :
    Finishes (synthesize py args request t0) (fun p => Spoken py args request p.1)
      (SynthesisRaises py args request) := by
  refine (finishes_libCall fun _ raised => .preparation (.gpt raised)).bind fun g gpt => ?_
  refine (finishes_libCall fun _ raised => .preparation (.emb raised)).bind fun e emb => ?_
  have device : OnDevice py args request.gptCondLatent request.speakerEmbedding g e := ⟨gpt, emb⟩
  refine (Finishes.within (finishes_libCall fun _ raised => .preparation (.autocast raised))
    (finishes_libCall fun _ raised => .autocast raised)
    (finishes_libCall fun _ raised => .inference device raised)).bind fun outputs spoke => ?_
  refine (finishes_libCall fun _ raised => .wav device spoke raised).bind fun wav wave => ?_
  refine (finishes_callPure fun _ raised => .conversion device spoke wave raised).bind
    fun audio converted => ?_
  have meets : Spoken py args request audio := ⟨g, e, outputs, wav, device, spoke, wave, converted⟩
  refine sat_elapsed_bind fun _ =>
    Finishes.bind (finishes_callPure fun _ raised => .length meets raised) fun _ _ => ?_
  split
  · exact (finishes_libCall fun _ raised => .memory meets raised).bind fun _ _ =>
      finishes_pure meets
  · exact finishes_pure meets

/-! ### Streams -/

private theorem UtteredWhole.uttered {request : StreamSynthesisRequest} {chunks : List Ndarray}
    {whole : Prop} (h : UtteredWhole py args request chunks) :
    Uttered py args request chunks whole := by
  obtain ⟨generator, made, each, -⟩ := h
  refine .inr ⟨generator, made, ?_, fun _ => each.length_eq⟩
  rwa [List.take_of_length_le each.length_eq.le]

theorem Uttered.front {request : StreamSynthesisRequest} {chunks first : List Ndarray}
    {whole all : Prop} (h : Uttered py args request chunks whole) (front : first <+: chunks)
    (ends : all → first = chunks ∧ whole) : Uttered py args request first all := by
  rcases h with ⟨rfl, short⟩ | ⟨generator, made, each, whole⟩
  · exact .inl ⟨List.prefix_nil.mp front, fun done => short (ends done).2⟩
  · refine .inr ⟨generator, made, ?_, fun done => ?_⟩
    · have taken := List.forall₂_take first.length each
      rwa [List.take_take, min_eq_left front.length_le, ← List.prefix_iff_eq_take.mp front] at taken
    · obtain ⟨rfl, closed⟩ := ends done
      exact whole closed

private theorem part_streamChunks (request : StreamSynthesisRequest) (finish : LibCall σ Unit)
    (yields : List (LibCall σ κ)) :
    Sat (streamChunks py request finish yields) (Part py (.stream request) _) := by
  have seq := part_compositional py (.stream request)
  induction yields with
  | nil => exact part_call finish
  | cons next rest ih =>
    refine seq.bind (part_call next) fun chunk => sat_tell_bind ?_
    cases converted : py.toFloat32 chunk with
    | error e =>
      refine fun s => ⟨?_, fun other => absurd rfl (other request), rfl⟩
      change puts [.yielded chunk, .raised e] =
        chunkPuts _ _ (chunksOf py [.yielded chunk, .raised e])
      simp [chunksOf, converted, Except.toOption, chunkPuts]
    | ok chunkNp =>
      rw [callPure_ok_bind]
      refine sat_tell_bind (ih.mono fun o r' h =>
        ⟨?_, fun other => absurd rfl (other request), by simpa using h.raised⟩)
      simp [h.puts, chunksOf, converted, Except.toOption, chunkPuts, Request.resultQueue,
        Request.jobId]

private theorem part_streamBody (request : StreamSynthesisRequest) (t0 : ℚ) :
    Sat (streamBody py args request t0) (Part py (.stream request) _) := by
  have seq := part_compositional py (.stream request)
  refine seq.bind (part_call _) fun _ => seq.bind (part_call _) fun _ => ?_
  refine seq.bind (seq.within (part_call _) (part_call _) ?_) fun _ => ?_
  · exact seq.bind (part_call _) fun chunks => part_streamChunks request _ _
  · exact seq.bind (part_call _) fun _ => seq.pure _

private theorem call_quiet (f : LibCall σ α) :
    Sat (call f : Worker σ κ α) fun o ended => yieldedIn o = [] ∧
      (∀ a, ended = .ok a → Returned f a) ∧ ∀ e, ended = .error e → Raised f e :=
  (sat_call (Q := fun o _ => yieldedIn o = []) (fun _ => rfl) fun _ => rfl).and
    (finishes_libCall fun _ raised => raised)

/-- How the loop over these calls ends: after the last of them, or in one that raises or yields what
cannot be converted. -/
private structure LoopLeaves (py : Runtime σ κ) (finish : LibCall σ Unit)
    (yields : List (LibCall σ κ)) (acts : List (Act κ)) (ended : Except PyException Unit) :
    Prop where
  each : List.Forall₂ (Yields py) (yields.take (chunksOf py acts).length) (chunksOf py acts)
  returned : ended = .ok () → yields.length = (chunksOf py acts).length ∧ Returned finish ()
  raised : ∀ e, ended = .error e →
    (∃ next, yields[(chunksOf py acts).length]? = some next ∧
      (Raised next e ∨ ∃ x, Returned next x ∧ py.toFloat32 x = .error e)) ∨
    yields.length = (chunksOf py acts).length ∧ Raised finish e

private theorem loop_leaves (request : StreamSynthesisRequest) (finish : LibCall σ Unit)
    (yields : List (LibCall σ κ)) :
    Sat (streamChunks py request finish yields) (LoopLeaves py finish yields) := by
  induction yields with
  | nil =>
    refine (call_quiet finish).mono ?_
    rintro o ended ⟨quiet, returns, raises⟩
    have none : chunksOf py o = [] := chunksOf_quiet quiet
    refine ⟨by simp [none], fun ended => ?_, fun e ended => .inr ?_⟩
    · exact ⟨by simp [none], returns () ended⟩
    · exact ⟨by simp [none], raises e ended⟩
  | cons next rest ih =>
    refine (call_quiet next).bind ?_ ?_
    · rintro o x ⟨quiet, returns, -⟩
      have front (o' : List (Act κ)) : chunksOf py (o ++ .yielded x :: o') =
          ((py.toFloat32 x).toOption.toList) ++ chunksOf py o' := by
        rw [chunksOf_append, chunksOf_quiet quiet]
        cases converted : py.toFloat32 x <;> simp [chunksOf, converted, Except.toOption]
      refine sat_tell_bind ?_
      cases converted : py.toFloat32 x with
      | error e =>
        have none : chunksOf py (o ++ [.yielded x, .raised e]) = [] := by
          rw [front, converted]
          rfl
        have leaves :
            LoopLeaves py finish (next :: rest) (o ++ [.yielded x, .raised e]) (.error e) := by
          refine ⟨by simp [none], nofun, fun e' same => .inl ⟨next, by simp [none], .inr ?_⟩⟩
          exact ⟨x, returns x rfl, Except.error.inj same ▸ converted⟩
        exact fun s => leaves
      | ok c =>
        rw [callPure_ok_bind]
        refine sat_tell_bind (ih.mono fun o' ended h => ?_)
        have all : chunksOf py (o ++ .yielded x :: .put request.resultQueue
            (.chunk ⟨request.jobId, c⟩) :: o') = c :: chunksOf py o' := by
          rw [front, converted]
          simp [chunksOf, Except.toOption]
        refine ⟨?_, fun returned => ?_, fun e raised => ?_⟩
        · rw [all]
          exact .cons ⟨x, returns x rfl, converted⟩ h.each
        · rw [all]
          exact (h.returned returned).imp (congrArg (· + 1)) id
        · rw [all]
          exact (h.raised e raised).imp id fun stuck => stuck.imp (congrArg (· + 1)) id
    · rintro o e ⟨quiet, -, raises⟩
      have none : chunksOf py o = [] := chunksOf_quiet quiet
      refine ⟨by simp [none], nofun, fun e' same => .inl ⟨next, by simp [none], .inl ?_⟩⟩
      exact Except.error.inj same ▸ raises e rfl

/-- How a part of the handler of a stream ends: with all the chunks of a generator, or with an
exception after the first of them. -/
private structure StreamLeaves (py : Runtime σ κ) (args : WorkerArgs)
    (request : StreamSynthesisRequest) (acts : List (Act κ)) (ended : Except PyException α) :
    Prop where
  returned : ∀ a, ended = .ok a → UtteredWhole py args request (chunksOf py acts)
  raised : ∀ e, ended = .error e → Uttered py args request (chunksOf py acts) False ∧
    StreamRaises py args request (chunksOf py acts) e

section Streams

variable {request : StreamSynthesisRequest} {acts acts' : List (Act κ)}

private theorem StreamLeaves.uttered {ended : Except PyException α}
    (h : StreamLeaves py args request acts ended) :
    Uttered py args request (chunksOf py acts) False := by
  cases ended with
  | ok a => exact (h.returned a rfl).uttered
  | error e => exact (h.raised e rfl).1

private theorem StreamLeaves.congr {ended : Except PyException α}
    (h : StreamLeaves py args request acts ended) (same : chunksOf py acts' = chunksOf py acts) :
    StreamLeaves py args request acts' ended := by
  constructor
  · rw [same]
    exact h.returned
  · rw [same]
    exact h.raised

private theorem leaves_raised {e : PyException}
    (uttered : Uttered py args request (chunksOf py acts) False)
    (raised : StreamRaises py args request (chunksOf py acts) e) :
    StreamLeaves py args request acts (.error e : Except PyException α) :=
  ⟨fun _ => nofun, fun _ same => Except.error.inj same ▸ ⟨uttered, raised⟩⟩

private theorem leaves_quiet {e : PyException} (quiet : yieldedIn acts = [])
    (raised : StreamRaises py args request [] e) :
    StreamLeaves py args request acts (.error e : Except PyException α) := by
  have none : chunksOf py acts = [] := chunksOf_quiet quiet
  refine leaves_raised ?_ (none ▸ raised)
  exact .inl ⟨none, id⟩

private theorem LoopLeaves.stream {generator : Generator σ κ} {ended : Except PyException Unit}
    (made : Generates py args request generator)
    (h : LoopLeaves py generator.finish generator.yields acts ended) :
    StreamLeaves py args request acts ended := by
  have whole : generator.yields.length = (chunksOf py acts).length →
      List.Forall₂ (Yields py) generator.yields (chunksOf py acts) := fun all => by
    have each := h.each
    rwa [List.take_of_length_le all.le] at each
  refine ⟨fun a returned => ?_, fun e raised => ⟨.inr ⟨generator, made, h.each, False.elim⟩, ?_⟩⟩
  · obtain ⟨all, ended⟩ := h.returned returned
    exact ⟨generator, made, whole all, ended⟩
  · rcases h.raised e raised with ⟨next, here, raises | ⟨x, yielded, raises⟩⟩ | ⟨all, raises⟩
    · exact .next made h.each here raises
    · exact .conversion made h.each here yielded raises
    · exact .finish made (whole all) raises

private theorem with_leaves {gpt emb : κ}
    (device : OnDevice py args request.gptCondLatent request.speakerEmbedding gpt emb) :
    Sat (withAutocast py args.fp16 (do
        let chunks ← call (py.inferenceStream request.text request.language gpt emb request.params)
        streamChunks py request chunks.finish chunks.yields) : Worker σ κ Unit)
      (StreamLeaves py args request) := by
  have loop : Sat (do
        let chunks ← call (py.inferenceStream request.text request.language gpt emb request.params)
        streamChunks py request chunks.finish chunks.yields) (StreamLeaves py args request) := by
    refine (call_quiet _).bind ?_ ?_
    · rintro o generator ⟨quiet, returns, -⟩
      refine (loop_leaves request _ _).mono fun o' ended h => ?_
      exact (h.stream ⟨gpt, emb, device, returns generator rfl⟩).congr
        (by simp [chunksOf_quiet quiet])
    · rintro o e ⟨quiet, -, raises⟩
      exact leaves_quiet quiet (.model rfl device (raises e rfl))
  refine Sat.within (call_quiet _) (call_quiet _) loop ?_ ?_ ?_
  · rintro o e ⟨quiet, -, raises⟩
    exact leaves_quiet quiet (.preparation rfl (.autocast (raises e rfl)))
  · rintro o o' o'' ended ⟨before, -⟩ h ⟨after, -⟩
    exact h.congr (by simp [chunksOf_quiet before, chunksOf_quiet after])
  · rintro o o' o'' ended e ⟨before, -⟩ h ⟨after, -, raises⟩
    have same : chunksOf py (o ++ (o' ++ o'')) = chunksOf py o' := by
      simp [chunksOf_quiet before, chunksOf_quiet after]
    have uttered := same.symm ▸ h.uttered
    exact leaves_raised uttered (.autocast uttered (raises e rfl))

/-- What the body of the handler leaves, whether it returns or raises. -/
private theorem streamBody_leaves (request : StreamSynthesisRequest) (t0 : ℚ) :
    Sat (streamBody py args request t0) (StreamLeaves py args request) := by
  refine (call_quiet _).bind ?_ ?_
  · rintro o₁ gpt ⟨quiet₁, returns₁, -⟩
    refine (call_quiet _).bind ?_ ?_
    · rintro o₂ emb ⟨quiet₂, returns₂, -⟩
      have front (o : List (Act κ)) : chunksOf py (o₁ ++ (o₂ ++ o)) = chunksOf py o := by
        simp [chunksOf_quiet quiet₁, chunksOf_quiet quiet₂]
      refine (with_leaves ⟨returns₁ gpt rfl, returns₂ emb rfl⟩).bind ?_ ?_
      · refine fun o _ h => sat_elapsed_bind fun ms => sat_pure ⟨fun _ _ => ?_, fun _ => nofun⟩
        rw [List.append_nil, front]
        exact h.returned () rfl
      · exact fun o e h => leaves_raised (front o ▸ (h.raised e rfl).1)
          (front o ▸ (h.raised e rfl).2)
    · rintro o₂ e ⟨quiet₂, -, raises⟩
      exact leaves_quiet (by simp [quiet₁, quiet₂]) (.preparation rfl (.emb (raises e rfl)))
  · rintro o₁ e ⟨quiet, -, raises⟩
    exact leaves_quiet quiet (.preparation rfl (.gpt (raises e rfl)))

end Streams

/-! ### Latents -/

private theorem part_conditioningLatents (request : ComputeLatentsRequest) (t0 : ℚ) :
    Sat (conditioningLatents py request t0) (Part py r _) := by
  have seq := part_compositional py r
  refine seq.bind (part_call _) fun _ => sat_elapsed_bind fun _ => ?_
  exact seq.bind (part_call _) fun _ => seq.bind (part_call _) fun _ => seq.pure _

private theorem finishes_conditioningLatents (request : ComputeLatentsRequest) (t0 : ℚ) :
    Finishes (conditioningLatents py request t0) (fun result => ∃ gpt emb,
      Conditioned py request gpt emb ∧
        .latents result = closingMessage (.computeLatents request) (.arrays gpt emb))
      (LatentsRaise py request) := by
  refine (finishes_libCall fun _ raised => .model raised).bind ?_
  rintro ⟨g, e⟩ found
  refine sat_elapsed_bind fun _ => Finishes.bind (finishes_libCall fun _ raised =>
    .gpt found raised) fun gpt first => ?_
  refine (finishes_libCall fun _ raised => .emb found raised).bind fun emb second =>
    finishes_pure ?_
  exact ⟨gpt, emb, ⟨g, e, found, first, second⟩, rfl⟩

/-! ### The handlers -/

def ModelOutcome.raised? : ModelOutcome → Option String
  | .arrays _ _ => none
  | .raised traceback => some traceback

/-- What the handling of a request leaves: the chunks of a stream, in the order in which the
generator yielded them, and then one closing message, with an error when a call has raised. Chunks
and message are what the libraries make of the request. -/
structure Served (py : Runtime σ κ) (args : WorkerArgs) (r : Request) (acts : List (Act κ)) :
    Prop where
  replies : ∃ outcome : ModelOutcome,
    puts acts = chunkPuts r.resultQueue r.jobId (chunksOf py acts) ++
      [(r.resultQueue, closingMessage r outcome)] ∧
    outcome.raised? = (raisedIn acts).getLast?.map PyException.traceback ∧
    Answers py args r (chunksOf py acts) outcome
  streams : (∀ r', r ≠ .stream r') → yieldedIn acts = []

def Replies (py : Runtime σ κ) (args : WorkerArgs) (r : Request) (acts : List (Act κ))
    (ended : Except PyException α) : Prop :=
  (∃ a, ended = .ok a) ∧ Served py args r acts

private theorem Part.closed {acts : List (Act κ)} {ended : Except PyException α}
    (h : Part py r α acts ended) {outcome : ModelOutcome}
    (told : outcome.raised? = (errorOf ended).map PyException.traceback)
    (answers : Answers py args r (chunksOf py acts) outcome) :
    Served py args r (acts ++ [.put r.resultQueue (closingMessage r outcome)]) := by
  have same : chunksOf py (acts ++ [.put r.resultQueue (closingMessage r outcome)]) =
      chunksOf py acts := by
    simp [chunksOf]
  refine ⟨⟨outcome, ?_, by simp [told, h.raised], same ▸ answers⟩,
    fun whole => by simp [h.streams whole]⟩
  rw [same]
  simp [h.puts]

private theorem Part.silent {acts : List (Act κ)} {ended : Except PyException α}
    (h : Part py r α acts ended) (whole : ∀ r', r ≠ .stream r') : chunksOf py acts = [] :=
  chunksOf_quiet (h.streams whole)

private theorem serves_put {acts : List (Act κ)} {ended : Except PyException α}
    (outcome : ModelOutcome) (h : Part py r α acts ended)
    (told : outcome.raised? = (errorOf ended).map PyException.traceback)
    (answers : Answers py args r (chunksOf py acts) outcome) (b : β) :
    Sat (do put r.resultQueue (closingMessage r outcome); return b : Worker σ κ β)
      fun o res => Replies py args r (acts ++ o) res :=
  sat_tell_bind (sat_pure ⟨⟨b, rfl⟩, h.closed told answers⟩)

/-- The shape of the two handlers that put their last message inside of the `try` when the body
has returned, and in the `except` when it has raised: they put it once, since nothing comes
after it. -/
private theorem serves_try {B : List (Act κ) → Except PyException α → Prop} {attempt : Worker σ κ α}
    {finish : α → Worker σ κ β} {handler : PyException → Worker σ κ β} (body : Sat attempt B)
    (returns : ∀ a o, B o (.ok a) → Sat (finish a) fun o' res => Replies py args r (o ++ o') res)
    (caught : ∀ e o, B o (.error e) → Sat (handler e) fun o' res =>
      Replies py args r (o ++ o') res) :
    Sat (tryCatch (attempt >>= finish) handler) (Replies py args r) := by
  refine Sat.tryCatch (P := fun o res => Replies py args r o res ∨ ∃ e, res = .error e ∧
    B o (.error e)) (body.bind (fun o a h => (returns a o h).mono fun _ _ => .inl) fun o e h =>
      .inr ⟨e, rfl, h⟩) ?_ ?_
  · rintro o b (served | ⟨e, raised, -⟩)
    · exact served
    · cases raised
  · rintro o e (⟨⟨a, returned⟩, -⟩ | ⟨e', raised, h⟩)
    · cases returned
    · obtain rfl := Except.error.inj raised
      exact caught e o h

private theorem synthesis_serves (request : SynthesisRequest) :
    Sat (handleSynthesis py args request) (Replies py args (.synthesis request)) := by
  refine sat_clock_bind fun t0 =>
    serves_try ((part_synthesize (r := .synthesis request) request t0).and
      (finishes_synthesize request t0)) ?_ ?_
  · rintro ⟨audio, ms⟩ o ⟨h, spoken, -⟩
    refine serves_put (.arrays audio audio) h rfl ?_ ms
    rw [h.silent (by simp)]
    exact .spoken (spoken _ rfl)
  · rintro e o ⟨h, -, raised⟩
    refine sat_elapsed_bind fun ms => serves_put (.raised e.traceback) h rfl ?_ ms
    rw [h.silent (by simp)]
    exact .unspoken (raised e rfl)

theorem stream_serves (request : StreamSynthesisRequest) :
    Sat (handleStream py args request) (Replies py args (.stream request)) := by
  refine sat_clock_bind fun t0 =>
    serves_try ((part_streamBody request t0).and (streamBody_leaves request t0)) ?_ ?_
  · rintro ms o ⟨h, leaves⟩
    exact serves_put (.arrays ⟨[], []⟩ ⟨[], []⟩) h rfl (.uttered (leaves.returned ms rfl)) ms
  · rintro e o ⟨h, leaves⟩
    obtain ⟨uttered, raised⟩ := leaves.raised e rfl
    exact sat_elapsed_bind fun ms =>
      serves_put (.raised e.traceback) h rfl (.unuttered uttered raised) ms

/-- Here the message is put after the `try`, once for both of its ends. -/
private theorem computeLatents_serves (request : ComputeLatentsRequest) :
    Sat (handleComputeLatents py request) (Replies py args (.computeLatents request)) := by
  refine sat_clock_bind fun t0 => ?_
  refine Sat.bind (P := fun o res => ∃ outcome : ModelOutcome,
    ∃ ended : Except PyException LatentsResult, ∃ result, res = .ok result ∧
      .latents result = closingMessage (.computeLatents request) outcome ∧
      Part py (.computeLatents request) _ o ended ∧
      outcome.raised? = (errorOf ended).map PyException.traceback ∧
      Answers py args (.computeLatents request) [] outcome)
    (((part_conditioningLatents (r := .computeLatents request) request t0).and
      (finishes_conditioningLatents request t0)).tryCatch ?_ ?_) ?_ ?_
  · rintro o result ⟨h, returns, -⟩
    obtain ⟨gpt, emb, found, same⟩ := returns result rfl
    exact ⟨.arrays gpt emb, .ok result, result, rfl, same, h, rfl, .conditioned found⟩
  · rintro o e ⟨h, -, raised⟩
    refine sat_elapsed_bind fun _ => sat_pure ?_
    rw [List.append_nil]
    exact ⟨.raised e.traceback, .error e, _, rfl, rfl, h, rfl, .unconditioned (raised e rfl)⟩
  · rintro o result ⟨outcome, ended, result', returned, same, h, told, answers⟩
    obtain rfl := Except.ok.inj returned
    rw [same]
    exact sat_tell ⟨⟨(), rfl⟩, h.closed told (h.silent (by simp) ▸ answers)⟩
  · rintro o e ⟨_, _, _, raised, -⟩
    cases raised

theorem handle_serves (stats : WorkerStats) (r : Request) :
    Sat (handle py args stats r) (Replies py args r) := by
  have count : ∀ {α : Type} {x : Worker σ κ α} (f : α → WorkerStats), Sat x (Replies py args r) →
      Sat (do let a ← x; return f a) (Replies py args r) := by
    intro α x f served
    refine served.bind (fun o a h => sat_pure ?_) fun o e h => ?_
    · rw [List.append_nil]
      exact ⟨⟨f a, rfl⟩, h.2⟩
    · obtain ⟨⟨_, returned⟩, -⟩ := h
      cases returned
  cases r with
  | synthesis request => exact count _ (synthesis_serves request)
  | stream request => exact count _ (stream_serves request)
  | computeLatents request => exact count (fun _ => stats) (computeLatents_serves request)

/-! ### What the messages say -/

section Messages

variable {acts : List (Act κ)}

theorem Served.outcome (h : Served py args r acts) : ∃ outcome : ModelOutcome,
    puts acts = chunkPuts r.resultQueue r.jobId (chunksOf py acts) ++
      [(r.resultQueue, closingMessage r outcome)] ∧ outcome ≠ .raised "" := by
  obtain ⟨outcome, told, raised, -⟩ := h.replies
  refine ⟨outcome, told, ?_⟩
  rintro rfl
  obtain ⟨e, -, empty⟩ := Option.map_eq_some_iff.mp raised.symm
  exact e.nonempty empty

theorem Served.spoken {request : SynthesisRequest} (h : Served py args (.synthesis request) acts)
    {q : QueueId} {x : SynthesisResult} {audio : Ndarray} (told : (q, .result x) ∈ puts acts)
    (array : x.audio = some audio) :
    x = { jobId := request.jobId, audio := some audio } ∧ Spoken py args request audio := by
  obtain ⟨outcome, all, -, answers⟩ := h.replies
  rw [chunksOf_quiet (h.streams (by simp))] at all answers
  rw [all] at told
  have last : (q, .result x) = ((Request.synthesis request).resultQueue,
      closingMessage (.synthesis request) outcome) := by
    simpa [chunkPuts] using told
  obtain ⟨-, same⟩ := Prod.mk.inj last
  cases answers with
  | spoken spoken =>
    obtain rfl := Message.result.inj same
    obtain rfl := Option.some.inj array
    exact ⟨rfl, spoken⟩
  | unspoken =>
    obtain rfl := Message.result.inj same
    cases array

theorem Served.conditioned {request : ComputeLatentsRequest}
    (h : Served py args (.computeLatents request) acts) {q : QueueId} {x : LatentsResult}
    {gpt emb : Ndarray} (told : (q, .latents x) ∈ puts acts) (first : x.gptCondLatent = some gpt)
    (second : x.speakerEmbedding = some emb) : Conditioned py request gpt emb := by
  obtain ⟨outcome, all, -, answers⟩ := h.replies
  rw [chunksOf_quiet (h.streams (by simp))] at all answers
  rw [all] at told
  have last : (q, .latents x) = ((Request.computeLatents request).resultQueue,
      closingMessage (.computeLatents request) outcome) := by
    simpa [chunkPuts] using told
  obtain ⟨-, same⟩ := Prod.mk.inj last
  cases answers with
  | conditioned found =>
    obtain rfl := Message.latents.inj same
    obtain rfl := Option.some.inj first
    obtain rfl := Option.some.inj second
    exact found
  | unconditioned =>
    obtain rfl := Message.latents.inj same
    cases first

theorem Served.whole {request : StreamSynthesisRequest} (h : Served py args (.stream request) acts)
    (quiet : raisedIn acts = []) : UtteredWhole py args request (chunksOf py acts) := by
  obtain ⟨outcome, -, raised, answers⟩ := h.replies
  generalize chunksOf py acts = chunks at answers ⊢
  cases answers with
  | uttered whole => exact whole
  | unuttered => simp [quiet, ModelOutcome.raised?] at raised

theorem Served.uttered {request : StreamSynthesisRequest}
    (h : Served py args (.stream request) acts) :
    Uttered py args request (chunksOf py acts) (raisedIn acts = []) := by
  obtain ⟨outcome, -, raised, answers⟩ := h.replies
  generalize chunksOf py acts = chunks at answers ⊢
  cases answers with
  | uttered whole => exact whole.uttered
  | unuttered uttered =>
    refine uttered.front (List.prefix_refl _) fun quiet => ?_
    simp [quiet, ModelOutcome.raised?] at raised

end Messages

/-! ### The request loop -/

def requestsBefore : List QueueEntry → List Request
  | [] => []
  | .sentinel :: _ => []
  | .unknown :: rest => requestsBefore rest
  | .request r :: rest => r :: requestsBefore rest

def afterSentinel : List QueueEntry → Option (List QueueEntry)
  | [] => none
  | .sentinel :: rest => some rest
  | .unknown :: rest => afterSentinel rest
  | .request _ :: rest => afterSentinel rest

def LoopEnd.unread? : LoopEnd → Option (List QueueEntry)
  | .shutdown _ unread => some unread
  | .waiting _ => none

/-- What the loop leaves for some entries: one block for each request, in their order. -/
structure LoopServes (py : Runtime σ κ) (args : WorkerArgs) (entries : List QueueEntry)
    (acts : List (Act κ)) (ended : Except PyException LoopEnd) : Prop where
  blocks : ∃ blocks, List.Forall₂ (Served py args) (requestsBefore entries) blocks ∧
    acts = blocks.flatten
  leaves : ∃ final, ended = .ok final ∧ final.unread? = afterSentinel entries

theorem requestLoop_serves (py : Runtime σ κ) (args : WorkerArgs) (stats : WorkerStats)
    (entries : List QueueEntry) :
    Sat (requestLoop py args stats entries) (LoopServes py args entries) := by
  induction entries generalizing stats with
  | nil => exact sat_pure ⟨⟨[], .nil, rfl⟩, ⟨_, rfl, rfl⟩⟩
  | cons entry rest ih =>
    cases entry with
    | sentinel => exact sat_pure ⟨⟨[], .nil, rfl⟩, ⟨_, rfl, rfl⟩⟩
    | unknown => exact (ih stats).mono fun _ _ h => ⟨h.blocks, h.leaves⟩
    | request r =>
      refine (handle_serves stats r).bind (fun o stats' served => ?_) ?_
      · refine (ih stats').mono fun o' ended h => ⟨?_, h.leaves⟩
        obtain ⟨blocks, each, rfl⟩ := h.blocks
        exact ⟨o :: blocks, .cons served.2 each, rfl⟩
      · rintro o e ⟨⟨_, returned⟩, -⟩
        cases returned

end XttsServer.Model
