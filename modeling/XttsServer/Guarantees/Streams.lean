import XttsServer.Guarantees.Slots
import XttsServer.Runs.Streams
import XttsServer.Runs.Worker

/-!
A stream from end to end: what its client is sent is what the worker's generator
yielded, and one last frame says how that ended.
-/

set_option autoImplicit false
set_option relaxedAutoImplicit false

namespace XttsServer.Guarantees

open XttsServer.Model XttsServer.Foundations.Effects XttsServer.Foundations.Transition

variable {cfg : Config} {s : State} {tr : List Obs} {r : StreamSynthesisRequest} {w : WorkerRef}
  {σ κ : Type}

/-- What `_handle_stream` does for the request, in some world. -/
def handlerActs (py : Runtime σ κ) (args : WorkerArgs) (r : StreamSynthesisRequest) (world : σ) :
    List (Act κ) :=
  (handleStream py args r world).log

/-- Against the worker's handler and what it calls: the frames of a stream are the bytes of chunks
that were put, from the first on and in order, which the model's generator has yielded. One text
frame comes after them when the handler has ended, and none before. -/
structure Faithful (cfg : Config) (tr : List Obs) (s : State) (r : StreamSynthesisRequest)
    (py : Runtime σ κ) (args : WorkerArgs) (acts : List (Act κ)) (pc : StreamPc)
    (sent : List Ndarray) :
    Prop where
  task : s.tasks r.jobId = some (.stream (.stream r) pc)
  chunks : sent <+: chunksOf py acts
  uttered : Uttered py args r sent False
  going : pc ≠ .ended → (framesTo tr r.jobId).map Frame.onWire =
    sent.map fun chunk => .binary chunk.tobytes
  ended : pc = .ended → ∃ last : WebSocketFrame,
    (framesTo tr r.jobId).map Frame.onWire =
      (sent.map fun chunk => .binary chunk.tobytes) ++ [last] ∧
    -- Nothing was raised in the worker, the generator has ended, and every chunk was sent on.
    (last = .text [("status", "done")] ∧ raisedIn acts = [] ∧ sent = chunksOf py acts ∧
        UtteredWhole py args r sent ∨
      ∃ detail, last = .text [("status", "error"), ("detail", detail)])
  /-- Without anything more from the worker the handler can still end. -/
  ends : Ends cfg s r.jobId r

def messagesOf (j : JobId) (cs : List Ndarray) (x : SynthesisStreamEnd) : List Message :=
  (cs.map fun c => .chunk ⟨j, c⟩) ++ [.streamEnd x]

theorem handlerActs_served (py : Runtime σ κ) (args : WorkerArgs) (r : StreamSynthesisRequest)
    (world : σ) : Served py args (.stream r) (handlerActs py args r world) :=
  ((stream_serves r : Sat (handleStream py args r) (Replies py args (.stream r))) world).2

/-- The messages of the worker's handler: its chunks and then one end, which tells an error when
something was raised. -/
theorem handler_messages (py : Runtime σ κ) (args : WorkerArgs)
    (r : StreamSynthesisRequest) (world : σ) : ∃ x : SynthesisStreamEnd,
      (puts (handlerActs py args r world)).map Prod.snd =
        messagesOf r.jobId (chunksOf py (handlerActs py args r world)) x ∧
      (x.error = none ∨ x.error = some "" → raisedIn (handlerActs py args r world) = []) := by
  obtain ⟨outcome, told, raised, -⟩ := (handlerActs_served py args r world).replies
  have messages := congrArg (List.map Prod.snd) told
  rw [List.map_append, chunkPuts, List.map_map] at messages
  cases outcome with
  | arrays =>
    exact ⟨_, messages, fun _ =>
      List.getLast?_eq_none_iff.mp (Option.map_eq_none_iff.mp raised.symm)⟩
  | raised traceback =>
    obtain ⟨e, -, text⟩ := Option.map_eq_some_iff.mp raised.symm
    refine ⟨_, messages, fun clean => ?_⟩
    rcases clean with none | empty
    · cases none
    · exact absurd (text.trans (Option.some.inj empty)) e.nonempty

private def Message.content : Message → Ndarray
  | .chunk c => c.chunk
  | _ => ⟨[], []⟩

theorem chunks_front {chunks : List SynthesisChunk} {rest : List Message} {cs : List Ndarray}
    {x : SynthesisStreamEnd} {j : JobId}
    (front : chunks.map Message.chunk ++ rest <+: messagesOf j cs x) :
    chunks.map SynthesisChunk.chunk <+: cs := by
  have inside : chunks.map Message.chunk <+: cs.map fun c => Message.chunk ⟨j, c⟩ := by
    rcases List.prefix_concat_iff.mp ((List.prefix_append _ rest).trans front) with whole | inside
    · have last : Message.streamEnd x ∈ chunks.map Message.chunk := by simp [whole]
      simp at last
    · exact inside
  simpa [Function.comp_def, Message.content] using inside.map Message.content

theorem chunks_whole {chunks : List SynthesisChunk} {x x' : SynthesisStreamEnd}
    {cs : List Ndarray} {j : JobId}
    (front : chunks.map Message.chunk ++ [.streamEnd x'] <+: messagesOf j cs x) :
    chunks.map SynthesisChunk.chunk = cs ∧ x' = x := by
  rcases List.prefix_concat_iff.mp front with whole | inside
  · obtain ⟨before, last⟩ := List.append_inj' whole rfl
    refine ⟨?_, by simpa using last⟩
    simpa [Function.comp_def, Message.content] using congrArg (List.map Message.content) before
  · have last : Message.streamEnd x' ∈ cs.map fun c => Message.chunk ⟨j, c⟩ :=
      inside.subset (by simp)
    simp at last

/-- While the client stays and the worker that has the stream puts no more than its handler does,
the frames of a dispatched stream are faithful to what the generator yielded. -/
theorem stream_faithful (h : Reach (server cfg) (stays r.jobId) tr s)
    (dispatched : .dispatched (.stream r) w ∈ tr) (py : Runtime σ κ) (args : WorkerArgs) (world : σ)
    (produced : putOn tr r.resultQueue <+: (puts (handlerActs py args r world)).map Prod.snd) :
    ∃ pc sent, Faithful cfg tr s r py args (handlerActs py args r world) pc sent := by
  have visit := visit_staysFresh h
  obtain ⟨pc, task⟩ := stream_task visit dispatched
  obtain ⟨chunks, rest, last, fetched, frames, holds⟩ := (streamed visit task).split
  obtain ⟨x, messages, clean⟩ := handler_messages py args r world
  have front : chunks.map Message.chunk ++ rest <+:
      messagesOf r.jobId (chunksOf py (handlerActs py args r world)) x := by
    rw [← messages, ← fetched]
    exact (fifo visit r.resultQueue ▸ List.prefix_append ..).trans produced
  have served := handlerActs_served py args r world
  refine ⟨pc, chunks.map SynthesisChunk.chunk, task, chunks_front front,
    served.uttered.front (chunks_front front) False.elim, fun going => ?_, fun ended => ?_,
    ends_of_dispatched visit dispatched task⟩
  · have none_last : last = [] := by cases holds <;> first | rfl | exact absurd rfl going
    simp [frames, none_last, Frame.onWire, Function.comp_def]
  · subst ended
    cases holds with
    | @ended rest frame ends text =>
      refine ⟨frame.onWire, by simp [frames, Frame.onWire, Function.comp_def], ?_⟩
      cases frame with
      | bytes c => exact absurd rfl (text c)
      | error detail => exact .inr ⟨detail, rfl⟩
      | done =>
        obtain ⟨x', rfl, quiet⟩ := ends rfl
        obtain ⟨whole, rfl⟩ := chunks_whole front
        exact .inl ⟨rfl, clean quiet, whole, whole ▸ served.whole (clean quiet)⟩

/-- A stream of one chunk, from its submission to its last frame. -/
def oneStream : List Event :=
  [.streamTts { text := "hello", speaker := .embedding [[0]] [0] } noSpeakers "a", .resumeDrain,
    .drainPut, .resumeDrain, .resume "a", .workerTake 0, .workerChunk 0 ⟨[1], [258]⟩,
    .workerReply 0 (.arrays ⟨[], []⟩ ⟨[], []⟩), .getReply "a", .resume "a", .sent "a",
    .getReply "a", .resume "a", .sent "a"]

def helloStream : StreamSynthesisRequest :=
  { jobId := "a", text := "hello", language := "tr", gptCondLatent := ⟨[1, 1, 1], [0]⟩,
    speakerEmbedding := ⟨[1, 1, 1], [0]⟩, resultQueue := 0 }

/-- Libraries whose generator yields one chunk and ends. -/
def oneChunk (chunk : Ndarray) : Runtime Unit Ndarray where
  monotonic s := (0, s)
  toDevice arr _ s := (.ok arr, s)
  autocastEnter _ s := (.ok (), s)
  autocastExit s := (.ok (), s)
  inference _ _ _ _ _ s := (.ok chunk, s)
  wav outputs s := (.ok outputs, s)
  inferenceStream _ _ _ _ _ s := (.ok ⟨[fun s => (.ok chunk, s)], fun s => (.ok (), s)⟩, s)
  getConditioningLatents _ s := (.ok (chunk, chunk), s)
  toFloat32 := .ok
  cpuNumpy arr s := (.ok arr, s)
  memoryAllocated _ s := (.ok 0, s)
  unsizedObject := ⟨"TypeError: len() of unsized object", by decide⟩

private theorem oneStream_runs :
    (exec (server oneWorker) (stays "a") (server oneWorker).init oneStream).isSome = true := by
  decide +kernel

theorem stream_faithful_one_chunk : ∃ pc sent, Faithful oneWorker
    ((exec (server oneWorker) (stays "a") (server oneWorker).init oneStream).get oneStream_runs).2
    ((exec (server oneWorker) (stays "a") (server oneWorker).init oneStream).get oneStream_runs).1
    helloStream (oneChunk ⟨[1], [258]⟩) ⟨"cpu", 0, false⟩
    (handlerActs (oneChunk ⟨[1], [258]⟩) ⟨"cpu", 0, false⟩ helloStream ()) pc sent :=
  stream_faithful (w := 0) (reach_of_exec oneStream_runs) (by decide +kernel) _ _ _
    (by decide +kernel)

example : ((exec (server oneWorker) (stays "a") (server oneWorker).init oneStream).map fun p =>
    (framesTo p.2 "a").map Frame.onWire) =
      some [.binary [2, 1, 0, 0], .text [("status", "done")]] := by decide +kernel

end XttsServer.Guarantees
