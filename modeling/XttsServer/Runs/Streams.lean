import Mathlib.Tactic.Linarith
import XttsServer.Runs.Advance

/-!
What a stream's client has been sent against what its worker has put: the result
queue is first in first out, and the handler sends on each chunk that it fetches
before it fetches the next.
-/

set_option autoImplicit false
set_option relaxedAutoImplicit false

namespace XttsServer.Model

open XttsServer.Foundations XttsServer.Foundations.Transition

variable {cfg : Config} {P : State → Event → Prop} {s s' s₀ : State} {e : Event}
  {tr o : List Obs}

/-! ### Messages and frames of a trace -/

@[simp] def Obs.put? (q : QueueId) : Obs → Option Message
  | .replied _ r m => if r.resultQueue = q then some m else none
  | _ => none

@[simp] def Obs.fetched? (q : QueueId) : Obs → Option Message
  | .fetched k m => if k = q then some m else none
  | _ => none

@[simp] def Obs.frame? (j : JobId) : Obs → Option Frame
  | .frame k f => if k = j then some f else none
  | _ => none

@[simp] abbrev putOn (tr : List Obs) (q : QueueId) : List Message := tr.filterMap (Obs.put? q)

@[simp] abbrev fetchedFrom (tr : List Obs) (q : QueueId) : List Message :=
  tr.filterMap (Obs.fetched? q)

@[simp] abbrev framesTo (tr : List Obs) (j : JobId) : List Frame := tr.filterMap (Obs.frame? j)

@[simp] theorem framesTo_frames (frame : Option Frame) (j : JobId) :
    framesTo (frame.toList.map (.frame j)) j = frame.toList := by
  cases frame <;> simp

@[simp] theorem fetchedFrom_frames (frame : Option Frame) (j : JobId) (q : QueueId) :
    fetchedFrom (frame.toList.map (.frame j)) q = [] := by
  cases frame <;> simp

@[simp] theorem framesTo_released (i : Option WorkerRef) (j k : JobId) :
    framesTo (i.toList.map (.released k)) j = [] := by
  cases i <;> simp

@[simp] theorem fetchedFrom_released (i : Option WorkerRef) (k : JobId) (q : QueueId) :
    fetchedFrom (i.toList.map (.released k)) q = [] := by
  cases i <;> simp

/-! ### The result queue -/

/-- What a change does to the messages on one queue. -/
inductive Transfer (s s' : State) (o : List Obs) (q : QueueId) : Prop
  | none (puts : putOn o q = []) (fetches : fetchedFrom o q = [])
      (same : s'.resultQueues q = s.resultQueues q)
  | put {m : Message} (puts : putOn o q = [m]) (fetches : fetchedFrom o q = [])
      (more : s'.resultQueues q = s.resultQueues q ++ [m])
  | fetch {m : Message} (puts : putOn o q = []) (fetches : fetchedFrom o q = [m])
      (fewer : s.resultQueues q = m :: s'.resultQueues q)

private theorem Transfer.of_put {r : Request} {w : WorkerRef} {m : Message} (q : QueueId)
    (queues : s'.resultQueues = Function.update s.resultQueues r.resultQueue
      (s.resultQueues r.resultQueue ++ [m])) : Transfer s s' [.replied w r m] q := by
  by_cases here : r.resultQueue = q
  · subst here
    exact .put (m := m) (by simp) (by simp) (by rw [queues, Function.update_self])
  · exact .none (by simp [here]) (by simp) (by rw [queues, Function.update_of_ne (Ne.symm here)])

private theorem Change.transfer (change : Change cfg s₀ e s s' o) (q : QueueId) :
    Transfer s s' o q := by
  cases change with
  | jobTurnedAway _ _ told => rcases told with rfl | rfl <;> exact .none (by simp) (by simp) rfl
  | @answered _ a answer =>
    refine .none ?_ ?_ rfl <;> cases a <;> simp [Obs.isAnswer] at answer ⊢
  | @getReply j t t0 m rest task blocked head =>
    by_cases here : t.request.resultQueue = q
    · subst here
      exact .fetch (m := m) (by simp) (by simp) (by simp [head])
    · exact .none (by simp) (by simp [here]) (Function.update_of_ne (Ne.symm here) ..)
  | @workerChunk w r => exact .of_put (r := .stream r) q rfl
  | workerReply => exact .of_put q rfl
  | _ => refine .none ?_ ?_ rfl <;> simp [marks_eq_map, Function.comp_def]

theorem fifo (h : Visit cfg P tr s) (q : QueueId) :
    putOn tr q = fetchedFrom tr q ++ s.resultQueues q := by
  induction h using visit_induction with
  | start => rfl
  | @change s₀ e s s' tr o before ih meets change =>
    rw [putOn, fetchedFrom, List.filterMap_append, List.filterMap_append]
    change putOn tr q ++ putOn o q = fetchedFrom tr q ++ fetchedFrom o q ++ s'.resultQueues q
    cases change.transfer q with
    | none puts fetches same => rw [puts, fetches, same, ih, List.append_nil, List.append_nil]
    | put puts fetches more => rw [puts, fetches, more, ih, List.append_nil, List.append_assoc]
    | fetch puts fetches fewer => simp [puts, fetches, ih, fewer]

/-! ### Frames and fetches before a stream -/

/-- The client of the stream goes away, or its handler is cancelled. -/
def Event.drops (j : JobId) : Event → Bool
  | .sendFails k _ => k = j
  | .cancelStream k => k = j
  | _ => false

def stays (j : JobId) (_ : State) (e : Event) : Prop := e.drops j = false

instance (j : JobId) (s : State) (e : Event) : Decidable (stays j s e) :=
  inferInstanceAs (Decidable (_ = _))

/-- So it does, in steps that start with no task under an id that is still to be drawn. -/
def staysFresh (j : JobId) (s : State) (e : Event) : Prop :=
  stays j s e ∧ ∀ k, s.canDraw k → s.tasks k = none

theorem visit_staysFresh {j : JobId} (h : Reach (server cfg) (stays j) tr s) :
    Visit cfg (staysFresh j) tr s :=
  visit_of_reach (h.mono_of_reach fun _ _ _ before meets =>
    ⟨meets, fun _ fresh => tasks_of_fresh (visit_of_reach before) (placed (visit_of_reach before))
      fresh⟩)

/-- Frames go to streams, and fetches to queues, that exist. -/
structure Seen (tr : List Obs) (s : State) : Prop where
  frames : ∀ j f, .frame j f ∈ tr → j ∈ s.used
  fetches : ∀ q m, .fetched q m ∈ tr → q < s.nextQueue

private theorem Change.seen (before : Visit cfg P tr s) (change : Change cfg s₀ e s s' o) :
    (∀ j f, .frame j f ∈ o → j ∈ s.used) ∧ ∀ q m, .fetched q m ∈ o → q < s.nextQueue := by
  have task_used : ∀ {j t}, s.tasks j = some t → j ∈ s.used := used_of_task before (placed before)
  cases change with
  | jobTurnedAway _ _ told => rcases told with rfl | rfl <;> simp
  | @answered _ a answer whole submits refused =>
    refine ⟨fun j f told => (refused j f ?_).2.1, fun q m told => ?_⟩
    · simpa [eq_comm] using told
    · cases a <;> simp [Obs.isAnswer] at answer told
  | @move k t t' frame task move =>
    refine ⟨fun j f told => ?_, by simp⟩
    obtain rfl : k = j := by simp at told; exact told.2
    exact task_used task
  | @leave k r w pc next frame workers drain i task left slot =>
    refine ⟨fun j f told => ?_, by simp⟩
    obtain rfl : k = j := by simp at told; exact told.2
    exact task_used task
  | @getReply k t t0 m rest task blocked head =>
    refine ⟨by simp, fun q m' told => ?_⟩
    obtain ⟨rfl, -⟩ : q = t.request.resultQueue ∧ m' = m := by simpa using told
    exact (registered before).made _ (request_known before task)
  | _ => simp [marks_eq_map]

private theorem seen (h : Visit cfg P tr s) : Seen tr s := by
  induction h using visit_induction with
  | start => exact ⟨by simp, by simp⟩
  | @change s₀ e s s' tr o before ih meets change =>
    obtain ⟨used, queue⟩ := change.grows
    obtain ⟨frames, fetches⟩ := change.seen before
    refine ⟨fun j f told => used ?_, fun q m told => lt_of_lt_of_le ?_ queue⟩
    · exact (List.mem_append.mp told).elim (ih.frames j f) (frames j f)
    · exact (List.mem_append.mp told).elim (ih.fetches q m) (fetches q m)

/-! ### The handler -/

/-- What the program point of a stream's handler says about the messages it has fetched and not
sent on, and the frames it has sent that are not chunks. -/
inductive StreamPc.Holds : StreamPc → List Message → List Frame → Prop
  | awaiting : Holds .awaiting [] []
  | assigned {w} : Holds (.assigned w) [] []
  | getting {w t0} : Holds (.getting w t0) [] []
  | got {w m} : Holds (.got w (.item m)) [m] []
  | timedOut {w} : Holds (.got w .empty) [] []
  | broken {w text} : Holds (.got w (.error text)) [] []
  | sending {w} {x : SynthesisChunk} : Holds (.sending w x.chunk) [.chunk x] []
  | closing {w how rest} (ends : how = .done →
      ∃ x : SynthesisStreamEnd, rest = [.streamEnd x] ∧ (x.error = none ∨ x.error = some "")) :
      Holds (.closing w how) rest []
  | reporting {rest} : Holds .reporting rest []
  | ended {rest frame} (ends : frame = .done →
      ∃ x : SynthesisStreamEnd, rest = [.streamEnd x] ∧ (x.error = none ∨ x.error = some ""))
      (last : ∀ c, frame ≠ .bytes c) : Holds .ended rest [frame]

/-- The handler has sent on the chunks it has fetched, but for the last message. -/
structure Streamed (pc : StreamPc) (fetched : List Message) (frames : List Frame) : Prop where
  split : ∃ (chunks : List SynthesisChunk) (rest : List Message) (last : List Frame),
    fetched = chunks.map .chunk ++ rest ∧ frames = (chunks.map fun x => .bytes x.chunk) ++ last ∧
      pc.Holds rest last

/-- What one change may do to the handler of a stream, fetching and sending. -/
inductive StreamStep : StreamPc → StreamPc → List Message → List Frame → Prop
  | stay {pc} : StreamStep pc pc [] []
  | assigned {w} : StreamStep .awaiting (.assigned w) [] []
  | start {w t0} : StreamStep (.assigned w) (.getting w t0) [] []
  | fetch {w t0 m} : StreamStep (.getting w t0) (.got w (.item m)) [m] []
  | timeout {w t0} : StreamStep (.getting w t0) (.got w .empty) [] []
  | broken {w t0 text} : StreamStep (.getting w t0) (.got w (.error text)) [] []
  | chunk {w} {x : SynthesisChunk} :
      StreamStep (.got w (.item (.chunk x))) (.sending w x.chunk) [] []
  | sent {w c t0} : StreamStep (.sending w c) (.getting w t0) [] [.bytes c]
  | done {w} {x : SynthesisStreamEnd} (clean : x.error = none ∨ x.error = some "") :
      StreamStep (.got w (.item (.streamEnd x))) (.closing w .done) [] []
  | failed {w outcome how} (error : how ≠ .done) :
      StreamStep (.got w outcome) (.closing w how) [] []
  | closed {w how} : StreamStep (.closing w how) .ended [] [how.frame]
  | raised {w outcome} : StreamStep (.got w outcome) .reporting [] []
  | reported : StreamStep .reporting .ended [] [.error "Internal server error."]

private theorem frame_done {how : Closing} (h : how.frame = .done) : how = .done := by
  cases how <;> simp [Closing.frame] at h ⊢

private theorem frame_text (how : Closing) (c : Ndarray) : how.frame ≠ .bytes c := by
  cases how <;> simp [Closing.frame]

private theorem Streamed.step {pc pc' : StreamPc} {fetched more : List Message}
    {frames sent : List Frame}
    (h : Streamed pc fetched frames) (step : StreamStep pc pc' more sent) :
    Streamed pc' (fetched ++ more) (frames ++ sent) := by
  obtain ⟨chunks, rest, last, rfl, rfl, holds⟩ := h.split
  -- Only a sent chunk moves over to those before it.
  have same : ∀ {rest' last'}, rest' = rest ++ more → last' = last ++ sent →
      pc'.Holds rest' last' → Streamed pc' (chunks.map .chunk ++ rest ++ more)
        ((chunks.map fun x => .bytes x.chunk) ++ last ++ sent) := by
    rintro _ _ rfl rfl holds'
    exact ⟨chunks, _, _, List.append_assoc .., List.append_assoc .., holds'⟩
  cases step with
  | stay => exact same (List.append_nil _).symm (List.append_nil _).symm holds
  | sent =>
    cases holds with
    | @sending _ x => exact ⟨chunks ++ [x], [], [], by simp, by simp, .getting⟩
  | assigned => cases holds with | awaiting => exact same rfl rfl .assigned
  | start => cases holds with | assigned => exact same rfl rfl .getting
  | fetch => cases holds with | getting => exact same rfl rfl .got
  | timeout => cases holds with | getting => exact same rfl rfl .timedOut
  | broken => cases holds with | getting => exact same rfl rfl .broken
  | chunk => cases holds with | got => exact same rfl rfl .sending
  | @done w x clean =>
    cases holds with
    | got => exact same rfl rfl (.closing fun _ => ⟨x, rfl, clean⟩)
  | failed error => cases holds <;> exact same rfl rfl (.closing fun done => absurd done error)
  | raised => cases holds <;> exact same rfl rfl .reporting
  | @closed w how =>
    cases holds with
    | closing ends =>
      exact same (List.append_nil _).symm rfl
        (.ended (fun done => ends (frame_done done)) (frame_text how))
  | reported =>
    cases holds with
    | reporting => exact same (List.append_nil _).symm rfl (.ended (by simp) (by simp))

/-- How the handler of a stream comes to its program point by a change. -/
inductive StreamChange (s : State) (o : List Obs) (j : JobId) (r : StreamSynthesisRequest)
    (pc' : StreamPc) : Prop
  | born (new : j ∉ s.used) (queue : r.resultQueue = s.nextQueue) (waits : pc' = .awaiting)
      (fetches : fetchedFrom o r.resultQueue = []) (frames : framesTo o j = [])
  | steps {pc : StreamPc} (task : s.tasks j = some (.stream (.stream r) pc))
      (step : StreamStep pc pc' (fetchedFrom o r.resultQueue) (framesTo o j))

section
variable {j k : JobId} {r : StreamSynthesisRequest} {pc' : StreamPc} {t : Task}

private theorem StreamChange.same (tasks : s'.tasks = s.tasks)
    (task : s'.tasks j = some (.stream (.stream r) pc'))
    (fetches : fetchedFrom o r.resultQueue = []) (frames : framesTo o j = []) :
    StreamChange s o j r pc' := by
  refine .steps (tasks ▸ task) ?_
  rw [fetches, frames]
  exact .stay

private theorem StreamChange.update (tasks : s'.tasks = Function.update s.tasks k (some t))
    (task : s'.tasks j = some (.stream (.stream r) pc'))
    (mine : k = j → t = .stream (.stream r) pc' → StreamChange s o j r pc')
    (fetches : k ≠ j → fetchedFrom o r.resultQueue = []) (frames : k ≠ j → framesTo o j = []) :
    StreamChange s o j r pc' := by
  rw [tasks] at task
  rcases some_of_update task with ⟨rfl, same⟩ | ⟨other, old⟩
  · exact mine rfl same.symm
  · refine .steps old ?_
    rw [fetches other.symm, frames other.symm]
    exact .stay

private theorem StreamChange.aside (tasks : s'.tasks = Function.update s.tasks k (some t))
    (task : s'.tasks j = some (.stream (.stream r) pc')) (other : ∀ r' pc, t ≠ .stream r' pc)
    (fetches : fetchedFrom o r.resultQueue = []) (frames : framesTo o j = []) :
    StreamChange s o j r pc' :=
  .update tasks task (fun _ same => absurd same (other _ _)) (fun _ => fetches) fun _ => frames

private theorem deliver_stream {t0 : ℚ} {outcome : GetOutcome} (blocked : t.getting? = some t0)
    (stream : t.deliver outcome = .stream (.stream r) pc') :
    ∃ w, t = .stream (.stream r) (.getting w t0) ∧ pc' = .got w outcome := by
  cases t with
  | stream r' pc =>
    cases pc with
    | getting w t0' =>
      cases stream
      cases blocked
      exact ⟨w, rfl, rfl⟩
    | _ => cases blocked
  | collector w r' cb at' pc =>
    cases pc with
    | getting => cases stream
    | _ => cases blocked
  | clone w r' pc =>
    cases pc with
    | getting => cases stream
    | _ => cases blocked

private theorem Move.streams (before : Visit cfg P tr s) {t t' : Task} {frame : Option Frame}
    (move : Move cfg s.now k e t t' frame) (meets : e.drops k = false) (task : s.tasks k = some t)
    (stream : t' = .stream (.stream r) pc') :
    ∃ pc, t = .stream (.stream r) pc ∧ StreamStep pc pc' [] frame.toList := by
  cases move with
  | timeout blocked =>
    obtain ⟨w, rfl, rfl⟩ := deliver_stream blocked stream
    exact ⟨_, rfl, .timeout⟩
  | error blocked =>
    obtain ⟨w, rfl, rfl⟩ := deliver_stream blocked stream
    exact ⟨_, rfl, .broken⟩
  | streamOther other unsent =>
    obtain ⟨c, rfl⟩ := stream_chunk before task other
    exact absurd rfl (unsent c)
  | streamReported told event reports =>
    cases stream
    rcases event with rfl | ⟨d, rfl⟩ | rfl
    · rcases told with rfl | rfl
      · exact absurd rfl (reports rfl)
      · exact ⟨_, rfl, .reported⟩
    · simp [Event.drops] at meets
    · simp [Event.drops] at meets
  | streamAssigned =>
    cases stream
    exact ⟨_, rfl, .start⟩
  | streamChunk =>
    cases stream
    exact ⟨_, rfl, .chunk⟩
  | streamDone clean =>
    cases stream
    exact ⟨_, rfl, .done clean⟩
  | streamFailed =>
    cases stream
    exact ⟨_, rfl, .failed (by simp)⟩
  | streamTimedOut =>
    cases stream
    exact ⟨_, rfl, .failed (by simp)⟩
  | streamSent =>
    cases stream
    exact ⟨_, rfl, .sent⟩
  | _ => cases stream

private theorem Leave.streams {w : WorkerRef} {pc next : StreamPc} {frame : Option Frame}
    (left : Leave k e w pc next frame) (meets : e.drops k = false) :
    StreamStep pc next [] frame.toList := by
  cases left with
  | raised => exact .raised
  | closed => exact .closed
  | _ => simp [Event.drops] at meets

private theorem Change.streams (before : Visit cfg P tr s) (meets : staysFresh j s₀ e)
    (change : Change cfg s₀ e s s' o) (task : s'.tasks j = some (.stream (.stream r) pc')) :
    StreamChange s o j r pc' := by
  cases change with
  | jobTurnedAway _ _ told =>
    rcases told with rfl | rfl <;> exact .same rfl task (by simp) (by simp)
  | @answered _ a answer whole submits refused =>
    refine .same rfl task ?_ ?_
    · cases a <;> simp [Obs.isAnswer] at answer ⊢
    · cases a with
      | frame k f =>
        obtain ⟨fresh, -, tasks⟩ := refused k f rfl
        have other : k ≠ j := by
          rintro rfl
          rw [tasks, meets.2 k fresh] at task
          cases task
        simp [other]
      | _ => rfl
  | @streamQueued s request fresh queue =>
    refine .update rfl task (fun here same => ?_) (fun _ => rfl) fun _ => rfl
    cases same
    exact .born (here ▸ fresh.2) queue rfl rfl rfl
  | cloneStart | clonePut | saveOpen | saveWrite => exact .aside rfl task (by simp) rfl rfl
  | @handedOver item w loop =>
    rcases handedOver_cases before loop with ⟨cb, -, -, tasks⟩ | ⟨waits, tasks⟩ | ⟨-, tasks⟩
    · exact .aside tasks task (by simp) rfl rfl
    · refine .update tasks task (fun here same => ?_) (fun _ => rfl) fun _ => rfl
      obtain ⟨request, rfl⟩ : item.request = .stream r ∧ StreamPc.assigned w = pc' := by
        simpa using same
      exact .steps (by rw [← here, waits, request]) .assigned
    · exact .same tasks task rfl rfl
  | @move k t t' frame there move =>
    refine .update rfl task (fun here same => ?_) (fun _ => by simp) fun other => by simp [other]
    subst here
    obtain ⟨pc, rfl, step⟩ := move.streams before meets.1 there same
    refine .steps there ?_
    rw [framesTo_frames, fetchedFrom_frames]
    exact step
  | @getReply k t t0 m rest there blocked head =>
    refine .update rfl task (fun here same => ?_) (fun other => ?_) fun _ => rfl
    · subst here
      obtain ⟨w, rfl, rfl⟩ := deliver_stream blocked same
      exact .steps there (by simpa [Task.request, Request.resultQueue] using StreamStep.fetch)
    · -- Two streams do not share a queue.
      dsimp only at task
      rw [Function.update_of_ne (Ne.symm other)] at task
      have apart : t.request.resultQueue ≠ r.resultQueue := fun same => other <| by
        have one := request_of_queue before (request_known before there)
          (request_known before task) same
        rw [← request_named before there, one]
        exact request_named before task
      simp [apart]
  | collected =>
    exact .aside rfl task (by simp) (by simp [Function.comp_def]) (by simp [Function.comp_def])
  | @leave k r' w pc next frame workers drain i there left slot =>
    refine .update rfl task (fun here same => ?_) (fun _ => by simp) fun other => by simp [other]
    subst here
    cases same
    refine .steps there ?_
    rw [framesTo, fetchedFrom, List.filterMap_append, List.filterMap_append]
    simpa only [framesTo_frames, fetchedFrom_frames, framesTo_released, fetchedFrom_released,
      List.append_nil] using left.streams meets.1
  | cloneDone => exact .aside rfl task (by simp) (by simp) (by simp)
  | cancelAwaiting event there | cancelAssigned event there =>
    refine .update rfl task (fun here _ => ?_) (fun _ => rfl) fun _ => rfl
    subst here event
    exact absurd meets.1 (by simp [stays, Event.drops])
  | saved => exact .aside rfl task (by simp) (by simp [marks_eq_map]) (by simp [marks_eq_map])
  | _ => exact .same rfl task (by simp) (by simp)

/-- While its client stays, a stream's handler has sent on what it has fetched. -/
theorem streamed (h : Visit cfg (staysFresh j) tr s)
    (task : s.tasks j = some (.stream (.stream r) pc')) :
    Streamed pc' (fetchedFrom tr r.resultQueue) (framesTo tr j) := by
  induction h using visit_induction generalizing r pc' with
  | start => simp [State.init] at task
  | @change s₀ e s s' tr o before ih meets change =>
    rw [fetchedFrom, framesTo, List.filterMap_append, List.filterMap_append]
    cases change.streams before meets task with
    | born new queue waits fetches frames =>
      subst waits
      have none_fetched : fetchedFrom tr r.resultQueue = [] := by
        refine List.filterMap_eq_nil_iff.mpr fun x member => ?_
        cases x with
        | fetched q m =>
          have earlier := (seen before).fetches q m member
          simp [queue, Nat.ne_of_lt earlier]
        | _ => rfl
      have none_framed : framesTo tr j = [] := by
        refine List.filterMap_eq_nil_iff.mpr fun x member => ?_
        cases x with
        | frame k f =>
          have other : k ≠ j := fun same => new (same ▸ (seen before).frames k f member)
          simp [other]
        | _ => rfl
      refine ⟨[], [], [], ?_, ?_, .awaiting⟩
      · exact (congrArg₂ (· ++ ·) none_fetched fetches)
      · exact (congrArg₂ (· ++ ·) none_framed frames)
    | steps task step => exact (ih task).step step

theorem stream_task (h : Visit cfg P tr s) {v : WorkerRef}
    (told : .dispatched (.stream r) v ∈ tr) :
    ∃ pc, s.tasks r.jobId = some (.stream (.stream r) pc) := by
  rcases located h (dispatched_request h told) with ⟨item, member, request⟩ | ⟨t, task, request⟩
  · have proper := proper_of_accepted h (items_accepted h member)
    have unclaimed := (placed h).unclaimed item member
    cases proper with
    | job => cases request
    | stream =>
      cases request
      exact unclaimed.elim (fun waits => ⟨_, waits⟩) fun dead => ⟨_, dead.2⟩
  · have fits := ((placed h).serves _ t task).fits
    cases t with
    | stream r' pc =>
      cases request
      exact ⟨pc, task⟩
    | collector | clone =>
      cases request
      cases fits

/-! ### The end of a stream -/

/-- The handler can come to its end while its client stays and its worker is silent: by its own
steps, those of the drain loop and the time-out of its `get`. -/
def Ends (cfg : Config) (s : State) (j : JobId) (r : StreamSynthesisRequest) : Prop :=
  ∃ tr s', Run (server cfg) (stays j) s tr s' ∧
    s'.tasks j = some (.stream (.stream r) .ended) ∧ putOn tr r.resultQueue = []

private theorem Ends.step (taken : Model.step cfg s e = some (s', o)) (meets : e.drops j = false)
    (silent : putOn o r.resultQueue = []) (h : Ends cfg s' j r) : Ends cfg s j r := by
  obtain ⟨tr, t, run, ended, quiet⟩ := h
  refine ⟨o ++ tr, t, ?_, ended, ?_⟩
  · have first : Run (server cfg) (stays j) s ([] ++ o) s' := Run.refl.tail meets taken
    exact first.trans run
  · rw [putOn, List.filterMap_append]
    exact congrArg₂ (· ++ ·) silent quiet

private theorem putOn_left (frame : Option Frame) (i : Option WorkerRef) (q : QueueId) :
    putOn (frame.toList.map (.frame j) ++ i.toList.map (.released j)) q = [] := by
  cases frame <;> cases i <;> rfl

private theorem ends_ended (task : s.tasks j = some (.stream (.stream r) .ended)) :
    Ends cfg s j r := ⟨[], s, .refl, task, rfl⟩

private theorem ends_reporting (task : s.tasks j = some (.stream (.stream r) .reporting)) :
    Ends cfg s j r := by
  have taken : Model.step cfg s (.sent j) = some (s.setTask j (.stream (.stream r) .ended),
      [.frame j (.error "Internal server error.")]) := by simp only [Model.step, sent, task]
  exact .step taken rfl rfl (ends_ended (Function.update_self ..))

private theorem ends_closing {w : WorkerRef} {how : Closing}
    (task : s.tasks j = some (.stream (.stream r) (.closing w how))) : Ends cfg s j r := by
  obtain ⟨workers, drain, i, slot⟩ := releaseSlot_releases s w 0 j
  have taken : Model.step cfg s (.sent j) = some ({ s with
      workers, drain, tasks := Function.update s.tasks j (some (.stream (.stream r) .ended)) },
      (some how.frame).toList.map (.frame j) ++ i.toList.map (.released j)) := by
    simp only [Model.step, sent, task, leaveStream, slot.eq]
    rfl
  exact .step taken rfl (putOn_left _ _ _) (ends_ended (Function.update_self ..))

private theorem ends_failed_get {w : WorkerRef} {outcome : GetOutcome}
    (gone : ∀ m, outcome ≠ .item m)
    (task : s.tasks j = some (.stream (.stream r) (.got w outcome))) : Ends cfg s j r := by
  cases outcome with
  | item m => exact absurd rfl (gone m)
  | empty =>
    have taken : Model.step cfg s (.resume j) = some (s.setTask j
        (.stream (.stream r) (.closing w (.timedOut (timeoutText cfg)))), []) := by
      simp only [Model.step, resume, task, resumeStream]
    exact .step taken rfl rfl (ends_closing (Function.update_self ..))
  | error text =>
    obtain ⟨workers, drain, i, slot⟩ := releaseSlot_releases s w 0 j
    have taken : Model.step cfg s (.resume j) = some ({ s with
        workers, drain, tasks := Function.update s.tasks j
          (some (.stream (.stream r) .reporting)) },
        (none : Option Frame).toList.map (.frame j) ++ i.toList.map (.released j)) := by
      simp only [Model.step, resume, task, resumeStream, leaveStream, slot.eq]
      rfl
    exact .step taken rfl (putOn_left _ _ _) (ends_reporting (Function.update_self ..))

private theorem ends_waiting {w : WorkerRef} {t0 : ℚ}
    (task : s.tasks j = some (.stream (.stream r) (.getting w t0)))
    (empty : s.resultQueues r.resultQueue = []) : Ends cfg s j r := by
  have late : t0 + cfg.settings.workerTimeoutSeconds ≤
      s.now + max 0 (t0 + cfg.settings.workerTimeoutSeconds - s.now) := by
    linarith [le_max_right 0 (t0 + cfg.settings.workerTimeoutSeconds - s.now)]
  have ticks : Model.step cfg s (.tick (max 0 (t0 + cfg.settings.workerTimeoutSeconds - s.now))) =
      some ({ s with now := s.now + max 0 (t0 + cfg.settings.workerTimeoutSeconds -
        s.now) }, []) := by
    simp [Model.step]
  refine .step ticks rfl rfl ?_
  generalize s.now + max 0 (t0 + cfg.settings.workerTimeoutSeconds - s.now) = later at late
  have taken : Model.step cfg { s with now := later } (.getTimeout j) =
      some (State.setTask { s with now := later } j (.stream (.stream r) (.got w .empty)), []) := by
    simp [Model.step, getTimeout, task, Task.getting?, Task.request, Request.resultQueue, empty,
      late, Task.deliver]
  exact .step taken rfl rfl (ends_failed_get (by simp) (Function.update_self ..))

private theorem ends_message {w : WorkerRef} {m : Message}
    (task : s.tasks j = some (.stream (.stream r) (.got w (.item m))))
    (again : ∀ {s' : State} {t0 : ℚ}, s'.resultQueues = s.resultQueues →
      s'.tasks j = some (.stream (.stream r) (.getting w t0)) → Ends cfg s' j r) :
    Ends cfg s j r := by
  have goes : ∀ pc : StreamPc, resumeStream cfg s j (.stream r) (.got w (.item m)) =
      some (s.setTask j (.stream (.stream r) pc), []) →
      Ends cfg (s.setTask j (.stream (.stream r) pc)) j r → Ends cfg s j r := by
    intro pc value
    have taken : Model.step cfg s (.resume j) =
        some (s.setTask j (.stream (.stream r) pc), []) := by
      simp only [Model.step, resume, task, value]
    exact .step taken rfl rfl
  cases m with
  | chunk c =>
    refine goes _ rfl ?_
    have taken : Model.step cfg (s.setTask j (.stream (.stream r) (.sending w c.chunk))) (.sent j) =
        some ((s.setTask j (.stream (.stream r) (.sending w c.chunk))).setTask j
          (.stream (.stream r) (.getting w s.now)), [.frame j (.bytes c.chunk)]) := by
      simp [Model.step, sent, State.setTask]
    exact .step taken rfl rfl (again rfl (Function.update_self ..))
  | streamEnd x =>
    cases error : x.error with
    | none =>
      exact goes (.closing w .done) (by simp only [resumeStream, error])
        (ends_closing (Function.update_self ..))
    | some text =>
      by_cases empty : text = ""
      · exact goes (.closing w .done)
          (by simp only [resumeStream, error, empty, ne_eq, not_true, if_false])
          (ends_closing (Function.update_self ..))
      · exact goes (.closing w (.failed (pyTake text 300)))
          (by simp only [resumeStream, error, ne_eq, empty, not_false_iff, if_true])
          (ends_closing (Function.update_self ..))
  | result | latents => exact goes _ rfl (again rfl (Function.update_self ..))

private theorem ends_getting {messages : List Message} {w : WorkerRef} {t0 : ℚ}
    (task : s.tasks j = some (.stream (.stream r) (.getting w t0)))
    (queue : s.resultQueues r.resultQueue = messages) : Ends cfg s j r := by
  induction messages generalizing s t0 with
  | nil => exact ends_waiting task queue
  | cons m rest ih =>
    have taken : Model.step cfg s (.getReply j) =
        some ({ s.setTask j (.stream (.stream r) (.got w (.item m))) with
          resultQueues := Function.update s.resultQueues r.resultQueue rest },
          [.fetched r.resultQueue m]) := by
      simp [Model.step, getReply, task, Task.getting?, Task.request, Request.resultQueue, queue,
        Task.deliver]
    refine .step taken rfl rfl (ends_message (Function.update_self ..) fun queues task' => ?_)
    exact ih task' (by rw [queues]; exact Function.update_self ..)

private theorem ends_assigned {w : WorkerRef}
    (task : s.tasks j = some (.stream (.stream r) (.assigned w))) : Ends cfg s j r := by
  have taken : Model.step cfg s (.resume j) =
      some (s.setTask j (.stream (.stream r) (.getting w s.now)), []) := by
    simp only [Model.step, resume, task, resumeStream]
  exact .step taken rfl rfl (ends_getting (Function.update_self ..) rfl)

private theorem ends_sending {w : WorkerRef} {c : Ndarray}
    (task : s.tasks j = some (.stream (.stream r) (.sending w c))) : Ends cfg s j r := by
  have taken : Model.step cfg s (.sent j) =
      some (s.setTask j (.stream (.stream r) (.getting w s.now)), [.frame j (.bytes c)]) := by
    simp only [Model.step, sent, task]
  exact .step taken rfl rfl (ends_getting (Function.update_self ..) rfl)

/-- The handler of a dispatched stream that still waits for its future has its item in the
loop, which is about to hand it over. -/
private theorem dispatched_in_loop (h : Visit cfg P tr s) {v : WorkerRef}
    (told : .dispatched (.stream r) v ∈ tr)
    (task : s.tasks r.jobId = some (.stream (.stream r) .awaiting)) :
    ∃ item w, item.request = .stream r ∧ (s.drain = .putting item w ∨ s.drain = .put item w) := by
  obtain ⟨item, member, request⟩ := awaiting_queued h task
  rcases dispatched_cases h told with ⟨item', drained, request'⟩ | ⟨⟨c, clone⟩, -⟩
  · rw [State.items_eq] at member
    rcases List.mem_append.mp member with loop | waits
    · obtain ⟨w, here⟩ : ∃ w, s.drain.dispatching? = some (item, w) := by simpa using loop
      refine ⟨item, w, request, ?_⟩
      cases drain : s.drain <;> simp [drain, DrainPc.dispatching?] at here ⊢
      · exact here
      · exact here
    · -- An item that waits has not been drained.
      have once := accepted_nodup h
      rw [flow h, List.map_append, List.nodup_append] at once
      refine absurd ?_ (once.2.2 item'.jobId
        (List.mem_map_of_mem (List.mem_map_of_mem drained)) item.jobId (List.mem_map_of_mem waits))
      simp [QueuedItem.jobId, request, request']
  · cases clone

private theorem putOn_drainTop (s : State) (q : QueueId) : putOn (drainTop s).2 q = [] := by
  unfold drainTop
  split
  · rfl
  · unfold drainItem drainDispatch
    split
    · rfl
    · split <;> rfl

private theorem ends_put (h : Visit cfg P tr s) {item : QueuedItem} {w : WorkerRef}
    (request : item.request = .stream r) (loop : s.drain = .put item w)
    (task : s.tasks r.jobId = some (.stream (.stream r) .awaiting)) : Ends cfg s r.jobId r := by
  have named : item.jobId = r.jobId := by simp [QueuedItem.jobId, request, Request.jobId]
  rcases handedOver_cases h loop with ⟨cb, -, free, -⟩ | ⟨waits, tasks⟩ | ⟨dead, -⟩
  · rw [named, task] at free
    cases free
  · obtain ⟨queue, workers, drain, o, value, -⟩ := drainTop_eq (handOver s item w)
    have taken : Model.step cfg s .resumeDrain =
        some ({ handOver s item w with queue, workers, drain }, o) := by
      simp only [Model.step, resumeDrain, loop, value]
    refine .step taken rfl ?_ (ends_assigned (w := w) ?_)
    · have quiet := putOn_drainTop (handOver s item w) r.resultQueue
      rwa [value] at quiet
    · change (handOver s item w).tasks r.jobId = _
      rw [tasks, named, Function.update_self, request]
  · rw [named, task, request] at dead
    cases dead

private theorem ends_putting (h : Visit cfg P tr s) {item : QueuedItem} {w : WorkerRef}
    (request : item.request = .stream r) (loop : s.drain = .putting item w)
    (task : s.tasks r.jobId = some (.stream (.stream r) .awaiting)) : Ends cfg s r.jobId r := by
  have any : Visit cfg anyStep tr s := h.mono fun _ _ _ allowed => by
    obtain ⟨s₀, e, -, change⟩ := allowed
    exact ⟨s₀, e, trivial, change⟩
  have taken : Model.step cfg s .drainPut =
      some ({ putRequest s w item.request with drain := .put item w }, []) := by
    simp only [Model.step, drainPut, loop]
  exact .step taken rfl rfl (ends_put (any.next trivial (.drainPut loop rfl)) request rfl task)

/-- The handler of a dispatched stream can always come to its end. -/
theorem ends_of_dispatched (h : Visit cfg P tr s) {v : WorkerRef} {pc : StreamPc}
    (told : .dispatched (.stream r) v ∈ tr)
    (task : s.tasks r.jobId = some (.stream (.stream r) pc)) : Ends cfg s r.jobId r := by
  cases pc with
  | awaiting =>
    obtain ⟨item, w, request, loop | loop⟩ := dispatched_in_loop h told task
    · exact ends_putting h request loop task
    · exact ends_put h request loop task
  | assigned => exact ends_assigned task
  | getting => exact ends_getting task rfl
  | got w outcome =>
    cases outcome with
    | item m => exact ends_message task fun _ task' => ends_getting task' rfl
    | _ => exact ends_failed_get (by simp) task
  | sending => exact ends_sending task
  | closing => exact ends_closing task
  | reporting => exact ends_reporting task
  | ended => exact ends_ended task

end

end XttsServer.Model
