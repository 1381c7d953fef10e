import XttsServer.Runs.Accounting

/-!
How requests and replies travel: each request is dispatched to one worker, put on
its queue once and closed by one last reply, and a result queue carries nothing
but the replies to the request that names it.
-/

set_option autoImplicit false
set_option relaxedAutoImplicit false

namespace XttsServer.Model

open XttsServer.Foundations XttsServer.Foundations.Transition XttsServer.Foundations.Ledger

variable {cfg : Config} {P : State → Event → Prop} {s s' s₀ : State} {e : Event}
  {tr o : List Obs}

/-! ### One dispatch for each request -/

private theorem Change.dispatched_new (before : Visit cfg P tr s) (change : Change cfg s₀ e s s' o)
    {r : Request} {w : WorkerRef} (told : .dispatched r w ∈ o) :
    r.jobId ∉ (taken (slotLog tr)).map Prod.fst ∧ taken (slotLog o) = [(r.jobId, w)] := by
  have mine : (r.jobId, w) ∈ taken (slotLog o) := mem_taken.mpr ⟨r, told, rfl⟩
  cases change.slots before with
  | same _ log => simp [log] at mine
  | takes _ _ log _ new =>
    rw [log] at mine ⊢
    obtain ⟨same, rfl⟩ := Prod.mk.inj (List.mem_singleton.mp mine)
    rw [same]
    exact ⟨not_taken before new, rfl⟩
  | @gives _ _ _ i _ _ log => cases i <;> simp [log, taken] at mine
  | drops _ _ log => simp [log] at mine

private theorem taken_split (tr o : List Obs) :
    taken (slotLog (tr ++ o)) = taken (slotLog tr) ++ taken (slotLog o) := by
  simp [taken, slotLog]

private theorem dispatched_nodup (h : Visit cfg P tr s) :
    ((taken (slotLog tr)).map Prod.fst).Nodup := by
  induction h using visit_induction with
  | start => exact List.nodup_nil
  | @change s₀ e s s' tr o before ih meets change =>
    rw [taken_split, List.map_append]
    cases found : taken (slotLog o) with
    | nil => simpa using ih
    | cons p rest =>
      have member : p ∈ taken (slotLog o) := found ▸ List.mem_cons_self
      obtain ⟨r, told, same⟩ := mem_taken.mp (show (p.1, p.2) ∈ _ from member)
      obtain ⟨new, one⟩ := change.dispatched_new before told
      rw [← found, one, List.nodup_append]
      refine ⟨ih, List.nodup_singleton _, ?_⟩
      rintro j hj k hk rfl
      obtain rfl : j = r.jobId := by simpa using hk
      exact new hj

/-- The worker that `dispatch` returned for a request is the only one. -/
theorem dispatched_unique (h : Visit cfg P tr s) {r : Request} {w w' : WorkerRef}
    (told : .dispatched r w ∈ tr) (again : .dispatched r w' ∈ tr) : w = w' := by
  have left : (r.jobId, w) ∈ taken (slotLog tr) := mem_taken.mpr ⟨r, told, rfl⟩
  have right : (r.jobId, w') ∈ taken (slotLog tr) := mem_taken.mpr ⟨r, again, rfl⟩
  exact (Prod.mk.inj (List.inj_on_of_nodup_map (dispatched_nodup h) left right rfl)).2

theorem drained_dispatched (h : Visit cfg P tr s) {item : QueuedItem} {w : WorkerRef}
    (told : .drained item w ∈ tr) : .dispatched item.request w ∈ tr := by
  induction h using visit_induction with
  | start => cases told
  | @change s₀ e s s' tr o before ih meets change =>
    rcases List.mem_append.mp told with old | new
    · exact List.mem_append_left _ (ih old)
    · refine List.mem_append_right _ ?_
      cases change with
      | drainDispatches =>
        obtain ⟨rfl, rfl⟩ : item = _ ∧ w = _ := by simpa using new
        exact List.mem_cons_self
      | jobTurnedAway _ _ told' => rcases told' with rfl | rfl <;> simp at new
      | @answered _ a answer => cases a <;> simp [Obs.isAnswer] at answer new
      | _ => simp [marks_eq_map] at new

theorem collector_serves (h : Visit cfg P tr s) {j : JobId} {w : WorkerRef} {r : Request}
    {cb : OnComplete} {t : ℚ} {pc : CollectPc} (task : s.tasks j = some (.collector w r cb t pc)) :
    cb.jobId = j ∧ r.jobId = j ∧ ∃ r', r = .synthesis r' := by
  have serves := (placed h).serves j _ task
  have named : r.jobId = j := serves.named
  refine ⟨?_, named, ?_⟩
  · rw [← named]
    cases serves.fits with
    | collector own => rcases own with rfl | ⟨fmt, rfl⟩ <;> rfl
  · cases serves.fits with
    | collector => exact ⟨_, rfl⟩

theorem collector_dispatched (h : Visit cfg P tr s) {j : JobId} {w : WorkerRef} {r : Request}
    {cb : OnComplete} {t : ℚ} {pc : CollectPc} (task : s.tasks j = some (.collector w r cb t pc)) :
    .dispatched r w ∈ tr := by
  obtain ⟨item, drained, rfl, -⟩ := ((placed h).serves j _ task).origin
  exact drained_dispatched h drained

/-! ### The worker processes -/

/-- The request has been dispatched, and the executor thread has not put it yet. -/
inductive Unput (s : State) : Request → WorkerRef → Prop
  | drain {item : QueuedItem} {w : WorkerRef} (loop : s.drain = .putting item w) :
      Unput s item.request w
  | clone {j : JobId} {w : WorkerRef} {r : Request}
      (task : s.tasks j = some (.clone w r .putting)) :
      Unput s r w

theorem Unput.dispatched (h : Visit cfg P tr s) {r : Request} {w : WorkerRef}
    (unput : Unput s r w) :
    .dispatched r w ∈ tr := by
  cases unput with
  | @drain item w loop =>
    have here : (item, w) ∈ drained tr :=
      dispatching_drained h (by simp [loop, DrainPc.dispatching?])
    exact drained_dispatched h (mem_drained.mp here)
  | clone task => exact ((placed h).serves _ _ task).origin

theorem Unput.owns (h : Visit cfg P tr s) {r : Request} {w : WorkerRef} (unput : Unput s r w) :
    Owns s r.jobId w := by
  cases unput with
  | drain loop => exact .inl (by simp [loop, QueuedItem.jobId])
  | @clone j w r task =>
    obtain rfl : r.jobId = j := ((placed h).serves _ _ task).named
    exact .inr (by simp [held, task, Task.holds, ClonePc.holds])

/-- The message is of the class, and has the id, of an answer to the request. -/
def Message.answers (r : Request) (m : Message) : Prop :=
  match r, m with
  | .synthesis r, .result x => x.jobId = r.jobId
  | .stream r, .chunk c => c.jobId = r.jobId
  | .stream r, .streamEnd e => e.jobId = r.jobId
  | .computeLatents r, .latents x => x.jobId = r.jobId
  | _, _ => False

private theorem closingMessage_answers (r : Request) (outcome : ModelOutcome) :
    (closingMessage r outcome).answers r := by
  cases r <;> cases outcome <;> rfl

/-- What a change does to the processes and to the puts that are to come. -/
inductive WorkChange (s s' : State) (o : List Obs) : Prop
  | same (backlog : ∀ v, (s'.processes v).backlog = (s.processes v).backlog)
      (silent : ∀ v r m, .replied v r m ∉ o)
      (unput : ∀ r v, Unput s' r v → Unput s r v ∨ .dispatched r v ∈ o)
  | put {r : Request} {w : WorkerRef} (ready : Unput s r w)
      (backlog : ∀ v, (s'.processes v).backlog =
        if v = w then (s.processes w).backlog ++ [r] else (s.processes v).backlog)
      (silent : o = []) (unput : ∀ r' v, Unput s' r' v → Unput s r' v ∧ r' ≠ r)
  | chunk {r : Request} {w : WorkerRef} {m : Message} (current : r ∈ (s.processes w).backlog)
      (told : o = [.replied w r m]) (answers : m.answers r) (more : m.terminal = false)
      (processes : s'.processes = s.processes) (unput : ∀ r' v, Unput s' r' v → Unput s r' v)
  | reply {r : Request} {w : WorkerRef} {m : Message} {rest : List Request}
      (current : (s.processes w).backlog = r :: rest) (told : o = [.replied w r m])
      (answers : m.answers r)
      (backlog : ∀ v, (s'.processes v).backlog =
        if v = w then rest else (s.processes v).backlog)
      (unput : ∀ r' v, Unput s' r' v → Unput s r' v)

def Task.putting : Task → Bool
  | .clone _ _ .putting => true
  | _ => false

private theorem Task.putting_deliver {t : Task} {t0 : ℚ} (blocked : t.getting? = some t0)
    (outcome : GetOutcome) : (t.deliver outcome).putting = false := by
  cases t with
  | collector w r cb at' pc => cases pc <;> simp_all [Task.getting?, Task.deliver, Task.putting]
  | stream r pc => cases pc <;> simp_all [Task.getting?, Task.deliver, Task.putting]
  | clone w r pc => cases pc <;> simp_all [Task.getting?, Task.deliver, Task.putting]

private theorem Move.putting {now : ℚ} {j : JobId} {t t' : Task} {frame : Option Frame}
    (h : Move cfg now j e t t' frame) : t'.putting = false := by
  cases h with
  | timeout blocked => exact Task.putting_deliver blocked _
  | error blocked => exact Task.putting_deliver blocked _
  | _ => rfl

private theorem Unput.update {j : JobId} {t' : Task} {r : Request} {v : WorkerRef}
    (h : Unput s' r v)
    (tasks : s'.tasks = Function.update s.tasks j (some t')) (ready : t'.putting = false)
    (drain : ∀ item w, s'.drain = .putting item w → s.drain = .putting item w) : Unput s r v := by
  cases h with
  | drain loop => exact .drain (drain _ _ loop)
  | @clone k w r task =>
    rw [tasks] at task
    rcases some_of_update task with ⟨-, rfl⟩ | ⟨-, old⟩
    · cases ready
    · exact .clone old

private theorem Unput.congr {r : Request} {v : WorkerRef} (h : Unput s' r v)
    (tasks : s'.tasks = s.tasks)
    (drain : ∀ item w, s'.drain = .putting item w → s.drain = .putting item w) : Unput s r v := by
  cases h with
  | drain loop => exact .drain (drain _ _ loop)
  | clone task => exact .clone (tasks ▸ task)

private theorem request_ne_clone (h : Visit cfg P tr s) {item : QueuedItem}
    (member : item ∈ s.items) {j : JobId} {w : WorkerRef} {r : Request} {pc : ClonePc}
    (task : s.tasks j = some (.clone w r pc)) : item.request ≠ r := by
  rintro rfl
  have kind := proper_of_accepted h (items_accepted h member)
  have fits := ((placed h).serves j _ task).fits
  cases kind <;> cases fits

private theorem Unput.ne_of_clone {r' : Request} {v : WorkerRef} (next : Unput s' r' v)
    (before : Visit cfg P tr s) {j : JobId} {w : WorkerRef} {r : Request} {t : Task}
    (task : s.tasks j = some (.clone w r .putting)) (put : t.putting = false)
    (drain : s'.drain = s.drain) (tasks : s'.tasks = Function.update s.tasks j (some t)) :
    r' ≠ r := by
  cases next with
  | @drain item v loop =>
    rw [drain] at loop
    exact request_ne_clone before (by simp [State.items, loop, DrainPc.item?]) task
  | @clone k v r' task' =>
    rintro rfl
    rw [tasks] at task'
    rcases some_of_update task' with ⟨-, rfl⟩ | ⟨other, old⟩
    · cases put
    · have named := ((placed before).serves k _ old).named
      exact other (named.symm.trans ((placed before).serves j _ task).named)

private theorem backlog_update (processes : WorkerRef → Process) (w : WorkerRef) (p : Process)
    (v : WorkerRef) : (Function.update processes w p v).backlog =
      if v = w then p.backlog else (processes v).backlog := by
  by_cases here : v = w
  · rw [here, Function.update_self, if_pos rfl]
  · rw [Function.update_of_ne here, if_neg here]

theorem Change.work (before : Visit cfg P tr s) (change : Change cfg s₀ e s s' o) :
    WorkChange s s' o := by
  cases change with
  | jobTurnedAway _ _ told =>
    rcases told with rfl | rfl <;>
      exact .same (fun _ => rfl) (by simp) fun _ _ h => .inl (h.congr rfl fun _ _ => id)
  | @answered _ a answer =>
    refine .same (fun _ => rfl) ?_ fun _ _ h => .inl h
    cases a <;> simp [Obs.isAnswer] at answer ⊢
  | streamQueued =>
    exact .same (fun _ => rfl) (by simp) fun _ _ h => .inl (h.update rfl rfl fun _ _ => id)
  | @cloneStart j wavPath w _ fresh =>
    refine .same (fun _ => rfl) (by simp) fun r v h => ?_
    cases h with
    | drain loop => exact .inl (.drain loop)
    | @clone k v r task =>
      rcases some_of_update task with ⟨rfl, new⟩ | ⟨-, old⟩
      · obtain ⟨rfl, rfl⟩ : v = w ∧ r = .computeLatents ⟨k, wavPath, s.nextQueue⟩ := by
          simpa using new
        exact .inr List.mem_cons_self
      · exact .inl (.clone old)
  | @clonePut j w r task =>
    refine .put (.clone task) (fun v => ?_) rfl fun r' v h => ?_
    · rw [backlog_update]
      simp [Process.backlog]
    · exact ⟨h.update rfl rfl fun _ _ => id, h.ne_of_clone before task rfl rfl rfl⟩
  | @drainPut item w loop =>
    refine .put (.drain loop) (fun v => ?_) rfl fun r' v h => ?_
    · rw [backlog_update]
      simp [Process.backlog]
    · cases h with
      | drain loop' => cases loop'
      | @clone k v r task' =>
        have member : item ∈ s.items := by simp [State.items, loop, DrainPc.item?]
        exact ⟨.clone task', (request_ne_clone before member task').symm⟩
  | drainWaits hand | drainRaises hand =>
    refine .same (fun _ => rfl) (by simp) fun _ _ h => .inl (h.congr rfl ?_)
    intro _ _ loop
    cases loop
  | @drainDispatches s item rest w _ _ hand =>
    refine .same (fun _ => rfl) (by simp) fun r v h => ?_
    cases h with
    | @drain item' v loop =>
      obtain ⟨rfl, rfl⟩ : item = item' ∧ w = v := by simpa using loop
      exact .inr List.mem_cons_self
    | clone task => exact .inl (.clone task)
  | @handedOver item w loop =>
    have none_putting : ∀ (item' : QueuedItem) (w' : WorkerRef), DrainPc.getting =
        .putting item' w' → s.drain = .putting item' w' := fun _ _ loop => by cases loop
    refine .same (fun _ => rfl) (by simp) fun r v h => .inl ?_
    rcases handedOver_cases before loop with ⟨cb, -, -, tasks⟩ | ⟨-, tasks⟩ | ⟨-, tasks⟩
    · exact h.update tasks rfl none_putting
    · exact h.update tasks rfl none_putting
    · exact h.congr tasks none_putting
  | move task move =>
    refine .same (fun _ => rfl) (by simp) fun _ _ h => .inl
      (h.update rfl move.putting fun _ _ => id)
  | getReply task blocked =>
    refine .same (fun _ => rfl) (by simp) fun _ _ h =>
      .inl (h.update rfl (Task.putting_deliver blocked _) fun _ _ => id)
  | collected _ _ _ slot =>
    exact .same (fun _ => rfl) (by simp) fun _ _ h =>
      .inl (h.update rfl rfl fun _ _ => slot.drain_of (by simp))
  | leave _ _ slot =>
    exact .same (fun _ => rfl) (by simp) fun _ _ h =>
      .inl (h.update rfl rfl fun _ _ => slot.drain_of (by simp))
  | cloneDone _ _ slot =>
    exact .same (fun _ => rfl) (by simp) fun _ _ h =>
      .inl (h.update rfl rfl fun _ _ => slot.drain_of (by simp))
  | cancelAwaiting | cancelAssigned | saveOpen | saveWrite =>
    exact .same (fun _ => rfl) (by simp) fun _ _ h => .inl (h.update rfl rfl fun _ _ => id)
  | saved =>
    exact .same (fun _ => rfl) (by simp [marks_eq_map]) fun _ _ h =>
      .inl (h.update rfl rfl fun _ _ => id)
  | @workerTake w r rest idle =>
    refine .same (fun v => ?_) (by simp) fun _ _ h => .inl (h.congr rfl fun _ _ => id)
    rw [backlog_update]
    split_ifs with here
    · simp [Process.backlog, here, idle]
    · rfl
  | workerChunk _ busy =>
    exact .chunk (by simp [Process.backlog, busy]) rfl rfl rfl rfl fun _ _ h =>
      h.congr rfl fun _ _ => id
  | @workerReply w r rest outcome _ busy =>
    refine @WorkChange.reply _ _ _ r w _ rest (by simp [Process.backlog, busy]) rfl
      (closingMessage_answers r outcome) (fun v => ?_) fun _ _ h => h.congr rfl fun _ _ => id
    rw [backlog_update]
    simp [Process.backlog]
  | _ => exact .same (fun _ => rfl) (by simp) fun _ _ h => .inl (h.congr rfl fun _ _ => id)

/-- Each request is put for one worker once, and is gone from its backlog with its last reply. -/
structure Handled (tr : List Obs) (s : State) : Prop where
  dispatched : ∀ w r, r ∈ (s.processes w).backlog → .dispatched r w ∈ tr
  once : ∀ w, (s.processes w).backlog.Nodup
  unput : ∀ r w, Unput s r w → (∀ v, r ∉ (s.processes v).backlog) ∧ ∀ v m, .replied v r m ∉ tr
  replied : ∀ w r m, .replied w r m ∈ tr → .dispatched r w ∈ tr ∧ m.answers r
  answered : ∀ w r m, .replied w r m ∈ tr → m.terminal = true →
    ∀ v, r ∉ (s.processes v).backlog

private theorem Handled.same (ih : Handled tr s)
    (new : ∀ r w, .dispatched r w ∈ o → ∀ v, .dispatched r v ∉ tr)
    (backlog : ∀ v, (s'.processes v).backlog = (s.processes v).backlog)
    (silent : ∀ v r m, .replied v r m ∉ o)
    (unput : ∀ r v, Unput s' r v → Unput s r v ∨ .dispatched r v ∈ o) : Handled (tr ++ o) s' := by
  have old : ∀ {r w}, Obs.dispatched r w ∈ tr → Obs.dispatched r w ∈ tr ++ o :=
    fun told => List.mem_append_left o told
  have earlier : ∀ {w r m}, Obs.replied w r m ∈ tr ++ o → Obs.replied w r m ∈ tr :=
    fun told => (List.mem_append.mp told).resolve_right (silent _ _ _)
  refine ⟨?_, ?_, ?_, ?_, ?_⟩
  · exact fun w r member => old (ih.dispatched w r (backlog w ▸ member))
  · exact fun w => backlog w ▸ ih.once w
  · intro r w next
    rcases unput r w next with still | told
    · refine ⟨fun v => backlog v ▸ (ih.unput r w still).1 v, fun v m told => ?_⟩
      exact (ih.unput r w still).2 v m (earlier told)
    · refine ⟨fun v member => new r w told v (ih.dispatched v r (backlog v ▸ member)), ?_⟩
      exact fun v m reply => new r w told v (ih.replied v r m (earlier reply)).1
  · exact fun w r m told => (ih.replied w r m (earlier told)).imp old id
  · exact fun w r m told last v => backlog v ▸ ih.answered w r m (earlier told) last v

private theorem Handled.put (ih : Handled tr s) {r : Request} {w : WorkerRef}
    (ready : Unput s r w) (dispatched : .dispatched r w ∈ tr)
    (backlog : ∀ v, (s'.processes v).backlog =
      if v = w then (s.processes w).backlog ++ [r] else (s.processes v).backlog)
    (unput : ∀ r' v, Unput s' r' v → Unput s r' v ∧ r' ≠ r) : Handled tr s' := by
  obtain ⟨absent, unanswered⟩ := ih.unput r w ready
  have member_cases : ∀ v r', r' ∈ (s'.processes v).backlog →
      r' ∈ (s.processes v).backlog ∨ r' = r ∧ v = w := by
    intro v r' member
    rw [backlog] at member
    split_ifs at member with here
    · subst here
      exact (List.mem_append.mp member).imp id fun last => ⟨List.mem_singleton.mp last, rfl⟩
    · exact .inl member
  refine ⟨?_, ?_, ?_, ih.replied, ?_⟩
  · intro v r' member
    rcases member_cases v r' member with was | ⟨rfl, rfl⟩
    · exact ih.dispatched v r' was
    · exact dispatched
  · intro v
    rw [backlog]
    split_ifs with here
    · exact List.nodup_append.mpr ⟨ih.once w, List.nodup_singleton r, fun a ha b hb same =>
        absent w (List.mem_singleton.mp hb ▸ same ▸ ha)⟩
    · exact ih.once v
  · intro r' v next
    obtain ⟨still, other⟩ := unput r' v next
    refine ⟨fun u member => ?_, (ih.unput r' v still).2⟩
    rcases member_cases u r' member with was | ⟨same, -⟩
    · exact (ih.unput r' v still).1 u was
    · exact other same
  · intro v r' m told last u member
    rcases member_cases u r' member with was | ⟨rfl, -⟩
    · exact ih.answered v r' m told last u was
    · exact unanswered v m told

private theorem Handled.reply (ih : Handled tr s) {r : Request} {w : WorkerRef} {m : Message}
    (mine : r ∈ (s.processes w).backlog) (answers : m.answers r)
    (fewer : ∀ v, (s'.processes v).backlog.Sublist (s.processes v).backlog)
    (gone : m.terminal = true → ∀ v, r ∉ (s'.processes v).backlog)
    (unput : ∀ r' v, Unput s' r' v → Unput s r' v) : Handled (tr ++ [.replied w r m]) s' := by
  have reply_cases : ∀ {v r' m'}, Obs.replied v r' m' ∈ tr ++ [.replied w r m] →
      Obs.replied v r' m' ∈ tr ∨ v = w ∧ r' = r ∧ m' = m := by
    intro v r' m' told
    simpa using told
  refine ⟨?_, fun v => (ih.once v).sublist (fewer v), ?_, ?_, ?_⟩
  · exact fun v r' member => List.mem_append_left _ (ih.dispatched v r' ((fewer v).subset member))
  · intro r' v next
    obtain ⟨absent, unanswered⟩ := ih.unput r' v (unput r' v next)
    refine ⟨fun u member => absent u ((fewer u).subset member), fun u m' told => ?_⟩
    rcases reply_cases told with was | ⟨-, rfl, -⟩
    · exact unanswered u m' was
    · exact absent w mine
  · intro v r' m' told
    rcases reply_cases told with was | ⟨rfl, rfl, rfl⟩
    · exact (ih.replied v r' m' was).imp (List.mem_append_left _) id
    · exact ⟨List.mem_append_left _ (ih.dispatched v r' mine), answers⟩
  · intro v r' m' told last u member
    rcases reply_cases told with was | ⟨rfl, rfl, rfl⟩
    · exact ih.answered v r' m' was last u ((fewer u).subset member)
    · exact gone last u member

theorem handled (h : Visit cfg P tr s) : Handled tr s := by
  induction h using visit_induction with
  | start =>
    refine ⟨?_, ?_, ?_, by simp, by simp⟩
    · simp [State.init, Process.backlog]
    · simp [State.init, Process.backlog]
    · intro r w unput
      cases unput with
      | drain loop => cases loop
      | clone task => simp [State.init] at task
  | @change s₀ e s s' tr o before ih meets change =>
    cases change.work before with
    | same backlog silent unput =>
      refine ih.same (fun r w new v old => ?_) backlog silent unput
      exact (change.dispatched_new before new).1
        (List.mem_map_of_mem (mem_taken.mpr ⟨r, old, rfl⟩))
    | put ready backlog silent unput =>
      subst silent
      rw [List.append_nil]
      exact ih.put ready (ready.dispatched before) backlog unput
    | chunk current told answers more processes unput =>
      subst told
      refine ih.reply current answers (fun v => by rw [processes]) (fun last => ?_) unput
      rw [more] at last
      cases last
    | @reply r w m rest current told answers backlog unput =>
      subst told
      have mine : r ∈ (s.processes w).backlog := current ▸ List.mem_cons_self
      have fewer : ∀ v, (s'.processes v).backlog.Sublist (s.processes v).backlog := by
        intro v
        rw [backlog]
        split_ifs with here
        · rw [here, current]
          exact List.sublist_cons_self r rest
        · exact List.Sublist.refl _
      refine ih.reply mine answers fewer (fun _ v member => ?_) unput
      -- The request was on no other worker's queue, and once on this one.
      have here := dispatched_unique before (ih.dispatched v r ((fewer v).subset member))
        (ih.dispatched w r mine)
      have once := ih.once w
      rw [backlog, if_pos here] at member
      rw [current, List.nodup_cons] at once
      exact once.1 member

/-! ### The result queues -/

theorem Change.replied (change : Change cfg s₀ e s s' o) {w : WorkerRef} {r : Request} {m : Message}
    (told : .replied w r m ∈ o) :
    (∃ outcome, e = .workerReply w outcome ∧ (s₀.processes w).current = some r ∧
      outcome ≠ .raised "" ∧ m = closingMessage r outcome) ∨
    ∃ r' c, r = .stream r' ∧ m = .chunk c := by
  cases change with
  | @workerReply w' r' rest outcome event busy traced =>
    obtain ⟨rfl, rfl, rfl⟩ : w = w' ∧ r = r' ∧ m = closingMessage r' outcome := by simpa using told
    exact .inl ⟨outcome, event, by rw [busy], traced, rfl⟩
  | @workerChunk w' r' rest chunk =>
    obtain ⟨-, rfl, rfl⟩ : w = w' ∧ r = .stream r' ∧ m = .chunk ⟨r'.jobId, chunk⟩ := by
      simpa using told
    exact .inr ⟨_, _, rfl, rfl⟩
  | jobTurnedAway _ _ told' => rcases told' with rfl | rfl <;> simp at told
  | @answered _ a answer => cases a <;> simp [Obs.isAnswer] at answer told
  | _ => simp [marks_eq_map] at told

/-- What waits in a result queue are replies to the request that names it. -/
private theorem queued_replied (h : Visit cfg P tr s) {q : QueueId} {m : Message}
    (member : m ∈ s.resultQueues q) : ∃ w r, .replied w r m ∈ tr ∧ r.resultQueue = q := by
  induction h using visit_induction with
  | start => simp [State.init] at member
  | @change s₀ e s s' tr o before ih meets change =>
    have earlier : m ∈ s.resultQueues q → ∃ w r, .replied w r m ∈ tr ++ o ∧ r.resultQueue = q :=
      fun was => (ih was).imp fun w => Exists.imp fun r found =>
        ⟨List.mem_append_left o found.1, found.2⟩
    have replies : ∀ {w r new}, m ∈ Function.update s.resultQueues r.resultQueue
        (s.resultQueues r.resultQueue ++ [new]) q → .replied w r new ∈ o →
        ∃ w r, .replied w r m ∈ tr ++ o ∧ r.resultQueue = q := by
      intro w r new found told
      by_cases here : q = r.resultQueue
      · subst here
        rw [Function.update_self, List.mem_append, List.mem_singleton] at found
        rcases found with was | rfl
        · exact earlier was
        · exact ⟨w, r, List.mem_append_right tr told, rfl⟩
      · rw [Function.update_of_ne here] at found
        exact earlier found
    cases change with
    | @getReply j t t0 m' rest task blocked head =>
      dsimp only at member
      by_cases here : q = t.request.resultQueue
      · subst here
        rw [Function.update_self] at member
        exact earlier (head ▸ List.mem_cons_of_mem m' member)
      · rw [Function.update_of_ne here] at member
        exact earlier member
    | workerChunk => exact @replies _ (.stream _) _ member List.mem_cons_self
    | workerReply => exact replies member List.mem_cons_self
    | _ => exact earlier member

theorem replied_known (h : Visit cfg P tr s) {w : WorkerRef} {r : Request} {m : Message}
    (told : .replied w r m ∈ tr) : r ∈ requests tr :=
  dispatched_request h ((handled h).replied w r m told).1

private theorem head_replied (h : Visit cfg P tr s) {j : JobId} {t : Task}
    (task : s.tasks j = some t) {m : Message} (member : m ∈ s.resultQueues t.request.resultQueue) :
    ∃ w, .replied w t.request m ∈ tr := by
  obtain ⟨w, r, told, queue⟩ := queued_replied h member
  exact ⟨w, request_of_queue h (replied_known h told) (request_known h task) queue ▸ told⟩

/-- A task that has taken a message, or closes its stream for one, has had it from the worker. -/
def Task.heard (tr : List Obs) : Task → Prop
  | .collector _ r _ _ (.got _ (.item m)) => ∃ w, .replied w r m ∈ tr
  | .stream r (.got _ (.item m)) => ∃ w, .replied w r m ∈ tr
  | .stream r (.closing _ .done) => ∃ w m, .replied w r m ∈ tr ∧ m.terminal = true
  | .stream r (.closing _ (.failed _)) => ∃ w m, .replied w r m ∈ tr ∧ m.terminal = true
  | .clone _ r (.got (.item m)) => ∃ w, .replied w r m ∈ tr
  | _ => True

private theorem Task.heard.mono {t : Task} (h : t.heard tr) (o : List Obs) : t.heard (tr ++ o) := by
  have one : ∀ r m, (∃ w, Obs.replied w r m ∈ tr) → ∃ w, Obs.replied w r m ∈ tr ++ o :=
    fun r m => Exists.imp fun w told => List.mem_append_left o told
  have last : ∀ r, (∃ w m, Obs.replied w r m ∈ tr ∧ m.terminal = true) →
      ∃ w m, Obs.replied w r m ∈ tr ++ o ∧ m.terminal = true :=
    fun r => Exists.imp fun w => Exists.imp fun m found => found.imp (List.mem_append_left o) id
  unfold Task.heard at h ⊢
  split at h
  · exact one _ _ h
  · exact one _ _ h
  · exact last _ h
  · exact last _ h
  · exact one _ _ h
  · trivial

private theorem Task.heard_deliver {t : Task} {t0 : ℚ} (blocked : t.getting? = some t0)
    {outcome : GetOutcome} (heard : ∀ m, outcome = .item m → ∃ w, .replied w t.request m ∈ tr) :
    (t.deliver outcome).heard tr := by
  cases t with
  | collector w r cb at' pc =>
    cases pc <;> simp only [Task.getting?] at blocked <;> try contradiction
    cases outcome <;> first | trivial | exact heard _ rfl
  | stream r pc =>
    cases pc <;> simp only [Task.getting?] at blocked <;> try contradiction
    cases outcome <;> first | trivial | exact heard _ rfl
  | clone w r pc =>
    cases pc <;> simp only [Task.getting?] at blocked <;> try contradiction
    cases outcome <;> first | trivial | exact heard _ rfl

private theorem Move.heard {now : ℚ} {j : JobId} {t t' : Task} {frame : Option Frame}
    (h : Move cfg now j e t t' frame) (before : t.heard tr) : t'.heard tr := by
  cases h with
  | timeout blocked => exact Task.heard_deliver blocked (by simp)
  | error blocked => exact Task.heard_deliver blocked (by simp)
  | streamDone => exact before.imp fun w told => ⟨_, told, rfl⟩
  | streamFailed => exact before.imp fun w told => ⟨_, told, rfl⟩
  | _ => trivial

theorem tasks_heard (h : Visit cfg P tr s) : ∀ j t, s.tasks j = some t → t.heard tr := by
  induction h using visit_induction with
  | start => simp [State.init]
  | @change s₀ e s s' tr o before ih meets change =>
    have old : ∀ j t, s.tasks j = some t → t.heard (tr ++ o) := fun j t task => (ih j t task).mono o
    have update : ∀ {j : JobId} {t' : Task}, t'.heard (tr ++ o) → ∀ k t,
        Function.update s.tasks j (some t') k = some t → t.heard (tr ++ o) :=
      fun new => forall_of_update new old
    cases change with
    | streamQueued | cloneStart | clonePut | cloneDone | cancelAwaiting | cancelAssigned | saveOpen
    | saveWrite | saved => exact update trivial
    | @handedOver item w loop =>
      dsimp only
      rcases handedOver_cases before loop with ⟨cb, -, -, tasks⟩ | ⟨-, tasks⟩ | ⟨-, tasks⟩
      · exact tasks ▸ update trivial
      · exact tasks ▸ update trivial
      · exact tasks ▸ old
    | @move j t t' frame task move => exact update (move.heard (old j t task))
    | @getReply j t t0 m rest task blocked head =>
      refine update (Task.heard_deliver blocked fun m' same => ?_)
      obtain rfl : m = m' := by simpa using same
      exact (head_replied before task (head ▸ List.mem_cons_self)).imp fun w told =>
        List.mem_append_left _ told
    | @collected j w r cb t t0 outcome result workers drain i next _ _ _ _ _ _ _ call =>
      have settled := onComplete_holds call
      apply update
      cases next <;> trivial
    | leave _ left =>
      apply update
      cases left with
      | sendFails after => rcases after with rfl | rfl <;> trivial
      | closeFails after => rcases after with rfl | rfl <;> trivial
      | _ => trivial
    | _ => exact old

/-- The owner of the request has the worker's last reply to it. -/
def Task.answered : Task → Bool
  | .collector _ _ _ _ (.got _ (.item _)) => true
  | .stream _ (.got _ (.item (.streamEnd _))) => true
  | .stream _ (.closing _ .done) => true
  | .stream _ (.closing _ (.failed _)) => true
  | .clone _ _ (.got (.item _)) => true
  | _ => false

private theorem Message.answers.terminal {r : Request} {m : Message} (h : m.answers r)
    (whole : ∀ r', r ≠ .stream r') : m.terminal = true := by
  cases m with
  | chunk c =>
    cases r with
    | stream r => exact absurd rfl (whole r)
    | _ => cases h
  | _ => rfl

private theorem answered_replied (h : Visit cfg P tr s) {j : JobId} {t : Task}
    (task : s.tasks j = some t) (answered : t.answered = true) :
    ∃ w m, .replied w t.request m ∈ tr ∧ m.terminal = true := by
  have heard := tasks_heard h j t task
  have fits := ((placed h).serves j t task).fits
  have whole : (∀ r', t.request ≠ .stream r') → ∀ m, (∃ w, .replied w t.request m ∈ tr) →
      ∃ w m, .replied w t.request m ∈ tr ∧ m.terminal = true := by
    rintro kind m ⟨w, told⟩
    exact ⟨w, m, told, ((handled h).replied w _ m told).2.terminal kind⟩
  unfold Task.answered at answered
  split at answered
  · cases fits
    exact whole (by simp [Task.request]) _ heard
  · exact heard.imp fun w told => ⟨_, told, rfl⟩
  · exact heard
  · exact heard
  · cases fits
    exact whole (by simp [Task.request]) _ heard
  · cases answered

/-- An owner that has the last reply finds its request gone from every backlog. -/
theorem answered_gone (h : Visit cfg P tr s) {j : JobId} {t : Task} (task : s.tasks j = some t)
    (answered : t.answered = true) (v : WorkerRef) : t.request ∉ (s.processes v).backlog := by
  obtain ⟨w, m, told, last⟩ := answered_replied h task answered
  exact (handled h).answered w t.request m told last v

/-! ### Collectors that have called back -/

def Task.settled : Task → Bool
  | .collector _ _ _ _ pc => !pc.holds
  | _ => false

def Settled (tasks : JobId → Option Task) (j : JobId) : Prop :=
  ∃ t, tasks j = some t ∧ t.settled = true

theorem Task.not_settled_of_getting {t : Task} {t0 : ℚ} (blocked : t.getting? = some t0) :
    t.settled = false := by
  cases t with
  | collector w r cb at' pc => cases pc <;> simp_all [Task.getting?, Task.settled, CollectPc.holds]
  | _ => rfl

private theorem Move.settled {now : ℚ} {j : JobId} {t t' : Task} {frame : Option Frame}
    (h : Move cfg now j e t t' frame) (before : t.settled = true) : t'.settled = true := by
  cases h with
  | timeout blocked | error blocked =>
    rw [Task.not_settled_of_getting blocked] at before
    cases before
  | collectorRaised | saveRaise => rfl
  | _ => cases before

private theorem Settled.update {tasks : JobId → Option Task} {j k : JobId} {t t' : Task}
    (h : Settled tasks j) (task : tasks k = some t) (kept : t.settled = true → t'.settled = true) :
    Settled (Function.update tasks k (some t')) j := by
  obtain ⟨u, there, settled⟩ := h
  by_cases here : j = k
  · subst here
    obtain rfl := Option.some.inj (task.symm.trans there)
    exact ⟨t', Function.update_self .., kept settled⟩
  · exact ⟨u, by rwa [Function.update_of_ne here], settled⟩

private theorem Settled.update_none {tasks : JobId → Option Task} {j k : JobId} {t' : Task}
    (h : Settled tasks j) (free : tasks k = none) :
    Settled (Function.update tasks k (some t')) j := by
  obtain ⟨u, there, settled⟩ := h
  have apart : j ≠ k := by
    rintro rfl
    rw [free] at there
    cases there
  exact ⟨u, by rwa [Function.update_of_ne apart], settled⟩

/-- A collector that has called back never goes back to its result queue. -/
theorem Change.settled (before : Visit cfg P tr s) (change : Change cfg s₀ e s s' o) {j : JobId}
    (h : Settled s.tasks j) : Settled s'.tasks j := by
  cases change with
  | streamQueued fresh => exact h.update_none (tasks_of_fresh before (placed before) fresh)
  | cloneStart _ fresh => exact h.update_none (tasks_of_fresh before (placed before) fresh)
  | @handedOver item w loop =>
    dsimp only
    rcases handedOver_cases before loop with ⟨cb, -, free, tasks⟩ | ⟨waits, tasks⟩ | ⟨-, tasks⟩
    · exact tasks ▸ h.update_none free
    · exact tasks ▸ h.update waits (by simp [Task.settled])
    · exact tasks ▸ h
  | move task move => exact h.update task move.settled
  | getReply task blocked =>
    exact h.update task (by simp [Task.not_settled_of_getting blocked])
  | clonePut task | leave task | cloneDone _ task | cancelAwaiting _ task | cancelAssigned _ task =>
    exact h.update task (by simp [Task.settled])
  | collected _ task => exact h.update task (by simp [Task.settled, CollectPc.holds])
  | saveOpen task | saveWrite task | saved task => exact h.update task fun _ => rfl
  | _ => exact h

end XttsServer.Model
