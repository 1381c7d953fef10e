import XttsServer.Model.Changes

/-!
Every step is a chain of changes. For a submission the chain follows the loop of
the handler, for the drain loop it separates the hand-over from the next item.
-/

set_option autoImplicit false
set_option relaxedAutoImplicit false

namespace XttsServer.Model

open XttsServer.Foundations XttsServer.Foundations.Transition

variable {cfg : Config} {s s' s₀ : State} {e : Event} {o : List Obs}

/-! ### Submissions -/

theorem canDraw_of_fresh {ids : List JobId} (fresh : s.fresh ids = true) :
    ids.Nodup ∧ ∀ j ∈ ids, s.canDraw j := by
  simp only [State.fresh, Bool.and_eq_true, decide_eq_true_eq, List.all_eq_true] at fresh
  exact fresh

theorem submitOne_cases {r : Resolved} {j : JobId} {raises : Bool} {answer : Submitted}
    (h : submitOne cfg s r j raises = ((s', o), answer)) :
    (raises = true ∧ answer = .raised ∧ s' = createJob s r j ∧ o = [.created j]) ∨
    (queueFull cfg s = false ∧ answer = .enqueued ∧
      s' = { makeQueue (createJob s r j) with queue := s.queue ++ [storeItem cfg s r j] } ∧
      o = [.created j, .accepted (storeItem cfg s r j)]) ∨
    (queueFull cfg s = true ∧ answer = .full (queueFullText cfg s) ∧
      s' = makeQueue (createJob s r j) ∧ o = [.created j, .rejected (storeItem cfg s r j)]) := by
  unfold submitOne at h
  by_cases raised : raises = true
  · rw [if_pos raised] at h
    simp only [Prod.mk.injEq] at h
    obtain ⟨⟨rfl, rfl⟩, rfl⟩ := h
    exact .inl ⟨raised, rfl, rfl, rfl⟩
  · rw [if_neg raised] at h
    by_cases full : queueFull cfg s = true
    · have full' : queueFull cfg (makeQueue (createJob s r j)) = true := full
      simp only [enqueue, full', if_true, Prod.mk.injEq] at h
      obtain ⟨⟨rfl, rfl⟩, rfl⟩ := h
      exact .inr (.inr ⟨full, rfl, rfl, rfl⟩)
    · have room : queueFull cfg (makeQueue (createJob s r j)) = false :=
        (Bool.not_eq_true _).mp full
      simp only [enqueue, room, Bool.false_eq_true, if_false, Prod.mk.injEq] at h
      obtain ⟨⟨rfl, rfl⟩, rfl⟩ := h
      exact .inr (.inl ⟨by simpa using full, rfl, rfl, rfl⟩)

private theorem submitTts_changes {body : TtsRequest} {speakers : SpeakerView} {j : JobId}
    {raises : Bool} {answer : Except Exc Unit} (fresh : s.canDraw j)
    (run : submitTts cfg s body speakers j raises = ((s', o), answer)) :
    Chain (Change cfg s (.submitTts body speakers j raises)) s o s' := by
  unfold submitTts at run
  split at run
  · simp only [Prod.mk.injEq] at run
    obtain ⟨⟨rfl, rfl⟩, -⟩ := run
    exact .single (.answered rfl (.inl rfl) rfl (by simp))
  · rename_i r _
    cases one : submitOne cfg s r j raises with
    | mk effect result =>
      obtain ⟨s₁, o₁⟩ := effect
      rw [one] at run
      rcases submitOne_cases one with ⟨raised, rfl, rfl, rfl⟩ | ⟨room, rfl, rfl, rfl⟩ |
        ⟨full, rfl, rfl, rfl⟩
      · simp only [Prod.mk.injEq] at run
        obtain ⟨⟨rfl, rfl⟩, -⟩ := run
        have cut : Chain (Change cfg s (.submitTts body speakers j raises)) s _ _ :=
          .single (@Change.jobRaised cfg s _ s r j fresh raised)
        exact cut.tail (.answered rfl (.inl rfl) rfl (by simp))
      · simp only [Prod.mk.injEq] at run
        obtain ⟨⟨rfl, rfl⟩, -⟩ := run
        exact (Chain.single (Change.jobQueued fresh room rfl)).tail
          (.answered rfl (.inl rfl) rfl (by simp))
      · have present : j ∈ (makeQueue (createJob s r j)).jobs.keys :=
          JobStore.mem_keys_create s.jobs s.now j r.text r.language r.speakerId
        simp only [markFailed, if_pos present, Prod.mk.injEq] at run
        obtain ⟨⟨rfl, rfl⟩, -⟩ := run
        exact .single (.jobTurnedAway fresh full (.inl rfl) rfl)

theorem JobStore.get?_failAll_of_notMem (store : JobStore) (now : ℚ) (error : String)
    (ids : List JobId) {j : JobId} (other : j ∉ ids) :
    (store.failAll now error ids).get? j = store.get? j := by
  induction ids generalizing store with
  | nil => rfl
  | cons k ids ih =>
    rw [List.mem_cons, not_or] at other
    rw [JobStore.failAll, List.foldl_cons]
    exact (ih _ other.2).trans ((Dict.get?_modify _ _ _ _).trans (if_neg other.1))

theorem JobStore.failed_of_failAll (store : JobStore) (now : ℚ) (error : String)
    (ids : List JobId) {j : JobId}
    (marked : j ∈ ids ∨ ∀ job, store.get? j = some job → job.status = .failed) {job : Job}
    (found : (store.failAll now error ids).get? j = some job) : job.status = .failed := by
  induction ids generalizing store with
  | nil => exact marked.resolve_left List.not_mem_nil job found
  | cons k ids ih =>
    rw [JobStore.failAll, List.foldl_cons] at found
    refine ih _ ?_ found
    by_cases here : j = k
    · refine .inr fun job' there => ?_
      rw [JobStore.markFailed, Dict.get?_modify, if_pos here] at there
      obtain ⟨old, -, rfl⟩ := Option.map_eq_some_iff.mp there
      rfl
    · rcases marked with member | failed
      · exact .inl (List.mem_of_ne_of_mem here member)
      · refine .inr fun job' there => failed job' ?_
        rwa [JobStore.markFailed, Dict.get?_modify, if_neg here] at there

theorem markAllFailed_eq (text : String) (s : State) (ids : List JobId) :
    markAllFailed text s ids =
      ({ s with jobs := s.jobs.failAll s.now text ids }, failMarks s.jobs ids) := by
  induction ids generalizing s with
  | nil => rfl
  | cons j ids ih =>
    simp only [markAllFailed, markFailed, ih, JobStore.failAll, List.foldl_cons, failMarks,
      JobStore.keys_markFailed, List.filter_cons]
    split_ifs <;> simp_all

/-- How the loop of `submit_batch` goes on at an item, and what it comes to. -/
inductive LoopRound (cfg : Config) (s : State) (created : List JobId) (r : Resolved) (j : JobId)
    (rest : List (Resolved × JobId)) (raiseAt : Option Nat) :
    State → List Obs → List JobId → Except Exc Unit → Prop
  | raised (now : raiseAt = some 0) :
    LoopRound cfg s created r j rest raiseAt (createJob s r j) [.created j] (created ++ [j])
      (.error .makeQueue)
  | enqueued {s' : State} {o : List Obs} {all : List JobId} {answer : Except Exc Unit}
      (room : queueFull cfg s = false)
      (tail : submitLoop cfg
        { makeQueue (createJob s r j) with queue := s.queue ++ [storeItem cfg s r j] }
        (created ++ [j]) rest (raiseAt.map (· - 1)) = ((s', o), all, answer)) :
    LoopRound cfg s created r j rest raiseAt s'
      ([.created j, .accepted (storeItem cfg s r j)] ++ o) all answer
  | full (full : queueFull cfg s = true) :
    LoopRound cfg s created r j rest raiseAt
      { makeQueue (createJob s r j) with
        jobs := (createJob s r j).jobs.failAll s.now (queueFullText cfg s) (created ++ [j]) }
      ([.created j, .rejected (storeItem cfg s r j)] ++
        failMarks (createJob s r j).jobs (created ++ [j]))
      (created ++ [j]) (.error (.http 503 (queueFullText cfg s)))

theorem submitLoop_cases {r : Resolved} {j : JobId} {rest : List (Resolved × JobId)}
    {created all : List JobId} {raiseAt : Option Nat} {answer : Except Exc Unit}
    (run : submitLoop cfg s created ((r, j) :: rest) raiseAt = ((s', o), all, answer)) :
    LoopRound cfg s created r j rest raiseAt s' o all answer := by
  cases one : submitOne cfg s r j (raiseAt = some 0) with
  | mk effect result =>
    obtain ⟨s₁, o₁⟩ := effect
    rw [submitLoop, one] at run
    rcases submitOne_cases one with ⟨raised, rfl, rfl, rfl⟩ | ⟨room, rfl, rfl, rfl⟩ |
      ⟨full, rfl, rfl, rfl⟩
    · simp only [Prod.mk.injEq] at run
      obtain ⟨⟨rfl, rfl⟩, rfl, rfl⟩ := run
      exact .raised (of_decide_eq_true raised)
    · dsimp only at run
      cases tail : submitLoop cfg _ (created ++ [j]) rest (raiseAt.map (· - 1)) with
      | mk effect result =>
        obtain ⟨s₂, o₂⟩ := effect
        obtain ⟨all', answer'⟩ := result
        rw [tail] at run
        simp only [Prod.mk.injEq] at run
        obtain ⟨⟨rfl, rfl⟩, rfl, rfl⟩ := run
        exact .enqueued room tail
    · dsimp only at run
      rw [markAllFailed_eq] at run
      simp only [Prod.mk.injEq] at run
      obtain ⟨⟨rfl, rfl⟩, rfl, rfl⟩ := run
      exact .full full

theorem queueFull_iff :
    queueFull cfg s = true ↔
      0 < cfg.settings.maxQueueSize ∧ cfg.settings.maxQueueSize ≤ s.queue.length := by
  simp [queueFull]

section Batch

variable {items : List BatchItem} {speakers : SpeakerView} {ids : List JobId}
  {rs : List Resolved}

/-- Where the loop of `submit_batch` stands: `created` jobs are enqueued, `rest` are to come. -/
private structure Halfway (cfg : Config) (s₀ s : State) (items : List BatchItem)
    (created : List JobId) (rest : List (Resolved × JobId)) : Prop where
  fresh : ∀ p ∈ rest, s.canDraw p.2
  nodup : (rest.map Prod.snd).Nodup
  depth : s.queue.length = s₀.queue.length + created.length
  total : created.length + rest.length = items.length
  room : created ≠ [] → queueFull cfg s₀ = false
  untouched : created = [] → s = s₀
  drawn : created ⊆ s.used
  waiting : ∀ k ∈ created, (s.jobs.get? k).map Job.status = some .pending

private theorem Halfway.next {created : List JobId} {r : Resolved} {j : JobId}
    {rest : List (Resolved × JobId)} (h : Halfway cfg s₀ s items created ((r, j) :: rest))
    (room : queueFull cfg s = false) :
    Halfway cfg s₀
      { makeQueue (createJob s r j) with queue := s.queue ++ [storeItem cfg s r j] } items
      (created ++ [j]) rest := by
  obtain ⟨fresh, nodup, depth, total, before, untouched, drawn, waiting⟩ := h
  rw [List.map_cons, List.nodup_cons] at nodup
  refine ⟨?_, nodup.2, by simp [depth, Nat.add_assoc], ?_, fun _ => ?_, by simp, ?_, ?_⟩
  · intro p hp
    refine ⟨(fresh p (List.mem_cons_of_mem _ hp)).1, ?_⟩
    have older := (fresh p (List.mem_cons_of_mem _ hp)).2
    have other : p.2 ≠ j := fun same => nodup.1 (List.mem_map.mpr ⟨p, hp, same⟩)
    simp [makeQueue, createJob, older, other]
  · rw [List.length_cons] at total
    rw [List.length_append, List.length_singleton]
    omega
  · by_cases first : created = []
    · exact untouched first ▸ room
    · exact before first
  · intro k hk
    rcases List.mem_append.mp hk with old | new
    · exact List.mem_cons_of_mem _ (drawn old)
    · rw [List.mem_singleton.mp new]
      exact List.mem_cons_self
  · intro k hk
    rcases List.mem_append.mp hk with old | new
    · have other : k ≠ j := fun same => (fresh _ List.mem_cons_self).2 (same ▸ drawn old)
      exact (congrArg _ (JobStore.get?_create_of_ne _ _ _ _ _ _ other)).trans (waiting k old)
    · rw [List.mem_singleton.mp new]
      exact JobStore.status_create ..

/-- A queue that gets full in the middle of the loop means that the batch was split. -/
private theorem Halfway.splits {created : List JobId} {r : Resolved} {j : JobId}
    {rest : List (Resolved × JobId)} (h : Halfway cfg s₀ s items created ((r, j) :: rest))
    (valid : resolveBatch cfg.settings speakers items = .ok rs) (full : queueFull cfg s = true)
    (begun : created ≠ []) :
    splitsBatch cfg s₀ (.submitBatch items speakers ids none) = true := by
  have room := h.room begun
  have total := h.total
  have depth := h.depth
  have some_created := List.length_pos_iff.mpr begun
  rw [queueFull_iff] at full
  have open₀ : ¬ (0 < cfg.settings.maxQueueSize ∧ cfg.settings.maxQueueSize ≤ s₀.queue.length) := by
    rw [← queueFull_iff, room]
    exact Bool.false_ne_true
  rw [List.length_cons] at total
  simp only [splitsBatch, valid, decide_eq_true_eq]
  constructor <;> omega

private theorem submitLoop_changes {rest : List (Resolved × JobId)} {created : List JobId}
    {raiseAt : Option Nat} {all : List JobId} {answer : Except Exc Unit} {raiseAt₀ : Option Nat}
    (here : Halfway cfg s₀ s items created rest)
    (valid : resolveBatch cfg.settings speakers items = .ok rs)
    (counting : raiseAt.isSome = raiseAt₀.isSome)
    (reached : raiseAt₀.isSome = true → answer = .error .makeQueue)
    (run : submitLoop cfg s created rest raiseAt = ((s', o), all, answer)) :
    Chain (Change cfg s₀ (.submitBatch items speakers ids raiseAt₀)) s (o ++ [.batch all answer])
      s' := by
  induction rest generalizing s created raiseAt o with
  | nil =>
    simp only [submitLoop, Prod.mk.injEq] at run
    obtain ⟨⟨rfl, rfl⟩, rfl, rfl⟩ := run
    exact .single (.answered rfl (.inl rfl) rfl (by simp))
  | cons p rest ih =>
    obtain ⟨r, j⟩ := p
    have fresh : s.canDraw j := here.fresh _ List.mem_cons_self
    cases submitLoop_cases run with
    | raised now =>
      have asked : raiseAt₀.isSome = true := by rw [← counting, now, Option.isSome_some]
      have cut : Chain (Change cfg s₀ (.submitBatch items speakers ids raiseAt₀)) s _ _ :=
        .single (@Change.jobRaised cfg s₀ _ s r j fresh asked)
      exact cut.tail (.answered rfl (.inl rfl) rfl (by simp))
    | enqueued room tail =>
      rw [List.append_assoc]
      exact Chain.head (.jobQueued fresh room rfl)
        (ih (here.next room) (by simpa using counting) tail)
    | full full =>
      have none₀ : raiseAt₀ = none := by
        cases raiseAt₀ with
        | none => rfl
        | some k => exact absurd (reached rfl) (by simp)
      subst none₀
      by_cases begun : created = []
      · have present := JobStore.mem_keys_create s.jobs s.now j r.text r.language r.speakerId
        subst begun
        have whole : Chain (Change cfg s₀ (.submitBatch items speakers ids none)) s _ _ :=
          .single (@Change.jobTurnedAway cfg s₀ _ s r j (queueFullText cfg s) _ fresh full
            (.inr rfl) rfl)
        simpa [JobStore.failAll, failMarks, present, makeQueue, createJob] using whole
      · have split : splitsBatch cfg s₀ (.submitBatch items speakers ids none) = true :=
          here.splits valid full begun
        have refused : Chain (Change cfg s₀ (.submitBatch items speakers ids none)) s _ _ :=
          .single (@Change.batchRefused cfg s₀ _ s r j created (queueFullText cfg s) fresh
            here.waiting split rfl)
        exact refused.tail (.answered rfl (.inr split) rfl (by simp))

private theorem submitBatch_changes {raiseAt : Option Nat} {answer : Except Exc Unit}
    (fresh : s.fresh ids = true) (enough : ids.length = items.length)
    (reached : raiseAt.isSome = true → answer = .error .makeQueue)
    (run : submitBatch cfg s items speakers ids raiseAt = ((s', o), answer)) :
    Chain (Change cfg s (.submitBatch items speakers ids raiseAt)) s o s' := by
  unfold submitBatch at run
  split at run
  · rename_i exc _
    simp only [Prod.mk.injEq] at run
    obtain ⟨⟨rfl, rfl⟩, rfl⟩ := run
    refine .single (.answered rfl (.inl ?_) rfl (by simp))
    cases exc <;> rfl
  · rename_i rs valid
    obtain ⟨nodup, drawable⟩ := canDraw_of_fresh fresh
    have count := length_resolveBatch valid
    cases loop : submitLoop cfg s [] (rs.zip ids) raiseAt with
    | mk effect result =>
      obtain ⟨s₁, o₁⟩ := effect
      obtain ⟨all, answer'⟩ := result
      rw [loop] at run
      simp only [Prod.mk.injEq] at run
      obtain ⟨⟨rfl, rfl⟩, rfl⟩ := run
      refine submitLoop_changes ⟨?_, ?_, by simp, ?_, by simp, fun _ => rfl, by simp, by simp⟩
        valid rfl reached loop
      · intro p hp
        exact drawable _ (List.of_mem_zip hp).2
      · rw [List.map_snd_zip (by omega)]
        exact nodup
      · simp [List.length_zip]
        omega

theorem submitLoop_grows {rest : List (Resolved × JobId)} {created all : List JobId}
    {raiseAt : Option Nat} {answer : Except Exc Unit}
    (run : submitLoop cfg s created rest raiseAt = ((s', o), all, answer)) :
    s.queue ⊆ s'.queue ∧ created ⊆ all ∧ ∀ jobs answer', .batch jobs answer' ∉ o := by
  induction rest generalizing s created raiseAt o with
  | nil =>
    simp only [submitLoop, Prod.mk.injEq] at run
    obtain ⟨⟨rfl, rfl⟩, rfl, -⟩ := run
    exact ⟨List.Subset.refl _, List.Subset.refl _, by simp⟩
  | cons p rest ih =>
    obtain ⟨r, j⟩ := p
    cases submitLoop_cases run with
    | raised => exact ⟨List.Subset.refl _, List.subset_append_left _ _, by simp⟩
    | enqueued room tail =>
      obtain ⟨queued, named, silent⟩ := ih tail
      exact ⟨fun item old => queued (List.mem_append_left _ old),
        fun k old => named (List.mem_append_left _ old), by simpa using silent⟩
    | full => exact ⟨List.Subset.refl _, List.subset_append_left _ _, by simp⟩

/-- A batch that is split leaves its first item in the queue. -/
theorem split_leaves_item {raiseAt : Option Nat} {created : List JobId}
    {answer : Except Exc Unit}
    (taken : step cfg s (.submitBatch items speakers ids raiseAt) = some (s', o))
    (split : splitsBatch cfg s (.submitBatch items speakers ids raiseAt) = true)
    (told : .batch created answer ∈ o) :
    ∃ r j, storeItem cfg s r j ∈ s'.queue ∧ j ∈ created := by
  cases raiseAt with
  | some k => cases split
  | none =>
    cases valid : resolveBatch cfg.settings speakers items with
    | error exc => simp [splitsBatch, valid] at split
    | ok rs =>
      simp only [splitsBatch, valid, decide_eq_true_eq] at split
      have room : queueFull cfg s = false := by
        rw [← Bool.not_eq_true, queueFull_iff]
        omega
      simp only [step, submitBatch, valid, Option.isSome_none, Bool.false_eq_true, false_and,
        if_false] at taken
      split_ifs at taken with fresh
      have enough : rs.length = ids.length := (length_resolveBatch valid).trans fresh.2.symm
      cases pairs : rs.zip ids with
      | nil =>
        have none : rs = [] ∨ ids = [] := List.zip_eq_nil_iff.mp pairs
        have empty : items.length = 0 := by
          rw [← length_resolveBatch valid]
          rcases none with rfl | rfl
          · rfl
          · exact enough
        omega
      | cons p rest =>
        obtain ⟨r, j⟩ := p
        rw [pairs] at taken
        cases loop : submitLoop cfg s [] ((r, j) :: rest) none with
        | mk effect result =>
          obtain ⟨s₁, o₁⟩ := effect
          obtain ⟨all, answer'⟩ := result
          rw [loop] at taken
          obtain ⟨rfl, rfl⟩ := Prod.mk.inj (Option.some.inj taken)
          cases submitLoop_cases loop with
          | raised now => cases now
          | enqueued _ tail =>
            obtain ⟨queued, named, silent⟩ := submitLoop_grows tail
            obtain ⟨rfl, -⟩ : created = all ∧ answer = answer' := by simpa [silent] using told
            exact ⟨r, j, queued (by simp), named (by simp)⟩
          | full full =>
            rw [room] at full
            cases full

end Batch

private theorem runSynthesis_changes {body : TtsRequest} {speakers : SpeakerView} {j : JobId}
    (fresh : s.canDraw j) (kind : e.submits = true) :
    Chain (Change cfg s e) s (runSynthesis cfg s body speakers j).2
      (runSynthesis cfg s body speakers j).1 := by
  unfold runSynthesis
  split
  · exact .single (.answered rfl (.inl rfl) kind (by simp))
  · rename_i r _
    by_cases full : queueFull cfg s = true
    · have full' : queueFull cfg (makeQueue { s with used := j :: s.used }) = true := full
      simp only [enqueue, full', if_true]
      exact (Chain.single (@Change.requestRefused cfg s e s
        (jobItem s.now (r.toRequest j s.nextQueue) (.bridge j)) fresh full kind)).tail
        (.answered rfl (.inl rfl) kind (by simp))
    · have room : queueFull cfg (makeQueue { s with used := j :: s.used }) = false :=
        (Bool.not_eq_true _).mp full
      simp only [enqueue, room, Bool.false_eq_true, if_false]
      exact .single (.bridgeQueued fresh (by simpa using full) kind)

private theorem streamTts_changes {params : StreamRequest} {speakers : SpeakerView} {j : JobId}
    (fresh : s.canDraw j) (kind : e.submits = true) :
    Chain (Change cfg s e) s (streamTts cfg s params speakers j).2
      (streamTts cfg s params speakers j).1 := by
  have own : ∀ {s' : State} {f k g}, s'.used = j :: s.used → s'.tasks = s.tasks →
      Obs.frame j f = .frame k g → s.canDraw k ∧ k ∈ s'.used ∧ s'.tasks = s.tasks := by
    intro s' f k g used tasks same
    obtain ⟨rfl, -⟩ := Obs.frame.inj same
    exact ⟨fresh, used ▸ List.mem_cons_self, tasks⟩
  unfold streamTts
  dsimp only
  split
  · exact (Chain.single (Change.drawn fresh kind)).tail
      (.answered rfl (.inl rfl) kind fun _ _ => own rfl rfl)
  · rename_i language gpt emb _
    by_cases full : queueFull cfg s = true
    · have full' : queueFull cfg (makeQueue { s with used := j :: s.used }) = true := full
      simp only [enqueue, full', if_true]
      exact (Chain.single (@Change.requestRefused cfg s e s (streamItem s.now
        ⟨j, params.text, language, gpt, emb, s.nextQueue, params.params⟩) fresh full kind)).tail
        (.answered rfl (.inl rfl) kind fun _ _ => own rfl rfl)
    · have room : queueFull cfg (makeQueue { s with used := j :: s.used }) = false :=
        (Bool.not_eq_true _).mp full
      simp only [enqueue, room, Bool.false_eq_true, if_false]
      exact .single (@Change.streamQueued cfg s e s
        ⟨j, params.text, language, gpt, emb, s.nextQueue, params.params⟩
        fresh rfl (by simpa using full) kind)

private theorem computeLatents_changes {j : JobId} {wavPath : Path} (fresh : s.canDraw j) :
    Change cfg s (.computeLatents j wavPath) s (computeLatents s j wavPath).1
      (computeLatents s j wavPath).2 := by
  unfold computeLatents
  dsimp only
  split
  · rename_i picked
    exact .cloneRaises fresh picked rfl
  · rename_i w picked
    exact .cloneStart rfl fresh picked

/-! ### The drain loop -/

private theorem drainItem_changes {item : QueuedItem} {rest : List QueuedItem}
    (takes : s₀.takesItem = true) (hand : s.atHand item rest) (same : s.workers = s₀.workers) :
    Change cfg s₀ .resumeDrain s (drainItem { s with queue := rest } item).1
      (drainItem { s with queue := rest } item).2 := by
  unfold drainItem
  dsimp only
  split_ifs with busy
  · exact .drainWaits hand busy rfl
  · unfold drainDispatch
    dsimp only
    split
    · rename_i picked
      exact .drainRaises hand picked rfl
    · rename_i w picked
      exact .drainDispatches rfl takes hand same (by simpa using busy) picked

/-- The loop does not look at its own program point. -/
private theorem drainTop_at (s : State) (pc : DrainPc) :
    drainTop { s with drain := pc } = drainTop s := rfl

private theorem drainTop_changes (loop : s.drain = .getting) (same : s.workers = s₀.workers)
    (takes : s.queue ≠ [] → s₀.takesItem = true) :
    Chain (Change cfg s₀ .resumeDrain) s (drainTop s).2 (drainTop s).1 := by
  cases waiting : s.queue with
  | nil =>
    have idle : drainTop s = (s, []) := by
      unfold drainTop
      split
      · rw [← loop]
      · simp_all
    rw [idle]
    exact .refl
  | cons item rest =>
    have next : drainTop s = drainItem { s with queue := rest } item := by rw [drainTop, waiting]
    rw [next]
    exact .single (drainItem_changes (takes (by simp [waiting])) (.inl ⟨loop, waiting⟩) same)

private theorem effect_eq {effect : Effect} (h : some effect = some (s', o)) :
    effect.1 = s' ∧ effect.2 = o := by
  cases h
  exact ⟨rfl, rfl⟩

private theorem resumeDrain_changes (h : resumeDrain s = some (s', o)) :
    Chain (Change cfg s .resumeDrain) s o s' := by
  unfold resumeDrain at h
  split at h
  · rename_i loop
    split_ifs at h
    obtain ⟨rfl, rfl⟩ := effect_eq h
    exact drainTop_changes loop rfl fun some_queued => by simp [State.takesItem, loop, some_queued]
  · rename_i item loop
    obtain ⟨rfl, rfl⟩ := effect_eq h
    exact .single (drainItem_changes (by simp [State.takesItem, loop]) (.inr ⟨loop, rfl⟩) rfl)
  · rename_i item w loop
    obtain ⟨rfl, rfl⟩ := effect_eq h
    have top : drainTop (handOver s item w) =
        drainTop { s with drain := .getting, tasks := (handOver s item w).tasks } := by
      rw [handOver_frame, ← drainTop_at _ .getting]
    rw [top]
    exact Chain.head (Change.handedOver loop rfl) (drainTop_changes rfl rfl
      fun some_queued => by simpa [State.takesItem, loop] using some_queued)
  · cases h

/-! ### The owners of dispatched requests -/

theorem releaseSlot_releases (s : State) (w : WorkerRef) (ms : ℚ) (j : JobId) :
    ∃ workers drain i, s.releases w ms j workers drain i := by
  unfold State.releases releaseSlot
  split
  · exact ⟨s.workers, s.drain, none, rfl⟩
  · rename_i handle _
    split_ifs
    · exact ⟨s.workers, s.drain, none, rfl⟩
    · refine ⟨_, _, releaseTarget s.workers handle.workerId, Prod.ext rfl ?_⟩
      cases releaseTarget s.workers handle.workerId <;> rfl

theorem State.releases.eq {w : WorkerRef} {ms : ℚ} {j : JobId} {workers : List WorkerHandle}
    {drain : DrainPc} {i : Option WorkerRef} (h : s.releases w ms j workers drain i) :
    releaseSlot s w ms j = ({ s with workers, drain }, i.toList.map (.released j)) := h

theorem onComplete_frame (s : State) (cb : OnComplete) (w : WorkerRef)
    (result : SynthesisResult) (ms : ℚ) :
    ∃ jobs resultFutures next, ∃ statuses : List JobStatus, onComplete s cb w result ms =
      (({ s with jobs, resultFutures }, statuses.map (.marked cb.jobId)), next) := by
  cases cb with
  | bridge j => exact ⟨s.jobs, _, .ended, [], rfl⟩
  | store j fmt dir =>
    have running : ∃ jobs, ∃ statuses : List JobStatus, markRunning s j w ms =
        ({ s with jobs }, statuses.map (.marked j)) := by
      unfold markRunning
      split
      · exact ⟨s.jobs, [], rfl⟩
      · split_ifs
        · exact ⟨_, [.running], rfl⟩
        · exact ⟨_, [], rfl⟩
    obtain ⟨jobs, statuses, marked⟩ := running
    simp only [onComplete, marked, markFailed]
    split
    · split_ifs
      · refine ⟨_, s.resultFutures, .ended, statuses ++ [.failed], Prod.ext (Prod.ext rfl ?_) rfl⟩
        simp [OnComplete.jobId]
      · refine ⟨_, s.resultFutures, .ended, statuses, Prod.ext (Prod.ext rfl ?_) rfl⟩
        simp [OnComplete.jobId]
      · exact ⟨_, _, _, statuses, rfl⟩
    · exact ⟨_, _, _, statuses, rfl⟩

private theorem leaveStream_changes {j : JobId} {r : Request} {w : WorkerRef} {pc next : StreamPc}
    {frame : Option Frame} (task : s.tasks j = some (.stream r pc))
    (left : Leave j e w pc next frame) (h : leaveStream s j r w next = (s', o)) :
    Change cfg s e s s' (frame.toList.map (.frame j) ++ o) := by
  obtain ⟨workers, drain, i, slot⟩ := releaseSlot_releases s w 0 j
  unfold leaveStream at h
  rw [slot.eq] at h
  obtain ⟨rfl, rfl⟩ := Prod.mk.inj h
  exact .leave task left slot

private theorem resumeCollector_changes {j : JobId} {w : WorkerRef} {r : Request}
    {cb : OnComplete} {t : ℚ} {pc : CollectPc}
    (task : s.tasks j = some (.collector w r cb t pc))
    (h : resumeCollector cfg s j w r cb t pc = some (s', o)) :
    Change cfg s (.resume j) s s' o := by
  unfold resumeCollector at h
  dsimp only at h
  split at h
  · obtain ⟨rfl, rfl⟩ := Prod.mk.inj (Option.some.inj h)
    exact .move task .collectorStart
  · split at h
    · cases h
    · rename_i t0 outcome _ result value
      obtain ⟨workers, drain, i, slot⟩ := releaseSlot_releases s w ((s.now - t0) * 1000) r.jobId
      obtain ⟨jobs, resultFutures, next, statuses, call⟩ :=
        onComplete_frame { s with workers, drain } cb w result ((s.now - t0) * 1000)
      rw [slot.eq] at h
      dsimp only at h
      rw [call] at h
      obtain ⟨rfl, rfl⟩ := Prod.mk.inj (Option.some.inj h)
      exact .collected rfl task value slot call
  · split at h
    · obtain ⟨rfl, rfl⟩ := Prod.mk.inj (Option.some.inj h)
      exact .saved task rfl
    · cases h
  · obtain ⟨rfl, rfl⟩ := Prod.mk.inj (Option.some.inj h)
    exact .move task .collectorRaised
  · cases h

private theorem resumeStream_changes {j : JobId} {r : Request} {pc : StreamPc}
    (task : s.tasks j = some (.stream r pc)) (h : resumeStream cfg s j r pc = some (s', o)) :
    Change cfg s (.resume j) s s' o := by
  unfold resumeStream at h
  dsimp only at h
  split at h
  · obtain ⟨rfl, rfl⟩ := Prod.mk.inj (Option.some.inj h)
    exact .move task .streamAssigned
  · obtain ⟨rfl, rfl⟩ := Prod.mk.inj (Option.some.inj h)
    exact .move task .streamChunk
  · split at h
    · rename_i told
      split_ifs at h with empty
      · obtain ⟨rfl, rfl⟩ := Prod.mk.inj (Option.some.inj h)
        exact .move task .streamFailed
      · obtain ⟨rfl, rfl⟩ := Prod.mk.inj (Option.some.inj h)
        exact .move task (.streamDone (.inr (by simpa [told] using empty)))
    · rename_i told
      obtain ⟨rfl, rfl⟩ := Prod.mk.inj (Option.some.inj h)
      exact .move task (.streamDone (.inl told))
  · rename_i chunk ended
    obtain ⟨rfl, rfl⟩ := Prod.mk.inj (Option.some.inj h)
    exact .move task (.streamOther (fun x same => ended x (by rw [same]))
      fun c same => chunk c (by rw [same]))
  · obtain ⟨rfl, rfl⟩ := Prod.mk.inj (Option.some.inj h)
    exact .move task .streamTimedOut
  · exact leaveStream_changes task .raised (Option.some.inj h)
  · cases h

private theorem resumeClone_changes {j : JobId} {w : WorkerRef} {r : Request} {pc : ClonePc}
    (task : s.tasks j = some (.clone w r pc)) (h : resumeClone s j w r pc = some (s', o)) :
    Change cfg s (.resume j) s s' o := by
  unfold resumeClone at h
  split at h
  · obtain ⟨rfl, rfl⟩ := Prod.mk.inj (Option.some.inj h)
    exact .move task .cloneReady
  · obtain ⟨workers, drain, i, slot⟩ := releaseSlot_releases s w 0 j
    rw [slot.eq] at h
    obtain ⟨rfl, rfl⟩ := Prod.mk.inj (Option.some.inj h)
    exact .cloneDone rfl task slot
  · cases h

private theorem resume_changes {j : JobId} (h : resume cfg s j = some (s', o)) :
    Change cfg s (.resume j) s s' o := by
  unfold resume at h
  split at h
  · rename_i task
    exact resumeCollector_changes task h
  · rename_i task
    exact resumeStream_changes task h
  · rename_i task
    exact resumeClone_changes task h
  · cases h

private theorem sent_changes {j : JobId} (h : sent s j = some (s', o)) :
    Change cfg s (.sent j) s s' o := by
  unfold sent at h
  split at h
  · rename_i task
    obtain ⟨rfl, rfl⟩ := Prod.mk.inj (Option.some.inj h)
    exact .move task .streamSent
  · rename_i r w how task
    obtain ⟨rfl, rfl⟩ := Prod.mk.inj (Option.some.inj h)
    exact leaveStream_changes task .closed rfl
  · rename_i task
    obtain ⟨rfl, rfl⟩ := Prod.mk.inj (Option.some.inj h)
    exact .move task (.streamReported (.inr rfl) (.inl rfl) (by simp))
  · cases h

private theorem sendFails_changes {j : JobId} {d : Bool} (h : sendFails s j d = some (s', o)) :
    Change cfg s (.sendFails j d) s s' o := by
  have after : (if d then StreamPc.ended else .reporting) = .ended ∨
      (if d then StreamPc.ended else .reporting) = .reporting := by cases d <;> simp
  unfold sendFails at h
  dsimp only at h
  split at h
  · rename_i task
    exact leaveStream_changes task (.sendFails after) (Option.some.inj h)
  · rename_i task
    exact leaveStream_changes task (.closeFails after) (Option.some.inj h)
  · rename_i task
    exact leaveStream_changes task (.closeFails (.inl rfl)) (Option.some.inj h)
  · rename_i task
    obtain ⟨rfl, rfl⟩ := Prod.mk.inj (Option.some.inj h)
    exact .move task (.streamReported (.inl rfl) (.inr (.inl ⟨d, rfl⟩)) (by simp))
  · cases h

private theorem cancelStream_changes {j : JobId} (h : cancelStream s j = some (s', o)) :
    Change cfg s (.cancelStream j) s s' o := by
  unfold cancelStream at h
  split at h
  · rename_i task
    obtain ⟨rfl, rfl⟩ := Prod.mk.inj (Option.some.inj h)
    exact .cancelAwaiting rfl task
  · rename_i task
    obtain ⟨rfl, rfl⟩ := Prod.mk.inj (Option.some.inj h)
    exact .cancelAssigned rfl task
  · rename_i task
    exact leaveStream_changes task .cancelGetting (Option.some.inj h)
  · rename_i task
    exact leaveStream_changes task .cancelGot (Option.some.inj h)
  · rename_i task
    exact leaveStream_changes task .cancelSending (Option.some.inj h)
  · rename_i task
    exact leaveStream_changes task .cancelClosing (Option.some.inj h)
  · rename_i task
    obtain ⟨rfl, rfl⟩ := Prod.mk.inj (Option.some.inj h)
    exact .move task (.streamReported (.inl rfl) (.inr (.inr rfl)) (by simp))
  · cases h

/-! ### Executor threads, worker processes and downloads -/

private theorem getReply_changes {j : JobId} (h : getReply s j = some (s', o)) :
    Change cfg s (.getReply j) s s' o := by
  unfold getReply at h
  split at h
  · rename_i t task
    split_ifs at h with blocked
    obtain ⟨t0, blocked⟩ := Option.isSome_iff_exists.mp blocked
    split at h
    · cases h
    · rename_i head
      obtain ⟨rfl, rfl⟩ := Prod.mk.inj (Option.some.inj h)
      exact .getReply task blocked head rfl
  · cases h

private theorem getTimeout_changes {j : JobId} (h : getTimeout cfg s j = some (s', o)) :
    Change cfg s (.getTimeout j) s s' o := by
  unfold getTimeout at h
  split at h
  · rename_i t task
    split at h
    · rename_i t0 blocked
      split_ifs at h
      obtain ⟨rfl, rfl⟩ := Prod.mk.inj (Option.some.inj h)
      exact .move task (.timeout blocked)
    · cases h
  · cases h

private theorem getError_changes {j : JobId} {text : String}
    (h : getError s j text = some (s', o)) :
    Change cfg s (.getError j text) s s' o := by
  unfold getError at h
  split at h
  · rename_i t task
    split_ifs at h with blocked
    obtain ⟨t0, blocked⟩ := Option.isSome_iff_exists.mp blocked
    obtain ⟨rfl, rfl⟩ := Prod.mk.inj (Option.some.inj h)
    exact .move task (.error blocked)
  · cases h

private theorem saveOpen_changes {j : JobId} (h : saveOpen s j = some (s', o)) :
    Change cfg s (.saveOpen j) s s' o := by
  unfold saveOpen at h
  split at h
  · rename_i task
    split_ifs at h with encoded
    obtain ⟨audio, encoded⟩ := Option.isSome_iff_exists.mp encoded
    obtain ⟨rfl, rfl⟩ := Prod.mk.inj (Option.some.inj h)
    exact .saveOpen task encoded rfl
  · cases h

private theorem saveWrite_changes {j : JobId} (h : saveWrite s j = some (s', o)) :
    Change cfg s (.saveWrite j) s s' o := by
  unfold saveWrite at h
  split at h
  · rename_i task
    split at h
    · rename_i audio encoded
      obtain ⟨rfl, rfl⟩ := Prod.mk.inj (Option.some.inj h)
      exact .saveWrite task encoded rfl
    · cases h
  · cases h

private theorem audioAnswer_ok {j : JobId} {path : Path}
    (answer : audioAnswer s.files j (s.jobs.get? j) = .ok path) : s.audio? j = some path := by
  rw [State.audio?]
  cases found : s.jobs.get? j with
  | none => simp [audioAnswer, found] at answer
  | some job =>
    simp only [audioAnswer, found] at answer
    split_ifs at answer with _ _ set
    obtain rfl := Except.ok.inj answer
    rw [Option.bind_some]
    cases path : job.audioPath with
    | none => simp [path, orDefault] at set
    | some p =>
      rw [path, orDefault] at set
      split_ifs at set with empty
      · exact absurd rfl set
      · simp [orDefault, empty]

private theorem getAudio_changes {j : JobId} (h : some (getAudio s j) = some (s', o)) :
    Change cfg s (.getAudio j) s s' o := by
  obtain ⟨rfl, rfl⟩ := Prod.mk.inj (Option.some.inj h)
  refine .getAudio rfl rfl ?_
  cases answer : audioAnswer s.files j (s.jobs.get? j) with
  | error exc => exact .inl ⟨rfl, exc, rfl⟩
  | ok path => exact .inr ⟨path, audioAnswer_ok answer, rfl, rfl⟩

private theorem openFile_changes {g : Nat} (h : openFile s g = some (s', o)) :
    Change cfg s (.openFile g) s s' o := by
  unfold openFile at h
  split at h
  · rename_i download
    split_ifs at h with present
    · obtain ⟨rfl, rfl⟩ := Prod.mk.inj (Option.some.inj h)
      exact .openFile download present rfl
    · obtain ⟨rfl, rfl⟩ := Prod.mk.inj (Option.some.inj h)
      exact .vanished download (by simpa using present) rfl
  · cases h

private theorem workerTake_changes {w : WorkerRef} (h : workerTake s w = some (s', o)) :
    Change cfg s (.workerTake w) s s' o := by
  unfold workerTake at h
  split at h
  · rename_i idle
    obtain ⟨rfl, rfl⟩ := Prod.mk.inj (Option.some.inj h)
    exact .workerTake idle rfl
  · cases h

private theorem workerChunk_changes {w : WorkerRef} {chunk : Ndarray}
    (h : workerChunk s w chunk = some (s', o)) :
    Change cfg s (.workerChunk w chunk) s s' o := by
  unfold workerChunk at h
  split at h
  · rename_i busy
    obtain ⟨rfl, rfl⟩ := Prod.mk.inj (Option.some.inj h)
    exact .workerChunk rfl busy
  · cases h

private theorem workerReply_changes {w : WorkerRef} {outcome : ModelOutcome}
    (h : workerReply s w outcome = some (s', o)) :
    Change cfg s (.workerReply w outcome) s s' o := by
  unfold workerReply at h
  split at h
  · rename_i busy
    split_ifs at h with traced
    obtain ⟨rfl, rfl⟩ := Prod.mk.inj (Option.some.inj h)
    exact .workerReply rfl busy traced
  · cases h

/-! ### All steps -/

/-- The steps outside of the handlers that submit work and of the drain loop are single changes. -/
theorem step_change (h : step cfg s e = some (s', o)) (handler : e.submits = false)
    (other : e ≠ .resumeDrain) : Change cfg s e s s' o := by
  cases e with
  | submitTts | submitBatch | runSynthesis | streamTts => cases handler
  | resumeDrain => exact absurd rfl other
  | tick dt =>
    simp only [step] at h
    split_ifs at h with forward
    obtain ⟨rfl, rfl⟩ := Prod.mk.inj (Option.some.inj h)
    exact .tick forward rfl
  | computeLatents jobId wavPath =>
    simp only [step] at h
    split_ifs at h with fresh
    obtain ⟨rfl, rfl⟩ := Prod.mk.inj (Option.some.inj h)
    exact computeLatents_changes ((canDraw_of_fresh fresh).2 _ List.mem_cons_self)
  | drainPut =>
    simp only [step, drainPut] at h
    split at h
    · rename_i loop
      obtain ⟨rfl, rfl⟩ := Prod.mk.inj (Option.some.inj h)
      exact .drainPut loop rfl
    · cases h
  | clonePut j =>
    simp only [step, clonePut] at h
    split at h
    · rename_i task
      obtain ⟨rfl, rfl⟩ := Prod.mk.inj (Option.some.inj h)
      exact .clonePut task rfl
    · cases h
  | resume j => exact resume_changes h
  | getReply j => exact getReply_changes h
  | getTimeout j => exact getTimeout_changes h
  | getError j text => exact getError_changes h
  | saveOpen j => exact saveOpen_changes h
  | saveWrite j => exact saveWrite_changes h
  | saveRaise j =>
    simp only [step, saveRaise] at h
    split at h
    · rename_i task
      obtain ⟨rfl, rfl⟩ := Prod.mk.inj (Option.some.inj h)
      exact .move task .saveRaise
    · cases h
  | sent j => exact sent_changes h
  | sendFails j d => exact sendFails_changes h
  | cancelStream j => exact cancelStream_changes h
  | workerTake w => exact workerTake_changes h
  | workerChunk w chunk => exact workerChunk_changes h
  | workerReply w outcome => exact workerReply_changes h
  | getAudio j => exact getAudio_changes h
  | openFile g => exact openFile_changes h
  | deleteAfterSend g fails =>
    simp only [step, deleteAfterSend] at h
    split at h
    · rename_i download
      obtain ⟨rfl, rfl⟩ := Prod.mk.inj (Option.some.inj h)
      exact .deleteAfterSend download rfl
    · cases h
  | evict failures =>
    obtain ⟨rfl, rfl⟩ := Prod.mk.inj (Option.some.inj h)
    exact .evict rfl rfl

/-- Every step is a chain of changes. -/
theorem step_changes (h : step cfg s e = some (s', o)) : Chain (Change cfg s e) s o s' := by
  cases e with
  | submitTts body speakers jobId raises =>
    simp only [step] at h
    split_ifs at h with fresh reached
    cases run : submitTts cfg s body speakers jobId raises with
    | mk effect answer =>
      rw [run] at h
      obtain rfl := Option.some.inj h
      exact submitTts_changes ((canDraw_of_fresh fresh).2 _ List.mem_cons_self) run
  | submitBatch items speakers ids raiseAt =>
    simp only [step] at h
    split_ifs at h with fresh reached
    cases run : submitBatch cfg s items speakers ids raiseAt with
    | mk effect answer =>
      rw [run] at h reached
      obtain rfl := Option.some.inj h
      exact submitBatch_changes fresh.1 fresh.2 (by simpa using reached) run
  | runSynthesis body speakers jobId =>
    simp only [step] at h
    split_ifs at h with fresh
    obtain ⟨rfl, rfl⟩ := Prod.mk.inj (Option.some.inj h)
    exact runSynthesis_changes ((canDraw_of_fresh fresh).2 _ List.mem_cons_self) rfl
  | streamTts params speakers jobId =>
    simp only [step] at h
    split_ifs at h with fresh
    obtain ⟨rfl, rfl⟩ := Prod.mk.inj (Option.some.inj h)
    exact streamTts_changes ((canDraw_of_fresh fresh).2 _ List.mem_cons_self) rfl
  | resumeDrain => exact resumeDrain_changes h
  | _ => exact .single (step_change h rfl (by simp))

/-- The changes that the steps meeting `P` may consist of. -/
def Allowed (cfg : Config) (P : State → Event → Prop) (s s' : State) (o : List Obs) : Prop :=
  ∃ s₀ e, P s₀ e ∧ Change cfg s₀ e s s' o

/-- The states that a run passes through, those between the changes of a step included. -/
abbrev Visit (cfg : Config) (P : State → Event → Prop) (tr : List Obs) (s : State) : Prop :=
  Chain (Allowed cfg P) (State.init cfg) tr s

theorem Visit.next {P : State → Event → Prop} {tr : List Obs} (h : Visit cfg P tr s)
    (meets : P s₀ e) (change : Change cfg s₀ e s s' o) : Visit cfg P (tr ++ o) s' :=
  h.tail ⟨_, _, meets, change⟩

@[elab_as_elim]
theorem visit_induction {cfg : Config} {P : State → Event → Prop}
    {motive : ∀ (tr : List Obs) (s : State), Visit cfg P tr s → Prop} {tr : List Obs} {s : State}
    (h : Visit cfg P tr s) (start : motive [] (State.init cfg) .refl)
    (change : ∀ {s₀ : State} {e : Event} {s s' : State} {tr o : List Obs}
      (before : Visit cfg P tr s), motive tr s before → ∀ (meets : P s₀ e)
      (change : Change cfg s₀ e s s' o), motive (tr ++ o) s' (before.next meets change)) :
    motive tr s h := by
  induction h with
  | refl => exact start
  | tail before allowed ih =>
    obtain ⟨s₀, e, meets, taken⟩ := allowed
    exact change before ih meets taken

theorem chain_of_run {P : State → Event → Prop} {tr : List Obs} (h : Run (server cfg) P s tr s') :
    Chain (Allowed cfg P) s tr s' :=
  h.chain fun _ _ _ _ meets taken =>
    (step_changes taken).mono fun _ _ _ change => ⟨_, _, meets, change⟩

theorem visit_of_reach {P : State → Event → Prop} {tr : List Obs}
    (h : Reach (server cfg) P tr s) : Visit cfg P tr s := chain_of_run h

/-- What the allowed changes that `R` relates keep holds after any chain of them. -/
theorem Visit.keeps_along {P : State → Event → Prop} {R : State → State → List Obs → Prop}
    {I : State → Prop} {tr tr' : List Obs} (h : Visit cfg P tr s) (run : Chain R s tr' s')
    (allowed : ∀ a b o, R a b o → Allowed cfg P a b o) (start : I s)
    (kept : ∀ {tr : List Obs} {a b : State} {o : List Obs},
      Visit cfg P tr a → R a b o → I a → I b) : I s' := by
  induction run with
  | refl => exact start
  | tail before change ih => exact kept (h.trans (before.mono allowed)) change ih

theorem Visit.keeps {P : State → Event → Prop} {I : State → Prop} {tr tr' : List Obs}
    (h : Visit cfg P tr s) (run : Chain (Allowed cfg P) s tr' s') (start : I s)
    (kept : ∀ {tr : List Obs} {s₀ : State} {e : Event} {s s' : State} {o : List Obs},
      Visit cfg P tr s → P s₀ e → Change cfg s₀ e s s' o → I s → I s') : I s' := by
  refine h.keeps_along run (fun _ _ _ => id) start fun visit change now => ?_
  obtain ⟨s₀, e, meets, change⟩ := change
  exact kept visit meets change now

end XttsServer.Model
