import XttsServer.Runs.Traces

/-!
Accepted items move through the queue and the drain loop in order: none is lost,
duplicated or overtaken before its dispatch.
-/

set_option autoImplicit false
set_option relaxedAutoImplicit false

namespace XttsServer.Model

open XttsServer.Foundations.Transition

variable {cfg : Config} {P : State → Event → Prop} {s s' s₀ : State} {e : Event}
  {tr o : List Obs}

private theorem Change.flow (change : Change cfg s₀ e s s' o) :
    s.undispatched ++ accepted o = (drained o).map Prod.fst ++ s'.undispatched := by
  cases change with
  | jobTurnedAway _ _ told => rcases told with rfl | rfl <;> simp [State.undispatched]
  | @answered _ a answer => cases a <;> simp [Obs.isAnswer] at answer ⊢
  | drainWaits hand => rw [hand.undispatched]; simp [State.undispatched, DrainPc.undispatched?]
  | drainRaises hand => rw [hand.undispatched]; simp [State.undispatched, DrainPc.undispatched?]
  | drainDispatches _ _ hand =>
    rw [hand.undispatched]; simp [State.undispatched, DrainPc.undispatched?]
  | drainPut loop => simp [State.undispatched, DrainPc.undispatched?, loop]
  | handedOver loop => simp [State.undispatched, DrainPc.undispatched?, loop]
  | collected _ _ _ slot => simp [State.undispatched, slot.undispatched?, Function.comp_def]
  | leave _ _ slot => simp [State.undispatched, slot.undispatched?, Function.comp_def]
  | cloneDone _ _ slot => simp [State.undispatched, slot.undispatched?, Function.comp_def]
  | _ => simp [State.undispatched, marks_eq_map, Function.comp_def]

/-- What was accepted is what was dispatched, what the drain loop holds, and the queue. -/
theorem flow (h : Visit cfg P tr s) :
    accepted tr = (drained tr).map Prod.fst ++ s.undispatched := by
  induction h using visit_induction with
  | start => rfl
  | change _ ih _ change =>
    simp only [accepted, drained, List.filterMap_append, List.map_append] at ih ⊢
    rw [ih, List.append_assoc, change.flow, List.append_assoc]

theorem undispatched_accepted (h : Visit cfg P tr s) {item : QueuedItem}
    (member : item ∈ s.undispatched) : item ∈ accepted tr := by
  rw [flow h]
  exact List.mem_append_right _ member

/-! ### The two kinds of items -/

/-- Jobs carry a callback and streams a future, each named after its own request. -/
inductive QueuedItem.Proper (cfg : Config) : QueuedItem → Prop
  | job {now : ℚ} {r : SynthesisRequest} {cb : OnComplete}
      (own : cb = .bridge r.jobId ∨ ∃ fmt, cb = .store r.jobId fmt cfg.settings.outputsDir) :
      Proper cfg (jobItem now r cb)
  | stream {now : ℚ} {r : StreamSynthesisRequest} : Proper cfg (streamItem now r)

private theorem Change.accepts (change : Change cfg s₀ e s s' o) {item : QueuedItem}
    (member : item ∈ accepted o) : item.Proper cfg := by
  cases change with
  | jobQueued =>
    obtain rfl : item = _ := by simpa using member
    exact .job (.inr ⟨_, rfl⟩)
  | bridgeQueued =>
    obtain rfl : item = _ := by simpa using member
    exact .job (.inl rfl)
  | streamQueued =>
    obtain rfl : item = _ := by simpa using member
    exact .stream
  | jobTurnedAway _ _ told => rcases told with rfl | rfl <;> simp at member
  | @answered _ a answer => cases a <;> simp [Obs.isAnswer] at answer member
  | _ => simp [marks_eq_map, Function.comp_def] at member

theorem proper_of_accepted (h : Visit cfg P tr s) {item : QueuedItem}
    (member : item ∈ accepted tr) : item.Proper cfg := by
  induction h using visit_induction with
  | start => cases member
  | change _ ih _ change =>
    rw [accepted, List.filterMap_append] at member
    rcases List.mem_append.mp member with old | new
    · exact ih old
    · exact change.accepts new

/-! ### Fresh names -/

theorem Change.grows (change : Change cfg s₀ e s s' o) :
    s.used ⊆ s'.used ∧ s.nextQueue ≤ s'.nextQueue := by
  cases change <;> simp

theorem Change.registers (proper : ∀ item ∈ s.undispatched, item.Proper cfg)
    (change : Change cfg s₀ e s s' o) :
    requests o = [] ∨ ∃ r, requests o = [r] ∧ r.jobId ∉ s.used ∧ r.jobId ∈ s'.used ∧
      r.resultQueue = s.nextQueue ∧ s'.nextQueue = s.nextQueue + 1 := by
  cases change with
  | @jobQueued s r j fresh =>
    exact .inr ⟨.synthesis (r.toRequest j s.nextQueue), by simp [storeItem, jobItem], fresh.2,
      List.mem_cons_self, rfl, rfl⟩
  | @bridgeQueued s r j fresh =>
    exact .inr ⟨.synthesis (r.toRequest j s.nextQueue), by simp [jobItem], fresh.2,
      List.mem_cons_self, rfl, rfl⟩
  | @streamQueued s request fresh queue =>
    exact .inr ⟨.stream request, by simp [streamItem], fresh.2, List.mem_cons_self, queue, rfl⟩
  | @cloneStart j wavPath w _ fresh =>
    exact .inr ⟨.computeLatents ⟨j, wavPath, _⟩, by simp, fresh.2, List.mem_cons_self, rfl, rfl⟩
  | jobTurnedAway _ _ told => rcases told with rfl | rfl <;> simp
  | @answered _ a answer => cases a <;> simp [Obs.isAnswer] at answer ⊢
  | @drainDispatches s item rest w _ _ hand =>
    have kind : item.Proper cfg := proper item (hand.undispatched ▸ List.mem_cons_self)
    cases kind <;> exact .inl rfl
  | _ => simp [marks_eq_map, Function.comp_def]

/-- Requests are told apart by their ids, and by their result queues. -/
structure Registered (known : List Request) (s : State) : Prop where
  ids : (known.map Request.jobId).Nodup
  queues : (known.map Request.resultQueue).Nodup
  drawn : ∀ r ∈ known, r.jobId ∈ s.used
  made : ∀ r ∈ known, r.resultQueue < s.nextQueue

theorem undispatched_proper (h : Visit cfg P tr s) {item : QueuedItem}
    (member : item ∈ s.undispatched) : item.Proper cfg :=
  proper_of_accepted h (undispatched_accepted h member)

private theorem nodup_concat {α β : Type} {f : α → β} {l : List α} {a : α}
    (nodup : (l.map f).Nodup) (new : ∀ b ∈ l, f b ≠ f a) : ((l ++ [a]).map f).Nodup := by
  rw [List.map_append, List.nodup_append]
  refine ⟨nodup, List.nodup_singleton _, ?_⟩
  rintro x hx y hy rfl
  obtain ⟨b, hb, rfl⟩ := List.mem_map.mp hx
  exact new b hb (List.mem_singleton.mp hy)

theorem registered (h : Visit cfg P tr s) : Registered (requests tr) s := by
  induction h using visit_induction with
  | start => exact ⟨List.nodup_nil, List.nodup_nil, by simp, by simp⟩
  | @change s₀ e s s' tr o before ih meets change =>
    obtain ⟨used, queue⟩ := change.grows
    have split : requests (tr ++ o) = requests tr ++ requests o := List.filterMap_append
    rcases change.registers (fun item => undispatched_proper before) with
      none | ⟨r, one, new, drawn, at_next, next⟩
    · rw [split, none, List.append_nil]
      exact ⟨ih.ids, ih.queues, fun r hr => used (ih.drawn r hr),
        fun r hr => lt_of_lt_of_le (ih.made r hr) queue⟩
    · rw [split, one]
      refine ⟨nodup_concat ih.ids ?_, nodup_concat ih.queues ?_, ?_, ?_⟩
      · exact fun b hb same => new (same ▸ ih.drawn b hb)
      · intro b hb same
        exact absurd (same.trans at_next) (Nat.ne_of_lt (ih.made b hb))
      · intro b hb
        rcases List.mem_append.mp hb with old | last
        · exact used (ih.drawn b old)
        · exact List.mem_singleton.mp last ▸ drawn
      · intro b hb
        rcases List.mem_append.mp hb with old | last
        · exact lt_of_lt_of_le (ih.made b old) queue
        · rw [List.mem_singleton.mp last, at_next, next]
          exact Nat.lt_succ_self _

theorem request_of_id (h : Visit cfg P tr s) {r r' : Request} (known : r ∈ requests tr)
    (known' : r' ∈ requests tr) (same : r.jobId = r'.jobId) : r = r' :=
  List.inj_on_of_nodup_map (registered h).ids known known' same

theorem request_of_queue (h : Visit cfg P tr s) {r r' : Request} (known : r ∈ requests tr)
    (known' : r' ∈ requests tr) (same : r.resultQueue = r'.resultQueue) : r = r' :=
  List.inj_on_of_nodup_map (registered h).queues known known' same

end XttsServer.Model
