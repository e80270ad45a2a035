import WalletPage.Proofs.PolledRuns

/-! What binders remember of the history. The mark of the anchor and the latch of the transition
form belong to the view, not to a task: they tell whether the anchor was ever found, and whether
a cycle has ever completed the view, under whichever task. So a restarted task that does not find
the anchor gives up in its first cycle if an earlier one had found it. -/

namespace WalletPage

variable {ρ σ : Type}

@[simp] theorem wasFound_concat (events : List PollEvent) (e : PollEvent) (v : View) :
    wasFound (events ++ [e]) v = (wasFound events v || (decide (e.view = v) && e.isFinding)) := by
  simp [wasFound]

@[simp] theorem wasCompleted_concat (events : List PollEvent) (e : PollEvent) (v : View) :
    wasCompleted (events ++ [e]) v =
      (wasCompleted events v || (decide (e.view = v) && e.isCompletion)) := by
  simp [wasCompleted]

/-- Whether binders, one for each view, remember what has happened to their views. -/
structure Recall (bs : List (Binder (Watcher ρ))) (events : List PollEvent) : Prop where
  distinct : (bs.map (·.view)).Nodup
  known : ∀ e ∈ events, ∃ b ∈ bs, b.view = e.view
  seen : ∀ b ∈ bs, b.anchorSeen = wasFound events b.view
  transitioned : ∀ b ∈ bs, b.transitioned = wasCompleted events b.view

namespace Recall

variable {bs : List (Binder (Watcher ρ))} {events : List PollEvent} {e : PollEvent}
  {b b' : Binder (Watcher ρ)} {i : BinderId}

theorem nil : Recall ([] : List (Binder (Watcher ρ))) [] :=
  ⟨List.nodup_nil, List.forall_mem_nil _, List.forall_mem_nil _, List.forall_mem_nil _⟩

/-- Nothing has happened yet to a view without a binder. -/
theorem unheard (h : Recall bs events) {v : View} (hv : ∀ b ∈ bs, b.view ≠ v)
    (p : PollEvent → Bool) : (events.any fun e => decide (e.view = v) && p e) = false := by
  rw [List.any_eq_false]
  intro e he
  obtain ⟨b, hb, hbe⟩ := h.known e he
  have hev : e.view ≠ v := fun hev => hv b hb (hbe.trans hev)
  simp [hev]

/-- A new binder, of a view that had none. -/
theorem concat (h : Recall bs events) (hnew : ∀ c ∈ bs, c.view ≠ b.view)
    (hview : e.view = b.view) (hseen : b.anchorSeen = e.isFinding)
    (htransitioned : b.transitioned = e.isCompletion) : Recall (bs ++ [b]) (events ++ [e]) := by
  have hfound := h.unheard hnew PollEvent.isFinding
  have hcompleted := h.unheard hnew PollEvent.isCompletion
  refine ⟨?_, fun e' he' => ?_, fun c hc => ?_, fun c hc => ?_⟩
  · rw [List.map_append, List.nodup_append]
    refine ⟨h.distinct, by simp, fun v hv w hw => ?_⟩
    obtain ⟨c, hc, rfl⟩ := List.mem_map.mp hv
    rw [List.mem_singleton.mp hw]
    exact hnew c hc
  · rcases List.mem_append.mp he' with he' | he'
    · obtain ⟨c, hc, hce⟩ := h.known e' he'
      exact ⟨c, List.mem_append_left _ hc, hce⟩
    · rw [List.mem_singleton.mp he']
      exact ⟨b, List.mem_append_right _ List.mem_cons_self, hview.symm⟩
  · rw [wasFound_concat]
    rcases List.mem_append.mp hc with hc | hc
    · simp [h.seen c hc, hview, (hnew c hc).symm]
    · rw [List.mem_singleton.mp hc, hseen, wasFound, hfound]
      simp [hview]
  · rw [wasCompleted_concat]
    rcases List.mem_append.mp hc with hc | hc
    · simp [h.transitioned c hc, hview, (hnew c hc).symm]
    · rw [List.mem_singleton.mp hc, htransitioned, wasCompleted, hcompleted]
      simp [hview]

/-- A binder that has taken note of an event of its view. -/
theorem set (h : Recall bs events) (hb : bs[i]? = some b) (hview : b'.view = b.view)
    (hevent : e.view = b.view) (hseen : b'.anchorSeen = (b.anchorSeen || e.isFinding))
    (htransitioned : b'.transitioned = (b.transitioned || e.isCompletion)) :
    Recall (bs.set i b') (events ++ [e]) := by
  have hmem : b ∈ bs := List.mem_of_getElem? hb
  have hat : (bs.map (·.view))[i]? = some b.view := by
    rw [List.getElem?_map, hb, Option.map_some]
  obtain ⟨hi, hvi⟩ := List.getElem?_eq_some_iff.mp hat
  have hsame : (bs.set i b').map (·.view) = bs.map (·.view) := by
    rw [List.map_set, hview, ← hvi, List.set_getElem_self]
  -- Another binder is one of another view.
  have hother : ∀ c ∈ bs.set i b', c = b' ∨ c ∈ bs ∧ c.view ≠ b.view := by
    intro c hc
    obtain ⟨j, hj⟩ := List.mem_iff_getElem?.mp hc
    rw [List.getElem?_set] at hj
    split at hj
    · split at hj
      · exact .inl (Option.some.inj hj).symm
      · contradiction
    · rename_i hij
      refine .inr ⟨List.mem_of_getElem? hj, fun hcb => hij ?_⟩
      apply (List.getElem?_inj hi h.distinct).mp
      rw [hat, List.getElem?_map, hj, Option.map_some, hcb]
  refine ⟨hsame ▸ h.distinct, fun e' he' => ?_, fun c hc => ?_, fun c hc => ?_⟩
  · have hviews : e'.view ∈ bs.map (·.view) := by
      rcases List.mem_append.mp he' with he' | he'
      · obtain ⟨c, hc, hce⟩ := h.known e' he'
        exact List.mem_map.mpr ⟨c, hc, hce⟩
      · rw [List.mem_singleton.mp he', hevent]
        exact List.mem_map_of_mem hmem
    rw [← hsame] at hviews
    exact List.mem_map.mp hviews
  · rw [wasFound_concat]
    rcases hother c hc with rfl | ⟨hc, hcb⟩
    · simp [hseen, hview, hevent, h.seen b hmem]
    · simp [h.seen c hc, hevent, hcb.symm]
  · rw [wasCompleted_concat]
    rcases hother c hc with rfl | ⟨hc, hcb⟩
    · simp [htransitioned, hview, hevent, h.transitioned b hmem]
    · simp [h.transitioned c hc, hevent, hcb.symm]

end Recall

/-- The end of a cycle leaves the mark of the anchor alone, and takes note of a completion. -/
theorem Binder.Closes.marks {policy : Policy} {task : TaskId} {b b' : Binder (Watcher ρ)}
    {c : Closing} {calls : List Call} (h : b.Closes policy task c calls b') :
    c.view = b.view ∧ b'.anchorSeen = b.anchorSeen ∧
      b'.transitioned = (b.transitioned || c.completes) := by
  cases h with
  | givesUp => exact ⟨rfl, rfl, (Bool.or_false _).symm⟩
  | concludes hconcludes =>
    cases hconcludes with
    | failed => exact ⟨rfl, rfl, (Bool.or_false _).symm⟩
    | empty => exact ⟨rfl, rfl, (Bool.or_false _).symm⟩
    | foreign hs => simp [Closing.completes, hs]
    | refused hs hrefused _ => simp [Closing.completes, hrefused]
    | shown changed hs htaken _ => simp [Closing.completes, hs, htaken, Binder.showing]

namespace Stock

variable {policy : Policy} {bs bs' : List (Binder (Watcher ρ))} {events : List PollEvent}
  {e : PollEvent} {calls : List Call}

/-- What happens is remembered. -/
theorem Polls.recall (h : Polls policy bs e calls bs') (hr : Recall bs events) :
    Recall bs' (events ++ [e]) := by
  cases h with
  | made hnew hseen hfirst _ => exact hr.concat hnew rfl hseen hfirst
  | @misses i b hb task =>
    have hset := hr.set (e := .looked task b.view false) hb rfl rfl (Bool.or_false _).symm
      (Bool.or_false _).symm
    obtain ⟨hi, hbi⟩ := List.getElem?_eq_some_iff.mp hb
    rwa [← hbi, List.set_getElem_self, hbi] at hset
  | asks hb task hopens =>
    obtain ⟨shown, rfl⟩ := hopens.binder
    exact hr.set hb rfl rfl (Bool.or_true _).symm (Bool.or_false _).symm
  | closes hb hcloses =>
    obtain ⟨hview, hseen, htransitioned⟩ := hcloses.marks
    exact hr.set hb hcloses.kin.view hview (by rw [hseen]; exact (Bool.or_false _).symm)
      htransitioned

theorem Passes.recall {t : Stock ρ} (h : Passes policy ⟨[], calls⟩ events t) :
    Recall t.binders events := by
  induction h with
  | refl => exact .nil
  | quiet _ _ ih => exact ih
  | event _ hpolls ih => exact hpolls.recall ih

/-- A cycle is closed by the binder of its view, which remembers the events before. -/
theorem Passes.closing {t : Stock ρ} {before after : List PollEvent} {c : Closing}
    (h : Passes policy ⟨[], calls⟩ (before ++ .closed c :: after) t) :
    ∃ (b b' : Binder (Watcher ρ)) (new : List Call), b.Closes policy c.task c new b' ∧
      b.anchorSeen = wasFound before c.view ∧ b.transitioned = wasCompleted before c.view ∧
      ∀ call ∈ new, call ∈ t.calls := by
  obtain ⟨m, new, bs, hbefore, hpolls, hafter⟩ := h.split
  have hr := hbefore.recall
  cases hpolls with
  | @closes i b b' task _ _ hb hcloses =>
    have hmem := List.mem_of_getElem? hb
    rw [hcloses.marks.1]
    refine ⟨b, b', new, hcloses.task_eq ▸ hcloses, hr.seen b hmem, hr.transitioned b hmem, ?_⟩
    exact fun call hcall => hafter.calls_prefix.subset (List.mem_append_right _ hcall)

end Stock

/-- A task makes the calls of the cycle, and then it may sleep. -/
theorem Binder.Closes.calls_eq {policy : Policy} {task : TaskId} {b b' : Binder (Watcher ρ)}
    {c : Closing} {calls : List Call} (h : b.Closes policy task c calls b') :
    calls = c.calls ++ c.next.calls := by
  cases h <;> rfl

/-- A cycle in the history of a service was closed by a binder that remembers the events before.
If it was to be the last one, its task has ended, and otherwise the task has slept. -/
theorem Run.closed_in_history [Host ρ σ] {world : σ} {session : SessionId} {config : Config}
    {access : ρ} {acts : List (Act σ)} {before after : List PollEvent} {c : Closing}
    (hhistory : historyUnderWatch world session config access acts =
      before ++ .closed c :: after) :
    ∃ (b b' : Binder (Watcher ρ)) (calls : List Call),
      b.Closes config.policy c.task c calls b' ∧ b.anchorSeen = wasFound before c.view ∧
      b.transitioned = wasCompleted before c.view ∧
      (c.next = .stop →
        ((opened world session config access).after acts).executor.hasEnded c.task = true) ∧
      ∀ delay, c.next = .after delay →
        .slept delay ∈ (underWatch world session config access acts).world.calls := by
  have hgoes := underWatch_goes world session config access acts
  rw [hhistory] at hgoes
  obtain ⟨b, b', calls, hcloses, hseen, htransitioned, hcalls⟩ := hgoes.passes.closing
  refine ⟨b, b', calls, hcloses, hseen, htransitioned, fun hstop => ?_, fun delay hnext => ?_⟩
  · have hended := hgoes.stops c (List.mem_append_right _ List.mem_cons_self) hstop
    rw [← underWatch_unwatched]
    exact (Executor.hasEnded_map _ _ c.task).trans hended
  · refine hcalls _ ?_
    rw [hcloses.calls_eq, hnext]
    exact List.mem_append_right _ List.mem_cons_self

/-- A task that goes on sleeps for as long as its policy says. -/
theorem Next.eq_after {next : Next} {p : Prop} [Decidable p] {delay : Millis}
    (h : next = if p then .stop else .after delay) (hgoesOn : next ≠ .stop) :
    next = .after delay := by
  by_cases hp : p
  · rw [if_pos hp] at h
    exact absurd h hgoesOn
  · rwa [if_neg hp] at h

/-! ### Cycles without an anchor -/

/-- An answer never counts as a missing anchor. -/
theorem Binder.Concludes.ne_anchorAbsent {b b' : Binder (Watcher ρ)}
    {answer : Fallible (Option Snapshot)} {outcome : Outcome} {calls : List Call}
    (h : b.Concludes answer b' outcome calls) : outcome ≠ .anchorAbsent := by
  cases h with
  | shown changed =>
    unfold shownOutcome
    split
    · decide
    · cases changed <;> decide
  | _ => decide

/-- What comes after a cycle without an anchor depends on the mark of the binder. -/
theorem Binder.Closes.next_of_anchorAbsent {policy : Policy} {task : TaskId}
    {b b' : Binder (Watcher ρ)} {c : Closing} {calls : List Call}
    (h : b.Closes policy task c calls b') (habsent : c.outcome = .anchorAbsent) :
    c.next = if b.anchorSeen && policy.stopWhenAnchorRemoved then .stop
      else .after policy.mountRetry := by
  cases h with
  | givesUp hnext => exact hnext
  | concludes hconcludes => exact absurd habsent hconcludes.ne_anchorAbsent

/-- However a service is used, a cycle that does not find its anchor ends its task if and only
if stopping is wanted and the anchor of the view was found before, whether by the same task or
by an earlier one, or when the view was painted from the cache. Otherwise the task sleeps for
the delay of a missing anchor, and goes on. -/
theorem stops_anchorAbsent_iff [Host ρ σ] (world : σ) (session : SessionId) (config : Config)
    (access : ρ) (acts : List (Act σ)) (before after : List PollEvent) (c : Closing)
    (hhistory : Run.historyUnderWatch world session config access acts =
      before ++ .closed c :: after)
    (habsent : c.outcome = .anchorAbsent) :
    (Run.underWatch world session config access acts).unwatched =
        (Run.opened world session config access).after acts ∧
      (c.next = .stop ↔ config.stopWhenAnchorRemoved = true ∧ wasFound before c.view = true) ∧
      (c.next = .stop → ((Run.opened world session config access).after
        acts).executor.hasEnded c.task = true) ∧
      (c.next ≠ .stop → c.next = .after config.mountRetry ∧
        .slept config.mountRetry ∈
          (Run.underWatch world session config access acts).world.calls) := by
  obtain ⟨b, b', calls, hcloses, hseen, -, hended, hslept⟩ := Run.closed_in_history hhistory
  have hnext := hcloses.next_of_anchorAbsent habsent
  rw [hseen] at hnext
  refine ⟨Run.underWatch_unwatched .., ?_, hended, fun hgoesOn => ?_⟩
  · rw [hnext]
    cases hfound : wasFound before c.view <;> cases hwanted : config.stopWhenAnchorRemoved <;>
      simp [Config.policy, hwanted]
  · have hsleeps : c.next = .after config.mountRetry := Next.eq_after hnext hgoesOn
    exact ⟨hsleeps, hslept _ hsleeps⟩

/-- A page on which the block height is mounted, and nothing else. -/
def heightAnchorPage : Page :=
  { mounted := [(View.blockHeight.anchor, 1)] }

/-- The anchor is found, the task is stopped, and another one is started without the anchor. -/
def restartedWithoutAnchor : List (Act Page) :=
  [.startView .blockHeight, .run, .stop (.view .blockHeight .anonymous), .run,
    .change (·.unmount View.blockHeight.anchor), .startView .blockHeight, .run]

/-- A restarted task gives up that has not found the anchor itself. -/
theorem gives_up_before_finding :
    ∃ before c, Run.historyUnderWatch heightAnchorPage .anonymous {} PageAccess.only
        restartedWithoutAnchor = before ++ [.closed c] ∧
      (∀ v, .looked c.task v true ∉ before) ∧ c.outcome = .anchorAbsent ∧ c.next = .stop ∧
      ((Run.opened heightAnchorPage .anonymous {} PageAccess.only).after
        restartedWithoutAnchor).executor.hasEnded c.task = true := by
  have hhistory : Run.historyUnderWatch heightAnchorPage .anonymous {} PageAccess.only
      restartedWithoutAnchor = [.made .blockHeight false, .looked 0 .blockHeight true,
        .closed ⟨0, .blockHeight, some (.ok none), [], .empty, .after 60000⟩,
        .looked 1 .blockHeight false] ++
      [.closed ⟨1, .blockHeight, none, [], .anchorAbsent, .stop⟩] := rfl
  obtain ⟨-, hiff, hended, -⟩ := stops_anchorAbsent_iff _ _ _ _ _ _ _ _ hhistory rfl
  have hstop := hiff.mpr ⟨rfl, rfl⟩
  exact ⟨_, _, hhistory, by simp, rfl, hstop, hended hstop⟩

end WalletPage
