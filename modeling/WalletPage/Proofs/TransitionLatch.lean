import Mathlib.Data.List.Nodup
import WalletPage.Proofs.PollMarks

/-! The latch of the transition form. It falls with the first cycle of a view that accepts a
snapshot that ends the view, and stays down for as long as the service lives. That cycle submits
the form and ends terminal, and no other one does. As only a terminal cycle stops the polling of
progress, a task that was started again on a completed view polls on. -/

namespace WalletPage

variable {ρ σ : Type}

/-- Views have different transition forms. -/
theorem View.transitionForm?_injective {v w : View} {form : String}
    (hv : v.transitionForm? = some form) (hw : w.transitionForm? = some form) : v = w := by
  have hsome : v.transitionForm?.isSome = true := by rw [hv]; rfl
  rw [← hw] at hv
  revert hv hsome
  cases v <;> cases w <;> decide

/-- What comes after a cycle that has found its anchor. -/
theorem Policy.next_of_found (p : Policy) (v : View) {outcome : Outcome}
    (houtcome : outcome ≠ .anchorAbsent) (anchorSeen : Bool) :
    p.next v outcome anchorSeen =
      if v.isProgress then
        if outcome = .terminal then .stop else .after p.progressInterval
      else .after (if outcome = .failed then p.failureRetry else p.successInterval) := by
  cases outcome <;> cases hprogress : v.isProgress <;> simp_all [next]

namespace Binder

variable {policy : Policy} {task : TaskId} {b b' : Binder (Watcher ρ)} {c : Closing}
  {calls : List Call}

theorem shownOutcome_eq_terminal_iff (b : Binder ρ) (s : Snapshot) (changed : Bool) :
    b.shownOutcome s changed = .terminal ↔ b.transits s = true := by
  unfold shownOutcome
  cases b.transits s <;> cases changed <;> simp

/-- A cycle ends terminal if it completes a view that was not completed before; then it submits
the form of the view, and otherwise it submits nothing. -/
theorem Concludes.terminal_iff {answer : Fallible (Option Snapshot)} {outcome : Outcome}
    (h : b.Concludes answer b' outcome calls) (next : Next) :
    (outcome = .terminal ↔
      Closing.completes ⟨task, b.view, some answer, calls, outcome, next⟩ = true ∧
        b.transitioned = false) ∧
      formsOf calls = if outcome = .terminal then b.view.transitionForm?.toList else [] := by
  cases h with
  | failed => simp [Closing.completes, formsOf]
  | empty => simp [Closing.completes, formsOf]
  | foreign hs => simp_all [Closing.completes, formsOf]
  | refused hs hrefused hforms => simp [Closing.completes, hrefused, hforms]
  | @shown s calls changed hs htaken hforms =>
    rw [hforms, formsFor]
    constructor
    · rw [shownOutcome_eq_terminal_iff]
      simp [Closing.completes, hs, htaken, transits]
    · simp only [shownOutcome_eq_terminal_iff]

theorem Closes.terminal_iff (h : b.Closes policy task c calls b') :
    (c.outcome = .terminal ↔ c.completes = true ∧ b.transitioned = false) ∧
      formsOf c.calls = if c.outcome = .terminal then c.view.transitionForm?.toList else [] := by
  cases h with
  | givesUp => simp [Closing.completes, formsOf]
  | concludes hconcludes => exact hconcludes.terminal_iff _

/-- A cycle that completes its view has found its anchor. -/
theorem Closes.ne_anchorAbsent (h : b.Closes policy task c calls b')
    (hcompletes : c.completes = true) : c.outcome ≠ .anchorAbsent := by
  cases h with
  | givesUp => contradiction
  | concludes hconcludes => exact hconcludes.ne_anchorAbsent

theorem Closes.next_eq (h : b.Closes policy task c calls b') :
    c.next = policy.next c.view c.outcome b'.anchorSeen := by
  cases h with
  | givesUp hnext => exact hnext
  | concludes _ _ hnext => exact hnext

end Binder

/-- A view that is completed has a form. -/
theorem Closing.transitionForm?_isSome (c : Closing) (hcompletes : c.completes = true) :
    c.view.transitionForm?.isSome = true := by
  unfold Closing.completes at hcompletes
  split at hcompletes
  · rw [Bool.and_eq_true, Bool.and_eq_true] at hcompletes
    exact Snapshot.transitionForm?_isSome hcompletes.1.1 hcompletes.1.2
  · contradiction

/-! ### Progress that is complete -/

/-- However a service is used, a cycle of a progress view that accepts a complete snapshot ends
its task if and only if no cycle of the view has done so before, under whichever task. Otherwise
the task sleeps for the delay of progress, and goes on. -/
theorem stops_completed_iff [Host ρ σ] (world : σ) (session : SessionId) (config : Config)
    (access : ρ) (acts : List (Act σ)) (before after : List PollEvent) (c : Closing)
    (hhistory : Run.historyUnderWatch world session config access acts =
      before ++ .closed c :: after)
    (hprogress : c.view.isProgress = true) (hcompletes : c.completes = true) :
    (Run.underWatch world session config access acts).unwatched =
        (Run.opened world session config access).after acts ∧
      (c.next = .stop ↔ wasCompleted before c.view = false) ∧
      (c.next = .stop → ((Run.opened world session config access).after
        acts).executor.hasEnded c.task = true) ∧
      (c.next ≠ .stop → c.next = .after config.progressInterval ∧
        .slept config.progressInterval ∈
          (Run.underWatch world session config access acts).world.calls) := by
  obtain ⟨b, b', calls, hcloses, -, htransitioned, hended, hslept⟩ :=
    Run.closed_in_history hhistory
  have hterminal := hcloses.terminal_iff.1
  have hnext :
      c.next = if c.outcome = .terminal then .stop else .after config.progressInterval := by
    rw [hcloses.next_eq, config.policy.next_of_found _ (hcloses.ne_anchorAbsent hcompletes),
      if_pos hprogress]
    rfl
  rw [htransitioned, and_iff_right hcompletes] at hterminal
  refine ⟨Run.underWatch_unwatched .., ?_, hended, fun hgoesOn => ?_⟩
  · rw [hnext, ← hterminal]
    split <;> simp_all
  · have hsleeps : c.next = .after config.progressInterval := Next.eq_after hnext hgoesOn
    exact ⟨hsleeps, hslept _ hsleeps⟩

/-- The progress of a task that is done. -/
def doneProgress : Snapshot :=
  .progress ⟨completePercentage⟩

/-- A page with the progress of the bootstrapper, of which the server says that it is done. -/
def doneProgressPage : Page :=
  { mounted := [(View.bootstrapperProgress.anchor, 1)]
    answers := [(.bootstrapperProgress, [{ result := .ok (some doneProgress) }])] }

/-- The progress is polled to its end, and then once more. -/
def restartedWhenDone : List (Act Page) :=
  [.startView .bootstrapperProgress, .run, .startView .bootstrapperProgress, .run]

/-- A task that was started again on complete progress polls on. -/
theorem polls_on_when_done :
    ∃ before c, Run.historyUnderWatch doneProgressPage .anonymous {} PageAccess.only
        restartedWhenDone = before ++ [.closed c] ∧
      c.view.isProgress = true ∧ c.completes = true ∧ c.next = .after 1000 ∧
      .slept 1000 ∈ (Run.underWatch doneProgressPage .anonymous {} PageAccess.only
        restartedWhenDone).world.calls := by
  have hhistory : Run.historyUnderWatch doneProgressPage .anonymous {} PageAccess.only
      restartedWhenDone = [.made .bootstrapperProgress false,
        .looked 0 .bootstrapperProgress true,
        .closed ⟨0, .bootstrapperProgress, some (.ok (some doneProgress)),
          [.applied ⟨View.bootstrapperProgress.anchor, .html "100%"⟩ (.ok 1),
            .wrote (View.bootstrapperProgress.cacheKey SessionId.anonymous.text)
              doneProgress.stored (.ok ()),
            .submitted "refreshBootstrapper" false], .terminal, .stop⟩,
        .looked 1 .bootstrapperProgress true] ++
      [.closed ⟨1, .bootstrapperProgress, some (.ok (some doneProgress)),
        [.read (View.bootstrapperProgress.cacheKey SessionId.anonymous.text)
          (some doneProgress.stored)], .unchanged, .after 1000⟩] := rfl
  obtain ⟨-, -, -, hgoesOn⟩ := stops_completed_iff _ _ _ _ _ _ _ _ hhistory rfl rfl
  exact ⟨_, _, hhistory, rfl, rfl, hgoesOn nofun⟩

/-! ### The latch -/

/-- The view that comes to its end in an event. -/
def PollEvent.terminal? : PollEvent → Option View
  | closed c => if c.outcome = .terminal then some c.view else none
  | _ => none

/-- The views that come to their end in some events, in order. -/
def terminalViews (events : List PollEvent) : List View :=
  events.filterMap PollEvent.terminal?

theorem terminalViews_concat (events : List PollEvent) (e : PollEvent) :
    terminalViews (events ++ [e]) = terminalViews events ++ e.terminal?.toList := by
  unfold terminalViews
  rw [List.filterMap_append]
  cases he : e.terminal? <;> simp [he]

/-- What comes of the transition forms of a service with a history and calls. -/
structure Latched (history : List PollEvent) (calls : List Call) : Prop where
  /-- A cycle ends terminal if it is the first one to complete its view. -/
  terminal_iff : ∀ before c after, history = before ++ .closed c :: after →
    (c.outcome = .terminal ↔ c.completes = true ∧ wasCompleted before c.view = false)
  /-- Such a cycle submits the form of its view, and any other cycle submits nothing. -/
  form : ∀ c, .closed c ∈ history →
    formsOf c.calls = if c.outcome = .terminal then c.view.transitionForm?.toList else []
  /-- Nothing else submits a form. -/
  forms : formsOf calls = (terminalViews history).filterMap View.transitionForm?
  /-- No form is submitted twice. -/
  once : (formsOf calls).Nodup
  /-- The views that come to their end are those that were completed, and they have forms. -/
  completed_iff : ∀ v, v ∈ terminalViews history ↔ wasCompleted history v = true
  formed : ∀ v ∈ terminalViews history, v.transitionForm?.isSome = true

namespace Stock

variable {policy : Policy} {bs bs' : List (Binder (Watcher ρ))} {events : List PollEvent}
  {e : PollEvent} {calls new : List Call}

/-- An event in which a view comes to its end is the first one to complete it; with it the form
of the view is submitted. -/
theorem Polls.terminal (h : Polls policy bs e new bs') (hr : Recall bs events) :
    (∀ v, e.terminal? = some v ↔
      e.view = v ∧ e.isCompletion = true ∧ wasCompleted events v = false) ∧
      formsOf new = e.terminal?.toList.filterMap View.transitionForm? := by
  cases h with
  | made _ _ _ hforms => exact ⟨by simp [PollEvent.terminal?, PollEvent.isCompletion], hforms⟩
  | misses => exact ⟨by simp [PollEvent.terminal?, PollEvent.isCompletion], rfl⟩
  | asks _ _ hopens =>
    refine ⟨by simp [PollEvent.terminal?, PollEvent.isCompletion], ?_⟩
    rw [formsOf_append, formsOf_eq_nil fun c hc => (hopens.calls c hc).form?]
    rfl
  | @closes i b b' task c _ hb hcloses =>
    obtain ⟨hterminal, hform⟩ := hcloses.terminal_iff
    rw [hr.transitioned b (List.mem_of_getElem? hb), ← hcloses.marks.1] at hterminal
    have hslept : formsOf c.next.calls = [] := by cases c.next <;> rfl
    rw [hcloses.calls_eq, formsOf_append, hslept, List.append_nil, hform]
    have hevent : (PollEvent.closed c).terminal? =
      if c.outcome = .terminal then some c.view else none := rfl
    by_cases hc : c.outcome = .terminal
    · obtain ⟨hcompletes, hfirst⟩ := hterminal.mp hc
      rw [hevent, if_pos hc, if_pos hc]
      refine ⟨fun v => ⟨?_, fun hv => ?_⟩, by cases hv : c.view.transitionForm? <;> simp [hv]⟩
      · rintro ⟨⟩
        exact ⟨rfl, hcompletes, hfirst⟩
      · exact congrArg some hv.1
    · rw [hevent, if_neg hc, if_neg hc]
      refine ⟨fun v => ⟨?_, ?_⟩, rfl⟩
      · rintro ⟨⟩
      · rintro ⟨rfl, hcompletes, hfirst⟩
        exact absurd (hterminal.mpr ⟨hcompletes, hfirst⟩) hc

/-- Events lead each view to its end at most once, and submit the forms of those views. -/
theorem Passes.terminals {t : Stock ρ} (h : Passes policy ⟨[], []⟩ events t) :
    (terminalViews events).Nodup ∧
      (∀ v, v ∈ terminalViews events ↔ wasCompleted events v = true) ∧
      formsOf t.calls = (terminalViews events).filterMap View.transitionForm? := by
  induction h with
  | refl => exact ⟨List.nodup_nil, by simp [terminalViews, wasCompleted], rfl⟩
  | quiet _ hforms ih =>
    obtain ⟨hnodup, hcompleted, hcalls⟩ := ih
    refine ⟨hnodup, hcompleted, ?_⟩
    rw [formsOf_append, hforms, List.append_nil, hcalls]
  | @event events t e new bs h hpolls ih =>
    obtain ⟨hnodup, hcompleted, hcalls⟩ := ih
    obtain ⟨hterminal, hforms⟩ := hpolls.terminal h.recall
    rw [terminalViews_concat]
    refine ⟨?_, fun v => ?_, ?_⟩
    · cases he : e.terminal? with
      | none => simpa using hnodup
      | some v =>
        -- A view that comes to its end was not completed before, so it is not among the others.
        obtain ⟨-, -, hfirst⟩ := (hterminal v).mp he
        have hnew : v ∉ terminalViews events := by
          rw [hcompleted, hfirst]
          exact Bool.false_ne_true
        rw [List.nodup_append]
        refine ⟨hnodup, by simp, fun w hw x hx hwx => hnew ?_⟩
        rwa [← List.mem_singleton.mp hx, ← hwx]
    · rw [List.mem_append, hcompleted, Option.mem_toList, hterminal, wasCompleted_concat]
      cases wasCompleted events v <;> simp
    · rw [formsOf_append, hcalls, hforms, List.filterMap_append]

end Stock

/-- A view that was completed has a form. -/
theorem transitionForm?_of_wasCompleted {events : List PollEvent} {v : View}
    (h : wasCompleted events v = true) : v.transitionForm?.isSome = true := by
  obtain ⟨e, -, he⟩ := List.any_eq_true.mp h
  rw [Bool.and_eq_true, decide_eq_true_eq] at he
  obtain ⟨rfl, hcompletion⟩ := he
  cases e with
  | closed c => exact c.transitionForm?_isSome hcompletion
  | made => contradiction
  | looked => contradiction

/-- However a service is used, whatever the server answers and whatever the page and the store
refuse, each view that has a transition form submits it at most once: in the first cycle that
completes the view, which ends terminal as no other cycle of the view does. -/
theorem transitions_latched [Host ρ σ] (world : σ) (session : SessionId) (config : Config)
    (access : ρ) (acts : List (Act σ)) :
    (Run.underWatch world session config access acts).unwatched =
        (Run.opened world session config access).after acts ∧
      Latched (Run.historyUnderWatch world session config access acts)
        (Run.underWatch world session config access acts).world.calls := by
  obtain ⟨hpasses, -, -⟩ := Run.underWatch_goes world session config access acts
  obtain ⟨hnodup, hcompleted, hcalls⟩ := hpasses.terminals
  refine ⟨Run.underWatch_unwatched .., fun before c after hhistory => ?_, fun c hc => ?_, hcalls,
    ?_, hcompleted, fun v hv => ?_⟩
  · obtain ⟨b, b', calls, hcloses, -, htransitioned, -⟩ := Run.closed_in_history hhistory
    rw [← htransitioned]
    exact hcloses.terminal_iff.1
  · obtain ⟨before, after, hhistory⟩ := List.append_of_mem hc
    obtain ⟨b, b', calls, hcloses, -⟩ := Run.closed_in_history hhistory
    exact hcloses.terminal_iff.2
  · have hforms :
        formsOf (Run.underWatch world session config access acts).world.calls = _ := hcalls
    rw [hforms]
    exact List.Nodup.filterMap (fun v w form => View.transitionForm?_injective) hnodup
  · exact transitionForm?_of_wasCompleted ((hcompleted v).mp hv)

end WalletPage
