import WalletPage.Proofs.CancelSafety
import WalletPage.Proofs.Occurrences

/-! A shutdown is all or nothing. A server that does not agree leaves everything as it is.
Once it has agreed, no task of the service goes on: each one was in the registry and is told
to stop, so that all that is left to it is the turn that disposes of it, and nothing is
called before something is started again. -/

namespace WalletPage

variable {ρ σ : Type}

/-- Whether the registry has every task that goes on. -/
def Run.Enlisted (r : Run ρ σ) (s : Service ρ) : Prop :=
  ∀ t body, r.executor.live? t = some (body, false) → ∃ key, s.registry.task? key = some t

/-- Whether an occurrence starts nothing and saves no note. -/
def Occurrence.IsPassive : Occurrence σ → Prop
  | act .start => False
  | act (.startView _) => False
  | act (.selectPage _) => False
  | saveNote _ _ => False
  | _ => True

/-- Whether a call belongs to a shutdown. -/
def Call.IsOfShutdown : Call → Prop
  | askedShutdown _ => True
  | replaced _ _ => True
  | _ => False

/-- A service that is shut down: no task goes on, and the registry is empty. -/
structure Run.Dormant (r : Run (Watcher ρ) (Watched σ)) (s : Service (Watcher ρ))
    (calls : List Call) : Prop where
  inOrder : r.InOrder s none
  registry : s.registry = {}
  still : ∀ t body, r.executor.live? t ≠ some (body, false)
  calls : r.world.calls = calls

variable [Host ρ σ]

/-! ### Every task is enlisted -/

namespace Run

section

variable {r r' : Run ρ σ} {s s' : Service ρ} {outside : σ → σ → Prop}

omit [Host ρ σ] in
/-- Entries of tasks that do not go on may be struck out. -/
theorem Enlisted.strike (hr : r.Enlisted s) {registry : Registry}
    (hstruck : ∀ key, registry.task? key = s.registry.task? key ∨
      registry.task? key = none ∧ r.Halted s key) :
    Run.Enlisted { r with services := [{ s with registry }] } { s with registry } := by
  intro t body ht
  obtain ⟨key, hkey⟩ := hr t body ht
  refine ⟨key, ?_⟩
  rcases hstruck key with hstays | ⟨-, hhalted⟩
  · exact hstays.trans hkey
  · exact absurd ht (hhalted t hkey body)

omit [Host ρ σ] in
/-- A new task takes the entry of one that does not go on. -/
theorem Enlisted.spawn (hr : r.Enlisted s) {key : TaskKey} {body : Body ρ} {id : TaskId}
    {executor : Executor (Body ρ)} {registry : Registry} (hhalted : r.Halted s key)
    (hspawn : r.executor.spawn body = some (id, executor))
    (hregistry : ∀ k, registry.task? k = if k = key then some id else s.registry.task? k) :
    Run.Enlisted { r with executor, services := [{ s with registry }] } { s with registry } := by
  intro t new ht
  replace ht : executor.live? t = some (new, false) := ht
  rw [Executor.live?_spawn hspawn] at ht
  split at ht
  · rename_i hti
    exact ⟨key, by rw [hregistry, if_pos rfl, hti]⟩
  · obtain ⟨k, hk⟩ := hr t new ht
    have hne : k ≠ key := by
      rintro rfl
      exact hhalted t hk new ht
    exact ⟨k, by rw [hregistry, if_neg hne, hk]⟩

theorem stopAll_eq (hs : r.services = [s]) : (r.stopAll 0).2 =
    { r with
      world := ((Host.log s.access (Registry.stoppedEntry
        (s.registry.running r.executor).length)).run r.world).2
      executor := s.registry.entries.foldl (fun e (_, id) => e.abort id) r.executor
      services := [{ s with registry := {} }] } := by
  unfold stopAll setService
  simp only [hs]
  rfl

omit [Host ρ σ] in
theorem running_eq (hs : r.services = [s]) :
    r.running 0 = s.registry.running r.executor := by
  unfold running
  rw [hs]
  rfl

end

/-! ### Nothing goes on -/

section

variable {r r' : Run (Watcher ρ) (Watched σ)} {s : Service (Watcher ρ)} {calls : List Call}

omit [Host ρ σ] in
theorem Dormant.services (h : r.Dormant s calls) : r.services = [s] :=
  h.inOrder.services

omit [Host ρ σ] in
theorem Dormant.running (h : r.Dormant s calls) : r.running 0 = [] := by
  rw [running_eq h.services, h.registry]
  rfl

/-- A dormant service that is told to stop everything says so, and is as it was. -/
theorem Dormant.stopAll_eq (h : r.Dormant s calls) : (r.stopAll 0).2 =
    r.perform (Host.log s.access (Registry.stoppedEntry 0)) := by
  have hs : ({ s with registry := {} } : Service (Watcher ρ)) = s := by
    rw [← h.registry]
  rw [Run.stopAll_eq h.services, hs, ← h.services, h.registry]
  rfl

omit [Host ρ σ] in
/-- A page that was changed by others is no matter to a dormant service. -/
theorem Dormant.change (h : r.Dormant s calls) {w : Watched σ} {new : List Call}
    (hw : w.calls = r.world.calls ++ new) :
    Run.Dormant { r with world := w } s (calls ++ new) :=
  ⟨⟨h.services, h.inOrder.orderly⟩, h.registry, h.still, by rw [hw, h.calls]⟩

theorem Dormant.next? (h : r.Dormant s calls) (hnext : r.next? = some r') :
    r'.Dormant s calls := by
  obtain ⟨id, executor, hpop, hpopped, hturned⟩ := next?_cases h.inOrder hnext
  obtain ⟨rest, -, rfl⟩ := Executor.next?_eq_some_iff.mp hpop
  have hgoes {t : TaskId} {body : Body (Watcher ρ)}
      (ht : r'.executor.live? t = some (body, false)) : False := by
    obtain ⟨body', ht'⟩ := hturned.advances.unstopped t body ht
    exact h.still t body' ht'
  refine ⟨next?_inOrder h.inOrder hnext, h.registry, fun t body => hgoes, ?_⟩
  -- What has a turn is disposed of.
  cases hturned with
  | gone hid => exact h.calls
  | @disposes body hid =>
    have hworld := (dispose_letsGo { r with executor := { r.executor with ready := rest } }
      body).world
    exact (congrArg Watched.calls hworld).trans h.calls
  | polls hx hid hturn => exact absurd hid (h.still id _)
  | beats hid => exact absurd hid (h.still id _)

theorem Dormant.settle (h : r.Dormant s calls) (n : Nat) :
    (WalletPage.settle Run.next? n r).Dormant s calls := by
  induction n generalizing r with
  | zero => exact h
  | succ n ih =>
    unfold WalletPage.settle
    cases hnext : r.next? with
    | some r' => exact ih (h.next? hnext)
    | none => exact h

omit [Host ρ σ] in
theorem Dormant.resume (h : r.Dormant s calls)
    {change : Body (Watcher ρ) → Body (Watcher ρ)}
    (hchange : change = awakened ∨ change = answered) (id : TaskId) :
    (resume change r id).Dormant s calls := by
  have horder := resume_inOrder h.inOrder hchange id
  unfold Run.resume at horder ⊢
  cases hid : r.executor.live? id with
  | none => exact h
  | some task =>
    rw [hid] at horder
    refine ⟨horder, h.registry, fun t body ht => ?_, h.calls⟩
    have hset : (r.executor.setBody id (change task.1)).live? t = some (body, false) :=
      (Executor.live?_wake _ id t).symm.trans ht
    obtain ⟨body', ht'⟩ := (Executor.leads_setBody r.executor id _).goes
      (Executor.length_setBody _ id _) hset
    exact h.still t body' ht'

omit [Host ρ σ] in
theorem Dormant.resumes (h : r.Dormant s calls)
    {change : Body (Watcher ρ) → Body (Watcher ρ)}
    (hchange : change = awakened ∨ change = answered) (ids : List TaskId) :
    (ids.foldl (Run.resume change) r).Dormant s calls := by
  induction ids generalizing r with
  | nil => exact h
  | cons id rest ih => exact ih (h.resume hchange id)

/-- An act that starts nothing calls nothing on the page of a dormant service. -/
theorem Dormant.act (h : r.Dormant s calls) {a : Act σ} (ha : (Occurrence.act a).IsPassive) :
    (a.watched.step r).Dormant s calls := by
  cases a with
  | start => exact ha.elim
  | startView v => exact ha.elim
  | selectPage page => exact ha.elim
  | stop key =>
    have hstop : s.registry.stop r.executor key = (false, s.registry, r.executor) := by
      rw [h.registry]
      rfl
    show (r.stopTask 0 key).2.Dormant s calls
    rw [stopTask_eq h.services, stopped, hstop]
    exact ⟨⟨rfl, h.inOrder.orderly⟩, h.registry, h.still, h.calls⟩
  | stopAll =>
    show (r.stopAll 0).2.Dormant s calls
    rw [h.stopAll_eq]
    exact ⟨⟨h.services, h.inOrder.orderly⟩, h.registry, h.still, h.calls⟩
  | enroll => exact ⟨enroll_inOrder h.inOrder, h.registry, h.still, h.calls⟩
  | turn =>
    show (r.next?.getD r).Dormant s calls
    cases hnext : r.next? with
    | none => exact h
    | some r' => exact h.next? hnext
  | awaken id => exact h.resume (.inl rfl) id
  | deliver id => exact h.resume (.inr rfl) id
  | fire =>
    have hforgot : Run.Dormant { r with sleepers := [] } s calls :=
      ⟨⟨h.services, h.inOrder.orderly⟩, h.registry, h.still, h.calls⟩
    exact hforgot.resumes (.inl rfl) _
  | release key =>
    have hforgot : Run.Dormant { r with held := r.held.filter (·.1 ≠ key) } s calls :=
      ⟨⟨h.services, h.inOrder.orderly⟩, h.registry, h.still, h.calls⟩
    exact hforgot.resumes (.inr rfl) _
  | run =>
    have henrolled : Run.Dormant { r with executor := r.executor.enroll } s calls :=
      ⟨enroll_inOrder h.inOrder, h.registry, h.still, h.calls⟩
    exact henrolled.settle _
  | change f => exact ⟨⟨h.services, h.inOrder.orderly⟩, h.registry, h.still, h.calls⟩

/-! ### The two halves of a shutdown -/

theorem askShutdown_eq (hs : r.services = [s]) : ∃ w reply,
    r.askShutdown 0 = { r with world := w } ∧
      w.calls = r.world.calls ++ [.askedShutdown reply] := by
  unfold askShutdown
  rw [first_service hs]
  exact ⟨((Host.shutdown s.access).run r.world).2, ((Host.shutdown s.access.access).run
    r.world.world).1, rfl, rfl⟩

theorem finishShutdown_refused (hs : r.services = [s]) {answer : Fallible Bool}
    (hanswer : answer ≠ .ok true) : (r.finishShutdown 0 answer).1 = answer ∧
      ∃ w, (r.finishShutdown 0 answer).2 = { r with world := w } ∧
        w.calls = r.world.calls := by
  unfold finishShutdown
  rw [first_service hs]
  cases answer with
  | error p => exact ⟨rfl, r.world, rfl, rfl⟩
  | ok agreed =>
    cases agreed with
    | false => exact ⟨rfl, _, rfl, rfl⟩
    | true => exact absurd rfl hanswer

/-- After an agreement the service has stopped everything, and the page is replaced. -/
theorem finishShutdown_agreed (hs : r.services = [s]) :
    (r.finishShutdown 0 (.ok true)).1 = .ok true ∧
      ∃ w, (r.finishShutdown 0 (.ok true)).2 = { (r.stopAll 0).2 with world := w } ∧
        w.calls = (r.stopAll 0).2.world.calls ++
          [.replaced contentContainer (shutdownNotice s.config.baseUrl).html] := by
  unfold finishShutdown
  rw [first_service hs]
  exact ⟨rfl, _, rfl, rfl⟩

/-- Shutting down a service that is dormant already calls nothing but the shutdown. -/
theorem Dormant.occur (h : r.Dormant s calls) {o : Occurrence σ} (ho : o.IsPassive) :
    ∃ new, (o.watched.step r).Dormant s (calls ++ new) ∧ (∀ c ∈ new, c.IsOfShutdown) ∧
      ((∃ a, o = .act a) → new = []) := by
  have hnone (hstep : (o.watched.step r).Dormant s calls) :
      ∃ new, (o.watched.step r).Dormant s (calls ++ new) ∧ (∀ c ∈ new, c.IsOfShutdown) ∧
        ((∃ a, o = .act a) → new = []) := by
    refine ⟨[], ?_, List.forall_mem_nil _, fun _ => rfl⟩
    rwa [List.append_nil]
  cases o with
  | act a => exact hnone (h.act ho)
  | saveNote shortId text => exact ho.elim
  | askShutdown =>
    obtain ⟨w, reply, hasked, hw⟩ := askShutdown_eq h.services
    refine ⟨[.askedShutdown reply], ?_, by simp [Call.IsOfShutdown], nofun⟩
    show (r.askShutdown 0).Dormant s _
    rw [hasked]
    exact h.change hw
  | endShutdown answer =>
    by_cases hanswer : answer = .ok true
    · obtain ⟨-, w, hended, hw⟩ := finishShutdown_agreed h.services
      have hstopped : (r.stopAll 0).2.Dormant s calls := h.act (a := .stopAll) trivial
      refine ⟨[.replaced contentContainer (shutdownNotice s.config.baseUrl).html], ?_,
        by simp [Call.IsOfShutdown], nofun⟩
      show (r.finishShutdown 0 answer).2.Dormant s _
      rw [hanswer, hended]
      exact hstopped.change hw
    · obtain ⟨-, w, hended, hw⟩ := finishShutdown_refused h.services hanswer
      refine hnone ?_
      show (r.finishShutdown 0 answer).2.Dormant s _
      rw [hended, ← List.append_nil calls]
      exact h.change (hw.trans (List.append_nil _).symm)

theorem Dormant.through (h : r.Dormant s calls) {later : List (Occurrence σ)}
    (hlater : ∀ o ∈ later, o.IsPassive) :
    ∃ new, (r.through (later.map Occurrence.watched)).Dormant s (calls ++ new) ∧
      (∀ c ∈ new, c.IsOfShutdown) ∧ ((∀ o ∈ later, ∃ a, o = .act a) → new = []) := by
  induction later generalizing r calls with
  | nil =>
    refine ⟨[], ?_, List.forall_mem_nil _, fun _ => rfl⟩
    rwa [List.append_nil]
  | cons o rest ih =>
    obtain ⟨ho, hrest⟩ := List.forall_mem_cons.mp hlater
    obtain ⟨first, hstep, hfirst, hfirst_nil⟩ := h.occur ho
    obtain ⟨more, hend, hmore, hmore_nil⟩ := ih hstep hrest
    refine ⟨first ++ more, List.append_assoc calls first more ▸ hend, fun c hc => ?_,
      fun hacts => ?_⟩
    · exact (List.mem_append.mp hc).elim (hfirst c) (hmore c)
    · obtain ⟨hact, hacts⟩ := List.forall_mem_cons.mp hacts
      rw [hfirst_nil hact, hmore_nil hacts]
      rfl

end

end Run

end WalletPage
