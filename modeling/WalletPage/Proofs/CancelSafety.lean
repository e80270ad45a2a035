import WalletPage.Page.Basic
import WalletPage.Proofs.Recollections
import WalletPage.Proofs.StoppedTasks
import WalletPage.Proofs.Unwatched

/-! Cycles one after the other. Of each view at most one request is in flight; a task
holds its binder from the request to the end of the cycle and no longer; and a cycle that is
stopped before it has looked at its answer leaves behind no more than what came before
its request, and the request itself. -/

namespace WalletPage

variable {ρ σ : Type}

/-- Whether a task waits for its binder or for its answer. -/
def Phase.Open {α : Type} : Phase α → Prop
  | .queued _ => True
  | .waiting _ => True
  | .answered _ => True
  | _ => False

namespace Run

/-- Whether a task has asked for a view of a session and has not looked at the answer. -/
def InFlight (r : Run ρ σ) (v : View) (session : SessionId) (t : TaskId) : Prop :=
  ∃ b x, r.binders[b]? = some x ∧ x.binder.view = v ∧ x.binder.session = session ∧
    r.executor.HoldsAt t b

/-- Whether a polling task was stopped or replaced: it still exists, but it is not the task
that its service has for the view. -/
def Dropped (r : Run ρ σ) (t : TaskId) : Prop :=
  ∃ b x policy phase isAborted, r.executor.live? t = some (.poll b policy phase, isAborted) ∧
    r.binders[b]? = some x ∧
    ∀ s ∈ r.services, s.registry.task? (.view x.binder.view s.session) ≠ some t

/-- Whether no task can run before something happens. -/
def Stalled (r : Run ρ σ) : Prop :=
  r.executor.ready = [] ∧ r.executor.fresh = []

/-- A binder of a run, with what it remembers. -/
def binder? (r : Run ρ σ) (b : BinderId) : Option (Binder ρ) :=
  (r.binders[b]?).map (·.binder)

/-- Whether two runs agree in what their binders remember. -/
def SameBinders (r r' : Run ρ σ) : Prop :=
  ∀ b, r'.binder? b = r.binder? b

variable [Host ρ σ]

/-- Whether it is a task's turn, which leads from one run to another. -/
def Takes (r : Run ρ σ) (t : TaskId) (r' : Run ρ σ) : Prop :=
  ∃ executor, r.executor.next? = some (t, executor) ∧ r' = Run.turn { r with executor } t

end Run

/-- An act that stops the task of a view, or replaces it. -/
inductive Act.Drops (v : View) (session : SessionId) : Act σ → Prop
  | stop : Drops v session (.stop (.view v session))
  | stopAll : Drops v session .stopAll
  | startView : Drops v session (.startView v)
  | selectPage {page : PageNumber} (hv : v = .txHistory) (hpage : page ≠ 0) :
    Drops v session (.selectPage page)

/-- What a cycle leaves behind that has not looked at its answer: nothing, or the first half
of a cycle. -/
inductive Binder.Footprint (b : Binder ρ) : Binder ρ → List Call → Prop
  | nothing : Footprint b b []
  | begun {b' : Binder ρ} {first : List Call} {page : Option PageNumber}
    {reply : Reply (Fallible (Option Snapshot))} (hopens : b.Opens b' first) :
    Footprint b b' (first ++ [.asked (b.request page) reply])

/-! ### Turns that only let go -/

namespace Run

variable {r r' r'' : Run ρ σ} {t : TaskId} {b : BinderId} {x x' : Shared ρ}

theorem SameBinders.refl (r : Run ρ σ) : r.SameBinders r := fun _ => rfl

theorem sameBinders_set (hr' : r'.binders = r.binders.set b x') (hx : r.binders[b]? = some x)
    (hbinder : x'.binder = x.binder) : r.SameBinders r' := by
  intro c
  have hlt := (List.getElem?_eq_some_iff.mp hx).1
  unfold binder?
  rw [hr', List.getElem?_set]
  by_cases hc : b = c
  · subst hc
    rw [if_pos rfl, if_pos hlt, hx, Option.map_some, Option.map_some, hbinder]
  · rw [if_neg hc]

/-- Disposing of a task changes locks and wakes tasks, and nothing else. -/
structure LetsGo (r r' : Run ρ σ) : Prop where
  world : r'.world = r.world
  selections : r'.selections = r.selections
  binders : r.SameBinders r'
  tasks : r'.executor.tasks = r.executor.tasks

theorem LetsGo.refl (r : Run ρ σ) : r.LetsGo r := ⟨rfl, rfl, .refl r, rfl⟩

theorem dispose_letsGo (r : Run ρ σ) (body : Body ρ) : r.LetsGo (r.dispose body) := by
  have hrelease (b : BinderId) : r.LetsGo (r.release b) := by
    cases hx : r.binders[b]? with
    | none =>
      unfold release
      rw [hx]
      exact .refl r
    | some x =>
      rw [release_eq hx]
      exact ⟨rfl, rfl, sameBinders_set rfl hx rfl, Executor.tasks_rouse _ _⟩
  have hleave (b : BinderId) (place : Nat) : r.LetsGo (r.leave b place) := by
    cases hx : r.binders[b]? with
    | none =>
      unfold leave
      rw [hx]
      exact .refl r
    | some x =>
      rw [leave_eq hx]
      exact ⟨rfl, rfl, sameBinders_set rfl hx rfl, Executor.tasks_rouse _ _⟩
  cases body with
  | poll b policy phase =>
    cases phase with
    | start => exact .refl r
    | queued place => exact hleave b place
    | waiting answer => exact hrelease b
    | answered answer => exact hrelease b
    | sleeping => exact .refl r
  | heartbeat => exact .refl r
  | shutdown => exact .refl r

variable [Host ρ σ]

/-- A task that will not go on has one turn, in which it only lets go. -/
theorem Gone.takes (h : r.Gone t) (htakes : r.Takes t r') :
    r'.world = r.world ∧ r.SameBinders r' ∧ r'.executor.live? t = none := by
  obtain ⟨executor, hnext, rfl⟩ := htakes
  obtain ⟨rest, -, rfl⟩ := Executor.next?_eq_some_iff.mp hnext
  have hlive : ({ r.executor with ready := rest } : Executor (Body ρ)).live? t =
    r.executor.live? t := rfl
  unfold turn
  rw [hlive]
  cases hid : r.executor.live? t with
  | none => exact ⟨rfl, .refl r, hid⟩
  | some task =>
    obtain ⟨body, isAborted⟩ := task
    cases isAborted with
    | false => exact absurd hid (h.2 body)
    | true =>
      have hletsGo := dispose_letsGo { r with executor := { r.executor with ready := rest } } body
      refine ⟨hletsGo.world, hletsGo.binders, ?_⟩
      show (Executor.finish _ t).live? t = none
      rw [Executor.live?_finish, if_pos rfl]

omit [Host ρ σ] in
theorem Dropped.gone {s : Service ρ} (h : r.InOrder s none) (hdropped : r.Dropped t) :
    r.Gone t := by
  obtain ⟨b, x, policy, phase, isAborted, hid, hx, hkeys⟩ := hdropped
  refine ⟨Executor.lt_of_live? hid, fun body ht => ?_⟩
  rw [hid] at ht
  cases ht
  obtain ⟨v, hv, htask⟩ := h.orderly.registered t b policy phase hid
  obtain ⟨x', hx', hxv⟩ := (h.orderly.known v b).mp hv
  rw [hx] at hx'
  cases hx'
  have hmem : s ∈ r.services := h.services ▸ List.mem_singleton_self s
  exact hkeys s hmem (hxv ▸ htask)

/-! ### What stops a task -/

theorem startView_drops {s : Service ρ} (h : r.InOrder s none) {policy : Policy}
    {phase : Phase (Fallible (Option Snapshot))} {isAborted : Bool}
    (ht : r.executor.live? t = some (.poll b policy phase, isAborted))
    (hx : r.binders[b]? = some x) : (r.startView 0 x.binder.view).2.Dropped t := by
  have hb := (h.orderly.known x.binder.view b).mpr ⟨x, hx, rfl⟩
  unfold startView
  rw [h.services]
  dsimp only [List.getElem?_cons_zero]
  rw [binderFor_known hb, startTask_eq h.services]
  obtain ⟨isAborted', ht'⟩ := s.registry.live?_start r.executor
    (.view x.binder.view s.session) (.poll b s.config.policy .start) ht
  refine ⟨b, x, policy, phase, isAborted', ht', hx, fun s' hs' => ?_⟩
  obtain rfl := List.mem_singleton.mp hs'
  exact Registry.task?_start_ne _ _ _ _ ht

end Run

variable [Host ρ σ]

/-- What a turn of a task leaves behind whose cycle is still open. -/
def Run.Leaves (r r' : Run (Watcher ρ) (Watched σ)) (b : BinderId) : Prop :=
  ∃ x x' new, r.binders[b]? = some x ∧ r'.binders[b]? = some x' ∧
    r'.world.calls = r.world.calls ++ new ∧ x.binder.Footprint x'.binder new ∧
    ∀ c, c ≠ b → r'.binders[c]? = r.binders[c]?

/-- What holds of the cycles in a run, whatever has happened to its service. -/
structure Run.CancelSafe (r : Run (Watcher ρ) (Watched σ)) : Prop where
  single : ∀ v session t t', r.InFlight v session t → r.InFlight v session t' → t = t'
  holder : ∀ b x, r.binders[b]? = some x → ∀ t, x.lock.holder = some t ↔ r.executor.HoldsAt t b
  drops : ∀ t b x policy phase isAborted,
    r.executor.live? t = some (.poll b policy phase, isAborted) → r.binders[b]? = some x →
    ∀ act : Act (Watched σ), act.Drops x.binder.view x.binder.session → (act.step r).Dropped t
  /-- The turn of a task that was stopped ends it, and does nothing else. -/
  inert : ∀ t, r.Dropped t → ∀ (more : List (Act (Watched σ))) r', (r.after more).Takes t r' →
    r'.world = (r.after more).world ∧ (r.after more).SameBinders r' ∧ r'.executor.live? t = none
  /-- The turns of a task that leave its cycle open, of which one at most asks. -/
  footprint : ∀ t r' b policy phase, r.Takes t r' →
    r'.executor.live? t = some (.poll b policy phase, false) → phase.Open →
    r.Leaves r' b ∧ (r.executor.HoldsAt t b → r'.world = r.world ∧ r.SameBinders r')
  stalls : r.run.Stalled
  released : r.Stalled → ∀ t, ¬ r.Dropped t

namespace Run

variable {r r' : Run (Watcher ρ) (Watched σ)} {t : TaskId} {b : BinderId} {policy : Policy}
  {phase : Phase (Fallible (Option Snapshot))} {x : Shared (Watcher ρ)}

omit [Host ρ σ] in
theorem leaves_same (hx : r.binders[b]? = some x) (hworld : r'.world = r.world)
    {x' : Shared (Watcher ρ)} (hbinders : r'.binders = r.binders.set b x')
    (hbinder : x'.binder = x.binder) : r.Leaves r' b := by
  have hlt := (List.getElem?_eq_some_iff.mp hx).1
  refine ⟨x, x', [], hx, ?_, ?_, hbinder ▸ .nothing, fun c hc => ?_⟩
  · rw [hbinders, List.getElem?_set_self hlt]
  · rw [hworld, List.append_nil]
  · rw [hbinders, List.getElem?_set_ne hc.symm]

/-- A turn that leaves a cycle open has waited, or has asked. -/
theorem PollTurn.leaves (hx : r.binders[b]? = some x)
    (hid : r.executor.live? t = some (.poll b policy phase, false))
    (hturn : PollTurn r t b policy x phase r') {b' : BinderId} {policy' : Policy}
    {phase' : Phase (Fallible (Option Snapshot))}
    (hid' : r'.executor.live? t = some (.poll b' policy' phase', false)) (hopen : phase'.Open) :
    b' = b ∧ r.Leaves r' b ∧ (phase.Holds → r'.world = r.world ∧ r.SameBinders r') := by
  have hlt := (List.getElem?_eq_some_iff.mp hx).1
  cases hturn with
  | idle =>
    rw [hid] at hid'
    cases hid'
    exact ⟨rfl, ⟨x, x, [], hx, hx, (List.append_nil _).symm, .nothing, fun _ _ => rfl⟩,
      fun _ => ⟨rfl, .refl r⟩⟩
  | joins hbusy =>
    rw [Executor.live?_setBody hid, if_pos rfl] at hid'
    cases hid'
    exact ⟨rfl, leaves_same hx rfl rfl rfl, fun hholds => hholds.elim⟩
  | waits hbusy =>
    rw [hid] at hid'
    cases hid'
    exact ⟨rfl, leaves_same hx rfl rfl rfl, fun hholds => hholds.elim⟩
  | @asks phase key answer c w hseeks hfree hbegin =>
    rw [Executor.live?_setBody hid, if_pos rfl] at hid'
    cases hid'
    obtain ⟨new, hcalls, hnew⟩ := emits_begin x.binder (r.selected x.selection) r.world
    rw [hbegin] at hcalls hnew
    obtain ⟨first, hfirst, hopens⟩ := hnew
    refine ⟨rfl, ⟨x, _, new, hx, List.getElem?_set_self hlt, hcalls, ?_, fun d hd => ?_⟩,
      fun hholds => absurd hholds (not_holds_of_seeks hseeks)⟩
    · rw [hfirst]
      exact .begun hopens
    · exact List.getElem?_set_ne hd.symm
  | @ends phase c outcome w hends =>
    have hsleeps := ended_live?_self hid hid'
    cases hsleeps
    exact hopen.elim

/-- Only a task that polls leaves a cycle open. -/
theorem Turned.leaves (hturned : Turned r t r')
    (hid' : r'.executor.live? t = some (.poll b policy phase, false)) (hopen : phase.Open) :
    r.Leaves r' b ∧ (r.executor.HoldsAt t b → r'.world = r.world ∧ r.SameBinders r') := by
  cases hturned with
  | gone hid =>
    rw [hid] at hid'
    contradiction
  | disposes hid =>
    have hgone : (Executor.finish _ t).live? t = some (Body.poll b policy phase, false) := hid'
    rw [Executor.live?_finish, if_pos rfl] at hgone
    contradiction
  | polls hx hid hturn =>
    obtain ⟨rfl, hleaves, hholds⟩ := hturn.leaves hx hid hid' hopen
    refine ⟨hleaves, fun hbefore => hholds ?_⟩
    exact ((Executor.holdsAt_iff hid b).mp hbefore).2
  | @beats access interval phase₀ hid =>
    rcases heartbeatTurn_cases r t access interval phase₀ with hsame | ⟨_, _, _, phase', hbeats⟩
    · rw [hsame, hid] at hid'
      cases hid'
    · rw [hbeats, Executor.live?_setBody hid, if_pos rfl] at hid'
      cases hid'

theorem Takes.leaves {s : Service (Watcher ρ)} (h : r.InOrder s none) (htakes : r.Takes t r')
    (hid' : r'.executor.live? t = some (.poll b policy phase, false)) (hopen : phase.Open) :
    r.Leaves r' b ∧ (r.executor.HoldsAt t b → r'.world = r.world ∧ r.SameBinders r') := by
  obtain ⟨executor, hnext, rfl⟩ := htakes
  have hturned := turn_cases (popped_inOrder h hnext)
  obtain ⟨rest, -, rfl⟩ := Executor.next?_eq_some_iff.mp hnext
  exact hturned.leaves hid' hopen

omit [Host ρ σ] in
theorem InOrder.single {s : Service (Watcher ρ)} (h : r.InOrder s none) {v : View}
    {session : SessionId} {t' : TaskId} (ht : r.InFlight v session t)
    (ht' : r.InFlight v session t') : t = t' := by
  obtain ⟨b, x, hx, hv, -, hholds⟩ := ht
  obtain ⟨b', x', hx', hv', -, hholds'⟩ := ht'
  have hb := (h.orderly.known v b).mpr ⟨x, hx, hv⟩
  have hb' := (h.orderly.known v b').mpr ⟨x', hx', hv'⟩
  obtain rfl : b = b' := Option.some.inj (hb.symm.trans hb')
  have hholder := (h.orderly.holder b x hx t).mpr hholds
  have hholder' := (h.orderly.holder b x hx t').mpr hholds'
  exact Option.some.inj (hholder.symm.trans hholder')

omit [Host ρ σ] in
theorem InOrder.released {s : Service (Watcher ρ)} (h : r.InOrder s none) (hstalled : r.Stalled)
    (t : TaskId) : ¬ r.Dropped t := by
  intro hdropped
  have hgone := hdropped.gone h
  obtain ⟨b, x, policy, phase, isAborted, hid, -⟩ := hdropped
  cases isAborted with
  | false => exact hgone.2 _ hid
  | true =>
    have hawaits := h.orderly.doomed t _ hid nofun
    rw [Executor.Awaits, hstalled.1, hstalled.2] at hawaits
    rcases hawaits with hready | hfresh
    · contradiction
    · contradiction

theorem InOrder.drops {s : Service (Watcher ρ)} (h : r.InOrder s none) {isAborted : Bool}
    (ht : r.executor.live? t = some (.poll b policy phase, isAborted))
    (hx : r.binders[b]? = some x) {act : Act (Watched σ)}
    (hact : act.Drops x.binder.view x.binder.session) : (act.step r).Dropped t := by
  have hsession := (h.orderly.own x (List.mem_of_getElem? hx)).1
  cases hact with
  | stop =>
    show (r.stopTask 0 _).2.Dropped t
    rw [stopTask_eq h.services]
    obtain ⟨isAborted', ht'⟩ := s.registry.live?_stop r.executor
      (.view x.binder.view x.binder.session) ht
    refine ⟨b, x, policy, phase, isAborted', ht', hx, fun s' hs' => ?_⟩
    obtain rfl := List.mem_singleton.mp hs'
    rw [Registry.task?_stop, if_pos (by rw [hsession])]
    exact nofun
  | stopAll =>
    show (r.stopAll 0).2.Dropped t
    unfold stopAll setService
    simp only [h.services]
    obtain ⟨isAborted', ht'⟩ := s.registry.live?_stopAll r.executor ht
    refine ⟨b, x, policy, phase, isAborted', ht', hx, fun s' hs' => ?_⟩
    obtain rfl := List.mem_singleton.mp hs'
    exact nofun
  | startView => exact startView_drops h ht hx
  | selectPage hv hpage =>
    show (r.selectPage 0 _).2.Dropped t
    rw [selectPage_eq h.services hpage, ← hv]
    exact startView_drops (r := r.turnedTo s _) ⟨h.services, h.orderly⟩ ht hx

theorem InOrder.cancelSafe {s : Service (Watcher ρ)} (h : r.InOrder s none) : r.CancelSafe where
  single v session t t' := h.single
  holder := h.orderly.holder
  drops _ _ _ _ _ _ ht hx _ hact := h.drops ht hx hact
  inert t hdropped more r' htakes := by
    have hgone := (hdropped.gone h).leads (after_leads h more)
    exact hgone.takes htakes
  footprint t r' b policy phase htakes hid hopen := htakes.leaves h hid hopen
  stalls := run_stalls h
  released := h.released

end Run

/-- Whatever is done with a service and its page, its cycles are sequential, and stopping
one of them is safe. -/
theorem cycles_cancelSafe (world : σ) (session : SessionId) (config : Config) (access : ρ)
    (acts : List (Act σ)) :
    (Run.underWatch world session config access acts).unwatched =
        (Run.opened world session config access).after acts ∧
      (Run.underWatch world session config access acts).CancelSafe := by
  obtain ⟨s, h, -⟩ := Run.after_inOrder
    (Run.opened_inOrder ⟨world, []⟩ session config (Watcher.mk access)) (acts.map Act.watched)
  exact ⟨Run.underWatch_unwatched world session config access acts, h.cancelSafe⟩

/-! ### A stopped cycle that has removed an entry

The attempt to paint from the cache may find something that is no snapshot, which it
removes. It does so before the request, so that the cycle can still be stopped. -/

/-- A page whose store has no snapshot under the key of the history, and whose server holds
its answer back. -/
def spoiltPage : Page where
  store := Store.empty.put (View.txHistory.cacheKey SessionId.anonymous.text) "x"
  answers := [(.txHistory, [{ isHeld := true }])]

/-- The view is mounted after its task was started, and stopped while it waits. -/
def spoiltActs : List (Act Page) :=
  [.startView .txHistory, .change (·.mountView .txHistory), .run,
    .stop (.view .txHistory .anonymous)]

/-- The run in which the only task was stopped while it waited for its answer. -/
def spoiltRun : Run (Watcher PageAccess) (Watched Page) :=
  Run.underWatch spoiltPage .anonymous {} .only spoiltActs

theorem dropped_after_removal :
    spoiltRun.Dropped 0 ∧ spoiltRun.InFlight .txHistory .anonymous 0 ∧
      spoiltRun.world.calls =
        [.read (View.txHistory.cacheKey SessionId.anonymous.text) (some "x"),
          .removed (View.txHistory.cacheKey SessionId.anonymous.text),
          .asked ⟨.txHistory, .anonymous, none⟩ (.held "tx_history" (.ok none))] ∧
      spoiltRun.world.world.store ≠ spoiltPage.store := by
  refine ⟨⟨0, _, _, .waiting (.ok none), true, rfl, rfl, fun s hs => ?_⟩,
    ⟨0, _, rfl, rfl, rfl, _, true, rfl, rfl, trivial⟩, rfl, by decide⟩
  obtain rfl := List.mem_singleton.mp hs
  exact nofun

end WalletPage
