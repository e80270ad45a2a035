import WalletPage.Proofs.TaskLaws
import WalletPage.Run.Service
import Mathlib.Logic.Relation

/-! Runs of one service. What can happen to a service is an act: a call of the page, a
turn, the end of a sleep, the release of an answer, or a change of the page from outside.
Every act is a chain of moves, which are small enough for an invariant to be proved of
each. The selection of a page is no move: it changes what the moves of a run go by. -/

namespace WalletPage

variable {ρ σ : Type}

/-- What can happen to a service. -/
inductive Act (σ : Type) where
  | start
  | startView (v : View)
  | selectPage (page : PageNumber)
  | stop (key : TaskKey)
  | stopAll
  /-- The new tasks are queued for a turn. -/
  | enroll
  | turn
  /-- One sleep ends. -/
  | awaken (id : TaskId)
  /-- One answer is released. -/
  | deliver (id : TaskId)
  /-- All sleeps end. -/
  | fire
  /-- The answers that are held back under a key are released. -/
  | release (key : String)
  /-- All tasks take their turns until none has one. -/
  | run
  /-- Others do something with the page. -/
  | change (f : σ → σ)

/-- A run that has just one service, which has not started anything. -/
def Run.opened [Host ρ σ] (world : σ) (session : SessionId) (config : Config) (access : ρ) :
    Run ρ σ :=
  (Run.addService { world } session config access).2

/-- A run after an act. -/
def Act.step [Host ρ σ] (r : Run ρ σ) : Act σ → Run ρ σ
  | start => (r.start 0).2
  | startView v => (r.startView 0 v).2
  | selectPage page => (r.selectPage 0 page).2
  | stop key => (r.stopTask 0 key).2
  | stopAll => (r.stopAll 0).2
  | enroll => { r with executor := r.executor.enroll }
  | turn => r.next?.getD r
  | awaken id => Run.resume Run.awakened r id
  | deliver id => Run.resume Run.answered r id
  | fire => r.fire.2
  | release key => (r.releaseKey key).2
  | run => r.run
  | change f => { r with world := f r.world }

/-- A run after some acts. -/
def Run.after [Host ρ σ] (r : Run ρ σ) (acts : List (Act σ)) : Run ρ σ :=
  acts.foldl Act.step r

/-- The binder of a view as a service makes it. -/
def Service.newBinder (s : Service ρ) (v : View) : Binder ρ where
  view := v
  session := s.session
  baseUrl := s.config.baseUrl
  access := s.access

/-- A service that has come to know a binder. -/
def Service.withBinder (s : Service ρ) (v : View) (b : BinderId) : Service ρ :=
  { s with binders := s.binders ++ [(v, b)] }

/-- What a service starts under a key: the first cycle of a binder that it has, or its
heartbeat. -/
inductive Service.Begins (s : Service ρ) : TaskKey → Body ρ → Prop
  | poll {v : View} {b : BinderId} (hb : s.binders.lookup v = some b) :
    Begins s (.view v s.session) (.poll b s.config.policy .start)
  | heartbeat : Begins s .heartbeat (.heartbeat s.access s.config.heartbeatInterval .start)

/-- Whether the registry entry of a service for a key has no task that goes on. -/
def Run.Halted (r : Run ρ σ) (s : Service ρ) (key : TaskKey) : Prop :=
  ∀ t, s.registry.task? key = some t → ∀ body, r.executor.live? t ≠ some (body, false)

namespace Run

variable [Host ρ σ]

/-- One move of a run. `outside` is what others may do with the page meanwhile. -/
inductive Move (outside : σ → σ → Prop) : Run ρ σ → Run ρ σ → Prop
  | turn {r r' : Run ρ σ} (hnext : r.next? = some r') : Move outside r r'
  | enroll (r : Run ρ σ) : Move outside r { r with executor := r.executor.enroll }
  | resume (r : Run ρ σ) {change : Body ρ → Body ρ}
    (hchange : change = awakened ∨ change = answered) (id : TaskId) :
    Move outside r (resume change r id)
  | forget (r : Run ρ σ) (sleepers : List TaskId) (held : List (String × TaskId)) :
    Move outside r { r with sleepers, held }
  | change (r : Run ρ σ) {w : σ} (hw : outside r.world w) : Move outside r { r with world := w }
  | log (r : Run ρ σ) (access : ρ) (entry : LogEntry) :
    Move outside r (r.perform (Host.log access entry))
  | sweep (r : Run ρ σ) (access : ρ) : Move outside r (r.act (Cache.sweep access)).2
  | abort (r : Run ρ σ) (id : TaskId) :
    Move outside r { r with executor := r.executor.abort id }
  | bind (r : Run ρ σ) {s : Service ρ} {v : View} (hs : r.services = [s])
    (hnew : s.binders.lookup v = none) : Move outside r (r.binderFor 0 s v).2
  | strike (r : Run ρ σ) {s : Service ρ} {registry : Registry} (hs : r.services = [s])
    (hstruck : ∀ key, registry.task? key = s.registry.task? key ∨
      registry.task? key = none ∧ r.Halted s key) :
    Move outside r { r with services := [{ s with registry }] }
  | spawn (r : Run ρ σ) {s : Service ρ} {key : TaskKey} {body : Body ρ} {id : TaskId}
    {executor : Executor (Body ρ)} {registry : Registry} (hs : r.services = [s])
    (hbody : s.Begins key body) (hhalted : r.Halted s key)
    (hspawn : r.executor.spawn body = some (id, executor))
    (hregistry : ∀ k, registry.task? k = if k = key then some id else s.registry.task? k) :
    Move outside r { r with executor, services := [{ s with registry }] }

/-- Moves one after the other. -/
abbrev Moves (outside : σ → σ → Prop) : Run ρ σ → Run ρ σ → Prop :=
  Relation.ReflTransGen (Move outside)

end Run

/-- Whether two services differ in nothing but their tasks and binders. -/
structure Service.Kin (s s' : Service ρ) : Prop where
  session : s'.session = s.session
  config : s'.config = s.config
  access : s'.access = s.access
  selection : s'.selection = s.selection

theorem Service.Kin.refl (s : Service ρ) : s.Kin s := ⟨rfl, rfl, rfl, rfl⟩

theorem Service.Kin.trans {s s' s'' : Service ρ} (h : s.Kin s') (k : s'.Kin s'') : s.Kin s'' :=
  ⟨k.session.trans h.session, k.config.trans h.config, k.access.trans h.access,
    k.selection.trans h.selection⟩

namespace Run

variable {r : Run ρ σ} {s : Service ρ} {outside : σ → σ → Prop} {v : View}

/-- A run whose service has told the task of a key to stop. -/
def stopped (r : Run ρ σ) (s : Service ρ) (key : TaskKey) : Run ρ σ :=
  { r with executor := (s.registry.stop r.executor key).2.2 }

variable (r s)

theorem halted_stopped (key : TaskKey) : (r.stopped s key).Halted s key :=
  fun _ ht body => s.registry.not_live?_stopped r.executor key ht body

variable [Host ρ σ]

theorem stopped_moves (key : TaskKey) : Moves outside r (r.stopped s key) := by
  unfold stopped
  rw [Registry.executor_stop]
  cases s.registry.task? key with
  | some id => exact .single (.abort r id)
  | none => exact .refl

variable {r s}

omit [Host ρ σ] in
theorem first_service (hs : r.services = [s]) : r.services[0]? = some s := by
  rw [hs]
  rfl

omit [Host ρ σ] in
theorem startTask_eq (hs : r.services = [s]) (key : TaskKey) (body : Body ρ) :
    (r.startTask 0 key body).2 =
      { r with
        executor := (s.registry.start r.executor key body).2.2
        services := [{ s with registry := (s.registry.start r.executor key body).2.1 }] } := by
  unfold startTask setService
  simp only [hs]
  rfl

omit [Host ρ σ] in
theorem stopTask_eq (hs : r.services = [s]) (key : TaskKey) :
    (r.stopTask 0 key).2 =
      { r.stopped s key with
        services := [{ s with registry := (s.registry.stop r.executor key).2.1 }] } := by
  unfold stopTask setService
  simp only [hs]
  rfl

/-- The registry forgets a task that has been told to stop. -/
theorem strike_stopped (hs : r.services = [s]) (key : TaskKey) :
    Moves outside (r.stopped s key)
      { r.stopped s key with
        services := [{ s with registry := (s.registry.stop r.executor key).2.1 }] } := by
  refine .single (.strike _ hs fun k => ?_)
  rw [Registry.task?_stop]
  by_cases hk : k = key
  · subst hk
    exact .inr ⟨if_pos rfl, r.halted_stopped s k⟩
  · exact .inl (if_neg hk)

/-- A start goes on from where the old task has been told to stop. -/
theorem startTask_moves (hs : r.services = [s]) {key : TaskKey} {body : Body ρ}
    (hbody : s.Begins key body) : Moves outside (r.stopped s key) (r.startTask 0 key body).2 := by
  rw [startTask_eq hs]
  cases hspawn : (s.registry.stop r.executor key).2.2.spawn body with
  | some spawned =>
    obtain ⟨id, executor⟩ := spawned
    obtain ⟨hexecutor, hregistry⟩ := Registry.start_spawned _ _ _ _ hspawn
    rw [hexecutor]
    exact .single (.spawn _ hs hbody (r.halted_stopped s key) hspawn hregistry)
  | none =>
    rw [Registry.start_refused _ _ _ _ hspawn]
    exact strike_stopped hs key

theorem stopTask_moves (hs : r.services = [s]) (key : TaskKey) :
    Moves outside r (r.stopTask 0 key).2 := by
  rw [stopTask_eq hs]
  exact (r.stopped_moves s key).trans (strike_stopped hs key)

/-! ### Starting the tasks of views -/

theorem binderFor_known {b : BinderId} (hb : s.binders.lookup v = some b) :
    r.binderFor 0 s v = (b, r) := by
  unfold binderFor
  rw [hb]

/-- A view without a binder gets one, which is painted from the cache. -/
theorem binderFor_new (hs : r.services = [s]) (hnew : s.binders.lookup v = none) :
    r.binderFor 0 s v = (r.binders.length,
      { r with
        world := ((s.newBinder v).hydrate.run r.world).2
        binders := r.binders ++ [{
          binder := ((s.newBinder v).hydrate.run r.world).1.1, selection := s.selection }]
        services := [s.withBinder v r.binders.length] }) := by
  unfold binderFor setService
  rw [hnew]
  simp only [act, addBinder, hs]
  rfl

/-- The start of a view leads to a service of the same kind. -/
theorem startView_serves (hs : r.services = [s]) (v : View) :
    ∃ s', (r.startView 0 v).2.services = [s'] ∧ s.Kin s' := by
  unfold startView
  rw [hs]
  dsimp only [List.getElem?_cons_zero]
  cases hb : s.binders.lookup v with
  | some b =>
    rw [binderFor_known hb, startTask_eq hs]
    exact ⟨_, rfl, ⟨rfl, rfl, rfl, rfl⟩⟩
  | none =>
    rw [binderFor_new hs hb, startTask_eq rfl]
    exact ⟨_, rfl, ⟨rfl, rfl, rfl, rfl⟩⟩

theorem startView_moves (hs : r.services = [s]) (v : View) :
    Moves outside (r.stopped s (.view v s.session)) (r.startView 0 v).2 := by
  unfold startView
  rw [hs]
  dsimp only [List.getElem?_cons_zero]
  cases hb : s.binders.lookup v with
  | some b =>
    rw [binderFor_known hb]
    exact startTask_moves hs (.poll hb)
  | none =>
    have hserves : (r.binderFor 0 s v).2.services = [s.withBinder v r.binders.length] := by
      rw [binderFor_new hs hb]
    have hfirst : (r.binderFor 0 s v).1 = r.binders.length := by
      rw [binderFor_new hs hb]
    have hbegins : (s.withBinder v r.binders.length).Begins (.view v s.session)
        (.poll r.binders.length s.config.policy .start) :=
      .poll ((lookup_concat hb _ v).trans (if_pos rfl))
    have hsame : ((r.stopped s (.view v s.session)).binderFor 0 s v).2 =
        (r.binderFor 0 s v).2.stopped (s.withBinder v r.binders.length) (.view v s.session) := by
      rw [binderFor_new hs hb, binderFor_new (r := r.stopped s _) hs hb]
      rfl
    refine .head (.bind (r.stopped s (.view v s.session)) hs hb) ?_
    rw [hsame, hfirst]
    exact startTask_moves hserves hbegins

theorem startViews_moves (hs : r.services = [s]) (views : List View) :
    Moves outside r (r.startViews 0 views).2 ∧
      ∃ s', (r.startViews 0 views).2.services = [s'] ∧ s.Kin s' := by
  induction views generalizing r s with
  | nil => exact ⟨.refl, s, hs, .refl s⟩
  | cons v rest ih =>
    have hmoves : Moves outside r (r.startView 0 v).2 :=
      (r.stopped_moves s _).trans (startView_moves hs v)
    obtain ⟨s', hs', hkin⟩ := startView_serves hs v
    unfold startViews
    generalize r.startView 0 v = started at hmoves hs'
    obtain ⟨result, r'⟩ := started
    cases result with
    | ok _ =>
      obtain ⟨hrest, s'', hs'', hkin'⟩ := ih hs'
      exact ⟨hmoves.trans hrest, s'', hs'', hkin.trans hkin'⟩
    | error p => exact ⟨hmoves, s', hs', hkin⟩

theorem startHeartbeat_moves {s₀ : Service ρ} (hs : r.services = [s]) (hkin : s₀.Kin s) :
    Moves outside r (r.startHeartbeat 0 s₀).2 := by
  unfold startHeartbeat
  split
  · have hbegins :
        s.Begins .heartbeat (.heartbeat s₀.access s₀.config.heartbeatInterval .start) := by
      rw [← hkin.access, ← hkin.config]
      exact .heartbeat
    exact (r.stopped_moves s _).trans (startTask_moves hs hbegins)
  · exact .refl

theorem start_moves (hs : r.services = [s]) : Moves outside r (r.start 0).2 := by
  have hswept : Moves outside r (r.act (Cache.sweep s.access)).2 := .single (.sweep r s.access)
  unfold start
  rw [hs]
  dsimp only [List.getElem?_cons_zero]
  generalize hr₁ : (r.act (Cache.sweep s.access)).2 = r₁ at hswept
  have hs₁ : r₁.services = [s] := hr₁ ▸ hs
  obtain ⟨hviews, s', hs', hkin⟩ : Moves outside r₁ (r₁.startViews 0 View.all).2 ∧ _ :=
    startViews_moves hs₁ View.all
  generalize r₁.startViews 0 View.all = views at hviews hs'
  obtain ⟨result, r₂⟩ := views
  cases result with
  | error p => exact hswept.trans hviews
  | ok _ =>
    have hbeat : Moves outside r₂ (r₂.startHeartbeat 0 s).2 := startHeartbeat_moves hs' hkin
    dsimp only
    generalize r₂.startHeartbeat 0 s = beat at hbeat
    obtain ⟨result, r₃⟩ := beat
    have hmoves := (hswept.trans hviews).trans hbeat
    cases result with
    | error p => exact hmoves
    | ok _ => exact hmoves.tail (.log r₃ _ _)

/-! ### Stopping, waking and running -/

theorem aborts_moves (r : Run ρ σ) (entries : List (TaskKey × TaskId)) :
    Moves outside r
      { r with executor := entries.foldl (fun e (_, id) => e.abort id) r.executor } := by
  induction entries generalizing r with
  | nil => exact .refl
  | cons entry rest ih => exact .head (.abort r entry.2) (ih _)

theorem stopAll_moves (hs : r.services = [s]) : Moves outside r (r.stopAll 0).2 := by
  unfold stopAll setService
  simp only [hs]
  refine (r.aborts_moves s.registry.entries).trans (.head (.strike _ hs fun key => ?_)
    (.single (.log _ _ _)))
  refine .inr ⟨rfl, fun t ht => Registry.not_live?_aborted _ (k := key) ?_⟩
  obtain ⟨before, after, hentries, -⟩ := List.lookup_eq_some_iff.mp ht
  rw [hentries]
  exact List.mem_append_right _ List.mem_cons_self

theorem resumes_moves {change : Body ρ → Body ρ} (hchange : change = awakened ∨ change = answered)
    (r : Run ρ σ) (ids : List TaskId) : Moves outside r (ids.foldl (resume change) r) := by
  induction ids generalizing r with
  | nil => exact .refl
  | cons id rest ih => exact .head (.resume r hchange id) (ih _)

theorem settle_moves (n : Nat) (r : Run ρ σ) : Moves outside r (settle next? n r) := by
  induction n generalizing r with
  | zero => exact .refl
  | succ n ih =>
    unfold settle
    cases hnext : r.next? with
    | some r' => exact .head (.turn hnext) (ih r')
    | none => exact .refl

end Run

/-- Whether an act of others does no more with the page than they may. -/
def Act.Within (outside : σ → σ → Prop) (act : Act σ) : Prop :=
  ∀ f, act = .change f → ∀ w, outside w (f w)

theorem Act.within_any (act : Act σ) : act.Within fun _ _ => True :=
  fun _ _ _ => trivial

variable {r : Run ρ σ} {s : Service ρ} {outside : σ → σ → Prop} [Host ρ σ]

/-- Every act but the selection of a page is a chain of moves. -/
theorem Act.step_moves (hs : r.services = [s]) {act : Act σ} (hact : act.Within outside)
    (hselect : ∀ page, act ≠ .selectPage page) : Run.Moves outside r (act.step r) := by
  cases act with
  | start => exact Run.start_moves hs
  | startView v => exact (r.stopped_moves s _).trans (Run.startView_moves hs v)
  | selectPage page => exact absurd rfl (hselect page)
  | stop key => exact Run.stopTask_moves hs key
  | stopAll => exact Run.stopAll_moves hs
  | enroll => exact .single (.enroll r)
  | turn =>
    show Run.Moves outside r (r.next?.getD r)
    cases hnext : r.next? with
    | some r' => exact .single (.turn hnext)
    | none => exact .refl
  | awaken id => exact .single (.resume r (.inl rfl) id)
  | deliver id => exact .single (.resume r (.inr rfl) id)
  | fire => exact .head (.forget r [] r.held) (Run.resumes_moves (.inl rfl) _ _)
  | release key =>
    exact .head (.forget r r.sleepers (r.held.filter (·.1 ≠ key)))
      (Run.resumes_moves (.inr rfl) _ _)
  | run => exact .head (.enroll r) (Run.settle_moves _ _)
  | change f => exact .single (.change r (hact f rfl r.world))

namespace Run

/-- A run after a page of the transaction history was selected, before it is asked for. -/
def turnedTo (r : Run ρ σ) (s : Service ρ) (page : PageNumber) : Run ρ σ :=
  { r with selections := r.selections.set s.selection (some page) }

theorem selectPage_eq (hs : r.services = [s]) {page : PageNumber} (hpage : page ≠ 0) :
    (r.selectPage 0 page).2 = ((r.turnedTo s page).startView 0 .txHistory).2 := by
  unfold selectPage
  rw [first_service hs]
  dsimp only
  unfold select
  rw [if_neg hpage]
  rfl

/-- The selection of a page tells the task of the transaction history to stop, takes the
new page, and goes on with moves. -/
theorem selectPage_moves (hs : r.services = [s]) {page : PageNumber} (hpage : page ≠ 0) :
    Moves outside ((r.stopped s (.view .txHistory s.session)).turnedTo s page)
      (r.selectPage 0 page).2 := by
  rw [selectPage_eq hs hpage]
  exact startView_moves (r := r.turnedTo s page) hs .txHistory

theorem selectPage_zero (hs : r.services = [s]) :
    r.selectPage 0 0 = (.error (ValidationProblem.invalidPage "pages start at 1"), r) := by
  unfold selectPage select
  simp only [hs]
  rfl

end Run

/-- Whether every move of a run of one service keeps a property, and so does every selection
of a page whose task was told to stop. -/
structure Run.Invariant (outside : σ → σ → Prop) (P : Run ρ σ → Prop) : Prop where
  one : ∀ r, P r → ∃ s, r.services = [s]
  move : ∀ r r', P r → Run.Move outside r r' → P r'
  select : ∀ r s page, P r → r.services = [s] → r.Halted s (.view .txHistory s.session) →
    P (r.turnedTo s page)

namespace Run.Invariant

variable {P : Run ρ σ → Prop} {r' : Run ρ σ} (hP : Invariant outside P)

include hP

theorem moves (hmoves : Moves outside r r') (h : P r) : P r' := by
  induction hmoves with
  | refl => exact h
  | tail _ hlast ih => exact hP.move _ _ ih hlast

theorem step {act : Act σ} (hact : act.Within outside) (h : P r) : P (act.step r) := by
  obtain ⟨s, hs⟩ := hP.one r h
  by_cases hpage : ∃ page, act = .selectPage page
  · obtain ⟨page, rfl⟩ := hpage
    show P (r.selectPage 0 page).2
    by_cases hzero : page = 0
    · rw [hzero, selectPage_zero hs]
      exact h
    · have hstopped := hP.moves (r.stopped_moves s (.view .txHistory s.session)) h
      have hturned := hP.select _ s page hstopped hs (r.halted_stopped s _)
      exact hP.moves (selectPage_moves hs hzero) hturned
  · exact hP.moves (Act.step_moves hs hact fun page heq => hpage ⟨page, heq⟩) h

/-- What every move keeps is kept by every act, and so by acts one after the other. -/
theorem after {acts : List (Act σ)} (hacts : ∀ act ∈ acts, act.Within outside) (h : P r) :
    P (r.after acts) := by
  induction acts generalizing r with
  | nil => exact h
  | cons act rest ih =>
    rw [List.forall_mem_cons] at hacts
    exact ih hacts.2 (hP.step hacts.1 h)

end Run.Invariant

end WalletPage
