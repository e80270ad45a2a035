import WalletPage.Proofs.OrderlyRuns
import WalletPage.Proofs.RegistryRuns
import WalletPage.Proofs.ShutdownSafety

/-! The registry of a service. What happens to a service is for its registry and its tasks
what can happen to any registry: starts, stops and turns, in which bodies go on or come to
their ends. So a service, too, is right about its tasks. -/

namespace WalletPage

variable {ρ σ : Type}

/-- The registry of a service with the tasks of its run, and what has happened to them. -/
def Run.roster (r : Run ρ σ) (s : Service ρ) (history : List TaskEvent) : Roster (Body ρ) where
  registry := s.registry
  executor := r.executor
  history := history

/-- Whether a run of a service leads to another by acts of its registry and its tasks. -/
def Run.Plays (r r' : Run ρ σ) : Prop :=
  ∀ s, r.services = [s] → ∃ s', r'.services = [s'] ∧ s.Kin s' ∧ ∀ history, ∃ acts history',
    (r.roster s history).after acts = r'.roster s' history'

namespace Executor

variable {β : Type} {e : Executor β} {id : TaskId} {body : β}

theorem setBody_self {ab : Bool} (h : e.live? id = some (body, ab)) : e.setBody id body = e := by
  obtain ⟨hlt, hid⟩ := List.getElem?_eq_some_iff.mp (live?_eq_some_iff.mp h)
  unfold setBody setTask
  rw [h]
  dsimp only
  rw [← hid, List.set_getElem_self]

theorem rouse_eq_foldl (e : Executor β) (next : Option TaskId) :
    next.toList.foldl wake e = e.rouse next := by
  cases next <;> rfl

end Executor

namespace Roster

variable {β : Type} {registry : Registry} {e e₀ : Executor β} {id : TaskId} {body : β}
  {history : List TaskEvent}

/-! ### Turns as acts -/

theorem turn_gone (hnext : e₀.next? = some (id, e)) (hid : e.live? id = none) :
    RosterAct.step ⟨registry, e₀, history⟩ (.turn none []) = ⟨registry, e, history⟩ := by
  unfold RosterAct.step takeTurn
  rw [hnext]
  dsimp only [List.foldl_nil]
  rw [hid]

theorem turn_setBody (hnext : e₀.next? = some (id, e)) (hid : e.live? id = some (body, false))
    (woken : Option TaskId) (new : β) :
    RosterAct.step ⟨registry, e₀, history⟩ (.turn (some new) woken.toList) =
      ⟨registry, (e.rouse woken).setBody id new, history ++ [.stepped id]⟩ := by
  unfold RosterAct.step takeTurn
  rw [hnext]
  dsimp only
  rw [Executor.rouse_eq_foldl, Executor.live?_rouse, hid]

theorem turn_finish (hnext : e₀.next? = some (id, e)) {ab : Bool}
    (hid : e.live? id = some (body, ab)) (woken : Option TaskId) : ∃ history',
    RosterAct.step ⟨registry, e₀, history⟩ (.turn none woken.toList) =
      ⟨registry, (e.rouse woken).finish id, history'⟩ := by
  unfold RosterAct.step takeTurn
  rw [hnext]
  dsimp only
  rw [Executor.rouse_eq_foldl, Executor.live?_rouse, hid]
  cases ab with
  | true => exact ⟨_, rfl⟩
  | false => exact ⟨_, rfl⟩

end Roster

namespace Run

variable {r r' r'' : Run ρ σ} {s : Service ρ}

/-- What the acts of a roster leave alone may change. -/
theorem Plays.of_same {s' : Service ρ} (hs : r.services = [s]) (hs' : r'.services = [s'])
    (hkin : s.Kin s') (hregistry : s'.registry = s.registry)
    (hexecutor : r'.executor = r.executor) : r.Plays r' := by
  intro s₁ hs₁
  obtain rfl := List.singleton_inj.mp (hs₁.symm.trans hs)
  refine ⟨s', hs', hkin, fun history => ⟨[], history, ?_⟩⟩
  rw [roster, roster, hregistry, hexecutor]
  rfl

theorem Plays.refl (r : Run ρ σ) : r.Plays r :=
  fun s hs => ⟨s, hs, .refl s, fun history => ⟨[], history, rfl⟩⟩

theorem Plays.trans (h : r.Plays r') (k : r'.Plays r'') : r.Plays r'' := by
  intro s hs
  obtain ⟨s', hs', hkin, hfirst⟩ := h s hs
  obtain ⟨s'', hs'', hkin', hrest⟩ := k s' hs'
  refine ⟨s'', hs'', hkin.trans hkin', fun history => ?_⟩
  obtain ⟨first, history', hfirst⟩ := hfirst history
  obtain ⟨rest, history'', hrest⟩ := hrest history'
  refine ⟨first ++ rest, history'', ?_⟩
  rw [← hrest, ← hfirst]
  exact List.foldl_append

theorem Plays.services (h : r.Plays r') (hs : r.services = [s]) :
    ∃ s', r'.services = [s'] ∧ s.Kin s' := by
  obtain ⟨s', hs', hkin, -⟩ := h s hs
  exact ⟨s', hs', hkin⟩

/-- One act of the registry and its tasks. -/
theorem Plays.single {s' : Service ρ} (hs : r.services = [s]) (hs' : r'.services = [s'])
    (hkin : s.Kin s') (act : RosterAct (Body ρ))
    (hact : ∀ history, ∃ history',
      act.step (r.roster s history) = r'.roster s' history') : r.Plays r' := by
  intro s₁ hs₁
  obtain rfl := List.singleton_inj.mp (hs₁.symm.trans hs)
  refine ⟨s', hs', hkin, fun history => ?_⟩
  obtain ⟨history', hstep⟩ := hact history
  exact ⟨[act], history', hstep⟩

/-! ### Starting, stopping and waking -/

theorem startTask_plays (hs : r.services = [s]) (key : TaskKey) (body : Body ρ) :
    r.Plays (r.startTask 0 key body).2 := by
  rw [startTask_eq hs]
  exact .single hs rfl ⟨rfl, rfl, rfl, rfl⟩ (.start key body) fun history => ⟨_, rfl⟩

theorem stopTask_plays (hs : r.services = [s]) (key : TaskKey) :
    r.Plays (r.stopTask 0 key).2 := by
  rw [stopTask_eq hs]
  exact .single hs rfl ⟨rfl, rfl, rfl, rfl⟩ (.stop key) fun history => ⟨_, rfl⟩

theorem enroll_plays (hs : r.services = [s]) :
    r.Plays { r with executor := r.executor.enroll } :=
  .single hs hs (.refl s) .enroll fun history => ⟨history, rfl⟩

theorem resume_plays (hs : r.services = [s]) (change : Body ρ → Body ρ) (id : TaskId) :
    r.Plays (resume change r id) := by
  unfold resume
  cases hid : r.executor.live? id with
  | none => exact .refl r
  | some task =>
    exact .single hs hs (.refl s) (.resume id (change task.1)) fun history => ⟨history, rfl⟩

theorem resumes_plays (hs : r.services = [s]) (change : Body ρ → Body ρ) (ids : List TaskId) :
    r.Plays (ids.foldl (resume change) r) := by
  induction ids generalizing r s with
  | nil => exact .refl r
  | cons id rest ih =>
    have hfirst := resume_plays hs change id
    obtain ⟨s', hs', -⟩ := hfirst.services hs
    exact hfirst.trans (ih hs')

section

variable [Host ρ σ]

theorem stopAll_plays (hs : r.services = [s]) : r.Plays (r.stopAll 0).2 := by
  rw [stopAll_eq hs]
  exact .single hs rfl ⟨rfl, rfl, rfl, rfl⟩ .stopAll fun history => ⟨_, rfl⟩

theorem startView_plays (hs : r.services = [s]) (v : View) : r.Plays (r.startView 0 v).2 := by
  unfold startView
  rw [first_service hs]
  dsimp only
  cases hb : s.binders.lookup v with
  | some b =>
    rw [binderFor_known hb]
    exact startTask_plays hs _ _
  | none =>
    have hserves : (r.binderFor 0 s v).2.services = [s.withBinder v r.binders.length] := by
      rw [binderFor_new hs hb]
    have hknown : r.Plays (r.binderFor 0 s v).2 := by
      refine .of_same hs hserves ⟨rfl, rfl, rfl, rfl⟩ rfl ?_
      rw [binderFor_new hs hb]
    exact hknown.trans (startTask_plays hserves _ _)

theorem startViews_plays (hs : r.services = [s]) (views : List View) :
    r.Plays (r.startViews 0 views).2 := by
  induction views generalizing r s with
  | nil => exact .refl r
  | cons v rest ih =>
    have hfirst := startView_plays hs v
    obtain ⟨s', hs', -⟩ := hfirst.services hs
    unfold startViews
    generalize r.startView 0 v = started at hfirst hs'
    obtain ⟨result, r'⟩ := started
    cases result with
    | ok _ => exact hfirst.trans (ih hs')
    | error p => exact hfirst

omit [Host ρ σ] in
theorem startHeartbeat_plays (hs : r.services = [s]) (s₀ : Service ρ) :
    r.Plays (r.startHeartbeat 0 s₀).2 := by
  unfold startHeartbeat
  split
  · exact startTask_plays hs _ _
  · exact .refl r

theorem start_plays (hs : r.services = [s]) : r.Plays (r.start 0).2 := by
  unfold start
  rw [first_service hs]
  dsimp only
  have hswept : r.Plays (r.act (Cache.sweep s.access)).2 := .of_same hs hs (.refl s) rfl rfl
  have hviews := hswept.trans (startViews_plays (r := (r.act _).2) hs View.all)
  obtain ⟨s', hs', -⟩ := hviews.services hs
  generalize (r.act (Cache.sweep s.access)).2.startViews 0 View.all = views at hviews hs'
  obtain ⟨result, r₂⟩ := views
  cases result with
  | error p => exact hviews
  | ok _ =>
    have hbeat := hviews.trans (startHeartbeat_plays hs' s)
    obtain ⟨s'', hs'', -⟩ := hbeat.services hs
    dsimp only
    generalize r₂.startHeartbeat 0 s = beat at hbeat hs''
    obtain ⟨result, r₃⟩ := beat
    cases result with
    | error p => exact hbeat
    | ok _ => exact hbeat.trans (.of_same hs'' hs'' (.refl s'') rfl rfl)

theorem selectPage_plays (hs : r.services = [s]) (page : PageNumber) :
    r.Plays (r.selectPage 0 page).2 := by
  by_cases hpage : page = 0
  · rw [hpage, selectPage_zero hs]
    exact .refl r
  · rw [selectPage_eq hs hpage]
    exact (Plays.of_same hs hs (.refl s) rfl rfl).trans
      (startView_plays (r := r.turnedTo s page) hs .txHistory)

end

/-! ### Turns -/

theorem dispose_executor (r : Run ρ σ) (body : Body ρ) :
    ∃ woken, (r.dispose body).executor = r.executor.rouse woken := by
  have hrelease (b : BinderId) : ∃ woken, (r.release b).executor = r.executor.rouse woken := by
    cases hx : r.binders[b]? with
    | none =>
      unfold release
      rw [hx]
      exact ⟨none, rfl⟩
    | some x =>
      rw [release_eq hx]
      exact ⟨_, rfl⟩
  have hleave (b : BinderId) (place : Nat) :
      ∃ woken, (r.leave b place).executor = r.executor.rouse woken := by
    cases hx : r.binders[b]? with
    | none =>
      unfold leave
      rw [hx]
      exact ⟨none, rfl⟩
    | some x =>
      rw [leave_eq hx]
      exact ⟨_, rfl⟩
  cases body with
  | poll b policy phase =>
    cases phase with
    | start => exact ⟨none, rfl⟩
    | queued place => exact hleave b place
    | waiting answer => exact hrelease b
    | answered answer => exact hrelease b
    | sleeping => exact ⟨none, rfl⟩
  | heartbeat => exact ⟨none, rfl⟩
  | shutdown => exact ⟨none, rfl⟩

variable [Host ρ σ]

/-- After a cycle that ended the task goes on with another body, or is done. -/
theorem ended_executor (r : Run ρ σ) (id : TaskId) (b : BinderId) (policy : Policy)
    (x : Shared ρ) (lock : Lock) (binder : Binder ρ) (outcome : Outcome) (w : σ) :
    let roused := r.executor.rouse lock.release.1
    let after := (r.ended id b policy x lock binder outcome w).executor
    after = roused.setBody id (.poll b policy .sleeping) ∨ after = roused.finish id := by
  unfold ended
  dsimp only
  split
  · exact .inl rfl
  · exact .inr rfl

/-- A turn in a run is a turn of its roster. -/
theorem Turned.plays {id : TaskId} {executor : Executor (Body ρ)} (hs : r.services = [s])
    (hs' : r'.services = [s]) (hnext : r.executor.next? = some (id, executor))
    (hturned : Turned { r with executor } id r') : r.Plays r' := by
  have hset {body new : Body ρ} (hid : executor.live? id = some (body, false))
      (woken : Option TaskId) (hexecutor : r'.executor = (executor.rouse woken).setBody id new) :
      r.Plays r' := by
    refine .single hs hs' (.refl s) (.turn (some new) woken.toList) fun history => ?_
    refine ⟨history ++ [.stepped id], ?_⟩
    unfold roster
    rw [hexecutor]
    exact Roster.turn_setBody hnext hid woken new
  have hsame {body : Body ρ} (hid : executor.live? id = some (body, false))
      (hexecutor : r'.executor = executor) : r.Plays r' :=
    hset hid none (hexecutor.trans (Executor.setBody_self hid).symm)
  have hfinish {body : Body ρ} {ab : Bool} (hid : executor.live? id = some (body, ab))
      (woken : Option TaskId) (hexecutor : r'.executor = (executor.rouse woken).finish id) :
      r.Plays r' := by
    refine .single hs hs' (.refl s) (.turn none woken.toList) fun history => ?_
    unfold roster
    rw [hexecutor]
    exact Roster.turn_finish hnext hid woken
  cases hturned with
  | gone hid =>
    exact .single hs hs' (.refl s) (.turn none []) fun history =>
      ⟨history, Roster.turn_gone hnext hid⟩
  | @disposes body hid =>
    obtain ⟨woken, hdisposed⟩ := dispose_executor { r with executor } body
    exact hfinish hid woken (congrArg (·.finish id) hdisposed)
  | polls hx hid hturn =>
    cases hturn with
    | idle => exact hsame hid rfl
    | joins => exact hset hid none rfl
    | waits => exact hsame hid rfl
    | asks => exact hset hid none rfl
    | ends =>
      rcases ended_executor { r with executor } id _ _ _ _ _ _ _ with hgoes | hdone
      · exact hset hid _ hgoes
      · exact hfinish hid _ hdone
  | @beats access interval phase hid =>
    rcases heartbeatTurn_cases { r with executor } id access interval phase with
      hbeats | ⟨_, _, _, phase', hbeats⟩
    · exact hsame hid (congrArg Run.executor hbeats)
    · exact hset hid none (congrArg Run.executor hbeats)

theorem next?_plays (h : r.InOrder s none) (hnext : r.next? = some r') : r.Plays r' := by
  obtain ⟨id, executor, hpop, -, hturned⟩ := next?_cases h hnext
  exact hturned.plays h.services (next?_inOrder h hnext).services hpop

theorem settle_plays (h : r.InOrder s none) (n : Nat) : r.Plays (settle next? n r) := by
  induction n generalizing r with
  | zero => exact .refl r
  | succ n ih =>
    unfold settle
    cases hnext : r.next? with
    | some r' => exact (next?_plays h hnext).trans (ih (next?_inOrder h hnext))
    | none => exact .refl r

end Run

/-! ### Whole runs -/

variable {r : Run ρ σ} {s : Service ρ} [Host ρ σ]

theorem Act.step_plays (h : r.InOrder s none) (act : Act σ) : r.Plays (act.step r) := by
  have hs := h.services
  cases act with
  | start => exact Run.start_plays hs
  | startView v => exact Run.startView_plays hs v
  | selectPage page => exact Run.selectPage_plays hs page
  | stop key => exact Run.stopTask_plays hs key
  | stopAll => exact Run.stopAll_plays hs
  | enroll => exact Run.enroll_plays hs
  | turn =>
    show r.Plays (r.next?.getD r)
    cases hnext : r.next? with
    | some r' => exact Run.next?_plays h hnext
    | none => exact .refl r
  | awaken id => exact Run.resume_plays hs _ id
  | deliver id => exact Run.resume_plays hs _ id
  | fire =>
    exact (Run.Plays.of_same hs hs (.refl s) rfl rfl).trans
      (Run.resumes_plays (r := { r with sleepers := [] }) hs _ _)
  | release key =>
    exact (Run.Plays.of_same hs hs (.refl s) rfl rfl).trans
      (Run.resumes_plays (r := { r with held := r.held.filter (·.1 ≠ key) }) hs _ _)
  | run => exact (Run.enroll_plays hs).trans (Run.settle_plays (Run.enroll_inOrder h) _)
  | change f => exact .of_same hs hs (.refl s) rfl rfl

theorem Run.after_plays (h : r.InOrder s none) (acts : List (Act σ)) :
    r.Plays (r.after acts) := by
  induction acts generalizing r s with
  | nil => exact .refl r
  | cons act rest ih =>
    obtain ⟨s', h', -⟩ := Run.after_inOrder h [act]
    exact (act.step_plays h).trans (ih h')

/-- The registry of a service is one that only starts, stops and turns have led to, and it is
right about its tasks, whatever happens to the service. -/
theorem Run.registry_after (world : σ) (session : SessionId) (config : Config) (access : ρ)
    (acts : List (Act σ)) :
    ∃ s history played, ((opened world session config access).after acts).services = [s] ∧
      ((opened world session config access).after acts).roster s history =
        Roster.after {} played ∧
      (((opened world session config access).after acts).roster s history).Accurate := by
  have hplays := after_plays (opened_inOrder world session config access) acts
  obtain ⟨s, hs, -, hacts⟩ := hplays _ rfl
  obtain ⟨played, history, hroster⟩ := hacts []
  exact ⟨s, history, played, hs, hroster.symm,
    hroster ▸ (Roster.empty_sound.after played).accurate⟩

/-- A service lists the tasks that it calls running, each of them once. -/
theorem Run.running_after (world : σ) (session : SessionId) (config : Config) (access : ρ)
    (acts : List (Act σ)) :
    (((opened world session config access).after acts).running 0).Nodup ∧
      ∀ key, ((opened world session config access).after acts).isRunning 0 key = true ↔
        key ∈ ((opened world session config access).after acts).running 0 := by
  obtain ⟨s, history, -, hs, -, haccurate⟩ := registry_after world session config access acts
  rw [running_eq hs]
  refine ⟨haccurate.nodup, fun key => ?_⟩
  rw [Run.isRunning, first_service hs]
  exact haccurate.isRunning key

end WalletPage
