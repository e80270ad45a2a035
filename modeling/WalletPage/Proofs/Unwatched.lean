import WalletPage.Proofs.Mirrors
import WalletPage.Proofs.ServiceRuns

/-! Watching a page does not change what runs on it. Every act on a run under watch is the
same act on the run without the record, so that what is said of the calls of runs under
watch is said of all runs. -/

namespace WalletPage

variable {ρ σ : Type}

/-! ### The tasks -/

/-- The same state of a task with another body. -/
def TaskState.map {β γ : Type} (f : β → γ) : TaskState β → TaskState γ
  | live body isAborted => .live (f body) isAborted
  | ended => .ended
  | lost => .lost

namespace Executor

variable {β γ : Type} (f : β → γ) (e : Executor β)

/-- The same tasks with other bodies. -/
def map : Executor γ where
  tasks := e.tasks.map (TaskState.map f)
  ready := e.ready
  fresh := e.fresh
  isClosed := e.isClosed

@[simp] theorem ready_map : (e.map f).ready = e.ready := rfl

@[simp] theorem isClosed_map : (e.map f).isClosed = e.isClosed := rfl

theorem live?_map (id : TaskId) :
    (e.map f).live? id = (e.live? id).map fun x => (f x.1, x.2) := by
  unfold live? map
  rw [List.getElem?_map]
  cases e.tasks[id]? with
  | none => rfl
  | some state => cases state <;> rfl

theorem hasEnded_map (id : TaskId) : (e.map f).hasEnded id = e.hasEnded id := by
  unfold hasEnded map
  rw [List.getElem?_map]
  cases e.tasks[id]? with
  | none => rfl
  | some state => cases state <;> rfl

theorem isLive_map (id : TaskId) : (e.map f).isLive id = e.isLive id := by
  rw [isLive, isLive, live?_map, Option.isSome_map]

theorem map_setTask (id : TaskId) (state : TaskState β) :
    (e.setTask id state).map f = (e.map f).setTask id (state.map f) := by
  simp [setTask, map, List.map_set]

theorem map_wake (id : TaskId) : (e.wake id).map f = (e.map f).wake id := by
  unfold wake
  rw [isLive_map]
  exact apply_ite (map f) _ _ _

theorem map_abort (id : TaskId) : (e.abort id).map f = (e.map f).abort id := by
  unfold abort
  rw [live?_map]
  cases e.live? id with
  | none => rfl
  | some task => exact (map_wake f _ id).trans (by rw [map_setTask]; rfl)

theorem map_setBody (id : TaskId) (body : β) :
    (e.setBody id body).map f = (e.map f).setBody id (f body) := by
  unfold setBody
  rw [live?_map]
  cases e.live? id with
  | none => rfl
  | some task => exact map_setTask f e id _

theorem map_finish (id : TaskId) : (e.finish id).map f = (e.map f).finish id :=
  map_setTask f e id _

theorem spawn_map (body : β) :
    (e.map f).spawn (f body) = (e.spawn body).map fun x => (x.1, x.2.map f) := by
  unfold spawn
  rw [isClosed_map]
  split
  · rfl
  · simp [map, TaskState.map]

theorem next?_map : (e.map f).next? = e.next?.map fun x => (x.1, x.2.map f) := by
  unfold next?
  rw [ready_map]
  cases e.ready with
  | nil => rfl
  | cons id rest => rfl

theorem turns_map : (e.map f).turns = e.turns := by
  simp [turns, map]

end Executor

namespace Registry

variable {β γ : Type} (f : β → γ) (r : Registry) (e : Executor β)

theorem stop_map (key : TaskKey) : r.stop (e.map f) key =
    ((r.stop e key).1, (r.stop e key).2.1, (r.stop e key).2.2.map f) := by
  unfold stop
  cases r.task? key with
  | none => rfl
  | some id => simp only [Executor.hasEnded_map, Executor.map_abort]

theorem start_map (key : TaskKey) (body : β) : r.start (e.map f) key (f body) =
    ((r.start e key body).1, (r.start e key body).2.1, (r.start e key body).2.2.map f) := by
  unfold start
  rw [stop_map]
  dsimp only
  rw [Executor.spawn_map]
  cases (r.stop e key).2.2.spawn body with
  | none => rfl
  | some spawned => rfl

theorem running_map : r.running (e.map f) = r.running e := by
  simp only [running, Executor.hasEnded_map]

theorem aborts_map (entries : List (TaskKey × TaskId)) :
    entries.foldl (fun e (_, id) => e.abort id) (e.map f) =
      (entries.foldl (fun e (_, id) => e.abort id) e).map f := by
  induction entries generalizing e with
  | nil => rfl
  | cons entry rest ih => rw [List.foldl_cons, List.foldl_cons, ← ih, Executor.map_abort]

theorem stopAll_map : r.stopAll (e.map f) =
    ((r.stopAll e).1, (r.stopAll e).2.1, (r.stopAll e).2.2.map f) := by
  unfold stopAll
  rw [running_map, aborts_map]

end Registry

/-! ### The run -/

/-- The same body on the page itself. -/
def Body.unwatched : Body (Watcher ρ) → Body ρ
  | poll b policy phase => .poll b policy phase
  | heartbeat x interval phase => .heartbeat x.access interval phase
  | shutdown service promise phase => .shutdown service promise phase

/-- The same binder with its lock, on the page itself. -/
def Shared.unwatched (x : Shared (Watcher ρ)) : Shared ρ where
  binder := x.binder.unwatched
  selection := x.selection
  lock := x.lock

@[simp] theorem Shared.unwatched_binder (x : Shared (Watcher ρ)) :
    x.unwatched.binder = x.binder.unwatched := rfl

@[simp] theorem Shared.unwatched_lock (x : Shared (Watcher ρ)) : x.unwatched.lock = x.lock := rfl

/-- The same service on the page itself. -/
def Service.unwatched (s : Service (Watcher ρ)) : Service ρ where
  session := s.session
  config := s.config
  access := s.access.access
  selection := s.selection
  registry := s.registry
  binders := s.binders

namespace Run

/-- The same run on the page itself, without the record. -/
def unwatched (r : Run (Watcher ρ) (Watched σ)) : Run ρ σ where
  world := r.world.world
  selections := r.selections
  binders := r.binders.map Shared.unwatched
  services := r.services.map Service.unwatched
  executor := r.executor.map Body.unwatched
  sleepers := r.sleepers
  held := r.held
  settled := r.settled

/-- What came of something and the run after it, on the page itself. -/
def unwatchedAfter {α : Type} (x : α × Run (Watcher ρ) (Watched σ)) : α × Run ρ σ :=
  (x.1, x.2.unwatched)

section

variable (r : Run (Watcher ρ) (Watched σ))

theorem unwatched_binder (id : BinderId) :
    r.unwatched.binders[id]? = (r.binders[id]?).map Shared.unwatched :=
  List.getElem?_map ..

theorem unwatched_service (id : ServiceId) :
    r.unwatched.services[id]? = (r.services[id]?).map Service.unwatched :=
  List.getElem?_map ..

theorem unwatched_live? (id : TaskId) : r.unwatched.executor.live? id =
    (r.executor.live? id).map fun x => (x.1.unwatched, x.2) :=
  Executor.live?_map ..

theorem act_unwatched {α β : Type} {f : α → β} {m : StateM (Watched σ) α} {n : StateM σ β}
    (h : Mirrors f m n) : r.unwatched.act n = (f (r.act m).1, (r.act m).2.unwatched) := by
  have hn := h r.world
  show ((n.run r.world.world).1, { r.unwatched with world := (n.run r.world.world).2 }) = _
  rw [hn]
  rfl

theorem perform_unwatched {m : StateM (Watched σ) Unit} {n : StateM σ Unit}
    (h : Mirrors id m n) : r.unwatched.perform n = (r.perform m).unwatched :=
  congrArg Prod.snd (act_unwatched r h)

theorem map_modify_unwatched {l : List (Shared (Watcher ρ))} {id : BinderId}
    {f : Shared (Watcher ρ) → Shared (Watcher ρ)} {g : Shared ρ → Shared ρ}
    (h : ∀ x, (f x).unwatched = g x.unwatched) :
    (l.modify id f).map Shared.unwatched = (l.map Shared.unwatched).modify id g := by
  refine List.ext_getElem? fun i => ?_
  rw [List.getElem?_map, List.getElem?_modify, List.getElem?_modify, List.getElem?_map]
  cases l[i]? with
  | none => rfl
  | some x => by_cases hi : id = i <;> simp [hi, h]

theorem setBinder_unwatched (id : BinderId) (b : Binder (Watcher ρ)) :
    (r.setBinder id b).unwatched = r.unwatched.setBinder id b.unwatched := by
  have hbinders : (r.binders.modify id fun s => { s with binder := b }).map Shared.unwatched =
      (r.binders.map Shared.unwatched).modify id fun s => { s with binder := b.unwatched } :=
    map_modify_unwatched fun _ => rfl
  unfold setBinder unwatched
  rw [hbinders]

theorem setLock_unwatched (id : BinderId) (lock : Lock) :
    (r.setLock id lock).unwatched = r.unwatched.setLock id lock := by
  have hbinders : (r.binders.modify id fun s => { s with lock := lock }).map Shared.unwatched =
      (r.binders.map Shared.unwatched).modify id fun s => { s with lock := lock } :=
    map_modify_unwatched fun _ => rfl
  unfold setLock unwatched
  rw [hbinders]

theorem wake_unwatched (task : Option TaskId) :
    (r.wake task).unwatched = r.unwatched.wake task := by
  cases task with
  | none => rfl
  | some id =>
    unfold wake unwatched
    rw [Executor.map_wake]

theorem release_unwatched (id : BinderId) :
    (r.release id).unwatched = r.unwatched.release id := by
  unfold release
  rw [unwatched_binder]
  cases r.binders[id]? with
  | none => rfl
  | some s => exact (wake_unwatched _ _).trans (congrArg (wake · _) (setLock_unwatched _ _ _))

theorem leave_unwatched (id : BinderId) (place : Nat) :
    (r.leave id place).unwatched = r.unwatched.leave id place := by
  unfold leave
  rw [unwatched_binder]
  cases r.binders[id]? with
  | none => rfl
  | some s => exact (wake_unwatched _ _).trans (congrArg (wake · _) (setLock_unwatched _ _ _))

theorem setBody_unwatched (id : TaskId) (body : Body (Watcher ρ)) :
    (r.setBody id body).unwatched = r.unwatched.setBody id body.unwatched := by
  unfold setBody unwatched
  rw [Executor.map_setBody]

theorem finishTask_unwatched (id : TaskId) :
    (r.finishTask id).unwatched = r.unwatched.finishTask id := by
  unfold finishTask unwatched
  rw [Executor.map_finish]

theorem setService_unwatched (id : ServiceId) (s : Service (Watcher ρ)) :
    (r.setService id s).unwatched = r.unwatched.setService id s.unwatched := by
  unfold setService unwatched
  rw [List.map_set]

theorem dispose_unwatched (body : Body (Watcher ρ)) :
    (r.dispose body).unwatched = r.unwatched.dispose body.unwatched := by
  cases body with
  | poll b policy phase =>
    cases phase with
    | queued place => exact leave_unwatched r b place
    | waiting => exact release_unwatched r b
    | answered => exact release_unwatched r b
    | _ => rfl
  | _ => rfl

/-! ### Turns -/

variable [Host ρ σ]

theorem beginCycle_unwatched (id : BinderId) (s : Shared (Watcher ρ)) :
    r.unwatched.beginCycle id s.unwatched = unwatchedAfter (r.beginCycle id s) := by
  have hact : r.unwatched.act
      (s.unwatched.binder.begin (r.unwatched.selected s.unwatched.selection)) = _ :=
    act_unwatched r (s.binder.begin_mirrors (r.selected s.selection))
  unfold beginCycle
  rw [hact]
  cases r.act (s.binder.begin (r.selected s.selection)) with
  | mk x r' => exact congrArg _ (setBinder_unwatched r' id x.1).symm

theorem finishCycle_unwatched (id : BinderId) (answer : Fallible (Option Snapshot)) :
    r.unwatched.finishCycle id answer = unwatchedAfter (r.finishCycle id answer) := by
  unfold finishCycle
  rw [unwatched_binder]
  cases r.binders[id]? with
  | none => rfl
  | some s =>
    have hact : r.unwatched.act (s.unwatched.binder.finish answer) = _ :=
      act_unwatched r (s.binder.finish_mirrors answer)
    rw [Option.map_some]
    dsimp only
    rw [hact]
    cases r.act (s.binder.finish answer) with
    | mk x r' => exact congrArg _ (setBinder_unwatched r' id x.1).symm

theorem decide_unwatched (id : BinderId) (policy : Policy) (outcome : Outcome) :
    r.unwatched.decide id policy outcome = unwatchedAfter (r.decide id policy outcome) := by
  unfold decide
  rw [unwatched_binder]
  cases r.binders[id]? with
  | none => rfl
  | some s =>
    have hsay (r : Run (Watcher ρ) (Watched σ)) (level : LogLevel) (message : String) :
        r.unwatched.perform (say s.binder.access.access level pollComponent message) =
          (r.perform (say s.binder.access level pollComponent message)).unwatched :=
      perform_unwatched r (say_mirrors _ level pollComponent message)
    simp only [Option.map_some, hsay, Shared.unwatched_binder, Binder.unwatched_view,
      Binder.unwatched_access, Binder.unwatched_anchorSeen]
    cases policy.next s.binder.view outcome s.binder.anchorSeen with
    | stop => rfl
    | after delay => rfl

theorem sleep_unwatched (id : TaskId) (x : Watcher ρ) (delay : Millis)
    (body : Body (Watcher ρ)) :
    (r.sleep id x delay body).unwatched = r.unwatched.sleep id x.access delay body.unwatched := by
  unfold sleep
  rw [setBody_unwatched, perform_unwatched r (.noted (Host.sleep x.access delay) _)]
  rfl

omit [Host ρ σ] in
theorem hold_unwatched (id : TaskId) (key : String) (body : Body (Watcher ρ)) :
    (r.hold id key body).unwatched = r.unwatched.hold id key body.unwatched :=
  setBody_unwatched _ id body

theorem endPoll_unwatched (id : TaskId) (b : BinderId) (policy : Policy) (outcome : Outcome) :
    (r.endPoll id b policy outcome).unwatched = r.unwatched.endPoll id b policy outcome := by
  unfold endPoll
  rw [decide_unwatched]
  cases r.decide b policy outcome with
  | mk next r' =>
    simp only [unwatchedAfter, ← release_unwatched, unwatched_binder]
    cases next with
    | stop => exact finishTask_unwatched _ id
    | after delay =>
      cases (r'.release b).binders[b]? with
      | none => exact finishTask_unwatched _ id
      | some s => exact sleep_unwatched _ id s.binder.access delay _

theorem answerPoll_unwatched (id : TaskId) (b : BinderId) (policy : Policy)
    (answer : Fallible (Option Snapshot)) :
    (r.answerPoll id b policy answer).unwatched = r.unwatched.answerPoll id b policy answer := by
  unfold answerPoll
  rw [finishCycle_unwatched]
  exact endPoll_unwatched _ id b policy _

theorem beginPoll_unwatched (id : TaskId) (b : BinderId) (policy : Policy)
    (s : Shared (Watcher ρ)) :
    (r.beginPoll id b policy s).unwatched = r.unwatched.beginPoll id b policy s.unwatched := by
  unfold beginPoll
  rw [beginCycle_unwatched]
  cases r.beginCycle b s with
  | mk begun r' =>
    cases begun with
    | ended outcome => exact endPoll_unwatched r' id b policy outcome
    | asked reply =>
      cases reply with
      | ready answer => exact answerPoll_unwatched r' id b policy answer
      | held key answer => exact hold_unwatched r' id key _

theorem pollTurn_unwatched (id : TaskId) (b : BinderId) (policy : Policy)
    (phase : Phase (Fallible (Option Snapshot))) :
    (r.pollTurn id b policy phase).unwatched = r.unwatched.pollTurn id b policy phase := by
  have hbegin (lock : Lock) (s : Shared (Watcher ρ)) :
      ((r.setLock b lock).beginPoll id b policy s).unwatched =
        (r.unwatched.setLock b lock).beginPoll id b policy s.unwatched := by
    rw [beginPoll_unwatched, setLock_unwatched]
  unfold pollTurn
  rw [unwatched_binder]
  cases phase with
  | start =>
    cases r.binders[b]? with
    | none => rfl
    | some s =>
      by_cases hfree : s.lock.isFree = true
      · simp only [Option.map_some, Shared.unwatched_lock, hfree, if_true]
        exact hbegin _ s
      · simp only [Option.map_some, Shared.unwatched_lock, hfree]
        exact (setBody_unwatched _ id _).trans (congrArg (setBody · id _) (setLock_unwatched r b _))
  | queued place =>
    cases r.binders[b]? with
    | none => rfl
    | some s =>
      by_cases hfree : s.lock.isFree = true
      · simp only [Option.map_some, Shared.unwatched_lock, hfree, if_true]
        exact hbegin _ s
      · simp only [Option.map_some, Shared.unwatched_lock, hfree]
        exact setLock_unwatched r b _
  | answered answer =>
    cases r.binders[b]? with
    | none => rfl
    | some s => exact answerPoll_unwatched r id b policy answer
  | waiting => cases r.binders[b]? <;> rfl
  | sleeping => cases r.binders[b]? <;> rfl

theorem answerHeartbeat_unwatched (id : TaskId) (x : Watcher ρ) (interval : Millis)
    (answer : Fallible Unit) : (r.answerHeartbeat id x interval answer).unwatched =
      r.unwatched.answerHeartbeat id x.access interval answer := by
  unfold answerHeartbeat
  cases answer with
  | ok _ => exact sleep_unwatched r id x interval _
  | error p =>
    dsimp only
    rw [sleep_unwatched, perform_unwatched r (say_mirrors x _ _ _)]
    rfl

theorem heartbeatTurn_unwatched (id : TaskId) (x : Watcher ρ) (interval : Millis)
    (phase : Phase (Fallible Unit)) : (r.heartbeatTurn id x interval phase).unwatched =
      r.unwatched.heartbeatTurn id x.access interval phase := by
  unfold heartbeatTurn
  cases phase with
  | start =>
    have hact : r.unwatched.act (Host.heartbeat x.access) = _ :=
      act_unwatched r (m := Host.heartbeat x) (.noted _ _)
    dsimp only
    rw [hact]
    cases r.act (Host.heartbeat x) with
    | mk reply r' =>
      cases reply with
      | ready answer => exact answerHeartbeat_unwatched r' id x interval answer
      | held key answer => exact hold_unwatched r' id key _
  | answered answer => exact answerHeartbeat_unwatched r id x interval answer
  | queued => rfl
  | waiting => rfl
  | sleeping => rfl

theorem stopAll_unwatched (id : ServiceId) :
    r.unwatched.stopAll id = unwatchedAfter (r.stopAll id) := by
  unfold stopAll
  rw [unwatched_service]
  cases r.services[id]? with
  | none => rfl
  | some s =>
    have hstop : s.unwatched.registry.stopAll r.unwatched.executor = _ :=
      s.registry.stopAll_map Body.unwatched r.executor
    rw [Option.map_some]
    dsimp only
    rw [hstop]
    cases s.registry.stopAll r.executor with
    | mk count rest =>
      refine congrArg _ ((perform_unwatched _ (.quiet _)).symm.trans ?_).symm
      exact congrArg (perform · _) (setService_unwatched _ id _)

theorem finishShutdown_unwatched (id : ServiceId) (answer : Fallible Bool) :
    r.unwatched.finishShutdown id answer = unwatchedAfter (r.finishShutdown id answer) := by
  unfold finishShutdown
  rw [unwatched_service]
  cases r.services[id]? with
  | none => rfl
  | some s =>
    cases answer with
    | error p => rfl
    | ok agreed =>
      cases agreed with
      | false =>
        have hsay := perform_unwatched r (say_mirrors s.access .warn shutdownComponent
          "Server declined the shutdown request")
        exact congrArg (Prod.mk (Except.ok false)) hsay
      | true =>
        rw [Option.map_some]
        dsimp only
        rw [stopAll_unwatched]
        exact congrArg _ (perform_unwatched _ ((Mirrors.noted _ _).next fun _ =>
          say_mirrors s.access _ _ _))

theorem answerShutdown_unwatched (id : TaskId) (service : ServiceId) (promise : Nat)
    (answer : Fallible Bool) : (r.answerShutdown id service promise answer).unwatched =
      r.unwatched.answerShutdown id service promise answer := by
  unfold answerShutdown
  rw [finishShutdown_unwatched]
  cases r.finishShutdown service answer with
  | mk result r' =>
    simp only [unwatchedAfter, unwatched_service]
    cases result with
    | ok agreed => exact finishTask_unwatched _ id
    | error p =>
      cases r'.services[service]? with
      | none => exact finishTask_unwatched _ id
      | some s =>
        have hsay := perform_unwatched r' (say_mirrors s.access .error callComponent p.text)
        refine (finishTask_unwatched _ id).trans ?_
        exact congrArg (fun r =>
          finishTask { r with settled := r.settled ++ [(promise, .error p)] } id) hsay.symm

theorem shutdownTurn_unwatched (id : TaskId) (service : ServiceId) (promise : Nat)
    (phase : Phase (Fallible Bool)) : (r.shutdownTurn id service promise phase).unwatched =
      r.unwatched.shutdownTurn id service promise phase := by
  unfold shutdownTurn
  rw [unwatched_service]
  cases hs : r.services[service]? with
  | none => cases phase <;> rfl
  | some s =>
    cases phase with
    | start =>
      have hact : r.unwatched.act (Host.shutdown s.unwatched.access) = _ :=
        act_unwatched r (m := Host.shutdown s.access) (.noted _ _)
      rw [Option.map_some]
      dsimp only
      rw [hact]
      cases r.act (Host.shutdown s.access) with
      | mk reply r' =>
        cases reply with
        | ready answer => exact answerShutdown_unwatched r' id service promise answer
        | held key answer => exact hold_unwatched r' id key _
    | answered answer => exact answerShutdown_unwatched r id service promise answer
    | queued => rfl
    | waiting => rfl
    | sleeping => rfl

theorem turn_unwatched (id : TaskId) : (r.turn id).unwatched = r.unwatched.turn id := by
  unfold turn
  rw [unwatched_live?]
  cases r.executor.live? id with
  | none => rfl
  | some task =>
    obtain ⟨body, isAborted⟩ := task
    cases isAborted with
    | true =>
      refine (finishTask_unwatched _ id).trans ?_
      exact congrArg (finishTask · id) (dispose_unwatched r body)
    | false =>
      cases body with
      | poll b policy phase => exact pollTurn_unwatched r id b policy phase
      | heartbeat x interval phase => exact heartbeatTurn_unwatched r id x interval phase
      | shutdown service promise phase => exact shutdownTurn_unwatched r id service promise phase

theorem next?_unwatched : r.unwatched.next? = r.next?.map unwatched := by
  unfold next?
  rw [show r.unwatched.executor = r.executor.map Body.unwatched from rfl, Executor.next?_map]
  cases r.executor.next? with
  | none => rfl
  | some popped =>
    obtain ⟨id, executor⟩ := popped
    exact congrArg some (turn_unwatched { r with executor } id).symm

theorem settle_unwatched (n : Nat) : ∀ r : Run (Watcher ρ) (Watched σ),
    (settle next? n r).unwatched = settle next? n r.unwatched := by
  induction n with
  | zero => exact fun _ => rfl
  | succ n ih =>
    intro r
    unfold settle
    rw [next?_unwatched]
    cases r.next? with
    | none => rfl
    | some r' => exact ih r'

theorem run_unwatched : r.run.unwatched = r.unwatched.run := by
  have hturns : r.unwatched.executor.turns = r.executor.turns := Executor.turns_map _ _
  unfold run
  rw [settle_unwatched, hturns]
  rfl

/-! ### What tasks wait for -/

omit [Host ρ σ] in
theorem resume_unwatched {change : Body (Watcher ρ) → Body (Watcher ρ)}
    {change' : Body ρ → Body ρ} (h : ∀ body, (change body).unwatched = change' body.unwatched)
    (id : TaskId) : (resume change r id).unwatched = resume change' r.unwatched id := by
  unfold resume
  rw [unwatched_live?]
  cases r.executor.live? id with
  | none => rfl
  | some task =>
    refine (wake_unwatched _ _).trans (congrArg (wake · _) ?_)
    rw [setBody_unwatched, h]

theorem awakened_unwatched (body : Body (Watcher ρ)) :
    (awakened body).unwatched = awakened body.unwatched := by
  cases body with
  | poll b policy phase => cases phase <;> rfl
  | heartbeat x interval phase => cases phase <;> rfl
  | shutdown => rfl

theorem answered_unwatched (body : Body (Watcher ρ)) :
    (answered body).unwatched = answered body.unwatched := by
  cases body with
  | poll b policy phase => cases phase <;> rfl
  | heartbeat x interval phase => cases phase <;> rfl
  | shutdown service promise phase => cases phase <;> rfl

omit [Host ρ σ] in
theorem resumes_unwatched {change : Body (Watcher ρ) → Body (Watcher ρ)}
    {change' : Body ρ → Body ρ} (h : ∀ body, (change body).unwatched = change' body.unwatched)
    (ids : List TaskId) : ∀ r : Run (Watcher ρ) (Watched σ),
      (ids.foldl (resume change) r).unwatched = ids.foldl (resume change') r.unwatched := by
  induction ids with
  | nil => exact fun _ => rfl
  | cons id rest ih =>
    intro r
    rw [List.foldl_cons, List.foldl_cons, ih, resume_unwatched r h]

omit [Host ρ σ] in
theorem filter_isLive_unwatched (ids : List TaskId) :
    ids.filter r.unwatched.executor.isLive = ids.filter r.executor.isLive :=
  List.filter_congr fun id _ => Executor.isLive_map Body.unwatched r.executor id

omit [Host ρ σ] in
theorem fire_unwatched : r.unwatched.fire = unwatchedAfter r.fire := by
  unfold fire
  rw [filter_isLive_unwatched]
  exact congrArg (Prod.mk _) (resumes_unwatched awakened_unwatched _ { r with sleepers := [] }).symm

omit [Host ρ σ] in
theorem releaseKey_unwatched (key : String) :
    r.unwatched.releaseKey key = unwatchedAfter (r.releaseKey key) := by
  unfold releaseKey
  rw [filter_isLive_unwatched]
  exact congrArg (Prod.mk _) (resumes_unwatched answered_unwatched _
    { r with held := r.held.filter (·.1 ≠ key) }).symm

/-! ### Services -/

omit [Host ρ σ] in
theorem addBinder_unwatched (x : Shared (Watcher ρ)) :
    r.unwatched.addBinder x.unwatched = unwatchedAfter (r.addBinder x) := by
  unfold addBinder unwatchedAfter unwatched
  simp

theorem binderFor_unwatched (id : ServiceId) (s : Service (Watcher ρ)) (v : View) :
    r.unwatched.binderFor id s.unwatched v = unwatchedAfter (r.binderFor id s v) := by
  unfold binderFor
  rw [show s.unwatched.binders = s.binders from rfl]
  cases s.binders.lookup v with
  | some b => rfl
  | none =>
    have hact : r.unwatched.act (s.unwatched.newBinder v).hydrate = _ :=
      act_unwatched r (s.newBinder v).hydrate_mirrors
    show (let x := r.unwatched.act (s.unwatched.newBinder v).hydrate
      let y := x.2.addBinder { binder := x.1.1, selection := s.selection }
      (y.1, y.2.setService id { s.unwatched with binders := s.binders ++ [(v, y.1)] })) =
        unwatchedAfter (let x := r.act (s.newBinder v).hydrate
          let y := x.2.addBinder { binder := x.1.1, selection := s.selection }
          (y.1, y.2.setService id { s with binders := s.binders ++ [(v, y.1)] }))
    rw [hact]
    obtain ⟨⟨b, painted⟩, r'⟩ := r.act (s.newBinder v).hydrate
    have hadd : r'.unwatched.addBinder { binder := b.unwatched, selection := s.selection } = _ :=
      addBinder_unwatched r' { binder := b, selection := s.selection }
    dsimp only [unwatchedWith]
    rw [hadd]
    obtain ⟨c, r'⟩ := r'.addBinder { binder := b, selection := s.selection }
    have hset := setService_unwatched r' id { s with binders := s.binders ++ [(v, c)] }
    exact congrArg (Prod.mk c) hset.symm

omit [Host ρ σ] in
theorem startTask_unwatched (id : ServiceId) (key : TaskKey) (body : Body (Watcher ρ)) :
    r.unwatched.startTask id key body.unwatched = unwatchedAfter (r.startTask id key body) := by
  unfold startTask
  rw [unwatched_service]
  cases r.services[id]? with
  | none => rfl
  | some s =>
    have hstart : s.unwatched.registry.start r.unwatched.executor key body.unwatched = _ :=
      s.registry.start_map Body.unwatched r.executor key body
    rw [Option.map_some]
    dsimp only
    rw [hstart]
    obtain ⟨result, registry, executor⟩ := s.registry.start r.executor key body
    have hset := setService_unwatched { r with executor } id { s with registry }
    exact congrArg (Prod.mk result) hset.symm

omit [Host ρ σ] in
theorem stopTask_unwatched (id : ServiceId) (key : TaskKey) :
    r.unwatched.stopTask id key = unwatchedAfter (r.stopTask id key) := by
  unfold stopTask
  rw [unwatched_service]
  cases r.services[id]? with
  | none => rfl
  | some s =>
    have hstop : s.unwatched.registry.stop r.unwatched.executor key = _ :=
      s.registry.stop_map Body.unwatched r.executor key
    rw [Option.map_some]
    dsimp only
    rw [hstop]
    obtain ⟨wasLive, registry, executor⟩ := s.registry.stop r.executor key
    have hset := setService_unwatched { r with executor } id { s with registry }
    exact congrArg (Prod.mk wasLive) hset.symm

theorem startView_unwatched (id : ServiceId) (v : View) :
    r.unwatched.startView id v = unwatchedAfter (r.startView id v) := by
  unfold startView
  rw [unwatched_service]
  cases r.services[id]? with
  | none => rfl
  | some s =>
    rw [Option.map_some]
    dsimp only
    rw [binderFor_unwatched]
    obtain ⟨b, r'⟩ := r.binderFor id s v
    exact startTask_unwatched r' id (.view v s.session) (.poll b s.config.policy .start)

theorem startViews_unwatched (id : ServiceId) (vs : List View) :
    ∀ r : Run (Watcher ρ) (Watched σ),
      r.unwatched.startViews id vs = unwatchedAfter (r.startViews id vs) := by
  induction vs with
  | nil => exact fun _ => rfl
  | cons v rest ih =>
    intro r
    unfold startViews
    rw [startView_unwatched]
    cases r.startView id v with
    | mk result r' =>
      cases result with
      | ok _ => exact ih r'
      | error p => rfl

omit [Host ρ σ] in
theorem startHeartbeat_unwatched (id : ServiceId) (s : Service (Watcher ρ)) :
    r.unwatched.startHeartbeat id s.unwatched = unwatchedAfter (r.startHeartbeat id s) := by
  unfold startHeartbeat
  rw [show s.unwatched.config = s.config from rfl]
  split
  · exact startTask_unwatched r id .heartbeat
      (.heartbeat s.access s.config.heartbeatInterval .start)
  · rfl

theorem start_unwatched (id : ServiceId) :
    r.unwatched.start id = unwatchedAfter (r.start id) := by
  unfold start
  rw [unwatched_service]
  cases r.services[id]? with
  | none => rfl
  | some s =>
    have hsweep : r.unwatched.act (Cache.sweep s.unwatched.access) = _ :=
      act_unwatched r (sweep_mirrors s.access)
    rw [Option.map_some]
    dsimp only
    rw [hsweep]
    dsimp only
    rw [startViews_unwatched]
    cases (r.act (Cache.sweep s.access)).2.startViews id View.all with
    | mk result r₁ =>
      cases result with
      | error p => rfl
      | ok _ =>
        dsimp only [unwatchedAfter]
        rw [startHeartbeat_unwatched]
        cases r₁.startHeartbeat id s with
        | mk result r₂ =>
          cases result with
          | error p => rfl
          | ok _ => exact congrArg (Prod.mk _) (perform_unwatched r₂ (say_mirrors s.access _ _ _))

theorem selectPage_unwatched (id : ServiceId) (page : PageNumber) :
    r.unwatched.selectPage id page = unwatchedAfter (r.selectPage id page) := by
  unfold selectPage
  rw [unwatched_service]
  cases r.services[id]? with
  | none => rfl
  | some s =>
    unfold select
    rw [Option.map_some]
    dsimp only
    by_cases hpage : page = 0
    · rw [if_pos hpage, if_pos hpage]
      rfl
    · rw [if_neg hpage, if_neg hpage]
      exact startView_unwatched { r with
        selections := r.selections.set s.selection (some page) } id .txHistory

end

end Run

/-! ### Acts -/

/-- The same act on the page under watch. -/
def Act.watched : Act σ → Act (Watched σ)
  | start => .start
  | startView v => .startView v
  | selectPage page => .selectPage page
  | stop key => .stop key
  | stopAll => .stopAll
  | enroll => .enroll
  | turn => .turn
  | awaken id => .awaken id
  | deliver id => .deliver id
  | fire => .fire
  | release key => .release key
  | run => .run
  | change f => .change fun w => { w with world := f w.world }

variable [Host ρ σ]

/-- An act on a run under watch is the same act on the run itself. -/
theorem Act.step_unwatched (r : Run (Watcher ρ) (Watched σ)) (act : Act σ) :
    (act.watched.step r).unwatched = act.step r.unwatched := by
  cases act with
  | start => exact (congrArg Prod.snd (r.start_unwatched 0)).symm
  | startView v => exact (congrArg Prod.snd (r.startView_unwatched 0 v)).symm
  | selectPage page => exact (congrArg Prod.snd (r.selectPage_unwatched 0 page)).symm
  | stop key => exact (congrArg Prod.snd (r.stopTask_unwatched 0 key)).symm
  | stopAll => exact (congrArg Prod.snd (r.stopAll_unwatched 0)).symm
  | enroll => rfl
  | turn =>
    show (r.next?.getD r).unwatched = r.unwatched.next?.getD r.unwatched
    rw [r.next?_unwatched]
    cases r.next? with
    | none => rfl
    | some r' => rfl
  | awaken id => exact r.resume_unwatched Run.awakened_unwatched id
  | deliver id => exact r.resume_unwatched Run.answered_unwatched id
  | fire => exact (congrArg Prod.snd r.fire_unwatched).symm
  | release key => exact (congrArg Prod.snd (r.releaseKey_unwatched key)).symm
  | run => exact r.run_unwatched
  | change f => rfl

/-- What runs on a page under watch is what runs on the page. -/
theorem Run.after_unwatched (acts : List (Act σ)) (r : Run (Watcher ρ) (Watched σ)) :
    (r.after (acts.map Act.watched)).unwatched = r.unwatched.after acts := by
  induction acts generalizing r with
  | nil => rfl
  | cons act rest ih =>
    have hrest := ih (act.watched.step r)
    rw [act.step_unwatched r] at hrest
    exact hrest

/-- A new service after some acts, with a page that was under watch from the start. -/
def Run.underWatch (world : σ) (session : SessionId) (config : Config) (access : ρ)
    (acts : List (Act σ)) : Run (Watcher ρ) (Watched σ) :=
  (Run.opened ⟨world, []⟩ session config (Watcher.mk access)).after (acts.map Act.watched)

theorem Run.underWatch_unwatched (world : σ) (session : SessionId) (config : Config)
    (access : ρ) (acts : List (Act σ)) :
    (Run.underWatch world session config access acts).unwatched =
      (Run.opened world session config access).after acts :=
  Run.after_unwatched acts _

end WalletPage
