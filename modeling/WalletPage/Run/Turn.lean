import WalletPage.Run.Cycle
import WalletPage.Run.Shutdown

/-! The turns of tasks. A task whose binder is held waits for it; one that was
aborted is disposed of in its next turn, before it could do anything, and lets
go of what it held. -/

namespace WalletPage.Run

variable {ρ σ : Type} [Host ρ σ]

/-- Puts a task to sleep. -/
def sleep (r : Run ρ σ) (id : TaskId) (access : ρ) (delay : Millis) (body : Body ρ) : Run ρ σ :=
  let r := r.perform (Host.sleep access delay)
  { r with sleepers := r.sleepers ++ [id] }.setBody id body

/-- Lets a task wait for an answer that is held back under a key. -/
def hold (r : Run ρ σ) (id : TaskId) (key : String) (body : Body ρ) : Run ρ σ :=
  { r with held := r.held ++ [(key, id)] }.setBody id body

/-! ### Polling -/

/-- What a polling task does at the end of its cycle. -/
def endPoll (r : Run ρ σ) (id : TaskId) (binder : BinderId) (policy : Policy)
    (outcome : Outcome) : Run ρ σ :=
  let (next, r) := r.decide binder policy outcome
  let r := r.release binder
  match next, r.binders[binder]? with
  | .after delay, some s => r.sleep id s.binder.access delay (.poll binder policy .sleeping)
  | _, _ => r.finishTask id

/-- What a polling task does with the answer of the server. -/
def answerPoll (r : Run ρ σ) (id : TaskId) (binder : BinderId) (policy : Policy)
    (answer : Fallible (Option Snapshot)) : Run ρ σ :=
  let (outcome, r) := r.finishCycle binder answer
  r.endPoll id binder policy outcome

/-- What a polling task does once it holds its binder. -/
def beginPoll (r : Run ρ σ) (id : TaskId) (binder : BinderId) (policy : Policy)
    (s : Shared ρ) : Run ρ σ :=
  match r.beginCycle binder s with
  | (.ended outcome, r) => r.endPoll id binder policy outcome
  | (.asked (.ready answer), r) => r.answerPoll id binder policy answer
  | (.asked (.held key answer), r) => r.hold id key (.poll binder policy (.waiting answer))

/-- The turn of a polling task. -/
def pollTurn (r : Run ρ σ) (id : TaskId) (binder : BinderId) (policy : Policy)
    (phase : Phase (Fallible (Option Snapshot))) : Run ρ σ :=
  match phase, r.binders[binder]? with
  | .start, some s =>
    if s.lock.isFree then
      (r.setLock binder (s.lock.take id)).beginPoll id binder policy s
    else
      let (place, lock) := s.lock.join id
      (r.setLock binder lock).setBody id (.poll binder policy (.queued place))
  | .queued place, some s =>
    if s.lock.isFree then
      (r.setLock binder ((s.lock.vacate place).take id)).beginPoll id binder policy s
    else r.setLock binder (s.lock.rejoin place)
  | .answered answer, some _ => r.answerPoll id binder policy answer
  | _, _ => r

/-! ### Heartbeats -/

/-- The source of the log lines of heartbeats. -/
def heartbeatComponent : Component := ⟨.application, "Heartbeat"⟩

/-- What the heartbeat does with the answer of the server. -/
def answerHeartbeat (r : Run ρ σ) (id : TaskId) (access : ρ) (interval : Millis)
    (answer : Fallible Unit) : Run ρ σ :=
  let r := match answer with
    | .ok () => r
    | .error p => r.perform (say access .trace heartbeatComponent ("Heartbeat failed: " ++ p.text))
  r.sleep id access interval (.heartbeat access interval .sleeping)

/-- The turn of the heartbeat. -/
def heartbeatTurn (r : Run ρ σ) (id : TaskId) (access : ρ) (interval : Millis)
    (phase : Phase (Fallible Unit)) : Run ρ σ :=
  match phase with
  | .start =>
    match r.act (Host.heartbeat access) with
    | (.ready answer, r) => r.answerHeartbeat id access interval answer
    | (.held key answer, r) => r.hold id key (.heartbeat access interval (.waiting answer))
  | .answered answer => r.answerHeartbeat id access interval answer
  | _ => r

/-! ### Promised shutdowns -/

/-- The source of the log lines of the page's own calls. -/
def callComponent : Component := ⟨.presentation, "WalletViews"⟩

/-- Keeps the promise of a shutdown. -/
def answerShutdown (r : Run ρ σ) (id : TaskId) (service : ServiceId) (promise : Nat)
    (answer : Fallible Bool) : Run ρ σ :=
  let (result, r) := r.finishShutdown service answer
  let r := match result, r.services[service]? with
    | .error p, some s => r.perform (say s.access .error callComponent p.text)
    | _, _ => r
  { r with settled := r.settled ++ [(promise, result)] }.finishTask id

/-- The turn of a promised shutdown. -/
def shutdownTurn (r : Run ρ σ) (id : TaskId) (service : ServiceId) (promise : Nat)
    (phase : Phase (Fallible Bool)) : Run ρ σ :=
  match phase, r.services[service]? with
  | .start, some s =>
    match r.act (Host.shutdown s.access) with
    | (.ready answer, r) => r.answerShutdown id service promise answer
    | (.held key answer, r) => r.hold id key (.shutdown service promise (.waiting answer))
  | .answered answer, some _ => r.answerShutdown id service promise answer
  | _, _ => r

/-! ### All tasks -/

/-- Lets go of what a task holds. -/
def dispose (r : Run ρ σ) : Body ρ → Run ρ σ
  | .poll binder _ (.queued place) => r.leave binder place
  | .poll binder _ (.waiting _) => r.release binder
  | .poll binder _ (.answered _) => r.release binder
  | _ => r

/-- The turn of a task. -/
def turn (r : Run ρ σ) (id : TaskId) : Run ρ σ :=
  match r.executor.live? id with
  | none => r
  | some (body, true) => (r.dispose body).finishTask id
  | some (.poll binder policy phase, false) => r.pollTurn id binder policy phase
  | some (.heartbeat access interval phase, false) => r.heartbeatTurn id access interval phase
  | some (.shutdown service promise phase, false) => r.shutdownTurn id service promise phase

/-- Takes the next turn, if a task is to have one. -/
def next? (r : Run ρ σ) : Option (Run ρ σ) :=
  r.executor.next?.map fun (id, executor) => { r with executor := executor }.turn id

/-- Runs all tasks that can run. -/
def run (r : Run ρ σ) : Run ρ σ :=
  settle next? r.executor.turns { r with executor := r.executor.enroll }

/-! ### What tasks wait for -/

/-- A body after its sleep. -/
def awakened : Body ρ → Body ρ
  | .poll binder policy .sleeping => .poll binder policy .start
  | .heartbeat access interval .sleeping => .heartbeat access interval .start
  | body => body

/-- A body whose answer has come. -/
def answered : Body ρ → Body ρ
  | .poll binder policy (.waiting answer) => .poll binder policy (.answered answer)
  | .heartbeat access interval (.waiting answer) => .heartbeat access interval (.answered answer)
  | .shutdown service promise (.waiting answer) => .shutdown service promise (.answered answer)
  | body => body

/-- Changes a task and wakes it. -/
def resume (change : Body ρ → Body ρ) (r : Run ρ σ) (id : TaskId) : Run ρ σ :=
  match r.executor.live? id with
  | some (body, _) => (r.setBody id (change body)).wake (some id)
  | none => r

/-- Ends all sleeps, and counts the sleepers that still exist. -/
def fire (r : Run ρ σ) : Nat × Run ρ σ :=
  let sleepers := r.sleepers.filter r.executor.isLive
  (sleepers.length, sleepers.foldl (resume awakened) { r with sleepers := [] })

/-- Releases the answers that are held back under a key, and counts the tasks that still wait. -/
def releaseKey (r : Run ρ σ) (key : String) : Nat × Run ρ σ :=
  let tasks := ((r.held.filter (·.1 = key)).map (·.2)).filter r.executor.isLive
  (tasks.length,
    tasks.foldl (resume answered) { r with held := r.held.filter (·.1 ≠ key) })

/-- Drops the executor with its tasks, which let go of everything. -/
def close (r : Run ρ σ) : Run ρ σ :=
  { r with
    executor := r.executor.close
    sleepers := []
    held := []
    binders := r.binders.map fun s => { s with lock := {} } }

/-- Starts a polling task that no registry knows of, and tells whether that was possible. -/
def spawnPoll (r : Run ρ σ) (id : BinderId) (policy : Policy) : Bool × Run ρ σ :=
  match r.executor.spawn (.poll id policy .start) with
  | some (_, executor) => (true, { r with executor := executor })
  | none => (false, r)

end WalletPage.Run
