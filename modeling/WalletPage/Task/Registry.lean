import WalletPage.Task.Executor
import WalletPage.Host.Basic

/-! The tasks that a page polls with. Each view of a session has at most one, and
so has the heartbeat; starting a task again takes the place of the old one. -/

namespace WalletPage

/-- What a task is for. -/
inductive TaskKey where
  | view (v : View) (session : SessionId)
  | heartbeat
deriving DecidableEq, Repr

/-- The name of a key. -/
def TaskKey.name : TaskKey → String
  | view v session => v.name ++ " " ++ session.text
  | heartbeat => "heartbeat"

/-- The task that was last started for each key and not stopped since. -/
structure Registry where
  entries : List (TaskKey × TaskId) := []
deriving Repr

namespace Registry

variable {β : Type}

/-- The task of a key. -/
def task? (r : Registry) (key : TaskKey) : Option TaskId :=
  r.entries.lookup key

/-- Forgets the task of a key. -/
def forget (r : Registry) (key : TaskKey) : Registry :=
  ⟨r.entries.filter (·.1 ≠ key)⟩

/-- Stops the task of a key, and tells whether it was still going on. -/
def stop (r : Registry) (e : Executor β) (key : TaskKey) : Bool × Registry × Executor β :=
  match r.task? key with
  | some id => (!e.hasEnded id, r.forget key, e.abort id)
  | none => (false, r, e)

/-- What is said when a task cannot be spawned. -/
def spawnFailure : Problem :=
  ExternalProblem.browserApi "spawn failed: Executor is shutdown"

/-- Starts a task for a key, in the place of the old one. -/
def start (r : Registry) (e : Executor β) (key : TaskKey) (body : β) :
    Fallible Unit × Registry × Executor β :=
  let (_, r, e) := r.stop e key
  match e.spawn body with
  | some (id, e) => (.ok (), ⟨r.entries ++ [(key, id)]⟩, e)
  | none => (.error spawnFailure, r, e)

/-- Whether the task of a key goes on and was not told to stop. -/
def isRunning (r : Registry) (e : Executor β) (key : TaskKey) : Bool :=
  (r.task? key).any fun id => !e.hasEnded id && !e.isAborted id

/-- The keys whose tasks go on. -/
def running (r : Registry) (e : Executor β) : List TaskKey :=
  (r.entries.filter fun (_, id) => !e.hasEnded id).map (·.1)

/-- Stops all tasks, and counts those that were still going on. -/
def stopAll (r : Registry) (e : Executor β) : Nat × Registry × Executor β :=
  ((r.running e).length, {}, r.entries.foldl (fun e (_, id) => e.abort id) e)

/-- The log line of stopping everything. -/
def stoppedEntry (count : Nat) : LogEntry where
  level := .info
  component := ⟨.application, "PollRegistry"⟩
  message := "Stopped " ++ String.ofList (Decimal.natDigits count) ++ " tasks"

end Registry

end WalletPage
