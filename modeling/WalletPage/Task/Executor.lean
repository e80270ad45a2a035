/-! Tasks on one thread. A task runs when it is its turn, and whoever makes it
able to go on wakes it. New tasks take their first turn after those that were
woken before. Aborting a task only marks it; its next turn disposes of it. -/

namespace WalletPage

/-- The number of a task, in the order in which tasks were spawned. -/
abbrev TaskId := Nat

/-- What has become of a task. -/
inductive TaskState (β : Type) where
  | live (body : β) (isAborted : Bool)
  | ended
  | lost
deriving Repr

/-- All tasks, and which of them are to run. -/
structure Executor (β : Type) where
  tasks : List (TaskState β) := []
  /-- The tasks that were woken, in that order. -/
  ready : List TaskId := []
  /-- The tasks that have not had a turn yet, in the order of spawning. -/
  fresh : List TaskId := []
  /-- Whether no task can be spawned any more. -/
  isClosed : Bool := false
deriving Repr

namespace Executor

variable {β : Type}

/-- A task that has neither ended nor been lost, and whether it was aborted. -/
def live? (e : Executor β) (id : TaskId) : Option (β × Bool) :=
  match e.tasks[id]? with
  | some (.live body isAborted) => some (body, isAborted)
  | _ => none

/-- Whether a task has come to its end. -/
def hasEnded (e : Executor β) (id : TaskId) : Bool :=
  match e.tasks[id]? with
  | some .ended => true
  | _ => false

/-- Whether a task exists that was told to stop. -/
def isAborted (e : Executor β) (id : TaskId) : Bool :=
  (e.live? id).any (·.2)

/-- Whether a task still exists. -/
def isLive (e : Executor β) (id : TaskId) : Bool :=
  (e.live? id).isSome

/-- Changes what has become of a task. -/
def setTask (e : Executor β) (id : TaskId) (state : TaskState β) : Executor β :=
  { e with tasks := e.tasks.set id state }

/-- Adds a task, unless the executor is closed. -/
def spawn (e : Executor β) (body : β) : Option (TaskId × Executor β) :=
  if e.isClosed then none
  else
    let id := e.tasks.length
    some (id, { e with tasks := e.tasks ++ [.live body false], fresh := e.fresh ++ [id] })

/-- Gives a task a turn, unless one is coming to it anyway. -/
def wake (e : Executor β) (id : TaskId) : Executor β :=
  if e.isLive id && !e.fresh.contains id && !e.ready.contains id then
    { e with ready := e.ready ++ [id] }
  else e

/-- Marks a task as aborted, and gives it the turn that disposes of it. -/
def abort (e : Executor β) (id : TaskId) : Executor β :=
  match e.live? id with
  | some (body, _) => (e.setTask id (.live body true)).wake id
  | none => e

/-- Lets the new tasks take their first turn. -/
def enroll (e : Executor β) : Executor β :=
  { e with ready := e.ready ++ e.fresh, fresh := [] }

/-- The task whose turn it is. -/
def next? (e : Executor β) : Option (TaskId × Executor β) :=
  match e.ready with
  | [] => none
  | id :: rest => some (id, { e with ready := rest })

/-- Gives a live task another body. -/
def setBody (e : Executor β) (id : TaskId) (body : β) : Executor β :=
  match e.live? id with
  | some (_, isAborted) => e.setTask id (.live body isAborted)
  | none => e

/-- Brings a task to its end. -/
def finish (e : Executor β) (id : TaskId) : Executor β :=
  e.setTask id .ended

/-- Loses every task that has not ended. -/
def close (e : Executor β) : Executor β where
  tasks := e.tasks.map fun
    | .live _ _ => .lost
    | state => state
  isClosed := true

/-- Enough turns for all tasks to come to a rest: each task that has a turn, and
a few for each that is woken meanwhile. -/
def turns (e : Executor β) : Nat :=
  4 * e.tasks.length + e.ready.length + e.fresh.length + 4

end Executor

/-- Takes steps as long as there is one, but not more than that many. -/
def settle {α : Type} (step : α → Option α) : Nat → α → α
  | 0, a => a
  | n + 1, a =>
    match step a with
    | some b => settle step n b
    | none => a

end WalletPage
