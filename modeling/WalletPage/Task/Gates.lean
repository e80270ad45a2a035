import WalletPage.Task.Registry

/-! A registry whose tasks do nothing but wait at gates. A task leaves its name
behind when it comes through its gate. -/

namespace WalletPage

/-- A task that waits at a gate, if it has one. -/
structure GateTask where
  name : String
  gate : Option Nat
deriving DecidableEq, Repr

/-- What a gate is like for the task that waits at it. -/
inductive GateState where
  | shut
  | opened
  | gone
deriving DecidableEq, Repr

/-- A registry, the tasks in it and their gates. -/
structure GateYard where
  registry : Registry := {}
  executor : Executor GateTask := {}
  gates : List GateState := []
  /-- The newest gate of each name, while it has not been opened. -/
  newest : List (String × Nat) := []
  /-- The names that tasks have left behind. -/
  done : List String := []
  log : List LogEntry := []

namespace GateYard

/-- The task that waits at a gate. -/
def waiter? (y : GateYard) (gate : Nat) : Option TaskId :=
  (List.range y.executor.tasks.length).find? fun id =>
    (y.executor.live? id).any fun (task, _) => task.gate = some gate

/-- Changes a gate, and wakes the task that waits at it. -/
def setGate (y : GateYard) (gate : Nat) (state : GateState) : GateYard :=
  let y := { y with gates := y.gates.set gate state }
  match y.waiter? gate with
  | some id => { y with executor := y.executor.wake id }
  | none => y

/-- Starts a task, with a gate if asked for. A gate of the same name gives way to the new one. -/
def start (y : GateYard) (key : TaskKey) (name : String) (gated : Bool) :
    Fallible Unit × GateYard :=
  let gate := y.gates.length
  let y' := if gated then { y with gates := y.gates ++ [.shut] } else y
  let y' := if gated then
      let older := y'.newest.lookup name
      let y' := { y' with newest := (name, gate) :: y'.newest.filter (·.1 ≠ name) }
      match older with
      | some old => y'.setGate old .gone
      | none => y'
    else y'
  let (result, registry, executor) :=
    y'.registry.start y'.executor key ⟨name, if gated then some gate else none⟩
  (result, { y' with registry := registry, executor := executor })

/-- Opens the newest gate of a name: whether a task was still waiting at it, or
nothing if there is no gate. -/
def openGate (y : GateYard) (name : String) : Option Bool × GateYard :=
  match y.newest.lookup name with
  | none => (none, y)
  | some gate =>
    (some (y.waiter? gate).isSome,
      { y with newest := y.newest.filter (·.1 ≠ name) }.setGate gate .opened)

/-- What a task does in its turn. -/
def poll (y : GateYard) (id : TaskId) : GateYard :=
  match y.executor.live? id with
  | none => y
  | some (_, true) => { y with executor := y.executor.finish id }
  | some (task, false) =>
    match task.gate with
    | none => { y with executor := y.executor.finish id, done := y.done ++ [task.name] }
    | some gate =>
      match y.gates[gate]? with
      | some .opened => { y with executor := y.executor.finish id, done := y.done ++ [task.name] }
      | some .gone => { y with executor := y.executor.finish id }
      | _ => y

/-- Takes the next turn. -/
def step (y : GateYard) : Option GateYard :=
  y.executor.next?.map fun (id, e) => { y with executor := e }.poll id

/-- Runs all that can run. -/
def run (y : GateYard) : GateYard :=
  settle step y.executor.turns { y with executor := y.executor.enroll }

/-- Stops the task of a key. -/
def stop (y : GateYard) (key : TaskKey) : Bool × GateYard :=
  let (wasLive, registry, executor) := y.registry.stop y.executor key
  (wasLive, { y with registry := registry, executor := executor })

/-- Stops all tasks. -/
def stopAll (y : GateYard) : Nat × GateYard :=
  let (count, registry, executor) := y.registry.stopAll y.executor
  (count, { y with
    registry := registry, executor := executor, log := y.log ++ [Registry.stoppedEntry count] })

/-- Drops the executor with its tasks. -/
def close (y : GateYard) : GateYard :=
  { y with executor := y.executor.close }

end GateYard

end WalletPage
