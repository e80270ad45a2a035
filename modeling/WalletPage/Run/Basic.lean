import WalletPage.Binder.Cycle
import WalletPage.Task.Lock
import WalletPage.Task.Registry

/-! A run of a page: the page itself, the binders and services on it, and the
tasks that keep the views up to date. A task holds its binder for a whole cycle,
also while it waits for the server, but not while it sleeps. -/

namespace WalletPage

/-- The number of a binder in a run. -/
abbrev BinderId := Nat

/-- The number of a service in a run. -/
abbrev ServiceId := Nat

/-- The number of a page selection in a run. -/
abbrev SelectionId := Nat

/-- A binder, the page selection that it follows, and the lock that tasks hold it by. -/
structure Shared (ρ : Type) where
  binder : Binder ρ
  selection : SelectionId
  lock : Lock := {}
deriving Repr

/-- How far a task has come that calls the server for an `α`. -/
inductive Phase (α : Type) where
  /-- At its beginning, or awake again. -/
  | start
  /-- Waiting at a place for a binder. -/
  | queued (place : Nat)
  /-- Waiting for an answer, which is held back. -/
  | waiting (answer : α)
  /-- The answer was released. -/
  | answered (answer : α)
  | sleeping
deriving Repr

/-- What a task does. -/
inductive Body (ρ : Type) where
  /-- Runs the cycles of a binder. -/
  | poll (binder : BinderId) (policy : Policy) (phase : Phase (Fallible (Option Snapshot)))
  /-- Keeps the server from shutting down. -/
  | heartbeat (access : ρ) (interval : Millis) (phase : Phase (Fallible Unit))
  /-- Shuts the server down, as was promised under a number. -/
  | shutdown (service : ServiceId) (promise : Nat) (phase : Phase (Fallible Bool))
deriving Repr

/-- What one load of a page runs: a binder for each view, made when it is first
needed, and the tasks that poll. -/
structure Service (ρ : Type) where
  session : SessionId
  config : Config
  access : ρ
  selection : SelectionId
  registry : Registry := {}
  binders : List (View × BinderId) := []
deriving Repr

/-- A page with everything that runs on it. -/
structure Run (ρ σ : Type) where
  world : σ
  selections : List (Option PageNumber) := []
  binders : List (Shared ρ) := []
  services : List (Service ρ) := []
  executor : Executor (Body ρ) := {}
  /-- The tasks that sleep, in the order in which they fell asleep. -/
  sleepers : List TaskId := []
  /-- The tasks whose answers are held back, with the keys, in the order of asking. -/
  held : List (String × TaskId) := []
  /-- The promises that were kept, with what came of them. -/
  settled : List (Nat × Fallible Bool) := []

namespace Run

variable {ρ σ : Type}

/-- Does something with the page. -/
def act {α : Type} (r : Run ρ σ) (action : StateM σ α) : α × Run ρ σ :=
  let (a, world) := action.run r.world
  (a, { r with world := world })

/-- Does something with the page that has no result. -/
def perform (r : Run ρ σ) (action : StateM σ Unit) : Run ρ σ :=
  (r.act action).2

/-- The page number of a selection; nothing until one was selected. -/
def selected (r : Run ρ σ) (id : SelectionId) : Option PageNumber :=
  (r.selections[id]?).join

/-- Selects a page. -/
def select (r : Run ρ σ) (id : SelectionId) (page : PageNumber) : Fallible (Run ρ σ) :=
  if page = 0 then .error (ValidationProblem.invalidPage "pages start at 1")
  else .ok { r with selections := r.selections.set id (some page) }

/-- Makes a page selection. -/
def addSelection (r : Run ρ σ) : SelectionId × Run ρ σ :=
  (r.selections.length, { r with selections := r.selections ++ [none] })

/-- Adds a binder. -/
def addBinder (r : Run ρ σ) (shared : Shared ρ) : BinderId × Run ρ σ :=
  (r.binders.length, { r with binders := r.binders ++ [shared] })

/-- Changes a binder. -/
def setBinder (r : Run ρ σ) (id : BinderId) (b : Binder ρ) : Run ρ σ :=
  { r with binders := r.binders.modify id fun s => { s with binder := b } }

/-- Changes the lock of a binder. -/
def setLock (r : Run ρ σ) (id : BinderId) (lock : Lock) : Run ρ σ :=
  { r with binders := r.binders.modify id fun s => { s with lock := lock } }

/-- Wakes a task, if there is one to wake. -/
def wake (r : Run ρ σ) (task : Option TaskId) : Run ρ σ :=
  match task with
  | some id => { r with executor := r.executor.wake id }
  | none => r

/-- Lets a binder go, and wakes the task that comes next. -/
def release (r : Run ρ σ) (id : BinderId) : Run ρ σ :=
  match r.binders[id]? with
  | some s =>
    let (next, lock) := s.lock.release
    (r.setLock id lock).wake next
  | none => r

/-- Gives up the place of a task that will not wait any longer. -/
def leave (r : Run ρ σ) (id : BinderId) (place : Nat) : Run ρ σ :=
  match r.binders[id]? with
  | some s =>
    let (next, lock) := s.lock.leave place
    (r.setLock id lock).wake next
  | none => r

/-- Gives a task another body. -/
def setBody (r : Run ρ σ) (id : TaskId) (body : Body ρ) : Run ρ σ :=
  { r with executor := r.executor.setBody id body }

/-- Brings a task to its end. -/
def finishTask (r : Run ρ σ) (id : TaskId) : Run ρ σ :=
  { r with executor := r.executor.finish id }

/-- Changes a service. -/
def setService (r : Run ρ σ) (id : ServiceId) (s : Service ρ) : Run ρ σ :=
  { r with services := r.services.set id s }

end Run

end WalletPage
