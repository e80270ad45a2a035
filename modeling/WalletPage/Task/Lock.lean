import WalletPage.Task.Executor

/-! Locks that tasks wait for. Whoever waits has a numbered place; when the lock
is let go, the waiter with the lowest place is woken, unless it was already. A
woken waiter has no right to the lock: it takes it if it is still free at its
turn. The last place that was given up is the first to be given out again. -/

namespace WalletPage

/-- A task that waits for a lock. -/
structure Waiter where
  place : Nat
  task : TaskId
  isWoken : Bool := false
deriving DecidableEq, Repr

/-- A lock: who holds it, who waits for it, and which places were given up, the
last one first. -/
structure Lock where
  holder : Option TaskId := none
  /-- Those who wait, in the order of their places. -/
  waiters : List Waiter := []
  vacant : List Nat := []
  /-- How many places there are. -/
  places : Nat := 0
deriving DecidableEq, Repr

namespace Lock

/-- Whether nobody holds the lock. -/
def isFree (l : Lock) : Bool :=
  l.holder.isNone

/-- Gives the lock to a task. -/
def take (l : Lock) (task : TaskId) : Lock :=
  { l with holder := some task }

/-- A waiter among others, in the order of the places. -/
def insertWaiter (w : Waiter) : List Waiter → List Waiter
  | [] => [w]
  | v :: rest => if w.place < v.place then w :: v :: rest else v :: insertWaiter w rest

/-- Gives a task a place to wait at. -/
def join (l : Lock) (task : TaskId) : Nat × Lock :=
  match l.vacant with
  | place :: rest =>
    (place, { l with waiters := insertWaiter ⟨place, task, false⟩ l.waiters, vacant := rest })
  | [] =>
    (l.places, { l with
      waiters := insertWaiter ⟨l.places, task, false⟩ l.waiters, places := l.places + 1 })

/-- Lets a waiter wait on at its place. -/
def rejoin (l : Lock) (place : Nat) : Lock :=
  { l with waiters := l.waiters.map fun w =>
      if w.place = place then { w with isWoken := false } else w }

/-- Wakes the waiter with the lowest place; the task to wake, if it was not woken before. -/
def wakeFirst (l : Lock) : Option TaskId × Lock :=
  match l.waiters with
  | [] => (none, l)
  | w :: rest =>
    (if w.isWoken then none else some w.task,
      { l with waiters := { w with isWoken := true } :: rest })

/-- Whether the waiter at a place was woken. -/
def isWoken (l : Lock) (place : Nat) : Bool :=
  l.waiters.any fun w => w.place = place && w.isWoken

/-- Gives up a place. -/
def vacate (l : Lock) (place : Nat) : Lock :=
  { l with waiters := l.waiters.filter (·.place ≠ place), vacant := place :: l.vacant }

/-- Gives up a place for good; a waiter that was woken passes the call on. -/
def leave (l : Lock) (place : Nat) : Option TaskId × Lock :=
  if l.isWoken place then (l.vacate place).wakeFirst else (none, l.vacate place)

/-- Lets the lock go. -/
def release (l : Lock) : Option TaskId × Lock :=
  { l with holder := none }.wakeFirst

end Lock

end WalletPage
