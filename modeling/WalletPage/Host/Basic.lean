import WalletPage.Log.Entry
import WalletPage.Render.Update
import WalletPage.Session
import WalletPage.Snapshot.Basic

/-! What the views need of the page that they run in: a store, the elements of
the page, the server, a timer and a log. A page is a state; a service reaches
its part of the page through an access of its own. -/

namespace WalletPage

/-- A question for the snapshot of a view. -/
structure Request where
  view : View
  session : SessionId
  page : Option PageNumber
deriving DecidableEq, Repr

/-- The answer to a question, which is chosen when the question is asked: it is
there at once, or held back until its key is released. -/
inductive Reply (α : Type) where
  | ready (answer : α)
  | held (key : String) (answer : α)
deriving DecidableEq, Repr

/-- What can be done with a page of state `σ` through an access of type `ρ`. -/
class Host (ρ : Type) (σ : outParam Type) where
  get? : ρ → String → StateM σ (Option String)
  set : ρ → String → String → StateM σ (Fallible Unit)
  remove : ρ → String → StateM σ Unit
  keys : ρ → StateM σ (List String)
  anchorPresent : ρ → Target → StateM σ Bool
  /-- Gives the number of elements that were changed; none is no failure. -/
  apply : ρ → Update → StateM σ (Fallible Nat)
  /-- Tells whether the page has the form. -/
  submitForm : ρ → String → StateM σ Bool
  /-- Replaces the content of a container, or all of the page if it is missing. -/
  replacePage : ρ → String → String → StateM σ Unit
  /-- A text that makes an address new to the browser. -/
  cacheBuster : ρ → StateM σ String
  fetch : ρ → Request → StateM σ (Reply (Fallible (Option Snapshot)))
  shutdown : ρ → StateM σ (Reply (Fallible Bool))
  heartbeat : ρ → StateM σ (Reply (Fallible Unit))
  sleep : ρ → Nat → StateM σ Unit
  log : ρ → LogEntry → StateM σ Unit

variable {ρ σ : Type} [Host ρ σ]

/-- Logs a message of a component. -/
def say (access : ρ) (level : LogLevel) (component : Component) (message : String) :
    StateM σ Unit :=
  Host.log access ⟨level, component, message⟩

end WalletPage
