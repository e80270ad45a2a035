import WalletPage.Binder.Basic
import WalletPage.Poll.Policy

/-! One cycle of a binder: look for the view, ask the server, compare, paint and
keep. A cycle has two halves, before and after the answer of the server, since
the answer may be held back. -/

namespace WalletPage

/-- Where the first half of a cycle has come to. -/
inductive Begun where
  | ended (outcome : Outcome)
  | asked (reply : Reply (Fallible (Option Snapshot)))
deriving Repr

namespace Binder

variable {ρ σ : Type} [Host ρ σ]

/-- The question that the binder asks, with the page that was selected. -/
def request (b : Binder ρ) (page : Option PageNumber) : Request where
  view := b.view
  session := b.session
  page := if b.view.isPaged then page else none

/-- The first half of a cycle: without its anchor the view is left alone. A view
that was not seen before is painted from the cache while the server is asked. -/
def begin (b : Binder ρ) (page : Option PageNumber) : StateM σ (Binder ρ × Begun) := do
  if ← Host.anchorPresent b.access b.view.anchor then
    let (b, _) ← if !b.anchorSeen && b.lastRendered.isNone then b.hydrate else pure (b, false)
    let b := { b with anchorSeen := true }
    let reply ← Host.fetch b.access (b.request page)
    return (b, .asked reply)
  else
    b.tell .trace (b.view.name ++ " anchor " ++ b.view.anchor.text ++ " not mounted")
    return (b, .ended .anchorAbsent)

/-- Submits the transition form of the view, at most once, and tells whether this was the time. -/
def fireTransition (b : Binder ρ) : StateM σ (Binder ρ × Bool) := do
  match b.view.transitionForm? with
  | none => return (b, false)
  | some form =>
    if b.transitioned then return (b, false)
    else
      let reached := b.view.name ++ " reached its terminal state"
      if ← Host.submitForm b.access form then
        b.tell .info (reached ++ ", submitted #" ++ form)
      else
        b.tell .warn (reached ++ " but #" ++ form ++ " is missing")
      return ({ b with transitioned := true }, true)

/-- Keeps a snapshot that was painted; a store that refuses it does no harm. -/
def keepPainted (b : Binder ρ) (s : Snapshot) : StateM σ Unit := do
  match ← Cache.keep b.access b.session b.view s with
  | .ok () => return ()
  | .error p => b.tell .warn ("Caching " ++ b.view.name ++ " failed: " ++ p.detail)

/-- Notes that the page shows a snapshot, and ends the cycle. -/
def conclude (b : Binder ρ) (s : Snapshot) (changed : Bool) : StateM σ (Binder ρ × Outcome) := do
  let b := { b with lastRendered := some s }
  let (b, fired) ← if s.isTerminal then b.fireTransition else pure (b, false)
  return (b, if fired then .terminal else if changed then .rendered else .unchanged)

/-- Shows a snapshot that belongs to the view, unless the page and the cache have it already. -/
def accept (b : Binder ρ) (s : Snapshot) : StateM σ (Binder ρ × Outcome) := do
  let isKept ← if b.lastRendered = some s then Cache.contains b.access b.session b.view
    else pure false
  if isKept then b.conclude s false
  else
    match ← b.paint s with
    | .error p =>
      b.tell .warn ("Rendering " ++ b.view.name ++ " failed: " ++ p.detail)
      return (b, .failed)
    | .ok count =>
      b.tell .debug ("Rendered " ++ b.view.name ++ " " ++ elementCount count)
      b.keepPainted s
      b.conclude s true

/-- The second half of a cycle, with the answer of the server. -/
def finish (b : Binder ρ) (answer : Fallible (Option Snapshot)) :
    StateM σ (Binder ρ × Outcome) := do
  match answer with
  | .error p =>
    b.tell .warn ("Refreshing " ++ b.view.name ++ " failed: " ++ p.text)
    return (b, .failed)
  | .ok none => return (b, .empty)
  | .ok (some s) =>
    if s.matchesView b.view then b.accept s
    else
      b.tell .warn (b.view.name ++ " received a snapshot for another view")
      return (b, .failed)

end Binder

end WalletPage
