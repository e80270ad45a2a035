import WalletPage.Cache.Notes
import WalletPage.Cache.Snapshots
import WalletPage.Render.Basic

/-! A binder keeps one view of a page up to date. This module holds what a binder
remembers, and how it paints. -/

namespace WalletPage

/-- What keeps one view of a page up to date. -/
structure Binder (ρ : Type) where
  view : View
  session : SessionId
  baseUrl : String
  access : ρ
  /-- What the page shows, as far as this binder has painted it. -/
  lastRendered : Option Snapshot := none
  /-- Whether the view was ever found mounted. -/
  anchorSeen : Bool := false
  /-- Whether the transition form was asked for. -/
  transitioned : Bool := false
deriving Repr

/-- Applies updates in order, up to one that fails, and counts the elements that changed. -/
def applyAll {ρ σ : Type} [Host ρ σ] (access : ρ) : Nat → List Update → StateM σ (Fallible Nat)
  | count, [] => return .ok count
  | count, u :: rest => do
    match ← Host.apply access u with
    | .ok n => applyAll access (count + n) rest
    | .error p => return .error p

namespace Binder

variable {ρ σ : Type} [Host ρ σ]

/-- The source of the log lines of binders. -/
def component : Component := ⟨.application, "ViewBinder"⟩

/-- Logs a message of a binder. -/
def tell (b : Binder ρ) (level : LogLevel) (message : String) : StateM σ Unit :=
  say b.access level component message

/-- The short transaction ids in a snapshot. -/
def shortIds : Snapshot → List String
  | .txHistory page => page.lines.map (·.shortId)
  | _ => []

/-- Paints a snapshot, and counts the elements that changed. -/
def paint (b : Binder ρ) (s : Snapshot) : StateM σ (Fallible Nat) := do
  let notes ← Notes.forIds b.access (shortIds s)
  let cacheBuster ← Host.cacheBuster b.access
  let ctx : RenderContext :=
    { session := b.session, baseUrl := b.baseUrl, cacheBuster := cacheBuster,
      note := fun id => notes.lookup id }
  applyAll b.access 0 (s.updates b.view ctx)

/-- A number of elements, as log lines tell it. -/
def elementCount (count : Nat) : String :=
  "(" ++ numeral count ++ " elements)"

/-- Paints the snapshot in the cache, if the view is of that kind and mounted. -/
def hydrate (b : Binder ρ) : StateM σ (Binder ρ × Bool) := do
  if b.view.hydrates then
    if ← Host.anchorPresent b.access b.view.anchor then
      match ← Cache.load b.access b.session b.view with
      | none => return (b, false)
      | some cached =>
        match ← b.paint cached with
        | .ok count =>
          b.tell .debug ("Hydrated " ++ b.view.name ++ " from cache " ++ elementCount count)
          return ({ b with anchorSeen := true, lastRendered := some cached }, true)
        | .error p =>
          b.tell .warn ("Hydrating " ++ b.view.name ++ " failed: " ++ p.detail)
          return (b, false)
    else return (b, false)
  else return (b, false)

end Binder

end WalletPage
