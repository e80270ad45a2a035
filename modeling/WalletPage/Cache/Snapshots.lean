import WalletPage.Host.Basic
import WalletPage.Snapshot.Stored
import WalletPage.View.CacheKey

/-! The last snapshot of each view, kept in the store under the session's own
keys. Whatever stands under such a key and is no snapshot of the view is dropped
when it is read. -/

namespace WalletPage.Cache

variable {ρ σ : Type} [Host ρ σ]

/-- The source of the cache's log lines. -/
def component : Component := ⟨.application, "SnapshotCache"⟩

/-- Removes an entry that cannot be used. -/
def drop (access : ρ) (key message : String) : StateM σ (Option Snapshot) := do
  say access .warn component message
  Host.remove access key
  return none

/-- The snapshot that is kept for a view. -/
def load (access : ρ) (session : SessionId) (v : View) : StateM σ (Option Snapshot) := do
  let key := v.cacheKey session.text
  match ← Host.get? access key with
  | none => return none
  | some raw =>
    match Snapshot.ofStored raw with
    | .ok s =>
      if s.matchesView v then return some s
      else drop access key ("Dropping " ++ key ++ ": stored snapshot belongs to another view")
    | .error e => drop access key ("Dropping undecodable " ++ key ++ ": " ++ e.message)

/-- Whether anything is kept for a view. -/
def contains (access : ρ) (session : SessionId) (v : View) : StateM σ Bool := do
  return (← Host.get? access (v.cacheKey session.text)).isSome

/-- Keeps a snapshot for a view that it belongs to. -/
def keep (access : ρ) (session : SessionId) (v : View) (s : Snapshot) :
    StateM σ (Fallible Unit) := do
  if s.matchesView v then
    let key := v.cacheKey session.text
    match ← Host.set access key s.stored with
    | .error p => return .error p
    | .ok () =>
      say access .debug component ("Stored " ++ key)
      return .ok ()
  else
    return .error (StorageProblem.serialization ("snapshot does not belong to " ++ v.name))

/-- Whether a key looks like one of the cache and belongs to no view. -/
def isStale (key : String) : Bool :=
  isSnapshotKey key && (View.ofCacheKey? key).isNone

/-- Removes entries one after the other. -/
def removeAll (access : ρ) : List String → StateM σ Unit
  | [] => return ()
  | key :: rest => do
    Host.remove access key
    removeAll access rest

/-- Removes the stale entries of all sessions, and counts them. -/
def sweep (access : ρ) : StateM σ Nat := do
  let stale := (← Host.keys access).filter isStale
  removeAll access stale
  if !stale.isEmpty then
    say access .info component
      ("Swept " ++ String.ofList (Decimal.natDigits stale.length) ++ " stale cache entries")
  return stale.length

end WalletPage.Cache
