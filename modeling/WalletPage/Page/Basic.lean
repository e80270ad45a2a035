import WalletPage.Cache.Snapshots
import WalletPage.Render.Basic
import WalletPage.Snapshot.Payload
import WalletPage.Store.Basic

/-! A page in memory: which elements are mounted, what the server will answer,
what the store holds, and everything that has happened so far. -/

namespace WalletPage

/-- What happens to a page. -/
inductive Event where
  | logged (entry : LogEntry)
  | updated (update : Update)
  | submitted (form : String)
  | replaced (container html : String)
  | requested (request : Request)
  | slept (ms : Nat)
  | askedShutdown
  | beat
deriving DecidableEq, Repr

/-- An answer that the server has ready for a view. -/
structure Prepared where
  result : Fallible (Option Snapshot) := .ok none
  isHeld : Bool := false
deriving Repr

/-- A page in memory. -/
structure Page where
  /-- How many elements each mounted target means. -/
  mounted : List (Target × Nat) := []
  forms : List String := []
  /-- The target whose changes fail. -/
  failing : Option Target := none
  cacheBuster : String := "cb"
  store : Store := .empty
  /-- Whether the store refuses to be written. -/
  isStoreFull : Bool := false
  answers : List (View × List Prepared) := []
  /-- What the server says to a shutdown. -/
  acknowledgement : Fallible Bool := .ok false
  heartbeatFailure : Option Problem := none
  /-- What has happened, the latest last. -/
  events : List Event := []

/-- The way to a page in memory; there is only one. -/
inductive PageAccess where
  | only
deriving DecidableEq, Repr

namespace Page

/-- The page after one more event. -/
def record (p : Page) (event : Event) : Page :=
  { p with events := p.events ++ [event] }

/-- How many elements a target means; nothing if it is not mounted. -/
def count? (p : Page) (target : Target) : Option Nat :=
  p.mounted.lookup target

/-- The answers that are left for a view. -/
def answersFor (p : Page) (v : View) : List Prepared :=
  (p.answers.lookup v).getD []

/-- The page with other answers for a view. -/
def setAnswers (p : Page) (v : View) (queue : List Prepared) : Page :=
  { p with answers := (v, queue) :: p.answers.filter (·.1 ≠ v) }

/-- The next answer for a view. The last one stays. -/
def takeAnswer (p : Page) (v : View) : Prepared × Page :=
  match p.answersFor v with
  | [] => ({}, p)
  | [last] => (last, p)
  | next :: rest => (next, p.setAnswers v rest)

/-- Writes to the store, if it can be written. -/
def write (p : Page) (key value : String) : Fallible Unit × Page :=
  if p.isStoreFull then (.error (StorageProblem.writeFailed (key ++ ": quota exceeded")), p)
  else (.ok (), { p with store := p.store.put key value })

/-- Changes the elements of a target. -/
def applyUpdate (p : Page) (u : Update) : Fallible Nat × Page :=
  if p.failing = some u.target then
    (.error (UiProblem.updateFailed (u.target.text ++ ": refused")), p)
  else
    match (p.count? u.target).getD 0 with
    | 0 => (.ok 0, p)
    | n + 1 => (.ok (n + 1), p.record (.updated u))

/-- Asks the server for a snapshot. -/
def ask (p : Page) (request : Request) : Reply (Fallible (Option Snapshot)) × Page :=
  let (next, p) := (p.record (.requested request)).takeAnswer request.view
  (if next.isHeld then .held request.view.name next.result else .ready next.result, p)

instance : Host PageAccess Page where
  get? _ key := fun p => (p.store.get? key, p)
  set _ key value := fun p => p.write key value
  remove _ key := fun p => ((), { p with store := p.store.erase key })
  keys _ := fun p => (p.store.keys, p)
  anchorPresent _ target := fun p => ((p.count? target).isSome, p)
  apply _ u := fun p => p.applyUpdate u
  submitForm _ form := fun p =>
    if p.forms.contains form then (true, p.record (.submitted form)) else (false, p)
  replacePage _ container html := fun p =>
    ((), { p.record (.replaced container html) with mounted := [] })
  cacheBuster _ := fun p => (p.cacheBuster, p)
  fetch _ request := fun p => p.ask request
  shutdown _ := fun p => (.ready p.acknowledgement, p.record .askedShutdown)
  heartbeat _ := fun p =>
    (.ready (match p.heartbeatFailure with
      | none => .ok ()
      | some failure => .error failure), p.record .beat)
  sleep _ ms := fun p => ((), p.record (.slept ms))
  log _ entry := fun p => ((), p.record (.logged entry))

/-- Mounts a target on that many elements. -/
def mount (p : Page) (target : Target) (count : Nat) : Page :=
  { p with mounted := (target, count) :: p.mounted.filter (·.1 ≠ target) }

/-- Takes a target off the page. -/
def unmount (p : Page) (target : Target) : Page :=
  { p with mounted := p.mounted.filter (·.1 ≠ target) }

/-- Adds or removes a form. -/
def setForm (p : Page) (form : String) (isPresent : Bool) : Page :=
  let others := p.forms.filter (· ≠ form)
  { p with forms := if isPresent then form :: others else others }

/-- The elements that a view paints. -/
def elementsOf (v : View) : List Target :=
  v.anchor :: match v with
    | .balance => [.byClass "confirmed", .byClass "unconfirmed", .byClass "spf_funds",
        .byClass "spf_b_funds", .id "whale_size", .id "whale_size_button"]
    | .blockHeight => [.byClass "status"]
    | .txHistory => [txHistoryPageCount, txHistoryPages]
    | _ => []

/-- Mounts everything that a view paints, and its transition form. -/
def mountView (p : Page) (v : View) : Page :=
  let p := (elementsOf v).foldl (fun p target => p.mount target 1) p
  match v.transitionForm? with
  | some form => p.setForm form true
  | none => p

/-- Lets the server have one more answer ready for a view. -/
def prepare (p : Page) (v : View) (answer : Prepared) : Page :=
  p.setAnswers v (p.answersFor v ++ [answer])

/-- The page after it was loaded anew: only the store is what it was. -/
def reload (p : Page) : Page :=
  { store := p.store, isStoreFull := p.isStoreFull, events := p.events }

end Page

end WalletPage
