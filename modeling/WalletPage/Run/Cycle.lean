import WalletPage.Run.Basic

/-! Cycles of the binders of a run, as steps of the whole run. A cycle that is
run directly is given up where the answer of the server is held back. -/

namespace WalletPage.Run

variable {ρ σ : Type} [Host ρ σ]

/-- The source of the log lines about what comes after a cycle. -/
def pollComponent : Component := ⟨.application, "PollTask"⟩

/-- The first half of a cycle. -/
def beginCycle (r : Run ρ σ) (id : BinderId) (s : Shared ρ) : Begun × Run ρ σ :=
  let ((b, begun), r) := r.act (s.binder.begin (r.selected s.selection))
  (begun, r.setBinder id b)

/-- The second half of a cycle. -/
def finishCycle (r : Run ρ σ) (id : BinderId) (answer : Fallible (Option Snapshot)) :
    Outcome × Run ρ σ :=
  match r.binders[id]? with
  | some s =>
    let ((b, outcome), r) := r.act (s.binder.finish answer)
    (outcome, r.setBinder id b)
  | none => (.failed, r)

/-- Decides what comes after a cycle, and logs it. -/
def decide (r : Run ρ σ) (id : BinderId) (policy : Policy) (outcome : Outcome) :
    Next × Run ρ σ :=
  match r.binders[id]? with
  | some s =>
    let b := s.binder
    let next := policy.next b.view outcome b.anchorSeen
    let r := r.perform (say b.access .trace pollComponent
      (b.view.name ++ " -> " ++ outcome.name ++ ", next " ++ next.text))
    (next, match next with
      | .stop => r.perform (say b.access .info pollComponent
          ("Stopped polling " ++ b.view.name ++ " after " ++ outcome.name))
      | .after _ => r)
  | none => (.stop, r)

/-- Does something with a binder that no task holds; nothing if one does. -/
def withBinder {α : Type} (r : Run ρ σ) (id : BinderId) (f : Shared ρ → Run ρ σ → α × Run ρ σ) :
    Option (α × Run ρ σ) :=
  match r.binders[id]? with
  | some s =>
    if s.lock.isFree then
      let (a, r) := f s r
      some (a, r.release id)
    else none
  | none => none

/-- Paints a view from the cache, if no task holds the binder. -/
def hydrate (r : Run ρ σ) (id : BinderId) : Option (Bool × Run ρ σ) :=
  r.withBinder id fun s r =>
    let ((b, painted), r) := r.act s.binder.hydrate
    (painted, r.setBinder id b)

/-- Runs a cycle up to its outcome; there is none if the answer is held back. -/
def cycle (r : Run ρ σ) (id : BinderId) (s : Shared ρ) : Option Outcome × Run ρ σ :=
  match r.beginCycle id s with
  | (.ended outcome, r) => (some outcome, r)
  | (.asked (.held _ _), r) => (none, r)
  | (.asked (.ready answer), r) =>
    let (outcome, r) := r.finishCycle id answer
    (some outcome, r)

/-- Runs a cycle, if no task holds the binder. -/
def refresh (r : Run ρ σ) (id : BinderId) : Option (Option Outcome × Run ρ σ) :=
  r.withBinder id fun s r => r.cycle id s

/-- Runs a cycle and decides what comes next, if no task holds the binder. -/
def step (r : Run ρ σ) (id : BinderId) (policy : Policy) : Option (Option Next × Run ρ σ) :=
  r.withBinder id fun s r =>
    match r.cycle id s with
    | (some outcome, r) =>
      let (next, r) := r.decide id policy outcome
      (some next, r)
    | (none, r) => (none, r)

end WalletPage.Run
