import WalletPage.Run.Turn

/-! The services of a run: starting and stopping the tasks of a page. -/

namespace WalletPage.Run

variable {ρ σ : Type} [Host ρ σ]

/-- The source of the log lines of services. -/
def serviceComponent : Component := ⟨.application, "WalletViews"⟩

/-- Makes a service. -/
def addService (r : Run ρ σ) (session : SessionId) (config : Config) (access : ρ) :
    ServiceId × Run ρ σ :=
  let (selection, r) := r.addSelection
  let s : Service ρ := { session, config, access, selection }
  (r.services.length, { r with services := r.services ++ [s] })

/-- The binder of a view; the first time it is made and painted from the cache. -/
def binderFor (r : Run ρ σ) (id : ServiceId) (s : Service ρ) (v : View) : BinderId × Run ρ σ :=
  match s.binders.lookup v with
  | some binder => (binder, r)
  | none =>
    let b : Binder ρ :=
      { view := v, session := s.session, baseUrl := s.config.baseUrl, access := s.access }
    let ((b, _), r) := r.act b.hydrate
    let (binder, r) := r.addBinder { binder := b, selection := s.selection }
    (binder, r.setService id { s with binders := s.binders ++ [(v, binder)] })

/-- Starts a task of a service. -/
def startTask (r : Run ρ σ) (id : ServiceId) (key : TaskKey) (body : Body ρ) :
    Fallible Unit × Run ρ σ :=
  match r.services[id]? with
  | some s =>
    let (result, registry, executor) := s.registry.start r.executor key body
    (result, { r with executor := executor }.setService id { s with registry := registry })
  | none => (.ok (), r)

/-- Starts the task that polls a view, in the place of the old one. -/
def startView (r : Run ρ σ) (id : ServiceId) (v : View) : Fallible Unit × Run ρ σ :=
  match r.services[id]? with
  | some s =>
    let (binder, r) := r.binderFor id s v
    r.startTask id (.view v s.session) (.poll binder s.config.policy .start)
  | none => (.ok (), r)

/-- Starts the tasks that poll some views, up to one that cannot be started. -/
def startViews (r : Run ρ σ) (id : ServiceId) : List View → Fallible Unit × Run ρ σ
  | [] => (.ok (), r)
  | v :: rest =>
    match r.startView id v with
    | (.ok (), r) => startViews r id rest
    | (.error p, r) => (.error p, r)

/-- Starts the heartbeat, if it is wanted. -/
def startHeartbeat (r : Run ρ σ) (id : ServiceId) (s : Service ρ) : Fallible Unit × Run ρ σ :=
  if s.config.heartbeatEnabled then
    r.startTask id .heartbeat (.heartbeat s.access s.config.heartbeatInterval .start)
  else (.ok (), r)

/-- Sweeps the cache and starts all tasks. -/
def start (r : Run ρ σ) (id : ServiceId) : Fallible Unit × Run ρ σ :=
  match r.services[id]? with
  | some s =>
    let (_, r) := r.act (Cache.sweep s.access)
    match r.startViews id View.all with
    | (.error p, r) => (.error p, r)
    | (.ok (), r) =>
      match r.startHeartbeat id s with
      | (.error p, r) => (.error p, r)
      | (.ok (), r) =>
        (.ok (), r.perform (say s.access .info serviceComponent
          ("Polling started for session " ++ s.session.text)))
  | none => (.ok (), r)

/-- Selects a page of the transaction history, and asks for it at once. -/
def selectPage (r : Run ρ σ) (id : ServiceId) (page : PageNumber) : Fallible Unit × Run ρ σ :=
  match r.services[id]? with
  | some s =>
    match r.select s.selection page with
    | .error p => (.error p, r)
    | .ok r => r.startView id .txHistory
  | none => (.ok (), r)

/-- Sets the note on a transaction. -/
def saveNote (r : Run ρ σ) (id : ServiceId) (shortId text : String) : Fallible Unit × Run ρ σ :=
  match r.services[id]? with
  | some s => r.act (Notes.set s.access shortId text)
  | none => (.ok (), r)

/-- Stops one task of a service, and tells whether it was still going on. -/
def stopTask (r : Run ρ σ) (id : ServiceId) (key : TaskKey) : Bool × Run ρ σ :=
  match r.services[id]? with
  | some s =>
    let (wasLive, registry, executor) := s.registry.stop r.executor key
    (wasLive, { r with executor := executor }.setService id { s with registry := registry })
  | none => (false, r)

/-- Whether a task of a service goes on. -/
def isRunning (r : Run ρ σ) (id : ServiceId) (key : TaskKey) : Bool :=
  (r.services[id]?).any fun s => s.registry.isRunning r.executor key

/-- The tasks of a service that go on. -/
def running (r : Run ρ σ) (id : ServiceId) : List TaskKey :=
  match r.services[id]? with
  | some s => s.registry.running r.executor
  | none => []

/-- Whether a service polls a view. -/
def isPolling (r : Run ρ σ) (id : ServiceId) (v : View) : Bool :=
  (r.services[id]?).any fun s => s.registry.isRunning r.executor (.view v s.session)

end WalletPage.Run
