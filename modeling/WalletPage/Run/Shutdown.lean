import WalletPage.Render.Notice
import WalletPage.Run.Basic

/-! Shutting the server down. Once the server has agreed, every task of the
service is stopped and a notice takes the place of the page. -/

namespace WalletPage.Run

variable {ρ σ : Type} [Host ρ σ]

/-- The source of the log lines about shutting down. -/
def shutdownComponent : Component := ⟨.application, "Shutdown"⟩

/-- Stops all tasks of a service, and counts those that were still going on. -/
def stopAll (r : Run ρ σ) (id : ServiceId) : Nat × Run ρ σ :=
  match r.services[id]? with
  | some s =>
    let (count, registry, executor) := s.registry.stopAll r.executor
    let r := { r with executor := executor }.setService id { s with registry := registry }
    (count, r.perform (Host.log s.access (Registry.stoppedEntry count)))
  | none => (0, r)

/-- What follows from the server's answer to a shutdown. -/
def finishShutdown (r : Run ρ σ) (id : ServiceId) (answer : Fallible Bool) :
    Fallible Bool × Run ρ σ :=
  match r.services[id]?, answer with
  | none, _ => (answer, r)
  | some _, .error p => (.error p, r)
  | some s, .ok false =>
    (.ok false, r.perform
      (say s.access .warn shutdownComponent "Server declined the shutdown request"))
  | some s, .ok true =>
    let (_, r) := r.stopAll id
    (.ok true, r.perform do
      Host.replacePage s.access contentContainer (shutdownNotice s.config.baseUrl).html
      say s.access .info shutdownComponent "Wallet server shut down")

/-- Shuts the server down; nothing comes of it if the answer is held back. -/
def shutdown (r : Run ρ σ) (id : ServiceId) : Option (Fallible Bool) × Run ρ σ :=
  match r.services[id]? with
  | some s =>
    match r.act (Host.shutdown s.access) with
    | (.ready answer, r) =>
      let (result, r) := r.finishShutdown id answer
      (some result, r)
    | (.held _ _, r) => (none, r)
  | none => (none, r)

end WalletPage.Run
