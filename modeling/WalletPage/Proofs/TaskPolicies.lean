import WalletPage.Proofs.CancelSafety

/-! What becomes of the tasks of a service. A task that has come to its end stays there, and a
task that polls keeps to the policy of the service from its start on. -/

namespace WalletPage

variable {ρ σ : Type}

/-- A body at its beginning. -/
def Body.anew : Body ρ → Body ρ
  | .poll b policy _ => .poll b policy .start
  | .heartbeat access interval _ => .heartbeat access interval .start
  | .shutdown service promise _ => .shutdown service promise .start

/-- Whether a property of bodies does not depend on how far they have come. -/
def Body.Steady (p : Body ρ → Prop) : Prop :=
  ∀ body body' : Body ρ, p body → body.anew = body'.anew → p body'

theorem Body.anew_awakened (body : Body ρ) : (Run.awakened body).anew = body.anew := by
  cases body with
  | poll b policy phase => cases phase <;> rfl
  | heartbeat access interval phase => cases phase <;> rfl
  | shutdown => rfl

theorem Body.anew_answered (body : Body ρ) : (Run.answered body).anew = body.anew := by
  cases body with
  | poll b policy phase => cases phase <;> rfl
  | heartbeat access interval phase => cases phase <;> rfl
  | shutdown service promise phase => cases phase <;> rfl

/-- Whether a body that polls keeps to a policy. -/
def Body.KeepsTo (policy : Policy) : Body ρ → Prop
  | .poll _ policy' _ => policy' = policy
  | _ => True

theorem Body.steady_keepsTo (policy : Policy) : Body.Steady (Body.KeepsTo (ρ := ρ) policy) := by
  intro body body' hkeeps hsame
  cases body <;> cases body' <;> simp_all [anew, KeepsTo]

/-- What becomes of tasks: those that have ended stay so, and new bodies have the property. -/
structure Executor.Heeds (p : Body ρ → Prop) (e e' : Executor (Body ρ)) : Prop where
  ended : ∀ t, e.hasEnded t = true → e'.hasEnded t = true
  bodies : ∀ t body ab, e'.live? t = some (body, ab) →
    p body ∨ ∃ ab', e.live? t = some (body, ab')

namespace Executor.Heeds

variable {p : Body ρ → Prop} {e e' e'' : Executor (Body ρ)} {id : TaskId} {body : Body ρ}

theorem of_tasks (h : e'.tasks = e.tasks) : e.Heeds p e' :=
  ⟨fun t ht => (hasEnded_congr h t).trans ht, fun t _ ab ht => .inr ⟨ab, live?_congr h t ▸ ht⟩⟩

theorem trans (h : e.Heeds p e') (k : e'.Heeds p e'') : e.Heeds p e'' := by
  refine ⟨fun t ht => k.ended t (h.ended t ht), fun t body ab ht => ?_⟩
  rcases k.bodies t body ab ht with hkeeps | ⟨ab', ht'⟩
  · exact .inl hkeeps
  · exact h.bodies t body ab' ht'

theorem setBody (hbody : p body) : e.Heeds p (e.setBody id body) := by
  refine ⟨fun t ht => (hasEnded_setBody e id body t).trans ht, fun t new ab ht => ?_⟩
  cases hid : e.live? id with
  | none =>
    rw [setBody_of_not_live hid] at ht
    exact .inr ⟨ab, ht⟩
  | some task =>
    rw [live?_setBody hid] at ht
    split at ht
    · cases ht
      exact .inl hbody
    · exact .inr ⟨ab, ht⟩

theorem finish {x : Body ρ × Bool} (hid : e.live? id = some x) :
    e.Heeds p (e.finish id) := by
  refine ⟨fun t ht => ?_, fun t new ab ht => ?_⟩
  · rw [hasEnded_finish (lt_of_live? hid)]
    split
    · rfl
    · exact ht
  · rw [live?_finish] at ht
    split at ht
    · contradiction
    · exact .inr ⟨ab, ht⟩

theorem abort (e : Executor (Body ρ)) (id : TaskId) : e.Heeds p (e.abort id) := by
  refine ⟨fun t ht => (hasEnded_abort e id t).trans ht, fun t new ab ht => .inr ?_⟩
  rw [live?_abort] at ht
  split at ht
  · rw [Option.map_eq_some_iff] at ht
    obtain ⟨⟨old, ab'⟩, hold, heq⟩ := ht
    cases heq
    exact ⟨ab', hold⟩
  · exact ⟨ab, ht⟩

theorem spawn (hbody : p body) (hspawn : e.spawn body = some (id, e')) :
    e.Heeds p e' := by
  refine ⟨fun t ht => (hasEnded_spawn hspawn t).trans ht, fun t new ab ht => ?_⟩
  rw [live?_spawn hspawn] at ht
  split at ht
  · cases ht
    exact .inl hbody
  · exact .inr ⟨ab, ht⟩

end Executor.Heeds

/-- Whether the bodies of all tasks of a run have a property. -/
def Run.AllBodies (r : Run ρ σ) (p : Body ρ → Prop) : Prop :=
  ∀ t body ab, r.executor.live? t = some (body, ab) → p body

/-- Whether the polling tasks of a run keep to a policy. -/
def Run.KeepsTo (r : Run ρ σ) (policy : Policy) : Prop :=
  r.AllBodies (Body.KeepsTo policy)

theorem Run.AllBodies.heeds {r r' : Run ρ σ} {p : Body ρ → Prop} (h : r.AllBodies p)
    (hheeds : r.executor.Heeds p r'.executor) : r'.AllBodies p := by
  intro t body ab ht
  rcases hheeds.bodies t body ab ht with hbody | ⟨ab', ht'⟩
  · exact hbody
  · exact h t body ab' ht'

theorem Run.AllBodies.opened [Host ρ σ] (p : Body ρ → Prop) (world : σ) (session : SessionId)
    (config : Config) (access : ρ) : (Run.opened world session config access).AllBodies p := by
  intro t body ab ht
  rw [live?_opened] at ht
  contradiction

namespace Run

variable [Host ρ σ] {r r' : Run ρ σ} {s : Service ρ} {id : TaskId} {b : BinderId} {x : Shared ρ}
  {policy : Policy} {phase : Phase (Fallible (Option Snapshot))} {outside : σ → σ → Prop}
  {p : Body ρ → Prop}

theorem PollTurn.heeds (hturn : PollTurn r id b policy x phase r')
    (hid : r.executor.live? id = some (.poll b policy phase, false))
    (hbody : ∀ phase', p (.poll b policy phase')) : r.executor.Heeds p r'.executor := by
  cases hturn with
  | idle => exact .of_tasks rfl
  | joins => exact .setBody (hbody _)
  | waits => exact .of_tasks rfl
  | asks => exact .setBody (hbody _)
  | @ends phase y outcome w hends =>
    have hrouse : r.executor.Heeds p (r.executor.rouse (phase.vacated x.lock).release.1) :=
      .of_tasks (Executor.tasks_rouse _ _)
    unfold ended
    dsimp only
    split
    · exact hrouse.trans (.setBody (hbody _))
    · exact hrouse.trans (.finish (by rw [Executor.live?_rouse, hid]))

/-- A turn moves a body on at most, and its property with it. -/
theorem Turned.heeds (hturned : Turned r id r') (hsteady : Body.Steady p) (hall : r.AllBodies p) :
    r.executor.Heeds p r'.executor := by
  cases hturned with
  | gone => exact .of_tasks rfl
  | @disposes body hid =>
    have htasks := (dispose_letsGo r body).tasks
    exact (Executor.Heeds.of_tasks htasks).trans
      (.finish (by rw [Executor.live?_congr htasks, hid]))
  | polls hx hid hturn => exact hturn.heeds hid fun _ => hsteady _ _ (hall id _ _ hid) rfl
  | @beats access interval phase hid =>
    rcases heartbeatTurn_cases r id access interval phase with hsame | ⟨_, _, _, phase', hbeats⟩
    · rw [hsame]
      exact .of_tasks rfl
    · rw [hbeats]
      exact .setBody (hsteady _ _ (hall id _ _ hid) rfl)

/-- A move keeps a steady property of the bodies that what the service begins has, too. -/
theorem Move.heeds (hmove : Move outside r r') (h : r.InOrder s none) (hsteady : Body.Steady p)
    (hbegins : ∀ key body, s.Begins key body → p body) (hall : r.AllBodies p) :
    r.executor.Heeds p r'.executor := by
  cases hmove with
  | turn hnext =>
    obtain ⟨id, executor, hpop, -, hturned⟩ := next?_cases h hnext
    obtain ⟨rest, -, rfl⟩ := Executor.next?_eq_some_iff.mp hpop
    have hpopped : r.executor.Heeds p { r.executor with ready := rest } := .of_tasks rfl
    exact hpopped.trans (hturned.heeds hsteady hall)
  | enroll => exact .of_tasks rfl
  | @resume change hchange id =>
    unfold Run.resume
    cases hid : r.executor.live? id with
    | none => exact .of_tasks rfl
    | some task =>
      obtain ⟨body, ab⟩ := task
      have hsame : body.anew = (change body).anew := by
        rcases hchange with rfl | rfl
        · exact body.anew_awakened.symm
        · exact body.anew_answered.symm
      exact (Executor.Heeds.setBody (hsteady _ _ (hall id body ab hid) hsame)).trans
        (.of_tasks (Executor.tasks_wake _ id))
  | forget => exact .of_tasks rfl
  | change => exact .of_tasks rfl
  | log => exact .of_tasks rfl
  | sweep => exact .of_tasks rfl
  | abort id => exact .abort _ id
  | bind hs hnew =>
    rw [binderFor_new hs hnew]
    exact .of_tasks rfl
  | strike => exact .of_tasks rfl
  | spawn hs hbody hhalted hspawn hregistry =>
    obtain rfl := List.singleton_inj.mp (hs.symm.trans h.services)
    exact .spawn (hbegins _ _ hbody) hspawn

end Run

/-- What a service begins keeps to its policy. -/
theorem Service.Begins.keepsTo {s : Service ρ} {key : TaskKey} {body : Body ρ}
    (h : s.Begins key body) : body.KeepsTo s.config.policy := by
  cases h with
  | poll => rfl
  | heartbeat => trivial

/-- Whatever happens to a service, its tasks keep to its policy. -/
theorem Act.heeds [Host ρ σ] {r : Run ρ σ} {s : Service ρ} (h : r.InOrder s none)
    (hkeeps : r.KeepsTo s.config.policy) (act : Act σ) :
    r.executor.Heeds (Body.KeepsTo s.config.policy) (act.step r).executor := by
  have hinvariant : Run.Invariant (fun _ _ => True) fun r' : Run ρ σ =>
      ∃ s', r'.InOrder s' none ∧ s.Kin s' ∧ r'.KeepsTo s.config.policy ∧
        r.executor.Heeds (Body.KeepsTo s.config.policy) r'.executor := by
    refine .of_inOrder (fun r₁ r₂ s₁ s₂ h₁ hmove _ hkin ⟨hkin₁, hkeeps₁, hheeds₁⟩ => ?_)
      fun _ _ _ hq => hq
    have hmoved := hmove.heeds h₁ (Body.steady_keepsTo s.config.policy)
      (fun _ _ hbegins => hkin₁.config ▸ hbegins.keepsTo) hkeeps₁
    exact ⟨hkin₁.trans hkin, hkeeps₁.heeds hmoved, hheeds₁.trans hmoved⟩
  obtain ⟨-, -, -, -, hheeds⟩ :=
    hinvariant.step act.within_any ⟨s, h, .refl s, hkeeps, .of_tasks rfl⟩
  exact hheeds

end WalletPage
