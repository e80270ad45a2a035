import WalletPage.Proofs.Stalling

/-! Tasks that were stopped or replaced. Such a task never goes on: all that is left to it
is the turn that disposes of it, which lets go of its binder and does nothing else. -/

namespace WalletPage

variable {ρ σ : Type}

theorem Executor.Advances.leads {e e' : Executor (Body ρ)} (h : e.Advances e') : e.Leads e' :=
  ⟨Nat.le_of_eq h.length.symm, fun t _ body ht => h.unstopped t body ht⟩

/-- Whether a task exists that will not go on. -/
def Run.Gone (r : Run ρ σ) (t : TaskId) : Prop :=
  t < r.executor.tasks.length ∧ ∀ body, r.executor.live? t ≠ some (body, false)

theorem Run.Gone.leads {r r' : Run ρ σ} {t : TaskId} (h : r.Gone t)
    (hleads : r.executor.Leads r'.executor) : r'.Gone t := by
  refine ⟨Nat.lt_of_lt_of_le h.1 hleads.length, fun body ht => ?_⟩
  obtain ⟨body', ht'⟩ := hleads.unstopped t h.1 body ht
  exact h.2 body' ht'

namespace Run

variable [Host ρ σ] {r r' : Run ρ σ} {s : Service ρ} {outside : σ → σ → Prop} {t : TaskId}

theorem Move.leads (hmove : Move outside r r') (h : r.InOrder s none) :
    r.executor.Leads r'.executor := by
  cases hmove with
  | turn hnext =>
    obtain ⟨id, executor, hpop, -, hturned⟩ := next?_cases h hnext
    obtain ⟨rest, -, rfl⟩ := Executor.next?_eq_some_iff.mp hpop
    have hpopped : r.executor.Leads { r.executor with ready := rest } := .of_tasks rfl
    exact hpopped.trans hturned.advances.leads
  | enroll => exact .of_tasks rfl
  | @resume change hchange id =>
    unfold Run.resume
    cases hid : r.executor.live? id with
    | none => exact .refl _
    | some task =>
      exact (Executor.leads_setBody _ id _).trans (.of_tasks (Executor.tasks_wake _ id))
  | forget => exact .refl _
  | change => exact .refl _
  | log => exact .refl _
  | sweep => exact .refl _
  | abort id => exact Executor.leads_abort _ id
  | bind hs hnew =>
    rw [binderFor_new hs hnew]
    exact .refl _
  | strike => exact .refl _
  | spawn hs hbody hhalted hspawn hregistry => exact Executor.leads_spawn hspawn

end Run

theorem Run.after_leads [Host ρ σ] {r : Run ρ σ} {s : Service ρ} (h : r.InOrder s none)
    (acts : List (Act σ)) : r.executor.Leads (r.after acts).executor := by
  have hleads : Invariant (fun _ _ => True)
      fun r' : Run ρ σ => ∃ s', r'.InOrder s' none ∧ r.executor.Leads r'.executor :=
    .of_inOrder (fun _ _ _ _ h hmove _ _ hr => hr.trans (hmove.leads h)) fun _ _ _ hr => hr
  obtain ⟨-, -, hr⟩ := hleads.after (fun act _ => act.within_any) ⟨s, h, .refl _⟩
  exact hr

end WalletPage
