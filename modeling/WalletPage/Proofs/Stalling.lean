import Mathlib.Algebra.GroupWithZero.Nat
import WalletPage.Proofs.OrderlyRuns

/-! Turns come to an end. The load of an executor is the number of turns that are coming,
and of tasks that may still wake another one before something happens from outside. A turn
makes it smaller, so that a run ends with no turn left. -/

namespace WalletPage

variable {ρ σ : Type}

/-- Whether a task may let go of something in one of its next turns, as a number. -/
def Phase.weight {α : Type} : Phase α → Nat
  | .start => 1
  | .queued _ => 1
  | .waiting _ => 0
  | .answered _ => 1
  | .sleeping => 0

/-- As for phases; a task that was stopped has its disposal before it. -/
def TaskState.weight : TaskState (Body ρ) → Nat
  | .live (.poll _ _ _) true => 1
  | .live (.poll _ _ phase) false => phase.weight
  | _ => 0

theorem sum_map_set {α : Type} (f : α → Nat) {l : List α} {i : Nat} {b : α} (h : l[i]? = some b)
    (a : α) : ((l.set i a).map f).sum + f b = (l.map f).sum + f a := by
  induction l generalizing i with
  | nil => contradiction
  | cons head rest ih =>
    cases i with
    | zero =>
      cases h
      simp
      omega
    | succ i =>
      have hrest := ih h
      simp only [List.set_cons_succ, List.map_cons, List.sum_cons]
      omega

theorem sum_map_le_length {α : Type} {f : α → Nat} (h : ∀ a, f a ≤ 1) (l : List α) :
    (l.map f).sum ≤ l.length := by
  induction l with
  | nil => exact Nat.le_refl 0
  | cons head rest ih =>
    have hhead := h head
    simp only [List.map_cons, List.sum_cons, List.length_cons]
    omega

theorem TaskState.weight_le_one (state : TaskState (Body ρ)) : state.weight ≤ 1 := by
  unfold weight
  split
  · exact Nat.le_refl 1
  · rename_i phase
    cases phase <;> simp [Phase.weight]
  · exact Nat.zero_le 1

namespace Executor

variable {e e' : Executor (Body ρ)} {id : TaskId} {body body' : Body ρ} {ab : Bool}

/-- The turns that are coming, and the tasks that may bring about more. -/
def load (e : Executor (Body ρ)) : Nat :=
  e.ready.length + (e.tasks.map TaskState.weight).sum

/-- What a turn does to an executor from which it was taken: tasks are neither spawned nor
freed of a stop, and the load does not grow. -/
structure Advances (e e' : Executor (Body ρ)) : Prop where
  length : e'.tasks.length = e.tasks.length
  fresh : e'.fresh = e.fresh
  unstopped : ∀ t body, e'.live? t = some (body, false) → ∃ body', e.live? t = some (body', false)
  load : e'.load ≤ e.load

theorem Advances.refl (e : Executor (Body ρ)) : e.Advances e :=
  ⟨rfl, rfl, fun _ body ht => ⟨body, ht⟩, Nat.le_refl _⟩

theorem load_setTask (hid : e.live? id = some (body, ab)) (state : TaskState (Body ρ)) :
    (e.setTask id state).load + (TaskState.live body ab).weight = e.load + state.weight := by
  have hsum := sum_map_set TaskState.weight (live?_eq_some_iff.mp hid) state
  unfold load setTask
  dsimp only
  omega

theorem load_rouse_le (e : Executor (Body ρ)) (next : Option TaskId) :
    (e.rouse next).load ≤ e.load + 1 := by
  have hready := e.length_ready_rouse_le next
  unfold load
  rw [tasks_rouse]
  omega

theorem setBody_eq (hid : e.live? id = some (body, ab)) :
    e.setBody id body' = e.setTask id (.live body' ab) := by
  unfold setBody
  rw [hid]

/-- A task gets another body, and one that gets lighter may wake another task. -/
theorem advances_setBody (hid : e.live? id = some (body, false)) (next : Option TaskId)
    (hload : ((e.rouse next).setTask id (.live body' false)).load ≤ e.load) :
    e.Advances ((e.rouse next).setBody id body') := by
  have hid' : (e.rouse next).live? id = some (body, false) := by rw [live?_rouse, hid]
  rw [setBody_eq hid']
  refine ⟨?_, ?_, fun t new ht => ?_, hload⟩
  · rw [setTask, List.length_set, tasks_rouse]
  · exact fresh_rouse e next
  · rw [live?_setTask (lt_of_live? hid'), live?_rouse] at ht
    split at ht
    · rename_i hti
      exact ⟨body, hti ▸ hid⟩
    · exact ⟨new, ht⟩

theorem advances_same (hid : e.live? id = some (body, false))
    (hweight : (TaskState.live body' false).weight ≤ (TaskState.live body false).weight) :
    e.Advances (e.setBody id body') := by
  refine advances_setBody hid none ?_
  have hload := load_setTask hid (.live body' false)
  show (e.setTask id _).load ≤ e.load
  omega

theorem advances_lighter (hid : e.live? id = some (body, false)) (next : Option TaskId)
    (hweight : (TaskState.live body' false).weight < (TaskState.live body false).weight) :
    e.Advances ((e.rouse next).setBody id body') := by
  refine advances_setBody hid next ?_
  have hid' : (e.rouse next).live? id = some (body, false) := by rw [live?_rouse, hid]
  have hload := load_setTask hid' (.live body' false)
  have hrouse := e.load_rouse_le next
  omega

theorem advances_finish {next : Option TaskId}
    (hload : ((e.rouse next).finish id).load ≤ e.load) : e.Advances ((e.rouse next).finish id) := by
  refine ⟨?_, ?_, fun t new ht => ?_, hload⟩
  · rw [finish, setTask, List.length_set, tasks_rouse]
  · exact fresh_rouse e next
  · rw [live?_finish, live?_rouse] at ht
    split at ht
    · contradiction
    · exact ⟨new, ht⟩

theorem advances_gone (hid : e.live? id = some (body, ab)) : e.Advances (e.finish id) := by
  refine (advances_finish ?_ : e.Advances ((e.rouse none).finish id))
  have hload := load_setTask hid .ended
  have hzero : (TaskState.ended : TaskState (Body ρ)).weight = 0 := rfl
  show (e.setTask id .ended).load ≤ e.load
  omega

theorem advances_letGo (hid : e.live? id = some (body, ab)) (next : Option TaskId)
    (hweight : 0 < (TaskState.live body ab).weight) : e.Advances ((e.rouse next).finish id) := by
  refine advances_finish ?_
  have hid' : (e.rouse next).live? id = some (body, ab) := by rw [live?_rouse, hid]
  have hload := load_setTask hid' .ended
  have hzero : (TaskState.ended : TaskState (Body ρ)).weight = 0 := rfl
  have hrouse := e.load_rouse_le next
  show ((e.rouse next).setTask id .ended).load ≤ e.load
  omega

end Executor

namespace Run

variable {r r' : Run ρ σ} {s : Service ρ} {id : TaskId} {binder : BinderId} {policy : Policy}
  {x : Shared ρ} {phase : Phase (Fallible (Option Snapshot))} [Host ρ σ]

omit [Host ρ σ] in
theorem weight_of_seeks (h : phase.Seeks) : phase.weight = 1 := by
  cases phase <;> first | rfl | exact h.elim

theorem CycleEnds.weight {b : Binder ρ} {outcome : Outcome} {w : σ}
    (h : CycleEnds r x phase b outcome w) : phase.weight = 1 := by
  cases h with
  | absent hseeks => exact weight_of_seeks hseeks
  | ready hseeks => exact weight_of_seeks hseeks
  | answered => rfl

theorem pollTurn_advances (hid : r.executor.live? id = some (.poll binder policy phase, false))
    (hturn : PollTurn r id binder policy x phase r') : r.executor.Advances r'.executor := by
  cases hturn with
  | idle => exact .refl _
  | joins => exact Executor.advances_same hid (Nat.le_refl 1)
  | waits => exact .refl _
  | asks => exact Executor.advances_same hid (Nat.zero_le _)
  | @ends phase b outcome w hends =>
    have hweight : (TaskState.live (.poll binder policy phase : Body ρ) false).weight = 1 :=
      hends.weight
    unfold ended
    dsimp only
    split
    · refine Executor.advances_lighter hid _ ?_
      rw [hweight]
      exact Nat.zero_lt_one
    · refine Executor.advances_letGo hid _ ?_
      rw [hweight]
      exact Nat.zero_lt_one

theorem heartbeatTurn_advances {access : ρ} {interval : Millis} {phase : Phase (Fallible Unit)}
    (hid : r.executor.live? id = some (.heartbeat access interval phase, false)) :
    r.executor.Advances (r.heartbeatTurn id access interval phase).executor := by
  rcases heartbeatTurn_cases r id access interval phase with hsame | ⟨_, _, _, phase', hbeats⟩
  · rw [hsame]
    exact .refl _
  · rw [hbeats]
    exact Executor.advances_same hid (Nat.le_refl 0)

omit [Host ρ σ] in
theorem dispose_advances {body : Body ρ} (hid : r.executor.live? id = some (body, true)) :
    r.executor.Advances ((r.dispose body).finishTask id).executor := by
  have hrelease (b : BinderId) (policy : Policy) (phase : Phase _)
      (hpoll : body = .poll b policy phase) :
      r.executor.Advances ((r.release b).finishTask id).executor := by
    subst hpoll
    cases hx : r.binders[b]? with
    | none =>
      unfold release
      rw [hx]
      exact Executor.advances_gone hid
    | some x =>
      rw [release_eq hx]
      exact Executor.advances_letGo hid _ Nat.zero_lt_one
  cases body with
  | poll b policy phase =>
    cases phase with
    | start => exact Executor.advances_gone hid
    | queued place =>
      show r.executor.Advances ((r.leave b place).finishTask id).executor
      cases hx : r.binders[b]? with
      | none =>
        unfold leave
        rw [hx]
        exact Executor.advances_gone hid
      | some x =>
        rw [leave_eq hx]
        exact Executor.advances_letGo hid _ Nat.zero_lt_one
    | waiting => exact hrelease b policy _ rfl
    | answered => exact hrelease b policy _ rfl
    | sleeping => exact Executor.advances_gone hid
  | heartbeat => exact Executor.advances_gone hid
  | shutdown => exact Executor.advances_gone hid

theorem Turned.advances (hturned : Turned r id r') : r.executor.Advances r'.executor := by
  cases hturned with
  | gone hid => exact .refl _
  | disposes hid => exact dispose_advances hid
  | polls hx hid hturn => exact pollTurn_advances hid hturn
  | beats hid => exact heartbeatTurn_advances hid

/-- A turn takes itself away from the load, and spawns nothing. -/
theorem next?_load (h : r.InOrder s none) (hnext : r.next? = some r') :
    r'.executor.load < r.executor.load ∧ r'.executor.fresh = r.executor.fresh := by
  obtain ⟨id, executor, hpop, -, hturned⟩ := next?_cases h hnext
  obtain ⟨rest, hready, rfl⟩ := Executor.next?_eq_some_iff.mp hpop
  have hadvances := hturned.advances
  have hpopped : ({ r.executor with ready := rest } : Executor (Body ρ)).load + 1 =
      r.executor.load := by
    unfold Executor.load
    rw [hready, List.length_cons]
    dsimp only
    omega
  refine ⟨?_, hadvances.fresh⟩
  rw [← hpopped]
  exact Nat.lt_succ_of_le hadvances.load

theorem ready_of_next?_none (h : r.next? = none) : r.executor.ready = [] := by
  unfold next? Executor.next? at h
  cases hready : r.executor.ready with
  | nil => rfl
  | cons id rest => simp [hready] at h

end Run

/-- Steps that make a measure smaller come to an end within as many steps. -/
theorem settle_rests {α : Type} {step : α → Option α} {P : α → Prop} {μ : α → Nat}
    (hstep : ∀ a b, P a → step a = some b → P b ∧ μ b < μ a) (n : Nat) :
    ∀ a, P a → μ a ≤ n → P (settle step n a) ∧ step (settle step n a) = none := by
  induction n with
  | zero =>
    intro a ha hn
    refine ⟨ha, ?_⟩
    show step a = none
    cases hs : step a with
    | none => rfl
    | some b =>
      have hless := (hstep a b ha hs).2
      omega
  | succ n ih =>
    intro a ha hn
    unfold settle
    cases hs : step a with
    | none => exact ⟨ha, hs⟩
    | some b =>
      obtain ⟨hb, hless⟩ := hstep a b ha hs
      exact ih b hb (by omega)

/-- What each turn keeps holds at the end of a run, when no turn is left. -/
theorem Run.run_rests [Host ρ σ] {r : Run ρ σ} {s : Service ρ} {P : Run ρ σ → Prop}
    (h : r.InOrder s none) (hstart : P { r with executor := r.executor.enroll })
    (hstep : ∀ r r', r.InOrder s none → P r → r.next? = some r' → P r') :
    (r.run.InOrder s none ∧ P r.run) ∧ r.run.next? = none := by
  have hload : ({ r with executor := r.executor.enroll } : Run ρ σ).executor.load ≤
      r.executor.turns := by
    have hsum := sum_map_le_length TaskState.weight_le_one r.executor.tasks
    unfold Executor.load Executor.enroll Executor.turns
    rw [List.length_append]
    dsimp only
    omega
  exact settle_rests (P := fun r : Run ρ σ => r.InOrder s none ∧ P r) (fun r r' hr hnext =>
    ⟨⟨next?_inOrder hr.1 hnext, hstep r r' hr.1 hr.2 hnext⟩, (next?_load hr.1 hnext).1⟩)
    r.executor.turns _ ⟨enroll_inOrder h, hstart⟩ hload

/-- After a run no task has a turn any more. -/
theorem Run.run_stalls [Host ρ σ] {r : Run ρ σ} {s : Service ρ} (h : r.InOrder s none) :
    r.run.executor.ready = [] ∧ r.run.executor.fresh = [] := by
  obtain ⟨⟨-, hfresh⟩, hnext⟩ := run_rests (P := fun r => r.executor.fresh = []) h rfl
    fun r r' hr hfresh hnext => (next?_load hr hnext).2.trans hfresh
  exact ⟨ready_of_next?_none hnext, hfresh⟩

end WalletPage
