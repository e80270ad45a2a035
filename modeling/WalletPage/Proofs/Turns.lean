import WalletPage.Run.Turn
import WalletPage.Proofs.TaskLaws

/-! What a polling task can do in a turn, on any host: a relation with one case for
each way, each with the run it leads to. What a turn does to locks, tasks, binders and
the page is read off these cases. -/

namespace WalletPage

variable {ρ σ : Type}

namespace Run

variable {r : Run ρ σ} {binder : BinderId} {s : Shared ρ}

theorem modify_eq_set {α : Type} {l : List α} {i : Nat} {a : α} (h : l[i]? = some a)
    (f : α → α) : l.modify i f = l.set i (f a) := by
  refine List.ext_getElem? fun j => ?_
  rw [List.getElem?_modify, List.getElem?_set]
  obtain ⟨hi, ha⟩ := List.getElem?_eq_some_iff.mp h
  by_cases hj : i = j
  · subst hj
    simp [hi, ha]
  · simp [hj]

theorem setLock_eq (hs : r.binders[binder]? = some s) (lock : Lock) :
    r.setLock binder lock = { r with binders := r.binders.set binder { s with lock := lock } } := by
  rw [setLock, modify_eq_set hs]

theorem setBinder_eq (hs : r.binders[binder]? = some s) (b : Binder ρ) :
    r.setBinder binder b = { r with binders := r.binders.set binder { s with binder := b } } := by
  rw [setBinder, modify_eq_set hs]

theorem perform_eq (r : Run ρ σ) (action : StateM σ Unit) :
    r.perform action = { r with world := (action.run r.world).2 } := rfl

theorem wake_eq (r : Run ρ σ) (next : Option TaskId) :
    r.wake next = { r with executor := r.executor.rouse next } := by
  cases next <;> rfl

theorem release_eq (hs : r.binders[binder]? = some s) :
    r.release binder =
      { r with binders := r.binders.set binder { s with lock := s.lock.release.2 },
               executor := r.executor.rouse s.lock.release.1 } := by
  unfold release
  rw [hs]
  dsimp only
  rw [setLock_eq hs, wake_eq]

theorem leave_eq (hs : r.binders[binder]? = some s) (place : Nat) :
    r.leave binder place =
      { r with binders := r.binders.set binder { s with lock := (s.lock.leave place).2 },
               executor := r.executor.rouse (s.lock.leave place).1 } := by
  unfold leave
  rw [hs]
  dsimp only
  rw [setLock_eq hs, wake_eq]

end Run

variable [Host ρ σ]

/-- What a task does with its binder after a cycle: log lines, and the sleep before the next. -/
def Binder.rest (b : Binder ρ) (policy : Policy) (outcome : Outcome) : StateM σ Unit := do
  let next := policy.next b.view outcome b.anchorSeen
  say b.access .trace Run.pollComponent
    (b.view.name ++ " -> " ++ outcome.name ++ ", next " ++ next.text)
  match next with
  | .stop =>
    say b.access .info Run.pollComponent
      ("Stopped polling " ++ b.view.name ++ " after " ++ outcome.name)
  | .after delay => Host.sleep b.access delay

namespace Phase

variable {α : Type}

/-- Whether a task in this phase holds its binder. -/
def Holds : Phase α → Prop
  | .waiting _ => True
  | .answered _ => True
  | _ => False

/-- Whether a task in this phase looks for its binder at its turn. -/
def Seeks : Phase α → Prop
  | .start => True
  | .queued _ => True
  | _ => False

/-- Whether a task in this phase has nothing to do before something happens. -/
def Waits : Phase α → Prop
  | .waiting _ => True
  | .sleeping => True
  | _ => False

/-- The lock as a task finds it that takes it: its own place is given up. -/
def vacated (l : Lock) : Phase α → Lock
  | .queued place => l.vacate place
  | _ => l

end Phase

namespace Run

/-- The three ways in which a cycle comes to its end in a turn: there is no anchor, the
answer is there at once, or it has come since. `s` is what the task finds. -/
inductive CycleEnds (r : Run ρ σ) (s : Shared ρ) :
    Phase (Fallible (Option Snapshot)) → Binder ρ → Outcome → σ → Prop
  | absent {phase : Phase _} {b : Binder ρ} {outcome : Outcome} {w : σ} (hseeks : phase.Seeks)
    (hfree : s.lock.isFree = true)
    (hbegin : (s.binder.begin (r.selected s.selection)).run r.world = ((b, .ended outcome), w)) :
    CycleEnds r s phase b outcome w
  | ready {phase : Phase _} {b b' : Binder ρ} {answer : Fallible (Option Snapshot)}
    {outcome : Outcome} {w w' : σ} (hseeks : phase.Seeks) (hfree : s.lock.isFree = true)
    (hbegin : (s.binder.begin (r.selected s.selection)).run r.world =
      ((b, .asked (.ready answer)), w))
    (hfinish : (b.finish answer).run w = ((b', outcome), w')) :
    CycleEnds r s phase b' outcome w'
  | answered {answer : Fallible (Option Snapshot)} {b' : Binder ρ} {outcome : Outcome} {w' : σ}
    (hfinish : (s.binder.finish answer).run r.world = ((b', outcome), w')) :
    CycleEnds r s (.answered answer) b' outcome w'

/-- The run after a cycle that ended: the binder is let go, and the task sleeps or is done. -/
def ended (r : Run ρ σ) (id : TaskId) (binder : BinderId) (policy : Policy) (s : Shared ρ)
    (lock : Lock) (b : Binder ρ) (outcome : Outcome) (w : σ) : Run ρ σ :=
  let executor := r.executor.rouse lock.release.1
  let binders := r.binders.set binder { s with binder := b, lock := lock.release.2 }
  let world := ((b.rest policy outcome).run w).2
  match policy.next b.view outcome b.anchorSeen with
  | .after _ =>
    { r with world, binders, executor := executor.setBody id (.poll binder policy .sleeping),
             sleepers := r.sleepers ++ [id] }
  | .stop => { r with world, binders, executor := executor.finish id }

/-- `PollTurn r id binder policy s phase r'`: a task that finds its binder `s` leads from
`r` to `r'` in its turn. -/
inductive PollTurn (r : Run ρ σ) (id : TaskId) (binder : BinderId) (policy : Policy)
    (s : Shared ρ) : Phase (Fallible (Option Snapshot)) → Run ρ σ → Prop
  | idle {phase : Phase _} (hwaits : phase.Waits) : PollTurn r id binder policy s phase r
  | joins (hbusy : s.lock.isFree = false) :
    PollTurn r id binder policy s .start
      { r with binders := r.binders.set binder { s with lock := (s.lock.join id).2 },
               executor := r.executor.setBody id
                (.poll binder policy (.queued (s.lock.join id).1)) }
  | waits {place : Nat} (hbusy : s.lock.isFree = false) :
    PollTurn r id binder policy s (.queued place)
      { r with binders := r.binders.set binder { s with lock := s.lock.rejoin place } }
  | asks {phase : Phase _} {key : String} {answer : Fallible (Option Snapshot)} {b : Binder ρ}
    {w : σ} (hseeks : phase.Seeks) (hfree : s.lock.isFree = true)
    (hbegin : (s.binder.begin (r.selected s.selection)).run r.world =
      ((b, .asked (.held key answer)), w)) :
    PollTurn r id binder policy s phase
      { r with world := w,
               binders := r.binders.set binder
                { s with binder := b, lock := (phase.vacated s.lock).take id },
               held := r.held ++ [(key, id)],
               executor := r.executor.setBody id (.poll binder policy (.waiting answer)) }
  | ends {phase : Phase _} {b : Binder ρ} {outcome : Outcome} {w : σ}
    (hends : CycleEnds r s phase b outcome w) :
    PollTurn r id binder policy s phase
      (r.ended id binder policy s (phase.vacated s.lock) b outcome w)

section

variable {r : Run ρ σ} {id : TaskId} {binder : BinderId} {policy : Policy} {s : Shared ρ}

theorem endPoll_eq (hs : r.binders[binder]? = some s) (id : TaskId) (policy : Policy)
    (outcome : Outcome) :
    r.endPoll id binder policy outcome =
      r.ended id binder policy s s.lock s.binder outcome r.world := by
  have hlt := (List.getElem?_eq_some_iff.mp hs).1
  have hrelease (w : σ) := release_eq (r := { r with world := w }) hs
  unfold endPoll decide ended Binder.rest
  simp only [hs, perform_eq]
  cases policy.next s.binder.view outcome s.binder.anchorSeen with
  | after delay =>
    dsimp only
    rw [hrelease]
    dsimp only
    rw [List.getElem?_set_self hlt]
    rfl
  | stop =>
    dsimp only
    rw [hrelease]
    rfl

theorem answerPoll_eq (hs : r.binders[binder]? = some s) (id : TaskId) (policy : Policy)
    {answer : Fallible (Option Snapshot)} {b : Binder ρ} {outcome : Outcome} {w : σ}
    (hfinish : (s.binder.finish answer).run r.world = ((b, outcome), w)) :
    r.answerPoll id binder policy answer =
      r.ended id binder policy s s.lock b outcome w := by
  have hlt := (List.getElem?_eq_some_iff.mp hs).1
  unfold answerPoll finishCycle
  simp only [hs, act, hfinish]
  rw [setBinder_eq (r := { r with world := w }) hs,
    endPoll_eq (s := { s with binder := b }) (List.getElem?_set_self hlt) id policy]
  simp only [ended, List.set_set]

/-- The turn of a task that takes the lock. -/
theorem beginPoll_cases (hs : r.binders[binder]? = some s) (phase : Phase _)
    (hseeks : phase.Seeks) (hfree : s.lock.isFree = true) :
    PollTurn r id binder policy s phase
      ((r.setLock binder ((phase.vacated s.lock).take id)).beginPoll id binder policy s) := by
  have hlt := (List.getElem?_eq_some_iff.mp hs).1
  rw [setLock_eq hs]
  generalize hu : ({ s with lock := (phase.vacated s.lock).take id } : Shared ρ) = u
  have hru : (r.binders.set binder u)[binder]? = some u := List.getElem?_set_self hlt
  have hended (c b : Binder ρ) (outcome : Outcome) (w w₀ : σ) :
      Run.ended { r with world := w₀, binders := r.binders.set binder { u with binder := c } }
          id binder policy { u with binder := c } u.lock b outcome w =
        r.ended id binder policy s (phase.vacated s.lock) b outcome w := by
    simp only [ended, List.set_set, ← hu, Lock.release_take]
  unfold beginPoll beginCycle act
  generalize hbegin : (s.binder.begin (r.selected s.selection)).run r.world = began
  obtain ⟨⟨b, begun⟩, w⟩ := began
  have hsame : Run.selected { r with binders := r.binders.set binder u } s.selection =
    r.selected s.selection := rfl
  rw [hsame]
  simp only [hbegin]
  have hset := setBinder_eq (r := { r with world := w, binders := r.binders.set binder u }) hru b
  rw [List.set_set] at hset
  rw [hset]
  have hrb : (r.binders.set binder { u with binder := b })[binder]? = some { u with binder := b } :=
    List.getElem?_set_self hlt
  cases begun with
  | ended outcome =>
    have hend := endPoll_eq
      (r := { r with world := w, binders := r.binders.set binder { u with binder := b } }) hrb id
      policy outcome
    dsimp only
    rw [hend, hended]
    exact .ends (.absent hseeks hfree hbegin)
  | asked reply =>
    cases reply with
    | ready answer =>
      generalize hfinish : (b.finish answer).run w = finished
      obtain ⟨⟨b', outcome⟩, w'⟩ := finished
      have hanswer := answerPoll_eq
        (r := { r with world := w, binders := r.binders.set binder { u with binder := b } }) hrb id
        policy hfinish
      dsimp only
      rw [hanswer, hended]
      exact .ends (.ready hseeks hfree hbegin hfinish)
    | held key answer =>
      rw [← hu]
      exact .asks hseeks hfree hbegin

theorem pollTurn_cases (hs : r.binders[binder]? = some s)
    (phase : Phase (Fallible (Option Snapshot))) :
    PollTurn r id binder policy s phase (r.pollTurn id binder policy phase) := by
  unfold pollTurn
  rw [hs]
  cases phase with
  | start =>
    dsimp only
    by_cases hfree : s.lock.isFree = true
    · rw [if_pos hfree]
      exact beginPoll_cases hs .start trivial hfree
    · rw [if_neg hfree, setLock_eq hs]
      exact .joins (Bool.not_eq_true _ ▸ hfree)
  | queued place =>
    dsimp only
    by_cases hfree : s.lock.isFree = true
    · rw [if_pos hfree]
      exact beginPoll_cases hs (.queued place) trivial hfree
    · rw [if_neg hfree, setLock_eq hs]
      exact .waits (Bool.not_eq_true _ ▸ hfree)
  | waiting answer => exact .idle trivial
  | answered answer =>
    generalize hfinish : (s.binder.finish answer).run r.world = finished
    obtain ⟨⟨b, outcome⟩, w⟩ := finished
    dsimp only
    rw [answerPoll_eq hs id policy hfinish]
    exact .ends (.answered hfinish)
  | sleeping => exact .idle trivial

theorem ended_page (r : Run ρ σ) (id : TaskId) (binder : BinderId) (policy : Policy)
    (s : Shared ρ) (lock : Lock) (b : Binder ρ) (outcome : Outcome)
    (w : σ) :
    (r.ended id binder policy s lock b outcome w).world = ((b.rest policy outcome).run w).2 ∧
      (r.ended id binder policy s lock b outcome w).binders =
        r.binders.set binder { s with binder := b, lock := lock.release.2 } ∧
      (r.ended id binder policy s lock b outcome w).selections = r.selections := by
  unfold ended
  dsimp only
  split <;> exact ⟨rfl, rfl, rfl⟩

theorem ended_live?_ne {lock : Lock} {b : Binder ρ} {outcome : Outcome} {w : σ}
    {phase : Phase (Fallible (Option Snapshot))}
    (hid : r.executor.live? id = some (.poll binder policy phase, false)) {t : TaskId}
    (ht : t ≠ id) :
    (r.ended id binder policy s lock b outcome w).executor.live? t = r.executor.live? t := by
  unfold ended
  dsimp only
  split
  · rw [Executor.live?_setBody (by rw [Executor.live?_rouse]; exact hid), if_neg ht,
      Executor.live?_rouse]
  · rw [Executor.live?_finish, if_neg ht, Executor.live?_rouse]

theorem ended_live?_self {lock : Lock} {b : Binder ρ} {outcome : Outcome} {w : σ}
    {phase : Phase (Fallible (Option Snapshot))}
    (hid : r.executor.live? id = some (.poll binder policy phase, false)) {body : Body ρ}
    (hlive : (r.ended id binder policy s lock b outcome w).executor.live? id = some (body, false)) :
    body = .poll binder policy .sleeping := by
  unfold ended at hlive
  dsimp only at hlive
  split at hlive
  · rw [Executor.live?_setBody (by rw [Executor.live?_rouse]; exact hid), if_pos rfl] at hlive
    cases hlive
    rfl
  · rw [Executor.live?_finish, if_pos rfl] at hlive
    contradiction

/-- The turn of the heartbeat changes its own phase and the page, or nothing. -/
theorem heartbeatTurn_cases (r : Run ρ σ) (id : TaskId) (access : ρ) (interval : Millis)
    (phase : Phase (Fallible Unit)) :
    r.heartbeatTurn id access interval phase = r ∨ ∃ world sleepers held phase',
      r.heartbeatTurn id access interval phase =
        { r with
          world, sleepers, held
          executor := r.executor.setBody id (.heartbeat access interval phase') } := by
  have hanswer (w : σ) (answer : Fallible Unit) : ∃ world sleepers held phase',
      Run.answerHeartbeat { r with world := w } id access interval answer =
        { r with
          world, sleepers, held
          executor := r.executor.setBody id (.heartbeat access interval phase') } := by
    cases answer <;> exact ⟨_, _, _, .sleeping, rfl⟩
  unfold heartbeatTurn act
  cases phase with
  | start =>
    generalize (Host.heartbeat access).run r.world = beaten
    obtain ⟨reply, w⟩ := beaten
    cases reply with
    | ready answer => exact .inr (hanswer w answer)
    | held key answer => exact .inr ⟨_, _, _, .waiting answer, rfl⟩
  | answered answer => exact .inr (hanswer r.world answer)
  | queued => exact .inl rfl
  | waiting => exact .inl rfl
  | sleeping => exact .inl rfl

end

end Run

end WalletPage
