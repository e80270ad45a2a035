import WalletPage.Task.Lock
import WalletPage.Task.Registry
import Mathlib.Data.List.Basic

/-! Laws of the executor, the lock and the registry. The executor is seen through its
live tasks and the turns that are to come; what each operation does to the two is said
once here, and later modules do not open the operations again. -/

namespace WalletPage

namespace Executor

variable {β : Type} {e : Executor β} {id t : TaskId} {body b : β} {ab a : Bool}

/-- Whether a turn is coming to a task. -/
def Awaits (e : Executor β) (id : TaskId) : Prop :=
  id ∈ e.ready ∨ id ∈ e.fresh

theorem live?_eq_some_iff :
    e.live? id = some (body, ab) ↔ e.tasks[id]? = some (.live body ab) := by
  unfold live?
  constructor
  · intro h
    split at h
    · rename_i hid
      cases h
      exact hid
    · contradiction
  · intro h
    rw [h]

theorem lt_of_live? (h : e.live? id = some (body, ab)) : id < e.tasks.length :=
  (List.getElem?_eq_some_iff.mp (live?_eq_some_iff.mp h)).1

theorem isLive_of_live? (h : e.live? id = some (body, ab)) : e.isLive id = true := by
  rw [isLive, h]
  rfl

theorem live?_congr {e e' : Executor β} (h : e'.tasks = e.tasks) (t : TaskId) :
    e'.live? t = e.live? t := by
  rw [live?, live?, h]

theorem next?_eq_some_iff {e' : Executor β} : e.next? = some (id, e') ↔
    ∃ rest, e.ready = id :: rest ∧ e' = { e with ready := rest } := by
  unfold next?
  cases e.ready with
  | nil => simp
  | cons first rest =>
    constructor
    · intro h
      cases h
      exact ⟨rest, rfl, rfl⟩
    · rintro ⟨_, h, rfl⟩
      cases h
      rfl

/-! ### Waking -/

theorem wake_of_not_awaits (hlive : e.isLive id = true) (h : ¬ e.Awaits id) :
    e.wake id = { e with ready := e.ready ++ [id] } := by
  unfold wake
  have hnot := not_or.mp h
  rw [if_pos]
  simp [hlive, hnot.1, hnot.2]

@[simp] theorem tasks_wake (e : Executor β) (id : TaskId) : (e.wake id).tasks = e.tasks := by
  unfold wake
  split <;> rfl

@[simp] theorem fresh_wake (e : Executor β) (id : TaskId) : (e.wake id).fresh = e.fresh := by
  unfold wake
  split <;> rfl

@[simp] theorem isClosed_wake (e : Executor β) (id : TaskId) :
    (e.wake id).isClosed = e.isClosed := by
  unfold wake
  split <;> rfl

theorem wakes_same (e : Executor β) (ids : List TaskId) :
    (ids.foldl wake e).tasks = e.tasks ∧ (ids.foldl wake e).isClosed = e.isClosed := by
  induction ids generalizing e with
  | nil => exact ⟨rfl, rfl⟩
  | cons id rest ih => simpa using ih (e.wake id)

@[simp] theorem live?_wake (e : Executor β) (id t : TaskId) : (e.wake id).live? t = e.live? t :=
  live?_congr (tasks_wake e id) t

theorem Awaits.wake (h : e.Awaits t) (id : TaskId) : (e.wake id).Awaits t := by
  unfold Executor.wake
  split
  · exact h.imp_left (List.mem_append_left _)
  · exact h

theorem awaits_wake_self (h : e.isLive id = true) : (e.wake id).Awaits id := by
  by_cases hawaits : e.Awaits id
  · exact hawaits.wake id
  · rw [wake_of_not_awaits h hawaits]
    exact .inl (List.mem_append_right _ (List.mem_singleton_self id))

theorem length_ready_wake_le (e : Executor β) (id : TaskId) :
    (e.wake id).ready.length ≤ e.ready.length + 1 := by
  unfold wake
  split
  · simp
  · omega

/-- Wakes a task, if there is one to wake. -/
def rouse (e : Executor β) : Option TaskId → Executor β
  | some id => e.wake id
  | none => e

@[simp] theorem tasks_rouse (e : Executor β) (next : Option TaskId) :
    (e.rouse next).tasks = e.tasks := by
  cases next with
  | none => rfl
  | some id => exact tasks_wake e id

@[simp] theorem fresh_rouse (e : Executor β) (next : Option TaskId) :
    (e.rouse next).fresh = e.fresh := by
  cases next with
  | none => rfl
  | some id => exact fresh_wake e id

@[simp] theorem live?_rouse (e : Executor β) (next : Option TaskId) (t : TaskId) :
    (e.rouse next).live? t = e.live? t :=
  live?_congr (tasks_rouse e next) t

theorem Awaits.rouse (h : e.Awaits t) (next : Option TaskId) : (e.rouse next).Awaits t := by
  cases next with
  | none => exact h
  | some id => exact h.wake id

theorem length_ready_rouse_le (e : Executor β) (next : Option TaskId) :
    (e.rouse next).ready.length ≤ e.ready.length + 1 := by
  cases next with
  | none => exact Nat.le_succ _
  | some id => exact length_ready_wake_le e id

/-! ### Changing tasks -/

theorem live?_setTask (h : id < e.tasks.length) (t : TaskId) :
    (e.setTask id (.live body ab)).live? t = if t = id then some (body, ab) else e.live? t := by
  unfold live? setTask
  by_cases ht : t = id
  · subst ht
    simp [h]
  · simp [List.getElem?_set_ne (Ne.symm ht), ht]

theorem live?_finish (e : Executor β) (id t : TaskId) :
    (e.finish id).live? t = if t = id then none else e.live? t := by
  unfold live? finish setTask
  by_cases ht : t = id
  · subst ht
    by_cases hlt : t < e.tasks.length <;> simp [hlt]
  · simp [List.getElem?_set_ne (Ne.symm ht), ht]

theorem live?_setBody (h : e.live? id = some (b, a)) (t : TaskId) :
    (e.setBody id body).live? t = if t = id then some (body, a) else e.live? t := by
  unfold setBody
  rw [h]
  exact live?_setTask (lt_of_live? h) t

theorem length_setBody (e : Executor β) (id : TaskId) (body : β) :
    (e.setBody id body).tasks.length = e.tasks.length := by
  unfold setBody
  split
  · simp [setTask]
  · rfl

theorem Awaits.setBody (h : e.Awaits t) (id : TaskId) (body : β) :
    (e.setBody id body).Awaits t := by
  unfold Executor.setBody
  split <;> exact h

theorem setBody_of_not_live (h : e.live? id = none) : e.setBody id body = e := by
  unfold setBody
  rw [h]

theorem live?_abort (e : Executor β) (id t : TaskId) :
    (e.abort id).live? t =
      if t = id then (e.live? t).map fun x => (x.1, true) else e.live? t := by
  unfold abort
  cases h : e.live? id with
  | none =>
    by_cases ht : t = id
    · simp [ht, h]
    · simp [ht]
  | some x =>
    rw [live?_wake, live?_setTask (lt_of_live? h)]
    by_cases ht : t = id
    · simp [ht, h]
    · simp [ht]

theorem live?_abort_of_live? (ht : e.live? t = some (body, ab)) (id : TaskId) :
    ∃ ab', (e.abort id).live? t = some (body, ab') := by
  rw [live?_abort, ht]
  split
  · exact ⟨true, rfl⟩
  · exact ⟨ab, rfl⟩

theorem Awaits.abort (h : e.Awaits t) (id : TaskId) : (e.abort id).Awaits t := by
  unfold Executor.abort
  split
  · exact Awaits.wake (e := e.setTask id _) h id
  · exact h

/-- Aborting gives the task the turn that disposes of it. -/
theorem awaits_abort_self (h : e.live? id = some (body, ab)) : (e.abort id).Awaits id := by
  unfold abort
  rw [h]
  have hlive := @live?_setTask _ e id body true (lt_of_live? h) id
  rw [if_pos rfl] at hlive
  exact awaits_wake_self (isLive_of_live? hlive)

theorem length_abort (e : Executor β) (id : TaskId) :
    (e.abort id).tasks.length = e.tasks.length := by
  unfold abort
  split
  · simp [setTask]
  · rfl

theorem exists_spawn (h : e.isClosed = false) (body : β) :
    ∃ e', e.spawn body = some (e.tasks.length, e') := by
  unfold spawn
  rw [h]
  exact ⟨_, rfl⟩

theorem getElem?_spawn {e' : Executor β} (h : e.spawn body = some (id, e')) (t : TaskId) :
    e'.tasks[t]? = if t = id then some (.live body false) else e.tasks[t]? := by
  unfold spawn at h
  split at h
  · contradiction
  · cases h
    rcases Nat.lt_trichotomy t e.tasks.length with ht | rfl | ht
    · rw [if_neg (Nat.ne_of_lt ht), List.getElem?_append_left ht]
    · simp
    · rw [if_neg (Nat.ne_of_gt ht), List.getElem?_eq_none (Nat.le_of_lt ht)]
      refine List.getElem?_eq_none ?_
      rw [List.length_append, List.length_singleton]
      omega

theorem isClosed_abort (e : Executor β) (id : TaskId) : (e.abort id).isClosed = e.isClosed := by
  unfold abort
  split
  · exact isClosed_wake _ id
  · rfl

theorem live?_spawn {e' : Executor β} (h : e.spawn body = some (id, e')) (t : TaskId) :
    e'.live? t = if t = id then some (body, false) else e.live? t := by
  unfold live?
  rw [getElem?_spawn h]
  by_cases ht : t = id
  · rw [if_pos ht, if_pos ht]
  · rw [if_neg ht, if_neg ht]

theorem spawn_ready_fresh {e' : Executor β} (h : e.spawn body = some (id, e')) :
    e'.ready = e.ready ∧ e'.fresh = e.fresh ++ [id] ∧ id = e.tasks.length ∧
      e'.isClosed = e.isClosed := by
  unfold spawn at h
  split at h
  · contradiction
  · cases h
    exact ⟨rfl, rfl, rfl, rfl⟩

/-! ### Tasks that have ended -/

theorem hasEnded_congr {e e' : Executor β} (h : e'.tasks = e.tasks) (t : TaskId) :
    e'.hasEnded t = e.hasEnded t := by
  rw [hasEnded, hasEnded, h]

theorem hasEnded_of_live? {x : β × Bool} (h : e.live? t = some x) : e.hasEnded t = false := by
  unfold hasEnded
  rw [live?_eq_some_iff.mp h]

theorem hasEnded_setTask (h : id < e.tasks.length) (t : TaskId) :
    (e.setTask id (.live body ab)).hasEnded t = if t = id then false else e.hasEnded t := by
  unfold hasEnded setTask
  by_cases ht : t = id
  · subst ht
    simp [h]
  · simp [List.getElem?_set_ne (Ne.symm ht), ht]

theorem hasEnded_finish (h : id < e.tasks.length) (t : TaskId) :
    (e.finish id).hasEnded t = if t = id then true else e.hasEnded t := by
  unfold hasEnded finish setTask
  by_cases ht : t = id
  · subst ht
    simp [h]
  · simp [List.getElem?_set_ne (Ne.symm ht), ht]

/-- A task with another body has not ended, as it had not before. -/
theorem hasEnded_relive (h : e.live? id = some (b, a)) (t : TaskId) :
    (e.setTask id (.live body ab)).hasEnded t = e.hasEnded t := by
  rw [hasEnded_setTask (lt_of_live? h)]
  split
  · rename_i ht
    rw [ht, hasEnded_of_live? h]
  · rfl

theorem hasEnded_setBody (e : Executor β) (id : TaskId) (body : β) (t : TaskId) :
    (e.setBody id body).hasEnded t = e.hasEnded t := by
  unfold setBody
  cases h : e.live? id with
  | none => rfl
  | some x => exact hasEnded_relive h t

theorem hasEnded_abort (e : Executor β) (id t : TaskId) :
    (e.abort id).hasEnded t = e.hasEnded t := by
  unfold abort
  cases h : e.live? id with
  | none => rfl
  | some x => exact (hasEnded_congr (tasks_wake _ id) t).trans (hasEnded_relive h t)

theorem hasEnded_spawn {e' : Executor β} (h : e.spawn body = some (id, e')) (t : TaskId) :
    e'.hasEnded t = e.hasEnded t := by
  have hid := (spawn_ready_fresh h).2.2.1
  unfold hasEnded
  rw [getElem?_spawn h]
  by_cases ht : t = id
  · rw [if_pos ht, ht, hid, List.getElem?_eq_none (Nat.le_refl _)]
  · rw [if_neg ht]

/-! ### Tasks that are not brought back -/

/-- Whether one executor has come from another without bringing back any task to which it
was said to stop. -/
structure Leads (e e' : Executor β) : Prop where
  length : e.tasks.length ≤ e'.tasks.length
  unstopped : ∀ t, t < e.tasks.length → ∀ body, e'.live? t = some (body, false) →
    ∃ body', e.live? t = some (body', false)

variable {e' e'' : Executor β}

theorem Leads.refl (e : Executor β) : e.Leads e :=
  ⟨Nat.le_refl _, fun _ _ body ht => ⟨body, ht⟩⟩

theorem Leads.trans (h : e.Leads e') (k : e'.Leads e'') : e.Leads e'' := by
  refine ⟨Nat.le_trans h.length k.length, fun t ht body hlive => ?_⟩
  obtain ⟨body', hlive'⟩ := k.unstopped t (Nat.lt_of_lt_of_le ht h.length) body hlive
  exact h.unstopped t ht body' hlive'

/-- If no task is new, each one that goes on went on before. -/
theorem Leads.goes (h : e.Leads e') (hlength : e'.tasks.length = e.tasks.length) {t : TaskId}
    (ht : e'.live? t = some (body, false)) : ∃ body', e.live? t = some (body', false) :=
  h.unstopped t (hlength ▸ lt_of_live? ht) body ht

theorem Leads.of_tasks (h : e'.tasks = e.tasks) : e.Leads e' :=
  ⟨h ▸ Nat.le_refl _, fun t _ body ht => ⟨body, live?_congr h t ▸ ht⟩⟩

theorem leads_setBody (e : Executor β) (id : TaskId) (body : β) : e.Leads (e.setBody id body) := by
  cases hid : e.live? id with
  | none =>
    rw [setBody_of_not_live hid]
    exact .refl e
  | some task =>
    obtain ⟨old, ab⟩ := task
    refine ⟨Nat.le_of_eq (e.length_setBody id body).symm, fun t _ new ht => ?_⟩
    rw [live?_setBody hid] at ht
    split at ht
    · rename_i hti
      cases ht
      exact ⟨old, hti ▸ hid⟩
    · exact ⟨new, ht⟩

theorem leads_finish (e : Executor β) (id : TaskId) : e.Leads (e.finish id) := by
  refine ⟨Nat.le_of_eq (List.length_set ..).symm, fun t _ body ht => ?_⟩
  rw [live?_finish] at ht
  split at ht
  · contradiction
  · exact ⟨body, ht⟩

theorem leads_abort (e : Executor β) (id : TaskId) : e.Leads (e.abort id) := by
  refine ⟨Nat.le_of_eq (e.length_abort id).symm, fun t _ body ht => ?_⟩
  rw [live?_abort] at ht
  split at ht
  · cases hold : e.live? t <;> simp [hold] at ht
  · exact ⟨body, ht⟩

theorem leads_spawn (h : e.spawn body = some (id, e')) : e.Leads e' := by
  have hid := (spawn_ready_fresh h).2.2.1
  refine ⟨?_, fun t ht new hlive => ?_⟩
  · unfold spawn at h
    split at h
    · contradiction
    · cases h
      exact (List.length_append ▸ Nat.le_add_right _ _)
  · rw [live?_spawn h, if_neg (hid ▸ Nat.ne_of_lt ht)] at hlive
    exact ⟨new, hlive⟩

end Executor

/-! ### Locks -/

namespace Lock

@[simp] theorem holder_release (l : Lock) : l.release.2.holder = none := by
  unfold release wakeFirst
  split <;> rfl

@[simp] theorem holder_join (l : Lock) (task : TaskId) : (l.join task).2.holder = l.holder := by
  unfold join
  split <;> rfl

@[simp] theorem holder_leave (l : Lock) (place : Nat) : (l.leave place).2.holder = l.holder := by
  unfold leave wakeFirst
  split
  · split <;> rfl
  · rfl

theorem release_take (l : Lock) (task : TaskId) : (l.take task).release = l.release := rfl

end Lock

/-! ### The registry -/

theorem lookup_filter_ne {κ α : Type} [DecidableEq κ] (entries : List (κ × α)) (key k : κ) :
    (entries.filter (·.1 ≠ key)).lookup k = if k = key then none else entries.lookup k := by
  induction entries with
  | nil => simp
  | cons entry rest ih =>
    obtain ⟨other, a⟩ := entry
    by_cases ho : other = key
    · rw [List.filter_cons_of_neg (by simp [ho]), ih]
      by_cases hk : k = key
      · rw [if_pos hk, if_pos hk]
      · have hne : (k == other) = false := beq_false_of_ne fun h => hk (h.trans ho)
        rw [if_neg hk, if_neg hk, List.lookup_cons, hne]
    · rw [List.filter_cons_of_pos (by simp [ho]), List.lookup_cons, List.lookup_cons, ih]
      by_cases hk : k = other
      · subst hk
        simp [ho]
      · simp [beq_false_of_ne hk]

theorem lookup_concat {κ α : Type} [DecidableEq κ] {entries : List (κ × α)} {key : κ}
    (hnew : entries.lookup key = none) (a : α) (k : κ) :
    (entries ++ [(key, a)]).lookup k = if k = key then some a else entries.lookup k := by
  rw [List.lookup_append]
  by_cases hk : k = key
  · simp [hk, hnew]
  · simp [List.lookup_cons, hk, beq_false_of_ne hk]

namespace Registry

variable {β : Type} (r : Registry) (e : Executor β) (key : TaskKey) (body : β)

theorem task?_stop (k : TaskKey) :
    (r.stop e key).2.1.task? k = if k = key then none else r.task? k := by
  unfold stop
  cases h : r.task? key with
  | some id => exact lookup_filter_ne r.entries key k
  | none =>
    by_cases hk : k = key
    · rw [if_pos hk, hk]
      exact h
    · rw [if_neg hk]

theorem executor_stop : (r.stop e key).2.2 = match r.task? key with
    | some id => e.abort id
    | none => e := by
  unfold stop
  cases r.task? key with
  | some id => rfl
  | none => rfl

theorem entries_stop_sublist : (r.stop e key).2.1.entries.Sublist r.entries := by
  unfold stop
  cases r.task? key with
  | some id => exact List.filter_sublist
  | none => exact List.Sublist.refl _

theorem start_eq {id : TaskId} {e' : Executor β}
    (h : (r.stop e key).2.2.spawn body = some (id, e')) :
    r.start e key body = (.ok (), ⟨(r.stop e key).2.1.entries ++ [(key, id)]⟩, e') := by
  unfold start
  simp only [h]

/-- What a stop leaves of the task of the key is no task that goes on. -/
theorem not_live?_stopped {t : TaskId} (ht : r.task? key = some t) (b : β) :
    (r.stop e key).2.2.live? t ≠ some (b, false) := by
  rw [executor_stop, ht]
  dsimp only
  rw [Executor.live?_abort, if_pos rfl]
  cases e.live? t <;> simp

theorem live?_stop_other {t : TaskId} (ht : r.task? key ≠ some t) :
    (r.stop e key).2.2.live? t = e.live? t := by
  rw [executor_stop]
  cases hkey : r.task? key with
  | none => rfl
  | some id =>
    dsimp only
    rw [Executor.live?_abort, if_neg]
    rintro rfl
    exact ht hkey

theorem hasEnded_stop (t : TaskId) : (r.stop e key).2.2.hasEnded t = e.hasEnded t := by
  rw [executor_stop]
  cases r.task? key with
  | none => rfl
  | some id => exact Executor.hasEnded_abort e id t

theorem length_stop : (r.stop e key).2.2.tasks.length = e.tasks.length := by
  rw [executor_stop]
  cases r.task? key with
  | none => rfl
  | some id => exact Executor.length_abort e id

theorem isClosed_stop : (r.stop e key).2.2.isClosed = e.isClosed := by
  rw [executor_stop]
  cases r.task? key with
  | none => rfl
  | some id => exact Executor.isClosed_abort e id

/-- A start that succeeds puts a new task in the place of the one that was stopped. -/
theorem start_spawned {id : TaskId} {e' : Executor β}
    (h : (r.stop e key).2.2.spawn body = some (id, e')) :
    (r.start e key body).2.2 = e' ∧
      ∀ k, (r.start e key body).2.1.task? k = if k = key then some id else r.task? k := by
  rw [r.start_eq e key body h]
  refine ⟨rfl, fun k => ?_⟩
  have hstop := r.task?_stop e key
  have hnew := (hstop key).trans (if_pos rfl)
  refine (lookup_concat hnew id k).trans ?_
  split
  · rfl
  · rename_i hk
    exact (hstop k).trans (if_neg hk)

/-- A task that goes on after others were told to stop went on before. -/
theorem live?_of_aborted {entries : List (TaskKey × TaskId)} {t : TaskId} {body : β}
    (h : (entries.foldl (fun e (_, id) => e.abort id) e).live? t = some (body, false)) :
    e.live? t = some (body, false) := by
  induction entries generalizing e with
  | nil => exact h
  | cons entry rest ih =>
    have hbefore := ih _ h
    rw [Executor.live?_abort] at hbefore
    split at hbefore
    · cases hold : e.live? t <;> simp [hold] at hbefore
    · exact hbefore

/-- Telling tasks to stop brings none to its end, and none into being. -/
theorem aborts_same (entries : List (TaskKey × TaskId)) :
    (∀ t, (entries.foldl (fun e (_, id) => e.abort id) e).hasEnded t = e.hasEnded t) ∧
      (entries.foldl (fun e (_, id) => e.abort id) e).tasks.length = e.tasks.length ∧
      (entries.foldl (fun e (_, id) => e.abort id) e).isClosed = e.isClosed := by
  induction entries generalizing e with
  | nil => exact ⟨fun _ => rfl, rfl, rfl⟩
  | cons entry rest ih =>
    obtain ⟨hended, hlength, hclosed⟩ := ih (e.abort entry.2)
    exact ⟨fun t => (hended t).trans (e.hasEnded_abort entry.2 t),
      hlength.trans (e.length_abort entry.2), hclosed.trans (e.isClosed_abort entry.2)⟩

/-- Stopping everything leaves no task of an entry that goes on. -/
theorem not_live?_aborted {entries : List (TaskKey × TaskId)} {k : TaskKey} {t : TaskId}
    (h : (k, t) ∈ entries) (body : β) :
    (entries.foldl (fun e (_, id) => e.abort id) e).live? t ≠ some (body, false) := by
  induction entries generalizing e with
  | nil => contradiction
  | cons entry rest ih =>
    rcases List.mem_cons.mp h with rfl | hrest
    · intro hlive
      have hbefore : (e.abort t).live? t = some (body, false) := live?_of_aborted _ hlive
      rw [Executor.live?_abort, if_pos rfl] at hbefore
      cases hold : e.live? t <;> simp [hold] at hbefore
    · exact ih _ hrest

theorem start_refused (h : (r.stop e key).2.2.spawn body = none) :
    (r.start e key body).2 = (r.stop e key).2 := by
  unfold start
  simp only [h]

theorem leads_stop : e.Leads (r.stop e key).2.2 := by
  rw [executor_stop]
  cases r.task? key with
  | none => exact .refl e
  | some id => exact e.leads_abort id

theorem leads_start : e.Leads (r.start e key body).2.2 := by
  have hstop := r.leads_stop e key
  cases hspawn : (r.stop e key).2.2.spawn body with
  | none => exact r.start_refused e key body hspawn ▸ hstop
  | some spawned =>
    rw [(r.start_spawned e key body hspawn).1]
    exact hstop.trans (Executor.leads_spawn hspawn)

theorem leads_stopAll : e.Leads (r.stopAll e).2.2 :=
  ⟨Nat.le_of_eq (aborts_same e r.entries).2.1.symm,
    fun _ _ body ht => ⟨body, live?_of_aborted e ht⟩⟩

/-! What is stopped or replaced is there still, until its next turn. -/

theorem live?_stop {t : TaskId} {b : β} {ab : Bool} (ht : e.live? t = some (b, ab)) :
    ∃ ab', (r.stop e key).2.2.live? t = some (b, ab') := by
  rw [executor_stop]
  cases r.task? key with
  | none => exact ⟨ab, ht⟩
  | some id => exact Executor.live?_abort_of_live? ht id

theorem live?_start {t : TaskId} {b : β} {ab : Bool} (ht : e.live? t = some (b, ab)) :
    ∃ ab', (r.start e key body).2.2.live? t = some (b, ab') := by
  obtain ⟨ab', hstopped⟩ := r.live?_stop e key ht
  refine ⟨ab', ?_⟩
  cases hspawn : (r.stop e key).2.2.spawn body with
  | none => rw [r.start_refused e key body hspawn, hstopped]
  | some spawned =>
    obtain ⟨id, e'⟩ := spawned
    have hne : t ≠ id :=
      (Executor.spawn_ready_fresh hspawn).2.2.1 ▸ Nat.ne_of_lt (Executor.lt_of_live? hstopped)
    rw [(r.start_spawned e key body hspawn).1, Executor.live?_spawn hspawn, if_neg hne, hstopped]

theorem task?_start_ne {t : TaskId} {b : β} {ab : Bool} (ht : e.live? t = some (b, ab)) :
    (r.start e key body).2.1.task? key ≠ some t := by
  obtain ⟨ab', hstopped⟩ := r.live?_stop e key ht
  cases hspawn : (r.stop e key).2.2.spawn body with
  | none =>
    rw [r.start_refused e key body hspawn, task?_stop, if_pos rfl]
    exact nofun
  | some spawned =>
    obtain ⟨id, e'⟩ := spawned
    have hne : t ≠ id :=
      (Executor.spawn_ready_fresh hspawn).2.2.1 ▸ Nat.ne_of_lt (Executor.lt_of_live? hstopped)
    rw [(r.start_spawned e key body hspawn).2, if_pos rfl]
    exact fun hsame => hne (Option.some.inj hsame).symm

theorem live?_stopAll {t : TaskId} {b : β} {ab : Bool} (ht : e.live? t = some (b, ab)) :
    ∃ ab', (r.stopAll e).2.2.live? t = some (b, ab') := by
  show ∃ ab', (r.entries.foldl (fun e (_, id) => e.abort id) e).live? t = some (b, ab')
  induction r.entries generalizing e ab with
  | nil => exact ⟨ab, ht⟩
  | cons entry rest ih =>
    obtain ⟨ab', haborted⟩ := Executor.live?_abort_of_live? ht entry.2
    exact ih _ haborted

end Registry

end WalletPage
