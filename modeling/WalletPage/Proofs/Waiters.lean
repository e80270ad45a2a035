import Mathlib.Data.List.Nodup
import WalletPage.Proofs.Locking

/-! Those who wait for a lock. A lock knows the tasks that wait for its binder, each at a
place of its own, and a task that was woken has a turn coming. Letting the lock go wakes the
first of them, and one that gives up its place after it was woken passes the call on, so that
nobody waits for a lock that is free without a call. -/

namespace WalletPage

variable {ρ : Type}

/-! ### Places -/

namespace Lock

variable {l : Lock} {place : Nat} {w v : Waiter}

/-- Whether each place that there is was taken by one waiter, or given up. -/
def Allots (l : Lock) : Prop :=
  (l.waiters.map Waiter.place ++ l.vacant).Perm (List.range l.places)

/-- Whether the first of those who wait was woken, if nobody holds the lock. -/
def Calls (l : Lock) : Prop :=
  l.holder = none → ∀ w ∈ l.waiters.head?, w.isWoken = true

theorem insertWaiter_perm (w : Waiter) (waiters : List Waiter) :
    (insertWaiter w waiters).Perm (w :: waiters) := by
  induction waiters with
  | nil => exact .refl _
  | cons v rest ih =>
    unfold insertWaiter
    split
    · exact .refl _
    · exact (ih.cons v).trans (.swap w v rest)

theorem waiters_join (l : Lock) (task : TaskId) :
    (l.join task).2.waiters = insertWaiter ⟨(l.join task).1, task, false⟩ l.waiters := by
  unfold join
  split <;> rfl

theorem mem_join {task : TaskId} :
    w ∈ (l.join task).2.waiters ↔ w = ⟨(l.join task).1, task, false⟩ ∨ w ∈ l.waiters := by
  rw [waiters_join, (insertWaiter_perm _ _).mem_iff, List.mem_cons]

theorem mem_vacate : w ∈ (l.vacate place).waiters ↔ w ∈ l.waiters ∧ w.place ≠ place := by
  simp [vacate]

namespace Allots

variable (h : l.Allots)

include h

theorem nodup : (l.waiters.map Waiter.place).Nodup :=
  (h.nodup_iff.mpr List.nodup_range).of_append_left

/-- No two wait at one place. -/
theorem eq_of_place (hw : w ∈ l.waiters) (hv : v ∈ l.waiters) (hplace : w.place = v.place) :
    w = v :=
  List.inj_on_of_nodup_map h.nodup hw hv hplace

theorem join (task : TaskId) : (l.join task).2.Allots := by
  have hplaces := (insertWaiter_perm ⟨(l.join task).1, task, false⟩ l.waiters).map Waiter.place
  rw [← waiters_join] at hplaces
  refine (hplaces.append_right _).trans ?_
  unfold Allots at h
  unfold Lock.join
  split
  · rename_i hvacant
    rw [hvacant] at h
    exact List.perm_middle.symm.trans h
  · rename_i hvacant
    rw [hvacant, List.append_nil] at h
    dsimp only
    rw [hvacant, List.append_nil, List.range_succ]
    exact (h.cons l.places).trans (List.perm_append_singleton _ _).symm

theorem vacate (hw : w ∈ l.waiters) : (l.vacate w.place).Allots := by
  have hmem : w.place ∈ l.waiters.map Waiter.place := List.mem_map_of_mem hw
  have hleft : (l.vacate w.place).waiters.map Waiter.place =
      (l.waiters.map Waiter.place).erase w.place := by
    rw [h.nodup.erase_eq_filter, List.filter_map]
    exact congrArg _ (List.filter_congr fun v _ => decide_not)
  refine List.Perm.trans ?_ h
  show ((l.vacate w.place).waiters.map Waiter.place ++ w.place :: l.vacant).Perm _
  rw [hleft]
  exact List.perm_middle.trans ((List.perm_cons_erase hmem).symm.append_right l.vacant)

theorem rejoin (place : Nat) : (l.rejoin place).Allots := by
  have hsame : (l.rejoin place).waiters.map Waiter.place = l.waiters.map Waiter.place := by
    unfold Lock.rejoin
    rw [List.map_map]
    refine List.map_congr_left fun w _ => ?_
    rw [Function.comp_apply]
    split <;> rfl
  unfold Allots
  rw [hsame]
  exact h

theorem wakeFirst : l.wakeFirst.2.Allots := by
  unfold Lock.wakeFirst
  split
  · exact h
  · rename_i hwaiters
    unfold Allots at h ⊢
    rwa [hwaiters] at h

end Allots

/-! ### Calls -/

theorem calls_wakeFirst (l : Lock) : l.wakeFirst.2.Calls := by
  unfold wakeFirst
  split
  · rename_i hnone
    rintro - w hw
    rw [hnone] at hw
    contradiction
  · rintro - w hw
    cases hw
    rfl

theorem Calls.leave (h : l.Calls) (place : Nat) : (l.leave place).2.Calls := by
  unfold Lock.leave
  split
  · exact calls_wakeFirst _
  · rename_i hcalm
    intro hfree w hw
    have hfirst := h hfree
    unfold vacate at hw
    cases hwaiters : l.waiters with
    | nil =>
      rw [hwaiters] at hw
      contradiction
    | cons v rest =>
      rw [hwaiters] at hw hfirst
      have hwoken : v.isWoken = true := hfirst v rfl
      -- The first waiter was woken, so that it is not the one that leaves without a call.
      have hstays : v.place ≠ place := by
        intro hplace
        refine hcalm ?_
        rw [isWoken, hwaiters]
        simp [hplace, hwoken]
      rw [List.filter_cons_of_pos (by simp [hstays])] at hw
      cases hw
      exact hwoken

end Lock

/-! ### Tasks that wait -/

/-- Whether a task waits for a binder at a place. -/
def Executor.QueuesAt (e : Executor (Body ρ)) (t : TaskId) (b : BinderId) (place : Nat) : Prop :=
  ∃ policy isAborted, e.live? t = some (.poll b policy (.queued place), isAborted)

namespace Executor

variable {e e' : Executor (Body ρ)} {t id : TaskId} {b c : BinderId} {place other : Nat}

theorem queuesAt_congr (h : e'.live? t = e.live? t) (b : BinderId) (place : Nat) :
    e'.QueuesAt t b place ↔ e.QueuesAt t b place := by
  simp only [QueuesAt, h]

theorem queuesAt_iff {body : Body ρ} {isAborted : Bool} (h : e.live? t = some (body, isAborted)) :
    e.QueuesAt t b place ↔ ∃ policy, body = .poll b policy (.queued place) := by
  constructor
  · rintro ⟨policy, isAborted', ht⟩
    rw [h] at ht
    cases ht
    exact ⟨policy, rfl⟩
  · rintro ⟨policy, rfl⟩
    exact ⟨policy, isAborted, h⟩

theorem not_queuesAt (h : e.live? t = none) : ¬ e.QueuesAt t b place := by
  rintro ⟨policy, isAborted, ht⟩
  rw [h] at ht
  contradiction

theorem QueuesAt.unique (h : e.QueuesAt t b place) (k : e.QueuesAt t c other) :
    b = c ∧ place = other := by
  obtain ⟨policy, isAborted, ht⟩ := h
  obtain ⟨policy', heq⟩ := (queuesAt_iff ht).mp k
  cases heq
  exact ⟨rfl, rfl⟩

theorem QueuesAt.isLive (h : e.QueuesAt t b place) : e.isLive t = true := by
  obtain ⟨policy, isAborted, ht⟩ := h
  exact isLive_of_live? ht

end Executor

/-- Whether a lock knows who waits for its binder, and each waiter that was woken has a turn
coming, unless it is its turn. -/
structure Lock.Attends (l : Lock) (e : Executor (Body ρ)) (b : BinderId)
    (turn : Option TaskId) : Prop where
  allots : l.Allots
  waits : ∀ t place, (∃ w ∈ l.waiters, w.task = t ∧ w.place = place) ↔ e.QueuesAt t b place
  woken : ∀ w ∈ l.waiters, w.isWoken = true → turn ≠ some w.task → e.Awaits w.task

namespace Lock.Attends

variable {l : Lock} {e e' : Executor (Body ρ)} {b : BinderId} {turn : Option TaskId}
  {id : TaskId} {place : Nat}

theorem queues (h : l.Attends e b turn) {w : Waiter} (hw : w ∈ l.waiters) :
    e.QueuesAt w.task b w.place :=
  (h.waits _ _).mp ⟨w, hw, rfl, rfl⟩

theorem congr (h : l.Attends e b turn)
    (hqueues : ∀ t place, e'.QueuesAt t b place ↔ e.QueuesAt t b place)
    (hawaits : ∀ t, e.Awaits t → e'.Awaits t) : l.Attends e' b turn where
  allots := h.allots
  waits t place := (h.waits t place).trans (hqueues t place).symm
  woken w hw hwoken hturn := hawaits _ (h.woken w hw hwoken hturn)

/-- A task at its turn that does not wait needs no call. -/
theorem settle (h : l.Attends e b (some id)) (hid : ∀ place, ¬ e.QueuesAt id b place) :
    l.Attends e b none where
  allots := h.allots
  waits := h.waits
  woken w hw hwoken _ := by
    refine h.woken w hw hwoken fun hturn => ?_
    exact hid w.place (Option.some.inj hturn ▸ h.queues hw)

/-- A task that does not wait yet gets a place. -/
theorem join (h : l.Attends e b none)
    (hqueues : ∀ t place, e'.QueuesAt t b place ↔
      t = id ∧ place = (l.join id).1 ∨ e.QueuesAt t b place)
    (hawaits : ∀ t, e.Awaits t → e'.Awaits t) : (l.join id).2.Attends e' b none where
  allots := h.allots.join id
  waits t place := by
    rw [hqueues, ← h.waits]
    constructor
    · rintro ⟨w, hw, rfl, rfl⟩
      rcases mem_join.mp hw with rfl | hw
      · exact .inl ⟨rfl, rfl⟩
      · exact .inr ⟨w, hw, rfl, rfl⟩
    · rintro (⟨rfl, rfl⟩ | ⟨w, hw, rfl, rfl⟩)
      · exact ⟨_, mem_join.mpr (.inl rfl), rfl, rfl⟩
      · exact ⟨w, mem_join.mpr (.inr hw), rfl, rfl⟩
  woken w hw hwoken hturn := by
    rcases mem_join.mp hw with rfl | hw
    · contradiction
    · exact hawaits _ (h.woken w hw hwoken hturn)

/-- A task that finds the lock taken waits on for the next call. -/
theorem rejoin (h : l.Attends e b (some id)) (hid : e.QueuesAt id b place) :
    (l.rejoin place).Attends e b none where
  allots := h.allots.rejoin place
  waits t p := by
    rw [← h.waits]
    unfold Lock.rejoin
    simp only [List.mem_map, exists_exists_and_eq_and]
    refine exists_congr fun w => and_congr_right fun _ => ?_
    split <;> exact .rfl
  woken w hw hwoken _ := by
    obtain ⟨v, hv, rfl⟩ := List.mem_map.mp hw
    split at hwoken
    · contradiction
    · rename_i hplace
      rw [if_neg hplace]
      refine h.woken v hv hwoken fun hturn => hplace ?_
      exact ((h.queues hv).unique (Option.some.inj hturn ▸ hid)).2

/-- A task that will not wait any longer gives up its place. -/
theorem vacate (h : l.Attends e b (some id)) (hid : e.QueuesAt id b place)
    (hqueues : ∀ t place, e'.QueuesAt t b place ↔ t ≠ id ∧ e.QueuesAt t b place)
    (hawaits : ∀ t, e.Awaits t → e'.Awaits t) : (l.vacate place).Attends e' b none := by
  obtain ⟨v, hv, rfl, rfl⟩ := (h.waits id place).mpr hid
  have hothers {w : Waiter} (hw : w ∈ l.waiters) : w.place ≠ v.place ↔ w.task ≠ v.task := by
    refine not_congr ⟨fun hplace => ?_, fun htask => ?_⟩
    · rw [h.allots.eq_of_place hw hv hplace]
    · exact ((h.queues hw).unique (htask ▸ hid)).2
  refine ⟨h.allots.vacate hv, fun t place => ?_, fun w hw hwoken _ => ?_⟩
  · rw [hqueues, ← h.waits]
    constructor
    · rintro ⟨w, hw, rfl, rfl⟩
      obtain ⟨hw, hplace⟩ := mem_vacate.mp hw
      exact ⟨(hothers hw).mp hplace, w, hw, rfl, rfl⟩
    · rintro ⟨hne, w, hw, rfl, rfl⟩
      exact ⟨w, mem_vacate.mpr ⟨hw, (hothers hw).mpr hne⟩, rfl, rfl⟩
  · obtain ⟨hw, hplace⟩ := mem_vacate.mp hw
    refine hawaits _ (h.woken w hw hwoken fun hturn => ?_)
    exact (hothers hw).mp hplace (Option.some.inj hturn).symm

/-- The first of those who wait is woken. -/
theorem wakeFirst (h : l.Attends e b none)
    (hnext : ∀ t, l.wakeFirst.1 = some t → e.isLive t = true → e.Awaits t) :
    l.wakeFirst.2.Attends e b none := by
  refine ⟨h.allots.wakeFirst, fun t place => ?_, ?_⟩
  · rw [← h.waits]
    unfold Lock.wakeFirst
    cases hwaiters : l.waiters with
    | nil => simp [hwaiters]
    | cons v rest => simp
  · have hqueues {w : Waiter} (hw : w ∈ l.waiters) := (h.queues hw).isLive
    have hwoken := h.woken
    unfold Lock.wakeFirst at hnext ⊢
    cases hwaiters : l.waiters with
    | nil =>
      rw [hwaiters] at hwoken
      dsimp only
      rwa [hwaiters]
    | cons v rest =>
      rw [hwaiters] at hnext hqueues hwoken
      dsimp only at hnext ⊢
      refine List.forall_mem_cons.mpr ⟨fun _ _ => ?_, fun w hw => ?_⟩
      · by_cases hv : v.isWoken = true
        · exact hwoken v List.mem_cons_self hv nofun
        · exact hnext v.task (if_neg hv) (hqueues List.mem_cons_self)
      · exact hwoken w (List.mem_cons_of_mem v hw)

/-- The lock is let go. -/
theorem release (h : l.Attends e b none)
    (hnext : ∀ t, l.release.1 = some t → e.isLive t = true → e.Awaits t) :
    l.release.2.Attends e b none :=
  wakeFirst (l := { l with holder := none }) ⟨h.allots, h.waits, h.woken⟩ hnext

theorem leave (h : l.Attends e b (some id)) (hid : e.QueuesAt id b place)
    (hqueues : ∀ t place, e'.QueuesAt t b place ↔ t ≠ id ∧ e.QueuesAt t b place)
    (hawaits : ∀ t, e.Awaits t → e'.Awaits t)
    (hnext : ∀ t, (l.leave place).1 = some t → e'.isLive t = true → e'.Awaits t) :
    (l.leave place).2.Attends e' b none := by
  have hvacated := h.vacate hid hqueues hawaits
  unfold Lock.leave at hnext ⊢
  split at hnext
  · rw [if_pos ‹_›]
    exact hvacated.wakeFirst hnext
  · rw [if_neg ‹_›]
    exact hvacated

end Lock.Attends

end WalletPage
