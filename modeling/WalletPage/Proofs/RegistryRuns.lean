import WalletPage.Proofs.Rosters

/-! What a registry says of its tasks is what has happened to them. The keys that it calls
running are those whose last task has neither ended nor been stopped; a task that was stopped
or replaced takes no further step; and when it is disposed of, all others count as they
did. -/

namespace WalletPage

variable {β : Type}

/-- Whether a registry is right about its tasks. -/
structure Roster.Accurate (r : Roster β) : Prop where
  /-- The keys that are running are those whose last task has neither ended nor been stopped. -/
  running : ∀ key, key ∈ r.running ↔ ∃ id, GoesOn r.history key id
  isRunning : ∀ key, r.isRunning key = true ↔ key ∈ r.running
  nodup : r.running.Nodup
  starts : ∀ key body, (r.registry.start r.executor key body).1 = .ok ()
  stops : ∀ key, (r.registry.stop r.executor key).1 = true ↔ key ∈ r.running
  stopsAll : (r.registry.stopAll r.executor).1 = r.running.length ∧ r.stopAll.running = []
  /-- A task that is stopped or replaced takes no further step. -/
  halts : ∀ key id, .started key id ∈ r.history → ∀ act : RosterAct β, act.Stops key →
    ∀ later, ∃ new, ((act.step r).after later).history = (act.step r).history ++ new ∧
      ∀ event ∈ new, ¬ event.IsStepOf id
  /-- When such a task is disposed of, all others count as they did. -/
  disposals : ∀ (act : RosterAct β) id, (act.step r).history = r.history ++ [.disposed id] →
    ∀ key, ((act.step r).isRunning key = true ↔ r.isRunning key = true) ∧
      (key ∈ (act.step r).running ↔ key ∈ r.running)

namespace Roster

variable {r : Roster β} {key : TaskKey} {id : TaskId}

/-- No act brings back a task that was told to stop. -/
theorem step_leads (r : Roster β) (act : RosterAct β) :
    r.executor.Leads (act.step r).executor := by
  cases act with
  | start key body => exact Registry.leads_start ..
  | stop key => exact Registry.leads_stop ..
  | stopAll => exact Registry.leads_stopAll ..
  | enroll => exact .of_tasks rfl
  | turn next woken =>
    unfold RosterAct.step
    cases hnext : r.executor.next? with
    | none => exact .refl _
    | some popped =>
      obtain ⟨id, executor⟩ := popped
      obtain ⟨rest, -, rfl⟩ := Executor.next?_eq_some_iff.mp hnext
      have hwoken : r.executor.Leads (woken.foldl Executor.wake { r.executor with ready := rest }) :=
        .of_tasks (Executor.wakes_same _ woken).1
      dsimp only
      unfold takeTurn
      split
      · exact hwoken
      · exact hwoken.trans (Executor.leads_finish ..)
      · exact hwoken.trans (Executor.leads_setBody ..)
      · exact hwoken.trans (Executor.leads_finish ..)
  | resume id body =>
    exact (Executor.leads_setBody ..).trans (.of_tasks (Executor.tasks_wake _ id))

/-- In an act at most one body takes a step, and that of a task that goes on. -/
theorem step_history (r : Roster β) (act : RosterAct β) :
    ∃ new, (act.step r).history = r.history ++ new ∧
      ∀ event ∈ new, ∀ id, event.IsStepOf id →
        ∃ body, r.executor.live? id = some (body, false) := by
  have hnone : ∃ new, r.history = r.history ++ new ∧
      ∀ event ∈ new, ∀ id, event.IsStepOf id →
        ∃ body, r.executor.live? id = some (body, false) :=
    ⟨[], (List.append_nil _).symm, List.forall_mem_nil _⟩
  cases act with
  | start key body =>
    refine ⟨_, List.append_assoc .., fun event hevent id hstep => ?_⟩
    split at hevent
    · rcases List.mem_pair.mp hevent with rfl | rfl
      · exact hstep.elim
      · exact hstep.elim
    · rw [List.mem_singleton.mp hevent] at hstep
      exact hstep.elim
  | stop key => exact ⟨_, rfl, List.forall_mem_singleton.mpr fun _ hstep => hstep.elim⟩
  | stopAll => exact ⟨_, rfl, List.forall_mem_singleton.mpr fun _ hstep => hstep.elim⟩
  | enroll => exact hnone
  | turn next woken =>
    unfold RosterAct.step
    cases hnext : r.executor.next? with
    | none => exact hnone
    | some popped =>
      obtain ⟨id, executor⟩ := popped
      obtain ⟨rest, -, rfl⟩ := Executor.next?_eq_some_iff.mp hnext
      have hlive : (woken.foldl Executor.wake { r.executor with ready := rest }).live? id =
          r.executor.live? id :=
        Executor.live?_congr (Executor.wakes_same _ woken).1 id
      dsimp only
      unfold takeTurn
      split
      · exact hnone
      · exact ⟨_, rfl, List.forall_mem_singleton.mpr fun _ hstep => hstep.elim⟩
      · rename_i old body hid
        refine ⟨_, rfl, List.forall_mem_singleton.mpr ?_⟩
        rintro _ rfl
        exact ⟨old, hlive.symm.trans hid⟩
      · rename_i old hid
        refine ⟨_, rfl, List.forall_mem_singleton.mpr ?_⟩
        rintro _ rfl
        exact ⟨old, hlive.symm.trans hid⟩
  | resume id body => exact hnone

/-- A task that does not go on takes no step any more. -/
theorem after_history (hlt : id < r.executor.tasks.length)
    (hgone : ∀ body, r.executor.live? id ≠ some (body, false)) (acts : List (RosterAct β)) :
    ∃ new, (r.after acts).history = r.history ++ new ∧ ∀ event ∈ new, ¬ event.IsStepOf id := by
  induction acts generalizing r with
  | nil => exact ⟨[], (List.append_nil _).symm, List.forall_mem_nil _⟩
  | cons act rest ih =>
    have hleads := r.step_leads act
    obtain ⟨first, hfirst, hsteps⟩ := r.step_history act
    obtain ⟨more, hmore, hrest⟩ := ih (Nat.lt_of_lt_of_le hlt hleads.length) fun body hlive => by
      obtain ⟨body', hlive'⟩ := hleads.unstopped id hlt body hlive
      exact hgone body' hlive'
    refine ⟨first ++ more, ?_, fun event hevent hstep => ?_⟩
    · rw [← List.append_assoc, ← hfirst]
      exact hmore
    · rcases List.mem_append.mp hevent with hevent | hevent
      · obtain ⟨body, hlive⟩ := hsteps event hevent id hstep
        exact hgone body hlive
      · exact hrest event hevent hstep

namespace Sound

theorem mem_running_iff (h : r.Sound) : key ∈ r.running ↔ ∃ id, GoesOn r.history key id := by
  simp only [← h.goesOn]
  exact Registry.mem_running_iff h.keys

theorem isRunning_iff (h : r.Sound) : r.isRunning key = true ↔ key ∈ r.running := by
  have hunstopped {id : TaskId} (hkey : r.registry.task? key = some id) :
      r.executor.isAborted id = false := by
    rw [← Bool.not_eq_true, Executor.isAborted, Option.any_eq_true]
    rintro ⟨⟨body, ab⟩, hlive, rfl⟩
    exact h.unstopped key id hkey body hlive
  rw [running, Registry.mem_running_iff h.keys, isRunning, Registry.isRunning, Option.any_eq_true]
  refine exists_congr fun id => and_congr_right fun hkey => ?_
  rw [hunstopped hkey]
  simp

/-- A key whose task is stopped or replaced has another task than before, or none. -/
theorem task?_of_stops (h : r.Sound) {act : RosterAct β} (hact : act.Stops key)
    (hlt : id < r.executor.tasks.length) : (act.step r).registry.task? key ≠ some id := by
  cases act with
  | start k body =>
    obtain rfl : k = key := hact
    obtain ⟨e', hspawn⟩ := Executor.exists_spawn (h.stop k).isOpen body
    have htask := (r.registry.start_spawned r.executor k body hspawn).2 k
    rw [if_pos rfl, show (r.stop k).executor.tasks.length = _ from Registry.length_stop ..] at htask
    show (r.registry.start r.executor k body).2.1.task? k ≠ some id
    rw [htask]
    exact fun hid => Nat.ne_of_gt hlt (Option.some.inj hid)
  | stop k =>
    obtain rfl : k = key := hact
    show (r.registry.stop r.executor k).2.1.task? k ≠ some id
    rw [Registry.task?_stop, if_pos rfl]
    exact nofun
  | stopAll => exact nofun
  | enroll => exact hact.elim
  | turn => exact hact.elim
  | resume => exact hact.elim

/-- Every task of a key that is stopped or replaced takes no step any more. -/
theorem halts (h : r.Sound) (hstarted : .started key id ∈ r.history) {act : RosterAct β}
    (hact : act.Stops key) (later : List (RosterAct β)) :
    ∃ new, ((act.step r).after later).history = (act.step r).history ++ new ∧
      ∀ event ∈ new, ¬ event.IsStepOf id := by
  have hlt := h.counted key id hstarted
  obtain ⟨first, hfirst, -⟩ := r.step_history act
  refine after_history (Nat.lt_of_lt_of_le hlt (r.step_leads act).length) (fun body hlive => ?_)
    later
  have hmem : .started key id ∈ (act.step r).history :=
    hfirst ▸ List.mem_append_left first hstarted
  exact h.task?_of_stops hact hlt ((h.step act).own key id body hmem hlive)

theorem accurate (h : r.Sound) : r.Accurate where
  running _ := h.mem_running_iff
  isRunning _ := h.isRunning_iff
  nodup := h.keys.sublist (List.filter_sublist.map _)
  starts key body := by
    obtain ⟨e', hspawn⟩ := Executor.exists_spawn (h.stop key).isOpen body
    rw [r.registry.start_eq r.executor key body hspawn]
  stops key := by
    rw [Roster.running, Registry.mem_running_iff h.keys, Registry.stop]
    cases r.registry.task? key <;> simp
  stopsAll := ⟨rfl, rfl⟩
  halts _ _ hstarted _ hact later := h.halts hstarted hact later
  disposals act id hhistory key := by
    have hafter := h.step act
    have hsame : key ∈ (act.step r).running ↔ key ∈ r.running := by
      rw [hafter.mem_running_iff, h.mem_running_iff, hhistory]
      refine exists_congr fun t => ?_
      rw [goesOn_concat, or_iff_right nofun]
      exact and_iff_left not_false
    exact ⟨by rw [hafter.isRunning_iff, h.isRunning_iff, hsame], hsame⟩

end Sound

end Roster

/-- A registry is right about its tasks, whatever has been started and stopped, and however
the tasks have taken their turns and come to their ends. -/
theorem registry_accurate (acts : List (RosterAct β)) :
    (Roster.after {} acts).Accurate :=
  (Roster.empty_sound.after acts).accurate

end WalletPage
