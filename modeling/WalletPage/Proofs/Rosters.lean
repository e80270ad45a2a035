import WalletPage.Proofs.TaskLaws
import Mathlib.Data.List.Nodup

/-! A registry with its tasks and their history. Whether a task goes on is spread over three
places: the entry of its key, the mark that it was told to stop, and its end. The calls of
the registry and the turns of the tasks change them at different times; an invariant ties
all three to what has happened. -/

namespace WalletPage

/-- What happens to the tasks of a registry. -/
inductive TaskEvent where
  | started (key : TaskKey) (id : TaskId)
  | stopped (key : TaskKey)
  | stoppedAll
  /-- A task has taken a step of its body, and goes on. -/
  | stepped (id : TaskId)
  /-- A task has taken the last step of its body. -/
  | ended (id : TaskId)
  /-- A task that was told to stop is disposed of. -/
  | disposed (id : TaskId)
deriving DecidableEq, Repr

/-- Whether with an event a task is no longer the one that goes on for its key. -/
def TaskEvent.Ends (key : TaskKey) (id : TaskId) : TaskEvent → Prop
  | started k _ => k = key
  | stopped k => k = key
  | stoppedAll => True
  | stepped _ => False
  | ended t => t = id
  | disposed _ => False

/-- Whether in an event the body of a task takes a step. -/
def TaskEvent.IsStepOf (id : TaskId) : TaskEvent → Prop
  | stepped t => t = id
  | ended t => t = id
  | _ => False

/-- Whether a task is the one that was started last for a key, and has neither ended nor been
stopped since. -/
def GoesOn (history : List TaskEvent) (key : TaskKey) (id : TaskId) : Prop :=
  ∃ before after, history = before ++ .started key id :: after ∧
    ∀ event ∈ after, ¬ event.Ends key id

/-- A registry, the executor of its tasks, and what has happened to them. -/
structure Roster (β : Type) where
  registry : Registry := {}
  executor : Executor β := {}
  /-- What has happened, the latest last. -/
  history : List TaskEvent := []

namespace Roster

variable {β : Type}

/-- Stops the task of a key. -/
def stop (r : Roster β) (key : TaskKey) : Roster β where
  registry := (r.registry.stop r.executor key).2.1
  executor := (r.registry.stop r.executor key).2.2
  history := r.history ++ [.stopped key]

/-- Starts a task for a key, which stops the old one. -/
def start (r : Roster β) (key : TaskKey) (body : β) : Roster β where
  registry := (r.registry.start r.executor key body).2.1
  executor := (r.registry.start r.executor key body).2.2
  history := r.history ++ [.stopped key] ++
    match (r.registry.start r.executor key body).1 with
    | .ok () => [.started key r.executor.tasks.length]
    | .error _ => []

/-- Stops all tasks. -/
def stopAll (r : Roster β) : Roster β where
  registry := (r.registry.stopAll r.executor).2.1
  executor := (r.registry.stopAll r.executor).2.2
  history := r.history ++ [.stoppedAll]

/-- The turn of a task. What its body comes to is up to the body: another body, or its end.
A task that was told to stop is disposed of before its body could do anything. -/
def takeTurn (r : Roster β) (id : TaskId) (next : Option β) : Roster β :=
  match r.executor.live? id, next with
  | none, _ => r
  | some (_, true), _ =>
    { r with executor := r.executor.finish id, history := r.history ++ [.disposed id] }
  | some (_, false), some body =>
    { r with executor := r.executor.setBody id body, history := r.history ++ [.stepped id] }
  | some (_, false), none =>
    { r with executor := r.executor.finish id, history := r.history ++ [.ended id] }

/-- The keys whose tasks go on, as the registry tells. -/
def running (r : Roster β) : List TaskKey :=
  r.registry.running r.executor

/-- Whether the task of a key goes on, as the registry tells. -/
def isRunning (r : Roster β) (key : TaskKey) : Bool :=
  r.registry.isRunning r.executor key

end Roster

/-- What can happen to a registry whose executor stays alive. -/
inductive RosterAct (β : Type) where
  | start (key : TaskKey) (body : β)
  | stop (key : TaskKey)
  | stopAll
  /-- The new tasks are queued for a turn. -/
  | enroll
  /-- The next task takes its turn, in which other tasks are woken. -/
  | turn (next : Option β) (woken : List TaskId)
  /-- What a task waits for has come. -/
  | resume (id : TaskId) (body : β)

variable {β : Type}

/-- A roster after an act. -/
def RosterAct.step (r : Roster β) : RosterAct β → Roster β
  | start key body => r.start key body
  | stop key => r.stop key
  | stopAll => r.stopAll
  | enroll => { r with executor := r.executor.enroll }
  | turn next woken =>
    match r.executor.next? with
    | none => r
    | some (id, executor) =>
      { r with executor := woken.foldl Executor.wake executor }.takeTurn id next
  | resume id body => { r with executor := (r.executor.setBody id body).wake id }

/-- A roster after some acts. -/
def Roster.after (r : Roster β) (acts : List (RosterAct β)) : Roster β :=
  acts.foldl RosterAct.step r

/-- Whether an act stops the task of a key, or replaces it. -/
def RosterAct.Stops (key : TaskKey) : RosterAct β → Prop
  | start k _ => k = key
  | stop k => k = key
  | stopAll => True
  | _ => False

/-! ### What goes on after an event -/

section

variable {history events : List TaskEvent} {key k : TaskKey} {id t : TaskId}

theorem goesOn_concat {event : TaskEvent} : GoesOn (history ++ [event]) key id ↔
    event = .started key id ∨ GoesOn history key id ∧ ¬ event.Ends key id := by
  constructor
  · rintro ⟨before, after, hhistory, hafter⟩
    rcases List.eq_nil_or_concat' after with rfl | ⟨rest, last, rfl⟩
    · exact .inl (List.singleton_inj.mp (List.append_inj' hhistory rfl).2)
    · rw [← List.cons_append, ← List.append_assoc] at hhistory
      obtain ⟨hbefore, hlast⟩ := List.append_inj' hhistory rfl
      obtain rfl := List.singleton_inj.mp hlast
      refine .inr ⟨⟨before, rest, hbefore, fun e he => ?_⟩, ?_⟩
      · exact hafter e (List.mem_append_left _ he)
      · exact hafter event (List.mem_append_right _ (List.mem_singleton_self event))
  · rintro (rfl | ⟨⟨before, after, rfl, hafter⟩, hevent⟩)
    · exact ⟨history, [], rfl, List.forall_mem_nil _⟩
    · refine ⟨before, after ++ [event], by simp, fun e he => ?_⟩
      rcases List.mem_append.mp he with he | he
      · exact hafter e he
      · exact List.mem_singleton.mp he ▸ hevent

/-- Where nothing is started, a task goes on until an event ends it. -/
theorem goesOn_append (hstarted : ∀ k t, .started k t ∉ events) :
    GoesOn (history ++ events) key id ↔
      GoesOn history key id ∧ ∀ event ∈ events, ¬ event.Ends key id := by
  induction events generalizing history with
  | nil => simp
  | cons event rest ih =>
    have hevent : event ≠ .started key id := by
      rintro rfl
      exact hstarted key id List.mem_cons_self
    have hrest : ∀ k t, .started k t ∉ rest := fun k t hmem =>
      hstarted k t (List.mem_cons_of_mem event hmem)
    rw [List.append_cons, ih hrest, goesOn_concat, or_iff_right hevent, List.forall_mem_cons,
      and_assoc]

end

/-! ### The entries of a registry -/

namespace Registry

variable {r : Registry} {e : Executor β} {key : TaskKey} {id : TaskId}

theorem mem_of_task? (h : r.task? key = some id) : (key, id) ∈ r.entries := by
  obtain ⟨before, after, hentries, -⟩ := List.lookup_eq_some_iff.mp h
  rw [hentries]
  exact List.mem_append_right _ List.mem_cons_self

theorem task?_eq_some_iff (hkeys : (r.entries.map (·.1)).Nodup) :
    r.task? key = some id ↔ (key, id) ∈ r.entries := by
  refine ⟨mem_of_task?, fun hmem => ?_⟩
  obtain ⟨before, after, hentries⟩ := List.append_of_mem hmem
  refine List.lookup_eq_some_iff.mpr ⟨before, after, hentries, fun entry hentry => ?_⟩
  rw [hentries, List.map_append, List.nodup_append] at hkeys
  have hne := hkeys.2.2 entry.1 (List.mem_map_of_mem hentry) key List.mem_cons_self
  exact bne_iff_ne.mpr hne.symm

theorem mem_running_iff (hkeys : (r.entries.map (·.1)).Nodup) :
    key ∈ r.running e ↔ ∃ id, r.task? key = some id ∧ e.hasEnded id = false := by
  simp only [task?_eq_some_iff hkeys]
  simp [running]

theorem nodup_concat (hkeys : (r.entries.map (·.1)).Nodup) (hkey : r.task? key = none) :
    ((r.entries ++ [(key, id)]).map (·.1)).Nodup := by
  rw [List.map_append, List.nodup_append]
  refine ⟨hkeys, List.nodup_singleton _, ?_⟩
  rintro k hk _ hsame rfl
  obtain ⟨entry, hentry, rfl⟩ := List.mem_map.mp hk
  have hne := List.lookup_eq_none_iff.mp hkey entry hentry
  rw [List.mem_singleton.mp hsame] at hne
  simp at hne

end Registry

namespace Roster

/-- The invariant: what the registry and the executor hold of the tasks that were started. -/
structure Sound (r : Roster β) : Prop where
  isOpen : r.executor.isClosed = false
  keys : (r.registry.entries.map (·.1)).Nodup
  listed : ∀ key id, r.registry.task? key = some id → .started key id ∈ r.history
  counted : ∀ key id, .started key id ∈ r.history → id < r.executor.tasks.length
  unique : ∀ key k id, .started key id ∈ r.history → .started k id ∈ r.history → k = key
  unstopped : ∀ key id, r.registry.task? key = some id →
    ∀ body, r.executor.live? id ≠ some (body, true)
  own : ∀ key id body, .started key id ∈ r.history →
    r.executor.live? id = some (body, false) → r.registry.task? key = some id
  goesOn : ∀ key id, r.registry.task? key = some id ∧ r.executor.hasEnded id = false ↔
    GoesOn r.history key id

theorem empty_sound : (Roster.mk {} {} [] : Roster β).Sound where
  isOpen := rfl
  keys := List.nodup_nil
  listed _ _ h := nomatch h
  counted _ _ h := nomatch h
  unique _ _ _ h := nomatch h
  unstopped _ _ h := nomatch h
  own _ _ _ h := nomatch h
  goesOn _ _ := by simp [Registry.task?, GoesOn]

namespace Sound

variable {r : Roster β} {key k : TaskKey} {id t : TaskId} {body : β} {e' : Executor β}

/-- A task has the entry of one key only. -/
theorem single (h : r.Sound) (hkey : r.registry.task? key = some id)
    (hk : r.registry.task? k = some id) : k = key :=
  h.unique key k id (h.listed key id hkey) (h.listed k id hk)

/-- What keeps the invariant as long as nothing is started: entries may go, and tasks may
change, be told to stop or come to their ends, if the events say so of every task that has
an entry. -/
theorem pass (h : r.Sound) {registry : Registry} {events : List TaskEvent}
    (hclosed : e'.isClosed = false) (hlength : e'.tasks.length = r.executor.tasks.length)
    (hentries : registry.entries.Sublist r.registry.entries)
    (hunstopped : ∀ key t, registry.task? key = some t → ∀ body, e'.live? t ≠ some (body, true))
    (hgoes : ∀ t body, e'.live? t = some (body, false) →
      (∃ body', r.executor.live? t = some (body', false)) ∧
        ∀ key, r.registry.task? key = some t → registry.task? key = some t)
    (hstarted : ∀ key t, .started key t ∉ events)
    (hends : ∀ key t, r.registry.task? key = some t →
      (registry.task? key = some t ∧ e'.hasEnded t = false ↔
        r.executor.hasEnded t = false ∧ ∀ event ∈ events, ¬ event.Ends key t)) :
    Sound ⟨registry, e', r.history ++ events⟩ := by
  have hkeys : (registry.entries.map (·.1)).Nodup := h.keys.sublist (hentries.map _)
  have hkept {key : TaskKey} {t : TaskId} (hkey : registry.task? key = some t) :
      r.registry.task? key = some t := by
    rw [Registry.task?_eq_some_iff hkeys] at hkey
    exact (Registry.task?_eq_some_iff h.keys).mpr (hentries.subset hkey)
  have hold {key : TaskKey} {t : TaskId} (hmem : .started key t ∈ r.history ++ events) :
      .started key t ∈ r.history :=
    (List.mem_append.mp hmem).resolve_right (hstarted key t)
  refine ⟨hclosed, hkeys, ?_, ?_, ?_, hunstopped, ?_, ?_⟩
  · exact fun key t hkey => List.mem_append_left _ (h.listed key t (hkept hkey))
  · intro key t hmem
    show t < e'.tasks.length
    rw [hlength]
    exact h.counted key t (hold hmem)
  · exact fun key k t hkey hk => h.unique key k t (hold hkey) (hold hk)
  · intro key t body hmem ht
    obtain ⟨⟨body', ht'⟩, hentry⟩ := hgoes t body ht
    exact hentry key (h.own key t body' (hold hmem) ht')
  · intro key t
    rw [goesOn_append hstarted, ← h.goesOn]
    constructor
    · rintro ⟨hkey, hended⟩
      obtain ⟨hended, hevents⟩ := (hends key t (hkept hkey)).mp ⟨hkey, hended⟩
      exact ⟨⟨hkept hkey, hended⟩, hevents⟩
    · rintro ⟨⟨hkey, hended⟩, hevents⟩
      exact (hends key t hkey).mpr ⟨hended, hevents⟩

/-! ### The calls of the registry -/

theorem stop (h : r.Sound) (key : TaskKey) : (r.stop key).Sound := by
  have htask := r.registry.task?_stop r.executor key
  have hended := r.registry.hasEnded_stop r.executor key
  refine h.pass ((Registry.isClosed_stop ..).trans h.isOpen) (Registry.length_stop ..)
    (Registry.entries_stop_sublist ..) (fun k t hk body => ?_) (fun t body ht => ?_)
    (by simp) fun k t hk => ?_
  · rw [htask] at hk
    split at hk
    · contradiction
    · rename_i hne
      rw [Registry.live?_stop_other _ _ _ fun hkey => hne (h.single hkey hk)]
      exact h.unstopped k t hk body
  · have hother : r.registry.task? key ≠ some t := fun hkey =>
      Registry.not_live?_stopped _ _ _ hkey body ht
    rw [Registry.live?_stop_other _ _ _ hother] at ht
    refine ⟨⟨body, ht⟩, fun k hk => ?_⟩
    rw [htask, if_neg, hk]
    rintro rfl
    exact hother hk
  · rw [htask, hended, hk]
    by_cases hkey : k = key
    · simp [hkey, TaskEvent.Ends]
    · simp [hkey, Ne.symm hkey, TaskEvent.Ends]

theorem stopAll (h : r.Sound) : r.stopAll.Sound := by
  obtain ⟨-, hlength, hclosed⟩ := Registry.aborts_same r.executor r.registry.entries
  refine h.pass (hclosed.trans h.isOpen) hlength (List.nil_sublist _) (fun k t hk => nomatch hk)
    (fun t body ht => ?_) (by simp) fun k t hk => ?_
  · have hgoes := Registry.live?_of_aborted _ ht
    refine ⟨⟨body, hgoes⟩, fun k hk => ?_⟩
    exact absurd ht (Registry.not_live?_aborted _ (Registry.mem_of_task? hk) body)
  · refine iff_of_false (fun hnone => nomatch hnone.1) ?_
    simp [TaskEvent.Ends]

/-- A task that is new for its key goes on, and so does all that went on for other keys. -/
theorem goesOn_spawn (h : r.Sound) (hspawn : r.executor.spawn body = some (id, e'))
    {registry : Registry}
    (htask : ∀ k, registry.task? k = if k = key then some id else r.registry.task? k)
    (k : TaskKey) (t : TaskId) : registry.task? k = some t ∧ e'.hasEnded t = false ↔
      GoesOn (r.history ++ [.started key id]) k t := by
  have hended := Executor.hasEnded_spawn hspawn
  have hself : e'.live? id = some (body, false) := by
    rw [Executor.live?_spawn hspawn, if_pos rfl]
  have hlast : r.executor.hasEnded id = false := by
    rw [← hended, Executor.hasEnded_of_live? hself]
  rw [goesOn_concat, ← h.goesOn, htask, hended]
  by_cases hk : k = key
  · subst hk
    simp only [if_pos, TaskEvent.Ends, not_true_eq_false, and_false, or_false,
      TaskEvent.started.injEq, true_and, Option.some.injEq]
    exact ⟨fun hsame => hsame.1, fun hsame => ⟨hsame, hsame ▸ hlast⟩⟩
  · simp [hk, Ne.symm hk, TaskEvent.Ends]

/-- A key without a task gets a new one. -/
theorem spawn (h : r.Sound) (hkey : r.registry.task? key = none)
    (hspawn : r.executor.spawn body = some (id, e')) :
    Sound ⟨⟨r.registry.entries ++ [(key, id)]⟩, e', r.history ++ [.started key id]⟩ := by
  obtain ⟨-, -, hid, hclosed⟩ := Executor.spawn_ready_fresh hspawn
  have hlive := Executor.live?_spawn hspawn
  have hself : e'.live? id = some (body, false) := by rw [hlive, if_pos rfl]
  have htask (k : TaskKey) : Registry.task? ⟨r.registry.entries ++ [(key, id)]⟩ k =
      if k = key then some id else r.registry.task? k :=
    lookup_concat hkey id k
  -- Whatever was started before is older than the new task.
  have holder {k : TaskKey} {t : TaskId} (hmem : .started k t ∈ r.history) : t ≠ id :=
    hid ▸ Nat.ne_of_lt (h.counted k t hmem)
  have hmem {k : TaskKey} {t : TaskId} (hmem : .started k t ∈ r.history ++ [.started key id]) :
      .started k t ∈ r.history ∨ k = key ∧ t = id := by
    simpa using hmem
  refine ⟨hclosed.trans h.isOpen, Registry.nodup_concat h.keys hkey, fun k t hk => ?_,
    fun k t hk => ?_, fun k k' t hk hk' => ?_, fun k t hk new => ?_, fun k t new hk ht => ?_,
    fun k t => ?_⟩
  · rw [htask] at hk
    split at hk
    · rename_i hkk
      cases hk
      rw [hkk]
      exact List.mem_append_right _ (List.mem_singleton_self _)
    · exact List.mem_append_left _ (h.listed k t hk)
  · have hlength := (Executor.leads_spawn hspawn).length
    rcases hmem hk with hk | ⟨rfl, rfl⟩
    · exact Nat.lt_of_lt_of_le (h.counted k t hk) hlength
    · exact Executor.lt_of_live? hself
  · rcases hmem hk with hold | ⟨rfl, rfl⟩
    · rcases hmem hk' with hold' | ⟨rfl, rfl⟩
      · exact h.unique k k' t hold hold'
      · exact absurd rfl (holder hold)
    · rcases hmem hk' with hold' | ⟨rfl, -⟩
      · exact absurd rfl (holder hold')
      · rfl
  · show e'.live? t ≠ _
    rw [htask] at hk
    split at hk
    · cases hk
      rw [hself]
      simp
    · rw [hlive, if_neg (holder (h.listed k t hk))]
      exact h.unstopped k t hk new
  · show Registry.task? _ k = some t
    rw [htask]
    rcases hmem hk with hk | ⟨rfl, rfl⟩
    · replace ht : e'.live? t = some (new, false) := ht
      rw [hlive, if_neg (holder hk)] at ht
      have hentry := h.own k t new hk ht
      rw [if_neg, hentry]
      rintro rfl
      rw [hkey] at hentry
      contradiction
    · exact if_pos rfl
  · exact h.goesOn_spawn hspawn htask k t

theorem start (h : r.Sound) (key : TaskKey) (body : β) : (r.start key body).Sound := by
  have hstopped := h.stop key
  obtain ⟨e', hspawn⟩ := Executor.exists_spawn hstopped.isOpen body
  have hlength : (r.stop key).executor.tasks.length = r.executor.tasks.length :=
    Registry.length_stop ..
  have hkey : (r.stop key).registry.task? key = none :=
    (r.registry.task?_stop r.executor key key).trans (if_pos rfl)
  have hstart : r.start key body = ⟨⟨(r.stop key).registry.entries ++ [(key,
      (r.stop key).executor.tasks.length)]⟩, e', (r.stop key).history ++
        [.started key (r.stop key).executor.tasks.length]⟩ := by
    unfold Roster.start
    rw [r.registry.start_eq r.executor key body hspawn, hlength]
    rfl
  rw [hstart]
  exact hstopped.spawn hkey hspawn

/-! ### The turns of the tasks -/

/-- Tasks have changed, and none has come to its end. -/
theorem change (h : r.Sound) (hclosed : e'.isClosed = r.executor.isClosed)
    (hlength : e'.tasks.length = r.executor.tasks.length)
    (hunstopped : ∀ t body, e'.live? t = some (body, true) →
      ∃ body', r.executor.live? t = some (body', true))
    (hgoes : ∀ t body, e'.live? t = some (body, false) →
      ∃ body', r.executor.live? t = some (body', false))
    (hended : ∀ t, e'.hasEnded t = r.executor.hasEnded t) (events : List TaskEvent)
    (hevents : ∀ event ∈ events, ∃ t, event = .stepped t) :
    Sound { r with executor := e', history := r.history ++ events } := by
  refine h.pass (hclosed.trans h.isOpen) hlength (List.Sublist.refl _)
    (fun key t hkey body ht => ?_) (fun t body ht => ⟨hgoes t body ht, fun _ hkey => hkey⟩)
    (fun key t hmem => ?_) fun key t hkey => ?_
  · obtain ⟨body', ht'⟩ := hunstopped t body ht
    exact h.unstopped key t hkey body' ht'
  · obtain ⟨t', heq⟩ := hevents _ hmem
    contradiction
  · rw [hended, and_iff_right hkey]
    refine (and_iff_left fun event hmem => ?_).symm
    obtain ⟨t', rfl⟩ := hevents event hmem
    exact not_false

/-- Only the turns have changed. -/
theorem retask (h : r.Sound) (htasks : e'.tasks = r.executor.tasks)
    (hclosed : e'.isClosed = r.executor.isClosed) : Sound { r with executor := e' } := by
  have hlive := Executor.live?_congr htasks
  have hsound := h.change hclosed (congrArg List.length htasks)
    (fun t body ht => ⟨body, hlive t ▸ ht⟩) (fun t body ht => ⟨body, hlive t ▸ ht⟩)
    (Executor.hasEnded_congr htasks) [] (List.forall_mem_nil _)
  rwa [List.append_nil] at hsound

/-- A task has got another body. -/
theorem setBody (h : r.Sound) (id : TaskId) (body : β) (events : List TaskEvent)
    (hevents : ∀ event ∈ events, ∃ t, event = .stepped t) :
    Sound { r with
      executor := r.executor.setBody id body, history := r.history ++ events } := by
  have hlength := r.executor.length_setBody id body
  refine h.change ?_ hlength (fun t new ht => ?_)
    (fun t new ht => (r.executor.leads_setBody id body).goes hlength ht)
    (r.executor.hasEnded_setBody id body) events hevents
  · unfold Executor.setBody
    split <;> rfl
  · cases hid : r.executor.live? id with
    | none =>
      rw [Executor.setBody_of_not_live hid] at ht
      exact ⟨new, ht⟩
    | some task =>
      obtain ⟨old, isAborted⟩ := task
      rw [Executor.live?_setBody hid] at ht
      split at ht
      · rename_i hti
        cases ht
        exact ⟨old, hti ▸ hid⟩
      · exact ⟨new, ht⟩

/-- A task has come to its end, by itself or because it was disposed of. -/
theorem finish (h : r.Sound) {ab : Bool} (hid : r.executor.live? id = some (body, ab)) :
    Sound { r with
      executor := r.executor.finish id
      history := r.history ++ [if ab then .disposed id else .ended id] } := by
  have hlength : (r.executor.finish id).tasks.length = r.executor.tasks.length :=
    List.length_set ..
  refine h.pass h.isOpen hlength (List.Sublist.refl _) (fun key t hkey new ht => ?_)
    (fun t new ht => ⟨(r.executor.leads_finish id).goes hlength ht, fun _ hkey => hkey⟩)
    (by cases ab <;> simp) fun key t hkey => ?_
  · rw [Executor.live?_finish] at ht
    split at ht
    · contradiction
    · exact h.unstopped key t hkey new ht
  · rw [Executor.hasEnded_finish (Executor.lt_of_live? hid), and_iff_right hkey,
      List.forall_mem_singleton]
    by_cases ht : t = id
    · -- A task that is disposed of has no entry.
      have hgoes : ab = false := by
        rw [← Bool.not_eq_true]
        rintro rfl
        exact h.unstopped key t hkey body (ht ▸ hid)
      simp [ht, hgoes, TaskEvent.Ends]
    · cases ab <;> simp [ht, Ne.symm ht, TaskEvent.Ends]

theorem takeTurn (h : r.Sound) (id : TaskId) (next : Option β) : (r.takeTurn id next).Sound := by
  unfold Roster.takeTurn
  cases hid : r.executor.live? id with
  | none => exact h
  | some task =>
    obtain ⟨body, isAborted⟩ := task
    cases isAborted with
    | true => exact h.finish hid
    | false =>
      cases next with
      | none => exact h.finish hid
      | some new => exact h.setBody id new [.stepped id] (by simp)

/-! ### Whole runs -/

theorem step (h : r.Sound) (act : RosterAct β) : (act.step r).Sound := by
  cases act with
  | start key body => exact h.start key body
  | stop key => exact h.stop key
  | stopAll => exact h.stopAll
  | enroll => exact h.retask rfl rfl
  | turn next woken =>
    unfold RosterAct.step
    cases hnext : r.executor.next? with
    | none => exact h
    | some popped =>
      obtain ⟨id, executor⟩ := popped
      obtain ⟨rest, -, rfl⟩ := Executor.next?_eq_some_iff.mp hnext
      obtain ⟨htasks, hclosed⟩ := Executor.wakes_same { r.executor with ready := rest } woken
      exact (h.retask htasks hclosed).takeTurn id next
  | resume id body =>
    have hset := h.setBody id body [] (List.forall_mem_nil _)
    rw [List.append_nil] at hset
    exact hset.retask (Executor.tasks_wake _ id) (Executor.isClosed_wake _ id)

theorem after (h : r.Sound) (acts : List (RosterAct β)) : (r.after acts).Sound := by
  induction acts generalizing r with
  | nil => exact h
  | cons act rest ih => exact ih (h.step act)

end Sound

end Roster

end WalletPage
