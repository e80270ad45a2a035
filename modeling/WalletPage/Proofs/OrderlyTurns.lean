import WalletPage.Proofs.Locking

/-! Turns keep the invariant. A turn that polls moves one task and the lock of one binder;
a turn that disposes of a task lets go of what it held; the heartbeat touches neither. -/

namespace WalletPage

variable {ρ σ : Type} [Host ρ σ]

/-- The part of a run that the invariant is about, with the task whose turn it is. -/
structure Run.InOrder (r : Run ρ σ) (s : Service ρ) (turn : Option TaskId) : Prop where
  services : r.services = [s]
  orderly : Orderly s r.binders r.executor turn

namespace Run

variable {r r' : Run ρ σ} {s : Service ρ} {id : TaskId} {binder : BinderId} {policy : Policy}
  {x : Shared ρ} {phase : Phase (Fallible (Option Snapshot))}

omit [Host ρ σ] in
theorem not_holds_of_seeks (h : phase.Seeks) : ¬ phase.Holds := by
  cases phase <;> simp_all [Phase.Seeks, Phase.Holds]

omit [Host ρ σ] in
theorem holder_of_isFree {l : Lock} (h : l.isFree = true) : l.holder = none :=
  Option.isNone_iff_eq_none.mp h

theorem CycleEnds.kin {b : Binder ρ} {outcome : Outcome} {w : σ}
    (h : CycleEnds r x phase b outcome w) : x.binder.Kin b := by
  cases h with
  | absent _ _ hbegin =>
    have hkin := (x.binder.begin_yields (r.selected x.selection) r.world).1.kin
    rwa [hbegin] at hkin
  | @ready _ b _ answer _ w _ _ _ hbegin hfinish =>
    have hopened := (x.binder.begin_yields (r.selected x.selection) r.world).1.kin
    rw [hbegin] at hopened
    have hfinished := (b.finish_yields answer w).1
    rw [hfinish] at hfinished
    exact hopened.trans hfinished
  | @answered answer _ _ _ hfinish =>
    have hfinished := (x.binder.finish_yields answer r.world).1
    rwa [hfinish] at hfinished

/-- A task that comes to the end of a cycle held the lock, or took it when it was free. -/
theorem CycleEnds.holds {b : Binder ρ} {outcome : Outcome} {w : σ}
    (h : CycleEnds r x phase b outcome w) : phase.Holds ∨ x.lock.holder = none := by
  cases h with
  | absent _ hfree _ => exact .inr (holder_of_isFree hfree)
  | ready _ hfree _ _ => exact .inr (holder_of_isFree hfree)
  | answered _ => exact .inl trivial

theorem pollTurn_inOrder (h : r.InOrder s (some id)) (hx : r.binders[binder]? = some x)
    (hid : r.executor.live? id = some (.poll binder policy phase, false))
    (hturn : PollTurn r id binder policy x phase r') : r'.InOrder s none := by
  have horderly := h.orderly
  have hset (body : Body ρ) (next : Option TaskId) (t : TaskId) :
      ((r.executor.rouse next).setBody id body).live? t =
        if t = id then some (body, false) else r.executor.live? t := by
    rw [Executor.live?_setBody (by rw [Executor.live?_rouse]; exact hid), Executor.live?_rouse]
  have hself (body : Body ρ) (next : Option TaskId) :
      ((r.executor.rouse next).setBody id body).live? id = some (body, false) := by
    rw [hset, if_pos rfl]
  have hother (body : Body ρ) (next : Option TaskId) (t : TaskId) (ht : t ≠ id) :
      ((r.executor.rouse next).setBody id body).live? t = r.executor.live? t := by
    rw [hset, if_neg ht]
  have hawaits (body : Body ρ) (next : Option TaskId) (t : TaskId) (ht : r.executor.Awaits t) :
      ((r.executor.rouse next).setBody id body).Awaits t :=
    (ht.rouse next).setBody id body
  cases hturn with
  | idle _ => exact ⟨h.services, horderly.settle (by simp [hid])⟩
  | joins hbusy =>
    refine ⟨h.services, horderly.keep hx hid not_false rfl rfl (Lock.holder_join _ _)
      (hother _ none) (.inr ⟨rfl, .queued (x.lock.join id).1, not_false, hself _ none⟩)
      (hawaits _ none)⟩
  | @waits place hbusy =>
    exact ⟨h.services, horderly.keep hx hid not_false rfl rfl rfl (fun _ _ => rfl)
      (.inr ⟨rfl, .queued place, not_false, hid⟩) fun _ ht => ht⟩
  | @asks phase key answer b w hseeks hfree hbegin =>
    have hkin := (x.binder.begin_yields (r.selected x.selection) r.world).1.kin
    rw [hbegin] at hkin
    exact ⟨h.services, horderly.take hx hid (holder_of_isFree hfree) hkin rfl rfl (hother _ none)
      (hself _ none) trivial (hawaits _ none)⟩
  | @ends phase b outcome w hends =>
    have hlock := Lock.holder_release (phase.vacated x.lock)
    unfold ended
    dsimp only
    split
    · exact ⟨h.services, horderly.letGo hx hid hends.holds hends.kin rfl hlock (hother _ _)
        (.inr ⟨rfl, .sleeping, not_false, hself _ _⟩) (hawaits _ _)⟩
    · have hgone (t : TaskId) :
          ((r.executor.rouse (phase.vacated x.lock).release.1).finish id).live? t =
            if t = id then none else r.executor.live? t := by
        rw [Executor.live?_finish, Executor.live?_rouse]
      refine ⟨h.services, horderly.letGo hx hid hends.holds hends.kin rfl hlock
        (fun t ht => ?_) (.inl ?_) fun t ht => ht.rouse _⟩
      · rw [hgone, if_neg ht]
      · rw [hgone, if_pos rfl]

theorem heartbeatTurn_inOrder {access : ρ} {interval : Millis} {phase : Phase (Fallible Unit)}
    (h : r.InOrder s (some id))
    (hid : r.executor.live? id = some (.heartbeat access interval phase, false)) :
    (r.heartbeatTurn id access interval phase).InOrder s none := by
  have horderly : Orderly s r.binders r.executor none := h.orderly.settle (by simp [hid])
  rcases heartbeatTurn_cases r id access interval phase with hsame | ⟨_, _, _, phase', hbeats⟩
  · rw [hsame]
    exact ⟨h.services, horderly⟩
  · rw [hbeats]
    have halike : (Body.heartbeat access interval phase : Body ρ).Alike
      (.heartbeat access interval phase') := trivial
    exact ⟨h.services, horderly.replace hid halike (Executor.live?_setBody hid)
      fun t ht => ht.setBody id _⟩

omit [Host ρ σ] in
/-- Disposing of a task that waits for its binder, or for its answer, lets go of either. -/
theorem dispose_inOrder {body : Body ρ} (h : r.InOrder s (some id))
    (hid : r.executor.live? id = some (body, true)) :
    ((r.dispose body).finishTask id).InOrder s none := by
  have horderly := h.orderly
  have hgone (next : Option TaskId) (t : TaskId) : ((r.executor.rouse next).finish id).live? t =
      if t = id then none else r.executor.live? t := by
    rw [Executor.live?_finish, Executor.live?_rouse]
  have hself (next : Option TaskId) : ((r.executor.rouse next).finish id).live? id = none := by
    rw [hgone, if_pos rfl]
  have hother (next : Option TaskId) (t : TaskId) (ht : t ≠ id) :
      ((r.executor.rouse next).finish id).live? t = r.executor.live? t := by
    rw [hgone, if_neg ht]
  have hdrop (hbody : ∀ b, ¬ body.HoldsAt b) : (r.finishTask id).InOrder s none := by
    refine ⟨h.services, horderly.drop ?_ (hgone none) fun _ ht => ht⟩
    rintro b ⟨other, ab, ht, hholds⟩
    rw [hid] at ht
    cases ht
    exact hbody b hholds
  cases body with
  | poll b policy phase =>
    have hlt : b < r.binders.length := horderly.within id _ _ hid
    have hx : r.binders[b]? = some r.binders[b] := List.getElem?_eq_getElem hlt
    have hrelease (hphase : phase.Holds) : ((r.release b).finishTask id).InOrder s none := by
      rw [release_eq hx]
      exact ⟨h.services, horderly.letGo hx hid (.inl hphase) (.refl _) rfl (Lock.holder_release _)
        (hother _) (.inl (hself _)) fun _ ht => ht.rouse _⟩
    cases phase with
    | start => exact hdrop fun _ hholds => hholds.2
    | queued place =>
      show ((r.leave b place).finishTask id).InOrder s none
      rw [leave_eq hx]
      exact ⟨h.services, horderly.keep hx hid not_false rfl rfl (Lock.holder_leave _ _)
        (hother _) (.inl (hself _)) fun _ ht => ht.rouse _⟩
    | waiting answer => exact hrelease trivial
    | answered answer => exact hrelease trivial
    | sleeping => exact hdrop fun _ hholds => hholds.2
  | heartbeat => exact hdrop fun _ hholds => hholds
  | shutdown => exact (horderly.within id _ _ hid).elim

/-- What the turn of a task comes to in an orderly run. -/
inductive Turned (r : Run ρ σ) (id : TaskId) : Run ρ σ → Prop
  | gone (hid : r.executor.live? id = none) : Turned r id r
  | disposes {body : Body ρ} (hid : r.executor.live? id = some (body, true)) :
    Turned r id ((r.dispose body).finishTask id)
  | polls {r' : Run ρ σ} {b : BinderId} {policy : Policy} {x : Shared ρ}
    {phase : Phase (Fallible (Option Snapshot))} (hx : r.binders[b]? = some x)
    (hid : r.executor.live? id = some (.poll b policy phase, false))
    (hturn : PollTurn r id b policy x phase r') : Turned r id r'
  | beats {access : ρ} {interval : Millis} {phase : Phase (Fallible Unit)}
    (hid : r.executor.live? id = some (.heartbeat access interval phase, false)) :
    Turned r id (r.heartbeatTurn id access interval phase)

theorem turn_cases (h : r.InOrder s (some id)) : Turned r id (r.turn id) := by
  unfold turn
  cases hid : r.executor.live? id with
  | none => exact .gone hid
  | some task =>
    obtain ⟨body, isAborted⟩ := task
    cases isAborted with
    | true => exact .disposes hid
    | false =>
      cases body with
      | poll b policy phase =>
        have hlt : b < r.binders.length := h.orderly.within id _ _ hid
        have hx : r.binders[b]? = some r.binders[b] := List.getElem?_eq_getElem hlt
        exact .polls hx hid (pollTurn_cases hx phase)
      | heartbeat access interval phase => exact .beats hid
      | shutdown => exact (h.orderly.within id _ _ hid).elim

theorem Turned.inOrder (hturned : Turned r id r') (h : r.InOrder s (some id)) :
    r'.InOrder s none := by
  cases hturned with
  | gone hid => exact ⟨h.services, h.orderly.settle (by simp [hid])⟩
  | disposes hid => exact dispose_inOrder h hid
  | polls hx hid hturn => exact pollTurn_inOrder h hx hid hturn
  | beats hid => exact heartbeatTurn_inOrder h hid

omit [Host ρ σ] in
theorem popped_inOrder {executor : Executor (Body ρ)} (h : r.InOrder s none)
    (hpop : r.executor.next? = some (id, executor)) :
    Run.InOrder { r with executor } s (some id) := by
  obtain ⟨rest, hready, rfl⟩ := Executor.next?_eq_some_iff.mp hpop
  refine ⟨h.services, { h.orderly with doomed := fun t body ht hturn => ?_ }⟩
  rcases h.orderly.doomed t body ht nofun with hawaits | hawaits
  · rw [hready] at hawaits
    rcases List.mem_cons.mp hawaits with rfl | hrest
    · exact absurd rfl hturn
    · exact .inl hrest
  · exact .inr hawaits

/-- A run takes the turn of the first task that is to have one. -/
theorem next?_cases (h : r.InOrder s none) (hnext : r.next? = some r') :
    ∃ id executor, r.executor.next? = some (id, executor) ∧
      Run.InOrder { r with executor } s (some id) ∧ Turned { r with executor } id r' := by
  unfold next? at hnext
  rw [Option.map_eq_some_iff] at hnext
  obtain ⟨⟨id, executor⟩, hpop, rfl⟩ := hnext
  have hpopped := popped_inOrder h hpop
  exact ⟨id, executor, hpop, hpopped, turn_cases hpopped⟩

theorem next?_inOrder (h : r.InOrder s none) (hnext : r.next? = some r') : r'.InOrder s none := by
  obtain ⟨id, executor, -, hpopped, hturned⟩ := next?_cases h hnext
  exact hturned.inOrder hpopped

end Run

end WalletPage
