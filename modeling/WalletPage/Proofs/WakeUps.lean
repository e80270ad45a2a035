import WalletPage.Proofs.Stalling
import WalletPage.Proofs.Waiters

/-! No wake-up is lost. Whatever happens to a service, its locks know who waits for them, a
task that was woken has a turn coming, and so has one that begins. When no turn is left, no
task that goes on still looks for its binder. -/

namespace WalletPage

variable {ρ σ : Type}

/-! ### Turns of tasks -/

namespace Executor

variable {e e' : Executor (Body ρ)} {id : TaskId} {next : Option TaskId} {body body' : Body ρ}
  {isAborted : Bool}

/-- What the turn of a task does to an executor: other tasks stay what they are, no turn is
lost, and the task that is called next has one coming. -/
structure Changes (e : Executor (Body ρ)) (id : TaskId) (next : Option TaskId)
    (e' : Executor (Body ρ)) : Prop where
  isClosed : e'.isClosed = e.isClosed
  other : ∀ t, t ≠ id → e'.live? t = e.live? t
  awaits : ∀ t, e.Awaits t → e'.Awaits t
  called : ∀ t, next = some t → e'.isLive t = true → e'.Awaits t

theorem Changes.refl (e : Executor (Body ρ)) (id : TaskId) : e.Changes id none e :=
  ⟨rfl, fun _ _ => rfl, fun _ ht => ht, nofun⟩

theorem isClosed_rouse (e : Executor (Body ρ)) (next : Option TaskId) :
    (e.rouse next).isClosed = e.isClosed := by
  cases next with
  | none => rfl
  | some t => exact isClosed_wake e t

theorem isClosed_setBody (e : Executor (Body ρ)) (id : TaskId) (body : Body ρ) :
    (e.setBody id body).isClosed = e.isClosed := by
  unfold setBody
  split <;> rfl

theorem changes_setBody (hid : e.live? id = some (body, isAborted)) (next : Option TaskId)
    (body' : Body ρ) : e.Changes id next ((e.rouse next).setBody id body') := by
  have hlive (t : TaskId) : ((e.rouse next).setBody id body').live? t =
      if t = id then some (body', isAborted) else e.live? t := by
    rw [live?_setBody (by rw [live?_rouse]; exact hid), live?_rouse]
  refine ⟨?_, fun t ht => ?_, fun t ht => (ht.rouse next).setBody id body', ?_⟩
  · rw [isClosed_setBody, isClosed_rouse]
  · rw [hlive, if_neg ht]
  · rintro t rfl ht
    refine (awaits_wake_self ?_).setBody id body'
    unfold isLive at ht ⊢
    rw [hlive] at ht
    split at ht
    · rename_i hti
      rw [hti, hid]
      rfl
    · exact ht

theorem changes_finish (e : Executor (Body ρ)) (id : TaskId) (next : Option TaskId) :
    e.Changes id next ((e.rouse next).finish id) := by
  have hlive (t : TaskId) : ((e.rouse next).finish id).live? t =
      if t = id then none else e.live? t := by
    rw [live?_finish, live?_rouse]
  refine ⟨isClosed_rouse e next, fun t ht => ?_, fun t ht => ht.rouse next, ?_⟩
  · rw [hlive, if_neg ht]
  · rintro t rfl ht
    have hawaits : (e.wake t).Awaits t := by
      refine awaits_wake_self ?_
      unfold isLive at ht ⊢
      rw [hlive] at ht
      split at ht
      · contradiction
      · exact ht
    exact hawaits

end Executor

/-- Whether a body looks for its binder at its turn. -/
def Body.Seeks : Body ρ → Prop
  | .poll _ _ phase => phase.Seeks
  | _ => False

namespace Executor

variable {e e' : Executor (Body ρ)} {t id : TaskId} {next : Option TaskId} {b : BinderId}
  {place : Nat}

theorem not_queuesAt_of_not_seeks
    (h : ∀ body isAborted, e.live? t = some (body, isAborted) → ¬ body.Seeks) (b : BinderId)
    (place : Nat) : ¬ e.QueuesAt t b place := by
  rintro ⟨policy, isAborted, ht⟩
  exact h _ isAborted ht trivial

/-- Those who wait after a task that began has got a place. -/
theorem queuesAt_joined {policy : Policy} {isAborted : Bool} {p : Nat}
    (hid : e.live? id = some (.poll b policy .start, isAborted)) :
    (e.setBody id (.poll b policy (.queued place))).QueuesAt t b p ↔
      t = id ∧ p = place ∨ e.QueuesAt t b p := by
  have hnow : (e.setBody id (.poll b policy (.queued place))).live? t = _ := live?_setBody hid t
  by_cases ht : t = id
  · subst ht
    rw [if_pos rfl] at hnow
    rw [queuesAt_iff hnow, queuesAt_iff hid]
    simp [eq_comm]
  · rw [if_neg ht] at hnow
    rw [queuesAt_congr hnow, or_iff_right fun hself => ht hself.1]

/-- Those who wait after the turn of a task that does not wait any more. -/
theorem Changes.queuesAt_iff (h : e.Changes id next e') (hid : ¬ e'.QueuesAt id b place) :
    e'.QueuesAt t b place ↔ t ≠ id ∧ e.QueuesAt t b place := by
  by_cases ht : t = id
  · exact iff_of_false (ht ▸ hid) fun hother => hother.1 ht
  · rw [queuesAt_congr (h.other t ht), and_iff_right ht]

end Executor

namespace Lock.Attends

variable {l : Lock} {e e' : Executor (Body ρ)} {b : BinderId} {id : TaskId} {next : Option TaskId}

/-- The turn of a task that does not wait for this lock. -/
theorem skip (h : l.Attends e b (some id)) (hchanges : e.Changes id next e')
    (hid : ∀ place, ¬ e.QueuesAt id b place) (hid' : ∀ place, ¬ e'.QueuesAt id b place) :
    l.Attends e' b none := by
  refine (h.settle hid).congr (fun t place => ?_) hchanges.awaits
  by_cases ht : t = id
  · exact ht ▸ iff_of_false (hid' place) (hid place)
  · exact Executor.queuesAt_congr (hchanges.other t ht) b place

/-- The turn of a task that does not wait afterwards: its place is given up, if it had one. -/
theorem vacated (h : l.Attends e b (some id)) {policy : Policy} {phase : Phase _}
    {isAborted : Bool} (hid : e.live? id = some (.poll b policy phase, isAborted))
    (hchanges : e.Changes id next e') (hid' : ∀ place, ¬ e'.QueuesAt id b place) :
    (phase.vacated l).Attends e' b none := by
  have hskip (hno : ∀ place, phase ≠ .queued place) : l.Attends e' b none := by
    refine h.skip hchanges (fun place hqueues => ?_) hid'
    obtain ⟨_, heq⟩ := (Executor.queuesAt_iff hid).mp hqueues
    cases heq
    exact hno place rfl
  cases phase with
  | queued place =>
    exact h.vacate ⟨policy, isAborted, hid⟩ (fun _ p => hchanges.queuesAt_iff (hid' p))
      hchanges.awaits
  | start => exact hskip nofun
  | waiting => exact hskip nofun
  | answered => exact hskip nofun
  | sleeping => exact hskip nofun

theorem empty (hnone : ∀ t place, ¬ e.QueuesAt t b place) (turn : Option TaskId) :
    ({} : Lock).Attends e b turn where
  allots := .refl _
  waits t place := iff_of_false (fun ⟨_, hw, _⟩ => List.not_mem_nil hw) (hnone t place)
  woken _ hw := absurd hw List.not_mem_nil

end Lock.Attends

/-! ### The invariant -/

/-- The invariant, with the task whose turn it is. -/
structure Attentive (binders : List (Shared ρ)) (e : Executor (Body ρ))
    (turn : Option TaskId) : Prop where
  isOpen : e.isClosed = false
  attends : ∀ (b : BinderId) (x : Shared ρ), binders[b]? = some x → x.lock.Attends e b turn
  calls : ∀ (b : BinderId) (x : Shared ρ), binders[b]? = some x → x.lock.Calls
  starts : ∀ t b policy, e.live? t = some (.poll b policy .start, false) → turn ≠ some t →
    e.Awaits t

namespace Attentive

variable {binders : List (Shared ρ)} {e e' : Executor (Body ρ)} {turn : Option TaskId}
  {id : TaskId} {next : Option TaskId}

/-- Who waits is the same, and one that begins is called. -/
theorem congr (h : Attentive binders e turn) (hopen : e'.isClosed = e.isClosed)
    (hqueues : ∀ t b place, e'.QueuesAt t b place ↔ e.QueuesAt t b place)
    (hawaits : ∀ t, e.Awaits t → e'.Awaits t)
    (hstarts : ∀ t b policy, e'.live? t = some (.poll b policy .start, false) →
      e'.Awaits t ∨ e.live? t = some (.poll b policy .start, false)) :
    Attentive binders e' turn where
  isOpen := hopen.trans h.isOpen
  attends b x hx := (h.attends b x hx).congr (fun t => hqueues t b) hawaits
  calls := h.calls
  starts t b policy ht hturn := (hstarts t b policy ht).elim (fun hawaits' => hawaits')
    fun hbefore => hawaits t (h.starts t b policy hbefore hturn)

theorem starts_changed (h : Attentive binders e (some id)) (hchanges : e.Changes id next e')
    (hself : ∀ b policy, e'.live? id ≠ some (.poll b policy .start, false)) (t : TaskId)
    (b : BinderId) (policy : Policy) (ht : e'.live? t = some (.poll b policy .start, false)) :
    e'.Awaits t := by
  have hti : t ≠ id := by
    rintro rfl
    exact hself b policy ht
  rw [hchanges.other t hti] at ht
  exact hchanges.awaits t (h.starts t b policy ht fun hturn => hti (Option.some.inj hturn).symm)

/-- The turn of a task that leaves the binders alone. -/
theorem pass (h : Attentive binders e (some id)) (hchanges : e.Changes id next e')
    (hid : ∀ b place, ¬ e.QueuesAt id b place)
    (hself : ∀ body isAborted, e'.live? id = some (body, isAborted) → ¬ body.Seeks) :
    Attentive binders e' none where
  isOpen := hchanges.isClosed.trans h.isOpen
  attends b x hx := (h.attends b x hx).skip hchanges (hid b)
    (Executor.not_queuesAt_of_not_seeks hself b)
  calls := h.calls
  starts t b policy ht _ := h.starts_changed hchanges (fun _ _ hlive => hself _ _ hlive trivial)
    t b policy ht

/-- The turn of a task that changes its binder. -/
theorem move {b : BinderId} {x x' : Shared ρ} {policy : Policy} {phase : Phase _}
    {isAborted : Bool} (h : Attentive binders e (some id)) (hx : binders[b]? = some x)
    (hid : e.live? id = some (.poll b policy phase, isAborted))
    (hchanges : e.Changes id next e')
    (hself : ∀ body isAborted, e'.live? id = some (body, isAborted) → ¬ body.Seeks ∨
      ∃ place, body = .poll b policy (.queued place))
    (hattends : x'.lock.Attends e' b none) (hcalls : x'.lock.Calls) :
    Attentive (binders.set b x') e' none := by
  obtain ⟨hlt, -⟩ := List.getElem?_eq_some_iff.mp hx
  have hat {c : BinderId} {y : Shared ρ} (hy : (binders.set b x')[c]? = some y) :
      b = c ∧ y = x' ∨ b ≠ c ∧ binders[c]? = some y := by
    rw [List.getElem?_set, if_pos hlt] at hy
    split at hy
    · exact .inl ⟨‹_›, (Option.some.inj hy).symm⟩
    · exact .inr ⟨‹_›, hy⟩
  refine ⟨hchanges.isClosed.trans h.isOpen, fun c y hy => ?_, fun c y hy => ?_,
    fun t c policy' ht _ => h.starts_changed hchanges (fun d policy'' hlive => ?_) t c policy' ht⟩
  · rcases hat hy with ⟨rfl, rfl⟩ | ⟨hne, hy⟩
    · exact hattends
    · refine (h.attends c y hy).skip hchanges (fun place hqueues => ?_) fun place hqueues => ?_
      · obtain ⟨_, heq⟩ := (Executor.queuesAt_iff hid).mp hqueues
        cases heq
        exact hne rfl
      · obtain ⟨policy', isAborted', ht⟩ := hqueues
        rcases hself _ _ ht with hno | ⟨_, heq⟩
        · exact hno trivial
        · cases heq
          exact hne rfl
  · rcases hat hy with ⟨-, rfl⟩ | ⟨-, hy⟩
    · exact hcalls
    · exact h.calls c y hy
  · rcases hself _ _ hlive with hno | ⟨_, heq⟩
    · exact hno trivial
    · cases heq

/-- A task whose turn comes is no longer to be called. -/
theorem popped (h : Attentive binders e none) (hpop : e.next? = some (id, e')) :
    Attentive binders e' (some id) := by
  obtain ⟨rest, hready, rfl⟩ := Executor.next?_eq_some_iff.mp hpop
  have hawaits {t : TaskId} (ht : e.Awaits t) (hturn : some id ≠ some t) :
      ({ e with ready := rest } : Executor (Body ρ)).Awaits t := by
    rcases ht with ht | ht
    · rw [hready] at ht
      exact .inl ((List.mem_cons.mp ht).resolve_left fun hti => hturn (hti ▸ rfl))
    · exact .inr ht
  refine ⟨h.isOpen, fun b x hx => ?_, h.calls, fun t b policy ht hturn => ?_⟩
  · have hattends := h.attends b x hx
    exact ⟨hattends.allots, hattends.waits, fun w hw hwoken hturn =>
      hawaits (hattends.woken w hw hwoken nofun) hturn⟩
  · exact hawaits (h.starts t b policy ht nofun) hturn

end Attentive

/-! ### Turns -/

namespace Run

variable {r r' : Run ρ σ} {s : Service ρ} {id : TaskId} {b : BinderId} {policy : Policy}
  {x : Shared ρ} {phase : Phase (Fallible (Option Snapshot))} {outside : σ → σ → Prop}

theorem calls_of_busy {l : Lock} (hbusy : l.holder.isNone = false) : l.Calls := by
  intro hfree
  rw [hfree] at hbusy
  contradiction

/-- Letting go of a binder, by a task that held it or never got to hold it. -/
theorem released_attentive (h : Attentive r.binders r.executor (some id))
    (hx : r.binders[b]? = some x) {isAborted : Bool}
    (hid : r.executor.live? id = some (.poll b policy phase, isAborted)) {x' : Shared ρ}
    (hlock : x'.lock = (phase.vacated x.lock).release.2) {e' : Executor (Body ρ)}
    (hchanges : r.executor.Changes id (phase.vacated x.lock).release.1 e')
    (hself : ∀ body isAborted, e'.live? id = some (body, isAborted) → ¬ body.Seeks) :
    Attentive (r.binders.set b x') e' none := by
  refine h.move hx hid hchanges (fun body isAborted ht => .inl (hself body isAborted ht)) ?_ ?_
  · have hvacated := (h.attends b x hx).vacated hid hchanges
      (Executor.not_queuesAt_of_not_seeks hself b)
    rw [hlock]
    exact hvacated.release hchanges.called
  · rw [hlock]
    exact Lock.calls_wakeFirst _

variable [Host ρ σ]

theorem pollTurn_attentive (h : Attentive r.binders r.executor (some id))
    (hx : r.binders[b]? = some x)
    (hid : r.executor.live? id = some (.poll b policy phase, false))
    (hturn : PollTurn r id b policy x phase r') : Attentive r'.binders r'.executor none := by
  have hset (body : Body ρ) (next : Option TaskId) {new : Body ρ} {isAborted : Bool}
      (ht : ((r.executor.rouse next).setBody id body).live? id = some (new, isAborted)) :
      new = body := by
    rw [Executor.live?_setBody (by rw [Executor.live?_rouse]; exact hid), if_pos rfl] at ht
    cases ht
    rfl
  cases hturn with
  | idle hwaits =>
    have hcalm : ¬ phase.Seeks := by
      cases phase <;> first | exact hwaits.elim | exact not_false
    refine h.pass (.refl _ id) (fun c place hqueues => ?_) fun body isAborted ht => ?_
    · obtain ⟨_, heq⟩ := (Executor.queuesAt_iff hid).mp hqueues
      cases heq
      exact hcalm trivial
    · rw [hid] at ht
      cases ht
      exact hcalm
  | joins hbusy =>
    have hchanges := Executor.changes_setBody hid none
      (.poll b policy (.queued (x.lock.join id).1))
    have hstarts (place : Nat) : ¬ r.executor.QueuesAt id b place := by
      rw [Executor.queuesAt_iff hid]
      exact nofun
    refine h.move hx hid hchanges (fun body _ ht => .inr ⟨_, hset _ none ht⟩) ?_ ?_
    · exact ((h.attends b x hx).settle hstarts).join (fun _ _ => Executor.queuesAt_joined hid)
        hchanges.awaits
    · refine calls_of_busy ?_
      rw [Lock.holder_join]
      exact hbusy
  | @waits place hbusy =>
    refine h.move hx hid (.refl _ id) (fun body _ ht => .inr ⟨place, ?_⟩) ?_ (calls_of_busy hbusy)
    · rw [hid] at ht
      cases ht
      rfl
    · exact (h.attends b x hx).rejoin ⟨policy, false, hid⟩
  | @asks phase key answer c w hseeks hfree hbegin =>
    have hchanges := Executor.changes_setBody hid none (.poll b policy (.waiting answer))
    have hself (body : Body ρ) (isAborted : Bool)
        (ht : ((r.executor.rouse none).setBody id (.poll b policy (.waiting answer))).live? id =
          some (body, isAborted)) : ¬ body.Seeks := by
      rw [hset _ none ht]
      exact not_false
    have hvacated := (h.attends b x hx).vacated hid hchanges
      (Executor.not_queuesAt_of_not_seeks hself b)
    exact h.move hx hid hchanges (fun _ _ ht => .inl (hself _ _ ht))
      ⟨hvacated.allots, hvacated.waits, hvacated.woken⟩ nofun
  | @ends phase c outcome w hends =>
    unfold ended
    dsimp only
    split
    · refine released_attentive h hx hid rfl (Executor.changes_setBody hid _ _) ?_
      intro body isAborted ht
      rw [hset _ _ ht]
      exact not_false
    · refine released_attentive h hx hid rfl (Executor.changes_finish _ id _) ?_
      intro body isAborted ht
      rw [Executor.live?_finish, if_pos rfl] at ht
      contradiction

omit [Host ρ σ] in
/-- A task that is disposed of lets go of its binder, or of its place. -/
theorem dispose_attentive {body : Body ρ} (h : r.InOrder s (some id))
    (ha : Attentive r.binders r.executor (some id))
    (hid : r.executor.live? id = some (body, true)) :
    Attentive ((r.dispose body).finishTask id).binders
      ((r.dispose body).finishTask id).executor none := by
  have hgone (next : Option TaskId) (body : Body ρ) (isAborted : Bool) :
      ((r.executor.rouse next).finish id).live? id ≠ some (body, isAborted) := by
    rw [Executor.live?_finish, if_pos rfl]
    exact nofun
  have hdrop (hno : ∀ b policy place, body ≠ .poll b policy (.queued place)) :
      Attentive r.binders (r.executor.finish id) none := by
    refine ha.pass (Executor.changes_finish r.executor id none) (fun c place hqueues => ?_)
      fun body isAborted ht => absurd ht (hgone none body isAborted)
    obtain ⟨policy, heq⟩ := (Executor.queuesAt_iff hid).mp hqueues
    exact hno c policy place heq
  cases body with
  | poll b policy phase =>
    have hlt : b < r.binders.length := h.orderly.within id _ _ hid
    have hx : r.binders[b]? = some r.binders[b] := List.getElem?_eq_getElem hlt
    have hrelease (hvacated : phase.vacated r.binders[b].lock = r.binders[b].lock) :
        Attentive ((r.release b).finishTask id).binders ((r.release b).finishTask id).executor
          none := by
      rw [release_eq hx]
      have hlock : r.binders[b].lock.release.2 = (phase.vacated r.binders[b].lock).release.2 := by
        rw [hvacated]
      refine released_attentive ha hx hid hlock ?_
        fun body isAborted ht => absurd ht (hgone _ body isAborted)
      rw [hvacated]
      exact Executor.changes_finish _ id _
    cases phase with
    | start => exact hdrop nofun
    | queued place =>
      have hchanges := Executor.changes_finish r.executor id (r.binders[b].lock.leave place).1
      have hattends := ha.attends b _ hx
      show Attentive ((r.leave b place).finishTask id).binders
        ((r.leave b place).finishTask id).executor none
      rw [leave_eq hx]
      refine ha.move hx hid hchanges (fun body isAborted ht => absurd ht (hgone _ body isAborted))
        ?_ ((ha.calls b _ hx).leave place)
      refine hattends.leave ⟨policy, true, hid⟩ (fun t p => hchanges.queuesAt_iff ?_)
        hchanges.awaits hchanges.called
      rintro ⟨policy', isAborted, ht⟩
      exact hgone _ _ _ ht
    | waiting answer => exact hrelease rfl
    | answered answer => exact hrelease rfl
    | sleeping => exact hdrop nofun
  | heartbeat => exact hdrop nofun
  | shutdown => exact hdrop nofun

theorem Turned.attentive (hturned : Turned r id r') (h : r.InOrder s (some id))
    (ha : Attentive r.binders r.executor (some id)) : Attentive r'.binders r'.executor none := by
  cases hturned with
  | gone hid =>
    refine ha.pass (.refl _ id) (fun b place => Executor.not_queuesAt hid) ?_
    intro body isAborted ht
    rw [hid] at ht
    contradiction
  | disposes hid => exact dispose_attentive h ha hid
  | polls hx hid hturn => exact pollTurn_attentive ha hx hid hturn
  | @beats access interval phase hid =>
    have hno (b : BinderId) (place : Nat) : ¬ r.executor.QueuesAt id b place := by
      rw [Executor.queuesAt_iff hid]
      exact nofun
    rcases heartbeatTurn_cases r id access interval phase with hsame | ⟨_, _, _, phase', hbeats⟩
    · rw [hsame]
      refine ha.pass (.refl _ id) hno fun body isAborted ht => ?_
      rw [hid] at ht
      cases ht
      exact not_false
    · rw [hbeats]
      refine ha.pass (Executor.changes_setBody hid none _) hno fun body isAborted ht => ?_
      have hnow : (r.executor.setBody id (.heartbeat access interval phase')).live? id =
        some (body, isAborted) := ht
      rw [Executor.live?_setBody hid, if_pos rfl] at hnow
      cases hnow
      exact not_false

theorem next?_attentive (h : r.InOrder s none) (ha : Attentive r.binders r.executor none)
    (hnext : r.next? = some r') : Attentive r'.binders r'.executor none := by
  obtain ⟨id, executor, hpop, hpopped, hturned⟩ := next?_cases h hnext
  exact hturned.attentive hpopped (ha.popped hpop)

/-! ### Moves -/

omit [Host ρ σ] in
/-- Waking a task gives no place to it, and takes none. -/
theorem queuesAt_resume {change : Body ρ → Body ρ}
    (hchange : change = awakened ∨ change = answered) (id t : TaskId) (b : BinderId)
    (place : Nat) : (r.resume change id).executor.QueuesAt t b place ↔
      r.executor.QueuesAt t b place := by
  unfold Run.resume
  cases hid : r.executor.live? id with
  | none => exact .rfl
  | some task =>
    obtain ⟨body, isAborted⟩ := task
    have hlive (t : TaskId) : ((r.executor.setBody id (change body)).wake id).live? t =
        if t = id then some (change body, isAborted) else r.executor.live? t := by
      rw [Executor.live?_wake, Executor.live?_setBody hid]
    have hqueued (policy : Policy) : change body = .poll b policy (.queued place) ↔
        body = .poll b policy (.queued place) := by
      rcases hchange with rfl | rfl
      · cases body with
        | poll c policy' phase => cases phase <;> simp [awakened]
        | heartbeat access interval phase => cases phase <;> simp [awakened]
        | shutdown => simp [awakened]
      · cases body with
        | poll c policy' phase => cases phase <;> simp [answered]
        | heartbeat access interval phase => cases phase <;> simp [answered]
        | shutdown service promise phase => cases phase <;> simp [answered]
    show ((r.executor.setBody id (change body)).wake id).QueuesAt t b place ↔ _
    by_cases hti : t = id
    · subst hti
      have hnow := (hlive t).trans (if_pos rfl)
      rw [Executor.queuesAt_iff hnow, Executor.queuesAt_iff hid]
      exact exists_congr hqueued
    · exact Executor.queuesAt_congr ((hlive t).trans (if_neg hti)) b place

omit [Host ρ σ] in
theorem resume_attentive (h : Attentive r.binders r.executor none) {change : Body ρ → Body ρ}
    (hchange : change = awakened ∨ change = answered) (id : TaskId) :
    Attentive (r.resume change id).binders (r.resume change id).executor none := by
  have hqueues := queuesAt_resume (r := r) hchange id
  unfold Run.resume at hqueues ⊢
  cases hid : r.executor.live? id with
  | none => exact h
  | some task =>
    obtain ⟨body, isAborted⟩ := task
    rw [hid] at hqueues
    have hlive (t : TaskId) : ((r.executor.setBody id (change body)).wake id).live? t =
        if t = id then some (change body, isAborted) else r.executor.live? t := by
      rw [Executor.live?_wake, Executor.live?_setBody hid]
    refine h.congr ?_ hqueues (fun t ht => (ht.setBody id _).wake id) fun t b policy ht => ?_
    · exact (Executor.isClosed_wake _ id).trans (Executor.isClosed_setBody _ id _)
    · have hnow : ((r.executor.setBody id (change body)).wake id).live? t =
        some (.poll b policy .start, false) := ht
      by_cases hti : t = id
      · -- The task that is woken has a turn coming, whatever it does then.
        subst hti
        have hset : (r.executor.setBody t (change body)).live? t =
            some (change body, isAborted) := by
          rw [Executor.live?_setBody hid, if_pos rfl]
        exact .inl (Executor.awaits_wake_self (Executor.isLive_of_live? hset))
      · rw [hlive, if_neg hti] at hnow
        exact .inr hnow

omit [Host ρ σ] in
theorem abort_attentive (h : Attentive r.binders r.executor none) (id : TaskId) :
    Attentive r.binders (r.executor.abort id) none := by
  refine h.congr (Executor.isClosed_abort _ id) (fun t b place => ?_) (fun t ht => ht.abort id)
    fun t b policy ht => ?_
  · constructor
    · rintro ⟨policy, isAborted, ht⟩
      rw [Executor.live?_abort] at ht
      split at ht
      · rw [Option.map_eq_some_iff] at ht
        obtain ⟨⟨body, isAborted'⟩, hold, heq⟩ := ht
        cases heq
        exact ⟨policy, isAborted', hold⟩
      · exact ⟨policy, isAborted, ht⟩
    · rintro ⟨policy, isAborted, ht⟩
      obtain ⟨isAborted', hnew⟩ := Executor.live?_abort_of_live? ht id
      exact ⟨policy, isAborted', hnew⟩
  · rw [Executor.live?_abort] at ht
    split at ht
    · cases hold : r.executor.live? t <;> simp [hold] at ht
    · exact .inr ht

omit [Host ρ σ] in
theorem spawn_attentive (h : Attentive r.binders r.executor none) {key : TaskKey} {body : Body ρ}
    (hbody : s.Begins key body) {executor : Executor (Body ρ)}
    (hspawn : r.executor.spawn body = some (id, executor)) :
    Attentive r.binders executor none := by
  have hlive (t : TaskId) := Executor.live?_spawn hspawn t
  obtain ⟨hready, hfresh, hid, hopen⟩ := Executor.spawn_ready_fresh hspawn
  have hnone : r.executor.live? id = none := by
    rw [hid, Executor.live?, List.getElem?_eq_none (Nat.le_refl _)]
  refine h.congr hopen (fun t b place => ?_) (fun t ht => ?_) fun t b policy ht => ?_
  · by_cases hti : t = id
    · subst hti
      refine iff_of_false ?_ (Executor.not_queuesAt hnone)
      rw [Executor.queuesAt_iff ((hlive t).trans (if_pos rfl))]
      rintro ⟨policy, rfl⟩
      cases hbody
    · exact Executor.queuesAt_congr ((hlive t).trans (if_neg hti)) b place
  · rw [Executor.Awaits, hready, hfresh]
    exact ht.imp_right (List.mem_append_left _)
  · by_cases hti : t = id
    · refine .inl (.inr ?_)
      rw [hfresh, hti]
      exact List.mem_append_right _ (List.mem_singleton_self id)
    · rw [hlive, if_neg hti] at ht
      exact .inr ht

omit [Host ρ σ] in
theorem enroll_attentive (h : Attentive r.binders r.executor none) :
    Attentive r.binders r.executor.enroll none := by
  refine h.congr rfl (fun _ _ _ => .rfl) (fun t ht => .inl ?_) fun _ _ _ ht => .inr ht
  rcases ht with ht | ht
  · exact List.mem_append_left _ ht
  · exact List.mem_append_right _ ht

theorem Move.attentive (hmove : Move outside r r') (h : r.InOrder s none)
    (ha : Attentive r.binders r.executor none) : Attentive r'.binders r'.executor none := by
  cases hmove with
  | turn hnext => exact next?_attentive h ha hnext
  | enroll => exact enroll_attentive ha
  | resume hchange id => exact resume_attentive ha hchange id
  | forget => exact ha
  | change => exact ha
  | log => exact ha
  | sweep => exact ha
  | abort id => exact abort_attentive ha id
  | @bind s' v hs hnew =>
    rw [binderFor_new hs hnew]
    have hat {b : BinderId} {x y : Shared ρ} (hy : (r.binders ++ [y])[b]? = some x) :
        r.binders[b]? = some x ∨ b = r.binders.length ∧ x = y := by
      grind
    refine ⟨ha.isOpen, fun b x hx => ?_, fun b x hx => ?_, ha.starts⟩
    · rcases hat hx with hx | ⟨rfl, rfl⟩
      · exact ha.attends b x hx
      · refine .empty (fun t place hqueues => ?_) none
        obtain ⟨policy, isAborted, ht⟩ := hqueues
        exact Nat.lt_irrefl _ (h.orderly.within t _ _ ht)
    · rcases hat hx with hx | ⟨-, rfl⟩
      · exact ha.calls b x hx
      · exact nofun
  | strike => exact ha
  | spawn hs hbody hhalted hspawn hregistry => exact spawn_attentive ha hbody hspawn

omit [Host ρ σ] in
theorem opened_attentive [Host ρ σ] (world : σ) (session : SessionId) (config : Config)
    (access : ρ) : Attentive (opened world session config access).binders
      (opened world session config access).executor none :=
  ⟨rfl, nofun, nofun, nofun⟩

end Run

/-! ### Stalls -/

/-- No wake-up is lost: when no turn is left, no task that goes on looks for its binder. -/
theorem Orderly.not_seeks {s : Service ρ} {binders : List (Shared ρ)} {e : Executor (Body ρ)}
    (h : Orderly s binders e none) (ha : Attentive binders e none)
    (hstalled : ∀ t, ¬ e.Awaits t) {t : TaskId} {b : BinderId} {policy : Policy} {phase : Phase _}
    (ht : e.live? t = some (.poll b policy phase, false)) : ¬ phase.Seeks := by
  have hlt : b < binders.length := h.within t _ _ ht
  have hx : binders[b]? = some binders[b] := List.getElem?_eq_getElem hlt
  intro hseeks
  cases phase with
  | start => exact hstalled t (ha.starts t b policy ht nofun)
  | queued place =>
    cases hholder : binders[b].lock.holder with
    | some u =>
      -- The holder would be disposed of, or is the one task of the view that goes on.
      obtain ⟨body, isAborted, hu, hholds⟩ := (h.holder b _ hx u).mp hholder
      cases isAborted with
      | true => exact hstalled u (h.doomed u body hu nofun)
      | false =>
        cases body with
        | poll c policy' phase' =>
          obtain ⟨rfl, hphase⟩ := hholds
          have htask := h.registered_view ht hx
          rw [h.registered_view hu hx] at htask
          cases htask
          rw [ht] at hu
          cases hu
          exact hphase
        | heartbeat => exact hholds
        | shutdown => exact hholds
    | none =>
      -- The first of those who wait was called.
      have hattends := ha.attends b _ hx
      obtain ⟨w, hw, -⟩ := (hattends.waits t place).mpr ⟨policy, false, ht⟩
      cases hwaiters : binders[b].lock.waiters with
      | nil =>
        rw [hwaiters] at hw
        contradiction
      | cons first rest =>
        have hwoken := ha.calls b _ hx hholder first (by rw [hwaiters]; rfl)
        exact hstalled first.task
          (hattends.woken first (hwaiters ▸ List.mem_cons_self) hwoken nofun)
  | waiting => exact hseeks
  | answered => exact hseeks
  | sleeping => exact hseeks

end WalletPage
