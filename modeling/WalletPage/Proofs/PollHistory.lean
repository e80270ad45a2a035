import WalletPage.Proofs.OrderlyRuns
import WalletPage.Proofs.Recollections
import WalletPage.Proofs.Unwatched

/-! The history of polling in runs under watch: when a view got its binder, when a task looked
for its anchor, and how each cycle came to its end. The history is computed from the run;
what each event in it tells of the binder and of the calls is said here, step by step. -/

namespace WalletPage

variable {ρ σ : Type}

/-- A cycle that has come to its end. -/
structure Closing where
  task : TaskId
  view : View
  /-- The answer of the server; there is none if the anchor was not found. -/
  answer : Option (Fallible (Option Snapshot))
  /-- The calls that were made with the answer. -/
  calls : List Call
  outcome : Outcome
  next : Next

/-- What happens as views are polled. -/
inductive PollEvent where
  /-- A view has got its binder, which was painted from the cache or was not. -/
  | made (v : View) (painted : Bool)
  /-- A task begins a cycle and looks for the anchor. -/
  | looked (task : TaskId) (v : View) (found : Bool)
  | closed (c : Closing)

/-- The view that an event is about. -/
def PollEvent.view : PollEvent → View
  | made v _ => v
  | looked _ v _ => v
  | closed c => c.view

/-- Whether in an event the anchor of the view is found. -/
def PollEvent.isFinding : PollEvent → Bool
  | made _ painted => painted
  | looked _ _ found => found
  | closed _ => false

/-- Whether a cycle has accepted a snapshot that ends its view, without a refusal. -/
def Closing.completes (c : Closing) : Bool :=
  match c.answer with
  | some (.ok (some s)) => s.matchesView c.view && s.isTerminal && !c.calls.any Call.isRefusal
  | _ => false

/-- Whether in an event a cycle accepts a snapshot that ends its view. -/
def PollEvent.isCompletion : PollEvent → Bool
  | closed c => c.completes
  | _ => false

/-- The calls of a cycle with its answer. -/
def PollEvent.calls : PollEvent → List Call
  | closed c => c.calls
  | _ => []

/-- Whether the anchor of a view was found in some events. -/
def wasFound (events : List PollEvent) (v : View) : Bool :=
  events.any fun e => decide (e.view = v) && e.isFinding

/-- Whether a cycle of a view has completed it in some events. -/
def wasCompleted (events : List PollEvent) (v : View) : Bool :=
  events.any fun e => decide (e.view = v) && e.isCompletion

/-! ### The events of a run -/

section

variable [Host ρ σ]

/-- The end of a cycle with an answer. -/
def Binder.closingEvent (b : Binder (Watcher ρ)) (task : TaskId) (policy : Policy)
    (answer : Fallible (Option Snapshot)) (w : Watched σ) : PollEvent :=
  let ((b', outcome), w') := (b.finish answer).run w
  .closed ⟨task, b.view, some answer, w'.calls.drop w.calls.length, outcome,
    policy.next b.view outcome b'.anchorSeen⟩

/-- The events of a cycle from its beginning to where it has to wait, or to its end. -/
def Binder.cycleEvents (b : Binder (Watcher ρ)) (task : TaskId) (policy : Policy)
    (page : Option PageNumber) (w : Watched σ) : List PollEvent :=
  .looked task b.view ((Host.anchorPresent b.access b.view.anchor).run w).1 ::
    match (b.begin page).run w with
    | ((b', .ended outcome), _) =>
      [.closed ⟨task, b.view, none, [], outcome, policy.next b.view outcome b'.anchorSeen⟩]
    | ((b', .asked (.ready answer)), w') => [b'.closingEvent task policy answer w']
    | ((_, .asked (.held _ _)), _) => []

namespace Run

/-- The events of a task's turn that finds its binder. -/
def eventsAt (r : Run (Watcher ρ) (Watched σ)) (t : TaskId) (policy : Policy)
    (x : Shared (Watcher ρ)) : Phase (Fallible (Option Snapshot)) → List PollEvent
  | .answered answer => [x.binder.closingEvent t policy answer r.world]
  | .waiting _ => []
  | .sleeping => []
  | _ =>
    if x.lock.isFree then x.binder.cycleEvents t policy (r.selected x.selection) r.world else []

/-- The events of a task's turn. -/
def eventsOf (r : Run (Watcher ρ) (Watched σ)) (t : TaskId) : List PollEvent :=
  match r.executor.live? t with
  | some (.poll b policy phase, false) =>
    match r.binders[b]? with
    | some x => r.eventsAt t policy x phase
    | none => []
  | _ => []

/-- The events of the next turn. -/
def turnEvents (r : Run (Watcher ρ) (Watched σ)) : List PollEvent :=
  match r.executor.next? with
  | some (t, executor) => eventsOf { r with executor } t
  | none => []

/-- The events of so many turns. -/
def settleEvents : Nat → Run (Watcher ρ) (Watched σ) → List PollEvent
  | 0, _ => []
  | n + 1, r =>
    match r.next? with
    | some r' => r.turnEvents ++ settleEvents n r'
    | none => []

end Run

/-- The event of a new binder. -/
def Shared.made (x : Shared (Watcher ρ)) : PollEvent :=
  .made x.binder.view x.binder.lastRendered.isSome

/-- The events of an act. -/
def Act.events (r : Run (Watcher ρ) (Watched σ)) : Act (Watched σ) → List PollEvent
  | .turn => r.turnEvents
  | .run => Run.settleEvents r.executor.turns { r with executor := r.executor.enroll }
  | act => ((act.step r).binders.drop r.binders.length).map Shared.made

/-- The history of a run after some acts. -/
def Run.history (r : Run (Watcher ρ) (Watched σ)) : List (Act (Watched σ)) → List PollEvent
  | [] => []
  | act :: rest => act.events r ++ (act.step r).history rest

end

/-! ### What the events tell -/

/-- The calls with which a task turns to what comes next. -/
def Next.calls : Next → List Call
  | .after delay => [.slept delay]
  | .stop => []

/-- `b.Closes policy task c calls b'`: the task ends a cycle of `b` with those calls, as `c`
tells, and leaves `b'`. -/
inductive Binder.Closes (policy : Policy) (task : TaskId) (b : Binder (Watcher ρ)) :
    Closing → List Call → Binder (Watcher ρ) → Prop
  | givesUp {next : Next} (hnext : next = policy.next b.view .anchorAbsent b.anchorSeen) :
    Closes policy task b ⟨task, b.view, none, [], .anchorAbsent, next⟩ next.calls b
  | concludes {b' : Binder (Watcher ρ)} {answer : Fallible (Option Snapshot)} {outcome : Outcome}
    {calls : List Call} {next : Next} (hconcludes : b.Concludes answer b' outcome calls)
    (huses : ∀ c ∈ calls, b.Uses answer calls c)
    (hnext : next = policy.next b.view outcome b'.anchorSeen) :
    Closes policy task b ⟨task, b.view, some answer, calls, outcome, next⟩ (calls ++ next.calls) b'

/-- `b.Tells policy task phase events calls b' next?`: in a turn that begins in that phase, the
task does to its binder `b` what the events tell, makes those calls and leaves `b'`. If the
cycle has ended, `next?` is what comes next. -/
inductive Binder.Tells (policy : Policy) (task : TaskId) (b : Binder (Watcher ρ)) :
    Phase (Fallible (Option Snapshot)) → List PollEvent → List Call → Binder (Watcher ρ) →
      Option Next → Prop
  | rests (phase : Phase _) : Tells policy task b phase [] [] b none
  | misses {phase : Phase _} {c : Closing} {calls : List Call} {b' : Binder (Watcher ρ)}
    (hseeks : phase.Seeks) (hcloses : b.Closes policy task c calls b') (hanswer : c.answer = none) :
    Tells policy task b phase [.looked task b.view false, .closed c] calls b' (some c.next)
  | asks {phase : Phase _} {b' : Binder (Watcher ρ)} {first : List Call}
    {page : Option PageNumber} {key : String} {answer : Fallible (Option Snapshot)}
    (hseeks : phase.Seeks) (hopens : b.Opens b' first) :
    Tells policy task b phase [.looked task b.view true]
      (first ++ [.asked (b.request page) (.held key answer)]) b' none
  | answers {phase : Phase _} {b' b'' : Binder (Watcher ρ)} {first calls : List Call}
    {page : Option PageNumber} {answer : Fallible (Option Snapshot)} {c : Closing}
    (hseeks : phase.Seeks) (hopens : b.Opens b' first) (hcloses : b'.Closes policy task c calls b'')
    (hanswer : c.answer = some answer) :
    Tells policy task b phase [.looked task b.view true, .closed c]
      (first ++ [.asked (b.request page) (.ready answer)] ++ calls) b'' (some c.next)
  | concludes {answer : Fallible (Option Snapshot)} {c : Closing} {calls : List Call}
    {b' : Binder (Watcher ρ)} (hcloses : b.Closes policy task c calls b')
    (hanswer : c.answer = some answer) :
    Tells policy task b (.answered answer) [.closed c] calls b' (some c.next)

namespace Binder

variable {policy : Policy} {task : TaskId} {b b' : Binder (Watcher ρ)} {calls : List Call}

theorem Concludes.kin {answer : Fallible (Option Snapshot)} {outcome : Outcome}
    (h : b.Concludes answer b' outcome calls) : b.Kin b' := by
  cases h <;> exact ⟨rfl, rfl, rfl, rfl⟩

theorem Closes.kin {c : Closing} (h : b.Closes policy task c calls b') : b.Kin b' := by
  cases h with
  | givesUp => exact .refl b
  | concludes hconcludes => exact hconcludes.kin

variable [Host ρ σ]

/-- A cycle goes on after its first look if and only if the anchor is there. -/
theorem begin_looks (b : Binder ρ) (page : Option PageNumber) (w : σ) :
    match ((b.begin page).run w).1.2 with
    | .ended _ => ((Host.anchorPresent b.access b.view.anchor).run w).1 = false
    | .asked _ => ((Host.anchorPresent b.access b.view.anchor).run w).1 = true := by
  unfold begin
  rw [run_bind]
  cases hfound : ((Host.anchorPresent b.access b.view.anchor).run w).1 with
  | false => rfl
  | true =>
    rw [if_pos rfl]
    cases !b.anchorSeen && b.lastRendered.isNone <;> rfl

/-- At the end of a cycle a task sleeps, if it is to go on. -/
theorem emits_rest_eq (b : Binder (Watcher ρ)) (policy : Policy) (outcome : Outcome) :
    Emits (σ := σ) (b.rest policy outcome) fun _ new =>
      new = (policy.next b.view outcome b.anchorSeen).calls := by
  unfold rest
  refine Emits.silent (emits_say _ _ _ _) fun _ => ?_
  split
  · rename_i hnext
    rw [hnext]
    exact emits_say _ _ _ _
  · rename_i delay hnext
    rw [hnext]
    exact Emits.noted fun _ => rfl

/-- The event of an answer tells how the cycle is closed. -/
theorem closingEvent_closes {b b' : Binder (Watcher ρ)} {answer : Fallible (Option Snapshot)}
    {outcome : Outcome} {w w' : Watched σ} (hfinish : (b.finish answer).run w = ((b', outcome), w'))
    (policy : Policy) (task : TaskId) :
    ∃ c calls, b.closingEvent task policy answer w = .closed c ∧ c.answer = some answer ∧
      c.next = policy.next b'.view outcome b'.anchorSeen ∧
      ((b'.rest policy outcome).run w').2.calls = w.calls ++ calls ∧
      b.Closes policy task c calls b' := by
  obtain ⟨used, hused, hconcludes, huses⟩ :=
    ((finish_concludes b answer).and (emits_finish b answer)) w
  obtain ⟨slept, hslept, rfl⟩ := emits_rest_eq b' policy outcome w'
  rw [hfinish] at hused hconcludes
  have hview : b'.view = b.view := hconcludes.kin.view
  have hnew : w'.calls.drop w.calls.length = used := by rw [hused, List.drop_left]
  refine ⟨_, _, ?_, rfl, ?_, ?_, .concludes hconcludes huses rfl⟩
  · unfold closingEvent
    rw [hfinish]
    dsimp only
    rw [hnew]
  · rw [hview]
  · rw [hslept, hused, hview, List.append_assoc]

end Binder

namespace Run

variable {r r' : Run (Watcher ρ) (Watched σ)} {t : TaskId} {b : BinderId} {policy : Policy}
  {x : Shared (Watcher ρ)} {phase : Phase (Fallible (Option Snapshot))} [Host ρ σ]

theorem eventsAt_of_seeks (hseeks : phase.Seeks) (hfree : x.lock.isFree = true) (t : TaskId)
    (policy : Policy) : r.eventsAt t policy x phase =
      x.binder.cycleEvents t policy (r.selected x.selection) r.world := by
  cases phase <;> first | exact if_pos hfree | exact hseeks.elim

/-- A task that asks and has to wait for the answer. -/
theorem eventsAt_asks {y : Binder (Watcher ρ)} {key : String}
    {answer : Fallible (Option Snapshot)} {w : Watched σ} (hseeks : phase.Seeks)
    (hfree : x.lock.isFree = true)
    (hbegin : (x.binder.begin (r.selected x.selection)).run r.world =
      ((y, .asked (.held key answer)), w)) (t : TaskId) (policy : Policy) :
    r.eventsAt t policy x phase = [.looked t x.binder.view true] ∧
      ∃ first, x.binder.Opens y first ∧ w.calls = r.world.calls ++
        (first ++ [.asked (x.binder.request (r.selected x.selection)) (.held key answer)]) := by
  have hlooks := x.binder.begin_looks (r.selected x.selection) r.world
  obtain ⟨new, hnew, hbegun⟩ := emits_begin x.binder (r.selected x.selection) r.world
  rw [hbegin] at hlooks hnew hbegun
  obtain ⟨first, rfl, hopens⟩ := hbegun
  refine ⟨?_, first, hopens, hnew⟩
  rw [eventsAt_of_seeks hseeks hfree, Binder.cycleEvents, hbegin]
  dsimp only at hlooks ⊢
  rw [hlooks]

/-- A task that comes to the end of a cycle. -/
theorem CycleEnds.tells {y : Binder (Watcher ρ)} {outcome : Outcome} {w : Watched σ}
    (h : CycleEnds r x phase y outcome w) (t : TaskId) (policy : Policy) :
    ∃ new, ((y.rest policy outcome).run w).2.calls = r.world.calls ++ new ∧
      x.binder.Tells policy t phase (r.eventsAt t policy x phase) new y
        (some (policy.next y.view outcome y.anchorSeen)) := by
  cases h with
  | absent hseeks hfree hbegin =>
    have hlooks := x.binder.begin_looks (r.selected x.selection) r.world
    obtain ⟨new, hnew, hbegun⟩ := emits_begin x.binder (r.selected x.selection) r.world
    obtain ⟨slept, hslept, rfl⟩ := y.emits_rest_eq policy outcome w
    have hended := (x.binder.begin_yields (r.selected x.selection) r.world).2
    rw [hbegin] at hlooks hnew hbegun hended
    obtain ⟨rfl, rfl⟩ := hbegun
    obtain ⟨-, rfl⟩ := hended
    dsimp only at hlooks hnew
    rw [List.append_nil] at hnew
    refine ⟨_, by rw [hslept, hnew], ?_⟩
    rw [eventsAt_of_seeks hseeks hfree, Binder.cycleEvents, hbegin]
    dsimp only
    rw [hlooks]
    exact .misses hseeks (.givesUp rfl) rfl
  | @ready _ z y answer outcome w w' hseeks hfree hbegin hfinish =>
    have hlooks := x.binder.begin_looks (r.selected x.selection) r.world
    obtain ⟨new, hnew, hbegun⟩ := emits_begin x.binder (r.selected x.selection) r.world
    rw [hbegin] at hlooks hnew hbegun
    obtain ⟨first, rfl, hopens⟩ := hbegun
    obtain ⟨c, calls, hevent, hanswer, hnext, hcalls, hcloses⟩ :=
      Binder.closingEvent_closes hfinish policy t
    refine ⟨_, by rw [hcalls, hnew, List.append_assoc], ?_⟩
    rw [eventsAt_of_seeks hseeks hfree, Binder.cycleEvents, hbegin]
    dsimp only at hlooks ⊢
    rw [hlooks, hevent, ← hnext]
    exact .answers hseeks hopens hcloses hanswer
  | @answered answer y outcome w hfinish =>
    obtain ⟨c, calls, hevent, hanswer, hnext, hcalls, hcloses⟩ :=
      Binder.closingEvent_closes hfinish policy t
    refine ⟨calls, hcalls, ?_⟩
    show Binder.Tells policy t x.binder _ [x.binder.closingEvent t policy answer r.world] _ _ _
    rw [hevent, ← hnext]
    exact .concludes hcloses hanswer

/-- What the turn of a polling task does to its binder, as the events of the turn tell. -/
theorem PollTurn.tells (hturn : PollTurn r t b policy x phase r') (hx : r.binders[b]? = some x)
    (hid : t < r.executor.tasks.length) :
    ∃ x' new next?, r'.binders = r.binders.set b x' ∧ r'.world.calls = r.world.calls ++ new ∧
      x.binder.Tells policy t phase (r.eventsAt t policy x phase) new x'.binder next? ∧
      (next? = some .stop → r'.executor.hasEnded t = true) := by
  have hrests (phase : Phase _) (hevents : r.eventsAt t policy x phase = []) :
      x.binder.Tells policy t phase (r.eventsAt t policy x phase) [] x.binder none := by
    rw [hevents]
    exact .rests phase
  have hbusy (h : x.lock.isFree = false) : ¬ x.lock.isFree = true := by
    rw [h]
    exact Bool.false_ne_true
  cases hturn with
  | @idle phase hwaits =>
    have hevents : r.eventsAt t policy x phase = [] := by
      cases phase <;> first | rfl | exact hwaits.elim
    obtain ⟨hb, hxb⟩ := List.getElem?_eq_some_iff.mp hx
    refine ⟨x, [], none, ?_, (List.append_nil _).symm, hrests phase hevents, nofun⟩
    rw [← hxb, List.set_getElem_self]
  | joins h =>
    exact ⟨_, [], none, rfl, (List.append_nil _).symm, hrests .start (if_neg (hbusy h)), nofun⟩
  | @waits place h =>
    exact ⟨_, [], none, rfl, (List.append_nil _).symm, hrests (.queued place) (if_neg (hbusy h)),
      nofun⟩
  | asks hseeks hfree hbegin =>
    obtain ⟨hevents, first, hopens, hnew⟩ := eventsAt_asks hseeks hfree hbegin t policy
    refine ⟨_, _, none, rfl, hnew, ?_, nofun⟩
    rw [hevents]
    exact .asks hseeks hopens
  | @ends phase y outcome w hends =>
    obtain ⟨new, hnew, htells⟩ := hends.tells t policy
    obtain ⟨hworld, hbinders, -⟩ := r.ended_page t b policy x (phase.vacated x.lock) y outcome w
    refine ⟨_, new, _, hbinders, by rw [hworld, hnew], htells, fun hstop => ?_⟩
    have hended := Option.some.inj hstop
    unfold ended
    rw [hended]
    dsimp only
    rw [Executor.hasEnded_finish (by rwa [Executor.tasks_rouse]), if_pos rfl]

end Run

end WalletPage
