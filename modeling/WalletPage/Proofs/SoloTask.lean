import WalletPage.Proofs.PolledRuns
import WalletPage.Proofs.Stalling

/-! A task that is alone on a page with its binder. It takes every turn, never finds the binder
held, and goes from one phase to the next: it looks for the anchor, may wait for an answer,
closes the cycle, and sleeps or comes to its end. -/

namespace WalletPage

variable {ρ σ : Type}

/-- A page on which one task polls a new binder, and nothing else runs. -/
structure Solo (ρ σ : Type) where
  world : σ
  page : Option PageNumber
  view : View
  session : SessionId
  baseUrl : String
  access : ρ
  policy : Policy

namespace Solo

/-- The binder, to which nothing has happened yet. -/
def binder (x : Solo ρ σ) : Binder ρ where
  view := x.view
  session := x.session
  baseUrl := x.baseUrl
  access := x.access

/-- The page with the task, which has not had a turn yet. -/
def start (x : Solo ρ σ) : Run ρ σ :=
  (Run.spawnPoll { world := x.world, selections := [x.page],
                   binders := [{ binder := x.binder, selection := 0 }] } 0 x.policy).2

end Solo

/-- Where a task is with its binder. Once it has ended it is in no phase. -/
structure Stage (ρ : Type) where
  binder : Binder (Watcher ρ)
  phase? : Option (Phase (Fallible (Option Snapshot)))

namespace Phase

variable {α : Type}

/-- The phase once a sleep has ended. -/
def awakened : Phase α → Phase α
  | .sleeping => .start
  | phase => phase

/-- The phase once an answer has been released. -/
def delivered : Phase α → Phase α
  | .waiting answer => .answered answer
  | phase => phase

end Phase

/-- The phase of a task after a cycle. -/
def Next.phase? : Next → Option (Phase (Fallible (Option Snapshot)))
  | .after _ => some .sleeping
  | .stop => none

/-- `s.Strides policy events calls t`: a task that is alone goes from one stage to another, as
the events tell and with those calls. -/
inductive Stage.Strides (policy : Policy) (s : Stage ρ) :
    List PollEvent → List Call → Stage ρ → Prop
  | refl : Strides policy s [] [] s
  | awakens {events : List PollEvent} {calls : List Call} {b : Binder (Watcher ρ)}
    {phase : Phase _} (h : Strides policy s events calls ⟨b, some phase⟩) :
    Strides policy s events calls ⟨b, some phase.awakened⟩
  | hears {events : List PollEvent} {calls : List Call} {b : Binder (Watcher ρ)}
    {phase : Phase _} (h : Strides policy s events calls ⟨b, some phase⟩) :
    Strides policy s events calls ⟨b, some phase.delivered⟩
  | asks {events : List PollEvent} {calls first : List Call} {b b' : Binder (Watcher ρ)}
    {page : Option PageNumber} {key : String} {answer : Fallible (Option Snapshot)}
    (h : Strides policy s events calls ⟨b, some .start⟩) (hopens : b.Opens b' first) :
    Strides policy s (events ++ [.looked 0 b.view true])
      (calls ++ (first ++ [.asked (b.request page) (.held key answer)]))
      ⟨b', some (.waiting answer)⟩
  | ends {events more : List PollEvent} {calls new : List Call} {b b' : Binder (Watcher ρ)}
    {phase : Phase _} {next : Next} (h : Strides policy s events calls ⟨b, some phase⟩)
    (htells : b.Tells policy 0 phase more new b' (some next)) :
    Strides policy s (events ++ more) (calls ++ new) ⟨b', next.phase?⟩

theorem Stage.Strides.trans {policy : Policy} {s t u : Stage ρ} {events more : List PollEvent}
    {calls new : List Call} (h : s.Strides policy events calls t)
    (k : t.Strides policy more new u) : s.Strides policy (events ++ more) (calls ++ new) u := by
  induction k with
  | refl => rwa [List.append_nil, List.append_nil]
  | awakens _ ih => exact ih.awakens
  | hears _ ih => exact ih.hears
  | asks _ hopens ih =>
    rw [← List.append_assoc, ← List.append_assoc]
    exact ih.asks hopens
  | ends _ htells ih =>
    rw [← List.append_assoc, ← List.append_assoc]
    exact ih.ends htells

/-- Nothing comes after the end. -/
theorem Stage.Strides.of_ended {policy : Policy} {b : Binder (Watcher ρ)} {t : Stage ρ}
    {events : List PollEvent} {calls : List Call}
    (h : Strides policy ⟨b, none⟩ events calls t) :
    events = [] ∧ calls = [] ∧ t.phase? = none := by
  induction h with
  | refl => exact ⟨rfl, rfl, rfl⟩
  | awakens _ ih => cases ih.2.2
  | hears _ ih => cases ih.2.2
  | asks _ _ ih => cases ih.2.2
  | ends _ _ ih => cases ih.2.2

/-- Something has happened when a cycle ends. -/
theorem Binder.Tells.events_ne_nil {policy : Policy} {task : TaskId} {b b' : Binder (Watcher ρ)}
    {phase : Phase (Fallible (Option Snapshot))} {events : List PollEvent} {calls : List Call}
    {next : Next} (h : b.Tells policy task phase events calls b' (some next)) : events ≠ [] := by
  cases h <;> exact List.cons_ne_nil _ _

/-- The state of a task at a stage. -/
def Stage.task (policy : Policy) (s : Stage ρ) : TaskState (Body (Watcher ρ)) :=
  match s.phase? with
  | some phase => .live (.poll 0 policy phase) false
  | none => .ended

/-- Whether a run has nothing but one task at a stage with its binder, which is free when the
task looks for it. -/
structure Run.Lone (policy : Policy) (s : Stage ρ) (r : Run (Watcher ρ) (Watched σ)) : Prop where
  services : r.services = []
  binder : ∃ x, r.binders = [x] ∧ x.binder = s.binder ∧ x.lock.waiters = [] ∧
    ∀ phase, s.phase? = some phase → ¬ phase.Holds → x.lock.isFree = true
  tasks : r.executor.tasks = [s.task policy]
  unqueued : ∀ place, s.phase? ≠ some (.queued place)
  turns : ∀ t, r.executor.Awaits t → t = 0

/-- Whether besides the task has a turn coming if it has something to do. -/
structure Run.Alone (policy : Policy) (s : Stage ρ) (r : Run (Watcher ρ) (Watched σ)) : Prop
    extends Run.Lone policy s r where
  awaits : ∀ phase, s.phase? = some phase → ¬ phase.Waits → r.executor.Awaits 0

/-- Other parts of the run do not matter. -/
theorem Run.Alone.of_same {policy : Policy} {s : Stage ρ} {r r' : Run (Watcher ρ) (Watched σ)}
    (h : r.Alone policy s) (hservices : r'.services = r.services)
    (hbinders : r'.binders = r.binders) (hexecutor : r'.executor = r.executor) :
    r'.Alone policy s := by
  obtain ⟨⟨hnone, hbinder, htasks, hunqueued, hturns⟩, hawaits⟩ := h
  rw [← hservices] at hnone
  rw [← hbinders] at hbinder
  rw [← hexecutor] at htasks hturns hawaits
  exact ⟨⟨hnone, hbinder, htasks, hunqueued, hturns⟩, hawaits⟩

/-- Waking a task gives a turn to no other one. -/
theorem Executor.awaits_of_wake {β : Type} {e : Executor β} {id t : TaskId}
    (h : (e.wake id).Awaits t) : e.Awaits t ∨ t = id := by
  unfold wake at h
  split at h
  · rcases h with h | h
    · rcases List.mem_append.mp h with h | h
      · exact .inl (.inl h)
      · exact .inr (List.mem_singleton.mp h)
    · exact .inl (.inr h)
  · exact .inl h

/-- A lock that nobody waits for is free once it was let go. -/
theorem Lock.release_of_idle {l : Lock} (h : l.waiters = []) :
    l.release = (none, { l with holder := none }) := by
  unfold release wakeFirst
  rw [h]

namespace Run

variable {policy : Policy} {s : Stage ρ} {r r' r'' : Run (Watcher ρ) (Watched σ)}
  {b : Binder (Watcher ρ)} {phase : Phase (Fallible (Option Snapshot))}
  {events more : List PollEvent}

theorem Lone.live? (h : r.Lone policy ⟨b, some phase⟩) :
    r.executor.live? 0 = some (.poll 0 policy phase, false) := by
  rw [Executor.live?, h.tasks]
  rfl

theorem Lone.live?_ended (h : r.Lone policy ⟨b, none⟩) (t : TaskId) :
    r.executor.live? t = none := by
  rw [Executor.live?, h.tasks]
  cases t <;> rfl

theorem Lone.live?_ne (h : r.Lone policy s) {t : TaskId} (ht : t ≠ 0) :
    r.executor.live? t = none := by
  rw [Executor.live?, h.tasks]
  cases t with
  | zero => exact absurd rfl ht
  | succ t => rfl

/-- The task has ended if and only if it is in no phase. -/
theorem Lone.hasEnded_iff (h : r.Lone policy s) :
    r.executor.hasEnded 0 = true ↔ s.phase? = none := by
  rw [Executor.hasEnded, h.tasks, Stage.task]
  cases s.phase? <;> simp

theorem Lone.ne_queued (h : r.Lone policy ⟨b, some phase⟩) (place : Nat) :
    phase ≠ .queued place :=
  fun hplace => h.unqueued place (congrArg some hplace)

/-- There is no service that could do anything. -/
theorem Alone.service? (h : r.Alone policy s) : r.services[0]? = none := by
  rw [h.services]
  rfl

theorem start_alone (x : Solo (Watcher ρ) (Watched σ)) :
    x.start.Alone x.policy ⟨x.binder, some .start⟩ := by
  refine ⟨⟨rfl, ⟨_, rfl, rfl, rfl, fun _ _ _ => rfl⟩, rfl, nofun, fun t ht => ?_⟩,
    fun _ _ _ => .inr List.mem_cons_self⟩
  rcases ht with hready | hfresh
  · exact absurd hready List.not_mem_nil
  · exact List.mem_singleton.mp hfresh

/-- `r.Walks policy s events r'`: from a stage of its only task, a run goes on to another run
of that kind as the events tell. -/
def Walks (policy : Policy) (s : Stage ρ) (r : Run (Watcher ρ) (Watched σ))
    (events : List PollEvent) (r' : Run (Watcher ρ) (Watched σ)) : Prop :=
  ∃ t new, r'.Alone policy t ∧ r'.world.calls = r.world.calls ++ new ∧
    s.Strides policy events new t

theorem Walks.bind (h : r.Walks policy s events r')
    (k : ∀ t, r'.Alone policy t → r'.Walks policy t more r'') :
    r.Walks policy s (events ++ more) r'' := by
  obtain ⟨t, new, halone, hcalls, hstrides⟩ := h
  obtain ⟨u, new', halone', hcalls', hstrides'⟩ := k t halone
  exact ⟨u, new ++ new', halone', by rw [hcalls', hcalls, List.append_assoc],
    hstrides.trans hstrides'⟩

/-- A run in which the task stays where it is. -/
theorem Walks.still (halone : r'.Alone policy s) (hcalls : r'.world.calls = r.world.calls) :
    r.Walks policy s [] r' :=
  ⟨s, [], halone, hcalls.trans (List.append_nil _).symm, .refl⟩

/-- An ended task is not resumed, nor is one that does not exist. -/
theorem resume_of_not_live {change : Body (Watcher ρ) → Body (Watcher ρ)} {id : TaskId}
    (h : r.executor.live? id = none) : r.resume change id = r := by
  unfold Run.resume
  rw [h]

/-- The task goes on in another phase and has a turn coming. -/
theorem Lone.resume {change : Body (Watcher ρ) → Body (Watcher ρ)}
    {phase' : Phase (Fallible (Option Snapshot))} (h : r.Lone policy ⟨b, some phase⟩)
    (hchange : change (.poll 0 policy phase) = .poll 0 policy phase')
    (hholds : phase.Holds → phase'.Holds) (hunqueued : ∀ place, phase' ≠ .queued place) :
    (r.resume change 0).Alone policy ⟨b, some phase'⟩ := by
  obtain ⟨x, hx, hxb, hwaiters, hfree⟩ := h.binder
  have hlive := h.live?
  unfold Run.resume
  rw [hlive]
  dsimp only
  rw [hchange, setBody, wake_eq, Executor.rouse, Executor.setBody_eq hlive]
  refine ⟨⟨h.services, ⟨x, hx, hxb, hwaiters, fun new hnew hfreed => ?_⟩, ?_,
    fun place hplace => ?_, fun t ht => ?_⟩, fun _ _ _ => ?_⟩
  · obtain rfl := Option.some.inj hnew
    exact hfree phase rfl fun hheld => hfreed (hholds hheld)
  · rw [Executor.tasks_wake, Executor.setTask, h.tasks]
    rfl
  · exact hunqueued place (Option.some.inj hplace)
  · rcases Executor.awaits_of_wake ht with ht | ht
    · exact h.turns t ht
    · exact ht
  · apply Executor.awaits_wake_self
    have hset : (r.executor.setTask 0 (.live (.poll 0 policy phase') false)).live? 0 =
        some (.poll 0 policy phase', false) := by
      rw [Executor.live?_setTask (Executor.lt_of_live? hlive), if_pos rfl]
    exact Executor.isLive_of_live? hset

theorem Lone.awakens (h : r.Lone policy ⟨b, some phase⟩) :
    (r.resume awakened 0).Alone policy ⟨b, some phase.awakened⟩ := by
  apply h.resume
  · cases phase <;> rfl
  · cases phase <;> exact id
  · cases phase <;> first | exact h.ne_queued | exact fun _ => nofun

theorem Lone.hears (h : r.Lone policy ⟨b, some phase⟩) :
    (r.resume answered 0).Alone policy ⟨b, some phase.delivered⟩ := by
  apply h.resume
  · cases phase <;> rfl
  · cases phase <;> exact id
  · cases phase <;> first | exact h.ne_queued | exact fun _ => nofun

/-- The end of a sleep, or an answer that is released, leads the task to its next phase. -/
theorem Alone.resume_walks {change : Body (Watcher ρ) → Body (Watcher ρ)} (h : r.Alone policy s)
    (hchange : change = awakened ∨ change = answered) (id : TaskId) :
    r.Walks policy s [] (r.resume change id) := by
  by_cases hid : id = 0
  · subst hid
    obtain ⟨b, phase?⟩ := s
    cases phase? with
    | none =>
      rw [resume_of_not_live (h.live?_ended 0)]
      exact .still h rfl
    | some phase =>
      have hcalls : (r.resume change 0).world.calls = r.world.calls ++ [] := by
        rw [(r.resume_page change 0).1, List.append_nil]
      rcases hchange with rfl | rfl
      · exact ⟨_, [], h.awakens, hcalls, .awakens .refl⟩
      · exact ⟨_, [], h.hears, hcalls, .hears .refl⟩
  · rw [resume_of_not_live (h.live?_ne hid)]
    exact .still h rfl

theorem Alone.resumes_walk {change : Body (Watcher ρ) → Body (Watcher ρ)} (h : r.Alone policy s)
    (hchange : change = awakened ∨ change = answered) (ids : List TaskId) :
    r.Walks policy s [] (ids.foldl (resume change) r) ∧
      (ids.foldl (resume change) r).binders = r.binders := by
  induction ids generalizing r s with
  | nil => exact ⟨.still h rfl, rfl⟩
  | cons id rest ih =>
    obtain ⟨t, new, hresumed, hcalls, hstrides⟩ := h.resume_walks hchange id
    obtain ⟨hwalks, hbinders⟩ := ih hresumed
    refine ⟨?_, hbinders.trans (r.resume_page change id).2.2⟩
    exact Walks.bind ⟨t, new, hresumed, hcalls, hstrides⟩ fun u hu => (ih hu).1

theorem Alone.enroll (h : r.Alone policy s) :
    Run.Alone policy s { r with executor := r.executor.enroll } := by
  have hsame (t : TaskId) : r.executor.enroll.Awaits t ↔ r.executor.Awaits t := by
    simp [Executor.Awaits, Executor.enroll]
  refine ⟨⟨h.services, h.binder, h.tasks, h.unqueued, fun t ht => ?_⟩,
    fun phase hphase hbusy => ?_⟩
  · exact h.turns t ((hsame t).mp ht)
  · exact (hsame 0).mpr (h.awaits phase hphase hbusy)

/-- A task that has come to where it has to wait, or to its end. -/
theorem Lone.rests {t : Stage ρ} {x : Shared (Watcher ρ)} (h : r.Lone policy s)
    (hservices : r'.services = r.services) (hbinders : r'.binders = [x])
    (hx : x.binder = t.binder) (hwaiters : x.lock.waiters = [])
    (hfree : ∀ phase, t.phase? = some phase → ¬ phase.Holds → x.lock.isFree = true)
    (hexecutor : r'.executor = r.executor.setTask 0 (t.task policy))
    (hwaits : ∀ phase, t.phase? = some phase → phase.Waits) : r'.Alone policy t := by
  refine ⟨⟨hservices.trans h.services, ⟨x, hbinders, hx, hwaiters, hfree⟩, ?_,
    fun place hplace => hwaits _ hplace, fun t ht => ?_⟩,
    fun phase hphase hbusy => absurd (hwaits phase hphase) hbusy⟩
  · rw [hexecutor, Executor.setTask, h.tasks]
    rfl
  · rw [hexecutor] at ht
    exact h.turns t ht

/-! ### Turns -/

section

variable [Host ρ σ]

/-- A turn of the task leads it to where it has to wait, or to its end, and something has
happened if it had something to do. -/
theorem Lone.turn_walks (h : r.Lone policy s) :
    r.Walks policy s (r.eventsOf 0) (r.turn 0) ∧
      ∀ phase, s.phase? = some phase → ¬ phase.Waits → r.eventsOf 0 ≠ [] := by
  obtain ⟨b, phase?⟩ := s
  cases phase? with
  | none =>
    have hturn : r.turn 0 = r := by rw [turn, h.live?_ended 0]
    have hevents : r.eventsOf 0 = [] := by rw [eventsOf, h.live?_ended 0]
    rw [hturn, hevents]
    refine ⟨.still ⟨h, ?_⟩ rfl, ?_⟩ <;> rintro _ ⟨⟩
  | some phase =>
    obtain ⟨x, hbinders, rfl, hwaiters, hfree⟩ := h.binder
    have hx : r.binders[0]? = some x := by rw [hbinders]; rfl
    have hset (x' : Shared (Watcher ρ)) : r.binders.set 0 x' = [x'] := by rw [hbinders]; rfl
    have hturn : r.turn 0 = r.pollTurn 0 0 policy phase := by rw [turn, h.live?]
    have hevents : r.eventsOf 0 = r.eventsAt 0 policy x phase := by
      rw [eventsOf, h.live?]
      dsimp only
      rw [hx]
    have hcases : PollTurn r 0 0 policy x phase (r.pollTurn 0 0 policy phase) :=
      pollTurn_cases hx phase
    rw [hturn, hevents]
    generalize r.pollTurn 0 0 policy phase = r' at hcases
    cases hcases with
    | @idle phase hwaits =>
      have hnothing : r.eventsAt 0 policy x phase = [] := by
        cases phase <;> first | rfl | exact hwaits.elim
      have hsame (phase') (hphase : some phase = some phase') : phase'.Waits :=
        Option.some.inj hphase ▸ hwaits
      rw [hnothing]
      exact ⟨.still ⟨h, fun phase' hphase hbusy => absurd (hsame phase' hphase) hbusy⟩ rfl,
        fun phase' hphase hbusy => absurd (hsame phase' hphase) hbusy⟩
    | joins hbusy =>
      rw [hfree .start rfl not_false] at hbusy
      contradiction
    | @waits place _ => exact absurd rfl (h.ne_queued place)
    | @asks _ key answer y w hseeks hlock hbegin =>
      obtain ⟨hevents, first, hopens, hnew⟩ := eventsAt_asks hseeks hlock hbegin 0 policy
      cases phase with
      | start =>
        rw [hevents]
        refine ⟨⟨⟨y, some (.waiting answer)⟩, _, ?_, hnew, .asks .refl hopens⟩,
          fun _ _ _ => List.cons_ne_nil _ _⟩
        refine h.rests rfl (hset _) rfl hwaiters ?_ (Executor.setBody_eq h.live?) ?_
        · rintro _ ⟨⟩ hfreed
          exact absurd trivial hfreed
        · rintro _ ⟨⟩
          trivial
      | queued place => exact absurd rfl (h.ne_queued place)
      | waiting => exact hseeks.elim
      | answered => exact hseeks.elim
      | sleeping => exact hseeks.elim
    | @ends _ y outcome w hends =>
      obtain ⟨new, hnew, htells⟩ := hends.tells 0 policy
      have hlock : phase.vacated x.lock = x.lock := by
        cases phase <;> first | rfl | exact absurd rfl (h.ne_queued _)
      refine ⟨⟨⟨y, (policy.next y.view outcome y.anchorSeen).phase?⟩, new, ?_, ?_,
        .ends .refl htells⟩, fun _ _ _ => htells.events_ne_nil⟩
      · unfold ended
        rw [hlock, Lock.release_of_idle hwaiters, hset]
        dsimp only [Executor.rouse]
        cases policy.next y.view outcome y.anchorSeen with
        | after delay =>
          refine h.rests rfl rfl rfl hwaiters (fun _ _ _ => rfl) (Executor.setBody_eq h.live?) ?_
          rintro _ ⟨⟩
          trivial
        | stop =>
          refine h.rests rfl rfl rfl hwaiters (fun _ _ _ => rfl) rfl ?_
          rintro _ ⟨⟩
      · rw [(r.ended_page 0 0 policy x (phase.vacated x.lock) y outcome w).1, hnew]

theorem Alone.next?_walks (h : r.Alone policy s) (hnext : r.next? = some r') :
    r.Walks policy s r.turnEvents r' ∧
      ∀ phase, s.phase? = some phase → ¬ phase.Waits → r.turnEvents ≠ [] := by
  unfold next? at hnext
  obtain ⟨⟨id, executor⟩, hpop, rfl⟩ := Option.map_eq_some_iff.mp hnext
  obtain ⟨rest, hready, rfl⟩ := Executor.next?_eq_some_iff.mp hpop
  obtain rfl : id = 0 := h.turns id (.inl (by rw [hready]; exact List.mem_cons_self))
  have hpopped : Run.Lone policy s { r with executor := { r.executor with ready := rest } } := by
    refine ⟨h.services, h.binder, h.tasks, h.unqueued, fun t ht => h.turns t ?_⟩
    refine ht.imp_left fun hmem => ?_
    rw [hready]
    exact List.mem_cons_of_mem 0 hmem
  rw [turnEvents, hpop]
  exact hpopped.turn_walks

theorem Alone.settle_walks (h : r.Alone policy s) (n : Nat) :
    r.Walks policy s (settleEvents n r) (settle next? n r) := by
  induction n generalizing r s with
  | zero => exact .still h rfl
  | succ n ih =>
    unfold settleEvents settle
    cases hnext : r.next? with
    | none => exact .still h rfl
    | some r' => exact (h.next?_walks hnext).1.bind fun t ht => ih ht

/-- Once new tasks are queued, something happens if the task has something to do. -/
theorem Alone.settleEvents_ne_nil {phase : Phase (Fallible (Option Snapshot))}
    (h : r.Alone policy s) (hfresh : r.executor.fresh = []) (hphase : s.phase? = some phase)
    (hbusy : ¬ phase.Waits) {n : Nat} (hn : n ≠ 0) : settleEvents n r ≠ [] := by
  obtain ⟨n, rfl⟩ := Nat.exists_eq_succ_of_ne_zero hn
  have hready : 0 ∈ r.executor.ready := by
    rcases h.awaits phase hphase hbusy with hready | hfresh'
    · exact hready
    · rw [hfresh] at hfresh'
      contradiction
  unfold settleEvents
  cases hnext : r.next? with
  | none =>
    rw [ready_of_next?_none hnext] at hready
    contradiction
  | some r' =>
    intro hnothing
    exact (h.next?_walks hnext).2 phase hphase hbusy (List.append_eq_nil_iff.mp hnothing).1

end

end Run

/-! ### Acts -/

section

variable [Host ρ σ] {policy : Policy} {s : Stage ρ} {r : Run (Watcher ρ) (Watched σ)}

/-- An act without turns makes no binders, and at most wakes the task. -/
theorem Act.rouses (h : r.Alone policy s) {act : Act σ} (hturn : act ≠ .turn) (hrun : act ≠ .run) :
    r.Walks policy s [] (act.watched.step r) ∧ (act.watched.step r).binders = r.binders := by
  have hidle (hsame : act.watched.step r = r) : r.Walks policy s [] (act.watched.step r) ∧
      (act.watched.step r).binders = r.binders := by
    rw [hsame]
    exact ⟨.still h rfl, rfl⟩
  have hforgot : Run.Alone policy s { r with sleepers := [] } := h.of_same rfl rfl rfl
  cases act with
  | start => exact hidle (by unfold watched step Run.start; rw [h.service?])
  | startView v => exact hidle (by unfold watched step Run.startView; rw [h.service?])
  | selectPage page => exact hidle (by unfold watched step Run.selectPage; rw [h.service?])
  | stop key => exact hidle (by unfold watched step Run.stopTask; rw [h.service?])
  | stopAll => exact hidle (by unfold watched step Run.stopAll; rw [h.service?])
  | enroll => exact ⟨.still h.enroll rfl, rfl⟩
  | turn => exact absurd rfl hturn
  | awaken id => exact h.resumes_walk (.inl rfl) [id]
  | deliver id => exact h.resumes_walk (.inr rfl) [id]
  | fire => exact hforgot.resumes_walk (.inl rfl) _
  | release key =>
    have hunheld : Run.Alone policy s { r with held := r.held.filter (·.1 ≠ key) } :=
      h.of_same rfl rfl rfl
    exact hunheld.resumes_walk (.inr rfl) _
  | run => exact absurd rfl hrun
  | change f => exact ⟨.still (h.of_same rfl rfl rfl) rfl, rfl⟩

/-- Whatever happens to a page on which one task is alone, the task goes on as the events tell. -/
theorem Act.walks (h : r.Alone policy s) (act : Act σ) :
    r.Walks policy s (act.watched.events r) (act.watched.step r) := by
  by_cases hturn : act = .turn
  · subst hturn
    show r.Walks policy s r.turnEvents (r.next?.getD r)
    cases hnext : r.next? with
    | some r' => exact (h.next?_walks hnext).1
    | none =>
      have hevents : r.turnEvents = [] := by
        unfold Run.next? at hnext
        rw [Option.map_eq_none_iff] at hnext
        rw [Run.turnEvents, hnext]
      rw [hevents]
      exact .still h rfl
  · by_cases hrun : act = .run
    · subst hrun
      exact h.enroll.settle_walks r.executor.turns
    · obtain ⟨hwalks, hbinders⟩ := act.rouses h hturn hrun
      have hevents : act.watched.events r = ((act.watched.step r).binders.drop
          r.binders.length).map Shared.made := by
        cases act <;> first | rfl | contradiction
      rw [hevents, hbinders, List.drop_length]
      exact hwalks

namespace Run

theorem history_append (acts more : List (Act (Watched σ))) :
    r.history (acts ++ more) = r.history acts ++ (r.after acts).history more := by
  induction acts generalizing r with
  | nil => rfl
  | cons act rest ih =>
    show act.events r ++ (act.step r).history (rest ++ more) = _
    rw [ih, ← List.append_assoc]
    rfl

theorem Alone.after_walks (h : r.Alone policy s) (acts : List (Act σ)) :
    r.Walks policy s (r.history (acts.map Act.watched)) (r.after (acts.map Act.watched)) := by
  induction acts generalizing r s with
  | nil => exact .still h rfl
  | cons act rest ih => exact (act.walks h).bind fun t ht => ih ht

/-- Whatever a task waits for, it goes on once it is there. -/
def urged : List (Act σ) :=
  [.deliver 0, .awaken 0, .run]

theorem Alone.goes_on {b : Binder (Watcher ρ)} {phase : Phase (Fallible (Option Snapshot))}
    (h : r.Alone policy ⟨b, some phase⟩) : r.history (urged.map Act.watched) ≠ [] := by
  have hurged := (h.hears.awakens).enroll
  have hbusy : ¬ phase.delivered.awakened.Waits := by cases phase <;> exact id
  have hsettles := hurged.settleEvents_ne_nil rfl rfl hbusy
    (n := (resume awakened (r.resume answered 0) 0).executor.turns) (Nat.succ_ne_zero _)
  intro hnothing
  apply hsettles
  obtain ⟨-, hlater⟩ := List.append_eq_nil_iff.mp hnothing
  obtain ⟨-, hlast⟩ := List.append_eq_nil_iff.mp hlater
  exact (List.append_eq_nil_iff.mp hlast).1

end Run

end

end WalletPage
