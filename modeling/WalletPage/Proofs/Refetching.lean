import WalletPage.Proofs.PageFrames
import WalletPage.Proofs.PollHistory
import WalletPage.Proofs.SelectedPages
import WalletPage.Proofs.ServiceRosters
import WalletPage.Proofs.WakeUps

/-! A selection asks again at once. The task that the last selection of a page starts looks
for its binder until it has asked, and it asks once. Other tasks that go on poll other views,
and those that were told to stop ask for nothing. When no turn is left the task has asked,
since no wake-up is lost. -/

namespace WalletPage

variable {ρ σ : Type}

/-! ### Requests for the history -/

/-- The requests for the history in a record, in order. -/
def historyRequests (calls : List Call) : List Request :=
  (calls.filterMap Call.inquiry?).map (·.1)

theorem historyRequests_append (calls more : List Call) :
    historyRequests (calls ++ more) = historyRequests calls ++ historyRequests more := by
  rw [historyRequests, List.filterMap_append, List.map_append]
  rfl

theorem historyRequests_of_none {calls : List Call} (h : ∀ c ∈ calls, c.inquiry? = none) :
    historyRequests calls = [] := by
  rw [historyRequests, List.filterMap_eq_nil_iff.mpr h]
  rfl

theorem historyRequests_append_of_none (calls : List Call) {more : List Call}
    (h : ∀ c ∈ more, c.inquiry? = none) :
    historyRequests (calls ++ more) = historyRequests calls := by
  rw [historyRequests_append, historyRequests_of_none h, List.append_nil]

namespace Binder.Opens

variable {b b' : Binder ρ} {first : List Call} (h : b.Opens b' first) (page : Option PageNumber)
  (reply : Reply (Fallible (Option Snapshot)))

include h

theorem historyRequests_asked (hv : b.view = .txHistory) :
    historyRequests (first ++ [.asked (b.request page) reply]) = [b.request page] := by
  rw [historyRequests_append, historyRequests_of_none fun c hc => (h.calls c hc).inquiry?]
  simp [historyRequests, Call.inquiry?, Binder.request, hv]

theorem historyRequests_other (hv : b.view ≠ .txHistory) :
    historyRequests (first ++ [.asked (b.request page) reply]) = [] := by
  refine historyRequests_of_none fun c hc => ?_
  rcases List.mem_append.mp hc with hc | hc
  · exact (h.calls c hc).inquiry?
  · rw [List.mem_singleton.mp hc]
    exact if_neg hv

end Binder.Opens

namespace Run

variable {r r' : Run (Watcher ρ) (Watched σ)} {s : Service (Watcher ρ)} {id t : TaskId}
  {b : BinderId} {policy : Policy} {x : Shared (Watcher ρ)}
  {phase : Phase (Fallible (Option Snapshot))}

/-! ### One turn -/

/-- Whether a task does not look for a binder, in whatever state it is. -/
def Calm (r : Run (Watcher ρ) (Watched σ)) (t : TaskId) : Prop :=
  ∀ body isAborted, r.executor.live? t = some (body, isAborted) → ¬ body.Seeks

theorem calm_of_gone (h : r.executor.live? t = none) : r.Calm t := by
  intro body isAborted ht
  rw [h] at ht
  contradiction

theorem calm_of_live? {body : Body (Watcher ρ)} {isAborted : Bool}
    (h : r.executor.live? t = some (body, isAborted)) (hcalm : ¬ body.Seeks) : r.Calm t := by
  intro body' isAborted' ht
  rw [h] at ht
  cases ht
  exact hcalm

/-- Whether a task that goes on looks for a binder. -/
def Looks (r : Run (Watcher ρ) (Watched σ)) (t : TaskId) (b : BinderId) : Prop :=
  ∃ policy phase, phase.Seeks ∧ r.executor.live? t = some (.poll b policy phase, false)

variable [Host ρ σ]

theorem ended_calm (hid : r.executor.live? id = some (.poll b policy phase, false)) (lock : Lock)
    (c : Binder (Watcher ρ)) (outcome : Outcome) (w : Watched σ) :
    (r.ended id b policy x lock c outcome w).Calm id := by
  rcases ended_executor r id b policy x lock c outcome w with hsleeps | hdone
  · have hself : (r.ended id b policy x lock c outcome w).executor.live? id =
        some (.poll b policy .sleeping, false) := by
      rw [hsleeps, Executor.live?_setBody (by rw [Executor.live?_rouse]; exact hid), if_pos rfl]
    exact calm_of_live? hself not_false
  · refine calm_of_gone ?_
    rw [hdone, Executor.live?_finish, if_pos rfl]

/-- What a cycle that ends in a turn asks for. -/
theorem CycleEnds.requests {c : Binder (Watcher ρ)} {outcome : Outcome} {w : Watched σ}
    (hends : CycleEnds r x phase c outcome w) :
    ∃ new, w.calls = r.world.calls ++ new ∧
      (¬ phase.Seeks ∨ x.binder.view ≠ .txHistory → historyRequests new = []) ∧
      (phase.Seeks → x.binder.view = .txHistory →
        ((Host.anchorPresent x.binder.access x.binder.view.anchor).run r.world).1 = true →
        historyRequests new = [x.binder.request (r.selected x.selection)]) := by
  have hlooks := x.binder.begin_looks (r.selected x.selection) r.world
  have hbegun := emits_begin x.binder (r.selected x.selection) r.world
  cases hends with
  | absent hseeks hfree hbegin =>
    rw [hbegin] at hbegun hlooks
    obtain ⟨new, hcalls, rfl, -⟩ := hbegun
    refine ⟨[], hcalls, fun _ => rfl, fun _ _ hfound => ?_⟩
    rw [hlooks] at hfound
    contradiction
  | @ready _ c _ answer _ w₁ _ hseeks hfree hbegin hfinish =>
    rw [hbegin] at hbegun
    obtain ⟨new, hcalls, first, rfl, hopens⟩ := hbegun
    obtain ⟨more, hmore, huses⟩ := emits_finish c answer w₁
    rw [hfinish] at hmore
    have hno : ∀ d ∈ more, d.inquiry? = none := fun d hd => (huses d hd).inquiry?
    refine ⟨first ++ [.asked (x.binder.request (r.selected x.selection)) (.ready answer)] ++ more,
      ?_, fun hother => ?_, fun _ hv _ => ?_⟩
    · rw [← List.append_assoc, ← hcalls]
      exact hmore
    · rw [historyRequests_append_of_none _ hno]
      exact hopens.historyRequests_other _ _ (hother.resolve_left (not_not_intro hseeks))
    · rw [historyRequests_append_of_none _ hno]
      exact hopens.historyRequests_asked _ _ hv
  | @answered answer _ _ _ hfinish =>
    obtain ⟨more, hmore, huses⟩ := emits_finish x.binder answer r.world
    rw [hfinish] at hmore
    exact ⟨more, hmore, fun _ => historyRequests_of_none fun d hd => (huses d hd).inquiry?,
      fun hseeks => hseeks.elim⟩

/-- What comes of the turn of a polling task: it waits on for its binder, or it is through with
looking for it, and has asked if it was the history's task and found the anchor. -/
theorem PollTurn.requests (hid : r.executor.live? id = some (.poll b policy phase, false))
    (hturn : PollTurn r id b policy x phase r') :
    ∃ new, r'.world.calls = r.world.calls ++ new ∧
      (phase.Seeks ∧ historyRequests new = [] ∧ r'.Looks id b ∨
        r'.Calm id ∧
          (¬ phase.Seeks ∨ x.binder.view ≠ .txHistory → historyRequests new = []) ∧
          (phase.Seeks → x.binder.view = .txHistory →
            ((Host.anchorPresent x.binder.access x.binder.view.anchor).run r.world).1 = true →
            historyRequests new = [x.binder.request (r.selected x.selection)])) := by
  cases hturn with
  | idle hwaits =>
    have hcalm : ¬ phase.Seeks := by
      cases phase <;> first | exact hwaits.elim | exact not_false
    exact ⟨[], (List.append_nil _).symm, .inr ⟨calm_of_live? hid hcalm, fun _ => rfl,
      fun hseeks => absurd hseeks hcalm⟩⟩
  | joins hbusy =>
    exact ⟨[], (List.append_nil _).symm, .inl ⟨trivial, rfl, policy, .queued (x.lock.join id).1,
      trivial, (Executor.live?_setBody hid id).trans (if_pos rfl)⟩⟩
  | @waits place hbusy =>
    exact ⟨[], (List.append_nil _).symm, .inl ⟨trivial, rfl, policy, .queued place, trivial, hid⟩⟩
  | asks hseeks hfree hbegin =>
    have hbegun := emits_begin x.binder (r.selected x.selection) r.world
    rw [hbegin] at hbegun
    obtain ⟨new, hcalls, first, rfl, hopens⟩ := hbegun
    refine ⟨_, hcalls, .inr ⟨?_, fun hno => ?_, fun _ hv _ => ?_⟩⟩
    · exact calm_of_live? ((Executor.live?_setBody hid id).trans (if_pos rfl)) not_false
    · exact hopens.historyRequests_other _ _ (hno.resolve_left (not_not_intro hseeks))
    · exact hopens.historyRequests_asked _ _ hv
  | @ends phase c outcome w hends =>
    obtain ⟨new, hcalls, hasked⟩ := hends.requests
    obtain ⟨slept, hslept, hrest⟩ := emits_rest c policy outcome w
    have hno : ∀ d ∈ slept, d.inquiry? = none := by
      intro d hd
      obtain ⟨delay, rfl⟩ := hrest d hd
      rfl
    refine ⟨new ++ slept, ?_, .inr ⟨ended_calm hid _ _ _ _, ?_⟩⟩
    · rw [(r.ended_page id b policy x (phase.vacated x.lock) c outcome w).1, hslept, hcalls,
        List.append_assoc]
    · rwa [historyRequests_append_of_none _ hno]

/-- The turn of a task leaves other tasks as they are. -/
theorem Turned.live?_ne (hturned : Turned r id r') (ht : t ≠ id) :
    r'.executor.live? t = r.executor.live? t := by
  cases hturned with
  | gone => rfl
  | @disposes body hid =>
    obtain ⟨woken, hdisposed⟩ := dispose_executor r body
    show ((r.dispose body).executor.finish id).live? t = _
    rw [hdisposed]
    exact (Executor.changes_finish r.executor id woken).other t ht
  | @polls _ b policy x phase hx hid hturn =>
    cases hturn with
    | idle => rfl
    | joins => exact (Executor.changes_setBody hid none _).other t ht
    | waits => rfl
    | asks => exact (Executor.changes_setBody hid none _).other t ht
    | ends => exact ended_live?_ne hid ht
  | @beats access interval phase hid =>
    rcases heartbeatTurn_cases r id access interval phase with hsame | ⟨_, _, _, phase', hbeats⟩
    · rw [hsame]
    · rw [hbeats]
      exact (Executor.changes_setBody hid none _).other t ht

/-! ### A task that asks once -/

/-- Whether a task has asked for the history once since some calls, and is through with looking
for its binder, or is still to ask; and nobody else has asked. -/
def AsksOnce (r : Run (Watcher ρ) (Watched σ)) (before : List Call) (q : Request) (t : TaskId)
    (b : BinderId) : Prop :=
  ∃ new, r.world.calls = before ++ new ∧
    (historyRequests new = [] ∧ r.Looks t b ∨ historyRequests new = [q] ∧ r.Calm t)

variable {before : List Call} {q : Request} {page : Option PageNumber}

omit [Host ρ σ] in
/-- Nothing is asked for, and the task does neither give up its search nor begin one. -/
theorem AsksOnce.quiet (h : r.AsksOnce before q t b) {new : List Call}
    (hcalls : r'.world.calls = r.world.calls ++ new) (hnone : historyRequests new = [])
    (hlooks : r.Looks t b → r'.Looks t b) (hcalm : r.Calm t → r'.Calm t) :
    r'.AsksOnce before q t b := by
  obtain ⟨first, hfirst, hasked⟩ := h
  refine ⟨first ++ new, by rw [hcalls, hfirst, List.append_assoc], ?_⟩
  rw [historyRequests_append, hnone, List.append_nil]
  exact hasked.imp (And.imp_right hlooks) (And.imp_right hcalm)

omit [Host ρ σ] in
theorem AsksOnce.other (h : r.AsksOnce before q t b) {new : List Call}
    (hcalls : r'.world.calls = r.world.calls ++ new) (hnone : historyRequests new = [])
    (hsame : r'.executor.live? t = r.executor.live? t) : r'.AsksOnce before q t b := by
  refine h.quiet hcalls hnone ?_ ?_
  · unfold Looks
    rw [hsame]
    exact fun hlooks => hlooks
  · unfold Calm
    rw [hsame]
    exact fun hcalm => hcalm

/-- The turn of the task itself. -/
theorem PollTurn.asksOnce {c : BinderId}
    (hid : r.executor.live? t = some (.poll c policy phase, false))
    (hturn : PollTurn r t c policy x phase r') (h : r.AsksOnce before q t b)
    (hlooks : c = b → x.binder.view = .txHistory ∧
      ((Host.anchorPresent x.binder.access x.binder.view.anchor).run r.world).1 = true ∧
      x.binder.request (r.selected x.selection) = q) : r'.AsksOnce before q t b := by
  obtain ⟨first, hfirst, hasked⟩ := h
  obtain ⟨new, hcalls, hnew⟩ := hturn.requests hid
  refine ⟨first ++ new, by rw [hcalls, hfirst, List.append_assoc], ?_⟩
  rw [historyRequests_append]
  rcases hasked with ⟨hnone, policy', phase', hseeks, hlive⟩ | ⟨hone, hcalm⟩
  · rw [hid] at hlive
    cases hlive
    obtain ⟨hview, hfound, rfl⟩ := hlooks rfl
    rw [hnone, List.nil_append]
    rcases hnew with ⟨-, hwaits, hlooks⟩ | ⟨hcalm, -, hasks⟩
    · exact .inl ⟨hwaits, hlooks⟩
    · exact .inr ⟨hasks hseeks hview hfound, hcalm⟩
  · have hdone : ¬ phase.Seeks := hcalm _ _ hid
    rcases hnew with ⟨hseeks, -⟩ | ⟨hcalm', hno, -⟩
    · exact absurd hseeks hdone
    · rw [hno (.inl hdone), List.append_nil]
      exact .inr ⟨hone, hcalm'⟩

/-- A turn, while the history's anchor is mounted: no task but that of the registry asks for the
history. -/
theorem Turned.asksOnce (hturned : Turned r id r') (h : r.InOrder s (some id))
    (hb : s.binders.lookup .txHistory = some b)
    (ht : s.registry.task? (.view .txHistory s.session) = some t)
    (hfound : ((Host.anchorPresent s.access View.txHistory.anchor).run r.world).1 = true)
    (hpage : r.selected s.selection = page)
    (hasks : r.AsksOnce before ⟨.txHistory, s.session, page⟩ t b) :
    r'.AsksOnce before ⟨.txHistory, s.session, page⟩ t b := by
  have hother (hti : t ≠ id) := hturned.live?_ne hti
  cases hturned with
  | gone => exact hasks
  | @disposes body hid =>
    have hcalls : ((r.dispose body).finishTask id).world.calls = r.world.calls ++ [] := by
      rw [List.append_nil]
      exact congrArg Watched.calls (dispose_letsGo r body).world
    by_cases hti : t = id
    · subst hti
      refine hasks.quiet hcalls rfl (fun ⟨_, _, _, hlive⟩ => ?_) fun _ => calm_of_gone ?_
      · rw [hid] at hlive
        cases hlive
      · exact (Executor.live?_finish _ t t).trans (if_pos rfl)
    · exact hasks.other hcalls rfl (hother hti)
  | @polls _ c policy x phase hx hid hturn =>
    obtain ⟨hsession, haccess, hselection⟩ := h.orderly.own x (List.mem_of_getElem? hx)
    by_cases hti : t = id
    · subst hti
      refine hturn.asksOnce hid hasks fun hcb => ?_
      have hview : x.binder.view = .txHistory := h.orderly.view_of_lookup (hcb ▸ hb) hx
      refine ⟨hview, by rw [haccess, hview]; exact hfound, ?_⟩
      simp [Binder.request, hview, hsession, hselection, hpage, View.isPaged]
    · have hview : x.binder.view ≠ .txHistory := by
        intro hview
        have htask := h.orderly.registered_view hid hx
        rw [hview, ht] at htask
        exact hti (Option.some.inj htask)
      obtain ⟨new, hcalls, hnew⟩ := hturn.requests hid
      refine hasks.other hcalls ?_ (hother hti)
      rcases hnew with ⟨-, hnone, -⟩ | ⟨-, hnone, -⟩
      · exact hnone
      · exact hnone (.inr hview)
  | @beats access interval phase hid =>
    obtain ⟨new, hcalls, hnew⟩ := heartbeatTurn_calls (p := fun c => c.inquiry? = none)
      r id access interval phase (fun _ => rfl) rfl
    by_cases hti : t = id
    · subst hti
      refine hasks.quiet hcalls (historyRequests_of_none hnew) (fun ⟨_, _, _, hlive⟩ => ?_)
        fun _ => ?_
      · rw [hid] at hlive
        cases hlive
      rcases heartbeatTurn_cases r t access interval phase with hsame | ⟨_, _, _, phase', hbeats⟩
      · rw [hsame]
        exact calm_of_live? hid not_false
      · rw [hbeats]
        exact calm_of_live? ((Executor.live?_setBody hid t).trans (if_pos rfl)) not_false
    · exact hasks.other hcalls (historyRequests_of_none hnew) (hother hti)

/-! ### A run -/

/-- A run in which the history's task is still to ask: when no turn is left, it has. -/
theorem run_requests (h : r.InOrder s none) (ha : Attentive r.binders r.executor none)
    {mounted : Watched σ → Prop} (hkept : Endures (Watcher ρ) s.session mounted)
    (hfound : ∀ w, mounted w →
      ((Host.anchorPresent s.access View.txHistory.anchor).run w).1 = true)
    (hmounted : mounted r.world) (hb : s.binders.lookup .txHistory = some b)
    (ht : s.registry.task? (.view .txHistory s.session) = some t)
    (hpage : r.selected s.selection = page)
    (hasks : r.AsksOnce before ⟨.txHistory, s.session, page⟩ t b) :
    ∃ new, r.run.world.calls = before ++ new ∧
      historyRequests new = [⟨.txHistory, s.session, page⟩] := by
  let P (r : Run (Watcher ρ) (Watched σ)) : Prop :=
    Attentive r.binders r.executor none ∧ mounted r.world ∧ r.selected s.selection = page ∧
      r.AsksOnce before ⟨.txHistory, s.session, page⟩ t b
  have hstep (r r' : Run (Watcher ρ) (Watched σ)) (h : r.InOrder s none) (hr : P r)
      (hnext : r.next? = some r') : P r' := by
    obtain ⟨ha, hmounted, hpage, hasks⟩ := hr
    obtain ⟨id, executor, hpop, hpopped, hturned⟩ := next?_cases h hnext
    obtain ⟨rest, -, rfl⟩ := Executor.next?_eq_some_iff.mp hpop
    refine ⟨next?_attentive h ha hnext, ?_, ?_, ?_⟩
    · exact hkept.turned (fun x hx => (hpopped.orderly.own x hx).1) hturned hmounted
    · rw [← hpage]
      unfold selected
      rw [hturned.selections]
    · exact hturned.asksOnce hpopped hb ht (hfound _ hmounted) hpage hasks
  obtain ⟨⟨hend, hattentive, -, -, new, hcalls, hasked⟩, -⟩ :=
    run_rests (P := P) h ⟨enroll_attentive ha, hmounted, hpage, hasks⟩ hstep
  refine ⟨new, hcalls, ?_⟩
  rcases hasked with ⟨-, policy, phase, hseeks, hlive⟩ | ⟨hone, -⟩
  · obtain ⟨hready, hfresh⟩ := run_stalls h
    refine absurd hseeks (hend.orderly.not_seeks hattentive (fun u hu => ?_) hlive)
    rw [Executor.Awaits, hready, hfresh] at hu
    exact hu.elim List.not_mem_nil List.not_mem_nil
  · exact hone

/-! ### Selections -/

omit [Host ρ σ] in
/-- A start leads to a task that begins. -/
theorem startTask_started (hs : r.services = [s]) (hopen : r.executor.isClosed = false)
    (key : TaskKey) (body : Body (Watcher ρ)) :
    ∃ registry t, (r.startTask 0 key body).2.services = [{ s with registry }] ∧
      registry.task? key = some t ∧
      (r.startTask 0 key body).2.executor.live? t = some (body, false) := by
  have hstopped : (s.registry.stop r.executor key).2.2.isClosed = false :=
    (s.registry.isClosed_stop r.executor key).trans hopen
  obtain ⟨executor, hspawn⟩ := Executor.exists_spawn hstopped body
  obtain ⟨hexecutor, hregistry⟩ := s.registry.start_spawned r.executor key body hspawn
  rw [startTask_eq hs]
  refine ⟨_, _, rfl, (hregistry key).trans (if_pos rfl), ?_⟩
  dsimp only
  rw [hexecutor, Executor.live?_spawn hspawn, if_pos rfl]

theorem startView_started (hs : r.services = [s]) (hopen : r.executor.isClosed = false)
    (v : View) : ∃ s' t b policy, (r.startView 0 v).2.services = [s'] ∧
      s'.binders.lookup v = some b ∧ s'.registry.task? (.view v s.session) = some t ∧
      (r.startView 0 v).2.executor.live? t = some (.poll b policy .start, false) := by
  unfold startView
  rw [hs]
  dsimp only [List.getElem?_cons_zero]
  cases hb : s.binders.lookup v with
  | some b =>
    rw [binderFor_known hb]
    obtain ⟨registry, t, hs', ht, hlive⟩ := startTask_started hs hopen (.view v s.session)
      (.poll b s.config.policy .start)
    exact ⟨_, t, b, _, hs', hb, ht, hlive⟩
  | none =>
    rw [binderFor_new hs hb]
    obtain ⟨registry, t, hs', ht, hlive⟩ := startTask_started
      (r := { r with
        world := ((s.newBinder v).hydrate.run r.world).2
        binders := r.binders ++ [{
          binder := ((s.newBinder v).hydrate.run r.world).1.1, selection := s.selection }]
        services := [s.withBinder v r.binders.length] }) rfl hopen (.view v s.session)
      (.poll r.binders.length s.config.policy .start)
    exact ⟨_, t, _, _, hs', (lookup_concat hb _ v).trans (if_pos rfl), ht, hlive⟩

/-- A start asks for nothing itself. -/
theorem startView_quiet (hs : r.services = [s]) (v : View) :
    (r.startView 0 v).2.selections = r.selections ∧
      ∃ new, (r.startView 0 v).2.world.calls = r.world.calls ++ new ∧
        historyRequests new = [] := by
  unfold startView
  rw [hs]
  dsimp only [List.getElem?_cons_zero]
  cases hb : s.binders.lookup v with
  | some b =>
    rw [binderFor_known hb, startTask_eq hs]
    exact ⟨rfl, [], (List.append_nil _).symm, rfl⟩
  | none =>
    obtain ⟨new, shown, hcalls, -, hrecollects⟩ := (s.newBinder v).hydrate_recollects r.world
    have hrecalls := hrecollects.recalls
    rw [binderFor_new hs hb, startTask_eq rfl]
    exact ⟨rfl, new, hcalls, historyRequests_of_none fun c hc => (hrecalls c hc).inquiry?⟩

theorem selectPage_quiet (hs : r.services = [s]) (page : PageNumber) :
    ∃ new, (r.selectPage 0 page).2.world.calls = r.world.calls ++ new ∧
      historyRequests new = [] := by
  by_cases hpage : page = 0
  · rw [hpage, selectPage_zero hs]
    exact ⟨[], (List.append_nil _).symm, rfl⟩
  · rw [selectPage_eq hs hpage]
    exact (startView_quiet (r := r.turnedTo s page) hs .txHistory).2

/-- The selection of a page leaves the history with a task that is still to ask for it. -/
theorem selectPage_asksOnce (hs : r.services = [s]) (hopen : r.executor.isClosed = false)
    (hselection : s.selection < r.selections.length) {page : PageNumber} (hpage : page ≠ 0) :
    ∃ s' t b, (r.selectPage 0 page).2.services = [s'] ∧ s.Kin s' ∧
      s'.binders.lookup .txHistory = some b ∧
      s'.registry.task? (.view .txHistory s'.session) = some t ∧
      (r.selectPage 0 page).2.selected s'.selection = some page ∧
      ∀ q, (r.selectPage 0 page).2.AsksOnce r.world.calls q t b := by
  rw [selectPage_eq hs hpage]
  have hturned : (r.turnedTo s page).services = [s] := hs
  obtain ⟨s', t, b, policy, hs', hb, ht, hlive⟩ := startView_started hturned hopen .txHistory
  obtain ⟨hselections, new, hcalls, hnone⟩ := startView_quiet hturned .txHistory
  obtain ⟨s'', hs'', hkin⟩ := startView_serves hturned .txHistory
  obtain rfl : s'' = s' := List.singleton_inj.mp (hs''.symm.trans hs')
  refine ⟨s'', t, b, hs', hkin, hb, hkin.session ▸ ht, ?_,
    fun q => ⟨new, hcalls, .inl ⟨hnone, policy, .start, trivial, hlive⟩⟩⟩
  unfold selected
  rw [hselections, hkin.selection]
  show ((r.selections.set s.selection (some page))[s.selection]?).join = some page
  rw [List.getElem?_set_self hselection]
  rfl

/-! ### What can be reached -/

theorem Move.selections {outside : Watched σ → Watched σ → Prop} (hmove : Move outside r r')
    (h : r.InOrder s none) : r'.selections = r.selections := by
  cases hmove with
  | turn hnext =>
    obtain ⟨id, executor, -, -, hturned⟩ := next?_cases h hnext
    exact hturned.selections
  | @resume change _ id => exact (r.resume_page change id).2.1
  | bind hs hnew => rw [binderFor_new hs hnew]
  | _ => rfl

/-- Whether a run is in order, with a service of some kind whose tasks are called when they may
go on, and whose page selection exists. -/
def Serves (r : Run (Watcher ρ) (Watched σ)) (s₀ : Service (Watcher ρ)) : Prop :=
  ∃ s, r.InOrder s none ∧ Attentive r.binders r.executor none ∧
    s.selection < r.selections.length ∧ s₀.Kin s

theorem serves_invariant (s₀ : Service (Watcher ρ)) :
    Invariant (fun _ _ : Watched σ => True) fun r => r.Serves s₀ := by
  refine .of_inOrder (fun r r' s s' h hmove h' hkin ⟨ha, hselection, hkin₀⟩ => ⟨?_, ?_, ?_⟩)
    fun r s page ⟨ha, hselection, hkin₀⟩ => ⟨ha, ?_, hkin₀⟩
  · exact hmove.attentive h ha
  · rw [hmove.selections h, hkin.selection]
    exact hselection
  · exact hkin₀.trans hkin
  · show s.selection < (r.selections.set s.selection (some page)).length
    rwa [List.length_set]

theorem Serves.through {s₀ : Service (Watcher ρ)} (h : r.Serves s₀)
    (occurrences : List (Occurrence (Watched σ))) : (r.through occurrences).Serves s₀ :=
  (serves_invariant s₀).through (fun o _ => o.within_any) h

theorem opened_serves (world : σ) (session : SessionId) (config : Config) (access : ρ) :
    (opened (⟨world, []⟩ : Watched σ) session config (Watcher.mk access)).Serves
      { session, config, access := Watcher.mk access, selection := 0 } :=
  ⟨_, opened_inOrder _ session config _, opened_attentive _ session config _, Nat.zero_lt_one,
    .refl _⟩

end Run

/-- Pages of the history are selected one after the other. -/
def Occurrence.selectPages (pages : List PageNumber) : List (Occurrence σ) :=
  pages.map fun page => .act (.selectPage page)

/-- Pages of the history are selected one after the other, and then all tasks take their turns
until none has one. -/
def Occurrence.burst (pages : List PageNumber) : List (Occurrence σ) :=
  selectPages pages ++ [.act .run]

variable [Host ρ σ]

/-- Selections ask for nothing themselves. -/
theorem Run.selectPages_quiet {r : Run (Watcher ρ) (Watched σ)} {s : Service (Watcher ρ)}
    (h : r.InOrder s none) (pages : List PageNumber) :
    ∃ new, (r.through (Occurrence.selectPages pages)).world.calls = r.world.calls ++ new ∧
      historyRequests new = [] := by
  induction pages generalizing r s with
  | nil => exact ⟨[], (List.append_nil _).symm, rfl⟩
  | cons page rest ih =>
    obtain ⟨first, hfirst, hnone⟩ := selectPage_quiet h.services page
    obtain ⟨s', h', -⟩ := Run.through_inOrder h [.act (.selectPage page)]
    obtain ⟨more, hmore, hnone'⟩ := ih h'
    refine ⟨first ++ more, ?_, by rw [historyRequests_append, hnone, hnone', List.append_nil]⟩
    rw [← List.append_assoc, ← hfirst]
    exact hmore

/-- Selections in a run that is served, and a run of its tasks after them. -/
theorem Run.Serves.refetches {r : Run (Watcher ρ) (Watched σ)} {s : Service (Watcher ρ)}
    (h : r.Serves s) (earlier : List PageNumber) {page : PageNumber} (hpage : page ≠ 0)
    {mounted : Watched σ → Prop} (hkept : Bears (Watcher ρ) s.session mounted)
    (hfound : ∀ w, mounted w →
      ((Host.anchorPresent s.access View.txHistory.anchor).run w).1 = true)
    (hmounted : mounted r.world) :
    (r.through (Occurrence.burst (earlier ++ [page]))).Stalled ∧
      ∃ new, (r.through (Occurrence.burst (earlier ++ [page]))).world.calls =
          r.world.calls ++ new ∧
        historyRequests new = [⟨.txHistory, s.session, some page⟩] := by
  have hsplit : r.through (Occurrence.burst (earlier ++ [page])) =
      ((r.through (Occurrence.selectPages earlier)).through [.act (.selectPage page)]).run := by
    rw [Occurrence.burst, Occurrence.selectPages, List.map_append, through_append, through_append]
    rfl
  have hbefore := h.through (Occurrence.selectPages earlier)
  have hafter := hbefore.through [.act (.selectPage page)]
  obtain ⟨s₀, h₀, -, -, hkin₀⟩ := h
  obtain ⟨first, hfirst, hnone⟩ := selectPages_quiet h₀ earlier
  have hmounted' : mounted ((r.through (Occurrence.selectPages earlier)).through
      [.act (.selectPage page)]).world := by
    rw [← through_append]
    refine hkept.endures.through h₀ hkin₀.session (fun o ho => ?_) hmounted
    rcases List.mem_append.mp ho with ho | ho
    · obtain ⟨p, -, rfl⟩ := List.mem_map.mp ho
      exact nofun
    · rw [List.mem_singleton.mp ho]
      exact nofun
  rw [hsplit]
  generalize r.through (Occurrence.selectPages earlier) = r₁ at *
  obtain ⟨s₁, h₁, ha₁, hselection, hkin₁⟩ := hbefore
  obtain ⟨s₂, t, b, hs₂, hkin, hb, ht, hselected, hasks⟩ :=
    selectPage_asksOnce h₁.services ha₁.isOpen hselection hpage
  obtain ⟨s', h₂, ha₂, -, hkin₂⟩ := hafter
  obtain rfl : s' = s₂ := List.singleton_inj.mp (h₂.services.symm.trans hs₂)
  refine ⟨run_stalls h₂, ?_⟩
  obtain ⟨new, hcalls, hnew⟩ := run_requests h₂ ha₂ (hkin₂.session ▸ hkept.endures)
    (hkin₂.access ▸ hfound) hmounted' hb ht hselected (hasks _)
  refine ⟨first ++ new, ?_, ?_⟩
  · rw [hcalls, hfirst, List.append_assoc]
  · rw [historyRequests_append, hnone, hnew, hkin₂.session, List.nil_append]

/-- A selection asks again at once. Whatever has occurred to the service of a session, if pages
of the history are selected after that, one after the other and the last one with success, and
then all tasks take their turns until none has one, the history is asked for just once, and for
the page that was selected last. The anchor of the history is mounted before the selections, and
nothing that tasks do with the page takes it away. -/
theorem selection_refetches (world : σ) (session : SessionId) (config : Config) (access : ρ)
    (occurrences : List (Occurrence σ)) (earlier : List PageNumber) {page : PageNumber}
    (hpage : page ≠ 0) {mounted : σ → Prop}
    (hfound : ∀ w, mounted w → ((Host.anchorPresent access View.txHistory.anchor).run w).1 = true)
    (hkept : Bears ρ session mounted)
    (hmounted : mounted ((Run.opened world session config access).through occurrences).world) :
    let burst := Occurrence.burst (earlier ++ [page])
    let selected := Run.watchedThrough world session config access (occurrences ++ burst)
    selected.unwatched = (Run.opened world session config access).through (occurrences ++ burst) ∧
      selected.Stalled ∧
      ∃ new, selected.world.calls =
          (Run.watchedThrough world session config access occurrences).world.calls ++ new ∧
        historyRequests new = [⟨.txHistory, session, some page⟩] := by
  refine ⟨Run.watchedThrough_unwatched world session config access _, ?_⟩
  have hserves := (Run.opened_serves world session config access).through
    (occurrences.map Occurrence.watched)
  have hbefore : mounted (Run.watchedThrough world session config access
      occurrences).world.world := by
    show mounted (Run.watchedThrough world session config access occurrences).unwatched.world
    rw [Run.watchedThrough_unwatched]
    exact hmounted
  have hburst : (Occurrence.burst (earlier ++ [page])).map (Occurrence.watched (σ := σ)) =
      Occurrence.burst (earlier ++ [page]) := by
    simp [Occurrence.burst, Occurrence.selectPages, Occurrence.watched, Act.watched]
  unfold Run.watchedThrough at hbefore ⊢
  rw [List.map_append, Run.through_append, hburst]
  exact hserves.refetches earlier hpage hkept.watched (fun w hw => hfound w.world hw) hbefore

/-- No task takes an anchor off a page in memory. -/
theorem Page.mounted_bears (session : SessionId) (target : Target) :
    Bears PageAccess session fun p : Page => (p.count? target).isSome = true where
  get? _ _ _ hp := hp
  set x v value p hp := by
    show ((p.write _ value).2.count? target).isSome = true
    unfold write
    split <;> exact hp
  removeOwn _ _ _ hp := hp
  removeStale _ _ _ _ hp := hp
  keys _ _ hp := hp
  anchorPresent _ _ _ hp := hp
  apply _ u p hp := by
    show ((p.applyUpdate u).2.count? target).isSome = true
    unfold applyUpdate
    split
    · exact hp
    · split <;> exact hp
  submitForm _ form p hp := by
    show ((if p.forms.contains form then (true, p.record (.submitted form))
      else (false, p)).2.count? target).isSome = true
    split <;> exact hp
  cacheBuster _ _ hp := hp
  fetch _ request p hp := by
    show (((p.record (.requested request)).takeAnswer request.view).2.count? target).isSome = true
    unfold takeAnswer
    split <;> exact hp
  heartbeat _ _ hp := hp
  sleep _ _ _ hp := hp
  log _ _ _ hp := hp

/-- A page whose server holds its answers back. -/
def heldPage : Page :=
  (({} : Page).mountView .txHistory).prepare .txHistory { isHeld := true }

/-- A history is asked for, and its answer is held back. -/
def historyHeld : List (Occurrence Page) :=
  [.act .start, .act .run]

/-- While the answer is held back, the second and the third page are selected: only the third
one is asked for. -/
theorem third_page_refetched :
    (Run.watchedThrough heldPage .anonymous {} PageAccess.only
        (historyHeld ++ Occurrence.burst [2, 3])).Stalled ∧
      ∃ new, (Run.watchedThrough heldPage .anonymous {} PageAccess.only
          (historyHeld ++ Occurrence.burst [2, 3])).world.calls =
          (Run.watchedThrough heldPage .anonymous {} PageAccess.only historyHeld).world.calls ++
            new ∧
        historyRequests new = [⟨.txHistory, .anonymous, some 3⟩] :=
  (selection_refetches heldPage .anonymous {} PageAccess.only historyHeld [2]
    (by decide : (3 : PageNumber) ≠ 0) (fun _ hw => hw)
    (Page.mounted_bears .anonymous View.txHistory.anchor) rfl).2

end WalletPage
