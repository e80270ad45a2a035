import WalletPage.Proofs.PollHistory
import WalletPage.Proofs.SelectedPages
import WalletPage.Proofs.TaskPolicies

/-! What the history of a run tells is true of the run. The binders and the calls of a run go
through the events of its history one by one; between them nothing is remembered and no form
is submitted. -/

namespace WalletPage

variable {ρ σ : Type}

/-- What the binders of a run remember, and the calls that were made. -/
structure Stock (ρ : Type) where
  binders : List (Binder (Watcher ρ))
  calls : List Call

/-- What the binders of a run remember, and the calls that were made. -/
def Run.stock (r : Run (Watcher ρ) (Watched σ)) : Stock ρ where
  binders := r.binders.map (·.binder)
  calls := r.world.calls

namespace Stock

/-- `Polls policy bs e calls bs'`: as an event tells, binders `bs` become `bs'` with calls. -/
inductive Polls (policy : Policy) (bs : List (Binder (Watcher ρ))) :
    PollEvent → List Call → List (Binder (Watcher ρ)) → Prop
  | made {b : Binder (Watcher ρ)} {calls : List Call} (hnew : ∀ c ∈ bs, c.view ≠ b.view)
    (hseen : b.anchorSeen = b.lastRendered.isSome) (hfirst : b.transitioned = false)
    (hforms : formsOf calls = []) :
    Polls policy bs (.made b.view b.lastRendered.isSome) calls (bs ++ [b])
  | misses {i : BinderId} {b : Binder (Watcher ρ)} (hb : bs[i]? = some b) (task : TaskId) :
    Polls policy bs (.looked task b.view false) [] bs
  | asks {i : BinderId} {b b' : Binder (Watcher ρ)} {first : List Call}
    {page : Option PageNumber} {reply : Reply (Fallible (Option Snapshot))}
    (hb : bs[i]? = some b) (task : TaskId) (hopens : b.Opens b' first) :
    Polls policy bs (.looked task b.view true) (first ++ [.asked (b.request page) reply])
      (bs.set i b')
  | closes {i : BinderId} {b b' : Binder (Watcher ρ)} {task : TaskId} {c : Closing}
    {calls : List Call} (hb : bs[i]? = some b) (hcloses : b.Closes policy task c calls b') :
    Polls policy bs (.closed c) calls (bs.set i b')

/-- `Passes policy s events t`: the events lead from one stock to another. -/
inductive Passes (policy : Policy) (s : Stock ρ) : List PollEvent → Stock ρ → Prop
  | refl : Passes policy s [] s
  | quiet {events : List PollEvent} {t : Stock ρ} {calls : List Call}
    (h : Passes policy s events t) (hforms : formsOf calls = []) :
    Passes policy s events ⟨t.binders, t.calls ++ calls⟩
  | event {events : List PollEvent} {t : Stock ρ} {e : PollEvent} {calls : List Call}
    {bs : List (Binder (Watcher ρ))} (h : Passes policy s events t)
    (hpolls : Polls policy t.binders e calls bs) :
    Passes policy s (events ++ [e]) ⟨bs, t.calls ++ calls⟩

variable {policy : Policy} {s t u : Stock ρ} {events more : List PollEvent}

theorem Passes.trans (h : Passes policy s events t) (k : Passes policy t more u) :
    Passes policy s (events ++ more) u := by
  induction k with
  | refl => rwa [List.append_nil]
  | quiet _ hforms ih => exact ih.quiet hforms
  | event _ hpolls ih =>
    rw [← List.append_assoc]
    exact ih.event hpolls

/-- Calls without a form, in which nothing is remembered. -/
theorem Passes.of_quiet {calls : List Call} (hforms : formsOf calls = []) :
    Passes policy s [] ⟨s.binders, s.calls ++ calls⟩ :=
  .quiet .refl hforms

theorem Passes.single {e : PollEvent} {calls : List Call} {bs : List (Binder (Watcher ρ))}
    (hpolls : Polls policy s.binders e calls bs) :
    Passes policy s [e] ⟨bs, s.calls ++ calls⟩ :=
  .event .refl hpolls

/-- The calls of the past stay. -/
theorem Passes.calls_prefix (h : Passes policy s events t) : s.calls <+: t.calls := by
  induction h with
  | refl => exact List.prefix_rfl
  | quiet _ _ ih => exact ih.trans (List.prefix_append _ _)
  | event _ _ ih => exact ih.trans (List.prefix_append _ _)

/-- Each event finds the stock to which the events before it have led. -/
theorem Passes.split {before after : List PollEvent} {e : PollEvent}
    (h : Passes policy s (before ++ e :: after) t) :
    ∃ m calls bs, Passes policy s before m ∧ Polls policy m.binders e calls bs ∧
      Passes policy ⟨bs, m.calls ++ calls⟩ after t := by
  generalize hall : before ++ e :: after = all at h
  induction h generalizing after with
  | refl => simp at hall
  | quiet _ hforms ih =>
    obtain ⟨m, calls, bs, hbefore, hpolls, hafter⟩ := ih hall
    exact ⟨m, calls, bs, hbefore, hpolls, hafter.quiet hforms⟩
  | @event events t e' calls' bs' h hpolls' ih =>
    rcases List.eq_nil_or_concat after with rfl | ⟨init, last, rfl⟩
    · obtain ⟨rfl, hlast⟩ := List.append_inj' hall rfl
      obtain rfl : e = e' := List.singleton_inj.mp hlast
      exact ⟨t, calls', bs', h, hpolls', .refl⟩
    · rw [List.concat_eq_append, ← List.cons_append, ← List.append_assoc] at hall
      obtain ⟨hinit, hlast⟩ := List.append_inj' hall rfl
      obtain rfl : last = e' := List.singleton_inj.mp hlast
      obtain ⟨m, calls, bs, hbefore, hpolls, hafter⟩ := ih hinit
      refine ⟨m, calls, bs, hbefore, hpolls, ?_⟩
      rw [List.concat_eq_append]
      exact hafter.event hpolls'

/-- The turn of a task passes through its events. -/
theorem Passes.of_tells {i : BinderId} {b b' : Binder (Watcher ρ)} {task : TaskId}
    {phase : Phase (Fallible (Option Snapshot))} {calls : List Call} {next? : Option Next}
    (hb : s.binders[i]? = some b) (h : b.Tells policy task phase events calls b' next?) :
    Passes policy s events ⟨s.binders.set i b', s.calls ++ calls⟩ := by
  obtain ⟨hi, hbi⟩ := List.getElem?_eq_some_iff.mp hb
  have hlooked : Passes policy s [.looked task b.view false] s := by
    have hmisses : Passes policy s _ _ := .single (.misses hb task)
    rwa [List.append_nil] at hmisses
  cases h with
  | rests =>
    rw [← hbi, List.set_getElem_self, List.append_nil]
    exact .refl
  | misses _ hcloses _ => exact hlooked.trans (.single (.closes hb hcloses))
  | asks _ hopens => exact .single (.asks hb task hopens)
  | @answers _ y _ first calls page answer c _ hopens hcloses _ =>
    have hasks : Passes policy s [.looked task b.view true] ⟨s.binders.set i y,
        s.calls ++ (first ++ [.asked (b.request page) (.ready answer)])⟩ :=
      .single (.asks hb task hopens)
    have hy : (s.binders.set i y)[i]? = some y := List.getElem?_set_self hi
    have hall := hasks.trans (.single (.closes hy hcloses))
    rwa [List.set_set, List.append_assoc] at hall
  | concludes hcloses _ => exact .single (.closes hb hcloses)

end Stock

/-! ### Turns -/

theorem Binder.Closes.task_eq {policy : Policy} {task : TaskId} {b b' : Binder (Watcher ρ)}
    {c : Closing} {calls : List Call} (h : b.Closes policy task c calls b') : c.task = task := by
  cases h <;> rfl

/-- A cycle that is closed in a turn is the task's own, and the task turns to what comes next. -/
theorem Binder.Tells.closing {policy : Policy} {task : TaskId} {b b' : Binder (Watcher ρ)}
    {phase : Phase (Fallible (Option Snapshot))} {events : List PollEvent} {calls : List Call}
    {next? : Option Next} (h : b.Tells policy task phase events calls b' next?) {c : Closing}
    (hc : .closed c ∈ events) : next? = some c.next ∧ c.task = task := by
  cases h with
  | rests => simp at hc
  | misses _ hcloses _ =>
    obtain rfl : c = _ := by simpa using hc
    exact ⟨rfl, hcloses.task_eq⟩
  | asks => simp at hc
  | answers _ _ hcloses _ =>
    obtain rfl : c = _ := by simpa using hc
    exact ⟨rfl, hcloses.task_eq⟩
  | concludes hcloses _ =>
    obtain rfl : c = _ := by simpa using hc
    exact ⟨rfl, hcloses.task_eq⟩

namespace Run

/-- `r.Goes policy events r'`: a run goes on to another one as the events tell, and a task that
closes a cycle with a stop comes to its end. -/
structure Goes (policy : Policy) (r : Run (Watcher ρ) (Watched σ)) (events : List PollEvent)
    (r' : Run (Watcher ρ) (Watched σ)) : Prop where
  passes : Stock.Passes policy r.stock events r'.stock
  stops : ∀ c, .closed c ∈ events → c.next = .stop → r'.executor.hasEnded c.task = true
  heeds : r.executor.Heeds (Body.KeepsTo policy) r'.executor

variable {r r' r'' : Run (Watcher ρ) (Watched σ)} {s : Service (Watcher ρ)} {id : TaskId}
  {b : BinderId} {x : Shared (Watcher ρ)} {policy : Policy} {events more : List PollEvent}
  {phase : Phase (Fallible (Option Snapshot))}

theorem Goes.refl (policy : Policy) (r : Run (Watcher ρ) (Watched σ)) : r.Goes policy [] r :=
  ⟨.refl, fun _ hc => absurd hc List.not_mem_nil, .of_tasks rfl⟩

theorem Goes.trans (h : r.Goes policy events r') (k : r'.Goes policy more r'') :
    r.Goes policy (events ++ more) r'' := by
  refine ⟨h.passes.trans k.passes, fun c hc hstop => ?_, h.heeds.trans k.heeds⟩
  rcases List.mem_append.mp hc with hc | hc
  · exact k.heeds.ended _ (h.stops c hc hstop)
  · exact k.stops c hc hstop

/-- Nothing happens to the binders, and no form is submitted. -/
theorem Goes.quiet (hbinders : r'.binders.map (·.binder) = r.binders.map (·.binder))
    {new : List Call} (hcalls : r'.world.calls = r.world.calls ++ new)
    (hforms : formsOf new = []) (hheeds : r.executor.Heeds (Body.KeepsTo policy) r'.executor) :
    r.Goes policy [] r' := by
  have hstock : r'.stock = ⟨r.stock.binders, r.stock.calls ++ new⟩ := by
    rw [stock, hbinders, hcalls]
    rfl
  refine ⟨?_, fun _ hc => absurd hc List.not_mem_nil, hheeds⟩
  rw [hstock]
  exact .of_quiet hforms

theorem SameBinders.map_binder (h : r.SameBinders r') :
    r'.binders.map (·.binder) = r.binders.map (·.binder) := by
  apply List.ext_getElem?
  intro b
  rw [List.getElem?_map, List.getElem?_map]
  exact h b

variable [Host ρ σ]

theorem PollTurn.goes (hturn : PollTurn r id b policy x phase r') (hx : r.binders[b]? = some x)
    (hid : r.executor.live? id = some (.poll b policy phase, false)) :
    r.Goes policy (r.eventsAt id policy x phase) r' := by
  obtain ⟨x', new, next?, hbinders, hcalls, htells, hstop⟩ :=
    hturn.tells hx (Executor.lt_of_live? hid)
  have hxb : r.stock.binders[b]? = some x.binder := by
    rw [stock, List.getElem?_map, hx, Option.map_some]
  have hstock : r'.stock = ⟨r.stock.binders.set b x'.binder, r.stock.calls ++ new⟩ := by
    rw [stock, hbinders, hcalls, List.map_set]
    rfl
  refine ⟨?_, fun c hc hnext => ?_, hturn.heeds hid fun _ => rfl⟩
  · rw [hstock]
    exact .of_tells hxb htells
  · obtain ⟨hended, htask⟩ := htells.closing hc
    rw [htask]
    exact hstop (by rw [hended, hnext])

theorem Turned.goes (hturned : Turned r id r') (hkeeps : r.KeepsTo policy) :
    r.Goes policy (r.eventsOf id) r' := by
  have hheeds := hturned.heeds (Body.steady_keepsTo policy) hkeeps
  cases hturned with
  | gone hid =>
    rw [eventsOf, hid]
    exact .refl policy r
  | @disposes body hid =>
    have hletsGo := dispose_letsGo r body
    have hevents : r.eventsOf id = [] := by
      rw [eventsOf, hid]
      cases body <;> rfl
    rw [hevents]
    generalize r.dispose body = r₁ at hletsGo hheeds
    have hcalls : (r₁.finishTask id).world.calls = r.world.calls ++ [] := by
      rw [List.append_nil]
      exact congrArg Watched.calls hletsGo.world
    exact .quiet hletsGo.binders.map_binder hcalls rfl hheeds
  | @polls _ b policy' x phase hx hid hturn =>
    obtain rfl := hkeeps id _ _ hid
    rw [eventsOf, hid]
    dsimp only
    rw [hx]
    exact hturn.goes hx hid
  | @beats access interval phase hid =>
    have hevents : r.eventsOf id = [] := by
      rw [eventsOf, hid]
    have hsame : (r.heartbeatTurn id access interval phase).binders = r.binders := by
      rcases heartbeatTurn_cases r id access interval phase with hsame | ⟨_, _, _, _, hbeats⟩
      · rw [hsame]
      · rw [hbeats]
    obtain ⟨new, hcalls, hnew⟩ := heartbeatTurn_calls (p := fun c => c.form? = none)
      r id access interval phase (fun _ => rfl) rfl
    rw [hevents]
    exact .quiet (by rw [hsame]) hcalls (formsOf_eq_nil hnew) hheeds

theorem next?_goes (h : r.InOrder s none) (hkeeps : r.KeepsTo policy) (hnext : r.next? = some r') :
    r.Goes policy r.turnEvents r' := by
  obtain ⟨id, executor, hpop, -, hturned⟩ := next?_cases h hnext
  obtain ⟨rest, -, rfl⟩ := Executor.next?_eq_some_iff.mp hpop
  obtain ⟨hpasses, hstops, hheeds⟩ := hturned.goes hkeeps
  rw [turnEvents, hpop]
  have hpopped : r.executor.Heeds (Body.KeepsTo policy) { r.executor with ready := rest } :=
    .of_tasks rfl
  exact ⟨hpasses, hstops, hpopped.trans hheeds⟩

theorem settle_goes (n : Nat) (h : r.InOrder s none) (hkeeps : r.KeepsTo policy) :
    r.Goes policy (settleEvents n r) (settle next? n r) := by
  induction n generalizing r with
  | zero => exact .refl policy r
  | succ n ih =>
    unfold settleEvents settle
    cases hnext : r.next? with
    | none => exact .refl policy r
    | some r' =>
      have hgoes := next?_goes h hkeeps hnext
      exact hgoes.trans (ih (next?_inOrder h hnext) (hkeeps.heeds hgoes.heeds))

end Run

/-! ### New binders -/

theorem Binder.Recalls.form? {b : Binder ρ} {first : List Call} {c : Call}
    (h : b.Recalls first c) : c.form? = none := by
  cases h <;> rfl

namespace Run

/-- `r.Makes policy r'`: a run goes on to another one that may have new binders, and nothing
else happens to binders. -/
def Makes (policy : Policy) (r r' : Run (Watcher ρ) (Watched σ)) : Prop :=
  ∃ more, r'.binders = r.binders ++ more ∧
    Stock.Passes policy r.stock (more.map Shared.made) r'.stock

variable {r r' r'' : Run (Watcher ρ) (Watched σ)} {s s₀ : Service (Watcher ρ)} {policy : Policy}

theorem Makes.trans (h : r.Makes policy r') (k : r'.Makes policy r'') : r.Makes policy r'' := by
  obtain ⟨more, hbinders, hpasses⟩ := h
  obtain ⟨more', hbinders', hpasses'⟩ := k
  refine ⟨more ++ more', ?_, ?_⟩
  · rw [hbinders', hbinders, List.append_assoc]
  · rw [List.map_append]
    exact hpasses.trans hpasses'

theorem Makes.quiet (hbinders : r'.binders = r.binders) {new : List Call}
    (hcalls : r'.world.calls = r.world.calls ++ new) (hforms : formsOf new = []) :
    r.Makes policy r' := by
  have hstock : r'.stock = ⟨r.stock.binders, r.stock.calls ++ new⟩ := by
    rw [stock, hbinders, hcalls]
    rfl
  refine ⟨[], by rw [hbinders, List.append_nil], ?_⟩
  rw [hstock]
  exact .of_quiet hforms

theorem Makes.still (hbinders : r'.binders = r.binders)
    (hcalls : r'.world.calls = r.world.calls) : r.Makes policy r' :=
  .quiet hbinders (hcalls.trans (List.append_nil _).symm) rfl

/-- The new binders are the last ones. -/
theorem Makes.events (h : r.Makes policy r') :
    Stock.Passes policy r.stock ((r'.binders.drop r.binders.length).map Shared.made) r'.stock := by
  obtain ⟨more, hbinders, hpasses⟩ := h
  rwa [hbinders, List.drop_left]

theorem startTask_makes (hs : r.services = [s]) (key : TaskKey) (body : Body (Watcher ρ)) :
    r.Makes policy (r.startTask 0 key body).2 := by
  rw [startTask_eq hs]
  exact .still rfl rfl

theorem startHeartbeat_makes (hs : r.services = [s]) (s₀ : Service (Watcher ρ)) :
    r.Makes policy (r.startHeartbeat 0 s₀).2 := by
  unfold startHeartbeat
  split
  · exact startTask_makes hs _ _
  · exact .still rfl rfl

theorem resumes_makes (change : Body (Watcher ρ) → Body (Watcher ρ)) (ids : List TaskId) :
    r.Makes policy (ids.foldl (resume change) r) := by
  induction ids generalizing r with
  | nil => exact .still rfl rfl
  | cons id rest ih =>
    obtain ⟨hworld, -, hbinders⟩ := r.resume_page change id
    have hresumed : r.Makes policy (r.resume change id) :=
      .still hbinders (congrArg Watched.calls hworld)
    exact hresumed.trans ih

variable [Host ρ σ]

theorem binderFor_makes (h : r.InOrder s none) {v : View} (hnew : s.binders.lookup v = none) :
    r.Makes policy (r.binderFor 0 s v).2 := by
  obtain ⟨new, shown, hcalls, hb, hrecollects⟩ := (s.newBinder v).hydrate_recollects r.world
  have hstock : r.stock.binders = r.binders.map (·.binder) := rfl
  have hview : ∀ c ∈ r.stock.binders, c.view ≠ v := by
    intro c hc hcv
    rw [hstock, List.mem_map] at hc
    obtain ⟨x, hx, rfl⟩ := hc
    obtain ⟨i, hi⟩ := List.mem_iff_getElem?.mp hx
    have hknown := (h.orderly.known v i).mpr ⟨x, hi, hcv⟩
    rw [hnew] at hknown
    contradiction
  -- A binder that is painted from the cache has seen its anchor.
  have hmarks : ((s.newBinder v).recalling shown).anchorSeen =
      ((s.newBinder v).recalling shown).lastRendered.isSome := by
    cases shown <;> rfl
  have hpolls : Stock.Polls policy r.stock.binders _ _ _ := .made hview hmarks rfl
    (formsOf_eq_nil fun c hc => (hrecollects.recalls c hc).form?)
  have hmade := Stock.Passes.single hpolls
  rw [binderFor_new h.services hnew]
  refine ⟨[_], rfl, ?_⟩
  dsimp only [stock] at hmade ⊢
  rw [hcalls, List.map_append, hb]
  exact hmade

theorem startView_makes (h : r.InOrder s none) (v : View) :
    r.Makes policy (r.startView 0 v).2 := by
  unfold startView
  rw [first_service h.services]
  dsimp only
  cases hb : s.binders.lookup v with
  | some b =>
    rw [binderFor_known hb]
    exact startTask_makes h.services _ _
  | none =>
    have hmakes : r.Makes policy (r.binderFor 0 s v).2 := binderFor_makes h hb
    have hserves : (r.binderFor 0 s v).2.services = [s.withBinder v r.binders.length] := by
      rw [binderFor_new h.services hb]
    exact hmakes.trans (startTask_makes hserves _ _)

theorem startViews_makes (h : r.InOrder s none) (views : List View) :
    r.Makes policy (r.startViews 0 views).2 := by
  induction views generalizing r s with
  | nil => exact .still rfl rfl
  | cons v rest ih =>
    have hmakes : r.Makes policy (r.startView 0 v).2 := startView_makes h v
    obtain ⟨s', h', -⟩ := after_inOrder h [.startView v]
    have hstarted : (r.startView 0 v).2.InOrder s' none := h'
    unfold startViews
    generalize r.startView 0 v = started at hmakes hstarted
    obtain ⟨result, r₁⟩ := started
    cases result with
    | ok _ => exact hmakes.trans (ih hstarted)
    | error p => exact hmakes

theorem start_makes (h : r.InOrder s none) : r.Makes policy (r.start 0).2 := by
  have hswept : r.Makes policy (r.act (Cache.sweep s.access)).2 := by
    obtain ⟨new, hcalls, hremoved⟩ := emits_sweep s.access r.world
    refine .quiet rfl hcalls (formsOf_eq_nil fun c hc => ?_)
    obtain ⟨key, rfl⟩ := hremoved c hc
    rfl
  unfold start
  rw [first_service h.services]
  dsimp only
  have h₁ : (r.act (Cache.sweep s.access)).2.InOrder s none := ⟨h.services, h.orderly⟩
  generalize (r.act (Cache.sweep s.access)).2 = r₁ at hswept h₁
  have hviews : r₁.Makes policy (r₁.startViews 0 View.all).2 := startViews_makes h₁ View.all
  obtain ⟨-, s₂, hs₂, -⟩ : Moves (fun _ _ => True) r₁ (r₁.startViews 0 View.all).2 ∧ _ :=
    startViews_moves h₁.services View.all
  generalize r₁.startViews 0 View.all = views at hviews hs₂
  obtain ⟨result, r₂⟩ := views
  cases result with
  | error p => exact hswept.trans hviews
  | ok _ =>
    have hbeat : r₂.Makes policy (r₂.startHeartbeat 0 s).2 := startHeartbeat_makes hs₂ s
    dsimp only
    generalize r₂.startHeartbeat 0 s = beat at hbeat
    obtain ⟨result, r₃⟩ := beat
    have hmakes := (hswept.trans hviews).trans hbeat
    cases result with
    | error p => exact hmakes
    | ok _ => exact hmakes.trans (.still rfl rfl)

theorem selectPage_makes (h : r.InOrder s none) (page : PageNumber) :
    r.Makes policy (r.selectPage 0 page).2 := by
  by_cases hpage : page = 0
  · rw [hpage, selectPage_zero h.services]
    exact .still rfl rfl
  · rw [selectPage_eq h.services hpage]
    have hturned : r.Makes policy (r.turnedTo s page) := .still rfl rfl
    exact hturned.trans (startView_makes (r := r.turnedTo s page) ⟨h.services, h.orderly⟩ _)

end Run

/-! ### Acts -/

namespace Act

variable [Host ρ σ] {r : Run (Watcher ρ) (Watched σ)} {s : Service (Watcher ρ)}

/-- An act without turns at most makes binders. -/
theorem makes (h : r.InOrder s none) (policy : Policy) {act : Act σ} (hturn : act ≠ .turn)
    (hrun : act ≠ .run) : r.Makes policy (act.watched.step r) := by
  cases act with
  | start => exact Run.start_makes h
  | startView v => exact Run.startView_makes h v
  | selectPage page => exact Run.selectPage_makes h page
  | stop key =>
    show r.Makes policy (r.stopTask 0 key).2
    rw [Run.stopTask_eq h.services]
    exact .still rfl rfl
  | stopAll =>
    have hstopped : (r.stopAll 0).2.binders = r.binders ∧
        (r.stopAll 0).2.world.calls = r.world.calls := by
      unfold Run.stopAll
      rw [Run.first_service h.services]
      exact ⟨rfl, rfl⟩
    exact .still hstopped.1 hstopped.2
  | enroll => exact .still rfl rfl
  | turn => exact absurd rfl hturn
  | awaken id => exact Run.resumes_makes _ [id]
  | deliver id => exact Run.resumes_makes _ [id]
  | fire =>
    have hforgot : r.Makes policy { r with sleepers := [] } := .still rfl rfl
    exact hforgot.trans (Run.resumes_makes _ _)
  | release key =>
    have hforgot : r.Makes policy { r with held := r.held.filter (·.1 ≠ key) } := .still rfl rfl
    exact hforgot.trans (Run.resumes_makes _ _)
  | run => exact absurd rfl hrun
  | change f => exact .still rfl rfl

/-- An act goes through its events. -/
theorem goes (h : r.InOrder s none) (hkeeps : r.KeepsTo s.config.policy) (act : Act σ) :
    r.Goes s.config.policy (act.watched.events r) (act.watched.step r) := by
  have hheeds := act.watched.heeds h hkeeps
  by_cases hturn : act = .turn
  · subst hturn
    show r.Goes s.config.policy r.turnEvents (r.next?.getD r)
    cases hnext : r.next? with
    | some r' => exact Run.next?_goes h hkeeps hnext
    | none =>
      have hevents : r.turnEvents = [] := by
        unfold Run.next? at hnext
        rw [Option.map_eq_none_iff] at hnext
        rw [Run.turnEvents, hnext]
      rw [hevents]
      exact .refl _ r
  · by_cases hrun : act = .run
    · subst hrun
      have henrolled : r.Goes s.config.policy [] { r with executor := r.executor.enroll } :=
        .quiet rfl (List.append_nil _).symm rfl (.of_tasks rfl)
      exact henrolled.trans (Run.settle_goes r.executor.turns (Run.enroll_inOrder h) hkeeps)
    · have hpasses := (act.makes h s.config.policy hturn hrun).events
      have hevents : act.watched.events r =
          ((act.watched.step r).binders.drop r.binders.length).map Shared.made := by
        cases act <;> first | rfl | contradiction
      rw [hevents]
      refine ⟨hpasses, fun c hc => ?_, hheeds⟩
      obtain ⟨x, -, hx⟩ := List.mem_map.mp hc
      contradiction

end Act

/-- A run goes through its history. -/
theorem Run.after_goes [Host ρ σ] {r : Run (Watcher ρ) (Watched σ)} {s : Service (Watcher ρ)}
    (h : r.InOrder s none) (hkeeps : r.KeepsTo s.config.policy) (acts : List (Act σ)) :
    r.Goes s.config.policy (r.history (acts.map Act.watched))
      (r.after (acts.map Act.watched)) := by
  induction acts generalizing r s with
  | nil => exact .refl _ r
  | cons act rest ih =>
    have hgoes := act.goes h hkeeps
    obtain ⟨s', h', hkin⟩ := Run.after_inOrder h [act.watched]
    have hkept := hkeeps.heeds hgoes.heeds
    rw [← hkin.config] at hgoes hkept ⊢
    exact hgoes.trans (ih h' hkept)

/-- The history of a new service after some acts, on a page that was under watch from the
start. -/
def Run.historyUnderWatch [Host ρ σ] (world : σ) (session : SessionId) (config : Config)
    (access : ρ) (acts : List (Act σ)) : List PollEvent :=
  (Run.opened ⟨world, []⟩ session config (Watcher.mk access)).history (acts.map Act.watched)

theorem Run.underWatch_goes [Host ρ σ] (world : σ) (session : SessionId) (config : Config)
    (access : ρ) (acts : List (Act σ)) :
    (Run.opened ⟨world, []⟩ session config (Watcher.mk access)).Goes config.policy
      (Run.historyUnderWatch world session config access acts)
      (Run.underWatch world session config access acts) :=
  Run.after_goes (Run.opened_inOrder _ session config _) (.opened _ _ session config _) acts

end WalletPage
