import WalletPage.Proofs.CancelSafety
import WalletPage.Proofs.HistoryCalls

/-! No stale page is painted. An answer that a task of the transaction history still waits
for, or has not looked at, is the answer to the latest request, and the request asked for
the page that is selected: a selection stops the task, and the new one asks again. -/

namespace WalletPage

variable {ρ σ : Type}

/-- The answer that a task waits for, or has before it. -/
def Phase.answer? {α : Type} : Phase α → Option α
  | .waiting answer => some answer
  | .answered answer => some answer
  | _ => none

theorem Phase.holds_of_answer? {α : Type} {phase : Phase α} {answer : α}
    (h : phase.answer? = some answer) : phase.Holds := by
  cases phase <;> trivial

/-- What a run owes to the page that is selected. Requests in `before` do not count. -/
structure Run.Timely (r : Run (Watcher ρ) (Watched σ)) (s : Service (Watcher ρ))
    (before past : List Call) : Prop where
  calls : r.world.calls = before ++ past
  selection : s.selection < r.selections.length
  pending : ∀ t b policy phase answer c,
    r.executor.live? t = some (.poll b policy phase, false) → phase.answer? = some answer →
    r.binder? b = some c → c.view = .txHistory → Awaited (r.selected s.selection) past answer
  seen : (latest (before ++ past)).isSome →
    ∃ b c, r.binder? b = some c ∧ c.view = .txHistory ∧ c.anchorSeen = true

namespace Run

variable {r r' : Run (Watcher ρ) (Watched σ)} {s : Service (Watcher ρ)} {turn : Option TaskId}
  {before past new : List Call} {id : TaskId} {b : BinderId} {policy : Policy}
  {phase : Phase (Fallible (Option Snapshot))} {x : Shared (Watcher ρ)}

theorem binder?_of_getElem? (hx : r.binders[b]? = some x) : r.binder? b = some x.binder := by
  rw [binder?, hx, Option.map_some]

/-- Binders of one view are one binder. -/
theorem InOrder.binder_unique (h : r.InOrder s turn) {b' : BinderId} {c c' : Binder (Watcher ρ)}
    (hc : r.binder? b = some c) (hc' : r.binder? b' = some c') (hv : c.view = c'.view) :
    b = b' ∧ c = c' := by
  unfold binder? at hc hc'
  rw [Option.map_eq_some_iff] at hc hc'
  obtain ⟨x, hx, rfl⟩ := hc
  obtain ⟨x', hx', rfl⟩ := hc'
  have hb := (h.orderly.known x.binder.view b).mpr ⟨x, hx, rfl⟩
  have hb' := (h.orderly.known x.binder.view b').mpr ⟨x', hx', hv.symm⟩
  obtain rfl : b = b' := Option.some.inj (hb.symm.trans hb')
  rw [hx] at hx'
  cases hx'
  exact ⟨rfl, rfl⟩

/-- Whether the answers that tasks have or wait for in the second run are from the first. -/
def NoNewAnswers (r r' : Run (Watcher ρ) (Watched σ)) : Prop :=
  ∀ t b policy phase answer, r'.executor.live? t = some (.poll b policy phase, false) →
    phase.answer? = some answer → ∃ policy' phase',
      r.executor.live? t = some (.poll b policy' phase', false) ∧ phase'.answer? = some answer

theorem NoNewAnswers.of_live? (h : ∀ t body, r'.executor.live? t = some (body, false) →
    r.executor.live? t = some (body, false)) : r.NoNewAnswers r' :=
  fun t _ policy phase _ hlive hphase => ⟨policy, phase, h t _ hlive, hphase⟩

theorem NoNewAnswers.refl (r : Run (Watcher ρ) (Watched σ)) : r.NoNewAnswers r :=
  .of_live? fun _ _ hlive => hlive

/-- A task that has got a body without an answer is no news. -/
theorem NoNewAnswers.of_changed {body : Body (Watcher ρ)} {isAborted : Bool}
    (hlive : ∀ t, r'.executor.live? t =
      if t = id then some (body, isAborted) else r.executor.live? t)
    (hbody : ∀ b policy phase, body = .poll b policy phase → phase.answer? = none) :
    r.NoNewAnswers r' := by
  intro t b policy phase answer ht hphase
  rw [hlive] at ht
  split at ht
  · cases ht
    rw [hbody b policy phase rfl] at hphase
    contradiction
  · exact ⟨policy, phase, ht, hphase⟩

/-- `r.Idles r'`: from one run to the other nothing happens that bears on what is asked for and
shown. -/
structure Idles (r r' : Run (Watcher ρ) (Watched σ)) : Prop where
  calls : ∃ new, r'.world.calls = r.world.calls ++ new ∧ ∀ c ∈ new, c.IsPlain
  selections : r'.selections = r.selections
  binders : r.SameBinders r'
  tasks : r.NoNewAnswers r'

theorem Idles.of_silent (hcalls : r'.world.calls = r.world.calls)
    (hselections : r'.selections = r.selections) (hbinders : r.SameBinders r')
    (htasks : r.NoNewAnswers r') : r.Idles r' :=
  ⟨⟨[], by rw [hcalls, List.append_nil], List.forall_mem_nil _⟩, hselections, hbinders, htasks⟩

theorem Idles.refl (r : Run (Watcher ρ) (Watched σ)) : r.Idles r :=
  .of_silent rfl rfl (.refl r) (.refl r)

theorem Timely.idles (h : r.Timely s before past) (hidles : r.Idles r') :
    ∃ new, r'.Timely s before (past ++ new) ∧
      Follows (Call.Fits s.session (r.selected s.selection) before) past new := by
  obtain ⟨⟨new, hcalls, hplain⟩, hselections, hbinders, htasks⟩ := hidles
  have hno : ∀ c ∈ new, c.inquiry? = none := fun c hc => (hplain c hc).inquiry?
  have hselected : r'.selected s.selection = r.selected s.selection := by
    unfold selected
    rw [hselections]
  refine ⟨new, ⟨?_, hselections ▸ h.selection, ?_, ?_⟩, follows_plain hplain⟩
  · rw [hcalls, h.calls, List.append_assoc]
  · intro t b policy phase answer c ht hphase hc hv
    obtain ⟨policy', phase', ht', hphase'⟩ := htasks t b policy phase answer ht hphase
    rw [hbinders b] at hc
    rw [hselected]
    exact (h.pending t b policy' phase' answer c ht' hphase' hc hv).congr
      (latest_append_of_none past hno)
  · rw [← List.append_assoc, latest_append_of_none _ hno]
    intro hsome
    obtain ⟨b, c, hc, hv, hseen⟩ := h.seen hsome
    exact ⟨b, c, by rw [hbinders b, hc], hv, hseen⟩

/-- The history's binder has seen its anchor, once the history was asked for. -/
theorem Timely.anchorSeen (h : r.InOrder s turn) (ht : r.Timely s before past)
    (hx : r.binders[b]? = some x) (hv : x.binder.view = .txHistory)
    (hsome : (latest (before ++ past)).isSome) : x.binder.anchorSeen = true := by
  obtain ⟨b', c, hc, hcv, hseen⟩ := ht.seen hsome
  obtain ⟨-, rfl⟩ := h.binder_unique hc (binder?_of_getElem? hx) (hcv.trans hv.symm)
  exact hseen

/-- One binder has gone through a part of a cycle in the turn of a task, and the calls of
that part have been added. -/
theorem Timely.cycled (h : r.InOrder s turn) (ht : r.Timely s before past)
    (hx : r.binders[b]? = some x) {x' : Shared (Watcher ρ)}
    (hcalls : r'.world.calls = r.world.calls ++ new) (hselections : r'.selections = r.selections)
    (hbinders : r'.binders = r.binders.set b x') (hview : x'.binder.view = x.binder.view)
    (hother : ∀ t, t ≠ id → r'.executor.live? t = r.executor.live? t)
    (halone : ∀ t, t ≠ id → ¬ r.executor.HoldsAt t b)
    (hlatest : x.binder.view ≠ .txHistory → ∀ calls, latest (calls ++ new) = latest calls)
    (hself : ∀ b' policy phase answer, r'.executor.live? id = some (.poll b' policy phase, false) →
      phase.answer? = some answer → b' = b ∧ (x.binder.view = .txHistory →
        Awaited (r.selected s.selection) (past ++ new) answer))
    (hseen : x.binder.view = .txHistory → (latest (before ++ (past ++ new))).isSome →
      x'.binder.anchorSeen = true) :
    r'.Timely s before (past ++ new) := by
  have hlt := (List.getElem?_eq_some_iff.mp hx).1
  have hselected : r'.selected s.selection = r.selected s.selection := by
    unfold selected
    rw [hselections]
  have hset (d : BinderId) : r'.binder? d = if b = d then some x'.binder else r.binder? d := by
    unfold binder?
    rw [hbinders, List.getElem?_set, if_pos hlt]
    split <;> rfl
  refine ⟨?_, hselections ▸ ht.selection, ?_, ?_⟩
  · rw [hcalls, ht.calls, List.append_assoc]
  · intro t d policy phase answer c hlive hphase hc hv
    rw [hselected]
    rw [hset] at hc
    by_cases hti : t = id
    · subst hti
      obtain ⟨rfl, hawaited⟩ := hself d policy phase answer hlive hphase
      rw [if_pos rfl] at hc
      cases hc
      exact hawaited (hview.symm.trans hv)
    · rw [hother t hti] at hlive
      by_cases hd : b = d
      · subst hd
        exact absurd ⟨_, _, hlive, rfl, Phase.holds_of_answer? hphase⟩ (halone t hti)
      · rw [if_neg hd] at hc
        have hxv : x.binder.view ≠ .txHistory := fun hxv =>
          hd (h.binder_unique (binder?_of_getElem? hx) hc (hxv.trans hv.symm)).1
        exact (ht.pending t d policy phase answer c hlive hphase hc hv).congr (hlatest hxv past)
  · intro hsome
    by_cases hxv : x.binder.view = .txHistory
    · exact ⟨b, x'.binder, by rw [hset, if_pos rfl], hview.trans hxv, hseen hxv hsome⟩
    · rw [← List.append_assoc, hlatest hxv] at hsome
      obtain ⟨d, c, hc, hv, hcseen⟩ := ht.seen hsome
      refine ⟨d, c, ?_, hv, hcseen⟩
      rw [hset, if_neg ?_, hc]
      rintro rfl
      rw [binder?_of_getElem? hx] at hc
      cases hc
      exact hxv hv

/-! ### Turns -/

variable [Host ρ σ]

/-- What a cycle that ends in a turn adds to the record. -/
theorem CycleEnds.record {c : Binder (Watcher ρ)} {outcome : Outcome} {w : Watched σ}
    {session : SessionId} (hends : CycleEnds r x phase c outcome w)
    (hsession : x.binder.session = session)
    (hseen : x.binder.view = .txHistory → (latest (before ++ past)).isSome →
      x.binder.anchorSeen = true)
    (hawaited : ∀ answer, phase.answer? = some answer → x.binder.view = .txHistory →
      Awaited (r.selected x.selection) past answer) :
    ∃ new, w.calls = r.world.calls ++ new ∧
      Follows (Call.Fits session (r.selected x.selection) before) past new ∧
      (x.binder.view ≠ .txHistory → ∀ calls, latest (calls ++ new) = latest calls) ∧
      (x.binder.view = .txHistory → (latest (before ++ (past ++ new))).isSome →
        c.anchorSeen = true) := by
  have hbegun := emits_begin x.binder (r.selected x.selection) r.world
  cases hends with
  | absent _ _ hbegin =>
    rw [hbegin] at hbegun
    obtain ⟨new, hcalls, rfl, hc⟩ := hbegun
    refine ⟨[], hcalls, trivial, fun _ calls => ?_, fun hv hsome => ?_⟩
    · rw [List.append_nil]
    · rw [List.append_nil] at hsome
      rw [show c = x.binder from hc]
      exact hseen hv hsome
  | @ready _ c c' answer _ w₁ w₂ _ _ hbegin hfinish =>
    rw [hbegin] at hbegun
    obtain ⟨new, hcalls, first, rfl, hopens⟩ := hbegun
    obtain ⟨more, hmore, huses⟩ := emits_finish c answer w₁
    have hkept := (c.finish_yields answer w₁).2
    rw [hfinish] at hmore hkept
    have hkin : c.view = x.binder.view ∧ c.session = x.binder.session ∧ c.anchorSeen = true := by
      obtain ⟨shown, hc⟩ := hopens.binder
      rw [show c = _ from hc]
      exact ⟨rfl, rfl, rfl⟩
    refine ⟨first ++ [.asked (x.binder.request (r.selected x.selection)) (.ready answer)] ++ more,
      ?_, ?_, ?_, ?_⟩
    · rw [← List.append_assoc, ← hcalls]
      exact hmore
    · refine (hopens.follows hseen _).append (Binder.follows_uses huses ?_ fun hv => ?_)
      · exact hkin.2.1.trans hsession
      · exact Binder.awaited_request (hkin.1.symm.trans hv) past first _
    · intro hv calls
      rw [← List.append_assoc, latest_append_of_none _ fun d hd => (huses d hd).inquiry?]
      exact hopens.latest_append hv calls _
    · exact fun _ _ => hkept.trans hkin.2.2
  | @answered answer c _ _ hfinish =>
    obtain ⟨new, hcalls, huses⟩ := emits_finish x.binder answer r.world
    have hkept := (x.binder.finish_yields answer r.world).2
    rw [hfinish] at hcalls hkept
    have hno : ∀ d ∈ new, d.inquiry? = none := fun d hd => (huses d hd).inquiry?
    refine ⟨new, hcalls, Binder.follows_uses huses hsession (hawaited answer rfl), ?_, ?_⟩
    · exact fun _ calls => latest_append_of_none calls hno
    · intro hv hsome
      rw [← List.append_assoc, latest_append_of_none _ hno] at hsome
      exact hkept.trans (hseen hv hsome)

/-- A task that finds the lock free asks for the page that is selected. -/
theorem asked_timely {key : String} {answer : Fallible (Option Snapshot)}
    {c : Binder (Watcher ρ)} {w : Watched σ} {lock : Lock} (h : r.InOrder s (some id))
    (ht : r.Timely s before past) (hx : r.binders[b]? = some x)
    (hid : r.executor.live? id = some (.poll b policy phase, false))
    (hfree : x.lock.isFree = true)
    (hbegin : (x.binder.begin (r.selected x.selection)).run r.world =
      ((c, .asked (.held key answer)), w))
    (hworld : r'.world = w) (hselections : r'.selections = r.selections)
    (hbinders : r'.binders = r.binders.set b { x with binder := c, lock })
    (hlive : ∀ t, r'.executor.live? t =
      if t = id then some (.poll b policy (.waiting answer), false) else r.executor.live? t) :
    ∃ new, r'.Timely s before (past ++ new) ∧
      Follows (Call.Fits s.session (r.selected s.selection) before) past new := by
  have hselection := (h.orderly.own x (List.mem_of_getElem? hx)).2.2
  have hbegun := emits_begin x.binder (r.selected x.selection) r.world
  rw [hbegin, hselection] at hbegun
  obtain ⟨new, hcalls, first, rfl, hopens⟩ := hbegun
  obtain ⟨shown, hc⟩ := hopens.binder
  refine ⟨_, ht.cycled h hx (hworld ▸ hcalls) hselections hbinders ?_ (fun t hti => ?_)
    (fun t => h.orderly.alone hx hid (.inr (holder_of_isFree hfree))) ?_ ?_ ?_,
    hopens.follows (ht.anchorSeen h hx) _⟩
  · rw [show c = _ from hc]
  · rw [hlive, if_neg hti]
  · exact fun hv calls => hopens.latest_append hv calls _
  · intro b' policy' phase' answer' ht' hphase
    rw [hlive, if_pos rfl] at ht'
    cases ht'
    cases hphase
    exact ⟨rfl, fun hv => Binder.awaited_request hv past first _⟩
  · rw [show c = _ from hc]
    exact fun _ _ => rfl

/-- A task that comes to the end of a cycle has looked at the answer to the latest request. -/
theorem ended_timely {c : Binder (Watcher ρ)} {outcome : Outcome} {w : Watched σ}
    (h : r.InOrder s (some id)) (ht : r.Timely s before past) (hx : r.binders[b]? = some x)
    (hid : r.executor.live? id = some (.poll b policy phase, false))
    (hends : CycleEnds r x phase c outcome w) :
    ∃ new, (r.ended id b policy x (phase.vacated x.lock) c outcome w).Timely s before
        (past ++ new) ∧
      Follows (Call.Fits s.session (r.selected s.selection) before) past new := by
  obtain ⟨hsession, -, hselection⟩ := h.orderly.own x (List.mem_of_getElem? hx)
  have hawaited (answer : Fallible (Option Snapshot)) (hphase : phase.answer? = some answer)
      (hv : x.binder.view = .txHistory) : Awaited (r.selected x.selection) past answer :=
    hselection ▸ ht.pending id b policy phase answer _ hid hphase (binder?_of_getElem? hx) hv
  obtain ⟨new, hcalls, hfollows, hlatest, hseen⟩ := hends.record hsession
    (ht.anchorSeen h hx) hawaited
  obtain ⟨slept, hslept, hrest⟩ := emits_rest c policy outcome w
  have hplain : ∀ d ∈ slept, d.IsPlain := by
    intro d hd
    obtain ⟨delay, rfl⟩ := hrest d hd
    trivial
  have hno : ∀ d ∈ slept, d.inquiry? = none := fun d hd => (hplain d hd).inquiry?
  obtain ⟨hworld, hbinders, hselections⟩ :=
    r.ended_page id b policy x (phase.vacated x.lock) c outcome w
  refine ⟨new ++ slept, ht.cycled h hx ?_ hselections hbinders hends.kin.view
    (fun t hti => ended_live?_ne hid hti) (fun t => h.orderly.alone hx hid hends.holds)
    (fun hv calls => ?_) (fun b' policy' phase' answer hlive hphase => ?_)
    (fun hv hsome => ?_), ?_⟩
  · rw [hworld, hslept, hcalls, List.append_assoc]
  · rw [← List.append_assoc, latest_append_of_none _ hno, hlatest hv]
  · -- A task that goes on has gone to sleep.
    have hsleeps := ended_live?_self hid hlive
    cases hsleeps
    contradiction
  · rw [← List.append_assoc, ← List.append_assoc, latest_append_of_none _ hno,
      List.append_assoc] at hsome
    exact hseen hv hsome
  · rw [← hselection]
    exact hfollows.append (follows_plain hplain)

omit [Host ρ σ] in
/-- A task that has to wait for its binder gets a place. -/
theorem joins_idles (hx : r.binders[b]? = some x)
    (hid : r.executor.live? id = some (.poll b policy phase, false)) (lock : Lock) (place : Nat) :
    r.Idles { r with binders := r.binders.set b { x with lock },
                     executor := r.executor.setBody id (.poll b policy (.queued place)) } := by
  refine .of_silent rfl rfl (sameBinders_set rfl hx rfl)
    (.of_changed (Executor.live?_setBody hid) ?_)
  intro _ _ _ hbody
  cases hbody
  rfl

omit [Host ρ σ] in
theorem waits_idles (hx : r.binders[b]? = some x) (lock : Lock) :
    r.Idles { r with binders := r.binders.set b { x with lock } } :=
  .of_silent rfl rfl (sameBinders_set rfl hx rfl) (.of_live? fun _ _ ht => ht)

theorem PollTurn.timely (h : r.InOrder s (some id)) (ht : r.Timely s before past)
    (hx : r.binders[b]? = some x) (hid : r.executor.live? id = some (.poll b policy phase, false))
    (hturn : PollTurn r id b policy x phase r') :
    ∃ new, r'.Timely s before (past ++ new) ∧
      Follows (Call.Fits s.session (r.selected s.selection) before) past new := by
  cases hturn with
  | idle => exact ht.idles (.refl r)
  | joins hbusy => exact ht.idles (joins_idles hx hid _ _)
  | waits hbusy => exact ht.idles (waits_idles hx _)
  | asks hseeks hfree hbegin =>
    exact asked_timely h ht hx hid hfree hbegin rfl rfl rfl (Executor.live?_setBody hid)
  | ends hends => exact ended_timely h ht hx hid hends

/-- The calls of the heartbeat are beats and sleeps for its interval. -/
theorem heartbeatTurn_calls {p : Call → Prop} (r : Run (Watcher ρ) (Watched σ)) (id : TaskId)
    (access : Watcher ρ) (interval : Millis) (phase : Phase (Fallible Unit))
    (hbeat : ∀ reply, p (.beat reply)) (hslept : p (.slept interval)) :
    ∃ new, (r.heartbeatTurn id access interval phase).world.calls = r.world.calls ++ new ∧
      ∀ c ∈ new, p c := by
  have hanswer (w : Watched σ) (first : List Call) (hw : w.calls = r.world.calls ++ first)
      (hfirst : ∀ c ∈ first, p c) (answer : Fallible Unit) : ∃ new,
      (Run.answerHeartbeat { r with world := w } id access interval answer).world.calls =
        r.world.calls ++ new ∧ ∀ c ∈ new, p c := by
    refine ⟨first ++ [.slept interval], ?_, ?_⟩
    · rw [← List.append_assoc, ← hw]
      cases answer <;> rfl
    · intro c hc
      rcases List.mem_append.mp hc with hc | hc
      · exact hfirst c hc
      · rw [List.mem_singleton.mp hc]
        exact hslept
  unfold heartbeatTurn act
  cases phase with
  | start =>
    have hcalls : ((Host.heartbeat access).run r.world).2.calls =
      r.world.calls ++ [.beat ((Host.heartbeat access).run r.world).1] := rfl
    have hfirst : ∀ c ∈ [Call.beat ((Host.heartbeat access).run r.world).1], p c := by
      intro c hc
      rw [List.mem_singleton.mp hc]
      exact hbeat _
    dsimp only
    generalize (Host.heartbeat access).run r.world = beaten at hcalls hfirst
    obtain ⟨reply, w⟩ := beaten
    cases reply with
    | ready answer => exact hanswer w _ hcalls hfirst answer
    | held key answer => exact ⟨_, hcalls, hfirst⟩
  | answered answer =>
    exact hanswer r.world [] (List.append_nil _).symm (List.forall_mem_nil _) answer
  | queued => exact ⟨[], (List.append_nil _).symm, List.forall_mem_nil _⟩
  | waiting => exact ⟨[], (List.append_nil _).symm, List.forall_mem_nil _⟩
  | sleeping => exact ⟨[], (List.append_nil _).symm, List.forall_mem_nil _⟩

omit [Host ρ σ] in
theorem disposes_idles (r : Run (Watcher ρ) (Watched σ)) (body : Body (Watcher ρ)) (id : TaskId) :
    r.Idles ((r.dispose body).finishTask id) := by
  have hletsGo := dispose_letsGo r body
  refine .of_silent (congrArg _ hletsGo.world) hletsGo.selections hletsGo.binders
    (.of_live? fun t other hlive => ?_)
  have hfinished : ((r.dispose body).executor.finish id).live? t = some (other, false) := hlive
  rw [Executor.live?_finish] at hfinished
  split at hfinished
  · contradiction
  · rwa [Executor.live?_congr hletsGo.tasks] at hfinished

theorem beats_idles {access : Watcher ρ} {interval : Millis} {phase : Phase (Fallible Unit)}
    (hid : r.executor.live? id = some (.heartbeat access interval phase, false)) :
    r.Idles (r.heartbeatTurn id access interval phase) := by
  have hcalls := heartbeatTurn_calls (p := Call.IsPlain) r id access interval phase
    (fun _ => trivial) trivial
  rcases heartbeatTurn_cases r id access interval phase with hsame | ⟨_, _, _, phase', hbeats⟩
  · rw [hsame]
    exact .refl r
  · rw [hbeats] at hcalls ⊢
    refine ⟨hcalls, rfl, fun _ => rfl, .of_changed (Executor.live?_setBody hid) ?_⟩
    intro _ _ _ hbody
    cases hbody

theorem Turned.timely (hturned : Turned r id r') (h : r.InOrder s (some id))
    (ht : r.Timely s before past) :
    ∃ new, r'.Timely s before (past ++ new) ∧
      Follows (Call.Fits s.session (r.selected s.selection) before) past new := by
  cases hturned with
  | gone => exact ht.idles (.refl r)
  | @disposes body => exact ht.idles (disposes_idles r body id)
  | polls hx hid hturn => exact PollTurn.timely h ht hx hid hturn
  | beats hid => exact ht.idles (beats_idles hid)

theorem Turned.selections (hturned : Turned r id r') : r'.selections = r.selections := by
  cases hturned with
  | gone => rfl
  | @disposes body hid => exact (dispose_letsGo r body).selections
  | polls hx hid hturn =>
    cases hturn with
    | ends => exact (ended_page _ _ _ _ _ _ _ _ _).2.2
    | _ => rfl
  | @beats access interval phase hid =>
    rcases heartbeatTurn_cases r id access interval phase with hsame | ⟨_, _, _, phase', hbeats⟩
    · rw [hsame]
    · rw [hbeats]

/-! ### Moves -/

/-- Others do not make calls of the service. -/
def unheard (w w' : Watched σ) : Prop :=
  w'.calls = w.calls

omit [Host ρ σ] in
/-- Waking a task brings it no answer that it did not wait for. -/
theorem answer?_of_resumed {change : Body (Watcher ρ) → Body (Watcher ρ)}
    (hchange : change = awakened ∨ change = answered) {body : Body (Watcher ρ)}
    {answer : Fallible (Option Snapshot)} (hbody : change body = .poll b policy phase)
    (hphase : phase.answer? = some answer) :
    ∃ phase', body = .poll b policy phase' ∧ phase'.answer? = some answer := by
  rcases hchange with rfl | rfl
  · cases body with
    | poll b₀ policy₀ phase₀ =>
      cases phase₀ <;> cases hbody <;> exact ⟨_, rfl, hphase⟩
    | heartbeat access interval phase₀ => cases phase₀ <;> cases hbody
    | shutdown => cases hbody
  · cases body with
    | poll b₀ policy₀ phase₀ => cases phase₀ <;> cases hbody <;> exact ⟨_, rfl, hphase⟩
    | heartbeat access interval phase₀ => cases phase₀ <;> cases hbody
    | shutdown service promise phase₀ => cases phase₀ <;> cases hbody

omit [Host ρ σ] in
theorem resume_page (r : Run (Watcher ρ) (Watched σ))
    (change : Body (Watcher ρ) → Body (Watcher ρ)) (id : TaskId) :
    (r.resume change id).world = r.world ∧ (r.resume change id).selections = r.selections ∧
      (r.resume change id).binders = r.binders := by
  unfold Run.resume
  split <;> exact ⟨rfl, rfl, rfl⟩

omit [Host ρ σ] in
theorem resume_noNewAnswers {change : Body (Watcher ρ) → Body (Watcher ρ)}
    (hchange : change = awakened ∨ change = answered) (id : TaskId) :
    r.NoNewAnswers (r.resume change id) := by
  unfold Run.resume
  cases hid : r.executor.live? id with
  | none => exact .refl r
  | some task =>
    obtain ⟨body, isAborted⟩ := task
    intro t b policy phase answer hlive hphase
    have hwoken : ((r.executor.setBody id (change body)).wake id).live? t =
      some (.poll b policy phase, false) := hlive
    rw [Executor.live?_wake, Executor.live?_setBody hid] at hwoken
    split at hwoken
    · rename_i hti
      obtain ⟨hbody, rfl⟩ := Prod.mk.inj (Option.some.inj hwoken)
      obtain ⟨phase', rfl, hphase'⟩ := answer?_of_resumed hchange hbody hphase
      exact ⟨policy, phase', hti ▸ hid, hphase'⟩
    · exact ⟨policy, phase, hwoken, hphase⟩

/-- A new binder is painted from the cache, at a time when its view was not asked for. -/
theorem bind_timely (h : r.InOrder s none) (ht : r.Timely s before past) {v : View}
    (hnew : s.binders.lookup v = none) :
    ∃ new, (r.binderFor 0 s v).2.Timely s before (past ++ new) ∧
      Follows (Call.Fits s.session (r.selected s.selection) before) past new := by
  obtain ⟨new, shown, hcalls, -, hrecollects⟩ := (s.newBinder v).hydrate_recollects r.world
  have hrecalls := hrecollects.recalls
  have hno : ∀ c ∈ new, c.inquiry? = none := fun c hc => (hrecalls c hc).inquiry?
  have hunasked (hv : v = .txHistory) : latest (before ++ past) = none := by
    cases hlatest : latest (before ++ past) with
    | none => rfl
    | some inquiry =>
      obtain ⟨b, c, hc, hcv, -⟩ := ht.seen (by rw [hlatest]; rfl)
      rw [binder?, Option.map_eq_some_iff] at hc
      obtain ⟨x, hx, rfl⟩ := hc
      have hb := (h.orderly.known v b).mpr ⟨x, hx, hcv.trans hv.symm⟩
      rw [hnew] at hb
      contradiction
  rw [binderFor_new h.services hnew]
  refine ⟨new, ⟨?_, ht.selection, ?_, ?_⟩, ?_⟩
  · show ((s.newBinder v).hydrate.run r.world).2.calls = _
    rw [hcalls, ht.calls, List.append_assoc]
  · intro t b policy phase answer c hlive hphase hc hv
    have hlt : b < r.binders.length := h.orderly.within t _ _ hlive
    have hold : r.binder? b = some c := by
      unfold binder? at hc ⊢
      rwa [List.getElem?_append_left hlt] at hc
    exact (ht.pending t b policy phase answer c hlive hphase hold hv).congr
      (latest_append_of_none past hno)
  · rw [← List.append_assoc, latest_append_of_none _ hno]
    intro hsome
    obtain ⟨b, c, hc, hv, hseen⟩ := ht.seen hsome
    refine ⟨b, c, ?_, hv, hseen⟩
    unfold binder? at hc ⊢
    rw [Option.map_eq_some_iff] at hc ⊢
    obtain ⟨x, hx, hxc⟩ := hc
    exact ⟨x, by rw [List.getElem?_append_left (List.getElem?_eq_some_iff.mp hx).1, hx], hxc⟩
  · refine follows_of_forall hno fun past' _ hsame c hc => (hrecalls c hc).fits fun hv => ?_
    rw [hsame]
    exact hunasked hv

/-- A move is a turn, makes a new binder, or does nothing that bears on what is asked for. -/
theorem Move.idles_or (hmove : Move unheard r r') :
    r.next? = some r' ∨ r.Idles r' ∨ ∃ s v, r.services = [s] ∧ s.binders.lookup v = none ∧
      r' = (r.binderFor 0 s v).2 := by
  have hlive (hsame : ∀ t, r'.executor.live? t = r.executor.live? t) : r.NoNewAnswers r' :=
    .of_live? fun t _ ht => hsame t ▸ ht
  cases hmove with
  | turn hnext => exact .inl hnext
  | bind hs hnew => exact .inr (.inr ⟨_, _, hs, hnew, rfl⟩)
  | @resume change hchange id =>
    obtain ⟨hworld, hselections, hbinders⟩ := r.resume_page change id
    refine .inr (.inl (.of_silent (congrArg _ hworld) hselections (fun b => ?_)
      (resume_noNewAnswers hchange id)))
    rw [binder?, binder?, hbinders]
  | change hw => exact .inr (.inl (.of_silent hw rfl (.refl r) (hlive fun _ => rfl)))
  | sweep access =>
    obtain ⟨new, hcalls, hremoved⟩ := emits_sweep access r.world
    refine .inr (.inl ⟨⟨new, hcalls, fun c hc => ?_⟩, rfl, fun _ => rfl, hlive fun _ => rfl⟩)
    obtain ⟨key, rfl⟩ := hremoved c hc
    trivial
  | abort id =>
    refine .inr (.inl (.of_silent rfl rfl (fun _ => rfl) (.of_live? fun t body hlive => ?_)))
    have haborted : (r.executor.abort id).live? t = some (body, false) := hlive
    rw [Executor.live?_abort] at haborted
    split at haborted
    · cases hold : r.executor.live? t <;> simp [hold] at haborted
    · exact haborted
  | spawn hs hbody hhalted hspawn hregistry =>
    refine .inr (.inl (.of_silent rfl rfl (fun _ => rfl)
      (.of_changed (Executor.live?_spawn hspawn) ?_)))
    rintro _ _ _ rfl
    cases hbody
    rfl
  | _ => exact .inr (.inl (.of_silent rfl rfl (fun _ => rfl) (hlive fun _ => rfl)))

theorem Move.timely (hmove : Move unheard r r') (h : r.InOrder s none)
    (ht : r.Timely s before past) :
    r'.selections = r.selections ∧ ∃ new, r'.Timely s before (past ++ new) ∧
      Follows (Call.Fits s.session (r.selected s.selection) before) past new := by
  rcases hmove.idles_or with hnext | hidles | ⟨s', v, hs, hnew, rfl⟩
  · obtain ⟨id, executor, hpop, hpopped, hturned⟩ := next?_cases h hnext
    obtain ⟨rest, -, rfl⟩ := Executor.next?_eq_some_iff.mp hpop
    have htimely : Timely { r with executor := { r.executor with ready := rest } } s before past :=
      ⟨ht.calls, ht.selection, ht.pending, ht.seen⟩
    exact ⟨hturned.selections, hturned.timely hpopped htimely⟩
  · exact ⟨hidles.selections, ht.idles hidles⟩
  · obtain rfl : s' = s := List.singleton_inj.mp (hs.symm.trans h.services)
    refine ⟨?_, bind_timely h ht hnew⟩
    rw [binderFor_new hs hnew]

omit [Host ρ σ] in
theorem Timely.kin {s' : Service (Watcher ρ)} (h : r.Timely s before past) (hkin : s.Kin s') :
    r.Timely s' before past where
  calls := h.calls
  selection := hkin.selection ▸ h.selection
  pending := hkin.selection ▸ h.pending
  seen := h.seen

/-- What a run has come to: still in order and in time, after calls each of which satisfies
a condition on the calls before it. -/
def Reaches (s : Service (Watcher ρ)) (before past : List Call) (P : List Call → Call → Prop)
    (r' : Run (Watcher ρ) (Watched σ)) : Prop :=
  ∃ s' new, r'.InOrder s' none ∧ s.Kin s' ∧ r'.Timely s' before (past ++ new) ∧
    Follows P past new

theorem Moves.timely (hmoves : Moves unheard r r') (h : r.InOrder s none)
    (ht : r.Timely s before past) :
    r'.selections = r.selections ∧
      Reaches s before past (Call.Fits s.session (r.selected s.selection) before) r' := by
  induction hmoves with
  | refl =>
    refine ⟨rfl, s, [], h, .refl s, ?_, trivial⟩
    rwa [List.append_nil]
  | @tail r₁ r₂ _ hlast ih =>
    obtain ⟨hselections, s₁, new, h₁, hkin₁, ht₁, hnew⟩ := ih
    obtain ⟨hselections', more, ht₂, hmore⟩ := hlast.timely h₁ ht₁
    obtain ⟨s₂, h₂, hkin₂⟩ := hlast.inOrder h₁
    refine ⟨hselections'.trans hselections, s₂, new ++ more, h₂, hkin₁.trans hkin₂, ?_,
      hnew.append ?_⟩
    · rw [← List.append_assoc]
      exact ht₂.kin hkin₂
    · have hpage : r₁.selected s₁.selection = r.selected s.selection := by
        unfold selected
        rw [hselections, hkin₁.selection]
      rwa [hkin₁.session, hpage] at hmore

omit [Host ρ σ] in
/-- A selection may start a new account of the calls: nothing is pending. -/
theorem turnedTo_timely (h : r.InOrder s none) (ht : r.Timely s before past)
    (hhalted : r.Halted s (.view .txHistory s.session)) (page : PageNumber)
    {before' past' : List Call} (hcalls : r.world.calls = before' ++ past') :
    (r.turnedTo s page).Timely s before' past' := by
  refine ⟨hcalls, ?_, fun t b policy phase answer c hlive hphase hc hv => ?_, ?_⟩
  · show s.selection < (r.selections.set s.selection (some page)).length
    rw [List.length_set]
    exact ht.selection
  · obtain ⟨v, hvb, htask⟩ := h.orderly.registered t b policy phase hlive
    obtain ⟨x, hx, hxv⟩ := (h.orderly.known v b).mp hvb
    have hcx : c = x.binder := by
      have hc' : r.binder? b = some c := hc
      rw [binder?_of_getElem? hx] at hc'
      exact (Option.some.inj hc').symm
    obtain rfl : v = .txHistory := hxv.symm.trans (hcx ▸ hv)
    exact absurd hlive (hhalted t htask _)
  · rw [← hcalls, ht.calls]
    exact ht.seen

/-- From a selection on, the calls have an account of their own. -/
theorem selectPage_timely (h : r.InOrder s none) (ht : r.Timely s before past)
    {page : PageNumber} (hpage : page ≠ 0) {before' past' : List Call}
    (hcalls : r.world.calls = before' ++ past') :
    (r.selectPage 0 page).2.selected s.selection = some page ∧
      Reaches s before' past' (Call.Fits s.session (some page) before')
        (r.selectPage 0 page).2 := by
  have hstopped : Moves unheard r (r.stopped s (.view .txHistory s.session)) := r.stopped_moves s _
  obtain ⟨-, s₁, new, h₁, -, ht₁, -⟩ := hstopped.timely h ht
  obtain rfl : s₁ = s := List.singleton_inj.mp (h₁.services.symm.trans h.services)
  have hturned := turnedTo_timely h₁ ht₁ (r.halted_stopped s₁ _) page hcalls
  have hmoves : Moves unheard _ (r.selectPage 0 page).2 := selectPage_moves h.services hpage
  have hpageSelected : ((r.stopped s₁ (.view .txHistory s₁.session)).turnedTo s₁ page).selected
      s₁.selection = some page := by
    show ((r.selections.set s₁.selection (some page))[s₁.selection]?).join = some page
    rw [List.getElem?_set_self ht.selection]
    rfl
  obtain ⟨hselections, hreaches⟩ := hmoves.timely ⟨h₁.services, h₁.orderly⟩ hturned
  rw [hpageSelected] at hreaches
  refine ⟨?_, hreaches⟩
  rw [← hpageSelected]
  unfold selected
  rw [hselections]

end Run

section

variable {r : Run (Watcher ρ) (Watched σ)} {s : Service (Watcher ρ)} {before past : List Call}

theorem Act.watched_within (act : Act σ) : act.watched.Within Run.unheard := by
  intro f hact w
  cases act <;> cases hact
  rfl

theorem Act.watched_ne {act : Act σ} (hselect : ∀ page, act ≠ .selectPage page)
    (page : PageNumber) : act.watched ≠ .selectPage page := by
  intro hact
  cases act <;> cases hact
  exact hselect page rfl

variable [Host ρ σ]

/-- Whatever happens, each call fits the page that is selected then. -/
theorem Act.step_timely (h : r.InOrder s none) (ht : r.Timely s before past) (act : Act σ) :
    Run.Reaches s before past
      (Call.Fits s.session ((act.watched.step r).selected s.selection) before)
      (act.watched.step r) := by
  by_cases hselect : ∃ page, act = .selectPage page
  · obtain ⟨page, rfl⟩ := hselect
    show Run.Reaches s before past
      (Call.Fits s.session ((r.selectPage 0 page).2.selected s.selection) before)
      (r.selectPage 0 page).2
    by_cases hpage : page = 0
    · rw [hpage, Run.selectPage_zero h.services]
      refine ⟨s, [], h, .refl s, ?_, trivial⟩
      rwa [List.append_nil]
    · obtain ⟨hselected, hreaches⟩ := Run.selectPage_timely h ht hpage ht.calls
      rwa [hselected]
  · have hmoves : Run.Moves Run.unheard r (act.watched.step r) :=
      Act.step_moves h.services act.watched_within
        (Act.watched_ne fun page hact => hselect ⟨page, hact⟩)
    obtain ⟨hselections, hreaches⟩ := hmoves.timely h ht
    have hselected : (act.watched.step r).selected s.selection = r.selected s.selection := by
      unfold Run.selected
      rw [hselections]
    rwa [hselected]

theorem Run.after_timely (h : r.InOrder s none) (ht : r.Timely s before past)
    (acts : List (Act σ)) :
    Run.Reaches s before past (fun past c => ∃ page, c.Fits s.session page before past)
      (r.after (acts.map Act.watched)) := by
  induction acts generalizing r s past with
  | nil =>
    refine ⟨s, [], h, .refl s, ?_, trivial⟩
    rwa [List.append_nil]
  | cons act rest ih =>
    obtain ⟨s₁, new, h₁, hkin₁, ht₁, hnew⟩ := act.step_timely h ht
    obtain ⟨s₂, more, h₂, hkin₂, ht₂, hmore⟩ := ih h₁ ht₁
    refine ⟨s₂, new ++ more, h₂, hkin₁.trans hkin₂, ?_, ?_⟩
    · rw [← List.append_assoc]
      exact ht₂
    · rw [hkin₁.session] at hmore
      exact (hnew.mono fun _ _ hfits => ⟨_, hfits⟩).append hmore

end

/-- What holds of the pages of the transaction history in a run, whatever has happened to
its service. -/
structure Run.UpToDate [Host ρ σ] (r : Run (Watcher ρ) (Watched σ)) (session : SessionId) :
    Prop where
  /-- An answer that is still to be looked at answers the latest request, for the page that
  is selected. -/
  pending : ∀ t b policy phase answer x,
    r.executor.live? t = some (.poll b policy phase, false) → phase.answer? = some answer →
    r.binders[b]? = some x → x.binder.view = .txHistory →
    Awaited (r.selected 0) r.world.calls answer
  /-- Each call of the next act fits the page that is selected then. -/
  calls : ∀ act : Act σ, ∃ new, (act.watched.step r).world.calls = r.world.calls ++ new ∧
    Follows (Call.Fits session ((act.watched.step r).selected 0) []) r.world.calls new
  /-- After a selection no answer to a request from before it is shown or kept. -/
  selects : ∀ page ≠ 0, (r.selectPage 0 page).2.selected 0 = some page ∧
    ∀ more : List (Act σ), ∃ new,
      ((r.selectPage 0 page).2.after (more.map Act.watched)).world.calls = r.world.calls ++ new ∧
      Follows (fun past c => ∃ page, c.Fits session page r.world.calls past) [] new
  refuses : r.selectPage 0 0 = (.error (ValidationProblem.invalidPage "pages start at 1"), r)

theorem Run.opened_timely [Host ρ σ] (world : σ) (session : SessionId) (config : Config)
    (access : ρ) :
    (Run.opened ⟨world, []⟩ session config (Watcher.mk access)).Timely
      { session, config, access := Watcher.mk access, selection := 0 } [] [] where
  calls := rfl
  selection := Nat.zero_lt_one
  pending _ _ _ _ _ _ hlive := nomatch hlive
  seen hsome := nomatch hsome

theorem Run.Timely.upToDate [Host ρ σ] {r : Run (Watcher ρ) (Watched σ)}
    {s : Service (Watcher ρ)} {calls : List Call} (h : r.InOrder s none)
    (ht : r.Timely s [] calls) (hselection : s.selection = 0) : r.UpToDate s.session := by
  have hcalls : r.world.calls = calls := ht.calls
  refine ⟨fun t b policy phase answer x hlive hphase hx hv => ?_, fun act => ?_,
    fun page hpage => ?_, Run.selectPage_zero h.services⟩
  · have hawaited := ht.pending t b policy phase answer _ hlive hphase
      (Run.binder?_of_getElem? hx) hv
    rwa [hselection, ← hcalls] at hawaited
  · obtain ⟨s', new, -, -, ht', hnew⟩ := act.step_timely h ht
    refine ⟨new, ?_, ?_⟩
    · rw [ht'.calls, hcalls, List.nil_append]
    · rwa [hselection, ← hcalls] at hnew
  · obtain ⟨hselected, s₁, new, h₁, hkin₁, ht₁, hnew⟩ :=
      Run.selectPage_timely h ht hpage (List.append_nil r.world.calls).symm
    refine ⟨hselection ▸ hselected, fun more => ?_⟩
    obtain ⟨s₂, rest, -, -, ht₂, hrest⟩ := Run.after_timely h₁ ht₁ more
    refine ⟨new ++ rest, ?_, ?_⟩
    · rw [ht₂.calls, List.nil_append]
    · rw [hkin₁.session] at hrest
      exact (hnew.mono fun _ _ hfits => ⟨_, hfits⟩).append hrest

/-- Whatever is done with a service and its page, the pages of the history are up to date. -/
theorem history_upToDate [Host ρ σ] (world : σ) (session : SessionId) (config : Config)
    (access : ρ) (acts : List (Act σ)) :
    (Run.underWatch world session config access acts).unwatched =
        (Run.opened world session config access).after acts ∧
      (Run.underWatch world session config access acts).UpToDate session := by
  obtain ⟨s, calls, h, hkin, ht, -⟩ := Run.after_timely
    (Run.opened_inOrder ⟨world, []⟩ session config (Watcher.mk access))
    (Run.opened_timely world session config access) acts
  refine ⟨Run.underWatch_unwatched world session config access acts, ?_⟩
  have hupToDate := Run.Timely.upToDate h ht hkin.selection
  rwa [hkin.session] at hupToDate

end WalletPage
