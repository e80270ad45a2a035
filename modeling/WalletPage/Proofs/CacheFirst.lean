import WalletPage.Proofs.Chapters
import WalletPage.Proofs.PollMarks

/-! The cache comes first. Only the history is painted from the cache, only before it is asked for,
and to the end at most once: whatever a binder shows or asks for marks it as one that does not look
into the cache again. -/

namespace WalletPage

variable {ρ σ : Type}

/-- The snapshot that is painted from the cache in a chapter, to the end. -/
def Chapter.shown? : Chapter → Option Snapshot
  | recalled _ _ shown => shown
  | _ => none

namespace Account

variable {idle : Call → Prop} {session : SessionId} {chapters : List Chapter} {c : Chapter}

/-- A chapter that shows a snapshot from the cache settles the history. -/
theorem settles_of_shown? (h : Account idle session chapters) (hc : c ∈ chapters)
    (hshown : c.shown?.isSome = true) : c.Settles .txHistory := by
  obtain ⟨before, hfits⟩ := h.fits_of_mem hc
  cases c with
  | recalled v calls shown => exact ⟨hfits.1, hshown⟩
  | _ => contradiction

/-- The history is painted from the cache to the end at most once, and nothing else is. -/
theorem once (h : Account idle session chapters) :
    (chapters.filterMap Chapter.shown?).length ≤ 1 := by
  induction h with
  | nil => exact Nat.zero_le 1
  | @concat past c hpast hc ih =>
    rw [List.filterMap_append]
    cases hshown : c.shown? with
    | none => simpa [hshown] using ih
    | some s =>
      have hnew : ∀ d ∈ past, ¬ d.Settles .txHistory := by
        cases c with
        | recalled v calls shown => exact hc.1 ▸ hc.2.1
        | _ => contradiction
      have hnone : past.filterMap Chapter.shown? = [] :=
        List.filterMap_eq_nil_iff.mpr fun d hd => Option.not_isSome_iff_eq_none.mp fun hsome =>
          hnew d hd (hpast.settles_of_shown? hd hsome)
      rw [hnone]
      simp [hshown]

end Account

namespace Run

variable [Host ρ σ] {r r' : Run (Watcher ρ) (Watched σ)} {s : Service (Watcher ρ)} {id : TaskId}
  {b : BinderId} {policy : Policy} {phase : Phase (Fallible (Option Snapshot))}
  {x : Shared (Watcher ρ)}

/-- Whatever is done with a service, there is an account of its calls. -/
theorem underWatch_accounts (world : σ) (session : SessionId) (config : Config) (access : ρ)
    (acts : List (Act σ)) : ∃ s chapters, s.session = session ∧ s.access = Watcher.mk access ∧
      (underWatch world session config access acts).InOrder s none ∧
      (underWatch world session config access acts).Accounts Call.IsPlain session chapters := by
  have hopened := opened_inOrder (⟨world, []⟩ : Watched σ) session config (Watcher.mk access)
  have hwithin : ∀ act ∈ acts.map (Act.watched (σ := σ)), act.Within (heard Call.IsPlain) := by
    intro act hact
    obtain ⟨a, -, rfl⟩ := List.mem_map.mp hact
    exact a.watched_heard _
  obtain ⟨s, h, ⟨hsession, haccess⟩, chapters, hr⟩ :=
    (accounts_invariant (fun _ => id) session (Watcher.mk access) []).after hwithin
      ⟨_, hopened, ⟨rfl, rfl⟩, [], opened_accounts world session config access⟩
  exact ⟨s, chapters, hsession, haccess, h, hr⟩

/-- A task that finds the anchor of its view asks. -/
theorem PollTurn.asks_of_looked (hturn : PollTurn r id b policy x phase r') {t : TaskId} {v : View}
    {events : List PollEvent}
    (hevents : r.eventsAt id policy x phase = .looked t v true :: events) :
    x.binder.view = v ∧ ∃ c reply w rest,
      (x.binder.begin (r.selected x.selection)).run r.world = ((c, .asked reply), w) ∧
      r'.world.calls = w.calls ++ rest := by
  have hlooks := x.binder.begin_looks (r.selected x.selection) r.world
  have hbusy (h : x.lock.isFree = false) : ¬ x.lock.isFree = true := by
    rw [h]
    exact Bool.false_ne_true
  have hlooked (hseeks : phase.Seeks) (hfree : x.lock.isFree = true) : x.binder.view = v ∧
      ((Host.anchorPresent x.binder.access x.binder.view.anchor).run r.world).1 = true := by
    rw [eventsAt_of_seeks hseeks hfree, Binder.cycleEvents] at hevents
    exact (PollEvent.looked.inj (List.cons.inj hevents).1).2
  cases hturn with
  | idle hwaits => cases phase <;> first | exact hwaits.elim | contradiction
  | joins h => exact absurd (hevents.symm.trans (if_neg (hbusy h))) (List.cons_ne_nil _ _)
  | waits h => exact absurd (hevents.symm.trans (if_neg (hbusy h))) (List.cons_ne_nil _ _)
  | asks hseeks hfree hbegin =>
    exact ⟨(hlooked hseeks hfree).1, _, _, _, [], hbegin, (List.append_nil _).symm⟩
  | @ends _ c outcome w hends =>
    obtain ⟨hworld, -⟩ := r.ended_page id b policy x (phase.vacated x.lock) c outcome w
    obtain ⟨slept, hslept, -⟩ := emits_rest c policy outcome w
    cases hends with
    | absent hseeks hfree hbegin =>
      rw [hbegin] at hlooks
      exact absurd (hlooks.symm.trans (hlooked hseeks hfree).2) Bool.false_ne_true
    | @ready _ c' _ answer _ w₁ _ hseeks hfree hbegin hfinish =>
      obtain ⟨used, hused, -⟩ := emits_finish c' answer w₁
      rw [hfinish] at hused
      refine ⟨(hlooked hseeks hfree).1, _, _, _, used ++ slept, hbegin, ?_⟩
      rw [hworld, hslept, ← List.append_assoc, ← hused]
    | answered =>
      obtain ⟨hclosed, -⟩ := List.cons.inj hevents
      cases hclosed

/-- In a turn that finds the anchor of a view, its binder asks. -/
theorem turn_asks (h : r.InOrder s none) {t : TaskId} {v : View} {events : List PollEvent}
    (hevents : r.turnEvents = .looked t v true :: events) :
    ∃ x ∈ r.binders, x.binder.view = v ∧ ∃ r' c reply w rest, r.next? = some r' ∧
      (x.binder.begin (r.selected x.selection)).run r.world = ((c, .asked reply), w) ∧
      r'.world.calls = w.calls ++ rest := by
  cases hnext : r.next? with
  | none =>
    unfold next? at hnext
    rw [Option.map_eq_none_iff] at hnext
    rw [turnEvents, hnext] at hevents
    contradiction
  | some r' =>
    obtain ⟨id, executor, hpop, -, hturned⟩ := next?_cases h hnext
    rw [turnEvents, hpop] at hevents
    dsimp only at hevents
    unfold eventsOf at hevents
    cases hturned with
    | gone hid =>
      rw [hid] at hevents
      contradiction
    | @disposes body hid =>
      rw [hid] at hevents
      cases body <;> contradiction
    | beats hid =>
      rw [hid] at hevents
      contradiction
    | @polls _ b policy x phase hx hid hturn =>
      rw [hid] at hevents
      dsimp only at hevents
      rw [hx] at hevents
      obtain ⟨rest, -, rfl⟩ := Executor.next?_eq_some_iff.mp hpop
      obtain ⟨hview, c, reply, w, rest, hbegin, hcalls⟩ := hturn.asks_of_looked hevents
      exact ⟨x, List.mem_of_getElem? hx, hview, r', c, reply, w, rest, rfl, hbegin, hcalls⟩

end Run

/-! ### The cache comes first -/

/-- How a run of a service with a history paints from the cache. -/
structure Run.PaintsCacheFirst [Host ρ σ] (r : Run (Watcher ρ) (Watched σ)) (session : SessionId)
    (access : ρ) (history : List PollEvent) : Prop where
  /-- The calls have an account in which nothing is painted from the cache but the history, at
  most once to the end, and only before it is asked for. -/
  account : ∃ chapters, chapters.flatMap Chapter.calls = r.world.calls ∧
    Account Call.IsPlain session chapters ∧ (chapters.filterMap Chapter.shown?).length ≤ 1 ∧
    ∀ before v calls shown after, chapters = before ++ .recalled v calls shown :: after →
      v = .txHistory ∧ ∀ request reply, .asked request reply ∈ before → request.view ≠ v
  /-- If the next turn is the first one to find the anchor of the history, nothing was painted
  before, and the cache holds a snapshot, then it is painted before the request of that turn, to
  the end if no change is refused. -/
  first : wasFound history .txHistory = false → ∀ task events raw s,
    r.turnEvents = .looked task .txHistory true :: events →
    (Host.anchorPresent access View.txHistory.anchor).run r.world.world = (true, r.world.world) →
    ((Host.get? access (View.txHistory.cacheKey session.text)).run r.world.world).1 = some raw →
    s.DecodedFrom raw .txHistory →
    ∃ r' recalled shown request reply rest, r.next? = some r' ∧
      r'.world.calls = r.world.calls ++ (recalled ++ .asked request reply :: rest) ∧
      request.view = .txHistory ∧
      Recollection session .txHistory (some raw) recalled shown ∧
      (recalled.any Call.isRefusal = false → shown = some s)

/-- A binder of a service has seen its anchor if its view was found in the history. -/
theorem Run.anchorSeen_underWatch [Host ρ σ] (world : σ) (session : SessionId) (config : Config)
    (access : ρ) (acts : List (Act σ)) {x : Shared (Watcher ρ)}
    (hx : x ∈ (underWatch world session config access acts).binders) :
    x.binder.anchorSeen =
      wasFound (historyUnderWatch world session config access acts) x.binder.view :=
  (underWatch_goes world session config access acts).passes.recall.seen _ (List.mem_map_of_mem hx)

/-- However a service is used, cached content comes before what is fetched. Only the history is
painted from the cache, never after it was asked for, and at most once to the end; the first cycle
that finds its anchor paints what the cache holds before it asks. -/
theorem paints_cache_first [Host ρ σ] (world : σ) (session : SessionId) (config : Config)
    (access : ρ) (acts : List (Act σ)) :
    (Run.underWatch world session config access acts).unwatched =
        (Run.opened world session config access).after acts ∧
      (Run.underWatch world session config access acts).PaintsCacheFirst session access
        (Run.historyUnderWatch world session config access acts) := by
  obtain ⟨s, chapters, rfl, haccess, h, hr⟩ :=
    Run.underWatch_accounts world session config access acts
  refine ⟨Run.underWatch_unwatched .., ⟨chapters, hr.calls, hr.account, hr.account.once, ?_⟩, ?_⟩
  · intro before v calls shown after hsplit
    obtain ⟨hv, hfresh, -⟩ := (hr.account.split hsplit).2
    exact ⟨hv, fun request reply hasked hview => hfresh _ hasked hview⟩
  · intro hfirst task events raw cached hevents hlook hget hcached
    obtain ⟨x, hx, hview, r', c, reply, w, rest, hnext, hbegin, hcalls⟩ := Run.turn_asks h hevents
    obtain ⟨hsession, hxaccess, -⟩ := h.orderly.own x hx
    rw [haccess] at hxaccess
    have hseen := Run.anchorSeen_underWatch world s.session config access acts hx
    rw [hview, hfirst] at hseen
    obtain ⟨b, hb⟩ := List.mem_iff_getElem?.mp hx
    have hblank := hr.blank b x.binder (Run.binder?_of_getElem? hb) hseen
    obtain ⟨first, shown, hrecalled, -, hprepares⟩ := Binder.asked_prepares hbegin
    have hrecollection := hprepares.recollection hseen hblank (by rw [hview]; rfl)
      (by rw [hxaccess, hview]; exact hlook)
    rw [Binder.cacheKey, hxaccess, hview, hsession, hget] at hrecollection
    rw [hrecalled, List.append_assoc, List.append_assoc] at hcalls
    exact ⟨r', first, shown, _, reply, rest, hnext, hcalls, hview, hrecollection,
      hrecollection.eq_some hcached⟩

/-- A page that holds a history in its store, without its elements. -/
def unmountedHistoryPage : Page :=
  { store := Store.empty.put (View.txHistory.cacheKey SessionId.anonymous.text)
      (Snapshot.txHistory {}).stored }

/-- The history is mounted after its first cycle, and the sleep ends. -/
def mountedLate : List (Act Page) :=
  [.startView .txHistory, .run, .change (·.mountView .txHistory), .fire, .enroll]

/-- A history that is mounted late is painted from the cache before it is asked for. -/
theorem mounted_late_painted :
    ∃ r' recalled shown request reply rest,
      (Run.underWatch unmountedHistoryPage .anonymous {} PageAccess.only mountedLate).next? =
        some r' ∧
      r'.world.calls = (Run.underWatch unmountedHistoryPage .anonymous {} PageAccess.only
        mountedLate).world.calls ++ (recalled ++ .asked request reply :: rest) ∧
      request.view = .txHistory ∧
      Recollection .anonymous .txHistory (some (Snapshot.txHistory {}).stored) recalled shown ∧
      (recalled.any Call.isRefusal = false → shown = some (.txHistory {})) := by
  obtain ⟨-, -, hfirst⟩ :=
    paints_cache_first unmountedHistoryPage .anonymous {} PageAccess.only mountedLate
  have hunseen : wasFound (Run.historyUnderWatch unmountedHistoryPage .anonymous {}
      PageAccess.only mountedLate) .txHistory = false := rfl
  have hget : ((Host.get? PageAccess.only
      (View.txHistory.cacheKey SessionId.anonymous.text)).run (Run.underWatch unmountedHistoryPage
        .anonymous {} PageAccess.only mountedLate).world.world).1 =
      some (Snapshot.txHistory {}).stored := rfl
  exact hfirst hunseen 0 _ _ (.txHistory {}) rfl rfl hget ⟨Snapshot.ofStored_stored _, rfl⟩

end WalletPage
