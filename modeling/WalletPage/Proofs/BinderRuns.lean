import WalletPage.Proofs.CycleEffects

/-! Runs of one binder: cycles one after the other, each on an occasion of its own.
Between two cycles, and while an answer is awaited, everything around the binder may
change but the store. Where the elements of the view stay and take changes, a cycle
has only three ways to go. -/

namespace WalletPage

/-- What is around a binder on a page, the store apart. -/
structure Surroundings where
  mounted : List (Target × Nat)
  forms : List String := []
  failing : Option Target := none
  cacheBuster : String := "cb"
  isStoreFull : Bool := false
deriving Repr

/-- An occasion for a cycle: the page that is selected, what is around the binder when
the cycle begins, the answer of the server, and what is around when it comes. -/
structure Occasion where
  page : Option PageNumber := none
  start : Surroundings
  answer : Fallible (Option Snapshot)
  finish : Surroundings
deriving Repr

/-- The answer of a reply, in the end. -/
def Reply.answer {α : Type} : Reply α → α
  | .ready a => a
  | .held _ a => a

namespace Page

/-- The page in other surroundings. -/
def within (p : Page) (x : Surroundings) : Page :=
  { p with mounted := x.mounted, forms := x.forms, failing := x.failing,
           cacheBuster := x.cacheBuster, isStoreFull := x.isStoreFull }

/-- The page on which a cycle begins: the server will give that answer. -/
def facing (p : Page) (v : View) (o : Occasion) : Page :=
  (p.within o.start).setAnswers v [{ result := o.answer, isHeld := true }]

theorem coming_facing (p : Page) (v : View) (o : Occasion) :
    (coming (p.facing v o) v).answer = o.answer := by
  have htake : (p.facing v o).takeAnswer v =
      ({ result := o.answer, isHeld := true }, p.facing v o) := by
    simp [takeAnswer, answersFor, facing, setAnswers]
  simp [coming, htake, Reply.answer]

end Page

/-- What a cycle comes to. -/
structure Cycle where
  outcome : Outcome
  binder : Binder PageAccess
  page : Page

namespace Binder

/-- A new binder of a view. -/
def fresh (v : View) (session : SessionId) (baseUrl : String) : Binder PageAccess where
  view := v
  session := session
  baseUrl := baseUrl
  access := .only

/-- A cycle from its beginning to its end. -/
def cycle (b : Binder PageAccess) (o : Occasion) (p : Page) : Cycle :=
  match (b.begin o.page).run (p.facing b.view o) with
  | ((b', .ended outcome), q) => ⟨outcome, b', q⟩
  | ((b', .asked reply), q) =>
    let ((b'', outcome), r) := (b'.finish reply.answer).run (q.within o.finish)
    ⟨outcome, b'', r⟩

/-- The binder and the page after cycles. -/
def cycles (b : Binder PageAccess) (p : Page) : List Occasion → Binder PageAccess × Page
  | [] => (b, p)
  | o :: rest => cycles (b.cycle o p).binder (b.cycle o p).page rest

/-- A cycle that finds its anchor is its first half and then its second half, with what is
around when the answer comes. -/
theorem cycle_mounted (b : Binder PageAccess) (o : Occasion) (p : Page)
    (hmounted : (o.start.mounted.lookup b.view.anchor).isSome) :
    ∃ b' ds store q es store',
      b.Started (p.facing b.view o) o.page b' (.asked ((p.facing b.view o).coming b.view))
        ds store ∧
      q = q.within o.finish ∧ q.store = store ∧
      b'.Finished q o.answer (b.cycle o p).binder (b.cycle o p).outcome es store' ∧
      (b.cycle o p).page.deeds = p.deeds ++ (ds ++ es) ∧ (b.cycle o p).page.store = store' := by
  obtain ⟨ds, store, hstarted, hbegan⟩ := b.begin_run o.page (p.facing b.view o)
  have hasked := hstarted.asked hmounted
  unfold cycle
  generalize (b.begin o.page).run (p.facing b.view o) = began at hstarted hbegan hasked ⊢
  obtain ⟨⟨b', begun⟩, q⟩ := began
  dsimp only at hstarted hbegan hasked ⊢
  subst hasked
  dsimp only
  rw [Page.coming_facing]
  obtain ⟨es, store', hfinished, hended⟩ := b'.finish_run o.answer (q.within o.finish)
  refine ⟨b', ds, store, q.within o.finish, es, store', hstarted, rfl, hbegan.store, hfinished,
    ?_, hended.store⟩
  have hdeeds : (p.facing b.view o).deeds = p.deeds := rfl
  rw [← List.append_assoc, ← hdeeds]
  exact hended.deeds.trans (congrArg (· ++ es) hbegan.deeds)

end Binder

/-! ### Cycles that nothing disturbs -/

/-- A snapshot of a view changes only elements of the view. -/
theorem Snapshot.target_mem_elementsOf {s : Snapshot} {v : View} (hs : s.matchesView v = true)
    (ctx : RenderContext) {u : Update} (hu : u ∈ s.updates v ctx) :
    u.target ∈ Page.elementsOf v := by
  have htarget : u.target ∈ (s.updates v ctx).map (·.target) := List.mem_map_of_mem hu
  cases s with
  | balance data =>
    obtain rfl : v = .balance := by simpa [matchesView] using hs
    exact List.mem_cons_of_mem _ htarget
  | blockHeight data =>
    obtain rfl : v = .blockHeight := by simpa [matchesView] using hs
    have hall : ∀ t ∈ [Target.byClass "block_height", .byClass "status", .byClass "status"],
      t ∈ Page.elementsOf .blockHeight := by decide
    exact hall _ htarget
  | txHistory page =>
    obtain rfl : v = .txHistory := by simpa [matchesView] using hs
    exact htarget
  | progress data => exact List.mem_cons.mpr (.inl (List.mem_singleton.mp htarget))

theorem Page.anchor_mem_elementsOf (v : View) : v.anchor ∈ Page.elementsOf v :=
  List.mem_cons_self

/-- Whether all elements of a view are mounted. -/
def Surroundings.Mounts (x : Surroundings) (v : View) : Prop :=
  ∀ t ∈ Page.elementsOf v, 0 < (x.mounted.lookup t).getD 0

theorem Surroundings.Mounts.anchor {x : Surroundings} {v : View} (h : x.Mounts v) :
    (x.mounted.lookup v.anchor).isSome := by
  have hcount := h _ (Page.anchor_mem_elementsOf v)
  cases hlookup : x.mounted.lookup v.anchor with
  | none => simp [hlookup] at hcount
  | some n => rfl

/-- Whether all elements of a view are mounted and take changes. -/
structure Surroundings.Serve (x : Surroundings) (v : View) : Prop where
  mounted : ∀ t ∈ Page.elementsOf v, 0 < (x.mounted.lookup t).getD 0
  succeeds : ∀ t ∈ Page.elementsOf v, x.failing ≠ some t

/-- Whether a view is served on an occasion, from the beginning to the end. -/
structure Occasion.Serves (o : Occasion) (v : View) : Prop where
  start : o.start.Serve v
  finish : o.finish.Serve v

theorem Surroundings.Serve.mounts {x : Surroundings} {v : View} (h : x.Serve v) : x.Mounts v :=
  h.mounted

theorem Surroundings.Serve.anchor {x : Surroundings} {v : View} (h : x.Serve v) :
    (x.mounted.lookup v.anchor).isSome :=
  h.mounts.anchor

/-- An occasion on which every element of a view is mounted once. -/
def Occasion.steady (v : View) (answer : Fallible (Option Snapshot)) (isStoreFull : Bool) :
    Occasion where
  start := { mounted := (Page.elementsOf v).map (·, 1), isStoreFull := isStoreFull }
  answer := answer
  finish := { mounted := (Page.elementsOf v).map (·, 1), isStoreFull := isStoreFull }

theorem Occasion.steady_serves (v : View) (answer : Fallible (Option Snapshot))
    (isStoreFull : Bool) : (steady v answer isStoreFull).Serves v := by
  have hmounted : ∀ t ∈ Page.elementsOf v,
      0 < (((Page.elementsOf v).map (·, 1)).lookup t).getD 0 := by
    cases v <;> decide
  exact ⟨⟨hmounted, fun t _ => nofun⟩, ⟨hmounted, fun t _ => nofun⟩⟩

/-- The snapshot of the answer, if it belongs to the view. -/
def Occasion.accepted? (o : Occasion) (v : View) : Option Snapshot :=
  match o.answer with
  | .ok (some s) => if s.matchesView v then some s else none
  | _ => none

theorem Occasion.answer_of_accepted {o : Occasion} {v : View} {s : Snapshot}
    (h : o.accepted? v = some s) : o.answer = .ok (some s) := by
  unfold accepted? at h
  split at h
  · rename_i t ht
    split at h
    · rw [ht, Option.some.inj h]
    · contradiction
  · contradiction

theorem Occasion.matchesView_of_accepted {o : Occasion} {v : View} {s : Snapshot}
    (h : o.accepted? v = some s) : s.matchesView v = true := by
  unfold accepted? at h
  split at h
  · split at h
    · cases h; assumption
    · contradiction
  · contradiction

namespace Binder

/-- Whether a binder paints from the cache before it asks. -/
def looksUp (b : Binder PageAccess) : Bool :=
  b.view.hydrates && (!b.anchorSeen && b.lastRendered.isNone)

/-- The snapshot that a binder paints from the cache before it asks. -/
def cached (b : Binder PageAccess) (store : Store) : Option Snapshot :=
  if b.looksUp then Cache.found store b.session b.view else none

/-- The store once a binder has looked for a snapshot in it. -/
def consulted (b : Binder PageAccess) (store : Store) : Store :=
  if b.looksUp then Cache.tidied store b.session b.view else store

/-- The binder once it has asked. -/
def aware (b : Binder PageAccess) (store : Store) : Binder PageAccess :=
  { b with anchorSeen := true, lastRendered := b.lastRendered.or (b.cached store) }

/-- The changes that paint a snapshot, if there is one. -/
def paints (b : Binder PageAccess) (store : Store) (cacheBuster : String) :
    Option Snapshot → List Update
  | none => []
  | some s => b.rendering store cacheBuster s

/-- `b.Undisturbed o p outcome b' fetched store`: an undisturbed cycle ends with `outcome`
and leaves `b'` and that store; of the answer it has painted `fetched`. -/
inductive Undisturbed (b : Binder PageAccess) (o : Occasion) (store : Store) :
    Outcome → Binder PageAccess → Option Snapshot → Store → Prop
  | idle {outcome : Outcome} (hanswer : o.accepted? b.view = none)
    (houtcome : outcome = .failed ∨ outcome = .empty) :
    Undisturbed b o store outcome (b.aware store) none (b.consulted store)
  | unchanged {s : Snapshot} (hanswer : o.accepted? b.view = some s)
    (hshows : (b.aware store).Shows (b.consulted store) s) :
    Undisturbed b o store (b.success s .unchanged) ((b.aware store).shown s) none
      (b.consulted store)
  | rendered {s : Snapshot} (hanswer : o.accepted? b.view = some s)
    (hnew : ¬ (b.aware store).Shows (b.consulted store) s) :
    Undisturbed b o store (b.success s .rendered) ((b.aware store).shown s) (some s)
      (if o.finish.isStoreFull then b.consulted store
        else (b.consulted store).put b.key s.stored)

theorem serve_canPaint {b : Binder PageAccess} {x : Surroundings} {p : Page} {s : Snapshot}
    (hserve : x.Serve b.view) (hp : p = p.within x) (hs : s.matchesView b.view = true) :
    b.CanPaint p s := by
  intro u hu
  rw [hp]
  exact hserve.succeeds _ (s.target_mem_elementsOf hs _ hu)

/-- Where all elements are mounted, each change of a rendering meets one. -/
theorem rendering_meets {b : Binder PageAccess} {x : Surroundings} {p : Page} {s : Snapshot}
    (hmounts : x.Mounts b.view) (hp : p = p.within x) (hs : s.matchesView b.view = true) :
    ∀ u ∈ b.rendering p.store p.cacheBuster s, p.meets u = true := by
  intro u hu
  rw [hp]
  exact decide_eq_true (hmounts _ (s.target_mem_elementsOf hs _ hu))

theorem serve_filter {b : Binder PageAccess} {x : Surroundings} {p : Page} {s : Snapshot}
    (hserve : x.Serve b.view) (hp : p = p.within x) (hs : s.matchesView b.view = true) :
    (b.rendering p.store p.cacheBuster s).filter p.meets =
      b.rendering p.store x.cacheBuster s := by
  have hbuster : p.cacheBuster = x.cacheBuster := congrArg Page.cacheBuster hp
  rw [List.filter_eq_self.mpr (rendering_meets hserve.mounts hp hs), hbuster]

theorem started_serve {b b' : Binder PageAccess} {x : Surroundings} {p : Page}
    {page : Option PageNumber} {begun : Begun} {ds : List Event} {store : Store}
    (hserve : x.Serve b.view) (hp : p = p.within x) (h : b.Started p page b' begun ds store) :
    b' = b.aware p.store ∧ store = b.consulted p.store ∧
      updatesOf ds = b.paints p.store x.cacheBuster (b.cached p.store) := by
  have hanchor : (p.count? b.view.anchor).isSome := by rw [hp]; exact hserve.anchor
  cases h with
  | absent hnone => simp [hnone] at hanchor
  | known _ hknown =>
    have hlooksUp : b.looksUp = false := by
      rcases hknown with h | h
      · simp [looksUp, h]
      · obtain ⟨s, hs⟩ := Option.isSome_iff_exists.mp h
        simp [looksUp, hs]
    have hcached : b.cached p.store = none := by simp [cached, hlooksUp]
    refine ⟨?_, by simp [consulted, hlooksUp], by rw [hcached]; rfl⟩
    rw [aware, hcached, Option.or_none]
  | found _ hseen hlast hydrated =>
    have hlooksUp : b.looksUp = b.view.hydrates := by simp [looksUp, hseen, hlast]
    cases hydrated with
    | skipped h =>
      rcases h with h | h
      · have hcached : b.cached p.store = none := by simp [cached, hlooksUp, h]
        refine ⟨?_, by simp [consulted, hlooksUp, h], by rw [hcached]; rfl⟩
        rw [aware, hcached, Option.or_none]
      · simp [h] at hanchor
    | missing hview hfound =>
      have hcached : b.cached p.store = none := by simp [cached, hfound]
      refine ⟨?_, by simp [consulted, hlooksUp, hview], by rw [hcached]; rfl⟩
      rw [aware, hcached, Option.or_none]
    | refused hfound hpaint =>
      exact absurd (serve_canPaint hserve hp (Cache.matchesView_of_found hfound)) hpaint
    | @painted s hview hfound _ =>
      have hcached : b.cached p.store = some s := by simp [cached, hlooksUp, hview, hfound]
      have hconsulted : b.consulted p.store = p.store := by
        simp [consulted, Cache.tidied, hfound]
      rw [aware, hcached, hlast, hconsulted, updatesOf_append, updatesOf_updated,
        serve_filter hserve hp (Cache.matchesView_of_found hfound)]
      exact ⟨rfl, rfl, List.append_nil _⟩

theorem finished_serve {b b' : Binder PageAccess} {o : Occasion} {q : Page} {store store' : Store}
    {outcome : Outcome} {es : List Event} (hserve : o.finish.Serve b.view)
    (hq : q = q.within o.finish) (hstore : q.store = b.consulted store)
    (h : (b.aware store).Finished q o.answer b' outcome es store') :
    ∃ fetched, b.Undisturbed o store outcome b' fetched store' ∧
      updatesOf es = b.paints (b.consulted store) o.finish.cacheBuster fetched := by
  generalize hanswer : o.answer = answer at h
  cases h with
  | failed e =>
    exact ⟨none, hstore ▸ .idle (by simp [Occasion.accepted?, hanswer]) (.inl rfl), rfl⟩
  | empty =>
    exact ⟨none, hstore ▸ .idle (by simp [Occasion.accepted?, hanswer]) (.inr rfl), rfl⟩
  | foreign hview =>
    have hnone : o.accepted? b.view = none := by
      rw [Occasion.accepted?, hanswer]
      exact if_neg (Bool.eq_false_iff.mp hview)
    exact ⟨none, hstore ▸ .idle hnone (.inl rfl), rfl⟩
  | @unchanged s hview hshows =>
    have hsome : o.accepted? b.view = some s := by
      rw [Occasion.accepted?, hanswer]
      exact if_pos hview
    exact ⟨none, hstore ▸ .unchanged hsome (hstore ▸ hshows),
      (b.aware store).updatesOf_submissions q s⟩
  | refused hview _ hpaint => exact absurd (serve_canPaint hserve hq hview) hpaint
  | @rendered s hview hnew _ =>
    have hsome : o.accepted? b.view = some s := by
      rw [Occasion.accepted?, hanswer]
      exact if_pos hview
    have hfull : q.isStoreFull = o.finish.isStoreFull := congrArg Page.isStoreFull hq
    refine ⟨some s, ?_, ?_⟩
    · rw [kept, hfull, hstore]
      exact .rendered hsome (hstore ▸ hnew)
    · rw [updatesOf_append, updatesOf_updated, updatesOf_submissions, List.append_nil,
        serve_filter (b := b.aware store) hserve hq hview, hstore]
      rfl

/-- A cycle goes undisturbed where the view is served. -/
theorem cycle_serves {b : Binder PageAccess} {o : Occasion} (p : Page) (hserves : o.Serves b.view) :
    ∃ fetched, b.Undisturbed o p.store (b.cycle o p).outcome (b.cycle o p).binder fetched
        (b.cycle o p).page.store ∧
      (b.cycle o p).page.updates = p.updates ++
        (b.paints p.store o.start.cacheBuster (b.cached p.store) ++
          b.paints (b.consulted p.store) o.finish.cacheBuster fetched) := by
  obtain ⟨b', ds, store, q, es, store', hstarted, hq, hstore, hfinished, hdeeds, hstore'⟩ :=
    b.cycle_mounted o p hserves.start.anchor
  obtain ⟨hb', rfl, hds⟩ := started_serve hserves.start rfl hstarted
  have hupdates : (b.cycle o p).page.updates =
      p.updates ++ (b.paints p.store o.start.cacheBuster (b.cached p.store) ++ updatesOf es) := by
    rw [Page.updates_eq_deeds, hdeeds, updatesOf_append, updatesOf_append, hds,
      ← Page.updates_eq_deeds]
    rfl
  subst hb'
  obtain ⟨fetched, hcycle, hes⟩ := finished_serve hserves.finish hq hstore hfinished
  rw [hupdates, hstore', hes]
  exact ⟨fetched, hcycle, rfl⟩

end Binder

end WalletPage
