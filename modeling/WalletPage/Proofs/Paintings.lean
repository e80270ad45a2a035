import WalletPage.Proofs.AnyHost
import WalletPage.Proofs.BinderRuns

/-! Paintings. Over a run of one binder each painting is told with the changes of it that
reached elements; around the binder everything may change at any time, the store included.
A binder remembers the last painting in which no change failed, and nothing else: neither a
later painting that was cut short nor what became of the elements. -/

namespace WalletPage

/-- A painting: of which snapshot, which of its changes reached elements, and whether none
of them failed. -/
structure Painting where
  snapshot : Snapshot
  changes : List Update
  isWhole : Bool
deriving Repr

/-- The snapshot of the last painting of some kind. -/
def lastOf? (kind : Painting → Bool) (paintings : List Painting) : Option Snapshot :=
  (paintings.reverse.find? kind).map (·.snapshot)

theorem lastOf?_append (kind : Painting → Bool) (xs ys : List Painting) :
    lastOf? kind (xs ++ ys) = (lastOf? kind ys).or (lastOf? kind xs) := by
  rw [lastOf?, List.reverse_append, List.find?_append, Option.map_or]
  rfl

theorem lastOf?_split {kind : Painting → Bool} {x : Painting} (h : kind x = true)
    (before after : List Painting) :
    lastOf? kind (before ++ x :: after) = (lastOf? kind after).or (some x.snapshot) := by
  have hx : lastOf? kind [x] = some x.snapshot := by simp [lastOf?, h]
  rw [lastOf?_append, ← List.singleton_append, lastOf?_append, hx]
  cases lastOf? kind after <;> rfl

/-- If there is a painting of some kind, there is a last one. -/
theorem exists_lastOf? {kind : Painting → Bool} {paintings : List Painting}
    (h : ∃ x ∈ paintings, kind x = true) :
    ∃ before x after, paintings = before ++ x :: after ∧ kind x = true ∧
      (∀ y ∈ after, kind y = false) ∧ lastOf? kind paintings = some x.snapshot := by
  obtain ⟨x, hx⟩ := Option.isSome_iff_exists.mp
    (List.find?_isSome.mpr (by simpa using h) : (paintings.reverse.find? kind).isSome)
  have hlast : lastOf? kind paintings = some x.snapshot := by rw [lastOf?, hx]; rfl
  obtain ⟨hkind, after, before, hsplit, hafter⟩ := List.find?_eq_some_iff_append.mp hx
  refine ⟨before.reverse, x, after.reverse, ?_, hkind, by simpa using hafter, hlast⟩
  simpa using congrArg List.reverse hsplit

theorem mem_of_lastOf? {kind : Painting → Bool} {paintings : List Painting} {s : Snapshot}
    (h : lastOf? kind paintings = some s) :
    ∃ x ∈ paintings, kind x = true ∧ x.snapshot = s := by
  obtain ⟨x, hx, hs⟩ := Option.map_eq_some_iff.mp h
  exact ⟨x, List.mem_reverse.mp (List.mem_of_find?_eq_some hx), List.find?_some hx, hs⟩

/-- The snapshot of the last painting in which nothing failed. -/
def lastWhole? (paintings : List Painting) : Option Snapshot :=
  lastOf? (·.isWhole) paintings

theorem lastWhole?_append (xs ys : List Painting) :
    lastWhole? (xs ++ ys) = (lastWhole? ys).or (lastWhole? xs) :=
  lastOf?_append _ xs ys

/-- What happens to a binder. Each time it finds the store as others have left it, and when
an answer comes they may have changed it again. -/
inductive Doing where
  /-- It paints from the cache, apart from any cycle. -/
  | hydrate (x : Surroundings) (store : Store)
  /-- It begins a cycle, which is given up before the answer comes. -/
  | ask (o : Occasion) (store : Store)
  | cycle (o : Occasion) (store later : Store)

/-- What is there after something has happened to a binder, and what was painted. -/
structure Done where
  binder : Binder PageAccess
  page : Page
  paintings : List Painting

namespace Page

/-- The page as a binder finds it, with what others have made of the store. -/
def found (p : Page) (x : Surroundings) (store : Store) : Page :=
  { p.within x with store := store }

/-- The page on which a cycle begins. -/
def awaiting (p : Page) (v : View) (o : Occasion) (store : Store) : Page :=
  { p with store := store }.facing v o

theorem Became.updates {p q : Page} {ds : List Event} {store : Store}
    (h : p.Became ds store q) : q.updates = p.updates ++ updatesOf ds := by
  rw [updates_eq_deeds, h.deeds, updatesOf_append, ← updates_eq_deeds]

end Page

namespace Binder

/-! ### What is painted -/

/-- The painting of a snapshot. -/
def painting (b : Binder PageAccess) (p : Page) (s : Snapshot) : Painting where
  snapshot := s
  changes := p.applied (b.rendering p.store p.cacheBuster s)
  isWhole := (b.rendering p.store p.cacheBuster s).all fun u => p.failing ≠ some u.target

/-- What is painted from the cache. -/
def recollection (b : Binder PageAccess) (p : Page) : List Painting :=
  if b.view.hydrates && (p.count? b.view.anchor).isSome then
    (Cache.found p.store b.session b.view).toList.map (b.painting p)
  else []

/-- What is painted in the first half of a cycle. -/
def opening (b : Binder PageAccess) (p : Page) : List Painting :=
  if !b.anchorSeen && b.lastRendered.isNone then b.recollection p else []

/-- What is painted of an answer. -/
def response (b : Binder PageAccess) (p : Page) : Fallible (Option Snapshot) → List Painting
  | .ok (some s) =>
    if s.matchesView b.view = true ∧ ¬ b.Shows p.store s then [b.painting p s] else []
  | _ => []

theorem isWhole_painting {b : Binder PageAccess} {p : Page} {s : Snapshot} :
    (b.painting p s).isWhole = true ↔ b.CanPaint p s := by
  simp [painting, CanPaint]

theorem painting_whole {b : Binder PageAccess} {p : Page} {s : Snapshot} (h : b.CanPaint p s) :
    b.painting p s = ⟨s, (b.rendering p.store p.cacheBuster s).filter p.meets, true⟩ := by
  rw [painting, Painting.mk.injEq]
  exact ⟨rfl, Page.applied_eq_filter h, isWhole_painting.mpr h⟩

theorem painting_cut {b : Binder PageAccess} {p : Page} {s : Snapshot} (h : ¬ b.CanPaint p s) :
    b.painting p s = ⟨s, p.applied (b.rendering p.store p.cacheBuster s), false⟩ := by
  rw [painting, Painting.mk.injEq]
  exact ⟨rfl, rfl, Bool.eq_false_iff.mpr (mt isWhole_painting.mp h)⟩

/-- Whether some changes and what a binder shows after them come of those paintings. -/
def ComesOf (b b' : Binder PageAccess) (ds : List Event) (paintings : List Painting) : Prop :=
  updatesOf ds = paintings.flatMap (·.changes) ∧
    b'.lastRendered = (lastWhole? paintings).or b.lastRendered

theorem Hydrated.comesOf {b b' : Binder PageAccess} {p : Page} {ds : List Event} {store : Store}
    (h : b.Hydrated p b' ds store) : b.ComesOf b' ds (b.recollection p) := by
  cases h with
  | skipped h =>
    have hnone : b.recollection p = [] := by
      rcases h with h | h <;> simp [recollection, h]
    rw [hnone]
    exact ⟨rfl, rfl⟩
  | missing _ hfound =>
    have hnone : b.recollection p = [] := by simp [recollection, hfound]
    rw [hnone]
    exact ⟨rfl, rfl⟩
  | @refused s hfound hpaint hview hmounted =>
    have hone : b.recollection p = [b.painting p s] := by
      simp [recollection, hview, hmounted, hfound]
    rw [hone, painting_cut hpaint]
    exact ⟨by simp, rfl⟩
  | @painted s hview hfound hpaint hmounted =>
    have hone : b.recollection p = [b.painting p s] := by
      simp [recollection, hview, hmounted, hfound]
    rw [hone, painting_whole hpaint]
    exact ⟨by simp, rfl⟩

theorem Started.comesOf {b b' : Binder PageAccess} {p : Page} {page : Option PageNumber}
    {begun : Begun} {ds : List Event} {store : Store} (h : b.Started p page b' begun ds store) :
    b.ComesOf b' ds (b.opening p) := by
  cases h with
  | absent hnone =>
    have hopening : b.opening p = [] := by simp [opening, recollection, hnone]
    rw [hopening]
    exact ⟨rfl, rfl⟩
  | known _ hknown =>
    have hopening : b.opening p = [] := by
      rcases hknown with h | h
      · simp [opening, h]
      · obtain ⟨s, hs⟩ := Option.isSome_iff_exists.mp h
        simp [opening, hs]
    rw [hopening]
    exact ⟨rfl, rfl⟩
  | found _ hseen hlast hydrated =>
    have hopening : b.opening p = b.recollection p := by simp [opening, hseen, hlast]
    obtain ⟨hupdates, hshown⟩ := hydrated.comesOf
    rw [hopening]
    exact ⟨by rw [updatesOf_append, hupdates]; exact List.append_nil _, hshown⟩

theorem Finished.comesOf {b b' : Binder PageAccess} {p : Page}
    {answer : Fallible (Option Snapshot)} {outcome : Outcome} {ds : List Event} {store : Store}
    (h : b.Finished p answer b' outcome ds store) : b.ComesOf b' ds (b.response p answer) := by
  cases h with
  | failed e => exact ⟨rfl, rfl⟩
  | empty => exact ⟨rfl, rfl⟩
  | @foreign s hview =>
    have hnone : b.response p (.ok (some s)) = [] := by simp [response, hview]
    rw [hnone]
    exact ⟨rfl, rfl⟩
  | @unchanged s hview hshows =>
    have hnone : b.response p (.ok (some s)) = [] := by simp [response, hshows]
    rw [hnone]
    exact ⟨b.updatesOf_submissions p s, hshows.1.symm⟩
  | @refused s hview hnew hpaint =>
    have hone : b.response p (.ok (some s)) = [b.painting p s] := by simp [response, hview, hnew]
    rw [hone, painting_cut hpaint]
    exact ⟨by simp, rfl⟩
  | @rendered s hview hnew hpaint =>
    have hone : b.response p (.ok (some s)) = [b.painting p s] := by simp [response, hview, hnew]
    rw [hone, painting_whole hpaint]
    refine ⟨?_, rfl⟩
    rw [updatesOf_append, updatesOf_submissions]
    simp

theorem Kin.key {b b' : Binder PageAccess} (h : b.Kin b') : b'.key = b.key := by
  rw [Binder.key, Binder.key, h.view, h.session]

theorem Kin.rendering {b b' : Binder PageAccess} (h : b.Kin b') (store : Store)
    (cacheBuster : String) (s : Snapshot) :
    b'.rendering store cacheBuster s = b.rendering store cacheBuster s := by
  simp only [Binder.rendering, h.view, h.session, h.baseUrl]

/-! ### Runs -/

/-- A binder that begins a cycle. -/
def asking (b : Binder PageAccess) (o : Occasion) (store : Store) (p : Page) :
    (Binder PageAccess × Begun) × Page :=
  (b.begin o.page).run (p.awaiting b.view o store)

/-- A cycle during which others change the store. -/
def round (b : Binder PageAccess) (o : Occasion) (store later : Store) (p : Page) : Cycle :=
  match b.asking o store p with
  | ((b', .ended outcome), q) => ⟨outcome, b', q⟩
  | ((b', .asked reply), q) =>
    let ((b'', outcome), r) := (b'.finish reply.answer).run (q.found o.finish later)
    ⟨outcome, b'', r⟩

/-- What is painted in a cycle. -/
def paintings (b : Binder PageAccess) (o : Occasion) (store later : Store) (p : Page) :
    List Painting :=
  b.opening (p.awaiting b.view o store) ++
    match b.asking o store p with
    | ((_, .ended _), _) => []
    | ((b', .asked _), q) => b'.response (q.found o.finish later) o.answer

/-- A binder to which something happens. -/
def after (b : Binder PageAccess) (p : Page) : Doing → Done
  | .hydrate x store =>
    let ((b', _), q) := b.hydrate.run (p.found x store)
    ⟨b', q, b.recollection (p.found x store)⟩
  | .ask o store =>
    let ((b', _), q) := b.asking o store p
    ⟨b', q, b.opening (p.awaiting b.view o store)⟩
  | .cycle o store later =>
    let c := b.round o store later p
    ⟨c.binder, c.page, b.paintings o store later p⟩

/-- A binder to which one thing happens after the other. -/
def afterAll (b : Binder PageAccess) (p : Page) : List Doing → Done
  | [] => ⟨b, p, []⟩
  | d :: rest =>
    let done := b.after p d
    let later := done.binder.afterAll done.page rest
    { later with paintings := done.paintings ++ later.paintings }

/-- Whether what is there after something has happened comes of what was painted. -/
structure Accounts (b : Binder PageAccess) (p : Page) (done : Done) : Prop where
  kin : b.Kin done.binder
  updates : done.page.updates = p.updates ++ done.paintings.flatMap (·.changes)
  lastRendered : done.binder.lastRendered = (lastWhole? done.paintings).or b.lastRendered

theorem Accounts.trans {b : Binder PageAccess} {p : Page} {done later : Done}
    (h : b.Accounts p done) (k : done.binder.Accounts done.page later) :
    b.Accounts p { later with paintings := done.paintings ++ later.paintings } where
  kin := h.kin.trans k.kin
  updates := by rw [k.updates, h.updates, List.append_assoc, List.flatMap_append]
  lastRendered := by rw [k.lastRendered, h.lastRendered, lastWhole?_append, Option.or_assoc]

theorem hydrate_accounts (b : Binder PageAccess) (p : Page) :
    b.Accounts p ⟨(b.hydrate.run p).1.1, (b.hydrate.run p).2, b.recollection p⟩ := by
  obtain ⟨ds, store, hydrated, hbecame⟩ := b.hydrate_run p
  obtain ⟨hupdates, hshown⟩ := hydrated.comesOf
  exact ⟨(b.hydrate_yields p).1, hupdates ▸ hbecame.updates, hshown⟩

theorem begin_accounts (b : Binder PageAccess) (page : Option PageNumber) (p : Page) :
    b.Accounts p ⟨((b.begin page).run p).1.1, ((b.begin page).run p).2, b.opening p⟩ := by
  obtain ⟨ds, store, hstarted, hbecame⟩ := b.begin_run page p
  obtain ⟨hupdates, hshown⟩ := hstarted.comesOf
  exact ⟨(b.begin_yields page p).1.kin, hupdates ▸ hbecame.updates, hshown⟩

theorem finish_accounts (b : Binder PageAccess) (answer : Fallible (Option Snapshot))
    (p : Page) :
    b.Accounts p ⟨((b.finish answer).run p).1.1, ((b.finish answer).run p).2,
      b.response p answer⟩ := by
  obtain ⟨ds, store, hfinished, hbecame⟩ := b.finish_run answer p
  obtain ⟨hupdates, hshown⟩ := hfinished.comesOf
  exact ⟨(b.finish_yields answer p).1, hupdates ▸ hbecame.updates, hshown⟩

/-- The server's answer is the one of the occasion. -/
theorem asking_answer {b b' : Binder PageAccess} {o : Occasion} {store : Store} {p q : Page}
    {reply : Reply (Fallible (Option Snapshot))}
    (h : b.asking o store p = ((b', .asked reply), q)) : reply.answer = o.answer := by
  obtain ⟨ds, store', hstarted, -⟩ := b.begin_run o.page (p.awaiting b.view o store)
  unfold asking at h
  rw [h] at hstarted
  generalize hbegun : Begun.asked reply = begun at hstarted
  cases hstarted with
  | absent _ => contradiction
  | known _ _ =>
    rw [Begun.asked.inj hbegun]
    exact Page.coming_facing { p with store := store } b.view o
  | found _ _ _ _ =>
    rw [Begun.asked.inj hbegun]
    exact Page.coming_facing { p with store := store } b.view o

/-- A cycle that has asked goes on with the answer of the occasion. -/
theorem round_of_asked {b b' : Binder PageAccess} {o : Occasion} {store : Store} {p q : Page}
    {reply : Reply (Fallible (Option Snapshot))}
    (h : b.asking o store p = ((b', .asked reply), q)) (later : Store) :
    b.round o store later p =
        ⟨((b'.finish o.answer).run (q.found o.finish later)).1.2,
          ((b'.finish o.answer).run (q.found o.finish later)).1.1,
          ((b'.finish o.answer).run (q.found o.finish later)).2⟩ ∧
      b.paintings o store later p = b.opening (p.awaiting b.view o store) ++
        b'.response (q.found o.finish later) o.answer := by
  rw [round, paintings, h, ← asking_answer h]
  exact ⟨rfl, rfl⟩

theorem cycle_accounts (b : Binder PageAccess) (o : Occasion) (store later : Store) (p : Page) :
    b.Accounts p ⟨(b.round o store later p).binder, (b.round o store later p).page,
      b.paintings o store later p⟩ := by
  have hbegun := b.begin_accounts o.page (p.awaiting b.view o store)
  cases hasked : b.asking o store p with
  | mk first q =>
    obtain ⟨b', begun⟩ := first
    have hrun : (b.begin o.page).run (p.awaiting b.view o store) = ((b', begun), q) := hasked
    rw [hrun] at hbegun
    cases begun with
    | ended outcome =>
      rw [round, paintings, hasked, List.append_nil]
      exact ⟨hbegun.kin, hbegun.updates, hbegun.lastRendered⟩
    | asked reply =>
      obtain ⟨hround, hpaintings⟩ := round_of_asked hasked later
      have hended := b'.finish_accounts o.answer (q.found o.finish later)
      have hopened : b.Accounts p ⟨b', q, b.opening (p.awaiting b.view o store)⟩ :=
        ⟨hbegun.kin, hbegun.updates, hbegun.lastRendered⟩
      rw [hround, hpaintings]
      exact hopened.trans ⟨hended.kin, hended.updates, hended.lastRendered⟩

/-- Whatever happens to a binder, the page has changed by its paintings and nothing else,
and the binder remembers the last whole one. -/
theorem after_accounts (b : Binder PageAccess) (p : Page) (d : Doing) :
    b.Accounts p (b.after p d) := by
  cases d with
  | hydrate x store =>
    have h := b.hydrate_accounts (p.found x store)
    exact ⟨h.kin, h.updates, h.lastRendered⟩
  | ask o store =>
    have h := b.begin_accounts o.page (p.awaiting b.view o store)
    exact ⟨h.kin, h.updates, h.lastRendered⟩
  | cycle o store later => exact b.cycle_accounts o store later p

theorem afterAll_accounts (b : Binder PageAccess) (p : Page) (ds : List Doing) :
    b.Accounts p (b.afterAll p ds) := by
  induction ds generalizing b p with
  | nil => exact ⟨.refl b, (List.append_nil _).symm, rfl⟩
  | cons d rest ih => exact (b.after_accounts p d).trans (ih _ _)

theorem afterAll_concat (b : Binder PageAccess) (p : Page) (ds : List Doing) (d : Doing) :
    b.afterAll p (ds ++ [d]) =
      { (b.afterAll p ds).binder.after (b.afterAll p ds).page d with
        paintings := (b.afterAll p ds).paintings ++
          ((b.afterAll p ds).binder.after (b.afterAll p ds).page d).paintings } := by
  induction ds generalizing b p with
  | nil => simp [afterAll]
  | cons c rest ih =>
    rw [List.cons_append, afterAll, ih]
    simp [afterAll]

/-- A new binder remembers after a run what it has painted last without a failure. -/
theorem fresh_lastRendered (v : View) (session : SessionId) (baseUrl : String) (p : Page)
    (ds : List Doing) :
    ((fresh v session baseUrl).afterAll p ds).binder.lastRendered =
      lastWhole? ((fresh v session baseUrl).afterAll p ds).paintings := by
  rw [((fresh v session baseUrl).afterAll_accounts p ds).lastRendered]
  exact Option.or_none

/-! ### Cycles that find their elements -/

/-- A cycle that finds its anchor asks. -/
theorem asking_mounted {b : Binder PageAccess} {o : Occasion}
    (hmounted : (o.start.mounted.lookup b.view.anchor).isSome) (store : Store) (p : Page) :
    ∃ b' reply q, b.asking o store p = ((b', .asked reply), q) ∧
      b.Accounts p ⟨b', q, b.opening (p.awaiting b.view o store)⟩ := by
  obtain ⟨ds, store', hstarted, -⟩ := b.begin_run o.page (p.awaiting b.view o store)
  have hbegun := b.begin_accounts o.page (p.awaiting b.view o store)
  have hasked := hstarted.asked hmounted
  generalize hrun : (b.begin o.page).run (p.awaiting b.view o store) = began at hbegun hasked
  obtain ⟨⟨b', begun⟩, q⟩ := began
  dsimp only at hasked
  subst hasked
  exact ⟨b', _, q, hrun, hbegun.kin, hbegun.updates, hbegun.lastRendered⟩

end Binder

end WalletPage
