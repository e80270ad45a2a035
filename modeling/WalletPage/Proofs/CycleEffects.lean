import WalletPage.Proofs.PageEffects

/-! What the two halves of a cycle do to a page in memory, case by case. Each half
is described by a relation with one case for each way it can go, and the half is
proved to follow it; whatever is shown of runs is shown from these cases. -/

namespace WalletPage

namespace Page

theorem Became.told {p q : Page} {ds : List Event} {store : Store}
    (h : p.Became ds store q) (b : Binder PageAccess) (level : LogLevel) (message : String) :
    p.Became ds store ((b.tell level message).run q).2 := by
  have htold := h.trans (Became.logged q ⟨level, Binder.component, message⟩)
  rw [List.append_nil, h.store] at htold
  exact htold

/-- What the server will answer for a view. -/
def coming (p : Page) (v : View) : Reply (Fallible (Option Snapshot)) :=
  let next := (p.takeAnswer v).1
  if next.isHeld then .held v.name next.result else .ready next.result

/-- Taking an answer leaves all of a page but the answers. -/
theorem takeAnswer_snd (p : Page) (v : View) :
    (p.takeAnswer v).2 = { p with answers := (p.takeAnswer v).2.answers } := by
  unfold takeAnswer
  split <;> rfl

theorem takeAnswer_congr {p q : Page} (h : q.answers = p.answers) (v : View) :
    (q.takeAnswer v).1 = (p.takeAnswer v).1 := by
  unfold takeAnswer answersFor
  rw [h]
  split <;> rfl

end Page

namespace Binder

/-! ### Painting from the cache -/

/-- `b.Hydrated p b' ds store`: painting from the cache leaves `b'`, does `ds` to the
page `p`, and leaves that store. -/
inductive Hydrated (b : Binder PageAccess) (p : Page) :
    Binder PageAccess → List Event → Store → Prop
  /-- The view is not of that kind, or not mounted. -/
  | skipped (h : b.view.hydrates = false ∨ p.count? b.view.anchor = none) :
    Hydrated b p b [] p.store
  /-- Nothing in the cache can be used. -/
  | missing (hview : b.view.hydrates = true)
    (hfound : Cache.found p.store b.session b.view = none) :
    Hydrated b p b [] (Cache.tidied p.store b.session b.view)
  | refused {s : Snapshot} (hfound : Cache.found p.store b.session b.view = some s)
    (hpaint : ¬ b.CanPaint p s) (hview : b.view.hydrates = true)
    (hmounted : (p.count? b.view.anchor).isSome) :
    Hydrated b p b ((p.applied (b.rendering p.store p.cacheBuster s)).map .updated) p.store
  | painted {s : Snapshot} (hview : b.view.hydrates = true)
    (hfound : Cache.found p.store b.session b.view = some s) (hpaint : b.CanPaint p s)
    (hmounted : (p.count? b.view.anchor).isSome) :
    Hydrated b p { b with anchorSeen := true, lastRendered := some s }
      (((b.rendering p.store p.cacheBuster s).filter p.meets).map .updated) p.store

theorem canPaint_congr {b : Binder PageAccess} {p q : Page} {s : Snapshot} {ds : List Event}
    (h : p.Became ds p.store q) : b.CanPaint q s ↔ b.CanPaint p s := by
  have hstore := h.store
  rw [h.same]
  simp only [CanPaint, hstore]

/-- A painting that is not refused reaches all elements that are there; `q` is the page
`p` up to its log. -/
theorem paint_cases (b : Binder PageAccess) (s : Snapshot) {p q : Page}
    (h : p.Became [] p.store q) :
    (∃ n q', (b.paint s).run q = (.ok n, q') ∧ b.CanPaint p s ∧
      p.Became (((b.rendering p.store p.cacheBuster s).filter p.meets).map .updated) p.store q') ∨
    ∃ e q', (b.paint s).run q = (.error e, q') ∧ ¬ b.CanPaint p s ∧
      p.Became ((p.applied (b.rendering p.store p.cacheBuster s)).map .updated) p.store q' := by
  have hrendering : b.rendering q.store q.cacheBuster s = b.rendering p.store p.cacheBuster s := by
    rw [h.store, h.same]
  have hmeets : q.meets = p.meets := by rw [h.same]; rfl
  have happlied : q.applied = p.applied := by rw [h.same]; rfl
  by_cases hpaint : b.CanPaint q s
  · obtain ⟨n, q', hrun, hbecame⟩ := paint_ok hpaint
    rw [hrendering, hmeets, h.store] at hbecame
    exact .inl ⟨n, q', hrun, (canPaint_congr h).mp hpaint, h.trans hbecame⟩
  · obtain ⟨hbecame, hok⟩ := applyAll_run b.access (b.rendering q.store q.cacheBuster s) 0 q
    rw [← paint_run] at hbecame hok
    rw [hrendering, happlied, h.store] at hbecame
    cases hrun : (b.paint s).run q with
    | mk result q' =>
      rw [hrun] at hbecame hok
      cases result with
      | ok n => exact absurd (hok.mp ⟨n, rfl⟩) hpaint
      | error e =>
        exact .inr ⟨e, q', rfl, fun hp => hpaint ((canPaint_congr h).mpr hp), h.trans hbecame⟩

theorem hydrate_run (b : Binder PageAccess) (p : Page) :
    ∃ ds store, b.Hydrated p (b.hydrate.run p).1.1 ds store ∧
      p.Became ds store (b.hydrate.run p).2 := by
  have hanchor : (Host.anchorPresent b.access b.view.anchor).run p =
    ((p.count? b.view.anchor).isSome, p) := rfl
  unfold hydrate
  cases hview : b.view.hydrates with
  | false => exact ⟨_, _, .skipped (.inl hview), .refl p⟩
  | true =>
    rw [if_pos rfl, run_bind, hanchor]
    cases hcount : p.count? b.view.anchor with
    | none => exact ⟨_, _, .skipped (.inr hcount), .refl p⟩
    | some n =>
      obtain ⟨hvalue, hload⟩ := Cache.load_run b.access b.session b.view p
      dsimp only [Option.isSome_some]
      rw [if_pos rfl, run_bind, hvalue]
      cases hfound : Cache.found p.store b.session b.view with
      | none => exact ⟨_, _, .missing hview hfound, hload⟩
      | some s =>
        have htidied : Cache.tidied p.store b.session b.view = p.store := by
          simp [Cache.tidied, hfound]
        rw [htidied] at hload
        dsimp only
        rcases b.paint_cases s hload with ⟨n, q, hrun, hpaint, hq⟩ | ⟨e, q, hrun, hpaint, hq⟩
        · rw [run_bind, hrun]
          exact ⟨_, _, .painted hview hfound hpaint (by rw [hcount]; rfl), hq.told b .debug _⟩
        · rw [run_bind, hrun]
          exact ⟨_, _, .refused hfound hpaint hview (by rw [hcount]; rfl), hq.told b .warn _⟩

/-! ### The first half -/

/-- `b.Started p page b' begun ds store`: the first half of a cycle leaves `b'`, comes
to `begun`, does `ds` to the page `p`, and leaves that store. -/
inductive Started (b : Binder PageAccess) (p : Page) (page : Option PageNumber) :
    Binder PageAccess → Begun → List Event → Store → Prop
  | absent (hmounted : p.count? b.view.anchor = none) :
    Started b p page b (.ended .anchorAbsent) [] p.store
  /-- The view was seen before. -/
  | known (hmounted : (p.count? b.view.anchor).isSome)
    (hknown : b.anchorSeen = true ∨ b.lastRendered.isSome) :
    Started b p page { b with anchorSeen := true } (.asked (p.coming b.view))
      [.requested (b.request page)] p.store
  | found (hmounted : (p.count? b.view.anchor).isSome) (hseen : b.anchorSeen = false)
    (hlast : b.lastRendered = none) {b' : Binder PageAccess} {ds : List Event} {store : Store}
    (h : b.Hydrated p b' ds store) :
    Started b p page { b' with anchorSeen := true } (.asked (p.coming b.view))
      (ds ++ [.requested (b.request page)]) store

theorem Started.asked {b b' : Binder PageAccess} {p : Page} {page : Option PageNumber}
    {begun : Begun} {ds : List Event} {store : Store} (h : b.Started p page b' begun ds store)
    (hmounted : (p.count? b.view.anchor).isSome) : begun = .asked (p.coming b.view) := by
  cases h with
  | absent hnone => simp [hnone] at hmounted
  | known _ _ => rfl
  | found _ _ _ _ => rfl

theorem Hydrated.view {b b' : Binder PageAccess} {p : Page} {ds : List Event} {store : Store}
    (h : b.Hydrated p b' ds store) : b'.view = b.view ∧ b'.session = b.session := by
  cases h <;> exact ⟨rfl, rfl⟩

theorem fetch_run (access : PageAccess) (request : Request) (p : Page) :
    ((Host.fetch access request).run p).1 = p.coming request.view ∧
      ({ p with answers := ((Host.fetch access request).run p).2.answers }).Became
        [.requested request] p.store ((Host.fetch access request).run p).2 := by
  have hvalue :=
    Page.takeAnswer_congr (p := p) (q := p.record (.requested request)) rfl request.view
  have hpage := Page.takeAnswer_snd (p.record (.requested request)) request.view
  constructor
  · show (p.ask request).1 = _
    unfold Page.ask Page.coming
    rw [← hvalue]
  · show ({ p with answers := (p.ask request).2.answers }).Became _ _ (p.ask request).2
    have hask : (p.ask request).2 = ((p.record (.requested request)).takeAnswer request.view).2 :=
      rfl
    rw [hask, hpage]
    exact .did _ rfl

/-- Asking the server on a page that has become `q` from `p`. -/
theorem asked_run (b : Binder PageAccess) (page : Option PageNumber) {p q : Page}
    {ds : List Event} {store : Store} (h : p.Became ds store q)
    {m : StateM Page (Binder PageAccess × Begun)}
    (hm : m = Host.fetch b.access (b.request page) >>= fun reply => pure (b, .asked reply)) :
    (m.run q).1 = (b, .asked (p.coming b.view)) ∧
      ({ p with answers := (m.run q).2.answers }).Became
        (ds ++ [Event.requested (b.request page)]) store (m.run q).2 := by
  subst hm
  obtain ⟨hvalue, hbecame⟩ := fetch_run b.access (b.request page) q
  have hanswers : q.answers = p.answers := by rw [h.same]
  have hcoming : q.coming b.view = p.coming b.view := by
    rw [Page.coming, Page.coming, Page.takeAnswer_congr hanswers]
  have hq : ({ p with answers := ((Host.fetch b.access (b.request page)).run q).2.answers }).Became
      ds q.store { q with answers := ((Host.fetch b.access (b.request page)).run q).2.answers } :=
    ⟨h.deeds, rfl, by rw [h.same]⟩
  rw [run_bind, run_pure, hvalue]
  exact ⟨congrArg (b, Begun.asked ·) hcoming, h.store ▸ hq.trans hbecame⟩

theorem begin_run (b : Binder PageAccess) (page : Option PageNumber) (p : Page) :
    ∃ ds store, b.Started p page ((b.begin page).run p).1.1 ((b.begin page).run p).1.2 ds store ∧
      ({ p with answers := ((b.begin page).run p).2.answers }).Became ds store
        ((b.begin page).run p).2 := by
  have hanchor : (Host.anchorPresent b.access b.view.anchor).run p =
    ((p.count? b.view.anchor).isSome, p) := rfl
  unfold begin
  rw [run_bind, hanchor]
  cases hcount : p.count? b.view.anchor with
  | none => exact ⟨_, _, .absent hcount, .logged p _⟩
  | some n =>
    dsimp only [Option.isSome_some]
    rw [if_pos rfl]
    have hmounted : (p.count? b.view.anchor).isSome := by rw [hcount]; rfl
    by_cases hnew : (!b.anchorSeen && b.lastRendered.isNone) = true
    · obtain ⟨ds, store, hydrated, hbecame⟩ := b.hydrate_run p
      rw [if_pos hnew, run_bind]
      rw [Bool.and_eq_true, Bool.not_eq_true', Option.isNone_iff_eq_none] at hnew
      have hstarted := @Started.found b p page hmounted hnew.1 hnew.2 _ _ _ hydrated
      obtain ⟨hview, hsession⟩ := hydrated.view
      obtain ⟨hvalue, hasked⟩ := asked_run
        { (b.hydrate.run p).1.1 with anchorSeen := true } page hbecame rfl
      refine ⟨_, _, ?_, hasked⟩
      simp only [hvalue]
      simpa only [request, hview, hsession] using hstarted
    · rw [if_neg hnew, pure_bind]
      have hknown : b.anchorSeen = true ∨ b.lastRendered.isSome := by
        cases h : b.anchorSeen <;> simp_all [Option.isSome_iff_ne_none]
      obtain ⟨hvalue, hasked⟩ := asked_run { b with anchorSeen := true } page (.refl p) rfl
      refine ⟨_, _, ?_, hasked⟩
      simp only [hvalue]
      exact .known hmounted hknown

/-! ### The second half -/

/-- Whether a snapshot that is shown makes the binder ask for its transition form. -/
def fires (b : Binder PageAccess) (s : Snapshot) : Bool :=
  s.isTerminal && (b.view.transitionForm?.isSome && !b.transitioned)

/-- The binder once it shows a snapshot. -/
def shown (b : Binder PageAccess) (s : Snapshot) : Binder PageAccess :=
  { b with lastRendered := some s, transitioned := b.transitioned || b.fires s }

/-- The form that is submitted with a snapshot, if the page has it. -/
def submissions (b : Binder PageAccess) (p : Page) (s : Snapshot) : List Event :=
  if b.fires s then (b.view.transitionForm?.toList.filter p.forms.contains).map .submitted else []

/-- How a cycle ends that shows a snapshot. -/
def success (b : Binder PageAccess) (s : Snapshot) (outcome : Outcome) : Outcome :=
  if b.fires s then .terminal else outcome

/-- The key of the cache entry of a binder. -/
def key (b : Binder PageAccess) : String :=
  b.view.cacheKey b.session.text

/-- Whether a snapshot is shown already, as far as the binder can tell: it painted it
last, and the store has an entry for the view. -/
def Shows (b : Binder PageAccess) (store : Store) (s : Snapshot) : Prop :=
  b.lastRendered = some s ∧ (store.get? b.key).isSome

instance (b : Binder PageAccess) (store : Store) (s : Snapshot) : Decidable (b.Shows store s) :=
  inferInstanceAs (Decidable (_ ∧ _))

/-- The store after a snapshot was painted; one that is full stays as it is. -/
def kept (b : Binder PageAccess) (p : Page) (s : Snapshot) : Store :=
  if p.isStoreFull then p.store else p.store.put b.key s.stored

theorem submissions_congr (b : Binder PageAccess) {s : Snapshot} {p q : Page}
    (h : q.forms = p.forms) : b.submissions q s = b.submissions p s := by
  rw [submissions, submissions, h]

theorem updatesOf_submissions (b : Binder PageAccess) (p : Page) (s : Snapshot) :
    updatesOf (b.submissions p s) = [] := by
  unfold submissions
  split
  · cases b.view.transitionForm? with
    | none => rfl
    | some form => cases h : p.forms.contains form <;> simp [updatesOf]
  · rfl

theorem kept_congr (b : Binder PageAccess) {s : Snapshot} {p q : Page}
    (hstore : q.store = p.store) (hfull : q.isStoreFull = p.isStoreFull) :
    b.kept q s = b.kept p s := by
  rw [kept, kept, hstore, hfull]

/-- `b.Finished p answer b' outcome ds store`: the second half of a cycle leaves `b'`,
ends with `outcome`, does `ds` to the page `p`, and leaves that store. -/
inductive Finished (b : Binder PageAccess) (p : Page) :
    Fallible (Option Snapshot) → Binder PageAccess → Outcome → List Event → Store → Prop
  | failed (e : Problem) : Finished b p (.error e) b .failed [] p.store
  | empty : Finished b p (.ok none) b .empty [] p.store
  | foreign {s : Snapshot} (hview : s.matchesView b.view = false) :
    Finished b p (.ok (some s)) b .failed [] p.store
  | unchanged {s : Snapshot} (hview : s.matchesView b.view = true) (hshows : b.Shows p.store s) :
    Finished b p (.ok (some s)) (b.shown s) (b.success s .unchanged) (b.submissions p s) p.store
  | refused {s : Snapshot} (hview : s.matchesView b.view = true) (hnew : ¬ b.Shows p.store s)
    (hpaint : ¬ b.CanPaint p s) :
    Finished b p (.ok (some s)) b .failed
      ((p.applied (b.rendering p.store p.cacheBuster s)).map .updated) p.store
  | rendered {s : Snapshot} (hview : s.matchesView b.view = true) (hnew : ¬ b.Shows p.store s)
    (hpaint : b.CanPaint p s) :
    Finished b p (.ok (some s)) (b.shown s) (b.success s .rendered)
      (((b.rendering p.store p.cacheBuster s).filter p.meets).map .updated ++ b.submissions p s)
      (b.kept p s)

theorem fireTransition_run (b : Binder PageAccess) {s : Snapshot} (hs : s.isTerminal = true)
    (p : Page) :
    (b.fireTransition.run p).1 =
        ({ b with transitioned := b.transitioned || b.fires s }, b.fires s) ∧
      p.Became (b.submissions p s) p.store (b.fireTransition.run p).2 := by
  unfold fireTransition
  cases hform : b.view.transitionForm? with
  | none =>
    have hfires : b.fires s = false := by simp [fires, hform]
    have hnone : b.submissions p s = [] := by simp [submissions, hfires]
    rw [hnone, hfires, Bool.or_false]
    exact ⟨rfl, .refl p⟩
  | some form =>
    by_cases htransitioned : b.transitioned = true
    · have hfires : b.fires s = false := by simp [fires, htransitioned]
      have hnone : b.submissions p s = [] := by simp [submissions, hfires]
      dsimp only
      rw [hnone, hfires, Bool.or_false, if_pos htransitioned]
      exact ⟨rfl, .refl p⟩
    · have hfires : b.fires s = true := by simp [fires, hs, hform, htransitioned]
      have hsubmit : (Host.submitForm b.access form).run p =
        if p.forms.contains form then (true, p.record (.submitted form)) else (false, p) := rfl
      dsimp only
      rw [hfires, Bool.or_true, if_neg htransitioned, run_bind, hsubmit]
      by_cases hpresent : p.forms.contains form = true
      · have hdeeds : b.submissions p s = [.submitted form] := by
          simp only [submissions, hfires, hform, Option.toList_some, if_true]
          rw [List.filter_cons_of_pos hpresent]
          rfl
        rw [if_pos hpresent, hdeeds]
        exact ⟨rfl, (Page.Became.did p rfl).told b .info _⟩
      · have hdeeds : b.submissions p s = [] := by
          simp only [submissions, hfires, hform, Option.toList_some, if_true]
          rw [List.filter_cons_of_neg hpresent]
          rfl
        rw [if_neg hpresent, hdeeds]
        exact ⟨rfl, (Page.Became.refl p).told b .warn _⟩

theorem conclude_run (b : Binder PageAccess) (s : Snapshot) (changed : Bool) (p : Page) :
    ((b.conclude s changed).run p).1 =
        (b.shown s, b.success s (if changed then .rendered else .unchanged)) ∧
      p.Became (b.submissions p s) p.store ((b.conclude s changed).run p).2 := by
  unfold conclude
  cases hs : s.isTerminal with
  | false =>
    have hfires : b.fires s = false := by simp [fires, hs]
    have hnone : b.submissions p s = [] := by simp [submissions, hfires]
    rw [hnone, shown, success, hfires, Bool.or_false]
    exact ⟨rfl, .refl p⟩
  | true =>
    obtain ⟨hvalue, hbecame⟩ := fireTransition_run { b with lastRendered := some s } hs p
    rw [if_pos rfl, run_bind, hvalue]
    exact ⟨rfl, hbecame⟩

theorem keepPainted_run (b : Binder PageAccess) {s : Snapshot}
    (hs : s.matchesView b.view = true) (p : Page) :
    p.Became [] (b.kept p s) ((b.keepPainted s).run p).2 := by
  have hkeep := Cache.keep_run b.access b.session hs p
  unfold keepPainted kept
  rw [run_bind]
  split at hkeep
  · rename_i hfull
    obtain ⟨e, he⟩ := hkeep
    rw [he, if_pos hfull]
    exact (Page.Became.refl p).told b .warn _
  · rename_i hroom
    obtain ⟨hok, hbecame⟩ := hkeep
    rw [hok, if_neg hroom]
    exact hbecame

/-- How a snapshot is shown that is not shown already. -/
theorem show_run (b : Binder PageAccess) {s : Snapshot} (hs : s.matchesView b.view = true)
    {p : Page} (hnew : ¬ b.Shows p.store s) {m : StateM Page (Binder PageAccess × Outcome)}
    (hm : m = b.paint s >>= fun
      | .error e => do
        b.tell .warn ("Rendering " ++ b.view.name ++ " failed: " ++ e.detail)
        return (b, .failed)
      | .ok count => do
        b.tell .debug ("Rendered " ++ b.view.name ++ " " ++ elementCount count)
        b.keepPainted s
        b.conclude s true) :
    ∃ ds store, b.Finished p (.ok (some s)) (m.run p).1.1 (m.run p).1.2 ds store ∧
      p.Became ds store (m.run p).2 := by
  subst hm
  rw [run_bind]
  rcases b.paint_cases s (.refl p) with ⟨n, q, hrun, hpaint, hq⟩ | ⟨e, q, hrun, hpaint, hq⟩
  · have htold := hq.told b .debug ("Rendered " ++ b.view.name ++ " " ++ elementCount n)
    have hfull := congrArg Page.isStoreFull htold.same
    have hkeep := htold.trans (b.keepPainted_run hs _)
    have hforms := congrArg Page.forms hkeep.same
    obtain ⟨hvalue, hconclude⟩ := b.conclude_run s true ((b.keepPainted s).run
      ((b.tell .debug ("Rendered " ++ b.view.name ++ " " ++ elementCount n)).run q).2).2
    have hbecame := hkeep.trans hconclude
    rw [hkeep.store, List.append_nil, b.submissions_congr hforms,
      b.kept_congr htold.store hfull] at hbecame
    have hrendered := Finished.rendered hs hnew hpaint
    rw [hrun]
    exact ⟨_, _, hvalue ▸ hrendered, hbecame⟩
  · rw [hrun]
    exact ⟨_, _, .refused hs hnew hpaint, hq.told b .warn _⟩

/-- A snapshot of the view is shown, unless it is shown already. -/
theorem accept_run (b : Binder PageAccess) {s : Snapshot} (hs : s.matchesView b.view = true)
    (p : Page) :
    ∃ ds store, b.Finished p (.ok (some s)) ((b.accept s).run p).1.1 ((b.accept s).run p).1.2
        ds store ∧ p.Became ds store ((b.accept s).run p).2 := by
  unfold accept
  by_cases hlast : b.lastRendered = some s
  · rw [if_pos hlast, run_bind, Cache.contains_run]
    by_cases hentry : (p.store.get? (b.view.cacheKey b.session.text)).isSome = true
    · obtain ⟨hvalue, hbecame⟩ := b.conclude_run s false p
      have hunchanged := Finished.unchanged hs ⟨hlast, hentry⟩
      dsimp only
      rw [if_pos hentry]
      exact ⟨_, _, hvalue ▸ hunchanged, hbecame⟩
    · dsimp only
      rw [if_neg hentry]
      exact b.show_run hs (fun h => hentry h.2) rfl
  · rw [if_neg hlast, pure_bind]
    dsimp only
    rw [if_neg Bool.false_ne_true]
    exact b.show_run hs (fun h => hlast h.1) rfl

theorem finish_run (b : Binder PageAccess) (answer : Fallible (Option Snapshot)) (p : Page) :
    ∃ ds store, b.Finished p answer ((b.finish answer).run p).1.1 ((b.finish answer).run p).1.2
        ds store ∧ p.Became ds store ((b.finish answer).run p).2 := by
  unfold finish
  cases answer with
  | error e => exact ⟨_, _, .failed e, (Page.Became.refl p).told b .warn _⟩
  | ok received =>
    cases received with
    | none => exact ⟨_, _, .empty, .refl p⟩
    | some s =>
      dsimp only
      by_cases hs : s.matchesView b.view = true
      · rw [if_pos hs]
        exact b.accept_run hs p
      · rw [if_neg hs]
        exact ⟨_, _, .foreign (Bool.not_eq_true _ ▸ hs), (Page.Became.refl p).told b .warn _⟩

end Binder

end WalletPage
