import WalletPage.Page.Basic
import WalletPage.Binder.Cycle
import WalletPage.Proofs.StoredSnapshot
import Mathlib.Data.List.TakeWhile

/-! What the actions of a binder do to a page in memory, log lines apart: which
changes reach its elements, what its store holds afterwards, and that nothing
else moves. Each action has one statement, and later results cite only these. -/

namespace WalletPage

theorem run_bind {σ α β : Type} (m : StateM σ α) (f : α → StateM σ β) (s : σ) :
    (m >>= f).run s = (f (m.run s).1).run (m.run s).2 := rfl

theorem run_pure {σ α : Type} (a : α) (s : σ) : (pure a : StateM σ α).run s = (a, s) := rfl

/-- Whether an event is more than a line of the log. -/
def Event.isDeed : Event → Bool
  | .logged _ => false
  | _ => true

/-- The changes to elements among events. -/
def updatesOf (events : List Event) : List Update :=
  events.filterMap fun
    | .updated u => some u
    | _ => none

theorem updatesOf_append (a b : List Event) : updatesOf (a ++ b) = updatesOf a ++ updatesOf b := by
  simp [updatesOf]

@[simp] theorem updatesOf_updated (us : List Update) : updatesOf (us.map .updated) = us := by
  induction us with
  | nil => rfl
  | cons u us ih => exact congrArg (u :: ·) ih

theorem Store.erase_of_get?_none {store : Store} {key : String} (h : store.get? key = none) :
    store.erase key = store := by
  obtain ⟨entries, sorted⟩ := store
  have hnone : ∀ e ∈ entries, e.1 ≠ key := by
    intro e he hkey
    have := List.lookup_eq_none_iff.mp h e he
    simp [hkey] at this
  simp only [erase, Store.mk.injEq, dropKey]
  exact List.filter_eq_self.mpr (by simpa using hnone)

namespace Page

/-- What has happened to a page apart from its log. -/
def deeds (p : Page) : List Event :=
  p.events.filter Event.isDeed

/-- The changes that have reached elements of a page. -/
def updates (p : Page) : List Update :=
  updatesOf p.events

theorem updates_eq_deeds (p : Page) : p.updates = updatesOf p.deeds := by
  rw [updates, deeds, updatesOf, updatesOf, List.filterMap_filter]
  congr 1
  funext e
  cases e <;> rfl

/-- `p.Became ds store q`: the page `p` has turned into `q` by those deeds, and the
store holds that now. -/
structure Became (p : Page) (ds : List Event) (store : Store) (q : Page) : Prop where
  deeds : q.deeds = p.deeds ++ ds
  store : q.store = store
  same : q = { p with events := q.events, store := q.store }

namespace Became

theorem refl (p : Page) : p.Became [] p.store p :=
  ⟨(List.append_nil _).symm, rfl, rfl⟩

theorem trans {p q r : Page} {ds es : List Event} {s t : Store} (h : p.Became ds s q)
    (k : q.Became es t r) : p.Became (ds ++ es) t r := by
  refine ⟨by rw [k.deeds, h.deeds, List.append_assoc], k.store, ?_⟩
  rw [k.same, h.same]

theorem logged (p : Page) (e : LogEntry) : p.Became [] p.store (p.record (.logged e)) :=
  ⟨by simp [Page.deeds, record, Event.isDeed], rfl, rfl⟩

theorem did (p : Page) {e : Event} (he : e.isDeed = true) :
    p.Became [e] p.store (p.record e) :=
  ⟨by simp [Page.deeds, record, he], rfl, rfl⟩

theorem stored (p : Page) (store : Store) : p.Became [] store { p with store := store } :=
  ⟨(List.append_nil _).symm, rfl, rfl⟩

end Became

/-! ### Painting -/

/-- Whether a change meets any element. -/
def meets (p : Page) (u : Update) : Bool :=
  0 < (p.count? u.target).getD 0

/-- The changes that reach elements when several are made in order: nothing is
changed any more from the first one that fails on. -/
def applied (p : Page) (us : List Update) : List Update :=
  (us.takeWhile fun u => p.failing ≠ some u.target).filter p.meets

theorem applied_eq_filter {p : Page} {us : List Update}
    (h : ∀ u ∈ us, p.failing ≠ some u.target) : p.applied us = us.filter p.meets := by
  rw [applied, List.takeWhile_eq_self_iff.mpr (by simpa using h)]

end Page

theorem applyAll_run (access : PageAccess) (us : List Update) (n : Nat) (p : Page) :
    p.Became ((p.applied us).map .updated) p.store ((applyAll access n us).run p).2 ∧
      ((∃ m, ((applyAll access n us).run p).1 = .ok m) ↔
        ∀ u ∈ us, p.failing ≠ some u.target) := by
  induction us generalizing n p with
  | nil => exact ⟨.refl p, fun _ u hu => absurd hu List.not_mem_nil, fun _ => ⟨n, rfl⟩⟩
  | cons u us ih =>
    have hu : (Host.apply access u).run p = p.applyUpdate u := rfl
    rw [applyAll, run_bind, hu, Page.applyUpdate]
    by_cases hf : p.failing = some u.target
    · have happlied : p.applied (u :: us) = [] := by simp [Page.applied, hf]
      rw [if_pos hf, happlied]
      exact ⟨.refl p, by simp [hf]⟩
    · rw [if_neg hf]
      cases hc : (p.count? u.target).getD 0 with
      | zero =>
        have happlied : p.applied (u :: us) = p.applied us := by
          simp [Page.applied, hf, Page.meets, hc]
        rw [happlied]
        have h := ih (n + 0) p
        exact ⟨h.1, by simpa [hf] using h.2⟩
      | succ k =>
        have happlied : p.applied (u :: us) = u :: p.applied us := by
          simp [Page.applied, hf, Page.meets, hc]
        have h := ih (n + (k + 1)) (p.record (.updated u))
        rw [happlied]
        exact ⟨(Page.Became.did p rfl).trans h.1, by simpa [hf, Page.record] using h.2⟩

theorem forIds_run (access : PageAccess) (ids : List String) (p : Page) :
    (Notes.forIds access ids).run p =
      (ids.filterMap fun id => (p.store.get? (Notes.key id)).map (id, ·), p) := by
  induction ids with
  | nil => rfl
  | cons id rest ih =>
    have hget : (Notes.get? access id).run p = (p.store.get? (Notes.key id), p) := rfl
    rw [Notes.forIds, run_bind, hget, run_bind, ih, run_pure]
    cases h : p.store.get? (Notes.key id) <;> simp [h]

theorem lookup_filterMap_note (store : Store) (ids : List String) (id : String) :
    (ids.filterMap fun id => (store.get? (Notes.key id)).map (id, ·)).lookup id =
      if id ∈ ids then store.get? (Notes.key id) else none := by
  induction ids with
  | nil => rfl
  | cons other rest ih =>
    cases hn : store.get? (Notes.key other) with
    | none =>
      rw [List.filterMap_cons_none (by simp [hn]), ih]
      by_cases h : id = other
      · simp [h, hn]
      · simp [h]
    | some note =>
      rw [List.filterMap_cons_some (b := (other, note)) (by simp [hn]), lookup_cons_eq, ih]
      by_cases h : id = other
      · simp [h, hn]
      · simp [h]

namespace Binder

/-- What a binder paints for a snapshot: the notes are those in the store. -/
def rendering (b : Binder PageAccess) (store : Store) (cacheBuster : String) (s : Snapshot) :
    List Update :=
  s.updates b.view
    { session := b.session, baseUrl := b.baseUrl, cacheBuster := cacheBuster,
      note := fun id => store.get? (Notes.key id) }

/-- Rendering asks for no other notes than those of the lines of the snapshot. -/
theorem updates_congr_note (s : Snapshot) (v : View) (ctx : RenderContext)
    (note : String → Option String) (h : ∀ id ∈ shortIds s, ctx.note id = note id) :
    s.updates v ctx = s.updates v { ctx with note := note } := by
  cases s with
  | balance data => rfl
  | blockHeight data => rfl
  | progress data => rfl
  | txHistory page =>
    have hrow : ∀ line ∈ page.lines, txRow ctx line = txRow { ctx with note := note } line := by
      intro line hline
      have hnote := h line.shortId (List.mem_map_of_mem hline)
      simp only [txRow, noteInput, hnote, detailsForm]
    simp only [Snapshot.updates, TxHistoryPage.updates, txTable, List.map_congr_left hrow]

theorem paint_run (b : Binder PageAccess) (s : Snapshot) (p : Page) :
    (b.paint s).run p = (applyAll b.access 0 (b.rendering p.store p.cacheBuster s)).run p := by
  have hbuster : (Host.cacheBuster b.access).run p = (p.cacheBuster, p) := rfl
  rw [paint, run_bind, forIds_run, run_bind, hbuster, rendering]
  dsimp only
  rw [updates_congr_note s b.view _ (fun id => p.store.get? (Notes.key id))]
  intro id hid
  exact (lookup_filterMap_note p.store (shortIds s) id).trans (if_pos hid)

/-- Whether nothing fails that a binder paints for a snapshot. -/
def CanPaint (b : Binder PageAccess) (p : Page) (s : Snapshot) : Prop :=
  ∀ u ∈ b.rendering p.store p.cacheBuster s, p.failing ≠ some u.target

theorem paint_ok {b : Binder PageAccess} {s : Snapshot} {p : Page} (h : b.CanPaint p s) :
    ∃ n q, (b.paint s).run p = (.ok n, q) ∧
      p.Became (((b.rendering p.store p.cacheBuster s).filter p.meets).map .updated) p.store q := by
  obtain ⟨hbecame, hok⟩ :=
    applyAll_run b.access (b.rendering p.store p.cacheBuster s) 0 p
  obtain ⟨n, hn⟩ := hok.mpr h
  rw [Page.applied_eq_filter h] at hbecame
  exact ⟨n, _, by rw [paint_run, ← hn]; rfl, hbecame⟩

end Binder

/-! ### The cache -/

namespace Cache

/-- The snapshot of a view that a store holds for a session. -/
def found (store : Store) (session : SessionId) (v : View) : Option Snapshot :=
  match store.get? (v.cacheKey session.text) with
  | none => none
  | some raw =>
    match Snapshot.ofStored raw with
    | .ok s => if s.matchesView v then some s else none
    | .error _ => none

/-- A store without the entry of a view, if that is no snapshot of the view. -/
def tidied (store : Store) (session : SessionId) (v : View) : Store :=
  if (found store session v).isSome then store else store.erase (v.cacheKey session.text)

theorem matchesView_of_found {store : Store} {session : SessionId} {v : View} {s : Snapshot}
    (h : found store session v = some s) : s.matchesView v = true := by
  unfold found at h
  split at h
  · contradiction
  · split at h
    · split at h
      · cases h; assumption
      · contradiction
    · contradiction

/-- A snapshot that is put is found again. -/
theorem found_put (store : Store) (session : SessionId) {v : View} {s : Snapshot}
    (hs : s.matchesView v = true) :
    found (store.put (v.cacheKey session.text) s.stored) session v = some s := by
  simp [found, Snapshot.ofStored_stored, hs]

theorem found_tidied (store : Store) (session : SessionId) (v : View) :
    found (tidied store session v) session v = found store session v := by
  unfold tidied
  split
  · rfl
  · rename_i h
    rw [Option.not_isSome_iff_eq_none.mp h]
    simp [found]

theorem load_run (access : PageAccess) (session : SessionId) (v : View) (p : Page) :
    ((load access session v).run p).1 = found p.store session v ∧
      p.Became [] (tidied p.store session v) ((load access session v).run p).2 := by
  have hget : (Host.get? access (v.cacheKey session.text)).run p =
    (p.store.get? (v.cacheKey session.text), p) := rfl
  have hdrop (key message : String) : ((drop access key message).run p).1 = none ∧
      p.Became [] (p.store.erase key) ((drop access key message).run p).2 :=
    ⟨rfl, (Page.Became.logged p _).trans (Page.Became.stored _ _)⟩
  rw [load, run_bind, hget]
  dsimp only
  cases hg : p.store.get? (v.cacheKey session.text) with
  | none =>
    have hfound : found p.store session v = none := by simp [found, hg]
    have htidied : tidied p.store session v = p.store := by
      simp [tidied, hfound, Store.erase_of_get?_none hg]
    rw [hfound, htidied]
    exact ⟨rfl, .refl p⟩
  | some raw =>
    have hnone (h : found p.store session v = none) :
        tidied p.store session v = p.store.erase (v.cacheKey session.text) := by
      simp [tidied, h]
    cases ho : Snapshot.ofStored raw with
    | error e =>
      have hfound : found p.store session v = none := by simp [found, hg, ho]
      rw [hnone hfound, hfound]
      simp only [ho]
      exact hdrop _ _
    | ok s =>
      simp only [ho]
      by_cases hs : s.matchesView v
      · have hfound : found p.store session v = some s := by simp [found, hg, ho, hs]
        have htidied : tidied p.store session v = p.store := by simp [tidied, hfound]
        rw [if_pos hs, hfound, htidied]
        exact ⟨rfl, .refl p⟩
      · have hfound : found p.store session v = none := by simp [found, hg, ho, hs]
        rw [if_neg hs, hnone hfound, hfound]
        exact hdrop _ _

/-- A store that is not full keeps a snapshot of the view; a full one stays as it is. -/
theorem keep_run (access : PageAccess) (session : SessionId) {v : View} {s : Snapshot}
    (hs : s.matchesView v = true) (p : Page) :
    if p.isStoreFull then ∃ e, (keep access session v s).run p = (.error e, p)
    else ((keep access session v s).run p).1 = .ok () ∧
      p.Became [] (p.store.put (v.cacheKey session.text) s.stored)
        ((keep access session v s).run p).2 := by
  have hset : (Host.set access (v.cacheKey session.text) s.stored).run p =
    p.write (v.cacheKey session.text) s.stored := rfl
  unfold keep
  rw [if_pos hs, run_bind, hset]
  unfold Page.write
  split
  · exact ⟨_, rfl⟩
  · exact ⟨rfl, (Page.Became.stored p _).trans (Page.Became.logged _ _)⟩

theorem contains_run (access : PageAccess) (session : SessionId) (v : View) (p : Page) :
    (contains access session v).run p =
      ((p.store.get? (v.cacheKey session.text)).isSome, p) := rfl

end Cache

end WalletPage
