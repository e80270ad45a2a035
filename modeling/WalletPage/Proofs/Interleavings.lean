import Mathlib.Data.List.Perm.Basic
import Mathlib.Logic.Function.Basic
import WalletPage.Proofs.CacheMap
import WalletPage.Proofs.OwnEntry
import WalletPage.Proofs.RenderOnChange

/-! Views do not disturb each other. The binders of a session share a page and a store, and
take turns in any order, half a cycle at a time. What a binder does in a half depends on no
other view, and changes nothing that another view reads; so the order makes no difference. -/

namespace WalletPage

/-! ### Stores by their entries -/

theorem lookup_eq_none_of_lt {α : Type} {entries : List (String × α)} {k : String}
    (h : ∀ e ∈ entries, k < e.1) : entries.lookup k = none := by
  rw [List.lookup_eq_none_iff]
  intro e he
  exact bne_iff_ne.mpr fun heq => String.lt_irrefl k (heq ▸ h e he)

/-- Lists in the order of their keys are equal if they have the same values. -/
theorem KeysSorted.ext {α : Type} {xs ys : List (String × α)} (hx : KeysSorted xs)
    (hy : KeysSorted ys) (h : ∀ k, xs.lookup k = ys.lookup k) : xs = ys := by
  induction xs generalizing ys with
  | nil =>
    cases ys with
    | nil => rfl
    | cons e ys =>
      obtain ⟨l, other⟩ := e
      simpa [lookup_cons_eq] using h l
  | cons d xs ih =>
    cases ys with
    | nil => simpa using h d.1
    | cons e ys =>
      obtain ⟨k, value⟩ := d
      obtain ⟨l, other⟩ := e
      obtain ⟨hd, hxs⟩ := keysSorted_cons.mp hx
      obtain ⟨he, hys⟩ := keysSorted_cons.mp hy
      simp only [lookup_cons_eq] at h
      -- the smaller one of two different first keys would be missing in the other list
      have hkey : k = l := by
        by_contra hne
        rcases String.le_total k l with hle | hle
        · have hlt : k < l := String.not_le.mp fun hle' => hne (String.le_antisymm hle hle')
          have hnone := lookup_eq_none_of_lt fun f hf => String.lt_trans hlt (he f hf)
          simpa [hne, hnone] using h k
        · have hlt : l < k := String.not_le.mp fun hle' => hne (String.le_antisymm hle' hle)
          have hnone := lookup_eq_none_of_lt fun f hf => String.lt_trans hlt (hd f hf)
          simpa [Ne.symm hne, hnone] using h l
      subst hkey
      have hvalue : value = other := by simpa using h k
      subst hvalue
      rw [ih hxs hys fun j => ?_]
      by_cases hj : j = k
      · rw [hj, lookup_eq_none_of_lt hd, lookup_eq_none_of_lt he]
      · simpa [hj] using h j

theorem Store.ext_get? {s t : Store} (h : ∀ k, s.get? k = t.get? k) : s = t := by
  obtain ⟨xs, hx⟩ := s
  obtain ⟨ys, hy⟩ := t
  have hentries : xs = ys := hx.ext hy h
  subst hentries
  rfl

/-! ### Turns on one page -/

/-- The way of one view: its binder, what is around and what is answered when the cycle goes
on that has asked, the cycles to come, and what has been done so far. -/
structure Lane where
  binder : Binder (Watcher PageAccess)
  waiting : Option (Surroundings × Fallible (Option Snapshot)) := none
  ahead : List Occasion
  calls : List Call := []
  outcomes : List Outcome := []

namespace Lane

/-- The first half of a cycle. -/
def start (lane : Lane) (o : Occasion) (later : List Occasion) (p : Page) : Lane × Page :=
  let ((b, begun), w) :=
    (lane.binder.begin o.page).run { world := p.facing lane.binder.view o }
  let started := { lane with binder := b, ahead := later, calls := lane.calls ++ w.calls }
  match begun with
  | .ended outcome => ({ started with outcomes := lane.outcomes ++ [outcome] }, w.world)
  | .asked reply => ({ started with waiting := some (o.finish, reply.answer) }, w.world)

/-- The second half of a cycle. -/
def close (lane : Lane) (x : Surroundings) (answer : Fallible (Option Snapshot)) (p : Page) :
    Lane × Page :=
  let ((b, outcome), w) := (lane.binder.finish answer).run { world := p.within x }
  ({ lane with binder := b, waiting := none, calls := lane.calls ++ w.calls,
               outcomes := lane.outcomes ++ [outcome] }, w.world)

/-- The next half of a cycle, if any is left. -/
def stride (lane : Lane) (p : Page) : Lane × Page :=
  match lane.waiting, lane.ahead with
  | some (x, answer), _ => lane.close x answer p
  | none, o :: later => lane.start o later p
  | none, [] => (lane, p)

end Lane

/-- The page that the views share, and the way of each of them. -/
structure Board where
  page : Page
  lanes : View → Lane

namespace Board

/-- One view takes a turn. -/
def stride (b : Board) (v : View) : Board where
  page := ((b.lanes v).stride b.page).2
  lanes := Function.update b.lanes v ((b.lanes v).stride b.page).1

/-- The views take turns in that order. -/
def after (b : Board) (order : List View) : Board :=
  order.foldl stride b

/-- A page on which nothing has been done yet for a session; each view has its cycles ahead. -/
def opened (p : Page) (session : SessionId) (baseUrl : String) (plan : View → List Occasion) :
    Board where
  page := p
  lanes v := {
    binder := { view := v, session := session, baseUrl := baseUrl, access := ⟨.only⟩ }
    ahead := plan v }

/-- Each lane is the way of its view, and all are of that session. -/
structure IsOf (b : Board) (session : SessionId) : Prop where
  view : ∀ v, (b.lanes v).binder.view = v
  session : ∀ v, (b.lanes v).binder.session = session

end Board

/-! ### What a turn depends on -/

namespace Page

/-- The same has come of two pages that agree for a view, and the first of them has changed
in nothing that is not the view's. -/
structure Same {α : Type} (v : View) (key : String) (before : Page) (done done' : α × Page) :
    Prop where
  value : done'.1 = done.1
  agree : done.2.Agree v key done'.2
  apart : before.Apart v key done.2

theorem Agree.refl (v : View) (key : String) (p : Page) : p.Agree v key p :=
  ⟨rfl, rfl, fun _ => rfl⟩

theorem Apart.refl (v : View) (key : String) (p : Page) : p.Apart v key p :=
  ⟨fun _ _ => rfl, fun _ _ => rfl⟩

/-- An action that comes to the same on pages that look alike does so in the same surroundings. -/
theorem Alike.run {α : Type} {x : Surroundings} {session : SessionId} {v : View} {before p q : Page}
    {m : StateM (Watched Page) α} (hm : Pairs (Watched.Alike x session v before) m)
    (h : Alike x v (v.cacheKey session.text) before p q) :
    Same v (v.cacheKey session.text) before
      (((m.run { world := p }).1, (m.run { world := p }).2.calls), (m.run { world := p }).2.world)
      (((m.run { world := q }).1, (m.run { world := q }).2.calls), (m.run { world := q }).2.world) := by
  obtain ⟨hvalue, halike, hcalls⟩ := hm { world := p } { world := q } ⟨h, rfl⟩
  exact ⟨Prod.ext hvalue hcalls, halike.agree, halike.apart⟩

theorem Agree.within {v : View} {key : String} {p q : Page} (h : p.Agree v key q)
    (x : Surroundings) : Alike x v key p (p.within x) (q.within x) :=
  ⟨rfl, rfl, ⟨h.answers, h.own, h.notes⟩, ⟨fun _ _ => rfl, fun _ _ => rfl⟩⟩

theorem Agree.facing {v : View} {key : String} {p q : Page} (h : p.Agree v key q)
    (o : Occasion) : Alike o.start v key p (p.facing v o) (q.facing v o) where
  left := rfl
  right := rfl
  agree := ⟨by simp [Page.facing], h.own, h.notes⟩
  apart := ⟨fun w hw => answersFor_setAnswers (p.within o.start) hw _, fun _ _ => rfl⟩

end Page

namespace Lane

variable {lane : Lane} {p q : Page}

/-- The key of the view's entry. -/
def key (lane : Lane) : String :=
  lane.binder.cacheKey

theorem start_same (hkey : ∀ id, Notes.key id ≠ lane.key) (o : Occasion) (later : List Occasion)
    (h : p.Agree lane.binder.view lane.key q) :
    Page.Same lane.binder.view lane.key p (lane.start o later p) (lane.start o later q) := by
  obtain ⟨hvalue, hagree, hapart⟩ := (h.facing o).run (Binder.pairs_begin hkey o.page)
  unfold start
  generalize (lane.binder.begin o.page).run
    { world := p.facing lane.binder.view o } = done at hvalue hagree hapart ⊢
  generalize (lane.binder.begin o.page).run
    { world := q.facing lane.binder.view o } = done' at hvalue hagree ⊢
  obtain ⟨⟨b, begun⟩, w⟩ := done
  obtain ⟨⟨b', begun'⟩, w'⟩ := done'
  obtain ⟨⟨rfl, rfl⟩, hcalls⟩ : (b' = b ∧ begun' = begun) ∧ w'.calls = w.calls := by
    simpa using hvalue
  dsimp only
  rw [hcalls]
  cases begun' <;> exact ⟨rfl, hagree, hapart⟩

theorem close_same (hkey : ∀ id, Notes.key id ≠ lane.key) (x : Surroundings)
    (answer : Fallible (Option Snapshot)) (h : p.Agree lane.binder.view lane.key q) :
    Page.Same lane.binder.view lane.key p (lane.close x answer p) (lane.close x answer q) := by
  obtain ⟨hvalue, hagree, hapart⟩ := (h.within x).run (Binder.pairs_finish hkey answer)
  unfold close
  generalize (lane.binder.finish answer).run { world := p.within x } = done at hvalue hagree hapart ⊢
  generalize (lane.binder.finish answer).run { world := q.within x } = done' at hvalue hagree ⊢
  obtain ⟨⟨b, outcome⟩, w⟩ := done
  obtain ⟨⟨b', outcome'⟩, w'⟩ := done'
  obtain ⟨⟨rfl, rfl⟩, hcalls⟩ : (b' = b ∧ outcome' = outcome) ∧ w'.calls = w.calls := by
    simpa using hvalue
  dsimp only
  rw [hcalls]
  exact ⟨rfl, hagree, hapart⟩

/-- A turn depends on nothing but what the view reads, and changes only what is the view's. -/
theorem stride_same (hkey : ∀ id, Notes.key id ≠ lane.key)
    (h : p.Agree lane.binder.view lane.key q) :
    Page.Same lane.binder.view lane.key p (lane.stride p) (lane.stride q) := by
  unfold stride
  split
  · exact close_same hkey _ _ h
  · exact start_same hkey _ _ h
  · exact ⟨rfl, h, .refl _ _ p⟩

/-- A turn keeps the view and the session. -/
theorem stride_kin (lane : Lane) (p : Page) : lane.binder.Kin (lane.stride p).1.binder := by
  unfold stride
  split
  · rename_i x answer _
    exact (lane.binder.finish_yields answer { world := p.within x }).1
  · rename_i o later _ _
    have hkin := (lane.binder.begin_yields o.page { world := p.facing lane.binder.view o }).1.kin
    unfold start
    generalize (lane.binder.begin o.page).run
      { world := p.facing lane.binder.view o } = done at hkin ⊢
    obtain ⟨⟨b, begun⟩, w⟩ := done
    cases begun <;> exact hkin
  · exact .refl _

end Lane

namespace Board

variable {session : SessionId} {a b : Board}

theorem stride_isOf (h : b.IsOf session) (v : View) : (b.stride v).IsOf session := by
  have hlane (w : View) : (b.lanes w).binder.Kin ((b.stride v).lanes w).binder := by
    rcases eq_or_ne w v with rfl | hw
    · simpa [stride] using (b.lanes w).stride_kin b.page
    · simpa [stride, Function.update_of_ne hw] using Binder.Kin.refl _
  exact ⟨fun w => (hlane w).view.trans (h.view w), fun w => (hlane w).session.trans (h.session w)⟩

/-- Two boards agree for a view: its way is the same, and so is what it reads. -/
structure Agree (v : View) (session : SessionId) (a b : Board) : Prop where
  lane : b.lanes v = a.lanes v
  page : a.page.Agree v (v.cacheKey session.text) b.page

variable {v w : View}

theorem Agree.trans {c : Board} (h : Agree v session a b) (k : Agree v session b c) :
    Agree v session a c where
  lane := k.lane.trans h.lane
  page := ⟨k.page.answers.trans h.page.answers, k.page.own.trans h.page.own,
    fun id => (k.page.notes id).trans (h.page.notes id)⟩

variable (hkey : ∀ (id : String) (v : View), Notes.key id ≠ v.cacheKey session.text)
include hkey

/-- What a turn of a view does to boards that agree for it. -/
theorem IsOf.same (ha : a.IsOf session) {p q : Page} (h : p.Agree v (v.cacheKey session.text) q) :
    Page.Same v (v.cacheKey session.text) p ((a.lanes v).stride p) ((a.lanes v).stride q) := by
  have hlane : (a.lanes v).key = v.cacheKey session.text := by
    rw [Lane.key, Binder.cacheKey, ha.view, ha.session]
  have hsame : Page.Same (a.lanes v).binder.view (a.lanes v).key p ((a.lanes v).stride p)
      ((a.lanes v).stride q) :=
    Lane.stride_same (fun id => hlane ▸ hkey id v) (by rw [ha.view, hlane]; exact h)
  rwa [ha.view, hlane] at hsame

/-- A turn of the view keeps boards in agreement for it. -/
theorem Agree.stride (ha : a.IsOf session) (h : Agree v session a b) :
    Agree v session (a.stride v) (b.stride v) := by
  have hsame := ha.same hkey h.page
  refine ⟨?_, ?_⟩
  · simpa [Board.stride, h.lane] using hsame.value
  · simpa [Board.stride, h.lane] using hsame.agree

/-- A turn of another view leaves a board as it was for the view. -/
theorem agree_stride (ha : a.IsOf session) (hw : w ≠ v) : Agree v session a (a.stride w) := by
  have hapart := (ha.same hkey (.refl w (w.cacheKey session.text) a.page)).apart
  have hown : v.cacheKey session.text ≠ w.cacheKey session.text :=
    fun heq => hw (Cache.cacheKey_eq_iff.mp heq).2
  refine ⟨Function.update_of_ne hw.symm _ _, ?_, ?_, ?_⟩
  · exact hapart.answers v hw.symm
  · exact hapart.store _ hown
  · exact fun id => hapart.store _ (hkey id w)

/-- For a view only its own turns count. -/
theorem Agree.after (order : List View) (ha : a.IsOf session) (hb : b.IsOf session)
    (h : Agree v session a b) :
    Agree v session (a.after (order.filter (· = v))) (b.after order) := by
  induction order generalizing a b with
  | nil => exact h
  | cons w rest ih =>
    by_cases hw : w = v
    · subst hw
      rw [List.filter_cons_of_pos (by simp)]
      exact ih (stride_isOf ha w) (stride_isOf hb w) (h.stride hkey ha)
    · rw [List.filter_cons_of_neg (by simp [hw])]
      exact ih ha (stride_isOf hb w) (h.trans (agree_stride hkey hb hw))

/-- Nothing is written but the entries of the views. -/
theorem get?_after (order : List View) (ha : a.IsOf session) {k : String}
    (hk : ∀ v : View, k ≠ v.cacheKey session.text) :
    (a.after order).page.store.get? k = a.page.store.get? k := by
  induction order generalizing a with
  | nil => rfl
  | cons v rest ih =>
    have hapart := (ha.same hkey (.refl v (v.cacheKey session.text) a.page)).apart
    exact (ih (stride_isOf ha v)).trans (hapart.store k (hk v))

end Board

/-- Views do not disturb each other. The binders of a session, one for each view, share a page
and a store, and each has its cycles before it; no note stands under a key of the cache. In
whatever order they take the same number of turns, each makes the same calls with the same
results and ends its cycles in the same way, and the store is the same in the end. -/
theorem order_makes_no_difference {session : SessionId} {b : Board} (hb : b.IsOf session)
    (hkey : ∀ (id : String) (v : View), Notes.key id ≠ v.cacheKey session.text)
    {order order' : List View} (hperm : order.Perm order') :
    (b.after order).lanes = (b.after order').lanes ∧
      (b.after order).page.store = (b.after order').page.store := by
  have hagree (v : View) : Board.Agree v session b b := ⟨rfl, .refl _ _ _⟩
  have hboth (v : View) : ((b.after order).lanes v = (b.after order').lanes v) ∧
      (b.after order).page.store.get? (v.cacheKey session.text) =
        (b.after order').page.store.get? (v.cacheKey session.text) := by
    have hturns : order.filter (· = v) = order'.filter (· = v) := by
      rw [List.filter_eq, List.filter_eq, hperm.count_eq]
    have hone := (hagree v).after hkey order hb hb
    have hother := (hagree v).after hkey order' hb hb
    rw [← hturns] at hother
    exact ⟨hone.lane.trans hother.lane.symm, hone.page.own.trans hother.page.own.symm⟩
  refine ⟨funext fun v => (hboth v).1, Store.ext_get? fun k => ?_⟩
  by_cases hk : ∃ v : View, k = v.cacheKey session.text
  · obtain ⟨v, rfl⟩ := hk
    exact (hboth v).2
  · push Not at hk
    rw [Board.get?_after hkey order hb hk, Board.get?_after hkey order' hb hk]

/-- No note stands under a key of the session of pages that have none. -/
theorem Notes.key_ne_anonymous (id : String) (v : View) :
    key id ≠ v.cacheKey SessionId.anonymous.text := by
  intro heq
  have hchars := congrArg (·.toList.head?) heq
  simp [key, View.cacheKey, SessionId.anonymous] at hchars

/-- The height and the history are each fetched once. -/
def heightAndHistory : Board :=
  .opened {} .anonymous "" fun
    | .blockHeight => [.steady .blockHeight (.ok (some (.blockHeight ⟨"1", "", ""⟩))) false]
    | .txHistory => [.steady .txHistory (.ok (some (historyOf 1))) false]
    | _ => []

/-- It makes no difference whether the second view asks before the first one is done. -/
theorem heightAndHistory_overlapping :
    heightAndHistory.IsOf .anonymous ∧
      (∀ (id : String) (v : View), Notes.key id ≠ v.cacheKey SessionId.anonymous.text) ∧
      (heightAndHistory.after [.blockHeight, .txHistory, .txHistory, .blockHeight]).page.store =
        (heightAndHistory.after [.txHistory, .txHistory, .blockHeight, .blockHeight]).page.store := by
  have hof : heightAndHistory.IsOf .anonymous := ⟨fun _ => rfl, fun _ => rfl⟩
  exact ⟨hof, Notes.key_ne_anonymous,
    (order_makes_no_difference hof Notes.key_ne_anonymous (by decide)).2⟩

end WalletPage
