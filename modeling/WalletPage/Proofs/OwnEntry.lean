import WalletPage.Proofs.BinderRuns
import WalletPage.Proofs.Watched

/-! A binder reads the entry of its view and the notes, and writes its entry alone. So it
does the same on two pages that look alike to it, however their stores differ elsewhere,
and leaves the rest of the store as it is. -/

namespace WalletPage

variable {σ α β : Type}

/-! ### Two runs side by side -/

/-- Whether an action comes to the same on related pages and leaves them related. -/
def Pairs (R : σ → σ → Prop) (m : StateM σ α) : Prop :=
  ∀ w w', R w w' → (m.run w').1 = (m.run w).1 ∧ R (m.run w).2 (m.run w').2

namespace Pairs

variable {R : σ → σ → Prop}

theorem pure (a : α) : Pairs R (Pure.pure a : StateM σ α) :=
  fun _ _ h => ⟨rfl, h⟩

/-- What comes after may rely on what the first action always comes to. -/
theorem after {m : StateM σ α} {f : α → StateM σ β} {P : α → Prop} (hm : Pairs R m)
    (hyields : Yields m P) (hf : ∀ a, P a → Pairs R (f a)) : Pairs R (m >>= f) := by
  intro w w' h
  obtain ⟨hvalue, hafter⟩ := hm w w' h
  obtain ⟨hvalue', hafter'⟩ := hf (m.run w).1 (hyields w) _ _ hafter
  simp only [run_bind, hvalue]
  exact ⟨hvalue', hafter'⟩

theorem bind {m : StateM σ α} {f : α → StateM σ β} (hm : Pairs R m) (hf : ∀ a, Pairs R (f a)) :
    Pairs R (m >>= f) :=
  hm.after (Yields.any m) fun a _ => hf a

end Pairs

namespace Page

theorem answersFor_setAnswers (p : Page) {v w : View} (h : w ≠ v) (queue : List Prepared) :
    (p.setAnswers v queue).answersFor w = p.answersFor w := by
  have hhead {u : View} (hu : w ≠ u) (old : List Prepared) (tail : List (View × List Prepared)) :
      ((u, old) :: tail).lookup w = tail.lookup w := by
    rw [List.lookup_cons, beq_false_of_ne hu]
  have hothers : (p.answers.filter (·.1 ≠ v)).lookup w = p.answers.lookup w := by
    induction p.answers with
    | nil => rfl
    | cons head tail ih =>
      obtain ⟨u, old⟩ := head
      by_cases hu : u = v
      · rw [List.filter_cons_of_neg (by simp [hu]), ih, hhead (hu ▸ h)]
      · rw [List.filter_cons_of_pos (by simp [hu]), List.lookup_cons, List.lookup_cons, ih]
  rw [answersFor, setAnswers, hhead h, hothers, answersFor]

@[simp] theorem answersFor_setAnswers_self (p : Page) (v : View) (queue : List Prepared) :
    (p.setAnswers v queue).answersFor v = queue := by
  simp [answersFor, setAnswers]

/-- Two pages agree on what the binder of a view reads: the answers that wait for it, its
entry, and the notes. -/
structure Agree (v : View) (key : String) (p q : Page) : Prop where
  answers : q.answersFor v = p.answersFor v
  own : q.store.get? key = p.store.get? key
  notes : ∀ id, q.store.get? (Notes.key id) = p.store.get? (Notes.key id)

/-- A page differs from one before it in nothing that is not the view's. -/
structure Apart (v : View) (key : String) (before p : Page) : Prop where
  answers : ∀ w, w ≠ v → p.answersFor w = before.answersFor w
  store : ∀ k, k ≠ key → p.store.get? k = before.store.get? k

/-- Two pages look alike to the binder of a view, and the first one has come of a page from
which it differs in nothing that is not the view's. -/
structure Alike (x : Surroundings) (v : View) (key : String) (before p q : Page) : Prop where
  left : p = p.within x
  right : q = q.within x
  agree : p.Agree v key q
  apart : before.Apart v key p

namespace Alike

variable {x : Surroundings} {v : View} {key : String} {before p q : Page}

theorem recorded (h : Alike x v key before p q) (e : Event) :
    Alike x v key before (p.record e) (q.record e) :=
  ⟨congrArg (record · e) h.left, congrArg (record · e) h.right, ⟨h.agree.1, h.agree.2, h.agree.3⟩,
    ⟨h.apart.1, h.apart.2⟩⟩

/-- Both stores may be changed at the entry. -/
theorem stored (h : Alike x v key before p q) {s t : Store}
    (hown : t.get? key = s.get? key) (hleft : ∀ k, k ≠ key → s.get? k = p.store.get? k)
    (hright : ∀ k, k ≠ key → t.get? k = q.store.get? k) (hkey : ∀ id, Notes.key id ≠ key) :
    Alike x v key before { p with store := s } { q with store := t } where
  left := congrArg (fun r : Page => { r with store := s }) h.left
  right := congrArg (fun r : Page => { r with store := t }) h.right
  agree := {
    answers := h.agree.answers
    own := hown
    notes := fun id => by rw [hright _ (hkey id), hleft _ (hkey id), h.agree.notes] }
  apart := {
    answers := h.apart.answers
    store := fun k hk => by rw [hleft k hk, h.apart.store k hk] }

theorem count? (h : Alike x v key before p q) (target : Target) :
    q.count? target = p.count? target := by
  rw [h.left, h.right]
  rfl

/-! ### What can be done with a page -/

theorem get? (k : String) (hk : k = key ∨ ∃ id, k = Notes.key id) :
    Pairs (Alike x v key before) (Host.get? PageAccess.only k) := by
  intro p q h
  refine ⟨?_, h⟩
  obtain rfl | ⟨id, rfl⟩ := hk
  · exact h.agree.own
  · exact h.agree.notes id

theorem set (hkey : ∀ id, Notes.key id ≠ key) (value : String) :
    Pairs (Alike x v key before) (Host.set PageAccess.only key value) := by
  intro p q h
  show (q.write key value).1 = (p.write key value).1 ∧
    Alike x v key before (p.write key value).2 (q.write key value).2
  have hp : p.isStoreFull = x.isStoreFull := congrArg Page.isStoreFull h.left
  have hq : q.isStoreFull = x.isStoreFull := congrArg Page.isStoreFull h.right
  by_cases hfull : x.isStoreFull = true
  · rw [write, write, if_pos (hp.trans hfull), if_pos (hq.trans hfull)]
    exact ⟨rfl, h⟩
  · have hproom : ¬ p.isStoreFull = true := by rwa [hp]
    have hqroom : ¬ q.isStoreFull = true := by rwa [hq]
    rw [write, write, if_neg hproom, if_neg hqroom]
    refine ⟨rfl, h.stored (s := p.store.put key value) (t := q.store.put key value) ?_ ?_ ?_ hkey⟩
    · simp
    · exact fun k hk => by simp [hk]
    · exact fun k hk => by simp [hk]

theorem remove (hkey : ∀ id, Notes.key id ≠ key) :
    Pairs (Alike x v key before) (Host.remove PageAccess.only key) := by
  intro p q h
  refine ⟨rfl, h.stored (s := p.store.erase key) (t := q.store.erase key) ?_ ?_ ?_ hkey⟩
  · simp
  · exact fun k hk => by simp [hk]
  · exact fun k hk => by simp [hk]

theorem anchorPresent (target : Target) :
    Pairs (Alike x v key before) (Host.anchorPresent PageAccess.only target) :=
  fun _ _ h => ⟨congrArg Option.isSome (h.count? target), h⟩

theorem apply (u : Update) : Pairs (Alike x v key before) (Host.apply PageAccess.only u) := by
  intro p q h
  show (q.applyUpdate u).1 = (p.applyUpdate u).1 ∧
    Alike x v key before (p.applyUpdate u).2 (q.applyUpdate u).2
  have hp : p.failing = x.failing := congrArg Page.failing h.left
  have hq : q.failing = x.failing := congrArg Page.failing h.right
  unfold applyUpdate
  rw [hp, hq, h.count?]
  split
  · exact ⟨rfl, h⟩
  · split
    · exact ⟨rfl, h⟩
    · exact ⟨rfl, h.recorded _⟩

theorem submitForm (form : String) :
    Pairs (Alike x v key before) (Host.submitForm PageAccess.only form) := by
  intro p q h
  have hp : p.forms = x.forms := congrArg Page.forms h.left
  have hq : q.forms = x.forms := congrArg Page.forms h.right
  have hrun (r : Page) : (Host.submitForm PageAccess.only form).run r =
    if r.forms.contains form then (true, r.record (.submitted form)) else (false, r) := rfl
  rw [hrun, hrun, hp, hq]
  split
  · exact ⟨rfl, h.recorded _⟩
  · exact ⟨rfl, h⟩

theorem cacheBuster : Pairs (Alike x v key before) (Host.cacheBuster PageAccess.only) := by
  intro p q h
  have hp : p.cacheBuster = x.cacheBuster := congrArg Page.cacheBuster h.left
  have hq : q.cacheBuster = x.cacheBuster := congrArg Page.cacheBuster h.right
  exact ⟨hq.trans hp.symm, h⟩

theorem log (entry : LogEntry) : Pairs (Alike x v key before) (Host.log PageAccess.only entry) :=
  fun _ _ h => ⟨rfl, h.recorded _⟩

theorem takeAnswer (h : Alike x v key before p q) :
    (q.takeAnswer v).1 = (p.takeAnswer v).1 ∧
      Alike x v key before (p.takeAnswer v).2 (q.takeAnswer v).2 := by
  unfold Page.takeAnswer
  rw [h.agree.answers]
  split
  · exact ⟨rfl, h⟩
  · exact ⟨rfl, h⟩
  · rename_i next later _ _
    refine ⟨rfl, congrArg (setAnswers · v later) h.left, congrArg (setAnswers · v later) h.right,
      ⟨?_, h.agree.own, h.agree.notes⟩, ⟨fun w hw => ?_, h.apart.store⟩⟩
    · rw [answersFor_setAnswers_self, answersFor_setAnswers_self]
    · rw [answersFor_setAnswers p hw, h.apart.answers w hw]

theorem fetch {request : Request} (hview : request.view = v) :
    Pairs (Alike x v key before) (Host.fetch PageAccess.only request) := by
  subst hview
  intro p q h
  obtain ⟨hvalue, hafter⟩ := (h.recorded (.requested request)).takeAnswer
  exact ⟨congrArg (fun next : Prepared =>
    if next.isHeld then Reply.held request.view.name next.result else .ready next.result) hvalue,
    hafter⟩

end Alike

end Page

/-! ### Under watch -/

/-- Two pages under watch are related, and the same calls were made. -/
def Watched.Related (R : σ → σ → Prop) (w w' : Watched σ) : Prop :=
  R w.world w'.world ∧ w'.calls = w.calls

namespace Pairs

variable {R : σ → σ → Prop} {m : StateM σ α}

theorem quiet (hm : Pairs R m) : Pairs (Watched.Related R) (Watched.quiet m) := by
  intro w w' h
  obtain ⟨hvalue, hafter⟩ := hm _ _ h.1
  exact ⟨hvalue, hafter, h.2⟩

theorem noted (hm : Pairs R m) (call : α → Call) :
    Pairs (Watched.Related R) (Watched.noted m call) := by
  intro w w' h
  obtain ⟨hvalue, hafter⟩ := hm _ _ h.1
  refine ⟨hvalue, hafter, ?_⟩
  show w'.calls ++ [call (m.run w'.world).1] = w.calls ++ [call (m.run w.world).1]
  rw [hvalue, h.2]

end Pairs

/-- Two pages under watch look alike to the binder of a view of a session. -/
abbrev Watched.Alike (x : Surroundings) (session : SessionId) (v : View)
    (before : Page) : Watched Page → Watched Page → Prop :=
  Related (Page.Alike x v (v.cacheKey session.text) before)

section

variable {x : Surroundings} {session : SessionId} {v : View} {before : Page}

theorem pairs_say (access : Watcher PageAccess) (level : LogLevel) (component : Component)
    (message : String) :
    Pairs (Watched.Alike x session v before) (say access level component message) :=
  (Page.Alike.log _).quiet

theorem pairs_forIds (access : Watcher PageAccess) (ids : List String) :
    Pairs (Watched.Alike x session v before) (Notes.forIds access ids) := by
  induction ids with
  | nil => exact .pure _
  | cons id ids ih =>
    exact ((Page.Alike.get? _ (.inr ⟨id, rfl⟩)).noted _).bind fun _ => ih.bind fun _ => .pure _

theorem pairs_applyAll (access : Watcher PageAccess) (us : List Update) (count : Nat) :
    Pairs (Watched.Alike x session v before) (applyAll access count us) := by
  induction us generalizing count with
  | nil => exact .pure _
  | cons u us ih =>
    refine ((Page.Alike.apply u).noted _).bind fun result => ?_
    cases result with
    | ok n => exact ih (count + n)
    | error p => exact .pure _

theorem pairs_contains (access : Watcher PageAccess) :
    Pairs (Watched.Alike x session v before) (Cache.contains access session v) :=
  ((Page.Alike.get? _ (.inl rfl)).noted _).bind fun _ => .pure _

variable (hkey : ∀ id, Notes.key id ≠ v.cacheKey session.text)
include hkey

theorem pairs_load (access : Watcher PageAccess) :
    Pairs (Watched.Alike x session v before) (Cache.load access session v) := by
  have hdrop (message : String) : Pairs (Watched.Alike x session v before)
      (Cache.drop access (v.cacheKey session.text) message) :=
    (pairs_say _ _ _ _).bind fun _ => ((Page.Alike.remove hkey).noted _).bind fun _ => .pure _
  unfold Cache.load
  refine ((Page.Alike.get? _ (.inl rfl)).noted _).bind fun found => ?_
  cases found with
  | none => exact .pure _
  | some raw =>
    dsimp only
    cases Snapshot.ofStored raw with
    | error e => exact hdrop _
    | ok s =>
      dsimp only
      split
      · exact .pure _
      · exact hdrop _

theorem pairs_keep (access : Watcher PageAccess) (s : Snapshot) :
    Pairs (Watched.Alike x session v before) (Cache.keep access session v s) := by
  unfold Cache.keep
  split
  · refine ((Page.Alike.set hkey _).noted _).bind fun result => ?_
    cases result with
    | ok _ => exact (pairs_say _ _ _ _).bind fun _ => .pure _
    | error p => exact .pure _
  · exact .pure _

end

namespace Binder

variable {x : Surroundings} {before : Page} (b : Binder (Watcher PageAccess))

theorem pairs_paint (s : Snapshot) :
    Pairs (Watched.Alike x b.session b.view before) (b.paint s) :=
  (pairs_forIds _ _).bind fun _ => Page.Alike.cacheBuster.quiet.bind fun _ => pairs_applyAll _ _ 0

theorem pairs_tell (level : LogLevel) (message : String) :
    Pairs (Watched.Alike x b.session b.view before) (b.tell level message) :=
  pairs_say _ _ _ _

theorem pairs_fireTransition :
    Pairs (Watched.Alike x b.session b.view before) b.fireTransition := by
  unfold fireTransition
  cases b.view.transitionForm? with
  | none => exact .pure _
  | some form =>
    dsimp only
    split
    · exact .pure _
    · refine ((Page.Alike.submitForm form).noted _).bind fun present => ?_
      split
      · exact (b.pairs_tell _ _).bind fun _ => .pure _
      · exact (b.pairs_tell _ _).bind fun _ => .pure _

theorem pairs_conclude (s : Snapshot) (changed : Bool) :
    Pairs (Watched.Alike x b.session b.view before) (b.conclude s changed) := by
  unfold conclude
  dsimp only
  split
  · exact (pairs_fireTransition { b with lastRendered := some s }).bind fun _ => .pure _
  · rw [pure_bind]
    exact .pure _

variable {b} (hkey : ∀ id, Notes.key id ≠ b.cacheKey)
include hkey

theorem pairs_hydrate : Pairs (Watched.Alike x b.session b.view before) b.hydrate := by
  unfold hydrate
  split
  · refine (Page.Alike.anchorPresent _).quiet.bind fun present => ?_
    split
    · refine (pairs_load hkey _).bind fun found => ?_
      cases found with
      | none => exact .pure _
      | some cached =>
        refine (b.pairs_paint cached).bind fun result => ?_
        cases result with
        | ok count => exact (b.pairs_tell _ _).bind fun _ => .pure _
        | error p => exact (b.pairs_tell _ _).bind fun _ => .pure _
    · exact .pure _
  · exact .pure _

theorem pairs_begin (page : Option PageNumber) :
    Pairs (Watched.Alike x b.session b.view before) (b.begin page) := by
  have hask (b' : Binder (Watcher PageAccess)) (hview : b'.view = b.view) :
      Pairs (Watched.Alike x b.session b.view before)
        (do
          let reply ← Host.fetch b'.access ({ b' with anchorSeen := true }.request page)
          return ({ b' with anchorSeen := true }, Begun.asked reply)) :=
    ((Page.Alike.fetch hview).noted _).bind fun _ => .pure _
  unfold begin
  refine (Page.Alike.anchorPresent _).quiet.bind fun present => ?_
  split
  · split
    · exact (pairs_hydrate hkey).after b.hydrate_yields fun x hx => hask x.1 hx.1.view
    · rw [pure_bind]
      exact hask b rfl
  · exact (b.pairs_tell _ _).bind fun _ => .pure _

theorem pairs_keepPainted (s : Snapshot) :
    Pairs (Watched.Alike x b.session b.view before) (b.keepPainted s) := by
  unfold keepPainted
  refine (pairs_keep hkey _ s).bind fun result => ?_
  cases result with
  | ok _ => exact .pure _
  | error p => exact b.pairs_tell _ _

theorem pairs_accept (s : Snapshot) :
    Pairs (Watched.Alike x b.session b.view before) (b.accept s) := by
  unfold accept
  extract_lets rest'
  have hrest (isKept : Bool) : Pairs (Watched.Alike x b.session b.view before) (rest' isKept) := by
    dsimp only [rest']
    split
    · exact b.pairs_conclude s false
    · refine (b.pairs_paint s).bind fun result => ?_
      cases result with
      | error p => exact (b.pairs_tell _ _).bind fun _ => .pure _
      | ok count =>
        exact (b.pairs_tell _ _).bind fun _ => (pairs_keepPainted hkey s).bind fun _ =>
          b.pairs_conclude s true
  split
  · exact (pairs_contains _).bind fun isKept => hrest isKept
  · rw [pure_bind]
    exact hrest false

theorem pairs_finish (answer : Fallible (Option Snapshot)) :
    Pairs (Watched.Alike x b.session b.view before) (b.finish answer) := by
  unfold finish
  split
  · exact (b.pairs_tell _ _).bind fun _ => .pure _
  · exact .pure _
  · split
    · exact pairs_accept hkey _
    · exact (b.pairs_tell _ _).bind fun _ => .pure _

end Binder

end WalletPage
