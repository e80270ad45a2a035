import WalletPage.Proofs.Watched

/-! Watching a page does not change what a binder does on it. An action on a page under
watch mirrors one on the page itself: the same results, and the same page afterwards. -/

namespace WalletPage

variable {ρ σ : Type}

/-- The same binder on the page itself. -/
def Binder.unwatched (b : Binder (Watcher ρ)) : Binder ρ where
  view := b.view
  session := b.session
  baseUrl := b.baseUrl
  access := b.access.access
  lastRendered := b.lastRendered
  anchorSeen := b.anchorSeen
  transitioned := b.transitioned

namespace Binder

variable (b : Binder (Watcher ρ))

@[simp] theorem unwatched_view : b.unwatched.view = b.view := rfl

@[simp] theorem unwatched_access : b.unwatched.access = b.access.access := rfl

@[simp] theorem unwatched_lastRendered : b.unwatched.lastRendered = b.lastRendered := rfl

@[simp] theorem unwatched_anchorSeen : b.unwatched.anchorSeen = b.anchorSeen := rfl

@[simp] theorem unwatched_transitioned : b.unwatched.transitioned = b.transitioned := rfl

end Binder

/-- A binder and what came of it, on the page itself. -/
def unwatchedWith {α : Type} (x : Binder (Watcher ρ) × α) : Binder ρ × α :=
  (x.1.unwatched, x.2)

/-- Whether an action on a page under watch does what another one does on the page. -/
def Mirrors {α β : Type} (f : α → β) (m : StateM (Watched σ) α) (n : StateM σ β) : Prop :=
  ∀ w, n.run w.world = (f (m.run w).1, (m.run w).2.world)

namespace Mirrors

variable {α β γ δ : Type} {f : α → β} {g : γ → δ}

theorem pure {a : α} {b : β} (h : f a = b) :
    Mirrors (σ := σ) f (Pure.pure a) (Pure.pure b) := by
  intro w
  rw [← h]
  rfl

theorem bind {m : StateM (Watched σ) α} {n : StateM σ β} {F : α → StateM (Watched σ) γ}
    {G : β → StateM σ δ} (hm : Mirrors f m n) (hF : ∀ a, Mirrors g (F a) (G (f a))) :
    Mirrors g (m >>= F) (n >>= G) := by
  intro w
  show (G (n.run w.world).1).run (n.run w.world).2 = _
  rw [hm w]
  exact hF (m.run w).1 (m.run w).2

/-- An action with the same result, and what comes after it. -/
theorem next {m : StateM (Watched σ) α} {n : StateM σ α} {F : α → StateM (Watched σ) γ}
    {G : α → StateM σ δ} (hm : Mirrors id m n) (hF : ∀ a, Mirrors g (F a) (G a)) :
    Mirrors g (m >>= F) (n >>= G) :=
  hm.bind hF

theorem quiet (m : StateM σ α) : Mirrors id (Watched.quiet m) m :=
  fun _ => rfl

theorem noted (m : StateM σ α) (call : α → Call) : Mirrors id (Watched.noted m call) m :=
  fun _ => rfl

end Mirrors

variable [Host ρ σ]

theorem say_mirrors (x : Watcher ρ) (level : LogLevel) (component : Component)
    (message : String) :
    Mirrors (σ := σ) id (say x level component message)
      (say x.access level component message) :=
  .quiet _

/-! ### The store -/

theorem forIds_mirrors (x : Watcher ρ) (ids : List String) :
    Mirrors (σ := σ) id (Notes.forIds x ids) (Notes.forIds x.access ids) := by
  induction ids with
  | nil => exact .pure rfl
  | cons id rest ih => exact (Mirrors.noted _ _).next fun note => ih.next fun notes => .pure rfl

theorem drop_mirrors (x : Watcher ρ) (key message : String) :
    Mirrors (σ := σ) id (Cache.drop x key message) (Cache.drop x.access key message) :=
  (say_mirrors x _ _ _).next fun _ => (Mirrors.noted _ _).next fun _ => .pure rfl

theorem load_mirrors (x : Watcher ρ) (session : SessionId) (v : View) :
    Mirrors (σ := σ) id (Cache.load x session v) (Cache.load x.access session v) := by
  refine (Mirrors.noted _ _).next fun found => ?_
  cases found with
  | none => exact .pure rfl
  | some raw =>
    dsimp only
    cases Snapshot.ofStored raw with
    | error e => exact drop_mirrors x _ _
    | ok s =>
      dsimp only
      split
      · exact .pure rfl
      · exact drop_mirrors x _ _

theorem contains_mirrors (x : Watcher ρ) (session : SessionId) (v : View) :
    Mirrors (σ := σ) id (Cache.contains x session v) (Cache.contains x.access session v) :=
  (Mirrors.noted _ _).next fun _ => .pure rfl

theorem keep_mirrors (x : Watcher ρ) (session : SessionId) (v : View) (s : Snapshot) :
    Mirrors (σ := σ) id (Cache.keep x session v s) (Cache.keep x.access session v s) := by
  unfold Cache.keep
  split
  · refine (Mirrors.noted _ _).next fun result => ?_
    cases result with
    | error p => exact .pure rfl
    | ok _ => exact (say_mirrors x _ _ _).next fun _ => .pure rfl
  · exact .pure rfl

theorem removeAll_mirrors (x : Watcher ρ) (keys : List String) :
    Mirrors (σ := σ) id (Cache.removeAll x keys) (Cache.removeAll x.access keys) := by
  induction keys with
  | nil => exact .pure rfl
  | cons key rest ih => exact (Mirrors.noted _ _).next fun _ => ih

theorem sweep_mirrors (x : Watcher ρ) :
    Mirrors (σ := σ) id (Cache.sweep x) (Cache.sweep x.access) := by
  refine (Mirrors.quiet _).next fun keys => (removeAll_mirrors x _).next fun _ => ?_
  dsimp only
  split
  · exact (say_mirrors x _ _ _).next fun _ => .pure rfl
  · exact .pure rfl

/-! ### The binder -/

namespace Binder

theorem tell_mirrors (b : Binder (Watcher ρ)) (level : LogLevel) (message : String) :
    Mirrors (σ := σ) id (b.tell level message) (b.unwatched.tell level message) :=
  say_mirrors b.access level component message

theorem applyAll_mirrors (x : Watcher ρ) (us : List Update) (count : Nat) :
    Mirrors (σ := σ) id (applyAll x count us) (applyAll x.access count us) := by
  induction us generalizing count with
  | nil => exact .pure rfl
  | cons u rest ih =>
    refine (Mirrors.noted _ _).next fun result => ?_
    cases result with
    | ok n => exact ih (count + n)
    | error p => exact .pure rfl

theorem paint_mirrors (b : Binder (Watcher ρ)) (s : Snapshot) :
    Mirrors (σ := σ) id (b.paint s) (b.unwatched.paint s) :=
  (forIds_mirrors b.access _).next fun _ => (Mirrors.quiet _).next fun _ =>
    applyAll_mirrors b.access _ 0

theorem hydrate_mirrors (b : Binder (Watcher ρ)) :
    Mirrors (σ := σ) unwatchedWith b.hydrate b.unwatched.hydrate := by
  unfold hydrate
  rw [unwatched_view]
  split
  · refine (Mirrors.quiet _).next fun isPresent => ?_
    cases isPresent with
    | false => exact .pure rfl
    | true =>
      refine (load_mirrors b.access b.session b.view).next fun found => ?_
      cases found with
      | none => exact .pure rfl
      | some cached =>
        refine (b.paint_mirrors cached).next fun result => ?_
        cases result with
        | ok count => exact (b.tell_mirrors _ _).next fun _ => .pure rfl
        | error p => exact (b.tell_mirrors _ _).next fun _ => .pure rfl
  · exact .pure rfl

theorem begin_mirrors (b : Binder (Watcher ρ)) (page : Option PageNumber) :
    Mirrors (σ := σ) unwatchedWith (b.begin page) (b.unwatched.begin page) := by
  refine (Mirrors.quiet _).next fun isPresent => ?_
  cases isPresent with
  | false => exact (b.tell_mirrors _ _).next fun _ => .pure rfl
  | true =>
    have hasked (b : Binder (Watcher ρ)) : Mirrors (σ := σ) unwatchedWith
        (Host.fetch b.access (b.request page) >>= fun reply =>
          Pure.pure ({ b with anchorSeen := true }, Begun.asked reply))
        (Host.fetch b.unwatched.access (b.unwatched.request page) >>= fun reply =>
          Pure.pure ({ b.unwatched with anchorSeen := true }, Begun.asked reply)) :=
      (Mirrors.noted _ _).next fun reply => .pure rfl
    simp only [if_true, unwatched_anchorSeen, unwatched_lastRendered]
    by_cases hnew : (!b.anchorSeen && b.lastRendered.isNone) = true
    · simp only [hnew, if_true]
      exact b.hydrate_mirrors.bind fun x => hasked x.1
    · simp only [hnew, pure_bind]
      exact hasked b

theorem fireTransition_mirrors (b : Binder (Watcher ρ)) :
    Mirrors (σ := σ) unwatchedWith b.fireTransition b.unwatched.fireTransition := by
  unfold fireTransition
  rw [unwatched_view, unwatched_transitioned]
  cases b.view.transitionForm? with
  | none => exact .pure rfl
  | some form =>
    dsimp only
    split
    · exact .pure rfl
    · refine (Mirrors.noted _ _).next fun isPresent => ?_
      cases isPresent with
      | true => exact (b.tell_mirrors _ _).next fun _ => .pure rfl
      | false => exact (b.tell_mirrors _ _).next fun _ => .pure rfl

theorem keepPainted_mirrors (b : Binder (Watcher ρ)) (s : Snapshot) :
    Mirrors (σ := σ) id (b.keepPainted s) (b.unwatched.keepPainted s) := by
  refine (keep_mirrors b.access b.session b.view s).next fun result => ?_
  cases result with
  | ok _ => exact .pure rfl
  | error p => exact b.tell_mirrors _ _

theorem conclude_mirrors (b : Binder (Watcher ρ)) (s : Snapshot) (changed : Bool) :
    Mirrors (σ := σ) unwatchedWith (b.conclude s changed) (b.unwatched.conclude s changed) := by
  unfold conclude
  dsimp only
  split
  · exact (fireTransition_mirrors { b with lastRendered := some s }).bind fun x => .pure rfl
  · rw [pure_bind, pure_bind]
    exact .pure rfl

theorem accept_mirrors (b : Binder (Watcher ρ)) (s : Snapshot) :
    Mirrors (σ := σ) unwatchedWith (b.accept s) (b.unwatched.accept s) := by
  unfold accept
  rw [unwatched_lastRendered]
  extract_lets rest rest'
  have hrest (isKept : Bool) : Mirrors unwatchedWith (rest isKept) (rest' isKept) := by
    dsimp only [rest, rest']
    cases isKept with
    | true => exact b.conclude_mirrors s false
    | false =>
      refine (b.paint_mirrors s).next fun result => ?_
      cases result with
      | error p => exact (b.tell_mirrors _ _).next fun _ => .pure rfl
      | ok count =>
        exact (b.tell_mirrors _ _).next fun _ => (b.keepPainted_mirrors s).next fun _ =>
          b.conclude_mirrors s true
  split
  · exact (contains_mirrors b.access b.session b.view).next hrest
  · rw [pure_bind, pure_bind]
    exact hrest false

theorem finish_mirrors (b : Binder (Watcher ρ)) (answer : Fallible (Option Snapshot)) :
    Mirrors (σ := σ) unwatchedWith (b.finish answer) (b.unwatched.finish answer) := by
  unfold finish
  rw [unwatched_view]
  cases answer with
  | error p => exact (b.tell_mirrors _ _).next fun _ => .pure rfl
  | ok found =>
    cases found with
    | none => exact .pure rfl
    | some s =>
      dsimp only
      split
      · exact b.accept_mirrors s
      · exact (b.tell_mirrors _ _).next fun _ => .pure rfl

end Binder

end WalletPage
