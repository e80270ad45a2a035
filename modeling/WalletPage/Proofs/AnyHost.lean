import WalletPage.Binder.Cycle

/-! What a cycle makes of its binder on any host. The view, the session and the access
stay; the first half at most marks the anchor as seen and recalls a snapshot, and the
second half never takes the mark away. -/

namespace WalletPage

variable {ρ σ : Type} [Host ρ σ]

/-- Whether an action gives only results of a kind, on every page. -/
def Yields {α : Type} (m : StateM σ α) (P : α → Prop) : Prop :=
  ∀ w, P (m.run w).1

namespace Yields

omit [Host ρ σ] in
theorem bind {α β : Type} {m : StateM σ α} {f : α → StateM σ β} {P : α → Prop} {Q : β → Prop}
    (hm : Yields m P) (hf : ∀ a, P a → Yields (f a) Q) : Yields (m >>= f) Q :=
  fun w => hf _ (hm w) (m.run w).2

theorem pure {α : Type} {a : α} {P : α → Prop} (h : P a) : Yields (Pure.pure a : StateM σ α) P :=
  fun _ => h

theorem any {α : Type} (m : StateM σ α) : Yields m fun _ => True :=
  fun _ => trivial

end Yields

namespace Binder

/-- Whether two binders differ in nothing but what they remember. -/
structure Kin (b b' : Binder ρ) : Prop where
  view : b'.view = b.view
  session : b'.session = b.session
  baseUrl : b'.baseUrl = b.baseUrl
  access : b'.access = b.access

theorem Kin.refl (b : Binder ρ) : b.Kin b := ⟨rfl, rfl, rfl, rfl⟩

theorem Kin.trans {b b' b'' : Binder ρ} (h : b.Kin b') (k : b'.Kin b'') : b.Kin b'' :=
  ⟨k.view.trans h.view, k.session.trans h.session, k.baseUrl.trans h.baseUrl,
    k.access.trans h.access⟩

/-- Whether a binder has changed as in the first half of a cycle: its mark apart, only what
it shows, and that only if it was new. -/
structure Opened (b b' : Binder ρ) : Prop where
  kin : b.Kin b'
  transitioned : b'.transitioned = b.transitioned
  lastRendered : b'.lastRendered = b.lastRendered ∨ b.anchorSeen = false ∧ b.lastRendered = none

theorem hydrate_yields (b : Binder ρ) : Yields (σ := σ) b.hydrate fun x =>
    b.Kin x.1 ∧ x.1.transitioned = b.transitioned := by
  have hkin : b.Kin b ∧ b.transitioned = b.transitioned := ⟨.refl b, rfl⟩
  unfold hydrate
  split
  · refine (Yields.any _).bind fun present _ => ?_
    split
    · refine (Yields.any _).bind fun found _ => ?_
      cases found with
      | none => exact .pure hkin
      | some cached =>
        refine (Yields.any _).bind fun result _ => ?_
        cases result with
        | ok count => exact (Yields.any _).bind fun _ _ => .pure ⟨⟨rfl, rfl, rfl, rfl⟩, rfl⟩
        | error p => exact (Yields.any _).bind fun _ _ => .pure hkin
    · exact .pure hkin
  · exact .pure hkin

theorem begin_yields (b : Binder ρ) (page : Option PageNumber) :
    Yields (σ := σ) (b.begin page) fun x => b.Opened x.1 ∧
      match x.2 with
      | .ended outcome => x.1 = b ∧ outcome = .anchorAbsent
      | .asked _ => x.1.anchorSeen = true := by
  have hopened : b.Opened { b with anchorSeen := true } := ⟨⟨rfl, rfl, rfl, rfl⟩, rfl, .inl rfl⟩
  unfold begin
  refine (Yields.any _).bind fun present _ => ?_
  split
  · split
    · rename_i hnew
      rw [Bool.and_eq_true, Bool.not_eq_true', Option.isNone_iff_eq_none] at hnew
      refine b.hydrate_yields.bind fun x hx => ?_
      refine (Yields.any _).bind fun reply _ => .pure ⟨⟨?_, hx.2, .inr hnew⟩, rfl⟩
      exact ⟨hx.1.view, hx.1.session, hx.1.baseUrl, hx.1.access⟩
    · rw [pure_bind]
      exact (Yields.any _).bind fun reply _ => .pure ⟨hopened, rfl⟩
  · exact (Yields.any _).bind fun _ _ =>
      .pure ⟨⟨.refl b, rfl, .inl rfl⟩, rfl, rfl⟩

theorem fireTransition_yields (b : Binder ρ) : Yields (σ := σ) b.fireTransition fun x =>
    b.Kin x.1 ∧ x.1.anchorSeen = b.anchorSeen := by
  unfold fireTransition
  cases b.view.transitionForm? with
  | none => exact .pure ⟨.refl b, rfl⟩
  | some form =>
    dsimp only
    split
    · exact .pure ⟨.refl b, rfl⟩
    · refine (Yields.any _).bind fun present _ => ?_
      split <;> exact (Yields.any _).bind fun _ _ => .pure ⟨⟨rfl, rfl, rfl, rfl⟩, rfl⟩

theorem conclude_yields (b : Binder ρ) (s : Snapshot) (changed : Bool) :
    Yields (σ := σ) (b.conclude s changed) fun x =>
      b.Kin x.1 ∧ x.1.anchorSeen = b.anchorSeen := by
  unfold conclude
  dsimp only
  split
  · refine (fireTransition_yields _).bind fun x hx => .pure ⟨?_, hx.2⟩
    exact ⟨hx.1.view, hx.1.session, hx.1.baseUrl, hx.1.access⟩
  · rw [pure_bind]
    exact .pure ⟨⟨rfl, rfl, rfl, rfl⟩, rfl⟩

theorem accept_yields (b : Binder ρ) (s : Snapshot) : Yields (σ := σ) (b.accept s) fun x =>
    b.Kin x.1 ∧ x.1.anchorSeen = b.anchorSeen := by
  unfold accept
  extract_lets rest
  have hrest (isKept : Bool) : Yields (σ := σ) (rest isKept) fun x =>
      b.Kin x.1 ∧ x.1.anchorSeen = b.anchorSeen := by
    dsimp only [rest]
    split
    · exact b.conclude_yields s false
    · refine (Yields.any _).bind fun result _ => ?_
      cases result with
      | error p => exact (Yields.any _).bind fun _ _ => .pure ⟨.refl b, rfl⟩
      | ok count =>
        refine (Yields.any _).bind fun _ _ => (Yields.any _).bind fun _ _ => ?_
        exact b.conclude_yields s true
  split
  · exact (Yields.any _).bind fun isKept _ => hrest isKept
  · rw [pure_bind]
    exact hrest false

theorem finish_yields (b : Binder ρ) (answer : Fallible (Option Snapshot)) :
    Yields (σ := σ) (b.finish answer) fun x => b.Kin x.1 ∧ x.1.anchorSeen = b.anchorSeen := by
  have hsame : b.Kin b ∧ b.anchorSeen = b.anchorSeen := ⟨.refl b, rfl⟩
  unfold finish
  split
  · exact (Yields.any _).bind fun _ _ => .pure hsame
  · exact .pure hsame
  · rename_i s
    split
    · exact accept_yields b s
    · exact (Yields.any _).bind fun _ _ => .pure hsame

end Binder

end WalletPage
