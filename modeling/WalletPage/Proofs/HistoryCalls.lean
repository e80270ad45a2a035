import WalletPage.Proofs.BinderRuns
import WalletPage.Proofs.CacheKeys
import WalletPage.Proofs.Watched

/-! The calls of the transaction history in a record. A call fits what came before it if it
asks for the page that is selected, or shows or keeps the answer to the latest request, and
that request asked for the page that is selected. -/

namespace WalletPage

variable {ρ σ : Type}

/-- A request with what the server replied. -/
abbrev Inquiry := Request × Reply (Fallible (Option Snapshot))

/-- A call that asks for the history. -/
def Call.inquiry? : Call → Option Inquiry
  | .asked q reply => if q.view = .txHistory then some (q, reply) else none
  | _ => none

/-- The latest request for the history. -/
def latest (calls : List Call) : Option Inquiry :=
  (calls.filterMap Call.inquiry?).getLast?

theorem latest_append (past new : List Call) :
    latest (past ++ new) = (latest new).or (latest past) := by
  rw [latest, List.filterMap_append, List.getLast?_append]
  rfl

theorem latest_of_forall_none {calls : List Call} (h : ∀ c ∈ calls, c.inquiry? = none) :
    latest calls = none := by
  rw [latest, List.filterMap_eq_nil_iff.mpr h]
  rfl

theorem latest_append_of_none (past : List Call) {new : List Call}
    (h : ∀ c ∈ new, c.inquiry? = none) : latest (past ++ new) = latest past := by
  rw [latest_append, latest_of_forall_none h, Option.none_or]

theorem latest_asked (past : List Call) {q : Request} (hq : q.view = .txHistory)
    (reply : Reply (Fallible (Option Snapshot))) :
    latest (past ++ [.asked q reply]) = some (q, reply) := by
  rw [latest_append]
  simp [latest, Call.inquiry?, hq]

/-- Whether the latest request asked for a page and got an answer. -/
def Awaited (page : Option PageNumber) (calls : List Call)
    (answer : Fallible (Option Snapshot)) : Prop :=
  ∃ inquiry, latest calls = some inquiry ∧ inquiry.1.page = page ∧ inquiry.2.answer = answer

/-- Whether a call may come after the calls `before ++ past` of a session while a page is
selected. An answer to a request in `before` must not be shown or kept any more. -/
def Call.Fits (session : SessionId) (page : Option PageNumber) (before past : List Call) :
    Call → Prop
  | .asked q _ => q.view = .txHistory → q.page = page
  | .applied u _ => u.target ∈ Page.elementsOf .txHistory → latest (before ++ past) = none ∨
      ∃ s ctx, Awaited page past (.ok (some s)) ∧ s.matchesView .txHistory = true ∧
        u ∈ s.updates .txHistory ctx
  | .wrote key value _ => key = View.txHistory.cacheKey session.text →
      ∃ s, Awaited page past (.ok (some s)) ∧ s.matchesView .txHistory = true ∧ value = s.stored
  | _ => True

/-- Whether each of some calls is in a relation to those before it. -/
def Follows (P : List Call → Call → Prop) : List Call → List Call → Prop
  | _, [] => True
  | past, call :: rest => P past call ∧ Follows P (past ++ [call]) rest

theorem Follows.append {P : List Call → Call → Prop} {past new more : List Call}
    (h : Follows P past new) (k : Follows P (past ++ new) more) : Follows P past (new ++ more) := by
  induction new generalizing past with
  | nil => simpa using k
  | cons call rest ih =>
    refine ⟨h.1, ih h.2 ?_⟩
    rwa [List.append_assoc]

theorem Follows.mono {P Q : List Call → Call → Prop} (hPQ : ∀ past c, P past c → Q past c)
    {past new : List Call} (h : Follows P past new) : Follows Q past new := by
  induction new generalizing past with
  | nil => trivial
  | cons call rest ih => exact ⟨hPQ past call h.1, ih h.2⟩

variable {session : SessionId} {page : Option PageNumber} {before past new : List Call}

/-- Calls that ask for nothing may come together if each may come alone. -/
theorem follows_of_forall (hno : ∀ c ∈ new, c.inquiry? = none)
    (h : ∀ past', latest past' = latest past → latest (before ++ past') = latest (before ++ past) →
      ∀ c ∈ new, c.Fits session page before past') :
    Follows (Call.Fits session page before) past new := by
  induction new generalizing past with
  | nil => trivial
  | cons call rest ih =>
    rw [List.forall_mem_cons] at hno
    have hone : ∀ c ∈ [call], c.inquiry? = none := fun c hc => List.mem_singleton.mp hc ▸ hno.1
    have hsame := latest_append_of_none past hone
    have hbefore := latest_append_of_none (before ++ past) hone
    rw [List.append_assoc] at hbefore
    refine ⟨h past rfl rfl call List.mem_cons_self, ih hno.2 fun past' hpast' hbefore' c hc => ?_⟩
    exact h past' (hpast'.trans hsame) (hbefore'.trans hbefore) c (List.mem_cons_of_mem _ hc)

theorem Awaited.congr {past' : List Call} {answer : Fallible (Option Snapshot)}
    (h : Awaited page past answer) (hsame : latest past' = latest past) :
    Awaited page past' answer := by
  unfold Awaited
  rwa [hsame]

/-! ### The calls of a binder -/

theorem Page.not_mem_elementsOf {v w : View} (h : v ≠ w) {t : Target} (ht : t ∈ elementsOf v) :
    t ∉ elementsOf w := by
  revert t h
  cases v <;> cases w <;> decide

namespace Binder

variable {b b' : Binder ρ} {first : List Call} {answer : Fallible (Option Snapshot)} {c : Call}

theorem Recalls.inquiry? (h : b.Recalls first c) : c.inquiry? = none := by
  cases h <;> rfl

theorem Uses.inquiry? (h : b.Uses answer new c) : c.inquiry? = none := by
  cases h <;> rfl

theorem Recalls.fits (h : b.Recalls first c)
    (hview : b.view = .txHistory → latest (before ++ past) = none) :
    c.Fits session page before past := by
  cases h with
  | read => trivial
  | drop => trivial
  | paint hread hs hu =>
    intro htarget
    by_cases hv : b.view = .txHistory
    · exact .inl (hview hv)
    · exact absurd htarget (Page.not_mem_elementsOf hv (Snapshot.target_mem_elementsOf hs.2 _ hu))

theorem Uses.fits (h : b.Uses answer new c) (hsession : b.session = session)
    (hview : b.view = .txHistory → Awaited page past answer) :
    c.Fits session page before past := by
  cases h with
  | read => trivial
  | submit => trivial
  | @paint s ctx u result hanswer hs _ hu =>
    intro htarget
    by_cases hv : b.view = .txHistory
    · rw [hv] at hs hu
      exact .inr ⟨s, ctx, hanswer ▸ hview hv, hs, hu⟩
    · exact absurd htarget (Page.not_mem_elementsOf hv (Snapshot.target_mem_elementsOf hs _ hu))
  | @keep s result hanswer hs =>
    intro hkey
    by_cases hv : b.view = .txHistory
    · rw [hv] at hs
      exact ⟨s, hanswer ▸ hview hv, hs, rfl⟩
    · rw [← hsession] at hkey
      exact absurd (View.cacheKey_injective hkey).2 hv

/-- The answer to the latest request may be used, if the page is still the same. -/
theorem follows_uses (h : ∀ c ∈ new, b.Uses answer new c) (hsession : b.session = session)
    (hview : b.view = .txHistory → Awaited page past answer) :
    Follows (Call.Fits session page before) past new :=
  follows_of_forall (fun c hc => (h c hc).inquiry?) fun _ hsame _ c hc =>
    (h c hc).fits hsession fun hv => (hview hv).congr hsame

/-- The first half of a cycle may be run at any time by a binder that knows whether its
view was asked for. -/
theorem Opens.follows (h : b.Opens b' first)
    (hseen : b.view = .txHistory → (latest (before ++ past)).isSome → b.anchorSeen = true)
    (reply : Reply (Fallible (Option Snapshot))) :
    Follows (Call.Fits session page before) past (first ++ [.asked (b.request page) reply]) := by
  have hfirst : Follows (Call.Fits session page before) past first := by
    refine follows_of_forall (fun c hc => (h.calls c hc).inquiry?) fun past' _ hsame c hc => ?_
    refine (h.calls c hc).fits fun hv => ?_
    rw [hsame]
    cases hlatest : latest (before ++ past) with
    | none => rfl
    | some inquiry =>
      have hnil := h.known (.inl (hseen hv (by rw [hlatest]; rfl)))
      rw [hnil] at hc
      exact absurd hc List.not_mem_nil
  refine hfirst.append ⟨fun hq => ?_, trivial⟩
  have hv : b.view = .txHistory := hq
  simp [request, hv, View.isPaged]

/-- After the request the answer is awaited. -/
theorem awaited_request (hv : b.view = .txHistory) (past first : List Call)
    (reply : Reply (Fallible (Option Snapshot))) :
    Awaited page (past ++ (first ++ [.asked (b.request page) reply])) reply.answer := by
  refine ⟨(b.request page, reply), ?_, ?_, rfl⟩
  · rw [← List.append_assoc]
    exact latest_asked _ hv reply
  · simp [request, hv, View.isPaged]

theorem Opens.latest_append (h : b.Opens b' first) (hv : b.view ≠ .txHistory) (past : List Call)
    (reply : Reply (Fallible (Option Snapshot))) :
    latest (past ++ (first ++ [.asked (b.request page) reply])) = latest past := by
  refine latest_append_of_none past fun c hc => ?_
  rcases List.mem_append.mp hc with hc | hc
  · exact (h.calls c hc).inquiry?
  · rw [List.mem_singleton.mp hc]
    exact if_neg hv

end Binder

/-- Calls that neither ask, nor show or keep a snapshot. -/
def Call.IsPlain : Call → Prop
  | .asked _ _ => False
  | .applied _ _ => False
  | .wrote _ _ _ => False
  | _ => True

theorem Call.IsPlain.inquiry? {c : Call} (h : c.IsPlain) : c.inquiry? = none := by
  cases c <;> first | rfl | exact h.elim

theorem follows_plain (h : ∀ c ∈ new, c.IsPlain) :
    Follows (Call.Fits session page before) past new := by
  refine follows_of_forall (fun c hc => (h c hc).inquiry?) fun _ _ _ c hc => ?_
  have hplain := h c hc
  cases c <;> trivial

end WalletPage
