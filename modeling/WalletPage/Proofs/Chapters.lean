import WalletPage.Proofs.Occurrences
import WalletPage.Proofs.SelectedPages

/-! Chapters of the calls of a service. An account of the calls tells for each change of the page
whether it was painted from the cache or from an answer of the server, and for each answer that it
is the one to the latest request of its view. A view is painted from the cache only before anything
is known of it. Every move continues the account, whatever others do meanwhile, if they make only
calls of a kind that is set aside. -/

namespace WalletPage

variable {ρ σ : Type}

/-- A stretch of the calls of a service. -/
inductive Chapter where
  /-- Calls that are set aside. -/
  | interlude (calls : List Call)
  /-- An attempt to paint a view from the cache, with the snapshot that was painted to the end. -/
  | recalled (v : View) (calls : List Call) (shown : Option Snapshot)
  | asked (request : Request) (reply : Reply (Fallible (Option Snapshot)))
  /-- What a view makes of an answer. -/
  | used (v : View) (answer : Fallible (Option Snapshot)) (calls : List Call)

/-- Whether a call may be made with an answer for a view: what it changes on the page or in the
store is what the answer says, with notes that were read in some calls. -/
def Call.ComesFrom (v : View) (answer : Fallible (Option Snapshot)) (calls : List Call) :
    Call → Prop
  | .read _ _ => True
  | .applied u _ => ∃ s ctx, answer = .ok (some s) ∧ s.matchesView v = true ∧
      ctx.ReadIn s calls ∧ u ∈ s.updates v ctx
  | .wrote _ value _ => ∃ s, answer = .ok (some s) ∧ s.matchesView v = true ∧ value = s.stored
  | .submitted _ _ => True
  | _ => False

namespace Chapter

/-- The calls of a chapter. -/
def calls : Chapter → List Call
  | interlude calls => calls
  | recalled _ calls _ => calls
  | asked request reply => [.asked request reply]
  | used _ _ calls => calls

/-- The view that a chapter is about. -/
def view? : Chapter → Option View
  | interlude _ => none
  | recalled v _ _ => some v
  | asked request _ => some request.view
  | used v _ _ => some v

/-- Whether a view is painted from the cache to the end in a chapter, or asked for. -/
def Settles (v : View) : Chapter → Prop
  | recalled w _ shown => w = v ∧ shown.isSome = true
  | asked request _ => request.view = v
  | _ => False

/-- `Awaits chapters v answer`: nothing has come after the latest request of a view, which gets
this answer. -/
def Awaits (chapters : List Chapter) (v : View) (answer : Fallible (Option Snapshot)) : Prop :=
  ∃ before request reply after, chapters = before ++ asked request reply :: after ∧
    request.view = v ∧ reply.answer = answer ∧ ∀ d ∈ after, d.view? ≠ some v

/-- Whether a chapter may come after others in the account of a session. Calls with the property
`idle` are set aside. -/
def Fits (idle : Call → Prop) (session : SessionId) (past : List Chapter) : Chapter → Prop
  | interlude calls => ∀ c ∈ calls, idle c
  | recalled v calls shown => v = .txHistory ∧ (∀ d ∈ past, ¬ d.Settles v) ∧
      ∃ found, Recollection session v found calls shown
  | asked request _ => request.session = session
  | used v answer calls => Awaits past v answer ∧ ∀ c ∈ calls, c.ComesFrom v answer calls

end Chapter

/-- An account of the calls of a session, but for those that are idle. -/
inductive Account (idle : Call → Prop) (session : SessionId) : List Chapter → Prop
  | nil : Account idle session []
  | concat {past : List Chapter} {c : Chapter} (h : Account idle session past)
    (hc : c.Fits idle session past) : Account idle session (past ++ [c])

namespace Chapter

variable {chapters more : List Chapter} {v : View} {answer : Fallible (Option Snapshot)}

theorem Settles.view? {d : Chapter} (h : d.Settles v) : d.view? = some v := by
  cases d with
  | recalled => exact congrArg some h.1
  | asked => exact congrArg some h
  | interlude => exact h.elim
  | used => exact h.elim

theorem Awaits.append (h : Awaits chapters v answer) (hmore : ∀ d ∈ more, d.view? ≠ some v) :
    Awaits (chapters ++ more) v answer := by
  obtain ⟨before, request, reply, after, rfl, hview, hanswer, hafter⟩ := h
  exact ⟨before, request, reply, after ++ more, List.append_assoc _ _ _, hview, hanswer,
    List.forall_mem_append.mpr ⟨hafter, hmore⟩⟩

theorem awaits_asked (chapters : List Chapter) (request : Request)
    (reply : Reply (Fallible (Option Snapshot))) :
    Awaits (chapters ++ [asked request reply]) request.view reply.answer :=
  ⟨chapters, request, reply, [], rfl, rfl, rfl, List.forall_mem_nil _⟩

/-- A view that was asked for is settled. -/
theorem Awaits.settles (h : Awaits chapters v answer) : ∃ d ∈ chapters, d.Settles v := by
  obtain ⟨before, request, reply, after, rfl, hview, -⟩ := h
  exact ⟨_, List.mem_append_right _ List.mem_cons_self, hview⟩

end Chapter

namespace Account

variable {idle : Call → Prop} {session : SessionId} {chapters before after : List Chapter}
  {c : Chapter}

/-- Each chapter fits those before it, of which there is an account as well. -/
theorem split (h : Account idle session chapters) (hsplit : chapters = before ++ c :: after) :
    Account idle session before ∧ c.Fits idle session before := by
  induction h generalizing after with
  | nil => simp at hsplit
  | concat hpast hc ih =>
    rcases List.eq_nil_or_concat after with rfl | ⟨init, last, rfl⟩
    · obtain ⟨rfl, hlast⟩ := List.append_inj' hsplit rfl
      obtain rfl := List.singleton_inj.mp hlast
      exact ⟨hpast, hc⟩
    · rw [List.concat_eq_append, ← List.cons_append, ← List.append_assoc] at hsplit
      exact ih (List.append_inj' hsplit rfl).1

theorem fits_of_mem (h : Account idle session chapters) (hc : c ∈ chapters) :
    ∃ before, c.Fits idle session before := by
  obtain ⟨before, after, hsplit⟩ := List.append_of_mem hc
  exact ⟨before, (h.split hsplit).2⟩

end Account

/-! ### Continuations -/

/-- `Continues idle session past calls v seen more`: the chapters `more` continue an account with
those calls. They are about no view but `v`, and settle it only if its anchor was seen. -/
structure Continues (idle : Call → Prop) (session : SessionId) (past : List Chapter)
    (calls : List Call) (v : View) (seen : Bool) (more : List Chapter) : Prop where
  account : Account idle session (past ++ more)
  calls : more.flatMap Chapter.calls = calls
  view : ∀ d ∈ more, ∀ w, d.view? = some w → w = v
  seen : ∀ d ∈ more, d.Settles v → seen = true

namespace Continues

variable {idle : Call → Prop} {session : SessionId} {past more more' : List Chapter}
  {calls calls' : List Call}
  {v : View} {seen : Bool} {c : Chapter}

theorem nil (h : Account idle session past) : Continues idle session past [] v seen [] :=
  ⟨by rwa [List.append_nil], rfl, List.forall_mem_nil _, List.forall_mem_nil _⟩

theorem single (h : Account idle session past) (hc : c.Fits idle session past)
    (hview : ∀ w, c.view? = some w → w = v) (hseen : c.Settles v → seen = true) :
    Continues idle session past c.calls v seen [c] :=
  ⟨h.concat hc, List.append_nil _, List.forall_mem_singleton.mpr hview,
    List.forall_mem_singleton.mpr hseen⟩

theorem trans (h : Continues idle session past calls v seen more)
    (k : Continues idle session (past ++ more) calls' v seen more') :
    Continues idle session past (calls ++ calls') v seen (more ++ more') where
  account := List.append_assoc past more more' ▸ k.account
  calls := by rw [List.flatMap_append, h.calls, k.calls]
  view := List.forall_mem_append.mpr ⟨h.view, k.view⟩
  seen := List.forall_mem_append.mpr ⟨h.seen, k.seen⟩

theorem interlude (h : Account idle session past) (hcalls : ∀ c ∈ calls, idle c) (v : View)
    (seen : Bool) : Continues idle session past calls v seen [.interlude calls] :=
  single (c := .interlude calls) h hcalls (fun _ hw => nomatch hw) False.elim

/-- What was said of other views has not changed. -/
theorem awaits (h : Continues idle session past calls v seen more) {w : View} (hw : w ≠ v)
    {answer : Fallible (Option Snapshot)} (hawaits : Chapter.Awaits past w answer) :
    Chapter.Awaits (past ++ more) w answer :=
  hawaits.append fun d hd hdw => hw (h.view d hd w hdw)

end Continues

namespace Binder

variable {b b' : Binder (Watcher ρ)} {idle : Call → Prop} {session : SessionId}
  {past : List Chapter}
  {calls first : List Call} {answer : Fallible (Option Snapshot)} {shown : Option Snapshot} {w : σ}

theorem Uses.comesFrom {c : Call} (h : b.Uses answer calls c) :
    c.ComesFrom b.view answer calls := by
  cases h with
  | paint hanswer hs hctx hu => exact ⟨_, _, hanswer, hs, hctx, hu⟩
  | keep hanswer hs => exact ⟨_, hanswer, hs, rfl⟩
  | _ => trivial

/-- An answer that was awaited is used. -/
theorem continues_uses (haccount : Account idle session past)
    (h : ∀ c ∈ calls, b.Uses answer calls c)
    (hawaits : Chapter.Awaits past b.view answer) (seen : Bool) :
    ∃ more, Continues idle session past calls b.view seen more :=
  ⟨_, .single (c := .used b.view answer calls) haccount
    ⟨hawaits, fun c hc => (h c hc).comesFrom⟩ (fun _ hw => (Option.some.inj hw).symm) False.elim⟩

variable [Host ρ σ]

/-- A view that is not settled may be painted from the cache. -/
theorem Recollects.continues (h : b.Recollects w calls shown) (haccount : Account idle session past)
    (hsession : b.session = session) (hfresh : ∀ d ∈ past, ¬ d.Settles b.view) {seen : Bool}
    (hseen : shown.isSome = true → seen = true) :
    ∃ more, Continues idle session past calls b.view seen more := by
  cases h with
  | leaves => exact ⟨[], .nil haccount⟩
  | tries hview _ h =>
    have hhistory : b.view = .txHistory := by
      revert hview
      cases b.view <;> decide
    rw [hsession] at h
    exact ⟨_, .single (c := .recalled b.view calls shown) haccount ⟨hhistory, hfresh, _, h⟩
      (fun _ hw => (Option.some.inj hw).symm) fun hv => hseen hv.2⟩

/-- A binder that has not seen its anchor may paint from the cache before it asks. -/
theorem Prepares.continues (h : b.Prepares w first shown) (haccount : Account idle session past)
    (hsession : b.session = session)
    (hfresh : b.anchorSeen = false → ∀ d ∈ past, ¬ d.Settles b.view) (page : Option PageNumber)
    (reply : Reply (Fallible (Option Snapshot))) :
    ∃ more,
      Continues idle session past (first ++ [.asked (b.request page) reply]) b.view true more ∧
      Chapter.Awaits (past ++ more) b.view reply.answer := by
  obtain ⟨recalled, hrecalled⟩ :
      ∃ recalled, Continues idle session past first b.view true recalled := by
    cases h with
    | knows => exact ⟨[], .nil haccount⟩
    | recalls hseen _ h => exact h.continues haccount hsession (hfresh hseen) fun _ => rfl
  have hasked := hrecalled.trans (.single (c := .asked (b.request page) reply) hrecalled.account
    hsession (fun _ hw => (Option.some.inj hw).symm) fun _ => rfl)
  refine ⟨_, hasked, ?_⟩
  rw [← List.append_assoc]
  exact Chapter.awaits_asked _ (b.request page) reply

end Binder

/-- What a cycle that ends in a turn adds to an account. A binder that has not seen its anchor
then is as it was. -/
theorem Run.CycleEnds.continues [Host ρ σ] {r : Run (Watcher ρ) (Watched σ)}
    {x : Shared (Watcher ρ)} {phase : Phase (Fallible (Option Snapshot))} {b : Binder (Watcher ρ)}
    {outcome : Outcome} {w : Watched σ} {idle : Call → Prop} {session : SessionId}
    {past : List Chapter}
    (h : CycleEnds r x phase b outcome w) (haccount : Account idle session past)
    (hsession : x.binder.session = session)
    (hfresh : x.binder.anchorSeen = false → ∀ d ∈ past, ¬ d.Settles x.binder.view)
    (hpending : ∀ answer, phase.answer? = some answer →
      Chapter.Awaits past x.binder.view answer) :
    ∃ new more, w.calls = r.world.calls ++ new ∧
      Continues idle session past new x.binder.view b.anchorSeen more ∧
      (b.anchorSeen = false → b = x.binder) := by
  cases h with
  | absent _ _ hbegin =>
    have hbegun := emits_begin x.binder (r.selected x.selection) r.world
    rw [hbegin] at hbegun
    obtain ⟨new, hcalls, rfl, hb⟩ := hbegun
    exact ⟨[], [], hcalls, .nil haccount, fun _ => hb⟩
  | @ready _ c _ answer _ w₁ _ _ _ hbegin hfinish =>
    obtain ⟨first, shown, hcalls, hc, hprepares⟩ := Binder.asked_prepares hbegin
    obtain ⟨asked, hasked, hawaits⟩ := hprepares.continues haccount hsession hfresh
      (r.selected x.selection) (.ready answer)
    obtain ⟨new, hnew, huses⟩ := emits_finish c answer w₁
    have hseen := (c.finish_yields answer w₁).2
    have hview : c.view = x.binder.view := by rw [hc]; rfl
    have hcseen : c.anchorSeen = true := by rw [hc]
    rw [hfinish] at hnew hseen
    rw [hcseen] at hseen
    rw [← hview] at hasked hawaits ⊢
    obtain ⟨used, hused⟩ := Binder.continues_uses hasked.account huses hawaits true
    refine ⟨_, _, ?_, hseen ▸ hasked.trans hused, fun hfalse => ?_⟩
    · rw [← List.append_assoc, ← hcalls]
      exact hnew
    · exact absurd (hfalse.symm.trans hseen) Bool.false_ne_true
  | @answered answer _ _ _ hfinish =>
    obtain ⟨new, hnew, huses⟩ := emits_finish x.binder answer r.world
    have hseen := (x.binder.finish_yields answer r.world).2
    rw [hfinish] at hnew hseen
    have hawaits := hpending answer rfl
    obtain ⟨used, hused⟩ := Binder.continues_uses haccount huses hawaits _
    refine ⟨new, used, hnew, hused, fun hfalse => ?_⟩
    obtain ⟨d, hd, hsettles⟩ := hawaits.settles
    exact absurd hsettles (hfresh (hseen.symm.trans hfalse) d hd)

/-! ### Runs -/

/-- An account of the calls of a run. -/
structure Run.Accounts (r : Run (Watcher ρ) (Watched σ)) (idle : Call → Prop)
    (session : SessionId) (chapters : List Chapter) : Prop where
  calls : chapters.flatMap Chapter.calls = r.world.calls
  account : Account idle session chapters
  /-- An answer that is still to be looked at answers the latest request of its view. -/
  pending : ∀ t b policy phase answer c,
    r.executor.live? t = some (.poll b policy phase, false) → phase.answer? = some answer →
    r.binder? b = some c → Chapter.Awaits chapters c.view answer
  /-- A view whose binder, if there is one, has not seen its anchor is not settled. -/
  fresh : ∀ v, (∀ b c, r.binder? b = some c → c.view = v → c.anchorSeen = false) →
    ∀ d ∈ chapters, ¬ d.Settles v
  /-- A binder that has not seen its anchor shows nothing. -/
  blank : ∀ b c, r.binder? b = some c → c.anchorSeen = false → c.lastRendered = none

namespace Run

variable {r r' : Run (Watcher ρ) (Watched σ)} {s s' : Service (Watcher ρ)} {turn : Option TaskId}
  {idle : Call → Prop} {session : SessionId} {chapters more : List Chapter} {id : TaskId}
  {b : BinderId} {policy : Policy} {phase : Phase (Fallible (Option Snapshot))}
  {x x' : Shared (Watcher ρ)}

/-- The binder of a view is fresh until it has seen the anchor. -/
theorem Accounts.fresh_of_binder (h : r.InOrder s turn) (hr : r.Accounts idle session chapters)
    (hx : r.binders[b]? = some x) (hseen : x.binder.anchorSeen = false) :
    ∀ d ∈ chapters, ¬ d.Settles x.binder.view :=
  hr.fresh _ fun _ _ hc hv => (h.binder_unique hc (binder?_of_getElem? hx) hv).2 ▸ hseen

/-- Idle calls may come at any time. -/
theorem Accounts.interlude (hr : r.Accounts idle session chapters) {new : List Call}
    (hcalls : r'.world.calls = r.world.calls ++ new) (hidle : ∀ c ∈ new, idle c)
    (hbinders : r.SameBinders r') (htasks : r.NoNewAnswers r') :
    ∃ more, r'.Accounts idle session (chapters ++ more) := by
  have hfits : (Chapter.interlude new).Fits idle session chapters := hidle
  refine ⟨[.interlude new], ?_, hr.account.concat hfits, ?_, ?_, ?_⟩
  · rw [List.flatMap_append, hr.calls, hcalls]
    exact congrArg _ (List.append_nil _)
  · intro t b policy phase answer c hlive hphase hc
    obtain ⟨policy', phase', hlive', hphase'⟩ := htasks t b policy phase answer hlive hphase
    rw [hbinders b] at hc
    exact (hr.pending t b policy' phase' answer c hlive' hphase' hc).append
      (List.forall_mem_singleton.mpr nofun)
  · intro v hv
    refine List.forall_mem_append.mpr ⟨hr.fresh v fun b c hc => hv b c (hbinders b ▸ hc), ?_⟩
    exact List.forall_mem_singleton.mpr id
  · exact fun b c hc => hr.blank b c (hbinders b ▸ hc)

/-- One binder has gone through a part of a cycle in the turn of a task, with calls that the
chapters tell. -/
theorem Accounts.cycled (h : r.InOrder s turn) (hr : r.Accounts idle session chapters) (id : TaskId)
    (hx : r.binders[b]? = some x) {new : List Call}
    (hcalls : r'.world.calls = r.world.calls ++ new)
    (hmore : Continues idle session chapters new x.binder.view x'.binder.anchorSeen more)
    (hbinders : r'.binders = r.binders.set b x') (hview : x'.binder.view = x.binder.view)
    (hunseen : x'.binder.anchorSeen = false → x'.binder = x.binder)
    (hother : ∀ t, t ≠ id → r'.executor.live? t = r.executor.live? t)
    (halone : ∀ t, t ≠ id → ¬ r.executor.HoldsAt t b)
    (hself : ∀ b' policy phase answer, r'.executor.live? id = some (.poll b' policy phase, false) →
      phase.answer? = some answer →
      b' = b ∧ Chapter.Awaits (chapters ++ more) x.binder.view answer) :
    r'.Accounts idle session (chapters ++ more) := by
  have hlt := (List.getElem?_eq_some_iff.mp hx).1
  have hxb := binder?_of_getElem? hx
  have hset (d : BinderId) : r'.binder? d = if b = d then some x'.binder else r.binder? d := by
    unfold binder?
    rw [hbinders, List.getElem?_set, if_pos hlt]
    split <;> rfl
  refine ⟨?_, hmore.account, ?_, ?_, ?_⟩
  · rw [List.flatMap_append, hr.calls, hmore.calls, hcalls]
  · intro t d policy phase answer c hlive hphase hc
    rw [hset] at hc
    by_cases hti : t = id
    · subst hti
      obtain ⟨rfl, hawaits⟩ := hself d policy phase answer hlive hphase
      rw [if_pos rfl] at hc
      cases hc
      rwa [hview]
    · rw [hother t hti] at hlive
      by_cases hd : b = d
      · subst hd
        exact absurd ⟨_, _, hlive, rfl, Phase.holds_of_answer? hphase⟩ (halone t hti)
      · rw [if_neg hd] at hc
        exact hmore.awaits (fun hv => hd (h.binder_unique hxb hc hv.symm).1)
          (hr.pending t d policy phase answer c hlive hphase hc)
  · intro v hv
    refine List.forall_mem_append.mpr ⟨hr.fresh v fun d c hc hcv => ?_, fun d hd hsettles => ?_⟩
    · by_cases hbd : b = d
      · subst hbd
        obtain rfl : x.binder = c := Option.some.inj (hxb.symm.trans hc)
        have hfalse := hv b x'.binder (by rw [hset, if_pos rfl]) (hview.trans hcv)
        rwa [← hunseen hfalse]
      · exact hv d c (by rw [hset, if_neg hbd, hc]) hcv
    · obtain rfl := hmore.view d hd v hsettles.view?
      have hfalse := hv b x'.binder (by rw [hset, if_pos rfl]) hview
      exact absurd (hfalse.symm.trans (hmore.seen d hd hsettles)) Bool.false_ne_true
  · intro d c hc hseen
    rw [hset] at hc
    split at hc
    · cases hc
      have hsame := hunseen hseen
      rw [hsame] at hseen ⊢
      exact hr.blank b x.binder hxb hseen
    · exact hr.blank d c hc hseen

/-- A view has got its binder, with calls that the chapters tell. -/
theorem Accounts.bound (h : r.InOrder s turn) (hr : r.Accounts idle session chapters)
    {new : List Call} (hcalls : r'.world.calls = r.world.calls ++ new)
    (hmore : Continues idle session chapters new x'.binder.view x'.binder.anchorSeen more)
    (hbinders : r'.binders = r.binders ++ [x']) (hexecutor : r'.executor = r.executor)
    (hnew : ∀ b c, r.binder? b = some c → c.view ≠ x'.binder.view)
    (hblank : x'.binder.anchorSeen = false → x'.binder.lastRendered = none) :
    r'.Accounts idle session (chapters ++ more) := by
  have hlast : r'.binder? r.binders.length = some x'.binder := by
    rw [binder?, hbinders, List.getElem?_concat_length, Option.map_some]
  have hbefore {d : BinderId} (hd : d < r.binders.length) : r'.binder? d = r.binder? d := by
    rw [binder?, binder?, hbinders, List.getElem?_append_left hd]
  have hlt {d : BinderId} {c : Binder (Watcher ρ)} (hc : r.binder? d = some c) :
      d < r.binders.length := by
    obtain ⟨y, hy, -⟩ := Option.map_eq_some_iff.mp hc
    exact (List.getElem?_eq_some_iff.mp hy).1
  refine ⟨?_, hmore.account, ?_, ?_, ?_⟩
  · rw [List.flatMap_append, hr.calls, hmore.calls, hcalls]
  · intro t d policy phase answer c hlive hphase hc
    rw [hexecutor] at hlive
    rw [hbefore (h.orderly.within t _ _ hlive)] at hc
    exact hmore.awaits (hnew d c hc) (hr.pending t d policy phase answer c hlive hphase hc)
  · intro v hv
    refine List.forall_mem_append.mpr ⟨hr.fresh v fun d c hc => ?_, fun d hd hsettles => ?_⟩
    · exact hv d c ((hbefore (hlt hc)).trans hc)
    · obtain rfl := hmore.view d hd v hsettles.view?
      have hfalse := hv _ _ hlast rfl
      exact absurd (hfalse.symm.trans (hmore.seen d hd hsettles)) Bool.false_ne_true
  · intro d c hc hseen
    by_cases hd : d < r.binders.length
    · exact hr.blank d c ((hbefore hd).symm.trans hc) hseen
    · obtain ⟨y, hy, rfl⟩ := Option.map_eq_some_iff.mp hc
      rw [hbinders, List.getElem?_append_right (Nat.le_of_not_lt hd)] at hy
      obtain rfl : x' = y := (List.mem_singleton.mp (List.mem_of_getElem? hy)).symm
      exact hblank hseen

variable [Host ρ σ] (hidle : ∀ c : Call, c.IsPlain → idle c)

include hidle

omit [Host ρ σ] in
theorem Accounts.idles (hr : r.Accounts idle session chapters) (hidles : r.Idles r') :
    ∃ more, r'.Accounts idle session (chapters ++ more) := by
  obtain ⟨⟨new, hcalls, hplain⟩, -, hbinders, htasks⟩ := hidles
  exact hr.interlude hcalls (fun c hc => hidle c (hplain c hc)) hbinders htasks

theorem PollTurn.accounts (h : r.InOrder s (some id)) (hr : r.Accounts idle s.session chapters)
    (hx : r.binders[b]? = some x) (hid : r.executor.live? id = some (.poll b policy phase, false))
    (hturn : PollTurn r id b policy x phase r') :
    ∃ more, r'.Accounts idle s.session (chapters ++ more) := by
  have hsession := (h.orderly.own x (List.mem_of_getElem? hx)).1
  have hfresh := hr.fresh_of_binder h hx
  cases hturn with
  | idle => exact hr.idles hidle (.refl r)
  | joins hbusy => exact hr.idles hidle (joins_idles hx hid _ _)
  | waits hbusy => exact hr.idles hidle (waits_idles hx _)
  | @asks phase key answer c w hseeks hfree hbegin =>
    obtain ⟨first, shown, hcalls, hc, hprepares⟩ := Binder.asked_prepares hbegin
    obtain ⟨more, hmore, hawaits⟩ := hprepares.continues hr.account hsession hfresh
      (r.selected x.selection) (.held key answer)
    have hview : c.view = x.binder.view := by rw [hc]; rfl
    have hseen : c.anchorSeen = true := by rw [hc]
    refine ⟨_, hr.cycled h id hx hcalls (hseen ▸ hmore) rfl hview
      (fun hfalse => absurd (hfalse.symm.trans hseen) Bool.false_ne_true) (fun t hti => ?_)
      (fun t => h.orderly.alone hx hid (.inr (holder_of_isFree hfree))) ?_⟩
    · exact (Executor.live?_setBody hid t).trans (if_neg hti)
    · intro b' policy' phase' answer' hlive hphase
      have hwaiting := ((Executor.live?_setBody hid id).trans (if_pos rfl)).symm.trans hlive
      cases hwaiting
      cases hphase
      exact ⟨rfl, hawaits⟩
  | @ends phase c outcome w hends =>
    obtain ⟨new, more, hcalls, hmore, hsame⟩ := hends.continues hr.account hsession hfresh
      fun answer hphase => hr.pending id b policy phase answer _ hid hphase
        (binder?_of_getElem? hx)
    obtain ⟨slept, hslept, hrest⟩ := emits_rest c policy outcome w
    have hsleeps : ∀ d ∈ slept, idle d := by
      intro d hd
      obtain ⟨delay, rfl⟩ := hrest d hd
      exact hidle _ trivial
    obtain ⟨hworld, hbinders, -⟩ := r.ended_page id b policy x (phase.vacated x.lock) c outcome w
    refine ⟨_, hr.cycled h id hx ?_ (hmore.trans (.interlude hmore.account hsleeps _ _)) hbinders
      hends.kin.view hsame (fun t hti => ended_live?_ne hid hti)
      (fun t => h.orderly.alone hx hid hends.holds) fun b' policy' phase' answer hlive hphase => ?_⟩
    · rw [hworld, hslept, hcalls, List.append_assoc]
    · -- A task that goes on has gone to sleep.
      cases ended_live?_self hid hlive
      contradiction

theorem Turned.accounts (hturned : Turned r id r') (h : r.InOrder s (some id))
    (hr : r.Accounts idle s.session chapters) :
    ∃ more, r'.Accounts idle s.session (chapters ++ more) := by
  cases hturned with
  | gone => exact hr.idles hidle (.refl r)
  | @disposes body => exact hr.idles hidle (disposes_idles r body id)
  | polls hx hid hturn => exact PollTurn.accounts hidle h hr hx hid hturn
  | beats hid => exact hr.idles hidle (beats_idles hid)

omit hidle in
/-- A new binder is painted from the cache, at a time when nothing is known of its view. -/
theorem bind_accounts (h : r.InOrder s none) (hr : r.Accounts idle s.session chapters) {v : View}
    (hnew : s.binders.lookup v = none) :
    ∃ more, (r.binderFor 0 s v).2.Accounts idle s.session (chapters ++ more) := by
  obtain ⟨new, shown, hcalls, hc, hrecollects⟩ := (s.newBinder v).hydrate_recollects r.world
  have hnone (b : BinderId) (c : Binder (Watcher ρ)) (hb : r.binder? b = some c) : c.view ≠ v := by
    intro hv
    obtain ⟨x, hx, rfl⟩ := Option.map_eq_some_iff.mp hb
    have hknown := (h.orderly.known v b).mpr ⟨x, hx, hv⟩
    exact nomatch hnew.symm.trans hknown
  obtain ⟨more, hmore⟩ := hrecollects.continues hr.account rfl
    (hr.fresh _ fun b c hb hv => absurd hv (hnone b c hb)) id
  rw [binderFor_new h.services hnew, hc]
  refine ⟨_, hr.bound h hcalls hmore rfl rfl hnone fun hseen => ?_⟩
  cases shown with
  | none => rfl
  | some => contradiction

omit hidle in
/-- A move is one in which others make no calls, or it consists of theirs. -/
theorem Move.unheard_or (hmove : Move (heard idle) r r') :
    Move unheard r r' ∨ ∃ w, heard idle r.world w ∧ r' = { r with world := w } := by
  cases hmove with
  | turn hnext => exact .inl (.turn hnext)
  | enroll => exact .inl (.enroll r)
  | resume hchange id => exact .inl (.resume r hchange id)
  | forget sleepers held => exact .inl (.forget r sleepers held)
  | change hw => exact .inr ⟨_, hw, rfl⟩
  | log access entry => exact .inl (.log r access entry)
  | sweep access => exact .inl (.sweep r access)
  | abort id => exact .inl (.abort r id)
  | bind hs hnew => exact .inl (.bind r hs hnew)
  | strike hs hstruck => exact .inl (.strike r hs hstruck)
  | spawn hs hbody hhalted hspawn hregistry =>
    exact .inl (.spawn r hs hbody hhalted hspawn hregistry)

/-- Every move keeps the calls accounted for. -/
theorem Move.accounts (hmove : Move (heard idle) r r') (h : r.InOrder s none)
    (hr : r.Accounts idle s.session chapters) :
    ∃ more, r'.Accounts idle s.session (chapters ++ more) := by
  rcases hmove.unheard_or with hmove | ⟨w, ⟨new, hcalls, hnew⟩, rfl⟩
  · rcases hmove.idles_or with hnext | hidles | ⟨s', v, hs, hnew, rfl⟩
    · obtain ⟨id, executor, hpop, hpopped, hturned⟩ := next?_cases h hnext
      obtain ⟨rest, -, rfl⟩ := Executor.next?_eq_some_iff.mp hpop
      have haccounts : Accounts { r with executor := { r.executor with ready := rest } } idle
          s.session chapters := ⟨hr.calls, hr.account, hr.pending, hr.fresh, hr.blank⟩
      exact hturned.accounts hidle hpopped haccounts
    · exact hr.idles hidle hidles
    · obtain rfl : s' = s := List.singleton_inj.mp (hs.symm.trans h.services)
      exact bind_accounts h hr hnew
  · exact hr.interlude hcalls hnew (fun _ => rfl) (.of_live? fun _ _ hlive => hlive)

/-- Whatever is done with a service, an account of its calls is continued. -/
theorem accounts_invariant (session : SessionId) (access : Watcher ρ) (chapters : List Chapter) :
    Invariant (heard idle) fun r : Run (Watcher ρ) (Watched σ) =>
      ∃ s, r.InOrder s none ∧ (s.session = session ∧ s.access = access) ∧
        ∃ more, r.Accounts idle session (chapters ++ more) := by
  refine .of_inOrder (fun r r' s s' h hmove _ hkin ⟨hs, more, hr⟩ => ⟨?_, ?_⟩)
    fun r s page ⟨hs, more, hr⟩ => ⟨hs, more, ?_⟩
  · exact ⟨hkin.session.trans hs.1, hkin.access.trans hs.2⟩
  · rw [← hs.1] at hr ⊢
    obtain ⟨later, hlater⟩ := hmove.accounts hidle h hr
    exact ⟨more ++ later, List.append_assoc chapters more later ▸ hlater⟩
  · exact ⟨hr.calls, hr.account, hr.pending, hr.fresh, hr.blank⟩

omit hidle in
theorem opened_accounts (world : σ) (session : SessionId) (config : Config) (access : ρ) :
    (opened (⟨world, []⟩ : Watched σ) session config (Watcher.mk access)).Accounts idle session
      [] where
  calls := rfl
  account := .nil
  pending _ _ _ _ _ _ hlive := nomatch hlive
  fresh _ _ := List.forall_mem_nil _
  blank _ _ hc := nomatch hc

end Run

end WalletPage
