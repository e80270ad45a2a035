import WalletPage.Proofs.Chapters

/-! Tables of transactions. Each table that a service paints shows one page of the history, the
one that is due: the page in the answer to the latest request, or, before the history was asked
for, the page that the cache held. The notes in it were read in the course of the painting. -/

namespace WalletPage

variable {ρ σ : Type}

/-- `DueHistory session past history`: after the calls `past`, a session has to show this page of
the history. -/
inductive DueHistory (session : SessionId) (past : List Call) (history : TxHistoryPage) : Prop
  /-- The history was not asked for yet, and the cache held the page when it was looked up. -/
  | recalled {before between : List Call} {raw : String} (hnew : latest past = none)
    (hpast : past =
      before ++ .read (View.txHistory.cacheKey session.text) (some raw) :: between)
    (hbetween : ∀ c ∈ between, (∃ key found, c = .read key found) ∨
      ∃ u result, c = .applied u result)
    (hraw : (Snapshot.txHistory history).DecodedFrom raw .txHistory)
  /-- The page is what the latest request was answered with. -/
  | fetched {request : Request} {reply : Reply (Fallible (Option Snapshot))}
    (hlatest : latest past = some (request, reply)) (hsession : request.session = session)
    (hanswer : reply.answer = .ok (some (.txHistory history)))

/-- Whether a call neither asks for a snapshot nor changes an element. -/
def Call.IsIdle : Call → Prop
  | asked _ _ => False
  | applied _ _ => False
  | _ => True

theorem Call.IsPlain.isIdle {c : Call} (h : c.IsPlain) : c.IsIdle := by
  cases c <;> first | exact h.elim | trivial

theorem Call.IsUsers.isIdle {c : Call} (h : c.IsUsers) : c.IsIdle := by
  cases c <;> first | exact h.elim | trivial

theorem Call.IsIdle.inquiry? {c : Call} (h : c.IsIdle) : c.inquiry? = none := by
  cases c <;> first | exact h.elim | rfl

theorem Call.ComesFrom.inquiry? {c : Call} {v : View} {answer : Fallible (Option Snapshot)}
    {calls : List Call} (h : c.ComesFrom v answer calls) : c.inquiry? = none := by
  cases c <;> first | exact h.elim | rfl

/-- An attempt to paint from the cache reads, removes and changes, and does not ask. -/
theorem Recollection.inquiry? {session : SessionId} {v : View} {found : Option String}
    {calls : List Call} {shown : Option Snapshot} (h : Recollection session v found calls shown) :
    ∀ c ∈ calls, c.inquiry? = none := by
  cases h with
  | absent => exact List.forall_mem_singleton.mpr rfl
  | spoilt => exact List.forall_mem_cons.mpr ⟨rfl, List.forall_mem_singleton.mpr rfl⟩
  | tried _ hreads _ happlies =>
    refine List.forall_mem_cons.mpr
      ⟨rfl, List.forall_mem_append.mpr ⟨fun c hc => ?_, fun c hc => ?_⟩⟩
    · obtain ⟨key, note, rfl⟩ := hreads c hc
      rfl
    · obtain ⟨u, -, result, rfl⟩ := happlies.eq_applied c hc
      rfl

/-- A change in an attempt to paint from the cache comes after the entry was read, and is one that
the snapshot in the entry takes. -/
theorem Recollection.applied {session : SessionId} {v : View} {found : Option String}
    {calls first later : List Call} {shown : Option Snapshot} {u : Update} {result : Fallible Nat}
    (h : Recollection session v found calls shown)
    (hcalls : calls = first ++ .applied u result :: later) :
    ∃ (raw : String) (s : Snapshot) (ctx : RenderContext) (between : List Call),
      s.DecodedFrom raw v ∧ ctx.ReadIn s calls ∧ u ∈ s.updates v ctx ∧
      first = .read (v.cacheKey session.text) (some raw) :: between ∧
      ∀ c ∈ between, (∃ key found, c = .read key found) ∨ ∃ u result, c = .applied u result := by
  have hmem : .applied u result ∈ calls := by
    rw [hcalls]
    exact List.mem_append_right _ List.mem_cons_self
  cases h with
  | absent => exact nomatch List.mem_singleton.mp hmem
  | spoilt =>
    rcases List.mem_cons.mp hmem with hmem | hmem
    · contradiction
    · exact nomatch List.mem_singleton.mp hmem
  | @tried raw s ctx reads taken isWhole hs hreads hctx happlies =>
    cases first with
    | nil => cases hcalls
    | cons c between =>
      obtain ⟨rfl, hrest⟩ := List.cons.inj hcalls
      have hkinds : ∀ c ∈ reads ++ taken, (∃ key found, c = .read key found) ∨
          ∃ u ∈ s.updates v ctx, ∃ result, c = .applied u result :=
        List.forall_mem_append.mpr ⟨fun c hc => .inl (hreads c hc),
          fun c hc => .inr (happlies.eq_applied c hc)⟩
      rw [hrest] at hkinds
      refine ⟨raw, s, ctx, between, hs, ?_, ?_, rfl, fun c hc => ?_⟩
      · exact hctx.mono fun c hc => List.mem_cons_of_mem _ (List.mem_append_left _ hc)
      · rcases hkinds _ (List.mem_append_right _ List.mem_cons_self) with
          ⟨key, found, hread⟩ | ⟨u', hu', result', happlied⟩
        · contradiction
        · cases happlied
          exact hu'
      · refine (hkinds c (List.mem_append_left _ hc)).imp_right ?_
        rintro ⟨u', -, result', rfl⟩
        exact ⟨u', result', rfl⟩

/-- Of all that a view renders, only a page of the history goes to the place of the lines, as a
table. -/
theorem Snapshot.updates_lines {s : Snapshot} {v : View} {ctx : RenderContext} {u : Update}
    (hs : s.matchesView v = true) (hu : u ∈ s.updates v ctx) (htarget : u.target = txHistoryLines) :
    v = .txHistory ∧ ∃ history, s = .txHistory history ∧
      u = .html txHistoryLines (txTable ctx history) := by
  have hown := Snapshot.target_mem_elementsOf hs ctx hu
  obtain rfl : v = .txHistory := by
    by_contra hv
    rw [htarget] at hown
    exact Page.not_mem_elementsOf hv hown List.mem_cons_self
  cases s with
  | txHistory history =>
    refine ⟨rfl, history, rfl, ?_⟩
    rcases List.mem_cons.mp hu with rfl | hu
    · rfl
    · have hother : ∀ u ∈ [Update.text txHistoryPageCount (numeral history.total.toNat),
          .html txHistoryPages (pageOptions history)], u.target ≠ txHistoryLines := by
        simp [Update.text, Update.html, txHistoryLines, txHistoryPageCount, txHistoryPages]
      exact absurd htarget (hother u hu)
  | _ => contradiction

namespace Chapter

variable {idle : Call → Prop} {session : SessionId} {past : List Chapter} {d : Chapter}
  (hidle : ∀ c, idle c → c.IsIdle)

include hidle

/-- Only a chapter that asks for the history asks for it. -/
theorem Fits.inquiry? (hfits : d.Fits idle session past)
    (hother : ∀ request reply, d = asked request reply → request.view ≠ .txHistory) :
    ∀ c ∈ d.calls, c.inquiry? = none := by
  cases d with
  | interlude calls => exact fun c hc => (hidle c (hfits c hc)).inquiry?
  | recalled v calls shown =>
    obtain ⟨-, -, found, hrecollection⟩ := hfits
    exact hrecollection.inquiry?
  | asked request reply => exact List.forall_mem_singleton.mpr (if_neg (hother request reply rfl))
  | used v answer calls => exact fun c hc => (hfits.2 c hc).inquiry?

theorem inquiry?_of_account {chapters part : List Chapter}
    (haccount : Account idle session chapters) (hsub : part ⊆ chapters)
    (hother : ∀ d ∈ part, ∀ request reply, d = asked request reply →
      request.view ≠ .txHistory) : ∀ c ∈ part.flatMap calls, c.inquiry? = none := by
  intro c hc
  obtain ⟨d, hd, hc⟩ := List.mem_flatMap.mp hc
  obtain ⟨before, hfits⟩ := haccount.fits_of_mem (hsub hd)
  exact hfits.inquiry? hidle (hother d hd) c hc

/-- An answer that is awaited for the history is the one to its latest request. -/
theorem Awaits.latest {answer : Fallible (Option Snapshot)}
    (h : Awaits past .txHistory answer) (haccount : Account idle session past) :
    ∃ request reply, latest (past.flatMap calls) = some (request, reply) ∧
      request.session = session ∧ reply.answer = answer := by
  obtain ⟨before, request, reply, after, rfl, hview, hanswer, hafter⟩ := h
  refine ⟨request, reply, ?_, (haccount.split rfl).2, hanswer⟩
  have hno : ∀ c ∈ after.flatMap calls, c.inquiry? = none := by
    refine inquiry?_of_account hidle haccount
      (fun d hd => List.mem_append_right _ (List.mem_cons_of_mem _ hd)) ?_
    rintro d hd request' reply' rfl hview'
    exact hafter _ hd (congrArg some hview')
  rw [List.flatMap_append, List.flatMap_cons, ← List.append_assoc, latest_append_of_none _ hno]
  exact latest_asked _ hview reply

/-- A chapter that paints a table shows the page that is due. -/
theorem Fits.table (hfits : d.Fits idle session past) (haccount : Account idle session past)
    {first later : List Call} {u : Update} {result : Fallible Nat}
    (hcalls : d.calls = first ++ .applied u result :: later)
    (htarget : u.target = txHistoryLines) :
    ∃ ctx history, DueHistory session (past.flatMap calls ++ first) history ∧
      u = .html txHistoryLines (txTable ctx history) ∧ ctx.ReadIn (.txHistory history) d.calls := by
  have hmem : .applied u result ∈ d.calls := by
    rw [hcalls]
    exact List.mem_append_right _ List.mem_cons_self
  have hfirst : ∀ c ∈ first, c ∈ d.calls := by
    rw [hcalls]
    exact fun c => List.mem_append_left _
  cases d with
  | interlude calls => exact (hidle _ (hfits _ hmem)).elim
  | asked request reply => exact nomatch List.mem_singleton.mp hmem
  | recalled v calls shown =>
    obtain ⟨rfl, hfresh, found, hrecollection⟩ := hfits
    have hno : ∀ c ∈ past.flatMap Chapter.calls ++ first, c.inquiry? = none := by
      refine List.forall_mem_append.mpr ⟨?_, fun c hc => ?_⟩
      · refine inquiry?_of_account hidle haccount (List.Subset.refl past) ?_
        rintro d hd request reply rfl
        exact hfresh _ hd
      · exact hrecollection.inquiry? c (hfirst c hc)
    obtain ⟨raw, s, ctx, between, hs, hctx, hu, rfl, hbetween⟩ := hrecollection.applied hcalls
    obtain ⟨-, history, rfl, rfl⟩ := Snapshot.updates_lines hs.2 hu htarget
    exact ⟨ctx, history, .recalled (latest_of_forall_none hno) rfl hbetween hs, rfl, hctx⟩
  | used v answer calls =>
    obtain ⟨hawaits, hcomes⟩ := hfits
    obtain ⟨s, ctx, hanswer, hs, hctx, hu⟩ := hcomes _ hmem
    obtain ⟨rfl, history, rfl, rfl⟩ := Snapshot.updates_lines hs hu htarget
    obtain ⟨request, reply, hlatest, hsession, hreply⟩ := hawaits.latest hidle haccount
    have hno : ∀ c ∈ first, c.inquiry? = none := fun c hc => (hcomes c (hfirst c hc)).inquiry?
    rw [← latest_append_of_none _ hno] at hlatest
    exact ⟨ctx, history, .fetched hlatest hsession (hreply.trans hanswer), rfl, hctx⟩

end Chapter

/-- A place in the calls of some chapters is a place in the calls of one of them. -/
theorem Chapter.exists_of_flatMap_calls {chapters : List Chapter} {first later : List Call}
    {c : Call} (h : chapters.flatMap Chapter.calls = first ++ c :: later) :
    ∃ before d after first' later', chapters = before ++ d :: after ∧
      d.calls = first' ++ c :: later' ∧ first = before.flatMap Chapter.calls ++ first' := by
  induction chapters generalizing first with
  | nil => simp at h
  | cons d rest ih =>
    rw [List.flatMap_cons, List.append_eq_append_iff] at h
    rcases h with ⟨more, rfl, hrest⟩ | ⟨more, hd, hrest⟩
    · obtain ⟨before, e, after, first', later', rfl, he, rfl⟩ := ih hrest
      exact ⟨d :: before, e, after, first', later', rfl, he, (List.append_assoc _ _ _).symm⟩
    · cases more with
      | nil =>
        have hlater : rest.flatMap Chapter.calls = [] ++ c :: later := hrest.symm
        obtain ⟨before, e, after, first', later', rfl, he, hnil⟩ := ih hlater
        refine ⟨d :: before, e, after, first', later', rfl, he, ?_⟩
        rw [List.flatMap_cons, List.append_assoc, ← hnil, hd, List.append_nil, List.append_nil]
      | cons c' more =>
        obtain ⟨rfl, -⟩ := List.cons.inj hrest
        exact ⟨[], d, rest, first, more, rfl, hd, rfl⟩

/-- A table that is painted in the later chapters of an account shows the page that is due. -/
theorem Account.table {idle : Call → Prop} {session : SessionId} {chapters more : List Chapter}
    (haccount : Account idle session (chapters ++ more)) (hidle : ∀ c, idle c → c.IsIdle)
    {first later : List Call} {u : Update} {result : Fallible Nat}
    (hcalls : more.flatMap Chapter.calls = first ++ .applied u result :: later)
    (htarget : u.target = txHistoryLines) :
    ∃ ctx history, DueHistory session (chapters.flatMap Chapter.calls ++ first) history ∧
      u = .html txHistoryLines (txTable ctx history) ∧
      ctx.ReadIn (.txHistory history) (more.flatMap Chapter.calls) := by
  obtain ⟨before, d, after, first', later', rfl, hd, rfl⟩ := Chapter.exists_of_flatMap_calls hcalls
  obtain ⟨hpast, hfits⟩ := haccount.split (List.append_assoc chapters before (d :: after)).symm
  obtain ⟨ctx, history, hdue, rfl, hctx⟩ := hfits.table hidle hpast hd htarget
  refine ⟨ctx, history, ?_, rfl, hctx.mono fun c hc => ?_⟩
  · rwa [List.flatMap_append, List.append_assoc] at hdue
  · exact List.mem_flatMap.mpr ⟨d, List.mem_append_right _ List.mem_cons_self, hc⟩

/-- Whatever occurs to a service, each table that it paints next shows the page that is due, with
notes that were read meanwhile. -/
theorem Run.tables_through [Host ρ σ] (world : σ) (session : SessionId) (config : Config)
    (access : ρ) (before later : List (Occurrence σ)) :
    ∃ new, (watchedThrough world session config access (before ++ later)).world.calls =
        (watchedThrough world session config access before).world.calls ++ new ∧
      ∀ first u result rest, new = first ++ .applied u result :: rest →
        u.target = txHistoryLines → ∃ ctx history,
          DueHistory session
            ((watchedThrough world session config access before).world.calls ++ first) history ∧
          u = .html txHistoryLines (txTable ctx history) ∧
          ctx.ReadIn (.txHistory history) new := by
  have hplain (c : Call) (hc : c.IsPlain) : c.IsIdle := hc.isIdle
  have hwithin (occurrences : List (Occurrence σ)) : ∀ o ∈ occurrences.map Occurrence.watched,
      o.Within (Watcher ρ) (heard Call.IsIdle) := by
    intro o ho
    obtain ⟨o', -, rfl⟩ := List.mem_map.mp ho
    exact o'.watched_within.mono fun _ _ ⟨new, hcalls, hnew⟩ =>
      ⟨new, hcalls, fun c hc => (hnew c hc).isIdle⟩
  obtain ⟨s, h, hs, chapters, hr⟩ :=
    (accounts_invariant hplain session (Watcher.mk access) []).through (hwithin before)
      ⟨_, opened_inOrder (⟨world, []⟩ : Watched σ) session config (Watcher.mk access), ⟨rfl, rfl⟩,
        [], opened_accounts world session config access⟩
  obtain ⟨-, -, -, more, hmore⟩ :=
    (accounts_invariant hplain session (Watcher.mk access) chapters).through (hwithin later)
      ⟨s, h, hs, [], by rwa [List.append_nil]⟩
  refine ⟨more.flatMap Chapter.calls, ?_, fun first u result rest hnew htarget => ?_⟩
  · rw [watchedThrough, watchedThrough, List.map_append, through_append, ← hmore.calls,
      List.flatMap_append]
    exact congrArg (· ++ _) hr.calls
  · have htable := hmore.account.table (fun _ => id) hnew htarget
    rwa [show chapters.flatMap Chapter.calls = _ from hr.calls] at htable

end WalletPage
