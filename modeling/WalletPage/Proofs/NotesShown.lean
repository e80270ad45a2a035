import WalletPage.Proofs.KeyCodec
import WalletPage.Proofs.NotesApart
import WalletPage.Proofs.PaintedTables
import WalletPage.Proofs.SessionIsolation

/-! Notes follow their transactions. Notes and cache entries stand in one store, and a note is
looked up anew for each painting. Whatever a service does, each table of transactions that it
paints shows, for every line of the page that was fetched or recalled, the last text that was
saved for its short id, provided that the short id is not one that the cache could take for its
own. -/

namespace WalletPage

/-! ### The note inputs of a table -/

/-- The input for the note on a transaction, as an element. -/
def noteHead (ctx : RenderContext) (line : TxLine) : ElementHead where
  tag := "input"
  attributes :=
    [attr "class" noteClass, attr "type" "text", attr noteIdAttribute line.shortId,
      attr "value" ((ctx.note line.shortId).getD ""), attr "placeholder" "Note"]

/-- The short id and the note of an input for a note. -/
def ElementHead.note (head : ElementHead) : Option String × Option String :=
  (head.attribute? noteIdAttribute, head.attribute? "value")

theorem note_noteHead (ctx : RenderContext) (line : TxLine) :
    (noteHead ctx line).note = (some line.shortId, some ((ctx.note line.shortId).getD "")) := rfl

namespace Markup

theorem findAllByClass_map {α : Type} (word : String) (build : α → Markup) (items : List α) :
    findAllByClass word (items.map build) =
      items.flatMap fun a => (build a).findByClass word := by
  induction items with
  | nil => rfl
  | cons a rest ih => rw [List.map_cons, findAllByClass, ih, List.flatMap_cons]

end Markup

theorem findByClass_txRow (ctx : RenderContext) (line : TxLine) :
    (txRow ctx line).findByClass noteClass = [noteHead ctx line] := by
  rfl

theorem findByClass_txHeader : txHeader.findByClass noteClass = [] := by
  rfl

/-- A table has one input for a note in each line, in the order of the lines. -/
theorem findByClass_txTable (ctx : RenderContext) (page : TxHistoryPage) :
    (txTable ctx page).findByClass noteClass = page.lines.map (noteHead ctx) := by
  rw [txTable, Markup.findByClass, Markup.findAllByClass, findByClass_txHeader,
    Markup.findAllByClass_map, List.nil_append]
  simp only [findByClass_txRow]
  exact List.map_eq_flatMap.symm

/-! ### Plain short ids -/

namespace Notes

/-- Whether the marker of cache keys does not occur in a short id. -/
def IsPlain (shortId : String) : Prop :=
  ¬ cacheMarker <:+: shortId.toList

theorem IsPlain.key {shortId : String} (h : IsPlain shortId) :
    ¬ cacheMarker <:+: (key shortId).toList := by
  rw [IsPlain, ← Text.occursIn_iff, Text.occursIn] at h
  rw [← Text.occursIn_iff, Text.occursIn, cut?_key, Option.isSome_map]
  exact h

theorem IsPlain.isStale {shortId : String} (h : IsPlain shortId) :
    Cache.isStale (Notes.key shortId) = false := by
  have hkey : isSnapshotKey (Notes.key shortId) = false :=
    Bool.eq_false_iff.mpr fun hoccurs => h.key (Text.occursIn_iff.mp hoccurs)
  simp [Cache.isStale, hkey]

theorem IsPlain.ne_cacheKey {shortId : String} (h : IsPlain shortId) (session : String)
    (v : View) : Notes.key shortId ≠ v.cacheKey session := by
  intro heq
  refine h.key ⟨session.toList, v.cacheSuffix.toList, ?_⟩
  rw [heq, View.cacheKey, String.toList_ofList]

theorem key_injective {a b : String} (h : key a = key b) : a = b := by
  have hlist := congrArg String.toList h
  rw [toList_key, toList_key] at hlist
  exact String.toList_injective (List.append_cancel_left hlist)

end Notes

/-! ### Saving notes -/

/-- The note on a transaction as inputs show it; one that is missing is empty. -/
def Page.shownNote (p : Page) (id : String) : String :=
  (p.store.get? (Notes.key id)).getD ""

/-- The short id and the text of a note that is saved, if the store takes it. -/
def Occurrence.saved? (r : Run PageAccess Page) : Occurrence Page → Option (String × String)
  | saveNote id text =>
    match (r.saveNote 0 id text).1 with
    | .ok () => some (id, text)
    | .error _ => none
  | _ => none

/-- The notes that are saved and that the store takes, the latest first. -/
def Run.saves (r : Run PageAccess Page) : List (Occurrence Page) → List (String × String)
  | [] => []
  | o :: rest => (o.step r).saves rest ++ (o.saved? r).toList

/-- The text that was saved last for a short id, or the note that was there before. -/
def Run.noteAfter (r : Run PageAccess Page) (occurrences : List (Occurrence Page))
    (id : String) : String :=
  ((r.saves occurrences).lookup id).getD (r.world.shownNote id)

/-- Whether an occurrence leaves the notes under plain short ids alone if it is a change that
others make. -/
def Occurrence.SparesNotes : Occurrence Page → Prop
  | act (.change f) => ∀ (p : Page) (id : String), Notes.IsPlain id →
      (f p).store.get? (Notes.key id) = p.store.get? (Notes.key id)
  | _ => True

/-- A note that the store takes is shown from then on, an empty one as none at all; one that it
does not take changes nothing. -/
theorem Notes.shownNote_set (access : PageAccess) (id text other : String) (p : Page) :
    ((set access id text).run p).2.shownNote other =
      match ((set access id text).run p).1 with
      | .ok () => if other = id then text else p.shownNote other
      | .error _ => p.shownNote other := by
  have hkey : key other = key id ↔ other = id := ⟨key_injective, congrArg key⟩
  unfold set Page.shownNote
  by_cases hempty : text.isEmpty = true
  · rw [if_pos hempty]
    show ((p.store.erase (key id)).get? (key other)).getD "" = if other = id then text else _
    rw [Store.get?_erase, String.isEmpty_iff.mp hempty]
    by_cases hid : other = id <;> simp [hkey, hid]
  · rw [if_neg hempty]
    show ((p.write (key id) text).2.store.get? (key other)).getD "" =
      match (p.write (key id) text).1 with
      | .ok () => if other = id then text else _
      | .error _ => _
    rw [Page.write]
    cases p.isStoreFull with
    | true => rfl
    | false =>
      show ((p.store.put (key id) text).get? (key other)).getD "" = if other = id then text else _
      rw [Store.get?_put]
      by_cases hid : other = id <;> simp [hkey, hid]

/-- An entry under a plain short id withstands the service of any session. -/
theorem Notes.IsPlain.withstands {id : String} (h : IsPlain id) (session : SessionId)
    (value : Option String) : Withstands PageAccess session (Page.Has (Notes.key id) value) :=
  Page.entry_withstands h.isStale (h.ne_cacheKey session.text) value

namespace Run

variable {r : Run PageAccess Page} {s : Service PageAccess} {o : Occurrence Page}

/-- What an occurrence does to a note under a plain short id. -/
theorem shownNote_step (h : r.InOrder s none) (ho : o.SparesNotes) {id : String}
    (hid : Notes.IsPlain id) :
    (o.step r).world.shownNote id =
      ((o.saved? r).toList.lookup id).getD (r.world.shownNote id) := by
  by_cases hsave : ∃ other text, o = .saveNote other text
  · obtain ⟨other, text, rfl⟩ := hsave
    have hset : r.saveNote 0 other text = r.act (Notes.set s.access other text) := by
      rw [saveNote, first_service h.services]
    have hshown := Notes.shownNote_set s.access other text id r.world
    show (r.saveNote 0 other text).2.world.shownNote id = _
    rw [Occurrence.saved?, hset]
    refine hshown.trans ?_
    show _ = (Option.toList (match ((Notes.set s.access other text).run r.world).1 with
      | .ok () => some (other, text)
      | .error _ => none) |>.lookup id).getD _
    cases ((Notes.set s.access other text).run r.world).1 with
    | error e => rfl
    | ok u =>
      simp only [Option.toList_some, lookup_cons_eq]
      by_cases heq : id = other <;> simp [heq]
  · have hno (other text : String) : o ≠ .saveNote other text :=
      fun heq => hsave ⟨other, text, heq⟩
    have hsaved : o.saved? r = none := by
      cases o with
      | saveNote other text => exact absurd rfl (hno other text)
      | _ => rfl
    have hkept := hid.withstands s.session (r.world.store.get? (Notes.key id))
    have hsame : Page.Has (Notes.key id) (r.world.store.get? (Notes.key id)) (o.step r).world := by
      refine hkept.through h rfl (List.forall_mem_singleton.mpr (hkept.within hno ?_)) rfl
      rintro f rfl p hp
      exact (ho p id hid).trans hp
    rw [hsaved, Page.shownNote, show (o.step r).world.store.get? _ = _ from hsame]
    rfl

/-- After any occurrences the note under a plain short id is the text that was saved last. -/
theorem shownNote_through (h : r.InOrder s none) {occurrences : List (Occurrence Page)}
    (hspares : ∀ o ∈ occurrences, o.SparesNotes) {id : String} (hid : Notes.IsPlain id) :
    (r.through occurrences).world.shownNote id = r.noteAfter occurrences id := by
  induction occurrences generalizing r s with
  | nil => rfl
  | cons o rest ih =>
    obtain ⟨ho, hrest⟩ := List.forall_mem_cons.mp hspares
    obtain ⟨s', h', -⟩ : ∃ s', (o.step r).InOrder s' none ∧ s.Kin s' := through_inOrder h [o]
    have hstep := shownNote_step h ho hid
    show ((o.step r).through rest).world.shownNote id = _
    rw [ih h' hrest, noteAfter, noteAfter, saves, List.lookup_append, hstep]
    show Option.getD ((saves (o.step r) rest).lookup id) _ = _
    cases (saves (o.step r) rest).lookup id <;> rfl

end Run

/-! ### Notes that are read -/

/-- Whether a call that reads under the key of a plain short id finds that note there. -/
def Call.Finds (note : String → String) : Call → Prop
  | read key found => ∀ id, Notes.IsPlain id → key = Notes.key id → found.getD "" = note id
  | _ => True

/-- Whether a page under watch holds those notes under plain short ids, and all calls found them
that came after some earlier ones. -/
structure Watched.Noted (note : String → String) (before : List Call) (w : Watched Page) :
    Prop where
  notes : ∀ id, Notes.IsPlain id → w.world.shownNote id = note id
  calls : ∃ new, w.calls = before ++ new ∧ ∀ c ∈ new, c.Finds note

namespace Watched.Noted

variable {note : String → String} {before : List Call} {α : Type} {m : StateM Page α}
  (session : SessionId) (hm : ∀ {P : Page → Prop}, Withstands PageAccess session P → Keeps m P)

include hm

/-- What an action does that a page withstands leaves the notes as they are. -/
theorem shownNote_run (p : Page) {id : String} (hid : Notes.IsPlain id) :
    (m.run p).2.shownNote id = p.shownNote id := by
  have hsame : (m.run p).2.store.get? (Notes.key id) = p.store.get? (Notes.key id) :=
    hm (hid.withstands session (p.store.get? (Notes.key id))) p rfl
  rw [Page.shownNote, hsame, Page.shownNote]

theorem quiet : Keeps (Watched.quiet m) (Watched.Noted note before) := fun w hw =>
  ⟨fun id hid => (shownNote_run session hm w.world hid).trans (hw.notes id hid), hw.calls⟩

theorem noted {call : α → Call}
    (hcall : ∀ p : Page, (∀ id, Notes.IsPlain id → p.shownNote id = note id) →
      (call (m.run p).1).Finds note) :
    Keeps (Watched.noted m call) (Watched.Noted note before) := by
  rintro w ⟨hnotes, new, hcalls, hnew⟩
  refine ⟨fun id hid => (shownNote_run session hm w.world hid).trans (hnotes id hid),
    new ++ [call (m.run w.world).1], ?_, List.forall_mem_append.mpr ⟨hnew, ?_⟩⟩
  · show w.calls ++ [call (m.run w.world).1] = _
    rw [hcalls, List.append_assoc]
  · exact List.forall_mem_singleton.mpr (hcall w.world hnotes)

omit hm in
/-- The service of any session keeps notes, and what it reads are those notes. -/
theorem withstands :
    Withstands (Watcher PageAccess) session (Watched.Noted note before) where
  get? x key := noted session (fun h => h.get? x.access key) fun p hp id hid hkey => by
    subst hkey
    exact hp id hid
  set x v value := noted session (fun h => h.set x.access v value) fun _ _ => trivial
  removeOwn x v := noted session (fun h => h.removeOwn x.access v) fun _ _ => trivial
  removeStale x key hstale :=
    noted session (fun h => h.removeStale x.access key hstale) fun _ _ => trivial
  keys x := quiet session fun h => h.keys x.access
  anchorPresent x target := quiet session fun h => h.anchorPresent x.access target
  apply x u := noted session (fun h => h.apply x.access u) fun _ _ => trivial
  submitForm x form := noted session (fun h => h.submitForm x.access form) fun _ _ => trivial
  cacheBuster x := quiet session fun h => h.cacheBuster x.access
  fetch x request := noted session (fun h => h.fetch x.access request) fun _ _ => trivial
  heartbeat x := noted session (fun h => h.heartbeat x.access) fun _ _ => trivial
  sleep x delay := noted session (fun h => h.sleep x.access delay) fun _ _ => trivial
  log x entry := quiet session fun h => h.log x.access entry
  replacePage x container html :=
    noted session (fun h => h.replacePage x.access container html) fun _ _ => trivial
  shutdown x := noted session (fun h => h.shutdown x.access) fun _ _ => trivial

end Watched.Noted

/-- An occurrence that saves no note reads the notes that were saved before. -/
theorem Run.step_noted {r : Run (Watcher PageAccess) (Watched Page)}
    {s : Service (Watcher PageAccess)} (h : r.InOrder s none) {o : Occurrence Page}
    (ho : o.SparesNotes) (hsave : ∀ id text, o ≠ .saveNote id text) {note : String → String}
    {before : List Call} (hr : r.world.Noted note before) :
    (o.watched.step r).world.Noted note before := by
  have hwithstands : Withstands (Watcher PageAccess) s.session (Watched.Noted note before) :=
    Watched.Noted.withstands s.session
  refine hwithstands.through h rfl (List.forall_mem_singleton.mpr (hwithstands.within ?_ ?_)) hr
  · rintro id text heq
    cases o <;> cases heq
    exact hsave id text rfl
  · rintro f heq w ⟨hnotes, hcalls⟩
    cases o with
    | act a =>
      cases a <;> cases heq
      rename_i f
      refine ⟨fun id hid => ?_, hcalls⟩
      rw [← hnotes id hid]
      exact congrArg (Option.getD · "") (ho w.world id hid)
    | _ => cases heq

/-- Saving a note is all that is done for it. -/
theorem Run.saveNote_calls {r : Run (Watcher PageAccess) (Watched Page)}
    {s : Service (Watcher PageAccess)} (h : r.InOrder s none) (id text : String) :
    ∃ new, ((Occurrence.saveNote id text).step r).world.calls = r.world.calls ++ new ∧
      ∀ c ∈ new, c.IsUsers := by
  show ∃ new, (r.saveNote 0 id text).2.world.calls = r.world.calls ++ new ∧ ∀ c ∈ new, c.IsUsers
  rw [saveNote, first_service h.services]
  exact Notes.emits_set s.access id text r.world

theorem Call.IsUsers.finds {c : Call} (h : c.IsUsers) (note : String → String) : c.Finds note := by
  cases c <;> first | exact h.elim | trivial

/-- Whatever occurs next, only notes that were saved before are read. -/
theorem Run.finds_next (page : Page) (session : SessionId) (config : Config)
    (before : List (Occurrence Page)) (o : Occurrence Page)
    (hspares : ∀ o' ∈ before ++ [o], o'.SparesNotes) :
    ∃ new, (watchedThrough page session config PageAccess.only (before ++ [o])).world.calls =
        (watchedThrough page session config PageAccess.only before).world.calls ++ new ∧
      ∀ c ∈ new, c.Finds ((opened page session config PageAccess.only).noteAfter before) := by
  obtain ⟨hbefore, ho⟩ := List.forall_mem_append.mp hspares
  obtain ⟨s, horder, -⟩ := through_inOrder
    (opened_inOrder (⟨page, []⟩ : Watched Page) session config (Watcher.mk PageAccess.only))
    (before.map Occurrence.watched)
  rw [watchedThrough, List.map_append, through_append, ← watchedThrough]
  rw [← watchedThrough] at horder
  have hshown (id : String) (hid : Notes.IsPlain id) :
      (watchedThrough page session config PageAccess.only before).world.world.shownNote id =
        (opened page session config PageAccess.only).noteAfter before id := by
    have hrun := shownNote_through (opened_inOrder page session config PageAccess.only) hbefore hid
    rwa [← watchedThrough_unwatched] at hrun
  by_cases hsave : ∃ id text, o = .saveNote id text
  · obtain ⟨id, text, rfl⟩ := hsave
    obtain ⟨new, hcalls, hnew⟩ := saveNote_calls horder id text
    exact ⟨new, hcalls, fun c hc => (hnew c hc).finds _⟩
  · obtain ⟨-, hcalls⟩ := step_noted horder (ho o List.mem_cons_self)
      (fun id text heq => hsave ⟨id, text, heq⟩)
      ⟨hshown, [], (List.append_nil _).symm, List.forall_mem_nil _⟩
    exact hcalls

/-- Notes follow their transactions. Whatever has occurred to the service of a session, each table
that goes to the place of the transactions next is the table of the page that is due, which is the
one that was fetched, or the one that the cache held. It has one input for a note in each line of
that page, in the order of the lines, with the short id of the line and the text that was saved
last for that short id before. A text that the store did not take was not saved; without any the
input is empty, if the page held no note at the start. -/
theorem notes_follow_transactions (page : Page) (session : SessionId) (config : Config)
    (before : List (Occurrence Page)) (o : Occurrence Page)
    (hspares : ∀ o' ∈ before ++ [o], o'.SparesNotes) :
    (Run.watchedThrough page session config PageAccess.only (before ++ [o])).unwatched =
        (Run.opened page session config PageAccess.only).through (before ++ [o]) ∧
      ∃ new, (Run.watchedThrough page session config PageAccess.only (before ++ [o])).world.calls =
          (Run.watchedThrough page session config PageAccess.only before).world.calls ++ new ∧
        ∀ first u result rest, new = first ++ .applied u result :: rest →
          u.target = txHistoryLines → ∃ (ctx : RenderContext) (history : TxHistoryPage),
            DueHistory session ((Run.watchedThrough page session config PageAccess.only
              before).world.calls ++ first) history ∧
            u = .html txHistoryLines (txTable ctx history) ∧
            ((∀ line ∈ history.lines, Notes.IsPlain line.shortId) →
              ((txTable ctx history).findByClass noteClass).map ElementHead.note =
                history.lines.map fun line => (some line.shortId, some
                  ((Run.opened page session config PageAccess.only).noteAfter before
                    line.shortId))) := by
  obtain ⟨new, hnew, htables⟩ :=
    Run.tables_through page session config PageAccess.only before [o]
  obtain ⟨new', hnew', hfinds⟩ := Run.finds_next page session config before o hspares
  obtain rfl : new = new' := List.append_cancel_left (hnew.symm.trans hnew')
  refine ⟨Run.watchedThrough_unwatched .., new, hnew, fun first u result rest hsplit htarget => ?_⟩
  obtain ⟨ctx, history, hdue, rfl, hctx⟩ := htables first u result rest hsplit htarget
  refine ⟨ctx, history, hdue, rfl, fun hplain => ?_⟩
  rw [findByClass_txTable, List.map_map]
  refine List.map_congr_left fun line hline => ?_
  have hread := hctx line.shortId (List.mem_map_of_mem hline)
  rw [Function.comp_apply, note_noteHead, hfinds _ hread _ (hplain line hline) rfl]

/-- A page of the history with two lines of one transaction. -/
def rentHistory : TxHistoryPage :=
  ⟨[{ shortId := "ab" }, { shortId := "cd" }, { shortId := "ab" }], 1, 1⟩

/-- A page on which that history is fetched. -/
def rentPage : Page :=
  (({} : Page).mountView .txHistory).prepare .txHistory
    { result := .ok (some (.txHistory rentHistory)) }

/-- A note is saved, and another one after the store was full. -/
def rentSaved : List (Occurrence Page) :=
  [.saveNote "ab" "rent", .act (.change fun p => { p with isStoreFull := true }),
    .saveNote "ab" "food", .act (.startView .txHistory)]

/-- The calls of the first cycle up to its painting. -/
def rentReads : List Call :=
  [.read (View.txHistory.cacheKey SessionId.anonymous.text) none,
    .asked ⟨.txHistory, .anonymous, none⟩ (.ready (.ok (some (.txHistory rentHistory)))),
    .read (Notes.key "ab") (some "rent"), .read (Notes.key "cd") none,
    .read (Notes.key "ab") (some "rent")]

/-- The element that a call changes. -/
def Call.changed? : Call → Option Target
  | applied u _ => some u.target
  | _ => none

theorem Call.eq_applied_of_changed? {calls : List Call} {target : Target}
    (h : calls.head?.bind changed? = some target) :
    ∃ u result rest, calls = .applied u result :: rest ∧ u.target = target := by
  cases calls with
  | nil => contradiction
  | cons c rest =>
    cases c <;> cases h
    exact ⟨_, _, rest, rfl, rfl⟩

/-- The page that was fetched is painted with the note that the store took. -/
theorem rent_shown :
    ∃ u result rest ctx,
      (Run.watchedThrough rentPage .anonymous {} PageAccess.only
          (rentSaved ++ [.act .run])).world.calls =
        (Run.watchedThrough rentPage .anonymous {} PageAccess.only rentSaved).world.calls ++
          (rentReads ++ .applied u result :: rest) ∧
      u = .html txHistoryLines (txTable ctx rentHistory) ∧
      ((txTable ctx rentHistory).findByClass noteClass).map ElementHead.note =
        [(some "ab", some "rent"), (some "cd", some ""), (some "ab", some "rent")] := by
  have hspares : ∀ o ∈ rentSaved ++ [.act .run], o.SparesNotes := by
    simp [rentSaved, Occurrence.SparesNotes]
  obtain ⟨-, new, hnew, htables⟩ :=
    notes_follow_transactions rentPage .anonymous {} rentSaved (.act .run) hspares
  have hreads : (Run.watchedThrough rentPage .anonymous {} PageAccess.only
      (rentSaved ++ [.act .run])).world.calls.take 8 = (Run.watchedThrough rentPage .anonymous {}
        PageAccess.only rentSaved).world.calls ++ rentReads := by
    decide +kernel
  have hchanged : ((Run.watchedThrough rentPage .anonymous {} PageAccess.only
      (rentSaved ++ [.act .run])).world.calls.drop 8).head?.bind Call.changed? =
        some txHistoryLines := by
    decide +kernel
  have hlatest : latest ((Run.watchedThrough rentPage .anonymous {} PageAccess.only
      rentSaved).world.calls ++ rentReads) = some (⟨.txHistory, .anonymous, none⟩,
        .ready (.ok (some (.txHistory rentHistory)))) := rfl
  have hsplit := List.take_append_drop 8 (Run.watchedThrough rentPage .anonymous {}
    PageAccess.only (rentSaved ++ [.act .run])).world.calls
  rw [hreads, List.append_assoc] at hsplit
  obtain ⟨u, result, rest, hdrop, htarget⟩ := Call.eq_applied_of_changed? hchanged
  rw [hdrop] at hsplit
  obtain ⟨ctx, history, hdue, rfl, hnotes⟩ := htables rentReads u result rest
    (List.append_cancel_left (hnew.symm.trans hsplit.symm)) htarget
  obtain rfl : history = rentHistory := by
    cases hdue with
    | recalled hnone => exact nomatch hlatest.symm.trans hnone
    | fetched hsome _ hanswer =>
      cases hlatest.symm.trans hsome
      cases hanswer
      rfl
  have hplain : ∀ line ∈ rentHistory.lines, Notes.IsPlain line.shortId := by
    unfold Notes.IsPlain
    decide
  exact ⟨_, result, rest, ctx, hsplit.symm, rfl, (hnotes hplain).trans rfl⟩

end WalletPage
