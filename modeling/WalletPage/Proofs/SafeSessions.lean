import WalletPage.Proofs.KeyCodec
import WalletPage.Proofs.NotesApart

/-! Session ids that are safe in a storage key. An id that is made of a text is checked, and
so its entries outlive every sweep; an id that is read from JSON is not, and is whatever string
the JSON text holds. So reading is safe exactly for the JSON texts that hold no string, or one
that would have passed the check. -/

namespace WalletPage

theorem bind_eq_ok_iff {ε α β : Type} {x : Except ε α} {f : α → Except ε β} {b : β} :
    (x >>= f) = .ok b ↔ ∃ a, x = .ok a ∧ f a = .ok b := by
  cases x with
  | error e => exact ⟨nofun, nofun⟩
  | ok a => exact ⟨fun h => ⟨a, rfl, h⟩, fun ⟨_, ha, h⟩ => by cases ha; exact h⟩

theorem faulty_eq_ok_iff {α : Type} {result : Except Fault α} {a : α} :
    Document.faulty result = .ok a ↔ result = .ok a := by
  cases result with
  | error fault => exact ⟨nofun, nofun⟩
  | ok b => exact ⟨fun h => by cases h; rfl, fun h => by cases h; rfl⟩

/-- What is followed by a check alone comes out of it as it went in. -/
theorem bind_check_eq_ok_iff {ε α : Type} {x : Except ε α} {check : Except ε Unit} {a : α} :
    (do let a ← x; check; return a) = .ok a ↔ x = .ok a ∧ check = .ok () := by
  rw [bind_eq_ok_iff]
  constructor
  · rintro ⟨b, hb, hrest⟩
    obtain ⟨⟨⟩, hchecked, hsame⟩ := bind_eq_ok_iff.mp hrest
    cases hsame
    exact ⟨hb, hchecked⟩
  · rintro ⟨ha, hchecked⟩
    refine ⟨a, ha, ?_⟩
    rw [hchecked]
    rfl

/-- A text is decoded if its draft is, and nothing but blanks follows. -/
theorem Document.decodeText_eq_ok_iff {α : Type} {read : Document → Decoded α} {content : String}
    {a : α} : decodeText read content = .ok a ↔
      read (.text (Draft.read content).1 Draft.depthLimit) = .ok a ∧
        Draft.finished (Draft.read content).2 = .ok () :=
  bind_check_eq_ok_iff.trans (and_congr_right' faulty_eq_ok_iff)

/-- A text is JSON if its draft is, and nothing but blanks follows. -/
theorem Json.parse_eq_ok_iff {content : String} {value : Json} :
    Json.parse content = .ok value ↔
      (Draft.read content).1.toJson Draft.depthLimit = .ok value ∧
        Draft.finished (Draft.read content).2 = .ok () :=
  bind_check_eq_ok_iff

/-! ### Reading ids -/

/-- A draft that becomes a string was the draft of one. -/
theorem Draft.toJson_eq_string_iff {draft : Draft} {room : Nat} {text : String} :
    draft.toJson room = .ok (.string text) ↔ draft = .string (.ok text) := by
  refine ⟨fun h => ?_, fun h => by rw [h]; rfl⟩
  cases draft with
  | string s =>
    cases s with
    | error fault => cases h
    | ok s => cases h; rfl
  | number n => cases n <;> cases h
  | array _ _ | object _ _ =>
    cases room with
    | zero => cases h
    | succ room =>
      -- The values inside come first, then what cuts them off; an array or an object is left.
      obtain ⟨values, -, hvalues⟩ := bind_eq_ok_iff.mp h
      obtain ⟨-, -, hjson⟩ := bind_eq_ok_iff.mp hvalues
      cases hjson
  | _ => cases h

namespace SessionId

theorem ofDocument_eq_ok_iff {draft : Draft} {room : Nat} {session : SessionId} :
    ofDocument (.text draft room) = .ok session ↔ draft = .string (.ok session.text) := by
  refine ⟨fun h => ?_, fun h => by rw [h]; rfl⟩
  cases draft with
  | string s =>
    cases s with
    | error fault => cases h
    | ok s => cases h; rfl
  | number n => cases n <;> cases h
  | array _ _ | object _ _ => cases room <;> cases h
  | _ => cases h

/-- Whether a JSON text is read as an id. -/
def IsRead (content : String) (session : SessionId) : Prop :=
  Document.decodeText ofDocument content = .ok session

/-- A JSON text is read as the id with the string that it holds, whatever string that is. -/
theorem isRead_iff {content : String} {session : SessionId} :
    IsRead content session ↔ Json.parse content = .ok (.string session.text) := by
  rw [IsRead, Document.decodeText_eq_ok_iff, ofDocument_eq_ok_iff, Json.parse_eq_ok_iff,
    Draft.toJson_eq_string_iff]

/-! ### Safe ids -/

/-- Whether an id is safe in a storage key: it is not empty and holds neither the separator of
keys nor blanks, it is found in its keys, and what the cache keeps for it outlives a sweep. -/
structure IsSafe (session : SessionId) : Prop where
  ne_empty : session.text ≠ ""
  chars : ∀ c ∈ session.text.toList, c ≠ '_' ∧ Text.isBlank c = false
  found : ∀ v : View, View.ofCacheKey? (v.cacheKey session.text) = some (session.text, v)
  outlives : ∀ (access : PageAccess) (v : View) (s : Snapshot) (p p' : Page),
    (Cache.keep access session v s).run p = (.ok (), p') →
      ((Cache.sweep access).run p').2.store.get? (v.cacheKey session.text) = some s.stored

theorem isAccepted_iff_text {session : SessionId} : session.IsAccepted ↔
    session.text ≠ "" ∧ ∀ c ∈ session.text.toList, c ≠ '_' ∧ Text.isBlank c = false := by
  rw [isAccepted_iff, ne_eq, String.toList_eq_nil_iff]

/-- The safe ids are those that pass the check. -/
theorem isSafe_iff_isAccepted {session : SessionId} : session.IsSafe ↔ session.IsAccepted := by
  refine ⟨fun h => isAccepted_iff_text.mpr ⟨h.ne_empty, h.chars⟩, fun h => ?_⟩
  obtain ⟨hne, hchars⟩ := isAccepted_iff_text.mp h
  refine ⟨hne, hchars, fun v => ?_, fun access v s p p' hkept => ?_⟩
  · exact View.ofCacheKey?_cacheKey h.ne_nil (Text.occursIn_eq_false h.not_mem) v
  · have hkeep := Cache.keep_cases access session v s p
    split at hkeep
    · obtain ⟨-, hstore⟩ := hkeep
      rw [hkept] at hstore
      rw [(Cache.sweep_run access p').2.store, Cache.get?_swept, View.isStale_cacheKey h, hstore]
      simp
    · obtain ⟨e, he⟩ := hkeep
      rw [hkept] at he
      cases he

/-- An id is made of a text exactly if the text passes the check, and then it is the text. -/
theorem ofText_eq_ok_iff {text : String} {session : SessionId} :
    ofText text = .ok session ↔ session.text = text ∧ session.IsAccepted := by
  refine ⟨fun h => ⟨?_, isAccepted_of_ofText h⟩, ?_⟩
  · unfold ofText at h
    split_ifs at h
    cases h
    rfl
  · rintro ⟨rfl, h⟩
    exact h

/-- Whether a JSON text is read as the id that is made of the string in it, and as no other one,
and whether that id is safe. -/
def ReadsSafely (content : String) : Prop :=
  (∀ session, IsRead content session ↔
      ∃ text, Json.parse content = .ok (.string text) ∧ ofText text = .ok session) ∧
    ∀ session, IsRead content session → session.IsSafe

/-- A string in a JSON text is not checked, so reading is safe only if it would pass the check. -/
theorem readsSafely_iff {content : String} : ReadsSafely content ↔
    ∀ text, Json.parse content = .ok (.string text) →
      text ≠ "" ∧ ∀ c ∈ text.toList, c ≠ '_' ∧ Text.isBlank c = false := by
  constructor
  · rintro ⟨-, hsafe⟩ text htext
    have hread : IsRead content ⟨text⟩ := isRead_iff.mpr htext
    exact ⟨(hsafe ⟨text⟩ hread).ne_empty, (hsafe ⟨text⟩ hread).chars⟩
  · intro hchecked
    have haccepted {session : SessionId} (hread : IsRead content session) : session.IsAccepted :=
      isAccepted_iff_text.mpr (hchecked session.text (isRead_iff.mp hread))
    refine ⟨fun session => ⟨fun hread => ?_, ?_⟩,
      fun _ hread => isSafe_iff_isAccepted.mpr (haccepted hread)⟩
    · exact ⟨session.text, isRead_iff.mp hread, haccepted hread⟩
    · rintro ⟨text, htext, hmade⟩
      rw [← (ofText_eq_ok_iff.mp hmade).1] at htext
      exact isRead_iff.mpr htext

end SessionId

/-- Ids that are made of a text, and that of pages without a session, are safe. An id that is
read from a JSON text is the string in it, whatever it is, and so reading is safe exactly for
the JSON texts that hold no string, or one that could be made an id. -/
theorem sessions_safe_iff (content : String) :
    (∀ text session, SessionId.ofText text = .ok session →
        session.text = text ∧ session.IsSafe) ∧
      SessionId.anonymous.IsSafe ∧
      (∀ session, SessionId.IsRead content session ↔
        Json.parse content = .ok (.string session.text)) ∧
      (SessionId.ReadsSafely content ↔
        ∀ text, Json.parse content = .ok (.string text) →
          text ≠ "" ∧ ∀ c ∈ text.toList, c ≠ '_' ∧ Text.isBlank c = false) := by
  refine ⟨fun text session hmade => ?_, ?_, fun _ => SessionId.isRead_iff,
    SessionId.readsSafely_iff⟩
  · obtain ⟨htext, haccepted⟩ := SessionId.ofText_eq_ok_iff.mp hmade
    exact ⟨htext, SessionId.isSafe_iff_isAccepted.mpr haccepted⟩
  · exact SessionId.isSafe_iff_isAccepted.mpr SessionId.isAccepted_anonymous

/-- A string with the separator of keys is read as an id, though no id can be made of it, and
whatever is kept for that id is gone after the next sweep. -/
theorem separatorSession_lost :
    ¬ SessionId.ReadsSafely "\"x_stored\"" ∧
      SessionId.IsRead "\"x_stored\"" ⟨"x_stored"⟩ ∧
      SessionId.ofText "x_stored" = .error (.invalidSession "x_stored") ∧
      ∀ (access : PageAccess) (v : View) (p : Page),
        ((Cache.sweep access).run p).2.store.get? (v.cacheKey "x_stored") = none := by
  have hparse : Json.parse "\"x_stored\"" = .ok (.string "x_stored") := rfl
  obtain ⟨-, -, hread, hsafe⟩ := sessions_safe_iff "\"x_stored\""
  refine ⟨fun h => ?_, (hread _).mpr hparse, by decide, fun access v p => ?_⟩
  · exact ((hsafe.mp h "x_stored" hparse).2 '_' (by decide)).1 rfl
  · have hstale : Cache.isStale (v.cacheKey "x_stored") = true := by
      cases v <;> decide
    rw [(Cache.sweep_run access p).2.store, Cache.get?_swept, if_pos hstale]

end WalletPage
