import WalletPage.Proofs.CacheKeys

/-! Cache keys as a code for pairs of a session and a view. A key is cut where the marker
first occurs, so it is read back exactly if the session does not hold the marker itself, and
is not empty. A marker that begins in the session cannot end behind it, as its first
character comes only once in it. -/

namespace WalletPage

namespace Text

theorem behind?_isSome_iff {marker cs : List Char} :
    (behind? marker cs).isSome = true ↔ marker <+: cs := by
  rw [Option.isSome_iff_exists]
  exact exists_congr fun after => behind?_eq_some_iff.trans eq_comm

/-- A marker occurs in a text if some stretch of the text is the marker. -/
theorem occursIn_iff {marker cs : List Char} : occursIn marker cs = true ↔ marker <:+: cs := by
  induction cs with
  | nil =>
    rw [occursIn, cut?, Option.isSome_map, behind?_isSome_iff, List.prefix_nil, List.infix_nil]
  | cons c cs ih =>
    rw [List.infix_cons_iff, ← behind?_isSome_iff, ← ih, occursIn, occursIn, cut?]
    cases behind? marker (c :: cs) with
    | some after => simp
    | none => simp

/-- A text is cut at the first marker: what stands before it does not hold another one. -/
theorem not_infix_of_cut? {m : Char} {ms cs before after : List Char}
    (h : cut? (m :: ms) cs = some (before, after)) : ¬ m :: ms <:+: before := by
  induction cs generalizing before with
  | nil => simp [cut?, behind?] at h
  | cons c cs ih =>
    have hwhole := append_of_cut? h
    rw [cut?] at h
    cases hbehind : behind? (m :: ms) (c :: cs) with
    | some rest =>
      rw [hbehind] at h
      cases h
      simp
    | none =>
      rw [hbehind] at h
      obtain ⟨⟨start, rest⟩, hcut, hsides⟩ := Option.map_eq_some_iff.mp h
      cases hsides
      rw [List.infix_cons_iff, not_or]
      refine ⟨fun hprefix => ?_, ih hcut⟩
      have hstarts : m :: ms <+: c :: cs := by
        rw [hwhole, List.append_assoc]
        exact hprefix.trans (List.prefix_append _ _)
      rw [← behind?_isSome_iff, hbehind] at hstarts
      contradiction

/-- The one way to cut a text: around a marker, with none before it. -/
theorem cut?_eq_some_iff {m : Char} {ms cs before after : List Char} (hm : m ∉ ms) :
    cut? (m :: ms) cs = some (before, after) ↔
      cs = before ++ (m :: ms) ++ after ∧ ¬ m :: ms <:+: before := by
  refine ⟨fun h => ⟨append_of_cut? h, not_infix_of_cut? h⟩, ?_⟩
  rintro ⟨rfl, hbefore⟩
  rw [← occursIn_iff, Bool.not_eq_true] at hbefore
  exact cut?_append hm hbefore after

end Text

theorem isSnapshotKey_iff {key : String} :
    isSnapshotKey key = true ↔ cacheMarker <:+: key.toList :=
  Text.occursIn_iff

/-- What is made of a text is an accepted id. -/
theorem SessionId.isAccepted_of_ofText {text : String} {session : SessionId}
    (h : ofText text = .ok session) : session.IsAccepted := by
  have htext : session = ⟨text⟩ := by
    unfold ofText at h
    split at h
    · contradiction
    · split at h
      · contradiction
      · exact (Except.ok.inj h).symm
  subst htext
  exact h

namespace View

theorem find?_cacheSuffix (suffix : List Char) (v : View) :
    all.find? (·.cacheSuffix.toList = suffix) = some v ↔ suffix = v.cacheSuffix.toList := by
  constructor
  · intro h
    simpa [eq_comm] using List.find?_some h
  · rintro rfl
    cases v <;> decide

/-- What is read from a key: the session and the view that it was made of, if the session is
not empty and does not hold the marker. -/
theorem ofCacheKey?_eq_some_iff {key session : String} {v : View} :
    ofCacheKey? key = some (session, v) ↔
      (session ≠ "" ∧ ¬ cacheMarker <:+: session.toList) ∧ v.cacheKey session = key := by
  constructor
  · intro h
    unfold ofCacheKey? at h
    split at h
    · contradiction
    · contradiction
    · rename_i c cs suffix hcut
      obtain ⟨w, hw, hsides⟩ := Option.map_eq_some_iff.mp h
      obtain ⟨rfl, rfl⟩ := Prod.mk.inj hsides
      rw [(find?_cacheSuffix suffix w).mp hw] at hcut
      have honce : '_' ∉ ['s', 't', 'o', 'r', 'e', 'd'] := by decide
      obtain ⟨hwhole, hmarker⟩ := (Text.cut?_eq_some_iff honce).mp hcut
      refine ⟨⟨?_, ?_⟩, ?_⟩
      · rw [ne_eq, ← String.toList_eq_nil_iff, String.toList_ofList]
        exact List.cons_ne_nil c cs
      · rw [String.toList_ofList]
        exact hmarker
      · rw [← String.ofList_toList (s := key), hwhole, cacheKey, String.toList_ofList]
        rfl
  · rintro ⟨⟨hne, hmarker⟩, rfl⟩
    rw [← Text.occursIn_iff, Bool.not_eq_true] at hmarker
    exact ofCacheKey?_cacheKey (mt String.toList_eq_nil_iff.mp hne) hmarker v

end View

/-- Cache keys are a code. The key of a session and a view is read back to just these exactly
if the session is not empty and does not hold the marker, and so it is for every accepted id;
whatever is read from a key makes the same key again; and no two pairs of a session and a
view have the same key, whether the sessions are accepted or not. -/
theorem cacheKey_codec (session : String) (v : View) :
    (View.ofCacheKey? (v.cacheKey session) = some (session, v) ↔
        session ≠ "" ∧ ¬ cacheMarker <:+: session.toList) ∧
      (∀ id, SessionId.ofText session = .ok id →
        View.ofCacheKey? (v.cacheKey id.text) = some (id.text, v)) ∧
      (∀ key, View.ofCacheKey? key = some (session, v) → v.cacheKey session = key) ∧
      ∀ (other : String) (w : View),
        v.cacheKey session = w.cacheKey other → session = other ∧ v = w := by
  refine ⟨?_, fun id hid => ?_, fun key hkey => (View.ofCacheKey?_eq_some_iff.mp hkey).2,
    fun other w => View.cacheKey_injective⟩
  · rw [View.ofCacheKey?_eq_some_iff, and_iff_left rfl]
  · have haccepted := SessionId.isAccepted_of_ofText hid
    exact View.ofCacheKey?_cacheKey haccepted.ne_nil (Text.occursIn_eq_false haccepted.not_mem) v

/-- The beginning of a marker at the end of a session does no harm. -/
example : View.ofCacheKey? (View.balance.cacheKey "s_sto") = some ("s_sto", .balance) := by decide

end WalletPage
