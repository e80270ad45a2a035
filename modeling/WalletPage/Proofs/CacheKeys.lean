import WalletPage.Session
import WalletPage.View.CacheKey
import WalletPage.Cache.Snapshots

/-! Cache keys tell sessions and views apart, and a key of an accepted session is read
back to the session and the view that it was made of. -/

namespace WalletPage

namespace Text

/-- Before a marker no other one begins that would overlap it, if the first character of the
marker comes only once in it. -/
theorem behind?_append_eq_none {m c : Char} {ms cs : List Char} (hm : m ∉ ms)
    (h : behind? (m :: ms) (c :: cs) = none) (after : List Char) :
    behind? (m :: ms) (c :: cs ++ (m :: ms) ++ after) = none := by
  rw [Option.eq_none_iff_forall_ne_some] at h ⊢
  intro rest hrest
  have hlist := behind?_eq_some_iff.mp hrest
  simp only [List.cons_append, List.cons.injEq, List.append_assoc] at hlist
  obtain ⟨rfl, htail⟩ := hlist
  rcases List.append_eq_append_iff.mp htail with ⟨overlap, hms, hoverlap⟩ | ⟨inner, hcs, -⟩
  · cases overlap with
    | nil => exact h [] (behind?_eq_some_iff.mpr (by simpa using hms.symm))
    | cons d ds =>
      have hd : c = d := (List.cons.inj hoverlap).1
      exact hm (by rw [hms, hd]; simp)
  · exact h inner (behind?_eq_some_iff.mpr (by rw [hcs]; rfl))

/-- A text is cut where a marker was put into it, if the marker does not occur before. -/
theorem cut?_append {m : Char} {ms before : List Char} (hm : m ∉ ms)
    (hbefore : occursIn (m :: ms) before = false) (after : List Char) :
    cut? (m :: ms) (before ++ (m :: ms) ++ after) = some (before, after) := by
  induction before with
  | nil =>
    have hbehind : behind? (m :: ms) (m :: (ms ++ after)) = some after :=
      behind?_eq_some_iff.mpr rfl
    simp only [List.nil_append, List.cons_append, cut?, hbehind]
  | cons c cs ih =>
    cases hc : behind? (m :: ms) (c :: cs) with
    | some rest => simp [occursIn, cut?, hc] at hbefore
    | none =>
      have hbehind := behind?_append_eq_none hm hc after
      have hcs : occursIn (m :: ms) cs = false := by simpa [occursIn, cut?, hc] using hbefore
      have hrest := ih hcs
      simp only [List.cons_append] at hbehind hrest ⊢
      rw [cut?, hbehind, hrest]
      rfl

/-- A text without the first character of a marker does not hold the marker. -/
theorem occursIn_eq_false {m : Char} {ms cs : List Char} (h : m ∉ cs) :
    occursIn (m :: ms) cs = false := by
  cases hcut : cut? (m :: ms) cs with
  | none => simp [occursIn, hcut]
  | some sides =>
    refine absurd ?_ h
    rw [append_of_cut? hcut]
    simp

end Text

namespace SessionId

/-- Whether an id is one that may stand in a cache key. -/
def IsAccepted (session : SessionId) : Prop :=
  ofText session.text = .ok session

theorem IsAccepted.ne_nil {session : SessionId} (h : session.IsAccepted) :
    session.text.toList ≠ [] := by
  intro hnil
  have hempty : session.text.isEmpty = true := by
    rw [String.isEmpty_iff, ← String.toList_eq_nil_iff]
    exact hnil
  simp [IsAccepted, ofText, hempty] at h

theorem IsAccepted.not_mem {session : SessionId} (h : session.IsAccepted) :
    '_' ∉ session.text.toList := by
  intro hmem
  have hany : (session.text.toList.any fun c => c = '_' || Text.isBlank c) = true :=
    List.any_eq_true.mpr ⟨'_', hmem, by simp⟩
  unfold IsAccepted ofText at h
  rw [if_pos hany] at h
  split at h <;> contradiction

theorem isAccepted_anonymous : anonymous.IsAccepted := rfl

end SessionId

namespace View

/-- A cache key belongs to one session and one view. -/
theorem cacheKey_injective {v w : View} {s t : String} (h : v.cacheKey s = w.cacheKey t) :
    s = t ∧ v = w := by
  have hlist := String.ofList_injective h
  simp only [List.append_assoc] at hlist
  have hview : v = w := by
    -- read from the back, one of the two ends begins with the other
    have hback : (cacheMarker ++ v.cacheSuffix.toList).reverse ++ s.toList.reverse =
        (cacheMarker ++ w.cacheSuffix.toList).reverse ++ t.toList.reverse := by
      rw [← List.reverse_append, ← List.reverse_append, hlist]
    have hends := List.prefix_or_prefix_of_prefix (List.prefix_append _ s.toList.reverse)
      (hback ▸ List.prefix_append _ t.toList.reverse)
    clear hlist hback h
    revert hends
    cases v <;> cases w <;> decide
  subst hview
  exact ⟨String.toList_injective (List.append_cancel_right hlist), rfl⟩

theorem ofCacheKey?_cacheKey {session : String} (hne : session.toList ≠ [])
    (hmarker : Text.occursIn cacheMarker session.toList = false) (v : View) :
    ofCacheKey? (v.cacheKey session) = some (session, v) := by
  have hcut := @Text.cut?_append '_' ['s', 't', 'o', 'r', 'e', 'd'] session.toList (by decide)
    hmarker v.cacheSuffix.toList
  have hfind : all.find? (·.cacheSuffix.toList = v.cacheSuffix.toList) = some v := by
    cases v <;> decide
  unfold ofCacheKey? cacheKey
  rw [String.toList_ofList]
  rw [cacheMarker, hcut]
  cases hs : session.toList with
  | nil => exact absurd hs hne
  | cons c cs =>
    simp only [hfind, Option.map_some, ← hs, String.ofList_toList]

/-- The cache keys of an accepted session are not stale. -/
theorem isStale_cacheKey {session : SessionId} (h : session.IsAccepted) (v : View) :
    Cache.isStale (v.cacheKey session.text) = false := by
  have hparse := ofCacheKey?_cacheKey h.ne_nil (Text.occursIn_eq_false h.not_mem) v
  simp [Cache.isStale, hparse]

end View

end WalletPage
