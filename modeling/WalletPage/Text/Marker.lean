/-! Cutting a text at the first place where a marker occurs in it. -/

namespace WalletPage.Text

/-- What stands behind `marker` in a text that starts with it. -/
def behind? : List Char → List Char → Option (List Char)
  | [], cs => some cs
  | _ :: _, [] => none
  | m :: ms, c :: cs => if m = c then behind? ms cs else none

/-- What stands before and behind the first occurrence of `marker`, if it occurs at all. -/
def cut? (marker : List Char) : List Char → Option (List Char × List Char)
  | [] => (behind? marker []).map fun after => ([], after)
  | c :: cs =>
    match behind? marker (c :: cs) with
    | some after => some ([], after)
    | none => (cut? marker cs).map fun (before, after) => (c :: before, after)

/-- Whether `marker` occurs in the text. -/
def occursIn (marker cs : List Char) : Bool :=
  (cut? marker cs).isSome

theorem behind?_eq_some_iff {marker cs after : List Char} :
    behind? marker cs = some after ↔ cs = marker ++ after := by
  induction marker generalizing cs with
  | nil => simp [behind?]
  | cons m ms ih =>
    cases cs with
    | nil => simp [behind?]
    | cons c cs =>
      rw [behind?]
      split
      · rename_i h
        subst h
        simp [ih]
      · rename_i h
        simp only [reduceCtorEq, List.cons_append, List.cons.injEq, false_iff, not_and]
        exact fun h' => absurd h'.symm h

/-- The two sides of a cut are the text without the marker between them. -/
theorem append_of_cut? {marker cs before after : List Char}
    (h : cut? marker cs = some (before, after)) : cs = before ++ marker ++ after := by
  induction cs generalizing before with
  | nil =>
    simp only [cut?, Option.map_eq_some_iff, Prod.mk.injEq, behind?_eq_some_iff] at h
    obtain ⟨a, ha, rfl, rfl⟩ := h
    simpa using ha
  | cons c cs ih =>
    rw [cut?] at h
    split at h
    · rename_i ha
      simp only [Option.some.injEq, Prod.mk.injEq] at h
      obtain ⟨rfl, rfl⟩ := h
      simpa using behind?_eq_some_iff.mp ha
    · simp only [Option.map_eq_some_iff, Prod.mk.injEq, Prod.exists] at h
      obtain ⟨b, a, hcut, rfl, rfl⟩ := h
      simpa using ih hcut

end WalletPage.Text
