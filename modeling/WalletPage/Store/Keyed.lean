/-! Lists of values under keys, in the order of the keys, each key once. -/

namespace WalletPage

variable {α : Type}

/-- Whether the keys stand in order, each once. -/
def KeysSorted (entries : List (String × α)) : Prop :=
  (entries.map (·.1)).Pairwise (· < ·)

/-- Puts a value under a key; an earlier value of that key gives way. -/
def putKey (key : String) (value : α) : List (String × α) → List (String × α)
  | [] => [(key, value)]
  | (other, old) :: rest =>
    if key < other then (key, value) :: (other, old) :: rest
    else if key = other then (key, value) :: rest
    else (other, old) :: putKey key value rest

/-- The values in the order of their keys, each key with its last value. -/
def sortKeys (entries : List (String × α)) : List (String × α) :=
  entries.foldl (fun sorted (key, value) => putKey key value sorted) []

/-- The entries without those of a key. -/
def dropKey (key : String) (entries : List (String × α)) : List (String × α) :=
  entries.filter (·.1 ≠ key)

theorem keysSorted_nil : KeysSorted ([] : List (String × α)) :=
  List.Pairwise.nil

theorem keysSorted_cons {key : String} {value : α} {rest : List (String × α)} :
    KeysSorted ((key, value) :: rest) ↔ (∀ e ∈ rest, key < e.1) ∧ KeysSorted rest := by
  simp [KeysSorted]

theorem fst_of_mem_putKey {key : String} {value : α} {entries : List (String × α)}
    {e : String × α} (h : e ∈ putKey key value entries) : e.1 = key ∨ e ∈ entries := by
  induction entries with
  | nil =>
    rw [putKey, List.mem_singleton] at h
    exact .inl (by rw [h])
  | cons head rest ih =>
    rw [putKey] at h
    split at h
    · rcases List.mem_cons.mp h with rfl | h
      · exact .inl rfl
      · exact .inr h
    · split at h
      · rcases List.mem_cons.mp h with rfl | h
        · exact .inl rfl
        · exact .inr (List.mem_cons_of_mem _ h)
      · rcases List.mem_cons.mp h with rfl | h
        · exact .inr List.mem_cons_self
        · exact (ih h).imp_right (List.mem_cons_of_mem _)

theorem keysSorted_putKey (key : String) (value : α) {entries : List (String × α)}
    (h : KeysSorted entries) : KeysSorted (putKey key value entries) := by
  induction entries with
  | nil => exact keysSorted_cons.mpr ⟨by simp, h⟩
  | cons head rest ih =>
    obtain ⟨other, old⟩ := head
    obtain ⟨hlt, hrest⟩ := keysSorted_cons.mp h
    rw [putKey]
    split
    · rename_i hk
      refine keysSorted_cons.mpr ⟨fun e he => ?_, h⟩
      rcases List.mem_cons.mp he with rfl | he
      · exact hk
      · exact String.lt_trans hk (hlt e he)
    · rename_i hk
      split
      · rename_i heq
        subst heq
        exact keysSorted_cons.mpr ⟨hlt, hrest⟩
      · rename_i hne
        refine keysSorted_cons.mpr ⟨fun e he => ?_, ih hrest⟩
        rcases fst_of_mem_putKey he with heq | he
        · rw [heq]
          rcases String.le_total key other with hle | hle
          · exact absurd (String.le_antisymm hle (String.not_lt.mp hk)) hne
          · exact String.not_le.mp fun hle' => hne (String.le_antisymm hle' hle)
        · exact hlt e he

theorem KeysSorted.nodup {entries : List (String × α)} (h : KeysSorted entries) :
    (entries.map (·.1)).Nodup :=
  List.Pairwise.imp (fun hlt => String.ne_of_lt hlt) h

theorem keysSorted_filter (p : String × α → Bool) {entries : List (String × α)}
    (h : KeysSorted entries) : KeysSorted (entries.filter p) :=
  List.Pairwise.sublist (List.filter_sublist.map _) h

theorem lookup_cons_eq (key : String) (value : α) (rest : List (String × α)) (k : String) :
    ((key, value) :: rest).lookup k = if k = key then some value else rest.lookup k := by
  by_cases h : k = key
  · simp [h]
  · rw [List.lookup_cons, if_neg h, beq_false_of_ne h]

theorem lookup_putKey (key : String) (value : α) (entries : List (String × α)) (k : String) :
    (putKey key value entries).lookup k = if k = key then some value else entries.lookup k := by
  induction entries with
  | nil => simp [putKey, lookup_cons_eq]
  | cons head rest ih =>
    obtain ⟨other, old⟩ := head
    rw [putKey]
    split
    · rw [lookup_cons_eq]
    · split
      · rename_i heq
        subst heq
        simp only [lookup_cons_eq]
        by_cases h : k = key <;> simp [h]
      · rename_i hne
        simp only [lookup_cons_eq, ih]
        by_cases h : k = other
        · simp [h, Ne.symm hne]
        · simp [h]

theorem lookup_dropKey (key : String) (entries : List (String × α)) (k : String) :
    (dropKey key entries).lookup k = if k = key then none else entries.lookup k := by
  induction entries with
  | nil => simp [dropKey]
  | cons head rest ih =>
    obtain ⟨other, old⟩ := head
    have step : dropKey key ((other, old) :: rest) =
        if other = key then dropKey key rest else (other, old) :: dropKey key rest := by
      by_cases h : other = key <;> simp [dropKey, h]
    rw [step, lookup_cons_eq]
    by_cases ho : other = key
    · rw [if_pos ho, ih]
      by_cases h : k = key <;> simp [h, ho]
    · rw [if_neg ho, lookup_cons_eq, ih]
      by_cases h : k = other
      · simp [h, ho]
      · simp [h]

end WalletPage
