import Mathlib.Data.List.Basic
import Mathlib.Data.List.Count
import Mathlib.Data.List.Nodup
import WalletPage.Proofs.PrintedJson
import WalletPage.Render.Basic

/-! The choices of a page of the transaction history. The HTML text of the options is one option
after another, from the first page to the last, and digits stand in it as they are. No two
numbers have the same digits, so each page is one choice, and the current page, if it is one of
them, is the only one that is selected. -/

namespace WalletPage

/-- A number is read back from its digits, so no other one has the same digits. -/
theorem numeral_injective : Function.Injective numeral := by
  intro m n h
  have hdigits : Decimal.natDigits m = Decimal.natDigits n := String.ofList_injective h
  rw [← Reader.ofDigits_natDigits m, hdigits, Reader.ofDigits_natDigits]

namespace Markup

theorem allChars_eq_flatMap (trees : List Markup) : allChars trees = trees.flatMap chars := by
  induction trees with
  | nil => rfl
  | cons tree rest ih => rw [allChars, List.flatMap_cons, ih]

/-- The HTML text of a run of trees is that of one tree after another. -/
theorem html_fragment (trees : List Markup) :
    (fragment trees).html = String.join (trees.map html) := by
  refine String.toList_injective ?_
  rw [html, String.toList_ofList, chars, allChars_eq_flatMap, String.toList_join,
    List.flatMap_map]
  exact List.flatMap_congr fun tree _ => String.toList_ofList.symm

/-- A digit stands in a text as it is. -/
theorem escapedInText_of_isDigit {c : Char} (h : c.isDigit) : escapedInText c = [c] := by
  unfold escapedInText
  split <;> first | contradiction | rfl

/-- A digit stands in an attribute as it is. -/
theorem escapedInValue_of_isDigit {c : Char} (h : c.isDigit) : escapedInValue c = [c] := by
  unfold escapedInValue
  split
  · contradiction
  · exact escapedInText_of_isDigit h

/-- What writes every digit as it is writes a number as it is. -/
theorem flatMap_numeral {escaped : Char → List Char}
    (h : ∀ {c : Char}, c.isDigit → escaped c = [c]) (n : Nat) :
    (numeral n).toList.flatMap escaped = (numeral n).toList := by
  rw [numeral, String.toList_ofList]
  refine (List.flatMap_congr fun c hc => ?_).trans (List.flatMap_singleton' _)
  exact h (Reader.isDigit_of_mem_natDigits hc)

end Markup

/-- A choice of one page: what it is called, and whether it is selected. -/
structure PageChoice where
  label : String
  isSelected : Bool
deriving DecidableEq, Repr

/-- A choice as HTML: the flag comes before the value, and the value is also the text. -/
def PageChoice.html (choice : PageChoice) : String :=
  "<option" ++ (if choice.isSelected then " selected" else "") ++ " value=\"" ++ choice.label ++
    "\">" ++ choice.label ++ "</option>"

/-- One choice for each page, from the first to the last. -/
def TxHistoryPage.choices (page : TxHistoryPage) : List PageChoice :=
  (List.range' 1 page.total.toNat).map fun n => ⟨n.repr, n = page.current.toNat⟩

/-- An option as HTML is the choice of its page. -/
theorem html_pageOption (current n : Nat) :
    (pageOption current n).html = (PageChoice.mk n.repr (n = current)).html := by
  have hrepr : n.repr = numeral n := rfl
  refine String.toList_injective ?_
  rw [hrepr, Markup.html, String.toList_ofList, pageOption, Markup.chars]
  simp only [Markup.allChars, Markup.chars, Markup.openTag,
    List.flatMap_append, List.flatMap_cons, List.flatMap_nil, attr, Markup.attributeChars,
    Markup.flatMap_numeral Markup.escapedInText_of_isDigit,
    Markup.flatMap_numeral Markup.escapedInValue_of_isDigit, PageChoice.html,
    String.toList_append]
  by_cases hcurrent : n = current
  · simp [hcurrent, flag, Markup.attributeChars, Markup.voidTags, Markup.closeTag]
  · simp [hcurrent, flag, Markup.voidTags, Markup.closeTag]

namespace TxHistoryPage

theorem labels_choices (page : TxHistoryPage) :
    page.choices.map (·.label) = (List.range' 1 page.total.toNat).map Nat.repr :=
  List.map_map

/-- A number is a page exactly once if it is one, and else not at all. -/
theorem count_labels_choices (page : TxHistoryPage) (n : Nat) :
    (page.choices.map (·.label)).count n.repr =
      if 1 ≤ n ∧ n ≤ page.total.toNat then 1 else 0 := by
  rw [labels_choices]
  refine (List.count_map_of_injective _ _ numeral_injective n).trans ?_
  rw [List.count_range_1']
  exact if_congr (and_congr_right' (by omega)) rfl rfl

theorem nodup_labels_choices (page : TxHistoryPage) :
    (page.choices.map (·.label)).Nodup := by
  rw [labels_choices]
  exact (List.nodup_range' 1).map numeral_injective

/-- The selected choices: the current page, if it is one of the pages. -/
theorem filter_isSelected_choices (page : TxHistoryPage) :
    page.choices.filter (·.isSelected) =
      if 1 ≤ page.current.toNat ∧ page.current.toNat ≤ page.total.toNat then
        [⟨page.current.toNat.repr, true⟩]
      else [] := by
  have hselected : (List.range' 1 page.total.toNat).filter (· = page.current.toNat) =
      if 1 ≤ page.current.toNat ∧ page.current.toNat ≤ page.total.toNat then
        [page.current.toNat]
      else [] := by
    rw [List.filter_eq, List.count_range_1']
    split <;> split <;> first | rfl | omega
  rw [choices, List.filter_map]
  show List.map _ ((List.range' 1 page.total.toNat).filter (· = page.current.toNat)) = _
  rw [hselected]
  split
  · simp
  · rfl

end TxHistoryPage

/-- The HTML text of the options is one option for each page, in ascending order, with the number
of the page as its value and its text. The current page is the only one that is selected, and
no page at all if it is none of them; each page is one option, and no other number is. -/
theorem pageOptions_html (page : TxHistoryPage) :
    (pageOptions page).html = String.join (page.choices.map (·.html)) ∧
      page.choices.map (·.label) = (List.range' 1 page.total.toNat).map Nat.repr ∧
      page.choices.filter (·.isSelected) =
        (if 1 ≤ page.current.toNat ∧ page.current.toNat ≤ page.total.toNat then
          [⟨page.current.toNat.repr, true⟩]
        else []) ∧
      (page.choices.map (·.label)).Nodup ∧
      ∀ n : Nat, (page.choices.map (·.label)).count n.repr =
        if 1 ≤ n ∧ n ≤ page.total.toNat then 1 else 0 := by
  refine ⟨?_, page.labels_choices, page.filter_isSelected_choices, page.nodup_labels_choices,
    page.count_labels_choices⟩
  rw [pageOptions, Markup.html_fragment, TxHistoryPage.choices, List.map_map, List.map_map]
  exact congrArg String.join (List.map_congr_left fun n _ => html_pageOption _ n)

/-- A current page past the last one is not selected. -/
example : (pageOptions { total := 2, current := 3 }).html =
    "<option value=\"1\">1</option><option value=\"2\">2</option>" := by decide

end WalletPage
