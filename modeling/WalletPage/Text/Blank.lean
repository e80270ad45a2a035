/-! Blank characters, and the two readings of a text that ignore them: the text
without its outer blanks, and its words. Blanks are the characters with the
`White_Space` property, so a word may hold any other character. -/

namespace WalletPage.Text

/-- The 25 characters of the `White_Space` property. -/
def isBlank (c : Char) : Bool :=
  let n := c.toNat
  (0x09 ≤ n && n ≤ 0x0D) || n == 0x20 || n == 0x85 || n == 0xA0 || n == 0x1680 ||
    (0x2000 ≤ n && n ≤ 0x200A) || n == 0x2028 || n == 0x2029 || n == 0x202F ||
    n == 0x205F || n == 0x3000

/-- The characters of a text between its first and its last character that is not blank. -/
def trimmed (cs : List Char) : List Char :=
  ((cs.dropWhile isBlank).reverse.dropWhile isBlank).reverse

/-- A text without the blanks at its two ends. -/
def trim (text : String) : String :=
  String.ofList (trimmed text.toList)

/-- The stretches between separators, the empty ones included. -/
def stretches (isSeparator : Char → Bool) : List Char → List (List Char)
  | [] => [[]]
  | c :: cs =>
    if isSeparator c then [] :: stretches isSeparator cs
    else match stretches isSeparator cs with
      | [] => [[c]]
      | word :: rest => (c :: word) :: rest

/-- The stretches of a text that hold anything, in order. -/
def tokens (isSeparator : Char → Bool) (text : String) : List String :=
  ((stretches isSeparator text.toList).filter (!·.isEmpty)).map String.ofList

/-- The words of a text, in order. -/
def words (text : String) : List String :=
  tokens isBlank text

theorem stretches_ne_nil (isSeparator : Char → Bool) (cs : List Char) :
    stretches isSeparator cs ≠ [] := by
  cases cs with
  | nil => simp [stretches]
  | cons c cs =>
    rw [stretches]
    split
    · simp
    · split <;> simp

end WalletPage.Text
