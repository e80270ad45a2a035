import WalletPage.Decimal.Layout

/-! How far an upload has come. While bytes are in flight it is never complete. -/

namespace WalletPage

/-- The percentage of an upload in flight, at most 99; zero if the total is
unknown or the count is no number. -/
def uploadPercent (loaded total : Float) : Nat :=
  if total > 0 && loaded.isFinite then
    let percent := (loaded / total * 100).round
    if percent < 0 then 0
    else if percent > 99 then 99
    else percent.toUInt8.toNat
  else 0

/-- The text that shows the percentage of an upload. -/
def uploadText (percent : Nat) : String :=
  "Uploading Consensus (" ++ String.ofList (Decimal.natDigits percent) ++ "%)"

/-- The text that shows that an upload has failed. -/
def uploadFailedText : String := "Consensus upload failed"

end WalletPage
