import WalletPage.Render.Update
import WalletPage.Session
import WalletPage.Snapshot.Basic

/-! Rendering: the changes that make a page show a snapshot. -/

namespace WalletPage

/-- What a rendering needs besides the snapshot: the notes are found by short transaction id. -/
structure RenderContext where
  session : SessionId
  baseUrl : String := ""
  cacheBuster : String := ""
  note : String → Option String := fun _ => none

/-- A number as a text. -/
def numeral (n : Nat) : String :=
  String.ofList (Decimal.natDigits n)

/-- The elements of the transaction history. -/
def txHistoryLines : Target := .id "tx_history_page"

/-- The element with the number of pages. -/
def txHistoryPageCount : Target := .id "tx_history_page_count"

/-- The element to choose a page with. -/
def txHistoryPages : Target := .id "tx_history_pages"

/-- The class of the inputs that hold notes. -/
def noteClass : String := "tx-note"

/-- The attribute with the short transaction id of a note. -/
def noteIdAttribute : String := "data-short-id"

/-- Shows the funds. -/
def Balance.updates (data : Balance) : List Update :=
  let whales := "Whale Size: " ++ data.whaleSize
  [.text (.byClass "confirmed") data.confirmed,
    .text (.byClass "unconfirmed") data.unconfirmed,
    .text (.byClass "spf_funds") data.fundA,
    .text (.byClass "spf_b_funds") data.fundB,
    .text (.id "whale_size") whales,
    .value (.id "whale_size_button") whales]

/-- Shows the height of the chain. -/
def BlockHeight.updates (data : BlockHeight) : List Update :=
  [.text (.byClass "block_height") data.height,
    .text (.byClass "status") data.status,
    .className (.byClass "status") ("status " ++ data.color)]

/-- Shows progress in the view's own anchor. -/
def Progress.updates (v : View) (data : Progress) : List Update :=
  [.text v.anchor data.percentage]

/-- The classes of a cell in the header of the transaction history. -/
def headerCell : String := "col-5 center no-wrap"

/-- The classes of a cell in a line of the transaction history. -/
def rowCell : String := "col-5 center no-wrap white-underline pad-col"

/-- A cell in a line of the transaction history. -/
def cell (content : Markup) : Markup :=
  .element "li" [attr "class" rowCell] [content]

/-- An input that is not shown. -/
def hiddenInput (name value : String) : Markup :=
  .element "input" [attr "type" "hidden", attr "name" name, attr "value" value] []

/-- The form that shows one transaction. -/
def detailsForm (ctx : RenderContext) (line : TxLine) : Markup :=
  .element "form"
    [attr "class" "inline-block input-wide",
      attr "action" (ctx.baseUrl ++ explorerPath ++ "?" ++ ctx.cacheBuster),
      attr "method" "post"]
    [hiddenInput "session_id" ctx.session.text,
      hiddenInput "transaction_id" line.id,
      .element "input"
        [attr "class" "txid-button", attr "type" "submit", attr "value" line.shortId] []]

/-- The input for the note on a transaction. -/
def noteInput (ctx : RenderContext) (line : TxLine) : Markup :=
  .element "input"
    [attr "class" noteClass, attr "type" "text", attr noteIdAttribute line.shortId,
      attr "value" ((ctx.note line.shortId).getD ""), attr "placeholder" "Note"] []

/-- A line of the transaction history. -/
def txRow (ctx : RenderContext) (line : TxLine) : Markup :=
  .element "ul" [attr "class" "row", attr "data-transaction-id" line.id]
    [.element "h3" [attr "class" "col-5 center no-wrap monospace white-underline pad-col"]
        [detailsForm ctx line],
      cell (.text line.kind), cell (.text line.amount), cell (.text line.time),
      cell (.text line.confirmed), cell (noteInput ctx line)]

/-- The header of the transaction history. -/
def txHeader : Markup :=
  .element "ul" [attr "class" "row"]
    (.element "h3" [attr "class" headerCell] [.text "Transaction ID"] ::
      ["Type", "Amount", "Date", "Confirmed", "Note"].map fun title =>
        .element "li" [attr "class" headerCell] [.text title])

/-- The header and the lines of the transaction history. -/
def txTable (ctx : RenderContext) (page : TxHistoryPage) : Markup :=
  .fragment (txHeader :: page.lines.map (txRow ctx))

/-- The option that chooses one page. -/
def pageOption (current n : Nat) : Markup :=
  .element "option" (flag "selected" (n = current) ++ [attr "value" (numeral n)])
    [.text (numeral n)]

/-- One option for each page. -/
def pageOptions (page : TxHistoryPage) : Markup :=
  .fragment ((List.range' 1 page.total.toNat).map (pageOption page.current.toNat))

/-- Shows a page of transactions. -/
def TxHistoryPage.updates (ctx : RenderContext) (page : TxHistoryPage) : List Update :=
  [.html txHistoryLines (txTable ctx page),
    .text txHistoryPageCount (numeral page.total.toNat),
    .html txHistoryPages (pageOptions page)]

/-- The changes that make a view show a snapshot. -/
def Snapshot.updates (v : View) (ctx : RenderContext) : Snapshot → List Update
  | .balance data => data.updates
  | .blockHeight data => data.updates
  | .progress data => data.updates v
  | .txHistory page => page.updates ctx

end WalletPage
