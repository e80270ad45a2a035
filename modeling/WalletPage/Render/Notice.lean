import WalletPage.Render.Update

/-! The notice that takes the place of the page once the server has shut down. -/

namespace WalletPage

/-- The container that the notice replaces. -/
def contentContainer : String := "content"

/-- The notice that the server has shut down. -/
def shutdownNotice (baseUrl : String) : Markup :=
  .fragment
    [.element "div" [attr "class" "col-5 left top no-wrap"]
        [.element "div" []
          [.element "img"
            [attr "class" "scprime-logo", attr "alt" "ScPrime Web Wallet",
              attr "src" (baseUrl ++ "/gui/logo.png")] []]],
      .element "div" [attr "id" "popup", attr "class" "popup center"]
        [.element "h2" [attr "class" "uppercase"] [.text "Shutdown Notice"],
          .element "div" [attr "class" "middle pad blue-dashed", attr "id" "popup_content"]
            [.text "Wallet was shutdown. You can now close your browser."]],
      .element "div" [attr "id" "fade", attr "class" "fade"] []]

end WalletPage
