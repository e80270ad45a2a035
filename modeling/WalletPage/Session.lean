import WalletPage.Problem
import WalletPage.Text.Blank
import WalletPage.Json.Decode
import WalletPage.Json.Printer

/-! Sessions. A session id scopes requests and cache keys; the page supplies it. -/

namespace WalletPage

/-- The id of a session. -/
structure SessionId where
  text : String
deriving DecidableEq, Repr

namespace SessionId

/-- The scope of pages that have no session. -/
def anonymous : SessionId := ⟨"anonymous"⟩

/-- An id that may stand in a cache key: not empty, without blanks and without `_`. -/
def ofText (text : String) : Except ValidationProblem SessionId :=
  if text.isEmpty then .error (.invalidSession "session id cannot be empty")
  else if text.toList.any fun c => c = '_' || Text.isBlank c then .error (.invalidSession text)
  else .ok ⟨text⟩

/-- Whether the id is that of pages without a session. -/
def isAnonymous (s : SessionId) : Bool :=
  s = anonymous

/-- An id out of a document. -/
def ofDocument (d : Document) : Decoded SessionId :=
  d.string.map .mk

/-- An id as JSON. -/
def json (s : SessionId) : String :=
  (Json.string s.text).compact

end SessionId

end WalletPage
