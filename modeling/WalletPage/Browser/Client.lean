import WalletPage.Browser.Basic
import WalletPage.Json.Reader
import WalletPage.Snapshot.Payload

/-! Requests to the server. The reply is chosen when the request is sent; a held
reply waits for its address to be released. -/

namespace WalletPage.Browser

/-- The source of the log lines about requests. -/
def clientComponent : Component := ⟨.infrastructure, "WalletHttpClient"⟩

/-- What comes of a request that no server replies to. -/
def unreachable : HttpReply where
  rejection := some "TypeError: Failed to fetch"

/-- The replies that are left for an address. -/
def repliesFor (b : Browser) (url : String) : List HttpReply :=
  (b.replies.lookup url).getD []

/-- The browser with other replies for an address. -/
def setReplies (b : Browser) (url : String) (queue : List HttpReply) : Browser :=
  { b with replies := (url, queue) :: b.replies.filter (·.1 ≠ url) }

/-- The next reply from an address. The last one stays. -/
def takeReply (b : Browser) (url : String) : HttpReply × Browser :=
  match b.repliesFor url with
  | [] => (unreachable, b)
  | [last] => (last, b)
  | next :: rest => (next, b.setReplies url rest)

/-- What a reply comes to, apart from its body. -/
def checkReply (reply : HttpReply) : Fallible Unit :=
  match reply.rejection with
  | some reason => .error (NetworkProblem.requestFailed reason)
  | none =>
    if 200 ≤ reply.status ∧ reply.status < 300 then .ok ()
    else .error (NetworkProblem.badStatus reply.status reply.text)

/-- The JSON value in the body of a reply. -/
def readBody (reply : HttpReply) : Fallible Json := do
  checkReply reply
  match Json.parse reply.body with
  | .ok json => return json
  | .error fault => throw (NetworkProblem.invalidBody fault.message : Problem)

/-- Sends a request, and reads its reply. -/
def send {α : Type} (b : Browser) (method url : String) (fields : Option (List (String × String)))
    (read : HttpReply → Fallible α) : Reply (Fallible α) × Browser :=
  let (reply, b) := (b.record (.requested method url fields)).takeReply url
  (if reply.isHeld then .held url (read reply) else .ready (read reply), b)

/-- Why the fields of a form cannot be sent, if they cannot. -/
def formFailure? (b : Browser) (fields : List (String × String)) : Option String :=
  match b.thrown? .formData, fields.head?, b.thrown? .append, b.thrown? .request with
  | some text, _, _, _ => some ("FormData unavailable: " ++ shownText text)
  | none, some (name, _), some text, _ =>
    some ("Failed to append " ++ name ++ ": " ++ shownText text)
  | none, _, _, text => text

/-- Asks an address with the method `GET`. -/
def get {α : Type} (b : Browser) (url : String) (read : HttpReply → Fallible α) :
    Reply (Fallible α) × Browser :=
  (b.log .trace clientComponent ("GET " ++ url)).send "GET" url none read

/-- Asks an address with the method `POST`; without fields nothing is sent along. -/
def post {α : Type} (b : Browser) (url : String) (fields : List (String × String))
    (read : HttpReply → Fallible α) : Reply (Fallible α) × Browser :=
  let b := b.log .trace clientComponent ("POST " ++ url)
  if fields.isEmpty then b.send "POST" url none read
  else
    match b.formFailure? fields with
    | some reason => (.ready (.error (NetworkProblem.requestFailed reason)), b)
    | none => b.send "POST" url (some fields) read

/-- The fields of a question. -/
def requestFields (q : Request) : List (String × String) :=
  ("session_id", q.session.text) ::
    (q.page.map fun page => ("page", String.ofList (Decimal.natDigits page.toNat))).toList

/-- Asks the server for the snapshot of a view. -/
def fetch (b : Browser) (baseUrl : String) (q : Request) :
    Reply (Fallible (Option Snapshot)) × Browser :=
  let url := baseUrl ++ q.view.endpoint.path
  let read (reply : HttpReply) : Fallible (Option Snapshot) := do
    let payload ← readBody reply
    match Snapshot.ofPayload q.view payload with
    | .ok s => return s
    | .error p => throw (p : Problem)
  match q.view.endpoint.method with
  | .get => b.get url read
  | .postForm => b.post url (requestFields q) read

/-- Asks the server to shut down. -/
def askShutdown (b : Browser) (baseUrl : String) : Reply (Fallible Bool) × Browser :=
  b.post (baseUrl ++ shutdownPath) [] fun reply => (readBody reply).map isAcknowledged

/-- Tells the server that the page is still there. -/
def beat (b : Browser) (baseUrl : String) : Reply (Fallible Unit) × Browser :=
  b.send "POST" (baseUrl ++ heartbeatPath) none checkReply

end WalletPage.Browser
