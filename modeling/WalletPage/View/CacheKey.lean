import WalletPage.View.Basic
import WalletPage.Text.Marker

/-! The keys under which snapshots are stored: the session, a marker, and the
suffix of the view. A key is read back by cutting it at its first marker. -/

namespace WalletPage

/-- What stands between the session and the suffix of a cache key. -/
def cacheMarker : List Char :=
  ['_', 's', 't', 'o', 'r', 'e', 'd']

/-- Whether a key belongs to the snapshots, known or not. -/
def isSnapshotKey (key : String) : Bool :=
  Text.occursIn cacheMarker key.toList

namespace View

/-- The end of the view's cache keys. -/
def cacheSuffix : View → String
  | txHistory => "TxHistoryPageLines"
  | balance => "Balance"
  | blockHeight => "BlockHeight"
  | bootstrapperProgress => "BootstrapperProgress"
  | consensusBuilderProgress => "ConsensusBuilderProgress"

/-- The key under which a session stores the view. -/
def cacheKey (v : View) (session : String) : String :=
  String.ofList (session.toList ++ cacheMarker ++ v.cacheSuffix.toList)

/-- The session and the view of a cache key. -/
def ofCacheKey? (key : String) : Option (String × View) :=
  match Text.cut? cacheMarker key.toList with
  | none => none
  | some ([], _) => none
  | some (c :: cs, suffix) =>
    (all.find? (·.cacheSuffix.toList = suffix)).map fun v => (String.ofList (c :: cs), v)

end View

end WalletPage
