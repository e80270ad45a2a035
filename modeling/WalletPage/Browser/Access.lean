import WalletPage.Browser.Client
import WalletPage.Browser.Clock
import WalletPage.Browser.Elements
import WalletPage.Browser.Storage

/-! A browser as the page of a service: each service has its own server address
and its own store. -/

namespace WalletPage

/-- The way of one service to the browser. -/
structure BrowserAccess where
  baseUrl : String
  store : StoreHandle
deriving DecidableEq, Repr

instance : Host BrowserAccess Browser where
  get? access key := fun b => b.read access.store key
  set access key value := fun b => b.write access.store key value
  remove access key := fun b => ((), b.erase access.store key)
  keys access := fun b => b.keysOf access.store
  anchorPresent _ target := fun b => (!(b.elementsOf target).isEmpty, b)
  apply _ u := fun b => b.applyUpdate u
  submitForm _ form := fun b => b.submitForm form
  replacePage _ container html := fun b => ((), b.replacePage container html)
  cacheBuster _ := fun b => (b.cacheBuster, b)
  fetch access q := fun b => b.fetch access.baseUrl q
  shutdown access := fun b => b.askShutdown access.baseUrl
  heartbeat access := fun b => b.beat access.baseUrl
  sleep _ ms := fun b => ((), b.record (.slept ms))
  log _ entry := fun b => ((), b.record (.logged entry))

end WalletPage
