import FermiSdk.Gateway
import FermiSdk.Lib.RefreshCache

/-!
# The fair price

`src/quoter.ts`: `CoinGeckoFairPriceProvider`. A call of `get` waits at `fetch` and at the body of the
response, and reads and writes the provider only before the first and after the second, so that its
answer is one event. Calls may overlap.
-/

namespace FermiSdk

open FermiSdk.Lib FermiSdk.Lib.Url FermiSdk.Gateway

/-- A property of a body, by its `typeof`. -/
inductive PriceProperty where
  | number (value : JsNumber)
  | other
  deriving DecidableEq

/-- What is read of a response. A body may not be JSON, and may have no such property. -/
structure PriceResponse where
  ok : Bool
  status : Int
  /-- The reader of `body[assetId]?.[vsCurrency]`, where `body` is `await response.json()`. -/
  body : Throws (String → String → Throws PriceProperty)

/-- A provider of one price, with its defaults. -/
structure CoinGeckoFairPriceProvider where
  assetId : String
  vsCurrency : String
  refreshMs : JsNumber := .int 10000
  apiBase : String := "https://api.coingecko.com/api/v3"

namespace CoinGeckoFairPriceProvider

/-- A call that waits, or what became of it. -/
abbrev Call := RefreshCache.Call JsNumber

/-- A call, with `Date.now()`, or the answer to one, unless `fetch` throws. -/
abbrev Event := RefreshCache.Event (Throws PriceResponse)

/-- The provider and the calls that were made. -/
structure State where
  cachedPrice : Option JsNumber
  lastFetchMs : Int
  calls : List Call

/-- Nothing was fetched. -/
def State.new : State := ⟨none, 0, []⟩

variable (provider : CoinGeckoFairPriceProvider)

/-- What is fetched. -/
def url : Bytes :=
  utf8 provider.apiBase ++ utf8 "/simple/price?ids=" ++ encodeURIComponent provider.assetId ++
    utf8 "&vs_currencies=" ++ encodeURIComponent provider.vsCurrency

/-- `Number.isFinite(price) && price > 0`. -/
def isPrice : JsNumber → Bool
  | .int value => 0 < value
  | .frac value _ => 0 < value
  | _ => false

/-- The price of a response. -/
def price (response : Throws PriceResponse) : Throws JsNumber := do
  let response ← response
  throwIf (!response.ok) s!"coingecko request failed: {response.status}"
  let body ← response.body
  match ← body provider.assetId provider.vsCurrency with
  | .other => throw "coingecko returned an invalid fair price"
  | .number price => do
    throwIf (!isPrice price) "coingecko returned an invalid fair price"
    pure price

/-- `now - lastFetchMs < refreshMs`. -/
def fresh (lastFetchMs now : Int) : Bool := provider.refreshMs.above (now - lastFetchMs)

/-- `get`, up to its first `await`. -/
def get (s : State) (now : Int) : Call :=
  match s.cachedPrice with
  | some price => if provider.fresh s.lastFetchMs now then .returned price else .asked now
  | none => .asked now

/-- A call, or the rest of the call that is answered. -/
def step (s : State) : Event → Option State
  | .get now => some { s with calls := s.calls ++ [provider.get s now] }
  | .answer i response =>
    match s.calls[i]? with
    | some (.asked now) =>
      match provider.price response with
      | .ok price => some {
        cachedPrice := some price
        lastFetchMs := now
        calls := s.calls.set i (.returned price) }
      | .error e => some { s with calls := s.calls.set i (.failed e) }
    | _ => none

end CoinGeckoFairPriceProvider

end FermiSdk
