import FermiSdk.Fees
import FermiSdk.Lib.Url
import Mathlib.Data.List.DropRight

/-!
# Requests to the gateway

`src/harness.ts`: the requests of `FermiV1StateClient`. `src/streams.ts`: the URLs that the streams
and the market snapshot are read from. A request is what `fetch` is called with; URLs and paths are
bytes, and a number is shown as `String` shows it (`NumberText`).
-/

namespace FermiSdk.Gateway

open FermiSdk.Lib FermiSdk.Lib.Percent FermiSdk.Lib.Url
open FermiSdk.Fees (KeyLike pubkeyStr)

/-! ## Keys -/

/-- `[0-9a-f]`, in either case. -/
def isHex (c : Char) : Bool :=
  ('0' ≤ c && c ≤ '9') || ('a' ≤ c && c ≤ 'f') || ('A' ≤ c && c ≤ 'F')

/-- `UUID_RE`. -/
def UUID_RE (text : String) : Bool :=
  text.toList.length = 36 &&
    text.toList.zipIdx.all fun (c, i) => if i ∈ [8, 13, 18, 23] then c = '-' else isHex c

/-- The header that carries the key. -/
def API_KEY_HEADER : String := "x-api-key"

/-- Throws at construction, so that a client without a key sends nothing. -/
def requireApiKey (key : Option String) (who : String) : Throws String :=
  match key.filter UUID_RE with
  | some key => pure key
  | none => throw (s!"{who}: apiKey is required and must be a UUID " ++
      "(set FERMI_API_KEY and pass it as the x-api-key)")

/-! ## URLs -/

/-- The bytes that `encodeURIComponent` leaves as they are: letters, digits and `-_.!~*'()`. -/
def uriSafe (b : UInt8) : Bool :=
  (65 ≤ b && b ≤ 90) || (97 ≤ b && b ≤ 122) || (48 ≤ b && b ≤ 57) ||
    b ∈ [45, 95, 46, 33, 126, 42, 39, 40, 41]

/-- A text is encoded by the bytes of its UTF-8. -/
def encodeURIComponent (text : String) : Bytes := encode uriSafe (utf8 text)

/-- `toString` of a `URLSearchParams`. -/
def searchParams (entries : List (String × String)) : Bytes :=
  serializeForm (entries.map fun entry => (utf8 entry.1, utf8 entry.2))

/-- `baseUrl.replace(/\/+$/, '')`. -/
def normalizeBaseUrl (baseUrl : Bytes) : Bytes := baseUrl.rdropWhile (· = slash)

/-- The entries of a query that are not `undefined`. -/
def presentEntries (query : List (String × Option String)) : List (String × String) :=
  query.filterMap fun entry => entry.2.map (entry.1, ·)

/-- No question mark without an entry. -/
def withQuery (path : Bytes) (query : List (String × Option String)) : Bytes :=
  let entries := presentEntries query
  if entries = [] then path else path ++ question :: searchParams entries

/-! ## Texts -/

/-- `string | number`. -/
inductive MarketLike where
  | text (value : String)
  | number (value : JsNumber)
  deriving DecidableEq

/-- `String(market)`. -/
def MarketLike.toText : MarketLike → String
  | .text value => value
  | .number value => toString value

/-- Whether a state includes what is queued. -/
inductive QueueView where
  | optimistic
  | confirmed
  deriving DecidableEq

/-- The view as the query has it. -/
def QueueView.text : QueueView → String
  | .optimistic => "optimistic"
  | .confirmed => "confirmed"

/-- `Math.floor`. -/
def floor : JsNumber → JsNumber
  | .frac value _ => .int value.floor
  | x => x

/-- `Math.max(lo, x)`. -/
def maxWith (lo : Int) : JsNumber → JsNumber
  | .int value => .int (max lo value)
  | .frac value fractional => if lo < value then .frac value fractional else .int lo
  | .nan => .nan
  | .infinity negative => if negative then .int lo else .infinity false

/-- A count in a query, at least `lo`. -/
def countText (lo : Int) (count : Option JsNumber) : Option String :=
  count.map fun count => toString (maxWith lo (floor count))

/-- A time in a query. -/
def timeText (time : Option JsNumber) : Option String := time.map fun time => toString (floor time)

/-- `new PublicKey(value).toBase58()`. -/
def canonicalText (value : KeyLike) : Throws String := do
  pure (← value.toPublicKey).toBase58

/-! ## Requests -/

/-- The two methods that the SDK uses. -/
inductive Method where
  | GET
  | POST
  deriving DecidableEq

/-- A value that `JSON.stringify` is given. -/
abbrev RequestJson := Json JsNumber String

/-- What `fetch` is called with. -/
structure Fetch where
  method : Method
  url : Bytes
  headers : List (String × String)
  body : Option RequestJson

/-- A client of one gateway, with its key. -/
structure FermiV1StateClient where
  baseUrl : Bytes
  apiKey : String

/-- A property that is left out of the JSON text if it is `undefined`. -/
def jsonField (name : String) (value : Option RequestJson) : List (String × RequestJson) :=
  (value.map (name, ·)).toList

namespace FermiV1StateClient

/-- `new FermiV1StateClient`. -/
def create (gatewayUrl : String) (apiKey : Option String) : Throws FermiV1StateClient := do
  throwIf (gatewayUrl = "") "FermiV1StateClient: gatewayUrl is required"
  pure {
    apiKey := ← requireApiKey apiKey "FermiV1StateClient"
    baseUrl := normalizeBaseUrl (utf8 gatewayUrl) }

variable (client : FermiV1StateClient)

/-- `request`, up to the call of `fetch`. -/
def request (method : Method) (path : Bytes) (body : Option RequestJson) : Fetch where
  method := method
  url := client.baseUrl ++ path
  headers := (API_KEY_HEADER, client.apiKey) ::
    if body.isSome then [("Content-Type", "application/json")] else []
  body := body

/-- The plain reads have neither a query nor a body. -/
def healthz : Fetch := client.request .GET (utf8 "/healthz") none

def livez : Fetch := client.request .GET (utf8 "/livez") none

/-- What the gateway is set up for. -/
def getConfig : Fetch := client.request .GET (utf8 "/config") none

/-- The first state that a client needs. -/
def getBootstrap : Fetch := client.request .GET (utf8 "/state/bootstrap") none

/-- The markets are one entry, joined by commas; no market is no entry. -/
def getMarkets (markets : Option (List MarketLike)) (view : Option QueueView)
    (depth : Option JsNumber) (book : Option String) : Fetch :=
  client.request .GET (withQuery (utf8 "/state/markets") [
    ("view", some (view.getD .optimistic).text),
    ("depth", countText 1 depth),
    ("book", book),
    ("markets", (markets.filter (· ≠ [])).map fun markets =>
      ",".intercalate (markets.map MarketLike.toText))]) none

/-- A market is named in the path, so its text is percent-encoded. -/
def getMarketStateDetails (market : MarketLike) (view : Option QueueView)
    (depth : Option JsNumber) : Fetch :=
  client.request .GET
    (withQuery (utf8 "/state/markets/" ++ encodeURIComponent market.toText) [
      ("view", some (view.getD .optimistic).text),
      ("depth", countText 1 depth)]) none

/-- The details without a depth. -/
def getMarketState (market : MarketLike) (view : QueueView) : Fetch :=
  client.getMarketStateDetails market (some view) none

/-- An owner is not checked here: any text is sent, percent-encoded. -/
def getUserState (owner : KeyLike) (view : QueueView) : Fetch :=
  client.request .GET
    (withQuery (utf8 "/state/users/" ++ encodeURIComponent (pubkeyStr owner))
      [("view", some view.text)]) none

/-- The orders of a market, of one owner if one is named. -/
def getOrders (market : MarketLike) (owner : Option KeyLike) (view : Option QueueView) : Fetch :=
  client.request .GET
    (withQuery (utf8 "/state/orders/" ++ encodeURIComponent market.toText) [
      ("view", some (view.getD .optimistic).text),
      ("owner", owner.map pubkeyStr)]) none

/-- The queue of a market has no view. -/
def getQueueState (market : MarketLike) : Fetch :=
  client.request .GET (utf8 "/state/queue/" ++ encodeURIComponent market.toText) none

/-- `flpSnapshot`, up to the call of `fetch`. -/
def flpSnapshot (path : Bytes) : Fetch := client.request .GET path none

/-- A vault must be a key, and its canonical text is sent. -/
def getFlpVault (vault : KeyLike) : Throws Fetch := do
  pure (client.flpSnapshot (utf8 "/state/vaults/" ++ utf8 (← canonicalText vault)))

/-- The positions of a vault. -/
def getFlpVaultPortfolio (vault : KeyLike) : Throws Fetch := do
  pure (client.flpSnapshot
    (utf8 "/state/vaults/" ++ utf8 (← canonicalText vault) ++ utf8 "/portfolio"))

/-- The position of a user in a vault. Both must be keys. -/
def getFlpVaultUser (vault owner : KeyLike) : Throws Fetch := do
  pure (client.flpSnapshot
    (utf8 "/state/vaults/" ++ utf8 (← canonicalText vault) ++ utf8 "/users/" ++
      utf8 (← canonicalText owner)))

/-- Like `getUserState`, with another path. -/
def getBalances (owner : KeyLike) (view : QueueView) : Fetch :=
  client.request .GET
    (withQuery (utf8 "/state/balances/" ++ encodeURIComponent (pubkeyStr owner))
      [("view", some view.text)]) none

/-- Trades of a market, of an owner, of both or of neither. -/
def queryTrades (market : Option MarketLike) (owner : Option KeyLike) (view : Option QueueView)
    (limit : Option JsNumber) : Fetch :=
  client.request .GET (withQuery (utf8 "/state/trades") [
    ("view", some (view.getD .optimistic).text),
    ("market", market.map MarketLike.toText),
    ("owner", owner.map pubkeyStr),
    ("limit", countText 0 limit)]) none

/-- The trades of one market, which the path names. -/
def getTrades (market : MarketLike) (view : Option QueueView) (limit : Option JsNumber) : Fetch :=
  client.request .GET
    (withQuery (utf8 "/state/trades/" ++ encodeURIComponent market.toText) [
      ("view", some (view.getD .optimistic).text),
      ("limit", countText 0 limit)]) none

/-- The time frame of a bar size in seconds. -/
def resolutionToTf (resolutionSec : JsNumber) : Option String :=
  if resolutionSec = .int 60 then some "1m"
  else if resolutionSec = .int 300 then some "5m"
  else if resolutionSec = .int 900 then some "15m"
  else if resolutionSec = .int 3600 then some "1h"
  else if resolutionSec = .int 14400 then some "4h"
  else if resolutionSec = .int 86400 then some "1d"
  else none

/-- The time frame that `getCandles` asks for. -/
def candleFrame (timeframe : Option String) (resolutionSec : Option JsNumber) : String :=
  (timeframe.or (resolutionSec.bind resolutionToTf)).getD "1m"

/-- Times are in seconds, and `resolutionSec` is only used without a time frame. -/
def getCandles (market : MarketLike) (timeframe : Option String)
    (fromSec toSec limit resolutionSec : Option JsNumber) : Fetch :=
  client.request .GET
    (withQuery (utf8 "/ohlc/" ++ encodeURIComponent market.toText) [
      ("tf", some (candleFrame timeframe resolutionSec)),
      ("from", timeText fromSec),
      ("to", timeText toSec),
      ("limit", countText 0 limit)]) none

/-- All markets at once. -/
def getFullState (view : QueueView) : Fetch :=
  client.request .GET (withQuery (utf8 "/state/full") [("view", some view.text)]) none

/-- The same path, with the market in the query. -/
def getFullStateForMarket (market : MarketLike) (view : QueueView) : Fetch :=
  client.request .GET
    (withQuery (utf8 "/state/full") [("market", some market.toText), ("view", some view.text)]) none

/-- The relayer behind the gateway gets the intent as it is. -/
def submitRelayIntent (intent : RequestJson) : Fetch :=
  client.request .POST (utf8 "/relay/submit-intent") (some intent)

/-- Test funds, to a wallet or into an account. -/
def airdropUsdc (params : RequestJson) : Fetch :=
  client.request .POST (utf8 "/airdrop") (some params)

def airdropDepositUsdc (params : RequestJson) : Fetch :=
  client.request .POST (utf8 "/airdrop-deposit") (some params)

/-- Only a deployment without the proxy answers this. -/
def adminReplay : Fetch := client.request .POST (utf8 "/admin/replay") (some (.object []))

/-- `owner` and `mango_account` of a simulation. -/
def simulationKeys (owner : KeyLike) (fermiAccount : Option KeyLike) : List (String × RequestJson) :=
  ("owner", .string (pubkeyStr owner)) ::
    jsonField "mango_account" (fermiAccount.map fun account => .string (pubkeyStr account))

/-- Prepares the gateway for the simulations of an owner. -/
def simulateWarm (owner : KeyLike) (fermiAccount : Option KeyLike) : Fetch :=
  client.request .POST (utf8 "/simulate/warm") (some (.object (simulationKeys owner fermiAccount)))

/-- A trade is simulated, not sent. -/
def simulate (owner : KeyLike) (fermiAccount : Option KeyLike) (trade : RequestJson) : Fetch :=
  client.request .POST (utf8 "/simulate")
    (some (.object (simulationKeys owner fermiAccount ++ [("trade", trade)])))

end FermiV1StateClient

/-! ## Streams -/

/-- `buildUrl`. No path of the SDK needs the slash that the source would add. -/
def buildUrl (base path : Bytes) (query : Option (List (String × Option String))) : Bytes :=
  let url := normalizeBaseUrl base ++ if path.head? = some slash then path else slash :: path
  match query with
  | none => url
  | some query =>
    let qs := searchParams (presentEntries query)
    if qs = [] then url else url ++ question :: qs

/-- `gatewayUrl` and `apiKey` of the options of a stream. -/
structure StreamOptions where
  gatewayUrl : String
  apiKey : Option String

section

variable (opts : StreamOptions)

/-- The headers that a stream is read with. -/
def streamHeaders (apiKey : String) (lastEventId : Option String) : List (String × String) :=
  [(API_KEY_HEADER, apiKey), ("accept", "text/event-stream")] ++
    ((lastEventId.filter (· ≠ "")).map ("last-event-id", ·)).toList

/-- `sseSubscribe`, up to the call of `fetch`, after the check of the key. -/
def sseRequest (who : String) (path : Bytes) (query : Option (List (String × Option String)))
    (lastEventId : Option String) : Throws Fetch := do
  let apiKey ← requireApiKey opts.apiKey who
  pure {
    method := .GET
    url := buildUrl (utf8 opts.gatewayUrl) path query
    headers := streamHeaders apiKey lastEventId
    body := none }

/-- Every market. -/
def subscribeStateStream : Throws Fetch :=
  sseRequest opts "subscribeStateStream" (utf8 "/state/stream") none none

/-- The gateway needs something to scope the stream by. Empty texts do not count. -/
def subscribeFrontendStream (owner fermiAccount : Option String) (market : Option MarketLike) :
    Throws Fetch := do
  let _ ← requireApiKey opts.apiKey "subscribeFrontendStream"
  throwIf (owner.getD "" = "" ∧ fermiAccount.getD "" = "" ∧ market = none)
    "subscribeFrontendStream: at least one of owner / fermiAccount / market is required"
  sseRequest opts "subscribeFrontendStream" (utf8 "/state/stream/frontend")
    (some [("owner", owner), ("mango_account", fermiAccount),
      ("market", market.map MarketLike.toText)]) none

/-- All trades, one in a frame. -/
def subscribeTradeStream : Throws Fetch :=
  sseRequest opts "subscribeTradeStream" (utf8 "/state/stream/trades") none none

/-- The same from the durable stream. -/
def subscribeV2TradeStream : Throws Fetch :=
  sseRequest opts "subscribeV2TradeStream" (utf8 "/v2/stream/trades") none none

/-- `from` or the header `last-event-id` resumes after an event. -/
def subscribeMarketEvents (market : MarketLike) (start lastEventId : Option String) : Throws Fetch :=
  sseRequest opts "subscribeMarketEvents"
    (utf8 "/v2/events/" ++ encodeURIComponent market.toText) (some [("from", start)]) lastEventId

/-- The events of a market, filtered for a frontend. -/
def subscribeMarketFrontendStream (market : MarketLike) : Throws Fetch :=
  sseRequest opts "subscribeMarketFrontendStream"
    (utf8 "/v2/stream/frontend/" ++ encodeURIComponent market.toText) none none

/-- A snapshot with the cursor to resume from. This is no stream, hence no `accept`. -/
def snapshotAndStreamMarket (market : MarketLike) : Throws Fetch := do
  let apiKey ← requireApiKey opts.apiKey "snapshotAndStreamMarket"
  pure {
    method := .GET
    url := buildUrl (utf8 opts.gatewayUrl)
      (utf8 "/v2/events/snapshot-and-stream/" ++ encodeURIComponent market.toText) none
    headers := [(API_KEY_HEADER, apiKey)]
    body := none }

end

end FermiSdk.Gateway
