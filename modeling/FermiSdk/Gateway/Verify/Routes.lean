import FermiSdk.Gateway

/-!
# What the gateway receives

A caller names texts: a market, an owner, the entries of a query. They travel in a URL. `Call.target`
says what a call asks for, without a URL; the gateway, wherever it is mounted and however many slashes
end the URL that the client was given, receives just that (`call_received`), except that no path can
carry the texts `.` and `..`.
-/

namespace FermiSdk.Gateway

open FermiSdk.Lib FermiSdk.Lib.Percent FermiSdk.Lib.Url
open FermiSdk.Fees (KeyLike pubkeyStr)

/-! ## Calls -/

/-- A call of the state client, or of a stream. -/
inductive Call where
  | healthz
  | livez
  | getConfig
  | getBootstrap
  | getMarkets (markets : Option (List MarketLike)) (view : Option QueueView)
    (depth : Option JsNumber) (book : Option String)
  | getMarketStateDetails (market : MarketLike) (view : Option QueueView) (depth : Option JsNumber)
  | getMarketState (market : MarketLike) (view : QueueView)
  | getUserState (owner : KeyLike) (view : QueueView)
  | getOrders (market : MarketLike) (owner : Option KeyLike) (view : Option QueueView)
  | getQueueState (market : MarketLike)
  | getFlpVault (vault : KeyLike)
  | getFlpVaultPortfolio (vault : KeyLike)
  | getFlpVaultUser (vault owner : KeyLike)
  | getBalances (owner : KeyLike) (view : QueueView)
  | queryTrades (market : Option MarketLike) (owner : Option KeyLike) (view : Option QueueView)
    (limit : Option JsNumber)
  | getTrades (market : MarketLike) (view : Option QueueView) (limit : Option JsNumber)
  | getCandles (market : MarketLike) (timeframe : Option String)
    (fromSec toSec limit resolutionSec : Option JsNumber)
  | getFullState (view : QueueView)
  | getFullStateForMarket (market : MarketLike) (view : QueueView)
  | submitRelayIntent (intent : RequestJson)
  | airdropUsdc (params : RequestJson)
  | airdropDepositUsdc (params : RequestJson)
  | adminReplay
  | simulateWarm (owner : KeyLike) (fermiAccount : Option KeyLike)
  | simulate (owner : KeyLike) (fermiAccount : Option KeyLike) (trade : RequestJson)
  | subscribeStateStream
  | subscribeFrontendStream (owner fermiAccount : Option String) (market : Option MarketLike)
  | subscribeTradeStream
  | subscribeV2TradeStream
  | subscribeMarketEvents (market : MarketLike) (start lastEventId : Option String)
  | subscribeMarketFrontendStream (market : MarketLike)
  | snapshotAndStreamMarket (market : MarketLike)

/-- A call of the state client. -/
def stateCall (gatewayUrl : String) (apiKey : Option String)
    (call : FermiV1StateClient → Throws Fetch) : Throws Fetch := do
  call (← FermiV1StateClient.create gatewayUrl apiKey)

/-- What `fetch` is called with, if the call gets that far. -/
def Call.fetch (gatewayUrl : String) (apiKey : Option String) : Call → Throws Fetch
  | .healthz => stateCall gatewayUrl apiKey fun client => pure client.healthz
  | .livez => stateCall gatewayUrl apiKey fun client => pure client.livez
  | .getConfig => stateCall gatewayUrl apiKey fun client => pure client.getConfig
  | .getBootstrap => stateCall gatewayUrl apiKey fun client => pure client.getBootstrap
  | .getMarkets markets view depth book => stateCall gatewayUrl apiKey fun client =>
    pure (client.getMarkets markets view depth book)
  | .getMarketStateDetails market view depth => stateCall gatewayUrl apiKey fun client =>
    pure (client.getMarketStateDetails market view depth)
  | .getMarketState market view => stateCall gatewayUrl apiKey fun client =>
    pure (client.getMarketState market view)
  | .getUserState owner view => stateCall gatewayUrl apiKey fun client =>
    pure (client.getUserState owner view)
  | .getOrders market owner view => stateCall gatewayUrl apiKey fun client =>
    pure (client.getOrders market owner view)
  | .getQueueState market => stateCall gatewayUrl apiKey fun client =>
    pure (client.getQueueState market)
  | .getFlpVault vault => stateCall gatewayUrl apiKey fun client => client.getFlpVault vault
  | .getFlpVaultPortfolio vault => stateCall gatewayUrl apiKey fun client =>
    client.getFlpVaultPortfolio vault
  | .getFlpVaultUser vault owner => stateCall gatewayUrl apiKey fun client =>
    client.getFlpVaultUser vault owner
  | .getBalances owner view => stateCall gatewayUrl apiKey fun client =>
    pure (client.getBalances owner view)
  | .queryTrades market owner view limit => stateCall gatewayUrl apiKey fun client =>
    pure (client.queryTrades market owner view limit)
  | .getTrades market view limit => stateCall gatewayUrl apiKey fun client =>
    pure (client.getTrades market view limit)
  | .getCandles market timeframe fromSec toSec limit resolutionSec =>
    stateCall gatewayUrl apiKey fun client =>
      pure (client.getCandles market timeframe fromSec toSec limit resolutionSec)
  | .getFullState view => stateCall gatewayUrl apiKey fun client => pure (client.getFullState view)
  | .getFullStateForMarket market view => stateCall gatewayUrl apiKey fun client =>
    pure (client.getFullStateForMarket market view)
  | .submitRelayIntent intent => stateCall gatewayUrl apiKey fun client =>
    pure (client.submitRelayIntent intent)
  | .airdropUsdc params => stateCall gatewayUrl apiKey fun client =>
    pure (client.airdropUsdc params)
  | .airdropDepositUsdc params => stateCall gatewayUrl apiKey fun client =>
    pure (client.airdropDepositUsdc params)
  | .adminReplay => stateCall gatewayUrl apiKey fun client => pure client.adminReplay
  | .simulateWarm owner fermiAccount => stateCall gatewayUrl apiKey fun client =>
    pure (client.simulateWarm owner fermiAccount)
  | .simulate owner fermiAccount trade => stateCall gatewayUrl apiKey fun client =>
    pure (client.simulate owner fermiAccount trade)
  | .subscribeStateStream => Gateway.subscribeStateStream ⟨gatewayUrl, apiKey⟩
  | .subscribeFrontendStream owner fermiAccount market =>
    Gateway.subscribeFrontendStream ⟨gatewayUrl, apiKey⟩ owner fermiAccount market
  | .subscribeTradeStream => Gateway.subscribeTradeStream ⟨gatewayUrl, apiKey⟩
  | .subscribeV2TradeStream => Gateway.subscribeV2TradeStream ⟨gatewayUrl, apiKey⟩
  | .subscribeMarketEvents market start lastEventId =>
    Gateway.subscribeMarketEvents ⟨gatewayUrl, apiKey⟩ market start lastEventId
  | .subscribeMarketFrontendStream market =>
    Gateway.subscribeMarketFrontendStream ⟨gatewayUrl, apiKey⟩ market
  | .snapshotAndStreamMarket market => Gateway.snapshotAndStreamMarket ⟨gatewayUrl, apiKey⟩ market

/-- What a call asks for. -/
structure Asked where
  method : Method
  segments : List String
  query : List (String × Option String)
  body : Option RequestJson

/-- A read. -/
def reading (segments : List String) (query : List (String × Option String)) : Asked where
  method := .GET
  segments := segments
  query := query
  body := none

/-- A write. -/
def posting (segments : List String) (body : RequestJson) : Asked where
  method := .POST
  segments := segments
  query := []
  body := some body

/-- The view of a query. -/
def viewEntry (view : Option QueueView) : String × Option String :=
  ("view", some (view.getD .optimistic).text)

/-- What a call asks for, unless it names a key that is none, or a scope that is empty. -/
def Call.asks : Call → Option Asked
  | .healthz => some (reading ["healthz"] [])
  | .livez => some (reading ["livez"] [])
  | .getConfig => some (reading ["config"] [])
  | .getBootstrap => some (reading ["state", "bootstrap"] [])
  | .getMarkets markets view depth book => some (reading ["state", "markets"] [
    viewEntry view, ("depth", countText 1 depth), ("book", book),
    ("markets", (markets.filter (· ≠ [])).map fun markets =>
      ",".intercalate (markets.map MarketLike.toText))])
  | .getMarketStateDetails market view depth => some (reading ["state", "markets", market.toText]
    [viewEntry view, ("depth", countText 1 depth)])
  | .getMarketState market view => some (reading ["state", "markets", market.toText]
    [viewEntry (some view)])
  | .getUserState owner view => some (reading ["state", "users", pubkeyStr owner]
    [viewEntry (some view)])
  | .getOrders market owner view => some (reading ["state", "orders", market.toText]
    [viewEntry view, ("owner", owner.map pubkeyStr)])
  | .getQueueState market => some (reading ["state", "queue", market.toText] [])
  | .getFlpVault vault => (canonicalText vault).toOption.map fun vault =>
    reading ["state", "vaults", vault] []
  | .getFlpVaultPortfolio vault => (canonicalText vault).toOption.map fun vault =>
    reading ["state", "vaults", vault, "portfolio"] []
  | .getFlpVaultUser vault owner => do
    pure (reading ["state", "vaults", ← (canonicalText vault).toOption, "users",
      ← (canonicalText owner).toOption] [])
  | .getBalances owner view => some (reading ["state", "balances", pubkeyStr owner]
    [viewEntry (some view)])
  | .queryTrades market owner view limit => some (reading ["state", "trades"] [
    viewEntry view, ("market", market.map MarketLike.toText), ("owner", owner.map pubkeyStr),
    ("limit", countText 0 limit)])
  | .getTrades market view limit => some (reading ["state", "trades", market.toText]
    [viewEntry view, ("limit", countText 0 limit)])
  | .getCandles market timeframe fromSec toSec limit resolutionSec =>
    some (reading ["ohlc", market.toText] [
      ("tf", some (FermiV1StateClient.candleFrame timeframe resolutionSec)),
      ("from", timeText fromSec), ("to", timeText toSec), ("limit", countText 0 limit)])
  | .getFullState view => some (reading ["state", "full"] [viewEntry (some view)])
  | .getFullStateForMarket market view => some (reading ["state", "full"]
    [("market", some market.toText), viewEntry (some view)])
  | .submitRelayIntent intent => some (posting ["relay", "submit-intent"] intent)
  | .airdropUsdc params => some (posting ["airdrop"] params)
  | .airdropDepositUsdc params => some (posting ["airdrop-deposit"] params)
  | .adminReplay => some (posting ["admin", "replay"] (.object []))
  | .simulateWarm owner fermiAccount => some (posting ["simulate", "warm"]
    (.object (FermiV1StateClient.simulationKeys owner fermiAccount)))
  | .simulate owner fermiAccount trade => some (posting ["simulate"]
    (.object (FermiV1StateClient.simulationKeys owner fermiAccount ++ [("trade", trade)])))
  | .subscribeStateStream => some (reading ["state", "stream"] [])
  | .subscribeFrontendStream owner fermiAccount market =>
    if owner.getD "" = "" ∧ fermiAccount.getD "" = "" ∧ market = none then none
    else some (reading ["state", "stream", "frontend"] [("owner", owner),
      ("mango_account", fermiAccount), ("market", market.map MarketLike.toText)])
  | .subscribeTradeStream => some (reading ["state", "stream", "trades"] [])
  | .subscribeV2TradeStream => some (reading ["v2", "stream", "trades"] [])
  | .subscribeMarketEvents market start _ => some (reading ["v2", "events", market.toText]
    [("from", start)])
  | .subscribeMarketFrontendStream market =>
    some (reading ["v2", "stream", "frontend", market.toText] [])
  | .snapshotAndStreamMarket market =>
    some (reading ["v2", "events", "snapshot-and-stream", market.toText] [])

/-- What the gateway is to receive. -/
def Asked.target (asked : Asked) : Target where
  segments := asked.segments.map utf8
  query := (presentEntries asked.query).map fun entry => (utf8 entry.1, utf8 entry.2)

/-- A request that carries what was asked to a gateway. -/
structure Asked.Sent (asked : Asked) (mount : Mount) (apiKey : String) (fetch : Fetch) : Prop where
  method : fetch.method = asked.method
  body : fetch.body = asked.body
  key : fetch.headers.lookup API_KEY_HEADER = some apiKey
  /-- A path cannot carry a text of one or two dots, and carries every other one. -/
  received : mount.receive fetch.url = some asked.target ↔
    ∀ text ∈ asked.segments, text ≠ "." ∧ text ≠ ".."

/-- One request is sent that carries what was asked, if anything was. -/
def Carries (mount : Mount) (apiKey : String) (asks : Option Asked) (result : Throws Fetch) : Prop :=
  match asks with
  | some asked => ∃ fetch, result = .ok fetch ∧ asked.Sent mount apiKey fetch
  | none => ∃ e, result = .error e

/-- The same, if there is a key to ask with; otherwise nothing is sent. -/
def Sends (mount : Mount) (apiKey : Option String) (asks : Option Asked) (result : Throws Fetch) :
    Prop :=
  match apiKey.filter UUID_RE with
  | some apiKey => Carries mount apiKey asks result
  | none => ∃ e, result = .error e

/-! ## Paths and queries -/

/-- The path of texts. -/
def routePath (segments : List String) : Bytes := pathText (segments.map encodeURIComponent)

section

variable {mount : Mount} {apiKey gatewayUrl : String} {segments : List String}
  {query : List (String × Option String)} {asked : Asked}

theorem uriSafe_separators : ∀ b ∈ separators, uriSafe b = false :=
  forall_separators.2 ⟨rfl, rfl, rfl, rfl⟩

theorem withQuery_eq {path : Bytes} :
    withQuery path asked.query = path ++ Mount.queryText asked.target.query := by
  unfold withQuery Asked.target
  dsimp only
  cases presentEntries asked.query with
  | nil => exact (List.append_nil path).symm
  | cons entry entries => rfl

theorem searchParams_ne_nil (entry : String × String) (entries : List (String × String)) :
    searchParams (entry :: entries) ≠ [] := by
  intro h
  have hentries := parseForm_serializeForm
    ((entry :: entries).map fun entry => (utf8 entry.1, utf8 entry.2))
  rw [← searchParams, h] at hentries
  cases hentries

/-- The two texts that a path cannot carry. -/
theorem utf8_mem_dots {text : String} : utf8 text ∈ dots ↔ text = "." ∨ text = ".." := by
  have hone : [46] = utf8 "." := rfl
  have htwo : [46, 46] = utf8 ".." := rfl
  rw [dots, List.mem_cons, List.mem_singleton, htwo, hone, utf8_injective.eq_iff,
    utf8_injective.eq_iff]

/-- What a mount receives of a request below it. -/
theorem receive_route :
    mount.receive (mount.url ++ withQuery (routePath asked.segments) asked.query) =
      some asked.target ↔ ∀ text ∈ asked.segments, text ≠ "." ∧ text ≠ ".." := by
  have hpath : routePath asked.segments =
      pathText (asked.target.segments.map (encode uriSafe)) := by
    rw [routePath, Asked.target, List.map_map]
    rfl
  rw [withQuery_eq, ← List.append_assoc, hpath, Mount.receive_encoded rfl uriSafe_separators]
  simp only [Asked.target, List.forall_mem_map, utf8_mem_dots, not_or]

theorem routePath_append (segments segments' : List String) :
    routePath (segments ++ segments') = routePath segments ++ routePath segments' := by
  rw [routePath, List.map_append, pathText, List.flatMap_append]
  rfl

theorem routePath_singleton (text : String) :
    routePath [text] = slash :: encodeURIComponent text := by
  rw [routePath, List.map_singleton, pathText, List.flatMap_singleton]

/-- A path that ends with a text. -/
theorem routePath_concat {literal text : String} (h : utf8 literal = routePath segments ++ [slash]) :
    utf8 literal ++ encodeURIComponent text = routePath (segments ++ [text]) := by
  rw [h, routePath_append, routePath_singleton, List.append_assoc, List.singleton_append]

theorem uriSafe_digitChar :
    ∀ d < 58, ∀ b ∈ String.utf8EncodeChar (Base58.digitChar d), uriSafe b = true := by
  decide +kernel

/-- The text of a key needs no escapes. -/
theorem encodeURIComponent_toBase58 (key : PublicKey) :
    encodeURIComponent key.toBase58 = utf8 key.toBase58 := by
  refine encode_eq_self fun b hb => ?_
  obtain ⟨c, hc, hb⟩ := List.mem_flatMap.1 hb
  rw [PublicKey.toBase58, Base58.encode, String.toList_ofList] at hc
  obtain ⟨d, hd, rfl⟩ := List.mem_map.1 hc
  exact uriSafe_digitChar d (Base58.lt_of_mem_rebase hd) b hb

/-! ## The base URL -/

/-- The URL that a client is given: that of the mount, with any number of slashes after it. -/
def Mounted (mount : Mount) (gatewayUrl : String) : Prop :=
  ∃ slashes, utf8 gatewayUrl = mount.url ++ List.replicate slashes slash

theorem normalizeBaseUrl_eq (h : Mounted mount gatewayUrl) :
    normalizeBaseUrl (utf8 gatewayUrl) = mount.url := by
  obtain ⟨slashes, h⟩ := h
  rw [h, normalizeBaseUrl, Mount.rdropWhile_url]

theorem create_eq (h : Mounted mount gatewayUrl) (apiKey : Option String) :
    FermiV1StateClient.create gatewayUrl apiKey =
      (requireApiKey apiKey "FermiV1StateClient").map fun apiKey => ⟨mount.url, apiKey⟩ := by
  have hne : gatewayUrl ≠ "" := by
    rintro rfl
    obtain ⟨slashes, h⟩ := h
    obtain ⟨init, b, hurl, -⟩ := mount.exists_url_eq
    rw [hurl] at h
    have hnil := congrArg List.length h
    simp [utf8] at hnil
  rw [FermiV1StateClient.create, normalizeBaseUrl_eq h, Throws.throwIf_of_not hne]
  cases requireApiKey apiKey "FermiV1StateClient" <;> rfl

/-! ## Requests -/

theorem carries_sent {fetch : Fetch} (h : asked.Sent mount apiKey fetch) :
    Carries mount apiKey (some asked) (.ok fetch) :=
  ⟨fetch, rfl, h⟩

theorem carries_refused (e : String) : Carries mount apiKey none (.error e) := ⟨e, rfl⟩

/-- What the state client sends. -/
theorem sent_request {path : Bytes} (hpath : path = routePath asked.segments) :
    asked.Sent mount apiKey (FermiV1StateClient.request ⟨mount.url, apiKey⟩ asked.method
      (withQuery path asked.query) asked.body) where
  method := rfl
  body := rfl
  key := rfl
  received := by
    rw [hpath]
    exact receive_route

/-- A call of the state client sends what it asks for, or nothing. -/
theorem sends_stateCall (h : Mounted mount gatewayUrl) {apiKey : Option String}
    {asks : Option Asked} {call : FermiV1StateClient → Throws Fetch}
    (hcall : ∀ apiKey, Carries mount apiKey asks (call ⟨mount.url, apiKey⟩)) :
    Sends mount apiKey asks (stateCall gatewayUrl apiKey call) := by
  unfold Sends stateCall
  rw [create_eq h, requireApiKey]
  cases apiKey.filter UUID_RE with
  | none => exact ⟨_, rfl⟩
  | some apiKey => exact hcall apiKey

/-- A call of the state client that asks for what a path of its own and a query say. -/
theorem sends_state (h : Mounted mount gatewayUrl) {apiKey : Option String} {path : Bytes}
    {call : FermiV1StateClient → Fetch}
    (hcall : ∀ client : FermiV1StateClient, call client =
      client.request asked.method (withQuery path asked.query) asked.body)
    (hpath : path = routePath asked.segments) :
    Sends mount apiKey (some asked)
      (stateCall gatewayUrl apiKey fun client => pure (call client)) := by
  refine sends_stateCall h fun apiKey => carries_sent ?_
  rw [hcall]
  exact sent_request hpath

/-- A read of a path without a query. -/
theorem sent_path {path : Bytes} (hpath : path = routePath segments) :
    (reading segments []).Sent mount apiKey
      (FermiV1StateClient.flpSnapshot ⟨mount.url, apiKey⟩ path) :=
  @sent_request mount apiKey (reading segments []) path hpath

/-- The text of a key. -/
theorem exists_key {value : KeyLike} {text : String} (h : canonicalText value = .ok text) :
    ∃ key : PublicKey, text = key.toBase58 := by
  simp only [canonicalText, Throws.bind_eq_ok, Throws.pure_eq_ok] at h
  obtain ⟨key, -, rfl⟩ := h
  exact ⟨key, rfl⟩

theorem vault_path (vault : PublicKey) :
    utf8 "/state/vaults/" ++ utf8 vault.toBase58 = routePath ["state", "vaults", vault.toBase58] := by
  rw [← encodeURIComponent_toBase58]
  exact @routePath_concat ["state", "vaults"] _ _ rfl

theorem portfolio_path (vault : PublicKey) :
    utf8 "/state/vaults/" ++ utf8 vault.toBase58 ++ utf8 "/portfolio" =
      routePath ["state", "vaults", vault.toBase58, "portfolio"] := by
  rw [vault_path]
  exact (routePath_append ["state", "vaults", vault.toBase58] ["portfolio"]).symm

theorem user_path (vault owner : PublicKey) :
    utf8 "/state/vaults/" ++ utf8 vault.toBase58 ++ utf8 "/users/" ++ utf8 owner.toBase58 =
      routePath ["state", "vaults", vault.toBase58, "users", owner.toBase58] := by
  rw [vault_path, List.append_assoc, ← encodeURIComponent_toBase58 owner,
    @routePath_concat ["users"] _ _ rfl]
  exact (routePath_append ["state", "vaults", vault.toBase58] ["users", owner.toBase58]).symm

theorem carries_vault {vault : KeyLike} :
    Carries mount apiKey ((canonicalText vault).toOption.map fun vault =>
      reading ["state", "vaults", vault] []) (FermiV1StateClient.getFlpVault ⟨mount.url, apiKey⟩ vault) := by
  unfold FermiV1StateClient.getFlpVault
  cases hvault : canonicalText vault with
  | error e => exact carries_refused e
  | ok text =>
    obtain ⟨key, rfl⟩ := exists_key hvault
    exact carries_sent (sent_path (vault_path key))

theorem carries_portfolio {vault : KeyLike} :
    Carries mount apiKey ((canonicalText vault).toOption.map fun vault =>
      reading ["state", "vaults", vault, "portfolio"] [])
      (FermiV1StateClient.getFlpVaultPortfolio ⟨mount.url, apiKey⟩ vault) := by
  unfold FermiV1StateClient.getFlpVaultPortfolio
  cases hvault : canonicalText vault with
  | error e => exact carries_refused e
  | ok text =>
    obtain ⟨key, rfl⟩ := exists_key hvault
    exact carries_sent (sent_path (portfolio_path key))

theorem carries_user {vault owner : KeyLike} :
    Carries mount apiKey (do
      pure (reading ["state", "vaults", ← (canonicalText vault).toOption, "users",
        ← (canonicalText owner).toOption] []))
      (FermiV1StateClient.getFlpVaultUser ⟨mount.url, apiKey⟩ vault owner) := by
  unfold FermiV1StateClient.getFlpVaultUser
  cases hvault : canonicalText vault with
  | error e => exact carries_refused e
  | ok text =>
    obtain ⟨key, rfl⟩ := exists_key hvault
    cases howner : canonicalText owner with
    | error e => exact carries_refused e
    | ok ownerText =>
      obtain ⟨ownerKey, rfl⟩ := exists_key howner
      exact carries_sent (sent_path (user_path key ownerKey))

/-- Both clients write a query in the same way. -/
theorem buildUrl_eq (h : Mounted mount gatewayUrl) {path : Bytes}
    {query : Option (List (String × Option String))} (hpath : path.head? = some slash) :
    buildUrl (utf8 gatewayUrl) path query = mount.url ++ withQuery path (query.getD []) := by
  unfold buildUrl withQuery
  rw [normalizeBaseUrl_eq h, if_pos hpath]
  cases query with
  | none => rfl
  | some query =>
    rw [Option.getD_some]
    dsimp only
    cases presentEntries query with
    | nil => rfl
    | cons entry entries =>
      rw [if_neg (searchParams_ne_nil entry entries), if_neg (List.cons_ne_nil entry entries),
        List.append_assoc]

/-- A stream is read with one request that carries what was asked. -/
theorem sends_stream (h : Mounted mount gatewayUrl) {apiKey : Option String} {who : String}
    {path : Bytes} {optionalQuery : Option (List (String × Option String))}
    {headers : String → List (String × String)}
    (hpath : path = routePath segments) (hhead : path.head? = some slash)
    (hkey : ∀ key, (headers key).lookup API_KEY_HEADER = some key) :
    Sends mount apiKey (some (reading segments (optionalQuery.getD []))) (do
      let apiKey ← requireApiKey apiKey who
      pure {
        method := .GET
        url := buildUrl (utf8 gatewayUrl) path optionalQuery
        headers := headers apiKey
        body := none }) := by
  unfold Sends requireApiKey
  cases apiKey.filter UUID_RE with
  | none => exact ⟨_, rfl⟩
  | some apiKey =>
    refine ⟨_, rfl, rfl, rfl, hkey apiKey, ?_⟩
    rw [buildUrl_eq h hhead, hpath]
    exact @receive_route mount (reading segments (optionalQuery.getD []))

theorem sends_sseRequest (h : Mounted mount gatewayUrl) {apiKey lastEventId : Option String}
    {who : String} {path : Bytes} {optionalQuery : Option (List (String × Option String))}
    (hpath : path = routePath segments) (hhead : path.head? = some slash) :
    Sends mount apiKey (some (reading segments (optionalQuery.getD [])))
      (sseRequest ⟨gatewayUrl, apiKey⟩ who path optionalQuery lastEventId) := by
  have hkey (key : String) : (streamHeaders key lastEventId).lookup API_KEY_HEADER = some key := rfl
  exact sends_stream h hpath hhead hkey

/-- The frontend stream has a scope. -/
theorem sends_frontend (h : Mounted mount gatewayUrl) {apiKey owner fermiAccount : Option String}
    {market : Option MarketLike} :
    Sends mount apiKey
      (if owner.getD "" = "" ∧ fermiAccount.getD "" = "" ∧ market = none then none
      else some (reading ["state", "stream", "frontend"] [("owner", owner),
        ("mango_account", fermiAccount), ("market", market.map MarketLike.toText)]))
      (subscribeFrontendStream ⟨gatewayUrl, apiKey⟩ owner fermiAccount market) := by
  have hsends := @sends_sseRequest mount gatewayUrl ["state", "stream", "frontend"] h apiKey none
    "subscribeFrontendStream" _ (some [("owner", owner), ("mango_account", fermiAccount),
      ("market", market.map MarketLike.toText)]) rfl rfl
  unfold Sends at hsends ⊢
  unfold subscribeFrontendStream
  cases hkey : apiKey.filter UUID_RE with
  | none =>
    rw [requireApiKey, hkey]
    exact ⟨_, rfl⟩
  | some key =>
    rw [hkey] at hsends
    rw [requireApiKey, hkey]
    by_cases hscope : owner.getD "" = "" ∧ fermiAccount.getD "" = "" ∧ market = none
    · rw [if_pos hscope, throwIf, if_pos hscope]
      exact ⟨_, rfl⟩
    · rw [if_neg hscope, Throws.throwIf_of_not hscope]
      exact hsends

/-! ## Main result -/

/-- **The gateway receives what the caller asks for.** -/
theorem call_received (h : Mounted mount gatewayUrl) (apiKey : Option String) (call : Call) :
    Sends mount apiKey call.asks (call.fetch gatewayUrl apiKey) := by
  cases call with
  | healthz => exact sends_state h (fun _ => rfl) rfl
  | livez => exact sends_state h (fun _ => rfl) rfl
  | getConfig => exact sends_state h (fun _ => rfl) rfl
  | getBootstrap => exact sends_state h (fun _ => rfl) rfl
  | getMarkets markets view depth book => exact sends_state h (fun _ => rfl) rfl
  | getMarketStateDetails market view depth =>
    exact sends_state h (fun _ => rfl) (@routePath_concat ["state", "markets"] _ _ rfl)
  | getMarketState market view =>
    exact sends_state h (fun _ => rfl) (@routePath_concat ["state", "markets"] _ _ rfl)
  | getUserState owner view =>
    exact sends_state h (fun _ => rfl) (@routePath_concat ["state", "users"] _ _ rfl)
  | getOrders market owner view =>
    exact sends_state h (fun _ => rfl) (@routePath_concat ["state", "orders"] _ _ rfl)
  | getQueueState market =>
    exact sends_state h (fun _ => rfl) (@routePath_concat ["state", "queue"] _ _ rfl)
  | getFlpVault vault => exact sends_stateCall h fun apiKey => carries_vault
  | getFlpVaultPortfolio vault => exact sends_stateCall h fun apiKey => carries_portfolio
  | getFlpVaultUser vault owner => exact sends_stateCall h fun apiKey => carries_user
  | getBalances owner view =>
    exact sends_state h (fun _ => rfl) (@routePath_concat ["state", "balances"] _ _ rfl)
  | queryTrades market owner view limit => exact sends_state h (fun _ => rfl) rfl
  | getTrades market view limit =>
    exact sends_state h (fun _ => rfl) (@routePath_concat ["state", "trades"] _ _ rfl)
  | getCandles market timeframe fromSec toSec limit resolutionSec =>
    exact sends_state h (fun _ => rfl) (@routePath_concat ["ohlc"] _ _ rfl)
  | getFullState view => exact sends_state h (fun _ => rfl) rfl
  | getFullStateForMarket market view => exact sends_state h (fun _ => rfl) rfl
  | submitRelayIntent intent => exact sends_state h (fun _ => rfl) rfl
  | airdropUsdc params => exact sends_state h (fun _ => rfl) rfl
  | airdropDepositUsdc params => exact sends_state h (fun _ => rfl) rfl
  | adminReplay => exact sends_state h (fun _ => rfl) rfl
  | simulateWarm owner fermiAccount => exact sends_state h (fun _ => rfl) rfl
  | simulate owner fermiAccount trade => exact sends_state h (fun _ => rfl) rfl
  | subscribeStateStream => exact sends_sseRequest h rfl rfl
  | subscribeFrontendStream owner fermiAccount market =>
    exact sends_frontend h
  | subscribeTradeStream => exact sends_sseRequest h rfl rfl
  | subscribeV2TradeStream => exact sends_sseRequest h rfl rfl
  | subscribeMarketEvents market start lastEventId =>
    exact sends_sseRequest h (@routePath_concat ["v2", "events"] _ _ rfl) rfl
  | subscribeMarketFrontendStream market =>
    exact sends_sseRequest h (@routePath_concat ["v2", "stream", "frontend"] _ _ rfl) rfl
  | snapshotAndStreamMarket market =>
    have hkey (key : String) : List.lookup API_KEY_HEADER [(API_KEY_HEADER, key)] = some key := rfl
    exact sends_stream h (@routePath_concat ["v2", "events", "snapshot-and-stream"] _ _ rfl) rfl
      hkey

end

/-! ## A recorded call -/

namespace RecordedCall

def production : Mount where
  origin := utf8 "https://v1.fermi.trade"
  path := [utf8 "prod"]
  origin_end := ⟨101, rfl, by decide⟩
  nonempty := by decide
  plain := by
    intro segment hsegment
    rw [List.mem_singleton.1 hsegment, plain_iff]
    decide
  undotted := by
    intro segment hsegment
    rw [List.mem_singleton.1 hsegment, decode_eq_self (by decide)]
    decide

def gatewayUrl : String := "https://v1.fermi.trade/prod/"

theorem mounted : Mounted production gatewayUrl := ⟨1, rfl⟩

def apiKey : String := "0b9e7f0a-55d1-4c7e-9a9e-3f2a6f1f0c11"

/-- An owner that would be a path and a query of its own. -/
def call : Call := .getUserState (.text "../users?view=confirmed") .optimistic

end RecordedCall

theorem call_received_recorded :
    Sends RecordedCall.production (some RecordedCall.apiKey) RecordedCall.call.asks
      (RecordedCall.call.fetch RecordedCall.gatewayUrl (some RecordedCall.apiKey)) :=
  call_received RecordedCall.mounted (some RecordedCall.apiKey) RecordedCall.call

end FermiSdk.Gateway
