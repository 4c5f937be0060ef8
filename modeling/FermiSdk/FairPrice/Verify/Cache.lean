import FermiSdk.FairPrice
import FermiSdk.Gateway.Verify.Routes

/-!
# The price that a call gets

The provider is a cache that overlapping calls refresh (`cache_step`), so that the price which a call
returns is known from the events (`price_served`). What it fetches is the price of its asset in its
currency, whatever their names contain (`url_received`).
-/

namespace FermiSdk.CoinGeckoFairPriceProvider

open FermiSdk.Lib FermiSdk.Lib.Percent FermiSdk.Lib.Url FermiSdk.Lib.RefreshCache FermiSdk.Gateway

section

variable {provider : CoinGeckoFairPriceProvider}

/-- The cache that the provider is. -/
def State.cache (s : State) : RefreshCache.State JsNumber :=
  ⟨s.cachedPrice.map (s.lastFetchMs, ·), s.calls⟩

theorem get_eq_callAt (s : State) (now : Int) :
    provider.get s now = callAt provider.fresh s.cache.cached now := by
  unfold get callAt hit State.cache
  cases s.cachedPrice with
  | none => rfl
  | some price =>
    dsimp only [Option.map_some]
    rw [Option.filter_some]
    cases provider.fresh s.lastFetchMs now <;> rfl

/-- **The provider steps as the cache does.** -/
theorem cache_step (s : State) (event : Event) :
    (provider.step s event).map State.cache =
      RefreshCache.step provider.fresh provider.price s.cache event := by
  cases event with
  | get now =>
    show some (State.cache { s with calls := s.calls ++ [provider.get s now] }) = _
    rw [get_eq_callAt]
    rfl
  | answer i response =>
    unfold step RefreshCache.step
    dsimp only [State.cache]
    cases s.calls[i]? with
    | none => rfl
    | some call =>
      cases call with
      | asked now =>
        dsimp only
        unfold answered outcome
        cases provider.price response <;> rfl
      | returned price => rfl
      | failed e => rfl

theorem cache_run {events : List Event} {s : State} (h : run provider.step State.new events = some s) :
    run (RefreshCache.step provider.fresh provider.price) RefreshCache.State.empty events =
      some s.cache := by
  have hmap := @run_map _ _ _ _ _ State.cache (@cache_step provider) events State.new
  rw [h] at hmap
  exact hmap.symm

theorem isPrice_of_price {response : Throws PriceResponse} {price : JsNumber}
    (h : provider.price response = .ok price) : isPrice price = true := by
  simp only [CoinGeckoFairPriceProvider.price, Throws.bind_eq_ok, Throws.throwIf_eq_ok,
    exists_const] at h
  obtain ⟨response, -, -, body, -, property, -, h⟩ := h
  cases property with
  | other => cases h
  | number value =>
    simp only [Throws.bind_eq_ok, Throws.throwIf_eq_ok, exists_const, Throws.pure_eq_ok,
      Bool.not_eq_true', Bool.not_eq_false] at h
    obtain ⟨hprice, rfl⟩ := h
    exact hprice

/-- **The price that a call gets.** However calls overlap and whatever the clock shows, a call returns
a price exactly if its own answer carries it, or if the last answer that was accepted before the call
carries it and is to a call that was made less than `refreshMs` before. Every price that is returned
is finite and positive. -/
theorem price_served {events : List Event} {s : State}
    (h : run provider.step State.new events = some s) (i : Nat) (price : JsNumber) :
    (s.calls[i]? = some (.returned price) ↔
      Served provider.price provider.fresh events i price) ∧
    (s.calls[i]? = some (.returned price) → isPrice price = true) := by
  have hserved : s.calls[i]? = some (.returned price) ↔
      Served provider.price provider.fresh events i price := served_iff (cache_run h)
  refine ⟨hserved, fun hcall => ?_⟩
  obtain ⟨_, _, -, hprice⟩ := exists_of_served (hserved.1 hcall)
  exact isPrice_of_price hprice

/-- **What is fetched is the price that is meant.** -/
theorem url_received {mount : Mount} (h : utf8 provider.apiBase = mount.url) :
    mount.receive provider.url = some {
      segments := [utf8 "simple", utf8 "price"]
      query := [(utf8 "ids", utf8 provider.assetId),
        (utf8 "vs_currencies", utf8 provider.vsCurrency)] } := by
  let entries : List (Bytes × Bytes) := [(utf8 "ids", utf8 provider.assetId),
    (utf8 "vs_currencies", utf8 provider.vsCurrency)]
  have hurl : provider.url = mount.url ++ pathText [utf8 "simple", utf8 "price"] ++
      question :: joinForm (encode uriSafe) entries := by
    have hids : encode uriSafe (utf8 "ids") = utf8 "ids" := by decide
    have hcurrencies : encode uriSafe (utf8 "vs_currencies") = utf8 "vs_currencies" := by decide
    have hpath : utf8 "/simple/price?ids=" =
        pathText [utf8 "simple", utf8 "price"] ++ question :: (utf8 "ids" ++ [equals]) := by decide
    have hand : utf8 "&vs_currencies=" = ampersand :: (utf8 "vs_currencies" ++ [equals]) := by decide
    simp only [url, h, joinForm, entries, List.map_cons, List.map_nil, List.intercalate_cons_cons,
      List.intercalate_singleton, hids, hcurrencies, hpath, hand, encodeURIComponent,
      List.append_assoc, List.cons_append, List.nil_append]
  have hform : FormEncoding (encode uriSafe) := formEncoding_encode rfl rfl rfl rfl
  have hplain : ∀ segment ∈ [utf8 "simple", utf8 "price"], ∀ b ∈ segment, b ∉ separators := by
    intro segment hsegment
    rcases List.mem_pair.1 hsegment with rfl | rfl
    · rw [plain_iff]
      decide
    · rw [plain_iff]
      decide
  have hdots : ∀ segment ∈ [utf8 "simple", utf8 "price"], decode segment ∉ dots := by
    intro segment hsegment
    rcases List.mem_pair.1 hsegment with rfl | rfl
    · rw [decode_eq_self (by decide)]
      decide
    · rw [decode_eq_self (by decide)]
      decide
  have hhash : hash ∉ question :: joinForm (encode uriSafe) entries := by
    intro hmem
    rcases List.mem_cons.1 hmem with hmem | hmem
    · exact absurd hmem (by decide)
    · exact notMem_joinForm entries (fun _ => notMem_encode rfl (by decide) rfl) (by decide)
        (by decide) hmem
  rw [hurl, Mount.receive_path hplain hdots (.inr rfl) hhash]
  exact congrArg some (congrArg (Target.mk _) (parseForm_joinForm entries hform))

end

/-! ## Recorded calls -/

namespace RecordedPrices

def provider : CoinGeckoFairPriceProvider where
  assetId := "solana"
  vsCurrency := "usd"

def response (price : Int) : Throws PriceResponse :=
  pure { ok := true, status := 200, body := pure fun _ _ => pure (.number (.int price)) }

/-- Two calls whose answers overtake each other, and a third. -/
def events : List Event :=
  [.get 0, .get 100, .answer 1 (response 151), .answer 0 (response 150), .get 5000]

def state : State where
  cachedPrice := some (.int 150)
  lastFetchMs := 0
  calls := [.returned (.int 150), .returned (.int 151), .returned (.int 150)]

end RecordedPrices

open RecordedPrices in
/-- The third call gets the older price, which was answered later. -/
theorem price_served_recorded : Served provider.price provider.fresh events 2 (.int 150) :=
  (@price_served provider events state rfl 2 (.int 150)).1.1 rfl

end FermiSdk.CoinGeckoFairPriceProvider
