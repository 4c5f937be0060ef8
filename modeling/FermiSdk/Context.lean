import FermiSdk.Intents.Messages
import Mathlib.Data.List.Sort

/-!
# The context and its canonical account list

`src/context.ts`: the parts of a context that the trading functions read, and the account list that
every perp intent carries. Methods of the market library are fields: looking up a market, its lot
conversions, the settlement bank, and the fallback oracles of the group.

Maps keyed by the base58 text of a key are keyed by the key (`PublicKey.ofBase58_toBase58`).
-/

namespace FermiSdk

open FermiSdk.Lib FermiSdk.Intents

/-- A market with its accounts. The conversions of units are those of the library, which may lack
two of them. -/
structure PerpMarket where
  perpMarketIndex : Int
  publicKey : PublicKey
  bids : PublicKey
  asks : PublicKey
  eventQueue : PublicKey
  oracle : PublicKey
  uiPriceToLots : JsNumber → Throws Int
  uiPriceToLotsForSide : Option (JsNumber → QueueSide → Throws Int)
  uiPriceToLotsRoundUp : Option (JsNumber → Throws Int)
  uiBaseToLots : JsNumber → Throws Int
  uiQuoteToLots : JsNumber → Throws Int

/-- What is read of a token. -/
structure MintInfo where
  tokenIndex : Int
  oracle : PublicKey
  firstBank : PublicKey

/-- A group, with the lookups that the SDK makes. -/
structure Group where
  publicKey : PublicKey
  getPerpMarketByMarketIndex : JsNumber → Throws PerpMarket
  /-- The token index of `getFirstBankForPerpSettlement()`. -/
  settlementTokenIndex : Throws Int
  mintInfosMapByTokenIndex : Int → Option MintInfo
  /-- The values of `perpMarketsMapByMarketIndex` in insertion order. -/
  perpMarkets : List PerpMarket

/-- A position in a spot market. -/
structure OpenOrdersPosition where
  marketIndex : Int
  openOrders : PublicKey

/-- The positions of an account. An older library knows no OpenBook positions. -/
structure FermiV1Account where
  publicKey : PublicKey
  /-- The token index of each position. -/
  tokens : List Int
  serum3 : List OpenOrdersPosition
  openbookV2 : Option (List OpenOrdersPosition)

/-- What the trading functions read of a context. -/
structure FermiV1Context where
  programId : PublicKey
  group : Group
  fermiAccount : FermiV1Account
  user : Keypair
  /-- `client.deriveFallbackOracleContexts(group)`. -/
  fallbackOracleContexts : Throws (PublicKey → Option (List PublicKey))
  /-- `deployment?.directPoolsInitialized`. -/
  directPoolsInitialized : Option Bool
  /-- `connection.getSlot('confirmed')`. -/
  getSlot : Throws Int

namespace Context

/-- `TokenPosition.TokenIndexUnset` and `Serum3Orders.Serum3MarketIndexUnset`. -/
def INDEX_UNSET : Int := 65535

/-- The first value for each key. -/
def uniqueBy {α : Type} (keyFn : α → Int) : List Int → List α → List α
  | _, [] => []
  | seen, value :: values =>
    if keyFn value ∈ seen then uniqueBy keyFn seen values
    else value :: uniqueBy keyFn (keyFn value :: seen) values

/-- The fallback oracles that are neither the default key nor listed before. -/
def newFallbacks : List PublicKey → List PublicKey → List PublicKey
  | _, [] => []
  | seen, fallback :: fallbacks =>
    if fallback = PublicKey.default ∨ fallback ∈ seen then newFallbacks seen fallbacks
    else fallback :: newFallbacks (fallback :: seen) fallbacks

/-- The accounts of a health computation, by kind. -/
structure HealthRemainingAccountSections where
  bankAccounts : List PublicKey
  tokenOracles : List PublicKey
  perpMarkets : List PublicKey
  perpOracles : List PublicKey
  serumOpenOrders : List PublicKey
  openbookOpenOrders : List PublicKey
  fallbackOracles : List PublicKey

/-- The sections one after another; of the fallbacks, those that are new. -/
def buildExecutionQueueHealthRemainingAccountKeys (sections : HealthRemainingAccountSections) :
    List PublicKey :=
  sections.bankAccounts ++ sections.tokenOracles ++ sections.perpMarkets ++
    sections.perpOracles ++ sections.serumOpenOrders ++ sections.openbookOpenOrders ++
    newFallbacks sections.tokenOracles sections.fallbackOracles

/-- The token indices of the positions, with the settlement token in the first unset one unless it
is there already. -/
def activatedTokenIndices (tokens : List Int) (settlement : Int) : List Int :=
  if settlement ∉ tokens ∧ INDEX_UNSET ∈ tokens then
    tokens.set (tokens.idxOf INDEX_UNSET) settlement
  else tokens

/-- A token that the group does not know is an error. -/
def mintInfoOf (group : Group) (tokenIndex : Int) : Throws MintInfo :=
  match group.mintInfosMapByTokenIndex tokenIndex with
  | none => throw s!"missing mint info for token index {tokenIndex}"
  | some mintInfo => pure mintInfo

/-- The accounts of the positions that are in use. -/
def activeOpenOrders (positions : List OpenOrdersPosition) : List PublicKey :=
  (positions.filter fun position => position.marketIndex ≠ INDEX_UNSET).map (·.openOrders)

/-- The accounts of the market, then those of the health computation. Their hash is signed, so the
order counts. -/
def buildCanonicalPerpRemainingAccounts (context : FermiV1Context) (perpMarketIndex : JsNumber) :
    Throws (List AccountMeta) := do
  let perpMarket ← context.group.getPerpMarketByMarketIndex perpMarketIndex
  let settlement ← context.group.settlementTokenIndex
  let tokenPositionIndices := activatedTokenIndices context.fermiAccount.tokens settlement
  throwIf (settlement ∉ tokenPositionIndices)
    "all Fermi token positions are occupied; cannot build canonical perp execution-queue accounts"
  let found ← (tokenPositionIndices.filter (· ≠ INDEX_UNSET)).mapM (mintInfoOf context.group)
  let mintInfos := uniqueBy MintInfo.tokenIndex [] found
  let allPerpMarkets := context.group.perpMarkets.insertionSort fun left right =>
    left.perpMarketIndex ≤ right.perpMarketIndex
  let fallbackMap ← context.fallbackOracleContexts
  let tokenOracles := mintInfos.map (·.oracle)
  let healthRemainingAccounts := buildExecutionQueueHealthRemainingAccountKeys {
    bankAccounts := mintInfos.map (·.firstBank)
    tokenOracles := tokenOracles
    perpMarkets := allPerpMarkets.map (·.publicKey)
    perpOracles := allPerpMarkets.map (·.oracle)
    serumOpenOrders := activeOpenOrders context.fermiAccount.serum3
    openbookOpenOrders := activeOpenOrders (context.fermiAccount.openbookV2.getD [])
    fallbackOracles := tokenOracles.flatMap fun oracle => (fallbackMap oracle).getD [] }
  pure ([
    { pubkey := context.group.publicKey, isSigner := false, isWritable := false },
    { pubkey := context.fermiAccount.publicKey, isSigner := false, isWritable := true },
    { pubkey := context.user.publicKey, isSigner := false, isWritable := false },
    { pubkey := perpMarket.publicKey, isSigner := false, isWritable := true },
    { pubkey := perpMarket.bids, isSigner := false, isWritable := true },
    { pubkey := perpMarket.asks, isSigner := false, isWritable := true },
    { pubkey := perpMarket.eventQueue, isSigner := false, isWritable := true },
    { pubkey := perpMarket.oracle, isSigner := false, isWritable := false }] ++
    healthRemainingAccounts.map fun pubkey => { pubkey, isSigner := false, isWritable := false })

end Context

end FermiSdk
