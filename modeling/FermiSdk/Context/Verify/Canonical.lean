import FermiSdk.Context
import FermiSdk.Lib.Firsts

/-!
# The canonical account list is well sectioned and stable

Every perp intent carries the list that `buildCanonicalPerpRemainingAccounts` makes: eight accounts
of the target market and the user, then the accounts that the health check reads. Those come in
sections (`Sections`): banks and their oracles, in the order of the token slots; all perp markets and
their oracles, by market index; open orders; fallback oracles. The list is hashed and signed before
it is used, so it must not change in between: the sections depend neither on the target market, nor
on the user, nor on the order of the group's markets, and the list does not change when the program
activates the settlement token (`canonical_accounts`).
-/

namespace FermiSdk

open FermiSdk.Lib FermiSdk.Intents

/-- What the market library promises of a group: maps are keyed by the index their values carry, and
the unset index belongs to no token. -/
structure Group.Lawful (group : Group) : Prop where
  mintInfo_tokenIndex : ∀ t m, group.mintInfosMapByTokenIndex t = some m → m.tokenIndex = t
  perpMarkets_nodup : (group.perpMarkets.map PerpMarket.perpMarketIndex).Nodup
  settlement_ne_unset : group.settlementTokenIndex ≠ .ok Context.INDEX_UNSET

namespace Context

/-! ## The passes -/

theorem uniqueBy_eq_firsts {α : Type} (keyFn : α → Int) (seen : List Int) (values : List α) :
    uniqueBy keyFn seen values = firsts keyFn seen values := by
  induction values generalizing seen with
  | nil => rfl
  | cons value values ih => rw [uniqueBy, firsts, ih, ih]

theorem newFallbacks_eq_firsts (seen fallbacks : List PublicKey) :
    newFallbacks seen fallbacks =
      firsts id seen (fallbacks.filter fun k => k ≠ PublicKey.default) := by
  induction fallbacks generalizing seen with
  | nil => rfl
  | cons k fallbacks ih =>
    by_cases hdefault : k = PublicKey.default
    · simp [newFallbacks, hdefault, ih]
    · by_cases hseen : k ∈ seen <;> simp [newFallbacks, firsts, hdefault, hseen, ih]

/-- The token slots once the settlement token is active: it is already, or it takes the first unset
slot. -/
inductive Activated (tokens : List Int) (settlement : Int) : List Int → Prop
  | already (h : settlement ∈ tokens) : Activated tokens settlement tokens
  | firstUnset {xs ys : List Int} (htokens : tokens = xs ++ INDEX_UNSET :: ys)
      (hfirst : INDEX_UNSET ∉ xs) (h : settlement ∉ tokens) :
      Activated tokens settlement (xs ++ settlement :: ys)

/-- Setting the first unset slot. -/
theorem set_idxOf_unset {xs : List Int} (ys : List Int) (settlement : Int)
    (hfirst : INDEX_UNSET ∉ xs) :
    (xs ++ INDEX_UNSET :: ys).set ((xs ++ INDEX_UNSET :: ys).idxOf INDEX_UNSET) settlement =
      xs ++ settlement :: ys := by
  rw [List.idxOf_append_of_notMem hfirst, List.idxOf_cons_self, Nat.add_zero,
    List.set_append_right _ _ (Nat.le_refl _), Nat.sub_self, List.set_cons_zero]

theorem activatedTokenIndices_spec {tokens : List Int} {settlement : Int}
    (h : settlement ∈ activatedTokenIndices tokens settlement) :
    Activated tokens settlement (activatedTokenIndices tokens settlement) := by
  by_cases hmem : settlement ∈ tokens
  · rw [activatedTokenIndices, if_neg fun hc => hc.1 hmem]
    exact .already hmem
  · by_cases hunset : INDEX_UNSET ∈ tokens
    · obtain ⟨xs, ys, htokens, hfirst⟩ := List.eq_append_cons_of_mem hunset
      rw [activatedTokenIndices, if_pos ⟨hmem, hunset⟩]
      have hset := set_idxOf_unset ys settlement hfirst
      rw [← htokens] at hset
      exact hset ▸ .firstUnset htokens hfirst hmem
    · rw [activatedTokenIndices, if_neg fun hc => hunset hc.2] at h
      exact absurd h hmem

/-- The mint infos found for token indices are the group's, in the order of the indices. -/
theorem mintInfosOf_eq_ok {group : Group} (hlaw : group.Lawful) {indices : List Int}
    {found : List MintInfo} (h : indices.mapM (mintInfoOf group) = .ok found) :
    found.map MintInfo.tokenIndex = indices ∧
      ∀ m ∈ found, group.mintInfosMapByTokenIndex m.tokenIndex = some m := by
  rw [Throws.mapM_eq_ok] at h
  induction h with
  | nil => exact ⟨rfl, by simp⟩
  | @cons t m _ _ hm _ ih =>
    have hsome : group.mintInfosMapByTokenIndex t = some m := by
      rw [mintInfoOf] at hm
      cases hget : group.mintInfosMapByTokenIndex t with
      | none => simp [hget] at hm
      | some m' =>
        rw [hget] at hm
        rw [Throws.pure_eq_ok.1 hm]
    have ht := hlaw.mintInfo_tokenIndex t m hsome
    refine ⟨by rw [List.map_cons, ht, ih.1], ?_⟩
    rw [List.forall_mem_cons, ht]
    exact ⟨hsome, ih.2⟩

/-! ## The list -/

/-- The metas of the user and the target market. -/
def fixedMetas (context : FermiV1Context) (perpMarket : PerpMarket) : List AccountMeta := [
  { pubkey := context.group.publicKey, isSigner := false, isWritable := false },
  { pubkey := context.fermiAccount.publicKey, isSigner := false, isWritable := true },
  { pubkey := context.user.publicKey, isSigner := false, isWritable := false },
  { pubkey := perpMarket.publicKey, isSigner := false, isWritable := true },
  { pubkey := perpMarket.bids, isSigner := false, isWritable := true },
  { pubkey := perpMarket.asks, isSigner := false, isWritable := true },
  { pubkey := perpMarket.eventQueue, isSigner := false, isWritable := true },
  { pubkey := perpMarket.oracle, isSigner := false, isWritable := false }]

def readonly (pubkey : PublicKey) : AccountMeta := { pubkey, isSigner := false, isWritable := false }

/-- The keys of the health suffix, from the mint infos found and the fallback oracles. -/
def healthKeys (account : FermiV1Account) (markets : List PerpMarket) (found : List MintInfo)
    (fallbackMap : PublicKey → Option (List PublicKey)) : List PublicKey :=
  let mintInfos := firsts MintInfo.tokenIndex [] found
  let tokenOracles := mintInfos.map MintInfo.oracle
  let sorted := markets.insertionSort fun left right =>
    left.perpMarketIndex ≤ right.perpMarketIndex
  mintInfos.map MintInfo.firstBank ++ tokenOracles ++ sorted.map PerpMarket.publicKey ++
    sorted.map PerpMarket.oracle ++ activeOpenOrders account.serum3 ++
    activeOpenOrders (account.openbookV2.getD []) ++
    firsts id tokenOracles
      ((tokenOracles.flatMap fun oracle => (fallbackMap oracle).getD []).filter
        fun k => k ≠ PublicKey.default)

theorem buildCanonicalPerpRemainingAccounts_eq_ok {context : FermiV1Context} {index : JsNumber}
    {accounts : List AccountMeta} :
    buildCanonicalPerpRemainingAccounts context index = .ok accounts ↔
      ∃ market settlement found fallbackMap,
        context.group.getPerpMarketByMarketIndex index = .ok market ∧
        context.group.settlementTokenIndex = .ok settlement ∧
        settlement ∈ activatedTokenIndices context.fermiAccount.tokens settlement ∧
        ((activatedTokenIndices context.fermiAccount.tokens settlement).filter
          (· ≠ INDEX_UNSET)).mapM (mintInfoOf context.group) = .ok found ∧
        context.fallbackOracleContexts = .ok fallbackMap ∧
        accounts = fixedMetas context market ++
          (healthKeys context.fermiAccount context.group.perpMarkets found fallbackMap).map
            readonly := by
  simp only [buildCanonicalPerpRemainingAccounts, buildExecutionQueueHealthRemainingAccountKeys,
    uniqueBy_eq_firsts, newFallbacks_eq_firsts, Throws.bind_eq_ok, Throws.throwIf_eq_ok,
    exists_const, Throws.pure_eq_ok, not_not]
  constructor
  · rintro ⟨market, hmarket, settlement, hsettlement, hactive, found, hfound, map, hmap, rfl⟩
    exact ⟨market, settlement, found, map, hmarket, hsettlement, hactive, hfound, hmap, rfl⟩
  · rintro ⟨market, settlement, found, map, hmarket, hsettlement, hactive, hfound, hmap, rfl⟩
    exact ⟨market, hmarket, settlement, hsettlement, hactive, found, hfound, map, hmap, rfl⟩

/-! ## Sections -/

/-- The health suffix of an account, in sections. -/
structure Sections (context : FermiV1Context) where
  settlement : Int
  /-- The token slots with the settlement token active. -/
  slots : List Int
  mintInfos : List MintInfo
  perpMarkets : List PerpMarket
  fallbackMap : PublicKey → Option (List PublicKey)
  fallbackOracles : List PublicKey
  settlement_eq : context.group.settlementTokenIndex = .ok settlement
  slots_activated : Activated context.fermiAccount.tokens settlement slots
  mintInfos_of_group :
    ∀ m ∈ mintInfos, context.group.mintInfosMapByTokenIndex m.tokenIndex = some m
  /-- Each active token is there once. -/
  nodup_tokens : (mintInfos.map MintInfo.tokenIndex).Nodup
  mem_tokens : ∀ t, t ∈ mintInfos.map MintInfo.tokenIndex ↔ t ∈ slots ∧ t ≠ INDEX_UNSET
  /-- Tokens come in the order of their first slots. -/
  slot_order : (mintInfos.map MintInfo.tokenIndex).Pairwise fun t u =>
    (slots.filter (· ≠ INDEX_UNSET)).idxOf t < (slots.filter (· ≠ INDEX_UNSET)).idxOf u
  settlement_mem : settlement ∈ mintInfos.map MintInfo.tokenIndex
  perpMarkets_perm : perpMarkets.Perm context.group.perpMarkets
  perpMarkets_increasing :
    perpMarkets.Pairwise fun left right => left.perpMarketIndex < right.perpMarketIndex
  fallbackMap_eq : context.fallbackOracleContexts = .ok fallbackMap
  nodup_fallbacks : fallbackOracles.Nodup
  mem_fallbacks : ∀ k, k ∈ fallbackOracles ↔
    (∃ m ∈ mintInfos, k ∈ (fallbackMap m.oracle).getD []) ∧ k ≠ PublicKey.default ∧
      k ∉ mintInfos.map MintInfo.oracle

/-- The keys of the sections: banks and oracles are aligned, and so are markets and oracles. -/
def Sections.keys {context : FermiV1Context} (s : Sections context) : List PublicKey :=
  s.mintInfos.map MintInfo.firstBank ++ s.mintInfos.map MintInfo.oracle ++
    s.perpMarkets.map PerpMarket.publicKey ++ s.perpMarkets.map PerpMarket.oracle ++
    activeOpenOrders context.fermiAccount.serum3 ++
    activeOpenOrders (context.fermiAccount.openbookV2.getD []) ++ s.fallbackOracles

theorem settlement_mem_of_activated {tokens slots : List Int} {settlement : Int}
    (h : Activated tokens settlement slots) : settlement ∈ slots := by
  cases h with
  | already h => exact h
  | firstUnset => simp

/-- The fallback oracles listed: those of the tokens' oracles, but the default key and keys listed as
oracles. -/
theorem mem_newFallbacks (mintInfos : List MintInfo)
    (fallbackMap : PublicKey → Option (List PublicKey)) (k : PublicKey) :
    k ∈ firsts id (mintInfos.map MintInfo.oracle)
        (((mintInfos.map MintInfo.oracle).flatMap fun oracle => (fallbackMap oracle).getD []).filter
          fun k => k ≠ PublicKey.default) ↔
      (∃ m ∈ mintInfos, k ∈ (fallbackMap m.oracle).getD []) ∧ k ≠ PublicKey.default ∧
        k ∉ mintInfos.map MintInfo.oracle := by
  rw [← List.map_id (firsts id _ _), mem_map_firsts, List.map_id, List.mem_filter,
    List.flatMap_map, List.mem_flatMap, decide_eq_true_eq, and_assoc]

/-- The list is the fixed metas and the sections. -/
theorem exists_sections {context : FermiV1Context} {index : JsNumber}
    {accounts : List AccountMeta} (hlaw : context.group.Lawful)
    (h : buildCanonicalPerpRemainingAccounts context index = .ok accounts) :
    ∃ market, context.group.getPerpMarketByMarketIndex index = .ok market ∧
      ∃ s : Sections context, accounts = fixedMetas context market ++ s.keys.map readonly := by
  obtain ⟨market, settlement, found, fallbackMap, hmarket, hsettlement, hactive, hfound, hmap, rfl⟩ :=
    buildCanonicalPerpRemainingAccounts_eq_ok.1 h
  obtain ⟨htokens, hgroup⟩ := mintInfosOf_eq_ok hlaw hfound
  have hslots := activatedTokenIndices_spec hactive
  have hne : settlement ≠ INDEX_UNSET := fun heq =>
    hlaw.settlement_ne_unset (hsettlement.trans (congrArg Except.ok heq))
  have hmem : ∀ t, t ∈ (firsts MintInfo.tokenIndex [] found).map MintInfo.tokenIndex ↔
      t ∈ activatedTokenIndices context.fermiAccount.tokens settlement ∧ t ≠ INDEX_UNSET := by
    intro t
    rw [mem_map_firsts, htokens, List.mem_filter]
    simp
  have horder := pairwise_idxOf_firsts MintInfo.tokenIndex [] found
  rw [htokens] at horder
  refine ⟨market, hmarket, {
    settlement := settlement
    slots := activatedTokenIndices context.fermiAccount.tokens settlement
    mintInfos := firsts MintInfo.tokenIndex [] found
    perpMarkets := context.group.perpMarkets.insertionSort fun left right =>
      left.perpMarketIndex ≤ right.perpMarketIndex
    fallbackMap := fallbackMap
    fallbackOracles := _
    settlement_eq := hsettlement
    slots_activated := hslots
    mintInfos_of_group := fun m hm => hgroup m (firsts_sublist.subset hm)
    nodup_tokens := nodup_map_firsts
    mem_tokens := hmem
    slot_order := horder
    settlement_mem := (hmem _).2 ⟨settlement_mem_of_activated hslots, hne⟩
    perpMarkets_perm := List.perm_insertionSort _ _
    perpMarkets_increasing := pairwise_lt_insertionSort hlaw.perpMarkets_nodup
    fallbackMap_eq := hmap
    nodup_fallbacks := ?_
    mem_fallbacks := ?_ }, rfl⟩
  · rw [← List.map_id (firsts id _ _)]
    exact nodup_map_firsts
  · exact mem_newFallbacks _ fallbackMap

/-! ## Stability -/

theorem healthKeys_perm {account : FermiV1Account} {markets markets' : List PerpMarket}
    {found : List MintInfo} {fallbackMap : PublicKey → Option (List PublicKey)}
    (hp : markets.Perm markets') (h : (markets.map PerpMarket.perpMarketIndex).Nodup) :
    healthKeys account markets' found fallbackMap = healthKeys account markets found fallbackMap := by
  simp only [healthKeys, insertionSort_eq_of_perm hp h]

/-- The suffix depends neither on the target market, nor on the user, nor on the order of the
group's markets. -/
theorem suffix_eq {context : FermiV1Context} {index index' : JsNumber} {user : Keypair}
    {markets : List PerpMarket} {accounts accounts' : List AccountMeta}
    (hlaw : context.group.Lawful)
    (h : buildCanonicalPerpRemainingAccounts context index = .ok accounts)
    (hp : context.group.perpMarkets.Perm markets)
    (h' : buildCanonicalPerpRemainingAccounts
      { context with user := user, group := { context.group with perpMarkets := markets } } index' =
        .ok accounts') :
    accounts'.drop 8 = accounts.drop 8 := by
  obtain ⟨market, settlement, found, fallbackMap, -, hsettlement, -, hfound, hmap, rfl⟩ :=
    buildCanonicalPerpRemainingAccounts_eq_ok.1 h
  obtain ⟨market', settlement', found', fallbackMap', -, hsettlement', -, hfound', hmap', rfl⟩ :=
    buildCanonicalPerpRemainingAccounts_eq_ok.1 h'
  cases hsettlement.symm.trans hsettlement'
  cases hmap.symm.trans hmap'
  cases hfound.symm.trans hfound'
  show List.map _ (healthKeys _ markets _ _) = List.map _ (healthKeys _ _ _ _)
  rw [healthKeys_perm hp hlaw.perpMarkets_nodup]

theorem activatedTokenIndices_of_mem {tokens : List Int} {settlement : Int}
    (h : settlement ∈ tokens) : activatedTokenIndices tokens settlement = tokens :=
  if_neg fun hc => hc.1 h

/-- The mint infos found before and after the settlement token takes the first unset slot are the
same, up to one that repeats an earlier token. -/
theorem found_of_activation {group : Group} (hlaw : group.Lawful) {settlement : Int}
    (hne : settlement ≠ INDEX_UNSET) {xs ys : List Int} (hfirst : INDEX_UNSET ∉ xs)
    (hnew : settlement ∈ ys → settlement ∈ xs) {found : List MintInfo}
    (h : ((activatedTokenIndices (xs ++ INDEX_UNSET :: ys) settlement).filter
      (· ≠ INDEX_UNSET)).mapM (mintInfoOf group) = .ok found) :
    ∃ found', ((xs ++ settlement :: ys).filter (· ≠ INDEX_UNSET)).mapM (mintInfoOf group) =
        .ok found' ∧
      firsts MintInfo.tokenIndex [] found' = firsts MintInfo.tokenIndex [] found := by
  by_cases hx : settlement ∈ xs
  · -- active already: the new slot repeats a token of an earlier one
    rw [activatedTokenIndices_of_mem (List.mem_append_left _ hx), List.filter_append,
      List.filter_cons_of_neg (by simp), List.mapM_append] at h
    simp only [Throws.bind_eq_ok, Throws.pure_eq_ok] at h
    obtain ⟨before, hbefore, after, hafter, rfl⟩ := h
    obtain ⟨htokens, hgroup⟩ := mintInfosOf_eq_ok hlaw hbefore
    have hmem : settlement ∈ before.map MintInfo.tokenIndex := by
      rw [htokens, List.mem_filter]
      exact ⟨hx, by simpa using hne⟩
    obtain ⟨m, hm, rfl⟩ := List.mem_map.1 hmem
    have hfind : mintInfoOf group m.tokenIndex = .ok m := by
      rw [mintInfoOf, hgroup m hm]
      rfl
    refine ⟨before ++ m :: after, ?_, firsts_insert (.inr hmem)⟩
    rw [List.filter_append, List.filter_cons_of_pos (by simpa using hne), List.mapM_append]
    simp only [Throws.bind_eq_ok, Throws.pure_eq_ok, List.mapM_cons]
    exact ⟨before, hbefore, _, ⟨m, hfind, after, hafter, rfl⟩, rfl⟩
  · -- activated by the builder already
    have hnot : settlement ∉ xs ++ INDEX_UNSET :: ys := by
      simp only [List.mem_append, List.mem_cons, not_or]
      exact ⟨hx, hne, fun hy => hx (hnew hy)⟩
    rw [activatedTokenIndices, if_pos ⟨hnot, by simp⟩, set_idxOf_unset _ settlement hfirst] at h
    exact ⟨found, h, rfl⟩

/-- The list does not change when the settlement token takes the first unset slot. -/
theorem accounts_of_activation {context : FermiV1Context} {index : JsNumber}
    {accounts : List AccountMeta} (hlaw : context.group.Lawful)
    (h : buildCanonicalPerpRemainingAccounts context index = .ok accounts) {settlement : Int}
    (hsettlement : context.group.settlementTokenIndex = .ok settlement) {xs ys : List Int}
    (htokens : context.fermiAccount.tokens = xs ++ INDEX_UNSET :: ys) (hfirst : INDEX_UNSET ∉ xs)
    (hnew : settlement ∈ ys → settlement ∈ xs) :
    buildCanonicalPerpRemainingAccounts
      { context with fermiAccount :=
          { context.fermiAccount with tokens := xs ++ settlement :: ys } } index =
      .ok accounts := by
  obtain ⟨market, settlement', found, fallbackMap, hmarket, hsettlement', -, hfound, hmap, rfl⟩ :=
    buildCanonicalPerpRemainingAccounts_eq_ok.1 h
  cases hsettlement.symm.trans hsettlement'
  have hne : settlement ≠ INDEX_UNSET := fun heq =>
    hlaw.settlement_ne_unset (hsettlement.trans (congrArg Except.ok heq))
  have hmem : settlement ∈ xs ++ settlement :: ys := by simp
  rw [htokens] at hfound
  obtain ⟨found', hfound', hfirsts⟩ := found_of_activation hlaw hne hfirst hnew hfound
  refine buildCanonicalPerpRemainingAccounts_eq_ok.2
    ⟨market, settlement, found', fallbackMap, hmarket, hsettlement, ?_, ?_, hmap, ?_⟩
  · show settlement ∈ activatedTokenIndices (xs ++ settlement :: ys) settlement
    rw [activatedTokenIndices_of_mem hmem]
    exact hmem
  · show List.mapM _ ((activatedTokenIndices (xs ++ settlement :: ys) settlement).filter _) = _
    rw [activatedTokenIndices_of_mem hmem]
    exact hfound'
  · simp only [healthKeys, hfirsts]
    rfl

/-- **The canonical account list is well sectioned and stable.** After the fixed metas come the
sections of `Sections`. They depend neither on the target market, nor on the user, nor on the order
of the group's markets; and the whole list stays the same when the settlement token takes the first
unset slot, unless a later slot held it before. -/
theorem canonical_accounts {context : FermiV1Context} {index : JsNumber}
    {accounts : List AccountMeta} (hlaw : context.group.Lawful)
    (h : buildCanonicalPerpRemainingAccounts context index = .ok accounts) :
    (∃ market, context.group.getPerpMarketByMarketIndex index = .ok market ∧
      ∃ s : Sections context, accounts = fixedMetas context market ++ s.keys.map readonly) ∧
    (∀ index' user markets accounts', context.group.perpMarkets.Perm markets →
      buildCanonicalPerpRemainingAccounts
        { context with user := user, group := { context.group with perpMarkets := markets } }
          index' = .ok accounts' →
      accounts'.drop 8 = accounts.drop 8) ∧
    ∀ settlement xs ys, context.group.settlementTokenIndex = .ok settlement →
      context.fermiAccount.tokens = xs ++ INDEX_UNSET :: ys → INDEX_UNSET ∉ xs →
      (settlement ∈ ys → settlement ∈ xs) →
      buildCanonicalPerpRemainingAccounts
        { context with fermiAccount :=
            { context.fermiAccount with tokens := xs ++ settlement :: ys } } index =
        .ok accounts :=
  ⟨exists_sections hlaw h, fun _ _ _ _ hp h' => suffix_eq hlaw h hp h',
    fun _ _ _ hsettlement htokens hfirst hnew =>
      accounts_of_activation hlaw h hsettlement htokens hfirst hnew⟩

/-! ## Two markets

Tokens 0 and 2 with two unset slots, settlement token 1, and two markets inserted in descending
order. The fallback oracles of token 0 repeat one key and name the default key and another oracle. -/

namespace TwoMarkets

def key (b : UInt8) : PublicKey := ⟨b :: List.replicate 31 0, rfl⟩

def market (index : Int) (first : UInt8) : PerpMarket where
  perpMarketIndex := index
  publicKey := key first
  bids := key (first + 1)
  asks := key (first + 2)
  eventQueue := key (first + 3)
  oracle := key (first + 4)
  uiPriceToLots _ := pure 0
  uiPriceToLotsForSide := none
  uiPriceToLotsRoundUp := none
  uiBaseToLots _ := pure 0
  uiQuoteToLots _ := pure 0

def group : Group where
  publicKey := key 1
  getPerpMarketByMarketIndex index :=
    if index = .int 3 then pure (market 3 40) else pure (market 5 50)
  settlementTokenIndex := pure 1
  mintInfosMapByTokenIndex t :=
    if 0 ≤ t ∧ t ≤ 2 then
      some ⟨t, key (UInt8.ofNat (10 + t.toNat)), key (UInt8.ofNat (20 + t.toNat))⟩
    else none
  perpMarkets := [market 5 50, market 3 40]

def context : FermiV1Context where
  programId := key 9
  group := group
  fermiAccount := ⟨key 2, [0, 65535, 2, 65535], [⟨65535, key 60⟩, ⟨4, key 61⟩], none⟩
  user := ⟨key 3, []⟩
  fallbackOracleContexts :=
    pure fun oracle =>
      if oracle = key 10 then some [key 30, PublicKey.default, key 30, key 11] else none
  directPoolsInitialized := none
  getSlot := pure 0

theorem lawful : group.Lawful where
  mintInfo_tokenIndex t m h := by
    simp only [group, Option.ite_none_right_eq_some, Option.some.injEq] at h
    rw [← h.2]
  perpMarkets_nodup := by decide
  settlement_ne_unset := by decide

def suffix : List AccountMeta :=
  [20, 21, 22, 10, 11, 12, 40, 50, 44, 54, 61, 30].map fun b => readonly (key b)

/-- The list for market 5. -/
def accounts : List AccountMeta := [
  ⟨key 1, false, false⟩, ⟨key 2, false, true⟩, ⟨key 3, false, false⟩, ⟨key 50, false, true⟩,
  ⟨key 51, false, true⟩, ⟨key 52, false, true⟩, ⟨key 53, false, true⟩, ⟨key 54, false, false⟩] ++
  suffix

/-- The list for market 3, for another user. -/
def otherAccounts : List AccountMeta := [
  ⟨key 1, false, false⟩, ⟨key 2, false, true⟩, ⟨key 4, false, false⟩, ⟨key 40, false, true⟩,
  ⟨key 41, false, true⟩, ⟨key 42, false, true⟩, ⟨key 43, false, true⟩, ⟨key 44, false, false⟩] ++
  suffix

end TwoMarkets

open TwoMarkets in
theorem canonical_accounts_two_markets :
    otherAccounts.drop 8 = accounts.drop 8 ∧
      buildCanonicalPerpRemainingAccounts
        { TwoMarkets.context with fermiAccount :=
            { TwoMarkets.context.fermiAccount with tokens := [0, 1, 2, 65535] } } (.int 5) =
        .ok accounts :=
  have h := @canonical_accounts TwoMarkets.context (.int 5) _ lawful rfl
  ⟨h.2.1 (.int 3) ⟨key 4, []⟩ [market 3 40, market 5 50] otherAccounts (.swap _ _ _) rfl,
    h.2.2 1 [0] [2, 65535] rfl rfl (by decide) (by decide)⟩

end Context

end FermiSdk
