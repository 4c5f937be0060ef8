import FermiSdk.AccountClient.Verify.Accounts
import FermiSdk.Lib.Codec

/-!
# A node and a coder as documented

A node that holds its accounts in a table, and a coder that reads the lists of an account behind its
fields. They do what is documented (`Chain.connection_lawful`, `FermiAccountCoder.documented_lawful`),
so that results that are stated for any node and coder can be applied to them on recorded data.
-/

namespace FermiSdk

open FermiSdk.Lib

/-! ## The node -/

/-- The accounts that a node holds, each under its key. -/
structure Chain where
  accounts : List (PublicKey × AccountInfo)
  nodup : (accounts.map Prod.fst).Nodup

namespace Chain

variable (chain : Chain)

/-- The accounts of a program whose data have the wanted bytes at their offsets. -/
def getProgramAccounts (programId : PublicKey) (filters : List MemcmpFilter) :
    Throws (List (PublicKey × AccountInfo)) := do
  let wanted ← filters.mapM fun filter =>
    match Base58.decode filter.bytes with
    | none => throw "Invalid param: invalid base58"
    | some bytes => pure (filter.offset, bytes)
  pure (chain.accounts.filter fun account =>
    account.2.owner = programId ∧ HasBytes account.2.data wanted)

def connection : ScanConnection where
  getAccountInfo key := chain.accounts.lookup key
  getProgramAccounts := chain.getProgramAccounts

variable {chain}

theorem getProgramAccounts_filtersOf (programId : PublicKey) (wants : List (Nat × Bytes)) :
    chain.getProgramAccounts programId (filtersOf wants) = .ok (chain.accounts.filter fun account =>
      account.2.owner = programId ∧ HasBytes account.2.data wants) := by
  unfold getProgramAccounts
  rw [Throws.bind_eq_ok]
  refine ⟨wants, ?_, rfl⟩
  rw [filtersOf, Throws.mapM_eq_ok, List.forall₂_map_left_iff, List.forall₂_same]
  intro want _
  rw [Base58.decode_encode]
  rfl

theorem connection_answers : chain.connection.Answers := by
  intro programId wants _
  exact ⟨_, getProgramAccounts_filtersOf programId wants⟩

theorem connection_lawful : chain.connection.Lawful := by
  intro programId wants found _ hfound
  obtain rfl := Except.ok.inj ((getProgramAccounts_filtersOf programId wants).symm.trans hfound)
  refine ⟨chain.nodup.sublist (List.filter_sublist.map _), fun key info => ?_⟩
  rw [List.mem_filter, decide_eq_true_eq, ← lookup_eq_some_iff_mem chain.nodup]
  rfl

end Chain

/-! ## The coder -/

/-- `TokenPosition`. -/
def tokenPositionFields : List (String × Nat) := [
  ("indexedPosition", 16), ("tokenIndex", 2), ("inUseCount", 2), ("padding", 4),
  ("previousIndex", 16), ("cumulativeDepositInterest", 8), ("cumulativeBorrowInterest", 8),
  ("reserved", 128)]

/-- `Serum3Orders`. -/
def serum3OrdersFields : List (String × Nat) := [
  ("openOrders", 32), ("baseBorrowsWithoutFee", 8), ("quoteBorrowsWithoutFee", 8),
  ("marketIndex", 2), ("baseTokenIndex", 2), ("quoteTokenIndex", 2), ("padding", 2),
  ("highestPlacedBidInv", 8), ("lowestPlacedAsk", 8), ("potentialBaseTokens", 8),
  ("potentialQuoteTokens", 8), ("lowestPlacedBidInv", 8), ("highestPlacedAsk", 8),
  ("reserved", 16)]

/-- `OpenbookV2Orders`. -/
def openbookV2OrdersFields : List (String × Nat) := [
  ("openOrders", 32), ("baseBorrowsWithoutFee", 8), ("quoteBorrowsWithoutFee", 8),
  ("highestPlacedBidInv", 8), ("lowestPlacedAsk", 8), ("potentialBaseTokens", 8),
  ("potentialQuoteTokens", 8), ("lowestPlacedBidInv", 8), ("highestPlacedAsk", 8),
  ("quoteLotSize", 8), ("baseLotSize", 8), ("marketIndex", 2), ("baseTokenIndex", 2),
  ("quoteTokenIndex", 2), ("reserved", 162)]

/-- A list of elements of one width, behind four bytes of padding. -/
def paddedList (width : Nat) : Codec (Bytes × List Bytes) :=
  (Codec.raw 4).pair (.counted 4 (.raw width))

/-- An account behind its discriminator: the fields, the token positions, the orders on Serum, the
perp positions and their orders, the conditional swaps, the orders on OpenBook, and a reserve. -/
def fermiAccountCodec :=
  (Codec.raw (Fields.size fermiAccountFields)).pair <|
  (paddedList (Fields.size tokenPositionFields)).pair <|
  (paddedList (Fields.size serum3OrdersFields)).pair <|
  (paddedList 304).pair <|
  (paddedList 96).pair <|
  (paddedList 200).pair <|
  (paddedList (Fields.size openbookV2OrdersFields)).pair (Codec.raw 56)

/-- The orders in an element that has `openOrders` and `marketIndex`. -/
def openOrdersPosition (fields : List (String × Nat)) (element : Bytes) :
    Throws OpenOrdersPosition := do
  pure {
    marketIndex := leNat (Fields.read fields element "marketIndex")
    openOrders := ← PublicKey.ofBytes (Fields.read fields element "openOrders") }

/-- An account is decoded by reading its fields one after another; what follows them is not read. A
read behind the end of the data fails in a text of the buffer that it is read from. -/
def decodeFermiAccount (rt : Runtime) (pk : PublicKey) (data : Bytes) : Throws FermiAccount := do
  throwIf (data.take 8 ≠ accountDiscriminator rt "FermiAccount") "Invalid account discriminator"
  match fermiAccountCodec.decode (data.drop 8) with
  | none => throw "Attempt to access memory outside buffer bounds"
  | some ((header, (_, tokens), (_, serum3), _, _, _, (_, openbookV2), _), _) =>
    pure {
      publicKey := pk
      tokens := tokens.map fun e => leNat (Fields.read tokenPositionFields e "tokenIndex")
      serum3 := ← serum3.mapM (openOrdersPosition serum3OrdersFields)
      openbookV2 := some (← openbookV2.mapM (openOrdersPosition openbookV2OrdersFields))
      group := ← PublicKey.ofBytes (Fields.read fermiAccountFields header "group")
      owner := ← PublicKey.ofBytes (Fields.read fermiAccountFields header "owner")
      delegate := ← PublicKey.ofBytes (Fields.read fermiAccountFields header "delegate")
      accountNum := leNat (Fields.read fermiAccountFields header "accountNum") }

def FermiAccountCoder.documented (rt : Runtime) : FermiAccountCoder where
  memcmp := ⟨0, Base58.encode (accountDiscriminator rt "FermiAccount")⟩
  decode := decodeFermiAccount rt

theorem raw_pair_eq_some {α : Type} {n : Nat} {d : Codec α} {bs rest : Bytes} {p : Bytes × α}
    (h : ((Codec.raw n).pair d).decode bs = some (p, rest)) : p.1 = bs.take n := by
  simp only [Codec.pair, Codec.raw, Option.bind_eq_some_iff, Option.map_eq_some_iff,
    Option.ite_none_right_eq_some, Option.some_inj] at h
  obtain ⟨_, ⟨-, rfl⟩, _, -, heq⟩ := h
  cases heq
  rfl

theorem FermiAccountCoder.documented_lawful (rt : Runtime) :
    (FermiAccountCoder.documented rt).Lawful rt where
  memcmp := rfl
  decode := by
    intro pk data account h
    have h : decodeFermiAccount rt pk data = .ok account := h
    unfold decodeFermiAccount at h
    rw [Throws.bind_eq_ok] at h
    obtain ⟨_, hdiscriminator, h⟩ := h
    rw [Throws.throwIf_eq_ok, not_not] at hdiscriminator
    cases hdecode : fermiAccountCodec.decode (data.drop 8) with
    | none =>
      rw [hdecode] at h
      cases h
    | some decoded =>
      have hheader := raw_pair_eq_some hdecode
      simp only [hdecode, hheader, Fields.read_take, Throws.bind_eq_ok, Throws.pure_eq_ok,
        PublicKey.ofBytes_eq_ok] at h
      obtain ⟨_, -, _, -, group, hgroup, owner, howner, delegate, hdelegate, rfl⟩ := h
      refine ⟨rfl, hdiscriminator, ?_⟩
      simp only [FermiAccount.entries, List.forall_mem_cons]
      exact ⟨hgroup.symm, howner.symm, hdelegate.symm, List.forall_mem_nil _⟩

end FermiSdk
