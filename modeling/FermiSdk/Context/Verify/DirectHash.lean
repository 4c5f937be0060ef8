import FermiSdk.Context.Verify.Canonical
import FermiSdk.Intents.Verify.Accounts

/-!
# The direct and the relayed hash of the canonical list

The relayed hash joins the flags of equal keys; the direct hash looks at each entry alone, and then
makes the owner's first entry read-only. On a list without signers they agree exactly when no
writable key occurs read-only as well, but the group and the queue, which both make writable
(`directMatchesRelayed_iff`). The canonical list has the target market twice: writable, and read-only
among the markets of the health check. So they differ whenever the group lists the target market
(`direct_differs_of_listed`).
-/

namespace FermiSdk

open FermiSdk.Lib

namespace Intents

/-- What the direct hash makes of an entry, the owner apart. -/
def directEntry (group executionQueue : PublicKey) (account : AccountMeta) : AccountMeta :=
  if account.pubkey = group ∨ account.pubkey = executionQueue then
    { pubkey := account.pubkey, isSigner := false, isWritable := true }
  else if account.pubkey = SYSVAR_INSTRUCTIONS_PUBKEY then
    { pubkey := account.pubkey, isSigner := false, isWritable := false }
  else account

/-- The two paths bind one list: the hashed triples are the same, all entries of a key have the same
flags, and making the owner read-only changes nothing. -/
structure DirectMatchesRelayed (group executionQueue userOwner : PublicKey)
    (accounts : List AccountMeta) : Prop where
  same : accountsForV5DirectEnqueue group executionQueue accounts userOwner =
    accountsForCtmEnqueue group executionQueue accounts
  uniform : ∀ a ∈ accountsForV5DirectEnqueue group executionQueue accounts userOwner,
    ∀ b ∈ accountsForV5DirectEnqueue group executionQueue accounts userOwner,
      a.pubkey = b.pubkey → a = b
  scrub : accountsForV5DirectEnqueue group executionQueue accounts userOwner =
    accounts.map (directEntry group executionQueue)

section

variable {g q u : PublicKey} {l : List AccountMeta}

theorem directEntry_pubkey (a : AccountMeta) : (directEntry g q a).pubkey = a.pubkey := by
  unfold directEntry
  split
  · rfl
  · split <;> rfl

/-- The owner's first entry becomes read-only, every other one is normalised. -/
theorem accountsForV5DirectEnqueue_split {before after : List AccountMeta} {owner : AccountMeta}
    (hbefore : ∀ a ∈ before, a.pubkey ≠ owner.pubkey) :
    accountsForV5DirectEnqueue g q (before ++ owner :: after) owner.pubkey =
      before.map (directEntry g q) ++ ⟨owner.pubkey, false, false⟩ ::
        after.map (directEntry g q) := by
  have hfind : ((before ++ owner :: after).map (directEntry g q)).findIdx?
      (fun a => a.pubkey = owner.pubkey) = some before.length := by
    have hnone : before.findIdx? ((fun a => decide (a.pubkey = owner.pubkey)) ∘ directEntry g q) =
        none := by
      rw [List.findIdx?_eq_none_iff]
      intro a ha
      simp [directEntry_pubkey, hbefore a ha]
    rw [List.findIdx?_map, List.findIdx?_append, hnone]
    simp [List.findIdx?_cons, directEntry_pubkey]
  have hmodify : ∀ (l : List AccountMeta) (f : AccountMeta → AccountMeta) (a : AccountMeta)
      (r : List AccountMeta), (l ++ a :: r).modify l.length f = l ++ f a :: r := by
    intro l f a r
    induction l with
    | nil => rfl
    | cons b l ih => rw [List.cons_append, List.length_cons, List.modify_succ_cons, ih]; rfl
  have heq : accountsForV5DirectEnqueue g q (before ++ owner :: after) owner.pubkey =
      ((before ++ owner :: after).map (directEntry g q)).modify before.length
        fun a => ⟨a.pubkey, false, false⟩ := by
    unfold accountsForV5DirectEnqueue
    dsimp only
    split
    · next h => exact absurd (h.symm.trans hfind) (by simp)
    · next h => cases h.symm.trans hfind; rfl
  rw [heq, List.map_append, List.map_cons, ← @List.length_map _ _ before (directEntry g q),
    hmodify, directEntry_pubkey]

/-- The flags the relayed hash gives to an account of a list without signers. -/
theorem effective_of_unsigned (hl : ∀ a ∈ l, a.isSigner = false) (a : AccountMeta) :
    effective (fixedAccounts g q ++ l) a =
      ⟨a.pubkey, false, a.pubkey = g ∨ a.pubkey = q ∨
        joined AccountMeta.pubkey AccountMeta.isWritable l a.pubkey⟩ := by
  have hs : joined AccountMeta.pubkey AccountMeta.isSigner (fixedAccounts g q ++ l) a.pubkey =
      false := by
    rw [joined_append_of_unset hl]
    simp [joined, fixedAccounts]
  have hw : joined AccountMeta.pubkey AccountMeta.isWritable (fixedAccounts g q) a.pubkey =
      decide (a.pubkey = g ∨ a.pubkey = q) := by
    rw [Bool.eq_iff_iff, joined_eq_true]
    simp [fixedAccounts, @eq_comm _ a.pubkey]
  rw [effective_eq, hs, joined_append, hw]
  simp [Bool.or_assoc]

/-- A writable entry that is neither the group nor the queue is not the instructions sysvar, and its
key occurs nowhere read-only. -/
def WritableApart (group executionQueue : PublicKey) (accounts : List AccountMeta) : Prop :=
  ∀ a ∈ accounts, a.isWritable = true →
    a.pubkey = group ∨ a.pubkey = executionQueue ∨
      a.pubkey ≠ SYSVAR_INSTRUCTIONS_PUBKEY ∧ ⟨a.pubkey, false, false⟩ ∉ accounts

theorem eq_of_unsigned {a : AccountMeta} (hs : a.isSigner = false) :
    a = ⟨a.pubkey, false, a.isWritable⟩ := by
  rw [← hs]

/-- Then an entry is normalised to its joined flags. -/
theorem directEntry_eq_effective (hl : ∀ a ∈ l, a.isSigner = false) (hcond : WritableApart g q l)
    {a : AccountMeta} (ha : a ∈ l) :
    directEntry g q a = effective (fixedAccounts g q ++ l) a := by
  rw [effective_of_unsigned hl, directEntry]
  by_cases hgq : a.pubkey = g ∨ a.pubkey = q
  · rw [if_pos hgq]
    simp [or_assoc.symm, hgq]
  have hg : a.pubkey ≠ g := fun h => hgq (.inl h)
  have hq : a.pubkey ≠ q := fun h => hgq (.inr h)
  rw [if_neg hgq]
  have hwritable : joined AccountMeta.pubkey AccountMeta.isWritable l a.pubkey = true →
      a.pubkey ≠ SYSVAR_INSTRUCTIONS_PUBKEY ∧ ⟨a.pubkey, false, false⟩ ∉ l := by
    intro hj
    obtain ⟨b, hb, hkey, hw⟩ := joined_eq_true.1 hj
    rw [← hkey]
    rcases hcond b hb hw with h | h | h
    · exact absurd (hkey.symm.trans h) hg
    · exact absurd (hkey.symm.trans h) hq
    · exact h
  by_cases hsysvar : a.pubkey = SYSVAR_INSTRUCTIONS_PUBKEY
  · rw [if_pos hsysvar]
    have hj : joined AccountMeta.pubkey AccountMeta.isWritable l a.pubkey = false := by
      rw [Bool.eq_false_iff]
      exact fun hj => (hwritable hj).1 hsysvar
    simp [hg, hq, hj]
  · rw [if_neg hsysvar]
    have e := eq_of_unsigned (hl a ha)
    have hj : joined AccountMeta.pubkey AccountMeta.isWritable l a.pubkey = a.isWritable := by
      rw [Bool.eq_iff_iff]
      constructor
      · intro hj
        by_contra hw
        rw [Bool.eq_false_iff.2 hw] at e
        exact (hwritable hj).2 (e ▸ ha)
      · exact fun hw => joined_eq_true.2 ⟨a, ha, rfl, hw⟩
    rw [hj]
    simpa [hg, hq] using e

/-- The list up to the owner's first entry, that entry, and the rest. -/
theorem exists_owner_split (hu : u ∈ l.map AccountMeta.pubkey) :
    ∃ before owner after, l = before ++ owner :: after ∧ owner.pubkey = u ∧
      ∀ a ∈ before, a.pubkey ≠ u := by
  obtain ⟨xs, ys, hkeys, hfirst⟩ := List.eq_append_cons_of_mem hu
  obtain ⟨before, rest, rfl, rfl, hrest⟩ := List.map_eq_append_iff.1 hkeys
  obtain ⟨owner, after, rfl, howner, -⟩ := List.map_eq_cons_iff.1 hrest
  exact ⟨before, owner, after, rfl, howner, fun a ha heq =>
    hfirst (heq ▸ List.mem_map_of_mem ha)⟩

/-- The hashed lists are the same when every entry is normalised to its joined flags, where the
owner's first entry has none. -/
theorem sameList_iff {before after : List AccountMeta} {owner : AccountMeta}
    (hbefore : ∀ a ∈ before, a.pubkey ≠ owner.pubkey) (hsplit : l = before ++ owner :: after) :
    accountsForV5DirectEnqueue g q l owner.pubkey = accountsForCtmEnqueue g q l ↔
      (∀ a ∈ before ++ after, directEntry g q a = effective (fixedAccounts g q ++ l) a) ∧
        effective (fixedAccounts g q ++ l) owner = ⟨owner.pubkey, false, false⟩ := by
  have hdirect : accountsForV5DirectEnqueue g q (before ++ owner :: after) owner.pubkey =
      before.map (directEntry g q) ++ ⟨owner.pubkey, false, false⟩ :: after.map (directEntry g q) :=
    accountsForV5DirectEnqueue_split hbefore
  rw [← hsplit] at hdirect
  rw [hdirect, accountsForCtmEnqueue_eq]
  generalize effective (fixedAccounts g q ++ l) = eff
  rw [hsplit, List.map_append, List.map_cons]
  constructor
  · intro h
    obtain ⟨hb, hrest⟩ := List.append_inj h (by simp)
    obtain ⟨ho, ha⟩ := List.cons.inj hrest
    refine ⟨fun a hmem => ?_, ho.symm⟩
    rcases List.mem_append.1 hmem with hm | hm
    · exact List.map_inj_left.1 hb a hm
    · exact List.map_inj_left.1 ha a hm
  · rintro ⟨h, ho⟩
    rw [ho, List.map_congr_left fun a ha => h a (List.mem_append_left _ ha),
      List.map_congr_left fun a ha => h a (List.mem_append_right _ ha)]

/-- A writable entry shows up in the joined flags of its key. -/
theorem effective_of_writable (hl : ∀ a ∈ l, a.isSigner = false) {a b : AccountMeta} (ha : a ∈ l)
    (hw : a.isWritable = true) (hkey : b.pubkey = a.pubkey) :
    effective (fixedAccounts g q ++ l) b = ⟨a.pubkey, false, true⟩ := by
  have hj : joined AccountMeta.pubkey AccountMeta.isWritable l a.pubkey = true :=
    joined_eq_true.2 ⟨a, ha, rfl, hw⟩
  rw [effective_of_unsigned hl, hkey]
  simp [hj]

theorem writableApart_of_same (hl : ∀ a ∈ l, a.isSigner = false) {before after : List AccountMeta}
    {owner : AccountMeta} (hbefore : ∀ a ∈ before, a.pubkey ≠ owner.pubkey)
    (hsplit : l = before ++ owner :: after)
    (h : accountsForV5DirectEnqueue g q l owner.pubkey = accountsForCtmEnqueue g q l) :
    (owner.pubkey ≠ g ∧ owner.pubkey ≠ q) ∧ WritableApart g q l := by
  obtain ⟨hentry, howner⟩ := (sameList_iff hbefore hsplit).1 h
  refine ⟨?_, fun a ha hw => ?_⟩
  · rw [effective_of_unsigned hl, AccountMeta.mk.injEq, decide_eq_false_iff_not, not_or,
      not_or] at howner
    exact ⟨howner.2.2.1, howner.2.2.2.1⟩
  by_contra hc
  rw [not_or, not_or, not_and_or, not_not, not_not] at hc
  obtain ⟨hg, hq, hc⟩ := hc
  have hne : a.pubkey ≠ owner.pubkey := by
    intro heq
    rw [effective_of_writable hl ha hw heq.symm, AccountMeta.mk.injEq] at howner
    exact absurd howner.2.2 (by decide)
  -- every entry of the key is treated by itself, and must come out writable
  have hkey : ∀ b ∈ l, b.pubkey = a.pubkey → directEntry g q b = ⟨a.pubkey, false, true⟩ := by
    intro b hb heq
    rw [← effective_of_writable hl ha hw heq]
    refine hentry b ?_
    rw [hsplit, List.mem_append, List.mem_cons] at hb
    rw [List.mem_append]
    rcases hb with hb | rfl | hb
    · exact .inl hb
    · exact absurd heq.symm hne
    · exact .inr hb
  have hgq : ¬ (a.pubkey = g ∨ a.pubkey = q) := by
    rintro (h | h)
    · exact hg h
    · exact hq h
  rcases hc with hsysvar | hmem
  · have := hkey a ha rfl
    rw [directEntry, if_neg hgq, if_pos hsysvar, AccountMeta.mk.injEq] at this
    exact absurd this.2.2 (by decide)
  · have := hkey _ hmem rfl
    rw [directEntry, if_neg hgq] at this
    split at this <;> simp at this

theorem matches_of_writableApart (hl : ∀ a ∈ l, a.isSigner = false)
    {before after : List AccountMeta} {owner : AccountMeta}
    (hbefore : ∀ a ∈ before, a.pubkey ≠ owner.pubkey) (hsplit : l = before ++ owner :: after)
    (hu : (⟨owner.pubkey, false, false⟩ : AccountMeta) ∈ l) (hg : owner.pubkey ≠ g)
    (hq : owner.pubkey ≠ q) (hcond : WritableApart g q l) :
    DirectMatchesRelayed g q owner.pubkey l := by
  have hentry : ∀ a ∈ l, directEntry g q a = effective (fixedAccounts g q ++ l) a :=
    fun a ha => directEntry_eq_effective hl hcond ha
  have hj : joined AccountMeta.pubkey AccountMeta.isWritable l owner.pubkey = false := by
    rw [Bool.eq_false_iff]
    intro hj
    obtain ⟨b, hb, hkey, hw⟩ := joined_eq_true.1 hj
    rcases hcond b hb hw with h | h | h
    · exact hg (hkey ▸ h)
    · exact hq (hkey ▸ h)
    · exact h.2 (hkey ▸ hu)
  have howner : effective (fixedAccounts g q ++ l) owner = ⟨owner.pubkey, false, false⟩ := by
    rw [effective_of_unsigned hl]
    simp [hg, hq, hj]
  have hsub : before ++ after ⊆ l := by
    intro a ha
    rw [hsplit]
    rcases List.mem_append.1 ha with h | h <;> simp [h]
  have hsame := (sameList_iff hbefore hsplit).2 ⟨fun a ha => hentry a (hsub ha), howner⟩
  refine ⟨hsame, ?_, ?_⟩
  · rw [hsame, accountsForCtmEnqueue_eq]
    intro a ha b hb hkey
    obtain ⟨a, -, rfl⟩ := List.mem_map.1 ha
    obtain ⟨b, -, rfl⟩ := List.mem_map.1 hb
    rw [effective_eq, effective_eq] at hkey ⊢
    dsimp only at hkey
    rw [hkey]
  · rw [hsame, accountsForCtmEnqueue_eq]
    exact (List.map_congr_left hentry).symm

/-- **When the two hashes bind the same list**: the owner is neither the group nor the queue, and no
writable key is treated apart from its other entries. -/
theorem directMatchesRelayed_iff (hl : ∀ a ∈ l, a.isSigner = false)
    (hu : (⟨u, false, false⟩ : AccountMeta) ∈ l) :
    DirectMatchesRelayed g q u l ↔ (u ≠ g ∧ u ≠ q) ∧ WritableApart g q l := by
  obtain ⟨before, owner, after, hsplit, howner, hbefore⟩ :=
    exists_owner_split (List.mem_map_of_mem (f := AccountMeta.pubkey) hu)
  dsimp only at howner
  subst howner
  constructor
  · exact fun h => writableApart_of_same hl hbefore hsplit h.same
  · rintro ⟨⟨hg, hq⟩, hcond⟩
    exact matches_of_writableApart hl hbefore hsplit hu hg hq hcond

end

end Intents

namespace Context

open Intents

/-- The accounts that the canonical list passes as writable. -/
def writableKeys (context : FermiV1Context) (perpMarket : PerpMarket) : List PublicKey :=
  [context.fermiAccount.publicKey, perpMarket.publicKey, perpMarket.bids, perpMarket.asks,
    perpMarket.eventQueue]

/-- The writable entries of the canonical list. -/
theorem writable_mem_iff {context : FermiV1Context} {market : PerpMarket} {keys : List PublicKey}
    {P : PublicKey → Prop} :
    (∀ a ∈ fixedMetas context market ++ keys.map readonly, a.isWritable = true → P a.pubkey) ↔
      ∀ k ∈ writableKeys context market, P k := by
  simp [fixedMetas, writableKeys, readonly]

/-- **The direct path binds the canonical list exactly when no writable account of it occurs
read-only as well**, the group and the queue apart. -/
theorem canonical_direct_iff {context : FermiV1Context} {index : JsNumber}
    {accounts : List AccountMeta} {market : PerpMarket}
    (hmarket : context.group.getPerpMarketByMarketIndex index = .ok market)
    (h : buildCanonicalPerpRemainingAccounts context index = .ok accounts)
    (group queue : PublicKey) :
    DirectMatchesRelayed group queue context.user.publicKey accounts ↔
      (context.user.publicKey ≠ group ∧ context.user.publicKey ≠ queue) ∧
        ∀ k ∈ writableKeys context market,
          k = group ∨ k = queue ∨ k ≠ SYSVAR_INSTRUCTIONS_PUBKEY ∧ readonly k ∉ accounts := by
  obtain ⟨market', -, found, fallbackMap, hmarket', -, -, -, -, rfl⟩ :=
    buildCanonicalPerpRemainingAccounts_eq_ok.1 h
  cases hmarket.symm.trans hmarket'
  rw [directMatchesRelayed_iff]
  · exact and_congr_right fun _ => writable_mem_iff (P := fun k =>
      k = group ∨ k = queue ∨ k ≠ SYSVAR_INSTRUCTIONS_PUBKEY ∧ readonly k ∉ _)
  · simp [fixedMetas, readonly]
  · simp [fixedMetas]

/-- The two hashes differ whenever the group lists the target market, as the health check needs it
to, unless the market's key is the group's or the queue's. -/
theorem direct_differs_of_listed {context : FermiV1Context} {index : JsNumber}
    {accounts : List AccountMeta} {market : PerpMarket}
    (hmarket : context.group.getPerpMarketByMarketIndex index = .ok market)
    (h : buildCanonicalPerpRemainingAccounts context index = .ok accounts) {group queue : PublicKey}
    (hlisted : market ∈ context.group.perpMarkets) (hg : market.publicKey ≠ group)
    (hq : market.publicKey ≠ queue) :
    ¬ DirectMatchesRelayed group queue context.user.publicKey accounts := by
  intro hmatch
  have hcond := ((canonical_direct_iff hmarket h group queue).1 hmatch).2
  obtain ⟨_, _, found, fallbackMap, -, -, -, -, -, haccounts⟩ :=
    buildCanonicalPerpRemainingAccounts_eq_ok.1 h
  rw [haccounts] at hcond
  rcases hcond market.publicKey (by simp [writableKeys]) with heq | heq | ⟨-, hnot⟩
  · exact hg heq
  · exact hq heq
  · refine hnot (List.mem_append_right _ (List.mem_map_of_mem ?_))
    simp only [healthKeys, List.mem_append, List.mem_map, List.mem_insertionSort]
    exact .inl (.inl (.inl (.inl (.inr ⟨market, hlisted, rfl⟩))))

/-- Market 5 of two: its entry among the group's markets is read-only for the direct hash and
writable for the relayed one. -/
theorem direct_differs_two_markets :
    buildCanonicalPerpRemainingAccounts TwoMarkets.context (.int 5) = .ok TwoMarkets.accounts ∧
      accountsForV5DirectEnqueue (TwoMarkets.key 1) (TwoMarkets.key 7) TwoMarkets.accounts
          TwoMarkets.context.user.publicKey ≠
        accountsForCtmEnqueue (TwoMarkets.key 1) (TwoMarkets.key 7) TwoMarkets.accounts :=
  ⟨rfl, by decide⟩

/-- The list for market 5 when the group does not list it. -/
def unlistedAccounts : List AccountMeta :=
  TwoMarkets.accounts.take 8 ++
    [20, 21, 22, 10, 11, 12, 40, 44, 61, 30].map fun b => readonly (TwoMarkets.key b)

/-- A market that the group does not list is bound alike by both paths. -/
theorem canonical_direct_at_unlisted_market :
    DirectMatchesRelayed (TwoMarkets.key 1) (TwoMarkets.key 7) (TwoMarkets.key 3)
      unlistedAccounts :=
  (@canonical_direct_iff
    { TwoMarkets.context with
      group := { TwoMarkets.group with perpMarkets := [TwoMarkets.market 3 40] } }
    (.int 5) unlistedAccounts (TwoMarkets.market 5 50) rfl rfl (TwoMarkets.key 1)
    (TwoMarkets.key 7)).2 ⟨by decide, by decide⟩

end Context

end FermiSdk
