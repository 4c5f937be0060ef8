import FermiSdk.Flp.Verify.DocumentedCoder
import FermiSdk.Flp.Verify.Metas
import FermiSdk.Lib.Runs

/-!
# When the cache of event queues is transparent

A client remembers the event queue of every account it has looked up, and that an account has none.
The bytes of an account that decide about its queue never change, so what it remembers of an account
that was there stays true. That an account is missing does not stay true: if a perp market is created
there later, the client leaves its queue out from then on (`Stale`). Without such a creation a call
returns what a client without a memory returns (`queue_cache_transparent_iff`).
-/

namespace FermiSdk.Flp

open FermiSdk.Lib

/-! ## The chain and the calls -/

/-- The account may be written: it is new, or it keeps the bytes that decide about its queue. -/
def Keeps (chain : Connection) (key : PublicKey) (account : AccountInfo) : Prop :=
  ∀ old ∈ chain.getAccountInfo key,
    account.data.take (PERP_MARKET_EVENT_QUEUE_OFFSET + 32) =
      old.data.take (PERP_MARKET_EVENT_QUEUE_OFFSET + 32)

instance {chain : Connection} {key : PublicKey} {account : AccountInfo} :
    Decidable (Keeps chain key account) :=
  inferInstanceAs (Decidable (∀ old ∈ chain.getAccountInfo key, _))

def writeAccount (chain : Connection) (key : PublicKey) (account : AccountInfo) : Connection where
  getAccountInfo other := if other = key then some account else chain.getAccountInfo other

inductive QueueEvent where
  /-- The account is created or written on chain. -/
  | wrote (key : PublicKey) (account : AccountInfo)
  | eventQueueMetas (health : List AccountMeta)
  | withEventQueues (health : List AccountMeta)

/-- The client after an event; a write that the chain does not allow is refused. -/
def queueStep (rt : Runtime) (client : FlpClient) : QueueEvent → Option FlpClient
  | .wrote key account =>
    if Keeps client.connection key account then
      some { client with connection := writeAccount client.connection key account }
    else none
  | .eventQueueMetas health => some (client.eventQueueMetas rt health).2
  | .withEventQueues health => some (client.withEventQueues rt health).2

section

variable {rt : Runtime} {client client' : FlpClient} {event : QueueEvent} {key : PublicKey}

/-- The client that remembers nothing. -/
def fresh (client : FlpClient) : FlpClient := { client with marketQueues := [] }

/-- The event queues that the chain has for the distinct accounts of `health`, in order. -/
def currentQueues (rt : Runtime) (chain : Connection) (health : List AccountMeta) :
    List AccountMeta :=
  ((health.map (·.pubkey)).eraseDups.filterMap fun key =>
    marketQueue rt (chain.getAccountInfo key)).map fun pubkey => ⟨pubkey, false, false⟩

/-- Whatever is called next returns what the chain has. -/
def Transparent (rt : Runtime) (client : FlpClient) : Prop :=
  ∀ health, (client.eventQueueMetas rt health).1 = currentQueues rt client.connection health ∧
    (client.withEventQueues rt health).1 = health ++ currentQueues rt client.connection health

/-- No perp market is created at an address where the client found no account. -/
def NoLateMarket (rt : Runtime) (client : FlpClient) : QueueEvent → Prop
  | .wrote key account =>
    client.marketQueues.lookup key = some none → client.connection.getAccountInfo key = none →
      marketQueue rt (some account) = none
  | _ => True

instance : Decidable (NoLateMarket rt client event) :=
  match event with
  | .wrote key account => inferInstanceAs (Decidable (client.marketQueues.lookup key = some none →
      client.connection.getAccountInfo key = none → marketQueue rt (some account) = none))
  | .eventQueueMetas _ => .isTrue trivial
  | .withEventQueues _ => .isTrue trivial

/-- A step writes an account or learns the queues of some accounts. -/
theorem queueStep_cases (h : queueStep rt client event = some client') :
    (∃ key account, event = .wrote key account ∧ Keeps client.connection key account ∧
      client' = { client with connection := writeAccount client.connection key account }) ∨
    (∃ health, client' = { client with
        marketQueues := learnQueues rt client.connection client.marketQueues health } ∧
      NoLateMarket rt client event) := by
  cases event with
  | wrote key account =>
    left
    rw [queueStep, Option.ite_none_right_eq_some, Option.some_inj] at h
    exact ⟨key, account, rfl, h.1, h.2.symm⟩
  | eventQueueMetas health =>
    right
    exact ⟨health, (Option.some_inj.1 h).symm, trivial⟩
  | withEventQueues health =>
    right
    exact ⟨health, (Option.some_inj.1 h).symm, trivial⟩

/-! ## Perp markets -/

theorem marketQueue_none : marketQueue rt none = none := rfl

/-- The queue of a perp market is the key at byte 128. -/
theorem marketQueue_eq_some {account : Option AccountInfo} {queue : PublicKey} :
    marketQueue rt account = some queue ↔
      ∃ info, account = some info ∧ PERP_MARKET_EVENT_QUEUE_OFFSET + 32 ≤ info.data.length ∧
        info.data.take 8 = accountDiscriminator rt "PerpMarket" ∧
        (info.data.drop PERP_MARKET_EVENT_QUEUE_OFFSET).take 32 = queue.bytes := by
  unfold marketQueue PERP_MARKET_EVENT_QUEUE_OFFSET
  cases account with
  | none => simp
  | some info =>
    have hmarket : ((info.data.take (128 + 32)).length < 128 + 32 ∨
        (info.data.take (128 + 32)).take 8 ≠ accountDiscriminator rt "PerpMarket") ↔
        ¬ (128 + 32 ≤ info.data.length ∧
          info.data.take 8 = accountDiscriminator rt "PerpMarket") := by
      rw [List.take_take, List.length_take, not_and_or]
      simp
    simp only [Option.bind_eq_bind, Option.bind_some, Option.some_inj, exists_eq_left', hmarket,
      ite_not, Option.ite_none_right_eq_some, and_assoc]
    refine and_congr_right fun hlen => and_congr_right fun _ => ?_
    have hsize : ((info.data.take (128 + 32)).drop 128).length = 32 := by
      rw [List.length_drop, List.length_take]
      omega
    have hbytes : (info.data.take (128 + 32)).drop 128 = (info.data.drop 128).take 32 := by
      rw [List.drop_take]
    rw [PublicKey.ofBytes, dif_pos hsize, ← hbytes]
    exact Option.some_inj.trans Bytes32.ext_iff

/-- Only the first bytes of an account decide about its queue. -/
theorem marketQueue_congr {old account : AccountInfo}
    (h : account.data.take (PERP_MARKET_EVENT_QUEUE_OFFSET + 32) =
      old.data.take (PERP_MARKET_EVENT_QUEUE_OFFSET + 32)) :
    marketQueue rt (some account) = marketQueue rt (some old) := by
  unfold marketQueue
  simp only [Option.bind_eq_bind, Option.bind_some, h]

/-! ## What a client remembers -/

/-- What the client remembers is so. -/
def Agrees (rt : Runtime) (client : FlpClient) : Prop :=
  ∀ key queue, client.marketQueues.lookup key = some queue →
    queue = marketQueue rt (client.connection.getAccountInfo key)

/-- The client remembers of a perp market that it has no queue. -/
def Stale (rt : Runtime) (client : FlpClient) : Prop :=
  ∃ key, client.marketQueues.lookup key = some none ∧
    marketQueue rt (client.connection.getAccountInfo key) ≠ none

theorem agrees_fresh : Agrees rt (fresh client) := by
  intro key queue hlookup
  cases hlookup

theorem Agrees.queueOf (h : Agrees rt client) :
    queueOf rt client key = marketQueue rt (client.connection.getAccountInfo key) := by
  unfold FermiSdk.queueOf
  cases hlookup : client.marketQueues.lookup key with
  | none => rfl
  | some queue => exact h key queue hlookup

theorem Agrees.transparent (h : Agrees rt client) : Transparent rt client := by
  intro health
  have hmetas : (client.eventQueueMetas rt health).1 =
      currentQueues rt client.connection health := by
    rw [eventQueueMetas_eq, eventQueues, currentQueues]
    congr 1
    exact List.filterMap_congr fun key _ => h.queueOf
  exact ⟨hmetas, congrArg (health ++ ·) hmetas⟩

/-- A call for the forgotten market alone finds nothing. -/
theorem Stale.not_transparent (h : Stale rt client) : ¬ Transparent rt client := by
  obtain ⟨key, hknown, hmarket⟩ := h
  intro htransparent
  have hmetas := (htransparent [⟨key, false, false⟩]).1
  have hqueueOf : queueOf rt client key = none := by
    unfold queueOf
    rw [hknown]
  obtain ⟨queue, hqueue⟩ := Option.ne_none_iff_exists'.1 hmarket
  rw [eventQueueMetas_eq, eventQueues, currentQueues] at hmetas
  simp [List.eraseDups_cons, hqueueOf, hqueue] at hmetas

/-- What is learnt is what the chain has. -/
theorem lookup_learnt {health : List AccountMeta} {queue : Option PublicKey}
    (h : (learnQueues rt client.connection client.marketQueues health).lookup key = some queue) :
    client.marketQueues.lookup key = some queue ∨
      queue = marketQueue rt (client.connection.getAccountInfo key) := by
  unfold learnQueues at h
  rw [List.lookup_append, Option.or_eq_some_iff] at h
  rcases h with hknown | ⟨-, hlearnt⟩
  · exact .inl hknown
  · right
    obtain ⟨before, after, happend, -⟩ := List.lookup_eq_some_iff.1 hlearnt
    have hmem : (key, queue) ∈ before ++ (key, queue) :: after :=
      List.mem_append_right _ List.mem_cons_self
    rw [← happend] at hmem
    obtain ⟨other, -, heq⟩ := List.mem_map.1 hmem
    cases heq
    rfl

theorem Agrees.step (hclient : Agrees rt client) (hevent : NoLateMarket rt client event)
    (h : queueStep rt client event = some client') : Agrees rt client' := by
  rcases queueStep_cases h with ⟨key, account, rfl, hkeeps, rfl⟩ | ⟨health, rfl, -⟩
  · intro other queue hlookup
    have hqueue := hclient other queue hlookup
    by_cases heq : other = key
    · subst heq
      simp only [writeAccount, if_true]
      cases hold : client.connection.getAccountInfo other with
      | some old => rw [hqueue, hold, marketQueue_congr (hkeeps old hold)]
      | none =>
        rw [hold, marketQueue_none] at hqueue
        subst hqueue
        exact (hevent hlookup hold).symm
    · simp only [writeAccount, if_neg heq]
      exact hqueue
  · intro other queue hlookup
    rcases lookup_learnt hlookup with hknown | hlearnt
    · exact hclient other queue hknown
    · exact hlearnt

theorem Stale.step (hclient : Stale rt client) (h : queueStep rt client event = some client') :
    Stale rt client' := by
  obtain ⟨stale, hknown, hmarket⟩ := hclient
  refine ⟨stale, ?_⟩
  rcases queueStep_cases h with ⟨key, account, rfl, hkeeps, rfl⟩ | ⟨health, rfl, -⟩
  · refine ⟨hknown, ?_⟩
    by_cases heq : stale = key
    · subst heq
      simp only [writeAccount, if_true]
      cases hold : client.connection.getAccountInfo stale with
      | none =>
        rw [hold] at hmarket
        exact absurd marketQueue_none hmarket
      | some old =>
        rw [hold] at hmarket
        rwa [marketQueue_congr (hkeeps old hold)]
    · simpa only [writeAccount, if_neg heq] using hmarket
  · refine ⟨?_, hmarket⟩
    unfold learnQueues
    rw [List.lookup_append, hknown, Option.some_or]

theorem stale_of_step (hevent : ¬ NoLateMarket rt client event)
    (h : queueStep rt client event = some client') : Stale rt client' := by
  rcases queueStep_cases h with ⟨key, account, rfl, -, rfl⟩ | ⟨-, -, hok⟩
  · obtain ⟨hknown, hrest⟩ := Classical.not_imp.1 hevent
    obtain ⟨-, hmarket⟩ := Classical.not_imp.1 hrest
    refine ⟨key, hknown, ?_⟩
    simpa only [writeAccount, if_true] using hmarket
  · exact absurd hok hevent

end

/-! ## Runs -/

/-- **The cache is transparent unless a market appears where no account was found.** A client without
a memory returns the queues that the chain has, which are those at byte 128 of its perp markets; and
after a run of calls and writes a client returns the same, whatever is called next, exactly if no
write of the run created a perp market at an address where the client had found no account. -/
theorem queue_cache_transparent_iff (rt : Runtime) (start : FlpClient) :
    (∀ account queue, marketQueue rt account = some queue ↔
      ∃ info, account = some info ∧ PERP_MARKET_EVENT_QUEUE_OFFSET + 32 ≤ info.data.length ∧
        info.data.take 8 = accountDiscriminator rt "PerpMarket" ∧
        (info.data.drop PERP_MARKET_EVENT_QUEUE_OFFSET).take 32 = queue.bytes) ∧
    (∀ client : FlpClient, Transparent rt (fresh client)) ∧
    ∀ events client, run (queueStep rt) (fresh start) events = some client →
      (Along (queueStep rt) (NoLateMarket rt) (fresh start) events ↔ Transparent rt client) := by
  refine ⟨fun account queue => marketQueue_eq_some, fun client => agrees_fresh.transparent,
    fun events client h => ⟨fun halong => ?_, fun htransparent => ?_⟩⟩
  · have hagrees : Agrees rt client := Along.induction (I := fun _ client => Agrees rt client)
      (fun _ _ _ _ hclient hevent hstep => hclient.step hevent hstep) agrees_fresh halong h
    exact hagrees.transparent
  · by_contra hnot
    have hstale : Stale rt client := run_of_not_along (L := Stale rt)
      (fun _ _ _ => stale_of_step) (fun _ _ _ => Stale.step) hnot h
    exact hstale.not_transparent htransparent

/-- Knows the hash behind the discriminator of perp markets. -/
def marketRuntime : Runtime :=
  Runtime.ofTables [(Buffer.ofAscii "account:PerpMarket",
    ⟨[10, 223, 12, 44, 107, 245, 55, 247, 167, 80, 233, 195, 170, 44, 107, 239,
      17, 224, 140, 155, 123, 228, 178, 143, 85, 155, 36, 216, 199, 212, 165, 161], rfl⟩)] [] []

def emptyClient : FlpClient where
  connection := { getAccountInfo := fun _ => none }
  programId := PublicKey.default
  coder := .documented marketRuntime FLP_METHODS
  marketQueues := []

def newMarket : PublicKey := ⟨List.replicate 32 7, rfl⟩

def newQueue : PublicKey := ⟨List.replicate 32 9, rfl⟩

def newMarketAccount : AccountInfo where
  owner := PublicKey.default
  data := [10, 223, 12, 44, 107, 245, 55, 247] ++ List.replicate 120 0 ++ newQueue.bytes

def newMarketHealth : List AccountMeta := [⟨newMarket, false, false⟩]

/-- The market is looked up before it is created. -/
def earlyLookup : List QueueEvent := [
  .eventQueueMetas newMarketHealth, .wrote newMarket newMarketAccount]

theorem queue_cache_forgets_new_market :
    ∃ client, run (queueStep marketRuntime) emptyClient earlyLookup = some client ∧
      (client.eventQueueMetas marketRuntime newMarketHealth).1 = [] ∧
      ((fresh client).eventQueueMetas marketRuntime newMarketHealth).1 =
        [⟨newQueue, false, false⟩] :=
  ⟨_, rfl, by decide +kernel, by decide +kernel⟩

/-- The market is created, looked up and written again. -/
def punctualLookup : List QueueEvent := [
  .wrote newMarket newMarketAccount, .withEventQueues newMarketHealth,
  .wrote newMarket { newMarketAccount with owner := newMarket }]

theorem queue_cache_transparent_punctual :
    ∃ client, run (queueStep marketRuntime) emptyClient punctualLookup = some client ∧
      Transparent marketRuntime client := by
  have halong : Along (queueStep marketRuntime) (NoLateMarket marketRuntime) (fresh emptyClient)
      punctualLookup := by decide +kernel
  obtain ⟨client, hclient⟩ : ∃ client,
      run (queueStep marketRuntime) emptyClient punctualLookup = some client :=
    Option.isSome_iff_exists.1 (by decide +kernel)
  exact ⟨client, hclient, ((queue_cache_transparent_iff marketRuntime emptyClient).2.2
    punctualLookup client hclient).1 halong⟩

end FermiSdk.Flp
