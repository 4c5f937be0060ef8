import FermiSdk.Flp.Verify.Instructions

/-!
# What a close lists

The accounts of its definition, if the caller names those that the client does not fill in
(`Supplied`), and after the health accounts the event queues of the distinct markets among them
(`eventQueueMetas_eq`).
-/

namespace FermiSdk

open FermiSdk.Lib

/-! ## Named accounts -/

/-- Every account of the instruction that the client does not fill in itself is named by the
caller, unless it is optional. -/
def Supplied (definition : IdlInstruction) (own : List String) (accounts : NamedAccounts) : Prop :=
  ∀ item ∈ definition.paths, item.path ∉ own → item.isOptional = false →
    (accounts item.path).isSome

theorem NamedAccounts.set_isSome {accounts : NamedAccounts} {own : List (String × PublicKey)}
    {path : String} (h : path ∉ own.map Prod.fst → (accounts path).isSome) :
    (accounts.set own path).isSome := by
  unfold NamedAccounts.set
  cases hlookup : own.lookup path with
  | some key => rfl
  | none =>
    rw [Option.none_or]
    apply h
    intro hmem
    obtain ⟨entry, hentry, hpath⟩ := List.mem_map.1 hmem
    have := List.lookup_eq_none_iff.1 hlookup entry hentry
    rw [hpath, bne_self_eq_false] at this
    cases this

/-! ## Event queues -/

section

variable {rt : Runtime} {client : FlpClient} {known : MarketQueues}

/-- The event queue that a client takes an account to have: the one it knows, or the one it reads. -/
def queueOf (rt : Runtime) (client : FlpClient) (key : PublicKey) : Option PublicKey :=
  match client.marketQueues.lookup key with
  | some known => known
  | none => marketQueue rt (client.connection.getAccountInfo key)

/-- The event queues of the distinct accounts of `health`, in order. -/
def eventQueues (rt : Runtime) (client : FlpClient) (health : List AccountMeta) : List PublicKey :=
  (health.map (·.pubkey)).eraseDups.filterMap (queueOf rt client)

/-- Only the seen accounts that have a queue matter. -/
theorem queueMetas_congr {seen seen' : List PublicKey} {health : List AccountMeta}
    (h : ∀ key, (known.lookup key).join ≠ none → (key ∈ seen ↔ key ∈ seen')) :
    queueMetas known seen health = queueMetas known seen' health := by
  induction health generalizing seen seen' with
  | nil => rfl
  | cons account health ih =>
    rw [queueMetas, queueMetas]
    cases hq : (known.lookup account.pubkey).join with
    | none => exact ih h
    | some queue =>
      have hiff := h account.pubkey (by rw [hq]; exact Option.some_ne_none queue)
      have hcons : queueMetas known (account.pubkey :: seen) health =
          queueMetas known (account.pubkey :: seen') health := by
        apply ih
        intro key hkey
        rw [List.mem_cons, List.mem_cons, h key hkey]
      simp only [hiff, hcons, ih h]

theorem filter_notMem_cons {key : PublicKey} {seen keys : List PublicKey} :
    ((keys.filter (· ∉ seen)).filter fun other => !other == key) =
      keys.filter (· ∉ key :: seen) := by
  rw [List.filter_filter]
  apply List.filter_congr
  intro other _
  by_cases heq : other = key <;> simp [heq]

theorem queueMetas_eq {seen : List PublicKey} {health : List AccountMeta} :
    queueMetas known seen health =
      (((health.map (·.pubkey)).filter (· ∉ seen)).eraseDups.filterMap fun key =>
        (known.lookup key).join).map fun pubkey => ⟨pubkey, false, false⟩ := by
  induction health generalizing seen with
  | nil => rfl
  | cons account health ih =>
    rw [queueMetas, List.map_cons]
    by_cases hseen : account.pubkey ∈ seen
    · rw [List.filter_cons_of_neg (by simpa using hseen), ← ih]
      cases (known.lookup account.pubkey).join with
      | none => rfl
      | some queue => simp only [hseen, if_true]
    · rw [List.filter_cons_of_pos (by simpa using hseen), List.eraseDups_cons, filter_notMem_cons]
      cases hq : (known.lookup account.pubkey).join with
      | none =>
        rw [List.filterMap_cons, hq, ← ih]
        apply queueMetas_congr
        intro key hkey
        rw [List.mem_cons]
        refine (or_iff_right ?_).symm
        rintro rfl
        exact hkey hq
      | some queue =>
        rw [List.filterMap_cons, hq, List.map_cons, ← ih]
        simp only [hseen, if_false]

/-- After learning the queues of `health`, a client knows what it takes its accounts to have. -/
theorem lookup_learnQueues {health : List AccountMeta} {key : PublicKey}
    (h : key ∈ health.map (·.pubkey)) :
    ((learnQueues rt client.connection client.marketQueues health).lookup key).join =
      queueOf rt client key := by
  unfold learnQueues queueOf
  rw [List.lookup_append]
  cases hknown : client.marketQueues.lookup key with
  | some known => rfl
  | none =>
    rw [Option.none_or, List.lookup_graph]
    · rfl
    · rw [List.mem_filter, List.mem_eraseDups, hknown]
      exact ⟨h, rfl⟩

theorem eventQueueMetas_eq {health : List AccountMeta} :
    (client.eventQueueMetas rt health).1 =
      (eventQueues rt client health).map fun pubkey => ⟨pubkey, false, false⟩ := by
  unfold FlpClient.eventQueueMetas eventQueues
  simp only [queueMetas_eq, List.not_mem_nil, not_false_eq_true, decide_true, List.filter_true]
  congr 1
  apply List.filterMap_congr
  intro key hkey
  rw [List.mem_eraseDups] at hkey
  exact lookup_learnQueues hkey

end

end FermiSdk
