import FermiSdk.TriggerOrders.Verify.Submission

/-!
# Cancelling and reading trigger orders

A cancellation is signed and then written as JSON, a query is checked and then written as a URL. Both
are read again by the gateway: it recovers what the caller asked for, with a signature that the signer
made for just that (`cancel_received`, `reads_received`), and the checks of the client are exactly the
conditions that these theorems name.
-/

namespace FermiSdk.TriggerOrders

open FermiSdk.Lib FermiSdk.Lib.Url FermiSdk.Intents FermiSdk.Gateway

/-- A number that is written in eight bytes. -/
def IsU64 (n : Int) : Prop := 0 ≤ n ∧ n ≤ U64_MAX

instance (n : Int) : Decidable (IsU64 n) := inferInstanceAs (Decidable (0 ≤ n ∧ n ≤ U64_MAX))

/-- The index of a market. -/
def IsMarketIndex (index : JsNumber) : Prop := ∃ n, index = .int n ∧ 0 ≤ n ∧ n < 0xffff

/-! ## Cancellations -/

def readScope : RequestJson → Option TriggerCancelScope
  | .string text =>
    if text = "ids" then some .ids
    else if text = "oco_group" then some .oco_group
    else if text = "all" then some .all
    else none
  | _ => none

/-- What may be `null`. -/
def readNullable {α : Type} (read : RequestJson → Option α) : RequestJson → Option (Option α)
  | .null => some none
  | json => (read json).map some

/-- An integer in decimal. -/
def readDecimal (json : RequestJson) : Option Int := (readText json).bind String.toInt?

def readKey (json : RequestJson) : Option PublicKey := (readText json).bind PublicKey.ofBase58

/-- The cancellation in a group that a body stands for, and its signature. -/
def readCancel (group : PublicKey) : RequestJson → Option (TriggerCancelParams × Bytes) :=
  readObject fun fields => do
    pure ({
      group
      fermiAccount := ← required fields "mango_account" readKey
      signer := ← required fields "signer" readKey
      issuedAtMs := ← required fields "issued_at_ms" readDecimal
      scope := ← required fields "scope" readScope
      clientOrderIds := some (← required fields "client_order_ids" (readArray readDecimal))
      ocoGroup := ← required fields "oco_group" (readNullable readDecimal)
      marketIndex := ← required fields "market_index" (readNullable readNumber) },
      ← required fields "signature_b64" readBytes)

/-- A list that is not given is written as an empty one. -/
def TriggerCancelParams.listed (params : TriggerCancelParams) : TriggerCancelParams :=
  { params with clientOrderIds := some (params.clientOrderIds.getD []) }

/-- The cancellations that can be asked for. -/
structure CancelAllowed (params : TriggerCancelParams) : Prop where
  count : (params.clientOrderIds.getD []).length ≤ 0xffff
  ids : params.scope = .ids → params.clientOrderIds.getD [] ≠ []
  oco : params.scope = .oco_group → params.ocoGroup.getD 0 ≠ 0
  market : ∀ index ∈ params.marketIndex, IsMarketIndex index
  issued : IsU64 params.issuedAtMs
  group : IsU64 (params.ocoGroup.getD 0)
  id : ∀ n ∈ params.clientOrderIds.getD [], IsU64 n

theorem u64_ok_iff {n : Int} : (∃ bs, u64 n = .ok bs) ↔ IsU64 n := by
  simp only [u64_eq_ok, exists_and_left, exists_eq, and_true, valid_u64, IsU64]

theorem marketIndex_ok_iff {index : JsNumber} :
    (∃ u, marketIndex index = .ok u) ↔ IsMarketIndex index := by
  simp only [marketIndex_eq_ok, exists_const, IsMarketIndex]

theorem checkMarketIndex_ok_iff {index : Option JsNumber} :
    (∃ u, checkMarketIndex index = .ok u) ↔ ∀ n ∈ index, IsMarketIndex n := by
  cases index with
  | none => exact iff_of_true ⟨(), rfl⟩ fun n hn => absurd hn (Option.not_mem_none n)
  | some index =>
    simp only [Option.mem_def, Option.some.injEq, forall_eq']
    exact marketIndex_ok_iff

theorem mapM_u64_ok_iff {ids : List Int} :
    (∃ parts, ids.mapM u64 = .ok parts) ↔ ∀ n ∈ ids, IsU64 n := by
  induction ids with
  | nil => exact iff_of_true ⟨[], rfl⟩ fun n hn => absurd hn List.not_mem_nil
  | cons n ids ih =>
    rw [List.forall_mem_cons, ← ih, ← u64_ok_iff, List.mapM_cons]
    constructor
    · intro h
      simp only [Throws.bind_eq_ok] at h
      obtain ⟨_, part, hpart, parts, hparts, -⟩ := h
      exact ⟨⟨part, hpart⟩, parts, hparts⟩
    · rintro ⟨⟨part, hpart⟩, parts, hparts⟩
      exact ⟨part :: parts, by rw [hpart, hparts]; rfl⟩

/-- The index that stands for no market is no index of a market. -/
theorem u16_of_checked {index : Option JsNumber} (h : ∀ n ∈ index, IsMarketIndex n) :
    ∃ bs, u16 (index.getD (.int 0xffff)) = .ok bs := by
  cases index with
  | none => exact ⟨_, rfl⟩
  | some index =>
    obtain ⟨n, rfl, hn⟩ := h index rfl
    exact ⟨_, u16_int_eq_ok.2 ⟨by simp only [Codec.uint]; omega, rfl⟩⟩

/-- A cancellation has a hash exactly if it can be asked for. -/
theorem cancelHash_ok_iff {rt : Runtime} {params : TriggerCancelParams} :
    (∃ hash, triggerCancelMessageHash rt params = .ok hash) ↔ CancelAllowed params := by
  simp only [triggerCancelMessageHash, triggerCancelPreimage, Throws.bind_eq_ok, Throws.pure_eq_ok,
    Throws.throwIf_eq_ok, exists_const, not_or, not_and, not_lt, gt_iff_lt]
  constructor
  · rintro ⟨_, _, ⟨⟨hcount, hids⟩, hoco, u, hmarket, _, hissued, _, -, _, hgroup, _, -, parts, hparts,
      -⟩, -⟩
    exact ⟨hcount, hids, hoco, checkMarketIndex_ok_iff.1 ⟨u, hmarket⟩, u64_ok_iff.1 ⟨_, hissued⟩,
      u64_ok_iff.1 ⟨_, hgroup⟩, mapM_u64_ok_iff.1 ⟨parts, hparts⟩⟩
  · intro h
    obtain ⟨u, hmarket⟩ := checkMarketIndex_ok_iff.2 h.market
    obtain ⟨issued, hissued⟩ := u64_ok_iff.2 h.issued
    obtain ⟨index, hindex⟩ := u16_of_checked h.market
    obtain ⟨group, hgroup⟩ := u64_ok_iff.2 h.group
    obtain ⟨parts, hparts⟩ := mapM_u64_ok_iff.2 h.id
    have hcount := h.count
    exact ⟨_, _, ⟨⟨hcount, h.ids⟩, h.oco, u, hmarket, issued, hissued, index, hindex, group, hgroup, _,
      u16_int_eq_ok.2 ⟨by simp only [Codec.uint]; omega, rfl⟩, parts, hparts, rfl⟩, rfl⟩

/-- No list and an empty one have one hash. -/
theorem cancelHash_listed (rt : Runtime) (params : TriggerCancelParams) :
    triggerCancelMessageHash rt params.listed = triggerCancelMessageHash rt params := rfl

theorem readDecimal_toString (n : Int) : readDecimal (.string (toString n)) = some n :=
  Int.toInt?_repr n

theorem readKey_toBase58 (key : PublicKey) : readKey (.string key.toBase58) = some key :=
  PublicKey.ofBase58_toBase58 key

theorem readScope_text (scope : TriggerCancelScope) : readScope (.string scope.text) = some scope := by
  cases scope <;> rfl

theorem readNullable_text {value : Option Int} :
    readNullable readDecimal (((value.map toString).map .string).getD .null) = some value := by
  cases value with
  | none => rfl
  | some n => exact congrArg (Option.map some) (readDecimal_toString n)

theorem readNullable_number {value : Option JsNumber} :
    readNullable readNumber ((value.map .number).getD .null) = some value := by
  cases value <;> rfl

/-- **What is written of a cancellation is the cancellation.** -/
theorem readCancel_cancelJson {rt : Runtime} {params : TriggerCancelParams} {signature : Bytes}
    {body : CancelBody} (h : cancelTriggerOrders rt params signature = .ok body) :
    readCancel params.group (cancelJson body) = some (params.listed, signature) := by
  simp only [cancelTriggerOrders, Throws.bind_eq_ok, Throws.pure_eq_ok] at h
  obtain ⟨_, -, _, -, rfl⟩ := h
  have hids : readArray readDecimal (.array (((params.clientOrderIds.getD []).map toString).map
      .string)) = some (params.clientOrderIds.getD []) := by
    rw [List.map_map]
    exact readArray_map readDecimal_toString _
  simp only [readCancel, readObject, required, cancelJson, lookup_entry, String.reduceEq, reduceIte,
    Option.bind_eq_bind, Option.bind_some, readKey_toBase58, readDecimal_toString, readScope_text, hids,
    readNullable_text, readNullable_number, readBytes_encode]
  rfl

/-! ## Queries -/

def readFlag (text : String) : Option Bool :=
  if text = "true" then some true else if text = "false" then some false else none

/-- A number that a checked text stands for. -/
def readCount (text : String) : Option JsNumber := text.toInt?.map .int

/-- The query that the entries of a URL stand for. -/
def readListQuery (entries : List (String × String)) : Option TriggerOrderListQuery := do
  pure {
    fermiAccount := ← readOptional PublicKey.ofBase58 (entries.lookup "mango_account")
    accountOwner := ← readOptional PublicKey.ofBase58 (entries.lookup "account_owner")
    activeOnly := ← readOptional readFlag (entries.lookup "active")
    marketIndex := ← readOptional readCount (entries.lookup "market_index")
    clientOrderId := ← readOptional String.toInt? (entries.lookup "client_order_id")
    ocoGroup := ← readOptional String.toInt? (entries.lookup "oco_group")
    limit := ← readOptional readCount (entries.lookup "limit") }

/-- The queries that can be asked. -/
structure QueryAllowed (query : TriggerOrderListQuery) : Prop where
  scope : query.fermiAccount = none → query.accountOwner ≠ none
  market : ∀ index ∈ query.marketIndex, IsMarketIndex index
  id : ∀ n ∈ query.clientOrderId, IsU64 n
  group : ∀ n ∈ query.ocoGroup, IsU64 n
  limit : ∀ count ∈ query.limit, ∃ n, count = .int n ∧ 1 ≤ n ∧ n ≤ 1000

section

variable {α : Type} {value : Option α} {check : α → Throws String} {text : Option String}

theorem checkedText_ok_iff :
    (∃ text, checkedText value check = .ok text) ↔ ∀ a ∈ value, ∃ text, check a = .ok text := by
  cases value with
  | none => exact iff_of_true ⟨none, rfl⟩ fun a ha => absurd ha (Option.not_mem_none a)
  | some a =>
    simp only [checkedText, Throws.bind_eq_ok, Throws.pure_eq_ok, Option.mem_def, Option.some.injEq,
      forall_eq']
    constructor
    · rintro ⟨_, text, htext, -⟩
      exact ⟨text, htext⟩
    · rintro ⟨text, htext⟩
      exact ⟨some text, text, htext, rfl⟩

/-- What a check writes is read as what was checked. -/
theorem read_checkedText {read : String → Option α}
    (hread : ∀ a text, check a = .ok text → read text = some a)
    (h : checkedText value check = .ok text) : readOptional read text = some value := by
  cases value with
  | none =>
    cases h
    rfl
  | some a =>
    simp only [checkedText, Throws.bind_eq_ok, Throws.pure_eq_ok] at h
    obtain ⟨text, htext, rfl⟩ := h
    exact congrArg (Option.map some) (hread a text htext)

end

/-- The text under a name of a query. -/
theorem lookup_presentEntries {name key : String} {value : Option String}
    {query : List (String × Option String)} :
    (presentEntries ((name, value) :: query)).lookup key =
      (if key = name then value else none).or ((presentEntries query).lookup key) := by
  cases value with
  | none =>
    rw [ite_self]
    rfl
  | some text =>
    show ((name, text) :: presentEntries query).lookup key = _
    by_cases hkey : key = name
    · subst hkey
      simp
    · simp [List.lookup_cons, beq_false_of_ne hkey, hkey]

theorem readFlag_toString (b : Bool) : readFlag (toString b) = some b := by
  cases b <;> rfl

/-- A number of two bytes is read back from its text. -/
theorem readCount_toString {n : Int} (h : 0 ≤ n ∧ n ≤ 0xffff) :
    readCount (toString (JsNumber.int n)) = some (.int n) := by
  have hsafe : (JsNumber.int n).isSafeInteger = true := by
    rw [JsNumber.isSafeInteger_int]
    unfold MAX_SAFE_INTEGER
    omega
  rw [JsNumber.toString_int_of_safe hsafe]
  exact congrArg (Option.map JsNumber.int) (Int.toInt?_repr n)

theorem indexText_eq_ok {index : JsNumber} {text : String} :
    (do
      marketIndex index
      pure (toString index) : Throws String) = .ok text ↔
        IsMarketIndex index ∧ toString index = text := by
  simp only [Throws.bind_eq_ok, Throws.pure_eq_ok, exists_and_right, marketIndex_ok_iff]

theorem idText_eq_ok {n : Int} {label text : String} :
    (do pure (toString (← integer n U64_MAX label 0)) : Throws String) = .ok text ↔
      IsU64 n ∧ toString n = text := by
  simp only [Throws.bind_eq_ok, Throws.pure_eq_ok, integer_eq_ok, IsU64]
  constructor
  · rintro ⟨_, ⟨hn, rfl⟩, htext⟩
    exact ⟨hn, htext⟩
  · rintro ⟨hn, htext⟩
    exact ⟨n, ⟨hn, rfl⟩, htext⟩

theorem limitText_eq_ok {limit : JsNumber} {text : String} :
    (do
      throwIf (!limit.isIntegerIn 1 1000) "limit must be 1 to 1000"
      pure (toString limit) : Throws String) = .ok text ↔
        (∃ n, limit = .int n ∧ 1 ≤ n ∧ n ≤ 1000) ∧ toString limit = text := by
  simp only [Throws.bind_eq_ok, Throws.pure_eq_ok, Throws.throwIf_eq_ok, exists_const,
    Bool.not_eq_true', Bool.not_eq_false, JsNumber.isIntegerIn_iff]

/-- A query has entries exactly if it can be asked. -/
theorem entries_ok_iff {query : TriggerOrderListQuery} :
    (∃ entries, query.entries = .ok entries) ↔ QueryAllowed query := by
  simp only [TriggerOrderListQuery.entries, Throws.bind_eq_ok, Throws.throwIf_eq_ok, exists_const,
    Throws.pure_eq_ok, not_and]
  constructor
  · rintro ⟨_, hscope, _, hmarket, _, hid, _, hgroup, _, hlimit, -⟩
    have hmarket := checkedText_ok_iff.1 ⟨_, hmarket⟩
    have hid := checkedText_ok_iff.1 ⟨_, hid⟩
    have hgroup := checkedText_ok_iff.1 ⟨_, hgroup⟩
    have hlimit := checkedText_ok_iff.1 ⟨_, hlimit⟩
    simp only [indexText_eq_ok, idText_eq_ok, limitText_eq_ok, exists_and_left, exists_eq',
      and_true] at hmarket hid hgroup hlimit
    exact ⟨hscope, hmarket, hid, hgroup, hlimit⟩
  · intro h
    obtain ⟨market, hmarket⟩ := checkedText_ok_iff.2 fun index hindex =>
      ⟨_, indexText_eq_ok.2 ⟨h.market index hindex, rfl⟩⟩
    obtain ⟨id, hid⟩ := checkedText_ok_iff.2 fun n hn =>
      ⟨_, (@idText_eq_ok n "clientOrderId" _).2 ⟨h.id n hn, rfl⟩⟩
    obtain ⟨group, hgroup⟩ := checkedText_ok_iff.2 fun n hn =>
      ⟨_, (@idText_eq_ok n "ocoGroup" _).2 ⟨h.group n hn, rfl⟩⟩
    obtain ⟨limit, hlimit⟩ := checkedText_ok_iff.2 fun count hcount =>
      ⟨_, limitText_eq_ok.2 ⟨h.limit count hcount, rfl⟩⟩
    exact ⟨_, h.scope, market, hmarket, id, hid, group, hgroup, limit, hlimit, rfl⟩

/-- **What is written of a query is the query.** -/
theorem readListQuery_entries {query : TriggerOrderListQuery}
    {entries : List (String × Option String)} (h : query.entries = .ok entries) :
    readListQuery (presentEntries entries) = some query := by
  simp only [TriggerOrderListQuery.entries, Throws.bind_eq_ok, Throws.throwIf_eq_ok, exists_const,
    Throws.pure_eq_ok] at h
  obtain ⟨-, market, hmarket, id, hid, group, hgroup, limit, hlimit, rfl⟩ := h
  have hkey := @readOptional_map _ _ PublicKey.ofBase58 PublicKey.toBase58 PublicKey.ofBase58_toBase58
  have hflag := @readOptional_map _ _ readFlag toString readFlag_toString
  have hmarket := read_checkedText (fun index text h => by
    obtain ⟨⟨n, rfl, hrange⟩, rfl⟩ := indexText_eq_ok.1 h
    exact readCount_toString (by omega)) hmarket
  have hid := read_checkedText (fun n text h => by
    obtain ⟨-, rfl⟩ := idText_eq_ok.1 h
    exact Int.toInt?_repr n) hid
  have hgroup := read_checkedText (fun n text h => by
    obtain ⟨-, rfl⟩ := idText_eq_ok.1 h
    exact Int.toInt?_repr n) hgroup
  have hlimit := read_checkedText (fun count text h => by
    obtain ⟨⟨n, rfl, hrange⟩, rfl⟩ := limitText_eq_ok.1 h
    exact readCount_toString (by omega)) hlimit
  have hnil (key : String) : (presentEntries []).lookup key = none := rfl
  simp only [readListQuery, lookup_presentEntries, hnil, String.reduceEq, reduceIte, Option.none_or,
    Option.or_none, hkey, hflag, hmarket, hid, hgroup, hlimit, Option.bind_eq_bind, Option.bind_some]
  rfl

/-- A query has a scope, so it is written with an entry. -/
theorem entries_ne_nil {query : TriggerOrderListQuery} {entries : List (String × Option String)}
    (h : query.entries = .ok entries) : presentEntries entries ≠ [] := by
  intro hnil
  have hread := readListQuery_entries h
  rw [hnil] at hread
  obtain rfl : ⟨none, none, none, none, none, none, none⟩ = query := Option.some.inj hread
  exact (entries_ok_iff.1 ⟨entries, h⟩).scope rfl rfl

/-! ## Requests -/

section

variable {rt : Runtime} {context : FermiV1Context} {mount : Mount} {gatewayUrl apiKey : String}
  {client : FermiV1StateClient}

open FermiV1TriggerClient (ContextCancelParams cancelParams cancelForContext getTriggerOrders
  getTriggerOrder ORDER_ID)

theorem signTriggerCancel_eq (huser : Signs rt context.user) {params : TriggerCancelParams}
    (hsigner : params.signer = context.user.publicKey) :
    signTriggerCancel rt params context.user.secretKey = (do
      pure (rt.sign (← triggerCancelMessageHash rt params).bytes context.user.secretKey)) := by
  rw [signTriggerCancel, huser.publicKey, Throws.ok_bind, hsigner,
    Throws.throwIf_of_not (fun h => h rfl), Throws.ok_bind]

/-- A cancellation that has a hash is posted under the signer's signature of it. -/
theorem cancelForContext_eq_ok (huser : Signs rt context.user) {params : ContextCancelParams}
    {now : Int} {fetch : Fetch} :
    cancelForContext rt client context params now = .ok fetch ↔ ∃ hash body,
      triggerCancelMessageHash rt (cancelParams context params now) = .ok hash ∧
      cancelTriggerOrders rt (cancelParams context params now)
        (rt.sign hash.bytes context.user.secretKey) = .ok body ∧
      client.request .POST (utf8 "/trigger-orders/cancel") (some (cancelJson body)) = fetch := by
  simp only [cancelForContext, FermiV1TriggerClient.cancelTriggerOrders, Throws.bind_eq_ok,
    Throws.pure_eq_ok,
    @signTriggerCancel_eq rt context huser (cancelParams context params now) rfl]
  constructor
  · rintro ⟨_, ⟨hash, hhash, rfl⟩, body, hbody, hfetch⟩
    exact ⟨hash, body, hhash, hbody, hfetch⟩
  · rintro ⟨hash, body, hhash, hbody, hfetch⟩
    exact ⟨_, ⟨hash, hhash, rfl⟩, body, hbody, hfetch⟩

/-- **A cancellation reaches the keeper as it was signed.** It is sent exactly if it can be asked for;
what the gateway then reads of the body is what was asked, with a signature by the context's key of the
hash that the keeper computes of what was read. -/
theorem cancel_received (huser : Signs rt context.user) (hmount : Mounted mount gatewayUrl)
    (hclient : FermiV1StateClient.create gatewayUrl (some apiKey) = .ok client)
    (params : ContextCancelParams) (now : Int) :
    ((∃ fetch, cancelForContext rt client context params now = .ok fetch) ↔
      CancelAllowed (cancelParams context params now)) ∧
    ∀ fetch, cancelForContext rt client context params now = .ok fetch →
      ∃ body read signature hash,
        (posting ["trigger-orders", "cancel"] body).Sent mount apiKey fetch ∧
        readCancel context.group.publicKey body = some (read, signature) ∧
        read = (cancelParams context params now).listed ∧
        triggerCancelMessageHash rt read = .ok hash ∧
        SignedHash rt hash.bytes signature context.user.publicKey := by
  obtain rfl := client_of_create hmount hclient
  have hsigned (hash : Digest) : SignedHash rt hash.bytes
      (rt.sign hash.bytes context.user.secretKey) context.user.publicKey :=
    .inl (huser.verify hash.bytes)
  constructor
  · rw [← @cancelHash_ok_iff rt]
    constructor
    · rintro ⟨fetch, h⟩
      obtain ⟨hash, _, hhash, -⟩ := (cancelForContext_eq_ok huser).1 h
      exact ⟨hash, hhash⟩
    · rintro ⟨hash, hhash⟩
      have hbody : ∃ body, cancelTriggerOrders rt (cancelParams context params now)
          (rt.sign hash.bytes context.user.secretKey) = .ok body := by
        simp only [cancelTriggerOrders, hhash, Throws.bind_eq_ok, Except.ok.injEq, exists_eq_left',
          assertSignature_eq_ok, Throws.pure_eq_ok, exists_const]
        exact ⟨_, ⟨huser.length hash.bytes, hsigned hash⟩, rfl⟩
      obtain ⟨body, hbody⟩ := hbody
      exact ⟨_, (cancelForContext_eq_ok huser).2 ⟨hash, body, hhash, hbody, rfl⟩⟩
  · intro fetch h
    obtain ⟨hash, body, hhash, hbody, rfl⟩ := (cancelForContext_eq_ok huser).1 h
    have hread := readCancel_cancelJson hbody
    refine ⟨cancelJson body, (cancelParams context params now).listed, _, hash, ?_, hread, rfl, ?_,
      hsigned hash⟩
    · exact @sent_request mount apiKey (posting ["trigger-orders", "cancel"] (cancelJson body)) _ rfl
    · rw [cancelHash_listed, hhash]

/-- A path without the two texts of dots is received. -/
theorem received_of_undotted {asked : Asked} {fetch : Fetch} (h : asked.Sent mount apiKey fetch)
    (hdots : ∀ text ∈ asked.segments, text ≠ "." ∧ text ≠ "..") :
    mount.receive fetch.url = some asked.target :=
  h.received.2 hdots

theorem getTriggerOrder_eq_ok {id : String} {fetch : Fetch} :
    getTriggerOrder client id = .ok fetch ↔ (ORDER_ID id ∧ id ≠ "." ∧ id ≠ "..") ∧
      client.request .GET (utf8 "/trigger-orders/" ++ encodeURIComponent id) none = fetch := by
  simp only [getTriggerOrder, Throws.bind_eq_ok, Throws.throwIf_eq_ok, exists_const,
    Throws.pure_eq_ok, not_or, Bool.not_eq_true', Bool.not_eq_false, ne_eq]

/-- **What is asked about trigger orders is what the gateway receives.** A query is sent exactly if it
can be asked, and the gateway reads it again from the URL. An order is asked for exactly if its id
is one and no text of dots, and the path then carries that id. -/
theorem reads_received (hmount : Mounted mount gatewayUrl)
    (hclient : FermiV1StateClient.create gatewayUrl (some apiKey) = .ok client) :
    (∀ query, (∃ fetch, getTriggerOrders client query = .ok fetch) ↔ QueryAllowed query) ∧
    (∀ query fetch, getTriggerOrders client query = .ok fetch → ∃ entries,
      (reading ["trigger-orders"] entries).Sent mount apiKey fetch ∧
      mount.receive fetch.url = some (reading ["trigger-orders"] entries).target ∧
      readListQuery (presentEntries entries) = some query) ∧
    (∀ id, (∃ fetch, getTriggerOrder client id = .ok fetch) ↔
      ORDER_ID id ∧ id ≠ "." ∧ id ≠ "..") ∧
    ∀ id fetch, getTriggerOrder client id = .ok fetch →
      (reading ["trigger-orders", id] []).Sent mount apiKey fetch ∧
      mount.receive fetch.url = some (reading ["trigger-orders", id] []).target := by
  obtain rfl := client_of_create hmount hclient
  refine ⟨fun query => ?_, fun query fetch h => ?_, fun id => ?_, fun id fetch h => ?_⟩
  · rw [← entries_ok_iff]
    simp only [getTriggerOrders, Throws.bind_eq_ok, Throws.pure_eq_ok]
    constructor
    · rintro ⟨_, entries, hentries, -⟩
      exact ⟨entries, hentries⟩
    · rintro ⟨entries, hentries⟩
      exact ⟨_, entries, hentries, rfl⟩
  · simp only [getTriggerOrders, Throws.bind_eq_ok, Throws.pure_eq_ok] at h
    obtain ⟨entries, hentries, rfl⟩ := h
    have hquery : utf8 "/trigger-orders?" ++ searchParams (presentEntries entries) =
        withQuery (utf8 "/trigger-orders") entries := by
      unfold withQuery
      rw [if_neg (entries_ne_nil hentries)]
      rfl
    have hsent : (reading ["trigger-orders"] entries).Sent mount apiKey
        (FermiV1StateClient.request ⟨mount.url, apiKey⟩ .GET
          (utf8 "/trigger-orders?" ++ searchParams (presentEntries entries)) none) := by
      rw [hquery]
      exact @sent_request mount apiKey (reading ["trigger-orders"] entries) _ rfl
    have hdots : ∀ text ∈ ["trigger-orders"], text ≠ "." ∧ text ≠ ".." := by decide
    exact ⟨entries, hsent, received_of_undotted hsent hdots, readListQuery_entries hentries⟩
  · constructor
    · rintro ⟨fetch, h⟩
      exact (getTriggerOrder_eq_ok.1 h).1
    · intro h
      exact ⟨_, getTriggerOrder_eq_ok.2 ⟨h, rfl⟩⟩
  · obtain ⟨⟨-, hone, htwo⟩, rfl⟩ := getTriggerOrder_eq_ok.1 h
    have hsent : (reading ["trigger-orders", id] []).Sent mount apiKey
        (FermiV1StateClient.request ⟨mount.url, apiKey⟩ .GET
          (utf8 "/trigger-orders/" ++ encodeURIComponent id) none) :=
      @sent_request mount apiKey (reading ["trigger-orders", id] []) _
        (@routePath_concat ["trigger-orders"] _ _ rfl)
    refine ⟨hsent, received_of_undotted hsent ?_⟩
    simp only [reading, List.forall_mem_cons]
    exact ⟨by decide, ⟨hone, htwo⟩, fun text htext => absurd htext List.not_mem_nil⟩

end

/-! ## Recorded requests -/

namespace RecordedSubmission

/-- The cancellation of two orders on market 2. -/
def cancelled : FermiV1TriggerClient.ContextCancelParams where
  issuedAtMs := some 1790000000000
  scope := .ids
  clientOrderIds := some [15174839211015344597, 7]
  ocoGroup := none
  marketIndex := some (.int 2)

theorem cancelled_allowed : CancelAllowed
    (FermiV1TriggerClient.cancelParams RecordedCancel.context cancelled 0) where
  count := by decide
  ids := fun _ => List.cons_ne_nil _ _
  oco := by
    intro h
    cases h
  market := by
    rintro _ ⟨⟩
    exact ⟨2, rfl, by decide⟩
  issued := by decide
  group := by decide
  id := by decide

end RecordedSubmission

open RecordedSubmission in
open RecordedCancel (context) in
/-- The recorded cancellation is sent. -/
theorem cancel_received_recorded : ∃ fetch,
    FermiV1TriggerClient.cancelForContext runtime client context cancelled 0 = .ok fetch :=
  (cancel_received signs RecordedCall.mounted created cancelled 0).1.2 cancelled_allowed

open RecordedSubmission in
/-- An order of the recorded client is asked for by its id. -/
theorem reads_received_recorded : ∃ fetch,
    FermiV1TriggerClient.getTriggerOrder client "ord:1..2" = .ok fetch :=
  ((reads_received RecordedCall.mounted created).2.2.1 "ord:1..2").2 (by decide)

end FermiSdk.TriggerOrders
