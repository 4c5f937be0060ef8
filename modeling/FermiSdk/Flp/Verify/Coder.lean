import FermiSdk.Flp.Client
import FermiSdk.Lib.Fields

/-!
# What is documented of the coder

A `BorshCoder` puts the discriminator of an instruction before the Borsh encoding of its arguments
(`borshArgs`), and it decodes an account exactly if the account has the discriminator of its type and
fields that say the value (`AccountLayout.Decodes`). These are the hypotheses under which results
about bytes are stated (`BorshCoder.Lawful`). With them a read returns what the account says, and
nothing else (`AccountLayout.fetchAccount_eq_ok`).
-/

namespace FermiSdk

open FermiSdk.Lib

/-! ## Arguments -/

/-- An integer of eight bytes, in two's complement. -/
def i64Bytes (n : Int) : Bytes := leBytes 8 (n % 256 ^ 8).toNat

def IsI64 (n : Int) : Prop := -2 ^ 63 ≤ n ∧ n < 2 ^ 63
  deriving Decidable

/-- An integer that fits into `width` bytes. -/
def unsignedBytes (width : Nat) (n : Int) : Option Bytes :=
  if 0 ≤ n ∧ n < 256 ^ width then some (leBytes width n.toNat) else none

/-- The Borsh encoding of a value of the type. -/
def IdlType.borsh : IdlType → IdlValue → Option Bytes
  | .bool, .bool value => some [if value then 1 else 0]
  | .u8, .number (.int n) => unsignedBytes 1 n
  | .u16, .number (.int n) => unsignedBytes 2 n
  | .u32, .number (.int n) => unsignedBytes 4 n
  | .u64, .bn n => unsignedBytes 8 n
  | .i64, .bn n => if IsI64 n then some (i64Bytes n) else none
  | .publicKey, .publicKey key => some key.bytes
  | _, _ => none

/-- The encodings of the arguments one after another, if every argument is a value of its type. -/
def borshArgs (fields : List (String × IdlType)) (args : NamedArgs) : Option Bytes :=
  (fields.mapM fun field : String × IdlType => field.2.borsh (args field.1)).map List.flatten

theorem unsignedBytes_eq {width : Nat} {n : Int} (h : 0 ≤ n ∧ n < 256 ^ width) :
    unsignedBytes width n = some (leBytes width n.toNat) :=
  if_pos h

section

variable {name name' : String} {type type' : IdlType} {value value' : IdlValue} {data data' : Bytes}

theorem borshArgs_one (h : type.borsh value = some data) :
    borshArgs [(name, type)] (.of [(name, value)]) = some data := by
  have hvalue : NamedArgs.of [(name, value)] name = value := by
    simp [NamedArgs.of]
  simp [borshArgs, hvalue, h]

theorem borshArgs_two (hne : name' ≠ name) (h : type.borsh value = some data)
    (h' : type'.borsh value' = some data') :
    borshArgs [(name, type), (name', type')] (.of [(name, value), (name', value')]) =
      some (data ++ data') := by
  have hvalue : NamedArgs.of [(name, value), (name', value')] name = value := by
    simp [NamedArgs.of]
  have hvalue' : NamedArgs.of [(name, value), (name', value')] name' = value' := by
    simp [NamedArgs.of, List.lookup_cons, beq_false_of_ne hne]
  simp [borshArgs, hvalue, hvalue', h, h']

end

/-- `sighash('global', method)`. -/
def instructionDiscriminator (rt : Runtime) (method : String) : Bytes :=
  (rt.sha256 (Buffer.ofAscii ("global:" ++ method))).bytes.take 8

/-! ## Accounts -/

/-- How values stand in the accounts of an account type: some of the fields say the value, which is
in the range that its bytes have, and the others are arbitrary. -/
structure AccountLayout (α : Type) where
  definition : IdlAccountType
  nodup : (definition.fields.map Prod.fst).Nodup
  Ranged : α → Prop
  entries : α → List (String × Bytes)

/-- The fields of a vault that the clients read, without the extension in its reserved bytes. -/
def VaultState.entries (state : VaultState) : List (String × Bytes) := [
  ("version", [state.version]), ("status", [state.status]),
  ("vaultId", leBytes 2 state.vaultId.toNat), ("group", state.group.bytes),
  ("fermiAccount", state.fermiAccount.bytes), ("quoteBank", state.quoteBank.bytes),
  ("quoteMint", state.quoteMint.bytes), ("shareMint", state.shareMint.bytes),
  ("depositEscrow", state.depositEscrow.bytes),
  ("redemptionEscrow", state.redemptionEscrow.bytes),
  ("feeRecipient", state.feeRecipient.bytes),
  ("params.epochDurationS", leBytes 4 state.params.epochDurationS.toNat),
  ("params.requestCutoffS", leBytes 4 state.params.requestCutoffS.toNat),
  ("params.timelockS", leBytes 4 state.params.timelockS.toNat),
  ("params.mgmtFeeBps", leBytes 2 state.params.mgmtFeeBps.toNat),
  ("params.perfFeeBps", leBytes 2 state.params.perfFeeBps.toNat),
  ("params.depositFeeBps", leBytes 2 state.params.depositFeeBps.toNat),
  ("params.withdrawFeeBps", leBytes 2 state.params.withdrawFeeBps.toNat),
  ("params.upnlHaircutBps", leBytes 2 state.params.upnlHaircutBps.toNat),
  ("params.minPostWithdrawInitRatioBps",
    leBytes 2 state.params.minPostWithdrawInitRatioBps.toNat),
  ("params.breakerDrawdownBps", leBytes 2 state.params.breakerDrawdownBps.toNat),
  ("params.breakerMinInitRatioBps", leBytes 2 state.params.breakerMinInitRatioBps.toNat),
  ("params.breakerWindowS", leBytes 4 state.params.breakerWindowS.toNat),
  ("params.tvlCap", leBytes 8 state.params.tvlCap.toNat),
  ("params.minDeposit", leBytes 8 state.params.minDeposit.toNat),
  ("params.minWithdrawShares", leBytes 8 state.params.minWithdrawShares.toNat),
  ("epoch", leBytes 8 state.epoch.toNat), ("deferredHead", leBytes 8 state.deferredHead.toNat),
  ("deferredTail", leBytes 8 state.deferredTail.toNat),
  ("recoveryParams.graceProportionalS", leBytes 4 state.recoveryParams.graceProportionalS.toNat),
  ("recoveryParams.graceFullS", leBytes 4 state.recoveryParams.graceFullS.toNat),
  ("recoveryParams.oracleBandBps", leBytes 2 state.recoveryParams.oracleBandBps.toNat),
  ("recoveryParams.maxStepQuote", leBytes 8 state.recoveryParams.maxStepQuote.toNat),
  ("unwind.mode", [state.unwind.mode]),
  ("unwind.batchEpoch", leBytes 8 state.unwind.batchEpoch.toNat),
  ("unwind.startedAt", i64Bytes state.unwind.startedAt),
  ("unwind.marketIndexes", state.unwind.marketIndexes.flatMap (leBytes 2)),
  ("unwind.targetBaseLots", state.unwind.targetBaseLots.flatMap i64Bytes),
  ("reserved", state.reserved)]

/-- A vault as its account has it: the extension is not decoded, and what is read has the range of
its bytes. -/
structure VaultState.Raw (state : VaultState) : Prop where
  expandedRecovery : state.expandedRecovery = none
  equityWindowS : state.equityWindowS = none
  headSkipReason : state.headSkipReason = none
  headEligibleFailTs : state.headEligibleFailTs = none
  delegateRestore : state.delegateRestore = none
  restoreDepositsOpen : state.restoreDepositsOpen = none
  scheduledTiming : state.scheduledTiming = none
  startedAt : IsI64 state.unwind.startedAt
  markets : state.unwind.marketIndexes.length = 4 ∧
    ∀ market ∈ state.unwind.marketIndexes, market < 2 ^ 16
  lots : state.unwind.targetBaseLots.length = 4 ∧ ∀ lots ∈ state.unwind.targetBaseLots, IsI64 lots

def vaultLayout : AccountLayout VaultState where
  definition := vaultType
  nodup := by decide
  Ranged := VaultState.Raw
  entries := VaultState.entries

def epochRecordLayout : AccountLayout EpochAccount where
  definition := epochRecordType
  nodup := by decide
  Ranged record := record.depDen < 256 ^ 16
  entries record := [
    ("vault", record.vault.bytes), ("epoch", leBytes 8 record.epoch.toNat),
    ("wdStatus", [record.wdStatus]), ("nextDeferred", leBytes 8 record.nextDeferred.toNat),
    ("depGross", leBytes 8 record.depGross.toNat), ("depDen", leBytes 16 record.depDen)]

/-- A sidecar whose values have the range of their bytes. -/
structure RecoveryTargets.Ranged (targets : RecoveryTargets) : Prop where
  startedAt : IsI64 targets.startedAt
  markets : targets.marketIndexes.length = 13 ∧ ∀ market ∈ targets.marketIndexes, market < 2 ^ 16
  lots : targets.targetBaseLots.length = 13 ∧ ∀ lots ∈ targets.targetBaseLots, IsI64 lots

def recoveryTargetsLayout : AccountLayout RecoveryTargets where
  definition := recoveryTargetsType
  nodup := by decide
  Ranged := RecoveryTargets.Ranged
  entries targets := [
    ("vault", targets.vault.bytes), ("mode", [targets.mode]),
    ("batchEpoch", leBytes 8 targets.batchEpoch.toNat), ("startedAt", i64Bytes targets.startedAt),
    ("marketIndexes", targets.marketIndexes.flatMap (leBytes 2)),
    ("targetBaseLots", targets.targetBaseLots.flatMap i64Bytes)]

def depositorLayout : AccountLayout DepositorAccount where
  definition := depositorType
  nodup := by decide
  Ranged record :=
    IsI64 record.realizedPnl ∧ IsI64 record.firstDepositTs ∧ IsI64 record.lastActionTs
  entries record := [
    ("vault", record.vault.bytes), ("user", record.user.bytes), ("bump", [record.bump]),
    ("dep.requestId", leBytes 8 record.dep.requestId.toNat),
    ("dep.epoch", leBytes 8 record.dep.epoch.toNat),
    ("dep.amount", leBytes 8 record.dep.amount.toNat),
    ("dep.aux", leBytes 8 record.dep.aux.toNat),
    ("wd.requestId", leBytes 8 record.wd.requestId.toNat),
    ("wd.epoch", leBytes 8 record.wd.epoch.toNat),
    ("wd.amount", leBytes 8 record.wd.amount.toNat),
    ("wd.aux", leBytes 8 record.wd.aux.toNat),
    ("sharesHeld", leBytes 8 record.sharesHeld.toNat),
    ("costBasis", leBytes 8 record.costBasis.toNat),
    ("realizedPnl", i64Bytes record.realizedPnl),
    ("totalDeposited", leBytes 8 record.totalDeposited.toNat),
    ("totalWithdrawn", leBytes 8 record.totalWithdrawn.toNat),
    ("firstDepositTs", i64Bytes record.firstDepositTs),
    ("lastActionTs", i64Bytes record.lastActionTs),
    ("preDepositAmount", leBytes 8 record.preDepositAmount.toNat),
    ("depositApproved", [if record.depositApproved then 1 else 0])]

def fundingWindowLayout : AccountLayout FundingWindowAccount where
  definition := fundingWindowType
  nodup := by decide
  Ranged window := IsI64 window.scheduledStart ∧ IsI64 window.deadline
  entries window := [
    ("vault", window.vault.bytes), ("version", [window.version]),
    ("closedEpoch", leBytes 8 window.closedEpoch.toNat),
    ("scheduledStart", i64Bytes window.scheduledStart), ("deadline", i64Bytes window.deadline),
    ("eligible", [if window.eligible then 1 else 0])]

namespace AccountLayout

variable {α : Type} (layout : AccountLayout α) (rt : Runtime)

/-- The data of an account that says `a`. -/
def Says (data : Bytes) (a : α) : Prop :=
  layout.Ranged a ∧ ∃ r : Fields.Record layout.definition.fields,
    data = accountDiscriminator rt layout.definition.name ++
      Fields.write layout.definition.fields r.value ∧
    ∀ entry ∈ layout.entries a, r.value entry.1 = entry.2

/-- An account of the program that says `a`. -/
def Holds (connection : Connection) (programId address : PublicKey) (a : α) : Prop :=
  ∃ data, connection.getAccountInfo address = some { owner := programId, data } ∧
    layout.Says rt data a

/-- Of the data of an account of this size, exactly what it says is decoded. -/
def Decodes (decode : Bytes → Throws α) : Prop :=
  ∀ data a, data.length = 8 + Fields.size layout.definition.fields →
    (decode data = .ok a ↔ layout.Says rt data a)

end AccountLayout

/-! ## The coder -/

/-- What is documented of the coder that anchor makes from a description with these instructions. -/
structure BorshCoder.Lawful (rt : Runtime) (methods : List IdlInstruction) (coder : BorshCoder) :
    Prop where
  encode : ∀ definition name args bytes,
    (methods.find? fun method => method.name = name) = some definition →
    borshArgs definition.args args = some bytes →
    coder.encode name args = .ok (instructionDiscriminator rt definition.method ++ bytes)
  size : ∀ definition, coder.size definition = 8 + Fields.size definition.fields
  vault : vaultLayout.Decodes rt coder.decodeVault
  epochRecord : epochRecordLayout.Decodes rt coder.decodeEpochRecord
  recoveryTargets : recoveryTargetsLayout.Decodes rt coder.decodeRecoveryTargets
  depositor : depositorLayout.Decodes rt coder.decodeDepositor
  fundingWindow : fundingWindowLayout.Decodes rt coder.decodeFundingWindow

section

variable {rt : Runtime} {α : Type} {layout : AccountLayout α} {data : Bytes} {a : α}

theorem AccountLayout.Says.length (h : layout.Says rt data a) :
    data.length = 8 + Fields.size layout.definition.fields := by
  obtain ⟨-, r, rfl, -⟩ := h
  rw [List.length_append, length_accountDiscriminator, Fields.length_write r.fits]

/-- Any value in range is said by the data of some account, if its entries are fields. -/
theorem AccountLayout.exists_says (layout : AccountLayout α) (hranged : layout.Ranged a)
    (hfields : ∀ entry ∈ layout.entries a, (entry.1, entry.2.length) ∈ layout.definition.fields)
    (hnodup : ((layout.entries a).map Prod.fst).Nodup) : ∃ data, layout.Says rt data a := by
  obtain ⟨r, hr⟩ := Fields.exists_record_of_entries layout.nodup hnodup hfields
  exact ⟨_, hranged, r, rfl, hr⟩

/-- **A read returns what the account says.** -/
theorem AccountLayout.fetchAccount_eq_ok (layout : AccountLayout α) {coder : BorshCoder} {connection : Connection}
    {programId address : PublicKey} {missing : String} {decode : Bytes → Throws α}
    (hsize : ∀ definition, coder.size definition = 8 + Fields.size definition.fields)
    (hdecode : layout.Decodes rt decode) :
    fetchAccount coder connection programId layout.definition missing decode address = .ok a ↔
      layout.Holds rt connection programId address a := by
  unfold fetchAccount Holds
  cases connection.getAccountInfo address with
  | none => simp
  | some account =>
    simp only [Throws.bind_eq_ok, Throws.throwIf_eq_ok, exists_const, not_not, hsize,
      Option.some_inj]
    constructor
    · rintro ⟨rfl, hlength, ha⟩
      exact ⟨account.data, rfl, (hdecode _ _ hlength).1 ha⟩
    · rintro ⟨data, rfl, hsays⟩
      exact ⟨rfl, hsays.length, (hdecode _ _ hsays.length).2 hsays⟩

variable {methods : List IdlInstruction} {decode : BorshCoder → Bytes → Throws α}
  {address : PublicKey}

theorem FlpClient.fetch_eq_ok {client : FlpClient} (layout : AccountLayout α)
    (hcoder : client.coder.Lawful rt methods) (hdecode : layout.Decodes rt (decode client.coder)) :
    client.fetch layout.definition decode address = .ok a ↔
      layout.Holds rt client.connection client.programId address a :=
  layout.fetchAccount_eq_ok hcoder.size hdecode

theorem FlpV4Client.fetch_eq_ok {client : FlpV4Client} (layout : AccountLayout α)
    (hcoder : client.coder.Lawful rt methods) (hdecode : layout.Decodes rt (decode client.coder)) :
    client.fetch layout.definition decode address = .ok a ↔
      layout.Holds rt client.shared.connection client.programId address a :=
  layout.fetchAccount_eq_ok hcoder.size hdecode

end

end FermiSdk
