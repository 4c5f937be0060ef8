import FermiSdk.Flp.Vault
import FermiSdk.Flp.Verify.DocumentedCoder

/-!
# The extension of a vault

What later versions of the program added to a vault lies in its reserved bytes. It is decoded without
loss, and decoding it twice does nothing more. The clients decode it lazily, where a state does not
have it yet, and conclude the same as from a state that has it (`extension_lossless_and_lazy`).
-/

namespace FermiSdk

open FermiSdk.Lib

/-- The extension as the reserved bytes have it. Any byte but zero enables the scheduled timing, and
of the flags only the lowest bit is used. -/
structure VaultExtension where
  enabled : UInt8
  epochDurationS : UInt32
  requestCutoffS : UInt32
  gap : UInt8
  equityWindowS : UInt32
  unused : UInt32
  expandedRecovery : Bool
  headSkipReason : UInt8
  headEligibleFailTs : Int
  delegateRestore : PublicKey
  flags : UInt8
  tail : Bytes

namespace VaultExtension

def bytes (e : VaultExtension) : Bytes :=
  e.enabled :: leBytes 4 e.epochDurationS.toNat ++ leBytes 4 e.requestCutoffS.toNat ++
    e.gap :: leBytes 4 e.equityWindowS.toNat ++ leBytes 4 e.unused.toNat ++
    (if e.expandedRecovery then 1 else 0) :: e.headSkipReason :: i64Bytes e.headEligibleFailTs ++
    e.delegateRestore.bytes ++ e.flags :: e.tail

/-- The bytes that are 67, with a time of eight bytes. -/
structure Ranged (e : VaultExtension) : Prop where
  headEligibleFailTs : IsI64 e.headEligibleFailTs
  tail : e.tail.length = 6

variable {e : VaultExtension}

theorem length_bytes (h : e.Ranged) : e.bytes.length = 67 := by
  have hkey := e.delegateRestore.size
  have htail := h.tail
  simp only [bytes, i64Bytes, List.cons_append, List.length_append, List.length_cons,
    length_leBytes]
  omega

/-- The bytes from the delegate on. -/
theorem drop_bytes (e : VaultExtension) :
    e.bytes.drop 28 = e.delegateRestore.bytes ++ e.flags :: e.tail := rfl

theorem getD_flags (e : VaultExtension) : e.bytes.getD 60 0 = e.flags := by
  have hlength : e.delegateRestore.bytes.length ≤ 32 := e.delegateRestore.size.le
  have hindex : e.bytes[60]? = (e.bytes.drop 28)[32]? := by rw [List.getElem?_drop]
  rw [List.getD_eq_getElem?_getD, hindex, drop_bytes, List.getElem?_append_right hlength,
    e.delegateRestore.size]
  rfl

end VaultExtension

/-- The state with an extension decoded into its optional fields. -/
def VaultState.extendedBy (state : VaultState) (e : VaultExtension) : VaultState :=
  { state with
    expandedRecovery := some e.expandedRecovery
    headSkipReason := some e.headSkipReason
    headEligibleFailTs := some e.headEligibleFailTs
    delegateRestore := some e.delegateRestore
    restoreDepositsOpen := some (decide (e.flags &&& 1 ≠ 0))
    equityWindowS := some (if e.equityWindowS = 0 then MIN_EQUITY_WINDOW_S else e.equityWindowS)
    scheduledTiming := some {
      enabled := e.enabled ≠ 0
      epochDurationS := e.epochDurationS
      requestCutoffS := e.requestCutoffS } }

section

variable {state extended : VaultState} {e : VaultExtension}

/-- Decoding the extension fills in the optional fields, and nothing else. -/
theorem decodeVaultExtension_eq_ok :
    decodeVaultExtension state = .ok extended ↔
      state.reserved.length = 67 ∧ state.reserved.getD 18 0 ≤ 1 ∧
      ∃ key : PublicKey, key.bytes = (state.reserved.drop 28).take 32 ∧
        extended = { state with
          expandedRecovery := some (decide (state.reserved.getD 18 0 = 1))
          headSkipReason := some (state.reserved.getD 19 0)
          headEligibleFailTs := some (leInt ((state.reserved.drop 20).take 8))
          delegateRestore := some key
          restoreDepositsOpen := some (decide (state.reserved.getD 60 0 &&& 1 ≠ 0))
          equityWindowS := some (
            if UInt32.ofNat (leNat ((state.reserved.drop 10).take 4)) = 0 then MIN_EQUITY_WINDOW_S
            else UInt32.ofNat (leNat ((state.reserved.drop 10).take 4)))
          scheduledTiming := some {
            enabled := state.reserved.getD 0 0 ≠ 0
            epochDurationS := UInt32.ofNat (leNat ((state.reserved.drop 1).take 4))
            requestCutoffS := UInt32.ofNat (leNat ((state.reserved.drop 5).take 4)) } } := by
  simp only [decodeVaultExtension, Throws.bind_eq_ok, Throws.throwIf_eq_ok, exists_const,
    Throws.pure_eq_ok, PublicKey.ofBytes_eq_ok, not_not, UInt8.not_lt, @eq_comm _ _ extended]

theorem decodeVaultExtension_bytes (h : e.Ranged) (hreserved : state.reserved = e.bytes) :
    decodeVaultExtension state = .ok (state.extendedBy e) := by
  rw [decodeVaultExtension_eq_ok, hreserved]
  have hcapability : e.bytes.getD 18 0 = if e.expandedRecovery then 1 else 0 := rfl
  have hreason : e.bytes.getD 19 0 = e.headSkipReason := rfl
  have hfail : (e.bytes.drop 20).take 8 = i64Bytes e.headEligibleFailTs := rfl
  have hwindow : (e.bytes.drop 10).take 4 = leBytes 4 e.equityWindowS.toNat := rfl
  have hduration : (e.bytes.drop 1).take 4 = leBytes 4 e.epochDurationS.toNat := rfl
  have hcutoff : (e.bytes.drop 5).take 4 = leBytes 4 e.requestCutoffS.toNat := rfl
  have henabled : e.bytes.getD 0 0 = e.enabled := rfl
  rw [hcapability, hreason, hfail, hwindow, hduration, hcutoff, henabled, e.getD_flags,
    leInt_i64Bytes h.headEligibleFailTs, uint32_ofNat_leNat, uint32_ofNat_leNat,
    uint32_ofNat_leNat]
  refine ⟨e.length_bytes h, ?_, e.delegateRestore, ?_, ?_⟩
  · cases e.expandedRecovery <;> decide
  · rw [e.drop_bytes, List.take_left' e.delegateRestore.size]
  · have hexpanded : decide ((if e.expandedRecovery then (1 : UInt8) else 0) = 1) =
        e.expandedRecovery := by cases e.expandedRecovery <;> rfl
    rw [hexpanded, VaultState.extendedBy, hreserved]

/-- Decoding again does nothing more, and does not look at what is decoded already. -/
theorem decodeVaultExtension_idem (h : decodeVaultExtension state = .ok extended) :
    decodeVaultExtension extended = .ok extended := by
  obtain ⟨hlength, hcapability, key, hkey, rfl⟩ := decodeVaultExtension_eq_ok.1 h
  exact decodeVaultExtension_eq_ok.2 ⟨hlength, hcapability, key, hkey, rfl⟩

/-- The clients' conclusions from two states are the same, errors included. -/
structure SameConclusions (state extended : VaultState) : Prop where
  trigger : ∀ full, FlpClient.permissionlessTriggerAt state full =
    FlpClient.permissionlessTriggerAt extended full
  triggerV4 : ∀ full, FlpV4Client.permissionlessTriggerAt state full =
    FlpV4Client.permissionlessTriggerAt extended full
  timing : scheduledEpochTiming state = scheduledEpochTiming extended
  delay : ∀ next, stagedParamsDelaySeconds state next = stagedParamsDelaySeconds extended next

theorem withHeadFailure_lazy (hraw : state.headSkipReason = none)
    (h : decodeVaultExtension state = .ok extended) :
    withHeadFailure state = .ok extended ∧ withHeadFailure extended = .ok extended := by
  unfold withHeadFailure
  rw [if_pos hraw, h]
  refine ⟨rfl, ?_⟩
  obtain ⟨-, -, key, -, rfl⟩ := decodeVaultExtension_eq_ok.1 h
  rfl

theorem sameConclusions_of_decode (hreason : state.headSkipReason = none)
    (htiming : state.scheduledTiming = none) (h : decodeVaultExtension state = .ok extended) :
    SameConclusions state extended := by
  obtain ⟨hlazy, heager⟩ := withHeadFailure_lazy hreason h
  obtain ⟨-, -, key, -, hextended⟩ := decodeVaultExtension_eq_ok.1 h
  have hunwind : extended.unwind = state.unwind := by rw [hextended]
  have hrecovery : extended.recoveryParams = state.recoveryParams := by rw [hextended]
  have hversion : extended.version = state.version := by rw [hextended]
  have hdecoded : extended.scheduledTiming ≠ none := by
    rw [hextended]
    exact Option.some_ne_none _
  refine ⟨?trigger, ?triggerV4, ?timing, ?delay⟩
  case trigger =>
    intro full
    rw [FlpClient.permissionlessTriggerAt, FlpClient.permissionlessTriggerAt, hlazy, heager, hunwind,
      hrecovery]
  case triggerV4 =>
    intro full
    rw [FlpV4Client.permissionlessTriggerAt, FlpV4Client.permissionlessTriggerAt, hlazy, heager,
      hrecovery, FlpV4Client.requireV4, FlpV4Client.requireV4, hversion]
  case timing =>
    obtain ⟨timing, htimed⟩ := Option.ne_none_iff_exists'.1 hdecoded
    simp only [scheduledEpochTiming, htiming, h, htimed, Throws.ok_bind]
  case delay =>
    intro next
    rw [stagedParamsDelaySeconds, stagedParamsDelaySeconds, if_pos htiming, if_neg hdecoded, h]
    rfl

/-- **The extension is decoded without loss, once or twice, early or late.** -/
theorem extension_lossless_and_lazy (h : e.Ranged) (hreserved : state.reserved = e.bytes) :
    decodeVaultExtension state = .ok (state.extendedBy e) ∧
    decodeVaultExtension (state.extendedBy e) = .ok (state.extendedBy e) ∧
    (state.headSkipReason = none → state.scheduledTiming = none →
      SameConclusions state (state.extendedBy e)) := by
  have hdecode := decodeVaultExtension_bytes h hreserved
  refine ⟨hdecode, decodeVaultExtension_idem hdecode, ?_⟩
  intro hreason htiming
  exact sameConclusions_of_decode hreason htiming hdecode

end

/-! ## A recorded extension -/

namespace RecordedExtension

/-- A cash shortage at an eligible close, on a vault with a scheduled timing. -/
def extension : VaultExtension where
  enabled := 1
  epochDurationS := 86400
  requestCutoffS := 3600
  gap := 0
  equityWindowS := 0
  unused := 0
  expandedRecovery := true
  headSkipReason := 2
  headEligibleFailTs := 1767225600
  delegateRestore := PublicKey.default
  flags := 1
  tail := List.replicate 6 0

def params : LegacyVaultParams where
  epochDurationS := 28800
  requestCutoffS := 1800
  timelockS := 600
  mgmtFeeBps := 200
  perfFeeBps := 1000
  depositFeeBps := 0
  withdrawFeeBps := 30
  upnlHaircutBps := 500
  minPostWithdrawInitRatioBps := 1000
  breakerDrawdownBps := 2000
  breakerMinInitRatioBps := 500
  breakerWindowS := 3600
  tvlCap := 1000000000000
  minDeposit := 1000000
  minWithdrawShares := 1000

def state : VaultState where
  version := 4
  status := 0
  expandedRecovery := none
  epoch := 9
  deferredHead := NONE_EPOCH
  deferredTail := NONE_EPOCH
  shareMint := PublicKey.default
  depositEscrow := PublicKey.default
  redemptionEscrow := PublicKey.default
  vaultId := 1
  group := PublicKey.default
  fermiAccount := PublicKey.default
  quoteBank := PublicKey.default
  quoteMint := PublicKey.default
  feeRecipient := PublicKey.default
  params := params
  equityWindowS := none
  recoveryParams := {
    graceProportionalS := 3600
    graceFullS := 7200
    oracleBandBps := 100
    maxStepQuote := 1000000 }
  unwind := {
    mode := 0
    batchEpoch := 0
    startedAt := 0
    marketIndexes := [0, 0, 0, 0]
    targetBaseLots := [0, 0, 0, 0] }
  headSkipReason := none
  headEligibleFailTs := none
  delegateRestore := none
  restoreDepositsOpen := none
  scheduledTiming := none
  reserved := extension.bytes

end RecordedExtension

open RecordedExtension in
theorem extension_lossless_and_lazy_recorded :
    decodeVaultExtension state = .ok (state.extendedBy extension) ∧
      SameConclusions state (state.extendedBy extension) := by
  have hranged : extension.Ranged := ⟨⟨by decide, by decide⟩, rfl⟩
  obtain ⟨hdecode, -, hsame⟩ := @extension_lossless_and_lazy state extension hranged rfl
  exact ⟨hdecode, hsame rfl rfl⟩

end FermiSdk
