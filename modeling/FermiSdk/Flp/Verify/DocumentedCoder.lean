import FermiSdk.Flp.Verify.Coder

/-!
# A coder as documented

A coder that does what is documented of anchor's, and throws what anchor does for any other
discriminator and for a byte that is no `bool` (`BorshCoder.documented_lawful`). Results that are
stated for any lawful coder are applied to it on recorded data.
-/

namespace FermiSdk

open FermiSdk.Lib

/-! ## Scalars -/

section

variable {bytes : Bytes}

@[simp] theorem uint8_ofNat_leNat (n : UInt8) : UInt8.ofNat (leNat [n]) = n := by
  simp [leNat]

@[simp] theorem uint16_ofNat_leNat (n : UInt16) :
    UInt16.ofNat (leNat (leBytes 2 n.toNat)) = n := by
  rw [leNat_leBytes n.toNat_lt, UInt16.ofNat_toNat]

@[simp] theorem uint32_ofNat_leNat (n : UInt32) :
    UInt32.ofNat (leNat (leBytes 4 n.toNat)) = n := by
  rw [leNat_leBytes n.toNat_lt, UInt32.ofNat_toNat]

@[simp] theorem uint64_ofNat_leNat (n : UInt64) :
    UInt64.ofNat (leNat (leBytes 8 n.toNat)) = n := by
  rw [leNat_leBytes n.toNat_lt, UInt64.ofNat_toNat]

theorem leInt_i64Bytes {n : Int} (h : IsI64 n) : leInt (i64Bytes n) = n := by
  have hlo := h.1
  have hhi := h.2
  exact leInt_leBytes (by omega) (by omega)

theorem bytes_of_uint8 (h : bytes.length = 1) : [UInt8.ofNat (leNat bytes)] = bytes := by
  obtain ⟨b, rfl⟩ := List.length_eq_one_iff.1 h
  rw [uint8_ofNat_leNat]

theorem bytes_of_uint16 (h : bytes.length = 2) :
    leBytes 2 (UInt16.ofNat (leNat bytes)).toNat = bytes := by
  have hlt := leNat_lt bytes
  rw [h] at hlt
  rw [UInt16.toNat_ofNat_of_lt' hlt, ← h, leBytes_leNat]

theorem bytes_of_uint32 (h : bytes.length = 4) :
    leBytes 4 (UInt32.ofNat (leNat bytes)).toNat = bytes := by
  have hlt := leNat_lt bytes
  rw [h] at hlt
  rw [UInt32.toNat_ofNat_of_lt' hlt, ← h, leBytes_leNat]

theorem bytes_of_uint64 (h : bytes.length = 8) :
    leBytes 8 (UInt64.ofNat (leNat bytes)).toNat = bytes := by
  have hlt := leNat_lt bytes
  rw [h] at hlt
  rw [UInt64.toNat_ofNat_of_lt' hlt, ← h, leBytes_leNat]

theorem bytes_of_i64 (h : bytes.length = 8) : i64Bytes (leInt bytes) = bytes := by
  unfold i64Bytes
  rw [← h, leBytes_leInt]

theorem isI64_leInt (h : bytes.length = 8) : IsI64 (leInt bytes) := by
  have hlt := leNat_lt bytes
  rw [h] at hlt
  unfold IsI64 leInt
  rw [h]
  split <;> omega

/-- A `bool` of Borsh. -/
def decodeBool (bytes : Bytes) : Throws Bool :=
  match leNat bytes with
  | 0 => pure false
  | 1 => pure true
  | value => throw s!"Invalid bool: {value}"

theorem bytes_of_bool {value : Bool} (h : bytes.length = 1) :
    decodeBool bytes = .ok value ↔ bytes = [if value then 1 else 0] := by
  obtain ⟨b, rfl⟩ := List.length_eq_one_iff.1 h
  have hb : leNat [b] = b.toNat := by simp [leNat]
  unfold decodeBool
  rw [hb, List.cons.injEq, and_iff_left rfl]
  split
  · next hzero =>
    obtain rfl : b = 0 := UInt8.toNat_inj.1 hzero
    cases value <;> simp
  · next hone =>
    obtain rfl : b = 1 := UInt8.toNat_inj.1 hone
    cases value <;> simp
  · next hzero hone =>
    refine iff_of_false (fun h => by cases h) ?_
    rintro rfl
    cases value
    · exact hzero rfl
    · exact hone rfl

end

/-! ## Arrays -/

/-- The elements of an array of `width` bytes each. -/
def arrayElements (width : Nat) : (count : Nat) → Bytes → List Bytes
  | 0, _ => []
  | count + 1, bytes => bytes.take width :: arrayElements width count (bytes.drop width)

section

variable {α : Type} {width : Nat} {encode : α → Bytes} {decode : Bytes → α}

/-- The elements that were written are read back. -/
theorem map_arrayElements {l : List α} (hwidth : ∀ a ∈ l, (encode a).length = width)
    (hdecode : ∀ a ∈ l, decode (encode a) = a) :
    (arrayElements width l.length (l.flatMap encode)).map decode = l := by
  induction l with
  | nil => rfl
  | cons a l ih =>
    have ha := hwidth a List.mem_cons_self
    rw [List.length_cons, arrayElements, List.flatMap_cons, List.take_left' ha, List.drop_left' ha,
      List.map_cons, hdecode a List.mem_cons_self,
      ih (fun b hb => hwidth b (List.mem_cons_of_mem a hb)) fun b hb =>
        hdecode b (List.mem_cons_of_mem a hb)]

theorem length_arrayElements (count : Nat) (bytes : Bytes) :
    (arrayElements width count bytes).length = count := by
  induction count generalizing bytes with
  | zero => rfl
  | succ count ih => rw [arrayElements, List.length_cons, ih]

theorem length_of_mem_arrayElements {count : Nat} {bytes element : Bytes}
    (hlength : bytes.length = width * count) (h : element ∈ arrayElements width count bytes) :
    element.length = width := by
  induction count generalizing bytes with
  | zero => cases h
  | succ count ih =>
    rw [Nat.mul_succ] at hlength
    rcases List.mem_cons.1 h with rfl | h
    · rw [List.length_take]
      omega
    · refine ih ?_ h
      rw [List.length_drop]
      omega

/-- The elements that were read make up the array. -/
theorem flatMap_arrayElements {count : Nat} {bytes : Bytes} (hlength : bytes.length = width * count)
    (hencode : ∀ element : Bytes, element.length = width → encode (decode element) = element) :
    ((arrayElements width count bytes).map decode).flatMap encode = bytes := by
  induction count generalizing bytes with
  | zero => exact (List.length_eq_zero_iff.1 hlength).symm
  | succ count ih =>
    rw [Nat.mul_succ] at hlength
    rw [arrayElements, List.map_cons, List.flatMap_cons, hencode _ (by rw [List.length_take]; omega),
      ih (by rw [List.length_drop]; omega), List.take_append_drop]

end

/-! ## Fields -/

section

variable {rt : Runtime} {α : Type} {layout : AccountLayout α}

/-- The check of the discriminator, and what the fields behind it are decoded to. -/
def decodeFields (rt : Runtime) (definition : IdlAccountType)
    (ofFields : (String → Bytes) → Throws α) (data : Bytes) : Throws α := do
  throwIf (data.take 8 ≠ accountDiscriminator rt definition.name) "Invalid account discriminator"
  ofFields (Fields.read definition.fields (data.drop 8))

theorem AccountLayout.decodes_of_fields {ofFields : (String → Bytes) → Throws α}
    (h : ∀ (r : Fields.Record layout.definition.fields) (a : α), ofFields r.value = .ok a ↔
      layout.Ranged a ∧ ∀ entry ∈ layout.entries a, r.value entry.1 = entry.2) :
    layout.Decodes rt (decodeFields rt layout.definition ofFields) := by
  intro data a hlength
  simp only [decodeFields, Throws.bind_eq_ok, Throws.throwIf_eq_ok, exists_const, not_not]
  constructor
  · rintro ⟨hdisc, ha⟩
    obtain ⟨r, hr⟩ : ∃ r : Fields.Record layout.definition.fields,
        Fields.write layout.definition.fields r.value = data.drop 8 := by
      apply Fields.exists_record _ layout.nodup
      rw [List.length_drop, hlength, Nat.add_sub_cancel_left]
    rw [← hr, r.read_write] at ha
    obtain ⟨hranged, hentries⟩ := (h r a).1 ha
    exact ⟨hranged, r, by rw [hr, ← hdisc, List.take_append_drop], hentries⟩
  · rintro ⟨hranged, r, rfl, hentries⟩
    have hdisc := length_accountDiscriminator rt layout.definition.name
    rw [List.take_left' hdisc, List.drop_left' hdisc, r.read_write]
    exact ⟨rfl, (h r a).2 ⟨hranged, hentries⟩⟩

/-- The values of the named entries, and of the other fields. -/
def fieldValues (entries : List (String × Bytes)) (other : String → Bytes) : String → Bytes :=
  fun name => (entries.lookup name).getD (other name)

/-- A record is given by some of its entries and the rest. -/
theorem fieldValues_eq {entries : List (String × Bytes)} {value : String → Bytes}
    (h : ∀ entry ∈ entries, value entry.1 = entry.2) : fieldValues entries value = value := by
  funext name
  unfold fieldValues
  cases hlookup : entries.lookup name with
  | none => rfl
  | some bytes =>
    obtain ⟨before, after, hsplit, -⟩ := List.lookup_eq_some_iff.1 hlookup
    rw [Option.getD_some, h (name, bytes)]
    rw [hsplit]
    exact List.mem_append_right _ List.mem_cons_self

end

/-! ## Vaults -/

def vaultOfFields (field : String → Bytes) : Throws VaultState := do
  let u8 name := UInt8.ofNat (leNat (field name))
  let u16 name := UInt16.ofNat (leNat (field name))
  let u32 name := UInt32.ofNat (leNat (field name))
  let u64 name := UInt64.ofNat (leNat (field name))
  pure {
    version := u8 "version"
    status := u8 "status"
    expandedRecovery := none
    epoch := u64 "epoch"
    deferredHead := u64 "deferredHead"
    deferredTail := u64 "deferredTail"
    shareMint := ← PublicKey.ofBytes (field "shareMint")
    depositEscrow := ← PublicKey.ofBytes (field "depositEscrow")
    redemptionEscrow := ← PublicKey.ofBytes (field "redemptionEscrow")
    vaultId := u16 "vaultId"
    group := ← PublicKey.ofBytes (field "group")
    fermiAccount := ← PublicKey.ofBytes (field "fermiAccount")
    quoteBank := ← PublicKey.ofBytes (field "quoteBank")
    quoteMint := ← PublicKey.ofBytes (field "quoteMint")
    feeRecipient := ← PublicKey.ofBytes (field "feeRecipient")
    params := {
      epochDurationS := u32 "params.epochDurationS"
      requestCutoffS := u32 "params.requestCutoffS"
      timelockS := u32 "params.timelockS"
      mgmtFeeBps := u16 "params.mgmtFeeBps"
      perfFeeBps := u16 "params.perfFeeBps"
      depositFeeBps := u16 "params.depositFeeBps"
      withdrawFeeBps := u16 "params.withdrawFeeBps"
      upnlHaircutBps := u16 "params.upnlHaircutBps"
      minPostWithdrawInitRatioBps := u16 "params.minPostWithdrawInitRatioBps"
      breakerDrawdownBps := u16 "params.breakerDrawdownBps"
      breakerMinInitRatioBps := u16 "params.breakerMinInitRatioBps"
      breakerWindowS := u32 "params.breakerWindowS"
      tvlCap := u64 "params.tvlCap"
      minDeposit := u64 "params.minDeposit"
      minWithdrawShares := u64 "params.minWithdrawShares" }
    equityWindowS := none
    recoveryParams := {
      graceProportionalS := u32 "recoveryParams.graceProportionalS"
      graceFullS := u32 "recoveryParams.graceFullS"
      oracleBandBps := u16 "recoveryParams.oracleBandBps"
      maxStepQuote := u64 "recoveryParams.maxStepQuote" }
    unwind := {
      mode := u8 "unwind.mode"
      batchEpoch := u64 "unwind.batchEpoch"
      startedAt := leInt (field "unwind.startedAt")
      marketIndexes := (arrayElements 2 4 (field "unwind.marketIndexes")).map leNat
      targetBaseLots := (arrayElements 8 4 (field "unwind.targetBaseLots")).map leInt }
    headSkipReason := none
    headEligibleFailTs := none
    delegateRestore := none
    restoreDepositsOpen := none
    scheduledTiming := none
    reserved := field "reserved" }

section

variable {state : VaultState} {value : String → Bytes}

theorem map_marketIndexes {n : Nat} {markets : List Nat} (hlength : markets.length = n)
    (h : ∀ market ∈ markets, market < 2 ^ 16) :
    (arrayElements 2 n (markets.flatMap (leBytes 2))).map leNat = markets := by
  subst hlength
  exact map_arrayElements (fun _ _ => length_leBytes 2 _) fun market hm => leNat_leBytes (h market hm)

theorem map_targetBaseLots {n : Nat} {lots : List Int} (hlength : lots.length = n)
    (h : ∀ l ∈ lots, IsI64 l) :
    (arrayElements 8 n (lots.flatMap i64Bytes)).map leInt = lots := by
  subst hlength
  exact map_arrayElements (fun _ _ => length_leBytes 8 _) fun l hl => leInt_i64Bytes (h l hl)

theorem marketIndexes_range {n : Nat} {bytes : Bytes} (hlength : bytes.length = 2 * n) :
    ((arrayElements 2 n bytes).map leNat).length = n ∧
      ∀ market ∈ (arrayElements 2 n bytes).map leNat, market < 2 ^ 16 := by
  refine ⟨by rw [List.length_map, length_arrayElements], fun market hmarket => ?_⟩
  obtain ⟨element, helement, rfl⟩ := List.mem_map.1 hmarket
  have hlt := leNat_lt element
  rw [length_of_mem_arrayElements hlength helement] at hlt
  exact hlt

theorem targetBaseLots_range {n : Nat} {bytes : Bytes} (hlength : bytes.length = 8 * n) :
    ((arrayElements 8 n bytes).map leInt).length = n ∧
      ∀ lots ∈ (arrayElements 8 n bytes).map leInt, IsI64 lots := by
  refine ⟨by rw [List.length_map, length_arrayElements], fun lots hlots => ?_⟩
  obtain ⟨element, helement, rfl⟩ := List.mem_map.1 hlots
  exact isI64_leInt (length_of_mem_arrayElements hlength helement)

/-- What was written for a vault is read back. -/
theorem vaultOfFields_entries (h : state.Raw) (other : String → Bytes) :
    vaultOfFields (fieldValues state.entries other) = .ok state := by
  obtain ⟨⟨version, status, expandedRecovery, epoch, deferredHead, deferredTail, shareMint,
    depositEscrow, redemptionEscrow⟩, vaultId, group, fermiAccount, quoteBank, quoteMint,
    feeRecipient, params, equityWindowS, recoveryParams, unwind, headSkipReason,
    headEligibleFailTs, delegateRestore, restoreDepositsOpen, scheduledTiming, reserved⟩ := state
  obtain ⟨rfl, rfl, rfl, rfl, rfl, rfl, rfl, hstarted, hmarkets, hlots⟩ := h
  have hkey (key : PublicKey) : PublicKey.ofBytes key.bytes = .ok key := PublicKey.ofBytes_eq_ok.2 rfl
  simp only [vaultOfFields, fieldValues, VaultState.entries, List.lookup_cons, String.reduceBEq,
    Option.getD_some, hkey, Throws.ok_bind, uint8_ofNat_leNat, uint16_ofNat_leNat,
    uint32_ofNat_leNat, uint64_ofNat_leNat, leInt_i64Bytes hstarted,
    map_marketIndexes hmarkets.1 hmarkets.2, map_targetBaseLots hlots.1 hlots.2]
  rfl

/-- What is read of a vault is what was written. -/
theorem entries_of_vaultOfFields {r : Fields.Record vaultType.fields}
    (h : vaultOfFields r.value = .ok state) :
    state.Raw ∧ ∀ entry ∈ state.entries, r.value entry.1 = entry.2 := by
  have hwidth : ∀ f ∈ vaultType.fields, (r.value f.1).length = f.2 := r.fits
  simp only [vaultType, List.forall_mem_cons] at hwidth
  simp only [vaultOfFields, Throws.bind_eq_ok, Throws.pure_eq_ok, PublicKey.ofBytes_eq_ok] at h
  obtain ⟨shareMint, hshareMint, depositEscrow, hdepositEscrow, redemptionEscrow,
    hredemptionEscrow, group, hgroup, fermiAccount, hfermiAccount, quoteBank, hquoteBank,
    quoteMint, hquoteMint, feeRecipient, hfeeRecipient, rfl⟩ := h
  have hmarkets : (r.value "unwind.marketIndexes").length = 2 * 4 := by simp only [hwidth]
  have hlots : (r.value "unwind.targetBaseLots").length = 8 * 4 := by simp only [hwidth]
  have hmarketBytes : ((arrayElements 2 4 (r.value "unwind.marketIndexes")).map leNat).flatMap
      (leBytes 2) = r.value "unwind.marketIndexes" :=
    flatMap_arrayElements hmarkets fun element helement => by rw [← helement, leBytes_leNat]
  have hlotBytes : ((arrayElements 8 4 (r.value "unwind.targetBaseLots")).map leInt).flatMap
      i64Bytes = r.value "unwind.targetBaseLots" :=
    flatMap_arrayElements hlots fun element helement => bytes_of_i64 helement
  refine ⟨⟨rfl, rfl, rfl, rfl, rfl, rfl, rfl, ?started,
    marketIndexes_range hmarkets, targetBaseLots_range hlots⟩, ?entries⟩
  case started => exact isI64_leInt (by simp only [hwidth])
  case entries =>
    simp only [VaultState.entries, List.forall_mem_cons, bytes_of_uint8, bytes_of_uint16,
      bytes_of_uint32, bytes_of_uint64, bytes_of_i64, hwidth, hmarketBytes, hlotBytes, hshareMint,
      hdepositEscrow, hredemptionEscrow, hgroup, hfermiAccount, hquoteBank, hquoteMint,
      hfeeRecipient, true_and]
    exact fun _ hnil => absurd hnil List.not_mem_nil

theorem vaultOfFields_eq_ok {r : Fields.Record vaultType.fields} :
    vaultOfFields r.value = .ok state ↔
      state.Raw ∧ ∀ entry ∈ state.entries, r.value entry.1 = entry.2 := by
  refine ⟨entries_of_vaultOfFields, fun ⟨hraw, hentries⟩ => ?_⟩
  rw [← fieldValues_eq hentries]
  exact vaultOfFields_entries hraw r.value

end

/-! ## Recovery sidecars -/

def recoveryTargetsOfFields (field : String → Bytes) : Throws RecoveryTargets := do
  pure {
    vault := ← PublicKey.ofBytes (field "vault")
    mode := UInt8.ofNat (leNat (field "mode"))
    batchEpoch := UInt64.ofNat (leNat (field "batchEpoch"))
    startedAt := leInt (field "startedAt")
    marketIndexes := (arrayElements 2 13 (field "marketIndexes")).map leNat
    targetBaseLots := (arrayElements 8 13 (field "targetBaseLots")).map leInt }

theorem recoveryTargetsOfFields_eq_ok {targets : RecoveryTargets}
    {r : Fields.Record recoveryTargetsType.fields} :
    recoveryTargetsOfFields r.value = .ok targets ↔
      targets.Ranged ∧ ∀ entry ∈ recoveryTargetsLayout.entries targets, r.value entry.1 = entry.2 := by
  constructor
  · intro h
    have hwidth : ∀ f ∈ recoveryTargetsType.fields, (r.value f.1).length = f.2 := r.fits
    simp only [recoveryTargetsType, List.forall_mem_cons] at hwidth
    simp only [recoveryTargetsOfFields, Throws.bind_eq_ok, Throws.pure_eq_ok, PublicKey.ofBytes_eq_ok] at h
    obtain ⟨vault, hvault, rfl⟩ := h
    have hmarkets : (r.value "marketIndexes").length = 2 * 13 := by simp only [hwidth]
    have hlots : (r.value "targetBaseLots").length = 8 * 13 := by simp only [hwidth]
    have hmarketBytes : ((arrayElements 2 13 (r.value "marketIndexes")).map leNat).flatMap
        (leBytes 2) = r.value "marketIndexes" :=
      flatMap_arrayElements hmarkets fun element helement => by rw [← helement, leBytes_leNat]
    have hlotBytes : ((arrayElements 8 13 (r.value "targetBaseLots")).map leInt).flatMap
        i64Bytes = r.value "targetBaseLots" :=
      flatMap_arrayElements hlots fun element helement => bytes_of_i64 helement
    refine ⟨⟨?started, marketIndexes_range hmarkets, targetBaseLots_range hlots⟩, ?entries⟩
    case started => exact isI64_leInt (by simp only [hwidth])
    case entries =>
      simp only [recoveryTargetsLayout, List.forall_mem_cons, bytes_of_uint8, bytes_of_uint64,
        bytes_of_i64, hwidth, hmarketBytes, hlotBytes, hvault, true_and]
      exact fun _ hnil => absurd hnil List.not_mem_nil
  · rintro ⟨⟨hstarted, hmarkets, hlots⟩, hentries⟩
    have hkey (key : PublicKey) : PublicKey.ofBytes key.bytes = .ok key := PublicKey.ofBytes_eq_ok.2 rfl
    simp only [recoveryTargetsLayout, List.forall_mem_cons] at hentries
    simp only [recoveryTargetsOfFields, hentries, hkey, Throws.ok_bind, uint8_ofNat_leNat,
      uint64_ofNat_leNat, leInt_i64Bytes hstarted, map_marketIndexes hmarkets.1 hmarkets.2,
      map_targetBaseLots hlots.1 hlots.2]
    rfl

/-! ## The other accounts -/

def epochRecordOfFields (field : String → Bytes) : Throws EpochAccount := do
  pure {
    vault := ← PublicKey.ofBytes (field "vault")
    epoch := UInt64.ofNat (leNat (field "epoch"))
    wdStatus := UInt8.ofNat (leNat (field "wdStatus"))
    nextDeferred := UInt64.ofNat (leNat (field "nextDeferred"))
    depGross := UInt64.ofNat (leNat (field "depGross"))
    depDen := leNat (field "depDen") }

def depositorOfFields (field : String → Bytes) : Throws DepositorAccount := do
  let u64 name := UInt64.ofNat (leNat (field name))
  pure {
    vault := ← PublicKey.ofBytes (field "vault")
    user := ← PublicKey.ofBytes (field "user")
    bump := UInt8.ofNat (leNat (field "bump"))
    dep := {
      requestId := u64 "dep.requestId"
      epoch := u64 "dep.epoch"
      amount := u64 "dep.amount"
      aux := u64 "dep.aux" }
    wd := {
      requestId := u64 "wd.requestId"
      epoch := u64 "wd.epoch"
      amount := u64 "wd.amount"
      aux := u64 "wd.aux" }
    sharesHeld := u64 "sharesHeld"
    costBasis := u64 "costBasis"
    realizedPnl := leInt (field "realizedPnl")
    totalDeposited := u64 "totalDeposited"
    totalWithdrawn := u64 "totalWithdrawn"
    firstDepositTs := leInt (field "firstDepositTs")
    lastActionTs := leInt (field "lastActionTs")
    preDepositAmount := u64 "preDepositAmount"
    depositApproved := ← decodeBool (field "depositApproved") }

def fundingWindowOfFields (field : String → Bytes) : Throws FundingWindowAccount := do
  pure {
    vault := ← PublicKey.ofBytes (field "vault")
    version := UInt8.ofNat (leNat (field "version"))
    closedEpoch := UInt64.ofNat (leNat (field "closedEpoch"))
    scheduledStart := leInt (field "scheduledStart")
    deadline := leInt (field "deadline")
    eligible := ← decodeBool (field "eligible") }

theorem epochRecordOfFields_eq_ok {r : Fields.Record epochRecordType.fields}
    {record : EpochAccount} :
    epochRecordOfFields r.value = .ok record ↔ epochRecordLayout.Ranged record ∧
      ∀ entry ∈ epochRecordLayout.entries record, r.value entry.1 = entry.2 := by
  have hwidth : ∀ f ∈ epochRecordType.fields, (r.value f.1).length = f.2 := r.fits
  simp only [epochRecordType, List.forall_mem_cons] at hwidth
  simp only [epochRecordOfFields, Throws.bind_eq_ok, Throws.pure_eq_ok, PublicKey.ofBytes_eq_ok,
    epochRecordLayout, List.forall_mem_cons]
  constructor
  · rintro ⟨vault, hvault, rfl⟩
    have hden : r.value "depDen" = leBytes 16 (leNat (r.value "depDen")) := by
      have hlength : (r.value "depDen").length = 16 := by simp only [hwidth]
      rw [← hlength, leBytes_leNat]
    have hlt := leNat_lt (r.value "depDen")
    simp only [hwidth] at hlt
    simp only [bytes_of_uint8, bytes_of_uint64, hwidth, hvault, true_and, ← hden]
    exact ⟨hlt, fun _ hnil => absurd hnil List.not_mem_nil⟩
  · rintro ⟨hden, hentries⟩
    simp only [hentries, uint8_ofNat_leNat, uint64_ofNat_leNat, leNat_leBytes hden]
    exact ⟨record.vault, rfl, rfl⟩

theorem depositorOfFields_eq_ok {r : Fields.Record depositorType.fields}
    {record : DepositorAccount} :
    depositorOfFields r.value = .ok record ↔ depositorLayout.Ranged record ∧
      ∀ entry ∈ depositorLayout.entries record, r.value entry.1 = entry.2 := by
  have hwidth : ∀ f ∈ depositorType.fields, (r.value f.1).length = f.2 := r.fits
  simp only [depositorType, List.forall_mem_cons] at hwidth
  have hbool : (r.value "depositApproved").length = 1 := by simp only [hwidth]
  simp only [depositorOfFields, Throws.bind_eq_ok, Throws.pure_eq_ok, PublicKey.ofBytes_eq_ok,
    bytes_of_bool hbool, depositorLayout, List.forall_mem_cons]
  constructor
  · rintro ⟨vault, hvault, user, huser, approved, happroved, rfl⟩
    simp only [bytes_of_uint8, bytes_of_uint64, bytes_of_i64, isI64_leInt, hwidth, hvault, huser,
      happroved, true_and]
    exact fun _ hnil => absurd hnil List.not_mem_nil
  · rintro ⟨⟨hpnl, hfirst, hlast⟩, hentries⟩
    simp only [hentries, uint8_ofNat_leNat, uint64_ofNat_leNat, leInt_i64Bytes hpnl,
      leInt_i64Bytes hfirst, leInt_i64Bytes hlast]
    exact ⟨record.vault, rfl, record.user, rfl, record.depositApproved, rfl, rfl⟩

theorem fundingWindowOfFields_eq_ok {r : Fields.Record fundingWindowType.fields}
    {window : FundingWindowAccount} :
    fundingWindowOfFields r.value = .ok window ↔ fundingWindowLayout.Ranged window ∧
      ∀ entry ∈ fundingWindowLayout.entries window, r.value entry.1 = entry.2 := by
  have hwidth : ∀ f ∈ fundingWindowType.fields, (r.value f.1).length = f.2 := r.fits
  simp only [fundingWindowType, List.forall_mem_cons] at hwidth
  have hbool : (r.value "eligible").length = 1 := by simp only [hwidth]
  simp only [fundingWindowOfFields, Throws.bind_eq_ok, Throws.pure_eq_ok, PublicKey.ofBytes_eq_ok,
    bytes_of_bool hbool, fundingWindowLayout, List.forall_mem_cons]
  constructor
  · rintro ⟨vault, hvault, eligible, heligible, rfl⟩
    simp only [bytes_of_uint8, bytes_of_uint64, bytes_of_i64, isI64_leInt, hwidth, hvault,
      heligible, true_and]
    exact fun _ hnil => absurd hnil List.not_mem_nil
  · rintro ⟨⟨hstart, hdeadline⟩, hentries⟩
    simp only [hentries, uint8_ofNat_leNat, uint64_ofNat_leNat, leInt_i64Bytes hstart,
      leInt_i64Bytes hdeadline]
    exact ⟨window.vault, rfl, window.eligible, rfl, rfl⟩

/-! ## The coder -/

/-- The coder of a description with these instructions. -/
def BorshCoder.documented (rt : Runtime) (methods : List IdlInstruction) : BorshCoder where
  encode name args :=
    match methods.find? fun method => method.name = name with
    | none => throw s!"Unknown method: {name}"
    | some definition =>
      match borshArgs definition.args args with
      | none => throw "The value of \"value\" is out of range."
      | some bytes => pure (instructionDiscriminator rt definition.method ++ bytes)
  size definition := 8 + Fields.size definition.fields
  decodeVault := decodeFields rt vaultType vaultOfFields
  decodeEpochRecord := decodeFields rt epochRecordType epochRecordOfFields
  decodeRecoveryTargets := decodeFields rt recoveryTargetsType recoveryTargetsOfFields
  decodeDepositor := decodeFields rt depositorType depositorOfFields
  decodeFundingWindow := decodeFields rt fundingWindowType fundingWindowOfFields

theorem BorshCoder.documented_lawful (rt : Runtime) (methods : List IdlInstruction) :
    (BorshCoder.documented rt methods).Lawful rt methods where
  encode definition name args bytes hfind hbytes := by
    simp only [documented, hfind, hbytes]
    rfl
  size _ := rfl
  vault := vaultLayout.decodes_of_fields fun _ _ => vaultOfFields_eq_ok
  epochRecord := epochRecordLayout.decodes_of_fields fun _ _ => epochRecordOfFields_eq_ok
  recoveryTargets :=
    recoveryTargetsLayout.decodes_of_fields fun _ _ => recoveryTargetsOfFields_eq_ok
  depositor := depositorLayout.decodes_of_fields fun _ _ => depositorOfFields_eq_ok
  fundingWindow := fundingWindowLayout.decodes_of_fields fun _ _ => fundingWindowOfFields_eq_ok

end FermiSdk
