import FermiSdk.Fees.Verify.Deposits
import FermiSdk.Intents.Verify.Payload

/-!
# When a deposit is credited

The relayer credits a deposit if the instruction at the reported index is a transfer of the reported
amount from the reported owner to the reported address, and a memo instruction carries the reported
memo (`Verifies`). The transfer is made from the payer, whoever the owner is, and of the double
nearest to the amount; the report shows that double as JSON does. So a deposit is credited, for its
exact amount, exactly if the payer is the owner and the amount survives both (`credits_iff`).
-/

namespace FermiSdk.Fees

open FermiSdk.Lib

/-! ## The relayer's check -/

/-- web3.js encodes the arguments of a transfer faithfully, or throws. -/
def Transfer.Faithful (transfer : Transfer) : Prop :=
  ∀ fromPubkey toPubkey lamports ix, transfer fromPubkey toPubkey lamports = .ok ix →
    systemTransfer fromPubkey toPubkey lamports = .ok ix

/-- The integer that JSON shows of an amount. -/
def ReportAmount.shown : ReportAmount → Option Nat
  | .number (.int value) =>
    if 0 ≤ value ∧ value < 10 ^ 21 then some (shownInteger value.toNat) else none
  | .text value => value.toNat?
  | _ => none

/-- What the relayer checks of the instructions of a transaction. -/
structure Verifies (instructions : List TransactionInstruction) (instruction_index : Nat)
    (user_owner deposit_address : String) (amount : Nat) (memo : String) : Prop where
  transfer : ∃ owner address ix, PublicKey.ofBase58 user_owner = some owner ∧
    PublicKey.ofBase58 deposit_address = some address ∧
    instructions[instruction_index]? = some ix ∧
    systemTransfer owner address (.int amount) = .ok ix
  memo : ∃ ix ∈ instructions, ix.programId = MEMO_PROGRAM_ID ∧ ix.data = ofUtf8 memo

/-- Built instructions pass the check for the owner and account and the exact amount of the
input. -/
structure BuildsCredit (input : BuildFeeDepositInstructionsInput)
    (built : FeeDepositInstructions) : Prop where
  memo : built.memo = buildFeeDepositMemo input.userOwner input.fermiAccount
  verifies : ∃ amount : Nat, input.lamports.Denotes amount ∧
    Verifies built.instructions built.transferInstructionIndex (pubkeyStr input.userOwner)
      (pubkeyStr input.depositAddress) amount built.memo

/-- A transaction and its report pass the check for the owner and account and the exact amount of
the input. -/
structure ReportsCredit (input : DepositFeeCreditInput)
    (instructions : List TransactionInstruction) (report : FeeDepositReport) : Prop where
  owner : report.user_owner = pubkeyStr input.userOwner
  account : report.mango_account = pubkeyStr input.fermiAccount
  memo : report.memo = buildFeeDepositMemo input.userOwner input.fermiAccount
  verifies : ∃ amount : Nat, report.amount_lamports.shown = some amount ∧
    input.lamports.Denotes amount ∧
    Verifies instructions report.instruction_index report.user_owner report.deposit_address amount
      report.memo

/-! ## Which deposits pass -/

/-- The payer is the owner that the deposit is for. -/
def PayerOwns (payer : PublicKey) (userOwner : KeyLike) : Prop :=
  PublicKey.ofBase58 (pubkeyStr userOwner) = some payer

/-- `Number(lamports)` is exact. -/
def ExactNumber (lamports : BigNumberish) : Prop :=
  ∃ n : Nat, lamports.Denotes n ∧ toNumber lamports = .int n

/-- `Number(lamports)` is exact, and so is its text. -/
def ExactText (lamports : BigNumberish) : Prop :=
  ∃ n : Nat, lamports.Denotes n ∧ toNumber lamports = .int n ∧ shownInteger n = n

/-- **Every amount below 2^53 survives.** -/
theorem exactText_of_lt {lamports : BigNumberish} {n : Nat} (hn : n < 2 ^ 53)
    (h : lamports.Denotes n) : ExactText lamports := by
  refine ⟨n, h, ?_, shownInteger_of_lt hn⟩
  rcases h with rfl | rfl
  · have hnearest : nearestDouble (n : Int).natAbs = (n : Int).natAbs := nearestDouble_of_lt hn
    have hfinite : ∀ e, 53 ≤ e → ¬ 2 ^ e ≤ n := fun e he =>
      Nat.not_le.2 (Nat.lt_of_lt_of_le hn (Nat.pow_le_pow_right (by decide) he))
    rw [toNumber, numberOfBigInt, hnearest]
    simp only [if_neg (hfinite 1024 (by decide)), Int.natAbs_natCast]
    exact congrArg JsNumber.int (Int.sign_mul_natAbs n)
  · rfl

/-! ## Transfers -/

theorem systemTransfer_eq_ok {fromPubkey toPubkey : PublicKey} {lamports : JsNumber}
    {ix : TransactionInstruction} :
    systemTransfer fromPubkey toPubkey lamports = .ok ix ↔
      ∃ amount : Nat, lamports = .int amount ∧ amount < 2 ^ 64 ∧
        ix = {
          programId := PublicKey.default
          keys := [⟨fromPubkey, true, true⟩, ⟨toPubkey, false, true⟩]
          data := leBytes 4 2 ++ leBytes 8 amount } := by
  simp only [systemTransfer, Throws.bind_eq_ok, JsNumber.toBigInt_eq_ok, Throws.throwIf_eq_ok,
    exists_const, Throws.pure_eq_ok]
  constructor
  · rintro ⟨n, rfl, hrange, rfl⟩
    obtain ⟨amount, rfl⟩ := Int.eq_ofNat_of_zero_le (show 0 ≤ n by omega)
    exact ⟨amount, rfl, by omega, rfl⟩
  · rintro ⟨amount, rfl, hlt, rfl⟩
    exact ⟨amount, rfl, by omega, rfl⟩

/-- A transfer instruction tells whom it is from, whom it is to, and the amount. -/
theorem systemTransfer_inj {fromPubkey toPubkey fromPubkey' toPubkey' : PublicKey} {m n : Nat}
    {ix : TransactionInstruction} (h : systemTransfer fromPubkey toPubkey (.int m) = .ok ix)
    (h' : systemTransfer fromPubkey' toPubkey' (.int n) = .ok ix) :
    fromPubkey = fromPubkey' ∧ toPubkey = toPubkey' ∧ m = n := by
  obtain ⟨amount, hm, hlt, rfl⟩ := systemTransfer_eq_ok.1 h
  obtain ⟨amount', hn, hlt', hix⟩ := systemTransfer_eq_ok.1 h'
  obtain rfl : m = amount := Int.ofNat.inj (JsNumber.int.inj hm)
  obtain rfl : n = amount' := Int.ofNat.inj (JsNumber.int.inj hn)
  simp only [TransactionInstruction.mk.injEq, List.cons.injEq, AccountMeta.mk.injEq, and_true,
    true_and, List.append_cancel_left_eq] at hix
  obtain ⟨⟨hfrom, hto⟩, hdata⟩ := hix
  refine ⟨hfrom, hto, ?_⟩
  rw [← leNat_leBytes (w := 8) (n := m) (by omega), hdata, leNat_leBytes (by omega)]

/-! ## What a deposit does -/

section

variable {transfer : Transfer} {net : Network} {input : DepositFeeCreditInput}

/-- What an accepted input is built into. -/
theorem buildFeeDepositInstructions_eq_ok {input : BuildFeeDepositInstructionsInput}
    {built : FeeDepositInstructions}
    (h : buildFeeDepositInstructions transfer input = .ok built) :
    ∃ address payment, input.depositAddress.toPublicKey = .ok address ∧
      transfer input.payer address (toNumber input.lamports) = .ok payment ∧
      built = {
        instructions :=
          [memoInstruction (buildFeeDepositMemo input.userOwner input.fermiAccount), payment]
        memo := buildFeeDepositMemo input.userOwner input.fermiAccount
        transferInstructionIndex := 1 } := by
  simp only [buildFeeDepositInstructions, Throws.bind_eq_ok, Throws.throwIf_eq_ok, exists_const,
    Throws.pure_eq_ok] at h
  obtain ⟨-, address, haddress, payment, hpayment, rfl⟩ := h
  exact ⟨address, payment, haddress, hpayment, rfl⟩

/-- The key that is paid is the one that the text of the address denotes. -/
theorem ofBase58_pubkeyStr {value : KeyLike} {address : PublicKey}
    (h : value.toPublicKey = .ok address) :
    PublicKey.ofBase58 (pubkeyStr value) = some address := by
  cases value with
  | key value =>
    obtain rfl : value = address := Except.ok.inj h
    exact PublicKey.ofBase58_toBase58 value
  | text value =>
    rw [KeyLike.toPublicKey] at h
    split at h
    · next pubkey hvalue => exact hvalue.trans (congrArg some (Except.ok.inj h))
    · cases h

/-- The report of a deposit that was sent. -/
def reportOf (net : Network) (input : DepositFeeCreditInput) (depositAddress : KeyLike)
    (built : FeeDepositInstructions) (signature : TransactionSignature) : FeeDepositReport where
  source_chain := input.sourceChain.getD "solana-devnet"
  source_tx_signature := signature.text
  instruction_index := built.transferInstructionIndex
  user_owner := pubkeyStr input.userOwner
  mango_account := pubkeyStr input.fermiAccount
  amount_lamports := .number (toNumber input.lamports)
  deposit_address := pubkeyStr depositAddress
  memo := built.memo
  observed_at_ms := some net.now

/-- What a deposit leaves in the world: nothing, or one transaction with what was built, and after
its confirmation one report. -/
inductive Transcript (transfer : Transfer) (net : Network) (input : DepositFeeCreditInput) :
    World → Prop where
  | unsent {world : World} (htransactions : world.transactions = [])
    (hreports : world.reports = []) : Transcript transfer net input world
  | sent {world : World} {depositAddress : KeyLike} {built : FeeDepositInstructions}
    (hbuilt : buildFeeDepositInstructions transfer (input.toBuild depositAddress) = .ok built)
    (htransactions : world.transactions =
      [(built.instructions, input.payer :: input.additionalSigners.getD [])])
    (hreports : world.reports = [] ∨ ∃ signature request,
      net.sent = .returned signature ∧ world.reports = [request] ∧
        request.body = reportOf net input depositAddress built signature) :
    Transcript transfer net input world

theorem transcript_of_deposit (transfer : Transfer) (net : Network)
    (input : DepositFeeCreditInput) :
    Transcript transfer net input
      (perform (depositFeeCredit transfer net input) World.before).2 := by
  obtain ⟨requests, haddress⟩ := perform_depositAddressOf net input World.before
  unfold depositFeeCredit
  rw [perform_bind, haddress]
  cases hknown : knownAddress net input with
  | error thrown => exact .unsent rfl rfl
  | ok depositAddress =>
    simp only [perform_bind, perform_settled]
    cases hbuilt : buildFeeDepositInstructions transfer (input.toBuild depositAddress) with
    | error message => exact .unsent rfl rfl
    | ok built =>
      simp only [Except.mapError, perform_send]
      cases hsent : net.sent with
      | returned signature => exact .sent hbuilt rfl (.inr ⟨signature, _, hsent, rfl, rfl⟩)
      | rejected rejection confirmed => exact .sent hbuilt rfl (.inl rfl)

/-- An accepted deposit is sent, and reported once it is confirmed. -/
theorem reported_of_built {depositAddress : KeyLike} {built : FeeDepositInstructions}
    {signature : TransactionSignature} (hknown : knownAddress net input = .ok depositAddress)
    (hbuilt : buildFeeDepositInstructions transfer (input.toBuild depositAddress) = .ok built)
    (hsent : net.sent = .returned signature) :
    ∃ transaction ∈ (perform (depositFeeCredit transfer net input) World.before).2.transactions,
      ∃ report ∈ (perform (depositFeeCredit transfer net input) World.before).2.reports,
        transaction.1 = built.instructions ∧
          report.body = reportOf net input depositAddress built signature := by
  obtain ⟨requests, haddress⟩ := perform_depositAddressOf net input World.before
  unfold depositFeeCredit
  simp only [perform_bind, haddress, hknown, perform_settled, hbuilt, Except.mapError, perform_send,
    hsent]
  exact ⟨_, List.mem_cons_self, _, List.mem_cons_self, rfl, rfl⟩

/-! ## What is credited -/

/-- The amount that was transferred, and what a report shows of it. -/
theorem shown_of_built {input : BuildFeeDepositInstructionsInput} {built : FeeDepositInstructions}
    (hfaithful : transfer.Faithful)
    (hbuilt : buildFeeDepositInstructions transfer input = .ok built) :
    ∃ n : Nat, toNumber input.lamports = .int n ∧
      (ReportAmount.number (toNumber input.lamports)).shown = some (shownInteger n) := by
  obtain ⟨address, payment, -, hpayment, -⟩ := buildFeeDepositInstructions_eq_ok hbuilt
  obtain ⟨n, hn, hlt, -⟩ := systemTransfer_eq_ok.1 (hfaithful _ _ _ _ hpayment)
  refine ⟨n, hn, ?_⟩
  rw [hn, ReportAmount.shown, if_pos (by omega), Int.toNat_natCast]

/-- The check of what was built, for any owner and amount. -/
theorem verifies_iff {input : BuildFeeDepositInstructionsInput} {built : FeeDepositInstructions}
    (hfaithful : transfer.Faithful)
    (hbuilt : buildFeeDepositInstructions transfer input = .ok built) {user_owner : String}
    {amount : Nat} :
    Verifies built.instructions built.transferInstructionIndex user_owner
        (pubkeyStr input.depositAddress) amount built.memo ↔
      PublicKey.ofBase58 user_owner = some input.payer ∧ toNumber input.lamports = .int amount := by
  obtain ⟨address, payment, haddress, hpayment, rfl⟩ := buildFeeDepositInstructions_eq_ok hbuilt
  have hsystem := hfaithful _ _ _ _ hpayment
  constructor
  · rintro ⟨⟨owner, address', ix, howner, -, hix, htransfer⟩, -⟩
    obtain rfl : payment = ix := Option.some.inj hix
    obtain ⟨n, hn, -, -⟩ := systemTransfer_eq_ok.1 hsystem
    rw [hn] at hsystem
    obtain ⟨rfl, -, rfl⟩ := systemTransfer_inj hsystem htransfer
    exact ⟨howner, hn⟩
  · rintro ⟨howner, hamount⟩
    rw [hamount] at hsystem
    exact ⟨⟨input.payer, address, payment, howner, ofBase58_pubkeyStr haddress, rfl, hsystem⟩,
      _, List.mem_cons_self, rfl, rfl⟩

theorem memo_of_built {input : BuildFeeDepositInstructionsInput} {built : FeeDepositInstructions}
    (hbuilt : buildFeeDepositInstructions transfer input = .ok built) :
    built.memo = buildFeeDepositMemo input.userOwner input.fermiAccount := by
  obtain ⟨_, _, -, -, rfl⟩ := buildFeeDepositInstructions_eq_ok hbuilt
  rfl

theorem buildsCredit_iff {input : BuildFeeDepositInstructionsInput} {built : FeeDepositInstructions}
    (hfaithful : transfer.Faithful)
    (hbuilt : buildFeeDepositInstructions transfer input = .ok built) :
    BuildsCredit input built ↔
      PayerOwns input.payer input.userOwner ∧ ExactNumber input.lamports := by
  constructor
  · rintro ⟨-, amount, hdenotes, hverifies⟩
    obtain ⟨howner, hamount⟩ := (verifies_iff hfaithful hbuilt).1 hverifies
    exact ⟨howner, amount, hdenotes, hamount⟩
  · rintro ⟨howner, amount, hdenotes, hamount⟩
    exact ⟨memo_of_built hbuilt, amount, hdenotes,
      (verifies_iff hfaithful hbuilt).2 ⟨howner, hamount⟩⟩

theorem reportsCredit_iff {depositAddress : KeyLike} {built : FeeDepositInstructions}
    {signature : TransactionSignature} (hfaithful : transfer.Faithful)
    (hbuilt : buildFeeDepositInstructions transfer (input.toBuild depositAddress) = .ok built) :
    ReportsCredit input built.instructions (reportOf net input depositAddress built signature) ↔
      PayerOwns input.payer.publicKey input.userOwner ∧ ExactText input.lamports := by
  obtain ⟨n, hn, hamount⟩ := shown_of_built hfaithful hbuilt
  have hshown : (reportOf net input depositAddress built signature).amount_lamports.shown =
      some (shownInteger n) := hamount
  constructor
  · rintro ⟨-, -, -, amount, hamount, hdenotes, hverifies⟩
    obtain ⟨howner, htransferred⟩ := (verifies_iff hfaithful hbuilt).1 hverifies
    obtain rfl : shownInteger n = amount := Option.some.inj (hshown.symm.trans hamount)
    have htext : n = shownInteger n := Int.ofNat.inj (JsNumber.int.inj (hn.symm.trans htransferred))
    rw [← htext] at hdenotes
    exact ⟨howner, n, hdenotes, hn, htext.symm⟩
  · rintro ⟨howner, amount, hdenotes, hamount, htext⟩
    obtain rfl : n = amount := Int.ofNat.inj (JsNumber.int.inj (hn.symm.trans hamount))
    have hmemo := memo_of_built hbuilt
    rw [htext] at hshown
    exact ⟨rfl, rfl, hmemo, n, hshown, hdenotes,
      (verifies_iff hfaithful hbuilt).2 ⟨howner, hamount⟩⟩

end

/-- **A deposit is credited for its exact amount exactly if the payer is the owner and the amount is
a number that keeps it**: for what is built, if `Number(lamports)` does; for a transaction with its
report, if the text of that number does too. -/
theorem credits_iff {transfer : Transfer} (hfaithful : transfer.Faithful) :
    (∀ input built, buildFeeDepositInstructions transfer input = .ok built →
      (BuildsCredit input built ↔
        PayerOwns input.payer input.userOwner ∧ ExactNumber input.lamports)) ∧
    ∀ net input transaction report,
      transaction ∈ (perform (depositFeeCredit transfer net input) World.before).2.transactions →
      report ∈ (perform (depositFeeCredit transfer net input) World.before).2.reports →
        (ReportsCredit input transaction.1 report.body ↔
          PayerOwns input.payer.publicKey input.userOwner ∧ ExactText input.lamports) := by
  refine ⟨fun input built => buildsCredit_iff hfaithful, ?_⟩
  intro net input transaction report ht hr
  cases transcript_of_deposit transfer net input with
  | unsent htransactions hreports =>
    rw [htransactions] at ht
    cases ht
  | sent hbuilt htransactions hreports =>
    rw [htransactions, List.mem_singleton] at ht
    subst ht
    rcases hreports with hreports | ⟨signature, request, -, hreports, hbody⟩
    · rw [hreports] at hr
      cases hr
    · rw [hreports, List.mem_singleton] at hr
      subst hr
      rw [hbody]
      exact reportsCredit_iff hfaithful hbuilt

/-! ## Recorded deposits -/

/-- The transfer is confirmed and the relayer answers the report. -/
def answeringNetwork : Network where
  status := .error ⟨["fetch failed"]⟩
  sent := .returned paidSignature
  report := .ok ⟨200, noLimits, .ok "null", .ok .null⟩
  accepts := true
  now := 1777020802538

/-- What a deposit leaves behind. -/
def worldAfter (input : DepositFeeCreditInput) : World :=
  (perform (depositFeeCredit systemTransfer answeringNetwork input) World.before).2

theorem builds_of_amount (input : BuildFeeDepositInstructionsInput) {amount : Nat}
    {address : PublicKey} (haddress : input.depositAddress = .key address)
    (hamount : toNumber input.lamports = .int amount) (hpos : 0 < amount) (hlt : amount < 2 ^ 64) :
    ∃ built, buildFeeDepositInstructions systemTransfer input = .ok built := by
  have hpositive : isFinitePositive (toNumber input.lamports) = true := by
    rw [hamount, isFinitePositive]
    exact decide_eq_true (by omega)
  have hkey : input.depositAddress.toPublicKey = .ok address := by
    rw [haddress]
    rfl
  simp only [buildFeeDepositInstructions, Throws.bind_eq_ok, Throws.throwIf_eq_ok, exists_const,
    Throws.pure_eq_ok, hpositive, Bool.not_true, Bool.false_eq_true, not_false_eq_true, true_and]
  exact ⟨_, address, hkey, _, systemTransfer_eq_ok.2 ⟨amount, hamount, hlt, rfl⟩, rfl⟩

/-- A tenth of a SOL from the owner's own wallet is credited. -/
theorem credits_iff_own_wallet :
    (∃ built, buildFeeDepositInstructions systemTransfer
        (depositInput.toBuild (.key relayerAddress)) = .ok built ∧
      BuildsCredit (depositInput.toBuild (.key relayerAddress)) built) ∧
    ∃ transaction ∈ (worldAfter depositInput).transactions,
      ∃ report ∈ (worldAfter depositInput).reports,
        ReportsCredit depositInput transaction.1 report.body := by
  have hfaithful : Transfer.Faithful systemTransfer := fun _ _ _ _ h => h
  have howner : PayerOwns depositOwner (.key depositOwner) := PublicKey.ofBase58_toBase58 _
  have hdenotes : depositInput.lamports.Denotes (100000000 : Nat) := .inr rfl
  have hexact : ExactText depositInput.lamports := exactText_of_lt (by decide) hdenotes
  obtain ⟨hbuild, hreport⟩ := credits_iff hfaithful
  refine ⟨⟨_, rfl, (hbuild _ _ rfl).2 ⟨howner, _, hdenotes, rfl⟩⟩,
    _, List.mem_cons_self, _, List.mem_cons_self, ?_⟩
  exact (hreport answeringNetwork depositInput _ _ List.mem_cons_self List.mem_cons_self).2
    ⟨howner, hexact⟩

def sponsor : PublicKey := ⟨List.replicate 32 24, rfl⟩

/-- Another wallet pays. -/
def sponsoredInput : DepositFeeCreditInput := { depositInput with payer := ⟨sponsor, []⟩ }

/-- One lamport more than the nearest double. -/
def oddInput : DepositFeeCreditInput := { depositInput with lamports := .bigint (2 ^ 53 + 1) }

/-- A double that JSON writes with zeros at the end. -/
def roundedInput : DepositFeeCreditInput :=
  { depositInput with lamports := .number (.int (2 ^ 60)) }

/-- What is built for the input does not pass the check. -/
def BuildsNoCredit (input : DepositFeeCreditInput) : Prop :=
  ∃ built, buildFeeDepositInstructions systemTransfer (input.toBuild (.key relayerAddress)) =
      .ok built ∧ ¬ BuildsCredit (input.toBuild (.key relayerAddress)) built

/-- The transaction that is sent and its report do not pass the check. -/
def ReportsNoCredit (input : DepositFeeCreditInput) : Prop :=
  ∃ transaction ∈ (worldAfter input).transactions, ∃ report ∈ (worldAfter input).reports,
    ¬ ReportsCredit input transaction.1 report.body

theorem no_credit (input : DepositFeeCreditInput) (amount : Nat)
    (haddress : input.depositAddress = some (.key relayerAddress))
    (hamount : toNumber input.lamports = .int amount) (hpos : 0 < amount) (hlt : amount < 2 ^ 64) :
    (¬ (PayerOwns input.payer.publicKey input.userOwner ∧ ExactNumber input.lamports) →
      BuildsNoCredit input) ∧
    (¬ (PayerOwns input.payer.publicKey input.userOwner ∧ ExactText input.lamports) →
      ReportsNoCredit input) := by
  have hfaithful : Transfer.Faithful systemTransfer := fun _ _ _ _ h => h
  have hknown : knownAddress answeringNetwork input = .ok (.key relayerAddress) := by
    rw [knownAddress, haddress]
    rfl
  obtain ⟨built, hbuilt⟩ :=
    builds_of_amount (input.toBuild (.key relayerAddress)) rfl hamount hpos hlt
  constructor
  · intro hnot
    exact ⟨built, hbuilt, fun h => hnot ((buildsCredit_iff hfaithful hbuilt).1 h)⟩
  · intro hnot
    obtain ⟨transaction, ht, report, hr, hinstructions, hbody⟩ :=
      reported_of_built hknown hbuilt rfl
    refine ⟨transaction, ht, report, hr, fun h => hnot ?_⟩
    rw [hinstructions, hbody] at h
    exact (reportsCredit_iff hfaithful hbuilt).1 h

/-- **The SOL is gone, but not credited**: paid for the owner by a sponsor, of an odd bigint above
2^53, or of a double whose text is rounded. -/
theorem deposit_not_credited :
    BuildsNoCredit sponsoredInput ∧ ReportsNoCredit sponsoredInput ∧
    BuildsNoCredit oddInput ∧ ReportsNoCredit oddInput ∧ ReportsNoCredit roundedInput := by
  have hsponsor : ¬ PayerOwns sponsor (.key depositOwner) := by
    intro h
    have hkeys := (PublicKey.ofBase58_toBase58 depositOwner).symm.trans h
    exact absurd (Option.some.inj hkeys) (by decide)
  have hdouble : toNumber oddInput.lamports = .int (2 ^ 53 : Nat) := by decide +kernel
  have hodd : ¬ ExactNumber oddInput.lamports := by
    rintro ⟨n, hdenotes, hnumber⟩
    have hn := JsNumber.int.inj (hdouble.symm.trans hnumber)
    rcases hdenotes with h | h
    · have := BigNumberish.bigint.inj h
      omega
    · cases h
  have hrounded : ¬ ExactText roundedInput.lamports := by
    rintro ⟨n, -, hnumber, htext⟩
    have hn : 2 ^ 60 = n := Int.ofNat.inj (JsNumber.int.inj hnumber)
    rw [← hn] at htext
    exact absurd htext (by decide +kernel)
  have hplain := no_credit sponsoredInput 100000000 rfl rfl (by decide) (by decide)
  have hlarge := no_credit oddInput (2 ^ 53) rfl hdouble (by decide) (by decide)
  have hpadded := no_credit roundedInput (2 ^ 60) rfl rfl (by decide) (by decide)
  exact ⟨hplain.1 fun h => hsponsor h.1, hplain.2 fun h => hsponsor h.1,
    hlarge.1 fun h => hodd h.2, hlarge.2 fun h => hodd (h.2.imp fun _ h => ⟨h.1, h.2.1⟩),
    hpadded.2 fun h => hrounded h.2⟩

end FermiSdk.Fees
