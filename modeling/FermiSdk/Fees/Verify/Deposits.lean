import FermiSdk.Fees
import FermiSdk.Lib.Mentions

/-!
# When a paid deposit can be credited

After the transfer is confirmed the caller needs its signature to report it again. `depositFeeCredit`
knows the signature, but neither returns it nor puts it into what it throws: the caller gets what the
relayer answered or what the network rejected with. So a paid deposit can be credited without paying
again only if the relayer accepted the report, or if one of these happens to mention the signature
(`deposit_creditable_iff`).
-/

namespace FermiSdk.Fees

open FermiSdk.Lib
open FermiSdk.Streams (RateLimitInfo)

/-- What a function came to, and the world after it. -/
def perform {α : Type} (calls : Calls α) (world : World) : Except Thrown α × World :=
  calls.run.run world

/-- The texts that the caller of a deposit gets, by return or by throw. -/
def textsOf : Except Thrown ReportReply → List String
  | .ok reply => reply.texts
  | .error thrown => thrown.texts

/-- A confirmed transfer was accepted, or the caller can read its signature. -/
def Creditable (deposit : Except Thrown ReportReply × World) : Prop :=
  ∀ signature, deposit.2.confirmed = some signature →
    deposit.2.accepted = true ∨ Mentions signature.text (textsOf deposit.1)

/-! ## What the network says -/

/-- The texts that an answer of the relayer, or the failure to get one, consists of. -/
def replyTexts : Except Rejection (Response ReportReply) → List String
  | .error rejection => rejection.texts
  | .ok response =>
    if response.ok then
      match response.json with
      | .ok reply => reply.texts
      | .error rejection => rejection.texts
    else
      match response.text with
      | .ok text => [text]
      | .error rejection => rejection.texts

/-- A transfer is confirmed that the relayer does not accept, and nothing that the network says
mentions its signature. -/
def Network.Loses (net : Network) : Prop :=
  match net.sent with
  | .returned signature =>
    net.accepts = false ∧ ¬ Mentions signature.text (replyTexts net.report)
  | .rejected rejection (some signature) => ¬ Mentions signature.text rejection.texts
  | .rejected _ none => False

/-- The deposit address of the input, or that of the status. -/
def knownAddress (net : Network) (input : DepositFeeCreditInput) : Except Thrown KeyLike :=
  match input.depositAddress.filter KeyLike.truthy with
  | some depositAddress => .ok depositAddress
  | none =>
    (readReply "GET /relayer/fees/status" "relayer/fees/status" net.status).map
      fun status => .text status.deposit_address

/-- The deposit address is known and the builder accepts the input, so that a transfer is sent. -/
def Sends (transfer : Transfer) (net : Network) (input : DepositFeeCreditInput) : Prop :=
  ∃ depositAddress built, knownAddress net input = .ok depositAddress ∧
    buildFeeDepositInstructions transfer (input.toBuild depositAddress) = .ok built

/-! ## Texts of the SDK -/

section

variable {signature : TransactionSignature} {fetched : Except Rejection (Response ReportReply)}

theorem length_text : 64 ≤ signature.text.length := by
  rw [← signature.size]
  exact Base58.length_le_length_encode signature.bytes

theorem length_toString_status (status : UInt16) : (toString status).length ≤ 5 := by
  have hlt : status.toNat < 10 ^ 5 := by
    have := status.toNat_lt
    omega
  exact (Nat.length_repr_le_iff (by decide)).2 hlt

/-- What is thrown for a response that is not a success, with the text of its body. -/
def refusal {α : Type} (label what : String) (response : Response α) (text : String) : Thrown :=
  if response.status = 429 then
    .rateLimited s!"gateway rate limit hit on {label}" response.rateLimit text
  else .error s!"{what} failed: HTTP {response.status} {text}"

theorem checkRateLimit_of_ne {α : Type} {label : String} {response : Response α}
    (h : response.status ≠ 429) : checkRateLimit response label = .ok () := by
  unfold checkRateLimit
  rw [if_pos h]
  rfl

theorem readReply_of_ok {α : Type} {label what : String} {response : Response α}
    (h : response.ok = true) : readReply label what (.ok response) = await response.json := by
  have hstatus : response.status ≠ 429 := by
    intro heq
    rw [Response.ok, heq] at h
    exact absurd h (by decide)
  unfold readReply
  change (checkRateLimit response label >>= fun _ => _) = _
  rw [checkRateLimit_of_ne hstatus]
  change (if response.ok = true then await response.json else _) = _
  rw [if_pos h]

theorem readReply_of_not_ok {α : Type} {label what : String} {response : Response α}
    (h : response.ok = false) :
    readReply label what (.ok response) =
      await response.text >>= fun text => .error (refusal label what response text) := by
  unfold readReply refusal
  change (checkRateLimit response label >>= fun _ => _) = _
  by_cases hstatus : response.status = 429
  · rw [checkRateLimit, if_neg (not_not_intro hstatus)]
    cases response.text with
    | error rejection => rfl
    | ok text => simp only [if_pos hstatus]; rfl
  · rw [checkRateLimit_of_ne hstatus]
    change (if response.ok = true then await response.json else _) = _
    rw [h]
    simp only [if_neg hstatus]
    rfl

/-- A refusal mentions the signature only where the body does. -/
theorem mentions_refusal {response : Response ReportReply} {text : String} :
    Mentions signature.text
        (refusal "POST /relayer/fees-deposited" "relayer/fees-deposited" response text).texts ↔
      Mentions signature.text [text] := by
  have hlength : 64 ≤ signature.text.length := length_text
  unfold refusal
  split
  · refine mentions_cons_of_short (Nat.lt_of_lt_of_le ?_ hlength)
    decide
  · have hstatus := length_toString_status response.status
    have hspace : " " = String.singleton ' ' := rfl
    change Mentions _ ["relayer/fees-deposited" ++ " failed: HTTP " ++ toString response.status ++
      " " ++ text] ↔ _
    rw [hspace]
    refine mentions_append_of_short (Base58.space_notMem_encode _) (Nat.lt_of_lt_of_le ?_ hlength)
    have hfront : ("relayer/fees-deposited" ++ " failed: HTTP ").length = 36 := by decide
    rw [String.length_append, hfront]
    omega

/-- The SDK puts nothing that contains the signature into its own messages. -/
theorem mentions_readReply :
    Mentions signature.text
        (textsOf (readReply "POST /relayer/fees-deposited" "relayer/fees-deposited" fetched)) ↔
      Mentions signature.text (replyTexts fetched) := by
  cases fetched with
  | error rejection => exact Iff.rfl
  | ok response =>
    unfold replyTexts
    cases hok : response.ok with
    | true =>
      rw [readReply_of_ok hok]
      simp only [hok, if_true]
      cases response.json with
      | ok reply => exact Iff.rfl
      | error rejection => exact Iff.rfl
    | false =>
      rw [readReply_of_not_ok hok]
      simp only [hok, Bool.false_eq_true, if_false]
      cases response.text with
      | ok text => exact mentions_refusal
      | error rejection => exact Iff.rfl

end

/-! ## One deposit -/

section

variable {transfer : Transfer} {net : Network} {input : DepositFeeCreditInput} {world : World}

/-- What happened before a call throws stays so; what follows it starts from there. -/
theorem perform_bind {α β : Type} {calls : Calls α} {next : α → Calls β} :
    perform (calls >>= next) world =
      match perform calls world with
      | (.ok value, world) => perform (next value) world
      | (.error thrown, world) => (.error thrown, world) := by
  simp only [perform, ExceptT.run_bind, StateT.run_bind]
  rcases calls.run.run world with ⟨_ | _, _⟩ <;> rfl

theorem perform_settled {α : Type} {result : Except Thrown α} :
    perform (settled result) world = (result, world) := rfl

theorem perform_getStatus (net : Network) (client : FermiV1FeeClient) (query : FeeStatusQuery)
    (world : World) :
    ∃ requests, perform (client.getStatus net query) world =
      (readReply "GET /relayer/fees/status" "relayer/fees/status" net.status,
        { world with statusRequests := requests }) :=
  ⟨_, rfl⟩

/-- Reading the address changes nothing but the requests. -/
theorem perform_depositAddressOf (net : Network) (input : DepositFeeCreditInput) (world : World) :
    ∃ requests, perform (depositAddressOf net input) world =
      (knownAddress net input, { world with statusRequests := requests }) := by
  unfold depositAddressOf knownAddress
  cases input.depositAddress.filter KeyLike.truthy with
  | some depositAddress => exact ⟨_, rfl⟩
  | none =>
    obtain ⟨requests, hstatus⟩ := perform_getStatus net input.feeClient
      ⟨input.userOwner, input.fermiAccount, none, none, none⟩ world
    refine ⟨requests, ?_⟩
    rw [perform_bind, hstatus]
    cases readReply "GET /relayer/fees/status" "relayer/fees/status" net.status with
    | ok status => rfl
    | error thrown => rfl

theorem perform_send {instructions : List TransactionInstruction} {signers : List Keypair} :
    perform (sendAndConfirmTransaction net instructions signers) world =
      match net.sent with
      | .returned signature => (.ok signature, { world with
          transactions := world.transactions ++ [(instructions, signers)]
          confirmed := some signature })
      | .rejected rejection confirmed => (.error (.rejected rejection), { world with
          transactions := world.transactions ++ [(instructions, signers)]
          confirmed := confirmed }) := by
  unfold sendAndConfirmTransaction
  cases net.sent with
  | returned signature => rfl
  | rejected rejection confirmed => rfl

/-- The report is made and its reply read; the relayer may accept it whatever the reply is. -/
theorem perform_reportDeposit {client : FermiV1FeeClient} {request : FeeDepositReport}
    {adminToken : Option String} :
    ∃ world', perform (client.reportDeposit net request adminToken) world =
      (readReply "POST /relayer/fees-deposited" "relayer/fees-deposited" net.report, world') ∧
      world'.confirmed = world.confirmed ∧ world'.accepted = net.accepts :=
  ⟨_, rfl, rfl, rfl⟩

/-- A deposit that throws before it sends the transfer confirms none. -/
theorem confirmed_of_not_sends (h : ¬ Sends transfer net input) :
    (perform (depositFeeCredit transfer net input) World.before).2.confirmed = none := by
  obtain ⟨requests, haddress⟩ := perform_depositAddressOf net input World.before
  unfold depositFeeCredit
  rw [perform_bind, haddress]
  cases hknown : knownAddress net input with
  | error thrown => rfl
  | ok depositAddress =>
    simp only [perform_bind, perform_settled]
    cases hbuilt : buildFeeDepositInstructions transfer (input.toBuild depositAddress) with
    | error message => rfl
    | ok built => exact absurd ⟨depositAddress, built, hknown, hbuilt⟩ h

/-- After the transfer was sent, a deposit ends with its rejection or with the reply to the report. -/
theorem perform_of_sends (h : Sends transfer net input) :
    match net.sent with
    | .returned signature =>
      ∃ world, perform (depositFeeCredit transfer net input) World.before =
        (readReply "POST /relayer/fees-deposited" "relayer/fees-deposited" net.report, world) ∧
        world.confirmed = some signature ∧ world.accepted = net.accepts
    | .rejected rejection confirmed =>
      ∃ world, perform (depositFeeCredit transfer net input) World.before =
        (.error (.rejected rejection), world) ∧
        world.confirmed = confirmed ∧ world.accepted = false := by
  obtain ⟨depositAddress, built, hknown, hbuilt⟩ := h
  obtain ⟨requests, haddress⟩ := perform_depositAddressOf net input World.before
  unfold depositFeeCredit
  simp only [perform_bind, haddress, hknown, perform_settled, hbuilt, Except.mapError, perform_send]
  cases net.sent with
  | returned signature => exact perform_reportDeposit
  | rejected rejection confirmed => exact ⟨_, rfl, rfl, rfl⟩

end

/-- **A paid deposit can be credited unless the network keeps its signature to itself.** Whatever the
calls of a deposit come to, the transfer is accepted or the caller can read its signature, unless a
transfer is sent and confirmed, the relayer does not accept it, and neither what the relayer answers
nor what the network rejects with mentions the signature. -/
theorem deposit_creditable_iff (transfer : Transfer) (net : Network)
    (input : DepositFeeCreditInput) :
    Creditable (perform (depositFeeCredit transfer net input) World.before) ↔
      ¬ (Sends transfer net input ∧ net.Loses) := by
  by_cases hsends : Sends transfer net input
  · have hperform := perform_of_sends hsends
    unfold Creditable Network.Loses
    cases hsent : net.sent with
    | returned signature =>
      rw [hsent] at hperform
      obtain ⟨world, hdeposit, hconfirmed, haccepted⟩ := hperform
      simp only [hdeposit, hconfirmed, haccepted, Option.some_inj, forall_eq', mentions_readReply,
        hsends, true_and, not_and, not_not, ← Bool.not_eq_false]
      exact imp_iff_not_or.symm
    | rejected rejection confirmed =>
      rw [hsent] at hperform
      obtain ⟨world, hdeposit, hconfirmed, haccepted⟩ := hperform
      cases confirmed with
      | none =>
        refine iff_of_true ?_ fun h => h.2
        intro signature hsome
        rw [hdeposit, hconfirmed] at hsome
        cases hsome
      | some signature =>
        simp only [hdeposit, hconfirmed, haccepted, Option.some_inj, forall_eq', hsends, true_and,
          not_not, Bool.false_eq_true, false_or]
        exact Iff.rfl
  · have hnone := confirmed_of_not_sends hsends
    refine iff_of_true ?_ fun h => hsends h.1
    intro signature hconfirmed
    rw [hnone] at hconfirmed
    cases hconfirmed

/-- `SystemProgram.transfer` at whole amounts of a `u64`. -/
def systemTransfer : Transfer := fun fromPubkey toPubkey lamports => do
  let amount ← lamports.toBigInt
  throwIf (amount < 0 ∨ 2 ^ 64 ≤ amount) "out of range"
  pure {
    programId := PublicKey.default
    keys := [⟨fromPubkey, true, true⟩, ⟨toPubkey, false, true⟩]
    data := leBytes 4 2 ++ leBytes 8 amount.toNat }

def paidSignature : TransactionSignature := ⟨List.replicate 64 7, rfl⟩

def noLimits : RateLimitInfo := ⟨none, none, none⟩

/-- The transfer is confirmed, and the report comes to nothing. -/
def lostNetwork (report : Except Rejection (Response ReportReply)) : Network where
  status := .error ⟨["fetch failed"]⟩
  sent := .returned paidSignature
  report := report
  accepts := false
  now := 0

def depositOwner : PublicKey := ⟨List.replicate 32 21, rfl⟩

def depositAccount : PublicKey := ⟨List.replicate 32 22, rfl⟩

def relayerAddress : PublicKey := ⟨List.replicate 32 23, rfl⟩

def depositInput : DepositFeeCreditInput where
  payer := ⟨depositOwner, []⟩
  userOwner := .key depositOwner
  fermiAccount := .key depositAccount
  lamports := .number (.int 100000000)
  depositAddress := some (.key relayerAddress)
  feeClient := ⟨"https://v1.fermi.trade/prod", "00000000-0000-4000-8000-000000000000"⟩
  sourceChain := none
  adminToken := none
  additionalSigners := none

/-- What the caller gets, and the world, after a deposit whose report comes to nothing. -/
def lostDeposit (report : Except Rejection (Response ReportReply)) :
    Except Thrown ReportReply × World :=
  perform (depositFeeCredit systemTransfer (lostNetwork report) depositInput) World.before

/-- The relayer's fee service is disabled, the gateway limits the rate, or the network fails. -/
theorem deposit_signature_lost :
    ¬ Creditable (lostDeposit
      (.ok ⟨503, noLimits, .ok "fee service is disabled", .ok .null⟩)) ∧
    ¬ Creditable (lostDeposit (.ok ⟨429, noLimits, .ok "rate limit exceeded", .ok .null⟩)) ∧
    ¬ Creditable (lostDeposit (.error ⟨["fetch failed"]⟩)) := by
  refine ⟨fun h => ?_, fun h => ?_, fun h => ?_⟩
  · exact absurd (h paidSignature (by decide +kernel)) (by decide +kernel)
  · exact absurd (h paidSignature (by decide +kernel)) (by decide +kernel)
  · exact absurd (h paidSignature (by decide +kernel)) (by decide +kernel)

end FermiSdk.Fees
