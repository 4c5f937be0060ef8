import FermiSdk.Flp.Verify.UserFlows

/-!
# Who gets in can get out

The phase of a version 3 vault decides which instruction a deposit and a withdrawal is.
`entryAction` and `exitAction` say it by the flags, and the builders do exactly that
(`entry_has_exit`): a vault that takes deposits also lets withdraw, unless withdrawals are paused
after graduation. Public principal is refunded in every phase before it.
-/

namespace FermiSdk

open FermiSdk.Lib

/-! ## Flags -/

theorem hasFlag_or (status a b : UInt8) :
    hasFlag status (a ||| b) = (hasFlag status a || hasFlag status b) := by
  have hdistrib : status &&& (a ||| b) = status &&& a ||| status &&& b := by
    rw [← UInt8.toBitVec_inj]
    simp only [UInt8.toBitVec_and, UInt8.toBitVec_or, BitVec.and_or_distrib_left]
  have h : status &&& (a ||| b) = 0 ↔ status &&& a = 0 ∧ status &&& b = 0 := by
    rw [hdistrib, UInt8.or_eq_zero_iff]
  by_cases ha : status &&& a = 0 <;> by_cases hb : status &&& b = 0 <;> simp [hasFlag, h, ha, hb]

/-- The phase by the flags: closing prevails over the time before graduation, and that over a
recovery. -/
theorem vaultMode_eq (status : UInt8) : vaultMode status =
    if hasFlag status STATUS_CLOSED then .closed
    else if hasFlag status STATUS_PRE_DEPOSIT then .preDeposit
    else if hasFlag status STATUS_UNWIND then .unwind
    else .live := by
  simp [vaultMode, hasFlag]

/-- The flags of a vault that takes deposits of the public. -/
structure DepositsOpen (status : UInt8) : Prop where
  notPaused : hasFlag status STATUS_DEPOSITS_PAUSED = false
  notPublicPaused : hasFlag status STATUS_PUBLIC_DEPOSITS_PAUSED = false
  noBreaker : hasFlag status STATUS_BREAKER = false
  noUnwind : hasFlag status STATUS_UNWIND = false
  notClosed : hasFlag status STATUS_CLOSED = false

/-- What a deposit is. -/
def entryAction (status : UInt8) (amount : Int) : UserAction :=
  if hasFlag status STATUS_PRE_DEPOSIT then .preDeposit amount else .requestDeposit amount

/-- What a withdrawal is, if there is one. -/
def exitAction (status : UInt8) (amount : Int) : Option UserAction :=
  if hasFlag status STATUS_PRE_DEPOSIT then some (.preWithdraw amount)
  else if hasFlag status STATUS_CLOSED then some (.terminalRedeem amount)
  else if hasFlag status STATUS_WITHDRAWALS_PAUSED || hasFlag status STATUS_UNWIND then none
  else some (.requestWithdraw amount)

section

variable {rt : Runtime} {spl : SplToken} {client : FlpClient} {vault : PublicKey}
  {state : VaultState} {user : PublicKey} {addresses : UserAddresses} {amount : Int}
  {ix : TransactionInstruction} {ixs : List TransactionInstruction}

theorem depositsOpen_iff : DepositsOpen state.status ↔
    ¬ (hasFlag state.status (STATUS_DEPOSITS_PAUSED ||| STATUS_PUBLIC_DEPOSITS_PAUSED |||
      STATUS_BREAKER ||| STATUS_UNWIND) ∨ vaultMode state.status = .unwind ∨
        vaultMode state.status = .closed) := by
  rw [hasFlag_or, hasFlag_or, hasFlag_or, vaultMode_eq]
  constructor
  · intro h
    rw [h.notPaused, h.notPublicPaused, h.noBreaker, h.noUnwind, h.notClosed]
    cases hasFlag state.status STATUS_PRE_DEPOSIT <;> simp
  · intro h
    simp only [Bool.or_eq_true, not_or, Bool.not_eq_true] at h
    obtain ⟨⟨⟨⟨hpaused, hpublic⟩, hbreaker⟩, hunwind⟩, -, hclosed⟩ := h
    refine ⟨hpaused, hpublic, hbreaker, hunwind, ?_⟩
    cases h : hasFlag state.status STATUS_CLOSED with
    | false => rfl
    | true => exact absurd (if_pos h) hclosed

theorem vaultMode_of_depositsOpen (h : DepositsOpen state.status) : vaultMode state.status =
    if hasFlag state.status STATUS_PRE_DEPOSIT then .preDeposit else .live := by
  rw [vaultMode_eq, h.notClosed, h.noUnwind]
  rfl

/-- An action that is built in this phase. -/
theorem action_eq_ok (action : UserAction)
    (hcoder : client.coder.Lawful rt FLP_METHODS)
    (haddresses : addresses.Derived rt spl client.programId vault state user)
    (hphase : action.InPhase state.status) :
    action.instructionV3 rt spl client vault state user = .ok ix ↔
      action.core rt client.programId vault (addresses.accounts vault state user) = .ok ix :=
  (UserAction.instructionV3_eq_ok hcoder haddresses).trans (and_iff_right hphase)

/-- A deposit is built while deposits are open. -/
theorem depositInstructions_eq_ok
    (hcoder : client.coder.Lawful rt FLP_METHODS)
    (haddresses : addresses.Derived rt spl client.programId vault state user) :
    client.depositInstructions rt spl vault state user amount = .ok ixs ↔
      DepositsOpen state.status ∧ ∃ core, (entryAction state.status amount).core rt client.programId
        vault (addresses.accounts vault state user) = .ok core ∧ ixs = [core] := by
  rw [FlpClient.depositInstructions, Throws.bind_eq_ok]
  simp only [Throws.throwIf_eq_ok, exists_const, ← depositsOpen_iff]
  refine and_congr_right fun hopen => ?_
  have hmode := vaultMode_of_depositsOpen hopen
  cases hphase : hasFlag state.status STATUS_PRE_DEPOSIT with
  | true =>
    rw [hphase, if_pos rfl] at hmode
    rw [if_pos hmode, entryAction, if_pos hphase]
    simp only [Throws.bind_eq_ok, Throws.pure_eq_ok, @eq_comm _ _ ixs]
    refine exists_congr fun core => and_congr_left fun _ => ?_
    exact action_eq_ok (.preDeposit amount) hcoder haddresses trivial
  | false =>
    rw [hphase, if_neg Bool.false_ne_true] at hmode
    have hnot : ¬ vaultMode state.status = .preDeposit := by
      rw [hmode]
      intro h
      cases h
    rw [if_neg hnot, entryAction, if_neg (by rw [hphase]; exact Bool.false_ne_true)]
    simp only [Throws.bind_eq_ok, Throws.pure_eq_ok, @eq_comm _ _ ixs]
    refine exists_congr fun core => and_congr_left fun _ => ?_
    exact action_eq_ok (.requestDeposit amount) hcoder haddresses hmode

/-- A withdrawal is built exactly if the phase has one. -/
theorem withdrawalInstruction_eq_ok
    (hcoder : client.coder.Lawful rt FLP_METHODS)
    (haddresses : addresses.Derived rt spl client.programId vault state user) :
    client.withdrawalInstruction rt spl vault state user amount = .ok ix ↔
      ∃ action, exitAction state.status amount = some action ∧
        action.core rt client.programId vault (addresses.accounts vault state user) = .ok ix := by
  unfold FlpClient.withdrawalInstruction exitAction
  cases hphase : hasFlag state.status STATUS_PRE_DEPOSIT with
  | true =>
    simp only [if_true, Option.some_inj, exists_eq_left']
    exact action_eq_ok (.preWithdraw amount) hcoder haddresses trivial
  | false =>
    simp only [Bool.false_eq_true, if_false]
    unfold FlpClient.tradingWithdrawalInstruction
    cases hclosed : hasFlag state.status STATUS_CLOSED with
    | true =>
      simp only [if_true, Option.some_inj, exists_eq_left']
      exact action_eq_ok (.terminalRedeem amount) hcoder haddresses trivial
    | false =>
      simp only [Bool.false_eq_true, if_false, Throws.bind_eq_ok, Throws.throwIf_eq_ok,
        exists_const, Bool.not_eq_true]
      cases hpaused : hasFlag state.status STATUS_WITHDRAWALS_PAUSED with
      | true => simp
      | false =>
        simp only [true_and, Bool.false_or]
        cases hunwind : hasFlag state.status STATUS_UNWIND with
        | true =>
          constructor
          · intro h
            have hphase := ((@UserAction.instructionV3_eq_ok rt spl client vault state user
              addresses (.requestWithdraw amount) ix hcoder haddresses).1 h).1
            exact absurd (hunwind.symm.trans hphase) (by decide)
          · rintro ⟨action, h, -⟩
            cases h
        | false =>
          simp only [Bool.false_eq_true, if_false, Option.some_inj, exists_eq_left']
          exact action_eq_ok (.requestWithdraw amount) hcoder haddresses hunwind

/-- A withdrawal of any amount that fits is built, if the phase has withdrawals. -/
theorem exists_withdrawal
    (hcoder : client.coder.Lawful rt FLP_METHODS)
    (haddresses : addresses.Derived rt spl client.programId vault state user)
    (hexit : (exitAction state.status amount).isSome) (hrange : 0 ≤ amount ∧ amount < 256 ^ 8) :
    ∃ ix, client.withdrawalInstruction rt spl vault state user amount = .ok ix := by
  obtain ⟨action, haction⟩ := Option.isSome_iff_exists.1 hexit
  have hvalid : action.Valid rt client.programId vault := by
    unfold exitAction at haction
    split_ifs at haction <;> cases haction <;>
      exact ⟨fun n hn => Option.some.inj hn ▸ hrange, fun e he => (nomatch he)⟩
  obtain ⟨ix, hix⟩ := UserAction.exists_core_iff.2 hvalid
  exact ⟨ix, (withdrawalInstruction_eq_ok hcoder haddresses).2 ⟨action, haction, hix⟩⟩

/-- **Who gets in can get out.** -/
theorem entry_has_exit (hcoder : client.coder.Lawful rt FLP_METHODS)
    (haddresses : addresses.Derived rt spl client.programId vault state user) :
    (∀ amount ixs, client.depositInstructions rt spl vault state user amount = .ok ixs ↔
      DepositsOpen state.status ∧ ∃ core, (entryAction state.status amount).core rt
        client.programId vault (addresses.accounts vault state user) = .ok core ∧ ixs = [core]) ∧
    (∀ amount ix, client.withdrawalInstruction rt spl vault state user amount = .ok ix ↔
      ∃ action, exitAction state.status amount = some action ∧ action.core rt client.programId
        vault (addresses.accounts vault state user) = .ok ix) ∧
    (∀ amount, hasFlag state.status STATUS_PRE_DEPOSIT = true → 0 ≤ amount ∧ amount < 256 ^ 8 →
      ∃ ix, client.withdrawalInstruction rt spl vault state user amount = .ok ix ∧
        client.publicRefundInstruction rt spl vault state user amount = .ok ix) ∧
    ∀ deposited ixs, client.depositInstructions rt spl vault state user deposited = .ok ixs →
      hasFlag state.status STATUS_WITHDRAWALS_PAUSED = false →
      ∀ amount, 0 ≤ amount ∧ amount < 256 ^ 8 →
        ∃ ix, client.withdrawalInstruction rt spl vault state user amount = .ok ix := by
  refine ⟨fun _ _ => depositInstructions_eq_ok hcoder haddresses,
    fun _ _ => withdrawalInstruction_eq_ok hcoder haddresses, ?_, ?_⟩
  · intro amount hphase hrange
    have hexit : (exitAction state.status amount).isSome := by
      rw [exitAction, if_pos hphase]
      rfl
    obtain ⟨ix, hix⟩ := exists_withdrawal hcoder haddresses hexit hrange
    refine ⟨ix, hix, ?_⟩
    unfold FlpClient.publicRefundInstruction
    rw [FlpClient.withdrawalInstruction, if_pos hphase] at hix
    rw [hphase, Throws.throwIf_of_not (by decide)]
    exact hix
  · intro deposited ixs hdeposit hpaused amount hrange
    obtain ⟨hopen, -⟩ := (depositInstructions_eq_ok hcoder haddresses).1 hdeposit
    refine exists_withdrawal hcoder haddresses ?_ hrange
    unfold exitAction
    rw [hopen.notClosed, hpaused, hopen.noUnwind]
    cases hasFlag state.status STATUS_PRE_DEPOSIT <;> rfl

end

open RecordedExtension RecordedFlow in
theorem entry_has_exit_recorded : ∃ ix,
    client.shared.withdrawalInstruction runtime (.ofRuntime runtime) vault
      { state with status := 10 } user 1000000 = .ok ix ∧
    client.shared.publicRefundInstruction runtime (.ofRuntime runtime) vault
      { state with status := 10 } user 1000000 = .ok ix := by
  have haddresses : addresses.Derived runtime (.ofRuntime runtime) client.shared.programId vault
      { state with status := 10 } user := ⟨rfl, rfl, rfl, rfl⟩
  obtain ⟨-, -, hrefund, -⟩ := @entry_has_exit runtime (.ofRuntime runtime) client.shared vault
    { state with status := 10 } user addresses (BorshCoder.documented_lawful _ _) haddresses
  exact hrefund 1000000 (by decide) (by decide)

end FermiSdk
