import FermiSdk.Flp.Smoke
import Mathlib.Data.List.Infix

/-!
# The journal sends each transaction once, in lifecycle order

Whatever stops an invocation, the receipt file `Covers` what was sent: its records are a prefix of
the lifecycle, and every transaction that was sent has one. An invocation sends at most the next
action after the records that it has reconciled (`main_advance`), and only with its signed record in
the file (`Sent.Journaled`). `journal_lifecycle` is what follows for runs.

A record is written before its transaction is sent, so a transaction may have a record without
having been sent. If the chain claims to have confirmed one, the journal goes on to the next
(`unsent_deposit_skipped`); on an `Honest` chain, the transactions sent are a prefix of the
lifecycle.
-/

namespace FermiSdk.Smoke

open FermiSdk.Lib FermiSdk.Lib.Prog

/-- The actions that send a transaction, in their order. -/
def lifecycle : List SmokeAction := [.deposit, .requestWithdraw, .claim]

/-! ## Reconciliation -/

section

variable {answer : RpcAnswer} {answers : Nat → RpcAnswer} {record : SmokeRecord}
  {receipt : SmokeReceipt}

theorem reconcileRecord_action : (reconcileRecord answer record).action = record.action := by
  unfold reconcileRecord
  repeat' split
  all_goals rfl

theorem reconcileRecord_signature :
    (reconcileRecord answer record).signature = record.signature := by
  unfold reconcileRecord
  repeat' split
  all_goals rfl

/-- Only a record with a signature is settled by reconciliation. -/
theorem signed_of_settled (hrecord : record.settled = true → record.signature.isSome)
    (h : (reconcileRecord answer record).settled = true) :
    (reconcileRecord answer record).signature.isSome := by
  rw [reconcileRecord_signature]
  cases hsignature : record.signature with
  | some signature => rfl
  | none =>
    have hsame : reconcileRecord answer record = record := by
      rw [reconcileRecord, if_pos (by rw [hsignature]; rfl)]
    rw [hsame] at h
    rw [← hsignature]
    exact hrecord h

theorem reconcile_actions :
    (reconcile answers receipt).records.map (·.action) = receipt.records.map (·.action) := by
  apply List.ext_getElem
  · simp [reconcile]
  · intro i _ _
    simp [reconcile, reconcileRecord_action]

end

/-! ## The invariant -/

/-- The records of a receipt cover what was sent. -/
structure Covers (sent : List Sent) (records : List SmokeRecord) : Prop where
  actions : records.map (·.action) <+: lifecycle
  sent : (sent.map (·.action)).Sublist (records.map (·.action))
  signed : ∀ r ∈ records, r.settled = true → r.signature.isSome

/-- The records in the receipt file. -/
def World.records (w : World) : List SmokeRecord := (w.file.map (·.records)).getD []

namespace Covers

variable {sent : List Sent} {records : List SmokeRecord} {record : SmokeRecord}
  {receipt : SmokeReceipt}

theorem reconcile (h : Covers sent receipt.records) (answers : Nat → RpcAnswer) :
    Covers sent (reconcile answers receipt).records := by
  refine ⟨?actions, ?sent, ?signed⟩
  case actions =>
    rw [reconcile_actions]
    exact h.actions
  case sent =>
    rw [reconcile_actions]
    exact h.sent
  case signed =>
    intro r hr
    obtain ⟨i, hi, rfl⟩ := List.mem_mapIdx.1 hr
    exact signed_of_settled (h.signed _ (List.getElem_mem hi))

/-- A record of the next action may be added. -/
theorem push (h : Covers sent records)
    (hnext : records.map (·.action) ++ [record.action] <+: lifecycle)
    (hsettled : record.settled = false) : Covers sent (records ++ [record]) := by
  refine ⟨?actions, ?sent, ?signed⟩
  case actions =>
    rw [List.map_append]
    exact hnext
  case sent =>
    rw [List.map_append]
    exact h.sent.trans (List.sublist_append_left _ _)
  case signed =>
    intro r hr
    rcases List.mem_append.1 hr with hr | hr
    · exact h.signed r hr
    · rw [List.mem_singleton.1 hr, hsettled]
      nofun

/-- The transaction of a record that is added may be sent. -/
theorem push_sent {s : Sent} (h : Covers sent records)
    (hnext : records.map (·.action) ++ [record.action] <+: lifecycle)
    (hsettled : record.settled = false) (hs : s.action = record.action) :
    Covers (sent ++ [s]) (records ++ [record]) := by
  refine ⟨(h.push hnext hsettled).actions, ?_, (h.push hnext hsettled).signed⟩
  rw [List.map_append, List.map_append, List.map_singleton, List.map_singleton, hs]
  exact h.sent.append (List.Sublist.refl _)

end Covers

/-! ## The next action -/

section

variable {receipt : SmokeReceipt} {action : SmokeAction}

theorem assertNoReplay_eq_ok {u : Unit} :
    assertNoReplay receipt action = .ok u ↔
      (∀ r ∈ receipt.records, r.action ≠ action) ∧ ∀ r ∈ receipt.records, r.settled = true := by
  simp only [assertNoReplay, Throws.bind_eq_ok, Throws.throwIf_eq_ok, exists_const,
    List.any_eq_true, not_exists, not_and, decide_eq_true_eq, Bool.not_eq_true', Bool.not_eq_false,
    ne_eq]

theorem mem_of_confirmedEvent {name : String} {data : List (String × String)}
    (h : confirmedEvent receipt action name = .ok data) :
    action ∈ receipt.records.map (·.action) := by
  unfold confirmedEvent at h
  cases hfind : receipt.records.find? fun r => r.action = action && r.settled with
  | none => simp [hfind] at h
  | some record =>
    have hrecord := List.find?_some hfind
    rw [Bool.and_eq_true, decide_eq_true_eq] at hrecord
    rw [← hrecord.1]
    exact List.mem_map_of_mem (List.mem_of_find?_eq_some hfind)

/-- The prefixes of the lifecycle. -/
theorem prefix_lifecycle {actions : List SmokeAction} (h : actions <+: lifecycle) :
    actions = [] ∨ actions = [.deposit] ∨ actions = [.deposit, .requestWithdraw] ∨
      actions = lifecycle := by
  have := (List.mem_inits _ _).2 h
  simpa [lifecycle] using this

/-- What an action that may be built needs of the records. -/
theorem needs_of_buildSmokeAction {options : SmokeOptions} {current : SmokePreflight} {u : Unit}
    (h : buildSmokeAction options receipt current = .ok u) :
    (∀ r ∈ receipt.records, r.action ≠ options.action) ∧
      (∀ r ∈ receipt.records, r.settled = true) ∧
      (options.action = .requestWithdraw → .deposit ∈ receipt.records.map (·.action)) ∧
      (options.action = .claim → .requestWithdraw ∈ receipt.records.map (·.action)) := by
  simp only [buildSmokeAction, Throws.bind_eq_ok] at h
  obtain ⟨_, -, _, -, _, hreplay, hbuild⟩ := h
  obtain ⟨hnew, hsettled⟩ := assertNoReplay_eq_ok.1 hreplay
  refine ⟨hnew, hsettled, ?withdraw, ?claim⟩
  case withdraw =>
    intro haction
    rw [haction] at hbuild
    simp only [buildRequestWithdraw, Throws.bind_eq_ok] at hbuild
    obtain ⟨_, hdeposit, -⟩ := hbuild
    exact mem_of_confirmedEvent hdeposit
  case claim =>
    intro haction
    rw [haction] at hbuild
    simp only [buildClaim, Throws.bind_eq_ok] at hbuild
    obtain ⟨_, hrequest, -⟩ := hbuild
    exact mem_of_confirmedEvent hrequest

/-- An action that may be built is the next one after the records. -/
theorem next_of_buildSmokeAction {options : SmokeOptions} {current : SmokePreflight} {u : Unit}
    (h : buildSmokeAction options receipt current = .ok u)
    (hrecords : receipt.records.map (·.action) <+: lifecycle)
    (haction : options.action.readOnly = false) :
    receipt.records.map (·.action) ++ [options.action] <+: lifecycle := by
  obtain ⟨hnew, -, hwithdraw, hclaim⟩ := needs_of_buildSmokeAction h
  have hnotMem : options.action ∉ receipt.records.map (·.action) := by
    intro hmem
    obtain ⟨r, hr, heq⟩ := List.mem_map.1 hmem
    exact hnew r hr heq
  generalize receipt.records.map (·.action) = actions at *
  generalize options.action = action at *
  cases action with
  | preflight => nomatch haction
  | status => nomatch haction
  | deposit =>
    rcases prefix_lifecycle hrecords with rfl | rfl | rfl | rfl
    · decide
    all_goals exact absurd (by decide) hnotMem
  | requestWithdraw =>
    have hmem := hwithdraw rfl
    rcases prefix_lifecycle hrecords with rfl | rfl | rfl | rfl
    · nomatch hmem
    · decide
    all_goals exact absurd (by decide) hnotMem
  | claim =>
    have hmem := hclaim rfl
    rcases prefix_lifecycle hrecords with rfl | rfl | rfl | rfl
    · nomatch hmem
    · exact absurd hmem (by decide)
    · decide
    · exact absurd (by decide) hnotMem

end

/-! ## The effects -/

section

variable {P E : World → Prop} {receipt : SmokeReceipt}

theorem Triple.save {Q : Unit → World → Prop} {fate : SaveFate}
    (hnew : ∀ w, P w → Q () { w with file := some receipt } ∧ E { w with file := some receipt })
    (hold : ∀ w, P w → E w) : Triple P (Smoke.save fate receipt) Q E := by
  intro w hw
  unfold Smoke.save
  cases fate with
  | saved => exact (hnew w hw).1
  | stopped written =>
    cases written with
    | true => exact (hnew w hw).2
    | false => exact hold w hw

theorem Triple.send {Q : Option String → World → Prop} {fate : SendFate} {action : SmokeAction}
    {signature : String}
    (hsent : ∀ w returned, P w → Q returned { w with
      sent := w.sent ++ [{ action, signature, durable := w.file, reconciled := w.reconciled }] })
    (hstopped : ∀ w, P w → E w) : Triple P (Smoke.send fate action signature) Q E := by
  intro w hw
  unfold Smoke.send
  cases fate with
  | stopped => exact hstopped w hw
  | returned returned => exact hsent w (some returned) hw
  | threw => exact hsent w none hw

theorem Triple.reconcileReceipt {Q : SmokeReceipt → World → Prop}
    {answers : Option (Nat → RpcAnswer)}
    (hanswered : ∀ w given, answers = some given → P w → Q (reconcile given receipt)
      { w with reconciled := some (reconcile given receipt) })
    (hstopped : ∀ w, P w → E w) : Triple P (Smoke.reconcileReceipt answers receipt) Q E := by
  intro w hw
  unfold Smoke.reconcileReceipt
  cases answers with
  | none => exact hstopped w hw
  | some given => exact hanswered w given rfl hw

end

/-! ## One invocation -/

/-- What holds of a transaction when it is sent: the file has its record, with the signature, after
the records of the latest reconciliation, and these are confirmed or finalized. -/
structure Sent.Journaled (s : Sent) (receipt : SmokeReceipt) : Prop where
  reconciled : s.reconciled = some receipt
  durable : ∃ record, s.durable = some (receipt.push record) ∧ record.action = s.action ∧
    record.signature = some s.signature
  settled : ∀ r ∈ receipt.records, r.settled = true ∧ r.signature.isSome
  next : receipt.records.map (·.action) ++ [s.action] <+: lifecycle

/-- The records still cover what was sent, and at most one transaction was sent after `before`, which
satisfies `S`. -/
structure Advance (S : Sent → Prop) (before : List Sent) (w : World) : Prop where
  covers : Covers w.sent w.records
  sent : w.sent = before ∨ ∃ s, S s ∧ w.sent = before ++ [s]

/-- The invocation has not sent anything yet; the file has the receipt `durable`, and `receipt` is the
reconciled one. -/
structure At (before : List Sent) (receipt durable : SmokeReceipt) (w : World) : Prop where
  sent : w.sent = before
  reconciled : w.reconciled = some receipt
  file : w.file = some durable

section

variable {S : Sent → Prop} {w : World} {before : List Sent} {receipt durable : SmokeReceipt}
  {record : SmokeRecord} {operations : SmokeOperations}

theorem Advance.of_file (hfile : w.file = some durable) (hcovers : Covers w.sent durable.records)
    (hsent : w.sent = before ∨ ∃ s, S s ∧ w.sent = before ++ [s]) : Advance S before w := by
  refine ⟨?_, hsent⟩
  rw [World.records, hfile]
  exact hcovers

theorem At.advance (h : At before receipt durable w) (hcovers : Covers before durable.records) :
    Advance S before w := by
  apply Advance.of_file h.file
  · rw [h.sent]
    exact hcovers
  · exact .inl h.sent

theorem At.save (h : At before receipt durable w) (durable' : SmokeReceipt) :
    At before receipt durable' { w with file := some durable' } :=
  ⟨h.sent, h.reconciled, rfl⟩

/-- Saving a receipt before anything is sent. -/
theorem At.triple_save {fate : SaveFate} {durable' : SmokeReceipt}
    (hcovers : Covers before durable.records) (hcovers' : Covers before durable'.records) :
    Triple (At before receipt durable) (Smoke.save fate durable')
      (fun _ => At before receipt durable') (Advance S before) := by
  apply Triple.save
  · intro w hw
    exact ⟨hw.save durable', (hw.save durable').advance hcovers'⟩
  · intro w hw
    exact hw.advance hcovers

theorem Advance.save (h : Advance S before w) (hcovers : Covers w.sent durable.records) :
    Advance S before { w with file := some durable } := ⟨hcovers, h.sent⟩

/-- Sending the transaction whose signed record was saved. -/
theorem At.send {signature : String} (h : At before receipt (receipt.push record) w)
    (hcovers : Covers before receipt.records)
    (hsettled : ∀ r ∈ receipt.records, r.settled = true)
    (hnext : receipt.records.map (·.action) ++ [record.action] <+: lifecycle)
    (hrecord : record.settled = false) (hsignature : record.signature = some signature) :
    Advance (·.Journaled receipt) before { w with
      sent := w.sent ++ [⟨record.action, signature, w.file, w.reconciled⟩] } := by
  refine @Advance.of_file _ _ _ (receipt.push record) h.file ?covers ?sent
  case covers =>
    show Covers (w.sent ++ _) _
    rw [h.sent]
    exact hcovers.push_sent hnext hrecord rfl
  case sent =>
    refine .inr ⟨_, ⟨h.reconciled, ⟨record, h.file, rfl, hsignature⟩, ?_, hnext⟩, by rw [h.sent]⟩
    intro r hr
    exact ⟨hsettled r hr, hcovers.signed r hr (hsettled r hr)⟩

/-- **A submission is journaled before it is sent.** -/
theorem submit_advance (hcovers : Covers before receipt.records)
    (hsettled : ∀ r ∈ receipt.records, r.settled = true)
    (hnext : receipt.records.map (·.action) ++ [record.action] <+: lifecycle)
    (hrecord : record.settled = false) :
    Triple (At before receipt receipt) (submitSmokeOnce receipt record operations)
      (fun durable w => Advance (·.Journaled receipt) before w ∧ Covers w.sent durable.records)
      (Advance (·.Journaled receipt) before) := by
  have hprepared : Covers before (receipt.push record).records := hcovers.push hnext hrecord
  unfold submitSmokeOnce
  refine Triple.lift_bind ?_ fun _ hw => hw.advance hcovers
  intro _ _
  apply Triple.bind (Q := fun _ => At before receipt (receipt.push record))
  · exact At.triple_save hcovers hprepared
  intro _
  refine Triple.lift_bind ?_ fun _ hw => hw.advance hprepared
  intro signature _
  have hsigned : Covers before (receipt.push
      { record with signature := some signature, status := .signed }).records :=
    hcovers.push hnext rfl
  apply Triple.bind (Q := fun _ => At before receipt (receipt.push
    { record with signature := some signature, status := .signed }))
  · exact At.triple_save hprepared hsigned
  intro _
  -- From here on both the file and the receipt to be saved cover what was sent.
  generalize hunknown : receipt.push
    { record with signature := some signature, status := .unknown } = unknown
  apply Triple.bind (Q := fun _ w =>
    Advance (·.Journaled receipt) before w ∧ Covers w.sent unknown.records)
  · apply Triple.send
    · intro w _ hw
      refine ⟨hw.send hcovers hsettled hnext rfl rfl, ?_⟩
      show Covers (w.sent ++ _) _
      rw [← hunknown, hw.sent]
      exact hcovers.push_sent hnext rfl rfl
    · intro w hw
      exact hw.advance hsigned
  intro returned
  apply Triple.bind (Q := fun _ w =>
    Advance (·.Journaled receipt) before w ∧ Covers w.sent unknown.records)
  · apply Triple.save
    · intro w hw
      exact ⟨⟨hw.1.save hw.2, hw.2⟩, hw.1.save hw.2⟩
    · intro w hw
      exact hw.1
  intro _
  refine Triple.lift_bind ?_ fun _ hw => hw.1
  intro _ _
  exact Triple.pure fun _ hw => hw

theorem transact_advance {inv : Invocation} (hcovers : Covers before receipt.records)
    (hsettled : ∀ r ∈ receipt.records, r.settled = true)
    (hnext : receipt.records.map (·.action) ++ [inv.options.action] <+: lifecycle) :
    Triple (At before receipt receipt) (inv.transact receipt)
      (fun _ => Advance (·.Journaled receipt) before) (Advance (·.Journaled receipt) before) := by
  unfold Invocation.transact
  refine Triple.lift_bind ?_ fun _ hw => hw.advance hcovers
  intro _ _
  apply Triple.bind
  · exact submit_advance hcovers hsettled hnext rfl
  intro durable
  apply Triple.bind (Q := fun durable' w =>
    Advance (·.Journaled receipt) before w ∧ Covers w.sent durable'.records)
  · apply Triple.reconcileReceipt
    · intro w given _ hw
      exact ⟨⟨hw.1.covers, hw.1.sent⟩, hw.2.reconcile given⟩
    · intro w hw
      exact hw.1
  intro durable'
  apply Triple.save
  · intro w hw
    exact ⟨hw.1.save hw.2, hw.1.save hw.2⟩
  · intro w hw
    exact hw.1

theorem act_advance {inv : Invocation} {current : SmokePreflight}
    (hcovers : Covers before receipt.records) (haction : inv.options.action.readOnly = false) :
    Triple (At before receipt receipt) (inv.act receipt current)
      (fun _ => Advance (·.Journaled receipt) before) (Advance (·.Journaled receipt) before) := by
  have hstop : ∀ w, At before receipt receipt w → Advance (·.Journaled receipt) before w :=
    fun _ hw => hw.advance hcovers
  unfold Invocation.act
  refine Triple.lift_bind ?_ hstop
  intro _ hbuild
  refine Triple.lift_bind ?_ hstop
  intro _ _
  by_cases htransact : inv.options.transact = true
  · rw [if_pos htransact]
    exact transact_advance hcovers (needs_of_buildSmokeAction hbuild).2.1
      (next_of_buildSmokeAction hbuild hcovers.actions haction)
  · rw [if_neg htransact]
    exact Triple.pure hstop

end

/-- The transactions that an invocation may send. -/
def Invocation.Sends (inv : Invocation) (w : World) (s : Sent) : Prop :=
  ∃ answers, inv.answers = some answers ∧
    s.Journaled (reconcile answers (w.receipt inv.options.owner))

theorem World.receipt_records (w : World) (owner : String) :
    (w.receipt owner).records = w.records := by
  unfold World.receipt World.records
  cases w.file with
  | none => rfl
  | some receipt => rfl

theorem Advance.of_journaled {inv : Invocation} {answers : Nat → RpcAnswer} {w w' : World}
    (h : inv.answers = some answers)
    (hw : Advance (·.Journaled (reconcile answers (w.receipt inv.options.owner))) w.sent w') :
    Advance (inv.Sends w) w.sent w' := by
  refine ⟨hw.covers, ?_⟩
  rcases hw.sent with hsent | ⟨s, hs, hsent⟩
  · exact .inl hsent
  · exact .inr ⟨s, ⟨answers, h, hs⟩, hsent⟩

/-- An invocation after its reconciliation. -/
theorem reconciled_advance {inv : Invocation} {receipt : SmokeReceipt} {current : SmokePreflight}
    {w : World} (hcovers : Covers w.sent w.records) (hreceipt : Covers w.sent receipt.records) :
    Triple (fun w' => w' = { w with reconciled := some receipt })
      (do
        save inv.saveReconciled receipt
        if inv.options.action.readOnly then pure () else inv.act receipt current)
      (fun _ => Advance (·.Journaled receipt) w.sent)
      (Advance (·.Journaled receipt) w.sent) := by
  apply Triple.bind (Q := fun _ => At w.sent receipt receipt)
  · apply Triple.save
    · intro w' hw
      subst hw
      exact ⟨⟨rfl, rfl, rfl⟩, hreceipt, .inl rfl⟩
    · intro w' hw
      subst hw
      exact ⟨hcovers, .inl rfl⟩
  intro _
  by_cases haction : inv.options.action.readOnly = true
  · rw [if_pos haction]
    exact Triple.pure fun w' hw => hw.advance hreceipt
  · rw [if_neg haction]
    exact act_advance hreceipt (Bool.not_eq_true _ ▸ haction)

/-- **One invocation**, however it ends, sends at most one transaction, which is journaled. -/
theorem main_advance (inv : Invocation) (w : World) (hcovers : Covers w.sent w.records) :
    Advance (inv.Sends w) w.sent (main inv w).2 := by
  have hstop : ∀ w', w' = w → Advance (inv.Sends w) w.sent w' := by
    intro w' hw
    rw [hw]
    exact ⟨hcovers, .inl rfl⟩
  have htriple : Triple (fun w' => w' = w) (main inv)
      (fun _ => Advance (inv.Sends w) w.sent) (Advance (inv.Sends w) w.sent) := by
    unfold main
    refine Triple.lift_bind ?_ hstop
    intro _ _
    refine Triple.lift_bind ?_ hstop
    intro _ _
    refine Triple.lift_bind ?_ hstop
    intro _ _
    apply Triple.get_bind
    intro world hworld
    subst hworld
    refine Triple.lift_bind ?_ hstop
    intro _ _
    refine Triple.lift_bind ?_ hstop
    intro current _
    apply Triple.bind (Q := fun receipt w' => ∃ answers, inv.answers = some answers ∧
      receipt = reconcile answers (world.receipt inv.options.owner) ∧
      w' = { world with reconciled := some receipt })
    · apply Triple.reconcileReceipt
      · intro w' answers hanswers hw
        subst hw
        exact ⟨answers, hanswers, rfl, rfl⟩
      · exact hstop
    intro receipt w' ⟨answers, hanswers, hreceipt, hw'⟩
    have hreconciled : Covers world.sent receipt.records := by
      rw [hreceipt]
      apply Covers.reconcile
      rw [World.receipt_records]
      exact hcovers
    have hmono : ∀ w', Advance (·.Journaled receipt) world.sent w' →
        Advance (inv.Sends world) world.sent w' :=
      fun _ hw => Advance.of_journaled hanswers (hreceipt ▸ hw)
    exact (reconciled_advance hcovers hreconciled).mono (fun _ h => h) (fun _ => hmono) hmono w' hw'
  exact htriple.final rfl

/-! ## Runs -/

/-- The journal after any run. -/
structure JournalInv (w : World) : Prop where
  covers : Covers w.sent w.records
  journaled : ∀ s ∈ w.sent, ∃ receipt, s.Journaled receipt

theorem main_journal (inv : Invocation) (w : World) (h : JournalInv w) :
    JournalInv (main inv w).2 := by
  have hadvance := main_advance inv w h.covers
  refine ⟨hadvance.covers, ?_⟩
  rcases hadvance.sent with hsent | ⟨s, ⟨answers, -, hs⟩, hsent⟩
  · rw [hsent]
    exact h.journaled
  · rw [hsent]
    intro s' hs'
    rcases List.mem_append.1 hs' with hs' | hs'
    · exact h.journaled s' hs'
    · rw [List.mem_singleton.1 hs']
      exact ⟨_, hs⟩

theorem journal_start : JournalInv World.start := by
  refine ⟨⟨List.nil_prefix, List.Sublist.refl _, ?_⟩, ?_⟩
  · nofun
  · nofun

/-- At the reconciliation of an invocation, the chain has confirmed only what was sent. -/
def Honest (w : World) (inv : Invocation) : Prop :=
  ∀ answers, inv.answers = some answers →
    ∀ r ∈ (reconcile answers (w.receipt inv.options.owner)).records, r.settled = true →
      r.action ∈ w.sent.map (·.action)

/-- The journal after a run on an honest chain. -/
structure HonestInv (w : World) : Prop where
  covers : Covers w.sent w.records
  sent : w.sent.map (·.action) <+: lifecycle

/-- If all records are of sent transactions, these are all that was sent. -/
theorem Covers.eq_of_subset {sent : List Sent} {records : List SmokeRecord}
    (h : Covers sent records) (hsent : ∀ r ∈ records, r.action ∈ sent.map (·.action)) :
    sent.map (·.action) = records.map (·.action) := by
  apply h.sent.eq_of_length_le
  have hnodup : (records.map (·.action)).Nodup :=
    h.actions.sublist.nodup (by decide)
  apply (List.Nodup.subperm hnodup ?_).length_le
  intro action haction
  obtain ⟨r, hr, rfl⟩ := List.mem_map.1 haction
  exact hsent r hr

theorem main_honest (inv : Invocation) (w : World) (hhonest : Honest w inv) (h : HonestInv w) :
    HonestInv (main inv w).2 := by
  have hadvance := main_advance inv w h.covers
  refine ⟨hadvance.covers, ?_⟩
  rcases hadvance.sent with hsent | ⟨s, ⟨answers, hanswers, hs⟩, hsent⟩
  · rw [hsent]
    exact h.sent
  · have hcovers : Covers w.sent (reconcile answers (w.receipt inv.options.owner)).records := by
      apply Covers.reconcile
      rw [World.receipt_records]
      exact h.covers
    have heq := hcovers.eq_of_subset fun r hr =>
      hhonest answers hanswers r hr (hs.settled r hr).1
    rw [hsent, List.map_append, List.map_singleton, heq]
    exact hs.next

/-- **The journal sends each transaction at most once, in lifecycle order**, and each is journaled
when it is sent. If the chain confirms only what was sent, no transaction of the lifecycle is left
out before another. -/
theorem journal_lifecycle (invocations : List Invocation) :
    let w := runs main World.start invocations
    (w.sent.map (·.action)).Nodup ∧
    (w.sent.map (·.action)).Sublist (w.records.map (·.action)) ∧
    w.records.map (·.action) <+: lifecycle ∧
    (∀ s ∈ w.sent, ∃ receipt, s.Journaled receipt) ∧
    (Along Honest main World.start invocations → w.sent.map (·.action) <+: lifecycle) := by
  intro w
  have hjournal : JournalInv w := runs_induction main_journal journal_start invocations
  have hnodup : (w.records.map (·.action)).Nodup := hjournal.covers.actions.sublist.nodup (by decide)
  refine ⟨hjournal.covers.sent.nodup hnodup, hjournal.covers.sent, hjournal.covers.actions,
    hjournal.journaled, ?_⟩
  intro hrun
  have hhonest : HonestInv w :=
    hrun.induction main_honest ⟨journal_start.covers, List.nil_prefix⟩
  exact hhonest.sent

namespace SmokeRun

def owner : String := "11111111111111111111111111111111"

def options (action : SmokeAction) : SmokeOptions where
  action := action
  transact := true
  owner := owner
  amount := some "40"
  cap := some "40"
  minShares := some "1"
  maxFeeLamports := some "5000"
  acknowledgeRisk := true

def preflight (wd : SmokeTicket) : SmokePreflight where
  status := 0
  minDeposit := 1
  minWithdrawShares := 1
  depositor := some { depositApproved := true, dep := ⟨0, 0, 0⟩, wd }
  quoteBalance := 100
  shareBalance := 100
  epochRecord := some 1

/-- The chain's answer about a transaction with one event. -/
def confirmed (name : String) (data : List (String × String)) : RpcAnswer where
  status := some ⟨false, some .confirmed⟩
  transaction := some ⟨false, some [⟨name, ("vault", MAINNET_SMOKE_VAULT) :: ("user", owner) :: data⟩]⟩

/-- Confirms the first transaction as a deposit and the second as a withdrawal request. -/
def answers : Nat → RpcAnswer
  | 0 => confirmed "FlpPermissionedDeposit" [("shares", "40")]
  | _ => confirmed "FlpWithdrawRequested" [("epoch", "7"), ("requestId", "3"), ("shares", "40")]

def invocation (action : SmokeAction) (wd : SmokeTicket) (send : SendFate) : Invocation where
  options := options action
  flags := true
  preflight := some (preflight wd)
  answers := some answers
  saveReconciled := .saved
  simulated := true
  authorised := true
  operations := {
    persistPrepared := .saved
    sign := some "5VERY"
    persistSigned := .saved
    send := send
    persistSent := .saved }
  laterAnswers := none
  saveSent := .saved

/-- A deposit that stops after signing, and a withdrawal request. -/
def unsentDeposit : List Invocation :=
  [invocation .deposit ⟨0, 0, 0⟩ .stopped,
    invocation .requestWithdraw ⟨0, 0, 0⟩ (.returned "5VERY")]

/-- The whole lifecycle; the submission of the withdrawal request throws. -/
def whole : List Invocation :=
  [invocation .deposit ⟨0, 0, 0⟩ (.returned "5VERY"),
    invocation .requestWithdraw ⟨0, 0, 0⟩ .threw,
    invocation .claim ⟨40, 7, 3⟩ (.returned "5VERY")]

end SmokeRun

set_option maxRecDepth 8000 in
/-- If the chain claims to have confirmed a deposit that was signed and never sent, the withdrawal
request is sent first. -/
theorem unsent_deposit_skipped :
    (runs main World.start SmokeRun.unsentDeposit).sent.map (·.action) = [.requestWithdraw] ∧
    ¬ (runs main World.start SmokeRun.unsentDeposit).sent.map (·.action) <+: lifecycle := by
  decide

set_option maxRecDepth 8000 in
theorem journal_lifecycle_whole :
    (runs main World.start SmokeRun.whole).sent.map (·.action) <+: lifecycle ∧
    (runs main World.start SmokeRun.whole).sent.map (·.action) = lifecycle := by
  refine ⟨(journal_lifecycle SmokeRun.whole).2.2.2.2 ⟨?_, ?_, ?_, trivial⟩, by decide⟩
  all_goals
    intro answers hanswers
    obtain rfl := Option.some.inj hanswers
    decide

end FermiSdk.Smoke
