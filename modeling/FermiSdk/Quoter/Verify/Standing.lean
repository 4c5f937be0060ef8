import FermiSdk.Intents.Verify.Payload
import FermiSdk.Quoter
import FermiSdk.Trading.Verify.Wire

/-!
# When the quoter keeps to one standing quote

An order stands from its acceptance until a cancel for its id is sent (`standing`). The bot remembers
an id only when the reply to the order arrives, and reads it when a tick turns to cancelling. So an
accepted order is forgotten if its reply is lost, and overlooked by a tick that reads the last id
while another tick is replacing it. In a run without either (`careful`) at most one tick at a time is
between its reading and its end, and the orders that stand are known from what that tick waits for
(`Expects`), or are the last one (`at_most_one_standing`). A lost reply leaves two
(`lost_reply_leaves_two`).
-/

namespace FermiSdk.Quoter

open FermiSdk.Lib FermiSdk.Intents

/-! ## Standing orders -/

/-- The client order id that a request places. -/
def placedId (request : SubmitIntentRequest) : Option Int :=
  match decodeQueuePayload request.payload with
  | some (.placeOrder order) => some order.clientOrderId
  | _ => none

/-- The client order id that a request cancels. -/
def cancelledId (request : SubmitIntentRequest) : Option Int :=
  match decodeQueuePayload request.payload with
  | some (.cancelByClientOrderId id) => some id
  | _ => none

/-- The ids that stand after one more occurrence. -/
def afterOccurrence (ids : List Int) : Occurrence → List Int
  | .accepted request => ids ++ (placedId request).toList
  | .sent request => ids.filter fun id => cancelledId request ≠ some id

/-- The ids accepted by the relayer for which no cancel was sent afterwards. -/
def standing (log : List Occurrence) : List Int := log.foldl afterOccurrence []

@[simp] theorem standing_concat (log : List Occurrence) (occurrence : Occurrence) :
    standing (log ++ [occurrence]) = afterOccurrence (standing log) occurrence := by
  rw [standing, List.foldl_append]
  rfl

section

variable {rt : Runtime} {config : RelayerPerpQuoterBotConfig} {context : FermiV1Context}
  {quotePrice : JsNumber} {id : Int} {random : UInt64} {request : SubmitIntentRequest}

theorem submitIntent_eq_ok {r : SubmitIntentRequest} (h : submitIntent r = .ok request) :
    request = r := by
  simp only [submitIntent, Throws.bind_eq_ok, Throws.pure_eq_ok] at h
  obtain ⟨_, -, rfl⟩ := h
  rfl

theorem payload_relayIntent {auth : Trading.PerpIntentAuthParams} {baseFee maxFee : Option String}
    (h : Trading.relayIntent rt auth baseFee maxFee = .ok request) :
    request.payload = auth.payload := by
  simp only [Trading.relayIntent, Throws.bind_eq_ok, Throws.pure_eq_ok] at h
  obtain ⟨_, -, _, -, rfl⟩ := h
  rfl

/-- A cancel cancels the id it was built for. -/
theorem cancelledId_cancelRequest (h : cancelRequest rt config context id random = .ok request) :
    cancelledId request = some id := by
  simp only [cancelRequest, Trading.cancelPerpOrderByClientIdViaRelayer, Throws.bind_eq_ok,
    encodeCancelByClientOrderId_eq_ok] at h
  obtain ⟨r, ⟨_, -, _, ⟨n, hn, hv, rfl⟩, hr⟩, hsubmit⟩ := h
  obtain rfl := submitIntent_eq_ok hsubmit
  obtain rfl := JsNumber.int.inj (toBigInt_number_eq_ok.1 hn).1
  rw [cancelledId, payload_relayIntent hr]
  simp only [decode_cancelByClientOrderId hv]

/-- An order places the id it was built for, and cancels nothing. -/
theorem placedId_orderRequest
    (h : orderRequest rt config context quotePrice id random = .ok request) :
    placedId request = some id ∧ cancelledId request = none := by
  simp only [orderRequest, Trading.submitPerpOrderViaRelayer, Trading.placeOrderPayload,
    Throws.bind_eq_ok, encodePlaceOrder_eq_ok] at h
  obtain ⟨r, ⟨_, -, _, ⟨_, -, _, -, _, -, _, -, o, ho, hv, rfl⟩, hr⟩, hsubmit⟩ := h
  obtain rfl := submitIntent_eq_ok hsubmit
  have hid : o.clientOrderId = id :=
    (JsNumber.int.inj (toBigInt_number_eq_ok.1 ho.clientOrderId).1).symm
  rw [placedId, cancelledId, payload_relayIntent hr]
  simp only [decode_placeOrder hv, hid, and_self]

end

/-! ## Careful steps -/

/-- The tick has read the last id, and has not ended. -/
def Phase.critical : Phase → Bool
  | .preparingCancel _ _ => true
  | .cancelling _ => true
  | .preparingOrder _ _ => true
  | .submitting _ _ => true
  | _ => false

/-- No other tick is between its reading of the last id and its end. -/
def aloneAt (ticks : List Tick) (i : Nat) : Bool :=
  (ticks.eraseIdx i).all fun tick => !tick.phase.critical

/-- A step that does not lose an order: no tick reads the last id while another one is between its
reading and its end, and no order has both its acceptance and an error. -/
def careful (config : RelayerPerpQuoterBotConfig) (s : QuoterState) : QuoterEvent → Bool
  | .priced i _ _ => config.harness || aloneAt s.ticks i
  | .stateRead i _ => aloneAt s.ticks i
  | .failed i =>
    match s.ticks[i]? with
    | some ⟨_, .submitting _ k⟩ => !(s.orders[k]?.any (·.accepted))
    | _ => true
  | .accepted k => !(s.orders[k]?.any (·.failed))
  | _ => true

/-- No tick but the one with a number is critical. -/
def OnlyAt (ticks : List Tick) (i : Nat) : Prop :=
  ∀ j tick, ticks[j]? = some tick → j ≠ i → tick.phase.critical = false

theorem aloneAt_iff {ticks : List Tick} {i : Nat} : aloneAt ticks i = true ↔ OnlyAt ticks i := by
  simp only [aloneAt, List.all_eq_true, List.mem_eraseIdx_iff_getElem?, Bool.not_eq_true']
  constructor
  · intro h j tick hj hne
    exact h tick ⟨j, hne, hj⟩
  · rintro h tick ⟨j, hne, hj⟩
    exact h j tick hj hne

/-- What a careful step does. -/
inductive CarefulStep (s : QuoterState) : QuoterState → Prop where
  /-- The loops only. -/
  | control (running : Bool) (sleeping : Nat) : CarefulStep s { s with running, sleeping }
  | start (running : Bool) (sleeping : Nat) (looped : Bool) :
    CarefulStep s { s with running, sleeping, ticks := s.ticks ++ [⟨looped, .pricing⟩] }
  /-- A tick goes on, or ends, before it has read the last id. -/
  | early {i : Nat} {tick tick' : Tick} (sleeping : Nat) (h : s.ticks[i]? = some tick)
    (hphase : tick.phase.critical = false) (hphase' : tick'.phase.critical = false) :
    CarefulStep s { s with ticks := s.ticks.set i tick', sleeping }
  /-- A tick reads the last id. -/
  | read {i : Nat} {tick : Tick} {id : Int} (looped : Bool) (quotePrice : JsNumber)
    (h : s.ticks[i]? = some tick) (hphase : tick.phase.critical = false) (halone : OnlyAt s.ticks i)
    (hlast : s.lastClientOrderId = some id) :
    CarefulStep s { s with ticks := s.ticks.set i ⟨looped, .preparingCancel quotePrice id⟩ }
  /-- A tick finds that there is no last id. -/
  | readNone {i : Nat} {tick : Tick} (looped : Bool) (quotePrice : JsNumber) (now : Int)
    (h : s.ticks[i]? = some tick) (hphase : tick.phase.critical = false) (halone : OnlyAt s.ticks i)
    (hlast : s.lastClientOrderId = none) :
    CarefulStep s { s with
      ticks := s.ticks.set i ⟨looped, .preparingOrder quotePrice now⟩, clock := now }
  | cancelSent {i : Nat} {looped : Bool} {quotePrice : JsNumber} {id : Int}
    {request : SubmitIntentRequest} (h : s.ticks[i]? = some ⟨looped, .preparingCancel quotePrice id⟩)
    (hrequest : cancelledId request = some id) :
    CarefulStep s { s with
      ticks := s.ticks.set i ⟨looped, .cancelling quotePrice⟩, log := s.log ++ [.sent request] }
  | cancelReplied {i : Nat} {looped : Bool} {quotePrice : JsNumber} (now : Int)
    (h : s.ticks[i]? = some ⟨looped, .cancelling quotePrice⟩) :
    CarefulStep s { s with
      ticks := s.ticks.set i ⟨looped, .preparingOrder quotePrice now⟩, clock := now }
  | orderSent {i : Nat} {looped : Bool} {quotePrice : JsNumber} {id : Int}
    {request : SubmitIntentRequest} (h : s.ticks[i]? = some ⟨looped, .preparingOrder quotePrice id⟩)
    (hrequest : placedId request = some id ∧ cancelledId request = none) :
    CarefulStep s { s with
      ticks := s.ticks.set i ⟨looped, .submitting id s.orders.length⟩
      orders := s.orders ++ [⟨request, false, false⟩]
      log := s.log ++ [.sent request] }
  /-- A tick ends with an error before its order was sent. -/
  | stopped {i : Nat} {tick : Tick} (looped : Bool) (sleeping : Nat) (h : s.ticks[i]? = some tick)
    (hphase : tick.phase.critical = true) (hsent : ∀ id k, tick.phase ≠ .submitting id k) :
    CarefulStep s { s with ticks := s.ticks.set i ⟨looped, .ended⟩, sleeping }
  | replied {i : Nat} {looped : Bool} {id : Int} {k : Nat} (sleeping : Nat)
    (h : s.ticks[i]? = some ⟨looped, .submitting id k⟩)
    (haccepted : s.orders[k]?.any (·.accepted) = true) :
    CarefulStep s { s with
      ticks := s.ticks.set i ⟨looped, .ended⟩, sleeping, lastClientOrderId := some id }
  /-- An order that was not accepted has failed. -/
  | rejected {i : Nat} {looped : Bool} {id : Int} {k : Nat} (sleeping : Nat)
    (h : s.ticks[i]? = some ⟨looped, .submitting id k⟩)
    (haccepted : s.orders[k]?.any (·.accepted) = false) :
    CarefulStep s { s with
      ticks := s.ticks.set i ⟨looped, .ended⟩, sleeping
      orders := s.orders.modify k fun order => { order with failed := true } }
  /-- An order that has not failed is accepted. -/
  | accepted {k : Nat} {order : Order} (h : s.orders[k]? = some order)
    (haccepted : order.accepted = false) (hfailed : order.failed = false) :
    CarefulStep s { s with
      orders := s.orders.modify k fun order => { order with accepted := true }
      log := s.log ++ [.accepted order.request] }

section

variable {rt : Runtime} {config : RelayerPerpQuoterBotConfig} {s s' : QuoterState}

theorem CarefulStep.of_takeId {i : Nat} {looped : Bool} {quotePrice : JsNumber} {now : Int}
    (h : s.takeId i looped quotePrice now = some s') :
    s' = { s with
      ticks := s.ticks.set i ⟨looped, .preparingOrder quotePrice now⟩, clock := now } := by
  rw [QuoterState.takeId] at h
  split at h
  · exact (Option.some.inj h).symm
  · cases h

theorem CarefulStep.of_quote {i : Nat} {looped : Bool} {quotePrice : JsNumber} {now : Int}
    {tick : Tick} (htick : s.ticks[i]? = some tick) (hphase : tick.phase.critical = false)
    (halone : aloneAt s.ticks i = true) (h : s.quote i looped quotePrice now = some s') :
    CarefulStep s s' := by
  rw [QuoterState.quote] at h
  cases hlast : s.lastClientOrderId with
  | some id =>
    simp only [hlast, Option.some.injEq] at h
    exact h ▸ .read looped quotePrice htick hphase (aloneAt_iff.1 halone) hlast
  | none =>
    simp only [hlast] at h
    rw [CarefulStep.of_takeId h]
    exact .readNone looped quotePrice now htick hphase (aloneAt_iff.1 halone) hlast

/-- A careful step, case by case. -/
theorem careful_step {event : QuoterEvent} (hcareful : careful config s event = true)
    (h : step rt config s event = some s') : CarefulStep s s' := by
  cases event with
  | run =>
    simp only [step] at h
    split at h
    · cases h
      exact .control _ _
    · cases h
      exact .start _ _ _
  | stop =>
    cases h
    exact .control _ _
  | tick =>
    cases h
    exact .start _ _ _
  | wake =>
    simp only [step] at h
    split at h
    · cases h
    · split at h
      · cases h
        exact .start _ _ _
      · cases h
        exact .control _ _
  | priced i fairPrice now =>
    simp only [step] at h
    split at h
    · rename_i looped htick
      split at h
      · cases h
        exact .early _ htick rfl rfl
      · rename_i hharness
        simp only [careful, hharness, Bool.false_or] at hcareful
        exact .of_quote htick rfl hcareful h
    · cases h
  | stateRead i now =>
    simp only [step] at h
    split at h
    · rename_i looped quotePrice htick
      exact .of_quote htick rfl hcareful h
    · cases h
  | prepared i context random =>
    simp only [step] at h
    split at h
    · rename_i looped quotePrice id htick
      split at h
      · cases h
        exact .stopped looped _ htick rfl (by simp)
      · rename_i request hrequest
        cases h
        exact .cancelSent htick (cancelledId_cancelRequest hrequest)
    · rename_i looped quotePrice id htick
      split at h
      · cases h
        exact .stopped looped _ htick rfl (by simp)
      · rename_i request hrequest
        cases h
        exact .orderSent htick (placedId_orderRequest hrequest)
    · cases h
  | cancelReplied i now =>
    simp only [step] at h
    split at h
    · rename_i looped quotePrice htick
      rw [CarefulStep.of_takeId h]
      exact .cancelReplied now htick
    · cases h
  | orderReplied i =>
    simp only [step] at h
    split at h
    · rename_i looped id k htick
      split at h
      · rename_i haccepted
        cases h
        exact .replied _ htick haccepted
      · cases h
    · cases h
  | failed i =>
    simp only [step] at h
    split at h
    · rename_i looped htick
      cases h
      exact .early _ htick rfl rfl
    · rename_i looped quotePrice htick
      cases h
      exact .early _ htick rfl rfl
    · rename_i looped quotePrice htick
      cases h
      exact .stopped looped _ htick rfl (by simp)
    · rename_i looped id k htick
      cases h
      simp only [careful, htick, Bool.not_eq_true'] at hcareful
      exact .rejected _ htick hcareful
    · cases h
  | accepted k =>
    simp only [step] at h
    split at h
    · rename_i order horder
      split at h
      · cases h
      · rename_i haccepted
        cases h
        simp only [careful, horder, Option.any_some, Bool.not_eq_true'] at hcareful
        exact .accepted horder (by simpa using haccepted) hcareful
    · cases h

end

/-! ## The invariant -/

/-- The orders that stand while a tick waits for something after it has read the last id. -/
def Expects (s : QuoterState) : Phase → Prop
  | .preparingCancel _ id => s.lastClientOrderId = some id ∧ ∀ x ∈ standing s.log, x = id
  | .cancelling _ => standing s.log = []
  | .preparingOrder _ _ => standing s.log = []
  | .submitting id k => ∃ order, s.orders[k]? = some order ∧ order.failed = false ∧
      placedId order.request = some id ∧ standing s.log = if order.accepted then [id] else []
  | _ => False

/-- No tick is critical: what stands is the last order. -/
structure Idle (s : QuoterState) : Prop where
  clear : ∀ tick ∈ s.ticks, tick.phase.critical = false
  last : ∀ id ∈ standing s.log, s.lastClientOrderId = some id
  settled : ∀ order ∈ s.orders, order.accepted = true ∨ order.failed = true

/-- One tick is critical: what stands is what it expects. -/
structure Busy (s : QuoterState) (i : Nat) (tick : Tick) : Prop where
  found : s.ticks[i]? = some tick
  expects : Expects s tick.phase
  alone : OnlyAt s.ticks i
  settled : ∀ k order, s.orders[k]? = some order →
    order.accepted = true ∨ order.failed = true ∨ ∃ id, tick.phase = .submitting id k

def Inv (s : QuoterState) : Prop := Idle s ∨ ∃ i tick, Busy s i tick

theorem Expects.critical {s : QuoterState} {phase : Phase} (h : Expects s phase) :
    phase.critical = true := by
  cases phase <;> first | rfl | exact h.elim

section

variable {s s' : QuoterState} {i j : Nat} {tick tick' : Tick}

theorem OnlyAt.set {ticks : List Tick} (h : OnlyAt ticks i)
    (htick' : j ≠ i → tick'.phase.critical = false) : OnlyAt (ticks.set j tick') i := by
  intro m t hm hne
  rw [List.getElem?_set] at hm
  split at hm
  · rename_i hjm
    subst hjm
    split at hm
    · cases hm
      exact htick' hne
    · cases hm
  · exact h m t hm hne

theorem Busy.ne_of_not_critical (h : Busy s i tick) (hj : s.ticks[j]? = some tick')
    (hphase : tick'.phase.critical = false) : j ≠ i := by
  rintro rfl
  cases hj.symm.trans h.found
  rw [h.expects.critical] at hphase
  cases hphase

theorem Busy.eq_of_critical (h : Busy s i tick) (hj : s.ticks[j]? = some tick')
    (hphase : tick'.phase.critical = true) : j = i ∧ tick' = tick := by
  have hji : j = i := by
    by_contra hne
    rw [h.alone j tick' hj hne] at hphase
    cases hphase
  subst hji
  exact ⟨rfl, Option.some.inj (hj.symm.trans h.found)⟩

/-- A critical tick is the one that the invariant speaks of. -/
theorem Inv.busy (h : Inv s) (hi : s.ticks[i]? = some tick) (hphase : tick.phase.critical = true) :
    Busy s i tick := by
  rcases h with hidle | ⟨j, tick', hbusy⟩
  · rw [hidle.clear tick (List.mem_of_getElem? hi)] at hphase
    cases hphase
  · obtain ⟨rfl, rfl⟩ := hbusy.eq_of_critical hi hphase
    exact hbusy

/-- If no other tick is critical, none is. -/
theorem Inv.idle (h : Inv s) (hi : s.ticks[i]? = some tick) (hphase : tick.phase.critical = false)
    (halone : OnlyAt s.ticks i) : Idle s := by
  rcases h with hidle | ⟨j, tick', hbusy⟩
  · exact hidle
  · have hne := hbusy.ne_of_not_critical hi hphase
    have hcritical := halone j tick' hbusy.found (Ne.symm hne)
    rw [hbusy.expects.critical] at hcritical
    cases hcritical

/-- Until the order is sent, what stands is the last order. -/
theorem Expects.last {phase : Phase} (h : Expects s phase)
    (hunsent : ∀ id k, phase ≠ .submitting id k) {x : Int} (hx : x ∈ standing s.log) :
    s.lastClientOrderId = some x := by
  cases phase with
  | preparingCancel quotePrice id =>
    rw [h.2 x hx]
    exact h.1
  | cancelling quotePrice =>
    have hempty : standing s.log = [] := h
    exact absurd hx (hempty ▸ List.not_mem_nil)
  | preparingOrder quotePrice id =>
    have hempty : standing s.log = [] := h
    exact absurd hx (hempty ▸ List.not_mem_nil)
  | submitting id k => exact absurd rfl (hunsent id k)
  | _ => exact h.elim

/-- An order that no tick waits for has been decided. -/
theorem Busy.decided (h : Busy s i tick) {k : Nat} {order : Order}
    (horder : s.orders[k]? = some order) (hother : ∀ id, tick.phase ≠ .submitting id k) :
    order.accepted = true ∨ order.failed = true := by
  rcases h.settled k order horder with haccepted | hfailed | ⟨id, hwaits⟩
  · exact .inl haccepted
  · exact .inr hfailed
  · exact absurd hwaits (hother id)

theorem Expects.of_eq {phase : Phase} (h : Expects s phase)
    (hlast : s'.lastClientOrderId = s.lastClientOrderId) (hlog : s'.log = s.log)
    (horders : s'.orders = s.orders) : Expects s' phase := by
  cases phase <;> simp only [Expects, hlast, hlog, horders] at h ⊢ <;> exact h

/-- A step that leaves the critical tick and what it expects alone. -/
theorem Inv.of_eq (h : Inv s) (hlast : s'.lastClientOrderId = s.lastClientOrderId)
    (hlog : s'.log = s.log) (horders : s'.orders = s.orders)
    (hclear : ∀ tick ∈ s'.ticks, tick ∈ s.ticks ∨ tick.phase.critical = false)
    (hkept : ∀ i tick, s.ticks[i]? = some tick → tick.phase.critical = true →
      s'.ticks[i]? = some tick ∧ OnlyAt s'.ticks i) : Inv s' := by
  rcases h with hidle | ⟨i, tick, hbusy⟩
  · refine .inl ⟨fun tick htick => ?_, ?_, ?_⟩
    · rcases hclear tick htick with hmem | hphase
      · exact hidle.clear tick hmem
      · exact hphase
    · rw [hlog, hlast]
      exact hidle.last
    · rw [horders]
      exact hidle.settled
  · obtain ⟨htick, halone⟩ := hkept i tick hbusy.found hbusy.expects.critical
    refine .inr ⟨i, tick, htick, hbusy.expects.of_eq hlast hlog horders, halone, ?_⟩
    rw [horders]
    exact hbusy.settled

/-- What a tick's turn to waiting for something else keeps. -/
theorem busy_set {looped : Bool} {phase : Phase} (hi : s.ticks[i]? = some tick)
    (halone : OnlyAt s.ticks i) (hticks : s'.ticks = s.ticks.set i ⟨looped, phase⟩)
    (hexpects : Expects s' phase)
    (hsettled : ∀ k order, s'.orders[k]? = some order →
      order.accepted = true ∨ order.failed = true ∨ ∃ id, phase = .submitting id k) :
    Inv s' := by
  have hlt := (List.getElem?_eq_some_iff.1 hi).1
  refine .inr ⟨i, ⟨looped, phase⟩, ?_, hexpects, ?_, hsettled⟩
  · rw [hticks, List.getElem?_set_self hlt]
  · rw [hticks]
    exact halone.set fun hne => absurd rfl hne

/-- The end of the critical tick. -/
theorem idle_set {looped : Bool} (halone : OnlyAt s.ticks i)
    (hticks : s'.ticks = s.ticks.set i ⟨looped, .ended⟩)
    (hlast : ∀ id ∈ standing s'.log, s'.lastClientOrderId = some id)
    (hsettled : ∀ order ∈ s'.orders, order.accepted = true ∨ order.failed = true) : Inv s' := by
  refine .inl ⟨fun tick htick => ?_, hlast, hsettled⟩
  rw [hticks] at htick
  obtain ⟨j, hj⟩ := List.getElem?_of_mem htick
  rw [List.getElem?_set] at hj
  split at hj
  · split at hj
    · cases hj
      rfl
    · cases hj
  · rename_i hne
    exact halone j tick hj (Ne.symm hne)

/-- The reply to an accepted order: it is the last one. -/
theorem Busy.replied {looped : Bool} {id : Int} {k : Nat} (sleeping : Nat)
    (hbusy : Busy s i ⟨looped, .submitting id k⟩)
    (haccepted : s.orders[k]?.any (·.accepted) = true) :
    Inv { s with
      ticks := s.ticks.set i ⟨looped, .ended⟩, sleeping, lastClientOrderId := some id } := by
  obtain ⟨order, horder, -, -, hstanding⟩ := hbusy.expects
  rw [horder, Option.any_some] at haccepted
  rw [haccepted, if_pos rfl] at hstanding
  refine idle_set hbusy.alone rfl (fun x hx => ?_) fun order' horder' => ?_
  · rw [hstanding, List.mem_singleton] at hx
    rw [hx]
  · obtain ⟨m, hm⟩ := List.getElem?_of_mem horder'
    by_cases hmk : m = k
    · subst hmk
      cases horder.symm.trans hm
      exact .inl haccepted
    · exact hbusy.decided hm (by simp [Ne.symm hmk])

/-- An error for an order that was not accepted: nothing stands. -/
theorem Busy.rejected {looped : Bool} {id : Int} {k : Nat} (sleeping : Nat)
    (hbusy : Busy s i ⟨looped, .submitting id k⟩)
    (haccepted : s.orders[k]?.any (·.accepted) = false) :
    Inv { s with
      ticks := s.ticks.set i ⟨looped, .ended⟩, sleeping
      orders := s.orders.modify k fun order => { order with failed := true } } := by
  obtain ⟨order, horder, -, -, hstanding⟩ := hbusy.expects
  rw [horder, Option.any_some] at haccepted
  rw [haccepted, if_neg Bool.false_ne_true] at hstanding
  refine idle_set hbusy.alone rfl (fun x hx => ?_) fun order' horder' => ?_
  · rw [hstanding] at hx
    cases hx
  · obtain ⟨m, hm⟩ := List.getElem?_of_mem horder'
    rw [List.getElem?_modify] at hm
    obtain ⟨old, hold, rfl⟩ := Option.map_eq_some_iff.1 hm
    split
    · exact .inr rfl
    · rename_i hne
      exact hbusy.decided hold (by simp [hne])

/-- The order that becomes accepted is the one that the critical tick waits for. -/
theorem Inv.accepted (h : Inv s) {k : Nat} {order : Order} (horder : s.orders[k]? = some order)
    (haccepted : order.accepted = false) (hfailed : order.failed = false) :
    Inv { s with
      orders := s.orders.modify k fun order => { order with accepted := true }
      log := s.log ++ [.accepted order.request] } := by
  rcases h with hidle | ⟨i, tick, hbusy⟩
  · rcases hidle.settled order (List.mem_of_getElem? horder) with h | h
    · cases haccepted.symm.trans h
    · cases hfailed.symm.trans h
  · rcases hbusy.settled k order horder with h | h | ⟨id, hwaits⟩
    · cases haccepted.symm.trans h
    · cases hfailed.symm.trans h
    · have hexpects := hbusy.expects
      rw [hwaits] at hexpects
      obtain ⟨order', horder', -, hplaced, hstanding⟩ := hexpects
      cases horder.symm.trans horder'
      rw [haccepted, if_neg Bool.false_ne_true] at hstanding
      refine .inr ⟨i, tick, hbusy.found, ?_, hbusy.alone, fun m other hm => ?_⟩
      · rw [hwaits]
        refine ⟨{ order with accepted := true }, ?_, hfailed, hplaced, ?_⟩
        · simp [horder]
        · simp [standing_concat, afterOccurrence, hstanding, hplaced]
      · rw [List.getElem?_modify] at hm
        obtain ⟨old, hold, rfl⟩ := Option.map_eq_some_iff.1 hm
        split
        · exact .inl rfl
        · exact hbusy.settled m old hold

/-- **A careful step keeps the invariant.** -/
theorem Inv.step (h : Inv s) (hstep : CarefulStep s s') : Inv s' := by
  cases hstep with
  | control running sleeping =>
    refine h.of_eq rfl rfl rfl (fun tick htick => .inl htick) fun i tick hi hphase => ⟨hi, ?_⟩
    exact (h.busy hi hphase).alone
  | start running sleeping looped =>
    refine h.of_eq rfl rfl rfl ?_ fun i tick hi hphase => ⟨?_, ?_⟩
    · intro tick htick
      rcases List.mem_append.1 htick with hmem | hmem
      · exact .inl hmem
      · rw [List.mem_singleton.1 hmem]
        exact .inr rfl
    · exact (List.getElem?_append_left (List.getElem?_eq_some_iff.1 hi).1).trans hi
    · intro j t hj hne
      rcases List.getElem?_append .. ▸ hj with hj
      split at hj
      · exact (h.busy hi hphase).alone j t hj hne
      · obtain rfl := List.mem_singleton.1 (List.mem_of_getElem? hj)
        rfl
  | @early i tick tick' sleeping hi hphase hphase' =>
    refine h.of_eq rfl rfl rfl ?_ fun j t hj ht => ⟨?_, ?_⟩
    · intro t ht
      rcases List.mem_or_eq_of_mem_set ht with hmem | rfl
      · exact .inl hmem
      · exact .inr hphase'
    · have hne := (h.busy hj ht).ne_of_not_critical hi hphase
      exact (List.getElem?_set_ne hne).trans hj
    · exact (h.busy hj ht).alone.set fun _ => hphase'
  | @read i tick id looped quotePrice hi hphase halone hlast =>
    have hidle := h.idle hi hphase halone
    refine busy_set hi halone rfl ⟨hlast, fun x hx => ?_⟩ fun k order horder => ?_
    · exact Option.some.inj ((hidle.last x hx).symm.trans hlast)
    · exact (hidle.settled order (List.mem_of_getElem? horder)).imp_right .inl
  | @readNone i tick looped quotePrice now hi hphase halone hlast =>
    have hidle := h.idle hi hphase halone
    refine busy_set hi halone rfl (List.eq_nil_iff_forall_not_mem.2 fun x hx => ?_)
      fun k order horder => ?_
    · cases (hidle.last x hx).symm.trans hlast
    · exact (hidle.settled order (List.mem_of_getElem? horder)).imp_right .inl
  | @cancelSent i looped quotePrice id request hi hrequest =>
    have hbusy := h.busy hi rfl
    refine busy_set hi hbusy.alone rfl ?_ fun k order horder => ?_
    · simp only [Expects, standing_concat, afterOccurrence, hrequest, List.filter_eq_nil_iff]
      intro x hx
      simp [hbusy.expects.2 x hx]
    · exact (hbusy.decided horder (by simp)).imp_right .inl
  | @cancelReplied i looped quotePrice now hi =>
    have hbusy := h.busy hi rfl
    refine busy_set hi hbusy.alone rfl hbusy.expects fun k order horder => ?_
    exact (hbusy.decided horder (by simp)).imp_right .inl
  | @orderSent i looped quotePrice id request hi hrequest =>
    have hbusy := h.busy hi rfl
    have hempty : standing s.log = [] := hbusy.expects
    refine busy_set hi hbusy.alone rfl ?_ fun k order horder => ?_
    · refine ⟨⟨request, false, false⟩, by simp, rfl, hrequest.1, ?_⟩
      simp [standing_concat, afterOccurrence, hempty]
    · rw [List.getElem?_append] at horder
      split at horder
      · exact (hbusy.decided horder (by simp)).imp_right .inl
      · have hk : k = s.orders.length := by
          have := (List.getElem?_eq_some_iff.1 horder).1
          simp only [List.length_singleton] at this
          omega
        exact .inr (.inr ⟨id, by rw [hk]⟩)
  | @stopped i tick looped sleeping hi hphase hsent =>
    have hbusy := h.busy hi hphase
    refine idle_set hbusy.alone rfl (fun x hx => hbusy.expects.last hsent hx) fun order horder => ?_
    obtain ⟨k, hk⟩ := List.getElem?_of_mem horder
    exact hbusy.decided hk fun id => hsent id k
  | @replied i looped id k sleeping hi haccepted =>
    exact (h.busy hi rfl).replied sleeping haccepted
  | @rejected i looped id k sleeping hi haccepted =>
    exact (h.busy hi rfl).rejected sleeping haccepted
  | accepted horder haccepted hfailed => exact h.accepted horder haccepted hfailed

end

/-! ## Runs -/

theorem inv_new (clock : Int) : Inv (.new clock) := by
  refine .inl ⟨?_, ?_, ?_⟩ <;> rintro _ ⟨⟩

theorem Inv.at_most_one {s : QuoterState} (h : Inv s) :
    ∀ id ∈ standing s.log, ∀ id' ∈ standing s.log, id = id' := by
  intro id hid id' hid'
  rcases h with hidle | ⟨i, tick, hbusy⟩
  · exact Option.some.inj ((hidle.last id hid).symm.trans (hidle.last id' hid'))
  · cases hwaits : tick.phase with
    | submitting last k =>
      have hexpects := hbusy.expects
      rw [hwaits] at hexpects
      obtain ⟨order, -, -, -, hstanding⟩ := hexpects
      rw [hstanding] at hid hid'
      split at hid
      · rw [if_pos (by assumption)] at hid'
        exact (List.mem_singleton.1 hid).trans (List.mem_singleton.1 hid').symm
      · cases hid
    | _ =>
      have hunsent : ∀ id k, tick.phase ≠ .submitting id k := by simp [hwaits]
      have hlast := hbusy.expects.last hunsent hid
      exact Option.some.inj (hlast.symm.trans (hbusy.expects.last hunsent hid'))

/-- **At most one quote stands** after a run in which no accepted order is answered with an error and
no tick reads the last id while another tick is replacing it. -/
theorem at_most_one_standing (rt : Runtime) (config : RelayerPerpQuoterBotConfig) (clock : Int)
    {events : List QuoterEvent} {s : QuoterState}
    (hcareful : Along (step rt config) (fun s event => careful config s event = true) (.new clock)
      events)
    (h : run (step rt config) (.new clock) events = some s) :
    ∀ id ∈ standing s.log, ∀ id' ∈ standing s.log, id = id' := by
  have hinv : Inv s :=
    hcareful.induction (I := fun _ s => Inv s)
      (fun _ _ _ _ hI hevent hstep => hI.step (careful_step hevent hstep)) (inv_new clock) h
  exact hinv.at_most_one

/-! ## Recorded quotes

Two quotes on market 2 with the keys of the recorded cancellation, a second apart, and the cancel of
the first. -/

namespace RecordedQuotes

open RecordedCancel
open TriggerOrders.Recorded (group fermiAccount signer)

def firstPayloadHash : Digest :=
  ⟨[116, 214, 160, 58, 166, 12, 28, 27, 102, 7, 248, 103, 139, 135, 182, 114, 124, 24, 15, 200,
    233, 124, 96, 210, 66, 60, 27, 63, 93, 37, 129, 76], rfl⟩

def firstIntentHash : Digest :=
  ⟨[254, 20, 113, 136, 11, 232, 213, 31, 145, 170, 100, 175, 71, 38, 131, 49, 120, 82, 154, 1, 158,
    48, 253, 230, 173, 177, 175, 140, 28, 241, 49, 30], rfl⟩

def firstSignature : Bytes :=
  [221, 44, 124, 88, 113, 247, 224, 167, 5, 166, 115, 186, 144, 143, 15, 117, 131, 142, 59, 169,
    79, 255, 152, 140, 2, 1, 83, 118, 210, 184, 19, 69, 226, 110, 83, 170, 52, 97, 112, 63, 79,
    242, 75, 66, 220, 186, 248, 38, 125, 228, 222, 61, 42, 33, 140, 41, 251, 218, 232, 103, 141,
    55, 164, 10]

def cancelPayloadHash : Digest :=
  ⟨[204, 161, 156, 65, 57, 130, 208, 101, 85, 108, 86, 92, 194, 139, 234, 169, 55, 149, 198, 200,
    245, 210, 229, 126, 229, 183, 206, 19, 234, 211, 66, 181], rfl⟩

def cancelIntentHash : Digest :=
  ⟨[56, 249, 31, 104, 19, 255, 148, 29, 84, 105, 152, 93, 50, 169, 193, 93, 231, 20, 227, 132, 245,
    92, 174, 2, 87, 13, 151, 78, 189, 234, 132, 230], rfl⟩

def cancelSignature : Bytes :=
  [73, 130, 92, 106, 164, 253, 172, 184, 210, 154, 248, 242, 204, 164, 88, 185, 114, 34, 98, 108,
    202, 155, 0, 16, 243, 202, 21, 141, 202, 65, 233, 241, 34, 136, 115, 45, 122, 88, 46, 141, 251,
    38, 115, 49, 252, 40, 76, 179, 242, 40, 24, 157, 129, 146, 18, 145, 38, 155, 69, 159, 140, 18,
    190, 10]

def secondPayloadHash : Digest :=
  ⟨[172, 129, 214, 85, 243, 206, 0, 206, 178, 241, 187, 34, 137, 171, 139, 88, 206, 34, 50, 226,
    73, 73, 14, 212, 151, 65, 67, 117, 217, 207, 105, 24], rfl⟩

def secondIntentHash : Digest :=
  ⟨[224, 23, 249, 44, 204, 35, 16, 89, 57, 82, 106, 131, 151, 42, 68, 6, 127, 225, 95, 211, 4, 30,
    191, 218, 26, 121, 203, 62, 74, 75, 217, 212], rfl⟩

def secondSignature : Bytes :=
  [199, 167, 184, 98, 170, 11, 6, 80, 243, 54, 153, 237, 217, 14, 35, 29, 182, 171, 97, 222, 148,
    243, 108, 11, 144, 121, 46, 94, 134, 196, 148, 85, 252, 26, 216, 135, 209, 44, 204, 112, 89,
    215, 114, 234, 231, 214, 194, 84, 20, 187, 244, 71, 223, 124, 58, 24, 66, 15, 240, 155, 52, 46,
    81, 6]

/-- A bid of 10 lots at 10000. -/
def quotePayload (clientOrderId : Nat) : Bytes :=
  [1, 0, 0, 0, 0] ++ leBytes 8 10000 ++ leBytes 8 10 ++ leBytes 8 (2 ^ 63 - 1) ++
    leBytes 8 clientOrderId ++ [4, 0, 0] ++ leBytes 8 0 ++ [10]

def intentBytes (payloadHash : Digest) (clientOrderId : Nat) : Bytes :=
  Buffer.ofAscii "mango-v5-user-intent-v2" ++ group.bytes ++ fermiAccount.bytes ++ signer.bytes ++
    [0, 0, 2, 0] ++ payloadHash.bytes ++ accountsHash.bytes ++ List.replicate 16 0 ++
    leBytes 8 clientOrderId

/-- SHA-256, Ed25519 and the queue's address on what the runs below hash and sign. -/
def runtime : Runtime :=
  .ofTables
    [(executionQueueAccountsPreimage effectiveAccounts, accountsHash),
      (quotePayload 1790000000000, firstPayloadHash),
      (intentBytes firstPayloadHash 77, firstIntentHash),
      ([1, 2, 0, 0] ++ leBytes 8 1790000000000, cancelPayloadHash),
      (intentBytes cancelPayloadHash 78, cancelIntentHash),
      (quotePayload 1790000001000, secondPayloadHash),
      (intentBytes secondPayloadHash 79, secondIntentHash)]
    [(firstIntentHash.bytes, secretKey, signer, firstSignature),
      (cancelIntentHash.bytes, secretKey, signer, cancelSignature),
      (secondIntentHash.bytes, secretKey, signer, secondSignature)]
    [([Buffer.ofAscii "execution-queue-v5", group.bytes, [2, 0]], executionQueue)]

def context : FermiV1Context :=
  { RecordedCancel.context with
    group := { RecordedCancel.context.group with
      getPerpMarketByMarketIndex := fun _ => pure { perpMarket with
        uiPriceToLots := fun _ => pure 10000
        uiBaseToLots := fun _ => pure 10 } } }

/-- A bid at the fair price. -/
def config : RelayerPerpQuoterBotConfig where
  marketIndex := .int 2
  side := .bid
  size := .int 1
  orderType := none
  maxQuoteQuantity := none
  maxFeeLamports := some "AUTO"
  computeQuotePrice fairPrice := fairPrice
  harness := false

/-- The first quote is replaced by the second. -/
def replaced : List QuoterEvent := [
  .run, .priced 0 (.int 100) 1790000000000, .prepared 0 context 77, .accepted 0, .orderReplied 0,
  .wake, .priced 1 (.int 100) 1790000001000, .prepared 1 context 78,
  .cancelReplied 1 1790000001000, .prepared 1 context 79, .accepted 1, .orderReplied 1]

/-- The first quote is accepted, but its reply is lost; the next tick does not know its id. -/
def lostReply : List QuoterEvent := [
  .run, .priced 0 (.int 100) 1790000000000, .prepared 0 context 77, .accepted 0, .failed 0,
  .wake, .priced 1 (.int 100) 1790000001000, .prepared 1 context 79, .accepted 1, .orderReplied 1]

end RecordedQuotes

open RecordedQuotes in
/-- After the replacement one quote stands. -/
theorem at_most_one_standing_replaced :
    ∃ s, run (step runtime config) (.new 0) replaced = some s ∧
      ∀ id ∈ standing s.log, ∀ id' ∈ standing s.log, id = id' := by
  have hsome : (run (step runtime config) (.new 0) replaced).isSome = true := by decide +kernel
  obtain ⟨s, hs⟩ := Option.isSome_iff_exists.1 hsome
  exact ⟨s, hs, at_most_one_standing runtime config 0 (by decide +kernel) hs⟩

open RecordedQuotes in
/-- **A lost reply leaves two quotes standing.** -/
theorem lost_reply_leaves_two :
    (run (step runtime config) (.new 0) lostReply).map (fun s => standing s.log) =
      some [1790000000000, 1790000001000] := by
  decide +kernel

end FermiSdk.Quoter
