import FermiSdk.Lib.Runs
import FermiSdk.Trading

/-!
# The quoter

`src/quoter.ts`: `RelayerPerpQuoterBot`, together with the relayer that it submits to.

The bot is a machine whose events are its calls, the settling of the promise that a tick waits for,
the end of a loop's sleep, and the acceptance of an order by the relayer. Between two events the code
runs to its next `await`. Ticks are numbered as they start; several can be in progress, since
`tick` can be called while the loop runs, and a loop that was stopped in a tick goes on if `run` is
called before the tick ends.

The relayer may accept an order at any time after it was sent. A reply without an error says that it
has; after an error it may have, or may still do so. What the preparation of a request reads may
change from one tick to the next, so the context comes with the event.
-/

namespace FermiSdk.Quoter

open FermiSdk.Lib FermiSdk.Intents

/-- The configuration of a bot, with `computeQuotePrice` (arithmetic on doubles) as a function, and
whether the bot has a state client. -/
structure RelayerPerpQuoterBotConfig where
  marketIndex : JsNumber
  side : QueueSide
  size : JsNumber
  orderType : Option QueuePlaceOrderType
  maxQuoteQuantity : Option JsNumber
  maxFeeLamports : Option String
  computeQuotePrice : JsNumber → JsNumber
  harness : Bool

/-- What a tick waits for. -/
inductive Phase where
  /-- `fairPriceProvider()`. -/
  | pricing
  /-- `harness.getMarketState`. -/
  | readingState (quotePrice : JsNumber)
  /-- The accounts and the signature of the cancel. -/
  | preparingCancel (quotePrice : JsNumber) (clientOrderId : Int)
  /-- The reply to the cancel. -/
  | cancelling (quotePrice : JsNumber)
  /-- The accounts and the signature of the order. -/
  | preparingOrder (quotePrice : JsNumber) (clientOrderId : Int)
  /-- The reply to an order, by its number. -/
  | submitting (clientOrderId : Int) (order : Nat)
  | ended
  deriving DecidableEq

/-- A tick in progress, or one that has ended. -/
structure Tick where
  /-- Whether the loop of `run` waits for the tick. -/
  looped : Bool
  phase : Phase
  deriving DecidableEq

/-- An order that was sent. -/
structure Order where
  request : SubmitIntentRequest
  accepted : Bool
  /-- The bot was told that the submit failed. -/
  failed : Bool

/-- What passes between the bot and the relayer. -/
inductive Occurrence where
  | sent (request : SubmitIntentRequest)
  | accepted (request : SubmitIntentRequest)

/-- The bot, its ticks, and what the relayer has of it. -/
structure QuoterState where
  lastClientOrderId : Option Int
  running : Bool
  /-- How many loops sleep. -/
  sleeping : Nat
  ticks : List Tick
  orders : List Order
  /-- When a client order id was last taken. -/
  clock : Int
  log : List Occurrence

/-- What can happen next. Answers name the tick that waits for them. -/
inductive QuoterEvent where
  | run
  | stop
  | tick
  | wake
  | priced (tick : Nat) (fairPrice : JsNumber) (now : Int)
  | stateRead (tick : Nat) (now : Int)
  | prepared (tick : Nat) (context : FermiV1Context) (random : UInt64)
  | cancelReplied (tick : Nat) (now : Int)
  | orderReplied (tick : Nat)
  /-- The promise that a tick waits for is rejected. -/
  | failed (tick : Nat)
  | accepted (order : Nat)

namespace QuoterState

/-- A new bot, before any id is taken at a time after `clock`. -/
def new (clock : Int) : QuoterState where
  lastClientOrderId := none
  running := false
  sleeping := 0
  ticks := []
  orders := []
  clock := clock
  log := []

variable (s : QuoterState)

/-- A tick starts by asking for the price. -/
def startTick (looped : Bool) : QuoterState := { s with ticks := s.ticks ++ [⟨looped, .pricing⟩] }

/-- The tick waits for something else. -/
def setTick (i : Nat) (looped : Bool) (phase : Phase) : QuoterState :=
  { s with ticks := s.ticks.set i ⟨looped, phase⟩ }

/-- A tick returns or throws; the loop that waits for it catches the error and sleeps. -/
def endTick (i : Nat) (looped : Bool) : QuoterState :=
  { s.setTick i looped .ended with sleeping := s.sleeping + if looped then 1 else 0 }

/-- `const clientOrderId = Date.now()`, later than the last one. -/
def takeId (i : Nat) (looped : Bool) (quotePrice : JsNumber) (now : Int) : Option QuoterState :=
  if s.clock < now then
    some { s.setTick i looped (.preparingOrder quotePrice now) with clock := now }
  else none

/-- The tick after the price and the state: cancel the last order, if there is one. -/
def quote (i : Nat) (looped : Bool) (quotePrice : JsNumber) (now : Int) : Option QuoterState :=
  match s.lastClientOrderId with
  | some id => some (s.setTick i looped (.preparingCancel quotePrice id))
  | none => s.takeId i looped quotePrice now

end QuoterState

section

variable (rt : Runtime) (config : RelayerPerpQuoterBotConfig)

/-- The intent gets a random id, since the order keeps its own. -/
def cancelRequest (context : FermiV1Context) (clientOrderId : Int) (random : UInt64) :
    Throws SubmitIntentRequest := do
  submitIntent (← Trading.cancelPerpOrderByClientIdViaRelayer rt context {
    marketIndex := config.marketIndex
    clientOrderId := .number (.int clientOrderId)
    intentClientOrderId := none
    minExecuteSlot := none
    expiresAtSlot := none
    baseFee := none
    maxFeeLamports := config.maxFeeLamports } random)

/-- The only number drawn is the id of the intent. -/
def orderRequest (context : FermiV1Context) (quotePrice : JsNumber) (clientOrderId : Int)
    (random : UInt64) : Throws SubmitIntentRequest := do
  submitIntent (← Trading.submitPerpOrderViaRelayer rt context {
    marketIndex := config.marketIndex
    side := config.side
    price := quotePrice
    quantity := config.size
    maxQuoteQuantity := config.maxQuoteQuantity
    clientOrderId := some (.number (.int clientOrderId))
    intentClientOrderId := some (.bigint random.toNat)
    orderType := some (config.orderType.getD .postOnlySlide)
    selfTradeBehavior := none
    reduceOnly := none
    expiryTimestamp := none
    limit := none
    minExecuteSlot := none
    expiresAtSlot := none
    baseFee := none
    maxFeeLamports := config.maxFeeLamports } random)

/-- What an event does to the bot, unless nothing waits for it. -/
def step (s : QuoterState) (event : QuoterEvent) : Option QuoterState :=
  match event with
  | .run =>
    -- a second `run` throws
    if s.running then some s else some { s.startTick true with running := true }
  | .stop => some { s with running := false }
  | .tick => some (s.startTick false)
  | .wake =>
    if s.sleeping = 0 then none
    else
      let s := { s with sleeping := s.sleeping - 1 }
      if s.running then some (s.startTick true) else some s
  | .priced i fairPrice now =>
    match s.ticks[i]? with
    | some ⟨looped, .pricing⟩ =>
      let quotePrice := config.computeQuotePrice fairPrice
      if config.harness then some (s.setTick i looped (.readingState quotePrice))
      else s.quote i looped quotePrice now
    | _ => none
  | .stateRead i now =>
    match s.ticks[i]? with
    | some ⟨looped, .readingState quotePrice⟩ => s.quote i looped quotePrice now
    | _ => none
  | .prepared i context random =>
    match s.ticks[i]? with
    | some ⟨looped, .preparingCancel quotePrice id⟩ =>
      match cancelRequest rt config context id random with
      | .error _ => some (s.endTick i looped)
      | .ok request =>
        some { s.setTick i looped (.cancelling quotePrice) with log := s.log ++ [.sent request] }
    | some ⟨looped, .preparingOrder quotePrice id⟩ =>
      match orderRequest rt config context quotePrice id random with
      | .error _ => some (s.endTick i looped)
      | .ok request =>
        some { s.setTick i looped (.submitting id s.orders.length) with
          orders := s.orders ++ [⟨request, false, false⟩]
          log := s.log ++ [.sent request] }
    | _ => none
  | .cancelReplied i now =>
    match s.ticks[i]? with
    | some ⟨looped, .cancelling quotePrice⟩ => s.takeId i looped quotePrice now
    | _ => none
  | .orderReplied i =>
    match s.ticks[i]? with
    | some ⟨looped, .submitting id k⟩ =>
      if s.orders[k]?.any (·.accepted) then
        some { s.endTick i looped with lastClientOrderId := some id }
      else none
    | _ => none
  | .failed i =>
    match s.ticks[i]? with
    | some ⟨looped, .pricing⟩ => some (s.endTick i looped)
    | some ⟨looped, .readingState _⟩ => some (s.endTick i looped)
    | some ⟨looped, .cancelling _⟩ => some (s.endTick i looped)
    | some ⟨looped, .submitting _ k⟩ =>
      some { s.endTick i looped with
        orders := s.orders.modify k fun order => { order with failed := true } }
    | _ => none
  | .accepted k =>
    match s.orders[k]? with
    | some order =>
      if order.accepted then none
      else
        some { s with
          orders := s.orders.modify k fun order => { order with accepted := true }
          log := s.log ++ [.accepted order.request] }
    | none => none

end

end FermiSdk.Quoter
