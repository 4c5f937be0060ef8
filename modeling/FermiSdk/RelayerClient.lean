import FermiSdk.Solana

/-!
# The relayer's request

`src/relayerClient.ts`: the message that `submitIntent` sends, with keys in base58 and integers in
decimal.
-/

namespace FermiSdk

open FermiSdk.Lib

/-- An account as the relayer is sent it. -/
structure RelayerAccountMeta where
  pubkey : String
  is_signer : Bool
  is_writable : Bool
  deriving DecidableEq

/-- The terms of a trigger order. 64 bits are sent as text. -/
structure TriggerOrderTermsWire where
  version : Int
  kind : JsNumber
  direction : JsNumber
  trigger_price_lots : String
  oco_group : String
  expiry_ts : String
  salt : String
  price_source : Int
  flags : Int
  deriving DecidableEq

/-- All that the relayer gets. What is optional in the protocol is an option. -/
structure SubmitIntentRequest where
  group : String
  execution_queue : String
  market : String
  payload : Bytes
  remaining_accounts : List RelayerAccountMeta
  min_execute_slot : Option String
  expires_at_slot : Option String
  user_owner : String
  mango_account : String
  user_signature : Bytes
  base_fee : Option String
  max_fee_lamports : Option String
  intent_version : Option Int
  target_kind : Option JsNumber
  target_index : Option JsNumber
  client_order_id : Option String
  trigger_order : Option TriggerOrderTermsWire

/-- The flags are sent as they are. -/
def toRelayerAccountMeta (account : AccountMeta) : RelayerAccountMeta where
  pubkey := account.pubkey.toBase58
  is_signer := account.isSigner
  is_writable := account.isWritable

/-- `submitIntent`, up to the call of the gRPC client with the request. -/
def submitIntent (request : SubmitIntentRequest) : Throws SubmitIntentRequest := do
  throwIf (request.trigger_order.isSome ∧ request.intent_version ≠ some 3)
    "trigger orders require intent_version 3; refusing immediate-order routing"
  pure request

end FermiSdk
