import FermiSdk.Lib.Throws
import FermiSdk.Lib.Rounding
import FermiSdk.Lib.Pool
import FermiSdk.Lib.Numeral
import FermiSdk.Lib.Codec
import FermiSdk.Lib.Base58
import FermiSdk.Lib.Json
import FermiSdk.Lib.Joined
import FermiSdk.Lib.Firsts
import FermiSdk.Lib.Walk
import FermiSdk.Lib.Prog
import FermiSdk.Lib.Runs
import FermiSdk.Lib.AsyncQueue
import FermiSdk.Js
import FermiSdk.Solana
import FermiSdk.Intents.Payload
import FermiSdk.Intents.Messages
import FermiSdk.RelayerClient
import FermiSdk.TriggerOrders
import FermiSdk.TriggerOrderViews
import FermiSdk.Context
import FermiSdk.Trading
import FermiSdk.Streams
import FermiSdk.Quoter
import FermiSdk.Flp.Math
import FermiSdk.Flp.Idl
import FermiSdk.Flp.Client
import FermiSdk.Flp.Smoke
import FermiSdk.Addresses
import FermiSdk.Intents.Verify.Payload
import FermiSdk.Intents.Verify.Preimages
import FermiSdk.Intents.Verify.Accounts
import FermiSdk.Addresses.Verify.Aliasing
import FermiSdk.TriggerOrders.Verify.Binding
import FermiSdk.TriggerOrders.Verify.Legs
import FermiSdk.TriggerOrders.Verify.Contract
import FermiSdk.TriggerOrders.Verify.Limits
import FermiSdk.TriggerOrders.Verify.Brackets
import FermiSdk.TriggerOrderViews.Verify.Redaction
import FermiSdk.Context.Verify.Canonical
import FermiSdk.Context.Verify.DirectHash
import FermiSdk.Trading.Verify.Wire
import FermiSdk.Streams.Verify.Queues
import FermiSdk.Quoter.Verify.Standing
import FermiSdk.Flp.Verify.Payouts
import FermiSdk.Flp.Verify.Dilution
import FermiSdk.Flp.Verify.Splitting
import FermiSdk.Flp.Verify.Metas
import FermiSdk.Flp.Verify.CloseEpoch
import FermiSdk.Flp.Verify.Journal
import FermiSdk.JsString
import FermiSdk.Flp.Verify.Recovery
import FermiSdk.Lib.Chunks
import FermiSdk.Streams.Verify.Frames
import FermiSdk.Streams.Verify.Ended
import FermiSdk.TriggerOrderViews.Verify.Fixpoints
import FermiSdk.TriggerOrderViews.Verify.Strict
import FermiSdk.TriggerOrderViews.Verify.Ranges
import FermiSdk.TriggerOrderViews.Verify.Lenient
import FermiSdk.Flp.Verify.QueueCache
import FermiSdk.Fees
import FermiSdk.Fees.Verify.Deposits
import FermiSdk.Flp.Transport
import FermiSdk.Flp.Verify.Base58Text
import FermiSdk.Flp.Verify.PacketSize
import FermiSdk.Trading.Verify.QuoteCap
import FermiSdk.Fees.Verify.Credits
import FermiSdk.Lib.Fields
import FermiSdk.Lib.PercentEncoding
import FermiSdk.Flp.Vault
import FermiSdk.Flp.Verify.VaultReads
import FermiSdk.Flp.Verify.Extension
import FermiSdk.Flp.Verify.StagedParams
import FermiSdk.Flp.Instructions
import FermiSdk.Flp.Verify.Instructions
import FermiSdk.Flp.Builders
import FermiSdk.Flp.Verify.UserFlows
import FermiSdk.Flp.Verify.Lifecycle
import FermiSdk.Flp.Verify.Operators
import FermiSdk.Lib.Url
import FermiSdk.Lib.Base64
import FermiSdk.Gateway
import FermiSdk.Gateway.Verify.Routes
import FermiSdk.TriggerOrders.Client
import FermiSdk.TriggerOrders.Verify.Submission
import FermiSdk.TriggerOrders.Verify.Requests
import FermiSdk.Lib.RefreshCache
import FermiSdk.FairPrice
import FermiSdk.FairPrice.Verify.Cache
import FermiSdk.Flp.PricingContext
import FermiSdk.Flp.Verify.PricingContext
import FermiSdk.AccountClient
import FermiSdk.AccountClient.Verify.Scans
import FermiSdk.Deployments
import FermiSdk.Deployments.Verify.Creation
import FermiSdk.Flp.Verify.Coder
import FermiSdk.Flp.Verify.DocumentedCoder
import FermiSdk.Flp.Verify.AdminFlows
import FermiSdk.Flp.Verify.Settlement
import FermiSdk.Flp.Verify.VaultFlows
import FermiSdk.Trading.Verify.Direct
