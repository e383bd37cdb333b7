import ElectrumClink.Basic
import ElectrumClink.Checks.Answers
import ElectrumClink.Checks.Model
import ElectrumClink.Checks.Steps
import ElectrumClink.Data.Act
import ElectrumClink.Data.Base64
import ElectrumClink.Data.Bech32
import ElectrumClink.Data.BoundedFifo
import ElectrumClink.Data.Bytes
import ElectrumClink.Data.Dict
import ElectrumClink.Data.Distinct
import ElectrumClink.Data.GrowingList
import ElectrumClink.Data.Regroup
import ElectrumClink.Data.Rendezvous
import ElectrumClink.Data.SigFigs
import ElectrumClink.Data.StableSort
import ElectrumClink.Data.SymmetricCrypto
import ElectrumClink.Data.Transition
import ElectrumClink.Data.Words
import ElectrumClink.Delivery.Guard
import ElectrumClink.Delivery.Hourly
import ElectrumClink.Delivery.Model
import ElectrumClink.Delivery.Offline
import ElectrumClink.Delivery.Resume
import ElectrumClink.Delivery.SevenSends
import ElectrumClink.Delivery.Steps
import ElectrumClink.DevFee
import ElectrumClink.Exchange.Authentic
import ElectrumClink.Exchange.Conclusion
import ElectrumClink.Exchange.Model
import ElectrumClink.Exchange.Network
import ElectrumClink.Exchange.Refinement
import ElectrumClink.Exchange.Verdict
import ElectrumClink.Liquidity
import ElectrumClink.Listener.Cadence
import ElectrumClink.Listener.Deadlines
import ElectrumClink.Listener.Faults
import ElectrumClink.Listener.Loop
import ElectrumClink.Listener.Model
import ElectrumClink.Listener.Pings
import ElectrumClink.Listener.Repair
import ElectrumClink.Listener.Settings
import ElectrumClink.Listener.Watchdog
import ElectrumClink.Liveness.Model
import ElectrumClink.Liveness.Verdict
import ElectrumClink.Offers
import ElectrumClink.Offers.AllOrNothing
import ElectrumClink.Offers.Create
import ElectrumClink.Offers.Mirror
import ElectrumClink.Offers.Relays
import ElectrumClink.Offers.Session
import ElectrumClink.Offers.Store
import ElectrumClink.Payout.Attempts
import ElectrumClink.Payout.Conservation
import ElectrumClink.Payout.DailyCap
import ElectrumClink.Payout.Model
import ElectrumClink.Payout.Steps
import ElectrumClink.Plugin.Lifecycle
import ElectrumClink.Plugin.Model
import ElectrumClink.Plugin.Stopped
import ElectrumClink.Probe.Model
import ElectrumClink.Probe.Selection
import ElectrumClink.Probe.Verdict
import ElectrumClink.Protocol
import ElectrumClink.Protocol.Fields
import ElectrumClink.Protocol.Memo
import ElectrumClink.Protocol.Range
import ElectrumClink.Publish.Futures
import ElectrumClink.Publish.Model
import ElectrumClink.Publish.Verdict
import ElectrumClink.Receipts.Cap
import ElectrumClink.Receipts.Lifecycle
import ElectrumClink.Receipts.Registry
import ElectrumClink.Receipts.Schedule
import ElectrumClink.Relay.Cache
import ElectrumClink.Relay.Coverage
import ElectrumClink.Relay.Pick
import ElectrumClink.Relay.Pinned
import ElectrumClink.Relay.Session
import ElectrumClink.Relay.Url
import ElectrumClink.Server.Answer
import ElectrumClink.Server.Dispatch
import ElectrumClink.Server.FeeOnce
import ElectrumClink.Server.Footprint
import ElectrumClink.Server.Issue
import ElectrumClink.Server.Locks
import ElectrumClink.Server.Model
import ElectrumClink.Server.Overcommit
import ElectrumClink.Server.PayerCap
import ElectrumClink.Server.Replay
import ElectrumClink.Server.Restart
import ElectrumClink.Server.SelfTest
import ElectrumClink.Server.Settlement
import ElectrumClink.Server.Steps
import ElectrumClink.Server.Turn
import ElectrumClink.Server.TurnModel
import ElectrumClink.Server.TurnTrace
import ElectrumClink.Server.World
import ElectrumClink.Wire.Accepted
import ElectrumClink.Wire.Conversation
import ElectrumClink.Wire.JsonText
import ElectrumClink.Wire.Nip44
import ElectrumClink.Wire.Noffer
import ElectrumClink.Wire.NofferDecode
import ElectrumClink.Wire.Padding
