import Brocade.Hotswap.Correct
import Brocade.Usage.Ledger
import Brocade.Usage.Restart
import Brocade.Usage.Relay
import Brocade.Ir.App
import Brocade.Ir.Hops
import Brocade.Ir.Routing
import Brocade.Ir.Validate.App
import Brocade.Lib.Calendar
import Brocade.Traffic.Agree
import Brocade.Traffic.Conserve
import Brocade.Traffic.Meter
import Brocade.Detail.Conserve
import Brocade.Queue.Cover
import Brocade.Queue.Durable
import Brocade.Quota.Operator
import Brocade.Budget.Admit
import Brocade.Budget.Cap
import Brocade.Forwarding.Acknowledged
import Brocade.Ir.Compile
import Brocade.Lib.Scc
import Brocade.Lib.Waves
import Brocade.Physical.Grants
import Brocade.Release.Actions
import Brocade.Release.Order
import Brocade.Forwarding.Billed
import Brocade.Forwarding.Honest
import Brocade.Forwarding.Once
import Brocade.Forwarding.Reconciled
import Brocade.Forwarding.Rounds
import Brocade.Binary.Change
import Brocade.Binary.Lawful
import Brocade.Binary.Verdicts
import Brocade.MachineLimit.Budget
import Brocade.MachineLimit.Closed
import Brocade.MachineLimit.Shared
import Brocade.Mux.ReverseAdmission
import Brocade.Selfupdate.Cycle
import Brocade.Selfupdate.Receipt
import Brocade.Selfupdate.Runs
import Brocade.Ir.Edges
import Brocade.Ir.Members
import Brocade.Physical.HopInbounds
import Brocade.Physical.Loopback
import Brocade.Ir.Codes
import Brocade.Ir.Spelling
import Brocade.Physical.Backbone
import Brocade.Physical.LinkEnds
import Brocade.Physical.Tun
import Brocade.Traffic.Accounted
import Brocade.Artifacts.Condition
import Brocade.Artifacts.Meaning
import Brocade.Ir.Front
import Brocade.Ir.FrontSound
import Brocade.Physical.Ingresses
import Brocade.Physical.InternalPorts
import Brocade.Physical.Listeners
import Brocade.Lib.FirstMatch
import Brocade.Physical.DnsRoute
import Brocade.Physical.ProbeRoutes
import Brocade.Queue.Dropped
import Brocade.Traffic.Tiles
import Brocade.Forwarding.PortMoves
import Brocade.Traffic.Attribution
import Brocade.SiteUsage.Conserve
import Brocade.Accounting.Promotion
import Brocade.Accounting.Certified
import Brocade.ClientConfig.Order
import Brocade.SiteUsage.FirstSite
import Brocade.Load.Compact
import Brocade.Xray.Codec
import Brocade.Mux.ReverseWindow
import Brocade.Mux.DrainFence
import Brocade.UserTraffic.Known
import Brocade.UserLimit.FreePass
import Brocade.Physical.ClearLabels
import Brocade.Mux.ReverseLease
import Brocade.Binary.Stuck
import Brocade.Secrets.Transplant
import Brocade.Ir.Walk
import Brocade.Ir.Retired
import Brocade.Cache.StageMemo
import Brocade.Cache.StageResults
import Brocade.Ir.Stages
import Brocade.Cache.AppStages
