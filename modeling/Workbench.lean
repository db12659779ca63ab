import Workbench.Risk.Projection
import Workbench.Risk.Causality
import Workbench.Risk.Handoff
import Workbench.Orders.Mutation
import Workbench.Exposure.GrossCap
import Workbench.Shadow.Inert
import Workbench.Capacity.Oversell
import Workbench.Capacity.Absorption
import Workbench.LossControl.Faithful
import Workbench.Recovery.Awaiting
import Workbench.Recovery.Rearm
import Workbench.Strategies.Halted
import Workbench.Strategies.Restore
import Workbench.Strategies.Activation
import Workbench.Strategies.Linear
import Workbench.Backtest.Conservation
import Workbench.Backtest.LookAhead
import Workbench.Strategies.Slots
import Workbench.Seed.Incremental
import Workbench.Strategies.HoldLifecycle
import Workbench.Rebalance.Visible
import Workbench.Audit.Tamper
import Workbench.Demand.Invariants
import Workbench.Demand.Retention
import Workbench.Services.Agreement
import Workbench.Research.History
import Workbench.Research.Frozen
import Workbench.LossControl.Baseline
import Workbench.Governance.GuardSoundness
import Workbench.Services.BacktestJobs
import Workbench.Templates.RangeOrders
import Workbench.Services.StrategyControl
import Workbench.Templates.MissingData
import Workbench.Validation.ReceiptSchema
import Workbench.Validation.WitnessLog
import Workbench.Risk.CumulativeFallback
import Workbench.Services.CashAccounting
import Workbench.Orders.Convergence
import Workbench.Strategies.CrontabDays
import Workbench.Templates.NoChurn
import Workbench.Strategies.StateBlobs
import Workbench.Demand.PassSoundness
import Workbench.Research.Sampler
import Workbench.Research.GateProfiles
import Workbench.Validation.LineageEligibility
import Workbench.Validation.GenuineDecisions
import Workbench.Validation.NoPeeking
import Workbench.Market.TotalReturn
import Workbench.Phase0.FalseCertainty
import Workbench.Services.RangeCapture
import Workbench.Services.ReconciliationPass
import Workbench.Templates.OverlayTicks
import Workbench.Risk.DayTrades
import Workbench.Services.RoundTrips
import Workbench.Templates.EntryRule
import Workbench.FactorData.SectorCap
import Workbench.FactorData.MarkToMarket
import Workbench.Research.SnapshotRetention
import Workbench.FactorData.PointInTime
