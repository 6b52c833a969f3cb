import Lss.Model.Rollup
import Lss.Analysis.StaleFlaps
import Lss.Analysis.Uptime
import Lss.Analysis.ContainerRestarts
import Lss.Analysis.TokenLedger
import Lss.Analysis.RollupRestart
import Lss.Analysis.DayEnergy
import Lss.Analysis.TodayPrices
import Lss.Analysis.SeriesCells
import Lss.Analysis.LatencyWindows
import Lss.Analysis.LockRaces
import Lss.Analysis.MaintenanceIncidents
import Lss.Analysis.SpendingWindows
import Lss.Analysis.FreshLoadouts
import Lss.Analysis.C1Rebuild
import Lss.Analysis.XidOnce
import Lss.Analysis.GatePolls
import Lss.Analysis.TouPlans
import Lss.Analysis.MetricsRoundTrip
import Lss.Analysis.BenchAborts
import Lss.Analysis.QuietCards
import Lss.Analysis.PromptTokens
import Lss.Analysis.IdleWindows
import Lss.Analysis.ProbesAlone
import Lss.Analysis.GatewayReads
import Lss.Analysis.XidMarkers
import Lss.Analysis.TokenWindows
import Lss.Analysis.WizardSecrets
import Lss.Analysis.CostAnswers
import Lss.Analysis.DiskWindows
import Lss.Analysis.LowStreaks
import Lss.Analysis.CodeLabels
import Lss.Analysis.Quantiles
import Lss.Analysis.HistStores
import Lss.Analysis.PlanBounds
import Lss.Analysis.HistShapes
import Lss.Analysis.LabelBytes
import Lss.Analysis.AlertSpools
import Lss.Analysis.GatewayBalance
import Lss.Analysis.LogDeltas
import Lss.Analysis.UserCaps
import Lss.Analysis.UserTables
import Lss.Analysis.SaturationPoint
import Lss.Analysis.SpeedCeilings
import Lss.Analysis.SplitPrices
import Lss.Analysis.ReadingPeaks
import Lss.Analysis.LostIntervals
import Lss.Analysis.UptimeTarget
import Lss.Analysis.BurstRepair
import Lss.Analysis.CachedTokens
import Lss.Analysis.OwnRequests
import Lss.Analysis.BaseAddresses
import Lss.Analysis.ComparedLoadouts
import Lss.Analysis.RemoteCommands
import Lss.Analysis.TokenTable
import Lss.Analysis.HeadlineReadings
import Lss.Analysis.EngineRewrites
import Lss.Analysis.SegmentDots
import Lss.Analysis.AverageWindows
import Lss.Analysis.MonitorShare
import Lss.Analysis.PathBudget
import Lss.Analysis.TwoPhaseScan
import Lss.Analysis.PanelLines
import Lss.Analysis.TimeColumns
import Lss.Analysis.GrowthBasis
import Lss.Analysis.LateDeliveries
import Lss.Analysis.QueryDecoding
import Lss.Analysis.CollectorPorts
import Lss.Analysis.ScreenServers
import Lss.Analysis.ScreenPrefs
import Lss.Analysis.OverviewLayout
import Lss.Analysis.RunLedger
import Lss.Analysis.LocalRequests
import Lss.Analysis.HourSlots
import Lss.Analysis.HeadlineRuns
