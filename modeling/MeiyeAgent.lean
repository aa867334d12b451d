import MeiyeAgent.AgentDomain.Reconciliation
import MeiyeAgent.AgentSession.CompiledGroups
import MeiyeAgent.AgentSession.DecisionOwners
import MeiyeAgent.AgentSession.HoldBalance
import MeiyeAgent.AgentSession.RefreshedOnce
import MeiyeAgent.AgentSession.SteeringQuotes
import MeiyeAgent.CreditBilling.CumulativeRefunds
import MeiyeAgent.CreditBilling.CycleTiling
import MeiyeAgent.CreditBilling.FefoConsumption
import MeiyeAgent.CreditBilling.HalfSettlements
import MeiyeAgent.CreditBilling.Revocation
import MeiyeAgent.EntitlementPools.CapacityBounds
import MeiyeAgent.EntitlementPools.FairOrder
import MeiyeAgent.EntitlementPools.Starvation
import MeiyeAgent.Foundation.LegacyBalances
import MeiyeAgent.Generation.JobOutcomes
import MeiyeAgent.Generation.UsageAllowance
import MeiyeAgent.GoalProactive.CampaignTurns
import MeiyeAgent.Harness.BoundedRuns
import MeiyeAgent.Harness.CarrierReplays
import MeiyeAgent.Harness.ClosedGates
import MeiyeAgent.Harness.ConfirmedRuns
import MeiyeAgent.Harness.FactSatisfaction
import MeiyeAgent.Harness.NoteMerchant
import MeiyeAgent.JobRuntime.RepositoryAgreement
import MeiyeAgent.ModelSupply.TtsProtocol
import MeiyeAgent.Operations.ContextBundles
import MeiyeAgent.Operations.CorrectedOutcomes
import MeiyeAgent.Operations.MemoryPages
import MeiyeAgent.Operations.SelfReportAsks
import MeiyeAgent.Operations.VersionHistories
import MeiyeAgent.Payment.SettledWebhooks
import MeiyeAgent.ProductBilling.ExecutedOnce
import MeiyeAgent.ProductBilling.QuoteFacts
import MeiyeAgent.ProductBilling.SettledDeliveries
import MeiyeAgent.ProductBilling.UsageConservation
import MeiyeAgent.SupplyRegistry.BlockedTargets
import MeiyeAgent.SupplyRegistry.BootConvergence
import MeiyeAgent.SupplyRegistry.ChannelHistories
import MeiyeAgent.SupplyRegistry.FrozenCapabilities
import MeiyeAgent.SupplyRegistry.ServedCredentials
