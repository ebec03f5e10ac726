import AliceBot.Library.Json
import AliceBot.Library.Text
import AliceBot.Library.Effect
import AliceBot.Library.Table
import AliceBot.Library.PointerGraph
import AliceBot.Library.Succession
import AliceBot.ProjectScope
import AliceBot.PromotionPolicy
import AliceBot.AgentControl
import AliceBot.CommitPolicy
import AliceBot.PolicyGuarantees
import AliceBot.Timestamps
import AliceBot.RedactionGuard
import AliceBot.EventWriters
import AliceBot.RedactionSafety
import AliceBot.Lifecycle
import AliceBot.MemoryStore
import AliceBot.MemoryCommit
import AliceBot.MemoryLifecycle
import AliceBot.Consolidation
import AliceBot.StoreLaws
import AliceBot.ConsolidationReview
import AliceBot.ServiceCalls
import AliceBot.Supersession
import AliceBot.SupersessionChain
import AliceBot.ConsolidationAcceptance
import AliceBot.CommitTruthfulness
import AliceBot.Quarantine
import AliceBot.AgentKeys
import AliceBot.RedactionBundle
import AliceBot.ReviewSafety
import AliceBot.IdempotencyKeys
import AliceBot.BatchImport
import AliceBot.CaptureDedupe
import AliceBot.ReadFilter
import AliceBot.DerivedCards
import AliceBot.ResponseJobs
import AliceBot.SchedulerFences
import AliceBot.TaskRunRaces
import AliceBot.TaskStepGraph
import AliceBot.TaskRunLimits
import AliceBot.Library.NameLookup
import AliceBot.EntityLinking
import AliceBot.EntityReplay
import AliceBot.EntityHistory
import AliceBot.DateNormalisers
import AliceBot.TemporalSpans
import AliceBot.ExpiryReversal
import AliceBot.WorkflowDigest
import AliceBot.CurrencyGroups
import AliceBot.CurrencyGroupLaws
import AliceBot.CurrencyChains
import AliceBot.CurrencyChainLaws
import AliceBot.CurrencyTies
import AliceBot.CurrencyRegroup
import AliceBot.ExecutionBudgets
import AliceBot.ProxyRaces
import AliceBot.Library.Binary64
import AliceBot.ScopeMigration
import AliceBot.IdentityMigration
import AliceBot.Library.KeyedLists
import AliceBot.Library.Promotion
import AliceBot.RetrievalRows
import AliceBot.FilteredPrefix
import AliceBot.RankFusion
import AliceBot.RankFusionLaws
import AliceBot.InstanceDiversity
import AliceBot.PackOrdering
import AliceBot.Library.Lines
import AliceBot.Excerpts
import AliceBot.Library.GreedyPack
import AliceBot.TextChunks
import AliceBot.ChunkSections
import AliceBot.Library.DepthFirst
import AliceBot.ConversationOrder
import AliceBot.ConversationTranscripts
import AliceBot.ConversationImport
import AliceBot.Library.SelfReport
import AliceBot.Library.JsonSize
import AliceBot.BudgetReport
import AliceBot.Library.SortedByKey
import AliceBot.VectorSearch
import AliceBot.Library.CompleteLink
import AliceBot.CohesiveClusters
import AliceBot.PromotionRecords
import AliceBot.Library.AsciiCase
import AliceBot.ProjectScopeLaws
import AliceBot.Library.MoveUp
import AliceBot.RollupPromotion
import AliceBot.Reranker
import AliceBot.SchedulerTimes
import AliceBot.Library.Regex
import AliceBot.TemporalAnchors
import AliceBot.TemporalWindows
import AliceBot.Library.Mentions
import AliceBot.StagedWrites
import AliceBot.StagedPublication
import AliceBot.RollupText
import AliceBot.RollupGroups
import AliceBot.RollupCards
import AliceBot.RollupErasure
import AliceBot.RollupScopes
import AliceBot.YearlessDates
import AliceBot.FactKeys
import AliceBot.FactKeyLaws
import AliceBot.FactAdmission
import AliceBot.FactReplay
import AliceBot.FactHistory
import AliceBot.PackSections
import AliceBot.PackBudget
import AliceBot.Library.CaseFolding
import AliceBot.ScopePredicates
import AliceBot.Library.StampedCache
import AliceBot.VectorCache
import AliceBot.VectorCacheRaces
import AliceBot.ContinuityObjects
import AliceBot.ContinuityChanges
import AliceBot.ContinuityHistory
import AliceBot.MemoryOperations
import AliceBot.MemoryOperationRuns
import AliceBot.RecapturedText
import AliceBot.Library.Loops
import AliceBot.ConnectorSync
import AliceBot.ConnectorEvidence
import AliceBot.ConnectorRuns
