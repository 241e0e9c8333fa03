import RagForge.Interleave
import RagForge.Ingestion
import RagForge.Retrieval
import RagForge.ChatTurns
import RagForge.TenantIsolation
import RagForge.DeletionRaces
import RagForge.ChunkAccounts
import RagForge.CacheCoherence
import RagForge.StorageIsolation
import RagForge.IngestionRaces
import RagForge.IngestionFailure
import RagForge.AuthService
import RagForge.TokenRaces
import RagForge.BrowserSession
import RagForge.LogoutFinality
import RagForge.EventStream
import RagForge.KeywordSearch
import RagForge.CitationLifetime
import RagForge.Redelivery
import RagForge.JobLedger
import RagForge.RequestFailures
import RagForge.Transcripts
import RagForge.AccessControl
import RagForge.Installation
import RagForge.CitationMarkers
import RagForge.TurnUsage
import RagForge.Offboarding
import RagForge.Deactivation
import RagForge.Quota
import RagForge.StorableNames
import RagForge.SingleFlight
import RagForge.ChartTotals
import RagForge.Fusion
import RagForge.Metrics
import RagForge.Evaluator
import RagForge.CacheRecency
import RagForge.ContextAssembly
import RagForge.ConversationOrder
import RagForge.WorkspaceRoutes
import RagForge.Tokenizers
import RagForge.MetricAgreement
import RagForge.CitationExtraction
import RagForge.ReferenceScorer
import RagForge.Embeddings
import RagForge.OllamaStream
import RagForge.ContextBlock
import RagForge.LiveTranscript
import RagForge.AuditTrail
import RagForge.AuditPages
import RagForge.TokenCustody
import RagForge.StorageBackends
import RagForge.UsageScopes
import RagForge.SingleTask
import RagForge.DocumentsPage
import RagForge.TabSessions
import RagForge.Quotation
import RagForge.PageFidelity
