import ClipTown.AdminOrm.RecordAction
import ClipTown.AdminOrm.RuntimeRole
import ClipTown.Core.Auth
import ClipTown.Core.AdmissionWindow
import ClipTown.Lib.Base64
import ClipTown.Core.ManifestChunks
import ClipTown.Core.Sync
import ClipTown.Embeddings.HybridSearch
import ClipTown.Embeddings.SearchHits
import ClipTown.Embeddings.SearchHalves
import ClipTown.Embeddings.SearchArrangement
import ClipTown.Embeddings.Dedupe
import ClipTown.Embeddings.Correlate
import ClipTown.ModelSpace.CockroachTemplate
import ClipTown.Lib.ListVectors
import ClipTown.Embeddings.Contract
import ClipTown.Embeddings.PaddedEmbedding
import ClipTown.Lib.Binary64
import ClipTown.Lib.JsonData
import ClipTown.Validation.Runtimes
import ClipTown.Validation.Public
import ClipTown.Validation.PublicAgreement
import ClipTown.Lib.DdlOutline
import ClipTown.SchemaOrm.Fragments
import ClipTown.SchemaOrm.Schema
import ClipTown.SchemaOrm.Sql
import ClipTown.SchemaOrm.EmittedText
import ClipTown.SchemaOrm.Places
import ClipTown.SchemaOrm.EmittedFile
import ClipTown.Lib.ThreeValued
import ClipTown.Lib.SqlLiterals
import ClipTown.SchemaOrm.EnumChecks
import ClipTown.SchemaOrm.KeyDiscipline
import ClipTown.Lib.SpelledNames
import ClipTown.Lib.Acronyms
import ClipTown.SchemaOrm.Identifiers
import ClipTown.SchemaOrm.ColumnVariants
import ClipTown.Lib.StoredNames
import ClipTown.SchemaOrm.DatabaseNames
import ClipTown.SchemaOrm.Containment
import ClipTown.SchemaOrm.ConfinedFragments
import ClipTown.SchemaOrm.CreationOrder
import ClipTown.SchemaOrm.References
import ClipTown.Core.SyncBatches
import ClipTown.ModelSpace.MatchEvents
import ClipTown.ModelSpace.ExactFusion
import ClipTown.ModelSpace.RequestedLimits
import ClipTown.Embeddings.Registry
import ClipTown.SchemaOrm.EntityKeys
import ClipTown.SchemaOrm.CommittedKeys
import ClipTown.Lib.JsonText
import ClipTown.Lib.JsonPrint
import ClipTown.SchemaOrm.StableStringify
import ClipTown.Locks.EntryKey
import ClipTown.Locks.Catalog
import ClipTown.Generated.TwoGenerators
import ClipTown.Validation.Server
import ClipTown.Validation.ServerAdmits
import ClipTown.Validation.ServerAgreement
import ClipTown.Lib.Blanking
import ClipTown.Lib.RustLexer
import ClipTown.FpConformance.StripNoise
import ClipTown.FpConformance.VisibleCode
import ClipTown.Lib.Patterns
import ClipTown.Lib.SqlPieces
import ClipTown.DesiredSql.Lint
import ClipTown.DesiredSql.Statements
import ClipTown.DesiredSql.LintSoundness
import ClipTown.Lib.ByteHash
import ClipTown.Lib.Interaction
import ClipTown.Lib.Tenures
import ClipTown.Locks.LockKey
import ClipTown.Locks.Plan
import ClipTown.Locks.LockError
import ClipTown.Locks.Routines
import ClipTown.Locks.PlanConformance
import ClipTown.Locks.Retryable
import ClipTown.Locks.Environment
import ClipTown.Locks.Protocol
import ClipTown.Locks.Custody
import ClipTown.Locks.Exclusion
import ClipTown.Locks.PoolInv
import ClipTown.Locks.Settlement
import ClipTown.Locks.FiduciaLease
import ClipTown.Lib.Matching
import ClipTown.Locks.GleamRoutines
import ClipTown.Locks.GleamAgreement
import ClipTown.AdminOrm.Progress
import ClipTown.Embeddings.AlertMatch
import ClipTown.Generated.CheckFixpoint
import ClipTown.Generated.FrozenTrees
import ClipTown.Core.SealedRecords
