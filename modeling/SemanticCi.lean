import SemanticCi.Verification.Delta.StateLocks
import SemanticCi.Verification.Delta.Ratchet
import SemanticCi.Verification.Delta.Flip
import SemanticCi.Verification.Delta.Rebuild
import SemanticCi.Verification.Delta.Reorder
import SemanticCi.Verification.Delta.Complexity
import SemanticCi.Verification.Delta.Numstat
import SemanticCi.Verification.Dependencies.Versions
import SemanticCi.Verification.Dependencies.Pinned
import SemanticCi.Verification.Ssp.FailClosed
import SemanticCi.Verification.Evaluator.Timeout
import SemanticCi.Verification.Hazards.LockOnly
import SemanticCi.Verification.Hazards.PositiveAddition
import SemanticCi.Verification.Cache.Coherence
import SemanticCi.Verification.Ssp.Order
import SemanticCi.Verification.Sensor.Adapters
import SemanticCi.Verification.Report.Sarif
import SemanticCi.Verification.Extraction.Masking
import SemanticCi.Verification.Extraction.Checkout
import SemanticCi.Verification.AllowedKeys
import SemanticCi.Verification.Sensor.Ensemble
import SemanticCi.Verification.Sensor.Reprojection
import SemanticCi.Verification.Extraction.Excluding
import SemanticCi.Verification.Extraction.ModuleGraph
import SemanticCi.Verification.Extraction.Parity
import SemanticCi.Verification.Repair.RiskSummary
import SemanticCi.Verification.Extraction.Aliases
import SemanticCi.Verification.Extraction.CallEffects
import SemanticCi.Verification.Repair.Operands
import SemanticCi.Verification.Extraction.Cyclomatic
import SemanticCi.Verification.Extraction.Cognitive
import SemanticCi.Verification.Cache.Eviction
import SemanticCi.Verification.Ssp.ScopeSearch
import SemanticCi.Verification.Authoring.Extracted
import SemanticCi.Verification.Report.GhActions
import SemanticCi.Verification.Sensor.Union
import SemanticCi.Verification.Sensor.Ordinals
