import Rxon.Accretion
import Rxon.Annotations
import Rxon.Application
import Rxon.Assoc
import Rxon.Binary64
import Rxon.Blob
import Rxon.Canon
import Rxon.Canonicalization
import Rxon.Capacity
import Rxon.Carriers
import Rxon.Chains
import Rxon.ClassSchemas
import Rxon.ClosedSchemas
import Rxon.CommandStream
import Rxon.ComplaintPaths
import Rxon.ComplaintReadings
import Rxon.ComplaintTexts
import Rxon.Complaints
import Rxon.ConfigHash
import Rxon.Contents
import Rxon.Cuts
import Rxon.Events
import Rxon.Exchanges
import Rxon.Deliveries
import Rxon.ExtractedSchema
import Rxon.Extraction
import Rxon.ExtractionReturns
import Rxon.Factory
import Rxon.Failures
import Rxon.FieldComplaints
import Rxon.FieldPatterns
import Rxon.FieldPrefixes
import Rxon.FirstFit
import Rxon.HandlerInputs
import Rxon.HttpListener
import Rxon.HttpTransport
import Rxon.Identity
import Rxon.Indices
import Rxon.InferredSchemas
import Rxon.InputSchema
import Rxon.Interleaving
import Rxon.Json
import Rxon.JsonSchema
import Rxon.ListComplaints
import Rxon.Listener
import Rxon.Matching
import Rxon.MatchingOrder
import Rxon.Memo
import Rxon.Messages
import Rxon.Methods
import Rxon.MockTransport
import Rxon.Models
import Rxon.Msgspec
import Rxon.Offers
import Rxon.Orchestrator
import Rxon.Orjson
import Rxon.ParameterSchemas
import Rxon.PropertyRelation
import Rxon.PyVal
import Rxon.RateLimits
import Rxon.Recency
import Rxon.Reference
import Rxon.Regex
import Rxon.Requests
import Rxon.Retries
import Rxon.Rotation
import Rxon.RoundTrip
import Rxon.Routes
import Rxon.SchemaCaches
import Rxon.Security
import Rxon.SendResult
import Rxon.SetOrder
import Rxon.SharedValidators
import Rxon.SignedDeliveries
import Rxon.Signing
import Rxon.SkillContract
import Rxon.StructPath
import Rxon.Tokens
import Rxon.Translation
import Rxon.TranslationKeeps
import Rxon.TypeComplaints
import Rxon.TypeDecl
import Rxon.TypedBoundary
import Rxon.Utils
import Rxon.Validation
import Rxon.ValidatorEviction
import Rxon.Validators
import Rxon.Verification
import Rxon.WebSockets
import Rxon.Wire
import Rxon.WireMatching
import Rxon.Written
