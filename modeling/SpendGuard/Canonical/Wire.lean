import SpendGuard.Audit.CloudEvent

/-!
The messages of `AppendEvents`.
-/

namespace SpendGuard.Canonical

open Audit

inductive Route
  | unspecified
  | enforcement
  | observability
  deriving DecidableEq

structure SchemaBundleRef where
  schemaBundleId : String
  schemaBundleHash : List UInt8
  canonicalSchemaVersion : String
  deriving DecidableEq

structure AppendEventsRequest where
  producerId : String
  batchMaxProducerSequence : UInt64
  batchSignature : List UInt8
  signingKeyId : String
  schemaBundle : Option SchemaBundleRef
  events : List CloudEvent
  route : Route
  deriving DecidableEq

inductive EventStatus
  | unspecified
  | appended
  | deduped
  | awaitingPrecedingDecision
  | quarantined
  | orphanOutcome
  | duplicate
  | backpressure
  | signatureInvalid
  deriving DecidableEq

def EventStatus.text : EventStatus → String
  | .unspecified => "Unspecified"
  | .appended => "Appended"
  | .deduped => "Deduped"
  | .awaitingPrecedingDecision => "AwaitingPrecedingDecision"
  | .quarantined => "Quarantined"
  | .orphanOutcome => "OrphanOutcome"
  | .duplicate => "Duplicate"
  | .backpressure => "Backpressure"
  | .signatureInvalid => "SignatureInvalid"

structure IngestPosition where
  regionId : String
  ingestShardId : String
  ingestLogOffset : ℕ
  deriving DecidableEq

structure EventResult where
  eventId : String
  status : EventStatus
  ingestPosition : Option IngestPosition := none
  error : Option String := none
  deriving DecidableEq

end SpendGuard.Canonical
