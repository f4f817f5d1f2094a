import SpendGuard.Base.Base64
import SpendGuard.Base.Json
import SpendGuard.Base.Proto

/-!
The signed event, and the bytes its signature is taken over.
-/

namespace SpendGuard.Audit

open Base

structure Timestamp where
  seconds : Int64 := 0
  nanos : Int32 := 0
  deriving DecidableEq

/-- The fields 300 to 317; a float is given by its bits. -/
structure Prediction where
  predictedATokens : Int64 := 0
  predictedBTokens : Int64 := 0
  predictedCTokens : Int64 := 0
  reservedStrategy : String := ""
  predictionStrategyUsed : String := ""
  predictionPolicyUsed : String := ""
  tokenizerTier : String := ""
  tokenizerVersionId : String := ""
  predictionConfidence : UInt32 := 0
  predictionSampleSize : Int64 := 0
  coldStartLayerUsed : String := ""
  runProjectionAtDecisionAtomic : Int64 := 0
  runPredictedRemainingSteps : Int32 := 0
  runStepsCompletedSoFar : Int64 := 0
  actualInputTokens : Int64 := 0
  actualOutputTokens : Int64 := 0
  deltaBRatio : UInt32 := 0
  deltaCRatio : UInt32 := 0
  deriving DecidableEq

structure CloudEvent where
  specversion : String := ""
  type : String := ""
  source : String := ""
  id : String := ""
  time : Option Timestamp := none
  datacontenttype : String := ""
  data : List UInt8 := []
  tenantId : String := ""
  runId : String := ""
  decisionId : String := ""
  schemaBundleId : String := ""
  producerId : String := ""
  producerSequence : UInt64 := 0
  producerSignature : List UInt8 := []
  signingKeyId : String := ""
  prediction : Prediction := {}
  deriving DecidableEq

def Timestamp.fields (t : Timestamp) : Proto.Fields := [(1, Proto.int64 t.seconds), (2, Proto.int32 t.nanos)]

def Prediction.fields (p : Prediction) : Proto.Fields :=
  [(300, Proto.int64 p.predictedATokens), (301, Proto.int64 p.predictedBTokens),
    (302, Proto.int64 p.predictedCTokens), (303, Proto.string p.reservedStrategy),
    (304, Proto.string p.predictionStrategyUsed), (305, Proto.string p.predictionPolicyUsed),
    (306, Proto.string p.tokenizerTier), (307, Proto.string p.tokenizerVersionId),
    (308, Proto.float p.predictionConfidence), (309, Proto.int64 p.predictionSampleSize),
    (310, Proto.string p.coldStartLayerUsed), (311, Proto.int64 p.runProjectionAtDecisionAtomic),
    (312, Proto.int32 p.runPredictedRemainingSteps), (313, Proto.int64 p.runStepsCompletedSoFar),
    (314, Proto.int64 p.actualInputTokens), (315, Proto.int64 p.actualOutputTokens),
    (316, Proto.float p.deltaBRatio), (317, Proto.float p.deltaCRatio)]

def CloudEvent.envelope (e : CloudEvent) : Proto.Fields :=
  [(1, Proto.string e.specversion), (2, Proto.string e.type), (3, Proto.string e.source),
    (4, Proto.string e.id), (5, Proto.message (e.time.map Timestamp.fields)),
    (6, Proto.string e.datacontenttype), (7, Proto.bytes e.data), (100, Proto.string e.tenantId),
    (101, Proto.string e.runId), (102, Proto.string e.decisionId), (103, Proto.string e.schemaBundleId),
    (200, Proto.string e.producerId), (201, Proto.uint64 e.producerSequence),
    (202, Proto.bytes e.producerSignature), (203, Proto.string e.signingKeyId)]

def CloudEvent.fields (e : CloudEvent) : Proto.Fields := e.envelope ++ e.prediction.fields

def base64 (data : List UInt8) : String := String.ofList (Base64.encode data)

def CloudEvent.envelopePayload (e : CloudEvent) : List (String × Json) :=
  [("specversion", .str e.specversion), ("type", .str e.type), ("source", .str e.source), ("id", .str e.id),
    ("time_seconds", .int (e.time.getD {}).seconds.toInt), ("time_nanos", .int (e.time.getD {}).nanos.toInt),
    ("datacontenttype", .str e.datacontenttype), ("data_b64", .str (base64 e.data)),
    ("tenantid", .str e.tenantId), ("runid", .str e.runId), ("decisionid", .str e.decisionId),
    ("schema_bundle_id", .str e.schemaBundleId), ("producer_id", .str e.producerId),
    ("producer_sequence", .int e.producerSequence.toNat), ("signing_key_id", .str e.signingKeyId)]

def canonicalBytesProto (e : CloudEvent) : List UInt8 := Proto.encode { e with producerSignature := [] }.fields

def canonicalBytesJson (e : CloudEvent) : List UInt8 := (Json.render (.obj e.envelopePayload)).toUTF8.data.toList

def CloudEvent.ledgerMinted (e : CloudEvent) : Bool := "ledger:".toList.isPrefixOf e.producerId.toList

def canonicalBytes (e : CloudEvent) : List UInt8 :=
  if e.ledgerMinted then canonicalBytesJson e else canonicalBytesProto e

def Prediction.sent (p : Prediction) : Prediction :=
  { p with
    predictionConfidence := Proto.sentBits p.predictionConfidence
    deltaBRatio := Proto.sentBits p.deltaBRatio
    deltaCRatio := Proto.sentBits p.deltaCRatio }

def CloudEvent.content (e : CloudEvent) : CloudEvent :=
  { e with producerSignature := [], prediction := e.prediction.sent }

theorem Timestamp.fields_injective : Function.Injective Timestamp.fields := by
  intro s t h
  simp only [fields, List.cons.injEq, Prod.mk.injEq, true_and, and_true] at h
  cases s
  cases t
  simp_all [Proto.int64_injective.eq_iff, Proto.int32_injective.eq_iff]

theorem Timestamp.numbers_fields (t : Timestamp) : t.fields.map Prod.fst = [1, 2] := rfl

theorem encode_timestamp_injective : Function.Injective fun t : Timestamp => Proto.encode t.fields :=
  fun s t h => Timestamp.fields_injective
    (Proto.eq_of_encode s.numbers_fields t.numbers_fields (by decide) h)

theorem Prediction.sent_of_fields {p q : Prediction} (h : p.fields = q.fields) : p.sent = q.sent := by
  simp only [fields, List.cons.injEq, Prod.mk.injEq, true_and, and_true, Proto.int64_injective.eq_iff,
    Proto.int32_injective.eq_iff, Proto.string_injective.eq_iff] at h
  obtain ⟨ha, hb, hc, hreserved, hstrategy, hpolicy, htier, hversion, hconfidence, hsample, hlayer,
    hprojection, hremaining, hsteps, hinput, houtput, hdeltaB, hdeltaC⟩ := h
  simp only [sent, ha, hb, hc, hreserved, hstrategy, hpolicy, htier, hversion, hsample, hlayer, hprojection,
    hremaining, hsteps, hinput, houtput, Proto.sentBits_of_float hconfidence,
    Proto.sentBits_of_float hdeltaB, Proto.sentBits_of_float hdeltaC]

theorem Prediction.fields_sent (p : Prediction) : p.sent.fields = p.fields := by
  have hfloat (bits : UInt32) : Proto.float (Proto.sentBits bits) = Proto.float bits := by
    simp only [Proto.float, Proto.sentBits]
    split_ifs <;> rfl
  simp only [fields, sent, hfloat]

theorem message_timestamp_injective :
    Function.Injective fun t : Option Timestamp => Proto.message (t.map Timestamp.fields) := by
  intro s t h
  simp only [Proto.message, Option.map_map] at h
  exact Option.map_injective (fun a b hab => encode_timestamp_injective (Proto.Payload.len.inj hab)) h

def CloudEvent.numbers : List ℕ :=
  [1, 2, 3, 4, 5, 6, 7, 100, 101, 102, 103, 200, 201, 202, 203] ++ (List.range 18).map (300 + ·)

theorem CloudEvent.numbers_fields (e : CloudEvent) : e.fields.map Prod.fst = CloudEvent.numbers := rfl

theorem content_of_canonicalBytesProto {a b : CloudEvent}
    (h : canonicalBytesProto a = canonicalBytesProto b) : a.content = b.content := by
  have hfields := Proto.eq_of_encode (CloudEvent.numbers_fields _) (CloudEvent.numbers_fields _)
    (by decide) h
  obtain ⟨henvelope, hprediction⟩ := List.append_inj hfields rfl
  simp only [CloudEvent.envelope, List.cons.injEq, Prod.mk.injEq, true_and, and_true,
    Proto.uint64_injective.eq_iff, Proto.bytes_injective.eq_iff, Proto.string_injective.eq_iff,
    message_timestamp_injective.eq_iff] at henvelope
  obtain ⟨hspec, htype, hsource, hid, htime, hcontent, hdata, htenant, hrun, hdecision, hschema, hproducer,
    hsequence, hkey⟩ := henvelope
  simp only [CloudEvent.content, hspec, htype, hsource, hid, htime, hcontent, hdata, htenant, hrun, hdecision,
    hschema, hproducer, hsequence, hkey, Prediction.sent_of_fields hprediction]

theorem canonicalBytesJson_ne_proto (a b : CloudEvent) : canonicalBytesJson a ≠ canonicalBytesProto b := by
  intro h
  apply Proto.head?_encode_ne { b with producerSignature := [] }.fields
  rw [← canonicalBytesProto, ← h]
  exact Json.head?_render_obj _

/-- A signature scheme: key, message, signature and the time the event claims. -/
abbrev Verifier := String → List UInt8 → List UInt8 → Option Timestamp → Bool

def verifyCloudevent (v : Verifier) (e : CloudEvent) : Bool :=
  v e.signingKeyId (canonicalBytes e) e.producerSignature e.time

def Verifier.Unforgeable (v : Verifier) (signed : CloudEvent → Prop) : Prop :=
  ∀ key message signature time, v key message signature time = true →
    ∃ e, signed e ∧ canonicalBytes e = message

theorem content_of_canonicalBytes {a b : CloudEvent} (ha : a.ledgerMinted = false)
    (h : canonicalBytes a = canonicalBytes b) : a.content = b.content := by
  unfold canonicalBytes at h
  rw [ha] at h
  cases hb : b.ledgerMinted with
  | false => exact content_of_canonicalBytesProto (by simpa [hb] using h)
  | true => exact absurd (by simpa [hb] using h.symm) (canonicalBytesJson_ne_proto b a)

theorem canonicalBytes_prediction {a : CloudEvent} (ha : a.ledgerMinted = true) (p : Prediction) :
    canonicalBytes { a with prediction := p } = canonicalBytes a := by
  have hp : { a with prediction := p }.ledgerMinted = true := ha
  simp only [canonicalBytes, ha, hp, if_true]
  rfl

/-- The bytes that are signed determine the event exactly if the ledger did not mint it; then an event
that verifies is one that was signed. -/
theorem signature_covers_iff (a : CloudEvent) (htime : a.time.isSome = true) :
    ((∀ b : CloudEvent, b.time.isSome = true → canonicalBytes a = canonicalBytes b → a.content = b.content) ↔
      a.ledgerMinted = false) ∧
    (a.ledgerMinted = false → ∀ (v : Verifier) (signed : CloudEvent → Prop), v.Unforgeable signed →
      verifyCloudevent v a = true → ∃ e, signed e ∧ e.content = a.content) := by
  refine ⟨⟨fun hcovers => ?_, fun ha b _ => content_of_canonicalBytes ha⟩, fun ha v signed hv hverified => ?_⟩
  · cases ha : a.ledgerMinted with
    | false => rfl
    | true =>
      let p := { a.prediction with predictedATokens := a.prediction.predictedATokens + 1 }
      have hcontent := congrArg (·.prediction.predictedATokens)
        (hcovers { a with prediction := p } htime (canonicalBytes_prediction ha p).symm)
      simp [CloudEvent.content, Prediction.sent, p] at hcontent
  · obtain ⟨e, he, hbytes⟩ := hv _ _ _ _ hverified
    exact ⟨e, he, (content_of_canonicalBytes ha hbytes.symm).symm⟩

def mintedEvent : CloudEvent where
  specversion := "1.0"
  type := "spendguard.audit.decision"
  source := "ledger://server-mint"
  id := "01999d4f-1234-7000-8000-000000000001"
  time := some { seconds := 1700000000 }
  datacontenttype := "application/json"
  data := [123, 125]
  producerId := "ledger:server-mint"
  producerSequence := 42

/-- The prediction of an event of the ledger can be exchanged under its signature. -/
theorem minted_prediction_unsigned :
    let altered := { mintedEvent with prediction := { predictedATokens := 1000000 } }
    mintedEvent.time.isSome = true ∧ canonicalBytes mintedEvent = canonicalBytes altered ∧
      mintedEvent.content ≠ altered.content := by
  have hminted : mintedEvent.ledgerMinted = true := by decide +kernel
  exact ⟨rfl, (canonicalBytes_prediction hminted _).symm, by decide⟩

def sidecarEvent : CloudEvent := { mintedEvent with producerId := "sidecar:wl-1" }

/-- The signature of a sidecar covers all of its events. -/
theorem sidecar_signature_covers :
    sidecarEvent.ledgerMinted = false ∧
      ∀ b : CloudEvent, b.time.isSome = true → canonicalBytes sidecarEvent = canonicalBytes b →
        sidecarEvent.content = b.content := by
  have hminted : sidecarEvent.ledgerMinted = false := by decide +kernel
  exact ⟨hminted, (signature_covers_iff sidecarEvent rfl).1.mpr hminted⟩

end SpendGuard.Audit
