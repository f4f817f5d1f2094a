import SpendGuard.Base.Script
import SpendGuard.Ledger.Schema

/-!
The messages between an adapter and its sidecar.
-/

namespace SpendGuard.Sidecar

open Base Ledger

inductive LlmCallOutcome
  | unspecified
  | success
  | providerError
  | clientTimeout
  | runAborted
  deriving DecidableEq

inductive PublishOutcome
  | applied
  | applyFailed
  deriving DecidableEq

/-- Amounts are decimal texts; an empty one is absent. -/
structure LlmCallPostPayload where
  reservation : String
  providerReportedAmount : String
  unit : Option String
  pricing : Option PricingSnapshot
  outcome : LlmCallOutcome
  estimatedAmount : String
  deriving DecidableEq

/-- The `LLM_CALL_POST` event. -/
structure TraceEvent where
  session : String
  run : String
  step : String
  llmCall : String
  decision : String
  payload : LlmCallPostPayload
  deriving DecidableEq

structure PublishOutcomeRequest where
  session : String
  decision : String
  effectHash : Bytes
  outcome : PublishOutcome
  adapterError : String
  deriving DecidableEq

inductive SidecarRpc
  | emitTraceEvents (e : TraceEvent)
  | confirmPublishOutcome (r : PublishOutcomeRequest)
  deriving DecidableEq

def SidecarRpc.asksRelease (decision : String) : SidecarRpc → Bool
  | .emitTraceEvents e => e.decision = decision ∧ e.payload.outcome ≠ .success
  | .confirmPublishOutcome r => r.decision = decision ∧ r.outcome = .applyFailed

def SidecarRpc.Keeps (decision : String) (c : SidecarRpc) : Prop := c.asksRelease decision = false

inductive AckStatus
  | accepted
  | rejected
  deriving DecidableEq

/-- What a call that did not fail in transport brings back; a trace stream may end without an
acknowledgement. -/
inductive SidecarReply
  | ack (status : Option AckStatus)
  | confirmed
  deriving DecidableEq

structure Status where
  message : String
  deriving DecidableEq

abbrev RpcScript := Client SidecarRpc Status SidecarReply

end SpendGuard.Sidecar
