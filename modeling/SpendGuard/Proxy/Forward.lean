import SpendGuard.Proxy.Stream
import SpendGuard.Sidecar.Wire

/-!
What the proxy asks of the sidecar once a request was let through and the provider has answered.
-/

namespace SpendGuard.Proxy

open Base Ledger Sidecar

/-- A request the sidecar answered with `CONTINUE`. -/
structure Forwarded where
  session : String
  run : String
  step : String
  llmCall : String
  decision : String
  effectHash : Bytes
  reservation : String
  unit : String
  isStreaming : Bool
  apiKind : ApiKind
  estimatedTokens : ℤ

namespace Forwarded

def event (c : Forwarded) (p : LlmCallPostPayload) : TraceEvent :=
  ⟨c.session, c.run, c.step, c.llmCall, c.decision, p⟩

def buildCommitPayload (c : Forwarded) (usage : ℤ) : LlmCallPostPayload :=
  ⟨c.reservation, "", some c.unit, none, .success, toString usage⟩

def buildReleasePayload (c : Forwarded) (outcome : LlmCallOutcome) : LlmCallPostPayload :=
  ⟨c.reservation, "", some c.unit, none, outcome, ""⟩

def confirm (c : Forwarded) (outcome : PublishOutcome) (adapterError : String) : SidecarRpc :=
  .confirmPublishOutcome ⟨c.session, c.decision, c.effectHash, outcome, adapterError⟩

def commitOnSuccess (c : Forwarded) (usage : ℤ) : RpcScript (Except Status Unit) :=
  .call (.emitTraceEvents (c.event (c.buildCommitPayload usage))) fun
    | .error e => .done (.error e)
    | .ok _ => .call (c.confirm .applied "") fun
      | .error e => .done (.error e)
      | .ok _ => .done (.ok ())

def commitRetryAttempts : ℕ := 2

/-- The commit with `retries` further attempts. -/
def commitOnSuccessWithRetry (c : Forwarded) (usage : ℤ) : ℕ → RpcScript (Except Status Unit)
  | 0 => c.commitOnSuccess usage
  | retries + 1 => (c.commitOnSuccess usage).bind fun
    | .ok () => .done (.ok ())
    | .error _ => c.commitOnSuccessWithRetry usage retries

def releaseOnUpstreamError (c : Forwarded) (outcome : LlmCallOutcome) : RpcScript Unit :=
  .call (.emitTraceEvents (c.event (c.buildReleasePayload outcome))) fun _ => .done ()

def releaseOnProxyInternalError (c : Forwarded) : RpcScript Unit :=
  .call (c.confirm .applyFailed "proxy-internal commit failure") fun _ => .done ()

/-- What the detached task commits; without an outcome the sender was lost. -/
def commitTokens (c : Forwarded) : Option UsageOutcome → Option ℤ
  | some (.parsed tokens) => some tokens
  | some .closedNoUsage => some (max c.estimatedTokens 1)
  | some .errored | none => none

/-- The task that `forward_streaming_response` spawns. -/
def commitTask (c : Forwarded) (usage : Option UsageOutcome) : RpcScript Unit :=
  match c.commitTokens usage with
  | some tokens => (c.commitOnSuccess tokens).bind fun
    | .ok () => .done ()
    | .error _ => c.releaseOnProxyInternalError
  | none => c.releaseOnUpstreamError .providerError

end Forwarded

inductive Upstream
  | sendError
  | answered (status : ℕ) (sse : Bool) (chunks : List (Except String Bytes))

def isSuccess (status : ℕ) : Bool := 200 ≤ status && status < 300

def wholeBody : List (Except String Bytes) → Except String Bytes
  | [] => .ok []
  | .error e :: _ => .error e
  | .ok chunk :: chunks => (chunk ++ ·) <$> wholeBody chunks

/-- How the request ends for the client; `none` is an error of the proxy. -/
abbrev Passthrough := Option ℕ

section Forward

variable (parseJson : String → Option Json)

/-- `forward_openai_request` from the provider's answer on. -/
def forwardOpenaiRequest (c : Forwarded) : Upstream → RpcScript Passthrough
  | .sendError => (c.releaseOnUpstreamError .providerError).bind fun _ => .done none
  | .answered status sse chunks =>
    if c.isStreaming && sse && isSuccess status then
      (c.commitTask (some (parseUsageFromSseStream parseJson c.apiKind chunks))).bind fun _ =>
        .done (some status)
    else if !c.isStreaming && sse then
      (c.releaseOnUpstreamError .providerError).bind fun _ => .done none
    else
      match wholeBody chunks with
      | .error _ => .done none
      | .ok body =>
        if !isSuccess status then
          (c.releaseOnUpstreamError .providerError).bind fun _ => .done (some status)
        else
          (c.commitOnSuccessWithRetry ((parseUsageTokens parseJson body).getD c.estimatedTokens)
            Forwarded.commitRetryAttempts).bind fun _ => .done (some status)

end Forward

section Release

variable {c : Forwarded} {answers : ℕ → Except Status SidecarReply}

theorem keeps_commitOnSuccess (usage : ℤ) :
    (c.commitOnSuccess usage).Calls (SidecarRpc.Keeps c.decision) := by
  refine ⟨by simp [SidecarRpc.Keeps, SidecarRpc.asksRelease, Forwarded.buildCommitPayload,
    Forwarded.event], fun emitted => ?_⟩
  cases emitted with
  | error e => trivial
  | ok ack =>
    refine ⟨by simp [SidecarRpc.Keeps, SidecarRpc.asksRelease, Forwarded.confirm], fun confirmed => ?_⟩
    cases confirmed <;> trivial

theorem keeps_commitOnSuccessWithRetry (usage : ℤ) (retries : ℕ) :
    (c.commitOnSuccessWithRetry usage retries).Calls (SidecarRpc.Keeps c.decision) := by
  induction retries with
  | zero => exact keeps_commitOnSuccess usage
  | succ retries ih =>
    apply (keeps_commitOnSuccess usage).bind
    intro committed
    cases committed with
    | ok _ => trivial
    | error e => exact ih

theorem commitTask_releases_iff {usage : Option UsageOutcome} {tokens : ℤ}
    (h : c.commitTokens usage = some tokens) :
    (∃ r ∈ (c.commitTask usage).sent answers, r.asksRelease c.decision = true) ↔
      ∃ e, answers 0 = .error e ∨ answers 1 = .error e := by
  have hemit : (SidecarRpc.emitTraceEvents (c.event (c.buildCommitPayload tokens))).asksRelease
      c.decision = false := by
    simp [SidecarRpc.asksRelease, Forwarded.buildCommitPayload, Forwarded.event]
  have hconfirm (outcome : PublishOutcome) (error : String) :
      (c.confirm outcome error).asksRelease c.decision = decide (outcome = .applyFailed) := by
    simp [SidecarRpc.asksRelease, Forwarded.confirm]
  rw [Forwarded.commitTask, h]
  cases h₀ : answers 0 with
  | error e =>
    simp [Forwarded.commitOnSuccess, Client.bind, h₀, Forwarded.releaseOnProxyInternalError, hconfirm]
  | ok ack =>
    cases h₁ : answers 1 with
    | error e =>
      simp [Forwarded.commitOnSuccess, Client.bind, h₀, h₁, Forwarded.releaseOnProxyInternalError,
        hconfirm]
    | ok reply => simp [Forwarded.commitOnSuccess, Client.bind, h₀, h₁, hemit, hconfirm]

theorem commitTokens_isSome {usage : UsageOutcome} (h : usage ≠ .errored) :
    ∃ tokens, c.commitTokens (some usage) = some tokens := by
  cases usage with
  | parsed tokens => exact ⟨_, rfl⟩
  | closedNoUsage => exact ⟨_, rfl⟩
  | errored => exact absurd rfl h

theorem wholeBody_isOk {chunks : List (Except String Bytes)} (h : ∀ e, .error e ∉ chunks) :
    ∃ body, wholeBody chunks = .ok body := by
  induction chunks with
  | nil => exact ⟨[], rfl⟩
  | cons chunk chunks ih =>
    cases chunk with
    | error e => exact absurd List.mem_cons_self (h e)
    | ok chunk =>
      obtain ⟨body, hbody⟩ := ih fun e he => h e (List.mem_cons_of_mem _ he)
      exact ⟨chunk ++ body, by rw [wholeBody, hbody]; rfl⟩

/-- When the provider answered with success and its body did not break off, the proxy asks for a
release exactly if it got a stream it did not ask for, or commits a stream it did ask for and a call
of that commit fails. -/
theorem release_asked_iff (parseJson : String → Option Json) {status : ℕ} {sse : Bool}
    {chunks : List (Except String Bytes)} (hstatus : isSuccess status = true)
    (hchunks : ∀ e, .error e ∉ chunks) :
    (∃ r ∈ (forwardOpenaiRequest parseJson c (.answered status sse chunks)).sent answers,
      r.asksRelease c.decision = true) ↔
      sse = true ∧ (c.isStreaming = true → ∃ e, answers 0 = .error e ∨ answers 1 = .error e) := by
  cases sse with
  | false =>
    obtain ⟨body, hbody⟩ := wholeBody_isOk hchunks
    have hkeeps := (keeps_commitOnSuccessWithRetry (c := c)
      ((parseUsageTokens parseJson body).getD c.estimatedTokens) Forwarded.commitRetryAttempts).sent answers
    simp only [forwardOpenaiRequest, hbody, hstatus, Bool.and_false, Bool.false_and, Bool.false_eq_true,
      if_false, Bool.not_true, Client.sent_bind_done, false_and, iff_false, not_exists, not_and]
    intro r hr hrelease
    have hkeep : r.asksRelease c.decision = false := hkeeps r hr
    rw [hkeep] at hrelease
    cases hrelease
  | true =>
    cases hstreaming : c.isStreaming with
    | false =>
      simp [forwardOpenaiRequest, hstreaming, Forwarded.releaseOnUpstreamError, SidecarRpc.asksRelease,
        Forwarded.event, Forwarded.buildReleasePayload]
    | true =>
      have houtcome : parseUsageFromSseStream parseJson c.apiKind chunks ≠ .errored := by
        intro herrored
        obtain ⟨e, he⟩ := (parseUsageFromSseStream_errored_iff parseJson).mp herrored
        exact hchunks e he
      obtain ⟨tokens, htokens⟩ := commitTokens_isSome (c := c) houtcome
      simp only [forwardOpenaiRequest, hstreaming, hstatus, Bool.and_true, if_true,
        Client.sent_bind_done, true_and, true_implies]
      exact commitTask_releases_iff htokens

end Release

def streamedRequest : Forwarded where
  session := "egress-proxy:run-1"
  run := "run-1"
  step := "run-1:call:1"
  llmCall := "call-1"
  decision := "decision-1"
  effectHash := []
  reservation := "reservation-1"
  unit := "unit-1"
  isStreaming := true
  apiKind := .chatCompletions
  estimatedTokens := 100

/-- A stream that ends without an error and without usage; the sidecar cannot be reached for the
first call.  The commit is not tried again and the reservation is given back. -/
theorem streamed_spend_released :
    isSuccess 200 = true ∧
    (forwardOpenaiRequest (fun _ => none) streamedRequest (.answered 200 true [])).sent
      (fun | 0 => .error ⟨"transport error"⟩ | _ => .ok .confirmed) =
      [.emitTraceEvents (streamedRequest.event (streamedRequest.buildCommitPayload 100)),
        streamedRequest.confirm .applyFailed "proxy-internal commit failure"] ∧
    (streamedRequest.confirm .applyFailed "proxy-internal commit failure").asksRelease
      streamedRequest.decision = true := by
  refine ⟨by decide, ?_, by decide⟩
  rfl

/-- The same failure at every attempt of a commit that is not streamed asks for no release. -/
theorem unstreamed_spend_kept :
    isSuccess 200 = true ∧ (∀ e, (.error e : Except String Bytes) ∉ [.ok [123, 125]]) ∧
    ¬ ∃ r ∈ (forwardOpenaiRequest (fun _ => none) { streamedRequest with isStreaming := false }
      (.answered 200 false [.ok [123, 125]])).sent (fun _ => .error ⟨"transport error"⟩),
      r.asksRelease "decision-1" = true := by
  refine ⟨by decide, by simp, ?_⟩
  intro h
  have := (release_asked_iff (c := { streamedRequest with isStreaming := false }) (fun _ => none)
    (by decide) (by simp)).mp h
  simp at this

end SpendGuard.Proxy
