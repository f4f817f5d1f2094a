import SpendGuard.Base.Json
import SpendGuard.Base.Text
import SpendGuard.Ledger.Schema

/-!
The proxy's reader of a tee'd SSE stream: it buffers the chunks, cuts them into events and keeps the
last usage it sees.  How JSON text is parsed is a parameter.
-/

namespace SpendGuard.Proxy

open Base Ledger

inductive ApiKind
  | chatCompletions
  | responses
  deriving DecidableEq

inductive UsageOutcome
  | parsed (tokens : ℤ)
  | closedNoUsage
  | errored
  deriving DecidableEq

/-- The first window of the buffer that is `pat`. -/
def position (pat : Bytes) : Bytes → Option ℕ
  | [] => none
  | b :: bs => if pat.isPrefixOf (b :: bs) then some 0 else (position pat bs).map (· + 1)

def lfLf : Bytes := [10, 10]

def crLf : Bytes := [13, 10]

def findEventBoundary (buf : Bytes) : Option ℕ :=
  match position lfLf buf, position (crLf ++ crLf) buf with
  | some a, some b => some (min a b)
  | some a, none => some a
  | none, some b => some b
  | none, none => none

theorem position_lt {pat buf : Bytes} {n : ℕ} (h : position pat buf = some n) : n < buf.length := by
  induction buf generalizing n with
  | nil => cases h
  | cons b bs ih =>
    rw [position] at h
    split at h
    · cases h
      simp
    · obtain ⟨m, hm, rfl⟩ := Option.map_eq_some_iff.mp h
      simpa using ih hm

theorem findEventBoundary_lt {buf : Bytes} {n : ℕ} (h : findEventBoundary buf = some n) :
    n < buf.length := by
  unfold findEventBoundary at h
  split at h
  · next ha hb =>
    cases h
    exact Nat.lt_of_le_of_lt (Nat.min_le_left _ _) (position_lt ha)
  · next ha _ =>
    cases h
    exact position_lt ha
  · next _ hb =>
    cases h
    exact position_lt hb
  · cases h

/-- What is left of the buffer behind the event that ends at `boundary` and its separator. -/
def afterEvent (buf : Bytes) (boundary : ℕ) : Bytes :=
  let rest := buf.drop boundary
  let sepLen := if boundary < rest.length ∧ rest.take 2 = crLf then 4 else 2
  rest.drop (min sepLen rest.length)

theorem afterEvent_length_lt {buf : Bytes} {boundary : ℕ} (h : boundary < buf.length) :
    (afterEvent buf boundary).length < buf.length := by
  simp only [afterEvent, List.length_drop]
  split <;> omega

section Usage

variable (parseJson : String → Option Json)

/-- The `data:` lines of an event, joined; `[DONE]` ends the reading. -/
def dataPayload : List (List Char) → List Char → Option (List Char)
  | [], payload => some payload
  | line :: lines, payload =>
    match stripFront "data:".toList line with
    | none => dataPayload lines payload
    | some rest =>
      let l := rest.dropWhile isWhitespace
      if l = "[DONE]".toList then none else dataPayload lines (payload ++ l)

def totalTokens (usage : Json) : Option ℤ := usage.get? "total_tokens" >>= Json.asI64?

/-- A reversed line without the `\r` in front of its terminator. -/
def dropCr : List Char → List Char
  | '\r' :: line => line
  | line => line

/-- `str::lines`: a line ends in `\n` or `\r\n`, and there is none behind the last terminator.  `line` holds
what has been read of the current one, in reverse. -/
def linesFrom : List Char → List Char → List (List Char)
  | [], [] => []
  | line, [] => [line.reverse]
  | line, '\n' :: text => (dropCr line).reverse :: linesFrom [] text
  | line, c :: text => linesFrom (c :: line) text

def textLines (s : String) : List (List Char) := linesFrom [] s.toList

/-- `parse_usage_from_event` and `parse_usage_from_responses_event`. -/
def parseUsageFromEvent (kind : ApiKind) (event : Bytes) : Option ℤ := do
  let s ← String.fromUTF8? (ByteArray.mk event.toArray)
  let payload ← dataPayload (textLines s) []
  if payload.isEmpty then none else
    let v ← parseJson (String.ofList payload)
    match kind with
    | .chatCompletions => v.get? "usage" >>= totalTokens
    | .responses => v.get? "response" >>= (·.get? "usage") >>= totalTokens

/-- Cut off the events that are complete; `last` is the last usage seen. -/
def drainEvents (kind : ApiKind) (buf : Bytes) (last : Option ℤ) : Bytes × Option ℤ :=
  match _h : findEventBoundary buf with
  | none => (buf, last)
  | some boundary =>
    drainEvents kind (afterEvent buf boundary)
      ((parseUsageFromEvent parseJson kind (buf.take boundary)).or last)
termination_by buf.length
decreasing_by exact afterEvent_length_lt (findEventBoundary_lt ‹_›)

def readChunks (kind : ApiKind) : List (Except String Bytes) → Bytes → Option ℤ → UsageOutcome
  | [], _, some tokens => .parsed tokens
  | [], _, none => .closedNoUsage
  | .error _ :: _, _, _ => .errored
  | .ok chunk :: chunks, buf, last =>
    let (buf, last) := drainEvents parseJson kind (buf ++ chunk) last
    readChunks kind chunks buf last

def parseUsageFromSseStream (kind : ApiKind) (chunks : List (Except String Bytes)) : UsageOutcome :=
  readChunks parseJson kind chunks [] none

def parseUsageTokens (body : Bytes) : Option ℤ := do
  let s ← String.fromUTF8? (ByteArray.mk body.toArray)
  let v ← parseJson s
  v.get? "usage" >>= totalTokens

theorem parseUsageFromSseStream_errored_iff {kind : ApiKind} {chunks : List (Except String Bytes)} :
    parseUsageFromSseStream parseJson kind chunks = .errored ↔ ∃ e, .error e ∈ chunks := by
  suffices ∀ buf last, readChunks parseJson kind chunks buf last = .errored ↔ ∃ e, .error e ∈ chunks from
    this [] none
  induction chunks with
  | nil => intro buf last; cases last <;> simp [readChunks]
  | cons chunk chunks ih =>
    intro buf last
    cases chunk with
    | error e => simp [readChunks]
    | ok chunk => simp [readChunks, ih]

end Usage

end SpendGuard.Proxy
