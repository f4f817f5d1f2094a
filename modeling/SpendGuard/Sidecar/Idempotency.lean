import SpendGuard.Sidecar.Request
import SpendGuard.Sidecar.Server

/-!
`RequestDecision` up to the decision itself: the cache that answers a repeated request, keyed by the
caller's idempotency key and guarded by a fingerprint of the whole request.
-/

namespace SpendGuard.Sidecar

open Base Ledger

inductive Decision
  | unspecified
  | continued
  | degrade
  | skip
  | stop
  | requireApproval
  | stopRunProjection
  deriving DecidableEq

structure DecisionResponse where
  decisionId : String
  auditDecisionEventId : String := ""
  decision : Decision
  reasonCodes : List String := []
  matchedRuleIds : List String := []
  mutationPatchJson : String := ""
  effectHash : Bytes := []
  ledgerTransactionId : String := ""
  reservationIds : List String := []
  ttlExpiresAt : Option ℕ := none
  approvalRequestId : String := ""
  terminal : Bool := false
  runCodeTriggered : String := ""
  deriving DecidableEq

structure CacheEntry where
  requestFingerprint : Bytes
  response : DecisionResponse
  insertedAt : ℕ

/-- The keys of `map` in the order of their insertion are `order`. -/
structure IdempotencyCache where
  map : List (String × CacheEntry)
  order : List String
  capacity : ℕ
  ttlSecs : ℕ

inductive Lookup
  | hit (r : DecisionResponse)
  | miss
  | conflict (existing : Bytes)
  deriving DecidableEq

namespace IdempotencyCache

variable (c : IdempotencyCache) (now : ℕ) (key : String)

def slot? : Option CacheEntry := c.map.lookup key

def retained : Bool := (c.slot? key).any fun e => (now - e.insertedAt) / 1000000 ≤ c.ttlSecs

def get (fingerprint : Bytes) : Lookup × IdempotencyCache :=
  match c.slot? key with
  | some e =>
    if (now - e.insertedAt) / 1000000 ≤ c.ttlSecs then
      (if e.requestFingerprint = fingerprint then .hit e.response else .conflict e.requestFingerprint, c)
    else
      (.miss, { c with map := c.map.filter (·.1 ≠ key), order := c.order.filter (· ≠ key) })
  | none => (.miss, c)

def put (fingerprint : Bytes) (r : DecisionResponse) : IdempotencyCache :=
  if (c.slot? key).isSome then
    { c with map := (key, ⟨fingerprint, r, now⟩) :: c.map.filter (·.1 ≠ key) }
  else if c.capacity ≤ c.order.length then
    match c.order with
    | [] => { c with map := (key, ⟨fingerprint, r, now⟩) :: c.map, order := [key] }
    | oldest :: order =>
      { c with
        map := (key, ⟨fingerprint, r, now⟩) :: c.map.filter (·.1 ≠ oldest)
        order := order ++ [key] }
  else { c with map := (key, ⟨fingerprint, r, now⟩) :: c.map, order := c.order ++ [key] }

variable {c now key} {fingerprint : Bytes} {r : DecisionResponse}

@[simp] theorem slot?_put : (c.put now key fingerprint r).slot? key = some ⟨fingerprint, r, now⟩ := by
  unfold put
  split_ifs
  · simp [slot?]
  · cases c.order <;> simp [slot?]
  · simp [slot?]

theorem get_of_retained {e : CacheEntry} (he : c.slot? key = some e) (h : c.retained now key = true) :
    c.get now key fingerprint =
      (if e.requestFingerprint = fingerprint then .hit e.response else .conflict e.requestFingerprint, c) := by
  have hlive : (now - e.insertedAt) / 1000000 ≤ c.ttlSecs := by simpa [retained, he] using h
  simp [get, he, hlive]

theorem get_eq_hit {c' : IdempotencyCache} (h : c.get now key fingerprint = (.hit r, c')) :
    ∃ t, c'.slot? key = some ⟨fingerprint, r, t⟩ := by
  unfold get at h
  cases he : c.slot? key with
  | none => simp [he] at h
  | some e =>
    simp only [he] at h
    split_ifs at h with hlive hsame
    · cases h
      exact ⟨e.insertedAt, by rw [he, ← hsame]⟩
    · cases h
    · cases h

end IdempotencyCache

def be64 (n : ℕ) : Bytes := (List.range 8).map fun i => UInt8.ofNat (n / 256 ^ (7 - i))

@[simp] theorem length_be64 (n : ℕ) : (be64 n).length = 8 := by simp [be64]

structure SidecarConfig where
  tenant : String
  region : String

structure Codec where
  encode : DecisionRequest → Bytes
  sha256 : Bytes → Bytes

def fingerprintInput (cfg : SidecarConfig) (encoded : Bytes) : Bytes :=
  "spendguard.sidecar.decision_idempotency_request.v1:".toUTF8.toList ++
    (be64 cfg.tenant.utf8ByteSize ++ (cfg.tenant.toUTF8.toList ++
      (be64 cfg.region.utf8ByteSize ++ (cfg.region.toUTF8.toList ++ (be64 encoded.length ++ encoded)))))

def idempotencyRequestFingerprint (codec : Codec) (cfg : SidecarConfig) (req : DecisionRequest) : Bytes :=
  codec.sha256 (fingerprintInput cfg (codec.encode req))

theorem fingerprintInput_injective (cfg : SidecarConfig) : Function.Injective (fingerprintInput cfg) := by
  intro x y h
  simp only [fingerprintInput, List.append_cancel_left_eq] at h
  exact (List.append_inj h (by simp)).2

theorem fingerprint_eq_iff {codec : Codec} {cfg : SidecarConfig} {req req' : DecisionRequest}
    (hsha : Function.Injective codec.sha256) :
    idempotencyRequestFingerprint codec cfg req = idempotencyRequestFingerprint codec cfg req' ↔
      codec.encode req = codec.encode req' := by
  unfold idempotencyRequestFingerprint
  rw [hsha.eq_iff, (fingerprintInput_injective cfg).eq_iff]

inductive DecisionError
  | draining
  | invalidRequest (message : String)
  | idempotencyConflict (existing current : Bytes)
  | domain (e : DomainError)

/-- The sidecar as `RequestDecision` meets it; `rest` is what the decision itself reads and changes. -/
structure DecisionServer (σ : Type) where
  draining : Bool
  fencing : Option ActiveFencing
  cache : IdempotencyCache
  rest : σ

section Serve

variable {σ : Type} (codec : Codec) (cfg : SidecarConfig)
  (runThroughReserve : ℕ → DecisionRequest → σ → Except DomainError DecisionResponse × σ)

def decideAndCache (now : ℕ) (s : DecisionServer σ) (key : String) (fingerprint : Bytes)
    (req : DecisionRequest) : Except DecisionError DecisionResponse × DecisionServer σ :=
  match found s.fencing (.fencingAcquire "no active fencing scope") >>= checkActive now with
  | .error e => (.error (.domain e), s)
  | .ok () =>
    match runThroughReserve now req s.rest with
    | (.error e, rest) => (.error (.domain e), { s with rest := rest })
    | (.ok r, rest) => (.ok r, { s with rest := rest, cache := s.cache.put now key fingerprint r })

def DecisionRequest.key (req : DecisionRequest) : String := (req.idempotency.map (·.key)).getD ""

def requestDecision (now : ℕ) (s : DecisionServer σ) (req : DecisionRequest) :
    Except DecisionError DecisionResponse × DecisionServer σ :=
  if s.draining then (.error .draining, s)
  else if req.key = "" then
    (.error (.invalidRequest "DecisionRequest.idempotency.key required"), s)
  else
    let fingerprint := idempotencyRequestFingerprint codec cfg req
    match s.cache.get now req.key fingerprint with
    | (.hit r, cache) => (.ok r, { s with cache := cache })
    | (.conflict existing, cache) =>
      (.error (.idempotencyConflict existing fingerprint), { s with cache := cache })
    | (.miss, cache) =>
      decideAndCache runThroughReserve now { s with cache := cache } req.key fingerprint req

variable {codec cfg runThroughReserve} {now : ℕ} {s s' : DecisionServer σ} {req : DecisionRequest}
  {r : DecisionResponse}

theorem entry_of_answered (h : requestDecision codec cfg runThroughReserve now s req = (.ok r, s')) :
    ∃ t, s'.cache.slot? req.key = some ⟨idempotencyRequestFingerprint codec cfg req, r, t⟩ := by
  unfold requestDecision at h
  split_ifs at h with hdraining hkey
  · cases h
  · cases h
  · cases hget : s.cache.get now req.key (idempotencyRequestFingerprint codec cfg req) with
    | mk found cache =>
      simp only [hget] at h
      cases found with
      | hit r' =>
        cases h
        exact IdempotencyCache.get_eq_hit hget
      | conflict existing => cases h
      | miss =>
        simp only [decideAndCache] at h
        split at h
        · cases h
        · split at h
          · cases h
          · cases h
            exact ⟨now, IdempotencyCache.slot?_put⟩

theorem requestDecision_of_retained {e : CacheEntry} (he : s.cache.slot? req.key = some e)
    (hretained : s.cache.retained now req.key = true) (hkey : req.key ≠ "") :
    requestDecision codec cfg runThroughReserve now s req =
      if s.draining then (.error .draining, s)
      else if e.requestFingerprint = idempotencyRequestFingerprint codec cfg req then (.ok e.response, s)
      else (.error (.idempotencyConflict e.requestFingerprint
        (idempotencyRequestFingerprint codec cfg req)), s) := by
  simp only [requestDecision, if_neg hkey, IdempotencyCache.get_of_retained he hretained]
  split_ifs <;> rfl

end Serve

end SpendGuard.Sidecar
