import SpendGuard.Base.Check
import SpendGuard.Base.Json
import SpendGuard.Base.Run

/-!
The usage poller: replicas that read a provider's usage in windows of time and store it row by row.  A replica's
cursor is kept in memory only; one that starts takes it from the latest row that is stored.
-/

namespace SpendGuard.Usage

open Base

structure UsageObservation where
  provider : String
  providerAccount : String
  providerEventId : String
  providerRequestId : Option String
  modelId : String
  observedAt : ℤ
  promptTokens : Option ℤ
  completionTokens : Option ℤ
  totalTokens : Option ℤ
  rawPayload : Json
  eventKind : String
  deriving DecidableEq

inductive PollerError
  | providerApi (message : String)
  | transient (message : String)
  | db (message : String)
  deriving DecidableEq

structure OpenAiCompletionResult where
  inputTokens : Option ℤ := none
  outputTokens : Option ℤ := none
  numModelRequests : Option ℤ := none
  projectId : Option String := none
  apiKeyId : Option String := none
  model : Option String := none
  deriving DecidableEq

structure OpenAiBucket where
  startTime : ℤ := 0
  endTime : ℤ := 0
  results : List OpenAiCompletionResult := []
  deriving DecidableEq

structure OpenAiUsagePage where
  data : List OpenAiBucket := []
  hasMore : Bool := false
  nextPage : Option String := none
  deriving DecidableEq

def second : ℤ := 1000000

def fromTimestamp (secs : ℤ) : Option ℤ :=
  if -8334601228800 ≤ secs ∧ secs ≤ 8210266876799 then some (secs * second) else none

def saturatingAdd (a b : ℤ) : ℤ := max (-2 ^ 63) (min (2 ^ 63 - 1) (a + b))

section Fetch

variable (sha256Hex : String → String) (now : ℤ)

def observation (bucket : OpenAiBucket) (r : OpenAiCompletionResult) : UsageObservation :=
  let total := saturatingAdd (r.inputTokens.getD 0) (r.outputTokens.getD 0)
  let keyparts := ":".intercalate [toString bucket.startTime, toString bucket.endTime, r.projectId.getD "noproj",
    r.apiKeyId.getD "nokey", r.model.getD "nomodel", toString (r.inputTokens.getD 0), toString (r.outputTokens.getD 0),
    toString total]
  { provider := "openai"
    providerAccount := r.projectId.getD ""
    providerEventId := sha256Hex ("v2:openai:row:" ++ keyparts)
    providerRequestId := r.apiKeyId
    modelId := r.model.getD ""
    observedAt := (fromTimestamp bucket.endTime).getD ((fromTimestamp bucket.startTime).getD now)
    promptTokens := r.inputTokens
    completionTokens := r.outputTokens
    totalTokens := some total
    rawPayload := .obj [("bucket_start", .int bucket.startTime), ("bucket_end", .int bucket.endTime),
      ("num_requests", (r.numModelRequests.map Json.int).getD .null), ("model", (r.model.map Json.str).getD .null)]
    eventKind := "completion" }

def OpenAiUsagePage.observations (page : OpenAiUsagePage) : List UsageObservation :=
  page.data.flatMap fun bucket => bucket.results.map (observation sha256Hex now bucket)

def OpenAiUsagePage.more (page : OpenAiUsagePage) : Bool := page.hasMore && page.nextPage.isSome

/-- How a request can fail; `status` is a code that is no success. -/
inductive RequestFailure
  | network (e : String)
  | status (code : ℕ) (retryAfter : Option ℕ)
  | malformed (e : String)
  deriving DecidableEq

def RequestFailure.error : RequestFailure → PollerError
  | .network e => .transient ("openai usage GET network error: " ++ e)
  | .status code retryAfter =>
    if code = 429 then .transient ("openai 429 rate limited; retry after " ++ toString (retryAfter.getD 5) ++ "s")
    else if code = 401 ∨ code = 403 then
      .providerApi ("openai auth failed (HTTP " ++ toString code ++ "); check api_key / org / project")
    else .providerApi ("openai usage GET HTTP " ++ toString code)
  | .malformed e => .providerApi ("openai usage page malformed: " ++ e)

inductive PageAnswer
  | failed (f : RequestFailure)
  | page (p : OpenAiUsagePage)

def PageAnswer.read : PageAnswer → Except PollerError OpenAiUsagePage
  | .failed f => .error f.error
  | .page p => .ok p

def maxPages : ℕ := 100

/-- The loop over the pages: `n` requests are left, `all` has been read. -/
def fetchPages : ℕ → List PageAnswer → List UsageObservation → Except PollerError (List UsageObservation)
  | 0, _, all => .ok all
  | _ + 1, [], _ => .error (RequestFailure.network "no answer").error
  | n + 1, answer :: rest, all => do
    let page ← answer.read
    let all := all ++ page.observations sha256Hex now
    if page.more then fetchPages n rest all else return all

def fetchUsage (answers : List PageAnswer) : Except PollerError (List UsageObservation) :=
  fetchPages sha256Hex now maxPages answers []

end Fetch

structure UsageRecord where
  observation : UsageObservation
  idempotencyKey : String

section Table

variable (sha256Hex : String → String)

def recordHash (o : UsageObservation) : String :=
  sha256Hex ("v1:provider_usage_record:idempotency:" ++ o.provider ++ "|account|" ++ o.providerAccount ++
    "|event_id|" ++ o.providerEventId ++ "|kind|" ++ o.eventKind)

def Stored (records : List UsageRecord) (o : UsageObservation) : Prop :=
  ∃ row ∈ records, row.idempotencyKey = recordHash sha256Hex o

instance (records : List UsageRecord) (o : UsageObservation) : Decidable (Stored sha256Hex records o) :=
  inferInstanceAs (Decidable (∃ row ∈ records, _ = _))

def persistObservation (records : List UsageRecord) (o : UsageObservation) : List UsageRecord :=
  if Stored sha256Hex records o then records else ⟨o, recordHash sha256Hex o⟩ :: records

end Table

/-- `SELECT MAX(observed_at)` of the provider; an error counts as no row. -/
def maxObserved (records : List UsageRecord) (answers : Bool) : Option ℤ :=
  if answers then
    ((records.filter (·.observation.provider = "openai")).map (·.observation.observedAt)).max?
  else none

structure PollerConfig where
  safetyLagSeconds : ℕ
  overlapMinutes : ℤ

def PollerConfig.lag (cfg : PollerConfig) : ℤ := cfg.safetyLagSeconds * second

def PollerConfig.overlap (cfg : PollerConfig) : ℤ := cfg.overlapMinutes * 60 * second

structure Batch where
  windowTo : ℤ
  pending : List UsageObservation

structure Replica where
  cursor : ℤ
  wasLeader : Bool := false
  batch : Option Batch := none

structure PollerState where
  now : ℤ
  records : List UsageRecord := []
  replicas : ℕ → Option Replica := fun _ => none
  /-- The first cursor of the first replica. -/
  first : Option ℤ := none
  /-- The ends of the windows whose cycles were ok. -/
  reported : List ℤ := []

def answersOf (pages : List OpenAiUsagePage) : Option (ℕ × RequestFailure) → List PageAnswer
  | none => pages.map .page
  | some (k, f) => (pages.take k).map .page ++ [.failed f]

/-- `answers` tells whether the database answers the query for the latest row. -/
inductive PollerEvent
  | advance (d : ℕ)
  | start (r : ℕ) (answers : Bool)
  | stop (r : ℕ)
  | skip (r : ℕ)
  | fetch (r : ℕ) (answers : Bool) (pages : List OpenAiUsagePage) (failure : Option (ℕ × RequestFailure))
  | persist (r : ℕ)
  | persistFails (r : ℕ)
  | finish (r : ℕ)
  deriving DecidableEq

def seed (cfg : PollerConfig) (s : PollerState) (answers : Bool) : ℤ :=
  match maxObserved s.records answers with
  | some t => min t (s.now - cfg.lag)
  | none => s.now - cfg.lag

/-- The cursor of a leader, which one that was none before takes back to the latest row. -/
def Replica.resumed (rep : Replica) (records : List UsageRecord) (answers : Bool) : ℤ :=
  if rep.wasLeader then rep.cursor
  else
    match maxObserved records answers with
    | some t => min rep.cursor t
    | none => rep.cursor

def PollerState.set (s : PollerState) (r : ℕ) (rep : Option Replica) : PollerState :=
  { s with replicas := Function.update s.replicas r rep }

section Steps

variable (sha256Hex : String → String) (cfg : PollerConfig)

def PollerState.step (s : PollerState) : PollerEvent → Except String PollerState
  | .advance d => .ok { s with now := s.now + d }
  | .start r answers => do
    check (s.replicas r = none) "running"
    return { s.set r (some { cursor := seed cfg s answers }) with first := s.first.or (some (seed cfg s answers)) }
  | .stop r => .ok (s.set r none)
  | .skip r => do
    let rep ← found (s.replicas r) "not running"
    check (rep.batch = none) "in a cycle"
    return s.set r (some { rep with wasLeader := false })
  | .fetch r answers pages failure => do
    let rep ← found (s.replicas r) "not running"
    check (rep.batch = none) "in a cycle"
    let cursor := rep.resumed s.records answers
    match fetchUsage sha256Hex s.now (answersOf pages failure) with
    | .ok observations =>
      return s.set r (some { cursor, wasLeader := true, batch := some ⟨s.now - cfg.lag, observations⟩ })
    | .error _ => return s.set r (some { cursor, wasLeader := true })
  | .persist r => do
    let rep ← found (s.replicas r) "not running"
    match rep.batch with
    | some ⟨windowTo, o :: rest⟩ =>
      return { s.set r (some { rep with batch := some ⟨windowTo, rest⟩ }) with
        records := persistObservation sha256Hex s.records o }
    | _ => .error "nothing to store"
  | .persistFails r => do
    let rep ← found (s.replicas r) "not running"
    match rep.batch with
    | some ⟨_, _ :: _⟩ => return s.set r (some { rep with batch := none })
    | _ => .error "nothing to store"
  | .finish r => do
    let rep ← found (s.replicas r) "not running"
    match rep.batch with
    | some ⟨windowTo, []⟩ =>
      return { s.set r (some { rep with cursor := windowTo, batch := none }) with reported := windowTo :: s.reported }
    | _ => .error "rows to store"

end Steps

def Chained : List OpenAiUsagePage → Prop
  | [] => False
  | [p] => p.more = false
  | p :: q :: rest => p.more = true ∧ Chained (q :: rest)

def decidableChained : ∀ pages, Decidable (Chained pages)
  | [] => isFalse id
  | [p] => inferInstanceAs (Decidable (p.more = false))
  | p :: q :: rest =>
    have := decidableChained (q :: rest)
    inferInstanceAs (Decidable (p.more = true ∧ Chained (q :: rest)))

instance : DecidablePred Chained := decidableChained

section Serving

variable {sha256Hex : String → String} {now : ℤ} {pages : List OpenAiUsagePage} {failure : Option (ℕ × RequestFailure)}
  {all result : List UsageObservation} {n k : ℕ}

theorem fetchPages_chained (h : Chained pages) (rest : List PageAnswer) :
    fetchPages sha256Hex now n (pages.map .page ++ rest) all =
      .ok (all ++ (pages.take n).flatMap (OpenAiUsagePage.observations sha256Hex now)) := by
  induction pages generalizing n all with
  | nil => cases h
  | cons p pages ih =>
    cases n with
    | zero => simp [fetchPages]
    | succ n =>
      rw [List.map_cons, List.cons_append, fetchPages, PageAnswer.read, ok_bind]
      cases pages with
      | nil =>
        have hlast : p.more = false := h
        simp [hlast]
        rfl
      | cons q pages =>
        simp only [h.1, if_true, ih h.2, List.take_succ_cons, List.flatMap_cons, List.append_assoc]

theorem fetchPages_broken (h : Chained pages) (f : RequestFailure) (hk : k < pages.length) (hn : k < n) :
    fetchPages sha256Hex now n ((pages.take k).map .page ++ [.failed f]) all = .error f.error := by
  induction pages generalizing n k all with
  | nil => cases h
  | cons p pages ih =>
    obtain ⟨n, rfl⟩ : ∃ m, n = m + 1 := ⟨n - 1, by omega⟩
    cases k with
    | zero => rfl
    | succ k =>
      rw [List.take_succ_cons, List.map_cons, List.cons_append, fetchPages, PageAnswer.read, ok_bind]
      cases pages with
      | nil => exact absurd hk (by simp)
      | cons q pages =>
        simp only [h.1, if_true]
        exact ih h.2 (by simpa using hk) (by omega)

theorem fetchUsage_ok (h : Chained pages) (hlimit : pages.length ≤ maxPages)
    (hok : fetchUsage sha256Hex now (answersOf pages failure) = .ok result) :
    result = pages.flatMap (OpenAiUsagePage.observations sha256Hex now) := by
  have hread (rest : List PageAnswer) : fetchUsage sha256Hex now (pages.map .page ++ rest) =
      .ok (pages.flatMap (OpenAiUsagePage.observations sha256Hex now)) := by
    rw [fetchUsage, fetchPages_chained h, List.take_of_length_le hlimit, List.nil_append]
  cases failure with
  | none =>
    have hread := hread []
    rw [List.append_nil] at hread
    exact Except.ok.inj (hok.symm.trans hread)
  | some p =>
    obtain ⟨k, f⟩ := p
    by_cases hk : k < pages.length
    · have hbroken : fetchUsage sha256Hex now (answersOf pages (some (k, f))) = .error f.error :=
        fetchPages_broken h f hk (by omega)
      cases hbroken.symm.trans hok
    · rw [answersOf, List.take_of_length_le (by omega)] at hok
      exact Except.ok.inj (hok.symm.trans (hread _))

end Serving

section Runs

variable (sha256Hex : String → String) (cfg : PollerConfig) (provider : List UsageObservation)

def Served (now windowFrom windowTo : ℤ) (pages : List OpenAiUsagePage) : Prop :=
  Chained pages ∧
    (∀ o ∈ pages.flatMap (OpenAiUsagePage.observations sha256Hex now),
      o ∈ provider ∧ windowFrom ≤ o.observedAt ∧ o.observedAt < windowTo) ∧
    ∀ o ∈ provider, windowFrom ≤ o.observedAt → o.observedAt < windowTo →
      o ∈ pages.flatMap (OpenAiUsagePage.observations sha256Hex now)

namespace PollerState

variable (s : PollerState)

def Honest : PollerEvent → Prop
  | .fetch r answers pages _ => ∀ rep ∈ s.replicas r,
    Served sha256Hex provider s.now (rep.resumed s.records answers - cfg.overlap) (s.now - cfg.lag) pages
  | _ => True

def Complete (c : ℤ) : Prop :=
  ∀ f ∈ s.first, ∀ o ∈ provider, f ≤ o.observedAt → o.observedAt < c → Stored sha256Hex s.records o

/-- No fetch has too many pages, and a later replica starts from a row below which nothing is missing. -/
def Resumable : PollerEvent → Prop
  | .start _ answers => s.first = none ∨
    ∃ t ∈ maxObserved s.records answers, s.Complete sha256Hex provider (t - cfg.overlap)
  | .fetch _ _ pages _ => pages.length ≤ maxPages
  | _ => True

instance : DecidablePred (s.Honest sha256Hex cfg provider)
  | .fetch r _ _ _ => inferInstanceAs (Decidable (∀ rep ∈ s.replicas r, _ ∧ _))
  | .advance _ | .start _ _ | .stop _ | .skip _ | .persist _ | .persistFails _ | .finish _ => isTrue trivial

instance (c : ℤ) : Decidable (s.Complete sha256Hex provider c) :=
  inferInstanceAs (Decidable (∀ f ∈ s.first, ∀ o ∈ provider, _ → _ → _))

instance : DecidablePred (s.Resumable sha256Hex cfg provider)
  | .start _ answers => inferInstanceAs (Decidable (_ ∨ ∃ t ∈ maxObserved s.records answers, _))
  | .fetch _ _ pages _ => inferInstanceAs (Decidable (pages.length ≤ maxPages))
  | .advance _ | .stop _ | .skip _ | .persist _ | .persistFails _ | .finish _ => isTrue trivial

def Covered (b : Batch) : Prop :=
  ∀ f ∈ s.first, ∀ o ∈ provider, f ≤ o.observedAt → o.observedAt < b.windowTo →
    Stored sha256Hex s.records o ∨ o ∈ b.pending

structure Invariant : Prop where
  started : s.first = none → (∀ r, s.replicas r = none) ∧ s.reported = []
  reported : ∀ c ∈ s.reported, s.Complete sha256Hex provider c
  cursors : ∀ r rep, s.replicas r = some rep → s.Complete sha256Hex provider (rep.cursor - cfg.overlap)
  batches : ∀ r rep b, s.replicas r = some rep → rep.batch = some b → s.Covered sha256Hex provider b

end PollerState

end Runs

namespace PollerState

variable {sha256Hex : String → String} {cfg : PollerConfig} {provider : List UsageObservation} {s s' : PollerState}
  {r : ℕ} {rep : Replica} {o : UsageObservation} {e : PollerEvent} {c d : ℤ}

theorem stored_persistObservation : Stored sha256Hex (persistObservation sha256Hex s.records o) o := by
  rw [persistObservation]
  split
  case isTrue h => exact h
  case isFalse => exact ⟨_, List.mem_cons_self .., rfl⟩

theorem stored_of_stored {o' : UsageObservation} (h : Stored sha256Hex s.records o') :
    Stored sha256Hex (persistObservation sha256Hex s.records o) o' := by
  rw [persistObservation]
  split
  case isTrue => exact h
  case isFalse =>
    obtain ⟨row, hrow, hkey⟩ := h
    exact ⟨row, List.mem_cons_of_mem _ hrow, hkey⟩

theorem Complete.mono (h : s.Complete sha256Hex provider c) (hle : d ≤ c) : s.Complete sha256Hex provider d :=
  fun f hf o ho hfrom hto => h f hf o ho hfrom (lt_of_lt_of_le hto hle)

theorem first_ne_none (hinv : s.Invariant sha256Hex cfg provider) (hr : s.replicas r = some rep) : s.first ≠ none := by
  intro hnone
  rw [(hinv.started hnone).1 r] at hr
  cases hr

theorem Invariant.set (hinv : s.Invariant sha256Hex cfg provider) (hfirst : s.first ≠ none)
    (hcursor : s.Complete sha256Hex provider (rep.cursor - cfg.overlap))
    (hbatch : ∀ b, rep.batch = some b → s.Covered sha256Hex provider b) :
    (s.set r (some rep)).Invariant sha256Hex cfg provider where
  started h := absurd h hfirst
  reported := hinv.reported
  cursors k rep' hk := by
    have hk : Function.update s.replicas r (some rep) k = some rep' := hk
    by_cases hkr : k = r
    · rw [hkr, Function.update_self] at hk
      cases hk
      exact hcursor
    · rw [Function.update_of_ne hkr] at hk
      exact hinv.cursors k rep' hk
  batches k rep' b hk hb := by
    have hk : Function.update s.replicas r (some rep) k = some rep' := hk
    by_cases hkr : k = r
    · rw [hkr, Function.update_self] at hk
      cases hk
      exact hbatch b hb
    · rw [Function.update_of_ne hkr] at hk
      exact hinv.batches k rep' b hk hb

theorem Invariant.stop (hinv : s.Invariant sha256Hex cfg provider) :
    (s.set r none).Invariant sha256Hex cfg provider where
  started h := by
    refine ⟨fun k => ?_, (hinv.started h).2⟩
    show Function.update s.replicas r none k = none
    by_cases hkr : k = r
    · rw [hkr, Function.update_self]
    · rw [Function.update_of_ne hkr]
      exact (hinv.started h).1 k
  reported := hinv.reported
  cursors k rep' hk := by
    have hk : Function.update s.replicas r none k = some rep' := hk
    by_cases hkr : k = r
    · rw [hkr, Function.update_self] at hk
      cases hk
    · rw [Function.update_of_ne hkr] at hk
      exact hinv.cursors k rep' hk
  batches k rep' b hk hb := by
    have hk : Function.update s.replicas r none k = some rep' := hk
    by_cases hkr : k = r
    · rw [hkr, Function.update_self] at hk
      cases hk
    · rw [Function.update_of_ne hkr] at hk
      exact hinv.batches k rep' b hk hb

theorem Invariant.persisted (hinv : s.Invariant sha256Hex cfg provider) (o : UsageObservation) :
    ({ s with records := persistObservation sha256Hex s.records o } : PollerState).Invariant sha256Hex cfg provider where
  started := hinv.started
  reported c hc f hf o' ho' hfrom hto := stored_of_stored (hinv.reported c hc f hf o' ho' hfrom hto)
  cursors r rep hr f hf o' ho' hfrom hto := stored_of_stored (hinv.cursors r rep hr f hf o' ho' hfrom hto)
  batches r rep b hr hb f hf o' ho' hfrom hto :=
    (hinv.batches r rep b hr hb f hf o' ho' hfrom hto).imp_left stored_of_stored

theorem resumed_le (records : List UsageRecord) (answers : Bool) : rep.resumed records answers ≤ rep.cursor := by
  rw [Replica.resumed]
  split
  · exact le_refl _
  · split
    · exact min_le_left ..
    · exact le_refl _

theorem Invariant.started_replica (hinv : s.Invariant sha256Hex cfg provider) (hoverlap : 0 ≤ cfg.overlap)
    {answers : Bool} (hmet : s.Resumable sha256Hex cfg provider (.start r answers)) :
    ({ s.set r (some { cursor := seed cfg s answers }) with first := s.first.or (some (seed cfg s answers)) } :
      PollerState).Invariant sha256Hex cfg provider := by
  cases hfirst : s.first with
  | none =>
    -- the first replica: its own cursor is where completeness begins
    obtain ⟨hnone, hreported⟩ := hinv.started hfirst
    have hreplica {k : ℕ} {rep' : Replica}
        (hk : Function.update s.replicas r (some { cursor := seed cfg s answers }) k = some rep') :
        rep' = { cursor := seed cfg s answers } := by
      by_cases hkr : k = r
      · rw [hkr, Function.update_self] at hk
        exact (Option.some.inj hk).symm
      · rw [Function.update_of_ne hkr, hnone] at hk
        cases hk
    refine ⟨nofun, ?_, ?_, ?_⟩
    · intro c hc
      have hc : c ∈ s.reported := hc
      rw [hreported] at hc
      cases hc
    · intro k rep' hk f hf o _ hfrom hto
      rw [hreplica hk] at hto
      cases hf
      exact absurd hfrom (by simp only at hto; omega)
    · intro k rep' b hk hb
      rw [hreplica hk] at hb
      cases hb
  | some f =>
    obtain hnone | ⟨t, ht, hcomplete⟩ := hmet
    · rw [hfirst] at hnone
      cases hnone
    · have hseed : seed cfg s answers ≤ t := by
        rw [seed, ht]
        exact min_le_left ..
      have hset : (s.set r (some { cursor := seed cfg s answers })).Invariant sha256Hex cfg provider :=
        hinv.set (by rw [hfirst]; simp) (hcomplete.mono (by simp only; omega)) nofun
      have hsame : s.first = (some f).or (some (seed cfg s answers)) := hfirst
      rw [← hsame]
      exact hset

theorem Invariant.step (hoverlap : 0 ≤ cfg.overlap) (hinv : s.Invariant sha256Hex cfg provider)
    (hmet : s.Resumable sha256Hex cfg provider e) (hhonest : s.Honest sha256Hex cfg provider e)
    (h : s.step sha256Hex cfg e = .ok s') : s'.Invariant sha256Hex cfg provider := by
  cases e with
  | advance d =>
    cases h
    exact ⟨hinv.started, hinv.reported, hinv.cursors, hinv.batches⟩
  | start r answers =>
    obtain ⟨-, h⟩ := check_bind_eq_ok.mp h
    cases h
    exact hinv.started_replica hoverlap hmet
  | stop r =>
    cases h
    exact hinv.stop
  | skip r =>
    obtain ⟨rep, hr, h⟩ := found_bind_eq_ok.mp h
    obtain ⟨hbatch, h⟩ := check_bind_eq_ok.mp h
    cases h
    refine hinv.set (first_ne_none hinv hr) (hinv.cursors r rep hr) fun b hb => ?_
    cases hbatch.symm.trans hb
  | fetch r answers pages failure =>
    obtain ⟨rep, hr, h⟩ := found_bind_eq_ok.mp h
    obtain ⟨-, h⟩ := check_bind_eq_ok.mp h
    have hfirst := first_ne_none hinv hr
    have hcursor : s.Complete sha256Hex provider (rep.resumed s.records answers - cfg.overlap) :=
      (hinv.cursors r rep hr).mono (Int.sub_le_sub_right (resumed_le ..) _)
    cases hfetch : fetchUsage sha256Hex s.now (answersOf pages failure) with
    | error err =>
      simp only [hfetch] at h
      cases h
      exact hinv.set hfirst hcursor nofun
    | ok observations =>
      simp only [hfetch] at h
      cases h
      refine hinv.set hfirst hcursor fun b hb f hf o ho hfrom hto => ?_
      cases hb
      obtain ⟨hchained, -, hwindow⟩ := hhonest rep hr
      by_cases hlow : o.observedAt < rep.resumed s.records answers - cfg.overlap
      · exact .inl (hcursor f hf o ho hfrom hlow)
      · rw [fetchUsage_ok hchained hmet hfetch]
        exact .inr (hwindow o ho (le_of_not_gt hlow) hto)
  | persist r =>
    obtain ⟨rep, hr, h⟩ := found_bind_eq_ok.mp h
    split at h
    case h_2 => cases h
    case h_1 windowTo o rest hbatch =>
      cases h
      have hpersisted := hinv.persisted o
      refine hpersisted.set (first_ne_none hpersisted hr) (hpersisted.cursors r rep hr) fun b hb f hf o' ho' hfrom hto => ?_
      cases hb
      obtain hstored | hpending := hinv.batches r rep _ hr hbatch f hf o' ho' hfrom hto
      · exact .inl (stored_of_stored hstored)
      · obtain rfl | hrest := List.mem_cons.mp hpending
        · exact .inl stored_persistObservation
        · exact .inr hrest
  | persistFails r =>
    obtain ⟨rep, hr, h⟩ := found_bind_eq_ok.mp h
    split at h
    case h_2 => cases h
    case h_1 =>
      cases h
      exact hinv.set (first_ne_none hinv hr) (hinv.cursors r rep hr) nofun
  | finish r =>
    obtain ⟨rep, hr, h⟩ := found_bind_eq_ok.mp h
    split at h
    case h_2 => cases h
    case h_1 windowTo hbatch =>
      cases h
      have hcomplete : s.Complete sha256Hex provider windowTo := fun f hf o ho hfrom hto =>
        (hinv.batches r rep _ hr hbatch f hf o ho hfrom hto).resolve_right (List.not_mem_nil)
      have hfirst := first_ne_none hinv hr
      have hset : (s.set r (some { rep with cursor := windowTo, batch := none })).Invariant sha256Hex cfg provider :=
        hinv.set hfirst (hcomplete.mono (by simp only; omega)) nofun
      refine ⟨fun hnone => absurd hnone hfirst, ?_, hset.cursors, hset.batches⟩
      rw [List.forall_mem_cons]
      exact ⟨hcomplete, hinv.reported⟩

end PollerState

/-- In a run in which every later replica starts from a row below which nothing is missing, and no fetch has too
many pages, whatever a cycle reports as done is stored. -/
theorem reported_windows_complete {sha256Hex : String → String} {cfg : PollerConfig} {provider : List UsageObservation}
    (hoverlap : 0 ≤ cfg.overlapMinutes) {now : ℤ} {records : List UsageRecord}
    {tr : List (PollerEvent × PollerState)}
    (hrun : Trace (fun s e s' => s.step sha256Hex cfg e = .ok s') ⟨now, records, fun _ => none, none, []⟩ tr)
    (hhonest : Along (fun s e => s.Honest sha256Hex cfg provider e) ⟨now, records, fun _ => none, none, []⟩ tr)
    (hmet : Along (fun s e => s.Resumable sha256Hex cfg provider e) ⟨now, records, fun _ => none, none, []⟩ tr) :
    ∀ p ∈ tr, ∀ c ∈ p.2.reported, ∀ f ∈ p.2.first, ∀ o ∈ provider, f ≤ o.observedAt → o.observedAt < c →
      Stored sha256Hex p.2.records o := by
  have hoverlap : 0 ≤ cfg.overlap := by
    rw [PollerConfig.overlap, second]
    omega
  have hstart : (⟨now, records, fun _ => none, none, []⟩ : PollerState).Invariant sha256Hex cfg provider :=
    ⟨fun _ => ⟨fun _ => rfl, rfl⟩, nofun, nofun, nofun⟩
  intro p hp c hc
  exact (hrun.invariant (hhonest.and hmet) (fun s e s' hinv hm h => hinv.step hoverlap hm.2 hm.1 h) hstart p
    hp).reported c hc

section Example

def demoConfig : PollerConfig := ⟨60, 5⟩

def early : OpenAiBucket := ⟨40, 100, [{ inputTokens := some 10, outputTokens := some 5 }]⟩

def late : OpenAiBucket := ⟨940, 1000, [{ inputTokens := some 20, outputTokens := some 7 }]⟩

def demoProvider : List UsageObservation := OpenAiUsagePage.observations id 0 { data := [early, late] }

def demoStart : PollerState := { now := 160 * second }

def demoRun (events : List PollerEvent) : Option (List (PollerEvent × PollerState)) :=
  runAll (PollerState.step id demoConfig) demoStart events

/-- The later row is stored first, and then the database fails; the process that starts next takes up from the
later row. -/
def gapEvents : List PollerEvent :=
  [.start 0 true, .advance 1900000000, .fetch 0 true [{ data := [late, early] }] none, .persist 0, .persistFails 0,
    .stop 0, .start 1 true, .fetch 1 true [{ data := [late] }] none, .persist 1, .finish 1]

theorem restart_skips_usage :
    ∃ tr s, Trace (fun s e s' => s.step id demoConfig e = .ok s') demoStart tr ∧
      Along (fun s e => s.Honest id demoConfig demoProvider e) demoStart tr ∧ tr.getLast? = some (.finish 1, s) ∧
      ∃ c ∈ s.reported, ∃ f ∈ s.first, ∃ o ∈ demoProvider, f ≤ o.observedAt ∧ o.observedAt < c ∧
        ¬Stored id s.records o := by
  have hrun : ∃ tr ∈ demoRun gapEvents, Along (fun s e => s.Honest id demoConfig demoProvider e) demoStart tr ∧
      ∃ p ∈ tr.getLast?, p.1 = .finish 1 ∧ ∃ c ∈ p.2.reported, ∃ f ∈ p.2.first, ∃ o ∈ demoProvider,
        f ≤ o.observedAt ∧ o.observedAt < c ∧ ¬Stored id p.2.records o := by
    decide +kernel
  obtain ⟨tr, htr, hhonest, ⟨e, s⟩, hlast, rfl, hmissing⟩ := hrun
  exact ⟨tr, s, (runAll_spec htr).1, hhonest, hlast, hmissing⟩

def resumedEvents : List PollerEvent :=
  [.start 0 true, .advance 1900000000, .fetch 0 true [{ data := [early, late] }] none, .persist 0, .persistFails 0,
    .stop 0, .start 1 true, .fetch 1 true [{ data := [late, early] }] none, .persist 1, .persist 1, .finish 1]

theorem restart_resumes :
    ∃ tr s, Trace (fun s e s' => s.step id demoConfig e = .ok s') demoStart tr ∧
      tr.getLast? = some (.finish 1, s) ∧ s.reported = [2000 * second] ∧ s.first = some (100 * second) ∧
      ∀ o ∈ demoProvider, 100 * second ≤ o.observedAt → o.observedAt < 2000 * second → Stored id s.records o := by
  have hrun : ∃ tr ∈ demoRun resumedEvents, Along (fun s e => s.Honest id demoConfig demoProvider e) demoStart tr ∧
      Along (fun s e => s.Resumable id demoConfig demoProvider e) demoStart tr ∧
      ∃ p ∈ tr.getLast?, p.1 = .finish 1 ∧ p.2.reported = [2000 * second] ∧ p.2.first = some (100 * second) := by
    decide +kernel
  obtain ⟨tr, htr, hhonest, hmet, ⟨e, s⟩, hlast, rfl, hreported, hfirst⟩ := hrun
  refine ⟨tr, s, (runAll_spec htr).1, hlast, hreported, hfirst, ?_⟩
  have hcomplete := reported_windows_complete (by decide) (runAll_spec htr).1 hhonest hmet _ (List.mem_of_getLast? hlast)
  exact hcomplete _ (by rw [hreported]; exact List.mem_singleton_self _) _ hfirst

end Example

end SpendGuard.Usage
