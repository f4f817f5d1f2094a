import Mathlib
import SpendGuard.Base.Run

/-!
The JWKS provider of the auth layer: it fetches the published signing keys now and then, serves its copy while a
refresh fails, and refuses every key once the copy is too old. Times are in nanoseconds. What a call does between
two of its awaits takes no time, though steps of other calls may come in between.
-/

namespace SpendGuard.Auth

open Base

/-- `TimeDelta::num_seconds`, which drops a fraction of a second. -/
def numSeconds (d : ℤ) : ℤ := d.tdiv 1000000000

def seconds (n : ℤ) : ℤ := n * 1000000000

/-- The cast `as i64`. -/
def asI64 (n : UInt64) : ℤ := n.toBitVec.toInt

structure JwtConfig where
  jwksRefreshSeconds : UInt64
  jwksMaxStaleSeconds : UInt64

inductive AuthError
  | jwksFetch (message : String)
  | unknownKid (kid : String)
  deriving DecidableEq

/-- A published key: its `kid`, and the fields `jwk_to_decoding_key` reads. -/
structure Jwk (α : Type) where
  kid : String
  fields : α

structure JwksState (Key : Type) where
  keys : AList fun _ : String => Key := ∅
  fetchedAt : Option ℤ := none

inductive Phase (α Key : Type)
  | idle
  /-- The call awaits its fetch, which may have read the published set at an instant. -/
  | fetching (got : Option (ℤ × List (Jwk α)))
  | refreshed
  | tooStale
  | checked
  | answered (at_ : ℤ) (answer : Except AuthError Key)

/-- The provider with the calls of `key_for` on it. -/
structure Provider (ι α Key : Type) where
  now : ℤ
  inner : JwksState Key := {}
  phase : ι → Phase α Key := fun _ => .idle

inductive Event (ι : Type)
  | advance (elapsed : ℕ)
  | start (c : ι)
  | read (c : ι)
  | install (c : ι)
  | fail (c : ι) (message : String)
  | check (c : ι)
  | report (c : ι)
  | look (c : ι)

variable {ι α Key : Type}

def Phase.Waits : Phase α Key → Prop
  | .idle | .fetching _ | .answered _ _ => True
  | .refreshed | .tooStale | .checked => False

def keysOf (decode : Jwk α → Option Key) (doc : List (Jwk α)) : AList fun _ : String => Key :=
  doc.foldl (fun out k => match decode k with
    | some dk => out.insert k.kid dk
    | none => out) ∅

namespace JwksState

def cacheAgeSeconds (s : JwksState Key) (now : ℤ) : Option ℤ := s.fetchedAt.map fun t => numSeconds (now - t)

def cacheTooStale (cfg : JwtConfig) (s : JwksState Key) (now : ℤ) : Bool :=
  match s.cacheAgeSeconds now with
  | some age => asI64 cfg.jwksMaxStaleSeconds < age
  | none => false

def needsRefresh (cfg : JwtConfig) (s : JwksState Key) (now : ℤ) : Bool :=
  match s.fetchedAt with
  | none => true
  | some t => asI64 cfg.jwksRefreshSeconds < numSeconds (now - t)

/-- The error of `refresh_if_stale` after a failed fetch, if the copy may not be served. -/
def refreshError (cfg : JwtConfig) (s : JwksState Key) (now : ℤ) (message : String) : Option AuthError :=
  match s.cacheAgeSeconds now with
  | none => some (.jwksFetch message)
  | some age =>
    if asI64 cfg.jwksMaxStaleSeconds < age then
      some (.jwksFetch s!"JWKS unreachable and cache exceeded max staleness ({age}s > {cfg.jwksMaxStaleSeconds}s)")
    else none

def staleError (cfg : JwtConfig) (s : JwksState Key) (now : ℤ) : AuthError :=
  let age := (s.cacheAgeSeconds now).getD (2 ^ 63 - 1)
  .jwksFetch s!"JWKS cache exceeded max staleness ({age}s > {cfg.jwksMaxStaleSeconds}s)"

def keyFor (s : JwksState Key) (kid : String) : Except AuthError Key :=
  match s.keys.lookup kid with
  | some key => .ok key
  | none => .error (.unknownKid kid)

end JwksState

namespace Provider

def enter [DecidableEq ι] (s : Provider ι α Key) (c : ι) (p : Phase α Key) : Provider ι α Key :=
  { s with phase := Function.update s.phase c p }

/-- One step of the provider. The client's timeout bounds a fetch by ten seconds; the clock moves only while every
call waits. -/
inductive Step [DecidableEq ι] (cfg : JwtConfig) (decode : Jwk α → Option Key) (published : ℤ → List (Jwk α)) (kid : ι → String)
    (s : Provider ι α Key) : Event ι → Provider ι α Key → Prop
  | advance (elapsed : ℕ) (h : ∀ c, (s.phase c).Waits) :
      Step cfg decode published kid s (.advance elapsed) { s with now := s.now + elapsed }
  | start {c : ι} (h : s.phase c = .idle) :
      Step cfg decode published kid s (.start c)
        (s.enter c (if s.inner.needsRefresh cfg s.now then .fetching none else .refreshed))
  | read {c : ι} (h : s.phase c = .fetching none) :
      Step cfg decode published kid s (.read c) (s.enter c (.fetching (some (s.now, published s.now))))
  | install {c : ι} {r : ℤ} {doc : List (Jwk α)} (h : s.phase c = .fetching (some (r, doc)))
      (hr : s.now ≤ r + seconds 10) :
      Step cfg decode published kid s (.install c)
        ({ s with inner := { keys := keysOf decode doc, fetchedAt := some s.now } }.enter c .refreshed)
  | fail {c : ι} {got : Option (ℤ × List (Jwk α))} (h : s.phase c = .fetching got) (message : String) :
      Step cfg decode published kid s (.fail c message)
        (s.enter c (match s.inner.refreshError cfg s.now message with
          | some e => .answered s.now (.error e)
          | none => .refreshed))
  | check {c : ι} (h : s.phase c = .refreshed) :
      Step cfg decode published kid s (.check c)
        (s.enter c (if s.inner.cacheTooStale cfg s.now then .tooStale else .checked))
  | report {c : ι} (h : s.phase c = .tooStale) :
      Step cfg decode published kid s (.report c)
        (s.enter c (.answered s.now (.error (s.inner.staleError cfg s.now))))
  | look {c : ι} (h : s.phase c = .checked) :
      Step cfg decode published kid s (.look c) (s.enter c (.answered s.now (s.inner.keyFor (kid c))))

end Provider

theorem lt_of_numSeconds_le {d : ℤ} {n : UInt64} (h : numSeconds d ≤ asI64 n) : d < seconds (n.toNat + 1) := by
  have hcast : asI64 n ≤ n.toNat := by
    rw [asI64, BitVec.toInt_eq_toNat_cond]
    split
    · exact le_rfl
    · simp only [UInt64.toNat_toBitVec]
      omega
  rw [seconds]
  rcases lt_or_ge d 0 with hd | hd
  · omega
  · rw [numSeconds, Int.tdiv_eq_ediv_of_nonneg hd] at h
    omega

theorem exists_of_lookup_keysOf {decode : Jwk α → Option Key} {doc : List (Jwk α)} {kid : String} {key : Key}
    (h : (keysOf decode doc).lookup kid = some key) : ∃ k ∈ doc, k.kid = kid := by
  induction doc using List.reverseRecOn with
  | nil => simp [keysOf] at h
  | append_singleton doc k ih =>
    by_cases hk : k.kid = kid
    · exact ⟨k, by simp, hk⟩
    · have hrest : (keysOf decode doc).lookup kid = some key := by
        rw [keysOf, List.foldl_append] at h
        simp only [List.foldl_cons, List.foldl_nil] at h
        split at h
        · rwa [AList.lookup_insert_ne (Ne.symm hk)] at h
        · exact h
      obtain ⟨k', hk', hkid⟩ := ih hrest
      exact ⟨k', List.mem_append_left _ hk', hkid⟩

theorem JwksState.keyFor_ok {s : JwksState Key} {kid : String} {key : Key} (h : s.keyFor kid = .ok key) :
    s.keys.lookup kid = some key := by
  rw [keyFor] at h
  split at h
  · next hk => rw [hk, Except.ok.inj h]
  · cases h

namespace Provider

variable {cfg : JwtConfig} {decode : Jwk α → Option Key} {published : ℤ → List (Jwk α)} {kid : ι → String}
  {s s' : Provider ι α Key} {c : ι} {p : Phase α Key} {ev : Event ι}

/-- What is known of a call from its phase: a fetched set is the one published at the instant of the read, a call
that passed the check sees a copy young enough, and a key that was returned was published not long before. -/
def CallHolds (cfg : JwtConfig) (published : ℤ → List (Jwk α)) (now : ℤ) (fetchedAt : Option ℤ) (kid : String) :
    Phase α Key → Prop
  | .fetching (some (r, doc)) => doc = published r
  | .checked => ∀ t, fetchedAt = some t → now < t + seconds (cfg.jwksMaxStaleSeconds.toNat + 1)
  | .answered t (.ok _) => ∃ r, t < r + seconds 10 + seconds (cfg.jwksMaxStaleSeconds.toNat + 1) ∧
      ∃ k ∈ published r, k.kid = kid
  | _ => True

/-- The copy is the set published at an instant at most ten seconds before the time it is stamped with. -/
structure Holds (cfg : JwtConfig) (decode : Jwk α → Option Key) (published : ℤ → List (Jwk α)) (kid : ι → String)
    (s : Provider ι α Key) : Prop where
  cold : s.inner.fetchedAt = none → s.inner.keys = ∅
  copy : ∀ t, s.inner.fetchedAt = some t → ∃ r, t ≤ r + seconds 10 ∧ s.inner.keys = keysOf decode (published r)
  call : ∀ c, CallHolds cfg published s.now s.inner.fetchedAt (kid c) (s.phase c)

theorem CallHolds.at {now now' : ℤ} {f f' : Option ℤ} {k : String} (h : CallHolds cfg published now f k p)
    (hp : p = .checked → ∀ t, f' = some t → now' < t + seconds (cfg.jwksMaxStaleSeconds.toNat + 1)) :
    CallHolds cfg published now' f' k p := by
  cases p with
  | checked => exact hp rfl
  | fetching got => cases got <;> exact h
  | answered t answer => cases answer <;> exact h
  | _ => trivial

theorem Holds.advance (h : Holds cfg decode published kid s) (hw : ∀ c, (s.phase c).Waits) (elapsed : ℕ) :
    Holds cfg decode published kid { s with now := s.now + elapsed } := by
  refine ⟨h.cold, h.copy, fun c => (h.call c).at ?_⟩
  intro hc
  have hwaits := hw c
  rw [hc] at hwaits
  exact hwaits.elim

theorem Holds.install (h : Holds cfg decode published kid s) {r : ℤ} {doc : List (Jwk α)}
    (hc : s.phase c = .fetching (some (r, doc))) (hr : s.now ≤ r + seconds 10) :
    Holds cfg decode published kid { s with inner := { keys := keysOf decode doc, fetchedAt := some s.now } } := by
  have hdoc : doc = published r := by
    have hfetched := h.call c
    rwa [hc] at hfetched
  refine ⟨nofun, ?_, fun x => (h.call x).at ?_⟩
  · intro t ht
    exact ⟨r, Option.some.inj ht ▸ hr, by rw [hdoc]⟩
  · intro _ t ht
    obtain rfl := Option.some.inj ht
    simp only [seconds]
    omega

theorem Holds.look (h : Holds cfg decode published kid s) (hc : s.phase c = .checked) :
    CallHolds cfg published s.now s.inner.fetchedAt (kid c)
      (.answered s.now (s.inner.keyFor (kid c)) : Phase α Key) := by
  cases hkey : s.inner.keyFor (kid c) with
  | error e => trivial
  | ok key =>
    have hlookup := JwksState.keyFor_ok hkey
    cases hf : s.inner.fetchedAt with
    | none =>
      rw [h.cold hf] at hlookup
      simp at hlookup
    | some t =>
      have hyoung : s.now < t + seconds (cfg.jwksMaxStaleSeconds.toNat + 1) := by
        have hchecked := h.call c
        rw [hc] at hchecked
        exact hchecked t hf
      obtain ⟨r, htr, hkeys⟩ := h.copy t hf
      rw [hkeys] at hlookup
      exact ⟨r, by linarith, exists_of_lookup_keysOf hlookup⟩

variable [DecidableEq ι]

theorem Holds.enter (h : Holds cfg decode published kid s)
    (hp : CallHolds cfg published s.now s.inner.fetchedAt (kid c) p) :
    Holds cfg decode published kid (s.enter c p) := by
  refine ⟨h.cold, h.copy, ?_⟩
  intro x
  by_cases hx : x = c
  · subst hx
    simpa [Provider.enter] using hp
  · simpa [Provider.enter, Function.update_of_ne hx] using h.call x

theorem Step.holds (hs : Step cfg decode published kid s ev s') (h : Holds cfg decode published kid s) :
    Holds cfg decode published kid s' := by
  cases hs with
  | advance elapsed hw => exact h.advance hw elapsed
  | start hc =>
    apply h.enter
    split <;> trivial
  | read hc => exact h.enter rfl
  | install hc hr => exact (h.install hc hr).enter trivial
  | fail hc message =>
    apply h.enter
    split <;> trivial
  | check hc =>
    apply h.enter
    split
    · trivial
    · next hfresh =>
      intro t ht
      have hage : numSeconds (s.now - t) ≤ asI64 cfg.jwksMaxStaleSeconds := by
        simpa [JwksState.cacheTooStale, JwksState.cacheAgeSeconds, ht] using hfresh
      have := lt_of_numSeconds_le hage
      linarith
  | report hc => exact h.enter trivial
  | look hc => exact h.enter (h.look hc)

structure Cold (s : Provider ι α Key) : Prop where
  never : s.inner = {}
  refused : ∀ c t key, s.phase c ≠ .answered t (.ok key)

theorem Cold.enter (h : Cold s) (hp : ∀ t key, p ≠ .answered t (.ok key)) : Cold (s.enter c p) := by
  refine ⟨h.never, fun x => ?_⟩
  by_cases hx : x = c
  · subst hx
    simpa [Provider.enter] using hp
  · simpa [Provider.enter, Function.update_of_ne hx] using h.refused x

theorem Step.cold (hs : Step cfg decode published kid s ev s') (hev : ∀ c, ev ≠ .install c) (h : Cold s) :
    Cold s' := by
  cases hs with
  | advance elapsed hw => exact ⟨h.never, h.refused⟩
  | start hc => exact h.enter (by split <;> simp)
  | read hc => exact h.enter (by simp)
  | install hc hr => exact absurd rfl (hev _)
  | fail hc message => exact h.enter (by split <;> simp)
  | check hc => exact h.enter (by split <;> simp)
  | report hc => exact h.enter (by simp)
  | look hc => exact h.enter (by simp [h.never, JwksState.keyFor])

/-- A key that is withdrawn at `d` is refused from `d` and ten seconds, the largest staleness and one second on;
and as long as no fetch has succeeded every key is. -/
theorem withdrawn_key_refused (cfg : JwtConfig) (decode : Jwk α → Option Key) (published : ℤ → List (Jwk α))
    (kid : ι → String) (start : ℤ) {tr : List (Event ι × Provider ι α Key)}
    (h : Trace (Step cfg decode published kid) { now := start } tr) :
    (∀ p ∈ tr, ∀ c t answer, p.2.phase c = .answered t answer →
      ∀ d, (∀ i ≥ d, ∀ k ∈ published i, k.kid ≠ kid c) →
        d + seconds 10 + seconds cfg.jwksMaxStaleSeconds.toNat + seconds 1 < t → ∃ e, answer = .error e) ∧
    (Along (fun _ ev => ∀ c, ev ≠ .install c) { now := start } tr →
      ∀ p ∈ tr, ∀ c t answer, p.2.phase c = .answered t answer → ∃ e, answer = .error e) := by
  constructor
  · intro p hp c t answer hanswer d hd hlate
    have hcall := (h.always (fun _ _ _ hi hs => Step.holds hs hi) ⟨fun _ => rfl, by simp, fun _ => trivial⟩ p hp).call c
    rw [hanswer] at hcall
    cases answer with
    | error e => exact ⟨e, rfl⟩
    | ok key =>
      obtain ⟨r, htr, k, hk, hkid⟩ := hcall
      -- the set with the key was read before the key was withdrawn
      have hrd : r < d := by
        by_contra hle
        exact hd r (not_lt.mp hle) k hk hkid
      simp only [seconds] at hlate htr
      omega
  · intro hev p hp c t answer hanswer
    have hcold : Cold p.2 := h.invariant hev (fun _ _ _ hi hm hs => Step.cold hs hm hi) ⟨rfl, by simp⟩ p hp
    cases answer with
    | error e => exact ⟨e, rfl⟩
    | ok key => exact absurd hanswer (hcold.refused c t key)

def samplePublished (t : ℤ) : List (Jwk Unit) := if t < seconds 1 then [⟨"k", ()⟩] else []

theorem served_key_refused :
    ∃ (tr : List (Event Bool × Provider Bool Unit Unit)) (s : Provider Bool Unit Unit) (answer : Except AuthError Unit),
      Trace (Step ⟨30, 3⟩ (fun _ => some ()) samplePublished (fun _ => "k")) { now := 0 } tr ∧
      (.report true, s) ∈ tr ∧ s.phase false = .answered 0 (.ok ()) ∧
      s.phase true = .answered (seconds 20) answer ∧ ∃ e, answer = .error e := by
  have hrun : Trace (Step ⟨30, 3⟩ (fun _ => some ()) samplePublished (fun _ : Bool => "k")) { now := 0 } _ :=
    .cons (.start (c := false) rfl) <| .cons (.read (c := false) rfl) <|
    .cons (.install (c := false) rfl (by decide)) <| .cons (.check (c := false) rfl) <|
    .cons (.look (c := false) rfl) <| .cons (.advance 20000000000 (by intro c; cases c <;> trivial)) <|
    .cons (.start (c := true) rfl) <| .cons (.check (c := true) rfl) <| .cons (.report (c := true) rfl) <| .nil _
  refine ⟨_, _, _, hrun, List.mem_of_getElem? (i := 8) rfl, rfl, rfl, ?_⟩
  apply (withdrawn_key_refused _ _ _ _ _ hrun).1 _ (List.mem_of_getElem? (i := 8) rfl) true _ _ rfl (seconds 1)
  · intro i hi k hk
    simp [samplePublished, not_lt.mpr hi] at hk
  · decide

end Provider

end SpendGuard.Auth
