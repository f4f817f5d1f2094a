import Mathlib
import SpendGuard.Base.Run
import SpendGuard.Base.TokenBucket

/-!
The rate limiter of `Predict`: a bucket for each tenant in a table of fixed capacity, from which full buckets may be
dropped.  Times are in seconds and, as the tokens, exact.
-/

namespace SpendGuard.Predictor

open Base

structure TenantRateState where
  tokens : ℚ
  lastRefill : ℚ
  deriving DecidableEq

namespace TenantRateState

/-- `now.saturating_duration_since(last_refill)`. -/
def elapsed (s : TenantRateState) (now : ℚ) : ℚ := max 0 (now - s.lastRefill)

def refilled (s : TenantRateState) (burst now : ℚ) : ℚ := min (s.tokens + s.elapsed now * burst) burst

def refill (s : TenantRateState) (burst now : ℚ) : TenantRateState :=
  if s.elapsed now = 0 then s else ⟨s.refilled burst now, now⟩

end TenantRateState

variable {τ : Type} [DecidableEq τ]

abbrev Buckets (τ : Type) := AList fun _ : τ => TenantRateState

def evictOneFullIdleBucket (burst now : ℚ) (m : Buckets τ) : Option (Buckets τ) :=
  (m.entries.find? fun p => burst ≤ p.2.refilled burst now).map fun p => m.erase p.1

/-- The table with room for one more; `none` as a capacity stands for a table without bound. -/
def makeRoom (capacity : Option ℕ) (burst now : ℚ) (m : Buckets τ) : Option (Buckets τ) :=
  if capacity.any (· ≤ m.entries.length) then evictOneFullIdleBucket burst now m else some m

def slot (capacity : Option ℕ) (burst : ℚ) (tenant : τ) (now : ℚ) (m : Buckets τ) :
    Option (Buckets τ × TenantRateState) :=
  match m.lookup tenant with
  | some s => some (m, s)
  | none => (makeRoom capacity burst now m).map fun m => (m.insert tenant ⟨burst, now⟩, ⟨burst, now⟩)

def checkAt (limit : ℕ) (capacity : Option ℕ) (tenant : τ) (now : ℚ) (m : Buckets τ) : Bool × Buckets τ :=
  if limit = 0 then (true, m)
  else
    match slot capacity limit tenant now m with
    | none => (false, m)
    | some (m, s) =>
      let s := s.refill limit now
      if 1 ≤ s.tokens then (true, m.insert tenant { s with tokens := s.tokens - 1 })
      else (false, m.insert tenant s)

def noSlot (limit : ℕ) (capacity : Option ℕ) (tenant : τ) (now : ℚ) (m : Buckets τ) : Bool :=
  limit ≠ 0 && (slot capacity limit tenant now m).isNone

structure Checked (τ : Type) where
  tenant : τ
  now : ℚ
  allowed : Bool
  noSlot : Bool
  deriving DecidableEq

def CheckStep (limit : ℕ) (capacity : Option ℕ) (m : Buckets τ) (c : Checked τ) (m' : Buckets τ) : Prop :=
  ∃ walk : Buckets τ, walk.entries.Perm m.entries ∧ checkAt limit capacity c.tenant c.now walk = (c.allowed, m') ∧
    c.noSlot = noSlot limit capacity c.tenant c.now walk

def unlimited (limit : ℕ) : Buckets τ → List (τ × ℚ) → List Bool
  | _, [] => []
  | m, (tenant, now) :: calls =>
    (checkAt limit none tenant now m).1 :: unlimited limit (checkAt limit none tenant now m).2 calls

section Bucket

variable {s : TenantRateState} {burst now now' : ℚ}

theorem refilled_of_le (h : s.lastRefill ≤ now) :
    s.refilled burst now = min (s.tokens + (now - s.lastRefill) * burst) burst := by
  rw [TenantRateState.refilled, TenantRateState.elapsed, max_eq_right (sub_nonneg.mpr h)]

theorem refill_eq (htokens : s.tokens ≤ burst) (h : s.lastRefill ≤ now) :
    s.refill burst now = ⟨s.refilled burst now, now⟩ := by
  unfold TenantRateState.refill
  split
  · next hzero =>
    have heq : s.lastRefill = now := by
      rw [TenantRateState.elapsed, max_eq_right (sub_nonneg.mpr h)] at hzero
      exact (sub_eq_zero.mp hzero).symm
    rw [refilled_of_le h, heq, sub_self, zero_mul, add_zero, min_eq_left htokens, ← heq]
  · rfl

theorem refilled_of_full (hburst : 0 ≤ burst) (h : s.lastRefill ≤ now) (hnow : now ≤ now')
    (hfull : burst ≤ s.refilled burst now) : s.refilled burst now' = burst := by
  rw [refilled_of_le h] at hfull
  have hlevel := le_of_eq_of_le rfl (hfull.trans (min_le_left _ _))
  have hgrow : (now - s.lastRefill) * burst ≤ (now' - s.lastRefill) * burst :=
    mul_le_mul_of_nonneg_right (sub_le_sub_right hnow _) hburst
  rw [refilled_of_le (h.trans hnow)]
  exact min_eq_right (by linarith)

end Bucket

def Buckets.level (limit : ℕ) (m : Buckets τ) (now : ℚ) (tenant : τ) : ℚ :=
  match m.lookup tenant with
  | none => limit
  | some s => s.refilled limit now

/-- The buckets were last refilled before `T` and hold no more than the burst. -/
def Buckets.Settled (limit : ℕ) (m : Buckets τ) (T : ℚ) : Prop :=
  ∀ tenant s, m.lookup tenant = some s → s.tokens ≤ limit ∧ s.lastRefill ≤ T

section Slot

variable {limit : ℕ} {capacity : Option ℕ} {m m' : Buckets τ} {T now : ℚ} {tenant : τ} {s : TenantRateState}

theorem level_of_lookup (h : m.lookup tenant = some s) : m.level limit now tenant = s.refilled limit now := by
  rw [Buckets.level, h]

theorem level_of_none (h : m.lookup tenant = none) : m.level limit now tenant = limit := by
  rw [Buckets.level, h]

theorem level_congr (h : m'.lookup tenant = m.lookup tenant) : m'.level limit now tenant = m.level limit now tenant := by
  rw [Buckets.level, Buckets.level, h]

omit [DecidableEq τ] in
theorem length_keys (m : Buckets τ) : m.keys.length = m.entries.length := List.length_map _

theorem length_insert_of_mem (h : tenant ∈ m) : (m.insert tenant s).entries.length = m.entries.length := by
  have hpos : 0 < m.keys.length := List.length_pos_of_mem h
  rw [← length_keys, ← length_keys, AList.keys_insert, List.length_cons, List.length_erase_of_mem h]
  omega

theorem length_insert_of_notMem (h : tenant ∉ m) : (m.insert tenant s).entries.length = m.entries.length + 1 := by
  rw [AList.entries_insert_of_notMem h, List.length_cons]

/-- The table keeps what every tenant may take from `now` on. -/
structure Buckets.Same (limit : ℕ) (m m' : Buckets τ) (now : ℚ) : Prop where
  settled : m'.Settled limit now
  level : ∀ t now', now ≤ now' → m'.level limit now' t = m.level limit now' t

theorem evict_same (hm : m.Settled limit now) (h : evictOneFullIdleBucket limit now m = some m') :
    m.Same limit m' now ∧ m'.entries.length < m.entries.length := by
  obtain ⟨⟨victim, v⟩, hfind, rfl⟩ := Option.map_eq_some_iff.mp h
  have hfull : (limit : ℚ) ≤ v.refilled limit now := by simpa using List.find?_some hfind
  have hmem := List.mem_of_find?_eq_some hfind
  have hlookup : m.lookup victim = some v := AList.mem_lookup_iff.mpr hmem
  refine ⟨⟨fun t s hs => ?_, fun t now' hnow => ?_⟩, ?_⟩
  · by_cases ht : t = victim
    · subst ht
      rw [AList.lookup_erase] at hs
      cases hs
    · rw [AList.lookup_erase_ne ht] at hs
      exact hm t s hs
  · by_cases ht : t = victim
    · subst ht
      rw [level_of_none (AList.lookup_erase t m), level_of_lookup hlookup]
      exact (refilled_of_full (Nat.cast_nonneg limit) (hm t v hlookup).2 hnow hfull).symm
    · exact level_congr (AList.lookup_erase_ne ht)
  · have hkey : victim ∈ m.keys := List.mem_map_of_mem hmem
    have hpos : 0 < m.keys.length := List.length_pos_of_mem hkey
    rw [← length_keys, ← length_keys, AList.keys_erase, List.length_erase_of_mem hkey]
    omega

theorem makeRoom_same (hm : m.Settled limit now) (h : makeRoom capacity limit now m = some m') :
    m.Same limit m' now ∧ ∀ K, capacity = some K → m.entries.length ≤ K → m'.entries.length < K := by
  unfold makeRoom at h
  split at h
  · obtain ⟨hsame, hlt⟩ := evict_same hm h
    exact ⟨hsame, fun K _ hK => Nat.lt_of_lt_of_le hlt hK⟩
  · next hroom =>
    cases h
    refine ⟨⟨hm, fun _ _ _ => rfl⟩, ?_⟩
    rintro K rfl -
    simpa using hroom

theorem slot_same (hm : m.Settled limit now) (h : slot capacity limit tenant now m = some (m', s)) :
    m.Same limit m' now ∧ m'.lookup tenant = some s ∧
      ∀ K, capacity = some K → m.entries.length ≤ K → m'.entries.length ≤ K := by
  unfold slot at h
  split at h
  · next s' hlookup =>
    cases h
    exact ⟨⟨hm, fun _ _ _ => rfl⟩, hlookup, fun _ _ hK => hK⟩
  · next hlookup =>
    obtain ⟨m₀, hroom, heq⟩ := Option.map_eq_some_iff.mp h
    cases heq
    obtain ⟨hsame, hlen⟩ := makeRoom_same hm hroom
    refine ⟨⟨fun t s' hs' => ?_, fun t now' hnow => ?_⟩, AList.lookup_insert m₀, fun K hcapacity hK => ?_⟩
    · by_cases ht : t = tenant
      · subst ht
        rw [AList.lookup_insert] at hs'
        cases hs'
        exact ⟨le_rfl, le_rfl⟩
      · rw [AList.lookup_insert_ne ht] at hs'
        exact hsame.settled t s' hs'
    · by_cases ht : t = tenant
      · subst ht
        rw [level_of_lookup (AList.lookup_insert m₀), level_of_none hlookup]
        exact refilled_of_full (Nat.cast_nonneg limit) le_rfl hnow (by simp [TenantRateState.refilled,
          TenantRateState.elapsed])
      · exact (level_congr (AList.lookup_insert_ne ht)).trans (hsame.level t now' hnow)
    · have hroomy := hlen K hcapacity hK
      by_cases hmem : tenant ∈ m₀
      · rw [length_insert_of_mem hmem]
        exact hroomy.le
      · rw [length_insert_of_notMem hmem]
        exact hroomy

end Slot

structure Buckets.Follows (limit : ℕ) (m : Buckets τ) (a : Meter τ ℚ) : Prop where
  settled : m.Settled limit a.time
  level : ∀ t now, a.time ≤ now → m.level limit now t = a.levelAt (limit : ℚ) limit now t

section Follows

variable {limit : ℕ} {capacity : Option ℕ} {m m' : Buckets τ} {a : Meter τ ℚ} {tenant : τ} {now : ℚ} {allowed : Bool}

theorem Buckets.Settled.mono {T T' : ℚ} (hT : T ≤ T') (h : m.Settled limit T) : m.Settled limit T' :=
  fun t s hs => ⟨(h t s hs).1, (h t s hs).2.trans hT⟩

theorem Buckets.Follows.perm (h : m.Follows limit a) (hperm : m'.entries.Perm m.entries) : m'.Follows limit a where
  settled t s hs := h.settled t s ((AList.perm_lookup hperm).symm.trans hs)
  level t now hnow := (level_congr (AList.perm_lookup hperm)).trans (h.level t now hnow)

theorem Buckets.Same.follows (hm : m.Follows limit a) (hnow : a.time ≤ now) (hsame : m.Same limit m' now) {x : ℚ}
    (hx : x ≤ limit) {b : Meter τ ℚ} (htime : b.time = now) (howner : b.level tenant = x)
    (hothers : ∀ t, t ≠ tenant → b.level t = a.levelAt (limit : ℚ) limit now t) :
    Buckets.Follows limit (m'.insert tenant ⟨x, now⟩) b where
  settled t s hs := by
    rw [htime]
    by_cases ht : t = tenant
    · subst ht
      rw [AList.lookup_insert] at hs
      cases hs
      exact ⟨hx, le_rfl⟩
    · rw [AList.lookup_insert_ne ht] at hs
      exact hsame.settled t s hs
  level t now' hnow' := by
    rw [htime] at hnow'
    rw [Meter.levelAt, htime]
    by_cases ht : t = tenant
    · subst ht
      rw [level_of_lookup (AList.lookup_insert m'), refilled_of_le hnow', howner]
    · rw [level_congr (AList.lookup_insert_ne ht), hsame.level t now' hnow', hm.level t now' (hnow.trans hnow'),
        hothers t ht]
      exact (Meter.min_refill (Nat.cast_nonneg limit) hnow').symm

theorem checkAt_follows (hlimit : 1 ≤ limit) (hm : m.Follows limit a) (hnow : a.time ≤ now)
    (hcheck : checkAt limit capacity tenant now m = (allowed, m')) (hslot : noSlot limit capacity tenant now m = false) :
    allowed = (a.take (limit : ℚ) limit tenant now).1 ∧ m'.Follows limit (a.take (limit : ℚ) limit tenant now).2 := by
  have hne : limit ≠ 0 := by omega
  rw [checkAt, if_neg hne] at hcheck
  cases hs : slot capacity limit tenant now m with
  | none => simp [noSlot, hs, hne] at hslot
  | some p =>
    obtain ⟨m₀, s⟩ := p
    obtain ⟨hsame, hlookup, -⟩ := slot_same (hm.settled.mono hnow) hs
    obtain ⟨htokens, hlast⟩ := hsame.settled tenant s hlookup
    have hlevel : s.refilled limit now = a.levelAt (limit : ℚ) limit now tenant := by
      rw [← level_of_lookup hlookup, hsame.level tenant now le_rfl, hm.level tenant now hnow]
    rw [hs] at hcheck
    simp only [refill_eq htokens hlast, hlevel] at hcheck
    have hburst : a.levelAt (limit : ℚ) limit now tenant ≤ limit := min_le_right _ _
    split at hcheck
    · next hone =>
      cases hcheck
      rw [Meter.take, if_pos hone]
      refine ⟨rfl, hsame.follows hm hnow (by linarith) rfl (Function.update_self ..) fun t ht => ?_⟩
      exact Function.update_of_ne ht ..
    · next hone =>
      cases hcheck
      rw [Meter.take, if_neg hone]
      exact ⟨rfl, hsame.follows hm hnow hburst rfl rfl fun _ _ => rfl⟩

theorem checkAt_noSlot (hslot : noSlot limit capacity tenant now m = true) :
    checkAt limit capacity tenant now m = (false, m) := by
  simp only [noSlot, Bool.and_eq_true, decide_eq_true_eq, Option.isNone_iff_eq_none] at hslot
  rw [checkAt, if_neg hslot.1, hslot.2]

theorem checkAt_length {K : ℕ} (hm : m.Settled limit now) (hK : m.entries.length ≤ K) :
    (checkAt limit (some K) tenant now m).2.entries.length ≤ K := by
  unfold checkAt
  split
  · exact hK
  · split
    · exact hK
    · next m₀ s hs =>
      obtain ⟨-, hlookup, hlen⟩ := slot_same hm hs
      have hmem : tenant ∈ m₀ := AList.lookup_isSome.mp (by rw [hlookup]; rfl)
      dsimp only
      split
      · rw [length_insert_of_mem hmem]
        exact hlen K rfl hK
      · rw [length_insert_of_mem hmem]
        exact hlen K rfl hK

end Follows

def kept (tr : List (Checked τ × Buckets τ)) : List (Checked τ) := (tr.map Prod.fst).filter fun c => !c.noSlot

def Checked.served (c : Checked τ) : Served τ ℚ := ⟨c.tenant, c.now, c.allowed⟩

section Runs

variable {limit K : ℕ} {capacity : Option ℕ} {m : Buckets τ} {a : Meter τ ℚ} {tr : List (Checked τ × Buckets τ)}

omit [DecidableEq τ] in
theorem kept_cons (c : Checked τ) (m' : Buckets τ) :
    kept ((c, m') :: tr) = if c.noSlot then kept tr else c :: kept tr := by
  rw [kept, List.map_cons, List.filter_cons]
  cases c.noSlot <;> rfl

theorem CheckStep.follows {c : Checked τ} {m' : Buckets τ} (hlimit : 1 ≤ limit) (hm : m.Follows limit a)
    (hnow : a.time ≤ c.now) (h : CheckStep limit capacity m c m') :
    (c.noSlot = true ∧ c.allowed = false ∧ m'.Follows limit a) ∨
    (c.noSlot = false ∧ c.allowed = (a.take (limit : ℚ) limit c.tenant c.now).1 ∧
      m'.Follows limit (a.take (limit : ℚ) limit c.tenant c.now).2) := by
  obtain ⟨walk, hperm, hcheck, hslot⟩ := h
  have hwalk := hm.perm hperm
  cases hs : c.noSlot with
  | true =>
    rw [checkAt_noSlot (hslot.symm.trans hs)] at hcheck
    obtain ⟨hallowed, rfl⟩ := Prod.mk.inj hcheck
    exact .inl ⟨rfl, hallowed.symm, hwalk⟩
  | false => exact .inr ⟨rfl, checkAt_follows hlimit hwalk hnow hcheck (hslot.symm.trans hs)⟩

theorem served_kept (hlimit : 1 ≤ limit) (htr : Trace (CheckStep limit capacity) m tr) (hm : m.Follows limit a)
    (htimes : (a.time :: tr.map (·.1.now)).Pairwise (· ≤ ·)) :
    (kept tr).map Checked.served = a.serve (limit : ℚ) limit ((kept tr).map fun c => (c.tenant, c.now)) := by
  induction htr generalizing a with
  | nil m => rfl
  | @cons m m' c tr hstep rest ih =>
    rw [List.map_cons, List.pairwise_cons, List.forall_mem_cons] at htimes
    obtain ⟨⟨hnow, hlater⟩, htimes⟩ := htimes
    rw [kept_cons]
    rcases hstep.follows hlimit hm hnow with ⟨hslot, -, hm'⟩ | ⟨hslot, hallowed, hm'⟩
    · rw [if_pos hslot]
      exact ih hm' (List.pairwise_cons.mpr ⟨hlater, (List.pairwise_cons.mp htimes).2⟩)
    · rw [hslot, if_neg Bool.false_ne_true, List.map_cons, List.map_cons, Meter.serve,
        ih hm' (by rwa [Meter.take_time]), Checked.served, hallowed]

theorem unlimited_eq (hlimit : 1 ≤ limit) {calls : List (τ × ℚ)} (hm : m.Follows limit a)
    (htimes : (a.time :: calls.map Prod.snd).Pairwise (· ≤ ·)) :
    unlimited limit m calls = (a.serve (limit : ℚ) limit calls).map (·.accepted) := by
  induction calls generalizing m a with
  | nil => rfl
  | cons call calls ih =>
    obtain ⟨tenant, now⟩ := call
    rw [List.map_cons, List.pairwise_cons, List.forall_mem_cons] at htimes
    obtain ⟨⟨hnow, -⟩, htimes⟩ := htimes
    have hslot : noSlot limit none tenant now m = false := by
      cases hl : m.lookup tenant <;> simp [noSlot, slot, makeRoom, hl]
    cases hcheck : checkAt limit none tenant now m with
    | mk allowed m' =>
      obtain ⟨rfl, hm'⟩ := checkAt_follows hlimit hm hnow hcheck hslot
      rw [unlimited, hcheck, Meter.serve, List.map_cons, ih hm' (by rwa [Meter.take_time])]

theorem length_le_capacity (htr : Trace (CheckStep limit (some K)) m tr) (hm : m.Follows limit a) (hlimit : 1 ≤ limit)
    (htimes : (a.time :: tr.map (·.1.now)).Pairwise (· ≤ ·)) (hK : m.entries.length ≤ K) :
    ∀ p ∈ tr, p.2.entries.length ≤ K := by
  induction htr generalizing a with
  | nil m => exact fun p hp => absurd hp List.not_mem_nil
  | @cons m m' c tr hstep rest ih =>
    rw [List.map_cons, List.pairwise_cons, List.forall_mem_cons] at htimes
    obtain ⟨⟨hnow, hlater⟩, htimes⟩ := htimes
    obtain ⟨walk, hperm, hcheck, hslot⟩ := hstep
    have hlen : (checkAt limit (some K) c.tenant c.now walk).2.entries.length ≤ K :=
      checkAt_length ((hm.perm hperm).settled.mono hnow) (hperm.length_eq.trans_le hK)
    rw [hcheck] at hlen
    rw [List.forall_mem_cons]
    refine ⟨hlen, ?_⟩
    have hstep : CheckStep limit (some K) m c m' := ⟨walk, hperm, hcheck, hslot⟩
    rcases hstep.follows hlimit hm hnow with ⟨-, -, hm'⟩ | ⟨-, -, hm'⟩
    · exact ih hm' (List.pairwise_cons.mpr ⟨hlater, (List.pairwise_cons.mp htimes).2⟩) hlen
    · exact ih hm' (by rwa [Meter.take_time]) hlen

theorem countP_kept (htr : Trace (CheckStep limit capacity) m tr) (tenant : τ) (t₁ t₂ : ℚ) :
    (tr.filter fun p => p.1.tenant = tenant ∧ p.1.allowed = true ∧ t₁ ≤ p.1.now ∧ p.1.now ≤ t₂).length =
      ((kept tr).map Checked.served).countP (Meter.Within tenant t₁ t₂) := by
  induction htr with
  | nil m => rfl
  | @cons m m' c tr hstep rest ih =>
    rw [kept_cons, List.filter_cons]
    by_cases hslot : c.noSlot = true
    · obtain ⟨walk, -, hcheck, heq⟩ := hstep
      rw [checkAt_noSlot (heq.symm.trans hslot)] at hcheck
      rw [if_pos hslot, if_neg (by simp [← (Prod.mk.inj hcheck).1]), ih]
    · have hwithin : Meter.Within tenant t₁ t₂ c.served = true ↔
          c.tenant = tenant ∧ c.allowed = true ∧ t₁ ≤ c.now ∧ c.now ≤ t₂ := decide_eq_true_iff
      rw [if_neg hslot, List.map_cons, List.countP_cons, ← ih]
      by_cases hmet : c.tenant = tenant ∧ c.allowed = true ∧ t₁ ≤ c.now ∧ c.now ≤ t₂
      · rw [if_pos (decide_eq_true hmet), if_pos (hwithin.mpr hmet), List.length_cons]
      · rw [if_neg (mt of_decide_eq_true hmet), if_neg (mt hwithin.mp hmet), Nat.add_zero]

omit [DecidableEq τ] in
theorem kept_sublist :
    (((kept tr).map fun c => (c.tenant, c.now)).map Prod.snd).Sublist (tr.map (·.1.now)) := by
  rw [List.map_map]
  have hsub : ((kept tr).map (·.now)).Sublist ((tr.map Prod.fst).map (·.now)) := List.filter_sublist.map _
  rwa [List.map_map] at hsub

theorem empty_follows (t : ℚ) : Buckets.Follows limit (∅ : Buckets τ) ⟨fun _ => limit, t⟩ where
  settled t s hs := by
    rw [AList.lookup_empty] at hs
    cases hs
  level t' now hnow := by
    have hflow : 0 ≤ (now - t) * (limit : ℚ) := mul_nonneg (sub_nonneg.mpr hnow) (Nat.cast_nonneg limit)
    rw [level_of_none (AList.lookup_empty t'), Meter.levelAt]
    exact (min_eq_right (le_add_of_nonneg_right hflow)).symm

/-- The table keeps its capacity, dropped buckets are never missed, and so a tenant is let through no more often than
its rate allows. -/
theorem eviction_invisible (hlimit : 1 ≤ limit) (htr : Trace (CheckStep limit (some K)) (∅ : Buckets τ) tr)
    (htimes : (tr.map (·.1.now)).Pairwise (· ≤ ·)) :
    (∀ p ∈ tr, p.2.entries.length ≤ K) ∧
    (kept tr).map (·.allowed) = unlimited limit ∅ ((kept tr).map fun c => (c.tenant, c.now)) ∧
    ∀ tenant t₁ t₂, t₁ ≤ t₂ → ((tr.filter fun p => p.1.tenant = tenant ∧ p.1.allowed = true ∧ t₁ ≤ p.1.now ∧
      p.1.now ≤ t₂).length : ℚ) ≤ limit + limit * (t₂ - t₁) := by
  -- the meter starts full, so it may start at any time before the calls
  obtain ⟨t, ht⟩ : ∃ t, (t :: tr.map (·.1.now)).Pairwise (· ≤ ·) := by
    cases tr with
    | nil => exact ⟨0, List.pairwise_singleton _ _⟩
    | cons p tr =>
      refine ⟨p.1.now, List.pairwise_cons.mpr ⟨List.forall_mem_cons.mpr ⟨le_rfl, ?_⟩, htimes⟩⟩
      exact (List.pairwise_cons.mp htimes).1
  have hserved := served_kept hlimit htr (empty_follows t) ht
  refine ⟨length_le_capacity htr (empty_follows t) hlimit ht (Nat.zero_le K), ?_, fun tenant t₁ t₂ hle => ?_⟩
  · rw [unlimited_eq hlimit (empty_follows t) (ht.sublist (kept_sublist.cons_cons t)), ← hserved, List.map_map]
    rfl
  · have hearlier : (min t t₁ :: tr.map (·.1.now)).Pairwise (· ≤ ·) := by
      rw [List.pairwise_cons] at ht ⊢
      exact ⟨fun x hx => (min_le_left t t₁).trans (ht.1 x hx), ht.2⟩
    have hburst : (0 : ℚ) ≤ limit := Nat.cast_nonneg limit
    let full : Meter τ ℚ := ⟨fun _ => limit, min t t₁⟩
    have hbound := @Meter.countP_within_le τ ℚ _ _ _ _ _ _ tenant t₁ t₂ full _ hburst hburst (fun _ => hburst)
      (hearlier.sublist (kept_sublist.cons_cons _)) (max_le hle ((min_le_right t t₁).trans hle))
    rw [countP_kept htr, served_kept hlimit htr (empty_follows (min t t₁)) hearlier]
    rw [max_eq_left (min_le_right t t₁)] at hbound
    refine hbound.trans ?_
    rw [mul_comm]
    exact add_le_add (min_le_right _ _) le_rfl

end Runs

def checkedRun (limit : ℕ) (capacity : Option ℕ) : Buckets τ → List (τ × ℚ) → List (Checked τ × Buckets τ)
  | _, [] => []
  | m, (tenant, now) :: calls =>
    let r := checkAt limit capacity tenant now m
    (⟨tenant, now, r.1, noSlot limit capacity tenant now m⟩, r.2) :: checkedRun limit capacity r.2 calls

theorem trace_checkedRun (limit : ℕ) (capacity : Option ℕ) (m : Buckets τ) (calls : List (τ × ℚ)) :
    Trace (CheckStep limit capacity) m (checkedRun limit capacity m calls) := by
  induction calls generalizing m with
  | nil => exact .nil m
  | cons call calls ih => exact .cons ⟨m, .refl _, rfl, rfl⟩ (ih _)

/-- With one slot the second tenant has to wait until the bucket of the first is full again. -/
theorem single_slot_handed_on :
    (checkedRun 1 (some 1) (∅ : Buckets Bool) [(false, 0), (true, 0), (true, 5), (true, 5)]).map (·.1) =
      [⟨false, 0, true, false⟩, ⟨true, 0, false, true⟩, ⟨true, 5, true, false⟩, ⟨true, 5, false, false⟩] ∧
    [true, true, false] = unlimited 1 (∅ : Buckets Bool) [(false, 0), (true, 5), (true, 5)] := by
  have hrun : (checkedRun 1 (some 1) (∅ : Buckets Bool) [(false, 0), (true, 0), (true, 5), (true, 5)]).map (·.1) =
      [⟨false, 0, true, false⟩, ⟨true, 0, false, true⟩, ⟨true, 5, true, false⟩, ⟨true, 5, false, false⟩] := by
    decide +kernel
  refine ⟨hrun, ?_⟩
  have hkept := congrArg (List.filter fun c : Checked Bool => !c.noSlot) hrun
  have hexact := (eviction_invisible le_rfl (trace_checkedRun 1 (some 1) (∅ : Buckets Bool)
    [(false, 0), (true, 0), (true, 5), (true, 5)]) (by decide +kernel)).2.1
  rw [kept, hkept] at hexact
  exact hexact

end SpendGuard.Predictor
