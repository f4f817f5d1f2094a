import SpendGuard.Base.Check
import SpendGuard.Base.Codes
import SpendGuard.Base.Text
import SpendGuard.Ledger.Posting
import SpendGuard.Sidecar.Idempotency

/-!
The hash by which the ledger recognizes a reserve request, and when it is that of the business intent.
-/

namespace SpendGuard.Ledger.RequestHash

open Base

@[ext] structure PricingFreeze where
  pricingVersion : String
  priceSnapshotHash : Bytes
  fxRateVersion : String
  unitConversionVersion : String
  deriving DecidableEq

@[ext] structure Fencing where
  epoch : UInt64
  scopeId : String
  deriving DecidableEq

@[ext] structure ContractBundleRef where
  bundleId : String
  bundleHash : Bytes
  deriving DecidableEq

structure ReserveSetRequest where
  tenantId : String
  claims : List Sidecar.BudgetClaim
  pricing : Option PricingFreeze
  fencing : Option Fencing
  contractBundle : Option ContractBundleRef
  lockOrderToken : Option String

def unitId (c : Sidecar.BudgetClaim) : String := (c.unit.map (·.unitId)).getD ""

def directionCode : Sidecar.Direction → ℕ
  | .unspecified => 0
  | .debit => 1
  | .credit => 2

abbrev ClaimKey := String ×ₗ String ×ₗ String ×ₗ ℕ

def sortKey (c : Sidecar.BudgetClaim) : ClaimKey :=
  toLex (c.budgetId, toLex (unitId c, toLex (c.windowInstanceId, directionCode c.direction)))

def claimBytes (c : Sidecar.BudgetClaim) : Bytes :=
  utf8 "|claim|" ++ (utf8 c.budgetId ++ (utf8 (unitId c) ++ (utf8 c.amountAtomic ++
    UInt8.ofNat (directionCode c.direction) :: utf8 c.windowInstanceId)))

def PricingFreeze.bytes (p : PricingFreeze) : Bytes :=
  utf8 "|pricing|" ++ (utf8 p.pricingVersion ++ (p.priceSnapshotHash ++ (utf8 p.fxRateVersion ++
    utf8 p.unitConversionVersion)))

def Fencing.bytes (f : Fencing) : Bytes := utf8 "|fencing|" ++ (Sidecar.be64 f.epoch.toNat ++ utf8 f.scopeId)

def ContractBundleRef.bytes (b : ContractBundleRef) : Bytes :=
  utf8 "|contract_bundle|" ++ (utf8 b.bundleId ++ b.bundleHash)

namespace ReserveSetRequest

def token (r : ReserveSetRequest) : Option String := r.lockOrderToken.filter (· ≠ "")

def tail (r : ReserveSetRequest) : Bytes :=
  (r.pricing.map PricingFreeze.bytes).getD [] ++ ((r.fencing.map Fencing.bytes).getD [] ++
    ((r.contractBundle.map ContractBundleRef.bytes).getD [] ++
      (r.token.map fun t => utf8 "|lock_order_token|" ++ utf8 t).getD []))

def preimage (r : ReserveSetRequest) : Bytes :=
  utf8 "v1:reserve_set:business_intent:" ++ (utf8 r.tenantId ++
    ((sortByKey sortKey r.claims).flatMap claimBytes ++ r.tail))

/-- `requestHash` is the hash that the caller has sent, if any. -/
def canonicalRequestHash (sha256 : Bytes → Bytes) (r : ReserveSetRequest) (requestHash : Bytes) :
    Except Sidecar.DomainError Bytes := do
  let canonical := sha256 r.preimage
  if requestHash ≠ [] then do
    check (requestHash.length = 32) (.invalidRequest "Idempotency.request_hash must be 32 bytes (sha256)")
    check (requestHash = canonical) (.ledger idempotencyConflict)
  return canonical

end ReserveSetRequest

def isHexByte (b : UInt8) : Bool := 48 ≤ b && b ≤ 57 || 65 ≤ b && b ≤ 70 || 97 ≤ b && b ≤ 102

def Hyphenated (t : Bytes) : Prop :=
  t.length = 36 ∧ ∀ p ∈ t.zipIdx, if p.2 ∈ [8, 13, 18, 23] then p.1 = 45 else isHexByte p.1 = true

/-- The spellings of a UUID that `Uuid::parse_str` reads. -/
inductive UuidText : Bytes → Prop
  | simple {t} : t.length = 32 → (∀ b ∈ t, isHexByte b = true) → UuidText t
  | hyphenated {t} : Hyphenated t → UuidText t
  | braced {t} : Hyphenated t → UuidText (123 :: (t ++ [125]))
  | urn {t} : Hyphenated t → UuidText (utf8 "urn:uuid:" ++ t)

instance (t : Bytes) : Decidable (Hyphenated t) := inferInstanceAs (Decidable (_ ∧ _))

def uuidLength (t : Bytes) : ℕ :=
  if t.head? = some 123 then 38 else if t.head? = some 117 then 45 else if t[8]? = some 45 then 36 else 32

theorem not_hexByte_head {b : UInt8} (h : isHexByte b = true) : b ≠ 123 ∧ b ≠ 117 ∧ b ≠ 45 := by
  refine ⟨?_, ?_, ?_⟩ <;> rintro rfl <;> exact absurd h (by decide)

theorem Hyphenated.getElem? {t : Bytes} (h : Hyphenated t) {i : ℕ} (hi : i < 36) :
    ∃ b, t[i]? = some b ∧ if i ∈ [8, 13, 18, 23] then b = 45 else isHexByte b = true := by
  have hlt : i < t.length := h.1 ▸ hi
  have hb : t[i]? = some t[i] := List.getElem?_eq_getElem hlt
  exact ⟨t[i], hb, h.2 (t[i], i) (List.mem_zipIdx_iff_getElem?.mpr hb)⟩

theorem uuidLength_digits {t s : Bytes} {b c : UInt8} (hb : t[0]? = some b) (hhex : isHexByte b = true)
    (hc : t[8]? = some c) : uuidLength (t ++ s) = if c = 45 then 36 else 32 := by
  have hlen : 8 < t.length := (List.getElem?_eq_some_iff.mp hc).1
  have hhead : (t ++ s).head? = some b := by
    rw [List.head?_eq_getElem?, List.getElem?_append_left (by omega), hb]
  have height : (t ++ s)[8]? = some c := by rw [List.getElem?_append_left hlen, hc]
  have hne := not_hexByte_head hhex
  simp [uuidLength, hhead, height, hne]

theorem UuidText.length_eq {t : Bytes} (h : UuidText t) (s : Bytes) : uuidLength (t ++ s) = t.length := by
  cases h with
  | simple hlen hhex =>
    have hget (i : ℕ) (hi : i < t.length) : t[i]? = some t[i] ∧ isHexByte t[i] = true :=
      ⟨List.getElem?_eq_getElem hi, hhex _ (List.getElem_mem hi)⟩
    have hzero := hget 0 (by omega)
    have height := hget 8 (by omega)
    rw [uuidLength_digits hzero.1 hzero.2 height.1, if_neg (not_hexByte_head height.2).2.2, hlen]
  | hyphenated ht =>
    obtain ⟨b, hb, hhex⟩ := ht.getElem? (by decide : 0 < 36)
    obtain ⟨c, hc, hhyphen⟩ := ht.getElem? (by decide : 8 < 36)
    rw [uuidLength_digits hb hhex hc, if_pos (show c = 45 from hhyphen), ht.1]
  | braced ht =>
    rw [List.length_cons, List.length_append, ht.1]
    rfl
  | urn ht =>
    have hurn : utf8 "urn:uuid:" = [117, 114, 110, 58, 117, 117, 105, 100, 58] := by decide
    rw [hurn, List.length_append, ht.1]
    rfl

theorem prefixFree_uuidText : PrefixFree {t | UuidText t} := by
  intro x hx y hy s t heq
  rw [← UuidText.length_eq hx s, heq, UuidText.length_eq hy t]

structure ValidClaim (c : Sidecar.BudgetClaim) : Prop where
  budget : UuidText (utf8 c.budgetId)
  unit : ∃ u, c.unit = some u ∧ UuidText (utf8 u.unitId)
  window : UuidText (utf8 c.windowInstanceId)
  amount : c.amountAtomic ≠ "" ∧ ∀ b ∈ utf8 c.amountAtomic, 48 ≤ b ∧ b ≤ 57

structure ReserveSetRequest.Valid (r : ReserveSetRequest) : Prop where
  tenant : UuidText (utf8 r.tenantId)
  claims : ∀ c ∈ r.claims, ValidClaim c

@[ext] structure ClaimIntent where
  budget : String
  unit : String
  amount : String
  direction : Sidecar.Direction
  window : String
  deriving DecidableEq

def intentOf (c : Sidecar.BudgetClaim) : ClaimIntent :=
  ⟨c.budgetId, unitId c, c.amountAtomic, c.direction, c.windowInstanceId⟩

namespace ClaimIntent

def key (c : ClaimIntent) : ClaimKey := toLex (c.budget, toLex (c.unit, toLex (c.window, directionCode c.direction)))

def bytes (c : ClaimIntent) : Bytes :=
  utf8 "|claim|" ++ (utf8 c.budget ++ (utf8 c.unit ++ (utf8 c.amount ++
    UInt8.ofNat (directionCode c.direction) :: utf8 c.window)))

structure Valid (c : ClaimIntent) : Prop where
  budget : UuidText (utf8 c.budget)
  unit : UuidText (utf8 c.unit)
  window : UuidText (utf8 c.window)
  amount : ∀ b ∈ utf8 c.amount, 48 ≤ b ∧ b ≤ 57

theorem directionCode_inj {d d' : Sidecar.Direction}
    (h : UInt8.ofNat (directionCode d) = UInt8.ofNat (directionCode d')) : d = d' := by
  revert h
  cases d <;> cases d' <;> decide

theorem not_digit_direction (d : Sidecar.Direction) :
    ¬(48 ≤ UInt8.ofNat (directionCode d) ∧ UInt8.ofNat (directionCode d) ≤ 57) := by
  cases d <;> decide

theorem decodes_bytes : Decodes bytes {c | c.Valid} := by
  intro c hc c' hc' s t heq
  simp only [bytes, List.append_assoc, List.append_cancel_left_eq] at heq
  obtain ⟨hbudget, heq⟩ := prefixFree_uuidText.append_inj hc.budget hc'.budget heq
  obtain ⟨hunit, heq⟩ := prefixFree_uuidText.append_inj hc.unit hc'.unit heq
  obtain ⟨hamount, hdirection, heq⟩ := append_cons_inj hc.amount hc'.amount (not_digit_direction _)
    (not_digit_direction _) heq
  obtain ⟨hwindow, heq⟩ := prefixFree_uuidText.append_inj hc.window hc'.window heq
  exact ⟨ClaimIntent.ext (utf8_inj.mp hbudget) (utf8_inj.mp hunit) (utf8_inj.mp hamount)
    (directionCode_inj hdirection) (utf8_inj.mp hwindow), heq⟩

end ClaimIntent

theorem ValidClaim.intent {c : Sidecar.BudgetClaim} (h : ValidClaim c) : (intentOf c).Valid := by
  obtain ⟨u, hu, hunit⟩ := h.unit
  refine ⟨h.budget, ?_, h.window, h.amount.2⟩
  show UuidText (utf8 (unitId c))
  rw [unitId, hu]
  exact hunit

theorem map_sortByKey (claims : List Sidecar.BudgetClaim) :
    (sortByKey sortKey claims).map intentOf = sortByKey ClaimIntent.key (claims.map intentOf) :=
  List.map_insertionSort _ _ intentOf claims fun _ _ _ _ => Iff.rfl

namespace ReserveSetRequest

variable {r r' : ReserveSetRequest}

theorem claims_bytes (r : ReserveSetRequest) : (sortByKey sortKey r.claims).flatMap claimBytes =
    (sortByKey ClaimIntent.key (r.claims.map intentOf)).flatMap ClaimIntent.bytes := by
  rw [← map_sortByKey, List.flatMap_map]
  rfl

theorem claim_mark : utf8 "|claim|" = [124, 99, 108, 97, 105, 109, 124] := by decide

theorem not_claim_tail (r : ReserveSetRequest) : ¬utf8 "|claim|" <+: r.tail := by
  have hpricing : utf8 "|pricing|" = [124, 112, 114, 105, 99, 105, 110, 103, 124] := by decide
  have hfencing : utf8 "|fencing|" = [124, 102, 101, 110, 99, 105, 110, 103, 124] := by decide
  have hbundle : utf8 "|contract_bundle|" =
      [124, 99, 111, 110, 116, 114, 97, 99, 116, 95, 98, 117, 110, 100, 108, 101, 124] := by decide
  have htoken : utf8 "|lock_order_token|" =
      [124, 108, 111, 99, 107, 95, 111, 114, 100, 101, 114, 95, 116, 111, 107, 101, 110, 124] := by decide
  rw [claim_mark, tail]
  cases r.pricing with
  | some p => simp [PricingFreeze.bytes, hpricing]
  | none =>
    cases r.fencing with
    | some f => simp [Fencing.bytes, hfencing]
    | none =>
      cases r.contractBundle with
      | some b => simp [ContractBundleRef.bytes, hbundle]
      | none => cases r.token <;> simp [htoken]

def SameOrder (r r' : ReserveSetRequest) : Prop :=
  ∀ k, (r.claims.filter (sortKey · = k)).map (·.amountAtomic) = (r'.claims.filter (sortKey · = k)).map (·.amountAtomic)

def claimOf (k : ClaimKey) (amount : String) : ClaimIntent :=
  let rest := ofLex (ofLex k).2
  let window := ofLex rest.2
  ⟨(ofLex k).1, rest.1, amount, match window.2 with
    | 0 => .unspecified
    | 1 => .debit
    | _ => .credit, window.1⟩

theorem claimOf_sortKey (c : Sidecar.BudgetClaim) : claimOf (sortKey c) c.amountAtomic = intentOf c := by
  cases hdirection : c.direction <;> simp [claimOf, sortKey, intentOf, hdirection, directionCode]

theorem filter_intents (k : ClaimKey) (claims : List Sidecar.BudgetClaim) :
    (claims.map intentOf).filter (ClaimIntent.key · = k) =
      ((claims.filter (sortKey · = k)).map (·.amountAtomic)).map (claimOf k) := by
  rw [List.filter_map, List.map_map]
  refine List.map_congr_left fun c hc => ?_
  have hkey : sortKey c = k := of_decide_eq_true (List.mem_filter.mp hc).2
  rw [Function.comp_apply, ← hkey, claimOf_sortKey]

theorem sameOrder_iff : SameOrder r r' ↔
    sortByKey ClaimIntent.key (r.claims.map intentOf) = sortByKey ClaimIntent.key (r'.claims.map intentOf) := by
  rw [sortByKey_eq_iff]
  refine forall_congr' fun k => ?_
  have hinj : Function.Injective (claimOf k) := fun a b h => congrArg ClaimIntent.amount h
  rw [filter_intents, filter_intents, hinj.list_map.eq_iff]

theorem SameOrder.perm (h : SameOrder r r') : (r.claims.map intentOf).Perm (r'.claims.map intentOf) := by
  have hperm := @perm_sortByKey _ _ _ ClaimIntent.key (r.claims.map intentOf)
  rw [sameOrder_iff.mp h] at hperm
  exact hperm.symm.trans (perm_sortByKey _)

theorem preimage_eq_iff (hr : r.Valid) (hr' : r'.Valid) : r.preimage = r'.preimage ↔
    r.tenantId = r'.tenantId ∧ SameOrder r r' ∧ r.tail = r'.tail := by
  rw [sameOrder_iff, preimage, preimage, claims_bytes, claims_bytes, List.append_cancel_left_eq]
  constructor
  · intro heq
    obtain ⟨htenant, heq⟩ := prefixFree_uuidText.append_inj hr.tenant hr'.tenant heq
    have hvalid {x : ReserveSetRequest} (hx : x.Valid) :
        ∀ c ∈ sortByKey ClaimIntent.key (x.claims.map intentOf), c.Valid := by
      intro c hc
      obtain ⟨claim, hclaim, rfl⟩ := List.mem_map.mp ((perm_sortByKey _).mem_iff.mp hc)
      exact (hx.claims claim hclaim).intent
    obtain ⟨hclaims, htail⟩ := ClaimIntent.decodes_bytes.flatMap (fun c => ⟨_, rfl⟩) r.not_claim_tail
      r'.not_claim_tail (hvalid hr) (hvalid hr') heq
    exact ⟨utf8_inj.mp htenant, hclaims, htail⟩
  · rintro ⟨htenant, hclaims, htail⟩
    rw [htenant, hclaims, htail]

end ReserveSetRequest

def PricingFreeze.cut (p : PricingFreeze) : List ℕ :=
  [(utf8 p.pricingVersion).length, p.priceSnapshotHash.length, (utf8 p.fxRateVersion).length,
    (utf8 p.unitConversionVersion).length]

def Fencing.cut (f : Fencing) : ℕ := (utf8 f.scopeId).length

def ContractBundleRef.cut (b : ContractBundleRef) : ℕ × ℕ := ((utf8 b.bundleId).length, b.bundleHash.length)

theorem PricingFreeze.append_inj {p q : PricingFreeze} {s t : Bytes} (hcut : p.cut = q.cut)
    (heq : p.bytes ++ s = q.bytes ++ t) : p = q ∧ s = t := by
  simp only [cut, List.cons.injEq, and_true] at hcut
  simp only [bytes, List.append_assoc, List.append_cancel_left_eq] at heq
  obtain ⟨hversion, heq⟩ := List.append_inj heq hcut.1
  obtain ⟨hhash, heq⟩ := List.append_inj heq hcut.2.1
  obtain ⟨hfx, heq⟩ := List.append_inj heq hcut.2.2.1
  obtain ⟨hconversion, heq⟩ := List.append_inj heq hcut.2.2.2
  exact ⟨PricingFreeze.ext (utf8_inj.mp hversion) hhash (utf8_inj.mp hfx) (utf8_inj.mp hconversion), heq⟩

theorem be64_inj {m n : ℕ} (hm : m < 2 ^ 64) (hn : n < 2 ^ 64) (h : Sidecar.be64 m = Sidecar.be64 n) : m = n := by
  simp only [Sidecar.be64, List.range_succ, List.range_zero, List.map_cons, List.map_nil,
    List.nil_append, List.cons_append, List.cons.injEq, and_true] at h
  have hbyte {a b : ℕ} (hab : UInt8.ofNat a = UInt8.ofNat b) : a % 256 = b % 256 := congrArg UInt8.toNat hab
  obtain ⟨h0, h1, h2, h3, h4, h5, h6, h7⟩ := h
  have h0 := hbyte h0
  have h1 := hbyte h1
  have h2 := hbyte h2
  have h3 := hbyte h3
  have h4 := hbyte h4
  have h5 := hbyte h5
  have h6 := hbyte h6
  have h7 := hbyte h7
  norm_num at h0 h1 h2 h3 h4 h5 h6 h7
  omega

theorem Fencing.append_inj {f g : Fencing} {s t : Bytes} (hcut : f.cut = g.cut) (heq : f.bytes ++ s = g.bytes ++ t) :
    f = g ∧ s = t := by
  simp only [bytes, List.append_assoc, List.append_cancel_left_eq] at heq
  obtain ⟨hepoch, heq⟩ := List.append_inj heq (by rw [Sidecar.length_be64, Sidecar.length_be64])
  obtain ⟨hscope, heq⟩ := List.append_inj heq hcut
  have hepoch := UInt64.toNat_inj.mp (be64_inj f.epoch.toNat_lt g.epoch.toNat_lt hepoch)
  exact ⟨Fencing.ext hepoch (utf8_inj.mp hscope), heq⟩

theorem ContractBundleRef.append_inj {b c : ContractBundleRef} {s t : Bytes} (hcut : b.cut = c.cut)
    (heq : b.bytes ++ s = c.bytes ++ t) : b = c ∧ s = t := by
  simp only [cut, Prod.mk.injEq] at hcut
  simp only [bytes, List.append_assoc, List.append_cancel_left_eq] at heq
  obtain ⟨hid, heq⟩ := List.append_inj heq hcut.1
  obtain ⟨hhash, heq⟩ := List.append_inj heq hcut.2
  exact ⟨ContractBundleRef.ext (utf8_inj.mp hid) hhash, heq⟩

namespace ReserveSetRequest

variable {r r' : ReserveSetRequest}

structure SameCuts (r r' : ReserveSetRequest) : Prop where
  pricing : r.pricing.map PricingFreeze.cut = r'.pricing.map PricingFreeze.cut
  fencing : r.fencing.map Fencing.cut = r'.fencing.map Fencing.cut
  contractBundle : r.contractBundle.map ContractBundleRef.cut = r'.contractBundle.map ContractBundleRef.cut
  token : r.token.map (fun t => (utf8 t).length) = r'.token.map fun t => (utf8 t).length

structure SameContext (r r' : ReserveSetRequest) : Prop where
  pricing : r.pricing = r'.pricing
  fencing : r.fencing = r'.fencing
  contractBundle : r.contractBundle = r'.contractBundle
  token : r.token = r'.token

theorem sameContext_iff : SameContext r r' ↔ r.tail = r'.tail ∧ SameCuts r r' := by
  constructor
  · rintro ⟨hpricing, hfencing, hbundle, htoken⟩
    rw [tail, tail, hpricing, hfencing, hbundle, htoken]
    exact ⟨rfl, by rw [hpricing], by rw [hfencing], by rw [hbundle], by rw [htoken]⟩
  · rintro ⟨heq, hcuts⟩
    rw [tail, tail] at heq
    obtain ⟨hpricing, heq⟩ := option_append_inj (fun _ _ _ _ => PricingFreeze.append_inj) hcuts.pricing heq
    obtain ⟨hfencing, heq⟩ := option_append_inj (fun _ _ _ _ => Fencing.append_inj) hcuts.fencing heq
    obtain ⟨hbundle, heq⟩ := option_append_inj (fun _ _ _ _ => ContractBundleRef.append_inj) hcuts.contractBundle heq
    have hend := congrArg (· ++ ([] : Bytes)) heq
    refine ⟨hpricing, hfencing, hbundle, (option_append_inj (fun x y s t hcut heq => ?_) hcuts.token hend).1⟩
    rw [List.append_assoc, List.append_assoc, List.append_cancel_left_eq] at heq
    obtain ⟨htoken, heq⟩ := List.append_inj heq hcut
    exact ⟨utf8_inj.mp htoken, heq⟩

structure SameIntent (r r' : ReserveSetRequest) : Prop where
  tenant : r.tenantId = r'.tenantId
  claims : (r.claims.map intentOf).Perm (r'.claims.map intentOf)
  context : SameContext r r'

theorem canonicalRequestHash_ok {sha256 : Bytes → Bytes} {sent hash : Bytes}
    (h : r.canonicalRequestHash sha256 sent = .ok hash) : hash = sha256 r.preimage := by
  rw [canonicalRequestHash] at h
  split at h
  · obtain ⟨-, h⟩ := check_bind_eq_ok.mp h
    obtain ⟨-, h⟩ := check_bind_eq_ok.mp h
    exact (Except.ok.inj h).symm
  · exact (Except.ok.inj h).symm

/-- Two hashes are equal exactly where the intents are, if and only if equal intents list the amounts of each key in
one order and equal texts behind the claims are cut at the same places. -/
theorem canonicalRequestHash_identifies_iff {sha256 : Bytes → Bytes} (hsha : Function.Injective sha256) (hr : r.Valid)
    (hr' : r'.Valid) {sent sent' hash hash' : Bytes} (h : r.canonicalRequestHash sha256 sent = .ok hash)
    (h' : r'.canonicalRequestHash sha256 sent' = .ok hash') :
    (hash = hash' ↔ SameIntent r r') ↔
      (SameIntent r r' → SameOrder r r') ∧
        (r.tenantId = r'.tenantId → SameOrder r r' → r.tail = r'.tail → SameCuts r r') := by
  rw [canonicalRequestHash_ok h, canonicalRequestHash_ok h', hsha.eq_iff, preimage_eq_iff hr hr']
  have hintent : SameIntent r r' ↔ r.tenantId = r'.tenantId ∧ (r.claims.map intentOf).Perm (r'.claims.map intentOf) ∧
      r.tail = r'.tail ∧ SameCuts r r' := by
    rw [← sameContext_iff]
    exact ⟨fun h => ⟨h.tenant, h.claims, h.context⟩, fun h => ⟨h.1, h.2.1, h.2.2⟩⟩
  have hperm : SameOrder r r' → (r.claims.map intentOf).Perm (r'.claims.map intentOf) := SameOrder.perm
  constructor
  · intro hiff
    refine ⟨fun hsame => (hiff.mpr hsame).2.1, fun htenant horder htail => ?_⟩
    exact (hintent.mp (hiff.mp ⟨htenant, horder, htail⟩)).2.2.2
  · rintro ⟨horder, hcuts⟩
    refine ⟨fun ⟨htenant, hsame, htail⟩ => ?_, fun hsame => ?_⟩
    · exact hintent.mpr ⟨htenant, hperm hsame, htail, hcuts htenant hsame htail⟩
    · exact ⟨hsame.tenant, horder hsame, (hintent.mp hsame).2.2.1⟩

end ReserveSetRequest

def debitClaim (budget amount : String) : Sidecar.BudgetClaim where
  budgetId := budget
  unit := some { unitId := "00000000-0000-0000-0000-000000000003" }
  amountAtomic := amount
  direction := .debit
  windowInstanceId := "00000000-0000-0000-0000-000000000004"

def pricedRequest (claims : List Sidecar.BudgetClaim) (fxRateVersion unitConversionVersion : String) :
    ReserveSetRequest where
  tenantId := "00000000-0000-0000-0000-000000000001"
  claims := claims
  pricing := some ⟨"v1", [7], fxRateVersion, unitConversionVersion⟩
  fencing := some ⟨1, "00000000-0000-0000-0000-000000000002"⟩
  contractBundle := none
  lockOrderToken := none

def budgetA : String := "00000000-0000-0000-0000-00000000000a"

def budgetB : String := "00000000-0000-0000-0000-00000000000b"

theorem valid_pricedRequest {claims : List (String × String)}
    (h : ∀ c ∈ claims, (c.1 = budgetA ∨ c.1 = budgetB) ∧ (c.2 = "1" ∨ c.2 = "2")) (fx conversion : String) :
    (pricedRequest (claims.map fun c => debitClaim c.1 c.2) fx conversion).Valid := by
  have htenant : Hyphenated (utf8 "00000000-0000-0000-0000-000000000001") := by decide +kernel
  refine ⟨.hyphenated htenant, fun c hc => ?_⟩
  obtain ⟨⟨budget, amount⟩, hmem, rfl⟩ := List.mem_map.mp hc
  obtain ⟨hbudget, hamount⟩ := h _ hmem
  have hunit : Hyphenated (utf8 "00000000-0000-0000-0000-000000000003") := by decide +kernel
  have hwindow : Hyphenated (utf8 "00000000-0000-0000-0000-000000000004") := by decide +kernel
  refine ⟨?_, ⟨_, rfl, .hyphenated hunit⟩, .hyphenated hwindow, ?_⟩
  · have hA : Hyphenated (utf8 budgetA) := by decide +kernel
    have hB : Hyphenated (utf8 budgetB) := by decide +kernel
    rcases hbudget with heq | heq
    · exact .hyphenated (heq ▸ hA)
    · exact .hyphenated (heq ▸ hB)
  · have hone : "1" ≠ "" ∧ ∀ b ∈ utf8 "1", 48 ≤ b ∧ b ≤ 57 := by decide +kernel
    have htwo : "2" ≠ "" ∧ ∀ b ∈ utf8 "2", 48 ≤ b ∧ b ≤ 57 := by decide +kernel
    rcases hamount with heq | heq
    · exact heq ▸ hone
    · exact heq ▸ htwo

/-- Claims on two budgets in another order have one hash. -/
theorem reordered_claims_one_hash :
    let r := pricedRequest [debitClaim budgetA "1", debitClaim budgetB "2"] "1" "2"
    let r' := pricedRequest [debitClaim budgetB "2", debitClaim budgetA "1"] "1" "2"
    ∃ hash, r.canonicalRequestHash id [] = .ok hash ∧ r'.canonicalRequestHash id [] = .ok hash := by
  intro r r'
  have hvalid : r.Valid := @valid_pricedRequest [(budgetA, "1"), (budgetB, "2")] (by decide) "1" "2"
  have hvalid' : r'.Valid := @valid_pricedRequest [(budgetB, "2"), (budgetA, "1")] (by decide) "1" "2"
  have hsorted : sortByKey ClaimIntent.key (r.claims.map intentOf) = sortByKey ClaimIntent.key (r'.claims.map intentOf) := by
    decide +kernel
  have horder := ReserveSetRequest.sameOrder_iff.mpr hsorted
  have hiff : r.preimage = r'.preimage ↔ r.SameIntent r' :=
    (ReserveSetRequest.canonicalRequestHash_identifies_iff Function.injective_id hvalid hvalid'
      (show r.canonicalRequestHash id [] = .ok r.preimage from rfl)
      (show r'.canonicalRequestHash id [] = .ok r'.preimage from rfl)).mpr
        ⟨fun _ => horder, fun _ _ _ => ⟨rfl, rfl, rfl, rfl⟩⟩
  have hsame := hiff.mpr ⟨rfl, horder.perm, ⟨rfl, rfl, rfl, rfl⟩⟩
  exact ⟨r.preimage, rfl, congrArg Except.ok hsame.symm⟩

/-- Two claims of one key in another order have another hash, and two prices whose parts spell the same text have one
hash. -/
theorem hash_differs_from_intent :
    (let r := pricedRequest [debitClaim budgetA "1", debitClaim budgetA "2"] "1" "2"
      let r' := pricedRequest [debitClaim budgetA "2", debitClaim budgetA "1"] "1" "2"
      r.Valid ∧ r'.Valid ∧ r.SameIntent r' ∧
        r.canonicalRequestHash id [] = .ok r.preimage ∧ r'.canonicalRequestHash id [] = .ok r'.preimage ∧
        r.preimage ≠ r'.preimage) ∧
    (let r := pricedRequest [debitClaim budgetA "1"] "1" "2"
      let r' := pricedRequest [debitClaim budgetA "1"] "12" ""
      r.Valid ∧ r'.Valid ∧ ¬r.SameIntent r' ∧
        r.canonicalRequestHash id [] = .ok r.preimage ∧ r'.canonicalRequestHash id [] = .ok r'.preimage ∧
        r.preimage = r'.preimage) := by
  refine ⟨⟨?_, ?_, ⟨rfl, .swap _ _ _, ⟨rfl, rfl, rfl, rfl⟩⟩, rfl, rfl, by decide +kernel⟩,
    ⟨?_, ?_, fun hsame => ?_, rfl, rfl, by decide +kernel⟩⟩
  · exact @valid_pricedRequest [(budgetA, "1"), (budgetA, "2")] (by decide) "1" "2"
  · exact @valid_pricedRequest [(budgetA, "2"), (budgetA, "1")] (by decide) "1" "2"
  · exact @valid_pricedRequest [(budgetA, "1")] (by decide) "1" "2"
  · exact @valid_pricedRequest [(budgetA, "1")] (by decide) "12" ""
  · exact absurd hsame.context.pricing (by decide +kernel)

end SpendGuard.Ledger.RequestHash
