import SpendGuard.Ledger.ReserveSet
import SpendGuard.Sidecar.Request

/-!
The lock order token, which the handler derives from the texts of the claims and the stored procedure from the
entries that are posted.
-/

namespace SpendGuard.Ledger

structure Uuid.Canonical (u : Uuid) : Prop where
  bits : u.bits < 2 ^ 128
  derivation : u.derivation = []

section Lex

variable {a b : List Char}

theorem append_lt_append_iff (h : a.length = b.length) (s t : List Char) :
    a ++ s < b ++ t ↔ a < b ∨ a = b ∧ s < t := by
  induction a generalizing b with
  | nil =>
    cases b with
    | nil => simp
    | cons c b => cases h
  | cons c a ih =>
    cases b with
    | nil => cases h
    | cons d b =>
      rw [List.cons_append, List.cons_append, List.cons_lt_cons_iff, List.cons_lt_cons_iff, ih (Nat.succ.inj h),
        List.cons.injEq]
      tauto

theorem length_hexDigits (width n : ℕ) : (hexDigits width n).length = width := by
  induction width generalizing n with
  | zero => rfl
  | succ width ih => rw [hexDigits, List.length_append, ih, List.length_singleton]

theorem digitChar_lt_iff : ∀ m n : Fin 16, Nat.digitChar m < Nat.digitChar n ↔ m < n := by decide

theorem hexDigits_lt_iff {width m n : ℕ} (hm : m < 16 ^ width) (hn : n < 16 ^ width) :
    hexDigits width m < hexDigits width n ↔ m < n := by
  induction width generalizing m n with
  | zero =>
    rw [pow_zero, Nat.lt_one_iff] at hm hn
    simp [hm, hn]
  | succ width ih =>
    rw [pow_succ] at hm hn
    have hm' : m / 16 < 16 ^ width := Nat.div_lt_of_lt_mul (by omega)
    have hn' : n / 16 < 16 ^ width := Nat.div_lt_of_lt_mul (by omega)
    have hlt := ih hm' hn'
    have heq : hexDigits width (m / 16) = hexDigits width (n / 16) ↔ m / 16 = n / 16 := by
      constructor
      · intro h
        have hgt := ih hn' hm'
        rw [h, iff_false_left (lt_irrefl _)] at hlt hgt
        omega
      · exact congrArg _
    have hdigit := digitChar_lt_iff ⟨m % 16, Nat.mod_lt m (by decide)⟩ ⟨n % 16, Nat.mod_lt n (by decide)⟩
    rw [Fin.mk_lt_mk] at hdigit
    rw [hexDigits, hexDigits, append_lt_append_iff (by rw [length_hexDigits, length_hexDigits]), hlt, heq,
      List.cons_lt_cons_iff, hdigit]
    simp only [List.not_lt_nil, and_false, or_false]
    omega

theorem Uuid.Canonical.text_toList {u : Uuid} (h : u.Canonical) :
    let d := hexDigits 32 u.bits
    u.text.toList = d.take 8 ++ ('-' :: ((d.drop 8).take 4 ++ ('-' :: ((d.drop 12).take 4 ++
      ('-' :: ((d.drop 16).take 4 ++ ('-' :: d.drop 20))))))) := by
  simp [Uuid.text, h.derivation]

theorem take_dash_lt_iff (h : a.length = b.length) (k : ℕ) {s t : List Char}
    (hrest : s < t ↔ a.drop k < b.drop k) : a.take k ++ '-' :: s < b.take k ++ '-' :: t ↔ a < b := by
  have hlen : (a.take k).length = (b.take k).length := by rw [List.length_take, List.length_take, h]
  rw [append_lt_append_iff hlen, List.cons_lt_cons_iff, hrest]
  conv_rhs => rw [← List.take_append_drop k a, ← List.take_append_drop k b, append_lt_append_iff hlen]
  simp

theorem Uuid.Canonical.text_lt_iff {u v : Uuid} (hu : u.Canonical) (hv : v.Canonical) :
    u.text < v.text ↔ u.bits < v.bits := by
  rw [String.lt_iff_toList_lt, hu.text_toList, hv.text_toList,
    ← @hexDigits_lt_iff 32 _ _ (lt_of_lt_of_eq hu.bits (by norm_num)) (lt_of_lt_of_eq hv.bits (by norm_num))]
  have hlen : (hexDigits 32 u.bits).length = (hexDigits 32 v.bits).length := by
    rw [length_hexDigits, length_hexDigits]
  have hdrop (k : ℕ) : ((hexDigits 32 u.bits).drop k).length = ((hexDigits 32 v.bits).drop k).length := by
    rw [List.length_drop, List.length_drop, hlen]
  apply take_dash_lt_iff hlen
  have hsplit (x : List Char) (j k : ℕ) : (x.drop j).drop k = x.drop (j + k) := List.drop_drop
  apply take_dash_lt_iff (hdrop 8)
  rw [hsplit, hsplit]
  apply take_dash_lt_iff (hdrop 12)
  rw [hsplit, hsplit]
  apply take_dash_lt_iff (hdrop 16)
  rw [hsplit, hsplit]

theorem Uuid.Canonical.ext {u v : Uuid} (hu : u.Canonical) (hv : v.Canonical) (h : u.bits = v.bits) : u = v := by
  have hderivation := hu.derivation.trans hv.derivation.symm
  cases u
  cases v
  exact congrArg₂ Uuid.mk h hderivation

theorem Uuid.Canonical.text_inj {u v : Uuid} (hu : u.Canonical) (hv : v.Canonical) : u.text = v.text ↔ u = v := by
  constructor
  · intro h
    have hlt := hu.text_lt_iff hv
    have hgt := hv.text_lt_iff hu
    rw [h, iff_false_left (lt_irrefl _)] at hlt hgt
    exact hu.ext hv (by omega)
  · exact congrArg _

theorem Uuid.Canonical.le_iff {u v : Uuid} (hu : u.Canonical) (hv : v.Canonical) (hne : u ≠ v) :
    u.le v = true ↔ u.text < v.text := by
  have hbits : u.bits ≠ v.bits := fun h => hne (hu.ext hv h)
  simp [hu.text_lt_iff hv, Uuid.le, hbits]

end Lex

/-- The texts of the account rows that a claim touches, in the order in which tuples are compared. -/
abbrev KeyTexts := String ×ₗ String ×ₗ String

def keyTexts (budget unit kind : String) : KeyTexts := toLex (budget, toLex (unit, kind))

def KeyTexts.format (k : KeyTexts) : String :=
  (ofLex k).1 ++ ":" ++ (ofLex (ofLex k).2).1 ++ ":" ++ (ofLex (ofLex k).2).2

def LockOrder.keys (claims : List Sidecar.BudgetClaim) : List KeyTexts :=
  claims.flatMap fun c =>
    let unitId := (c.unit.map (·.unitId)).getD ""
    [keyTexts c.budgetId unitId "available_budget", keyTexts c.budgetId unitId "reserved_hold"]

def LockOrder.derive (claims : List Sidecar.BudgetClaim) : String :=
  "v1:" ++ sha256Hex (",".intercalate
    ((((LockOrder.keys claims).insertionSort (· ≤ ·)).destutter (· ≠ ·)).map KeyTexts.format))

section Members

variable {claims claims' : List Sidecar.BudgetClaim}

theorem LockOrder.sorted_keys (keys : List KeyTexts) :
    (keys.insertionSort (· ≤ ·)).destutter (· ≠ ·) = keys.dedup.insertionSort (· ≤ ·) := by
  have hsorted := keys.pairwise_insertionSort (· ≤ ·)
  rw [hsorted.destutter_eq_dedup]
  have hperm : (keys.insertionSort (· ≤ ·)).dedup.Perm (keys.dedup.insertionSort (· ≤ ·)) :=
    (keys.perm_insertionSort (· ≤ ·)).dedup.trans (keys.dedup.perm_insertionSort (· ≤ ·)).symm
  exact hperm.eq_of_pairwise' (hsorted.sublist (List.dedup_sublist _)) (keys.dedup.pairwise_insertionSort (· ≤ ·))

theorem LockOrder.sorted_congr {keys keys' : List KeyTexts} (hnodup : keys.Nodup) (hnodup' : keys'.Nodup)
    (h : ∀ k, k ∈ keys ↔ k ∈ keys') : keys.insertionSort (· ≤ ·) = keys'.insertionSort (· ≤ ·) := by
  have hperm : keys.Perm keys' := (List.perm_ext_iff_of_nodup hnodup hnodup').mpr h
  exact ((keys.perm_insertionSort _).trans (hperm.trans (keys'.perm_insertionSort _).symm)).eq_of_pairwise'
    (keys.pairwise_insertionSort (· ≤ ·)) (keys'.pairwise_insertionSort (· ≤ ·))

theorem LockOrder.derive_congr (h : ∀ c, c ∈ claims' ↔ c ∈ claims) :
    LockOrder.derive claims' = LockOrder.derive claims := by
  have hkeys (k : KeyTexts) : k ∈ (LockOrder.keys claims').dedup ↔ k ∈ (LockOrder.keys claims).dedup := by
    simp only [List.mem_dedup, LockOrder.keys, List.mem_flatMap, h]
  rw [LockOrder.derive, LockOrder.derive, sorted_keys, sorted_keys,
    sorted_congr (List.nodup_dedup _) (List.nodup_dedup _) hkeys]

end Members

/-- The ids of a claim of the request are the texts of those that are parsed from it. -/
structure Reads (c : Sidecar.BudgetClaim) (p : BudgetClaim) : Prop where
  budget : c.budgetId = p.budget.text
  unit : c.unit.map (·.unitId) = some p.unit.text
  window : c.windowInstanceId = p.window.text
  budget_canonical : p.budget.Canonical
  unit_canonical : p.unit.Canonical
  window_canonical : p.window.Canonical

abbrev LockKey := Uuid × Uuid × AccountKind

namespace LockKey

def texts (k : LockKey) : KeyTexts := keyTexts k.1.text k.2.1.text k.2.2.text

structure Canonical (k : LockKey) : Prop where
  budget : k.1.Canonical
  unit : k.2.1.Canonical

theorem kind_text_inj {j k : AccountKind} : j.text = k.text ↔ j = k := by
  cases j <;> cases k <;> decide

variable {j k : LockKey}

theorem Canonical.texts_inj (hj : Canonical j) (hk : Canonical k) : texts j = texts k ↔ j = k := by
  simp only [texts, keyTexts, EmbeddingLike.apply_eq_iff_eq, hj.budget.text_inj hk.budget,
    hj.unit.text_inj hk.unit, kind_text_inj, Prod.ext_iff]

theorem Canonical.texts_le_iff (hj : Canonical j) (hk : Canonical k) :
    lockKeyLe j k = true ↔ texts j ≤ texts k := by
  rw [texts, texts, keyTexts, keyTexts, Prod.Lex.toLex_le_toLex, Prod.Lex.toLex_le_toLex,
    hj.budget.text_inj hk.budget, hj.unit.text_inj hk.unit, lockKeyLe]
  split
  · next hne => rw [hj.budget.le_iff hk.budget hne, or_iff_left (fun h => hne h.1)]
  · next heq =>
    have hbudget := not_not.mp heq
    rw [hbudget, iff_false_intro (lt_irrefl _), false_or, and_iff_right rfl]
    split
    · next hne => rw [hj.unit.le_iff hk.unit hne, or_iff_left (fun h => hne h.1)]
    · next heq' =>
      rw [not_not.mp heq', iff_false_intro (lt_irrefl _), false_or, and_iff_right rfl, decide_eq_true_iff]

end LockKey

def BudgetClaim.lockKeys (p : BudgetClaim) : List LockKey :=
  [(p.budget, p.unit, .availableBudget), (p.budget, p.unit, .reservedHold)]

theorem ReserveSet.map_buildEntriesPayload (r : ReserveSet) :
    (r.buildEntriesPayload.map fun e => (e.budget, e.unit, e.kind)) = r.claims.flatMap BudgetClaim.lockKeys := by
  have hclaims : r.claims = r.holds.map Prod.fst := by
    rw [ReserveSet.holds, List.map_map]
    exact (List.zipIdx_map_fst 0 r.claims).symm
  rw [hclaims, ReserveSet.buildEntriesPayload, List.map_flatMap, List.flatMap_map]
  rfl

section Agree

variable {claims : List Sidecar.BudgetClaim} {parsed : List BudgetClaim}

theorem keys_eq_map (h : List.Forall₂ Reads claims parsed) :
    LockOrder.keys claims = (parsed.flatMap BudgetClaim.lockKeys).map LockKey.texts := by
  induction h with
  | nil => rfl
  | @cons c p claims parsed hread _ ih =>
    rw [LockOrder.keys] at ih
    rw [LockOrder.keys, List.flatMap_cons, List.flatMap_cons, List.map_append, ih, hread.unit, hread.budget]
    rfl

theorem lockKeys_canonical (h : List.Forall₂ Reads claims parsed) :
    ∀ k ∈ parsed.flatMap BudgetClaim.lockKeys, LockKey.Canonical k := by
  induction h with
  | nil => intro k hk; cases hk
  | @cons c p claims parsed hread _ ih =>
    rw [List.flatMap_cons]
    intro k hk
    rcases List.mem_append.mp hk with hk | hk
    · rw [BudgetClaim.lockKeys, List.mem_pair] at hk
      rcases hk with rfl | rfl <;> exact ⟨hread.budget_canonical, hread.unit_canonical⟩
    · exact ih k hk

theorem lockOrderToken_eq {keys : List LockKey} (h : ∀ k ∈ keys, LockKey.Canonical k) :
    lockOrderToken keys = "v1:" ++ sha256Hex (",".intercalate
      (((keys.map LockKey.texts).dedup.insertionSort (· ≤ ·)).map KeyTexts.format)) := by
  have hcanonical (k : LockKey) (hk : k ∈ keys.dedup) := h k (List.mem_dedup.mp hk)
  have hnodup : (keys.dedup.map LockKey.texts).Nodup :=
    (List.nodup_dedup keys).map_on fun j hj k hk heq => ((hcanonical j hj).texts_inj (hcanonical k hk)).mp heq
  have hsorted := List.map_insertionSort (fun x y => lockKeyLe x y = true) (· ≤ ·) LockKey.texts keys.dedup
    fun j hj k hk => (hcanonical j hj).texts_le_iff (hcanonical k hk)
  have hmembers (t : KeyTexts) : t ∈ keys.dedup.map LockKey.texts ↔ t ∈ (keys.map LockKey.texts).dedup := by
    simp only [List.mem_map, List.mem_dedup]
  rw [LockOrder.sorted_congr hnodup (List.nodup_dedup _) hmembers] at hsorted
  rw [lockOrderToken, ← hsorted, List.map_map]
  rfl

end Agree

/-- The handler and the stored procedure derive one token, whatever the order of the claims and however often each
occurs. -/
theorem LockOrder.derive_eq_token {claims : List Sidecar.BudgetClaim} {r : ReserveSet}
    (h : List.Forall₂ Reads claims r.claims) :
    LockOrder.derive claims = r.post.token ∧
      ∀ claims', (∀ c, c ∈ claims' ↔ c ∈ claims) → LockOrder.derive claims' = LockOrder.derive claims := by
  refine ⟨?_, fun claims' hmembers => LockOrder.derive_congr hmembers⟩
  rw [LockOrder.derive, LockOrder.sorted_keys, LedgerPost.token, ReserveSet.post, r.map_buildEntriesPayload,
    lockOrderToken_eq (lockKeys_canonical h), keys_eq_map h]

def unsortedClaims : List Sidecar.BudgetClaim :=
  ["00000000-0000-0000-0000-00000000000b", "00000000-0000-0000-0000-00000000000a"].map fun budget =>
    { budgetId := budget, unit := some { unitId := "00000000-0000-0000-0000-000000000003" },
      amountAtomic := "5", direction := .debit, windowInstanceId := "00000000-0000-0000-0000-000000000004" }

def unsortedReserve : ReserveSet where
  transaction := ⟨⟨5, []⟩, ⟨6, []⟩, "k", [], ⟨7, []⟩, ⟨8, []⟩, ⟨9, []⟩, 1, "w"⟩
  claims := [11, 10].map fun budget => ⟨⟨budget, []⟩, ⟨4, []⟩, ⟨3, []⟩, 5⟩
  pricing := ⟨"p", [], none, none⟩
  ttlExpiresAt := .time 0
  audit := ⟨⟨12, []⟩, .decision, 1⟩
  callerLockToken := none

theorem LockOrder.unsorted_claims_one_token :
    LockOrder.derive unsortedClaims = unsortedReserve.post.token ∧
      LockOrder.derive (unsortedClaims.reverse ++ unsortedClaims) = LockOrder.derive unsortedClaims := by
  have hreads : List.Forall₂ Reads unsortedClaims unsortedReserve.claims := by
    refine .cons ?_ (.cons ?_ .nil)
    all_goals exact ⟨by decide +kernel, by decide +kernel, by decide +kernel, ⟨by decide, rfl⟩, ⟨by decide, rfl⟩,
      ⟨by decide, rfl⟩⟩
  have hagree := LockOrder.derive_eq_token hreads
  exact ⟨hagree.1, hagree.2 _ fun c => by simp⟩

end SpendGuard.Ledger
