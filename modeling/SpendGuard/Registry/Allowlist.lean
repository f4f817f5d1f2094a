import SpendGuard.Base.Pattern
import SpendGuard.Ledger.Schema
import SpendGuard.Registry.Patch

/-!
The allowlist of patches as the database checks it, by patterns, and where it differs from the check before the
insertion.
-/

namespace SpendGuard.Registry

open Base Base.Pattern Ledger

namespace Allowlist

def digits : List Char := "0123456789".toList

def hex : List Char := "0123456789abcdef".toList

def roleChars : List Char :=
  "ABCDEFGHIJKLMNOPQRSTUVWXYZabcdefghijklmnopqrstuvwxyz0123456789_-".toList

def idxPat : RegularExpression Char := lit ['0'] + oneOf "123456789".toList * many digits

def budgetLeaf : RegularExpression Char := lit "limit_amount_atomic".toList + lit "reservation_ttl_seconds".toList

def ruleLeaf : RegularExpression Char :=
  lit "when/claim_amount_atomic_gt".toList + lit "then/".toList * (lit "decision".toList + lit "approver_role".toList)

def replacePattern : RegularExpression Char :=
  lit "/spec/".toList * (lit "budgets/".toList * (idxPat * (lit "/".toList * budgetLeaf)) +
    lit "rules/".toList * (idxPat * (lit "/".toList * ruleLeaf)))

def testPattern : RegularExpression Char := lit "/spec/budgets/".toList * (idxPat * lit "/id".toList)

def budgetReplaceIdxPattern : RegularExpression Char :=
  lit "/spec/budgets/".toList * (idxPat * (lit "/".toList * budgetLeaf))

def uuidPat : RegularExpression Char :=
  seq (.replicate 8 hex ++ ['-'] :: (.replicate 4 hex ++ ['-'] :: (.replicate 4 hex ++ ['-'] ::
    (.replicate 4 hex ++ ['-'] :: .replicate 12 hex))))

/-- `regexp_match` with `^/spec/budgets/(idx)` and what must follow: the longest text of the group. -/
def captureIdx (follows : List Char → Bool) (path : String) : Option (List Char) :=
  stripFront "/spec/budgets/".toList path.toList >>= fun rest =>
    rest.inits.reverse.find? fun idx => idxPat.rmatch idx && follows (rest.drop idx.length)

/-- `::INT` of a text of digits. -/
def castInt (idx : List Char) : Except PgError ℕ :=
  let n := Nat.ofDigitChars 10 idx 0
  if n < 2 ^ 31 then .ok n
  else .error ⟨"22003", "value \"" ++ String.ofList idx ++ "\" is out of range for type integer"⟩

/-- A `numeric`: `unscaled / 10 ^ dscale`, shown with `dscale` digits behind the point. -/
structure Numeric where
  negative : Bool
  unscaled : ℕ
  dscale : ℕ
  deriving DecidableEq

/-- `numeric_in` on the parts of a JSON number: the exponent takes from the digits that are shown. -/
def Numeric.ofParts (negative : Bool) (int frac : List Char) (exponent : ℤ) : Option Numeric :=
  (parseDigits (int ++ frac)).map fun n =>
    if exponent < frac.length then ⟨negative, n, (frac.length - exponent).toNat⟩
    else ⟨negative, n * 10 ^ (exponent - frac.length).toNat, 0⟩

def Numeric.read (text : List Char) : Option Numeric :=
  let (negative, rest) := match text with
    | '-' :: rest => (true, rest)
    | rest => (false, rest)
  let (mantissa, exponent) := match splitOnce 'e' (rest.map Char.toLower) with
    | some (m, e) => (m, parseSigned e)
    | none => (rest, some 0)
  let (int, frac) := (splitOnce '.' mantissa).getD (mantissa, [])
  exponent >>= Numeric.ofParts negative int frac

/-- `numeric_out`. -/
def Numeric.text (n : Numeric) : String :=
  let sign := if n.negative ∧ n.unscaled ≠ 0 then "-" else ""
  if n.dscale = 0 then sign ++ toString n.unscaled
  else
    let frac := Nat.toDigits 10 (n.unscaled % 10 ^ n.dscale)
    sign ++ toString (n.unscaled / 10 ^ n.dscale) ++ "." ++
      String.ofList (.replicate (n.dscale - frac.length) '0' ++ frac)

section Function

variable (body : Json → String)

/-- `->>` and `#>> '{}'`; `body` is the text between the brackets. -/
def textOf : Json → Option String
  | .null => none
  | .bool b => some (toString b)
  | .int n => some (toString n)
  | .real t => (Numeric.read t.toList).map Numeric.text
  | .str s => some s
  | .arr items => some ("[" ++ body (.arr items) ++ "]")
  | .obj fields => some (String.singleton '\x7b' ++ body (.obj fields) ++ String.singleton '\x7d')

def isNumber : Json → Bool
  | .int _ | .real _ => true
  | _ => false

/-- `split_part(path_value, '/', regexp_count(path_value, '/') + 1)`. -/
def leafOf (path : String) : String := String.ofList ((path.toList.splitOn '/').getLastD [])

def valueAllowed (leaf : String) (value : Json) : Bool :=
  if leaf ∈ ["limit_amount_atomic", "claim_amount_atomic_gt"] then
    match value with
    | .str s => s ≠ "" && s.length ≤ 38 && (many1 digits).rmatch s.toList
    | _ => false
  else if leaf = "reservation_ttl_seconds" then
    -- the cast's error is caught
    isNumber value && ((textOf body value >>= fun t => parseI64 t.toList).any fun n => 1 ≤ n && n ≤ 86400)
  else if leaf = "decision" then
    match value with
    | .str s => s ∈ ["STOP", "REQUIRE_APPROVAL", "DEGRADE", "CONTINUE", "SKIP"]
    | _ => false
  else if leaf = "approver_role" then
    match value with
    | .str s => s ≠ "" && s.length ≤ 64 && (many1 roleChars).rmatch s.toList
    | _ => false
  else false

/-- A `test`: the indices that are pinned after it, or none where the function returns `FALSE`. -/
def validateTest (path : String) (value : Option Json) (pinned : List ℕ) : Except PgError (Option (List ℕ)) :=
  if testPattern.rmatch path.toList = false then .ok none
  else match value with
    | some (.str s) =>
      if uuidPat.rmatch s.toList = false then .ok none
      else match captureIdx (· = "/id".toList) path with
        | none => .ok none
        | some idx => (castInt idx).map fun i => some (pinned ++ [i])
    | _ => .ok none

def checkBudget (path : String) (pinned : List ℕ) : Except PgError Bool :=
  if budgetReplaceIdxPattern.rmatch path.toList then
    match captureIdx (fun back => back.head? = some '/') path with
    | none => .ok false
    | some idx => (castInt idx).map fun i => decide (i ∈ pinned)
  else .ok true

def validateReplace (path : String) (value : Option Json) (pinned : List ℕ) : Except PgError (Option (List ℕ)) :=
  if replacePattern.rmatch path.toList = false then .ok none
  else match value with
    | none => .ok none
    | some v => (checkBudget path pinned).map fun ok =>
      if ok && valueAllowed body (leafOf path) v then some pinned else none

def validateElem (elem : Json) (pinned : List ℕ) : Except PgError (Option (List ℕ)) :=
  if elem.isObj = false then .ok none
  else match elem.get? "op" >>= textOf body, elem.get? "path" >>= textOf body with
    | some op, some path =>
      if op = "test" then validateTest path (elem.get? "value") pinned
      else if op ≠ "replace" then .ok none
      else validateReplace body path (elem.get? "value") pinned
    | _, _ => .ok none

def validateElems (pinned : List ℕ) : List Json → Except PgError Bool
  | [] => .ok true
  | elem :: rest => do
    match ← validateElem body elem pinned with
    | none => return false
    | some pinned => validateElems pinned rest

/-- `none` is the SQL `NULL`. -/
def costAdvisorValidateProposedDslPatch : Option Json → Except PgError Bool
  | none => .ok true
  | some (.arr elems) =>
    if elems.length = 0 then .ok false else if elems.length > 8 then .ok false else validateElems body [] elems
  | some _ => .ok false

end Function

section Ascii

variable {s : String}

theorem exists_not_ascii {c : Char} (h : 128 ≤ c.toNat) : ∃ b ∈ String.utf8EncodeChar c, ¬b < 128 := by
  have hbyte {n : ℕ} (hlow : 128 ≤ n) (hhigh : n < 256) : ¬UInt8.ofNat n < 128 := by
    rw [UInt8.lt_iff_toNat_lt, UInt8.toNat_ofNat_of_lt' hhigh]
    exact Nat.not_lt.mpr hlow
  rw [String.utf8EncodeChar]
  have hv : ¬c.val.toNat ≤ 127 := Nat.not_le.mpr h
  simp only [if_neg hv]
  split
  · exact ⟨_, List.mem_cons_self .., hbyte (by omega) (by omega)⟩
  · split
    · exact ⟨_, List.mem_cons_self .., hbyte (by omega) (by omega)⟩
    · exact ⟨_, List.mem_cons_self .., hbyte (by omega) (by omega)⟩

theorem ascii_of_utf8 (h : ∀ b ∈ utf8 s, b < 128) : ∀ c ∈ s.toList, c.toNat < 128 := by
  rw [utf8_eq] at h
  intro c hc
  by_contra hlarge
  obtain ⟨b, hb, hnot⟩ := exists_not_ascii (Nat.not_lt.mp hlarge)
  exact hnot (h b (List.mem_flatMap.mpr ⟨c, hc, hb⟩))

theorem mem_class {symbols : List Char} {test : Char → Bool} (hmem : symbols.all test = true)
    (hascii : ∀ c, test c = true → c.toNat < 128)
    (hall : ∀ n : Fin 128, test (Char.ofNat n) = true → Char.ofNat n ∈ symbols) {c : Char} :
    c ∈ symbols ↔ test c = true := by
  refine ⟨List.all_eq_true.mp hmem c, fun h => ?_⟩
  have hc := hall ⟨c.toNat, hascii c h⟩
  rw [Char.ofNat_toNat] at hc
  exact hc h

end Ascii

section Classes

variable {c : Char} {s : String}

theorem isDigit_ascii (h : c.isDigit = true) : c.toNat < 128 :=
  (digit_bounds h).2.trans_lt (by decide)

theorem mem_digits : c ∈ digits ↔ c.isDigit = true :=
  mem_class (by decide) (fun _ => isDigit_ascii) (by decide +kernel)

theorem isRoleChar_ascii (h : isRoleChar c = true) : c.toNat < 128 := by
  simp only [isRoleChar, Char.isAlphanum, Char.isAlpha, Char.isUpper, Char.isLower, Bool.or_eq_true,
    Bool.and_eq_true, decide_eq_true_eq] at h
  rcases h with (((h | h) | h) | h) | h
  · exact Nat.lt_of_le_of_lt (UInt32.le_iff_toNat_le.mp h.2) (by decide)
  · exact Nat.lt_of_le_of_lt (UInt32.le_iff_toNat_le.mp h.2) (by decide)
  · exact isDigit_ascii h
  · rw [h]; decide
  · rw [h]; decide

theorem mem_roleChars : c ∈ roleChars ↔ isRoleChar c = true :=
  mem_class (by decide) (fun _ => isRoleChar_ascii) (by decide +kernel)

theorem length_utf8 (h : ∀ c ∈ s.toList, c.toNat < 128) : (utf8 s).length = s.length := by
  rw [utf8_ascii h, List.length_map, String.length_toList]

/-- For texts of an ASCII class it makes no difference that the database counts characters, not bytes. -/
theorem class_rmatch {symbols : List Char} {test : Char → Bool} {n : ℕ} (hmem : ∀ {c}, c ∈ symbols ↔ test c = true)
    (hascii : ∀ {c}, test c = true → c.toNat < 128) :
    (s ≠ "" && s.length ≤ n && (many1 symbols).rmatch s.toList) = true ↔
      s ≠ "" ∧ (utf8 s).length ≤ n ∧ s.toList.all test = true := by
  simp only [Bool.and_eq_true, decide_eq_true_eq, many1_rmatch, hmem, List.all_eq_true]
  have hne : s.toList ≠ [] ↔ s ≠ "" := by rw [Ne, String.toList_eq_nil_iff]
  constructor
  · rintro ⟨⟨hs, hlen⟩, -, hall⟩
    exact ⟨hs, (length_utf8 fun c hc => hascii (hall c hc)).trans_le hlen, hall⟩
  · rintro ⟨hs, hlen, hall⟩
    exact ⟨⟨hs, length_utf8 (fun c hc => hascii (hall c hc)) ▸ hlen⟩, hne.mpr hs, hall⟩

def uuidClass (i : ℕ) : List Char := if i = 8 ∨ i = 13 ∨ i = 18 ∨ i = 23 then ['-'] else hex

theorem uuidPat_eq : uuidPat = seq ((List.range' 0 36).map uuidClass) := rfl

def UuidByte (i : ℕ) (b : UInt8) : Prop :=
  if i = 8 ∨ i = 13 ∨ i = 18 ∨ i = 23 then b = 45 else 48 ≤ b ∧ b ≤ 57 ∨ 97 ≤ b ∧ b ≤ 102

variable {i : ℕ}

theorem UuidByte.ascii {b : UInt8} (h : UuidByte i b) : b < 128 := by
  rw [UuidByte] at h
  split at h
  · rw [h]
    decide
  · rcases h with h | h
    · exact UInt8.lt_of_le_of_lt h.2 (by decide)
    · exact UInt8.lt_of_le_of_lt h.2 (by decide)

theorem uuidByte_iff (i : ℕ) {c : Char} (hc : c.toNat < 128) : UuidByte i (UInt8.ofNat c.toNat) ↔ c ∈ uuidClass i := by
  have hall : ∀ n : Fin 128, (UInt8.ofNat n = 45 ↔ Char.ofNat n ∈ ['-']) ∧
      ((48 ≤ UInt8.ofNat n ∧ UInt8.ofNat n ≤ 57 ∨ 97 ≤ UInt8.ofNat n ∧ UInt8.ofNat n ≤ 102) ↔
        Char.ofNat n ∈ hex) := by decide +kernel
  have hn := hall ⟨c.toNat, hc⟩
  rw [Char.ofNat_toNat] at hn
  rw [uuidClass, UuidByte]
  split
  · exact hn.1
  · exact hn.2

theorem validateUuidBytes_cons {b : UInt8} {bs : List UInt8} :
    validateUuidBytes i (b :: bs) = .ok () ↔ UuidByte i b ∧ validateUuidBytes (i + 1) bs = .ok () := by
  rw [validateUuidBytes, UuidByte]
  split
  · exact check_bind_eq_ok
  · exact check_bind_eq_ok

theorem uuidClass_ascii (h : c ∈ uuidClass i) : c.toNat < 128 := by
  rw [uuidClass] at h
  split at h
  · rw [List.mem_singleton.mp h]
    decide
  · have hall : hex.all (fun c => decide (c.toNat < 128)) = true := by decide
    exact of_decide_eq_true (List.all_eq_true.mp hall c h)

theorem validateUuidBytes_ok {cs : List Char} (hascii : ∀ c ∈ cs, c.toNat < 128) :
    validateUuidBytes i (cs.map fun c => UInt8.ofNat c.toNat) = .ok () ↔
      List.Forall₂ (· ∈ ·) cs ((List.range' i cs.length).map uuidClass) := by
  induction cs generalizing i with
  | nil => exact iff_of_true rfl .nil
  | cons c cs ih =>
    rw [List.forall_mem_cons] at hascii
    rw [List.length_cons, List.range'_succ, List.map_cons, List.map_cons, List.forall₂_cons, ← ih hascii.2,
      ← uuidByte_iff i hascii.1, validateUuidBytes_cons]

theorem validateUuidBytes_ascii {bs : List UInt8} (h : validateUuidBytes i bs = .ok ()) : ∀ b ∈ bs, b < 128 := by
  induction bs generalizing i with
  | nil => simp
  | cons b bs ih =>
    rw [validateUuidBytes_cons] at h
    rw [List.forall_mem_cons]
    exact ⟨h.1.ascii, ih h.2⟩

theorem ascii_of_classes {cs : List Char} {places : List ℕ} (h : List.Forall₂ (· ∈ ·) cs (places.map uuidClass)) :
    ∀ c ∈ cs, c.toNat < 128 := by
  induction cs generalizing places with
  | nil => simp
  | cons c cs ih =>
    cases places with
    | nil => cases h
    | cons i places =>
      rw [List.map_cons, List.forall₂_cons] at h
      rw [List.forall_mem_cons]
      exact ⟨uuidClass_ascii h.1, ih h.2⟩

theorem validateUuidValue_ok : validateUuidValue (.str s) = .ok () ↔ uuidPat.rmatch s.toList = true := by
  rw [uuidPat_eq, seq_rmatch, validateUuidValue, Json.asStr?, found_some, ok_bind, check_bind_eq_ok]
  constructor
  · rintro ⟨hlen, h⟩
    have hascii := ascii_of_utf8 (validateUuidBytes_ascii h)
    rw [utf8_ascii hascii] at hlen h
    rw [List.length_map] at hlen
    exact hlen ▸ (validateUuidBytes_ok hascii).mp h
  · intro h
    have hascii := ascii_of_classes h
    have hlen : s.toList.length = 36 := by rw [h.length_eq, List.length_map, List.length_range']
    rw [utf8_ascii hascii, List.length_map]
    exact ⟨hlen, (validateUuidBytes_ok hascii).mpr (hlen ▸ h)⟩

end Classes

section Paths

variable {t u : List Char} {n : ℕ} {path : String} {P : RegularExpression Char}

theorem mem_nonzero {c : Char} : c ∈ "123456789".toList ↔ ('1' ≤ c && c ≤ '9') = true := by
  refine @mem_class _ (fun c => '1' ≤ c && c ≤ '9') (by decide) (fun c h => ?_) (by decide +kernel) c
  rw [Bool.and_eq_true, decide_eq_true_eq, decide_eq_true_eq] at h
  exact Nat.lt_of_le_of_lt (UInt32.le_iff_toNat_le.mp h.2) (by decide)

theorem idxPat_rmatch : idxPat.rmatch t = true ↔ isArrayIndex t = true := by
  rw [idxPat, RegularExpression.add_rmatch_iff, lit_rmatch, RegularExpression.mul_rmatch_iff]
  constructor
  · rintro (rfl | ⟨x, rest, rfl, hx, hrest⟩)
    · rfl
    · obtain ⟨c, hc, rfl⟩ := oneOf_rmatch.mp hx
      have hdigits : rest.all Char.isDigit = true :=
        List.all_eq_true.mpr fun d hd => mem_digits.mp (many_rmatch.mp hrest d hd)
      have hc := mem_nonzero.mp hc
      rw [List.singleton_append, isArrayIndex]
      · rw [hc, hdigits]
        rfl
      · rintro rfl -
        cases hc
  · intro h
    rw [isArrayIndex.eq_def] at h
    split at h
    · cases h
    · exact .inl rfl
    · next first rest _ =>
      rw [Bool.and_eq_true] at h
      refine .inr ⟨[first], rest, rfl, oneOf_rmatch.mpr ⟨first, mem_nonzero.mpr h.1, rfl⟩, many_rmatch.mpr ?_⟩
      exact fun d hd => mem_digits.mpr (List.all_eq_true.mp h.2 d hd)

theorem isArrayIndex_toString (n : ℕ) : isArrayIndex (toString n).toList = true := by
  have hdigits : (toString n).toList.all Char.isDigit = true := List.all_eq_true.mpr fun c => isDigit_of_mem_repr
  have hrepr : (toString n).toList = Nat.toDigits 10 n := Nat.toList_repr
  rw [isArrayIndex.eq_def]
  split
  · next hnil => exact absurd (hrepr.symm.trans hnil) Nat.toDigits_ne_nil
  · rfl
  · next first rest hne heq =>
    rw [heq, List.all_cons, Bool.and_eq_true] at hdigits
    have hzero : first ≠ '0' := by
      rintro rfl
      have hn := eq_zero_of_head?_toDigits n (by rw [← hrepr, heq]; rfl)
      rw [hn] at heq
      cases heq
      exact hne rfl rfl
    have hall : ∀ k : Fin 128, (Char.ofNat k).isDigit = true → Char.ofNat k ≠ '0' →
        ('1' ≤ Char.ofNat k && Char.ofNat k ≤ '9') = true := by decide +kernel
    have hfirst := hall ⟨first.toNat, isDigit_ascii hdigits.1⟩
    rw [Char.ofNat_toNat] at hfirst
    rw [hfirst hdigits.1 hzero, hdigits.2]
    rfl

theorem idxPat_iff : idxPat.rmatch t = true ↔ ∃ n : ℕ, t = (toString n).toList := by
  rw [idxPat_rmatch]
  constructor
  · intro h
    rw [← String.toList_ofList (l := t)] at h
    obtain ⟨n, hn⟩ := eq_toString_of_isArrayIndex h
    exact ⟨n, by rw [← hn, String.toList_ofList]⟩
  · rintro ⟨n, rfl⟩
    exact isArrayIndex_toString n

theorem idxPat_mul_rmatch : (idxPat * P).rmatch t = true ↔ ∃ n : ℕ, ∃ u, t = (toString n).toList ++ u ∧ P.rmatch u = true := by
  rw [RegularExpression.mul_rmatch_iff]
  constructor
  · rintro ⟨idx, u, rfl, hidx, hu⟩
    obtain ⟨n, rfl⟩ := idxPat_iff.mp hidx
    exact ⟨n, u, rfl, hu⟩
  · rintro ⟨n, u, rfl, hu⟩
    exact ⟨_, u, rfl, idxPat_iff.mpr ⟨n, rfl⟩, hu⟩

theorem toList_rulePath (n : ℕ) (s t : String) :
    (Json.pathOf ["spec", "rules", toString n, s, t]).toList =
      "/spec/rules/".toList ++ ((toString n).toList ++ '/' :: (s.toList ++ '/' :: t.toList)) := by
  simp [Json.pathOf, List.intercalate]

theorem testPattern_iff : testPattern.rmatch path.toList = true ↔ ∃ i, path = Json.pathOf (idParts i) := by
  rw [testPattern, lit_mul_rmatch]
  simp only [idxPat_mul_rmatch, lit_rmatch, ← String.toList_inj, idParts, toList_budgetPath]
  constructor
  · rintro ⟨_, hpath, i, _, rfl, rfl⟩
    exact ⟨i, hpath⟩
  · rintro ⟨i, hpath⟩
    exact ⟨_, hpath, i, _, rfl, rfl⟩

theorem budgetPattern_iff : budgetReplaceIdxPattern.rmatch path.toList = true ↔
    ∃ (leaf : Leaf) (n : ℕ), leaf.isBudget = true ∧ path = Json.pathOf (leaf.parts n) := by
  rw [budgetReplaceIdxPattern, lit_mul_rmatch]
  simp only [idxPat_mul_rmatch, lit_mul_rmatch, budgetLeaf, RegularExpression.add_rmatch_iff, lit_rmatch]
  constructor
  · rintro ⟨_, hpath, n, _, rfl, _, rfl, rfl | rfl⟩
    · exact ⟨.limitAmountAtomic, n, rfl, String.toList_inj.mp (hpath.trans (toList_budgetPath n _).symm)⟩
    · exact ⟨.reservationTtlSeconds, n, rfl, String.toList_inj.mp (hpath.trans (toList_budgetPath n _).symm)⟩
  · rintro ⟨leaf, n, hleaf, rfl⟩
    cases leaf with
    | limitAmountAtomic => exact ⟨_, toList_budgetPath n _, n, _, rfl, _, rfl, .inl rfl⟩
    | reservationTtlSeconds => exact ⟨_, toList_budgetPath n _, n, _, rfl, _, rfl, .inr rfl⟩
    | _ => cases hleaf

theorem replacePattern_iff :
    replacePattern.rmatch path.toList = true ↔ ∃ (leaf : Leaf) (n : ℕ), path = Json.pathOf (leaf.parts n) := by
  rw [replacePattern, lit_mul_rmatch]
  simp only [RegularExpression.add_rmatch_iff, idxPat_mul_rmatch, lit_mul_rmatch, budgetLeaf, ruleLeaf, lit_rmatch]
  constructor
  · rintro ⟨_, hpath, ⟨_, rfl, n, _, rfl, _, rfl, rfl | rfl⟩ | ⟨_, rfl, n, _, rfl, _, rfl, rfl | ⟨_, rfl, rfl | rfl⟩⟩⟩
    · exact ⟨.limitAmountAtomic, n, String.toList_inj.mp (hpath.trans (toList_budgetPath n _).symm)⟩
    · exact ⟨.reservationTtlSeconds, n, String.toList_inj.mp (hpath.trans (toList_budgetPath n _).symm)⟩
    · exact ⟨.claimAmountAtomicGt, n, String.toList_inj.mp (hpath.trans (toList_rulePath n "when" "claim_amount_atomic_gt").symm)⟩
    · exact ⟨.decision, n, String.toList_inj.mp (hpath.trans (toList_rulePath n "then" "decision").symm)⟩
    · exact ⟨.approverRole, n, String.toList_inj.mp (hpath.trans (toList_rulePath n "then" "approver_role").symm)⟩
  · rintro ⟨leaf, n, rfl⟩
    cases leaf with
    | limitAmountAtomic => exact ⟨_, toList_budgetPath n _, .inl ⟨_, rfl, n, _, rfl, _, rfl, .inl rfl⟩⟩
    | reservationTtlSeconds => exact ⟨_, toList_budgetPath n _, .inl ⟨_, rfl, n, _, rfl, _, rfl, .inr rfl⟩⟩
    | claimAmountAtomicGt => exact ⟨_, toList_rulePath n _ _, .inr ⟨_, rfl, n, _, rfl, _, rfl, .inl rfl⟩⟩
    | decision => exact ⟨_, toList_rulePath n _ _, .inr ⟨_, rfl, n, _, rfl, _, rfl, .inr ⟨_, rfl, .inl rfl⟩⟩⟩
    | approverRole => exact ⟨_, toList_rulePath n _ _, .inr ⟨_, rfl, n, _, rfl, _, rfl, .inr ⟨_, rfl, .inr rfl⟩⟩⟩

theorem pathOf_inj {parts parts' : List String} (h : Plain parts) (h' : Plain parts')
    (heq : Json.pathOf parts = Json.pathOf parts') : parts = parts' := by
  have hparts := Json.slashed_pathOf h.1 fun s hs => (h.2 s hs).1
  rw [heq, Json.slashed_pathOf h'.1 fun s hs => (h'.2 s hs).1] at hparts
  exact (Option.some.inj hparts).symm

theorem toString_inj {m n : ℕ} (h : toString m = toString n) : m = n := Nat.repr_inj.mp h

theorem leafPath_inj {leaf leaf' : Leaf} {n n' : ℕ} (h : Json.pathOf (leaf.parts n) = Json.pathOf (leaf'.parts n')) :
    leaf = leaf' ∧ n = n' := by
  have hparts := pathOf_inj (plain_leafParts leaf n) (plain_leafParts leaf' n') h
  cases leaf <;> cases leaf' <;> simp [Leaf.parts] at hparts ⊢ <;> exact hparts

theorem idPath_inj {i j : ℕ} (h : Json.pathOf (idParts i) = Json.pathOf (idParts j)) : i = j := by
  have hparts := pathOf_inj (plain_idParts i) (plain_idParts j) h
  simp only [idParts, List.cons.injEq] at hparts
  exact toString_inj hparts.2.2.1

theorem captureIdx_budget {follows : List Char → Bool} {s : String} (hfollows : follows ('/' :: s.toList) = true)
    (hslash : ∀ back, follows back = true → back.head? = some '/') (n : ℕ) :
    captureIdx follows (Json.pathOf ["spec", "budgets", toString n, s]) = some (toString n).toList := by
  rw [captureIdx, toList_budgetPath, stripFront_append, Option.bind_eq_bind, Option.bind_some]
  generalize hrest : (toString n).toList ++ '/' :: s.toList = rest
  have hunique (idx : List Char) (hmem : idx ∈ rest.inits.reverse)
      (hidx : (idxPat.rmatch idx && follows (rest.drop idx.length)) = true) : idx = (toString n).toList := by
    rw [Bool.and_eq_true] at hidx
    obtain ⟨m, rfl⟩ := idxPat_iff.mp hidx.1
    obtain ⟨back, hback⟩ := (List.mem_inits _ _).mp (List.mem_reverse.mp hmem)
    rw [← hback, List.drop_left] at hidx
    obtain ⟨back, rfl⟩ := List.head?_eq_some_iff.mp (hslash _ hidx.2)
    have hsplit := splitOnce_append (plain_toString n).1 s.toList
    rw [hrest, ← hback, splitOnce_append (plain_toString m).1] at hsplit
    exact congrArg Prod.fst (Option.some.inj hsplit)
  have hfound : (rest.inits.reverse.find? fun idx => idxPat.rmatch idx && follows (rest.drop idx.length)).isSome = true := by
    rw [List.find?_isSome]
    refine ⟨(toString n).toList, ?_, ?_⟩
    · rw [List.mem_reverse, List.mem_inits, ← hrest]
      exact List.prefix_append _ _
    · rw [Bool.and_eq_true, ← hrest, List.drop_left]
      exact ⟨idxPat_iff.mpr ⟨n, rfl⟩, hfollows⟩
  obtain ⟨idx, hidx⟩ := Option.isSome_iff_exists.mp hfound
  have hmatch := List.find?_some hidx
  rw [hidx, hunique idx (List.mem_of_find?_eq_some hidx) hmatch]

theorem castInt_toString (n : ℕ) : castInt (toString n).toList = if n < 2 ^ 31 then .ok n
    else .error ⟨"22003", "value \"" ++ toString n ++ "\" is out of range for type integer"⟩ := by
  have hrepr : (toString n).toList = Nat.toDigits 10 n := Nat.toList_repr
  have hvalue : Nat.ofDigitChars 10 (toString n).toList 0 = n := by
    rw [hrepr, Nat.ofDigitChars_toDigits (by decide) (by decide)]
  rw [castInt, hvalue, String.ofList_toList]

theorem leafOf_pathOf {parts : List String} (h : Plain parts) : leafOf (Json.pathOf parts) = parts.getLastD "" := by
  have hsplit : (Json.pathOf parts).toList.splitOn '/' = [] :: parts.map String.toList := by
    have hslash : ∀ t ∈ [] :: parts.map String.toList, '/' ∉ t := by
      simpa using fun s hs => (h.2 s hs).1
    have hcons : '/' :: ['/'].intercalate (parts.map String.toList) =
        ['/'].intercalate ([] :: parts.map String.toList) := by
      cases hparts : parts.map String.toList with
      | nil => exact absurd (List.map_eq_nil_iff.mp hparts) h.1
      | cons t ts => rfl
    rw [Json.pathOf, String.toList_ofList, hcons]
    exact List.splitOn_intercalate '/' hslash (by simp)
  rw [leafOf, hsplit, List.getLastD_cons]
  rcases List.eq_nil_or_concat parts with hnil | ⟨front, last, rfl⟩
  · exact absurd hnil h.1
  · simp

theorem leafOf_leafPath (leaf : Leaf) (n : ℕ) : leafOf (Json.pathOf (leaf.parts n)) = leaf.name := by
  rw [leafOf_pathOf (plain_leafParts leaf n)]
  cases leaf <;> rfl

end Paths

section Values

variable {body : Json → String} {value : Json} {leaf : Leaf}

def Shifted (value : Json) : Prop :=
  ∃ t n, value = .real t ∧ Numeric.read t.toList = some ⟨false, n, 0⟩ ∧ 1 ≤ n ∧ n ≤ 86400

theorem parseSigned_point {t u : List Char} : parseSigned (t ++ '.' :: u) = none := by
  have hdigits (t : List Char) : parseDigits (t ++ '.' :: u) = none := by
    rw [parseDigits, if_neg]
    rintro ⟨-, hall⟩
    rw [List.all_append, List.all_cons, Bool.and_eq_true, Bool.and_eq_true] at hall
    exact absurd hall.2.1 (by decide)
  unfold parseSigned
  split
  · next ds heq =>
    cases t with
    | nil => cases heq
    | cons c t =>
      cases heq
      exact Option.map_eq_none_iff.mpr (hdigits t)
  · next ds heq =>
    cases t with
    | nil => cases heq
    | cons c t =>
      cases heq
      exact Option.map_eq_none_iff.mpr (hdigits t)
  · rw [hdigits, Option.map_none]

theorem parseSigned_text (n : Numeric) : parseSigned n.text.toList =
    if n.dscale = 0 then some (if n.negative then -(n.unscaled : ℤ) else n.unscaled) else none := by
  obtain ⟨negative, unscaled, dscale⟩ := n
  rw [Numeric.text]
  split
  · cases negative with
    | false => simp [parseSigned_toDigits]
    | true =>
      by_cases hzero : unscaled = 0
      · simp only [hzero, ne_eq, not_true_eq_false, and_false, if_false]
        rfl
      · simp [hzero, parseSigned_minus, parseDigits_toDigits]
  · have hpoint : ".".toList = ['.'] := rfl
    rw [String.toList_append, String.toList_append, hpoint, List.append_assoc, List.singleton_append, parseSigned_point]

theorem any_parseI64 {t : List Char} : ((parseI64 t).any fun n => 1 ≤ n && n ≤ 86400) = true ↔
    ∃ n, parseSigned t = some n ∧ 1 ≤ n ∧ n ≤ 86400 := by
  rw [parseI64]
  cases parseSigned t with
  | none => simp
  | some n =>
    rw [Option.filter_some]
    split
    · simp
    · next hrange =>
      simp only [decide_eq_true_eq] at hrange
      simp only [Option.any_none, Bool.false_eq_true, Option.some.injEq, exists_eq_left', false_iff]
      omega

theorem ttlAllowed : (isNumber value &&
    ((textOf body value >>= fun t => parseI64 t.toList).any fun n => 1 ≤ n && n ≤ 86400)) = true ↔
      validateValue value .reservationTtlSeconds = .ok () ∨ Shifted value := by
  have hplain : validateValue value .reservationTtlSeconds = .ok () ↔ ∃ n, value = .int n ∧ 1 ≤ n ∧ n ≤ 86400 := by
    rw [validateValue, found_bind_eq_ok]
    simp only [check_eq_ok]
    cases value with
    | int n =>
      simp only [Json.asI64?, Option.ite_none_right_eq_some, Json.int.injEq, exists_eq_left', Option.some.injEq]
      constructor
      · rintro ⟨_, ⟨_, rfl⟩, h⟩
        exact h
      · intro h
        exact ⟨n, ⟨by omega, rfl⟩, h⟩
    | _ => simp [Json.asI64?]
  rw [hplain]
  cases value with
  | int n =>
    simp only [isNumber, textOf, Bool.true_and, Option.bind_eq_bind, Option.bind_some, any_parseI64,
      parseSigned_toString, Shifted]
    simp
  | real t =>
    simp only [isNumber, textOf, Bool.true_and]
    cases hread : Numeric.read t.toList with
    | none => simp [Shifted, hread]
    | some num =>
      simp only [Option.map_some, Option.bind_eq_bind, Option.bind_some, any_parseI64, parseSigned_text]
      constructor
      · rintro ⟨n, hn, hrange⟩
        obtain ⟨hscale, hn⟩ := Option.ite_none_right_eq_some.mp hn
        obtain ⟨negative, unscaled, dscale⟩ := num
        cases hscale
        cases negative with
        | true =>
          cases hn
          simp only [if_true] at hrange
          omega
        | false =>
          cases hn
          simp only [Bool.false_eq_true, if_false] at hrange
          exact .inr ⟨t, unscaled, rfl, hread, by omega, by omega⟩
      · rintro (⟨n, h, -⟩ | ⟨t', n, heq, hread', hlow, hhigh⟩)
        · cases h
        · cases heq
          cases hread.symm.trans hread'
          exact ⟨n, rfl, by omega, by omega⟩
  | _ => simp [isNumber, Shifted]

theorem amountAllowed : (match value with
      | .str s => s ≠ "" && s.length ≤ 38 && (many1 digits).rmatch s.toList
      | _ => false) = true ↔ validateValue value .limitAmountAtomic = .ok () := by
  cases value with
  | str s => simp only [class_rmatch mem_digits isDigit_ascii, validateValue, Json.asStr?, found_some, ok_bind,
      validateAtomicAmountStr, check_bind_eq_ok, check_eq_ok]
  | _ => simp [validateValue, Json.asStr?]

theorem valueAllowed_iff : valueAllowed body leaf.name value = true ↔
    validateValue value leaf = .ok () ∨ leaf = .reservationTtlSeconds ∧ Shifted value := by
  cases leaf with
  | reservationTtlSeconds =>
    rw [and_iff_right rfl, ← @ttlAllowed body]
    rfl
  | limitAmountAtomic => exact amountAllowed.trans (by simp)
  | claimAmountAtomicGt =>
    refine amountAllowed.trans (Iff.trans ?_ (or_iff_left (by simp)).symm)
    rfl
  | decision =>
    cases value with
    | str s =>
      simp [valueAllowed, Leaf.name, validateValue, Json.asStr?, check_eq_ok, decisions]
    | _ => simp [valueAllowed, Leaf.name, validateValue, Json.asStr?]
  | approverRole =>
    cases value with
    | str s =>
      have hrole : validateValue (.str s) .approverRole = .ok () ↔
          (s ≠ "" && s.length ≤ 64 && (many1 roleChars).rmatch s.toList) = true := by
        simp only [class_rmatch mem_roleChars isRoleChar_ascii, validateValue, Json.asStr?, found_some, ok_bind,
          check_bind_eq_ok, check_eq_ok, and_assoc]
      rw [hrole]
      simp [valueAllowed, Leaf.name]

    | _ => simp [valueAllowed, Leaf.name, validateValue, Json.asStr?]

end Values

section Operations

variable {body : Json → String} {op v : Json} {p q : PatchOp} {pinned pinned' : List ℕ} {t : String}

structure Names (op : Json) (p : PatchOp) : Prop where
  kind : op.get? "op" = some (.str p.kind)
  path : op.get? "path" = some (.str (Json.pathOf p.parts))
  value : op.get? "value" = some p.value

def PatchOp.Below (bound : ℕ) (p : PatchOp) : Prop := ∀ i, p.budget? = some i → i < bound

def PatchOp.HasShiftedTtl : PatchOp → Prop
  | .write .reservationTtlSeconds _ v => Shifted v
  | _ => False

def PatchOp.Permitted (p : PatchOp) : Prop := p.Acceptable ∨ PatchOp.HasShiftedTtl p

def PatchOp.Held (pinned : List ℕ) : PatchOp → Prop
  | .pin _ _ => True
  | .write leaf n _ => leaf.isBudget = true → n ∈ pinned

def PatchOp.pins (pinned : List ℕ) : PatchOp → List ℕ
  | .pin i _ => pinned ++ [i]
  | .write _ _ _ => pinned

theorem plain_parts (p : PatchOp) : Plain p.parts := by
  cases p with
  | pin i id => exact plain_idParts i
  | write leaf n v => exact plain_leafParts leaf n

theorem Names.unique (h : Names op p) (h' : Names op q) : p = q := by
  have hkind := h.kind.symm.trans h'.kind
  have hpath := h.path.symm.trans h'.path
  have hvalue := h.value.symm.trans h'.value
  simp only [Option.some.injEq, Json.str.injEq] at hkind hpath hvalue
  cases p with
  | pin i id =>
    cases q with
    | pin j id' =>
      cases idPath_inj hpath
      cases hvalue
      rfl
    | write leaf n v => exact absurd (show "test" = "replace" from hkind) (by decide)
  | write leaf n v =>
    cases q with
    | pin j id' => exact absurd (show "replace" = "test" from hkind) (by decide)
    | write leaf' n' v' =>
      obtain ⟨rfl, rfl⟩ := leafPath_inj hpath
      cases hvalue
      rfl

def HeadsNumber (t : String) : Prop := ∃ c ∈ t.toList.head?, c.isDigit = true ∨ c = '-'

theorem headsNumber_nat (n : ℕ) (t : String) : HeadsNumber (toString n ++ t) := by
  have hrepr : (toString n).toList = Nat.toDigits 10 n := Nat.toList_repr
  cases hdigits : (toString n).toList with
  | nil => exact absurd (hrepr.symm.trans hdigits) Nat.toDigits_ne_nil
  | cons c cs =>
    refine ⟨c, ?_, .inl (isDigit_of_mem_repr (n := n) (hdigits ▸ List.mem_cons_self ..))⟩
    rw [String.toList_append, hdigits]
    rfl

theorem headsNumber_minus (t : String) : HeadsNumber ("-" ++ t) := by
  refine ⟨'-', ?_, .inr rfl⟩
  rw [String.toList_append]
  rfl

theorem headsNumber_int (n : ℤ) : HeadsNumber (toString n) := by
  rw [Int.toString_eq_repr, Int.repr_eq_if]
  split
  · have hhead := headsNumber_nat n.toNat ""
    rwa [String.append_empty] at hhead
  · exact headsNumber_minus _

theorem headsNumber_text (n : Numeric) : HeadsNumber n.text := by
  rw [Numeric.text]
  split
  · split
    · exact headsNumber_minus _
    · have hhead := headsNumber_nat n.unscaled ""
      rwa [String.append_empty, ← String.empty_append (s := toString n.unscaled)] at hhead
  · simp only [String.append_assoc]
    split
    · exact headsNumber_minus _
    · rw [String.empty_append]
      exact headsNumber_nat _ _

theorem textOf_eq (h : textOf body v = some t) : v = .str t ∨ t = "true" ∨ t = "false" ∨ HeadsNumber t ∨
    t.toList.head? = some '[' ∨ t.toList.head? = some '\x7b' := by
  cases v with
  | null => cases h
  | bool b =>
    cases h
    cases b with
    | true => exact .inr (.inl rfl)
    | false => exact .inr (.inr (.inl rfl))
  | int n => cases h; exact .inr (.inr (.inr (.inl (headsNumber_int n))))
  | real text =>
    obtain ⟨num, -, rfl⟩ := Option.map_eq_some_iff.mp h
    exact .inr (.inr (.inr (.inl (headsNumber_text num))))
  | str s => cases h; exact .inl rfl
  | arr items =>
    cases h
    refine .inr (.inr (.inr (.inr (.inl ?_))))
    rw [String.toList_append, String.toList_append]
    rfl
  | obj fields =>
    cases h
    refine .inr (.inr (.inr (.inr (.inr ?_))))
    rw [String.toList_append, String.toList_append, String.toList_singleton]
    rfl

theorem eq_str_of_textOf {c : Char} (h : textOf body v = some t) (hhead : t.toList.head? = some c)
    (hc : (c.isDigit || c == '-' || c == '[' || c == '\x7b') = false) (htrue : t ≠ "true") (hfalse : t ≠ "false") :
    v = .str t := by
  rcases textOf_eq h with hv | ht | ht | ⟨d, hd, hnum⟩ | ht | ht
  · exact hv
  · exact absurd ht htrue
  · exact absurd ht hfalse
  · cases hhead.symm.trans hd
    rcases hnum with hnum | rfl
    · rw [hnum] at hc
      cases hc
    · cases hc
  · cases hhead.symm.trans ht
    cases hc
  · cases hhead.symm.trans ht
    cases hc

theorem eq_test_of_textOf (h : textOf body v = some "test") : v = .str "test" :=
  eq_str_of_textOf h (c := 't') (by decide) (by decide) (by decide) (by decide)

theorem eq_replace_of_textOf (h : textOf body v = some "replace") : v = .str "replace" :=
  eq_str_of_textOf h (c := 'r') (by decide) (by decide) (by decide) (by decide)

theorem eq_path_of_textOf {parts : List String} (h : textOf body v = some (Json.pathOf parts)) :
    v = .str (Json.pathOf parts) := by
  have hhead : (Json.pathOf parts).toList.head? = some '/' := by
    rw [Json.pathOf, String.toList_ofList]
    rfl
  refine eq_str_of_textOf h hhead (by decide) ?_ ?_
  · intro ht
    rw [ht] at hhead
    exact absurd hhead (by decide)
  · intro ht
    rw [ht] at hhead
    exact absurd hhead (by decide)

theorem isObj_of_get? {key : String} {w : Json} (h : op.get? key = some w) : op.isObj = true := by
  cases op with
  | obj fields => rfl
  | _ => cases h

variable {i : ℕ} {id : String}

theorem validateElem_pin (h : Names op (.pin i id)) :
    validateElem body op pinned = if validateUuidValue (.str id) = .ok () then
      (castInt (toString i).toList).map fun i => some (pinned ++ [i]) else .ok none := by
  have hpath : testPattern.rmatch (Json.pathOf (idParts i)).toList = true := testPattern_iff.mpr ⟨i, rfl⟩
  have hidx : captureIdx (· = "/id".toList) (Json.pathOf (idParts i)) = some (toString i).toList :=
    captureIdx_budget (s := "id") (by decide) (fun back hback => by rw [of_decide_eq_true hback]; rfl) i
  simp only [validateElem, isObj_of_get? h.kind, h.kind, h.path, h.value, Option.bind_eq_bind, Option.bind_some, textOf,
    PatchOp.kind, PatchOp.parts, PatchOp.value, validateTest, hpath, hidx, if_true, Bool.true_eq_false, if_false]
  by_cases huuid : validateUuidValue (.str id) = .ok ()
  · rw [if_pos huuid, validateUuidValue_ok.mp huuid, if_neg Bool.true_eq_false.mp]
  · rw [if_neg huuid, if_pos (Bool.eq_false_iff.mpr (huuid ∘ validateUuidValue_ok.mpr))]

theorem checkBudget_leafPath (leaf : Leaf) (n : ℕ) : checkBudget (Json.pathOf (leaf.parts n)) pinned =
    if leaf.isBudget then (castInt (toString n).toList).map fun i => decide (i ∈ pinned) else .ok true := by
  cases hleaf : leaf.isBudget with
  | true =>
    have hidx : captureIdx (fun back => back.head? = some '/') (Json.pathOf (leaf.parts n)) =
        some (toString n).toList := by
      cases leaf with
      | limitAmountAtomic => exact captureIdx_budget rfl (fun back => of_decide_eq_true) n
      | reservationTtlSeconds => exact captureIdx_budget rfl (fun back => of_decide_eq_true) n
      | _ => cases hleaf
    rw [checkBudget, if_pos (budgetPattern_iff.mpr ⟨leaf, n, hleaf, rfl⟩), hidx]
    rfl
  | false =>
    have hrule : ¬budgetReplaceIdxPattern.rmatch (Json.pathOf (leaf.parts n)).toList = true := by
      intro h
      obtain ⟨leaf', n', hbudget, hpath⟩ := budgetPattern_iff.mp h
      rw [(leafPath_inj hpath).1, hbudget] at hleaf
      cases hleaf
    rw [checkBudget, if_neg hrule]
    rfl

theorem validateElem_write {leaf : Leaf} {n : ℕ} (h : Names op (.write leaf n v)) :
    validateElem body op pinned = (checkBudget (Json.pathOf (leaf.parts n)) pinned).map fun ok =>
      if ok && valueAllowed body leaf.name v then some pinned else none := by
  have hpath : replacePattern.rmatch (Json.pathOf (leaf.parts n)).toList = true := replacePattern_iff.mpr ⟨leaf, n, rfl⟩
  have hne : ¬"replace" = "test" := by decide
  simp only [validateElem, isObj_of_get? h.kind, h.kind, h.path, h.value, Option.bind_eq_bind, Option.bind_some, textOf,
    PatchOp.kind, PatchOp.parts, PatchOp.value, validateReplace, hpath, leafOf_leafPath, if_neg hne, ne_eq,
    not_true_eq_false, Bool.true_eq_false, if_false]

theorem validateElem_unnamed (h : ∀ p, ¬Names op p) : validateElem body op pinned = .ok none := by
  rw [validateElem]
  split
  · rfl
  split
  · next kind path hkind hpath =>
    obtain ⟨kindValue, hkindGet, hkindText⟩ := Option.bind_eq_some_iff.mp hkind
    obtain ⟨pathValue, hpathGet, hpathText⟩ := Option.bind_eq_some_iff.mp hpath
    split
    · next htest =>
      rw [htest] at hkindText
      rw [eq_test_of_textOf hkindText] at hkindGet
      rw [validateTest.eq_def]
      split
      · rfl
      · next hmatch =>
        obtain ⟨i, rfl⟩ := testPattern_iff.mp (Bool.not_eq_false _ ▸ hmatch)
        rw [eq_path_of_textOf hpathText] at hpathGet
        split
        · next s hvalue => exact absurd ⟨hkindGet, hpathGet, hvalue⟩ (h (.pin i s))
        · rfl
    · split
      · rfl
      · next hreplace =>
        rw [not_not.mp hreplace] at hkindText
        rw [eq_replace_of_textOf hkindText] at hkindGet
        rw [validateReplace.eq_def]
        split
        · rfl
        · next hmatch =>
          obtain ⟨leaf, n, rfl⟩ := replacePattern_iff.mp (Bool.not_eq_false _ ▸ hmatch)
          rw [eq_path_of_textOf hpathText] at hpathGet
          split
          · rfl
          · next v hvalue => exact absurd ⟨hkindGet, hpathGet, hvalue⟩ (h (.write leaf n v))
  · rfl

theorem below_pin {bound : ℕ} : PatchOp.Below bound (.pin i id) ↔ i < bound := by
  simp [PatchOp.Below, PatchOp.budget?]

theorem below_write {bound n : ℕ} {leaf : Leaf} :
    PatchOp.Below bound (.write leaf n v) ↔ (leaf.isBudget = true → n < bound) := by
  simp only [PatchOp.Below, PatchOp.budget?, Option.ite_none_right_eq_some, Option.some.injEq]
  exact ⟨fun h hb => h n ⟨hb, rfl⟩, fun h i hi => hi.2 ▸ h hi.1⟩

theorem valueAllowed_permitted {leaf : Leaf} {n : ℕ} :
    valueAllowed body leaf.name v = true ↔ PatchOp.Permitted (.write leaf n v) := by
  rw [valueAllowed_iff, PatchOp.Permitted]
  refine or_congr_right ?_
  cases leaf <;> simp [PatchOp.HasShiftedTtl]

def PatchOp.Overflows (p : PatchOp) : Prop := ¬PatchOp.Below (2 ^ 31) p ∧ ∀ i id, p = .pin i id → p.Acceptable

inductive Verdict (p : PatchOp) (pinned : List ℕ) : Except PgError (Option (List ℕ)) → Prop
  | raised (e) : PatchOp.Overflows p → Verdict p pinned (.error e)
  | accepted : PatchOp.Below (2 ^ 31) p → PatchOp.Permitted p → PatchOp.Held pinned p →
      Verdict p pinned (.ok (some (PatchOp.pins pinned p)))
  | refused : ¬PatchOp.Overflows p → ¬(PatchOp.Permitted p ∧ PatchOp.Held pinned p) → Verdict p pinned (.ok none)

theorem verdict_pin (h : Names op (.pin i id)) :
    Verdict (.pin i id) pinned (validateElem body op pinned) := by
  rw [validateElem_pin h, castInt_toString]
  by_cases huuid : validateUuidValue (.str id) = .ok ()
  · rw [if_pos huuid]
    by_cases hlt : i < 2 ^ 31
    · rw [if_pos hlt]
      exact .accepted (below_pin.mpr hlt) (.inl huuid) trivial
    · rw [if_neg hlt]
      exact .raised _ ⟨fun hbelow => hlt (below_pin.mp hbelow), fun _ _ _ => huuid⟩
  · rw [if_neg huuid]
    exact .refused (fun hover => huuid (hover.2 i id rfl)) fun hok => hok.1.elim huuid fun hshift => hshift

theorem verdict_write {leaf : Leaf} {n : ℕ} (h : Names op (.write leaf n v)) :
    Verdict (.write leaf n v) pinned (validateElem body op pinned) := by
  rw [validateElem_write h, checkBudget_leafPath, castInt_toString]
  have hvalue (ok : Bool) (hbelow : PatchOp.Below (2 ^ 31) (.write leaf n v))
      (hok : ok = true ↔ PatchOp.Held pinned (.write leaf n v)) :
      Verdict (.write leaf n v) pinned (.ok (if ok && valueAllowed body leaf.name v then some pinned else none)) := by
    split
    · next hboth =>
      rw [Bool.and_eq_true, hok] at hboth
      exact .accepted hbelow (valueAllowed_permitted.mp hboth.2) hboth.1
    · next hboth =>
      rw [Bool.and_eq_true, hok] at hboth
      exact .refused (fun hover => hover.1 hbelow) fun h => hboth ⟨h.2, valueAllowed_permitted.mpr h.1⟩
  cases hleaf : leaf.isBudget with
  | false =>
    rw [if_neg Bool.false_ne_true]
    refine hvalue true (below_write.mpr fun hb => ?_) (iff_of_true rfl fun hb => ?_)
    · exact absurd (hleaf.symm.trans hb) Bool.false_ne_true
    · exact absurd (hleaf.symm.trans hb) Bool.false_ne_true
  | true =>
    rw [if_pos rfl]
    by_cases hlt : n < 2 ^ 31
    · rw [if_pos hlt]
      refine hvalue _ (below_write.mpr fun _ => hlt) ?_
      rw [decide_eq_true_iff]
      exact ⟨fun hmem _ => hmem, fun hheld => hheld hleaf⟩
    · rw [if_neg hlt]
      refine .raised _ ⟨fun hbelow => hlt (below_write.mp hbelow hleaf), fun i id hpin => ?_⟩
      cases hpin

theorem Names.verdict (h : Names op p) : Verdict p pinned (validateElem body op pinned) := by
  cases p with
  | pin i id => exact verdict_pin h
  | write leaf n v => exact verdict_write h

theorem PatchOp.Permitted.overflows (h : PatchOp.Permitted p) (hbelow : ¬PatchOp.Below (2 ^ 31) p) :
    PatchOp.Overflows p := by
  refine ⟨hbelow, fun i id hpin => ?_⟩
  subst hpin
  exact h.elim (fun hok => hok) fun hshift => hshift.elim

theorem slashed_parts (p : PatchOp) : Json.slashed (Json.pathOf p.parts) = some p.parts :=
  Json.slashed_pathOf (plain_parts p).1 fun s hs => ((plain_parts p).2 s hs).1

theorem budgetIdTestPathIndex_idPath (h : i < 2 ^ 32) :
    budgetIdTestPathIndex (Json.pathOf (idParts i)) = some i := by
  have hslashed : Json.slashed (Json.pathOf (idParts i)) = some (idParts i) := slashed_parts (.pin i "")
  rw [budgetIdTestPathIndex, hslashed, idParts]
  simp only [isArrayIndex_toString, parseU32_toString h, if_true]

theorem pathLeafIfAllowed_leafPath {leaf : Leaf} {n : ℕ} (h : leaf.isBudget = true → n < 2 ^ 32) :
    pathLeafIfAllowed (Json.pathOf (leaf.parts n)) = some (leaf, if leaf.isBudget then some n else none) := by
  have hslashed : Json.slashed (Json.pathOf (leaf.parts n)) = some (leaf.parts n) :=
    slashed_parts (.write leaf n .null)
  rw [pathLeafIfAllowed, hslashed]
  cases leaf with
  | limitAmountAtomic =>
    simp only [Leaf.parts, isArrayIndex_toString, parseU32_toString (h rfl), if_true, Option.map_some, Leaf.isBudget]
  | reservationTtlSeconds =>
    simp only [Leaf.parts, isArrayIndex_toString, parseU32_toString (h rfl), if_true, Option.map_some, Leaf.isBudget]
  | claimAmountAtomicGt =>
    simp only [Leaf.parts, isArrayIndex_toString, if_true, Leaf.isBudget, Bool.false_eq_true, if_false]
  | decision => simp only [Leaf.parts, isArrayIndex_toString, if_true, Leaf.isBudget, Bool.false_eq_true, if_false]
  | approverRole => simp only [Leaf.parts, isArrayIndex_toString, if_true, Leaf.isBudget, Bool.false_eq_true, if_false]

theorem validateOp_of {index : ℕ} (h : Names op p) (hok : p.Acceptable) (hheld : PatchOp.Held pinned p)
    (hbelow : PatchOp.Below (2 ^ 32) p) : validateOp index op pinned = .ok (PatchOp.pins pinned p) := by
  have hkind : (op.get? "op" >>= Json.asStr?) = some p.kind := by rw [h.kind]; rfl
  have hpath : (op.get? "path" >>= Json.asStr?) = some (Json.pathOf p.parts) := by rw [h.path]; rfl
  rw [validateOp, hkind, hpath, h.value, check_of (isObj_of_get? h.kind), ok_bind, found_some, ok_bind, found_some,
    found_some]
  cases p with
  | pin i id =>
    have hindex := budgetIdTestPathIndex_idPath (below_pin.mp hbelow)
    have huuid : validateUuidValue (.str id) = .ok () := hok
    simp only [PatchOp.kind, PatchOp.parts, PatchOp.value, ok_bind, if_true, hindex, found_some, huuid, mapError_ok]
    rfl
  | write leaf n v =>
    have hleaf := pathLeafIfAllowed_leafPath (below_write.mp hbelow)
    have hvalue : validateValue v leaf = .ok () := hok
    have hpin : checkPinned index pinned (if leaf.isBudget then some n else none) = .ok () := by
      cases hbudget : leaf.isBudget with
      | true => exact check_of (hheld hbudget) _
      | false => rfl
    have hne : ¬"replace" = "test" := by decide
    simp only [PatchOp.kind, PatchOp.parts, PatchOp.value, ok_bind, if_neg hne, hleaf, found_some, hpin, hvalue,
      mapError_ok]
    rfl

theorem validateOp_ok_iff {index : ℕ} : validateOp index op pinned = .ok pinned' ↔ ∃ p, Names op p ∧ p.Acceptable ∧
    PatchOp.Held pinned p ∧ PatchOp.Below (2 ^ 32) p ∧ pinned' = PatchOp.pins pinned p := by
  constructor
  · intro h
    obtain ⟨p, hp⟩ := validateOp_ok h
    have hnames : Names op p := ⟨hp.reads.kind, hp.reads.path, hp.reads.value⟩
    have hheld : PatchOp.Held pinned p := by
      cases p with
      | pin i id => trivial
      | write leaf n v => exact hp.pinned leaf n v rfl
    refine ⟨p, hnames, hp.acceptable, hheld, hp.reads.small, ?_⟩
    rw [validateOp_of hnames hp.acceptable hheld hp.reads.small] at h
    exact (Except.ok.inj h).symm
  · rintro ⟨p, hnames, hok, hheld, hbelow, rfl⟩
    exact validateOp_of hnames hok hheld hbelow

theorem acceptable_iff : p.Acceptable ↔ PatchOp.Permitted p ∧ ¬PatchOp.HasShiftedTtl p := by
  have hdisjoint : p.Acceptable → ¬PatchOp.HasShiftedTtl p := by
    intro hok hshift
    cases p with
    | pin i id => exact hshift
    | write leaf n v =>
      cases leaf with
      | reservationTtlSeconds =>
        obtain ⟨t, m, rfl, -⟩ := hshift
        cases hok
      | _ => exact hshift
  exact ⟨fun h => ⟨.inl h, hdisjoint h⟩, fun h => h.1.resolve_right h.2⟩

end Operations

/-- The operations follow the grammar, each budget pinned before it is written, and satisfy a condition. -/
inductive Conforms (ok : PatchOp → Prop) : List ℕ → List Json → Prop
  | nil (pinned) : Conforms ok pinned []
  | cons {op p pinned ops} : Names op p → PatchOp.Permitted p → PatchOp.Held pinned p → ok p →
      Conforms ok (PatchOp.pins pinned p) ops → Conforms ok pinned (op :: ops)

section Patches

variable {body : Json → String} {ops : List Json} {pinned : List ℕ} {ok ok' : PatchOp → Prop}

theorem Conforms.imp (h : Conforms ok pinned ops) (himp : ∀ p, ok p → ok' p) : Conforms ok' pinned ops := by
  induction h with
  | nil pinned => exact .nil pinned
  | cons hnames hok hheld hp _ ih => exact .cons hnames hok hheld (himp _ hp) ih

theorem Conforms.and (h : Conforms ok pinned ops) (hall : ∀ op ∈ ops, ∀ p, Names op p → ok' p) :
    Conforms (fun p => ok p ∧ ok' p) pinned ops := by
  induction h with
  | nil pinned => exact .nil pinned
  | cons hnames hok hheld hp _ ih =>
    rw [List.forall_mem_cons] at hall
    exact .cons hnames hok hheld ⟨hp, hall.1 _ hnames⟩ (ih hall.2)

theorem Conforms.forall_mem (h : Conforms ok pinned ops) {op : Json} (hop : op ∈ ops) {p : PatchOp} (hp : Names op p) :
    PatchOp.Permitted p ∧ ok p := by
  induction h with
  | nil => cases hop
  | cons hnames hok _ hp' _ ih =>
    rcases List.mem_cons.mp hop with rfl | hop
    · cases hp.unique hnames
      exact ⟨hok, hp'⟩
    · exact ih hop

theorem Conforms.front {front back : List Json} (h : Conforms ok pinned (front ++ back)) : Conforms ok pinned front := by
  induction front generalizing pinned with
  | nil => exact .nil pinned
  | cons op front ih =>
    cases h with
    | cons hnames hok hheld hp h => exact .cons hnames hok hheld hp (ih h)

theorem validateOps_ok_iff {index : ℕ} : validateOps index pinned ops = .ok () ↔
    Conforms (fun p => ¬PatchOp.HasShiftedTtl p ∧ PatchOp.Below (2 ^ 32) p) pinned ops := by
  induction ops generalizing index pinned with
  | nil => exact iff_of_true rfl (.nil pinned)
  | cons op ops ih =>
    rw [validateOps, bind_eq_ok]
    constructor
    · rintro ⟨pinned', hop, h⟩
      obtain ⟨p, hnames, hok, hheld, hbelow, rfl⟩ := validateOp_ok_iff.mp hop
      rw [acceptable_iff] at hok
      exact .cons hnames hok.1 hheld ⟨hok.2, hbelow⟩ (ih.mp h)
    · intro h
      cases h with
      | cons hnames hok hheld hp h =>
        exact ⟨_, validateOp_of hnames (acceptable_iff.mpr ⟨hok, hp.1⟩) hheld hp.2, ih.mpr h⟩

theorem validateElems_true : validateElems body pinned ops = .ok true ↔ Conforms (PatchOp.Below (2 ^ 31)) pinned ops := by
  induction ops generalizing pinned with
  | nil => exact iff_of_true rfl (.nil pinned)
  | cons op ops ih =>
    rw [validateElems]
    by_cases hnamed : ∃ p, Names op p
    · obtain ⟨p, hp⟩ := hnamed
      have hverdict := @Names.verdict body op p pinned hp
      generalize validateElem body op pinned = r at hverdict
      cases hverdict with
      | raised e hover =>
        refine iff_of_false nofun fun h => ?_
        cases h with
        | cons hnames _ _ hbelow _ => exact hover.1 (hp.unique hnames ▸ hbelow)
      | accepted hbelow hok hheld =>
        refine ih.trans ⟨fun h => .cons hp hok hheld hbelow h, fun h => ?_⟩
        cases h with
        | cons hnames _ _ _ h => exact hp.unique hnames ▸ h
      | refused _ hno =>
        refine iff_of_false nofun fun h => ?_
        cases h with
        | cons hnames hok hheld _ _ =>
          cases hp.unique hnames
          exact hno ⟨hok, hheld⟩
    · rw [validateElem_unnamed fun p hp => hnamed ⟨p, hp⟩]
      refine iff_of_false nofun fun h => ?_
      cases h with
      | cons hnames _ _ _ _ => exact hnamed ⟨_, hnames⟩

def Reaches (pinned : List ℕ) (ops : List Json) : Prop :=
  ∃ front op back p, ops = front ++ op :: back ∧ Conforms (fun _ => True) pinned front ∧ Names op p ∧
    PatchOp.Overflows p

theorem reaches_cons {op : Json} (hno : ∀ p, Names op p → ¬PatchOp.Overflows p) : Reaches pinned (op :: ops) ↔
    ∃ p, Names op p ∧ PatchOp.Permitted p ∧ PatchOp.Held pinned p ∧ Reaches (PatchOp.pins pinned p) ops := by
  constructor
  · rintro ⟨front, op', back, q, hops, hfront, hq, hover⟩
    cases front with
    | nil =>
      cases hops
      exact absurd hover (hno q hq)
    | cons first front =>
      cases hops
      cases hfront with
      | cons hnames hok hheld _ hfront => exact ⟨_, hnames, hok, hheld, front, op', back, q, rfl, hfront, hq, hover⟩
  · rintro ⟨p, hnames, hok, hheld, front, op', back, q, rfl, hfront, hq, hover⟩
    exact ⟨op :: front, op', back, q, rfl, .cons hnames hok hheld trivial hfront, hq, hover⟩

theorem validateElems_error : (∃ e, validateElems body pinned ops = .error e) ↔ Reaches pinned ops := by
  induction ops generalizing pinned with
  | nil => exact iff_of_false (by rintro ⟨e, h⟩; cases h) (by rintro ⟨front, op, back, _, h, _⟩; simp at h)
  | cons op ops ih =>
    rw [validateElems]
    by_cases hnamed : ∃ p, Names op p
    · obtain ⟨p, hp⟩ := hnamed
      have hone (Q : PatchOp → Prop) : (∃ q, Names op q ∧ Q q) ↔ Q p :=
        ⟨fun ⟨_, hq, h⟩ => hp.unique hq ▸ h, fun h => ⟨p, hp, h⟩⟩
      have hverdict := @Names.verdict body op p pinned hp
      generalize validateElem body op pinned = r at hverdict
      cases hverdict with
      | raised e hover => exact iff_of_true ⟨e, rfl⟩ ⟨[], op, ops, p, rfl, .nil pinned, hp, hover⟩
      | accepted hbelow hok hheld =>
        rw [reaches_cons fun q hq hover => hover.1 (hp.unique hq ▸ hbelow), hone]
        exact ih.trans ⟨fun h => ⟨hok, hheld, h⟩, fun h => h.2.2⟩
      | refused hno hrefused =>
        rw [reaches_cons fun q hq hover => hno (hp.unique hq ▸ hover), hone]
        exact iff_of_false (by rintro ⟨e, h⟩; cases h) fun h => hrefused ⟨h.1, h.2.1⟩
    · have hnone : ∀ p, ¬Names op p := fun p hp => hnamed ⟨p, hp⟩
      rw [validateElem_unnamed hnone, reaches_cons fun q hq => absurd hq (hnone q)]
      exact iff_of_false (by rintro ⟨e, h⟩; cases h) fun ⟨p, hp, _⟩ => hnone p hp

theorem Conforms.small (h : Conforms (fun _ => True) pinned ops) (hreach : ¬Reaches pinned ops) :
    Conforms (PatchOp.Below (2 ^ 31)) pinned ops := by
  refine (@Conforms.and _ _ _ (PatchOp.Below (2 ^ 31)) h fun op hop p hp => ?_).imp fun p hp => hp.2
  by_contra hlarge
  obtain ⟨front, back, rfl⟩ := List.append_of_mem hop
  exact hreach ⟨front, op, back, p, rfl, h.front, hp, (h.forall_mem hop hp).1.overflows hlarge⟩

end Patches

section Agree

variable (body : Json → String) (ops : List Json)

theorem validate_arr (hlen : 0 < ops.length ∧ ops.length ≤ 8) : validate (.arr ops) = validateOps 0 [] ops := by
  rw [validate, check_of (List.length_pos_iff.mp hlen.1), ok_bind,
    check_of (show ops.length ≤ maxPatchOps from hlen.2), ok_bind]

theorem costAdvisorValidate_arr (hlen : 0 < ops.length ∧ ops.length ≤ 8) :
    costAdvisorValidateProposedDslPatch body (some (.arr ops)) = validateElems body [] ops := by
  rw [costAdvisorValidateProposedDslPatch, if_neg (Nat.ne_of_gt hlen.1), if_neg (Nat.not_lt.mpr hlen.2)]

theorem validate_arr_length (hlen : ¬(0 < ops.length ∧ ops.length ≤ 8)) : validate (.arr ops) ≠ .ok () := by
  intro h
  obtain ⟨hne, h⟩ := check_bind_eq_ok.mp h
  obtain ⟨hmax, -⟩ := check_bind_eq_ok.mp h
  exact hlen ⟨List.length_pos_iff.mpr hne, hmax⟩

theorem costAdvisorValidate_arr_length (hlen : ¬(0 < ops.length ∧ ops.length ≤ 8)) :
    costAdvisorValidateProposedDslPatch body (some (.arr ops)) = .ok false := by
  rw [costAdvisorValidateProposedDslPatch]
  split
  · rfl
  · rw [if_pos (by omega)]

theorem operations_agree_iff :
    ((validateOps 0 [] ops = .ok () ↔ validateElems body [] ops = .ok true) ∧
      ∀ e, validateElems body [] ops ≠ .error e) ↔
    ¬Reaches [] ops ∧ (Conforms (fun _ => True) [] ops → ∀ op ∈ ops, ∀ p, Names op p → ¬PatchOp.HasShiftedTtl p) := by
  have herror : (∀ e, validateElems body [] ops ≠ .error e) ↔ ¬Reaches [] ops := by
    rw [← @validateElems_error body, not_exists]
  rw [herror, validateOps_ok_iff, validateElems_true, and_comm]
  refine and_congr_right fun hreach => ⟨fun hiff hconforms op hop p hp => ?_, fun hplain => ⟨fun h => ?_, fun h => ?_⟩⟩
  · exact ((hiff.mpr (hconforms.small hreach)).forall_mem hop hp).2.1
  · exact (h.imp fun _ _ => trivial).small hreach
  · refine (h.and (hplain (h.imp fun _ _ => trivial))).imp fun p hp => ⟨hp.2, fun i hi => ?_⟩
    exact (hp.1 i hi).trans (by decide)

end Agree

/-- The two checks agree on a patch, and the database's returns, exactly where no budget index of `2 ^ 31` or more is
reached and no TTL of an acceptable patch is written with an exponent. -/
theorem validators_agree_iff (body : Json → String) (patch : Json) :
    ((validate patch = .ok () ↔ costAdvisorValidateProposedDslPatch body (some patch) = .ok true) ∧
      ∀ e, costAdvisorValidateProposedDslPatch body (some patch) ≠ .error e) ↔
    ∀ ops, patch = .arr ops → ops.length ≤ 8 → ¬Reaches [] ops ∧
      (Conforms (fun _ => True) [] ops → ∀ op ∈ ops, ∀ p, Names op p → ¬PatchOp.HasShiftedTtl p) := by
  cases patch with
  | arr ops =>
    by_cases hlen : 0 < ops.length ∧ ops.length ≤ 8
    · rw [validate_arr ops hlen, costAdvisorValidate_arr body ops hlen, operations_agree_iff]
      refine ⟨fun h ops' heq _ => ?_, fun h => h ops rfl hlen.2⟩
      cases heq
      exact h
    · rw [costAdvisorValidate_arr_length body ops hlen]
      refine iff_of_true ⟨iff_of_false (validate_arr_length ops hlen) nofun, nofun⟩ fun ops' heq hmax => ?_
      cases heq
      -- only the empty patch is left
      have hnil : ops = [] := List.length_eq_zero_iff.mp (by omega)
      subst hnil
      refine ⟨?_, fun _ op hop => by cases hop⟩
      rintro ⟨front, op, back, _, hops, _⟩
      simp at hops
  | _ => exact iff_of_true ⟨iff_of_false nofun nofun, nofun⟩ nofun

def pinOp (index : String) : Json :=
  .obj [("op", .str "test"), ("path", .str ("/spec/budgets/" ++ index ++ "/id")),
    ("value", .str "a1b2c3d4-e5f6-7890-abcd-ef0123456789")]

def ttlOp (value : Json) : Json :=
  .obj [("op", .str "replace"), ("path", .str "/spec/budgets/0/reservation_ttl_seconds"), ("value", value)]

/-- The database raises an error on an index that the check before accepts, and accepts a TTL that it refuses. -/
theorem validators_disagree :
    (validate (.arr [pinOp "2147483648"]) = .ok () ∧
      costAdvisorValidateProposedDslPatch (fun _ => "") (some (.arr [pinOp "2147483648"])) =
        .error ⟨"22003", "value \"2147483648\" is out of range for type integer"⟩) ∧
    validate (.arr [pinOp "0", ttlOp (.real "6e1")]) =
        .error (.opValueSchema 1 "reservation_ttl_seconds" "must be a JSON integer") ∧
      costAdvisorValidateProposedDslPatch (fun _ => "") (some (.arr [pinOp "0", ttlOp (.real "6e1")])) = .ok true := by
  decide +kernel

end Allowlist

end SpendGuard.Registry
