import Mathlib

/-!
Texts with a separator, and decimal texts of 64-bit integers.
-/

namespace SpendGuard.Base

def splitOnce (sep : Char) : List Char → Option (List Char × List Char)
  | [] => none
  | c :: rest => if c = sep then some ([], rest) else (splitOnce sep rest).map fun p => (c :: p.1, p.2)

theorem splitOnce_append {sep : Char} {front : List Char} (hfront : sep ∉ front) (back : List Char) :
    splitOnce sep (front ++ sep :: back) = some (front, back) := by
  induction front with
  | nil => simp [splitOnce]
  | cons c front ih =>
    rw [List.mem_cons, not_or] at hfront
    rw [List.cons_append, splitOnce, if_neg (Ne.symm hfront.1), ih hfront.2]
    rfl

def parseDigits (ds : List Char) : Option ℕ :=
  if ds ≠ [] ∧ ds.all Char.isDigit then some (Nat.ofDigitChars 10 ds 0) else none

def parseSigned : List Char → Option ℤ
  | '-' :: ds => (parseDigits ds).map fun n : ℕ => -(n : ℤ)
  | '+' :: ds => (parseDigits ds).map Int.ofNat
  | ds => (parseDigits ds).map Int.ofNat

theorem parseSigned_minus (ds : List Char) :
    parseSigned ('-' :: ds) = (parseDigits ds).map fun n : ℕ => -(n : ℤ) := rfl

def parseI64 (text : List Char) : Option ℤ :=
  (parseSigned text).filter fun n => -2 ^ 63 ≤ n ∧ n < 2 ^ 63

/-- As `parse::<u32>` reads a text. -/
def parseU32 : List Char → Option ℕ
  | '+' :: ds => (parseDigits ds).filter (· < 2 ^ 32)
  | ds => (parseDigits ds).filter (· < 2 ^ 32)

theorem parseDigits_toDigits (n : ℕ) : parseDigits (Nat.toDigits 10 n) = some n := by
  have hdigits : (Nat.toDigits 10 n).all Char.isDigit = true := by
    rw [List.all_eq_true]
    intro c hc
    exact Nat.isDigit_of_mem_toDigits (by decide) (by decide) hc
  rw [parseDigits, if_pos ⟨Nat.toDigits_ne_nil, hdigits⟩, Nat.ofDigitChars_toDigits (by decide) (by decide)]

theorem parseSigned_toDigits (n : ℕ) : parseSigned (Nat.toDigits 10 n) = some (n : ℤ) := by
  have hdigit (c : Char) (hc : c ∈ Nat.toDigits 10 n) : c.isDigit = true :=
    Nat.isDigit_of_mem_toDigits (by decide) (by decide) hc
  have hvalue := parseDigits_toDigits n
  generalize Nat.toDigits 10 n = ds at hdigit hvalue
  unfold parseSigned
  split
  · exact absurd (hdigit '-' (List.mem_cons_self ..)) (by decide)
  · exact absurd (hdigit '+' (List.mem_cons_self ..)) (by decide)
  · rw [hvalue]
    rfl

theorem parseSigned_toString (n : ℤ) : parseSigned (toString n).toList = some n := by
  rw [Int.toString_eq_repr, Int.repr_eq_if]
  split
  case isTrue hn =>
    rw [Nat.toList_repr, parseSigned_toDigits, Int.toNat_of_nonneg hn]
  case isFalse hn =>
    have hneg : ((-n).toNat : ℤ) = -n := Int.toNat_of_nonneg (by omega)
    have hsign : "-".toList = ['-'] := rfl
    rw [String.toList_append, Nat.toList_repr, hsign, List.singleton_append, parseSigned_minus,
      parseDigits_toDigits, Option.map_some, hneg, neg_neg]

theorem parseI64_toString (n : Int64) : parseI64 (toString n.toInt).toList = some n.toInt := by
  have hlow := n.le_toInt
  have hhigh := n.toInt_lt
  rw [parseI64, parseSigned_toString, Option.filter_some, if_pos (by simpa using ⟨hlow, hhigh⟩)]

theorem digit_bounds {c : Char} (h : c.isDigit = true) : 48 ≤ c.toNat ∧ c.toNat ≤ 57 := by
  simpa [Char.isDigit, UInt32.le_iff_toNat_le] using h

theorem digitChar_of_isDigit {c : Char} (h : c.isDigit = true) : Nat.digitChar (c.toNat - '0'.toNat) = c := by
  obtain ⟨hlow, hhigh⟩ := digit_bounds h
  rw [← Char.ofNat_toNat c]
  generalize c.toNat = n at hlow hhigh
  interval_cases n <;> rfl

theorem toDigits_ofDigitChars {cs : List Char} (h : cs.all Char.isDigit = true) {n : ℕ} (hn : 0 < n) :
    Nat.toDigits 10 (Nat.ofDigitChars 10 cs n) = Nat.toDigits 10 n ++ cs := by
  induction cs generalizing n with
  | nil => simp [Nat.ofDigitChars]
  | cons c cs ih =>
    rw [List.all_cons, Bool.and_eq_true] at h
    have hd : c.toNat - '0'.toNat < 10 := by
      have hbounds := digit_bounds h.1
      have hzero : '0'.toNat = 48 := rfl
      omega
    rw [Nat.ofDigitChars_cons, ih h.2 (by omega), ← Nat.toDigits_append_toDigits (by decide) hn hd,
      Nat.toDigits_of_lt_base hd, digitChar_of_isDigit h.1, List.append_assoc, List.singleton_append]

theorem isDigit_of_mem_repr {n : ℕ} {c : Char} (h : c ∈ (toString n).toList) : c.isDigit = true :=
  Nat.isDigit_of_mem_toDigits (by decide) (by decide) (Nat.toList_repr ▸ h)

theorem parseU32_toString {n : ℕ} (h : n < 2 ^ 32) : parseU32 (toString n).toList = some n := by
  have hvalue : parseDigits (toString n).toList = some n := Nat.toList_repr ▸ parseDigits_toDigits n
  have hplus : '+' ∉ (toString n).toList := fun hc => absurd (isDigit_of_mem_repr hc) (by decide)
  unfold parseU32
  split
  · next ds heq => exact absurd (heq ▸ List.mem_cons_self ..) hplus
  · rw [hvalue, Option.filter_some, if_pos (by simpa using h)]

theorem eq_zero_of_head?_toDigits (n : ℕ) (h : (Nat.toDigits 10 n).head? = some '0') : n = 0 := by
  induction n using Nat.strong_induction_on with
  | h n ih =>
    by_cases hn : n < 10
    · rw [Nat.toDigits_of_lt_base hn] at h
      interval_cases n
      · rfl
      all_goals exact absurd h (by decide)
    · have hten : 10 ≤ n := Nat.le_of_not_lt hn
      rw [Nat.toDigits_of_base_le (by decide) hten, List.head?_append_of_ne_nil _ Nat.toDigits_ne_nil] at h
      have hzero := ih (n / 10) (by omega) h
      omega

def utf8 (s : String) : List UInt8 := s.toUTF8.data.toList

theorem utf8_inj {s t : String} : utf8 s = utf8 t ↔ s = t := by
  constructor
  · intro h
    have hdata : s.toUTF8.data = t.toUTF8.data := Array.toList_inj.mp h
    exact String.toByteArray_inj.mp (ByteArray.ext hdata)
  · exact congrArg utf8

theorem utf8_eq (s : String) : utf8 s = s.toList.flatMap String.utf8EncodeChar := by
  rw [utf8, String.toUTF8_eq_toByteArray, ← String.utf8Encode_toList, List.utf8Encode, List.data_toByteArray]

theorem utf8_ascii {s : String} (h : ∀ c ∈ s.toList, c.toNat < 128) :
    utf8 s = s.toList.map fun c => UInt8.ofNat c.toNat := by
  rw [utf8_eq]
  generalize s.toList = cs at h
  induction cs with
  | nil => rfl
  | cons c cs ih =>
    rw [List.forall_mem_cons] at h
    have hc : String.utf8EncodeChar c = [UInt8.ofNat c.toNat] := if_pos (Nat.le_of_lt_succ h.1)
    rw [List.flatMap_cons, ih h.2, hc]
    rfl

theorem digits_utf8_toString (n : ℕ) : ∀ b ∈ utf8 (toString n), 48 ≤ b ∧ b ≤ 57 := by
  have hbounds (c : Char) (hc : c ∈ (toString n).toList) := digit_bounds (isDigit_of_mem_repr hc)
  rw [utf8_ascii fun c hc => Nat.lt_of_le_of_lt (hbounds c hc).2 (by decide)]
  intro b hb
  obtain ⟨c, hc, rfl⟩ := List.mem_map.mp hb
  obtain ⟨hlow, hhigh⟩ := hbounds c hc
  have hbyte : (UInt8.ofNat c.toNat).toNat = c.toNat := UInt8.toNat_ofNat_of_lt' (Nat.lt_of_le_of_lt hhigh (by decide))
  rw [UInt8.le_iff_toNat_le, UInt8.le_iff_toNat_le, hbyte]
  exact ⟨hlow, hhigh⟩

/-- Unicode `White_Space`. -/
def isWhitespace (c : Char) : Bool :=
  (0x9 ≤ c.val ∧ c.val ≤ 0xD) ∨ (0x2000 ≤ c.val ∧ c.val ≤ 0x200A) ∨
    c.val ∈ [0x20, 0x85, 0xA0, 0x1680, 0x2028, 0x2029, 0x202F, 0x205F, 0x3000]

def stripFront : List Char → List Char → Option (List Char)
  | [], t => some t
  | _ :: _, [] => none
  | p :: ps, c :: t => if p = c then stripFront ps t else none

theorem stripFront_append (p t : List Char) : stripFront p (p ++ t) = some t := by
  induction p with
  | nil => rfl
  | cons c p ih => rw [List.cons_append, stripFront, if_pos rfl, ih]

end SpendGuard.Base
