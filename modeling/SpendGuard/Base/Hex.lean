import SpendGuard.Base.Json

/-!
Bytes as hexadecimal text: written in lower case, read in either.
-/

namespace SpendGuard.Base.Hex

def value? (c : Char) : Option ℕ :=
  if 48 ≤ c.toNat ∧ c.toNat ≤ 57 then some (c.toNat - 48)
  else if 97 ≤ c.toNat ∧ c.toNat ≤ 102 then some (c.toNat - 87)
  else if 65 ≤ c.toNat ∧ c.toNat ≤ 70 then some (c.toNat - 55)
  else none

def encodeChars : List UInt8 → List Char
  | [] => []
  | b :: bs => Json.hexDigit (b.toNat / 16) :: Json.hexDigit (b.toNat % 16) :: encodeChars bs

def decodeChars : List Char → Option (List UInt8)
  | [] => some []
  | [_] => none
  | p :: q :: rest => do
    let high ← value? p
    let low ← value? q
    let bytes ← decodeChars rest
    return UInt8.ofNat (high * 16 + low) :: bytes

def encode (bs : List UInt8) : String := String.ofList (encodeChars bs)

def decode (s : String) : Option (List UInt8) := decodeChars s.toList

theorem value?_hexDigit_fin : ∀ n : Fin 16, value? (Json.hexDigit n) = some n.val := by decide

theorem value?_hexDigit {n : ℕ} (h : n < 16) : value? (Json.hexDigit n) = some n :=
  value?_hexDigit_fin ⟨n, h⟩

theorem decodeChars_encodeChars (bs : List UInt8) : decodeChars (encodeChars bs) = some bs := by
  induction bs with
  | nil => rfl
  | cons b bs ih =>
    have hlt := b.toNat_lt
    have hbyte : UInt8.ofNat (b.toNat / 16 * 16 + b.toNat % 16) = b := by
      rw [Nat.div_add_mod']
      exact UInt8.ofNat_toNat
    simp only [encodeChars, decodeChars]
    rw [value?_hexDigit (by omega), value?_hexDigit (by omega), ih]
    exact congrArg (fun byte => some (byte :: bs)) hbyte

theorem decode_encode (bs : List UInt8) : decode (encode bs) = some bs := by
  rw [decode, encode, String.toList_ofList]
  exact decodeChars_encodeChars bs

end SpendGuard.Base.Hex
