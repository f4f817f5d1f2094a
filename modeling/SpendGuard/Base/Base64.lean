import Mathlib.Data.Nat.Notation
import Mathlib.Tactic.Common

/-!
The standard base64 alphabet with padding, as a strict reader takes it: no white space, a complete last
group, and no stray bits before the padding.
-/

namespace SpendGuard.Base.Base64

def symbol (n : ℕ) : Char :=
  if n < 26 then Char.ofNat (65 + n)
  else if n < 52 then Char.ofNat (71 + n)
  else if n < 62 then Char.ofNat (n - 4)
  else if n = 62 then '+' else '/'

def value? (c : Char) : Option ℕ :=
  if 65 ≤ c.toNat ∧ c.toNat ≤ 90 then some (c.toNat - 65)
  else if 97 ≤ c.toNat ∧ c.toNat ≤ 122 then some (c.toNat - 71)
  else if 48 ≤ c.toNat ∧ c.toNat ≤ 57 then some (c.toNat + 4)
  else if c = '+' then some 62
  else if c = '/' then some 63
  else none

theorem value?_symbol_fin : ∀ n : Fin 64, value? (symbol n) = some n.val ∧ symbol n ≠ '=' := by decide

theorem value?_symbol {n : ℕ} (h : n < 64) : value? (symbol n) = some n := (value?_symbol_fin ⟨n, h⟩).1

theorem symbol_ne_pad {n : ℕ} (h : n < 64) : symbol n ≠ '=' := (value?_symbol_fin ⟨n, h⟩).2

def encode : List UInt8 → List Char
  | [] => []
  | [a] => [symbol (a.toNat / 4), symbol (a.toNat % 4 * 16), '=', '=']
  | [a, b] =>
    [symbol (a.toNat / 4), symbol (a.toNat % 4 * 16 + b.toNat / 16), symbol (b.toNat % 16 * 4), '=']
  | a :: b :: c :: rest =>
    symbol (a.toNat / 4) :: symbol (a.toNat % 4 * 16 + b.toNat / 16) ::
      symbol (b.toNat % 16 * 4 + c.toNat / 64) :: symbol (c.toNat % 64) :: encode rest

def byte (n : ℕ) : UInt8 := UInt8.ofNat n

def lastGroup (p q r s : Char) : Option (List UInt8) := do
  let p ← value? p
  let q ← value? q
  if s ≠ '=' then none
  else if r = '=' then
    if q % 16 = 0 then some [byte (p * 4 + q / 16)] else none
  else do
    let r ← value? r
    if r % 4 = 0 then some [byte (p * 4 + q / 16), byte (q * 16 + r / 4)] else none

def decode : List Char → Option (List UInt8)
  | [] => some []
  | p :: q :: r :: s :: rest =>
    if s = '=' then
      if rest = [] then lastGroup p q r s else none
    else do
      let p ← value? p
      let q ← value? q
      let r ← value? r
      let s ← value? s
      let tail ← decode rest
      return byte (p * 4 + q / 16) :: byte (q * 16 + r / 4) :: byte (r * 64 + s) :: tail
  | _ => none

theorem byte_eq {n : ℕ} {a : UInt8} (h : n % 256 = a.toNat) : byte n = a := by
  rw [byte, ← UInt8.toNat_inj, UInt8.toNat_ofNat', h]

section Bytes

variable (a b c : UInt8)

theorem byte_only : byte (a.toNat / 4 * 4 + a.toNat % 4) = a := byte_eq (by have := a.toNat_lt; omega)

theorem byte_first : byte (a.toNat / 4 * 4 + (a.toNat % 4 * 16 + b.toNat / 16) / 16) = a :=
  byte_eq (by have := a.toNat_lt; have := b.toNat_lt; omega)

theorem byte_last : byte ((a.toNat % 4 * 16 + b.toNat / 16) * 16 + b.toNat % 16) = b :=
  byte_eq (by have := b.toNat_lt; omega)

theorem byte_second :
    byte ((a.toNat % 4 * 16 + b.toNat / 16) * 16 + (b.toNat % 16 * 4 + c.toNat / 64) / 4) = b :=
  byte_eq (by have := b.toNat_lt; have := c.toNat_lt; omega)

theorem byte_third : byte ((b.toNat % 16 * 4 + c.toNat / 64) * 64 + c.toNat % 64) = c :=
  byte_eq (by have := c.toNat_lt; omega)

theorem first_lt : a.toNat / 4 < 64 := by have := a.toNat_lt; omega

theorem second_lt : a.toNat % 4 * 16 + b.toNat / 16 < 64 := by have := b.toNat_lt; omega

theorem third_lt : b.toNat % 16 * 4 + c.toNat / 64 < 64 := by have := c.toNat_lt; omega

theorem fourth_lt : c.toNat % 64 < 64 := by omega

theorem only_lt : a.toNat % 4 * 16 < 64 := by omega

theorem last_lt : b.toNat % 16 * 4 < 64 := by omega

end Bytes

theorem decode_encode (l : List UInt8) : decode (encode l) = some l := by
  induction l using encode.induct with
  | case1 => rfl
  | case2 a => simp [encode, decode, lastGroup, value?_symbol (first_lt a), value?_symbol (only_lt a), byte_only]
  | case3 a b =>
    simp [encode, decode, lastGroup, value?_symbol (first_lt a), value?_symbol (second_lt a b),
      value?_symbol (last_lt b), symbol_ne_pad (last_lt b), byte_first, byte_last]
  | case4 a b c rest ih =>
    simp [encode, decode, value?_symbol (first_lt a), value?_symbol (second_lt a b), value?_symbol (third_lt b c),
      value?_symbol (fourth_lt c), symbol_ne_pad (fourth_lt c), byte_first, byte_second, byte_third, ih]

theorem encode_eq_nil_iff {l : List UInt8} : encode l = [] ↔ l = [] := by
  match l with
  | [] => simp [encode]
  | [a] => simp [encode]
  | [a, b] => simp [encode]
  | a :: b :: c :: rest => simp [encode]

/-! ### The database's reading

It skips white space, and it breaks what it writes into lines of 76 symbols. -/

def isSpace (c : Char) : Bool := c = ' ' || c = '\t' || c = '\n' || c = '\r'

/-- Reads on with the values of the group so far; `pad` tells how many bytes a padded group has, and is
zero until the first `=`. -/
def decodeLoose (group : List ℕ) (pad : ℕ) : List Char → Option (List UInt8)
  | [] => if group = [] then some [] else none
  | c :: rest =>
    if isSpace c = true then decodeLoose group pad rest
    else do
      let pad ← if c = '=' ∧ pad = 0 then
          if group.length = 2 then some 1 else if group.length = 3 then some 2 else none
        else some pad
      let n ← if c = '=' then some 0 else value? c
      match group with
      | [p, q, r] =>
        let tail ← decodeLoose [] pad rest
        return byte (p * 4 + q / 16) ::
          ((if pad = 1 then [] else [byte (q * 16 + r / 4)]) ++ (if pad = 0 then [byte (r * 64 + n)] else []) ++ tail)
      | _ => decodeLoose (group ++ [n]) pad rest

theorem isSpace_symbol_fin : ∀ n : Fin 64, isSpace (symbol n) = false := by decide

theorem decodeLoose_symbol {n pad : ℕ} {group : List ℕ} (h : n < 64) (hgroup : group.length < 3) (rest : List Char) :
    decodeLoose group pad (symbol n :: rest) = decodeLoose (group ++ [n]) pad rest := by
  have hspace : isSpace (symbol n) = false := isSpace_symbol_fin ⟨n, h⟩
  match group, hgroup with
  | [], _ | [_], _ | [_, _], _ => simp [decodeLoose, hspace, symbol_ne_pad h, value?_symbol h]

theorem decodeLoose_encode (l : List UInt8) : decodeLoose [] 0 (encode l) = some l := by
  have hpad : isSpace '=' = false := rfl
  induction l using encode.induct with
  | case1 => rfl
  | case2 a =>
    rw [encode, decodeLoose_symbol (first_lt a) (by simp), decodeLoose_symbol (only_lt a) (by simp)]
    simp [decodeLoose, hpad, byte_only]
  | case3 a b =>
    rw [encode, decodeLoose_symbol (first_lt a) (by simp), decodeLoose_symbol (second_lt a b) (by simp),
      decodeLoose_symbol (last_lt b) (by simp)]
    simp [decodeLoose, hpad, byte_first, byte_last]
  | case4 a b c rest ih =>
    have hspace : isSpace (symbol (c.toNat % 64)) = false := isSpace_symbol_fin ⟨_, fourth_lt c⟩
    rw [encode, decodeLoose_symbol (first_lt a) (by simp), decodeLoose_symbol (second_lt a b) (by simp),
      decodeLoose_symbol (third_lt b c) (by simp)]
    simp [decodeLoose, hspace, symbol_ne_pad (fourth_lt c), value?_symbol (fourth_lt c), byte_first, byte_second,
      byte_third, ih]

/-- Ends the line after every 76 symbols; `left` are those missing to the next end. -/
def breakLines (left : ℕ) : List Char → List Char
  | [] => []
  | c :: rest => if left = 1 then c :: '\n' :: breakLines 76 rest else c :: breakLines (left - 1) rest

def encodeLines (l : List UInt8) : List Char := breakLines 76 (encode l)

end SpendGuard.Base.Base64
