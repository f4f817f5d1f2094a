import Mathlib

/-!
JSON values as a deserializer leaves them: an object keeps one value a key.
-/

namespace SpendGuard.Base

inductive Json
  | null
  | bool (b : Bool)
  | int (n : ℤ)
  | real (text : String)
  | str (s : String)
  | arr (items : List Json)
  | obj (fields : List (String × Json))

namespace Json

mutual

def beq : Json → Json → Bool
  | .null, .null => true
  | .bool a, .bool b => a = b
  | .int m, .int n => m = n
  | .real s, .real t => s = t
  | .str s, .str t => s = t
  | .arr xs, .arr ys => beqItems xs ys
  | .obj xs, .obj ys => beqFields xs ys
  | _, _ => false

def beqItems : List Json → List Json → Bool
  | [], [] => true
  | x :: xs, y :: ys => beq x y && beqItems xs ys
  | _, _ => false

def beqFields : List (String × Json) → List (String × Json) → Bool
  | [], [] => true
  | (k, x) :: xs, (l, y) :: ys => k = l && (beq x y && beqFields xs ys)
  | _, _ => false

end

mutual

theorem beq_iff : ∀ a b : Json, beq a b = true ↔ a = b
  | .null, b => by cases b <;> simp [beq]
  | .bool _, b => by cases b <;> simp [beq]
  | .int _, b => by cases b <;> simp [beq]
  | .real _, b => by cases b <;> simp [beq]
  | .str _, b => by cases b <;> simp [beq]
  | .arr xs, b => by cases b <;> simp [beq, beqItems_iff xs]
  | .obj xs, b => by cases b <;> simp [beq, beqFields_iff xs]

theorem beqItems_iff : ∀ xs ys : List Json, beqItems xs ys = true ↔ xs = ys
  | [], ys => by cases ys <;> simp [beqItems]
  | x :: xs, ys => by cases ys <;> simp [beqItems, beq_iff x, beqItems_iff xs]

theorem beqFields_iff : ∀ xs ys : List (String × Json), beqFields xs ys = true ↔ xs = ys
  | [], ys => by cases ys <;> simp [beqFields]
  | (k, x) :: xs, ys => by
    match ys with
    | [] => simp [beqFields]
    | (l, y) :: ys => simp [beqFields, beq_iff x, beqFields_iff xs, and_assoc]

end

instance decidableEq : DecidableEq Json := fun a b => decidable_of_iff _ (beq_iff a b)

def isObj : Json → Bool
  | .obj _ => true
  | _ => false

def get? : Json → String → Option Json
  | .obj fields, key => fields.lookup key
  | _, _ => none

def asI64? : Json → Option ℤ
  | .int n => if -2 ^ 63 ≤ n ∧ n < 2 ^ 63 then some n else none
  | _ => none

def asStr? : Json → Option String
  | .str s => some s
  | _ => none

def asArr? : Json → Option (List Json)
  | .arr items => some items
  | _ => none

def asU64? : Json → Option ℕ
  | .int n => if 0 ≤ n ∧ n < 2 ^ 64 then some n.toNat else none
  | _ => none

def hexDigit (n : ℕ) : Char := if n < 10 then Char.ofNat (48 + n) else Char.ofNat (87 + n)

def escape (c : Char) : List Char :=
  if c = '"' then ['\\', '"']
  else if c = '\\' then ['\\', '\\']
  else if c = '\n' then ['\\', 'n']
  else if c = '\r' then ['\\', 'r']
  else if c = '\t' then ['\\', 't']
  else if c.toNat = 8 then ['\\', 'b']
  else if c.toNat = 12 then ['\\', 'f']
  else if c.toNat < 32 then ['\\', 'u', '0', '0', hexDigit (c.toNat / 16), hexDigit (c.toNat % 16)]
  else [c]

def renderStr (s : String) : String := "\"" ++ String.ofList (s.toList.flatMap escape) ++ "\""

mutual

def render : Json → String
  | .null => "null"
  | .bool b => if b then "true" else "false"
  | .int n => toString n
  | .real text => text
  | .str s => renderStr s
  | .arr items => "[" ++ renderItems items ++ "]"
  | .obj fields => "\x7b" ++ renderFields fields ++ "\x7d"

def renderItems : List Json → String
  | [] => ""
  | [v] => render v
  | v :: w :: rest => render v ++ "," ++ renderItems (w :: rest)

def renderFields : List (String × Json) → String
  | [] => ""
  | [(k, v)] => renderStr k ++ ":" ++ render v
  | (k, v) :: f :: rest => renderStr k ++ ":" ++ render v ++ "," ++ renderFields (f :: rest)

end

theorem head?_render_obj (fields : List (String × Json)) :
    (render (.obj fields)).toUTF8.data.toList.head? = some 123 := by
  simp only [render, String.toUTF8_eq_toByteArray, String.toByteArray_append, ByteArray.data_append,
    Array.toList_append]
  rfl

end Json

end SpendGuard.Base
