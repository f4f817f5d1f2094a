import Mathlib

/-!
The proto3 wire format: a message is the list of its records, in the order of the field numbers, and a
field that has its default value leaves no record.
-/

namespace SpendGuard.Base

/-- No code word is the beginning of another text that starts with a code word. -/
def PrefixCode {α β : Type} (f : α → List β) : Prop :=
  ∀ ⦃a b x y⦄, f a ++ x = f b ++ y → a = b ∧ x = y

namespace PrefixCode

variable {α β γ : Type} {f : α → List β}

theorem flatMap_injective (hf : PrefixCode f) (hne : ∀ a, f a ≠ []) :
    Function.Injective (List.flatMap f) := by
  intro xs
  induction xs with
  | nil =>
    intro ys h
    cases ys with
    | nil => rfl
    | cons y ys => exact absurd (List.append_eq_nil_iff.mp h.symm).1 (hne y)
  | cons x xs ih =>
    intro ys h
    cases ys with
    | nil => exact absurd (List.append_eq_nil_iff.mp h).1 (hne x)
    | cons y ys =>
      obtain ⟨rfl, htail⟩ := hf h
      rw [ih htail]

end PrefixCode

namespace Proto

def varint (n : ℕ) : List UInt8 :=
  if n < 128 then [UInt8.ofNat n] else UInt8.ofNat (n % 128 + 128) :: varint (n / 128)

theorem varint_of_lt {n : ℕ} (h : n < 128) : varint n = [UInt8.ofNat n] := by
  rw [varint, if_pos h]

theorem varint_of_le {n : ℕ} (h : 128 ≤ n) :
    varint n = UInt8.ofNat (n % 128 + 128) :: varint (n / 128) := by
  rw [varint, if_neg (by omega)]

theorem varint_ne_nil (n : ℕ) : varint n ≠ [] := by
  rw [varint]
  split <;> simp

theorem ofNat_inj {m n : ℕ} (hm : m < 256) (hn : n < 256) (h : UInt8.ofNat m = UInt8.ofNat n) : m = n := by
  have := congrArg UInt8.toNat h
  simpa [Nat.mod_eq_of_lt, hm, hn] using this

theorem prefixCode_varint : PrefixCode varint := by
  intro m
  induction m using Nat.strongRecOn with
  | ind m ih =>
    intro n x y h
    -- the first byte tells whether there is a second
    by_cases hm : m < 128 <;> by_cases hn : n < 128
    · rw [varint_of_lt hm, varint_of_lt hn] at h
      obtain ⟨hbyte, htail⟩ := List.cons.inj h
      exact ⟨ofNat_inj (by omega) (by omega) hbyte, htail⟩
    · rw [varint_of_lt hm, varint_of_le (by omega)] at h
      have := ofNat_inj (by omega) (by omega) (List.cons.inj h).1
      omega
    · rw [varint_of_le (by omega), varint_of_lt hn] at h
      have := ofNat_inj (by omega) (by omega) (List.cons.inj h).1
      omega
    · rw [varint_of_le (Nat.not_lt.mp hm), varint_of_le (Nat.not_lt.mp hn)] at h
      obtain ⟨hbyte, htail⟩ := List.cons.inj h
      have hlow := ofNat_inj (by omega) (by omega) hbyte
      obtain ⟨hhigh, hrest⟩ := ih (m / 128) (by omega) htail
      exact ⟨by omega, hrest⟩

inductive Payload
  | varint (n : ℕ)
  | fixed32 (bits : UInt32)
  | len (bytes : List UInt8)

namespace Payload

def wireType : Payload → ℕ
  | .varint _ => 0
  | .len _ => 2
  | .fixed32 _ => 5

def fixed32Bytes (bits : UInt32) : List UInt8 :=
  [UInt8.ofNat bits.toNat, UInt8.ofNat (bits.toNat / 256), UInt8.ofNat (bits.toNat / 65536),
    UInt8.ofNat (bits.toNat / 16777216)]

def bytes : Payload → List UInt8
  | .varint n => Proto.varint n
  | .fixed32 bits => fixed32Bytes bits
  | .len b => Proto.varint b.length ++ b

theorem fixed32Bytes_injective : Function.Injective fixed32Bytes := by
  intro a b h
  simp only [fixed32Bytes, List.cons.injEq, and_true] at h
  have hbytes := h.imp (congrArg UInt8.toNat) (·.imp (congrArg UInt8.toNat)
    (·.imp (congrArg UInt8.toNat) (congrArg UInt8.toNat)))
  simp only [UInt8.toNat_ofNat'] at hbytes
  have ha := a.toNat_lt
  have hb := b.toNat_lt
  exact UInt32.toNat_inj.mp (by omega)

theorem bytes_append_inj {p q : Payload} {x y : List UInt8} (hkind : p.wireType = q.wireType)
    (h : p.bytes ++ x = q.bytes ++ y) : p = q ∧ x = y := by
  cases p with
  | varint m =>
    cases q with
    | varint n => exact (prefixCode_varint h).imp_left (congrArg _)
    | fixed32 _ => cases hkind
    | len _ => cases hkind
  | fixed32 a =>
    cases q with
    | varint _ => cases hkind
    | fixed32 b =>
      obtain ⟨hbytes, htail⟩ := List.append_inj h rfl
      exact ⟨congrArg _ (fixed32Bytes_injective hbytes), htail⟩
    | len _ => cases hkind
  | len a =>
    cases q with
    | varint _ => cases hkind
    | fixed32 _ => cases hkind
    | len b =>
      simp only [bytes, List.append_assoc] at h
      obtain ⟨hlength, hrest⟩ := prefixCode_varint h
      obtain ⟨hbytes, htail⟩ := List.append_inj hrest hlength
      exact ⟨congrArg _ hbytes, htail⟩

theorem wireType_lt (p : Payload) : p.wireType < 8 := by
  cases p <;> simp [wireType]

end Payload

/-- A record: its key, which holds the field number and the wire type, and the payload. -/
def record (r : ℕ × Payload) : List UInt8 := varint (r.1 * 8 + r.2.wireType) ++ r.2.bytes

theorem record_ne_nil (r : ℕ × Payload) : record r ≠ [] :=
  fun h => varint_ne_nil _ (List.append_eq_nil_iff.mp h).1

theorem prefixCode_record : PrefixCode record := by
  rintro ⟨m, p⟩ ⟨n, q⟩ x y h
  simp only [record, List.append_assoc] at h
  obtain ⟨hkey, hrest⟩ := prefixCode_varint h
  have hp := p.wireType_lt
  have hq := q.wireType_lt
  obtain ⟨rfl, htail⟩ := Payload.bytes_append_inj (by omega) hrest
  exact ⟨Prod.ext (by simp only; omega) rfl, htail⟩

theorem head?_record_ne (r : ℕ × Payload) : (record r).head? ≠ some 123 := by
  intro h
  obtain ⟨n, p⟩ := r
  unfold record at h
  by_cases hkey : n * 8 + p.wireType < 128
  · simp only [varint_of_lt hkey, List.singleton_append, List.head?_cons, Option.some.injEq] at h
    have hbyte := ofNat_inj (n := 123) (by omega) (by decide) h
    cases p <;> simp only [Payload.wireType] at hbyte <;> omega
  · simp only [varint_of_le (Nat.not_lt.mp hkey), List.cons_append, List.head?_cons, Option.some.injEq] at h
    have hbyte := ofNat_inj (n := 123) (by omega) (by decide) h
    omega

/-- The fields of a message by number; a default value is `none`. -/
abbrev Fields := List (ℕ × Option Payload)

def Fields.records (fs : Fields) : List (ℕ × Payload) := fs.filterMap fun f => f.2.map (f.1, ·)

def encode (fs : Fields) : List UInt8 := fs.records.flatMap record

theorem head?_encode_ne (fs : Fields) : (encode fs).head? ≠ some 123 := by
  unfold encode
  cases fs.records with
  | nil => simp
  | cons r rs =>
    rw [List.flatMap_cons, List.head?_append_of_ne_nil _ (record_ne_nil r)]
    exact head?_record_ne r

theorem Fields.fst_of_mem_records {fs : Fields} {r : ℕ × Payload} (h : r ∈ fs.records) :
    r.1 ∈ fs.map Prod.fst := by
  obtain ⟨f, hf, hr⟩ := List.mem_filterMap.mp h
  obtain ⟨p, -, rfl⟩ := Option.map_eq_some_iff.mp hr
  exact List.mem_map_of_mem hf

theorem Fields.eq_of_records {fs gs : Fields} (hnumbers : fs.map Prod.fst = gs.map Prod.fst)
    (hnodup : (fs.map Prod.fst).Nodup) (h : fs.records = gs.records) : fs = gs := by
  induction fs generalizing gs with
  | nil => simpa using hnumbers.symm
  | cons f fs ih =>
    cases gs with
    | nil => cases hnumbers
    | cons g gs =>
      obtain ⟨n, p⟩ := f
      obtain ⟨m, q⟩ := g
      simp only [List.map_cons, List.cons.injEq] at hnumbers
      obtain ⟨rfl, hnumbers⟩ := hnumbers
      obtain ⟨hfresh, hnodup'⟩ := List.nodup_cons.mp hnodup
      have hother {r : ℕ × Payload} {hs : Fields} (hhs : hs.map Prod.fst = fs.map Prod.fst)
          (hr : r ∈ hs.records) : r.1 ≠ n := fun hn => hfresh (hn ▸ hhs ▸ fst_of_mem_records hr)
      cases p with
      | none =>
        cases q with
        | none => rw [ih hnumbers hnodup' h]
        | some q =>
          have hmem : (n, q) ∈ Fields.records fs := by
            have : Fields.records fs = (n, q) :: Fields.records gs := h
            simp [this]
          exact absurd rfl (hother rfl hmem)
      | some p =>
        cases q with
        | none =>
          have hmem : (n, p) ∈ Fields.records gs := by
            have : (n, p) :: Fields.records fs = Fields.records gs := h
            simp [← this]
          exact absurd rfl (hother hnumbers.symm hmem)
        | some q =>
          have hcons : (n, p) :: Fields.records fs = (n, q) :: Fields.records gs := h
          obtain ⟨hpq, hrest⟩ := List.cons.inj hcons
          rw [(Prod.mk.inj hpq).2, ih hnumbers hnodup' hrest]

theorem eq_of_encode {fs gs : Fields} {numbers : List ℕ} (hfs : fs.map Prod.fst = numbers)
    (hgs : gs.map Prod.fst = numbers) (hnodup : numbers.Nodup) (h : encode fs = encode gs) : fs = gs :=
  Fields.eq_of_records (hfs.trans hgs.symm) (hfs ▸ hnodup)
    (prefixCode_record.flatMap_injective record_ne_nil h)

def orDefault {α : Type} [DecidableEq α] (default : α) (payload : α → Payload) (a : α) : Option Payload :=
  if a = default then none else some (payload a)

theorem orDefault_injective {α : Type} [DecidableEq α] {default : α} {payload : α → Payload}
    (h : Function.Injective payload) : Function.Injective (orDefault default payload) := by
  intro a b hab
  unfold orDefault at hab
  split_ifs at hab with ha hb
  · rw [ha, hb]
  · exact h (Option.some.inj hab)

def twosComplement (n : ℤ) : ℕ := (n % (2 ^ 64 : ℤ)).toNat

def uint64 : UInt64 → Option Payload := orDefault 0 fun n => .varint n.toNat

def int64 : Int64 → Option Payload := orDefault 0 fun n => .varint (twosComplement n.toInt)

def int32 : Int32 → Option Payload := orDefault 0 fun n => .varint (twosComplement n.toInt)

/-- Negative zero compares equal to the default, and is not sent either. -/
def sentBits (bits : UInt32) : UInt32 := if bits = 0x80000000 then 0 else bits

def float (bits : UInt32) : Option Payload := orDefault 0 .fixed32 (sentBits bits)

def string : String → Option Payload := orDefault "" fun s => .len s.toUTF8.data.toList

def bytes : List UInt8 → Option Payload := orDefault [] .len

def message (fs : Option Fields) : Option Payload := fs.map fun fs => .len (encode fs)

theorem uint64_injective : Function.Injective uint64 :=
  orDefault_injective fun _ _ h => UInt64.toNat_inj.mp (Payload.varint.inj h)

theorem int64_injective : Function.Injective int64 := by
  apply orDefault_injective
  intro a b h
  have hbits : (a.toInt % (2 ^ 64 : ℤ)).toNat = (b.toInt % (2 ^ 64 : ℤ)).toNat := Payload.varint.inj h
  have ha := And.intro a.le_toInt a.toInt_lt
  have hb := And.intro b.le_toInt b.toInt_lt
  exact Int64.toInt_inj.mp (by omega)

theorem int32_injective : Function.Injective int32 := by
  apply orDefault_injective
  intro a b h
  have hbits : (a.toInt % (2 ^ 64 : ℤ)).toNat = (b.toInt % (2 ^ 64 : ℤ)).toNat := Payload.varint.inj h
  have ha := And.intro a.le_toInt a.toInt_lt
  have hb := And.intro b.le_toInt b.toInt_lt
  exact Int32.toInt_inj.mp (by omega)

theorem sentBits_of_float {a b : UInt32} (h : float a = float b) : sentBits a = sentBits b :=
  orDefault_injective (fun _ _ => Payload.fixed32.inj) h

theorem string_injective : Function.Injective string := by
  apply orDefault_injective
  intro a b h
  have hdata : a.toUTF8.data = b.toUTF8.data := Array.toList_inj.mp (Payload.len.inj h)
  exact String.toByteArray_inj.mp (ByteArray.ext hdata)

theorem bytes_injective : Function.Injective bytes := orDefault_injective fun _ _ => Payload.len.inj

end Proto

end SpendGuard.Base
