import SpendGuard.Base.Check
import SpendGuard.Base.Endian
import SpendGuard.Base.Hex

/-!
The Connect-RPC frames of a stream: a flag byte, the length of the payload in four bytes, the payload.  The reader is
compared with the grammar of such streams, and what is written again with what was read.
-/

namespace SpendGuard.Cursor

open Base

abbrev Bytes := List UInt8

structure Frame where
  flags : UInt8
  payload : Bytes
  deriving DecidableEq

def flagCompressed : UInt8 := 0x01

def flagEndOfStream : UInt8 := 0x02

def validFlagMask : UInt8 := flagCompressed ||| flagEndOfStream

def defaultMaxFrameLen : ℕ := 8 * 1024 * 1024

inductive ErrorKind
  | invalidData | unexpectedEof
  deriving DecidableEq

structure IoError where
  kind : ErrorKind
  message : String
  deriving DecidableEq

/-- `read_exact` on a cursor: the bytes and what is left, or the end of the stream. -/
def readExact (n : ℕ) (message : String) (s : Bytes) : Except IoError (Bytes × Bytes) :=
  if n ≤ s.length then .ok (s.take n, s.drop n) else .error ⟨.unexpectedEof, message⟩

def readFrame (maxFrameLen : ℕ) : Bytes → Except IoError (Option (Frame × Bytes))
  | [] => .ok none
  | flags :: s => do
    check (flags &&& ~~~validFlagMask = 0)
      ⟨.invalidData, "connect-rpc: invalid flag byte 0x" ++ Hex.encode [flags] ++ ": reserved bits set"⟩
    let (lenBuf, s) ← readExact 4 "connect-rpc: truncated frame: missing length prefix" s
    let length := ofBE lenBuf
    check (length ≤ maxFrameLen)
      ⟨.invalidData, "connect-rpc: oversized frame: length " ++ toString length ++ " exceeds max " ++
        toString maxFrameLen⟩
    let (payload, s) ← readExact length
      ("connect-rpc: truncated frame: payload short of declared length " ++ toString length) s
    return some (⟨flags, payload⟩, s)

def reencodeFrame (f : Frame) : Bytes := f.flags :: (toBE 4 f.payload.length ++ f.payload)

theorem reserved_eq_zero_iff (flags : UInt8) : flags &&& ~~~validFlagMask = 0 ↔ flags < 4 := by
  have hall : ∀ n : Fin 256, UInt8.ofNat n &&& ~~~validFlagMask = 0 ↔ UInt8.ofNat n < 4 := by decide +kernel
  have hflags := hall ⟨flags.toNat, flags.toNat_lt⟩
  rwa [UInt8.ofNat_toNat] at hflags

theorem readExact_eq_ok {n : ℕ} {message : String} {s bs rest : Bytes} :
    readExact n message s = .ok (bs, rest) ↔ bs.length = n ∧ s = bs ++ rest := by
  unfold readExact
  constructor
  · intro h
    split at h
    · next hn =>
      cases h
      exact ⟨List.length_take_of_le hn, (List.take_append_drop n s).symm⟩
    · cases h
  · rintro ⟨rfl, rfl⟩
    rw [if_pos (by simp), List.take_left, List.drop_left]

structure Frame.Sized (maxFrameLen : ℕ) (f : Frame) (lenBuf : Bytes) : Prop where
  flags : f.flags < 4
  width : lenBuf.length = 4
  length : ofBE lenBuf = f.payload.length
  ceiling : f.payload.length ≤ maxFrameLen

variable {maxFrameLen : ℕ} {s : Bytes}

theorem readFrame_cons_eq_ok {flags : UInt8} {o : Option (Frame × Bytes)} :
    readFrame maxFrameLen (flags :: s) = .ok o ↔ ∃ lenBuf payload rest,
      (⟨flags, payload⟩ : Frame).Sized maxFrameLen lenBuf ∧ s = lenBuf ++ (payload ++ rest) ∧
        o = some (⟨flags, payload⟩, rest) := by
  simp only [readFrame, bind_eq_ok, check_eq_ok, exists_const, reserved_eq_zero_iff, Prod.exists, readExact_eq_ok]
  constructor
  · rintro ⟨hflags, lenBuf, _, ⟨hwidth, rfl⟩, hmax, payload, rest, ⟨hlength, rfl⟩, ho⟩
    exact ⟨lenBuf, payload, rest, ⟨hflags, hwidth, hlength.symm, hlength ▸ hmax⟩, rfl, (Except.ok.inj ho).symm⟩
  · rintro ⟨lenBuf, payload, rest, hf, rfl, rfl⟩
    exact ⟨hf.flags, lenBuf, _, ⟨hf.width, rfl⟩, hf.length ▸ hf.ceiling, payload, rest, ⟨hf.length.symm, rfl⟩, rfl⟩

theorem readFrame_eq_none : readFrame maxFrameLen s = .ok none ↔ s = [] := by
  cases s with
  | nil => simp [readFrame]
  | cons flags s => simp [readFrame_cons_eq_ok]

theorem readFrame_eq_some {f : Frame} {rest : Bytes} :
    readFrame maxFrameLen s = .ok (some (f, rest)) ↔
      ∃ lenBuf, f.Sized maxFrameLen lenBuf ∧ s = f.flags :: (lenBuf ++ (f.payload ++ rest)) := by
  cases s with
  | nil => simp [readFrame]
  | cons flags s =>
    rw [readFrame_cons_eq_ok]
    constructor
    · rintro ⟨lenBuf, payload, rest', hf, rfl, ho⟩
      cases ho
      exact ⟨lenBuf, hf, rfl⟩
    · rintro ⟨lenBuf, hf, heq⟩
      obtain ⟨rfl, rfl⟩ := List.cons.inj heq
      exact ⟨lenBuf, f.payload, rest, hf, rfl, rfl⟩

theorem readFrame_shorter {f : Frame} {rest : Bytes} (h : readFrame maxFrameLen s = .ok (some (f, rest))) :
    rest.length < s.length := by
  obtain ⟨lenBuf, -, rfl⟩ := readFrame_eq_some.mp h
  simp only [List.length_cons, List.length_append]
  omega

/-- `while let Some(frame) = reader.read_frame()?`. -/
def forFrames {β : Type} (maxFrameLen : ℕ) (act : β → Frame → β) (b : β) (s : Bytes) : Except IoError β :=
  match _hread : readFrame maxFrameLen s with
  | .error e => .error e
  | .ok none => .ok b
  | .ok (some (f, rest)) => forFrames maxFrameLen act (act b f) rest
termination_by s.length
decreasing_by exact readFrame_shorter _hread

def reencodeFrameStream (wire : Bytes) : Except IoError Bytes :=
  forFrames defaultMaxFrameLen (fun out f => out ++ reencodeFrame f) [] wire

/-- The frames that the reader of `reencodeFrameStream` gives. -/
def readFrames (wire : Bytes) : Except IoError (List Frame) :=
  forFrames defaultMaxFrameLen (fun frames f => frames ++ [f]) [] wire

inductive Framed (maxFrameLen : ℕ) : List Frame → Bytes → Prop
  | nil : Framed maxFrameLen [] []
  | cons {f lenBuf fs s} (hf : f.Sized maxFrameLen lenBuf) (hs : Framed maxFrameLen fs s) :
      Framed maxFrameLen (f :: fs) (f.flags :: (lenBuf ++ (f.payload ++ s)))

theorem forFrames_eq_ok {β : Type} {act : β → Frame → β} {b b' : β} :
    forFrames maxFrameLen act b s = .ok b' ↔ ∃ fs, Framed maxFrameLen fs s ∧ fs.foldl act b = b' := by
  constructor
  · intro h
    fun_induction forFrames maxFrameLen act b s with
    | case1 b s e hread => cases h
    | case2 b s hread =>
      cases h
      rw [readFrame_eq_none.mp hread]
      exact ⟨[], .nil, rfl⟩
    | case3 b s f rest hread ih =>
      obtain ⟨fs, hfs, hb⟩ := ih h
      obtain ⟨lenBuf, hf, rfl⟩ := readFrame_eq_some.mp hread
      exact ⟨f :: fs, .cons hf hfs, hb⟩
  · rintro ⟨fs, hfs, rfl⟩
    induction hfs generalizing b with
    | nil =>
      rw [forFrames]
      rfl
    | @cons f lenBuf fs s hf hs ih =>
      have hread : readFrame maxFrameLen (f.flags :: (lenBuf ++ (f.payload ++ s))) = .ok (some (f, s)) :=
        readFrame_eq_some.mpr ⟨lenBuf, hf, rfl⟩
      rw [forFrames]
      split
      · next h => cases hread.symm.trans h
      · next h => cases hread.symm.trans h
      · next f' rest h =>
        cases hread.symm.trans h
        exact ih

theorem Framed.reencoded {fs : List Frame} (h : Framed maxFrameLen fs s) (out : Bytes) :
    fs.foldl (fun out f => out ++ reencodeFrame f) out = out ++ s := by
  induction h generalizing out with
  | nil => exact (List.append_nil out).symm
  | cons hf hs ih =>
    rw [List.foldl_cons, ih, reencodeFrame, ← hf.length, toBE_ofBE hf.width]
    simp only [List.append_assoc, List.cons_append]

theorem foldl_collect (fs out : List Frame) : fs.foldl (fun frames f => frames ++ [f]) out = out ++ fs := by
  induction fs generalizing out with
  | nil => exact (List.append_nil out).symm
  | cons f fs ih => rw [List.foldl_cons, ih, List.append_assoc, List.singleton_append]

theorem Framed.reencodeFrameStream {fs : List Frame} (h : Framed defaultMaxFrameLen fs s) :
    reencodeFrameStream s = .ok s := forFrames_eq_ok.mpr ⟨fs, h, h.reencoded []⟩

theorem Framed.readFrames {fs : List Frame} (h : Framed defaultMaxFrameLen fs s) : readFrames s = .ok fs :=
  forFrames_eq_ok.mpr ⟨fs, h, foldl_collect fs []⟩

end SpendGuard.Cursor
