import SpendGuard.Cursor.Framing

/-!
The `.cursor-rpc` fixtures: an envelope and the frames with their times and directions.  The reader indexes into the
bytes of the file; an index that is not there is a panic.
-/

namespace SpendGuard.Cursor

open Base

inductive Direction
  | client | server
  deriving DecidableEq

structure FixtureFrame where
  timestampMs : UInt64
  direction : Direction
  frame : Frame
  deriving DecidableEq

inductive ReplayError
  | io (e : IoError)
  | badMagic (got want : Bytes)
  | badVersion (got want : ℕ)
  | frameCountMismatch (header actual : ℕ)
  | invalidDirection (b : UInt8)
  deriving DecidableEq

inductive Stop
  | panic
  | error (e : ReplayError)
  deriving DecidableEq

/-- `"SGCRPC\0\0"`. -/
def fixtureMagic : Bytes := [83, 71, 67, 82, 80, 67, 0, 0]

def fixtureVersion : ℕ := 1

namespace Direction

def fromByte (b : UInt8) : Except Stop Direction :=
  if b = 0 then .ok .client else if b = 1 then .ok .server else .error (.error (.invalidDirection b))

def byte : Direction → UInt8
  | .client => 0
  | .server => 1

theorem fromByte_byte (d : Direction) : fromByte d.byte = .ok d := by cases d <;> rfl

end Direction

def byteAt (bytes : Bytes) (i : ℕ) : Except Stop UInt8 := found bytes[i]? .panic

/-- `[bytes[i], bytes[i + 1], …]`. -/
def bytesAt (bytes : Bytes) (i n : ℕ) : Except Stop Bytes := (List.range n).mapM fun k => byteAt bytes (i + k)

/-- `&bytes[i..j]`. -/
def slice (bytes : Bytes) (i j : ℕ) : Except Stop Bytes := do
  check (i ≤ j ∧ j ≤ bytes.length) .panic
  return (bytes.drop i).take (j - i)

def eof (message : String) : Stop := .error (.io ⟨.unexpectedEof, message⟩)

def parseFrame (offset : ℕ) (frameBytes : Bytes) : Except Stop Frame :=
  match readFrame defaultMaxFrameLen frameBytes with
  | .error e => .error (.error (.io e))
  | .ok none => .error (.error (.io ⟨.invalidData, "fixture frame at offset " ++ toString offset ++
      ": ConnectRpcReader yielded no frame"⟩))
  | .ok (some (f, _)) => .ok f

def readRecord (bytes : Bytes) (offset : ℕ) : Except Stop (FixtureFrame × ℕ) := do
  check (offset + 14 ≤ bytes.length) (eof ("fixture truncated at offset " ++ toString offset ++
    ": expected 14 bytes of per-frame header"))
  let timestampMs ← bytesAt bytes offset 8
  let directionByte ← byteAt bytes (offset + 8)
  let direction ← Direction.fromByte directionByte
  let frameStart := offset + 9
  let rpcFlag ← byteAt bytes frameStart
  let lenBuf ← bytesAt bytes (frameStart + 1) 4
  let length := ofBE lenBuf
  let frameEnd := frameStart + 5 + length
  check (frameEnd ≤ bytes.length) (eof ("fixture frame at offset " ++ toString frameStart ++ ": declared length " ++
    toString length ++ " exceeds remaining bytes (" ++ toString (bytes.length - frameStart - 5) ++ ")"))
  let frameBytes ← slice bytes frameStart frameEnd
  let parsed ← parseFrame frameStart frameBytes
  -- the two debug assertions
  check (parsed.flags = rpcFlag) .panic
  check (parsed.payload.length % 2 ^ 32 = length) .panic
  return (⟨UInt64.ofNat (ofLE timestampMs), direction, parsed⟩, frameEnd)

theorem readRecord_later {bytes : Bytes} {offset : ℕ} {p : FixtureFrame × ℕ} (h : readRecord bytes offset = .ok p) :
    offset < p.2 := by
  simp only [readRecord, bind_eq_ok, check_eq_ok, exists_const] at h
  obtain ⟨-, time, -, byte, -, direction, -, flag, -, lenBuf, -, -, frameBytes, -, parsed, -, -, -, h⟩ := h
  cases h
  change offset < offset + 9 + 5 + ofBE lenBuf
  omega

/-- `while offset < bytes.len()`. -/
def readRecords (bytes : Bytes) (offset : ℕ) (frames : List FixtureFrame) (framesSeen : ℕ) :
    Except Stop (List FixtureFrame × ℕ) :=
  if _hoffset : offset < bytes.length then
    match _hrecord : readRecord bytes offset with
    | .error e => .error e
    | .ok (ff, frameEnd) => readRecords bytes frameEnd (frames ++ [ff]) ((framesSeen + 1) % 2 ^ 32)
  else .ok (frames, framesSeen)
termination_by bytes.length - offset
decreasing_by
  have hlater := readRecord_later _hrecord
  omega

def readFixtureBytes (bytes : Bytes) : Except Stop (ℕ × List FixtureFrame) := do
  check (16 ≤ bytes.length) (eof ("fixture too short for envelope: " ++ toString bytes.length ++ " bytes"))
  let magic ← slice bytes 0 8
  check (magic = fixtureMagic) (.error (.badMagic magic fixtureMagic))
  let versionBytes ← bytesAt bytes 8 2
  let version := ofLE versionBytes
  check (version = fixtureVersion) (.error (.badVersion version fixtureVersion))
  let countBytes ← bytesAt bytes 10 4
  let frameCount := ofLE countBytes
  let (frames, framesSeen) ← readRecords bytes 16 [] 0
  check (framesSeen = frameCount) (.error (.frameCountMismatch frameCount framesSeen))
  return (version, frames)

def FixtureFrame.bytes (ff : FixtureFrame) : Bytes :=
  toLE 8 ff.timestampMs.toNat ++ (ff.direction.byte :: reencodeFrame ff.frame)

def writeFixtureBytes (frames : List FixtureFrame) : Bytes :=
  fixtureMagic ++ (toLE 2 fixtureVersion ++ (toLE 4 frames.length ++ (toLE 2 0 ++
    frames.flatMap FixtureFrame.bytes)))

section Indexing

variable {bytes before mid rest : Bytes} {i n : ℕ} {b : UInt8}

theorem byteAt_of_lt (h : i < bytes.length) : byteAt bytes i = .ok bytes[i] := by
  rw [byteAt, List.getElem?_eq_getElem h]
  rfl

theorem bytesAt_succ : bytesAt bytes i (n + 1) = (do
    let bs ← bytesAt bytes i n
    let b ← byteAt bytes (i + n)
    return bs ++ [b]) := by
  rw [bytesAt, List.range_succ, List.mapM_append]
  simp [bytesAt]

theorem bytesAt_of_le (h : i + n ≤ bytes.length) : bytesAt bytes i n = .ok ((bytes.drop i).take n) := by
  induction n with
  | zero => rfl
  | succ n ih =>
    have hlt : n < (bytes.drop i).length := by
      rw [List.length_drop]
      omega
    rw [bytesAt_succ, ih (by omega), ok_bind, byteAt_of_lt (by omega), ok_bind, List.take_add_one,
      List.getElem?_eq_getElem hlt, List.getElem_drop]
    rfl

theorem byteAt_of_eq (h : bytes = before ++ (b :: rest)) (hi : i = before.length) : byteAt bytes i = .ok b := by
  subst h hi
  simp [byteAt, found]

theorem bytesAt_of_eq (h : bytes = before ++ (mid ++ rest)) (hi : i = before.length) (hn : n = mid.length) :
    bytesAt bytes i n = .ok mid := by
  subst h hi hn
  rw [bytesAt_of_le (by simp), List.drop_left, List.take_left]

theorem slice_of_le {j : ℕ} (hij : i ≤ j) (hj : j ≤ bytes.length) :
    slice bytes i j = .ok ((bytes.drop i).take (j - i)) := by
  rw [slice, check_of ⟨hij, hj⟩]
  rfl

theorem slice_of_eq {j : ℕ} (h : bytes = before ++ (mid ++ rest)) (hi : i = before.length)
    (hj : j = before.length + mid.length) : slice bytes i j = .ok mid := by
  subst h hi hj
  rw [slice_of_le (by omega) (by simp), List.drop_left, Nat.add_sub_cancel_left, List.take_left]

end Indexing

def Calm {α : Type} (x : Except Stop α) : Prop := x ≠ .error .panic

section Calm

variable {α β : Type}

theorem calm_ok (a : α) : Calm (.ok a : Except Stop α) := nofun

theorem calm_error (e : ReplayError) : Calm (.error (.error e) : Except Stop α) := nofun

theorem Calm.bind {x : Except Stop α} {f : α → Except Stop β} (hx : Calm x) (hf : ∀ a, x = .ok a → Calm (f a)) :
    Calm (x >>= f) := by
  cases x with
  | ok a => exact hf a rfl
  | error e =>
    intro h
    exact hx (congrArg Except.error (Except.error.inj h))

theorem calm_check_bind {p : Prop} [Decidable p] {e : ReplayError} {f : Unit → Except Stop β}
    (hf : p → Calm (f ())) : Calm (check p (.error e) >>= f) := by
  by_cases hp : p
  · rw [check_of hp]
    exact hf hp
  · rw [check_of_not hp]
    exact calm_error e

theorem calm_fromByte (b : UInt8) : Calm (Direction.fromByte b) := by
  unfold Direction.fromByte
  split
  · exact calm_ok _
  · split
    · exact calm_ok _
    · exact calm_error _

theorem calm_parseFrame (offset : ℕ) (frameBytes : Bytes) : Calm (parseFrame offset frameBytes) := by
  unfold parseFrame
  split
  · exact calm_error _
  · exact calm_error _
  · exact calm_ok _

end Calm

theorem parseFrame_eq_ok {offset : ℕ} {frameBytes : Bytes} {f : Frame} (h : parseFrame offset frameBytes = .ok f) :
    ∃ lenBuf rest, f.Sized defaultMaxFrameLen lenBuf ∧ frameBytes = f.flags :: (lenBuf ++ (f.payload ++ rest)) := by
  unfold parseFrame at h
  split at h
  · cases h
  · cases h
  · next f' rest hread =>
    cases h
    obtain ⟨lenBuf, hf, hbytes⟩ := readFrame_eq_some.mp hread
    exact ⟨lenBuf, rest, hf, hbytes⟩

theorem parsed_header {bytes : Bytes} {start k : ℕ} {f : Frame} {lenBuf rest : Bytes} (hstart : start < bytes.length)
    (hwidth : lenBuf.length = 4)
    (h : (bytes.drop start).take (k + 5) = f.flags :: (lenBuf ++ (f.payload ++ rest))) :
    f.flags = bytes[start] ∧ lenBuf = (bytes.drop (start + 1)).take 4 := by
  rw [List.drop_eq_getElem_cons hstart, List.take_succ_cons] at h
  obtain ⟨hflags, h⟩ := List.cons.inj h
  have hfour := congrArg (List.take 4) h
  rw [List.take_take, Nat.min_eq_left (by omega), List.take_left' hwidth] at hfour
  exact ⟨hflags.symm, hfour.symm⟩

theorem calm_readRecord (bytes : Bytes) (offset : ℕ) : Calm (readRecord bytes offset) := by
  refine calm_check_bind fun hheader => ?_
  rw [bytesAt_of_le (by omega), ok_bind, byteAt_of_lt (by omega), ok_bind]
  refine (calm_fromByte _).bind fun direction _ => ?_
  dsimp only
  rw [byteAt_of_lt (by omega), ok_bind, bytesAt_of_le (by omega), ok_bind]
  refine calm_check_bind fun hend => ?_
  rw [slice_of_le (by omega) hend, ok_bind]
  refine (calm_parseFrame _ _).bind fun parsed hparsed => ?_
  obtain ⟨lenBuf, rest, hsized, hbytes⟩ := parseFrame_eq_ok hparsed
  rw [show ∀ a n : ℕ, a + 5 + n - a = n + 5 by omega] at hbytes
  obtain ⟨hflags, hlenBuf⟩ := parsed_header (by omega) hsized.width hbytes
  have hlt : parsed.payload.length < 2 ^ 32 := Nat.lt_of_le_of_lt hsized.ceiling (by decide)
  rw [check_of hflags, ok_bind, ← hlenBuf, hsized.length, check_of (Nat.mod_eq_of_lt hlt), ok_bind]
  exact calm_ok _

theorem calm_readRecords (bytes : Bytes) (offset : ℕ) (frames : List FixtureFrame) (framesSeen : ℕ) :
    Calm (readRecords bytes offset frames framesSeen) := by
  fun_induction readRecords bytes offset frames framesSeen with
  | case1 offset frames framesSeen hoffset e he =>
    have hcalm := calm_readRecord bytes offset
    rw [he] at hcalm
    intro h
    exact hcalm (congrArg Except.error (Except.error.inj h))
  | case2 offset frames framesSeen hoffset ff frameEnd hrecord ih => exact ih
  | case3 offset frames framesSeen hoffset => exact calm_ok _

theorem calm_readFixtureBytes (bytes : Bytes) : Calm (readFixtureBytes bytes) := by
  refine calm_check_bind fun henvelope => ?_
  rw [slice_of_le (by omega) (by omega), ok_bind]
  refine calm_check_bind fun _ => ?_
  rw [bytesAt_of_le (by omega), ok_bind]
  refine calm_check_bind fun _ => ?_
  rw [bytesAt_of_le (by omega), ok_bind]
  refine (calm_readRecords _ _ _ _).bind fun p _ => ?_
  exact calm_check_bind fun _ => calm_ok _

structure Frame.Fits (f : Frame) : Prop where
  flags : f.flags < 4
  ceiling : f.payload.length ≤ defaultMaxFrameLen

theorem Frame.Fits.length_lt {f : Frame} (hf : f.Fits) : f.payload.length < 256 ^ 4 :=
  Nat.lt_of_le_of_lt hf.ceiling (by decide)

theorem Frame.Fits.sized {f : Frame} (hf : f.Fits) : f.Sized defaultMaxFrameLen (toBE 4 f.payload.length) :=
  ⟨hf.flags, length_toBE _ _, ofBE_toBE hf.length_lt, hf.ceiling⟩

theorem Frame.Fits.parseFrame {f : Frame} (hf : f.Fits) (offset : ℕ) :
    parseFrame offset (reencodeFrame f) = .ok f := by
  have hread : readFrame defaultMaxFrameLen (reencodeFrame f) = .ok (some (f, [])) := by
    refine readFrame_eq_some.mpr ⟨_, hf.sized, ?_⟩
    rw [reencodeFrame, List.append_nil]
  rw [Cursor.parseFrame, hread]

theorem FixtureFrame.length_bytes (ff : FixtureFrame) : ff.bytes.length = 14 + ff.frame.payload.length := by
  simp only [bytes, reencodeFrame, List.length_append, List.length_cons, length_toLE, length_toBE]
  omega

theorem readRecord_of_eq {bytes before rest : Bytes} {ff : FixtureFrame} (hff : ff.frame.Fits)
    (h : bytes = before ++ (ff.bytes ++ rest)) :
    readRecord bytes before.length = .ok (ff, before.length + ff.bytes.length) := by
  have hbytes : bytes = before ++ (toLE 8 ff.timestampMs.toNat ++ (ff.direction.byte ::
      (reencodeFrame ff.frame ++ rest))) := by
    rw [h, FixtureFrame.bytes, List.append_assoc, List.cons_append]
  -- the same bytes, cut before the direction and before the frame
  have hafter : bytes = (before ++ toLE 8 ff.timestampMs.toNat) ++ (ff.direction.byte ::
      (reencodeFrame ff.frame ++ rest)) := by rw [hbytes, List.append_assoc]
  have hframe : bytes = (before ++ toLE 8 ff.timestampMs.toNat ++ [ff.direction.byte]) ++
      (reencodeFrame ff.frame ++ rest) := by rw [hafter, List.append_assoc _ [_], List.singleton_append]
  have hstart : before.length + 9 = (before ++ toLE 8 ff.timestampMs.toNat ++ [ff.direction.byte]).length := by
    simp only [List.length_append, length_toLE, List.length_singleton]
  have hsize : (reencodeFrame ff.frame).length = 5 + ff.frame.payload.length := by
    simp only [reencodeFrame, List.length_cons, List.length_append, length_toBE]
    omega
  have hlength : bytes.length = before.length + 9 + (reencodeFrame ff.frame).length + rest.length := by
    have hparts := congrArg List.length hframe
    rw [List.length_append, ← hstart, List.length_append] at hparts
    omega
  have htime : bytesAt bytes before.length 8 = .ok (toLE 8 ff.timestampMs.toNat) :=
    bytesAt_of_eq hbytes rfl (length_toLE _ _).symm
  have hdirection : byteAt bytes (before.length + 8) = .ok ff.direction.byte :=
    byteAt_of_eq hafter (by rw [List.length_append, length_toLE])
  have hflag : byteAt bytes (before.length + 9) = .ok ff.frame.flags := byteAt_of_eq hframe hstart
  have hlenBuf : bytesAt bytes (before.length + 9 + 1) 4 = .ok (toBE 4 ff.frame.payload.length) := by
    have hcut : bytes = (before ++ toLE 8 ff.timestampMs.toNat ++ [ff.direction.byte] ++ [ff.frame.flags]) ++
        (toBE 4 ff.frame.payload.length ++ (ff.frame.payload ++ rest)) := by
      simp only [hframe, reencodeFrame, List.append_assoc, List.cons_append, List.nil_append]
    refine bytesAt_of_eq hcut ?_ (length_toBE _ _).symm
    rw [List.length_append, ← hstart, List.length_singleton]
  have hslice : slice bytes (before.length + 9) (before.length + 9 + 5 + ff.frame.payload.length) =
      .ok (reencodeFrame ff.frame) := slice_of_eq hframe hstart (by omega)
  have hlt : ff.frame.payload.length < 2 ^ 32 := hff.length_lt
  have hstamp : UInt64.ofNat (ofLE (toLE 8 ff.timestampMs.toNat)) = ff.timestampMs := by
    rw [ofLE_toLE ff.timestampMs.toNat_lt, UInt64.ofNat_toNat]
  rw [readRecord, check_of (by omega), ok_bind, htime, ok_bind, hdirection, ok_bind, Direction.fromByte_byte, ok_bind]
  dsimp only
  rw [hflag, ok_bind, hlenBuf, ok_bind, ofBE_toBE hff.length_lt, check_of (by omega), ok_bind, hslice, ok_bind,
    hff.parseFrame, ok_bind, check_of rfl, ok_bind, check_of (Nat.mod_eq_of_lt hlt), ok_bind, hstamp, ff.length_bytes]
  rw [show before.length + 9 + 5 + ff.frame.payload.length = before.length + (14 + ff.frame.payload.length) by omega]
  rfl

theorem readRecords_of_eq {bytes before : Bytes} {fs frames : List FixtureFrame} {framesSeen : ℕ}
    (hfs : ∀ ff ∈ fs, ff.frame.Fits) (h : bytes = before ++ fs.flatMap FixtureFrame.bytes)
    (hseen : framesSeen + fs.length < 2 ^ 32) :
    readRecords bytes before.length frames framesSeen = .ok (frames ++ fs, framesSeen + fs.length) := by
  induction fs generalizing before frames framesSeen with
  | nil =>
    rw [List.flatMap_nil, List.append_nil] at h
    subst h
    rw [readRecords, dif_neg (Nat.lt_irrefl _), List.append_nil]
    rfl
  | cons ff fs ih =>
    rw [List.flatMap_cons] at h
    have hrecord := readRecord_of_eq (hfs ff List.mem_cons_self) h
    have hlt : before.length < bytes.length := by
      have hsize := ff.length_bytes
      rw [h, List.length_append, List.length_append]
      omega
    rw [List.length_cons] at hseen
    have hrest := @ih (before ++ ff.bytes) (frames ++ [ff]) ((framesSeen + 1) % 2 ^ 32)
      (fun g hg => hfs g (List.mem_cons_of_mem _ hg)) (h.trans (List.append_assoc _ _ _).symm)
    rw [Nat.mod_eq_of_lt (by omega), List.length_append, List.append_assoc, List.singleton_append] at hrest
    rw [readRecords, dif_pos hlt]
    split
    · next e he => cases hrecord.symm.trans he
    · next ff' frameEnd hff' =>
      cases hrecord.symm.trans hff'
      rw [Nat.mod_eq_of_lt (by omega), hrest (by omega), List.length_cons, Nat.add_assoc, Nat.add_comm 1]

theorem readFixtureBytes_writeFixtureBytes {fs : List FixtureFrame} (hcount : fs.length ≤ 2 ^ 32 - 1)
    (hfs : ∀ ff ∈ fs, ff.frame.Fits) : readFixtureBytes (writeFixtureBytes fs) = .ok (fixtureVersion, fs) := by
  generalize hbytes : writeFixtureBytes fs = bytes
  have hversion : bytes = fixtureMagic ++ (toLE 2 fixtureVersion ++ (toLE 4 fs.length ++ (toLE 2 0 ++
      fs.flatMap FixtureFrame.bytes))) := hbytes.symm
  have hcounted : bytes = (fixtureMagic ++ toLE 2 fixtureVersion) ++ (toLE 4 fs.length ++ (toLE 2 0 ++
      fs.flatMap FixtureFrame.bytes)) := by rw [hversion, List.append_assoc]
  have hbody : bytes = (fixtureMagic ++ toLE 2 fixtureVersion ++ toLE 4 fs.length ++ toLE 2 0) ++
      fs.flatMap FixtureFrame.bytes := by simp only [hversion, List.append_assoc]
  have henvelope : (fixtureMagic ++ toLE 2 fixtureVersion ++ toLE 4 fs.length ++ toLE 2 0).length = 16 := by
    simp only [List.length_append, length_toLE]
    rfl
  have hlength : 16 ≤ bytes.length := by
    have hsize := congrArg List.length hbody
    rw [List.length_append, henvelope] at hsize
    omega
  have hmagic : slice bytes 0 8 = .ok fixtureMagic := slice_of_eq ((List.nil_append _).trans hversion.symm).symm rfl rfl
  have hversionAt : bytesAt bytes 8 2 = .ok (toLE 2 fixtureVersion) := bytesAt_of_eq hversion rfl rfl
  have hcountAt : bytesAt bytes 10 4 = .ok (toLE 4 fs.length) := bytesAt_of_eq hcounted rfl (length_toLE _ _).symm
  have hrecords : readRecords bytes _ [] 0 = .ok ([] ++ fs, 0 + fs.length) := readRecords_of_eq hfs hbody (by omega)
  rw [henvelope, List.nil_append, Nat.zero_add] at hrecords
  rw [readFixtureBytes, check_of hlength, ok_bind, hmagic, ok_bind, check_of rfl, ok_bind, hversionAt, ok_bind]
  dsimp only
  rw [ofLE_toLE (by decide), check_of rfl, ok_bind, hcountAt, ok_bind, ofLE_toLE (by omega), hrecords, ok_bind]
  dsimp only
  rw [check_of rfl]
  rfl

/-- A stream is taken exactly when it is a sequence of frames, which are then the ones read, and it is written again
as it was; a fixture is read as it was written, and no input makes its reader panic. -/
theorem framing_and_fixture_exact :
    (∀ w, (∃ out, reencodeFrameStream w = .ok out) ↔ ∃ fs, Framed defaultMaxFrameLen fs w) ∧
    (∀ w fs, Framed defaultMaxFrameLen fs w → reencodeFrameStream w = .ok w ∧ readFrames w = .ok fs) ∧
    (∀ fs : List FixtureFrame, fs.length ≤ 2 ^ 32 - 1 → (∀ ff ∈ fs, ff.frame.Fits) →
      readFixtureBytes (writeFixtureBytes fs) = .ok (fixtureVersion, fs)) ∧
    ∀ bytes, readFixtureBytes bytes ≠ .error .panic := by
  refine ⟨fun w => ⟨?_, ?_⟩, fun w fs h => ⟨h.reencodeFrameStream, h.readFrames⟩,
    fun fs => readFixtureBytes_writeFixtureBytes, calm_readFixtureBytes⟩
  · rintro ⟨out, hout⟩
    obtain ⟨fs, hfs, -⟩ := forFrames_eq_ok.mp hout
    exact ⟨fs, hfs⟩
  · rintro ⟨fs, hfs⟩
    exact ⟨w, hfs.reencodeFrameStream⟩

def sampleFixture : List FixtureFrame :=
  [⟨1700000000000, .client, ⟨0, [104, 105]⟩⟩, ⟨1700000000250, .server, ⟨2, []⟩⟩]

theorem sampleFixture_exact :
    Framed defaultMaxFrameLen (sampleFixture.map (·.frame)) [0, 0, 0, 0, 2, 104, 105, 2, 0, 0, 0, 0] ∧
    readFrames [0, 0, 0, 0, 2, 104, 105, 2, 0, 0, 0, 0] = .ok (sampleFixture.map (·.frame)) ∧
    readFixtureBytes (writeFixtureBytes sampleFixture) = .ok (1, sampleFixture) := by
  have hrequest : (⟨0, [104, 105]⟩ : Frame).Sized defaultMaxFrameLen [0, 0, 0, 2] := ⟨by decide, rfl, rfl, by decide⟩
  have htrailers : (⟨2, []⟩ : Frame).Sized defaultMaxFrameLen [0, 0, 0, 0] := ⟨by decide, rfl, rfl, by decide⟩
  have hframed : Framed defaultMaxFrameLen (sampleFixture.map (·.frame)) [0, 0, 0, 0, 2, 104, 105, 2, 0, 0, 0, 0] :=
    .cons hrequest (.cons htrailers .nil)
  have hfits : ∀ ff ∈ sampleFixture, ff.frame.Fits :=
    List.forall_mem_cons.mpr ⟨⟨by decide, by decide⟩, List.forall_mem_singleton.mpr ⟨by decide, by decide⟩⟩
  exact ⟨hframed, (framing_and_fixture_exact.2.1 _ _ hframed).2,
    framing_and_fixture_exact.2.2.1 sampleFixture (by decide) hfits⟩

end SpendGuard.Cursor
