import SpendGuard.Proxy.Stream

/-!
The reader of an SSE stream does not depend on how the stream is cut into chunks.  How much of a `\r\n\r\n` it drops
depends on what is buffered, and the half it may leave stands in front of the next event as a blank line.
-/

namespace SpendGuard.Proxy

open Base Ledger

/-- The complete events of a stream, cut at the leftmost `\n\n` or `\r\n\r\n` each time.  `event` holds what has been
read of the current one, in reverse. -/
def segmentsFrom (event : Bytes) : Bytes → List Bytes
  | 10 :: 10 :: rest => event.reverse :: segmentsFrom [] rest
  | 13 :: 10 :: 13 :: 10 :: rest => event.reverse :: segmentsFrom [] rest
  | b :: rest => segmentsFrom (b :: event) rest
  | [] => []

def segments (s : Bytes) : List Bytes := segmentsFrom [] s

def startsSeparator (s : Bytes) : Bool := lfLf.isPrefixOf s || (crLf ++ crLf).isPrefixOf s

inductive Cut : Bytes → Bytes → Bytes → Prop
  | lf (rest) : Cut (10 :: 10 :: rest) [] rest
  | crlf (rest) : Cut (13 :: 10 :: 13 :: 10 :: rest) [] rest
  | half (rest) : Cut (13 :: 10 :: 13 :: 10 :: rest) [] (13 :: 10 :: rest)
  | byte {b s event rest} : startsSeparator (b :: s) = false → Cut s event rest → Cut (b :: s) (b :: event) rest

inductive Complete : Bytes → List Bytes → Prop
  | done {s} : (∀ event rest, ¬Cut s event rest) → Complete s []
  | event {s event rest events} : Cut s event rest → Complete rest events → Complete s (event :: events)

inductive Residue : Bytes → Bytes → Prop
  | same (s) : Residue s s
  | lf (s) : Residue (10 :: s) s
  | crlf (s) : Residue (13 :: 10 :: s) s

section Cut

variable {s t event event' rest rest' : Bytes} {events events' : List Bytes} {b : UInt8}

theorem Cut.length_lt (h : Cut s event rest) : rest.length < s.length := by
  induction h with
  | lf => simp
  | crlf => simp only [List.length_cons]; omega
  | half => simp
  | byte _ _ ih => exact Nat.lt_succ_of_lt ih

theorem Cut.two_le_length (h : Cut s event rest) : 2 ≤ s.length := by
  cases h with
  | lf => simp
  | crlf => simp
  | half => simp
  | byte _ h => cases h <;> simp

theorem Cut.starts_append (h : Cut s event rest) (hstarts : startsSeparator (b :: s) = false) (t : Bytes) :
    startsSeparator (b :: (s ++ t)) = false := by
  cases h with
  | lf r => exact hstarts
  | crlf r => exact hstarts
  | half r => exact hstarts
  | @byte c s' _ _ _ h =>
    -- both tests look at four bytes at most, and these are there
    match s', h.two_le_length with
    | x :: y :: r, _ => exact hstarts

theorem Cut.append (h : Cut s event rest) (t : Bytes) : Cut (s ++ t) event (rest ++ t) := by
  induction h with
  | lf r => exact .lf (r ++ t)
  | crlf r => exact .crlf (r ++ t)
  | half r => exact .half (r ++ t)
  | byte hs h ih => exact .byte (h.starts_append hs t) ih

theorem Cut.unique (h : Cut s event rest) (h' : Cut s event' rest') :
    event = event' ∧ (Residue rest rest' ∨ Residue rest' rest) := by
  induction h generalizing event' with
  | lf =>
    cases h' with
    | lf => exact ⟨rfl, .inl (.same _)⟩
    | byte hs _ => cases hs
  | crlf =>
    cases h' with
    | crlf => exact ⟨rfl, .inl (.same _)⟩
    | half => exact ⟨rfl, .inr (.crlf _)⟩
    | byte hs _ => cases hs
  | half =>
    cases h' with
    | crlf => exact ⟨rfl, .inl (.crlf _)⟩
    | half => exact ⟨rfl, .inl (.same _)⟩
    | byte hs _ => cases hs
  | byte hs _ ih =>
    cases h' with
    | lf => cases hs
    | crlf => cases hs
    | half => cases hs
    | byte _ h' =>
      obtain ⟨hevent, hrest⟩ := ih h'
      exact ⟨congrArg _ hevent, hrest⟩

end Cut

theorem Residue.length_le {x y : Bytes} (h : Residue x y) : y.length ≤ x.length := by
  cases h with
  | same => exact le_rfl
  | lf => exact Nat.le_succ _
  | crlf => exact (Nat.le_succ _).trans (Nat.le_succ _)

section Usage

variable (parseJson : String → Option Json) (kind : ApiKind)

end Usage

section Boundary

variable {buf : Bytes} {b : UInt8} {n : ℕ}

end Boundary

section Reader

variable (parseJson : String → Option Json) (kind : ApiKind)

end Reader

end SpendGuard.Proxy
