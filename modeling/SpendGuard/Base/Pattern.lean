import Mathlib

/-!
Patterns over an alphabet, put together from classes of symbols as POSIX bracket expressions are.
-/

namespace SpendGuard.Base.Pattern

open RegularExpression

variable {α : Type*}

def oneOf (symbols : List α) : RegularExpression α := symbols.foldr (fun c r => char c + r) 0

def seq (classes : List (List α)) : RegularExpression α := classes.foldr (fun symbols r => oneOf symbols * r) 1

def lit (word : List α) : RegularExpression α := seq (word.map fun c => [c])

def many (symbols : List α) : RegularExpression α := star (oneOf symbols)

def many1 (symbols : List α) : RegularExpression α := oneOf symbols * many symbols

variable [DecidableEq α] {symbols x : List α} {classes : List (List α)} {P Q : RegularExpression α}

theorem oneOf_rmatch : (oneOf symbols).rmatch x = true ↔ ∃ c ∈ symbols, x = [c] := by
  induction symbols with
  | nil => simp [oneOf, zero_rmatch]
  | cons c symbols ih =>
    rw [oneOf, List.foldr_cons, add_rmatch_iff, char_rmatch_iff]
    exact (or_congr_right ih).trans (by simp)

theorem seq_rmatch : (seq classes).rmatch x = true ↔ List.Forall₂ (· ∈ ·) x classes := by
  induction classes generalizing x with
  | nil => exact (one_rmatch_iff x).trans List.forall₂_nil_right_iff.symm
  | cons symbols classes ih =>
    rw [seq, List.foldr_cons, mul_rmatch_iff, List.forall₂_cons_right_iff]
    constructor
    · rintro ⟨t, u, rfl, ht, hu⟩
      obtain ⟨c, hc, rfl⟩ := oneOf_rmatch.mp ht
      exact ⟨c, u, hc, ih.mp hu, rfl⟩
    · rintro ⟨c, u, hc, hu, rfl⟩
      exact ⟨[c], u, rfl, oneOf_rmatch.mpr ⟨c, hc, rfl⟩, ih.mpr hu⟩

theorem lit_rmatch {word : List α} : (lit word).rmatch x = true ↔ x = word := by
  rw [lit, seq_rmatch, List.forall₂_map_right_iff]
  simp only [List.mem_singleton]
  exact List.forall₂_eq_eq_eq ▸ Iff.rfl

theorem many_rmatch : (many symbols).rmatch x = true ↔ ∀ c ∈ x, c ∈ symbols := by
  rw [many, star_rmatch_iff]
  constructor
  · rintro ⟨words, rfl, hwords⟩ c hc
    obtain ⟨word, hword, hc⟩ := List.mem_flatten.mp hc
    obtain ⟨d, hd, rfl⟩ := oneOf_rmatch.mp (hwords word hword).2
    exact List.mem_singleton.mp hc ▸ hd
  · intro h
    refine ⟨x.map fun c => [c], (List.flatMap_singleton' x).symm, ?_⟩
    intro word hword
    obtain ⟨c, hc, rfl⟩ := List.mem_map.mp hword
    exact ⟨by simp, oneOf_rmatch.mpr ⟨c, h c hc, rfl⟩⟩

theorem many1_rmatch : (many1 symbols).rmatch x = true ↔ x ≠ [] ∧ ∀ c ∈ x, c ∈ symbols := by
  rw [many1, mul_rmatch_iff]
  constructor
  · rintro ⟨t, u, rfl, ht, hu⟩
    obtain ⟨c, hc, rfl⟩ := oneOf_rmatch.mp ht
    refine ⟨by simp, ?_⟩
    rw [List.singleton_append, List.forall_mem_cons]
    exact ⟨hc, many_rmatch.mp hu⟩
  · rintro ⟨hne, hmem⟩
    cases x with
    | nil => exact absurd rfl hne
    | cons c u =>
      rw [List.forall_mem_cons] at hmem
      exact ⟨[c], u, rfl, oneOf_rmatch.mpr ⟨c, hmem.1, rfl⟩, many_rmatch.mpr hmem.2⟩

theorem lit_mul_rmatch {word : List α} : (lit word * P).rmatch x = true ↔ ∃ u, x = word ++ u ∧ P.rmatch u = true := by
  rw [mul_rmatch_iff]
  constructor
  · rintro ⟨t, u, hx, ht, hu⟩
    exact ⟨u, lit_rmatch.mp ht ▸ hx, hu⟩
  · rintro ⟨u, hx, hu⟩
    exact ⟨word, u, hx, lit_rmatch.mpr rfl, hu⟩

end SpendGuard.Base.Pattern
