import Mathlib.Data.List.Basic

/-!
Finite runs of a labelled transition relation, each step with the state it leads to.
-/

namespace SpendGuard.Base

inductive Trace {σ γ : Type} (step : σ → γ → σ → Prop) : σ → List (γ × σ) → Prop
  | nil (s : σ) : Trace step s []
  | cons {s s' : σ} {c : γ} {tr : List (γ × σ)} (h : step s c s') (rest : Trace step s' tr) :
      Trace step s ((c, s') :: tr)

/-- Every step of a run meets a condition on its label and the state before it. -/
def Along {σ γ : Type} (met : σ → γ → Prop) : σ → List (γ × σ) → Prop
  | _, [] => True
  | s, (c, s') :: tr => met s c ∧ Along met s' tr

instance Along.decidable {σ γ : Type} {met : σ → γ → Prop} [∀ s c, Decidable (met s c)] :
    ∀ s tr, Decidable (Along met s tr)
  | _, [] => isTrue trivial
  | s, (c, s') :: tr =>
    have : Decidable (Along met s' tr) := Along.decidable s' tr
    inferInstanceAs (Decidable (met s c ∧ Along met s' tr))

theorem Along.forall_iff {σ γ ι : Type} {met : ι → σ → γ → Prop} {s : σ} {tr : List (γ × σ)} :
    Along (fun s c => ∀ i, met i s c) s tr ↔ ∀ i, Along (met i) s tr := by
  induction tr generalizing s with
  | nil => simp [Along]
  | cons p tr ih => simp only [Along, ih, forall_and]

theorem Along.and {σ γ : Type} {met met' : σ → γ → Prop} {s : σ} {tr : List (γ × σ)} (h : Along met s tr)
    (h' : Along met' s tr) : Along (fun s c => met s c ∧ met' s c) s tr := by
  induction tr generalizing s with
  | nil => trivial
  | cons p tr ih => exact ⟨⟨h.1, h'.1⟩, ih h.2 h'.2⟩

namespace Trace

variable {σ γ : Type} {step : σ → γ → σ → Prop} {met : σ → γ → Prop} {I good : σ → Prop}

theorem imp {step' : σ → γ → σ → Prop} {s : σ} {tr : List (γ × σ)} (h : Trace step s tr)
    (hstep : ∀ s c s', step s c s' → step' s c s') : Trace step' s tr := by
  induction h with
  | nil s => exact .nil s
  | cons hc _ ih => exact .cons (hstep _ _ _ hc) ih

/-- What the steps that meet a condition keep holds after every step of a run that meets it. -/
theorem invariant {s : σ} {tr : List (γ × σ)} (h : Trace step s tr) (hmet : Along met s tr)
    (hstep : ∀ s c s', I s → met s c → step s c s' → I s') (hs : I s) : ∀ p ∈ tr, I p.2 := by
  induction h with
  | nil s => simp
  | cons hc rest ih =>
    have hs' := hstep _ _ _ hs hmet.1 hc
    intro p hp
    cases hp with
    | head => exact hs'
    | tail _ hp => exact ih hmet.2 hs' p hp

theorem along {met' : σ → γ → Prop} {s : σ} {tr : List (γ × σ)} (h : Trace step s tr) (hmet : Along met s tr)
    (hstep : ∀ s c s', I s → met s c → step s c s' → I s') (himp : ∀ s c, I s → met' s c) (hs : I s) :
    Along met' s tr := by
  induction h with
  | nil s => trivial
  | cons hc rest ih => exact ⟨himp _ _ hs, ih hmet.2 (hstep _ _ _ hs hmet.1 hc)⟩

/-- A run whose steps meet a condition is one of every relation that these steps are in. -/
theorem refine {step' : σ → γ → σ → Prop} {s : σ} {tr : List (γ × σ)} (h : Trace step s tr)
    (hmet : Along met s tr)
    (hstep : ∀ s c s', I s → met s c → step s c s' → step' s c s' ∧ I s') (hs : I s) : Trace step' s tr := by
  induction h with
  | nil s => exact .nil s
  | cons hc _ ih =>
    obtain ⟨hc', hs'⟩ := hstep _ _ _ hs hmet.1 hc
    exact .cons hc' (ih hmet.2 hs')

theorem along_iff {met' : σ → γ → Prop} {s : σ} {tr : List (γ × σ)} (h : Trace step s tr)
    (hstep : ∀ s c s', I s → met s c → step s c s' → I s') (hiff : ∀ s c, I s → (met' s c ↔ met s c))
    (hs : I s) : Along met' s tr ↔ Along met s tr := by
  induction h with
  | nil s => exact Iff.rfl
  | @cons s s' c tr hc rest ih =>
    rw [Along, Along, hiff s c hs]
    apply and_congr_right
    intro hm
    exact ih (hstep s c s' hs hm hc)

theorem always {s : σ} {tr : List (γ × σ)} (h : Trace step s tr)
    (hstep : ∀ s c s', I s → step s c s' → I s') (hs : I s) : ∀ p ∈ tr, I p.2 := by
  induction h with
  | nil s => simp
  | cons hc rest ih =>
    have hs' := hstep _ _ _ hs hc
    rw [List.forall_mem_cons]
    exact ⟨hs', ih hs'⟩

/-- What holds between the two states of each step holds between any two states of a run. -/
theorem pairwise {R : σ → σ → Prop} {s : σ} {tr : List (γ × σ)} (h : Trace step s tr)
    (hI : ∀ s c s', I s → step s c s' → I s') (hs : I s) (htrans : ∀ a b c, R a b → R b c → R a c)
    (hstep : ∀ s c s', I s → step s c s' → R s s') : (s :: tr.map Prod.snd).Pairwise R := by
  induction h with
  | nil s => simp
  | @cons s s' c tr hc rest ih =>
    have hfirst := hstep s c s' hs hc
    have hrest := ih (hI s c s' hs hc)
    rw [List.map_cons, List.pairwise_cons]
    refine ⟨?_, hrest⟩
    rw [List.forall_mem_cons]
    exact ⟨hfirst, fun b hb => htrans s s' b hfirst ((List.pairwise_cons.mp hrest).1 b hb)⟩

/-- When a step from a good state leads to a good one exactly if it meets the condition, a run
stays good exactly if all its steps meet it. -/
theorem good_iff {s : σ} {tr : List (γ × σ)} (h : Trace step s tr)
    (hI : ∀ s c s', I s → step s c s' → I s')
    (hgood : ∀ s c s', I s → good s → step s c s' → (good s' ↔ met s c)) (hs : I s) (hg : good s) :
    (∀ p ∈ tr, good p.2) ↔ Along met s tr := by
  induction h with
  | nil s => simp [Along]
  | @cons s s' c tr hc rest ih =>
    have hiff := hgood s c s' hs hg hc
    rw [List.forall_mem_cons, Along, hiff]
    apply and_congr_right
    intro hm
    exact ih (hI s c s' hs hc) (hiff.mpr hm)

end Trace

def traceOf {σ γ : Type} (next : σ → γ → σ) : σ → List γ → List (γ × σ)
  | _, [] => []
  | s, c :: cs => (c, next s c) :: traceOf next (next s c) cs

theorem trace_traceOf {σ γ : Type} (next : σ → γ → σ) (s : σ) (cs : List γ) :
    Trace (fun s c s' => next s c = s') s (traceOf next s cs) := by
  induction cs generalizing s with
  | nil => exact .nil s
  | cons c cs ih => exact .cons rfl (ih (next s c))

def runAll {σ γ ε : Type} (run : σ → γ → Except ε σ) : σ → List γ → Option (List (γ × σ))
  | _, [] => some []
  | s, c :: cs =>
    match run s c with
    | .error _ => none
    | .ok s' => (runAll run s' cs).map ((c, s') :: ·)

section RunAll

variable {σ γ ε : Type} {run : σ → γ → Except ε σ} {s : σ} {cs : List γ} {tr : List (γ × σ)}

theorem runAll_spec (h : runAll run s cs = some tr) :
    Trace (fun s c s' => run s c = .ok s') s tr ∧ tr.map Prod.fst = cs := by
  induction cs generalizing s tr with
  | nil =>
    cases h
    exact ⟨.nil s, rfl⟩
  | cons c cs ih =>
    rw [runAll] at h
    split at h
    · cases h
    · next s' hrun =>
      obtain ⟨rest, hrest, rfl⟩ := Option.map_eq_some_iff.mp h
      obtain ⟨htrace, hlabels⟩ := ih hrest
      exact ⟨.cons hrun htrace, by simp [hlabels]⟩

end RunAll

end SpendGuard.Base
