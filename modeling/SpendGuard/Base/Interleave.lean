import Mathlib
import SpendGuard.Base.Logic

/-!
Interleaved execution of procedures, one transaction a call.  A read sees the committed state under
the session's own buffered writes, a lock is held until its transaction ends, and the writes of a
transaction become visible to the others at its commit.
-/

namespace SpendGuard.Base

/-- A client issues calls one after the other; each depends on the answers to those before it. -/
inductive Client (γ ε ρ β : Type) : Type
  | done (b : β)
  | call (c : γ) (next : Except ε ρ → Client γ ε ρ β)

inductive Session (σ κ ε ρ γ β : Type) : Type
  | client (c : Client γ ε ρ β)
  | running (c : γ) (p : Proc σ κ ε ρ) (w : σ → σ) (held : List κ)
      (next : Except ε ρ → Client γ ε ρ β)

structure Config (ι σ κ ε ρ γ β : Type) where
  committed : σ
  clock : ℕ
  session : ι → Session σ κ ε ρ γ β

instance neZero_two : NeZero 2 := ⟨by decide⟩

instance neZero_three : NeZero 3 := ⟨by decide⟩

variable {ι σ κ ε ρ γ β τ : Type}

def Session.held : Session σ κ ε ρ γ β → List κ
  | .client _ => []
  | .running _ _ _ h _ => h

@[simp] theorem Session.held_client (c : Client γ ε ρ β) :
    (Session.client c : Session σ κ ε ρ γ β).held = [] := rfl

@[simp] theorem Session.held_running (c : γ) (p : Proc σ κ ε ρ) (w : σ → σ) (h : List κ)
    (n : Except ε ρ → Client γ ε ρ β) : (Session.running c p w h n).held = h := rfl

namespace Config

variable [DecidableEq ι]

def set (g : Config ι σ κ ε ρ γ β) (i : ι) (x : Session σ κ ε ρ γ β) : Config ι σ κ ε ρ γ β :=
  { g with session := Function.update g.session i x }

/-- One move of the system; `body` gives the procedure behind each call, and `ok` narrows the runs
to those in which every call commits in a state that meets it. -/
inductive Step (body : γ → Proc σ κ ε ρ) (ok : γ → σ → Prop) :
    Config ι σ κ ε ρ γ β → Config ι σ κ ε ρ γ β → Prop
  | tick {g} (t : ℕ) : g.clock ≤ t → Step body ok g { g with clock := t }
  | start {g} (i : ι) {c n} : g.session i = .client (.call c n) →
      Step body ok g (g.set i (.running c (body c) id [] n))
  | observe {g} (i : ι) {c k w h n} : g.session i = .running c (.observe k) w h n →
      Step body ok g (g.set i (.running c (k (w g.committed) g.clock) w h n))
  | modify {g} (i : ι) {c f p w h n} : g.session i = .running c (.modify f p) w h n →
      Step body ok g (g.set i (.running c p (f ∘ w) h n))
  | lock {g} (i : ι) {c l p w h n} : g.session i = .running c (.lock l p) w h n →
      (∀ j, j ≠ i → l ∉ (g.session j).held) →
      Step body ok g (g.set i (.running c p w (l :: h) n))
  | commit {g} (i : ι) {c a w h n} : g.session i = .running c (.pure a) w h n → ok c g.committed →
      Step body ok g { g.set i (.client (n (.ok a))) with committed := w g.committed }
  | abort {g} (i : ι) {c e w h n} : g.session i = .running c (.raise e) w h n →
      Step body ok g (g.set i (.client (n (.error e))))

abbrev Run (body : γ → Proc σ κ ε ρ) (ok : γ → σ → Prop) :=
  Relation.ReflTransGen (Step (ι := ι) (β := β) body ok)

theorem Step.clock_le {body : γ → Proc σ κ ε ρ} {ok : γ → σ → Prop} {g g' : Config ι σ κ ε ρ γ β}
    (h : Step body ok g g') : g.clock ≤ g'.clock := by
  cases h with
  | tick t ht => exact ht
  | _ => exact Nat.le_refl _

theorem Step.weaken {body : γ → Proc σ κ ε ρ} {ok : γ → σ → Prop} {g g' : Config ι σ κ ε ρ γ β}
    (h : Step body ok g g') : Step body (fun _ _ => True) g g' := by
  cases h with
  | tick t ht => exact .tick t ht
  | start i hi => exact .start i hi
  | observe i hi => exact .observe i hi
  | modify i hi => exact .modify i hi
  | lock i hi hfree => exact .lock i hi hfree
  | commit i hi _ => exact .commit i hi trivial
  | abort i hi => exact .abort i hi

section Set

variable {g : Config ι σ κ ε ρ γ β} {i : ι} {x : Session σ κ ε ρ γ β}

@[simp] theorem set_committed : (g.set i x).committed = g.committed := rfl

@[simp] theorem set_clock : (g.set i x).clock = g.clock := rfl

theorem set_session (j : ι) : (g.set i x).session j = if j = i then x else g.session j :=
  Function.update_apply g.session i x j

end Set

end Config

/-- Moves of an abstract system whose state is a value of `τ`: each is the effect of one call at a
time that is not before the last one. -/
inductive Timed (R : γ → ℕ → τ → τ → Prop) : ℕ → τ → ℕ → τ → Prop
  | refl (t x) : Timed R t x t x
  | step {t x t₁ y t₂ z} (c : γ) : Timed R t x t₁ y → t₁ ≤ t₂ → R c t₂ y z → Timed R t x t₂ z

namespace Timed

variable {R : γ → ℕ → τ → τ → Prop} {t t₁ t₂ : ℕ} {x y z : τ}

theorem trans (h : Timed R t x t₁ y) (h' : Timed R t₁ y t₂ z) : Timed R t x t₂ z := by
  induction h' with
  | refl => exact h
  | step c _ ht hr ih => exact .step c ih ht hr

theorem invariant {I : ℕ → τ → Prop} (h : Timed R t x t₁ y)
    (hstep : ∀ c t t' x y, I t x → t ≤ t' → R c t' x y → I t' y) (hx : I t x) : I t₁ y := by
  induction h with
  | refl => exact hx
  | step c _ ht hr ih => exact hstep c _ _ _ _ ih ht hr

end Timed

namespace Proc

/-- Until it takes the lock `l` the procedure leaves `π` alone; from then on, whatever the time
`t₀` and the value `x` of `π` at that moment, a commit moves `π` by `R` or not at all. -/
def Guarded [DecidableEq κ] (l : κ) (π : σ → τ) (R : ℕ → τ → τ → Prop) : ℕ → Proc σ κ ε ρ → Prop
  | _, .pure _ => True
  | _, .raise _ => True
  | t₁, .observe k => ∀ v t, t₁ ≤ t → (k v t).Guarded l π R t
  | t₁, .modify f k => (∀ v, π (f v) = π v) ∧ k.Guarded l π R t₁
  | t₁, .lock l' k =>
    if l' = l then ∀ t₀ x, t₁ ≤ t₀ → k.wp π t₀ (fun _ y => y = x ∨ R t₀ x y) x
    else k.Guarded l π R t₁

section Guarded

variable [DecidableEq κ] {l : κ} {π : σ → τ} {R : ℕ → τ → τ → Prop} {α : Type}

theorem Quiet.guarded {p : Proc σ κ ε ρ} (hp : Quiet π p) (t : ℕ) : Guarded l π R t p := by
  induction p generalizing t with
  | pure a => trivial
  | raise e => trivial
  | observe k ih => exact fun v t' _ => ih v t' (hp v t') t'
  | modify f k ih => exact ⟨hp.1, ih hp.2 t⟩
  | lock l' k ih =>
    simp only [Guarded]
    split
    · exact fun t₀ x _ => Quiet.wp hp fun _ => Or.inl rfl
    · exact ih hp t

theorem guarded_read {f : σ → Proc σ κ ε ρ} {t₁ : ℕ}
    (h : ∀ v t, t₁ ≤ t → Guarded l π R t (f v)) : Guarded l π R t₁ (read >>= f) := h

theorem guarded_clock {f : ℕ → Proc σ κ ε ρ} {t₁ : ℕ}
    (h : ∀ t, t₁ ≤ t → Guarded l π R t (f t)) : Guarded l π R t₁ (clock >>= f) :=
  fun _ t ht => h t ht

variable {f : Unit → Proc σ κ ε ρ}

theorem guarded_require {p : Prop} [Decidable p] {e : ε} {t₁ : ℕ}
    (h : p → Guarded l π R t₁ (f ())) : Guarded l π R t₁ (require p e >>= f) := by
  unfold require
  split
  · exact h ‹_›
  · trivial

theorem guarded_acquire {t₁ : ℕ}
    (h : ∀ t₀ x, t₁ ≤ t₀ → (f ()).wp π t₀ (fun _ y => y = x ∨ R t₀ x y) x) :
    Guarded l π R t₁ (acquire l >>= f) := by
  change Guarded l π R t₁ (.lock l (f ()))
  simpa only [Guarded, if_true] using h

theorem guarded_acquire_ne {l' : κ} (hl : l' ≠ l) {t₁ : ℕ}
    (h : Guarded l π R t₁ (f ())) : Guarded l π R t₁ (acquire l' >>= f) := by
  change Guarded l π R t₁ (.lock l' (f ()))
  simpa only [Guarded, if_neg hl] using h

theorem guarded_skip {x : Proc σ κ ε α} {f : α → Proc σ κ ε ρ} {t : ℕ} (hx : Quiet π x)
    (hf : ∀ a t, Guarded l π R t (f a)) (hwp : ∀ a t₀ y, wp π t₀ (f a) (fun _ z => z = y ∨ R t₀ y z) y) :
    Guarded l π R t (x >>= f) := by
  change Guarded l π R t (x.bind f)
  induction x generalizing t with
  | pure a => exact hf a t
  | raise e => trivial
  | observe k ih => exact fun v t' _ => ih v t' (hx v t')
  | modify g k ih => exact ⟨hx.1, ih hx.2⟩
  | lock l' k ih =>
    by_cases hl : l' = l
    · simp only [Guarded, Proc.bind, if_pos hl]
      intro t₀ y _
      exact Quiet.wp_bind hx fun a => hwp a t₀ y
    · simp only [Guarded, Proc.bind, if_neg hl]
      exact ih hx

theorem Guarded.map {p : Proc σ κ ε α} {f : α → ρ} {t₁ : ℕ} (hp : Guarded l π R t₁ p) :
    Guarded l π R t₁ (f <$> p) := by
  change Guarded l π R t₁ (p.bind fun a => .pure (f a))
  induction p generalizing t₁ with
  | pure a => trivial
  | raise e => trivial
  | observe k ih => exact fun v t ht => ih v t (hp v t ht)
  | modify g k ih => exact ⟨hp.1, ih hp.2⟩
  | lock l' k ih =>
    by_cases hl : l' = l
    · simp only [Guarded, Proc.bind, if_pos hl] at hp ⊢
      intro t₀ x ht
      exact wp_bind.mpr (hp t₀ x ht)
    · simp only [Guarded, Proc.bind, if_neg hl] at hp ⊢
      exact ih hp

end Guarded

end Proc

section Refinement

variable [DecidableEq κ] (l : κ) (π : σ → τ) (R : γ → ℕ → τ → τ → Prop)

/-- Where a session stands with respect to the lock `l`, when `π` of the committed state is `x` and
the last move of it was made at `T`. -/
def Session.Guarded (x : τ) (T now : ℕ) : Session σ κ ε ρ γ β → Prop
  | .client _ => True
  | .running c p w h _ =>
    (l ∉ h ∧ (∀ v, π (w v) = π v) ∧ ∃ t₁ ≤ now, p.Guarded l π (R c) t₁) ∨
    (l ∈ h ∧ ∃ t₀, T ≤ t₀ ∧ t₀ ≤ now ∧ ∃ y, (∀ v, π v = x → π (w v) = y) ∧
      p.wp π t₀ (fun _ y => y = x ∨ R c t₀ x y) y)

structure Config.Guarded (g : Config ι σ κ ε ρ γ β) (T : ℕ) : Prop where
  session : ∀ i, (g.session i).Guarded l π R (π g.committed) T g.clock
  exclusive : ∀ i j, l ∈ (g.session i).held → l ∈ (g.session j).held → i = j
  time : T ≤ g.clock

variable {l π R}

theorem Session.Guarded.of_free {q : Session σ κ ε ρ γ β} {x x' : τ} {T T' now : ℕ}
    (hq : l ∉ q.held) (h : q.Guarded l π R x T now) : q.Guarded l π R x' T' now := by
  cases q with
  | client c => trivial
  | running c p w h n =>
    rcases h with h | ⟨hl, _⟩
    · exact Or.inl h
    · exact absurd hl hq

theorem Session.Guarded.later {q : Session σ κ ε ρ γ β} {x : τ} {T now now' : ℕ} (hn : now ≤ now')
    (h : q.Guarded l π R x T now) : q.Guarded l π R x T now' := by
  cases q with
  | client c => trivial
  | running c p w h n =>
    rcases h with ⟨hl, hw, t₁, ht, hp⟩ | ⟨hl, t₀, hT, ht, hy⟩
    · exact Or.inl ⟨hl, hw, t₁, Nat.le_trans ht hn, hp⟩
    · exact Or.inr ⟨hl, t₀, hT, Nat.le_trans ht hn, hy⟩

theorem Config.guarded_of_clients {g : Config ι σ κ ε ρ γ β} (hg : ∀ i, ∃ c, g.session i = .client c) :
    g.Guarded l π R g.clock where
  session i := by
    obtain ⟨c, hc⟩ := hg i
    rw [hc]
    trivial
  exclusive i j hi := by
    obtain ⟨c, hc⟩ := hg i
    simp [hc] at hi
  time := Nat.le_refl _

namespace Config.Guarded

variable {g : Config ι σ κ ε ρ γ β} {T : ℕ} {i : ι}

theorem others_free (hg : g.Guarded l π R T) (hi : l ∈ (g.session i).held) :
    ∀ j, j ≠ i → l ∉ (g.session j).held :=
  fun j hj h => hj (hg.exclusive j i h hi)

variable [DecidableEq ι]

theorem set {q : Session σ κ ε ρ γ β} (hg : g.Guarded l π R T)
    (hq : q.Guarded l π R (π g.committed) T g.clock)
    (hl : l ∈ q.held → ∀ j, j ≠ i → l ∉ (g.session j).held) : (g.set i q).Guarded l π R T where
  session j := by
    rw [set_session]
    split
    · exact hq
    · exact hg.session j
  exclusive j k := by
    simp only [set_session]
    split <;> split
    · exact fun _ _ => (‹j = i›).trans (‹k = i›).symm
    · exact fun hj hk => absurd hk (hl hj k ‹_›)
    · exact fun hj hk => absurd hj (hl hk j ‹_›)
    · exact hg.exclusive j k
  time := hg.time

/-- A commit of session `i`: the others keep their standing when the value of `π` is unchanged or
none of them holds `l`. -/
theorem commit {c : Client γ ε ρ β} {s : σ} {T' : ℕ} (hg : g.Guarded l π R T) (hT : T' ≤ g.clock)
    (hs : (π s = π g.committed ∧ T' = T) ∨ ∀ j, j ≠ i → l ∉ (g.session j).held) :
    ({ g.set i (.client c) with committed := s } : Config ι σ κ ε ρ γ β).Guarded l π R T' where
  session j := by
    change Session.Guarded l π R (π s) T' g.clock ((g.set i (.client c)).session j)
    rw [set_session]
    split
    · trivial
    · rcases hs with ⟨hs, rfl⟩ | hs
      · rw [hs]
        exact hg.session j
      · exact (hg.session j).of_free (hs j ‹_›)
  exclusive j k := by
    change l ∈ ((g.set i (.client c)).session j).held → l ∈ ((g.set i (.client c)).session k).held → _
    simp only [set_session]
    split <;> split <;> simp_all
    exact hg.exclusive j k
  time := hT

end Config.Guarded

variable [DecidableEq ι] {body : γ → Proc σ κ ε ρ} {ok : γ → σ → Prop}
  {R₀ : γ → ℕ → τ → τ → Prop} {g g' : Config ι σ κ ε ρ γ β} {T : ℕ}

theorem Config.Guarded.step (hbody : ∀ c t, (body c).Guarded l π (R₀ c) t)
    (hR : ∀ c t s y, ok c s → R₀ c t (π s) y → R c t (π s) y) (hg : g.Guarded l π R₀ T)
    (h : Step body ok g g') :
    ∃ T', Timed R T (π g.committed) T' (π g'.committed) ∧ g'.Guarded l π R₀ T' := by
  cases h with
  | tick t ht =>
    exact ⟨T, .refl _ _, fun i => (hg.session i).later ht, hg.exclusive, Nat.le_trans hg.time ht⟩
  | start i hi =>
    refine ⟨T, .refl _ _, hg.set (Or.inl ⟨by simp, fun _ => rfl, 0, Nat.zero_le _, hbody _ 0⟩) ?_⟩
    simp
  | @observe i c k w h n hi =>
    have hq := hg.session i
    rw [hi] at hq
    refine ⟨T, .refl _ _, hg.set ?_ fun hl => hg.others_free (by rwa [hi])⟩
    rcases hq with ⟨hl, hw, t₁, ht, hp⟩ | ⟨hl, t₀, hT, ht, y, hw, hp⟩
    · exact Or.inl ⟨hl, hw, g.clock, Nat.le_refl _, hp _ _ ht⟩
    · exact Or.inr ⟨hl, t₀, hT, ht, y, hw, hp _ _ ht (hw _ rfl)⟩
  | @modify i c f p w h n hi =>
    have hq := hg.session i
    rw [hi] at hq
    refine ⟨T, .refl _ _, hg.set ?_ fun hl => hg.others_free (by rwa [hi])⟩
    rcases hq with ⟨hl, hw, t₁, ht, hf, hp⟩ | ⟨hl, t₀, hT, ht, y, hw, y', hf, hp⟩
    · exact Or.inl ⟨hl, fun v => (hf (w v)).trans (hw v), t₁, ht, hp⟩
    · exact Or.inr ⟨hl, t₀, hT, ht, y', fun v hv => hf (w v) (hw v hv), hp⟩
  | @lock i c l' p w h n hi hfree =>
    have hq := hg.session i
    rw [hi] at hq
    refine ⟨T, .refl _ _, hg.set ?_ ?_⟩
    · rcases hq with ⟨hl, hw, t₁, ht, hp⟩ | ⟨hl, hq⟩
      · by_cases hll : l' = l
        · -- the session enters: from here on `π` is what it is now
          subst hll
          simp only [Proc.Guarded, if_true] at hp
          exact Or.inr ⟨by simp, g.clock, hg.time, Nat.le_refl _, _, fun v hv => (hw v).trans hv,
            hp _ _ ht⟩
        · simp only [Proc.Guarded, if_neg hll] at hp
          exact Or.inl ⟨by simp [hl, Ne.symm hll], hw, t₁, ht, hp⟩
      · exact Or.inr ⟨by simp [hl], hq⟩
    · intro hl
      by_cases hll : l' = l
      · exact hll ▸ hfree
      · exact hg.others_free (by simpa [hi, Ne.symm hll] using hl)
  | @commit i c a w h n hi hok =>
    have hq := hg.session i
    rw [hi] at hq
    rcases hq with ⟨hl, hw, _⟩ | ⟨hl, t₀, hT, ht, y, hw, hy⟩
    · have hs : π (w g.committed) = π g.committed := hw _
      exact ⟨T, by rw [hs]; exact .refl _ _, hg.commit hg.time (Or.inl ⟨hs, rfl⟩)⟩
    · have hs : π (w g.committed) = y := hw _ rfl
      rcases hy with hy | hy
      · exact ⟨T, by rw [hs, hy]; exact .refl _ _, hg.commit hg.time (Or.inl ⟨hs.trans hy, rfl⟩)⟩
      · refine ⟨t₀, .step c (.refl _ _) hT (hR c t₀ _ _ hok (hs ▸ hy)), hg.commit ht (Or.inr ?_)⟩
        exact hg.others_free (by rwa [hi])
  | abort i hi => exact ⟨T, .refl _ _, hg.set trivial (by simp)⟩

/-- An interleaved run is, on the part `π` that `l` protects, a run of the abstract system `R`. -/
theorem Config.Guarded.run (hbody : ∀ c t, (body c).Guarded l π (R₀ c) t)
    (hR : ∀ c t s y, ok c s → R₀ c t (π s) y → R c t (π s) y) (hg : g.Guarded l π R₀ T)
    (h : Run body ok g g') :
    ∃ T', Timed R T (π g.committed) T' (π g'.committed) ∧ g'.Guarded l π R₀ T' := by
  induction h with
  | refl => exact ⟨T, .refl _ _, hg⟩
  | tail _ hs ih =>
    obtain ⟨T₁, h₁, hg₁⟩ := ih
    obtain ⟨T₂, h₂, hg₂⟩ := hg₁.step hbody hR hs
    exact ⟨T₂, h₁.trans h₂, hg₂⟩

end Refinement

end SpendGuard.Base
