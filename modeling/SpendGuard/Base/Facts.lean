import SpendGuard.Base.Interleave

/-!
Transactions that only add to what is known of the state: rows that are inserted and never removed.  What a
transaction has seen holds until it commits, whoever else commits in between, and what a client has been told
holds at its later calls.
-/

namespace SpendGuard.Base

variable {ι σ κ ε ρ γ β τ : Type}

/-- The write adds some of `A`, the same whatever it is applied to. -/
def Adds (facts : σ → Set τ) (A : Set τ) (f : σ → σ) : Prop := ∃ B ⊆ A, ∀ v, facts (f v) = facts v ∪ B

section Adds

variable {facts : σ → Set τ} {A : Set τ} {f g : σ → σ}

theorem adds_of_same (h : ∀ v, facts (f v) = facts v) : Adds facts A f :=
  ⟨∅, Set.empty_subset A, fun v => by rw [h v, Set.union_empty]⟩

theorem Adds.comp (hf : Adds facts A f) (hg : Adds facts A g) : Adds facts A (f ∘ g) := by
  obtain ⟨B, hB, hf⟩ := hf
  obtain ⟨C, hC, hg⟩ := hg
  refine ⟨C ∪ B, Set.union_subset hC hB, fun v => ?_⟩
  rw [Function.comp_apply, hf, hg, Set.union_assoc]

theorem Adds.subset (hf : Adds facts A f) (v : σ) : facts v ⊆ facts (f v) := by
  obtain ⟨B, -, hf⟩ := hf
  rw [hf]
  exact Set.subset_union_left

theorem Adds.mono (hf : Adds facts A f) {v v' : σ} (h : facts v ⊆ facts v') : facts (f v) ⊆ facts (f v') := by
  obtain ⟨B, -, hf⟩ := hf
  rw [hf, hf]
  exact Set.union_subset_union_left B h

end Adds

namespace Proc

/-- Every normal end of the procedure, started when at least `F` is known, satisfies `Q` of its answer and of
what is known by then. -/
def Shows (facts : σ → Set τ) (Q : ρ → Set τ → Prop) : Set τ → Proc σ κ ε ρ → Prop
  | F, .pure a => Q a F
  | _, .raise _ => True
  | F, .observe k => ∀ v t, F ⊆ facts v → (k v t).Shows facts Q (facts v)
  | F, .modify f k => ∃ F', (∀ v, F ⊆ facts v → F' ⊆ facts (f v)) ∧ k.Shows facts Q F'
  | F, .lock _ k => k.Shows facts Q F

section Rules

variable {α : Type} {facts : σ → Set τ} {Q : ρ → Set τ → Prop} {F : Set τ}

theorem shows_bind {x : Proc σ κ ε α} {f : α → Proc σ κ ε ρ} :
    Shows facts Q F (x >>= f) ↔ Shows facts (fun a F' => Shows facts Q F' (f a)) F x := by
  change Shows facts Q F (x.bind f) ↔ _
  induction x generalizing F with
  | pure a => rfl
  | raise e => rfl
  | observe k ih => exact forall₂_congr fun v t => forall_congr' fun _ => ih v t
  | modify g k ih => exact exists_congr fun F' => and_congr_right fun _ => ih
  | lock l k ih => exact ih

theorem Shows.mono {x : Proc σ κ ε ρ} {Q' : ρ → Set τ → Prop} (hQ : ∀ a F, Q a F → Q' a F)
    (h : Shows facts Q F x) : Shows facts Q' F x := by
  induction x generalizing F with
  | pure a => exact hQ a F h
  | raise e => trivial
  | observe k ih => exact fun v t hv => ih v t (h v t hv)
  | modify g k ih =>
    obtain ⟨F', hF', h⟩ := h
    exact ⟨F', hF', ih h⟩
  | lock l k ih => exact ih h

theorem Shows.map {x : Proc σ κ ε α} {f : α → ρ} (h : Shows facts (fun a => Q (f a)) F x) :
    Shows facts Q F (f <$> x) := by
  change Shows facts Q F (x >>= fun a => .pure (f a))
  exact shows_bind.mpr h

theorem shows_skip {P : (σ → σ) → Prop} {x : Proc σ κ ε α} {f : α → Proc σ κ ε ρ} (hx : Writes P x)
    (hP : ∀ f, P f → ∀ v, facts v ⊆ facts (f v)) (h : ∀ a F', F ⊆ F' → Shows facts Q F' (f a)) :
    Shows facts Q F (x >>= f) := by
  rw [shows_bind]
  induction x generalizing F with
  | pure a => exact h a F subset_rfl
  | raise e => trivial
  | observe k ih => exact fun v t hv => ih v t (hx v t) fun a F' hF => h a F' (hv.trans hF)
  | modify g k ih => exact ⟨F, fun v hv => hv.trans (hP g hx.1 v), ih hx.2 h⟩
  | lock l k ih => exact ih hx h

theorem shows_of_forall {P : (σ → σ) → Prop} {x : Proc σ κ ε ρ} (hx : Writes P x)
    (hP : ∀ f, P f → ∀ v, facts v ⊆ facts (f v)) (hQ : ∀ a F, Q a F) : Shows facts Q F x := by
  induction x generalizing F with
  | pure a => exact hQ a F
  | raise e => trivial
  | observe k ih => exact fun v t _ => ih v t (hx v t)
  | modify g k ih => exact ⟨F, fun v hv => hv.trans (hP g hx.1 v), ih hx.2⟩
  | lock l k ih => exact ih hx

theorem shows_read {f : σ → Proc σ κ ε ρ} (h : ∀ v, F ⊆ facts v → Shows facts Q (facts v) (f v)) :
    Shows facts Q F (read >>= f) := fun v _ => h v

theorem shows_acquire {l : κ} {f : Unit → Proc σ κ ε ρ} (h : Shows facts Q F (f ())) :
    Shows facts Q F (acquire l >>= f) := h

theorem shows_require {p : Prop} [Decidable p] {e : ε} {f : Unit → Proc σ κ ε ρ}
    (h : p → Shows facts Q F (f ())) : Shows facts Q F (require p e >>= f) := by
  unfold require
  split
  · exact h ‹p›
  · trivial

theorem shows_write {g : σ → σ} {f : Unit → Proc σ κ ε ρ} (F' : Set τ)
    (hg : ∀ v, F ⊆ facts v → F' ⊆ facts (g v)) (h : Shows facts Q F' (f ())) :
    Shows facts Q F (write g >>= f) := ⟨F', hg, h⟩

end Rules

section Zoom

variable {σ' κ' : Type}

def zoom (part : σ' → σ) (up : (σ → σ) → σ' → σ') (tag : κ → κ') : Proc σ κ ε ρ → Proc σ' κ' ε ρ
  | .pure a => .pure a
  | .raise e => .raise e
  | .observe k => .observe fun v t => (k (part v) t).zoom part up tag
  | .modify f k => .modify (up f) (k.zoom part up tag)
  | .lock l k => .lock (tag l) (k.zoom part up tag)

variable {part : σ' → σ} {up : (σ → σ) → σ' → σ'} {tag : κ → κ'} {p : Proc σ κ ε ρ}

theorem Writes.zoom {P : (σ → σ) → Prop} {P' : (σ' → σ') → Prop} (h : Writes P p) (hP : ∀ f, P f → P' (up f)) :
    Writes P' (p.zoom part up tag) := by
  induction p with
  | pure a => trivial
  | raise e => trivial
  | observe k ih => exact fun v t => ih (part v) t (h (part v) t)
  | modify f k ih => exact ⟨hP f h.1, ih h.2⟩
  | lock l k ih => exact ih h

theorem Shows.zoom {τ' : Type} {facts : σ → Set τ} {facts' : σ' → Set τ'} {inj : τ → τ'} {Q : ρ → Set τ → Prop}
    {F : Set τ} {F' : Set τ'} (hpart : ∀ f v, part (up f v) = f (part v))
    (hfacts : ∀ v, facts (part v) = Set.preimage inj (facts' v)) (hQ : ∀ a F F', F ⊆ F' → Q a F → Q a F')
    (hF : F ⊆ Set.preimage inj F') (h : Shows facts Q F p) :
    Shows facts' (fun a G => Q a (Set.preimage inj G)) F' (p.zoom part up tag) := by
  induction p generalizing F F' with
  | pure a => exact hQ a F _ hF h
  | raise e => trivial
  | observe k ih =>
    intro v t hv
    have hpreimage : F ⊆ facts (part v) := by
      rw [hfacts]
      exact hF.trans (Set.preimage_mono hv)
    exact ih (part v) t (hfacts v).subset (h (part v) t hpreimage)
  | modify f k ih =>
    obtain ⟨G, hG, h⟩ := h
    refine ⟨Set.image inj G, fun v hv => ?_, ih (Set.subset_preimage_image inj G) h⟩
    have hpreimage : F ⊆ facts (part v) := by
      rw [hfacts]
      exact hF.trans (Set.preimage_mono hv)
    rw [Set.image_subset_iff, ← hfacts, hpart]
    exact hG (part v) hpreimage
  | lock l k ih => exact ih hF h

theorem wp_zoom {π : σ → τ} {t₀ : ℕ} {Q : ρ → τ → Prop} {y : τ} (hpart : ∀ f v, part (up f v) = f (part v))
    (h : wp π t₀ p Q y) : wp (π ∘ part) t₀ (p.zoom part up tag) Q y := by
  induction p generalizing y with
  | pure a => exact h
  | raise e => trivial
  | observe k ih => exact fun v t ht hv => ih (part v) t (h (part v) t ht hv)
  | modify f k ih =>
    obtain ⟨y', hy, h⟩ := h
    refine ⟨y', fun v hv => ?_, ih h⟩
    rw [Function.comp_apply, hpart]
    exact hy (part v) hv
  | lock l k ih => exact ih h

theorem Guarded.zoom [DecidableEq κ] [DecidableEq κ'] {l : κ} {π : σ → τ} {R : ℕ → τ → τ → Prop} {t : ℕ}
    (hpart : ∀ f v, part (up f v) = f (part v)) (htag : Function.Injective tag) (h : Guarded l π R t p) :
    Guarded (tag l) (π ∘ part) R t (p.zoom part up tag) := by
  induction p generalizing t with
  | pure a => trivial
  | raise e => trivial
  | observe k ih => exact fun v t' ht => ih (part v) t' (h (part v) t' ht)
  | modify f k ih =>
    refine ⟨fun v => ?_, ih h.2⟩
    rw [Function.comp_apply, hpart]
    exact h.1 (part v)
  | lock l' k ih =>
    by_cases hl : l' = l
    · subst hl
      simp only [Guarded, Proc.zoom, if_true] at h ⊢
      exact fun t₀ x ht => wp_zoom hpart (h t₀ x ht)
    · simp only [Guarded, Proc.zoom, if_neg hl, if_neg (htag.ne hl)] at h ⊢
      exact ih h

end Zoom

end Proc

/-- What is known of a state, what a call adds to it, what must be known when it is made, and what its answer
shows; `inv` is what the known facts always satisfy. -/
structure Knowledge (σ ρ γ τ : Type) where
  facts : σ → Set τ
  adds : γ → Set τ
  pre : γ → Set τ → Prop
  post : γ → ρ → Set τ → Prop
  inv : Set τ → Prop
  pre_mono : ∀ c F F', F ⊆ F' → pre c F → pre c F'
  post_mono : ∀ c a F F', F ⊆ F' → post c a F → post c a F'
  inv_step : ∀ c F F', inv F → pre c F → F ⊆ F' → F' ⊆ F ∪ adds c → inv F'

section Sure

variable (K : Knowledge σ ρ γ τ)

/-- A client that makes its calls only when it may, and whose result satisfies `G` of what is known then. -/
def Client.Sure (G : β → Set τ → Prop) : Set τ → Client γ ε ρ β → Prop
  | F, .done b => G b F
  | F, .call c n => K.pre c F ∧
    ∀ r F', F ⊆ F' → K.inv F' → (∀ a, r = .ok a → K.post c a F') → (n r).Sure G F'

def Session.Sure (G : β → Set τ → Prop) (committed : σ) : Session σ κ ε ρ γ β → Prop
  | .client c => c.Sure K G (K.facts committed)
  | .running c p w _ n => Adds K.facts (K.adds c) w ∧ p.Writes (Adds K.facts (K.adds c)) ∧
    K.pre c (K.facts committed) ∧ (∃ F ⊆ K.facts (w committed), p.Shows K.facts (K.post c) F) ∧
    ∀ r F', K.facts committed ⊆ F' → K.inv F' → (∀ a, r = .ok a → K.post c a F') → (n r).Sure K G F'

structure Config.Sure (G : ι → β → Set τ → Prop) (g : Config ι σ κ ε ρ γ β) : Prop where
  inv : K.inv (K.facts g.committed)
  session : ∀ i, (g.session i).Sure K (G i) g.committed

variable {K} {G : β → Set τ → Prop}

theorem Client.Sure.mono {c : Client γ ε ρ β} {F F' : Set τ} (hG : ∀ b F F', F ⊆ F' → G b F → G b F')
    (hF : F ⊆ F') (h : c.Sure K G F) : c.Sure K G F' := by
  cases c with
  | done b => exact hG b F F' hF h
  | call c n => exact ⟨K.pre_mono c F F' hF h.1, fun r F'' hF' => h.2 r F'' (hF.trans hF')⟩

theorem Client.Sure.imp {G' : β → Set τ → Prop} {c : Client γ ε ρ β} {F : Set τ} (hG : ∀ b F, G b F → G' b F)
    (h : c.Sure K G F) : c.Sure K G' F := by
  induction c generalizing F with
  | done b => exact hG b F h
  | call c n ih => exact ⟨h.1, fun r F' hF hinv hpost => ih r (h.2 r F' hF hinv hpost)⟩

theorem Session.Sure.mono {q : Session σ κ ε ρ γ β} {s s' : σ} (hG : ∀ b F F', F ⊆ F' → G b F → G b F')
    (hs : K.facts s ⊆ K.facts s') (h : q.Sure K G s) : q.Sure K G s' := by
  cases q with
  | client c => exact Client.Sure.mono hG hs h
  | running c p w held n =>
    obtain ⟨hw, hp, hpre, ⟨F, hF, hshows⟩, hnext⟩ := h
    exact ⟨hw, hp, K.pre_mono c _ _ hs hpre, ⟨F, hF.trans (hw.mono hs), hshows⟩,
      fun r F' hF' => hnext r F' (hs.trans hF')⟩

namespace Config.Sure

variable [DecidableEq ι] {G : ι → β → Set τ → Prop} {g g' : Config ι σ κ ε ρ γ β}
  {body : γ → Proc σ κ ε ρ} {ok : γ → σ → Prop}

theorem set {i : ι} {q : Session σ κ ε ρ γ β} (hg : g.Sure K G) (hq : q.Sure K (G i) g.committed) :
    (g.set i q).Sure K G where
  inv := hg.inv
  session j := by
    rw [set_session]
    split
    · next hj => exact hj ▸ hq
    · exact hg.session j

theorem step (hG : ∀ i b F F', F ⊆ F' → G i b F → G i b F')
    (hwrites : ∀ c, (body c).Writes (Adds K.facts (K.adds c)))
    (hshows : ∀ c, (body c).Shows K.facts (K.post c) ∅) (hg : g.Sure K G) (h : Step body ok g g') :
    g'.Sure K G := by
  cases h with
  | tick t _ => exact ⟨hg.inv, hg.session⟩
  | start i hi =>
    have hq := hg.session i
    rw [hi] at hq
    exact hg.set ⟨adds_of_same fun _ => rfl, hwrites _, hq.1, ⟨∅, Set.empty_subset _, hshows _⟩, hq.2⟩
  | observe i hi =>
    have hq := hg.session i
    rw [hi] at hq
    obtain ⟨hw, hp, hpre, ⟨F, hF, hshows⟩, hnext⟩ := hq
    exact hg.set ⟨hw, hp _ _, hpre, ⟨_, subset_rfl, hshows _ _ hF⟩, hnext⟩
  | modify i hi =>
    have hq := hg.session i
    rw [hi] at hq
    obtain ⟨hw, hp, hpre, ⟨F, hF, F', hF', hshows⟩, hnext⟩ := hq
    exact hg.set ⟨hp.1.comp hw, hp.2, hpre, ⟨F', hF' _ hF, hshows⟩, hnext⟩
  | lock i hi _ =>
    have hq := hg.session i
    rw [hi] at hq
    exact hg.set hq
  | @commit i c a w held n hi _ =>
    have hq := hg.session i
    rw [hi] at hq
    obtain ⟨hw, -, hpre, ⟨F, hF, hpost⟩, hnext⟩ := hq
    have hgrown := hw.subset g.committed
    obtain ⟨B, hB, hfacts⟩ := hw
    have hinv : K.inv (K.facts (w g.committed)) := by
      apply K.inv_step c _ _ hg.inv hpre hgrown
      rw [hfacts]
      exact Set.union_subset_union_right _ hB
    refine ⟨hinv, fun j => ?_⟩
    change Session.Sure K (G j) (w g.committed) ((g.set i (.client (n (.ok a)))).session j)
    rw [set_session]
    split
    · next hj =>
      subst hj
      apply hnext _ _ hgrown hinv
      rintro b hb
      cases hb
      exact K.post_mono c a F _ hF hpost
    · exact (hg.session j).mono (hG j) hgrown
  | abort i hi =>
    have hq := hg.session i
    rw [hi] at hq
    exact hg.set (hq.2.2.2.2 _ _ subset_rfl hg.inv nofun)

theorem run (hG : ∀ i b F F', F ⊆ F' → G i b F → G i b F')
    (hwrites : ∀ c, (body c).Writes (Adds K.facts (K.adds c)))
    (hshows : ∀ c, (body c).Shows K.facts (K.post c) ∅) (hg : g.Sure K G) (h : Run body ok g g') :
    g'.Sure K G := by
  induction h with
  | refl => exact hg
  | tail _ hstep ih => exact ih.step hG hwrites hshows hstep

end Config.Sure

end Sure

end SpendGuard.Base
