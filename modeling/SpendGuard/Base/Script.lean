import SpendGuard.Base.Schedule

/-!
A client against a given sequence of answers: what it sends, and what it returns.
-/

namespace SpendGuard.Base.Client

variable {γ ε ρ α β : Type}

protected def bind : Client γ ε ρ α → (α → Client γ ε ρ β) → Client γ ε ρ β
  | .done a, f => f a
  | .call c next, f => .call c fun r => (next r).bind f

/-- The calls that are made when the `n`-th of them is answered by `answers n`. -/
def sent : Client γ ε ρ β → (ℕ → Except ε ρ) → List γ
  | .done _, _ => []
  | .call c next, answers => c :: (next (answers 0)).sent fun n => answers (n + 1)

@[simp] theorem sent_done (b : β) (answers : ℕ → Except ε ρ) :
    (done b : Client γ ε ρ β).sent answers = [] := rfl

@[simp] theorem sent_call (c : γ) (next : Except ε ρ → Client γ ε ρ β) (answers : ℕ → Except ε ρ) :
    (call c next).sent answers = c :: (next (answers 0)).sent fun n => answers (n + 1) := rfl

@[simp] theorem sent_bind_done (x : Client γ ε ρ α) (f : α → β) (answers : ℕ → Except ε ρ) :
    (x.bind fun a => .done (f a)).sent answers = x.sent answers := by
  induction x generalizing answers with
  | done a => rfl
  | call c next ih => exact congrArg (c :: ·) (ih _ _)

variable {P : γ → Prop}

theorem Calls.bind {x : Client γ ε ρ α} {f : α → Client γ ε ρ β} (hx : x.Calls P)
    (hf : ∀ a, (f a).Calls P) : (x.bind f).Calls P := by
  induction x with
  | done a => exact hf a
  | call c next ih => exact ⟨hx.1, fun r => ih r (hx.2 r)⟩

theorem Calls.sent {x : Client γ ε ρ β} (hx : x.Calls P) (answers : ℕ → Except ε ρ) :
    ∀ c ∈ x.sent answers, P c := by
  induction x generalizing answers with
  | done b => simp
  | call c next ih =>
    intro d hd
    rcases List.mem_cons.mp hd with rfl | hd
    · exact hx.1
    · exact ih (answers 0) (hx.2 _) _ d hd

end SpendGuard.Base.Client
