import Mathlib.Data.Nat.Notation
import Mathlib.Tactic.Common

namespace SpendGuard.Base

/-- A database procedure as the sequence of its accesses: the reads of the state and the
clock, the locks it waits for, and the writes it buffers until its transaction commits. -/
inductive Proc (σ κ ε α : Type) : Type
  | pure (a : α)
  | raise (e : ε)
  | observe (next : σ → ℕ → Proc σ κ ε α)
  | modify (f : σ → σ) (next : Proc σ κ ε α)
  | lock (l : κ) (next : Proc σ κ ε α)

namespace Proc

variable {σ κ ε α β : Type}

protected def bind : Proc σ κ ε α → (α → Proc σ κ ε β) → Proc σ κ ε β
  | .pure a, f => f a
  | .raise e, _ => .raise e
  | .observe k, f => .observe fun s t => (k s t).bind f
  | .modify g k, f => .modify g (k.bind f)
  | .lock l k, f => .lock l (k.bind f)

instance : Monad (Proc σ κ ε) where
  pure := .pure
  bind := Proc.bind

theorem bind_bind {γ : Type} (x : Proc σ κ ε α) (f : α → Proc σ κ ε β) (g : β → Proc σ κ ε γ) :
    (x >>= f) >>= g = x >>= fun a => f a >>= g := by
  change (x.bind f).bind g = x.bind fun a => (f a).bind g
  induction x with
  | pure a => rfl
  | raise e => rfl
  | observe k ih => exact congrArg Proc.observe (funext fun s => funext fun t => ih s t)
  | modify h k ih => exact congrArg (Proc.modify h) ih
  | lock l k ih => exact congrArg (Proc.lock l) ih

/-- The state the transaction sees: the committed rows and its own buffered writes. -/
def read : Proc σ κ ε σ := .observe fun s _ => .pure s

def clock : Proc σ κ ε ℕ := .observe fun _ t => .pure t

def write (f : σ → σ) : Proc σ κ ε Unit := .modify f (.pure ())

def acquire (l : κ) : Proc σ κ ε Unit := .lock l (.pure ())

def ofExcept : Except ε α → Proc σ κ ε α
  | .ok a => .pure a
  | .error e => .raise e

def require (p : Prop) [Decidable p] (e : ε) : Proc σ κ ε Unit :=
  if p then .pure () else .raise e

def demand (o : Option α) (e : ε) : Proc σ κ ε α :=
  match o with
  | some a => .pure a
  | none => .raise e

/-- Run a procedure alone, at one clock value: its transaction commits or is rolled back. -/
def exec (now : ℕ) : Proc σ κ ε α → σ → Except ε (α × σ)
  | .pure a, s => .ok (a, s)
  | .raise e, _ => .error e
  | .observe k, s => (k s now).exec now s
  | .modify f k, s => k.exec now (f s)
  | .lock _ k, s => k.exec now s

section Exec

variable {now : ℕ} {s : σ} {a : α} {r : β × σ} {x : Proc σ κ ε α} {f : α → Proc σ κ ε β}

@[simp] theorem exec_pure : exec now (Pure.pure a : Proc σ κ ε α) s = .ok (a, s) := rfl

variable {e : ε} {p : Prop}

@[simp] theorem exec_raise : exec now (.raise e : Proc σ κ ε α) s = .error e := rfl

theorem exec_bind : exec now (x >>= f) s = exec now x s >>= fun r => exec now (f r.1) r.2 := by
  change exec now (x.bind f) s = _
  induction x generalizing s with
  | pure a => rfl
  | raise e => rfl
  | observe k ih => exact ih s now
  | modify g k ih => exact ih
  | lock l k ih => exact ih

theorem exec_bind_eq_ok :
    exec now (x >>= f) s = .ok r ↔ ∃ a s', exec now x s = .ok (a, s') ∧ exec now (f a) s' = .ok r := by
  rw [exec_bind]
  cases exec now x s with
  | error e => simp [bind, Except.bind]
  | ok p =>
    obtain ⟨a, s'⟩ := p
    simp [bind, Except.bind]

theorem exec_bind_of_iff {x : Proc σ κ ε Unit} {f : Unit → Proc σ κ ε β} {s' : σ}
    (hx : ∀ u, exec now x s = .ok u ↔ p ∧ u = ((), s')) :
    exec now (x >>= f) s = .ok r ↔ p ∧ exec now (f ()) s' = .ok r := by
  rw [exec_bind_eq_ok]
  constructor
  · rintro ⟨u, s₁, h₁, h⟩
    obtain ⟨hp, hu⟩ := (hx _).mp h₁
    cases hu
    exact ⟨hp, h⟩
  · rintro ⟨hp, h⟩
    exact ⟨(), s', (hx _).mpr ⟨hp, rfl⟩, h⟩

@[simp] theorem exec_pure_bind : exec now (Pure.pure a >>= f) s = exec now (f a) s := rfl

@[simp] theorem exec_read_bind {f : σ → Proc σ κ ε β} :
    exec now (read >>= f) s = exec now (f s) s := rfl

@[simp] theorem exec_clock_bind {f : ℕ → Proc σ κ ε β} :
    exec now (clock >>= f) s = exec now (f now) s := rfl

@[simp] theorem exec_write {g : σ → σ} :
    exec now (write g : Proc σ κ ε Unit) s = .ok ((), g s) := rfl

@[simp] theorem exec_write_bind {g : σ → σ} {f : Unit → Proc σ κ ε β} :
    exec now (write g >>= f) s = exec now (f ()) (g s) := rfl

@[simp] theorem exec_acquire_bind {l : κ} {f : Unit → Proc σ κ ε β} :
    exec now (acquire l >>= f) s = exec now (f ()) s := rfl

@[simp] theorem exec_require [Decidable p] {u : Unit × σ} :
    exec (κ := κ) now (require p e) s = .ok u ↔ p ∧ u = ((), s) := by
  unfold require
  split
  · simp_all [exec, eq_comm]
  · simp_all [exec]

@[simp] theorem exec_require_bind [Decidable p] {f : Unit → Proc σ κ ε β} :
    exec now (require p e >>= f) s = .ok r ↔ p ∧ exec now (f ()) s = .ok r := by
  unfold require
  split
  · exact (and_iff_right ‹p›).symm
  · exact ⟨fun h => (by cases h), fun h => absurd h.1 ‹¬p›⟩

@[simp] theorem exec_demand_bind {o : Option α} :
    exec now (demand o e >>= f) s = .ok r ↔ ∃ a, o = some a ∧ exec now (f a) s = .ok r := by
  cases o with
  | none => exact ⟨fun h => (by cases h), fun ⟨_, h, _⟩ => (by cases h)⟩
  | some a => exact ⟨fun h => ⟨a, rfl, h⟩, fun ⟨_, h, h'⟩ => by cases h; exact h'⟩

@[simp] theorem exec_demand {o : Option α} {r : α × σ} :
    exec (κ := κ) now (demand o e) s = .ok r ↔ o = some r.1 ∧ r.2 = s := by
  obtain ⟨a, s'⟩ := r
  cases o with
  | none => exact ⟨fun h => (by cases h), fun h => (by cases h.1)⟩
  | some b => simp [demand, exec, eq_comm]

@[simp] theorem exec_ofExcept_bind {y : Except ε α} :
    exec now (ofExcept y >>= f) s = .ok r ↔ ∃ a, y = .ok a ∧ exec now (f a) s = .ok r := by
  cases y with
  | error e => exact ⟨fun h => (by cases h), fun ⟨_, h, _⟩ => (by cases h)⟩
  | ok a => exact ⟨fun h => ⟨a, rfl, h⟩, fun ⟨_, h, h'⟩ => by cases h; exact h'⟩

end Exec

end Proc

end SpendGuard.Base
