/-
Scadium.Programs.Traced — arithmetic that keeps a record of itself.

The operators of the source abort on overflow; a cast, a clamp and a
saturating subtraction instead go on with another number. A `Traced`
computation carries, beside its outcome, the operations it did, those
before an abort included. `Safe` says that each of them had its exact
result, so a statement about every operation of an instruction is one
statement about its record.
-/
import Scadium.Programs.Solana

namespace Scadium.Programs

/-- An operation, with the numbers it was done on. -/
inductive ArithOp where
  /-- a product of `u128`s -/
  | mul (a b : Nat)
  /-- a sum, of a type with the maximum `max` -/
  | add (max a b : Nat)
  | sub (a b : Nat)
  | div (a b : Nat)
  /-- `a as u64` -/
  | cast (a : Nat)
  /-- `if a > u64::MAX { u64::MAX } else { a }` -/
  | clamp (a : Nat)
  | saturatingSub (a b : Nat)
  deriving DecidableEq

/-- The operation has its exact result: it does not abort, and it does not
truncate, clamp or saturate. -/
def ArithOp.Safe : ArithOp → Prop
  | .mul a b => a * b ≤ U128_MAX
  | .add max a b => a + b ≤ max
  | .sub a b => b ≤ a
  | .div _ b => 0 < b
  | .cast a => a ≤ U64_MAX
  | .clamp a => a ≤ U64_MAX
  | .saturatingSub a b => b ≤ a

/-- An outcome, and the operations done on the way to it. -/
structure Traced (ε α : Type) where
  outcome : Outcome ε α
  ops : List ArithOp

variable {ε α β : Type}

namespace Traced

protected def bind (x : Traced ε α) (f : α → Traced ε β) : Traced ε β :=
  match x.outcome with
  | .ok a => ⟨(f a).outcome, x.ops ++ (f a).ops⟩
  | .error e => ⟨.error e, x.ops⟩

instance : Monad (Traced ε) where
  pure a := ⟨.ok a, []⟩
  bind := Traced.bind

/-- A part that does no arithmetic. -/
def lift (y : Outcome ε α) : Traced ε α := ⟨y, []⟩

/-- Every operation done had its exact result. -/
def Safe (x : Traced ε α) : Prop := ∀ op ∈ x.ops, op.Safe

def mul (a b : Nat) : Traced ε Nat :=
  ⟨if a * b ≤ U128_MAX then .ok (a * b) else .error (.panic .overflow), [.mul a b]⟩

def add (max a b : Nat) : Traced ε Nat :=
  ⟨if a + b ≤ max then .ok (a + b) else .error (.panic .overflow), [.add max a b]⟩

def sub (a b : Nat) : Traced ε Nat :=
  ⟨if b ≤ a then .ok (a - b) else .error (.panic .overflow), [.sub a b]⟩

def div (a b : Nat) : Traced ε Nat := ⟨divide a b, [.div a b]⟩

def cast (a : Nat) : Traced ε Nat := ⟨.ok (a % (U64_MAX + 1)), [.cast a]⟩

def clamp (a : Nat) : Traced ε Nat := ⟨.ok (min a U64_MAX), [.clamp a]⟩

def saturatingSub (a b : Nat) : Traced ε Nat := ⟨.ok (a - b), [.saturatingSub a b]⟩

/-! ## Outcomes -/

variable {x : Traced ε α} {f : α → Traced ε β} {a b c max : Nat}

theorem bind_ok {v : β} :
    (x >>= f).outcome = .ok v ↔ ∃ u, x.outcome = .ok u ∧ (f u).outcome = .ok v := by
  show (x.bind f).outcome = .ok v ↔ _
  unfold Traced.bind
  cases h : x.outcome with
  | ok => simp
  | error => simp

/-- An abort comes from the first part or from the rest. -/
theorem bind_error {e : Failure ε} :
    (x >>= f).outcome = .error e ↔
      x.outcome = .error e ∨ ∃ u, x.outcome = .ok u ∧ (f u).outcome = .error e := by
  show (x.bind f).outcome = .error e ↔ _
  unfold Traced.bind
  cases h : x.outcome with
  | ok => simp
  | error => simp

@[simp] theorem outcome_pure (v : α) : (pure v : Traced ε α).outcome = .ok v := rfl

@[simp] theorem outcome_lift (y : Outcome ε α) : (lift y).outcome = y := rfl

@[simp] theorem mul_ok : (mul a b : Traced ε Nat).outcome = .ok c ↔
    a * b ≤ U128_MAX ∧ c = a * b := by
  unfold mul
  split <;> simp_all [eq_comm]

@[simp] theorem add_ok : (add max a b : Traced ε Nat).outcome = .ok c ↔
    a + b ≤ max ∧ c = a + b := by
  unfold add
  split <;> simp_all [eq_comm]

@[simp] theorem sub_ok : (sub a b : Traced ε Nat).outcome = .ok c ↔ b ≤ a ∧ c = a - b := by
  unfold sub
  split <;> simp_all [eq_comm]

@[simp] theorem div_ok : (div a b : Traced ε Nat).outcome = .ok c ↔ b ≠ 0 ∧ c = a / b := divide_ok

@[simp] theorem cast_ok : (cast a : Traced ε Nat).outcome = .ok c ↔ c = a % (U64_MAX + 1) := by
  simp [cast, eq_comm]

@[simp] theorem clamp_ok : (clamp a : Traced ε Nat).outcome = .ok c ↔ c = min a U64_MAX := by
  simp [clamp, eq_comm]

@[simp] theorem saturatingSub_ok :
    (saturatingSub a b : Traced ε Nat).outcome = .ok c ↔ c = a - b := by
  simp [saturatingSub, eq_comm]

/-! ## Records -/

theorem safe_bind : (x >>= f).Safe ↔ x.Safe ∧ ∀ u, x.outcome = .ok u → (f u).Safe := by
  show (x.bind f).Safe ↔ _
  unfold Traced.bind Safe
  cases h : x.outcome with
  | ok => simp [or_imp, forall_and]
  | error => simp

@[simp] theorem safe_pure (v : α) : (pure v : Traced ε α).Safe := by
  intro op hop
  cases hop

@[simp] theorem safe_lift (y : Outcome ε α) : (lift y).Safe := by
  intro op hop
  cases hop

@[simp] theorem safe_mul : (mul a b : Traced ε Nat).Safe ↔ a * b ≤ U128_MAX := by
  simp [Safe, mul, ArithOp.Safe]

@[simp] theorem safe_add : (add max a b : Traced ε Nat).Safe ↔ a + b ≤ max := by
  simp [Safe, add, ArithOp.Safe]

@[simp] theorem safe_sub : (sub a b : Traced ε Nat).Safe ↔ b ≤ a := by
  simp [Safe, sub, ArithOp.Safe]

@[simp] theorem safe_div : (div a b : Traced ε Nat).Safe ↔ 0 < b := by
  simp [Safe, div, ArithOp.Safe]

@[simp] theorem safe_cast : (cast a : Traced ε Nat).Safe ↔ a ≤ U64_MAX := by
  simp [Safe, cast, ArithOp.Safe]

@[simp] theorem safe_clamp : (clamp a : Traced ε Nat).Safe ↔ a ≤ U64_MAX := by
  simp [Safe, clamp, ArithOp.Safe]

@[simp] theorem safe_saturatingSub : (saturatingSub a b : Traced ε Nat).Safe ↔ b ≤ a := by
  simp [Safe, saturatingSub, ArithOp.Safe]

/-! ## Failures that do not happen -/

/-- The computation does not fail in this way. -/
def Avoids (x : Traced ε α) (e : Failure ε) : Prop := x.outcome ≠ .error e

theorem avoids_bind {e : Failure ε} :
    (x >>= f).Avoids e ↔ x.Avoids e ∧ ∀ u, x.outcome = .ok u → (f u).Avoids e := by
  unfold Avoids
  rw [ne_eq, bind_error]
  simp

@[simp] theorem avoids_pure (v : α) (e : Failure ε) : (pure v : Traced ε α).Avoids e := by
  simp [Avoids]

@[simp] theorem avoids_lift (y : Outcome ε α) (e : Failure ε) :
    (lift y).Avoids e ↔ y ≠ .error e := Iff.rfl

section Token

variable {t : TokenError}

@[simp] theorem avoids_mul : (mul a b : Traced ε Nat).Avoids (.token t) := by
  unfold Avoids mul
  split <;> simp

@[simp] theorem avoids_add : (add max a b : Traced ε Nat).Avoids (.token t) := by
  unfold Avoids add
  split <;> simp

@[simp] theorem avoids_sub : (sub a b : Traced ε Nat).Avoids (.token t) := by
  unfold Avoids sub
  split <;> simp

@[simp] theorem avoids_div : (div a b : Traced ε Nat).Avoids (.token t) := by
  unfold Avoids div divide
  split <;> simp

@[simp] theorem avoids_cast : (cast a : Traced ε Nat).Avoids (.token t) := by
  simp [Avoids, cast]

@[simp] theorem avoids_clamp : (clamp a : Traced ε Nat).Avoids (.token t) := by
  simp [Avoids, clamp]

@[simp] theorem avoids_saturatingSub : (saturatingSub a b : Traced ε Nat).Avoids (.token t) := by
  simp [Avoids, saturatingSub]

@[simp] theorem require_ne_token {c : Prop} [Decidable c] {e : ε} :
    require c e ≠ .error (.token t) := by
  unfold require
  split <;> simp

end Token

/-! ## Computations that return -/

/-- It aborts at most where an operation has no exact result. -/
def Plain (x : Traced ε α) : Prop := x.Safe → ∃ v, x.outcome = .ok v

theorem plain_bind (hx : x.Plain) (hf : ∀ u, x.outcome = .ok u → (f u).Plain) :
    (x >>= f).Plain := by
  intro hsafe
  obtain ⟨hfirst, hrest⟩ := safe_bind.mp hsafe
  obtain ⟨u, hu⟩ := hx hfirst
  obtain ⟨v, hv⟩ := hf u hu (hrest u hu)
  exact ⟨v, bind_ok.mpr ⟨u, hu, hv⟩⟩

@[simp] theorem plain_pure (v : α) : (pure v : Traced ε α).Plain := fun _ => ⟨v, rfl⟩

theorem plain_lift {y : Outcome ε α} {v : α} (h : y = .ok v) : (lift y).Plain := fun _ => ⟨v, h⟩

theorem plain_require {c : Prop} [Decidable c] {e : ε} (h : c) : (lift (require c e)).Plain :=
  plain_lift (require_ok.mpr h : require c e = .ok ())

@[simp] theorem plain_mul : (mul a b : Traced ε Nat).Plain :=
  fun h => ⟨_, mul_ok.mpr ⟨safe_mul.mp h, rfl⟩⟩

@[simp] theorem plain_add : (add max a b : Traced ε Nat).Plain :=
  fun h => ⟨_, add_ok.mpr ⟨safe_add.mp h, rfl⟩⟩

@[simp] theorem plain_sub : (sub a b : Traced ε Nat).Plain :=
  fun h => ⟨_, sub_ok.mpr ⟨safe_sub.mp h, rfl⟩⟩

@[simp] theorem plain_div : (div a b : Traced ε Nat).Plain :=
  fun h => ⟨_, div_ok.mpr ⟨(safe_div.mp h).ne', rfl⟩⟩

@[simp] theorem plain_cast : (cast a : Traced ε Nat).Plain := fun _ => ⟨_, rfl⟩

@[simp] theorem plain_clamp : (clamp a : Traced ε Nat).Plain := fun _ => ⟨_, rfl⟩

@[simp] theorem plain_saturatingSub : (saturatingSub a b : Traced ε Nat).Plain :=
  fun _ => ⟨_, rfl⟩

end Traced

end Scadium.Programs
