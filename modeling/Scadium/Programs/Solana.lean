/-
Scadium.Programs.Solana — what the programs of `programs/` run on:
fixed-width integers, the SPL token program and the system program.

A `u64` or `u128` is a natural number with its bound checked where the
source checks it. The workspace builds with `overflow-checks = true`, so an
operator that overflows panics, as a division by zero does; a panic, an
error of the program and a failed transfer all abort the instruction, and
with it everything it wrote.

Token accounts are told apart by their owner. The rent of the accounts an
instruction creates, and what a transaction costs, are left out.
-/
import Mathlib.Algebra.Order.Floor.Div
import Scadium.Lib.Balances

namespace Scadium.Programs

open Scadium.Lib

def U64_MAX : Nat := 2 ^ 64 - 1
def U128_MAX : Nat := 2 ^ 128 - 1

/-- Why a transfer is refused. -/
inductive TokenError where
  | insufficientFunds | overflow
  deriving DecidableEq

inductive Panic where
  | divideByZero | overflow
  deriving DecidableEq

/-- Why an instruction is aborted; `ε` are the errors of the program. A
constraint is one of those on the accounts the instruction names. -/
inductive Failure (ε : Type) where
  | error (e : ε)
  | constraint
  | token (e : TokenError)
  | panic (p : Panic)
  deriving DecidableEq

/-- What an instruction, or a part of it, computes. -/
abbrev Outcome (ε α : Type) := Except (Failure ε) α

variable {ε α β : Type}

/-! ## Checked arithmetic -/

/-- `require!(c, e)` -/
def require (c : Prop) [Decidable c] (e : ε) : Outcome ε Unit :=
  if c then .ok () else .error (.error e)

/-- `o.ok_or(e)?` -/
def okOr (o : Option α) (e : ε) : Outcome ε α :=
  match o with
  | some a => .ok a
  | none => .error (.error e)

/-- `u128::checked_mul` -/
def checkedMul (a b : Nat) : Option Nat := if a * b ≤ U128_MAX then some (a * b) else none

/-- `u128::checked_add` -/
def checkedAdd (a b : Nat) : Option Nat := if a + b ≤ U128_MAX then some (a + b) else none

/-- `u128::checked_sub` -/
def checkedSub (a b : Nat) : Option Nat := if b ≤ a then some (a - b) else none

/-- `u64::try_from` -/
def tryU64 (a : Nat) : Option Nat := if a ≤ U64_MAX then some a else none

/-- `a / b` -/
def divide (a b : Nat) : Outcome ε Nat :=
  if b = 0 then .error (.panic .divideByZero) else .ok (a / b)

/-- `a.div_ceil(b)` -/
def divCeil (a b : Nat) : Outcome ε Nat :=
  if b = 0 then .error (.panic .divideByZero) else .ok (a ⌈/⌉ b)

theorem bind_ok {x : Outcome ε α} {f : α → Outcome ε β} {b : β} :
    (x >>= f) = .ok b ↔ ∃ a, x = .ok a ∧ f a = .ok b := by
  cases x with
  | ok a =>
    show f a = .ok b ↔ _
    simp
  | error e =>
    show (.error e : Outcome ε β) = .ok b ↔ _
    simp

theorem toOption_eq_some {x : Outcome ε α} {a : α} : x.toOption = some a ↔ x = .ok a := by
  cases x <;> simp [Except.toOption]

@[simp] theorem require_ok {c : Prop} [Decidable c] {e : ε} {u : Unit} :
    require c e = .ok u ↔ c := by
  unfold require
  split <;> simp_all

@[simp] theorem okOr_ok {o : Option α} {e : ε} {a : α} : okOr o e = .ok a ↔ o = some a := by
  cases o <;> simp [okOr]

@[simp] theorem checkedMul_some {a b c : Nat} :
    checkedMul a b = some c ↔ a * b ≤ U128_MAX ∧ c = a * b := by
  unfold checkedMul
  split <;> simp_all [eq_comm]

@[simp] theorem checkedAdd_some {a b c : Nat} :
    checkedAdd a b = some c ↔ a + b ≤ U128_MAX ∧ c = a + b := by
  unfold checkedAdd
  split <;> simp_all [eq_comm]

@[simp] theorem checkedSub_some {a b c : Nat} :
    checkedSub a b = some c ↔ b ≤ a ∧ c = a - b := by
  unfold checkedSub
  split <;> simp_all [eq_comm]

@[simp] theorem tryU64_some {a b : Nat} : tryU64 a = some b ↔ a ≤ U64_MAX ∧ b = a := by
  unfold tryU64
  split <;> simp_all [eq_comm]

@[simp] theorem divide_ok {a b c : Nat} :
    (divide a b : Outcome ε Nat) = .ok c ↔ b ≠ 0 ∧ c = a / b := by
  unfold divide
  split <;> simp_all [eq_comm]

@[simp] theorem divCeil_ok {a b c : Nat} :
    (divCeil a b : Outcome ε Nat) = .ok c ↔ b ≠ 0 ∧ c = a ⌈/⌉ b := by
  unfold divCeil
  split <;> simp_all [eq_comm]

/-! ## Tokens and lamports -/

section Transfers

variable {κ : Type} [DecidableEq κ]

/-- A transfer of tokens or of lamports: the source must hold the amount,
and the destination must be able to. -/
def transfer (b : Balances κ) (src dst : κ) (amount : Nat) : Outcome ε (Balances κ) :=
  if b.get src < amount then .error (.token .insufficientFunds)
  else if src ≠ dst ∧ U64_MAX < b.get dst + amount then .error (.token .overflow)
  else .ok (b.move src dst amount)

/-- A mint: its supply and its token accounts. -/
structure Mint (κ : Type) where
  supply : Nat
  accounts : Balances κ

def Mint.mintTo (m : Mint κ) (dst : κ) (amount : Nat) : Outcome ε (Mint κ) :=
  if U64_MAX < m.supply + amount then .error (.token .overflow)
  else .ok ⟨m.supply + amount, m.accounts.credit dst amount⟩

def Mint.burn (m : Mint κ) (src : κ) (amount : Nat) : Outcome ε (Mint κ) :=
  if m.accounts.get src < amount then .error (.token .insufficientFunds)
  else .ok ⟨m.supply - amount, m.accounts.debit src amount⟩

/-- The supply is what the accounts hold. -/
def Mint.Sound (m : Mint κ) : Prop := m.accounts.total = m.supply

variable {b b' : Balances κ} {m m' : Mint κ} {src dst : κ} {amount : Nat}

theorem transfer_ok : (transfer b src dst amount : Outcome ε (Balances κ)) = .ok b' ↔
    amount ≤ b.get src ∧ (src ≠ dst → b.get dst + amount ≤ U64_MAX) ∧
      b' = b.move src dst amount := by
  unfold transfer
  split
  · simp
    omega
  · split
    · rename_i hsrc hover
      simp [hover.1]
      omega
    · rename_i hsrc hover
      simp only [not_and, not_lt] at hover hsrc
      simp [hsrc, eq_comm]
      exact fun _ => hover

theorem mintTo_ok : (m.mintTo dst amount : Outcome ε (Mint κ)) = .ok m' ↔
    m.supply + amount ≤ U64_MAX ∧ m' = ⟨m.supply + amount, m.accounts.credit dst amount⟩ := by
  unfold Mint.mintTo
  split
  · simp
    omega
  · simp [eq_comm]
    omega

theorem burn_ok : (m.burn src amount : Outcome ε (Mint κ)) = .ok m' ↔
    amount ≤ m.accounts.get src ∧ m' = ⟨m.supply - amount, m.accounts.debit src amount⟩ := by
  unfold Mint.burn
  split
  · simp
    omega
  · simp [eq_comm]
    omega

theorem Mint.Sound.burn (hm : m.Sound) (h : (m.burn src amount : Outcome ε (Mint κ)) = .ok m') :
    m'.Sound := by
  obtain ⟨hle, rfl⟩ := burn_ok.mp h
  unfold Mint.Sound at *
  have htotal := m.accounts.total_debit hle
  show (m.accounts.debit src amount).total = m.supply - amount
  omega

end Transfers

end Scadium.Programs
