/-
Scadium.Programs.Swap.Program — `scadium_swap`, the constant-product pool
of SCAD and SOL (`programs/scadium_swap/src/lib.rs`).

The pool's accounts are the SCAD token account of the pool PDA, the
lamport vault PDA and the LP token account of the pool PDA; all three are
the holdings of `Owner.pool` here. Anybody may send tokens or lamports to
any account, the pool's included: what the source reads as a reserve is
the full balance.
-/
import Scadium.Programs.Solana

namespace Scadium.Programs.Swap

open Scadium.Lib

abbrev Pubkey := Nat

/-- Who holds a token account, or lamports. -/
inductive Owner where
  | pool
  | user (u : Pubkey)
  deriving DecidableEq

inductive SwapError where
  | zeroAmount | emptyPool | slippageExceeded | feeTooHigh | mathOverflow
  | insufficientInitialLiquidity
  deriving DecidableEq

def BPS : Nat := 10000

/-- Dead shares locked on the first `add_liquidity`. -/
def MINIMUM_LIQUIDITY : Nat := 1000

/-- The pool account, what the instructions read of it. -/
structure Pool where
  fee_bps : Nat
  fee_lt : fee_bps < 1000

/-- The accounts of the program and of its users. -/
structure SwapState where
  pool : Option Pool
  scad : Balances Owner
  lamports : Balances Owner
  lp : Mint Owner

/-- Event of a change of liquidity. -/
structure LiquidityChanged where
  user : Pubkey
  added : Bool
  scad : Nat
  sol : Nat
  lp : Nat
  deriving DecidableEq

/-- Event of a swap. -/
structure Swapped where
  user : Pubkey
  sol_to_scad : Bool
  amount_in : Nat
  amount_out : Nat
  deriving DecidableEq

abbrev Result (α : Type) := Outcome SwapError α

namespace SwapState

def scadRes (s : SwapState) : Nat := s.scad.get .pool
def solRes (s : SwapState) : Nat := s.lamports.get .pool

end SwapState

/-! ## Amounts -/

/-- `while y < x { x = y; y = (x + v / x) / 2; }` -/
def sqrtLoop (v x y : Nat) : Nat :=
  if y < x then sqrtLoop v y ((y + v / y) / 2) else x
termination_by x

def integer_sqrt (v : Nat) : Nat :=
  if v < 2 then v else sqrtLoop v v (v ⌈/⌉ 2)

/-- First-deposit LP split: the locked shares, and those of the depositor. -/
def first_lp_split (scad_amount sol_amount : Nat) : Result (Nat × Nat) := do
  let product ← okOr (checkedMul scad_amount sol_amount) .mathOverflow
  let total ← okOr (tryU64 (integer_sqrt product)) .mathOverflow
  require (MINIMUM_LIQUIDITY < total) .insufficientInitialLiquidity
  pure (MINIMUM_LIQUIDITY, total - MINIMUM_LIQUIDITY)

/-- The shares one side of a proportional add is good for. -/
def lpFrom (amount lp_supply res : Nat) : Result Nat := do
  let scaled ← okOr (checkedMul amount lp_supply) .mathOverflow
  divide scaled res

/-- What `lp` shares take of a reserve. -/
def need (lp res lp_supply : Nat) : Result Nat := do
  let scaled ← okOr (checkedMul lp res) .mathOverflow
  let amount ← divCeil scaled lp_supply
  okOr (tryU64 amount) .mathOverflow

/-- What an add takes and mints. -/
structure AddAmounts where
  scad_in : Nat
  sol_in : Nat
  lp_out : Nat
  lp_locked : Nat

/-- The amounts of `add_liquidity`: the first add sets the price, later ones
are scaled to the limiting side. -/
def addAmounts (scad_amount sol_amount scad_res sol_res lp_supply : Nat) : Result AddAmounts :=
  if lp_supply = 0 then do
    let split ← first_lp_split scad_amount sol_amount
    pure ⟨scad_amount, sol_amount, split.2, split.1⟩
  else do
    let lp_from_scad ← lpFrom scad_amount lp_supply scad_res
    let lp_from_sol ← lpFrom sol_amount lp_supply sol_res
    let lp := min lp_from_scad lp_from_sol
    let scad_need ← need lp scad_res lp_supply
    let sol_need ← need lp sol_res lp_supply
    let lp ← okOr (tryU64 lp) .mathOverflow
    pure ⟨scad_need, sol_need, lp, 0⟩

/-- What `lp_amount` shares are paid of a reserve. -/
def payout (lp_amount res lp_supply : Nat) : Result Nat := do
  let scaled ← okOr (checkedMul lp_amount res) .mathOverflow
  let amount ← divide scaled lp_supply
  okOr (tryU64 amount) .mathOverflow

/-- Constant-product output for a swap, the fee taken from the input. -/
def cpmm_out (amount_in r_in r_out fee_bps : Nat) : Result Nat := do
  let keep ← okOr (checkedSub BPS fee_bps) .mathOverflow
  let scaled ← okOr (checkedMul amount_in keep) .mathOverflow
  let in_after_fee := scaled / BPS
  let numer ← okOr (checkedMul in_after_fee r_out) .mathOverflow
  let denom ← okOr (checkedAdd r_in in_after_fee) .mathOverflow
  let amount ← divide numer denom
  okOr (tryU64 amount) .mathOverflow

/-! ## Instructions -/

/-- The account constraints that ask for the pool. -/
def SwapState.getPool (s : SwapState) : Result Pool :=
  match s.pool with
  | some pool => .ok pool
  | none => .error .constraint

/-- `init_pool`. The vault PDA is topped up to what keeps an account without
data alive; the pool's token account is created, so it must not be there. -/
def init_pool (rentFloor : Nat) (s : SwapState) (payer : Pubkey) (fee_bps : Nat) :
    Result SwapState :=
  if s.pool.isSome ∨ s.scad.get .pool ≠ 0 then .error .constraint
  else if h : fee_bps < 1000 then do
    let lamports ← transfer s.lamports (.user payer) .pool (rentFloor - s.solRes)
    pure { s with pool := some ⟨fee_bps, h⟩, lamports := lamports }
  else .error (.error .feeTooHigh)

/-- `if lp_locked > 0`: the dead shares go to the pool's own LP account, out
of which no instruction moves them. -/
def lockShares (lp : Mint Owner) (lp_locked : Nat) : Result (Mint Owner) :=
  if 0 < lp_locked then lp.mintTo .pool lp_locked else .ok lp

def add_liquidity (s : SwapState) (user : Pubkey) (scad_amount sol_amount min_lp : Nat) :
    Result (SwapState × LiquidityChanged) := do
  let _ ← s.getPool
  require (0 < scad_amount ∧ 0 < sol_amount) .zeroAmount
  let a ← addAmounts scad_amount sol_amount s.scadRes s.solRes s.lp.supply
  require (min_lp ≤ a.lp_out ∧ 0 < a.lp_out) .slippageExceeded
  let scad ← transfer s.scad (.user user) .pool a.scad_in
  let lamports ← transfer s.lamports (.user user) .pool a.sol_in
  let lp ← s.lp.mintTo (.user user) a.lp_out
  let lp ← lockShares lp a.lp_locked
  pure ({ s with scad := scad, lamports := lamports, lp := lp },
    ⟨user, true, a.scad_in, a.sol_in, a.lp_out⟩)

def remove_liquidity (s : SwapState) (user : Pubkey) (lp_amount min_scad min_sol : Nat) :
    Result (SwapState × LiquidityChanged) := do
  let _ ← s.getPool
  require (0 < lp_amount) .zeroAmount
  require (0 < s.lp.supply) .emptyPool
  let scad_out ← payout lp_amount s.scadRes s.lp.supply
  let sol_out ← payout lp_amount s.solRes s.lp.supply
  require (min_scad ≤ scad_out ∧ min_sol ≤ sol_out) .slippageExceeded
  let lp ← s.lp.burn (.user user) lp_amount
  let scad ← transfer s.scad .pool (.user user) scad_out
  let lamports ← transfer s.lamports .pool (.user user) sol_out
  pure ({ s with scad := scad, lamports := lamports, lp := lp },
    ⟨user, false, scad_out, sol_out, lp_amount⟩)

def swap (s : SwapState) (user : Pubkey) (sol_to_scad : Bool) (amount_in min_amount_out : Nat) :
    Result (SwapState × Swapped) := do
  let pool ← s.getPool
  require (0 < amount_in) .zeroAmount
  require (0 < s.scadRes ∧ 0 < s.solRes) .emptyPool
  let r_in := if sol_to_scad then s.solRes else s.scadRes
  let r_out := if sol_to_scad then s.scadRes else s.solRes
  let amount_out ← cpmm_out amount_in r_in r_out pool.fee_bps
  require (min_amount_out ≤ amount_out ∧ 0 < amount_out) .slippageExceeded
  let event : Swapped := ⟨user, sol_to_scad, amount_in, amount_out⟩
  if sol_to_scad then
    let lamports ← transfer s.lamports (.user user) .pool amount_in
    let scad ← transfer s.scad .pool (.user user) amount_out
    pure ({ s with scad := scad, lamports := lamports }, event)
  else
    let scad ← transfer s.scad (.user user) .pool amount_in
    let lamports ← transfer s.lamports .pool (.user user) amount_out
    pure ({ s with scad := scad, lamports := lamports }, event)

/-! ## Runs -/

/-- A transaction: an instruction of the program, or a transfer by a user to
anybody, the pool's accounts included. -/
inductive Act where
  | initPool (payer : Pubkey) (fee_bps : UInt16)
  | addLiquidity (user : Pubkey) (scad_amount sol_amount min_lp : UInt64)
  | removeLiquidity (user : Pubkey) (lp_amount min_scad min_sol : UInt64)
  | swap (user : Pubkey) (sol_to_scad : Bool) (amount_in min_amount_out : UInt64)
  | sendScad (src : Pubkey) (dst : Owner) (amount : UInt64)
  | sendSol (src : Pubkey) (dst : Owner) (amount : UInt64)
  | sendLp (src : Pubkey) (dst : Owner) (amount : UInt64)
  deriving DecidableEq

variable (rentFloor : Nat)

def exec (s : SwapState) : Act → Result SwapState
  | .initPool payer fee_bps => init_pool rentFloor s payer fee_bps.toNat
  | .addLiquidity user scad_amount sol_amount min_lp => do
      let r ← add_liquidity s user scad_amount.toNat sol_amount.toNat min_lp.toNat
      pure r.1
  | .removeLiquidity user lp_amount min_scad min_sol => do
      let r ← remove_liquidity s user lp_amount.toNat min_scad.toNat min_sol.toNat
      pure r.1
  | .swap user sol_to_scad amount_in min_amount_out => do
      let r ← Swap.swap s user sol_to_scad amount_in.toNat min_amount_out.toNat
      pure r.1
  | .sendScad src dst amount => do
      let scad ← transfer s.scad (.user src) dst amount.toNat
      pure { s with scad := scad }
  | .sendSol src dst amount => do
      let lamports ← transfer s.lamports (.user src) dst amount.toNat
      pure { s with lamports := lamports }
  | .sendLp src dst amount => do
      let accounts ← transfer s.lp.accounts (.user src) dst amount.toNat
      pure { s with lp := ⟨s.lp.supply, accounts⟩ }

/-- One transaction that lands. -/
def step (s : SwapState) (a : Act) : Option SwapState :=
  match exec rentFloor s a with
  | .ok s' => some s'
  | .error _ => none

/-- Before `init_pool`: no LP token exists, everything else is as it may be. -/
def SwapState.initial (scad lamports : Balances Owner) : SwapState :=
  ⟨none, scad, lamports, ⟨0, .empty⟩⟩

variable {rentFloor}

theorem step_ok {s s' : SwapState} {a : Act} :
    step rentFloor s a = some s' ↔ exec rentFloor s a = .ok s' := by
  unfold step
  split <;> simp_all

end Scadium.Programs.Swap
