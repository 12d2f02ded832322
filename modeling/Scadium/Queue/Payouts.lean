/-
Scadium.Queue.Payouts — the payouts of a period happen once.

Block mining, dividend distribution and vault accrual run side by side, in
any number of runs each, for any periods; a run is killed between any two of
its steps, or its transaction fails, and another one may come. Each job
guards its period in the transaction that pays: what it pays for the period
changes only while the period is open, and closes it.
-/
import Scadium.Engine.Payouts
import Scadium.Vault.Rounds

namespace Scadium.Queue.Payouts

open Scadium.Lib Scadium.Lib.Calls Scadium.Prisma Scadium.Engine
open Scadium.Vault (VaultSystem VaultPool PoolId)

/-! ## The jobs side by side -/

structure State where
  blocks : System BlockMining.State BlockMining.Call
  dividends : System Distribution.State Distribution.Call
  vault : VaultSystem

inductive Event where
  | blocks (e : Calls.Event BlockMining.Call BlockMining.Answer)
  | dividends (e : Calls.Event Distribution.Call Distribution.Answer)
  | vault (act : Vault.Act)

def step (s : State) : Event → Option State
  | .blocks e => (BlockMining.service.next s.blocks e).map fun blocks => { s with blocks := blocks }
  | .dividends e =>
      (Distribution.service.next s.dividends e).map fun dividends =>
        { s with dividends := dividends }
  | .vault act => (Vault.step s.vault act).map fun vault => { s with vault := vault }

/-- Nothing was paid yet. -/
def State.initial (db : Db) (pools : Table PoolId VaultPool) : State :=
  ⟨.boot .initial, .boot .initial, .initial db pools⟩

inductive Job where
  | blockMining | dividendDistribution | vaultAccrual
  deriving DecidableEq

/-! ## Payouts -/

/-- The step pays for the period: it adds rows of it, or credits pools. -/
def Pays (job : Job) (q : Hour) (s : State) (e : Event) (s' : State) : Prop :=
  match job with
  | .blockMining => s'.blocks.data.rowsOf q ≠ s.blocks.data.rowsOf q
  | .dividendDistribution => s'.dividends.data.claimsOf q ≠ s.dividends.data.claimsOf q
  | .vaultAccrual => ∃ act, e = .vault act ∧ Vault.Accrues q s.vault act s'.vault

/-- The period is marked as settled. -/
def State.settled (s : State) (q : Hour) : Job → Bool
  | .blockMining => s.blocks.data.settled q
  | .dividendDistribution => s.dividends.data.settled q
  | .vaultAccrual => (s.vault.vault.round q).distributed

/-- Each recipient has one row for each period. -/
structure PaidOnce (s : State) : Prop where
  shares : (s.blocks.data.shares.map fun r => (r.period, r.userId)).Nodup
  bigRewards : (s.blocks.data.bigRewards.map fun r => (r.period, ())).Nodup
  claims : (s.dividends.data.claims.map fun r => (r.period, r.userId)).Nodup

/-- What the step of a job credits: to a user what its new rows say, to a pool
at most one credit. -/
def Matches (s : State) (s' : State) : Event → Prop
  | .blocks (.run id _) => ∀ call, s.blocks.calls.get id = some call → call.writesUser = false →
      BlockMining.PaidByRows s.blocks.data s'.blocks.data
  | .dividends (.run id _) => ∀ call, s.dividends.calls.get id = some call →
      call.writesUser = false → Distribution.PaidByRows s.dividends.data s'.dividends.data
  | .vault (.settle run) => ∀ period ngr pools,
      s.vault.runs.get run = some (.planned period ngr pools) →
        Vault.CreditedOnce s.vault.vault ngr pools s'.vault.vault
  | _ => True

/-! ## Steps -/

structure Inv (s : State) : Prop where
  blocks : BlockMining.payoutProtocol.Sound s.blocks
  dividends : Distribution.dividendProtocol.Sound s.dividends
  vault : Vault.Planned s.vault

variable {s s' : State} {e : Event}

theorem inv_initial (db : Db) (pools : Table PoolId VaultPool) : Inv (.initial db pools) where
  blocks := .boot _ BlockMining.payout_initial
  dividends := .boot _ Distribution.dividend_initial
  vault := Vault.planned_initial db pools

theorem Inv.step (hi : Inv s) (h : step s e = some s') : Inv s' := by
  cases e with
  | blocks =>
    obtain ⟨blocks, hnext, rfl⟩ := Option.map_eq_some_iff.mp h
    exact { hi with blocks := hi.blocks.next _ hnext }
  | dividends =>
    obtain ⟨dividends, hnext, rfl⟩ := Option.map_eq_some_iff.mp h
    exact { hi with dividends := hi.dividends.next _ hnext }
  | vault =>
    obtain ⟨vault, hnext, rfl⟩ := Option.map_eq_some_iff.mp h
    exact { hi with vault := Vault.planned_step hi.vault hnext }

/-- What a step of a service does to a flag of its data, and what it does only
while the flag is down. -/
theorem next_guarded {σ κ ν : Type} {service : Service σ κ ν} {t t' : System σ κ}
    {e : Calls.Event κ ν} (flag : σ → Bool) (does : σ → σ → Prop)
    (hsame : ∀ d, ¬ does d d)
    (hone : ∀ v call d r, service.step t.data v call = some (d, r) →
      (flag t.data = true → flag d = true) ∧ (does t.data d → flag t.data = false ∧ flag d = true))
    (h : service.next t e = some t') :
    (flag t.data = true → flag t'.data = true) ∧
      (does t.data t'.data → flag t.data = false ∧ flag t'.data = true) := by
  cases e with
  | start =>
    obtain ⟨-, -, rfl⟩ := next_start h
    exact ⟨fun hflag => hflag, fun hdoes => absurd hdoes (hsame _)⟩
  | kill =>
    cases h
    exact ⟨fun hflag => hflag, fun hdoes => absurd hdoes (hsame _)⟩
  | run id v =>
    obtain ⟨call, d, r, -, hstep, rfl⟩ := next_run h
    exact hone v call d r hstep

/-- A step keeps what is settled, and pays for a period only if it settles it. -/
theorem pays_guarded (hi : Inv s) (h : step s e = some s') (job : Job) (q : Hour) :
    (s.settled q job = true → s'.settled q job = true) ∧
      (Pays job q s e s' → s.settled q job = false ∧ s'.settled q job = true) := by
  cases e with
  | blocks =>
    obtain ⟨_, hnext, rfl⟩ := Option.map_eq_some_iff.mp h
    cases job with
    | blockMining =>
      refine next_guarded (fun a => a.settled q) (fun a a' => a'.rowsOf q ≠ a.rowsOf q)
        (fun _ hne => hne rfl) ?_ hnext
      intro v call a r hstep
      obtain ⟨hkeeps, hguards⟩ := BlockMining.step_guarded hi.blocks.inv.1 hstep
      exact ⟨hkeeps q, hguards q⟩
    | dividendDistribution => exact ⟨fun hold => hold, fun hne => absurd rfl hne⟩
    | vaultAccrual => exact ⟨fun hold => hold, fun ⟨_, hact, _⟩ => by cases hact⟩
  | dividends =>
    obtain ⟨_, hnext, rfl⟩ := Option.map_eq_some_iff.mp h
    cases job with
    | blockMining => exact ⟨fun hold => hold, fun hne => absurd rfl hne⟩
    | dividendDistribution =>
      refine next_guarded (fun a => a.settled q) (fun a a' => a'.claimsOf q ≠ a.claimsOf q)
        (fun _ hne => hne rfl) ?_ hnext
      intro v call a r hstep
      obtain ⟨hkeeps, hguards⟩ := Distribution.step_guarded hi.dividends.inv hstep
      exact ⟨hkeeps q, hguards q⟩
    | vaultAccrual => exact ⟨fun hold => hold, fun ⟨_, hact, _⟩ => by cases hact⟩
  | vault =>
    obtain ⟨_, hnext, rfl⟩ := Option.map_eq_some_iff.mp h
    cases job with
    | blockMining | dividendDistribution => exact ⟨fun hold => hold, fun hne => absurd rfl hne⟩
    | vaultAccrual =>
      refine ⟨Vault.rounds_step hi.vault hnext q, ?_⟩
      rintro ⟨_, hact, haccrues⟩
      cases hact
      exact Vault.accrues_guarded hi.vault hnext haccrues

theorem step_matches (hi : Inv s) (h : step s e = some s') : Matches s s' e := by
  cases e with
  | blocks e =>
    obtain ⟨_, hnext, rfl⟩ := Option.map_eq_some_iff.mp h
    cases e with
    | run =>
      intro call hcall hwrites
      obtain ⟨call', d, r, hcall', hstep, rfl⟩ := next_run hnext
      cases hcall.symm.trans hcall'
      exact BlockMining.step_paidByRows hwrites hstep
    | start => trivial
    | kill => trivial
  | dividends e =>
    obtain ⟨_, hnext, rfl⟩ := Option.map_eq_some_iff.mp h
    cases e with
    | run =>
      intro call hcall hwrites
      obtain ⟨_, d, r, hcall', hstep, rfl⟩ := next_run hnext
      cases hcall.symm.trans hcall'
      exact Distribution.step_paidByRows hwrites hstep
    | start => trivial
    | kill => trivial
  | vault act =>
    obtain ⟨_, hnext, rfl⟩ := Option.map_eq_some_iff.mp h
    cases act with
    | settle =>
      intro period ngr pools hrun
      exact Vault.settles_once hi.vault hrun hnext
    | _ => trivial

/-! ## Runs -/

/-- In every run of the three jobs: for each job and period at most one step
pays; each recipient has one row for the period; and what a step credits is
what its new rows say, or one credit for a pool. -/
theorem payouts_once {db : Db} {pools : Table PoolId VaultPool} {es : List Event}
    (hrun : run step (.initial db pools) es = some s) :
    (∀ job q, AtMostOnce step (Pays job q) (.initial db pools) es) ∧ PaidOnce s ∧
      ∀ e s', step s e = some s' → Matches s s' e := by
  have hi : Inv s :=
    run_invariant (fun _ _ _ hi h => Inv.step hi h) (inv_initial db pools) hrun
  refine ⟨?_, ?_, fun e s' h => step_matches hi h⟩
  · intro job q
    refine guarded_once (P := Inv) (fun s => s.settled q job = true)
      (fun _ _ _ hi h => hi.step h) (fun _ _ _ hi h => (pays_guarded hi h job q).1) ?_
      (inv_initial db pools)
    intro s e s' hi h hpays
    obtain ⟨hopen, hsettled⟩ := (pays_guarded hi h job q).2 hpays
    exact ⟨by simp [hopen], hsettled⟩
  · exact ⟨hi.blocks.inv.2.shares, hi.blocks.inv.2.bigRewards, hi.dividends.inv.distinct⟩

namespace Sample

def pools : Table PoolId VaultPool :=
  Table.empty.set 1 ⟨30, 1000000000, 1000000000, Shared.VAULT.INITIAL_INDEX_RAY, 1000, 0, true⟩

/-- One step of each of the calls. -/
def blocks (ids : List Nat) : List Event :=
  ids.map fun id => .blocks (.run id ⟨[(1, 1000)], 7, false⟩)

def dividends (failed : Bool) : List Event :=
  .dividends (.start 1 .distribute) ::
    List.replicate 4 (.dividends (.run 1 ⟨1000000000, failed⟩))

/-- Two runs of block mining that overlap, a dividend run that fails and is
repeated, and two accrual runs that both read the round before one settles
it; all for the hour 3. -/
def hour : List Event :=
  .blocks (.start 0 (.writeUser 1 ⟨0, 0⟩)) :: blocks [0] ++
    .blocks (.start 0 (.tick 14400000)) :: blocks [0] ++
    .blocks (.start 1 .mineBlock) :: .blocks (.start 2 .mineBlock) ::
    blocks [1, 1, 1, 2, 1, 2, 2, 2, 1, 2] ++
    .dividends (.start 0 (.writeUser 1 ⟨500, 0⟩)) :: .dividends (.run 0 ⟨0, false⟩) ::
    .dividends (.start 0 (.tick 14400000)) :: .dividends (.run 0 ⟨0, false⟩) ::
    dividends true ++ dividends false ++
    [.vault (.accrue 5 3), .vault (.accrue 6 3), .vault (.findRound 5), .vault (.findRound 6),
      .vault (.aggregate 5 125000), .vault (.aggregate 6 125000), .vault (.findPools 5),
      .vault (.findPools 6), .vault (.settle 6), .vault (.settle 5)]

end Sample

theorem payouts_once_hour : ∃ s, run step (.initial Db.empty Sample.pools) Sample.hour = some s ∧
    s.blocks.data.shares.length = 1 ∧ s.dividends.data.claims.length = 1 ∧
    s.vault.vault.events.length = 1 ∧
    AtMostOnce step (Pays .vaultAccrual 3) (.initial Db.empty Sample.pools) Sample.hour := by
  have hsome : ((run step (.initial Db.empty Sample.pools) Sample.hour).any fun s =>
      decide (s.blocks.data.shares.length = 1 ∧ s.dividends.data.claims.length = 1 ∧
        s.vault.vault.events.length = 1)) = true := by decide +kernel
  obtain ⟨s, hs, h⟩ := (Option.any_eq_true _ _).mp hsome
  obtain ⟨hshares, hclaims, hevents⟩ := of_decide_eq_true h
  exact ⟨s, hs, hshares, hclaims, hevents, (payouts_once hs).1 .vaultAccrual 3⟩

end Scadium.Queue.Payouts
