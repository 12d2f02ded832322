/-
Scadium.Rewards.Service — the reward claims of a user
(`apps/api/src/rewards/rewards.service.ts`, with `claimReward` and
`claimDividend` of `solana/chain.service.ts`).

A claim reserves what has accrued and leaves a pending row. An attempt reads
the row and the user, sends a transfer, and when it has an answer it confirms
the row or counts a failure, in a transaction of its own. `claim` and
`claimDividend` are Serializable, so each is one step. `openDailyCase` runs at
Read Committed: its check is one step and its commit another. A transfer lands
at any time after it was sent, whatever its attempt has been told, unless its
claim record exists already.

A request that is refused changes nothing and is no step. An attempt or an
open that dies goes no further. `opens` and `transfers` record what has
happened; no step reads them. Left out: idempotency keys, the roll of the daily
case (its prize is an answer) and what a claim's row shows of it.

`Books` is what the steps change of the claims, of the totals cashback is
computed from and of the cooldown of the daily case; balances and the chain
are left aside there.
-/
import Scadium.Lib.Table
import Scadium.Queue.Periods
import Scadium.Shared.Constants

namespace Scadium.Rewards

open Scadium.Lib Scadium.Queue Scadium.Shared
open Scadium.Prisma (Time)

abbrev ClaimId := Nat
abbrev Wallet := Nat

def MAX_CLAIM_ATTEMPTS : Nat := 5

/-- The kinds that are claimed through the service. -/
inductive RewardKind where
  | wagerReward | cashback | dailyCase | dividend
  deriving DecidableEq

inductive ClaimStatus where
  | pending | confirmed | failed | offchain
  deriving DecidableEq

/-- What the service reads and writes of a `User`. -/
structure Account where
  walletAddress : Wallet
  scadiumBalance : Int
  scadiumReserved : Int
  usdsBalance : Int
  usdsReserved : Int
  totalLost : Nat
  cashbackBaselineLost : Nat
  lastDailyCaseAt : Option Time
  deriving DecidableEq

/-- A row of `RewardClaim`. -/
structure RewardClaim where
  kind : RewardKind
  period : Nat
  amountScad : Nat
  status : ClaimStatus
  attempts : Nat
  deriving DecidableEq

/-- What `attemptChainClaim` has read. -/
structure Attempt where
  claimId : ClaimId
  claim : RewardClaim
  totalLost : Nat
  deriving DecidableEq

/-- A transfer that was sent to the chain. -/
structure Transfer where
  claimId : ClaimId
  walletAddress : Wallet
  kind : RewardKind
  period : Nat
  amount : Nat
  deriving DecidableEq

/-- The seeds of its claim record. -/
def Transfer.record (t : Transfer) : Wallet × RewardKind × Nat :=
  (t.walletAddress, t.kind, t.period)

/-- `openDailyCase` behind its check: its own time, and the one it has read. -/
structure CaseCheck where
  now : Time
  last : Time
  deriving DecidableEq

/-- A daily case that was opened. -/
structure Opened where
  claimId : ClaimId
  now : Time
  deriving DecidableEq

structure State where
  chainEnabled : Bool
  user : Account
  claims : Table ClaimId RewardClaim
  cases : Table Nat CaseCheck
  attempts : Table Nat Attempt
  /-- what was sent and has not landed, by the attempt that sent it -/
  sent : Table Nat Transfer
  records : List (Wallet × RewardKind × Nat)
  /-- the ids given out so far -/
  drawn : Nat
  opens : List Opened
  transfers : List Transfer

/-- A new user. -/
def State.init (chainEnabled : Bool) (walletAddress : Wallet) : State where
  chainEnabled := chainEnabled
  user := ⟨walletAddress, 0, 0, 0, 0, 0, 0, none⟩
  claims := .empty
  cases := .empty
  attempts := .empty
  sent := .empty
  records := []
  drawn := 0
  opens := []
  transfers := []

inductive Action where
  /-- the process starts with this configuration -/
  | configure (chainEnabled : Bool)
  /-- a settled bet -/
  | lose (amount : Nat)
  /-- proof of wager -/
  | accrue (amount : Nat)
  /-- a distribution -/
  | distribute (amount : Nat)
  | setPrimaryWallet (address : Wallet)
  /-- `claim`, `claimDividend` -/
  | claim (kind : RewardKind) (now : Time)
  /-- `now` is the time of the request, `clock` that of the check -/
  | checkDailyCase (now clock : Time)
  | openDailyCase (id : Nat) (prize : Nat)
  | startAttempt (claimId : ClaimId)
  | land (id : Nat)
  /-- the attempt is answered, with a signature or without -/
  | finishAttempt (id : Nat) (signed : Bool)
  deriving DecidableEq

/-! ## Accounts -/

def cashbackAccrued (totalLost baseline : Nat) : Nat :=
  if totalLost ≤ baseline then 0
  else (totalLost - baseline) * SCAD.CASHBACK_PER_LAMPORT_LOST

namespace Account

variable (u : Account)

/-- What a claim of the kind is for, and the user once it is reserved. -/
def reserve : RewardKind → Option (Nat × Account)
  | .wagerReward =>
      if u.scadiumBalance ≤ 0 then none
      else
        let amount := u.scadiumBalance.toNat
        some (amount, { u with
          scadiumBalance := u.scadiumBalance - amount
          scadiumReserved := u.scadiumReserved + amount })
  | .dividend =>
      if u.usdsBalance ≤ 0 then none
      else
        let amount := u.usdsBalance.toNat
        some (amount, { u with
          usdsBalance := u.usdsBalance - amount
          usdsReserved := u.usdsReserved + amount })
  | .cashback =>
      let amount := cashbackAccrued u.totalLost u.cashbackBaselineLost
      if amount ≤ 0 then none else some (amount, u)
  | .dailyCase => none

/-- The debit of a confirmed claim. -/
def finalize (claim : RewardClaim) (totalLost : Nat) : Account :=
  match claim.kind with
  | .wagerReward => { u with scadiumReserved := u.scadiumReserved - claim.amountScad }
  | .cashback => { u with cashbackBaselineLost := totalLost }
  | .dividend => { u with usdsReserved := u.usdsReserved - claim.amountScad }
  | .dailyCase => u

/-- The reserve of a failed claim goes back. -/
def restore (claim : RewardClaim) : Account :=
  match claim.kind with
  | .wagerReward => { u with
      scadiumReserved := u.scadiumReserved - claim.amountScad
      scadiumBalance := u.scadiumBalance + claim.amountScad }
  | .dividend => { u with
      usdsReserved := u.usdsReserved - claim.amountScad
      usdsBalance := u.usdsBalance + claim.amountScad }
  | .cashback | .dailyCase => u

end Account

/-! ## Steps -/

namespace State

variable (s : State)

def hasPending (kind : RewardKind) : Bool :=
  (s.claims.find fun _ c => c.kind == kind && c.status == .pending).isSome

/-- `rewardClaim.create`, with `@@unique([userId, kind, period])`. -/
def createClaim (kind : RewardKind) (period amount : Nat) (status : ClaimStatus) : Option State :=
  if (s.claims.find fun _ c => c.kind == kind && c.period == period).isSome then none
  else some { s with
    claims := s.claims.set s.drawn ⟨kind, period, amount, status, 0⟩
    drawn := s.drawn + 1 }

def claim (kind : RewardKind) (now : Time) : Option State :=
  if !s.chainEnabled || s.hasPending kind then none
  else
    match s.user.reserve kind with
    | none => none
    | some (amount, user) => { s with user := user }.createClaim kind now amount .pending

/-- Up to the check of the cooldown. -/
def checkDailyCase (now clock : Time) : Option State :=
  let last := s.user.lastDailyCaseAt.getD 0
  if clock < last + DAY_MS then none
  else some { s with
    cases := s.cases.set s.drawn ⟨now, last⟩
    drawn := s.drawn + 1 }

/-- The rest of it; the period is the request's UTC day. -/
def openDailyCase (id prize : Nat) : Option State :=
  match s.cases.get id with
  | none => none
  | some case_ =>
      ({ s with
        user := { s.user with lastDailyCaseAt := some case_.now }
        cases := s.cases.erase id
        opens := ⟨s.drawn, case_.now⟩ :: s.opens }).createClaim .dailyCase
          (dayPeriod case_.now) prize (if s.chainEnabled then .pending else .offchain)

/-- The transfer of a claim, to the wallet the user has now. -/
def transferOf (claimId : ClaimId) (claim : RewardClaim) : Transfer :=
  ⟨claimId, s.user.walletAddress, claim.kind, claim.period, claim.amountScad⟩

def startAttempt (claimId : ClaimId) : Option State :=
  match s.claims.get claimId with
  | none => none
  | some claim =>
      if !s.chainEnabled || claim.status != .pending then none
      else some { s with
        attempts := s.attempts.set s.drawn ⟨claimId, claim, s.user.totalLost⟩
        sent := s.sent.set s.drawn (s.transferOf claimId claim)
        drawn := s.drawn + 1 }

/-- The program pays and creates the claim record. -/
def land (id : Nat) : Option State :=
  match s.sent.get id with
  | none => none
  | some transfer =>
      if transfer.record ∈ s.records then none
      else some { s with
        sent := s.sent.erase id
        records := transfer.record :: s.records
        transfers := transfer :: s.transfers }

/-- The attempt has its signature: pending to confirmed, once. -/
def confirm (attempt : Attempt) (row : RewardClaim) : State :=
  if row.status = .pending then
    { s with
      claims := s.claims.set attempt.claimId { row with status := .confirmed }
      user := s.user.finalize attempt.claim attempt.totalLost }
  else s

/-- It has none: one more attempt, or pending to failed, once. -/
def fail (attempt : Attempt) (row : RewardClaim) : State :=
  let attempts := attempt.claim.attempts + 1
  if attempts < MAX_CLAIM_ATTEMPTS then
    { s with claims := s.claims.set attempt.claimId { row with attempts := attempts } }
  else if row.status = .pending then
    { s with
      claims := s.claims.set attempt.claimId { row with status := .failed, attempts := attempts }
      user := s.user.restore attempt.claim }
  else s

/-- A signature is only given for a transfer that has landed. -/
def finishAttempt (id : Nat) (signed : Bool) : Option State :=
  match s.attempts.get id with
  | none => none
  | some attempt =>
      match s.claims.get attempt.claimId with
      | none => none
      | some row =>
          let s := { s with attempts := s.attempts.erase id }
          if signed then
            if (s.sent.get id).isSome then none else some (s.confirm attempt row)
          else some (s.fail attempt row)

end State

def step (s : State) : Action → Option State
  | .configure chainEnabled => some { s with chainEnabled := chainEnabled }
  | .lose amount => some { s with user := { s.user with totalLost := s.user.totalLost + amount } }
  | .accrue amount =>
      some { s with user := { s.user with scadiumBalance := s.user.scadiumBalance + amount } }
  | .distribute amount =>
      some { s with user := { s.user with usdsBalance := s.user.usdsBalance + amount } }
  | .setPrimaryWallet address => some { s with user := { s.user with walletAddress := address } }
  | .claim kind now => s.claim kind now
  | .checkDailyCase now clock => s.checkDailyCase now clock
  | .openDailyCase id prize => s.openDailyCase id prize
  | .startAttempt claimId => s.startAttempt claimId
  | .land id => s.land id
  | .finishAttempt id signed => s.finishAttempt id signed

/-! # The books -/

/-- What matters of a state here. -/
structure Books where
  claims : Table ClaimId RewardClaim
  attempts : Table Nat Attempt
  cases : Table Nat CaseCheck
  opens : List Opened
  totalLost : Nat
  baseline : Nat
  last : Option Time
  drawn : Nat

def State.books (s : State) : Books where
  claims := s.claims
  attempts := s.attempts
  cases := s.cases
  opens := s.opens
  totalLost := s.user.totalLost
  baseline := s.user.cashbackBaselineLost
  last := s.user.lastDailyCaseAt
  drawn := s.drawn

/-- The row of a daily case. -/
def CaseCheck.claim (c : CaseCheck) (prize : Nat) (status : ClaimStatus) : RewardClaim :=
  ⟨.dailyCase, dayPeriod c.now, prize, status, 0⟩

/-- The steps, as the books see them. -/
inductive Moves (b : Books) : Action → Books → Prop where
  | same (a : Action) (ha : ∀ id signed, a ≠ .finishAttempt id signed)
      (ho : ∀ id prize, a ≠ .openDailyCase id prize) : Moves b a b
  | lose (n : Nat) : Moves b (.lose n) { b with totalLost := b.totalLost + n }
  | create (kind : RewardKind) (now : Time) (amount : Nat)
      (hfirst : ∀ id c, b.claims.get id = some c → ¬ (c.kind = kind ∧ c.status = .pending))
      (hcase : kind ≠ .dailyCase)
      (hcashback : kind = .cashback → amount = cashbackAccrued b.totalLost b.baseline) :
      Moves b (.claim kind now)
        { b with
          claims := b.claims.set b.drawn ⟨kind, now, amount, .pending, 0⟩
          drawn := b.drawn + 1 }
  | check (now clock : Time) (hclock : b.last.getD 0 + DAY_MS ≤ clock) :
      Moves b (.checkDailyCase now clock)
        { b with cases := b.cases.set b.drawn ⟨now, b.last.getD 0⟩, drawn := b.drawn + 1 }
  | openCase (id prize : Nat) (c : CaseCheck) (status : ClaimStatus)
      (hget : b.cases.get id = some c) (hstatus : status = .pending ∨ status = .offchain) :
      Moves b (.openDailyCase id prize)
        { b with
          claims := b.claims.set b.drawn (c.claim prize status)
          cases := b.cases.erase id
          opens := ⟨b.drawn, c.now⟩ :: b.opens
          last := some c.now
          drawn := b.drawn + 1 }
  | start (id : ClaimId) (c : RewardClaim) (hget : b.claims.get id = some c)
      (hpending : c.status = .pending) :
      Moves b (.startAttempt id)
        { b with attempts := b.attempts.set b.drawn ⟨id, c, b.totalLost⟩, drawn := b.drawn + 1 }
  | skip (i : Nat) (a : Attempt) (row : RewardClaim) (signed : Bool)
      (ha : b.attempts.get i = some a) (hrow : b.claims.get a.claimId = some row)
      (hfinal : row.status ≠ .pending) :
      Moves b (.finishAttempt i signed) { b with attempts := b.attempts.erase i }
  | keep (i : Nat) (a : Attempt) (row row' : RewardClaim)
      (ha : b.attempts.get i = some a) (hrow : b.claims.get a.claimId = some row)
      (hkind : row'.kind = row.kind) (hamount : row'.amountScad = row.amountScad)
      (hstatus : row'.status = row.status ∨
        row.status = .pending ∧ row'.status = .failed ∧ MAX_CLAIM_ATTEMPTS ≤ a.claim.attempts + 1) :
      Moves b (.finishAttempt i false)
        { b with attempts := b.attempts.erase i, claims := b.claims.set a.claimId row' }
  | confirm (i : Nat) (a : Attempt) (row : RewardClaim)
      (ha : b.attempts.get i = some a) (hrow : b.claims.get a.claimId = some row)
      (hpending : row.status = .pending) :
      Moves b (.finishAttempt i true)
        { b with
          attempts := b.attempts.erase i
          claims := b.claims.set a.claimId { row with status := .confirmed }
          baseline := if a.claim.kind = .cashback then a.totalLost else b.baseline }

section Effects

variable {s s' : State}

theorem createClaim_books {kind : RewardKind} {period amount : Nat} {status : ClaimStatus}
    (h : s.createClaim kind period amount status = some s') :
    s'.books = { s.books with
      claims := s.claims.set s.drawn ⟨kind, period, amount, status, 0⟩, drawn := s.drawn + 1 } := by
  unfold State.createClaim at h
  split at h
  · cases h
  · cases h
    rfl

/-- A reserve leaves the losses alone; for cashback it is what has accrued. -/
theorem reserve_spec {u u' : Account} {kind : RewardKind} {amount : Nat}
    (h : u.reserve kind = some (amount, u')) :
    u'.totalLost = u.totalLost ∧ u'.cashbackBaselineLost = u.cashbackBaselineLost ∧
      u'.lastDailyCaseAt = u.lastDailyCaseAt ∧ kind ≠ .dailyCase ∧
      (kind = .cashback → amount = cashbackAccrued u.totalLost u.cashbackBaselineLost) := by
  cases kind with
  | wagerReward | dividend =>
    simp only [Account.reserve] at h
    split at h
    · cases h
    · cases h
      exact ⟨rfl, rfl, rfl, nofun, nofun⟩
  | cashback =>
    simp only [Account.reserve] at h
    split at h
    · cases h
    · cases h
      exact ⟨rfl, rfl, rfl, nofun, fun _ => rfl⟩
  | dailyCase => cases h

theorem hasPending_eq_false {kind : RewardKind} (h : s.hasPending kind = false) {id : ClaimId}
    {c : RewardClaim} (hget : s.claims.get id = some c) :
    ¬ (c.kind = kind ∧ c.status = .pending) := by
  have hnone : s.claims.find (fun _ c => c.kind == kind && c.status == .pending) = none := by
    simpa [State.hasPending] using h
  have hc := (Table.find_none _).mp hnone id c hget
  simpa using hc

theorem claim_moves {kind : RewardKind} {now : Time} (h : s.claim kind now = some s') :
    Moves s.books (.claim kind now) s'.books := by
  unfold State.claim at h
  split at h
  · cases h
  · rename_i hguard
    have hpending : s.hasPending kind = false := by
      simp only [Bool.or_eq_true, not_or] at hguard
      simpa using hguard.2
    split at h
    · cases h
    · rename_i amount user hreserve
      obtain ⟨hlost, hbase, hlast, hcase, hamount⟩ := reserve_spec hreserve
      rw [createClaim_books h]
      have hmove := Moves.create (b := s.books) kind now amount
        (fun id c hget => hasPending_eq_false hpending hget) hcase hamount
      simpa [State.books, hlost, hbase, hlast] using hmove

theorem openDailyCase_moves {id prize : Nat} (h : s.openDailyCase id prize = some s') :
    Moves s.books (.openDailyCase id prize) s'.books := by
  unfold State.openDailyCase at h
  split at h
  · cases h
  · rename_i c hcase
    rw [createClaim_books h]
    refine Moves.openCase (b := s.books) id prize c _ hcase ?_
    cases s.chainEnabled with
    | false => exact .inr rfl
    | true => exact .inl rfl

theorem finishAttempt_moves {id : Nat} {signed : Bool}
    (h : s.finishAttempt id signed = some s') :
    Moves s.books (.finishAttempt id signed) s'.books := by
  unfold State.finishAttempt at h
  split at h
  · cases h
  rename_i a ha
  split at h
  · cases h
  rename_i row hrow
  cases signed with
  | true =>
    simp only [if_true] at h
    split at h
    · cases h
    cases h
    unfold State.confirm
    split
    · rename_i hpending
      have hbase : (s.user.finalize a.claim a.totalLost).cashbackBaselineLost =
          if a.claim.kind = .cashback then a.totalLost else s.user.cashbackBaselineLost := by
        unfold Account.finalize
        cases a.claim.kind <;> rfl
      have hrest : (s.user.finalize a.claim a.totalLost).totalLost = s.user.totalLost ∧
          (s.user.finalize a.claim a.totalLost).lastDailyCaseAt = s.user.lastDailyCaseAt := by
        unfold Account.finalize
        cases a.claim.kind <;> exact ⟨rfl, rfl⟩
      have hmove := Moves.confirm (b := s.books) id a row ha hrow hpending
      simpa [State.books, hbase, hrest] using hmove
    · rename_i hfinal
      exact .skip (b := s.books) id a row true ha hrow hfinal
  | false =>
    simp only [Bool.false_eq_true, if_false] at h
    cases h
    unfold State.fail
    dsimp only
    split
    · exact .keep (b := s.books) id a row _ ha hrow rfl rfl (.inl rfl)
    · rename_i hmax
      split
      · rename_i hpending
        have hsame : (s.user.restore a.claim).cashbackBaselineLost = s.user.cashbackBaselineLost ∧
            (s.user.restore a.claim).totalLost = s.user.totalLost ∧
            (s.user.restore a.claim).lastDailyCaseAt = s.user.lastDailyCaseAt := by
          unfold Account.restore
          cases a.claim.kind <;> exact ⟨rfl, rfl, rfl⟩
        have hmove := Moves.keep (b := s.books) id a row
          { row with status := .failed, attempts := a.claim.attempts + 1 } ha hrow rfl rfl
          (.inr ⟨hpending, rfl, Nat.le_of_not_lt hmax⟩)
        simpa [State.books, hsame] using hmove
      · rename_i hfinal
        exact .skip (b := s.books) id a row false ha hrow hfinal

theorem step_moves {a : Action} (h : step s a = some s') : Moves s.books a s'.books := by
  cases a with
  | configure | accrue | distribute | setPrimaryWallet =>
    cases h
    exact .same _ nofun nofun
  | lose amount =>
    cases h
    exact .lose amount
  | claim => exact claim_moves h
  | checkDailyCase now clock =>
    simp only [step, State.checkDailyCase] at h
    split at h
    · cases h
    · rename_i hclock
      cases h
      exact .check now clock (Nat.le_of_not_lt hclock)
  | openDailyCase => exact openDailyCase_moves h
  | startAttempt claimId =>
    simp only [step, State.startAttempt] at h
    split at h
    · cases h
    · rename_i claim hget
      split at h
      · cases h
      · rename_i hguard
        simp only [Bool.or_eq_true, not_or] at hguard
        cases h
        exact .start claimId claim hget (by simpa using hguard.2)
  | land =>
    simp only [step, State.land] at h
    split at h
    · cases h
    · split at h
      · cases h
      · cases h
        exact .same _ nofun nofun
  | finishAttempt => exact finishAttempt_moves h

end Effects

end Scadium.Rewards
