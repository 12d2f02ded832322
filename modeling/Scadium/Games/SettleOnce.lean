/-
Scadium.Games.SettleOnce — a round of crash, of the jackpot or of the
lottery is settled at most once.

An attempt is one run of one of the four settle transactions, by any leader
or former leader, timer, retry or recovery pass, with whatever that caller
holds in memory; the environment may abort it at any statement. Attempts
run one after the other in any order and number: serializable transactions
are equivalent to that, and an abort or a restart leaves nothing behind.
Every path claims the round by a guarded update before it credits anyone,
so the rounds are pools (`Lib.Pool`) that a committed attempt closes.

The rows are otherwise as the attempts leave them: `beginRun`'s write of
`running` to a crash round, which asks for no status, is none of the attempts
and no part of these runs (`Games.Crash.System` has it among its events).

`Attempt` and `exec` say what an attempt is and does; `Claimed` is what a
committed one has written, one lemma a game; the last section carries that
through a list of attempts.
-/
import Scadium.Games.Crash.Settle
import Scadium.Games.Jackpot.SettleTheorems
import Scadium.Games.Lottery.Settle
import Scadium.Lib.Pool

namespace Scadium.Games.SettleOnce

open Scadium.Lib Scadium.Prisma

/-! ## Attempts -/

/-- What one attempt runs with. -/
inductive Attempt where
  | crash (env : Crash.SettleEnv) (round : Crash.Round) (entropy : Option Bytes32)
      (bets : List Crash.LiveBet)
  | crashRecovery (env : Crash.SettleEnv) (round : Crash.StrandedRound) (bets : List CrashBet)
  | jackpot (env : Jackpot.SettleEnv) (inp : Jackpot.SettleInput) (vars : Jackpot.Captured)
  | lottery (env : Lottery.SettleEnv) (inp : Lottery.SettleInput) (vars : Lottery.Captured)

/-- A round of one of the three games. -/
abbrev GameRound := GameType × RoundId

def Attempt.round : Attempt → GameRound
  | .crash _ round _ _ => (.crash, round.id)
  | .crashRecovery _ round _ => (.crash, round.id)
  | .jackpot _ inp _ => (.jackpot, inp.roundId)
  | .lottery _ inp _ => (.lottery, inp.drawId)

/-- The attempt's transaction on a database. -/
def Attempt.transact (deps : Deps) (db : Db) (failAt : Option (Nat × TxError)) :
    Attempt → Except TxError (Unit × Db)
  | .crash env round entropy bets =>
      (Tx.transact (Crash.settleTx deps env round entropy bets) () db failAt).2
  | .crashRecovery env round bets =>
      (Tx.transact (Crash.recoverTx deps env round bets) () db failAt).2
  | .jackpot env inp vars => (Tx.transact (Jackpot.settleTx deps inp env) vars db failAt).2
  | .lottery env inp vars => (Tx.transact (Lottery.settleTx deps inp env) vars db failAt).2

/-- A committed attempt, with the database before and after it. -/
structure Commit where
  round : GameRound
  before : Db
  after : Db

structure State where
  db : Db
  commits : List Commit

def step (deps : Deps) (st : State) (e : Attempt × Option (Nat × TxError)) : Option State :=
  match e.1.transact deps st.db e.2 with
  | .ok (_, db') => some ⟨db', ⟨e.1.round, st.db, db'⟩ :: st.commits⟩
  | .error _ => some st

/-! ## A commit closes its round -/

/-- The rounds whose row is terminal. -/
def terminalRounds (db : Db) : Set GameRound
  | (.crash, r) => ∃ row, db.crashRounds r = some row ∧ row.status = .busted
  | (.jackpot, r) => ∃ row, db.jackpotRounds r = some row ∧ row.status ≠ .open
  | (.lottery, r) => ∃ row, db.lotteryDraws r = some row ∧ row.status ≠ .open

@[simp] theorem mem_terminalRounds_crash {db : Db} {r : RoundId} :
    (.crash, r) ∈ terminalRounds db ↔
      ∃ row, db.crashRounds r = some row ∧ row.status = .busted := Iff.rfl

@[simp] theorem mem_terminalRounds_jackpot {db : Db} {r : RoundId} :
    (.jackpot, r) ∈ terminalRounds db ↔
      ∃ row, db.jackpotRounds r = some row ∧ row.status ≠ .open := Iff.rfl

@[simp] theorem mem_terminalRounds_lottery {db : Db} {r : RoundId} :
    (.lottery, r) ∈ terminalRounds db ↔
      ∃ row, db.lotteryDraws r = some row ∧ row.status ≠ .open := Iff.rfl

/-- The round was not terminal, and it is the one that is now. -/
structure Closes (round : GameRound) (db db' : Db) : Prop where
  isOpen : round ∉ terminalRounds db
  closed : terminalRounds db' = insert round (terminalRounds db)

/-- The three round tables. -/
def crashAndJackpot (db : Db) := (db.crashRounds, db.jackpotRounds)
def crashAndLottery (db : Db) := (db.crashRounds, db.lotteryDraws)
def jackpotAndLottery (db : Db) := (db.jackpotRounds, db.lotteryDraws)

variable {deps : Deps} {db db' : Db}

theorem closes_crash {r : RoundId} (h : Crash.Claims r db db')
    (hothers : jackpotAndLottery db' = jackpotAndLottery db) : Closes (.crash, r) db db' := by
  obtain ⟨_, _, hrow, hopen, hbusted, hrounds⟩ := h
  obtain ⟨hjackpot, hlottery⟩ := Prod.mk.inj hothers
  refine ⟨?_, ?_⟩
  · simp [hrow, hopen]
  · ext ⟨game, r'⟩
    cases game with
    | crash =>
      by_cases hr : r' = r
      · simp [hr, hrounds, hbusted]
      · simp [hr, hrounds]
    | jackpot => simp [hjackpot]
    | lottery => simp [hlottery]

theorem closes_jackpot {r : RoundId} {row row' : JackpotRound}
    (hrow : db.jackpotRounds r = some row) (hopen : row.status = .open)
    (hclosed : row'.status ≠ .open)
    (hrounds : db'.jackpotRounds = Function.update db.jackpotRounds r (some row'))
    (hothers : crashAndLottery db' = crashAndLottery db) : Closes (.jackpot, r) db db' := by
  obtain ⟨hcrash, hlottery⟩ := Prod.mk.inj hothers
  refine ⟨?_, ?_⟩
  · simp [hrow, hopen]
  · ext ⟨game, r'⟩
    cases game with
    | crash => simp [hcrash]
    | jackpot =>
      by_cases hr : r' = r
      · simp [hr, hrounds, hclosed]
      · simp [hr, hrounds]
    | lottery => simp [hlottery]

theorem closes_lottery {r : RoundId} {row row' : LotteryDraw}
    (hrow : db.lotteryDraws r = some row) (hopen : row.status = .open)
    (hclosed : row'.status ≠ .open)
    (hdraws : db'.lotteryDraws = Function.update db.lotteryDraws r (some row'))
    (hothers : crashAndJackpot db' = crashAndJackpot db) : Closes (.lottery, r) db db' := by
  obtain ⟨hcrash, hjackpot⟩ := Prod.mk.inj hothers
  refine ⟨?_, ?_⟩
  · simp [hrow, hopen]
  · ext ⟨game, r'⟩
    cases game with
    | crash => simp [hcrash]
    | jackpot => simp [hjackpot]
    | lottery =>
      by_cases hr : r' = r
      · simp [hr, hdraws, hclosed]
      · simp [hr, hdraws]

/-- Each of the four transactions claims its round. -/
theorem attempt_closes {attempt : Attempt} {failAt : Option (Nat × TxError)} {u : Unit}
    (h : attempt.transact deps db failAt = .ok (u, db')) : Closes attempt.round db db' := by
  cases attempt with
  | crash =>
    obtain ⟨t, hrun, rfl⟩ := Tx.transact_snd_ok h
    exact closes_crash (Crash.settleTx_claims hrun).2
      (Crash.settleTx_keeps (p := jackpotAndLottery) (fun _ _ _ _ _ => rfl) (fun _ _ => rfl)
        (fun _ _ => rfl) (fun _ _ => rfl) (fun _ _ => rfl) _ _ _ _ _ _ hrun)
  | crashRecovery =>
    obtain ⟨t, hrun, rfl⟩ := Tx.transact_snd_ok h
    exact closes_crash (Crash.recoverTx_claims hrun)
      (Crash.recoverTx_keeps (p := jackpotAndLottery) (fun _ _ _ _ _ => rfl) (fun _ _ => rfl)
        (fun _ _ => rfl) (fun _ _ => rfl) (fun _ _ => rfl) _ _ _ _ _ hrun)
  | jackpot =>
    obtain ⟨t, hrun, rfl⟩ := Tx.transact_snd_ok h
    have hothers := Jackpot.settleTx_keeps (p := crashAndLottery) (fun _ _ _ _ _ _ => rfl)
      (fun _ _ => rfl) (fun _ _ => rfl) _ _ _ hrun
    obtain ⟨-, row, hrow, hopen, hrefunded | ⟨_, hdrawn⟩⟩ := Jackpot.settleTx_ok hrun
    · exact closes_jackpot hrow hopen (by simp [Jackpot.refundedRow]) hrefunded.rounds hothers
    · exact closes_jackpot hrow hopen (by simp [Jackpot.drawnRow]) hdrawn.rounds hothers
  | lottery =>
    obtain ⟨t, hrun, rfl⟩ := Tx.transact_snd_ok h
    have hothers := Lottery.settleTx_keeps (p := crashAndJackpot) (fun _ _ _ _ _ => rfl)
      (fun _ _ => rfl) (fun _ _ => rfl) (fun _ _ => rfl) (fun _ _ => rfl) _ _ _ hrun
    obtain ⟨_, hrow, hopen, hdraws⟩ := (Lottery.settleTx_ok hrun).2.claimed
    exact closes_lottery hrow hopen (by simp [Lottery.drawnRow]) hdraws hothers

/-! ## Runs of attempts -/

variable {st st' : State}

/-- A losing attempt changes nothing; a committed one closes its round. -/
inductive Stepped (st : State) : State → Prop
  | lost : Stepped st st
  | committed {round : GameRound} {db' : Db} (h : Closes round st.db db') :
      Stepped st ⟨db', ⟨round, st.db, db'⟩ :: st.commits⟩

theorem step_cases {e : Attempt × Option (Nat × TxError)} (h : step deps st e = some st') :
    Stepped st st' := by
  unfold step at h
  split at h
  case h_1 u db' hcommit =>
    cases h
    exact .committed (attempt_closes hcommit)
  case h_2 =>
    cases h
    exact .lost

/-- The rounds as pools nobody joins. -/
def pools (st : State) : Pool.State GameRound GameRound where
  closed := terminalRounds st.db
  members := ∅
  closings := st.commits.map fun c => (c.round, ∅)

theorem step_simulates (deps : Deps) : Pool.Simulates (step deps) id pools := by
  intro st e st' h
  cases step_cases h with
  | lost => exact .skip _
  | committed hcloses =>
    have hclose : Pool.Step id _ _ := Pool.Step.close (pools st) _ hcloses.isOpen
    simpa [pools, hcloses.closed] using hclose

/-- The database is the start changed by the commits, one after the other. -/
def Chained (start : Db) : List Commit → Db → Prop
  | [], db => db = start
  | c :: cs, db => c.after = db ∧ Chained start cs c.before

theorem step_chained {start : Db} {e : Attempt × Option (Nat × TxError)}
    (hst : Chained start st.commits st.db) (h : step deps st e = some st') :
    Chained start st'.commits st'.db := by
  cases step_cases h with
  | lost => exact hst
  | committed => exact ⟨rfl, hst⟩

/-- Whatever the order of the attempts and wherever they abort: the database
is the start changed by the committed attempts, at most one of them for each
round, and an attempt on a terminal round changes nothing. -/
theorem settled_at_most_once {start : Db} {attempts : List (Attempt × Option (Nat × TxError))}
    (hrun : run (step deps) ⟨start, []⟩ attempts = some st) :
    Chained start st.commits st.db ∧
    (st.commits.map Commit.round).Nodup ∧
    (∀ c ∈ st.commits, c.round ∈ terminalRounds st.db) ∧
    ∀ attempt failAt, attempt.round ∈ terminalRounds st.db →
      step deps st (attempt, failAt) = some st := by
  have hinv : Pool.Inv id (pools st) :=
    (step_simulates deps).inv (Pool.Inv.init (s := pools ⟨start, []⟩) rfl (by simp [pools])) hrun
  have hstart : Chained start (State.mk start []).commits (State.mk start []).db := rfl
  have hchained : Chained start st.commits st.db :=
    run_invariant (P := fun st => Chained start st.commits st.db)
      (fun _ _ _ => step_chained) hstart hrun
  refine ⟨hchained, ?_, ?_, ?_⟩
  · have honce := hinv.once
    simpa [pools, Function.comp_def] using honce
  · intro c hc
    exact hinv.closed (c.round, ∅) (List.mem_map_of_mem hc)
  · intro attempt failAt hterminal
    unfold step
    split
    case h_1 u db' hcommit => exact absurd hterminal (attempt_closes hcommit).isOpen
    case h_2 => rfl

/-- A leader and a stale leader settle the same round. -/
theorem settled_at_most_once_sample :
    let attempts : List (Attempt × Option (Nat × TxError)) :=
      [(.jackpot Jackpot.Sample.leader Jackpot.Sample.input Jackpot.Captured.init, none),
        (.jackpot Jackpot.Sample.leader Jackpot.Sample.input Jackpot.Captured.init, none)]
    ∃ st, run (step Jackpot.Sample.deps)
        ⟨Jackpot.Sample.db [Jackpot.Sample.firstEntry], []⟩ attempts = some st ∧
      (st.commits.map Commit.round).Nodup := by
  intro attempts
  obtain ⟨st, hst⟩ : ∃ st, run (step Jackpot.Sample.deps)
      ⟨Jackpot.Sample.db [Jackpot.Sample.firstEntry], []⟩ attempts = some st := by
    have htotal : ∀ st e, ∃ st', step Jackpot.Sample.deps st e = some st' := by
      intro st e
      unfold step
      split
      · exact ⟨_, rfl⟩
      · exact ⟨_, rfl⟩
    obtain ⟨st₁, h₁⟩ := htotal ⟨Jackpot.Sample.db [Jackpot.Sample.firstEntry], []⟩
      (.jackpot Jackpot.Sample.leader Jackpot.Sample.input Jackpot.Captured.init, none)
    obtain ⟨st₂, h₂⟩ := htotal st₁
      (.jackpot Jackpot.Sample.leader Jackpot.Sample.input Jackpot.Captured.init, none)
    exact ⟨st₂, run_cons_eq_some.mpr ⟨st₁, h₁, run_cons_eq_some.mpr ⟨st₂, h₂, rfl⟩⟩⟩
  exact ⟨st, hst, (settled_at_most_once hst).2.1⟩

end Scadium.Games.SettleOnce
