/-
Scadium.Games.Jackpot.SettleRetry — what the engine publishes after a
settle that `withSerializable` had to retry.

The closure assigns variables of `settleRound`, and an abort rolls back the
database, not these. Each committed path assigns everything it publishes,
`didRefund` apart: the refund path sets it and no path resets it. So what
is published describes the attempt that committed, except when that attempt
drew after an aborted attempt had already entered the refund path.

The closure is `Blind`: what it does to the database does not depend on the
captured variables, so the committing attempt can be compared with the same
attempt run first.
-/
import Scadium.Games.Jackpot.SettleTheorems

namespace Scadium.Games.Jackpot

open Scadium.Lib Scadium.Prisma

section Retry

variable {deps : Deps} {inp : SettleInput} {env : SettleEnv}

/-! ## The closure does not read what it captures -/

theorem creditPlayer_blind (d : Drawn) (betId : BetId) (userId : UserId) :
    Tx.Blind (creditPlayer d betId userId) := by
  unfold creditPlayer
  exact .ite (.bind (applyBalanceDelta_blind _ _ _) fun _ => .pure _) (.pure _)

theorem settlePlayer_blind (d : Drawn) (player : (UserId × PlayerInfo) × Nat) :
    Tx.Blind (settlePlayer deps inp env d player) := by
  obtain ⟨⟨_, _⟩, i⟩ := player
  exact .bind (.assign _) fun _ => .bind (.statement _) fun _ => .bind (.update _) fun _ =>
    .bind (accrue_blind _ _ _ _) fun _ => .bind (creditReferral_blind _ _ _ _) fun _ =>
      .bind (creditPlayer_blind _ _ _) fun _ => .update _

theorem refundPath_blind (entries : List EntryWithUser) :
    Tx.Blind (refundPath inp env entries) :=
  .bind (.assign _) fun _ => .bind (.statement _) fun _ =>
    .bind (assertRoundClaimed_blind _ _ _) fun _ =>
      .bind (.each (fun _ => .bind (applyBalanceDelta_blind _ _ _) fun _ => .pure _) _)
        fun _ => .statement _

theorem drawPath_blind (entries : List EntryWithUser) :
    Tx.Blind (drawPath deps inp env entries) := by
  unfold drawPath
  split
  · exact .throw _
  · exact .bind (.assign _) fun _ => .bind (.statement _) fun _ =>
      .bind (assertRoundClaimed_blind _ _ _) fun _ => .bind (.assign _) fun _ =>
        .bind (.each (settlePlayer_blind _) _) fun _ => .statement _

theorem settleTx_blind (deps : Deps) (inp : SettleInput) (env : SettleEnv) :
    Tx.Blind (settleTx deps inp env) :=
  .bind (assertStillLeader_blind _ _) fun _ => .bind (.query _) fun _ =>
    .bind (.assign _) fun _ => .ite (refundPath_blind _) (drawPath_blind _)

/-- An attempt that committed would have committed the same as the first. -/
theorem commits_alone {a : Tx.Attempt Db TxError SettleEnv} {w v : Captured} {db' : Db}
    (h : a.run (settleTx deps inp) w = (v, .ok ((), db'))) :
    ∃ v₀, a.run (settleTx deps inp) Captured.init = (v₀, .ok ((), db')) := by
  have hblind : (a.run (settleTx deps inp) Captured.init).2 = (a.run (settleTx deps inp) w).2 :=
    Tx.transact_blind (settleTx_blind deps inp a.env) _ _ _ _
  rw [h] at hblind
  exact ⟨_, Prod.ext rfl hblind⟩

/-! ## The refund flag -/

/-- An attempt enters the refund path: a leader that read the entries, of a
round to refund. -/
def reachesRefund (inp : SettleInput) (a : Tx.Attempt Db TxError SettleEnv) : Bool :=
  a.env.isLeader && (match a.failAt with | some (0, _) => false | _ => true) &&
    refunds inp (findEntries inp.roundId a.db)

/-- The draw path leaves the flag as it is. -/
theorem drawPath_keepsDidRefund (entries : List EntryWithUser) :
    Tx.KeepsVars (·.didRefund) (drawPath deps inp env entries) := by
  unfold drawPath
  split
  · exact .throw _
  · exact .bind (.assign fun _ => rfl) fun _ => .bind (.statement _) fun _ =>
      .bind (assertRoundClaimed_keepsVars _ _ _ _) fun _ => .bind (.assign fun _ => rfl) fun _ =>
        .bind (.each (settlePlayer_keepsVars (fun _ _ => rfl) _) _) fun _ => .statement _

/-- The refund path sets the flag, whatever happens next. -/
theorem refundPath_didRefund (entries : List EntryWithUser)
    (s : TxState Captured Db TxError) :
    (Tx.final ((refundPath inp env entries).run s)).vars.didRefund = true := by
  have hrest : Tx.KeepsVars (·.didRefund) (do
      let count ← claimRound inp.roundId fun r =>
        { r with status := .refunded, totalLamports := pot entries, drawnAt := some env.now }
      assertRoundClaimed count "jackpot" inp.roundId
      Tx.each (refundEntry inp) entries
      revealSeed inp env : DbTx Captured Unit) :=
    .bind (.statement _) fun _ => .bind (assertRoundClaimed_keepsVars _ _ _ _) fun _ =>
      .bind (.each (refundEntry_keepsVars _) _) fun _ => .statement _
  exact hrest { s with vars := { s.vars with didRefund := true } }

/-- The closure once the entries are read. -/
def settleEntries (deps : Deps) (inp : SettleInput) (env : SettleEnv)
    (entries : List EntryWithUser) : DbTx Captured Unit := do
  Tx.assign (·.setRead entries)
  if refunds inp entries then refundPath inp env entries
  else drawPath deps inp env entries

theorem settleTx_of_leader (h : env.isLeader = true) :
    settleTx deps inp env =
      Tx.query (findEntries inp.roundId) >>= settleEntries deps inp env := by
  have hlead : assertStillLeader env.isLeader "jackpot" = (pure () : DbTx Captured Unit) := by
    simp [assertStillLeader, h]
  unfold settleTx
  rw [hlead, pure_bind]
  rfl

theorem settleEntries_didRefund (entries : List EntryWithUser)
    (s : TxState Captured Db TxError) :
    (Tx.final ((settleEntries deps inp env entries).run s)).vars.didRefund =
      (s.vars.didRefund || refunds inp entries) := by
  unfold settleEntries
  rw [EStateM.run_bind, Tx.run_assign]
  cases hr : refunds inp entries with
  | true =>
    rw [Bool.or_true]
    exact refundPath_didRefund entries _
  | false =>
    rw [Bool.or_false]
    exact drawPath_keepsDidRefund entries _

/-- After an attempt the flag is what it was, or set if the attempt entered
the refund path. -/
theorem attempt_didRefund (a : Tx.Attempt Db TxError SettleEnv) (v : Captured) :
    (a.run (settleTx deps inp) v).1.didRefund = (v.didRefund || reachesRefund inp a) := by
  obtain ⟨_, failAt, env⟩ := a
  rw [Tx.Attempt.run, Tx.transact_vars]
  cases hl : env.isLeader with
  | false => simp [settleTx, assertStillLeader, hl, reachesRefund, Tx.final]
  | true =>
    simp only [settleTx_of_leader hl, reachesRefund, hl, Bool.true_and]
    -- what the environment does to the read of the entries
    rcases failAt with _ | ⟨_ | n, e⟩
    · exact settleEntries_didRefund _ _
    · show v.didRefund = (v.didRefund || false)
      rw [Bool.or_false]
    · exact settleEntries_didRefund _ _

/-- After some attempts. -/
theorem varsAfter_didRefund (attempts : List (Tx.Attempt Db TxError SettleEnv)) (v : Captured) :
    (Tx.varsAfter (settleTx deps inp) attempts v).didRefund =
      (v.didRefund || attempts.any (reachesRefund inp)) := by
  induction attempts generalizing v with
  | nil => simp [Tx.varsAfter]
  | cons a as ih => rw [Tx.varsAfter, ih, attempt_didRefund, List.any_cons, Bool.or_assoc]

/-! ## What is published -/

variable {chainEnabled : Bool}

/-- A published refund is not a published draw. -/
theorem publishRefunded_ne_publishDrawn (v w : Captured) :
    publishRefunded inp v ≠ publishDrawn deps chainEnabled inp w := by
  intro h
  have hhead := congrArg List.head? h
  simp [publishRefunded, publishDrawn] at hhead

/-- What a settle from `w` publishes is what the same settle publishes when it
runs first, unless it draws with the flag already set. -/
theorem publish_eq_iff {v v₀ w : Captured} {db db' : Db} {failAt : Option (Nat × TxError)}
    (h : Tx.transact (settleTx deps inp env) w db failAt = (v, .ok ((), db')))
    (h₀ : Tx.transact (settleTx deps inp env) Captured.init db failAt = (v₀, .ok ((), db'))) :
    publish deps chainEnabled inp v = publish deps chainEnabled inp v₀ ↔
      (refunds inp (findEntries inp.roundId db) = true ∨ w.didRefund = false) := by
  obtain ⟨t, hrun, -, rfl⟩ := Tx.transact_ok h
  obtain ⟨_, hrun₀, -, rfl⟩ := Tx.transact_ok h₀
  obtain ⟨-, _, -, -, hcase⟩ := settleTx_ok hrun
  obtain ⟨-, _, -, -, hcase₀⟩ := settleTx_ok hrun₀
  rcases hcase with href | ⟨winner, hdraw⟩ <;> rcases hcase₀ with href₀ | ⟨winner₀, hdraw₀⟩
  · refine iff_of_true ?_ (.inl href.refunds)
    rw [href.vars, href₀.vars]
    rfl
  · exact absurd (href.refunds.symm.trans hdraw₀.draws) (by decide)
  · exact absurd (href₀.refunds.symm.trans hdraw.draws) (by decide)
  · obtain rfl : winner = winner₀ := Option.some.inj (hdraw.found.symm.trans hdraw₀.found)
    rw [hdraw.vars, hdraw₀.vars]
    have hdraws : ¬ refunds inp (findEntries inp.roundId db) = true := by
      rw [hdraw.draws]
      decide
    cases hw : w.didRefund with
    | true =>
      refine iff_of_false ?_ (by simp [hdraws])
      simp only [publish, Captured.afterDraw, Captured.setDrawn, Captured.setRead, hw, if_true]
      exact publishRefunded_ne_publishDrawn _ _
    | false =>
      refine iff_of_true ?_ (.inr rfl)
      simp only [Captured.afterDraw, Captured.setDrawn, Captured.setRead, hw]
      rfl

/-- What the engine publishes after a retried settle committed in attempt
`n` is what that attempt publishes when nothing came before it, exactly when
the attempt refunds or no aborted attempt had entered the refund path. -/
theorem publish_describes_commit {next : Nat → Tx.Attempt Db TxError SettleEnv}
    {attempts : Nat} {v : Captured} {db' : Db}
    (h : withSerializable (settleTx deps inp) next attempts Captured.init =
      (v, some (.ok ((), db')))) :
    ∃ n v₀, n < attempts ∧
      Tx.AllAborted isRetryable (settleTx deps inp) ((List.range n).map next) Captured.init ∧
      (next n).run (settleTx deps inp) Captured.init = (v₀, .ok ((), db')) ∧
      (publish deps chainEnabled inp v = publish deps chainEnabled inp v₀ ↔
        (refunds inp (findEntries inp.roundId (next n).db) = true ∨
          ∀ i < n, reachesRefund inp (next i) = false)) := by
  obtain ⟨n, hn, haborted, hlast⟩ := Tx.retrying_ok h
  rw [← List.range_eq_range', Nat.zero_add] at hlast
  rw [← List.range_eq_range'] at haborted
  obtain ⟨v₀, hfirst⟩ := commits_alone hlast
  have hflag : (Tx.varsAfter (settleTx deps inp) ((List.range n).map next)
      Captured.init).didRefund = false ↔ ∀ i < n, reachesRefund inp (next i) = false := by
    rw [varsAfter_didRefund]
    simp [Captured.init]
  refine ⟨n, v₀, hn, haborted, hfirst, ?_⟩
  rw [← hflag]
  exact publish_eq_iff hlast hfirst

end Retry

/-! ## A sample retry -/

namespace Sample

/-- A conflicting write, as Prisma reports it. -/
def conflict : TxError := .prisma "P2034" none "Transaction failed due to a write conflict"

/-- The first attempt sees one entry and is aborted at its claim; a second
player's entry is what it conflicted with. -/
def attempt : Nat → Tx.Attempt Db TxError SettleEnv
  | 0 => ⟨db [firstEntry], some (1, conflict), leader⟩
  | _ => ⟨db [firstEntry, secondEntry], none, leader⟩

theorem findEntries_first :
    findEntries 1 (db [firstEntry]) = [⟨1, 10000000, some "ada", "wallet-of-ada"⟩] := rfl

theorem findEntries_both :
    findEntries 1 (db [firstEntry, secondEntry]) =
      [⟨1, 10000000, some "ada", "wallet-of-ada"⟩, ⟨2, 20000000, some "bob", "wallet-of-bob"⟩] := rfl

theorem attempt_aborts : ∃ w,
    (attempt 0).run (settleTx deps input) Captured.init = (w, .error conflict) ∧
      w.didRefund = true := by
  have hrefunds : refunds input (findEntries 1 (db [firstEntry])) = true := by
    rw [findEntries_first]
    decide
  refine ⟨{ Captured.init.setRead (findEntries 1 (db [firstEntry])) with didRefund := true },
    ?_, rfl⟩
  have hrun : (settleTx deps input leader).run
      ⟨Captured.init, db [firstEntry], some (1, conflict)⟩ =
        (settleEntries deps input leader (findEntries 1 (db [firstEntry]))).run
          ⟨Captured.init, db [firstEntry], some (0, conflict)⟩ := by
    rw [settleTx_of_leader rfl]
    rfl
  rw [settleEntries, hrefunds, if_pos rfl] at hrun
  unfold attempt Tx.Attempt.run Tx.transact
  simp only [EStateM.run_bind, hrun]
  rfl

/-- The second attempt commits, from any captured variables. -/
theorem attempt_commits (w : Captured) : ∃ v db',
    (attempt 1).run (settleTx deps input) w = (v, .ok ((), db')) := by
  have hpos : ∀ e ∈ findEntries 1 (db [firstEntry, secondEntry]), 0 < e.amountLamports := by
    rw [findEntries_both]
    decide
  have husers : ∀ e ∈ findEntries 1 (db [firstEntry, secondEntry]),
      ∃ row, (db [firstEntry, secondEntry]).users e.userId = some row := by
    rw [findEntries_both]
    intro e he
    simp only [List.mem_cons, List.not_mem_nil, or_false] at he
    rcases he with rfl | rfl <;> exact ⟨_, rfl⟩
  have hsettles : Tx.Succeeds (fun db' => db' = db [firstEntry, secondEntry])
      (settleTx deps input leader) fun _ _ => True :=
    settleTx_succeeds rfl hpos ⟨husers, _, rfl⟩ ⟨openRound, rfl, rfl⟩
  obtain ⟨v, _, db', hcommit, -⟩ := hsettles.transact rfl w
  exact ⟨v, db', hcommit⟩

/-- Together: the retried settle. -/
theorem retry_commits : ∃ w v db',
    w.didRefund = true ∧ (attempt 1).run (settleTx deps input) w = (v, .ok ((), db')) ∧
      withSerializable (settleTx deps input) attempt 5 Captured.init =
        (v, some (.ok ((), db'))) := by
  obtain ⟨w, haborts, hflag⟩ := attempt_aborts
  obtain ⟨v, db', hcommit⟩ := attempt_commits w
  refine ⟨w, v, db', hflag, hcommit, ?_⟩
  have hretry : isRetryable conflict = true := by decide
  simp [withSerializable, Tx.retrying, haborts, hretry, hcommit]

end Sample

/-- The aborted attempt saw one player and the committed one two: a refund is
published for a round that was drawn. -/
theorem publish_describes_aborted :
    ∃ v v₀ db', withSerializable (settleTx Sample.deps Sample.input) Sample.attempt 5
        Captured.init = (v, some (.ok ((), db'))) ∧
      (Sample.attempt 1).run (settleTx Sample.deps Sample.input) Captured.init =
        (v₀, .ok ((), db')) ∧
      publish Sample.deps false Sample.input v ≠ publish Sample.deps false Sample.input v₀ ∧
      Effect.roundStatus .refunded ∈ publish Sample.deps false Sample.input v ∧
      ∃ row, db'.jackpotRounds 1 = some row ∧ row.status = .drawn := by
  obtain ⟨w, v, db', hflag, hcommit, hretried⟩ := Sample.retry_commits
  obtain ⟨v₀, hfirst⟩ := commits_alone hcommit
  have hdraws : ¬ refunds Sample.input
      (findEntries 1 (Sample.db [Sample.firstEntry, Sample.secondEntry])) = true := by
    rw [Sample.findEntries_both]
    decide
  have hpublished : v.didRefund = true := by
    have hkept : ((Sample.attempt 1).run (settleTx Sample.deps Sample.input) w).1.didRefund =
        (w.didRefund || reachesRefund Sample.input (Sample.attempt 1)) := attempt_didRefund _ w
    rw [hcommit, hflag] at hkept
    exact hkept
  refine ⟨v, v₀, db', hretried, hfirst, ?_, ?_, ?_⟩
  · rw [Ne, publish_eq_iff hcommit hfirst, hflag]
    exact fun h => h.elim hdraws (by decide)
  · simp [publish, hpublished, publishRefunded]
  · obtain ⟨t, hrun, rfl, -⟩ := Tx.transact_ok hcommit
    obtain ⟨-, _, -, -, hrefunded | ⟨_, hdrawn⟩⟩ := settleTx_ok hrun
    · exact absurd hrefunded.refunds hdraws
    · exact ⟨_, by rw [hdrawn.rounds]; exact Function.update_self .., rfl⟩

/-- The same retry, for the theorem. -/
theorem publish_describes_commit_sample :
    ∃ v, ∃ n v₀, n < 5 ∧
      (publish Sample.deps false Sample.input v = publish Sample.deps false Sample.input v₀ ↔
        (refunds Sample.input (findEntries 1 (Sample.attempt n).db) = true ∨
          ∀ i < n, reachesRefund Sample.input (Sample.attempt i) = false)) := by
  obtain ⟨w, v, _, -, -, hcommit⟩ := Sample.retry_commits
  obtain ⟨n, v₀, hn, -, -, hiff⟩ := publish_describes_commit hcommit
  exact ⟨v, n, v₀, hn, hiff⟩

end Scadium.Games.Jackpot
