/-
Scadium.Games.Crash.SettleTheorems — what a committed settle of a crash
round wrote, for the live settle and for the recovery alike.

Three readings of the database carry the accounting of the stakes:
`stakeNet`, what a user's stakes and refunds on a round add up to in the
ledger; `betAmounts`, the stakes of the user's Bet rows of the round; and
`rowKeys`, the durable rows without what a cash-out changes. A settle keeps
the first and the third and adds one Bet row for each bet it settles.
-/
import Scadium.Games.Crash.Engine

namespace Scadium.Games.Crash

open Scadium.Lib Scadium.Prisma

/-! ## The readings -/

/-- A posting of a stake on the round, or of the refund of one. -/
def isStake (r : RoundId) (u : UserId) (p : Posting) : Bool :=
  p.userId == u && p.refType == "CrashRound" && p.refId == some r &&
    (p.reason == "crash_bet" || p.reason == "refund")

def netOf (r : RoundId) (u : UserId) (ps : List Posting) : Int :=
  ((ps.filter (isStake r u)).map (·.delta)).sum

/-- What the user's stakes and refunds on the round add up to. -/
def stakeNet (db : Db) (r : RoundId) (u : UserId) : Int :=
  netOf r u (db.ledger.map (·.posting))

/-- The round a Bet row settles. -/
def settledRound : ResultJson → Option RoundId
  | .crash r .. => some r
  | .crashRecovered r .. => some r
  | _ => none

/-- The stakes of the user's Bet rows of the round, newest first. -/
def betAmounts (db : Db) (r : RoundId) (u : UserId) : List Nat :=
  (db.bets.filter fun b => b.userId == u && settledRound b.resultJson == some r).map
    (·.amountLamports)

/-- Whose row it is, on which round, of which stake. -/
structure RowKey where
  id : EntryId
  roundId : RoundId
  userId : UserId
  amountLamports : Nat
  deriving DecidableEq

def rowKey (b : CrashBet) : RowKey := ⟨b.id, b.roundId, b.userId, b.amountLamports⟩

def rowKeys (db : Db) : List RowKey := db.crashBets.map rowKey

/-- The three together, for what leaves all of them alone. -/
def readings (db : Db) := (rowKeys db, betAmounts db, stakeNet db)

theorem netOf_append (r : RoundId) (u : UserId) (ps qs : List Posting) :
    netOf r u (ps ++ qs) = netOf r u ps + netOf r u qs := by
  simp [netOf]

theorem stakeNet_posts {ps : List Posting} {db db' : Db} (h : Posts ps db db') (r : RoundId)
    (u : UserId) : stakeNet db' r u = netOf r u ps + stakeNet db r u := by
  simp only [stakeNet, h.ledger, netOf_append]

theorem readings_eq {db db' : Db} (hrows : rowKeys db' = rowKeys db) (hbets : db'.bets = db.bets)
    (hnet : stakeNet db' = stakeNet db) : readings db' = readings db := by
  have hamounts : betAmounts db' = betAmounts db := by
    funext r u
    simp only [betAmounts, hbets]
  simp only [readings, hrows, hamounts, hnet]

/-- A movement that is neither a stake nor the refund of one. -/
theorem applyBalanceDelta_readings {u : UserId} {delta : Int} {info : DeltaMeta}
    (hinfo : info.reason ≠ "crash_bet" ∧ info.reason ≠ "refund") :
    Tx.Keeps readings (applyBalanceDelta u delta info : DbTx Unit Int) := by
  intro s a t h
  have hkeeps : crashTables t.db = crashTables s.db :=
    applyBalanceDelta_keeps (p := crashTables) (fun _ _ _ => rfl) _ _ _ _ _ _ h
  simp only [crashTables, Prod.mk.injEq] at hkeeps
  obtain ⟨-, hrows, hbets⟩ := hkeeps
  refine readings_eq (by simp only [rowKeys, hrows]) hbets ?_
  funext r u'
  rw [stakeNet_posts (applyBalanceDelta_posts h)]
  simp [netOf, isStake, DeltaMeta.posting, hinfo.1, hinfo.2]

/-! ## What a settle adds -/

/-- The stakes of one user among those settled. -/
def stakesOf (paid : List (UserId × Nat)) (u : UserId) : List Nat :=
  (paid.filter (·.1 == u)).map (·.2)

@[simp] theorem stakesOf_append (ps qs : List (UserId × Nat)) (u : UserId) :
    stakesOf (ps ++ qs) u = stakesOf ps u ++ stakesOf qs u := by
  simp [stakesOf]

/-- Bets settled on round `r`, for these users and stakes. -/
structure Settles (r : RoundId) (paid : List (UserId × Nat)) (db db' : Db) : Prop where
  rows : rowKeys db' = rowKeys db
  net : stakeNet db' = stakeNet db
  own : ∀ u, betAmounts db' r u = (stakesOf paid u).reverse ++ betAmounts db r u
  others : ∀ r' u, r' ≠ r → betAmounts db' r' u = betAmounts db r' u

namespace Settles

variable {r : RoundId} {paid qaid : List (UserId × Nat)} {a b c : Db}

theorem of_readings (h : readings b = readings a) : Settles r [] a b := by
  simp only [readings, Prod.mk.injEq] at h
  obtain ⟨hrows, hamounts, hnet⟩ := h
  exact ⟨hrows, hnet, by simp [hamounts, stakesOf], by simp [hamounts]⟩

theorem trans (h : Settles r paid a b) (h' : Settles r qaid b c) :
    Settles r (paid ++ qaid) a c where
  rows := h'.rows.trans h.rows
  net := h'.net.trans h.net
  own := by
    intro u
    rw [h'.own, h.own, stakesOf_append, List.reverse_append, List.append_assoc]
  others := by
    intro r' u hr
    rw [h'.others r' u hr, h.others r' u hr]

/-- One Bet row. -/
theorem createBet {bet : Bet} (hround : settledRound bet.resultJson = some r) (db : Db) :
    Settles r [(bet.userId, bet.amountLamports)] db (db.createBet bet) where
  rows := rfl
  net := rfl
  own := by
    intro u
    by_cases hu : bet.userId = u
    · simp [betAmounts, Db.createBet, stakesOf, hround, hu]
    · simp [betAmounts, Db.createBet, stakesOf, hu]
  others := by
    intro r' u hr
    have hne : ¬ r = r' := fun h => hr h.symm
    simp [betAmounts, Db.createBet, hround, hne]

end Settles

/-! ## The live settle -/

variable {deps : Deps} {env : SettleEnv} {s t : TxState Unit Db TxError} {u : Unit}

/-- There is a row of the user on the round. -/
def HasRow (db : Db) (r : RoundId) (u : UserId) : Prop :=
  ∃ k ∈ rowKeys db, k.roundId = r ∧ k.userId = u

/-- The `update` branch of the upsert keeps the keys of the rows. -/
theorem upsertCrashBet_readings {row : CrashBet} {db : Db}
    (hrow : HasRow db row.roundId row.userId) :
    readings (upsertCrashBet row db) = readings db := by
  obtain ⟨k, hk, hround, huser⟩ := hrow
  obtain ⟨b, hb, rfl⟩ := List.mem_map.mp hk
  have hany : db.crashBets.any (isBetOf row.roundId row.userId) = true :=
    List.any_eq_true.mpr ⟨b, hb, isBetOf_iff.mpr ⟨hround, huser⟩⟩
  rw [upsertCrashBet, if_pos hany]
  refine readings_eq ?_ rfl rfl
  simp only [rowKeys, List.map_map]
  refine List.map_congr_left ?_
  intro b' _
  simp only [Function.comp_apply]
  split
  · rfl
  · rfl

theorem updateUser_readings (u : UserId) (data : User → User) :
    Tx.Keeps readings (Tx.statement (·.updateUser u data) : DbTx Unit Unit) :=
  updateUser_keeps (fun _ _ => rfl) u data

theorem raiseBiggestWin_readings (u : UserId) (profit : Int) :
    Tx.Keeps readings (Tx.update (·.raiseBiggestWin u profit) : DbTx Unit Unit) :=
  raiseBiggestWin_keeps (fun _ _ => rfl) u profit

theorem accrue_readings (u : UserId) (stake : Nat) :
    Tx.Keeps readings (accrue deps env.now u stake : DbTx Unit Unit) :=
  accrue_keeps (fun _ _ => rfl) deps env.now u stake

theorem creditPayout_readings (bet : LiveBet) (betId : BetId) :
    Tx.Keeps readings (creditPayout bet betId) :=
  .ite (.bind (applyBalanceDelta_readings (by simp)) fun _ => .pure _) (.pure _)

theorem creditRecovered_readings (round : StrandedRound) (bet : CrashBet) :
    Tx.Keeps readings (creditRecovered round bet) :=
  .ite (.bind (applyBalanceDelta_readings (by simp)) fun _ => .pure _) (.pure _)

/-- One round of the loop settles one bet. -/
theorem settleBet_settles {round : Round} {entropy : Option Bytes32} {bet : LiveBet} {i : Nat}
    (hrow : HasRow s.db round.id bet.userId)
    (h : (settleBet deps env round entropy (bet, i)).run s = .ok u t) :
    Settles round.id [(bet.userId, bet.originalAmountLamports)] s.db t.db := by
  obtain ⟨_, s₁, hwager, h⟩ := Tx.bind_eq_ok.mp h
  obtain ⟨_, s₂, hraise, h⟩ := Tx.bind_eq_ok.mp h
  obtain ⟨_, s₃, haccrue, h⟩ := Tx.bind_eq_ok.mp h
  obtain ⟨_, s₄, hcredit, h⟩ := Tx.bind_eq_ok.mp h
  obtain ⟨_, s₅, hupsert, hcreate⟩ := Tx.bind_eq_ok.mp h
  have hpaid : readings s₄.db = readings s.db :=
    calc readings s₄.db
      _ = readings s₃.db := creditPayout_readings _ _ _ _ _ hcredit
      _ = readings s₂.db := accrue_readings _ _ _ _ _ haccrue
      _ = readings s₁.db := raiseBiggestWin_readings _ _ _ _ _ hraise
      _ = readings s.db := updateUser_readings _ _ _ _ _ hwager
  have hkeys : rowKeys s₄.db = rowKeys s.db := congrArg Prod.fst hpaid
  have hupserted : readings s₅.db = readings s₄.db := by
    rw [(Tx.update_ok hupsert).1]
    refine upsertCrashBet_readings ?_
    rw [HasRow, hkeys]
    exact hrow
  have hcreated : Settles round.id [(bet.userId, bet.originalAmountLamports)] s₅.db t.db := by
    rw [(Tx.update_ok hcreate).1]
    have hround : settledRound (bet.bet round entropy (env.randomUUID i)).resultJson =
        some round.id := rfl
    exact Settles.createBet hround _
  simpa using (Settles.of_readings (hupserted.trans hpaid)).trans hcreated

/-- What a claim and the reveal of the seed leave alone. -/
theorem claimRound_readings (roundId : RoundId) (data : CrashRound → CrashRound) :
    Tx.Keeps readings (claimRound roundId data) := claimRound_keeps (fun _ _ => rfl) roundId data

theorem revealSeed_readings (seedId : SeedId) (now : Time) :
    Tx.Keeps readings (revealSeed seedId now) := revealSeed_keeps (fun _ _ => rfl) seedId now

/-- The users and stakes of the bets in memory. -/
def livePaid (bets : List LiveBet) : List (UserId × Nat) :=
  bets.map fun b => (b.userId, b.originalAmountLamports)

/-- A committed live settle, of bets that have their rows. -/
theorem settleTx_settles {round : Round} {entropy : Option Bytes32} {bets : List LiveBet}
    (hrows : ∀ bet ∈ bets, HasRow s.db round.id bet.userId)
    (h : (settleTx deps env round entropy bets).run s = .ok u t) :
    Settles round.id (livePaid bets) s.db t.db := by
  obtain ⟨_, s₁, hleader, h⟩ := Tx.bind_eq_ok.mp h
  obtain ⟨_, _, hclaim, h⟩ := Tx.bind_eq_ok.mp h
  obtain ⟨_, s₃, hguard, h⟩ := Tx.bind_eq_ok.mp h
  obtain ⟨_, s₄, hloop, hreveal⟩ := Tx.bind_eq_ok.mp h
  obtain ⟨-, rfl⟩ := assertStillLeader_ok hleader
  obtain ⟨-, rfl⟩ := assertRoundClaimed_ok hguard
  have hclaimed : readings s₃.db = readings s₁.db := claimRound_readings _ _ _ _ _ hclaim
  have hkeys : rowKeys s₃.db = rowKeys s₁.db := congrArg Prod.fst hclaimed
  have hrevealed : readings t.db = readings s₄.db := revealSeed_readings _ _ _ _ _ hreveal
  have hsettled : Settles round.id (livePaid (bets.zipIdx.map (·.1))) s₃.db s₄.db := by
    refine Tx.each_prefix (P := fun past st => Settles round.id (livePaid (past.map (·.1)))
      s₃.db st.db) ?_ hloop (Settles.of_readings rfl)
    intro past bi st v st' hmem hbody hpast
    have hrow : HasRow st.db round.id bi.1.userId := by
      rw [HasRow, hpast.rows, hkeys]
      exact hrows bi.1 (List.fst_mem_of_mem_zipIdx hmem)
    simpa [livePaid] using hpast.trans (settleBet_settles hrow hbody)
  rw [List.zipIdx_map_fst] at hsettled
  simpa using ((Settles.of_readings hclaimed).trans hsettled).trans (Settles.of_readings hrevealed)

/-! ## The recovery -/

theorem updateCrashBet_readings (id : EntryId) {data : CrashBet → CrashBet}
    (hdata : ∀ b, rowKey (data b) = rowKey b) :
    Tx.Keeps readings (Tx.statement (updateCrashBet id data) : DbTx Unit Unit) := by
  refine .statement ?_
  intro db a db' h
  unfold updateCrashBet at h
  split at h
  · cases h
    refine readings_eq ?_ rfl rfl
    simp only [rowKeys, List.map_map]
    refine List.map_congr_left ?_
    intro b _
    simp only [Function.comp_apply]
    split
    · exact hdata b
    · rfl
  · cases h

theorem recoverBet_settles {round : StrandedRound} {bet : CrashBet} {i : Nat}
    (h : (recoverBet deps env round (bet, i)).run s = .ok u t) :
    Settles round.id [(bet.userId, bet.amountLamports)] s.db t.db := by
  obtain ⟨_, s₁, hcredit, h⟩ := Tx.bind_eq_ok.mp h
  obtain ⟨_, s₂, hupdate, h⟩ := Tx.bind_eq_ok.mp h
  obtain ⟨_, s₃, hwager, h⟩ := Tx.bind_eq_ok.mp h
  obtain ⟨_, s₄, hraise, h⟩ := Tx.bind_eq_ok.mp h
  obtain ⟨_, s₅, haccrue, hcreate⟩ := Tx.bind_eq_ok.mp h
  have hupdated : readings s₂.db = readings s₁.db := by
    refine updateCrashBet_readings _ ?_ _ _ _ hupdate
    intro b
    rfl
  have hpaid : readings s₅.db = readings s.db :=
    calc readings s₅.db
      _ = readings s₄.db := accrue_readings _ _ _ _ _ haccrue
      _ = readings s₃.db := raiseBiggestWin_readings _ _ _ _ _ hraise
      _ = readings s₂.db := updateUser_readings _ _ _ _ _ hwager
      _ = readings s₁.db := hupdated
      _ = readings s.db := creditRecovered_readings _ _ _ _ _ hcredit
  have hcreated : Settles round.id [(bet.userId, bet.amountLamports)] s₅.db t.db := by
    rw [(Tx.update_ok hcreate).1]
    have hround : settledRound (recoveredBet round bet (env.randomUUID i)).resultJson =
        some round.id := rfl
    exact Settles.createBet hround _
  simpa using (Settles.of_readings hpaid).trans hcreated

/-- The users and stakes of the rows. -/
def rowsPaid (bets : List CrashBet) : List (UserId × Nat) :=
  bets.map fun b => (b.userId, b.amountLamports)

/-- A committed recovery settles the rows that were read, whatever the table
holds by then. -/
theorem recoverTx_settles {round : StrandedRound} {bets : List CrashBet}
    (h : (recoverTx deps env round bets).run s = .ok u t) :
    Settles round.id (rowsPaid bets) s.db t.db := by
  obtain ⟨_, _, hclaim, h⟩ := Tx.bind_eq_ok.mp h
  obtain ⟨_, s₂, hguard, h⟩ := Tx.bind_eq_ok.mp h
  obtain ⟨_, s₃, hloop, hreveal⟩ := Tx.bind_eq_ok.mp h
  obtain ⟨-, rfl⟩ := assertRoundClaimed_ok hguard
  have hclaimed : readings s₂.db = readings s.db := claimRound_readings _ _ _ _ _ hclaim
  have hrevealed : readings t.db = readings s₃.db := revealSeed_readings _ _ _ _ _ hreveal
  have hsettled : Settles round.id (rowsPaid (bets.zipIdx.map (·.1))) s₂.db s₃.db := by
    refine Tx.each_prefix (P := fun past st => Settles round.id (rowsPaid (past.map (·.1)))
      s₂.db st.db) ?_ hloop (Settles.of_readings rfl)
    intro past bi st v st' _ hbody hpast
    simpa [rowsPaid] using hpast.trans (recoverBet_settles hbody)
  rw [List.zipIdx_map_fst] at hsettled
  simpa using ((Settles.of_readings hclaimed).trans hsettled).trans (Settles.of_readings hrevealed)

end Scadium.Games.Crash
