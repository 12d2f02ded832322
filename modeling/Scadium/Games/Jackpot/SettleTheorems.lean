/-
Scadium.Games.Jackpot.SettleTheorems — the money of a jackpot settle.

A committed settle posts, on the refund path, each entry back to its user,
and on the draw path one credit to the user of the entry whose range holds
the ticket. Both follow the loops of the closure: `refundEntry` posts one
row, `settlePlayer` posts a row for the winner and nothing for anyone else,
and the winner is one key of `byUser`. That an undisturbed settle of an
open round does commit is `settleTx_succeeds`, whose invariant is that the
users and the seed the closure writes still exist.
-/
import Scadium.Games.Jackpot.Settle
import Scadium.Prisma.Ledger

namespace Scadium.Games.Jackpot

open Scadium.Lib Scadium.Prisma Scadium.Fair Scadium.Shared

variable {deps : Deps} {inp : SettleInput} {env : SettleEnv}
variable {s t : TxState Captured Db TxError} {u : Unit}

/-! ## Single statements -/

/-- The claim of an open round, whatever it writes. -/
theorem claimRound_ok {roundId : RoundId} {data : JackpotRound → JackpotRound} {count : Nat}
    (h : (claimRound roundId data).run s = .ok count t) (hcount : count ≠ 0) :
    ∃ row, s.db.jackpotRounds roundId = some row ∧ row.status = .open ∧ t.vars = s.vars ∧
      t.db = { s.db with
        jackpotRounds := Function.update s.db.jackpotRounds roundId (some (data row)) } := by
  obtain ⟨hf, hv⟩ := Tx.statement_ok h
  simp only [Db.updateManyJackpotRound, Except.ok.injEq, Prod.mk.injEq] at hf
  obtain ⟨rfl, hdb⟩ := hf
  obtain ⟨row, hrow, hg, htable⟩ := claim_ok hcount
  refine ⟨row, hrow, by simpa using hg, hv, ?_⟩
  rw [← hdb, htable]

theorem revealSeed_quiet (h : (revealSeed inp env).run s = .ok u t) : Quiet s.db t.db := by
  refine Posts.of_keeps (.statement ?_) h
  intro db a db' hf
  obtain ⟨_, -, rfl⟩ := Db.updateSeed_ok hf
  rfl

/-- The posting of a refunded entry. -/
def refundPosting (inp : SettleInput) (e : EntryWithUser) : Posting :=
  ⟨e.userId, .jeton, e.amountLamports, "jackpot_refund", "JackpotRound", some inp.roundId⟩

theorem refundEntry_posts {e : EntryWithUser} (h : (refundEntry inp e).run s = .ok u t) :
    Posts [refundPosting inp e] s.db t.db := by
  obtain ⟨a, _, hmove, hret⟩ := Tx.bind_eq_ok.mp h
  obtain ⟨-, rfl⟩ := Tx.pure_eq_ok.mp hret
  exact applyBalanceDelta_posts hmove

/-- The posting of the winner's payout. -/
def payoutPosting (d : Drawn) (betId : BetId) : Posting :=
  ⟨d.winner.userId, .jeton, d.payout, "jackpot_settle", "Bet", some betId⟩

theorem creditPlayer_posts {d : Drawn} {betId : BetId} {userId : UserId}
    (h : (creditPlayer d betId userId).run s = .ok u t) :
    Posts (if userId = d.winner.userId ∧ 0 < d.payout then [payoutPosting d betId] else [])
      s.db t.db := by
  unfold creditPlayer at h
  split at h
  case isTrue hpos =>
    have hwin : userId = d.winner.userId := by
      by_contra hne
      simp [Drawn.credited, hne] at hpos
    subst hwin
    obtain ⟨a, _, hmove, hret⟩ := Tx.bind_eq_ok.mp h
    obtain ⟨-, rfl⟩ := Tx.pure_eq_ok.mp hret
    have hposts := applyBalanceDelta_posts hmove
    simp only [Drawn.credited, if_true] at hpos hposts
    rw [if_pos ⟨rfl, hpos⟩]
    exact hposts
  case isFalse hpos =>
    obtain ⟨-, rfl⟩ := Tx.pure_eq_ok.mp h
    rw [if_neg]
    · exact Posts.refl _
    · rintro ⟨rfl, hp⟩
      exact hpos (by simpa [Drawn.credited] using hp)

/-- One player: a credit for the winner, nothing for anyone else. -/
theorem settlePlayer_posts {d : Drawn} {userId : UserId} {info : PlayerInfo} {i : Nat}
    (h : (settlePlayer deps inp env d ((userId, info), i)).run s = .ok u t) :
    Posts (if userId = d.winner.userId ∧ 0 < d.payout
      then [payoutPosting d (env.randomUUID i)] else []) s.db t.db := by
  obtain ⟨_, s₁, hjob, h⟩ := Tx.bind_eq_ok.mp h
  obtain ⟨_, s₂, hstats, h⟩ := Tx.bind_eq_ok.mp h
  obtain ⟨_, s₃, hbiggest, h⟩ := Tx.bind_eq_ok.mp h
  obtain ⟨_, s₄, haccrue, h⟩ := Tx.bind_eq_ok.mp h
  obtain ⟨_, s₅, hreferral, h⟩ := Tx.bind_eq_ok.mp h
  obtain ⟨_, s₆, hcredit, hbet⟩ := Tx.bind_eq_ok.mp h
  have q₁ : Quiet s.db s₁.db := by
    cases Tx.assign_eq_ok.mp hjob
    exact Posts.refl _
  have q₂ : Quiet s₁.db s₂.db := by
    obtain ⟨hf, -⟩ := Tx.statement_ok hstats
    obtain ⟨user, hu, hdb⟩ := Db.updateUser_ok hf
    have hbal : ∀ user profit, (recordWager info.amount profit user).balance = user.balance :=
      fun _ _ => rfl
    exact Posts.of_user hu (fun user => hbal user _) hdb
  have q₃ : Quiet s₂.db s₃.db := by
    rw [(Tx.update_ok hbiggest).1]
    exact raiseBiggestWin_quiet _ _ _
  have q₄ : Quiet s₃.db s₄.db := Posts.of_keeps (accrue_keeps (fun _ _ => rfl) _ _ _ _) haccrue
  have q₅ : Quiet s₄.db s₅.db :=
    Posts.of_keeps (creditReferral_keeps (fun _ _ => rfl) _ _ _ _) hreferral
  have q₇ : Quiet s₆.db t.db := by
    rw [(Tx.update_ok hbet).1]
    exact Posts.of_eq rfl rfl
  have before : Quiet s.db s₅.db := q₁.trans_quiet q₂ |>.trans_quiet q₃ |>.trans_quiet q₄
    |>.trans_quiet q₅
  exact before.quiet_trans ((creditPlayer_posts hcredit).trans_quiet q₇)

/-! ## The loops -/

/-- The refund loop posts every entry back, the last one first. -/
theorem refundEntries_posts {entries : List EntryWithUser}
    (h : (Tx.each (refundEntry inp) entries).run s = .ok u t) :
    Posts (entries.reverse.map (refundPosting inp)) s.db t.db := by
  -- what is posted so far, against what is still to come
  have hloop := Tx.each_ok (P := fun rest st => ∃ done, entries = done ++ rest ∧
      Posts (done.reverse.map (refundPosting inp)) s.db st.db) ?_ h ⟨[], rfl, Posts.refl _⟩
  · obtain ⟨done, hdone, hposts⟩ := hloop
    rw [List.append_nil] at hdone
    rw [hdone]
    exact hposts
  · rintro e _ _ v _ hbody ⟨done, hdone, hposts⟩
    refine ⟨done ++ [e], by simp [hdone], ?_⟩
    have := hposts.trans (refundEntry_posts hbody)
    simpa using this

/-- The postings of a draw: one payout, unless it is zero. -/
def IsPayout (d : Drawn) (ps : List Posting) : Prop :=
  if 0 < d.payout then ∃ betId, ps = [payoutPosting d betId] else ps = []

/-- The loop over the players pays the winner once. -/
theorem settlePlayers_posts {d : Drawn} {players : List ((UserId × PlayerInfo) × Nat)}
    (hnodup : (players.map fun p => p.1.1).Nodup)
    (hmem : d.winner.userId ∈ players.map fun p => p.1.1)
    (h : (Tx.each (settlePlayer deps inp env d) players).run s = .ok u t) :
    ∃ ps, Posts ps s.db t.db ∧ IsPayout d ps := by
  -- the payout is posted exactly when the winner is no longer to come
  have hloop := Tx.each_ok (P := fun rest st => (rest.map fun p => p.1.1).Nodup ∧
      ∃ ps, Posts ps s.db st.db ∧
        if d.winner.userId ∈ rest.map fun p => p.1.1 then ps = [] else IsPayout d ps) ?_ h
    ⟨hnodup, [], Posts.refl _, by rw [if_pos hmem]⟩
  · obtain ⟨-, ps, hposts, hpay⟩ := hloop
    exact ⟨ps, hposts, by simpa using hpay⟩
  · rintro ⟨⟨userId, _⟩, i⟩ rest _ v _ hbody ⟨hnd, _, hposts, hps⟩
    obtain ⟨hnot, hnd'⟩ := List.nodup_cons.mp hnd
    have hstep := settlePlayer_posts hbody
    refine ⟨hnd', _, hposts.trans hstep, ?_⟩
    by_cases hwin : userId = d.winner.userId
    · have hgone : d.winner.userId ∉ rest.map fun p => p.1.1 := hwin ▸ hnot
      rw [if_pos (by simp [hwin])] at hps
      rw [if_neg hgone, hps, IsPayout]
      by_cases hpay : 0 < d.payout
      · simp [hwin, hpay]
      · simp [hpay]
    · simp only [List.map_cons, List.mem_cons, Ne.symm hwin, false_or] at hps
      simpa [hwin] using hps

/-! ## What the loops leave alone -/

/-- A part of the database the player and entry loops do not write. -/
def OffLoop {γ : Type} (p : Db → γ) : Prop :=
  ∀ (db : Db) users ledger bets referrals board,
    p { db with
      users := users, ledger := ledger, bets := bets, referrals := referrals,
      wagerLeaderboard := board } = p db

theorem creditPlayer_keeps {γ : Type} {p : Db → γ} (hp : OffLoop p) (d : Drawn) (betId : BetId)
    (userId : UserId) : Tx.Keeps p (creditPlayer d betId userId) := by
  unfold creditPlayer
  refine .ite (.bind (applyBalanceDelta_keeps (fun db users ledger => ?_) _ _ _) fun _ => .pure _)
    (.pure _)
  exact hp db users ledger db.bets db.referrals db.wagerLeaderboard

theorem settlePlayer_keeps {γ : Type} {p : Db → γ} (hp : OffLoop p) (d : Drawn)
    (player : (UserId × PlayerInfo) × Nat) :
    Tx.Keeps p (settlePlayer deps inp env d player) := by
  obtain ⟨⟨_, _⟩, i⟩ := player
  refine .bind (.assign _) fun _ => .bind (.statement ?_) fun _ => .bind (.update ?_) fun _ =>
    .bind (accrue_keeps ?_ _ _ _ _) fun _ => .bind (creditReferral_keeps ?_ _ _ _ _) fun _ =>
      .bind (creditPlayer_keeps hp _ _ _) fun _ => .update ?_
  · intro db a db' h
    obtain ⟨_, -, rfl⟩ := Db.updateUser_ok h
    exact hp db _ db.ledger db.bets db.referrals db.wagerLeaderboard
  · exact fun db => hp db _ db.ledger db.bets db.referrals db.wagerLeaderboard
  · exact fun db board => hp db db.users db.ledger db.bets db.referrals board
  · exact fun db rows => hp db db.users db.ledger db.bets rows db.wagerLeaderboard
  · exact fun db => hp db db.users db.ledger _ db.referrals db.wagerLeaderboard

theorem refundEntry_keeps {γ : Type} {p : Db → γ} (hp : OffLoop p) (e : EntryWithUser) :
    Tx.Keeps p (refundEntry inp e) :=
  .bind (applyBalanceDelta_keeps
    (fun db users ledger => hp db users ledger db.bets db.referrals db.wagerLeaderboard) _ _ _)
    fun _ => .pure _

theorem revealSeed_keeps {γ : Type} {p : Db → γ}
    (hp : ∀ (db : Db) seeds, p { db with seeds := seeds } = p db) :
    Tx.Keeps p (revealSeed inp env) := by
  refine .statement fun db a db' h => ?_
  obtain ⟨_, -, rfl⟩ := Db.updateSeed_ok h
  exact hp db _

/-! ## Captured variables -/

theorem creditPlayer_keepsVars {γ : Type} (q : Captured → γ) (d : Drawn) (betId : BetId)
    (userId : UserId) : Tx.KeepsVars q (creditPlayer d betId userId) := by
  unfold creditPlayer
  exact .ite (.bind (applyBalanceDelta_keepsVars _ _ _ _) fun _ => .pure _) (.pure _)

/-- The loop body assigns `settleJobs` and nothing else. -/
theorem settlePlayer_keepsVars {γ : Type} {q : Captured → γ}
    (hq : ∀ v jobs, q { v with settleJobs := jobs } = q v) (d : Drawn)
    (player : (UserId × PlayerInfo) × Nat) :
    Tx.KeepsVars q (settlePlayer deps inp env d player) := by
  obtain ⟨⟨_, _⟩, i⟩ := player
  exact .bind (.assign fun v => hq v _) fun _ => .bind (.statement _) fun _ =>
    .bind (.update _) fun _ => .bind (accrue_keepsVars _ _ _ _ _) fun _ =>
      .bind (creditReferral_keepsVars _ _ _ _ _) fun _ =>
        .bind (creditPlayer_keepsVars _ _ _ _) fun _ => .update _

theorem refundEntry_keepsVars {γ : Type} (q : Captured → γ) (e : EntryWithUser) :
    Tx.KeepsVars q (refundEntry inp e) :=
  .bind (applyBalanceDelta_keepsVars _ _ _ _) fun _ => .pure _

/-- The job of one player of the loop. -/
def jobOf (env : SettleEnv) (d : Drawn) : (UserId × PlayerInfo) × Nat → SettleJob
  | ((userId, info), i) => d.job (env.randomUUID i) userId info

theorem settlePlayer_vars {d : Drawn} {player : (UserId × PlayerInfo) × Nat}
    (h : (settlePlayer deps inp env d player).run s = .ok u t) :
    t.vars = { s.vars with settleJobs := s.vars.settleJobs ++ [jobOf env d player] } := by
  obtain ⟨⟨_, _⟩, i⟩ := player
  obtain ⟨_, _, hjob, h⟩ := Tx.bind_eq_ok.mp h
  cases Tx.assign_eq_ok.mp hjob
  refine Tx.KeepsVars.of_ok (q := id) ?_ h
  exact .bind (.statement _) fun _ => .bind (.update _) fun _ =>
    .bind (accrue_keepsVars _ _ _ _ _) fun _ => .bind (creditReferral_keepsVars _ _ _ _ _) fun _ =>
      .bind (creditPlayer_keepsVars _ _ _ _) fun _ => .update _

theorem settlePlayers_vars {d : Drawn} {players : List ((UserId × PlayerInfo) × Nat)}
    (h : (Tx.each (settlePlayer deps inp env d) players).run s = .ok u t) :
    t.vars =
      { s.vars with settleJobs := s.vars.settleJobs ++ players.map (jobOf env d) } := by
  have hloop := Tx.each_ok (P := fun rest st => ∃ done, players = done ++ rest ∧
      st.vars = { s.vars with settleJobs := s.vars.settleJobs ++ done.map (jobOf env d) }) ?_ h
    ⟨[], rfl, by simp⟩
  · obtain ⟨done, hdone, hvars⟩ := hloop
    rw [List.append_nil] at hdone
    rw [hdone]
    exact hvars
  · rintro player _ _ v _ hbody ⟨done, hdone, hvars⟩
    refine ⟨done ++ [player], by simp [hdone], ?_⟩
    rw [settlePlayer_vars hbody, hvars]
    simp

/-- After the entries are read. -/
def Captured.setRead (v : Captured) (entries : List EntryWithUser) : Captured :=
  { v with distinctCount := distinctPlayers entries, total := pot entries }

/-- After a refund. -/
def Captured.afterRefund (v : Captured) (entries : List EntryWithUser) : Captured :=
  { v.setRead entries with didRefund := true }

/-- After a draw. -/
def Captured.afterDraw (v : Captured) (env : SettleEnv) (entries : List EntryWithUser)
    (d : Drawn) : Captured :=
  { (v.setRead entries).setDrawn d with
    settleJobs := (byUser entries).zipIdx.map (jobOf env d) }

/-! ## The paths -/

/-- The round after a refund. -/
def refundedRow (env : SettleEnv) (entries : List EntryWithUser) (r : JackpotRound) :
    JackpotRound :=
  { r with status := .refunded, totalLamports := pot entries, drawnAt := some env.now }

/-- Everything the refund path did. -/
theorem refundPath_ok {entries : List EntryWithUser}
    (h : (refundPath inp env entries).run s = .ok u t) :
    ∃ row, s.db.jackpotRounds inp.roundId = some row ∧ row.status = .open ∧
      t.vars = { s.vars with didRefund := true } ∧
      t.db.jackpotRounds =
        Function.update s.db.jackpotRounds inp.roundId (some (refundedRow env entries row)) ∧
      Posts (entries.reverse.map (refundPosting inp)) s.db t.db := by
  obtain ⟨_, _, hassign, h⟩ := Tx.bind_eq_ok.mp h
  obtain ⟨_, _, hclaim, h⟩ := Tx.bind_eq_ok.mp h
  obtain ⟨_, s₃, hguard, h⟩ := Tx.bind_eq_ok.mp h
  obtain ⟨_, s₄, hloop, hreveal⟩ := Tx.bind_eq_ok.mp h
  obtain ⟨hcount, rfl⟩ := assertRoundClaimed_ok hguard
  cases Tx.assign_eq_ok.mp hassign
  obtain ⟨row, hrow, hopen, hvars, hdb⟩ := claimRound_ok hclaim hcount
  have hrounds : t.db.jackpotRounds = s₃.db.jackpotRounds := by
    rw [revealSeed_keeps (p := Db.jackpotRounds) (fun _ _ => rfl) _ _ _ hreveal,
      Tx.Keeps.each (refundEntry_keeps (p := Db.jackpotRounds) fun _ _ _ _ _ _ => rfl) _ _ _ _
        hloop]
  have hrevealed : t.vars = s₄.vars := Tx.KeepsVars.of_ok (q := id) (.statement _) hreveal
  have hlooped : s₄.vars = s₃.vars :=
    Tx.KeepsVars.of_ok (q := id) (.each (refundEntry_keepsVars _) _) hloop
  refine ⟨row, hrow, hopen, ?_, ?_, ?_⟩
  · rw [hrevealed, hlooped, hvars]
  · rw [hrounds, hdb]
    rfl
  · have hclaimed : Quiet s.db s₃.db := by
      rw [hdb]
      exact Posts.of_eq rfl rfl
    exact (hclaimed.quiet_trans (refundEntries_posts hloop)).trans_quiet (revealSeed_quiet hreveal)

/-- Everything the draw path did, for a winner with an entry. -/
theorem settleDrawn_ok {entries : List EntryWithUser} {d : Drawn}
    (hwinner : ∃ e ∈ entries, e.userId = d.winner.userId)
    (h : (settleDrawn deps inp env entries d).run s = .ok u t) :
    ∃ row, s.db.jackpotRounds inp.roundId = some row ∧ row.status = .open ∧
      t.vars = { s.vars.setDrawn d with
        settleJobs := (byUser entries).zipIdx.map (jobOf env d) } ∧
      t.db.jackpotRounds =
        Function.update s.db.jackpotRounds inp.roundId (some (drawnRow inp env d row)) ∧
      ∃ ps, Posts ps s.db t.db ∧ IsPayout d ps := by
  obtain ⟨_, _, hassign, h⟩ := Tx.bind_eq_ok.mp h
  obtain ⟨_, _, hclaim, h⟩ := Tx.bind_eq_ok.mp h
  obtain ⟨_, s₃, hguard, h⟩ := Tx.bind_eq_ok.mp h
  obtain ⟨_, _, hreset, h⟩ := Tx.bind_eq_ok.mp h
  obtain ⟨_, s₅, hloop, hreveal⟩ := Tx.bind_eq_ok.mp h
  obtain ⟨hcount, rfl⟩ := assertRoundClaimed_ok hguard
  cases Tx.assign_eq_ok.mp hassign
  cases Tx.assign_eq_ok.mp hreset
  obtain ⟨row, hrow, hopen, hvars, hdb⟩ := claimRound_ok hclaim hcount
  have hrounds : t.db.jackpotRounds = s₃.db.jackpotRounds := by
    rw [revealSeed_keeps (p := Db.jackpotRounds) (fun _ _ => rfl) _ _ _ hreveal,
      Tx.Keeps.each (settlePlayer_keeps (p := Db.jackpotRounds) (fun _ _ _ _ _ _ => rfl) d)
        _ _ _ _ hloop]
  have hkeys : ((byUser entries).zipIdx.map fun p => p.1.1) = (byUser entries).map Prod.fst := by
    have := congrArg (List.map Prod.fst) (List.zipIdx_map_fst 0 (byUser entries))
    rwa [List.map_map] at this
  obtain ⟨ps, hposts, hpay⟩ := settlePlayers_posts
    (by rw [hkeys]; exact nodup_keys_groupBy _ _ _)
    (by rw [hkeys]; exact mem_keys_groupBy.mpr hwinner) hloop
  have hrevealed : t.vars = s₅.vars := Tx.KeepsVars.of_ok (q := id) (.statement _) hreveal
  refine ⟨row, hrow, hopen, ?_, ?_, ps, ?_, hpay⟩
  · rw [hrevealed, settlePlayers_vars hloop, hvars]
    simp
  · rw [hrounds, hdb]
  · have hclaimed : Quiet s.db s₃.db := by
      rw [hdb]
      exact Posts.of_eq rfl rfl
    exact (hclaimed.quiet_trans hposts).trans_quiet (revealSeed_quiet hreveal)

/-! ## The winner -/

theorem drawTicket_lt {total : Nat} (h : 0 < total) : drawTicket deps inp total < total := by
  unfold drawTicket
  split
  · exact jackpotTicketFromEntropy_lt _ _ _ _ _ h
  · exact jackpotWinningTicket_lt _ _ _ _ h

/-- The winner is one of the entries, also through the fallback. -/
theorem winnerOf_mem {entries : List EntryWithUser} {ticket : Nat} {w : EntryWithUser}
    (h : winnerOf entries ticket = some w) : w ∈ entries := by
  unfold winnerOf at h
  split at h
  · rcases Option.or_eq_some_iff.mp h with hi | ⟨-, h0⟩
    · exact List.mem_of_getElem? hi
    · exact List.mem_of_getElem? h0
  · exact List.mem_of_getElem? h

/-- For a ticket below the pot the fallback is not used: the winner's range
holds the ticket. -/
theorem winnerOf_holds {entries : List EntryWithUser} {ticket : Nat} (h : ticket < pot entries) :
    ∃ (i : Nat) (w : EntryWithUser) (r : Nat × Nat),
      winnerOf entries ticket = some w ∧ entries[i]? = some w ∧
      (jackpotRanges (entries.map (·.amountLamports)))[i]? = some r ∧ r.1 ≤ ticket ∧
      ticket < r.2 := by
  obtain ⟨i, hi, hidx⟩ := jackpotWinnerIndex_isSome h
  obtain ⟨r, hr, hhold⟩ := jackpotWinnerIndex_spec hidx
  rw [List.length_map] at hi
  refine ⟨i, entries[i], r, ?_, List.getElem?_eq_getElem hi, hr, hhold.1, hhold.2⟩
  simp [winnerOf, hidx, List.getElem?_eq_getElem hi]

/-! ## The closure -/

/-- A refund that committed. -/
structure Refunded (inp : SettleInput) (env : SettleEnv) (entries : List EntryWithUser)
    (s t : TxState Captured Db TxError) (row : JackpotRound) : Prop where
  refunds : refunds inp entries = true
  vars : t.vars = s.vars.afterRefund entries
  rounds : t.db.jackpotRounds =
    Function.update s.db.jackpotRounds inp.roundId (some (refundedRow env entries row))
  posts : Posts (entries.reverse.map (refundPosting inp)) s.db t.db

/-- A draw that committed. -/
structure DrawnFor (deps : Deps) (inp : SettleInput) (env : SettleEnv)
    (entries : List EntryWithUser) (winner : EntryWithUser) (s t : TxState Captured Db TxError)
    (row : JackpotRound) : Prop where
  draws : Jackpot.refunds inp entries = false
  found : winnerOf entries (drawTicket deps inp (pot entries)) = some winner
  vars : t.vars = s.vars.afterDraw env entries (drawOf deps inp entries winner)
  rounds : t.db.jackpotRounds = Function.update s.db.jackpotRounds inp.roundId
    (some (drawnRow inp env (drawOf deps inp entries winner) row))
  posts : ∃ ps, Posts ps s.db t.db ∧ IsPayout (drawOf deps inp entries winner) ps

/-- Everything a settle that ended well did. -/
theorem settleTx_ok (h : (settleTx deps inp env).run s = .ok u t) :
    env.isLeader = true ∧
    ∃ row, s.db.jackpotRounds inp.roundId = some row ∧ row.status = .open ∧
      (Refunded inp env (findEntries inp.roundId s.db) s t row ∨
        ∃ winner, DrawnFor deps inp env (findEntries inp.roundId s.db) winner s t row) := by
  obtain ⟨_, _, hleader, h⟩ := Tx.bind_eq_ok.mp h
  obtain ⟨_, _, hquery, h⟩ := Tx.bind_eq_ok.mp h
  obtain ⟨_, _, hassign, h⟩ := Tx.bind_eq_ok.mp h
  obtain ⟨hlead, rfl⟩ := assertStillLeader_ok hleader
  obtain ⟨rfl, hdb₂, hvars₂⟩ := Tx.query_ok hquery
  cases Tx.assign_eq_ok.mp hassign
  refine ⟨hlead, ?_⟩
  split at h
  case isTrue href =>
    obtain ⟨row, hrow, hopen, hvars, hrounds, hposts⟩ := refundPath_ok h
    rw [hdb₂] at hrow hrounds hposts
    rw [hvars₂] at hvars
    exact ⟨row, hrow, hopen, Or.inl ⟨href, hvars, hrounds, hposts⟩⟩
  case isFalse href =>
    unfold drawPath at h
    split at h
    case h_1 => exact absurd h Tx.throw_eq_ok.mp
    case h_2 winner hwinner =>
      obtain ⟨row, hrow, hopen, hvars, hrounds, hposts⟩ :=
        settleDrawn_ok ⟨winner, winnerOf_mem hwinner, rfl⟩ h
      rw [hdb₂] at hrow hrounds hposts
      rw [hvars₂] at hvars
      exact ⟨row, hrow, hopen, Or.inr ⟨winner, by simpa using href, hwinner, hvars, hrounds,
        hposts⟩⟩

/-- A settle leaves the tables of the other games alone. -/
theorem settleTx_keeps {γ : Type} {p : Db → γ} (hp : OffLoop p)
    (hrounds : ∀ (db : Db) rounds, p { db with jackpotRounds := rounds } = p db)
    (hseeds : ∀ (db : Db) seeds, p { db with seeds := seeds } = p db) :
    Tx.Keeps p (settleTx deps inp env) := by
  have hclaim : ∀ data, Tx.Keeps p (claimRound inp.roundId data) := by
    intro data
    refine .statement ?_
    intro db count db' h
    simp only [Db.updateManyJackpotRound, Except.ok.injEq, Prod.mk.injEq] at h
    rw [← h.2, hrounds]
  refine .bind (.ite (.throw _) (.pure _)) fun _ => .bind (.query _) fun entries =>
    .bind (.assign _) fun _ => .ite ?_ ?_
  · exact .bind (.assign _) fun _ => .bind (hclaim _) fun _ =>
      .bind (.ite (.throw _) (.pure _)) fun _ => .bind (.each (refundEntry_keeps hp) _) fun _ =>
        revealSeed_keeps hseeds
  · unfold drawPath
    split
    · exact .throw _
    · exact .bind (.assign _) fun _ => .bind (hclaim _) fun _ =>
        .bind (.ite (.throw _) (.pure _)) fun _ => .bind (.assign _) fun _ =>
          .bind (.each (settlePlayer_keeps hp _) _) fun _ => revealSeed_keeps hseeds

/-! ## An undisturbed settle commits -/

/-- The rows a settle writes besides the round exist. -/
structure Present (inp : SettleInput) (entries : List EntryWithUser) (db : Db) : Prop where
  users : ∀ e ∈ entries, ∃ user, db.users e.userId = some user
  seed : ∃ seed, db.seeds inp.seedId = some seed

namespace Present

variable {entries : List EntryWithUser} {db db' : Db}

/-- Rows are updated, never deleted. -/
theorem of_le (h : Present inp entries db)
    (hu : ∀ v user, db.users v = some user → ∃ user', db'.users v = some user')
    (hs : db'.seeds = db.seeds) : Present inp entries db' where
  users e he := by
    obtain ⟨user, huser⟩ := h.users e he
    exact hu e.userId user huser
  seed := hs ▸ h.seed

theorem of_eq (h : Present inp entries db) (hu : db'.users = db.users)
    (hs : db'.seeds = db.seeds) : Present inp entries db' :=
  h.of_le (fun _ user huser => ⟨user, by rw [hu, huser]⟩) hs

theorem update_user (h : Present inp entries db) (u : UserId) (user : User) :
    Present inp entries { db with users := Function.update db.users u (some user) } := by
  refine h.of_le (fun v user' hv => ?_) rfl
  by_cases hvu : v = u
  · exact ⟨user, by simp [hvu]⟩
  · exact ⟨user', by simpa [hvu] using hv⟩

theorem move (h : Present inp entries db) (u : UserId) (user : User) (delta : Int)
    (info : DeltaMeta) : Present inp entries (db.move u user delta info) :=
  (h.update_user u _).of_eq rfl rfl

theorem raiseBiggestWin (h : Present inp entries db) (u : UserId) (profit : Int) :
    Present inp entries (db.raiseBiggestWin u profit) := by
  rcases updateManyRow_cases db.users u (fun _ => true)
    (fun user => { user with biggestWin := max user.biggestWin profit }) with
    ⟨user, -, -, heq⟩ | ⟨-, heq⟩
  · rw [Db.raiseBiggestWin, heq]
    exact h.update_user u _
  · rw [Db.raiseBiggestWin, heq]
    exact h.of_eq rfl rfl

end Present

variable {entries : List EntryWithUser}

/-- A credit of a positive amount to one of the entries' users. -/
theorem credit_succeeds {e : EntryWithUser} (he : e ∈ entries) {delta : Int} {info : DeltaMeta}
    (hpos : 0 < delta) (hcap : info.maxBalance = none) :
    Tx.Succeeds (Present inp entries) (applyBalanceDelta e.userId delta info : DbTx Captured Int)
      fun _ => Present inp entries :=
  applyBalanceDelta_succeeds hpos hcap fun _ h =>
    have ⟨user, hu⟩ := h.users e he
    ⟨user, hu, h.move _ _ _ _⟩

theorem revealSeed_succeeds :
    Tx.Succeeds (Present inp entries) (revealSeed inp env) fun _ => Present inp entries := by
  refine .statement fun db h => ?_
  obtain ⟨_, hseed⟩ := h.seed
  exact ⟨(), _, Db.updateSeed_some hseed _, h.users, ⟨_, Function.update_self ..⟩⟩

theorem refundEntry_succeeds {e : EntryWithUser} (he : e ∈ entries)
    (hpos : 0 < e.amountLamports) :
    Tx.Succeeds (Present inp entries) (refundEntry inp e) fun _ => Present inp entries :=
  .bind (credit_succeeds he (by omega) rfl) fun _ => .pure fun _ h => h

theorem settlePlayer_succeeds {d : Drawn} {player : (UserId × PlayerInfo) × Nat}
    (hplayer : ∃ e ∈ entries, e.userId = player.1.1) :
    Tx.Succeeds (Present inp entries) (settlePlayer deps inp env d player)
      fun _ => Present inp entries := by
  obtain ⟨⟨_, _⟩, i⟩ := player
  obtain ⟨e, he, rfl⟩ := hplayer
  refine .bind (.assign _) fun _ => .bind (Q := fun _ => Present inp entries) (.statement ?_)
    fun _ => .bind (Q := fun _ => Present inp entries) (.update ?_) fun _ =>
    .bind (accrue_succeeds ?_ _ _ _ _) fun _ => .bind (creditReferral_succeeds _ ?_ ?_ _ _ _)
      fun _ => .bind (Q := fun _ => Present inp entries) ?_ fun _ => .update ?_
  · intro db h
    obtain ⟨_, hu⟩ := h.users e he
    exact ⟨(), _, Db.updateUser_some hu _, h.update_user _ _⟩
  · exact fun db h => h.raiseBiggestWin _ _
  · exact fun db board h => h.of_eq rfl rfl
  · exact fun db rows h => h.of_eq rfl rfl
  · exact fun db h => h.users e he
  · exact .ite (fun hpos => .bind (credit_succeeds he (by omega) rfl) fun _ => .pure fun _ h => h)
      fun _ => .pure fun _ h => h
  · exact fun db h => h.of_eq rfl rfl

/-- The claim of an open round counts one row. -/
theorem claimRound_succeeds {data : JackpotRound → JackpotRound} :
    Tx.Succeeds
      (fun db => Present inp entries db ∧
        ∃ row, db.jackpotRounds inp.roundId = some row ∧ row.status = .open)
      (claimRound inp.roundId data) fun count db => count ≠ 0 ∧ Present inp entries db := by
  refine .statement ?_
  rintro db ⟨h, row, hrow, hopen⟩
  let rounds := Function.update db.jackpotRounds inp.roundId (some (data row))
  have hclaim : updateManyRow db.jackpotRounds inp.roundId (·.status == .open) data =
      (1, rounds) := by
    simp [updateManyRow, hrow, hopen, rounds]
  refine ⟨1, { db with jackpotRounds := rounds }, ?_, Nat.one_ne_zero, h.of_eq rfl rfl⟩
  simp only [Db.updateManyJackpotRound, hclaim]

/-- A round that draws has a pot. -/
theorem pot_pos (hpos : ∀ e ∈ entries, 0 < e.amountLamports)
    (hdraw : ¬ refunds inp entries = true) : 0 < pot entries := by
  cases entries with
  | nil =>
    have hnone : distinctPlayers [] = 0 := rfl
    exact absurd (by simp [refunds, hnone, JACKPOT.MIN_PLAYERS]) hdraw
  | cons e =>
    have := hpos e List.mem_cons_self
    simp only [pot, List.map_cons, List.sum_cons]
    omega

/-- A leader settles an open round whose users and seed exist, unless the
environment aborts the transaction. -/
theorem settleTx_succeeds (hleader : env.isLeader = true) {db : Db}
    (hpos : ∀ e ∈ findEntries inp.roundId db, 0 < e.amountLamports)
    (hpresent : Present inp (findEntries inp.roundId db) db)
    (hopen : ∃ row, db.jackpotRounds inp.roundId = some row ∧ row.status = .open) :
    Tx.Succeeds (fun db' => db' = db) (settleTx deps inp env) fun _ _ => True := by
  have hlead : assertStillLeader env.isLeader "jackpot" = (pure () : DbTx Captured Unit) := by
    simp [assertStillLeader, hleader]
  have hclaim : ∀ data, Tx.Succeeds (fun db' => db' = db) (claimRound inp.roundId data)
      fun count db' => count ≠ 0 ∧ Present inp (findEntries inp.roundId db) db' :=
    fun _ => claimRound_succeeds.imp (fun _ heq => by rw [heq]; exact ⟨hpresent, hopen⟩)
      fun _ _ h => h
  unfold settleTx
  rw [hlead]
  refine .bind (Q := fun _ db' => db' = db) (.pure fun _ h => h) fun _ =>
    .bind (Q := fun entries db' => entries = findEntries inp.roundId db ∧ db' = db)
      (.query _ fun db' h => by rw [h]; exact ⟨rfl, rfl⟩) fun entries => ?_
  by_cases hentries : entries = findEntries inp.roundId db
  case neg => exact fun s hs h => absurd h.1 hentries
  subst hentries
  refine Tx.Succeeds.imp (P := fun db' => db' = db) ?_ (fun _ h => h.2) (fun _ _ _ => trivial)
    (Q := fun _ => Present inp (findEntries inp.roundId db))
  refine .bind (.assign _) fun _ => .ite (fun _ => ?_) fun hdraw => ?_
  · exact .bind (.assign _) fun _ => .bind (hclaim _) fun _ =>
      .bind (assertRoundClaimed_succeeds _ _ _) fun _ =>
        .bind (.each fun e he => refundEntry_succeeds he (hpos e he)) fun _ => revealSeed_succeeds
  · have hticket : drawTicket deps inp (pot (findEntries inp.roundId db)) <
        pot (findEntries inp.roundId db) := drawTicket_lt (pot_pos hpos hdraw)
    obtain ⟨i, _, r, hwinner, -⟩ := winnerOf_holds hticket
    unfold drawPath
    rw [hwinner]
    refine .bind (.assign _) fun _ => .bind (hclaim _) fun _ =>
      .bind (assertRoundClaimed_succeeds _ _ _) fun _ => .bind (.assign _) fun _ =>
        .bind (.each fun player hplayer => settlePlayer_succeeds ?_) fun _ => revealSeed_succeeds
    exact mem_keys_groupBy.mp (List.mem_map_of_mem (List.fst_mem_of_mem_zipIdx hplayer))

/-! ## Conservation -/

/-- What a user staked in the round. -/
def stakeOf (entries : List EntryWithUser) (u : UserId) : Nat :=
  pot (entries.filter (·.userId = u))

@[simp] theorem pot_cons (e : EntryWithUser) (es : List EntryWithUser) :
    pot (e :: es) = e.amountLamports + pot es := by
  simp [pot]

theorem moved_reverse (ps : List Posting) (u : UserId) (c : Currency) :
    moved ps.reverse u c = moved ps u c := by
  induction ps with
  | nil => rfl
  | cons p ps ih =>
    rw [List.reverse_cons, moved_append, ih, moved_cons, moved_cons, moved_nil]
    omega

/-- The refunds move each user's own stakes. -/
theorem moved_refunds (inp : SettleInput) (entries : List EntryWithUser) (u : UserId) :
    moved (entries.reverse.map (refundPosting inp)) u .jeton = stakeOf entries u := by
  rw [List.map_reverse, moved_reverse]
  induction entries with
  | nil => rfl
  | cons e es ih =>
    rw [List.map_cons, moved_cons, ih]
    by_cases he : e.userId = u
    · simp [stakeOf, refundPosting, he]
    · simp [stakeOf, refundPosting, he]

/-- The refunds sum up to the pot. -/
theorem sum_refunds (inp : SettleInput) (entries : List EntryWithUser) :
    ((entries.reverse.map (refundPosting inp)).map (·.delta)).sum = pot entries := by
  rw [List.map_reverse, List.map_reverse, List.sum_reverse]
  induction entries with
  | nil => rfl
  | cons e es ih =>
    rw [List.map_cons, List.map_cons, List.sum_cons, ih]
    simp [refundPosting]

theorem potPayout_eq (total : Nat) :
    potPayout total = total * (1000 - JACKPOT.edgePerMille) / 1000 := by
  rw [potPayout, JACKPOT.payoutPerMille_eq]

theorem potPayout_le (total : Nat) : potPayout total ≤ total := by
  rw [potPayout_eq, JACKPOT.edgePerMille]
  omega

theorem IsPayout.moved {d : Drawn} {ps : List Posting} (h : IsPayout d ps) (u : UserId) :
    moved ps u .jeton = if u = d.winner.userId then (d.payout : Int) else 0 := by
  unfold IsPayout at h
  split at h
  case isTrue =>
    obtain ⟨_, rfl⟩ := h
    simp [payoutPosting, @eq_comm _ u]
  case isFalse hpay =>
    have hzero : d.payout = 0 := by omega
    simp [h, hzero]

theorem IsPayout.sum {d : Drawn} {ps : List Posting} (h : IsPayout d ps) :
    (ps.map (·.delta)).sum = d.payout := by
  unfold IsPayout at h
  split at h
  case isTrue =>
    obtain ⟨_, rfl⟩ := h
    simp [payoutPosting]
  case isFalse hpay =>
    have hzero : d.payout = 0 := by omega
    simp [h, hzero]

/-- The jackpot's money: the ranges partition the pot; an undisturbed
settle commits; and a settle that commits either returns each player's
stakes, or pays the edge-reduced pot to the user of the one entry whose
range holds the ticket and nothing to anyone else. -/
theorem drawAndSettle_conserves {db : Db} (hleader : env.isLeader = true)
    (hopen : ∃ row, db.jackpotRounds inp.roundId = some row ∧ row.status = .open)
    (hpos : ∀ e ∈ findEntries inp.roundId db, 0 < e.amountLamports)
    (hpresent : Present inp (findEntries inp.roundId db) db) :
    let entries := findEntries inp.roundId db
    let ranges := jackpotRanges (entries.map (·.amountLamports))
    let ticket := drawTicket deps inp (pot entries)
    (∀ lamport, lamport < pot entries ↔
      ∃! i : Nat, ∃ r, ranges[i]? = some r ∧ r.1 ≤ lamport ∧ lamport < r.2) ∧
    (∀ vars, ∃ v db', Tx.transact (settleTx deps inp env) vars db none = (v, .ok ((), db'))) ∧
    ∀ vars failAt v db',
      Tx.transact (settleTx deps inp env) vars db failAt = (v, .ok ((), db')) →
      ∃ ps, Posts ps db db' ∧ (ps.map (·.delta)).sum ≤ pot entries ∧
        if refunds inp entries then
          ∀ u, db'.balance u .jeton = db.balance u .jeton + stakeOf entries u
        else
          ∃ (i : Nat) (winner : EntryWithUser) (r : Nat × Nat),
            entries[i]? = some winner ∧ ranges[i]? = some r ∧ r.1 ≤ ticket ∧ ticket < r.2 ∧
            ∀ u, db'.balance u .jeton = db.balance u .jeton +
              if u = winner.userId
              then ((pot entries * (1000 - JACKPOT.edgePerMille) / 1000 : Nat) : Int) else 0 := by
  refine ⟨jackpotRanges_partition _, fun vars => ?_, fun vars failAt v db' hcommit => ?_⟩
  · have hsettles : Tx.Succeeds (fun db' => db' = db) (settleTx deps inp env) fun _ _ => True :=
      settleTx_succeeds hleader hpos hpresent hopen
    obtain ⟨v, _, db', hcommit, -⟩ := hsettles.transact rfl vars
    exact ⟨v, db', hcommit⟩
  obtain ⟨t, hrun, rfl, -⟩ := Tx.transact_ok hcommit
  obtain ⟨-, _, -, -, hcase⟩ := settleTx_ok hrun
  rcases hcase with href | ⟨winner, hdrawn⟩
  · refine ⟨_, href.posts, le_of_eq (sum_refunds _ _), ?_⟩
    rw [if_pos href.refunds]
    intro u
    rw [href.posts.balance, moved_refunds]
  · obtain ⟨ps, hposts, hpay⟩ := hdrawn.posts
    have hdraw : ¬ refunds inp (findEntries inp.roundId db) = true := by
      rw [hdrawn.draws]
      decide
    have hticket : drawTicket deps inp (pot (findEntries inp.roundId db)) <
        pot (findEntries inp.roundId db) := drawTicket_lt (pot_pos hpos hdraw)
    obtain ⟨i, w, r, hfound, hentry, hrange, hlow, hhigh⟩ := winnerOf_holds hticket
    obtain rfl : w = winner := Option.some.inj (hfound.symm.trans hdrawn.found)
    refine ⟨ps, hposts, ?_, ?_⟩
    · rw [hpay.sum]
      exact_mod_cast potPayout_le _
    · rw [if_neg hdraw]
      refine ⟨i, w, r, hentry, hrange, hlow, hhigh, fun u => ?_⟩
      rw [hposts.balance, hpay.moved, ← potPayout_eq]
      rfl

/-! ## A sample round -/

theorem mem_findEntries {roundId : RoundId} {db : Db} {e : EntryWithUser} :
    e ∈ findEntries roundId db ↔
      ∃ row ∈ db.jackpotEntries, row.roundId = roundId ∧ withUser db row = e := by
  simp [findEntries, roundEntries, and_assoc]

theorem drawAndSettle_conserves_sample :
    ∃ v db', Tx.transact (settleTx Sample.deps Sample.input Sample.leader) Captured.init
      (Sample.db [Sample.firstEntry, Sample.secondEntry]) none = (v, .ok ((), db')) := by
  refine (drawAndSettle_conserves rfl ⟨Sample.openRound, rfl, rfl⟩ ?_ ⟨?_, ⟨_, rfl⟩⟩).2.1 _
  · decide
  · intro e he
    obtain ⟨_, hrow, -, rfl⟩ := mem_findEntries.mp he
    simp only [Sample.db, List.mem_cons, List.not_mem_nil, or_false] at hrow
    rcases hrow with rfl | rfl <;> exact ⟨_, rfl⟩

end Scadium.Games.Jackpot
