/-
Scadium.Games.WagerHooks — what every settle records about a wager:
`ProofOfWagerService.accrue` (leaderboard volume; it mints nothing) and
`AffiliatesService.creditReferral` (referred volume and commission).

Neither moves a balance: they write `wagerLeaderboard` and `referrals`, and
`Hooks` frames say so. The commission rate tables and the calendar keys of
a date are fields of `Deps`, with the other settings the games read.
-/
import Scadium.Fair.Hash
import Scadium.Prisma.Statements

namespace Scadium.Games

open Scadium.Lib Scadium.Prisma

/-- The settings and pure functions the games depend on. -/
structure Deps where
  sha : Fair.Sha
  /-- `economyEnforced()` -/
  economyEnforced : Bool
  /-- An HMAC of the user id under the server's secret. -/
  publicPlayerId : UserId → String
  /-- `referralCommission(stake, game, tierCommission(referredVolume))` -/
  referralCommission : (referredVolume stakeLamports : Nat) → GameType → Nat
  /-- $SCAD base units in lamports, through float prices. -/
  scadBaseToLamports : Nat → Nat
  /-- The leaderboard's daily and weekly key of a date. -/
  periodKeys : Time → String × String

variable {κ γ : Type}

/-- The aggregates of a settled wager, in `tx.user.update`. -/
def recordWager (stake : Nat) (profit : Int) (u : User) : User :=
  { u with
    totalWagered := u.totalWagered + stake
    totalWon := u.totalWon + max profit 0
    totalLost := u.totalLost + max (-profit) 0
    gamesPlayed := u.gamesPlayed + 1 }

/-! ## Proof of wager -/

/-- `wagerLeaderboard.upsert` on (period, user), incrementing. -/
def upsertLeaderboard (period : String) (userId : UserId) (stakeLamports : Nat) (db : Db) : Db :=
  let bucket := db.wagerLeaderboard period
  { db with
    wagerLeaderboard := Function.update db.wagerLeaderboard period
      (Function.update bucket userId (bucket userId + stakeLamports)) }

def accrue (deps : Deps) (now : Time) (userId : UserId) (stakeLamports : Nat) : DbTx κ Unit :=
  if stakeLamports ≤ 0 then pure ()
  else
    let (daily, weekly) := deps.periodKeys now
    Tx.each (fun period => Tx.update (upsertLeaderboard period userId stakeLamports))
      [daily, weekly]

/-! ## Affiliates -/

/-- `isReal`: the account has had a deposit credited. -/
def isReal (userId : UserId) : DbTx κ Bool := do
  let user ← Tx.statement (·.findUser userId)
  return user.fundedAt.isSome

/-- `isRealLocked`: the same from a raw locking query, false without a row. -/
def isRealLocked (userId : UserId) : DbTx κ Bool :=
  Tx.query fun db => match db.users userId with
    | some user => user.fundedAt.isSome
    | none => false

/-- E5: commission accrues only between accounts of the same economy. -/
def sharesEconomy (deps : Deps) (referrerId refereeId : UserId) : DbTx κ Bool :=
  if !deps.economyEnforced then pure true
  else do
    let referrer ← isRealLocked referrerId
    let referee ← isReal refereeId
    return referrer == referee

/-- `!sameIp && (await sharesEconomy(…))` -/
def earnsCommission (deps : Deps) (sameIp : Bool) (referrerId refereeId : UserId) :
    DbTx κ Bool :=
  if sameIp then pure false else sharesEconomy deps referrerId refereeId

/-- `referral.upsert` on the referee. -/
def upsertReferral (row : Referral) (db : Db) : Db :=
  if db.referrals.any (·.refereeId == row.refereeId) then
    { db with referrals := db.referrals.map fun r =>
        if r.refereeId = row.refereeId then
          { r with
            volumeLamports := r.volumeLamports + row.volumeLamports
            commissionLamports := r.commissionLamports + row.commissionLamports
            flagged := r.flagged || row.flagged }
        else r }
  else { db with referrals := row :: db.referrals }

/-- The referred volume of a referrer so far (`_sum.volumeLamports`). -/
def referredVolume (referrerId : UserId) (db : Db) : Nat :=
  ((db.referrals.filter (·.referrerId = referrerId)).map (·.volumeLamports)).sum

/-- The part of `creditReferral` for a user with a referrer. -/
def creditReferrer (deps : Deps) (referee : User) (referrerId refereeId : UserId)
    (stakeLamports : Nat) (gameType : GameType) : DbTx κ Unit := do
  let volume ← Tx.query (referredVolume referrerId)
  let referrer ← Tx.query (fun db => db.users referrerId)
  let sameIp := referee.signupIpHash.isSome &&
    referee.signupIpHash == referrer.bind (·.signupIpHash)
  let earns ← earnsCommission deps sameIp referrerId refereeId
  let commission := if earns then deps.referralCommission volume stakeLamports gameType else 0
  Tx.update (upsertReferral ⟨refereeId, referrerId, stakeLamports, commission, sameIp⟩)

def creditReferral (deps : Deps) (refereeId : UserId) (stakeLamports : Nat)
    (gameType : GameType) : DbTx κ Unit :=
  if stakeLamports ≤ 0 then pure ()
  else do
    let referee ← Tx.query (fun db => db.users refereeId)
    match referee with
    | none => pure ()
    | some user =>
        match user.referredById with
        | none => pure ()
        | some referrerId =>
            creditReferrer deps user referrerId refereeId stakeLamports gameType

/-! ## What the hooks touch -/

theorem upsertReferral_eq (row : Referral) (db : Db) :
    ∃ rows, upsertReferral row db = { db with referrals := rows } := by
  unfold upsertReferral
  split
  · exact ⟨_, rfl⟩
  · exact ⟨_, rfl⟩

theorem accrue_keepsVars (q : κ → γ) (deps : Deps) (now : Time) (userId : UserId)
    (stake : Nat) : Tx.KeepsVars q (accrue deps now userId stake : DbTx κ Unit) := by
  unfold accrue
  exact .ite (.pure _) (.each (fun _ => .update _) _)

theorem creditReferral_keepsVars (q : κ → γ) (deps : Deps) (refereeId : UserId) (stake : Nat)
    (game : GameType) :
    Tx.KeepsVars q (creditReferral deps refereeId stake game : DbTx κ Unit) := by
  unfold creditReferral
  refine .ite (.pure _) (.bind (.query _) fun referee => ?_)
  split
  · exact .pure _
  · split
    · exact .pure _
    · refine .bind (.query _) fun _ => .bind (.query _) fun _ => .bind ?_ fun _ => .update _
      unfold earnsCommission sharesEconomy
      exact .ite (.pure _) (.ite (.pure _) (.bind (.query _) fun _ =>
        .bind (.bind (.statement _) fun _ => .pure _) fun _ => .pure _))

theorem accrue_blind (deps : Deps) (now : Time) (userId : UserId) (stake : Nat) :
    Tx.Blind (accrue deps now userId stake : DbTx κ Unit) := by
  unfold accrue
  exact .ite (.pure _) (.each (fun _ => .update _) _)

theorem creditReferral_blind (deps : Deps) (refereeId : UserId) (stake : Nat) (game : GameType) :
    Tx.Blind (creditReferral deps refereeId stake game : DbTx κ Unit) := by
  unfold creditReferral
  refine .ite (.pure _) (.bind (.query _) fun referee => ?_)
  split
  · exact .pure _
  · split
    · exact .pure _
    · refine .bind (.query _) fun _ => .bind (.query _) fun _ => .bind ?_ fun _ => .update _
      unfold earnsCommission sharesEconomy
      exact .ite (.pure _) (.ite (.pure _) (.bind (.query _) fun _ =>
        .bind (.bind (.statement _) fun _ => .pure _) fun _ => .pure _))

section Frames

variable {p : Db → γ}

/-- A part of the database that settling a player's wager does not write:
not the users and their ledger, not the two tables of the hooks. -/
def OffPlayers (p : Db → γ) : Prop :=
  ∀ (db : Db) users ledger referrals board,
    p { db with
      users := users, ledger := ledger, referrals := referrals,
      wagerLeaderboard := board } = p db

theorem OffPlayers.users (hp : OffPlayers p) (db : Db) (users : UserId → Option User) :
    p { db with users := users } = p db :=
  hp db users db.ledger db.referrals db.wagerLeaderboard

theorem OffPlayers.movement (hp : OffPlayers p) (db : Db) (users : UserId → Option User)
    (ledger : List BalanceLedger) : p { db with users := users, ledger := ledger } = p db :=
  hp db users ledger db.referrals db.wagerLeaderboard

theorem OffPlayers.referrals (hp : OffPlayers p) (db : Db) (rows : List Referral) :
    p { db with referrals := rows } = p db :=
  hp db db.users db.ledger rows db.wagerLeaderboard

theorem OffPlayers.board (hp : OffPlayers p) (db : Db) (board : String → UserId → Nat) :
    p { db with wagerLeaderboard := board } = p db :=
  hp db db.users db.ledger db.referrals board

theorem updateUser_keeps (hp : ∀ (db : Db) users, p { db with users := users } = p db)
    (u : UserId) (data : User → User) :
    Tx.Keeps p (Tx.statement (·.updateUser u data) : DbTx κ Unit) := by
  refine .statement ?_
  intro db a db' h
  obtain ⟨_, -, rfl⟩ := Db.updateUser_ok h
  exact hp db _

theorem raiseBiggestWin_keeps (hp : ∀ (db : Db) users, p { db with users := users } = p db)
    (u : UserId) (profit : Int) :
    Tx.Keeps p (Tx.update (·.raiseBiggestWin u profit) : DbTx κ Unit) :=
  .update fun db => hp db _

theorem accrue_keeps
    (hp : ∀ (db : Db) board, p { db with wagerLeaderboard := board } = p db)
    (deps : Deps) (now : Time) (userId : UserId) (stake : Nat) :
    Tx.Keeps p (accrue deps now userId stake : DbTx κ Unit) := by
  unfold accrue
  exact .ite (.pure _) (.each (fun _ => .update fun db => hp db _) _)

theorem earnsCommission_keeps (p : Db → γ) (deps : Deps) (sameIp : Bool)
    (referrerId refereeId : UserId) :
    Tx.Keeps p (earnsCommission deps sameIp referrerId refereeId : DbTx κ Bool) := by
  unfold earnsCommission sharesEconomy
  refine .ite (.pure _) (.ite (.pure _) (.bind (.query _) fun _ =>
    .bind (.bind (.statement ?_) fun _ => .pure _) fun _ => .pure _))
  intro db user db' h
  unfold Db.findUser at h
  split at h
  · cases h
    rfl
  · cases h

theorem creditReferral_keeps
    (hp : ∀ (db : Db) rows, p { db with referrals := rows } = p db)
    (deps : Deps) (refereeId : UserId) (stake : Nat) (game : GameType) :
    Tx.Keeps p (creditReferral deps refereeId stake game : DbTx κ Unit) := by
  unfold creditReferral
  refine .ite (.pure _) (.bind (.query _) fun referee => ?_)
  split
  · exact .pure _
  · split
    · exact .pure _
    · refine .bind (.query _) fun _ => .bind (.query _) fun _ =>
        .bind (earnsCommission_keeps _ _ _ _ _) fun _ => .update fun db => ?_
      obtain ⟨_, heq⟩ := upsertReferral_eq _ db
      rw [heq, hp]

end Frames

/-! ## The hooks succeed -/

section Success

variable {P : Db → Prop}

theorem accrue_succeeds
    (hP : ∀ (db : Db) board, P db → P { db with wagerLeaderboard := board })
    (deps : Deps) (now : Time) (userId : UserId) (stake : Nat) :
    Tx.Succeeds P (accrue deps now userId stake : DbTx κ Unit) fun _ => P := by
  unfold accrue
  exact .ite (fun _ => .pure fun _ h => h) fun _ =>
    .each fun _ _ => .update fun db h => hP db _ h

/-- For a user who exists. -/
theorem creditReferral_succeeds (refereeId : UserId)
    (hP : ∀ (db : Db) rows, P db → P { db with referrals := rows })
    (hu : ∀ db, P db → ∃ user, db.users refereeId = some user)
    (deps : Deps) (stake : Nat) (game : GameType) :
    Tx.Succeeds P (creditReferral deps refereeId stake game : DbTx κ Unit) fun _ => P := by
  have hup : ∀ row, Tx.Succeeds P (Tx.update (upsertReferral row) : DbTx κ Unit) fun _ => P := by
    refine fun row => .update fun db h => ?_
    obtain ⟨_, heq⟩ := upsertReferral_eq row db
    rw [heq]
    exact hP _ _ h
  have hreal : Tx.Succeeds P (isReal refereeId : DbTx κ Bool) fun _ => P := by
    refine .bind (Q := fun _ => P) (.statement fun db h => ?_) fun _ => .pure fun _ h => h
    obtain ⟨user, huser⟩ := hu db h
    exact ⟨user, db, by simp [Db.findUser, huser], h⟩
  have hearns : ∀ same r,
      Tx.Succeeds P (earnsCommission deps same r refereeId : DbTx κ Bool) fun _ => P := by
    intro same r
    unfold earnsCommission sharesEconomy
    exact .ite (fun _ => .pure fun _ h => h) fun _ => .ite (fun _ => .pure fun _ h => h) fun _ =>
      .bind (Q := fun _ => P) (.query _ fun _ h => h) fun _ =>
        .bind hreal fun _ => .pure fun _ h => h
  unfold creditReferral
  refine .ite (fun _ => .pure fun _ h => h) fun _ =>
    .bind (Q := fun _ => P) (.query _ fun _ h => h) fun referee => ?_
  split
  · exact .pure fun _ h => h
  · split
    · exact .pure fun _ h => h
    · exact .bind (Q := fun _ => P) (.query _ fun _ h => h) fun _ =>
        .bind (Q := fun _ => P) (.query _ fun _ h => h) fun _ =>
          .bind (hearns _ _) fun _ => hup _

end Success

end Scadium.Games
