/-
Scadium.Prisma.Sessions — the tables as sessions at Read Committed see them,
and the helpers their transactions share, statement by statement:
`applyBalanceDelta` (`prisma/apply-balance-delta.ts`) and the idempotency
keys (`prisma/idempotency.ts`).

A row is found by its key; the ledger is the log of the store, in the order
of the commits. What a program asks of its environment (clocks, new ids,
seeds, other services) comes as one record of answers, of which a statement
uses what it needs.

What the helpers write has one rule for each of them, and `Moves` for what a
part of a transaction does to the rows and the ledger.
-/
import Scadium.Lib.ReadCommitted
import Scadium.Prisma.Ledger

namespace Scadium.Prisma.Sessions

open Scadium.Lib.ReadCommitted

/-! ## Rows -/

abbrev FlipId := Nat

inductive Side where
  | heads | tails
  deriving DecidableEq

inductive CoinflipStatus where
  | open | matched | resolving | completed | cancelled
  deriving DecidableEq

structure CoinflipGame where
  creatorId : UserId
  creatorSide : Side
  joinerId : Option UserId
  amountLamports : Nat
  result : Option Side
  winnerId : Option UserId
  status : CoinflipStatus
  seedId : SeedId
  nonce : Nat
  vsHouse : Bool
  expiresAt : Option Time
  createdAt : Time
  resolvedAt : Option Time
  deriving DecidableEq

/-- The bet of one side of a flip, with its `resultJson`. -/
structure CoinflipBet where
  userId : UserId
  amountLamports : Nat
  payoutLamports : Nat
  won : Bool
  seedId : SeedId
  nonce : Nat
  side : Side
  result : Side
  vsHouse : Bool
  serverSeedHash : String
  clientSeed : String
  deriving DecidableEq

/-- The active pair of a user's rotating seeds. -/
structure ClientSeed where
  clientSeed : String
  nonce : Nat
  serverSeed : String
  serverSeedHash : String
  deriving DecidableEq

/-- A flip as it is sent to clients. -/
structure FlipDto where
  id : FlipId
  creatorId : UserId
  creatorUsername : Option String
  creatorWallet : Option String
  creatorSide : Side
  creatorFunded : Bool
  joinerId : Option UserId
  joinerUsername : Option String
  joinerWallet : Option String
  vsHouse : Bool
  amountLamports : Nat
  result : Option Side
  winnerId : Option UserId
  status : CoinflipStatus
  createdAt : Time
  resolvedAt : Option Time
  expiresAt : Option Time
  serverSeedHash : Option String
  serverSeed : Option String
  clientSeed : Option String
  nonce : Nat
  deriving DecidableEq

/-- What a command answers, and `responseJson`. -/
inductive Response where
  | flip (dto : FlipDto)
  | flips (dtos : List FlipDto)
  | expired (count : Nat)
  | crashBet (roundId : RoundId)
  | transfer (id : Nat) (wallet : String) (amountLamports : Nat)
  deriving DecidableEq

structure IdempotencyKey where
  responseJson : Option Response
  deriving DecidableEq

inductive Key where
  | user (id : UserId)
  | flip (id : FlipId)
  | seed (id : SeedId)
  | clientSeed (userId : UserId)
  | bet (id : BetId)
  | idempotency (userId : UserId) (scope clientKey : String)
  | crashBet (roundId : RoundId) (userId : UserId)
  | transfer (id : Nat)
  deriving DecidableEq

/-- A withdrawal that waits for the chain. -/
structure Withdrawal where
  userId : UserId
  wallet : String
  amountLamports : Nat
  deriving DecidableEq

abbrev Row : Key → Type
  | .user _ => User
  | .flip _ => CoinflipGame
  | .seed _ => Seed
  | .clientSeed _ => ClientSeed
  | .bet _ => CoinflipBet
  | .idempotency .. => IdempotencyKey
  | .crashBet .. => CrashBet
  | .transfer _ => Withdrawal

abbrev Tables := Store Row BalanceLedger

abbrev Writes := Pending Row BalanceLedger

/-- Users, and nothing else. -/
def usersOnly (users : UserId → Option User) : Tables where
  rows
    | .user u => users u
    | _ => none
  keys := []
  log := []

/-- What the environment answers. -/
structure Env where
  now : Time := 0
  newId : Nat := 0
  /-- `generateServerSeed()`, `generateClientSeed()` -/
  serverSeed : String := ""
  clientSeed : String := ""
  /-- `rg.assertCanWager`, and the other checks before a transaction -/
  refused : Option TxError := none
  /-- `onchainRng.live` -/
  live : Bool := false
  /-- `roundEntropy`; null when it failed -/
  onchainEntropy : Option Bytes32 := none
  /-- A statement whose error is swallowed has failed. -/
  failed : Bool := false

abbrev SessionProg := Prog Row BalanceLedger Env TxError

/-! ## Statements -/

/-- `update` on one key: the row must be there. -/
def updateOrThrow (k : Key) (data : Row k → Row k) : SessionProg Unit := do
  let hit ← Prog.update k fun r => some (data r)
  if hit then pure () else .throw p2025

/-- A guarded `updateMany` on one key that must match. -/
def updateManyOrThrow (k : Key) (guard : Row k → Bool) (data : Row k → Row k) (e : TxError) :
    SessionProg Unit := do
  let hit ← Prog.update k fun r => if guard r then some (data r) else none
  if hit then pure () else .throw e

/-- `create`. -/
def create (k : Key) (r : Row k) : SessionProg Unit := do
  let new ← Prog.insert k r
  if new then pure () else .throw p2002

def findUser (userId : UserId) : SessionProg (Option User) :=
  Prog.query fun s => s.rows (.user userId)

/-! ## Balance movements -/

/-- The column update of `applyBalanceDelta`. -/
def moveColumn (userId : UserId) (delta : Int) (info : DeltaMeta) : SessionProg Unit :=
  let column := info.currency
  if delta < 0 then
    updateManyOrThrow (.user userId) (fun u => !u.banned && decide (-delta ≤ u.balance column))
      (fun u => u.increment column delta) (.badRequest "Insufficient balance")
  else if 0 < delta then
    match info.maxBalance with
    | some cap =>
        updateManyOrThrow (.user userId) (fun u => decide (u.balance column ≤ cap - delta))
          (fun u => u.increment column delta) (.badRequest s!"{repr column} balance cap reached")
    | none => updateOrThrow (.user userId) fun u => u.increment column delta
  else pure ()

/-- The same-transaction read and the ledger row. -/
def recordMovement (userId : UserId) (delta : Int) (info : DeltaMeta) : SessionProg Int := do
  let user ← findUser userId
  match user with
  | none => .throw p2025
  | some user => do
      let balanceAfter := user.balance info.currency
      Prog.log ⟨userId, info.currency, delta, info.reason, info.refType, info.refId, balanceAfter⟩
      pure balanceAfter

def applyBalanceDelta (userId : UserId) (delta : Int) (info : DeltaMeta) : SessionProg Int := do
  moveColumn userId delta info
  recordMovement userId delta info

/-! ## Idempotency keys -/

/-- Claim the key; the stored response of a completed request is replayed. -/
def claimIdempotency (userId : UserId) (scope : String) (key : Option String) :
    SessionProg (Option Response) :=
  match key.filter (· ≠ "") with
  | none => pure none
  | some clientKey => do
      let fresh ← Prog.insert (.idempotency userId scope clientKey) (⟨none⟩ : IdempotencyKey)
      if fresh then pure none
      else do
        let existing ← Prog.query fun s => s.rows (.idempotency userId scope clientKey)
        match existing.bind IdempotencyKey.responseJson with
        | some response => pure (some response)
        | none => .throw (.conflict "Request already in progress")

def storeIdempotency (userId : UserId) (scope : String) (key : Option String)
    (response : Response) : SessionProg Unit :=
  match key.filter (· ≠ "") with
  | none => pure ()
  | some clientKey =>
      updateOrThrow (.idempotency userId scope clientKey) fun _ => ⟨some response⟩

/-! ## What the helpers write -/

open Scadium.Lib Scadium.Lib.ReadCommitted

/-- From `p` to `p'` a transaction posts `rows`, and writes rows of keys that
are `touched` only. -/
structure Moves (touched : Key → Prop) (p p' : Writes) (rows : List Posting) : Prop where
  log : p'.log.map (·.posting) = p.log.map (·.posting) ++ rows
  keep : ∀ k, ¬ touched k → p'.rows k = p.rows k
  keys : ∃ ks, p'.keys = p.keys ++ ks ∧ ∀ k ∈ ks, touched k
  counts : p'.counts = p.counts

namespace Moves

variable {touched touched' : Key → Prop} {p p' p'' : Writes} {rows rows' : List Posting}

theorem refl (p : Writes) : Moves touched p p [] where
  log := by simp
  keep _ _ := rfl
  keys := ⟨[], by simp⟩
  counts := rfl

theorem trans (h : Moves touched p p' rows) (h' : Moves touched p' p'' rows') :
    Moves touched p p'' (rows ++ rows') where
  log := by rw [h'.log, h.log, List.append_assoc]
  keep k hk := (h'.keep k hk).trans (h.keep k hk)
  keys := by
    obtain ⟨ks, hks, hall⟩ := h.keys
    obtain ⟨ks', hks', hall'⟩ := h'.keys
    refine ⟨ks ++ ks', by rw [hks', hks, List.append_assoc], ?_⟩
    intro k hk
    rcases List.mem_append.mp hk with hk | hk
    · exact hall k hk
    · exact hall' k hk
  counts := h'.counts.trans h.counts

theorem trans_quiet (h : Moves touched p p' rows) (h' : Moves touched p' p'' []) :
    Moves touched p p'' rows := by
  simpa using h.trans h'

theorem quiet_trans (h : Moves touched p p' []) (h' : Moves touched p' p'' rows) :
    Moves touched p p'' rows := by
  simpa using h.trans h'

theorem mono (h : Moves touched p p' rows) (himp : ∀ k, touched k → touched' k) :
    Moves touched' p p' rows where
  log := h.log
  keep k hk := h.keep k fun ht => hk (himp k ht)
  keys := by
    obtain ⟨ks, hks, hall⟩ := h.keys
    exact ⟨ks, hks, fun k hk => himp k (hall k hk)⟩
  counts := h.counts

theorem write {k : Key} (hk : touched k) (s : Tables) (r : Option (Row k)) :
    Moves touched p (p.write s k r) [] where
  log := by simp
  keep j hj := Pending.write_rows_ne fun heq => hj (heq ▸ hk)
  keys := by
    simp only [Pending.write]
    split
    · exact ⟨[k], rfl, by simpa using hk⟩
    · exact ⟨[], by simp⟩
  counts := rfl

theorem append (row : BalanceLedger) : Moves touched p (p.append row) [row.posting] where
  log := by simp
  keep _ _ := rfl
  keys := ⟨[], by simp [Pending.append]⟩
  counts := rfl

end Moves

/-! ## Rules -/

section Rules

variable {Γ : Protocol Row BalanceLedger} {p : Writes} {s : Tables} {k : Key}

theorem safe_updateManyOrThrow {Q : Unit → Writes → Tables → Prop} {guard : Row k → Bool}
    {data : Row k → Row k} {e : TxError}
    (h : ∀ s' old, Γ.Next p s s' → (p.view s').rows k = some old → guard old = true →
      Q () (p.write s' k (some (data old))) s') :
    Γ.Safe Q (updateManyOrThrow k guard data e) p s := by
  refine .bind (.update (fun _ _ _ => .throw e) ?_)
  intro s' old new hs' hrow hnew
  split at hnew
  · rename_i hguard
    cases hnew
    exact h s' old hs' hrow hguard
  · cases hnew

theorem safe_updateOrThrow {Q : Unit → Writes → Tables → Prop} {data : Row k → Row k}
    (h : ∀ s' old, Γ.Next p s s' → (p.view s').rows k = some old →
      Q () (p.write s' k (some (data old))) s') :
    Γ.Safe Q (updateOrThrow k data) p s := by
  refine .bind (.update (fun _ _ _ => .throw _) ?_)
  intro s' old new hs' hrow hnew
  cases hnew
  exact h s' old hs' hrow

theorem safe_create {Q : Unit → Writes → Tables → Prop} {r : Row k}
    (h : ∀ s', Γ.Next p s s' → (p.view s').rows k = none → Q () (p.write s' k (some r)) s') :
    Γ.Safe Q (create k r) p s :=
  .bind (.insert (fun _ _ _ _ => .throw _) h)

/-- What a movement of `old`'s balance needs. -/
def Admits (old : User) (delta : Int) (info : DeltaMeta) : Prop :=
  (delta < 0 → old.banned = false ∧ -delta ≤ old.balance info.currency) ∧
    (0 < delta → ∀ cap, info.maxBalance = some cap → old.balance info.currency ≤ cap - delta)

/-- The row of a movement. -/
def movementRow (userId : UserId) (delta : Int) (info : DeltaMeta) (balanceAfter : Int) :
    BalanceLedger :=
  ⟨userId, info.currency, delta, info.reason, info.refType, info.refId, balanceAfter⟩

variable {userId : UserId} {delta : Int} {info : DeltaMeta}

/-- A column update that is rejected has written nothing. -/
theorem safe_moveColumn {Q : Except TxError Unit → Writes → Tables → Prop}
    (hreject : ∀ e s', Γ.Next p s s' → Q (.error e) p s')
    (hzero : delta = 0 → Q (.ok ()) p s)
    (hmove : ∀ s' old, delta ≠ 0 → Γ.Next p s s' → (p.view s').rows (.user userId) = some old →
      Admits old delta info →
      Q (.ok ()) (p.write s' (.user userId) (some (old.increment info.currency delta))) s') :
    Γ.Safe Q (moveColumn userId delta info).attempt p s := by
  have hguarded : ∀ (guard : User → Bool) (e : TxError), delta ≠ 0 →
      (∀ old, guard old = true → Admits old delta info) →
      Γ.Safe Q (updateManyOrThrow (.user userId) guard (fun u => u.increment info.currency delta)
        e).attempt p s := by
    intro guard e hne hadmits
    refine .attempt_bind ?_
    intro s' hs'
    cases hrow : (p.view s').rows (.user userId) with
    | none => exact hreject e s' hs'
    | some old =>
      cases hguard : guard old with
      | false =>
        simp only [Option.bind_some, hguard, Bool.false_eq_true, if_false, Option.map_none]
        exact hreject e s' hs'
      | true =>
        simp only [Option.bind_some, hguard, if_true, Option.map_some]
        exact hmove s' old hne hs' hrow (hadmits old hguard)
  unfold moveColumn
  simp only
  split
  · rename_i hneg
    refine hguarded _ _ (by omega) fun old hold => ?_
    simp only [Bool.and_eq_true, Bool.not_eq_true', decide_eq_true_eq] at hold
    exact ⟨fun _ => hold, fun hpos => by omega⟩
  · split
    · rename_i hneg hpos
      split
      · rename_i cap hcap
        refine hguarded _ _ (by omega) fun old hold => ⟨fun h => absurd h hneg, ?_⟩
        intro _ cap' hcap'
        rw [hcap] at hcap'
        cases hcap'
        exact of_decide_eq_true hold
      · rename_i hcap
        refine .attempt_bind ?_
        intro s' hs'
        cases hrow : (p.view s').rows (.user userId) with
        | none => exact hreject _ s' hs'
        | some old =>
          refine hmove s' old (by omega) hs' hrow ⟨fun h => absurd h hneg, fun _ cap hcap' => ?_⟩
          rw [hcap] at hcap'
          cases hcap'
    · exact hzero (by omega)

/-- A movement: rejected, with nothing written; or made, with its row; or of
nothing, with the balance as it is seen. -/
theorem safe_applyBalanceDelta_attempt {Q : Except TxError Int → Writes → Tables → Prop}
    (hreject : ∀ e s', Γ.Next p s s' → Q (.error e) p s')
    (hzero : ∀ s' user, delta = 0 → Γ.Next p s s' → (p.view s').rows (.user userId) = some user →
      Q (.ok (user.balance info.currency))
        (p.append (movementRow userId delta info (user.balance info.currency))) s')
    (hmove : ∀ s' s'' old, delta ≠ 0 → Γ.Next p s s' → (p.view s').rows (.user userId) = some old →
      Admits old delta info → Γ.Later s' s'' →
      Q (.ok (old.balance info.currency + delta))
        ((p.write s' (.user userId) (some (old.increment info.currency delta))).append
          (movementRow userId delta info (old.balance info.currency + delta))) s'') :
    Γ.Safe Q (applyBalanceDelta userId delta info).attempt p s := by
  refine .attempt_bind (safe_moveColumn ?_ ?_ ?_)
  · exact hreject
  · intro h0
    refine .attempt_bind ?_
    intro s' hs'
    cases huser : (p.view s').rows (.user userId) with
    | none =>
      simp only [huser]
      exact hreject _ s' hs'
    | some user =>
      simp only [huser]
      exact hzero s' user h0 hs' huser
  · intro s' old hne hs' hrow hadmits
    refine .attempt_bind ?_
    intro s'' hs''
    have huser : ((p.write s' (.user userId)
        (some (old.increment info.currency delta))).view s'').rows (.user userId) =
        some (old.increment info.currency delta) := Pending.view_rows_some Pending.write_rows_self
    simp only [huser]
    have hbalance : (old.increment info.currency delta).balance info.currency =
        old.balance info.currency + delta := by
      simp [User.increment]
    have hdone := hmove s' s'' old hne hs' hrow hadmits hs''.later
    rw [← hbalance] at hdone
    exact hdone

/-- One that is not caught. -/
theorem safe_applyBalanceDelta {Q : Int → Writes → Tables → Prop}
    (h : ∀ a p' s', Γ.Later s s' → Moves (fun k => k = .user userId) p p' [info.posting userId delta] →
      Q a p' s') :
    Γ.Safe Q (applyBalanceDelta userId delta info) p s := by
  refine .of_attempt (safe_applyBalanceDelta_attempt ?_ ?_ ?_)
  · intro e s' _ a ha
    cases ha
  · intro s' user _ hs' _ a _
    exact h a _ s' hs'.later (.append _)
  · intro s' s'' old _ hs' _ _ hlater a _
    have hwrite : Moves (fun k => k = .user userId) p (p.write s' (.user userId)
        (some (old.increment info.currency delta))) [] := by
      apply Moves.write
      rfl
    exact h a _ s'' (hs'.later.trans hlater) (hwrite.quiet_trans (.append _))

end Rules

end Scadium.Prisma.Sessions
