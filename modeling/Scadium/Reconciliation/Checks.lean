/-
Scadium.Reconciliation.Checks — the hourly checks
(`apps/api/src/reconciliation/reconciliation.service.ts`).

Each recomputes a stored column by its own rule and reports the users, or
the pools, where the two differ. A check is a function of the committed
state it reads; it writes nothing that is compared.

`Consistent` says of every user, and not of the users a check happens to
look at, what no report says.

The second part is what a transaction does to the books. It is followed
statement by statement (`Executed`): each user's row is folded over the
statements, the bets and the ledger grow by the rows written, and the row
written last on a checked balance records what is stored. The last needs no
clock.
-/
import Scadium.Reconciliation.Writers

namespace Scadium.Reconciliation

open Scadium.Lib Scadium.Prisma
open Scadium.Vault (VaultPool VaultPosition PoolId PositionId)

/-- A row of `ReconciliationDrift`. -/
structure Drift where
  userId : UserId
  field : String
  storedValue : Int
  derivedValue : Int
  deriving DecidableEq

def flag (userId : UserId) (field : String) (stored derived : Int) : List Drift :=
  if stored ≠ derived then [⟨userId, field, stored, derived⟩] else []

/-! ## Aggregates -/

/-- The grouped query over `Bet`; all zero without bets. -/
def betAgg (bets : List BetRow) : Aggregates where
  wagered := (bets.map fun b => (b.amountLamports : Int)).sum
  won := (bets.map fun b => max ((b.payoutLamports : Int) - b.amountLamports) 0).sum
  lost := (bets.map fun b => max ((b.amountLamports : Int) - b.payoutLamports) 0).sum
  biggest := (bets.map fun b => (b.payoutLamports : Int) - b.amountLamports).foldr max 0
  games := bets.length

/-- `ROW_NUMBER() OVER (PARTITION BY "userId" ORDER BY "createdAt" DESC, "id" DESC) = 1`,
among the rows of a currency. -/
def latestOf (s : Books) (u : UserId) (c : Currency) : Option LedgerRow :=
  latest LedgerRow.key LedgerRow.stamp (u, c) s.ledger

/-- What `reconcileAll` reports of one user. -/
def reconcileUser (s : Books) (u : UserId) (row : UserRow) : List Drift :=
  let bets := betAgg (s.betsOf u)
  flag u "totalWagered" row.totals.wagered bets.wagered ++
    flag u "totalWon" row.totals.won bets.won ++
    flag u "totalLost" row.totals.lost bets.lost ++
    flag u "biggestWin" row.totals.biggest bets.biggest ++
    flag u "gamesPlayed" row.totals.games bets.games ++
    match latestOf s u .jeton with
    | some r => flag u "playBalanceLamports" (row.balance .jeton) r.balanceAfter
    | none => []

def reconcileAll (s : Books) : List Drift :=
  s.users.entries.flatMap fun p => reconcileUser s p.1 p.2

/-! ## Balances -/

/-- A balance against its latest row, for the users who have one or the other. -/
def ledgerDrift (currency : Currency) (field : String) (s : Books) : List Drift :=
  (s.users.entries.filter fun p =>
      decide (0 < p.2.balance currency) || (latestOf s p.1 currency).isSome).flatMap fun p =>
    flag p.1 field (p.2.balance currency) (((latestOf s p.1 currency).map (·.balanceAfter)).getD 0)

def stakeLedgerDrift (s : Books) : List Drift := ledgerDrift .scad_staked "scadiumStaked" s

def scadLedgerDrift (s : Books) : List Drift := ledgerDrift .scad "scadiumBalance" s

/-! ## The vault -/

/-- The number of pools and of users whose positions do not add up. -/
def vaultLedgerDrift (s : Books) : Nat :=
  (s.pools.entries.filter fun p => decide (s.sharesIn p.1 ≠ p.2.totalShares)).length +
    (s.users.entries.filter fun p => decide (0 < p.2.balance .scad_vault) &&
      decide ((s.principalOf p.1 : Int) ≠ p.2.balance .scad_vault)).length

/-- No check reports anything. -/
structure NoAlarm (s : Books) : Prop where
  reconcileAll : reconcileAll s = []
  scad : scadLedgerDrift s = []
  staked : stakeLedgerDrift s = []
  vault : vaultLedgerDrift s = 0

/-! ## Consistency -/

/-- The currencies whose balance a check compares with the ledger. -/
def checked : Currency → Bool
  | .jeton | .scad | .scad_staked => true
  | _ => false

/-- The balance that a row, or none, stands for; only play balances start with one. -/
def Records (c : Currency) (balance : Int) : Option LedgerRow → Prop
  | some r => r.balanceAfter = balance
  | none => c = .jeton ∨ balance = 0

structure Consistent (s : Books) : Prop where
  totals : ∀ u, (s.row u).totals = betAgg (s.betsOf u)
  balances : ∀ u c, checked c = true → Records c ((s.row u).balance c) (latestOf s u c)
  shares : ∀ id p, s.pools.get id = some p → s.sharesIn id = p.totalShares
  principal : ∀ u, (s.row u).balance .scad_vault = s.principalOf u

section NoAlarm

variable {s : Books}

theorem flag_self (u : UserId) (field : String) (v : Int) : flag u field v v = [] := by
  simp [flag]

theorem flag_eq_nil {u : UserId} {field : String} {stored derived : Int} :
    flag u field stored derived = [] ↔ stored = derived := by
  unfold flag
  split
  · rename_i h
    simpa using h
  · rename_i h
    simpa using h

/-- A balance check is silent if every user it looks at has the balance of the latest row. -/
theorem ledgerDrift_eq_nil {c : Currency} {field : String} : ledgerDrift c field s = [] ↔
    ∀ u row, s.users.get u = some row → (0 < row.balance c ∨ (latestOf s u c).isSome = true) →
      row.balance c = ((latestOf s u c).map (·.balanceAfter)).getD 0 := by
  unfold ledgerDrift
  rw [List.flatMap_eq_nil_iff]
  constructor
  · intro h u row hrow hseen
    refine flag_eq_nil.mp (h (u, row) (List.mem_filter.mpr ⟨s.users.get_eq_some.mp hrow, ?_⟩))
    simpa using hseen
  · intro h p hp
    obtain ⟨hmem, hseen⟩ := List.mem_filter.mp hp
    exact flag_eq_nil.mpr (h p.1 p.2 (s.users.get_eq_some.mpr hmem) (by simpa using hseen))

theorem Consistent.ledgerDrift (h : Consistent s) {c : Currency} (hc : checked c = true)
    (hj : c ≠ .jeton) (field : String) : ledgerDrift c field s = [] := by
  refine ledgerDrift_eq_nil.mpr ?_
  intro u row hrow _
  have hb := h.balances u c hc
  rw [Books.row_eq hrow] at hb
  cases hlatest : latestOf s u c with
  | none =>
    rw [hlatest] at hb
    exact hb.resolve_left hj
  | some =>
    rw [hlatest] at hb
    exact Eq.symm hb

theorem Consistent.reconcileAll (h : Consistent s) : Reconciliation.reconcileAll s = [] := by
  unfold Reconciliation.reconcileAll
  rw [List.flatMap_eq_nil_iff]
  intro p hp
  have hrow : s.row p.1 = p.2 := Books.row_eq (s.users.get_eq_some.mpr hp)
  have ht := h.totals p.1
  have hb := h.balances p.1 .jeton rfl
  rw [hrow] at ht hb
  unfold reconcileUser
  simp only [ht, flag_self, List.nil_append]
  cases hlatest : latestOf s p.1 .jeton with
  | none => rfl
  | some r =>
    rw [hlatest] at hb
    have heq : r.balanceAfter = p.2.balance .jeton := hb
    simp [heq, flag_self]

theorem Consistent.vaultLedgerDrift (h : Consistent s) : Reconciliation.vaultLedgerDrift s = 0 := by
  unfold Reconciliation.vaultLedgerDrift
  rw [Nat.add_eq_zero_iff, List.length_eq_zero_iff, List.length_eq_zero_iff,
    List.filter_eq_nil_iff, List.filter_eq_nil_iff]
  constructor
  · intro p hp
    have hs := h.shares p.1 p.2 (s.pools.get_eq_some.mpr hp)
    simp [hs]
  · intro p hp
    have hrow : s.row p.1 = p.2 := Books.row_eq (s.users.get_eq_some.mpr hp)
    have hv := h.principal p.1
    rw [hrow] at hv
    simp [hv]

/-- Consistent books raise no alarm. -/
theorem Consistent.noAlarm (h : Consistent s) : NoAlarm s where
  reconcileAll := h.reconcileAll
  scad := h.ledgerDrift rfl (by decide) _
  staked := h.ledgerDrift rfl (by decide) _
  vault := h.vaultLedgerDrift

end NoAlarm

/-! ## Aggregates, one row more -/

open Scadium.Prisma.Committed

/-- One bet more. -/
def Aggregates.add (a : Aggregates) (b : BetRow) : Aggregates where
  wagered := a.wagered + b.amountLamports
  won := a.won + max ((b.payoutLamports : Int) - b.amountLamports) 0
  lost := a.lost + max ((b.amountLamports : Int) - b.payoutLamports) 0
  biggest := max a.biggest ((b.payoutLamports : Int) - b.amountLamports)
  games := a.games + 1

theorem betAgg_cons (b : BetRow) (bets : List BetRow) :
    betAgg (b :: bets) = (betAgg bets).add b := by
  simp only [betAgg, Aggregates.add, List.map_cons, List.sum_cons, List.foldr_cons,
    List.length_cons, Aggregates.mk.injEq, and_true]
  omega

theorem betAgg_biggest (bets : List BetRow) : 0 ≤ (betAgg bets).biggest := by
  induction bets with
  | nil => exact le_refl 0
  | cons b bets ih =>
    rw [betAgg_cons]
    exact le_max_of_le_left ih

namespace Stmt

/-- A user's stored aggregates after a statement. -/
def tally (u : UserId) (a : Aggregates) : Stmt → Aggregates
  | .record userId wagered won lost games profit =>
      if userId = u then a.record wagered won lost games profit else a
  | _ => a

/-- What the bets of a user add up to after it. -/
def derive (u : UserId) (a : Aggregates) : Stmt → Aggregates
  | .createBet bet => if bet.userId = u then a.add bet else a
  | _ => a

theorem after_totals (stmt : Stmt) (u : UserId) (row : UserRow) :
    (stmt.after u row).totals = stmt.tally u row.totals := by
  cases stmt with
  | move userId | record userId =>
    by_cases hu : userId = u
    · simp [after, tally, hu]
    · simp [after, tally, hu]
  | createBet => rfl
  | setPool => rfl
  | putPosition => rfl

end Stmt

def tallies (u : UserId) (stmts : List Stmt) (a : Aggregates) : Aggregates :=
  stmts.foldl (fun a stmt => stmt.tally u a) a

def derives (u : UserId) (stmts : List Stmt) (a : Aggregates) : Aggregates :=
  stmts.foldl (fun a stmt => stmt.derive u a) a

theorem after_totals_list (stmts : List Stmt) (u : UserId) (row : UserRow) :
    (stmts.foldl (fun row stmt => stmt.after u row) row).totals = tallies u stmts row.totals := by
  induction stmts generalizing row with
  | nil => rfl
  | cons stmt rest ih =>
    rw [List.foldl_cons, ih, Stmt.after_totals]
    rfl

theorem derives_biggest {u : UserId} {stmts : List Stmt} {a : Aggregates} (ha : 0 ≤ a.biggest) :
    0 ≤ (derives u stmts a).biggest := by
  induction stmts generalizing a with
  | nil => exact ha
  | cons stmt rest ih =>
    refine ih ?_
    cases stmt with
    | createBet =>
      simp only [Stmt.derive]
      split
      · exact le_max_of_le_left ha
      · exact ha
    | _ => exact ha

/-! ## A transaction, statement by statement -/

/-- The balance a row is about, and its stamp. -/
abbrev Entry := (UserId × Currency) × Stamp

def LedgerRow.entry (r : LedgerRow) : Entry := (r.key, r.stamp)

/-- The rows a transaction writes as the `n`-th and following, newest first. -/
def written (clock : Nat → Stamp) : Nat → List Stmt → List Entry
  | _, [] => []
  | n, stmt :: rest =>
      match stmt.key? with
      | some k => written clock (n + 1) rest ++ [(k, clock n)]
      | none => written clock n rest

def Stmt.onPools (pools : Table PoolId VaultPool) : Stmt → Table PoolId VaultPool
  | .setPool id pool => pools.set id pool
  | _ => pools

def Stmt.onPositions (positions : Table PositionId VaultPosition) :
    Stmt → Table PositionId VaultPosition
  | .putPosition id position => Reconciliation.putPosition positions id position
  | _ => positions

/-- The row written last records the balance. -/
def Newest (s : Books) : Prop :=
  ∀ u c, checked c = true →
    Records c ((s.row u).balance c) (ofKey LedgerRow.key (u, c) s.ledger).head?

/-- What the statements of a transaction did. -/
structure Executed (clock : Nat → Stamp) (stmts : List Stmt) (s s' : Books) : Prop where
  row : ∀ u, s'.row u = stmts.foldl (fun row stmt => stmt.after u row) (s.row u)
  bets : ∀ u, betAgg (s'.betsOf u) = derives u stmts (betAgg (s.betsOf u))
  entries : s'.ledger.map LedgerRow.entry =
    written clock s.ledger.length stmts ++ s.ledger.map LedgerRow.entry
  newest : Newest s → Newest s'
  pools : s'.pools = stmts.foldl Stmt.onPools s.pools
  positions : s'.positions = stmts.foldl Stmt.onPositions s.positions
  claims : s'.claims = s.claims

section Execution

variable {clock : Nat → Stamp} {s s' s'' : Books} {stmt : Stmt} {stmts : List Stmt}

theorem Executed.nil : Executed clock [] s s := ⟨fun _ => rfl, fun _ => rfl, rfl, id, rfl, rfl, rfl⟩

theorem written_cons (n : Nat) : written clock n (stmt :: stmts) =
    written clock (n + (written clock n [stmt]).length) stmts ++ written clock n [stmt] := by
  cases h : stmt.key? with
  | none | some => simp [written, h]

theorem Executed.cons (h : Executed clock [stmt] s s') (h' : Executed clock stmts s' s'') :
    Executed clock (stmt :: stmts) s s'' where
  row u := by rw [h'.row, h.row]; rfl
  bets u := by rw [h'.bets, h.bets]; rfl
  entries := by
    have hlength : s'.ledger.length =
        s.ledger.length + (written clock s.ledger.length [stmt]).length := by
      have hmap := congrArg List.length h.entries
      simp only [List.length_map, List.length_append] at hmap
      omega
    rw [h'.entries, h.entries, hlength, ← List.append_assoc, ← written_cons]
  newest := fun hn => h'.newest (h.newest hn)
  pools := by rw [h'.pools, h.pools]; rfl
  positions := by rw [h'.positions, h.positions]; rfl
  claims := h'.claims.trans h.claims

/-- A movement: the new row records what it makes of the balance. -/
theorem Newest.move {u : UserId} {c : Currency} {delta : Int} {row : UserRow} {stamp : Stamp}
    (hn : Newest s) (hrow : s.row u = row) : Newest { s with
      users := s.users.set u (row.increment c delta)
      ledger := ⟨stamp, u, c, delta, row.balance c + delta⟩ :: s.ledger } := by
  intro v c' hc
  have hold := hn v c' hc
  rw [Books.row_set rfl]
  rw [ofKey_cons]
  by_cases hkey : (u, c) = (v, c')
  · cases hkey
    simp [LedgerRow.key, Records]
  · have hne : ¬ (LedgerRow.key ⟨stamp, u, c, delta, row.balance c + delta⟩ = (v, c')) := hkey
    rw [if_neg hne]
    by_cases hv : v = u
    · subst hv
      have hc' : c ≠ c' := fun h => hkey (by rw [h])
      rw [hrow] at hold
      simpa [hc'] using hold
    · rwa [if_neg hv]

/-- An update that leaves the balances alone. -/
theorem Newest.of_balances (hn : Newest s) (hledger : s'.ledger = s.ledger)
    (hrow : ∀ u c, checked c = true → (s'.row u).balance c = (s.row u).balance c) : Newest s' := by
  intro u c hc
  rw [hrow u c hc, hledger]
  exact hn u c hc

theorem execStmt_executed (h : execStmt clock s stmt = .ok s') : Executed clock [stmt] s s' := by
  cases stmt with
  | move userId =>
    obtain ⟨row, hrow, rfl⟩ := applyBalanceDelta_ok h
    exact
      { row := by
          intro v
          rw [Books.row_set rfl]
          by_cases hv : v = userId
          · subst hv
            simp [Stmt.after, Books.row_eq hrow]
          · simp [Stmt.after, hv, Ne.symm hv]
        bets := fun _ => rfl
        entries := rfl
        newest := fun hn => hn.move (Books.row_eq hrow)
        pools := rfl, positions := rfl, claims := rfl }
  | record userId =>
    obtain ⟨row, hrow, rfl⟩ := updateUser_ok h
    exact
      { row := by
          intro v
          rw [Books.row_set rfl]
          by_cases hv : v = userId
          · subst hv
            simp [Stmt.after, Books.row_eq hrow]
          · simp [Stmt.after, hv, Ne.symm hv]
        bets := fun _ => rfl
        entries := rfl
        newest := by
          intro hn
          refine hn.of_balances rfl ?_
          intro v c _
          rw [Books.row_set rfl]
          split
          · rename_i hv
            rw [hv, Books.row_eq hrow]
          · rfl
        pools := rfl, positions := rfl, claims := rfl }
  | createBet bet =>
    cases h
    exact
      { row := fun _ => rfl
        bets := by
          intro u
          by_cases hu : bet.userId = u
          · simp [Books.betsOf, derives, Stmt.derive, hu, betAgg_cons]
          · simp [Books.betsOf, derives, Stmt.derive, hu]
        entries := rfl, newest := id, pools := rfl, positions := rfl, claims := rfl }
  | setPool | putPosition =>
    cases h
    exact ⟨fun _ => rfl, fun _ => rfl, rfl, fun hn => hn, rfl, rfl, rfl⟩

theorem exec_executed (h : exec clock s stmts = .ok s') : Executed clock stmts s s' := by
  induction stmts generalizing s with
  | nil =>
    cases h
    exact .nil
  | cons stmt stmts ih =>
    simp only [exec, bind_ok] at h
    obtain ⟨_, hstmt, hrest⟩ := h
    exact (execStmt_executed hstmt).cons (ih hrest)

end Execution

end Scadium.Reconciliation
