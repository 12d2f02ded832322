/-
Scadium.Prisma.Ledger — balance changes read off the ledger.

A `Posting` is a ledger row without the balance it records. `Posts ps old
new` says that `new` has exactly the postings `ps` more than `old`, newest
first, and that every balance moved by the postings to it. It composes
(`Posts.trans`), so what a transaction did to the balances is the list of
its postings. `Quiet` is the case without any.

`deriveBalance` (`prisma/apply-balance-delta.ts`) sums up the deltas of a
user. The balance a user starts with is not in the ledger, so the sum is a
balance net of it; and it is one over all currencies, so it is about one
balance only where the user's rows are.
-/
import Mathlib.Algebra.BigOperators.Group.List.Basic
import Mathlib.Algebra.Order.Group.Int
import Scadium.Lib.Runs
import Scadium.Prisma.Committed

namespace Scadium.Prisma

open Scadium.Lib

structure Posting where
  userId : UserId
  currency : Currency
  delta : Int
  reason : String
  refType : String
  refId : Option Nat
  deriving DecidableEq

def BalanceLedger.posting (r : BalanceLedger) : Posting :=
  ⟨r.userId, r.currency, r.delta, r.reason, r.refType, r.refId⟩

def DeltaMeta.posting (info : DeltaMeta) (userId : UserId) (delta : Int) : Posting :=
  ⟨userId, info.currency, delta, info.reason, info.refType, info.refId⟩

/-- What the postings move on one balance. -/
def moved (ps : List Posting) (u : UserId) (c : Currency) : Int :=
  ((ps.filter fun p => p.userId = u ∧ p.currency = c).map (·.delta)).sum

@[simp] theorem moved_nil (u : UserId) (c : Currency) : moved [] u c = 0 := rfl

@[simp] theorem moved_cons (p : Posting) (ps : List Posting) (u : UserId) (c : Currency) :
    moved (p :: ps) u c =
      (if p.userId = u ∧ p.currency = c then p.delta else 0) + moved ps u c := by
  by_cases h : p.userId = u ∧ p.currency = c
  · simp [moved, h]
  · simp [moved, h]

theorem moved_append (ps qs : List Posting) (u : UserId) (c : Currency) :
    moved (ps ++ qs) u c = moved ps u c + moved qs u c := by
  simp [moved]

/-- `new` is `old` after the postings `ps`. -/
structure Posts (ps : List Posting) (old new : Db) : Prop where
  ledger : new.ledger.map (·.posting) = ps ++ old.ledger.map (·.posting)
  balance : ∀ u c, new.balance u c = old.balance u c + moved ps u c

/-- No posting. -/
abbrev Quiet (old new : Db) : Prop := Posts [] old new

namespace Posts

variable {ps qs : List Posting} {a b c : Db}

theorem refl (db : Db) : Quiet db db := ⟨rfl, by simp⟩

theorem trans (h : Posts ps a b) (h' : Posts qs b c) : Posts (qs ++ ps) a c where
  ledger := by rw [h'.ledger, h.ledger, List.append_assoc]
  balance u cur := by
    rw [h'.balance, h.balance, moved_append]
    omega

theorem trans_quiet (h : Posts ps a b) (h' : Quiet b c) : Posts ps a c := h.trans h'

theorem quiet_trans (h : Quiet a b) (h' : Posts ps b c) : Posts ps a c := by
  simpa using h.trans h'

/-- Tables other than `users` and `ledger` do not matter. -/
theorem of_eq (hu : b.users = a.users) (hl : b.ledger = a.ledger) : Quiet a b where
  ledger := by rw [hl]; rfl
  balance u cur := by simp [Db.balance, hu]

/-- Nor do the other columns of a user. -/
theorem of_user {user : User} {u : UserId} {data : User → User} (hu : a.users u = some user)
    (hdata : ∀ user, (data user).balance = user.balance)
    (hb : b = { a with users := Function.update a.users u (some (data user)) }) : Quiet a b where
  ledger := by rw [hb]; rfl
  balance v cur := by
    subst hb
    by_cases hv : v = u
    · subst hv
      simp [Db.balance, hu, hdata]
    · simp [Db.balance, hv]

theorem move {user : User} {u : UserId} (hu : a.users u = some user) (delta : Int)
    (info : DeltaMeta) : Posts [info.posting u delta] a (a.move u user delta info) where
  ledger := rfl
  balance v cur := by
    rw [Db.balance_move hu]
    simp only [moved_cons, moved_nil, DeltaMeta.posting, Int.add_zero,
      @eq_comm _ u v, @eq_comm _ info.currency cur]

end Posts

/-- A movement that ended well posts one row. -/
theorem applyBalanceDelta_posts {κ : Type} {u : UserId} {delta : Int} {info : DeltaMeta}
    {s t : TxState κ Db TxError} {a : Int} (h : (applyBalanceDelta u delta info).run s = .ok a t) :
    Posts [info.posting u delta] s.db t.db := by
  obtain ⟨_, hu, -, -, hdb, -⟩ := applyBalanceDelta_ok h
  rw [hdb]
  exact Posts.move hu delta info

theorem raiseBiggestWin_quiet (db : Db) (u : UserId) (profit : Int) :
    Quiet db (db.raiseBiggestWin u profit) := by
  let raise (user : User) : User := { user with biggestWin := max user.biggestWin profit }
  have hraise : ∀ user, (raise user).balance = user.balance := fun _ => rfl
  rcases updateManyRow_cases db.users u (fun _ => true) raise with
    ⟨user, hu, -, heq⟩ | ⟨-, heq⟩
  · exact Posts.of_user hu hraise (by rw [Db.raiseBiggestWin, heq])
  · exact Posts.of_eq (by rw [Db.raiseBiggestWin, heq]) rfl

/-- A body that keeps the users and the ledger posts nothing. -/
theorem Posts.of_keeps {κ α : Type} {m : DbTx κ α}
    (hm : Tx.Keeps (fun db => (db.users, db.ledger)) m) {s t : TxState κ Db TxError} {a : α}
    (h : m.run s = .ok a t) : Quiet s.db t.db := by
  have hkeep := hm s a t h
  simp only [Prod.mk.injEq] at hkeep
  exact Posts.of_eq hkeep.1 hkeep.2

/-! ## The ledger replayed -/

open Committed

/-- `SUM(delta)` of the user's rows, 0 without any. -/
def deriveBalance (db : Db) (userId : UserId) : Int :=
  ((db.ledger.filter fun r => r.userId = userId).map (·.delta)).sum

/-! ## Histories -/

/-- A movement, in the transaction that commits it. -/
structure Movement where
  userId : UserId
  delta : Int
  info : DeltaMeta

namespace Movement

def step (db : Db) (m : Movement) : Option Db :=
  (moveBalance db m.userId m.delta m.info).toOption

variable {db db' : Db} {m : Movement} {ms : List Movement} {u : UserId} {c : Currency}

theorem step_ok (h : step db m = some db') :
    ∃ user, db.users m.userId = some user ∧ db' = db.move m.userId user m.delta m.info := by
  unfold step at h
  cases hmove : moveBalance db m.userId m.delta m.info with
  | ok =>
    rw [hmove] at h
    cases h
    exact moveBalance_ok hmove
  | error =>
    rw [hmove] at h
    cases h

/-- Every balance moves by the rows of it. -/
theorem run_balance (hrun : run step db ms = some db') (u : UserId) (c : Currency) :
    db'.balance u c - moved (db'.ledger.map (·.posting)) u c =
      db.balance u c - moved (db.ledger.map (·.posting)) u c := by
  refine run_invariant
    (P := fun t => t.balance u c - moved (t.ledger.map (·.posting)) u c =
      db.balance u c - moved (db.ledger.map (·.posting)) u c) ?_ rfl hrun
  intro s m s' hs hstep
  obtain ⟨_, huser, rfl⟩ := step_ok hstep
  have hposts := Posts.move huser m.delta m.info
  rw [hposts.ledger, hposts.balance, moved_append]
  omega

end Movement

/-! ## The replay -/

theorem deriveBalance_eq {db : Db} {u : UserId} {c : Currency}
    (h : ∀ r ∈ db.ledger, r.userId = u → r.currency = c) :
    deriveBalance db u = moved (db.ledger.map (·.posting)) u c := by
  have hmap : ∀ rows : List BalanceLedger, (∀ r ∈ rows, r.userId = u → r.currency = c) →
      ((rows.filter fun r => r.userId = u).map (·.delta)).sum =
        moved (rows.map (·.posting)) u c := by
    intro rows hrows
    induction rows with
    | nil => rfl
    | cons r rows ih =>
      have hrest := ih fun q hq => hrows q (List.mem_cons_of_mem _ hq)
      by_cases hu : r.userId = u
      · have hc := hrows r (List.mem_cons_self ..) hu
        simp [hu, hc, hrest, BalanceLedger.posting]
      · simp [hu, hrest, BalanceLedger.posting]
  exact hmap db.ledger h

/-- In every history, the replay of a user whose rows are all of one currency
is the sum of that currency's deltas: the stored balance net of the opening
one. -/
theorem deriveBalance_net {opening db : Db} {ms : List Movement} (hopen : opening.ledger = [])
    (hrun : run Movement.step opening ms = some db) {u : UserId} {c : Currency}
    (hone : ∀ r ∈ db.ledger, r.userId = u → r.currency = c) :
    deriveBalance db u = moved (db.ledger.map (·.posting)) u c ∧
      deriveBalance db u = db.balance u c - opening.balance u c := by
  have hsum := deriveBalance_eq hone
  have hbalance := Movement.run_balance hrun u c
  rw [hopen, List.map_nil, moved_nil] at hbalance
  refine ⟨hsum, ?_⟩
  rw [hsum]
  omega

namespace Sample

/-- Two users with the default play balance. -/
def openingDb : Db :=
  { Db.empty with
    users := fun u => if u = 1 ∨ u = 2 then some
      { username := none, walletAddress := "", banned := false, fundedAt := none
        referredById := none, signupIpHash := none
        balance := fun c => if c = .jeton then 10000000000 else 0
        totalWagered := 0, totalWon := 0, totalLost := 0, biggestWin := 0, gamesPlayed := 0 }
      else none }

def bet (delta : Int) : Movement := ⟨1, delta, ⟨"crash_bet", "CrashRound", none, .jeton, none⟩⟩

def reward (delta : Int) : Movement := ⟨1, delta, ⟨"block_reward", "EngineBlock", none, .scad, none⟩⟩

end Sample

theorem deriveBalance_net_sample : ∃ db,
    run Movement.step Sample.openingDb [Sample.bet (-300), Sample.bet 500] = some db ∧
      deriveBalance db 1 = db.balance 1 .jeton - Sample.openingDb.balance 1 .jeton := by
  have hsome : (run Movement.step Sample.openingDb [Sample.bet (-300), Sample.bet 500]).any
      (fun db => db.ledger.all fun r => decide (r.userId = 1 → r.currency = .jeton)) = true := by
    decide +kernel
  obtain ⟨db, hrun, hone⟩ := (Option.any_eq_true _ _).mp hsome
  refine ⟨db, hrun, (deriveBalance_net rfl hrun ?_).2⟩
  intro r hr
  exact of_decide_eq_true (List.all_eq_true.mp hone r hr)

/-- A user without rows, and one with rows of two currencies. -/
theorem replay_differs :
    deriveBalance Sample.openingDb 1 ≠
        Sample.openingDb.balance 1 .jeton +
          moved (Sample.openingDb.ledger.map (·.posting)) 1 .jeton ∧
      ∃ db, run Movement.step Sample.openingDb [Sample.bet (-300), Sample.reward 700] = some db ∧
        moved (db.ledger.map (·.posting)) 1 .jeton = -300 ∧ deriveBalance db 1 = 400 ∧
        db.balance 1 .jeton = 9999999700 := by
  refine ⟨by decide +kernel, ?_⟩
  have hany : (run Movement.step Sample.openingDb [Sample.bet (-300), Sample.reward 700]).any
      (fun db => decide (moved (db.ledger.map (·.posting)) 1 .jeton = -300 ∧
        deriveBalance db 1 = 400 ∧ db.balance 1 .jeton = 9999999700)) = true := by
    decide +kernel
  obtain ⟨db, hrun, h⟩ := (Option.any_eq_true _ _).mp hany
  exact ⟨db, hrun, of_decide_eq_true h⟩

end Scadium.Prisma
