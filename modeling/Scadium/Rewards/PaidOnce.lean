/-
Scadium.Rewards.PaidOnce — what a claim transfers on chain, against what it
reserves.

The service is told of a signature or of none, and none does not say whether the
transfer has landed or will. The program refuses a second transfer to the same
wallet for the same kind and period, and the wallet may change between two
attempts. So a claim that has failed may have been paid, and one that is
confirmed paid twice.

- Steps: a step creates a row, starts an attempt, lands a transfer, answers an
  attempt, or does none of these (`step_effect`).
- The invariant: what was sent and what has landed is of a row, and the attempt
  of a confirmed claim has landed.
- Regular runs: the attempts of a claim go to one wallet, none is told that it
  has failed when it has landed or lands later, and the last is counted when no
  other is under way. Then a claim that waits is paid only while its attempt
  waits too, and the claim record lets one transfer of a claim through.
- Accounts: what has accrued is in the balance, in the reserve or transferred,
  and cashback is within what the losses are worth.
-/
import Scadium.Rewards.Cashback

namespace Scadium.Rewards

open Scadium.Lib Scadium.Queue
open Scadium.Prisma (Time)

/-! ## What is counted -/

/-- The kinds that have a balance and a reserve: SCAD and USDS. -/
def RewardKind.Reserves (kind : RewardKind) : Prop := kind = .wagerReward ∨ kind = .dividend

def Account.balance (u : Account) : RewardKind → Int
  | .wagerReward => u.scadiumBalance
  | .dividend => u.usdsBalance
  | .cashback | .dailyCase => 0

def Account.reserved (u : Account) : RewardKind → Int
  | .wagerReward => u.scadiumReserved
  | .dividend => u.usdsReserved
  | .cashback | .dailyCase => 0

/-- What an action accrues. -/
def Action.accrues (kind : RewardKind) : Action → Nat
  | .accrue amount => if kind = .wagerReward then amount else 0
  | .distribute amount => if kind = .dividend then amount else 0
  | _ => 0

/-- What has accrued along a run. -/
def accrued (kind : RewardKind) (es : List Action) : Nat := weight (Action.accrues kind) es

def Transfer.of (kind : RewardKind) (t : Transfer) : Nat := if t.kind = kind then t.amount else 0

namespace State

variable (s : State)

def isPending (id : ClaimId) : Bool := (s.claims.get id).any fun c => c.status == .pending

def transferred (kind : RewardKind) : Nat := weight (Transfer.of kind) s.transfers

/-- What has landed for claims that wait for their answer, and is still in the
reserve. -/
def unanswered (kind : RewardKind) : Nat :=
  weight (fun t => if s.isPending t.claimId then t.of kind else 0) s.transfers

/-- Balance, reserve and transfers add up to what has accrued. -/
def Balanced (es : List Action) (kind : RewardKind) : Prop :=
  s.user.balance kind + s.user.reserved kind + s.transferred kind =
    accrued kind es + s.unanswered kind

/-- No claim that has failed was paid, and none was paid twice. -/
structure PaidOnce : Prop where
  kept : ∀ t ∈ s.transfers, ∀ row, s.claims.get t.claimId = some row → row.status ≠ .failed
  once : (s.transfers.map Transfer.claimId).Nodup

/-- What has accrued is in the balance, in the reserve or transferred; and the
cashback transferred is no more than what the losses are worth. -/
structure Accounted (es : List Action) : Prop where
  reserving : ∀ kind : RewardKind, kind.Reserves → s.Balanced es kind
  cashback : s.transferred .cashback ≤ s.cashbackDue

end State

instance (s : State) : Decidable s.PaidOnce :=
  decidable_of_iff ((∀ t ∈ s.transfers, ∀ row ∈ s.claims.get t.claimId, row.status ≠ .failed) ∧
      (s.transfers.map Transfer.claimId).Nodup)
    ⟨fun h => ⟨h.1, h.2⟩, fun h => ⟨h.kept, h.once⟩⟩

/-- The attempts of a claim go to one wallet. A transfer lands while its attempt
waits, and an attempt that is told of no signature has not landed. The answer that
uses up the attempts of a claim comes when no other attempt for it is under way. -/
def Regular (s : State) : Action → Prop
  | .startAttempt id =>
      (∀ t ∈ s.transfers, t.claimId = id → t.walletAddress = s.user.walletAddress) ∧
        ∀ p ∈ s.sent.entries, p.2.claimId = id → p.2.walletAddress = s.user.walletAddress
  | .land id => (s.attempts.get id).isSome
  | .finishAttempt id false => (s.sent.get id).isSome ∧ ∀ a ∈ s.attempts.get id,
      MAX_CLAIM_ATTEMPTS ≤ a.claim.attempts + 1 → s.isPending a.claimId = true →
        ∀ p ∈ s.attempts.entries, p.2.claimId = a.claimId → p.1 = id
  | _ => True

instance (s : State) (a : Action) : Decidable (Regular s a) :=
  match a with
  | .startAttempt id => inferInstanceAs (Decidable
      ((∀ t ∈ s.transfers, t.claimId = id → t.walletAddress = s.user.walletAddress) ∧
        ∀ p ∈ s.sent.entries, p.2.claimId = id → p.2.walletAddress = s.user.walletAddress))
  | .land id => inferInstanceAs (Decidable ((s.attempts.get id).isSome = true))
  | .finishAttempt id false => inferInstanceAs (Decidable ((s.sent.get id).isSome = true ∧
      ∀ a ∈ s.attempts.get id, MAX_CLAIM_ATTEMPTS ≤ a.claim.attempts + 1 →
        s.isPending a.claimId = true →
          ∀ p ∈ s.attempts.entries, p.2.claimId = a.claimId → p.1 = id))
  | .finishAttempt _ true | .configure _ | .lose _ | .accrue _ | .distribute _
  | .setPrimaryWallet _ | .claim _ _ | .checkDailyCase _ _ | .openDailyCase _ _ => .isTrue trivial

/-! ## Steps -/

/-- What an answer makes of the row and of the user. -/
inductive Answer (s : State) (i : Nat) (a : Attempt) (row row' : RewardClaim) (user : Account) :
    Bool → Prop where
  /-- an attempt more, or nothing if the claim is final -/
  | waits {signed : Bool} (hstatus : row'.status = row.status) (huser : user = s.user)
      (hsigned : signed = true → row.status ≠ .pending) : Answer s i a row row' user signed
  | confirms (hpending : row.status = .pending) (hlanded : s.sent.get i = none)
      (hstatus : row'.status = .confirmed) (huser : user = s.user.finalize a.claim a.totalLost) :
      Answer s i a row row' user true
  | fails (hpending : row.status = .pending) (hmax : MAX_CLAIM_ATTEMPTS ≤ a.claim.attempts + 1)
      (hstatus : row'.status = .failed) (huser : user = s.user.restore a.claim) :
      Answer s i a row row' user false

/-- What a step does to the rows, the transfers and the balances. -/
inductive Effect (s : State) : Action → State → Prop where
  /-- nothing but an accrual -/
  | other {b : Action} {t : State} (hclaims : t.claims = s.claims)
      (hattempts : t.attempts = s.attempts) (hsent : t.sent = s.sent)
      (htransfers : t.transfers = s.transfers) (hrecords : t.records = s.records)
      (hdrawn : s.drawn ≤ t.drawn)
      (hbalance : ∀ k, t.user.balance k = s.user.balance k + b.accrues k)
      (hreserved : ∀ k, t.user.reserved k = s.user.reserved k) : Effect s b t
  | create {b : Action} (c : RewardClaim) (user : Account) (cases_ : Table Nat CaseCheck)
      (opens : List Opened) (hstatus : c.status = .pending ∨ c.status = .offchain)
      (hbalance : ∀ k, user.balance k + user.reserved k = s.user.balance k + s.user.reserved k)
      (haccrues : ∀ k, b.accrues k = 0) :
      Effect s b { s with
        user := user, cases := cases_, opens := opens
        claims := s.claims.set s.drawn c, drawn := s.drawn + 1 }
  | start (id : ClaimId) (c : RewardClaim) (hget : s.claims.get id = some c)
      (hpending : c.status = .pending) :
      Effect s (.startAttempt id) { s with
        attempts := s.attempts.set s.drawn ⟨id, c, s.user.totalLost⟩
        sent := s.sent.set s.drawn (s.transferOf id c)
        drawn := s.drawn + 1 }
  | land (id : Nat) (t : Transfer) (hget : s.sent.get id = some t)
      (hnew : t.record ∉ s.records) :
      Effect s (.land id) { s with
        sent := s.sent.erase id
        records := t.record :: s.records
        transfers := t :: s.transfers }
  | answer (i : Nat) (signed : Bool) (a : Attempt) (row row' : RewardClaim)
      (claims : Table ClaimId RewardClaim) (user : Account) (ha : s.attempts.get i = some a)
      (hrow : s.claims.get a.claimId = some row)
      (hclaims : ∀ j, claims.get j = if j = a.claimId then some row' else s.claims.get j)
      (hsame : row'.kind = row.kind ∧ row'.period = row.period ∧ row'.amountScad = row.amountScad)
      (hanswer : Answer s i a row row' user signed) :
      Effect s (.finishAttempt i signed) { s with
        attempts := s.attempts.erase i, claims := claims, user := user }

section Effects

variable {s s' : State}

theorem isPending_iff {id : ClaimId} {row : RewardClaim} (h : s.claims.get id = some row) :
    s.isPending id = true ↔ row.status = .pending := by
  simp [State.isPending, h]

/-- The fields that a new row leaves alone. -/
theorem createClaim_eq {kind : RewardKind} {period amount : Nat} {status : ClaimStatus}
    (h : s.createClaim kind period amount status = some s') :
    s' = { s with
      claims := s.claims.set s.drawn ⟨kind, period, amount, status, 0⟩
      drawn := s.drawn + 1 } := by
  unfold State.createClaim at h
  split at h
  · cases h
  · exact (Option.some.inj h).symm

/-- A reserve moves what the balance loses. -/
theorem reserve_balance {u u' : Account} {kind : RewardKind} {amount : Nat}
    (h : u.reserve kind = some (amount, u')) (k : RewardKind) :
    u'.balance k + u'.reserved k = u.balance k + u.reserved k := by
  cases kind with
  | wagerReward =>
    simp only [Account.reserve] at h
    split at h
    · cases h
    · cases h
      cases k with
      | wagerReward =>
        simp only [Account.balance, Account.reserved]
        omega
      | _ => rfl
  | cashback =>
    simp only [Account.reserve] at h
    split at h <;> cases h
    rfl
  | dailyCase => cases h
  | dividend =>
    simp only [Account.reserve] at h
    split at h
    · cases h
    · cases h
      cases k with
      | dividend =>
        simp only [Account.balance, Account.reserved]
        omega
      | _ => rfl

/-- A row that is not written anew. -/
theorem get_unchanged {id : ClaimId} {row : RewardClaim} (hrow : s.claims.get id = some row)
    (j : ClaimId) : s.claims.get j = if j = id then some row else s.claims.get j := by
  split
  · rename_i hj
    rw [hj, hrow]
  · rfl

theorem finishAttempt_effect {id : Nat} {signed : Bool}
    (h : s.finishAttempt id signed = some s') : Effect s (.finishAttempt id signed) s' := by
  unfold State.finishAttempt at h
  split at h
  · cases h
  rename_i a ha
  split at h
  · cases h
  rename_i row hrow
  have hset (row' : RewardClaim) (j : ClaimId) : (s.claims.set a.claimId row').get j =
      if j = a.claimId then some row' else s.claims.get j := Table.get_set _
  cases signed with
  | true =>
    simp only [if_true] at h
    split at h
    · cases h
    rename_i hsent
    cases h
    unfold State.confirm
    split
    · rename_i hpending
      exact .answer id true a row _ _ _ ha hrow (hset _) ⟨rfl, rfl, rfl⟩
        (.confirms hpending (by simpa using hsent) rfl rfl)
    · rename_i hfinal
      exact .answer id true a row row _ _ ha hrow (get_unchanged hrow) ⟨rfl, rfl, rfl⟩
        (.waits rfl rfl fun _ => hfinal)
  | false =>
    simp only [Bool.false_eq_true, if_false] at h
    cases h
    unfold State.fail
    dsimp only
    split
    · exact .answer id false a row _ _ _ ha hrow (hset _) ⟨rfl, rfl, rfl⟩ (.waits rfl rfl nofun)
    · rename_i hmax
      split
      · rename_i hpending
        exact .answer id false a row _ _ _ ha hrow (hset _) ⟨rfl, rfl, rfl⟩
          (.fails hpending (Nat.le_of_not_lt hmax) rfl rfl)
      · exact .answer id false a row row _ _ ha hrow (get_unchanged hrow) ⟨rfl, rfl, rfl⟩
          (.waits rfl rfl nofun)

theorem step_effect {a : Action} (h : step s a = some s') : Effect s a s' := by
  cases a with
  | configure =>
    cases h
    exact .other rfl rfl rfl rfl rfl (Nat.le_refl _) (fun k => (Int.add_zero _).symm) fun _ => rfl
  | lose | setPrimaryWallet =>
    cases h
    exact .other rfl rfl rfl rfl rfl (Nat.le_refl _)
      (fun k => by cases k <;> exact (Int.add_zero _).symm) fun k => by cases k <;> rfl
  | accrue amount | distribute amount =>
    cases h
    exact .other rfl rfl rfl rfl rfl (Nat.le_refl _)
      (fun k => by cases k <;> simp [Account.balance, Action.accrues])
      fun k => by cases k <;> rfl
  | claim =>
    simp only [step, State.claim] at h
    split at h
    · cases h
    split at h
    · cases h
    rename_i amount user hreserve
    rw [createClaim_eq h]
    exact .create _ user s.cases s.opens (.inl rfl) (reserve_balance hreserve) fun _ => rfl
  | checkDailyCase =>
    simp only [step, State.checkDailyCase] at h
    split at h
    · cases h
    cases h
    exact .other rfl rfl rfl rfl rfl (Nat.le_succ _) (fun k => (Int.add_zero _).symm) fun _ => rfl
  | openDailyCase =>
    simp only [step, State.openDailyCase] at h
    split at h
    · cases h
    rename_i c hcase
    rw [createClaim_eq h]
    refine .create _ _ _ _ ?_ (fun k => by cases k <;> rfl) fun _ => rfl
    cases s.chainEnabled with
    | false => exact .inr rfl
    | true => exact .inl rfl
  | startAttempt claimId =>
    simp only [step, State.startAttempt] at h
    split at h
    · cases h
    rename_i claim hget
    split at h
    · cases h
    rename_i hguard
    simp only [Bool.or_eq_true, not_or] at hguard
    cases h
    exact .start claimId claim hget (by simpa using hguard.2)
  | land id =>
    simp only [step, State.land] at h
    split at h
    · cases h
    rename_i t hget
    split at h
    · cases h
    rename_i hnew
    cases h
    exact .land id t hget hnew
  | finishAttempt => exact finishAttempt_effect h

end Effects

/-! ## The invariant -/

/-- The row a transfer was sent for. -/
def State.Backs (s : State) (t : Transfer) : Prop :=
  ∃ row, s.claims.get t.claimId = some row ∧ row.kind = t.kind ∧ row.period = t.period ∧
    row.amountScad = t.amount ∧ row.status ≠ .offchain

/-- The row an attempt has read. -/
def State.Read (s : State) (a : Attempt) : Prop :=
  ∃ row, s.claims.get a.claimId = some row ∧ row.kind = a.claim.kind ∧
    row.amountScad = a.claim.amountScad

/-- A transfer of the claim has landed. -/
def State.Paid (s : State) (id : ClaimId) : Prop := ∃ t ∈ s.transfers, t.claimId = id

/-- The transfer is on its way, or has landed. -/
def State.Sent (s : State) (t : Transfer) : Prop := t ∈ s.transfers ∨ ∃ i, s.sent.get i = some t

/-- Transfers are of rows, the transfer of an attempt is on its way or has landed, what has
landed has a claim record, and a confirmed claim was paid. -/
structure State.Sound (s : State) : Prop where
  kept : s.Kept
  fresh : ∀ i a, s.attempts.get i = some a → i < s.drawn
  read : ∀ i a, s.attempts.get i = some a → s.Read a
  backs : ∀ t, s.Sent t → s.Backs t
  answered : ∀ i a, s.attempts.get i = some a →
    (∃ t, s.sent.get i = some t ∧ t.claimId = a.claimId) ∨
      s.sent.get i = none ∧ s.Paid a.claimId
  recorded : ∀ t ∈ s.transfers, t.record ∈ s.records
  confirmed : ∀ id row, s.claims.get id = some row → row.status = .confirmed → s.Paid id

section Steps

variable {s s' : State} {a : Action}

/-- Rows stay, and keep what they are for. -/
def State.Extends (s s' : State) : Prop :=
  ∀ id row, s.claims.get id = some row → ∃ row', s'.claims.get id = some row' ∧
    row'.kind = row.kind ∧ row'.period = row.period ∧ row'.amountScad = row.amountScad ∧
      (row.status ≠ .offchain → row'.status ≠ .offchain)

theorem Answer.offchain {i : Nat} {signed : Bool} {att : Attempt} {row row' : RewardClaim}
    {user : Account} (h : Answer s i att row row' user signed) (hrow : row.status ≠ .offchain) :
    row'.status ≠ .offchain := by
  cases h with
  | waits hstatus => rwa [hstatus]
  | confirms _ _ hstatus | fails _ _ hstatus => simp [hstatus]

theorem Effect.extends (h : Effect s a s') (hk : s.Kept) : s.Extends s' := by
  intro id row hrow
  cases h with
  | other hclaims => exact ⟨row, hclaims ▸ hrow, rfl, rfl, rfl, fun h => h⟩
  | create =>
    have hne : id ≠ s.drawn := Nat.ne_of_lt (hk.inv.fresh id row hrow)
    exact ⟨row, (Table.get_set_ne _ hne).trans hrow, rfl, rfl, rfl, fun h => h⟩
  | start | land => exact ⟨row, hrow, rfl, rfl, rfl, fun h => h⟩
  | answer i signed att old row' claims user hatt hold hclaims hsame hanswer =>
    obtain ⟨hkind, hperiod, hamount⟩ := hsame
    by_cases hid : id = att.claimId
    · subst hid
      cases hrow.symm.trans hold
      exact ⟨row', by simp [hclaims], hkind, hperiod, hamount, hanswer.offchain⟩
    · exact ⟨row, by simp [hclaims, hid, hrow], rfl, rfl, rfl, fun h => h⟩

theorem State.Backs.mono {t : Transfer} (h : s.Backs t) (he : s.Extends s') : s'.Backs t := by
  obtain ⟨_, hrow, hkind, hperiod, hamount, hstatus⟩ := h
  obtain ⟨row', hrow', hkind', hperiod', hamount', hstatus'⟩ := he _ _ hrow
  exact ⟨row', hrow', hkind'.trans hkind, hperiod'.trans hperiod, hamount'.trans hamount,
    hstatus' hstatus⟩

theorem State.Read.mono {att : Attempt} (h : s.Read att) (he : s.Extends s') : s'.Read att := by
  obtain ⟨_, hrow, hkind, hamount⟩ := h
  obtain ⟨row', hrow', hkind', -, hamount', -⟩ := he _ _ hrow
  exact ⟨row', hrow', hkind'.trans hkind, hamount'.trans hamount⟩

/-- What is sent after a step was sent before it, or is of a row that waits. -/
theorem Effect.sent (h : Effect s a s') {t : Transfer} (ht : s'.Sent t) :
    s.Sent t ∨ ∃ id c, a = .startAttempt id ∧ s.claims.get id = some c ∧ c.status = .pending ∧
      t = s.transferOf id c := by
  cases h with
  | other _ _ hsent htransfers =>
    unfold State.Sent at ht
    rw [hsent, htransfers] at ht
    exact .inl ht
  | create | answer => exact .inl ht
  | start id c hget hpending =>
    obtain ht | ⟨i, ht⟩ := ht
    · exact .inl (.inl ht)
    · rw [Table.get_set] at ht
      split at ht
      · exact .inr ⟨id, c, rfl, hget, hpending, (Option.some.inj ht).symm⟩
      · exact .inl (.inr ⟨i, ht⟩)
  | land id t' hget =>
    obtain ht | ⟨i, ht⟩ := ht
    · obtain rfl | ht := List.mem_cons.mp ht
      · exact .inl (.inr ⟨id, hget⟩)
      · exact .inl (.inl ht)
    · exact .inl (.inr ⟨i, Table.get_of_erase _ ht⟩)

theorem Effect.paid (h : Effect s a s') {id : ClaimId} (hp : s.Paid id) : s'.Paid id := by
  obtain ⟨t, ht, hid⟩ := hp
  cases h with
  | other _ _ _ htransfers => exact ⟨t, htransfers ▸ ht, hid⟩
  | land => exact ⟨t, List.mem_cons_of_mem _ ht, hid⟩
  | create | start | answer => exact ⟨t, ht, hid⟩

/-- An attempt after a step was there before it, or has just been made. -/
theorem Effect.attempt (h : Effect s a s') {i : Nat} {att : Attempt}
    (hatt : s'.attempts.get i = some att) :
    s.attempts.get i = some att ∨
      i = s.drawn ∧ ∃ c, a = .startAttempt att.claimId ∧ s.claims.get att.claimId = some c ∧
        c.status = .pending ∧ att.claim = c := by
  cases h with
  | other _ hattempts => exact .inl (hattempts ▸ hatt)
  | create | land => exact .inl hatt
  | answer => exact .inl (Table.get_of_erase _ hatt)
  | start id c hget hpending =>
    rw [Table.get_set] at hatt
    split at hatt
    · rename_i hi
      cases hatt
      exact .inr ⟨hi, c, rfl, hget, hpending, rfl⟩
    · exact .inl hatt

theorem Effect.drawn (h : Effect s a s') : s.drawn ≤ s'.drawn := by
  cases h with
  | other _ _ _ _ _ hdrawn => exact hdrawn
  | create | start => exact Nat.le_succ _
  | land | answer => exact Nat.le_refl _

/-- The transfer of an attempt stays on its way until it has landed. -/
theorem Effect.answered (h : Effect s a s') (hs : s.Sound) {i : Nat} {att : Attempt}
    (hatt : s'.attempts.get i = some att) :
    (∃ t, s'.sent.get i = some t ∧ t.claimId = att.claimId) ∨
      s'.sent.get i = none ∧ s'.Paid att.claimId := by
  have hpaid := @Effect.paid _ _ _ h
  cases h with
  | other _ hattempts hsent =>
    rw [hattempts] at hatt
    rw [hsent]
    exact (hs.answered i att hatt).imp_right fun ⟨hnone, hp⟩ => ⟨hnone, hpaid hp⟩
  | create => exact hs.answered i att hatt
  | answer => exact hs.answered i att (Table.get_of_erase _ hatt)
  | start =>
    by_cases hi : i = s.drawn
    · subst hi
      rw [Table.get_set_self] at hatt
      cases hatt
      exact .inl ⟨_, Table.get_set_self _, rfl⟩
    · rw [Table.get_set_ne _ hi] at hatt ⊢
      exact hs.answered i att hatt
  | land id t hget =>
    by_cases hi : i = id
    · subst hi
      obtain ⟨_, ht', hid⟩ | ⟨hnone, -⟩ := hs.answered i att hatt
      · cases hget.symm.trans ht'
        exact .inr ⟨Table.get_erase_self _, t, List.mem_cons_self .., hid⟩
      · rw [hget] at hnone
        cases hnone
    · rw [Table.get_erase_ne _ hi]
      exact (hs.answered i att hatt).imp_right fun ⟨hnone, hp⟩ => ⟨hnone, hpaid hp⟩

/-- A row that is confirmed after a step was so before it, or was paid. -/
theorem Effect.confirmed (h : Effect s a s') (hs : s.Sound) {id : ClaimId} {row : RewardClaim}
    (hrow : s'.claims.get id = some row) (hstatus : row.status = .confirmed) : s.Paid id := by
  cases h with
  | other hclaims => exact hs.confirmed id row (hclaims ▸ hrow) hstatus
  | start | land => exact hs.confirmed id row hrow hstatus
  | create c _ _ _ hnew =>
    rw [Table.get_set] at hrow
    split at hrow
    · cases hrow
      rw [hstatus] at hnew
      rcases hnew with hnew | hnew <;> cases hnew
    · exact hs.confirmed id row hrow hstatus
  | answer i signed att old row' claims user hatt hold hclaims hsame hanswer =>
    rw [hclaims] at hrow
    split at hrow
    · rename_i hid
      cases hrow
      subst hid
      cases hanswer with
      | waits hkeeps => exact hs.confirmed _ old hold (hkeeps ▸ hstatus)
      | confirms _ hlanded =>
        obtain ⟨t, ht, -⟩ | ⟨-, hp⟩ := hs.answered i att hatt
        · rw [hlanded] at ht
          cases ht
        · exact hp
      | fails _ _ hfailed =>
        rw [hfailed] at hstatus
        cases hstatus
    · exact hs.confirmed id row hrow hstatus

theorem Effect.recorded (h : Effect s a s') (hs : s.Sound) :
    ∀ t ∈ s'.transfers, t.record ∈ s'.records := by
  cases h with
  | other _ _ _ htransfers hrecords =>
    rw [htransfers, hrecords]
    exact hs.recorded
  | create | start | answer => exact hs.recorded
  | land =>
    intro t' ht'
    obtain rfl | ht' := List.mem_cons.mp ht'
    · exact List.mem_cons_self ..
    · exact List.mem_cons_of_mem _ (hs.recorded t' ht')

theorem sound_step (hs : s.Sound) (h : step s a = some s') : s'.Sound := by
  have he := step_effect h
  have hext := he.extends hs.kept
  exact
    { kept := kept_step hs.kept h
      fresh := by
        intro i att hatt
        obtain hold | ⟨rfl, _, rfl, -⟩ := he.attempt hatt
        · exact Nat.lt_of_lt_of_le (hs.fresh i att hold) he.drawn
        · cases he with
          | other _ hattempts =>
            rw [hattempts] at hatt
            exact absurd (hs.fresh _ _ hatt) (Nat.lt_irrefl _)
          | create | start => exact Nat.lt_succ_self _
      read := by
        intro i att hatt
        obtain hold | ⟨-, c, -, hget, -, rfl⟩ := he.attempt hatt
        · exact (hs.read i att hold).mono hext
        · exact State.Read.mono ⟨_, hget, rfl, rfl⟩ hext
      backs := by
        intro t ht
        obtain hold | ⟨id, c, -, hget, hpending, rfl⟩ := he.sent ht
        · exact (hs.backs t hold).mono hext
        · exact State.Backs.mono ⟨c, hget, rfl, rfl, rfl, by simp [hpending]⟩ hext
      answered := fun i att hatt => he.answered hs hatt
      recorded := he.recorded hs
      confirmed := fun id row hrow hstatus => he.paid (he.confirmed hs hrow hstatus) }

/-! ## Regular runs -/

/-- In a regular run the transfers of a claim go to one wallet, what has landed for a claim
that waits has an attempt that waits, and the attempts of a failed claim are over. -/
structure State.Told (s : State) : Prop where
  wallet : ∀ t t', s.Sent t → s.Sent t' → t.claimId = t'.claimId →
    t.walletAddress = t'.walletAddress
  awaits : ∀ t ∈ s.transfers, s.isPending t.claimId = true → ∃ i att,
    s.attempts.get i = some att ∧ att.claimId = t.claimId ∧ s.sent.get i = none
  gone : ∀ i att, s.attempts.get i = some att → ∀ row, s.claims.get att.claimId = some row →
    row.status ≠ .failed
  paidOnce : s.PaidOnce

theorem isPending_eq (h : s'.claims = s.claims) (id : ClaimId) :
    s'.isPending id = s.isPending id := by
  simp only [State.isPending, h]

/-- Two transfers of a claim have one claim record. -/
theorem record_eq (hs : s.Sound) (ht : s.Told) {t t' : Transfer} (hsent : s.Sent t)
    (hsent' : s.Sent t') (hid : t.claimId = t'.claimId) : t.record = t'.record := by
  obtain ⟨_, hrow, hkind, hperiod, -⟩ := hs.backs t hsent
  obtain ⟨_, hrow', hkind', hperiod', -⟩ := hs.backs t' hsent'
  rw [← hid, hrow] at hrow'
  cases hrow'
  simp only [Transfer.record, ht.wallet t t' hsent hsent' hid, ← hkind, ← hkind', ← hperiod,
    ← hperiod']

/-- A transfer that lands is the first of its claim, which waits. -/
theorem lands (hs : s.Sound) (ht : s.Told) {id : Nat} {t : Transfer}
    (hok : (s.attempts.get id).isSome = true) (hget : s.sent.get id = some t)
    (hnew : t.record ∉ s.records) : s.isPending t.claimId = true ∧
      (∃ att, s.attempts.get id = some att ∧ att.claimId = t.claimId) ∧
      ∀ t' ∈ s.transfers, t'.claimId ≠ t.claimId := by
  have hfirst : ∀ t' ∈ s.transfers, t'.claimId ≠ t.claimId := by
    intro t' ht' hid
    refine hnew ?_
    rw [← record_eq hs ht (.inl ht') (.inr ⟨id, hget⟩) hid]
    exact hs.recorded t' ht'
  obtain ⟨att, hatt⟩ := Option.isSome_iff_exists.mp hok
  have hid : att.claimId = t.claimId := by
    obtain ⟨t', ht', hid⟩ | ⟨hnone, -⟩ := hs.answered id att hatt
    · cases hget.symm.trans ht'
      exact hid.symm
    · rw [hget] at hnone
      cases hnone
  refine ⟨?_, ⟨att, hatt, hid⟩, hfirst⟩
  obtain ⟨row, hrow, -, -, -, hoff⟩ := hs.backs t (.inr ⟨id, hget⟩)
  rw [isPending_iff hrow]
  cases hstatus : row.status with
  | pending => rfl
  | offchain => exact absurd hstatus hoff
  | failed => exact absurd hstatus (ht.gone id att hatt row (hid ▸ hrow))
  | confirmed =>
    obtain ⟨t', ht', hid'⟩ := hs.confirmed _ row hrow hstatus
    exact absurd hid' (hfirst t' ht')

/-- What an attempt has sent has not landed when the attempt is told that it failed. -/
theorem not_landed {i : Nat} (hok : Regular s (.finishAttempt i false)) : s.sent.get i ≠ none :=
  Option.isSome_iff_ne_none.mp hok.1

/-- No transfer of a claim that fails has landed. -/
theorem unpaid_of_fails (ht : s.Told) {i : Nat} {att : Attempt} {row : RewardClaim}
    (hok : Regular s (.finishAttempt i false)) (hatt : s.attempts.get i = some att)
    (hrow : s.claims.get att.claimId = some row) (hpending : row.status = .pending)
    (hmax : MAX_CLAIM_ATTEMPTS ≤ att.claim.attempts + 1) :
    ∀ t ∈ s.transfers, t.claimId ≠ att.claimId := by
  intro t hmem hid
  have hwaits : s.isPending t.claimId = true := by
    rw [hid]
    exact (isPending_iff hrow).mpr hpending
  obtain ⟨j, att', hatt', hid', hnone⟩ := ht.awaits t hmem hwaits
  have hj : j = i := hok.2 att hatt hmax (hid ▸ hwaits) (j, att')
    (s.attempts.get_eq_some.mp hatt') (hid'.trans hid)
  subst hj
  exact not_landed hok hnone

/-- The wallets of a regular step. -/
theorem wallet_step (ht : s.Told) (hok : Regular s a) (he : Effect s a s') (t t' : Transfer)
    (hsent : s'.Sent t) (hsent' : s'.Sent t') (hid : t.claimId = t'.claimId) :
    t.walletAddress = t'.walletAddress := by
  have hnew : ∀ id, a = .startAttempt id → ∀ t, s.Sent t → t.claimId = id →
      t.walletAddress = s.user.walletAddress := by
    rintro id rfl t (hmem | ⟨i, hget⟩) hid
    · exact hok.1 t hmem hid
    · exact hok.2 (i, t) (s.sent.get_eq_some.mp hget) hid
  obtain hold | ⟨id, c, hstart, -, -, rfl⟩ := he.sent hsent <;>
    obtain hold' | ⟨id', _, hstart', -, -, rfl⟩ := he.sent hsent'
  · exact ht.wallet t t' hold hold' hid
  · exact hnew id' hstart' t hold hid
  · exact (hnew id hstart t' hold' hid.symm).symm
  · rfl

/-- The attempts of what waits and of what has failed. -/
theorem told_step (hs : s.Sound) (ht : s.Told) (hok : Regular s a) (h : step s a = some s') :
    s'.Told := by
  have he := step_effect h
  have hwallet := wallet_step ht hok he
  have hpaid := ht.paidOnce
  cases he with
  | other hclaims hattempts hsent htransfers =>
    refine ⟨hwallet, ?_, ?_, ?_, htransfers ▸ hpaid.once⟩
    · rw [htransfers, hattempts, hsent]
      exact fun t hmem hp => ht.awaits t hmem (isPending_eq hclaims _ ▸ hp)
    · rw [hattempts, hclaims]
      exact ht.gone
    · rw [htransfers, hclaims]
      exact hpaid.kept
  | create c =>
    have hrow : ∀ t ∈ s.transfers, (s.claims.set s.drawn c).get t.claimId =
        s.claims.get t.claimId := by
      intro t hmem
      obtain ⟨row, hrow, -⟩ := hs.backs t (.inl hmem)
      exact Table.get_set_ne _ (Nat.ne_of_lt (hs.kept.inv.fresh _ row hrow))
    refine ⟨hwallet, fun t hmem hp => ht.awaits t hmem ?_, fun i att hatt row hget => ?_,
      fun t hmem row hget => hpaid.kept t hmem row (hrow t hmem ▸ hget), hpaid.once⟩
    · simpa only [State.isPending, hrow t hmem] using hp
    · obtain ⟨old, hold, -⟩ := hs.read i att hatt
      have hne : att.claimId ≠ s.drawn := Nat.ne_of_lt (hs.kept.inv.fresh _ old hold)
      exact ht.gone i att hatt row ((Table.get_set_ne _ hne).symm.trans hget)
  | start id c hget hpending =>
    refine ⟨hwallet, fun t hmem hp => ?_, fun i att hatt row hrow => ?_, hpaid.kept,
      hpaid.once⟩
    · obtain ⟨i, att, hatt, hid, hnone⟩ := ht.awaits t hmem hp
      have hi : i ≠ s.drawn := Nat.ne_of_lt (hs.fresh i att hatt)
      exact ⟨i, att, (Table.get_set_ne _ hi).trans hatt, hid, (Table.get_set_ne _ hi).trans hnone⟩
    · rw [Table.get_set] at hatt
      split at hatt
      · cases hatt
        cases hget.symm.trans hrow
        simp [hpending]
      · exact ht.gone i att hatt row hrow
  | land id t hget hnew =>
    obtain ⟨hpending, ⟨att, hatt, hid⟩, hfirst⟩ := lands hs ht hok hget hnew
    refine ⟨hwallet, fun t' hmem hp => ?_, ht.gone, fun t' hmem row hrow => ?_, ?_⟩
    · obtain rfl | hmem := List.mem_cons.mp hmem
      · exact ⟨id, att, hatt, hid, Table.get_erase_self _⟩
      · obtain ⟨i, att', hatt', hid', hnone⟩ := ht.awaits t' hmem hp
        have hi : i ≠ id := by
          rintro rfl
          rw [hget] at hnone
          cases hnone
        exact ⟨i, att', hatt', hid', (Table.get_erase_ne _ hi).trans hnone⟩
    · obtain rfl | hmem := List.mem_cons.mp hmem
      · rw [(isPending_iff hrow).mp hpending]
        exact nofun
      · exact hpaid.kept t' hmem row hrow
    · refine List.nodup_cons.mpr ⟨?_, hpaid.once⟩
      intro hmem
      obtain ⟨t', ht', hid'⟩ := List.mem_map.mp hmem
      exact hfirst t' ht' hid'
  | answer i signed att row row' claims user hatt hrow hclaims hsame hanswer =>
    refine ⟨hwallet, fun t hmem hp => ?_, fun j att' hatt' r hr => ?_, fun t hmem r hr => ?_,
      hpaid.once⟩
    · -- an attempt whose transfer has landed is answered with a signature, and confirms
      simp only [State.isPending, hclaims] at hp
      have hold : s.isPending t.claimId = true := by
        split at hp
        · rename_i hid
          rw [hid, isPending_iff hrow]
          cases hanswer with
          | waits hstatus => simpa [hstatus] using hp
          | confirms hpending | fails hpending => exact hpending
        · exact hp
      obtain ⟨j, att', hatt', hid', hnone⟩ := ht.awaits t hmem hold
      refine ⟨j, att', (Table.get_erase_ne _ ?_).trans hatt', hid', hnone⟩
      rintro rfl
      cases hatt.symm.trans hatt'
      rw [if_pos hid'.symm] at hp
      cases hanswer with
      | @waits signed hstatus _ hsigned =>
        cases signed with
        | false =>
          exact absurd hnone (not_landed hok)
        | true => exact hsigned rfl (by simpa [hstatus] using hp)
      | confirms _ _ hstatus | fails _ _ hstatus => simp [hstatus] at hp
    · have hattj := Table.get_of_erase _ hatt'
      rw [hclaims] at hr
      split at hr
      · rename_i hid
        cases hr
        cases hanswer with
        | waits hstatus =>
          rw [hstatus]
          exact ht.gone i att hatt row hrow
        | confirms _ _ hstatus => simp [hstatus]
        | fails hpending hmax =>
          have hj : j = i := hok.2 att hatt hmax ((isPending_iff hrow).mpr hpending) (j, att')
            (s.attempts.get_eq_some.mp hattj) hid
          subst hj
          simp at hatt'
      · exact ht.gone j att' hattj r hr
    · rw [hclaims] at hr
      split at hr
      · rename_i hid
        cases hr
        cases hanswer with
        | waits hstatus =>
          rw [hstatus]
          exact hpaid.kept t hmem row (hid ▸ hrow)
        | confirms _ _ hstatus => simp [hstatus]
        | fails hpending hmax =>
          exact absurd hid (unpaid_of_fails ht hok hatt hrow hpending hmax t hmem)
      · exact hpaid.kept t hmem r hr

/-! ## Accounts -/

/-- What waits for its answer stays the same where the same rows wait. -/
theorem unanswered_eq (htransfers : s'.transfers = s.transfers)
    (hrows : ∀ t ∈ s.transfers, s'.isPending t.claimId = s.isPending t.claimId) (k : RewardKind) :
    s'.unanswered k = s.unanswered k := by
  simp only [State.unanswered, htransfers]
  exact weight_congr fun t ht => by rw [hrows t ht]

theorem restore_balance (u : Account) (c : RewardClaim) (k : RewardKind) :
    (u.restore c).balance k + (u.restore c).reserved k = u.balance k + u.reserved k := by
  cases hkind : c.kind <;> cases k <;>
    simp [Account.restore, Account.balance, Account.reserved, hkind]

theorem finalize_balance (u : Account) (c : RewardClaim) (totalLost : Nat) {k : RewardKind}
    (hk : k.Reserves) :
    (u.finalize c totalLost).balance k + (u.finalize c totalLost).reserved k +
      (if c.kind = k then c.amountScad else 0 : Nat) = u.balance k + u.reserved k := by
  rcases hk with rfl | rfl <;> cases hkind : c.kind <;>
    simp [Account.finalize, Account.balance, Account.reserved, hkind] <;> omega

theorem accrued_append (k : RewardKind) (es : List Action) :
    accrued k (es ++ [a]) = accrued k es + a.accrues k := by
  simp [accrued]

/-- What was paid for the claim of an attempt whose transfer has landed. -/
theorem paid_of_answered (hs : s.Sound) {i : Nat} {att : Attempt}
    (hatt : s.attempts.get i = some att) (hlanded : s.sent.get i = none) (k : RewardKind) :
    ∃ t ∈ s.transfers, t.claimId = att.claimId ∧
      t.of k = if att.claim.kind = k then att.claim.amountScad else 0 := by
  obtain ⟨t, ht, -⟩ | ⟨-, t, ht, hid⟩ := hs.answered i att hatt
  · rw [hlanded] at ht
    cases ht
  · refine ⟨t, ht, hid, ?_⟩
    obtain ⟨_, hrow, hkind, -, hamount, -⟩ := hs.backs t (.inl ht)
    obtain ⟨_, hrow', hkind', hamount'⟩ := hs.read i att hatt
    rw [hid, hrow'] at hrow
    cases hrow
    rw [Transfer.of, ← hkind, ← hamount, hkind', hamount']

/-- The one transfer of a claim that is confirmed was waiting, and is answered. -/
theorem unanswered_confirm (hp : s.PaidOnce) {t : Transfer}
    (htransfers : s'.transfers = s.transfers)
    (hbefore : s.isPending t.claimId = true) (hafter : s'.isPending t.claimId = false)
    (hrows : ∀ id, id ≠ t.claimId → s'.isPending id = s.isPending id) (ht : t ∈ s.transfers)
    (k : RewardKind) : s'.unanswered k + t.of k = s.unanswered k := by
  have hothers : ∀ b ∈ s.transfers, b.claimId ≠ t.claimId →
      (if s'.isPending b.claimId then b.of k else 0) =
        if s.isPending b.claimId then b.of k else 0 := by
    intro b _ hb
    rw [hrows _ hb]
  have hsum := weight_congr_key Transfer.claimId hp.once ht hothers
  simp only [State.unanswered, htransfers]
  simpa [hafter, hbefore] using hsum

/-- A step that lands nothing and settles no claim that was paid. -/
theorem balanced_of_eq {es : List Action} {k : RewardKind} (hb : s.Balanced es k)
    (htransfers : s'.transfers = s.transfers)
    (huser : s'.user.balance k + s'.user.reserved k = s.user.balance k + s.user.reserved k)
    (hrows : ∀ t ∈ s.transfers, s'.isPending t.claimId = s.isPending t.claimId)
    (hnone : a.accrues k = 0) : s'.Balanced (es ++ [a]) k := by
  have htransferred : s'.transferred k = s.transferred k := by
    simp only [State.transferred, htransfers]
  unfold State.Balanced at *
  rw [accrued_append, hnone, huser, htransferred, unanswered_eq htransfers hrows, hb, Nat.add_zero]

/-- A regular step moves what is transferred out of the reserve, and gives back what is not. -/
theorem balanced_step (hs : s.Sound) (ht : s.Told) (hok : Regular s a)
    (h : step s a = some s') {es : List Action} {k : RewardKind} (hk : k.Reserves)
    (hb : s.Balanced es k) : s'.Balanced (es ++ [a]) k := by
  cases step_effect h with
  | other hclaims _ _ htransfers _ _ hbalance hreserved =>
    have htransferred : s'.transferred k = s.transferred k := by
      simp only [State.transferred, htransfers]
    unfold State.Balanced at *
    rw [accrued_append, hbalance, hreserved, htransferred,
      unanswered_eq htransfers fun _ _ => isPending_eq hclaims _]
    push_cast
    omega
  | create c user cases_ opens hstatus hbalance haccrues =>
    refine balanced_of_eq hb rfl (hbalance k) (fun t hmem => ?_) (haccrues k)
    obtain ⟨row, hrow, -⟩ := hs.backs t (.inl hmem)
    have hne : t.claimId ≠ s.drawn := Nat.ne_of_lt (hs.kept.inv.fresh _ row hrow)
    simp only [State.isPending, Table.get_set_ne _ hne]
  | start => exact balanced_of_eq hb rfl rfl (fun _ _ => rfl) rfl
  | land id t hget hnew =>
    have hpending := (lands hs ht hok hget hnew).1
    have hwaits : State.unanswered { s with
        sent := s.sent.erase id, records := t.record :: s.records
        transfers := t :: s.transfers } k = t.of k + s.unanswered k := by
      have h := weight_cons (fun t => if s.isPending t.claimId then t.of k else 0) t s.transfers
      rwa [if_pos hpending] at h
    have hnone : Action.accrues k (.land id) = 0 := rfl
    unfold State.Balanced at *
    rw [accrued_append, hnone, hwaits]
    simp only [State.transferred, weight_cons] at hb ⊢
    push_cast
    omega
  | answer i signed att row row' claims user hatt hrow hclaims hsame hanswer =>
    have hothers (id : ClaimId) (hid : id ≠ att.claimId) : State.isPending { s with
        attempts := s.attempts.erase i, claims := claims, user := user } id = s.isPending id := by
      simp only [State.isPending, hclaims, if_neg hid]
    cases hanswer with
    | waits hstatus huser =>
      refine balanced_of_eq hb rfl (by rw [huser]) (fun t _ => ?_) rfl
      by_cases hid : t.claimId = att.claimId
      · simp [State.isPending, hclaims, hid, hrow, hstatus]
      · exact hothers _ hid
    | confirms hpending hlanded hstatus huser =>
      obtain ⟨t, hmem, hid, hof⟩ := paid_of_answered hs hatt hlanded k
      have hunanswered : State.unanswered { s with
          attempts := s.attempts.erase i, claims := claims, user := user } k + t.of k =
            s.unanswered k := unanswered_confirm ht.paidOnce (by rfl)
        (hid ▸ (isPending_iff hrow).mpr hpending)
        (by simp [State.isPending, hclaims, hid, hstatus]) (hid ▸ hothers) hmem k
      have hfinal := finalize_balance s.user att.claim att.totalLost hk
      have hnone : Action.accrues k (.finishAttempt i true) = 0 := rfl
      rw [hof] at hunanswered
      unfold State.Balanced at *
      rw [accrued_append, hnone]
      simp only [huser, State.transferred] at hunanswered hb ⊢
      generalize (if att.claim.kind = k then att.claim.amountScad else 0) = amount at *
      push_cast
      omega
    | fails hpending hmax hstatus huser =>
      exact balanced_of_eq hb rfl (by rw [huser, restore_balance])
        (fun t hmem => hothers _ (unpaid_of_fails ht hok hatt hrow hpending hmax t hmem)) rfl

/-- What a cashback claim reserves until it is answered. -/
def waitingCashback (c : RewardClaim) : Nat :=
  if c.kind = .cashback ∧ c.status = .pending then c.amountScad else 0

theorem waitingCashback_le (hi : s.books.Inv) : s.claims.sum waitingCashback ≤
    cashbackAccrued s.user.totalLost s.user.cashbackBaselineLost := by
  have hwaits : ∀ c : RewardClaim, waitingCashback c ≠ 0 → c.Waits := by
    intro c hc
    unfold waitingCashback at hc
    split at hc
    · assumption
    · exact absurd rfl hc
  refine Table.sum_le_of_once _ ?_ ?_
  · intro j k c c' hj hk hc hc'
    exact hi.once j k c c' hj hk (hwaits c hc) (hwaits c' hc')
  · intro id c hget
    unfold waitingCashback
    split
    · rename_i hw
      exact hi.owed id c hget hw
    · exact Nat.zero_le _

theorem transferred_cashback_le (hs : s.Sound) (hp : s.PaidOnce) :
    s.transferred .cashback ≤ s.cashbackDue := by
  have hrows : s.transferred .cashback ≤
      s.claims.sum fun c => confirmedCashback c + waitingCashback c := by
    refine s.claims.weight_le_sum hp.once fun t ht => ?_
    obtain ⟨row, hrow, hkind, -, hamount, hoff⟩ := hs.backs t (.inl ht)
    refine ⟨row, hrow, ?_⟩
    have hkept := hp.kept t ht row hrow
    unfold Transfer.of confirmedCashback waitingCashback
    rw [← hkind, ← hamount]
    cases hstatus : row.status with
    | pending => simp
    | confirmed => simp
    | failed => exact absurd hstatus hkept
    | offchain => exact absurd hstatus hoff
  have hwaiting := waitingCashback_le hs.kept.inv
  have heq := cashbackCounted_eq hs.kept
  have hpaid := hs.kept.paid
  rw [Table.sum_add] at hrows
  unfold State.cashbackCounted at heq
  omega

end Steps

/-! ## Runs -/

section Runs

variable {s t : State} {chainEnabled : Bool} {walletAddress : Wallet} {es : List Action}

theorem sound_init (chainEnabled : Bool) (walletAddress : Wallet) :
    (State.init chainEnabled walletAddress).Sound where
  kept := kept_init chainEnabled walletAddress
  fresh := nofun
  read := nofun
  backs := by rintro t (ht | ⟨i, ht⟩) <;> cases ht
  answered := nofun
  recorded := nofun
  confirmed := nofun

theorem told_init (chainEnabled : Bool) (walletAddress : Wallet) :
    (State.init chainEnabled walletAddress).Told where
  wallet := by rintro t _ (ht | ⟨i, ht⟩) <;> cases ht
  awaits := nofun
  gone := nofun
  paidOnce := ⟨nofun, List.nodup_nil⟩

theorem sound_run (hrun : run step (State.init chainEnabled walletAddress) es = some s) :
    s.Sound :=
  run_invariant (fun _ _ _ => sound_step) (sound_init chainEnabled walletAddress) hrun

/-- What a regular run keeps. -/
theorem regular_run (hok : Along step Regular (State.init chainEnabled walletAddress) es)
    (hrun : run step (State.init chainEnabled walletAddress) es = some s) :
    s.Told ∧ ∀ k : RewardKind, k.Reserves → s.Balanced es k := by
  refine run_history
    (P := fun es s => Along step Regular (State.init chainEnabled walletAddress) es →
      s.Told ∧ ∀ k : RewardKind, k.Reserves → s.Balanced es k) ?_ ?_ hrun hok
  · intro _
    refine ⟨told_init chainEnabled walletAddress, ?_⟩
    rintro k (rfl | rfl) <;> rfl
  · intro es s a s' hrun ih h hok
    obtain ⟨hbefore, hlast⟩ := along_append.mp hok
    have hregular := (hlast s hrun).1
    have hs := sound_run hrun
    obtain ⟨ht, hb⟩ := ih hbefore
    exact ⟨told_step hs ht hregular h, fun k hk => balanced_step hs ht hregular h hk (hb k hk)⟩

/-- In every state of a regular run no claim that has failed was paid and none was paid
twice, and the accounts add up. -/
theorem paid_once (hok : Along step Regular (State.init chainEnabled walletAddress) es)
    (before after : List Action) (heq : es = before ++ after)
    (hrun : run step (State.init chainEnabled walletAddress) before = some s) :
    s.PaidOnce ∧ s.Accounted before := by
  subst heq
  obtain ⟨ht, hb⟩ := regular_run (along_append.mp hok).1 hrun
  exact ⟨ht.paidOnce, hb, transferred_cashback_le (sound_run hrun) ht.paidOnce⟩

end Runs

namespace PaidOnce.Sample

/-- A claim that is paid by its second attempt. -/
def paid : List Action :=
  [.accrue 100, .claim .wagerReward 10, .startAttempt 0, .finishAttempt 1 false, .startAttempt 0,
    .land 2, .finishAttempt 2 true]

/-- The transfer lands, and none of five attempts gets a signature. -/
def restored : List Action :=
  [.accrue 100, .claim .wagerReward 10, .startAttempt 0, .land 1, .finishAttempt 1 false,
    .startAttempt 0, .finishAttempt 2 false, .startAttempt 0, .finishAttempt 3 false,
    .startAttempt 0, .finishAttempt 4 false, .startAttempt 0, .finishAttempt 5 false]

/-- The wallet changes between two attempts, and both transfers land. -/
def twice : List Action :=
  [.accrue 100, .claim .wagerReward 10, .startAttempt 0, .setPrimaryWallet 8, .startAttempt 0,
    .land 1, .land 2]

end PaidOnce.Sample

/-- A first attempt that is not sent, and a second that pays. -/
theorem paid_once_paid : ∃ t, run step (State.init true 7) PaidOnce.Sample.paid = some t ∧
    t.transferred .wagerReward = 100 ∧ t.PaidOnce ∧ t.Accounted PaidOnce.Sample.paid := by
  obtain ⟨t, ht, hpaid⟩ : ∃ t, run step (State.init true 7) PaidOnce.Sample.paid = some t ∧
      t.transferred .wagerReward = 100 := by decide +kernel
  obtain ⟨honce, haccounted⟩ := paid_once (by decide +kernel) PaidOnce.Sample.paid [] rfl ht
  exact ⟨t, ht, hpaid, honce, haccounted⟩

/-- What was paid can be claimed again; and a claim is paid to two wallets. -/
theorem claims_paid_twice :
    (∃ t, run step (State.init true 7) PaidOnce.Sample.restored = some t ∧
      t.user.scadiumBalance = 100 ∧ t.transferred .wagerReward = 100 ∧ ¬ t.PaidOnce) ∧
    ∃ t, run step (State.init true 7) PaidOnce.Sample.twice = some t ∧
      t.transferred .wagerReward = 200 ∧ ¬ t.PaidOnce := by
  refine ⟨?_, ?_⟩
  · obtain ⟨t, ht, h⟩ : ∃ t, run step (State.init true 7) PaidOnce.Sample.restored = some t ∧
        t.user.scadiumBalance = 100 ∧ t.transferred .wagerReward = 100 ∧ ¬ t.PaidOnce := by
      decide +kernel
    exact ⟨t, ht, h⟩
  · obtain ⟨t, ht, h⟩ : ∃ t, run step (State.init true 7) PaidOnce.Sample.twice = some t ∧
        t.transferred .wagerReward = 200 ∧ ¬ t.PaidOnce := by decide +kernel
    exact ⟨t, ht, h⟩

end Scadium.Rewards
