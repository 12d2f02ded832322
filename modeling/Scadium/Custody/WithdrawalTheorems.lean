/-
Scadium.Custody.WithdrawalTheorems — a withdrawal lands or is refunded.

Every signature that the network was given is either dead for good or the
one its row holds (`Tracked`); a row is only moved away from a signature that
is dead, so no second one can be alive, and a refund finds none. What a call
has learnt stays true while others move on (`Later`).
-/
import Scadium.Custody.Withdrawal

namespace Scadium.Custody.Withdrawal

open Scadium.Lib Scadium.Prisma Scadium.Prisma.Committed

variable {memo : Signature → TransferId} {expiry : Signature → Nat} {margin : Nat}
  {s s' : CustodyDb} {chain chain' : Chain} {w w' : World} {env : Env} {id : TransferId}
  {row row' : CustodyTransfer} {sig : Signature}

/-! ## Signatures -/

/-- It moved the money. -/
def Chain.Paid (chain : Chain) (sig : Signature) : Prop := chain.landed.get sig = some false

/-- It has moved nothing and never will. -/
def Chain.Dead (expiry : Signature → Nat) (chain : Chain) (sig : Signature) : Prop :=
  chain.landed.get sig = some true ∨
    chain.landed.get sig = none ∧ expiry sig < chain.height

theorem Chain.Dead.not_paid (h : chain.Dead expiry sig) : ¬chain.Paid sig := by
  intro hpaid
  unfold Paid at hpaid
  cases h with
  | inl hfailed => simp [hpaid] at hfailed
  | inr hexpired => simp [hpaid] at hexpired

/-- The row holds this signature. -/
def Holds (row : CustodyTransfer) (sig : Signature) : Prop :=
  (row.status = .sent ∨ row.status = .confirmed) ∧ row.txSignature = some sig

def Current (s : CustodyDb) (id : TransferId) (sig : Signature) : Prop :=
  ∃ row, s.transfers.get id = some row ∧ row.kind = .withdraw ∧ Holds row sig

def Tracked (memo : Signature → TransferId) (expiry : Signature → Nat) (w : World)
    (sig : Signature) : Prop :=
  w.chain.Dead expiry sig ∨ Current w.tables (memo sig) sig

/-! ## The invariant -/

/-- A row with a signature of its own. -/
def Signed (memo : Signature → TransferId) (expiry : Signature → Nat) (id : TransferId)
    (row : CustodyTransfer) : Prop :=
  ∃ sig, row.txSignature = some sig ∧ memo sig = id ∧ row.lastValidBlockHeight = some (expiry sig)

/-- What the status of a withdrawal says. -/
structure RowSound (memo : Signature → TransferId) (expiry : Signature → Nat) (chain : Chain)
    (id : TransferId) (row : CustodyTransfer) : Prop where
  status : inFlight row ∨ row.status = .confirmed ∨ row.status = .failed
  pending : row.status = .pending → row.txSignature = none
  sent : row.status = .sent → Signed memo expiry id row
  confirmed : row.status = .confirmed → chain.Paid (signatureOf row) ∧ memo (signatureOf row) = id

/-- The rows and the chain agree. -/
structure Tracks (memo : Signature → TransferId) (expiry : Signature → Nat) (w : World) :
    Prop where
  rows : ∀ id row, w.tables.transfers.get id = some row → row.kind = .withdraw →
    RowSound memo expiry w.chain id row
  tracked : ∀ sig ∈ w.chain.sent, Tracked memo expiry w sig
  landed : ∀ sig failed, w.chain.landed.get sig = some failed → sig ∈ w.chain.sent

/-- The row of a refund. -/
structure Refunded (row : CustodyTransfer) (r : BalanceLedger) : Prop where
  kind : row.kind = .withdraw
  status : row.status = .failed
  user : row.userId = some r.userId
  amount : r.delta = row.amountLamports

/-- The ledger's refunds are those of the failed rows. -/
structure Refunds (s : CustodyDb) : Prop where
  once : ((refundRows s.db).map BalanceLedger.refId).Nodup
  ledger : ∀ r ∈ refundRows s.db, ∃ id row, r.refId = some id ∧ s.transfers.get id = some row ∧
    Refunded row r
  failed : ∀ id row, s.transfers.get id = some row → row.kind = .withdraw →
    row.status = .failed → ∃ r ∈ refundRows s.db, r.refId = some id

/-- The row that was read, but for what changes. -/
def Same (s : CustodyDb) (id : TransferId) (row : CustodyTransfer) : Prop :=
  ∃ now, s.transfers.get id = some now ∧ now.kind = .withdraw ∧ now.userId = row.userId ∧
    now.amountLamports = row.amountLamports

/-- Nothing that was learnt is lost. -/
structure Later (memo : Signature → TransferId) (expiry : Signature → Nat) (w w' : World) :
    Prop where
  same : ∀ id row, Same w.tables id row → Same w'.tables id row
  dead : ∀ sig, w.chain.Dead expiry sig → w'.chain.Dead expiry sig
  paid : ∀ sig, w.chain.Paid sig → w'.chain.Paid sig
  tracked : ∀ sig, Tracked memo expiry w sig → Tracked memo expiry w' sig
  finalized : w.chain.finalized ≤ w'.chain.finalized

theorem Later.refl (w : World) : Later memo expiry w w :=
  ⟨fun _ _ h => h, fun _ h => h, fun _ h => h, fun _ h => h, le_rfl⟩

/-! ## Writes -/

/-- A write to a row: it is still the same withdrawal, and holds the
signature it held unless that is dead. -/
structure Write (memo : Signature → TransferId) (expiry : Signature → Nat) (w : World)
    (id : TransferId) (row' : CustodyTransfer) : Prop where
  same : ∀ row, w.tables.transfers.get id = some row → row.kind = .withdraw →
    row'.kind = .withdraw ∧ row'.userId = row.userId ∧ row'.amountLamports = row.amountLamports
  sound : row'.kind = .withdraw → RowSound memo expiry w.chain id row'
  holds : ∀ sig, Current w.tables id sig → w.chain.Dead expiry sig ∨ Holds row' sig

theorem Write.later (h : Write memo expiry w id row') (hchain : w'.chain = w.chain)
    (htransfers : w'.tables.transfers = w.tables.transfers.set id row') :
    Later memo expiry w w' where
  same := by
    intro j row hsame
    obtain ⟨now, hnow, hkind, huser, hamount⟩ := hsame
    by_cases hj : j = id
    · subst hj
      obtain ⟨hkind', huser', hamount'⟩ := h.same now hnow hkind
      refine ⟨row', ?_, hkind', huser'.trans huser, hamount'.trans hamount⟩
      rw [htransfers, Table.get_set_self]
    · refine ⟨now, ?_, hkind, huser, hamount⟩
      rw [htransfers, Table.get_set_ne _ hj]
      exact hnow
  dead := by simp [hchain]
  paid := by simp [hchain]
  tracked := by
    intro sig htracked
    cases htracked with
    | inl hdead => exact .inl (hchain ▸ hdead)
    | inr hcurrent =>
      by_cases hj : memo sig = id
      · cases h.holds sig (hj ▸ hcurrent) with
        | inl hdead => exact .inl (hchain ▸ hdead)
        | inr hholds =>
          obtain ⟨row, hrow, hkind, -⟩ := hcurrent
          refine .inr ⟨row', ?_, (h.same row (hj ▸ hrow) hkind).1, hholds⟩
          rw [htransfers, hj, Table.get_set_self]
      · obtain ⟨row, hrow, hrest⟩ := hcurrent
        refine .inr ⟨row, ?_, hrest⟩
        rw [htransfers, Table.get_set_ne _ hj]
        exact hrow
  finalized := by simp [hchain]

theorem Tracks.write (ht : Tracks memo expiry w) (h : Write memo expiry w id row')
    (hchain : w'.chain = w.chain)
    (htransfers : w'.tables.transfers = w.tables.transfers.set id row') :
    Tracks memo expiry w' where
  rows := by
    rw [htransfers, hchain]
    exact w.tables.transfers.forall_set ht.rows h.sound
  tracked := by
    rw [hchain]
    intro sig hsig
    exact (h.later hchain htransfers).tracked sig (ht.tracked sig hsig)
  landed := by
    rw [hchain]
    exact ht.landed

/-- A write that is no refund. -/
theorem Refunds.write (h : Refunds s)
    (hopen : ∀ row, s.transfers.get id = some row → row.kind = .withdraw → row.status ≠ .failed)
    (hopen' : row'.kind = .withdraw → row'.status ≠ .failed) :
    Refunds { s with transfers := s.transfers.set id row' } where
  once := h.once
  ledger := by
    intro r hr
    obtain ⟨j, row, hj, hrow, hrefunded⟩ := h.ledger r hr
    have hne : j ≠ id := by
      intro heq
      subst heq
      exact hopen row hrow hrefunded.kind hrefunded.status
    exact ⟨j, row, hj, (s.transfers.get_set_ne hne).trans hrow, hrefunded⟩
  failed := by
    refine s.transfers.forall_set h.failed ?_
    intro hkind hfailed
    exact absurd hfailed (hopen' hkind)

/-- The write of a refund, with its movement. -/
theorem Refunds.refund {r : BalanceLedger} (h : Refunds s) (hrow : s.transfers.get id = some row)
    (hopen : row.kind = .withdraw → row.status ≠ .failed)
    (htransfers : s'.transfers = s.transfers.set id row')
    (hledger : refundRows s'.db = r :: refundRows s.db) (href : r.refId = some id)
    (hpaid : Refunded row' r) : Refunds s' where
  once := by
    rw [hledger, List.map_cons, List.nodup_cons]
    refine ⟨?_, h.once⟩
    intro hmem
    obtain ⟨r', hr', heq⟩ := List.mem_map.mp hmem
    obtain ⟨j, old, hj, hold, hrefunded⟩ := h.ledger r' hr'
    rw [heq, href, Option.some.injEq] at hj
    subst hj
    rw [hrow, Option.some.injEq] at hold
    subst hold
    exact hopen hrefunded.kind hrefunded.status
  ledger := by
    rw [hledger, htransfers]
    intro r' hr'
    cases List.mem_cons.mp hr' with
    | inl heq =>
      subst heq
      exact ⟨id, row', href, s.transfers.get_set_self, hpaid⟩
    | inr hmem =>
      obtain ⟨j, old, hj, hold, hrefunded⟩ := h.ledger r' hmem
      have hne : j ≠ id := by
        intro heq
        subst heq
        rw [hrow, Option.some.injEq] at hold
        subst hold
        exact hopen hrefunded.kind hrefunded.status
      exact ⟨j, old, hj, (s.transfers.get_set_ne hne).trans hold, hrefunded⟩
  failed := by
    rw [hledger, htransfers]
    refine s.transfers.forall_set ?_ ?_
    · intro j old hold hkind hfailed
      obtain ⟨r', hr', hj⟩ := h.failed j old hold hkind hfailed
      exact ⟨r', List.mem_cons_of_mem r hr', hj⟩
    · intro _ _
      exact ⟨r, List.mem_cons_self .., href⟩

/-! ## Statements -/

theorem updateMany_cases (s : CustodyDb) (id : TransferId) (guard : CustodyTransfer → Prop)
    [DecidablePred guard] (data : CustodyTransfer → CustodyTransfer) :
    (∃ row, s.transfers.get id = some row ∧ guard row ∧
      updateMany s id guard data = ({ s with transfers := s.transfers.set id (data row) }, 1)) ∨
    updateMany s id guard data = (s, 0) := by
  unfold updateMany
  split
  case h_1 row hrow =>
    split
    case isTrue hguard => exact .inl ⟨row, hrow, hguard, rfl⟩
    case isFalse => exact .inr rfl
  case h_2 => exact .inr rfl

theorem refundRows_move {db db' : Db} {userId : UserId} {delta : Int} {info : DeltaMeta}
    (h : moveBalance db userId delta info = .ok db')
    (hreason : info.reason ≠ "custody_withdraw_refund") : refundRows db' = refundRows db := by
  obtain ⟨_, -, rfl⟩ := moveBalance_ok h
  simp [refundRows, Db.move, hreason]

/-- The movement of a refund. -/
theorem giveBack_ok (h : giveBack s id row = .ok s') :
    ∃ r, refundRows s'.db = r :: refundRows s.db ∧ s'.transfers = s.transfers ∧
      r.refId = some id ∧ row.userId = some r.userId ∧ r.delta = row.amountLamports := by
  obtain ⟨_, huser, h⟩ := bind_ok.mp h
  obtain ⟨_, hmove, hok⟩ := bind_ok.mp h
  cases hok
  obtain ⟨_, -, rfl⟩ := moveBalance_ok hmove
  exact ⟨_, List.filter_cons_of_pos (by simp), rfl, rfl, by simpa using huser, rfl⟩

/-- What a request writes. -/
theorem requestTx_ok {userId : UserId} {amount : Nat} {wallet : Option Address}
    (h : requestTx s env userId amount wallet = .ok s') :
    refundRows s'.db = refundRows s.db ∧ s.transfers.get env.newId = none ∧
      ∃ wallet, s'.transfers = s.transfers.set env.newId (withdrawRow userId wallet amount) := by
  obtain ⟨_, -, h⟩ := bind_ok.mp h
  obtain ⟨-, -, h⟩ := bind_ok.mp h
  obtain ⟨-, -, h⟩ := bind_ok.mp h
  obtain ⟨-, -, h⟩ := bind_ok.mp h
  obtain ⟨-, -, h⟩ := bind_ok.mp h
  obtain ⟨_, hnew, h⟩ := bind_ok.mp h
  obtain ⟨_, hmove, hok⟩ := bind_ok.mp h
  cases hok
  exact ⟨refundRows_move hmove (by simp), by simpa using hnew, _, rfl⟩

/-! ## Calls -/

/-- The row of a call that checks a signature. -/
structure SentRow (memo : Signature → TransferId) (expiry : Signature → Nat) (s : CustodyDb)
    (id : TransferId) (row : CustodyTransfer) : Prop where
  same : Same s id row
  status : row.status = .sent
  signed : Signed memo expiry id row

/-- What a call has learnt. -/
def Call.Honest (memo : Signature → TransferId) (expiry : Signature → Nat) (w : World) :
    Call → Prop
  | .isPaused id row _ | .balance id row _ | .signTransfer id row _ => Same w.tables id row
  | .store id row signed _ => Same w.tables id row ∧ memo signed.signature = id ∧
      signed.lastValidBlockHeight = expiry signed.signature
  | .broadcast _ sig _ => Tracked memo expiry w sig
  | .finalizedBlockHeight id row _ => SentRow memo expiry w.tables id row
  | .signatureState id row finalized _ =>
      SentRow memo expiry w.tables id row ∧ finalized ≤ w.chain.finalized
  | .confirm id row _ _ => SentRow memo expiry w.tables id row ∧ w.chain.Paid (signatureOf row)
  | .resign id row _ _ =>
      SentRow memo expiry w.tables id row ∧ w.chain.Dead expiry (signatureOf row)
  | .refund id row _ _ => Same w.tables id row ∧
      (row.status = .pending ∧ row.txSignature = none ∨
        SentRow memo expiry w.tables id row ∧ w.chain.Dead expiry (signatureOf row))
  | _ => True

theorem SentRow.later (hl : Later memo expiry w w') (h : SentRow memo expiry w.tables id row) :
    SentRow memo expiry w'.tables id row := ⟨hl.same id row h.same, h.status, h.signed⟩

theorem Call.Honest.later {c : Call} (hl : Later memo expiry w w')
    (h : c.Honest memo expiry w) : c.Honest memo expiry w' := by
  cases c with
  | isPaused id row | balance id row | signTransfer id row => exact hl.same id row h
  | store id row => exact ⟨hl.same id row h.1, h.2⟩
  | broadcast id sig => exact hl.tracked sig h
  | finalizedBlockHeight => exact SentRow.later hl h
  | signatureState id row finalized =>
    exact ⟨SentRow.later hl h.1, h.2.trans hl.finalized⟩
  | confirm => exact ⟨SentRow.later hl h.1, hl.paid _ h.2⟩
  | resign => exact ⟨SentRow.later hl h.1, hl.dead _ h.2⟩
  | refund id row =>
    refine ⟨hl.same id row h.1, ?_⟩
    cases h.2 with
    | inl hpending => exact .inl hpending
    | inr hdead => exact .inr ⟨SentRow.later hl hdead.1, hl.dead _ hdead.2⟩
  | _ => exact trivial

variable (memo expiry w) in
@[simp] theorem nextOpen_honest (rest : List TransferId) :
    (nextOpen rest).Honest memo expiry w := by
  cases rest <;> trivial

variable (memo expiry w) in
@[simp] theorem returned_honest (env : Env) (id : TransferId) (row : CustodyTransfer)
    (driver : Driver) : (driver.returned env id row).Honest memo expiry w := by
  cases driver with
  | drive =>
    simp only [Driver.returned]
    split <;> trivial
  | resumeAll rest => exact nextOpen_honest memo expiry w rest

variable (memo expiry w) in
@[simp] theorem threw_honest (driver : Driver) : driver.threw.Honest memo expiry w := by
  cases driver with
  | drive => trivial
  | resumeAll rest => exact nextOpen_honest memo expiry w rest

/-- A step that reads a row. -/
theorem Tracks.ofRow (h : Tracks memo expiry w) (hrow : w.tables.transfers.get id = some row)
    (env : Env) (driver : Driver) : (Call.ofRow env id row driver).Honest memo expiry w := by
  unfold Call.ofRow
  split
  · exact returned_honest ..
  case isFalse hkind =>
    have hwithdraw : row.kind = .withdraw := by simpa using hkind
    have hsound := h.rows id row hrow hwithdraw
    have hsame : Same w.tables id row := ⟨row, hrow, hwithdraw, rfl, rfl⟩
    split
    case isTrue hpending =>
      unfold Call.ofSend
      split
      · exact ⟨hsame, .inl ⟨hpending, hsound.pending hpending⟩⟩
      · exact hsame
    case isFalse =>
      split
      case isTrue hsent => exact ⟨hsame, hsent, hsound.sent hsent⟩
      case isFalse => exact returned_honest ..

theorem signatureOf_eq (h : row.txSignature = some sig) : signatureOf row = sig := by
  simp [signatureOf, h]

/-- A step that knows the state of a signature. -/
theorem Call.ofState_honest {finalized : Nat} {driver : Driver}
    (h : (Call.signatureState id row finalized driver).Honest memo expiry w)
    (hanswered : (Call.signatureState id row finalized driver).answered memo expiry w.chain env)
    (hsees : (Call.signatureState id row finalized driver).seesLanded expiry margin w.chain env) :
    (Call.ofState margin env id row finalized driver).Honest memo expiry w := by
  obtain ⟨hrow, _⟩ := h
  have hdead : w.chain.Dead expiry (signatureOf row) →
      (Call.ofDead env id row driver).Honest memo expiry w := by
    intro hdead
    by_cases hmax : env.withdrawMaxAttempts ≤ row.attempts
    · simp only [Call.ofDead, hmax, if_true]
      exact ⟨hrow.same, .inr ⟨hrow, hdead⟩⟩
    · simp only [Call.ofDead, hmax, if_false]
      exact ⟨hrow, hdead⟩
  simp only [Call.answered, Bool.or_eq_true, Bool.not_eq_true', Bool.and_eq_false_iff,
    decide_eq_true_eq] at hanswered
  unfold Call.ofState
  split
  case isTrue hfound =>
    split
    · exact returned_honest ..
    case isFalse hsettled =>
      have hlanded : w.chain.landed.get (signatureOf row) = some env.signatureState.failed := by
        simpa [hfound, hsettled] using hanswered
      split
      case isTrue hfailed => exact ⟨hrow, hlanded.trans (congrArg some hfailed)⟩
      case isFalse hfailed => exact hdead (.inl (hlanded.trans (by simpa using hfailed)))
  case isFalse hfound =>
    split
    · exact returned_honest ..
    case isFalse hlate =>
      obtain ⟨sig, hsig, -, hexpiry⟩ := hrow.signed
      rw [signatureOf_eq hsig] at hdead
      simp only [hexpiry, Option.getD_some, not_le] at hlate
      have hfinal : expiry sig + margin < w.chain.finalized := by omega
      have hunseen : w.chain.landed.get sig = none := by
        simpa [Call.seesLanded, signatureOf_eq hsig, hfinal, hfound] using hsees
      have hheight := w.chain.final
      exact hdead (.inr ⟨hunseen, by omega⟩)

/-! ## A step of a call -/

/-- What a step leaves behind. -/
structure Stepped (memo : Signature → TransferId) (expiry : Signature → Nat) (w w' : World)
    (next : Call) : Prop where
  tracks : Tracks memo expiry w'
  refunds : Refunds w'.tables
  later : Later memo expiry w w'
  honest : next.Honest memo expiry w'

theorem Stepped.stay {next : Call} (ht : Tracks memo expiry w) (hr : Refunds w.tables)
    (hnext : next.Honest memo expiry w) : Stepped memo expiry w w next :=
  ⟨ht, hr, .refl w, hnext⟩

theorem Stepped.wrote {next : Call} (ht : Tracks memo expiry w) (hr : Refunds w'.tables)
    (hwrite : Write memo expiry w id row') (hchain : w'.chain = w.chain)
    (htransfers : w'.tables.transfers = w.tables.transfers.set id row')
    (hnext : next.Honest memo expiry w') : Stepped memo expiry w w' next :=
  ⟨ht.write hwrite hchain htransfers, hr, hwrite.later hchain htransfers, hnext⟩

/-- The row of a call is the row of the table. -/
theorem Same.kind (h : Same s id row') (hrow : s.transfers.get id = some row) :
    row.kind = .withdraw := by
  obtain ⟨_, hnow, hkind, -⟩ := h
  rw [hrow, Option.some.injEq] at hnow
  exact hnow ▸ hkind

theorem Current.holds (h : Current s id sig) (hrow : s.transfers.get id = some row) :
    Holds row sig := by
  obtain ⟨_, hnow, -, hholds⟩ := h
  rw [hrow, Option.some.injEq] at hnow
  exact hnow ▸ hholds

/-- A new withdrawal. -/
theorem stepped_requestTx {userId : UserId} {amount : Nat} {wallet : Option Address}
    (ht : Tracks memo expiry w) (hr : Refunds w.tables)
    (h : requestTx w.tables env userId amount wallet = .ok s') :
    Stepped memo expiry w ⟨s', w.chain⟩ (.step env.newId .drive) := by
  obtain ⟨hledger, hnew, wallet, htransfers⟩ := requestTx_ok h
  have hwrite : Write memo expiry w env.newId (withdrawRow userId wallet amount) := by
    constructor
    · intro row hrow
      rw [hnew] at hrow
      cases hrow
    · intro _
      constructor <;> simp [withdrawRow, inFlight]
    · intro sig hcurrent
      obtain ⟨_, hrow, -⟩ := hcurrent
      rw [hnew] at hrow
      cases hrow
  refine .wrote ht ?_ hwrite rfl htransfers trivial
  have hset : Refunds { w.tables with
      transfers := w.tables.transfers.set env.newId (withdrawRow userId wallet amount) } :=
    hr.write (by simp [hnew]) (by simp [withdrawRow])
  rw [← htransfers] at hset
  exact ⟨hledger ▸ hset.once, hledger ▸ hset.ledger, hledger ▸ hset.failed⟩

/-- The signature is stored before anything is broadcast. -/
theorem stepped_store {signed : SignedTransfer} {driver : Driver} (ht : Tracks memo expiry w)
    (hr : Refunds w.tables) (h : (Call.store id row signed driver).Honest memo expiry w) :
    Stepped memo expiry w ⟨(storeSignature w.tables id row signed driver).1, w.chain⟩
      (storeSignature w.tables id row signed driver).2 := by
  obtain ⟨hsame, hmemo, hexpiry⟩ := h
  unfold storeSignature
  split
  · exact .stay ht hr (threw_honest ..)
  · cases updateMany_cases w.tables id (fun r => r.status = .pending ∧ r.attempts = row.attempts)
      fun r => { r with
        status := .sent
        txSignature := some signed.signature
        lastValidBlockHeight := some signed.lastValidBlockHeight
        attempts := row.attempts + 1
        error := none } with
    | inr hcount =>
      rw [hcount]
      exact .stay ht hr trivial
    | inl hwrote =>
      obtain ⟨r, hrow, ⟨hpending, -⟩, hcount⟩ := hwrote
      rw [hcount]
      have hkind := hsame.kind hrow
      refine .wrote ht (hr.write ?_ (by simp)) ?_ rfl rfl ?_
      · intro old hold _
        rw [hrow, Option.some.injEq] at hold
        simp [← hold, hpending]
      · constructor
        · intro old hold _
          rw [hrow, Option.some.injEq] at hold
          simp [← hold, hkind]
        · intro _
          constructor
          · simp [inFlight]
          · simp
          · intro _
            exact ⟨signed.signature, rfl, hmemo, congrArg some hexpiry⟩
          · simp
        · intro sig hcurrent
          have hholds := hcurrent.holds hrow
          simp [Holds, hpending] at hholds
      · refine .inr ⟨_, (congrArg _ hmemo).trans w.tables.transfers.get_set_self, ?_⟩
        exact ⟨hkind, .inl rfl, rfl⟩

theorem stepped_confirm {slot : Option Nat} {driver : Driver} (ht : Tracks memo expiry w)
    (hr : Refunds w.tables) (h : (Call.confirm id row slot driver).Honest memo expiry w) :
    Stepped memo expiry w
      ⟨((Call.confirm id row slot driver).onTables margin w.tables env).1, w.chain⟩
      (.reread id driver) := by
  obtain ⟨hsent, hpaid⟩ := h
  obtain ⟨sig, hsig, hmemo, -⟩ := hsent.signed
  rw [signatureOf_eq hsig] at hpaid
  simp only [Call.onTables, signatureOf_eq hsig]
  cases updateMany_cases w.tables id (fun r => r.status = .sent ∧ r.txSignature = some sig)
    fun r => { r with status := .confirmed, slot := slot } with
  | inr hcount =>
    rw [hcount]
    exact .stay ht hr trivial
  | inl hwrote =>
    obtain ⟨r, hrow, ⟨hstatus, hr'⟩, hcount⟩ := hwrote
    rw [hcount]
    have hkind := hsent.same.kind hrow
    refine .wrote ht (hr.write ?_ (by simp)) ?_ rfl rfl trivial
    · intro old hold _
      rw [hrow, Option.some.injEq] at hold
      simp [← hold, hstatus]
    · constructor
      · intro old hold _
        rw [hrow, Option.some.injEq] at hold
        simp [← hold, hkind]
      · intro _
        constructor
        · simp
        · simp
        · simp
        · intro _
          simp [signatureOf, hr', hpaid, hmemo]
      · intro sig' hcurrent
        have hholds := hcurrent.holds hrow
        exact .inr ⟨.inr rfl, hholds.2⟩

/-- A row lets go of a signature that is dead. -/
theorem stepped_resign {why : String} {driver : Driver} (ht : Tracks memo expiry w)
    (hr : Refunds w.tables) (h : (Call.resign id row why driver).Honest memo expiry w) :
    Stepped memo expiry w
      ⟨((Call.resign id row why driver).onTables margin w.tables env).1, w.chain⟩
      (.reread id driver) := by
  obtain ⟨hsent, hdead⟩ := h
  obtain ⟨sig, hsig, _, -⟩ := hsent.signed
  rw [signatureOf_eq hsig] at hdead
  simp only [Call.onTables, signatureOf_eq hsig]
  cases updateMany_cases w.tables id (fun r => r.status = .sent ∧ r.txSignature = some sig)
    fun r => { r with
      status := .pending, txSignature := none, lastValidBlockHeight := none,
      error := some why } with
  | inr hcount =>
    rw [hcount]
    exact .stay ht hr trivial
  | inl hwrote =>
    obtain ⟨r, hrow, ⟨hstatus, hr'⟩, hcount⟩ := hwrote
    rw [hcount]
    have hkind := hsent.same.kind hrow
    refine .wrote ht (hr.write ?_ (by simp)) ?_ rfl rfl trivial
    · intro old hold _
      rw [hrow, Option.some.injEq] at hold
      simp [← hold, hstatus]
    · constructor
      · intro old hold _
        rw [hrow, Option.some.injEq] at hold
        simp [← hold, hkind]
      · intro _
        constructor <;> simp [inFlight]
      · intro sig' hcurrent
        have hholds := hcurrent.holds hrow
        rw [Holds, hr', Option.some.injEq] at hholds
        exact .inl (hholds.2 ▸ hdead)

/-- A refund finds no signature alive. -/
theorem stepped_refund {why : String} {next : Call} (ht : Tracks memo expiry w)
    (hr : Refunds w.tables) (hsame : Same w.tables id row)
    (hlast : row.status = .pending ∧ row.txSignature = none ∨
      SentRow memo expiry w.tables id row ∧ w.chain.Dead expiry (signatureOf row))
    (h : refund w.tables id row why = .ok s') (hnext : next.Honest memo expiry ⟨s', w.chain⟩) :
    Stepped memo expiry w ⟨s', w.chain⟩ next := by
  unfold refund at h
  cases updateMany_cases w.tables id
    (fun r => r.status = row.status ∧ r.txSignature = row.txSignature)
    (fun r => { r with status := .failed, error := some why }) with
  | inr hcount =>
    rw [hcount] at h
    cases h
    exact .stay ht hr hnext
  | inl hwrote =>
    obtain ⟨r, hrow, ⟨hstatus, hr'⟩, hcount⟩ := hwrote
    simp only [hcount, if_true] at h
    obtain ⟨entry, hledger, htransfers, href, huser, hamount⟩ := giveBack_ok h
    have hkind := hsame.kind hrow
    obtain ⟨_, hnow, -, huser', hamount'⟩ := hsame
    rw [hrow, Option.some.injEq] at hnow
    subst hnow
    have hopen : r.status ≠ .failed := by
      cases hlast with
      | inl hpending => simp [hstatus, hpending.1]
      | inr hdead => simp [hstatus, hdead.1.status]
    have hrefunded : Refunded { r with status := .failed, error := some why } entry :=
      ⟨hkind, rfl, huser'.trans huser, by simp [hamount, hamount']⟩
    refine .wrote ht (hr.refund hrow (fun _ => hopen) htransfers hledger href hrefunded) ?_ rfl
      htransfers hnext
    constructor
    · intro old hold _
      rw [hrow, Option.some.injEq] at hold
      simp [← hold, hkind]
    · intro _
      constructor <;> simp
    · intro sig hcurrent
      have hholds := hcurrent.holds hrow
      cases hlast with
      | inl hpending => simp [Holds, hstatus, hpending.1] at hholds
      | inr hdead =>
        have hsig : row.txSignature = some sig := hr' ▸ hholds.2
        exact .inl (signatureOf_eq hsig ▸ hdead.2)

/-- A call's step, but for what it tells the network. -/
theorem Call.stepped (c : Call) (ht : Tracks memo expiry w) (hr : Refunds w.tables)
    (hc : c.Honest memo expiry w) (hanswered : c.answered memo expiry w.chain env = true)
    (hsees : c.seesLanded expiry margin w.chain env = true) :
    Stepped memo expiry w ⟨(c.onTables margin w.tables env).1, w.chain⟩
      (c.onTables margin w.tables env).2 := by
  cases c with
  | request =>
    simp only [Call.onTables]
    split <;> exact .stay ht hr trivial
  | requestTx =>
    simp only [Call.onTables]
    split
    · exact .stay ht hr trivial
    · unfold committed
      split
      case h_1 s' h => exact stepped_requestTx ht hr h
      case h_2 => exact .stay ht hr trivial
  | resumeAll => exact .stay ht hr (nextOpen_honest ..)
  | step id driver =>
    simp only [Call.onTables]
    split
    case h_1 row hrow => exact .stay ht hr (ht.ofRow hrow env driver)
    case h_2 => exact .stay ht hr (threw_honest ..)
  | isPaused | balance =>
    simp only [Call.onTables]
    split
    · exact .stay ht hr (returned_honest ..)
    · exact .stay ht hr hc
  | signTransfer =>
    simp only [Call.answered, Bool.and_eq_true, decide_eq_true_eq] at hanswered
    exact .stay ht hr ⟨hc, hanswered⟩
  | store => exact stepped_store ht hr hc
  | broadcast => exact .stay ht hr trivial
  | finalizedBlockHeight =>
    exact .stay ht hr ⟨hc, by simpa [Call.answered] using hanswered⟩
  | signatureState =>
    exact .stay ht hr (Call.ofState_honest hc hanswered hsees)
  | confirm => exact stepped_confirm ht hr hc
  | resign => exact stepped_resign ht hr hc
  | refund =>
    simp only [Call.onTables, committed]
    split
    case h_1 s' h => exact stepped_refund ht hr hc.1 hc.2 h trivial
    case h_2 => exact .stay ht hr (threw_honest ..)
  | reread =>
    simp only [Call.onTables]
    split
    · exact .stay ht hr (returned_honest ..)
    · exact .stay ht hr (threw_honest ..)
  | done => exact .stay ht hr trivial

end Scadium.Custody.Withdrawal
