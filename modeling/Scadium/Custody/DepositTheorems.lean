/-
Scadium.Custody.DepositTheorems — what a deposit is credited with.

The invariant `Sound` of a run: a deposit's row repeats what the chain says
of its signature, no two rows have one signature, and the credits of the
ledger are those of credited rows, one for each.

Whose deposit it is rests on what was read. `record` reads the primary
wallets in one statement and the linked ones in a later one, so the tables
may have moved in between: `Seen d d'` stands for tables `d` at some moment
and `d'` at that moment or a later one, and `Belongs` says which account a
row may name. A step is proved for any `Seen` that has the present in it
(`step_sound`); over a run `Seen` is `Moments`, what the run has passed
through (`run_sound`). The account credited need not be the one that paid:
the last section has the run.
-/
import Scadium.Custody.Transfers

namespace Scadium.Custody

open Scadium.Lib Scadium.Prisma Scadium.Prisma.Committed

variable {chain : Signature → Option ChainTx} {treasury : Address}
  {Seen Seen' : CustodyDb → CustodyDb → Prop} {s s' d d' : CustodyDb} {env : Env}
  {id : TransferId} {row row' : CustodyTransfer} {signers : List Address}

/-! ## Owners -/

theorem mem_keys_setOwners {u : UserId} : ∀ {m ps : List (UserId × Address)},
    u ∈ (setOwners m ps).map Prod.fst ↔ u ∈ m.map Prod.fst ∨ u ∈ ps.map Prod.fst
  | _, [] => by simp [setOwners]
  | _, _ :: _ => by
      simp only [setOwners, mem_keys_setOwners, mem_keys_insertWith, List.map_cons, List.mem_cons]
      rw [or_assoc]
      exact or_left_comm

theorem mem_keys_addOwners {u : UserId} : ∀ {m ps : List (UserId × Address)},
    u ∈ (addOwners m ps).map Prod.fst ↔ u ∈ m.map Prod.fst ∨ u ∈ ps.map Prod.fst
  | _, [] => by simp [addOwners]
  | _, _ :: _ => by
      simp only [addOwners, mem_keys_addOwners, mem_keys_insertWith, List.map_cons, List.mem_cons]
      rw [or_assoc]
      exact or_left_comm

/-- The account owns one of the wallets: in `d` as a primary one, or in `d'` as a linked one. -/
def Finds (d d' : CustodyDb) (wallets : List Address) (userId : UserId) : Prop :=
  ∃ w ∈ wallets, d.primary.get w = some userId ∨ d'.linked.get w = some userId

/-- It is the only account that does. -/
def FindsOnly (d d' : CustodyDb) (wallets : List Address) (userId : UserId) : Prop :=
  ∀ u, Finds d d' wallets u ↔ u = userId

/-- What the two reads find, in `d` and then in `d'`. -/
def found (d d' : CustodyDb) (wallets : List Address) : List (UserId × Address) :=
  addOwners (setOwners [] (findOwned d.primary wallets)) (findOwned d'.linked wallets)

theorem mem_keys_found {wallets : List Address} {u : UserId} :
    u ∈ (found d d' wallets).map Prod.fst ↔ Finds d d' wallets u := by
  have hfound (t : Table Address UserId) :
      u ∈ (findOwned t wallets).map Prod.fst ↔ ∃ w ∈ wallets, t.get w = some u := by
    simp [findOwned]
  simp only [found, mem_keys_addOwners, mem_keys_setOwners, hfound, List.map_nil, List.not_mem_nil,
    false_or, Finds, and_or_left, exists_or]

theorem findsOnly_of_found {wallets : List Address} {p : UserId × Address}
    (h : found d d' wallets = [p]) : FindsOnly d d' wallets p.1 := by
  intro u
  rw [← mem_keys_found, h]
  simp

/-- The account of a row is its own, or the only one that owns its wallet now. -/
theorem CustodyDb.attribute_finds {userId : UserId} (h : s.attribute row = some userId) :
    row.userId = some userId ∨ row.userId = none ∧ FindsOnly s s [row.wallet] userId := by
  unfold CustodyDb.attribute at h
  split at h
  case h_1 u hu =>
    cases h
    exact .inl hu
  case h_2 hnone =>
    split at h
    case h_1 u w howners =>
      cases h
      exact .inr ⟨hnone, findsOnly_of_found howners⟩
    case h_2 => cases h

theorem CustodyDb.attribute_none (h : s.attribute row = none) : row.userId = none := by
  unfold CustodyDb.attribute at h
  split at h
  case h_1 => cases h
  case h_2 hnone => exact hnone

/-! ## Credit -/

@[simp] theorem creditRows_setFunded (db : Db) (userId : UserId) (now : Time) :
    creditRows (setFunded db userId now) = creditRows db := rfl

theorem creditRows_move {db db' : Db} {userId : UserId} {delta : Int} {info : DeltaMeta}
    (h : moveBalance db userId delta info = .ok db') (hreason : info.reason ≠ "custody_deposit") :
    creditRows db' = creditRows db := by
  obtain ⟨_, -, rfl⟩ := moveBalance_ok h
  simp [creditRows, Db.move, hreason]

theorem creditRows_credit {db db' : Db} {userId : UserId} {delta : Int} {refType : String}
    (h : moveBalance db userId delta ⟨"custody_deposit", refType, some id, .jeton, none⟩ =
      .ok db') :
    ∃ r, creditRows db' = r :: creditRows db ∧ r.userId = userId ∧ r.delta = delta ∧
      r.refId = some id := by
  obtain ⟨_, -, rfl⟩ := moveBalance_ok h
  exact ⟨_, List.filter_cons_of_pos (by simp), rfl, rfl, rfl⟩

theorem creditRows_convert {db db' : Db} {userId : UserId} {playBalance : Int} {now : Time}
    (h : convert db userId playBalance id now = .ok db') : creditRows db' = creditRows db := by
  obtain ⟨_, hforfeit, hok⟩ := bind_ok.mp h
  cases hok
  simp only [forfeit] at hforfeit
  split at hforfeit
  · simp [creditRows_move hforfeit]
  · cases hforfeit
    simp

/-- What a credit writes: the movement and the row. -/
structure Pays (s s' : CustodyDb) (id : TransferId) (row : CustodyTransfer) (userId : UserId) :
    Prop where
  ledger : ∃ r, creditRows s'.db = r :: creditRows s.db ∧ r.userId = userId ∧
    r.delta = row.amountLamports ∧ r.refId = some id
  transfers : s'.transfers =
    s.transfers.set id { row with status := .credited, userId := some userId, heldReason := none }
  primary : s'.primary = s.primary
  linked : s'.linked = s.linked

theorem CustodyDb.pay_ok {db : Db} {userId : UserId} (hdb : creditRows db = creditRows s.db)
    (h : s.pay db id row userId = .ok s') : Pays s s' id row userId := by
  obtain ⟨_, hmove, hok⟩ := bind_ok.mp h
  cases hok
  exact ⟨hdb ▸ creditRows_credit hmove, rfl, rfl, rfl⟩

theorem CustodyDb.creditTo_ok {userId : UserId} (h : s.creditTo env id row userId = .ok s') :
    Pays s s' id row userId ∨ s' = s.hold id row .open_play_positions (some userId) := by
  obtain ⟨_, -, hrest⟩ := bind_ok.mp h
  split at hrest
  · exact .inl (pay_ok rfl hrest)
  · split at hrest
    · cases hrest
      exact .inr rfl
    · obtain ⟨_, hconvert, hpay⟩ := bind_ok.mp hrest
      exact .inl (pay_ok (creditRows_convert hconvert) hpay)

theorem CustodyDb.creditHeld_ok (h : s.creditHeld env id row = .ok s') :
    (∃ userId, s.attribute row = some userId ∧ Pays s s' id row userId) ∨
    ∃ reason userId, s' = s.hold id row reason userId ∧ s.attribute row = userId := by
  unfold creditHeld at h
  split at h
  case h_1 hattr =>
    cases h
    exact .inr ⟨_, none, rfl, hattr⟩
  case h_2 userId hattr =>
    split at h
    · cases h
      exact .inr ⟨_, _, rfl, hattr⟩
    · split at h
      · cases h
        exact .inr ⟨_, _, rfl, hattr⟩
      · cases creditTo_ok h with
        | inl hpays => exact .inl ⟨userId, hattr, hpays⟩
        | inr hhold => exact .inr ⟨_, _, hhold, hattr⟩

/-- The row may be credited. -/
def CustodyTransfer.Open (row : CustodyTransfer) : Prop :=
  row.status = .held ∧ row.heldReason ≠ some .ambiguous_sender

/-- What a call of `credit` leaves behind. -/
theorem CustodyDb.afterCredit_cases (s : CustodyDb) (env : Env) (id : TransferId) :
    s.afterCredit env id = s ∨ ∃ row, s.transfers.get id = some row ∧ row.Open ∧
      ((∃ userId, s.attribute row = some userId ∧
          Pays s (s.afterCredit env id) id row userId) ∨
        ∃ reason userId, s.afterCredit env id = s.hold id row reason userId ∧
          s.attribute row = userId) := by
  unfold afterCredit
  split
  case h_2 => exact .inl rfl
  case h_1 s' h =>
    obtain ⟨row, hrow, hrest⟩ := bind_ok.mp h
    rw [orThrow_ok] at hrow
    split at hrest
    · cases hrest
      exact .inl rfl
    case isFalse hopen =>
      simp only [not_or, not_not] at hopen
      exact .inr ⟨row, hrow, hopen, creditHeld_ok hrest⟩

/-! ## The invariant -/

/-- What a call was told of a signature. -/
def Told (chain : Signature → Option ChainTx) (treasury : Address) (signature : Signature)
    (tx : Inbound) : Prop :=
  ∃ c, chain signature = some c ∧ c.classify treasury = .inbound tx.slot tx.amount tx.signers

/-- Two reads found no owner of a signer. -/
def FoundNone (Seen : CustodyDb → CustodyDb → Prop) (signers : List Address) : Prop :=
  ∃ d d', Seen d d' ∧ ∀ u, ¬ Finds d d' signers u

/-- Whose a deposit is: the only account that the two reads found to own a
signer; where they found none, the only one to own the fee payer at a moment. -/
def Belongs (Seen : CustodyDb → CustodyDb → Prop) (signers : List Address) (userId : UserId) :
    Prop :=
  (∃ d d', Seen d d' ∧ FindsOnly d d' signers userId) ∨
    FoundNone Seen signers ∧
      ∃ payer d, signers.head? = some payer ∧ Seen d d ∧ FindsOnly d d [payer] userId

/-- A row that repeats what the chain says. -/
structure Backed (chain : Signature → Option ChainTx) (treasury : Address)
    (Seen : CustodyDb → CustodyDb → Prop) (row : CustodyTransfer) (signature : Signature)
    (tx : ChainTx) : Prop where
  txSignature : row.txSignature = some signature
  landed : chain signature = some tx
  amount : (row.amountLamports : Int) = tx.delta treasury
  user : ∀ u, row.userId = some u → Belongs Seen tx.signers u
  payer : row.userId = none → row.heldReason ≠ some .ambiguous_sender →
    FoundNone Seen tx.signers ∧ tx.signers.head? = some row.wallet

/-- The row of a credit. -/
structure Paid (row : CustodyTransfer) (r : BalanceLedger) : Prop where
  kind : row.kind = .deposit
  status : row.status = .credited
  user : row.userId = some r.userId
  amount : r.delta = row.amountLamports

structure Sound (chain : Signature → Option ChainTx) (treasury : Address)
    (Seen : CustodyDb → CustodyDb → Prop) (s : CustodyDb) : Prop where
  rows : ∀ id row, s.transfers.get id = some row → row.kind = .deposit →
    ∃ signature tx, Backed chain treasury Seen row signature tx
  held : ∀ id row, s.transfers.get id = some row → row.status = .held → row.kind = .deposit
  unique : ∀ id row, s.transfers.get id = some row → ∀ id' row', s.transfers.get id' = some row' →
    row.txSignature.isSome → row.txSignature = row'.txSignature → id = id'
  once : ((creditRows s.db).map BalanceLedger.refId).Nodup
  ledger : ∀ r ∈ creditRows s.db, ∃ id row, r.refId = some id ∧ s.transfers.get id = some row ∧
    Paid row r

/-- What a call remembers. -/
def Call.Honest (chain : Signature → Option ChainTx) (treasury : Address)
    (Seen : CustodyDb → CustodyDb → Prop) : Call → Prop
  | .readPrimary signature tx _ => Told chain treasury signature tx
  | .readLinked signature tx primary _ =>
      Told chain treasury signature tx ∧ ∃ d, Seen d d ∧ primary = findOwned d.primary tx.signers
  | .create signature tx owners _ =>
      Told chain treasury signature tx ∧ ∃ d d', Seen d d' ∧ found d d' tx.signers = owners
  | _ => True

/-! ## Rows -/

/-- A row is written that is not that of a credit. -/
theorem Sound.setRow (h : Sound chain treasury Seen s)
    (hrow : row.kind = .deposit → ∃ signature tx, Backed chain treasury Seen row signature tx)
    (hheld : row.status = .held → row.kind = .deposit)
    (hsig : row.txSignature.isSome → ∀ j b, j ≠ id → s.transfers.get j = some b →
      b.txSignature ≠ row.txSignature)
    (hpaid : ∀ r ∈ creditRows s.db, r.refId ≠ some id) :
    Sound chain treasury Seen { s with transfers := s.transfers.set id row } where
  rows := s.transfers.forall_set h.rows hrow
  held := s.transfers.forall_set h.held hheld
  unique := by
    have hold : ∀ j b, s.transfers.get j = some b → b.txSignature.isSome →
        b.txSignature = row.txSignature → j = id := by
      intro j b hj hsome heq
      by_contra hne
      exact hsig (heq ▸ hsome) j b hne hj heq
    refine s.transfers.forall_set ?_ ?_
    · intro j b hj
      exact s.transfers.forall_set (h.unique j b hj) (hold j b hj)
    · refine s.transfers.forall_set ?_ (fun _ _ => rfl)
      intro j b hj hsome heq
      exact (hold j b hj (heq ▸ hsome) heq.symm).symm
  once := h.once
  ledger := by
    intro r hr
    obtain ⟨j, b, hj, hb, hpay⟩ := h.ledger r hr
    have hne : j ≠ id := by
      intro heq
      exact hpaid r hr (heq ▸ hj)
    exact ⟨j, b, hj, (s.transfers.get_set_ne hne).trans hb, hpay⟩

/-- A held row has not been credited. -/
theorem Sound.unpaid (h : Sound chain treasury Seen s) (hrow : s.transfers.get id = some row)
    (hstatus : row.status ≠ .credited ∨ row.kind ≠ .deposit) :
    ∀ r ∈ creditRows s.db, r.refId ≠ some id := by
  intro r hr heq
  obtain ⟨j, b, hj, hb, hpay⟩ := h.ledger r hr
  rw [hj, Option.some.injEq] at heq
  subst heq
  rw [hrow, Option.some.injEq] at hb
  subst hb
  cases hstatus with
  | inl hne => exact hne hpay.status
  | inr hne => exact hne hpay.kind

/-- A row keeps its signature. -/
theorem Sound.alone (h : Sound chain treasury Seen s) (hrow : s.transfers.get id = some row) :
    row.txSignature.isSome → ∀ j b, j ≠ id → s.transfers.get j = some b →
      b.txSignature ≠ row.txSignature := by
  intro hsome j b hne hj heq
  exact hne (h.unique id row hrow j b hj hsome heq.symm).symm

/-- The deposit belongs to the account found for its row. -/
theorem Backed.attributed {signature : Signature} {tx : ChainTx} {userId : UserId}
    (h : Backed chain treasury Seen row signature tx) (hnow : Seen s s) (hopen : row.Open)
    (hattr : s.attribute row = some userId) : Belongs Seen tx.signers userId := by
  cases s.attribute_finds hattr with
  | inl hu => exact h.user userId hu
  | inr hfinds =>
    obtain ⟨hfound, hpayer⟩ := h.payer hfinds.1 hopen.2
    exact .inr ⟨hfound, row.wallet, s, hpayer, hnow, hfinds.2⟩

theorem Sound.hold (h : Sound chain treasury Seen s) (hnow : Seen s s)
    (hrow : s.transfers.get id = some row) (hopen : row.Open) {reason : CustodyHoldReason}
    {userId : Option UserId} (hattr : s.attribute row = userId) :
    Sound chain treasury Seen (s.hold id row reason userId) := by
  have halone := h.alone hrow
  apply h.setRow
  · intro hkind
    obtain ⟨signature, tx, hb⟩ := h.rows id row hrow hkind
    refine ⟨signature, tx, hb.txSignature, hb.landed, hb.amount, ?_, ?_⟩
    · intro u hu
      exact hb.attributed hnow hopen (hattr.trans hu)
    · intro hnone _
      exact hb.payer (s.attribute_none (hattr.trans hnone)) hopen.2
  · intro _
    exact h.held id row hrow hopen.1
  · exact halone
  · exact h.unpaid hrow (.inl (by simp [hopen.1]))

theorem Sound.pays {userId : UserId} (h : Sound chain treasury Seen s)
    (hnow : Seen s s) (hrow : s.transfers.get id = some row) (hopen : row.Open)
    (hattr : s.attribute row = some userId)
    (hpays : Pays s s' id row userId) : Sound chain treasury Seen s' := by
  have hkind : row.kind = .deposit := h.held id row hrow hopen.1
  have halone := h.alone hrow
  have hunpaid := h.unpaid hrow (.inl (by simp [hopen.1]))
  have hset : Sound chain treasury Seen { s with transfers := s'.transfers } := by
    rw [hpays.transfers]
    apply h.setRow
    · intro _
      obtain ⟨signature, tx, hb⟩ := h.rows id row hrow hkind
      refine ⟨signature, tx, hb.txSignature, hb.landed, hb.amount, ?_, ?_⟩
      · intro u hu
        cases hu
        exact hb.attributed hnow hopen hattr
      · intro hnone
        cases hnone
    · intro _
      exact hkind
    · exact halone
    · exact hunpaid
  obtain ⟨r, hledger, huser, hdelta, href⟩ := hpays.ledger
  refine ⟨hset.rows, hset.held, hset.unique, ?_, ?_⟩
  · rw [hledger, List.map_cons, List.nodup_cons]
    refine ⟨?_, h.once⟩
    intro hmem
    obtain ⟨r', hr', heq⟩ := List.mem_map.mp hmem
    exact hunpaid r' hr' (heq.trans href)
  · intro r' hr'
    rw [hledger, List.mem_cons] at hr'
    cases hr' with
    | inl heq =>
      subst heq
      have hpaid : Paid { row with
          status := .credited, userId := some r'.userId, heldReason := none } r' :=
        ⟨hkind, rfl, rfl, hdelta⟩
      refine ⟨id, _, href, ?_, hpaid⟩
      rw [hpays.transfers, Table.get_set_self, huser]
    | inr hold => exact hset.ledger r' hold

theorem Sound.afterCredit (h : Sound chain treasury Seen s)
    (hnow : Seen s s) (env : Env) (id : TransferId) :
    Sound chain treasury Seen (s.afterCredit env id) := by
  cases s.afterCredit_cases env id with
  | inl hsame =>
    rw [hsame]
    exact h
  | inr hcredit =>
    obtain ⟨_, hrow, hopen, hcases⟩ := hcredit
    cases hcases with
    | inl hpaid =>
      obtain ⟨userId, hattr, hpays⟩ := hpaid
      exact h.pays hnow hrow hopen hattr hpays
    | inr hhold =>
      obtain ⟨_, _, heq, hattr⟩ := hhold
      rw [heq]
      exact h.hold hnow hrow hopen hattr

/-- The new row repeats what the call was told. -/
theorem backed_depositRow {signature : Signature} {tx : Inbound}
    {owners : List (UserId × Address)} (htold : Told chain treasury signature tx)
    (hseen : Seen d d') (howners : found d d' tx.signers = owners) :
    ∃ c, Backed chain treasury Seen (depositRow signature tx owners) signature c := by
  obtain ⟨c, hc, hclass⟩ := htold
  obtain ⟨-, hsigners, hamount, -⟩ := c.classify_inbound hclass
  refine ⟨c, rfl, hc, hamount, ?_, ?_⟩ <;> rw [← hsigners]
  · intro u hu
    match owners, howners with
    | [p], howners =>
      cases hu
      exact .inl ⟨d, d', hseen, findsOnly_of_found howners⟩
  · intro hnone hreason
    match owners, howners with
    | [], howners =>
      refine ⟨⟨d, d', hseen, ?_⟩, ?_⟩
      · intro u hu
        rw [← mem_keys_found, howners] at hu
        simp at hu
      · cases hs : tx.signers with
        | nil => exact absurd hs (c.signers_ne_nil hclass)
        | cons => simp [depositRow, hs]
    | [_], _ => cases hnone
    | _ :: _ :: _, _ => simp [depositRow] at hreason

/-! ## Calls -/

variable (chain treasury Seen) in
@[simp] theorem confirmRow_honest (id : TransferId) (row : CustodyTransfer) :
    (confirmRow id row).Honest chain treasury Seen := by
  unfold confirmRow
  split <;> trivial

variable (chain treasury Seen) in
@[simp] theorem recorded_honest (signature : Signature) (id : TransferId) (row : CustodyTransfer)
    (caller : Caller) : (recorded signature id row caller).Honest chain treasury Seen := by
  cases caller with
  | confirm => exact confirmRow_honest chain treasury Seen id row
  | scan => trivial

variable (chain treasury Seen) in
@[simp] theorem notRecorded_honest (signature : Signature) (caller : Caller) :
    (notRecorded signature caller).Honest chain treasury Seen := by
  cases caller <;> trivial

theorem treasuryTx_told {signature : Signature} {slot amount : Nat} {signers : List Address}
    (h : treasuryTx chain treasury env signature = .inbound slot amount signers) :
    Told chain treasury signature ⟨slot, amount, signers⟩ := by
  unfold treasuryTx at h
  split at h
  case h_1 tx htx =>
    split at h
    · exact ⟨tx, htx, h⟩
    · cases h
  case h_2 => cases h

/-- No row has the signature. -/
theorem CustodyDb.findBySignature_none {signature : Signature}
    (h : (s.findBySignature signature).isSome = false) {j : TransferId} {b : CustodyTransfer}
    (hj : s.transfers.get j = some b) : b.txSignature ≠ some signature := by
  simp only [findBySignature, Option.isSome_eq_false_iff, Option.isNone_iff_eq_none,
    List.find?_eq_none, decide_eq_true_eq] at h
  exact h (j, b) (s.transfers.get_eq_some.mp hj)

/-- The one write of `record`. -/
theorem Sound.create (h : Sound chain treasury Seen s) {signature : Signature} {tx : Inbound}
    {owners : List (UserId × Address)} (htold : Told chain treasury signature tx)
    (hread : ∃ d d', Seen d d' ∧ found d d' tx.signers = owners)
    (hnew : (s.findBySignature signature).isSome = false)
    (hid : s.transfers.get id = none) :
    Sound chain treasury Seen
      { s with transfers := s.transfers.set id (depositRow signature tx owners) } := by
  apply h.setRow
  · intro _
    obtain ⟨d, d', hseen, howners⟩ := hread
    exact ⟨signature, backed_depositRow htold hseen howners⟩
  · intro _
    rfl
  · intro _ j b _ hj
    exact s.findBySignature_none hnew hj
  · intro r hr heq
    obtain ⟨j, b, hj, hb, -⟩ := h.ledger r hr
    rw [hj, Option.some.injEq] at heq
    subst heq
    rw [hid] at hb
    cases hb

/-- A step of a call keeps the invariant, and the call honest. -/
theorem Call.step_sound (c : Call) (env : Env) (h : Sound chain treasury Seen s)
    (hnow : Seen s s) (hthen : ∀ d, Seen d d → Seen d s) (hc : c.Honest chain treasury Seen) :
    Sound chain treasury Seen (c.step chain treasury s env).1 ∧
      (c.step chain treasury s env).2.Honest chain treasury Seen := by
  cases c with
  | confirm =>
    simp only [Call.step]
    split
    · refine ⟨h, ?_⟩
      split
      · exact confirmRow_honest ..
      · trivial
    · exact ⟨h, trivial⟩
  | confirmFetch =>
    simp only [Call.step]
    split
    case h_1 htx => exact ⟨h, treasuryTx_told htx⟩
    case h_2 => exact ⟨h, trivial⟩
  | readPrimary => exact ⟨h, hc, s, hnow, rfl⟩
  | readLinked =>
    obtain ⟨htold, d, hd, rfl⟩ := hc
    exact ⟨h, htold, d, s, hthen d hd, rfl⟩
  | create =>
    simp only [Call.step]
    split
    · exact ⟨h, notRecorded_honest ..⟩
    · split
      · exact ⟨h, trivial⟩
      · split
        · exact ⟨h, trivial⟩
        case isFalse hnew hid =>
          simp only [Bool.not_eq_true, Option.isSome_eq_false_iff, Option.isNone_iff_eq_none] at hid
          exact ⟨h.create hc.1 hc.2 (by simpa using hnew) hid, recorded_honest ..⟩
  | findConflict =>
    simp only [Call.step]
    split
    · exact ⟨h, recorded_honest ..⟩
    · exact ⟨h, notRecorded_honest ..⟩
  | credit id => exact ⟨h.afterCredit hnow env id, trivial⟩
  | scan | scanList | retryHeld | done => exact ⟨h, trivial⟩
  | scanNext rest =>
    match rest with
    | [] => exact ⟨h, trivial⟩
    | (signature, slot) :: rest =>
      simp only [Call.step]
      split <;> exact ⟨h, trivial⟩
  | scanFetch =>
    simp only [Call.step]
    split
    case h_1 => exact ⟨h, trivial⟩
    case h_2 htx => exact ⟨h, treasuryTx_told htx⟩
    case h_3 => exact ⟨h, trivial⟩
  | scanSave =>
    exact ⟨⟨h.rows, h.held, h.unique, h.once, h.ledger⟩, trivial⟩
  | retry ids =>
    match ids with
    | [] => exact ⟨h, trivial⟩
    | id :: ids => exact ⟨h.afterCredit hnow env id, trivial⟩

/-! ## Runs -/

/-- The tables are sound and so is what every call remembers. -/
structure CustodySystem.Sound (chain : Signature → Option ChainTx) (treasury : Address)
    (Seen : CustodyDb → CustodyDb → Prop) (s : CustodySystem) : Prop where
  tables : Custody.Sound chain treasury Seen s.tables
  calls : ∀ id c, s.calls.get id = some c → c.Honest chain treasury Seen

theorem Call.Honest.mono {c : Call} (hmono : ∀ d d', Seen d d' → Seen' d d')
    (h : c.Honest chain treasury Seen) : c.Honest chain treasury Seen' := by
  cases c with
  | readLinked =>
    obtain ⟨htold, d, hd, heq⟩ := h
    exact ⟨htold, d, hmono d d hd, heq⟩
  | create =>
    obtain ⟨htold, d, d', hd, heq⟩ := h
    exact ⟨htold, d, d', hmono d d' hd, heq⟩
  | _ => exact h

theorem FoundNone.mono (hmono : ∀ d d', Seen d d' → Seen' d d') (h : FoundNone Seen signers) :
    FoundNone Seen' signers := by
  obtain ⟨d, d', hd, hnone⟩ := h
  exact ⟨d, d', hmono d d' hd, hnone⟩

theorem Belongs.mono {userId : UserId} (hmono : ∀ d d', Seen d d' → Seen' d d')
    (h : Belongs Seen signers userId) : Belongs Seen' signers userId := by
  cases h with
  | inl hfound =>
    obtain ⟨d, d', hd, honly⟩ := hfound
    exact .inl ⟨d, d', hmono d d' hd, honly⟩
  | inr hpayer =>
    obtain ⟨hnone, payer, d, hhead, hd, honly⟩ := hpayer
    exact .inr ⟨hnone.mono hmono, payer, d, hhead, hmono d d hd, honly⟩

theorem Sound.mono (hmono : ∀ d d', Seen d d' → Seen' d d') (h : Sound chain treasury Seen s) :
    Sound chain treasury Seen' s where
  rows := by
    intro id row hrow hkind
    obtain ⟨signature, tx, hb⟩ := h.rows id row hrow hkind
    exact ⟨signature, tx, hb.txSignature, hb.landed, hb.amount,
      fun u hu => (hb.user u hu).mono hmono,
      fun hnone hreason => (hb.payer hnone hreason).imp_left (FoundNone.mono hmono)⟩
  held := h.held
  unique := h.unique
  once := h.once
  ledger := h.ledger

/-- A withdrawal's row is no deposit's. -/
theorem Sound.withdrawal (h : Sound chain treasury Seen s) (hmay : s.mayWrite id row = true) :
    Sound chain treasury Seen { s with transfers := s.transfers.set id row } := by
  simp only [CustodyDb.mayWrite, Bool.and_eq_true, decide_eq_true_eq, List.all_eq_true] at hmay
  obtain ⟨⟨hkind, hstatus⟩, hall⟩ := hmay
  apply h.setRow
  · intro hdeposit
    rw [hkind] at hdeposit
    cases hdeposit
  · intro hheld
    exact absurd hheld hstatus
  · intro hsome j b hne hj heq
    have hentry := hall (j, b) (s.transfers.get_eq_some.mp hj)
    have hnone : row.txSignature = none := by simpa [hne, heq] using hentry
    simp [hnone] at hsome
  · intro r hr heq
    obtain ⟨j, b, hj, hb, hpay⟩ := h.ledger r hr
    rw [hj, Option.some.injEq] at heq
    have hentry := hall (j, b) (s.transfers.get_eq_some.mp hb)
    simp [heq, hpay.kind] at hentry

/-- One step keeps the invariant. -/
theorem step_sound {s s' : CustodySystem} {act : Act}
    (h : s.Sound chain treasury Seen) (hnow : Seen s.tables s.tables)
    (hthen : ∀ d, Seen d d → Seen d s.tables) (hstep : step chain treasury s act = some s') :
    s'.Sound chain treasury Seen := by
  cases act with
  | start call entry =>
    simp only [step] at hstep
    split at hstep
    · cases hstep
      refine ⟨h.tables, s.calls.forall_set h.calls ?_⟩
      cases entry <;> trivial
    · cases hstep
  | run call env =>
    simp only [step] at hstep
    split at hstep
    case h_1 c hc =>
      cases hstep
      have hkept := c.step_sound env h.tables hnow hthen (h.calls call c hc)
      exact ⟨hkept.1, s.calls.forall_set h.calls hkept.2⟩
    case h_2 => cases hstep
  | kill =>
    cases hstep
    exact ⟨h.tables, s.calls.forall_erase h.calls⟩
  | relink =>
    cases hstep
    exact ⟨⟨h.tables.rows, h.tables.held, h.tables.unique, h.tables.once, h.tables.ledger⟩,
      h.calls⟩
  | other db =>
    simp only [step] at hstep
    split at hstep
    case isTrue hrows =>
      cases hstep
      refine ⟨⟨h.tables.rows, h.tables.held, h.tables.unique, ?_, ?_⟩, h.calls⟩
      · show ((creditRows db).map _).Nodup
        rw [hrows]
        exact h.tables.once
      · intro r hr
        exact h.tables.ledger r (hrows ▸ hr)
    case isFalse => cases hstep
  | withdrawal =>
    simp only [step] at hstep
    split at hstep
    case isTrue hmay =>
      cases hstep
      exact ⟨h.tables.withdrawal hmay, h.calls⟩
    case isFalse => cases hstep

/-- The run passed through the tables `d`, and then, or at once, through `d'`. -/
def Moments (chain : Signature → Option ChainTx) (treasury : Address) (init : CustodySystem)
    (acts : List Act) (d d' : CustodyDb) : Prop :=
  ∃ before after s, acts = before ++ after ∧ run (step chain treasury) init before = some s ∧
    s.tables = d' ∧ Once (step chain treasury) init before fun s => s.tables = d

theorem Moments.append {init : CustodySystem} {acts : List Act}
    (h : Moments chain treasury init acts d d') (acts' : List Act) :
    Moments chain treasury init (acts ++ acts') d d' := by
  obtain ⟨before, after, s, rfl, hrun⟩ := h
  exact ⟨before, after ++ acts', s, List.append_assoc _ _ _, hrun⟩

/-- What was so at some moment comes before the present. -/
theorem Moments.now {init s : CustodySystem} {acts : List Act}
    (hrun : run (step chain treasury) init acts = some s)
    (h : Moments chain treasury init acts d d) : Moments chain treasury init acts d s.tables := by
  obtain ⟨before, after, t, heq, ht, htables, -⟩ := h
  exact ⟨acts, [], s, (List.append_nil acts).symm, hrun, rfl, before, after, t, heq, ht, htables⟩

theorem run_sound {db : Db} {primary linked : Table Address UserId} {acts : List Act}
    {s : CustodySystem} (hfresh : creditRows db = [])
    (hrun : run (step chain treasury) (.initial db primary linked) acts = some s) :
    s.Sound chain treasury (Moments chain treasury (.initial db primary linked) acts) := by
  refine run_history (P := fun acts s => s.Sound chain treasury
    (Moments chain treasury (.initial db primary linked) acts)) ?_ ?_ hrun
  · refine ⟨⟨?_, ?_, ?_, ?_, ?_⟩, ?_⟩ <;> simp [CustodySystem.initial, hfresh]
  · intro acts s act s' hbefore h hstep
    have hnow : Moments chain treasury (.initial db primary linked) acts s.tables s.tables :=
      ⟨acts, [], s, (List.append_nil acts).symm, hbefore, rfl, Once.now hbefore rfl⟩
    have hnext := step_sound h hnow (fun d hd => hd.now hbefore) hstep
    have hmono : ∀ d d', Moments chain treasury (.initial db primary linked) acts d d' →
        Moments chain treasury (.initial db primary linked) (acts ++ [act]) d d' :=
      fun d d' hd => hd.append [act]
    exact ⟨hnext.tables.mono hmono, fun id c hc => (hnext.calls id c hc).mono hmono⟩

/-! ## Credited once -/

theorem Sound.signatureOf (h : Sound chain treasury Seen s) {r : BalanceLedger}
    (hr : r ∈ creditRows s.db) : ∃ id row signature tx, r.refId = some id ∧
      s.transfers.get id = some row ∧ s.signatureOf r = some signature ∧ Paid row r ∧
      Backed chain treasury Seen row signature tx := by
  obtain ⟨id, row, hid, hrow, hpaid⟩ := h.ledger r hr
  obtain ⟨signature, tx, hb⟩ := h.rows id row hrow hpaid.kind
  refine ⟨id, row, signature, tx, hid, hrow, ?_, hpaid, hb⟩
  simp [CustodyDb.signatureOf, hid, hrow, hb.txSignature]

/-- No two credits are about one signature. -/
theorem Sound.signatures_nodup (h : Sound chain treasury Seen s) :
    ((creditRows s.db).map s.signatureOf).Nodup := by
  have honce := List.pairwise_map.mp h.once
  refine List.pairwise_map.mpr (honce.imp_of_mem ?_)
  intro a b ha hb hne heq
  obtain ⟨i, rowa, sig, _, hi, hrowa, hsiga, -, hbacka⟩ := h.signatureOf ha
  obtain ⟨j, rowb, sig', _, hj, hrowb, hsigb, -, hbackb⟩ := h.signatureOf hb
  have hsig : sig = sig' := Option.some.inj (hsiga.symm.trans (heq.trans hsigb))
  have hrows : rowa.txSignature = rowb.txSignature := by
    rw [hbacka.txSignature, hbackb.txSignature, hsig]
  have hij : i = j :=
    h.unique i rowa hrowa j rowb hrowb (by simp [hbacka.txSignature]) hrows
  exact hne (by rw [hi, hj, hij])

/-- In every run a signature is credited at most once, with what the treasury
got in its transaction, to the only account that `record` found to own a
wallet which signed it, or, where it found none, to the only one that at some
moment owned the fee payer's. -/
theorem deposits_credited_once {db : Db} {primary linked : Table Address UserId}
    {acts : List Act} {s : CustodySystem} (hfresh : creditRows db = [])
    (hrun : run (step chain treasury) (.initial db primary linked) acts = some s) :
    ((creditRows s.tables.db).map s.tables.signatureOf).Nodup ∧
      ∀ r ∈ creditRows s.tables.db, ∃ signature tx, s.tables.signatureOf r = some signature ∧
        chain signature = some tx ∧ r.delta = tx.delta treasury ∧
        Belongs (Moments chain treasury (.initial db primary linked) acts) tx.signers
          r.userId := by
  have h := (run_sound hfresh hrun).tables
  refine ⟨h.signatures_nodup, ?_⟩
  intro r hr
  obtain ⟨_, _, signature, tx, -, -, hsig, hpaid, hb⟩ := h.signatureOf hr
  have hamount : r.delta = tx.delta treasury := hpaid.amount.trans hb.amount
  exact ⟨signature, tx, hsig, hb.landed, hamount, hb.user r.userId hpaid.user⟩

/-! ## Who paid -/

/-- The wallet lost what the treasury got. -/
def ChainTx.Funded (tx : ChainTx) (treasury wallet : Address) : Prop :=
  tx.delta wallet ≤ -tx.delta treasury

namespace Sample

def ada : User :=
  ⟨some "ada", "ada", false, some 1, none, none, fun _ => 0, 0, 0, 0, 0, 0⟩

def db : Db := { Db.empty with users := fun u => if u = 7 then some ada else none }

def wallets : Table Address UserId := Table.empty.set "ada" 7

/-- Ada pays the fee, Bob sends 50. -/
def transfer : ChainTx where
  slot := 1
  err := false
  keys := ["ada", "bob", "treasury"]
  numRequiredSignatures := 2
  preBalances := [10, 100, 0]
  postBalances := [9, 50, 50]
  signed := by decide

def ledger (signature : Signature) : Option ChainTx :=
  if signature = "sig" then some transfer else none

def answers : Env := ⟨true, [], 0, 10, none, false, 2⟩

def init : CustodySystem := .initial db wallets .empty

def acts : List Act :=
  .start 0 (.confirm "sig") :: List.replicate 6 (.run 0 answers)

theorem acts_credit : (run (step ledger "treasury") init acts).any (fun s =>
    (creditRows s.tables.db).any fun r =>
      decide (r.userId = 7 ∧ s.tables.signatureOf r = some "sig" ∧
        s.tables.primary.entries = [("ada", 7)] ∧ s.tables.linked.entries = [])) = true := by
  decide +kernel

end Sample

/-- The account that is credited need not be the one that paid. -/
theorem credit_goes_to_another : ∃ s r, run (step Sample.ledger "treasury") Sample.init
      Sample.acts = some s ∧ r ∈ creditRows s.tables.db ∧
    s.tables.signatureOf r = some "sig" ∧ Sample.ledger "sig" = some Sample.transfer ∧
    Sample.transfer.Funded "treasury" "bob" ∧
    ∀ w, s.tables.Owns r.userId w → ¬ Sample.transfer.Funded "treasury" w := by
  obtain ⟨s, hs, h⟩ := (Option.any_eq_true _ _).mp Sample.acts_credit
  obtain ⟨r, hr, h⟩ := List.any_eq_true.mp h
  obtain ⟨huser, hsig, hprimary, hlinked⟩ := of_decide_eq_true h
  refine ⟨s, r, hs, hr, hsig, if_pos rfl, ?_, ?_⟩
  · unfold ChainTx.Funded
    decide
  · intro w hown
    have hada : w = "ada" := by
      simpa [CustodyDb.Owns, Table.get_eq_some, hprimary, hlinked, huser] using hown
    subst hada
    unfold ChainTx.Funded
    decide

theorem deposits_credited_once_sample : ∃ s r, run (step Sample.ledger "treasury") Sample.init
      Sample.acts = some s ∧ r ∈ creditRows s.tables.db ∧
    ((creditRows s.tables.db).map s.tables.signatureOf).Nodup ∧
    ∃ signature tx, s.tables.signatureOf r = some signature ∧
      Sample.ledger signature = some tx ∧ r.delta = tx.delta "treasury" ∧
      Belongs (Moments Sample.ledger "treasury" Sample.init Sample.acts) tx.signers
        r.userId := by
  obtain ⟨s, hs, h⟩ := (Option.any_eq_true _ _).mp Sample.acts_credit
  obtain ⟨r, hr, -⟩ := List.any_eq_true.mp h
  have hcredited := deposits_credited_once rfl hs
  exact ⟨s, r, hs, hr, hcredited.1, hcredited.2 r hr⟩

end Scadium.Custody
