/-
Scadium.Rewards.Cashback — cashback is neither lost nor doubled.

The amount of a cashback claim is fixed when the claim is made. Its
confirmation moves the baseline to the total that its attempt has read, which
may be later: what was lost in between is then behind the baseline and in no
claim. So the cashback that is confirmed and the one that has accrued are never
more than what the losses are worth, and they are exactly that as long as every
claim is confirmed by an attempt that has read the total it was made from.
-/
import Scadium.Lib.Runs
import Scadium.Rewards.Service

namespace Scadium.Rewards

open Scadium.Lib Scadium.Shared
open Scadium.Prisma (Time)

/-! ## What is counted -/

def confirmedCashback (c : RewardClaim) : Nat :=
  if c.kind = .cashback ∧ c.status = .confirmed then c.amountScad else 0

/-- What the losses are worth. -/
def State.cashbackDue (s : State) : Nat := SCAD.CASHBACK_PER_LAMPORT_LOST * s.user.totalLost

/-- What is confirmed of it or still accrues. -/
def State.cashbackCounted (s : State) : Nat :=
  s.claims.sum confirmedCashback + cashbackAccrued s.user.totalLost s.user.cashbackBaselineLost

/-- A confirmation is of the amount that had accrued when its attempt has read
the user: nothing was lost between the claim and that read. -/
def UpToDate (s : State) : Action → Prop
  | .finishAttempt id true => ∀ a ∈ s.attempts.get id, ∀ row ∈ s.claims.get a.claimId,
      row.kind = .cashback → row.status = .pending →
        row.amountScad = cashbackAccrued a.totalLost s.user.cashbackBaselineLost
  | _ => True

instance (s : State) (a : Action) : Decidable (UpToDate s a) :=
  match a with
  | .finishAttempt id true =>
      inferInstanceAs (Decidable (∀ a ∈ s.attempts.get id, ∀ row ∈ s.claims.get a.claimId,
        row.kind = .cashback → row.status = .pending →
          row.amountScad = cashbackAccrued a.totalLost s.user.cashbackBaselineLost))
  | .finishAttempt _ false | .configure _ | .lose _ | .accrue _ | .distribute _
  | .setPrimaryWallet _ | .claim _ _ | .checkDailyCase _ _ | .openDailyCase _ _ | .startAttempt _
  | .land _ => .isTrue trivial

/-! ## Accruals -/

theorem cashbackAccrued_eq {totalLost baseline : Nat} (h : baseline ≤ totalLost) :
    cashbackAccrued totalLost baseline + SCAD.CASHBACK_PER_LAMPORT_LOST * baseline =
      SCAD.CASHBACK_PER_LAMPORT_LOST * totalLost := by
  unfold cashbackAccrued SCAD.CASHBACK_PER_LAMPORT_LOST
  split <;> omega

theorem cashbackAccrued_mono {x y baseline : Nat} (h : x ≤ y) :
    cashbackAccrued x baseline ≤ cashbackAccrued y baseline := by
  unfold cashbackAccrued SCAD.CASHBACK_PER_LAMPORT_LOST
  split <;> split <;> omega

/-! ## The invariant -/

/-- A cashback claim that waits for its confirmation. -/
def RewardClaim.Waits (c : RewardClaim) : Prop := c.kind = .cashback ∧ c.status = .pending

/-- What the confirmed claims add up to. -/
def Books.paid (b : Books) : Nat := b.claims.sum confirmedCashback

/-- One cashback claim waits at a time, for no more than has accrued, and an
attempt for it has read a total from the baseline on. -/
structure Books.Inv (b : Books) : Prop where
  fresh : ∀ id c, b.claims.get id = some c → id < b.drawn
  once : ∀ id id' c c', b.claims.get id = some c → b.claims.get id' = some c' → c.Waits →
    c'.Waits → id = id'
  behind : b.baseline ≤ b.totalLost
  owed : ∀ id c, b.claims.get id = some c → c.Waits →
    c.amountScad ≤ cashbackAccrued b.totalLost b.baseline
  read : ∀ i a, b.attempts.get i = some a → a.totalLost ≤ b.totalLost ∧
    ∃ row, b.claims.get a.claimId = some row ∧ row.kind = a.claim.kind ∧
      (row.Waits → b.baseline ≤ a.totalLost ∧
        row.amountScad ≤ cashbackAccrued a.totalLost b.baseline)

namespace Books.Inv

variable {b : Books}

theorem draw (h : b.Inv) {d : Nat} (hd : b.drawn ≤ d) (cases_ : Table Nat CaseCheck) :
    Inv { b with cases := cases_, drawn := d } :=
  ⟨fun id c hget => Nat.lt_of_lt_of_le (h.fresh id c hget) hd, h.once, h.behind, h.owed, h.read⟩

theorem lose (h : b.Inv) (n : Nat) : Inv { b with totalLost := b.totalLost + n } where
  fresh := h.fresh
  once := h.once
  behind := Nat.le_add_right_of_le h.behind
  owed id c hget hc := Nat.le_trans (h.owed id c hget hc) (cashbackAccrued_mono (by simp))
  read i a ha := ⟨Nat.le_add_right_of_le (h.read i a ha).1, (h.read i a ha).2⟩

/-- A new row. -/
theorem create (h : b.Inv) {c : RewardClaim}
    (hfirst : c.Waits → (∀ id c', b.claims.get id = some c' → ¬ c'.Waits) ∧
      c.amountScad = cashbackAccrued b.totalLost b.baseline) :
    Inv { b with claims := b.claims.set b.drawn c, drawn := b.drawn + 1 } where
  fresh := by
    intro id c' hget
    rw [Table.get_set] at hget
    split at hget
    · rename_i hid
      simp [hid]
    · exact Nat.lt_succ_of_lt (h.fresh id c' hget)
  once := by
    intro id id' c₁ c₂ h₁ h₂ hw₁ hw₂
    rw [Table.get_set] at h₁ h₂
    split at h₁ <;> split at h₂
    · simp_all
    · cases h₁
      exact absurd hw₂ ((hfirst hw₁).1 id' c₂ h₂)
    · cases h₂
      exact absurd hw₁ ((hfirst hw₂).1 id c₁ h₁)
    · exact h.once id id' c₁ c₂ h₁ h₂ hw₁ hw₂
  behind := h.behind
  owed := b.claims.forall_set h.owed fun hw => Nat.le_of_eq (hfirst hw).2
  read := by
    intro i a ha
    obtain ⟨hle, row, hrow, hkind, hwaits⟩ := h.read i a ha
    have hne : a.claimId ≠ b.drawn := Nat.ne_of_lt (h.fresh _ _ hrow)
    exact ⟨hle, row, (b.claims.get_set_ne hne).trans hrow, hkind, hwaits⟩

/-- A row that goes on waiting, or stops. -/
theorem update (h : b.Inv) {id : ClaimId} {row row' : RewardClaim}
    (hrow : b.claims.get id = some row) (hkind : row'.kind = row.kind)
    (hamount : row'.amountScad = row.amountScad) (hwaits : row'.Waits → row.Waits) :
    Inv { b with claims := b.claims.set id row' } where
  fresh := b.claims.forall_set h.fresh (h.fresh id row hrow)
  once := by
    have hold : ∀ j c, (b.claims.set id row').get j = some c → c.Waits →
        ∃ c', b.claims.get j = some c' ∧ c'.Waits := by
      intro j c hget hc
      rw [Table.get_set] at hget
      split at hget
      · rename_i hj
        cases hget
        exact ⟨row, hj ▸ hrow, hwaits hc⟩
      · exact ⟨c, hget, hc⟩
    intro j k c c' hj hk hc hc'
    obtain ⟨d, hd, hdw⟩ := hold j c hj hc
    obtain ⟨d', hd', hdw'⟩ := hold k c' hk hc'
    exact h.once j k d d' hd hd' hdw hdw'
  behind := h.behind
  owed := b.claims.forall_set h.owed fun hw => by
    rw [hamount]
    exact h.owed id row hrow (hwaits hw)
  read := by
    intro i a ha
    obtain ⟨hle, c, hc, hck, hcw⟩ := h.read i a ha
    refine ⟨hle, ?_⟩
    by_cases hid : a.claimId = id
    · have heq : c = row := Option.some.inj (hc.symm.trans (hid ▸ hrow))
      subst heq
      refine ⟨row', by rw [hid, Table.get_set_self], hkind.trans hck, fun hw => ?_⟩
      rw [hamount]
      exact hcw (hwaits hw)
    · exact ⟨c, (b.claims.get_set_ne hid).trans hc, hck, hcw⟩

theorem start (h : b.Inv) {id : ClaimId} {c : RewardClaim} (hget : b.claims.get id = some c) :
    Inv { b with
      attempts := b.attempts.set b.drawn ⟨id, c, b.totalLost⟩, drawn := b.drawn + 1 } where
  fresh id c hget := Nat.lt_succ_of_lt (h.fresh id c hget)
  once := h.once
  behind := h.behind
  owed := h.owed
  read := b.attempts.forall_set h.read
    ⟨Nat.le_refl _, c, hget, rfl, fun hw => ⟨h.behind, h.owed id c hget hw⟩⟩

theorem finish (h : b.Inv) (i : Nat) : Inv { b with attempts := b.attempts.erase i } :=
  ⟨h.fresh, h.once, h.behind, h.owed, b.attempts.forall_erase h.read⟩

/-- While no claim waits, the baseline is free to move. -/
theorem rebase (h : b.Inv) (hnone : ∀ id c, b.claims.get id = some c → ¬ c.Waits) {base : Nat}
    (hbase : base ≤ b.totalLost) : Inv { b with baseline := base } where
  fresh := h.fresh
  once := h.once
  behind := hbase
  owed id c hget hc := absurd hc (hnone id c hget)
  read i a ha := by
    obtain ⟨hle, row, hrow, hkind, -⟩ := h.read i a ha
    exact ⟨hle, row, hrow, hkind, fun hw => absurd hw (hnone _ _ hrow)⟩

end Books.Inv

theorem not_waits_confirmed (c : RewardClaim) :
    ¬ RewardClaim.Waits { c with status := .confirmed } := by
  rintro ⟨-, h⟩
  cases h

theorem Moves.inv {b b' : Books} {a : Action} (h : Moves b a b') (hi : b.Inv) : b'.Inv := by
  cases h with
  | same => exact hi
  | lose n => exact hi.lose n
  | create kind now amount hfirst hcase hcashback =>
    refine hi.create (c := ⟨kind, now, amount, .pending, 0⟩) ?_
    rintro ⟨hk, -⟩
    cases hk
    exact ⟨fun id c hget hw => hfirst id c hget hw, hcashback rfl⟩
  | check => exact hi.draw (Nat.le_succ _) _
  | openCase id prize c status =>
    have hcreate := hi.create (c := c.claim prize status) (fun hw => by cases hw.1)
    exact ⟨hcreate.fresh, hcreate.once, hcreate.behind, hcreate.owed, hcreate.read⟩
  | start id c hget => exact hi.start hget
  | skip i => exact hi.finish i
  | keep i att row row' hatt hrow hkind hamount hstatus =>
    refine (hi.update hrow hkind hamount ?_).finish i
    rintro ⟨hk, hp⟩
    obtain hs | ⟨hp', -, -⟩ := hstatus
    · exact ⟨hkind ▸ hk, hs ▸ hp⟩
    · exact ⟨hkind ▸ hk, hp'⟩
  | confirm i att row hatt hrow hpending =>
    have hset := (@Books.Inv.update _ hi _ row { row with status := .confirmed } hrow rfl rfl
      (fun hw => absurd hw (not_waits_confirmed row))).finish i
    by_cases hk : att.claim.kind = .cashback
    · have hread := hi.read i att hatt
      obtain ⟨_, hrow₁, hkind, -⟩ := hread.2
      cases hrow₁.symm.trans hrow
      rw [if_pos hk]
      refine hset.rebase ?_ hread.1
      intro id c hget hw
      by_cases hid : id = att.claimId
      · subst hid
        rw [Table.get_set_self] at hget
        cases hget
        exact not_waits_confirmed row hw
      · rw [Table.get_set_ne _ hid] at hget
        exact hid (hi.once id att.claimId c row hget hrow hw ⟨hkind.trans hk, hpending⟩)
    · rw [if_neg hk]
      exact hset

/-! ## What is paid -/

theorem paid_set {b : Books} {id : ClaimId} {row row' : RewardClaim}
    (hrow : b.claims.get id = some row) :
    (b.claims.set id row').sum confirmedCashback + confirmedCashback row =
      b.paid + confirmedCashback row' := by
  have hsum := b.claims.sum_set (k := id) (a := row') (g := confirmedCashback)
  rw [hrow] at hsum
  exact hsum

theorem confirmedCashback_of_ne {c : RewardClaim} (h : c.status ≠ .confirmed) :
    confirmedCashback c = 0 := if_neg fun hc => h hc.2

theorem paid_create {b : Books} (hi : b.Inv) {c : RewardClaim} (hstatus : c.status ≠ .confirmed) :
    (b.claims.set b.drawn c).sum confirmedCashback = b.paid := by
  have hnone : b.claims.get b.drawn = none := by
    cases hget : b.claims.get b.drawn with
    | none => rfl
    | some c' => exact absurd (hi.fresh _ c' hget) (Nat.lt_irrefl _)
  have hsum := b.claims.sum_set (k := b.drawn) (a := c) (g := confirmedCashback)
  rw [hnone, confirmedCashback_of_ne hstatus] at hsum
  exact hsum

/-- Only a confirmation of a cashback claim pays, and only it moves the baseline. -/
structure Pays (b b' : Books) (a : Attempt) (row : RewardClaim) : Prop where
  row_eq : b.claims.get a.claimId = some row
  waits : row.Waits
  paid : b'.paid = b.paid + row.amountScad
  baseline : b'.baseline = a.totalLost

theorem Moves.paid {b b' : Books} {a : Action} (h : Moves b a b') (hi : b.Inv) :
    (b'.paid = b.paid ∧ b'.baseline = b.baseline ∧
      ∀ i att row, a = .finishAttempt i true → b.attempts.get i = some att →
        b.claims.get att.claimId = some row → ¬ row.Waits) ∨
    ∃ i att row, a = .finishAttempt i true ∧ b.attempts.get i = some att ∧ Pays b b' att row := by
  cases h with
  | same a ha => exact .inl ⟨rfl, rfl, fun i _ _ hne => absurd hne (ha i true)⟩
  | lose | check | start => exact .inl ⟨rfl, rfl, nofun⟩
  | create =>
    exact .inl ⟨paid_create hi (by simp), rfl, nofun⟩
  | openCase id prize c status hget hstatus =>
    refine .inl ⟨paid_create hi ?_, rfl, nofun⟩
    obtain rfl | rfl := hstatus <;> simp [CaseCheck.claim]
  | skip i att row signed hatt hrow hfinal =>
    refine .inl ⟨rfl, rfl, ?_⟩
    intro j att' row' heq hatt' hrow'
    cases heq
    cases hatt.symm.trans hatt'
    cases hrow.symm.trans hrow'
    exact fun hw => hfinal hw.2
  | keep i att row row' hatt hrow hkind hamount hstatus =>
    refine .inl ⟨?_, rfl, nofun⟩
    have hsame : confirmedCashback row' = confirmedCashback row := by
      obtain hs | ⟨hp, hf, -⟩ := hstatus
      · simp [confirmedCashback, hkind, hamount, hs]
      · rw [confirmedCashback_of_ne (by simp [hf]), confirmedCashback_of_ne (by simp [hp])]
    have hset := @paid_set b _ row row' hrow
    rw [hsame] at hset
    exact Nat.add_right_cancel hset
  | confirm i att row hatt hrow hpending =>
    have hset := @paid_set b _ row { row with status := .confirmed } hrow
    rw [confirmedCashback_of_ne (by simp [hpending])] at hset
    obtain ⟨-, _, hrow₁, hkind, -⟩ := hi.read i att hatt
    cases hrow₁.symm.trans hrow
    by_cases hk : row.kind = .cashback
    · refine .inr ⟨i, att, row, rfl, hatt, hrow, ⟨hk, hpending⟩, ?_, if_pos (hkind ▸ hk)⟩
      simpa [Books.paid, confirmedCashback, hk] using hset
    · refine .inl ⟨?_, if_neg (fun h => hk (hkind ▸ h)), ?_⟩
      · simpa [Books.paid, confirmedCashback, hk] using hset
      · intro j att' row' heq hatt' hrow' hw
        cases heq
        cases hatt.symm.trans hatt'
        cases hrow.symm.trans hrow'
        exact hk hw.1

/-! ## Runs -/

/-- The books are kept, and no more was paid than lies behind the baseline. -/
structure State.Kept (s : State) : Prop where
  inv : s.books.Inv
  paid : s.books.paid ≤ SCAD.CASHBACK_PER_LAMPORT_LOST * s.books.baseline

theorem kept_init (chainEnabled : Bool) (walletAddress : Wallet) :
    (State.init chainEnabled walletAddress).Kept where
  inv := by
    constructor <;> simp [State.books, State.init]
  paid := Nat.le_refl _

theorem cashbackCounted_eq {s : State} (h : s.Kept) :
    s.cashbackCounted + SCAD.CASHBACK_PER_LAMPORT_LOST * s.books.baseline =
      s.cashbackDue + s.books.paid := by
  have haccrued := cashbackAccrued_eq h.inv.behind
  simp only [State.cashbackCounted, State.cashbackDue, Books.paid, State.books] at haccrued ⊢
  omega

theorem upToDate_of_not_waits {s : State} {a : Action}
    (h : ∀ i att row, a = .finishAttempt i true → s.attempts.get i = some att →
      s.claims.get att.claimId = some row → ¬ row.Waits) : UpToDate s a := by
  unfold UpToDate
  split
  · intro att hatt row hrow hkind hpending
    exact absurd ⟨hkind, hpending⟩ (h _ att row rfl hatt hrow)
  · trivial

/-- A confirmation of cashback is up to date if its amount is what had accrued. -/
theorem upToDate_iff_of_pays {s : State} {b' : Books} {i : Nat} {att : Attempt} {row : RewardClaim}
    (hatt : s.attempts.get i = some att) (h : Pays s.books b' att row) :
    UpToDate s (.finishAttempt i true) ↔
      row.amountScad = cashbackAccrued att.totalLost s.books.baseline := by
  constructor
  · intro hup
    exact hup att hatt row h.row_eq h.waits.1 h.waits.2
  · intro hamount att' hatt' row' hrow' _ _
    cases hatt.symm.trans hatt'
    cases h.row_eq.symm.trans hrow'
    exact hamount

theorem kept_step {s s' : State} {a : Action} (h : s.Kept) (hstep : step s a = some s') :
    s'.Kept := by
  have hmoves := step_moves hstep
  refine ⟨hmoves.inv h.inv, ?_⟩
  obtain ⟨hpaid, hbase, -⟩ | ⟨i, att, _, -, hatt, hpays⟩ := hmoves.paid h.inv
  · rw [hpaid, hbase]
    exact h.paid
  · obtain ⟨-, _, hrow', -, hread⟩ := h.inv.read i att hatt
    cases hpays.row_eq.symm.trans hrow'
    obtain ⟨hle, _⟩ := hread hpays.waits
    have haccrued := cashbackAccrued_eq hle
    have hpaid := h.paid
    rw [hpays.paid, hpays.baseline]
    omega

/-- From exact books a step leads to exact books exactly if it is up to date. -/
theorem counted_step {s s' : State} {a : Action} (h : s.Kept)
    (hexact : s.cashbackCounted = s.cashbackDue) (hstep : step s a = some s') :
    s'.cashbackCounted = s'.cashbackDue ↔ UpToDate s a := by
  have hbefore := cashbackCounted_eq h
  have hafter := cashbackCounted_eq (kept_step h hstep)
  obtain ⟨hpaid, hbase, hnone⟩ | ⟨i, att, _, rfl, hatt, hpays⟩ :=
    (step_moves hstep).paid h.inv
  · refine ⟨fun _ => upToDate_of_not_waits hnone, fun _ => ?_⟩
    rw [hpaid, hbase] at hafter
    omega
  · obtain ⟨-, _, hrow', -, hread⟩ := h.inv.read i att hatt
    cases hpays.row_eq.symm.trans hrow'
    obtain ⟨hle, _⟩ := hread hpays.waits
    have haccrued := cashbackAccrued_eq hle
    rw [upToDate_iff_of_pays hatt hpays]
    rw [hpays.paid, hpays.baseline] at hafter
    omega

/-- Cashback is never doubled, and it is never lost in exactly the runs in which
every confirmation is up to date. -/
theorem cashback_exact {chainEnabled : Bool} {walletAddress : Wallet} {es : List Action}
    {t : State} (hrun : run step (State.init chainEnabled walletAddress) es = some t) :
    Throughout step (State.init chainEnabled walletAddress) es
      (fun s => s.cashbackCounted ≤ s.cashbackDue) ∧
    (Throughout step (State.init chainEnabled walletAddress) es
      (fun s => s.cashbackCounted = s.cashbackDue) ↔
        Along step UpToDate (State.init chainEnabled walletAddress) es) := by
  have hinit := kept_init chainEnabled walletAddress
  constructor
  · intro before after s _ hbefore
    have hkept : s.Kept := run_invariant (fun _ _ _ h => kept_step h) hinit hbefore
    have heq := cashbackCounted_eq hkept
    have hpaid := hkept.paid
    omega
  · exact throughout_iff_along (fun _ _ _ h => kept_step h) (fun _ _ _ h => counted_step h)
      hinit rfl hrun

namespace Sample

/-- A claim that is confirmed by the first attempt for it. -/
def cashbackPaid : List Action :=
  [.lose 100, .claim .cashback 10, .startAttempt 0, .land 1, .finishAttempt 1 true, .lose 50]

/-- The same, with a loss before the attempt reads the user. -/
def cashbackLost : List Action :=
  [.lose 100, .claim .cashback 10, .lose 50, .startAttempt 0, .land 1, .finishAttempt 1 true]

end Sample

theorem cashback_exact_paid : ∃ t, run step (State.init true 7) Sample.cashbackPaid = some t ∧
    Throughout step (State.init true 7) Sample.cashbackPaid
      (fun s => s.cashbackCounted = s.cashbackDue) := by
  obtain ⟨t, ht⟩ := Option.isSome_iff_exists.mp
    (by decide : (run step (State.init true 7) Sample.cashbackPaid).isSome = true)
  exact ⟨t, ht, (cashback_exact ht).2.mpr (by decide)⟩

/-- The 50 lamports lost in between are neither paid for nor accrue. -/
theorem cashback_lost : ¬ ∀ (chainEnabled : Bool) (walletAddress : Wallet) (es : List Action)
    (t : State), run step (State.init chainEnabled walletAddress) es = some t →
      t.cashbackCounted = t.cashbackDue := by
  intro h
  obtain ⟨t, ht, hne⟩ := (Option.any_eq_true _ _).mp
    (by decide : (run step (State.init true 7) Sample.cashbackLost).any
      (fun t => t.cashbackCounted != t.cashbackDue) = true)
  simp [h _ _ _ t ht] at hne

end Scadium.Rewards
