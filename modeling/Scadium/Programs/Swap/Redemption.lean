/-
Scadium.Programs.Swap.Redemption — when the holder of LP tokens is paid out.

The runtime refuses a transaction that leaves one of its accounts with some
lamports, but with less than what keeps it alive. The source counts the
whole balance of the lamport vault as reserve, the rent with which
`init_pool` opened it included. `redeemable_iff` says which withdrawals are
refused for it, in every pool that transactions reach.

The token accounts that an instruction names are there: their owner can
create them.
-/
import Scadium.Programs.Swap.Backing

namespace Scadium.Programs.Swap

open Scadium.Lib Scadium.Lib.ConstantProduct

/-! ## The rule of the runtime -/

/-- The lamport accounts a transaction may write. -/
def Act.accounts : Act → List Owner
  | .initPool payer _ => [.user payer, .pool]
  | .addLiquidity user _ _ _ => [.user user, .pool]
  | .removeLiquidity user _ _ _ => [.user user, .pool]
  | .swap user _ _ _ => [.user user, .pool]
  | .sendScad _ _ _ => []
  | .sendSol src dst _ => [.user src, dst]
  | .sendLp _ _ _ => []

def RentExempt (rentFloor : Nat) (s : SwapState) (k : Owner) : Prop :=
  s.lamports.get k = 0 ∨ rentFloor ≤ s.lamports.get k

instance (rentFloor : Nat) (s : SwapState) (k : Owner) : Decidable (RentExempt rentFloor s k) :=
  inferInstanceAs (Decidable (_ ∨ _))

/-- One transaction that lands, on a runtime that minds the rent. -/
def land (rentFloor : Nat) (s : SwapState) (a : Act) : Option SwapState :=
  (step rentFloor s a).filter fun s' => decide (∀ k ∈ a.accounts, RentExempt rentFloor s' k)

variable {rentFloor : Nat} {s s' : SwapState} {act : Act} {user : Pubkey}

theorem land_ok : land rentFloor s act = some s' ↔
    step rentFloor s act = some s' ∧ ∀ k ∈ act.accounts, RentExempt rentFloor s' k := by
  simp [land, Option.filter_eq_some_iff]

/-! ## Being paid out -/

/-- The withdrawal of `lp_amount` lands, and pays of each reserve what the
shares are worth, rounded down. -/
structure Redeems (rentFloor : Nat) (s : SwapState) (user : Pubkey) (lp_amount : UInt64)
    (s' : SwapState) : Prop where
  lands : land rentFloor s (.removeLiquidity user lp_amount 0 0) = some s'
  scad : s'.scad.get (.user user) =
    s.scad.get (.user user) + lp_amount.toNat * s.scadRes / s.lp.supply
  sol : s'.lamports.get (.user user) =
    s.lamports.get (.user user) + lp_amount.toNat * s.solRes / s.lp.supply

def Redeemable (rentFloor : Nat) (s : SwapState) (user : Pubkey) (lp_amount : UInt64) : Prop :=
  ∃ s', Redeems rentFloor s user lp_amount s'

/-- What the shares leave of the lamport reserve keeps the vault alive, and
what they are worth keeps an empty wallet alive. -/
structure LeavesRent (rentFloor : Nat) (s : SwapState) (user : Pubkey) (lp_amount : UInt64) :
    Prop where
  vault : lp_amount.toNat * s.solRes < (s.solRes - rentFloor + 1) * s.lp.supply
  wallet : rentFloor ≤ s.lamports.get (.user user) ∨
    (rentFloor - s.lamports.get (.user user)) * s.lp.supply ≤ lp_amount.toNat * s.solRes ∨
    s.lamports.get (.user user) = 0 ∧ lp_amount.toNat * s.solRes < s.lp.supply

/-! ## The invariant -/

/-- Beside the backing: who has LP tokens has them of a pool, the vault of a
pool has its rent, and balances fit their type. -/
structure Solvent (rentFloor : Nat) (s : SwapState) : Prop where
  inv : Inv s
  pool : s.lp.supply = 0 ∨ s.pool.isSome
  vault : s.pool.isSome → rentFloor ≤ s.solRes
  scad : s.scad.total ≤ U64_MAX
  lamports : s.lamports.total ≤ U64_MAX

/-- A transaction opens the pool or leaves it as it is, and only one of an
existing pool mints. -/
theorem exec_pool (h : exec rentFloor s act = .ok s') :
    (s'.pool = s.pool ∨ rentFloor ≤ s'.solRes) ∧
      (s.pool.isSome → s'.pool.isSome) ∧ (s'.lp.supply = s.lp.supply ∨ s'.pool.isSome) := by
  cases act with
  | initPool =>
    simp only [exec, init_pool] at h
    split at h
    · cases h
    · split at h
      · simp only [bind_ok, transfer_ok] at h
        obtain ⟨lamports, ⟨-, -, rfl⟩, hr⟩ := h
        cases hr
        refine ⟨.inr ?_, fun _ => rfl, .inl rfl⟩
        simp only [SwapState.solRes]
        rw [Balances.get_move_dst _ (by simp)]
        omega
      · cases h
  | addLiquidity =>
    simp only [exec, add_liquidity, bind_ok] at h
    obtain ⟨⟨t, event⟩, ⟨pool, hpool, -, -, a, -, -, -, scad, -, lamports, -, lp, -, _, -, hr⟩,
      ht⟩ := h
    cases hr
    cases ht
    have hsome : s.pool.isSome := by simp [getPool_ok hpool]
    exact ⟨.inl rfl, id, .inr hsome⟩
  | removeLiquidity =>
    simp only [exec, remove_liquidity, bind_ok] at h
    obtain ⟨⟨t, event⟩, ⟨_, hpool, -, -, -, -, _, -, _, -, -, -, _, -, scad, -,
      lamports, -, hr⟩, ht⟩ := h
    cases hr
    cases ht
    have hsome : s.pool.isSome := by simp [getPool_ok hpool]
    exact ⟨.inl rfl, id, .inr hsome⟩
  | swap =>
    simp only [exec, bind_ok] at h
    obtain ⟨⟨t, _⟩, hswap, ht⟩ := h
    cases ht
    have htraded := swap_ok hswap
    exact ⟨.inl htraded.pool, fun hsome => htraded.pool ▸ hsome, .inl (by rw [htraded.lp])⟩
  | sendScad | sendSol | sendLp =>
    simp only [exec, bind_ok, transfer_ok] at h
    obtain ⟨_, ⟨-, -, rfl⟩, hr⟩ := h
    cases hr
    exact ⟨.inl rfl, id, .inl rfl⟩

/-- Tokens and lamports only change hands. -/
theorem exec_total (h : exec rentFloor s act = .ok s') :
    s'.scad.total = s.scad.total ∧ s'.lamports.total = s.lamports.total := by
  cases act with
  | initPool =>
    simp only [exec, init_pool] at h
    split at h
    · cases h
    · split at h
      · simp only [bind_ok, transfer_ok] at h
        obtain ⟨lamports, ⟨hle, -, rfl⟩, hr⟩ := h
        cases hr
        exact ⟨rfl, s.lamports.total_move hle⟩
      · cases h
  | addLiquidity =>
    simp only [exec, bind_ok] at h
    obtain ⟨⟨t, event⟩, hadd, ht⟩ := h
    cases ht
    obtain ⟨a, -, -, hadded, -, -⟩ := add_liquidity_ok hadd
    rw [hadded.scad, hadded.lamports]
    exact ⟨s.scad.total_move hadded.scad_le, s.lamports.total_move hadded.sol_le⟩
  | removeLiquidity =>
    simp only [exec, bind_ok] at h
    obtain ⟨⟨t, event⟩, hremove, ht⟩ := h
    cases ht
    have hremoved := remove_liquidity_ok hremove
    rw [hremoved.scad, hremoved.lamports]
    exact ⟨s.scad.total_move hremoved.scad_le, s.lamports.total_move hremoved.sol_le⟩
  | swap user sol_to_scad =>
    simp only [exec, swap, bind_ok] at h
    obtain ⟨⟨t, _⟩, ⟨_, -, -, -, -, -, _, -, -, -, h⟩, ht⟩ := h
    cases sol_to_scad with
    | true =>
      simp only [if_true, bind_ok, transfer_ok] at h
      obtain ⟨lamports, ⟨hle, -, rfl⟩, scad, ⟨hle', -, rfl⟩, hr⟩ := h
      cases hr
      cases ht
      exact ⟨s.scad.total_move hle', s.lamports.total_move hle⟩
    | false =>
      simp only [Bool.false_eq_true, if_false, bind_ok, transfer_ok] at h
      obtain ⟨scad, ⟨hle, -, rfl⟩, lamports, ⟨hle', -, rfl⟩, hr⟩ := h
      cases hr
      cases ht
      exact ⟨s.scad.total_move hle, s.lamports.total_move hle'⟩
  | sendScad =>
    simp only [exec, bind_ok, transfer_ok] at h
    obtain ⟨_, ⟨hle, -, rfl⟩, hr⟩ := h
    cases hr
    exact ⟨s.scad.total_move hle, rfl⟩
  | sendSol =>
    simp only [exec, bind_ok, transfer_ok] at h
    obtain ⟨_, ⟨hle, -, rfl⟩, hr⟩ := h
    cases hr
    exact ⟨rfl, s.lamports.total_move hle⟩
  | sendLp =>
    simp only [exec, bind_ok, transfer_ok] at h
    obtain ⟨_, ⟨-, -, rfl⟩, hr⟩ := h
    cases hr
    exact ⟨rfl, rfl⟩

/-- No transaction empties the lamport vault: a withdrawal leaves what the
locked shares are worth, and a swap does not take all of a side. -/
theorem vault_pos (hi : Inv s) (h : exec rentFloor s act = .ok s') (hpos : 0 < s.solRes) :
    0 < s'.solRes := by
  rcases exec_cases h with hfed | ⟨_, _, _, _, a, _, hadd, -⟩ | ⟨_, _, _, _, hremove⟩ |
    ⟨_, _, _, _, htrade⟩
  · exact Nat.lt_of_lt_of_le hpos hfed.sol
  · rw [hadd.solRes]
    omega
  · have hi' := hi.removed hremove
    have hlocked : MINIMUM_LIQUIDITY ≤ s'.lp.accounts.get .pool := by
      rw [hremove.locked]
      have hsupply := hremove.supply_pos
      have hold := hi.locked
      omega
    have hle := s'.lp.accounts.get_le_total .pool
    rw [hi'.sound] at hle
    have hmin : 0 < MINIMUM_LIQUIDITY := by decide
    exact hi'.backed.right_pos (by omega)
  · exact htrade.pos.2

/-- A transaction that does not write the lamport vault. -/
theorem vault_untouched (h : exec rentFloor s act = .ok s') (hk : .pool ∉ act.accounts) :
    s'.solRes = s.solRes := by
  cases act with
  | initPool | addLiquidity | removeLiquidity | swap => simp [Act.accounts] at hk
  | sendScad | sendLp =>
    simp only [exec, bind_ok, transfer_ok] at h
    obtain ⟨_, -, hr⟩ := h
    cases hr
    rfl
  | sendSol src dst =>
    simp only [exec, bind_ok, transfer_ok] at h
    obtain ⟨_, ⟨-, -, rfl⟩, hr⟩ := h
    cases hr
    have hdst : Owner.pool ≠ dst := by
      rintro rfl
      simp [Act.accounts] at hk
    exact Balances.get_move_other _ (by simp) hdst

/-- A vault that has its rent keeps it. -/
theorem vault_step (hi : Inv s) (hvault : s.pool.isSome → rentFloor ≤ s.solRes)
    (h : land rentFloor s act = some s') (hpool : s'.pool.isSome) : rentFloor ≤ s'.solRes := by
  obtain ⟨hstep, hrule⟩ := land_ok.mp h
  have hexec := step_ok.mp hstep
  rcases (exec_pool hexec).1 with hsame | hopened
  · have hold := hvault (hsame ▸ hpool)
    by_cases hk : .pool ∈ act.accounts
    · rcases hrule .pool hk with hzero | hrent
      · -- then there is no minimum
        have hnone : s.solRes = 0 := by
          by_contra hne
          have hpos := vault_pos hi hexec (Nat.pos_of_ne_zero hne)
          exact absurd hzero hpos.ne'
        omega
      · exact hrent
    · rw [vault_untouched hexec hk]
      exact hold
  · exact hopened

theorem solvent_initial {scad lamports : Balances Owner} (hscad : scad.total ≤ U64_MAX)
    (hlamports : lamports.total ≤ U64_MAX) : Solvent rentFloor (.initial scad lamports) where
  inv := inv_initial scad lamports
  pool := .inl rfl
  vault := by
    intro hsome
    cases hsome
  scad := hscad
  lamports := hlamports

theorem Solvent.step (hs : Solvent rentFloor s) (h : land rentFloor s act = some s') :
    Solvent rentFloor s' := by
  have hexec := step_ok.mp (land_ok.mp h).1
  obtain ⟨-, hkeeps, hmints⟩ := exec_pool hexec
  obtain ⟨hscad, hlamports⟩ := exec_total hexec
  exact
    { inv := hs.inv.step (land_ok.mp h).1
      pool := by
        rcases hmints with hsupply | hsome
        · rw [hsupply]
          exact hs.pool.imp_right hkeeps
        · exact .inr hsome
      vault := vault_step hs.inv hs.vault h
      scad := hscad ▸ hs.scad
      lamports := hlamports ▸ hs.lamports }

theorem solvent_run {scad lamports : Balances Owner} {acts : List Act}
    (hscad : scad.total ≤ U64_MAX) (hlamports : lamports.total ≤ U64_MAX)
    (hrun : run (land rentFloor) (.initial scad lamports) acts = some s) : Solvent rentFloor s :=
  run_invariant (P := Solvent rentFloor) (fun _ _ _ hs h => hs.step h)
    (solvent_initial hscad hlamports) hrun

/-! ## Withdrawals -/

/-- The LP tokens are no more than a `u64` holds, as their square is no more
than the product of the reserves. -/
theorem Solvent.supply_le (hs : Solvent rentFloor s) : s.lp.supply ≤ U64_MAX := by
  have hbacked := hs.inv.backed
  unfold Backed at hbacked
  by_contra hover
  have hscad := (s.scad.get_le_total .pool).trans hs.scad
  have hsol := (s.lamports.get_le_total .pool).trans hs.lamports
  have hproduct : s.scadRes * s.solRes ≤ U64_MAX * U64_MAX := Nat.mul_le_mul hscad hsol
  have hsquare : U64_MAX * U64_MAX < s.lp.supply * s.lp.supply :=
    Nat.mul_lt_mul'' (by omega) (by omega)
  omega

theorem payout_eq {lp_amount res lp_supply : Nat} (hle : lp_amount ≤ lp_supply)
    (hpos : 0 < lp_supply) (hsupply : lp_supply ≤ U64_MAX) (hres : res ≤ U64_MAX) :
    payout lp_amount res lp_supply = .ok (lp_amount * res / lp_supply) := by
  have hscaled : lp_amount * res ≤ U128_MAX :=
    (Nat.mul_le_mul (hle.trans hsupply) hres).trans (by decide)
  have hshare : lp_amount * res / lp_supply ≤ U64_MAX := by
    refine le_trans (Nat.div_le_of_le_mul ?_) hres
    exact Nat.mul_le_mul_right res hle
  simp only [payout, bind_ok, okOr_ok, checkedMul_some, divide_ok, tryU64_some]
  exact ⟨_, ⟨hscaled, rfl⟩, _, ⟨hpos.ne', rfl⟩, hshare, rfl⟩

/-- A transfer out of the pool that its account covers. -/
theorem transfer_from_pool {b : Balances Owner} {amount : Nat} (hle : amount ≤ b.get .pool)
    (hfits : b.total ≤ U64_MAX) :
    (transfer b .pool (.user user) amount : Result (Balances Owner)) =
      .ok (b.move .pool (.user user) amount) := by
  refine transfer_ok.mpr ⟨hle, fun hne => ?_, rfl⟩
  have htotal := b.get_add_get_le_total hne
  omega

variable {lp_amount : UInt64}

/-- What a holder has, there is. -/
theorem Solvent.held_le (hs : Solvent rentFloor s)
    (hheld : lp_amount.toNat ≤ s.lp.accounts.get (.user user)) :
    lp_amount.toNat ≤ s.lp.supply := by
  have hle := s.lp.accounts.get_le_total (.user user)
  rw [hs.inv.sound] at hle
  omega

/-- A withdrawal of what the holder has meets every check of the source. -/
theorem Solvent.removes (hs : Solvent rentFloor s) (hpos : 0 < lp_amount.toNat)
    (hheld : lp_amount.toNat ≤ s.lp.accounts.get (.user user)) :
    ∃ s', Swap.step rentFloor s (.removeLiquidity user lp_amount 0 0) = some s' := by
  have hle := hs.held_le hheld
  have hsupply : 0 < s.lp.supply := by omega
  obtain ⟨pool, hpool⟩ : ∃ pool, s.pool = some pool :=
    Option.isSome_iff_exists.mp (hs.pool.resolve_left hsupply.ne')
  have hscad : s.scadRes ≤ U64_MAX := (s.scad.get_le_total .pool).trans hs.scad
  have hsol : s.solRes ≤ U64_MAX := (s.lamports.get_le_total .pool).trans hs.lamports
  have hpaid (res : Nat) : lp_amount.toNat * res / s.lp.supply ≤ res :=
    Nat.div_le_of_le_mul (Nat.mul_le_mul_right res hle)
  have hremove : ∃ r, remove_liquidity s user lp_amount.toNat 0 0 = .ok r := by
    apply Exists.intro
    simp only [remove_liquidity, bind_ok, require_ok]
    refine ⟨pool, by simp [SwapState.getPool, hpool], (), hpos, (), hsupply, _,
      payout_eq hle hsupply hs.supply_le hscad, _, payout_eq hle hsupply hs.supply_le hsol, (),
      ⟨Nat.zero_le _, Nat.zero_le _⟩, _, burn_ok.mpr ⟨hheld, rfl⟩, _,
      transfer_from_pool (hpaid _) hs.scad, _, transfer_from_pool (hpaid _) hs.lamports, rfl⟩
  obtain ⟨r, hr⟩ := hremove
  refine ⟨r.1, step_ok.mpr ?_⟩
  simp only [exec, bind_ok]
  exact ⟨r, hr, rfl⟩

/-- What it did. -/
theorem removed_of_step (h : step rentFloor s (.removeLiquidity user lp_amount 0 0) = some s') :
    Removed s s' user lp_amount.toNat (lp_amount.toNat * s.scadRes / s.lp.supply)
      (lp_amount.toNat * s.solRes / s.lp.supply) := by
  have hexec := step_ok.mp h
  simp only [exec, bind_ok] at hexec
  obtain ⟨⟨t, _⟩, hremove, ht⟩ := hexec
  cases ht
  have hremoved := remove_liquidity_ok hremove
  rw [← hremoved.scad_eq, ← hremoved.sol_eq]
  exact hremoved

/-- The accounts of a withdrawal are alive after it. -/
theorem rentExempt_iff (hs : Solvent rentFloor s) (hsupply : 0 < s.lp.supply)
    (h : step rentFloor s (.removeLiquidity user lp_amount 0 0) = some s') :
    (∀ k ∈ (Act.removeLiquidity user lp_amount 0 0).accounts, RentExempt rentFloor s' k) ↔
      LeavesRent rentFloor s user lp_amount := by
  have hremoved := removed_of_step h
  have hvault : s'.lamports.get .pool = s.solRes - lp_amount.toNat * s.solRes / s.lp.supply :=
    hremoved.solRes
  have hwallet : s'.lamports.get (.user user) =
      s.lamports.get (.user user) + lp_amount.toNat * s.solRes / s.lp.supply := by
    rw [hremoved.lamports, Balances.get_move_dst _ (by simp)]
  have hsome := hs.vault (hs.pool.resolve_left hsupply.ne')
  have hpos : 0 < s'.lamports.get .pool :=
    vault_pos hs.inv (step_ok.mp h) (hs.inv.backed.right_pos hsupply)
  have hquotient : lp_amount.toNat * s.solRes / s.lp.supply < s.solRes - rentFloor + 1 ↔
      lp_amount.toNat * s.solRes < (s.solRes - rentFloor + 1) * s.lp.supply :=
    Nat.div_lt_iff_lt_mul hsupply
  have hshare : rentFloor - s.lamports.get (.user user) ≤
        lp_amount.toNat * s.solRes / s.lp.supply ↔
      (rentFloor - s.lamports.get (.user user)) * s.lp.supply ≤ lp_amount.toNat * s.solRes :=
    Nat.le_div_iff_mul_le hsupply
  have hnothing : lp_amount.toNat * s.solRes / s.lp.supply = 0 ↔
      lp_amount.toNat * s.solRes < s.lp.supply := by
    rw [Nat.div_eq_zero_iff]
    omega
  rw [hvault] at hpos
  simp only [Act.accounts, List.mem_cons, List.not_mem_nil, or_false, forall_eq_or_imp,
    forall_eq, RentExempt, hvault, hwallet]
  generalize lp_amount.toNat * s.solRes / s.lp.supply = share at *
  constructor
  · rintro ⟨huser, _⟩
    refine ⟨hquotient.mp (by omega), ?_⟩
    rcases huser with hzero | hrent
    · exact .inr (.inr ⟨by omega, hnothing.mp (by omega)⟩)
    · exact .inr (.inl (hshare.mp (by omega)))
  · rintro ⟨hleft, huser⟩
    have hlt := hquotient.mpr hleft
    refine ⟨?_, by omega⟩
    rcases huser with hrent | hrent | ⟨_, hshare'⟩
    · exact .inr (by omega)
    · have hge := hshare.mpr hrent
      exact .inr (by omega)
    · have hshare0 := hnothing.mpr hshare'
      exact .inl (by omega)

/-- In every pool that transactions reach, the withdrawal of any LP tokens that
a user holds lands and pays both shares if and only if it leaves the vault, and
the wallet it pays, their rent. -/
theorem redeemable_iff {scad lamports : Balances Owner} {acts : List Act}
    (hscad : scad.total ≤ U64_MAX) (hlamports : lamports.total ≤ U64_MAX)
    (hrun : run (land rentFloor) (.initial scad lamports) acts = some s)
    (hpos : 0 < lp_amount.toNat) (hheld : lp_amount.toNat ≤ s.lp.accounts.get (.user user)) :
    Redeemable rentFloor s user lp_amount ↔ LeavesRent rentFloor s user lp_amount := by
  have hs := solvent_run hscad hlamports hrun
  have hle := hs.held_le hheld
  have hsupply : 0 < s.lp.supply := by omega
  constructor
  · rintro ⟨s', hredeems⟩
    obtain ⟨hstep, hrule⟩ := land_ok.mp hredeems.lands
    exact (rentExempt_iff hs hsupply hstep).mp hrule
  · intro hleaves
    obtain ⟨s', hstep⟩ := hs.removes hpos hheld
    have hremoved := removed_of_step hstep
    refine ⟨s', land_ok.mpr ⟨hstep, (rentExempt_iff hs hsupply hstep).mpr hleaves⟩, ?_, ?_⟩
    · rw [hremoved.scad, Balances.get_move_dst _ (by simp)]
    · rw [hremoved.lamports, Balances.get_move_dst _ (by simp)]

/-- A user who opens the pool and supplies it alone, with 1 SOL and as much
SCAD. -/
def onlyHolder : List Act := [.initPool 1 30, .addLiquidity 1 1000000000 1000000000 0]

/-- All the shares of the only holder would leave 1001 lamports in the vault. -/
theorem last_holder_refused : ∃ s,
    run (land 890880) (.initial wallets wallets) onlyHolder = some s ∧
    s.lp.accounts.get (.user 1) = 999999000 ∧ s.solRes = 1000890880 ∧
    ¬ Redeemable 890880 s 1 999999000 := by
  have hsome : ((run (land 890880) (.initial wallets wallets) onlyHolder).any fun s =>
      decide (s.lp.accounts.get (.user 1) = 999999000 ∧ s.solRes = 1000890880 ∧
        (land 890880 s (.removeLiquidity 1 999999000 0 0)).isNone)) = true := by decide +kernel
  obtain ⟨s, hrun, hs⟩ := (Option.any_eq_true _ _).mp hsome
  obtain ⟨hheld, hsol, hnone⟩ := of_decide_eq_true hs
  refine ⟨s, hrun, hheld, hsol, ?_⟩
  rintro ⟨_, hredeems⟩
  have hlands := hredeems.lands
  rw [Option.isNone_iff_eq_none.mp hnone] at hlands
  cases hlands

/-- Nine tenths of them are paid. -/
theorem redeemable_iff_most : ∃ s,
    run (land 890880) (.initial wallets wallets) onlyHolder = some s ∧
    Redeemable 890880 s 1 900000000 := by
  have hsome : ((run (land 890880) (.initial wallets wallets) onlyHolder).any fun s =>
      decide (900000000 ≤ s.lp.accounts.get (.user 1) ∧ s.lp.supply = 1000000000 ∧
        s.solRes = 1000890880 ∧ 890880 ≤ s.lamports.get (.user 1))) = true := by decide +kernel
  obtain ⟨s, hrun, hs⟩ := (Option.any_eq_true _ _).mp hsome
  obtain ⟨hheld, hsupply, hsol, hwallet⟩ := of_decide_eq_true hs
  have hheld' : (900000000 : UInt64).toNat ≤ s.lp.accounts.get (.user 1) := hheld
  refine ⟨s, hrun, (redeemable_iff (by decide) (by decide) hrun (by decide) hheld').mpr ?_⟩
  exact ⟨by rw [hsol, hsupply]; decide, .inl hwallet⟩

end Scadium.Programs.Swap
