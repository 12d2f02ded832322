/-
Scadium.Programs.Swap.Trades — a trader alone with the pool does not gain.

A trader's moves are swaps, and adds whose LP is removed at once. What
leaves the trader enters the pool (`Kept`), and the product of the reserves
does not fall, so whoever is not behind in one asset is not ahead in the
other. An add to a pool without LP is different: it is priced by its own
amounts alone, and what others had sent to the empty pool goes with it.
-/
import Scadium.Programs.Swap.Backing

namespace Scadium.Programs.Swap

open Scadium.Lib Scadium.Lib.ConstantProduct

/-- What a trader does in one go. -/
inductive TraderMove where
  | swap (sol_to_scad : Bool) (amount_in min_amount_out : UInt64)
  | addRemove (scad_amount sol_amount min_lp min_scad min_sol : UInt64)
  deriving DecidableEq

def TraderMove.isSwap : TraderMove → Bool
  | .swap .. => true
  | .addRemove .. => false

/-- A swap, or an add and at once the removal of the LP it minted. -/
def TraderMove.exec (s : SwapState) (user : Pubkey) : TraderMove → Result SwapState
  | .swap sol_to_scad amount_in min_amount_out => do
      let r ← Swap.swap s user sol_to_scad amount_in.toNat min_amount_out.toNat
      pure r.1
  | .addRemove scad_amount sol_amount min_lp min_scad min_sol => do
      let r ← add_liquidity s user scad_amount.toNat sol_amount.toNat min_lp.toNat
      let r ← remove_liquidity r.1 user r.2.lp min_scad.toNat min_sol.toNat
      pure r.1

/-- The moves one after the other. -/
def trade (user : Pubkey) : SwapState → List TraderMove → Result SwapState
  | s, [] => pure s
  | s, m :: ms => do
      let s ← m.exec s user
      trade user s ms

variable {s s' t : SwapState} {user : Pubkey}

/-- What the trader gives, the pool gets, and the product does not fall. -/
structure Kept (user : Pubkey) (s s' : SwapState) : Prop where
  scad : s'.scad.get (.user user) + s'.scadRes = s.scad.get (.user user) + s.scadRes
  sol : s'.lamports.get (.user user) + s'.solRes = s.lamports.get (.user user) + s.solRes
  product : s.scadRes * s.solRes ≤ s'.scadRes * s'.solRes

theorem Kept.refl (user : Pubkey) (s : SwapState) : Kept user s s := ⟨rfl, rfl, Nat.le_refl _⟩

theorem Kept.trans (h : Kept user s t) (h' : Kept user t s') : Kept user s s' :=
  ⟨h'.scad.trans h.scad, h'.sol.trans h.sol, Nat.le_trans h.product h'.product⟩

/-- The trader does not gain. -/
def NoGain (user : Pubkey) (s s' : SwapState) : Prop :=
  (s.scad.get (.user user) ≤ s'.scad.get (.user user) →
    s'.lamports.get (.user user) ≤ s.lamports.get (.user user)) ∧
  (s.lamports.get (.user user) ≤ s'.lamports.get (.user user) →
    s'.scad.get (.user user) ≤ s.scad.get (.user user))

/-- Of two factors of a product that does not fall, one does not either. -/
theorem le_of_product_le {x y x' y' : Nat} (hx : 0 < x) (h : x * y ≤ x' * y') (hle : x' ≤ x) :
    y ≤ y' := by
  refine Nat.le_of_mul_le_mul_left ?_ hx
  exact Nat.le_trans h (Nat.mul_le_mul_right y' hle)

theorem Kept.noGain (h : Kept user s s') (hscad : 0 < s.scadRes) (hsol : 0 < s.solRes) :
    NoGain user s s' := by
  have hs := h.scad
  have hl := h.sol
  refine ⟨fun hle => ?_, fun hle => ?_⟩
  · have hres : s.solRes ≤ s'.solRes := le_of_product_le hscad h.product (by omega)
    omega
  · have hproduct : s.solRes * s.scadRes ≤ s'.solRes * s'.scadRes := by
      rw [Nat.mul_comm, Nat.mul_comm s'.solRes]
      exact h.product
    have hres : s.scadRes ≤ s'.scadRes := le_of_product_le hsol hproduct (by omega)
    omega

/-! ## One move -/

theorem Traded.kept {sol_to_scad : Bool} {amount_in amount_out : Nat}
    (h : Traded s s' user sol_to_scad amount_in amount_out) (hout : amount_out ≤
      if sol_to_scad then s.scadRes else s.solRes) : Kept user s s' := by
  have hpaid := h.paid_le
  refine ⟨?_, ?_, h.product_le⟩
  · rw [SwapState.scadRes, h.scad]
    cases sol_to_scad with
    | true => exact Balances.get_move_add' _ (by simp) hout
    | false => exact Balances.get_move_add _ (by simp) hpaid
  · rw [SwapState.solRes, h.lamports]
    cases sol_to_scad with
    | true => exact Balances.get_move_add _ (by simp) hpaid
    | false => exact Balances.get_move_add' _ (by simp) hout

theorem Traded.out_le {sol_to_scad : Bool} {amount_in amount_out : Nat}
    (h : Traded s s' user sol_to_scad amount_in amount_out) :
    amount_out ≤ if sol_to_scad then s.scadRes else s.solRes := by
  obtain ⟨_, -, hout⟩ := h.curve
  rw [hout]
  cases sol_to_scad with
  | true => exact Nat.le_of_lt (trade_lt h.sol_pos h.scad_pos)
  | false => exact Nat.le_of_lt (trade_lt h.scad_pos h.sol_pos)

/-- The reserves and the trader's balances after an add. -/
theorem Added.conserves {a : AddAmounts} (h : Added s s' user a) :
    s'.scad.get (.user user) + s'.scadRes = s.scad.get (.user user) + s.scadRes ∧
    s'.lamports.get (.user user) + s'.solRes = s.lamports.get (.user user) + s.solRes := by
  rw [SwapState.scadRes, SwapState.solRes, h.scad, h.lamports]
  exact ⟨Balances.get_move_add _ (by simp) h.scad_le, Balances.get_move_add _ (by simp) h.sol_le⟩

theorem Removed.conserves {lp_amount scad_out sol_out : Nat}
    (h : Removed s s' user lp_amount scad_out sol_out) :
    s'.scad.get (.user user) + s'.scadRes = s.scad.get (.user user) + s.scadRes ∧
    s'.lamports.get (.user user) + s'.solRes = s.lamports.get (.user user) + s.solRes := by
  rw [SwapState.scadRes, SwapState.solRes, h.scad, h.lamports]
  exact ⟨Balances.get_move_add' _ (by simp) h.scad_le,
    Balances.get_move_add' _ (by simp) h.sol_le⟩

/-- An add to a pool with LP, and the removal: the reserves do not fall. -/
theorem addRemove_kept {a : AddAmounts} {scad_amount sol_amount scad_out sol_out : Nat}
    (hl : 0 < s.lp.supply) (hadd : Added s t user a)
    (ha : addAmounts scad_amount sol_amount s.scadRes s.solRes s.lp.supply = .ok a)
    (hremove : Removed t s' user a.lp_out scad_out sol_out) :
    Kept user s s' ∧ s'.lp.supply = s.lp.supply := by
  obtain ⟨hscad, hsol, hlocked, -, -⟩ := addAmounts_later hl ha
  have hsupply : t.lp.supply = s.lp.supply + a.lp_out := by
    rw [hadd.supply, hlocked]
    rfl
  have hout : scad_out ≤ a.scad_in := by
    rw [hremove.scad_eq, hadd.scadRes, hsupply, hscad]
    exact round_trip_le hl
  have hout' : sol_out ≤ a.sol_in := by
    rw [hremove.sol_eq, hadd.solRes, hsupply, hsol]
    exact round_trip_le hl
  have hres : s.scadRes ≤ s'.scadRes := by
    rw [hremove.scadRes, hadd.scadRes]
    omega
  have hres' : s.solRes ≤ s'.solRes := by
    rw [hremove.solRes, hadd.solRes]
    omega
  obtain ⟨hc, hc'⟩ := hadd.conserves
  obtain ⟨hd, hd'⟩ := hremove.conserves
  refine ⟨⟨hd.trans hc, hd'.trans hc', Nat.mul_le_mul hres hres'⟩, ?_⟩
  rw [hremove.lp, hsupply]
  simp

/-- A swap, or an add to a pool with LP. -/
theorem exec_kept {m : TraderMove} (hi : Inv s) (hm : m.isSwap ∨ 0 < s.lp.supply)
    (h : m.exec s user = .ok s') :
    Inv s' ∧ Kept user s s' ∧ s'.lp.supply = s.lp.supply ∧ 0 < s.scadRes ∧ 0 < s.solRes := by
  cases m with
  | swap =>
    simp only [TraderMove.exec, bind_ok] at h
    obtain ⟨⟨t, event⟩, hswap, ht⟩ := h
    cases ht
    have htraded := swap_ok hswap
    exact ⟨hi.traded htraded, htraded.kept htraded.out_le, by rw [htraded.lp], htraded.scad_pos,
      htraded.sol_pos⟩
  | addRemove =>
    have hl : 0 < s.lp.supply := by simpa [TraderMove.isSwap] using hm
    simp only [TraderMove.exec, bind_ok] at h
    obtain ⟨⟨t, _⟩, hadd, ⟨_, _⟩, hremove, ht⟩ := h
    cases ht
    obtain ⟨a, -, -, hadded, ha, rfl⟩ := add_liquidity_ok hadd
    have hremoved := remove_liquidity_ok hremove
    obtain ⟨hkept, hsupply⟩ := addRemove_kept hl hadded ha hremoved
    exact ⟨(hi.added hadded ha).removed hremoved, hkept, hsupply, hi.backed.left_pos hl,
      hi.backed.right_pos hl⟩

/-- The first add to a pool that holds no SCAD, and the removal: some of
the trader's SCAD stays. -/
theorem exec_first {m : TraderMove} (hi : Inv s) (hl : s.lp.supply = 0) (hempty : s.scadRes = 0)
    (h : m.exec s user = .ok s') :
    Inv s' ∧ 0 < s'.lp.supply ∧ 0 < s'.scadRes ∧
      s'.scad.get (.user user) + s'.scadRes = s.scad.get (.user user) := by
  cases m with
  | swap =>
    simp only [TraderMove.exec, bind_ok] at h
    obtain ⟨⟨t, event⟩, hswap, -⟩ := h
    have hpos := (swap_ok hswap).scad_pos
    omega
  | addRemove scad_amount =>
    simp only [TraderMove.exec, bind_ok] at h
    obtain ⟨⟨t, _⟩, hadd, ⟨t', event'⟩, hremove, ht⟩ := h
    cases ht
    obtain ⟨a, hscad, -, hadded, ha, rfl⟩ := add_liquidity_ok hadd
    have hremoved : Removed t t' user a.lp_out event'.scad event'.sol :=
      remove_liquidity_ok hremove
    have hi' := (hi.added hadded ha).removed hremoved
    rw [hl] at ha
    obtain ⟨hin, -, hlocked, -⟩ := addAmounts_first ha
    have hmin : 0 < a.lp_locked := by
      rw [hlocked]
      decide
    have hsupply : t.lp.supply = a.lp_out + a.lp_locked := by
      rw [hadded.supply, hl]
      omega
    have hpaid : event'.scad < scad_amount.toNat := by
      rw [hremoved.scad_eq, hadded.scadRes, hempty, hin, hsupply, Nat.zero_add,
        Nat.div_lt_iff_lt_mul (by omega), Nat.mul_comm]
      exact Nat.mul_lt_mul_of_pos_left (by omega) hscad
    have hleft : t'.scadRes = scad_amount.toNat - event'.scad := by
      rw [hremoved.scadRes, hadded.scadRes, hempty, hin, Nat.zero_add]
    have hshares : t'.lp.supply = a.lp_locked := by
      rw [hremoved.lp, hsupply]
      simp
    obtain ⟨_, -⟩ := hadded.conserves
    obtain ⟨_, -⟩ := hremoved.conserves
    show Inv t' ∧ 0 < t'.lp.supply ∧ 0 < t'.scadRes ∧
      t'.scad.get (.user user) + t'.scadRes = s.scad.get (.user user)
    exact ⟨hi', by omega, by omega, by omega⟩

/-! ## Any sequence of moves -/

/-- Moves that do not include a first add. -/
theorem trade_kept {moves : List TraderMove} (hi : Inv s)
    (hm : (∀ m ∈ moves, m.isSwap) ∨ 0 < s.lp.supply) (h : trade user s moves = .ok s') :
    Kept user s s' ∧ (moves = [] ∨ (0 < s.scadRes ∧ 0 < s.solRes)) := by
  induction moves generalizing s with
  | nil =>
    cases h
    exact ⟨.refl user _, .inl rfl⟩
  | cons m ms ih =>
    simp only [trade, bind_ok] at h
    obtain ⟨t, hexec, hrest⟩ := h
    have hhead : m.isSwap ∨ 0 < s.lp.supply := hm.imp_left fun hall => hall m List.mem_cons_self
    obtain ⟨hi', hkept, hsupply, hscad, hsol⟩ := exec_kept hi hhead hexec
    have htail : (∀ m ∈ ms, m.isSwap) ∨ 0 < t.lp.supply := by
      rw [hsupply]
      exact hm.imp_left fun hall m hm => hall m (List.mem_cons_of_mem _ hm)
    exact ⟨hkept.trans (ih hi' htail hrest).1, .inr ⟨hscad, hsol⟩⟩

/-- A trader who ends with at least as much of one asset ends with no more
of the other, after any sequence of swaps and of adds removed at once, if
the pool has LP or holds no SCAD when the sequence includes an add. -/
theorem no_free_money {rentFloor : Nat} {scad lamports : Balances Owner} {acts : List Act}
    (hrun : run (step rentFloor) (.initial scad lamports) acts = some s)
    {moves : List TraderMove}
    (hstart : (∀ m ∈ moves, m.isSwap) ∨ 0 < s.lp.supply ∨ s.scadRes = 0)
    (htrade : trade user s moves = .ok s') :
    (s.scad.get (.user user) ≤ s'.scad.get (.user user) →
      s'.lamports.get (.user user) ≤ s.lamports.get (.user user)) ∧
    (s.lamports.get (.user user) ≤ s'.lamports.get (.user user) →
      s'.scad.get (.user user) ≤ s.scad.get (.user user)) := by
  have hi := inv_run hrun
  have hold : ((∀ m ∈ moves, m.isSwap) ∨ 0 < s.lp.supply) ∨
      s.lp.supply = 0 ∧ s.scadRes = 0 := by
    rcases hstart with hswaps | hl | hempty
    · exact .inl (.inl hswaps)
    · exact .inl (.inr hl)
    · rcases Nat.eq_zero_or_pos s.lp.supply with hzero | hl
      · exact .inr ⟨hzero, hempty⟩
      · exact .inl (.inr hl)
  rcases hold with hm | ⟨hl, hempty⟩
  · obtain ⟨hkept, rfl | ⟨hscad, hsol⟩⟩ := trade_kept hi hm htrade
    · cases htrade
      exact ⟨fun _ => Nat.le_refl _, fun _ => Nat.le_refl _⟩
    · exact hkept.noGain hscad hsol
  · cases moves with
    | nil =>
      cases htrade
      exact ⟨fun _ => Nat.le_refl _, fun _ => Nat.le_refl _⟩
    | cons =>
      simp only [trade, bind_ok] at htrade
      obtain ⟨t, hexec, hrest⟩ := htrade
      obtain ⟨hi', hl', hscad, _⟩ := exec_first hi hl hempty hexec
      -- the pool keeps some of the trader's SCAD from here on
      obtain ⟨hkept, -⟩ := trade_kept hi' (.inr hl') hrest
      have hpos : 0 < s'.scadRes * s'.solRes :=
        Nat.lt_of_lt_of_le (Nat.mul_pos hscad (hi'.backed.right_pos hl')) hkept.product
      have hleft : 0 < s'.scadRes := Nat.pos_of_mul_pos_right hpos
      have hsum := hkept.scad
      exact ⟨fun hle => by omega, fun _ => by omega⟩

/-- Somebody sends 5 SCAD and 5 SOL to the pool before its first add; the
first add, of 2000 units each, is removed with half of them. -/
theorem first_add_takes_donations :
    ¬ ∀ (rentFloor : Nat) (scad lamports : Balances Owner) (acts : List Act) (s s' : SwapState)
        (user : Pubkey) (moves : List TraderMove),
      run (step rentFloor) (.initial scad lamports) acts = some s → trade user s moves = .ok s' →
      (s.scad.get (.user user) ≤ s'.scad.get (.user user) →
        s'.lamports.get (.user user) ≤ s.lamports.get (.user user)) ∧
      (s.lamports.get (.user user) ≤ s'.lamports.get (.user user) →
        s'.scad.get (.user user) ≤ s.scad.get (.user user)) := by
  intro hall
  have hsome : (run (step 890880) (.initial wallets wallets) [.initPool 1 30,
      .sendScad 2 .pool 5000000000, .sendSol 2 .pool 5000000000]).any (fun s =>
        (trade 1 s [.addRemove 2000 2000 0 0 0]).toOption.any fun s' =>
          decide (s.scad.get (.user 1) < s'.scad.get (.user 1) ∧
            s.lamports.get (.user 1) < s'.lamports.get (.user 1))) = true := by decide +kernel
  obtain ⟨s, hrun, htrade⟩ := (Option.any_eq_true _ _).mp hsome
  obtain ⟨s', hs', hgain⟩ := (Option.any_eq_true _ _).mp htrade
  have hok : trade 1 s [.addRemove 2000 2000 0 0 0] = .ok s' := toOption_eq_some.mp hs'
  obtain ⟨hscad, _⟩ := of_decide_eq_true hgain
  have hle := (hall _ _ _ _ s s' 1 _ hrun hok).1 (Nat.le_of_lt hscad)
  omega

/-- A swap each way, an add removed at once, and a swap back. -/
theorem no_free_money_sample : ∃ s s',
    run (step 890880) (.initial wallets wallets) [.initPool 1 30,
      .addLiquidity 1 1000000 4000000 0, .sendScad 2 .pool 77777] = some s ∧
    trade 2 s [.swap true 100000 0, .swap false 15000 0, .addRemove 5000 90000 0 0 0,
      .swap false 500 0] = .ok s' ∧
    s.scad.get (.user 2) ≤ s'.scad.get (.user 2) ∧
    s'.lamports.get (.user 2) ≤ s.lamports.get (.user 2) := by
  have hsome : (run (step 890880) (.initial wallets wallets) [.initPool 1 30,
      .addLiquidity 1 1000000 4000000 0, .sendScad 2 .pool 77777]).any (fun s =>
        (trade 2 s [.swap true 100000 0, .swap false 15000 0, .addRemove 5000 90000 0 0 0,
          .swap false 500 0]).toOption.any fun s' =>
          decide (0 < s.lp.supply ∧ s.scad.get (.user 2) ≤ s'.scad.get (.user 2))) = true := by
    decide +kernel
  obtain ⟨s, hrun, htrade⟩ := (Option.any_eq_true _ _).mp hsome
  obtain ⟨s', hs', hpool⟩ := (Option.any_eq_true _ _).mp htrade
  obtain ⟨hl, hscad⟩ := of_decide_eq_true hpool
  have hok : trade 2 s [.swap true 100000 0, .swap false 15000 0, .addRemove 5000 90000 0 0 0,
      .swap false 500 0] = .ok s' := toOption_eq_some.mp hs'
  exact ⟨s, s', hrun, hok, hscad, (no_free_money hrun (.inr (.inl hl)) hok).1 hscad⟩

end Scadium.Programs.Swap
