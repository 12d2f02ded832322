/-
Scadium.Solana.Accounts — the accounts the API reads back from the programs
(`solana/chain.service.ts`): a draw of `scadium_lottery`, a round of `scadium_rng`
and a pool of `scadium_vault`.

A program writes an account field by field, each at its own width, behind a
discriminator of 8 bytes; the API takes what it needs from fixed offsets. The offset
of a field is the width of what stands before it, so what is read is the field,
whatever the others hold.
-/
import Scadium.Lib.Bytes

namespace Scadium.Solana.Accounts

open Scadium.Lib

/-! ## What the programs write -/

abbrev Pubkey := Vector UInt8 32

def u32 (x : UInt32) : List UInt8 := leBytes 4 x.toNat

def u64 (x : UInt64) : List UInt8 := leBytes 8 x.toNat

def i64 (x : Int64) : List UInt8 := leBytes 8 x.toUInt64.toNat

def u128 (x : BitVec 128) : List UInt8 := leBytes 16 x.toNat

inductive DrawStatus where
  | Open | Revealed
  deriving DecidableEq

def DrawStatus.byte : DrawStatus → UInt8
  | .Open => 0
  | .Revealed => 1

structure Draw where
  index : UInt64
  server_seed_hash : Vector UInt8 32
  client_seed : Vector UInt8 32
  revealed_seed : Vector UInt8 64
  slot : UInt64
  slot_hash : Vector UInt8 32
  final_entropy : Vector UInt8 32
  winning_digits : Vector UInt8 6
  draw_at : Int64
  status : DrawStatus
  ticket_count : UInt32
  target_slot : UInt64
  bump : UInt8

namespace Draw

def fields (d : Draw) : List (List UInt8) :=
  [u64 d.index, d.server_seed_hash.toList, d.client_seed.toList, d.revealed_seed.toList,
    u64 d.slot, d.slot_hash.toList, d.final_entropy.toList, d.winning_digits.toList,
    i64 d.draw_at, [d.status.byte], u32 d.ticket_count, u64 d.target_slot, [d.bump]]

end Draw

inductive RoundStatus where
  | Open | Settled
  deriving DecidableEq

def RoundStatus.byte : RoundStatus → UInt8
  | .Open => 0
  | .Settled => 1

structure Round where
  game_type : UInt8
  round_id : UInt64
  server_seed_hash : Vector UInt8 32
  client_seed : Vector UInt8 32
  game_params_hash : Vector UInt8 32
  nonce : UInt32
  target_slot : UInt64
  revealed_seed : Vector UInt8 64
  slot : UInt64
  slot_hash : Vector UInt8 32
  final_entropy : Vector UInt8 32
  status : RoundStatus
  bump : UInt8

namespace Round

def fields (r : Round) : List (List UInt8) :=
  [[r.game_type], u64 r.round_id, r.server_seed_hash.toList, r.client_seed.toList,
    r.game_params_hash.toList, u32 r.nonce, u64 r.target_slot, r.revealed_seed.toList,
    u64 r.slot, r.slot_hash.toList, r.final_entropy.toList, [r.status.byte], [r.bump]]

end Round

structure VaultPool where
  scad_mint : Pubkey
  term_days : UInt32
  weight_bps : UInt16
  total_assets : UInt64
  total_shares : BitVec 128
  index_ray : BitVec 128
  bump : UInt8

namespace VaultPool

def fields (p : VaultPool) : List (List UInt8) :=
  [p.scad_mint.toList, u32 p.term_days, leBytes 2 p.weight_bps.toNat, u64 p.total_assets,
    u128 p.total_shares, u128 p.index_ray, [p.bump]]

end VaultPool

/-- The data of an account. -/
def account (discriminator : Vector UInt8 8) (fields : List (List UInt8)) : List UInt8 :=
  (discriminator.toList :: fields).flatten

/-! ## What the API reads -/

/-- The two digits of a byte in `toString('hex')`. -/
def hexByte (b : UInt8) : List Char := [Nat.digitChar (b.toNat / 16), Nat.digitChar (b.toNat % 16)]

def hex (bytes : List UInt8) : String := String.ofList (bytes.flatMap hexByte)

/-- `buf.readBigUInt64LE(off)`, which throws beyond the end. -/
def readBigUInt64LE (buf : List UInt8) (off : Nat) : Option Nat :=
  if off + 8 ≤ buf.length then some (littleEndian (subarray buf off (off + 8))) else none

structure RevealedDraw where
  digits : List Nat
  slotHashHex : String
  finalEntropyHex : String
  deriving DecidableEq

/-- `lotteryRevealDraw`, once it has the account. -/
def lotteryRevealDraw (buf : List UInt8) : RevealedDraw where
  digits := (subarray buf 216 222).map UInt8.toNat
  slotHashHex := hex (subarray buf 152 184)
  finalEntropyHex := hex (subarray buf 184 216)

structure SettledRound where
  slotHashHex : String
  entropyHex : String
  deriving DecidableEq

/-- `rngSettleRound`, once it has the account. -/
def rngSettleRound (buf : List UInt8) : SettledRound where
  slotHashHex := hex (subarray buf 197 229)
  entropyHex := hex (subarray buf 229 261)

structure PoolTotals where
  totalAssets : Nat
  totalShares : Nat
  indexRay : Nat
  deriving DecidableEq

/-- `b.readBigUInt64LE(off) + (b.readBigUInt64LE(off + 8) << 64n)` -/
def readU128 (buf : List UInt8) (off : Nat) : Option Nat := do
  let low ← readBigUInt64LE buf off
  let high ← readBigUInt64LE buf (off + 8)
  some (low + high <<< 64)

/-- `readVaultPoolOnChain`, once it has the account. -/
def readVaultPoolOnChain (buf : List UInt8) : Option PoolTotals := do
  let totalAssets ← readBigUInt64LE buf 46
  let totalShares ← readU128 buf 54
  let indexRay ← readU128 buf 70
  some ⟨totalAssets, totalShares, indexRay⟩

/-! ## Widths -/

@[simp] theorem length_u32 (x : UInt32) : (u32 x).length = 4 := length_leBytes 4 x.toNat

@[simp] theorem length_u64 (x : UInt64) : (u64 x).length = 8 := length_leBytes 8 x.toNat

@[simp] theorem length_u128 (x : BitVec 128) : (u128 x).length = 16 := length_leBytes 16 x.toNat

/-! ## Numbers -/

/-- Eight bytes in the middle of a buffer. -/
theorem readBigUInt64LE_of_subarray {buf field : List UInt8} {off : Nat}
    (hfield : subarray buf off (off + 8) = field) (hlength : field.length = 8) :
    readBigUInt64LE buf off = some (littleEndian field) := by
  have hle : off + 8 ≤ buf.length := by
    rw [← hfield] at hlength
    simp only [subarray, List.length_drop, List.length_take] at hlength
    omega
  rw [readBigUInt64LE, if_pos hle, hfield]

/-- Sixteen bytes are read as two halves. -/
theorem readU128_of_subarray {buf : List UInt8} {off : Nat} {x : BitVec 128}
    (hfield : subarray buf off (off + 16) = u128 x) : readU128 buf off = some x.toNat := by
  have hlow : subarray buf off (off + 8) = (u128 x).take 8 := by
    rw [← hfield, subarray, subarray, List.take_drop, List.take_take]
    congr 2
    omega
  have hhigh : subarray buf (off + 8) (off + 8 + 8) = (u128 x).drop 8 := by
    rw [← hfield, subarray, subarray, List.drop_drop]
  have hlen : ((u128 x).take 8).length = 8 := by simp
  rw [readU128, readBigUInt64LE_of_subarray hlow hlen,
    readBigUInt64LE_of_subarray hhigh (by simp)]
  have hx : littleEndian (u128 x) = x.toNat := littleEndian_leBytes (by
    calc x.toNat < 2 ^ 128 := x.isLt
      _ = 256 ^ 16 := by norm_num)
  have hsplit := littleEndian_append ((u128 x).take 8) ((u128 x).drop 8)
  rw [List.take_append_drop, hx, hlen] at hsplit
  have hshift : (256 : Nat) ^ 8 = 2 ^ 64 := by norm_num
  show some (_ + _ <<< 64) = _
  rw [Nat.shiftLeft_eq, Nat.mul_comm, hsplit, hshift]

theorem readBigUInt64LE_u64 {buf : List UInt8} {off : Nat} {x : UInt64}
    (hfield : subarray buf off (off + 8) = u64 x) : readBigUInt64LE buf off = some x.toNat := by
  rw [readBigUInt64LE_of_subarray hfield (length_u64 x)]
  congr 1
  exact littleEndian_leBytes (by
    calc x.toNat < 2 ^ 64 := x.toNat_lt
      _ = 256 ^ 8 := by norm_num)

/-! ## Hex -/

theorem digitChar_inj : ∀ i < 16, ∀ j < 16, Nat.digitChar i = Nat.digitChar j → i = j := by
  decide

theorem hexByte_inj {a b : UInt8} (h : hexByte a = hexByte b) : a = b := by
  have ha : a.toNat < 256 := a.toNat_lt
  have hb : b.toNat < 256 := b.toNat_lt
  simp only [hexByte, List.cons.injEq, and_true] at h
  have hhigh := digitChar_inj _ (by omega) _ (by omega) h.1
  have hlow := digitChar_inj _ (by omega) _ (by omega) h.2
  exact UInt8.toNat_inj.mp (by omega)

/-- The text says which bytes they are. -/
theorem hex_injective : Function.Injective hex := by
  intro xs ys h
  have hchars : xs.flatMap hexByte = ys.flatMap hexByte := String.ofList_injective h
  induction xs generalizing ys with
  | nil =>
    cases ys with
    | nil => rfl
    | cons => simp [hexByte] at hchars
  | cons a xs ih =>
    cases ys with
    | nil => simp [hexByte] at hchars
    | cons =>
      simp only [List.flatMap_cons] at hchars
      obtain ⟨hbyte, hrest⟩ := List.append_inj hchars rfl
      rw [hexByte_inj hbyte, ih (congrArg String.ofList hrest) hrest]

/-! ## What is read is what was written -/

section

variable (discriminator : Vector UInt8 8)

theorem lotteryRevealDraw_account (d : Draw) :
    lotteryRevealDraw (account discriminator d.fields) =
      ⟨d.winning_digits.toList.map UInt8.toNat, hex d.slot_hash.toList,
        hex d.final_entropy.toList⟩ := by
  have hslot : subarray (account discriminator d.fields) 152 184 = d.slot_hash.toList :=
    subarray_flatten [discriminator.toList, u64 d.index, d.server_seed_hash.toList,
      d.client_seed.toList, d.revealed_seed.toList, u64 d.slot] _ _ (by simp) (by simp)
  have hfinal : subarray (account discriminator d.fields) 184 216 = d.final_entropy.toList :=
    subarray_flatten [discriminator.toList, u64 d.index, d.server_seed_hash.toList,
      d.client_seed.toList, d.revealed_seed.toList, u64 d.slot, d.slot_hash.toList] _ _
      (by simp) (by simp)
  have hdigits : subarray (account discriminator d.fields) 216 222 = d.winning_digits.toList :=
    subarray_flatten [discriminator.toList, u64 d.index, d.server_seed_hash.toList,
      d.client_seed.toList, d.revealed_seed.toList, u64 d.slot, d.slot_hash.toList,
      d.final_entropy.toList] _ _ (by simp) (by simp)
  rw [lotteryRevealDraw, hslot, hfinal, hdigits]

theorem rngSettleRound_account (r : Round) :
    rngSettleRound (account discriminator r.fields) =
      ⟨hex r.slot_hash.toList, hex r.final_entropy.toList⟩ := by
  have hslot : subarray (account discriminator r.fields) 197 229 = r.slot_hash.toList :=
    subarray_flatten [discriminator.toList, [r.game_type], u64 r.round_id,
      r.server_seed_hash.toList, r.client_seed.toList, r.game_params_hash.toList, u32 r.nonce,
      u64 r.target_slot, r.revealed_seed.toList, u64 r.slot] _ _ (by simp) (by simp)
  have hfinal : subarray (account discriminator r.fields) 229 261 = r.final_entropy.toList :=
    subarray_flatten [discriminator.toList, [r.game_type], u64 r.round_id,
      r.server_seed_hash.toList, r.client_seed.toList, r.game_params_hash.toList, u32 r.nonce,
      u64 r.target_slot, r.revealed_seed.toList, u64 r.slot, r.slot_hash.toList] _ _
      (by simp) (by simp)
  rw [rngSettleRound, hslot, hfinal]

theorem readVaultPoolOnChain_account (p : VaultPool) :
    readVaultPoolOnChain (account discriminator p.fields) =
      some ⟨p.total_assets.toNat, p.total_shares.toNat, p.index_ray.toNat⟩ := by
  have hassets : subarray (account discriminator p.fields) 46 54 = u64 p.total_assets :=
    subarray_flatten [discriminator.toList, p.scad_mint.toList, u32 p.term_days,
      leBytes 2 p.weight_bps.toNat] _ _ (by simp) (by simp)
  have hshares : subarray (account discriminator p.fields) 54 70 = u128 p.total_shares :=
    subarray_flatten [discriminator.toList, p.scad_mint.toList, u32 p.term_days,
      leBytes 2 p.weight_bps.toNat, u64 p.total_assets] _ _ (by simp) (by simp)
  have hindex : subarray (account discriminator p.fields) 70 86 = u128 p.index_ray :=
    subarray_flatten [discriminator.toList, p.scad_mint.toList, u32 p.term_days,
      leBytes 2 p.weight_bps.toNat, u64 p.total_assets, u128 p.total_shares] _ _
      (by simp) (by simp)
  rw [readVaultPoolOnChain, readBigUInt64LE_u64 hassets, readU128_of_subarray hshares,
    readU128_of_subarray hindex]
  rfl

end

/-- For every value of the three accounts, behind any discriminator, the API reads the
fields it is after; as hex where it keeps them as text. -/
theorem accounts_read_back (discriminator : Vector UInt8 8) :
    (∀ d : Draw, lotteryRevealDraw (account discriminator d.fields) =
      ⟨d.winning_digits.toList.map UInt8.toNat, hex d.slot_hash.toList,
        hex d.final_entropy.toList⟩) ∧
    (∀ r : Round, rngSettleRound (account discriminator r.fields) =
      ⟨hex r.slot_hash.toList, hex r.final_entropy.toList⟩) ∧
    (∀ p : VaultPool, readVaultPoolOnChain (account discriminator p.fields) =
      some ⟨p.total_assets.toNat, p.total_shares.toNat, p.index_ray.toNat⟩) ∧
    Function.Injective hex :=
  ⟨lotteryRevealDraw_account discriminator, rngSettleRound_account discriminator,
    readVaultPoolOnChain_account discriminator, hex_injective⟩

end Scadium.Solana.Accounts
