/-
Scadium.Programs.Rng — `scadium_rng`, one round of entropy for a bet
(`programs/scadium_rng/src/lib.rs`).

Only the cosigner opens and settles rounds, and it is the signer here. The
address of a round is seeded by its game type and its id, so the round of an
instruction has the two it names.
`SlotHashes` is the list of the newest slots with their hashes.
-/
import Scadium.Fair.Derive
import Scadium.Lib.Table
import Scadium.Programs.Solana

namespace Scadium.Programs.Rng

open Scadium.Lib Scadium.Fair
open Scadium.Prisma (Bytes32)

inductive RngError where
  | roundClosed | seedMismatch | targetSlotNotFuture | targetSlotNotAvailable
  deriving DecidableEq

inductive RoundStatus where
  | Open | Settled
  deriving DecidableEq

/-- What seeds the address of a round: its game type and its id. -/
structure RoundKey where
  game_type : Nat
  round_id : Nat
  deriving DecidableEq

/-- What `open_round` is given. -/
structure OpenRound where
  server_seed_hash : Bytes32
  client_seed : List UInt8
  game_params_hash : Bytes32
  nonce : Nat
  target_slot : Nat
  deriving DecidableEq

/-- The account; `init` leaves what a settle fills in at zero. -/
structure Round where
  opened : OpenRound
  revealed_seed : List UInt8
  slot : Nat
  slot_hash : Bytes32
  final_entropy : Bytes32
  status : RoundStatus
  deriving DecidableEq

def Round.init (args : OpenRound) : Round := ⟨args, [], 0, 0, 0, .Open⟩

/-- The accounts and the sysvars the instructions read. -/
structure Cluster where
  /-- `Clock::get()?.slot` -/
  slot : Nat
  slot_hashes : List (Nat × Bytes32)
  rounds : Table RoundKey Round

abbrev Result (α : Type) := Outcome RngError α

/-- `init` fails on an address in use. -/
def open_round (c : Cluster) (key : RoundKey) (args : OpenRound) : Result Cluster := do
  if (c.rounds.get key).isSome then .error .constraint
  require (c.slot < args.target_slot) .targetSlotNotFuture
  pure { c with rounds := c.rounds.set key (Round.init args) }

def find_slot_hash (slot_hashes : List (Nat × Bytes32)) (target_slot : Nat) : Option Bytes32 :=
  (slot_hashes.find? fun p => p.1 == target_slot).map Prod.snd

def derive_entropy (sha : Sha) (server_seed : List UInt8) (slot_hash : Bytes32)
    (client_seed : List UInt8) (nonce : Nat) (game_params_hash : Bytes32) : Bytes32 :=
  sha.sha256 (server_seed ++ bytes32 slot_hash ++ client_seed ++ u32le nonce ++
    bytes32 game_params_hash)

/-- The account constraints that ask for the round. -/
def Cluster.getRound (c : Cluster) (key : RoundKey) : Result Round :=
  match c.rounds.get key with
  | some round => .ok round
  | none => .error .constraint

/-- What a settle writes, with the hash of the pinned slot. -/
def Round.settle (sha : Sha) (round : Round) (server_seed : List UInt8) (slot_hash : Bytes32) :
    Round where
  opened := round.opened
  revealed_seed := server_seed
  slot := round.opened.target_slot
  slot_hash := slot_hash
  final_entropy := derive_entropy sha server_seed slot_hash round.opened.client_seed
    round.opened.nonce round.opened.game_params_hash
  status := .Settled

def settle_round (sha : Sha) (c : Cluster) (key : RoundKey) (server_seed : List UInt8) :
    Result Cluster := do
  let round ← c.getRound key
  require (round.status = .Open) .roundClosed
  require (sha.sha256 server_seed = round.opened.server_seed_hash) .seedMismatch
  let slot_hash ← okOr (find_slot_hash c.slot_hashes round.opened.target_slot)
    .targetSlotNotAvailable
  pure { c with rounds := c.rounds.set key (round.settle sha server_seed slot_hash) }

/-! ## What an instruction does -/

variable {sha : Sha} {c c' : Cluster} {key : RoundKey}

theorem open_round_ok {args : OpenRound} (h : open_round c key args = .ok c') :
    c.rounds.get key = none ∧ c' = { c with rounds := c.rounds.set key (Round.init args) } := by
  unfold open_round at h
  split at h
  · cases h
  · rename_i hfree
    obtain ⟨-, -, h⟩ := bind_ok.mp h
    cases h
    exact ⟨by simpa using hfree, rfl⟩

theorem settle_round_ok {server_seed : List UInt8}
    (h : settle_round sha c key server_seed = .ok c') :
    ∃ round slot_hash, c.rounds.get key = some round ∧ round.status = .Open ∧
      c' = { c with rounds := c.rounds.set key (round.settle sha server_seed slot_hash) } := by
  obtain ⟨round, hround, h⟩ := bind_ok.mp h
  obtain ⟨u, hopen, h⟩ := bind_ok.mp h
  obtain ⟨-, -, h⟩ := bind_ok.mp h
  obtain ⟨slot_hash, -, h⟩ := bind_ok.mp h
  cases h
  refine ⟨round, slot_hash, ?_, require_ok.mp hopen, rfl⟩
  unfold Cluster.getRound at hround
  split at hround
  · rename_i hget
    cases hround
    exact hget
  · cases hround

end Scadium.Programs.Rng
