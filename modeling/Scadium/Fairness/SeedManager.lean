/-
Scadium.Fairness.SeedManager — `SeedManagerService`: the rotating seed pair
of each user (`apps/api/src/fairness/seed-manager.service.ts`).

The `ClientSeed` table has one row per user (`userId @unique`), created on
first use. A row carries its two commitments with the proof that they
commit to the two stored seeds, so a row whose published hash belongs to
another seed cannot be built.

Every operation first makes sure the row exists; that insert is its own
statement, so it stays even when the operation then throws. The rest of an
operation is one statement or one transaction on the row.
-/
import Scadium.Fair.Seeds
import Scadium.Prisma.Schema

namespace Scadium.Fairness

open Scadium.Fair
open Scadium.Prisma (UserId)

variable {Seed Digest : Type}

/-- A row of `ClientSeed`. -/
structure ClientSeedRow (src : SeedSource Seed Digest) where
  clientSeed : JsString
  nonce : Nat
  serverSeed : Seed
  serverSeedHash : Digest
  nextServerSeed : Seed
  nextServerSeedHash : Digest
  hash_eq : serverSeedHash = src.commitServerSeed serverSeed
  nextHash_eq : nextServerSeedHash = src.commitServerSeed nextServerSeed

/-- The table and the state of the generators. -/
structure SeedStore (src : SeedSource Seed Digest) where
  rows : UserId → Option (ClientSeedRow src)
  draws : Draws

/-- Public view of a user's active seed pair — never the server seeds. -/
structure ActivePairView (Digest : Type) where
  serverSeedHash : Digest
  nextServerSeedHash : Digest
  clientSeed : JsString
  nonce : Nat

/-- The derivation context of one bet (server-side only). -/
structure SeedContext (Seed Digest : Type) where
  serverSeed : Seed
  serverSeedHash : Digest
  clientSeed : JsString
  nonce : Nat

/-- What `rotateServerSeed` returns. -/
structure Rotation (Seed Digest : Type) where
  revealedServerSeed : Seed
  serverSeedHash : Digest
  nextServerSeedHash : Digest

inductive SeedError where
  | badRequest (message : String)
  | conflict (message : String)
  deriving DecidableEq

variable {src : SeedSource Seed Digest}

namespace ClientSeedRow

def view (row : ClientSeedRow src) : ActivePairView Digest :=
  ⟨row.serverSeedHash, row.nextServerSeedHash, row.clientSeed, row.nonce⟩

def context (row : ClientSeedRow src) : SeedContext Seed Digest :=
  ⟨row.serverSeed, row.serverSeedHash, row.clientSeed, row.nonce⟩

/-- A new row: `generateClientSeed()` and `mintPair()`. -/
def mint (src : SeedSource Seed Digest) (d : Draws) : ClientSeedRow src where
  clientSeed := src.generateClientSeed d.client
  nonce := 0
  serverSeed := src.generateServerSeed d.server
  serverSeedHash := src.commitServerSeed (src.generateServerSeed d.server)
  nextServerSeed := src.generateServerSeed (d.server + 1)
  nextServerSeedHash := src.commitServerSeed (src.generateServerSeed (d.server + 1))
  hash_eq := rfl
  nextHash_eq := rfl

/-- `data: { nonce: { increment: 1 } }`. -/
def bumpNonce (row : ClientSeedRow src) : ClientSeedRow src :=
  { row with nonce := row.nonce + 1 }

/-- `data: { clientSeed: trimmed, nonce: 0 }`. -/
def withClientSeed (row : ClientSeedRow src) (trimmed : JsString) : ClientSeedRow src :=
  { row with clientSeed := trimmed, nonce := 0 }

/-- Promote the pre-committed next seed and mint a fresh commitment. -/
def rotate (row : ClientSeedRow src) (d : Draws) : ClientSeedRow src where
  clientSeed := row.clientSeed
  nonce := 0
  serverSeed := row.nextServerSeed
  serverSeedHash := row.nextServerSeedHash
  nextServerSeed := src.generateServerSeed d.server
  nextServerSeedHash := src.commitServerSeed (src.generateServerSeed d.server)
  hash_eq := row.nextHash_eq
  nextHash_eq := rfl

end ClientSeedRow

namespace SeedStore

def empty (src : SeedSource Seed Digest) : SeedStore src := ⟨fun _ => none, ⟨0, 0⟩⟩

def setRow (s : SeedStore src) (u : UserId) (row : ClientSeedRow src) : SeedStore src :=
  { s with rows := Function.update s.rows u (some row) }

/-- The user's row, created on first use, and the store that holds it. -/
def ensureRow (s : SeedStore src) (u : UserId) : ClientSeedRow src × SeedStore src :=
  match s.rows u with
  | some row => (row, s)
  | none =>
      let row := ClientSeedRow.mint src s.draws
      (row, { s.setRow u row with draws := ⟨s.draws.server + 2, s.draws.client + 1⟩ })

def getOrCreateActivePair (s : SeedStore src) (u : UserId) :
    ActivePairView Digest × SeedStore src :=
  let (row, s) := s.ensureRow u
  (row.view, s)

/-- Advance the nonce inside a bet's transaction and return the context. -/
def consumeNonce (s : SeedStore src) (u : UserId) : SeedContext Seed Digest × SeedStore src :=
  let (row, s) := s.ensureRow u
  (row.bumpNonce.context, s.setRow u row.bumpNonce)

/-- The same increment as a statement of its own, before the bet's
transaction (the on-chain mode). -/
def reserveSeedContext (s : SeedStore src) (u : UserId) :
    SeedContext Seed Digest × SeedStore src :=
  let (row, s) := s.ensureRow u
  (row.bumpNonce.context, s.setRow u row.bumpNonce)

/-- The client seed `setClientSeed` stores, when it accepts the text. -/
def acceptedClientSeed (clientSeed : JsString) : Option JsString :=
  let trimmed := JsString.trim clientSeed
  if JsString.length16 trimmed < 1 ∨ 64 < JsString.length16 trimmed then none else some trimmed

/-- Set the player's client seed (1–64 chars). Resets the nonce. -/
def setClientSeed (s : SeedStore src) (u : UserId) (clientSeed : JsString) :
    Except SeedError (ActivePairView Digest) × SeedStore src :=
  match acceptedClientSeed clientSeed with
  | none => (.error (.badRequest "clientSeed must be 1–64 characters"), s)
  | some trimmed =>
      let (row, s) := s.ensureRow u
      (.ok (row.withClientSeed trimmed).view, s.setRow u (row.withClientSeed trimmed))

/-- Reveal the active seed and promote the next one; refused while a
stateful round of the user is active. -/
def rotateServerSeed (s : SeedStore src) (u : UserId) (activeRound : Bool) :
    Except SeedError (Rotation Seed Digest) × SeedStore src :=
  let (row, s) := s.ensureRow u
  if activeRound then
    (.error (.conflict "Finish your in-progress round before rotating the server seed"), s)
  else
    let updated := row.rotate s.draws
    (.ok ⟨row.serverSeed, updated.serverSeedHash, updated.nextServerSeedHash⟩,
      { s.setRow u updated with draws := ⟨s.draws.server + 1, s.draws.client⟩ })

end SeedStore

end Scadium.Fairness
