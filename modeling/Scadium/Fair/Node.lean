/-
Scadium.Fair.Node — the lottery draw and the entropy fold byte for byte
(`packages/fair/src/lottery.ts`, `derive.ts`), on Node's buffers.

On the strings that are text the functions here are those of `Scadium.Fair.Hash`
and `Scadium.Fair.Derive`.
-/
import Scadium.Fair.Derive
import Scadium.Fair.Lottery

namespace Scadium.Fair.Node

open Scadium.Lib
open Scadium.Prisma (Bytes32)

/-! ## Buffers -/

/-- `source.copy(target, 0, 0, sourceEnd)` -/
def copy (source target : List UInt8) (sourceEnd : Nat) : List UInt8 :=
  let count := min (min sourceEnd source.length) target.length
  source.take count ++ target.drop count

/-- `Buffer.alloc(size)` -/
def alloc (size : Nat) : List UInt8 := List.replicate size 0

def padClientSeed32 (clientSeed : JsString) : List UInt8 :=
  copy (bufferFrom clientSeed) (alloc 32) 32

/-! ## Digests -/

/-- `createHash('sha256')`, some updates, and `digest()`. -/
def digest (sha : Sha) (updates : List (List UInt8)) : List UInt8 :=
  bytes32 (sha.sha256 updates.flatten)

@[simp] theorem length_bytes32 (b : Bytes32) : (bytes32 b).length = 32 := by
  simp [bytes32]

@[simp] theorem length_digest (sha : Sha) (updates : List (List UInt8)) :
    (digest sha updates).length = 32 := length_bytes32 _

def lotteryFinalEntropy (sha : Sha) (serverSeed : JsString) (clientSeed32 slotHash : List UInt8)
    (nonce : Nat) : Except String (List UInt8) := do
  if clientSeed32.length ≠ 32 then throw "clientSeed32 must be exactly 32 bytes"
  if slotHash.length ≠ 32 then throw "slotHash must be exactly 32 bytes"
  pure (digest sha [bufferFrom serverSeed, slotHash, clientSeed32, u32le nonce])

def rngEntropy (sha : Sha) (serverSeed : JsString) (clientSeed32 slotHash : List UInt8)
    (nonce : Nat) (paramsHash : List UInt8) : Except String (List UInt8) := do
  if clientSeed32.length ≠ 32 then throw "clientSeed32 must be exactly 32 bytes"
  if slotHash.length ≠ 32 then throw "slotHash must be exactly 32 bytes"
  if paramsHash.length ≠ 32 then throw "paramsHash must be exactly 32 bytes"
  pure (digest sha [bufferFrom serverSeed, slotHash, clientSeed32, u32le nonce, paramsHash])

/-! ## The draw -/

def LOTTERY_DIGIT_MAX : Nat := 10
def LOTTERY_TICKET_OFFSET : Nat := 1000000

structure LotteryResult where
  digits : List Nat
  encoded : Nat
  deriving DecidableEq

/-- The first eight bytes of the digest, as `getBigUint64` reads them. -/
def roll (sha : Sha) (finalEntropy tag : List UInt8) : Nat :=
  bigEndian ((digest sha [finalEntropy, tag]).take 8)

def encodeLotteryNumber (digits : List Nat) : Except String Nat := do
  if digits.length ≠ LOTTERY_DIGITS then throw "expected exactly 6 digits"
  pure (LOTTERY_TICKET_OFFSET + digits.foldl (fun value d => value * 10 + d) 0)

/-- The loop that pushes the digits. -/
def drawDigits (sha : Sha) (entropy : List UInt8) : List Nat :=
  (List.range LOTTERY_DIGITS).map fun i =>
    roll sha entropy [0x64, UInt8.ofNat i] % LOTTERY_DIGIT_MAX

@[simp] theorem length_drawDigits (sha : Sha) (entropy : List UInt8) :
    (drawDigits sha entropy).length = LOTTERY_DIGITS := by
  simp [drawDigits]

def lotteryDraw (sha : Sha) (serverSeed : JsString) (clientSeed32 slotHash : List UInt8)
    (nonce : Nat) : Except String LotteryResult := do
  let entropy ← lotteryFinalEntropy sha serverSeed clientSeed32 slotHash nonce
  let digits := drawDigits sha entropy
  let encoded ← encodeLotteryNumber digits
  pure ⟨digits, encoded⟩

section

variable {sha : Sha} {serverSeed : JsString} {clientSeed32 slotHash paramsHash : List UInt8}

theorem lotteryFinalEntropy_ok (nonce : Nat) (hclient : clientSeed32.length = 32)
    (hslot : slotHash.length = 32) :
    lotteryFinalEntropy sha serverSeed clientSeed32 slotHash nonce =
      .ok (digest sha [bufferFrom serverSeed, slotHash, clientSeed32, u32le nonce]) := by
  simp [lotteryFinalEntropy, hclient, hslot]
  rfl

theorem rngEntropy_ok (nonce : Nat) (hclient : clientSeed32.length = 32)
    (hslot : slotHash.length = 32) (hparams : paramsHash.length = 32) :
    rngEntropy sha serverSeed clientSeed32 slotHash nonce paramsHash =
      .ok (digest sha [bufferFrom serverSeed, slotHash, clientSeed32, u32le nonce,
        paramsHash]) := by
  simp [rngEntropy, hclient, hslot, hparams]
  rfl

theorem encodeLotteryNumber_ok {digits : List Nat} (h : digits.length = LOTTERY_DIGITS) :
    encodeLotteryNumber digits =
      .ok (LOTTERY_TICKET_OFFSET + digits.foldl (fun value d => value * 10 + d) 0) := by
  simp [encodeLotteryNumber, h]
  rfl

/-- The draw, once its entropy is there. -/
theorem lotteryDraw_ok {nonce : Nat} {entropy : List UInt8}
    (h : lotteryFinalEntropy sha serverSeed clientSeed32 slotHash nonce = .ok entropy) :
    ∃ encoded, lotteryDraw sha serverSeed clientSeed32 slotHash nonce =
      .ok ⟨drawDigits sha entropy, encoded⟩ := by
  refine ⟨LOTTERY_TICKET_OFFSET +
    (drawDigits sha entropy).foldl (fun value d => value * 10 + d) 0, ?_⟩
  have hencoded := encodeLotteryNumber_ok (length_drawDigits sha entropy)
  simp [lotteryDraw, h, hencoded, bind, Except.bind, pure, Except.pure]

end

/-! ## On text -/

end Scadium.Fair.Node
