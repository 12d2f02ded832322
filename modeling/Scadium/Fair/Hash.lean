/-
Scadium.Fair.Hash — the digests every outcome is derived from
(`packages/fair/src/hash.ts`, and the entropy fold of `lottery.ts`), and the
stream of uniform floats of the multi-step games (`packages/fair/src/floats.ts`).

SHA-256 and its HMAC come from Node's `crypto`; they are the fields of
`Sha`. What is hashed is modelled byte for byte.

A digest is 32 bytes, and four bytes are a float: a block yields eight. The
floats are multiples of 1/256⁴ below one, so they are exact as doubles and
rational numbers here.
-/
import Mathlib.Data.Rat.Floor
import Mathlib.Order.Interval.Set.Defs
import Mathlib.Tactic.Linarith
import Mathlib.Tactic.NormNum
import Scadium.Prisma.Schema

namespace Scadium.Fair

open Scadium.Prisma (Bytes32)

/-- The two digests of Node's `crypto`. -/
structure Sha where
  sha256 : List UInt8 → Bytes32
  hmacSha256 : (key message : List UInt8) → Bytes32

/-- The UTF-8 bytes of a string. -/
def utf8 (s : String) : List UInt8 := s.toUTF8.toList

/-- The bytes of a 32-byte value, most significant first. -/
def bytes32 (b : Bytes32) : List UInt8 :=
  (List.range 32).map fun i => UInt8.ofNat (b.toNat / 256 ^ (31 - i))

def buildMessage (clientSeed : String) (nonce : Nat) : String := s!"{clientSeed}:{nonce}"

/-- `hmacSha256(serverSeed, message)` -/
def hmacSha256 (sha : Sha) (serverSeed message : String) : Bytes32 :=
  sha.hmacSha256 (utf8 serverSeed) (utf8 message)

/-- The UTF-8 bytes of a client seed, cut or zero-padded to 32. -/
def padClientSeed32 (clientSeed : String) : List UInt8 :=
  let bytes := (utf8 clientSeed).take 32
  bytes ++ List.replicate (32 - bytes.length) 0

/-- `nonce` as 32 bits, least significant byte first. -/
def u32le (nonce : Nat) : List UInt8 :=
  (List.range 4).map fun i => UInt8.ofNat (nonce % 2 ^ 32 / 256 ^ i)

/-- `sha256(utf8(serverSeed) ‖ slotHash ‖ clientSeed32 ‖ u32le(nonce))` -/
def lotteryFinalEntropy (sha : Sha) (serverSeed : String) (clientSeed32 : List UInt8)
    (slotHash : Bytes32) (nonce : Nat) : Bytes32 :=
  sha.sha256 (utf8 serverSeed ++ bytes32 slotHash ++ clientSeed32 ++ u32le nonce)

/-! ## The stream of floats -/

/-- The message a block of the stream is the digest of. -/
def blockMessage (clientSeed : String) (nonce block : Nat) : String :=
  s!"{clientSeed}:{nonce}:{block}"

/-- Four bytes as a base-256 fraction. -/
def fraction (b₀ b₁ b₂ b₃ : UInt8) : ℚ :=
  b₀.toNat / 256 + b₁.toNat / 256 ^ 2 + b₂.toNat / 256 ^ 3 + b₃.toNat / 256 ^ 4

/-- The loop over the bytes of a block, four at a time. -/
def blockFloats : List UInt8 → List ℚ
  | b₀ :: b₁ :: b₂ :: b₃ :: rest => fraction b₀ b₁ b₂ b₃ :: blockFloats rest
  | _ => []

section Stream

variable (sha : Sha) (serverSeed clientSeed : String) (nonce : Nat)

/-- What the stream yields before its block number goes up. -/
def streamBlock (block : Nat) : List ℚ :=
  blockFloats (bytes32 (hmacSha256 sha serverSeed (blockMessage clientSeed nonce block)))

/-- Float number `i`. -/
def floatStream (i : Nat) : ℚ :=
  (streamBlock sha serverSeed clientSeed nonce (i / 8)).getD (i % 8) 0

def floatsFromHmac (count : Nat) : List ℚ :=
  (List.range count).map (floatStream sha serverSeed clientSeed nonce)

end Stream

/-! ## In the unit interval -/

theorem fraction_mem (b₀ b₁ b₂ b₃ : UInt8) : fraction b₀ b₁ b₂ b₃ ∈ Set.Ico (0 : ℚ) 1 := by
  have hle : ∀ b : UInt8, (b.toNat : ℚ) ≤ 255 := by
    intro b
    have hb := b.toNat_lt
    exact_mod_cast (by omega : b.toNat ≤ 255)
  have hnonneg : ∀ b : UInt8, (0 : ℚ) ≤ b.toNat := fun b => Nat.cast_nonneg _
  have h₀ := hle b₀
  have h₁ := hle b₁
  have h₂ := hle b₂
  have h₃ := hle b₃
  refine ⟨?_, ?_⟩
  · unfold fraction
    have hn₀ := hnonneg b₀
    have hn₁ := hnonneg b₁
    have hn₂ := hnonneg b₂
    have hn₃ := hnonneg b₃
    positivity
  · unfold fraction
    linarith

theorem mem_blockFloats {bytes : List UInt8} {x : ℚ} (h : x ∈ blockFloats bytes) :
    x ∈ Set.Ico (0 : ℚ) 1 := by
  induction bytes using blockFloats.induct with
  | case1 b₀ b₁ b₂ b₃ rest ih =>
    rw [blockFloats, List.mem_cons] at h
    obtain rfl | h := h
    · exact fraction_mem b₀ b₁ b₂ b₃
    · exact ih h
  | case2 => simp [blockFloats] at h

theorem length_blockFloats : ∀ bytes : List UInt8, (blockFloats bytes).length = bytes.length / 4
  | [] => rfl
  | [_] => by simp [blockFloats]
  | [_, _] => by simp [blockFloats]
  | [_, _, _] => by simp [blockFloats]
  | b₀ :: b₁ :: b₂ :: b₃ :: rest => by
      have ih := length_blockFloats rest
      simp only [blockFloats, List.length_cons, ih]
      omega

section Stream

variable (sha : Sha) (serverSeed clientSeed : String) (nonce : Nat)

@[simp] theorem length_streamBlock (block : Nat) :
    (streamBlock sha serverSeed clientSeed nonce block).length = 8 := by
  simp [streamBlock, length_blockFloats, bytes32]

theorem floatStream_mem (i : Nat) :
    floatStream sha serverSeed clientSeed nonce i ∈ Set.Ico (0 : ℚ) 1 := by
  have hlt : i % 8 < (streamBlock sha serverSeed clientSeed nonce (i / 8)).length := by
    rw [length_streamBlock]
    omega
  have hget : floatStream sha serverSeed clientSeed nonce i =
      (streamBlock sha serverSeed clientSeed nonce (i / 8))[i % 8] := by
    rw [floatStream, List.getD_eq_getElem?_getD, List.getElem?_eq_getElem hlt, Option.getD_some]
  rw [hget]
  exact mem_blockFloats (List.getElem_mem hlt)

end Stream

end Scadium.Fair
