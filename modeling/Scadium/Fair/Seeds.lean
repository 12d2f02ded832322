/-
Scadium.Fair.Seeds — the seed generators of `packages/fair/src/seed.ts`
and the JavaScript strings client seeds are made of.

`generateServerSeed` and `generateClientSeed` read the operating system's
random source, so the model takes the whole stream of their results: call
number `n` of the process returns `generateServerSeed n`. That two calls
never return the same server seed (256 random bits) is carried by
`SeedSource` as a field; nothing is assumed about client seeds, which a
player may choose.

A string is the list of its Unicode characters. `trim` and `length16`
follow ECMAScript: `String.prototype.trim` strips WhiteSpace and
LineTerminator, `length` counts UTF-16 code units.
-/
import Mathlib.Algebra.Order.Ring.Nat
import Mathlib.Data.List.Basic
import Mathlib.Logic.Function.Basic

namespace Scadium.Fair

/-- A JavaScript string. -/
abbrev JsString := List Char

/-- ECMAScript WhiteSpace and LineTerminator, the characters `trim` strips. -/
def isWhite (c : Char) : Bool :=
  c.toNat ∈ [0x09, 0x0A, 0x0B, 0x0C, 0x0D, 0x20, 0xA0, 0x1680, 0x2028, 0x2029,
      0x202F, 0x205F, 0x3000, 0xFEFF]
    || (0x2000 ≤ c.toNat && c.toNat ≤ 0x200A)

/-- `s.trim()`. -/
def JsString.trim (s : JsString) : JsString :=
  ((s.dropWhile isWhite).reverse.dropWhile isWhite).reverse

/-- `s.length`, in UTF-16 code units. -/
def JsString.length16 (s : JsString) : Nat :=
  (s.map fun c => if c.toNat < 0x10000 then 1 else 2).sum

/-- The results of the seed generators, in call order, and the commitment
`sha256(serverSeed)`. -/
structure SeedSource (Seed Digest : Type) where
  generateServerSeed : Nat → Seed
  generateClientSeed : Nat → JsString
  commitServerSeed : Seed → Digest
  serverSeed_injective : Function.Injective generateServerSeed

variable {Seed Digest : Type}

/-- How many calls of each generator have been made. -/
structure Draws where
  server : Nat
  client : Nat
  deriving DecidableEq

/-- The seeds generated so far. -/
def SeedSource.Drawn (src : SeedSource Seed Digest) (n : Nat) (s : Seed) : Prop :=
  ∃ i < n, src.generateServerSeed i = s

theorem SeedSource.Drawn.mono {src : SeedSource Seed Digest} {n m : Nat} {s : Seed}
    (h : src.Drawn n s) (hnm : n ≤ m) : src.Drawn m s := by
  obtain ⟨i, _, hs⟩ := h
  exact ⟨i, by omega, hs⟩

theorem SeedSource.drawn_generate (src : SeedSource Seed Digest) {n i : Nat} (h : i < n) :
    src.Drawn n (src.generateServerSeed i) :=
  ⟨i, h, rfl⟩

/-- A call not yet made returns a seed not yet seen. -/
theorem SeedSource.not_drawn_generate (src : SeedSource Seed Digest) {n i : Nat} (h : n ≤ i) :
    ¬ src.Drawn n (src.generateServerSeed i) := by
  rintro ⟨j, _, hs⟩
  have := src.serverSeed_injective hs
  omega

end Scadium.Fair
