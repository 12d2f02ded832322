/-
Scadium.Fair.Streams — the messages a user's server seed signs, and when two
bets share one (`packages/fair/src/{floats,hash,case}.ts`).

A bet has a client seed and a nonce, and its outcome is derived from the
digests of its `messages`: the blocks of a float stream, or the plain message
of the daily case. Every message ends in a counter after a colon, so one can be
read from the end. Of two bets that differ, one block is never another's block
and one plain message never another's; but a client seed may itself end in a
colon and a number, and then the plain message is a block of the bet with the
seed and the nonce it is made of.
-/
import Scadium.Fair.Derive
import Scadium.Fairness.SeedManager

namespace Scadium.Fair

/-- `parseInt(hash.slice(0, 13), 16) / 2 ** 52` -/
def dailyCaseRoll (sha : Sha) (serverSeed clientSeed : String) (nonce : Nat) : ℚ :=
  ((hmacSha256 sha serverSeed (buildMessage clientSeed nonce)).toNat / 16 ^ 51 : Nat) / 2 ^ 52

/-- What is derived under a user's seed. -/
inductive Derivation where
  /-- the first `count` floats of a stream -/
  | floats (count : Nat)
  | dailyCase
  deriving DecidableEq

namespace Derivation

/-- The messages whose digests are read, in bytes. -/
def messages (clientSeed : JsString) (nonce : Nat) : Derivation → List (List UInt8)
  | floats count => (List.range count).map fun i =>
      utf8 (blockMessage (String.ofList clientSeed) nonce (i / 8))
  | dailyCase => [utf8 (buildMessage (String.ofList clientSeed) nonce)]

def outcome (sha : Sha) (serverSeed : String) (clientSeed : JsString) (nonce : Nat) :
    Derivation → List ℚ
  | floats count => floatsFromHmac sha serverSeed (String.ofList clientSeed) nonce count
  | dailyCase => [dailyCaseRoll sha serverSeed (String.ofList clientSeed) nonce]

/-- No message of the one bet is a message of the other. -/
def Separated (d₁ : Derivation) (clientSeed₁ : JsString) (nonce₁ : Nat) (d₂ : Derivation)
    (clientSeed₂ : JsString) (nonce₂ : Nat) : Prop :=
  ∀ m ∈ d₁.messages clientSeed₁ nonce₁, m ∉ d₂.messages clientSeed₂ nonce₂

/-- The second bet is a daily case under the seed and the nonce of the first as
its seed, and its nonce is a block that the first reads. -/
def Continues (d₁ : Derivation) (clientSeed₁ : JsString) (nonce₁ : Nat) (d₂ : Derivation)
    (clientSeed₂ : JsString) (nonce₂ : Nat) : Prop :=
  match d₁, d₂ with
  | floats count, dailyCase =>
      clientSeed₂ = clientSeed₁ ++ ':' :: (toString nonce₁).toList ∧ 8 * nonce₂ < count
  | _, _ => False

end Derivation

/-! ## Reading a message from its end -/

/-- A text splits at its last separator in one way. -/
theorem append_separator_inj {α : Type} {sep : α} {xs ys ds es : List α} (hds : sep ∉ ds)
    (hes : sep ∉ es) : xs ++ sep :: ds = ys ++ sep :: es ↔ xs = ys ∧ ds = es := by
  constructor
  · intro h
    obtain ⟨as, rfl, has⟩ | ⟨as, rfl, has⟩ := List.append_eq_append_iff.mp h
    · cases as with
      | nil => simpa using has
      | cons =>
        obtain ⟨-, rfl⟩ := List.cons_eq_cons.mp has
        simp at hds
    · cases as with
      | nil => simpa using has.symm
      | cons =>
        obtain ⟨-, rfl⟩ := List.cons_eq_cons.mp has
        simp at hes
  · rintro ⟨rfl, rfl⟩
    rfl

theorem colon_notMem_decimal (n : Nat) : ':' ∉ (toString n).toList := by
  intro h
  have hdigits : (toString n).toList = Nat.toDigits 10 n := Nat.toList_repr
  rw [hdigits] at h
  have hdigit := Nat.isDigit_of_mem_toDigits (by decide) (by decide) h
  exact absurd hdigit (by decide)

theorem decimal_inj {m n : Nat} : (toString m).toList = (toString n).toList ↔ m = n := by
  constructor
  · intro h
    have hdigits : Nat.toDigits 10 m = Nat.toDigits 10 n :=
      Nat.toList_repr.symm.trans (h.trans Nat.toList_repr)
    rw [← Nat.ofDigitChars_ten_toDigits (n := m), hdigits, Nat.ofDigitChars_ten_toDigits]
  · rintro rfl
    rfl

theorem toList_buildMessage (c : JsString) (n : Nat) :
    (buildMessage (String.ofList c) n).toList = c ++ ':' :: (toString n).toList := by
  show (String.ofList c ++ ":" ++ toString n).toList = _
  simp

theorem toList_blockMessage (c : JsString) (n b : Nat) :
    (blockMessage (String.ofList c) n b).toList =
      (c ++ ':' :: (toString n).toList) ++ ':' :: (toString b).toList := by
  show (String.ofList c ++ ":" ++ toString n ++ ":" ++ toString b).toList = _
  simp

section Messages

variable {c₁ c₂ : JsString} {n₁ n₂ b₁ b₂ : Nat}

theorem buildMessage_inj : buildMessage (String.ofList c₁) n₁ = buildMessage (String.ofList c₂) n₂ ↔
    c₁ = c₂ ∧ n₁ = n₂ := by
  rw [← String.toList_inj, toList_buildMessage, toList_buildMessage,
    append_separator_inj (colon_notMem_decimal _) (colon_notMem_decimal _), decimal_inj]

theorem blockMessage_inj :
    blockMessage (String.ofList c₁) n₁ b₁ = blockMessage (String.ofList c₂) n₂ b₂ ↔
      (c₁ = c₂ ∧ n₁ = n₂) ∧ b₁ = b₂ := by
  rw [← String.toList_inj, toList_blockMessage, toList_blockMessage,
    append_separator_inj (colon_notMem_decimal _) (colon_notMem_decimal _),
    append_separator_inj (colon_notMem_decimal _) (colon_notMem_decimal _), decimal_inj,
    decimal_inj]

/-- The plain message of a seed that ends in a nonce. -/
theorem blockMessage_eq_buildMessage :
    blockMessage (String.ofList c₁) n₁ b₁ = buildMessage (String.ofList c₂) n₂ ↔
      c₂ = c₁ ++ ':' :: (toString n₁).toList ∧ n₂ = b₁ := by
  rw [← String.toList_inj, toList_blockMessage, toList_buildMessage,
    append_separator_inj (colon_notMem_decimal _) (colon_notMem_decimal _), decimal_inj,
    eq_comm, and_congr_right_iff]
  exact fun _ => eq_comm

end Messages

/-! ## Two bets -/

namespace Derivation

variable {clientSeed₁ clientSeed₂ : JsString} {nonce₁ nonce₂ : Nat}

theorem Separated.symm {d₁ d₂ : Derivation}
    (h : Separated d₁ clientSeed₁ nonce₁ d₂ clientSeed₂ nonce₂) :
    Separated d₂ clientSeed₂ nonce₂ d₁ clientSeed₁ nonce₁ :=
  fun m h₂ h₁ => h m h₁ h₂

/-- A stream and a daily case. -/
theorem separated_dailyCase {count : Nat} :
    Separated (.floats count) clientSeed₁ nonce₁ .dailyCase clientSeed₂ nonce₂ ↔
      ¬ Continues (.floats count) clientSeed₁ nonce₁ .dailyCase clientSeed₂ nonce₂ := by
  have hblock : ∀ i, utf8 (blockMessage (String.ofList clientSeed₁) nonce₁ (i / 8)) =
      utf8 (buildMessage (String.ofList clientSeed₂) nonce₂) ↔
        clientSeed₂ = clientSeed₁ ++ ':' :: (toString nonce₁).toList ∧ nonce₂ = i / 8 :=
    fun i => utf8_inj.trans blockMessage_eq_buildMessage
  simp only [Separated, Continues, messages, List.mem_map, List.mem_range, List.mem_singleton]
  constructor
  · rintro h ⟨hseed, hcount⟩
    exact h _ ⟨8 * nonce₂, hcount, rfl⟩ ((hblock _).mpr ⟨hseed, by omega⟩)
  · rintro h m ⟨i, _, rfl⟩ hm
    obtain ⟨hseed, _⟩ := (hblock i).mp hm
    exact h ⟨hseed, by omega⟩

/-- Two bets share a message exactly if one continues the other. -/
theorem streams_separated_iff {d₁ d₂ : Derivation}
    (h : (clientSeed₁, nonce₁) ≠ (clientSeed₂, nonce₂)) :
    Separated d₁ clientSeed₁ nonce₁ d₂ clientSeed₂ nonce₂ ↔
      ¬ (Continues d₁ clientSeed₁ nonce₁ d₂ clientSeed₂ nonce₂ ∨
        Continues d₂ clientSeed₂ nonce₂ d₁ clientSeed₁ nonce₁) := by
  have hpair : ¬ (clientSeed₁ = clientSeed₂ ∧ nonce₁ = nonce₂) := by
    rintro ⟨rfl, rfl⟩
    exact h rfl
  cases d₁ with
  | floats count₁ =>
    cases d₂ with
    | floats count₂ =>
      have hsep : Separated (.floats count₁) clientSeed₁ nonce₁ (.floats count₂) clientSeed₂
          nonce₂ := by
        intro m h₁ h₂
        obtain ⟨i, -, rfl⟩ := List.mem_map.mp h₁
        obtain ⟨j, -, hj⟩ := List.mem_map.mp h₂
        exact hpair (blockMessage_inj.mp (utf8_inj.mp hj.symm)).1
      simp [hsep, Continues]
    | dailyCase => simp [separated_dailyCase, Continues]
  | dailyCase =>
    cases d₂ with
    | floats count₂ =>
      have hswap :
          Separated .dailyCase clientSeed₁ nonce₁ (.floats count₂) clientSeed₂ nonce₂ ↔
            Separated (.floats count₂) clientSeed₂ nonce₂ .dailyCase clientSeed₁ nonce₁ :=
        ⟨Separated.symm, Separated.symm⟩
      simp [hswap, separated_dailyCase, Continues]
    | dailyCase =>
      have hsep : Separated .dailyCase clientSeed₁ nonce₁ .dailyCase clientSeed₂ nonce₂ := by
        intro m h₁ h₂
        rw [messages, List.mem_singleton] at h₁ h₂
        exact hpair (buildMessage_inj.mp (utf8_inj.mp (h₁.symm.trans h₂)))
      simp [hsep, Continues]

namespace Sample

/-- The board of mines, under a short seed. -/
def board : Derivation := .floats 25

end Sample

open Fairness.SeedStore (acceptedClientSeed)

theorem streams_separated_iff_board :
    ((['a'], 5) ≠ (['b'], 5)) ∧
    (Separated Sample.board ['a'] 5 .dailyCase ['b'] 5 ↔
      ¬ (Continues Sample.board ['a'] 5 .dailyCase ['b'] 5 ∨
        Continues .dailyCase ['b'] 5 Sample.board ['a'] 5)) :=
  ⟨by decide, streams_separated_iff (by decide)⟩

/-- The daily case of the seed "a:5" is the second block of bet 5 of the seed
"a". -/
theorem streams_collide : ¬ ∀ (text₁ text₂ clientSeed₁ clientSeed₂ : JsString)
    (nonce₁ nonce₂ : Nat) (d₁ d₂ : Derivation),
    acceptedClientSeed text₁ = some clientSeed₁ → acceptedClientSeed text₂ = some clientSeed₂ →
    (clientSeed₁, nonce₁) ≠ (clientSeed₂, nonce₂) →
    Separated d₁ clientSeed₁ nonce₁ d₂ clientSeed₂ nonce₂ := by
  intro h
  have hsep := h ['a'] ['a', ':', '5'] ['a'] ['a', ':', '5'] 5 1 Sample.board .dailyCase
    (by decide) (by decide) (by decide)
  exact separated_dailyCase.mp hsep ⟨by decide, by decide⟩

end Derivation

end Scadium.Fair
