/-
Scadium.Games.Reroll — which entropy each settle attempt of a lottery draw and of a
jackpot round derives its winner from (`lottery.engine.ts`, `jackpot.engine.ts`,
`reveal_draw` of `scadium_lottery`).

An attempt takes its entropy from what it reaches: the program, the beacon, or
neither. So an attempt that failed after it reached a draw may be followed by one with
other entropy, and the digits that are committed may not be those of the account.

One draw and one round are modelled, each with its own account and rows. A step is
what runs between two awaits; an attempt runs at a time, until a kill. What an RPC or
a relay answers, whether a transaction commits, and the configuration a process was
started with are the environment's choice. The nonce of a lottery draw is 0.
`reached` records the choices of the attempts that got as far as a draw.

- The lottery: with the beacon configured throughout or never, and reveals that land
  only for the attempt that waits for them and then adopts their digits, the attempts
  that fall back have the beacon's value or fail, and one that is revealed is the only
  one that reaches a draw (`sound_step`).
- The jackpot: attempts that find the same configuration, closing time and on-chain
  entropy choose alike, for any pattern of failures and refunds (`choose_found`).
-/
import Scadium.Fair.Jackpot
import Scadium.Fair.Node
import Scadium.Lib.Runs

namespace Scadium.Games.Reroll

open Scadium.Lib Scadium.Fair Scadium.Shared
open Scadium.Prisma (Bytes32 Time)

/-- The hashes, the chain and the beacon. -/
structure World where
  sha : Sha
  /-- the hash of a slot -/
  slotHash : Nat → Bytes32
  /-- `beaconRoundAfter` -/
  roundAfter : Time → Nat
  randomness : Nat → Bytes32

/-! ## The lottery -/

namespace Lottery

structure Draw where
  serverSeed : String
  clientSeed : String
  drawAt : Time
  /-- the slot pinned at the commit -/
  targetSlot : Nat

/-- `fairness` -/
inductive Source where
  | onchain | beacon | synthetic
  deriving DecidableEq

def syntheticSlotHash (w : World) (d : Draw) : Bytes32 :=
  w.sha.sha256 (utf8 (d.serverSeed ++ ":" ++ d.clientSeed))

/-- What is folded in. -/
def entropy (w : World) (d : Draw) : Source → Bytes32
  | .onchain => w.slotHash d.targetSlot
  | .beacon => w.randomness (w.roundAfter d.drawAt)
  | .synthetic => syntheticSlotHash w d

/-- `lotteryDraw`, and `derive_numbers` of the program -/
def digits (w : World) (d : Draw) (source : Source) : List Nat :=
  Node.drawDigits w.sha (bytes32
    (lotteryFinalEntropy w.sha d.serverSeed (padClientSeed32 d.clientSeed) (entropy w d source) 0))

inductive Attempt where
  /-- it has sent its reveal -/
  | revealing (n : Nat)
  /-- it has reached a draw; the transaction is next -/
  | drawing (source : Source)
  deriving DecidableEq

structure State where
  /-- `winning_digits`, once the account is `Revealed` -/
  account : Option (List Nat)
  /-- the attempt whose reveal has landed -/
  revealedBy : Option Nat
  /-- reveals that have not landed -/
  sent : List Nat
  attempt : Option Attempt
  /-- the digits in the database, once the draw is `drawn` -/
  winningDigits : Option (List Nat)
  reached : List Source
  drawn : Nat

def State.init : State := ⟨none, none, [], none, none, [], 0⟩

inductive Event where
  /-- `settleDraw`, as far as its first await -/
  | settle (lotteryEnabled beaconEnabled available : Bool)
  | land (n : Nat) (accepted : Bool)
  /-- the answer of `lotteryRevealDraw` -/
  | answer (confirmed beaconEnabled available : Bool)
  | commit (committed : Bool)
  | kill
  deriving DecidableEq

section

variable (w : World) (d : Draw) (s : State)

def reach (source : Source) : State :=
  { s with attempt := some (.drawing source), reached := source :: s.reached }

/-- Without a reveal; a beacon value that is not to be had fails the attempt. -/
def fallback (beaconEnabled available : Bool) : State :=
  if beaconEnabled then
    if available then reach s .beacon else { s with attempt := none }
  else reach s .synthetic

/-- `reveal_draw` -/
def land (n : Nat) (accepted : Bool) : Option State :=
  if n ∈ s.sent then
    let s := { s with sent := s.sent.erase n }
    some (if accepted && s.account.isNone then
      { s with account := some (digits w d .onchain), revealedBy := some n } else s)
  else none

/-- A reveal is confirmed only if it has landed. -/
def answer (confirmed beaconEnabled available : Bool) : Option State :=
  match s.attempt with
  | some (.revealing n) =>
      if confirmed then
        if s.revealedBy = some n then some (reach s .onchain) else none
      else some (fallback s beaconEnabled available)
  | _ => none

/-- The transaction of the attempt, on the condition that the draw is open. -/
def commit (committed : Bool) : Option State :=
  match s.attempt with
  | some (.drawing source) => some { s with
      attempt := none
      winningDigits := if committed && s.winningDigits.isNone then some (digits w d source)
        else s.winningDigits }
  | _ => none

def step : Event → Option State
  | .settle lotteryEnabled beaconEnabled available =>
      if s.attempt.isSome then none
      else if lotteryEnabled then
        some { s with
          sent := s.drawn :: s.sent, attempt := some (.revealing s.drawn), drawn := s.drawn + 1 }
      else some (fallback s beaconEnabled available)
  | .land n accepted => land w d s n accepted
  | .answer confirmed beaconEnabled available => answer s confirmed beaconEnabled available
  | .commit committed => commit w d s committed
  | .kill => some { s with attempt := none }

/-- All attempts that reached a draw have folded in the same, and the digits of the
database are those of the account. -/
structure Right : Prop where
  same : ∀ x ∈ s.reached, ∀ y ∈ s.reached, entropy w d x = entropy w d y
  adopted : ∀ l l', s.account = some l → s.winningDigits = some l' → l' = l

end

/-- What an attempt folds in without a reveal, if it gets as far as a draw. -/
def fallbackSource (beacon : Bool) : Source := if beacon then .beacon else .synthetic

/-- All attempts find the beacon configured, or none does. A reveal lands only for the attempt that
waits for it, and before any other went on without one; its answer is not lost, and no
attempt begins after it. -/
def Steady (beacon : Bool) (s : State) : Event → Prop
  | .settle _ beaconEnabled _ => beaconEnabled = beacon ∧ s.account = none
  | .land n accepted => accepted = true → s.attempt = some (.revealing n) ∧ s.reached = []
  | .answer confirmed beaconEnabled _ =>
      beaconEnabled = beacon ∧ (confirmed = false → s.account = none)
  | .commit _ | .kill => True

instance (beacon : Bool) (s : State) : (e : Event) → Decidable (Steady beacon s e)
  | .settle _ beaconEnabled _ =>
      inferInstanceAs (Decidable (beaconEnabled = beacon ∧ s.account = none))
  | .land n accepted => inferInstanceAs (Decidable
      (accepted = true → s.attempt = some (.revealing n) ∧ s.reached = []))
  | .answer confirmed beaconEnabled _ => inferInstanceAs (Decidable
      (beaconEnabled = beacon ∧ (confirmed = false → s.account = none)))
  | .commit _ | .kill => .isTrue trivial

/-- Until a reveal lands the draws are those of the fallback, and afterwards those of the
account; what is committed is of one of them. -/
structure Sound (w : World) (d : Draw) (beacon : Bool) (s : State) : Prop where
  fallback : s.account = none → ∀ x ∈ s.reached, x = fallbackSource beacon
  onchain : ∀ l, s.account = some l → l = digits w d .onchain ∧ ∀ x ∈ s.reached, x = .onchain
  revealed : ∀ n, s.revealedBy = some n → s.account ≠ none
  drawing : ∀ source, s.attempt = some (.drawing source) → source ∈ s.reached
  committed : ∀ l, s.winningDigits = some l → ∃ x ∈ s.reached, l = digits w d x

section

variable {w : World} {d : Draw} {beacon : Bool} {s : State}

theorem Sound.right (h : Sound w d beacon s) : Right w d s where
  same x hx y hy := by
    cases haccount : s.account with
    | none => rw [h.fallback haccount x hx, h.fallback haccount y hy]
    | some l =>
      obtain ⟨-, hall⟩ := h.onchain l haccount
      rw [hall x hx, hall y hy]
  adopted l l' hl hl' := by
    obtain ⟨rfl, hall⟩ := h.onchain l hl
    obtain ⟨x, hx, rfl⟩ := h.committed l' hl'
    rw [hall x hx]

/-- An attempt that ends or waits for its reveal has reached no draw. -/
theorem sound_attempt (h : Sound w d beacon s) {attempt : Option Attempt} {sent : List Nat}
    {drawn : Nat} (hattempt : ∀ source, attempt ≠ some (.drawing source)) :
    Sound w d beacon { s with attempt := attempt, sent := sent, drawn := drawn } where
  fallback := h.fallback
  onchain := h.onchain
  revealed := h.revealed
  drawing source heq := absurd heq (hattempt source)
  committed := h.committed

theorem sound_reach (h : Sound w d beacon s) {source : Source}
    (hfallback : s.account = none → source = fallbackSource beacon)
    (honchain : s.account ≠ none → source = .onchain) : Sound w d beacon (reach s source) where
  fallback hnone x hx := by
    rcases List.mem_cons.mp hx with rfl | hx
    · exact hfallback hnone
    · exact h.fallback hnone x hx
  onchain l hl := by
    obtain ⟨hdigits, hall⟩ := h.onchain l hl
    refine ⟨hdigits, fun x hx => ?_⟩
    rcases List.mem_cons.mp hx with rfl | hx
    · exact honchain (by simp [show s.account = some l from hl])
    · exact hall x hx
  revealed := h.revealed
  drawing source' heq := by
    cases heq
    exact List.mem_cons_self ..
  committed l hl := by
    obtain ⟨x, hx, hdigits⟩ := h.committed l hl
    exact ⟨x, List.mem_cons_of_mem _ hx, hdigits⟩

/-- The beacon's value may be missing, but nothing else takes its place. -/
theorem sound_fallback (h : Sound w d beacon s) (hnone : s.account = none) (available : Bool) :
    Sound w d beacon (fallback s beacon available) := by
  have hreach : Sound w d beacon (reach s (fallbackSource beacon)) :=
    sound_reach h (fun _ => rfl) fun hsome => absurd hnone hsome
  unfold fallback
  cases beacon with
  | false => exact hreach
  | true =>
    cases available with
    | false => exact sound_attempt h nofun
    | true => exact hreach

theorem sound_land (h : Sound w d beacon s) {n : Nat} {accepted : Bool}
    (hok : Steady beacon s (.land n accepted)) {s' : State}
    (hland : land w d s n accepted = some s') : Sound w d beacon s' := by
  unfold land at hland
  split at hland
  · cases hland
    dsimp only
    split
    · rename_i hnew
      obtain ⟨_, hreached⟩ := hok (Bool.and_eq_true_iff.mp hnew).1
      refine ⟨nofun, ?_, ?_, h.drawing, h.committed⟩
      · intro l hl
        cases hl
        exact ⟨rfl, by simp [hreached]⟩
      · simp
    · exact ⟨h.fallback, h.onchain, h.revealed, h.drawing, h.committed⟩
  · cases hland

theorem sound_commit (h : Sound w d beacon s) {committed : Bool} {s' : State}
    (hcommit : commit w d s committed = some s') : Sound w d beacon s' := by
  unfold commit at hcommit
  split at hcommit
  · rename_i source hattempt
    cases hcommit
    refine ⟨h.fallback, h.onchain, h.revealed, nofun, ?_⟩
    intro l hl
    dsimp only at hl
    split at hl
    · cases hl
      exact ⟨source, h.drawing source hattempt, rfl⟩
    · exact h.committed l hl
  · cases hcommit

theorem sound_step (s : State) (e : Event) (s' : State) (hok : Steady beacon s e)
    (h : Sound w d beacon s) (hstep : step w d s e = some s') : Sound w d beacon s' := by
  cases e with
  | settle lotteryEnabled beaconEnabled available =>
    obtain ⟨rfl, hnone⟩ := hok
    simp only [step] at hstep
    split at hstep
    · cases hstep
    split at hstep
    · cases hstep
      exact sound_attempt h nofun
    · cases hstep
      exact sound_fallback h hnone available
  | land => exact sound_land h hok hstep
  | answer confirmed beaconEnabled available =>
    obtain ⟨rfl, hlost⟩ := hok
    simp only [step, answer] at hstep
    split at hstep
    · cases confirmed with
      | true =>
        simp only [if_true] at hstep
        split at hstep
        · rename_i hrevealed
          cases hstep
          exact sound_reach h (fun hnone => absurd hnone (h.revealed _ hrevealed)) fun _ => rfl
        · cases hstep
      | false =>
        cases hstep
        exact sound_fallback h (hlost rfl) available
    · cases hstep
  | commit => exact sound_commit h hstep
  | kill =>
    cases hstep
    exact sound_attempt h nofun

theorem sound_init : Sound w d beacon State.init :=
  ⟨nofun, nofun, nofun, nofun, nofun⟩

end

end Lottery

/-! ## The jackpot -/

namespace Jackpot

structure Round where
  serverSeed : String
  clientSeed : String
  nonce : Nat

/-- What an attempt finds: the engine, its configuration, and what it is answered. -/
structure Inputs where
  /-- `settleFailures >= settleRetryAttempts` -/
  forceRefund : Bool
  rngLive : Bool
  beaconEnabled : Bool
  closeAt : Option Time
  players : Nat
  /-- `roundEntropy` -/
  onchainEntropy : Option Bytes32
  available : Bool
  deriving DecidableEq

/-- What is folded into the seed. -/
inductive Choice where
  | beacon (round : Nat)
  | onchain (entropy : Bytes32)
  | seeds
  deriving DecidableEq

/-- The choice of an attempt; `none` where it fails for want of a beacon value. -/
def choose (w : World) (i : Inputs) : Option Choice :=
  let entropy := if i.rngLive && !i.forceRefund && !i.beaconEnabled then i.onchainEntropy else none
  let drawn := entropy.elim Choice.seeds .onchain
  match i.closeAt with
  | some closeAt =>
      if i.beaconEnabled && !i.forceRefund && decide (JACKPOT.MIN_PLAYERS ≤ i.players) then
        if i.available then some (.beacon (w.roundAfter closeAt)) else none
      else some drawn
  | none => some drawn

/-- The digest that the winning ticket is the remainder of. -/
def digest (w : World) (r : Round) : Choice → Bytes32
  | .beacon round => lotteryFinalEntropy w.sha r.serverSeed (padClientSeed32 r.clientSeed)
      (w.randomness round) r.nonce
  | .onchain entropy =>
      let drawSeed := (Derive.deriveSeedContext w.sha ⟨r.serverSeed, r.clientSeed, r.nonce⟩
        (some entropy) []).serverSeed
      hmacSha256 w.sha drawSeed (buildMessage r.clientSeed r.nonce)
  | .seeds => hmacSha256 w.sha r.serverSeed (buildMessage r.clientSeed r.nonce)

structure State where
  isOpen : Bool
  reached : List Choice

def State.init : State := ⟨true, []⟩

/-- An attempt: what it finds, the players among the rows, and whether it commits. -/
inductive Event where
  | settle (inputs : Inputs) (distinctPlayers : Nat) (committed : Bool)
  deriving DecidableEq

def draws (i : Inputs) (distinctPlayers : Nat) : Bool :=
  !(decide (distinctPlayers < JACKPOT.MIN_PLAYERS) || i.forceRefund)

def step (w : World) (s : State) : Event → Option State
  | .settle i distinctPlayers committed =>
      if s.isOpen then
        match choose w i with
        | none => some s
        | some choice => some
            { isOpen := !committed
              reached := if draws i distinctPlayers then choice :: s.reached else s.reached }
      else none

/-- All attempts that reached a draw have the same digest. -/
def Right (w : World) (r : Round) (s : State) : Prop :=
  ∀ x ∈ s.reached, ∀ y ∈ s.reached, digest w r x = digest w r y

/-- What all attempts find, but for the failures: the configuration, the closing time,
enough players or not, and, where the entropy of the program is folded in, the same. -/
def Finds (found : Inputs) (_ : State) : Event → Prop
  | .settle i _ _ => i.rngLive = found.rngLive ∧ i.beaconEnabled = found.beaconEnabled ∧
      i.closeAt = found.closeAt ∧
      (i.players < JACKPOT.MIN_PLAYERS ↔ found.players < JACKPOT.MIN_PLAYERS) ∧
      (i.rngLive = true → i.beaconEnabled = false → i.onchainEntropy = found.onchainEntropy)

instance (found : Inputs) (s : State) : (e : Event) → Decidable (Finds found s e)
  | .settle _ _ _ => inferInstanceAs (Decidable (_ ∧ _ ∧ _ ∧ _ ∧ _))

/-- An attempt that draws and does not fail folds in what those do that find the same. -/
theorem choose_found {w : World} {found i : Inputs} {distinctPlayers : Nat} {committed : Bool}
    {s : State} (h : Finds found s (.settle i distinctPlayers committed))
    (hdraws : draws i distinctPlayers = true) {choice : Choice}
    (hchoice : choose w i = some choice) :
    choose w { found with forceRefund := false, available := true } = some choice := by
  obtain ⟨forceRefund, _, _, closeAt, players, entropy, _⟩ := i
  obtain ⟨hlive, hbeacon, hclose, hplayers, hentropy⟩ := h
  dsimp only at hlive hbeacon hclose hplayers hentropy
  subst hlive hbeacon hclose
  have hforce : forceRefund = false := by
    simp only [draws, Bool.not_eq_true', Bool.or_eq_false_iff] at hdraws
    exact hdraws.2
  subst hforce
  have hmin : decide (JACKPOT.MIN_PLAYERS ≤ players) =
      decide (JACKPOT.MIN_PLAYERS ≤ found.players) := by
    simp only [← Nat.not_lt, hplayers]
  -- the program's entropy is looked at only where it is the one that is found
  have hfold : (if found.rngLive && !false && !found.beaconEnabled then entropy else none) =
      if found.rngLive && !false && !found.beaconEnabled then found.onchainEntropy else none := by
    split
    · rename_i hboth
      simp only [Bool.not_false, Bool.and_true, Bool.and_eq_true, Bool.not_eq_true'] at hboth
      exact hentropy hboth.1 hboth.2
    · rfl
  unfold choose at hchoice ⊢
  dsimp only at hchoice ⊢
  rw [hfold, hmin] at hchoice
  split at hchoice
  · rename_i closeAt heq
    rw [heq]
    split at hchoice
    · rename_i hboth
      rw [if_pos hboth]
      split at hchoice
      · exact hchoice
      · cases hchoice
    · rename_i hnot
      rw [if_neg hnot]
      exact hchoice
  · rename_i heq
    rw [heq]
    exact hchoice

/-- The choices are what the attempts find. -/
def Sound (w : World) (found : Inputs) (s : State) : Prop :=
  ∀ x ∈ s.reached, choose w { found with forceRefund := false, available := true } = some x

theorem Sound.right {w : World} {found : Inputs} {r : Round} {s : State} (h : Sound w found s) :
    Right w r s := by
  intro x hx y hy
  rw [Option.some.inj ((h x hx).symm.trans (h y hy))]

theorem sound_step {w : World} {found : Inputs} (s : State) (e : Event) (s' : State)
    (hok : Finds found s e) (h : Sound w found s) (hstep : step w s e = some s') :
    Sound w found s' := by
  obtain ⟨i, _, _⟩ := e
  simp only [step] at hstep
  split at hstep
  · split at hstep
    · cases hstep
      exact h
    · rename_i choice hchoice
      cases hstep
      intro x hx
      dsimp only at hx
      split at hx
      · rename_i hdraws
        rcases List.mem_cons.mp hx with rfl | hx
        · exact choose_found hok hdraws hchoice
        · exact h x hx
      · exact h x hx
  · cases hstep

end Jackpot

/-! ## Runs -/

namespace Sample

def mix (l : List UInt8) : Bytes32 := BitVec.ofNat 256 ((l.map UInt8.toNat).sum * 2 ^ 192)

def world : World where
  sha := ⟨fun l => mix l, fun key message => mix (key ++ message)⟩
  slotHash n := BitVec.ofNat 256 n
  roundAfter t := t
  randomness n := BitVec.ofNat 256 (n + 1)

def draw : Lottery.Draw := ⟨"s", "c", 3, 5⟩

def round : Jackpot.Round := ⟨"s", "c", 0⟩

/-- A first reveal that does not land, while the beacon is down, and a second that does. -/
def revealed : List Lottery.Event :=
  [.settle true true true, .answer false true false, .settle true true true, .land 1 true,
    .answer true true true, .commit true]

def inputs : Jackpot.Inputs := ⟨false, false, true, some 3, 2, none, true⟩

/-- The reveal lands, but its answer is lost. -/
def lost : List Lottery.Event :=
  [.settle true true true, .land 0 true, .answer false true true, .commit true]

/-- An attempt of the jackpot without the beacon, with a round of its own of the
program. -/
def anew (entropy : Bytes32) (committed : Bool) : Jackpot.Event :=
  .settle ⟨false, true, false, some 3, 2, some entropy, true⟩ 2 committed

end Sample

end Scadium.Games.Reroll
