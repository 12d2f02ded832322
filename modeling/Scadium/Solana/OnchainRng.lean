/-
Scadium.Solana.OnchainRng — who knows a server seed, with `scadium_rng` live
(`onchain-rng.service.ts`, `seed-manager.service.ts`, `instant-settle.ts`,
`stateful-round.ts`, `coinflip.service.ts`, `crash.engine.ts`).

`roundEntropy` sends the server seed to the program before the transaction, or
the round, that it is for. So the seed of a user is out while it is active and a
round is built from it, that of a flip while it is open, and that of a crash round
while it accepts bets. They stay secret exactly as long as no `settle_round` lands
before what its seed keys is decided.

Seeds never repeat, so a seed is known by what it was drawn for. A step is what
runs between two awaits, or one transaction. What the wager gate, the balance or
an expiry refuses is the environment's choice, as is what an RPC answers; a
transaction that was sent may land after its answer, or never.
-/
import Scadium.Games.Instant.StatefulRound
import Scadium.Lib.Table

namespace Scadium.Solana.OnchainRng

open Scadium.Lib
open Scadium.Prisma (UserId RoundId)
open Scadium.Games.Instant (StatefulGame)

abbrev FlipId := Nat

inductive Seed where
  /-- of a user, after so many rotations -/
  | user (userId : UserId) (rotation : Nat)
  | flip (flipId : FlipId)
  | crash (n : Nat)
  deriving DecidableEq

/-- What a round of the program is driven for. -/
inductive Purpose where
  /-- `settleInstantBet` -/
  | bet (userId : UserId)
  /-- `startStatefulRound` -/
  | start (userId : UserId) (gameType : StatefulGame)
  | join (userId : UserId) (flipId : FlipId)
  /-- `startNewRound` -/
  | crashRound
  deriving DecidableEq

/-- How far `roundEntropy` is: `open_round` is next, the wait for the slot,
`settle_round` is sent, it has returned. -/
inductive Stage where
  | opening | waiting | settling | returned
  deriving DecidableEq

structure Call where
  purpose : Purpose
  serverSeed : Seed
  stage : Stage
  deriving DecidableEq

/-- An `InstantRound` of a stateful game. -/
structure Round where
  userId : UserId
  gameType : StatefulGame
  serverSeed : Seed
  isActive : Bool
  deriving DecidableEq

structure Flip where
  creatorId : UserId
  isOpen : Bool
  deriving DecidableEq

/-- The crash round in memory. -/
structure CrashRound where
  serverSeed : Seed
  acceptsBets : Bool
  deriving DecidableEq

structure State where
  /-- how often a user has rotated -/
  rotations : Table UserId Nat
  rounds : Table RoundId Round
  flips : Table FlipId Flip
  current : Option CrashRound
  calls : Table Nat Call
  /-- the `settle_round` transactions that have not landed, by their calls -/
  sent : Table Nat Seed
  drawn : Nat
  /-- the seeds that are out: returned, or an argument of the program -/
  published : List Seed

def State.init : State where
  rotations := .empty
  rounds := .empty
  flips := .empty
  current := none
  calls := .empty
  sent := .empty
  drawn := 0
  published := []

inductive Event where
  /-- with the program live -/
  | request (purpose : Purpose)
  | openRound (call : Nat)
  | settleRound (call : Nat)
  | land (call : Nat)
  | confirm (call : Nat)
  /-- a step of `roundEntropy` fails or times out -/
  | giveUp (call : Nat)
  /-- the transaction behind it, or the round is installed -/
  | finish (call : Nat) (committed : Bool)
  /-- off chain -/
  | direct (purpose : Purpose)
  /-- `advanceStatefulRound` -/
  | move (roundId : RoundId) (terminal : Bool)
  | create (userId : UserId) (vsHouse : Bool)
  | playHouse (userId : UserId) (flipId : FlipId)
  /-- `cancelOpenFlip`, for its creator or the sweep -/
  | cancel (flipId : FlipId)
  | closeBets
  | bust
  | rotateServerSeed (userId : UserId)
  | kill
  deriving DecidableEq

namespace State

variable (s : State)

def rotation (userId : UserId) : Nat := (s.rotations.get userId).getD 0

def activeSeed (userId : UserId) : Seed := .user userId (s.rotation userId)

/-- The seed that a round of the program commits to. -/
def seedOf : Purpose → Seed
  | .bet userId | .start userId _ => s.activeSeed userId
  | .join _ flipId => .flip flipId
  | .crashRound => .crash s.drawn

def isActive (P : Round → Bool) : Bool := s.rounds.entries.any fun e => e.2.isActive && P e.2

def inProgress (userId : UserId) (gameType : StatefulGame) : Bool :=
  s.isActive fun r => r.userId == userId && r.gameType == gameType

/-! ## Transactions -/

def close (flipId : FlipId) (creatorId : UserId) : State :=
  { s with flips := s.flips.set flipId ⟨creatorId, false⟩ }

def publish (x : Seed) : State := { s with published := x :: s.published }

/-- `resolve`: the flip's seed is revealed with its result. -/
def resolve (flipId : FlipId) : State :=
  match s.flips.get flipId with
  | some ⟨creatorId, true⟩ => (s.close flipId creatorId).publish (.flip flipId)
  | _ => s

/-- `instantRound.create` -/
def insert (r : Round) : State :=
  { s with rounds := s.rounds.set s.drawn r, drawn := s.drawn + 1 }

def install (c : CrashRound) : State := { s with current := some c }

/-- What is committed once `roundEntropy` has returned; a refused transaction
changes nothing. -/
def commit (purpose : Purpose) (serverSeed : Seed) : State :=
  match purpose with
  | .bet _ => s
  | .start userId gameType =>
      if s.inProgress userId gameType then s
      else s.insert ⟨userId, gameType, serverSeed, true⟩
  | .join _ flipId => s.resolve flipId
  | .crashRound => s.install ⟨serverSeed, true⟩

/-- `pre?.status === 'open' && … && pre.creatorId !== params.userId` -/
def allows : Purpose → Bool
  | .join userId flipId => (s.flips.get flipId).any fun f => f.isOpen && f.creatorId != userId
  | _ => true

def draw : State := { s with drawn := s.drawn + 1 }

def request (purpose : Purpose) : Option State :=
  if s.allows purpose then
    some { s.draw with calls := s.calls.set s.drawn ⟨purpose, s.seedOf purpose, .opening⟩ }
  else none

def direct (purpose : Purpose) : Option State :=
  if s.allows purpose then some (s.draw.commit purpose (s.seedOf purpose)) else none

def finish (call : Nat) (committed : Bool) : Option State :=
  match s.calls.get call with
  | some ⟨purpose, serverSeed, .returned⟩ =>
      let s := { s with calls := s.calls.erase call }
      some (if committed then s.commit purpose serverSeed else s)
  | _ => none

def move (roundId : RoundId) (terminal : Bool) : Option State :=
  match s.rounds.get roundId with
  | some ⟨userId, gameType, serverSeed, true⟩ => some { s with
      rounds := s.rounds.set roundId ⟨userId, gameType, serverSeed, !terminal⟩ }
  | _ => none

def create (userId : UserId) (vsHouse : Bool) : State :=
  let game : State := { s.draw with flips := s.flips.set s.drawn ⟨userId, true⟩ }
  if vsHouse then game.resolve s.drawn else game

def playHouse (userId : UserId) (flipId : FlipId) : Option State :=
  if (s.flips.get flipId).any fun f => f.isOpen && f.creatorId == userId then
    some (s.resolve flipId)
  else none

def cancel (flipId : FlipId) : Option State :=
  match s.flips.get flipId with
  | some ⟨creatorId, true⟩ => some (s.close flipId creatorId)
  | _ => none

/-- The pre-committed seed becomes the active one. -/
def promote (userId : UserId) : State :=
  { s with rotations := s.rotations.set userId (s.rotation userId + 1) }

def rotateServerSeed (userId : UserId) : Option State :=
  if s.isActive fun r => r.userId == userId then none
  else some ((s.promote userId).publish (s.activeSeed userId))

/-! ## `roundEntropy` -/

def advance (call : Nat) (stage stage' : Stage) : Option State :=
  match s.calls.get call with
  | some c => if c.stage = stage then
      some { s with calls := s.calls.set call { c with stage := stage' } } else none
  | none => none

def settleRound (call : Nat) : Option State :=
  match s.calls.get call with
  | some ⟨purpose, serverSeed, .waiting⟩ => some { s with
      calls := s.calls.set call ⟨purpose, serverSeed, .settling⟩
      sent := s.sent.set call serverSeed }
  | _ => none

def land (call : Nat) : Option State :=
  match s.sent.get call with
  | some serverSeed => some ({ s with sent := s.sent.erase call }.publish serverSeed)
  | none => none

def giveUp (call : Nat) : Option State :=
  match s.calls.get call with
  | some c => some { s with calls := s.calls.set call { c with stage := .returned } }
  | none => none

/-! ## The crash round -/

def closeBets : State :=
  { s with current := s.current.map fun c => { c with acceptsBets := false } }

def bust : Option State :=
  match s.current with
  | some ⟨serverSeed, false⟩ => some (s.publish serverSeed)
  | _ => none

end State

def step (s : State) : Event → Option State
  | .request purpose => s.request purpose
  | .openRound call => s.advance call .opening .waiting
  | .settleRound call => s.settleRound call
  | .land call => s.land call
  | .confirm call =>
      if (s.sent.get call).isNone then s.advance call .settling .returned else none
  | .giveUp call => s.giveUp call
  | .finish call committed => s.finish call committed
  | .direct purpose => s.direct purpose
  | .move roundId terminal => s.move roundId terminal
  | .create userId vsHouse => some (s.create userId vsHouse)
  | .playHouse userId flipId => s.playHouse userId flipId
  | .cancel flipId => s.cancel flipId
  | .closeBets => some s.closeBets
  | .bust => s.bust
  | .rotateServerSeed userId => s.rotateServerSeed userId
  | .kill => some { s with current := none, calls := .empty }

/-! ## Secrecy -/

/-- What a server seed keys that is undecided. -/
inductive State.Keys (s : State) : Seed → Prop where
  /-- its user's next bet -/
  | active (userId : UserId) : s.Keys (s.activeSeed userId)
  | round {i : RoundId} {r : Round} (hget : s.rounds.get i = some r) (hactive : r.isActive = true) :
      s.Keys r.serverSeed
  /-- a flip that can be joined, played or cancelled -/
  | flip {i : FlipId} {f : Flip} (hget : s.flips.get i = some f) (hopen : f.isOpen = true) :
      s.Keys (.flip i)
  | crash {c : CrashRound} (hcurrent : s.current = some c) (haccepts : c.acceptsBets = true) :
      s.Keys c.serverSeed

/-- No server seed is out while it keys something undecided. -/
def State.Secret (s : State) : Prop := ∀ x, s.Keys x → x ∉ s.published

/-- All that a seed keys is decided. -/
def State.Decided (s : State) : Seed → Prop
  | .user userId n => n < s.rotation userId ∧
      ∀ e ∈ s.rounds.entries, e.2.isActive = true → e.2.serverSeed ≠ .user userId n
  | .flip flipId => ∀ f ∈ s.flips.get flipId, f.isOpen = false
  | .crash n => ∀ c ∈ s.current, c.acceptsBets = true → c.serverSeed ≠ .crash n

/-- What a transaction opens with a seed, it opens before the seed is out. -/
def State.OpensSecret (s : State) (purpose : Purpose) (serverSeed : Seed) : Prop :=
  match purpose with
  | .start userId gameType => s.inProgress userId gameType = false → serverSeed ∉ s.published
  | .crashRound => serverSeed ∉ s.published
  | .bet _ | .join .. => True

/-- What lands in the program keys nothing undecided, and nothing is opened with a
seed that has landed. -/
def Discreet (s : State) : Event → Prop
  | .land call => ∀ serverSeed ∈ s.sent.get call, s.Decided serverSeed
  | .finish call true => ∀ c ∈ s.calls.get call, s.OpensSecret c.purpose c.serverSeed
  | _ => True

instance (s : State) : (x : Seed) → Decidable (s.Decided x)
  | .user _ _ => inferInstanceAs (Decidable (_ ∧ ∀ e ∈ s.rounds.entries, _))
  | .flip flipId => inferInstanceAs (Decidable (∀ f ∈ s.flips.get flipId, _))
  | .crash _ => inferInstanceAs (Decidable (∀ c ∈ s.current, _))

instance (s : State) : (purpose : Purpose) → (x : Seed) → Decidable (s.OpensSecret purpose x)
  | .start userId gameType, x =>
      inferInstanceAs (Decidable (s.inProgress userId gameType = false → x ∉ s.published))
  | .crashRound, x => inferInstanceAs (Decidable (x ∉ s.published))
  | .bet _, _ | .join .., _ => .isTrue trivial

instance (s : State) : (e : Event) → Decidable (Discreet s e)
  | .land call => inferInstanceAs (Decidable (∀ x ∈ s.sent.get call, s.Decided x))
  | .finish call true => inferInstanceAs (Decidable (∀ c ∈ s.calls.get call,
      s.OpensSecret c.purpose c.serverSeed))
  | .finish _ false | .request _ | .openRound _ | .settleRound _ | .confirm _ | .giveUp _
  | .direct _ | .move .. | .create .. | .playHouse .. | .cancel _ | .closeBets | .bust
  | .rotateServerSeed _ | .kill => .isTrue trivial

/-! ## Seeds in use -/

/-- A seed that has been drawn, and is not a user's next one. -/
def State.Drawn (s : State) : Seed → Prop
  | .user userId n => n ≤ s.rotation userId
  | .flip i => i < s.drawn
  | .crash n => n < s.drawn

/-- The seed of a call is of the kind it asks for. -/
def Purpose.Fits : Purpose → Seed → Prop
  | .bet userId, x | .start userId _, x => ∃ n, x = .user userId n
  | .join _ flipId, x => x = .flip flipId
  | .crashRound, x => ∃ n, x = .crash n

structure State.Sound (s : State) : Prop where
  published : ∀ x ∈ s.published, s.Drawn x
  sent : ∀ i x, s.sent.get i = some x → s.Drawn x
  call : ∀ i c, s.calls.get i = some c → s.Drawn c.serverSeed ∧ c.purpose.Fits c.serverSeed
  round : ∀ i r, s.rounds.get i = some r →
    s.Drawn r.serverSeed ∧ ∃ n, r.serverSeed = .user r.userId n
  flip : ∀ i f, s.flips.get i = some f → i < s.drawn
  current : ∀ c, s.current = some c → s.Drawn c.serverSeed ∧ ∃ n, c.serverSeed = .crash n

section Sound

variable {s s' : State} {x : Seed}

theorem State.Drawn.mono (h : s.Drawn x) (hrotation : ∀ u, s.rotation u ≤ s'.rotation u)
    (hdrawn : s.drawn ≤ s'.drawn) : s'.Drawn x := by
  cases x with
  | user userId => exact Nat.le_trans h (hrotation userId)
  | flip | crash => exact Nat.lt_of_lt_of_le h hdrawn

/-- A seed that is in use is decided exactly if it keys nothing. -/
theorem decided_iff (hs : s.Sound) (hx : s.Drawn x) : s.Decided x ↔ ¬ s.Keys x := by
  constructor
  · intro hdecided hkeys
    cases hkeys with
    | active => exact Nat.lt_irrefl _ hdecided.1
    | @round i r hget hactive =>
      obtain ⟨-, n, hn⟩ := hs.round i r hget
      rw [hn] at hdecided
      exact hdecided.2 _ (s.rounds.get_eq_some.mp hget) hactive hn
    | flip hget hopen =>
      have hclosed := hdecided _ hget
      rw [hopen] at hclosed
      cases hclosed
    | @crash c hcurrent haccepts =>
      obtain ⟨-, n, hn⟩ := hs.current c hcurrent
      rw [hn] at hdecided
      exact hdecided c hcurrent haccepts hn
  · intro hnone
    cases x with
    | user userId n =>
      refine ⟨?_, ?_⟩
      · have hne : n ≠ s.rotation userId := by
          rintro rfl
          exact hnone (.active userId)
        exact Nat.lt_of_le_of_ne hx hne
      · intro e he hactive heq
        rw [← heq] at hnone
        exact hnone (.round (s.rounds.get_eq_some.mpr he) hactive)
    | flip =>
      intro f hf
      cases hopen : f.isOpen with
      | false => rfl
      | true => exact absurd (.flip hf hopen) hnone
    | crash =>
      intro c hc haccepts heq
      rw [← heq] at hnone
      exact hnone (.crash hc haccepts)

end Sound

/-! ## What a step keys and publishes -/

section Secret

variable {s s' : State} {x : Seed}

/-- Nothing is keyed that was not. -/
structure Fewer (s s' : State) : Prop where
  rotation : ∀ u, s'.rotation u = s.rotation u
  rounds : ∀ i r, s'.rounds.get i = some r → r.isActive = true →
    ∃ j r', s.rounds.get j = some r' ∧ r'.isActive = true ∧ r'.serverSeed = r.serverSeed
  flips : ∀ i f, s'.flips.get i = some f → f.isOpen = true → s.flips.get i = some f
  current : ∀ c, s'.current = some c → c.acceptsBets = true → s.current = some c

theorem Fewer.of_eq (hrotations : s'.rotations = s.rotations) (hrounds : s'.rounds = s.rounds)
    (hflips : s'.flips = s.flips) (hcurrent : s'.current = s.current) : Fewer s s' where
  rotation u := by rw [State.rotation, State.rotation, hrotations]
  rounds i r hr hactive := ⟨i, r, hrounds ▸ hr, hactive, rfl⟩
  flips i f hf _ := hflips ▸ hf
  current c hc _ := hcurrent ▸ hc

theorem Fewer.keys (h : Fewer s s') (hx : s'.Keys x) : s.Keys x := by
  cases hx with
  | active userId =>
    rw [State.activeSeed, h.rotation]
    exact .active userId
  | round hget hactive =>
    obtain ⟨j, _, hget', hactive', heq⟩ := h.rounds _ _ hget hactive
    rw [← heq]
    exact .round hget' hactive'
  | flip hget hopen => exact .flip (h.flips _ _ hget hopen) hopen
  | crash hcurrent haccepts => exact .crash (h.current _ hcurrent haccepts) haccepts

theorem secret_kept (hs : s.Secret) (hpublished : s'.published = s.published)
    (hkeys : ∀ y, s'.Keys y → s.Keys y) : s'.Secret := by
  intro y hy
  rw [hpublished]
  exact hs y (hkeys y hy)

/-- A seed that keys something new has to be secret. -/
theorem secret_keyed (hs : s.Secret) (hpublished : s'.published = s.published) (hx : s'.Keys x)
    (hkeys : ∀ y, s'.Keys y → s.Keys y ∨ y = x) : s'.Secret ↔ x ∉ s.published := by
  constructor
  · intro hs'
    rw [← hpublished]
    exact hs' x hx
  · intro hout y hy
    rw [hpublished]
    rcases hkeys y hy with hold | rfl
    · exact hs y hold
    · exact hout

/-- A seed that gets out has to key nothing. -/
theorem secret_out (hs : s.Secret) (hpublished : s'.published = x :: s.published)
    (hkeys : ∀ y, s'.Keys y → s.Keys y ∨ y ∉ s.published) : s'.Secret ↔ ¬ s'.Keys x := by
  constructor
  · intro hs' hx
    have hnot := hs' x hx
    rw [hpublished] at hnot
    exact hnot (List.mem_cons_self ..)
  · intro hx y hy hmem
    rw [hpublished] at hmem
    rcases List.mem_cons.mp hmem with rfl | hmem
    · exact hx hy
    · rcases hkeys y hy with hold | hnew
      · exact hs y hold hmem
      · exact hnew hmem

end Secret

/-! ## Transactions -/

section Commit

variable {s : State} {x y : Seed} {flipId : FlipId} {creatorId : UserId} {purpose : Purpose}

theorem State.Sound.draw (hs : s.Sound) : s.draw.Sound where
  published := fun y hy => (hs.published y hy).mono (fun _ => le_rfl) (Nat.le_succ _)
  sent := fun i y hy => (hs.sent i y hy).mono (fun _ => le_rfl) (Nat.le_succ _)
  call := fun i c hc =>
    ⟨(hs.call i c hc).1.mono (fun _ => le_rfl) (Nat.le_succ _), (hs.call i c hc).2⟩
  round := fun i r hr =>
    ⟨(hs.round i r hr).1.mono (fun _ => le_rfl) (Nat.le_succ _), (hs.round i r hr).2⟩
  flip := fun i f hf => Nat.lt_succ_of_lt (hs.flip i f hf)
  current := fun c hc =>
    ⟨(hs.current c hc).1.mono (fun _ => le_rfl) (Nat.le_succ _), (hs.current c hc).2⟩

theorem State.Sound.publish (hs : s.Sound) (hx : s.Drawn x) : (s.publish x).Sound :=
  { hs with
    published := by
      intro y hy
      rcases List.mem_cons.mp hy with rfl | hy
      · exact hx
      · exact hs.published y hy }

theorem State.Sound.close (hs : s.Sound) (hlt : flipId < s.drawn) :
    (s.close flipId creatorId).Sound :=
  { hs with flip := s.flips.forall_set hs.flip hlt }

theorem State.Sound.insert (hs : s.Sound) {r : Round} (hdrawn : s.Drawn r.serverSeed)
    (hfits : ∃ n, r.serverSeed = .user r.userId n) : (s.insert r).Sound :=
  { hs.draw with
    round := s.rounds.forall_set hs.draw.round
      ⟨hdrawn.mono (fun _ => le_rfl) (Nat.le_succ _), hfits⟩ }

theorem sound_resolve (hs : s.Sound) : (s.resolve flipId).Sound := by
  unfold State.resolve
  split
  · rename_i creatorId hget
    have hlt := hs.flip flipId _ hget
    exact (hs.close hlt).publish hlt
  · exact hs

theorem sound_commit (hs : s.Sound) (hdrawn : s.Drawn x) (hfits : purpose.Fits x) :
    (s.commit purpose x).Sound := by
  cases purpose with
  | bet => exact hs
  | start =>
    unfold State.commit
    dsimp only
    split
    · exact hs
    · exact hs.insert hdrawn hfits
  | join => exact sound_resolve hs
  | crashRound =>
    exact { hs with
      current := by
        intro c hc
        cases hc
        exact ⟨hdrawn, hfits⟩ }

theorem fewer_close : Fewer s (s.close flipId creatorId) where
  rotation _ := rfl
  rounds i r hr hactive := ⟨i, r, hr, hactive, rfl⟩
  flips := by
    refine s.flips.forall_set (fun _ _ hf _ => hf) ?_
    intro hopen
    cases hopen
  current _ hc _ := hc

theorem keys_publish : (s.publish x).Keys y ↔ s.Keys y := by
  have hto : Fewer s (s.publish x) := .of_eq rfl rfl rfl rfl
  have hfrom : Fewer (s.publish x) s := .of_eq rfl rfl rfl rfl
  exact ⟨hto.keys, hfrom.keys⟩

/-- A flip that is resolved keys nothing more. -/
theorem secret_resolve (hs : s.Sound) (hsecret : s.Secret) : (s.resolve flipId).Secret := by
  unfold State.resolve
  split
  · rename_i creatorId hget
    have hlt := hs.flip flipId _ hget
    have hkept : (s.close flipId creatorId).Secret :=
      secret_kept hsecret rfl fun y => fewer_close.keys
    have hdrawn : (s.close flipId creatorId).Drawn (.flip flipId) := hlt
    refine (secret_out hkept rfl fun y hy => Or.inl (keys_publish.mp hy)).mpr ?_
    rw [keys_publish, ← decided_iff (hs.close hlt) hdrawn]
    intro f hf
    rw [State.close, Table.get_set_self] at hf
    cases hf
    rfl
  · exact hsecret

theorem keys_insert {r : Round} (h : (s.insert r).Keys y) : s.Keys y ∨ y = r.serverSeed := by
  cases h with
  | active userId => exact Or.inl (.active userId)
  | flip hget hopen => exact Or.inl (.flip hget hopen)
  | crash hcurrent haccepts => exact Or.inl (.crash hcurrent haccepts)
  | @round i r' hget hactive =>
    by_cases hi : i = s.drawn
    · subst hi
      rw [State.insert, Table.get_set_self] at hget
      cases hget
      exact Or.inr rfl
    · rw [State.insert, Table.get_set_ne _ hi] at hget
      exact Or.inl (.round hget hactive)

theorem keys_install {c : CrashRound} (h : (s.install c).Keys y) :
    s.Keys y ∨ y = c.serverSeed := by
  cases h with
  | active userId => exact Or.inl (.active userId)
  | round hget hactive => exact Or.inl (.round hget hactive)
  | flip hget hopen => exact Or.inl (.flip hget hopen)
  | crash hcurrent =>
    cases hcurrent
    exact Or.inr rfl

theorem secret_commit (hs : s.Sound) (hsecret : s.Secret) :
    (s.commit purpose x).Secret ↔ s.OpensSecret purpose x := by
  cases purpose with
  | bet => exact iff_of_true hsecret trivial
  | start userId gameType =>
    unfold State.commit State.OpensSecret
    dsimp only
    split
    · rename_i hprogress
      exact iff_of_true hsecret (by simp [hprogress])
    · rename_i hprogress
      have hkeys : (s.insert ⟨userId, gameType, x, true⟩).Keys x := by
        have hget : (s.insert ⟨userId, gameType, x, true⟩).rounds.get s.drawn =
            some ⟨userId, gameType, x, true⟩ := s.rounds.get_set_self
        exact .round hget rfl
      have hiff : (s.insert ⟨userId, gameType, x, true⟩).Secret ↔ x ∉ s.published :=
        secret_keyed hsecret rfl hkeys fun y => keys_insert
      simpa [hprogress] using hiff
  | join => exact iff_of_true (secret_resolve hs hsecret) trivial
  | crashRound =>
    have hkeys : (s.install ⟨x, true⟩).Keys x := by
      have hcurrent : (s.install ⟨x, true⟩).current = some ⟨x, true⟩ := rfl
      exact .crash hcurrent rfl
    exact secret_keyed hsecret rfl hkeys fun y => keys_install

/-- The seed that a request uses without the program. -/
theorem opens_seedOf (hs : s.Sound) (hsecret : s.Secret) :
    s.draw.OpensSecret purpose (s.seedOf purpose) := by
  cases purpose with
  | bet => trivial
  | start userId => exact fun _ => hsecret _ (.active userId)
  | join => trivial
  | crashRound => exact fun hmem => Nat.lt_irrefl _ (hs.published _ hmem)

theorem drawn_seedOf (hs : s.Sound) (hallows : s.allows purpose = true) :
    s.draw.Drawn (s.seedOf purpose) ∧ purpose.Fits (s.seedOf purpose) := by
  cases purpose with
  | bet | start => exact ⟨Nat.le_refl _, _, rfl⟩
  | join userId flipId =>
    simp only [State.allows, Option.any_eq_true] at hallows
    obtain ⟨f, hf, -⟩ := hallows
    exact ⟨Nat.lt_succ_of_lt (hs.flip flipId f hf), rfl⟩
  | crashRound => exact ⟨Nat.lt_succ_self _, _, rfl⟩

end Commit

/-! ## Steps -/

section Steps

variable {s s' : State} {call : Nat}

/-- A call that goes on keeps its seed. -/
theorem State.Sound.setCall (hs : s.Sound) {c : Call} (hget : s.calls.get call = some c)
    (stage : Stage) :
    ({ s with calls := s.calls.set call { c with stage := stage } } : State).Sound :=
  { hs with call := s.calls.forall_set hs.call (hs.call call c hget) }

theorem State.Sound.eraseCall (hs : s.Sound) :
    ({ s with calls := s.calls.erase call } : State).Sound :=
  { hs with call := s.calls.forall_erase hs.call }

theorem sound_advance (hs : s.Sound) {stage stage' : Stage}
    (h : s.advance call stage stage' = some s') : s'.Sound := by
  unfold State.advance at h
  split at h
  · rename_i c hget
    split at h
    · cases h
      exact hs.setCall hget stage'
    · cases h
  · cases h

theorem rotation_promote {userId u : UserId} : (s.promote userId).rotation u =
    if u = userId then s.rotation userId + 1 else s.rotation u := by
  rw [State.rotation, State.promote, Table.get_set]
  split
  · rfl
  · rfl

theorem sound_rotate (hs : s.Sound) {userId : UserId} (h : s.rotateServerSeed userId = some s') :
    s'.Sound := by
  unfold State.rotateServerSeed at h
  split at h
  · cases h
  · cases h
    have hlater : ∀ u, s.rotation u ≤ (s.promote userId).rotation u := by
      intro u
      rw [rotation_promote]
      by_cases hu : u = userId
      · simp [hu]
      · simp [hu]
    refine State.Sound.publish ?_ (hlater userId)
    exact {
      published := fun y hy => (hs.published y hy).mono hlater le_rfl
      sent := fun i y hy => (hs.sent i y hy).mono hlater le_rfl
      call := fun i c hc => ⟨(hs.call i c hc).1.mono hlater le_rfl, (hs.call i c hc).2⟩
      round := fun i r hr => ⟨(hs.round i r hr).1.mono hlater le_rfl, (hs.round i r hr).2⟩
      flip := hs.flip
      current := fun c hc => ⟨(hs.current c hc).1.mono hlater le_rfl, (hs.current c hc).2⟩ }

theorem sound_step (s : State) (e : Event) (s' : State) (hs : s.Sound) (h : step s e = some s') :
    s'.Sound := by
  cases e with
  | request =>
    simp only [step, State.request] at h
    split at h
    · rename_i hallows
      cases h
      exact { hs.draw with call := s.calls.forall_set hs.draw.call (drawn_seedOf hs hallows) }
    · cases h
  | openRound => exact sound_advance hs h
  | settleRound call =>
    simp only [step, State.settleRound] at h
    split at h
    · rename_i purpose serverSeed hget
      cases h
      exact { hs.setCall hget .settling with
        sent := s.sent.forall_set hs.sent (hs.call call _ hget).1 }
    · cases h
  | land call =>
    simp only [step, State.land] at h
    split at h
    · rename_i serverSeed hget
      cases h
      have herased : ({ s with sent := s.sent.erase call } : State).Sound :=
        { hs with sent := s.sent.forall_erase hs.sent }
      exact herased.publish (hs.sent call serverSeed hget)
    · cases h
  | confirm =>
    simp only [step] at h
    split at h
    · exact sound_advance hs h
    · cases h
  | giveUp =>
    simp only [step, State.giveUp] at h
    split at h
    · rename_i c hget
      cases h
      exact hs.setCall hget .returned
    · cases h
  | finish call committed =>
    simp only [step, State.finish] at h
    split at h
    · rename_i purpose serverSeed hget
      obtain ⟨hdrawn, hfits⟩ := hs.call call _ hget
      cases h
      cases committed with
      | false => exact hs.eraseCall
      | true => exact sound_commit hs.eraseCall hdrawn hfits
    · cases h
  | direct =>
    simp only [step, State.direct] at h
    split at h
    · rename_i hallows
      obtain ⟨hdrawn, hfits⟩ := drawn_seedOf hs hallows
      cases h
      exact sound_commit hs.draw hdrawn hfits
    · cases h
  | move roundId =>
    simp only [step, State.move] at h
    split at h
    · rename_i userId gameType serverSeed hget
      have hround := hs.round roundId _ hget
      cases h
      exact { hs with round := s.rounds.forall_set hs.round hround }
    · cases h
  | create userId vsHouse =>
    have hgame : ({ s.draw with flips := s.flips.set s.drawn ⟨userId, true⟩ } : State).Sound :=
      { hs.draw with flip := s.flips.forall_set hs.draw.flip (Nat.lt_succ_self _) }
    cases h
    cases vsHouse with
    | false => exact hgame
    | true => exact sound_resolve hgame
  | playHouse =>
    simp only [step, State.playHouse] at h
    split at h
    · cases h
      exact sound_resolve hs
    · cases h
  | cancel flipId =>
    simp only [step, State.cancel] at h
    split at h
    · rename_i creatorId hget
      cases h
      exact hs.close (hs.flip flipId _ hget)
    · cases h
  | closeBets =>
    cases h
    exact { hs with
      current := by
        intro c hc
        obtain ⟨c', hc', rfl⟩ := Option.map_eq_some_iff.mp hc
        exact hs.current c' hc' }
  | bust =>
    simp only [step, State.bust] at h
    split at h
    · rename_i serverSeed hcurrent
      cases h
      exact hs.publish (hs.current _ hcurrent).1
    · cases h
  | rotateServerSeed => exact sound_rotate hs h
  | kill =>
    cases h
    exact { hs with call := by simp, current := by simp }

/-! ## Secrecy of a step -/

theorem secret_of_eq (hsecret : s.Secret) (hpublished : s'.published = s.published)
    (hrotations : s'.rotations = s.rotations) (hrounds : s'.rounds = s.rounds)
    (hflips : s'.flips = s.flips) (hcurrent : s'.current = s.current) : s'.Secret :=
  secret_kept hsecret hpublished fun _ => (Fewer.of_eq hrotations hrounds hflips hcurrent).keys

theorem secret_advance (hsecret : s.Secret) {stage stage' : Stage}
    (h : s.advance call stage stage' = some s') : s'.Secret := by
  unfold State.advance at h
  split at h
  · split at h
    · cases h
      exact secret_of_eq hsecret rfl rfl rfl rfl rfl
    · cases h
  · cases h

/-- A transaction that lands keeps the secrets exactly if its seed is decided. -/
theorem secret_land (hs : s.Sound) (hsecret : s.Secret) (h : s.land call = some s') :
    s'.Secret ↔ Discreet s (.land call) := by
  unfold State.land at h
  split at h
  · rename_i x hget
    cases h
    have hsame : Fewer s { s with sent := s.sent.erase call } := .of_eq rfl rfl rfl rfl
    have hback : Fewer { s with sent := s.sent.erase call } s := .of_eq rfl rfl rfl rfl
    have hkept : ({ s with sent := s.sent.erase call } : State).Secret :=
      secret_kept hsecret rfl fun y => hsame.keys
    rw [secret_out hkept rfl fun y hy => Or.inl (keys_publish.mp hy), keys_publish]
    have hkeys : ({ s with sent := s.sent.erase call } : State).Keys x ↔ s.Keys x :=
      ⟨hsame.keys, hback.keys⟩
    rw [hkeys, ← decided_iff hs (hs.sent call x hget)]
    simp [Discreet, hget]
  · cases h

theorem isActive_false {P : Round → Bool} (h : ¬ s.isActive P = true) {i : RoundId} {r : Round}
    (hget : s.rounds.get i = some r) (hactive : r.isActive = true) : P r = false := by
  cases hP : P r with
  | false => rfl
  | true =>
    refine absurd (List.any_eq_true.mpr ⟨(i, r), s.rounds.get_eq_some.mp hget, ?_⟩) h
    simp [hactive, hP]

/-- The promoted seed is not out, and no round in progress is built from the old one. -/
theorem secret_rotate (hs : s.Sound) (hsecret : s.Secret) {userId : UserId}
    (h : s.rotateServerSeed userId = some s') : s'.Secret := by
  have hs' := sound_rotate hs h
  unfold State.rotateServerSeed at h
  split at h
  · cases h
  · rename_i hnone
    cases h
    have hkeys : ∀ y, (s.promote userId).Keys y →
        s.Keys y ∨ y = .user userId (s.rotation userId + 1) := by
      intro y hy
      cases hy with
      | active u =>
        rw [State.activeSeed, rotation_promote]
        by_cases hu : u = userId
        · simp [hu]
        · simp only [hu, if_false]
          exact Or.inl (.active u)
      | round hget hactive => exact Or.inl (.round hget hactive)
      | flip hget hopen => exact Or.inl (.flip hget hopen)
      | crash hget haccepts => exact Or.inl (.crash hget haccepts)
    have hnew : Seed.user userId (s.rotation userId + 1) ∉ s.published := by
      intro hmem
      exact Nat.lt_irrefl _ (hs.published _ hmem)
    have hkept : (s.promote userId).Secret := by
      intro y hy
      rcases hkeys y hy with hold | rfl
      · exact hsecret y hold
      · exact hnew
    refine (secret_out hkept rfl fun y hy => Or.inl (keys_publish.mp hy)).mpr ?_
    have hdrawn := hs'.published (s.activeSeed userId) (List.mem_cons_self ..)
    rw [← decided_iff hs' hdrawn]
    refine ⟨?_, ?_⟩
    · show s.rotation userId < (s.promote userId).rotation userId
      rw [rotation_promote]
      simp
    · intro e he hactive heq
      have hget : s.rounds.get e.1 = some e.2 := s.rounds.get_eq_some.mpr he
      obtain ⟨-, n, hn⟩ := hs.round _ _ hget
      have hother := isActive_false hnone hget hactive
      rw [hn] at heq
      cases heq
      simp at hother

theorem secret_step (hs : s.Sound) (hsecret : s.Secret) {e : Event} (h : step s e = some s') :
    s'.Secret ↔ Discreet s e := by
  cases e with
  | request =>
    simp only [step, State.request] at h
    split at h
    · cases h
      exact iff_of_true (secret_of_eq hsecret rfl rfl rfl rfl rfl) trivial
    · cases h
  | openRound => exact iff_of_true (secret_advance hsecret h) trivial
  | settleRound =>
    simp only [step, State.settleRound] at h
    split at h
    · cases h
      exact iff_of_true (secret_of_eq hsecret rfl rfl rfl rfl rfl) trivial
    · cases h
  | land => exact secret_land hs hsecret h
  | confirm =>
    simp only [step] at h
    split at h
    · exact iff_of_true (secret_advance hsecret h) trivial
    · cases h
  | giveUp =>
    simp only [step, State.giveUp] at h
    split at h
    · cases h
      exact iff_of_true (secret_of_eq hsecret rfl rfl rfl rfl rfl) trivial
    · cases h
  | finish call committed =>
    simp only [step, State.finish] at h
    split at h
    · rename_i purpose serverSeed hget
      cases h
      have hkept : ({ s with calls := s.calls.erase call } : State).Secret :=
        secret_of_eq hsecret rfl rfl rfl rfl rfl
      cases committed with
      | false => exact iff_of_true hkept trivial
      | true =>
        have hiff : _ ↔ State.OpensSecret _ purpose serverSeed :=
          secret_commit hs.eraseCall hkept
        refine hiff.trans ?_
        simp only [Discreet, hget, Option.mem_some_iff, forall_eq']
        rfl
    · cases h
  | direct =>
    simp only [step, State.direct] at h
    split at h
    · cases h
      have hkept : s.draw.Secret := secret_of_eq hsecret rfl rfl rfl rfl rfl
      exact iff_of_true ((secret_commit hs.draw hkept).mpr (opens_seedOf hs hsecret)) trivial
    · cases h
  | move roundId =>
    simp only [step, State.move] at h
    split at h
    · rename_i userId gameType serverSeed hget
      cases h
      refine iff_of_true (secret_kept hsecret rfl fun y => Fewer.keys ?_) trivial
      refine ⟨fun _ => rfl, ?_, fun _ _ hf _ => hf, fun _ hc _ => hc⟩
      exact s.rounds.forall_set (fun i r hr hactive => ⟨i, r, hr, hactive, rfl⟩)
        fun _ => ⟨roundId, _, hget, rfl, rfl⟩
    · cases h
  | create userId vsHouse =>
    cases h
    have hgame : ({ s.draw with flips := s.flips.set s.drawn ⟨userId, true⟩ } : State).Sound :=
      { hs.draw with flip := s.flips.forall_set hs.draw.flip (Nat.lt_succ_self _) }
    have hopen : ({ s.draw with flips := s.flips.set s.drawn ⟨userId, true⟩ } : State).Secret := by
      intro y hy hmem
      cases hy with
      | active u => exact hsecret _ (.active u) hmem
      | round hget hactive => exact hsecret _ (.round hget hactive) hmem
      | crash hget haccepts => exact hsecret _ (.crash hget haccepts) hmem
      | @flip i f hget hopen =>
        by_cases hi : i = s.drawn
        · subst hi
          exact Nat.lt_irrefl _ (hs.published _ hmem)
        · rw [Table.get_set_ne _ hi] at hget
          exact hsecret _ (.flip hget hopen) hmem
    cases vsHouse with
    | false => exact iff_of_true hopen trivial
    | true => exact iff_of_true (secret_resolve hgame hopen) trivial
  | playHouse =>
    simp only [step, State.playHouse] at h
    split at h
    · cases h
      exact iff_of_true (secret_resolve hs hsecret) trivial
    · cases h
  | cancel =>
    simp only [step, State.cancel] at h
    split at h
    · cases h
      exact iff_of_true (secret_kept hsecret rfl fun y => fewer_close.keys) trivial
    · cases h
  | closeBets =>
    cases h
    refine iff_of_true (secret_kept hsecret rfl fun y => Fewer.keys ?_) trivial
    refine ⟨fun _ => rfl, fun i r hr hactive => ⟨i, r, hr, hactive, rfl⟩, fun _ _ hf _ => hf, ?_⟩
    intro c hc haccepts
    obtain ⟨_, _, rfl⟩ := Option.map_eq_some_iff.mp hc
    cases haccepts
  | bust =>
    simp only [step, State.bust] at h
    split at h
    · rename_i serverSeed hcurrent
      cases h
      obtain ⟨hdrawn, n, hn⟩ := hs.current _ hcurrent
      refine iff_of_true ((secret_out hsecret rfl fun y hy =>
        Or.inl (keys_publish.mp hy)).mpr ?_) trivial
      rw [keys_publish, ← decided_iff hs hdrawn, hn]
      intro c hc haccepts
      rw [hcurrent] at hc
      cases hc
      cases haccepts
    · cases h
  | rotateServerSeed => exact iff_of_true (secret_rotate hs hsecret h) trivial
  | kill =>
    cases h
    refine iff_of_true (secret_kept hsecret rfl fun y => Fewer.keys ?_) trivial
    exact ⟨fun _ => rfl, fun i r hr hactive => ⟨i, r, hr, hactive, rfl⟩, fun _ _ hf _ => hf,
      by simp⟩

end Steps

/-! ## Runs -/

theorem sound_init : State.init.Sound where
  published := by simp [State.init]
  sent := by simp [State.init]
  call := by simp [State.init]
  round := by simp [State.init]
  flip := by simp [State.init]
  current := by simp [State.init]

theorem secret_init : State.init.Secret := by
  intro y _
  simp [State.init]

/-- The seeds stay secret all along a run exactly if every step is discreet. -/
theorem seeds_secret_iff {es : List Event} {t : State} (hrun : run step State.init es = some t) :
    Throughout step State.init es State.Secret ↔ Along step Discreet State.init es :=
  throughout_iff_along sound_step (fun _ _ _ hs hsecret h => secret_step hs hsecret h) sound_init
    secret_init hrun

namespace Sample

/-- User 1 bets with the program live and rotates before the settle lands; then
user 2 opens a flip that user 1 joins, and a crash round is played, off chain. -/
def rotated : List Event :=
  [.request (.bet 1), .openRound 0, .settleRound 0, .rotateServerSeed 1, .land 0, .confirm 0,
    .finish 0 true, .create 2 false, .direct (.join 1 1), .direct .crashRound, .closeBets, .bust]

theorem seeds_secret_iff_rotated : ∃ t, run step State.init rotated = some t ∧
    .user 1 0 ∈ t.published ∧ Throughout step State.init rotated State.Secret := by
  obtain ⟨t, ht, hout⟩ : ∃ t, run step State.init rotated = some t ∧ .user 1 0 ∈ t.published := by
    decide +kernel
  exact ⟨t, ht, hout, (seeds_secret_iff ht).mpr (by decide +kernel)⟩

/-- A mines round of user 1, with the program live. -/
def mines : List Event :=
  [.request (.start 1 .mines), .openRound 0, .settleRound 0, .land 0, .confirm 0, .finish 0 true]

/-- The seed that the field in progress is built from, and that keys all further bets,
is an argument of the program. -/
theorem settle_round_reveals : ∃ s r, run step State.init mines = some s ∧
    s.rounds.get 1 = some r ∧ r.isActive = true ∧ r.serverSeed = s.activeSeed 1 ∧
    s.activeSeed 1 ∈ s.published ∧ ¬ s.Secret := by
  have hrun : (run step State.init mines).any (fun s =>
      s.rounds.get 1 == some ⟨1, .mines, .user 1 0, true⟩ && s.activeSeed 1 == .user 1 0 &&
        decide (s.activeSeed 1 ∈ s.published)) = true := by decide +kernel
  obtain ⟨s, hs, hfacts⟩ := (Option.any_eq_true _ _).mp hrun
  simp only [Bool.and_eq_true, decide_eq_true_eq, beq_iff_eq] at hfacts
  obtain ⟨⟨hround, hactive⟩, hpublished⟩ := hfacts
  exact ⟨s, _, hs, hround, rfl, hactive.symm, hpublished,
    fun hsecret => hsecret _ (.active 1) hpublished⟩

end Sample

end Scadium.Solana.OnchainRng
