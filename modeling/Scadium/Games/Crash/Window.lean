/-
Scadium.Games.Crash.Window — the betting window of a crash round against
the clock of the beacon (`games/crash/crash.engine.ts`, ADR 0004).

`startNewRound` reads the clock once, pins the first beacon round published
after `openedAt + BET_WINDOW_MS`, and awaits the database and the chain
before it installs the round and again, once per queued bet, before it arms
the timer that closes the window. The timer is armed for `BET_WINDOW_MS`
from then on. So the window closes later than the pinned instant by
whatever the awaits took, and the next beacon round is at most 3 s away.

The model is one process. Time passes between steps by any amount, also
past the due time of a timer. Who calls `startNewRound` and
`timers.reset()` is left open: either can happen at any time, so several
openings may be in flight at once. `accepted` is a log of the accepted
bets, which no step reads.

A run is fine if its windows close in time (`ClosesInTime`), and they do if
timers fire when due and the awaits are short (`closesInTime_of_prompt`).
-/
import Scadium.Games.Crash.Engine

namespace Scadium.Games.Crash.Window

open Scadium.Lib Scadium.Prisma Scadium.Shared

/-! ## State -/

/-- What `startNewRound` fixes before it awaits the database. -/
structure Pin where
  openedAt : Time
  beaconRound : Option Int
  deriving DecidableEq

/-- A queued bet. `seq` is its place in the insertion order of the map. -/
structure Queued where
  seq : Nat
  bet : BetParams
  deriving DecidableEq

/-- Where a call of `startNewRound` is suspended: in the chain anchoring, in
the creation of the rows, before the queued bet from place `next` on, or in
the transaction that binds a queued bet to the round. -/
inductive Await where
  | anchoring
  | creating (pin : Pin)
  | draining (pin : Pin) (next : Nat)
  | binding (pin : Pin) (queued : Queued)
  deriving DecidableEq

/-- A call of `startNewRound`, with the timer generation it captured. -/
structure Opening where
  gen : Nat
  at_ : Await
  deriving DecidableEq

/-- A pending `beginRun` timer. -/
structure Armed where
  pin : Pin
  due : Time
  deriving DecidableEq

/-- An accepted bet: the beacon round of the round it entered, and when. -/
structure Accepted where
  beaconRound : Option Int
  acceptedAt : Time
  deriving DecidableEq

structure State where
  now : Time
  isLeader : Bool
  shutdown : Bool
  generation : Nat
  timers : List Armed
  openings : Nat → Option Opening
  nextRoundBets : List Queued
  nextSeq : Nat
  current : Option Round
  accepted : List Accepted

/-- A process that has just started. -/
def State.boot (now : Time) : State where
  now := now
  isLeader := false
  shutdown := false
  generation := 0
  timers := []
  openings _ := none
  nextRoundBets := []
  nextSeq := 0
  current := none
  accepted := []

/-- `beacon.enabled` and `chain.enabled` -/
structure Config where
  beaconEnabled : Bool
  chainEnabled : Bool

/-! ## Steps -/

inductive Event where
  /-- Time passes. -/
  | advance (ms : Nat)
  | elect (leader : Bool)
  /-- `timers.reset()` -/
  | reset
  /-- `startNewRound` is called. -/
  | start (o : Nat)
  /-- The anchoring is over: the clock is read and a beacon round pinned. -/
  | pin (o : Nat) (rngAnchored : Bool)
  /-- The rows exist: the round is installed, unless it was abandoned. -/
  | install (o : Nat) (created : Created)
  /-- An await of the call threw. -/
  | fail (o : Nat)
  /-- The next queued bet is placed, and its transaction begins. -/
  | drainNext (o : Nat)
  /-- That transaction ended. -/
  | drainBound (o : Nat) (committed : Bool)
  /-- The queue is drained: the timer of the betting window is armed. -/
  | arm (o : Nat)
  /-- A timer fires: `beginRun`. -/
  | beginRun (armed : Armed)
  /-- The bust is derived and the round flies. -/
  | running
  | bust
  /-- `drain()`, on shutdown. -/
  | shutdown
  | scheduleBet (params : BetParams)
  | cancelScheduled (userId : UserId)
  /-- `placeBet`, called by the service. -/
  | placeBet (params : BetParams)
  deriving DecidableEq

/-- The first queued bet from place `next` on. -/
def State.nextQueued (s : State) (next : Nat) : Option Queued :=
  s.nextRoundBets.find? fun q => decide (next ≤ q.seq)

/-- `startNewRound`, once the anchoring is over: the clock is read once. -/
def pinAt (cfg : Config) (now : Time) (rngAnchored : Bool) : Pin where
  openedAt := now
  beaconRound :=
    if !rngAnchored && cfg.beaconEnabled then some (beaconRoundAfter (now + CRASH.BET_WINDOW_MS))
    else none

def State.setOpening (s : State) (o : Nat) (opening : Option Opening) : State :=
  { s with openings := Function.update s.openings o opening }

/-- The engine's `placeBet` on the round in memory; a refused call changes
nothing. -/
def State.place (cfg : Config) (s : State) (params : BetParams) : Option State :=
  match s.current with
  | none => none
  | some round =>
      match Crash.placeBet cfg.chainEnabled s.shutdown round params with
      | .error _ => none
      | .ok round' =>
          some { s with
            current := some round'
            accepted := ⟨round.beaconRound, s.now⟩ :: s.accepted }

/-- `this.current` with a field assigned, if there is a round. -/
def State.assign (s : State) (f : Round → Round) : State := { s with current := s.current.map f }

def startNewRound (s : State) (o : Nat) : Option State :=
  if s.isLeader ∧ ¬ s.shutdown ∧ s.openings o = none then
    some (s.setOpening o (some ⟨s.generation, .anchoring⟩))
  else none

def install (s : State) (o : Nat) (created : Created) : Option State :=
  match s.openings o with
  | some ⟨gen, .creating pin⟩ =>
      if gen = s.generation then
        some { s.setOpening o (some ⟨gen, .draining pin 0⟩) with
          current := some (created.round pin.openedAt pin.beaconRound) }
      else some (s.setOpening o none)
  | _ => none

/-- A queued bet that the engine refuses is taken out of the round. -/
def drainNext (cfg : Config) (s : State) (o : Nat) : Option State :=
  match s.openings o with
  | some ⟨gen, .draining pin next⟩ =>
      match s.nextQueued next with
      | none => none
      | some queued =>
          match s.place cfg queued.bet with
          | some s' => some (s'.setOpening o (some ⟨gen, .binding pin queued⟩))
          | none =>
              some ((s.assign (·.delete queued.bet.userId)).setOpening o
                (some ⟨gen, .draining pin (queued.seq + 1)⟩))
  | _ => none

def drainBound (s : State) (o : Nat) (committed : Bool) : Option State :=
  match s.openings o with
  | some ⟨gen, .binding pin queued⟩ =>
      let s' := if committed then s else s.assign (·.delete queued.bet.userId)
      some (s'.setOpening o (some ⟨gen, .draining pin (queued.seq + 1)⟩))
  | _ => none

def arm (s : State) (o : Nat) : Option State :=
  match s.openings o with
  | some ⟨gen, .draining pin next⟩ =>
      if s.nextQueued next = none then
        let s' := { s.setOpening o none with nextRoundBets := [] }
        if gen = s.generation then
          some { s' with timers := ⟨pin, s.now + CRASH.BET_WINDOW_MS⟩ :: s'.timers }
        else some s'
      else none
  | _ => none

/-- Up to the first await: nothing, unless this process still leads. -/
def beginRun (s : State) (armed : Armed) : Option State :=
  if armed ∈ s.timers ∧ armed.due ≤ s.now then
    let s' := { s with timers := s.timers.erase armed }
    some (if s.isLeader then s'.assign fun r => { r with betsClosed := true } else s')
  else none

def step (cfg : Config) (s : State) : Event → Option State
  | .advance ms => some { s with now := s.now + ms }
  | .elect leader => some { s with isLeader := leader }
  | .reset => some { s with generation := s.generation + 1, timers := [] }
  | .start o => startNewRound s o
  | .pin o rngAnchored =>
      match s.openings o with
      | some ⟨gen, .anchoring⟩ =>
          some (s.setOpening o (some ⟨gen, .creating (pinAt cfg s.now rngAnchored)⟩))
      | _ => none
  | .install o created => install s o created
  | .fail o => some (s.setOpening o none)
  | .drainNext o => drainNext cfg s o
  | .drainBound o committed => drainBound s o committed
  | .arm o => arm s o
  | .beginRun armed => beginRun s armed
  | .running =>
      if s.current.any (·.betsClosed) then
        some (s.assign fun r => { r with phase := .running, startedAt := some s.now })
      else none
  | .bust =>
      if s.current.any (·.phase == .running) then
        some (s.assign fun r => { r with phase := .busted })
      else none
  | .shutdown =>
      if s.isLeader ∧ s.current.isSome then some { s with shutdown := true, nextRoundBets := [] }
      else none
  | .scheduleBet params =>
      if ¬ s.shutdown ∧ s.nextRoundBets.all (·.bet.userId != params.userId) then
        some { s with
          nextRoundBets := s.nextRoundBets ++ [⟨s.nextSeq, params⟩]
          nextSeq := s.nextSeq + 1 }
      else none
  | .cancelScheduled userId =>
      some { s with nextRoundBets := s.nextRoundBets.filter (·.bet.userId != userId) }
  | .placeBet params => some ((s.place cfg params).getD s)

/-! ## Secrecy -/

/-- The value of the pinned beacon round is not public yet. -/
def Secret (beaconRound : Option Int) (now : Time) : Prop :=
  ∀ b, beaconRound = some b → (now : Int) < beaconRoundTimeMs b

/-- The accepted bet was accepted before its beacon round was published. -/
def Accepted.InTime (a : Accepted) : Prop := Secret a.beaconRound a.acceptedAt

/-- The engine would take a bet now. -/
def State.Taking (s : State) (round : Round) : Prop :=
  s.current = some round ∧ round.isOpen = true ∧ s.shutdown = false

/-- The window is closed in time: the clock does not reach the publication
of a pinned round while the engine takes bets on it, nor has it reached it
when that round is installed. -/
def ClosesInTime (s : State) : Event → Prop
  | .advance ms => ∀ round, s.Taking round → Secret round.beaconRound (s.now + ms)
  | .install o _ =>
      ∀ pin, s.openings o = some ⟨s.generation, .creating pin⟩ → Secret pin.beaconRound s.now
  | _ => True

/-! ## The invariant of the runs that close in time -/

structure Inv (s : State) : Prop where
  accepted : ∀ a ∈ s.accepted, a.InTime
  taking : ∀ round, s.Taking round → Secret round.beaconRound s.now

theorem Inv.boot (now : Time) : Inv (State.boot now) where
  accepted := by simp [State.boot]
  taking := by
    intro round htaking
    cases htaking.1

/-- Nothing that the invariant reads is touched. -/
theorem Inv.of_eq {s s' : State} (hs : Inv s) (hcurrent : s'.current = s.current)
    (hnow : s'.now = s.now) (hshutdown : s'.shutdown = s.shutdown)
    (haccepted : s'.accepted = s.accepted) : Inv s' where
  accepted := by
    rw [haccepted]
    exact hs.accepted
  taking := by
    intro round htaking
    rw [hnow]
    rw [State.Taking, hcurrent, hshutdown] at htaking
    exact hs.taking round htaking

/-- A change of the round that opens no window and keeps the beacon round. -/
theorem Inv.assign {s : State} {f : Round → Round} (hs : Inv s)
    (hbeacon : ∀ r, (f r).beaconRound = r.beaconRound)
    (hopen : ∀ r, (f r).isOpen = true → r.isOpen = true) : Inv (s.assign f) where
  accepted := hs.accepted
  taking := by
    intro round ⟨hcurrent, hround, hshutdown⟩
    simp only [State.assign, Option.map_eq_some_iff] at hcurrent
    obtain ⟨r, hr, rfl⟩ := hcurrent
    rw [hbeacon]
    exact hs.taking r ⟨hr, hopen r hround, hshutdown⟩

/-- The one step that accepts a bet, from a state where the engine's pinned
round is still secret. -/
theorem Inv.place {cfg : Config} {s s' : State} {params : BetParams} (hs : Inv s)
    (h : s.place cfg params = some s') : Inv s' := by
  unfold State.place at h
  split at h
  · cases h
  · rename_i round hround
    split at h
    · cases h
    · rename_i round' hplace
      cases h
      obtain ⟨hshutdown, hopen, -, -, _, -, rfl⟩ := placeBet_ok hplace
      have hsecret : Secret round.beaconRound s.now := hs.taking round ⟨hround, hopen, hshutdown⟩
      constructor
      · intro a ha
        rcases List.mem_cons.mp ha with rfl | hold
        · exact hsecret
        · exact hs.accepted a hold
      · rintro _ ⟨hcurrent, -, -⟩
        cases hcurrent
        exact hsecret

theorem Inv.install {s s' : State} {o : Nat} {created : Created} (hs : Inv s)
    (hok : ClosesInTime s (.install o created)) (h : install s o created = some s') : Inv s' := by
  unfold Window.install at h
  split at h
  · rename_i gen pin hopening
    split at h
    · rename_i hgen
      cases h
      subst hgen
      refine ⟨hs.accepted, ?_⟩
      rintro _ ⟨hcurrent, -, -⟩
      cases hcurrent
      exact hok pin hopening
    · cases h
      exact hs.of_eq rfl rfl rfl rfl
  · cases h

theorem Inv.delete {s : State} (hs : Inv s) (userId : UserId) :
    Inv (s.assign (·.delete userId)) :=
  hs.assign (fun _ => rfl) fun _ h => h

theorem Inv.setOpening {s : State} (hs : Inv s) (o : Nat) (opening : Option Opening) :
    Inv (s.setOpening o opening) := hs.of_eq rfl rfl rfl rfl

theorem Inv.drainNext {cfg : Config} {s s' : State} {o : Nat} (hs : Inv s)
    (h : drainNext cfg s o = some s') : Inv s' := by
  unfold Window.drainNext at h
  split at h
  · split at h
    · cases h
    · split at h
      · rename_i hplace
        cases h
        exact (hs.place hplace).setOpening _ _
      · cases h
        exact (hs.delete _).setOpening _ _
  · cases h

theorem Inv.drainBound {s s' : State} {o : Nat} {committed : Bool} (hs : Inv s)
    (h : drainBound s o committed = some s') : Inv s' := by
  unfold Window.drainBound at h
  split at h
  · cases h
    cases committed with
    | true => exact hs.setOpening _ _
    | false => exact (hs.delete _).setOpening _ _
  · cases h

theorem Inv.arm {s s' : State} {o : Nat} (hs : Inv s) (h : arm s o = some s') : Inv s' := by
  unfold Window.arm at h
  split at h
  · split at h
    · dsimp only at h
      split at h
      · cases h
        exact hs.of_eq rfl rfl rfl rfl
      · cases h
        exact hs.of_eq rfl rfl rfl rfl
    · cases h
  · cases h

theorem Inv.beginRun {s s' : State} {armed : Armed} (hs : Inv s)
    (h : beginRun s armed = some s') : Inv s' := by
  unfold Window.beginRun at h
  split at h
  · cases h
    have herase : Inv { s with timers := s.timers.erase armed } := hs.of_eq rfl rfl rfl rfl
    split
    · refine herase.assign (fun _ => rfl) ?_
      intro r hr
      simp [Round.isOpen] at hr
    · exact herase
  · cases h

/-- One step, while the windows close in time. -/
theorem Inv.step {cfg : Config} {s s' : State} {e : Event} (hok : ClosesInTime s e) (hs : Inv s)
    (h : step cfg s e = some s') : Inv s' := by
  cases e with
  | advance =>
    cases h
    exact ⟨hs.accepted, hok⟩
  | elect | reset | cancelScheduled => cases h; exact hs.of_eq rfl rfl rfl rfl
  | start =>
    simp only [Window.step, startNewRound] at h
    split at h
    · cases h
      exact hs.setOpening _ _
    · cases h
  | pin =>
    simp only [Window.step] at h
    split at h
    · cases h
      exact hs.setOpening _ _
    · cases h
  | install => exact hs.install hok h
  | fail => cases h; exact hs.setOpening _ _
  | drainNext => exact hs.drainNext h
  | drainBound => exact hs.drainBound h
  | arm => exact hs.arm h
  | beginRun => exact hs.beginRun h
  | running | bust =>
    simp only [Window.step] at h
    split at h
    · cases h
      refine hs.assign (fun _ => rfl) ?_
      intro r hr
      simp [Round.isOpen] at hr
    · cases h
  | shutdown =>
    simp only [Window.step] at h
    split at h
    · cases h
      refine ⟨hs.accepted, ?_⟩
      rintro _ ⟨-, -, hshutdown⟩
      cases hshutdown
    · cases h
  | scheduleBet =>
    simp only [Window.step] at h
    split at h
    · cases h
      exact hs.of_eq rfl rfl rfl rfl
    · cases h
  | placeBet params =>
    cases h
    cases hplace : s.place cfg params with
    | none => exact hs
    | some => exact hs.place hplace

/-! ## How late the timer is -/

/-- What `startNewRound` pinned, and when. -/
structure Pin.Good (pin : Pin) (now : Time) : Prop where
  opened : pin.openedAt ≤ now
  beacon : ∀ b, pin.beaconRound = some b → b = beaconRoundAfter (pin.openedAt + CRASH.BET_WINDOW_MS)

/-- What a suspended call has pinned. -/
def Await.pin? : Await → Option Pin
  | .anchoring => none
  | .creating pin => some pin
  | .draining pin _ => some pin
  | .binding pin _ => some pin

/-- The windows on their way: every timer is armed `BET_WINDOW_MS` after
some moment that is not before its round was pinned. -/
structure Clocked (s : State) : Prop where
  openings : ∀ o op pin, s.openings o = some op → op.at_.pin? = some pin → pin.Good s.now
  timers : ∀ armed ∈ s.timers, ∃ armedAt, armed.pin.Good armedAt ∧
    armed.due = armedAt + CRASH.BET_WINDOW_MS

theorem Pin.Good.mono {pin : Pin} {now later : Time} (h : pin.Good now) (hle : now ≤ later) :
    pin.Good later := ⟨le_trans h.opened hle, h.beacon⟩

theorem pinAt_good (cfg : Config) (now : Time) (rngAnchored : Bool) :
    (pinAt cfg now rngAnchored).Good now where
  opened := le_refl now
  beacon := by
    intro b hb
    simp only [pinAt] at hb
    split at hb
    · exact (Option.some.inj hb).symm
    · cases hb

theorem Clocked.boot (now : Time) : Clocked (State.boot now) where
  openings := by simp [State.boot]
  timers := by simp [State.boot]

/-- Openings and timers are untouched and the clock does not go back. -/
theorem Clocked.of_eq {s s' : State} (hs : Clocked s) (hopenings : s'.openings = s.openings)
    (htimers : ∀ armed ∈ s'.timers, armed ∈ s.timers) (hnow : s.now ≤ s'.now) : Clocked s' where
  openings := by
    intro o op pin hop hpin
    rw [hopenings] at hop
    exact (hs.openings o op pin hop hpin).mono hnow
  timers := fun armed harmed => hs.timers armed (htimers armed harmed)

theorem Clocked.setOpening {s : State} (hs : Clocked s) (o : Nat) {opening : Option Opening}
    (hpin : ∀ op pin, opening = some op → op.at_.pin? = some pin → pin.Good s.now) :
    Clocked (s.setOpening o opening) where
  openings := by
    intro o' op pin hop hget
    simp only [State.setOpening, Function.update_apply] at hop
    split at hop
    · exact hpin op pin hop hget
    · exact hs.openings o' op pin hop hget
  timers := hs.timers

/-- A suspended call that moves on keeps what it pinned. -/
theorem Clocked.advance {s : State} (hs : Clocked s) {o gen : Nat} {at_ : Await} {pin : Pin}
    (hop : s.openings o = some ⟨gen, at_⟩) (hpin : at_.pin? = some pin) {next : Await}
    (hnext : next.pin? = some pin) : Clocked (s.setOpening o (some ⟨gen, next⟩)) := by
  refine hs.setOpening o ?_
  intro op pin' heq hget
  cases heq
  rw [hnext] at hget
  cases hget
  exact hs.openings o _ pin hop hpin

theorem place_frame {cfg : Config} {s s' : State} {params : BetParams}
    (h : s.place cfg params = some s') :
    s'.openings = s.openings ∧ s'.timers = s.timers ∧ s'.now = s.now := by
  unfold State.place at h
  split at h
  · cases h
  · split at h
    · cases h
    · cases h
      exact ⟨rfl, rfl, rfl⟩

theorem Clocked.place {cfg : Config} {s s' : State} {params : BetParams} (hs : Clocked s)
    (h : s.place cfg params = some s') : Clocked s' := by
  obtain ⟨hopenings, htimers, hnow⟩ := place_frame h
  exact hs.of_eq hopenings (by simp [htimers]) (by simp [hnow])

theorem Clocked.assign {s : State} (hs : Clocked s) (f : Round → Round) : Clocked (s.assign f) :=
  hs.of_eq rfl (fun _ h => h) (le_refl _)

theorem Clocked.drainNext {cfg : Config} {s s' : State} {o : Nat} (hs : Clocked s)
    (h : drainNext cfg s o = some s') : Clocked s' := by
  unfold Window.drainNext at h
  split at h
  · rename_i gen pin next hop
    split at h
    · cases h
    · split at h
      · rename_i s₁ hplace
        cases h
        have hop₁ : s₁.openings o = some ⟨gen, .draining pin next⟩ := by
          rw [(place_frame hplace).1]
          exact hop
        exact (hs.place hplace).advance hop₁ rfl rfl
      · cases h
        exact (hs.assign _).advance hop rfl rfl
  · cases h

theorem Clocked.drainBound {s s' : State} {o : Nat} {committed : Bool} (hs : Clocked s)
    (h : drainBound s o committed = some s') : Clocked s' := by
  unfold Window.drainBound at h
  split at h
  · rename_i hop
    cases h
    cases committed with
    | true => exact hs.advance hop rfl rfl
    | false => exact (hs.assign _).advance hop rfl rfl
  · cases h

/-- The timer is armed for one betting window from now. -/
theorem Clocked.arm {s s' : State} {o : Nat} (hs : Clocked s) (h : arm s o = some s') :
    Clocked s' := by
  unfold Window.arm at h
  split at h
  · rename_i gen pin next hop
    have hgood : pin.Good s.now := hs.openings o _ pin hop rfl
    have hended : Clocked (s.setOpening o none) := hs.setOpening o (by simp)
    split at h
    · dsimp only at h
      split at h
      · cases h
        refine ⟨hended.openings, ?_⟩
        intro armed harmed
        rcases List.mem_cons.mp harmed with rfl | hold
        · exact ⟨s.now, hgood, rfl⟩
        · exact hended.timers armed hold
      · cases h
        exact hended.of_eq rfl (fun _ h => h) (le_refl _)
    · cases h
  · cases h

theorem Clocked.install {s s' : State} {o : Nat} {created : Created} (hs : Clocked s)
    (h : install s o created = some s') : Clocked s' := by
  unfold Window.install at h
  split at h
  · rename_i gen pin hop
    split at h
    · cases h
      have hmoved : Clocked (s.setOpening o (some ⟨gen, .draining pin 0⟩)) :=
        hs.advance hop rfl rfl
      exact hmoved.of_eq rfl (fun _ h => h) (le_refl _)
    · cases h
      exact hs.setOpening o (by simp)
  · cases h

theorem Clocked.beginRun {s s' : State} {armed : Armed} (hs : Clocked s)
    (h : beginRun s armed = some s') : Clocked s' := by
  unfold Window.beginRun at h
  split at h
  · cases h
    have herase : Clocked { s with timers := s.timers.erase armed } :=
      hs.of_eq rfl (fun _ h => List.mem_of_mem_erase h) (le_refl _)
    split
    · exact herase.assign _
    · exact herase
  · cases h

theorem Clocked.step {cfg : Config} {s s' : State} {e : Event} (hs : Clocked s)
    (h : step cfg s e = some s') : Clocked s' := by
  cases e with
  | advance => cases h; exact hs.of_eq rfl (fun _ h => h) (Nat.le_add_right _ _)
  | elect | cancelScheduled => cases h; exact hs.of_eq rfl (fun _ h => h) (le_refl _)
  | reset => cases h; exact hs.of_eq rfl (by simp) (le_refl _)
  | start o =>
    simp only [Window.step, startNewRound] at h
    split at h
    · cases h
      refine hs.setOpening o ?_
      intro op pin heq hget
      cases heq
      cases hget
    · cases h
  | pin o rngAnchored =>
    simp only [Window.step] at h
    split at h
    · cases h
      refine hs.setOpening o ?_
      intro op pin heq hget
      cases heq
      cases hget
      exact pinAt_good cfg s.now rngAnchored
    · cases h
  | install => exact hs.install h
  | fail o => cases h; exact hs.setOpening o (by simp)
  | drainNext => exact hs.drainNext h
  | drainBound => exact hs.drainBound h
  | arm => exact hs.arm h
  | beginRun => exact hs.beginRun h
  | running | bust =>
    simp only [Window.step] at h
    split at h
    · cases h; exact hs.assign _
    · cases h
  | shutdown | scheduleBet =>
    simp only [Window.step] at h
    split at h
    · cases h; exact hs.of_eq rfl (fun _ h => h) (le_refl _)
    · cases h
  | placeBet params =>
    cases h
    cases hplace : s.place cfg params with
    | none => exact hs
    | some => exact hs.place hplace

/-- What is left of the beacon period in which the window should end. -/
def slack (pin : Pin) : Int :=
  3000 - ((pin.openedAt + CRASH.BET_WINDOW_MS : Nat) - FAIR_BEACON.GENESIS_TIME_SEC * 1000 : Int) % 3000

/-- What the awaits between the pin and the timer took. -/
def delay (armed : Armed) : Int :=
  (armed.due : Int) - (armed.pin.openedAt + CRASH.BET_WINDOW_MS : Nat)

/-- The publication comes what is left of the period after the end of a window
that opens with the pin. -/
theorem Pin.Good.secret_iff {pin : Pin} {now later : Time} {b : Int} (h : pin.Good now)
    (hb : pin.beaconRound = some b) : Secret pin.beaconRound later ↔
      (later : Int) < (pin.openedAt + CRASH.BET_WINDOW_MS : Nat) + slack pin := by
  have hpublish := beaconRoundTimeMs_after (pin.openedAt + CRASH.BET_WINDOW_MS)
  rw [← h.beacon b hb] at hpublish
  have hsecret : Secret pin.beaconRound later ↔ (later : Int) < beaconRoundTimeMs b := by
    simp [Secret, hb]
  rw [hsecret, hpublish]
  unfold slack
  omega

/-- A timer comes before the publication exactly if the delay is less than
what was left of the period. -/
theorem Clocked.due_secret {s : State} (hs : Clocked s) {armed : Armed} (harmed : armed ∈ s.timers)
    {b : Int} (hb : armed.pin.beaconRound = some b) :
    0 ≤ delay armed ∧ (Secret armed.pin.beaconRound armed.due ↔ delay armed < slack armed.pin) := by
  obtain ⟨armedAt, hgood, hdue⟩ := hs.timers armed harmed
  have hopened : (armed.pin.openedAt : Int) ≤ armedAt := Int.ofNat_le.mpr hgood.opened
  constructor
  · rw [delay, hdue]
    push_cast
    omega
  · rw [hgood.secret_iff hb, delay]
    omega

/-- The window of a round with this beacon round is about to end: its timer
is pending, not overdue and armed in time, or the awaits of its opening have
not used up what is left of the beacon period. -/
def State.Ending (s : State) (beaconRound : Option Int) (now : Time) : Prop :=
  (∃ armed ∈ s.timers, armed.pin.beaconRound = beaconRound ∧ now ≤ armed.due ∧
    delay armed < slack armed.pin) ∨
  ∃ o op pin, s.openings o = some op ∧ op.at_.pin? = some pin ∧ pin.beaconRound = beaconRound ∧
    (now : Int) < pin.openedAt + slack pin

/-- Timers fire when they are due, and the awaits between a pin and its timer
take less than what is left of the beacon period. -/
def Prompt (s : State) : Event → Prop
  | .advance ms => ∀ round, s.Taking round → s.Ending round.beaconRound (s.now + ms)
  | .install o _ => ∀ pin, s.openings o = some ⟨s.generation, .creating pin⟩ →
      s.Ending pin.beaconRound s.now
  | _ => True

theorem Clocked.ending_secret {s : State} (hs : Clocked s) {beaconRound : Option Int} {now : Time}
    (h : s.Ending beaconRound now) : Secret beaconRound now := by
  rcases h with ⟨armed, harmed, rfl, hnow, hdelay⟩ | ⟨o, op, pin, hop, hpin, rfl, hnow⟩
  · intro b hb
    have hdue := (hs.due_secret harmed hb).2.mpr hdelay b hb
    exact lt_of_le_of_lt (Int.ofNat_le.mpr hnow) hdue
  · intro b hb
    refine ((hs.openings o op pin hop hpin).secret_iff hb).mpr ?_ b hb
    push_cast
    omega

/-- With prompt timers and short awaits every window closes in time. -/
theorem closesInTime_of_prompt {cfg : Config} {now : Time} {es : List Event}
    (h : Along (step cfg) Prompt (State.boot now) es) :
    Along (step cfg) ClosesInTime (State.boot now) es := by
  refine h.of_invariant (P := Clocked) (fun s e s' hs hstep => hs.step hstep) ?_ (Clocked.boot now)
  intro s e hs hprompt
  cases e with
  | advance => exact fun round htaking => hs.ending_secret (hprompt round htaking)
  | install => exact fun pin hpin => hs.ending_secret (hprompt pin hpin)
  | _ => trivial

/-! ## Bets and the publication -/

/-- A bet that the engine would take now. -/
def Admits (cfg : Config) (round : Round) (params : BetParams) : Prop :=
  (∀ id, params.roundId = some id → id = round.id) ∧ round.has params.userId = false ∧
    (reserveExposure cfg.chainEnabled round.exposure params).isSome

theorem place_admitted {cfg : Config} {s : State} {round : Round} {params : BetParams}
    (htaking : s.Taking round) (hadmits : Admits cfg round params) :
    ∃ s', step cfg s (.placeBet params) = some s' ∧
      s'.accepted = ⟨round.beaconRound, s.now⟩ :: s.accepted := by
  obtain ⟨hcurrent, hopen, hshutdown⟩ := htaking
  obtain ⟨hid, hhas, hsome⟩ := hadmits
  obtain ⟨_, hreserve⟩ := Option.isSome_iff_exists.mp hsome
  have hplace : placeBet cfg.chainEnabled s.shutdown round params = .ok _ :=
    placeBet_accepts hshutdown hopen hid hhas hreserve
  refine ⟨_, rfl, ?_⟩
  simp [State.place, hcurrent, hplace]

/-- Every bet is accepted before its beacon round is published, in every
run in which the windows close in time; a window that is still open when
its beacon round is out takes bets from then on; and a window whose timer
fires when it is due closes in time exactly if the awaits between the pin
and the timer took less than what was left of the beacon period. -/
theorem accepted_before_publication {cfg : Config} {now : Time} {es : List Event} {t : State}
    (hrun : run (step cfg) (State.boot now) es = some t) :
    (Along (step cfg) ClosesInTime (State.boot now) es → ∀ a ∈ t.accepted, a.InTime) ∧
    (∀ round params, t.Taking round → ¬ Secret round.beaconRound t.now → Admits cfg round params →
      ∃ t' a, step cfg t (.placeBet params) = some t' ∧ a ∈ t'.accepted ∧ ¬ a.InTime) ∧
    (∀ armed ∈ t.timers, ∀ b, armed.pin.beaconRound = some b → 0 ≤ delay armed ∧
      (Secret armed.pin.beaconRound armed.due ↔ delay armed < slack armed.pin)) := by
  refine ⟨?_, ?_, ?_⟩
  · intro hok
    have hinv : Inv t :=
      run_induct (P := Inv) (fun s e s' hok hs h => hs.step hok h) (Inv.boot now) hok hrun
    exact hinv.accepted
  · intro round params htaking hpublic hadmits
    obtain ⟨t', hstep, haccepted⟩ := place_admitted htaking hadmits
    refine ⟨t', ⟨round.beaconRound, t.now⟩, hstep, by simp [haccepted], hpublic⟩
  · intro armed harmed b hb
    have hclocked : Clocked t :=
      run_invariant (P := Clocked) (fun s e s' hs h => hs.step h) (Clocked.boot now) hrun
    exact hclocked.due_secret harmed hb

/-! ## Two runs -/

namespace Sample

def cfg : Config := ⟨true, false⟩

/-- The window of a round opened here ends 1 ms before a beacon round. -/
def openedAt : Time := 1692806354999

def created : Created where
  id := 1
  seedId := 1
  serverSeed := "crash-seed"
  serverSeedHash := "crash-commit"
  clientSeed := "crash-client"
  bustPoint := 0
  exposure := none

def bet : BetParams where
  roundId := some 1
  userId := 7
  username := some "ada"
  walletAddress := "wallet-7"
  amountLamports := 1000000
  autoCashout := none

/-- A round whose rows took 5 ms to write, and one bet on it after `wait`. -/
def openAndBet (wait : Nat) : List Event :=
  [.elect true, .start 0, .pin 0 false, .advance 5, .install 0 created, .arm 0, .advance wait,
    .placeBet bet]

end Sample

theorem accepted_before_publication_sample :
    ∃ t, run (step Sample.cfg) (State.boot Sample.openedAt) (Sample.openAndBet 1000) = some t ∧
      t.accepted.length = 1 ∧ ∀ a ∈ t.accepted, a.InTime := by
  have hopens : run (step Sample.cfg) (State.boot Sample.openedAt) (Sample.openAndBet 1000) =
      some _ := rfl
  refine ⟨_, hopens, rfl, (accepted_before_publication hopens).1 ?_⟩
  refine ⟨trivial, ?_⟩; rintro _ ⟨⟩
  refine ⟨trivial, ?_⟩; rintro _ ⟨⟩
  refine ⟨trivial, ?_⟩; rintro _ ⟨⟩
  refine ⟨by rintro round ⟨⟨⟩, -, -⟩, ?_⟩; rintro _ ⟨⟩
  refine ⟨?_, ?_⟩
  · rintro pin ⟨⟩ b ⟨⟩
    rw [beaconRoundTimeMs_after]
    decide
  rintro _ ⟨⟩
  refine ⟨trivial, ?_⟩; rintro _ ⟨⟩
  refine ⟨?_, ?_⟩
  · rintro round ⟨⟨⟩, -, -⟩ b ⟨⟩
    rw [beaconRoundTimeMs_after]
    decide
  rintro _ ⟨⟩
  exact ⟨trivial, fun _ _ => trivial⟩

/-- The rows take 5 ms when 1 ms of the beacon period is left: the bet is
accepted when the pinned value has been public for 3 ms. -/
theorem accepted_after_publication :
    ∃ es t, run (step Sample.cfg) (State.boot Sample.openedAt) es = some t ∧
      ∃ a ∈ t.accepted, ¬ a.InTime := by
  refine ⟨Sample.openAndBet 14999, _, rfl, _, List.mem_singleton.mpr rfl, ?_⟩
  intro hintime
  have hlt := hintime _ rfl
  rw [beaconRoundTimeMs_after] at hlt
  revert hlt
  decide

end Scadium.Games.Crash.Window
