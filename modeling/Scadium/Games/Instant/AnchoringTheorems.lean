/-
Scadium.Games.Instant.AnchoringTheorems — the round of a bet decides it, as
long as the API hears of the bet's settle.

The outcome of a bet is derived from the entropy that was read back, or from
the seeds alone when a call failed. Only the call of a bet settles the round
that was opened for it. So where the settle of a bet, if it lands, is
confirmed and its account read back, the settled round and the outcome agree,
whatever becomes of the other bets (`outcome_of_round`); where it lands
unheard, they need not (`settled_unheard`).

The invariant is about one bet's `View` of the state. Its parts that need the
bet to be heard of are conditional on `heard`; the rest, which keeps the bets
apart, holds of every bet.
-/
import Scadium.Lib.Runs
import Scadium.Games.Instant.Anchoring

namespace Scadium.Games.Anchoring

open Scadium.Lib Scadium.Fair Scadium.Programs
open Scadium.Prisma (Bytes32 BetId UserId)
open Scadium.Fair.Derive (GameParams SeedContext)

variable {Outcome : Type} {src : SeedSource String Bytes32} {deps : Deps Outcome}
  {a a' : State Outcome src} {answer : Answer} {id j : BetId} {b : Reserved} {tx : Tx}

/-! ## The view of one bet -/

/-- What the state holds about one bet, with the round opened for it. -/
structure View (Outcome : Type) where
  opened : Option Rng.RoundKey
  round : Option Rng.Round
  stage : Option Stage
  bet : Option (Bet Outcome)
  tx : Option Tx

def State.roundOf (a : State Outcome src) (id : BetId) : Option Rng.Round :=
  (a.opened.get id).bind a.cluster.rounds.get

def State.view (a : State Outcome src) (id : BetId) : View Outcome :=
  ⟨a.opened.get id, a.roundOf id, a.calls.get id, a.bets.get id, a.inFlight.get id⟩

/-- The round was opened with the seed hash, the client seed, the nonce and
the parameters of the bet. -/
def Reserved.Binds (sha : Sha) (b : Reserved) (round : Rng.Round) : Prop :=
  ∃ targetSlot, round.opened = b.args sha targetSlot

namespace View

/-- The round opened for the bet, in the status. -/
def HasRound (sha : Sha) (v : View Outcome) (b : Reserved) (status : Rng.RoundStatus)
    (round : Rng.Round) : Prop :=
  v.opened = some b.key ∧ v.round = some round ∧ round.status = status ∧ b.Binds sha round

/-- An outcome with this entropy agrees with the round. -/
def Agrees (sha : Sha) (v : View Outcome) (b : Reserved) : Option Bytes32 → Prop
  | none => ∀ round, v.round = some round → round.status = .Open
  | some entropy => ∃ round, v.HasRound sha b .Settled round ∧ round.final_entropy = entropy

/-- What a call relies on. -/
def Ready (sha : Sha) (heard : Prop) (v : View Outcome) : Stage → Prop
  | .begin _ | .currentSlot _ | .rngOpenRound _ _ => v.opened = none ∧ v.tx = none
  | .waitForSlot b | .rngSettleRound b => v.tx = none ∧ ∃ round, v.HasRound sha b .Open round
  | .getAccountInfo b => v.tx = none ∧ ∃ round, v.HasRound sha b .Settled round
  | .commit b entropy => heard → v.Agrees sha b entropy

/-- What holds of the bet itself; an `open_round` in flight is the only one. -/
structure Base (sha : Sha) (heard : Prop) (v : View Outcome) : Prop where
  known : v.opened = none → v.round = none
  bet : heard → ∀ bet, v.bet = some bet → v.Agrees sha bet.reserved bet.onchainEntropy
  flight : ∀ key args, v.tx = some (.openRound key args) → v.opened = none
  settling : ∀ key serverSeed, v.tx = some (.settleRound key serverSeed) → v.opened = some key

structure Ok (sha : Sha) (heard : Prop) (v : View Outcome) : Prop extends Base sha heard v where
  call : ∀ stage, v.stage = some stage → v.bet = none ∧ v.Ready sha heard stage

end View

/-- The bet's settle, if it lands, is confirmed, and its account is read back. -/
def Heard (id : BetId) (a : State Outcome src) : Event → Prop
  | .run j answer =>
      j = id → ∀ b, a.calls.get j = some (.getAccountInfo b) → answer.read = .current
  | .land j => j = id → ∀ key serverSeed, a.inFlight.get j ≠ some (.settleRound key serverSeed)
  | _ => True

instance (id : BetId) (a : State Outcome src) (e : Event) : Decidable (Heard id a e) :=
  match e with
  | .run j answer =>
      match h : a.calls.get j with
      | some (.getAccountInfo b) =>
          decidable_of_iff (j = id → answer.read = .current) (by simp [Heard, h])
      | some (.begin _) | some (.currentSlot _) | some (.rngOpenRound _ _) | some (.waitForSlot _)
      | some (.rngSettleRound _) | some (.commit _ _) | none => .isTrue (by simp [Heard, h])
  | .land j =>
      match h : a.inFlight.get j with
      | some (.settleRound _ _) => decidable_of_iff (j ≠ id) (by simp [Heard, h])
      | some (.openRound _ _) | none => .isTrue (by simp [Heard, h])
  | .start .. | .kill _ | .produceSlot .. | .setClientSeed .. | .rotateServerSeed .. =>
      .isTrue trivial

/-- No two bets have a round at one address. -/
structure Apart (a : State Outcome src) : Prop where
  present : ∀ id key, a.opened.get id = some key → (a.cluster.rounds.get key).isSome
  single : ∀ i j key, a.opened.get i = some key → a.opened.get j = some key → i = j

/-- The bets are apart, and each meets its invariant; some are heard of. -/
structure Sound (sha : Sha) (heard : BetId → Prop) (a : State Outcome src) : Prop where
  apart : Apart a
  views : ∀ id, (a.view id).Ok sha (heard id)
  fresh : ∀ id, id ∉ a.started → a.view id = ⟨none, none, none, none, none⟩

/-! ## What a transaction does -/

/-- Everything about the other bets is as it was. -/
structure Frame (id : BetId) (a a' : State Outcome src) : Prop where
  others : ∀ j, j ≠ id → a'.view j = a.view j
  started : a'.started = a.started

/-- `open_round` opens a new round for the bet. -/
theorem process_openRound (hapart : Apart a) {key : Rng.RoundKey} {args : Rng.OpenRound}
    (h : a.process deps.sha id (.openRound key args) = some a') :
    Apart a' ∧ Frame id a a' ∧
      a'.view id = { a.view id with opened := some key, round := some (Rng.Round.init args) } := by
  simp only [State.process] at h
  split at h
  · rename_i cluster hopen
    cases h
    obtain ⟨hfree, rfl⟩ := Rng.open_round_ok hopen
    have hother : ∀ j key', a.opened.get j = some key' → key' ≠ key := by
      intro j key' hj heq
      have hsome := hapart.present j key' hj
      rw [heq, hfree] at hsome
      cases hsome
    refine ⟨⟨?_, ?_⟩, ⟨?_, rfl⟩, ?_⟩
    · intro j key' hj
      by_cases hk : key' = key
      · simp [hk]
      · rw [Table.get_set] at hj
        rw [Table.get_set_ne _ hk]
        split at hj
        · cases hj
          exact absurd rfl hk
        · exact hapart.present j key' hj
    · intro i j key' hi hj
      rw [Table.get_set] at hi hj
      split at hi <;> split at hj
      · rename_i hi' hj'
        rw [hi', hj']
      · cases hi
        exact absurd rfl (hother j key hj)
      · cases hj
        exact absurd rfl (hother i key hi)
      · exact hapart.single i j key' hi hj
    · intro j hj
      have hopened : (a.opened.set id key).get j = a.opened.get j := Table.get_set_ne _ hj
      simp only [State.view, State.roundOf, hopened]
      cases hget : a.opened.get j with
      | none => rfl
      | some key' => simp [Table.get_set_ne _ (hother j key' hget)]
    · simp [State.view, State.roundOf]
  · cases h

/-- `settle_round` settles the round of the bet. -/
theorem process_settleRound (hapart : Apart a) {key : Rng.RoundKey} {serverSeed : String}
    (hkey : a.opened.get id = some key)
    (h : a.process deps.sha id (.settleRound key serverSeed) = some a') :
    Apart a' ∧ Frame id a a' ∧ ∃ round slot_hash, a.roundOf id = some round ∧
      a'.view id =
        { a.view id with
          round := some (round.settle deps.sha (utf8 serverSeed) slot_hash) } := by
  simp only [State.process] at h
  split at h
  · rename_i cluster hsettle
    cases h
    obtain ⟨round, slot_hash, hround, -, rfl⟩ := Rng.settle_round_ok hsettle
    refine ⟨⟨?_, hapart.single⟩, ⟨?_, rfl⟩, round, slot_hash, ?_, ?_⟩
    · intro j key' hj
      rw [Table.get_set]
      split
      · rfl
      · exact hapart.present j key' hj
    · intro j hj
      simp only [State.view, State.roundOf]
      cases hget : a.opened.get j with
      | none => rfl
      | some key' =>
        have hne : key' ≠ key := by
          intro heq
          exact hj (hapart.single j id key (heq ▸ hget) hkey)
        simp [Table.get_set_ne _ hne]
    · simp [State.roundOf, hkey, hround]
    · simp [State.view, State.roundOf, hkey]
  · cases h

/-! ## What a step of a call does -/

/-- With another stage, the rest of the view as it was. -/
def View.at (v : View Outcome) (stage : Option Stage) : View Outcome := { v with stage := stage }

namespace View

variable {sha : Sha} {heard : Prop} {v : View Outcome} {stage : Stage}

theorem Base.goes (h : v.Base sha heard) (hbet : v.bet = none) (hready : v.Ready sha heard stage) :
    (v.at (some stage)).Ok sha heard := by
  refine ⟨⟨h.known, h.bet, h.flight, h.settling⟩, ?_⟩
  intro stage' hstage
  cases hstage
  exact ⟨hbet, hready⟩

theorem Base.ends (h : v.Base sha heard) : (v.at none).Ok sha heard := by
  refine ⟨⟨h.known, h.bet, h.flight, h.settling⟩, ?_⟩
  intro stage hstage
  cases hstage

/-- While nothing is committed and nothing is in flight. -/
theorem Base.of_quiet (hknown : v.opened = none → v.round = none) (hbet : v.bet = none)
    (htx : v.tx = none) : v.Base sha heard := by
  refine ⟨hknown, ?_, ?_, ?_⟩
  · intro _ bet hsome
    rw [hbet] at hsome
    cases hsome
  all_goals
    intro key _ hflight
    rw [htx] at hflight
    cases hflight

/-- Without a round, or with an open one, the seeds alone decide. -/
theorem Base.agrees_none (h : v.Base sha heard) (hopened : v.opened = none) : v.Agrees sha b none := by
  intro round hround
  rw [h.known hopened] at hround
  cases hround

theorem HasRound.agrees_none {round : Rng.Round} (h : v.HasRound sha b .Open round) :
    v.Agrees sha b none := by
  intro round' hround'
  obtain ⟨-, hround, hstatus, -⟩ := h
  rw [hround] at hround'
  cases hround'
  exact hstatus

end View

theorem view_put_self {r : Option Stage} : (a.put id r).view id = (a.view id).at r := by
  cases r <;> simp [State.put, State.view, State.roundOf, View.at]

theorem view_put_ne (hj : j ≠ id) {r : Option Stage} : (a.put id r).view j = a.view j := by
  cases r with
  | none => simp [State.put, State.view, State.roundOf, Table.get_erase_ne _ hj]
  | some => simp [State.put, State.view, State.roundOf, Table.get_set_ne _ hj]

theorem Frame.refl (id : BetId) (a : State Outcome src) : Frame id a a := ⟨fun _ _ => rfl, rfl⟩

/-- What a call has done, and whether what is left fits the view after it. -/
structure Goes (sha : Sha) (heard : Prop) (id : BetId) (a a' : State Outcome src)
    (r : Option Stage) : Prop where
  apart : Apart a'
  frame : Frame id a a'
  own : ((a'.view id).at r).Ok sha heard

variable {heard : BetId → Prop}

theorem Goes.same {sha : Sha} {r : Option Stage} (hapart : Apart a)
    (hown : ((a.view id).at r).Ok sha (heard id)) : Goes sha (heard id) id a a r := ⟨hapart, .refl id a, hown⟩

/-- A step that leaves all but one bet as it was. -/
theorem Sound.of_frame {sha : Sha} (hs : Sound sha heard a) (hapart : Apart a')
    (hframe : Frame id a a') (hin : id ∈ a.started) (hown : (a'.view id).Ok sha (heard id)) :
    Sound sha heard a' := by
  refine ⟨hapart, ?_, ?_⟩
  · intro j
    by_cases hj : j = id
    · subst hj
      exact hown
    · rw [hframe.others j hj]
      exact hs.views j
  · intro j hout
    rw [hframe.started] at hout
    have hj : j ≠ id := by
      rintro rfl
      exact hout hin
    rw [hframe.others j hj]
    exact hs.fresh j hout

theorem Goes.sound {sha : Sha} {r : Option Stage} (hs : Sound sha heard a) (hin : id ∈ a.started)
    (h : Goes sha (heard id) id a a' r) : Sound sha heard (a'.put id r) := by
  have hopened : (a'.put id r).opened = a'.opened := by cases r <;> rfl
  have hcluster : (a'.put id r).cluster = a'.cluster := by cases r <;> rfl
  have hstarted : (a'.put id r).started = a'.started := by cases r <;> rfl
  refine hs.of_frame ⟨?_, ?_⟩ ⟨?_, hstarted.trans h.frame.started⟩ hin ?_
  · rw [hopened, hcluster]
    exact h.apart.present
  · rw [hopened]
    exact h.apart.single
  · intro j hj
    rw [view_put_ne hj]
    exact h.frame.others j hj
  · rw [view_put_self]
    exact h.own

/-- The transaction is in flight. -/
def State.lose (a : State Outcome src) (id : BetId) (tx : Tx) : State Outcome src :=
  { a with inFlight := a.inFlight.set id tx }

theorem view_lose : (a.lose id tx).view id = { a.view id with tx := some tx } := by
  simp [State.lose, State.view, State.roundOf]

theorem frame_lose : Frame id a (a.lose id tx) := by
  refine ⟨?_, rfl⟩
  intro j hj
  simp [State.lose, State.view, State.roundOf, Table.get_set_ne _ hj]

/-- What comes of sending a transaction. -/
theorem send_cases (h : a.send deps.sha answer id tx = (a', sent)) :
    sent = true ∧ a.process deps.sha id tx = some a' ∨ sent = false ∧ a' = a ∨
      sent = false ∧ a' = a.lose id tx := by
  unfold State.send at h
  split at h
  · split at h
    · rename_i hprocess
      cases h
      exact .inl ⟨rfl, hprocess⟩
    · cases h
      exact .inr (.inl ⟨rfl, rfl⟩)
  · cases h
    exact .inr (.inr ⟨rfl, rfl⟩)

theorem goes_openRound (hs : Sound deps.sha heard a) (hbet : (a.view id).bet = none)
    (hopened : (a.view id).opened = none) (htx : (a.view id).tx = none) {targetSlot : Nat}
    {sent : Bool}
    (hsend : a.send deps.sha answer id (.openRound b.key (b.args deps.sha targetSlot)) =
      (a', sent)) :
    Goes deps.sha (heard id) id a a' (some (if sent then .waitForSlot b else .commit b none)) := by
  have hbase := (hs.views id).toBase
  rcases send_cases hsend with ⟨rfl, hprocess⟩ | ⟨rfl, rfl⟩ | ⟨rfl, rfl⟩
  · obtain ⟨hapart, hframe, hview⟩ := process_openRound hs.apart hprocess
    refine ⟨hapart, hframe, ?_⟩
    rw [hview]
    have hquiet : View.Base deps.sha (heard id) { a.view id with
        opened := some b.key, round := some (Rng.Round.init (b.args deps.sha targetSlot)) } :=
      .of_quiet nofun hbet htx
    exact hquiet.goes hbet ⟨htx, Rng.Round.init _, rfl, rfl, rfl, targetSlot, rfl⟩
  · exact .same hs.apart (hbase.goes hbet fun _ => hbase.agrees_none (b := b) hopened)
  · refine ⟨⟨hs.apart.present, hs.apart.single⟩, frame_lose, ?_⟩
    rw [view_lose]
    have hlost : View.Base deps.sha (heard id) { a.view id with
        tx := some (.openRound b.key (b.args deps.sha targetSlot)) } :=
      ⟨hbase.known, hbase.bet, fun _ _ _ => hopened, nofun⟩
    exact hlost.goes hbet fun _ => hlost.agrees_none (b := b) hopened

theorem goes_settleRound (hs : Sound deps.sha heard a) (hbet : (a.view id).bet = none)
    (htx : (a.view id).tx = none) {round : Rng.Round}
    (hround : (a.view id).HasRound deps.sha b .Open round) {sent : Bool}
    (hsend : a.send deps.sha answer id (.settleRound b.key b.context.serverSeed) = (a', sent)) :
    Goes deps.sha (heard id) id a a' (some (if sent then .getAccountInfo b else .commit b none)) := by
  have hbase := (hs.views id).toBase
  rcases send_cases hsend with ⟨rfl, hprocess⟩ | ⟨rfl, rfl⟩ | ⟨rfl, rfl⟩
  · obtain ⟨hopened, hfound, -, hbinds⟩ := hround
    obtain ⟨hapart, hframe, round', slot_hash, hround', hview⟩ :=
      process_settleRound hs.apart hopened hprocess
    have hsame : round' = round := by
      have hboth : some round' = some round := hround'.symm.trans hfound
      exact Option.some.inj hboth
    subst hsame
    refine ⟨hapart, hframe, ?_⟩
    rw [hview]
    have hquiet : View.Base deps.sha (heard id) { a.view id with
        round := some (round'.settle deps.sha (utf8 b.context.serverSeed) slot_hash) } :=
      .of_quiet (fun hnone => by rw [hopened] at hnone; cases hnone) hbet htx
    exact hquiet.goes hbet ⟨htx, _, hopened, rfl, rfl, hbinds⟩
  · exact .same hs.apart (hbase.goes hbet fun _ => hround.agrees_none)
  · refine ⟨⟨hs.apart.present, hs.apart.single⟩, frame_lose, ?_⟩
    rw [view_lose]
    have hlost : View.Base deps.sha (heard id) { a.view id with
        tx := some (.settleRound b.key b.context.serverSeed) } := by
      refine ⟨hbase.known, hbase.bet, nofun, ?_⟩
      intro key serverSeed hflight
      cases hflight
      exact hround.1
    exact hlost.goes hbet fun _ => hround.agrees_none

/-- A read that sees the settle. -/
theorem readEntropy_current {round : Rng.Round}
    (hround : (a.view id).HasRound deps.sha b .Settled round) :
    (a.view id).Agrees deps.sha b (a.readEntropy b.key .current) := by
  have hfound : a.cluster.rounds.get b.key = some round := by
    have hopened : a.opened.get id = some b.key := hround.1
    have hof : a.roundOf id = some round := hround.2.1
    rwa [State.roundOf, hopened] at hof
  rw [State.readEntropy, hfound]
  exact ⟨round, hround, rfl⟩

theorem view_commit {bet : Bet Outcome} :
    State.view { a with bets := a.bets.set id bet } id = { a.view id with bet := some bet } := by
  simp [State.view, State.roundOf]

theorem stage_goes {stage : Stage} {r : Option Stage} (hs : Sound deps.sha heard a)
    (hcall : a.calls.get id = some stage)
    (hheard : heard id → ∀ b, stage = .getAccountInfo b → answer.read = .current)
    (h : a.stage deps answer id stage = (a', r)) : Goes deps.sha (heard id) id a a' r := by
  obtain ⟨hbet, hready⟩ := (hs.views id).call stage hcall
  have hbase := (hs.views id).toBase
  cases stage with
  | begin =>
    simp only [State.stage] at h
    split at h
    · cases h
      exact .same hs.apart hbase.ends
    · cases h
      exact ⟨⟨hs.apart.present, hs.apart.single⟩, ⟨fun _ _ => rfl, rfl⟩, hbase.goes hbet hready⟩
  | currentSlot b =>
    simp only [State.stage] at h
    split at h
    · cases h
      exact .same hs.apart (hbase.goes hbet hready)
    · cases h
      exact .same hs.apart (hbase.goes hbet fun _ => hbase.agrees_none (b := b) hready.1)
  | rngOpenRound =>
    cases h
    exact goes_openRound hs hbet hready.1 hready.2 rfl
  | waitForSlot =>
    obtain ⟨htx, round, hround⟩ := hready
    cases h
    refine .same hs.apart (hbase.goes hbet ?_)
    cases answer.replied with
    | true => exact ⟨htx, round, hround⟩
    | false => exact fun _ => hround.agrees_none
  | rngSettleRound =>
    obtain ⟨htx, round, hround⟩ := hready
    cases h
    exact goes_settleRound hs hbet htx hround rfl
  | getAccountInfo b =>
    obtain ⟨_, _, hround⟩ := hready
    cases h
    refine .same hs.apart (hbase.goes hbet ?_)
    intro htold
    rw [hheard htold b rfl]
    exact readEntropy_current hround
  | commit =>
    simp only [State.stage] at h
    split at h
    · cases h
      exact .same hs.apart hbase.ends
    · cases h
      refine ⟨⟨hs.apart.present, hs.apart.single⟩, ⟨?_, rfl⟩, ?_⟩
      · intro j hj
        simp [State.view, State.roundOf, Table.get_set_ne _ hj]
      · rw [view_commit]
        refine View.Base.ends ⟨hbase.known, ?_, hbase.flight, hbase.settling⟩
        intro htold bet hsome
        cases hsome
        exact hready htold

/-! ## Steps -/

/-- An `open_round` that lands late opens the round of a bet that goes on
without it. -/
theorem View.Ok.landed {sha : Sha} {heard : Prop} {v : View Outcome} (h : v.Ok sha heard)
    {key : Rng.RoundKey} {args : Rng.OpenRound} (htx : v.tx = some (.openRound key args)) :
    View.Ok sha heard
      { v with tx := none, opened := some key, round := some (Rng.Round.init args) } := by
  have hopened := h.flight key args htx
  have hagrees : ∀ b entropy, v.Agrees sha b entropy →
      View.Agrees sha
        { v with tx := none, opened := some key, round := some (Rng.Round.init args) } b
          entropy := by
    intro b entropy hagrees
    cases entropy with
    | none =>
      intro round hround
      cases hround
      rfl
    | some =>
      obtain ⟨_, ⟨hsome, -⟩, -⟩ := hagrees
      rw [hopened] at hsome
      cases hsome
  refine ⟨⟨nofun, fun htold bet hbet => hagrees _ _ (h.bet htold bet hbet), nofun, nofun⟩, ?_⟩
  · intro stage hstage
    obtain ⟨hbet, hready⟩ := h.call stage hstage
    refine ⟨hbet, ?_⟩
    cases stage with
    | begin _ | currentSlot _ | rngOpenRound _ _ =>
      have hquiet := hready.2
      rw [htx] at hquiet
      cases hquiet
    | waitForSlot _ | rngSettleRound _ | getAccountInfo _ =>
      have hquiet := hready.1
      rw [htx] at hquiet
      cases hquiet
    | commit b entropy => exact fun htold => hagrees b entropy (hready htold)

/-- So does a `settle_round`, of a bet that is not heard of. -/
theorem View.Ok.settled {sha : Sha} {heard : Prop} {v : View Outcome} (h : v.Ok sha heard)
    (hunheard : ¬ heard) {key : Rng.RoundKey} {serverSeed : String}
    (htx : v.tx = some (.settleRound key serverSeed)) (round : Option Rng.Round) :
    View.Ok sha heard { v with tx := none, round := round } := by
  refine ⟨⟨?_, fun htold => absurd htold hunheard, nofun, nofun⟩, ?_⟩
  · intro hnone
    rw [h.settling key serverSeed htx] at hnone
    cases hnone
  · intro stage hstage
    obtain ⟨hbet, hready⟩ := h.call stage hstage
    refine ⟨hbet, ?_⟩
    cases stage with
    | begin _ | currentSlot _ | rngOpenRound _ _ =>
      have hquiet := hready.2
      rw [htx] at hquiet
      cases hquiet
    | waitForSlot _ | rngSettleRound _ | getAccountInfo _ =>
      have hquiet := hready.1
      rw [htx] at hquiet
      cases hquiet
    | commit => exact fun htold => absurd htold hunheard

theorem View.Ok.dropped {sha : Sha} {heard : Prop} {v : View Outcome} (h : v.Ok sha heard) :
    View.Ok sha heard { v with tx := none } := by
  refine ⟨⟨h.known, h.bet, nofun, nofun⟩, ?_⟩
  intro stage hstage
  obtain ⟨hbet, hready⟩ := h.call stage hstage
  refine ⟨hbet, ?_⟩
  cases stage with
  | begin _ | currentSlot _ | rngOpenRound _ _ => exact ⟨hready.1, rfl⟩
  | waitForSlot _ | rngSettleRound _ | getAccountInfo _ => exact ⟨rfl, hready.2⟩
  | commit => exact hready

theorem Sound.started_of_view {sha : Sha} (hs : Sound sha heard a)
    (h : a.view id ≠ ⟨none, none, none, none, none⟩) : id ∈ a.started := by
  by_contra hout
  exact h (hs.fresh id hout)

theorem Sound.land (hs : Sound deps.sha heard a) (htx : a.inFlight.get id = some tx)
    (hheard : heard id → ∀ key serverSeed, tx ≠ .settleRound key serverSeed) :
    Sound deps.sha heard
      ((State.process { a with inFlight := a.inFlight.erase id } deps.sha id tx).getD
        { a with inFlight := a.inFlight.erase id }) := by
  have hin : id ∈ a.started := by
    refine hs.started_of_view ?_
    intro hview
    have hnone : a.inFlight.get id = none := congrArg View.tx hview
    rw [htx] at hnone
    cases hnone
  have hview : State.view { a with inFlight := a.inFlight.erase id } id =
      { a.view id with tx := none } := by
    simp [State.view, State.roundOf]
  have hframe : Frame id a { a with inFlight := a.inFlight.erase id } := by
    refine ⟨?_, rfl⟩
    intro j hj
    simp [State.view, State.roundOf, Table.get_erase_ne _ hj]
  have hdropped : Sound deps.sha heard { a with inFlight := a.inFlight.erase id } := by
    refine hs.of_frame ⟨hs.apart.present, hs.apart.single⟩ hframe hin ?_
    rw [hview]
    exact (hs.views id).dropped
  cases tx with
  | settleRound key serverSeed =>
    cases hprocess : State.process { a with inFlight := a.inFlight.erase id } deps.sha id
        (.settleRound key serverSeed) with
    | none => exact hdropped
    | some a' =>
      have hopened : a.opened.get id = some key := (hs.views id).settling key serverSeed htx
      obtain ⟨hapart, hframe', _, _, _, hview'⟩ :=
        process_settleRound hdropped.apart hopened hprocess
      refine hdropped.of_frame hapart hframe' hin ?_
      show (a'.view id).Ok deps.sha (heard id)
      rw [hview', hview]
      exact (hs.views id).settled (fun htold => hheard htold key serverSeed rfl) htx _
  | openRound key args =>
    cases hprocess : State.process { a with inFlight := a.inFlight.erase id } deps.sha id
        (.openRound key args) with
    | none => exact hdropped
    | some a' =>
      obtain ⟨hapart, hframe', hview'⟩ := process_openRound hdropped.apart hprocess
      refine hdropped.of_frame hapart hframe' hin ?_
      show (a'.view id).Ok deps.sha (heard id)
      rw [hview', hview]
      exact (hs.views id).landed htx

theorem Sound.start {sha : Sha} {request : Request} (hs : Sound sha heard a)
    (hout : id ∉ a.started) : Sound sha heard { a with calls := a.calls.set id (.begin request), started := id :: a.started } := by
  have hfresh := hs.fresh id hout
  have hview : State.view
      { a with calls := a.calls.set id (.begin request), started := id :: a.started } id =
        (a.view id).at (some (.begin request)) := by
    simp [State.view, State.roundOf, View.at]
  have hother : ∀ j, j ≠ id → State.view
      { a with calls := a.calls.set id (.begin request), started := id :: a.started } j =
        a.view j := by
    intro j hj
    simp [State.view, State.roundOf, Table.get_set_ne _ hj]
  refine ⟨⟨hs.apart.present, hs.apart.single⟩, ?_, ?_⟩
  · intro j
    by_cases hj : j = id
    · subst hj
      rw [hview, hfresh]
      exact View.Base.goes (.of_quiet (fun _ => rfl) rfl rfl) rfl ⟨rfl, rfl⟩
    · rw [hother j hj]
      exact hs.views j
  · intro j hj
    simp only [List.mem_cons, not_or] at hj
    rw [hother j hj.1]
    exact hs.fresh j hj.2

theorem Sound.kill {sha : Sha} (hs : Sound sha heard a) : Sound sha heard (a.put id none) := by
  by_cases hin : id ∈ a.started
  · exact Goes.sound hs hin (.same hs.apart (hs.views id).toBase.ends)
  · refine ⟨⟨hs.apart.present, hs.apart.single⟩, ?_, ?_⟩
    · intro j
      by_cases hj : j = id
      · subst hj
        rw [view_put_self]
        exact (hs.views j).toBase.ends
      · rw [view_put_ne hj]
        exact hs.views j
    · intro j hj
      by_cases hjid : j = id
      · subst hjid
        rw [view_put_self, hs.fresh j hin]
        rfl
      · rw [view_put_ne hjid]
        exact hs.fresh j hj

theorem Sound.step {e : Event} (hs : Sound deps.sha heard a)
    (hheard : ∀ id, heard id → Heard id a e) (h : Anchoring.step deps a e = some a') :
    Sound deps.sha heard a' := by
  cases e with
  | start =>
    simp only [Anchoring.step] at h
    split at h
    · cases h
    · rename_i hout
      cases h
      exact hs.start hout
  | run id =>
    simp only [Anchoring.step] at h
    obtain ⟨_, hcall, rfl⟩ := Option.map_eq_some_iff.mp h
    have hin : id ∈ a.started := by
      refine hs.started_of_view ?_
      intro hview
      have hnone : a.calls.get id = none := congrArg View.stage hview
      rw [hcall] at hnone
      cases hnone
    refine Goes.sound hs hin (stage_goes hs hcall ?_ rfl)
    intro htold b hstage
    exact hheard id htold rfl b (hstage ▸ hcall)
  | kill =>
    cases h
    exact hs.kill
  | land id =>
    simp only [Anchoring.step] at h
    obtain ⟨_, htx, hland⟩ := Option.bind_eq_some_iff.mp h
    cases hland
    refine hs.land htx ?_
    rintro htold key serverSeed rfl
    exact hheard id htold rfl key serverSeed htx
  | produceSlot =>
    simp only [Anchoring.step] at h
    split at h
    · cases h
      exact ⟨⟨hs.apart.present, hs.apart.single⟩, hs.views, hs.fresh⟩
    · cases h
  | setClientSeed userId clientSeed | rotateServerSeed userId activeRound =>
    cases h
    exact ⟨⟨hs.apart.present, hs.apart.single⟩, hs.views, hs.fresh⟩

theorem Sound.initial (sha : Sha) : Sound sha heard (.initial Outcome src) where
  apart := by
    constructor
    · intro id key h
      cases h
    · intro i j key h
      cases h
  views id := by
    refine ⟨.of_quiet (fun _ => rfl) rfl rfl, ?_⟩
    intro stage hstage
    cases hstage
  fresh _ _ := rfl

/-- The committed outcomes are derived from the entropy that was read. -/
def Derived (deps : Deps Outcome) (a : State Outcome src) : Prop :=
  ∀ id bet, a.bets.get id = some bet →
    bet.outcome = bet.reserved.outcome deps bet.onchainEntropy

theorem process_bets (h : a.process deps.sha id tx = some a') : a'.bets = a.bets := by
  cases tx with
  | openRound key args | settleRound key serverSeed =>
    simp only [State.process] at h
    split at h
    · cases h
      rfl
    · cases h

theorem send_bets {sent : Bool} (h : a.send deps.sha answer id tx = (a', sent)) :
    a'.bets = a.bets := by
  rcases send_cases h with ⟨-, hprocess⟩ | ⟨-, rfl⟩ | ⟨-, rfl⟩
  · exact process_bets hprocess
  · rfl
  · rfl

theorem put_bets {r : Option Stage} : (a.put id r).bets = a.bets := by
  cases r <;> rfl

theorem Derived.step {e : Event} (hd : Derived deps a) (h : Anchoring.step deps a e = some a') :
    Derived deps a' := by
  have hsame : ∀ {a' : State Outcome src}, a'.bets = a.bets → Derived deps a' := by
    intro a' hbets id bet hbet
    exact hd id bet (hbets ▸ hbet)
  cases e with
  | start =>
    simp only [Anchoring.step] at h
    split at h
    · cases h
    · cases h
      exact hsame rfl
  | run =>
    simp only [Anchoring.step] at h
    obtain ⟨stage, _, rfl⟩ := Option.map_eq_some_iff.mp h
    cases stage with
    | begin request | currentSlot b =>
      refine hsame (put_bets.trans ?_)
      simp only [State.stage]
      split <;> rfl
    | rngOpenRound b targetSlot | rngSettleRound b => exact hsame (put_bets.trans (send_bets rfl))
    | waitForSlot b | getAccountInfo b => exact hsame put_bets
    | commit b onchainEntropy =>
      simp only [State.stage]
      split
      · exact hsame put_bets
      · intro j bet hbet
        rw [put_bets] at hbet
        refine a.bets.forall_set (P := fun _ bet =>
          bet.outcome = bet.reserved.outcome deps bet.onchainEntropy) hd rfl j bet hbet
  | kill =>
    cases h
    exact hsame rfl
  | land id =>
    simp only [Anchoring.step] at h
    obtain ⟨tx, _, hland⟩ := Option.bind_eq_some_iff.mp h
    cases hland
    cases hprocess : State.process { a with inFlight := a.inFlight.erase id } deps.sha id tx with
    | none => exact hsame rfl
    | some =>
      have hbets := process_bets hprocess
      exact hsame hbets
  | produceSlot =>
    simp only [Anchoring.step] at h
    split at h
    · cases h
      exact hsame rfl
    · cases h
  | setClientSeed userId clientSeed | rotateServerSeed userId activeRound =>
    cases h
    exact hsame rfl

/-! ## The round decides the bet -/

/-- A bet agrees with the round opened for it. -/
structure Decided (deps : Deps Outcome) (a : State Outcome src) (id : BetId)
    (bet : Bet Outcome) : Prop where
  /-- a settled round decides the outcome -/
  settled : ∀ round, a.roundOf id = some round → round.status = .Settled →
    bet.outcome = bet.reserved.outcome deps (some round.final_entropy)
  /-- without entropy, no round of the bet is settled -/
  unsettled : bet.onchainEntropy = none →
    ∀ round, a.roundOf id = some round → round.status ≠ .Settled
  /-- entropy is that of a settled round of the bet's seeds -/
  anchored : ∀ entropy, bet.onchainEntropy = some entropy → ∃ round, a.roundOf id = some round ∧
    round.status = .Settled ∧ round.final_entropy = entropy ∧ bet.reserved.Binds deps.sha round

theorem decided_of_agrees {bet : Bet Outcome}
    (hderived : bet.outcome = bet.reserved.outcome deps bet.onchainEntropy)
    (hagrees : (a.view id).Agrees deps.sha bet.reserved bet.onchainEntropy) :
    Decided deps a id bet := by
  cases hentropy : bet.onchainEntropy with
  | none =>
    rw [hentropy] at hagrees hderived
    have hopen : ∀ round, a.roundOf id = some round → round.status = .Open := hagrees
    refine ⟨?_, ?_, ?_⟩
    · intro round hround hsettled
      rw [hopen round hround] at hsettled
      cases hsettled
    · intro _ round hround
      rw [hopen round hround]
      decide
    · intro entropy hsome
      rw [hentropy] at hsome
      cases hsome
  | some entropy =>
    rw [hentropy] at hagrees hderived
    obtain ⟨round, ⟨-, hround, hstatus, hbinds⟩, rfl⟩ := hagrees
    have hfound : a.roundOf id = some round := hround
    refine ⟨?_, ?_, ?_⟩
    · intro round' hround' _
      rw [hfound] at hround'
      cases hround'
      exact hderived
    · intro hnone
      rw [hentropy] at hnone
      cases hnone
    · intro entropy hsome
      rw [hentropy] at hsome
      cases hsome
      exact ⟨round, hfound, hstatus, rfl, hbinds⟩

/-- In every run the outcome of a bet is derived from the entropy read for it,
or from the seeds alone; and a bet whose settle is heard of, if it lands,
agrees with its round. -/
theorem outcome_of_round {es : List Event}
    (hrun : run (step deps) (.initial Outcome src) es = some a) :
    (∀ id bet, a.bets.get id = some bet →
      bet.outcome = bet.reserved.outcome deps bet.onchainEntropy) ∧
    ∀ id, Along (step deps) (Heard id) (.initial Outcome src) es →
      ∀ bet, a.bets.get id = some bet → Decided deps a id bet := by
  have hderived : Derived deps a :=
    run_invariant (P := Derived deps) (fun _ _ _ hd h => hd.step h) (fun _ _ h => by cases h) hrun
  refine ⟨hderived, ?_⟩
  intro id hheard bet hbet
  have hsound : Sound deps.sha (· = id) a :=
    run_induct (P := Sound deps.sha (· = id)) (fun _ _ _ hok hs h => hs.step (fun _ hj => hj ▸ hok) h)
      (.initial deps.sha) hheard hrun
  exact decided_of_agrees (hderived id bet hbet) ((hsound.views id).bet rfl bet hbet)

namespace Sample

def source : SeedSource String Bytes32 where
  generateServerSeed n := String.ofList (List.replicate n '0')
  generateClientSeed _ := ['a']
  commitServerSeed _ := 0
  serverSeed_injective := by
    intro m n h
    have hlists := congrArg List.length (String.ofList_injective h)
    simpa using hlists

/-- A bet wins on the seed it was given, and loses on any other. -/
def games : Deps Bool where
  sha := ⟨fun _ => 0, fun _ _ => 0⟩
  resolve _ _ ctx := decide (ctx.serverSeed = "")

def request : Request := ⟨1, .dice, []⟩

/-- The node answers. -/
def ok : Answer := ⟨false, 7, true, 1, .current⟩

/-- The confirmation is lost. -/
def lost : Answer := { ok with replied := false }

/-- The round is opened, and its pinned slot is produced. -/
def driven : List Event :=
  [.start 1 request, .run 1 ok, .run 1 ok, .run 1 ok, .produceSlot 4 1, .produceSlot 5 2,
    .run 1 ok]

/-- The settle is confirmed and read back. -/
def anchored : List Event := driven ++ [.run 1 ok, .run 1 ok, .run 1 ok]

/-- The settle lands, and its confirmation is lost. -/
def unheard : List Event := driven ++ [.run 1 lost, .land 1, .run 1 ok]

/-- A bet of the seeds alone, with a settled round. -/
def contradicts (a : State Bool source) : Bool :=
  match a.bets.get 1, a.roundOf 1 with
  | some bet, some round =>
      decide (bet.onchainEntropy = none ∧ round.status = .Settled ∧
        round.opened = bet.reserved.args games.sha round.opened.target_slot ∧
        bet.outcome ≠ bet.reserved.outcome games (some round.final_entropy))
  | _, _ => false

theorem anchored_runs : (run (step games) (.initial Bool source) anchored).any
    (fun a => (a.bets.get 1).isSome) = true := by
  decide +kernel

theorem unheard_runs :
    (run (step games) (.initial Bool source) unheard).any contradicts = true := by
  decide +kernel

end Sample

theorem outcome_of_round_anchored : ∃ a bet,
    run (step Sample.games) (.initial Bool Sample.source) Sample.anchored = some a ∧
      a.bets.get 1 = some bet ∧ Decided Sample.games a 1 bet := by
  obtain ⟨a, ha, hbet⟩ := (Option.any_eq_true _ _).mp Sample.anchored_runs
  obtain ⟨bet, hbet⟩ := Option.isSome_iff_exists.mp hbet
  exact ⟨a, bet, ha, hbet, (outcome_of_round ha).2 1 (by decide +kernel) bet hbet⟩

/-- A settle lands and its confirmation is lost: the outcome is derived from
the seeds alone, and the settled round says otherwise. -/
theorem settled_unheard : ∃ a bet round,
    run (step Sample.games) (.initial Bool Sample.source) Sample.unheard = some a ∧
      a.bets.get 1 = some bet ∧ a.roundOf 1 = some round ∧ bet.onchainEntropy = none ∧
      round.status = .Settled ∧ bet.reserved.Binds Sample.games.sha round ∧
      bet.outcome ≠ bet.reserved.outcome Sample.games (some round.final_entropy) := by
  obtain ⟨a, ha, h⟩ := (Option.any_eq_true _ _).mp Sample.unheard_runs
  unfold Sample.contradicts at h
  split at h
  · rename_i bet round hbet hround
    obtain ⟨hnone, hsettled, hbinds, hne⟩ := of_decide_eq_true h
    exact ⟨a, bet, round, ha, hbet, hround, hnone, hsettled, ⟨_, hbinds⟩, hne⟩
  · cases h

end Scadium.Games.Anchoring
