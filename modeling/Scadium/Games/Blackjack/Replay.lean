/-
Scadium.Games.Blackjack.Replay — a settled round, dealt again from what its
row shows.

The engine settles on the hands in memory; the verifier has the seeds and the
deal log of `stateJson`. Whatever drives a table counts on its deck being at
one stage: not dealt, closed, dealt, or with the hole card shown. As only one
thing drives a table, that holds along every run, so the settled hands are
those of the log. The deck is dealt from `dealSeed` and the row reveals
`serverSeed`; the two are one as long as no entropy is folded in.
-/
import Scadium.Games.Blackjack.Hands
import Scadium.Games.Blackjack.Lifecycle

namespace Scadium.Games.Blackjack

open Scadium.Common (ExposureGuard)
open Scadium.Fair Scadium.Lib Scadium.Prisma

/-! ## What a row shows -/

/-- The hands a snapshot shows. -/
def Snapshot.hands (snap : Snapshot) : List ReproducedHand :=
  ((snap.seats.filter (·.bet.isSome)).mergeSort fun a b => decide (a.index ≤ b.index)).map
      (fun v => ⟨.seat v.index, seatHandId v.index 0, v.cards⟩) ++
    [⟨.dealer, "dealer", snap.dealerCards.reduceOption⟩]

/-- The snapshot reveals its seed and its log; the log takes the deck's cards
one by one, and dealt again it gives the hands shown. -/
def Snapshot.Replays (sha : Sha) (snap : Snapshot) : Prop :=
  ∃ serverSeed clientSeed dealLog, snap.serverSeed = some serverSeed ∧
    snap.clientSeed = some clientSeed ∧ snap.dealLog = some dealLog ∧
    dealLog.map (·.deckIndex) = List.range dealLog.length ∧
    reproduceRound sha serverSeed clientSeed snap.nonce (dealLog.map DealLogEntry.json) = snap.hands

/-- A log in deck order need not be sorted to be checked. -/
theorem replays_iff {sha : Sha} {snap : Snapshot} {serverSeed clientSeed : String}
    {dealLog : List DealLogEntry} (hserver : snap.serverSeed = some serverSeed)
    (hclient : snap.clientSeed = some clientSeed) (hlog : snap.dealLog = some dealLog) :
    snap.Replays sha ↔ dealLog.map (·.deckIndex) = List.range dealLog.length ∧
      (((dealLog.map DealLogEntry.json).map Fair.DealLogEntry.key).eraseDups.map fun k =>
        (⟨k.dealtTo, k.handId, ((dealLog.map DealLogEntry.json).filter (·.key = k)).map fun e =>
          blackjackDeal sha serverSeed clientSeed snap.nonce e.deckIndex⟩ : ReproducedHand)) =
        snap.hands := by
  simp only [Snapshot.Replays, hserver, hclient, hlog, Option.some.injEq]
  constructor
  · rintro ⟨_, _, _, rfl, rfl, rfl, hindexes, hhands⟩
    refine ⟨hindexes, ?_⟩
    rw [← hhands, reproduceRound_eq ((List.map_map ..).trans hindexes)]
  · rintro ⟨hindexes, hhands⟩
    refine ⟨_, _, _, rfl, rfl, rfl, hindexes, ?_⟩
    rw [← hhands, reproduceRound_eq ((List.map_map ..).trans hindexes)]

instance (sha : Sha) (snap : Snapshot) : Decidable (snap.Replays sha) :=
  match hserver : snap.serverSeed, hclient : snap.clientSeed, hlog : snap.dealLog with
  | some _, some _, some _ => decidable_of_iff _ (replays_iff hserver hclient hlog).symm
  | none, _, _ => .isFalse (by simp [Snapshot.Replays, hserver])
  | some _, none, _ => .isFalse (by simp [Snapshot.Replays, hclient])
  | some _, some _, none => .isFalse (by simp [Snapshot.Replays, hlog])

/-- The call has a settlement in flight, and its snapshot replays. -/
def State.SettlesReplayable (sha : Sha) (s : State) (i : Nat) : Prop :=
  match s.procs[i]? with
  | some (.settling _ _ (.snapshot snap)) => snap.Replays sha
  | _ => False

instance (sha : Sha) (s : State) (i : Nat) : Decidable (s.SettlesReplayable sha i) := by
  unfold State.SettlesReplayable
  split
  · infer_instance
  · infer_instance

theorem settled_handView (dealerCards : List Card) (s : Seat) :
    (s.settled dealerCards).handView = s.handView := by
  unfold Seat.settled
  split
  · rfl
  · rfl

theorem settle_hands (t : Table) : SameHands t (settle t).1 :=
  ⟨⟨rfl, rfl, rfl, rfl, rfl, rfl, rfl⟩, map_hands (settled_handView _)⟩

/-- Once the hole card is shown, the snapshot shows the hands. -/
theorem snapshot_hands {t : Table} (hhidden : t.dealerHidden = false) : t.snapshot.hands = t.hands := by
  have hseats : ((t.seats.map Seat.view).filter (·.bet.isSome)).mergeSort
      (fun a b => decide (a.index ≤ b.index)) = t.bettingSeats.map Seat.view := by
    have hsort : t.bettingSeats.map Seat.view =
        ((t.seats.filter (·.bet.isSome)).map Seat.view).mergeSort
          fun a b => decide (a.index ≤ b.index) :=
      List.map_mergeSort fun _ _ _ _ => rfl
    rw [hsort, List.filter_map]
    rfl
  have hdealer : t.snapshot.dealerCards.reduceOption = t.dealerCards := by
    have hshown : t.snapshot.dealerCards = t.dealerCards.map some :=
      List.ext_getElem (by simp [Table.snapshot]) (by simp [Table.snapshot, hhidden])
    simp [hshown, List.reduceOption]
  have hviews : t.snapshot.seats = t.seats.map Seat.view := rfl
  rw [Snapshot.hands, hdealer, hviews, hseats, List.map_map]
  rfl

/-- A dealt table, settled, replays from the seed of its deck if that is the
one it reveals. -/
theorem Dealt.settled_replays {sha : Sha} {t : Table} (h : Dealt t)
    (hlogged : Logged (blackjackDeal sha) t) (hhidden : t.dealerHidden = false)
    (hseed : t.dealSeed = t.serverSeed) : (settle t).1.snapshot.Replays sha := by
  obtain ⟨serverSeed, hserver⟩ := Option.isSome_iff_exists.mp h.serverSeed
  obtain ⟨clientSeed, hclient⟩ := Option.isSome_iff_exists.mp h.clientSeed
  have hsame := settle_hands t
  have hlogged' : Logged (blackjackDeal sha) (settle t).1 := hlogged.of_same hsame.toSameDeck
  have hdealt : Dealt (settle t).1 := h.of_same hsame nofun
  have hreplay := hdealt.reproduceRound hlogged'
  have hdeal : (settle t).1.dealSeed = some serverSeed := hseed.trans hserver
  have hclient' : (settle t).1.clientSeed = some clientSeed := hclient
  rw [hdeal, hclient'] at hreplay
  refine ⟨serverSeed, clientSeed, t.dealLog, hserver, hclient, rfl, ?_, ?_⟩
  · have hlength : t.dealLog.length = t.deckIndex := by
      simpa using congrArg List.length hlogged.indexes
    rw [hlength]
    exact hlogged.indexes
  · rw [snapshot_hands (t := (settle t).1) hhidden]
    exact hreplay

/-! ## What drives a table counts on -/

inductive Stage where
  /-- The window is open. -/
  | undealt
  /-- It is closed, and no card is dealt. -/
  | locked
  | dealt
  /-- The hole card is shown. -/
  | revealed
  deriving DecidableEq

/-- The table is at a stage. -/
def Table.At (t : Table) : Stage → Prop
  | .undealt => Undealt t
  | .locked => Undealt t ∧ t.phase ≠ .betting
  | .dealt => Dealt t
  | .revealed => Dealt t ∧ t.dealerHidden = false

/-- The stage a call in flight counts on. -/
def Proc.stage : Proc → Option Stage
  | .placing _ _ (.opening _ _ .entropy)
  | .placing _ _ (.opening _ _ .tableUpdate)
  | .placing _ _ (.saving _ _ true) => some .undealt
  | .dealing (.saving _)
  | .dealing .cards => some .locked
  | .dealing .tableUpdate
  | .doubling _ _ (.saving _ _)
  | .dealer false => some .dealt
  | .dealer true => some .revealed
  | _ => none

/-- The stages that something counts on: a call in flight, the timer of the
deal, or the player whose turn it is. -/
inductive State.CountsOn (s : State) : Stage → Prop where
  | call {p : Proc} {g : Stage} (hp : p ∈ s.procs) (hg : p.stage = some g) : s.CountsOn g
  | timer (htimer : s.table.timer = some .deal) : s.CountsOn .undealt
  | turn (hturn : s.table.phase = .player_turns) : s.CountsOn .dealt

/-- The seed a row reveals is the one its deck is dealt from: no entropy is
folded in that changes it. -/
def Unfolded (s : State) : Event → Prop
  | .entropy _ (some dealSeed) => s.table.serverSeed = some dealSeed
  | _ => True

instance (s : State) (e : Event) : Decidable (Unfolded s e) := by
  unfold Unfolded
  split
  · infer_instance
  · infer_instance

/-- The log is the deck's, and the table is at the stage its driver counts
on. Where nothing is folded, the deck's seed is the round's. -/
structure Honest (stream : CardStream) (unfolded : Prop) (s : State) : Prop where
  logged : Logged stream s.table
  seed : unfolded → s.table.dealSeed = s.table.serverSeed
  at_stage : ∀ g, s.CountsOn g → s.table.At g

section Stages

variable {past : Nat → Prop} {stream : CardStream} {unfolded : Prop} {s s' : State} {t t' : Table}
variable {p q : Proc} {g : Stage} {i : Nat}

theorem stage_drives (h : p.stage = some g) : p.rolls + p.doubles = 1 := by
  unfold Proc.stage at h
  split at h
  all_goals first
    | rfl
    | cases h

theorem weight_drives (procs : List Proc) :
    weight (fun p => p.rolls + p.doubles) procs =
      weight Proc.rolls procs + weight Proc.doubles procs := weight_add _ _ _

/-- Whatever is counted on drives the table. -/
theorem State.CountsOn.rolling (h : s.CountsOn g) : 0 < s.rolling := by
  unfold State.rolling
  cases h with
  | call hp hg =>
    have hle := le_weight (g := fun p => p.rolls + p.doubles) hp
    have hdrives := stage_drives hg
    rw [weight_drives] at hle
    omega
  | timer htimer =>
    have hdeal : s.table.dealSet = 1 := if_pos htimer
    omega
  | turn hturn =>
    have honTurn : s.table.onTurn = 1 := if_pos hturn
    omega

/-- Between rounds nothing is counted on. -/
theorem Chain.counts_nothing (h : Chain past s)
    (hphase : s.table.phase = .idle ∨ s.table.phase = .settled) : ¬ s.CountsOn g := by
  intro hcounts
  have hrest := h.rest hphase
  have hroll := hcounts.rolling
  omega

theorem stage_none (h : weight Proc.rolls s.procs + weight Proc.doubles s.procs = 0) :
    ∀ p ∈ s.procs, p.stage = none := by
  intro p hp
  cases hstage : p.stage with
  | none => rfl
  | some g =>
    have hle := le_weight (g := fun p => p.rolls + p.doubles) hp
    have hdrives := stage_drives hstage
    rw [weight_drives] at hle
    omega

/-- A slot that counts on a stage is the only one. -/
theorem Chain.sole (h : Chain past s) (hp : s.procs[i]? = some p) (hg : p.stage = some g) :
    (∀ r ∈ (s.procs.set i .done), r.stage = none) ∧ s.table.dealSet = 0 ∧
      (p.rolls = 1 → s.table.phase ≠ .player_turns) := by
  have hone := h.one
  have hdrives := stage_drives hg
  have hle := le_weight (g := fun p => p.rolls + p.doubles) (List.mem_of_getElem? hp)
  have hset := weight_set (fun p => p.rolls + p.doubles) hp .done
  have hdone : Proc.done.rolls + Proc.done.doubles = 0 := rfl
  simp only [weight_drives, hdone] at hle hset
  simp only [State.openings, State.rolling] at hone
  refine ⟨stage_none (s := s.setProc i .done) ?_, by omega, ?_⟩
  · simp only [setProc_procs]
    omega
  · intro hrolls hphase
    have honTurn : s.table.onTurn = 1 := if_pos hphase
    have hroll : p.rolls ≤ weight Proc.rolls s.procs := le_weight (List.mem_of_getElem? hp)
    omega

theorem set_idle (h : ∀ p ∈ s.procs, p.stage = none) :
    ∀ r ∈ s.procs.set i .done, r.stage = none := by
  intro r hr
  rcases List.mem_or_eq_of_mem_set hr with hr | rfl
  · exact h r hr
  · rfl

theorem timer_of_dealSet (h : t.dealSet = 0) : t.timer ≠ some .deal := by
  intro htimer
  rw [Table.dealSet, if_pos htimer] at h
  cases h

theorem mem_set_done {procs : List Proc} {r : Proc} (hr : r ∈ procs.set i q) :
    r = q ∨ r ∈ procs.set i .done := by
  obtain ⟨j, hj⟩ := List.mem_iff_getElem?.mp hr
  by_cases hij : i = j
  · subst hij
    rw [List.getElem?_set_self'] at hj
    obtain ⟨_, -, rfl⟩ := Option.map_eq_some_iff.mp hj
    exact .inl rfl
  · rw [List.getElem?_set_ne hij] at hj
    refine .inr (List.mem_iff_getElem?.mpr ⟨j, ?_⟩)
    rw [List.getElem?_set_ne hij]
    exact hj

/-- The hands, the deck and the hole card are the same, and no window is
open that was not. -/
structure SameStage (t t' : Table) : Prop extends SameHands t t' where
  hidden : t'.dealerHidden = t.dealerHidden
  closed : t'.phase = .betting → t.phase = .betting

theorem SameStage.at_stage (hsame : SameStage t t') (h : t.At g) : t'.At g := by
  have hclosed : t.phase ≠ .betting → t'.phase ≠ .betting := mt hsame.closed
  cases g with
  | undealt => exact Undealt.of_seats h hsame.toSameDeck hsame.seats
  | locked => exact ⟨Undealt.of_seats h.1 hsame.toSameDeck hsame.seats, hclosed h.2⟩
  | dealt => exact Dealt.of_same h hsame.toSameHands (hclosed (Dealt.closed h))
  | revealed =>
    exact ⟨h.1.of_same hsame.toSameHands (hclosed h.1.closed), hsame.hidden.trans h.2⟩

end Stages

/-! ## Steps -/

section Rules

variable {past : Nat → Prop} {stream : CardStream} {unfolded : Prop} {s s' s₀ : State} {t : Table}
variable {p q : Proc} {g : Stage} {i : Nat}

theorem Honest.of_eq (h : Honest stream unfolded s) (htable : s'.table = s.table)
    (hprocs : s'.procs = s.procs) : Honest stream unfolded s' := by
  refine ⟨htable ▸ h.logged, htable ▸ h.seed, ?_⟩
  intro g hg
  rw [htable]
  refine h.at_stage g ?_
  cases hg with
  | call hp hg => exact .call (hprocs ▸ hp) hg
  | timer htimer => exact .timer (htable ▸ htimer)
  | turn hturn => exact .turn (htable ▸ hturn)

/-- A slot is taken over by what counts on the same, or on nothing. -/
theorem Honest.setProc (h : Honest stream unfolded s) (hp : s.procs[i]? = some p)
    (hq : q.stage = none ∨ q.stage = p.stage) : Honest stream unfolded (s.setProc i q) := by
  refine ⟨h.logged, h.seed, ?_⟩
  intro g hg
  refine h.at_stage g ?_
  cases hg with
  | @call r _ hr hg =>
    rcases mem_setProc hr with hr | rfl
    · exact .call hr hg
    · rcases hq with hnone | hsame
      · rw [hnone] at hg
        cases hg
      · exact .call (List.mem_of_getElem? hp) (hsame.symm.trans hg)
  | timer htimer => exact .timer htimer
  | turn hturn => exact .turn hturn

theorem Honest.spawn (h : Honest stream unfolded s) (hq : q.stage = none) :
    Honest stream unfolded (s.spawn q) := by
  refine ⟨h.logged, h.seed, ?_⟩
  intro g hg
  refine h.at_stage g ?_
  cases hg with
  | @call r _ hr hg =>
    rcases List.mem_append.mp hr with hr | hr
    · exact .call hr hg
    · cases List.mem_singleton.mp hr
      rw [hq] at hg
      cases hg
  | timer htimer => exact .timer htimer
  | turn hturn => exact .turn hturn

/-- The table changes under what is counted on. -/
theorem Honest.setTable (h : Honest stream unfolded s) (hdeck : SameDeck s.table t)
    (hat : ∀ g, s.CountsOn g → s.table.At g → t.At g)
    (htimer : t.timer = some .deal → s.table.timer = some .deal)
    (hphase : t.phase = .player_turns → s.table.phase = .player_turns) :
    Honest stream unfolded (s.setTable t) := by
  refine ⟨h.logged.of_same hdeck, ?_, ?_⟩
  · intro hunfolded
    rw [setTable_table, hdeck.dealSeed, hdeck.serverSeed]
    exact h.seed hunfolded
  · intro g hg
    have hbefore : s.CountsOn g := by
      cases hg with
      | call hp hg => exact .call hp hg
      | timer h => exact .timer (htimer h)
      | turn h => exact .turn (hphase h)
    exact hat g hbefore (h.at_stage g hbefore)

/-- The same for a table that shows the same cards. -/
theorem Honest.setTable_same (h : Honest stream unfolded s) (hsame : SameStage s.table t)
    (htimer : t.timer = some .deal → s.table.timer = some .deal)
    (hphase : t.phase = .player_turns → s.table.phase = .player_turns) :
    Honest stream unfolded (s.setTable t) :=
  h.setTable hsame.toSameDeck (fun _ _ hat => hsame.at_stage hat)
    htimer hphase

/-- In an open window only cards that are not dealt are counted on. -/
theorem Honest.betting (h : Honest stream unfolded s) (hphase : s.table.phase = .betting)
    (hg : s.CountsOn g) : g = .undealt := by
  have hat := h.at_stage g hg
  cases g with
  | undealt => rfl
  | locked => exact absurd hphase hat.2
  | dealt => exact absurd hphase (Dealt.closed hat)
  | revealed => exact absurd hphase hat.1.closed

/-- The seats of an open window come, go and bet. -/
theorem Honest.setTable_betting (h : Honest stream unfolded s) (hphase : s.table.phase = .betting)
    (hdeck : SameDeck s.table t)
    (hseats : ∀ r ∈ t.seats, ∃ r' ∈ s.table.seats, r.index = r'.index ∧ r.cards = r'.cards)
    (hframe : t.phase = s.table.phase ∧ t.timer = s.table.timer) :
    Honest stream unfolded (s.setTable t) := by
  refine h.setTable hdeck ?_ ?_ ?_
  · intro g hg hat
    rw [h.betting hphase hg] at hat ⊢
    exact Undealt.of_seats hat hdeck hseats
  · intro htimer
    exact hframe.2 ▸ htimer
  · intro hturn
    exact hframe.1 ▸ hturn

/-- A driver has become something else, or is gone, and so has the table. -/
theorem Honest.moved (hidle : ∀ r ∈ s.procs.set i .done, r.stage = none)
    (hprocs : ∀ r ∈ s'.procs, r ∈ s.procs.set i .done ∨ r = q) (hlogged : Logged stream s'.table)
    (hseed : unfolded → s'.table.dealSeed = s'.table.serverSeed)
    (hq : ∀ g, q.stage = some g → s'.table.At g)
    (htimer : s'.table.timer = some .deal → Undealt s'.table)
    (hturn : s'.table.phase = .player_turns → Dealt s'.table) : Honest stream unfolded s' := by
  refine ⟨hlogged, hseed, ?_⟩
  intro g hg
  cases hg with
  | @call r _ hr hg =>
    rcases hprocs r hr with hr | rfl
    · rw [hidle r hr] at hg
      cases hg
    · exact hq g hg
  | timer h => exact htimer h
  | turn h => exact hturn h

/-- The turn moves on, and nothing else drives the table. -/
theorem Honest.turned {r : Table × Bool} (hidle : ∀ p ∈ s₀.procs, p.stage = none)
    (hlogged : Logged stream t) (hseed : unfolded → t.dealSeed = t.serverSeed) (hdealt : Dealt t)
    (hturn : TurnTo t r) : Honest stream unfolded (s₀.turned r) := by
  have hdeck := hturn.sameHands.toSameDeck
  have hafter : Dealt r.1 := hdealt.turned hturn
  refine ⟨?_, ?_, ?_⟩
  · rw [turned_table]
    exact hlogged.of_same hdeck
  · intro hunfolded
    rw [turned_table, hdeck.dealSeed, hdeck.serverSeed]
    exact hseed hunfolded
  · intro g hg
    rw [turned_table]
    cases hg with
    | @call p _ hp hg =>
      have hdealer : p.stage = some .dealt := by
        rw [turned_procs] at hp
        split at hp
        · rcases List.mem_append.mp hp with hp | hp
          · rw [hidle p hp] at hg
            cases hg
          · cases List.mem_singleton.mp hp
            rfl
        · rw [hidle p hp] at hg
          cases hg
      cases hdealer.symm.trans hg
      exact hafter
    | timer htimer =>
      rw [turned_table] at htimer
      rcases hturn with ⟨_, -, -, rfl⟩ | rfl
      · cases htimer
      · cases htimer
    | turn => exact hafter

end Rules

section Calls

variable {past : Nat → Prop} {cfg : Config} {unfolded : Prop} {s s' : State} {i : Nat}

theorem takeSeat_honest (h : Honest cfg.stream unfolded s) (seatIndex : Nat) (userId : UserId) :
    Honest cfg.stream unfolded (s.setTable (takeSeat s.table seatIndex userId).1) := by
  have hframe : (takeSeat s.table seatIndex userId).1.timer = s.table.timer ∧
      (takeSeat s.table seatIndex userId).1.dealerHidden = s.table.dealerHidden := by
    rcases takeSeat_cases s.table seatIndex userId with ⟨e, htake⟩ | ⟨-, htake⟩
    · rw [htake]
      exact ⟨rfl, rfl⟩
    · rw [htake]
      exact ⟨rfl, rfl⟩
  obtain ⟨hdeck, hphase⟩ := takeSeat_deck s.table seatIndex userId
  refine h.setTable hdeck ?_ ?_ ?_
  · intro g _ hat
    cases g with
    | undealt => exact Undealt.takeSeat hat seatIndex userId
    | locked =>
      refine ⟨hat.1.takeSeat seatIndex userId, ?_⟩
      rw [hphase]
      exact hat.2
    | dealt => exact Dealt.takeSeat hat seatIndex userId
    | revealed => exact ⟨hat.1.takeSeat seatIndex userId, hframe.2.trans hat.2⟩
  · intro htimer
    exact hframe.1 ▸ htimer
  · intro hturn
    exact hphase ▸ hturn

/-- A seat is left that the round at play does not deal to. -/
theorem Honest.left {userId : UserId} {seat : Seat} (h : Honest cfg.stream unfolded s)
    (hchain : Chain past s) (hseat : s.table.seatOf userId = some seat)
    (hover : seat.bet ≠ none → s.table.phase = .idle ∨ s.table.phase = .settled) :
    Honest cfg.stream unfolded (s.setTable (s.table.deleteSeat seat.index)) := by
  refine h.setTable ⟨rfl, rfl, rfl, rfl, rfl, rfl, rfl⟩ ?_ id id
  intro g hg hat
  have hnone : seat.bet = none := by
    by_contra hbet
    exact hchain.counts_nothing (hover hbet) hg
  have hdelete : ∀ {t : Table}, t = s.table → Dealt t → Dealt (t.deleteSeat seat.index) := by
    rintro t rfl hdealt
    exact hdealt.deleteSeat hchain.distinct (seatOf_mem hseat).1 hnone
  have hundealt : Undealt s.table → Undealt (s.table.deleteSeat seat.index) := fun hat =>
    hat.of_seats ⟨rfl, rfl, rfl, rfl, rfl, rfl, rfl⟩ fun _ hs => deleteSeat_seats hs
  cases g with
  | undealt => exact hundealt hat
  | locked => exact ⟨hundealt hat.1, hat.2⟩
  | dealt => exact hdelete rfl hat
  | revealed => exact ⟨hdelete rfl hat.1, hat.2⟩

/-- What the turn's seat does with the deck. -/
theorem acted_dealt {userId : UserId} {a : Action} {seat : Seat}
    (h : Honest cfg.stream unfolded s) (hchain : Chain past s)
    (haccepts : s.table.acceptsAction userId a seat) :
    (∀ p ∈ s.procs, p.stage = none) ∧ Logged cfg.stream (s.table.acted cfg.stream a seat) ∧
      Dealt (s.table.acted cfg.stream a seat) ∧
      (unfolded → (s.table.acted cfg.stream a seat).dealSeed =
        (s.table.acted cfg.stream a seat).serverSeed) := by
  obtain ⟨-, -, _, -⟩ := hchain.alone haccepts.1
  have hdoubles := hchain.undoubled haccepts
  obtain ⟨_, _, hactive, hfound, hbet, -⟩ := hchain.turn haccepts.1
  have hseat := haccepts.2.1
  rw [hactive, Option.bind_some, hfound, Option.some.injEq] at hseat
  subst hseat
  obtain ⟨hlogged, hdealt⟩ := Dealt.acted (h.at_stage .dealt (.turn haccepts.1)) h.logged a
    (seatAt_mem hfound).1 hbet
  refine ⟨stage_none (by omega), hlogged, hdealt, ?_⟩
  intro hunfolded
  have hseed := h.seed hunfolded
  unfold Table.acted
  split
  · exact hseed
  · exact hseed

theorem Honest.refused {userId : UserId} {bet : SeatBet} {t : Table}
    (h : Honest cfg.stream unfolded s) (hrefused : s.table.Refused cfg.chainEnabled userId bet t) :
    Honest cfg.stream unfolded (s.setTable t) := by
  rcases hrefused with rfl | ⟨found, _, -, -, rfl⟩
  · exact h
  · obtain ⟨_, heq⟩ := holdExposure_eq cfg.chainEnabled s.table found bet
    rw [heq]
    exact h.setTable_same ⟨⟨⟨rfl, rfl, rfl, rfl, rfl, rfl, rfl⟩, rfl⟩, rfl, id⟩ id id

theorem Honest.placed {bet : SeatBet} {found : Seat} (h : Honest cfg.stream unfolded s)
    (hphase : s.table.phase = .betting) :
    Honest cfg.stream unfolded (s.setTable (s.table.placed cfg.chainEnabled bet found)) := by
  refine h.setTable_betting hphase placed_deck ?_ ⟨placed_frame.1, placed_frame.2.1⟩
  refine fun _ hr => placed_seats ?_ hr
  rw [hphase]
  exact nofun

/-- The bet that opens a window finds nothing that counts on the table. -/
theorem Honest.opened {userId : UserId} {bet : SeatBet} {found : Seat}
    (h : Honest cfg.stream unfolded s) (hchain : Chain past s)
    (hrests : s.table.phase = .idle ∨ s.table.phase = .settled) :
    Honest cfg.stream unfolded { s with
      table := (s.table.placed cfg.chainEnabled bet found).openPrologue
      window := s.window + 1
      installed := false
      procs := s.procs.set i (.placing userId bet
        (.opening (s.window + 1) (s.table.placingSeat found).staked .creating)) } := by
  have hdeck : SameDeck s.table (s.table.placed cfg.chainEnabled bet found) := placed_deck
  have hopened : SameDeck s.table (s.table.placed cfg.chainEnabled bet found).openPrologue :=
    ⟨hdeck.1, hdeck.2, hdeck.3, hdeck.4, hdeck.5, hdeck.6, hdeck.7⟩
  refine ⟨h.logged.of_same hopened, ?_, ?_⟩
  · intro hunfolded
    show (s.table.placed cfg.chainEnabled bet found).dealSeed = _
    rw [hdeck.dealSeed]
    exact (h.seed hunfolded).trans hdeck.serverSeed.symm
  · intro g hg
    cases hg with
    | call hr hg =>
      rcases List.mem_or_eq_of_mem_set hr with hr | rfl
      · exact absurd (.call hr hg) (hchain.counts_nothing hrests)
      · cases hg
    | timer htimer => cases htimer
    | turn hturn => cases hturn

/-- A double draws its card before it waits for its write. -/
theorem Honest.doubledSaving {userId : UserId} {extra : Nat} {seat : Seat} {w : Write}
    (h : Honest cfg.stream unfolded s) (hchain : Chain past s)
    (haccepts : s.table.acceptsAction userId .double seat) :
    Honest cfg.stream unfolded ((s.setTable (s.table.acted cfg.stream .double seat)).setProc i
      (.doubling userId extra (.saving w seat.index))) := by
  obtain ⟨hidle, hlogged, hdealt, hseed⟩ := acted_dealt h hchain haccepts
  refine Honest.moved (set_idle hidle) (fun r hr => (mem_set_done hr).symm) hlogged hseed ?_ ?_
    fun _ => hdealt
  · intro g hg
    cases hg
    exact hdealt
  · intro htimer
    obtain ⟨-, -, -, hdeal⟩ := hchain.alone haccepts.1
    exact absurd (acted_frame.2.1.symm.trans htimer) (timer_of_dealSet hdeal)

end Calls

section Openings

variable {past : Nat → Prop} {cfg : Config} {unfolded : Prop} {s s' : State} {i : Nat}

/-- The round goes on a table that nothing counts on yet. -/
theorem Honest.install {p : Proc} {userId : UserId} {bet : SeatBet} {window window' previousTotal : Nat}
    {roundDbId : RoundId} {seed : RoundSeed} {guard : Option ExposureGuard}
    (hchain : Chain past s) (hp : s.procs[i]? = some p) (hopening : p.opening = some window') :
    Honest cfg.stream unfolded
      (s.install cfg i userId bet window previousTotal roundDbId seed guard) := by
  have hnothing : ∀ g, ¬ s.CountsOn g := by
    intro g hg
    have hroll := hg.rolling
    have hle : p.opens ≤ s.openings := le_weight (List.mem_of_getElem? hp)
    rw [opens_of_opening hopening] at hle
    have hone := hchain.one
    omega
  refine ⟨Logged.install, fun _ => rfl, ?_⟩
  intro g hg
  cases hg with
  | @call r _ hr hg =>
    rcases List.mem_or_eq_of_mem_set hr with hr | rfl
    · exact absurd (.call hr hg) (hnothing g)
    · have hundealt : g = .undealt := by
        split at hg
        · cases hg
          rfl
        · cases hg
          rfl
      rw [hundealt]
      exact Undealt.install
  | timer htimer => exact absurd (.timer htimer) (hnothing _)
  | turn hturn => exact absurd (.turn hturn) (hnothing _)

/-- The row of an opening is no matter of the table's. -/
theorem Honest.create {roundDbId : RoundId} {window : Nat} (h : Honest cfg.stream unfolded s) :
    Honest cfg.stream unfolded (s.create roundDbId window) :=
  (h.setTable_same (t := { s.table with exposure := none })
    ⟨⟨⟨rfl, rfl, rfl, rfl, rfl, rfl, rfl⟩, rfl⟩, rfl, id⟩ id id).of_eq rfl rfl

/-- The entropy is folded in before a card is dealt. -/
theorem Honest.folded {folded : Option String} {userId : UserId} {bet : SeatBet}
    {window previousTotal : Nat} (h : Honest cfg.stream unfolded s) (hchain : Chain past s)
    (hok : unfolded → Unfolded s (.entropy i folded))
    (hp : s.procs[i]? = some (.placing userId bet (.opening window previousTotal .entropy))) :
    Honest cfg.stream unfolded ((s.setTable (s.table.foldEntropy folded)).setProc i
      (.placing userId bet (.opening window previousTotal .tableUpdate))) := by
  obtain ⟨hidle, hdeal, hturns⟩ := hchain.sole hp rfl
  have hundealt : Undealt s.table := h.at_stage .undealt (.call (List.mem_of_getElem? hp) rfl)
  have hframe : SameButHands s.table (s.table.foldEntropy folded) := foldEntropy_same folded
  refine Honest.moved hidle (fun r hr => (mem_set_done hr).symm)
    (h.logged.foldEntropy hundealt.log folded) ?_ ?_ ?_ ?_
  · intro hunfolded
    have hseed := h.seed hunfolded
    have hfold := hok hunfolded
    cases folded with
    | none => exact hseed
    | some => exact hfold.symm
  · intro g hg
    cases hg
    exact hundealt.foldEntropy folded
  · intro htimer
    exact absurd (hframe.timer.symm.trans htimer) (timer_of_dealSet hdeal)
  · intro hphase
    exact absurd (hframe.phase.symm.trans hphase) (hturns rfl)

/-- The timer of the deal takes over from the opening. -/
theorem Honest.timerSet {p q : Proc} {rows : List RoundRow} (h : Honest cfg.stream unfolded s)
    (hchain : Chain past s) (hp : s.procs[i]? = some p) (hg : p.stage = some .undealt)
    (hrolls : p.rolls = 1) (hq : q.stage = none) : Honest cfg.stream unfolded
      (({ s with rows := rows }.setProc i q).setTable (s.table.setTimer .deal)) := by
  obtain ⟨hidle, -, hturns⟩ := hchain.sole hp hg
  have hundealt : Undealt s.table := h.at_stage .undealt (.call (List.mem_of_getElem? hp) hg)
  have hset : Undealt (s.table.setTimer .deal) := ⟨⟨hundealt.1.1, hundealt.1.2, hundealt.1.3⟩, hundealt.2⟩
  refine Honest.moved hidle (fun r hr => (mem_set_done hr).symm)
    (h.logged.of_same ⟨rfl, rfl, rfl, rfl, rfl, rfl, rfl⟩) h.seed ?_ (fun _ => hset)
    fun hphase => absurd hphase (hturns hrolls)
  intro g hstage
  rw [hq] at hstage
  cases hstage

theorem after_stage (userId : UserId) (bet : SeatBet) (previousTotal : Nat) :
    (PlaceStage.after userId bet previousTotal).stage = none := by
  unfold PlaceStage.after
  split
  · rfl
  · rfl

end Openings

section Commits

variable {past : Nat → Prop} {cfg : Config} {unfolded : Prop} {s s' : State} {i : Nat}

/-- The call that drives a dealt table leaves it to the turn. -/
theorem Honest.turnsOver {p : Proc} {s₀ : State} {t : Table} {r : Table × Bool}
    (h : Honest cfg.stream unfolded s) (hchain : Chain past s) (hp : s.procs[i]? = some p)
    (hg : p.stage = some .dealt) (hprocs : s₀.procs = s.procs.set i .done)
    (hsame : SameHands s.table t) (hclosed : t.phase ≠ .betting) (hturn : TurnTo t r) :
    Honest cfg.stream unfolded (s₀.turned r) := by
  obtain ⟨hidle, -, -⟩ := hchain.sole hp hg
  have hdealt : Dealt s.table := h.at_stage .dealt (.call (List.mem_of_getElem? hp) hg)
  refine Honest.turned (hprocs ▸ hidle) (h.logged.of_same hsame.toSameDeck) ?_
    (hdealt.of_same hsame hclosed) hturn
  intro hunfolded
  rw [hsame.dealSeed, hsame.serverSeed]
  exact h.seed hunfolded

theorem Honest.revealed (h : Honest cfg.stream unfolded s) (hchain : Chain past s)
    (hp : s.procs[i]? = some (.dealer false)) : Honest cfg.stream unfolded
      ((s.setTable s.table.revealHole).setProc i (.dealer true)) := by
  obtain ⟨hidle, hdeal, -⟩ := hchain.sole hp rfl
  have hdealt : Dealt s.table := h.at_stage .dealt (.call (List.mem_of_getElem? hp) rfl)
  have hshown : Dealt s.table.revealHole :=
    hdealt.of_same ⟨⟨rfl, rfl, rfl, rfl, rfl, rfl, rfl⟩, rfl⟩ hdealt.closed
  refine Honest.moved hidle (fun r hr => (mem_set_done hr).symm)
    (h.logged.of_same ⟨rfl, rfl, rfl, rfl, rfl, rfl, rfl⟩) h.seed ?_
    (fun htimer => absurd htimer (timer_of_dealSet (t := s.table) hdeal)) fun _ => hshown
  intro g hg
  cases hg
  exact ⟨hshown, rfl⟩

/-- The deal closes the window over a deck that is not dealt. -/
theorem Honest.closeBets {phase : Phase} (h : Honest cfg.stream unfolded s) (hchain : Chain past s)
    (htimer : s.table.timer = some .deal) (hphase : phase ≠ .betting ∧ phase ≠ .player_turns)
    (htable : s'.table = s.table.closeBets phase)
    (hprocs : ∀ p ∈ s'.procs, p ∈ s.procs ∨ p.stage = some .locked) :
    Honest cfg.stream unfolded s' := by
  obtain ⟨-, -, _, _⟩ := hchain.due htimer
  have hidle : ∀ p ∈ s.procs, p.stage = none := stage_none (by omega)
  have hundealt : Undealt s.table := h.at_stage .undealt (.timer htimer)
  have hdeck : SameDeck s.table (s.table.closeBets phase) := ⟨rfl, rfl, rfl, rfl, rfl, rfl, rfl⟩
  have hclosed : Undealt (s.table.closeBets phase) :=
    hundealt.of_seats hdeck fun _ hr => sitOut_seats hr
  refine ⟨htable ▸ h.logged.of_same hdeck, fun hunfolded => htable ▸ h.seed hunfolded, ?_⟩
  intro g hg
  cases hg with
  | call hp hg =>
    rcases hprocs _ hp with hp | hlocked
    · cases (hidle _ hp).symm.trans hg
    · cases hlocked.symm.trans hg
      rw [htable]
      exact ⟨hclosed, hphase.1⟩
  | timer hset =>
    rw [htable] at hset
    cases hset
  | turn hturn =>
    rw [htable] at hturn
    exact absurd hturn hphase.2

/-- The table whose timer has fired shows the same cards. -/
theorem Honest.fired (h : Honest cfg.stream unfolded s) :
    Honest cfg.stream unfolded (s.setTable s.table.fired) :=
  h.setTable_same ⟨⟨⟨rfl, rfl, rfl, rfl, rfl, rfl, rfl⟩, rfl⟩, rfl, id⟩ nofun id

theorem Honest.timedOut {seatIndex : Nat} (h : Honest cfg.stream unfolded s)
    (hchain : Chain past s) :
    Honest cfg.stream unfolded (s.turned (turnTimeout s.table.fired seatIndex)) := by
  unfold turnTimeout
  split
  · rename_i hturn
    obtain ⟨hphase, hactive, hplaying⟩ := hturn
    obtain ⟨-, -, _, -⟩ := hchain.alone hphase
    have hdoubles := hchain.untimed hphase hactive hplaying
    have hstood : SameHands s.table
        (s.table.setSeat seatIndex fun seat => { seat with status := .standing }) :=
      setSeat_hands fun _ => rfl
    have hsame : SameHands s.table
        (s.table.fired.setSeat seatIndex fun seat => { seat with status := .standing }) :=
      ⟨⟨rfl, rfl, rfl, rfl, rfl, rfl, rfl⟩, hstood.hands⟩
    have hdealt : Dealt s.table := h.at_stage .dealt (.turn hphase)
    exact Honest.turned (stage_none (by omega)) (h.logged.of_same hsame.toSameDeck) h.seed
      (hdealt.of_same hsame hdealt.closed) (advanceTurn_turnTo _)
  · exact h.fired

theorem Honest.paused (h : Honest cfg.stream unfolded s) (hchain : Chain past s) :
    Honest cfg.stream unfolded (s.setTable (settlePause s.table.fired)) := by
  unfold settlePause
  split
  · exact h.fired
  · rename_i hphase
    refine h.setTable ⟨rfl, rfl, rfl, rfl, rfl, rfl, rfl⟩ ?_ nofun nofun
    intro g hg _
    exact absurd hg (hchain.counts_nothing (.inr (not_not.mp hphase)))

end Commits

section Step

variable {past : Nat → Prop} {cfg : Config} {unfolded : Prop} {s s' : State} {i : Nat}

/-- The cards go to the seats once the window is closed. -/
theorem Honest.dealt (h : Honest cfg.stream unfolded s) (hchain : Chain past s)
    (hp : s.procs[i]? = some (.dealing .cards)) : Honest cfg.stream unfolded
      ((s.setTable (dealCards cfg.stream s.table)).setProc i (.dealing .tableUpdate)) := by
  obtain ⟨hidle, hdeal, _⟩ := hchain.sole hp rfl
  obtain ⟨hundealt, hclosed⟩ := h.at_stage .locked (.call (List.mem_of_getElem? hp) rfl)
  obtain ⟨hlogged, hdealt⟩ := hundealt.dealCards h.logged hchain.distinct hclosed
  have hframe : SameButHands s.table (dealCards cfg.stream s.table) := dealCards_same
  refine Honest.moved hidle (fun r hr => (mem_set_done hr).symm) hlogged ?_ ?_ ?_ fun _ => hdealt
  · intro hunfolded
    have hseeds := dealCards_seeds cfg.stream s.table
    exact hseeds.1.trans ((h.seed hunfolded).trans hseeds.2.symm)
  · intro g hg
    cases hg
    exact hdealt
  · intro htimer
    exact absurd (hframe.timer.symm.trans htimer) (timer_of_dealSet hdeal)

theorem Honest.dealerCard (h : Honest cfg.stream unfolded s) (hchain : Chain past s)
    (hp : s.procs[i]? = some (.dealer true)) :
    Honest cfg.stream unfolded (s.setTable (s.table.dealTo cfg.stream .dealer)) := by
  obtain ⟨hidle, hdeal, _⟩ := hchain.sole hp rfl
  obtain ⟨hdealt, hhidden⟩ := h.at_stage .revealed (.call (List.mem_of_getElem? hp) rfl)
  have hdrawn : Dealt (s.table.dealTo cfg.stream .dealer) := hdealt.drawDealer
  have hself : s.procs.set i (.dealer true) = s.procs := by
    obtain ⟨hlt, hget⟩ := List.getElem?_eq_some_iff.mp hp
    rw [← hget]
    exact List.set_getElem_self hlt
  refine Honest.moved (q := .dealer true) hidle ?_ h.logged.drawDealer h.seed ?_
    (fun htimer => absurd htimer (timer_of_dealSet (t := s.table) hdeal)) fun _ => hdrawn
  · intro r hr
    rw [setTable_procs, ← hself] at hr
    exact (mem_set_done hr).symm
  · intro g hg
    cases hg
    exact ⟨hdrawn, hhidden⟩

theorem Honest.dealerDone (h : Honest cfg.stream unfolded s) (hchain : Chain past s)
    (hp : s.procs[i]? = some (.dealer true)) : Honest cfg.stream unfolded
      ((s.setTable (settle s.table).1).setProc i
        (.settling s.window (settle s.table).2 (.snapshot (settle s.table).1.snapshot))) := by
  obtain ⟨hidle, hdeal, -⟩ := hchain.sole hp rfl
  exact Honest.moved hidle (fun r hr => (mem_set_done hr).symm)
    (h.logged.of_same (settle_hands s.table).toSameDeck) h.seed nofun
    (fun htimer => absurd htimer (timer_of_dealSet (t := s.table) hdeal)) nofun

theorem Called.stage {q : Proc} (h : Called q) : q.stage = none := by
  cases h with
  | placing => rfl
  | doubling => rfl
  | recovering => rfl

theorem Debits.stage {p q : Proc} {m : Movement} (h : Debits p q m) : q.stage = none := by
  cases h with
  | bet => rfl
  | extra => rfl

theorem Saves.stage {p q : Proc} {w : Write} (h : Saves p w q) :
    q.stage = none ∨ q.stage = p.stage := by
  cases h with
  | placing => exact .inl (after_stage _ _ _)
  | returning => exact .inl rfl
  | dealing => exact .inr rfl

theorem Failed.stage {q : Proc} (h : Failed q) : q.stage = none := by
  cases h with
  | placing => rfl
  | doubling => rfl
  | done => rfl

/-- One step keeps the log honest. -/
theorem Honest.step {e : Event} (h : Honest cfg.stream unfolded s) (hchain : Chain past s)
    (hok : unfolded → Unfolded s e) (hstep : step cfg s e = some s') :
    Honest cfg.stream unfolded s' := by
  have hdone : ∀ {i p}, s.procs[i]? = some p → Honest cfg.stream unfolded (s.setProc i .done) :=
    fun hp => h.setProc hp (.inl rfl)
  cases step_effect hstep with
  | took seatIndex userId => exact takeSeat_honest h seatIndex userId
  | refused => exact h
  | left hseat _ hover => exact h.left hchain hseat hover
  | leftBet hphase =>
    exact (h.setTable_betting (t := s.table.deleteSeat _) hphase ⟨rfl, rfl, rfl, rfl, rfl, rfl, rfl⟩
      (fun _ hs => deleteSeat_seats hs) ⟨rfl, rfl⟩).spawn rfl
  | cleared hphase =>
    refine Honest.spawn (h.setTable_betting hphase ⟨rfl, rfl, rfl, rfl, rfl, rfl, rfl⟩
      (fun _ hr => ?_) ⟨rfl, rfl⟩) rfl
    exact setSeat_seats (f := Seat.clearBet) (fun _ => ⟨rfl, rfl⟩) hr
  | acted _ haccepts =>
    obtain ⟨hidle, hlogged, hdealt, hseed⟩ := acted_dealt h hchain haccepts
    exact Honest.turned hidle hlogged hseed hdealt (afterAction_turnTo _)
  | called _ hnew => exact h.spawn hnew.stage
  | debited hp hdebits => exact (h.setProc hp (.inl hdebits.stage)).of_eq rfl rfl
  | rejected hp | settledLate hp | recoveredLate hp => exact hdone hp
  | credited hp | recovered hp => exact (hdone hp).of_eq rfl rfl
  | placeRefused hp hrefused => exact (h.refused hrefused).setProc hp (.inl rfl)
  | opened _ _ hrests => exact h.opened hchain hrests
  | placedSaving hp _ hphase => exact (h.placed hphase).setProc hp (.inl rfl)
  | placed hp _ hphase => exact (h.placed hphase).setProc hp (.inl (after_stage _ _ _))
  | doubleRefused hp => exact h.setProc hp (.inl rfl)
  | doubledSaving _ haccepts => exact h.doubledSaving hchain haccepts
  | doubled hp haccepts =>
    obtain ⟨hidle, hlogged, hdealt, hseed⟩ := acted_dealt h hchain haccepts
    exact Honest.turned (set_idle hidle) hlogged hseed hdealt (afterAction_turnTo _)
  | created hp => exact h.create.setProc hp (.inl rfl)
  | createdOffChain hp => exact Honest.install hchain.create hp rfl
  | bankrolled hp => exact Honest.install hchain hp rfl
  | folded hp => exact h.folded hchain hok hp
  | openSaving hp => exact h.setProc hp (.inr rfl)
  | openTimer hp | savedOpening hp => exact h.timerSet hchain hp rfl rfl (after_stage _ _ _)
  | turns hp =>
    exact h.turnsOver (t := { s.table with phase := .player_turns }) hchain hp rfl rfl
      ⟨⟨rfl, rfl, rfl, rfl, rfl, rfl, rfl⟩, rfl⟩ nofun (advanceTurn_turnTo _)
  | revealed hp => exact h.revealed hchain hp
  | @saved _ _ _ w hp hsaves =>
    have hcommit : Honest cfg.stream unfolded (s.commit w) := h.of_eq rfl rfl
    exact hcommit.setProc hp hsaves.stage
  | savedDouble hp =>
    have hdealt : Dealt s.table := h.at_stage .dealt (.call (List.mem_of_getElem? hp) rfl)
    exact h.turnsOver hchain hp rfl rfl ⟨⟨rfl, rfl, rfl, rfl, rfl, rfl, rfl⟩, rfl⟩ hdealt.closed
      (afterAction_turnTo _)
  | dealNone htimer | dealUnsaved htimer =>
    exact h.closeBets hchain htimer (by decide) rfl fun _ hp => .inl hp
  | deal htimer =>
    refine h.closeBets hchain htimer (by decide) rfl fun _ hp => ?_
    rcases List.mem_append.mp hp with hp | hp
    · exact .inl hp
    · cases List.mem_singleton.mp hp
      exact .inr rfl
  | timedOut => exact h.timedOut hchain
  | paused => exact h.paused hchain
  | dealt hp => exact h.dealt hchain hp
  | dealerCard hp => exact h.dealerCard hchain hp
  | dealerDone hp => exact h.dealerDone hchain hp
  | settled hp =>
    have hpaused : Honest cfg.stream unfolded (s.setTable (s.table.setTimer .settlePause)) :=
      h.setTable_same ⟨⟨⟨rfl, rfl, rfl, rfl, rfl, rfl, rfl⟩, rfl⟩, rfl, id⟩
        nofun id
    exact (hpaused.setProc hp (.inl rfl)).of_eq rfl rfl
  | aborted hp =>
    refine Honest.setProc ?_ hp (.inl rfl)
    exact h.setTable_same ⟨⟨⟨rfl, rfl, rfl, rfl, rfl, rfl, rfl⟩, rfl⟩, rfl,
      nofun⟩ id nofun
  | failed hp hfailed => exact h.setProc hp (.inl hfailed.stage)
  | killed =>
    refine ⟨⟨rfl, fun _ he => absurd he List.not_mem_nil, rfl⟩, fun _ => rfl, ?_⟩
    intro g hg
    cases hg with
    | call hp hg =>
      obtain ⟨q, -, rfl⟩ := List.mem_map.mp hp
      cases hg
    | timer htimer => cases htimer
    | turn hturn => cases hturn

theorem Honest.init (stream : CardStream) (unfolded : Prop) (isPrivate : Bool)
    (ownerId : Option UserId) : Honest stream unfolded (.init isPrivate ownerId) where
  logged := ⟨rfl, nofun, rfl⟩
  seed _ := rfl
  at_stage g hg := by
    cases hg with
    | call hp => exact absurd hp List.not_mem_nil
    | timer htimer => cases htimer
    | turn hturn => cases hturn

/-- Whatever happens, the log is the deck's, and the hands of a round that is
dealt are those it says. -/
theorem run_honest {isPrivate : Bool} {ownerId : Option UserId} {es : List Event}
    (hok : Along (Blackjack.step cfg) (fun s e => unfolded → Unfolded s e)
      (.init isPrivate ownerId) es)
    (hrun : run (Blackjack.step cfg) (.init isPrivate ownerId) es = some s) :
    Honest cfg.stream unfolded s := by
  have hboth : Honest cfg.stream unfolded s ∧ Chain (fun _ => False) s :=
    run_induct (P := fun s => Honest cfg.stream unfolded s ∧ Chain (fun _ => False) s)
      (fun _ _ _ hok h hstep => ⟨h.1.step h.2 hok hstep, h.2.step hstep⟩)
      ⟨.init _ _ _ _, .init isPrivate ownerId⟩ hok hrun
  exact hboth.1

/-- A settle finds the cards dealt, and the hole card shown. -/
theorem dealerDone_cases (h : Honest cfg.stream unfolded s)
    (hstep : Blackjack.step cfg s (.dealerDone i) = some s') :
    Dealt s.table ∧ s.table.dealerHidden = false ∧
      s'.procs[i]? = some (.settling s.window (settle s.table).2
        (.snapshot (settle s.table).1.snapshot)) := by
  simp only [Blackjack.step, stepDealerDone] at hstep
  split at hstep
  · rename_i hp
    split at hstep
    · cases hstep
    · cases hstep
      obtain ⟨hdealt, hhidden⟩ := h.at_stage .revealed (.call (List.mem_of_getElem? hp) rfl)
      refine ⟨hdealt, hhidden, ?_⟩
      rw [setProc_procs, setTable_procs, List.getElem?_set_self', hp]
      rfl
  · cases hstep

end Step

/-! ## Settled rounds -/

section Settles

variable {sha : Sha} {chainEnabled onchainLive isPrivate : Bool} {ownerId : Option UserId}
variable {es : List Event} {s s' : State} {i : Nat}

/-- In every run the hands of a settle are those of its log, dealt again from
the seed of the deck. -/
theorem settle_reproduces
    (hrun : run (step ⟨chainEnabled, onchainLive, blackjackDeal sha⟩) (.init isPrivate ownerId) es =
      some s)
    (hstep : step ⟨chainEnabled, onchainLive, blackjackDeal sha⟩ s (.dealerDone i) = some s') :
    s.table.dealLog.map (·.deckIndex) = List.range s.table.deckIndex ∧
      reproduceRound sha (s.table.dealSeed.getD "") (s.table.clientSeed.getD "") s.table.nonce
        (s.table.dealLog.map DealLogEntry.json) = s.table.hands := by
  have hany : Along (step ⟨chainEnabled, onchainLive, blackjackDeal sha⟩)
      (fun s e => False → Unfolded s e) (.init isPrivate ownerId) es := by
    simpa using along_true (State.init isPrivate ownerId) es
  have h := run_honest hany hrun
  obtain ⟨hdealt, -, -⟩ := dealerDone_cases h hstep
  exact ⟨h.logged.indexes, hdealt.reproduceRound h.logged⟩

/-- As long as no entropy is folded into a deck, what a settle writes replays
from the seed it reveals. -/
theorem settles_replay (sha : Sha) (chainEnabled onchainLive isPrivate : Bool)
    (ownerId : Option UserId) (es : List Event) (s s' : State) (i : Nat)
    (hunfolded : Along (step ⟨chainEnabled, onchainLive, blackjackDeal sha⟩) Unfolded
      (.init isPrivate ownerId) es)
    (hrun : run (step ⟨chainEnabled, onchainLive, blackjackDeal sha⟩) (.init isPrivate ownerId) es =
      some s)
    (hstep : step ⟨chainEnabled, onchainLive, blackjackDeal sha⟩ s (.dealerDone i) = some s') :
    s'.SettlesReplayable sha i := by
  have hok : Along (step ⟨chainEnabled, onchainLive, blackjackDeal sha⟩)
      (fun s e => True → Unfolded s e) (.init isPrivate ownerId) es := by
    simpa using hunfolded
  have h := run_honest hok hrun
  obtain ⟨hdealt, hhidden, hslot⟩ := dealerDone_cases h hstep
  rw [State.SettlesReplayable, hslot]
  exact hdealt.settled_replays h.logged hhidden (h.seed trivial)

end Settles

/-- A digest that deals sixes from a seed of six bytes, and fives from any
other. -/
private def byLength : Sha where
  sha256 _ := 0
  hmacSha256 key _ := BitVec.ofNat 256 ((if key.length = 6 then 5 else 4) * 2 ^ 240)

private def sixes (onchainLive : Bool) : Config := ⟨false, onchainLive, blackjackDeal byLength⟩

/-- One seat: it hits and stands, and the dealer draws. -/
private def drawn (entropy draws : List Event) : List Event :=
  [.takeSeat 0 1, .place 1 ⟨1000000, 0, 0⟩, .debit 0, .call 0, .created 0 9 ⟨"server", "client"⟩] ++
    entropy ++ [.tableUpdated 0, .saved 0, .timer, .saved 1, .dealt 1, .tableUpdated 1, .act 1 .hit,
    .act 1 .stand, .tableUpdated 2] ++ draws

private def afterDraws (onchainLive : Bool) (entropy draws : List Event) : State :=
  (run (step (sixes onchainLive)) (.init false none) (drawn entropy draws)).getD (.init false none)

private def afterSettle (onchainLive : Bool) (entropy draws : List Event) : State :=
  (step (sixes onchainLive) (afterDraws onchainLive entropy draws) (.dealerDone 2)).getD
    (.init false none)

theorem settles_replay_sample : (afterSettle false [] [.dealerCard 2]).SettlesReplayable byLength 2 :=
  settles_replay byLength false false false none (drawn [] [.dealerCard 2])
    (afterDraws false [] [.dealerCard 2]) _ 2 (by decide +kernel) (by decide +kernel)
    (by decide +kernel)

/-- The on-chain entropy of a round, folded into its seed. -/
private def folded : List Event := [.entropy 0 (some "folded seed")]

private def foldedTable : Table :=
  (afterDraws true folded [.dealerCard 2, .dealerCard 2]).table

/-- It is the deck's own seed that deals the hands again. -/
theorem settle_reproduces_folded : foldedTable.dealSeed = some "folded seed" ∧
    foldedTable.dealLog.map (·.deckIndex) = List.range foldedTable.deckIndex ∧
    reproduceRound byLength (foldedTable.dealSeed.getD "") (foldedTable.clientSeed.getD "")
      foldedTable.nonce (foldedTable.dealLog.map DealLogEntry.json) = foldedTable.hands :=
  ⟨by decide +kernel, settle_reproduces (show run (step (sixes true)) (.init false none)
      (drawn folded [.dealerCard 2, .dealerCard 2]) = some _ by decide +kernel)
    (show step (sixes true) _ (.dealerDone 2) =
      some (afterSettle true folded [.dealerCard 2, .dealerCard 2]) by decide +kernel)⟩

/-- With entropy folded in, the deck is dealt from a seed that the row does
not show, and the revealed one deals other cards. -/
theorem folded_deck_does_not_replay :
    ¬ ∀ sha chainEnabled onchainLive isPrivate ownerId es s s' i,
      run (step ⟨chainEnabled, onchainLive, blackjackDeal sha⟩) (.init isPrivate ownerId) es = some s →
      step ⟨chainEnabled, onchainLive, blackjackDeal sha⟩ s (.dealerDone i) = some s' →
      s'.SettlesReplayable sha i := by
  intro h
  have hreplays := h byLength false true false none (drawn folded [.dealerCard 2, .dealerCard 2])
    (afterDraws true folded [.dealerCard 2, .dealerCard 2])
    (afterSettle true folded [.dealerCard 2, .dealerCard 2]) 2 (by decide +kernel) (by decide +kernel)
  exact absurd hreplays (by decide +kernel)

end Scadium.Games.Blackjack
