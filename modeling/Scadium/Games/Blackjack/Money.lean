/-
Scadium.Games.Blackjack.Money — where the money of a player is.

What was debited is refunded, settled on, or held: by a call in flight, by a
bet at a table that is at play, or by the row of a round that no one plays
any more. A stake passes from one holder to the next, and `Kept` says that no
step loses or doubles it.

A row is in hand while it is on a table at play, while a settle of its window
is in flight, or while a write to it is (`State.inHand`); only a row in no hand
counts with what it shows. `Steady` is the step after which every row is in the
hands it was in, so for such a step the sums follow from what the calls and the
seats hold (`Steady.held_eq`). The condition on a run is `MoneySafe`: it is
about the steps at which a row changes hands, which `Conservation` has.
-/
import Scadium.Games.Blackjack.Records

namespace Scadium.Games.Blackjack

open Scadium.Lib Scadium.Prisma

/-! ## Holders -/

/-- A debit of a user. -/
def Movement.debited (u : UserId) : Movement → Nat
  | .bet userId amount => if userId = u then amount else 0
  | .refund _ _ | .recovered _ _ | .settled _ => 0

/-- A refund to a user, by a call or by the recovery. -/
def Movement.refunded (u : UserId) : Movement → Nat
  | .refund userId amount | .recovered userId amount => if userId = u then amount else 0
  | .bet _ _ | .settled _ => 0

/-- The bet total of a user that a settle pays on. -/
def Movement.settledOn (u : UserId) : Movement → Nat
  | .settled d => if d.userId = u then d.stake else 0
  | .bet _ _ | .refund _ _ | .recovered _ _ => 0

def PlaceStage.holds (bet : SeatBet) : PlaceStage → Nat
  | .captured => 0
  | .debited | .failed => bet.betTotal
  | .opening _ previousTotal _ | .saving _ previousTotal _ | .owing previousTotal => previousTotal

def DoubleStage.holds (extra : Nat) : DoubleStage → Nat
  | .debited | .failed => extra
  | .captured | .saving _ _ => 0

/-- The stake of a user in the data of a settle. -/
def SeatData.stakeOf (u : UserId) (d : SeatData) : Nat := if d.userId = u then d.stake else 0

/-- What a call in flight holds for a user: it is on its way back, or on its
way to a seat or to the ledger. -/
def Proc.holds (u : UserId) : Proc → Nat
  | .placing userId bet stage => if userId = u then stage.holds bet else 0
  | .returning userId refund _ => if userId = u then refund else 0
  | .doubling userId extra stage => if userId = u then stage.holds extra else 0
  | .settling _ data _ => weight (SeatData.stakeOf u) data
  | .dealing _ | .dealer _ | .recovering _ _ | .done => 0

/-- The bet of a user at a seat. -/
def Stake.stakeOf (u : UserId) (k : Stake) : Nat :=
  if k.userId = u then k.bet.elim 0 SeatBet.betTotal else 0

def Table.stakesOf (u : UserId) (t : Table) : Nat := weight (Stake.stakeOf u) t.stakes

/-- What a list of refunds comes to for a user. -/
def refundsOf (u : UserId) (refunds : List (UserId × Nat)) : Nat :=
  weight (fun r => if r.1 = u then r.2 else 0) refunds

/-- What the recovery of a row would refund a user. -/
def StateJson.stakesOf (u : UserId) (j : StateJson) : Nat := refundsOf u (parseSeatStakes j)

/-- A write to a row. -/
def Proc.writesTo (roundDbId : RoundId) (p : Proc) : Nat :=
  if p.write.map Write.roundDbId = some roundDbId then 1 else 0

/-- A settle of a window. -/
def Proc.settlesOn (window : Nat) (p : Proc) : Nat := if p.settles = some window then 1 else 0

instance (s : State) : Decidable s.inPlay := by
  unfold State.inPlay
  infer_instance

/-- The round of the row is on the table, and at play. -/
def State.atPlay (s : State) (roundDbId : RoundId) : Prop :=
  s.installed = true ∧ s.inPlay ∧ s.table.roundDbId = some roundDbId

instance (s : State) (roundDbId : RoundId) : Decidable (s.atPlay roundDbId) := by
  unfold State.atPlay
  infer_instance

/-- A row is in hand while its round is at play or is settled, or a write to
it is in flight. -/
def State.inHand (s : State) (r : RoundRow) : Prop :=
  s.atPlay r.id ∨ 0 < weight (Proc.settlesOn r.window) s.procs ∨
    0 < weight (Proc.writesTo r.id) s.procs

instance (s : State) (r : RoundRow) : Decidable (s.inHand r) := by
  unfold State.inHand
  infer_instance

/-- What an open row that is in no hand holds for a user. -/
def State.share (u : UserId) (s : State) (r : RoundRow) : Nat :=
  if r.ended = false ∧ ¬ s.inHand r then r.stateJson.stakesOf u else 0

def State.atTable (u : UserId) (s : State) : Nat := if s.inPlay then s.table.stakesOf u else 0

def State.inRows (u : UserId) (s : State) : Nat := weight (s.share u) s.rows

/-- All that is held for a user. -/
def State.held (u : UserId) (s : State) : Nat :=
  weight (Proc.holds u) s.procs + s.atTable u + s.inRows u

/-- What was debited is refunded, settled on or held. -/
def Conserved (s : State) : Prop :=
  ∀ u, weight (Movement.debited u) s.ledger =
    weight (Movement.refunded u) s.ledger + weight (Movement.settledOn u) s.ledger + s.held u

/-! ## What stays in the same hands -/

/-- An opening whose row is not created yet. -/
def Proc.creating : Proc → Option Nat
  | .placing _ _ (.opening window _ .creating) => some window
  | _ => none

/-- Not an opening of a row. -/
structure Proc.Plain (p : Proc) : Prop where
  creating : p.creating = none
  freshRow : p.freshRow = none

def Table.noBets (t : Table) : Prop := ∀ k ∈ t.stakes, k.bet = none

/-- A step that leaves every row in the hands it is in. -/
structure Steady (s s' : State) : Prop where
  rows : s'.rows = s.rows
  round : SameRound s s'
  inPlay : s'.inPlay ↔ s.inPlay
  idle : (s.table.phase = .idle → s.table.noBets) → s'.table.phase = .idle → s'.table.noBets
  settles : ∀ window,
    weight (Proc.settlesOn window) s'.procs = weight (Proc.settlesOn window) s.procs
  writes : ∀ roundDbId,
    weight (Proc.writesTo roundDbId) s'.procs = weight (Proc.writesTo roundDbId) s.procs ∨
      s.atPlay roundDbId
  plain : ∀ p ∈ s'.procs, p ∈ s.procs ∨ p.Plain

section Steady

variable {s s' s'' : State} {i : Nat} {p q : Proc} {t : Table} {u : UserId}

/-- The phase and the drivers make a table be at play. -/
theorem inPlay_congr (hphase : s'.table.phase = s.table.phase)
    (htotal : s'.openings + s'.rolling = s.openings + s.rolling) : s'.inPlay ↔ s.inPlay := by
  unfold State.inPlay
  rw [hphase, htotal]

theorem Steady.atPlay (h : Steady s s') (roundDbId : RoundId) :
    s'.atPlay roundDbId ↔ s.atPlay roundDbId := by
  unfold State.atPlay
  rw [h.inPlay, h.round.1, h.round.2.2]

theorem Steady.inHand (h : Steady s s') (r : RoundRow) : s'.inHand r ↔ s.inHand r := by
  unfold State.inHand
  rw [h.atPlay, h.settles]
  rcases h.writes r.id with hsame | hplay
  · rw [hsame]
  · simp [hplay]

/-- The rows of a steady step hold what they held. -/
theorem Steady.inRows (h : Steady s s') (u : UserId) : s'.inRows u = s.inRows u := by
  unfold State.inRows
  rw [h.rows]
  refine weight_congr fun r _ => ?_
  unfold State.share
  simp only [h.inHand]

theorem Steady.trans (h : Steady s s') (h' : Steady s' s'') : Steady s s'' where
  rows := h'.rows.trans h.rows
  round := ⟨h'.round.1.trans h.round.1, h'.round.2.1.trans h.round.2.1,
    h'.round.2.2.trans h.round.2.2⟩
  inPlay := h'.inPlay.trans h.inPlay
  idle hidle := h'.idle (h.idle hidle)
  settles window := (h'.settles window).trans (h.settles window)
  writes roundDbId := by
    rcases h'.writes roundDbId with hsame | hplay
    · rw [hsame]
      exact h.writes roundDbId
    · exact .inr ((h.atPlay roundDbId).mp hplay)
  plain p hp := by
    rcases h'.plain p hp with hp | hplain
    · exact h.plain p hp
    · exact .inr hplain

/-- The table changes in what no row and no driver depends on. -/
theorem Steady.setTable (hphase : t.phase = s.table.phase) (hdeal : t.dealSet = s.table.dealSet)
    (hround : t.roundDbId = s.table.roundDbId)
    (hidle : s.table.noBets → t.phase = .idle → t.noBets) : Steady s (s.setTable t) where
  rows := rfl
  round := ⟨rfl, rfl, hround⟩
  inPlay := by
    have honTurn : t.onTurn = s.table.onTurn := by
      unfold Table.onTurn
      rw [hphase]
    refine inPlay_congr hphase ?_
    simp only [State.openings, State.rolling, setTable_procs, setTable_table, hdeal, honTurn]
  idle h hrests := hidle (h (hphase.symm.trans hrests)) hrests
  settles _ := rfl
  writes _ := .inl rfl
  plain _ hp := .inl hp

/-- What takes a slot over drives as much, settles the same, and waits for a
write of the round at play if it waits for one. -/
structure TakesOver (s : State) (p q : Proc) : Prop where
  opens : q.opens = p.opens
  rolls : q.rolls = p.rolls
  doubles : q.doubles = p.doubles
  settles : q.settles = p.settles
  write : q.write = p.write ∨ (p.write = none ∧ ∀ w, q.write = some w → s.atPlay w.roundDbId)
  plain : q.Plain

theorem Steady.setProc (hp : s.procs[i]? = some p) (h : TakesOver s p q) :
    Steady s (s.setProc i q) where
  rows := rfl
  round := ⟨rfl, rfl, rfl⟩
  inPlay := by
    have hopens := weight_set Proc.opens hp q
    have hrolls := weight_set Proc.rolls hp q
    have hdoubles := weight_set Proc.doubles hp q
    rw [h.opens] at hopens
    rw [h.rolls] at hrolls
    rw [h.doubles] at hdoubles
    refine inPlay_congr rfl ?_
    simp only [State.openings, State.rolling, setProc_procs, setProc_table]
    omega
  idle h := h
  settles window := by
    have hset := weight_set (Proc.settlesOn window) hp q
    have hsame : q.settlesOn window = p.settlesOn window := by
      unfold Proc.settlesOn
      rw [h.settles]
    simp only [setProc_procs]
    omega
  writes roundDbId := by
    have hset := weight_set (Proc.writesTo roundDbId) hp q
    rcases h.write with hsame | ⟨hnone, hplay⟩
    · have hsame' : q.writesTo roundDbId = p.writesTo roundDbId := by
        unfold Proc.writesTo
        rw [hsame]
      simp only [setProc_procs]
      omega
    · by_cases hwrite : q.write.map Write.roundDbId = some roundDbId
      · obtain ⟨w, hw, rfl⟩ := Option.map_eq_some_iff.mp hwrite
        exact .inr (hplay w hw)
      · have hq : q.writesTo roundDbId = 0 := if_neg hwrite
        have hp' : p.writesTo roundDbId = 0 := by
          unfold Proc.writesTo
          rw [hnone]
          exact if_neg (by simp)
        simp only [setProc_procs]
        omega
  plain := mem_set_of h.plain

/-- A call that is new. -/
theorem Steady.spawn (hquiet : q.Quiet) (hplain : q.Plain)
    (hwrite : ∀ w, q.write = some w → s.atPlay w.roundDbId) : Steady s (s.spawn q) where
  rows := rfl
  round := ⟨rfl, rfl, rfl⟩
  inPlay := by
    have hopens : q.opens ≤ 0 := hquiet.opens
    have hrolls : q.rolls ≤ 0 := hquiet.rolls
    have hdoubles : q.doubles ≤ 0 := hquiet.doubles
    refine inPlay_congr rfl ?_
    simp only [State.openings, State.rolling, spawn_procs, spawn_table, weight_append, weight_cons,
      weight_nil]
    omega
  idle h := h
  settles window := by
    have hnone : q.settles = none := hquiet.settles.elim id id
    have hzero : q.settlesOn window = 0 := by
      unfold Proc.settlesOn
      rw [hnone]
      exact if_neg (by simp)
    simp only [spawn_procs, weight_append, weight_cons, weight_nil]
    omega
  writes roundDbId := by
    by_cases hto : q.write.map Write.roundDbId = some roundDbId
    · obtain ⟨w, hw, rfl⟩ := Option.map_eq_some_iff.mp hto
      exact .inr (hwrite w hw)
    · have hzero : q.writesTo roundDbId = 0 := if_neg hto
      simp only [spawn_procs, weight_append, weight_cons, weight_nil]
      omega
  plain := mem_append_of hplain

theorem Steady.record (ms : List Movement) : Steady s (s.record ms) where
  rows := rfl
  round := ⟨rfl, rfl, rfl⟩
  inPlay := Iff.rfl
  idle h := h
  settles _ := rfl
  writes _ := .inl rfl
  plain _ hp := .inl hp

/-- The turn moves on: the table stays at play. -/
theorem Steady.turned {s₀ : State} {r : Table × Bool} (hin : s.inPlay) (hrows : s₀.rows = s.rows)
    (hround : SameRound s (s₀.turned r)) (hphase : t.phase = .player_turns)
    (hsettles : ∀ window,
      weight (Proc.settlesOn window) s₀.procs = weight (Proc.settlesOn window) s.procs)
    (hwrites : ∀ roundDbId,
      weight (Proc.writesTo roundDbId) s₀.procs = weight (Proc.writesTo roundDbId) s.procs)
    (hplain : ∀ p ∈ s₀.procs, p ∈ s.procs ∨ p.Plain) (hturn : TurnTo t r) :
    Steady s (s₀.turned r) := by
  have hdealer : ∀ g : Proc → Nat, g (.dealer false) = 0 →
      weight g (s₀.turned r).procs = weight g s₀.procs := by
    intro g hg
    rw [turned_procs]
    split
    · simp [hg]
    · rfl
  refine ⟨turned_rows.trans hrows, hround, ⟨fun _ => hin, fun _ => ?_⟩, fun _ => ?_, ?_, ?_, ?_⟩
  · rcases hturn with ⟨next, -, -, rfl⟩ | rfl
    · refine .inr ?_
      have honTurn : Table.onTurn ({ t with
          activeSeat := some next.index
          timer := some (.turn next.index) } : Table) = 1 := if_pos hphase
      rw [State.rolling, turned_table, honTurn]
      omega
    · refine inPlay_of_mem (p := .dealer false) ?_ rfl
      rw [turned_procs]
      exact List.mem_append_right _ (List.mem_singleton_self _)
  · rcases hturn with ⟨_, -, -, rfl⟩ | rfl
    · intro hidle
      rw [turned_table] at hidle
      rw [show _ = Phase.player_turns from hphase] at hidle
      cases hidle
    · simp [Table.startDealer]
  · intro window
    rw [hdealer _ rfl, hsettles]
  · intro roundDbId
    rw [hdealer _ rfl, hwrites]
    exact .inl rfl
  · exact mem_turned_of ⟨rfl, rfl⟩ hplain

/-- What is held changes as the calls and the table do. -/
theorem Steady.held (h : Steady s s') (u : UserId) :
    s'.held u + (weight (Proc.holds u) s.procs + if s.inPlay then s.table.stakesOf u else 0) =
      s.held u + (weight (Proc.holds u) s'.procs + if s.inPlay then s'.table.stakesOf u else 0) := by
  have hafter : s'.atTable u = if s.inPlay then s'.table.stakesOf u else 0 := by
    unfold State.atTable
    simp only [h.inPlay]
  unfold State.held
  rw [h.inRows u, hafter]
  show _ = _ + (if s.inPlay then s.table.stakesOf u else 0) + _ + _
  omega

theorem Steady.held_eq (h : Steady s s') (u : UserId)
    (hprocs : weight (Proc.holds u) s'.procs = weight (Proc.holds u) s.procs)
    (hstakes : s.inPlay → s'.table.stakesOf u = s.table.stakesOf u) : s'.held u = s.held u := by
  have hheld := h.held u
  rw [hprocs] at hheld
  by_cases hin : s.inPlay
  · rw [if_pos hin, if_pos hin, hstakes hin] at hheld
    omega
  · rw [if_neg hin, if_neg hin] at hheld
    omega

end Steady

/-! ## The invariant -/

/-- A step moves money from holder to holder only. -/
def Moves (s s' : State) : Prop :=
  ∀ u, weight (Movement.debited u) s'.ledger + (weight (Movement.refunded u) s.ledger +
      weight (Movement.settledOn u) s.ledger + s.held u) =
    weight (Movement.debited u) s.ledger + (weight (Movement.refunded u) s'.ledger +
      weight (Movement.settledOn u) s'.ledger + s'.held u)

structure Kept (s : State) : Prop where
  ids : (s.rows.map RoundRow.id).Nodup
  windows : (s.rows.map RoundRow.window).Nodup
  bound : ∀ r ∈ s.rows, r.window ≤ s.window
  creating : ∀ p ∈ s.procs, ∀ window, p.creating = some window →
    ∀ r ∈ s.rows, r.window < s.window
  played : s.installed = true → s.inPlay → ∃ r ∈ s.rows,
    s.table.roundDbId = some r.id ∧ r.window = s.window ∧ r.ended = false
  fresh : ∀ p ∈ s.procs, ∀ roundDbId window, p.freshRow = some (roundDbId, window) →
    weight (Proc.writesTo roundDbId) s.procs = 0 ∧ ∃ r ∈ s.rows,
      r.id = roundDbId ∧ r.window = window ∧ r.ended = false ∧ r.stateJson = .empty
  filed : ∀ roundDbId, 0 < weight (Proc.writesTo roundDbId) s.procs →
    roundDbId ∈ s.rows.map RoundRow.id
  settling : ∀ window, weight (Proc.settlesOn window) s.procs ≤ 1 ∧
    (0 < weight (Proc.settlesOn window) s.procs → ∃ r ∈ s.rows, r.window = window ∧ r.ended = false)
  idle : s.table.phase = .idle → s.table.noBets
  doubling : 0 < weight Proc.doubles s.procs → s.table.phase = .player_turns
  conserved : Conserved s

section Kept

variable {past : Nat → Prop} {cfg : Config} {s s' : State} {i : Nat}

theorem Conserved.moves (h : Conserved s) (hmoves : Moves s s') : Conserved s' := by
  intro u
  have hbefore := h u
  have hmove := hmoves u
  omega

theorem Moves.of_held (hledger : s'.ledger = s.ledger) (h : ∀ u, s'.held u = s.held u) :
    Moves s s' := by
  intro u
  rw [hledger, h u]

/-- While an opening has a row that is not on the table, none is. -/
theorem not_atPlay_of_fresh (hchain : Chain past s) {p : Proc} (hp : p ∈ s.procs)
    {window : Nat} (hopening : p.opening = some window) (roundDbId : RoundId) :
    ¬ s.atPlay roundDbId := by
  have hle : p.opens ≤ weight Proc.opens s.procs := le_weight hp
  rw [opens_of_opening hopening] at hle
  have hfalse := hchain.fresh hle
  intro hplay
  rw [hplay.1] at hfalse
  cases hfalse

/-- A steady step keeps the books. -/
theorem Kept.steady (h : Kept s) (hchain : Chain past s) (hs : Steady s s')
    (hdoubling : 0 < weight Proc.doubles s'.procs → s'.table.phase = .player_turns)
    (hmoves : Moves s s') : Kept s' := by
  obtain ⟨hinstalled, hwindow, hround⟩ := hs.round
  refine ⟨?_, ?_, ?_, ?_, ?_, ?_, ?_, ?_, hs.idle h.idle, hdoubling, h.conserved.moves hmoves⟩
  · rw [hs.rows]
    exact h.ids
  · rw [hs.rows]
    exact h.windows
  · rw [hs.rows, hwindow]
    exact h.bound
  · rw [hs.rows, hwindow]
    intro p hp window hcreating
    rcases hs.plain p hp with hp | hplain
    · exact h.creating p hp window hcreating
    · rw [hplain.creating] at hcreating
      cases hcreating
  · rw [hinstalled, hs.inPlay, hs.rows, hround, hwindow]
    exact h.played
  · intro p hp roundDbId window hfresh
    rcases hs.plain p hp with hp | hplain
    · obtain ⟨hzero, hrow⟩ := h.fresh p hp roundDbId window hfresh
      rw [hs.rows]
      refine ⟨?_, hrow⟩
      rcases hs.writes roundDbId with hsame | hplay
      · exact hsame.trans hzero
      · exact absurd hplay (not_atPlay_of_fresh hchain hp (opening_of_freshRow hfresh) _)
    · rw [hplain.freshRow] at hfresh
      cases hfresh
  · intro roundDbId hpos
    rw [hs.rows]
    rcases hs.writes roundDbId with hsame | hplay
    · exact h.filed roundDbId (hsame ▸ hpos)
    · obtain ⟨r, hr, hid, -⟩ := h.played hplay.1 hplay.2.1
      rw [hplay.2.2] at hid
      cases hid
      exact List.mem_map_of_mem hr
  · intro window
    rw [hs.settles, hs.rows]
    exact h.settling window

end Kept

/-! ## The condition on a run -/

/-- What the rows in hand show for a user. -/
def State.shown (u : UserId) (s : State) : Nat :=
  weight (fun r => if r.ended = false ∧ s.inHand r then r.stateJson.stakesOf u else 0) s.rows

/-- The steps that lose no stake and refund none twice: a double is of the
stake that was debited for it; a settle commits on its own round; whatever
leaves a row to the recovery leaves in it what it held; and the recovery
refunds what the row shows, and of a row that is in no hand. -/
def HandsOver (s : State) : Event → Prop
  | .call i => ∀ userId extra, s.procs[i]? = some (.doubling userId extra .debited) →
      ∀ seat bet, s.table.acceptsAction userId .double seat → seat.bet = some bet →
        bet.mainLamports = extra
  | .saved i => ∀ p w, s.procs[i]? = some p → p.write = some w →
      ∀ r ∈ s.rows, r.id = w.roundDbId → r.ended = false → ¬ s.atPlay r.id →
        weight (Proc.settlesOn r.window) s.procs = 0 →
        weight (Proc.writesTo r.id) s.procs = 1 → ∀ u, w.stateJson.stakesOf u = 0
  | .timer => s.table.timer = some .deal → s.table.bettingSeats = [] →
      ∀ r ∈ s.rows, s.table.roundDbId = some r.id → r.ended = false →
        weight (Proc.writesTo r.id) s.procs = 0 → ∀ u, r.stateJson.stakesOf u = 0
  | .settled i => ∀ window data stateJson, s.procs[i]? = some (.settling window data stateJson) →
      ∃ r ∈ s.rows, s.table.roundDbId = some r.id ∧ r.window = window
  | .aborted i => ∀ window data stateJson, s.procs[i]? = some (.settling window data stateJson) →
      ¬ s.inPlay ∧ ∃ r ∈ s.rows, r.window = window ∧ weight (Proc.writesTo r.id) s.procs = 0 ∧
        ∀ u, r.stateJson.stakesOf u = weight (SeatData.stakeOf u) data
  | .recovered i => ∀ roundDbId refunds, s.procs[i]? = some (.recovering roundDbId refunds) →
      ∀ r ∈ s.rows, r.id = roundDbId → r.ended = false → ¬ s.inHand r ∧
        (∀ p ∈ s.procs, ∀ window, p.freshRow ≠ some (roundDbId, window)) ∧
        ∀ u, refundsOf u refunds = r.stateJson.stakesOf u
  | .fail _ => False
  | .kill => ∀ u, weight (Proc.holds u) s.procs + s.atTable u = s.shown u
  | _ => True

def MoneySafe (cfg : Config) (s : State) (e : Event) : Prop := FilesSafely cfg s e ∧ HandsOver s e

/-! ## Seats and calls -/

section Seats

variable {past : Nat → Prop} {cfg : Config} {s s' : State} {i : Nat} {t : Table} {u : UserId}

theorem stakeOf_none {k : Stake} (h : k.bet = none) : k.stakeOf u = 0 := by
  unfold Stake.stakeOf
  rw [h]
  split
  · rfl
  · rfl

theorem stakesOf_noBets (h : t.noBets) : t.stakesOf u = 0 :=
  weight_eq_zero fun k hk => stakeOf_none (h k hk)

theorem takeSeat_stakes (seatIndex : Nat) (userId : UserId) :
    (takeSeat t seatIndex userId).1.stakes = t.stakes ∨
      (takeSeat t seatIndex userId).1.stakes = t.stakes ++ [⟨seatIndex, userId, none⟩] := by
  rcases takeSeat_cases t seatIndex userId with ⟨e, htake⟩ | ⟨-, htake⟩
  · rw [htake]
    exact .inl rfl
  · rw [htake]
    refine .inr ?_
    simp [Table.stakes, Seat.stake, newSeat]

theorem takeSeat_frame (seatIndex : Nat) (userId : UserId) :
    (takeSeat t seatIndex userId).1.phase = t.phase ∧
      (takeSeat t seatIndex userId).1.timer = t.timer ∧
      (takeSeat t seatIndex userId).1.roundDbId = t.roundDbId := by
  rcases takeSeat_cases t seatIndex userId with ⟨e, htake⟩ | ⟨-, htake⟩
  · rw [htake]
    exact ⟨rfl, rfl, rfl⟩
  · rw [htake]
    exact ⟨rfl, rfl, rfl⟩

/-- A table update that keeps the phase, the timer and the row. -/
theorem steady_setTable (hphase : t.phase = s.table.phase) (htimer : t.timer = s.table.timer)
    (hround : t.roundDbId = s.table.roundDbId) (hidle : s.table.noBets → t.phase = .idle → t.noBets) :
    Steady s (s.setTable t) := by
  refine Steady.setTable hphase ?_ hround hidle
  unfold Table.dealSet
  rw [htimer]

theorem Kept.takeSeat (h : Kept s) (hchain : Chain past s) (seatIndex : Nat) (userId : UserId) :
    Kept (s.setTable (takeSeat s.table seatIndex userId).1) := by
  obtain ⟨hphase, htimer, hround⟩ := takeSeat_frame (t := s.table) seatIndex userId
  have hsteady : Steady s (s.setTable (Blackjack.takeSeat s.table seatIndex userId).1) := by
    refine steady_setTable hphase htimer hround fun hnone _ => ?_
    rcases takeSeat_stakes (t := s.table) seatIndex userId with hsame | hmore
    · unfold Table.noBets
      rw [hsame]
      exact hnone
    · intro k hk
      rw [hmore] at hk
      rcases List.mem_append.mp hk with hk | hk
      · exact hnone k hk
      · cases List.mem_singleton.mp hk
        rfl
  refine h.steady hchain hsteady (fun hpos => hphase.trans (h.doubling hpos)) ?_
  refine .of_held rfl fun u => hsteady.held_eq u rfl fun _ => ?_
  show weight (Stake.stakeOf u) _ = weight (Stake.stakeOf u) _
  rcases takeSeat_stakes (t := s.table) seatIndex userId with hsame | hmore
  · rw [setTable_table, hsame]
  · rw [setTable_table, hmore, weight_append, weight_cons, weight_nil, stakeOf_none rfl]
    rfl

/-- A stake that comes back: off the table, and with a call that returns it. -/
theorem Kept.returned (h : Kept s) (hchain : Chain past s) {userId : UserId} {refund : Nat}
    (hfiled : s.filed) (hbetting : s.table.phase = .betting) (hphase : t.phase = .betting)
    (htimer : t.timer = s.table.timer) (hround : t.roundDbId = s.table.roundDbId)
    (hstakes : ∀ u, t.stakesOf u + (if userId = u then refund else 0) = s.table.stakesOf u) :
    Kept ((s.setTable t).returnBet userId refund) := by
  have hin : s.inPlay := .inl hbetting
  have hset : Steady s (s.setTable t) := by
    refine steady_setTable (hphase.trans hbetting.symm) htimer hround fun _ hidle => ?_
    rw [hphase] at hidle
    cases hidle
  have hspawn : Steady (s.setTable t) ((s.setTable t).returnBet userId refund) := by
    refine Steady.spawn quiet_returning ⟨rfl, rfl⟩ fun w hw => ?_
    obtain ⟨hid, -⟩ := captureStakes_eq hw
    have hinstalled : s.installed = true := installed_of_filed hfiled (hround.symm.trans hid)
    exact ⟨hinstalled, .inl hphase, hid⟩
  have hsteady := hset.trans hspawn
  refine h.steady hchain hsteady ?_ fun u => ?_
  · intro hpos
    have hzero : weight Proc.doubles ((s.setTable t).returnBet userId refund).procs =
        weight Proc.doubles s.procs := by
      simp [State.returnBet, Proc.doubles]
    rw [hzero] at hpos
    have hturns := h.doubling hpos
    rw [hbetting] at hturns
    cases hturns
  · have hheld := hsteady.held u
    have htable := hstakes u
    have hprocs : weight (Proc.holds u) ((s.setTable t).returnBet userId refund).procs =
        weight (Proc.holds u) s.procs + if userId = u then refund else 0 := by
      simp [State.returnBet, Proc.holds]
    rw [if_pos hin, if_pos hin, hprocs] at hheld
    have htable' : ((s.setTable t).returnBet userId refund).table.stakesOf u = t.stakesOf u := rfl
    have hledger : ((s.setTable t).returnBet userId refund).ledger = s.ledger := rfl
    rw [hledger]
    omega

theorem stakeOf_of_bet {seat : Seat} {bet : SeatBet} (hbet : seat.bet = some bet) :
    seat.stake.stakeOf u = if seat.userId = u then bet.betTotal else 0 := by
  simp [Stake.stakeOf, Seat.stake, hbet]

theorem Kept.leave (h : Kept s) (hchain : Chain past s) {userId : UserId}
    (hsafe : FilesSafely cfg s (.leave userId)) (hstep : stepLeave s userId = some s') : Kept s' := by
  unfold stepLeave at hstep
  rcases leaveSeat_cases s.table userId with
    ⟨e, hleave, -⟩ | ⟨seat, hseat, hnone, hover, hleave⟩ | ⟨seat, bet, hphase, hseat, hbet, hleave⟩
  · rw [hleave] at hstep
    cases hstep
    exact h
  · rw [hleave] at hstep
    cases hstep
    have hmem := (seatOf_mem hseat).1
    have hsteady : Steady s (s.setTable (s.table.deleteSeat seat.index)) := by
      refine steady_setTable rfl rfl rfl fun hnone _ k hk => ?_
      obtain ⟨x, hx, rfl⟩ := List.mem_map.mp hk
      exact hnone _ (List.mem_map_of_mem (List.mem_filter.mp hx).1)
    refine h.steady hchain hsteady (fun hpos => h.doubling hpos) ?_
    refine .of_held rfl fun u => hsteady.held_eq u rfl fun hin => ?_
    -- a seat with a bet leaves a table at rest only
    have hbet : seat.bet = none := by
      by_contra hbet
      have hzero := hchain.rest (hover hbet)
      rcases hin with hbetting | hpos
      · exact hbet (hnone hbetting)
      · omega
    have hweight := weight_deleteSeat (Stake.stakeOf u) hchain.distinct hmem
    rw [stakeOf_none (k := seat.stake) hbet] at hweight
    exact hweight
  · rw [hleave] at hstep
    cases hstep
    obtain ⟨hmem, huser⟩ := seatOf_mem hseat
    refine h.returned hchain (hsafe hphase seat hseat (by simp [hbet])) hphase hphase rfl rfl ?_
    intro u
    have hweight := weight_deleteSeat (Stake.stakeOf u) hchain.distinct hmem
    rw [stakeOf_of_bet hbet, huser] at hweight
    exact hweight

theorem Kept.clear (h : Kept s) (hchain : Chain past s) {userId : UserId}
    (hsafe : FilesSafely cfg s (.clear userId)) (hstep : stepClear s userId = some s') : Kept s' := by
  unfold stepClear at hstep
  rcases clearBet_cases s.table userId with ⟨e, hclear, -⟩ | ⟨seat, _, hphase, hseat, hbet, hclear⟩
  · rw [hclear] at hstep
    cases hstep
    exact h
  · rw [hclear] at hstep
    cases hstep
    obtain ⟨hmem, huser⟩ := seatOf_mem hseat
    refine h.returned hchain (hsafe hphase seat hseat (by simp [hbet])) hphase hphase rfl rfl ?_
    intro u
    have hweight : weight (Stake.stakeOf u) (s.table.setSeat seat.index Seat.clearBet).stakes +
        seat.stake.stakeOf u = s.table.stakesOf u + seat.clearBet.stake.stakeOf u :=
      weight_setSeat (Stake.stakeOf u) hchain.distinct hmem
    rw [stakeOf_of_bet hbet, huser, stakeOf_none (k := seat.clearBet.stake) rfl] at hweight
    exact hweight

/-- The turn moves on from a table whose stakes are what they were. -/
theorem turned_doubling {s₀ : State} {r : Table × Bool}
    (hfree : weight Proc.doubles s₀.procs = 0) : ¬ 0 < weight Proc.doubles (s₀.turned r).procs := by
  rw [turned_procs]
  split
  · simp [hfree, Proc.doubles]
  · omega

theorem turned_holds {s₀ : State} {r : Table × Bool} :
    weight (Proc.holds u) (s₀.turned r).procs = weight (Proc.holds u) s₀.procs := by
  rw [turned_procs]
  split
  · simp [Proc.holds]
  · rfl

theorem turned_stakesOf {s₀ : State} {r : Table × Bool} (hturn : TurnTo t r) :
    (s₀.turned r).table.stakesOf u = t.stakesOf u := by
  unfold Table.stakesOf
  rw [turned_table, turnTo_stakes hturn]

theorem inPlay_of_rolling (h : 0 < s.rolling) : s.inPlay := .inr (by omega)

theorem Kept.act (h : Kept s) (hchain : Chain past s) {userId : UserId} {a : Action}
    (hstep : stepAct cfg s userId a = some s') : Kept s' := by
  unfold stepAct at hstep
  split at hstep
  · cases hstep
  · rename_i hdouble
    rcases action_cases cfg.stream s.table userId a with
      ⟨e, haction, -⟩ | ⟨seat, haccepts, haction⟩
    · rw [haction] at hstep
      cases hstep
      exact h
    · rw [haction] at hstep
      cases hstep
      have hin := inPlay_of_rolling (hchain.alone haccepts.1).1
      have hturn := afterAction_turnTo (t := s.table.acted cfg.stream a seat) seat.index
      have hsteady : Steady s (s.turned (afterAction (s.table.acted cfg.stream a seat) seat.index)) :=
        Steady.turned hin rfl (turned_sameRound rfl rfl acted_frame.2.2.1 hturn)
          (acted_frame.1.trans haccepts.1) (fun _ => rfl) (fun _ => rfl) (fun p hp => .inl hp) hturn
      refine h.steady hchain hsteady
        (fun hpos => absurd hpos (turned_doubling (hchain.undoubled haccepts))) ?_
      refine .of_held turned_ledger fun u => hsteady.held_eq u turned_holds fun _ => ?_
      rw [turned_stakesOf hturn]
      unfold Table.stakesOf
      rw [acted_stakes hdouble]

/-- A call that is new holds nothing. -/
theorem Kept.called (h : Kept s) (hchain : Chain past s) {q : Proc} (hquiet : q.Quiet)
    (hplain : q.Plain) (hwrite : q.write = none) (hholds : ∀ u, q.holds u = 0) :
    Kept (s.spawn q) := by
  have hsteady : Steady s (s.spawn q) := Steady.spawn hquiet hplain fun w hw => by
    rw [hwrite] at hw
    cases hw
  refine h.steady hchain hsteady ?_ (.of_held rfl fun u => hsteady.held_eq u ?_ fun _ => rfl)
  · intro hpos
    have hzero : q.doubles ≤ 0 := hquiet.doubles
    refine h.doubling ?_
    simp only [spawn_procs, weight_append, weight_cons, weight_nil] at hpos
    omega
  · simp [hholds u]

/-- A quiet call goes on: what it held before and after differs by what the
ledger shows. -/
theorem Kept.goesOn (h : Kept s) (hchain : Chain past s) {p q : Proc} {ms : List Movement}
    (hp : s.procs[i]? = some p) (htakes : TakesOver s p q)
    (hmoney : ∀ u, weight (Movement.debited u) ms + p.holds u =
      weight (Movement.refunded u) ms + weight (Movement.settledOn u) ms + q.holds u) :
    Kept ((s.setProc i q).record ms) := by
  have hset := Steady.setProc hp htakes
  have hsteady := hset.trans (.record ms)
  refine h.steady hchain hsteady ?_ fun u => ?_
  · intro hpos
    have hweight := weight_set Proc.doubles hp q
    rw [htakes.doubles] at hweight
    refine h.doubling ?_
    simp only [record_procs, setProc_procs] at hpos
    omega
  · have hheld := hsteady.held u
    have hweight := weight_set (Proc.holds u) hp q
    have hm := hmoney u
    simp only [record_procs, setProc_procs, record_table, setProc_table] at hheld
    simp only [record_ledger, setProc_ledger, weight_append]
    omega

/-- The same without a movement. -/
theorem Kept.goesOnQuietly (h : Kept s) (hchain : Chain past s) {p q : Proc}
    (hp : s.procs[i]? = some p) (htakes : TakesOver s p q) (hholds : ∀ u, q.holds u = p.holds u) :
    Kept (s.setProc i q) := by
  have hsame : (s.setProc i q).record [] = s.setProc i q := by
    simp [State.record, State.setProc]
  rw [← hsame]
  refine h.goesOn hchain hp htakes fun u => ?_
  simp [hholds u]

theorem Kept.debit (h : Kept s) (hchain : Chain past s) (hstep : stepDebit s i = some s') :
    Kept s' := by
  unfold stepDebit at hstep
  split at hstep
  · rename_i hp
    cases hstep
    refine h.goesOn hchain hp ⟨rfl, rfl, rfl, rfl, .inl rfl, ⟨rfl, rfl⟩⟩ fun u => ?_
    simp [Movement.debited, Movement.refunded, Movement.settledOn, Proc.holds, PlaceStage.holds]
  · rename_i hp
    cases hstep
    refine h.goesOn hchain hp ⟨rfl, rfl, rfl, rfl, .inl rfl, ⟨rfl, rfl⟩⟩ fun u => ?_
    simp [Movement.debited, Movement.refunded, Movement.settledOn, Proc.holds, DoubleStage.holds]
  · cases hstep

theorem Kept.reject (h : Kept s) (hchain : Chain past s) (hstep : stepReject s i = some s') :
    Kept s' := by
  unfold stepReject at hstep
  split at hstep
  · rename_i hp
    cases hstep
    refine h.goesOnQuietly hchain hp ⟨rfl, rfl, rfl, rfl, .inl rfl, ⟨rfl, rfl⟩⟩ fun u => ?_
    simp [Proc.holds, PlaceStage.holds]
  · rename_i hp
    cases hstep
    refine h.goesOnQuietly hchain hp ⟨rfl, rfl, rfl, rfl, .inl rfl, ⟨rfl, rfl⟩⟩ fun u => ?_
    simp [Proc.holds, DoubleStage.holds]
  · cases hstep

theorem Kept.credit (h : Kept s) (hchain : Chain past s) (hstep : stepCredit s i = some s') :
    Kept s' := by
  unfold stepCredit at hstep
  split at hstep
  all_goals first
    | rename_i hp
      cases hstep
      refine h.goesOn hchain hp ⟨rfl, rfl, rfl, rfl, .inl rfl, ⟨rfl, rfl⟩⟩ fun u => ?_
      simp [Movement.debited, Movement.refunded, Movement.settledOn, Proc.holds, PlaceStage.holds,
        DoubleStage.holds]
    | cases hstep

/-- A call goes on, and the table with it. -/
theorem Kept.goesOnWith (h : Kept s) (hchain : Chain past s) {p q : Proc}
    (hset : Steady s (s.setTable t)) (hp : s.procs[i]? = some p)
    (htakes : TakesOver (s.setTable t) p q) (hphase : t.phase = s.table.phase)
    (hmoney : ∀ u, (if s.inPlay then s.table.stakesOf u else 0) + p.holds u =
      (if s.inPlay then t.stakesOf u else 0) + q.holds u) :
    Kept ((s.setTable t).setProc i q) := by
  have hslot : Steady (s.setTable t) ((s.setTable t).setProc i q) := Steady.setProc hp htakes
  have hsteady := hset.trans hslot
  refine h.steady hchain hsteady ?_ (.of_held rfl fun u => ?_)
  · intro hpos
    have hweight := weight_set Proc.doubles hp q
    rw [htakes.doubles] at hweight
    refine hphase.trans (h.doubling ?_)
    simp only [setProc_procs, setTable_procs] at hpos
    omega
  · have hheld := hsteady.held u
    have hweight := weight_set (Proc.holds u) hp q
    have hm := hmoney u
    simp only [setProc_procs, setTable_procs, setProc_table, setTable_table] at hheld
    omega

theorem refused_frame {chainEnabled : Bool} {userId : UserId} {bet : SeatBet} {t' : Table}
    (h : t.Refused chainEnabled userId bet t') : t'.stakes = t.stakes ∧ t'.phase = t.phase ∧
      t'.timer = t.timer ∧ t'.roundDbId = t.roundDbId := by
  rcases h with rfl | ⟨found, -, -, -, rfl⟩
  · exact ⟨rfl, rfl, rfl, rfl⟩
  · obtain ⟨_, heq⟩ := holdExposure_eq chainEnabled t found bet
    rw [heq]
    exact ⟨rfl, rfl, rfl, rfl⟩

theorem staked_eq {seat : Seat} :
    seat.stake.stakeOf u = if seat.userId = u then seat.staked else 0 := by
  unfold Stake.stakeOf Seat.stake Seat.staked
  cases seat.bet with
  | none => rfl
  | some => rfl

/-- A bet in an open window takes the place of the one before. -/
theorem placed_stakesOf {chainEnabled : Bool} {userId : UserId} {bet : SeatBet} {found : Seat}
    (hdistinct : t.Distinct) (hphase : t.phase = .betting) (hfound : t.seatOf userId = some found) :
    (t.placed chainEnabled bet found).stakesOf u + (if userId = u then found.staked else 0) =
      t.stakesOf u + if userId = u then bet.betTotal else 0 := by
  obtain ⟨hmem, rfl⟩ := seatOf_mem hfound
  have hsettled : t.phase ≠ .settled := by
    rw [hphase]
    exact nofun
  have hstakes : (t.placed chainEnabled bet found).stakes =
      (t.setSeat found.index (Seat.place bet)).stakes := by
    obtain ⟨_, heq⟩ := holdExposure_eq chainEnabled t (t.placingSeat found) bet
    rw [Table.placed, clearSettled_of_ne hsettled, heq]
    rfl
  have hweight := weight_setSeat (f := Seat.place bet) (Stake.stakeOf u) hdistinct hmem
  have hbet : (found.place bet).bet = some bet := rfl
  rw [staked_eq, stakeOf_of_bet hbet] at hweight
  unfold Table.stakesOf
  rw [hstakes]
  exact hweight

/-- A bet between rounds is the only one at the table. -/
theorem opened_stakesOf {chainEnabled : Bool} {userId : UserId} {bet : SeatBet} {found : Seat}
    (hdistinct : t.Distinct) (hclear : t.clearSettled.noBets)
    (hfound : t.seatOf userId = some found) :
    (t.placed chainEnabled bet found).stakesOf u = if userId = u then bet.betTotal else 0 := by
  obtain ⟨hmem, rfl⟩ := seatOf_mem hfound
  have hstakes : (t.placed chainEnabled bet found).stakes =
      (t.clearSettled.setSeat found.index (Seat.place bet)).stakes := by
    obtain ⟨_, heq⟩ := holdExposure_eq chainEnabled t.clearSettled (t.placingSeat found) bet
    rw [Table.placed, heq]
    rfl
  have hplacing : t.placingSeat found ∈ t.clearSettled.seats := by
    unfold Table.placingSeat Table.clearSettled
    split
    · exact List.mem_map_of_mem hmem
    · exact hmem
  have huser : (t.placingSeat found).userId = found.userId := by
    unfold Table.placingSeat
    split
    · rfl
    · rfl
  have hweight := weight_setSeat (f := Seat.place bet) (Stake.stakeOf u)
    (clearSettled_distinct hdistinct) hplacing
  have hzero : weight (Stake.stakeOf u) t.clearSettled.stakes = 0 := stakesOf_noBets hclear
  have hnone : (t.placingSeat found).stake.stakeOf u = 0 :=
    stakeOf_none (hclear _ (List.mem_map_of_mem hplacing))
  have hnew : ((t.placingSeat found).place bet).stake.stakeOf u =
      if found.userId = u then bet.betTotal else 0 := by
    have hbet : ((t.placingSeat found).place bet).bet = some bet := rfl
    rw [stakeOf_of_bet hbet]
    exact congrArg (fun v => if v = u then bet.betTotal else 0) huser
  rw [placingSeat_index, hzero, hnone, hnew] at hweight
  unfold Table.stakesOf
  rw [hstakes]
  omega

theorem after_plain (userId : UserId) (bet : SeatBet) (previousTotal : Nat) :
    (PlaceStage.after userId bet previousTotal).Plain := by
  unfold PlaceStage.after
  split
  · exact ⟨rfl, rfl⟩
  · exact ⟨rfl, rfl⟩

theorem after_holds (userId : UserId) (bet : SeatBet) (previousTotal : Nat) :
    (PlaceStage.after userId bet previousTotal).holds u = if userId = u then previousTotal else 0 := by
  unfold PlaceStage.after
  split
  · rfl
  · rename_i hzero
    have h : previousTotal = 0 := by omega
    simp [Proc.holds, h]

theorem clearSettled_noBets (h : t.phase = .idle → t.noBets)
    (hrests : t.phase = .idle ∨ t.phase = .settled) : t.clearSettled.noBets := by
  unfold Table.clearSettled
  split
  · intro k hk
    obtain ⟨x, hx, rfl⟩ := List.mem_map.mp hk
    obtain ⟨y, -, rfl⟩ := List.mem_map.mp hx
    rfl
  · rename_i hsettled
    exact h (hrests.resolve_right hsettled)

/-- Rows that stay in the hands they are in, or hold nothing. -/
theorem inRows_congr (hrows : s'.rows = s.rows)
    (h : ∀ r ∈ s.rows, r.ended = false → (s'.inHand r ↔ s.inHand r) ∨ r.stateJson.stakesOf u = 0) :
    s'.inRows u = s.inRows u := by
  unfold State.inRows
  rw [hrows]
  refine weight_congr fun r hr => ?_
  unfold State.share
  cases hended : r.ended with
  | true => simp
  | false =>
    rcases h r hr hended with hsame | hzero
    · simp [hsame]
    · simp [hzero]

/-- The bet that opens a window. -/
theorem Kept.opened (h : Kept s) (hchain : Chain past s) {userId : UserId} {bet : SeatBet}
    {found : Seat} (hp : s.procs[i]? = some (.placing userId bet .debited))
    (haccepts : s.table.acceptsBet cfg.chainEnabled userId bet found)
    (hrests : s.table.phase = .idle ∨ s.table.phase = .settled) :
    Kept { s with
      table := (s.table.placed cfg.chainEnabled bet found).openPrologue
      window := s.window + 1
      installed := false
      procs := s.procs.set i (.placing userId bet
        (.opening (s.window + 1) (s.table.placingSeat found).staked .creating)) } := by
  have hzero := hchain.rest hrests
  have hout : ¬ s.inPlay := by
    intro hin
    rcases hin with hbetting | hpos
    · rcases hrests with hphase | hphase
      · rw [hphase] at hbetting
        cases hbetting
      · rw [hphase] at hbetting
        cases hbetting
    · omega
  have hnone : s.table.clearSettled.noBets := clearSettled_noBets h.idle hrests
  have hprev : (s.table.placingSeat found).staked = 0 := by
    have hmem := (seatOf_mem haccepts.2.1).1
    unfold Table.placingSeat
    split
    · rfl
    · rename_i hsettled
      have hbet : found.bet = none :=
        h.idle (hrests.resolve_right hsettled) _ (List.mem_map_of_mem hmem)
      simp [Seat.staked, hbet]
  have hset : ∀ g : Proc → Nat, g (.placing userId bet .debited) =
      g (.placing userId bet (.opening (s.window + 1) (s.table.placingSeat found).staked .creating)) →
      weight g (s.procs.set i (.placing userId bet
        (.opening (s.window + 1) (s.table.placingSeat found).staked .creating))) =
        weight g s.procs := by
    intro g hg
    have hweight := weight_set g hp (.placing userId bet
      (.opening (s.window + 1) (s.table.placingSeat found).staked .creating))
    omega
  generalize hs' : ({ s with
      table := (s.table.placed cfg.chainEnabled bet found).openPrologue
      window := s.window + 1
      installed := false
      procs := s.procs.set i (.placing userId bet
        (.opening (s.window + 1) (s.table.placingSeat found).staked .creating)) } : State) = s'
  have hprocs : s'.procs = s.procs.set i (.placing userId bet
      (.opening (s.window + 1) (s.table.placingSeat found).staked .creating)) := by rw [← hs']
  have hrows : s'.rows = s.rows := by rw [← hs']
  have hwindow : s'.window = s.window + 1 := by rw [← hs']
  have hinstalled : s'.installed = false := by rw [← hs']
  have hphase : s'.table.phase = .betting := by
    rw [← hs']
    rfl
  have hwrites : ∀ roundDbId,
      weight (Proc.writesTo roundDbId) s'.procs = weight (Proc.writesTo roundDbId) s.procs := by
    intro roundDbId
    rw [hprocs]
    exact hset _ rfl
  have hsettles : ∀ window,
      weight (Proc.settlesOn window) s'.procs = weight (Proc.settlesOn window) s.procs := by
    intro window
    rw [hprocs]
    exact hset _ rfl
  have hmem : ∀ p ∈ s'.procs, p ∈ s.procs ∨ p.freshRow = none := by
    rw [hprocs]
    exact mem_set_of rfl
  have hhand : ∀ r, s'.inHand r ↔ s.inHand r := by
    intro r
    unfold State.inHand
    rw [hsettles, hwrites]
    have hafter : ¬ s'.atPlay r.id := by
      intro hplay
      have htrue := hplay.1
      rw [hinstalled] at htrue
      cases htrue
    have hbefore : ¬ s.atPlay r.id := fun hplay => hout hplay.2.1
    simp only [hafter, hbefore]
  refine ⟨?_, ?_, ?_, ?_, ?_, ?_, ?_, ?_, ?_, ?_, h.conserved.moves fun u => ?_⟩
  · rw [hrows]
    exact h.ids
  · rw [hrows]
    exact h.windows
  · rw [hrows, hwindow]
    exact fun r hr => Nat.le_succ_of_le (h.bound r hr)
  · intro _ _ _ _
    rw [hrows, hwindow]
    exact fun r hr => Nat.lt_succ_of_le (h.bound r hr)
  · rw [hinstalled]
    exact nofun
  · intro p hp roundDbId window hfresh
    rw [hwrites, hrows]
    rcases hmem p hp with hp | hnone
    · exact h.fresh p hp roundDbId window hfresh
    · rw [hnone] at hfresh
      cases hfresh
  · intro roundDbId hpos
    rw [hrows]
    rw [hwrites] at hpos
    exact h.filed roundDbId hpos
  · intro window
    rw [hsettles, hrows]
    exact h.settling window
  · rw [hphase]
    exact nofun
  · intro hpos
    rw [hprocs, hset Proc.doubles rfl] at hpos
    have hturns := h.doubling hpos
    rcases hrests with hidle | hsettled
    · rw [hidle] at hturns
      cases hturns
    · rw [hsettled] at hturns
      cases hturns
  · have hin : s'.inPlay := .inl hphase
    have hstakes : s'.table.stakesOf u = if userId = u then bet.betTotal else 0 := by
      rw [← hs']
      exact opened_stakesOf hchain.distinct hnone haccepts.2.1
    have hweight := weight_set (Proc.holds u) hp (.placing userId bet
      (.opening (s.window + 1) (s.table.placingSeat found).staked .creating))
    have hdebited : (Proc.placing userId bet .debited).holds u =
        if userId = u then bet.betTotal else 0 := rfl
    have hopening : (Proc.placing userId bet (.opening (s.window + 1)
        (s.table.placingSeat found).staked .creating)).holds u = 0 := by
      simp [Proc.holds, PlaceStage.holds, hprev]
    have hafter : s'.atTable u = s'.table.stakesOf u := if_pos hin
    have hbefore : s.atTable u = 0 := if_neg hout
    have hledger : s'.ledger = s.ledger := by rw [← hs']
    have hinRows : s'.inRows u = s.inRows u := inRows_congr hrows fun r _ _ => .inl (hhand r)
    rw [hdebited, hopening] at hweight
    simp only [State.held]
    rw [hledger, hafter, hbefore, hinRows, hstakes, hprocs]
    omega

theorem Kept.callPlace (h : Kept s) (hchain : Chain past s) {userId : UserId} {bet : SeatBet}
    (hp : s.procs[i]? = some (.placing userId bet .debited))
    (hsafe : s.table.phase = .betting → ∀ found,
      s.table.acceptsBet cfg.chainEnabled userId bet found → s.filed) :
    Kept (callPlace cfg s i userId bet) := by
  unfold Blackjack.callPlace
  rcases placeBet_cases cfg.chainEnabled s.table userId bet with
    ⟨e, t', hplace, hrefused, -⟩ | ⟨found, haccepts, hplace⟩
  · rw [hplace]
    obtain ⟨hstakes, hphase, htimer, hround⟩ := refused_frame hrefused
    have hset : Steady s (s.setTable t') := steady_setTable hphase htimer hround fun hnone _ => by
      unfold Table.noBets
      rw [hstakes]
      exact hnone
    refine h.goesOnWith hchain hset hp ⟨rfl, rfl, rfl, rfl, .inl rfl, ⟨rfl, rfl⟩⟩ hphase ?_
    intro u
    unfold Table.stakesOf
    rw [hstakes]
    rfl
  · rw [hplace]
    dsimp only
    by_cases hbetting : s.table.phase = .betting
    · have hin : s.inPlay := .inl hbetting
      have hset : Steady s (s.setTable (s.table.placed cfg.chainEnabled bet found)) := by
        refine steady_setTable placed_frame.1 placed_frame.2.1 placed_frame.2.2 fun _ hidle => ?_
        rw [placed_frame.1, hbetting] at hidle
        cases hidle
      have hplacing : s.table.placingSeat found = found := if_neg (by rw [hbetting]; exact nofun)
      have hmoney : ∀ u, (if s.inPlay then s.table.stakesOf u else 0) +
          (if userId = u then bet.betTotal else 0) =
          (if s.inPlay then (s.table.placed cfg.chainEnabled bet found).stakesOf u else 0) +
            if userId = u then found.staked else 0 := by
        intro u
        rw [if_pos hin, if_pos hin]
        have hplaced : (s.table.placed cfg.chainEnabled bet found).stakesOf u + _ = _ :=
          placed_stakesOf (u := u) hchain.distinct hbetting haccepts.2.1
        omega
      rw [if_neg (by simp [hbetting]), hplacing]
      split
      · rename_i w hcapture
        obtain ⟨hid, -⟩ := captureStakes_eq hcapture
        have hinstalled : s.installed = true := installed_of_filed (hsafe hbetting found haccepts)
          (placed_frame.2.2.symm.trans hid)
        refine h.goesOnWith hchain hset hp ⟨rfl, rfl, rfl, rfl, .inr ⟨rfl, ?_⟩, ⟨rfl, rfl⟩⟩
          placed_frame.1 hmoney
        intro w' hw'
        cases hw'
        exact ⟨hinstalled, .inl (placed_frame.1.trans hbetting), hid⟩
      · have hafter := after_quiet userId bet found.staked
        refine h.goesOnWith hchain hset hp ⟨?_, ?_, ?_, ?_, .inl ?_, after_plain _ _ _⟩
          placed_frame.1 fun u => ?_
        · exact Nat.le_zero.mp hafter.opens
        · exact Nat.le_zero.mp hafter.rolls
        · exact Nat.le_zero.mp hafter.doubles
        · exact hafter.settles.elim id id
        · exact (after_blank _ _ _).1
        · rw [after_holds]
          exact hmoney u
    · rw [if_pos (by simp [hbetting])]
      have htakes := haccepts.1
      refine h.opened hchain hp haccepts ?_
      cases hcase : s.table.phase with
      | idle => exact .inl rfl
      | settled => exact .inr rfl
      | betting => exact absurd hcase hbetting
      | dealing | player_turns | dealer_turn => simp [hcase, Phase.takesBets] at htakes

/-- The seat that doubles, with the stake that was its own. -/
theorem doubled_stakesOf {stream : CardStream} {userId : UserId} {seat : Seat} {bet : SeatBet}
    (hdistinct : t.Distinct) (haccepts : t.acceptsAction userId .double seat)
    (hbet : seat.bet = some bet) :
    (t.acted stream .double seat).stakesOf u =
      t.stakesOf u + if userId = u then bet.mainLamports else 0 := by
  obtain ⟨-, hseat, rfl, -⟩ := haccepts
  obtain ⟨_, -, hat⟩ := Option.bind_eq_some_iff.mp hseat
  have hmem := (seatAt_mem hat).1
  have hweight := weight_setSeat (f := fun s => s.act .double (t.nextCard stream))
    (Stake.stakeOf u) hdistinct hmem
  have hdoubled : (seat.act .double (t.nextCard stream)).bet =
      some { bet with mainLamports := bet.mainLamports * 2 } := by
    simp [Seat.act, hbet]
  rw [stakeOf_of_bet hbet, stakeOf_of_bet hdoubled] at hweight
  have huser : (seat.act .double (t.nextCard stream)).userId = seat.userId := rfl
  have htotal : ({ bet with mainLamports := bet.mainLamports * 2 } : SeatBet).betTotal =
      bet.betTotal + bet.mainLamports := by
    simp only [SeatBet.betTotal]
    omega
  rw [huser, htotal] at hweight
  have hstakes : (t.acted stream .double seat).stakesOf u = weight (Stake.stakeOf u)
      (t.setSeat seat.index fun s => s.act .double (t.nextCard stream)).stakes := rfl
  rw [hstakes]
  unfold Table.stakesOf
  split at hweight
  · rename_i hu
    rw [if_pos hu]
    omega
  · rename_i hu
    rw [if_neg hu]
    omega

theorem Kept.callDouble (h : Kept s) (hchain : Chain past s) {userId : UserId} {extra : Nat}
    (hp : s.procs[i]? = some (.doubling userId extra .debited))
    (hsafe : ∀ seat bet, s.table.acceptsAction userId .double seat → seat.bet = some bet →
      bet.mainLamports = extra) : Kept (callDouble cfg s i userId extra) := by
  unfold Blackjack.callDouble
  rcases action_cases cfg.stream s.table userId .double with
    ⟨e, haction, -⟩ | ⟨seat, haccepts, haction⟩
  · rw [haction]
    exact h.goesOnQuietly hchain hp ⟨rfl, rfl, rfl, rfl, .inl rfl, ⟨rfl, rfl⟩⟩ fun _ => rfl
  · rw [haction]
    have hroll := (hchain.alone haccepts.1).1
    have hin := inPlay_of_rolling hroll
    have hinstalled := hchain.installed hroll
    obtain ⟨r, -, hround, -⟩ := h.played hinstalled hin
    have hround' : (s.table.acted cfg.stream .double seat).roundDbId = some r.id :=
      acted_frame.2.2.1.trans hround
    have hphase : (s.table.acted cfg.stream .double seat).phase = .player_turns :=
      acted_frame.1.trans haccepts.1
    obtain ⟨_, found, hactive, hfound, hbet, -⟩ := hchain.turn haccepts.1
    have hseat := haccepts.2.1
    rw [hactive, Option.bind_some, hfound, Option.some.injEq] at hseat
    subst hseat
    obtain ⟨bet, hbet⟩ := Option.isSome_iff_exists.mp hbet
    have hmain := hsafe found bet haccepts hbet
    dsimp only
    split
    · rename_i w hcapture
      have hid := (captureSnapshot_eq hcapture).1
      have hin' : ((s.setTable (s.table.acted cfg.stream .double found)).setProc i
          (.doubling userId extra (.saving w found.index))).inPlay := by
        refine inPlay_of_rolling ?_
        have honTurn : (s.table.acted cfg.stream .double found).onTurn = 1 := if_pos hphase
        rw [State.rolling, setProc_table, setTable_table, honTurn]
        omega
      have hsteady : Steady s ((s.setTable (s.table.acted cfg.stream .double found)).setProc i
          (.doubling userId extra (.saving w found.index))) := by
        refine ⟨rfl, ⟨rfl, rfl, acted_frame.2.2.1⟩, ⟨fun _ => hin, fun _ => hin'⟩, fun _ hidle => ?_,
          fun window => ?_, fun roundDbId => ?_, mem_set_of ⟨rfl, rfl⟩⟩
        · rw [setProc_table, setTable_table, hphase] at hidle
          cases hidle
        · have hweight := weight_set (Proc.settlesOn window) hp
            (.doubling userId extra (.saving w found.index))
          exact Nat.add_right_cancel hweight
        · by_cases hto : w.roundDbId = roundDbId
          · refine .inr ⟨hinstalled, hin, ?_⟩
            rw [← hto]
            exact acted_frame.2.2.1.symm.trans hid
          · have hweight := weight_set (Proc.writesTo roundDbId) hp
              (.doubling userId extra (.saving w found.index))
            have hnew : (Proc.doubling userId extra (.saving w found.index)).writesTo roundDbId = 0 :=
              if_neg fun h => hto (Option.some.inj h)
            have hold : (Proc.doubling userId extra .debited).writesTo roundDbId = 0 := if_neg (by simp [Proc.write])
            rw [hnew, hold] at hweight
            exact .inl hweight
      refine h.steady hchain hsteady (fun _ => hphase) (.of_held rfl fun u => ?_)
      have hheld := hsteady.held u
      have hweight := weight_set (Proc.holds u) hp (.doubling userId extra (.saving w found.index))
      have htable : (s.table.acted cfg.stream .double found).stakesOf u = _ :=
        doubled_stakesOf (u := u) hchain.distinct haccepts hbet
      have hdebited : (Proc.doubling userId extra .debited).holds u =
          if userId = u then extra else 0 := rfl
      have hsaving : (Proc.doubling userId extra (.saving w found.index)).holds u = 0 := by
        simp [Proc.holds, DoubleStage.holds]
      rw [hdebited, hsaving] at hweight
      rw [hmain] at htable
      rw [if_pos hin, if_pos hin, setProc_procs, setTable_procs, setProc_table, setTable_table,
        htable] at hheld
      omega
    · rename_i hcapture
      simp [State.captureSnapshot, hround'] at hcapture

end Seats

/-! ## The round in memory -/

section Round

variable {past : Nat → Prop} {cfg : Config} {s s' : State} {i : Nat} {t : Table} {u : UserId}

/-- Only the hands change. -/
theorem steady_same (h : SameButHands s.table t) : Steady s (s.setTable t) := by
  refine steady_setTable h.phase h.timer h.roundDbId fun hnone _ => ?_
  unfold Table.noBets
  rw [h.stakes]
  exact hnone

theorem stakesOf_same (h : s.table.stakes = t.stakes) : t.stakesOf u = s.table.stakesOf u := by
  unfold Table.stakesOf
  rw [h]

theorem Kept.hands (h : Kept s) (hchain : Chain past s) (hsame : SameButHands s.table t) :
    Kept (s.setTable t) := by
  refine h.steady hchain (steady_same hsame) (fun hpos => hsame.phase.trans (h.doubling hpos)) ?_
  exact .of_held rfl fun u => (steady_same hsame).held_eq u rfl fun _ =>
    stakesOf_same hsame.stakes.symm

/-- A round that is driven has its row. -/
theorem Kept.row (h : Kept s) (hchain : Chain past s) (hroll : 0 < s.rolling) :
    ∃ r ∈ s.rows, s.table.roundDbId = some r.id ∧ r.window = s.window ∧ r.ended = false :=
  h.played (hchain.installed hroll) (inPlay_of_rolling hroll)

theorem Kept.entropy (h : Kept s) (hchain : Chain past s) {folded : Option String}
    (hstep : stepEntropy s i folded = some s') : Kept s' := by
  unfold stepEntropy at hstep
  split at hstep
  · rename_i hp
    have hsame : SameButHands s.table (s.table.foldEntropy folded) := foldEntropy_same folded
    cases hstep
    refine h.goesOnWith hchain (steady_same hsame) hp
      ⟨rfl, rfl, rfl, rfl, .inl rfl, ⟨rfl, rfl⟩⟩ hsame.phase fun u => ?_
    rw [stakesOf_same hsame.stakes.symm]
    rfl
  · cases hstep

theorem Kept.dealt (h : Kept s) (hchain : Chain past s) (hstep : stepDealt cfg s i = some s') :
    Kept s' := by
  unfold stepDealt at hstep
  split at hstep
  · rename_i hp
    have hsame : SameButHands s.table (dealCards cfg.stream s.table) := dealCards_same
    cases hstep
    refine h.goesOnWith hchain (steady_same hsame) hp
      ⟨rfl, rfl, rfl, rfl, .inl rfl, ⟨rfl, rfl⟩⟩ hsame.phase fun u => ?_
    rw [stakesOf_same hsame.stakes.symm]
    rfl
  · cases hstep

/-- A call is over, and the turn moves on. -/
theorem Steady.passed {s₀ : State} {p : Proc} {r : Table × Bool} (hin : s.inPlay)
    (hp : s.procs[i]? = some p) (hrows : s₀.rows = s.rows)
    (hprocs : s₀.procs = s.procs.set i .done) (hround : SameRound s (s₀.turned r))
    (hphase : t.phase = .player_turns) (hsettles : p.settles = none) (hwrite : p.write = none)
    (hturn : TurnTo t r) : Steady s (s₀.turned r) := by
  refine Steady.turned hin hrows hround hphase (fun window => ?_) (fun roundDbId => ?_) ?_ hturn
  · have hweight := weight_set (Proc.settlesOn window) hp .done
    have hold : p.settlesOn window = 0 := by
      unfold Proc.settlesOn
      rw [hsettles]
      exact if_neg nofun
    rw [hold] at hweight
    rw [hprocs]
    exact hweight
  · have hweight := weight_set (Proc.writesTo roundDbId) hp .done
    have hold : p.writesTo roundDbId = 0 := by
      unfold Proc.writesTo
      rw [hwrite]
      exact if_neg nofun
    rw [hold] at hweight
    rw [hprocs]
    exact hweight
  · rw [hprocs]
    exact mem_set_of ⟨rfl, rfl⟩

theorem Kept.tableUpdated (h : Kept s) (hchain : Chain past s)
    (hstep : stepTableUpdated s i = some s') : Kept s' := by
  unfold stepTableUpdated at hstep
  split at hstep
  · rename_i hp
    have hroll := (hchain.only hp rfl).1
    obtain ⟨r, -, hround, -⟩ := h.row hchain hroll
    split at hstep
    · rename_i w hcapture
      cases hstep
      refine h.goesOnQuietly hchain hp ⟨rfl, rfl, rfl, rfl, .inr ⟨rfl, ?_⟩, ⟨rfl, rfl⟩⟩
        fun _ => rfl
      intro w' hw'
      cases hw'
      exact ⟨hchain.installed hroll, inPlay_of_rolling hroll, (captureStakes_eq hcapture).1⟩
    · rename_i hcapture
      simp [State.captureStakes, Table.bettingStakes, hround] at hcapture
  · rename_i hp
    obtain ⟨hroll, -, -, -, -, -, -, hdoubles⟩ := hchain.only hp rfl
    cases hstep
    have hturn : TurnTo { s.table with phase := .player_turns } (startPlayerTurns s.table) :=
      advanceTurn_turnTo _
    have hsteady : Steady s ((s.setProc i .done).turned (startPlayerTurns s.table)) :=
      Steady.passed (inPlay_of_rolling hroll) hp rfl rfl
        (turned_sameRound (t := { s.table with phase := .player_turns }) rfl rfl rfl hturn) rfl rfl
        rfl hturn
    refine h.steady hchain hsteady (fun hpos => absurd hpos (turned_doubling ?_)) ?_
    · exact (Nat.add_right_cancel (weight_set Proc.doubles hp .done)).trans hdoubles
    · refine .of_held turned_ledger fun u => hsteady.held_eq u ?_ fun _ => ?_
      · rw [turned_holds]
        exact Nat.add_right_cancel (weight_set (Proc.holds u) hp .done)
      · rw [turned_stakesOf hturn]
        rfl
  · rename_i hp
    cases hstep
    have hsame : SameButHands s.table s.table.revealHole := ⟨rfl, rfl, rfl, rfl, rfl, rfl⟩
    exact h.goesOnWith hchain (steady_same hsame) hp
      ⟨rfl, rfl, rfl, rfl, .inl rfl, ⟨rfl, rfl⟩⟩ rfl fun _ => rfl
  · cases hstep

end Round

end Scadium.Games.Blackjack
