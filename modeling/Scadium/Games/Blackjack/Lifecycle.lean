/-
Scadium.Games.Blackjack.Lifecycle — one thing at a time drives a table on.

The engine has no lock. What keeps an opening, a deal, the turns and the
dealer from running into each other is that each hands over to the next: a
table between rounds has no driver, the bet that opens a window becomes one,
and every later stage takes over from the one before. `Chain` says so, and
`Chain.step` that every step of every call keeps it, whatever fails and
whenever the process stops.
-/
import Scadium.Games.Blackjack.Effects

namespace Scadium.Games.Blackjack

open Scadium.Common (ExposureGuard)
open Scadium.Fair Scadium.Lib Scadium.Prisma

/-! ## Drivers -/

def Opening.creates : Opening → Nat
  | .creating | .bankroll _ _ => 1
  | .entropy | .tableUpdate => 0

def PlaceStage.opens : PlaceStage → Nat
  | .opening _ _ stage => stage.creates
  | .captured | .debited | .saving _ _ _ | .owing _ | .failed => 0

def PlaceStage.rolls : PlaceStage → Nat
  | .opening _ _ stage => 1 - stage.creates
  | .saving _ _ opens => if opens then 1 else 0
  | .captured | .debited | .owing _ | .failed => 0

/-- An opening whose round is not on the table yet. -/
def Proc.opens : Proc → Nat
  | .placing _ _ stage => stage.opens
  | .returning _ _ _ | .doubling _ _ _ | .dealing _ | .dealer _ | .settling _ _ _
  | .recovering _ _ | .done => 0

/-- A call that takes the round on the table further. -/
def Proc.rolls : Proc → Nat
  | .placing _ _ stage => stage.rolls
  | .dealing _ | .dealer _ => 1
  | .returning _ _ _ | .doubling _ _ _ | .settling _ _ _ | .recovering _ _ | .done => 0

def DoubleStage.doubles : DoubleStage → Nat
  | .saving _ _ => 1
  | .captured | .debited | .failed => 0

/-- A double that is being saved: the turn moves on after it. -/
def Proc.doubles : Proc → Nat
  | .doubling _ _ stage => stage.doubles
  | .placing _ _ _ | .returning _ _ _ | .dealing _ | .dealer _ | .settling _ _ _
  | .recovering _ _ | .done => 0

/-- The window whose round is settled. -/
def Proc.settles : Proc → Option Nat
  | .settling window _ _ => some window
  | .placing _ _ _ | .returning _ _ _ | .doubling _ _ _ | .dealing _ | .dealer _
  | .recovering _ _ | .done => none

/-- The window that is opened. -/
def Proc.opening : Proc → Option Nat
  | .placing _ _ (.opening window _ .creating) => some window
  | .placing _ _ (.opening window _ (.bankroll _ _)) => some window
  | _ => none

/-- The timer is set for the deal. -/
def Table.dealSet (t : Table) : Nat := if t.timer = some .deal then 1 else 0

/-- The turn is with a player. -/
def Table.onTurn (t : Table) : Nat := if t.phase = .player_turns then 1 else 0

def State.openings (s : State) : Nat := weight Proc.opens s.procs

/-- A double in a turn is part of the turn. -/
def State.rolling (s : State) : Nat :=
  weight Proc.rolls s.procs + s.table.dealSet + max s.table.onTurn (weight Proc.doubles s.procs)

/-- The table is at play: its window is open, or something drives it on. -/
def State.inPlay (s : State) : Prop := s.table.phase = .betting ∨ 0 < s.openings + s.rolling

/-- The turn is with a seat that has a bet, and is over if it waits. -/
def Table.TurnHeld (t : Table) (waits : Prop) : Prop :=
  ∃ a seat, t.activeSeat = some a ∧ t.seatAt a = some seat ∧ seat.bet.isSome = true ∧
    (waits → seat.status ≠ .playing)

/-- A window that is over: the table has gone on, or is at rest. -/
def State.Over (s : State) (window : Nat) : Prop := window ≤ s.window ∧ (s.inPlay → window < s.window)

/-- The windows of `past` are over, and so are those that are settled. -/
structure Chain (past : Nat → Prop) (s : State) : Prop where
  distinct : s.table.Distinct
  one : s.openings + s.rolling ≤ 1
  rest : s.table.phase = .idle ∨ s.table.phase = .settled → s.openings + s.rolling = 0
  installed : 0 < s.rolling → s.installed = true
  fresh : 0 < s.openings → s.installed = false
  opening : ∀ p ∈ s.procs, ∀ window, p.opening = some window → window = s.window
  settling : ∀ p ∈ s.procs, ∀ window, p.settles = some window → s.Over window
  past : ∀ window, past window → s.Over window
  turn : s.table.phase = .player_turns → s.table.TurnHeld (0 < weight Proc.doubles s.procs)

theorem Chain.init (isPrivate : Bool) (ownerId : Option UserId) :
    Chain (fun _ => False) (.init isPrivate ownerId) where
  distinct := List.nodup_nil
  one := Nat.zero_le _
  rest _ := rfl
  installed := nofun
  fresh _ := rfl
  opening p hp := absurd hp List.not_mem_nil
  settling p hp := absurd hp List.not_mem_nil
  past window h := h.elim
  turn h := by cases h

theorem State.Over.of_inPlay {s s' : State} {window : Nat} (h : s.Over window)
    (hwindow : s'.window = s.window) (hplay : s'.inPlay → s.inPlay) : s'.Over window := by
  unfold State.Over at h ⊢
  rw [hwindow]
  exact ⟨h.1, fun hin => h.2 (hplay hin)⟩

/-- Once something drives the table, what is over stays over. -/
theorem State.Over.driven {s s' : State} {window : Nat} (h : s.Over window)
    (hwindow : s'.window = s.window) (hin : s.inPlay) : s'.Over window :=
  h.of_inPlay hwindow fun _ => hin

theorem opens_of_opening {p : Proc} {window : Nat} (h : p.opening = some window) : p.opens = 1 := by
  unfold Proc.opening at h
  split at h
  · rfl
  · rfl
  · cases h

/-! ## Slots and tables -/

/-- What takes a slot over drives no more than what had it. -/
structure Fades (p q : Proc) : Prop where
  opens : q.opens ≤ p.opens
  rolls : q.rolls ≤ p.rolls
  doubles : q.doubles ≤ p.doubles
  opening : q.opening = none ∨ q.opening = p.opening
  settles : q.settles = none ∨ q.settles = p.settles

/-- A call that drives nothing. -/
def Proc.Quiet (p : Proc) : Prop := Fades .done p

theorem Proc.Quiet.fades {q : Proc} (h : q.Quiet) (p : Proc) : Fades p q where
  opens := h.opens.trans (Nat.zero_le _)
  rolls := h.rolls.trans (Nat.zero_le _)
  doubles := h.doubles.trans (Nat.zero_le _)
  opening := .inl (h.opening.elim id id)
  settles := .inl (h.settles.elim id id)

theorem after_quiet (userId : UserId) (bet : SeatBet) (previousTotal : Nat) :
    (PlaceStage.after userId bet previousTotal).Quiet := by
  unfold PlaceStage.after
  split
  · exact ⟨le_rfl, le_rfl, le_rfl, .inl rfl, .inl rfl⟩
  · exact ⟨le_rfl, le_rfl, le_rfl, .inl rfl, .inl rfl⟩

theorem mem_setProc {s : State} {i : Nat} {q p : Proc} (h : p ∈ (s.setProc i q).procs) :
    p ∈ s.procs ∨ p = q := List.mem_or_eq_of_mem_set h

section Slots

variable {past : Nat → Prop} {s : State} {i : Nat} {p q : Proc} {t t' : Table}

/-- A slot is taken over by what drives no more. -/
theorem Chain.setProc (h : Chain past s) (hp : s.procs[i]? = some p) (hfades : Fades p q) :
    Chain past (s.setProc i q) := by
  have hmem : p ∈ s.procs := List.mem_of_getElem? hp
  have hopens : (s.setProc i q).openings ≤ s.openings := by
    have hset := weight_set Proc.opens hp q
    have hle := hfades.opens
    simp only [State.openings, setProc_procs]
    omega
  have hdoubles : weight Proc.doubles (s.setProc i q).procs ≤ weight Proc.doubles s.procs := by
    have hset := weight_set Proc.doubles hp q
    have hle := hfades.doubles
    simp only [setProc_procs]
    omega
  have hrolls : (s.setProc i q).rolling ≤ s.rolling := by
    have hset := weight_set Proc.rolls hp q
    have hle := hfades.rolls
    simp only [State.rolling, setProc_procs, setProc_table] at hdoubles ⊢
    omega
  have hplay : (s.setProc i q).inPlay → s.inPlay := by
    intro hplay
    rcases hplay with hphase | hpos
    · exact .inl hphase
    · exact .inr (by omega)
  refine ⟨h.distinct, ?_, ?_, ?_, ?_, ?_, ?_, fun w hw => (h.past w hw).of_inPlay rfl hplay, ?_⟩
  · have hone := h.one
    omega
  · intro hphase
    have hrest := h.rest hphase
    omega
  · intro hpos
    exact h.installed (by omega)
  · intro hpos
    exact h.fresh (by omega)
  · intro r hr window hwindow
    rcases mem_setProc hr with hr | rfl
    · exact h.opening r hr window hwindow
    · rcases hfades.opening with hnone | hsame
      · rw [hnone] at hwindow
        cases hwindow
      · exact h.opening p hmem window (hsame ▸ hwindow)
  · intro r hr window hwindow
    have hbefore : s.Over window := by
      rcases mem_setProc hr with hr | rfl
      · exact h.settling r hr window hwindow
      · rcases hfades.settles with hnone | hsame
        · rw [hnone] at hwindow
          cases hwindow
        · exact h.settling p hmem window (hsame ▸ hwindow)
    exact hbefore.of_inPlay rfl hplay
  · intro hphase
    obtain ⟨a, seat, hactive, hseat, hbet, hwaits⟩ := h.turn hphase
    exact ⟨a, seat, hactive, hseat, hbet, fun hpos => hwaits (by omega)⟩

/-- A call that drives nothing yet. -/
theorem Chain.spawn (h : Chain past s) (hquiet : q.Quiet) : Chain past (s.spawn q) := by
  have hopens : (s.spawn q).openings = s.openings := by
    have hle : q.opens ≤ 0 := hquiet.opens
    simp only [State.openings, spawn_procs, weight_append, weight_cons, weight_nil]
    omega
  have hdoubles : weight Proc.doubles (s.spawn q).procs = weight Proc.doubles s.procs := by
    have hle : q.doubles ≤ 0 := hquiet.doubles
    simp only [spawn_procs, weight_append, weight_cons, weight_nil]
    omega
  have hrolls : (s.spawn q).rolling = s.rolling := by
    have hle : q.rolls ≤ 0 := hquiet.rolls
    rw [State.rolling, hdoubles]
    simp only [State.rolling, spawn_procs, spawn_table, weight_append, weight_cons, weight_nil]
    omega
  have hmem : ∀ p ∈ (s.spawn q).procs, p ∈ s.procs ∨ p = q := by
    intro p hp
    simpa using hp
  have hplay : (s.spawn q).inPlay → s.inPlay := by
    rw [State.inPlay, hopens, hrolls]
    exact id
  refine ⟨h.distinct, ?_, ?_, ?_, ?_, ?_, ?_, fun w hw => (h.past w hw).of_inPlay rfl hplay, ?_⟩
  · rw [hopens, hrolls]
    exact h.one
  · rw [hopens, hrolls]
    exact h.rest
  · rw [hrolls]
    exact h.installed
  · rw [hopens]
    exact h.fresh
  · intro p hp window hwindow
    rcases hmem p hp with hp | rfl
    · exact h.opening p hp window hwindow
    · have hnone : p.opening = none := hquiet.opening.elim id id
      rw [hnone] at hwindow
      cases hwindow
  · intro p hp window hwindow
    rcases hmem p hp with hp | rfl
    · exact (h.settling p hp window hwindow).of_inPlay rfl hplay
    · have hnone : p.settles = none := hquiet.settles.elim id id
      rw [hnone] at hwindow
      cases hwindow
  · rw [hdoubles]
    exact h.turn

/-- The table changes, and not what it waits for. -/
theorem Chain.setTable (h : Chain past s) (hdistinct : t.Distinct) (hphase : t.phase = s.table.phase)
    (hdeal : t.dealSet ≤ s.table.dealSet)
    (hturn : t.phase = .player_turns → t.TurnHeld (0 < weight Proc.doubles s.procs)) :
    Chain past (s.setTable t) := by
  have hopens : (s.setTable t).openings = s.openings := rfl
  have hrolls : (s.setTable t).rolling ≤ s.rolling := by
    have honTurn : t.onTurn = s.table.onTurn := by
      rw [Table.onTurn, hphase]
      rfl
    simp only [State.rolling, setTable_procs, setTable_table, honTurn]
    omega
  have hplay : (s.setTable t).inPlay → s.inPlay := by
    intro hin
    rcases hin with hbetting | hpos
    · exact .inl (hphase ▸ hbetting)
    · exact .inr (by omega)
  refine ⟨hdistinct, ?_, ?_, ?_, h.fresh, h.opening,
    fun p hp w hw => (h.settling p hp w hw).of_inPlay rfl hplay,
    fun w hw => (h.past w hw).of_inPlay rfl hplay, hturn⟩
  · have hone := h.one
    omega
  · intro hrests
    rw [setTable_table, hphase] at hrests
    have hrest := h.rest hrests
    omega
  · intro hpos
    exact h.installed (by omega)

/-- What is neither a slot nor the table does not matter. -/
theorem Chain.of_eq {s' : State} (h : Chain past s) (htable : s'.table = s.table)
    (hwindow : s'.window = s.window) (hinstalled : s'.installed = s.installed)
    (hprocs : s'.procs = s.procs) : Chain past s' := by
  have hopens : s'.openings = s.openings := by
    rw [State.openings, hprocs, State.openings]
  have hrolls : s'.rolling = s.rolling := by
    rw [State.rolling, hprocs, htable, State.rolling]
  have hplay : s'.inPlay → s.inPlay := by
    rw [State.inPlay, hopens, hrolls, htable]
    exact id
  refine ⟨?_, ?_, ?_, ?_, ?_, ?_, ?_, fun w hw => (h.past w hw).of_inPlay hwindow hplay, ?_⟩
  · rw [htable]
    exact h.distinct
  · rw [hopens, hrolls]
    exact h.one
  · rw [hopens, hrolls, htable]
    exact h.rest
  · rw [hrolls, hinstalled]
    exact h.installed
  · rw [hopens, hinstalled]
    exact h.fresh
  · rw [hprocs, hwindow]
    exact h.opening
  · rw [hprocs]
    exact fun p hp w hw => (h.settling p hp w hw).of_inPlay hwindow hplay
  · rw [htable, hprocs]
    exact h.turn

/-- The driver of a table hands over to the turn, or to the dealer. -/
theorem Chain.turned {s₀ : State} {r : Table × Bool} (h : Chain past s) (hroll : 0 < s.rolling)
    (hwindow : s₀.window = s.window) (hinstalled : s₀.installed = s.installed)
    (hprocs : ∀ p ∈ s₀.procs, p ∈ s.procs ∨ p = .done)
    (hfree : weight Proc.opens s₀.procs = 0 ∧ weight Proc.rolls s₀.procs = 0 ∧
      weight Proc.doubles s₀.procs = 0)
    (hdistinct : t.Distinct) (hphase : t.phase ≠ .idle ∧ t.phase ≠ .settled)
    (hturn : TurnTo t r) : Chain past (s₀.turned r) := by
  obtain ⟨hopens, hrolls, hdoubles⟩ := hfree
  have hin : s.inPlay := .inr (by omega)
  have hopening : ∀ p ∈ s₀.procs, ∀ window, p.opening = some window → window = s₀.window := by
    intro p hp window hwin
    rcases hprocs p hp with hp | rfl
    · rw [hwindow]
      exact h.opening p hp window hwin
    · cases hwin
  have hwindow' : ∀ r, (s₀.turned r).window = s.window := fun _ => turned_window.trans hwindow
  have hsettling : ∀ p ∈ s₀.procs, ∀ window, p.settles = some window → s.Over window := by
    intro p hp window hwin
    rcases hprocs p hp with hp | rfl
    · exact h.settling p hp window hwin
    · cases hwin
  rcases hturn with ⟨next, hnext, hbet, rfl⟩ | rfl
  · have honTurn : t.onTurn ≤ 1 := by
      unfold Table.onTurn
      split
      · exact le_rfl
      · exact Nat.zero_le _
    have hrolling : (s₀.turned ({ t with
        activeSeat := some next.index
        timer := some (.turn next.index) }, false)).rolling = t.onTurn := by
      simp only [State.rolling, turned_procs, turned_table, Table.dealSet, Table.onTurn]
      simp [hrolls, hdoubles]
    have hopenings : (s₀.turned ({ t with
        activeSeat := some next.index
        timer := some (.turn next.index) }, false)).openings = 0 := hopens
    refine ⟨hdistinct, ?_, ?_, ?_, ?_, hopening,
      fun p hp w hw => (hsettling p hp w hw).driven (hwindow' _) hin,
      fun w hw => (h.past w hw).driven (hwindow' _) hin, ?_⟩
    · omega
    · intro hrests
      rcases hrests with hidle | hsettled
      · exact absurd hidle hphase.1
      · exact absurd hsettled hphase.2
    · intro _
      exact hinstalled.trans (h.installed hroll)
    · intro hpos
      omega
    · intro _
      refine ⟨next.index, next, rfl, hdistinct.seatAt hnext, hbet, ?_⟩
      intro hpos
      exact absurd hpos (by simp [turned_procs, hdoubles])
  · have hrolling : (s₀.turned (t.startDealer, true)).rolling = 1 := by
      simp only [State.rolling, turned_procs, turned_table, Table.dealSet, Table.onTurn]
      simp [hrolls, hdoubles, Table.startDealer, Proc.rolls, Proc.doubles]
    have hopenings : (s₀.turned (t.startDealer, true)).openings = 0 := by
      simp [State.openings, turned_procs, hopens, Proc.opens]
    have hmem : ∀ p ∈ (s₀.turned (t.startDealer, true)).procs,
        p ∈ s₀.procs ∨ p = .dealer false := by
      intro p hp
      simpa [turned_procs] using hp
    refine ⟨hdistinct, ?_, nofun, ?_, ?_, ?_, ?_,
      fun w hw => (h.past w hw).driven (hwindow' _) hin, nofun⟩
    · omega
    · intro _
      exact (turned_installed (s := s₀)).trans (hinstalled.trans (h.installed hroll))
    · intro hpos
      omega
    · intro p hp window hwin
      rcases hmem p hp with hp | rfl
      · exact hopening p hp window hwin
      · cases hwin
    · intro p hp window hwin
      rcases hmem p hp with hp | rfl
      · exact (hsettling p hp window hwin).driven (hwindow' _) hin
      · cases hwin

/-- While a player's turn is waited for, nothing else drives the table. -/
theorem Chain.alone (h : Chain past s) (hphase : s.table.phase = .player_turns) :
    0 < s.rolling ∧ weight Proc.opens s.procs = 0 ∧ weight Proc.rolls s.procs = 0 ∧
      s.table.dealSet = 0 := by
  have hone := h.one
  have honTurn : s.table.onTurn = 1 := if_pos hphase
  simp only [State.openings, State.rolling, honTurn] at hone ⊢
  omega

/-- A seat that may act is not one whose double is saved. -/
theorem Chain.undoubled (h : Chain past s) {userId : UserId} {a : Action} {seat : Seat}
    (haccepts : s.table.acceptsAction userId a seat) : weight Proc.doubles s.procs = 0 := by
  obtain ⟨hphase, hseat, -, hstatus, -⟩ := haccepts
  obtain ⟨_, _, hactive, hfound, -, hwaits⟩ := h.turn hphase
  rw [hactive, Option.bind_some, hfound] at hseat
  cases hseat
  rcases Nat.eq_zero_or_pos (weight Proc.doubles s.procs) with hzero | hpos
  · exact hzero
  · exact absurd hstatus (hwaits hpos)

/-- Nor is one that still plays when its clock runs out. -/
theorem Chain.untimed (h : Chain past s) {seatIndex : Nat} (hphase : s.table.phase = .player_turns)
    (hactive : s.table.activeSeat = some seatIndex)
    (hplaying : (s.table.seatAt seatIndex).map (·.status) = some .playing) :
    weight Proc.doubles s.procs = 0 := by
  obtain ⟨_, _, hheld, hfound, -, hwaits⟩ := h.turn hphase
  rcases Nat.eq_zero_or_pos (weight Proc.doubles s.procs) with hzero | hpos
  · exact hzero
  · rw [hactive] at hheld
    cases hheld
    rw [hfound] at hplaying
    exact absurd (Option.some.inj hplaying) (hwaits hpos)

/-- A driver in a slot is the only one. -/
theorem Chain.only (h : Chain past s) (hp : s.procs[i]? = some p) (hrolls : p.rolls = 1) :
    0 < s.rolling ∧ s.table.phase ≠ .idle ∧ s.table.phase ≠ .settled ∧
      s.table.phase ≠ .player_turns ∧ s.table.dealSet = 0 ∧ weight Proc.opens s.procs = 0 ∧
      weight Proc.rolls s.procs = 1 ∧ weight Proc.doubles s.procs = 0 := by
  have hone := h.one
  have hle : p.rolls ≤ weight Proc.rolls s.procs := le_weight (List.mem_of_getElem? hp)
  have hrolling : 0 < s.rolling := by
    rw [State.rolling]
    omega
  have hrest : ¬ (s.table.phase = .idle ∨ s.table.phase = .settled) := by
    intro hrests
    have hzero := h.rest hrests
    omega
  have hturns : s.table.phase ≠ .player_turns := by
    intro hphase
    have halone := h.alone hphase
    omega
  simp only [State.openings, State.rolling] at hone
  refine ⟨hrolling, fun h => hrest (.inl h), fun h => hrest (.inr h), hturns, ?_⟩
  omega

/-- One driver of an installed round takes over from another. -/
theorem Chain.handOver {s' : State} (h : Chain past s) (hin : 0 < s.openings + s.rolling)
    (hdistinct : s'.table.Distinct) (hwindow : s'.window = s.window)
    (hprocs : ∀ p ∈ s'.procs, p ∈ s.procs ∨ (p.opening = none ∧ p.settles = none))
    (hopens : s'.openings = 0) (hrolls : s'.rolling ≤ 1) (hinstalled : s'.installed = true)
    (hphase : s'.table.phase ≠ .idle ∧ s'.table.phase ≠ .settled ∧
      s'.table.phase ≠ .player_turns) : Chain past s' := by
  obtain ⟨hidle, hsettled, hturns⟩ := hphase
  refine ⟨hdistinct, by omega, ?_, fun _ => hinstalled, fun hpos => by omega, ?_, ?_,
    fun w hw => (h.past w hw).driven hwindow (.inr hin), fun hphase => absurd hphase hturns⟩
  · intro hrests
    rcases hrests with h | h
    · exact absurd h hidle
    · exact absurd h hsettled
  · intro p hp window hwin
    rcases hprocs p hp with hp | ⟨hnone, -⟩
    · rw [hwindow]
      exact h.opening p hp window hwin
    · rw [hnone] at hwin
      cases hwin
  · intro p hp window hwin
    rcases hprocs p hp with hp | ⟨-, hnone⟩
    · exact (h.settling p hp window hwin).driven hwindow (.inr hin)
    · rw [hnone] at hwin
      cases hwin

/-- A table at rest. -/
theorem Chain.rested (hdistinct : s.table.Distinct)
    (hphase : s.table.phase = .idle ∨ s.table.phase = .settled)
    (hzero : s.openings + s.rolling = 0)
    (hopening : ∀ p ∈ s.procs, ∀ window, p.opening = some window → window = s.window)
    (hsettling : ∀ p ∈ s.procs, ∀ window, p.settles = some window → window ≤ s.window)
    (hpast : ∀ window, past window → window ≤ s.window) : Chain past s := by
  have hturns : s.table.phase ≠ .player_turns ∧ s.table.phase ≠ .betting := by
    rcases hphase with h | h
    · rw [h]
      exact ⟨nofun, nofun⟩
    · rw [h]
      exact ⟨nofun, nofun⟩
  have hplay : ¬ s.inPlay := by
    intro hin
    rcases hin with hbetting | hpos
    · exact absurd hbetting hturns.2
    · omega
  exact ⟨hdistinct, by omega, fun _ => hzero, fun hpos => by omega, fun hpos => by omega,
    hopening, fun p hp w hw => ⟨hsettling p hp w hw, fun hin => absurd hin hplay⟩,
    fun w hw => ⟨hpast w hw, fun hin => absurd hin hplay⟩, fun hphase => absurd hphase hturns.1⟩

end Slots

/-! ## Turns and tables -/

section Held

variable {t : Table} {waits : Prop}

theorem turnHeld_takeSeat {seatIndex : Nat} {userId : UserId} (h : t.TurnHeld waits) :
    (takeSeat t seatIndex userId).1.TurnHeld waits := by
  rcases takeSeat_cases t seatIndex userId with ⟨e, htake⟩ | ⟨-, htake⟩
  · rw [htake]
    exact h
  · rw [htake]
    obtain ⟨a, seat, hactive, hseat, hrest⟩ := h
    refine ⟨a, seat, hactive, ?_, hrest⟩
    show (t.seats ++ [newSeat seatIndex userId]).find? _ = some seat
    rw [List.find?_append, show t.seats.find? (·.index == a) = some seat from hseat]
    rfl

/-- A seat without a bet is not the one whose turn it is. -/
theorem turnHeld_deleteSeat {seat : Seat} (h : t.TurnHeld waits) (hdistinct : t.Distinct)
    (hmem : seat ∈ t.seats) (hbet : seat.bet = none) : (t.deleteSeat seat.index).TurnHeld waits := by
  obtain ⟨a, found, hactive, hfound, hhas, hwaits⟩ := h
  have hne : seat.index ≠ a := by
    rintro rfl
    rw [hdistinct.seatAt hmem] at hfound
    cases hfound
    simp [hbet] at hhas
  refine ⟨a, found, hactive, ?_, hhas, hwaits⟩
  show (t.seats.filter (·.index != seat.index)).find? (·.index == a) = some found
  rw [List.find?_filter]
  refine Eq.trans (List.find?_congr fun s _ => ?_) hfound
  by_cases hindex : s.index = a
  · simp [hindex, Ne.symm hne]
  · simp [hindex]

end Held

/-! ## Steps -/

section Steps

variable {past : Nat → Prop} {cfg : Config} {s s' : State} {i : Nat} {p q : Proc} {t : Table}

theorem Called.quiet (h : Called q) : q.Quiet := by
  cases h with
  | placing | doubling | recovering => exact ⟨le_rfl, le_rfl, le_rfl, .inl rfl, .inl rfl⟩

theorem Failed.quiet (h : Failed q) : q.Quiet := by
  cases h with
  | placing | doubling | done => exact ⟨le_rfl, le_rfl, le_rfl, .inl rfl, .inl rfl⟩

theorem quiet_done : Proc.done.Quiet := Failed.done.quiet

theorem quiet_saving {userId : UserId} {bet : SeatBet} {w : Write} {previousTotal : Nat} :
    (Proc.placing userId bet (.saving w previousTotal false)).Quiet :=
  ⟨le_rfl, le_rfl, le_rfl, .inl rfl, .inl rfl⟩

theorem quiet_returning {userId : UserId} {refund : Nat} {saving : Option Write} :
    (Proc.returning userId refund saving).Quiet := ⟨le_rfl, le_rfl, le_rfl, .inl rfl, .inl rfl⟩

theorem Debits.fades {m : Movement} (h : Debits p q m) : Fades p q := by
  cases h with
  | bet | extra => exact ⟨le_rfl, le_rfl, le_rfl, .inl rfl, .inl rfl⟩

theorem Saves.fades {w : Write} (h : Saves p w q) : Fades p q := by
  cases h with
  | placing => exact (after_quiet _ _ _).fades _
  | returning => exact quiet_returning.fades _
  | dealing => exact ⟨le_rfl, le_rfl, le_rfl, .inl rfl, .inl rfl⟩

/-- What drives the table, when a slot is taken over. -/
theorem drivers_set (hp : s.procs[i]? = some p) (q : Proc) :
    weight Proc.opens (s.procs.set i q) + p.opens = weight Proc.opens s.procs + q.opens ∧
      weight Proc.rolls (s.procs.set i q) + p.rolls = weight Proc.rolls s.procs + q.rolls ∧
      weight Proc.doubles (s.procs.set i q) + p.doubles = weight Proc.doubles s.procs + q.doubles :=
  ⟨weight_set _ hp q, weight_set _ hp q, weight_set _ hp q⟩

/-- A seat is given up that has no bet in the turn. -/
theorem Chain.deleteSeat (h : Chain past s) {userId : UserId} {seat : Seat}
    (hseat : s.table.seatOf userId = some seat)
    (hbet : s.table.phase = .player_turns → seat.bet = none) :
    Chain past (s.setTable (s.table.deleteSeat seat.index)) := by
  refine h.setTable h.distinct.deleteSeat rfl le_rfl fun hphase => ?_
  exact turnHeld_deleteSeat (h.turn hphase) h.distinct (seatOf_mem hseat).1 (hbet hphase)

/-- A seat that acts passes the turn on. -/
theorem acted_turned {userId : UserId} {a : Action} {seat : Seat} {s₀ : State} (h : Chain past s)
    (haccepts : s.table.acceptsAction userId a seat) (hwindow : s₀.window = s.window)
    (hinstalled : s₀.installed = s.installed)
    (hprocs : ∀ p ∈ s₀.procs, p ∈ s.procs ∨ p = .done)
    (hweights : ∀ g : Proc → Nat, g .done = 0 → weight g s₀.procs ≤ weight g s.procs) :
    Chain past (s₀.turned (afterAction (s.table.acted cfg.stream a seat) seat.index)) := by
  obtain ⟨hroll, _, _, -⟩ := h.alone haccepts.1
  have hdoubles := h.undoubled haccepts
  refine h.turned hroll hwindow hinstalled hprocs ?_ (acted_distinct h.distinct) ?_
    (afterAction_turnTo _)
  · have hwo := hweights Proc.opens rfl
    have hwr := hweights Proc.rolls rfl
    have hwd := hweights Proc.doubles rfl
    omega
  · rw [acted_frame.1, haccepts.1]
    exact ⟨nofun, nofun⟩

/-- A refused bet may have asked the guard. -/
theorem Chain.refused {userId : UserId} {bet : SeatBet} (h : Chain past s)
    (hrefused : s.table.Refused cfg.chainEnabled userId bet t) : Chain past (s.setTable t) := by
  have hdistinct := refused_distinct h.distinct hrefused
  rcases hrefused with rfl | ⟨found, hphase, -, -, rfl⟩
  · exact h
  · obtain ⟨_, heq⟩ := holdExposure_eq cfg.chainEnabled s.table found bet
    rw [heq] at hdistinct ⊢
    refine h.setTable hdistinct rfl le_rfl fun hturns => ?_
    rw [show _ = Phase.betting from hphase] at hturns
    cases hturns

/-- A bet in an open window leaves the table to what drives it. -/
theorem Chain.placed {bet : SeatBet} {found : Seat} (h : Chain past s)
    (hphase : s.table.phase = .betting) :
    Chain past (s.setTable (s.table.placed cfg.chainEnabled bet found)) := by
  refine h.setTable (placed_distinct h.distinct) placed_frame.1 ?_ fun hturns => ?_
  · rw [Table.dealSet, placed_frame.2.1]
    exact le_rfl
  · rw [placed_frame.1, hphase] at hturns
    cases hturns

/-- The bet that opens a window takes over the table, which nothing drives
between rounds. -/
theorem Chain.opened {userId : UserId} {bet : SeatBet} {found : Seat} (h : Chain past s)
    (hp : s.procs[i]? = some (.placing userId bet .debited))
    (hrests : s.table.phase = .idle ∨ s.table.phase = .settled) :
    Chain past { s with
      table := (s.table.placed cfg.chainEnabled bet found).openPrologue
      window := s.window + 1
      installed := false
      procs := s.procs.set i (.placing userId bet
        (.opening (s.window + 1) (s.table.placingSeat found).staked .creating)) } := by
  have hzero := h.rest hrests
  simp only [State.openings, State.rolling] at hzero
  obtain ⟨hopens, hrolls, hdoubles⟩ := drivers_set hp (.placing userId bet
    (.opening (s.window + 1) (s.table.placingSeat found).staked .creating))
  simp only [Proc.opens, PlaceStage.opens, Proc.rolls, PlaceStage.rolls, Opening.creates,
    Proc.doubles] at hopens hrolls hdoubles
  have hover : ∀ {window}, s.Over window → window ≤ s.window + 1 ∧ window < s.window + 1 :=
    fun h => ⟨Nat.le_succ_of_le h.1, Nat.lt_succ_of_le h.1⟩
  refine ⟨placed_distinct h.distinct, ?_, nofun, ?_, fun _ => rfl, ?_, ?_,
    fun w hw => ⟨(hover (h.past w hw)).1, fun _ => (hover (h.past w hw)).2⟩, nofun⟩
  · simp only [State.openings, State.rolling, Table.openPrologue, Table.dealSet, Table.onTurn]
    simp
    omega
  · intro hpos
    simp only [State.rolling, Table.openPrologue, Table.dealSet, Table.onTurn] at hpos
    simp at hpos
    omega
  · intro p hmem window hwin
    rcases List.mem_or_eq_of_mem_set hmem with hmem | rfl
    · have hle : p.opens ≤ weight Proc.opens s.procs := le_weight hmem
      rw [opens_of_opening hwin] at hle
      omega
    · cases hwin
      rfl
  · intro p hmem window hwin
    rcases List.mem_or_eq_of_mem_set hmem with hmem | rfl
    · have hbefore := hover (h.settling p hmem window hwin)
      exact ⟨hbefore.1, fun _ => hbefore.2⟩
    · cases hwin

/-- A double is over for its seat, whatever it drew. -/
theorem doubled_status (card : Card) (s : Seat) : (s.act .double card).status ≠ .playing := by
  show statusAfter .double _ _ ≠ _
  unfold statusAfter
  split
  · exact nofun
  · exact nofun

/-- A double waits for its write before the turn moves on. -/
theorem Chain.doubled {userId : UserId} {extra : Nat} {seat : Seat} {w : Write} (h : Chain past s)
    (hp : s.procs[i]? = some (.doubling userId extra .debited))
    (haccepts : s.table.acceptsAction userId .double seat) :
    Chain past ((s.setTable (s.table.acted cfg.stream .double seat)).setProc i
      (.doubling userId extra (.saving w seat.index))) := by
  obtain ⟨hroll, _, _, hdeal⟩ := h.alone haccepts.1
  have hzero := h.undoubled haccepts
  obtain ⟨hopens', hrolls', hdoubles'⟩ := drivers_set hp (.doubling userId extra (.saving w seat.index))
  simp only [Proc.opens, Proc.rolls, Proc.doubles, DoubleStage.doubles] at hopens' hrolls' hdoubles'
  have htimer : (s.table.acted cfg.stream .double seat).dealSet = 0 := by
    rw [Table.dealSet, acted_frame.2.1]
    exact hdeal
  have hturns : (s.table.acted cfg.stream .double seat).phase = .player_turns :=
    acted_frame.1.trans haccepts.1
  have honTurn : (s.table.acted cfg.stream .double seat).onTurn = 1 := if_pos hturns
  have hin : s.inPlay := .inr (by omega)
  refine ⟨acted_distinct h.distinct, ?_, ?_, fun _ => h.installed hroll, ?_, ?_, ?_,
    fun w hw => (h.past w hw).driven rfl hin, ?_⟩
  · simp only [State.openings, State.rolling, setProc_procs, setTable_procs, setProc_table,
      setTable_table]
    omega
  · intro hrests
    rw [setProc_table, setTable_table, hturns] at hrests
    rcases hrests with hidle | hsettled
    · cases hidle
    · cases hsettled
  · intro hpos
    simp only [State.openings, setProc_procs, setTable_procs] at hpos
    omega
  · intro p hmem window hwin
    rcases mem_setProc hmem with hmem | rfl
    · exact h.opening p hmem window hwin
    · cases hwin
  · intro p hmem window hwin
    rcases mem_setProc hmem with hmem | rfl
    · exact (h.settling p hmem window hwin).driven rfl hin
    · cases hwin
  · intro _
    obtain ⟨index, found, hactive, hfound, hbet, -⟩ := h.turn haccepts.1
    have hseat := haccepts.2.1
    rw [hactive, Option.bind_some, hfound, Option.some.injEq] at hseat
    subst hseat
    have hindex := (seatAt_mem hfound).2
    refine ⟨index, found.act .double (s.table.nextCard cfg.stream), hactive, ?_, ?_, ?_⟩
    · show (Table.setSeat _ found.index _).seatAt index = _
      rw [← hindex, seatAt_setSeat (act_index .double _)]
      have hdrawn : (s.table.logDraw (.seat found.index) (s.table.nextCard cfg.stream)).seatAt
          found.index = some found := hindex ▸ hfound
      simp [hdrawn]
    · simpa [Seat.act] using hbet
    · intro _
      exact doubled_status _ _

/-- The row of a round is created. -/
theorem Chain.create {roundDbId : RoundId} {window : Nat} (h : Chain past s) :
    Chain past (s.create roundDbId window) :=
  (h.setTable (t := { s.table with exposure := none }) h.distinct rfl le_rfl h.turn).of_eq rfl rfl
    rfl rfl

/-- The round goes on the table. -/
theorem Chain.install {userId : UserId} {bet : SeatBet} {window previousTotal : Nat}
    {stage : Opening} {roundDbId : RoundId} {seed : RoundSeed} {guard : Option ExposureGuard}
    (h : Chain past s)
    (hp : s.procs[i]? = some (.placing userId bet (.opening window previousTotal stage)))
    (hwin : (Proc.placing userId bet (.opening window previousTotal stage)).opening = some window) :
    Chain past (s.install cfg i userId bet window previousTotal roundDbId seed guard) := by
  have hmem := List.mem_of_getElem? hp
  have hwindow : window = s.window := h.opening _ hmem window hwin
  have hcreates : stage.creates = 1 := opens_of_opening hwin
  have hle : (Proc.placing userId bet (.opening window previousTotal stage)).opens ≤
      weight Proc.opens s.procs := le_weight hmem
  have hone := h.one
  obtain ⟨hopens, hrolls, hdoubles⟩ := drivers_set hp (.placing userId bet
    (.opening window previousTotal (if cfg.onchainLive then .entropy else .tableUpdate)))
  have hnew : (if cfg.onchainLive then Opening.entropy else .tableUpdate).creates = 0 := by
    split
    · rfl
    · rfl
  simp only [Proc.opens, PlaceStage.opens, Proc.rolls, PlaceStage.rolls, Proc.doubles, hnew,
    hcreates] at hopens hrolls hdoubles hle
  have hrest : ¬ (s.table.phase = .idle ∨ s.table.phase = .settled) := by
    intro hrests
    have hzero := h.rest hrests
    simp only [State.openings] at hzero
    omega
  have hturns : s.table.phase ≠ .player_turns := by
    intro hphase
    have halone := h.alone hphase
    omega
  have hdeal : (s.table.installRound roundDbId seed guard).dealSet = s.table.dealSet := rfl
  have honTurn : (s.table.installRound roundDbId seed guard).onTurn = s.table.onTurn := rfl
  simp only [State.openings, State.rolling] at hone
  refine h.handOver ?_ ?_ rfl ?_ ?_ ?_ ?_ ⟨?_, ?_, hturns⟩
  · simp only [State.openings]
    omega
  · exact h.distinct.map fun _ => rfl
  · intro p hp
    rcases List.mem_or_eq_of_mem_set hp with hp | rfl
    · exact .inl hp
    · refine .inr ⟨?_, rfl⟩
      split
      · rfl
      · rfl
  · simp only [State.openings, State.install]
    omega
  · simp only [State.rolling, State.install, hdeal, honTurn]
    omega
  · simp [State.install, hwindow]
  · exact fun h => hrest (.inl h)
  · exact fun h => hrest (.inr h)

/-- The opening is over: its call is done, and the timer is set. -/
theorem Chain.timerSet {rows : List RoundRow} (h : Chain past s)
    (hp : s.procs[i]? = some p) (hrolls : p.rolls = 1) (hquiet : q.Quiet) :
    Chain past (({ s with rows := rows }.setProc i q).setTable (s.table.setTimer .deal)) := by
  obtain ⟨hroll, hidle, hsettled, hturns, _, _, _, _⟩ := h.only hp hrolls
  obtain ⟨_, _, _⟩ := drivers_set hp q
  have hqo : q.opens ≤ 0 := hquiet.opens
  have hqr : q.rolls ≤ 0 := hquiet.rolls
  have hqd : q.doubles ≤ 0 := hquiet.doubles
  refine h.handOver (by omega) h.distinct rfl ?_ ?_ ?_ (h.installed hroll) ⟨hidle, hsettled, hturns⟩
  · intro r hr
    rcases List.mem_or_eq_of_mem_set hr with hr | rfl
    · exact .inl hr
    · exact .inr ⟨hquiet.opening.elim id id, hquiet.settles.elim id id⟩
  · simp only [State.openings, setTable_procs, setProc_procs]
    omega
  · have honTurn : (s.table.setTimer .deal).onTurn = 0 := if_neg hturns
    have hset : (s.table.setTimer .deal).dealSet = 1 := rfl
    simp only [State.rolling, setTable_procs, setProc_procs, setTable_table, honTurn, hset]
    omega

/-- The slot that drives the table leaves it to the turn. -/
theorem Chain.turnsOver {s₀ : State} {r : Table × Bool} (h : Chain past s)
    (hp : s.procs[i]? = some p) (hdrives : 0 < p.rolls + p.doubles)
    (hwindow : s₀.window = s.window) (hinstalled : s₀.installed = s.installed)
    (hprocs : s₀.procs = s.procs.set i .done) (hdistinct : t.Distinct)
    (hphase : t.phase ≠ .idle ∧ t.phase ≠ .settled) (hturn : TurnTo t r) :
    Chain past (s₀.turned r) := by
  obtain ⟨hopens, hrolls, hdoubles⟩ := drivers_set hp .done
  have hone := h.one
  have hle : p.rolls ≤ weight Proc.rolls s.procs := le_weight (List.mem_of_getElem? hp)
  have hle' : p.doubles ≤ weight Proc.doubles s.procs := le_weight (List.mem_of_getElem? hp)
  rw [show Proc.done.opens = 0 from rfl] at hopens
  rw [show Proc.done.rolls = 0 from rfl] at hrolls
  rw [show Proc.done.doubles = 0 from rfl] at hdoubles
  have hroll : 0 < s.rolling := by
    rw [State.rolling]
    omega
  simp only [State.openings, State.rolling] at hone
  refine h.turned hroll hwindow hinstalled (fun r hr => ?_) ?_ hdistinct hphase hturn
  · rw [hprocs] at hr
    exact List.mem_or_eq_of_mem_set hr
  · rw [hprocs]
    omega

/-- The hands change while a call drives the table. -/
theorem Chain.hands (h : Chain past s) (hp : s.procs[i]? = some p) (hrolls : p.rolls = 1)
    (hsame : SameButHands s.table t) : Chain past (s.setTable t) := by
  obtain ⟨-, -, -, hturns, -⟩ := h.only hp hrolls
  refine h.setTable (h.distinct.of_same hsame) hsame.phase ?_ fun hphase => ?_
  · rw [Table.dealSet, hsame.timer]
    exact le_rfl
  · exact absurd (hsame.phase.symm.trans hphase) hturns

/-- A timer that fires is not set any more. -/
theorem Chain.timerFired (h : Chain past s) :
    Chain past (s.setTable { s.table with timer := none }) :=
  h.setTable h.distinct rfl (Nat.zero_le _) h.turn

/-- The deal is due: nothing but its timer drives the table. -/
theorem Chain.due (h : Chain past s) (htimer : s.table.timer = some .deal) :
    0 < s.rolling ∧ weight Proc.opens s.procs = 0 ∧ weight Proc.rolls s.procs = 0 ∧
      weight Proc.doubles s.procs = 0 := by
  have hdeal : s.table.dealSet = 1 := if_pos htimer
  have hone := h.one
  simp only [State.openings, State.rolling] at hone ⊢
  omega

theorem closeBets_distinct {phase : Phase} (h : t.Distinct) : (t.closeBets phase).Distinct := by
  have hsub := (sitOut_index t.seats).map Stake.index
  rw [List.map_map, List.map_map] at hsub
  exact h.of_sublist hsub

/-- The deal that finds no bets. -/
theorem Chain.dealNone (h : Chain past s) (htimer : s.table.timer = some .deal) :
    Chain past (s.setTable (s.table.closeBets .idle)) := by
  obtain ⟨-, hopens, hrolls, hdoubles⟩ := h.due htimer
  refine Chain.rested (closeBets_distinct h.distinct) (.inl rfl) ?_ h.opening
    (fun p hp w hw => (h.settling p hp w hw).1) fun w hw => (h.past w hw).1
  simp [State.openings, State.rolling, Table.dealSet, Table.onTurn, Table.closeBets, hopens, hrolls,
    hdoubles]

/-- The deal drives the table, if it has a row to write to. -/
theorem Chain.deal {s' : State} (h : Chain past s) (htimer : s.table.timer = some .deal)
    (htable : s'.table = s.table.closeBets .dealing) (hwindow : s'.window = s.window)
    (hinstalled : s'.installed = s.installed)
    (hprocs : s'.procs = s.procs ∨ ∃ w, s'.procs = s.procs ++ [.dealing (.saving w)]) :
    Chain past s' := by
  obtain ⟨hroll, hopens, hrolls, hdoubles⟩ := h.due htimer
  have hdeal : s'.table.dealSet = 0 ∧ s'.table.onTurn = 0 := by
    rw [htable]
    exact ⟨rfl, rfl⟩
  refine h.handOver (by omega) (htable ▸ closeBets_distinct h.distinct) hwindow (fun p hp => ?_) ?_ ?_
    (hinstalled.trans (h.installed hroll)) (by simp [htable, Table.closeBets])
  · rcases hprocs with heq | ⟨w, heq⟩
    · exact .inl (heq ▸ hp)
    · rw [heq] at hp
      rcases List.mem_append.mp hp with hp | hp
      · exact .inl hp
      · cases List.mem_singleton.mp hp
        exact .inr ⟨rfl, rfl⟩
  · rw [State.openings]
    rcases hprocs with heq | ⟨w, heq⟩
    · rw [heq, hopens]
    · simp [heq, hopens, Proc.opens]
  · rw [State.rolling, hdeal.1, hdeal.2]
    rcases hprocs with heq | ⟨w, heq⟩
    · rw [heq, hrolls, hdoubles]
      exact Nat.zero_le _
    · simp [heq, hrolls, hdoubles, Proc.rolls, Proc.doubles]

/-- The clock of a turn runs out, or has been too late. -/
theorem Chain.timedOut {seatIndex : Nat} (h : Chain past s) :
    Chain past (s.turned (turnTimeout s.table.fired seatIndex)) := by
  rcases turnTimeout_cases (t := s.table.fired) seatIndex with
    heq | ⟨hphase, hactive, hplaying, t', hsame, hturn⟩
  · rw [heq]
    exact h.timerFired
  · obtain ⟨hroll, hopens, hrolls, -⟩ := h.alone hphase
    refine h.turned hroll rfl rfl (fun p hmem => .inl hmem)
      ⟨hopens, hrolls, h.untimed hphase hactive hplaying⟩
      (Table.Distinct.of_same (t := s.table.fired) h.distinct hsame) ?_ hturn
    rw [hsame.phase, show Table.phase _ = Phase.player_turns from hphase]
    exact ⟨nofun, nofun⟩

theorem Chain.paused (h : Chain past s) :
    Chain past (s.setTable (settlePause s.table.fired)) := by
  unfold settlePause
  split
  · exact h.timerFired
  · rename_i hphase
    have hzero := h.rest (.inr (not_not.mp hphase))
    refine Chain.rested (h.distinct.map fun _ => rfl) (.inl rfl) ?_ h.opening
      (fun p hp w hw => (h.settling p hp w hw).1) fun w hw => (h.past w hw).1
    simp only [State.openings, State.rolling] at hzero
    simp only [State.openings, State.rolling, setTable_procs, setTable_table, Table.dealSet,
      Table.onTurn, Table.fired]
    simp
    omega

/-- The dealer is done, and the round is settled. -/
theorem Chain.dealerDone (h : Chain past s) (hp : s.procs[i]? = some (.dealer true)) :
    Chain past ((s.setTable (settle s.table).1).setProc i
      (.settling s.window (settle s.table).2 (.snapshot (settle s.table).1.snapshot))) := by
  obtain ⟨-, -, -, -, hdeal, _, _, _⟩ := h.only hp rfl
  obtain ⟨hopens', hrolls', hdoubles'⟩ := drivers_set hp
    (.settling s.window (settle s.table).2 (.snapshot (settle s.table).1.snapshot))
  simp only [Proc.opens, Proc.rolls, Proc.doubles] at hopens' hrolls' hdoubles'
  refine Chain.rested ?_ (.inr rfl) ?_ ?_ ?_ fun w hw => (h.past w hw).1
  · have hstakes : (settle s.table).1.stakes = s.table.stakes := settle_stakes
    show ((settle s.table).1.seats.map Seat.index).Nodup
    rw [← stakes_index, hstakes, stakes_index]
    exact h.distinct
  · have hdeal' : (settle s.table).1.dealSet = 0 := hdeal
    have honTurn : (settle s.table).1.onTurn = 0 := rfl
    simp only [State.openings, State.rolling, setProc_procs, setTable_procs, setProc_table,
      setTable_table, hdeal', honTurn]
    omega
  · intro p hmem window hwin
    rcases mem_setProc hmem with hmem | rfl
    · exact h.opening p hmem window hwin
    · cases hwin
  · intro p hmem window hwin
    rcases mem_setProc hmem with hmem | rfl
    · exact (h.settling p hmem window hwin).1
    · cases hwin
      exact le_rfl

/-- A settle that throws puts the phase back, whatever the table is at by
then. -/
theorem Chain.aborted (h : Chain past s) :
    Chain past (s.setTable { s.table with phase := .dealer_turn }) := by
  have honTurn : ({ s.table with phase := .dealer_turn } : Table).onTurn = 0 := rfl
  have hrolls : (s.setTable { s.table with phase := .dealer_turn }).rolling ≤ s.rolling := by
    have hdeal : ({ s.table with phase := .dealer_turn } : Table).dealSet = s.table.dealSet := rfl
    simp only [State.rolling, setTable_procs, setTable_table, honTurn, hdeal]
    omega
  have hopens : (s.setTable { s.table with phase := .dealer_turn }).openings = s.openings := rfl
  have hplay : (s.setTable { s.table with phase := .dealer_turn }).inPlay → s.inPlay := by
    intro hin
    rcases hin with hbetting | hpos
    · cases hbetting
    · exact .inr (by omega)
  refine ⟨h.distinct, ?_, nofun, ?_, h.fresh, h.opening,
    fun p hp w hw => (h.settling p hp w hw).of_inPlay rfl hplay,
    fun w hw => (h.past w hw).of_inPlay rfl hplay, nofun⟩
  · have hone := h.one
    omega
  · intro hpos
    exact h.installed (by omega)

theorem Chain.killed (h : Chain past s) : Chain past { s with
    table := createTable s.table.isPrivate s.table.ownerId
    installed := false
    procs := s.procs.map fun _ => .done } := by
  have hmem : ∀ p ∈ s.procs.map (fun _ => Proc.done), p = .done := by
    intro p hp
    obtain ⟨q, -, rfl⟩ := List.mem_map.mp hp
    rfl
  have hzero : ∀ g : Proc → Nat, g .done = 0 → weight g (s.procs.map fun _ => .done) = 0 := by
    intro g hg
    exact weight_eq_zero fun p hp => (congrArg g (hmem p hp)).trans hg
  have hrolls : weight Proc.rolls (s.procs.map fun _ => .done) = 0 := hzero _ rfl
  have hopens : weight Proc.opens (s.procs.map fun _ => .done) = 0 := hzero _ rfl
  have hdoubles : weight Proc.doubles (s.procs.map fun _ => .done) = 0 := hzero _ rfl
  refine Chain.rested List.nodup_nil (.inl rfl) ?_ ?_ ?_ fun w hw => (h.past w hw).1
  · simp only [State.openings, State.rolling, hrolls, hopens, hdoubles]
    rfl
  · intro p hp window hwin
    cases hmem p hp
    cases hwin
  · intro p hp window hwin
    cases hmem p hp
    cases hwin

/-- One step keeps the chain. -/
theorem Chain.step {e : Event} (h : Chain past s) (hstep : step cfg s e = some s') : Chain past s' := by
  cases step_effect hstep with
  | took seatIndex userId =>
    have htable : (takeSeat s.table seatIndex userId).1.phase = s.table.phase ∧
        (takeSeat s.table seatIndex userId).1.timer = s.table.timer := by
      rcases takeSeat_cases s.table seatIndex userId with ⟨e, htake⟩ | ⟨-, htake⟩
      · rw [htake]
        exact ⟨rfl, rfl⟩
      · rw [htake]
        exact ⟨rfl, rfl⟩
    refine h.setTable (takeSeat_distinct seatIndex h.distinct) htable.1 ?_ fun hphase => ?_
    · rw [Table.dealSet, htable.2]
      exact le_rfl
    · exact turnHeld_takeSeat (h.turn (htable.1.symm.trans hphase))
  | refused => exact h
  | left hseat _ hover =>
    refine h.deleteSeat hseat fun hphase => ?_
    by_contra hbet
    exact absurd (hover hbet) (by simp [hphase])
  | leftBet hphase hseat =>
    refine (h.deleteSeat hseat fun hturns => ?_).spawn quiet_returning
    rw [hphase] at hturns
    cases hturns
  | cleared hphase =>
    refine Chain.spawn (h.setTable (Table.Distinct.setSeat (fun _ => rfl) h.distinct) rfl le_rfl
      fun hturns => ?_) quiet_returning
    have hbetting : Phase.betting = .player_turns := hphase.symm.trans hturns
    cases hbetting
  | acted _ haccepts =>
    exact acted_turned h haccepts rfl rfl (fun p hp => .inl hp) fun _ _ => le_rfl
  | called _ hnew => exact h.spawn hnew.quiet
  | debited hp hdebits => exact (h.setProc hp hdebits.fades).of_eq rfl rfl rfl rfl
  | rejected hp | settledLate hp | recoveredLate hp => exact h.setProc hp (quiet_done.fades _)
  | credited hp | recovered hp => exact (h.setProc hp (quiet_done.fades _)).of_eq rfl rfl rfl rfl
  | placeRefused hp hrefused =>
    exact (h.refused hrefused).setProc hp ((Failed.placing _ _).quiet.fades _)
  | opened hp _ hrests => exact h.opened hp hrests
  | placedSaving hp _ hphase => exact (h.placed hphase).setProc hp (quiet_saving.fades _)
  | placed hp _ hphase => exact (h.placed hphase).setProc hp ((after_quiet _ _ _).fades _)
  | doubleRefused hp => exact h.setProc hp ((Failed.doubling _ _).quiet.fades _)
  | doubledSaving hp haccepts => exact h.doubled hp haccepts
  | doubled hp haccepts =>
    refine acted_turned h haccepts rfl rfl (fun p hmem => mem_setProc hmem) fun g hg => ?_
    have hset := weight_set g hp .done
    rw [hg] at hset
    simp only [setProc_procs]
    omega
  | created hp => exact h.create.setProc hp ⟨le_rfl, le_rfl, le_rfl, .inr rfl, .inl rfl⟩
  | createdOffChain hp => exact h.create.install hp rfl
  | bankrolled hp => exact h.install hp rfl
  | folded hp =>
    exact (h.hands hp rfl (foldEntropy_same _)).setProc hp ⟨le_rfl, le_rfl, le_rfl, .inl rfl, .inl rfl⟩
  | openSaving hp => exact h.setProc hp ⟨le_rfl, le_rfl, le_rfl, .inl rfl, .inl rfl⟩
  | openTimer hp | savedOpening hp => exact h.timerSet hp rfl (after_quiet _ _ _)
  | turns hp =>
    exact h.turnsOver (t := { s.table with phase := .player_turns }) hp (by decide) rfl rfl rfl
      h.distinct ⟨nofun, nofun⟩ (advanceTurn_turnTo _)
  | revealed hp =>
    have hsame : SameButHands s.table s.table.revealHole := ⟨rfl, rfl, rfl, rfl, rfl, rfl⟩
    exact (h.hands hp rfl hsame).setProc hp ⟨le_rfl, le_rfl, le_rfl, .inl rfl, .inl rfl⟩
  | @saved _ _ _ w hp hsaves =>
    have hcommit : Chain past (s.commit w) := h.of_eq rfl rfl rfl rfl
    exact hcommit.setProc hp hsaves.fades
  | savedDouble hp =>
    have hle : Proc.doubles _ ≤ weight Proc.doubles s.procs := le_weight (List.mem_of_getElem? hp)
    have hpos : 0 < weight Proc.doubles s.procs := hle
    have hrest : ¬ (s.table.phase = .idle ∨ s.table.phase = .settled) := by
      intro hrests
      have hzero := h.rest hrests
      simp only [State.rolling] at hzero
      omega
    exact h.turnsOver hp Nat.one_pos rfl rfl rfl h.distinct
      ⟨fun h => hrest (.inl h), fun h => hrest (.inr h)⟩ (afterAction_turnTo _)
  | dealNone htimer => exact h.dealNone htimer
  | deal htimer => exact h.deal htimer rfl rfl rfl (.inr ⟨_, rfl⟩)
  | dealUnsaved htimer => exact h.deal htimer rfl rfl rfl (.inl rfl)
  | timedOut => exact h.timedOut
  | paused => exact h.paused
  | dealt hp =>
    exact (h.hands hp rfl dealCards_same).setProc hp ⟨le_rfl, le_rfl, le_rfl, .inl rfl, .inl rfl⟩
  | dealerCard hp => exact h.hands hp rfl (dealTo_same .dealer)
  | dealerDone hp => exact h.dealerDone hp
  | settled hp =>
    have hpaused : Chain past (s.setTable (s.table.setTimer .settlePause)) :=
      h.setTable h.distinct rfl (Nat.zero_le _) h.turn
    exact (hpaused.setProc hp (quiet_done.fades _)).of_eq rfl rfl rfl rfl
  | aborted hp => exact h.aborted.setProc hp (quiet_done.fades _)
  | failed hp hfailed => exact h.setProc hp (hfailed.quiet.fades _)
  | killed => exact h.killed

/-- A table comes into play by the opening of a window, and in no other way. -/
theorem Chain.inPlay_of_step {e : Event} (h : Chain past s) (hstep : Blackjack.step cfg s e = some s')
    (hwindow : s'.window = s.window) (hin : s'.inPlay) : s.inPlay := by
  by_contra hout
  have hover : Chain (fun window => window = s.window) s :=
    { h with past := fun window hw => hw ▸ ⟨le_rfl, fun hin => absurd hin hout⟩ }
  have hlt := ((hover.step hstep).past s.window rfl).2 hin
  omega

/-! ## The round on the table -/

/-- The round on the table, with the window it is of, is what it was. -/
def SameRound (s s' : State) : Prop :=
  s'.installed = s.installed ∧ s'.window = s.window ∧ s'.table.roundDbId = s.table.roundDbId

theorem turned_sameRound {s₀ : State} {t : Table} {r : Table × Bool}
    (hinstalled : s₀.installed = s.installed) (hwindow : s₀.window = s.window)
    (ht : t.roundDbId = s.table.roundDbId) (hturn : TurnTo t r) : SameRound s (s₀.turned r) := by
  refine ⟨turned_installed.trans hinstalled, turned_window.trans hwindow, ?_⟩
  rw [turned_table, turnTo_roundDbId hturn, ht]

/-- Only an opening and a kill take the round off the table, and only an
opening puts one on it. -/
theorem step_sameRound {e : Event} (hinstalls : e.installs = false)
    (hstep : Blackjack.step cfg s e = some s') (hinst : s'.installed = true) : SameRound s s' := by
  cases step_effect hstep with
  | created | createdOffChain | bankrolled => cases hinstalls
  | opened | killed => cases hinst
  | took seatIndex userId =>
    rcases takeSeat_cases s.table seatIndex userId with ⟨e, htake⟩ | ⟨-, htake⟩
    · rw [htake]
      exact ⟨rfl, rfl, rfl⟩
    · rw [htake]
      exact ⟨rfl, rfl, rfl⟩
  | acted | doubled => exact turned_sameRound rfl rfl acted_frame.2.2.1 (afterAction_turnTo _)
  | @placeRefused _ _ bet _ _ hrefused =>
    rcases hrefused with rfl | ⟨found, -, -, -, rfl⟩
    · exact ⟨rfl, rfl, rfl⟩
    · obtain ⟨_, heq⟩ := holdExposure_eq cfg.chainEnabled s.table found bet
      rw [heq]
      exact ⟨rfl, rfl, rfl⟩
  | placedSaving | placed => exact ⟨rfl, rfl, placed_frame.2.2⟩
  | doubledSaving => exact ⟨rfl, rfl, acted_frame.2.2.1⟩
  | folded => exact ⟨rfl, rfl, (foldEntropy_same _).roundDbId⟩
  | turns =>
    exact turned_sameRound (t := { s.table with phase := .player_turns }) rfl rfl rfl
      (advanceTurn_turnTo _)
  | savedDouble => exact turned_sameRound rfl rfl rfl (afterAction_turnTo _)
  | @timedOut seatIndex =>
    rcases turnTimeout_cases (t := s.table.fired) seatIndex with
      heq | ⟨-, -, -, t', hsame, hturn⟩
    · rw [heq]
      exact ⟨rfl, rfl, rfl⟩
    · exact turned_sameRound rfl rfl hsame.roundDbId hturn
  | paused =>
    unfold settlePause
    split
    · exact ⟨rfl, rfl, rfl⟩
    · exact ⟨rfl, rfl, rfl⟩
  | dealt => exact ⟨rfl, rfl, dealCards_same.roundDbId⟩
  | _ => exact ⟨rfl, rfl, rfl⟩

end Steps

/-! ## Every run -/

/-- In every run, whatever fails and whenever the process stops: no two seats
are one, at most one thing drives the table, and nothing does between rounds; a
turn is with a seat that has a bet; and of a round that is being settled the
table has gone on, or it is at rest. -/
theorem one_driver {cfg : Config} {isPrivate : Bool} {ownerId : Option UserId} {es : List Event}
    {s : State} (hrun : run (Blackjack.step cfg) (.init isPrivate ownerId) es = some s) :
    s.table.Distinct ∧ s.openings + s.rolling ≤ 1 ∧
      (s.table.phase = .idle ∨ s.table.phase = .settled → s.openings + s.rolling = 0) ∧
      (s.table.phase = .player_turns → s.table.TurnHeld (0 < weight Proc.doubles s.procs)) ∧
      ∀ p ∈ s.procs, ∀ window, p.settles = some window → s.Over window := by
  have h : Chain (fun _ => False) s :=
    run_invariant (fun _ _ _ h hstep => h.step hstep) (Chain.init isPrivate ownerId) hrun
  exact ⟨h.distinct, h.one, h.rest, h.turn, h.settling⟩

private def allFives : Config := ⟨false, false, fun _ _ _ _ => ⟨.five, .H⟩⟩

/-- A bet, the deal, and the turn is with the one seat. -/
private def firstTurn : List Event :=
  [.takeSeat 0 1, .place 1 ⟨1000000, 0, 0⟩, .debit 0, .call 0, .created 0 9 ⟨"server", "client"⟩,
    .tableUpdated 0, .saved 0, .timer, .saved 1, .dealt 1, .tableUpdated 1]

theorem one_driver_dealt : ∃ s, run (Blackjack.step allFives) (.init false none) firstTurn = some s ∧
    s.table.phase = .player_turns ∧ s.table.Distinct ∧ s.openings + s.rolling ≤ 1 ∧
      s.table.TurnHeld (0 < weight Proc.doubles s.procs) := by
  have hsome : (run (Blackjack.step allFives) (.init false none) firstTurn).any
      (fun s => decide (s.table.phase = .player_turns)) = true := by decide +kernel
  obtain ⟨s, hrun, hturn⟩ := (Option.any_eq_true _ _).mp hsome
  have hphase := of_decide_eq_true hturn
  obtain ⟨hdistinct, hone, -, hheld, -⟩ := one_driver hrun
  exact ⟨s, hrun, hphase, hdistinct, hone, hheld hphase⟩

end Scadium.Games.Blackjack
