/-
Scadium.Games.Blackjack.Conservation — no stake is lost and none is refunded
twice, in a run whose rows are handed over with what they hold.

`Money` has the steps that leave every row where it is. Here are the others:
a row is created, put on the table, written, settled, aborted or recovered.

How the proof goes. Most of these steps change rows one by one and create
none: `HandsDown f` says that every row becomes `f` of it, and
`Kept.handsDown` keeps all of `Kept` but the sums. What is left for each step is
who holds what. A deal that finds no bets takes the round off the table
(`Kept.unbet`); an opening adds an empty row (`Kept.addRow`) and puts it on the
table (`Kept.install`); a write that lands shows what the table holds (`Lands`);
the dealer hands the stakes of the table to the settle, and the settle ends its
row; an abort leaves them to the row again, and the recovery refunds what an
open row shows. `Kept.step` collects the cases, `money_conserved` is the
induction over the run, and `stake_refunded_twice` a run that breaks the
condition.
-/
import Scadium.Games.Blackjack.Money

namespace Scadium.Games.Blackjack

open Scadium.Common (ExposureGuard)
open Scadium.Lib Scadium.Prisma

/-! ## Rows that change hands -/

/-- Every row becomes `f` of it, and no row is put on the table. -/
structure HandsDown (f : RoundRow → RoundRow) (s s' : State) : Prop where
  rows : s'.rows = s.rows.map f
  keeps : ∀ r, (f r).id = r.id ∧ (f r).window = r.window
  window : s'.window = s.window
  plain : ∀ p ∈ s'.procs, p ∈ s.procs ∨ p.Plain
  table : s'.installed = true → s'.inPlay →
    s.installed = true ∧ s.inPlay ∧ s'.table.roundDbId = s.table.roundDbId
  writes : ∀ roundDbId,
    weight (Proc.writesTo roundDbId) s'.procs ≤ weight (Proc.writesTo roundDbId) s.procs
  settling : ∀ window, weight (Proc.settlesOn window) s'.procs ≤ 1 ∧
    (0 < weight (Proc.settlesOn window) s'.procs → ∃ r ∈ s.rows, r.window = window ∧ r.ended = false)
  opens : ∀ r ∈ s.rows, r.ended = false →
    s'.atPlay r.id ∨ 0 < weight (Proc.settlesOn r.window) s'.procs → (f r).ended = false
  fresh : ∀ p ∈ s.procs, ∀ r ∈ s.rows, r.ended = false → r.stateJson = .empty →
    p.freshRow = some (r.id, r.window) → f r = r

section Rows

variable {past : Nat → Prop} {cfg : Config} {s s' : State} {i : Nat} {t : Table} {u : UserId}
variable {f : RoundRow → RoundRow}

theorem HandsDown.mem (h : HandsDown f s s') {r : RoundRow} (hr : r ∈ s.rows) : f r ∈ s'.rows := by
  rw [h.rows]
  exact List.mem_map_of_mem hr

theorem Kept.handsDown (h : Kept s) (hdown : HandsDown f s s')
    (hidle : s'.table.phase = .idle → s'.table.noBets)
    (hdoubling : 0 < weight Proc.doubles s'.procs → s'.table.phase = .player_turns)
    (hmoves : Moves s s') : Kept s' := by
  have hids : s'.rows.map RoundRow.id = s.rows.map RoundRow.id := by
    rw [hdown.rows, List.map_map]
    exact List.map_congr_left fun r _ => (hdown.keeps r).1
  have hwindows : s'.rows.map RoundRow.window = s.rows.map RoundRow.window := by
    rw [hdown.rows, List.map_map]
    exact List.map_congr_left fun r _ => (hdown.keeps r).2
  have hof : ∀ r' ∈ s'.rows, ∃ r ∈ s.rows, f r = r' := by
    rw [hdown.rows]
    exact fun r' hr' => List.mem_map.mp hr'
  refine ⟨hids ▸ h.ids, hwindows ▸ h.windows, ?_, ?_, ?_, ?_, ?_, ?_, hidle, hdoubling,
    h.conserved.moves hmoves⟩
  · intro r' hr'
    obtain ⟨r, hr, rfl⟩ := hof r' hr'
    rw [(hdown.keeps r).2, hdown.window]
    exact h.bound r hr
  · intro p hp window hcreating r' hr'
    obtain ⟨r, hr, rfl⟩ := hof r' hr'
    rw [(hdown.keeps r).2, hdown.window]
    rcases hdown.plain p hp with hp | hplain
    · exact h.creating p hp window hcreating r hr
    · rw [hplain.creating] at hcreating
      cases hcreating
  · intro hinstalled' hin'
    obtain ⟨hinstalled, hin, hround⟩ := hdown.table hinstalled' hin'
    obtain ⟨r, hr, hid, hwindow, hopen⟩ := h.played hinstalled hin
    refine ⟨f r, hdown.mem hr, ?_, ?_, hdown.opens r hr hopen (.inl ⟨hinstalled', hin', ?_⟩)⟩
    · rw [hround, hid, (hdown.keeps r).1]
    · rw [(hdown.keeps r).2, hwindow, hdown.window]
    · rw [hround, hid]
  · intro p hp roundDbId window hfresh
    rcases hdown.plain p hp with hp | hplain
    · obtain ⟨_, r, hr, rfl, rfl, hopen, hempty⟩ := h.fresh p hp roundDbId window hfresh
      have hle := hdown.writes r.id
      refine ⟨by omega, r, ?_, rfl, rfl, hopen, hempty⟩
      rw [← hdown.fresh p hp r hr hopen hempty hfresh]
      exact hdown.mem hr
    · rw [hplain.freshRow] at hfresh
      cases hfresh
  · intro roundDbId hpos
    rw [hids]
    exact h.filed roundDbId (Nat.lt_of_lt_of_le hpos (hdown.writes roundDbId))
  · intro window
    obtain ⟨hone, hrow⟩ := hdown.settling window
    refine ⟨hone, fun hpos => ?_⟩
    obtain ⟨r, hr, rfl, hopen⟩ := hrow hpos
    exact ⟨f r, hdown.mem hr, (hdown.keeps r).2, hdown.opens r hr hopen (.inr hpos)⟩

/-- Only the id and the window of a row say in which hands it is. -/
theorem inHand_congr {r r' : RoundRow} (hid : r'.id = r.id) (hwindow : r'.window = r.window) :
    s.inHand r' ↔ s.inHand r := by
  unfold State.inHand
  rw [hid, hwindow]

/-- The rows hold what each of them holds. -/
theorem HandsDown.inRows (h : HandsDown f s s')
    (hshare : ∀ r ∈ s.rows, s'.share u (f r) = s.share u r) : s'.inRows u = s.inRows u := by
  unfold State.inRows
  rw [h.rows, weight_map]
  exact weight_congr hshare

end Rows

/-! ## The timer -/

section Timer

variable {past : Nat → Prop} {cfg : Config} {s s' : State} {i : Nat} {t : Table} {u : UserId}

/-- A round that is settled was on the table before. -/
theorem Chain.settled_lt (hchain : Chain past s) (hin : s.inPlay) {window : Nat}
    (hpos : 0 < weight (Proc.settlesOn window) s.procs) : window < s.window := by
  obtain ⟨p, hp, hone⟩ : ∃ p ∈ s.procs, 0 < p.settlesOn window := by
    by_contra hnone
    push Not at hnone
    have hzero := weight_eq_zero fun p hp => Nat.le_zero.mp (hnone p hp)
    omega
  have hsettles : p.settles = some window := by
    by_contra hne
    rw [Proc.settlesOn, if_neg hne] at hone
    cases hone
  exact (hchain.settling p hp window hsettles).2 hin

theorem noBets_of_bettingSeats (h : t.bettingSeats = []) : t.noBets := by
  intro k hk
  obtain ⟨seat, hseat, rfl⟩ := List.mem_map.mp hk
  by_contra hbet
  have hmem : seat ∈ t.bettingSeats :=
    mem_bettingSeats.mpr ⟨hseat, Option.isSome_iff_ne_none.mpr hbet⟩
  rw [h] at hmem
  cases hmem

theorem sitOut_stakesOf : weight (Stake.stakeOf u) ((sitOut t.seats).map Seat.stake) = t.stakesOf u :=
  weight_sitOut (Stake.stakeOf u) (fun _ => stakeOf_none) t.seats

/-- The deal finds no bets: the round leaves the table, and its row shows
none either. -/
theorem Kept.unbet (h : Kept s) (hchain : Chain past s) (htimer : s.table.timer = some .deal)
    (hnone : s.table.bettingSeats = [])
    (hsafe : ∀ r ∈ s.rows, s.table.roundDbId = some r.id → r.ended = false →
      weight (Proc.writesTo r.id) s.procs = 0 → ∀ u, r.stateJson.stakesOf u = 0) :
    Kept (s.setTable { s.table with
      timer := none
      seats := sitOut s.table.seats
      phase := .idle }) := by
  have hdeal : s.table.dealSet = 1 := if_pos htimer
  have hone := hchain.one
  simp only [State.openings, State.rolling] at hone
  have hbets : s.table.noBets := noBets_of_bettingSeats hnone
  generalize ht : ({ s.table with
      timer := none
      seats := sitOut s.table.seats
      phase := .idle } : Table) = t
  have hphase : t.phase = .idle := by rw [← ht]
  have hout : ¬ (s.setTable t).inPlay := by
    have hdeal' : t.dealSet = 0 := by
      rw [← ht]
      rfl
    have honTurn : t.onTurn = 0 := by
      rw [← ht]
      rfl
    intro hin
    rcases hin with hbetting | hpos
    · rw [setTable_table, hphase] at hbetting
      cases hbetting
    · simp only [State.openings, State.rolling, setTable_procs, setTable_table, hdeal', honTurn] at hpos
      omega
  have hstakes : ∀ u, t.stakesOf u = 0 := by
    intro u
    rw [← ht]
    exact (sitOut_stakesOf (t := s.table)).trans (stakesOf_noBets hbets)
  have hhands : ∀ r ∈ s.rows, (s.setTable t).inHand r → s.inHand r := by
    intro r _ hin
    rcases hin with hplay | hrest
    · exact absurd hplay.2.1 hout
    · exact .inr hrest
  have hdown : HandsDown id s (s.setTable t) := {
    rows := (List.map_id _).symm
    keeps := fun _ => ⟨rfl, rfl⟩
    window := rfl
    plain := fun p hp => .inl hp
    table := fun _ hin => absurd hin hout
    writes := fun _ => le_rfl
    settling := h.settling
    opens := fun _ _ hopen _ => hopen
    fresh := fun _ _ _ _ _ _ _ => rfl }
  refine h.handsDown hdown (fun _ => ?_) (fun hpos => ?_) (.of_held rfl fun u => ?_)
  · rw [← ht]
    intro k hk
    by_contra hbet
    have hmem : k ∈ ((sitOut s.table.seats).map Seat.stake).filter (·.bet.isSome) :=
      List.mem_filter.mpr ⟨hk, Option.isSome_iff_ne_none.mpr hbet⟩
    rw [sitOut_stakes] at hmem
    exact hbet (hbets k (List.mem_filter.mp hmem).1)
  · have hpos' : 0 < weight Proc.doubles s.procs := hpos
    omega
  · have hrows : (s.setTable t).inRows u = s.inRows u := by
      refine hdown.inRows fun r hr => ?_
      show (s.setTable t).share u r = s.share u r
      unfold State.share
      cases hended : r.ended with
      | true => simp
      | false =>
        by_cases hin : (s.setTable t).inHand r
        · simp [hin, hhands r hr hin]
        · by_cases hwas : s.inHand r
          · rcases hwas with hplay | hrest
            · have hzero : weight (Proc.writesTo r.id) s.procs = 0 := by
                by_contra hne
                exact hin (.inr (.inr (Nat.pos_of_ne_zero hne)))
              simp [hsafe r hr hplay.2.2 hended hzero u]
            · exact absurd (.inr hrest) hin
          · simp [hin, hwas]
    have hbefore : s.atTable u = 0 := by
      unfold State.atTable
      rw [stakesOf_noBets hbets]
      exact ite_self 0
    have hafter : (s.setTable t).atTable u = 0 := if_neg hout
    simp only [State.held, hrows, hbefore, hafter, setTable_procs]

/-- The timer has gone off, and nothing else. -/
theorem Steady.timerFired (htimer : s.table.timer ≠ some .deal) :
    Steady s (s.setTable { s.table with timer := none }) := by
  refine Steady.setTable rfl ?_ rfl fun hnone _ => hnone
  have hunset : s.table.dealSet = 0 := if_neg htimer
  exact hunset.symm

theorem Kept.timerFired (h : Kept s) (hchain : Chain past s) (htimer : s.table.timer ≠ some .deal) :
    Kept (s.setTable { s.table with timer := none }) :=
  h.steady hchain (.timerFired htimer) h.doubling
    (.of_held rfl fun u => (Steady.timerFired htimer).held_eq u rfl fun _ => rfl)

/-- The deal writes the snapshot first. -/
theorem Kept.bet (h : Kept s) (hchain : Chain past s) (htimer : s.table.timer = some .deal)
    {w : Write} (hid : s.table.roundDbId = some w.roundDbId) :
    Kept ((s.setTable { s.table with
      timer := none
      seats := sitOut s.table.seats
      phase := .dealing }).spawn (.dealing (.saving w))) := by
  have hdeal : s.table.dealSet = 1 := if_pos htimer
  have hone := hchain.one
  simp only [State.openings, State.rolling] at hone
  have hroll : 0 < s.rolling := by
    rw [State.rolling]
    omega
  have hin := inPlay_of_rolling hroll
  generalize ht : ({ s.table with
      timer := none
      seats := sitOut s.table.seats
      phase := .dealing } : Table) = t
  have hphase : t.phase = .dealing := by rw [← ht]
  have hround : t.roundDbId = s.table.roundDbId := by rw [← ht]
  have hsteady : Steady s ((s.setTable t).spawn (.dealing (.saving w))) := by
    refine ⟨rfl, ⟨rfl, rfl, hround⟩, ⟨fun _ => hin, fun _ => ?_⟩, fun _ hidle => ?_, fun window => ?_,
      fun roundDbId => ?_, mem_append_of ⟨rfl, rfl⟩⟩
    · exact inPlay_of_mem (p := .dealing (.saving w)) (by simp) rfl
    · rw [spawn_table, setTable_table, hphase] at hidle
      cases hidle
    · simp [Proc.settlesOn, Proc.settles]
    · by_cases hto : w.roundDbId = roundDbId
      · exact .inr ⟨hchain.installed hroll, hin, hto ▸ hid⟩
      · simp [Proc.writesTo, Proc.write, hto]
  refine h.steady hchain hsteady (fun hpos => ?_) (.of_held rfl fun u => ?_)
  · simp only [spawn_procs, setTable_procs, weight_append, weight_cons, weight_nil, Proc.doubles] at hpos
    omega
  · refine hsteady.held_eq u (by simp [Proc.holds]) fun _ => ?_
    rw [spawn_table, setTable_table, ← ht]
    exact sitOut_stakesOf

theorem Kept.turnTimeout (h : Kept s) (hchain : Chain past s) {seatIndex : Nat}
    (htimer : s.table.timer = some (.turn seatIndex)) :
    Kept (s.turned (turnTimeout { s.table with timer := none } seatIndex)) := by
  rcases turnTimeout_cases (t := { s.table with timer := none }) seatIndex with
    heq | ⟨hphase, hactive, hplaying, t', hsame, hturn⟩
  · rw [heq]
    exact h.timerFired hchain (by simp [htimer])
  · obtain ⟨_, _, hheld, hfound, -, hwaits⟩ := hchain.turn hphase
    have hfree : weight Proc.doubles s.procs = 0 := by
      rcases Nat.eq_zero_or_pos (weight Proc.doubles s.procs) with hzero | hpos
      · exact hzero
      · rw [show s.table.activeSeat = some seatIndex from hactive] at hheld
        cases hheld
        have hstatus : (s.table.seatAt seatIndex).map (·.status) = some .playing := hplaying
        rw [hfound] at hstatus
        exact absurd (Option.some.inj hstatus) (hwaits hpos)
    have hsteady : Steady s
        (s.turned (Blackjack.turnTimeout { s.table with timer := none } seatIndex)) :=
      Steady.turned (inPlay_of_rolling (hchain.alone hphase).1) rfl
        (turned_sameRound rfl rfl hsame.roundDbId hturn) (hsame.phase.trans hphase) (fun _ => rfl)
        (fun _ => rfl) (fun p hp => .inl hp) hturn
    refine h.steady hchain hsteady (fun hpos => absurd hpos (turned_doubling hfree)) ?_
    refine .of_held turned_ledger fun u => hsteady.held_eq u turned_holds fun _ => ?_
    rw [turned_stakesOf hturn]
    exact stakesOf_same hsame.stakes.symm

/-- The pause after a settle ends: the stakes it has paid on go. -/
theorem Kept.paused (h : Kept s) (hchain : Chain past s) (htimer : s.table.timer = some .settlePause) :
    Kept (s.setTable (settlePause { s.table with timer := none })) := by
  unfold settlePause
  split
  · exact h.timerFired hchain (by simp [htimer])
  · rename_i hphase
    have hsettled : s.table.phase = .settled := not_not.mp hphase
    have hzero := hchain.rest (.inr hsettled)
    simp only [State.openings, State.rolling] at hzero
    have hout : ¬ s.inPlay := by
      intro hin
      rcases hin with hbetting | hpos
      · rw [hsettled] at hbetting
        cases hbetting
      · simp only [State.openings, State.rolling] at hpos
        omega
    generalize ht : ({ s.table with
        timer := none
        seats := s.table.seats.map Seat.clearBet
        phase := .idle } : Table) = t
    have hout' : ¬ (s.setTable t).inPlay := by
      have hdeal : t.dealSet = 0 := by
        rw [← ht]
        rfl
      have honTurn : t.onTurn = 0 := by
        rw [← ht]
        rfl
      intro hin
      rcases hin with hbetting | hpos
      · rw [setTable_table, ← ht] at hbetting
        cases hbetting
      · simp only [State.openings, State.rolling, setTable_procs, setTable_table, hdeal, honTurn] at hpos
        omega
    have hsteady : Steady s (s.setTable t) := by
      refine ⟨rfl, ⟨rfl, rfl, ?_⟩, ⟨fun hin => absurd hin hout', fun hin => absurd hin hout⟩,
        fun _ _ => ?_, fun _ => rfl, fun _ => .inl rfl, fun p hp => .inl hp⟩
      · rw [setTable_table, ← ht]
      · rw [setTable_table, ← ht]
        intro k hk
        obtain ⟨x, hx, rfl⟩ := List.mem_map.mp hk
        obtain ⟨y, -, rfl⟩ := List.mem_map.mp hx
        rfl
    refine h.steady hchain hsteady (fun hpos => ?_) ?_
    · have hturns := h.doubling hpos
      rw [hsettled] at hturns
      cases hturns
    · exact .of_held rfl fun u => hsteady.held_eq u rfl fun hin => absurd hin hout

theorem Kept.timer (h : Kept s) (hchain : Chain past s) (hsafe : HandsOver s .timer)
    (hstep : stepTimer s = some s') : Kept s' := by
  unfold stepTimer at hstep
  split at hstep
  · rename_i htimer
    have hroll : 0 < s.rolling := by
      have hdeal : s.table.dealSet = 1 := if_pos htimer
      rw [State.rolling]
      omega
    obtain ⟨r, -, hround, -⟩ := h.row hchain hroll
    rcases deal_cases { s.table with timer := none } with ⟨hnone, hdealt⟩ | ⟨-, hdealt⟩
    · rw [hdealt] at hstep
      cases hstep
      exact h.unbet hchain htimer hnone (hsafe htimer hnone)
    · rw [hdealt] at hstep
      dsimp only at hstep
      split at hstep
      · rename_i w hcapture
        cases hstep
        exact h.bet hchain htimer (captureSnapshot_eq hcapture).1
      · rename_i hcapture
        simp [State.captureSnapshot, hround] at hcapture
  · rename_i htimer
    cases hstep
    exact h.turnTimeout hchain htimer
  · rename_i htimer
    cases hstep
    exact h.paused hchain htimer
  · cases hstep

end Timer

/-! ## Openings -/

section Openings

variable {past : Nat → Prop} {cfg : Config} {s s' : State} {i : Nat} {u : UserId}
variable {p q : Proc} {userId : UserId} {bet : SeatBet} {window previousTotal : Nat}
variable {roundDbId : RoundId} {seed : RoundSeed} {guard : Option ExposureGuard}

/-- There is one opening at a time. -/
theorem Chain.sole_opening (h : Chain past s) (hp : s.procs[i]? = some p) (hopens : p.opens = 1)
    {q' : Proc} (hq : q' ∈ s.procs.set i q) : q' = q ∨ q'.opening = none := by
  have hone := h.one
  have hle : p.opens ≤ weight Proc.opens s.procs := le_weight (List.mem_of_getElem? hp)
  have hweight := weight_set Proc.opens hp .done
  simp only [State.openings] at hone
  have hzero : weight Proc.opens (s.procs.set i .done) = 0 := by
    have hdone : Proc.opens .done = 0 := rfl
    omega
  rw [← List.set_set (b := q) Proc.done] at hq
  rcases List.mem_or_eq_of_mem_set hq with hmem | rfl
  · refine .inr ?_
    have hle' : q'.opens ≤ _ := le_weight hmem
    cases hopening : q'.opening with
    | none => rfl
    | some =>
      have hopens' := opens_of_opening hopening
      omega
  · exact .inl rfl

theorem opening_of_creating (h : p.creating = some window) : p.opening = some window := by
  unfold Proc.creating at h
  split at h
  · cases h
    rfl
  · cases h

theorem stakesOf_empty : StateJson.empty.stakesOf u = 0 := rfl

/-- The row of a new round, before it is on the table. -/
def State.addRow (s : State) (i : Nat) (userId : UserId) (bet : SeatBet) (window previousTotal : Nat)
    (roundDbId : RoundId) (seed : RoundSeed) : State :=
  State.setProc { s with
    rows := s.rows ++ [⟨roundDbId, .empty, false, window, none⟩]
    table := { s.table with exposure := none } } i
      (.placing userId bet (.opening window previousTotal (.bankroll roundDbId seed)))

theorem Chain.addRow (h : Chain past s)
    (hp : s.procs[i]? = some (.placing userId bet (.opening window previousTotal .creating))) :
    Chain past (s.addRow i userId bet window previousTotal roundDbId seed) := by
  have hcreated : Chain past { s with
      rows := s.rows ++ [⟨roundDbId, .empty, false, window, none⟩]
      table := { s.table with exposure := none } } :=
    (h.setTable (t := { s.table with exposure := none }) h.distinct rfl le_rfl h.turn).of_eq
      rfl rfl rfl rfl
  exact hcreated.setProc hp ⟨le_rfl, le_rfl, le_rfl, .inr rfl, .inl rfl⟩

theorem Kept.addRow (h : Kept s) (hchain : Chain past s)
    (hp : s.procs[i]? = some (.placing userId bet (.opening window previousTotal .creating)))
    (hnew : roundDbId ∉ s.rows.map RoundRow.id) :
    Kept (s.addRow i userId bet window previousTotal roundDbId seed) := by
  have hmem := List.mem_of_getElem? hp
  have hwindow : window = s.window := hchain.opening _ hmem window rfl
  have hbelow : ∀ r ∈ s.rows, r.window < s.window := h.creating _ hmem window rfl
  have hset : ∀ g : Proc → Nat, g (.placing userId bet (.opening window previousTotal .creating)) =
      g (.placing userId bet (.opening window previousTotal (.bankroll roundDbId seed))) →
      weight g (s.procs.set i (.placing userId bet
        (.opening window previousTotal (.bankroll roundDbId seed)))) = weight g s.procs := by
    intro g hg
    have hweight := weight_set g hp
      (.placing userId bet (.opening window previousTotal (.bankroll roundDbId seed)))
    omega
  generalize hs' : s.addRow i userId bet window previousTotal roundDbId seed = s'
  have hprocs : s'.procs = s.procs.set i
      (.placing userId bet (.opening window previousTotal (.bankroll roundDbId seed))) := by
    rw [← hs']
    rfl
  have hrows : s'.rows = s.rows ++ [⟨roundDbId, .empty, false, window, none⟩] := by
    rw [← hs']
    rfl
  have hwindow' : s'.window = s.window := by
    rw [← hs']
    rfl
  have hinstalled : s'.installed = false := by
    rw [← hs']
    refine hchain.fresh ?_
    have hle : Proc.opens _ ≤ weight Proc.opens s.procs := le_weight hmem
    exact hle
  have hphase : s'.table.phase = s.table.phase := by
    rw [← hs']
    rfl
  have hstakes : s'.table.stakes = s.table.stakes := by
    rw [← hs']
    rfl
  have hin : s'.inPlay ↔ s.inPlay := by
    refine inPlay_congr hphase ?_
    have hrolling : s'.rolling = weight Proc.rolls s'.procs + s.table.dealSet +
        max s.table.onTurn (weight Proc.doubles s'.procs) := by
      rw [← hs']
      rfl
    rw [State.openings, hrolling, hprocs, hset Proc.opens rfl, hset Proc.rolls rfl,
      hset Proc.doubles rfl]
    rfl
  have hwrites : ∀ roundDbId,
      weight (Proc.writesTo roundDbId) s'.procs = weight (Proc.writesTo roundDbId) s.procs := by
    intro roundDbId
    rw [hprocs]
    exact hset _ rfl
  have hsettles : ∀ window,
      weight (Proc.settlesOn window) s'.procs = weight (Proc.settlesOn window) s.procs := by
    intro window
    rw [hprocs]
    exact hset _ rfl
  have hhand : ∀ r, s'.inHand r ↔ s.inHand r := by
    intro r
    have hbefore : ¬ s.atPlay r.id := not_atPlay_of_fresh hchain hmem rfl r.id
    have hafter : ¬ s'.atPlay r.id := by
      intro hplay
      have htrue := hplay.1
      rw [hinstalled] at htrue
      cases htrue
    unfold State.inHand
    rw [hsettles, hwrites]
    simp only [hafter, hbefore]
  have hold : ∀ r ∈ s.rows, r ∈ s'.rows := by
    rw [hrows]
    exact fun r hr => List.mem_append_left _ hr
  have hsole : ∀ p ∈ s'.procs, p = .placing userId bet
      (.opening window previousTotal (.bankroll roundDbId seed)) ∨ p.opening = none := by
    rw [hprocs]
    exact fun p hp' => hchain.sole_opening hp rfl hp'
  have hidsOld : ∀ roundDbId, roundDbId ∈ s.rows.map RoundRow.id →
      roundDbId ∈ s'.rows.map RoundRow.id := by
    intro roundDbId hid
    obtain ⟨r, hr, rfl⟩ := List.mem_map.mp hid
    exact List.mem_map_of_mem (hold r hr)
  refine ⟨?_, ?_, ?_, ?_, ?_, ?_, ?_, ?_, ?_, ?_, h.conserved.moves (.of_held ?_ fun u => ?_)⟩
  · rw [hrows, List.map_append]
    refine List.Nodup.append h.ids (List.nodup_singleton _) ?_
    intro x hx hx'
    have heq : x = roundDbId := List.mem_singleton.mp hx'
    exact hnew (heq ▸ hx)
  · rw [hrows, List.map_append]
    refine List.Nodup.append h.windows (List.nodup_singleton _) ?_
    intro x hx hx'
    obtain ⟨r, hr, rfl⟩ := List.mem_map.mp hx
    have hlt := hbelow r hr
    have heq : r.window = window := List.mem_singleton.mp hx'
    omega
  · rw [hrows, hwindow']
    intro r hr
    rcases List.mem_append.mp hr with hr | hr
    · exact h.bound r hr
    · cases List.mem_singleton.mp hr
      exact hwindow.le
  · intro p hp window hcreating
    rcases hsole p hp with rfl | hnone
    · cases hcreating
    · rw [opening_of_creating hcreating] at hnone
      cases hnone
  · rw [hinstalled]
    simp
  · intro p hp round window' hfresh
    rcases hsole p hp with rfl | hnone
    · cases hfresh
      refine ⟨?_, _, hrows ▸ List.mem_append_right _ (List.mem_singleton_self _), rfl, rfl, rfl, rfl⟩
      rw [hwrites]
      by_contra hne
      exact hnew (h.filed _ (Nat.pos_of_ne_zero hne))
    · rw [opening_of_freshRow hfresh] at hnone
      cases hnone
  · intro round hpos
    rw [hwrites] at hpos
    exact hidsOld round (h.filed round hpos)
  · intro window'
    rw [hsettles]
    obtain ⟨hone, hrow⟩ := h.settling window'
    refine ⟨hone, fun hpos => ?_⟩
    obtain ⟨r, hr, hrest⟩ := hrow hpos
    exact ⟨r, hold r hr, hrest⟩
  · intro hidle
    unfold Table.noBets
    rw [hstakes]
    exact h.idle (hphase.symm.trans hidle)
  · intro hpos
    rw [hprocs, hset Proc.doubles rfl] at hpos
    exact hphase.trans (h.doubling hpos)
  · rw [← hs']
    rfl
  · have hinRows : s'.inRows u = s.inRows u := by
      have hshare : ∀ r ∈ s.rows, s'.share u r = s.share u r := by
        intro r _
        unfold State.share
        simp only [hhand]
      have hnone : s'.share u ⟨roundDbId, .empty, false, window, none⟩ = 0 := ite_self 0
      unfold State.inRows
      rw [hrows, weight_append, weight_congr hshare, weight_cons, weight_nil, hnone]
      rfl
    have hatTable : s'.atTable u = s.atTable u := by
      unfold State.atTable Table.stakesOf
      rw [hstakes]
      simp only [hin]
    unfold State.held
    rw [hinRows, hatTable, hprocs, hset (Proc.holds u) rfl]

/-- The round goes on the table, and its row into the table's hands. -/
theorem Kept.install (h : Kept s) (hchain : Chain past s)
    (hp : s.procs[i]? = some
      (.placing userId bet (.opening window previousTotal (.bankroll roundDbId seed)))) :
    Kept (s.install cfg i userId bet window previousTotal roundDbId seed guard) := by
  have hmem := List.mem_of_getElem? hp
  have hwindow : window = s.window := hchain.opening _ hmem window rfl
  obtain ⟨_, row, hrow, hid, hof, hopen, hempty⟩ := h.fresh _ hmem roundDbId window rfl
  have hafter : Chain past (s.install cfg i userId bet window previousTotal roundDbId seed guard) :=
    hchain.install hp rfl
  obtain ⟨stage, hstage, hstage'⟩ : ∃ stage,
      (if cfg.onchainLive then Opening.entropy else .tableUpdate) = stage ∧
        (stage = .entropy ∨ stage = .tableUpdate) := by
    refine ⟨_, rfl, ?_⟩
    split
    · exact .inl rfl
    · exact .inr rfl
  have hnew : ∀ {α : Type} (g : Proc → α), (g (.placing userId bet (.opening window previousTotal
      .entropy)) = g (.placing userId bet (.opening window previousTotal .tableUpdate))) →
      g (.placing userId bet (.opening window previousTotal stage)) =
        g (.placing userId bet (.opening window previousTotal .entropy)) := by
    intro α g hg
    rcases hstage' with rfl | rfl
    · rfl
    · exact hg.symm
  generalize hs' : s.install cfg i userId bet window previousTotal roundDbId seed guard = s' at hafter ⊢
  have hprocs : s'.procs = s.procs.set i (.placing userId bet (.opening window previousTotal stage)) := by
    rw [← hs', ← hstage]
    rfl
  have hrows : s'.rows = s.rows := by rw [← hs']; rfl
  have hwindow' : s'.window = s.window := by rw [← hs']; rfl
  have hround : s'.table.roundDbId = some roundDbId := by rw [← hs']; rfl
  have hphase : s'.table.phase = s.table.phase := by rw [← hs']; rfl
  have hstakes : s'.table.stakes = s.table.stakes := by
    rw [← hs']
    exact installRound_stakes roundDbId seed guard
  have hslot : .placing userId bet (.opening window previousTotal stage) ∈ s'.procs := by
    rw [hprocs]
    obtain ⟨hi, -⟩ := List.getElem?_eq_some_iff.mp hp
    exact List.mem_set hi _
  have hrolls : (Proc.placing userId bet (.opening window previousTotal stage)).rolls = 1 :=
    hnew Proc.rolls rfl
  have hin' : s'.inPlay := inPlay_of_mem hslot hrolls
  have hin : s.inPlay := by
    have hle : Proc.opens _ ≤ weight Proc.opens s.procs := le_weight hmem
    have hpos : 0 < s.openings := hle
    exact .inr (by omega)
  have hinstalled : s'.installed = true := by
    rw [← hs']
    simp [State.install, hwindow]
  have hset : ∀ g : Proc → Nat, g (.placing userId bet (.opening window previousTotal
      (.bankroll roundDbId seed))) = g (.placing userId bet (.opening window previousTotal stage)) →
      weight g s'.procs = weight g s.procs := by
    intro g hg
    have hweight := weight_set g hp (.placing userId bet (.opening window previousTotal stage))
    rw [hprocs]
    omega
  have hwrites : ∀ round,
      weight (Proc.writesTo round) s'.procs = weight (Proc.writesTo round) s.procs :=
    fun round => hset _ (hnew (Proc.writesTo round) rfl).symm
  have hsettles : ∀ window,
      weight (Proc.settlesOn window) s'.procs = weight (Proc.settlesOn window) s.procs :=
    fun window' => hset _ (hnew (Proc.settlesOn window') rfl).symm
  have hsole : ∀ p ∈ s'.procs, p.opening = none := by
    intro p hp'
    rw [hprocs] at hp'
    rcases hchain.sole_opening hp rfl hp' with rfl | hnone
    · exact hnew Proc.opening rfl
    · exact hnone
  have hhand : ∀ r, r.id ≠ roundDbId → (s'.inHand r ↔ s.inHand r) := by
    intro r hne
    have hbefore : ¬ s.atPlay r.id := not_atPlay_of_fresh hchain hmem rfl r.id
    have hnotAt : ¬ s'.atPlay r.id := by
      intro hplay
      have hsame := hplay.2.2
      rw [hround] at hsame
      cases hsame
      exact hne rfl
    unfold State.inHand
    rw [hsettles, hwrites]
    simp only [hnotAt, hbefore]
  have hrowEq : ∀ r ∈ s.rows, r.id = roundDbId → r = row := fun r hr hr' =>
    List.inj_on_of_nodup_map h.ids hr hrow (hr'.trans hid.symm)
  refine ⟨hrows ▸ h.ids, hrows ▸ h.windows, ?_, ?_, ?_, ?_, ?_, ?_, ?_, ?_,
    h.conserved.moves (.of_held ?_ fun u => ?_)⟩
  · rw [hrows, hwindow']
    exact h.bound
  · intro p hp window hcreating
    have hnone := hsole p hp
    rw [opening_of_creating hcreating] at hnone
    cases hnone
  · intro _ _
    rw [hrows, hwindow']
    exact ⟨row, hrow, hround.trans (congrArg some hid.symm), hof.trans hwindow, hopen⟩
  · intro p hp round window hfresh
    have hnone := hsole p hp
    rw [opening_of_freshRow hfresh] at hnone
    cases hnone
  · intro round hpos
    rw [hrows]
    exact h.filed round (hwrites round ▸ hpos)
  · intro window'
    rw [hsettles, hrows]
    exact h.settling window'
  · intro hidle
    unfold Table.noBets
    rw [hstakes]
    exact h.idle (hphase.symm.trans hidle)
  · intro hpos
    rw [hset Proc.doubles (hnew Proc.doubles rfl).symm] at hpos
    exact hphase.trans (h.doubling hpos)
  · rw [← hs']
    rfl
  · have hinRows : s'.inRows u = s.inRows u := by
      refine inRows_congr hrows fun r hr _ => ?_
      by_cases hr' : r.id = roundDbId
      · rw [hrowEq r hr hr', hempty]
        exact .inr stakesOf_empty
      · exact .inl (hhand r hr')
    have hatTable : s'.atTable u = s.atTable u := by
      unfold State.atTable Table.stakesOf
      rw [hstakes, if_pos hin, if_pos hin']
    unfold State.held
    rw [hinRows, hatTable, hset (Proc.holds u) (hnew (Proc.holds u) rfl).symm]

theorem Kept.created (h : Kept s) (hchain : Chain past s)
    (hstep : stepCreated cfg s i roundDbId seed = some s') : Kept s' := by
  unfold stepCreated at hstep
  split at hstep
  · rename_i userId bet window previousTotal hp
    split at hstep
    · cases hstep
    · rename_i hany
      have hnew : roundDbId ∉ s.rows.map RoundRow.id := by
        intro hmem
        obtain ⟨r, hr, hid⟩ := List.mem_map.mp hmem
        exact hany (List.any_eq_true.mpr ⟨r, hr, by simp [hid]⟩)
      have hadded : Kept (s.addRow i userId bet window previousTotal roundDbId seed) :=
        h.addRow hchain hp hnew
      split at hstep
      · cases hstep
        exact hadded
      · cases hstep
        have hat : (s.addRow i userId bet window previousTotal roundDbId seed).procs[i]? =
            some (.placing userId bet (.opening window previousTotal (.bankroll roundDbId seed))) := by
          obtain ⟨hi, -⟩ := List.getElem?_eq_some_iff.mp hp
          simp [State.addRow, List.getElem?_set_self hi]
        have hinstall : Kept ((s.addRow i userId bet window previousTotal roundDbId seed).install cfg i
            userId bet window previousTotal roundDbId seed none) :=
          hadded.install (hchain.addRow hp) hat
        simpa only [State.install, State.addRow, State.setProc, List.set_set] using hinstall
  · cases hstep

theorem Kept.bankroll (h : Kept s) (hchain : Chain past s) {bankroll : Option Nat}
    (hstep : stepBankroll cfg s i bankroll = some s') : Kept s' := by
  unfold stepBankroll at hstep
  split at hstep
  · rename_i hp
    cases hstep
    exact h.install hchain hp
  · cases hstep

end Openings

/-! ## Writes -/

/-- What a write makes of a row. -/
def Write.onto (w : Write) (r : RoundRow) : RoundRow :=
  if r.id = w.roundDbId then
    { r with
      stateJson := w.stateJson
      source := some w.window }
  else r

section Writes

variable {past : Nat → Prop} {cfg : Config} {s s' : State} {i : Nat} {t : Table} {u : UserId}
variable {p q : Proc} {w : Write}

theorem onto_frame (r : RoundRow) :
    (w.onto r).id = r.id ∧ (w.onto r).window = r.window ∧ (w.onto r).ended = r.ended := by
  unfold Write.onto
  split
  · exact ⟨rfl, rfl, rfl⟩
  · exact ⟨rfl, rfl, rfl⟩

theorem onto_of_ne {r : RoundRow} (h : r.id ≠ w.roundDbId) : w.onto r = r := if_neg h

/-- A write lands, and the table stays at play if it was. -/
structure Lands (w : Write) (s s' : State) : Prop where
  rows : s'.rows = w.commit s.rows
  ledger : s'.ledger = s.ledger
  round : SameRound s s'
  inPlay : s'.inPlay ↔ s.inPlay
  idle : s'.table.phase = .idle → s'.table.noBets
  doubling : 0 < weight Proc.doubles s'.procs → s'.table.phase = .player_turns
  settles : ∀ window,
    weight (Proc.settlesOn window) s'.procs = weight (Proc.settlesOn window) s.procs
  writes : ∀ roundDbId, weight (Proc.writesTo roundDbId) s'.procs +
    (if w.roundDbId = roundDbId then 1 else 0) = weight (Proc.writesTo roundDbId) s.procs
  plain : ∀ p ∈ s'.procs, p ∈ s.procs ∨ p.Plain
  holds : ∀ u, weight (Proc.holds u) s'.procs = weight (Proc.holds u) s.procs
  stakes : ∀ u, s'.table.stakesOf u = s.table.stakesOf u

theorem Lands.atPlay (h : Lands w s s') (roundDbId : RoundId) :
    s'.atPlay roundDbId ↔ s.atPlay roundDbId := by
  unfold State.atPlay
  rw [h.inPlay, h.round.1, h.round.2.2]

/-- A row that is written was in hand. -/
theorem Lands.written (h : Lands w s s') : 0 < weight (Proc.writesTo w.roundDbId) s.procs := by
  have hone := h.writes w.roundDbId
  rw [if_pos rfl] at hone
  omega

theorem Lands.inHand_of_ne (h : Lands w s s') {r : RoundRow} (hne : r.id ≠ w.roundDbId) :
    s'.inHand r ↔ s.inHand r := by
  have hsame := h.writes r.id
  rw [if_neg (Ne.symm hne), Nat.add_zero] at hsame
  unfold State.inHand
  rw [h.atPlay, h.settles, hsame]

theorem Kept.lands (h : Kept s) (hlands : Lands w s s')
    (hsafe : ∀ r ∈ s.rows, r.id = w.roundDbId → r.ended = false → ¬ s.atPlay r.id →
      weight (Proc.settlesOn r.window) s.procs = 0 →
      weight (Proc.writesTo r.id) s.procs = 1 → ∀ u, w.stateJson.stakesOf u = 0) : Kept s' := by
  have hne : ∀ r : RoundRow, weight (Proc.writesTo r.id) s.procs = 0 → r.id ≠ w.roundDbId := by
    intro r hzero hid
    have hpos := hlands.written
    rw [← hid] at hpos
    omega
  have hdown : HandsDown w.onto s s' := {
    rows := hlands.rows
    keeps := fun r => ⟨(onto_frame r).1, (onto_frame r).2.1⟩
    window := hlands.round.2.1
    plain := hlands.plain
    table := fun hinstalled hin =>
      ⟨hlands.round.1.symm.trans hinstalled, hlands.inPlay.mp hin, hlands.round.2.2⟩
    writes := fun roundDbId => Nat.le.intro (hlands.writes roundDbId)
    settling := fun window => by
      rw [hlands.settles]
      exact h.settling window
    opens := fun r _ hopen _ => (onto_frame r).2.2.trans hopen
    fresh := fun p hp r _ _ _ hfresh =>
      onto_of_ne (hne r (h.fresh p hp r.id r.window hfresh).1) }
  refine h.handsDown hdown hlands.idle hlands.doubling (.of_held hlands.ledger fun u => ?_)
  have hrows : s'.inRows u = s.inRows u := by
    refine hdown.inRows fun r hr => ?_
    by_cases hid : r.id = w.roundDbId
    · have hwas : s.inHand r := .inr (.inr (hid ▸ hlands.written))
      have hbefore : s.share u r = 0 := if_neg fun hshare => hshare.2 hwas
      rw [hbefore]
      unfold State.share
      split
      · rename_i hshare
        obtain ⟨hopen, hout⟩ := hshare
        rw [inHand_congr (onto_frame r).1 (onto_frame r).2.1] at hout
        have hjson : (w.onto r).stateJson = w.stateJson := by
          unfold Write.onto
          rw [if_pos hid]
        rw [hjson]
        have hwrites := hlands.writes r.id
        rw [if_pos hid.symm] at hwrites
        refine hsafe r hr hid ((onto_frame r).2.2.symm.trans hopen) ?_ ?_ ?_ u
        · exact fun hplay => hout (.inl ((hlands.atPlay r.id).mpr hplay))
        · rw [← hlands.settles]
          by_contra hpos
          exact hout (.inr (.inl (Nat.pos_of_ne_zero hpos)))
        · by_contra hmore
          exact hout (.inr (.inr (by omega)))
      · rfl
    · rw [onto_of_ne hid]
      unfold State.share
      simp only [hlands.inHand_of_ne hid]
  have htable : s'.atTable u = s.atTable u := by
    unfold State.atTable
    rw [hlands.stakes]
    simp only [hlands.inPlay]
  unfold State.held
  rw [hrows, htable, hlands.holds]

/-- The call that has waited for the write waits no more. -/
theorem writes_set (hp : s.procs[i]? = some p) (hw : p.write = some w) (hq : q.write = none)
    (roundDbId : RoundId) : weight (Proc.writesTo roundDbId) (s.procs.set i q) +
      (if w.roundDbId = roundDbId then 1 else 0) = weight (Proc.writesTo roundDbId) s.procs := by
  have hweight := weight_set (Proc.writesTo roundDbId) hp q
  have hold : p.writesTo roundDbId = if w.roundDbId = roundDbId then 1 else 0 := by
    simp [Proc.writesTo, hw]
  have hnew : q.writesTo roundDbId = 0 := by
    simp [Proc.writesTo, hq]
  omega

theorem settles_set (hp : s.procs[i]? = some p) (hsame : q.settles = p.settles) (window : Nat) :
    weight (Proc.settlesOn window) (s.procs.set i q) = weight (Proc.settlesOn window) s.procs := by
  have hweight := weight_set (Proc.settlesOn window) hp q
  have heq : q.settlesOn window = p.settlesOn window := by
    simp [Proc.settlesOn, hsame]
  omega

/-- The write of a call that goes on without driving the table. -/
theorem Lands.quietly (h : Kept s) (hp : s.procs[i]? = some p) (hw : p.write = some w)
    (hwrite : q.write = none) (hopens : q.opens = p.opens) (hrolls : q.rolls = p.rolls)
    (hdoubles : q.doubles = p.doubles) (hsettles : q.settles = p.settles) (hplain : q.Plain)
    (hholds : ∀ u, q.holds u = p.holds u) : Lands w s ((s.commit w).setProc i q) where
  rows := rfl
  ledger := rfl
  round := ⟨rfl, rfl, rfl⟩
  inPlay := by
    have hopens' := weight_set Proc.opens hp q
    have hrolls' := weight_set Proc.rolls hp q
    have hdoubles' := weight_set Proc.doubles hp q
    refine inPlay_congr rfl ?_
    simp only [State.openings, State.rolling, setProc_procs, setProc_table, commit_procs, commit_table]
    omega
  idle := h.idle
  doubling hpos := by
    have hdoubles' := weight_set Proc.doubles hp q
    simp only [setProc_procs, commit_procs] at hpos
    exact h.doubling (by omega)
  settles := settles_set hp hsettles
  writes := writes_set hp hw hwrite
  plain := mem_set_of hplain
  holds u := by
    have hweight := weight_set (Proc.holds u) hp q
    have hsame := hholds u
    simp only [setProc_procs, commit_procs]
    omega
  stakes _ := rfl

/-- The stakes of a window that opens are written, and the deal is due. -/
theorem Lands.opened (h : Kept s) (hchain : Chain past s) {userId : UserId} {bet : SeatBet}
    {previousTotal : Nat} (hp : s.procs[i]? = some (.placing userId bet (.saving w previousTotal true))) :
    Lands w s (((s.commit w).setProc i (PlaceStage.after userId bet previousTotal)).setTable
      (s.table.setTimer .deal)) := by
  obtain ⟨hroll, _, -, _, _, _, _, _⟩ := hchain.only hp rfl
  have hafter := after_quiet userId bet previousTotal
  refine ⟨rfl, rfl, ⟨rfl, rfl, rfl⟩, ⟨fun _ => inPlay_of_rolling hroll, fun _ => ?_⟩, h.idle,
    fun hpos => ?_, settles_set hp (hafter.settles.elim id id),
    writes_set hp rfl (after_blank userId bet previousTotal).1,
    mem_set_of (after_plain userId bet previousTotal), fun u => ?_, fun _ => rfl⟩
  · refine inPlay_of_rolling ?_
    have hset : (s.table.setTimer .deal).dealSet = 1 := rfl
    rw [State.rolling, setTable_table, hset]
    omega
  · have hzero : (PlaceStage.after userId bet previousTotal).doubles ≤ 0 := hafter.doubles
    have hweight := weight_set Proc.doubles hp (PlaceStage.after userId bet previousTotal)
    have hpos' : 0 < weight Proc.doubles
        (s.procs.set i (PlaceStage.after userId bet previousTotal)) := hpos
    omega
  · have hweight := weight_set (Proc.holds u) hp (PlaceStage.after userId bet previousTotal)
    rw [after_holds] at hweight
    exact Nat.add_right_cancel hweight

/-- A double is written, and the turn moves on. -/
theorem Lands.doubled (h : Kept s) (hchain : Chain past s) {userId : UserId} {extra seatIndex : Nat}
    (hp : s.procs[i]? = some (.doubling userId extra (.saving w seatIndex))) :
    Lands w s (((s.commit w).setProc i .done).turned (afterAction s.table seatIndex)) := by
  have hmem := List.mem_of_getElem? hp
  have hone := hchain.one
  have hle : Proc.doubles _ ≤ weight Proc.doubles s.procs := le_weight hmem
  have hpos : 0 < weight Proc.doubles s.procs := hle
  simp only [State.openings, State.rolling] at hone
  have hdoubles : weight Proc.doubles (s.procs.set i .done) = 0 := by
    have hweight : _ + 1 = _ + 0 := weight_set Proc.doubles hp .done
    omega
  have hphase := h.doubling hpos
  have hin : s.inPlay := inPlay_of_rolling (hchain.alone hphase).1
  have hturn := afterAction_turnTo (t := s.table) seatIndex
  have hdealer : ∀ g : Proc → Nat, g (.dealer false) = 0 →
      weight g (((s.commit w).setProc i .done).turned (afterAction s.table seatIndex)).procs =
        weight g (s.procs.set i .done) := by
    intro g hg
    rw [turned_procs]
    split
    · simp [hg]
    · rfl
  refine ⟨turned_rows, turned_ledger, turned_sameRound rfl rfl rfl hturn,
    ⟨fun _ => hin, fun _ => ?_⟩, ?_, fun hpos => absurd hpos (turned_doubling hdoubles),
    fun window => ?_, fun roundDbId => ?_, mem_turned_of ⟨rfl, rfl⟩ (mem_set_of ⟨rfl, rfl⟩),
    fun u => ?_, fun u => turned_stakesOf hturn⟩
  · rcases hturn with ⟨next, -, -, heq⟩ | heq
    · refine inPlay_of_rolling ?_
      have honTurn : (afterAction s.table seatIndex).1.onTurn = 1 := by
        rw [heq]
        exact if_pos hphase
      rw [State.rolling, turned_table, honTurn]
      omega
    · refine inPlay_of_mem (p := .dealer false) ?_ rfl
      rw [turned_procs, heq]
      exact List.mem_append_right _ (List.mem_singleton_self _)
  · rw [turned_table]
    rcases hturn with ⟨_, -, -, heq⟩ | heq
    · rw [heq]
      intro hidle
      rw [show Table.phase _ = Phase.player_turns from hphase] at hidle
      cases hidle
    · rw [heq]
      simp [Table.startDealer]
  · rw [hdealer _ rfl]
    exact settles_set (q := .done) hp rfl window
  · rw [hdealer _ rfl]
    exact writes_set hp rfl rfl roundDbId
  · rw [hdealer _ rfl]
    have hzero : (Proc.doubling userId extra (.saving w seatIndex)).holds u = 0 := by
      simp [Proc.holds, DoubleStage.holds]
    have hweight := weight_set (Proc.holds u) hp .done
    rw [hzero] at hweight
    exact hweight

theorem Kept.saved (h : Kept s) (hchain : Chain past s) (hsafe : HandsOver s (.saved i))
    (hstep : stepSaved s i = some s') : Kept s' := by
  unfold stepSaved at hstep
  split at hstep
  · rename_i userId bet w previousTotal opens hp
    have hrows := hsafe _ w hp rfl
    cases hstep
    cases opens with
    | false =>
      have hafter := after_quiet userId bet previousTotal
      refine h.lands (.quietly h hp rfl (after_blank _ _ _).1 ?_ ?_ ?_ (hafter.settles.elim id id)
        (after_plain _ _ _) fun u => after_holds _ _ _) hrows
      · exact Nat.le_zero.mp hafter.opens
      · exact Nat.le_zero.mp hafter.rolls
      · exact Nat.le_zero.mp hafter.doubles
    | true => exact h.lands (.opened h hchain hp) hrows
  · rename_i userId refund w hp
    cases hstep
    exact h.lands (.quietly h hp rfl rfl rfl rfl rfl rfl ⟨rfl, rfl⟩ fun _ => rfl)
      (hsafe _ w hp rfl)
  · rename_i userId extra w seatIndex hp
    cases hstep
    exact h.lands (.doubled h hchain hp) (hsafe _ w hp rfl)
  · rename_i w hp
    cases hstep
    exact h.lands (.quietly h hp rfl rfl rfl rfl rfl rfl ⟨rfl, rfl⟩ fun _ => rfl)
      (hsafe _ w hp rfl)
  · cases hstep

end Writes

/-- A call that is over counts for nothing any more. -/
theorem weight_finish {s : State} {i : Nat} {p : Proc} (hp : s.procs[i]? = some p) (g : Proc → Nat)
    (hg : g p = 0) (hdone : g .done = 0) : weight g (s.procs.set i .done) = weight g s.procs := by
  have hweight := weight_set g hp .done
  omega

/-- What a transaction that ends a row does to every row. -/
structure EndsRow (roundDbId : RoundId) (f : RoundRow → RoundRow) : Prop where
  keeps : ∀ r, (f r).id = r.id ∧ (f r).window = r.window
  stays : ∀ r : RoundRow, r.id ≠ roundDbId → f r = r
  ends : ∀ r : RoundRow, r.id = roundDbId → (f r).ended = true

theorem EndsRow.of_write {roundDbId : RoundId} {g : RoundRow → RoundRow}
    (hg : ∀ r, (g r).id = r.id ∧ (g r).window = r.window) : EndsRow roundDbId fun r =>
      if r.id = roundDbId ∧ r.ended = false then { g r with ended := true } else r := by
  refine ⟨fun r => ?_, fun r hne => if_neg fun h => hne h.1, fun r hid => ?_⟩
  · dsimp only
    split
    · exact hg r
    · exact ⟨rfl, rfl⟩
  · dsimp only
    split
    · rfl
    · rename_i hnot
      simpa [hid] using hnot

/-! ## The settle -/

section Settle

variable {past : Nat → Prop} {cfg : Config} {s s' : State} {i : Nat} {t : Table} {u : UserId}
variable {window : Nat} {data : List SeatData} {stateJson : StateJson}

/-- The settle pays on the stakes of the table. -/
theorem settle_data : weight (SeatData.stakeOf u) (settle t).2 = t.stakesOf u := by
  have hseats : ∀ l : List Seat, (∀ seat ∈ l, seat.bet.isSome = true) →
      weight (SeatData.stakeOf u) (l.filterMap (Seat.settle t.dealerCards)) =
        weight (fun seat => seat.stake.stakeOf u) l := by
    intro l hl
    induction l with
    | nil => rfl
    | cons seat l ih =>
      obtain ⟨bet, hbet⟩ := Option.isSome_iff_exists.mp (hl seat List.mem_cons_self)
      have hsettle : seat.settle t.dealerCards = some
          ⟨seat.userId, seat.index, bet.betTotal,
            (mainPayout t.dealerCards seat bet).2 + sidePayout seat bet⟩ := by
        simp [Seat.settle, hbet]
      rw [List.filterMap_cons_some hsettle, weight_cons, weight_cons,
        ih fun x hx => hl x (List.mem_cons_of_mem _ hx), stakeOf_of_bet hbet]
      rfl
  calc weight (SeatData.stakeOf u) (settle t).2
    _ = weight (fun seat => seat.stake.stakeOf u) t.bettingSeats :=
        hseats t.bettingSeats fun seat hseat => (mem_bettingSeats.mp hseat).2
    _ = weight (fun seat => seat.stake.stakeOf u) (t.seats.filter (·.bet.isSome)) :=
        weight_perm _ (List.mergeSort_perm _ _)
    _ = weight (fun seat => seat.stake.stakeOf u) t.seats :=
        weight_filter fun seat _ hbet => stakeOf_none (show seat.bet = none by simpa using hbet)
    _ = t.stakesOf u := (weight_map (Stake.stakeOf u) Seat.stake t.seats).symm

theorem settlesOn_self : (Proc.settling window data stateJson).settlesOn window = 1 := if_pos rfl

theorem settlesOn_ne {window' : Nat} (h : window' ≠ window) :
    (Proc.settling window data stateJson).settlesOn window' = 0 :=
  if_neg fun heq => h (Option.some.inj heq).symm

theorem settles_pos (hp : s.procs[i]? = some (.settling window data stateJson)) :
    0 < weight (Proc.settlesOn window) s.procs := by
  have hle : Proc.settlesOn window _ ≤ weight (Proc.settlesOn window) s.procs :=
    le_weight (List.mem_of_getElem? hp)
  rw [settlesOn_self] at hle
  exact hle

/-- The dealer is done: the stakes of the table go into the settle. -/
theorem Kept.dealerDone (h : Kept s) (hchain : Chain past s)
    (hstep : stepDealerDone s i = some s') : Kept s' := by
  unfold stepDealerDone at hstep
  split at hstep
  · rename_i hp
    split at hstep
    · cases hstep
    · obtain ⟨hroll, -, -, -, _, _, _, hdoubles⟩ := hchain.only hp rfl
      have hin := inPlay_of_rolling hroll
      obtain ⟨r, hr, hround, hwindow, hopen⟩ := h.row hchain hroll
      dsimp only at hstep
      generalize hq : Proc.settling s.window (settle s.table).2
        (.snapshot (settle s.table).1.snapshot) = q at hstep
      have hsettlesOn : ∀ window, q.settlesOn window = if window = s.window then 1 else 0 := by
        intro window
        rw [← hq]
        split
        · rename_i heq
          rw [heq]
          exact settlesOn_self
        · rename_i hne
          exact settlesOn_ne hne
      cases hstep
      have hzero : weight (Proc.settlesOn s.window) s.procs = 0 := by
        by_contra hpos
        have hlt := hchain.settled_lt hin (Nat.pos_of_ne_zero hpos)
        omega
      have hsettles : ∀ window, weight (Proc.settlesOn window) (s.procs.set i q) =
          weight (Proc.settlesOn window) s.procs + if window = s.window then 1 else 0 := by
        intro window
        have hweight := weight_set (Proc.settlesOn window) hp q
        rw [hsettlesOn] at hweight
        exact hweight
      have hwrites : ∀ roundDbId, weight (Proc.writesTo roundDbId) (s.procs.set i q) =
          weight (Proc.writesTo roundDbId) s.procs := by
        intro roundDbId
        have hweight := weight_set (Proc.writesTo roundDbId) hp q
        rw [← hq] at hweight ⊢
        exact hweight
      have hdoubles' : weight Proc.doubles (s.procs.set i q) = 0 := by
        have hweight := weight_set Proc.doubles hp q
        rw [← hq] at hweight ⊢
        exact hweight.trans hdoubles
      generalize hs' : (s.setTable (settle s.table).1).setProc i q = s'
      have hprocs : s'.procs = s.procs.set i q := by rw [← hs']; rfl
      have hphase : s'.table.phase = .settled := by rw [← hs']; rfl
      have hout : ¬ s'.inPlay := by
        intro hin
        have hafter : Chain past s' := by
          rw [← hs', ← hq]
          exact hchain.dealerDone hp
        have hrest := hafter.rest (.inr hphase)
        rcases hin with hbetting | hpos
        · rw [hphase] at hbetting
          cases hbetting
        · omega
      have hhand : ∀ r' ∈ s.rows, s'.inHand r' ↔ s.inHand r' := by
        intro r' hr'
        have hnot : ¬ s'.atPlay r'.id := fun hplay => hout hplay.2.1
        unfold State.inHand
        rw [hprocs, hsettles, hwrites]
        by_cases hwin : r'.window = s.window
        · have hsame : r' = r := List.inj_on_of_nodup_map h.windows hr' hr (hwin.trans hwindow.symm)
          have hplay : s.atPlay r'.id := ⟨hchain.installed hroll, hin, hsame ▸ hround⟩
          simp [hplay, hwin]
        · have hnotBefore : ¬ s.atPlay r'.id := by
            intro hplay
            have hid := hplay.2.2
            rw [hround, Option.some.injEq] at hid
            have hsame : r = r' := List.inj_on_of_nodup_map h.ids hr hr' hid
            exact hwin (hsame ▸ hwindow)
          simp [hnot, hnotBefore, hwin]
      have hdown : HandsDown id s s' := {
        rows := by
          rw [← hs']
          exact (List.map_id _).symm
        keeps := fun _ => ⟨rfl, rfl⟩
        window := by
          rw [← hs']
          rfl
        plain := by
          rw [hprocs]
          refine mem_set_of ?_
          rw [← hq]
          exact ⟨rfl, rfl⟩
        table := fun _ hin' => absurd hin' hout
        writes := fun roundDbId => by
          rw [hprocs, hwrites]
        settling := fun window => by
          rw [hprocs, hsettles]
          split
          · rename_i heq
            rw [heq, hzero]
            exact ⟨le_rfl, fun _ => ⟨r, hr, hwindow, hopen⟩⟩
          · exact h.settling window
        opens := fun _ _ hopen _ => hopen
        fresh := fun _ _ _ _ _ _ _ => rfl }
      refine h.handsDown hdown (fun hidle => ?_) (fun hpos => ?_) (.of_held ?_ fun u => ?_)
      · rw [hphase] at hidle
        cases hidle
      · rw [hprocs] at hpos
        omega
      · rw [← hs']
        rfl
      · have hrows : s'.inRows u = s.inRows u := by
          refine hdown.inRows fun r' hr' => ?_
          show s'.share u r' = _
          unfold State.share
          simp only [hhand r' hr']
        have hafter : s'.atTable u = 0 := if_neg hout
        have hbefore : s.atTable u = s.table.stakesOf u := if_pos hin
        have hweight := weight_set (Proc.holds u) hp q
        have hdata : q.holds u = s.table.stakesOf u := by
          rw [← hq]
          exact settle_data
        have hdealer : (Proc.dealer true).holds u = 0 := rfl
        unfold State.held
        rw [hrows, hafter, hbefore, hprocs]
        omega
  · cases hstep

/-- A settle that is over: no other is of its window. -/
theorem Kept.settle_over (h : Kept s)
    (hp : s.procs[i]? = some (.settling window data stateJson)) (window' : Nat) :
    weight (Proc.settlesOn window') (s.procs.set i .done) =
      if window' = window then 0 else weight (Proc.settlesOn window') s.procs := by
  have hweight : _ + _ = _ + 0 := weight_set (Proc.settlesOn window') hp .done
  split
  · rename_i heq
    have hone := (h.settling window).1
    rw [heq, settlesOn_self] at hweight
    rw [heq]
    omega
  · rename_i hne
    rw [settlesOn_ne hne] at hweight
    exact hweight

/-- What a settle writes along with the end of its row. -/
def RoundRow.settle (roundDbId : RoundId) (window : Nat) (stateJson : StateJson) (r : RoundRow) :
    RoundRow :=
  if r.id = roundDbId ∧ r.ended = false then
    { settledRow window stateJson r with ended := true }
  else r

/-- A settle commits on its own round: its row ends, and the stakes it has
held are settled on. -/
theorem Kept.settled (h : Kept s) (hchain : Chain past s) (hsafe : HandsOver s (.settled i))
    (hstep : stepSettled s i = some s') : Kept s' := by
  unfold stepSettled at hstep
  split at hstep
  · rename_i window data stateJson roundDbId hp hround
    obtain ⟨r, hr, hid, hwindow⟩ := hsafe window data stateJson hp
    rw [hround, Option.some.injEq] at hid
    obtain ⟨r', hr', hwindow', hopen⟩ := (h.settling window).2 (settles_pos hp)
    have hsame : r' = r := List.inj_on_of_nodup_map h.windows hr' hr (hwindow'.trans hwindow.symm)
    rw [hsame] at hopen
    have hisOpen : isOpenRow roundDbId s.rows = true :=
      List.any_eq_true.mpr ⟨r, hr, by simp [hid, hopen]⟩
    have honly : ∀ x ∈ s.rows, x.id = roundDbId → x = r := fun x hx hxid =>
      List.inj_on_of_nodup_map h.ids hx hr (hxid.trans hid)
    rw [if_pos hisOpen] at hstep
    have hrest : s.installed = true → ¬ s.inPlay := by
      intro hinstalled hin
      obtain ⟨x, hx, hxround, hxwindow, -⟩ := h.played hinstalled hin
      rw [hround, Option.some.injEq] at hxround
      have hlt := hchain.settled_lt hin (settles_pos hp)
      rw [honly x hx hxround.symm] at hxwindow
      omega
    have hdeal : s.table.dealSet = 0 := by
      by_contra hne
      have hroll : 0 < s.rolling := by
        rw [State.rolling]
        omega
      exact hrest (hchain.installed hroll) (inPlay_of_rolling hroll)
    have hset := weight_finish hp
    generalize hs' : (({ s with
        rows := endRow roundDbId (fun r => { r with
          stateJson := stateJson
          source := some window }) s.rows
        table := s.table.setTimer .settlePause } : State).setProc i .done).record
          (data.map .settled) = s' at hstep
    cases hstep
    have hprocs : s'.procs = s.procs.set i .done := by rw [← hs']; rfl
    have htable : s'.table = s.table.setTimer .settlePause := by rw [← hs']; rfl
    have hin : s'.inPlay ↔ s.inPlay := by
      refine inPlay_congr (by rw [htable]; rfl) ?_
      have hdeal' : s'.table.dealSet = 0 := by
        rw [htable]
        rfl
      have honTurn : s'.table.onTurn = s.table.onTurn := by
        rw [htable]
        rfl
      rw [State.openings, State.rolling, hprocs, hdeal', honTurn, hset Proc.opens rfl rfl,
        hset Proc.rolls rfl rfl, hset Proc.doubles rfl rfl, State.openings, State.rolling, hdeal]
    have hplay : ∀ round, s'.atPlay round ↔ s.atPlay round := by
      intro round
      unfold State.atPlay
      rw [hin, htable, ← hs']
      rfl
    have hwrites : ∀ round, weight (Proc.writesTo round) s'.procs =
        weight (Proc.writesTo round) s.procs := by
      intro round
      rw [hprocs]
      exact hset (Proc.writesTo round) rfl rfl
    have hsettles : ∀ window', weight (Proc.settlesOn window') s'.procs =
        if window' = window then 0 else weight (Proc.settlesOn window') s.procs := by
      rw [hprocs]
      exact h.settle_over hp
    have hother : ∀ x ∈ s.rows, x.window = window → x = r := fun x hx hxwindow =>
      List.inj_on_of_nodup_map h.windows hx hr (hxwindow.trans hwindow.symm)
    have hhand : ∀ x ∈ s.rows, x.id ≠ roundDbId → (s'.inHand x ↔ s.inHand x) := by
      intro x hx hne
      have hwin : x.window ≠ window := fun heq => hne ((congrArg RoundRow.id (hother x hx heq)).trans hid.symm)
      unfold State.inHand
      rw [hplay, hsettles, hwrites, if_neg hwin]
    obtain ⟨hkeeps, hstays, hends⟩ : EndsRow roundDbId (RoundRow.settle roundDbId window stateJson) :=
      .of_write fun _ => ⟨rfl, rfl⟩
    have hdown : HandsDown (RoundRow.settle roundDbId window stateJson) s s' := {
      rows := by
        rw [← hs']
        rfl
      keeps := hkeeps
      window := by
        rw [← hs']
        rfl
      plain := by
        rw [hprocs]
        exact mem_set_of ⟨rfl, rfl⟩
      table := fun hinstalled hin' => ⟨by
        rw [← hs'] at hinstalled
        exact hinstalled, hin.mp hin', by
        rw [htable]
        rfl⟩
      writes := fun round => (hwrites round).le
      settling := fun window' => by
        rw [hsettles]
        split
        · exact ⟨Nat.zero_le _, by simp⟩
        · exact h.settling window'
      opens := fun x hx hxopen hin' => by
        by_cases hxid : x.id = roundDbId
        · rw [honly x hx hxid, hwindow, hsettles, if_pos rfl] at hin'
          rcases hin' with hat | hpos
          · have hat' := (hplay r.id).mp hat
            exact absurd hat'.2.1 (hrest hat'.1)
          · cases hpos
        · rw [hstays x hxid]
          exact hxopen
      fresh := fun p hp' x hx _ _ hfresh => by
        refine hstays x fun hxid => ?_
        have hopening := opening_of_freshRow hfresh
        have hcurrent := hchain.opening p hp' x.window hopening
        have hle : p.opens ≤ weight Proc.opens s.procs := le_weight hp'
        rw [opens_of_opening hopening] at hle
        have hpos : 0 < s.openings := hle
        have hlt := hchain.settled_lt (.inr (by omega)) (settles_pos hp)
        rw [honly x hx hxid] at hcurrent
        omega }
    refine h.handsDown hdown (fun hidle => ?_) (fun hpos => ?_) fun u => ?_
    · rw [htable] at hidle ⊢
      exact h.idle hidle
    · rw [hprocs, hset Proc.doubles rfl rfl] at hpos
      rw [htable]
      exact h.doubling hpos
    · have hrows : s'.inRows u = s.inRows u := by
        refine hdown.inRows fun x hx => ?_
        by_cases hxid : x.id = roundDbId
        · have hwas : s.inHand x := by
            rw [honly x hx hxid]
            exact .inr (.inl (hwindow ▸ settles_pos hp))
          have hbefore : s.share u x = 0 := if_neg fun hshare => hshare.2 hwas
          have hafter : s'.share u (x.settle roundDbId window stateJson) = 0 := if_neg fun hshare => by
            rw [hends x hxid] at hshare
            cases hshare.1
          rw [hbefore, hafter]
        · rw [hstays x hxid]
          unfold State.share
          simp only [hhand x hx hxid]
      have hatTable : s'.atTable u = s.atTable u := by
        unfold State.atTable
        simp only [hin]
        rw [htable]
        rfl
      have hholds : weight (Proc.holds u) s'.procs + weight (SeatData.stakeOf u) data =
          weight (Proc.holds u) s.procs := by
        rw [hprocs]
        exact weight_set (Proc.holds u) hp .done
      have hledger : s'.ledger = s.ledger ++ data.map .settled := by
        rw [← hs']
        rfl
      have hdebited : weight (Movement.debited u) (data.map .settled) = 0 :=
        (weight_map _ _ _).trans (weight_eq_zero fun _ _ => rfl)
      have hrefunded : weight (Movement.refunded u) (data.map .settled) = 0 :=
        (weight_map _ _ _).trans (weight_eq_zero fun _ _ => rfl)
      have hsettled : weight (Movement.settledOn u) (data.map .settled) =
          weight (SeatData.stakeOf u) data := weight_map _ _ _
      unfold State.held
      rw [hledger, weight_append, weight_append, weight_append, hdebited, hrefunded, hsettled, hrows,
        hatTable]
      omega
  · cases hstep

/-- A settle that throws leaves its stakes to the recovery: the row shows
what the settle has held. -/
theorem Kept.aborted (h : Kept s) (hchain : Chain past s) (hsafe : HandsOver s (.aborted i))
    (hstep : stepAborted s i = some s') : Kept s' := by
  unfold stepAborted at hstep
  split at hstep
  · rename_i window data stateJson hp
    have hafter := hchain.aborted.setProc hp (quiet_done.fades _)
    obtain ⟨hout, r, hr, hwindow, hunwritten, hshows⟩ := hsafe window data stateJson hp
    obtain ⟨r', hr', hwindow', hopen⟩ := (h.settling window).2 (settles_pos hp)
    have hsame : r' = r := List.inj_on_of_nodup_map h.windows hr' hr (hwindow'.trans hwindow.symm)
    rw [hsame] at hopen
    have hset := weight_finish hp
    generalize hs' : (s.setTable { s.table with phase := .dealer_turn }).setProc i .done = s' at hstep
    cases hstep
    have hprocs : s'.procs = s.procs.set i .done := by rw [← hs']; rfl
    have hphase : s'.table.phase = .dealer_turn := by rw [← hs']; rfl
    have hout' : ¬ s'.inPlay := by
      intro hin
      rcases hin with hbetting | hpos
      · rw [hphase] at hbetting
        cases hbetting
      · refine hout (.inr ?_)
        have hdeal : s'.table.dealSet = s.table.dealSet := by rw [← hs']; rfl
        have honTurn : s'.table.onTurn = 0 := by
          rw [← hs']
          rfl
        rw [State.openings, State.rolling, hprocs, hdeal, honTurn, hset Proc.opens rfl rfl,
          hset Proc.rolls rfl rfl, hset Proc.doubles rfl rfl] at hpos
        rw [State.openings, State.rolling]
        omega
    have hwrites : ∀ round, weight (Proc.writesTo round) s'.procs =
        weight (Proc.writesTo round) s.procs := by
      intro round
      rw [hprocs]
      exact hset (Proc.writesTo round) rfl rfl
    have hsettles : ∀ window', weight (Proc.settlesOn window') s'.procs =
        if window' = window then 0 else weight (Proc.settlesOn window') s.procs := by
      rw [hprocs]
      exact h.settle_over hp
    have hhand : ∀ x ∈ s.rows, x.window ≠ window → (s'.inHand x ↔ s.inHand x) := by
      intro x _ hne
      have hbefore : ¬ s.atPlay x.id := fun hplay => hout hplay.2.1
      have hnot : ¬ s'.atPlay x.id := fun hplay => hout' hplay.2.1
      unfold State.inHand
      rw [hsettles, hwrites, if_neg hne]
      simp only [hbefore, hnot]
    have hdown : HandsDown id s s' := {
      rows := by
        rw [← hs']
        exact (List.map_id _).symm
      keeps := fun _ => ⟨rfl, rfl⟩
      window := by
        rw [← hs']
        rfl
      plain := by
        rw [hprocs]
        exact mem_set_of ⟨rfl, rfl⟩
      table := fun _ hin => absurd hin hout'
      writes := fun round => (hwrites round).le
      settling := fun window' => by
        rw [hsettles]
        split
        · exact ⟨Nat.zero_le _, by simp⟩
        · exact h.settling window'
      opens := fun _ _ hopen _ => hopen
      fresh := fun _ _ _ _ _ _ _ => rfl }
    refine h.handsDown hdown (fun hidle => ?_) (fun hpos => ?_) (.of_held ?_ fun u => ?_)
    · rw [hphase] at hidle
      cases hidle
    · rw [hprocs, hset Proc.doubles rfl rfl] at hpos
      have hturns := h.doubling hpos
      exact absurd (inPlay_of_rolling (hchain.alone hturns).1) hout
    · rw [← hs']
      rfl
    · have hrows : s'.inRows u + s.share u r = s.inRows u + s'.share u r := by
        have hrowsEq : s'.rows = s.rows := by rw [← hs']; rfl
        unfold State.inRows
        rw [hrowsEq]
        refine weight_congr_key RoundRow.window h.windows hr fun x hx hne => ?_
        unfold State.share
        simp only [hhand x hx (hwindow ▸ hne)]
      have hbefore : s.share u r = 0 :=
        if_neg fun hshare => hshare.2 (.inr (.inl (hwindow ▸ settles_pos hp)))
      have hfree : ¬ s'.inHand r := by
        intro hin
        rcases hin with hplay | hpos | hpos
        · exact hout' hplay.2.1
        · rw [hsettles, if_pos hwindow] at hpos
          cases hpos
        · rw [hwrites, hunwritten] at hpos
          cases hpos
      have hshare : s'.share u r = weight (SeatData.stakeOf u) data :=
        (if_pos ⟨hopen, hfree⟩).trans (hshows u)
      have hholds : weight (Proc.holds u) s'.procs + weight (SeatData.stakeOf u) data =
          weight (Proc.holds u) s.procs := by
        rw [hprocs]
        exact weight_set (Proc.holds u) hp .done
      have hatTable : s'.atTable u = 0 := if_neg hout'
      have hatTable' : s.atTable u = 0 := if_neg hout
      unfold State.held
      omega
  · cases hstep

end Settle

/-! ## The recovery -/

section Recovery

variable {past : Nat → Prop} {cfg : Config} {s s' : State} {i : Nat} {u : UserId}
variable {roundDbId : RoundId}

/-- The row that the recovery ends. -/
def RoundRow.recover (roundDbId : RoundId) (r : RoundRow) : RoundRow :=
  if r.id = roundDbId ∧ r.ended = false then { r with ended := true } else r

theorem refunded_eq (refunds : List (UserId × Nat)) :
    weight (Movement.refunded u) (refunds.map fun r => .recovered r.1 r.2) = refundsOf u refunds :=
  weight_map _ _ _

/-- The refunds of a row are what the row has held. -/
theorem Kept.recovered (h : Kept s) (hchain : Chain past s) (hsafe : HandsOver s (.recovered i))
    (hstep : stepRecovered s i = some s') : Kept s' := by
  unfold stepRecovered at hstep
  split at hstep
  · rename_i roundDbId refunds hp
    have hset := weight_finish hp
    split at hstep
    · rename_i hany
      obtain ⟨r, hr, hrow⟩ := List.any_eq_true.mp hany
      obtain ⟨hid, hopen⟩ : r.id = roundDbId ∧ r.ended = false := by
        simpa using hrow
      obtain ⟨hout, hfree, hrefunds⟩ := hsafe roundDbId refunds hp r hr hid hopen
      have honly : ∀ x ∈ s.rows, x.id = roundDbId → x = r := fun x hx hxid =>
        List.inj_on_of_nodup_map h.ids hx hr (hxid.trans hid.symm)
      generalize hs' : (State.setProc { s with rows := endRow roundDbId id s.rows } i .done).record
        (refunds.map fun (r : UserId × Nat) => .recovered r.1 r.2) = s' at hstep
      cases hstep
      have hprocs : s'.procs = s.procs.set i .done := by rw [← hs']; rfl
      have htable : s'.table = s.table := by rw [← hs']; rfl
      have hin : s'.inPlay ↔ s.inPlay := by
        refine inPlay_congr (by rw [htable]) ?_
        rw [State.openings, State.rolling, hprocs, htable, hset Proc.opens rfl rfl,
          hset Proc.rolls rfl rfl, hset Proc.doubles rfl rfl]
        rfl
      have hhand : ∀ x, s'.inHand x ↔ s.inHand x := by
        intro x
        have hinstalled : s'.installed = s.installed := by rw [← hs']; rfl
        unfold State.inHand State.atPlay
        rw [hin, hinstalled, htable, hprocs, hset (Proc.settlesOn x.window) rfl rfl,
          hset (Proc.writesTo x.id) rfl rfl]
      obtain ⟨hkeeps, hstays, hends⟩ : EndsRow roundDbId (RoundRow.recover roundDbId) :=
        EndsRow.of_write (g := id) fun _ => ⟨rfl, rfl⟩
      have hdown : HandsDown (RoundRow.recover roundDbId) s s' := {
        rows := by
          rw [← hs']
          rfl
        keeps := hkeeps
        window := by
          rw [← hs']
          rfl
        plain := by
          rw [hprocs]
          exact mem_set_of ⟨rfl, rfl⟩
        table := fun hinstalled hin' => ⟨by
          rw [← hs'] at hinstalled
          exact hinstalled, hin.mp hin', by rw [htable]⟩
        writes := fun round => by
          rw [hprocs, hset (Proc.writesTo round) rfl rfl]
        settling := fun window => by
          rw [hprocs, hset (Proc.settlesOn window) rfl rfl]
          exact h.settling window
        opens := fun x hx hxopen hin' => by
          by_cases hxid : x.id = roundDbId
          · have hwas : s.inHand x := (hhand x).mp (by
              rcases hin' with hplay | hpos
              · exact .inl hplay
              · exact .inr (.inl hpos))
            rw [honly x hx hxid] at hwas
            exact absurd hwas hout
          · rw [hstays x hxid]
            exact hxopen
        fresh := fun p hp' x _ _ _ hfresh =>
          hstays x fun hxid => hfree p hp' x.window (hxid ▸ hfresh) }
      refine h.handsDown hdown (htable ▸ h.idle) (fun hpos => ?_) fun u => ?_
      · rw [hprocs, hset Proc.doubles rfl rfl] at hpos
        rw [htable]
        exact h.doubling hpos
      · have hrows : s'.inRows u + s.share u r = s.inRows u := by
          have hcongr : weight (fun x => s'.share u (x.recover roundDbId)) s.rows + s.share u r =
              weight (s.share u) s.rows + s'.share u (r.recover roundDbId) := by
            refine weight_congr_key RoundRow.id h.ids hr fun x hx hne => ?_
            rw [hstays x (hid ▸ hne)]
            unfold State.share
            simp only [hhand]
          have hzero : s'.share u (r.recover roundDbId) = 0 := if_neg fun hshare => by
            rw [hends r hid] at hshare
            cases hshare.1
          unfold State.inRows
          rw [hdown.rows, weight_map]
          rw [hzero] at hcongr
          exact hcongr
        have hshare : s.share u r = refundsOf u refunds := by
          rw [hrefunds u]
          exact if_pos ⟨hopen, hout⟩
        have hatTable : s'.atTable u = s.atTable u := by
          unfold State.atTable
          rw [htable]
          simp only [hin]
        have hholds : weight (Proc.holds u) s'.procs = weight (Proc.holds u) s.procs := by
          rw [hprocs]
          exact hset (Proc.holds u) rfl rfl
        have hledger : s'.ledger = s.ledger ++ refunds.map fun r => .recovered r.1 r.2 := by
          rw [← hs']
          rfl
        have hdebited : weight (Movement.debited u)
            (refunds.map fun r => Movement.recovered r.1 r.2) = 0 :=
          (weight_map _ _ _).trans (weight_eq_zero fun _ _ => rfl)
        have hsettled : weight (Movement.settledOn u)
            (refunds.map fun r => Movement.recovered r.1 r.2) = 0 :=
          (weight_map _ _ _).trans (weight_eq_zero fun _ _ => rfl)
        unfold State.held
        rw [hledger, weight_append, weight_append, weight_append, hdebited, hsettled, refunded_eq,
          hatTable, hholds]
        omega
    · cases hstep
      refine h.goesOnQuietly hchain hp ⟨rfl, rfl, rfl, rfl, .inl rfl, ⟨rfl, rfl⟩⟩ fun _ => rfl
  · cases hstep

/-- The process stops: every open row is left to the recovery. -/
theorem Kept.kill (h : Kept s) (hsafe : HandsOver s .kill) (hstep : stepKill s = some s') :
    Kept s' := by
  cases hstep
  have hzero : ∀ g : Proc → Nat, g .done = 0 → weight g (s.procs.map fun _ => .done) = 0 := by
    intro g hg
    refine weight_eq_zero fun p hp => ?_
    obtain ⟨q, -, rfl⟩ := List.mem_map.mp hp
    exact hg
  generalize hs' : ({ s with
      table := createTable s.table.isPrivate s.table.ownerId
      installed := false
      procs := s.procs.map fun _ => .done } : State) = s'
  have hprocs : s'.procs = s.procs.map fun _ => .done := by rw [← hs']
  have htable : s'.table = createTable s.table.isPrivate s.table.ownerId := by rw [← hs']
  have hrowsEq : s'.rows = s.rows := by rw [← hs']
  have hinstalled : s'.installed = false := by rw [← hs']
  have hfree : ∀ r, ¬ s'.inHand r := by
    intro r hin
    rcases hin with hplay | hpos | hpos
    · have htrue := hplay.1
      rw [hinstalled] at htrue
      cases htrue
    · rw [hprocs, hzero _ rfl] at hpos
      cases hpos
    · rw [hprocs, hzero _ rfl] at hpos
      cases hpos
  have hstakes : s'.table.stakes = [] := by
    rw [htable]
    rfl
  have hdown : HandsDown id s s' := {
    rows := hrowsEq.trans (List.map_id _).symm
    keeps := fun _ => ⟨rfl, rfl⟩
    window := by rw [← hs']
    plain := fun p hp => by
      rw [hprocs] at hp
      obtain ⟨q, -, rfl⟩ := List.mem_map.mp hp
      exact .inr ⟨rfl, rfl⟩
    table := fun htrue => by
      rw [hinstalled] at htrue
      cases htrue
    writes := fun round => by
      rw [hprocs, hzero _ rfl]
      exact Nat.zero_le _
    settling := fun window => by
      rw [hprocs, hzero _ rfl]
      exact ⟨Nat.zero_le _, nofun⟩
    opens := fun _ _ hopen _ => hopen
    fresh := fun _ _ _ _ _ _ _ => rfl }
  refine h.handsDown hdown (fun _ => ?_) (fun hpos => ?_) (.of_held (by rw [← hs']) fun u => ?_)
  · intro k hk
    rw [hstakes] at hk
    cases hk
  · rw [hprocs, hzero _ rfl] at hpos
    cases hpos
  · have hrows : s'.inRows u = s.inRows u + s.shown u := by
      unfold State.inRows State.shown
      rw [hrowsEq, ← weight_add]
      refine weight_congr fun r _ => ?_
      unfold State.share
      cases hended : r.ended with
      | true => simp
      | false =>
        by_cases hin : s.inHand r
        · simp [hin, hfree]
        · simp [hin, hfree]
    have hatTable : s'.atTable u = 0 := by
      unfold State.atTable Table.stakesOf
      rw [hstakes, weight_nil]
      exact ite_self 0
    have hshown := hsafe u
    unfold State.held
    rw [hrows, hatTable, hprocs, hzero _ rfl]
    omega

end Recovery

/-! ## Conservation -/

section Conservation

variable {past : Nat → Prop} {cfg : Config} {s s' : State} {e : Event}

theorem Kept.init (isPrivate : Bool) (ownerId : Option UserId) : Kept (.init isPrivate ownerId) where
  ids := List.nodup_nil
  windows := List.nodup_nil
  bound r hr := absurd hr List.not_mem_nil
  creating p hp := absurd hp List.not_mem_nil
  played := nofun
  fresh p hp := absurd hp List.not_mem_nil
  filed _ := nofun
  settling _ := ⟨Nat.zero_le _, nofun⟩
  idle _ k hk := absurd hk List.not_mem_nil
  doubling := nofun
  conserved u := by
    have hrows : (State.init isPrivate ownerId).inRows u = 0 := rfl
    have htable : (State.init isPrivate ownerId).atTable u = 0 := ite_self 0
    unfold State.held
    rw [hrows, htable]
    rfl

/-- A step keeps the books. -/
theorem Kept.step (h : Kept s) (hchain : Chain past s) (hsafe : MoneySafe cfg s e)
    (hstep : step cfg s e = some s') : Kept s' := by
  obtain ⟨hfiles, hhands⟩ := hsafe
  cases e with
  | takeSeat seatIndex userId =>
    cases hstep
    exact h.takeSeat hchain seatIndex userId
  | leave => exact h.leave hchain hfiles hstep
  | place =>
    simp only [Blackjack.step, stepPlace] at hstep
    split at hstep
    · cases hstep
      exact h.called hchain (Called.placing _ _).quiet ⟨rfl, rfl⟩ rfl fun u => by
        simp [Proc.holds, PlaceStage.holds]
    · cases hstep
  | clear => exact h.clear hchain hfiles hstep
  | act => exact h.act hchain hstep
  | double =>
    simp only [Blackjack.step, stepDouble] at hstep
    split at hstep
    · cases hstep
    · cases hstep
      exact h.called hchain ⟨le_rfl, le_rfl, le_rfl, .inl rfl, .inl rfl⟩ ⟨rfl, rfl⟩ rfl fun u => by
        simp [Proc.holds, DoubleStage.holds]
  | debit => exact h.debit hchain hstep
  | reject => exact h.reject hchain hstep
  | call =>
    simp only [Blackjack.step, stepCall] at hstep
    split at hstep
    · rename_i userId bet hp
      cases hstep
      exact h.callPlace hchain hp (hfiles userId bet hp)
    · rename_i userId extra hp
      cases hstep
      exact h.callDouble hchain hp (hhands userId extra hp)
    · cases hstep
  | credit => exact h.credit hchain hstep
  | created => exact h.created hchain hstep
  | bankroll i bankroll => exact h.bankroll hchain hstep
  | entropy => exact h.entropy hchain hstep
  | tableUpdated => exact h.tableUpdated hchain hstep
  | saved => exact h.saved hchain hhands hstep
  | timer => exact h.timer hchain hhands hstep
  | dealt => exact h.dealt hchain hstep
  | dealerCard =>
    simp only [Blackjack.step, stepDealerCard] at hstep
    split at hstep
    · split at hstep
      · cases hstep
        exact h.hands hchain (dealTo_same .dealer)
      · cases hstep
    · cases hstep
  | dealerDone => exact h.dealerDone hchain hstep
  | settled => exact h.settled hchain hhands hstep
  | aborted => exact h.aborted hchain hhands hstep
  | recover =>
    simp only [Blackjack.step, stepRecover] at hstep
    split at hstep
    · cases hstep
      exact h.called hchain ⟨le_rfl, le_rfl, le_rfl, .inl rfl, .inl rfl⟩ ⟨rfl, rfl⟩ rfl fun _ => rfl
    · cases hstep
  | recovered => exact h.recovered hchain hhands hstep
  | fail => cases hhands
  | kill => exact h.kill hhands hstep

/-- What a run keeps, with the chain of the table. -/
theorem Kept.run {es : List Event} {t : State} (h : Kept s) (hchain : Chain past s)
    (hsafe : Along (Blackjack.step cfg) (MoneySafe cfg) s es)
    (hrun : run (Blackjack.step cfg) s es = some t) : Chain past t ∧ Kept t :=
  run_induct (P := fun s => Chain past s ∧ Kept s)
    (fun _ _ _ hsafe h hstep => ⟨h.1.step hstep, h.2.step h.1 hsafe hstep⟩) ⟨hchain, h⟩ hsafe hrun

end Conservation

/-! ## Every run -/

/-- In every run whose steps are safe, what was debited from a user is
refunded, settled on or still held; from one state that holds nothing for the
user to another, the debits less the refunds are what was settled on. -/
theorem money_conserved (cfg : Config) (isPrivate : Bool) (ownerId : Option UserId)
    (es fs : List Event) (s t : State)
    (hsafe : Along (step cfg) (MoneySafe cfg) (.init isPrivate ownerId) (es ++ fs))
    (hs : run (step cfg) (.init isPrivate ownerId) es = some s)
    (ht : run (step cfg) s fs = some t) (u : UserId) :
    weight (Movement.debited u) t.ledger = weight (Movement.refunded u) t.ledger +
      weight (Movement.settledOn u) t.ledger + t.held u ∧
    (s.held u = 0 → t.held u = 0 →
      (weight (Movement.debited u) t.ledger - weight (Movement.debited u) s.ledger : Int) -
          (weight (Movement.refunded u) t.ledger - weight (Movement.refunded u) s.ledger) =
        weight (Movement.settledOn u) t.ledger - weight (Movement.settledOn u) s.ledger) := by
  obtain ⟨hbefore, hafter⟩ := along_append.mp hsafe
  obtain ⟨hchain, hkept⟩ :=
    (Kept.init isPrivate ownerId).run (Chain.init isPrivate ownerId) hbefore hs
  obtain ⟨-, hkept'⟩ := hkept.run hchain (hafter s hs) ht
  have hbooks := hkept.conserved u
  have hbooks' := hkept'.conserved u
  refine ⟨hbooks', fun hnone hnone' => ?_⟩
  omega

private def nines : Config where
  chainEnabled := false
  onchainLive := false
  stream := fun _ _ _ _ => ⟨.nine, .H⟩

private def stateAfter (es : List Event) : State :=
  (run (step nines) (.init false none) es).getD (.init false none)

/-- A bet in a window that is open. -/
private def staked : List Event :=
  [.place 1 ⟨1000000, 0, 0⟩, .debit 0, .call 0, .created 0 9 ⟨"server", "client"⟩, .tableUpdated 0,
    .saved 0]

/-- The same seat plays its hand, and the dealer is done. -/
private def finished : List Event :=
  staked ++ [.timer, .saved 1, .dealt 1, .tableUpdated 1, .act 1 .stand, .tableUpdated 2,
    .dealerDone 2]

/-- A round that is settled: the debits are what is paid on. -/
theorem money_conserved_sample : ∃ s t, run (step nines) (.init false none) [.takeSeat 0 1] = some s ∧
    run (step nines) s (finished ++ [.settled 2]) = some t ∧
    weight (Movement.debited 1) t.ledger = 1000000 ∧
    weight (Movement.debited 1) t.ledger = weight (Movement.refunded 1) t.ledger +
      weight (Movement.settledOn 1) t.ledger + t.held 1 ∧
    (s.held 1 = 0 → t.held 1 = 0 →
      (weight (Movement.debited 1) t.ledger - weight (Movement.debited 1) s.ledger : Int) -
          (weight (Movement.refunded 1) t.ledger - weight (Movement.refunded 1) s.ledger) =
        weight (Movement.settledOn 1) t.ledger - weight (Movement.settledOn 1) s.ledger) := by
  have hs : run (step nines) (.init false none) [.takeSeat 0 1] =
      some (stateAfter [.takeSeat 0 1]) := by
    decide +kernel
  have hstaked : run (step nines) (stateAfter [.takeSeat 0 1]) staked =
      some (stateAfter (.takeSeat 0 1 :: staked)) := by
    decide +kernel
  have hfinished : run (step nines) (stateAfter [.takeSeat 0 1]) finished =
      some (stateAfter (.takeSeat 0 1 :: finished)) := by
    decide +kernel
  have ht : run (step nines) (stateAfter [.takeSeat 0 1]) (finished ++ [.settled 2]) =
      some (stateAfter (.takeSeat 0 1 :: (finished ++ [.settled 2]))) := by
    decide +kernel
  have hquiet : ∀ {s e}, FilesSafely nines s e = True → HandsOver s e = True →
      MoneySafe nines s e := fun hf hh => ⟨hf ▸ trivial, hh ▸ trivial⟩
  have hsaved : ∀ {s : State} {i}, (∀ r ∈ s.rows, s.atPlay r.id) →
      MoneySafe nines s (.saved i) := fun hplay =>
    ⟨trivial, fun _ _ _ _ r hr _ _ hnot => absurd (hplay r hr) hnot⟩
  have hcalled : ∀ {s : State}, s.table.phase ≠ .betting →
      s.procs[0]? = some (.placing 1 ⟨1000000, 0, 0⟩ .debited) → MoneySafe nines s (.call 0) := by
    intro s hphase hslot
    refine ⟨fun _ _ _ hbetting => absurd hbetting hphase, fun userId extra hp => ?_⟩
    exact absurd (hslot.symm.trans hp) nofun
  have hsafe : Along (step nines) (MoneySafe nines) (.init false none)
      ([.takeSeat 0 1] ++ (finished ++ [.settled 2])) := by
    refine along_append.mpr ⟨.next (hquiet rfl rfl) trivial, ?_⟩
    intro s hrun
    rw [hs] at hrun
    cases hrun
    refine along_append.mpr ⟨along_append.mpr ⟨?_, ?_⟩, ?_⟩
    · iterate 2 refine .next (hquiet rfl rfl) ?_
      refine .next (hcalled (by decide +kernel) (by decide +kernel)) ?_
      iterate 2 refine .next (hquiet rfl rfl) ?_
      exact .next (hsaved (by decide +kernel)) trivial
    · intro s hrun
      rw [hstaked] at hrun
      cases hrun
      refine .next ⟨trivial, fun _ hnone => absurd hnone (by decide +kernel)⟩ ?_
      refine .next (hsaved (by decide +kernel)) ?_
      iterate 5 refine .next (hquiet rfl rfl) ?_
      trivial
    · intro s hrun
      rw [hfinished] at hrun
      cases hrun
      refine .next ⟨trivial, ?_⟩ trivial
      intro window data stateJson hp
      have hslot : ((stateAfter (.takeSeat 0 1 :: finished)).procs[2]?).bind Proc.settles = some 1 := by
        decide +kernel
      rw [hp] at hslot
      cases hslot
      decide +kernel
  exact ⟨_, _, hs, ht, by decide +kernel, money_conserved nines false none _ _ _ _ hsafe hs ht 1⟩

/-- The recovery runs while a window is open: the stake it refunds is on the
table, and is cleared. -/
theorem stake_refunded_twice :
    ¬ ∀ cfg isPrivate ownerId es t, run (step cfg) (.init isPrivate ownerId) es = some t →
      (∀ i, .fail i ∉ es) → ∀ u, weight (Movement.debited u) t.ledger =
        weight (Movement.refunded u) t.ledger + weight (Movement.settledOn u) t.ledger + t.held u := by
  intro h
  have hbooks := h nines false none
    (.takeSeat 0 1 :: (staked ++ [.recover 9, .recovered 1, .clear 1, .saved 2, .credit 2]))
    (stateAfter (.takeSeat 0 1 :: (staked ++ [.recover 9, .recovered 1, .clear 1, .saved 2, .credit 2])))
    (by decide +kernel) (by simp [staked]) 1
  exact absurd hbooks (by decide +kernel)

end Scadium.Games.Blackjack
