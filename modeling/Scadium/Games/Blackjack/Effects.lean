/-
Scadium.Games.Blackjack.Effects — what each step of a table can do.

`step` goes through when the slot it names waits for it and the table lets
it; `Effect` lists the ways, each with the guards it has passed and the state
it leaves. Whatever holds of every step is proved by cases on it.

Several calls wait in the same way, so what is in a slot before and after a
step is said once: `Called` for what a new call puts into it, `Debits`,
`Credits` and `Saves` for the statements calls share, `Failed` for what a call
that throws leaves. The ways of `Effect` go with the events of the table: seats and bets,
the calls of the engine and their refusals, the opening of a window with its
awaits, the timer, the dealer, the settle, the recovery, the end of the process.
`stepCall_effect` and `stepTimer_effect` are the two events with the most ways;
`step_effect` has a case for each of the others.
-/
import Scadium.Games.Blackjack.System
import Scadium.Games.Blackjack.TableTheorems

namespace Scadium.Games.Blackjack

open Scadium.Common (ExposureGuard)
open Scadium.Lib Scadium.Prisma

/-! ## Slots -/

/-- A call as it begins. -/
inductive Called : Proc → Prop where
  | placing (userId : UserId) (bet : SeatBet) : Called (.placing userId bet .captured)
  | doubling (userId : UserId) (extra : Nat) : Called (.doubling userId extra .captured)
  | recovering (roundDbId : RoundId) (refunds : List (UserId × Nat)) :
      Called (.recovering roundDbId refunds)

/-- A call waits for its debit, goes on after it, and the ledger shows it. -/
inductive Debits : Proc → Proc → Movement → Prop where
  | bet (userId : UserId) (bet : SeatBet) : Debits (.placing userId bet .captured)
      (.placing userId bet .debited) (.bet userId bet.betTotal)
  | extra (userId : UserId) (extra : Nat) : Debits (.doubling userId extra .captured)
      (.doubling userId extra .debited) (.bet userId extra)

/-- A call waits for the credit that ends it. -/
inductive Credits : Proc → Movement → Prop where
  | owing (userId : UserId) (bet : SeatBet) (previousTotal : Nat) :
      Credits (.placing userId bet (.owing previousTotal)) (.refund userId previousTotal)
  | failed (userId : UserId) (bet : SeatBet) :
      Credits (.placing userId bet .failed) (.refund userId bet.betTotal)
  | returning (userId : UserId) (refund : Nat) :
      Credits (.returning userId refund none) (.refund userId refund)
  | doubling (userId : UserId) (extra : Nat) :
      Credits (.doubling userId extra .failed) (.refund userId extra)

/-- A call waits for a write of its own and goes on as another. -/
inductive Saves : Proc → Write → Proc → Prop where
  | placing (userId : UserId) (bet : SeatBet) (w : Write) (previousTotal : Nat) :
      Saves (.placing userId bet (.saving w previousTotal false)) w
        (PlaceStage.after userId bet previousTotal)
  | returning (userId : UserId) (refund : Nat) (w : Write) :
      Saves (.returning userId refund (some w)) w (.returning userId refund none)
  | dealing (w : Write) : Saves (.dealing (.saving w)) w (.dealing .cards)

/-- What a call becomes when its statement fails. -/
inductive Failed : Proc → Prop where
  | placing (userId : UserId) (bet : SeatBet) : Failed (.placing userId bet .failed)
  | doubling (userId : UserId) (extra : Nat) : Failed (.doubling userId extra .failed)
  | done : Failed .done

/-! ## Steps -/

/-- The steps that put a round on the table. -/
def Event.installs : Event → Bool
  | .created _ _ _ | .bankroll _ _ => true
  | _ => false

/-- The row of an opening is there, and the guard of the last window is not. -/
def State.create (s : State) (roundDbId : RoundId) (window : Nat) : State :=
  { s with
    rows := s.rows ++ [⟨roundDbId, .empty, false, window, none⟩]
    table := { s.table with exposure := none } }

/-- The table whose timer has fired. -/
def Table.fired (t : Table) : Table := { t with timer := none }

/-- The window closes: whoever has not bet sits out. -/
def Table.closeBets (t : Table) (phase : Phase) : Table :=
  { t with
    timer := none
    seats := sitOut t.seats
    phase := phase }

inductive Effect (cfg : Config) (s : State) : Event → State → Prop where
  | took (seatIndex : Nat) (userId : UserId) :
      Effect cfg s (.takeSeat seatIndex userId) (s.setTable (takeSeat s.table seatIndex userId).1)
  /-- The table refuses the call. -/
  | refused {e : Event} (he : e.installs = false) : Effect cfg s e s
  | left {userId : UserId} {seat : Seat} (hseat : s.table.seatOf userId = some seat)
      (hnone : s.table.phase = .betting → seat.bet = none)
      (hover : seat.bet ≠ none → s.table.phase = .idle ∨ s.table.phase = .settled) :
      Effect cfg s (.leave userId) (s.setTable (s.table.deleteSeat seat.index))
  | leftBet {userId : UserId} {seat : Seat} {bet : SeatBet} (hphase : s.table.phase = .betting)
      (hseat : s.table.seatOf userId = some seat) (hbet : seat.bet = some bet) :
      Effect cfg s (.leave userId)
        ((s.setTable (s.table.deleteSeat seat.index)).returnBet userId bet.betTotal)
  | cleared {userId : UserId} {seat : Seat} {bet : SeatBet} (hphase : s.table.phase = .betting)
      (hseat : s.table.seatOf userId = some seat) (hbet : seat.bet = some bet) :
      Effect cfg s (.clear userId) ((s.setTable { s.table.setSeat seat.index Seat.clearBet with
        exposure := s.table.exposure.map (·.release (potentialOf bet.betTotal)) }).returnBet userId
          bet.betTotal)
  | acted {userId : UserId} {a : Action} {seat : Seat} (hdouble : a ≠ .double)
      (haccepts : s.table.acceptsAction userId a seat) :
      Effect cfg s (.act userId a)
        (s.turned (afterAction (s.table.acted cfg.stream a seat) seat.index))
  | called {e : Event} {q : Proc} (he : e.installs = false) (hnew : Called q) :
      Effect cfg s e (s.spawn q)
  | debited {i : Nat} {p q : Proc} {m : Movement} (hp : s.procs[i]? = some p)
      (h : Debits p q m) : Effect cfg s (.debit i) ((s.setProc i q).record [m])
  | rejected {i : Nat} {p q : Proc} {m : Movement} (hp : s.procs[i]? = some p)
      (h : Debits p q m) : Effect cfg s (.reject i) (s.setProc i .done)
  | credited {i : Nat} {p : Proc} {m : Movement} (hp : s.procs[i]? = some p)
      (h : Credits p m) : Effect cfg s (.credit i) ((s.setProc i .done).record [m])
  | placeRefused {i : Nat} {userId : UserId} {bet : SeatBet} {t : Table}
      (hp : s.procs[i]? = some (.placing userId bet .debited))
      (hrefused : s.table.Refused cfg.chainEnabled userId bet t) :
      Effect cfg s (.call i) ((s.setTable t).setProc i (.placing userId bet .failed))
  /-- The bet opens a window. -/
  | opened {i : Nat} {userId : UserId} {bet : SeatBet} {found : Seat}
      (hp : s.procs[i]? = some (.placing userId bet .debited))
      (haccepts : s.table.acceptsBet cfg.chainEnabled userId bet found)
      (hrests : s.table.phase = .idle ∨ s.table.phase = .settled) :
      Effect cfg s (.call i) { s with
        table := (s.table.placed cfg.chainEnabled bet found).openPrologue
        window := s.window + 1
        installed := false
        procs := s.procs.set i (.placing userId bet
          (.opening (s.window + 1) (s.table.placingSeat found).staked .creating)) }
  | placedSaving {i : Nat} {userId : UserId} {bet : SeatBet} {found : Seat} {w : Write}
      (hp : s.procs[i]? = some (.placing userId bet .debited))
      (haccepts : s.table.acceptsBet cfg.chainEnabled userId bet found)
      (hphase : s.table.phase = .betting)
      (hw : (s.setTable (s.table.placed cfg.chainEnabled bet found)).captureStakes = some w) :
      Effect cfg s (.call i) ((s.setTable (s.table.placed cfg.chainEnabled bet found)).setProc i
        (.placing userId bet (.saving w (s.table.placingSeat found).staked false)))
  | placed {i : Nat} {userId : UserId} {bet : SeatBet} {found : Seat}
      (hp : s.procs[i]? = some (.placing userId bet .debited))
      (haccepts : s.table.acceptsBet cfg.chainEnabled userId bet found)
      (hphase : s.table.phase = .betting) :
      Effect cfg s (.call i) ((s.setTable (s.table.placed cfg.chainEnabled bet found)).setProc i
        (PlaceStage.after userId bet (s.table.placingSeat found).staked))
  | doubleRefused {i : Nat} {userId : UserId} {extra : Nat}
      (hp : s.procs[i]? = some (.doubling userId extra .debited)) :
      Effect cfg s (.call i) (s.setProc i (.doubling userId extra .failed))
  | doubledSaving {i : Nat} {userId : UserId} {extra : Nat} {seat : Seat} {w : Write}
      (hp : s.procs[i]? = some (.doubling userId extra .debited))
      (haccepts : s.table.acceptsAction userId .double seat)
      (hw : (s.setTable (s.table.acted cfg.stream .double seat)).captureSnapshot = some w) :
      Effect cfg s (.call i) ((s.setTable (s.table.acted cfg.stream .double seat)).setProc i
        (.doubling userId extra (.saving w seat.index)))
  | doubled {i : Nat} {userId : UserId} {extra : Nat} {seat : Seat}
      (hp : s.procs[i]? = some (.doubling userId extra .debited))
      (haccepts : s.table.acceptsAction userId .double seat) :
      Effect cfg s (.call i) ((s.setProc i .done).turned
        (afterAction (s.table.acted cfg.stream .double seat) seat.index))
  | created {i window previousTotal : Nat} {roundDbId : RoundId} {seed : RoundSeed}
      {userId : UserId} {bet : SeatBet}
      (hp : s.procs[i]? = some (.placing userId bet (.opening window previousTotal .creating)))
      (hnew : roundDbId ∉ s.rows.map RoundRow.id) :
      Effect cfg s (.created i roundDbId seed) ((s.create roundDbId window).setProc i
        (.placing userId bet (.opening window previousTotal (.bankroll roundDbId seed))))
  | createdOffChain {i window previousTotal : Nat} {roundDbId : RoundId} {seed : RoundSeed}
      {userId : UserId} {bet : SeatBet}
      (hp : s.procs[i]? = some (.placing userId bet (.opening window previousTotal .creating)))
      (hnew : roundDbId ∉ s.rows.map RoundRow.id) :
      Effect cfg s (.created i roundDbId seed) ((s.create roundDbId window).install cfg i userId bet
        window previousTotal roundDbId seed none)
  | bankrolled {i window previousTotal : Nat} {bankroll : Option Nat} {roundDbId : RoundId}
      {seed : RoundSeed} {userId : UserId} {bet : SeatBet}
      (hp : s.procs[i]? = some
        (.placing userId bet (.opening window previousTotal (.bankroll roundDbId seed)))) :
      Effect cfg s (.bankroll i bankroll) (s.install cfg i userId bet window previousTotal roundDbId
        seed (if cfg.chainEnabled then bankroll.map ExposureGuard.forBankroll else none))
  | folded {i window previousTotal : Nat} {folded : Option String} {userId : UserId} {bet : SeatBet}
      (hp : s.procs[i]? = some (.placing userId bet (.opening window previousTotal .entropy))) :
      Effect cfg s (.entropy i folded) ((s.setTable (s.table.foldEntropy folded)).setProc i
        (.placing userId bet (.opening window previousTotal .tableUpdate)))
  | openSaving {i window previousTotal : Nat} {userId : UserId} {bet : SeatBet} {w : Write}
      (hp : s.procs[i]? = some (.placing userId bet (.opening window previousTotal .tableUpdate)))
      (hw : s.captureStakes = some w) : Effect cfg s (.tableUpdated i)
        (s.setProc i (.placing userId bet (.saving w previousTotal true)))
  | openTimer {i window previousTotal : Nat} {userId : UserId} {bet : SeatBet}
      (hp : s.procs[i]? = some (.placing userId bet (.opening window previousTotal .tableUpdate))) :
      Effect cfg s (.tableUpdated i) ((s.setTable (s.table.setTimer .deal)).setProc i
        (PlaceStage.after userId bet previousTotal))
  | turns {i : Nat} (hp : s.procs[i]? = some (.dealing .tableUpdate)) :
      Effect cfg s (.tableUpdated i) ((s.setProc i .done).turned (startPlayerTurns s.table))
  | revealed {i : Nat} (hp : s.procs[i]? = some (.dealer false)) :
      Effect cfg s (.tableUpdated i) ((s.setTable s.table.revealHole).setProc i (.dealer true))
  | saved {i : Nat} {p q : Proc} {w : Write} (hp : s.procs[i]? = some p) (h : Saves p w q) :
      Effect cfg s (.saved i) ((s.commit w).setProc i q)
  | savedOpening {i previousTotal : Nat} {userId : UserId} {bet : SeatBet} {w : Write}
      (hp : s.procs[i]? = some (.placing userId bet (.saving w previousTotal true))) :
      Effect cfg s (.saved i) (((s.commit w).setProc i
        (PlaceStage.after userId bet previousTotal)).setTable (s.table.setTimer .deal))
  | savedDouble {i extra seatIndex : Nat} {userId : UserId} {w : Write}
      (hp : s.procs[i]? = some (.doubling userId extra (.saving w seatIndex))) :
      Effect cfg s (.saved i)
        (((s.commit w).setProc i .done).turned (afterAction s.table seatIndex))
  | dealNone (htimer : s.table.timer = some .deal) (hnone : s.table.bettingSeats = []) :
      Effect cfg s .timer (s.setTable (s.table.closeBets .idle))
  | deal {w : Write} (htimer : s.table.timer = some .deal)
      (hw : (s.setTable (s.table.closeBets .dealing)).captureSnapshot = some w) :
      Effect cfg s .timer ((s.setTable (s.table.closeBets .dealing)).spawn (.dealing (.saving w)))
  /-- There is no row to write to. -/
  | dealUnsaved (htimer : s.table.timer = some .deal)
      (hw : (s.setTable (s.table.closeBets .dealing)).captureSnapshot = none) :
      Effect cfg s .timer (s.setTable (s.table.closeBets .dealing))
  | timedOut {seatIndex : Nat} (htimer : s.table.timer = some (.turn seatIndex)) :
      Effect cfg s .timer (s.turned (turnTimeout s.table.fired seatIndex))
  | paused (htimer : s.table.timer = some .settlePause) :
      Effect cfg s .timer (s.setTable (settlePause s.table.fired))
  | dealt {i : Nat} (hp : s.procs[i]? = some (.dealing .cards)) : Effect cfg s (.dealt i)
      ((s.setTable (dealCards cfg.stream s.table)).setProc i (.dealing .tableUpdate))
  | dealerCard {i : Nat} (hp : s.procs[i]? = some (.dealer true)) :
      Effect cfg s (.dealerCard i) (s.setTable (s.table.dealTo cfg.stream .dealer))
  | dealerDone {i : Nat} (hp : s.procs[i]? = some (.dealer true)) :
      Effect cfg s (.dealerDone i) ((s.setTable (settle s.table).1).setProc i
        (.settling s.window (settle s.table).2 (.snapshot (settle s.table).1.snapshot)))
  | settled {i window : Nat} {data : List SeatData} {stateJson : StateJson} {roundDbId : RoundId}
      (hp : s.procs[i]? = some (.settling window data stateJson))
      (hround : s.table.roundDbId = some roundDbId) (hopen : isOpenRow roundDbId s.rows = true) :
      Effect cfg s (.settled i) ((({ s with
        rows := endRow roundDbId (fun r => { r with
          stateJson := stateJson
          source := some window }) s.rows
        table := s.table.setTimer .settlePause }).setProc i .done).record (data.map .settled))
  | settledLate {i window : Nat} {data : List SeatData} {stateJson : StateJson}
      {roundDbId : RoundId} (hp : s.procs[i]? = some (.settling window data stateJson))
      (hround : s.table.roundDbId = some roundDbId) (hover : isOpenRow roundDbId s.rows = false) :
      Effect cfg s (.settled i) (s.setProc i .done)
  | aborted {i window : Nat} {data : List SeatData} {stateJson : StateJson}
      (hp : s.procs[i]? = some (.settling window data stateJson)) : Effect cfg s (.aborted i)
        ((s.setTable { s.table with phase := .dealer_turn }).setProc i .done)
  | recovered {i : Nat} {roundDbId : RoundId} {refunds : List (UserId × Nat)}
      (hp : s.procs[i]? = some (.recovering roundDbId refunds))
      (hopen : isOpenRow roundDbId s.rows = true) :
      Effect cfg s (.recovered i) (({ s with rows := endRow roundDbId id s.rows }.setProc i
        .done).record (refunds.map fun (r : UserId × Nat) => .recovered r.1 r.2))
  | recoveredLate {i : Nat} {roundDbId : RoundId} {refunds : List (UserId × Nat)}
      (hp : s.procs[i]? = some (.recovering roundDbId refunds)) :
      Effect cfg s (.recovered i) (s.setProc i .done)
  | failed {i : Nat} {p q : Proc} (hp : s.procs[i]? = some p) (h : Failed q) :
      Effect cfg s (.fail i) (s.setProc i q)
  | killed : Effect cfg s .kill { s with
      table := createTable s.table.isPrivate s.table.ownerId
      installed := false
      procs := s.procs.map fun _ => .done }

section Inversion

variable {cfg : Config} {s s' : State} {i : Nat}

theorem stepCall_effect (h : stepCall cfg s i = some s') : Effect cfg s (.call i) s' := by
  unfold stepCall at h
  split at h
  · rename_i userId bet hp
    cases h
    unfold callPlace
    rcases placeBet_cases cfg.chainEnabled s.table userId bet with
      ⟨e, t', hplace, hrefused, -⟩ | ⟨found, haccepts, hplace⟩
    · rw [hplace]
      exact .placeRefused hp hrefused
    · rw [hplace]
      dsimp only
      by_cases hphase : s.table.phase = .betting
      · rw [if_neg (by simp [hphase])]
        split
        · exact .placedSaving hp haccepts hphase ‹_›
        · exact .placed hp haccepts hphase
      · rw [if_pos (by simp [hphase])]
        refine .opened hp haccepts ?_
        have htakes := haccepts.1
        cases hcase : s.table.phase with
        | idle => exact .inl rfl
        | settled => exact .inr rfl
        | betting => exact absurd hcase hphase
        | dealing | player_turns | dealer_turn => simp [hcase, Phase.takesBets] at htakes
  · rename_i userId extra hp
    cases h
    unfold callDouble
    rcases action_cases cfg.stream s.table userId .double with
      ⟨e, haction, -⟩ | ⟨seat, haccepts, haction⟩
    · rw [haction]
      exact .doubleRefused hp
    · rw [haction]
      dsimp only
      split
      · exact .doubledSaving hp haccepts ‹_›
      · exact .doubled hp haccepts
  · cases h

theorem stepTimer_effect (h : stepTimer s = some s') : Effect cfg s .timer s' := by
  unfold stepTimer at h
  split at h
  · rename_i htimer
    rcases deal_cases { s.table with timer := none } with ⟨hnone, hdealt⟩ | ⟨-, hdealt⟩
    · rw [hdealt] at h
      cases h
      exact .dealNone htimer hnone
    · rw [hdealt] at h
      dsimp only at h
      split at h
      · rename_i hw
        cases h
        exact .deal htimer hw
      · rename_i hw
        cases h
        exact .dealUnsaved htimer hw
  · rename_i htimer
    cases h
    exact .timedOut htimer
  · rename_i htimer
    cases h
    exact .paused htimer
  · cases h

/-- Every step is one of those of `Effect`. -/
theorem step_effect {e : Event} (h : step cfg s e = some s') : Effect cfg s e s' := by
  cases e with
  | takeSeat seatIndex userId =>
    cases h
    exact .took seatIndex userId
  | leave userId =>
    simp only [step, stepLeave] at h
    rcases leaveSeat_cases s.table userId with
      ⟨e, hleave, -⟩ | ⟨seat, hseat, hnone, hover, hleave⟩ | ⟨seat, bet, hphase, hseat, hbet, hleave⟩
    · rw [hleave] at h
      cases h
      exact .refused rfl
    · rw [hleave] at h
      cases h
      exact .left hseat hnone hover
    · rw [hleave] at h
      cases h
      exact .leftBet hphase hseat hbet
  | clear userId =>
    simp only [step, stepClear] at h
    rcases clearBet_cases s.table userId with ⟨e, hclear, -⟩ | ⟨seat, bet, hphase, hseat, hbet, hclear⟩
    · rw [hclear] at h
      cases h
      exact .refused rfl
    · rw [hclear] at h
      cases h
      exact .cleared hphase hseat hbet
  | act userId a =>
    simp only [step, stepAct] at h
    split at h
    · cases h
    · rename_i hdouble
      rcases action_cases cfg.stream s.table userId a with
        ⟨e, haction, -⟩ | ⟨seat, haccepts, haction⟩
      · rw [haction] at h
        cases h
        exact .refused rfl
      · rw [haction] at h
        cases h
        exact .acted hdouble haccepts
  | place userId bet =>
    simp only [step, stepPlace] at h
    split at h
    · cases h
      exact .called rfl (.placing userId bet)
    · cases h
  | double userId =>
    simp only [step, stepDouble] at h
    split at h
    · cases h
    · cases h
      exact .called rfl (.doubling userId _)
  | debit =>
    simp only [step, stepDebit] at h
    split at h
    · cases h
      exact .debited ‹_› (.bet _ _)
    · cases h
      exact .debited ‹_› (.extra _ _)
    · cases h
  | reject =>
    simp only [step, stepReject] at h
    split at h
    · cases h
      exact .rejected ‹_› (.bet _ _)
    · cases h
      exact .rejected ‹_› (.extra _ _)
    · cases h
  | call => exact stepCall_effect h
  | credit =>
    simp only [step, stepCredit] at h
    split at h
    · cases h
      exact .credited ‹_› (.owing _ _ _)
    · cases h
      exact .credited ‹_› (.failed _ _)
    · cases h
      exact .credited ‹_› (.returning _ _)
    · cases h
      exact .credited ‹_› (.doubling _ _)
    · cases h
  | created i roundDbId =>
    simp only [step, stepCreated] at h
    split at h
    · rename_i hp
      split at h
      · cases h
      · rename_i hany
        have hnew : roundDbId ∉ s.rows.map RoundRow.id := by
          intro hmem
          obtain ⟨r, hr, hid⟩ := List.mem_map.mp hmem
          exact hany (List.any_eq_true.mpr ⟨r, hr, beq_iff_eq.mpr hid⟩)
        split at h
        · cases h
          exact .created hp hnew
        · cases h
          exact .createdOffChain hp hnew
    · cases h
  | bankroll =>
    simp only [step, stepBankroll] at h
    split at h
    · cases h
      exact .bankrolled ‹_›
    · cases h
  | entropy i folded =>
    simp only [step, stepEntropy] at h
    split at h
    · cases h
      exact .folded ‹_›
    · cases h
  | tableUpdated =>
    simp only [step, stepTableUpdated] at h
    split at h
    · rename_i hp
      split at h
      · rename_i hw
        cases h
        exact .openSaving hp hw
      · cases h
        exact .openTimer hp
    · cases h
      exact .turns ‹_›
    · cases h
      exact .revealed ‹_›
    · cases h
  | saved =>
    simp only [step, stepSaved] at h
    split at h
    · rename_i userId bet w previousTotal opens hp
      cases h
      cases opens with
      | false => exact .saved hp (.placing userId bet w previousTotal)
      | true => exact .savedOpening hp
    · cases h
      exact .saved ‹_› (.returning _ _ _)
    · cases h
      exact .savedDouble ‹_›
    · cases h
      exact .saved ‹_› (.dealing _)
    · cases h
  | timer => exact stepTimer_effect h
  | dealt =>
    simp only [step, stepDealt] at h
    split at h
    · cases h
      exact .dealt ‹_›
    · cases h
  | dealerCard =>
    simp only [step, stepDealerCard] at h
    split at h
    · split at h
      · cases h
        exact .dealerCard ‹_›
      · cases h
    · cases h
  | dealerDone =>
    simp only [step, stepDealerDone] at h
    split at h
    · split at h
      · cases h
      · cases h
        exact .dealerDone ‹_›
    · cases h
  | settled =>
    simp only [step, stepSettled] at h
    split at h
    · rename_i hp hround
      split at h
      · rename_i hopen
        cases h
        exact .settled hp hround hopen
      · rename_i hover
        cases h
        exact .settledLate hp hround (Bool.eq_false_iff.mpr hover)
    · cases h
  | aborted =>
    simp only [step, stepAborted] at h
    split at h
    · cases h
      exact .aborted ‹_›
    · cases h
  | recover =>
    simp only [step, stepRecover] at h
    split at h
    · cases h
      exact .called rfl (.recovering _ _)
    · cases h
  | recovered =>
    simp only [step, stepRecovered] at h
    split at h
    · rename_i hp
      split at h
      · rename_i hopen
        cases h
        exact .recovered hp hopen
      · cases h
        exact .recoveredLate hp
    · cases h
  | fail =>
    simp only [step, stepFail] at h
    split at h
    all_goals first
      | cases h
        exact .failed ‹_› (.placing _ _)
      | cases h
        exact .failed ‹_› (.doubling _ _)
      | cases h
        exact .failed ‹_› .done
      | cases h
  | kill =>
    cases h
    exact .killed

end Inversion

end Scadium.Games.Blackjack
