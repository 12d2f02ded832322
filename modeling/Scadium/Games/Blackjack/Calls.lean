/-
Scadium.Games.Blackjack.Calls — the calls of the blackjack engine as a whole:
`placeBet`, `clearBet`, `leaveSeat` and `action`, with the awaits they end in.

The engine changes the table before it awaits the database. A call that
throws leaves the table as it was exactly when no await of it fails after
that; the one exception is a bet that replaces itself.
-/
import Scadium.Games.Blackjack.TableTheorems

namespace Scadium.Games.Blackjack

open Scadium.Common (ExposureGuard)
open Scadium.Fair Scadium.Prisma

/-! ## The calls -/

/-- How the awaits of a call end. A message stands for what is thrown. -/
structure Awaits where
  /-- `seed.create` and `blackjackRound.create`. -/
  created : Except String RoundId
  seed : RoundSeed
  /-- `houseVaultBalance` -/
  bankroll : Option Nat
  /-- The seed folded with the entropy of the chain, if there is any. -/
  folded : Option String
  /-- `blackjackTable.update` -/
  tableUpdated : Except String Unit
  /-- `blackjackRound.update` -/
  saved : Except String Unit

/-- `persistBettingStakes`: there is nothing to write before the first round. -/
def Awaits.persist (env : Awaits) (t : Table) : Except String Unit :=
  if t.roundDbId.isSome then env.saved else .ok ()

/-- `openBetting` -/
def openBetting (chainEnabled : Bool) (env : Awaits) (t : Table) : Table × Except String Unit :=
  match env.created with
  | .error e => (t.openPrologue, .error e)
  | .ok roundDbId =>
      let guard := if chainEnabled then env.bankroll.map ExposureGuard.forBankroll else none
      let opened := (t.openPrologue.installRound roundDbId env.seed guard).foldEntropy env.folded
      match env.tableUpdated, env.saved with
      | .ok _, .ok _ => (opened.setTimer .deal, .ok ())
      | .error e, _ => (opened, .error e)
      | .ok _, .error e => (opened, .error e)

inductive EngineCall where
  | placeBet (userId : UserId) (bet : SeatBet)
  | clearBet (userId : UserId)
  | leaveSeat (userId : UserId)
  | action (userId : UserId) (a : Action)
  deriving DecidableEq

/-- One call, run to its end. -/
def EngineCall.run (chainEnabled : Bool) (stream : CardStream) (env : Awaits) (t : Table) :
    EngineCall → Table × Except String Unit
  | .placeBet userId bet =>
      match Blackjack.placeBet chainEnabled t userId bet with
      | (t', .error e) => (t', .error e)
      | (t', .ok placed) =>
          if placed.opens then openBetting chainEnabled env t' else (t', env.persist t')
  | .clearBet userId =>
      match Blackjack.clearBet t userId with
      | (t', .error e) => (t', .error e)
      | (t', .ok _) => (t', env.persist t')
  | .leaveSeat userId =>
      match Blackjack.leaveSeat t userId with
      | (t', .error e) => (t', .error e)
      | (t', .ok left) => (t', if left.wasBetting then env.persist t' else .ok ())
  | .action userId a =>
      match Blackjack.action stream t userId a with
      | (t', .error e) => (t', .error e)
      | (t', .ok seatIndex) =>
          match if a = .double then env.persist t' else .ok () with
          | .error e => (t', .error e)
          | .ok _ => ((afterAction t' seatIndex).1, .ok ())

/-! ## What a call must not change when it throws -/

/-- A seat's bet and hand. -/
structure Hand where
  index : Nat
  userId : UserId
  bet : Option SeatBet
  cards : List Card
  status : HandStatus
  doubled : Bool
  deriving DecidableEq

def Seat.hand (s : Seat) : Hand := ⟨s.index, s.userId, s.bet, s.cards, s.status, s.doubled⟩

/-- The bets, the hands, the turn and the phase. -/
structure Play where
  phase : Phase
  activeSeat : Option Nat
  dealerCards : List Card
  hands : List Hand
  deriving DecidableEq

def Table.play (t : Table) : Play where
  phase := t.phase
  activeSeat := t.activeSeat
  dealerCards := t.dealerCards
  hands := t.seats.map Seat.hand

/-- If the call throws, the table is as it was. -/
def ErrorAtomic (chainEnabled : Bool) (stream : CardStream) (env : Awaits) (t : Table)
    (call : EngineCall) : Prop :=
  ∀ t' e, call.run chainEnabled stream env t = (t', .error e) → t'.play = t.play

/-! ## Seats that change -/

section Seats

variable {t : Table} {seat : Seat} {index : Nat} {f : Seat → Seat}

/-- Setting fields of a seat shows in the play when it shows in a hand. -/
theorem setSeat_play :
    (t.setSeat index f).play = t.play ↔
      ∀ s ∈ t.seats, s.index = index → (f s).hand = s.hand := by
  have hhands : (t.setSeat index f).play = t.play ↔
      t.seats.map (Seat.hand ∘ fun s => if s.index = index then f s else s) =
        t.seats.map Seat.hand := by
    simp [Table.play, Table.setSeat]
  rw [hhands, List.map_inj_left]
  constructor
  · intro h s hs hindex
    simpa [hindex] using h s hs
  · intro h s hs
    by_cases hindex : s.index = index
    · simpa [hindex] using h s hs hindex
    · simp [hindex]

theorem deleteSeat_play_ne (h : seat ∈ t.seats) : (t.deleteSeat seat.index).play ≠ t.play := by
  intro hplay
  have hlength : (t.seats.filter (·.index != seat.index)).length = t.seats.length := by
    have hhands := congrArg (List.length ∘ Play.hands) hplay
    simpa [Table.play, Table.deleteSeat] using hhands
  have hall := List.length_filter_eq_length_iff.mp hlength seat h
  simp at hall

end Seats

/-! ## Awaits that fail -/

section Failures

variable {chainEnabled : Bool} {stream : CardStream} {env : Awaits} {t t' : Table} {e : String}

/-- The write of the stakes fails, and there is a row to write. -/
def Awaits.savingFails (env : Awaits) (t : Table) : Prop :=
  t.roundDbId.isSome = true ∧ ∃ e, env.saved = .error e

/-- Some await of the opening of a window fails. -/
def Awaits.openingFails (env : Awaits) : Prop :=
  (∃ e, env.created = .error e) ∨ (∃ e, env.tableUpdated = .error e) ∨ ∃ e, env.saved = .error e

theorem persist_eq_error : (∃ e, env.persist t = .error e) ↔ env.savingFails t := by
  unfold Awaits.persist Awaits.savingFails
  split
  · rename_i hround
    simp [hround]
  · rename_i hround
    simp [hround]

theorem openBetting_error (h : openBetting chainEnabled env t = (t', .error e)) :
    env.openingFails := by
  unfold openBetting at h
  split at h
  · rename_i hcreated
    exact .inl ⟨_, hcreated⟩
  · dsimp only at h
    split at h
    · cases h
    · rename_i htable
      exact .inr (.inl ⟨_, htable⟩)
    · rename_i hsaved
      exact .inr (.inr ⟨_, hsaved⟩)

theorem foldEntropy_phase (t : Table) (folded : Option String) :
    (t.foldEntropy folded).phase = t.phase := by
  cases folded with
  | none => rfl
  | some => rfl

/-- An opening that fails leaves the window open behind it. -/
theorem openBetting_fails (h : env.openingFails) :
    ∃ t' e, openBetting chainEnabled env t = (t', .error e) ∧ t'.phase = .betting := by
  unfold openBetting
  split
  · exact ⟨_, _, rfl, rfl⟩
  · rename_i roundDbId hcreated
    dsimp only
    split
    · rename_i htable hsaved
      rcases h with ⟨e, h⟩ | ⟨e, h⟩ | ⟨e, h⟩
      · rw [hcreated] at h
        cases h
      · rw [htable] at h
        cases h
      · rw [hsaved] at h
        cases h
    · exact ⟨_, _, rfl, foldEntropy_phase _ _⟩
    · exact ⟨_, _, rfl, foldEntropy_phase _ _⟩

end Failures

/-! ## Error atomicity -/

/-- An await of the call fails after the call has changed the table. -/
def LateFailure (chainEnabled : Bool) (env : Awaits) (t : Table) : EngineCall → Prop
  | .placeBet userId bet => ∃ found, t.acceptsBet chainEnabled userId bet found ∧
      if t.phase = .betting then
        env.savingFails t ∧ ∃ s ∈ t.seats, s.index = found.index ∧ s.bet ≠ some bet
      else env.openingFails
  | .clearBet userId | .leaveSeat userId =>
      t.phase = .betting ∧ (∃ seat bet, t.seatOf userId = some seat ∧ seat.bet = some bet) ∧
        env.savingFails t
  | .action userId a =>
      a = .double ∧ (∃ seat, t.acceptsAction userId a seat) ∧ env.savingFails t

section Atomic

variable {chainEnabled : Bool} {stream : CardStream} {env : Awaits} {t t' : Table}
variable {userId : UserId} {bet : SeatBet} {a : Action} {seat found : Seat}

/-- In an open window a bet shows at its seat and nowhere else. -/
theorem placed_play (hphase : t.phase = .betting) :
    (t.placed chainEnabled bet found).play = t.play ↔
      ∀ s ∈ t.seats, s.index = found.index → s.bet = some bet := by
  have hsettled : t.phase ≠ .settled := by
    rw [hphase]
    exact nofun
  obtain ⟨_, heq⟩ := holdExposure_eq chainEnabled t (t.placingSeat found) bet
  have hplay : (t.placed chainEnabled bet found).play =
      (t.setSeat found.index (Seat.place bet)).play := by
    rw [Table.placed, clearSettled_of_ne hsettled, heq]
    rfl
  rw [hplay, setSeat_play]
  simp [Seat.hand, Seat.place, eq_comm]

theorem acted_play_ne (h : t.acceptsAction userId .double seat) :
    (t.acted stream .double seat).play ≠ t.play := by
  intro hplay
  obtain ⟨i, -, hseat⟩ := Option.bind_eq_some_iff.mp h.2.1
  have hset : (t.setSeat seat.index fun s => s.act .double (t.nextCard stream)).play = t.play :=
    hplay
  have hhand := setSeat_play.mp hset seat (seatAt_mem hseat).1 rfl
  simp [Seat.hand, Seat.act] at hhand

/-- The checks of a bet come before anything of the play changes. -/
theorem refused_play (h : t.Refused chainEnabled userId bet t') : t'.play = t.play := by
  rcases h with rfl | ⟨found, -, -, -, rfl⟩
  · rfl
  · obtain ⟨_, heq⟩ := holdExposure_eq chainEnabled t found bet
    rw [heq]
    rfl

/-- A call that throws leaves the table as it was, when none of its awaits
fails after the call has changed it. -/
theorem errorAtomic_of_not_late {call : EngineCall}
    (h : ¬ LateFailure chainEnabled env t call) : ErrorAtomic chainEnabled stream env t call := by
  intro t' e hrun
  cases call with
  | placeBet userId bet =>
    rcases placeBet_cases chainEnabled t userId bet with
      ⟨e', t₁, hplace, hrefused, -⟩ | ⟨found, haccepts, hplace⟩
    · simp only [EngineCall.run, hplace, Prod.mk.injEq] at hrun
      rw [← hrun.1]
      exact refused_play hrefused
    · simp only [EngineCall.run, hplace] at hrun
      split at hrun
      · rename_i hopens
        exact absurd ⟨found, haccepts, by
          rw [if_neg (of_decide_eq_true hopens)]
          exact openBetting_error hrun⟩ h
      · rename_i hopens
        have hphase : t.phase = .betting := by
          simpa using hopens
        obtain ⟨rfl, hfails⟩ := Prod.mk.inj hrun
        rw [placed_play hphase]
        intro s hs hindex
        by_contra hbet
        have hsaving := persist_eq_error.mp ⟨e, hfails⟩
        rw [Awaits.savingFails, placed_frame.2.2] at hsaving
        exact h ⟨found, haccepts, by
          rw [if_pos hphase]
          exact ⟨hsaving, s, hs, hindex, hbet⟩⟩
  | clearBet userId =>
    rcases clearBet_cases t userId with ⟨e', hclear, -⟩ | ⟨seat, bet, hphase, hseat, hbet, hclear⟩
    · simp only [EngineCall.run, hclear, Prod.mk.injEq] at hrun
      rw [← hrun.1]
    · simp only [EngineCall.run, hclear] at hrun
      have hfails := persist_eq_error.mp ⟨e, (Prod.mk.inj hrun).2⟩
      exact absurd ⟨hphase, ⟨seat, bet, hseat, hbet⟩, hfails⟩ h
  | leaveSeat userId =>
    rcases leaveSeat_cases t userId with
      ⟨e', hleave, -⟩ | ⟨seat, -, -, -, hleave⟩ | ⟨seat, bet, hphase, hseat, hbet, hleave⟩
    · simp only [EngineCall.run, hleave, Prod.mk.injEq] at hrun
      rw [← hrun.1]
    · simp [EngineCall.run, hleave] at hrun
    · simp only [EngineCall.run, hleave, if_true] at hrun
      have hfails := persist_eq_error.mp ⟨e, (Prod.mk.inj hrun).2⟩
      exact absurd ⟨hphase, ⟨seat, bet, hseat, hbet⟩, hfails⟩ h
  | action userId a =>
    rcases action_cases stream t userId a with ⟨e', haction, -⟩ | ⟨seat, haccepts, haction⟩
    · simp only [EngineCall.run, haction, Prod.mk.injEq] at hrun
      rw [← hrun.1]
    · simp only [EngineCall.run, haction] at hrun
      split at hrun
      · rename_i e' hfails
        split at hfails
        · rename_i hdouble
          have hsaving := persist_eq_error.mp ⟨e', hfails⟩
          rw [Awaits.savingFails, acted_frame.2.2.1] at hsaving
          exact absurd ⟨hdouble, ⟨seat, haccepts⟩, hsaving⟩ h
        · cases hfails
      · cases hrun

/-- One whose await fails after that does not. -/
theorem not_errorAtomic_of_late {call : EngineCall} (h : LateFailure chainEnabled env t call) :
    ¬ ErrorAtomic chainEnabled stream env t call := by
  intro hatomic
  cases call with
  | placeBet userId bet =>
    obtain ⟨found, haccepts, hlate⟩ := h
    have hplace := placeBet_accepts haccepts
    by_cases hphase : t.phase = .betting
    · rw [if_pos hphase] at hlate
      obtain ⟨hsaving, s, hs, hindex, hbet⟩ := hlate
      have hsaving' : env.savingFails (t.placed chainEnabled bet found) := by
        rw [Awaits.savingFails, placed_frame.2.2]
        exact hsaving
      obtain ⟨e, hfails⟩ := persist_eq_error.mpr hsaving'
      have hplay := hatomic _ e (by
        simp only [EngineCall.run, hplace, hphase, ne_eq, not_true_eq_false, decide_false,
          Bool.false_eq_true, if_false]
        rw [hfails])
      exact hbet ((placed_play hphase).mp hplay s hs hindex)
    · rw [if_neg hphase] at hlate
      obtain ⟨t', e, hopen, hbetting⟩ := openBetting_fails hlate
      have hplay := hatomic t' e (by
        simp only [EngineCall.run, hplace, ne_eq, hphase, not_false_eq_true, decide_true, if_true]
        exact hopen)
      exact hphase (by rw [← hbetting]; exact (congrArg Play.phase hplay).symm)
  | clearBet userId =>
    obtain ⟨hphase, ⟨seat, bet, hseat, hbet⟩, hsaving⟩ := h
    rcases clearBet_cases t userId with ⟨e', -, hnone⟩ | ⟨seat', bet', -, hseat', hbet', hclear⟩
    · exact hnone seat bet hphase hseat hbet
    · rw [hseat] at hseat'
      cases hseat'
      obtain ⟨e, hfails⟩ := persist_eq_error.mpr hsaving
      have hplay := hatomic { t.setSeat seat.index Seat.clearBet with
          exposure := t.exposure.map (·.release (potentialOf bet'.betTotal)) } e (by
        simp only [EngineCall.run, hclear]
        exact congrArg (Prod.mk _) hfails)
      have hset : (t.setSeat seat.index Seat.clearBet).play = t.play := hplay
      have hhand := setSeat_play.mp hset seat (seatOf_mem hseat).1 rfl
      simp [Seat.hand, Seat.clearBet, hbet] at hhand
  | leaveSeat userId =>
    obtain ⟨hphase, ⟨seat, bet, hseat, hbet⟩, hsaving⟩ := h
    rcases leaveSeat_cases t userId with
      ⟨e', -, hnone⟩ | ⟨seat', hseat', hnone, -, -⟩ | ⟨seat', bet', -, hseat', hbet', hleave⟩
    · exact hnone seat bet hphase hseat hbet
    · rw [hseat] at hseat'
      cases hseat'
      rw [hnone hphase] at hbet
      cases hbet
    · rw [hseat] at hseat'
      cases hseat'
      obtain ⟨e, hfails⟩ := persist_eq_error.mpr hsaving
      refine deleteSeat_play_ne (seatOf_mem hseat).1 (hatomic _ e ?_)
      simp only [EngineCall.run, hleave, if_true]
      exact congrArg _ hfails
  | action userId =>
    obtain ⟨rfl, ⟨seat, haccepts⟩, hsaving⟩ := h
    rcases action_cases stream t userId .double with
      ⟨e', -, hnone⟩ | ⟨seat', haccepts', haction⟩
    · exact hnone seat haccepts
    · have hsaving' : env.savingFails (t.acted stream .double seat') := by
        rw [Awaits.savingFails, acted_frame.2.2.1]
        exact hsaving
      obtain ⟨e, hfails⟩ := persist_eq_error.mpr hsaving'
      have hplay := hatomic (t.acted stream .double seat') e (by
        simp only [EngineCall.run, haction, if_true]
        rw [hfails])
      exact acted_play_ne haccepts' hplay

end Atomic

/-- The exact condition for a call that throws to leave the table alone. -/
theorem errorAtomic_iff (chainEnabled : Bool) (stream : CardStream) (env : Awaits) (t : Table)
    (call : EngineCall) :
    ErrorAtomic chainEnabled stream env t call ↔ ¬ LateFailure chainEnabled env t call := by
  constructor
  · intro hatomic hlate
    exact not_errorAtomic_of_late hlate hatomic
  · exact errorAtomic_of_not_late

/-- A bet raised in an open window whose stakes cannot be saved: the call
throws, the stake goes back, and the bet stays on its seat. -/
theorem bet_kept_on_error :
    ¬ ∀ chainEnabled stream env t call, ErrorAtomic chainEnabled stream env t call := by
  intro h
  let env : Awaits :=
    { created := .ok 1
      seed := ⟨"server", "client"⟩
      bankroll := none
      folded := none
      tableUpdated := .ok ()
      saved := .ok () }
  let stream : CardStream := fun _ _ _ _ => ⟨.two, .H⟩
  let seated := (takeSeat (createTable false none) 0 7).1
  let t := ((EngineCall.placeBet 7 ⟨1000000, 0, 0⟩).run false stream env seated).1
  let down : Awaits := { env with saved := .error "Can't reach database server" }
  have hplay := h false stream down t (.placeBet 7 ⟨100000000000, 0, 0⟩) _ _ rfl
  have hbets : (t.setSeat 0 (Seat.place ⟨100000000000, 0, 0⟩)).play.hands ≠ t.play.hands := by
    decide
  exact hbets (congrArg Play.hands hplay)

end Scadium.Games.Blackjack
