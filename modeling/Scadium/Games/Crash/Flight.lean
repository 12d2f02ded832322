/-
Scadium.Games.Crash.Flight — a round in flight: the ticks of the engine and
the cash-outs of the players, in any order (`games/crash/crash.engine.ts`).

The loop of a tick awaits a write for each exit, and a player may cash out at
each of these points, so a visit of one bet is a step of its own. A tick
samples the multiplier once, visits every bet, and ends the round when its
sample has reached the bust. The round runs until then: a process that stops
or loses the lead before that leaves the round to the recovery.

Where a bet leaves by itself does not depend on when the ticks come, and no
order of exits pays out more than the stake and the cap.
-/
import Mathlib.Data.List.Nodup
import Scadium.Games.Crash.CashOut

namespace Scadium.Games.Crash

open Scadium.Lib Scadium.Prisma Scadium.Shared

/-! ## State and steps -/

/-- A round in flight: the sample of the tick in progress with the bets its
loop has not visited, and the exits so far, newest first. -/
structure Flight where
  round : Round
  ticking : Option (Rat × List UserId)
  exits : List CashedOut
  deriving DecidableEq

def Flight.launch (round : Round) : Flight := ⟨round, none, []⟩

def Round.users (round : Round) : List UserId := round.bets.map (·.userId)

inductive FlightEvent where
  /-- A tick samples the multiplier. -/
  | tick (now : Time)
  /-- Its loop comes to the next bet. -/
  | visit
  | endTick
  /-- A player cashes out. -/
  | cashOut (userId : UserId) (percent : Rat) (now : Time)
  deriving DecidableEq

def Flight.tick (f : Flight) (m : Rat) : Option Flight :=
  if f.round.phase = .running ∧ f.ticking = none then
    some { f with ticking := some (m, f.round.users) }
  else none

def Flight.visit (f : Flight) : Option Flight :=
  match f.ticking with
  | some (m, userId :: rest) =>
      let (round, exits) := autoCashOut m f.round userId
      some ⟨round, some (m, rest), exits ++ f.exits⟩
  | _ => none

def Flight.endTick (f : Flight) : Option Flight :=
  match f.ticking with
  | some (m, []) =>
      some { f with
        ticking := none
        round := if f.round.bustPoint ≤ m then { f.round with phase := .busted } else f.round }
  | _ => none

/-- A call that throws leaves the round as it is. -/
def Flight.cashOut (f : Flight) (live : Rat) (userId : UserId) (percent : Rat) : Flight :=
  match Crash.cashOut live f.round userId percent none with
  | .ok (round, exit) => ⟨round, f.ticking, exit :: f.exits⟩
  | .error _ => f

def flightStep (curve : Int → Rat) (f : Flight) : FlightEvent → Option Flight
  | .tick now => f.tick (currentMultiplier curve now f.round)
  | .visit => f.visit
  | .endTick => f.endTick
  | .cashOut userId percent now =>
      some (f.cashOut (currentMultiplier curve now f.round) userId percent)

/-- A bet as it was accepted. -/
structure LiveBet.Accepted (bet : LiveBet) : Prop where
  riding : bet.amountLamports = bet.originalAmountLamports
  staked : 0 < bet.amountLamports
  unpaid : bet.payoutLamports = 0
  isIn : bet.cashedOutAt = none

/-- A round that takes off with the bets it has accepted. -/
structure Launched (round : Round) : Prop where
  running : round.phase = .running
  users : round.users.Nodup
  bets : ∀ bet ∈ round.bets, bet.Accepted

/-! ## One exit changes one bet -/

section Exits

variable {live m : Rat} {round round' : Round} {userId u : UserId} {percent : Rat}
variable {bet : LiveBet} {portion payout : Nat}

theorem bet?_cashOut_self (h : round.bet? u = some bet) :
    (round.cashOut u portion payout m).bet? u = some (bet.cashOut portion payout m) := by
  have hkeeps : ∀ b : LiveBet, ((fun b : LiveBet => b.userId == u) ∘ fun b =>
      if b.userId = u then b.cashOut portion payout m else b) b = (b.userId == u) := by
    intro b
    simp only [Function.comp_apply]
    split
    · rfl
    · rfl
  simp only [Round.bet?, Round.cashOut] at h ⊢
  rw [List.find?_map, funext hkeeps, h, Option.map_some, if_pos]
  exact (bet?_mem h).2

theorem bet?_cashOut_of_ne (hne : u ≠ userId) :
    (round.cashOut userId portion payout m).bet? u = round.bet? u := by
  have hkeeps : ∀ b : LiveBet, ((fun b : LiveBet => b.userId == u) ∘ fun b =>
      if b.userId = userId then b.cashOut portion payout m else b) b = (b.userId == u) := by
    intro b
    simp only [Function.comp_apply]
    split
    · rfl
    · rfl
  simp only [Round.bet?, Round.cashOut]
  rw [List.find?_map, funext hkeeps]
  cases hfind : round.bets.find? (fun b => b.userId == u) with
  | none => rfl
  | some b =>
    have hb : b.userId = u := by
      have hfound := List.find?_some hfind
      simpa using hfound
    rw [Option.map_some, if_neg (by rw [hb]; exact hne)]

theorem users_cashOut (round : Round) (userId : UserId) (portion payout : Nat) (m : Rat) :
    (round.cashOut userId portion payout m).users = round.users := by
  simp only [Round.users, Round.cashOut, List.map_map]
  refine List.map_congr_left ?_
  intro b _
  simp only [Function.comp_apply]
  split
  · rfl
  · rfl

theorem mem_users_of_bet? (h : round.bet? u = some bet) : u ∈ round.users := by
  obtain ⟨hmem, huser⟩ := bet?_mem h
  exact List.mem_map.mpr ⟨bet, hmem, huser⟩

theorem bet?_of_mem (husers : round.users.Nodup) (hbet : bet ∈ round.bets) :
    round.bet? bet.userId = some bet := by
  cases hfind : round.bet? bet.userId with
  | none =>
    have hnone := List.find?_eq_none.mp hfind bet hbet
    simp at hnone
  | some =>
    obtain ⟨hb, huser⟩ := bet?_mem hfind
    rw [List.inj_on_of_nodup_map husers hb hbet huser]

/-- What a step of a flight does to the round: nothing, or one exit. -/
inductive Exits (round : Round) : Round → List CashedOut → Prop
  | none : Exits round round []
  | one (userId : UserId) (bet : LiveBet) (portion : Nat) (m : Rat)
      (hbet : round.bet? userId = some bet) (hportion : portion ≤ bet.amountLamports) :
      Exits round (round.cashOut userId portion (bet.payoutAt portion m) m)
        [⟨userId, portion, bet.payoutAt portion m, m, bet.amountLamports - portion⟩]

theorem cashOut_exits {atMultiplier : Option Rat} {exit : CashedOut}
    (h : cashOut live round userId percent atMultiplier = .ok (round', exit)) :
    Exits round round' [exit] := by
  obtain ⟨-, bet, hbet, -, -, -, rfl, rfl⟩ := cashOut_ok h
  exact .one userId bet _ _ hbet (portion_le bet percent)

theorem autoCashOut_exits (m : Rat) (round : Round) (userId : UserId) :
    Exits round (autoCashOut m round userId).1 (autoCashOut m round userId).2 := by
  unfold autoCashOut
  split
  · exact .none
  · split
    · exact .none
    · split
      · exact .none
      · split
        · split
          · rename_i h
            exact cashOut_exits h
          · exact .none
        · exact .none

/-- The loop leaves the other bets alone. -/
theorem autoCashOut_bet?_of_ne (hne : u ≠ userId) :
    (autoCashOut m round userId).1.bet? u = round.bet? u := by
  unfold autoCashOut
  split
  · rfl
  · split
    · rfl
    · split
      · rfl
      · split
        · split
          · rename_i h
            obtain ⟨-, bet, -, -, -, -, rfl, -⟩ := cashOut_ok h
            exact bet?_cashOut_of_ne hne
          · rfl
        · rfl

end Exits

/-- A round with the same terms: only the bets and the phase may differ. -/
structure SameTerms (round round' : Round) : Prop where
  bustPoint : round'.bustPoint = round.bustPoint
  startedAt : round'.startedAt = round.startedAt
  users : round'.users = round.users

theorem Exits.sameTerms {round round' : Round} {exits : List CashedOut}
    (h : Exits round round' exits) : SameTerms round round' ∧ round'.phase = round.phase := by
  cases h with
  | none => exact ⟨⟨rfl, rfl, rfl⟩, rfl⟩
  | one =>
    exact ⟨⟨rfl, rfl, users_cashOut _ _ _ _ _⟩, rfl⟩

/-! ## What a step does to the round -/

/-- A step makes at most one exit, or ends the round with its tick. -/
inductive RoundStep (f f' : Flight) : Prop
  | exits (es : List CashedOut) (h : Exits f.round f'.round es) (hexits : f'.exits = es ++ f.exits)
  | busts (h : f'.round = { f.round with phase := .busted }) (hexits : f'.exits = f.exits)

theorem flightStep_round {curve : Int → Rat} {f f' : Flight} {e : FlightEvent}
    (h : flightStep curve f e = some f') : RoundStep f f' := by
  cases e with
  | tick =>
    simp only [flightStep, Flight.tick] at h
    split at h
    · cases h
      exact .exits [] .none rfl
    · cases h
  | visit =>
    simp only [flightStep, Flight.visit] at h
    split at h
    · cases h
      exact .exits _ (autoCashOut_exits _ _ _) rfl
    · cases h
  | endTick =>
    simp only [flightStep, Flight.endTick] at h
    split at h
    · cases h
      rename_i m _
      by_cases hbust : f.round.bustPoint ≤ m
      · exact .busts (if_pos hbust) rfl
      · refine .exits [] ?_ rfl
        simp only [if_neg hbust]
        exact .none
    · cases h
  | cashOut =>
    simp only [flightStep, Flight.cashOut] at h
    split at h
    · rename_i hcash
      cases h
      exact .exits _ (cashOut_exits hcash) rfl
    · cases h
      exact .exits [] .none rfl

/-! ## A bet that its player leaves alone -/

section Automatic

variable {curve : Int → Rat} {f f' : Flight} {bet : LiveBet} {m target : Rat}

/-- The bet after its exit at `target`. -/
def LiveBet.exited (bet : LiveBet) (target : Rat) : LiveBet :=
  bet.cashOut bet.amountLamports (bet.payoutAt bet.amountLamports target) target

theorem exited_isOut (bet : LiveBet) (target : Rat) : (bet.exited target).isOut = true := by
  simp [LiveBet.exited, LiveBet.cashOut, LiveBet.isOut]

theorem LiveBet.Accepted.isIn_eq (h : bet.Accepted) : bet.isOut = false := by
  have hpos : bet.amountLamports ≠ 0 := Nat.pos_iff_ne_zero.mp h.staked
  simp [LiveBet.isOut, h.isIn, hpos]

/-- The bet is out if the sample `m` has reached its target, below the bust. -/
def Honoured (bet : LiveBet) (m : Rat) (round : Round) : Prop :=
  ∀ target, bet.exitTarget = some target → target ≤ m → target < round.bustPoint →
    round.bet? bet.userId = some (bet.exited target)

/-- The bet is as it was, or out at its target; a tick that has come past it
has honoured it, and so has the tick that ended the round. -/
structure LeftAlone (bet : LiveBet) (f : Flight) : Prop where
  position : f.round.bet? bet.userId = some bet ∨ ∃ target, bet.exitTarget = some target ∧
    target < f.round.bustPoint ∧ f.round.bet? bet.userId = some (bet.exited target)
  visited : ∀ m rest, f.ticking = some (m, rest) → bet.userId ∈ rest ∨ Honoured bet m f.round
  ended : f.round.phase = .running ∨ f.round.phase = .busted ∧ f.ticking = none ∧
    ∃ m, f.round.bustPoint ≤ m ∧ Honoured bet m f.round

/-- The bet and the terms of the round are the same. -/
theorem Honoured.of_bet? {round round' : Round} (h : Honoured bet m round)
    (hbet : round'.bet? bet.userId = round.bet? bet.userId)
    (hbust : round'.bustPoint = round.bustPoint) : Honoured bet m round' := by
  intro target htarget hreached hbelow
  rw [hbust] at hbelow
  rw [hbet]
  exact h target htarget hreached hbelow

theorem LeftAlone.launch {round : Round} (hround : Launched round) (hbet : bet ∈ round.bets) :
    LeftAlone bet (Flight.launch round) where
  position := .inl (bet?_of_mem hround.users hbet)
  visited := by
    intro m rest h
    cases h
  ended := .inl hround.running

theorem LeftAlone.tick (h : LeftAlone bet f) (htick : f.tick m = some f') : LeftAlone bet f' := by
  unfold Flight.tick at htick
  split at htick
  · rename_i hguard
    cases htick
    refine ⟨h.position, ?_, .inl hguard.1⟩
    intro m' rest hticking
    cases hticking
    refine .inl ?_
    rcases h.position with hbet | ⟨_, -, -, hbet⟩
    · exact mem_users_of_bet? hbet
    · exact mem_users_of_bet? hbet
  · cases htick

/-- The loop comes to the bet itself. -/
theorem visit_self {round : Round} (haccepted : bet.Accepted) (hrunning : round.phase = .running)
    (hposition : round.bet? bet.userId = some bet ∨ ∃ target, bet.exitTarget = some target ∧
      target < round.bustPoint ∧ round.bet? bet.userId = some (bet.exited target)) :
    Honoured bet m (autoCashOut m round bet.userId).1 ∧
      ((autoCashOut m round bet.userId).1.bet? bet.userId = some bet ∨
        ∃ target, bet.exitTarget = some target ∧ target < round.bustPoint ∧
          (autoCashOut m round bet.userId).1.bet? bet.userId = some (bet.exited target)) := by
  rcases hposition with hbet | ⟨target, htarget, hbelow, hbet⟩
  · cases htarget : bet.exitTarget with
    | none =>
      have hsame : autoCashOut m round bet.userId = (round, []) := by
        simp [autoCashOut, hbet, haccepted.isIn_eq, htarget]
      rw [hsame]
      refine ⟨?_, .inl hbet⟩
      intro target' htarget'
      rw [htarget] at htarget'
      cases htarget'
    | some target =>
      by_cases hexit : target ≤ m ∧ target < round.bustPoint
      · have hout : (autoCashOut m round bet.userId).1 = round.cashOut bet.userId
            bet.amountLamports (bet.payoutAt bet.amountLamports target) target := by
          simp only [autoCashOut, hbet, haccepted.isIn_eq, htarget, if_pos hexit,
            cashOut_full hrunning hbet haccepted.isIn_eq]
          rfl
        have hafter : (autoCashOut m round bet.userId).1.bet? bet.userId =
            some (bet.exited target) := by
          rw [hout]
          exact bet?_cashOut_self hbet
        refine ⟨?_, .inr ⟨target, rfl, hexit.2, hafter⟩⟩
        intro target' htarget' _ _
        rw [htarget] at htarget'
        cases htarget'
        exact hafter
      · have hsame : autoCashOut m round bet.userId = (round, []) := by
          simp [autoCashOut, hbet, haccepted.isIn_eq, htarget, hexit]
        rw [hsame]
        refine ⟨?_, .inl hbet⟩
        intro target' htarget' hreached hbelow
        rw [htarget] at htarget'
        cases htarget'
        exact absurd ⟨hreached, hbelow⟩ hexit
  · -- it is out already
    have hsame : autoCashOut m round bet.userId = (round, []) := by
      simp [autoCashOut, hbet, exited_isOut]
    rw [hsame]
    refine ⟨?_, .inr ⟨target, htarget, hbelow, hbet⟩⟩
    intro target' htarget' _ _
    rw [htarget] at htarget'
    cases htarget'
    exact hbet

theorem visit_ok (h : f.visit = some f') :
    ∃ m userId rest, f.ticking = some (m, userId :: rest) ∧
      f' = ⟨(autoCashOut m f.round userId).1, some (m, rest),
        (autoCashOut m f.round userId).2 ++ f.exits⟩ := by
  unfold Flight.visit at h
  split at h
  · rename_i m userId rest hticking
    exact ⟨m, userId, rest, hticking, (Option.some.inj h).symm⟩
  · cases h

theorem LeftAlone.visit (h : LeftAlone bet f) (haccepted : bet.Accepted)
    (hvisit : f.visit = some f') : LeftAlone bet f' := by
  obtain ⟨m, userId, rest, hticking, rfl⟩ := visit_ok hvisit
  have hrunning : f.round.phase = .running := by
    rcases h.ended with hrunning | ⟨-, hnone, -⟩
    · exact hrunning
    · rw [hticking] at hnone
      cases hnone
  obtain ⟨hterms, hphase⟩ := (autoCashOut_exits m f.round userId).sameTerms
  by_cases hself : bet.userId = userId
  · subst hself
    obtain ⟨hhonoured, hposition⟩ := visit_self (m := m) haccepted hrunning h.position
    refine ⟨?_, ?_, .inl (hphase.trans hrunning)⟩
    · simp only [hterms.bustPoint]
      exact hposition
    · intro m' rest' hticking'
      cases hticking'
      exact .inr hhonoured
  · have hsame : (autoCashOut m f.round userId).1.bet? bet.userId = f.round.bet? bet.userId :=
      autoCashOut_bet?_of_ne hself
    refine ⟨?_, ?_, .inl (hphase.trans hrunning)⟩
    · simp only [hterms.bustPoint, hsame]
      exact h.position
    · intro m' rest' hticking'
      cases hticking'
      rcases h.visited m (userId :: rest) hticking with hmem | hhonoured
      · rcases List.mem_cons.mp hmem with heq | hmem
        · exact absurd heq hself
        · exact .inl hmem
      · exact .inr (hhonoured.of_bet? hsame hterms.bustPoint)

theorem LeftAlone.endTick (h : LeftAlone bet f) (hend : f.endTick = some f') :
    LeftAlone bet f' := by
  unfold Flight.endTick at hend
  split at hend
  · rename_i m hticking
    cases hend
    have hrunning : f.round.phase = .running := by
      rcases h.ended with hrunning | ⟨-, hnone, -⟩
      · exact hrunning
      · rw [hticking] at hnone
        cases hnone
    have hhonoured : Honoured bet m f.round := by
      rcases h.visited m [] hticking with hmem | hhonoured
      · cases hmem
      · exact hhonoured
    by_cases hbust : f.round.bustPoint ≤ m
    · simp only [if_pos hbust]
      refine ⟨h.position, ?_, .inr ⟨rfl, rfl, m, hbust, hhonoured⟩⟩
      intro m' rest hnone
      cases hnone
    · simp only [if_neg hbust]
      refine ⟨h.position, ?_, .inl hrunning⟩
      intro m' rest hnone
      cases hnone
  · cases hend

/-- Another player's exit. -/
theorem LeftAlone.cashOut (h : LeftAlone bet f) {userId : UserId} (hother : bet.userId ≠ userId)
    (live percent : Rat) : LeftAlone bet (f.cashOut live userId percent) := by
  unfold Flight.cashOut
  split
  · rename_i round exit hcash
    obtain ⟨hphase, b, -, -, -, -, rfl, -⟩ := cashOut_ok hcash
    refine ⟨?_, ?_, .inl hphase⟩
    · rw [bet?_cashOut_of_ne hother]
      exact h.position
    · intro m rest hticking
      rcases h.visited m rest hticking with hmem | hhonoured
      · exact .inl hmem
      · exact .inr (hhonoured.of_bet? (bet?_cashOut_of_ne hother) rfl)
  · exact h

/-- A call of this player. -/
def FlightEvent.isBy (userId : UserId) : FlightEvent → Prop
  | .cashOut u _ _ => u = userId
  | _ => False

theorem LeftAlone.step {e : FlightEvent} (h : LeftAlone bet f) (haccepted : bet.Accepted)
    (he : ¬ e.isBy bet.userId) (hstep : flightStep curve f e = some f') : LeftAlone bet f' := by
  cases e with
  | tick => exact h.tick hstep
  | visit => exact h.visit haccepted hstep
  | endTick => exact h.endTick hstep
  | cashOut =>
    cases hstep
    exact h.cashOut (fun heq => he heq.symm) _ _

theorem LeftAlone.run {es : List FlightEvent} (h : LeftAlone bet f) (haccepted : bet.Accepted)
    (hes : ∀ e ∈ es, ¬ e.isBy bet.userId) (hrun : run (flightStep curve) f es = some f') :
    LeftAlone bet f' := by
  induction es generalizing f with
  | nil =>
    cases hrun
    exact h
  | cons e es ih =>
    obtain ⟨g, hstep, hrest⟩ := run_cons_eq_some.mp hrun
    have hg : LeftAlone bet g := h.step haccepted (hes e List.mem_cons_self) hstep
    exact ih hg (fun e' he' => hes e' (List.mem_cons_of_mem _ he')) hrest

theorem flightStep_bustPoint {e : FlightEvent} (hstep : flightStep curve f e = some f') :
    f'.round.bustPoint = f.round.bustPoint := by
  cases flightStep_round hstep with
  | exits es h => exact h.sameTerms.1.bustPoint
  | busts h => rw [h]

/-! ## What an automatic exit pays -/

/-- The payout of a bet that its player leaves alone: the stake at the
hundredths of its target, within the cap, if the target is below the bust. -/
def committedPayout (bet : LiveBet) (bustPoint : Rat) : Nat :=
  match bet.exitTarget with
  | some target =>
      if target < bustPoint then
        min (bet.amountLamports * (mathRound (target * 100)).toNat / 100)
          (bet.amountLamports + MAX_NET_WIN)
      else 0
  | none => 0

theorem payoutAt_accepted (haccepted : bet.Accepted) (target : Rat) :
    bet.payoutAt bet.amountLamports target =
      min (bet.amountLamports * (mathRound (target * 100)).toNat / 100)
        (bet.amountLamports + MAX_NET_WIN) := by
  have hroom : bet.payoutRoom = ((bet.amountLamports + MAX_NET_WIN : Nat) : Int) := by
    simp [LiveBet.payoutRoom, haccepted.unpaid, ← haccepted.riding]
  have hgross : (grossPayout bet.amountLamports target).toNat =
      bet.amountLamports * (mathRound (target * 100)).toNat / 100 := by
    unfold grossPayout
    cases hround : mathRound (target * 100) with
    | ofNat => rfl
    | negSucc n =>
      have hneg : (bet.amountLamports : Int) * Int.negSucc n ≤ 0 :=
        Int.mul_nonpos_of_nonneg_of_nonpos (Int.natCast_nonneg _) (by omega)
      have hdiv : 0 ≤ (-((bet.amountLamports : Int) * Int.negSucc n)).tdiv 100 :=
        Int.tdiv_nonneg (by omega) (by decide)
      rw [Int.neg_tdiv] at hdiv
      rw [Int.toNat_of_nonpos (by omega)]
      simp
  unfold LiveBet.payoutAt
  dsimp only
  rw [← hgross, hroom]
  split
  · omega
  · omega

theorem LeftAlone.payout (h : LeftAlone bet f) (haccepted : bet.Accepted)
    (hbusted : f.round.phase = .busted) :
    ∃ final, f.round.bet? bet.userId = some final ∧
      final.payoutLamports = committedPayout bet f.round.bustPoint := by
  have hhonoured : ∃ m, f.round.bustPoint ≤ m ∧ Honoured bet m f.round := by
    rcases h.ended with hrunning | ⟨-, -, hends⟩
    · rw [hrunning] at hbusted
      cases hbusted
    · exact hends
  obtain ⟨m, hm, hhonoured⟩ := hhonoured
  have hexited : ∀ target, (bet.exited target).payoutLamports =
      bet.payoutAt bet.amountLamports target := by
    intro target
    simp [LiveBet.exited, LiveBet.cashOut, haccepted.unpaid]
  by_cases hwins : ∃ target, bet.exitTarget = some target ∧ target < f.round.bustPoint
  · obtain ⟨target, htarget, hbelow⟩ := hwins
    have hout := hhonoured target htarget (le_of_lt (lt_of_lt_of_le hbelow hm)) hbelow
    refine ⟨_, hout, ?_⟩
    rw [hexited, payoutAt_accepted haccepted]
    simp [committedPayout, htarget, hbelow]
  · rcases h.position with hbet | ⟨target, htarget, hbelow, -⟩
    · refine ⟨bet, hbet, ?_⟩
      rw [haccepted.unpaid, committedPayout]
      split
      · rename_i target htarget
        rw [if_neg fun hbelow => hwins ⟨target, htarget, hbelow⟩]
      · rfl
    · exact absurd ⟨target, htarget, hbelow⟩ hwins

end Automatic

/-! ## Schedules of ticks -/

section Schedules

variable {curve : Int → Rat} {f : Flight} {round : Round}

/-- One whole tick: every bet is visited. -/
def Round.tickEvents (round : Round) (now : Time) : List FlightEvent :=
  .tick now :: (List.replicate round.users.length .visit ++ [.endTick])

/-- The ticks of a round at the given times, up to the one that ends it. -/
def schedule (curve : Int → Rat) (round : Round) : List Time → List FlightEvent
  | [] => []
  | now :: times =>
      round.tickEvents now ++
        if round.bustPoint ≤ currentMultiplier curve now round then []
        else schedule curve round times

variable (curve) in
theorem run_visits {m : Rat} {users : List UserId} (hticking : f.ticking = some (m, users)) :
    ∃ f', run (flightStep curve) f (List.replicate users.length .visit) = some f' ∧
      f'.ticking = some (m, []) ∧ SameTerms f.round f'.round ∧ f'.round.phase = f.round.phase := by
  induction users generalizing f with
  | nil => exact ⟨f, rfl, hticking, ⟨rfl, rfl, rfl⟩, rfl⟩
  | cons userId rest ih =>
    obtain ⟨hterms, hphase⟩ := (autoCashOut_exits m f.round userId).sameTerms
    have hvisit : flightStep curve f .visit = some ⟨(autoCashOut m f.round userId).1,
        some (m, rest), (autoCashOut m f.round userId).2 ++ f.exits⟩ := by
      simp only [flightStep, Flight.visit, hticking]
    obtain ⟨f', hrun, hticking', hterms', hphase'⟩ := ih (f := ⟨(autoCashOut m f.round userId).1,
      some (m, rest), (autoCashOut m f.round userId).2 ++ f.exits⟩) rfl
    refine ⟨f', ?_, hticking', ?_, hphase'.trans hphase⟩
    · rw [List.length_cons, List.replicate_succ]
      exact run_cons_eq_some.mpr ⟨_, hvisit, hrun⟩
    · exact ⟨hterms'.bustPoint.trans hterms.bustPoint, hterms'.startedAt.trans hterms.startedAt,
        hterms'.users.trans hterms.users⟩

variable (curve) in
/-- A tick runs to its end, and ends the round when its sample is there. -/
theorem run_tickEvents (hrunning : f.round.phase = .running) (hidle : f.ticking = none)
    (hterms : SameTerms round f.round) (hround : round.phase = .running) (now : Time) :
    ∃ f', run (flightStep curve) f (round.tickEvents now) = some f' ∧ f'.ticking = none ∧
      SameTerms round f'.round ∧ f'.round.phase =
        if round.bustPoint ≤ currentMultiplier curve now round then .busted else .running := by
  have hsample : currentMultiplier curve now f.round = currentMultiplier curve now round := by
    simp [currentMultiplier, hrunning, hround, hterms.startedAt]
  have htick : flightStep curve f (.tick now) =
      some { f with ticking := some (currentMultiplier curve now round, round.users) } := by
    simp only [flightStep, Flight.tick, hsample, hterms.users]
    rw [if_pos ⟨hrunning, hidle⟩]
  obtain ⟨g, hvisits, hticking, hgterms, hgphase⟩ := run_visits curve
    (f := { f with ticking := some (currentMultiplier curve now round, round.users) }) rfl
  have hend : flightStep curve g .endTick = some { g with
      ticking := none
      round := if g.round.bustPoint ≤ currentMultiplier curve now round then
        { g.round with phase := .busted } else g.round } := by
    simp only [flightStep, Flight.endTick, hticking]
  have hbust : g.round.bustPoint = round.bustPoint :=
    hgterms.bustPoint.trans hterms.bustPoint
  have hsame : SameTerms round g.round :=
    ⟨hbust, hgterms.startedAt.trans hterms.startedAt, hgterms.users.trans hterms.users⟩
  refine ⟨{ g with
    ticking := none
    round := if g.round.bustPoint ≤ currentMultiplier curve now round then
      { g.round with phase := .busted } else g.round }, ?_, rfl, ?_, ?_⟩
  · refine run_cons_eq_some.mpr ⟨_, htick, run_append.mpr ⟨g, hvisits, ?_⟩⟩
    exact run_cons_eq_some.mpr ⟨_, hend, rfl⟩
  · show SameTerms round (if _ then _ else _)
    split
    · exact ⟨hsame.bustPoint, hsame.startedAt, hsame.users⟩
    · exact hsame
  · show Round.phase (if _ then _ else _) = _
    rw [hbust]
    split
    · rfl
    · exact hgphase.trans hrunning

/-- A schedule with a tick at or past the bust ends the round. -/
theorem schedule_busts {times : List Time} (hrunning : f.round.phase = .running)
    (hidle : f.ticking = none) (hterms : SameTerms round f.round) (hround : round.phase = .running)
    (hreaches : ∃ now ∈ times, round.bustPoint ≤ currentMultiplier curve now round) :
    ∃ f', run (flightStep curve) f (schedule curve round times) = some f' ∧
      f'.round.phase = .busted := by
  induction times generalizing f with
  | nil =>
    obtain ⟨now, hnow, -⟩ := hreaches
    cases hnow
  | cons now times ih =>
    obtain ⟨g, htick, hgidle, hgterms, hgphase⟩ :=
      run_tickEvents curve hrunning hidle hterms hround now
    by_cases hbust : round.bustPoint ≤ currentMultiplier curve now round
    · refine ⟨g, ?_, by rw [hgphase, if_pos hbust]⟩
      rw [schedule, if_pos hbust, List.append_nil]
      exact htick
    · rw [if_neg hbust] at hgphase
      have hlater : ∃ now ∈ times, round.bustPoint ≤ currentMultiplier curve now round := by
        obtain ⟨now', hmem, hreach⟩ := hreaches
        rcases List.mem_cons.mp hmem with rfl | hmem
        · exact absurd hreach hbust
        · exact ⟨now', hmem, hreach⟩
      obtain ⟨f', hrest, hbusted⟩ := ih hgphase hgidle hgterms hlater
      refine ⟨f', ?_, hbusted⟩
      rw [schedule, if_neg hbust]
      exact run_append.mpr ⟨g, htick, hrest⟩

theorem not_isBy_of_mem_schedule {times : List Time} {e : FlightEvent} (userId : UserId)
    (he : e ∈ schedule curve round times) : ¬ e.isBy userId := by
  have htick : ∀ now, e ∈ round.tickEvents now → ¬ e.isBy userId := by
    intro now hmem
    rcases List.mem_cons.mp hmem with rfl | hmem
    · exact id
    · rcases List.mem_append.mp hmem with hmem | hmem
      · rw [List.eq_of_mem_replicate hmem]
        exact id
      · rw [List.mem_singleton.mp hmem]
        exact id
  induction times with
  | nil => cases he
  | cons now times ih =>
    rw [schedule] at he
    rcases List.mem_append.mp he with he | he
    · exact htick now he
    · split at he
      · cases he
      · exact ih he

end Schedules

/-! ## Automatic exits do not depend on the ticks -/

/-- In every run to the bust, whatever the ticks and the other players do, a
bet without a cash-out of its player pays the capped stake at its target if
that is below the bust, and nothing otherwise; every schedule that has a tick
at or past the bust is such a run, for all bets at once. -/
theorem auto_cashout_schedule_free {curve : Int → Rat} {round : Round} (hround : Launched round) :
    (∀ es f, run (flightStep curve) (Flight.launch round) es = some f →
      f.round.phase = .busted → ∀ bet ∈ round.bets, (∀ e ∈ es, ¬ e.isBy bet.userId) →
        ∃ final, f.round.bet? bet.userId = some final ∧
          final.payoutLamports = committedPayout bet round.bustPoint) ∧
    (∀ times, (∃ now ∈ times, round.bustPoint ≤ currentMultiplier curve now round) →
      ∃ f, run (flightStep curve) (Flight.launch round) (schedule curve round times) = some f ∧
        f.round.phase = .busted ∧ ∀ bet ∈ round.bets,
          ∃ final, f.round.bet? bet.userId = some final ∧
            final.payoutLamports = committedPayout bet round.bustPoint) := by
  have hpays : ∀ es f, run (flightStep curve) (Flight.launch round) es = some f →
      f.round.phase = .busted → ∀ bet ∈ round.bets, (∀ e ∈ es, ¬ e.isBy bet.userId) →
        ∃ final, f.round.bet? bet.userId = some final ∧
          final.payoutLamports = committedPayout bet round.bustPoint := by
    intro es f hrun hbusted bet hbet hes
    have haccepted : bet.Accepted := hround.bets bet hbet
    have halone : LeftAlone bet f := (LeftAlone.launch hround hbet).run haccepted hes hrun
    have hbust : f.round.bustPoint = round.bustPoint :=
      run_invariant (P := fun f => f.round.bustPoint = round.bustPoint)
        (fun _ _ _ hs h => (flightStep_bustPoint h).trans hs) rfl hrun
    rw [← hbust]
    exact halone.payout haccepted hbusted
  refine ⟨hpays, ?_⟩
  intro times hreaches
  obtain ⟨f, hrun, hbusted⟩ := schedule_busts (f := Flight.launch round) hround.running rfl
    ⟨rfl, rfl, rfl⟩ hround.running hreaches
  refine ⟨f, hrun, hbusted, ?_⟩
  intro bet hbet
  exact hpays _ f hrun hbusted bet hbet fun e he => not_isBy_of_mem_schedule _ he

/-! ## A sample flight -/

namespace Sample

def liveBet (userId : UserId) (amount : Nat) (autoCashout : Option Rat) : LiveBet where
  userId := userId
  username := none
  walletAddress := "wallet"
  amountLamports := amount
  originalAmountLamports := amount
  payoutLamports := 0
  autoCashout := autoCashout
  cashedOutAt := none

/-- Two bets, of 0.1 SOL with a target of 1.5 and of 50 SOL with none, and a
bust at 3. -/
def airborne : Round where
  id := 1
  seedId := 1
  serverSeed := "crash-seed"
  serverSeedHash := "crash-commit"
  clientSeed := "crash-client"
  nonce := 0
  bustPoint := 3
  phase := .running
  startedAt := some 1000
  waitingStartedAt := some 0
  bets := [liveBet 7 100000000 (some (3 / 2)), liveBet 8 50000000000 none]
  beaconRound := none
  betsClosed := true
  exposure := none

theorem mem_airborne : liveBet 8 50000000000 none ∈ airborne.bets :=
  List.mem_cons_of_mem _ List.mem_cons_self

theorem airborne_launched : Launched airborne where
  running := rfl
  users := by decide
  bets := by
    intro bet hbet
    simp only [airborne, List.mem_cons, List.not_mem_nil, or_false] at hbet
    rcases hbet with rfl | rfl
    · exact ⟨rfl, by decide, rfl, rfl⟩
    · exact ⟨rfl, by decide, rfl, rfl⟩

/-- A curve that doubles every second. -/
def curve (dt : Int) : Rat := 1 + dt / 1000

end Sample

/-- Two ticks, of which the second is past the bust: the second bet leaves at
its cap, which is 2. -/
theorem auto_cashout_schedule_free_sample :
    ∃ f, run (flightStep Sample.curve) (Flight.launch Sample.airborne)
        (schedule Sample.curve Sample.airborne [1400, 4000]) = some f ∧
      ∃ final, f.round.bet? 8 = some final ∧ final.payoutLamports = 100000000000 := by
  have hreaches : ∃ now ∈ [1400, 4000],
      Sample.airborne.bustPoint ≤ currentMultiplier Sample.curve now Sample.airborne :=
    ⟨4000, by decide, by decide +kernel⟩
  obtain ⟨f, hrun, -, hpays⟩ :=
    (auto_cashout_schedule_free Sample.airborne_launched).2 [1400, 4000] hreaches
  obtain ⟨final, hfinal, hpaid⟩ := hpays _ Sample.mem_airborne
  exact ⟨f, hrun, final, hfinal, hpaid.trans (by decide +kernel)⟩

/-! ## The position of a bet -/

section Position

/-- The stakes that have left, by the exits of a player. -/
def portionsOf (exits : List CashedOut) (userId : UserId) : Nat :=
  ((exits.filter (·.userId == userId)).map (·.portion)).sum

/-- What those exits paid. -/
def paidOf (exits : List CashedOut) (userId : UserId) : Nat :=
  ((exits.filter (·.userId == userId)).map (·.payoutLamports)).sum

variable {curve : Int → Rat} {f f' : Flight} {userId : UserId} {stake : Nat}

/-- What a bet of `stake` comes to: what has left and what still rides are
the stake, and it is paid for what has left, within the cap. -/
def Balanced (userId : UserId) (stake : Nat) (round : Round) (exits : List CashedOut) : Prop :=
  ∃ bet, round.bet? userId = some bet ∧ bet.originalAmountLamports = stake ∧
    portionsOf exits userId + bet.amountLamports = stake ∧
    bet.payoutLamports = paidOf exits userId ∧ bet.payoutLamports ≤ stake + MAX_NET_WIN

theorem Balanced.launch {round : Round} (hround : Launched round) {bet : LiveBet}
    (hbet : bet ∈ round.bets) : Balanced bet.userId bet.amountLamports round [] := by
  have haccepted : bet.Accepted := hround.bets bet hbet
  refine ⟨bet, bet?_of_mem hround.users hbet, haccepted.riding.symm, ?_, haccepted.unpaid, ?_⟩
  · simp [portionsOf]
  · rw [haccepted.unpaid]
    exact Nat.zero_le _

/-- An exit keeps the balance, and takes nothing back. -/
theorem Balanced.exits {round round' : Round} {es exits : List CashedOut}
    (h : Balanced userId stake round exits) (hexits : Exits round round' es) :
    Balanced userId stake round' (es ++ exits) ∧
      paidOf exits userId ≤ paidOf (es ++ exits) userId := by
  obtain ⟨bet, hbet, hstake, hportions, hpaid, hcap⟩ := h
  cases hexits with
  | none => exact ⟨⟨bet, hbet, hstake, hportions, hpaid, hcap⟩, le_rfl⟩
  | one u b portion m hb =>
    by_cases hu : u = userId
    · subst hu
      rw [hbet] at hb
      cases hb
      have hroom : bet.payoutLamports + bet.payoutAt portion m ≤ stake + MAX_NET_WIN := by
        rw [← hstake] at hcap ⊢
        exact payoutAt_le bet portion m hcap
      refine ⟨⟨bet.cashOut portion (bet.payoutAt portion m) m, bet?_cashOut_self hbet, hstake,
        ?_, ?_, hroom⟩, ?_⟩
      · simp only [LiveBet.cashOut, portionsOf, List.singleton_append] at hportions ⊢
        simp only [List.filter_cons, beq_self_eq_true, if_true, List.map_cons, List.sum_cons]
        omega
      · simp only [LiveBet.cashOut, paidOf, List.singleton_append] at hpaid ⊢
        simp only [List.filter_cons, beq_self_eq_true, if_true, List.map_cons, List.sum_cons]
        omega
      · simp [paidOf]
    · refine ⟨⟨bet, ?_, hstake, ?_, ?_, hcap⟩, ?_⟩
      · rw [bet?_cashOut_of_ne fun heq => hu heq.symm]
        exact hbet
      · simpa [portionsOf, hu] using hportions
      · simpa [paidOf, hu] using hpaid
      · simp [paidOf, hu]

theorem Balanced.step {e : FlightEvent} (h : Balanced userId stake f.round f.exits)
    (hstep : flightStep curve f e = some f') :
    Balanced userId stake f'.round f'.exits ∧
      paidOf f.exits userId ≤ paidOf f'.exits userId := by
  cases flightStep_round hstep with
  | busts hround hexits =>
    rw [hround, hexits]
    exact ⟨h, le_rfl⟩
  | exits es hround hexits =>
    rw [hexits]
    exact h.exits hround

theorem Balanced.run {es : List FlightEvent} (h : Balanced userId stake f.round f.exits)
    (hrun : run (flightStep curve) f es = some f') :
    Balanced userId stake f'.round f'.exits ∧
      paidOf f.exits userId ≤ paidOf f'.exits userId := by
  induction es generalizing f with
  | nil =>
    cases hrun
    exact ⟨h, le_rfl⟩
  | cons e es ih =>
    obtain ⟨g, hstep, hrest⟩ := run_cons_eq_some.mp hrun
    obtain ⟨hg, hle⟩ := h.step hstep
    obtain ⟨hf', hle'⟩ := ih hg hrest
    exact ⟨hf', hle.trans hle'⟩

end Position

/-- For every bet and every sequence of exits of any kind, on any curve: the
portions that have left and the one that rides are the stake, the payout is
what the exits paid and stays within the stake and the cap, and nothing that
follows lowers it. -/
theorem position_conserved {curve : Int → Rat} {round : Round} {es fs : List FlightEvent}
    {f g : Flight} {bet : LiveBet} (hround : Launched round) (hbet : bet ∈ round.bets)
    (hrun : run (flightStep curve) (Flight.launch round) es = some f)
    (hrest : run (flightStep curve) f fs = some g) :
    ∃ now later, f.round.bet? bet.userId = some now ∧ g.round.bet? bet.userId = some later ∧
      portionsOf f.exits bet.userId + now.amountLamports = bet.amountLamports ∧
      now.payoutLamports = paidOf f.exits bet.userId ∧
      now.payoutLamports ≤ bet.amountLamports + MAX_NET_WIN ∧
      now.payoutLamports ≤ later.payoutLamports := by
  have hlaunch : Balanced bet.userId bet.amountLamports (Flight.launch round).round
      (Flight.launch round).exits := Balanced.launch hround hbet
  obtain ⟨hbalanced, -⟩ := hlaunch.run hrun
  obtain ⟨hlater, hle⟩ := hbalanced.run hrest
  obtain ⟨now, hnow, -, hportions, hpaid, hcap⟩ := hbalanced
  obtain ⟨later, hlater, -, -, hpaid', -⟩ := hlater
  refine ⟨now, later, hnow, hlater, hportions, hpaid, hcap, ?_⟩
  rw [hpaid, hpaid']
  exact hle

/-- Half of a bet leaves at 1.5. -/
theorem position_conserved_sample :
    ∃ f now, run (flightStep Sample.curve) (Flight.launch Sample.airborne)
        [.cashOut 8 50 1500] = some f ∧ f.round.bet? 8 = some now ∧
      portionsOf f.exits 8 + now.amountLamports = 50000000000 ∧
      now.payoutLamports ≤ 50000000000 + MAX_NET_WIN := by
  have hruns : run (flightStep Sample.curve) (Flight.launch Sample.airborne)
      [.cashOut 8 50 1500] = some _ := rfl
  obtain ⟨now, _, hnow, -, hportions, -, hcap, -⟩ :=
    position_conserved Sample.airborne_launched Sample.mem_airborne hruns (run_nil _)
  exact ⟨_, now, hruns, hnow, hportions, hcap⟩

end Scadium.Games.Crash
