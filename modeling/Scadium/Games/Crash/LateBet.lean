/-
Scadium.Games.Crash.LateBet — late bets in crash.

The bet transaction of the service does not look at the status of the round
row, so a debit can commit against a round that is already terminal; what
keeps the bet out is the engine's decision after the commit. A window that
is closed never opens again: a round is held in memory in one place, moves
from its opening to the engine, and only ever closes there (`Calm`,
`Places`). So once a round has become terminal with its window closed, every
later bet on it is refused.
-/
import Scadium.Games.Crash.SettleTheorems
import Scadium.Games.Crash.System

namespace Scadium.Games.Crash

open Scadium.Lib Scadium.Prisma

variable {cfg : Config} {s s' t : State}

/-- Some process takes bets on the round, or may install it open. -/
def Opened (held : Place → Option Round) (r : RoundId) : Prop :=
  ∃ p round, held p = some round ∧ round.id = r ∧ round.isOpen = true

/-! ## Steps that open nothing -/

/-- The rounds in memory are those from before, as open as before or less;
no row of a round is lost, no call and no settle is new. -/
structure Calm (s s' : State) : Prop where
  held : ∀ p round', s'.held p = some round' → ∃ round, s.held p = some round ∧
    round'.id = round.id ∧ (round'.isOpen = true → round.isOpen = true) ∧
    ∀ i k, p = .opening i k → round' = round
  rounds : ∀ r row, s.db.crashRounds r = some row → ∃ row', s'.db.crashRounds r = some row'
  calls : ∀ c p', s'.calls c = some p' → ∃ p, s.calls c = some p ∧ p'.call = p.call ∧
    p'.inst = p.inst ∧ p'.alive = p.alive
  settles : ∀ k st, s'.settles k = some st → s.settles k = some st

namespace Calm

theorem refl (s : State) : Calm s s where
  held := fun _ round h => ⟨round, h, rfl, id, fun _ _ _ => rfl⟩
  rounds := fun _ row h => ⟨row, h⟩
  calls := fun _ p h => ⟨p, h, rfl, rfl, rfl⟩
  settles := fun _ _ h => h

theorem trans (h : Calm s s') (h' : Calm s' t) : Calm s t where
  held := by
    intro p round'' hheld
    obtain ⟨round', hheld', hid', hopen', hsame'⟩ := h'.held p round'' hheld
    obtain ⟨round, hheld₀, hid, hopen, hsame⟩ := h.held p round' hheld'
    refine ⟨round, hheld₀, hid'.trans hid, fun ho => hopen (hopen' ho), ?_⟩
    intro i k hp
    rw [hsame' i k hp, hsame i k hp]
  rounds := by
    intro r row hrow
    obtain ⟨row', hrow'⟩ := h.rounds r row hrow
    exact h'.rounds r row' hrow'
  calls := by
    intro c p'' hcall
    obtain ⟨p', hcall', hc', hi', ha'⟩ := h'.calls c p'' hcall
    obtain ⟨p, hcall₀, hc, hi, ha⟩ := h.calls c p' hcall'
    exact ⟨p, hcall₀, hc'.trans hc, hi'.trans hi, ha'.trans ha⟩
  settles := fun k st hst => h.settles k st (h'.settles k st hst)

/-- A change of what `Calm` does not read. -/
theorem of_eq (h : Calm s s') (hheld : t.held = s'.held) (hdb : t.db = s'.db)
    (hcalls : t.calls = s'.calls) (hsettles : t.settles = s'.settles) : Calm s t where
  held := by
    rw [hheld]
    exact h.held
  rounds := by
    rw [hdb]
    exact h.rounds
  calls := by
    rw [hcalls]
    exact h.calls
  settles := by
    rw [hsettles]
    exact h.settles

/-- The round of an engine changes and does not open. -/
theorem assign {i : Inst} {round round' : Round} (hheld : s.held (.engine i) = some round)
    (hid : round'.id = round.id) (hopen : round'.isOpen = true → round.isOpen = true) :
    Calm s (s.setHeld (.engine i) (some round')) where
  held := by
    intro p round'' h
    simp only [State.setHeld, Function.update_apply] at h
    split at h
    · rename_i hp
      cases h
      exact ⟨round, by rw [hp, hheld], hid, hopen, by simp [hp]⟩
    · exact ⟨round'', h, rfl, id, fun _ _ _ => rfl⟩
  rounds := fun _ row h => ⟨row, h⟩
  calls := fun _ p h => ⟨p, h, rfl, rfl, rfl⟩
  settles := fun _ _ h => h

/-- A place is given up. -/
theorem drop (s : State) (p : Place) : Calm s (s.setHeld p none) where
  held := by
    intro q round h
    simp only [State.setHeld, Function.update_apply] at h
    split at h
    · cases h
    · exact ⟨round, h, rfl, id, fun _ _ _ => rfl⟩
  rounds := fun _ row h => ⟨row, h⟩
  calls := fun _ p h => ⟨p, h, rfl, rfl, rfl⟩
  settles := fun _ _ h => h

theorem move {c : EntryId} {p : Placing} (hcall : s.calls c = some p) (phase : BetPhase) :
    Calm s (s.move c p phase) where
  held := fun _ round h => ⟨round, h, rfl, id, fun _ _ _ => rfl⟩
  rounds := fun _ row h => ⟨row, h⟩
  calls := by
    intro c' p' h
    simp only [State.move, State.setCall, Function.update_apply] at h
    split at h
    · rename_i hc
      cases h
      exact ⟨p, by rw [hc, hcall], rfl, rfl, rfl⟩
    · exact ⟨p', h, rfl, rfl, rfl⟩
  settles := fun _ _ h => h

/-- A write that keeps the rows of the rounds. -/
theorem write {db' : Db} (h : Calm s s')
    (hrounds : ∀ r row, s'.db.crashRounds r = some row → ∃ row', db'.crashRounds r = some row') :
    Calm s { s' with db := db' } where
  held := h.held
  rounds := by
    intro r row hrow
    obtain ⟨row', hrow'⟩ := h.rounds r row hrow
    exact hrounds r row' hrow'
  calls := h.calls
  settles := h.settles

theorem write_eq {db' : Db} (h : Calm s s') (hrounds : db'.crashRounds = s'.db.crashRounds) :
    Calm s { s' with db := db' } := by
  refine h.write ?_
  intro r row hrow
  exact ⟨row, by rw [hrounds, hrow]⟩

end Calm

/-- A claimed round keeps its row, and the others theirs. -/
theorem Claims.keepsRows {r : RoundId} {db db' : Db} (h : Claims r db db') {q : RoundId}
    {row : CrashRound} (hrow : db.crashRounds q = some row) :
    ∃ row', db'.crashRounds q = some row' := by
  obtain ⟨_, row', -, -, -, hrounds⟩ := h
  by_cases hq : q = r
  · exact ⟨row', by simp [hrounds, hq]⟩
  · exact ⟨row, by simp [hrounds, hq, hrow]⟩

theorem writeRunning_cases (r : RoundId) (db : Db) :
    writeRunning r db = db ∨ ∃ row, db.crashRounds r = some row ∧ writeRunning r db =
      { db with crashRounds :=
          Function.update db.crashRounds r (some { row with status := .running }) } := by
  unfold writeRunning updateRow
  cases hrow : db.crashRounds r with
  | none => exact .inl rfl
  | some row => exact .inr ⟨row, rfl, rfl⟩

theorem writeRunning_rows {r q : RoundId} {db : Db} {row : CrashRound}
    (hrow : db.crashRounds q = some row) : ∃ row', (writeRunning r db).crashRounds q = some row' := by
  rcases writeRunning_cases r db with heq | ⟨row₀, _, heq⟩
  · exact ⟨row, by rw [heq, hrow]⟩
  · by_cases hq : q = r
    · exact ⟨{ row₀ with status := .running }, by simp [heq, hq]⟩
    · exact ⟨row, by simp [heq, hq, hrow]⟩

/-! ## Where a round can be -/

/-- Every round is held in one place, and has its row; the calls on a round
that is still held are those of the process that holds it; the round of a
settle is not open any more. -/
structure Places (s : State) : Prop where
  distinct : ∀ p q round round', s.held p = some round → s.held q = some round' →
    round.id = round'.id → p = q
  stored : ∀ p round, s.held p = some round → ∃ row, s.db.crashRounds round.id = some row
  empty : ∀ i k round, s.held (.opening i k) = some round → round.bets = []
  called : ∀ c p, s.calls c = some p → ∃ row, s.db.crashRounds p.call.roundId = some row
  caller : ∀ c p q round, s.calls c = some p → s.held q = some round →
    round.id = p.call.roundId → q = .engine p.inst ∧ p.alive = true
  settling : ∀ k st, s.settles k = some st → (∃ row, s.db.crashRounds st.roundId = some row) ∧
    ∀ q round, s.held q = some round → round.id = st.roundId → round.isOpen = false

namespace Places

theorem boot (db : Db) : Places (State.boot db) where
  distinct := by simp [State.boot]
  stored := by simp [State.boot]
  empty := by simp [State.boot]
  called := by simp [State.boot]
  caller := by simp [State.boot]
  settling := by simp [State.boot]

theorem calm (hs : Places s) (h : Calm s s') : Places s' where
  distinct := by
    intro p q round round' hp hq hid
    obtain ⟨old, hold, hid₁, -⟩ := h.held p round hp
    obtain ⟨old', hold', hid₂, -⟩ := h.held q round' hq
    exact hs.distinct p q old old' hold hold' (by rw [← hid₁, hid, hid₂])
  stored := by
    intro p round hp
    obtain ⟨old, hold, hid, -⟩ := h.held p round hp
    obtain ⟨row, hrow⟩ := hs.stored p old hold
    rw [hid]
    exact h.rounds _ row hrow
  empty := by
    intro i k round hp
    obtain ⟨old, hold, -, -, hsame⟩ := h.held _ round hp
    rw [hsame i k rfl]
    exact hs.empty i k old hold
  called := by
    intro c p' hc
    obtain ⟨p, hp, hcall, -⟩ := h.calls c p' hc
    obtain ⟨row, hrow⟩ := hs.called c p hp
    rw [hcall]
    exact h.rounds _ row hrow
  caller := by
    intro c p' q round hc hq hid
    obtain ⟨p, hp, hcall, hinst, halive⟩ := h.calls c p' hc
    obtain ⟨old, hold, hid', -⟩ := h.held q round hq
    rw [hinst, halive]
    exact hs.caller c p q old hp hold (by rw [← hid', hid, hcall])
  settling := by
    intro k st hst
    obtain ⟨⟨row, hrow⟩, hclosed⟩ := hs.settling k st (h.settles k st hst)
    refine ⟨h.rounds _ row hrow, ?_⟩
    intro q round hq hid
    obtain ⟨old, hold, hid', hopen, -⟩ := h.held q round hq
    have hold_closed : old.isOpen = false := hclosed q old hold (by rw [← hid', hid])
    cases hround : round.isOpen with
    | false => rfl
    | true => rw [hopen hround] at hold_closed; cases hold_closed

end Places

theorem createRound_rows {created : Created} {beaconRound : Option Int} {db : Db}
    {q : RoundId} {row : CrashRound} (hrow : db.crashRounds q = some row) :
    ∃ row', (createRound created beaconRound db).crashRounds q = some row' := by
  by_cases hq : q = created.id
  · simp [createRound, hq]
  · exact ⟨row, by simp [createRound, hq, hrow]⟩

/-- A round whose id is new to the database. -/
theorem Places.create (hs : Places s) {i : Inst} {k : Nat} {created : Created} {openedAt : Time}
    {beaconRound : Option Int} (h : stepCreate s i k created openedAt beaconRound = some s') :
    Places s' := by
  obtain ⟨hfresh, -, rfl⟩ := create_ok h
  have hnew : ∀ q round, s.held q = some round → round.id ≠ created.id := by
    intro q round hq hid
    obtain ⟨row, hrow⟩ := hs.stored q round hq
    rw [hid, hfresh] at hrow
    cases hrow
  have hheld : ∀ q round, Function.update s.held (.opening i k)
      (some (created.round openedAt beaconRound)) q = some round →
      (q = .opening i k ∧ round = created.round openedAt beaconRound) ∨ s.held q = some round := by
    intro q round hq
    rw [Function.update_apply] at hq
    split at hq
    · rename_i heq
      exact .inl ⟨heq, (Option.some.inj hq).symm⟩
    · exact .inr hq
  refine ⟨?_, ?_, ?_, ?_, ?_, ?_⟩
  · intro p q round round' hp hq hid
    rcases hheld p round hp with ⟨rfl, rfl⟩ | hp
    · rcases hheld q round' hq with ⟨rfl, -⟩ | hq
      · rfl
      · exact absurd hid.symm (hnew q round' hq)
    · rcases hheld q round' hq with ⟨rfl, rfl⟩ | hq
      · exact absurd hid (hnew p round hp)
      · exact hs.distinct p q round round' hp hq hid
  · intro p round hp
    rcases hheld p round hp with ⟨-, rfl⟩ | hp
    · exact ⟨_, Function.update_self _ _ _⟩
    · obtain ⟨row, hrow⟩ := hs.stored p round hp
      exact createRound_rows hrow
  · intro i' k' round hp
    rcases hheld _ round hp with ⟨-, rfl⟩ | hp
    · rfl
    · exact hs.empty i' k' round hp
  · intro c p hc
    obtain ⟨row, hrow⟩ := hs.called c p hc
    exact createRound_rows hrow
  · intro c p q round hc hq hid
    rcases hheld q round hq with ⟨-, rfl⟩ | hq
    · obtain ⟨row, hrow⟩ := hs.called c p hc
      rw [← hid] at hrow
      exact absurd (hfresh.symm.trans hrow) (by simp)
    · exact hs.caller c p q round hc hq hid
  · intro k' st hst
    obtain ⟨⟨_, hrow⟩, hclosed⟩ := hs.settling k' st hst
    refine ⟨createRound_rows hrow, ?_⟩
    intro q round hq hid
    rcases hheld q round hq with ⟨-, rfl⟩ | hq
    · rw [← hid] at hrow
      exact absurd (hfresh.symm.trans hrow) (by simp)
    · exact hclosed q round hq hid

/-- The round moves from its opening to the engine. -/
theorem install_held {i : Inst} {k : Nat} {round₀ : Round} {q : Place} {round : Round}
    (hround₀ : s.held (.opening i k) = some round₀)
    (hq : ((s.setHeld (.opening i k) none).setHeld (.engine i) (some round₀)).held q = some round) :
    ∃ p, s.held p = some round ∧ (q = p ∧ p ≠ .opening i k ∨ q = .engine i ∧ p = .opening i k) := by
  simp only [State.setHeld, Function.update_apply] at hq
  split at hq
  · rename_i heq
    cases hq
    exact ⟨_, hround₀, .inr ⟨heq, rfl⟩⟩
  · split at hq
    · cases hq
    · rename_i hne
      exact ⟨q, hq, .inl ⟨rfl, hne⟩⟩

theorem Places.install (hs : Places s) {i : Inst} {k : Nat} (h : stepInstall s i k = some s') :
    Places s' := by
  obtain ⟨_, hround₀, rfl⟩ := install_ok h
  refine ⟨?_, ?_, ?_, hs.called, ?_, ?_⟩
  · intro p q round round' hp hq hid
    obtain ⟨p', hp', hpp⟩ := install_held hround₀ hp
    obtain ⟨q', hq', hqq⟩ := install_held hround₀ hq
    have heq : p' = q' := hs.distinct p' q' round round' hp' hq' hid
    rcases hpp with ⟨rfl, hne⟩ | ⟨rfl, rfl⟩
    · rcases hqq with ⟨rfl, -⟩ | ⟨-, rfl⟩
      · exact heq
      · exact absurd heq hne
    · rcases hqq with ⟨rfl, hne⟩ | ⟨rfl, -⟩
      · exact absurd heq.symm hne
      · rfl
  · intro p round hp
    obtain ⟨p', hp', -⟩ := install_held hround₀ hp
    exact hs.stored p' round hp'
  · intro i' k' round hp
    obtain ⟨_, hp', ⟨rfl, -⟩ | ⟨heq, -⟩⟩ := install_held hround₀ hp
    · exact hs.empty i' k' round hp'
    · cases heq
  · intro c p q round hc hq hid
    obtain ⟨q', hq', ⟨rfl, -⟩ | ⟨-, rfl⟩⟩ := install_held hround₀ hq
    · exact hs.caller c p q round hc hq' hid
    · -- nobody calls on a round that is not installed
      have hengine := (hs.caller c p _ round hc hq' hid).1
      cases hengine
  · intro k' st hst
    obtain ⟨hrow, hclosed⟩ := hs.settling k' st hst
    refine ⟨hrow, ?_⟩
    intro q round hq hid
    obtain ⟨q', hq', -⟩ := install_held hround₀ hq
    exact hclosed q' round hq' hid

theorem Places.begin (hs : Places s) {c : EntryId} {i : Inst} {call : BetCall}
    (h : stepBegin s c i call = some s') : Places s' := by
  obtain ⟨-, ⟨round₀, hround₀, hid₀⟩, rfl⟩ := begin_ok h
  refine ⟨hs.distinct, hs.stored, hs.empty, ?_, ?_, hs.settling⟩
  · intro c' p hc
    simp only [State.setCall, Function.update_apply] at hc
    split at hc
    · cases hc
      rw [hid₀]
      exact hs.stored _ round₀ hround₀
    · exact hs.called c' p hc
  · intro c' p q round hc hq hid
    simp only [State.setCall, Function.update_apply] at hc
    split at hc
    · cases hc
      exact ⟨hs.distinct q _ round round₀ hq hround₀ (hid.trans hid₀), rfl⟩
    · exact hs.caller c' p q round hc hq hid

/-- The settle of a round begins when it goes bust. -/
theorem Places.bust (hs : Places s) {i : Inst} {k : Nat} (h : stepBust s i k = some s') :
    Places s' := by
  obtain ⟨round₀, hround₀, -, -, rfl⟩ := bust_ok h
  have hcalm : Calm s (s.setHeld (.engine i) (some { round₀ with phase := .busted })) :=
    Calm.assign hround₀ rfl (by simp [Round.isOpen])
  have hbusted := hs.calm hcalm
  refine ⟨hbusted.distinct, hbusted.stored, hbusted.empty, hbusted.called, hbusted.caller, ?_⟩
  intro k' st hst
  simp only [Function.update_apply] at hst
  split at hst
  · cases hst
    refine ⟨hs.stored _ round₀ hround₀, ?_⟩
    intro q round hq hid
    have hengine : q = .engine i := hbusted.distinct q (.engine i) round
      { round₀ with phase := .busted } hq (Function.update_self _ _ _) hid
    subst hengine
    simp only [State.setHeld, Function.update_self, Option.some.injEq] at hq
    simp [← hq, Round.isOpen]
  · exact hbusted.settling k' st hst

theorem Places.kill (hs : Places s) (i : Inst) : Places (stepKill s i) := by
  have hheld : ∀ q round, (stepKill s i).held q = some round →
      s.held q = some round ∧ q.inst ≠ i := by
    intro q round hq
    simp only [stepKill] at hq
    split at hq
    · cases hq
    · rename_i hne
      exact ⟨hq, hne⟩
  have hcalls : ∀ c p', (stepKill s i).calls c = some p' → ∃ p, s.calls c = some p ∧
      p'.call = p.call ∧ p'.inst = p.inst ∧ (p.inst ≠ i → p'.alive = p.alive) := by
    intro c p' hc
    simp only [stepKill, Option.map_eq_some_iff] at hc
    obtain ⟨p, hp, rfl⟩ := hc
    refine ⟨p, hp, ?_⟩
    split
    · rename_i hi
      exact ⟨rfl, rfl, fun hne => absurd hi hne⟩
    · exact ⟨rfl, rfl, fun _ => rfl⟩
  refine ⟨?_, ?_, ?_, ?_, ?_, ?_⟩
  · intro p q round round' hp hq hid
    exact hs.distinct p q round round' (hheld p round hp).1 (hheld q round' hq).1 hid
  · intro p round hp
    exact hs.stored p round (hheld p round hp).1
  · intro i' k round hp
    exact hs.empty i' k round (hheld _ round hp).1
  · intro c p' hc
    obtain ⟨p, hp, hcall, -⟩ := hcalls c p' hc
    rw [hcall]
    exact hs.called c p hp
  · intro c p' q round hc hq hid
    obtain ⟨p, hp, hcall, hinst, halive⟩ := hcalls c p' hc
    obtain ⟨hq', hne⟩ := hheld q round hq
    obtain ⟨hengine, halive₀⟩ := hs.caller c p q round hp hq' (by rw [hid, hcall])
    rw [hinst]
    refine ⟨hengine, ?_⟩
    rw [hengine] at hne
    rw [halive hne, halive₀]
  · intro k st hst
    simp only [stepKill, Option.filter_eq_some_iff] at hst
    obtain ⟨hrow, hclosed⟩ := hs.settling k st hst.1
    exact ⟨hrow, fun q round hq hid => hclosed q round (hheld q round hq).1 hid⟩

/-- The steps that bring a round, a call or a settle into being, move a round
or stop a process. -/
def Event.Moves : Event → Prop
  | .create .. | .install .. | .begin .. | .bust .. | .kill .. => True
  | _ => False

theorem placeBet_calm {i : Inst} {chainEnabled draining : Bool} {round round' : Round}
    {params : BetParams} (hheld : s.held (.engine i) = some round)
    (h : placeBet chainEnabled draining round params = .ok round') :
    Calm s (s.setHeld (.engine i) (some round')) := by
  obtain ⟨-, -, -, -, _, -, rfl⟩ := placeBet_ok h
  exact Calm.assign hheld rfl id

/-- All other steps are calm. -/
theorem step_calm {e : Event} (he : ¬ e.Moves) (h : step cfg s e = some s') : Calm s s' := by
  cases e with
  | create | install | begin | bust | kill => exact absurd trivial he
  | abandon =>
    cases h
    exact Calm.drop s _
  | commit =>
    obtain ⟨p, hcall, -, -, rfl | ⟨db', hdebited, rfl⟩⟩ := commit_ok h
    · exact Calm.move hcall _
    · exact (Calm.move hcall _).write_eq hdebited.rounds
  | decide c =>
    obtain ⟨p, round, hcall, -, -, hheld, rfl | ⟨round', hplace, rfl⟩⟩ := decide_ok h
    · exact Calm.move hcall _
    · have hcall' : (s.setHeld (.engine p.inst) (some round')).calls c = some p := hcall
      exact (placeBet_calm hheld hplace).trans (Calm.move hcall' _)
  | refund =>
    obtain ⟨p, hcall, -, -, rfl | ⟨db', htables, -, rfl⟩⟩ := refund_ok h
    · exact Calm.move hcall _
    · exact (Calm.move hcall _).write_eq (congrArg Prod.fst htables)
  | deleteRow c deleted =>
    obtain ⟨p, hcall, -, -, rfl⟩ := deleteRow_ok h
    refine (Calm.move hcall .done).write_eq ?_
    cases deleted with
    | true => rfl
    | false => rfl
  | dropKey =>
    obtain ⟨db', haside, rfl⟩ := dropKey_ok h
    exact (Calm.refl s).write_eq haside.rounds
  | creditReferrer =>
    obtain ⟨db', haside, rfl⟩ := creditReferrer_ok h
    exact (Calm.refl s).write_eq haside.rounds
  | storeKey =>
    obtain ⟨_, haside, rfl⟩ := storeKey_ok h
    exact (Calm.refl s).write_eq haside.rounds
  | closeBets =>
    obtain ⟨round, hheld, -, rfl⟩ := round_ok h
    exact Calm.assign hheld rfl (by simp [Round.isOpen])
  | fly i =>
    obtain ⟨round, hheld, rfl⟩ := fly_ok h
    have hassign : Calm s (s.setHeld (.engine i) (some { round with phase := .running })) :=
      Calm.assign hheld rfl (by simp [Round.isOpen])
    exact hassign.of_eq rfl rfl rfl rfl
  | writeRunning i r written =>
    rw [writeRunning_ok h]
    have hwrite : Calm s { s with db := if written then writeRunning r s.db else s.db } := by
      refine (Calm.refl s).write ?_
      intro q row hrow
      cases written with
      | true => exact writeRunning_rows hrow
      | false => exact ⟨row, hrow⟩
    exact hwrite.of_eq rfl rfl rfl rfl
  | cashOut i userId portion payout m =>
    obtain ⟨round, _, hheld, rfl⟩ := stepCashOut_ok h
    have hassign : Calm s (s.setHeld (.engine i) (some (round.cashOut userId portion payout m))) :=
      Calm.assign hheld rfl id
    exact hassign.of_eq rfl rfl rfl rfl
  | persistCashOut co written =>
    rw [persistCashOut_ok h]
    have hwrite : Calm s { s with db := if written then persistCashOut co s.db else s.db } := by
      refine (Calm.refl s).write_eq ?_
      cases written with
      | true => rfl
      | false => rfl
    exact hwrite.of_eq rfl rfl rfl rfl
  | settle =>
    obtain rfl | ⟨st, _, t, hst, _, hrun, rfl⟩ := settle_ok h
    · exact Calm.refl _
    · have hclaims := (settleTx_claims hrun).2
      refine ⟨fun _ round h => ⟨round, h, rfl, id, fun _ _ _ => rfl⟩,
        fun _ _ hrow => hclaims.keepsRows hrow, fun _ p h => ⟨p, h, rfl, rfl, rfl⟩, ?_⟩
      intro k' st' hst'
      simp only [Function.update_apply] at hst'
      split at hst'
      · cases hst'
      · exact hst'
  | giveUp =>
    cases h
    refine ⟨(Calm.refl s).held, (Calm.refl s).rounds, (Calm.refl s).calls, ?_⟩
    intro k' st hst
    simp only [Function.update_apply] at hst
    split at hst
    · cases hst
    · exact hst
  | readBets =>
    obtain ⟨_, -, rfl⟩ := readBets_ok h
    exact (Calm.refl s).of_eq rfl rfl rfl rfl
  | recover =>
    obtain rfl | ⟨_, t, -, hrun, rfl⟩ := recover_ok h
    · exact Calm.refl _
    · have hwrite : Calm s { s with db := t.db } :=
        (Calm.refl s).write fun _ _ hrow => (recoverTx_claims hrun).keepsRows hrow
      exact hwrite.of_eq rfl rfl rfl rfl
  | skip | drain =>
    cases h
    exact (Calm.refl s).of_eq rfl rfl rfl rfl

theorem Places.step {e : Event} (hs : Places s) (h : step cfg s e = some s') : Places s' := by
  by_cases he : e.Moves
  · cases e with
    | create => exact hs.create h
    | install => exact hs.install h
    | begin => exact hs.begin h
    | bust => exact hs.bust h
    | kill i =>
      cases h
      exact hs.kill i
    | _ => exact he.elim
  · exact hs.calm (step_calm he h)

theorem run_places {start : Db} {es : List Event} (hrun : run (step cfg) (State.boot start) es = some t) :
    Places t :=
  run_invariant (P := Places) (fun _ _ _ hs h => hs.step h) (Places.boot start) hrun

/-! ## What any step does to the rounds -/

/-- A round in memory was there before, as open as now or more, or is new. -/
theorem step_held {e : Event} (h : step cfg s e = some s') {p : Place} {round' : Round}
    (hheld : s'.held p = some round') :
    (∃ q round, s.held q = some round ∧ round.id = round'.id ∧
      (round'.isOpen = true → round.isOpen = true)) ∨ s.db.crashRounds round'.id = none := by
  by_cases he : e.Moves
  · cases e with
    | create =>
      obtain ⟨hfresh, -, rfl⟩ := create_ok h
      simp only [State.setHeld, Function.update_apply] at hheld
      split at hheld
      · cases hheld
        exact .inr hfresh
      · exact .inl ⟨p, round', hheld, rfl, id⟩
    | install =>
      obtain ⟨round₀, hround₀, rfl⟩ := install_ok h
      obtain ⟨q, hq, -⟩ := install_held hround₀ hheld
      exact .inl ⟨q, round', hq, rfl, id⟩
    | begin =>
      obtain ⟨-, -, rfl⟩ := begin_ok h
      exact .inl ⟨p, round', hheld, rfl, id⟩
    | bust i =>
      obtain ⟨round₀, hround₀, -, -, rfl⟩ := bust_ok h
      have hcalm : Calm s (s.setHeld (.engine i) (some { round₀ with phase := .busted })) :=
        Calm.assign hround₀ rfl (by simp [Round.isOpen])
      obtain ⟨round, hround, hid, hopen, -⟩ := hcalm.held p round' hheld
      exact .inl ⟨p, round, hround, hid.symm, hopen⟩
    | kill =>
      cases h
      simp only [stepKill] at hheld
      split at hheld
      · cases hheld
      · exact .inl ⟨p, round', hheld, rfl, id⟩
    | _ => exact he.elim
  · obtain ⟨round, hround, hid, hopen, -⟩ := (step_calm he h).held p round' hheld
    exact .inl ⟨p, round, hround, hid.symm, hopen⟩

/-- A call was there before, or names a round in memory. -/
theorem step_calls {e : Event} (h : step cfg s e = some s') {c : EntryId} {p' : Placing}
    (hcall : s'.calls c = some p') :
    (∃ p, s.calls c = some p ∧ p'.call = p.call) ∨
      ∃ q round, s.held q = some round ∧ round.id = p'.call.roundId := by
  by_cases he : e.Moves
  · cases e with
    | create =>
      obtain ⟨-, -, rfl⟩ := create_ok h
      exact .inl ⟨p', hcall, rfl⟩
    | install =>
      obtain ⟨_, -, rfl⟩ := install_ok h
      exact .inl ⟨p', hcall, rfl⟩
    | begin =>
      obtain ⟨-, ⟨round, hround, hid⟩, rfl⟩ := begin_ok h
      simp only [State.setCall, Function.update_apply] at hcall
      split at hcall
      · cases hcall
        exact .inr ⟨_, round, hround, hid.symm⟩
      · exact .inl ⟨p', hcall, rfl⟩
    | bust =>
      obtain ⟨_, -, -, -, rfl⟩ := bust_ok h
      exact .inl ⟨p', hcall, rfl⟩
    | kill =>
      cases h
      simp only [stepKill, Option.map_eq_some_iff] at hcall
      obtain ⟨p, hp, rfl⟩ := hcall
      refine .inl ⟨p, hp, ?_⟩
      split
      · rfl
      · rfl
    | _ => exact he.elim
  · obtain ⟨p, hp, hc, -⟩ := (step_calm he h).calls c p' hcall
    exact .inl ⟨p, hp, hc⟩

/-- What a step does to the table of the rounds and to the log. -/
inductive RoundsStep (s s' : State) : Prop
  | same (hrounds : s'.db.crashRounds = s.db.crashRounds) (hlog : s'.terminals = s.terminals)
  | created (r : RoundId) (row : CrashRound) (hfresh : s.db.crashRounds r = none)
      (hstatus : row.status = .waiting)
      (hrounds : s'.db.crashRounds = Function.update s.db.crashRounds r (some row))
      (hlog : s'.terminals = s.terminals)
  | running (r : RoundId) (row : CrashRound) (hrow : s.db.crashRounds r = some row)
      (hrounds : s'.db.crashRounds =
        Function.update s.db.crashRounds r (some { row with status := .running }))
      (hlog : s'.terminals = s.terminals)
  | claimed (r : RoundId) (hclaims : Claims r s.db s'.db)
      (hlog : s'.terminals = ⟨r, s.held⟩ :: s.terminals) (hheld : s'.held = s.held)

theorem step_rounds {e : Event} (h : step cfg s e = some s') : RoundsStep s s' := by
  cases e with
  | create i k created =>
    obtain ⟨hfresh, -, rfl⟩ := create_ok h
    exact .created created.id _ hfresh rfl rfl rfl
  | install => obtain ⟨_, -, rfl⟩ := install_ok h; exact .same rfl rfl
  | abandon | giveUp | skip | drain | kill => cases h; exact .same rfl rfl
  | begin => obtain ⟨-, -, rfl⟩ := begin_ok h; exact .same rfl rfl
  | commit =>
    obtain ⟨p, -, -, -, rfl | ⟨db', hdebited, rfl⟩⟩ := commit_ok h
    · exact .same rfl rfl
    · exact .same hdebited.rounds rfl
  | decide =>
    obtain ⟨p, _, -, -, -, -, rfl | ⟨_, -, rfl⟩⟩ := decide_ok h
    · exact .same rfl rfl
    · exact .same rfl rfl
  | refund =>
    obtain ⟨p, -, -, -, rfl | ⟨db', htables, -, rfl⟩⟩ := refund_ok h
    · exact .same rfl rfl
    · exact .same (congrArg Prod.fst htables) rfl
  | deleteRow c deleted =>
    obtain ⟨p, -, -, -, rfl⟩ := deleteRow_ok h
    cases deleted with
    | true | false => exact .same rfl rfl
  | dropKey => obtain ⟨db', haside, rfl⟩ := dropKey_ok h; exact .same haside.rounds rfl
  | creditReferrer =>
    obtain ⟨db', haside, rfl⟩ := creditReferrer_ok h
    exact .same haside.rounds rfl
  | storeKey => obtain ⟨_, haside, rfl⟩ := storeKey_ok h; exact .same haside.rounds rfl
  | closeBets => obtain ⟨_, -, -, rfl⟩ := round_ok h; exact .same rfl rfl
  | fly => obtain ⟨_, -, rfl⟩ := fly_ok h; exact .same rfl rfl
  | writeRunning i r written =>
    rw [writeRunning_ok h]
    cases written with
    | false => exact .same rfl rfl
    | true =>
      rcases writeRunning_cases r s.db with heq | ⟨row, hrow, heq⟩
      · exact .same (by simp [heq]) rfl
      · exact .running r row hrow (by simp [heq]) rfl
  | cashOut => obtain ⟨_, _, -, rfl⟩ := stepCashOut_ok h; exact .same rfl rfl
  | persistCashOut co written =>
    rw [persistCashOut_ok h]
    cases written with
    | true | false => exact .same rfl rfl
  | bust => obtain ⟨_, -, -, -, rfl⟩ := bust_ok h; exact .same rfl rfl
  | settle =>
    obtain rfl | ⟨_, current, t, _, _, hrun, rfl⟩ := settle_ok h
    · exact .same rfl rfl
    · exact .claimed current.id (settleTx_claims hrun).2 rfl rfl
  | readBets => obtain ⟨_, -, rfl⟩ := readBets_ok h; exact .same rfl rfl
  | recover =>
    obtain rfl | ⟨rc, t, -, hrun, rfl⟩ := recover_ok h
    · exact .same rfl rfl
    · exact .claimed rc.round.id (recoverTx_claims hrun) rfl rfl

/-- No row of a round is ever lost. -/
theorem RoundsStep.row (h : RoundsStep s s') {q : RoundId} {row : CrashRound}
    (hrow : s.db.crashRounds q = some row) : ∃ row', s'.db.crashRounds q = some row' := by
  cases h with
  | same hrounds => exact ⟨row, by rw [hrounds, hrow]⟩
  | created r row' _ _ hrounds =>
    by_cases hq : q = r
    · exact ⟨row', by simp [hrounds, hq]⟩
    · exact ⟨row, by simp [hrounds, hq, hrow]⟩
  | running r row' _ hrounds =>
    by_cases hq : q = r
    · exact ⟨{ row' with status := .running }, by simp [hrounds, hq]⟩
    · exact ⟨row, by simp [hrounds, hq, hrow]⟩
  | claimed r hclaims => exact hclaims.keepsRows hrow

/-- A round that is terminal was so before, or is logged now. -/
theorem RoundsStep.busted (h : RoundsStep s s') {q : RoundId} (hbusted : Busted s'.db q) :
    Busted s.db q ∨ ∃ held, ⟨q, held⟩ ∈ s'.terminals := by
  obtain ⟨row', hrow', hstatus⟩ := hbusted
  cases h with
  | same hrounds =>
    rw [hrounds] at hrow'
    exact .inl ⟨row', hrow', hstatus⟩
  | created r row _ hwaiting hrounds =>
    rw [hrounds, Function.update_apply] at hrow'
    split at hrow'
    · cases hrow'
      rw [hwaiting] at hstatus
      cases hstatus
    · exact .inl ⟨row', hrow', hstatus⟩
  | running r row _ hrounds =>
    rw [hrounds, Function.update_apply] at hrow'
    split at hrow'
    · cases hrow'
      cases hstatus
    · exact .inl ⟨row', hrow', hstatus⟩
  | claimed r hclaims hlog =>
    obtain ⟨_, _, -, -, -, hrounds⟩ := hclaims
    rw [hrounds, Function.update_apply] at hrow'
    split at hrow'
    · rename_i hq
      exact .inr ⟨s.held, by simp [hlog, hq]⟩
    · exact .inl ⟨row', hrow', hstatus⟩

/-- The log only grows. -/
theorem RoundsStep.log (h : RoundsStep s s') {en : Terminal} (hen : en ∈ s.terminals) :
    en ∈ s'.terminals := by
  cases h with
  | same _ hlog => rwa [hlog]
  | created _ _ _ _ _ hlog => rwa [hlog]
  | running _ _ _ _ hlog => rwa [hlog]
  | claimed _ _ hlog => rw [hlog]; exact List.mem_cons_of_mem _ hen

/-! ## A closed window stays closed -/

/-- The logged rounds have their rows, and those that became terminal with
their window closed are closed. -/
def Shut (s : State) : Prop :=
  ∀ e ∈ s.terminals, (∃ row, s.db.crashRounds e.roundId = some row) ∧
    (¬ Opened e.held e.roundId → ¬ Opened s.held e.roundId)

theorem Shut.step {e : Event} (hs : Shut s) (h : step cfg s e = some s') : Shut s' := by
  have hsteps : RoundsStep s s' := step_rounds h
  have hold : ∀ en ∈ s.terminals, (∃ row, s'.db.crashRounds en.roundId = some row) ∧
      (¬ Opened en.held en.roundId → ¬ Opened s'.held en.roundId) := by
    intro en hen
    obtain ⟨⟨row, hrow⟩, hshut⟩ := hs en hen
    refine ⟨hsteps.row hrow, ?_⟩
    rintro hclosed ⟨p, _, hp, hid, hopen'⟩
    rcases step_held h hp with ⟨q, round, hq, hid', hopen⟩ | hnone
    · exact hshut hclosed ⟨q, round, hq, hid'.trans hid, hopen hopen'⟩
    · -- a new round has no row yet
      rw [hid, hrow] at hnone
      cases hnone
  cases hsteps with
  | same _ hlog | created _ _ _ _ _ hlog | running _ _ _ _ hlog => rw [Shut, hlog]; exact hold
  | claimed r hclaims hlog hheld =>
    intro en hen
    rw [hlog] at hen
    rcases List.mem_cons.mp hen with rfl | hen
    · obtain ⟨_, _, hrow, -⟩ := hclaims
      refine ⟨(step_rounds h).row hrow, ?_⟩
      intro hclosed
      rw [hheld]
      exact hclosed
    · exact hold en hen

/-! ## The log is complete -/

/-- A round that was in the database at the start is not held and not called
on; one that has become terminal since is in the log. -/
structure Logged (start : Db) (s : State) : Prop where
  kept : ∀ r row, start.crashRounds r = some row → ∃ row', s.db.crashRounds r = some row'
  held : ∀ p round, s.held p = some round → start.crashRounds round.id = none
  calls : ∀ c p, s.calls c = some p → start.crashRounds p.call.roundId = none
  log : ∀ r, Busted s.db r → Busted start r ∨ ∃ held, ⟨r, held⟩ ∈ s.terminals

theorem Logged.boot (start : Db) : Logged start (State.boot start) where
  kept := fun _ row hrow => ⟨row, hrow⟩
  held := by simp [State.boot]
  calls := by simp [State.boot]
  log := fun _ hbusted => .inl hbusted

theorem Logged.step {start : Db} {e : Event} (hs : Logged start s) (h : step cfg s e = some s') :
    Logged start s' where
  kept := by
    intro r row hrow
    obtain ⟨row', hrow'⟩ := hs.kept r row hrow
    exact (step_rounds h).row hrow'
  held := by
    intro p round' hp
    rcases step_held h hp with ⟨q, round, hq, hid, -⟩ | hnone
    · rw [← hid]
      exact hs.held q round hq
    · cases hstart : start.crashRounds round'.id with
      | none => rfl
      | some row =>
        obtain ⟨_, hrow'⟩ := hs.kept _ row hstart
        rw [hnone] at hrow'
        cases hrow'
  calls := by
    intro c p' hc
    rcases step_calls h hc with ⟨p, hp, hcall⟩ | ⟨q, round, hq, hid⟩
    · rw [hcall]
      exact hs.calls c p hp
    · rw [← hid]
      exact hs.held q round hq
  log := by
    intro r hbusted
    rcases (step_rounds h).busted hbusted with hbefore | hnow
    · rcases hs.log r hbefore with hstart | ⟨held, hlogged⟩
      · exact .inl hstart
      · exact .inr ⟨held, (step_rounds h).log hlogged⟩
    · exact .inr hnow

/-! ## Late bets -/

/-- The engine accepts a bet into an open round only. -/
theorem decide_closed {c : EntryId} {p : Placing} (hcall : s.calls c = some p)
    (hclosed : ¬ Opened s.held p.call.roundId) (h : step cfg s (.decide c) = some s') :
    s'.calls c = some { p with phase := .rejected } := by
  obtain ⟨_, round, hcall', -, -, hheld, rfl | ⟨_, hplace, -⟩⟩ := decide_ok h
  · rw [hcall] at hcall'
    cases hcall'
    exact Function.update_self _ _ _
  · obtain ⟨-, hopen, hid, -⟩ := placeBet_ok hplace
    rw [hcall] at hcall'
    cases hcall'
    exact absurd ⟨_, round, hheld, (hid _ rfl).symm, hopen⟩ hclosed

/-- For every interleaving of calls, openings, settles, recoveries, shutdowns
and kills: a round that is terminal is so from the start, and then nobody
calls on it, or its commit is logged; a bet on a round that became terminal
with its window closed is refused; and a settle of the round whose bust
began it always finds that window closed. -/
theorem late_bet_refused {start : Db} {es : List Event}
    (hrun : run (step cfg) (State.boot start) es = some t) :
    (∀ r, Busted t.db r → (∃ held, ⟨r, held⟩ ∈ t.terminals) ∨
      (Busted start r ∧ ∀ c p, t.calls c = some p → p.call.roundId ≠ r)) ∧
    (∀ e ∈ t.terminals, ¬ Opened e.held e.roundId → ∀ c p t', t.calls c = some p →
      p.call.roundId = e.roundId → step cfg t (.decide c) = some t' →
        t'.calls c = some { p with phase := .rejected }) ∧
    (∀ k st, t.settles k = some st → ¬ Opened t.held st.roundId) := by
  have hlogged : Logged start t :=
    run_invariant (P := Logged start) (fun _ _ _ hs h => hs.step h) (Logged.boot start) hrun
  have hboot : Shut (State.boot start) := by
    intro e he
    cases he
  have hshut : Shut t := run_invariant (P := Shut) (fun _ _ _ hs h => hs.step h) hboot hrun
  have hplaces : Places t := run_places hrun
  refine ⟨?_, ?_, ?_⟩
  · intro r hbusted
    rcases hlogged.log r hbusted with hstart | hlog
    · obtain ⟨row, hrow, hterminal⟩ := hstart
      refine .inr ⟨⟨row, hrow, hterminal⟩, ?_⟩
      intro c p hc hr
      have hnone := hlogged.calls c p hc
      rw [hr, hrow] at hnone
      cases hnone
    · exact .inl hlog
  · intro e he hclosed c p t' hc hr hdecide
    refine decide_closed hc ?_ hdecide
    rw [hr]
    exact (hshut e he).2 hclosed
  · rintro k st hst ⟨q, round, hq, hid, hopen⟩
    rw [(hplaces.settling k st hst).2 q round hq hid] at hopen
    cases hopen

/-- A bet on a settled round is debited, and refused. -/
theorem late_bet_refused_sample :
    ∃ t t' p, run (step Sample.cfg) (State.boot Sample.db) (Sample.settled ++ [.commit 5 none]) =
        some t ∧ t.calls 5 = some p ∧ p.phase = .committed ∧
      step Sample.cfg t (.decide 5) = some t' ∧
      t'.calls 5 = some { p with phase := .rejected } := by
  have hflown : run (step Sample.cfg) (State.boot Sample.db) (Sample.opened ++ Sample.flown) =
      some _ := rfl
  have hlate : run (step Sample.cfg) (State.boot Sample.db) (Sample.settled ++ [.commit 5 none]) =
      some _ := rfl
  have hclosed : ¬ Opened _ 1 := (late_bet_refused hflown).2.2 0 ⟨0, 1, []⟩ rfl
  refine ⟨_, _, _, hlate, rfl, rfl, rfl, ?_⟩
  exact (late_bet_refused hlate).2.1 ⟨1, _⟩ (List.mem_singleton.mpr rfl) hclosed 5 _ _ rfl rfl rfl

/-- The debit and the row commit although the round is terminal. -/
theorem row_on_terminal_round :
    ∃ es t t', run (step Sample.cfg) (State.boot Sample.db) es = some t ∧
      Busted t.db 1 ∧ t.db.crashBets = [] ∧ step Sample.cfg t (.commit 5 none) = some t' ∧
      t'.db.crashBets = [Sample.call.row 5] ∧
      t'.db.balance 7 .jeton = t.db.balance 7 .jeton - 5000000 := by
  refine ⟨Sample.settled, _, _, rfl, ⟨_, rfl, rfl⟩, rfl, rfl, rfl, ?_⟩
  decide

end Scadium.Games.Crash
