/-
Scadium.Games.Blackjack.Records — the rows of the rounds.

`blackjackRound.update` asks nothing of the row it writes to, so a row that
has ended stays what it is only if no write reaches it, and a bet is in the
row of its round only if the write was captured with that row. It is so in
every run in which no bet is taken, cleared or left between the opening of a
window and its round, every settle commits on the round it is of, and no row
ends while a write to it is in flight.
-/
import Scadium.Games.Blackjack.Lifecycle

namespace Scadium.Games.Blackjack

open Scadium.Lib Scadium.Prisma

/-! ## Writes in flight -/

/-- The write that a call waits for. -/
def Proc.write : Proc → Option Write
  | .placing _ _ (.saving w _ _) => some w
  | .returning _ _ saving => saving
  | .doubling _ _ (.saving w _) => some w
  | .dealing (.saving w) => some w
  | _ => none

/-- The row of an opening that is not on the table yet. -/
def Proc.freshRow : Proc → Option (RoundId × Nat)
  | .placing _ _ (.opening window _ (.bankroll roundDbId _)) => some (roundDbId, window)
  | _ => none

/-- A write that is captured from the table: its round's. -/
def State.Captures (s : State) (w : Write) : Prop :=
  s.installed = true ∧ s.inPlay ∧ s.table.roundDbId = some w.roundDbId ∧ w.window = s.window

/-- Every write in flight was so before, or is of the round on the table, and
no row is new. -/
def Carried (s s' : State) : Prop :=
  ∀ p ∈ s'.procs,
    (∀ w, p.write = some w → (∃ q ∈ s.procs, q.write = some w) ∨ s'.Captures w) ∧
      ∀ x, p.freshRow = some x → ∃ q ∈ s.procs, q.freshRow = some x

/-- The table has a round on it, or has had none so far. -/
def State.filed (s : State) : Prop := s.installed = true ∨ s.table.roundDbId = none

/-- No bet is taken, cleared or left in a window whose round is not on the
table yet, while the last round's is. -/
def FilesSafely (cfg : Config) (s : State) : Event → Prop
  | .leave userId | .clear userId =>
      s.table.phase = .betting → ∀ seat, s.table.seatOf userId = some seat → seat.bet ≠ none → s.filed
  | .call i => ∀ userId bet, s.procs[i]? = some (.placing userId bet .debited) →
      s.table.phase = .betting → ∀ found,
        s.table.acceptsBet cfg.chainEnabled userId bet found → s.filed
  | _ => True

section Capture

variable {s s' : State} {w : Write}

theorem captureStakes_eq (h : s.captureStakes = some w) :
    s.table.roundDbId = some w.roundDbId ∧ w.window = s.window := by
  unfold State.captureStakes Table.bettingStakes at h
  cases hid : s.table.roundDbId with
  | none => simp [hid] at h
  | some =>
    rw [hid] at h
    cases h
    exact ⟨rfl, rfl⟩

theorem captureSnapshot_eq (h : s.captureSnapshot = some w) :
    s.table.roundDbId = some w.roundDbId ∧ w.window = s.window := by
  unfold State.captureSnapshot at h
  cases hid : s.table.roundDbId with
  | none => simp [hid] at h
  | some =>
    rw [hid] at h
    cases h
    exact ⟨rfl, rfl⟩

/-- Nothing that comes new into a slot waits for a write. -/
theorem Carried.of_mem
    (h : ∀ p ∈ s'.procs, p ∈ s.procs ∨ (p.write = none ∧ p.freshRow = none)) : Carried s s' := by
  intro p hp
  rcases h p hp with hp | ⟨hwrite, hfresh⟩
  · exact ⟨fun w hw => .inl ⟨p, hp, hw⟩, fun x hx => ⟨p, hp, hx⟩⟩
  · refine ⟨fun w hw => ?_, fun x hx => ?_⟩
    · rw [hwrite] at hw
      cases hw
    · rw [hfresh] at hx
      cases hx

/-- What comes new into a slot waits for a write of the round on the table. -/
theorem Carried.of_capture (hcapture : s'.Captures w)
    (h : ∀ p ∈ s'.procs, p ∈ s.procs ∨ (p.write = some w ∧ p.freshRow = none)) : Carried s s' := by
  intro p hp
  rcases h p hp with hp | ⟨hwrite, hfresh⟩
  · exact ⟨fun w hw => .inl ⟨p, hp, hw⟩, fun x hx => ⟨p, hp, hx⟩⟩
  · refine ⟨fun w' hw => ?_, fun x hx => ?_⟩
    · rw [hwrite] at hw
      cases hw
      exact .inr hcapture
    · rw [hfresh] at hx
      cases hx

/-- A call that waits for no write, of no row that is new. -/
def Proc.Blank (p : Proc) : Prop := p.write = none ∧ p.freshRow = none

theorem after_blank (userId : UserId) (bet : SeatBet) (previousTotal : Nat) :
    (PlaceStage.after userId bet previousTotal).Blank := by
  unfold PlaceStage.after
  split
  · exact ⟨rfl, rfl⟩
  · exact ⟨rfl, rfl⟩

theorem Called.blank {p : Proc} (h : Called p) : p.Blank := by
  cases h with
  | placing | doubling | recovering => exact ⟨rfl, rfl⟩

theorem Debits.blank {p q : Proc} {m : Movement} (h : Debits p q m) : q.Blank := by
  cases h with
  | bet | extra => exact ⟨rfl, rfl⟩

theorem Saves.blank {p q : Proc} (h : Saves p w q) : p.write = some w ∧ q.Blank := by
  cases h with
  | placing => exact ⟨rfl, after_blank _ _ _⟩
  | returning | dealing => exact ⟨rfl, rfl, rfl⟩

theorem Failed.blank {p : Proc} (h : Failed p) : p.Blank := by
  cases h with
  | placing | doubling | done => exact ⟨rfl, rfl⟩

theorem mem_set_of {i : Nat} {q : Proc} {procs : List Proc} {P : Proc → Prop} (hq : P q) :
    ∀ p ∈ procs.set i q, p ∈ procs ∨ P p := by
  intro p hp
  rcases List.mem_or_eq_of_mem_set hp with hp | rfl
  · exact .inl hp
  · exact .inr hq

theorem mem_append_of {q : Proc} {procs : List Proc} {P : Proc → Prop} (hq : P q) :
    ∀ p ∈ procs ++ [q], p ∈ procs ∨ P p := by
  intro p hp
  rcases List.mem_append.mp hp with hp | hp
  · exact .inl hp
  · cases List.mem_singleton.mp hp
    exact .inr hq

theorem mem_turned_of {procs : List Proc} {P : Proc → Prop} {s₀ : State} {r : Table × Bool}
    (hdealer : P (.dealer false)) (h : ∀ p ∈ s₀.procs, p ∈ procs ∨ P p) :
    ∀ p ∈ (s₀.turned r).procs, p ∈ procs ∨ P p := by
  intro p hp
  rw [turned_procs] at hp
  split at hp
  · rcases List.mem_append.mp hp with hp | hp
    · exact h p hp
    · cases List.mem_singleton.mp hp
      exact .inr hdealer
  · exact h p hp

/-- Whoever drives the table has it at play. -/
theorem inPlay_of_mem {p : Proc} (hp : p ∈ s.procs) (hrolls : p.rolls = 1) : s.inPlay := by
  have hle : p.rolls ≤ weight Proc.rolls s.procs := le_weight hp
  refine .inr ?_
  rw [State.rolling]
  omega

theorem mem_setProc_self {i : Nat} {p q : Proc} (hp : s.procs[i]? = some p) :
    q ∈ (s.setProc i q).procs := by
  obtain ⟨hi, -⟩ := List.getElem?_eq_some_iff.mp hp
  exact List.mem_set hi q

theorem installed_of_filed {roundDbId : RoundId} (h : s.filed)
    (hid : s.table.roundDbId = some roundDbId) : s.installed = true := by
  rcases h with hinstalled | hnone
  · exact hinstalled
  · rw [hnone] at hid
    cases hid

end Capture

/-! ## Steps -/

section Steps

variable {past : Nat → Prop} {cfg : Config} {s s' : State} {i : Nat}

/-- A bet that goes back in an open window, with the write of what is left. -/
theorem returnBet_carried {t : Table} {userId : UserId} {refund : Nat} (hfiled : s.filed)
    (hphase : t.phase = .betting) (hid : t.roundDbId = s.table.roundDbId) :
    Carried s ((s.setTable t).returnBet userId refund) := by
  unfold State.returnBet
  cases hcapture : (s.setTable t).captureStakes with
  | none => exact Carried.of_mem (mem_append_of ⟨rfl, rfl⟩)
  | some w =>
    obtain ⟨hround, hwindow⟩ := captureStakes_eq hcapture
    have hinstalled : s.installed = true := installed_of_filed hfiled (hid.symm.trans hround)
    exact Carried.of_capture (w := w) ⟨hinstalled, .inl hphase, hround, hwindow⟩
      (mem_append_of ⟨rfl, rfl⟩)

/-- Every write in flight is of the round it was captured in. -/
theorem step_carried {e : Event} (h : Chain past s) (hsafe : FilesSafely cfg s e)
    (hinstalls : e.installs = false) (hstep : step cfg s e = some s') : Carried s s' := by
  have hblank : ∀ {procs : List Proc} {i : Nat} {q : Proc}, q.Blank →
      ∀ p ∈ procs.set i q, p ∈ procs ∨ p.Blank := fun hq => mem_set_of hq
  cases step_effect hstep with
  | created | createdOffChain | bankrolled => cases hinstalls
  | took | refused | left | dealNone | dealUnsaved | paused | dealerCard =>
    exact Carried.of_mem fun p hp => .inl hp
  | leftBet hphase hseat hbet | cleared hphase hseat hbet =>
    exact returnBet_carried (hsafe hphase _ hseat (by simp [hbet])) hphase rfl
  | acted | timedOut => exact Carried.of_mem (mem_turned_of ⟨rfl, rfl⟩ fun p hp => .inl hp)
  | called _ hnew => exact Carried.of_mem (mem_append_of hnew.blank)
  | debited _ hdebits => exact Carried.of_mem (hblank hdebits.blank)
  | saved _ hsaves => exact Carried.of_mem (hblank hsaves.blank.2)
  | failed _ hfailed => exact Carried.of_mem (hblank hfailed.blank)
  | placed | openTimer | savedOpening => exact Carried.of_mem (hblank (after_blank _ _ _))
  | rejected | credited | placeRefused | opened | doubleRefused | folded | revealed | dealt
  | dealerDone | settled | settledLate | aborted | recovered | recoveredLate =>
    exact Carried.of_mem (hblank ⟨rfl, rfl⟩)
  | doubled | turns | savedDouble =>
    exact Carried.of_mem (mem_turned_of ⟨rfl, rfl⟩ (hblank ⟨rfl, rfl⟩))
  | @placedSaving i userId bet found w hp haccepts hphase hw =>
    obtain ⟨hround, hwindow⟩ := captureStakes_eq hw
    have hbefore : s.table.roundDbId = some w.roundDbId := placed_frame.2.2.symm.trans hround
    have hinstalled : s.installed = true :=
      installed_of_filed (hsafe userId bet hp hphase found haccepts) hbefore
    have hbetting : (s.table.placed cfg.chainEnabled bet found).phase = .betting :=
      placed_frame.1.trans hphase
    exact Carried.of_capture (w := w) ⟨hinstalled, .inl hbetting, hround, hwindow⟩
      (mem_set_of ⟨rfl, rfl⟩)
  | @doubledSaving i userId extra seat w hp haccepts hw =>
    obtain ⟨hround, hwindow⟩ := captureSnapshot_eq hw
    refine Carried.of_capture (w := w) ⟨?_, .inr ?_, hround, hwindow⟩ (mem_set_of ⟨rfl, rfl⟩)
    · exact h.installed (h.alone haccepts.1).1
    · have honTurn : (s.table.acted cfg.stream .double seat).onTurn = 1 :=
        if_pos (acted_frame.1.trans haccepts.1)
      rw [State.rolling, setProc_table, setTable_table, honTurn]
      omega
  | @openSaving i window previousTotal userId bet w hp hw =>
    obtain ⟨hround, hwindow⟩ := captureStakes_eq hw
    have hin : State.inPlay (s.setProc i (.placing userId bet (.saving w previousTotal true))) :=
      inPlay_of_mem (mem_setProc_self hp) rfl
    exact Carried.of_capture (w := w) ⟨h.installed (h.only hp rfl).1, hin, hround, hwindow⟩
      (mem_set_of ⟨rfl, rfl⟩)
  | @deal w htimer hw =>
    obtain ⟨hround, hwindow⟩ := captureSnapshot_eq hw
    refine Carried.of_capture (w := w) ⟨h.installed (h.due htimer).1, ?_, hround, hwindow⟩
      (mem_append_of ⟨rfl, rfl⟩)
    exact inPlay_of_mem (List.mem_append_right _ (List.mem_singleton_self _)) rfl
  | killed =>
    refine Carried.of_mem fun p hp => .inr ?_
    obtain ⟨q, -, rfl⟩ := List.mem_map.mp hp
    exact ⟨rfl, rfl⟩

end Steps

/-! ## Rows that are still written to -/

/-- The row, of a window, is that of the round at play, of an opening or of a
write in flight. -/
def State.Needs (s : State) (roundDbId : RoundId) (window : Nat) : Prop :=
  (s.installed = true ∧ s.inPlay ∧ s.table.roundDbId = some roundDbId ∧ window = s.window) ∨
  (∃ p ∈ s.procs, p.freshRow = some (roundDbId, window)) ∨
  ∃ p ∈ s.procs, ∃ w, p.write = some w ∧ w.roundDbId = roundDbId ∧ w.window = window

section Needs

variable {past : Nat → Prop} {cfg : Config} {s s' : State} {roundDbId : RoundId} {window : Nat}

theorem Carried.needs (h : Carried s s')
    (hround : s'.installed = true → s'.inPlay → s'.table.roundDbId = some roundDbId →
      window = s'.window → s.Needs roundDbId window)
    (hneeds : s'.Needs roundDbId window) : s.Needs roundDbId window := by
  rcases hneeds with ⟨hinstalled, hin, hid, hwin⟩ | ⟨p, hp, hfresh⟩ | ⟨p, hp, w, hwrite, hid, hwin⟩
  · exact hround hinstalled hin hid hwin
  · exact .inr (.inl ((h p hp).2 _ hfresh))
  · rcases (h p hp).1 w hwrite with ⟨q, hq, hwrite⟩ | ⟨hinstalled, hin, hround', hwindow⟩
    · exact .inr (.inr ⟨q, hq, w, hwrite, hid, hwin⟩)
    · rw [hid] at hround'
      exact hround hinstalled hin hround' (hwin.symm.trans hwindow)

/-- The install of a round: of the row of its opening. -/
theorem install_needs {i : Nat} {userId : UserId} {bet : SeatBet} {window' previousTotal : Nat}
    {round : RoundId} {seed : RoundSeed} {guard : Option Common.ExposureGuard}
    (hneeds : (s.install cfg i userId bet window' previousTotal round seed guard).Needs roundDbId
      window) : s.Needs roundDbId window ∨ (roundDbId = round ∧ window = s.window) := by
  have hslot : ∀ p ∈ s.procs.set i (.placing userId bet (.opening window' previousTotal
      (if cfg.onchainLive then .entropy else .tableUpdate))),
      p ∈ s.procs ∨ (p.write = none ∧ p.freshRow = none) := by
    refine mem_set_of ⟨rfl, ?_⟩
    split
    · rfl
    · rfl
  rcases hneeds with ⟨-, -, hid, hwin⟩ | ⟨p, hp, hfresh⟩ | ⟨p, hp, w, hwrite, hid, hwin⟩
  · cases hid
    exact .inr ⟨rfl, hwin⟩
  · rcases hslot p hp with hp | ⟨-, hnone⟩
    · exact .inl (.inr (.inl ⟨p, hp, hfresh⟩))
    · rw [hnone] at hfresh
      cases hfresh
  · rcases hslot p hp with hp | ⟨hnone, -⟩
    · exact .inl (.inr (.inr ⟨p, hp, w, hwrite, hid, hwin⟩))
    · rw [hnone] at hwrite
      cases hwrite

theorem opening_of_freshRow {p : Proc} (h : p.freshRow = some (roundDbId, window)) :
    p.opening = some window := by
  unfold Proc.freshRow at h
  split at h
  · cases h
    rfl
  · cases h

/-- A row is needed from its creation on, if it is: never again. -/
theorem needs_of_step {e : Event} (h : Chain past s) (hsafe : FilesSafely cfg s e)
    (hstep : step cfg s e = some s') (hneeds : s'.Needs roundDbId window) :
    s.Needs roundDbId window ∨
      (∃ i seed, e = .created i roundDbId seed) ∧ window = s.window ∧
        roundDbId ∉ s.rows.map RoundRow.id := by
  cases hinstalls : e.installs with
  | false =>
    refine .inl ((step_carried h hsafe hinstalls hstep).needs ?_ hneeds)
    intro hinstalled hin hid hwin
    obtain ⟨hinst, hwindow, hround⟩ := step_sameRound hinstalls hstep hinstalled
    have hbefore := h.inPlay_of_step hstep hwindow hin
    exact .inl ⟨hinst.symm.trans hinstalled, hbefore, hround.symm.trans hid, hwin.trans hwindow⟩
  | true =>
    have hmem : ∀ {i p}, s.procs[i]? = some p → p ∈ s.procs := fun hp => List.mem_of_getElem? hp
    cases step_effect hstep with
    | @created i window' previousTotal round seed userId bet hp hnew =>
      have hwindow : window' = s.window := h.opening _ (hmem hp) window' rfl
      have hopens : 0 < s.openings :=
        (le_weight (g := Proc.opens) (hmem hp) : (1 : Nat) ≤ weight Proc.opens s.procs)
      rcases hneeds with ⟨hinstalled, -⟩ | ⟨p, hp', hfresh⟩ | ⟨p, hp', w, hwrite, hid, hwin⟩
      · have hfalse : s.installed = false := h.fresh hopens
        cases hfalse.symm.trans hinstalled
      · rcases mem_setProc hp' with hp' | rfl
        · exact .inl (.inr (.inl ⟨p, hp', hfresh⟩))
        · cases hfresh
          exact .inr ⟨⟨i, seed, rfl⟩, hwindow, hnew⟩
      · rcases mem_setProc hp' with hp' | rfl
        · exact .inl (.inr (.inr ⟨p, hp', w, hwrite, hid, hwin⟩))
        · cases hwrite
    | @createdOffChain i window' previousTotal round seed userId bet hp hnew =>
      rcases install_needs hneeds with hbefore | ⟨rfl, hwin⟩
      · exact .inl hbefore
      · exact .inr ⟨⟨i, seed, rfl⟩, hwin, hnew⟩
    | @bankrolled i window' previousTotal bankroll round seed userId bet hp =>
      have hwindow : window' = s.window := h.opening _ (hmem hp) window' rfl
      rcases install_needs hneeds with hbefore | ⟨rfl, hwin⟩
      · exact .inl hbefore
      · refine .inl (.inr (.inl ⟨_, hmem hp, ?_⟩))
        rw [hwin, ← hwindow]
        rfl
    | refused he | called he => cases he.symm.trans hinstalls
    | _ => cases hinstalls

end Needs

/-! ## What a step does to the rows -/

section Rows

variable {cfg : Config} {s s' : State}

/-- The claim of a settle, with what it writes along. -/
def settledRow (window : Nat) (stateJson : StateJson) (r : RoundRow) : RoundRow :=
  { r with
    stateJson := stateJson
    source := some window }

/-- Rows are added by an opening, written by a write in flight, and ended by
a settle or by the recovery. -/
inductive RowsStep (s : State) : Event → List RoundRow → Prop where
  | same {e : Event} (he : ∀ i roundDbId seed, e ≠ .created i roundDbId seed) :
      RowsStep s e s.rows
  | created {i : Nat} {roundDbId : RoundId} {seed : RoundSeed} {userId : UserId} {bet : SeatBet}
      {window previousTotal : Nat}
      (hp : s.procs[i]? = some (.placing userId bet (.opening window previousTotal .creating)))
      (hnew : roundDbId ∉ s.rows.map RoundRow.id) :
      RowsStep s (.created i roundDbId seed) (s.rows ++ [⟨roundDbId, .empty, false, window, none⟩])
  | saved {i : Nat} {p : Proc} {w : Write} (hp : p ∈ s.procs) (hw : p.write = some w) :
      RowsStep s (.saved i) (w.commit s.rows)
  | settled {i window : Nat} {data : List SeatData} {stateJson : StateJson} {roundDbId : RoundId}
      (hp : s.procs[i]? = some (.settling window data stateJson))
      (hround : s.table.roundDbId = some roundDbId) :
      RowsStep s (.settled i) (endRow roundDbId (settledRow window stateJson) s.rows)
  | recovered {i : Nat} {roundDbId : RoundId} {refunds : List (UserId × Nat)}
      (hp : s.procs[i]? = some (.recovering roundDbId refunds))
      (hopen : isOpenRow roundDbId s.rows = true) :
      RowsStep s (.recovered i) (endRow roundDbId id s.rows)

theorem RowsStep.of_eq {e : Event} {rows : List RoundRow}
    (he : ∀ i roundDbId seed, e ≠ .created i roundDbId seed) (h : rows = s.rows) :
    RowsStep s e rows := h ▸ .same he

theorem step_rows {e : Event} (hstep : step cfg s e = some s') : RowsStep s e s'.rows := by
  cases step_effect hstep with
  | created hp hnew | createdOffChain hp hnew => exact .created hp hnew
  | saved hp hsaves => exact .saved (List.mem_of_getElem? hp) hsaves.blank.1
  | savedOpening hp => exact .saved (List.mem_of_getElem? hp) rfl
  | savedDouble hp =>
    rw [turned_rows]
    exact .saved (List.mem_of_getElem? hp) rfl
  | settled hp hround => exact .settled hp hround
  | recovered hp hopen => exact .recovered hp hopen
  | acted | doubled | turns | timedOut => exact .of_eq nofun turned_rows
  | refused he | called he =>
    refine .same fun i roundDbId seed heq => ?_
    rw [heq] at he
    cases he
  | _ => exact .same nofun

end Rows

/-! ## Updates of rows -/

def State.OpenRow (s : State) (roundDbId : RoundId) (window : Nat) : Prop :=
  ∃ r ∈ s.rows, r.id = roundDbId ∧ r.window = window ∧ r.ended = false

section Updates

variable {rows : List RoundRow} {r r' : RoundRow} {w : Write} {roundDbId : RoundId}
variable {f : RoundRow → RoundRow}

theorem commit_ids : (w.commit rows).map RoundRow.id = rows.map RoundRow.id :=
  keys_updateKey RoundRow.id w.roundDbId fun _ => rfl

theorem mem_commit_of_ne (hr : r ∈ rows) (hne : r.id ≠ w.roundDbId) : r ∈ w.commit rows :=
  List.mem_map.mpr ⟨r, hr, if_neg hne⟩

/-- A write keeps a row's window, and whether it has ended. -/
theorem mem_commit (hr : r' ∈ w.commit rows) : ∃ r ∈ rows,
    r'.id = r.id ∧ r'.window = r.window ∧ r'.ended = r.ended ∧
      (r' = r ∨ (r.id = w.roundDbId ∧ r'.source = some w.window)) := by
  obtain ⟨r, hmem, rfl⟩ := List.mem_map.mp hr
  refine ⟨r, hmem, ?_⟩
  split
  · rename_i hid
    exact ⟨rfl, rfl, rfl, .inr ⟨hid, rfl⟩⟩
  · exact ⟨rfl, rfl, rfl, .inl rfl⟩

theorem commit_of_mem (hr : r ∈ rows) : ∃ r' ∈ w.commit rows,
    r'.id = r.id ∧ r'.window = r.window ∧ r'.ended = r.ended := by
  refine ⟨_, List.mem_map.mpr ⟨r, hr, rfl⟩, ?_⟩
  split
  · exact ⟨rfl, rfl, rfl⟩
  · exact ⟨rfl, rfl, rfl⟩

theorem endRow_ids (hf : ∀ r, (f r).id = r.id) :
    (endRow roundDbId f rows).map RoundRow.id = rows.map RoundRow.id := by
  unfold endRow
  rw [List.map_map]
  refine List.map_congr_left fun r _ => ?_
  show RoundRow.id (if _ then _ else _) = r.id
  split
  · exact hf r
  · rfl

theorem mem_endRow_of_ne (hr : r ∈ rows) (hne : ¬ (r.id = roundDbId ∧ r.ended = false)) :
    r ∈ endRow roundDbId f rows := List.mem_map.mpr ⟨r, hr, if_neg hne⟩

theorem mem_endRow (hr : r' ∈ endRow roundDbId f rows) : r' ∈ rows ∨
    ∃ r ∈ rows, r.id = roundDbId ∧ r.ended = false ∧ r' = { f r with ended := true } := by
  obtain ⟨r, hmem, rfl⟩ := List.mem_map.mp hr
  split
  · rename_i h
    exact .inr ⟨r, hmem, h.1, h.2, rfl⟩
  · exact .inl hmem

end Updates

/-! ## The records of a table -/

/-- The rows that are still written to have not ended, and no row holds the
bets of a window that is not its own. -/
structure Recorded (s : State) : Prop where
  ids : (s.rows.map RoundRow.id).Nodup
  source : ∀ r ∈ s.rows, ∀ window, r.source = some window → window = r.window
  needed : ∀ roundDbId window, s.Needs roundDbId window → s.OpenRow roundDbId window

/-- A settle commits on the round it is of, and no row ends while a write to
it is in flight, or while its round is at play. -/
def EndsSafely (s : State) : Event → Prop
  | .settled i => ∀ window data stateJson, s.procs[i]? = some (.settling window data stateJson) →
      ∀ r ∈ s.rows, s.table.roundDbId = some r.id → r.ended = false → r.window = window ∧
        ∀ p ∈ s.procs, ∀ w, p.write = some w → w.roundDbId ≠ r.id
  | .recovered i => ∀ roundDbId refunds, s.procs[i]? = some (.recovering roundDbId refunds) →
      isOpenRow roundDbId s.rows = true → ∀ window, ¬ s.Needs roundDbId window
  | _ => True

def RecordSafe (cfg : Config) (s : State) (e : Event) : Prop :=
  FilesSafely cfg s e ∧ EndsSafely s e

section Records

variable {past : Nat → Prop} {cfg : Config} {s s' : State} {e : Event}

theorem Recorded.init (isPrivate : Bool) (ownerId : Option UserId) :
    Recorded (.init isPrivate ownerId) where
  ids := List.nodup_nil
  source r hr := absurd hr List.not_mem_nil
  needed roundDbId window hneeds := by
    rcases hneeds with ⟨h, -⟩ | ⟨p, hp, -⟩ | ⟨p, hp, -⟩
    · cases h
    · cases hp
    · cases hp

/-- The row a settle ends is needed by nothing else. -/
theorem settled_needs (h : Chain past s) {i window : Nat} {data : List SeatData}
    {stateJson : StateJson} (hp : s.procs[i]? = some (.settling window data stateJson))
    {r : RoundRow} (hwindow : r.window = window)
    (hwrites : ∀ p ∈ s.procs, ∀ w, p.write = some w → w.roundDbId ≠ r.id) :
    ¬ s.Needs r.id r.window := by
  have hover : s.Over window := h.settling _ (List.mem_of_getElem? hp) window rfl
  intro hneeds
  rcases hneeds with ⟨-, hin, -, hwin⟩ | ⟨p, hp, hfresh⟩ | ⟨p, hp, w, hwrite, hid, -⟩
  · have hlt := hover.2 hin
    omega
  · have hopening := opening_of_freshRow hfresh
    have hwin := h.opening p hp _ hopening
    have hle : p.opens ≤ weight Proc.opens s.procs := le_weight hp
    rw [opens_of_opening hopening] at hle
    have hlt := hover.2 (.inr (by rw [State.openings]; omega))
    omega
  · exact hwrites p hp w hwrite hid

/-- A row ends that nothing is to write to: the other rows are as they were. -/
theorem Recorded.ended (h : Recorded s) {roundDbId : RoundId} {f : RoundRow → RoundRow}
    (hf : ∀ r, (f r).id = r.id ∧ (f r).window = r.window)
    (hsource : ∀ r ∈ s.rows, r.id = roundDbId → r.ended = false →
      ∀ window, (f r).source = some window → window = r.window)
    (hfree : ∀ r ∈ s.rows, r.id = roundDbId → r.ended = false → ¬ s.Needs roundDbId r.window)
    (hrows : s'.rows = endRow roundDbId f s.rows)
    (hneeds : ∀ roundDbId window, s'.Needs roundDbId window → s.Needs roundDbId window) :
    Recorded s' ∧ ∀ r ∈ s.rows, r.ended = true → r ∈ s'.rows := by
  refine ⟨⟨?_, ?_, ?_⟩, ?_⟩
  · rw [hrows, endRow_ids fun r => (hf r).1]
    exact h.ids
  · intro r' hr' window hwin
    rw [hrows] at hr'
    rcases mem_endRow hr' with hr' | ⟨r, hr, hid, hopen, rfl⟩
    · exact h.source r' hr' window hwin
    · exact (hsource r hr hid hopen window hwin).trans (hf r).2.symm
  · intro id window hneed
    have hbefore := hneeds id window hneed
    obtain ⟨r, hr, rfl, rfl, hopen⟩ := h.needed id window hbefore
    refine ⟨r, ?_, rfl, rfl, hopen⟩
    rw [hrows]
    refine mem_endRow_of_ne hr fun hend => ?_
    rw [hend.1] at hbefore
    exact hfree r hr hend.1 hopen hbefore
  · intro r hr hended
    rw [hrows]
    refine mem_endRow_of_ne hr fun hend => ?_
    rw [hended] at hend
    cases hend.2

/-- One step keeps the records, and every row that has ended. -/
theorem Recorded.step (h : Recorded s) (hchain : Chain past s) (hsafe : RecordSafe cfg s e)
    (hstep : step cfg s e = some s') :
    Recorded s' ∧ ∀ r ∈ s.rows, r.ended = true → r ∈ s'.rows := by
  have hneeds : ∀ roundDbId window, s'.Needs roundDbId window → _ := fun _ _ =>
    needs_of_step hchain hsafe.1 hstep
  have hold : (∀ i roundDbId seed, e ≠ .created i roundDbId seed) →
      ∀ roundDbId window, s'.Needs roundDbId window → s.Needs roundDbId window := by
    intro he roundDbId window hneed
    rcases hneeds roundDbId window hneed with hbefore | ⟨⟨i, seed, rfl⟩, -⟩
    · exact hbefore
    · exact absurd rfl (he i roundDbId seed)
  have hrows := step_rows hstep
  generalize hr' : s'.rows = rows' at hrows
  cases hrows with
  | same he =>
    refine ⟨⟨?_, ?_, ?_⟩, ?_⟩
    · rw [hr']
      exact h.ids
    · rw [hr']
      exact h.source
    · intro id window hneed
      rw [State.OpenRow, hr']
      exact h.needed id window (hold he id window hneed)
    · exact fun r hr _ => hr
  | @created i roundDbId seed userId bet window previousTotal hp hnew =>
    have hwindow : window = s.window := hchain.opening _ (List.mem_of_getElem? hp) window rfl
    refine ⟨⟨?_, ?_, ?_⟩, ?_⟩
    · rw [hr', List.map_append, List.nodup_append]
      refine ⟨h.ids, List.nodup_singleton _, ?_⟩
      intro a ha b hb heq
      cases List.mem_singleton.mp hb
      rw [heq] at ha
      exact hnew ha
    · intro r hr w hw
      rw [hr'] at hr
      rcases List.mem_append.mp hr with hr | hr
      · exact h.source r hr w hw
      · cases List.mem_singleton.mp hr
        cases hw
    · intro id w hneed
      rw [State.OpenRow, hr']
      rcases hneeds id w hneed with hbefore | ⟨⟨j, _, heq⟩, hwin, -⟩
      · obtain ⟨r, hr, hid, hwin, hopen⟩ := h.needed id w hbefore
        exact ⟨r, List.mem_append_left _ hr, hid, hwin, hopen⟩
      · cases heq
        refine ⟨_, List.mem_append_right _ (List.mem_singleton_self _), rfl, ?_, rfl⟩
        exact hwindow.trans hwin.symm
    · exact fun r hr _ => List.mem_append_left _ hr
  | @saved i p w hp hw =>
    obtain ⟨r₀, hr₀, hid₀, hwin₀, hopen₀⟩ := h.needed w.roundDbId w.window
      (.inr (.inr ⟨p, hp, w, hw, rfl, rfl⟩))
    have hunique : ∀ r ∈ s.rows, r.id = w.roundDbId → r = r₀ := fun r hr hid =>
      List.inj_on_of_nodup_map h.ids hr hr₀ (hid.trans hid₀.symm)
    refine ⟨⟨?_, ?_, ?_⟩, ?_⟩
    · rw [hr', commit_ids]
      exact h.ids
    · intro r' hmem window hwin
      rw [hr'] at hmem
      obtain ⟨r, hr, -, hrwin, -, hsame | ⟨hid, hsource⟩⟩ := mem_commit hmem
      · subst hsame
        exact h.source r' hr window hwin
      · rw [hsource] at hwin
        cases hwin
        rw [hrwin, hunique r hr hid, hwin₀]
    · intro id window hneed
      obtain ⟨r, hr, hid, hwin, hopen⟩ := h.needed id window (hold nofun id window hneed)
      obtain ⟨r', hmem, hid', hwin', hended⟩ := commit_of_mem (w := w) hr
      rw [State.OpenRow, hr']
      exact ⟨r', hmem, hid'.trans hid, hwin'.trans hwin, hended.trans hopen⟩
    · intro r hr hended
      refine mem_commit_of_ne hr fun hid => ?_
      rw [hunique r hr hid, hopen₀] at hended
      cases hended
  | @settled i window data stateJson roundDbId hp hround =>
    have hends : ∀ r ∈ s.rows, r.id = roundDbId → r.ended = false → r.window = window ∧
        ∀ p ∈ s.procs, ∀ w, p.write = some w → w.roundDbId ≠ r.id := by
      rintro r hr rfl hopen
      exact hsafe.2 window data stateJson hp r hr hround hopen
    have hkept : Recorded s' ∧ ∀ r ∈ s.rows, r.ended = true → r ∈ s'.rows := by
      refine h.ended (f := settledRow window stateJson) (fun r => ⟨rfl, rfl⟩) ?_ ?_ hr' (hold nofun)
      · intro r hr hid hopen w hw
        cases hw
        exact (hends r hr hid hopen).1.symm
      · intro r hr hid hopen
        obtain ⟨hwin, hwrites⟩ := hends r hr hid hopen
        rw [← hid]
        exact settled_needs hchain hp hwin hwrites
    exact ⟨hkept.1, hr' ▸ hkept.2⟩
  | @recovered i roundDbId refunds hp hopen =>
    have hkept : Recorded s' ∧ ∀ r ∈ s.rows, r.ended = true → r ∈ s'.rows := by
      refine h.ended (fun r => ⟨rfl, rfl⟩) ?_ ?_ hr' (hold nofun)
      · intro r hr _ _
        exact h.source r hr
      · intro r _ _ _
        exact hsafe.2 roundDbId refunds hp hopen r.window
    exact ⟨hkept.1, hr' ▸ hkept.2⟩

/-- What a run keeps, with the chain of the table. -/
theorem Recorded.run {es : List Event} : ∀ {s t : State}, Chain past s → Recorded s →
    Along (Blackjack.step cfg) (RecordSafe cfg) s es → run (Blackjack.step cfg) s es = some t →
    Chain past t ∧ Recorded t ∧ ∀ r ∈ s.rows, r.ended = true → r ∈ t.rows := by
  induction es with
  | nil =>
    intro s t hchain h _ hrun
    cases hrun
    exact ⟨hchain, h, fun r hr _ => hr⟩
  | cons e es ih =>
    intro s t hchain h hsafe hrun
    obtain ⟨s', hstep, hrest⟩ := run_cons_eq_some.mp hrun
    obtain ⟨hrecorded, hkept⟩ := h.step hchain hsafe.1 hstep
    obtain ⟨hchain', ht, hrows⟩ := ih (hchain.step hstep) hrecorded (hsafe.2 s' hstep) hrest
    exact ⟨hchain', ht, fun r hr hended => hrows r (hkept r hr hended) hended⟩

end Records

/-! ## Every run -/

/-- In every run whose steps are safe, a row that has ended stays what it is
for good, and every row shows bets of its own round only. -/
theorem records_final (cfg : Config) (isPrivate : Bool) (ownerId : Option UserId)
    (es fs : List Event) (s t : State)
    (hsafe : Along (step cfg) (RecordSafe cfg) (.init isPrivate ownerId) (es ++ fs))
    (hs : run (step cfg) (.init isPrivate ownerId) es = some s)
    (ht : run (step cfg) s fs = some t) :
    (∀ r ∈ s.rows, r.ended = true → r ∈ t.rows) ∧
      (t.rows.map RoundRow.id).Nodup ∧
      ∀ r ∈ t.rows, ∀ window, r.source = some window → window = r.window := by
  obtain ⟨hbefore, hafter⟩ := along_append.mp hsafe
  obtain ⟨hchain, hrecorded, -⟩ :=
    Recorded.run (Chain.init isPrivate ownerId) (Recorded.init isPrivate ownerId) hbefore hs
  obtain ⟨-, hfinal, hkept⟩ := Recorded.run hchain hrecorded (hafter s hs) ht
  exact ⟨hkept, hfinal.ids, hfinal.source⟩

private def tens : Config where
  chainEnabled := false
  onchainLive := false
  stream := fun _ _ _ _ => ⟨.ten, .H⟩

/-- One player's round, from the seat to the dealer's last card. -/
private def played : List Event :=
  [.takeSeat 0 1, .takeSeat 1 2, .place 1 ⟨1000000, 0, 0⟩, .debit 0, .call 0,
    .created 0 9 ⟨"server", "client"⟩, .tableUpdated 0, .saved 0, .timer, .saved 1, .dealt 1,
    .tableUpdated 1, .act 1 .stand, .tableUpdated 2, .dealerDone 2]

/-- The next round, opened as soon as that one is settled. -/
private def reopened : List Event := [.place 1 ⟨1000000, 0, 0⟩, .debit 3, .call 3]

/-- A label that is safe in a state, by what can be seen of it. -/
private def calm (s : State) : Event → Bool
  | .leave _ | .clear _ | .call _ => decide (s.table.phase ≠ .betting)
  | .settled i => match s.procs[i]? with
      | some (.settling window _ _) =>
          s.rows.all (fun r => r.window == window) && s.procs.all fun p => p.write.isNone
      | _ => false
  | .recovered _ => false
  | _ => true

private theorem calm_safe (s : State) (e : Event) (h : calm s e = true) : RecordSafe tens s e := by
  cases e with
  | leave | clear => exact ⟨fun hphase => absurd hphase (of_decide_eq_true h), trivial⟩
  | call => exact ⟨fun _ _ _ hphase => absurd hphase (of_decide_eq_true h), trivial⟩
  | settled =>
    refine ⟨trivial, fun window data stateJson hp r hr _ _ => ?_⟩
    simp only [calm, hp, Bool.and_eq_true, List.all_eq_true] at h
    refine ⟨beq_iff_eq.mp (h.1 r hr), fun p hp w hw => ?_⟩
    have hnone := h.2 p hp
    rw [hw] at hnone
    cases hnone
  | recovered => cases h
  | _ => exact ⟨trivial, trivial⟩

/-- The second round's bets go into its own row. -/
theorem records_final_sample : ∃ s t,
    run (step tens) (.init false none) (played ++ [.settled 2]) = some s ∧
      run (step tens) s (reopened ++ [.created 3 10 ⟨"server2", "client2"⟩, .tableUpdated 3,
        .saved 3]) = some t ∧
      (∀ r ∈ s.rows, r.ended = true → r ∈ t.rows) ∧ (t.rows.map RoundRow.id).Nodup ∧
      ∀ r ∈ t.rows, ∀ window, r.source = some window → window = r.window := by
  have hcalm : Along (step tens) (fun s e => calm s e = true) (.init false none)
      ((played ++ [.settled 2]) ++
        (reopened ++ [.created 3 10 ⟨"server2", "client2"⟩, .tableUpdated 3, .saved 3])) := by
    decide +kernel
  obtain ⟨t, hrun⟩ := Option.isSome_iff_exists.mp
    (by decide +kernel : (run (step tens) (.init false none) ((played ++ [.settled 2]) ++
      (reopened ++ [.created 3 10 ⟨"server2", "client2"⟩, .tableUpdated 3, .saved 3]))).isSome = true)
  obtain ⟨s, hs, ht⟩ := run_append.mp hrun
  exact ⟨s, t, hs, ht, records_final tens false none _ _ s t (hcalm.mono calm_safe) hs ht⟩

/-- A bet placed while the next window opens is saved in the last round's row,
which has ended. -/
theorem ended_row_rewritten :
    ¬ ∀ cfg isPrivate ownerId es fs s t, run (step cfg) (.init isPrivate ownerId) es = some s →
      run (step cfg) s fs = some t → ∀ r ∈ s.rows, r.ended = true → r ∈ t.rows := by
  intro h
  have hlost : (run (step tens) (.init false none) (played ++ [.settled 2])).any (fun s =>
      (run (step tens) s (reopened ++ [.place 2 ⟨2000000, 0, 0⟩, .debit 4, .call 4, .saved 4])).any
        fun t => decide (¬ ∀ r ∈ s.rows, r.ended = true → r ∈ t.rows)) = true := by
    decide +kernel
  obtain ⟨s, hs, hlost⟩ := (Option.any_eq_true _ _).mp hlost
  obtain ⟨t, ht, hlost⟩ := (Option.any_eq_true _ _).mp hlost
  exact of_decide_eq_true hlost (h tens false none _ _ s t hs ht)

end Scadium.Games.Blackjack
