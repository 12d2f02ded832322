/-
Scadium.Games.Lottery.Rollover — where the rollover of a draw goes.

Every step is accounted for with an arbitrary weight `g` of parcels: what the
settled draws have produced weighs as much as what is in the base of a draw,
what some process still holds and what the step has lost. With the amounts for
`g` this is the law of the sums, with the indicator of one parcel it says that
the parcel is in exactly one place.

The carry lives in the memory of a process. While no process stops or fails
with a rollover in its hands, and none overwrites one, every rollover is in
the base of exactly one later draw or still on its way there; each such loss
breaks the law for good.
-/
import Scadium.Games.Lottery.Engine

namespace Scadium.Games.Lottery

open Scadium.Lib Scadium.Prisma

variable {deps : Deps} {w w' : World} {env : Env} {p p' : Process} {g : Parcel → Nat}

/-! ## Parcels -/

@[simp] theorem parcel_zero (id : RoundId) : parcel id 0 = [] := rfl

@[simp] theorem weight_parcel (id : RoundId) (amount : Nat) :
    weight Prod.snd (parcel id amount) = amount := by
  unfold parcel
  split
  · rfl
  · simp only [weight_nil]
    omega

theorem mem_parcel {x : Parcel} {id : RoundId} {amount : Nat} :
    x ∈ parcel id amount ↔ x = (id, amount) ∧ 0 < amount := by
  unfold parcel
  split <;> simp_all

/-- What the unwon slices and the dust of a settled draw come to. -/
def nextRolloverOf (row : LotteryDraw) : Nat :=
  if row.status = .drawn then
    row.bracketRolloverScadBase.sum +
      (row.totalPoolScadBase - row.burnScadBase - row.bracketAmountsScadBase.sum)
  else 0

/-- What a draw has produced. -/
def World.parcelOf (w : World) (id : RoundId) : List Parcel :=
  match w.db.lotteryDraws id with
  | some row => parcel id (nextRolloverOf row)
  | none => []

/-! ## Sums -/

def World.opened (g : Parcel → Nat) (w : World) : Nat :=
  weight (fun id => weight g (w.sources id)) w.drawIds

def World.produced (g : Parcel → Nat) (w : World) : Nat :=
  weight (fun id => weight g (w.parcelOf id)) w.drawIds

def Process.held (g : Parcel → Nat) (p : Process) : Nat :=
  weight g p.carried + p.tasks.sum fun t => weight g t.parcels

/-- The rollover bases ever opened. -/
def System.rolloverBases (s : System) : Nat :=
  weight (fun id => ((s.world.db.lotteryDraws id).map LotteryDraw.rolloverScadBase).getD 0)
    s.world.drawIds

/-- The rollovers produced. -/
def System.rolloversProduced (s : System) : Nat :=
  weight (fun id => ((s.world.db.lotteryDraws id).map nextRolloverOf).getD 0) s.world.drawIds

/-- What a process carries or is about to put somewhere. -/
def Process.pending (p : Process) : Nat :=
  p.carryRolloverScadBase + p.tasks.sum Task.rollover

def System.carryPending (s : System) : Nat := s.processes.sum Process.pending

/-! ## Losing nothing -/

/-- A step of a task that loses no rollover. -/
def Task.kept (w : World) (env : Env) (p : Process) : Task → Bool
  | .committed _ _ _ => p.carryRolloverScadBase = 0
  | .createDraw new _ => w.accepts env.newDrawId new || new.rolloverScadBase = 0
  | _ => true

/-- No process is killed, and no creation fails, while it holds a rollover;
and none is overwritten. -/
def kept (s : System) : Act → Bool
  | .kill process => (s.processes.get process).all fun p => p.pending = 0
  | .throws process task _ => (s.task? process task).all fun pt => pt.2.rollover = 0
  | .run process task env => (s.task? process task).all fun pt => pt.2.kept s.world env pt.1
  | _ => true

def Kept (s : System) (act : Act) : Prop := kept s act = true

instance (s : System) (act : Act) : Decidable (Kept s act) :=
  inferInstanceAs (Decidable (kept s act = true))

/-- What a step of a task loses. -/
def Task.lost (g : Parcel → Nat) (w : World) (env : Env) (p : Process) : Task → Nat
  | .committed _ _ _ => weight g p.carried
  | .createDraw new _ => if w.accepts env.newDrawId new then 0 else weight g new.parcels
  | _ => 0

/-- What a step loses. -/
def lost (g : Parcel → Nat) (s : System) : Act → Nat
  | .kill process => ((s.processes.get process).map (Process.held g)).getD 0
  | .throws process task _ =>
      ((s.task? process task).map fun pt => weight g pt.2.parcels).getD 0
  | .run process task env =>
      ((s.task? process task).map fun pt => pt.2.lost g s.world env pt.1).getD 0
  | _ => 0

/-! ## The invariant -/

/-- An amount, and the parcels it is made of. -/
structure Held (w : World) (amount : Nat) (parcels : List Parcel) : Prop where
  total : amount = weight Prod.snd parcels
  produced : ∀ x ∈ parcels, x ∈ w.parcelOf x.1

structure Process.Sound (w : World) (p : Process) : Prop where
  carry : Held w p.carryRolloverScadBase p.carried
  tasks : ∀ id t, p.tasks.get id = some t → Held w t.rollover t.parcels

structure World.Sound (w : World) : Prop where
  ids : ∀ id, id ∈ w.drawIds ↔ (w.db.lotteryDraws id).isSome
  nodup : w.drawIds.Nodup
  base : ∀ id row, w.db.lotteryDraws id = some row → Held w row.rolloverScadBase (w.sources id)
  /-- A base is made of what earlier draws have produced. -/
  earlier : ∀ i id, w.drawIds[i]? = some id → ∀ x ∈ w.sources id, x.1 ∈ w.drawIds.take i

structure System.Sound (s : System) : Prop where
  world : s.world.Sound
  processes : ∀ id p, s.processes.get id = some p → p.Sound s.world

theorem World.Sound.mem_drawIds {x : Parcel} {id : RoundId} (h : w.Sound)
    (hx : x ∈ w.parcelOf id) : id ∈ w.drawIds := by
  rw [h.ids]
  unfold parcelOf at hx
  split at hx
  case h_1 row hrow => simp [hrow]
  case h_2 => cases hx

theorem World.mem_parcelOf_pos {x : Parcel} {id : RoundId} (h : x ∈ w.parcelOf id) : 0 < x.2 := by
  unfold parcelOf at h
  split at h
  · obtain ⟨rfl, hpos⟩ := mem_parcel.mp h
    exact hpos
  · cases h

/-- A zero is made of nothing. -/
theorem Held.eq_nil {parcels : List Parcel} (h : Held w 0 parcels) : parcels = [] := by
  cases parcels with
  | nil => rfl
  | cons x =>
    have hpos := w.mem_parcelOf_pos (h.produced x List.mem_cons_self)
    have htotal := h.total
    rw [weight_cons] at htotal
    omega

theorem Held.zero_iff {amount : Nat} {parcels : List Parcel} (h : Held w amount parcels) :
    amount = 0 ↔ parcels = [] := by
  constructor
  · intro hzero
    subst hzero
    exact h.eq_nil
  · intro hnil
    rw [h.total, hnil, weight_nil]

theorem Held.nil (w : World) : Held w 0 [] := ⟨rfl, by simp⟩

theorem Held.mono {amount : Nat} {parcels : List Parcel} (h : Held w amount parcels)
    (hmono : ∀ x id, x ∈ w.parcelOf id → x ∈ w'.parcelOf id) : Held w' amount parcels :=
  ⟨h.total, fun x hx => hmono x x.1 (h.produced x hx)⟩

theorem Process.Sound.mono (h : p.Sound w)
    (hmono : ∀ x id, x ∈ w.parcelOf id → x ∈ w'.parcelOf id) : p.Sound w' :=
  ⟨h.carry.mono hmono, fun id t ht => (h.tasks id t ht).mono hmono⟩

/-! ## Steps that move no rollover -/

structure Idle (p : Process) (r : Process × Task) : Prop where
  carry : r.1.carryRolloverScadBase = p.carryRolloverScadBase
  carried : r.1.carried = p.carried
  tasks : r.1.tasks = p.tasks
  parcels : r.2.parcels = []
  rollover : r.2.rollover = 0

theorem openAtBoot_idle (env : Env) (p : Process) : Idle p (p.openAtBoot env) := by
  unfold Process.openAtBoot
  split <;> exact ⟨rfl, rfl, rfl, rfl, rfl⟩

theorem nextStranded_idle (env : Env) (p : Process) (rest : List Stranded)
    (live : Option Stranded) : Idle p (p.nextStranded env rest live) := by
  cases rest with
  | cons => exact ⟨rfl, rfl, rfl, rfl, rfl⟩
  | nil =>
    cases live with
    | some => exact ⟨rfl, rfl, rfl, rfl, rfl⟩
    | none =>
      have h := openAtBoot_idle env { p with recovering := false }
      exact ⟨h.carry, h.carried, h.tasks, h.parcels, h.rollover⟩

theorem settleEnded_idle (env : Env) (p : Process) (k : Kont) : Idle p (p.settleEnded env k) := by
  cases k with
  | timer => exact ⟨rfl, rfl, rfl, rfl, rfl⟩
  | recovery rest live =>
    have h := nextStranded_idle env { p with settling := false } rest live
    exact ⟨h.carry, h.carried, h.tasks, h.parcels, h.rollover⟩

theorem settleFailed_idle (p : Process) (k : Kont) : Idle p (p.settleFailed k) := by
  cases k <;> exact ⟨rfl, rfl, rfl, rfl, rfl⟩

theorem opened_idle (env : Env) (p : Process) (k : Option Kont) : Idle p (p.opened env k) := by
  cases k with
  | none => exact ⟨rfl, rfl, rfl, rfl, rfl⟩
  | some k => exact settleEnded_idle env p k

theorem openNext_idle (env : Env) (p : Process) (k : Kont) : Idle p (p.openNext env k) := by
  unfold Process.openNext
  split
  · exact ⟨rfl, rfl, rfl, rfl, rfl⟩
  · exact settleEnded_idle env p k

theorem drawAndSettle_idle (env : Env) (p : Process) (k : Kont) :
    Idle p (p.drawAndSettle env k) := by
  unfold Process.drawAndSettle
  split
  · split
    · cases k <;> exact ⟨rfl, rfl, rfl, rfl, rfl⟩
    · exact ⟨rfl, rfl, rfl, rfl, rfl⟩
  · exact ⟨rfl, rfl, rfl, rfl, rfl⟩

theorem recover_idle (env : Env) (p : Process) (found : List Stranded) :
    Idle p (p.recover env found) := by
  unfold Process.recover
  split
  · exact openAtBoot_idle env p
  · have h := nextStranded_idle env { p with recovering := true }
    exact ⟨(h _ _).carry, (h _ _).carried, (h _ _).tasks, (h _ _).parcels, (h _ _).rollover⟩

theorem begin_idle (env : Env) (p : Process) (entry : Entry) : Idle p (entry.begin env p) := by
  cases entry with
  | bootDraws => exact ⟨rfl, rfl, rfl, rfl, rfl⟩
  | drawAndSettle => exact drawAndSettle_idle env p .timer

theorem throws_idle (env : Env) (p : Process) (t : Task) : Idle p (t.throws env p) := by
  cases t with
  | scan | resume => exact openAtBoot_idle env p
  | rebuild d rest live => exact nextStranded_idle env p rest live
  | createSeed k | maxIndex seedId seed k | createDraw new k | commitDraw draw k =>
    exact opened_idle env p k
  | reveal draw k | payPrizes k => exact settleEnded_idle env p k
  | transaction draw drawn vars k | committed draw nextRollover k => exact settleFailed_idle p k
  | done => exact ⟨rfl, rfl, rfl, rfl, rfl⟩

/-! ## The settle transaction -/

theorem recordUser_keepsVars {γ : Type} (q : Captured → γ) (env : SettleEnv)
    (ua : UserId × UserAgg) : Tx.KeepsVars q (recordUser deps env ua) := by
  obtain ⟨_, a⟩ := ua
  exact .bind (.statement _) fun _ => .bind (.ite (.update _) (.pure _)) fun _ =>
    .bind (accrue_keepsVars q _ _ _ _) fun _ => creditReferral_keepsVars q _ _ _ _

theorem writeResults_keepsVars {γ : Type} {q : Captured → γ} {inp : SettleInput} {env : SettleEnv}
    (hq : ∀ v jobs, q { v with feedJobs := jobs } = q v) (results : List TicketResult) :
    Tx.KeepsVars q (writeResults deps inp env results) := by
  have hprize : ∀ r, Tx.KeepsVars q (creditPrize r) := fun r =>
    .ite (.pure _) (.bind (applyBalanceDelta_keepsVars q _ _ _) fun _ => .pure _)
  have hgroup : ∀ group, Tx.KeepsVars q (updateGroup group) := fun group =>
    .each (fun ids => .update _) _
  exact .bind (.assign fun v => hq v _) fun _ => .bind (.each (recordUser_keepsVars q _) _) fun _ =>
    .bind (.ite (.each hprize _) (.pure _)) fun _ => .bind (.each hgroup _) fun _ =>
      .bind (.each (fun rows => .update _) _) fun _ => .statement _

/-- A committed settle hands out the rollover that its row records. -/
theorem settleTx_rollover {inp : SettleInput} {env : SettleEnv}
    {s t : TxState Captured Db TxError} {u : Unit} (h : (settleTx deps inp env).run s = .ok u t) :
    t.vars.nextRollover = (prizesOf inp (findTickets inp.drawId s.db)).nextRollover := by
  obtain ⟨_, _, hleader, h⟩ := Tx.bind_eq_ok.mp h
  obtain ⟨_, _, hquery, h⟩ := Tx.bind_eq_ok.mp h
  obtain ⟨_, _, hassign, h⟩ := Tx.bind_eq_ok.mp h
  obtain ⟨_, _, hclaim, h⟩ := Tx.bind_eq_ok.mp h
  obtain ⟨_, _, hguard, hwrite⟩ := Tx.bind_eq_ok.mp h
  obtain ⟨-, rfl⟩ := assertStillLeader_ok hleader
  obtain ⟨rfl, -, -⟩ := Tx.query_ok hquery
  cases Tx.assign_eq_ok.mp hassign
  obtain ⟨-, rfl⟩ := assertRoundClaimed_ok hguard
  have hvars := (Tx.statement_ok hclaim).2
  have hkeep := (writeResults_keepsVars (q := Captured.nextRollover) (fun _ _ => rfl) _).of_ok
    hwrite
  rw [hkeep, hvars]
  rfl

theorem nextRolloverOf_drawnRow (inp : SettleInput) (env : SettleEnv)
    (tickets : List TicketWithUser) (row : LotteryDraw) :
    nextRolloverOf (drawnRow inp env tickets row) = (prizesOf inp tickets).nextRollover := rfl

/-! ## Worlds -/

/-- The draws are as they were. -/
structure SameDraws (w w' : World) : Prop where
  draws : w'.db.lotteryDraws = w.db.lotteryDraws
  ids : w'.drawIds = w.drawIds
  sources : w'.sources = w.sources

theorem SameDraws.parcelOf (h : SameDraws w w') (id : RoundId) :
    w'.parcelOf id = w.parcelOf id := by
  simp only [World.parcelOf, h.draws]

theorem SameDraws.opened (h : SameDraws w w') (g : Parcel → Nat) : w'.opened g = w.opened g := by
  simp only [World.opened, h.ids, h.sources]

theorem SameDraws.produced (h : SameDraws w w') (g : Parcel → Nat) :
    w'.produced g = w.produced g := by
  simp only [World.produced, h.ids, h.parcelOf]

theorem SameDraws.mono (h : SameDraws w w') :
    ∀ x id, x ∈ w.parcelOf id → x ∈ w'.parcelOf id := by
  intro x id hx
  rw [h.parcelOf]
  exact hx

theorem SameDraws.sound (h : SameDraws w w') (hw : w.Sound) : w'.Sound where
  ids := by
    rw [h.ids, h.draws]
    exact hw.ids
  nodup := h.ids ▸ hw.nodup
  base := by
    intro id row hrow
    rw [h.draws] at hrow
    rw [h.sources]
    exact (hw.base id row hrow).mono h.mono
  earlier := by
    rw [h.ids, h.sources]
    exact hw.earlier

/-- A new draw takes the parcels of its rollover. -/
theorem World.Sound.createDraw (h : w.Sound) {id : RoundId} {new : NewDraw}
    (hnew : w.db.lotteryDraws id = none) (hheld : Held w new.rolloverScadBase new.parcels) :
    (w.createDraw id new).Sound ∧
      (∀ j, (w.createDraw id new).parcelOf j = w.parcelOf j) ∧
      ∀ g, (w.createDraw id new).opened g = w.opened g + weight g new.parcels ∧
        (w.createDraw id new).produced g = w.produced g := by
  have hout : id ∉ w.drawIds := by
    rw [h.ids, hnew]
    simp
  have hother : ∀ j, j ≠ id → (w.createDraw id new).db.lotteryDraws j = w.db.lotteryDraws j :=
    fun j hj => Function.update_of_ne hj _ _
  have hself : (w.createDraw id new).db.lotteryDraws id = some new.row :=
    Function.update_self id _ _
  have hparcel : ∀ j, (w.createDraw id new).parcelOf j = w.parcelOf j := by
    intro j
    by_cases hj : j = id
    · subst hj
      simp [parcelOf, hself, hnew, nextRolloverOf, NewDraw.row]
    · simp only [parcelOf, hother j hj]
  have hsources : ∀ j ∈ w.drawIds, (w.createDraw id new).sources j = w.sources j := by
    intro j hj
    have hne : j ≠ id := by
      intro heq
      exact hout (heq ▸ hj)
    exact Function.update_of_ne hne _ _
  refine ⟨⟨?_, ?_, ?_, ?_⟩, hparcel, ?_⟩
  · intro j
    by_cases hj : j = id
    · subst hj
      simp [World.createDraw]
    · rw [hother j hj, ← h.ids j]
      simp [World.createDraw, hj]
  · exact List.nodup_append.mpr ⟨h.nodup, List.nodup_singleton id, by
      intro a ha b hb heq
      simp only [List.mem_singleton] at hb
      exact hout (hb ▸ heq ▸ ha)⟩
  · intro j row hrow
    by_cases hj : j = id
    · subst hj
      rw [hself] at hrow
      cases hrow
      have hsource : (w.createDraw j new).sources j = new.parcels := Function.update_self j _ _
      rw [hsource]
      exact hheld.mono fun x k hx => (hparcel k).symm ▸ hx
    · rw [hother j hj] at hrow
      have hsource : (w.createDraw id new).sources j = w.sources j := Function.update_of_ne hj _ _
      rw [hsource]
      exact (h.base j row hrow).mono fun x k hx => (hparcel k).symm ▸ hx
  · intro i j hij
    have hids : (w.createDraw id new).drawIds = w.drawIds ++ [id] := rfl
    rw [hids] at hij ⊢
    cases Nat.lt_or_ge i w.drawIds.length with
    | inl hlt =>
      rw [List.getElem?_append_left hlt] at hij
      rw [hsources j (List.mem_of_getElem? hij), List.take_append_of_le_length hlt.le]
      exact h.earlier i j hij
    | inr hge =>
      rw [List.getElem?_append_right hge] at hij
      have hlast : i = w.drawIds.length ∧ j = id := by
        cases hi : i - w.drawIds.length with
        | zero =>
          rw [hi] at hij
          exact ⟨by omega, by simpa using hij.symm⟩
        | succ => simp [hi] at hij
      obtain ⟨rfl, rfl⟩ := hlast
      have hsource : (w.createDraw j new).sources j = new.parcels := Function.update_self j _ _
      rw [hsource, List.take_left']
      · intro x hx
        exact h.mem_drawIds (hheld.produced x hx)
      · rfl
  · intro g
    constructor
    · have hold : weight (fun j => weight g ((w.createDraw id new).sources j)) w.drawIds =
          w.opened g := weight_congr fun j hj => by rw [hsources j hj]
      simp only [World.opened, World.createDraw, weight_append, weight_cons, weight_nil] at hold ⊢
      rw [hold, Function.update_self]
      rfl
    · have hold : weight (fun j => weight g ((w.createDraw id new).parcelOf j)) w.drawIds =
          w.produced g := weight_congr fun j _ => by rw [hparcel j]
      have hlast : (w.createDraw id new).parcelOf id = [] := by
        rw [hparcel id]
        simp [parcelOf, hnew]
      have hids : (w.createDraw id new).drawIds = w.drawIds ++ [id] := rfl
      simp only [World.produced, hids, weight_append, weight_cons, weight_nil, hlast]
      exact hold

/-- A settled draw produces its rollover. -/
theorem World.Sound.settle (h : w.Sound) {id : RoundId} {row row' : LotteryDraw}
    (hrow : w.db.lotteryDraws id = some row) (hopen : row.status = .open)
    (hbase : row'.rolloverScadBase = row.rolloverScadBase) {db : Db}
    (hdb : db.lotteryDraws = Function.update w.db.lotteryDraws id (some row')) :
    (w.withDb db).Sound ∧
      (∀ x j, x ∈ w.parcelOf j → x ∈ (w.withDb db).parcelOf j) ∧
      (w.withDb db).parcelOf id = parcel id (nextRolloverOf row') ∧
      ∀ g, (w.withDb db).opened g = w.opened g ∧
        (w.withDb db).produced g = w.produced g + weight g (parcel id (nextRolloverOf row')) := by
  have hself : (w.withDb db).db.lotteryDraws id = some row' := by
    show db.lotteryDraws id = _
    rw [hdb, Function.update_self]
  have hother : ∀ j, j ≠ id → (w.withDb db).db.lotteryDraws j = w.db.lotteryDraws j := by
    intro j hj
    show db.lotteryDraws j = _
    rw [hdb, Function.update_of_ne hj]
  have hnone : w.parcelOf id = [] := by
    simp [parcelOf, hrow, nextRolloverOf, hopen]
  have hparcel : (w.withDb db).parcelOf id = parcel id (nextRolloverOf row') := by
    simp only [parcelOf, hself]
  have hrest : ∀ j, j ≠ id → (w.withDb db).parcelOf j = w.parcelOf j := by
    intro j hj
    simp only [parcelOf, hother j hj]
  have hmono : ∀ x j, x ∈ w.parcelOf j → x ∈ (w.withDb db).parcelOf j := by
    intro x j hx
    by_cases hj : j = id
    · subst hj
      rw [hnone] at hx
      cases hx
    · rw [hrest j hj]
      exact hx
  have hmem : id ∈ w.drawIds := (h.ids id).mpr (by simp [hrow])
  refine ⟨⟨?_, h.nodup, ?_, h.earlier⟩, hmono, hparcel, ?_⟩
  · intro j
    by_cases hj : j = id
    · subst hj
      simp only [hself, Option.isSome_some, iff_true]
      exact hmem
    · rw [hother j hj]
      exact h.ids j
  · intro j old hold
    by_cases hj : j = id
    · subst hj
      rw [hself] at hold
      cases hold
      rw [hbase]
      exact (h.base j row hrow).mono hmono
    · rw [hother j hj] at hold
      exact (h.base j old hold).mono hmono
  · intro g
    refine ⟨rfl, ?_⟩
    have hkeys : (w.drawIds.map fun j => j).Nodup := by
      rw [List.map_id']
      exact h.nodup
    have hsum := weight_congr_key (g := fun j => weight g (w.parcelOf j))
      (h := fun j => weight g ((w.withDb db).parcelOf j)) (fun j => j) hkeys hmem
      (fun j _ hj => by rw [hrest j hj])
    simp only [hnone, hparcel, weight_nil, Nat.add_zero] at hsum
    exact hsum

/-! ## A step of a task -/

/-- What a step of a task does to the parcels. -/
structure Moved (w : World) (env : Env) (p : Process) (t : Task) (r : World × Process × Task) :
    Prop where
  world : r.1.Sound
  mono : ∀ x id, x ∈ w.parcelOf id → x ∈ r.1.parcelOf id
  tasks : r.2.1.tasks = p.tasks
  carry : Held r.1 r.2.1.carryRolloverScadBase r.2.1.carried
  task : Held r.1 r.2.2.rollover r.2.2.parcels
  weighs : ∀ g, r.1.opened g + weight g r.2.1.carried + weight g r.2.2.parcels +
      t.lost g w env p + w.produced g =
    r.1.produced g + (w.opened g + weight g p.carried + weight g t.parcels)

/-- Nothing moves. -/
theorem Idle.moved {t : Task} {r : Process × Task} (hr : Idle p r) (hw : w.Sound)
    (hp : p.Sound w) (hsame : SameDraws w w')
    (hlost : ∀ g, t.lost g w env p = weight g t.parcels) : Moved w env p t (w', r) where
  world := hsame.sound hw
  mono := hsame.mono
  tasks := hr.tasks
  carry := by
    rw [hr.carry, hr.carried]
    exact hp.carry.mono hsame.mono
  task := by
    rw [hr.rollover, hr.parcels]
    exact .nil w'
  weighs := by
    intro g
    rw [hr.carried, hr.parcels, hsame.opened, hsame.produced, hlost g, weight_nil]
    omega

theorem SameDraws.refl (w : World) : SameDraws w w := ⟨rfl, rfl, rfl⟩

/-- A fresh carry. -/
theorem Idle.withCurrent {draw : Option CurrentDraw} {r : Process × Task}
    (h : Idle { p with current := draw } r) : Idle p r :=
  ⟨h.carry, h.carried, h.tasks, h.parcels, h.rollover⟩

/-- A committed settle hands its rollover to the task. -/
theorem settleAttempt_moved {draw : CurrentDraw} {drawn : Drawn} {vars : Captured} {k : Kont}
    (hw : w.Sound) (hp : p.Sound w) :
    Moved w env p (.transaction draw drawn vars k)
      (settleAttempt deps w env p draw drawn vars k) := by
  have hid : (draw.input drawn).drawId = draw.id := rfl
  unfold settleAttempt
  generalize draw.input drawn = inp at hid
  split
  case h_2 vars' e h =>
    split
    · exact (settleEnded_idle env p k).moved hw hp (.refl w) fun _ => rfl
    · split
      · have hstay : Idle p (p, .transaction draw drawn vars' k) := ⟨rfl, rfl, rfl, rfl, rfl⟩
        exact hstay.moved hw hp (.refl w) fun _ => rfl
      · exact (settleFailed_idle p k).moved hw hp (.refl w) fun _ => rfl
  case h_1 vars' u db h =>
    obtain ⟨t, hrun, rfl, rfl⟩ := Tx.transact_ok h
    obtain ⟨-, hsettled⟩ := settleTx_ok hrun
    obtain ⟨row, hrow, hopen, hdb⟩ := hsettled.claimed
    have hbase : (drawnRow inp env.settle (findTickets inp.drawId w.db) row).rolloverScadBase =
        row.rolloverScadBase := rfl
    obtain ⟨hsound, hmono, hparcel, hweigh⟩ := hw.settle hrow hopen hbase hdb
    have hroll := settleTx_rollover hrun
    simp only [nextRolloverOf_drawnRow] at hparcel hweigh
    rw [← hroll] at hparcel
    simp only [← hroll] at hweigh
    refine ⟨hsound, hmono, rfl, hp.carry.mono hmono, ⟨?_, ?_⟩, ?_⟩
    · simp [Task.rollover, Task.parcels]
    · intro x hx
      have hx' : x ∈ parcel inp.drawId t.vars.nextRollover := hid ▸ hx
      rw [(mem_parcel.mp hx').1]
      show _ ∈ (w.withDb t.db).parcelOf inp.drawId
      rw [hparcel]
      exact (mem_parcel.mp hx').1 ▸ hx'
    · intro g
      obtain ⟨hopened, hproduced⟩ := hweigh g
      simp only [hopened, hproduced, Task.parcels, Task.lost, weight_nil, ← hid]
      omega

/-- A step of a task accounts for every parcel. -/
theorem Task.step_moves (t : Task) (hw : w.Sound) (hp : p.Sound w)
    (ht : Held w t.rollover t.parcels) : Moved w env p t (t.step deps w env p) := by
  cases t with
  | scan => exact (recover_idle env p w.findOpen).moved hw hp (.refl w) fun _ => rfl
  | rebuild d rest live =>
    simp only [Task.step]
    split
    · exact (drawAndSettle_idle env _ _).withCurrent.moved hw hp (.refl w) fun _ => rfl
    · exact (nextStranded_idle env p rest live).moved hw hp (.refl w) fun _ => rfl
  | resume =>
    simp only [Task.step]
    split
    case h_1 draw _ =>
      have hidle : Idle p ({ p with current := some draw }, .done) := ⟨rfl, rfl, rfl, rfl, rfl⟩
      exact hidle.moved hw hp (.refl w) fun _ => rfl
    case h_2 => exact (openAtBoot_idle env p).moved hw hp (.refl w) fun _ => rfl
  | createSeed k =>
    have hidle : Idle p (p, .maxIndex env.newSeedId env.newSeed k) := ⟨rfl, rfl, rfl, rfl, rfl⟩
    exact hidle.moved hw hp ⟨rfl, rfl, rfl⟩ fun _ => rfl
  | maxIndex =>
    refine ⟨hw, fun _ _ h => h, rfl, .nil w, hp.carry, ?_⟩
    intro g
    simp only [Task.step, Process.takeRollover, Task.parcels, Task.lost, weight_nil]
    omega
  | createDraw new k =>
    simp only [Task.step]
    split
    case isTrue haccepts =>
      have hnew : w.db.lotteryDraws env.newDrawId = none := by
        simp only [World.accepts, Bool.and_eq_true, Option.isNone_iff_eq_none] at haccepts
        exact haccepts.1
      obtain ⟨hsound, hparcel, hweigh⟩ := hw.createDraw hnew ht
      have hmono : ∀ x j, x ∈ w.parcelOf j →
          x ∈ (w.createDraw env.newDrawId new).parcelOf j := by
        intro x j hx
        rw [hparcel j]
        exact hx
      refine ⟨hsound, hmono, rfl, hp.carry.mono hmono, .nil _, ?_⟩
      intro g
      obtain ⟨hopened, hproduced⟩ := hweigh g
      simp only [hopened, hproduced, Task.parcels, Task.lost, haccepts, if_true, weight_nil]
      omega
    case isFalse hrefused =>
      refine (opened_idle env p k).moved hw hp (.refl w) ?_
      intro g
      simp [Task.lost, Task.parcels, hrefused]
  | commitDraw draw k =>
    exact (opened_idle env _ k).withCurrent.moved hw hp (.refl w) fun _ => rfl
  | reveal draw k =>
    simp only [Task.step]
    split
    case h_1 drawn _ =>
      have hidle : Idle p (p, .transaction draw drawn .init k) := ⟨rfl, rfl, rfl, rfl, rfl⟩
      exact hidle.moved hw hp (.refl w) fun _ => rfl
    case h_2 => exact (settleFailed_idle p k).moved hw hp (.refl w) fun _ => rfl
  | transaction => exact settleAttempt_moved hw hp
  | committed =>
    refine ⟨hw, fun _ _ h => h, rfl, ht, .nil w, ?_⟩
    intro g
    simp only [Task.step, Process.keepRollover, Task.parcels, Task.lost, weight_nil]
    omega
  | payPrizes k => exact (openNext_idle env p k).moved hw hp (.refl w) fun _ => rfl
  | done =>
    have hidle : Idle p (p, .done) := ⟨rfl, rfl, rfl, rfl, rfl⟩
    exact hidle.moved hw hp (.refl w) fun _ => rfl

/-! ## A step of the system -/

theorem System.task?_eq {s : System} {process : ProcessId} {task : TaskId} {t : Task} :
    s.task? process task = some (p, t) ↔
      s.processes.get process = some p ∧ p.tasks.get task = some t := by
  unfold task?
  cases s.processes.get process with
  | none => simp
  | some =>
    simp only [Option.map_eq_some_iff, Prod.mk.injEq, Option.some.injEq]
    constructor
    · rintro ⟨_, ht, rfl, rfl⟩
      exact ⟨rfl, ht⟩
    · rintro ⟨rfl, ht⟩
      exact ⟨t, ht, rfl, rfl⟩

/-- The process with one of its tasks replaced. -/
theorem Process.put_held {r : Process × Task} (task : TaskId) (htasks : r.1.tasks = p.tasks)
    (g : Parcel → Nat) :
    (Process.put task r).held g + ((p.tasks.get task).map fun t => weight g t.parcels).getD 0 +
      weight g p.carried = p.held g + weight g r.1.carried + weight g r.2.parcels := by
  have hsum := p.tasks.sum_set (k := task) (a := r.2) (g := fun t => weight g t.parcels)
  simp only [Process.held, Process.put, htasks]
  omega

theorem Process.Sound.put {r : Process × Task} (task : TaskId) (hp : p.Sound w)
    (htasks : r.1.tasks = p.tasks) (hmono : ∀ x id, x ∈ w.parcelOf id → x ∈ w'.parcelOf id)
    (hcarry : Held w' r.1.carryRolloverScadBase r.1.carried)
    (htask : Held w' r.2.rollover r.2.parcels) : (Process.put task r).Sound w' := by
  refine ⟨hcarry, ?_⟩
  show ∀ id t, (r.1.tasks.set task r.2).get id = some t → _
  rw [htasks]
  exact p.tasks.forall_set (fun id t ht => (hp.tasks id t ht).mono hmono) htask

/-- An idle result of a task. -/
theorem Idle.put {r : Process × Task} (hr : Idle p r) (task : TaskId) (hp : p.Sound w) :
    (Process.put task r).Sound w := by
  refine hp.put task hr.tasks (fun _ _ h => h) ?_ ?_
  · rw [hr.carry, hr.carried]
    exact hp.carry
  · rw [hr.rollover, hr.parcels]
    exact .nil w

/-- Where everything is after a step, and what the step lost. -/
structure Accounts (s s' : System) (act : Act) : Prop where
  sound : s'.Sound
  weighs : ∀ g, s'.world.opened g + s'.processes.sum (Process.held g) + lost g s act +
      s.world.produced g =
    s'.world.produced g + (s.world.opened g + s.processes.sum (Process.held g))

theorem accounts_run {s : System} {process : ProcessId} {task : TaskId} {t : Task}
    (h : s.Sound) (hp : s.processes.get process = some p) (ht : p.tasks.get task = some t) :
    let r := t.step deps s.world env p
    Accounts s ⟨r.1, s.processes.set process (.put task r.2)⟩ (.run process task env) := by
  intro r
  have hsound := h.processes process p hp
  have hmoved : Moved s.world env p t r := t.step_moves h.world hsound (hsound.tasks task t ht)
  refine ⟨⟨hmoved.world, ?_⟩, ?_⟩
  · refine s.processes.forall_set ?_ ?_
    · intro id q hq
      exact (h.processes id q hq).mono hmoved.mono
    · exact hsound.put task hmoved.tasks hmoved.mono hmoved.carry hmoved.task
  · intro g
    have hput := Process.put_held task hmoved.tasks g
    have hsum := s.processes.sum_set (k := process) (a := Process.put task r.2)
      (g := Process.held g)
    have hweigh := hmoved.weighs g
    have hlost : lost g s (.run process task env) = t.lost g s.world env p := by
      simp [lost, System.task?_eq.mpr ⟨hp, ht⟩]
    simp only [hp, ht, Option.map_some, Option.getD_some] at hput hsum
    rw [hlost]
    show r.1.opened g + (s.processes.set process (Process.put task r.2)).sum (Process.held g) + _ +
      _ = r.1.produced g + _
    omega

/-- A process that changed without moving a rollover, but for what its task
held. -/
theorem accounts_idle {s : System} {process : ProcessId} {task : TaskId} {r : Process × Task}
    {act : Act} (h : s.Sound) (hp : s.processes.get process = some p) (hr : Idle p r)
    (hlost : ∀ g, lost g s act = ((p.tasks.get task).map fun t => weight g t.parcels).getD 0) :
    Accounts s { s with processes := s.processes.set process (.put task r) } act := by
  have hsound := h.processes process p hp
  refine ⟨⟨h.world, s.processes.forall_set h.processes (hr.put task hsound)⟩, ?_⟩
  intro g
  have hput := Process.put_held task hr.tasks g
  have hsum := s.processes.sum_set (k := process) (a := Process.put task r) (g := Process.held g)
  simp only [hp, hr.carried, hr.parcels, weight_nil, Option.map_some, Option.getD_some] at hput hsum
  rw [hlost g]
  show s.world.opened g + (s.processes.set process (Process.put task r)).sum (Process.held g) +
    _ + _ = s.world.produced g + _
  omega

theorem step_accounts {s s' : System} {act : Act} (h : s.Sound)
    (hstep : step deps s act = some s') : Accounts s s' act := by
  cases act with
  | boot process =>
    simp only [step] at hstep
    split at hstep
    case h_1 hnone =>
      cases hstep
      have hfresh : Process.fresh.Sound s.world := ⟨.nil _, by simp [Process.fresh]⟩
      refine ⟨⟨h.world, s.processes.forall_set h.processes hfresh⟩, ?_⟩
      intro g
      have hsum := s.processes.sum_set (k := process) (a := Process.fresh) (g := Process.held g)
      have hheld : Process.fresh.held g = 0 := rfl
      simp only [hnone, hheld, Option.map_none, Option.getD_none] at hsum
      show _ + (s.processes.set process Process.fresh).sum (Process.held g) + _ + _ = _
      simp only [lost]
      omega
    case h_2 => cases hstep
  | start process task entry env =>
    simp only [step] at hstep
    split at hstep
    case h_1 p hp =>
      split at hstep
      case h_1 hnone =>
        cases hstep
        refine accounts_idle h hp (begin_idle env p entry) ?_
        intro g
        simp [lost, hnone]
      case h_2 => cases hstep
    case h_2 => cases hstep
  | run process task =>
    simp only [step] at hstep
    split at hstep
    case h_1 p t hpt =>
      cases hstep
      obtain ⟨hp, ht⟩ := System.task?_eq.mp hpt
      exact accounts_run h hp ht
    case h_2 => cases hstep
  | throws process task env =>
    simp only [step] at hstep
    split at hstep
    case h_1 p t hpt =>
      cases hstep
      obtain ⟨hp, ht⟩ := System.task?_eq.mp hpt
      refine accounts_idle h hp (throws_idle env p t) ?_
      intro g
      simp [lost, hpt, ht]
    case h_2 => cases hstep
  | kill =>
    simp only [step] at hstep
    split at hstep
    case h_1 p hp =>
      cases hstep
      refine ⟨⟨h.world, s.processes.forall_erase h.processes⟩, ?_⟩
      intro g
      have hsum := s.processes.sum_erase (g := Process.held g) hp
      simp only [lost, hp, Option.map_some, Option.getD_some]
      omega
    case h_2 => cases hstep
  | other db =>
    cases hstep
    have hsame : SameDraws s.world
        (s.world.withDb { db with lotteryDraws := s.world.db.lotteryDraws }) := ⟨rfl, rfl, rfl⟩
    refine ⟨⟨hsame.sound h.world, fun id p hp => (h.processes id p hp).mono hsame.mono⟩, ?_⟩
    intro g
    simp only [lost, hsame.opened, hsame.produced]
    omega

/-! ## What is lost -/

theorem Process.Sound.pending_eq (h : p.Sound w) : p.pending = p.held Prod.snd := by
  have htasks : p.tasks.sum Task.rollover = p.tasks.sum fun t => weight Prod.snd t.parcels := by
    refine weight_congr ?_
    intro entry hentry
    exact (h.tasks entry.1 entry.2 (p.tasks.get_eq_some.mpr hentry)).total
  rw [pending, held, h.carry.total, htasks]

/-- A process that holds no amount holds no parcel. -/
theorem Process.Sound.held_eq_zero (h : p.Sound w) (hzero : p.pending = 0) (g : Parcel → Nat) :
    p.held g = 0 := by
  have hcarry : p.carryRolloverScadBase = 0 := by
    unfold pending at hzero
    omega
  have htasks : p.tasks.sum (fun t => weight g t.parcels) = 0 := by
    refine p.tasks.sum_eq_zero ?_
    intro id t ht
    have hle := p.tasks.le_sum (g := Task.rollover) ht
    have hroll : t.rollover = 0 := by
      unfold pending at hzero
      omega
    rw [(h.tasks id t ht).zero_iff.mp hroll, weight_nil]
  rw [held, h.carry.zero_iff.mp hcarry, htasks, weight_nil]

theorem Task.kept_iff {t : Task} (hp : p.Sound w) (ht : Held w t.rollover t.parcels) :
    t.kept w env p = true ↔ t.lost Prod.snd w env p = 0 := by
  cases t with
  | committed => simp [Task.kept, Task.lost, hp.carry.total]
  | createDraw new =>
    have htotal : new.rolloverScadBase = weight Prod.snd new.parcels := ht.total
    by_cases haccepts : w.accepts env.newDrawId new = true
    · simp [Task.kept, Task.lost, haccepts]
    · simp [Task.kept, Task.lost, haccepts, htotal]
  | _ => simp [Task.kept, Task.lost]

theorem Task.lost_eq_zero {t : Task} (hp : p.Sound w) (ht : Held w t.rollover t.parcels)
    (hkept : t.kept w env p = true) (g : Parcel → Nat) : t.lost g w env p = 0 := by
  cases t with
  | committed =>
    have hzero : p.carryRolloverScadBase = 0 := by simpa [Task.kept] using hkept
    simp [Task.lost, hp.carry.zero_iff.mp hzero]
  | createDraw new =>
    simp only [Task.kept, Bool.or_eq_true, decide_eq_true_eq] at hkept
    cases hkept with
    | inl haccepts => simp [Task.lost, haccepts]
    | inr hzero =>
      have hnil : new.parcels = [] := (Held.zero_iff ht).mp hzero
      simp [Task.lost, hnil]
  | _ => rfl

/-- The condition is that no amount is lost. -/
theorem kept_iff {s : System} (h : s.Sound) (act : Act) : Kept s act ↔ lost Prod.snd s act = 0 := by
  cases act with
  | kill process =>
    cases hp : s.processes.get process with
    | none => simp [Kept, kept, lost, hp]
    | some p => simp [Kept, kept, lost, hp, (h.processes process p hp).pending_eq]
  | throws process task =>
    cases hpt : s.task? process task with
    | none => simp [Kept, kept, lost, hpt]
    | some pt =>
      obtain ⟨p, t⟩ := pt
      obtain ⟨hp, ht⟩ := System.task?_eq.mp hpt
      have hheld := (h.processes process p hp).tasks task t ht
      simp [Kept, kept, lost, hpt, hheld.total]
  | run process task env =>
    cases hpt : s.task? process task with
    | none => simp [Kept, kept, lost, hpt]
    | some pt =>
      obtain ⟨p, t⟩ := pt
      obtain ⟨hp, ht⟩ := System.task?_eq.mp hpt
      have hsound := h.processes process p hp
      have htask : t.kept s.world env p = true ↔ t.lost Prod.snd s.world env p = 0 :=
        Task.kept_iff hsound (hsound.tasks task t ht)
      simp [Kept, kept, lost, hpt, htask]
  | _ => simp [Kept, kept, lost]

/-- And then no parcel is. -/
theorem lost_eq_zero {s : System} (h : s.Sound) {act : Act} (hkept : Kept s act)
    (g : Parcel → Nat) : lost g s act = 0 := by
  cases act with
  | kill process =>
    cases hp : s.processes.get process with
    | none => simp [lost, hp]
    | some p =>
      have hzero : p.pending = 0 := by simpa [Kept, kept, hp] using hkept
      simp [lost, hp, (h.processes process p hp).held_eq_zero hzero g]
  | throws process task =>
    cases hpt : s.task? process task with
    | none => simp [lost, hpt]
    | some pt =>
      obtain ⟨p, t⟩ := pt
      obtain ⟨hp, ht⟩ := System.task?_eq.mp hpt
      have hheld := (h.processes process p hp).tasks task t ht
      have hzero : t.rollover = 0 := by simpa [Kept, kept, hpt] using hkept
      simp [lost, hpt, hheld.zero_iff.mp hzero]
  | run process task env =>
    cases hpt : s.task? process task with
    | none => simp [lost, hpt]
    | some pt =>
      obtain ⟨p, t⟩ := pt
      obtain ⟨hp, ht⟩ := System.task?_eq.mp hpt
      have hsound := h.processes process p hp
      have htask : t.kept s.world env p = true := by simpa [Kept, kept, hpt] using hkept
      simp [lost, hpt, Task.lost_eq_zero hsound (hsound.tasks task t ht) htask g]
  | _ => rfl

/-! ## Runs -/

/-- What the sums say, in weights. -/
theorem System.Sound.sums {s : System} (h : s.Sound) :
    s.rolloverBases = s.world.opened Prod.snd ∧
      s.rolloversProduced = s.world.produced Prod.snd ∧
      s.carryPending = s.processes.sum (Process.held Prod.snd) := by
  refine ⟨?_, ?_, ?_⟩
  · refine weight_congr ?_
    intro id hid
    obtain ⟨row, hrow⟩ := Option.isSome_iff_exists.mp ((h.world.ids id).mp hid)
    simp [hrow, (h.world.base id row hrow).total]
  · refine weight_congr ?_
    intro id _
    cases hrow : s.world.db.lotteryDraws id with
    | none | some => simp [World.parcelOf, hrow]
  · refine weight_congr ?_
    intro entry hentry
    exact (h.processes entry.1 entry.2 (s.processes.get_eq_some.mpr hentry)).pending_eq

theorem initial_sound (db : Db) : (System.initial db).Sound where
  world := ⟨by simp [System.initial], List.nodup_nil, by simp [System.initial],
    by simp [System.initial]⟩
  processes := by simp [System.initial]

/-- Along a run nothing appears, and nothing is lost exactly if every step
keeps what it holds. -/
theorem run_accounts {db : Db} {acts : List Act} {s : System}
    (hrun : run (step deps) (.initial db) acts = some s) :
    s.Sound ∧
      s.world.opened Prod.snd + s.processes.sum (Process.held Prod.snd) ≤
        s.world.produced Prod.snd ∧
      (Along (step deps) Kept (.initial db) acts ↔
        s.world.opened Prod.snd + s.processes.sum (Process.held Prod.snd) =
          s.world.produced Prod.snd) ∧
      (Along (step deps) Kept (.initial db) acts → ∀ g,
        s.world.opened g + s.processes.sum (Process.held g) = s.world.produced g) := by
  refine run_history (P := fun acts s => s.Sound ∧
      s.world.opened Prod.snd + s.processes.sum (Process.held Prod.snd) ≤
        s.world.produced Prod.snd ∧
      (Along (step deps) Kept (.initial db) acts ↔
        s.world.opened Prod.snd + s.processes.sum (Process.held Prod.snd) =
          s.world.produced Prod.snd) ∧
      (Along (step deps) Kept (.initial db) acts → ∀ g,
        s.world.opened g + s.processes.sum (Process.held g) = s.world.produced g)) ?_ ?_ hrun
  · exact ⟨initial_sound db, Nat.le_refl 0, ⟨fun _ => rfl, fun _ => trivial⟩, fun _ _ => rfl⟩
  · intro acts s act s' hbefore ⟨hsound, hle, hiff, hall⟩ hstep
    have haccounts := step_accounts hsound hstep
    have hamount := haccounts.weighs Prod.snd
    have hlast : Along (step deps) Kept (.initial db) (acts ++ [act]) ↔
        Along (step deps) Kept (.initial db) acts ∧ Kept s act := by
      rw [along_append]
      refine and_congr_right fun _ => ?_
      constructor
      · intro h
        exact (h s hbefore).1
      · intro hkept t ht
        rw [hbefore, Option.some.injEq] at ht
        subst ht
        exact ⟨hkept, fun _ _ => trivial⟩
    rw [hlast]
    refine ⟨haccounts.sound, by omega, ?_, ?_⟩
    · rw [hiff, kept_iff hsound act]
      omega
    · intro ⟨halong, hkept⟩ g
      have hg := haccounts.weighs g
      have hzero := lost_eq_zero hsound hkept g
      have hbefore' := hall halong g
      omega

/-! ## One place for each parcel -/

/-- In how many places a parcel is: in the bases of draws, or with a process. -/
def System.places (s : System) (x : Parcel) : Nat :=
  weight (fun id => (s.world.sources id).count x) s.world.drawIds +
    s.processes.sum fun p => p.carried.count x + p.tasks.sum fun t => t.parcels.count x

/-- One parcel, as a weight. -/
def only (x y : Parcel) : Nat := if y = x then 1 else 0

theorem weight_only (x : Parcel) (l : List Parcel) : weight (only x) l = l.count x :=
  weight_indicator x l

theorem System.places_eq (s : System) (x : Parcel) :
    s.places x = s.world.opened (only x) + s.processes.sum (Process.held (only x)) := by
  have hheld : Process.held (only x) =
      fun p => p.carried.count x + p.tasks.sum fun t => t.parcels.count x := by
    funext p
    simp only [Process.held, weight_only]
  simp only [places, World.opened, weight_only, hheld]

/-- A draw produces its parcel once. -/
theorem World.Sound.produced_only (h : w.Sound) {id : RoundId} {row : LotteryDraw}
    (hrow : w.db.lotteryDraws id = some row) (hpos : 0 < nextRolloverOf row) :
    w.produced (only (id, nextRolloverOf row)) = 1 := by
  have hmem : id ∈ w.drawIds := (h.ids id).mpr (by simp [hrow])
  have hone : ∀ j ∈ w.drawIds, weight (only (id, nextRolloverOf row)) (w.parcelOf j) =
      if j = id then 1 else 0 := by
    intro j _
    rw [weight_only]
    by_cases hj : j = id
    · subst hj
      simp [parcelOf, hrow, parcel, hpos]
    · rw [if_neg hj, List.count_eq_zero]
      intro hin
      unfold parcelOf at hin
      split at hin
      · obtain ⟨heq, -⟩ := mem_parcel.mp hin
        exact hj (Prod.mk.inj heq).1.symm
      · cases hin
  rw [produced, weight_congr hone, weight_indicator]
  exact List.count_eq_one_of_mem h.nodup hmem

/-- In every run, the rollover bases and the carry still pending add up to the
rollovers produced exactly if every step kept the rollovers that processes
held; and then every rollover is in one place, with the base of a draw made of
rollovers of earlier draws. -/
theorem rollover_conserved_iff {db : Db} {acts : List Act} {s : System}
    (hrun : run (step deps) (.initial db) acts = some s) :
    (Along (step deps) Kept (.initial db) acts ↔
      s.rolloverBases + s.carryPending = s.rolloversProduced) ∧
    (Along (step deps) Kept (.initial db) acts → ∀ id row,
      s.world.db.lotteryDraws id = some row → 0 < nextRolloverOf row →
        s.places (id, nextRolloverOf row) = 1) ∧
    ∀ i id row, s.world.drawIds[i]? = some id → s.world.db.lotteryDraws id = some row →
      row.rolloverScadBase = weight Prod.snd (s.world.sources id) ∧
        ∀ x ∈ s.world.sources id, x.1 ∈ s.world.drawIds.take i := by
  obtain ⟨hsound, -, hiff, hall⟩ := run_accounts hrun
  obtain ⟨hbases, hproduced, hpending⟩ := hsound.sums
  refine ⟨?_, ?_, ?_⟩
  · rw [hiff, hbases, hproduced, hpending]
  · intro halong id row hrow hpos
    rw [System.places_eq, hall halong]
    exact hsound.world.produced_only hrow hpos
  · intro i id row hi hrow
    exact ⟨(hsound.world.base id row hrow).total, hsound.world.earlier i id hi⟩

namespace Sample

def dependencies : Deps where
  sha := ⟨fun _ => 0, fun _ _ => 0⟩
  economyEnforced := false
  publicPlayerId _ := "player"
  referralCommission _ _ _ := 0
  scadBaseToLamports scadBase := scadBase
  periodKeys _ := ("day", "week")

def answers (id : RoundId) : Env where
  isLeader := true
  due _ := true
  newSeedId := id
  newSeed := ⟨"hash", "seed", "client", none⟩
  newDrawId := id
  drawn := some ⟨[1, 2, 3, 4, 5, 6], 0, "drand-quicknet", some 1, none, false⟩
  failAt := none
  settle := ⟨true, 1, id⟩
  again := false

/-- A draw is opened and settled, without a winner. -/
def settled : List Act :=
  [.boot 0, .start 0 0 .bootDraws (answers 1)] ++ List.replicate 5 (.run 0 0 (answers 1)) ++
    [.start 0 1 .drawAndSettle (answers 1)] ++ List.replicate 3 (.run 0 1 (answers 1))

/-- The next one is opened. -/
def settledAndOpened : List Act := settled ++ List.replicate 5 (.run 0 1 (answers 2))

/-- The process is restarted before that. -/
def settledAndRestarted : List Act :=
  settled ++ [.kill 0, .boot 1, .start 1 0 .bootDraws (answers 2)] ++
    List.replicate 5 (.run 1 0 (answers 2))

theorem opened_conserves : (run (step dependencies) (.initial .empty) settledAndOpened).any
    (fun s => decide (s.world.drawIds = [1, 2] ∧ 0 < s.rolloverBases ∧
      s.rolloverBases + s.carryPending = s.rolloversProduced)) = true := by
  decide +kernel

theorem restarted_loses : (run (step dependencies) (.initial .empty) settledAndRestarted).any
    (fun s => decide (s.world.drawIds = [1, 2] ∧ s.rolloverBases + s.carryPending = 0 ∧
      0 < s.rolloversProduced)) = true := by
  decide +kernel

end Sample

/-- A restart between a settle and the next draw loses the rollover. -/
theorem restart_loses_rollover : ∃ s,
    run (step Sample.dependencies) (.initial .empty) Sample.settledAndRestarted = some s ∧
      s.world.drawIds = [1, 2] ∧ s.rolloverBases + s.carryPending ≠ s.rolloversProduced := by
  obtain ⟨s, hs, h⟩ := (Option.any_eq_true _ _).mp Sample.restarted_loses
  obtain ⟨hids, _, _⟩ := of_decide_eq_true h
  exact ⟨s, hs, hids, by omega⟩

theorem rollover_conserved_sample : ∃ s,
    run (step Sample.dependencies) (.initial .empty) Sample.settledAndOpened = some s ∧
      0 < s.rolloverBases ∧
      Along (step Sample.dependencies) Kept (.initial .empty) Sample.settledAndOpened := by
  obtain ⟨s, hs, h⟩ := (Option.any_eq_true _ _).mp Sample.opened_conserves
  obtain ⟨-, hpos, hsum⟩ := of_decide_eq_true h
  exact ⟨s, hs, hpos, (rollover_conserved_iff hs).1.mpr hsum⟩

end Scadium.Games.Lottery
