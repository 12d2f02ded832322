/-
Scadium.Games.Lottery.SaleWindow — when the tickets of a draw are sold, and
when its randomness is there (`openNewDraw`, `scadium_lottery`).

The engine commits a draw with the next scheduled draw time and with a target
slot a fixed number of slots ahead. The program sells until the draw time, by
the clock, and reveals from the hash of the target slot, whatever the clock.
Slots and seconds pass as they like, and not every slot is produced. What has
been bought and revealed, and when, is recorded.
-/
import Scadium.Lib.Runs
import Scadium.Programs.Lottery.Reveal

namespace Scadium.Shared

namespace LOTTERY

def DRAW_HOURS_LOCAL : List Nat := [12]
def DRAW_TZ_OFFSET_MINUTES : Nat := 180
def TARGET_SLOT_OFFSET : Nat := 50

end LOTTERY

def MS_PER_HOUR : Nat := 60 * 60 * 1000

/-- The next draw time strictly after `nowMs`: the candidates are the draw
hours of the local day and of the next. -/
def nextLotteryDrawAt (nowMs : Nat) : Option Nat :=
  let offsetMs := LOTTERY.DRAW_TZ_OFFSET_MINUTES * 60 * 1000
  let localMs := nowMs + offsetMs
  let localDayStart := localMs / (24 * MS_PER_HOUR) * (24 * MS_PER_HOUR)
  let hours := LOTTERY.DRAW_HOURS_LOCAL.mergeSort (· ≤ ·)
  let candidates := hours.map (fun h => localDayStart + h * MS_PER_HOUR) ++
    hours.map fun h => localDayStart + 24 * MS_PER_HOUR + h * MS_PER_HOUR
  (candidates.find? (localMs < ·)).map (· - offsetMs)

end Scadium.Shared

namespace Scadium.Games.Lottery.SaleWindow

open Scadium.Lib Scadium.Fair Scadium.Shared
open Scadium.Programs.Lottery (Cluster Instruction LotteryConfig Pubkey TicketBought)

/-! ## The system -/

/-- A ticket that was bought, and when. -/
structure Purchase where
  ticket : TicketBought
  slot : Nat
  unix_timestamp : Nat
  deriving DecidableEq

/-- A draw that was revealed, and when. -/
structure Reveal where
  draw_index : Nat
  unix_timestamp : Nat
  deriving DecidableEq

structure State where
  cluster : Cluster
  purchases : List Purchase
  reveals : List Reveal

inductive Act where
  /-- slots and seconds pass; `hashes` are those of the slots that were produced -/
  | elapse (slots seconds : Nat) (hashes : List (Nat × Vector UInt8 32))
  /-- `openNewDraw`, which reads the clock of the API and a slot of its RPC -/
  | openNewDraw (draw_index : Nat) (server_seed_hash client_seed : Vector UInt8 32)
      (nowMs currentSlot : Nat)
  | purchase (buyer : Pubkey) (ixs : List Instruction)
  | revealDraw (draw_index : Nat) (server_seed : Vector UInt8 64)

/-- What `SlotHashes` retains. -/
def MAX_ENTRIES : Nat := 512

def State.initial (slot unix_timestamp : Nat) (scad : Balances Programs.Lottery.Holder) :
    State where
  cluster := ⟨slot, unix_timestamp, [], ⟨.empty, scad⟩, .empty⟩
  purchases := []
  reveals := []

/-- The produced slots are of those that pass, a hash being there from the
next slot on. -/
def Cluster.elapse (c : Cluster) (slots seconds : Nat) (hashes : List (Nat × Vector UInt8 32)) :
    Option Cluster :=
  if ∀ h ∈ hashes, c.slot ≤ h.1 ∧ h.1 < c.slot + slots then
    some { c with
      slot := c.slot + slots
      unix_timestamp := c.unix_timestamp + seconds
      slot_hashes := (hashes ++ c.slot_hashes).take MAX_ENTRIES }
  else none

/-- The draw time and the target slot the engine sends. -/
def commitParams (nowMs currentSlot : Nat) : Option (Nat × Nat) :=
  (nextLotteryDrawAt nowMs).map fun drawAtMs =>
    (drawAtMs / 1000, currentSlot + LOTTERY.TARGET_SLOT_OFFSET)

def State.committed (s : State) : Programs.Outcome Programs.Lottery.DrawError Cluster → State
  | .ok c => { s with cluster := c }
  | .error _ => s

/-- An instruction that is refused changes nothing. -/
def step (sha : Sha) (cfg : LotteryConfig) (s : State) : Act → Option State
  | .elapse slots seconds hashes =>
      (Cluster.elapse s.cluster slots seconds hashes).map fun c => { s with cluster := c }
  | .openNewDraw draw_index server_seed_hash client_seed nowMs currentSlot =>
      (commitParams nowMs currentSlot).map fun params =>
        s.committed (s.cluster.commit_draw draw_index server_seed_hash client_seed params.1
          params.2)
  | .purchase buyer ixs =>
      match s.cluster.purchase cfg buyer ixs with
      | .ok (c, events) => some { s with
          cluster := c
          purchases := events.map (⟨·, s.cluster.slot, s.cluster.unix_timestamp⟩) ++ s.purchases }
      | .error _ => some s
  | .revealDraw draw_index server_seed =>
      match s.cluster.reveal_draw sha draw_index server_seed with
      | .ok c => some { s with
          cluster := c
          reveals := ⟨draw_index, s.cluster.unix_timestamp⟩ :: s.reveals }
      | .error _ => some s

/-! ## The properties -/

/-- Every ticket was bought before the target slot of its draw, and no draw
was revealed before its time. -/
structure Sound (s : State) : Prop where
  purchases : ∀ p ∈ s.purchases, ∃ sealed, s.cluster.seals.get p.ticket.draw_index = some sealed ∧
    p.slot < sealed.target_slot
  reveals : ∀ r ∈ s.reveals, ∃ draw, s.cluster.accounts.draws.get r.draw_index = some draw ∧
    draw.draw_at ≤ r.unix_timestamp

/-- An open draw whose target slot lies before `slot` is past its time. -/
def InTime (c : Cluster) (slot draw_index : Nat) : Prop :=
  ∀ draw, c.accounts.draws.get draw_index = some draw → draw.status = .Open →
    ∀ sealed, c.seals.get draw_index = some sealed → sealed.target_slot < slot →
      draw.draw_at ≤ c.unix_timestamp

instance (c : Cluster) (slot draw_index : Nat) : Decidable (InTime c slot draw_index) :=
  match hdraw : c.accounts.draws.get draw_index, hsealed : c.seals.get draw_index with
  | some draw, some sealed =>
      decidable_of_iff (draw.status = .Open → sealed.target_slot < slot →
        draw.draw_at ≤ c.unix_timestamp) (by simp [InTime, hdraw, hsealed])
  | none, _ => .isTrue (by simp [InTime, hdraw])
  | some _, none => .isTrue (by simp [InTime, hsealed])

/-- When a ticket is asked for, the draw is past its time if its target slot
is reached; when a reveal is, if it is over. -/
def Timely (s : State) : Act → Prop
  | .purchase buyer ixs => ∀ e ∈ ixs.flatMap (·.tickets buyer),
      InTime s.cluster (s.cluster.slot + 1) e.draw_index
  | .revealDraw draw_index _ => InTime s.cluster s.cluster.slot draw_index
  | .elapse .. => True
  | .openNewDraw .. => True

instance (s : State) : ∀ act, Decidable (Timely s act)
  | .purchase buyer ixs => inferInstanceAs (Decidable (∀ e ∈ ixs.flatMap (·.tickets buyer),
      InTime s.cluster (s.cluster.slot + 1) e.draw_index))
  | .revealDraw _ _ => inferInstanceAs (Decidable (InTime _ _ _))
  | .elapse .. => .isTrue trivial
  | .openNewDraw .. => .isTrue trivial

/-! ## The invariant -/

/-- A draw has both its parts, and a hash is of a slot that is over. -/
structure Inv (c : Cluster) : Prop where
  sealed : ∀ i draw, c.accounts.draws.get i = some draw → ∃ sealed, c.seals.get i = some sealed
  draw : ∀ i sealed, c.seals.get i = some sealed → ∃ draw, c.accounts.draws.get i = some draw
  hashes : ∀ h ∈ c.slot_hashes, h.1 < c.slot

theorem inv_initial (slot unix_timestamp : Nat) (scad : Balances Programs.Lottery.Holder) :
    Inv (State.initial slot unix_timestamp scad).cluster where
  sealed := fun i draw h => by simp [State.initial] at h
  draw := fun i sealed h => by simp [State.initial] at h
  hashes := fun h hmem => by simp [State.initial] at hmem

/-- What never changes of the draws that are there. -/
structure Fixed (c c' : Cluster) : Prop where
  draw : ∀ i draw, c.accounts.draws.get i = some draw →
    ∃ draw', c'.accounts.draws.get i = some draw' ∧ draw'.draw_at = draw.draw_at
  sealed : ∀ i sealed, c.seals.get i = some sealed →
    ∃ sealed', c'.seals.get i = some sealed' ∧ sealed'.target_slot = sealed.target_slot

theorem Fixed.refl (c : Cluster) : Fixed c c :=
  ⟨fun _ draw h => ⟨draw, h, rfl⟩, fun _ sealed h => ⟨sealed, h, rfl⟩⟩

variable {sha : Sha} {cfg : LotteryConfig} {s s' : State} {act : Act} {c c' : Cluster}
variable {draw_index : Nat}

theorem elapse_ok {slots seconds : Nat} {hashes : List (Nat × Vector UInt8 32)}
    (h : Cluster.elapse c slots seconds hashes = some c') (hc : Inv c) :
    Inv c' ∧ Fixed c c' := by
  unfold Cluster.elapse at h
  split at h
  · rename_i hpassed
    cases h
    refine ⟨⟨hc.sealed, hc.draw, ?_⟩, ⟨(Fixed.refl c).draw, (Fixed.refl c).sealed⟩⟩
    intro h hmem
    cases List.mem_append.mp (List.mem_of_mem_take hmem) with
    | inl hmem => exact (hpassed h hmem).2
    | inr hmem =>
      have hold := hc.hashes h hmem
      simp only
      omega
  · cases h

theorem commit_fixed {server_seed_hash client_seed : Vector UInt8 32} {draw_at target_slot : Nat}
    (h : c.commit_draw draw_index server_seed_hash client_seed draw_at target_slot = .ok c')
    (hc : Inv c) : Inv c' ∧ Fixed c c' := by
  obtain ⟨-, hfree, sealed, -, rfl⟩ := Programs.Lottery.commit_draw_ok h
  have hnew : ∀ i draw, c.accounts.draws.get i = some draw → i ≠ draw_index := by
    rintro i draw hdraw rfl
    rw [hfree] at hdraw
    cases hdraw
  constructor
  · refine ⟨?_, ?_, hc.hashes⟩
    · intro i draw hdraw
      by_cases hi : i = draw_index
      · subst hi
        exact ⟨sealed, c.seals.get_set_self⟩
      · simp only [Table.get_set, hi, if_false] at hdraw ⊢
        exact hc.sealed i draw hdraw
    · intro i sealed' hsealed
      by_cases hi : i = draw_index
      · subst hi
        exact ⟨_, c.accounts.draws.get_set_self⟩
      · simp only [Table.get_set, hi, if_false] at hsealed ⊢
        exact hc.draw i sealed' hsealed
  · constructor
    · intro i draw hdraw
      exact ⟨draw, (c.accounts.draws.get_set_ne (hnew i draw hdraw)).trans hdraw, rfl⟩
    · intro i sealed' hsealed
      obtain ⟨draw, hdraw⟩ := hc.draw i sealed' hsealed
      exact ⟨sealed', (c.seals.get_set_ne (hnew i draw hdraw)).trans hsealed, rfl⟩

theorem purchase_fixed {accounts : Programs.Lottery.Accounts}
    (h : Programs.Lottery.SameSale c.accounts accounts) (hc : Inv c) :
    Inv { c with accounts := accounts } ∧ Fixed c { c with accounts := accounts } := by
  have hdraws : ∀ i draw, c.accounts.draws.get i = some draw →
      ∃ draw', accounts.draws.get i = some draw' ∧ draw'.draw_at = draw.draw_at := by
    intro i draw hdraw
    have hsame := h i
    rw [hdraw, Option.map_some, Option.map_eq_some_iff] at hsame
    obtain ⟨draw', hdraw', heq⟩ := hsame
    exact ⟨draw', hdraw', (Prod.mk.inj heq).1⟩
  constructor
  · refine ⟨?_, ?_, hc.hashes⟩
    · intro i draw hdraw
      have hsame := h i
      rw [hdraw, Option.map_some, eq_comm, Option.map_eq_some_iff] at hsame
      obtain ⟨draw', hdraw', -⟩ := hsame
      exact hc.sealed i draw' hdraw'
    · intro i sealed hsealed
      obtain ⟨draw, hdraw⟩ := hc.draw i sealed hsealed
      obtain ⟨draw', hdraw', -⟩ := hdraws i draw hdraw
      exact ⟨draw', hdraw'⟩
  · exact ⟨hdraws, fun i sealed hsealed => ⟨sealed, hsealed, rfl⟩⟩

theorem reveal_fixed {server_seed : Vector UInt8 64}
    (h : c.reveal_draw sha draw_index server_seed = .ok c') (hc : Inv c) :
    Inv c' ∧ Fixed c c' := by
  obtain ⟨_, _, _, _, _, hdraw, -, hsealed, -, -, rfl⟩ :=
    Programs.Lottery.reveal_draw_ok h
  constructor
  · refine ⟨?_, ?_, hc.hashes⟩
    · intro i draw' hdraw'
      by_cases hi : i = draw_index
      · subst hi
        exact ⟨_, c.seals.get_set_self⟩
      · simp only [Table.get_set, hi, if_false] at hdraw' ⊢
        exact hc.sealed i draw' hdraw'
    · intro i sealed' hsealed'
      by_cases hi : i = draw_index
      · subst hi
        exact ⟨_, c.accounts.draws.get_set_self⟩
      · simp only [Table.get_set, hi, if_false] at hsealed' ⊢
        exact hc.draw i sealed' hsealed'
  · constructor
    · intro i draw' hdraw'
      by_cases hi : i = draw_index
      · subst hi
        rw [hdraw] at hdraw'
        cases hdraw'
        exact ⟨_, c.accounts.draws.get_set_self, rfl⟩
      · exact ⟨draw', (c.accounts.draws.get_set_ne hi).trans hdraw', rfl⟩
    · intro i sealed' hsealed'
      by_cases hi : i = draw_index
      · subst hi
        rw [hsealed] at hsealed'
        cases hsealed'
        exact ⟨_, c.seals.get_set_self, rfl⟩
      · exact ⟨sealed', (c.seals.get_set_ne hi).trans hsealed', rfl⟩

/-! ## A step -/

/-- What has happened stays as it was. -/
theorem Sound.mono (h : Sound s) (hfixed : Fixed s.cluster c) :
    Sound { s with cluster := c } where
  purchases := by
    intro p hp
    obtain ⟨_, hsealed, hbefore⟩ := h.purchases p hp
    obtain ⟨sealed', hsealed', htarget⟩ := hfixed.sealed _ _ hsealed
    exact ⟨sealed', hsealed', htarget ▸ hbefore⟩
  reveals := by
    intro r hr
    obtain ⟨_, hdraw, hafter⟩ := h.reveals r hr
    obtain ⟨draw', hdraw', hat⟩ := hfixed.draw _ _ hdraw
    exact ⟨draw', hdraw', hat ▸ hafter⟩

theorem step_inv (hs : Inv s.cluster) (h : step sha cfg s act = some s') :
    Inv s'.cluster ∧ Fixed s.cluster s'.cluster := by
  cases act with
  | elapse =>
    obtain ⟨c, hc, rfl⟩ := Option.map_eq_some_iff.mp h
    exact elapse_ok hc hs
  | openNewDraw draw_index server_seed_hash client_seed =>
    obtain ⟨params, -, rfl⟩ := Option.map_eq_some_iff.mp h
    cases hcommit : s.cluster.commit_draw draw_index server_seed_hash client_seed params.1
      params.2 with
    | ok c => exact commit_fixed hcommit hs
    | error e => exact ⟨hs, Fixed.refl _⟩
  | purchase =>
    simp only [step] at h
    split at h
    · rename_i hpurchase
      cases h
      obtain ⟨_, rfl, hsame, -⟩ := Programs.Lottery.purchase_ok hpurchase
      exact purchase_fixed hsame hs
    · cases h
      exact ⟨hs, Fixed.refl _⟩
  | revealDraw =>
    simp only [step] at h
    split at h
    · rename_i hreveal
      cases h
      exact reveal_fixed hreveal hs
    · cases h
      exact ⟨hs, Fixed.refl _⟩

/-- A ticket of a draw on sale by the clock is bought before the target slot,
if the draw is in time. -/
theorem before_target (hc : Inv c) (hintime : InTime c (c.slot + 1) draw_index)
    (hsale : Programs.Lottery.OnSale c.accounts c.unix_timestamp draw_index) :
    ∃ sealed, c.seals.get draw_index = some sealed ∧ c.slot < sealed.target_slot := by
  obtain ⟨draw, hdraw, hopen, _⟩ := hsale
  obtain ⟨sealed, hsealed⟩ := hc.sealed draw_index draw hdraw
  refine ⟨sealed, hsealed, ?_⟩
  by_contra hreached
  have hover := hintime draw hdraw hopen sealed hsealed (by omega)
  omega

/-- A timely step keeps the properties. -/
theorem step_sound (hs : Inv s.cluster) (hsound : Sound s) (hok : Timely s act)
    (h : step sha cfg s act = some s') : Sound s' := by
  have hfixed := (step_inv hs h).2
  cases act with
  | elapse =>
    obtain ⟨c, -, rfl⟩ := Option.map_eq_some_iff.mp h
    exact hsound.mono hfixed
  | openNewDraw draw_index server_seed_hash client_seed =>
    obtain ⟨params, -, rfl⟩ := Option.map_eq_some_iff.mp h
    cases hcommit : s.cluster.commit_draw draw_index server_seed_hash client_seed params.1
      params.2 with
    | ok c =>
      rw [hcommit] at hfixed
      exact hsound.mono hfixed
    | error e => exact hsound
  | purchase =>
    simp only [step] at h
    split at h
    · rename_i events hpurchase
      cases h
      have hevents := Programs.Lottery.purchase_events hpurchase
      obtain ⟨_, rfl, -, hsale⟩ := Programs.Lottery.purchase_ok hpurchase
      have hmono := hsound.mono hfixed
      refine ⟨?_, hmono.reveals⟩
      intro p hp
      cases List.mem_append.mp hp with
      | inl hp =>
        obtain ⟨e, he, rfl⟩ := List.mem_map.mp hp
        exact before_target (c := s.cluster) hs (hok e (hevents ▸ he)) (hsale e he)
      | inr hp => exact hmono.purchases p hp
    · cases h
      exact hsound
  | revealDraw =>
    simp only [step] at h
    split at h
    · rename_i hreveal
      cases h
      have hmono := hsound.mono hfixed
      refine ⟨hmono.purchases, ?_⟩
      intro r hr
      cases List.mem_cons.mp hr with
      | inl heq =>
        subst heq
        obtain ⟨draw, sealed, _, _, _, hdraw, hopen, hsealed, hhash, -,
          -⟩ := Programs.Lottery.reveal_draw_ok hreveal
        obtain ⟨draw', hdraw', hat⟩ := hfixed.draw _ _ hdraw
        have hover := hok draw hdraw hopen sealed hsealed (hs.hashes _ hhash)
        exact ⟨draw', hdraw', hat ▸ hover⟩
      | inr hr => exact hmono.reveals r hr
    · cases h
      exact hsound

/-- As long as no draw is asked for between its target slot and its time, all
tickets are bought before the target slots, and all reveals come after the
draw times. -/
theorem sold_before_target (sha : Sha) (cfg : LotteryConfig) {slot unix_timestamp : Nat}
    {scad : Balances Programs.Lottery.Holder} {acts : List Act} {s : State}
    (hrun : run (step sha cfg) (.initial slot unix_timestamp scad) acts = some s)
    (hok : Along (step sha cfg) Timely (.initial slot unix_timestamp scad) acts) :
    Throughout (step sha cfg) (.initial slot unix_timestamp scad) acts Sound := by
  rintro before after t rfl hbefore
  have halong := (along_append.mp hok).1
  have hboth : Inv t.cluster ∧ Sound t := by
    refine run_induct (P := fun t => Inv t.cluster ∧ Sound t) ?_ ?_ halong hbefore
    · intro s act s' hok hs hstep
      exact ⟨(step_inv hs.1 hstep).1, step_sound hs.1 hs.2 hok hstep⟩
    · exact ⟨inv_initial _ _ _, ⟨by simp [State.initial], by simp [State.initial]⟩⟩
  exact hboth.2

namespace Sample

/-- A digest that depends on every byte. -/
def mixer : Sha where
  sha256 bytes := BitVec.ofNat 256
    ((bytes.foldl (fun acc b => acc * 1031 + b.toNat + 1) 7) * 2 ^ 190)
  hmacSha256 _ _ := 0

def seed : Vector UInt8 64 := Vector.replicate 64 0x61

def hash : Vector UInt8 32 := Vector.replicate 32 9

def client : Vector UInt8 32 := Vector.replicate 32 5

def scad : Balances Programs.Lottery.Holder :=
  Balances.empty.credit (.user "operator") (100 * 10 ^ 9)

/-- 2026-01-01, at midnight UTC. -/
def midnight : Nat := 1767225600

def opened : Act := .openNewDraw 1 (Programs.sha256 mixer seed.toList) client (midnight * 1000) 100

/-- The draw is opened, its target slot comes within half a minute, the winning
number is bought, and the draw is revealed hours before its time. -/
def early : List Act :=
  [opened, .elapse 60 30 [(150, hash)], .purchase "operator" [.buyTicket 1 [3, 4, 4, 4, 4, 5]],
    .revealDraw 1 seed]

/-- A ticket is bought at once, and no slot passes before the draw time. -/
def timely : List Act :=
  [opened, .purchase "operator" [.buyTicket 1 [0, 0, 0, 0, 0, 0]],
    .elapse 60 (10 * 3600) [(150, hash)], .revealDraw 1 seed]

/-- The draw of a run: its target slot, its winning number and its time. -/
def drawn (s : State) : Option (Nat × List Nat × Nat) := do
  let sealed ← s.cluster.seals.get 1
  let draw ← s.cluster.accounts.draws.get 1
  pure (sealed.target_slot, sealed.winning_digits.map UInt8.toNat, draw.draw_at)

theorem early_runs : (run (step mixer Programs.Lottery.setup) (.initial 100 midnight scad)
    early).any (fun s => decide (
      s.purchases = [⟨⟨1, "operator", [3, 4, 4, 4, 4, 5]⟩, 160, midnight + 30⟩] ∧
      s.reveals = [⟨1, midnight + 30⟩] ∧
      drawn s = some (150, [3, 4, 4, 4, 4, 5], midnight + 9 * 3600))) = true := by
  decide +kernel

theorem timely_runs : (run (step mixer Programs.Lottery.setup) (.initial 100 midnight scad)
    timely).any (fun s => decide (s.purchases.length = 1 ∧ s.reveals.length = 1 ∧
      Along (step mixer Programs.Lottery.setup) Timely (.initial 100 midnight scad) timely)) =
        true := by
  decide +kernel

end Sample

/-- The winning number is bought after its slot, and the draw revealed before
its time. -/
theorem winning_number_bought : ∃ s,
    run (step Sample.mixer Programs.Lottery.setup)
      (.initial 100 Sample.midnight Sample.scad) Sample.early = some s ∧
    s.purchases = [⟨⟨1, "operator", [3, 4, 4, 4, 4, 5]⟩, 160, Sample.midnight + 30⟩] ∧
    s.reveals = [⟨1, Sample.midnight + 30⟩] ∧
    Sample.drawn s = some (150, [3, 4, 4, 4, 4, 5], Sample.midnight + 9 * 3600) ∧ ¬ Sound s := by
  obtain ⟨s, hs, h⟩ := (Option.any_eq_true _ _).mp Sample.early_runs
  obtain ⟨hpurchases, hreveals, hdrawn⟩ := of_decide_eq_true h
  refine ⟨s, hs, hpurchases, hreveals, hdrawn, ?_⟩
  intro hsound
  obtain ⟨_, hsealed, hbefore⟩ := hsound.purchases _ (hpurchases ▸ List.mem_singleton_self _)
  simp only [Sample.drawn, hsealed, Option.bind_eq_bind, Option.bind_some,
    Option.bind_eq_some_iff] at hdrawn
  obtain ⟨_, -, hfields⟩ := hdrawn
  have htarget := (Prod.mk.inj (Option.some.inj hfields)).1
  simp only [htarget] at hbefore
  omega

theorem sold_before_target_timely : ∃ s,
    run (step Sample.mixer Programs.Lottery.setup)
      (.initial 100 Sample.midnight Sample.scad) Sample.timely = some s ∧
    s.purchases.length = 1 ∧ s.reveals.length = 1 ∧
    Throughout (step Sample.mixer Programs.Lottery.setup)
      (.initial 100 Sample.midnight Sample.scad) Sample.timely Sound := by
  obtain ⟨s, hs, h⟩ := (Option.any_eq_true _ _).mp Sample.timely_runs
  obtain ⟨hpurchases, hreveals, halong⟩ := of_decide_eq_true h
  exact ⟨s, hs, hpurchases, hreveals,
    sold_before_target Sample.mixer Programs.Lottery.setup hs halong⟩

end Scadium.Games.Lottery.SaleWindow
