/-
Scadium.Programs.Lottery.Reveal — the commitment and the reveal of a draw by
`scadium_lottery`, beside the sale of its tickets.

`Draw` of `Scadium.Programs.Lottery.Program` is the part of the account that
the sale reads, `Seal` the rest. `Cluster` holds the accounts with the sysvars
the instructions read: the clock, and `SlotHashes` as the list of the newest
slots with their hashes, newest first. The sale is judged by the clock and
the randomness by the slot; the two are tied by nothing here.
-/
import Scadium.Programs.Derivations
import Scadium.Programs.Lottery.Program

namespace Scadium.Programs.Lottery

open Scadium.Lib Scadium.Fair

inductive DrawError where
  | targetSlotNotFuture | seedMismatch | targetSlotNotAvailable
  /-- an error of the sale's part -/
  | sale (e : LotteryError)
  deriving DecidableEq

/-- What the account of a draw holds besides its sale. -/
structure Seal where
  server_seed_hash : Vector UInt8 32
  client_seed : Vector UInt8 32
  revealed_seed : Vector UInt8 64
  slot : Nat
  slot_hash : Vector UInt8 32
  final_entropy : Vector UInt8 32
  winning_digits : List UInt8
  target_slot : Nat
  deriving DecidableEq

structure Cluster where
  /-- `Clock::get()?.slot` -/
  slot : Nat
  /-- `Clock::get()?.unix_timestamp` -/
  unix_timestamp : Nat
  slot_hashes : List (Nat × Vector UInt8 32)
  accounts : Accounts
  seals : Table Nat Seal

/-- The sale's part of an instruction. -/
def ofSale {α : Type} : Result α → Outcome DrawError α
  | .ok a => .ok a
  | .error (.error e) => .error (.error (.sale e))
  | .error .constraint => .error .constraint
  | .error (.token e) => .error (.token e)
  | .error (.panic p) => .error (.panic p)

/-- `commit_draw`; what a reveal fills in is left at zero. -/
def Cluster.commit_draw (c : Cluster) (draw_index : Nat)
    (server_seed_hash client_seed : Vector UInt8 32) (draw_at target_slot : Nat) :
    Outcome DrawError Cluster := do
  require (c.slot < target_slot) .targetSlotNotFuture
  let accounts ← ofSale (Lottery.commit_draw c.accounts draw_index draw_at)
  pure { c with
    accounts := accounts
    seals := c.seals.set draw_index
      { server_seed_hash := server_seed_hash
        client_seed := client_seed
        revealed_seed := zeroed 64
        slot := 0
        slot_hash := zeroed 32
        final_entropy := zeroed 32
        winning_digits := List.replicate LOTTERY_DIGITS 0
        target_slot := target_slot } }

def find_slot_hash (slot_hashes : List (Nat × Vector UInt8 32)) (target_slot : Nat) :
    Option (Vector UInt8 32) :=
  (slot_hashes.find? fun p => p.1 == target_slot).map Prod.snd

/-- What a reveal writes to the account. -/
def Seal.reveal (sealed : Seal) (server_seed : Vector UInt8 64)
    (slot_hash final_entropy : Vector UInt8 32) (digits : List UInt8) : Seal :=
  { sealed with
    revealed_seed := server_seed
    slot := sealed.target_slot
    slot_hash := slot_hash
    final_entropy := final_entropy
    winning_digits := digits }

/-- `reveal_draw`; the clock is not read. -/
def Cluster.reveal_draw (sha : Sha) (c : Cluster) (draw_index : Nat)
    (server_seed : Vector UInt8 64) : Outcome DrawError Cluster :=
  match c.seals.get draw_index with
  | none => .error .constraint
  | some sealed => do
      let accounts ← ofSale (Lottery.reveal_draw c.accounts draw_index)
      require (sha256 sha server_seed.toList = sealed.server_seed_hash) .seedMismatch
      let slot_hash ← okOr (find_slot_hash c.slot_hashes sealed.target_slot)
        .targetSlotNotAvailable
      match derive_numbers sha server_seed slot_hash sealed.client_seed 0 with
      | none => .error (.panic .overflow)
      | some (final_entropy, digits) =>
          pure { c with
            accounts := accounts
            seals := c.seals.set draw_index
              (sealed.reveal server_seed slot_hash final_entropy digits) }

/-- A transaction of a buyer. -/
def Cluster.purchase (cfg : LotteryConfig) (c : Cluster) (buyer : Pubkey)
    (ixs : List Instruction) : Outcome DrawError (Cluster × List TicketBought) := do
  let r ← ofSale (exec cfg c.unix_timestamp buyer c.accounts ixs)
  pure ({ c with accounts := r.1 }, r.2)

/-! ## What an instruction does -/

variable {sha : Sha} {cfg : LotteryConfig} {c c' : Cluster} {draw_index : Nat}

@[simp] theorem ofSale_ok {α : Type} {r : Result α} {a : α} : ofSale r = .ok a ↔ r = .ok a := by
  cases r with
  | ok => simp [ofSale]
  | error f =>
    cases f with
    | error | constraint | token | panic => simp [ofSale]

theorem commit_draw_ok {server_seed_hash client_seed : Vector UInt8 32}
    {draw_at target_slot : Nat}
    (h : c.commit_draw draw_index server_seed_hash client_seed draw_at target_slot = .ok c') :
    c.slot < target_slot ∧ c.accounts.draws.get draw_index = none ∧ ∃ sealed : Seal,
      sealed.target_slot = target_slot ∧
      c' = { c with
        accounts := { c.accounts with
          draws := c.accounts.draws.set draw_index ⟨draw_at, .Open, 0⟩ }
        seals := c.seals.set draw_index sealed } := by
  obtain ⟨u, hfuture, h⟩ := bind_ok.mp h
  obtain ⟨_, hsale, h⟩ := bind_ok.mp h
  rw [ofSale_ok, commit_draw] at hsale
  split at hsale
  · cases hsale
  · rename_i hfree
    cases hsale
    cases h
    exact ⟨require_ok.mp hfuture, by simpa using hfree, _, rfl, rfl⟩

theorem mem_of_find_slot_hash {slot_hashes : List (Nat × Vector UInt8 32)} {target_slot : Nat}
    {hash : Vector UInt8 32} (h : find_slot_hash slot_hashes target_slot = some hash) :
    (target_slot, hash) ∈ slot_hashes := by
  unfold find_slot_hash at h
  cases hfind : slot_hashes.find? fun p => p.1 == target_slot with
  | none => simp [hfind] at h
  | some =>
    have hmem := List.mem_of_find?_eq_some hfind
    have hkey := List.find?_some hfind
    rw [hfind, Option.map_some, Option.some.injEq] at h
    rwa [← h, ← beq_iff_eq.mp hkey]

/-- A reveal that went through: the draw was open, and its digits are those of
the hash of its target slot. -/
theorem reveal_draw_ok {server_seed : Vector UInt8 64}
    (h : c.reveal_draw sha draw_index server_seed = .ok c') :
    ∃ draw sealed slot_hash final_entropy digits,
      c.accounts.draws.get draw_index = some draw ∧ draw.status = .Open ∧
      c.seals.get draw_index = some sealed ∧ (sealed.target_slot, slot_hash) ∈ c.slot_hashes ∧
      derive_numbers sha server_seed slot_hash sealed.client_seed 0 =
        some (final_entropy, digits) ∧
      c' = { c with
        accounts := { c.accounts with
          draws := c.accounts.draws.set draw_index { draw with status := .Revealed } }
        seals := c.seals.set draw_index
          (sealed.reveal server_seed slot_hash final_entropy digits) } := by
  unfold Cluster.reveal_draw at h
  cases hseal : c.seals.get draw_index with
  | none =>
    rw [hseal] at h
    cases h
  | some sealed =>
    simp only [hseal] at h
    obtain ⟨_, hsale, h⟩ := bind_ok.mp h
    obtain ⟨-, -, h⟩ := bind_ok.mp h
    obtain ⟨slot_hash, hfind, h⟩ := bind_ok.mp h
    rw [ofSale_ok, Lottery.reveal_draw] at hsale
    split at hsale
    · rename_i draw hdraw
      split at hsale
      · rename_i hopen
        cases hsale
        split at h
        · cases h
        · rename_i final_entropy digits hderive
          cases h
          exact ⟨draw, sealed, slot_hash, final_entropy, digits, hdraw, hopen, rfl,
            mem_of_find_slot_hash (okOr_ok.mp hfind), hderive, rfl⟩
      · cases hsale
    · cases hsale

/-! ## What a purchase does to the draws -/

/-- The sale of a draw goes on: its deadline and its status stay. -/
def SameSale (a a' : Accounts) : Prop :=
  ∀ i, (a'.draws.get i).map (fun d => (d.draw_at, d.status)) =
    (a.draws.get i).map fun d => (d.draw_at, d.status)

/-- The draw of a ticket is on sale by the clock. -/
def OnSale (a : Accounts) (unix_timestamp i : Nat) : Prop :=
  ∃ draw, a.draws.get i = some draw ∧ draw.status = .Open ∧ unix_timestamp < draw.draw_at

theorem SameSale.onSale {a a' : Accounts} (h : SameSale a a') {unix_timestamp i : Nat}
    (hsale : OnSale a' unix_timestamp i) : OnSale a unix_timestamp i := by
  obtain ⟨_, hdraw', hopen, hbefore⟩ := hsale
  have hsame := h i
  rw [hdraw', Option.map_some, eq_comm, Option.map_eq_some_iff] at hsame
  obtain ⟨draw, hdraw, heq⟩ := hsame
  obtain ⟨hat, hstatus⟩ := Prod.mk.inj heq
  exact ⟨draw, hdraw, hstatus.trans hopen, hat ▸ hbefore⟩

variable {unix_timestamp : Nat} {buyer : Pubkey} {a a' : Accounts} {events : List TicketBought}

theorem openDraw_ok {i : Nat} {draw : Draw} (h : a.openDraw unix_timestamp i = .ok draw) :
    a.draws.get i = some draw ∧ draw.status = .Open ∧ unix_timestamp < draw.draw_at := by
  unfold Accounts.openDraw at h
  split at h
  · rename_i d hd
    obtain ⟨u, hopen, h⟩ := bind_ok.mp h
    obtain ⟨v, hbefore, h⟩ := bind_ok.mp h
    cases h
    exact ⟨hd, require_ok.mp hopen, require_ok.mp hbefore⟩
  · cases h

/-- Counting the tickets leaves the sale as it was. -/
theorem sameSale_count {i n : Nat} {draw draw' : Draw} {scad : Balances Holder}
    (hdraw : a.draws.get i = some draw) (h : draw.count n = .ok draw') :
    SameSale a ⟨a.draws.set i draw', scad⟩ := by
  have hfields : draw'.draw_at = draw.draw_at ∧ draw'.status = draw.status := by
    unfold Draw.count at h
    split at h
    · cases h
      exact ⟨rfl, rfl⟩
    · cases h
  intro j
  by_cases hj : j = i
  · subst hj
    simp [hdraw, hfields]
  · simp [a.draws.get_set_ne hj]

theorem instruction_onSale {ix : Instruction}
    (h : ix.exec cfg unix_timestamp buyer a = .ok (a', events)) :
    SameSale a a' ∧ ∀ e ∈ events, OnSale a unix_timestamp e.draw_index := by
  cases ix with
  | buyTicket =>
    obtain ⟨draw, hdraw, h⟩ := bind_ok.mp h
    obtain ⟨-, -, h⟩ := bind_ok.mp h
    obtain ⟨scad, -, h⟩ := bind_ok.mp h
    obtain ⟨draw', hcount, h⟩ := bind_ok.mp h
    obtain ⟨hget, hopen, hbefore⟩ := openDraw_ok hdraw
    cases h
    refine ⟨sameSale_count hget hcount, ?_⟩
    intro e he
    rw [List.mem_singleton.mp he]
    exact ⟨draw, hget, hopen, hbefore⟩
  | buyTickets =>
    obtain ⟨-, -, h⟩ := bind_ok.mp h
    obtain ⟨draw, hdraw, h⟩ := bind_ok.mp h
    obtain ⟨-, -, h⟩ := bind_ok.mp h
    obtain ⟨_, -, h⟩ := bind_ok.mp h
    obtain ⟨_, -, h⟩ := bind_ok.mp h
    obtain ⟨_, hcount, h⟩ := bind_ok.mp h
    obtain ⟨hget, hopen, hbefore⟩ := openDraw_ok hdraw
    cases h
    refine ⟨sameSale_count hget hcount, ?_⟩
    intro e he
    obtain ⟨p, -, rfl⟩ := List.mem_map.mp he
    exact ⟨draw, hget, hopen, hbefore⟩
  | other =>
    simp only [Instruction.exec] at h
    split at h
    · cases h
    · cases h
      exact ⟨fun _ => rfl, by simp⟩

/-- Each ticket of a transaction that lands is of a draw on sale. -/
theorem exec_onSale {ixs : List Instruction}
    (h : exec cfg unix_timestamp buyer a ixs = .ok (a', events)) :
    SameSale a a' ∧ ∀ e ∈ events, OnSale a unix_timestamp e.draw_index := by
  induction ixs generalizing a a' events with
  | nil =>
    cases h
    exact ⟨fun _ => rfl, by simp⟩
  | cons ix ixs ih =>
    obtain ⟨⟨_, _⟩, hfirst, h⟩ := bind_ok.mp h
    obtain ⟨⟨_, _⟩, hrest, h⟩ := bind_ok.mp h
    cases h
    obtain ⟨hsame, hsale⟩ := instruction_onSale hfirst
    obtain ⟨hsame', hsale'⟩ := ih hrest
    refine ⟨fun i => (hsame' i).trans (hsame i), ?_⟩
    intro e he
    cases List.mem_append.mp he with
    | inl he => exact hsale e he
    | inr he => exact hsame.onSale (hsale' e he)

theorem purchase_ok {ixs : List Instruction} (h : c.purchase cfg buyer ixs = .ok (c', events)) :
    ∃ accounts, c' = { c with accounts := accounts } ∧ SameSale c.accounts accounts ∧
      ∀ e ∈ events, OnSale c.accounts c.unix_timestamp e.draw_index := by
  obtain ⟨r, hexec, h⟩ := bind_ok.mp h
  cases h
  exact ⟨r.1, rfl, exec_onSale (ofSale_ok.mp hexec)⟩

theorem purchase_events {ixs : List Instruction}
    (h : c.purchase cfg buyer ixs = .ok (c', events)) :
    events = ixs.flatMap (·.tickets buyer) := by
  obtain ⟨r, hexec, h⟩ := bind_ok.mp h
  cases h
  exact (exec_ok (ofSale_ok.mp hexec)).1

end Scadium.Programs.Lottery
