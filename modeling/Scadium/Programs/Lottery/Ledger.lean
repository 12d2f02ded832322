/-
Scadium.Programs.Lottery.Ledger — all of `scadium_lottery`: who may call its
instructions, where its $SCAD goes, and the events it emits
(`programs/scadium_lottery/src/lib.rs`).

`Cluster` holds the draws, the $SCAD accounts and the sysvars; beside it are
the supply of the mint and the `Payout` accounts, found by the draw and the
winner that seed their address. A winner is named by what holds its $SCAD: the
program takes any address, its own config included, which owns the treasury.

`Clock` and `SlotHashes` come from the runtime. The index a draw stores is the
one that seeds its address, so `WrongDraw` cannot occur.
-/
import Mathlib.Data.List.Nodup
import Mathlib.Logic.Function.Basic
import Scadium.Games.Lottery.SaleWindow
import Scadium.Lib.EventLog

namespace Scadium.Programs.Lottery

open Scadium.Lib Scadium.Fair

/-! ## Data -/

/-- The config account: the part the sale reads, and the cosigner. -/
structure Config extends LotteryConfig where
  cosigner : Pubkey

inductive ProgramError where
  | notCosigner | invalidBracket
  /-- an error of a draw or of its sale -/
  | draw (e : DrawError)
  deriving DecidableEq

/-- What the account of a paid prize holds besides its seeds. -/
structure Payout where
  bracket : Nat
  amount : Nat
  deriving DecidableEq

/-- What seeds the address of a payout: a draw and a winner. -/
structure PayoutKey where
  draw_index : Nat
  winner : Holder
  deriving DecidableEq

/-- Everything the instructions read and write. -/
structure Ledger where
  cluster : Cluster
  /-- the supply of the $SCAD mint -/
  supply : Nat
  payouts : Table PayoutKey Payout

inductive Event where
  | drawCommitted (draw_index : Nat) (server_seed_hash client_seed : Vector UInt8 32)
      (draw_at target_slot : Nat)
  | fundsInjected (draw_index amount : Nat)
  | ticketBought (ticket : TicketBought)
  | drawRevealed (draw_index : Nat) (server_seed : Vector UInt8 64) (slot : Nat)
      (slot_hash final_entropy : Vector UInt8 32) (digits : List UInt8)
  | prizePaid (draw_index : Nat) (winner : Holder) (amount bracket : Nat)
  | poolBurned (draw_index amount : Nat)
  deriving DecidableEq

abbrev ProgramResult (α : Type) := Outcome ProgramError α

/-- A failure of a part, as one of the whole. -/
def ofDraw {α : Type} : Outcome DrawError α → ProgramResult α
  | .ok a => .ok a
  | .error (.error e) => .error (.error (.draw e))
  | .error .constraint => .error .constraint
  | .error (.token e) => .error (.token e)
  | .error (.panic p) => .error (.panic p)

def Ledger.scad (l : Ledger) : Balances Holder := l.cluster.accounts.scad

def Ledger.setScad (l : Ledger) (scad : Balances Holder) : Ledger :=
  { l with cluster := { l.cluster with accounts := { l.cluster.accounts with scad := scad } } }

/-! ## The instructions -/

/-- `require_keys_eq!(cosigner.key(), config.cosigner)` -/
def Config.requireCosigner (cfg : Config) (signer : Pubkey) : ProgramResult Unit :=
  require (signer = cfg.cosigner) .notCosigner

/-- The account constraint that asks for the draw. -/
def Ledger.getDraw (l : Ledger) (draw_index : Nat) : ProgramResult Draw :=
  match l.cluster.accounts.draws.get draw_index with
  | some draw => .ok draw
  | none => .error .constraint

def commitDraw (cfg : Config) (signer : Pubkey) (l : Ledger) (draw_index : Nat)
    (server_seed_hash client_seed : Vector UInt8 32) (draw_at target_slot : Nat) :
    ProgramResult (Ledger × List Event) := do
  cfg.requireCosigner signer
  let cluster ← ofDraw
    (l.cluster.commit_draw draw_index server_seed_hash client_seed draw_at target_slot)
  pure ({ l with cluster := cluster },
    [.drawCommitted draw_index server_seed_hash client_seed draw_at target_slot])

def inject (cfg : Config) (signer : Pubkey) (l : Ledger) (draw_index amount : Nat) :
    ProgramResult (Ledger × List Event) := do
  let _ ← l.getDraw draw_index
  cfg.requireCosigner signer
  require (0 < amount) (.draw (.sale .zeroAmount))
  let scad ← transfer l.scad (.user signer) .treasury amount
  pure (l.setScad scad, [.fundsInjected draw_index amount])

/-- A transaction of a buyer. -/
def purchase (cfg : Config) (buyer : Pubkey) (l : Ledger) (ixs : List Instruction) :
    ProgramResult (Ledger × List Event) := do
  let r ← ofDraw (l.cluster.purchase cfg.toLotteryConfig buyer ixs)
  pure ({ l with cluster := r.1 }, r.2.map .ticketBought)

/-- The event of a reveal has what the account then holds. -/
def Seal.revealed (sealed : Seal) (draw_index : Nat) : Event :=
  .drawRevealed draw_index sealed.revealed_seed sealed.slot sealed.slot_hash
    sealed.final_entropy sealed.winning_digits

def revealDraw (sha : Sha) (cfg : Config) (signer : Pubkey) (l : Ledger) (draw_index : Nat)
    (server_seed : Vector UInt8 64) : ProgramResult (Ledger × List Event) := do
  cfg.requireCosigner signer
  let cluster ← ofDraw (l.cluster.reveal_draw sha draw_index server_seed)
  pure ({ l with cluster := cluster },
    (cluster.seals.get draw_index).toList.map (·.revealed draw_index))

/-- The `init` of the payout account fails on an address in use. -/
def payPrize (cfg : Config) (signer : Pubkey) (l : Ledger) (draw_index : Nat) (winner : Holder)
    (amount bracket : Nat) : ProgramResult (Ledger × List Event) := do
  let draw ← l.getDraw draw_index
  if (l.payouts.get ⟨draw_index, winner⟩).isSome then .error .constraint
  cfg.requireCosigner signer
  require (draw.status = .Revealed) (.draw (.sale .drawClosed))
  require (0 < amount) (.draw (.sale .zeroAmount))
  require (bracket < LOTTERY_DIGITS) .invalidBracket
  let scad ← transfer l.scad .treasury winner amount
  let paid := l.setScad scad
  pure ({ paid with payouts := l.payouts.set ⟨draw_index, winner⟩ ⟨bracket, amount⟩ },
    [.prizePaid draw_index winner amount bracket])

def burnPool (cfg : Config) (signer : Pubkey) (l : Ledger) (draw_index amount : Nat) :
    ProgramResult (Ledger × List Event) := do
  let draw ← l.getDraw draw_index
  cfg.requireCosigner signer
  require (draw.status = .Revealed) (.draw (.sale .drawClosed))
  require (0 < amount) (.draw (.sale .zeroAmount))
  let mint ← (Mint.mk l.supply l.scad).burn .treasury amount
  let burned := l.setScad mint.accounts
  pure ({ burned with supply := mint.supply }, [.poolBurned draw_index amount])

/-! ## What an instruction does -/

variable {sha : Sha} {cfg : Config} {signer : Pubkey} {l l' : Ledger} {events : List Event}
  {draw_index amount : Nat}

@[simp] theorem scad_setScad (l : Ledger) (scad : Balances Holder) :
    (l.setScad scad).scad = scad := rfl

@[simp] theorem ofDraw_ok {α : Type} {r : Outcome DrawError α} {a : α} :
    ofDraw r = .ok a ↔ r = .ok a := by
  cases r with
  | ok => simp [ofDraw]
  | error f => cases f <;> simp [ofDraw]

@[simp] theorem requireCosigner_ok {u : Unit} :
    cfg.requireCosigner signer = .ok u ↔ signer = cfg.cosigner := require_ok

@[simp] theorem getDraw_ok {draw : Draw} :
    l.getDraw draw_index = .ok draw ↔ l.cluster.accounts.draws.get draw_index = some draw := by
  unfold Ledger.getDraw
  split
  · simp [*]
  · simp [*]

/-- What a commitment leaves to the reveal. -/
def Seal.committed (server_seed_hash client_seed : Vector UInt8 32) (target_slot : Nat) :
    Seal where
  server_seed_hash := server_seed_hash
  client_seed := client_seed
  revealed_seed := zeroed 64
  slot := 0
  slot_hash := zeroed 32
  final_entropy := zeroed 32
  winning_digits := List.replicate LOTTERY_DIGITS 0
  target_slot := target_slot

theorem commitDraw_ok {server_seed_hash client_seed : Vector UInt8 32} {draw_at target_slot : Nat}
    (h : commitDraw cfg signer l draw_index server_seed_hash client_seed draw_at target_slot =
      .ok (l', events)) :
    signer = cfg.cosigner ∧ l.cluster.slot < target_slot ∧
      l.cluster.accounts.draws.get draw_index = none ∧
      events = [.drawCommitted draw_index server_seed_hash client_seed draw_at target_slot] ∧
      l' = { l with cluster := { l.cluster with
        accounts := { l.cluster.accounts with
          draws := l.cluster.accounts.draws.set draw_index ⟨draw_at, .Open, 0⟩ }
        seals := l.cluster.seals.set draw_index
          (.committed server_seed_hash client_seed target_slot) } } := by
  obtain ⟨u, hsigner, h⟩ := bind_ok.mp h
  obtain ⟨_, hcommit, h⟩ := bind_ok.mp h
  cases h
  rw [ofDraw_ok] at hcommit
  obtain ⟨v, hfuture, hcommit⟩ := bind_ok.mp hcommit
  obtain ⟨_, hsale, hcommit⟩ := bind_ok.mp hcommit
  rw [ofSale_ok, commit_draw] at hsale
  split at hsale
  · cases hsale
  · rename_i hfree
    cases hsale
    cases hcommit
    exact ⟨requireCosigner_ok.mp hsigner, require_ok.mp hfuture, by simpa using hfree, rfl, rfl⟩

theorem inject_ok (h : inject cfg signer l draw_index amount = .ok (l', events)) :
    signer = cfg.cosigner ∧ (∃ draw, l.cluster.accounts.draws.get draw_index = some draw) ∧
      0 < amount ∧ amount ≤ l.scad.get (.user signer) ∧
      events = [.fundsInjected draw_index amount] ∧
      l' = l.setScad (l.scad.move (.user signer) .treasury amount) := by
  obtain ⟨draw, hdraw, h⟩ := bind_ok.mp h
  obtain ⟨u, hsigner, h⟩ := bind_ok.mp h
  obtain ⟨v, hpos, h⟩ := bind_ok.mp h
  obtain ⟨_, hscad, h⟩ := bind_ok.mp h
  obtain ⟨hle, -, rfl⟩ := transfer_ok.mp hscad
  cases h
  exact ⟨requireCosigner_ok.mp hsigner, ⟨draw, getDraw_ok.mp hdraw⟩, require_ok.mp hpos, hle,
    rfl, rfl⟩

/-- A reveal that went through: the cosigner knew the committed seed, the
target slot has a hash, and the digits follow from both. -/
theorem revealDraw_ok {server_seed : Vector UInt8 64}
    (h : revealDraw sha cfg signer l draw_index server_seed = .ok (l', events)) :
    signer = cfg.cosigner ∧ ∃ draw sealed slot_hash final_entropy digits,
      l.cluster.accounts.draws.get draw_index = some draw ∧ draw.status = .Open ∧
      l.cluster.seals.get draw_index = some sealed ∧
      sha256 sha server_seed.toList = sealed.server_seed_hash ∧
      (sealed.target_slot, slot_hash) ∈ l.cluster.slot_hashes ∧
      derive_numbers sha server_seed slot_hash sealed.client_seed 0 =
        some (final_entropy, digits) ∧
      events = [.drawRevealed draw_index server_seed sealed.target_slot slot_hash final_entropy
        digits] ∧
      l' = { l with cluster := { l.cluster with
        accounts := { l.cluster.accounts with
          draws := l.cluster.accounts.draws.set draw_index { draw with status := .Revealed } }
        seals := l.cluster.seals.set draw_index
          (sealed.reveal server_seed slot_hash final_entropy digits) } } := by
  obtain ⟨u, hsigner, h⟩ := bind_ok.mp h
  obtain ⟨_, hreveal, h⟩ := bind_ok.mp h
  rw [ofDraw_ok] at hreveal
  obtain ⟨draw, sealed, slot_hash, final_entropy, digits, hdraw, hopen, hsealed, hhash, hderive,
    rfl⟩ := reveal_draw_ok hreveal
  have hseed : sha256 sha server_seed.toList = sealed.server_seed_hash := by
    unfold Cluster.reveal_draw at hreveal
    simp only [hsealed] at hreveal
    obtain ⟨_, -, hreveal⟩ := bind_ok.mp hreveal
    obtain ⟨v, hmatch, -⟩ := bind_ok.mp hreveal
    exact require_ok.mp hmatch
  cases h
  exact ⟨requireCosigner_ok.mp hsigner, draw, sealed, slot_hash, final_entropy, digits, hdraw,
    hopen, hsealed, hseed, hhash, hderive, by simp [Seal.revealed, Seal.reveal], rfl⟩

theorem payPrize_ok {winner : Holder} {bracket : Nat}
    (h : payPrize cfg signer l draw_index winner amount bracket = .ok (l', events)) :
    signer = cfg.cosigner ∧
      (∃ draw, l.cluster.accounts.draws.get draw_index = some draw ∧ draw.status = .Revealed) ∧
      l.payouts.get ⟨draw_index, winner⟩ = none ∧ 0 < amount ∧ bracket < LOTTERY_DIGITS ∧
      amount ≤ l.scad.get .treasury ∧
      events = [.prizePaid draw_index winner amount bracket] ∧
      l' = { l.setScad (l.scad.move .treasury winner amount) with
        payouts := l.payouts.set ⟨draw_index, winner⟩ ⟨bracket, amount⟩ } := by
  obtain ⟨draw, hdraw, h⟩ := bind_ok.mp h
  split at h
  · cases h
  · rename_i hfree
    obtain ⟨u, hsigner, h⟩ := bind_ok.mp h
    obtain ⟨v, hstatus, h⟩ := bind_ok.mp h
    obtain ⟨w, hpos, h⟩ := bind_ok.mp h
    obtain ⟨x, hbracket, h⟩ := bind_ok.mp h
    obtain ⟨_, hscad, h⟩ := bind_ok.mp h
    obtain ⟨hle, -, rfl⟩ := transfer_ok.mp hscad
    cases h
    exact ⟨requireCosigner_ok.mp hsigner, ⟨draw, getDraw_ok.mp hdraw, require_ok.mp hstatus⟩,
      by simpa using hfree, require_ok.mp hpos, require_ok.mp hbracket, hle, rfl, rfl⟩

theorem burnPool_ok (h : burnPool cfg signer l draw_index amount = .ok (l', events)) :
    signer = cfg.cosigner ∧
      (∃ draw, l.cluster.accounts.draws.get draw_index = some draw ∧ draw.status = .Revealed) ∧
      0 < amount ∧ amount ≤ l.scad.get .treasury ∧
      events = [.poolBurned draw_index amount] ∧
      l' = { l.setScad (l.scad.debit .treasury amount) with supply := l.supply - amount } := by
  obtain ⟨draw, hdraw, h⟩ := bind_ok.mp h
  obtain ⟨u, hsigner, h⟩ := bind_ok.mp h
  obtain ⟨v, hstatus, h⟩ := bind_ok.mp h
  obtain ⟨w, hpos, h⟩ := bind_ok.mp h
  obtain ⟨_, hmint, h⟩ := bind_ok.mp h
  obtain ⟨hle, rfl⟩ := burn_ok.mp hmint
  cases h
  exact ⟨requireCosigner_ok.mp hsigner, ⟨draw, getDraw_ok.mp hdraw, require_ok.mp hstatus⟩,
    require_ok.mp hpos, hle, rfl, rfl⟩

/-! ## What a purchase does -/

/-- The tickets of a draw among some. -/
def ticketsOf (draw_index : Nat) (tickets : List TicketBought) : Nat :=
  tickets.countP fun t => t.draw_index = draw_index

/-- A draw with more tickets. -/
def Draw.sold (draw : Draw) (n : Nat) : Draw :=
  { draw with ticket_count := draw.ticket_count + n }

@[simp] theorem Draw.sold_zero (draw : Draw) : draw.sold 0 = draw := rfl

theorem Draw.sold_sold (draw : Draw) (m n : Nat) : (draw.sold m).sold n = draw.sold (m + n) := by
  simp [Draw.sold, Nat.add_assoc]

/-- Six digits, none above nine. -/
def ValidPicks (digits : List Nat) : Prop := digits.length = LOTTERY_DIGITS ∧ ∀ d ∈ digits, d ≤ 9

/-- What the tickets of a transaction do: each is paid by its buyer to the
treasury and counted by its draw. -/
structure Sold (buyer : Pubkey) (a a' : Accounts) (tickets : List TicketBought) : Prop where
  scad : Moves (fun src dst => src = .user buyer ∧ dst = .treasury) a.scad a'.scad
  draws : ∀ i, a'.draws.get i = (a.draws.get i).map fun d => d.sold (ticketsOf i tickets)
  picks : ∀ t ∈ tickets, t.buyer = buyer ∧ ValidPicks t.digits

theorem Sold.refl (buyer : Pubkey) (a : Accounts) : Sold buyer a a [] where
  scad := .refl _
  draws := by simp [ticketsOf]
  picks := by simp

theorem Sold.trans {buyer : Pubkey} {a a' a'' : Accounts} {tickets tickets' : List TicketBought}
    (h : Sold buyer a a' tickets) (h' : Sold buyer a' a'' tickets') :
    Sold buyer a a'' (tickets ++ tickets') where
  scad := h.scad.trans h'.scad
  draws := by
    intro i
    rw [h'.draws i, h.draws i, Option.map_map]
    congr 1
    funext d
    simp [Draw.sold_sold, ticketsOf]
  picks := by
    intro t ht
    cases List.mem_append.mp ht with
    | inl ht => exact h.picks t ht
    | inr ht => exact h'.picks t ht

theorem validate_picks_ok {digits : List Nat} {u : Unit} (h : validate_picks digits = .ok u) :
    ValidPicks digits := by
  unfold validate_picks at h
  split at h
  · cases h
  · rename_i hlength
    exact ⟨not_not.mp hlength, require_ok.mp h⟩

theorem validate_all_ok {picks : List (List Nat)} {u : Unit} (h : validate_all picks = .ok u) :
    ∀ p ∈ picks, ValidPicks p := by
  induction picks with
  | nil => simp
  | cons p picks ih =>
    obtain ⟨v, hp, h⟩ := bind_ok.mp h
    simpa using ⟨validate_picks_ok hp, fun q hq => ih h q hq⟩

/-- The tickets of one batch. -/
theorem Sold.batch {buyer : Pubkey} {a : Accounts} {i paid : Nat} {draw draw' : Draw}
    {tickets : List TicketBought} {scad : Balances Holder}
    (hdraw : a.draws.get i = some draw) (hcount : draw.count tickets.length = .ok draw')
    (hscad : (transfer a.scad (.user buyer) .treasury paid : Result (Balances Holder)) = .ok scad)
    (hindex : ∀ t ∈ tickets, t.draw_index = i)
    (hpicks : ∀ t ∈ tickets, t.buyer = buyer ∧ ValidPicks t.digits) :
    Sold buyer a ⟨a.draws.set i draw', scad⟩ tickets where
  scad := by
    obtain ⟨hle, -, rfl⟩ := transfer_ok.mp hscad
    exact .single ⟨rfl, rfl⟩ (by simp) hle
  draws := by
    have hsold : draw' = draw.sold tickets.length := by
      unfold Draw.count at hcount
      split at hcount
      · cases hcount
        rfl
      · cases hcount
    intro j
    by_cases hj : j = i
    · subst hj
      have hall : ticketsOf j tickets = tickets.length :=
        List.countP_eq_length.mpr fun t ht => decide_eq_true (hindex t ht)
      simp [hdraw, hsold, hall]
    · have hnone : ticketsOf j tickets = 0 := by
        refine List.countP_eq_zero.mpr ?_
        intro t ht
        simpa [hindex t ht] using Ne.symm hj
      simp [a.draws.get_set_ne hj, hnone]
  picks := hpicks

variable {lcfg : LotteryConfig} {unix_timestamp : Nat} {buyer : Pubkey} {a a' : Accounts}
  {tickets : List TicketBought}

theorem instruction_sold {ix : Instruction}
    (h : ix.exec lcfg unix_timestamp buyer a = .ok (a', tickets)) : Sold buyer a a' tickets := by
  cases ix with
  | buyTicket =>
    obtain ⟨draw, hdraw, h⟩ := bind_ok.mp h
    obtain ⟨u, hpicks, h⟩ := bind_ok.mp h
    obtain ⟨scad, hscad, h⟩ := bind_ok.mp h
    obtain ⟨draw', hcount, h⟩ := bind_ok.mp h
    cases h
    exact .batch (openDraw_ok hdraw).1 hcount hscad (by simp)
      (by simpa using validate_picks_ok hpicks)
  | buyTickets =>
    obtain ⟨-, -, h⟩ := bind_ok.mp h
    obtain ⟨_, hdraw, h⟩ := bind_ok.mp h
    obtain ⟨u, hpicks, h⟩ := bind_ok.mp h
    obtain ⟨_, -, h⟩ := bind_ok.mp h
    obtain ⟨_, hscad, h⟩ := bind_ok.mp h
    obtain ⟨_, hcount, h⟩ := bind_ok.mp h
    cases h
    refine .batch (openDraw_ok hdraw).1 (by simpa using hcount) hscad (by simp) ?_
    intro t ht
    obtain ⟨p, hp, rfl⟩ := List.mem_map.mp ht
    exact ⟨rfl, validate_all_ok hpicks p hp⟩
  | other =>
    simp only [Instruction.exec] at h
    split at h
    · cases h
    · cases h
      exact .refl buyer a

theorem exec_sold {ixs : List Instruction}
    (h : exec lcfg unix_timestamp buyer a ixs = .ok (a', tickets)) :
    Sold buyer a a' tickets := by
  induction ixs generalizing a a' tickets with
  | nil =>
    cases h
    exact .refl buyer a
  | cons ix ixs ih =>
    obtain ⟨⟨_, _⟩, hfirst, h⟩ := bind_ok.mp h
    obtain ⟨⟨_, _⟩, hrest, h⟩ := bind_ok.mp h
    cases h
    exact (instruction_sold hfirst).trans (ih hrest)

theorem purchase_sold {ixs : List Instruction}
    (h : purchase cfg buyer l ixs = .ok (l', events)) :
    ∃ accounts tickets, l' = { l with cluster := { l.cluster with accounts := accounts } } ∧
      events = tickets.map .ticketBought ∧ Sold buyer l.cluster.accounts accounts tickets ∧
      (∀ t ∈ tickets, OnSale l.cluster.accounts l.cluster.unix_timestamp t.draw_index) ∧
      accounts.scad.get .treasury =
        l.scad.get .treasury + (ixs.map (·.cost cfg.toLotteryConfig)).sum := by
  obtain ⟨r, hpurchase, h⟩ := bind_ok.mp h
  rw [ofDraw_ok] at hpurchase
  obtain ⟨q, hexec, hpurchase⟩ := bind_ok.mp hpurchase
  rw [ofSale_ok] at hexec
  cases hpurchase
  cases h
  exact ⟨q.1, q.2, rfl, rfl, exec_sold hexec, (exec_onSale hexec).2, (exec_ok hexec).2.1⟩

/-! ## Whole runs

Any instructions by any signers, any $SCAD transfers and burns beside them (all
of the $SCAD is minted before), and a chain that produces slots as it likes;
a slot has one hash on the whole chain. In every run the draws and payouts are
the `View` of the events, and the events come as `Allowed` (`run_logs`). A
transaction that fails changes nothing and is no step. -/

open Scadium.Lib.EventLog

/-! ## The view of the events -/

/-- What the draw and payout accounts hold, by their seeds. -/
@[ext]
structure View where
  draws : Nat → Option Draw
  seals : Nat → Option Seal
  payouts : PayoutKey → Option Payout

def View.empty : View := ⟨fun _ => none, fun _ => none, fun _ => none⟩

def Ledger.view (l : Ledger) : View :=
  ⟨l.cluster.accounts.draws.get, l.cluster.seals.get, l.payouts.get⟩

/-- What an event adds. -/
def View.apply (v : View) : Event → View
  | .drawCommitted i server_seed_hash client_seed draw_at target_slot =>
      { v with
        draws := Function.update v.draws i (some ⟨draw_at, .Open, 0⟩)
        seals := Function.update v.seals i
          (some (.committed server_seed_hash client_seed target_slot)) }
  | .fundsInjected .. => v
  | .ticketBought t =>
      { v with
        draws := Function.update v.draws t.draw_index
          ((v.draws t.draw_index).map (·.sold 1)) }
  | .drawRevealed i server_seed _ slot_hash final_entropy digits =>
      { v with
        draws := Function.update v.draws i
          ((v.draws i).map fun d => { d with status := .Revealed })
        seals := Function.update v.seals i
          ((v.seals i).map (·.reveal server_seed slot_hash final_entropy digits)) }
  | .prizePaid i winner amount bracket =>
      { v with payouts := Function.update v.payouts ⟨i, winner⟩ (some ⟨bracket, amount⟩) }
  | .poolBurned .. => v

/-- The draw is there, with this status. -/
def View.Has (v : View) (i : Nat) (status : DrawStatus) : Prop :=
  ∃ d, v.draws i = some d ∧ d.status = status

/-- The hash function, and the chain. -/
structure Env where
  sha : Sha
  /-- the hash of a slot -/
  hashOf : Nat → Vector UInt8 32

/-- Which event may come next. -/
def Allowed (env : Env) (v : View) : Event → Prop
  | .drawCommitted i .. => v.draws i = none
  | .fundsInjected i amount => (v.draws i).isSome ∧ 0 < amount
  | .ticketBought t => v.Has t.draw_index .Open ∧ ValidPicks t.digits
  | .drawRevealed i server_seed slot slot_hash final_entropy digits =>
      v.Has i .Open ∧ slot_hash = env.hashOf slot ∧ ∃ sealed, v.seals i = some sealed ∧
        slot = sealed.target_slot ∧
        sha256 env.sha server_seed.toList = sealed.server_seed_hash ∧
        derive_numbers env.sha server_seed slot_hash sealed.client_seed 0 =
          some (final_entropy, digits)
  | .prizePaid i winner amount bracket =>
      v.Has i .Revealed ∧ v.payouts ⟨i, winner⟩ = none ∧ 0 < amount ∧ bracket < LOTTERY_DIGITS
  | .poolBurned i amount => v.Has i .Revealed ∧ 0 < amount

/-! ## The system -/

inductive Act where
  | commitDraw (signer : Pubkey) (draw_index : Nat)
      (server_seed_hash client_seed : Vector UInt8 32) (draw_at target_slot : Nat)
  | inject (signer : Pubkey) (draw_index amount : Nat)
  | purchase (buyer : Pubkey) (ixs : List Instruction)
  | revealDraw (signer : Pubkey) (draw_index : Nat) (server_seed : Vector UInt8 64)
  | payPrize (signer : Pubkey) (draw_index : Nat) (winner : Holder) (amount bracket : Nat)
  | burnPool (signer : Pubkey) (draw_index amount : Nat)
  /-- $SCAD that a wallet sends, to the treasury too -/
  | send (wallet : Pubkey) (dst : Holder) (amount : Nat)
  /-- $SCAD that a wallet burns -/
  | burn (wallet : Pubkey) (amount : Nat)
  /-- slots and seconds pass, and these slots are produced -/
  | elapse (slots seconds : Nat) (produced : List Nat)

def Act.exec (env : Env) (cfg : Config) (l : Ledger) : Act → Option (Ledger × List Event)
  | .commitDraw signer i server_seed_hash client_seed draw_at target_slot =>
      (Lottery.commitDraw cfg signer l i server_seed_hash client_seed draw_at
        target_slot).toOption
  | .inject signer i amount => (Lottery.inject cfg signer l i amount).toOption
  | .purchase buyer ixs => (Lottery.purchase cfg buyer l ixs).toOption
  | .revealDraw signer i server_seed =>
      (Lottery.revealDraw env.sha cfg signer l i server_seed).toOption
  | .payPrize signer i winner amount bracket =>
      (Lottery.payPrize cfg signer l i winner amount bracket).toOption
  | .burnPool signer i amount => (Lottery.burnPool cfg signer l i amount).toOption
  | .send wallet dst amount =>
      (transfer l.scad (.user wallet) dst amount : ProgramResult (Balances Holder)).toOption.map
        fun scad => (l.setScad scad, [])
  | .burn wallet amount =>
      ((Mint.mk l.supply l.scad).burn (.user wallet) amount :
        ProgramResult (Mint Holder)).toOption.map fun mint =>
          ({ l.setScad mint.accounts with supply := mint.supply }, [])
  | .elapse slots seconds produced =>
      (Games.Lottery.SaleWindow.Cluster.elapse l.cluster slots seconds
        (produced.map fun n => (n, env.hashOf n))).map fun c => ({ l with cluster := c }, [])

/-- Before the first draw: the $SCAD is held by anyone. -/
def Ledger.genesis (slot unix_timestamp : Nat) (scad : Balances Holder) (supply : Nat) :
    Ledger where
  cluster := ⟨slot, unix_timestamp, [], ⟨.empty, scad⟩, .empty⟩
  supply := supply
  payouts := .empty

/-- A run from there, with the events it emits. -/
def Emits (env : Env) (cfg : Config) (l : Ledger) (acts : List Act) (t : Ledger)
    (log : List Event) : Prop :=
  run (record (Act.exec env cfg)) (l, []) acts = some (t, log)

/-! ## The accounts are the view of the events -/

variable {env : Env} {cfg : Config} {l l' t : Ledger} {act : Act} {acts : List Act}
  {log events : List Event}

/-- The hashes the cluster knows are those of the chain, of slots that are over. -/
def Ledger.Known (env : Env) (l : Ledger) : Prop :=
  ∀ h ∈ l.cluster.slot_hashes, h.1 < l.cluster.slot ∧ h.2 = env.hashOf h.1

/-- Tickets of draws on sale are allowed, and are counted one by one. -/
theorem tickets_legal (env : Env) {v : View} {tickets : List TicketBought}
    (h : ∀ t ∈ tickets, v.Has t.draw_index .Open ∧ ValidPicks t.digits) :
    Legal (Allowed env) View.apply v (tickets.map .ticketBought) ∧
      (tickets.map Event.ticketBought).foldl View.apply v =
        { v with draws := fun i => (v.draws i).map (·.sold (ticketsOf i tickets)) } := by
  induction tickets generalizing v with
  | nil => simp [ticketsOf]
  | cons t tickets ih =>
    have hfirst := h t (List.mem_cons_self ..)
    have hkeep : ∀ i, v.Has i .Open → (v.apply (.ticketBought t)).Has i .Open := by
      rintro i ⟨d, hd, hopen⟩
      by_cases hi : i = t.draw_index
      · subst hi
        exact ⟨d.sold 1, by simp [View.apply, hd], hopen⟩
      · exact ⟨d, by simp [View.apply, hi, hd], hopen⟩
    have hrest := ih (v := v.apply (.ticketBought t)) fun u hu =>
      ⟨hkeep _ (h u (List.mem_cons_of_mem _ hu)).1, (h u (List.mem_cons_of_mem _ hu)).2⟩
    refine ⟨⟨hfirst, hrest.1⟩, ?_⟩
    rw [List.map_cons, List.foldl_cons, hrest.2]
    refine View.ext ?_ rfl rfl
    funext i
    by_cases hi : i = t.draw_index
    · subst hi
      simp [View.apply, ticketsOf, Draw.sold_sold, Function.comp_def, Nat.add_comm]
    · simp [View.apply, ticketsOf, hi, Ne.symm hi]

theorem get_set_update {κ α : Type} [DecidableEq κ] (t : Table κ α) {k : κ} {a : α} :
    (t.set k a).get = Function.update t.get k (some a) := by
  funext j
  simp [Table.get_set, Function.update_apply]

/-- A step logs, legally, what it does to the accounts. -/
theorem step_logs (hknown : l.Known env) (h : act.exec env cfg l = some (l', events)) :
    l'.Known env ∧ Legal (Allowed env) View.apply l.view events ∧
      l'.view = events.foldl View.apply l.view := by
  cases act with
  | commitDraw =>
    obtain ⟨-, -, hfree, rfl, rfl⟩ := commitDraw_ok (toOption_eq_some.mp h)
    exact ⟨hknown, legal_singleton.mpr hfree, View.ext (get_set_update _) (get_set_update _) rfl⟩
  | inject =>
    obtain ⟨-, ⟨draw, hdraw⟩, hpos, -, rfl, rfl⟩ := inject_ok (toOption_eq_some.mp h)
    refine ⟨hknown, legal_singleton.mpr ⟨?_, hpos⟩, rfl⟩
    simp [Ledger.view, hdraw]
  | purchase =>
    obtain ⟨_, tickets, rfl, rfl, hsold, hsale, -⟩ :=
      purchase_sold (toOption_eq_some.mp h)
    have hallowed : ∀ t ∈ tickets, l.view.Has t.draw_index .Open ∧ ValidPicks t.digits := by
      intro t ht
      obtain ⟨draw, hdraw, hopen, -⟩ := hsale t ht
      exact ⟨⟨draw, hdraw, hopen⟩, (hsold.picks t ht).2⟩
    have hlegal := tickets_legal env hallowed
    refine ⟨hknown, hlegal.1, ?_⟩
    rw [hlegal.2]
    exact View.ext (funext hsold.draws) rfl rfl
  | revealDraw =>
    obtain ⟨-, draw, sealed, _, _, _, hdraw, hopen, hsealed, hseed,
      hhash, hderive, rfl, rfl⟩ := revealDraw_ok (toOption_eq_some.mp h)
    refine ⟨hknown, legal_singleton.mpr ⟨⟨draw, hdraw, hopen⟩, (hknown _ hhash).2, sealed,
      hsealed, rfl, hseed, hderive⟩, View.ext ?_ ?_ rfl⟩
    · simp [Ledger.view, View.apply, get_set_update, hdraw]
    · simp [Ledger.view, View.apply, get_set_update, hsealed]
  | payPrize =>
    obtain ⟨-, hrevealed, hfree, hpos, hbracket, -, rfl, rfl⟩ :=
      payPrize_ok (toOption_eq_some.mp h)
    exact ⟨hknown, legal_singleton.mpr ⟨hrevealed, hfree, hpos, hbracket⟩,
      View.ext rfl rfl (get_set_update _)⟩
  | burnPool =>
    obtain ⟨-, hrevealed, hpos, -, rfl, rfl⟩ := burnPool_ok (toOption_eq_some.mp h)
    exact ⟨hknown, legal_singleton.mpr ⟨hrevealed, hpos⟩, rfl⟩
  | send | burn =>
    obtain ⟨_, -, heq⟩ := Option.map_eq_some_iff.mp h
    cases heq
    exact ⟨hknown, legal_nil, rfl⟩
  | elapse =>
    obtain ⟨c, helapse, heq⟩ := Option.map_eq_some_iff.mp h
    cases heq
    unfold Games.Lottery.SaleWindow.Cluster.elapse at helapse
    split at helapse
    · rename_i hpassed
      cases helapse
      refine ⟨?_, legal_nil, rfl⟩
      intro hash hmem
      cases List.mem_append.mp (List.mem_of_mem_take hmem) with
      | inl hmem =>
        obtain ⟨n, -, rfl⟩ := List.mem_map.mp hmem
        exact ⟨(hpassed _ hmem).2, rfl⟩
      | inr hmem =>
        obtain ⟨_, heq⟩ := hknown hash hmem
        exact ⟨by simp only; omega, heq⟩
    · cases helapse

/-- What the steps log, the runs do. -/
theorem run_logs {slot unix_timestamp supply : Nat} {scad : Balances Holder}
    (h : Emits env cfg (.genesis slot unix_timestamp scad supply) acts t log) :
    t.Known env ∧ Legal (Allowed env) View.apply .empty log ∧
      t.view = log.foldl View.apply .empty :=
  record_legal (Ledger.Known env) Ledger.view (fun _ _ _ _ hinv hs => step_logs hinv hs)
    (by simp [Ledger.genesis, Ledger.Known]) h

end Scadium.Programs.Lottery
