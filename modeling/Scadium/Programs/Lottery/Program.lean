/-
Scadium.Programs.Lottery.Program — the sale of tickets by `scadium_lottery`
(`programs/scadium_lottery/src/lib.rs`), and the log of a transaction that
buys some (`solana/vault-events.ts`).

A transaction of a buyer is a list of instructions, of this program or of
others; it lands as a whole or not at all. An instruction of another program
may log what looks like a ticket.
-/
import Scadium.Lib.Table
import Scadium.Programs.Solana

namespace Scadium.Programs.Lottery

open Scadium.Lib

/-- The address of a wallet or of a program. -/
abbrev Pubkey := String

inductive LotteryError where
  | wrongDraw | drawClosed | invalidPick | tooManyTickets | zeroAmount
  deriving DecidableEq

def LOTTERY_DIGITS : Nat := 6

def MAX_TICKETS_PER_TX : Nat := 20

def U32_MAX : Nat := 2 ^ 32 - 1

inductive DrawStatus where
  | Open | Revealed
  deriving DecidableEq

/-- The config account; `init_lottery` checks the divisor. -/
structure LotteryConfig where
  ticket_price : Nat
  discount_divisor : Nat
  divisor_ge : MAX_TICKETS_PER_TX ≤ discount_divisor

/-- What `scripts/setup-lottery.ts` initialises it with. -/
def setup : LotteryConfig := ⟨10 * 10 ^ 9, 2000, by decide⟩

structure Draw where
  draw_at : Nat
  status : DrawStatus
  ticket_count : Nat
  deriving DecidableEq

/-- Who holds $SCAD. -/
inductive Holder where
  | treasury
  | user (wallet : Pubkey)
  deriving DecidableEq

/-- The accounts of the program: the draws by their index, and the $SCAD. -/
structure Accounts where
  draws : Table Nat Draw
  scad : Balances Holder

/-- The event of a ticket. -/
structure TicketBought where
  draw_index : Nat
  buyer : Pubkey
  digits : List Nat
  deriving DecidableEq

abbrev Result (α : Type) := Outcome LotteryError α

/-- `price · n · (discount_divisor + 1 − n) / discount_divisor` -/
def bulk_discount_total (price n discount_divisor : Nat) : Result Nat := do
  require (n ≤ discount_divisor) .tooManyTickets
  let full ← okOr (checkedMul price n) .zeroAmount
  let scaled ← okOr (checkedMul full (discount_divisor + 1 - n)) .zeroAmount
  let total ← divide scaled discount_divisor
  okOr (tryU64 total) .zeroAmount

/-- `commit_draw` of the cosigner; `init` fails on an index in use. -/
def commit_draw (a : Accounts) (draw_index draw_at : Nat) : Result Accounts :=
  if (a.draws.get draw_index).isSome then .error .constraint
  else .ok { a with draws := a.draws.set draw_index ⟨draw_at, .Open, 0⟩ }

/-- What `reveal_draw` does to the sale. -/
def reveal_draw (a : Accounts) (draw_index : Nat) : Result Accounts :=
  match a.draws.get draw_index with
  | some draw =>
      if draw.status = .Open then
        .ok { a with draws := a.draws.set draw_index { draw with status := .Revealed } }
      else .error (.error .drawClosed)
  | none => .error .constraint

/-- The draw, open by its status and by the clock. -/
def Accounts.openDraw (a : Accounts) (unix_timestamp draw_index : Nat) : Result Draw :=
  match a.draws.get draw_index with
  | some draw => do
      require (draw.status = .Open) .drawClosed
      require (unix_timestamp < draw.draw_at) .drawClosed
      pure draw
  | none => .error .constraint

/-- Six digits, as the argument's type has them, none above 9. -/
def validate_picks (digits : List Nat) : Result Unit := do
  if digits.length ≠ LOTTERY_DIGITS then .error .constraint
  require (∀ d ∈ digits, d ≤ 9) .invalidPick

/-- `draw.ticket_count += n` -/
def Draw.count (draw : Draw) (n : Nat) : Result Draw :=
  if draw.ticket_count + n ≤ U32_MAX then
    .ok { draw with ticket_count := draw.ticket_count + n }
  else .error (.panic .overflow)

def buy_ticket (cfg : LotteryConfig) (unix_timestamp : Nat) (buyer : Pubkey) (a : Accounts)
    (draw_index : Nat) (digits : List Nat) : Result (Accounts × List TicketBought) := do
  let draw ← a.openDraw unix_timestamp draw_index
  validate_picks digits
  let scad ← transfer a.scad (.user buyer) .treasury cfg.ticket_price
  let draw ← draw.count 1
  pure (⟨a.draws.set draw_index draw, scad⟩, [⟨draw_index, buyer, digits⟩])

/-- `for p in &picks` -/
def validate_all : List (List Nat) → Result Unit
  | [] => .ok ()
  | p :: picks => do
      validate_picks p
      validate_all picks

def buy_tickets (cfg : LotteryConfig) (unix_timestamp : Nat) (buyer : Pubkey) (a : Accounts)
    (draw_index : Nat) (picks : List (List Nat)) : Result (Accounts × List TicketBought) := do
  let n := picks.length
  require (1 ≤ n ∧ n ≤ MAX_TICKETS_PER_TX) .tooManyTickets
  let draw ← a.openDraw unix_timestamp draw_index
  validate_all picks
  let total ← bulk_discount_total cfg.ticket_price n cfg.discount_divisor
  let scad ← transfer a.scad (.user buyer) .treasury total
  let draw ← draw.count n
  pure (⟨a.draws.set draw_index draw, scad⟩, picks.map fun p => ⟨draw_index, buyer, p⟩)

/-! ## Transactions -/

/-- The address of this program. -/
def ID : Pubkey := "3HHxLKiAW4JhSHaPSKpjCqCxpQgPfTd8pP6tzL8ZAVk5"

def TOKEN_PROGRAM_ID : Pubkey := "TokenkegQfeZyiNwAJbNbGKPFXCWuBvf9Ss623VQ5DA"

inductive Instruction where
  | buyTicket (draw_index : Nat) (digits : List Nat)
  | buyTickets (draw_index : Nat) (picks : List (List Nat))
  /-- an instruction of another program, and the data it logs -/
  | other (program : Pubkey) (data : List TicketBought)
  deriving DecidableEq

def Instruction.exec (cfg : LotteryConfig) (unix_timestamp : Nat) (buyer : Pubkey) (a : Accounts) :
    Instruction → Result (Accounts × List TicketBought)
  | .buyTicket draw_index digits => buy_ticket cfg unix_timestamp buyer a draw_index digits
  | .buyTickets draw_index picks => buy_tickets cfg unix_timestamp buyer a draw_index picks
  | .other program _ => if program = ID then .error .constraint else .ok (a, [])

/-- The instructions in turn, with the events of this program. -/
def exec (cfg : LotteryConfig) (unix_timestamp : Nat) (buyer : Pubkey) (a : Accounts) :
    List Instruction → Result (Accounts × List TicketBought)
  | [] => .ok (a, [])
  | ix :: ixs => do
      let first ← ix.exec cfg unix_timestamp buyer a
      let rest ← exec cfg unix_timestamp buyer first.1 ixs
      pure (rest.1, first.2 ++ rest.2)

/-- A line of `logMessages`. -/
inductive LogLine where
  /-- `Program <id> invoke [depth]` -/
  | invoke (program : Pubkey)
  /-- `Program <id> success` -/
  | exit
  /-- `Program data: <base64>` of an event -/
  | data (event : TicketBought)
  | other
  deriving DecidableEq

/-- The tickets an instruction of this program has events for. -/
def Instruction.tickets (buyer : Pubkey) : Instruction → List TicketBought
  | .buyTicket draw_index digits => [⟨draw_index, buyer, digits⟩]
  | .buyTickets draw_index picks => picks.map fun p => ⟨draw_index, buyer, p⟩
  | .other _ _ => []

/-- What the batch of an instruction costs. -/
def Instruction.cost (cfg : LotteryConfig) : Instruction → Nat
  | .buyTicket _ _ => cfg.ticket_price
  | .buyTickets _ picks =>
      cfg.ticket_price * picks.length * (cfg.discount_divisor + 1 - picks.length) /
        cfg.discount_divisor
  | .other _ _ => 0

/-- What an instruction logs: the transfer is a call of the token program. -/
def Instruction.log (buyer : Pubkey) : Instruction → List LogLine
  | .other program data => .invoke program :: (data.map .data ++ [.exit])
  | ix =>
      .invoke ID :: .other :: .invoke TOKEN_PROGRAM_ID :: .other :: .exit ::
        ((ix.tickets buyer).map .data ++ [.exit])

def log (buyer : Pubkey) (ixs : List Instruction) : List LogLine := ixs.flatMap (·.log buyer)

/-- `programScopedEventPayloads`: the data logged while `program` is on top of
the stack of invocations. -/
def programScopedEventPayloads (program : Pubkey) :
    (stack : List Pubkey) → List LogLine → List TicketBought
  | _, [] => []
  | stack, .invoke p :: lines => programScopedEventPayloads program (p :: stack) lines
  | stack, .exit :: lines => programScopedEventPayloads program stack.tail lines
  | stack, .data event :: lines =>
      if stack.head? = some program then
        event :: programScopedEventPayloads program stack lines
      else programScopedEventPayloads program stack lines
  | stack, .other :: lines => programScopedEventPayloads program stack lines

/-! ## What a transaction does -/

variable {cfg : LotteryConfig} {unix_timestamp : Nat} {buyer : Pubkey} {a a' : Accounts}
  {events : List TicketBought} {ix : Instruction} {ixs : List Instruction}

theorem scoped_data_own {stack : List Pubkey} {data : List TicketBought} {lines : List LogLine} :
    programScopedEventPayloads ID (ID :: stack) (data.map .data ++ lines) =
      data ++ programScopedEventPayloads ID (ID :: stack) lines := by
  induction data with
  | nil => rfl
  | cons event data ih => simp [programScopedEventPayloads, ih]

theorem scoped_data_other {program : Pubkey} (hne : program ≠ ID) {stack : List Pubkey}
    {data : List TicketBought} {lines : List LogLine} :
    programScopedEventPayloads ID (program :: stack) (data.map .data ++ lines) =
      programScopedEventPayloads ID (program :: stack) lines := by
  induction data with
  | nil => rfl
  | cons event data ih => simp [programScopedEventPayloads, hne, ih]

theorem bulk_discount_total_ok {price n discount_divisor total : Nat}
    (h : bulk_discount_total price n discount_divisor = .ok total) :
    total = price * n * (discount_divisor + 1 - n) / discount_divisor := by
  obtain ⟨-, -, h⟩ := bind_ok.mp h
  obtain ⟨_, hfull, h⟩ := bind_ok.mp h
  obtain ⟨_, hscaled, h⟩ := bind_ok.mp h
  obtain ⟨_, hquotient, h⟩ := bind_ok.mp h
  obtain ⟨-, rfl⟩ := checkedMul_some.mp (okOr_ok.mp hfull)
  obtain ⟨-, rfl⟩ := checkedMul_some.mp (okOr_ok.mp hscaled)
  obtain ⟨-, rfl⟩ := divide_ok.mp hquotient
  exact (tryU64_some.mp (okOr_ok.mp h)).2

/-- A transfer to the treasury fills it by the amount. -/
theorem treasury_of_transfer {wallet : Pubkey} {amount : Nat} {b b' : Balances Holder}
    (h : (transfer b (.user wallet) .treasury amount : Result (Balances Holder)) = .ok b') :
    b'.get .treasury = b.get .treasury + amount := by
  obtain ⟨-, -, rfl⟩ := transfer_ok.mp h
  exact b.get_move_dst (by simp)

theorem buy_ticket_ok {draw_index : Nat} {digits : List Nat}
    (h : buy_ticket cfg unix_timestamp buyer a draw_index digits = .ok (a', events)) :
    events = [⟨draw_index, buyer, digits⟩] ∧
      a'.scad.get .treasury = a.scad.get .treasury + cfg.ticket_price := by
  obtain ⟨_, -, h⟩ := bind_ok.mp h
  obtain ⟨-, -, h⟩ := bind_ok.mp h
  obtain ⟨_, hscad, h⟩ := bind_ok.mp h
  obtain ⟨_, -, h⟩ := bind_ok.mp h
  cases h
  exact ⟨rfl, treasury_of_transfer hscad⟩

theorem buy_tickets_ok {draw_index : Nat} {picks : List (List Nat)}
    (h : buy_tickets cfg unix_timestamp buyer a draw_index picks = .ok (a', events)) :
    events = picks.map (fun p => ⟨draw_index, buyer, p⟩) ∧
      a'.scad.get .treasury = a.scad.get .treasury +
        cfg.ticket_price * picks.length * (cfg.discount_divisor + 1 - picks.length) /
          cfg.discount_divisor := by
  obtain ⟨-, -, h⟩ := bind_ok.mp h
  obtain ⟨_, -, h⟩ := bind_ok.mp h
  obtain ⟨-, -, h⟩ := bind_ok.mp h
  obtain ⟨_, htotal, h⟩ := bind_ok.mp h
  obtain ⟨_, hscad, h⟩ := bind_ok.mp h
  obtain ⟨_, -, h⟩ := bind_ok.mp h
  cases h
  rw [← bulk_discount_total_ok htotal]
  exact ⟨rfl, treasury_of_transfer hscad⟩

/-- An instruction that is accepted: its events, what it pays, and its log. -/
theorem instruction_ok (h : ix.exec cfg unix_timestamp buyer a = .ok (a', events)) :
    events = ix.tickets buyer ∧
      a'.scad.get .treasury = a.scad.get .treasury + ix.cost cfg ∧
      ∀ stack lines, programScopedEventPayloads ID stack (ix.log buyer ++ lines) =
        events ++ programScopedEventPayloads ID stack lines := by
  cases ix with
  | buyTicket =>
    obtain ⟨rfl, hpaid⟩ := buy_ticket_ok h
    refine ⟨rfl, hpaid, ?_⟩
    intro stack lines
    simp [Instruction.log, Instruction.tickets, programScopedEventPayloads]
  | buyTickets =>
    obtain ⟨rfl, hpaid⟩ := buy_tickets_ok h
    refine ⟨rfl, hpaid, ?_⟩
    intro stack lines
    simp only [Instruction.log, Instruction.tickets, programScopedEventPayloads,
      List.cons_append, List.append_assoc, List.tail_cons, scoped_data_own, List.nil_append]
  | other =>
    simp only [Instruction.exec] at h
    split at h
    · cases h
    · rename_i hne
      cases h
      refine ⟨rfl, rfl, ?_⟩
      intro stack lines
      simp only [Instruction.log, programScopedEventPayloads, List.cons_append,
        List.append_assoc, List.tail_cons, scoped_data_other hne, List.nil_append]

/-- A transaction that lands: its events are those of its instructions, it
pays what its batches cost, and the log, read by the API, has these events. -/
theorem exec_ok (h : exec cfg unix_timestamp buyer a ixs = .ok (a', events)) :
    events = ixs.flatMap (·.tickets buyer) ∧
      a'.scad.get .treasury = a.scad.get .treasury + (ixs.map (·.cost cfg)).sum ∧
      programScopedEventPayloads ID [] (log buyer ixs) = events := by
  induction ixs generalizing a a' events with
  | nil =>
    cases h
    exact ⟨rfl, rfl, rfl⟩
  | cons ix ixs ih =>
    obtain ⟨⟨_, first⟩, hfirst, h⟩ := bind_ok.mp h
    obtain ⟨⟨_, rest⟩, hrest, h⟩ := bind_ok.mp h
    cases h
    obtain ⟨hevents, hpaid, hlog⟩ := instruction_ok hfirst
    obtain ⟨hevents', hpaid', hlog'⟩ := ih hrest
    refine ⟨?_, ?_, ?_⟩
    · rw [hevents, hevents']
      rfl
    · simp only at hpaid' ⊢
      rw [hpaid', hpaid, List.map_cons, List.sum_cons]
      omega
    · show programScopedEventPayloads ID [] (ix.log buyer ++ log buyer ixs) = first ++ rest
      rw [hlog, hlog']

end Scadium.Programs.Lottery
