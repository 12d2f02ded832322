/-
Scadium.Programs.Vault.Bets — the SOL vaults of `scadium_vault`: deposits,
withdrawals and the settlement of bets (`programs/scadium_vault/src/lib.rs`).

A user vault is found by its user, as its address is derived from the key,
and is created by the first instruction that needs it, which pays for its
rent. What a minimum balance is comes from the `Rent` sysvar. A transaction
has one instruction and the keys that signed it; it may also be aborted for
reasons of the runtime. An instruction that fails leaves every account as it
was.
-/
import Scadium.Lib.Runs
import Scadium.Programs.Vault.Program

namespace Scadium.Programs.Vault.Bets

open Scadium.Lib

/-! ## Data -/

/-- `Pubkey::default()` -/
def DEFAULT : Pubkey := 0

/-- What holds lamports. -/
inductive Account where
  | wallet (key : Pubkey)
  | userVault (user : Pubkey)
  | houseVault
  deriving DecidableEq

structure UserVault where
  owner : Pubkey
  deriving DecidableEq

/-- `UserVault::SIZE` -/
def UserVault.SIZE : Nat := 8 + 32 + 1

/-- What `init_if_needed` creates. -/
def UserVault.zeroed : UserVault := ⟨DEFAULT⟩

structure Rent where
  minimum_balance : Nat → Nat

structure State where
  house : House
  lamports : Balances Account
  vaults : Table Pubkey UserVault

/-- An instruction; the keys are those of its accounts. -/
inductive Instruction where
  | deposit (user : Pubkey) (amount : Nat)
  | withdraw (user : Pubkey) (amount : Nat)
  | settle_bet (cosigner user : Pubkey) (stake payout : Nat)
  deriving DecidableEq

structure Transaction where
  signers : List Pubkey
  instruction : Instruction
  /-- the runtime refuses it -/
  aborted : Bool
  deriving DecidableEq

abbrev Result (α : Type) := Outcome VaultError α

/-! ## The instructions -/

/-- A `Signer` account. -/
def requireSigner (signers : List Pubkey) (key : Pubkey) : Result Unit :=
  if key ∈ signers then .ok () else .error .constraint

/-- What creating a user vault still takes: an address may hold lamports
before. -/
def rentDue (rent : Rent) (lamports : Nat) : Nat :=
  if lamports = 0 then rent.minimum_balance UserVault.SIZE
  else max (rent.minimum_balance UserVault.SIZE) 1 - lamports

/-- `init_if_needed` of the vault of `user` -/
def State.initIfNeeded (rent : Rent) (s : State) (payer user : Pubkey) :
    Result (State × UserVault) :=
  match s.vaults.get user with
  | some vault => .ok (s, vault)
  | none => do
      let lamports ← transfer s.lamports (.wallet payer) (.userVault user)
        (rentDue rent (s.lamports.get (.userVault user)))
      pure ({ s with lamports := lamports, vaults := s.vaults.set user .zeroed }, .zeroed)

/-- First touch binds the vault to its owner. -/
def UserVault.bind (vault : UserVault) (user : Pubkey) : UserVault :=
  if vault.owner = DEFAULT then ⟨user⟩ else vault

def State.deposit (rent : Rent) (s : State) (signers : List Pubkey) (user : Pubkey)
    (amount : Nat) : Result State := do
  requireSigner signers user
  let (s, vault) ← s.initIfNeeded rent user user
  require (0 < amount) .zeroAmount
  let vault := vault.bind user
  require (vault.owner = user) .notVaultOwner
  let lamports ← transfer s.lamports (.wallet user) (.userVault user) amount
  pure { s with lamports := lamports, vaults := s.vaults.set user vault }

def State.withdraw (rent : Rent) (s : State) (signers : List Pubkey) (user : Pubkey)
    (amount : Nat) : Result State := do
  requireSigner signers user
  match s.vaults.get user with
  | none => .error .constraint
  | some vault => do
      require (0 < amount) .zeroAmount
      require (vault.owner = user) .notVaultOwner
      let rent_min := rent.minimum_balance UserVault.SIZE
      let available := s.lamports.get (.userVault user) - rent_min
      require (amount ≤ available) .insufficientFunds
      let lamports ← transfer s.lamports (.userVault user) (.wallet user) amount
      pure { s with lamports := lamports }

/-- The net of a bet, between the user vault and the house vault. -/
def State.net (rent : Rent) (s : State) (user : Pubkey) (stake payout : Nat) :
    Result (Balances Account) :=
  if stake ≤ payout then
    let net := payout - stake
    if 0 < net then do
      let house_rent_min := rent.minimum_balance 0
      let house_available := s.lamports.get .houseVault - house_rent_min
      require (net ≤ house_available) .insufficientFunds
      transfer s.lamports .houseVault (.userVault user) net
    else .ok s.lamports
  else
    let net := stake - payout
    if 0 < net then do
      let user_rent_min := rent.minimum_balance UserVault.SIZE
      let available := s.lamports.get (.userVault user) - user_rent_min
      require (net ≤ available) .insufficientFunds
      transfer s.lamports (.userVault user) .houseVault net
    else .ok s.lamports

def State.settle_bet (rent : Rent) (s : State) (signers : List Pubkey) (cosigner user : Pubkey)
    (stake payout : Nat) : Result State := do
  requireSigner signers cosigner
  let (s, vault) ← s.initIfNeeded rent cosigner user
  require (s.house.paused = false) .paused
  require (cosigner = s.house.cosigner) .notCosigner
  let vault := vault.bind user
  require (vault.owner = user) .notVaultOwner
  let lamports ← s.net rent user stake payout
  pure { s with lamports := lamports, vaults := s.vaults.set user vault }

def State.exec (rent : Rent) (s : State) (signers : List Pubkey) : Instruction → Result State
  | .deposit user amount => s.deposit rent signers user amount
  | .withdraw user amount => s.withdraw rent signers user amount
  | .settle_bet cosigner user stake payout =>
      s.settle_bet rent signers cosigner user stake payout

def State.process (rent : Rent) (s : State) (tx : Transaction) : Result State :=
  if tx.aborted then .error .constraint else s.exec rent tx.signers tx.instruction

def step (rent : Rent) (s : State) (tx : Transaction) : Option State :=
  match s.process rent tx with
  | .ok s' => some s'
  | .error _ => some s

/-! ## What an instruction does -/

variable {rent : Rent} {s s' : State} {signers : List Pubkey}

/-- Who may lose lamports to whom by an instruction: between the user's wallet
and vault by the user, between the vault and the house by the cosigner, and
the rent of a new vault. -/
inductive Allowed (s : State) : Instruction → Account → Account → Prop where
  | deposit (user : Pubkey) (amount : Nat) :
      Allowed s (.deposit user amount) (.wallet user) (.userVault user)
  | withdraw (user : Pubkey) (amount : Nat) :
      Allowed s (.withdraw user amount) (.userVault user) (.wallet user)
  | won (cosigner user : Pubkey) (stake payout : Nat) (h : stake < payout) :
      Allowed s (.settle_bet cosigner user stake payout) .houseVault (.userVault user)
  | lost (cosigner user : Pubkey) (stake payout : Nat) (h : payout < stake) :
      Allowed s (.settle_bet cosigner user stake payout) (.userVault user) .houseVault
  | rent (cosigner user : Pubkey) (stake payout : Nat) (h : s.vaults.get user = none) :
      Allowed s (.settle_bet cosigner user stake payout) (.wallet cosigner) (.userVault user)

/-- No account is below its minimum, and every vault is its user's. -/
structure Sound (rent : Rent) (s : State) : Prop where
  house : rent.minimum_balance 0 ≤ s.lamports.get .houseVault
  vaults : ∀ user vault, s.vaults.get user = some vault →
    rent.minimum_balance UserVault.SIZE ≤ s.lamports.get (.userVault user) ∧ vault.owner = user

@[simp] theorem requireSigner_ok {key : Pubkey} {u : Unit} :
    requireSigner signers key = .ok u ↔ key ∈ signers := by
  unfold requireSigner
  split
  · simp [*]
  · simp [*]

theorem rentDue_le (rent : Rent) (lamports : Nat) :
    rent.minimum_balance UserVault.SIZE ≤ lamports + rentDue rent lamports := by
  unfold rentDue
  split
  · omega
  · omega

/-- The vault is there afterwards: it was before, or its rent was paid. -/
structure Opened (rent : Rent) (s : State) (payer user : Pubkey) (s₁ : State)
    (vault : UserVault) : Prop where
  house : s₁.house = s.house
  moves : Moves (fun src dst => s.vaults.get user = none ∧ src = .wallet payer ∧
    dst = .userVault user) s.lamports s₁.lamports
  others : ∀ u, u ≠ user → s₁.vaults.get u = s.vaults.get u
  old : s.vaults.get user = some vault ∨
    vault = .zeroed ∧ rent.minimum_balance UserVault.SIZE ≤ s₁.lamports.get (.userVault user)

theorem initIfNeeded_ok {payer user : Pubkey} {s₁ : State} {vault : UserVault}
    (h : s.initIfNeeded rent payer user = .ok (s₁, vault)) :
    Opened rent s payer user s₁ vault := by
  unfold State.initIfNeeded at h
  split at h
  · rename_i vault' hvault
    cases h
    exact ⟨rfl, .refl _, fun _ _ => rfl, .inl hvault⟩
  · rename_i hnone
    obtain ⟨_, htransfer, h⟩ := bind_ok.mp h
    obtain ⟨hpays, -, rfl⟩ := transfer_ok.mp htransfer
    cases h
    refine ⟨rfl, .single ⟨hnone, rfl, rfl⟩ (by simp) hpays, ?_, .inr ⟨rfl, ?_⟩⟩
    · intro u hu
      exact s.vaults.get_set_ne hu
    · simp only
      rw [Balances.get_move_dst _ (by simp)]
      exact rentDue_le rent _

/-- What the net of a bet moves, and that it leaves both minimums. -/
theorem net_ok {user : Pubkey} {stake payout : Nat} {lamports : Balances Account}
    (h : s.net rent user stake payout = .ok lamports) :
    Moves (fun src dst => stake < payout ∧ src = .houseVault ∧ dst = .userVault user ∨
        payout < stake ∧ src = .userVault user ∧ dst = .houseVault) s.lamports lamports ∧
      (rent.minimum_balance 0 ≤ s.lamports.get .houseVault →
        rent.minimum_balance 0 ≤ lamports.get .houseVault) ∧
      (rent.minimum_balance UserVault.SIZE ≤ s.lamports.get (.userVault user) →
        rent.minimum_balance UserVault.SIZE ≤ lamports.get (.userVault user)) := by
  unfold State.net at h
  split at h
  · simp only at h
    split at h
    · rename_i hpos
      obtain ⟨u, havailable, h⟩ := bind_ok.mp h
      have hcovered := require_ok.mp havailable
      obtain ⟨hpays, -, rfl⟩ := transfer_ok.mp h
      refine ⟨.single (.inl ⟨by omega, rfl, rfl⟩) (by simp) hpays, ?_, ?_⟩
      · intro hfloor
        rw [Balances.get_move_src _ (by simp)]
        omega
      · intro hfloor
        rw [Balances.get_move_dst _ (by simp)]
        omega
    · cases h
      exact ⟨.refl _, id, id⟩
  · simp only at h
    split at h
    · rename_i hpos
      obtain ⟨u, havailable, h⟩ := bind_ok.mp h
      have hcovered := require_ok.mp havailable
      obtain ⟨hpays, -, rfl⟩ := transfer_ok.mp h
      refine ⟨.single (.inr ⟨by omega, rfl, rfl⟩) (by simp) hpays, ?_, ?_⟩
      · intro hfloor
        rw [Balances.get_move_dst _ (by simp)]
        omega
      · intro hfloor
        rw [Balances.get_move_src _ (by simp)]
        omega
    · cases h
      exact ⟨.refl _, id, id⟩

/-- An instruction that went through: the moves it made, and what it kept. -/
structure Effect (rent : Rent) (s : State) (ix : Instruction) (s' : State) : Prop where
  house : s'.house = s.house
  moves : Moves (Allowed s ix) s.lamports s'.lamports
  sound : Sound rent s → Sound rent s'

/-- The vault of `user` is kept above its minimum, and no other is touched. -/
theorem Sound.of_one (hs : Sound rent s) {user : Pubkey} {vault : UserVault}
    (hhouse : rent.minimum_balance 0 ≤ s'.lamports.get .houseVault)
    (hvaults : ∀ u v, u ≠ user → s'.vaults.get u = some v → s.vaults.get u = some v)
    (hothers : ∀ u, u ≠ user → s'.lamports.get (.userVault u) = s.lamports.get (.userVault u))
    (hvault : s'.vaults.get user = some vault) (howner : vault.owner = user)
    (hfloor : rent.minimum_balance UserVault.SIZE ≤ s'.lamports.get (.userVault user)) :
    Sound rent s' where
  house := hhouse
  vaults := by
    intro u v hv
    by_cases hu : u = user
    · subst hu
      rw [hvault] at hv
      cases hv
      exact ⟨hfloor, howner⟩
    · obtain ⟨hold, howner'⟩ := hs.vaults u v (hvaults u v hu hv)
      exact ⟨(hothers u hu).symm ▸ hold, howner'⟩

theorem deposit_ok {user : Pubkey} {amount : Nat}
    (h : s.deposit rent signers user amount = .ok s') :
    user ∈ signers ∧ Effect rent s (.deposit user amount) s' := by
  obtain ⟨u, hsigner, h⟩ := bind_ok.mp h
  obtain ⟨⟨s₁, vault⟩, hinit, h⟩ := bind_ok.mp h
  obtain ⟨-, -, h⟩ := bind_ok.mp h
  obtain ⟨v, howner, h⟩ := bind_ok.mp h
  obtain ⟨_, htransfer, h⟩ := bind_ok.mp h
  have hopened := initIfNeeded_ok hinit
  obtain ⟨hpays, -, rfl⟩ := transfer_ok.mp htransfer
  cases h
  have hfirst : Moves (Allowed s (.deposit user amount)) s.lamports s₁.lamports := by
    refine hopened.moves.mono ?_
    rintro src dst ⟨-, rfl, rfl⟩
    exact .deposit user amount
  have hmoves : Moves (Allowed s (.deposit user amount)) s.lamports
      (s₁.lamports.move (.wallet user) (.userVault user) amount) :=
    hfirst.trans (.single (.deposit user amount) (by simp) hpays)
  refine ⟨requireSigner_ok.mp hsigner, ⟨hopened.house, hmoves, fun hs => ?_⟩⟩
  refine hs.of_one ?_ ?_ ?_ s₁.vaults.get_set_self (require_ok.mp howner) ?_
  · rw [hmoves.get_eq (by rintro src dst ⟨⟩; simp)]
    exact hs.house
  · intro w x hw hx
    rw [← hopened.others w hw, ← hx]
    exact (s₁.vaults.get_set_ne hw).symm
  · intro w hw
    refine hmoves.get_eq ?_
    rintro src dst ⟨⟩
    simp [hw]
  · have hgrows := hmoves.get_le (k := .userVault user) (by rintro _ _ ⟨⟩; simp)
    have hlast := Balances.get_move_dst (b := s₁.lamports) (n := amount)
      (by simp : Account.wallet user ≠ .userVault user)
    cases hopened.old with
    | inl hold => exact le_trans (hs.vaults user vault hold).1 hgrows
    | inr hnew =>
      rw [hlast]
      have hrent := hnew.2
      omega

theorem withdraw_ok {user : Pubkey} {amount : Nat}
    (h : s.withdraw rent signers user amount = .ok s') :
    user ∈ signers ∧ Effect rent s (.withdraw user amount) s' := by
  obtain ⟨u, hsigner, h⟩ := bind_ok.mp h
  split at h
  · cases h
  · rename_i vault hvault
    obtain ⟨-, -, h⟩ := bind_ok.mp h
    obtain ⟨v, howner, h⟩ := bind_ok.mp h
    obtain ⟨w, havailable, h⟩ := bind_ok.mp h
    obtain ⟨_, htransfer, h⟩ := bind_ok.mp h
    have hcovered := require_ok.mp havailable
    obtain ⟨hpays, -, rfl⟩ := transfer_ok.mp htransfer
    cases h
    have hmoves : Moves (Allowed s (.withdraw user amount)) s.lamports
        (s.lamports.move (.userVault user) (.wallet user) amount) :=
      .single (.withdraw user amount) (by simp) hpays
    refine ⟨requireSigner_ok.mp hsigner, ⟨rfl, hmoves, fun hs => ?_⟩⟩
    refine hs.of_one ?_ (fun _ _ _ hx => hx) ?_ hvault (require_ok.mp howner) ?_
    · rw [hmoves.get_eq (by rintro src dst ⟨⟩; simp)]
      exact hs.house
    · intro x hx
      refine hmoves.get_eq ?_
      rintro _ _ ⟨⟩
      simp [hx]
    · simp only
      rw [Balances.get_move_src _ (by simp)]
      have hfloor := (hs.vaults user vault hvault).1
      omega

theorem settle_bet_ok {cosigner user : Pubkey} {stake payout : Nat}
    (h : s.settle_bet rent signers cosigner user stake payout = .ok s') :
    (cosigner ∈ signers ∧ cosigner = s.house.cosigner ∧ s.house.paused = false) ∧
      Effect rent s (.settle_bet cosigner user stake payout) s' := by
  obtain ⟨u, hsigner, h⟩ := bind_ok.mp h
  obtain ⟨⟨s₁, vault⟩, hinit, h⟩ := bind_ok.mp h
  obtain ⟨v, hpaused, h⟩ := bind_ok.mp h
  obtain ⟨w, hcosigner, h⟩ := bind_ok.mp h
  obtain ⟨x, howner, h⟩ := bind_ok.mp h
  obtain ⟨lamports, hnet, h⟩ := bind_ok.mp h
  have hopened := initIfNeeded_ok hinit
  obtain ⟨hnetmoves, hhouse, hvault⟩ := net_ok hnet
  cases h
  have hfirst : Moves (Allowed s (.settle_bet cosigner user stake payout)) s.lamports
      s₁.lamports := by
    refine hopened.moves.mono ?_
    rintro src dst ⟨hnone, rfl, rfl⟩
    exact .rent cosigner user stake payout hnone
  have hsecond : Moves (Allowed s (.settle_bet cosigner user stake payout)) s₁.lamports
      lamports := by
    refine hnetmoves.mono ?_
    rintro src dst (⟨hlt, rfl, rfl⟩ | ⟨hlt, rfl, rfl⟩)
    · exact .won cosigner user stake payout hlt
    · exact .lost cosigner user stake payout hlt
  refine ⟨⟨requireSigner_ok.mp hsigner, ?_, ?_⟩,
    ⟨hopened.house, hfirst.trans hsecond, fun hs => ?_⟩⟩
  · rw [← hopened.house]
    exact require_ok.mp hcosigner
  · rw [← hopened.house]
    exact require_ok.mp hpaused
  refine hs.of_one (hhouse ?_) ?_ ?_ s₁.vaults.get_set_self (require_ok.mp howner) (hvault ?_)
  · rw [hopened.moves.get_eq (by rintro src dst ⟨-, rfl, rfl⟩; simp)]
    exact hs.house
  · intro y z hy hz
    rw [← hopened.others y hy, ← hz]
    exact (s₁.vaults.get_set_ne hy).symm
  · intro y hy
    refine (hfirst.trans hsecond).get_eq ?_
    rintro src dst ⟨⟩ <;> simp [hy]
  · cases hopened.old with
    | inl hold =>
      refine le_trans (hs.vaults user vault hold).1 (hopened.moves.get_le ?_)
      rintro _ _ ⟨-, rfl, rfl⟩
      simp
    | inr hnew => exact hnew.2

/-! ## Parties

Every instruction moves lamports between a few accounts, its parties: the
wallet and the vault of its user, the house vault, and the wallet of the
cosigner where a settlement opens the vault and so pays for its rent. -/

def Instruction.user : Instruction → Pubkey
  | .deposit user _ => user
  | .withdraw user _ => user
  | .settle_bet _ user _ _ => user

/-- The wallet of the cosigner, where it pays for the rent of a new vault. -/
def State.rentPayer (s : State) : Instruction → List Account
  | .deposit _ _ => []
  | .withdraw _ _ => []
  | .settle_bet cosigner user _ _ =>
      if (s.vaults.get user).isNone ∧ cosigner ≠ user then [.wallet cosigner] else []

/-- The accounts of one user: its wallet, its vault and the house vault. -/
def userAccounts (user : Pubkey) : List Account := [.wallet user, .userVault user, .houseVault]

def State.parties (s : State) (ix : Instruction) : List Account :=
  userAccounts ix.user ++ s.rentPayer ix

def State.holds (s : State) (accounts : List Account) : Nat :=
  (accounts.map s.lamports.get).sum

/-- What a settlement by the authority keeps: all but the user vault and the
house vault, and but the rent that the authority itself pays for a new vault. -/
structure SettlesWithin (s : State) (signers : List Pubkey) (cosigner user : Pubkey)
    (s' : State) : Prop where
  authorized : s' ≠ s → cosigner ∈ signers ∧ cosigner = s.house.cosigner
  others : ∀ k, k ≠ .userVault user → k ≠ .houseVault →
    (k = .wallet cosigner → (s.vaults.get user).isSome) → s'.lamports.get k = s.lamports.get k
  payer : s'.lamports.get (.wallet cosigner) ≤ s.lamports.get (.wallet cosigner)

/-- What a transaction keeps. -/
structure Conserves (rent : Rent) (s : State) (tx : Transaction) (s' : State) : Prop where
  total : s'.lamports.total = s.lamports.total
  parties : s'.holds (s.parties tx.instruction) = s.holds (s.parties tx.instruction)
  others : ∀ k, k ∉ s.parties tx.instruction → s'.lamports.get k = s.lamports.get k
  authority : ∀ cosigner user stake payout,
    tx.instruction = .settle_bet cosigner user stake payout →
    SettlesWithin s tx.signers cosigner user s'
  failed : ∀ e, s.process rent tx = .error e → s' = s

variable {ix : Instruction} {tx : Transaction}

theorem parties_nodup (s : State) (ix : Instruction) : (s.parties ix).Nodup := by
  cases ix with
  | deposit | withdraw => simp [State.parties, userAccounts, State.rentPayer]
  | settle_bet cosigner user =>
    simp only [State.parties, userAccounts, State.rentPayer, Instruction.user]
    split
    · rename_i hpays
      simp [Ne.symm hpays.2]
    · simp

/-- Moves stay between the parties. -/
theorem Allowed.parties {src dst : Account} (h : Allowed s ix src dst) :
    src ∈ s.parties ix ∧ dst ∈ s.parties ix := by
  cases h with
  | deposit user | withdraw user | won cosigner user | lost cosigner user =>
    simp [State.parties, userAccounts, Instruction.user]
  | rent cosigner user stake payout hnone =>
    by_cases hself : cosigner = user
    · simp [State.parties, userAccounts, Instruction.user, hself]
    · simp [State.parties, userAccounts, Instruction.user, State.rentPayer, hnone, hself]

/-- Whoever an account is taken from by a settlement. -/
theorem Allowed.settle {cosigner user : Pubkey} {stake payout : Nat} {src dst : Account}
    (h : Allowed s (.settle_bet cosigner user stake payout) src dst) :
    (src = .userVault user ∨ src = .houseVault ∨
        src = .wallet cosigner ∧ s.vaults.get user = none) ∧
      (dst = .userVault user ∨ dst = .houseVault) := by
  cases h <;> simp [*]

/-! ## Steps -/

theorem exec_ok (h : s.exec rent signers ix = .ok s') :
    Effect rent s ix s' ∧ ∀ cosigner user stake payout,
      ix = .settle_bet cosigner user stake payout →
        cosigner ∈ signers ∧ cosigner = s.house.cosigner := by
  cases ix with
  | deposit => exact ⟨(deposit_ok h).2, by simp⟩
  | withdraw => exact ⟨(withdraw_ok h).2, by simp⟩
  | settle_bet =>
    obtain ⟨hauthorized, heffect⟩ := settle_bet_ok h
    refine ⟨heffect, ?_⟩
    rintro cosigner' user' stake' payout' hix
    cases hix
    exact ⟨hauthorized.1, hauthorized.2.1⟩

theorem Conserves.refl (rent : Rent) (s : State) (tx : Transaction) : Conserves rent s tx s where
  total := rfl
  parties := rfl
  others _ _ := rfl
  authority _ _ _ _ _ := ⟨fun h => absurd rfl h, fun _ _ _ _ => rfl, le_refl _⟩
  failed _ _ := rfl

theorem Effect.conserves (h : Effect rent s tx.instruction s')
    (hok : s.process rent tx = .ok s')
    (hauthorized : ∀ cosigner user stake payout,
      tx.instruction = .settle_bet cosigner user stake payout →
        cosigner ∈ tx.signers ∧ cosigner = s.house.cosigner) : Conserves rent s tx s' where
  total := h.moves.total
  parties := h.moves.sum_eq (parties_nodup s tx.instruction) fun _ _ => Allowed.parties
  others := by
    intro k hk
    refine h.moves.get_eq fun src dst hallowed => ?_
    obtain ⟨hsrc, hdst⟩ := hallowed.parties
    exact ⟨fun heq => hk (heq ▸ hsrc), fun heq => hk (heq ▸ hdst)⟩
  authority := by
    intro cosigner user stake payout hix
    have hmoves := h.moves
    rw [hix] at hmoves
    refine ⟨fun _ => hauthorized cosigner user stake payout hix, ?_, ?_⟩
    · intro k hvault hhouse hpayer
      refine hmoves.get_eq fun src dst hallowed => ?_
      obtain ⟨hsrc, hdst⟩ := hallowed.settle
      refine ⟨?_, ?_⟩
      · rintro rfl
        rcases hsrc with hsrc | hsrc | ⟨hsrc, hnone⟩
        · exact hvault hsrc
        · exact hhouse hsrc
        · have hsome := hpayer hsrc
          simp [hnone] at hsome
      · rintro rfl
        rcases hdst with hdst | hdst
        · exact hvault hdst
        · exact hhouse hdst
    · refine hmoves.get_ge fun src dst hallowed => ?_
      rcases hallowed.settle.2 with hdst | hdst <;> simp [hdst]
  failed := by
    intro e he
    rw [hok] at he
    cases he

theorem step_conserves (h : step rent s tx = some s') :
    (Sound rent s → Sound rent s') ∧ Conserves rent s tx s' := by
  unfold step at h
  split at h
  · rename_i t hok
    cases h
    have hexec := hok
    unfold State.process at hexec
    split at hexec
    · cases hexec
    · obtain ⟨heffect, hauthorized⟩ := exec_ok hexec
      exact ⟨heffect.sound, heffect.conserves hok hauthorized⟩
  · cases h
    exact ⟨id, .refl rent s tx⟩

/-! ## Runs -/

/-- The state that `init_house` leaves: the house vault has its minimum, and
no user has a vault. -/
structure Initial (rent : Rent) (s : State) : Prop where
  house : rent.minimum_balance 0 ≤ s.lamports.get .houseVault
  vaults : s.vaults = .empty

theorem Initial.sound (h : Initial rent s) : Sound rent s where
  house := h.house
  vaults := by
    intro user vault hvault
    rw [h.vaults] at hvault
    cases hvault

/-- In every state that transactions reach, the user vaults and the house vault
have their minimums; and every further transaction keeps the lamports of its
parties, of everybody else and of what the settlement authority has no say
over, and moves nothing where it fails. -/
theorem bets_conserve {s₀ : State} {txs : List Transaction} (hinit : Initial rent s₀)
    (hrun : run (step rent) s₀ txs = some s) :
    Sound rent s ∧ ∀ tx s', step rent s tx = some s' → Conserves rent s tx s' :=
  ⟨run_invariant (fun _ _ _ hs hstep => (step_conserves hstep).1 hs) hinit.sound hrun,
    fun _ _ hstep => (step_conserves hstep).2⟩

namespace Sample

/-- The rent of the cluster: two years of 3480 lamports for each byte. -/
def clusterRent : Rent := ⟨fun size => (128 + size) * 3480 * 2⟩

/-- The house of authority 1 and cosigner 2; user 3 has no vault yet. -/
def house : State :=
  { house := ⟨1, 2, false⟩
    lamports := ⟨[(.houseVault, 1000000000), (.wallet 2, 50000000), (.wallet 3, 900000000)]⟩
    vaults := .empty }

theorem house_initial : Initial clusterRent house := ⟨by decide +kernel, rfl⟩

/-- A bet that user 3, who never deposited, has won. -/
def firstBet : Transaction := ⟨[2], .settle_bet 2 3 10000000 25000000, false⟩

def deposited : List Transaction :=
  [⟨[3], .deposit 3 400000000, false⟩, ⟨[2], .settle_bet 2 3 30000000 0, false⟩]

end Sample

theorem bets_conserve_deposited :
    ∃ s, run (step Sample.clusterRent) Sample.house Sample.deposited = some s ∧
      s.lamports.get .houseVault = 1030000000 ∧ Sound Sample.clusterRent s := by
  have hrun : ((run (step Sample.clusterRent) Sample.house Sample.deposited).any fun s =>
      decide (s.lamports.get .houseVault = 1030000000)) = true := by decide +kernel
  obtain ⟨s, hs, hhouse⟩ := (Option.any_eq_true _ _).mp hrun
  exact ⟨s, hs, of_decide_eq_true hhouse, (bets_conserve Sample.house_initial hs).1⟩

/-- A settlement that opens the vault of its user adds the rent to what the
user and the house hold: the cosigner paid it. -/
theorem cosigner_pays_rent :
    ∃ s, Initial Sample.clusterRent Sample.house ∧
      step Sample.clusterRent Sample.house Sample.firstBet = some s ∧
      s.holds (userAccounts 3) = Sample.house.holds (userAccounts 3) + 1176240 ∧
      s.lamports.get (.wallet 2) + 1176240 = Sample.house.lamports.get (.wallet 2) := by
  have hstep : ((step Sample.clusterRent Sample.house Sample.firstBet).any fun s =>
      decide (s.holds (userAccounts 3) = Sample.house.holds (userAccounts 3) + 1176240 ∧
        s.lamports.get (.wallet 2) + 1176240 = Sample.house.lamports.get (.wallet 2))) = true := by
    decide +kernel
  obtain ⟨s, hs, hholds⟩ := (Option.any_eq_true _ _).mp hstep
  exact ⟨s, Sample.house_initial, hs, of_decide_eq_true hholds⟩

end Scadium.Programs.Vault.Bets
