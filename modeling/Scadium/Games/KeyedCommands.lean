/-
Scadium.Games.KeyedCommands — the commands that claim their idempotency key,
take effect and store their response in one transaction: the creation and
the join of a flip, and the request of a withdrawal.

`KeyFree` are the programs between the claim and the response: they write no
key and commit nothing. `InOneTransaction` is the shape of a whole command. In every run
of such commands a key is there with its response or not at all, a command
commits its effects with the claim of its key, and so at most once for each
key (`keyed_once`).
-/
import Scadium.Games.Coinflip.Service
import Scadium.Lib.CommitRules

namespace Scadium.Prisma.Sessions

open Scadium.Lib Scadium.Lib.ReadCommitted

/-! ## Statements of the helpers -/

section Helpers

variable {W : Key → Prop} {posts commits : Prop} {k : Key} {userId : UserId}

theorem within_updateOrThrow (hk : W k) (data : Row k → Row k) :
    Within W posts commits (updateOrThrow k data) := by
  refine (Within.update hk _).bind fun hit => ?_
  split
  · exact .pure ()
  · exact .throw _

theorem within_updateManyOrThrow (hk : W k) (guard : Row k → Bool) (data : Row k → Row k)
    (e : TxError) : Within W posts commits (updateManyOrThrow k guard data e) := by
  refine (Within.update hk _).bind fun hit => ?_
  split
  · exact .pure ()
  · exact .throw _

theorem within_create (hk : W k) (r : Row k) : Within W posts commits (create k r) := by
  refine (Within.insert hk r).bind fun new => ?_
  split
  · exact .pure ()
  · exact .throw _

theorem within_applyBalanceDelta (hk : W (.user userId)) (hp : posts) (delta : Int)
    (info : DeltaMeta) : Within W posts commits (applyBalanceDelta userId delta info) := by
  refine Within.bind ?_ fun _ => (Within.query _).bind fun user => ?_
  · unfold moveColumn
    simp only
    split
    · exact within_updateManyOrThrow hk _ _ _
    · split
      · split
        · exact within_updateManyOrThrow hk _ _ _
        · exact within_updateOrThrow hk _
      · exact .pure ()
  · split
    · exact .throw _
    · exact (Within.log hp _).bind fun _ => .pure _

end Helpers

/-- Not the row of an idempotency key. -/
def NotKey (k : Key) : Prop := ∀ u scope clientKey, k ≠ .idempotency u scope clientKey

/-- A row of the rotating seeds. -/
def IsClientSeed (k : Key) : Prop := ∃ u, k = .clientSeed u

abbrev KeyFree {α : Type} (m : SessionProg α) : Prop := Within NotKey True False m

abbrev SeedsOnly {α : Type} (m : SessionProg α) : Prop := Within IsClientSeed False True m

@[simp] theorem notKey_user (u : UserId) : NotKey (.user u) := by simp [NotKey]
@[simp] theorem notKey_flip (id : FlipId) : NotKey (.flip id) := by simp [NotKey]
@[simp] theorem notKey_seed (id : SeedId) : NotKey (.seed id) := by simp [NotKey]
@[simp] theorem notKey_clientSeed (u : UserId) : NotKey (.clientSeed u) := by simp [NotKey]
@[simp] theorem notKey_bet (id : BetId) : NotKey (.bet id) := by simp [NotKey]
@[simp] theorem notKey_transfer (id : Nat) : NotKey (.transfer id) := by simp [NotKey]

end Scadium.Prisma.Sessions

namespace Scadium.Games.Keyed

open Scadium.Lib Scadium.Lib.ReadCommitted Scadium.Prisma Scadium.Prisma.Sessions
open Scadium.Games.Coinflip

variable {d : Coinflip.Deps}

/-! ## Withdrawals -/

structure WithdrawParams where
  userId : UserId
  wallet : Option String
  amountLamports : Nat
  deriving DecidableEq

/-- The checks of a request before its transaction (the limits of one
withdrawal, a pause), and those in it that read other tables (the linked
wallets, the withdrawals in flight and of the day). -/
def refusal : SessionProg Unit := do
  let env ← Prog.answer
  match env.refused with
  | some e => .throw e
  | none => pure ()

/-- What `WithdrawalService.request` does in its transaction. -/
def requestEffects (p : WithdrawParams) : SessionProg Response := do
  let user ← findUser p.userId
  match user with
  | none => .throw p2025
  | some user =>
      if user.fundedAt.isNone then
        .throw (.forbidden "Only deposited funds can be withdrawn — deposit first")
      else do
        refusal
        let wallet := p.wallet.getD user.walletAddress
        let env ← Prog.answer
        create (.transfer env.newId) (⟨p.userId, wallet, p.amountLamports⟩ : Withdrawal)
        let _ ← applyBalanceDelta p.userId (-(p.amountLamports : Int))
          { reason := "custody_withdraw", refType := "CustodyTransfer", refId := some env.newId }
        pure (.transfer env.newId wallet p.amountLamports)

def request (p : WithdrawParams) (key : Option String) : SessionProg Response := do
  refusal
  idempotent p.userId "custody-withdraw" key (requestEffects p)

/-! ## Commands -/

inductive Command where
  | create (p : CreateParams) (key : Option String)
  | join (userId : UserId) (id : FlipId) (key : Option String)
  | withdraw (p : WithdrawParams) (key : Option String)
  deriving DecidableEq

def body (d : Coinflip.Deps) : Command → SessionProg Response
  | .create p key => createCommand d p key
  | .join userId id key => joinCommand d userId id key
  | .withdraw p key => request p key

/-- Who claims, and in which scope. -/
def Command.claimant : Command → UserId × String
  | .create p _ => (p.userId, "coinflip_create")
  | .join userId _ _ => (userId, "coinflip_join")
  | .withdraw p _ => (p.userId, "custody-withdraw")

def Command.key : Command → Option String
  | .create _ key => key
  | .join _ _ key => key
  | .withdraw _ key => key

/-- The row of the command's key; none where it is sent without one. -/
def Command.ref (c : Command) : Option Key :=
  (c.key.filter (· ≠ "")).map fun clientKey => .idempotency c.claimant.1 c.claimant.2 clientKey

abbrev KeyedSystem := System Row BalanceLedger Env TxError Response Command

def step (d : Coinflip.Deps) : KeyedSystem → Event Env Command → Option KeyedSystem :=
  Scadium.Lib.ReadCommitted.step (body d)

/-- A part that reserves seeds at most, and then one transaction: the claim,
the effects, the response. -/
def InOneTransaction (userId : UserId) (scope : String) (key : Option String) (m : SessionProg Response) :
    Prop :=
  ∃ (α : Type) (pre : SessionProg α) (effects : α → SessionProg Response), SeedsOnly pre ∧
    (∀ a, KeyFree (effects a)) ∧ m = pre >>= fun a => idempotent userId scope key (effects a)

/-! ## The programs between claim and response -/

section Programs

variable {W : Key → Prop} {posts commits : Prop}

theorem within_consumeNonce (userId : UserId) (hk : W (.clientSeed userId)) :
    Within W posts commits (consumeNonce d userId) := by
  have hnext : Within W posts commits (nextNonce userId) := by
    refine (within_updateOrThrow hk _).bind fun _ => (Within.query _).bind fun row => ?_
    split
    · exact .pure _
    · exact .throw _
  refine Within.answer.bind fun env => (Within.query _).bind fun existing => ?_
  split
  · exact hnext
  · exact (within_create hk _).bind fun _ => hnext

theorem keyFree_opponentSeed (g : LoadedFlip) (serverSeed : String) (opponent : Opponent) :
    KeyFree (opponentSeed d g serverSeed opponent) := by
  cases opponent with
  | house => exact (within_consumeNonce _ (by simp)).bind fun ctx => .pure _
  | player u reserved =>
    refine (Within.query _).bind fun joiner => ?_
    split
    · exact .throw _
    · split
      · exact .throw _
      · refine (within_applyBalanceDelta (by simp) trivial _ _).bind fun _ => ?_
        cases reserved with
        | some => exact .pure _
        | none => exact (within_consumeNonce u (by simp)).bind fun ctx => .pure _

theorem keyFree_settleSides (stake : Nat) (bet : FlipSide → CoinflipBet) (sides : List FlipSide) :
    KeyFree (settleSides stake bet sides) := by
  induction sides with
  | nil => exact .pure ()
  | cons side rest ih =>
    refine Within.bind ((within_updateOrThrow (by simp) _).bind fun _ => Within.answer.bind fun env =>
      (within_create (by simp) _).bind fun _ => ?_) fun _ => ih
    split
    · exact (within_applyBalanceDelta (by simp) trivial _ _).bind fun _ => .pure ()
    · exact .pure ()

theorem keyFree_resolve (g : LoadedFlip) (opponent : Opponent) : KeyFree (resolve d g opponent) := by
  refine Within.answer.bind fun env => (within_updateManyOrThrow (by simp) _ _ _).bind fun _ => ?_
  split
  · exact .throw _
  · refine (keyFree_opponentSeed _ _ _).bind fun a => ?_
    refine (keyFree_settleSides _ _ _).bind fun _ => Within.answer.bind fun env => ?_
    refine (within_updateOrThrow (by simp) _).bind fun _ => ?_
    refine (within_updateOrThrow (by simp) _).bind fun _ => (Within.query _).bind fun loaded => ?_
    split
    · exact .pure _
    · exact .throw _

theorem keyFree_createFlip (p : CreateParams) : KeyFree (createFlip d p) := by
  have hopen : KeyFree (openFlip d p) := by
    refine Within.answer.bind fun env =>
      (within_applyBalanceDelta (by simp) trivial _ _).bind fun _ => ?_
    refine Within.answer.bind fun env' => (within_create (by simp) _).bind fun _ => ?_
    refine (within_create (by simp) _).bind fun _ => (Within.query _).bind fun loaded => ?_
    split
    · exact .pure _
    · exact .throw _
  refine (Within.query _).bind fun user => ?_
  split
  · exact .throw _
  · split
    · exact .throw _
    · cases hhouse : p.vsHouse with
      | true =>
        simp only [if_true]
        exact hopen.bind fun g => keyFree_resolve g _
      | false =>
        simp only [Bool.false_eq_true, if_false]
        refine Within.bind ((Within.countRows _).bind fun n => ?_) fun _ =>
          hopen.bind fun g => .pure _
        split
        · exact .throw _
        · exact .pure ()

theorem keyFree_joinFlip (userId : UserId) (id : FlipId) (reserved : Option ClientSeed)
    (onchainEntropy : Option Bytes32) : KeyFree (joinFlip d userId id reserved onchainEntropy) := by
  have heconomy : ∀ creatorId, KeyFree (assertSameEconomy d creatorId userId) := by
    intro creatorId
    unfold assertSameEconomy
    split
    · refine (Within.query _).bind fun creator => ?_
      split
      · exact .throw _
      · refine Within.bind ((Within.update (by simp) _).bind fun _ =>
          (Within.query _).bind fun user => .pure _) fun joiner => ?_
        split
        · exact .pure ()
        · exact .throw _
    · exact .pure ()
  refine (Within.query _).bind fun game => ?_
  split
  · exact .throw _
  · split
    · exact .throw _
    · exact (heconomy _).bind fun _ => keyFree_resolve _ _

theorem within_refusal : Within W posts commits refusal := by
  refine Within.answer.bind fun env => ?_
  split
  · exact .throw _
  · exact .pure ()

theorem keyFree_requestEffects (p : WithdrawParams) : KeyFree (requestEffects p) := by
  refine (Within.query _).bind fun user => ?_
  split
  · exact .throw _
  · split
    · exact .throw _
    · refine within_refusal.bind fun _ => Within.answer.bind fun env => ?_
      refine (within_create (by simp) _).bind fun _ => ?_
      exact (within_applyBalanceDelta (by simp) trivial _ _).bind fun _ => .pure _

theorem within_assertCanWager : Within W posts commits assertCanWager := by
  refine Within.answer.bind fun env => ?_
  split
  · exact .throw _
  · exact .pure ()

theorem seedsOnly_reserveSeed (userId : UserId) (id : FlipId) :
    SeedsOnly (reserveSeed d userId id) := by
  refine Within.answer.bind fun env => ?_
  split
  · refine (Within.query _).bind fun pre => ?_
    split
    · split
      · exact (Within.transaction trivial (within_consumeNonce userId ⟨userId, rfl⟩)).bind fun ctx =>
          Within.answer.bind fun env => .pure _
      · exact .pure _
    · exact .pure _
  · exact .pure _

theorem body_inOneTransaction (d : Coinflip.Deps) (c : Command) :
    InOneTransaction c.claimant.1 c.claimant.2 c.key (body d c) := by
  cases c with
  | create p =>
    refine ⟨Unit, assertBetRange p.amountLamports >>= fun _ => assertCanWager,
      fun _ => createFlip d p >>= fun dto => pure (.flip dto), ?_, ?_, ?_⟩
    · refine Within.bind ?_ fun _ => within_assertCanWager
      unfold assertBetRange
      split
      · exact .throw _
      · exact .pure ()
    · exact fun _ => (keyFree_createFlip p).bind fun dto => .pure _
    · exact (Prog.bind_assoc _ _ _).symm
  | join userId id =>
    refine ⟨Option ClientSeed × Option Bytes32, assertCanWager >>= fun _ => reserveSeed d userId id,
      fun a => joinFlip d userId id a.1 a.2 >>= fun dto => pure (.flip dto), ?_, ?_, ?_⟩
    · exact within_assertCanWager.bind fun _ => seedsOnly_reserveSeed userId id
    · exact fun a => (keyFree_joinFlip userId id a.1 a.2).bind fun dto => .pure _
    · exact (Prog.bind_assoc _ _ _).symm
  | withdraw p =>
    exact ⟨Unit, refusal, fun _ => requestEffects p, within_refusal,
      fun _ => keyFree_requestEffects p, rfl⟩

end Programs

/-! ## Keys -/

/-- The committed row of a key. -/
def keyRow (s : Tables) (u : UserId) (scope clientKey : String) : Option IdempotencyKey :=
  s.rows (.idempotency u scope clientKey)

/-- The transaction has written no key. -/
def NoKeys (p : Writes) : Prop := ∀ u scope clientKey, p.rows (.idempotency u scope clientKey) = none

/-- The transaction has inserted this key, and written no other. -/
def Claimed (u : UserId) (scope clientKey : String) (row : IdempotencyKey) (p : Writes) : Prop :=
  p.rows (.idempotency u scope clientKey) = some ⟨none, some row⟩ ∧
    ∀ u' scope' clientKey', (u', scope', clientKey') ≠ (u, scope, clientKey) →
      p.rows (.idempotency u' scope' clientKey') = none

/-- Nothing is written but seeds that are reserved. -/
def Silent (p : Writes) : Prop := p.log = [] ∧ ∀ k, p.locks k = true → IsClientSeed k

/-- Every key is there with its response. What has a response keeps it. -/
def keyProtocol : Protocol Row BalanceLedger where
  Inv s := ∀ u scope clientKey row, keyRow s u scope clientKey = some row →
    row.responseJson.isSome = true
  Step s s' := ∀ u scope clientKey row, keyRow s u scope clientKey = some row →
    keyRow s' u scope clientKey = some row
  Ok _ _ := True

/-- The reply is the stored response. -/
def Replied (c : Command) (r : Response) (s : Tables) : Prop :=
  ∀ clientKey, c.key.filter (· ≠ "") = some clientKey →
    keyRow s c.claimant.1 c.claimant.2 clientKey = some ⟨some r⟩

/-- What a command may commit: nothing but reserved seeds, or its effects
with the claim of its key. -/
def MayCommit (c : Command) (p : Writes) : Prop :=
  ∀ clientKey, c.key.filter (· ≠ "") = some clientKey →
    Silent p ∨ ∃ row, Claimed c.claimant.1 c.claimant.2 clientKey row p

section Keys

variable {p : Writes} {s s' : Tables} {u : UserId} {scope clientKey : String} {row : IdempotencyKey}

theorem stable_noKeys {posts : Prop} : Stable NotKey posts NoKeys where
  write p s k r hk hp u scope clientKey := by
    rw [Pending.write_rows_ne (fun heq => hk u scope clientKey heq.symm)]
    exact hp u scope clientKey
  append _ p l hp := hp
  note p n hp := hp

theorem stable_claimed {posts : Prop} : Stable NotKey posts (Claimed u scope clientKey row) where
  write p s k r hk hp := by
    refine ⟨?_, ?_⟩
    · rw [Pending.write_rows_ne (fun heq => hk u scope clientKey heq.symm)]
      exact hp.1
    · intro u' scope' clientKey' hne
      rw [Pending.write_rows_ne (fun heq => hk u' scope' clientKey' heq.symm)]
      exact hp.2 u' scope' clientKey' hne
  append _ p l hp := hp
  note p n hp := hp

theorem notKey_of_clientSeed {k : Key} (h : IsClientSeed k) : NotKey k := by
  obtain ⟨v, rfl⟩ := h
  exact notKey_clientSeed v

theorem Silent.noKeys (h : Silent p) : NoKeys p := by
  intro u scope clientKey
  cases hrow : p.rows (.idempotency u scope clientKey) with
  | none => rfl
  | some =>
    have hlock : p.locks (.idempotency u scope clientKey) = true := by simp [Pending.locks, hrow]
    exact absurd rfl (notKey_of_clientSeed (h.2 _ hlock) u scope clientKey)

theorem silent_empty : Silent .empty := by
  refine ⟨rfl, ?_⟩
  intro k hk
  cases hk

theorem stable_silent : Stable IsClientSeed False Silent where
  write p s k r hk hp := by
    refine ⟨by simpa using hp.1, ?_⟩
    intro j hj
    rw [Pending.locks_write, Bool.or_eq_true, decide_eq_true_iff] at hj
    rcases hj with hj | rfl
    · exact hp.2 j hj
    · exact hk
  append h := h.elim
  note p n hp := hp

theorem NoKeys.keyRow_eq (h : NoKeys p) : keyRow (p.view s) u scope clientKey = keyRow s u scope clientKey :=
  Pending.view_rows_none (h u scope clientKey)

theorem Claimed.keyRow_self (h : Claimed u scope clientKey row p) :
    keyRow (p.view s) u scope clientKey = some row := Pending.view_rows_some h.1

theorem Claimed.keyRow_other (h : Claimed u scope clientKey row p) {u' : UserId}
    {scope' clientKey' : String} (hne : (u', scope', clientKey') ≠ (u, scope, clientKey)) :
    keyRow (p.view s) u' scope' clientKey' = keyRow s u' scope' clientKey' :=
  Pending.view_rows_none (h.2 u' scope' clientKey' hne)

/-- The key is inserted. -/
theorem NoKeys.claim (h : NoKeys p) (hfree : keyRow (p.view s) u scope clientKey = none)
    (row : IdempotencyKey) :
    Claimed u scope clientKey row (p.write s (.idempotency u scope clientKey) (some row)) := by
  refine ⟨?_, ?_⟩
  · rw [Pending.write_rows_self]
    simp only [Pending.base, h u scope clientKey]
    rw [← hfree, h.keyRow_eq]
    rfl
  · intro u' scope' clientKey' hne
    rw [Pending.write_rows_ne (by simpa using hne)]
    exact h u' scope' clientKey'

/-- It is given its response. -/
theorem Claimed.store (h : Claimed u scope clientKey row p) (row' : IdempotencyKey) :
    Claimed u scope clientKey row' (p.write s (.idempotency u scope clientKey) (some row')) := by
  refine ⟨?_, ?_⟩
  · rw [Pending.write_rows_self]
    simp only [Pending.base, h.1]
  · intro u' scope' clientKey' hne
    rw [Pending.write_rows_ne (by simpa using hne)]
    exact h.2 u' scope' clientKey' hne

/-! ## Commits keep the keys -/

theorem NoKeys.commit (h : NoKeys p) (hinv : keyProtocol.Inv s) :
    keyProtocol.Inv (p.view s) ∧ keyProtocol.Step s (p.view s) := by
  refine ⟨?_, ?_⟩
  · intro u scope clientKey row hrow
    rw [h.keyRow_eq] at hrow
    exact hinv u scope clientKey row hrow
  · intro u scope clientKey row hrow
    rw [h.keyRow_eq]
    exact hrow

theorem Claimed.commit (h : Claimed u scope clientKey row p) (hresponse : row.responseJson.isSome = true)
    (hfits : p.Fits s) (hinv : keyProtocol.Inv s) :
    keyProtocol.Inv (p.view s) ∧ keyProtocol.Step s (p.view s) := by
  have hfree : keyRow s u scope clientKey = none := hfits _ _ h.1
  refine ⟨?_, ?_⟩
  · intro u' scope' clientKey' row' hrow'
    by_cases heq : (u', scope', clientKey') = (u, scope, clientKey)
    · cases heq
      rw [h.keyRow_self] at hrow'
      cases hrow'
      exact hresponse
    · rw [h.keyRow_other heq] at hrow'
      exact hinv _ _ _ _ hrow'
  · intro u' scope' clientKey' row' hrow'
    by_cases heq : (u', scope', clientKey') = (u, scope, clientKey)
    · cases heq
      rw [hfree] at hrow'
      cases hrow'
    · rw [h.keyRow_other heq]
      exact hrow'

end Keys

/-! ## Every command keeps them -/

section Commands

variable {p : Writes} {s s' : Tables} {u : UserId} {scope clientKey : String} {key : Option String}
variable {row : IdempotencyKey} {effects : SessionProg Response} {r : Response}

theorem keyRow_later (h : keyProtocol.Later s s') (hrow : keyRow s u scope clientKey = some row) :
    keyRow s' u scope clientKey = some row :=
  h.keeps (fun _ _ hstep hs => hstep u scope clientKey row hs) hrow

/-- What is written when the transaction of a command is about to commit. -/
def Ready (u : UserId) (scope : String) (key : Option String) (r : Response) (p : Writes) (s : Tables) :
    Prop :=
  match key.filter (· ≠ "") with
  | none => NoKeys p
  | some clientKey =>
      (NoKeys p ∧ keyRow s u scope clientKey = some ⟨some r⟩) ∨ Claimed u scope clientKey ⟨some r⟩ p

theorem Ready.commit (h : Ready u scope key r p s) (hs' : keyProtocol.Next p s s') :
    keyProtocol.Inv (p.view s') ∧ keyProtocol.Step s' (p.view s') ∧
      ∀ clientKey, key.filter (· ≠ "") = some clientKey →
        keyRow (p.view s') u scope clientKey = some ⟨some r⟩ := by
  unfold Ready at h
  split at h
  · rename_i hnone
    obtain ⟨hinv, hstep⟩ := h.commit hs'.inv
    refine ⟨hinv, hstep, ?_⟩
    intro clientKey hkey
    rw [hnone] at hkey
    cases hkey
  · rename_i clientKey hsome
    rcases h with ⟨hp, hrow⟩ | hp
    · obtain ⟨hinv, hstep⟩ := hp.commit hs'.inv
      refine ⟨hinv, hstep, ?_⟩
      intro clientKey' hkey
      rw [hsome] at hkey
      cases hkey
      rw [hp.keyRow_eq]
      exact keyRow_later hs'.later hrow
    · obtain ⟨hinv, hstep⟩ := hp.commit rfl hs'.fits hs'.inv
      refine ⟨hinv, hstep, ?_⟩
      intro clientKey' hkey
      rw [hsome] at hkey
      cases hkey
      exact hp.keyRow_self

/-- A key that is claimed is given its response after the effects. -/
theorem safe_effects (heffects : KeyFree effects) (hkey : key.filter (· ≠ "") = some clientKey)
    (hp : Claimed u scope clientKey row p) :
    keyProtocol.Safe (Ready u scope key)
      (effects >>= fun response => storeIdempotency u scope key response >>= fun _ => pure response)
      p s := by
  refine .bind ((heffects.safe stable_claimed (fun h => h.elim) hp).mono ?_)
  intro r p' s' hp'
  refine .bind ?_
  unfold Sessions.storeIdempotency
  rw [hkey]
  refine safe_updateOrThrow ?_
  intro s'' old _ _
  show Ready u scope key r _ _
  unfold Ready
  rw [hkey]
  exact .inr (hp'.store _)

theorem safe_idempotent (heffects : KeyFree effects) (hp : NoKeys p) :
    keyProtocol.Safe (fun r _ s => ∀ clientKey, key.filter (· ≠ "") = some clientKey →
      keyRow s u scope clientKey = some ⟨some r⟩) (idempotent u scope key effects) p s := by
  refine .transaction (Protocol.Safe.mono (Q := Ready u scope key) ?_
    fun r p s h s' hs' _ => h.commit hs')
  refine .bind ?_
  unfold Sessions.claimIdempotency
  cases hkey : key.filter (· ≠ "") with
  | none =>
    simp only
    show keyProtocol.Safe _ _ p s
    refine .bind ((heffects.safe stable_noKeys (fun h => h.elim) hp).mono ?_)
    intro r p' s' hp'
    refine .bind ?_
    unfold Sessions.storeIdempotency
    rw [hkey]
    show Ready u scope key r p' s'
    unfold Ready
    rw [hkey]
    exact hp'
  | some clientKey =>
    simp only
    refine .bind (.insert ?_ ?_)
    · intro s' old hs' hrow
      have hold : keyRow s' u scope clientKey = some old := by
        rw [← hp.keyRow_eq]
        exact hrow
      obtain ⟨r, hr⟩ := Option.isSome_iff_exists.mp (hs'.inv u scope clientKey old hold)
      refine .bind (.query ?_)
      intro s'' hs''
      have hnow : keyRow s'' u scope clientKey = some old := keyRow_later hs''.later hold
      have hseen : (p.view s'').rows (.idempotency u scope clientKey) = some old := by
        rw [← hnow]
        exact hp.keyRow_eq
      rw [hseen, Option.bind_some, hr]
      show Ready u scope key r p s''
      unfold Ready
      rw [hkey]
      obtain ⟨_⟩ := old
      cases hr
      exact .inl ⟨hp, hnow⟩
    · intro s' _ hrow
      exact safe_effects heffects hkey (hp.claim hrow _)

/-- What a command commits. -/
theorem commits_idempotent {G : Writes → Prop} (heffects : KeyFree effects)
    (hG : ∀ clientKey, key.filter (· ≠ "") = some clientKey → ∀ p,
      Silent p ∨ (∃ row, Claimed u scope clientKey row p) → G p)
    (hany : key.filter (· ≠ "") = none → ∀ p, G p) (hp : Silent p) :
    Commits G (fun _ _ => True) (idempotent u scope key effects) p := by
  refine .bind (Commits.mono (Q := fun _ p => G p) ?_ fun r p h => ⟨h, trivial⟩)
  refine .bind ?_
  unfold Sessions.claimIdempotency
  cases hkey : key.filter (· ≠ "") with
  | none =>
    simp only
    show Commits G _ _ p
    have hrest : Stable NotKey True (fun _ : Writes => True) :=
      ⟨fun _ _ _ _ _ _ => trivial, fun _ _ _ _ => trivial, fun _ _ _ => trivial⟩
    refine .bind ((heffects.eachCommit hrest (fun h => h.elim) trivial).mono ?_)
    intro r p' _
    refine .bind ?_
    unfold Sessions.storeIdempotency
    rw [hkey]
    exact hany hkey p'
  | some clientKey =>
    simp only
    refine .bind (.insert ?_ ?_)
    · -- the key is there: its response is the reply
      refine .bind (.query fun s' => ?_)
      cases ((p.view s').rows (.idempotency u scope clientKey)).bind IdempotencyKey.responseJson with
      | none => trivial
      | some => exact hG clientKey hkey p (.inl hp)
    · intro s hfree
      refine .bind ((heffects.eachCommit stable_claimed (fun h => h.elim)
        (hp.noKeys.claim hfree _)).mono ?_)
      intro response p' hp'
      refine .bind ?_
      unfold Sessions.storeIdempotency
      rw [hkey]
      refine .bind (.update trivial ?_)
      intro s' old new hnew
      cases hnew
      exact hG clientKey hkey _ (.inr ⟨_, hp'.store _⟩)

end Commands

theorem safe_body (d : Coinflip.Deps) (c : Command) (s : Tables) :
    keyProtocol.Safe (fun r _ s => Replied c r s) (body d c) .empty s := by
  obtain ⟨α, _, _, hpre, heffects, hbody⟩ := body_inOneTransaction d c
  rw [hbody]
  refine .bind ((hpre.safe (R := Silent) stable_silent ?_ silent_empty).mono ?_)
  · intro _ p s hs hp
    obtain ⟨hinv, hstep⟩ := hp.noKeys.commit hs
    exact ⟨hinv, hstep, silent_empty⟩
  · exact fun a p s hp => safe_idempotent (heffects a) hp.noKeys

theorem commits_body (d : Coinflip.Deps) (c : Command) :
    Commits (MayCommit c) (fun _ _ => True) (body d c) .empty := by
  obtain ⟨α, _, _, hpre, heffects, hbody⟩ := body_inOneTransaction d c
  rw [hbody]
  refine .bind ((hpre.eachCommit stable_silent ?_ silent_empty).mono ?_)
  · exact fun _ p hp => ⟨fun _ _ => .inl hp, silent_empty⟩
  · intro a p hp
    refine commits_idempotent (heffects a) ?_ ?_ hp
    · intro clientKey hkey p h clientKey' hkey'
      rw [hkey] at hkey'
      cases hkey'
      exact h
    · intro hnone p clientKey hkey
      rw [hnone] at hkey
      cases hkey

/-! ## Every run -/

/-- What a run of commands keeps, with all it has committed. -/
structure OnceEach (s : KeyedSystem) (commits : List (Command × Writes)) : Prop where
  /-- No key is there without a response: a command that ends before its
  commit leaves none. -/
  stored : ∀ u scope clientKey row, keyRow s.store u scope clientKey = some row →
    row.responseJson.isSome = true
  /-- What is answered is the stored response. -/
  replies : ∀ c r, (c, .ok r) ∈ s.replies → Replied c r s.store
  /-- Effects are committed with the claim of the key. -/
  atomic : ∀ e ∈ commits, MayCommit e.1 e.2
  /-- Of two commits for one key, one has no effects. -/
  once : commits.Pairwise fun a b => a.1.ref = b.1.ref → a.1.ref.isSome = true →
    Silent a.2 ∨ Silent b.2

/-- The keys of the effects so far. -/
def Present (s : Tables) (e : Command × Writes) : Prop :=
  ∀ k, e.1.ref = some k → ¬ Silent e.2 → (s.rows k).isSome = true

theorem ref_eq_some {c : Command} {k : Key} (h : c.ref = some k) : ∃ clientKey,
    c.key.filter (· ≠ "") = some clientKey ∧ k = .idempotency c.claimant.1 c.claimant.2 clientKey := by
  obtain ⟨clientKey, hkey, rfl⟩ := Option.map_eq_some_iff.mp h
  exact ⟨clientKey, hkey, rfl⟩

/-- A commit with effects takes a key that is free. -/
theorem MayCommit.takes {c : Command} {p : Writes} {s : Tables} {k : Key} (h : MayCommit c p)
    (hfits : p.Fits s) (hk : c.ref = some k) (hp : ¬ Silent p) :
    s.rows k = none ∧ ((p.view s).rows k).isSome = true := by
  obtain ⟨clientKey, hkey, rfl⟩ := ref_eq_some hk
  rcases h clientKey hkey with hsilent | ⟨row, hclaimed⟩
  · exact absurd hsilent hp
  · refine ⟨hfits _ _ hclaimed.1, ?_⟩
    have hrow : (p.view s).rows (.idempotency c.claimant.1 c.claimant.2 clientKey) = some row :=
      hclaimed.keyRow_self
    simp [hrow]

/-- For every interleaving of duplicates and retries, with kills anywhere. -/
theorem keyed_once (d : Coinflip.Deps) (users : UserId → Option User) {es : List (Event Env Command)}
    {s : KeyedSystem} (hrun : run (step d) (System.initial (usersOnly users)) es = some s) :
    OnceEach s (commitsOf (body d) (System.initial (usersOnly users)) es) := by
  have hinit : keyProtocol.Inv (usersOnly users) := by
    intro u scope clientKey row hrow
    cases hrow
  have hreplied : ∀ (c : Command) (r : Response) (s s' : Tables), keyProtocol.Step s s' →
      Replied c r s → Replied c r s' :=
    fun c r s s' hstep h clientKey hkey => hstep _ _ _ _ (h clientKey hkey)
  have hall := run_history (P := fun es s => Good keyProtocol Replied s ∧ Committing MayCommit s ∧
      (∀ e ∈ commitsOf (body d) (System.initial (usersOnly users)) es,
        MayCommit e.1 e.2 ∧ Present s.store e) ∧
      (commitsOf (body d) (System.initial (usersOnly users)) es).Pairwise fun a b =>
        a.1.ref = b.1.ref → a.1.ref.isSome = true → Silent a.2 ∨ Silent b.2)
    ⟨Good.initial hinit, Committing.initial _, by simp [commitsOf], by simp [commitsOf]⟩ ?_ hrun
  · obtain ⟨hgood, -, hcommits, hpair⟩ := hall
    exact ⟨hgood.inv, hgood.replies, fun e he => (hcommits e he).1, hpair⟩
  · rintro _ s e s' hes ⟨hgood, hcommitting, hcommits, hpair⟩ hstep
    obtain ⟨hgood', hstore⟩ := hgood.step hreplied (fun c s _ => safe_body d c s)
      (fun _ _ => trivial) hstep
    have hkept : ∀ k row, s.store.rows k = some row → (∃ u scope clientKey,
        k = .idempotency u scope clientKey) → (s'.store.rows k).isSome = true := by
      rintro k row hrow ⟨u, scope, clientKey, rfl⟩
      rcases hstore with hsame | hnext
      · rw [hsame, hrow]
        rfl
      · have hnow : s'.store.rows (.idempotency u scope clientKey) = some row :=
          hnext u scope clientKey row hrow
        rw [hnow]
        rfl
    have hpresent : ∀ e, Present s.store e → Present s'.store e := by
      intro e h k hk hsilent
      obtain ⟨row, hrow⟩ := Option.isSome_iff_exists.mp (h k hk hsilent)
      obtain ⟨_, -, heq⟩ := ref_eq_some hk
      exact hkept k row hrow ⟨_, _, _, heq⟩
    rw [commitsOf_concat hes (by
      rw [Option.isSome_iff_exists]
      exact ⟨s', hstep⟩)]
    refine ⟨hgood', hcommitting.step (commits_body d) hstep, ?_, ?_⟩
    · intro e' he'
      rcases List.mem_append.mp he' with hold | hnew
      · exact ⟨(hcommits e' hold).1, hpresent e' (hcommits e' hold).2⟩
      · obtain ⟨c, p⟩ := e'
        have hc : s.commitBy e = some (c, p) := by simpa using hnew
        have hmay := hcommitting.commit hc
        obtain ⟨t, answer, session, next, -, hget, -, -, rfl⟩ := commitBy_eq_some.mp hc
        refine ⟨hmay, ?_⟩
        intro k hk hsilent
        rw [step_commitBy hc hstep]
        exact (hmay.takes (hgood.fits t session hget) hk hsilent).2
    · refine List.pairwise_append.mpr ⟨hpair, ?_, ?_⟩
      · cases s.commitBy e with
        | none => exact .nil
        | some => exact List.pairwise_singleton _ _
      · intro a ha b hb heq hsome
        obtain ⟨c, p⟩ := b
        have hc : s.commitBy e = some (c, p) := by simpa using hb
        by_cases hsilent : Silent a.2
        · exact .inl hsilent
        · refine .inr (Classical.byContradiction fun hb' => ?_)
          obtain ⟨k, hk⟩ := Option.isSome_iff_exists.mp hsome
          have hthere := (hcommits a ha).2 k hk hsilent
          obtain ⟨t, _, session, _, -, hget, -, -, rfl⟩ := commitBy_eq_some.mp hc
          obtain ⟨hfree, -⟩ := (hcommitting.commit hc).takes (hgood.fits t session hget)
            (heq ▸ hk) hb'
          rw [hfree] at hthere
          cases hthere

end Scadium.Games.Keyed
