/-
Scadium.Games.Crash.KeyedBets — crash bets that carry an idempotency key
(`crash.service.ts`, `prisma/idempotency.ts`).

A bet is not one transaction. The key is claimed with the debit; the engine
decides after the commit; a refused bet is refunded, its row deleted and its
key dropped, an accepted one is credited to the referrer and given its
response. A session can end between any two of these, by an exception or
with its process, and nothing else ever drops a key.

`debits`, `refunds` and `commissions` list what sessions have committed; no
step reads them.
-/
import Scadium.Games.Crash.Engine
import Scadium.Lib.Table

namespace Scadium.Games.Crash.KeyedBets

open Scadium.Lib Scadium.Prisma

/-! ## Sessions -/

/-- How far a call of `placeBet` has come. -/
inductive Phase where
  | checked
  /-- The key is claimed and the stake debited. -/
  | debited
  | accepted
  /-- The referrer is credited; the response is not stored. -/
  | credited
  | rejected (message : String)
  | refunded (message : String)
  /-- The deletion of the row was tried. -/
  | cleared (message : String)
  deriving DecidableEq

/-- The key is claimed, with neither its response nor its deletion yet. -/
def Phase.holds : Phase → Bool
  | .checked => false
  | _ => true

/-- The stake is debited and not refunded. -/
def Phase.stands : Phase → Bool
  | .debited | .accepted | .credited | .rejected _ => true
  | _ => false

structure Session where
  call : BetCall
  phase : Phase

structure State where
  db : Db
  next : EntryId
  live : Table EntryId Session
  debits : List (EntryId × BetCall)
  refunds : List EntryId
  commissions : List EntryId
  replies : List (BetCall × Except TxError String)

def State.boot (db : Db) : State where
  db := db
  next := 0
  live := .empty
  debits := []
  refunds := []
  commissions := []
  replies := []

/-- The key of a call in the scope of crash bets. -/
def ref (call : BetCall) : Option IdempotencyRef :=
  idempotencyRef call.userId "crash_bet" call.key

/-! ## Steps -/

inductive Action where
  /-- An exception before the transaction (`ensureRoundPersisted`). -/
  | fail (e : TxError)
  | claim (failAt : Option (Nat × TxError))
  /-- The engine decides, on the round it holds now. -/
  | decide (draining : Bool) (current : Round)
  | refund (failAt : Option (Nat × TxError))
  | deleteRow (deleted : Bool)
  | dropKey (dropped : Bool)
  | creditReferrer (failAt : Option (Nat × TxError))
  | store (failAt : Option (Nat × TxError))
  /-- The process stops. -/
  | kill

inductive Event where
  /-- A call has passed its checks. -/
  | begin (call : BetCall)
  | act (t : EntryId) (a : Action)
  /-- Whatever else happens; no other command is in the scope of these keys. -/
  | outside (f : Db → Db)

structure Config where
  deps : Deps
  chainEnabled : Bool

section Steps

variable (cfg : Config) (s : State) (t : EntryId) (σ : Session)

def State.move (phase : Phase) : State :=
  { s with live := s.live.set t { σ with phase := phase } }

/-- The session ends with a reply. -/
def State.reply (r : Except TxError String) : State :=
  { s with live := s.live.erase t, replies := (σ.call, r) :: s.replies }

/-- `idempotencyKey.deleteMany`, of the call's key; nothing without one. -/
def deleteManyKey (call : BetCall) (db : Db) : Db :=
  match ref call with
  | none => db
  | some k => { db with idempotencyKeys := Function.update db.idempotencyKeys k none }

def creditTx (call : BetCall) : DbTx Unit Unit :=
  creditReferral cfg.deps call.userId call.amountLamports .crash

def response (call : BetCall) : String :=
  "\x7b\"ok\":true,\"roundId\":\"" ++ toString call.roundId ++ "\"\x7d"

def storeTx (call : BetCall) : DbTx Unit Unit :=
  storeIdempotency call.userId "crash_bet" call.key (response call)

/-- What comes next in `placeBet`. -/
def stepSession : Action → Option State
  | .fail e => if σ.phase = .checked then some (s.reply t σ (.error e)) else none
  | .claim failAt =>
      if σ.phase = .checked then
        match (Tx.transact (betTx σ.call t) () s.db failAt).2 with
        | .ok (.replayed r, db') => some (({ s with db := db' } : State).reply t σ (.ok r))
        | .ok (.debited, db') => some
            (({ s with db := db', debits := (t, σ.call) :: s.debits } : State).move t σ .debited)
        | .error e => some (s.reply t σ (.error e))
      else none
  | .decide draining current =>
      if σ.phase = .debited then
        match placeBet cfg.chainEnabled draining current σ.call.params with
        | .ok _ => some (s.move t σ .accepted)
        | .error message => some (s.move t σ (.rejected message))
      else none
  | .refund failAt =>
      match σ.phase with
      | .rejected message =>
          match (Tx.transact (refundTx σ.call) () s.db failAt).2 with
          | .ok (_, db') => some
              (({ s with db := db', refunds := t :: s.refunds } : State).move t σ (.refunded message))
          | .error e => some (s.reply t σ (.error e))
      | _ => none
  | .deleteRow deleted =>
      match σ.phase with
      | .refunded message =>
          let db' := if deleted then deleteManyCrashBet σ.call.roundId σ.call.userId s.db else s.db
          some (({ s with db := db' } : State).move t σ (.cleared message))
      | _ => none
  | .dropKey dropped =>
      match σ.phase with
      | .cleared message =>
          let db' := if dropped then deleteManyKey σ.call s.db else s.db
          some (({ s with db := db' } : State).reply t σ (.error (.badRequest message)))
      | _ => none
  | .creditReferrer failAt =>
      if σ.phase = .accepted then
        match (Tx.transact (creditTx cfg σ.call) () s.db failAt).2 with
        | .ok (_, db') => some
            (({ s with db := db', commissions := t :: s.commissions } : State).move t σ .credited)
        | .error e => some (s.reply t σ (.error e))
      else none
  | .store failAt =>
      if σ.phase = .credited then
        match (Tx.transact (storeTx σ.call) () s.db failAt).2 with
        | .ok (_, db') => some (({ s with db := db' } : State).reply t σ (.ok (response σ.call)))
        | .error e => some (s.reply t σ (.error e))
      else none
  | .kill => some { s with live := s.live.erase t }

/-- Another command's writes: the keys of crash bets stay. -/
def outsideDb (f : Db → Db) (db : Db) : Db :=
  { f db with idempotencyKeys := fun k =>
      if k.2.1 = "crash_bet" then db.idempotencyKeys k else (f db).idempotencyKeys k }

def step : Event → Option State
  | .begin call => some
      { s with next := s.next + 1, live := s.live.set s.next ⟨call, .checked⟩ }
  | .act t a => (s.live.get t).bind fun σ => stepSession cfg s t σ a
  | .outside f => some { s with db := outsideDb f s.db }

end Steps

/-! ## What is promised -/

/-- What the database has for a crash bet's key. -/
def State.key (s : State) (k : IdempotencyRef) : Option (Option String) := s.db.idempotencyKeys k

/-- The session's debit under this key is not refunded. -/
def Standing (s : State) (t : EntryId) (k : IdempotencyRef) : Prop :=
  ∃ call, (t, call) ∈ s.debits ∧ ref call = some k ∧ t ∉ s.refunds

/-- The session holds the key. -/
def Holder (s : State) (t : EntryId) (k : IdempotencyRef) : Prop :=
  ∃ σ, s.live.get t = some σ ∧ σ.phase.holds = true ∧ ref σ.call = some k

/-- What every run of crash bets keeps. -/
structure BetsOnce (s : State) : Prop where
  /-- Of the debits under one key, at most one is not refunded. -/
  once : ∀ k t t', Standing s t k → Standing s t' k → t = t'
  /-- The referrer is credited once, for a stake that stands. -/
  commissions : s.commissions.Nodup ∧ ∀ t ∈ s.commissions, t ∈ s.debits.map Prod.fst ∧ t ∉ s.refunds
  /-- What is answered is the stored response. -/
  replies : ∀ call r k, (call, .ok r) ∈ s.replies → ref call = some k → s.key k = some (some r)

/-- A key without a response is held by a live session. -/
def InFlight (s : State) : Prop :=
  ∀ u clientKey, s.key (u, "crash_bet", clientKey) = some none →
    ∃ t, Holder s t (u, "crash_bet", clientKey)

/-- The transaction commits. -/
def commits {α : Type} (body : DbTx Unit α) (db : Db) (failAt : Option (Nat × TxError)) : Bool :=
  (Tx.transact body () db failAt).2.isOk

/-- The action does not end a session that holds a key. -/
def kept (cfg : Config) (db : Db) (call : BetCall) : Action → Bool
  | .kill => false
  | .dropKey dropped => dropped
  | .refund failAt => commits (refundTx call) db failAt
  | .creditReferrer failAt => commits (creditTx cfg call) db failAt
  | .store failAt => commits (storeTx call) db failAt
  | _ => true

def KeepsHold (cfg : Config) (s : State) : Event → Prop
  | .act t a => ∀ σ, s.live.get t = some σ → σ.phase.holds = true → (ref σ.call).isSome = true →
      kept cfg s.db σ.call a = true
  | _ => True

instance (cfg : Config) (s : State) : (e : Event) → Decidable (KeepsHold cfg s e)
  | .act t a => inferInstanceAs (Decidable (∀ σ ∈ s.live.get t, σ.phase.holds = true →
      (ref σ.call).isSome = true → kept cfg s.db σ.call a = true))
  | .begin _ | .outside _ => .isTrue trivial

/-! ## What a session did -/

section Inversion

variable {cfg : Config} {s s' : State} {t t' : EntryId} {σ : Session} {a : Action}
variable {k : IdempotencyRef}

/-- The ways a session goes on, by what becomes of its key. -/
inductive Did (cfg : Config) (s : State) (t : EntryId) (σ : Session) (a : Action) : State → Prop
  /-- It is over, and its key is as it was. -/
  | left (db' : Db) (replies : List (BetCall × Except TxError String))
      (hkeys : db'.idempotencyKeys = s.db.idempotencyKeys)
      (hreplies : ∀ p ∈ replies, p ∈ s.replies ∨ p.1 = σ.call ∧
        ∀ r k, p.2 = .ok r → ref σ.call = some k → s.key k = some (some r))
      (hlost : σ.phase.holds = true → (ref σ.call).isSome = true → kept cfg s.db σ.call a = false) :
      Did cfg s t σ a { s with db := db', live := s.live.erase t, replies := replies }
  | claimed (db' : Db) (hphase : σ.phase = .checked)
      (hkeys : (ref σ.call = none ∧ db'.idempotencyKeys = s.db.idempotencyKeys) ∨
        ∃ k, ref σ.call = some k ∧ s.key k = none ∧
          db'.idempotencyKeys = Function.update s.db.idempotencyKeys k (some none)) :
      Did cfg s t σ a { s with
        db := db'
        debits := (t, σ.call) :: s.debits
        live := s.live.set t { σ with phase := .debited } }
  | moved (db' : Db) (phase : Phase) (hkeys : db'.idempotencyKeys = s.db.idempotencyKeys)
      (hholds : σ.phase.holds = true) (hholds' : phase.holds = true)
      (hstands : phase.stands = true → σ.phase.stands = true)
      (hfallen : phase.stands = false → σ.phase.stands = false)
      (hcredit : σ.phase ≠ .credited) (hcredit' : phase ≠ .credited)
      (hkept : kept cfg s.db σ.call a = true) :
      Did cfg s t σ a { s with db := db', live := s.live.set t { σ with phase := phase } }
  | refunded (db' : Db) (message : String) (hphase : σ.phase = .rejected message)
      (hkeys : db'.idempotencyKeys = s.db.idempotencyKeys)
      (hkept : kept cfg s.db σ.call a = true) :
      Did cfg s t σ a { s with
        db := db'
        refunds := t :: s.refunds
        live := s.live.set t { σ with phase := .refunded message } }
  | credited (db' : Db) (hphase : σ.phase = .accepted)
      (hkeys : db'.idempotencyKeys = s.db.idempotencyKeys)
      (hkept : kept cfg s.db σ.call a = true) :
      Did cfg s t σ a { s with
        db := db'
        commissions := t :: s.commissions
        live := s.live.set t { σ with phase := .credited } }
  | dropped (db' : Db) (e : TxError) (message : String) (k : IdempotencyRef)
      (hphase : σ.phase = .cleared message) (href : ref σ.call = some k)
      (hkeys : db'.idempotencyKeys = Function.update s.db.idempotencyKeys k none)
      (hkept : kept cfg s.db σ.call a = true) :
      Did cfg s t σ a { s with
        db := db', live := s.live.erase t, replies := (σ.call, .error e) :: s.replies }
  | stored (db' : Db) (k : IdempotencyRef) (hphase : σ.phase = .credited) (href : ref σ.call = some k)
      (hkeys : db'.idempotencyKeys =
        Function.update s.db.idempotencyKeys k (some (some (response σ.call))))
      (hkept : kept cfg s.db σ.call a = true) :
      Did cfg s t σ a { s with
        db := db', live := s.live.erase t, replies := (σ.call, .ok (response σ.call)) :: s.replies }

/-- An error is the reply, and nothing is committed. -/
theorem Did.error (e : TxError)
    (hlost : σ.phase.holds = true → (ref σ.call).isSome = true → kept cfg s.db σ.call a = false) :
    Did cfg s t σ a (s.reply t σ (.error e)) := by
  refine .left s.db _ rfl ?_ hlost
  intro p hp
  rcases List.mem_cons.mp hp with rfl | hp
  · exact .inr ⟨rfl, nofun⟩
  · exact .inl hp

theorem debitBet_keys {call : BetCall} {id : EntryId} :
    Tx.Keeps Db.idempotencyKeys (debitBet call id) := by
  unfold debitBet
  refine .bind (applyBalanceDelta_keeps (fun _ _ _ => rfl) _ _ _) fun _ =>
    .bind (.statement ?_) fun _ => .ite (.throw _) (.pure _)
  intro db count db' h
  unfold createManyCrashBet at h
  split at h
  · cases h
  · split at h
    · cases h
      rfl
    · cases h
      rfl

/-- The transaction answers with a stored response, or claims a free key. -/
theorem betTx_keys {call : BetCall} {id : EntryId} {outcome : BetOutcome}
    {u v : TxState Unit Db TxError} (h : (betTx call id).run u = .ok outcome v) :
    (∃ r k, outcome = .replayed r ∧ ref call = some k ∧
      u.db.idempotencyKeys k = some (some r) ∧ v.db = u.db) ∨
    (outcome = .debited ∧ ((ref call = none ∧ v.db.idempotencyKeys = u.db.idempotencyKeys) ∨
      ∃ k, ref call = some k ∧ u.db.idempotencyKeys k = none ∧
        v.db.idempotencyKeys = Function.update u.db.idempotencyKeys k (some none))) := by
  obtain ⟨_, w, hclaim, h⟩ := Tx.bind_eq_ok.mp h
  rcases claimIdempotency_ok hclaim with
    ⟨href, rfl, hsame⟩ | ⟨k, href, ⟨rfl, hfree, hclaimed⟩ | ⟨r, rfl, hstored, hsame⟩⟩
  · have hkeys : v.db.idempotencyKeys = w.db.idempotencyKeys := debitBet_keys _ _ _ h
    exact .inr ⟨(debitBet_ok h).1, .inl ⟨href, by rw [hkeys, hsame]⟩⟩
  · have hkeys : v.db.idempotencyKeys = w.db.idempotencyKeys := debitBet_keys _ _ _ h
    exact .inr ⟨(debitBet_ok h).1, .inr ⟨k, href, hfree, by rw [hkeys, hclaimed]⟩⟩
  · obtain ⟨rfl, rfl⟩ := Tx.pure_eq_ok.mp h
    exact .inl ⟨r, k, rfl, href, hstored, hsame⟩

theorem commits_ok {α : Type} {body : DbTx Unit α} {db : Db} {failAt : Option (Nat × TxError)}
    {r : α × Db} (h : (Tx.transact body () db failAt).2 = .ok r) : commits body db failAt = true := by
  simp [commits, h, Except.isOk, Except.toBool]

theorem commits_error {α : Type} {body : DbTx Unit α} {db : Db} {failAt : Option (Nat × TxError)}
    {e : TxError} (h : (Tx.transact body () db failAt).2 = .error e) :
    commits body db failAt = false := by
  simp [commits, h, Except.isOk, Except.toBool]

theorem stepSession_did (h : stepSession cfg s t σ a = some s') : Did cfg s t σ a s' := by
  cases a with
  | fail e =>
    simp only [stepSession] at h
    split at h
    · rename_i hphase
      cases h
      exact .error e fun hholds => by simp [hphase, Phase.holds] at hholds
    · cases h
  | claim =>
    simp only [stepSession] at h
    split at h
    · rename_i hphase
      split at h
      · rename_i r db' hcommit
        cases h
        obtain ⟨v, hrun, rfl⟩ := Tx.transact_snd_ok hcommit
        rcases betTx_keys hrun with ⟨r', k, hr, href, hstored, hsame⟩ | ⟨hdebited, -⟩
        · cases hr
          refine .left v.db _ (congrArg Db.idempotencyKeys hsame) ?_ ?_
          · intro p hp
            rcases List.mem_cons.mp hp with rfl | hp
            · refine .inr ⟨rfl, ?_⟩
              intro r' k' hr' hk'
              cases hr'
              rw [href] at hk'
              cases hk'
              exact hstored
            · exact .inl hp
          · intro hholds
            simp [hphase, Phase.holds] at hholds
        · cases hdebited
      · rename_i db' hcommit
        cases h
        obtain ⟨v, hrun, rfl⟩ := Tx.transact_snd_ok hcommit
        rcases betTx_keys hrun with ⟨_, k, hr, -⟩ | ⟨-, hkeys⟩
        · cases hr
        · exact .claimed v.db hphase hkeys
      · cases h
        exact .error _ fun hholds => by simp [hphase, Phase.holds] at hholds
    · cases h
  | decide =>
    simp only [stepSession] at h
    split at h
    · rename_i hphase
      split at h
      · cases h
        exact .moved s.db .accepted rfl (by simp [hphase, Phase.holds]) rfl
          (by simp [hphase, Phase.stands]) (by simp [Phase.stands]) (by simp [hphase]) (by simp) rfl
      · rename_i message hplace
        cases h
        exact .moved s.db (.rejected message) rfl (by simp [hphase, Phase.holds]) rfl
          (by simp [hphase, Phase.stands]) (by simp [Phase.stands]) (by simp [hphase]) (by simp) rfl
    · cases h
  | refund =>
    simp only [stepSession] at h
    split at h
    · rename_i message hphase
      split at h
      · rename_i b db' hcommit
        cases h
        obtain ⟨v, hrun, rfl⟩ := Tx.transact_snd_ok hcommit
        exact .refunded v.db message hphase
          (applyBalanceDelta_keeps (p := Db.idempotencyKeys) (fun _ _ _ => rfl) _ _ _ _ _ _ hrun)
          (commits_ok hcommit)
      · rename_i e hcommit
        cases h
        exact .error e fun _ _ => commits_error hcommit
    · cases h
  | deleteRow deleted =>
    simp only [stepSession] at h
    split at h
    · rename_i message hphase
      cases h
      exact .moved _ (.cleared message) (by cases deleted <;> rfl) (by simp [hphase, Phase.holds])
        rfl (by simp [Phase.stands]) (by simp [hphase, Phase.stands]) (by simp [hphase]) (by simp) rfl
    · cases h
  | dropKey dropped =>
    simp only [stepSession] at h
    split at h
    · rename_i message hphase
      cases h
      cases dropped with
      | false => exact .error _ fun _ _ => rfl
      | true =>
        cases href : ref σ.call with
        | none =>
          simp only [if_true, deleteManyKey, href]
          exact .error _ fun _ hsome => by simp [href] at hsome
        | some k =>
          simp only [if_true, deleteManyKey, href]
          exact .dropped _ _ message k hphase href rfl rfl
    · cases h
  | creditReferrer =>
    simp only [stepSession] at h
    split at h
    · rename_i hphase
      split at h
      · rename_i b db' hcommit
        cases h
        obtain ⟨v, hrun, rfl⟩ := Tx.transact_snd_ok hcommit
        exact .credited v.db hphase
          (creditReferral_keeps (p := Db.idempotencyKeys) (fun _ _ => rfl) _ _ _ _ _ _ _ hrun)
          (commits_ok hcommit)
      · rename_i e hcommit
        cases h
        exact .error e fun _ _ => commits_error hcommit
    · cases h
  | store =>
    simp only [stepSession] at h
    split at h
    · rename_i hphase
      split at h
      · rename_i b db' hcommit
        cases h
        obtain ⟨v, hrun, rfl⟩ := Tx.transact_snd_ok hcommit
        rcases storeIdempotency_ok hrun with ⟨href, hsame⟩ | ⟨k, href, hstored⟩
        · refine .left v.db _ (congrArg Db.idempotencyKeys hsame) ?_ ?_
          · intro p hp
            rcases List.mem_cons.mp hp with rfl | hp
            · refine .inr ⟨rfl, ?_⟩
              intro r k _ hk
              exact absurd (hk.symm.trans href) (by simp)
            · exact .inl hp
          · intro _ hsome
            have hnone : ref σ.call = none := href
            simp [hnone] at hsome
        · exact .stored v.db k hphase href (congrArg Db.idempotencyKeys hstored) (commits_ok hcommit)
      · rename_i e hcommit
        cases h
        exact .error e fun _ _ => commits_error hcommit
    · cases h
  | kill =>
    cases h
    exact .left s.db s.replies rfl (fun p hp => .inl hp) fun _ _ => rfl

end Inversion

/-! ## The invariant -/

/-- What a session knows. -/
structure SessionOk (s : State) (t : EntryId) (σ : Session) : Prop where
  lt : t < s.next
  unpaid : σ.phase ≠ .credited → t ∉ s.commissions
  fresh : σ.phase = .checked → t ∉ s.refunds
  stands : σ.phase.stands = true → (t, σ.call) ∈ s.debits ∧ t ∉ s.refunds
  held : ∀ k, σ.phase.holds = true → ref σ.call = some k → s.key k = some none
  /-- A stake that is refunded was the last under its key. -/
  fallen : ∀ k, σ.phase.holds = true → σ.phase.stands = false → ref σ.call = some k →
    ∀ t', ¬ Standing s t' k

structure Sound (s : State) : Prop extends BetsOnce s where
  sessions : ∀ t σ, s.live.get t = some σ → SessionOk s t σ
  /-- One session holds a key. -/
  sole : ∀ k t t', Holder s t k → Holder s t' k → t = t'
  absent : ∀ k t, s.key k = none → ¬ Standing s t k
  debits_lt : ∀ p ∈ s.debits, p.1 < s.next
  refunds_lt : ∀ t ∈ s.refunds, t < s.next

section Invariant

variable {cfg : Config} {s s' : State} {t t' : EntryId} {σ : Session} {a : Action}
variable {k : IdempotencyRef}

theorem Sound.commissions_lt (h : Sound s) : ∀ t ∈ s.commissions, t < s.next := by
  intro t ht
  obtain ⟨p, hp, rfl⟩ := List.mem_map.mp (h.commissions.2 t ht).1
  exact h.debits_lt p hp

/-- What the others do to a session. -/
theorem SessionOk.frame (h : SessionOk s t σ) (hnext : s.next ≤ s'.next)
    (hcommissions : t ∈ s'.commissions → t ∈ s.commissions)
    (hrefunds : t ∈ s'.refunds → t ∈ s.refunds) (hdebits : ∀ p ∈ s.debits, p ∈ s'.debits)
    (hkey : ∀ k, σ.phase.holds = true → ref σ.call = some k → s'.key k = s.key k)
    (hstanding : ∀ k t', σ.phase.holds = true → ref σ.call = some k → Standing s' t' k →
      Standing s t' k) : SessionOk s' t σ where
  lt := Nat.lt_of_lt_of_le h.lt hnext
  unpaid hphase hmem := h.unpaid hphase (hcommissions hmem)
  fresh hphase hmem := h.fresh hphase (hrefunds hmem)
  stands hphase := ⟨hdebits _ (h.stands hphase).1, fun hmem => (h.stands hphase).2 (hrefunds hmem)⟩
  held k hholds href := (hkey k hholds href).trans (h.held k hholds href)
  fallen k hholds hphase href t' ht' :=
    h.fallen k hholds hphase href t' (hstanding k t' hholds href ht')

/-- Nothing but sessions has changed. -/
theorem SessionOk.same (h : SessionOk s t σ) (hnext : s.next ≤ s'.next)
    (hcommissions : s'.commissions = s.commissions) (hrefunds : s'.refunds = s.refunds)
    (hdebits : s'.debits = s.debits) (hkey : ∀ k, ref σ.call = some k → s'.key k = s.key k) :
    SessionOk s' t σ := by
  refine h.frame hnext (by simp [hcommissions]) (by simp [hrefunds]) (by simp [hdebits])
    (fun k _ href => hkey k href) ?_
  intro k t' _ _ ht'
  simpa [Standing, hdebits, hrefunds] using ht'

theorem holder_set {phase : Phase} (hlive : s'.live = s.live.set t { σ with phase := phase })
    (h : Holder s' t' k) : Holder s t' k ∨ (t' = t ∧ ref σ.call = some k ∧ phase.holds = true) := by
  obtain ⟨τ, hget, hholds, href⟩ := h
  rw [hlive] at hget
  by_cases heq : t' = t
  · subst heq
    rw [Table.get_set_self] at hget
    cases hget
    exact .inr ⟨rfl, href, hholds⟩
  · rw [Table.get_set_ne _ heq] at hget
    exact .inl ⟨τ, hget, hholds, href⟩

theorem holder_erase (hlive : s'.live = s.live.erase t) (h : Holder s' t' k) :
    Holder s t' k ∧ t' ≠ t := by
  obtain ⟨τ, hget, hholds, href⟩ := h
  rw [hlive] at hget
  have hne : t' ≠ t := by
    rintro rfl
    rw [Table.get_erase_self] at hget
    cases hget
  rw [Table.get_erase_ne _ hne] at hget
  exact ⟨⟨τ, hget, hholds, href⟩, hne⟩

/-- A session that held its key still does, or holds what it held before. -/
theorem Sound.sole_of (h : Sound s) (hholder : ∀ t k, Holder s' t k → Holder s t k) (k : IdempotencyRef)
    (t t' : EntryId) (ht : Holder s' t k) (ht' : Holder s' t' k) : t = t' :=
  h.sole k t t' (hholder t k ht) (hholder t' k ht')

theorem replies_of {replies : List (BetCall × Except TxError String)} (h : Sound s)
    (hreplies : ∀ p ∈ replies, p ∈ s.replies ∨ p.1 = σ.call ∧
      ∀ r k, p.2 = .ok r → ref σ.call = some k → s.key k = some (some r))
    {call : BetCall} {r : String} (hmem : (call, .ok r) ∈ replies) (href : ref call = some k) :
    s.key k = some (some r) := by
  rcases hreplies _ hmem with hold | ⟨rfl, hnew⟩
  · exact h.replies call r k hold href
  · exact hnew r k rfl href

/-- A key that is not held by the session keeps its responses. -/
theorem Sound.replies_update (h : Sound s) {v : Option (Option String)} (hheld : s.key k = some none)
    (hkeys : s'.db.idempotencyKeys = Function.update s.db.idempotencyKeys k v) {call : BetCall}
    {r : String} {k' : IdempotencyRef} (hmem : (call, .ok r) ∈ s.replies)
    (href : ref call = some k') : s'.key k' = some (some r) := by
  have hold := h.replies call r k' hmem href
  have hne : k' ≠ k := by
    rintro rfl
    rw [hheld] at hold
    cases hold
  simpa [State.key, hkeys, hne] using hold

/-- The session is over; its key is as it was. -/
theorem Sound.left (h : Sound s) {db' : Db} {replies : List (BetCall × Except TxError String)}
    (hkeys : db'.idempotencyKeys = s.db.idempotencyKeys)
    (hreplies : ∀ p ∈ replies, p ∈ s.replies ∨ p.1 = σ.call ∧
      ∀ r k, p.2 = .ok r → ref σ.call = some k → s.key k = some (some r)) :
    Sound { s with db := db', live := s.live.erase t, replies := replies } where
  once := h.once
  commissions := h.commissions
  replies call r k hmem href := by
    have hstored := replies_of h hreplies hmem href
    simpa [State.key, hkeys] using hstored
  sessions := s.live.forall_erase fun t' τ hget =>
    (h.sessions t' τ hget).same le_rfl rfl rfl rfl fun k _ => by simp [State.key, hkeys]
  sole := h.sole_of fun t' k ht' => (holder_erase rfl ht').1
  absent k t' hnone := h.absent k t' (by simpa [State.key, hkeys] using hnone)
  debits_lt := h.debits_lt
  refunds_lt := h.refunds_lt

theorem Sound.moved (h : Sound s) (hget : s.live.get t = some σ) {db' : Db} {phase : Phase}
    (hkeys : db'.idempotencyKeys = s.db.idempotencyKeys) (hholds : σ.phase.holds = true)
    (hstands : phase.stands = true → σ.phase.stands = true)
    (hfallen : phase.stands = false → σ.phase.stands = false) (hcredit : σ.phase ≠ .credited)
    (hholds' : phase.holds = true) :
    Sound { s with db := db', live := s.live.set t { σ with phase := phase } } where
  once := h.once
  commissions := h.commissions
  replies call r k hmem href := by
    have hstored := h.replies call r k hmem href
    simpa [State.key, hkeys] using hstored
  sessions := by
    have hok := h.sessions t σ hget
    refine s.live.forall_set ?_ ?_
    · exact fun t' τ hget' => (h.sessions t' τ hget').same le_rfl rfl rfl rfl
        fun k _ => by simp [State.key, hkeys]
    · exact
        { lt := hok.lt
          unpaid := fun _ => hok.unpaid hcredit
          fresh := fun hphase => by
            simp only at hphase
            rw [hphase] at hholds'
            cases hholds'
          stands := fun hphase => hok.stands (hstands hphase)
          held := fun k _ href => by
            have hheld := hok.held k hholds href
            simpa [State.key, hkeys] using hheld
          fallen := fun k _ hphase href => hok.fallen k hholds (hfallen hphase) href }
  sole := by
    refine h.sole_of fun t' k ht' => ?_
    rcases holder_set rfl ht' with hold | ⟨rfl, href, -⟩
    · exact hold
    · exact ⟨σ, hget, hholds, href⟩
  absent k t' hnone := h.absent k t' (by simpa [State.key, hkeys] using hnone)
  debits_lt := h.debits_lt
  refunds_lt := h.refunds_lt

/-- The key was free, so no debit under it stands, and no session holds it. -/
theorem Sound.claimed (h : Sound s) (hget : s.live.get t = some σ) {db' : Db}
    (hphase : σ.phase = .checked)
    (hkeys : (ref σ.call = none ∧ db'.idempotencyKeys = s.db.idempotencyKeys) ∨
      ∃ k, ref σ.call = some k ∧ s.key k = none ∧
        db'.idempotencyKeys = Function.update s.db.idempotencyKeys k (some none))
    (hs' : s' = { s with
      db := db'
      debits := (t, σ.call) :: s.debits
      live := s.live.set t { σ with phase := .debited } }) : Sound s' := by
  have hok := h.sessions t σ hget
  have hfree : ∀ k, ref σ.call = some k → s.key k = none ∧ s'.key k = some none := by
    intro k href
    rcases hkeys with ⟨hnone, -⟩ | ⟨k', href', hfree, hkeys⟩
    · rw [href] at hnone
      cases hnone
    · rw [href] at href'
      cases href'
      exact ⟨hfree, by simp [hs', State.key, hkeys]⟩
  -- a key that was there is another one, and is as it was
  have hother : ∀ k, ref σ.call ≠ some k → s'.key k = s.key k := by
    intro k hne
    rcases hkeys with ⟨-, hkeys⟩ | ⟨k', href', -, hkeys⟩
    · simp [hs', State.key, hkeys]
    · have hne' : k ≠ k' := by
        rintro rfl
        exact hne href'
      simp [hs', State.key, hkeys, hne']
  have hpresent : ∀ k v, s.key k = some v → ref σ.call ≠ some k := by
    intro k v hv href
    rw [(hfree k href).1] at hv
    cases hv
  have hstanding : ∀ t' k, Standing s' t' k → Standing s t' k ∨ (t' = t ∧ ref σ.call = some k) := by
    rintro t' k ⟨call, hmem, href, hrefund⟩
    rw [hs'] at hmem hrefund
    rcases List.mem_cons.mp hmem with heq | hmem
    · cases heq
      exact .inr ⟨rfl, href⟩
    · exact .inl ⟨call, hmem, href, hrefund⟩
  have hholder : ∀ t' k, Holder s' t' k → Holder s t' k ∨ (t' = t ∧ ref σ.call = some k) := by
    intro t' k ht'
    rcases holder_set (s := s) (by rw [hs']) ht' with hold | ⟨rfl, href, -⟩
    · exact .inl hold
    · exact .inr ⟨rfl, href⟩
  have hnew : ∀ t' k, Holder s t' k → ref σ.call ≠ some k := by
    rintro t' k ⟨τ, hget', hholds, href⟩
    exact hpresent k _ ((h.sessions t' τ hget').held k hholds href)
  refine { once := ?_, commissions := ?_, replies := ?_, sessions := ?_, sole := ?_, absent := ?_,
           debits_lt := ?_, refunds_lt := ?_ }
  · intro k t₁ t₂ h₁ h₂
    rcases hstanding t₁ k h₁ with h₁ | ⟨rfl, href⟩ <;> rcases hstanding t₂ k h₂ with h₂ | ⟨rfl, href'⟩
    · exact h.once k t₁ t₂ h₁ h₂
    · exact absurd h₁ (h.absent k t₁ (hfree k href').1)
    · exact absurd h₂ (h.absent k t₂ (hfree k href).1)
    · rfl
  · rw [hs']
    refine ⟨h.commissions.1, ?_⟩
    intro t' ht'
    obtain ⟨hmem, hrefund⟩ := h.commissions.2 t' ht'
    exact ⟨List.mem_cons_of_mem _ hmem, hrefund⟩
  · intro call r k hmem href
    have hstored := h.replies call r k (by rwa [hs'] at hmem) href
    exact (hother k (hpresent k _ hstored)).trans hstored
  · rw [show s'.live = s.live.set t { σ with phase := .debited } by rw [hs']]
    refine s.live.forall_set ?_ ?_
    · intro t' τ hget'
      have hτ := h.sessions t' τ hget'
      refine hτ.frame (by simp [hs']) (by simp [hs']) (by simp [hs']) ?_ ?_ ?_
      · intro p hp
        rw [hs']
        exact List.mem_cons_of_mem _ hp
      · exact fun k hholds href => hother k (hpresent k _ (hτ.held k hholds href))
      · intro k t'' hholds href ht''
        rcases hstanding t'' k ht'' with ht'' | ⟨-, href'⟩
        · exact ht''
        · exact absurd href' (hpresent k _ (hτ.held k hholds href))
    · exact
        { lt := by simpa [hs'] using hok.lt
          unpaid := fun _ => by simpa [hs'] using hok.unpaid (by simp [hphase])
          fresh := nofun
          stands := fun _ => by simpa [hs'] using hok.fresh hphase
          held := fun k _ href => (hfree k href).2
          fallen := nofun }
  · intro k t₁ t₂ h₁ h₂
    rcases hholder t₁ k h₁ with h₁ | ⟨rfl, href⟩ <;> rcases hholder t₂ k h₂ with h₂ | ⟨rfl, href'⟩
    · exact h.sole k t₁ t₂ h₁ h₂
    · exact absurd href' (hnew t₁ k h₁)
    · exact absurd href (hnew t₂ k h₂)
    · rfl
  · intro k t' hnone ht'
    have hne : ref σ.call ≠ some k := by
      intro href
      rw [(hfree k href).2] at hnone
      cases hnone
    rcases hstanding t' k ht' with ht' | ⟨-, href⟩
    · exact h.absent k t' ((hother k hne).symm.trans hnone) ht'
    · exact absurd href hne
  · intro p hp
    rw [hs'] at hp ⊢
    rcases List.mem_cons.mp hp with rfl | hp
    · exact hok.lt
    · exact h.debits_lt p hp
  · rw [hs']
    exact h.refunds_lt

/-- The stake no longer stands, and no other does under its key. -/
theorem Sound.refunded (h : Sound s) (hget : s.live.get t = some σ) {db' : Db} {message : String}
    (hphase : σ.phase = .rejected message) (hkeys : db'.idempotencyKeys = s.db.idempotencyKeys)
    (hs' : s' = { s with
      db := db'
      refunds := t :: s.refunds
      live := s.live.set t { σ with phase := .refunded message } }) : Sound s' := by
  have hok := h.sessions t σ hget
  have hdebited := hok.stands (by simp [hphase, Phase.stands])
  have hunpaid := hok.unpaid (by simp [hphase])
  have hsame : ∀ k, s'.key k = s.key k := fun k => by simp [hs', State.key, hkeys]
  have hstanding : ∀ t' k, Standing s' t' k → Standing s t' k ∧ t' ≠ t := by
    rintro t' k ⟨call, hmem, href, hrefund⟩
    rw [hs'] at hmem hrefund
    simp only [List.mem_cons, not_or] at hrefund
    exact ⟨⟨call, hmem, href, hrefund.2⟩, hrefund.1⟩
  refine { once := ?_, commissions := ?_, replies := ?_, sessions := ?_, sole := ?_, absent := ?_,
           debits_lt := ?_, refunds_lt := ?_ }
  · exact fun k t₁ t₂ h₁ h₂ => h.once k t₁ t₂ (hstanding t₁ k h₁).1 (hstanding t₂ k h₂).1
  · rw [hs']
    refine ⟨h.commissions.1, ?_⟩
    intro t' ht'
    obtain ⟨hmem, hrefund⟩ := h.commissions.2 t' ht'
    refine ⟨hmem, ?_⟩
    simp only [List.mem_cons, not_or]
    refine ⟨?_, hrefund⟩
    rintro rfl
    exact hunpaid ht'
  · exact fun call r k hmem href => (hsame k).trans (h.replies call r k (by rwa [hs'] at hmem) href)
  · intro t' τ hget'
    rw [show s'.live = s.live.set t { σ with phase := .refunded message } by rw [hs']] at hget'
    by_cases heq : t' = t
    · subst heq
      rw [Table.get_set_self] at hget'
      cases hget'
      exact
        { lt := by simpa [hs'] using hok.lt
          unpaid := fun _ => by simpa [hs'] using hunpaid
          fresh := nofun
          stands := nofun
          held := fun k _ href => (hsame k).trans (hok.held k (by simp [hphase, Phase.holds]) href)
          fallen := by
            intro k _ _ href t'' ht''
            obtain ⟨hother, hne⟩ := hstanding t'' k ht''
            exact hne (h.once k t'' t' hother ⟨σ.call, hdebited.1, href, hdebited.2⟩) }
    · rw [Table.get_set_ne _ heq] at hget'
      refine (h.sessions t' τ hget').frame (by simp [hs']) (by simp [hs']) ?_ (by simp [hs']) ?_ ?_
      · intro hmem
        rw [hs'] at hmem
        exact (List.mem_cons.mp hmem).resolve_left heq
      · exact fun k _ _ => hsame k
      · exact fun k t'' _ _ ht'' => (hstanding t'' k ht'').1
  · refine h.sole_of fun t' k ht' => ?_
    rcases holder_set (s := s) (by rw [hs']) ht' with hold | ⟨rfl, href, -⟩
    · exact hold
    · exact ⟨σ, hget, by simp [hphase, Phase.holds], href⟩
  · exact fun k t' hnone ht' =>
      h.absent k t' ((hsame k).symm.trans hnone) (hstanding t' k ht').1
  · rw [hs']
    exact h.debits_lt
  · intro t' ht'
    rw [hs'] at ht' ⊢
    rcases List.mem_cons.mp ht' with rfl | ht'
    · exact hok.lt
    · exact h.refunds_lt t' ht'

theorem Sound.credited (h : Sound s) (hget : s.live.get t = some σ) {db' : Db}
    (hphase : σ.phase = .accepted) (hkeys : db'.idempotencyKeys = s.db.idempotencyKeys)
    (hs' : s' = { s with
      db := db'
      commissions := t :: s.commissions
      live := s.live.set t { σ with phase := .credited } }) : Sound s' := by
  have hok := h.sessions t σ hget
  have hdebited := hok.stands (by simp [hphase, Phase.stands])
  have hholds : σ.phase.holds = true := by simp [hphase, Phase.holds]
  have hsame : ∀ k, s'.key k = s.key k := fun k => by simp [hs', State.key, hkeys]
  have hstanding : ∀ t' k, Standing s' t' k → Standing s t' k := by
    rintro t' k ⟨call, hmem, href, hrefund⟩
    rw [hs'] at hmem hrefund
    exact ⟨call, hmem, href, hrefund⟩
  refine { once := ?_, commissions := ?_, replies := ?_, sessions := ?_, sole := ?_, absent := ?_,
           debits_lt := ?_, refunds_lt := ?_ }
  · exact fun k t₁ t₂ h₁ h₂ => h.once k t₁ t₂ (hstanding t₁ k h₁) (hstanding t₂ k h₂)
  · rw [hs']
    refine ⟨List.nodup_cons.mpr ⟨hok.unpaid (by simp [hphase]), h.commissions.1⟩, ?_⟩
    intro t' ht'
    rcases List.mem_cons.mp ht' with rfl | ht'
    · exact ⟨List.mem_map.mpr ⟨_, hdebited.1, rfl⟩, hdebited.2⟩
    · exact h.commissions.2 t' ht'
  · exact fun call r k hmem href => (hsame k).trans (h.replies call r k (by rwa [hs'] at hmem) href)
  · intro t' τ hget'
    rw [show s'.live = s.live.set t { σ with phase := .credited } by rw [hs']] at hget'
    by_cases heq : t' = t
    · subst heq
      rw [Table.get_set_self] at hget'
      cases hget'
      exact
        { lt := by simpa [hs'] using hok.lt
          unpaid := fun hne => absurd rfl hne
          fresh := nofun
          stands := fun _ => by simpa [hs'] using hdebited
          held := fun k _ href => (hsame k).trans (hok.held k hholds href)
          fallen := nofun }
    · rw [Table.get_set_ne _ heq] at hget'
      refine (h.sessions t' τ hget').frame (by simp [hs']) ?_ (by simp [hs']) (by simp [hs']) ?_ ?_
      · intro hmem
        rw [hs'] at hmem
        exact (List.mem_cons.mp hmem).resolve_left heq
      · exact fun k _ _ => hsame k
      · exact fun k t'' _ _ ht'' => hstanding t'' k ht''
  · refine h.sole_of fun t' k ht' => ?_
    rcases holder_set (s := s) (by rw [hs']) ht' with hold | ⟨rfl, href, -⟩
    · exact hold
    · exact ⟨σ, hget, hholds, href⟩
  · exact fun k t' hnone ht' => h.absent k t' ((hsame k).symm.trans hnone) (hstanding t' k ht')
  · rw [hs']
    exact h.debits_lt
  · rw [hs']
    exact h.refunds_lt

/-- The session that holds the key gives it up for `v`. -/
theorem Sound.settled (h : Sound s) (hget : s.live.get t = some σ)
    (hholds : σ.phase.holds = true) (href : ref σ.call = some k) {db' : Db}
    {v : Option (Option String)} {r : Except TxError String}
    (hkeys : db'.idempotencyKeys = Function.update s.db.idempotencyKeys k v)
    (hreply : ∀ text, r = .ok text → v = some (some text))
    (hgone : v = none → σ.phase.stands = false) :
    Sound { s with db := db', live := s.live.erase t, replies := (σ.call, r) :: s.replies } := by
  have hok := h.sessions t σ hget
  have hheld := hok.held k hholds href
  refine { once := h.once, commissions := h.commissions, replies := ?_, sessions := ?_, sole := ?_,
           absent := ?_, debits_lt := h.debits_lt, refunds_lt := h.refunds_lt }
  · intro call text k' hmem href'
    rcases List.mem_cons.mp hmem with heq | hmem
    · cases heq
      rw [href] at href'
      cases href'
      simp [State.key, hkeys, hreply text rfl]
    · exact h.replies_update hheld hkeys hmem href'
  · intro t' τ hget'
    have hne : t' ≠ t := by
      rintro rfl
      simp only [Table.get_erase_self] at hget'
      cases hget'
    rw [Table.get_erase_ne _ hne] at hget'
    refine (h.sessions t' τ hget').frame le_rfl (fun hmem => hmem) (fun hmem => hmem)
      (fun p hp => hp) ?_ fun _ _ _ _ hstanding => hstanding
    intro k' hholds' href'
    have hne' : k' ≠ k := by
      rintro rfl
      exact hne (h.sole k' t' t ⟨τ, hget', hholds', href'⟩ ⟨σ, hget, hholds, href⟩)
    simp [State.key, hkeys, hne']
  · exact h.sole_of fun t' k' ht' => (holder_erase rfl ht').1
  · intro k' t' hnone ht'
    by_cases heq : k' = k
    · subst heq
      have hv : v = none := by simpa [State.key, hkeys] using hnone
      exact hok.fallen k' hholds (hgone hv) href t' ht'
    · exact h.absent k' t' (by simpa [State.key, hkeys, heq] using hnone) ht'

theorem Sound.did (h : Sound s) (hget : s.live.get t = some σ) (hdid : Did cfg s t σ a s') :
    Sound s' := by
  cases hdid with
  | left db' replies hkeys hreplies => exact h.left hkeys hreplies
  | claimed db' hphase hkeys => exact h.claimed hget hphase hkeys rfl
  | moved db' phase hkeys hholds hholds' hstands hfallen hcredit =>
    exact h.moved hget hkeys hholds hstands hfallen hcredit hholds'
  | refunded db' message hphase hkeys => exact h.refunded hget hphase hkeys rfl
  | credited db' hphase hkeys => exact h.credited hget hphase hkeys rfl
  | dropped db' e message k hphase href hkeys =>
    exact h.settled hget (by simp [hphase, Phase.holds]) href hkeys nofun
      fun _ => by simp [hphase, Phase.stands]
  | stored db' k hphase href hkeys =>
    refine h.settled hget (by simp [hphase, Phase.holds]) href hkeys ?_ nofun
    intro text htext
    cases htext
    rfl

/-! ## Steps and runs -/

theorem ref_scope {call : BetCall} (h : ref call = some k) : k.2.1 = "crash_bet" := by
  obtain ⟨_, -, rfl⟩ := Option.map_eq_some_iff.mp h
  rfl

theorem key_outside (f : Db → Db) (h : k.2.1 = "crash_bet") :
    (outsideDb f s.db).idempotencyKeys k = s.key k := by
  simp [outsideDb, h, State.key]

theorem Sound.step {e : Event} (h : Sound s) (hstep : KeyedBets.step cfg s e = some s') : Sound s' := by
  cases e with
  | begin call =>
    cases hstep
    have hlt : ∀ {t}, t < s.next → t < s.next + 1 := fun ht => Nat.lt_succ_of_lt ht
    refine { once := h.once, commissions := h.commissions, replies := h.replies, sessions := ?_,
             sole := ?_, absent := h.absent, debits_lt := fun p hp => hlt (h.debits_lt p hp),
             refunds_lt := fun t ht => hlt (h.refunds_lt t ht) }
    · refine s.live.forall_set ?_ ?_
      · exact fun t τ hget =>
          (h.sessions t τ hget).same (Nat.le_succ _) rfl rfl rfl fun _ _ => rfl
      · exact
          { lt := Nat.lt_succ_self _
            unpaid := fun _ hmem => absurd (h.commissions_lt _ hmem) (Nat.lt_irrefl _)
            fresh := fun _ hmem => absurd (h.refunds_lt _ hmem) (Nat.lt_irrefl _)
            stands := nofun
            held := nofun
            fallen := nofun }
    · refine h.sole_of fun t k ht => ?_
      rcases holder_set (s := s) (σ := ⟨call, .checked⟩) rfl ht with hold | ⟨-, -, hholds⟩
      · exact hold
      · cases hholds
  | act =>
    obtain ⟨σ, hget, hact⟩ := Option.bind_eq_some_iff.mp hstep
    exact h.did hget (stepSession_did hact)
  | outside f =>
    cases hstep
    refine { once := h.once, commissions := h.commissions, replies := ?_, sessions := ?_,
             sole := h.sole, absent := ?_, debits_lt := h.debits_lt, refunds_lt := h.refunds_lt }
    · exact fun call r k hmem href =>
        (key_outside f (ref_scope href)).trans (h.replies call r k hmem href)
    · exact fun t τ hget => (h.sessions t τ hget).same le_rfl rfl rfl rfl
        fun k href => key_outside f (ref_scope href)
    · intro k t hnone ht
      have hscope : k.2.1 = "crash_bet" := by
        obtain ⟨_, -, href, -⟩ := ht
        exact ref_scope href
      exact h.absent k t ((key_outside f hscope).symm.trans hnone) ht

theorem Sound.boot (db : Db) : Sound (.boot db) where
  once k t t' ht := by
    obtain ⟨call, hmem, -⟩ := ht
    cases hmem
  commissions := ⟨.nil, nofun⟩
  replies call r k hmem := by cases hmem
  sessions t σ hget := by cases hget
  sole k t t' ht := by
    obtain ⟨σ, hget, -⟩ := ht
    cases hget
  absent k t _ ht := by
    obtain ⟨_, hmem, -⟩ := ht
    cases hmem
  debits_lt p hp := by cases hp
  refunds_lt t ht := by cases ht

/-! ## Keys left behind -/

theorem holder_of_ne (hget : s'.live.get t' = s.live.get t') (h : Holder s t' k) : Holder s' t' k := by
  obtain ⟨τ, hτ, hholds, href⟩ := h
  exact ⟨τ, hget.trans hτ, hholds, href⟩

/-- The session goes on with its key. -/
theorem InFlight.set (h : InFlight s) (hget : s.live.get t = some σ) {phase : Phase}
    (hlive : s'.live = s.live.set t { σ with phase := phase }) (hholds : phase.holds = true)
    (hkeys : ∀ k, s'.key k = some none → s.key k = some none ∨ ref σ.call = some k) :
    InFlight s' := by
  have hown : ∀ k, ref σ.call = some k → Holder s' t k := fun k href =>
    ⟨{ σ with phase := phase }, by rw [hlive, Table.get_set_self], hholds, href⟩
  intro u clientKey hnone
  rcases hkeys _ hnone with hold | href
  · obtain ⟨t', ht'⟩ := h u clientKey hold
    by_cases heq : t' = t
    · subst heq
      obtain ⟨τ, hτ, -, href⟩ := ht'
      rw [hget] at hτ
      cases hτ
      exact ⟨t', hown _ href⟩
    · exact ⟨t', holder_of_ne (by rw [hlive, Table.get_set_ne _ heq]) ht'⟩
  · exact ⟨t, hown _ href⟩

/-- The session is over; a key it held is not without a response now. -/
theorem InFlight.erase (h : InFlight s) (hget : s.live.get t = some σ)
    (hlive : s'.live = s.live.erase t)
    (hkeys : ∀ k, s'.key k = some none → s.key k = some none ∧
      ¬ (σ.phase.holds = true ∧ ref σ.call = some k)) : InFlight s' := by
  intro u clientKey hnone
  obtain ⟨hold, hnot⟩ := hkeys _ hnone
  obtain ⟨t', ht'⟩ := h u clientKey hold
  have hne : t' ≠ t := by
    rintro rfl
    obtain ⟨τ, hτ, hholds, href⟩ := ht'
    rw [hget] at hτ
    cases hτ
    exact hnot ⟨hholds, href⟩
  exact ⟨t', holder_of_ne (by rw [hlive, Table.get_erase_ne _ hne]) ht'⟩

/-- A session that holds a key holds it on, or settles it, or is over and
leaves it behind. -/
theorem Sound.inFlight_did (h : Sound s) (hflight : InFlight s) (hget : s.live.get t = some σ)
    (hdid : Did cfg s t σ a s') :
    InFlight s' ↔ (σ.phase.holds = true → (ref σ.call).isSome = true →
      kept cfg s.db σ.call a = true) := by
  have hsettled : ∀ {db' : Db} {k} {v : Option (Option String)} {s' : State}, ref σ.call = some k →
      s'.db = db' → db'.idempotencyKeys = Function.update s.db.idempotencyKeys k v →
      v ≠ some none → s'.live = s.live.erase t → InFlight s' := by
    intro db' k v s' href hdb hkeys hv hlive
    refine hflight.erase hget hlive fun k' hnone => ?_
    have hne : k' ≠ k := by
      rintro rfl
      exact hv (by simpa [State.key, hdb, hkeys] using hnone)
    refine ⟨by simpa [State.key, hdb, hkeys, hne] using hnone, ?_⟩
    rintro ⟨-, href'⟩
    rw [href] at href'
    exact hne (Option.some.inj href').symm
  cases hdid with
  | left db' replies hkeys hreplies hlost =>
    constructor
    · intro hflight' hholds hsome
      obtain ⟨k, href⟩ := Option.isSome_iff_exists.mp hsome
      obtain ⟨clientKey, -, rfl⟩ := Option.map_eq_some_iff.mp href
      have hheld := (h.sessions t σ hget).held _ hholds href
      obtain ⟨t', ht'⟩ := hflight' σ.call.userId clientKey (by simpa [State.key, hkeys] using hheld)
      obtain ⟨hold, hne⟩ := holder_erase (s := s) rfl ht'
      exact absurd (h.sole _ t' t hold ⟨σ, hget, hholds, href⟩) hne
    · intro hkept
      refine hflight.erase hget rfl fun k hnone => ?_
      refine ⟨by simpa [State.key, hkeys] using hnone, ?_⟩
      rintro ⟨hholds, href⟩
      have hsome : (ref σ.call).isSome = true := by simp [href]
      have hlost' := hlost hholds hsome
      rw [hkept hholds hsome] at hlost'
      cases hlost'
  | claimed db' hphase hkeys =>
    refine iff_of_true (hflight.set hget rfl rfl fun k hnone => ?_) fun hholds => ?_
    · rcases hkeys with ⟨-, hkeys⟩ | ⟨k', href, -, hkeys⟩
      · exact .inl (by simpa [State.key, hkeys] using hnone)
      · by_cases heq : k = k'
        · exact .inr (heq ▸ href)
        · exact .inl (by simpa [State.key, hkeys, heq] using hnone)
    · simp [hphase, Phase.holds] at hholds
  | moved db' phase hkeys hholds hholds' hstands hfallen hcredit hcredit' hkept =>
    exact iff_of_true (hflight.set hget rfl hholds' fun k hnone =>
      .inl (by simpa [State.key, hkeys] using hnone)) fun _ _ => hkept
  | refunded db' message hphase hkeys hkept | credited db' hphase hkeys hkept =>
    exact iff_of_true (hflight.set hget rfl rfl fun k hnone =>
      .inl (by simpa [State.key, hkeys] using hnone)) fun _ _ => hkept
  | dropped db' e message k hphase href hkeys hkept | stored db' k hphase href hkeys hkept =>
    exact iff_of_true (hsettled href rfl hkeys (by simp) rfl) fun _ _ => hkept

theorem Sound.inFlight_step {e : Event} (h : Sound s) (hflight : InFlight s)
    (hstep : KeyedBets.step cfg s e = some s') : InFlight s' ↔ KeepsHold cfg s e := by
  cases e with
  | begin =>
    cases hstep
    refine iff_of_true ?_ trivial
    intro u clientKey hnone
    obtain ⟨t, ht⟩ := hflight u clientKey hnone
    obtain ⟨τ, hget, -⟩ := id ht
    have hne : t ≠ s.next := Nat.ne_of_lt (h.sessions t τ hget).lt
    exact ⟨t, holder_of_ne (s.live.get_set_ne hne) ht⟩
  | act =>
    obtain ⟨σ, hget, hact⟩ := Option.bind_eq_some_iff.mp hstep
    rw [h.inFlight_did hflight hget (stepSession_did hact)]
    constructor
    · intro hkept τ hτ
      rw [hget] at hτ
      cases hτ
      exact hkept
    · exact fun hkept => hkept σ hget
  | outside f =>
    cases hstep
    refine iff_of_true ?_ trivial
    intro u clientKey hnone
    exact hflight u clientKey ((key_outside f rfl).symm.trans hnone)

variable {db : Db} {es : List Event}

/-- For every interleaving of calls, retries and duplicates, with failures
and kills anywhere. -/
theorem bets_once (hrun : run (step cfg) (.boot db) es = some s) : Sound s :=
  run_invariant (fun _ _ _ h hstep => h.step hstep) (.boot db) hrun

/-- No key stays behind exactly if no session ends with its key claimed. -/
theorem inFlight_iff (hdb : ∀ u clientKey, db.idempotencyKeys (u, "crash_bet", clientKey) ≠ some none)
    (hrun : run (step cfg) (.boot db) es = some s) :
    Throughout (step cfg) (.boot db) es InFlight ↔ Along (step cfg) (KeepsHold cfg) (.boot db) es :=
  throughout_iff_along (P := Sound) (fun _ _ _ h hstep => h.step hstep)
    (fun _ _ _ h hflight hstep => h.inFlight_step hflight hstep) (.boot db)
    (fun u clientKey hnone => absurd hnone (hdb u clientKey)) hrun

end Invariant

end Scadium.Games.Crash.KeyedBets
