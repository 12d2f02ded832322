/-
Scadium.Auth.Siws — sign-in nonces (`auth/siws.service.ts`).

A nonce lives in Redis under its wallet, with a time to live. A verification
reads it, checks the message and the signature, and deletes the key of the
wallet: the read and the deletion are two commands, and what the deletion finds
need not be what was read. Every call of the random source gives a nonce of its
own.

So a nonce is used once, and only by its own verification, in every run in
which no nonce is issued for a wallet while a verification of it is between its
two commands; and such an issue lets that verification delete the new nonce.
`accepted` and `consumed` record what has happened; no step reads them.
-/
import Scadium.Lib.Runs
import Scadium.Lib.Table

namespace Scadium.Auth.Siws

open Scadium.Lib

/-- What a deployment signs for. -/
structure Binding where
  domain : String
  uri : String
  chainId : String

/-- The configuration, the random source and the signatures. -/
structure Setup where
  binding : Binding
  /-- `randomBytes(16).toString('hex')`, call by call -/
  randomNonce : Nat → String
  randomNonce_injective : Function.Injective randomNonce
  /-- `nacl.sign.detached.verify`; nothing where a text is no base58 -/
  verify : (message signature walletAddress : String) → Option Bool

/-- What is stored with a nonce. -/
structure Stored where
  nonce : String
  issuedAt : String
  deriving DecidableEq

/-- What `verifySignature` is asked with. -/
structure Params where
  walletAddress : String
  message : String
  signature : String
  nonce : String
  deriving DecidableEq

structure State where
  /-- `siws:nonce:<walletAddress>` -/
  store : Table String Stored
  /-- the calls of the random source so far -/
  drawn : Nat
  /-- the verifications that have passed their checks -/
  checked : Table Nat Params
  started : Nat
  /-- the nonces `verifySignature` has returned true for -/
  accepted : List String
  /-- their nonces, with the nonces they have deleted -/
  consumed : List (String × String)

def State.init : State := ⟨.empty, 0, .empty, 0, [], []⟩

inductive Action where
  | issueNonce (walletAddress issuedAt : String)
  /-- the time to live of a key is over -/
  | expire (walletAddress : String)
  /-- the `get` of a verification, with its checks -/
  | get (params : Params)
  /-- its `del` -/
  | del (id : Nat)
  deriving DecidableEq

section Service

variable (setup : Setup)

def buildMessage (walletAddress nonce issuedAt : String) : String :=
  String.intercalate "\n"
    [s!"{setup.binding.domain} wants you to sign in with your Solana account:",
      walletAddress,
      "",
      "Sign this message to authenticate. This will not trigger a transaction or cost any fees.",
      "",
      s!"URI: {setup.binding.uri}",
      "Version: 1",
      s!"Chain ID: {setup.binding.chainId}",
      s!"Nonce: {nonce}",
      s!"Issued At: {issuedAt}"]

/-- The checks of `verifySignature` on what it has read. -/
def check (raw : Option Stored) (params : Params) : Except String Bool :=
  match raw with
  | none => .error "Invalid or expired nonce"
  | some stored =>
      if stored.nonce ≠ params.nonce then .error "Invalid or expired nonce"
      else if params.message ≠
          buildMessage setup params.walletAddress params.nonce stored.issuedAt then
        .error "Message mismatch"
      else .ok ((setup.verify params.message params.signature params.walletAddress).getD false)

namespace State

variable (s : State)

def issueNonce (walletAddress issuedAt : String) : State :=
  { s with
    store := s.store.set walletAddress ⟨setup.randomNonce s.drawn, issuedAt⟩
    drawn := s.drawn + 1 }

/-- A verification that fails its checks is over. -/
def get (params : Params) : State :=
  match check setup (s.store.get params.walletAddress) params with
  | .ok true =>
      { s with checked := s.checked.set s.started params, started := s.started + 1 }
  | _ => s

/-- `deleted === 0` is refused. -/
def del (id : Nat) : Option State :=
  match s.checked.get id with
  | none => none
  | some params =>
      match s.store.get params.walletAddress with
      | none => some { s with checked := s.checked.erase id }
      | some stored => some { s with
          checked := s.checked.erase id
          store := s.store.erase params.walletAddress
          accepted := params.nonce :: s.accepted
          consumed := (params.nonce, stored.nonce) :: s.consumed }

end State

def step (s : State) : Action → Option State
  | .issueNonce walletAddress issuedAt => some (s.issueNonce setup walletAddress issuedAt)
  | .expire walletAddress => some { s with store := s.store.erase walletAddress }
  | .get params => some (s.get setup params)
  | .del id => s.del id

end Service

/-! ## Single use -/

/-- Every nonce is accepted at most once, and none consumes another. -/
structure SingleUse (s : State) : Prop where
  once : s.accepted.Nodup
  own : ∀ p ∈ s.consumed, p.1 = p.2

/-- No nonce is issued for a wallet with a verification between its commands. -/
def NotBetween (s : State) : Action → Prop
  | .issueNonce walletAddress _ =>
      ∀ entry ∈ s.checked.entries, entry.2.walletAddress ≠ walletAddress
  | _ => True

instance (s : State) (a : Action) : Decidable (NotBetween s a) :=
  match a with
  | .issueNonce walletAddress _ =>
      inferInstanceAs (Decidable (∀ entry ∈ s.checked.entries,
        entry.2.walletAddress ≠ walletAddress))
  | .expire _ | .get _ | .del _ => .isTrue trivial

variable {setup : Setup} {s s' : State}

/-- What is stored was drawn for its wallet, was not accepted yet, and is what
the verifications of the wallet have read. -/
structure Inv (setup : Setup) (s : State) : Prop where
  single : SingleUse s
  drawn : ∀ w stored, s.store.get w = some stored →
    ∃ i < s.drawn, stored.nonce = setup.randomNonce i
  spent : ∀ nonce ∈ s.accepted, ∃ i < s.drawn, nonce = setup.randomNonce i
  apart : ∀ w w' stored stored', s.store.get w = some stored → s.store.get w' = some stored' →
    stored.nonce = stored'.nonce → w = w'
  unused : ∀ w stored, s.store.get w = some stored → stored.nonce ∉ s.accepted
  read : ∀ id params, s.checked.get id = some params → ∀ stored,
    s.store.get params.walletAddress = some stored → stored.nonce = params.nonce
  asked : ∀ id params, s.checked.get id = some params →
    ∃ i < s.drawn, params.nonce = setup.randomNonce i

theorem inv_init (setup : Setup) : Inv setup .init where
  single := ⟨List.nodup_nil, fun p hp => by simp [State.init] at hp⟩
  drawn w stored h := by cases h
  spent nonce h := by cases h
  apart w w' stored stored' h := by cases h
  unused w stored h := by cases h
  read id params h := by cases h
  asked id params h := by cases h

/-- A nonce that is drawn now has not been seen. -/
theorem randomNonce_fresh {n : Nat} {nonce : String}
    (h : ∃ i < n, nonce = setup.randomNonce i) : nonce ≠ setup.randomNonce n := by
  obtain ⟨i, hi, rfl⟩ := h
  exact fun heq => Nat.ne_of_lt hi (setup.randomNonce_injective heq)

namespace Inv

theorem issueNonce (h : Inv setup s) {w issuedAt : String}
    (hok : NotBetween s (.issueNonce w issuedAt)) : Inv setup (s.issueNonce setup w issuedAt) where
  single := ⟨h.single.once, h.single.own⟩
  drawn := s.store.forall_set
    (fun w stored hget => by
      obtain ⟨i, hi, hnonce⟩ := h.drawn w stored hget
      exact ⟨i, Nat.lt_succ_of_lt hi, hnonce⟩)
    ⟨s.drawn, Nat.lt_succ_self _, rfl⟩
  spent nonce hn := by
    obtain ⟨i, hi, hnonce⟩ := h.spent nonce hn
    exact ⟨i, Nat.lt_succ_of_lt hi, hnonce⟩
  apart := by
    intro v v' stored stored' hv hv' hnonce
    simp only [State.issueNonce, Table.get_set] at hv hv'
    split at hv <;> split at hv'
    · simp_all
    · cases hv
      exact absurd hnonce.symm (randomNonce_fresh (h.drawn v' stored' hv'))
    · cases hv'
      exact absurd hnonce (randomNonce_fresh (h.drawn v stored hv))
    · exact h.apart v v' stored stored' hv hv' hnonce
  unused := s.store.forall_set h.unused fun hspent => randomNonce_fresh (h.spent _ hspent) rfl
  read id params hid stored hget := by
    have hne : params.walletAddress ≠ w := hok (id, params) (s.checked.get_eq_some.mp hid)
    simp only [State.issueNonce] at hget
    rw [s.store.get_set_ne hne] at hget
    exact h.read id params hid stored hget
  asked id params hid := by
    obtain ⟨i, hi, hnonce⟩ := h.asked id params hid
    exact ⟨i, Nat.lt_succ_of_lt hi, hnonce⟩

theorem expire (h : Inv setup s) (w : String) : Inv setup { s with store := s.store.erase w } where
  single := ⟨h.single.once, h.single.own⟩
  drawn := s.store.forall_erase h.drawn
  spent := h.spent
  apart := by
    have hold : ∀ v stored, (s.store.erase w).get v = some stored →
        s.store.get v = some stored :=
      s.store.forall_erase (P := fun v stored => s.store.get v = some stored) fun _ _ hget => hget
    exact fun v v' stored stored' hv hv' => h.apart v v' stored stored' (hold v stored hv)
      (hold v' stored' hv')
  unused := s.store.forall_erase h.unused
  read id params hid :=
    have hold := s.store.forall_erase (k := w)
      (P := fun v stored => v = params.walletAddress → stored.nonce = params.nonce)
      fun v stored hget hv => h.read id params hid stored (hv ▸ hget)
    fun stored hget => hold _ stored hget rfl
  asked := h.asked

/-- A verification that goes on has read its own nonce. -/
theorem check_ok {raw : Option Stored} {params : Params} (h : check setup raw params = .ok true) :
    ∃ stored, raw = some stored ∧ stored.nonce = params.nonce := by
  unfold check at h
  cases raw with
  | none => cases h
  | some stored =>
    simp only at h
    split at h
    · cases h
    · rename_i hnonce
      exact ⟨stored, rfl, not_not.mp hnonce⟩

theorem get (h : Inv setup s) (params : Params) : Inv setup (s.get setup params) := by
  unfold State.get
  split
  · rename_i hcheck
    obtain ⟨stored, hstored, hnonce⟩ := check_ok hcheck
    refine ⟨⟨h.single.once, h.single.own⟩, h.drawn, h.spent, h.apart, h.unused, ?_, ?_⟩
    · refine s.checked.forall_set h.read fun stored' hget => ?_
      cases hstored.symm.trans hget
      exact hnonce
    · exact s.checked.forall_set h.asked (hnonce ▸ h.drawn _ stored hstored)
  · exact h

/-- What a verification deletes is the nonce it has read. -/
theorem del (h : Inv setup s) {id : Nat} (hstep : s.del id = some s') : Inv setup s' := by
  unfold State.del at hstep
  split at hstep
  · cases hstep
  rename_i params hparams
  split at hstep
  · cases hstep
    exact ⟨⟨h.single.once, h.single.own⟩, h.drawn, h.spent, h.apart, h.unused,
      s.checked.forall_erase h.read, s.checked.forall_erase h.asked⟩
  rename_i stored hstored
  cases hstep
  have hnonce := h.read id params hparams stored hstored
  have hgone := h.expire params.walletAddress
  refine ⟨⟨?_, ?_⟩, hgone.drawn, ?_, hgone.apart, ?_, s.checked.forall_erase hgone.read,
    s.checked.forall_erase h.asked⟩
  · exact List.nodup_cons.mpr ⟨hnonce ▸ h.unused _ stored hstored, h.single.once⟩
  · intro p hp
    obtain rfl | hp := List.mem_cons.mp hp
    · exact hnonce.symm
    · exact h.single.own p hp
  · intro nonce hn
    obtain rfl | hn := List.mem_cons.mp hn
    · exact hnonce ▸ h.drawn _ stored hstored
    · exact h.spent nonce hn
  · intro w stored' hget hmem
    obtain heq | hmem := List.mem_cons.mp hmem
    · by_cases hw : w = params.walletAddress
      · subst hw
        simp at hget
      · rw [s.store.get_erase_ne hw] at hget
        exact hw (h.apart w _ stored' stored hget hstored (heq.trans hnonce.symm))
    · exact hgone.unused w stored' hget hmem

theorem step (h : Inv setup s) {a : Action} (hok : NotBetween s a)
    (hstep : Siws.step setup s a = some s') : Inv setup s' := by
  cases a with
  | issueNonce =>
    cases hstep
    exact h.issueNonce hok
  | expire w =>
    cases hstep
    exact h.expire w
  | get params =>
    cases hstep
    exact h.get params
  | del => exact h.del hstep

end Inv

/-! ## Runs -/

theorem del_of_stored {id : Nat} {params : Params} {stored : Stored}
    (hid : s.checked.get id = some params)
    (hstored : s.store.get params.walletAddress = some stored) : s.del id = some { s with
      checked := s.checked.erase id
      store := s.store.erase params.walletAddress
      accepted := params.nonce :: s.accepted
      consumed := (params.nonce, stored.nonce) :: s.consumed } := by
  simp [State.del, hid, hstored]

/-- An issue in between lets a verification delete the new nonce. -/
theorem issue_between (h : Inv setup s) {w issuedAt : String}
    (hnot : ¬ NotBetween s (.issueNonce w issuedAt)) :
    ∃ id t, run (step setup) s [.issueNonce w issuedAt, .del id] = some t ∧ ¬ SingleUse t := by
  simp only [NotBetween, not_forall, not_not] at hnot
  obtain ⟨⟨id, params⟩, hmem, hw⟩ := hnot
  have hid : s.checked.get id = some params := s.checked.get_eq_some.mpr hmem
  have hother : params.nonce ≠ setup.randomNonce s.drawn :=
    randomNonce_fresh (h.asked id params hid)
  have hstored : (s.issueNonce setup w issuedAt).store.get params.walletAddress =
      some ⟨setup.randomNonce s.drawn, issuedAt⟩ := by
    rw [show params.walletAddress = w from hw]
    exact Table.get_set_self _
  have hdel := del_of_stored (s := s.issueNonce setup w issuedAt) hid hstored
  refine ⟨id, _, run_cons_eq_some.mpr ⟨_, rfl, run_cons_eq_some.mpr ⟨_, hdel, rfl⟩⟩, ?_⟩
  intro hsingle
  exact hother (hsingle.own _ (List.mem_cons_self ..))

/-- Nonces are used once in every run in which nothing is issued between the two
commands of a verification of the wallet; such an issue can always be followed
by the deletion of a nonce that was not verified. -/
theorem nonces_single_use {es : List Action} {t : State}
    (hok : Along (step setup) NotBetween .init es) (hrun : run (step setup) .init es = some t) :
    SingleUse t ∧ ∀ w issuedAt, ¬ NotBetween t (.issueNonce w issuedAt) →
      ∃ id t', run (step setup) .init (es ++ [.issueNonce w issuedAt, .del id]) = some t' ∧
        ¬ SingleUse t' := by
  have hinv : Inv setup t :=
    run_induct (fun _ _ _ hok h hstep => Inv.step h hok hstep) (inv_init setup) hok hrun
  refine ⟨hinv.single, fun w issuedAt hnot => ?_⟩
  obtain ⟨id, t', hrun', hbroken⟩ := issue_between hinv hnot
  exact ⟨id, t', run_append.mpr ⟨t, hrun, hrun'⟩, hbroken⟩

namespace Sample

/-- Nonces are numbered, and every signature is good. -/
def config : Setup where
  binding := ⟨"d", "u", "c"⟩
  randomNonce n := String.ofList (List.replicate n 'n')
  randomNonce_injective := by
    intro m n h
    have hlist := congrArg String.toList h
    simpa using congrArg List.length hlist
  verify _ _ _ := some true

/-- A sign-in with nonce number `n`. -/
def signIn (n : Nat) : Params where
  walletAddress := "w"
  message := buildMessage config "w" (config.randomNonce n) "t"
  signature := "s"
  nonce := config.randomNonce n

/-- One sign-in after the other. -/
def inTurn : List Action :=
  [.issueNonce "w" "t", .get (signIn 0), .del 0, .issueNonce "w" "t", .get (signIn 1), .del 1]

/-- Two verifications of one nonce, with an issue between the deletions. -/
def twice : List Action :=
  [.issueNonce "w" "t", .get (signIn 0), .get (signIn 0), .del 0, .issueNonce "w" "t", .del 1]

end Sample

theorem nonces_single_use_inTurn : ∃ t,
    run (step Sample.config) .init Sample.inTurn = some t ∧ SingleUse t := by
  obtain ⟨t, ht⟩ := Option.isSome_iff_exists.mp
    (by decide +kernel : (run (step Sample.config) .init Sample.inTurn).isSome = true)
  exact ⟨t, ht, (nonces_single_use (by decide +kernel) ht).1⟩

/-- The first nonce is accepted twice, and the second is lost. -/
theorem nonce_used_twice : ∃ t, run (step Sample.config) .init Sample.twice = some t ∧
    ¬ t.accepted.Nodup ∧ ¬ ∀ p ∈ t.consumed, p.1 = p.2 := by
  decide +kernel

end Scadium.Auth.Siws
