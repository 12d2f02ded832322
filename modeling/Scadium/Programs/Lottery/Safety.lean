/-
Scadium.Programs.Lottery.Safety — what no run of `scadium_lottery` does
(`programs/scadium_lottery/src/lib.rs`).

The order of the events and the pinned digits are facts about legal logs. The
$SCAD of each account and the supply are followed act by act: an account pays
only what its owner signs.
-/
import Scadium.Programs.Lottery.Ledger

namespace Scadium.Programs.Lottery

open Scadium.Lib Scadium.Lib.EventLog

/-! ## The order of the events -/

/-- The draw an event commits. -/
def Event.commits : Event → Option Nat
  | .drawCommitted i .. => some i
  | _ => none

/-- The draw an event reveals. -/
def Event.reveals : Event → Option Nat
  | .drawRevealed i .. => some i
  | _ => none

/-- The prize an event pays. -/
def Event.prize : Event → Option PayoutKey
  | .prizePaid i winner _ _ => some ⟨i, winner⟩
  | _ => none

/-- The draw whose pool an event spends. -/
def Event.spends : Event → Option Nat
  | .prizePaid i .. => some i
  | .poolBurned i _ => some i
  | _ => none

variable {env : Env} {v : View} {e : Event} {log : List Event}

theorem commits_taken (_h : Allowed env v e) (i : Nat) :
    ((v.apply e).draws i).isSome = true ↔ (v.draws i).isSome = true ∨ e.commits = some i := by
  cases e with
  | drawCommitted j =>
    by_cases hi : i = j
    · simp [View.apply, Event.commits, hi]
    · simp [View.apply, Event.commits, hi, Ne.symm hi]
  | ticketBought t =>
    by_cases hi : i = t.draw_index
    · simp [View.apply, Event.commits, hi]
    · simp [View.apply, Event.commits, hi]
  | drawRevealed j =>
    by_cases hi : i = j
    · simp [View.apply, Event.commits, hi]
    · simp [View.apply, Event.commits, hi]
  | fundsInjected | prizePaid | poolBurned => simp [View.apply, Event.commits]

theorem reveals_taken (h : Allowed env v e) (i : Nat) :
    (v.apply e).Has i .Revealed ↔ v.Has i .Revealed ∨ e.reveals = some i := by
  cases e with
  | drawCommitted j =>
    have hfree : v.draws j = none := h
    by_cases hi : i = j
    · subst hi
      simp [View.apply, View.Has, Event.reveals, hfree]
    · simp [View.apply, View.Has, Event.reveals, hi]
  | ticketBought t =>
    by_cases hi : i = t.draw_index
    · subst hi
      simp [View.apply, View.Has, Event.reveals, Draw.sold]
    · simp [View.apply, View.Has, Event.reveals, hi]
  | drawRevealed j =>
    obtain ⟨⟨d, hd, -⟩, -⟩ := h
    by_cases hi : i = j
    · subst hi
      simp [View.apply, View.Has, Event.reveals, hd]
    · simp [View.apply, View.Has, Event.reveals, hi, Ne.symm hi]
  | fundsInjected | prizePaid | poolBurned => simp [View.apply, View.Has, Event.reveals]

theorem prize_taken (_h : Allowed env v e) (k : PayoutKey) :
    ((v.apply e).payouts k).isSome = true ↔ (v.payouts k).isSome = true ∨ e.prize = some k := by
  cases e with
  | prizePaid j winner =>
    by_cases hk : k = ⟨j, winner⟩
    · simp [View.apply, Event.prize, hk]
    · simp [View.apply, Event.prize, hk, Ne.symm hk]
  | drawCommitted | fundsInjected | ticketBought | drawRevealed | poolBurned =>
    simp [View.apply, Event.prize]

/-- An open draw is not revealed. -/
theorem View.Has.not_revealed {i : Nat} (h : v.Has i .Open) : ¬ v.Has i .Revealed := by
  obtain ⟨d, hd, hopen⟩ := h
  rintro ⟨_, hd', hrevealed⟩
  cases hd.symm.trans hd'
  cases hopen.symm.trans hrevealed

theorem View.Has.isSome {i : Nat} {status : DrawStatus} (h : v.Has i status) :
    (v.draws i).isSome = true := by
  obtain ⟨d, hd, -⟩ := h
  simp [hd]

variable (log) in
/-- A log in which each draw is committed and revealed once and each prize is
paid once; a draw sells between its commitment and its reveal, and its pool is
spent after the reveal. -/
structure Ordered : Prop where
  commits : (log.filterMap Event.commits).Nodup
  reveals : (log.filterMap Event.reveals).Nodup
  prizes : (log.filterMap Event.prize).Nodup
  sold : ∀ before after t, log = before ++ .ticketBought t :: after →
    t.draw_index ∈ before.filterMap Event.commits ∧
      t.draw_index ∉ before.filterMap Event.reveals
  revealed : ∀ before after e i, log = before ++ e :: after → e.reveals = some i →
    i ∈ before.filterMap Event.commits
  spent : ∀ before after e i, log = before ++ e :: after → e.spends = some i →
    i ∈ before.filterMap Event.reveals

section Legal

variable (h : Legal (Allowed env) View.apply .empty log)
include h

/-- What the events so far have committed and revealed. -/
theorem committed_iff (i : Nat) :
    ((log.foldl View.apply .empty).draws i).isSome = true ↔
      i ∈ log.filterMap Event.commits := by
  rw [h.taken_iff (fun v i => (v.draws i).isSome = true)
    fun v e i he => commits_taken he i]
  simp [View.empty]

theorem revealed_iff (i : Nat) :
    (log.foldl View.apply .empty).Has i .Revealed ↔ i ∈ log.filterMap Event.reveals := by
  rw [h.taken_iff (fun v i => v.Has i .Revealed) fun v e i he => reveals_taken he i]
  simp [View.empty, View.Has]

theorem ordered_of_legal : Ordered log where
  commits := (h.keys_nodup (fun v i => (v.draws i).isSome = true)
    (fun v e i he => commits_taken he i) (by
      intro v e i he hkey
      cases e <;> simp_all [Event.commits, Allowed])).1
  reveals := (h.keys_nodup (fun v i => v.Has i .Revealed)
    (fun v e i he => reveals_taken he i) (by
      intro v e i he hkey
      cases e with
      | drawRevealed =>
        cases hkey
        exact he.1.not_revealed
      | drawCommitted | fundsInjected | ticketBought | prizePaid | poolBurned => cases hkey)).1
  prizes := (h.keys_nodup (fun v k => (v.payouts k).isSome = true)
    (fun v e k he => prize_taken he k) (by
      intro v e k he hkey
      cases e with
      | prizePaid =>
        cases hkey
        simp [he.2.1]
      | drawCommitted | fundsInjected | ticketBought | drawRevealed | poolBurned => cases hkey)).1
  sold := by
    rintro before after t rfl
    obtain ⟨hbefore, hopen, -⟩ := h.at
    rw [← committed_iff hbefore, ← revealed_iff hbefore]
    exact ⟨hopen.isSome, hopen.not_revealed⟩
  revealed := by
    rintro before after e i rfl hkey
    obtain ⟨hbefore, he⟩ := h.at
    rw [← committed_iff hbefore]
    cases e with
    | drawRevealed =>
      cases hkey
      exact he.1.isSome
    | drawCommitted | fundsInjected | ticketBought | prizePaid | poolBurned => cases hkey
  spent := by
    rintro before after e i rfl hkey
    obtain ⟨hbefore, he⟩ := h.at
    rw [← revealed_iff hbefore]
    cases e with
    | prizePaid | poolBurned =>
      cases hkey
      exact he.1
    | drawCommitted | fundsInjected | ticketBought | drawRevealed => cases hkey

end Legal

variable {cfg : Config} {t : Ledger} {acts : List Act} {slot unix_timestamp supply : Nat}
  {scad : Balances Holder}

/-- In every run the draws and payouts are what the events say, and the events
come in a legal order. -/
theorem accounts_replay
    (h : Emits env cfg (.genesis slot unix_timestamp scad supply) acts t log) :
    Legal (Allowed env) View.apply .empty log ∧ t.view = log.foldl View.apply .empty :=
  (run_logs h).2

/-- In every run the events come in that order. -/
theorem events_ordered
    (h : Emits env cfg (.genesis slot unix_timestamp scad supply) acts t log) : Ordered log :=
  ordered_of_legal (run_logs h).2.1

/-! ## The digits are pinned by the commitment -/

/-- What an account keeps of the commitment of its draw. -/
theorem sealed_of_legal (h : Legal (Allowed env) View.apply .empty log) {i : Nat} {sealed : Seal}
    (hsealed : (log.foldl View.apply .empty).seals i = some sealed) :
    ∃ draw_at, .drawCommitted i sealed.server_seed_hash sealed.client_seed draw_at
      sealed.target_slot ∈ log := by
  have horigin := h.origin
    (P := fun v => ∃ s, v.seals i = some s ∧ s.server_seed_hash = sealed.server_seed_hash ∧
      s.client_seed = sealed.client_seed ∧ s.target_slot = sealed.target_slot)
    (Q := fun e => ∃ draw_at, e = .drawCommitted i sealed.server_seed_hash sealed.client_seed
      draw_at sealed.target_slot) ?_ ⟨sealed, hsealed, rfl, rfl, rfl⟩
  · obtain ⟨s, hs, -⟩ | ⟨e, he, draw_at, rfl⟩ := horigin
    · cases hs
    · exact ⟨draw_at, he⟩
  · rintro v e - ⟨s, hs, hkept⟩
    cases e with
    | drawCommitted j server_seed_hash client_seed draw_at =>
      by_cases hi : i = j
      · subst hi
        simp only [View.apply, Function.update_self, Option.some.injEq] at hs
        subst hs
        obtain ⟨hhash, hclient, htarget⟩ := hkept
        exact .inr ⟨draw_at, by rw [← hhash, ← hclient, ← htarget]; rfl⟩
      · simp only [View.apply, Function.update_of_ne hi] at hs
        exact .inl ⟨s, hs, hkept⟩
    | drawRevealed j =>
      by_cases hi : i = j
      · subst hi
        simp only [View.apply, Function.update_self, Option.map_eq_some_iff] at hs
        obtain ⟨old, hold, rfl⟩ := hs
        exact .inl ⟨old, hold, hkept⟩
      · simp only [View.apply, Function.update_of_ne hi] at hs
        exact .inl ⟨s, hs, hkept⟩
    | fundsInjected | ticketBought | prizePaid | poolBurned => exact .inl ⟨s, hs, hkept⟩

/-- A revealed draw: its seed is the committed one, its slot the pinned one,
and its digits follow from both. -/
structure Pinned (env : Env) (server_seed_hash client_seed : Vector UInt8 32) (target_slot : Nat)
    (server_seed : Vector UInt8 64) (slot : Nat) (slot_hash final_entropy : Vector UInt8 32)
    (digits : List UInt8) : Prop where
  seed : sha256 env.sha server_seed.toList = server_seed_hash
  slot : slot = target_slot
  hash : slot_hash = env.hashOf target_slot
  digits : derive_numbers env.sha server_seed (env.hashOf target_slot) client_seed 0 =
    some (final_entropy, digits)

theorem pinned_of_legal (h : Legal (Allowed env) View.apply .empty log) {i : Nat}
    {server_seed_hash client_seed : Vector UInt8 32} {draw_at target_slot : Nat}
    {server_seed : Vector UInt8 64} {slot : Nat} {slot_hash final_entropy : Vector UInt8 32}
    {digits : List UInt8}
    (hcommit : .drawCommitted i server_seed_hash client_seed draw_at target_slot ∈ log)
    (hreveal : .drawRevealed i server_seed slot slot_hash final_entropy digits ∈ log) :
    Pinned env server_seed_hash client_seed target_slot server_seed slot slot_hash final_entropy
      digits := by
  obtain ⟨_, _, rfl⟩ := List.append_of_mem hreveal
  obtain ⟨hbefore, -, hhash, sealed, hsealed, hslot, hseed, hderive⟩ := h.at
  obtain ⟨_, hmem⟩ := sealed_of_legal hbefore hsealed
  -- the draw is committed once, so this is the commitment it was sealed with
  have hsame := eq_of_keys_nodup (ordered_of_legal h).commits hcommit
    (List.mem_append_left _ hmem) rfl rfl
  cases hsame
  exact ⟨hseed, hslot, by rw [hhash, hslot], by rw [hhash, hslot] at hderive; exact hderive⟩

/-- The cosigner cannot grind a draw. When it commits one, no hash of the
target slot is known; and after the same commitment on the same chain, however
the two runs go on and whenever it reveals, a draw has the same digits, unless
the cosigner has two seeds of one digest. -/
theorem draw_not_ground {cfg' : Config} {before after before' after' : List Act}
    {signer signer' : Pubkey} {slot' unix_timestamp' supply' : Nat} {scad' : Balances Holder}
    {t' : Ledger} {log' : List Event} {i draw_at draw_at' target_slot : Nat}
    {server_seed_hash client_seed : Vector UInt8 32}
    (h : Emits env cfg (.genesis slot unix_timestamp scad supply)
      (before ++ .commitDraw signer i server_seed_hash client_seed draw_at target_slot :: after)
      t log)
    (h' : Emits env cfg' (.genesis slot' unix_timestamp' scad' supply')
      (before' ++ .commitDraw signer' i server_seed_hash client_seed draw_at' target_slot ::
        after') t' log') :
    (∀ u seen, Emits env cfg (.genesis slot unix_timestamp scad supply) before u seen →
      ∀ known ∈ u.cluster.slot_hashes, known.1 < target_slot) ∧
    ∀ seed n hash entropy digits, .drawRevealed i seed n hash entropy digits ∈ log →
      ∀ seed' n' hash' entropy' digits',
        .drawRevealed i seed' n' hash' entropy' digits' ∈ log' →
        entropy = entropy' ∧ digits = digits' ∨
          seed ≠ seed' ∧ sha256 env.sha seed.toList = sha256 env.sha seed'.toList := by
  have hcommitted {cfg : Config} {l t : Ledger} {log : List Event} {signer : Pubkey}
      {draw_at : Nat} {before after : List Act}
      (h : Emits env cfg l (before ++ .commitDraw signer i server_seed_hash client_seed draw_at
        target_slot :: after) t log) :
      .drawCommitted i server_seed_hash client_seed draw_at target_slot ∈ log ∧
        ∀ u seen, Emits env cfg l before u seen → u.cluster.slot < target_slot := by
    obtain ⟨⟨u, seen⟩, hbefore, hrest⟩ := run_append.mp h
    obtain ⟨r, hstep, hafter⟩ := run_cons_eq_some.mp hrest
    obtain ⟨_, _, hexec, rfl⟩ := record_eq_some.mp hstep
    obtain ⟨-, hfuture, -, rfl, -⟩ := commitDraw_ok (toOption_eq_some.mp hexec)
    refine ⟨(log_grows hafter).subset (by simp), ?_⟩
    intro w seen' hw
    cases hbefore.symm.trans hw
    exact hfuture
  constructor
  · intro u seen hu known hmem
    exact lt_trans ((run_logs hu).1 known hmem).1 ((hcommitted h).2 u seen hu)
  · intro seed n hash entropy digits hreveal seed' n' hash' entropy' digits' hreveal'
    have hone := pinned_of_legal (run_logs h).2.1 (hcommitted h).1 hreveal
    have htwo := pinned_of_legal (run_logs h').2.1 (hcommitted h').1 hreveal'
    by_cases hseed : seed = seed'
    · subst hseed
      have hsame := hone.digits.symm.trans htwo.digits
      cases hsame
      exact .inl ⟨rfl, rfl⟩
    · exact .inr ⟨hseed, hone.seed.trans htwo.seed.symm⟩

/-! ## The $SCAD -/

/-- $SCAD that leaves an account, and arrives in one or is burned. -/
structure Payment where
  src : Option Holder
  dst : Option Holder
  amount : Nat

/-- What leaves an account. -/
def Payment.takes (k : Holder) (p : Payment) : Nat := if p.src = some k then p.amount else 0

/-- What arrives in an account; what is burned, without one. -/
def Payment.gives (k : Option Holder) (p : Payment) : Nat := if p.dst = k then p.amount else 0

def Act.payment (cfg : Config) : Act → Payment
  | .inject signer _ amount => ⟨some (.user signer), some .treasury, amount⟩
  | .purchase buyer ixs =>
      ⟨some (.user buyer), some .treasury, (ixs.map (·.cost cfg.toLotteryConfig)).sum⟩
  | .payPrize _ _ winner amount _ => ⟨some .treasury, some winner, amount⟩
  | .burnPool _ _ amount => ⟨some .treasury, none, amount⟩
  | .send wallet dst amount => ⟨some (.user wallet), some dst, amount⟩
  | .burn wallet amount => ⟨some (.user wallet), none, amount⟩
  | .commitDraw .. | .revealDraw .. | .elapse .. => ⟨none, none, 0⟩

/-- Whose signature an act carries. -/
def Act.signer : Act → Option Pubkey
  | .commitDraw signer .. | .inject signer .. | .purchase signer _ | .revealDraw signer ..
  | .payPrize signer .. | .burnPool signer .. | .send signer .. | .burn signer _ => some signer
  | .elapse .. => none

/-- Who signs for an account: for the treasury, the cosigner. -/
def Config.owner (cfg : Config) : Holder → Pubkey
  | .treasury => cfg.cosigner
  | .user wallet => wallet

/-- The $SCAD accounts hold all of the supply. -/
def Ledger.Sound (l : Ledger) : Prop := l.scad.total = l.supply

/-- Where the $SCAD went: what each account and the supply gained and lost, and
that an account loses only what its owner signed for. -/
structure Accounted (cfg : Config) (acts : List Act) (l l' : Ledger) : Prop where
  balances : ∀ k, l'.scad.get k + weight (fun act => (act.payment cfg).takes k) acts =
    l.scad.get k + weight (fun act => (act.payment cfg).gives (some k)) acts
  supply : l'.supply + weight (fun act => (act.payment cfg).gives none) acts = l.supply
  sound : l'.Sound
  signed : ∀ act ∈ acts, ∀ k, (act.payment cfg).src = some k → act.signer = some (cfg.owner k)

theorem Accounted.trans {l l' l'' : Ledger} {first rest : List Act}
    (h : Accounted cfg first l l') (h' : Accounted cfg rest l' l'') :
    Accounted cfg (first ++ rest) l l'' where
  balances := by
    intro k
    have hone := h.balances k
    have htwo := h'.balances k
    rw [weight_append, weight_append]
    omega
  supply := by
    have hone := h.supply
    have htwo := h'.supply
    rw [weight_append]
    omega
  sound := h'.sound
  signed := by
    intro act hact
    cases List.mem_append.mp hact with
    | inl hact => exact h.signed act hact
    | inr hact => exact h'.signed act hact

variable {l l' : Ledger} {act : Act} {events : List Event}

section Payments

variable {src dst : Holder} {n : Nat}

theorem accounted_move (hsound : l.Sound) (hle : n ≤ l.scad.get src)
    (hscad : l'.scad = l.scad.move src dst n) (hsupply : l'.supply = l.supply)
    (hpays : act.payment cfg = ⟨some src, some dst, n⟩)
    (hsigner : act.signer = some (cfg.owner src)) : Accounted cfg [act] l l' where
  balances := by
    intro k
    simpa [hpays, hscad, Payment.takes, Payment.gives] using l.scad.get_move hle
  supply := by simp [hpays, hsupply, Payment.gives]
  sound := by
    unfold Ledger.Sound
    rw [hscad, hsupply, l.scad.total_move hle, hsound]
  signed := by simpa [hpays] using hsigner

theorem accounted_burn (hsound : l.Sound) (hle : n ≤ l.scad.get src)
    (hscad : l'.scad = l.scad.debit src n) (hsupply : l'.supply = l.supply - n)
    (hpays : act.payment cfg = ⟨some src, none, n⟩)
    (hsigner : act.signer = some (cfg.owner src)) : Accounted cfg [act] l l' := by
  have htotal := l.scad.total_debit hle
  unfold Ledger.Sound at hsound
  refine ⟨?_, ?_, ?_, by simpa [hpays] using hsigner⟩
  · intro k
    by_cases hk : k = src
    · subst hk
      simp [hpays, hscad, Payment.takes, Payment.gives, Nat.sub_add_cancel hle]
    · simp [hpays, hscad, Payment.takes, Payment.gives, l.scad.get_debit_ne hk, Ne.symm hk]
  · simp only [weight_cons, weight_nil, hpays, hsupply, Payment.gives, if_true]
    omega
  · unfold Ledger.Sound
    rw [hscad, hsupply]
    omega

/-- The buyer pays the treasury for all the tickets of a transaction. -/
theorem accounted_purchase {ixs : List Instruction}
    (hsound : l.Sound) (h : purchase cfg signer l ixs = .ok (l', events)) :
    Accounted cfg [.purchase signer ixs] l l' := by
  obtain ⟨accounts, _, rfl, -, hsold, -, hpaid⟩ := purchase_sold h
  refine ⟨?_, rfl, hsold.scad.total.trans hsound, by simp [Act.payment, Act.signer, Config.owner]⟩
  have hpair := hsold.scad.sum_eq (l := [.treasury, .user signer]) (by simp) (by simp)
  intro k
  show accounts.scad.get k + _ = l.scad.get k + _
  by_cases htreasury : k = .treasury
  · subst htreasury
    simpa [Act.payment, Payment.takes, Payment.gives] using hpaid
  · by_cases hbuyer : k = .user signer
    · subst hbuyer
      simp [Act.payment, Payment.takes, Payment.gives, Ledger.scad] at hpair hpaid ⊢
      omega
    · have hother := hsold.scad.get_eq (k := k) (by
        rintro _ _ ⟨rfl, rfl⟩
        exact ⟨hbuyer, htreasury⟩)
      simp [Act.payment, Payment.takes, Payment.gives, Ledger.scad, hother, Ne.symm htreasury,
        Ne.symm hbuyer]

end Payments

/-- What one act does to the $SCAD. -/
theorem step_accounted (hsound : l.Sound) (h : act.exec env cfg l = some (l', events)) :
    Accounted cfg [act] l l' := by
  cases act with
  | commitDraw =>
    obtain ⟨-, -, -, -, rfl⟩ := commitDraw_ok (toOption_eq_some.mp h)
    exact ⟨by simp [Act.payment, Payment.takes, Payment.gives, Ledger.scad], rfl, hsound,
      by simp [Act.payment]⟩
  | inject =>
    obtain ⟨-, -, -, hle, -, rfl⟩ := inject_ok (toOption_eq_some.mp h)
    exact accounted_move hsound hle rfl rfl rfl rfl
  | purchase => exact accounted_purchase hsound (toOption_eq_some.mp h)
  | revealDraw =>
    obtain ⟨-, _, _, _, _, _, -, -, -, -, -, -, -, rfl⟩ :=
      revealDraw_ok (toOption_eq_some.mp h)
    exact ⟨by simp [Act.payment, Payment.takes, Payment.gives, Ledger.scad], rfl, hsound,
      by simp [Act.payment]⟩
  | payPrize =>
    obtain ⟨rfl, -, -, -, -, hle, -, rfl⟩ := payPrize_ok (toOption_eq_some.mp h)
    exact accounted_move hsound hle rfl rfl rfl rfl
  | burnPool =>
    obtain ⟨rfl, -, -, hle, -, rfl⟩ := burnPool_ok (toOption_eq_some.mp h)
    exact accounted_burn hsound hle rfl rfl rfl rfl
  | send =>
    obtain ⟨_, hsend, heq⟩ := Option.map_eq_some_iff.mp h
    cases heq
    obtain ⟨hle, -, rfl⟩ := transfer_ok.mp (toOption_eq_some.mp hsend)
    exact accounted_move hsound hle rfl rfl rfl rfl
  | burn =>
    obtain ⟨_, hburn, heq⟩ := Option.map_eq_some_iff.mp h
    cases heq
    obtain ⟨hle, rfl⟩ := burn_ok.mp (toOption_eq_some.mp hburn)
    exact accounted_burn hsound hle rfl rfl rfl rfl
  | elapse =>
    obtain ⟨c, helapse, heq⟩ := Option.map_eq_some_iff.mp h
    cases heq
    unfold Games.Lottery.SaleWindow.Cluster.elapse at helapse
    split at helapse
    · cases helapse
      exact ⟨by simp [Act.payment, Payment.takes, Payment.gives, Ledger.scad], rfl, hsound,
        by simp [Act.payment]⟩
    · cases helapse

/-- In every run each account holds what was paid into it less what was taken
out of it, with its owner's signature; the supply is what is not burned, and
all of it is held by someone. -/
theorem scad_accounted (hsound : l.Sound) (h : Emits env cfg l acts t log) :
    Accounted cfg acts l t := by
  refine run_history (P := fun acts r => Accounted cfg acts l r.1) ?_ ?_ h
  · exact ⟨fun _ => rfl, rfl, hsound, by simp⟩
  · intro acts s act s' _ hacts hstep
    obtain ⟨u, _, hexec, rfl⟩ := record_eq_some.mp hstep
    exact hacts.trans (step_accounted hacts.sound hexec)

/-! ## A draw from its commitment to its burn -/

namespace Sample

open Games.Lottery.SaleWindow.Sample (mixer seed hash client)

def chain : Env := ⟨mixer, fun _ => hash⟩

def operated : Config := { setup with cosigner := "operator" }

def holdings : Balances Holder :=
  (Balances.empty.credit (.user "operator") (100 * 10 ^ 9)).credit (.user "alice") (50 * 10 ^ 9)

def start : Ledger := .genesis 100 0 holdings (150 * 10 ^ 9)

def opened : Act := .commitDraw "operator" 1 (sha256 mixer seed.toList) client 60 150

/-- Two tickets, the reveal, a prize and a burn. -/
def played : List Act :=
  [.inject "operator" 1 (5 * 10 ^ 9), .purchase "alice" [.buyTickets 1 [[3, 4, 4, 4, 4, 5],
    [0, 0, 0, 0, 0, 0]]], .elapse 60 120 [150], .revealDraw "operator" 1 seed,
    .payPrize "operator" 1 (.user "alice") (10 * 10 ^ 9) 5, .burnPool "operator" 1 (4 * 10 ^ 9)]

/-- Nobody plays, and the reveal comes late. -/
def late : List Act := [.elapse 60 10 [120, 150, 155], .elapse 400 5000 [300],
  .revealDraw "operator" 1 seed]

/-- The event of the reveal. -/
def drawn : Event := .drawRevealed 1 seed 150 hash
  (sha256 mixer (seed.toList ++ hash.toList ++ client.toList ++ [0, 0, 0, 0])) [3, 4, 4, 4, 4, 5]

theorem played_logs : (run (record (Act.exec chain operated)) (start, []) (opened :: played)).any
    (fun r => decide (r.2.length = 7 ∧ drawn ∈ r.2 ∧
      r.2.filterMap Event.prize = [⟨1, .user "alice"⟩])) = true := by
  decide +kernel

theorem late_logs : (run (record (Act.exec chain operated)) (start, []) (opened :: late)).any
    (fun r => decide (drawn ∈ r.2)) = true := by
  decide +kernel

theorem played_emits : ∃ t log, Emits chain operated start (opened :: played) t log ∧
    log.length = 7 ∧ drawn ∈ log ∧ log.filterMap Event.prize = [⟨1, .user "alice"⟩] := by
  obtain ⟨r, hr, h⟩ := (Option.any_eq_true _ _).mp played_logs
  exact ⟨r.1, r.2, hr, of_decide_eq_true h⟩

end Sample

theorem accounts_replay_played : ∃ t log,
    Emits Sample.chain Sample.operated Sample.start (Sample.opened :: Sample.played) t log ∧
    log.length = 7 ∧ Legal (Allowed Sample.chain) View.apply .empty log ∧
    t.view = log.foldl View.apply .empty := by
  obtain ⟨t, log, h, hlength, -⟩ := Sample.played_emits
  exact ⟨t, log, h, hlength, accounts_replay h⟩

theorem events_ordered_played : ∃ t log,
    Emits Sample.chain Sample.operated Sample.start (Sample.opened :: Sample.played) t log ∧
    log.filterMap Event.prize = [⟨1, .user "alice"⟩] ∧ Ordered log := by
  obtain ⟨t, log, h, -, -, hprize⟩ := Sample.played_emits
  exact ⟨t, log, h, hprize, events_ordered h⟩

/-- The draw is played in one run and revealed late in another. -/
theorem draw_not_ground_late : ∃ t log t' log',
    Emits Sample.chain Sample.operated Sample.start (Sample.opened :: Sample.played) t log ∧
    Emits Sample.chain Sample.operated Sample.start (Sample.opened :: Sample.late) t' log' ∧
    Sample.drawn ∈ log ∧ Sample.drawn ∈ log' ∧
    ∀ u seen, Emits Sample.chain Sample.operated Sample.start [] u seen →
      ∀ known ∈ u.cluster.slot_hashes, known.1 < 150 := by
  obtain ⟨t, log, h, -, hdrawn, -⟩ := Sample.played_emits
  obtain ⟨r, h', hdecide⟩ := (Option.any_eq_true _ _).mp Sample.late_logs
  have hcommit : Emits Sample.chain Sample.operated Sample.start
      ([] ++ Sample.opened :: Sample.played) t log := h
  have hcommit' : Emits Sample.chain Sample.operated Sample.start
      ([] ++ Sample.opened :: Sample.late) r.1 r.2 := h'
  have hdrawn' := of_decide_eq_true hdecide
  exact ⟨t, log, r.1, r.2, h, h', hdrawn, hdrawn',
    (draw_not_ground hcommit hcommit').1⟩

theorem scad_accounted_played : ∃ t log,
    Emits Sample.chain Sample.operated Sample.start (Sample.opened :: Sample.played) t log ∧
    Accounted Sample.operated (Sample.opened :: Sample.played) Sample.start t := by
  obtain ⟨t, log, h, -⟩ := Sample.played_emits
  exact ⟨t, log, h, scad_accounted (by unfold Ledger.Sound; decide) h⟩

end Scadium.Programs.Lottery
