/-
Scadium.Fairness.SeedHistory — runs of the seed manager, with the bets
derived along the way.

A history is the `ClientSeed` table plus, for every user, the derivation
contexts handed to that user's bets, newest first. `step` applies one
operation of `SeedManagerService`; `rotateServerSeed` is labelled with the
outcome of its `instantRound.findFirst`.

Every operation ends by writing one row, so each step is a `put`, and
`step_*` say which. The invariants are statements about one row and the
list of its user's bets (`RowInv`, and `Counted` for the uniqueness), and
`Inv.put` lifts them to the table.

`NoRestore` is the condition the code lacks: a client seed under which the
active server seed has already been used is not set again.
-/
import Scadium.Fairness.SeedManager
import Scadium.Lib.Runs

namespace Scadium.Fairness

open Scadium.Fair
open Scadium.Prisma (UserId)

variable {Seed Digest : Type}

/-- A call of the service that completed. -/
inductive SeedOp where
  | getOrCreateActivePair (user : UserId)
  | consumeNonce (user : UserId)
  | reserveSeedContext (user : UserId)
  | setClientSeed (user : UserId) (clientSeed : JsString)
  | rotateServerSeed (user : UserId) (activeRound : Bool)
  deriving DecidableEq

/-- What a bet's outcome is derived from. -/
def SeedContext.triple (ctx : SeedContext Seed Digest) : Seed × JsString × Nat :=
  (ctx.serverSeed, ctx.clientSeed, ctx.nonce)

/-- The table and the contexts derived so far. -/
structure History (src : SeedSource Seed Digest) where
  store : SeedStore src
  bets : UserId → List (SeedContext Seed Digest)

variable {src : SeedSource Seed Digest}

namespace History

def init (src : SeedSource Seed Digest) : History src := ⟨.empty src, fun _ => []⟩

/-- A bet of `u` is derived from `derived.1`. -/
def record (h : History src) (u : UserId)
    (derived : SeedContext Seed Digest × SeedStore src) : History src :=
  ⟨derived.2, Function.update h.bets u (derived.1 :: h.bets u)⟩

def step (h : History src) : SeedOp → Option (History src)
  | .getOrCreateActivePair u => some { h with store := (h.store.getOrCreateActivePair u).2 }
  | .consumeNonce u => some (h.record u (h.store.consumeNonce u))
  | .reserveSeedContext u => some (h.record u (h.store.reserveSeedContext u))
  | .setClientSeed u c => some { h with store := (h.store.setClientSeed u c).2 }
  | .rotateServerSeed u active =>
      some { h with store := (h.store.rotateServerSeed u active).2 }

/-- The operation does not restore a client seed under which the active
server seed has already been used. -/
def NoRestore (h : History src) : SeedOp → Prop
  | .setClientSeed u c =>
      ∀ row, h.store.rows u = some row →
        ∀ b ∈ h.bets u, b.serverSeed = row.serverSeed →
          SeedStore.acceptedClientSeed c ≠ some b.clientSeed
  | _ => True

/-- Write the row, the generators' state and the bets of one user. -/
def put (h : History src) (u : UserId) (row : ClientSeedRow src) (d : Draws)
    (bs : List (SeedContext Seed Digest)) : History src :=
  ⟨⟨Function.update h.store.rows u (some row), d⟩, Function.update h.bets u bs⟩

/-- The row an operation on `u` works on. -/
def row (h : History src) (u : UserId) : ClientSeedRow src := (h.store.ensureRow u).1

/-- The generators' state once that row exists. -/
def draws (h : History src) (u : UserId) : Draws := (h.store.ensureRow u).2.draws

end History

/-! ## Each operation is one write -/

theorem SeedStore.ensureRow_snd (s : SeedStore src) (u : UserId) :
    (s.ensureRow u).2 =
      ⟨Function.update s.rows u (some (s.ensureRow u).1), (s.ensureRow u).2.draws⟩ := by
  cases h : s.rows u with
  | none => simp [SeedStore.ensureRow, h, SeedStore.setRow]
  | some row =>
    have hself : Function.update s.rows u (some row) = s.rows := by
      rw [← h, Function.update_eq_self]
    simp [SeedStore.ensureRow, h, hself]

theorem SeedStore.setRow_ensureRow (s : SeedStore src) (u : UserId) (row : ClientSeedRow src) :
    (s.ensureRow u).2.setRow u row =
      ⟨Function.update s.rows u (some row), (s.ensureRow u).2.draws⟩ := by
  rw [SeedStore.setRow, SeedStore.ensureRow_snd]
  simp

namespace History

theorem put_bets_self (h : History src) (u : UserId) (row : ClientSeedRow src) (d : Draws) :
    h.put u row d (h.bets u) = ⟨⟨Function.update h.store.rows u (some row), d⟩, h.bets⟩ := by
  simp [put]

theorem step_getOrCreateActivePair (h : History src) (u : UserId) :
    h.step (.getOrCreateActivePair u) = some (h.put u (h.row u) (h.draws u) (h.bets u)) := by
  rw [put_bets_self]
  simp only [step, SeedStore.getOrCreateActivePair, row, draws]
  rw [← SeedStore.ensureRow_snd]

theorem step_consumeNonce (h : History src) (u : UserId) :
    h.step (.consumeNonce u) =
      some (h.put u (h.row u).bumpNonce (h.draws u)
        ((h.row u).bumpNonce.context :: h.bets u)) := by
  simp only [step, record, SeedStore.consumeNonce, SeedStore.setRow_ensureRow]
  rfl

theorem step_reserveSeedContext (h : History src) (u : UserId) :
    h.step (.reserveSeedContext u) = h.step (.consumeNonce u) := rfl

theorem step_setClientSeed (h : History src) (u : UserId) (c : JsString) :
    h.step (.setClientSeed u c) =
      match SeedStore.acceptedClientSeed c with
      | none => some h
      | some trimmed =>
          some (h.put u ((h.row u).withClientSeed trimmed) (h.draws u) (h.bets u)) := by
  cases hc : SeedStore.acceptedClientSeed c with
  | none => simp [step, SeedStore.setClientSeed, hc]
  | some =>
    simp only [step, SeedStore.setClientSeed, hc, SeedStore.setRow_ensureRow, put_bets_self]
    rfl

theorem step_rotateServerSeed_refused (h : History src) (u : UserId) :
    h.step (.rotateServerSeed u true) = h.step (.getOrCreateActivePair u) := rfl

theorem step_rotateServerSeed (h : History src) (u : UserId) :
    h.step (.rotateServerSeed u false) =
      some (h.put u ((h.row u).rotate (h.draws u))
        ⟨(h.draws u).server + 1, (h.draws u).client⟩ (h.bets u)) := by
  rw [put_bets_self]
  simp only [step, SeedStore.rotateServerSeed, Bool.false_eq_true, if_false,
    SeedStore.setRow_ensureRow]
  rfl

end History

/-! ## One row and the bets of its user -/

/-- The seeds of a row and of the bets derived so far: the next seed keys
no bet yet, and nonce 1 is the first one used under a client seed. -/
structure RowInv (src : SeedSource Seed Digest) (n : Nat) (row : ClientSeedRow src)
    (bets : List (SeedContext Seed Digest)) : Prop where
  server_drawn : src.Drawn n row.serverSeed
  next_drawn : src.Drawn n row.nextServerSeed
  next_ne : row.nextServerSeed ≠ row.serverSeed
  bet_drawn : ∀ b ∈ bets, src.Drawn n b.serverSeed
  bet_ne_next : ∀ b ∈ bets, b.serverSeed ≠ row.nextServerSeed
  first : ∀ b ∈ bets, b.serverSeed = row.serverSeed →
    (row.serverSeed, b.clientSeed, 1) ∈ bets.map SeedContext.triple
  started : row.nonce ≠ 0 →
    (row.serverSeed, row.clientSeed, 1) ∈ bets.map SeedContext.triple

namespace RowInv

variable {n m : Nat} {row : ClientSeedRow src} {bets : List (SeedContext Seed Digest)}

theorem mono (hi : RowInv src n row bets) (hnm : n ≤ m) : RowInv src m row bets :=
  { hi with
    server_drawn := hi.server_drawn.mono hnm
    next_drawn := hi.next_drawn.mono hnm
    bet_drawn := fun b hb => (hi.bet_drawn b hb).mono hnm }

theorem mint (src : SeedSource Seed Digest) (d : Draws) :
    RowInv src (d.server + 2) (ClientSeedRow.mint src d) [] where
  server_drawn := src.drawn_generate (by omega)
  next_drawn := src.drawn_generate (by omega)
  next_ne heq := by
    have := src.serverSeed_injective heq
    omega
  bet_drawn := by simp
  bet_ne_next := by simp
  first := by simp
  started h := absurd rfl h

theorem bumpNonce (hi : RowInv src n row bets) :
    RowInv src n row.bumpNonce (row.bumpNonce.context :: bets) where
  server_drawn := hi.server_drawn
  next_drawn := hi.next_drawn
  next_ne := hi.next_ne
  bet_drawn b hb := by
    rcases List.mem_cons.mp hb with rfl | hb
    · exact hi.server_drawn
    · exact hi.bet_drawn b hb
  bet_ne_next b hb := by
    rcases List.mem_cons.mp hb with rfl | hb
    · exact hi.next_ne.symm
    · exact hi.bet_ne_next b hb
  first b hb hserver := by
    rcases List.mem_cons.mp hb with rfl | hb
    · by_cases h0 : row.nonce = 0
      · simp [SeedContext.triple, ClientSeedRow.context, ClientSeedRow.bumpNonce, h0]
      · exact List.mem_cons_of_mem _ (hi.started h0)
    · exact List.mem_cons_of_mem _ (hi.first b hb hserver)
  started _ := by
    by_cases h0 : row.nonce = 0
    · simp [SeedContext.triple, ClientSeedRow.context, ClientSeedRow.bumpNonce, h0]
    · exact List.mem_cons_of_mem _ (hi.started h0)

theorem withClientSeed (hi : RowInv src n row bets) (trimmed : JsString) :
    RowInv src n (row.withClientSeed trimmed) bets :=
  ⟨hi.server_drawn, hi.next_drawn, hi.next_ne, hi.bet_drawn, hi.bet_ne_next, hi.first,
    fun h => absurd rfl h⟩

theorem rotate {d : Draws} (hi : RowInv src d.server row bets) :
    RowInv src (d.server + 1) (row.rotate d) bets where
  server_drawn := hi.next_drawn.mono (Nat.le_succ _)
  next_drawn := src.drawn_generate (Nat.lt_succ_self _)
  next_ne heq := by
    have hnext := hi.next_drawn
    rw [← show src.generateServerSeed d.server = row.nextServerSeed from heq] at hnext
    exact src.not_drawn_generate (Nat.le_refl _) hnext
  bet_drawn b hb := (hi.bet_drawn b hb).mono (Nat.le_succ _)
  bet_ne_next b hb heq := by
    have hbet := hi.bet_drawn b hb
    rw [show b.serverSeed = src.generateServerSeed d.server from heq] at hbet
    exact src.not_drawn_generate (Nat.le_refl _) hbet
  -- the promoted seed keys no bet yet
  first b hb heq := absurd heq (hi.bet_ne_next b hb)
  started h := absurd rfl h

end RowInv

/-- The uniqueness: no triple twice, and the row's nonce bounds those used
under its two seeds. -/
structure Counted (row : ClientSeedRow src) (bets : List (SeedContext Seed Digest)) : Prop where
  nodup : (bets.map SeedContext.triple).Nodup
  below : ∀ b ∈ bets, b.serverSeed = row.serverSeed → b.clientSeed = row.clientSeed →
    b.nonce ≤ row.nonce

namespace Counted

variable {n : Nat} {row : ClientSeedRow src} {bets : List (SeedContext Seed Digest)}

theorem nil (row : ClientSeedRow src) : Counted row [] := ⟨by simp, by simp⟩

theorem bumpNonce (hc : Counted row bets) :
    Counted row.bumpNonce (row.bumpNonce.context :: bets) where
  nodup := by
    rw [List.map_cons, List.nodup_cons]
    refine ⟨fun hmem => ?_, hc.nodup⟩
    obtain ⟨b, hb, hbt⟩ := List.mem_map.mp hmem
    obtain ⟨hs, hcl, _⟩ : b.serverSeed = row.serverSeed ∧ b.clientSeed = row.clientSeed ∧
        b.nonce = row.nonce + 1 := by
      simpa [SeedContext.triple, ClientSeedRow.context, ClientSeedRow.bumpNonce] using hbt
    have := hc.below b hb hs hcl
    omega
  below b hb hs hcl := by
    rcases List.mem_cons.mp hb with rfl | hb
    · exact Nat.le_refl _
    · exact Nat.le_succ_of_le (hc.below b hb hs hcl)

/-- Under a client seed the active server seed was not used with, the count
can start again. -/
theorem withClientSeed (hc : Counted row bets) {trimmed : JsString}
    (hnew : ∀ b ∈ bets, b.serverSeed = row.serverSeed → b.clientSeed ≠ trimmed) :
    Counted (row.withClientSeed trimmed) bets :=
  ⟨hc.nodup, fun b hb hs hcl => absurd hcl (hnew b hb hs)⟩

theorem rotate {d : Draws} (hc : Counted row bets) (hi : RowInv src n row bets) :
    Counted (row.rotate d) bets :=
  ⟨hc.nodup, fun b hb hs _ => absurd hs (hi.bet_ne_next b hb)⟩

end Counted

/-! ## The table -/

namespace History

/-- `RowInv` for every user; a user without a row has no bet. -/
structure Inv (h : History src) : Prop where
  no_row : ∀ u, h.store.rows u = none → h.bets u = []
  row : ∀ u row, h.store.rows u = some row → RowInv src h.store.draws.server row (h.bets u)

/-- `Counted` for every user. -/
def AllCounted (h : History src) : Prop :=
  ∀ u row, h.store.rows u = some row → Counted row (h.bets u)

theorem inv_init (src : SeedSource Seed Digest) : (init src).Inv :=
  ⟨fun _ _ => rfl, fun _ _ h => nomatch h⟩

theorem allCounted_init (src : SeedSource Seed Digest) : (init src).AllCounted :=
  fun _ _ h => nomatch h

variable {h h' : History src} {u : UserId}

theorem row_of_some {row : ClientSeedRow src} (hr : h.store.rows u = some row) :
    h.row u = row := by
  simp [History.row, SeedStore.ensureRow, hr]

theorem draws_of_some {row : ClientSeedRow src} (hr : h.store.rows u = some row) :
    h.draws u = h.store.draws := by
  simp [draws, SeedStore.ensureRow, hr]

theorem draws_le (h : History src) (u : UserId) : h.store.draws.server ≤ (h.draws u).server := by
  cases hr : h.store.rows u <;> simp [draws, SeedStore.ensureRow, hr]

theorem Inv.put (hi : h.Inv) {row : ClientSeedRow src} {d : Draws}
    {bs : List (SeedContext Seed Digest)} (hd : h.store.draws.server ≤ d.server)
    (hrow : RowInv src d.server row bs) : (h.put u row d bs).Inv where
  no_row v hv := by
    by_cases huv : v = u
    · subst huv
      simp [History.put] at hv
    · simpa [History.put, huv] using hi.no_row v (by simpa [History.put, huv] using hv)
  row v r hr := by
    by_cases huv : v = u
    · subst huv
      obtain rfl : row = r := by simpa [History.put] using hr
      simpa [History.put] using hrow
    · have := hi.row v r (by simpa [History.put, huv] using hr)
      simpa [History.put, huv] using this.mono hd

theorem AllCounted.put (hc : h.AllCounted) {row : ClientSeedRow src} {d : Draws}
    {bs : List (SeedContext Seed Digest)} (hrow : Counted row bs) :
    (h.put u row d bs).AllCounted := by
  intro v r hr
  by_cases huv : v = u
  · subst huv
    obtain rfl : row = r := by simpa [History.put] using hr
    simpa [History.put] using hrow
  · have := hc v r (by simpa [History.put, huv] using hr)
    simpa [History.put, huv] using this

/-- The ensured row satisfies the row invariant. -/
theorem Inv.ensured (hi : h.Inv) (u : UserId) :
    RowInv src (h.draws u).server (h.row u) (h.bets u) := by
  cases hr : h.store.rows u with
  | none =>
    rw [hi.no_row u hr]
    simpa [draws, History.row, SeedStore.ensureRow, hr] using RowInv.mint src h.store.draws
  | some row =>
    rw [row_of_some hr, draws_of_some hr]
    exact hi.row u row hr

theorem AllCounted.ensured (hc : h.AllCounted) (hi : h.Inv) (u : UserId) :
    Counted (h.row u) (h.bets u) := by
  cases hr : h.store.rows u with
  | none =>
    rw [hi.no_row u hr]
    exact Counted.nil _
  | some row =>
    rw [row_of_some hr]
    exact hc u row hr

/-- Every operation keeps the seeds apart. -/
theorem Inv.step (hi : h.Inv) {op : SeedOp} (hs : h.step op = some h') : h'.Inv := by
  have hensured := hi.ensured
  cases op with
  | getOrCreateActivePair u =>
    rw [step_getOrCreateActivePair] at hs
    cases hs
    exact hi.put (h.draws_le u) (hensured u)
  | consumeNonce u =>
    rw [step_consumeNonce] at hs
    cases hs
    exact hi.put (h.draws_le u) (hensured u).bumpNonce
  | reserveSeedContext u =>
    rw [step_reserveSeedContext, step_consumeNonce] at hs
    cases hs
    exact hi.put (h.draws_le u) (hensured u).bumpNonce
  | setClientSeed u c =>
    rw [step_setClientSeed] at hs
    cases hc : SeedStore.acceptedClientSeed c with
    | none =>
      simp only [hc, Option.some.injEq] at hs
      exact hs ▸ hi
    | some trimmed =>
      simp only [hc, Option.some.injEq] at hs
      exact hs ▸ hi.put (h.draws_le u) ((hensured u).withClientSeed trimmed)
  | rotateServerSeed u active =>
    cases active with
    | true =>
      rw [step_rotateServerSeed_refused, step_getOrCreateActivePair] at hs
      cases hs
      exact hi.put (h.draws_le u) (hensured u)
    | false =>
      rw [step_rotateServerSeed] at hs
      cases hs
      exact hi.put (Nat.le_succ_of_le (h.draws_le u)) (hensured u).rotate

/-- An operation that restores no client seed keeps the triples apart. -/
theorem AllCounted.step (hc : h.AllCounted) (hi : h.Inv) {op : SeedOp} (hok : h.NoRestore op)
    (hs : h.step op = some h') : h'.AllCounted := by
  have hensured := hc.ensured hi
  cases op with
  | getOrCreateActivePair u =>
    rw [step_getOrCreateActivePair] at hs
    cases hs
    exact hc.put (hensured u)
  | consumeNonce u =>
    rw [step_consumeNonce] at hs
    cases hs
    exact hc.put (hensured u).bumpNonce
  | reserveSeedContext u =>
    rw [step_reserveSeedContext, step_consumeNonce] at hs
    cases hs
    exact hc.put (hensured u).bumpNonce
  | setClientSeed u c =>
    rw [step_setClientSeed] at hs
    cases hacc : SeedStore.acceptedClientSeed c with
    | none =>
      simp only [hacc, Option.some.injEq] at hs
      exact hs ▸ hc
    | some =>
      simp only [hacc, Option.some.injEq] at hs
      refine hs ▸ hc.put ((hensured u).withClientSeed fun b hb hserver hcl => ?_)
      cases hr : h.store.rows u with
      | none => simp [hi.no_row u hr] at hb
      | some row =>
        rw [row_of_some hr] at hserver
        exact hok row hr b hb hserver (hcl ▸ hacc)
  | rotateServerSeed u active =>
    cases active with
    | true =>
      rw [step_rotateServerSeed_refused, step_getOrCreateActivePair] at hs
      cases hs
      exact hc.put (hensured u)
    | false =>
      rw [step_rotateServerSeed] at hs
      cases hs
      exact hc.put ((hensured u).rotate (hi.ensured u))

/-! ## Whole runs -/

theorem inv_run {ops : List SeedOp} (hrun : Lib.run step (init src) ops = some h) : h.Inv :=
  Lib.run_invariant (P := Inv) (fun _ _ _ hi hs => hi.step hs) (inv_init src) hrun

theorem allCounted_along {ops : List SeedOp} (hok : Lib.Along step NoRestore (init src) ops)
    (hrun : Lib.run step (init src) ops = some h) : h.AllCounted := by
  have hstep : ∀ (h : History src) op h', NoRestore h op → h.Inv ∧ h.AllCounted →
      h.step op = some h' → h'.Inv ∧ h'.AllCounted :=
    fun _ _ _ hok ⟨hi, hc⟩ hs => ⟨hi.step hs, hc.step hi hok hs⟩
  exact (Lib.run_induct hstep ⟨inv_init src, allCounted_init src⟩ hok hrun).2

/-- Setting such a client seed and betting once repeats a triple. -/
theorem restore_repeats (hi : h.Inv) {c : JsString}
    (hbad : ¬ h.NoRestore (.setClientSeed u c)) :
    ∃ h', Lib.run step h [.setClientSeed u c, .consumeNonce u] = some h' ∧
      ¬ ((h'.bets u).map SeedContext.triple).Nodup := by
  simp only [NoRestore, not_forall, ne_eq, not_not] at hbad
  obtain ⟨row, hr, b, hb, hserver, hacc⟩ := hbad
  have hfirst := (hi.row u row hr).first b hb hserver
  -- the first bet under the restored seed is the first one once more
  have hrun : Lib.run step h [.setClientSeed u c, .consumeNonce u] =
      some ((h.put u (row.withClientSeed b.clientSeed) (h.draws u) (h.bets u)).put u
        (row.withClientSeed b.clientSeed).bumpNonce (h.draws u)
        ((row.withClientSeed b.clientSeed).bumpNonce.context :: h.bets u)) := by
    have hput : ∀ row', (h.put u row' (h.draws u) (h.bets u)).store.rows u = some row' := by
      simp [put]
    simp only [Lib.run, step_setClientSeed, hacc, step_consumeNonce, row_of_some hr,
      row_of_some (hput _), draws_of_some (hput _)]
    simp [put]
  refine ⟨_, hrun, fun hnodup => ?_⟩
  simp only [put, Function.update_self, List.map_cons, List.nodup_cons] at hnodup
  exact hnodup.1 hfirst

/-- No two bets share a (server seed, client seed, nonce) triple in a run
that restores no used client seed, and the condition cannot be weakened:
in any reachable state, restoring one and betting once repeats a triple. -/
theorem triple_unique {ops : List SeedOp} (hrun : Lib.run step (init src) ops = some h) :
    (Lib.Along step NoRestore (init src) ops →
      ∀ u, ((h.bets u).map SeedContext.triple).Nodup) ∧
    ∀ u c, ¬ h.NoRestore (.setClientSeed u c) →
      ∃ h', Lib.run step h [.setClientSeed u c, .consumeNonce u] = some h' ∧
        ¬ ((h'.bets u).map SeedContext.triple).Nodup := by
  have hi := inv_run hrun
  refine ⟨fun hok u => ?_, fun u c hbad => restore_repeats hi hbad⟩
  exact ((allCounted_along hok hrun).ensured hi u).nodup

/-- Seeds 0, 1, 2, … for runs on fixed inputs. -/
def countingSource : SeedSource Nat Nat where
  generateServerSeed n := n
  generateClientSeed _ := ['a']
  commitServerSeed s := s
  serverSeed_injective _ _ h := h

/-- Bet under "lucky", set " lucky " again, bet: both bets are derived from
the triple (0, "lucky", 1). -/
theorem triple_repeats_after_restore :
    ¬ ∀ (ops : List SeedOp) (h : History countingSource),
      Lib.run step (init countingSource) ops = some h →
        ∀ u, ((h.bets u).map SeedContext.triple).Nodup := by
  intro hall
  have hrun := hall [.setClientSeed 0 "lucky".toList, .consumeNonce 0,
    .setClientSeed 0 " lucky ".toList, .consumeNonce 0] _ rfl 0
  revert hrun
  decide

/-- A bet, a new client seed, a bet, a rotation and the first client seed
again. -/
theorem triple_unique_rotation :
    ∃ h, Lib.run step (init countingSource) [.consumeNonce 0, .setClientSeed 0 "lucky".toList,
        .consumeNonce 0, .rotateServerSeed 0 false, .setClientSeed 0 "a".toList,
        .consumeNonce 0] = some h ∧ ((h.bets 0).map SeedContext.triple).Nodup := by
  have hrun : Lib.run step (init countingSource) [.consumeNonce 0,
      .setClientSeed 0 "lucky".toList, .consumeNonce 0, .rotateServerSeed 0 false,
      .setClientSeed 0 "a".toList, .consumeNonce 0] = some _ := rfl
  refine ⟨_, hrun, (triple_unique hrun).1 ?_ 0⟩
  refine ⟨trivial, fun _ hs => ?_⟩
  cases hs
  refine ⟨fun row hr => ?_, fun _ hs => ?_⟩
  · cases hr
    decide
  cases hs
  refine ⟨trivial, fun _ hs => ?_⟩
  cases hs
  refine ⟨trivial, fun _ hs => ?_⟩
  cases hs
  refine ⟨fun row hr => ?_, fun _ _ => ⟨trivial, fun _ _ => trivial⟩⟩
  cases hr
  decide

end History

end Scadium.Fairness
