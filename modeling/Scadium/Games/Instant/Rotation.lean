/-
Scadium.Games.Instant.Rotation — a rotation against the rounds in progress.

`rotateServerSeed` looks for active rounds and reveals in one serializable
transaction, so a round that is there keeps its seed. A round that is not
there yet is not seen: a start that has reserved its seed can lose it to a
rotation and open its round all the same. The layouts in progress stay secret
in a run exactly if no start does so.

`Holds` is the seeds in the store, by user and slot; no two slots ever hold
the same seed, and none holds one that was returned.
-/
import Scadium.Fairness.SeedHistory
import Scadium.Games.Instant.StatefulRound

namespace Scadium.Games.Instant

open Scadium.Fair Scadium.Fairness Scadium.Lib
open Scadium.Prisma (UserId RoundId Bytes32)

variable {Seed Digest J : Type} {src : SeedSource Seed Digest}

/-- The round's field is built from a seed that is not out. -/
def State.LayoutsSecret (s : State src J) : Prop :=
  ∀ r ∈ s.rounds, r.status = .active → r.serverSeed ∉ s.returned

/-- A start that opens its round with a reserved seed does so while that is
still its user's active one. -/
def InTime (s : State src J) : Event Seed Digest J → Prop
  | .startTx i id true => ∀ call ctx onchainEntropy, s.starts[i]? = some call →
      call.stage = .ready (some ctx) onchainEntropy →
      s.inProgress call.userId call.gameType = false → s.rounds.any (·.id == id) = false →
      ∃ row, s.store.rows call.userId = some row ∧ row.serverSeed = ctx.serverSeed
  | _ => True

/-! ## The seeds in the store -/

inductive Slot where
  | active | next
  deriving DecidableEq

def seedAt (row : ClientSeedRow src) : Slot → Seed
  | .active => row.serverSeed
  | .next => row.nextServerSeed

def Holds (store : SeedStore src) (u : UserId) (k : Slot) (x : Seed) : Prop :=
  ∃ row, store.rows u = some row ∧ seedAt row k = x

/-- No two slots hold the same seed, and none holds a returned one. -/
structure Sound (store : SeedStore src) (returned : List Seed) : Prop where
  drawn : ∀ u k x, Holds store u k x → src.Drawn store.draws.server x
  apart : ∀ u v k l x, Holds store u k x → Holds store v l x → u = v ∧ k = l
  secret : ∀ u k x, Holds store u k x → x ∉ returned
  returned_drawn : ∀ x ∈ returned, src.Drawn store.draws.server x

/-- The seeds of a row that may be written for a user: they are drawn, and no
one else's. -/
structure Writable (store : SeedStore src) (returned : List Seed) (u : UserId)
    (row : ClientSeedRow src) (d : Draws) : Prop where
  later : store.draws.server ≤ d.server
  drawn : ∀ k, src.Drawn d.server (seedAt row k)
  ne : row.serverSeed ≠ row.nextServerSeed
  others : ∀ v k l x, v ≠ u → Holds store v k x → x ≠ seedAt row l
  secret : ∀ k, seedAt row k ∉ returned

section Store

variable {store : SeedStore src} {returned : List Seed} {u v : UserId} {row : ClientSeedRow src}
variable {d : Draws} {k l : Slot} {x : Seed}

theorem holds_put : Holds ⟨Function.update store.rows u (some row), d⟩ v k x ↔
    (v = u ∧ seedAt row k = x) ∨ (v ≠ u ∧ Holds store v k x) := by
  by_cases hvu : v = u
  · subst hvu
    simp [Holds]
  · simp [Holds, hvu]

theorem Writable.apart (h : Writable store returned u row d) (hkl : seedAt row k = seedAt row l) :
    k = l := by
  cases k with
  | active =>
    cases l with
    | active => rfl
    | next => exact absurd hkl h.ne
  | next =>
    cases l with
    | active => exact absurd hkl.symm h.ne
    | next => rfl

/-- A write of such a row, and what a rotation returns along with it. -/
theorem Sound.put {returned' : List Seed} (h : Sound store returned)
    (hrow : Writable store returned' u row d)
    (hsecret : ∀ v k x, v ≠ u → Holds store v k x → x ∉ returned')
    (hdrawn : ∀ x ∈ returned', src.Drawn d.server x) :
    Sound ⟨Function.update store.rows u (some row), d⟩ returned' where
  drawn v k x hx := by
    rcases holds_put.mp hx with ⟨-, rfl⟩ | ⟨-, hx⟩
    · exact hrow.drawn k
    · exact (h.drawn v k x hx).mono hrow.later
  apart v w k l x hx hy := by
    rcases holds_put.mp hx with ⟨hv, hk⟩ | ⟨hv, hheld⟩
    · rcases holds_put.mp hy with ⟨hw, hl⟩ | ⟨hw, hheld⟩
      · exact ⟨hv.trans hw.symm, hrow.apart (hk.trans hl.symm)⟩
      · exact absurd hk.symm (hrow.others w l k x hw hheld)
    · rcases holds_put.mp hy with ⟨hw, hl⟩ | ⟨_, hheld'⟩
      · exact absurd hl.symm (hrow.others v k l x hv hheld)
      · exact h.apart v w k l x hheld hheld'
  secret v k x hx := by
    rcases holds_put.mp hx with ⟨rfl, rfl⟩ | ⟨hv, hx⟩
    · exact hrow.secret k
    · exact hsecret v k x hv hx
  returned_drawn := hdrawn

/-- The user's row, created if it has to be. -/
theorem Sound.ensured (h : Sound store returned) (u : UserId) :
    Writable store returned u (store.ensureRow u).1 (store.ensureRow u).2.draws := by
  cases hrow : store.rows u with
  | some row =>
    have hholds : ∀ k, Holds store u k (seedAt row k) := fun k => ⟨row, hrow, rfl⟩
    simp only [SeedStore.ensureRow, hrow]
    refine ⟨le_rfl, fun k => h.drawn u k _ (hholds k), ?_, ?_, fun k => h.secret u k _ (hholds k)⟩
    · intro heq
      have happart := h.apart u u .active .next row.serverSeed (hholds .active) ⟨row, hrow, heq.symm⟩
      cases happart.2
    · intro v k l x hv hx heq
      exact hv (h.apart v u k l x hx ⟨row, hrow, heq.symm⟩).1
  | none =>
    simp only [SeedStore.ensureRow, hrow]
    have hnew : ∀ l, ∃ i, store.draws.server ≤ i ∧ i < store.draws.server + 2 ∧
        seedAt (ClientSeedRow.mint src store.draws) l = src.generateServerSeed i := by
      intro l
      cases l with
      | active => exact ⟨store.draws.server, le_rfl, by omega, rfl⟩
      | next => exact ⟨store.draws.server + 1, by omega, by omega, rfl⟩
    refine ⟨Nat.le_add_right _ _, ?_, ?_, ?_, ?_⟩
    · intro k
      obtain ⟨i, -, hi, heq⟩ := hnew k
      rw [heq]
      exact src.drawn_generate hi
    · intro heq
      have hi := src.serverSeed_injective heq
      omega
    · intro v k l x _ hx heq
      obtain ⟨i, hi, -, hseed⟩ := hnew l
      rw [hseed] at heq
      exact src.not_drawn_generate hi (heq ▸ h.drawn v k x hx)
    · intro k hmem
      obtain ⟨i, hi, -, hseed⟩ := hnew k
      rw [hseed] at hmem
      exact src.not_drawn_generate hi (h.returned_drawn _ hmem)

/-- A row with the seeds of the user's. -/
theorem Sound.keep (h : Sound store returned) (u : UserId)
    (hrow : ∀ k, seedAt row k = seedAt (store.ensureRow u).1 k) :
    Sound ⟨Function.update store.rows u (some row), (store.ensureRow u).2.draws⟩ returned := by
  have hensured := h.ensured u
  refine h.put ⟨hensured.later, ?_, ?_, ?_, ?_⟩ (fun v k x _ hx => h.secret v k x hx) ?_
  · intro k
    rw [hrow]
    exact hensured.drawn k
  · have hactive := hrow .active
    have hnext := hrow .next
    simp only [seedAt] at hactive hnext
    rw [hactive, hnext]
    exact hensured.ne
  · intro v k l x hv hx
    rw [hrow]
    exact hensured.others v k l x hv hx
  · intro k
    rw [hrow]
    exact hensured.secret k
  · intro x hx
    exact (h.returned_drawn x hx).mono hensured.later

/-- The rotation of the user's row. -/
theorem Sound.rotate (h : Sound store returned) (u : UserId) :
    Sound ⟨Function.update store.rows u
        (some ((store.ensureRow u).1.rotate (store.ensureRow u).2.draws)),
      ⟨(store.ensureRow u).2.draws.server + 1, (store.ensureRow u).2.draws.client⟩⟩
      ((store.ensureRow u).1.serverSeed :: returned) := by
  have hensured := h.ensured u
  generalize (store.ensureRow u).1 = row at *
  generalize (store.ensureRow u).2.draws = d at *
  have hnew : ∀ {x}, src.Drawn d.server x → x ≠ src.generateServerSeed d.server := by
    rintro x hx rfl
    exact src.not_drawn_generate le_rfl hx
  refine h.put ⟨Nat.le_succ_of_le hensured.later, ?_, ?_, ?_, ?_⟩ ?_ ?_
  · intro k
    cases k with
    | active => exact (hensured.drawn .next).mono (Nat.le_succ _)
    | next => exact src.drawn_generate (Nat.lt_succ_self _)
  · exact hnew (hensured.drawn .next)
  · intro v k l x hv hx
    cases l with
    | active => exact hensured.others v k .next x hv hx
    | next => exact hnew ((h.drawn v k x hx).mono hensured.later)
  · intro k hmem
    rcases List.mem_cons.mp hmem with heq | hmem
    · cases k with
      | active => exact hensured.ne heq.symm
      | next => exact hnew (hensured.drawn .active) heq.symm
    · cases k with
      | active => exact hensured.secret .next hmem
      | next => exact hnew ((h.returned_drawn _ hmem).mono hensured.later) rfl
  · intro v k x hv hx hmem
    rcases List.mem_cons.mp hmem with heq | hmem
    · exact hensured.others v k .active x hv hx heq
    · exact h.secret v k x hx hmem
  · intro x hx
    rcases List.mem_cons.mp hx with rfl | hx
    · exact (hensured.drawn .active).mono (Nat.le_succ _)
    · exact (h.returned_drawn x hx).mono (Nat.le_succ_of_le hensured.later)

end Store

/-! ## The calls in flight and the rounds -/

/-- The seed a start has reserved. -/
def StartStage.context : StartStage Seed Digest → Option (SeedContext Seed Digest)
  | .reserved ctx => some ctx
  | .ready held _ => held
  | .gated | .done => none

/-- An active round's seed is its user's active one; a reserved one still is,
or it was returned. -/
structure Inv (s : State src J) : Prop where
  sound : Sound s.store s.returned
  active : ∀ r ∈ s.rounds, r.status = .active → Holds s.store r.userId .active r.serverSeed
  reserved : ∀ call ∈ s.starts, ∀ ctx, call.stage.context = some ctx →
    Holds s.store call.userId .active ctx.serverSeed ∨ ctx.serverSeed ∈ s.returned

section Rules

variable {s s' : State src J} {u v : UserId} {row : ClientSeedRow src} {x : Seed} {k : Slot}
variable {i : Nat} {call : StartCall Seed Digest J} {stage : StartStage Seed Digest}

theorem Inv.init (src : SeedSource Seed Digest) : Inv (.init src J) where
  sound :=
    { drawn := fun _ _ _ ⟨_, hrow, _⟩ => by cases hrow
      apart := fun _ _ _ _ _ ⟨_, hrow, _⟩ => by cases hrow
      secret := fun _ _ _ _ => List.not_mem_nil
      returned_drawn := fun _ hx => absurd hx List.not_mem_nil }
  active _ hr := absurd hr List.not_mem_nil
  reserved _ hcall := absurd hcall List.not_mem_nil

/-- The layouts in progress are keyed by seeds that no one has seen. -/
theorem Inv.layoutsSecret (h : Inv s) : s.LayoutsSecret := by
  intro r hr hactive
  exact h.sound.secret _ _ _ (h.active r hr hactive)

theorem holds_keep {store : SeedStore src} (hrow : ∀ k, seedAt row k = seedAt (store.ensureRow u).1 k)
    (h : Holds store v k x) :
    Holds ⟨Function.update store.rows u (some row), (store.ensureRow u).2.draws⟩ v k x := by
  by_cases hvu : v = u
  · subst hvu
    obtain ⟨_, hold, rfl⟩ := h
    refine holds_put.mpr (.inl ⟨rfl, ?_⟩)
    rw [hrow, SeedStore.ensureRow, hold]
  · exact holds_put.mpr (.inr ⟨hvu, h⟩)

theorem holds_written {store : SeedStore src} {d : Draws} :
    Holds ⟨Function.update store.rows u (some row), d⟩ u k (seedAt row k) :=
  holds_put.mpr (.inl ⟨rfl, rfl⟩)

/-- A write that leaves the user's seeds. -/
theorem Inv.keep (h : Inv s) (u : UserId)
    (hrow : ∀ k, seedAt row k = seedAt (s.store.ensureRow u).1 k) :
    Inv { s with store :=
      ⟨Function.update s.store.rows u (some row), (s.store.ensureRow u).2.draws⟩ } where
  sound := h.sound.keep u hrow
  active r hr hactive := holds_keep hrow (h.active r hr hactive)
  reserved call hcall ctx hctx := (h.reserved call hcall ctx hctx).imp_left (holds_keep hrow)

theorem Inv.ensured (h : Inv s) (u : UserId) : Inv { s with store := (s.store.ensureRow u).2 } := by
  rw [SeedStore.ensureRow_snd]
  exact h.keep u fun _ => rfl

/-- The nonce of the user's row is drawn; the context has its active seed. -/
theorem Inv.consumed (h : Inv s) (u : UserId) :
    Inv { s with store := (s.store.consumeNonce u).2 } ∧
      Holds (s.store.consumeNonce u).2 u .active (s.store.consumeNonce u).1.serverSeed := by
  have hsame : ∀ k, seedAt (s.store.ensureRow u).1.bumpNonce k = seedAt (s.store.ensureRow u).1 k := by
    intro k
    cases k with
    | active => rfl
    | next => rfl
  simp only [SeedStore.consumeNonce, SeedStore.setRow_ensureRow]
  exact ⟨h.keep u hsame, holds_written (k := .active)⟩

theorem Inv.setStage (h : Inv s)
    (hctx : ∀ ctx, stage.context = some ctx →
      Holds s.store call.userId .active ctx.serverSeed ∨ ctx.serverSeed ∈ s.returned) :
    Inv (s.setStage i call stage) where
  sound := h.sound
  active := h.active
  reserved c hc ctx hstage := by
    rcases List.mem_or_eq_of_mem_set hc with hc | rfl
    · exact h.reserved c hc ctx hstage
    · exact hctx ctx hstage

/-- A call that holds on to what it has reserved, or to nothing. -/
theorem Inv.passOn (h : Inv s) (hi : s.starts[i]? = some call)
    (hctx : stage.context = none ∨ stage.context = call.stage.context) :
    Inv (s.setStage i call stage) := by
  refine h.setStage fun ctx hstage => ?_
  rcases hctx with hnone | hsame
  · rw [hnone] at hstage
    cases hstage
  · exact h.reserved call (List.mem_of_getElem? hi) ctx (hsame.symm.trans hstage)

/-- A round is opened from a seed its user still holds. -/
theorem Inv.opened (h : Inv s) {r : InstantRound Seed Digest J}
    (hr : Holds s.store r.userId .active r.serverSeed) : Inv { s with rounds := s.rounds ++ [r] } where
  sound := h.sound
  active r' hr' hactive := by
    rcases List.mem_append.mp hr' with hr' | hr'
    · exact h.active r' hr' hactive
    · cases List.mem_singleton.mp hr'
      exact hr
  reserved := h.reserved

/-- The rotation: its user has no round in progress. -/
theorem Inv.rotated (h : Inv s) (hidle : s.activeRound u = false) :
    Inv { s with
      store := ⟨Function.update s.store.rows u
          (some ((s.store.ensureRow u).1.rotate (s.store.ensureRow u).2.draws)),
        ⟨(s.store.ensureRow u).2.draws.server + 1, (s.store.ensureRow u).2.draws.client⟩⟩
      returned := (s.store.ensureRow u).1.serverSeed :: s.returned } where
  sound := h.sound.rotate u
  active r hr hactive := by
    have hother : r.userId ≠ u := by
      rintro rfl
      have hnone := List.any_eq_false.mp hidle r hr
      simp [hactive] at hnone
    exact holds_put.mpr (.inr ⟨hother, h.active r hr hactive⟩)
  reserved call hcall ctx hctx := by
    rcases h.reserved call hcall ctx hctx with hheld | hreturned
    · by_cases hu : call.userId = u
      · -- the seed that is reserved is the one that is returned
        subst hu
        obtain ⟨_, hrow, hseed⟩ := hheld
        refine .inr (List.mem_cons.mpr (.inl ?_))
        rw [← hseed, SeedStore.ensureRow, hrow]
        rfl
      · exact .inl (holds_put.mpr (.inr ⟨hu, hheld⟩))
    · exact .inr (List.mem_cons_of_mem _ hreturned)

theorem advance_frame (code : GameCode Seed J) (r : InstantRound Seed Digest J)
    (result : StepResult J) : (r.advance code result).userId = r.userId ∧
      (r.advance code result).serverSeed = r.serverSeed ∧
      ((r.advance code result).status = .active → r.status = .active) := by
  cases result with
  | goesOn => exact ⟨rfl, rfl, id⟩
  | settle =>
    refine ⟨rfl, rfl, ?_⟩
    intro hactive
    simp only [InstantRound.advance] at hactive
    split at hactive
    · cases hactive
    · cases hactive

theorem Inv.advanced (h : Inv s) (code : GameCode Seed J) (roundId : RoundId)
    (apply : RoundState J → RoundFairness Digest → StepResult J) :
    Inv { s with rounds := s.rounds.map fun r =>
      if r.id = roundId then r.advance code (apply r.stateJson r.fairness) else r } where
  sound := h.sound
  active r hr hactive := by
    obtain ⟨old, hold, rfl⟩ := List.mem_map.mp hr
    split at hactive
    · rename_i hid
      obtain ⟨huser, hseed, hstatus⟩ := advance_frame code old (apply old.stateJson old.fairness)
      rw [if_pos hid, huser, hseed]
      exact h.active old hold (hstatus hactive)
    · rename_i hid
      rw [if_neg hid]
      exact h.active old hold hactive
  reserved := h.reserved

end Rules

/-! ## Steps and runs -/

section Steps

variable {code : GameCode Seed J} {s s' : State src J} {call : StartCall Seed Digest J}
variable {reserved : Option (SeedContext Seed Digest)} {onchainEntropy : Option Bytes32}
variable {id : RoundId} {funded : Bool} {i : Nat}

/-- What a start that commits does. -/
theorem startTx_cases (h : startTx code s call reserved onchainEntropy id funded = .ok s') :
    s.inProgress call.userId call.gameType = false ∧ funded = true ∧
      ((∃ ctx, reserved = some ctx ∧
        s' = { s with rounds := s.rounds ++ [openedRound code call ctx onchainEntropy id] }) ∨
      (reserved = none ∧ s' = { s with
        store := (s.store.consumeNonce call.userId).2
        rounds := s.rounds ++
          [openedRound code call (s.store.consumeNonce call.userId).1 onchainEntropy id] })) := by
  unfold startTx at h
  split at h
  · cases h
  · rename_i hfree
    split at h
    · cases h
    · rename_i hfunded
      refine ⟨by simpa using hfree, by simpa using hfunded, ?_⟩
      split at h
      · rename_i ctx
        cases h
        exact .inl ⟨ctx, rfl, rfl⟩
      · cases h
        exact .inr ⟨rfl, rfl⟩

/-- A step of a run in which every start is in time. -/
theorem Inv.step {e : Event Seed Digest J} (h : Inv s) (hok : InTime s e)
    (hstep : step code s e = some s') : Inv s' := by
  cases e with
  | start =>
    simp only [Instant.step] at hstep
    split at hstep
    · cases hstep
    · cases hstep
      refine ⟨h.sound, h.active, ?_⟩
      intro call hcall ctx hctx
      rcases List.mem_append.mp hcall with hcall | hcall
      · exact h.reserved call hcall ctx hctx
      · cases List.mem_singleton.mp hcall
        cases hctx
  | reserve =>
    simp only [Instant.step] at hstep
    split at hstep
    · rename_i call hi
      split at hstep
      · cases hstep
        obtain ⟨hinv, hheld⟩ := h.consumed call.userId
        refine hinv.setStage fun ctx hctx => ?_
        cases hctx
        exact .inl hheld
      · cases hstep
    · cases hstep
  | offchain =>
    simp only [Instant.step] at hstep
    split at hstep
    · rename_i call hi
      split at hstep
      · cases hstep
        exact h.passOn hi (.inl rfl)
      · cases hstep
    · cases hstep
  | entropy =>
    simp only [Instant.step] at hstep
    split at hstep
    · rename_i call hi
      split at hstep
      · rename_i ctx hstage
        cases hstep
        refine h.passOn hi (.inr ?_)
        rw [hstage]
        rfl
      · cases hstep
    · cases hstep
  | startTx i id =>
    simp only [Instant.step] at hstep
    split at hstep
    · rename_i call hi
      split at hstep
      · rename_i reserved onchainEntropy hstage
        split at hstep
        · cases hstep
        · rename_i hnew
          split at hstep
          · rename_i s₁ hstart
            cases hstep
            obtain ⟨hfree, rfl, hopened⟩ := startTx_cases hstart
            rcases hopened with ⟨ctx, rfl, rfl⟩ | ⟨rfl, rfl⟩
            · have hheld : Holds s.store call.userId .active ctx.serverSeed :=
                hok call ctx onchainEntropy hi hstage hfree (by simpa using hnew)
              have hinv := h.opened (r := openedRound code call ctx onchainEntropy id) hheld
              exact hinv.passOn hi (.inl rfl)
            · obtain ⟨hinv, hheld⟩ := h.consumed call.userId
              have hinv' := hinv.opened (r := openedRound code call
                (s.store.consumeNonce call.userId).1 onchainEntropy id) hheld
              exact hinv'.passOn hi (.inl rfl)
          · cases hstep
            exact h.passOn hi (.inl rfl)
      · cases hstep
    · cases hstep
  | fail =>
    simp only [Instant.step] at hstep
    split at hstep
    · rename_i call hi
      cases hstep
      exact h.passOn hi (.inl rfl)
    · cases hstep
  | advance userId roundId gameType apply =>
    simp only [Instant.step, advance] at hstep
    split at hstep
    · rename_i s₁ hadvance
      cases hstep
      split at hadvance
      · cases hadvance
      · split at hadvance
        · cases hadvance
        · split at hadvance
          · cases hadvance
          · cases hadvance
            exact h.advanced code roundId apply
    · cases hstep
      exact h
  | getOrCreateActivePair userId =>
    cases hstep
    exact h.ensured userId
  | consumeNonce userId =>
    cases hstep
    exact (h.consumed userId).1
  | setClientSeed userId =>
    simp only [Instant.step, SeedStore.setClientSeed] at hstep
    split at hstep
    · cases hstep
      exact h
    · rename_i trimmed _
      cases hstep
      simp only [SeedStore.setRow_ensureRow]
      refine h.keep userId fun k => ?_
      cases k with
      | active => rfl
      | next => rfl
  | rotateServerSeed userId =>
    simp only [Instant.step, SeedStore.rotateServerSeed] at hstep
    cases hactive : s.activeRound userId with
    | true =>
      simp only [hactive, if_true] at hstep
      cases hstep
      exact h.ensured userId
    | false =>
      simp only [hactive, Bool.false_eq_true, if_false, SeedStore.setRow_ensureRow] at hstep
      cases hstep
      exact h.rotated hactive

/-- Where the layouts stay secret, the start was in time. -/
theorem Inv.inTime {e : Event Seed Digest J} (h : Inv s)
    (hsecret : ∀ s', Instant.step code s e = some s' → s'.LayoutsSecret) : InTime s e := by
  cases e with
  | startTx i id funded =>
    cases funded with
    | false => trivial
    | true =>
      intro call ctx onchainEntropy hi hstage hfree hnew
      have hreserved := h.reserved call (List.mem_of_getElem? hi) ctx (by rw [hstage]; rfl)
      rcases hreserved with hheld | hreturned
      · exact hheld
      · -- the round would be opened from a seed that is out
        have hstep : Instant.step code s (.startTx i id true) =
            some (({ s with rounds := s.rounds ++ [openedRound code call ctx onchainEntropy id] } :
              State src J).setStage i call .done) := by
          simp [Instant.step, hi, hstage, hnew, startTx, hfree]
        exact absurd hreturned (hsecret _ hstep _
          (List.mem_append_right _ (List.mem_singleton_self _)) rfl)
  | _ => trivial

theorem Inv.along_iff {es : List (Event Seed Digest J)} : ∀ {s : State src J}, Inv s →
    (Along (Instant.step code) InTime s es ↔
      Along (Instant.step code) (fun s e => ∀ s', Instant.step code s e = some s' → s'.LayoutsSecret)
        s es) := by
  induction es with
  | nil => exact fun _ => Iff.rfl
  | cons e es ih =>
    intro s h
    constructor
    · intro halong
      refine ⟨fun s' hs' => (h.step halong.1 hs').layoutsSecret, ?_⟩
      intro s' hs'
      exact (ih (h.step halong.1 hs')).mp (halong.2 s' hs')
    · intro halong
      have hok : InTime s e := h.inTime halong.1
      refine ⟨hok, ?_⟩
      intro s' hs'
      exact (ih (h.step hok hs')).mpr (halong.2 s' hs')

end Steps

/-- No layout in progress is ever keyed by a returned seed, exactly if every
start that reserved its seed opens its round before a rotation takes it. -/
theorem layouts_secret_iff (code : GameCode Seed J) (src : SeedSource Seed Digest)
    (es : List (Event Seed Digest J)) :
    Along (step code) InTime (State.init src J) es ↔
      Along (step code) (fun s e => ∀ s', step code s e = some s' → s'.LayoutsSecret)
        (State.init src J) es :=
  (Inv.init src).along_iff

/-- Seeds in the order they are drawn. -/
private def counted : SeedSource Nat Nat where
  generateServerSeed := id
  generateClientSeed _ := []
  commitServerSeed := id
  serverSeed_injective := Function.injective_id

private def unfolded : GameCode Nat Unit := ⟨fun seed _ _ _ _ => seed, fun _ _ => ()⟩

/-- The rotation comes while a start waits for its entropy. -/
private def overtaken : List (Event Nat Nat Unit) :=
  [.start 1 .mines 1000000 0 fun _ => ⟨(), (), 1⟩, .reserve 0, .rotateServerSeed 1, .entropy 0 none,
    .startTx 0 7 true]

theorem rotated_layout_in_play :
    ¬ ∀ (code : GameCode Nat Unit) (src : SeedSource Nat Nat) (es : List (Event Nat Nat Unit))
      (s : State src Unit), run (step code) (.init src Unit) es = some s → s.LayoutsSecret := by
  intro h
  have hout : (run (step unfolded) (.init counted Unit) overtaken).any (fun s => s.rounds.any fun r =>
      decide (r.status = .active ∧ r.serverSeed ∈ s.returned)) = true := by
    decide +kernel
  obtain ⟨s, hrun, hany⟩ := (Option.any_eq_true _ _).mp hout
  obtain ⟨r, hr, hround⟩ := List.any_eq_true.mp hany
  obtain ⟨hactive, hreturned⟩ := of_decide_eq_true hround
  exact h unfolded counted overtaken s hrun r hr hactive hreturned

end Scadium.Games.Instant
