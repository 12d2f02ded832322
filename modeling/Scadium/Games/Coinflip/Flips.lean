/-
Scadium.Games.Coinflip.Flips — what becomes of a flip, apart from the
transactions that do it.

A book holds the flips by their ids. `Change` is one transition of one flip,
with the postings it makes: a flip is opened, and then cancelled, or
resolved by an opponent. `Change.apply` admits the last two for an open flip
only, so the changes of one flip are one of three lives (`life_of_run`).

The second part is what the transactions on flips commit. `Writing p w ls
answer` says what a transaction has written so far: the postings `ls`, at most
one flip, `w`, and the answer of its command. Each program has its rule, up to
`body`: a commit makes the changes of one flip, with their postings, and a
response that shows a server seed is one of a completed flip.
-/
import Scadium.Games.Coinflip.Service

namespace Scadium.Games.Coinflip

open Scadium.Lib Scadium.Lib.ReadCommitted Scadium.Prisma Scadium.Prisma.Sessions Scadium.Shared

/-! ## Changes -/

abbrev Book := FlipId → Option CoinflipGame

inductive Change where
  | opened (id : FlipId) (game : CoinflipGame)
  | cancelled (id : FlipId) (game : CoinflipGame) (now : Time)
  | resolved (id : FlipId) (game : CoinflipGame) (opponent : Opponent) (result : Side) (nonce : Nat)
      (now : Time) (betId : BetId)
  deriving DecidableEq

namespace Change

def id : Change → FlipId
  | opened id _ => id
  | cancelled id .. => id
  | resolved id .. => id

/-- The open flip. -/
def game : Change → CoinflipGame
  | opened _ game => game
  | cancelled _ game _ => game
  | resolved _ game .. => game

def before : Change → Option CoinflipGame
  | opened .. => none
  | c => some c.game

def after : Change → CoinflipGame
  | opened _ game => game
  | cancelled _ game now => { game with status := .cancelled, resolvedAt := some now }
  | resolved _ game opponent result nonce now _ => completed game opponent result nonce now

def terminal : Change → Bool
  | opened .. => false
  | _ => true

def stake (u : UserId) (id : FlipId) (game : CoinflipGame) : Posting :=
  (stakeMeta id).posting u (-(game.amountLamports : Int))

def refund (id : FlipId) (game : CoinflipGame) : Posting :=
  (refundMeta id).posting game.creatorId game.amountLamports

def payout (u : UserId) (betId : BetId) (game : CoinflipGame) : Posting :=
  (payoutMeta betId).posting u (winnerPayout game.amountLamports)

/-- The stake of the creator; the refund of it; the stake of the player who
takes the other side, and the payout to the side that has won. The house
stakes nothing and is paid nothing. -/
def postings : Change → List Posting
  | opened id game => [stake game.creatorId id game]
  | cancelled id game _ => [refund id game]
  | resolved id game (.player u _ _) result _ _ betId =>
      [stake u id game, payout (if result = game.creatorSide then game.creatorId else u) betId game]
  | resolved _ game .house result _ _ betId =>
      if result = game.creatorSide then [payout game.creatorId betId game] else []

def apply (b : Book) (c : Change) : Option Book :=
  if b c.id = c.before ∧ c.game.status = .open then some (Function.update b c.id (some c.after))
  else none

end Change

/-- What one flip goes through. -/
def Life (id : FlipId) (cs : List Change) : Prop :=
  cs = [] ∨ ∃ game, game.status = .open ∧
    (cs = [.opened id game] ∨
      (∃ now, cs = [.opened id game, .cancelled id game now]) ∨
      ∃ opponent result nonce now betId,
        cs = [.opened id game, .resolved id game opponent result nonce now betId])

/-! ## Books -/

section Books

variable {b b' : Book} {c : Change} {cs : List Change} {id : FlipId} {game : CoinflipGame}

theorem Change.apply_eq_some :
    c.apply b = some b' ↔ (b c.id = c.before ∧ c.game.status = .open) ∧
      b' = Function.update b c.id (some c.after) := by
  simp only [Change.apply]
  split
  · simp_all [eq_comm]
  · simp_all

theorem Change.after_terminal (h : c.terminal = true) : c.after.status ≠ .open := by
  cases c with
  | opened => cases h
  | cancelled => simp [Change.after]
  | resolved => simp [Change.after, completed]

/-- What a change is of is open. -/
theorem Change.before_open (h : c.before = some game) (hopen : c.game.status = .open) :
    game.status = .open ∧ c.terminal = true := by
  cases c with
  | opened => cases h
  | cancelled | resolved =>
    cases h
    exact ⟨hopen, rfl⟩

/-- A flip that is not open stays as it is. -/
theorem closed_kept (h : run Change.apply b cs = some b') (hid : b id = some game)
    (hclosed : game.status ≠ .open) : b' id = some game := by
  refine run_induct (P := fun b => b id = some game) (fun b c b' _ hb hstep => ?_) hid
    (along_true _ _) h
  obtain ⟨⟨hbefore, hopen⟩, rfl⟩ := Change.apply_eq_some.mp hstep
  by_cases hc : id = c.id
  · subst hc
    exact absurd (Change.before_open (hbefore.symm.trans hb) hopen).1 hclosed
  · rw [Function.update_of_ne hc]
    exact hb

/-- A flip stays as it is, or is no longer open. -/
theorem flip_kept (h : run Change.apply b cs = some b') (hid : b id = some game) :
    b' id = some game ∨ ∃ game', b' id = some game' ∧ game'.status ≠ .open := by
  refine run_induct (P := fun b => b id = some game ∨ ∃ game', b id = some game' ∧
    game'.status ≠ .open) (fun b c b' _ hb hstep => ?_) (.inl hid) (along_true _ _) h
  obtain ⟨⟨hbefore, hopen⟩, rfl⟩ := Change.apply_eq_some.mp hstep
  by_cases hc : id = c.id
  · subst hc
    have hterminal : c.terminal = true := by
      rcases hb with hb | ⟨_, hb, -⟩
      · exact (Change.before_open (hbefore.symm.trans hb) hopen).2
      · exact (Change.before_open (hbefore.symm.trans hb) hopen).2
    exact .inr ⟨c.after, Function.update_self .., Change.after_terminal hterminal⟩
  · rw [Function.update_of_ne hc]
    exact hb

/-! ## Lives -/

/-- Where changes of one flip leave it. -/
def leaves (cs : List Change) : Option CoinflipGame := cs.getLast?.map Change.after

/-- One more change of the flip. -/
theorem Life.concat (h : Life c.id cs) (hbefore : leaves cs = c.before)
    (hopen : c.game.status = .open) : Life c.id (cs ++ [c]) := by
  rcases h with rfl | ⟨game, hgame, rfl | ⟨now, rfl⟩ | ⟨o, r, n, t, i, rfl⟩⟩
  · cases c with
    | opened id game => exact .inr ⟨game, hopen, .inl rfl⟩
    | cancelled | resolved => cases hbefore
  · cases c with
    | opened => cases hbefore
    | cancelled id game' now =>
      cases hbefore
      exact .inr ⟨game, hgame, .inr (.inl ⟨now, rfl⟩)⟩
    | resolved id game' o r n t i =>
      cases hbefore
      exact .inr ⟨game, hgame, .inr (.inr ⟨o, r, n, t, i, rfl⟩)⟩
  · exact absurd (Change.before_open hbefore.symm hopen).1 (Change.after_terminal rfl)
  · exact absurd (Change.before_open hbefore.symm hopen).1 (Change.after_terminal rfl)

theorem life_step (h : run Change.apply (fun _ => none) cs = some b) :
    Life id (cs.filter (·.id = id)) ∧ b id = leaves (cs.filter (·.id = id)) := by
  induction cs using List.reverseRecOn generalizing b with
  | nil =>
    cases h
    exact ⟨.inl rfl, rfl⟩
  | append_singleton cs c ih =>
    obtain ⟨_, hcs, hc⟩ := run_append.mp h
    obtain ⟨_, hstep, hnil⟩ := run_cons_eq_some.mp hc
    cases hnil
    obtain ⟨⟨hbefore, hopen⟩, rfl⟩ := Change.apply_eq_some.mp hstep
    obtain ⟨hlife, hleaves⟩ := ih hcs
    by_cases hid : c.id = id
    · subst hid
      have hfilter : (cs ++ [c]).filter (·.id = c.id) = cs.filter (·.id = c.id) ++ [c] := by simp
      rw [hfilter]
      exact ⟨hlife.concat (hleaves.symm.trans hbefore) hopen, by simp [leaves]⟩
    · have hfilter : (cs ++ [c]).filter (·.id = id) = cs.filter (·.id = id) := by simp [hid]
      rw [hfilter, Function.update_of_ne fun heq => hid heq.symm]
      exact ⟨hlife, hleaves⟩

/-- From an empty book, every flip has one of the lives. -/
theorem life_of_run (h : run Change.apply (fun _ => none) cs = some b)
    (id : FlipId) : Life id (cs.filter (·.id = id)) := (life_step h).1

end Books

/-! ## The protocol -/

def flipsOf (s : Tables) : Book := fun id => s.rows (.flip id)

def dtosOf : Response → List FlipDto
  | .flip dto => [dto]
  | .flips dtos => dtos
  | _ => []

/-- Whose server seed it shows is completed. -/
def SeedsCompleted (r : Response) (s : Tables) : Prop :=
  ∀ dto ∈ dtosOf r, dto.serverSeed.isSome = true →
    ∃ game, flipsOf s dto.id = some game ∧ game.status = .completed

def flipKey : Key → Option FlipId
  | .flip id => some id
  | _ => none

/-- Where a transaction opens a flip, its creator has no more open flips than
it has counted. -/
def CountHolds (p : Writes) (s : Tables) : Prop :=
  ∀ id ∈ p.keys.filterMap flipKey, ∀ v ∈ p.rows (.flip id), ∀ game ∈ v.after,
    game.status = .open → ∀ n ∈ p.counts, openFlips game.creatorId s ≤ n

/-- What holds of the committed tables; the limit only where it is asked for. -/
structure FlipInv (limited : Prop) (s : Tables) : Prop where
  listed : ∀ id, .flip id ∈ s.keys → (flipsOf s id).isSome = true
  stored : ∀ u scope key (row : IdempotencyKey) r, s.rows (.idempotency u scope key) = some row →
    row.responseJson = some r → SeedsCompleted r s
  limit : limited → ∀ u, openFlips u s ≤ COINFLIP.MAX_OPEN_PER_USER

/-- A commit is a run of changes. -/
def FlipStep (s s' : Tables) : Prop :=
  ∃ cs, run Change.apply (flipsOf s) cs = some (flipsOf s') ∧
    s'.log.map (·.posting) = s.log.map (·.posting) ++ cs.flatMap Change.postings

def flipProtocol (limited : Prop) : Protocol Row BalanceLedger where
  Inv := FlipInv limited
  Step := FlipStep
  Ok p s := limited → CountHolds p s

section Steps

variable {s s' : Tables} {limited : Prop} {id : FlipId} {game : CoinflipGame} {r : Response}

theorem FlipStep.closed (h : FlipStep s s') (hid : flipsOf s id = some game)
    (hclosed : game.status ≠ .open) : flipsOf s' id = some game := by
  obtain ⟨_, hrun, -⟩ := h
  exact closed_kept hrun hid hclosed

theorem FlipStep.seeds (h : FlipStep s s') (hr : SeedsCompleted r s) : SeedsCompleted r s' := by
  intro dto hdto hseed
  obtain ⟨game, hgame, hcompleted⟩ := hr dto hdto hseed
  exact ⟨game, h.closed hgame (by simp [hcompleted]), hcompleted⟩

/-- The flip is as it was, or no longer open. -/
def Kept (id : FlipId) (game : CoinflipGame) (s : Tables) : Prop :=
  flipsOf s id = some game ∨ ∃ game', flipsOf s id = some game' ∧ game'.status ≠ .open

theorem Kept.later (h : Kept id game s) (hlater : (flipProtocol limited).Later s s') :
    Kept id game s' := by
  refine hlater.keeps (fun s s' hstep hs => ?_) h
  rcases hs with hs | ⟨game', hs, hclosed⟩
  · obtain ⟨_, hrun, -⟩ := hstep
    exact flip_kept hrun hs
  · exact .inr ⟨game', FlipStep.closed hstep hs hclosed, hclosed⟩

end Steps

/-! ## What a transaction has written -/

/-- A flip a transaction has written: the committed row, and its own. -/
abbrev FlipWrite := FlipId × Option CoinflipGame × CoinflipGame

def writesOf : Option FlipWrite → FlipId → Option (Version CoinflipGame)
  | none => fun _ => none
  | some (id, before, after) => Function.update (fun _ => none) id (some ⟨before, some after⟩)

/-- The flips that are new. -/
def newFlips : Option FlipWrite → List FlipId
  | some (id, none, _) => [id]
  | _ => []

theorem of_mem_newFlips {w : Option FlipWrite} {id : FlipId} (h : id ∈ newFlips w) :
    ∃ after, w = some (id, none, after) := by
  rcases w with - | ⟨_, - | _, after⟩
  · cases h
  · cases List.mem_singleton.mp h
    exact ⟨after, rfl⟩
  · cases h

structure Writing (p : Writes) (w : Option FlipWrite) (ls : List Posting)
    (answer : Option Response) : Prop where
  log : p.log.map (·.posting) = ls
  flips : ∀ id, p.rows (.flip id) = writesOf w id
  keys : p.keys.filterMap flipKey = newFlips w
  answers : ∀ u scope key (v : Version IdempotencyKey) row r,
    p.rows (.idempotency u scope key) = some v → v.after = some row → row.responseJson = some r →
      answer = some r

/-- Tables other than those of flips and answers. -/
def Aside : Key → Prop
  | .flip _ => False
  | .idempotency .. => False
  | _ => True

section Writings

variable {p p' : Writes} {w : Option FlipWrite} {ls rows : List Posting} {s : Tables} {id : FlipId}
variable {before : Option CoinflipGame} {game game' : CoinflipGame} {answer : Option Response}

theorem writing_empty : Writing .empty none [] none where
  log := rfl
  flips _ := rfl
  keys := rfl
  answers u scope key v row r h := by cases h

theorem Writing.moves (h : Writing p w ls answer) (hm : Moves Aside p p' rows) :
    Writing p' w (ls ++ rows) answer where
  log := by rw [hm.log, h.log]
  flips id := by rw [hm.keep (.flip id) (by simp [Aside]), h.flips]
  keys := by
    obtain ⟨ks, hks, hall⟩ := hm.keys
    have hnone : ks.filterMap flipKey = [] := by
      rw [List.filterMap_eq_nil_iff]
      intro k hk
      have haside := hall k hk
      cases k <;> simp_all [Aside, flipKey]
    rw [hks, List.filterMap_append, hnone, List.append_nil, h.keys]
  answers u scope key v row r hv hrow := by
    rw [hm.keep (.idempotency u scope key) (by simp [Aside])] at hv
    exact h.answers u scope key v row r hv hrow

theorem Writing.quiet (h : Writing p w ls answer) (hm : Moves Aside p p' []) :
    Writing p' w ls answer := by
  simpa using h.moves hm

/-- The row of a flip, the transaction's own or the committed one. -/
theorem Writing.view_none (h : Writing p none ls answer) : flipsOf (p.view s) = flipsOf s := by
  funext id
  exact Pending.view_rows_none (h.flips id)

theorem Writing.view_some (h : Writing p (some (id, before, game)) ls answer) :
    flipsOf (p.view s) = Function.update (flipsOf s) id (some game) := by
  funext id'
  have hrow := h.flips id'
  by_cases hid : id' = id
  · subst hid
    rw [Function.update_self]
    simp only [writesOf, Function.update_self] at hrow
    exact Pending.view_rows_some hrow
  · rw [Function.update_of_ne hid]
    simp only [writesOf, Function.update_of_ne hid] at hrow
    exact Pending.view_rows_none hrow

/-- What was committed of the flip still is. -/
theorem Writing.committed (h : Writing p (some (id, before, game)) ls answer) (hfits : p.Fits s) :
    flipsOf s id = before := by
  have hrow := h.flips id
  simp only [writesOf, Function.update_self] at hrow
  exact hfits (.flip id) _ hrow

/-- A flip that is seen is written. -/
theorem Writing.write_seen (h : Writing p none ls answer) (hfits : p.Fits s)
    (hseen : (p.view s).rows (.flip id) = some game) (next : CoinflipGame) :
    Writing (p.write s (.flip id) (some next)) (some (id, some game, next)) ls answer := by
  have hcommitted : s.rows (.flip id) = some game := by
    rw [← hseen]
    exact (Pending.view_rows_none (h.flips id)).symm
  refine ⟨h.log, fun id' => ?_, ?_, ?_⟩
  · by_cases hid : id' = id
    · subst hid
      rw [Pending.write_rows_self, Pending.base_of_fits hfits, hcommitted]
      simp [writesOf]
    · rw [Pending.write_rows_ne (by simpa using hid), h.flips]
      simp [writesOf, hid]
  · simp [Pending.write, hseen, h.keys, newFlips]
  · intro u scope key v row r hv hrow
    rw [Pending.write_rows_ne (by simp)] at hv
    exact h.answers u scope key v row r hv hrow

/-- A flip it has written is written again. -/
theorem Writing.write_again (h : Writing p (some (id, before, game)) ls answer) :
    Writing (p.write s (.flip id) (some game')) (some (id, before, game')) ls answer := by
  have hrow := h.flips id
  simp only [writesOf, Function.update_self] at hrow
  refine ⟨h.log, fun id' => ?_, ?_, ?_⟩
  · by_cases hid : id' = id
    · subst hid
      rw [Pending.write_rows_self, Pending.base, hrow]
      simp [writesOf]
    · rw [Pending.write_rows_ne (by simpa using hid), h.flips]
      simp [writesOf, hid]
  · have hseen : (p.view s).rows (.flip id) = some game := Pending.view_rows_some hrow
    have hkeys : newFlips (some (id, before, game')) = newFlips (some (id, before, game)) := by
      cases before <;> rfl
    simp [Pending.write, hseen, h.keys, hkeys]
  · intro u scope key v row r hv hrow
    rw [Pending.write_rows_ne (by simp)] at hv
    exact h.answers u scope key v row r hv hrow

/-- A flip is inserted. -/
theorem Writing.insert (h : Writing p none ls answer) (hfits : p.Fits s)
    (hinv : ∀ id, .flip id ∈ s.keys → (flipsOf s id).isSome = true)
    (hseen : (p.view s).rows (.flip id) = none) (new : CoinflipGame) :
    Writing (p.write s (.flip id) (some new)) (some (id, none, new)) ls answer := by
  have hcommitted : s.rows (.flip id) = none := by
    rw [← hseen]
    exact (Pending.view_rows_none (h.flips id)).symm
  refine ⟨h.log, fun id' => ?_, ?_, ?_⟩
  · by_cases hid : id' = id
    · subst hid
      rw [Pending.write_rows_self, Pending.base_of_fits hfits, hcommitted]
      simp [writesOf]
    · rw [Pending.write_rows_ne (by simpa using hid), h.flips]
      simp [writesOf, hid]
  · have hold : Key.flip id ∉ s.keys := fun hmem => by
      have hsome := hinv id hmem
      simp [flipsOf, hcommitted] at hsome
    have hown : Key.flip id ∉ p.keys := fun hmem => by
      have hkey : id ∈ p.keys.filterMap flipKey := List.mem_filterMap.mpr ⟨_, hmem, rfl⟩
      rw [h.keys] at hkey
      cases hkey
    simp [Pending.write, hseen, hold, hown, h.keys, newFlips, flipKey]
  · intro u scope key v row r hv hrow
    rw [Pending.write_rows_ne (by simp)] at hv
    exact h.answers u scope key v row r hv hrow

/-- A key is claimed. -/
theorem Writing.claim (h : Writing p w ls answer) (u : UserId) (scope key : String) :
    Writing (p.write s (.idempotency u scope key) (some ⟨none⟩)) w ls answer := by
  refine ⟨h.log, fun id => ?_, ?_, ?_⟩
  · rw [Pending.write_rows_ne (by simp), h.flips]
  · rw [← h.keys]
    simp only [Pending.write]
    split <;> simp [flipKey]
  · intro u' scope' key' v row r hv hrow hr
    by_cases hkey : Key.idempotency u' scope' key' = .idempotency u scope key
    · cases hkey
      rw [Pending.write_rows_self] at hv
      cases hv
      cases hrow
      cases hr
    · rw [Pending.write_rows_ne hkey] at hv
      exact h.answers u' scope' key' v row r hv hrow hr

/-- The answer is stored. -/
theorem Writing.store (h : Writing p w ls none) (u : UserId) (scope key : String) (r : Response) :
    Writing (p.write s (.idempotency u scope key) (some ⟨some r⟩)) w ls (some r) := by
  refine ⟨h.log, fun id => ?_, ?_, ?_⟩
  · rw [Pending.write_rows_ne (by simp), h.flips]
  · rw [← h.keys]
    simp only [Pending.write]
    split <;> simp [flipKey]
  · intro u' scope' key' v row r' hv hrow hr
    by_cases hkey : Key.idempotency u' scope' key' = .idempotency u scope key
    · cases hkey
      rw [Pending.write_rows_self] at hv
      cases hv
      cases hrow
      exact hr
    · rw [Pending.write_rows_ne hkey] at hv
      cases h.answers u' scope' key' v row r' hv hrow hr

end Writings

/-! ## Open flips -/

section Counting

variable {p : Writes} {w : Option FlipWrite} {ls : List Posting} {answer : Option Response}
variable {s : Tables} {u : UserId}

theorem openFlips_eq (u : UserId) (s : Tables) :
    openFlips u s = s.keys.countP fun k => (s.rows k).any (isOpenOf u k) := by
  simp [openFlips, Store.select, List.countP_eq_length_filter]

/-- What a key counts for is a flip. -/
theorem isOpenOf_flip {k : Key} {row : Option (Row k)} (h : row.any (isOpenOf u k) = true) :
    ∃ id, k = .flip id := by
  cases k <;> cases row <;> simp_all [isOpenOf]

/-- Keys that are of no flip but `new` count for one at most. -/
theorem countP_flipKeys (ks : List Key) {P : Key → Bool} (hP : ∀ k, P k = true → ∃ id, k = .flip id) :
    ks.countP P = (ks.filterMap flipKey).countP fun id => P (.flip id) := by
  rw [List.countP_filterMap]
  refine List.countP_congr fun k _ => ?_
  cases hk : flipKey k with
  | none =>
    have hfalse : P k ≠ true := fun htrue => by
      obtain ⟨_, rfl⟩ := hP k htrue
      cases hk
    simp [hfalse]
  | some =>
    cases k <;> simp_all [flipKey]

/-- A transaction adds an open flip where it opens one. -/
theorem Writing.openFlips_le (h : Writing p w ls answer) (hfits : p.Fits s)
    (hlisted : ∀ id, .flip id ∈ s.keys → (flipsOf s id).isSome = true)
    (hold : ∀ id before after, w = some (id, some before, after) → after.status ≠ .open) :
    openFlips u (p.view s) ≤ openFlips u s +
      ((newFlips w).countP fun id => (flipsOf (p.view s) id).any (isOpenOf u (.flip id))) := by
  rw [openFlips_eq, openFlips_eq, Pending.view_keys, List.countP_append,
    countP_flipKeys p.keys fun k => isOpenOf_flip, h.keys]
  refine Nat.add_le_add_right (List.countP_mono_left fun k hk hopen => ?_) _
  obtain ⟨id, rfl⟩ := isOpenOf_flip hopen
  have hseen : (p.view s).rows (.flip id) = (writesOf w id).elim (s.rows (.flip id)) (·.after) := by
    cases hrow : writesOf w id with
    | none => exact Pending.view_rows_none ((h.flips id).trans hrow)
    | some => exact Pending.view_rows_some ((h.flips id).trans hrow)
  cases w with
  | none => simpa [hseen, writesOf] using hopen
  | some w =>
    obtain ⟨id', before, after⟩ := w
    by_cases hid : id = id'
    · subst hid
      cases before with
      | none =>
        have hsome := hlisted id hk
        rw [h.committed hfits] at hsome
        cases hsome
      | some before =>
        have hclosed := hold id before after rfl
        simp [hseen, writesOf, isOpenOf, hclosed] at hopen
    · simpa [hseen, writesOf, hid] using hopen

/-- What a commit needs: its changes, with their postings; an answer that
shows only what is over; and of a new open flip, that it was counted for. -/
theorem Writing.commit {limited : Prop} {s₀ : Tables} {cs : List Change} (h : Writing p w ls answer)
    (hnext : (flipProtocol limited).Next p s₀ s) (hok : (flipProtocol limited).Ok p s)
    (hrun : run Change.apply (flipsOf s) cs = some (flipsOf (p.view s)))
    (hls : ls = cs.flatMap Change.postings)
    (hanswer : ∀ r, answer = some r → SeedsCompleted r (p.view s))
    (hold : ∀ id before after, w = some (id, some before, after) → after.status ≠ .open)
    (hnew : ∀ id after, w = some (id, none, after) → after.status = .open →
      ∃ n ∈ p.counts, n < COINFLIP.MAX_OPEN_PER_USER) :
    FlipInv limited (p.view s) ∧ FlipStep s (p.view s) := by
  have hinv : FlipInv limited s := hnext.inv
  have hstep : FlipStep s (p.view s) := ⟨cs, hrun, by simp [h.log, hls]⟩
  refine ⟨⟨fun id hmem => ?_, ?_, fun hlimited u => ?_⟩, hstep⟩
  · rcases List.mem_append.mp hmem with hmem | hmem
    · obtain ⟨_, hgame⟩ := Option.isSome_iff_exists.mp (hinv.listed id hmem)
      rcases flip_kept hrun hgame with hkept | ⟨_, hkept, -⟩ <;> simp [hkept]
    · have hkey : id ∈ newFlips w := by
        rw [← h.keys]
        exact List.mem_filterMap.mpr ⟨_, hmem, rfl⟩
      obtain ⟨after, rfl⟩ := of_mem_newFlips hkey
      rw [h.view_some, Function.update_self]
      rfl
  · intro u scope key row r hrow hr
    cases hown : p.rows (.idempotency u scope key) with
    | none =>
      rw [Pending.view_rows_none hown] at hrow
      exact hstep.seeds (hinv.stored u scope key row r hrow hr)
    | some v =>
      rw [Pending.view_rows_some hown] at hrow
      exact hanswer r (h.answers u scope key v row r hown hrow hr)
  · have hle := h.openFlips_le (u := u) hnext.fits hinv.listed hold
    have hlimit := hinv.limit hlimited u
    match w with
    | none => exact hle.trans hlimit
    | some (id, some before, after) => exact hle.trans hlimit
    | some (id, none, after) =>
      rw [h.view_some] at hle
      simp only [newFlips, List.countP_singleton, Function.update_self, Option.any_some] at hle
      split at hle
      · rename_i hopen
        simp only [isOpenOf, Bool.and_eq_true, beq_iff_eq] at hopen
        obtain ⟨rfl, hopen⟩ := hopen
        obtain ⟨n, hn, _⟩ := hnew id after rfl hopen
        have hholds : CountHolds p s := hok hlimited
        have hrow : p.rows (.flip id) = some ⟨none, some after⟩ := by
          rw [h.flips]
          simp [writesOf]
        have hkey : id ∈ p.keys.filterMap flipKey := by
          rw [h.keys]
          exact List.mem_singleton_self id
        have hcount := hholds id hkey ⟨none, some after⟩ hrow after rfl hopen n hn
        omega
      · omega

end Counting

end Scadium.Games.Coinflip
