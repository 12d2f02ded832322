/-
Scadium.Games.Coinflip.Rules — one rule for each program on flips, from the
statements that write no flip to the commands. `safe_body`: every command
keeps the protocol, whatever the others commit between its statements.

A rule has the form of `Safe`: if what comes after is safe in every state the
statement may leave, the statement and what comes after are. `Writing` carries
what the transaction has written so far. A flip may be resolved by others after
it was loaded, but while it is open it is as it was loaded (`Sees`); the claim,
an update guarded by the status, is the only place where a flip is resolved or
cancelled. `Finished` is what must hold at the commit.
-/
import Scadium.Games.Coinflip.Flips

namespace Scadium.Games.Coinflip

open Scadium.Lib Scadium.Lib.ReadCommitted Scadium.Prisma Scadium.Prisma.Sessions Scadium.Shared

variable {d : Deps} {limited : Prop} {p : Writes} {s : Tables}

/-! ## Statements aside -/

section Aside

variable {Γ : Protocol Row BalanceLedger} {userId : UserId}

theorem safe_updateAside {k : Key} {data : Row k → Row k} {Q : Unit → Writes → Tables → Prop}
    (hk : Aside k) (h : ∀ p' s', Moves Aside p p' [] → Q () p' s') :
    Γ.Safe Q (updateOrThrow k data) p s :=
  safe_updateOrThrow fun s' _ _ _ => h _ s' (.write hk s' _)

theorem safe_createAside {k : Key} {r : Row k} {Q : Unit → Writes → Tables → Prop}
    (hk : Aside k) (h : ∀ p' s', Moves Aside p p' [] → Q () p' s') : Γ.Safe Q (create k r) p s :=
  safe_create fun s' _ _ => h _ s' (.write hk s' _)

theorem safe_nextNonce {Q : ClientSeed → Writes → Tables → Prop}
    (h : ∀ ctx p' s', Moves Aside p p' [] → Q ctx p' s') : Γ.Safe Q (nextNonce userId) p s := by
  refine .bind (safe_updateAside trivial fun p' s' hm => .bind (.query fun s'' _ => ?_))
  split
  · exact .pure (h _ p' s'' hm)
  · exact .throw _

theorem safe_consumeNonce {Q : ClientSeed → Writes → Tables → Prop}
    (h : ∀ ctx p' s', Moves Aside p p' [] → Q ctx p' s') : Γ.Safe Q (consumeNonce d userId) p s := by
  refine .bind (.answer fun env => .bind (.query fun s' _ => ?_))
  split
  · exact safe_nextNonce h
  · refine .bind (safe_createAside trivial fun p₁ s₁ hm => safe_nextNonce fun ctx p₂ s₂ hm' => ?_)
    exact h ctx p₂ s₂ (hm.trans_quiet hm')

theorem safe_balance {delta : Int} {info : DeltaMeta} {Q : Int → Writes → Tables → Prop}
    (h : ∀ a p' s', Moves Aside p p' [info.posting userId delta] → Q a p' s') :
    Γ.Safe Q (applyBalanceDelta userId delta info) p s :=
  safe_applyBalanceDelta fun a p' s' _ hm => h a p' s' (hm.mono fun k hk => by simp [hk, Aside])

/-- What an opponent stakes. -/
def opponentStakes (g : LoadedFlip) : Opponent → List Posting
  | .player u _ _ => [Change.stake u g.id g.game]
  | .house => []

theorem safe_opponentSeed {g : LoadedFlip} {serverSeed : String} {opponent : Opponent}
    {Q : ClientSeed × String → Writes → Tables → Prop}
    (h : ∀ a p' s', Moves Aside p p' (opponentStakes g opponent) → Q a p' s') :
    Γ.Safe Q (opponentSeed d g serverSeed opponent) p s := by
  cases opponent with
  | house =>
    exact .bind (safe_consumeNonce fun ctx p' s' hm => .pure (h _ p' s' hm))
  | player u reserved =>
    refine .bind (.query fun s' _ => ?_)
    split
    · exact .throw _
    · split
      · exact .throw _
      · refine .bind (safe_balance fun a p' s' hm => ?_)
        cases reserved with
        | some => exact h _ p' s' hm
        | none =>
          refine .bind (safe_consumeNonce fun ctx p'' s'' hm' => .pure (h _ p'' s'' ?_))
          exact hm.trans_quiet hm'

/-- What is paid to a side. -/
def sidePostings (g : LoadedFlip) (side : FlipSide) (betId : BetId) : List Posting :=
  if side.won then [Change.payout side.userId betId g.game] else []

theorem safe_settleSide {g : LoadedFlip} {bet : CoinflipBet} {side : FlipSide}
    {Q : Unit → Writes → Tables → Prop}
    (h : ∀ betId p' s', Moves Aside p p' (sidePostings g side betId) → Q () p' s') :
    Γ.Safe Q (settleSide g.game.amountLamports bet side) p s := by
  refine .bind (safe_updateAside trivial fun p₁ s₁ hm₁ => .bind (.answer fun env =>
    .bind (safe_createAside trivial fun p₂ s₂ hm₂ => ?_)))
  have hquiet := hm₁.trans_quiet hm₂
  split
  · rename_i hwon
    refine .bind (safe_balance fun a p' s' hm => .pure (h env.newId p' s' ?_))
    simpa [sidePostings, hwon, Change.payout] using hquiet.trans hm
  · rename_i hlost
    refine .pure (h env.newId p₂ s₂ ?_)
    simpa [sidePostings, hlost] using hquiet

/-- What is paid to sides, a bet for each. -/
def PaysOut (g : LoadedFlip) : List FlipSide → List Posting → Prop
  | [], rows => rows = []
  | side :: rest, rows => ∃ betId others, rows = sidePostings g side betId ++ others ∧
      PaysOut g rest others

theorem safe_settleSides {g : LoadedFlip} {bet : FlipSide → CoinflipBet} {sides : List FlipSide}
    {Q : Unit → Writes → Tables → Prop}
    (h : ∀ rows p' s', PaysOut g sides rows → Moves Aside p p' rows → Q () p' s') :
    Γ.Safe Q (settleSides g.game.amountLamports bet sides) p s := by
  induction sides generalizing p s with
  | nil => exact .pure (h [] p s rfl (.refl p))
  | cons side rest ih =>
    refine .bind (safe_settleSide fun betId p₁ s₁ hm => ih fun rows p₂ s₂ hpays hm' => ?_)
    exact h _ p₂ s₂ ⟨betId, rows, rfl, hpays⟩ (hm.trans hm')

theorem safe_includeFlip {id : FlipId} {Q : FlipDto → Writes → Tables → Prop}
    (h : ∀ s' g, Γ.Next p s s' → loadFlip id (p.view s') = some g → Q (serialize g) p s') :
    Γ.Safe Q (includeFlip id) p s := by
  refine .bind (.query fun s' hs' => ?_)
  split
  · rename_i g hg
    exact .pure (h s' g hs' hg)
  · exact .throw _

end Aside

/-- A flip that is loaded is there under its id. -/
theorem of_loadFlip {id : FlipId} {g : LoadedFlip} (h : loadFlip id s = some g) :
    g.id = id ∧ flipsOf s id = some g.game := by
  simp only [loadFlip, Option.map_eq_some_iff] at h
  obtain ⟨_, hgame, rfl⟩ := h
  exact ⟨rfl, hgame⟩

/-! ## Resolving -/

section Resolving

variable {w : Option FlipWrite} {ls : List Posting} {answer : Option Response} {g : LoadedFlip}
variable {opponent : Opponent} {before : Option CoinflipGame}

/-- The stake of the opponent and one payout are the postings of the change. -/
theorem PaysOut.resolved {result : Side} {rows : List Posting}
    (h : PaysOut g (sidesOf g result opponent) rows) (nonce : Nat) (now : Time) : ∃ betId,
      opponentStakes g opponent ++ rows =
        (Change.resolved g.id g.game opponent result nonce now betId).postings := by
  cases opponent with
  | house =>
    obtain ⟨betId, others, rfl, rfl⟩ := h
    refine ⟨betId, ?_⟩
    by_cases hwon : result = g.game.creatorSide <;> simp [Change.postings, opponentStakes, sidePostings, hwon]
  | player =>
    obtain ⟨betId, _, rfl, betId', _, rfl, rfl⟩ := h
    by_cases hwon : result = g.game.creatorSide
    · exact ⟨betId, by simp [Change.postings, opponentStakes, sidePostings, hwon]⟩
    · exact ⟨betId', by simp [Change.postings, opponentStakes, sidePostings, hwon]⟩

theorem safe_settleClaimed {Γ : Protocol Row BalanceLedger} {seed : Seed}
    {Q : FlipDto → Writes → Tables → Prop}
    (hp : Writing p (some (g.id, before, { g.game with status := .resolving })) ls answer)
    (h : ∀ dto p' s' result nonce now betId,
      Writing p' (some (g.id, before, completed g.game opponent result nonce now))
        (ls ++ (Change.resolved g.id g.game opponent result nonce now betId).postings) answer →
      p'.counts = p.counts → dto.id = g.id → Q dto p' s') :
    Γ.Safe Q (settleClaimed d g seed opponent) p s := by
  refine .bind (safe_opponentSeed fun a p₁ s₁ hm₁ => ?_)
  obtain ⟨ctx, _⟩ := a
  refine .bind (safe_settleSides fun rows p₂ s₂ hpays hm₂ => .bind (.answer fun env => ?_))
  refine .bind (safe_updateAside trivial fun p₃ s₃ hm₃ => .bind ?_)
  refine safe_updateOrThrow fun s₄ old _ hold => ?_
  refine safe_includeFlip fun s₅ g' _ hg' => ?_
  obtain ⟨betId, hpostings⟩ := hpays.resolved ctx.nonce env.now
  have hall := (hp.moves (hm₁.trans hm₂)).quiet hm₃
  rw [hpostings] at hall
  obtain rfl : { g.game with status := .resolving } = old := by
    have hown := congrFun (hall.view_some (s := s₄)) g.id
    rw [Function.update_self] at hown
    exact Option.some.inj (hown.symm.trans hold)
  have hcounts : p₃.counts = p.counts := hm₃.counts.trans (hm₂.counts.trans hm₁.counts)
  exact h _ _ s₅ _ ctx.nonce env.now betId hall.write_again hcounts (of_loadFlip hg').1

/-- What is seen of the flip, if it is open, is what was loaded. -/
def Sees (limited : Prop) (g : LoadedFlip) (p : Writes) (s : Tables) : Prop :=
  ∀ s' game, (flipProtocol limited).Next p s s' → flipsOf (p.view s') g.id = some game →
    game.status = .open → game = g.game

/-- A flip that is resolved was open, and as it was loaded. -/
theorem safe_resolve {Q : FlipDto → Writes → Tables → Prop} (hp : Writing p w ls answer)
    (hw : w = none ∨ w = some (g.id, none, g.game)) (hsees : Sees limited g p s)
    (h : ∀ dto p' s' result nonce now betId, g.game.status = .open →
      Writing p' (some (g.id, if w = none then some g.game else none,
          completed g.game opponent result nonce now))
        (ls ++ (Change.resolved g.id g.game opponent result nonce now betId).postings) answer →
      p'.counts = p.counts → dto.id = g.id → Q dto p' s') :
    (flipProtocol limited).Safe Q (resolve d g opponent) p s := by
  refine .bind (.answer fun env => .bind (safe_updateManyOrThrow fun s₁ old hs₁ hold hjoinable => ?_))
  have hopen : old.status = .open := by
    simp only [joinable, Bool.and_eq_true, beq_iff_eq] at hjoinable
    exact hjoinable.1
  obtain rfl := hsees s₁ old hs₁ hold hopen
  have hclaimed : Writing (p.write s₁ (.flip g.id) (some { g.game with status := .resolving }))
      (some (g.id, if w = none then some g.game else none, { g.game with status := .resolving })) ls
      answer := by
    rcases hw with rfl | rfl
    · exact hp.write_seen hs₁.fits hold _
    · exact hp.write_again
  split
  · exact .throw _
  · exact safe_settleClaimed hclaimed fun dto p' s' result nonce now betId hdone hcounts hdto =>
      h dto p' s' result nonce now betId hopen hdone hcounts hdto

end Resolving

/-! ## Transactions that can be committed -/

/-- The changes lead from the committed row of the flip to the written one. -/
def Makes : Option FlipWrite → List Change → Prop
  | none, cs => cs = []
  | some (id, before, after), cs => ∀ b : Book, b id = before →
      run Change.apply b cs = some (Function.update b id (some after))

/-- No flip is reopened, and one that is new and open has been counted for. -/
def Counted (p : Writes) : Option FlipWrite → Prop
  | none => True
  | some (_, some _, after) => after.status ≠ .open
  | some (_, none, after) => after.status = .open → ∃ n ∈ p.counts, n < COINFLIP.MAX_OPEN_PER_USER

/-- A server seed that is shown is that of the flip the transaction completes. -/
def Shows (w : Option FlipWrite) (r : Response) : Prop :=
  ∀ dto ∈ dtosOf r, dto.serverSeed.isSome = true →
    ∃ before game, w = some (dto.id, before, game) ∧ game.status = .completed

/-- All is written that an answer `r` needs. -/
def Finished (p : Writes) (answer : Option Response) (r : Response) : Prop :=
  ∃ w cs, Writing p w (cs.flatMap Change.postings) answer ∧ Makes w cs ∧ Counted p w ∧ Shows w r

section Committing

variable {answer : Option Response} {r : Response} {w : Option FlipWrite} {g : LoadedFlip}
variable {ls : List Posting} {cs : List Change} {s₀ : Tables}

/-- What is shown is over once it is committed. -/
theorem Writing.shows (h : Writing p w ls answer) (hr : Shows w r) : SeedsCompleted r (p.view s) := by
  intro dto hdto hseed
  obtain ⟨_, game, rfl, hcompleted⟩ := hr dto hdto hseed
  exact ⟨game, by rw [h.view_some, Function.update_self], hcompleted⟩

theorem Finished.commit (h : Finished p answer r) (hanswer : ∀ r', answer = some r' → r' = r)
    (hnext : (flipProtocol limited).Next p s₀ s) (hok : (flipProtocol limited).Ok p s) :
    (flipProtocol limited).Inv (p.view s) ∧ (flipProtocol limited).Step s (p.view s) ∧
      SeedsCompleted r (p.view s) := by
  obtain ⟨w, cs, hp, hmakes, hcounted, hshows⟩ := h
  have hseeds : SeedsCompleted r (p.view s) := hp.shows hshows
  have hrun : run Change.apply (flipsOf s) cs = some (flipsOf (p.view s)) := by
    rcases w with - | ⟨id, before, after⟩
    · obtain rfl : cs = [] := hmakes
      rw [hp.view_none, run_nil]
    · rw [hp.view_some]
      exact hmakes _ (hp.committed hnext.fits)
  have hshown : ∀ r', answer = some r' → SeedsCompleted r' (p.view s) := by
    intro r' hr'
    rw [hanswer r' hr']
    exact hseeds
  have hold : ∀ id before after, w = some (id, some before, after) → after.status ≠ .open := by
    rintro id before after rfl
    exact hcounted
  have hnew : ∀ id after, w = some (id, none, after) → after.status = .open →
      ∃ n ∈ p.counts, n < COINFLIP.MAX_OPEN_PER_USER := by
    rintro id after rfl
    exact hcounted
  obtain ⟨hinv, hstep⟩ := hp.commit hnext hok hrun rfl hshown hold hnew
  exact ⟨hinv, hstep, hseeds⟩

theorem makes_one (c : Change) (hopen : c.game.status = .open) :
    Makes (some (c.id, c.before, c.after)) [c] := by
  intro b hb
  have happly := Change.apply_eq_some.mpr ⟨⟨hb, hopen⟩, rfl⟩
  exact run_cons_eq_some.mpr ⟨_, happly, rfl⟩

/-- A flip that is opened and resolved at once. -/
theorem makes_both {id : FlipId} {game : CoinflipGame} (hopen : game.status = .open)
    (opponent : Opponent) (result : Side) (nonce : Nat) (now : Time) (betId : BetId) :
    Makes (some (id, none, completed game opponent result nonce now))
      [.opened id game, .resolved id game opponent result nonce now betId] := by
  intro b hb
  have hfirst : Change.apply b (.opened id game) = some (Function.update b id (some game)) :=
    Change.apply_eq_some.mpr ⟨⟨hb, hopen⟩, rfl⟩
  have hsecond : Change.apply (Function.update b id (some game))
      (.resolved id game opponent result nonce now betId) = _ :=
    Change.apply_eq_some.mpr ⟨⟨Function.update_self .., hopen⟩, rfl⟩
  refine run_cons_eq_some.mpr ⟨_, hfirst, run_cons_eq_some.mpr ⟨_, hsecond, ?_⟩⟩
  simp [Change.id, Change.after]

/-- The answer of one who has resolved a flip. -/
theorem shows_completed {dto : FlipDto} {before : Option CoinflipGame} {game : CoinflipGame}
    (hgame : game.status = .completed) : Shows (some (dto.id, before, game)) (.flip dto) := by
  intro dto' hdto' _
  obtain rfl := List.mem_singleton.mp hdto'
  exact ⟨before, game, rfl, hgame⟩

/-- Before the end a flip is shown without its seed. -/
theorem shows_serialize (h : g.game.status ≠ .completed) : Shows w (.flip (serialize g)) := by
  intro dto hdto hseed
  obtain rfl := List.mem_singleton.mp hdto
  simp [serialize, h] at hseed

/-- Nothing of flips is written. -/
theorem finished_quiet (hp : Writing p none [] answer) (hr : Shows none r) : Finished p answer r :=
  ⟨none, [], hp, rfl, trivial, hr⟩

end Committing

/-! ## Commands -/

section Commands

variable {answer : Option Response} {g : LoadedFlip}

/-- A transaction whose work is finished. -/
theorem safe_transaction {body : SessionProg Response} {Q : Response → Writes → Tables → Prop}
    (h : (flipProtocol limited).Safe (fun r p _ => Finished p none r) body p s)
    (hQ : ∀ r s', SeedsCompleted r s' → Q r .empty s') :
    (flipProtocol limited).Safe Q (Prog.transaction body) p s := by
  refine .transaction (h.mono fun r p' s₀ hdone s' hs' hok => ?_)
  obtain ⟨hinv, hstep, hseeds⟩ := hdone.commit (by simp) hs' hok
  exact ⟨hinv, hstep, hQ r _ hseeds⟩

/-- What resolving leaves to be committed. -/
theorem finished_resolved {opponent : Opponent} {result : Side} {nonce : Nat} {now : Time}
    {betId : BetId} {dto : FlipDto} (hopen : g.game.status = .open) (hdto : dto.id = g.id)
    (hp : Writing p (some (g.id, some g.game, completed g.game opponent result nonce now))
      (Change.resolved g.id g.game opponent result nonce now betId).postings none) :
    Finished p none (.flip dto) := by
  have hclosed : (completed g.game opponent result nonce now).status ≠ .open := by simp [completed]
  refine ⟨some (g.id, some g.game, completed g.game opponent result nonce now),
    [.resolved g.id g.game opponent result nonce now betId], by simpa using hp,
    makes_one (.resolved g.id g.game opponent result nonce now betId) hopen, hclosed, ?_⟩
  rw [← hdto]
  exact shows_completed rfl

/-- A flip that is open now is as it was loaded. -/
theorem sees_of_kept (hp : Writing p none [] answer) (hkept : Kept g.id g.game s) :
    Sees limited g p s := by
  intro s' game hs' hgame hopen
  rw [hp.view_none] at hgame
  rcases hkept.later hs'.later with hrow | ⟨_, hrow, hclosed⟩
  · rw [hrow] at hgame
    cases hgame
    rfl
  · rw [hrow] at hgame
    cases hgame
    exact absurd hopen hclosed

/-- A flip that is loaded by a transaction that has written none. -/
theorem kept_of_load {id : FlipId} (hp : Writing p none [] answer)
    (hg : loadFlip id (p.view s) = some g) : Kept g.id g.game s := by
  obtain ⟨rfl, hgame⟩ := of_loadFlip hg
  rw [hp.view_none] at hgame
  exact .inl hgame

/-- Resolving what a transaction has loaded. -/
theorem safe_resolve_loaded {opponent : Opponent} (hp : Writing p none [] none)
    (hkept : Kept g.id g.game s) :
    (flipProtocol limited).Safe (fun dto p' _ => Finished p' none (.flip dto)) (resolve d g opponent)
      p s := by
  refine safe_resolve hp (.inl rfl) (sees_of_kept hp hkept) ?_
  intro dto p' s' result nonce now betId hopen hdone _ hdto
  exact finished_resolved hopen hdto (by simpa using hdone)

theorem safe_assertOpenLimit {Γ : Protocol Row BalanceLedger} {userId : UserId}
    {Q : Unit → Writes → Tables → Prop}
    (h : ∀ n s', n < COINFLIP.MAX_OPEN_PER_USER → Q () (p.note n) s') :
    Γ.Safe Q (assertOpenLimit userId) p s := by
  refine .bind (.countRows fun s' _ => ?_)
  split
  · exact .throw _
  · exact .pure (h _ s' (by omega))

theorem Writing.note {w : Option FlipWrite} {ls : List Posting} (h : Writing p w ls answer)
    (n : Nat) : Writing (p.note n) w ls answer := ⟨h.log, h.flips, h.keys, h.answers⟩

theorem safe_openFlip {params : CreateParams} {Q : LoadedFlip → Writes → Tables → Prop}
    (hp : Writing p none [] none)
    (h : ∀ g p' s', g.game.status = .open → p'.counts = p.counts →
      Writing p' (some (g.id, none, g.game)) [Change.stake g.game.creatorId g.id g.game] none →
      Q g p' s') :
    (flipProtocol limited).Safe Q (openFlip d params) p s := by
  refine .bind (.answer fun env => .bind (safe_balance fun a p₁ s₁ hm₁ => ?_))
  refine .bind (.answer fun env' => .bind (safe_createAside trivial fun p₂ s₂ hm₂ => ?_))
  refine .bind (safe_create fun s₃ hs₃ hnew => .bind (.query fun s₄ _ => ?_))
  have hinv : FlipInv limited s₃ := hs₃.inv
  have hmoved := (hp.moves hm₁).quiet hm₂
  have hopened := hmoved.insert hs₃.fits hinv.listed hnew (newFlip params env'.newId env'.now)
  split
  · rename_i g hg
    obtain ⟨hid, hgame⟩ := of_loadFlip hg
    rw [hopened.view_some, Function.update_self] at hgame
    have hgame := Option.some.inj hgame
    have hopen : g.game.status = .open := by
      rw [← hgame]
      rfl
    refine .pure (h g _ s₄ hopen (hm₂.counts.trans hm₁.counts) ?_)
    rw [hid, ← hgame]
    exact hopened
  · exact .throw _

theorem safe_createFlip {params : CreateParams} (hp : Writing p none [] none) :
    (flipProtocol limited).Safe (fun dto p' _ => Finished p' none (.flip dto)) (createFlip d params)
      p s := by
  refine .bind (.query fun s' _ => ?_)
  split
  · exact .throw _
  · split
    · exact .throw _
    · cases hhouse : params.vsHouse with
      | true =>
        simp only [if_true]
        refine .bind (safe_openFlip hp fun g p' s' hopen _ hdone => ?_)
        refine safe_resolve hdone (.inr rfl) ?_ ?_
        · intro s'' game _ hgame _
          rw [hdone.view_some, Function.update_self] at hgame
          cases hgame
          rfl
        · intro dto p'' s'' result nonce now betId _ hresolved _ hdto
          refine ⟨_, [.opened g.id g.game, .resolved g.id g.game .house result nonce now betId],
            by simpa [Change.postings] using hresolved, makes_both hopen .house result nonce now betId, ?_, ?_⟩
          · intro h
            cases h
          · rw [← hdto]
            exact shows_completed rfl
      | false =>
        simp only [Bool.false_eq_true, if_false]
        refine .bind (safe_assertOpenLimit fun n s' hn => ?_)
        refine .bind (safe_openFlip (hp.note n) fun g p' s'' hopen hcounts hdone => ?_)
        refine .pure ⟨_, [.opened g.id g.game], hdone, makes_one (.opened g.id g.game) hopen, ?_,
          shows_serialize (by simp [hopen])⟩
        intro _
        exact ⟨n, by rw [hcounts]; simp [Pending.note], hn⟩

/-! ### Idempotency keys -/

/-- A claim: a stored answer is replayed, with nothing written. -/
theorem safe_claimIdempotency {userId : UserId} {scope : String} {key : Option String}
    {Q : Option Response → Writes → Tables → Prop}
    (hreplay : ∀ r s', SeedsCompleted r s' → Q (some r) .empty s')
    (hrun : ∀ p' s', Writing p' none [] none → Q none p' s') :
    (flipProtocol limited).Safe Q (claimIdempotency userId scope key) .empty s := by
  unfold Sessions.claimIdempotency
  split
  · exact .pure (hrun _ _ writing_empty)
  · rename_i clientKey _
    refine .bind (.insert ?_ ?_)
    · intro s₁ old _ _
      refine .bind (.query fun s₂ hs₂ => ?_)
      rw [Pending.view_empty]
      split
      · rename_i r hr
        obtain ⟨row, hrow, hstored⟩ := Option.bind_eq_some_iff.mp hr
        have hinv : FlipInv limited s₂ := hs₂.inv
        exact .pure (hreplay r s₂ (hinv.stored userId scope clientKey row r hrow hstored))
      · exact .throw _
    · intro s₁ _ _
      exact .pure (hrun _ s₁ (writing_empty.claim userId scope clientKey))

theorem safe_storeIdempotency {userId : UserId} {scope : String} {key : Option String}
    {r : Response} {Q : Unit → Writes → Tables → Prop} (hp : Finished p none r)
    (h : ∀ p' s' answer, (∀ r', answer = some r' → r' = r) → Finished p' answer r → Q () p' s') :
    (flipProtocol limited).Safe Q (storeIdempotency userId scope key r) p s := by
  unfold Sessions.storeIdempotency
  split
  · exact .pure (h p s none (by simp) hp)
  · rename_i clientKey _
    obtain ⟨w, cs, hwriting, hmakes, hcounted, hshows⟩ := hp
    refine safe_updateOrThrow fun s₁ old _ _ => h _ s₁ (some r) (by simp) ?_
    refine ⟨w, cs, hwriting.store userId scope clientKey r, hmakes, ?_, hshows⟩
    rcases w with - | ⟨_, - | _, _⟩
    · trivial
    · exact hcounted
    · exact hcounted

theorem safe_idempotent {userId : UserId} {scope : String} {key : Option String}
    {effects : SessionProg Response}
    (heffects : ∀ p s, Writing p none [] none →
      (flipProtocol limited).Safe (fun r p _ => Finished p none r) effects p s) :
    (flipProtocol limited).Safe (fun r _ s => SeedsCompleted r s)
      (idempotent userId scope key effects) .empty s := by
  refine .transaction (.bind (safe_claimIdempotency ?_ ?_))
  · intro r s₁ hr
    refine .pure fun s₂ hs₂ _ => ?_
    have hkept : SeedsCompleted r s₂ := hs₂.later.keeps (fun _ _ hstep hr => FlipStep.seeds hstep hr) hr
    rw [Pending.view_empty]
    exact ⟨hs₂.inv, ⟨[], rfl, by simp⟩, hkept⟩
  · intro p₁ s₁ hp₁
    refine .bind ((heffects p₁ s₁ hp₁).mono fun r p₂ s₂ hdone => ?_)
    refine .bind (safe_storeIdempotency hdone fun p₃ s₃ answer hanswer hstored => ?_)
    exact .pure fun s₄ hs₄ hok => hstored.commit hanswer hs₄ hok

/-! ### The commands -/

theorem safe_assertCanWager {Γ : Protocol Row BalanceLedger} {Q : Unit → Writes → Tables → Prop}
    (h : Q () p s) : Γ.Safe Q assertCanWager p s := by
  refine .bind (.answer fun env => ?_)
  split
  · exact .throw _
  · exact .pure h

theorem safe_createCommand (params : CreateParams) (key : Option String) :
    (flipProtocol limited).Safe (fun r _ s => SeedsCompleted r s) (createCommand d params key)
      .empty s := by
  have hbody : (flipProtocol limited).Safe (fun r _ s => SeedsCompleted r s)
      (idempotent params.userId "coinflip_create" key do
        let dto ← createFlip d params
        pure (.flip dto)) .empty s :=
    safe_idempotent fun p s hp => .bind ((safe_createFlip hp).mono fun dto p' s' hdone => .pure hdone)
  refine .bind ?_
  unfold assertBetRange
  split
  · exact .throw _
  · exact .pure (.bind (safe_assertCanWager hbody))

/-- The economies are compared, the joiner's row is locked. -/
theorem safe_assertSameEconomy {creatorId joinerId : UserId} {Q : Unit → Writes → Tables → Prop}
    (h : ∀ p' s', Moves Aside p p' [] → (flipProtocol limited).Later s s' → Q () p' s') :
    (flipProtocol limited).Safe Q (assertSameEconomy d creatorId joinerId) p s := by
  unfold assertSameEconomy
  split
  · refine .bind (.query fun s₁ hs₁ => ?_)
    split
    · exact .throw _
    · refine .bind (.bind (.update ?_ ?_))
      · intro s₂ hs₂ _
        refine .bind (.query fun s₃ hs₃ => .pure ?_)
        split
        · exact .pure (h p s₃ (.refl p) ((hs₁.later.trans hs₂.later).trans hs₃.later))
        · exact .throw _
      · intro s₂ old new hs₂ _ _
        refine .bind (.query fun s₃ hs₃ => .pure ?_)
        split
        · exact .pure (h _ s₃ (.write trivial s₂ _)
            ((hs₁.later.trans hs₂.later).trans hs₃.later))
        · exact .throw _
  · exact .pure (h p s (.refl p) .refl)

theorem safe_joinFlip {userId : UserId} {id : FlipId} {reserved : Option ClientSeed}
    {entropy : Option Bytes32} (hp : Writing p none [] none) :
    (flipProtocol limited).Safe (fun dto p' _ => Finished p' none (.flip dto))
      (joinFlip d userId id reserved entropy) p s := by
  refine .bind (.query fun s₁ _ => ?_)
  split
  · exact .throw _
  · rename_i g hg
    split
    · exact .throw _
    · refine .bind (safe_assertSameEconomy fun p₂ s₂ hm hlater => ?_)
      exact safe_resolve_loaded (hp.quiet hm) ((kept_of_load hp hg).later hlater)

theorem safe_reserveSeed {userId : UserId} {id : FlipId}
    {Q : Option ClientSeed × Option Bytes32 → Writes → Tables → Prop} (h : ∀ a s', Q a .empty s') :
    (flipProtocol limited).Safe Q (reserveSeed d userId id) .empty s := by
  refine .bind (.answer fun env => ?_)
  split
  · refine .bind (.query fun s₁ _ => ?_)
    split
    · split
      · refine .bind (.transaction (safe_consumeNonce fun ctx p₂ s₂ hm s₃ hs₃ hok => ?_))
        have hquiet : Finished p₂ none (.expired 0) :=
          finished_quiet (writing_empty.quiet hm) (by intro dto hdto; cases hdto)
        obtain ⟨hinv, hstep, -⟩ := hquiet.commit (by simp) hs₃ hok
        exact ⟨hinv, hstep, .bind (.answer fun env => .pure (h _ _))⟩
      · exact .pure (h _ s₁)
    · exact .pure (h _ s₁)
  · exact .pure (h _ s)

theorem safe_joinCommand (userId : UserId) (id : FlipId) (key : Option String) :
    (flipProtocol limited).Safe (fun r _ s => SeedsCompleted r s) (joinCommand d userId id key)
      .empty s := by
  refine .bind (safe_assertCanWager (.bind (safe_reserveSeed fun a s₁ => ?_)))
  exact safe_idempotent fun p s hp =>
    .bind ((safe_joinFlip hp).mono fun dto p' s' hdone => .pure hdone)

theorem safe_playHouse (userId : UserId) (id : FlipId) :
    (flipProtocol limited).Safe (fun r _ s => SeedsCompleted r s) (playHouse d userId id) .empty s := by
  refine safe_transaction (.bind (.query fun s₁ _ => ?_)) fun r s' hr => hr
  split
  · exact .throw _
  · rename_i g hg
    split
    · exact .throw _
    · exact .bind ((safe_resolve_loaded writing_empty (kept_of_load writing_empty hg)).mono
        fun dto p' s' hdone => .pure hdone)

/-- A flip that is cancelled, with the refund. -/
def CancelledIn (p : Writes) (id : FlipId) : Prop := ∃ game now,
  Writing p (some (id, some game, (Change.cancelled id game now).after))
    (Change.cancelled id game now).postings none ∧ game.status = .open

theorem safe_cancelOpenFlip {id : FlipId} {Q : Bool → Writes → Tables → Prop}
    (hp : Writing p none [] none) (hmiss : ∀ s', Q false p s')
    (hhit : ∀ p' s', CancelledIn p' id → Q true p' s') :
    (flipProtocol limited).Safe Q (cancelOpenFlip id) p s := by
  refine .bind (.answer fun env => .bind (.update ?_ ?_))
  · exact fun s₁ _ _ => .pure (hmiss s₁)
  · intro s₁ old new hs₁ hold hnew
    split at hnew
    · rename_i hopen
      cases hnew
      have hcancelled := hp.write_seen hs₁.fits hold (Change.cancelled id old env.now).after
      refine .bind (.query fun s₂ _ => ?_)
      split
      · exact .throw _
      · rename_i game hgame
        have hown := congrFun (hcancelled.view_some (s := s₂)) id
        rw [Function.update_self] at hown
        obtain rfl := Option.some.inj (hown.symm.trans hgame)
        refine .bind (safe_balance fun a p₃ s₃ hm => .pure (hhit p₃ s₃ ⟨old, env.now, ?_, hopen⟩))
        exact hcancelled.moves hm
    · cases hnew

theorem CancelledIn.finished {id : FlipId} {r : Response} (h : CancelledIn p id)
    (hr : ∀ w, Shows w r) : Finished p none r := by
  obtain ⟨game, now, hp, hopen⟩ := h
  have hclosed : (Change.cancelled id game now).after.status ≠ .open := Change.after_terminal rfl
  exact ⟨some (id, some game, (Change.cancelled id game now).after), [.cancelled id game now],
    by simpa using hp, makes_one (.cancelled id game now) hopen, hclosed, hr _⟩

theorem safe_cancel (userId : UserId) (id : FlipId) :
    (flipProtocol limited).Safe (fun r _ s => SeedsCompleted r s) (cancel userId id) .empty s := by
  refine safe_transaction (.bind (.query fun s₁ _ => ?_)) fun r s' hr => hr
  split
  · exact .throw _
  · split
    · exact .throw _
    · refine .bind (safe_cancelOpenFlip writing_empty (fun s' => .throw _) fun p₂ s₂ hdone => ?_)
      refine .bind (safe_includeFlip fun s₃ g' _ hg' => .pure (hdone.finished fun w => ?_))
      refine shows_serialize ?_
      obtain ⟨_, _, hp, -⟩ := hdone
      obtain ⟨-, hgame⟩ := of_loadFlip hg'
      rw [hp.view_some, Function.update_self] at hgame
      rw [← Option.some.inj hgame]
      simp [Change.after]

theorem safe_cancelEach {ids : List FlipId} {Q : Nat → Writes → Tables → Prop}
    (h : ∀ n s', Q n .empty s') :
    (flipProtocol limited).Safe Q (cancelEach ids) .empty s := by
  induction ids generalizing s Q with
  | nil => exact .pure (h 0 s)
  | cons id rest ih =>
    have hshows : ∀ w, Shows w (.expired 0) := fun w dto hdto => by cases hdto
    refine .bind (.transaction (safe_cancelOpenFlip writing_empty ?_ ?_))
    · intro s₁ s₂ hs₂ hok
      have hquiet : Finished .empty none (.expired 0) := finished_quiet writing_empty (hshows none)
      obtain ⟨hinv, hstep, -⟩ := hquiet.commit (by simp) hs₂ hok
      exact ⟨hinv, hstep, .bind (ih fun n s' => .pure (h _ s'))⟩
    · intro p₁ s₁ hdone s₂ hs₂ hok
      obtain ⟨hinv, hstep, -⟩ := (hdone.finished hshows).commit (by simp) hs₂ hok
      exact ⟨hinv, hstep, .bind (ih fun n s' => .pure (h _ s'))⟩

/-- What a list shows. -/
theorem seeds_findFlips {P : CoinflipGame → Bool} {flips : List LoadedFlip}
    (hsub : ∀ g ∈ flips, g ∈ findFlips P s) : SeedsCompleted (.flips (flips.map serialize)) s := by
  intro dto hdto hseed
  obtain ⟨g, hg, rfl⟩ := List.mem_map.mp hdto
  obtain ⟨k, -, hk⟩ := List.mem_filterMap.mp (hsub g hg)
  cases k with
  | flip id =>
    obtain ⟨hid, hgame⟩ := of_loadFlip (Option.filter_eq_some_iff.mp hk).1
    refine ⟨g.game, ?_, ?_⟩
    · show flipsOf s g.id = _
      rw [hid, hgame]
    · by_contra hother
      simp [serialize, hother] at hseed
  | _ => cases hk

end Commands

/-- Every command keeps the protocol, and shows the seeds of completed flips
only. -/
theorem safe_body (call : Call) :
    (flipProtocol limited).Safe (fun r _ s => SeedsCompleted r s) (body d call) .empty s := by
  have hexpired : ∀ n s, SeedsCompleted (.expired n) s := fun n s dto hdto => by cases hdto
  cases call with
  | create params key => exact safe_createCommand params key
  | join userId id key => exact safe_joinCommand userId id key
  | playHouse userId id => exact safe_playHouse userId id
  | cancel userId id => exact safe_cancel userId id
  | expireStale =>
    exact .bind (.answer fun env => .bind (.query fun s₁ _ => .bind (safe_cancelEach fun n s' =>
      .pure (hexpired n s'))))
  | cancelOpenFlips =>
    exact .bind (.query fun s₁ _ => .bind (safe_cancelEach fun n s' => .pure (hexpired n s')))
  | listOpen =>
    refine .bind (.answer fun env => .query fun s₁ _ => ?_)
    rw [Pending.view_empty]
    exact seeds_findFlips fun g hg => List.mem_mergeSort.mp (List.mem_of_mem_take hg)
  | listRecent =>
    refine .query fun s₁ _ => ?_
    rw [Pending.view_empty]
    exact seeds_findFlips fun g hg => List.mem_mergeSort.mp (List.mem_of_mem_take hg)
  | listMine =>
    refine .query fun s₁ _ => ?_
    rw [Pending.view_empty]
    exact seeds_findFlips fun g hg => List.mem_mergeSort.mp hg

end Scadium.Games.Coinflip
