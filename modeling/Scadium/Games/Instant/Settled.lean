/-
Scadium.Games.Instant.Settled — a stateful round settles once, at the
multiplier of its picks, and shows nothing but what they reveal.

`Record` is what the log, the ledger and the replies say about one round, and
`RoundOk` what the record of a round is: while it is active, picks that the
field let through and no money; after that the same with one move more, the
one that settled it. A step adds to the record of one round at most.
-/
import Scadium.Games.Instant.Rounds
import Scadium.Games.Instant.Rules
import Scadium.Prisma.Ledger

namespace Scadium.Games.Instant

open Scadium.Fair Scadium.Fairness Scadium.Lib Scadium.Prisma

variable {Seed Digest : Type} {src : SeedSource Seed Digest}

/-! ## Records -/

/-- The ledger rows that name a round. -/
def paidOn (db : Db) (id : RoundId) : List Posting :=
  (db.ledger.map (·.posting)).filter fun p => p.refType = "InstantRound" ∧ p.refId = some id

/-- The stakes of the starts: rows of the rounds that name none. -/
def stakesOn (db : Db) : List Posting :=
  (db.ledger.map (·.posting)).filter fun p => p.refType = "InstantRound" ∧ p.refId = none

structure Record (Digest : Type) where
  moves : List Move
  payouts : List Posting
  settles : List (RoundSettleResult Digest)

def Rounds.record (s : Rounds src) (id : RoundId) : Record Digest :=
  ⟨s.movesOf id, paidOn s.db id, s.settles.filter fun r => r.roundId = id⟩

def stakePosting (r : Round Seed Digest) : Posting :=
  (betMeta r.gameType).posting r.userId (-(r.stakeLamports : Int))

/-- What a settle credits. -/
def settlePostings (r : Round Seed Digest) (payout : Nat) : List Posting :=
  if 0 < payout then [(settleMeta r.gameType r.id).posting r.userId payout] else []

/-- The move `last` ends the round after the picks `ps`, won or not, at the
multiplier `x`. -/
def Ends (m : Multipliers) (f : Field) (ps : List Pick) (last : Move) (won : Bool) (x : ℚ) : Prop :=
  (last = .cashout f.game ∧ ps ≠ [] ∧ won = true ∧ x = f.multiplier m ps) ∨
  ∃ p, last = .pick p ∧ p.game = f.game ∧ (f.game = .mines → p ∉ ps) ∧
    ((f.safe ps.length p = false ∧ won = false ∧ x = 0) ∨
    (f.safe ps.length p = true ∧ f.finishes (ps.length + 1) ∧ won = true ∧
      x = f.multiplier m (p :: ps)))

/-- A round in progress, by its record. -/
def Active (m : Multipliers) (h : Record Digest) (r : Round Seed Digest) (f : Field)
    (ps : List Pick) : Prop :=
  h = ⟨ps.map .pick, [], []⟩ ∧ replay m f ps = some (r.stateJson, r.multiplier)

/-- A round that is over, by its record. -/
def Over (m : Multipliers) (h : Record Digest) (r : Round Seed Digest) (f : Field)
    (ps : List Pick) : Prop :=
  r.stateJson.secret = .secret f ∧ f.Survived ps ∧
    ∃ last won result, Ends m f ps last won r.multiplier ∧
      result.payoutLamports = payoutLamports r.stakeLamports won r.multiplier ∧
      h = ⟨last :: ps.map .pick, settlePostings r result.payoutLamports, [result]⟩

def RoundOk (m : Multipliers) (h : Record Digest) (r : Round Seed Digest) : Prop :=
  ∃ f ps, f.game = r.gameType ∧
    ((r.status = .active ∧ Active m h r f ps) ∨ (r.status ≠ .active ∧ Over m h r f ps))

/-- The view is the same for every field that shows the same where the picks
look; the picks are those committed when it was taken. -/
def Masked (m : Multipliers) (s : Rounds src) (v : RoundView Digest) : Prop :=
  ∃ r ∈ s.base.rounds, ∃ f ps, r.stateJson.secret = .secret f ∧
    ps.map .pick <:+ s.movesOf r.id ∧
    ∀ g, Agrees f g ps → ∃ st x, replay m g ps = some (st, x) ∧
      viewOf { r with status := .active, multiplier := x, stateJson := st } = v

/-- Every start that has passed the gate builds its game's field. -/
def CallsOk (code : Code Seed) (base : State src Json) : Prop :=
  ∀ call ∈ base.starts, ∃ params : StartParams,
    call.gameType = params.game ∧ call.build = params.build code.floatsFromHmac

structure RoundsInv (code : Code Seed) (db₀ : Db) (s : Rounds src) : Prop where
  posted : Posts (s.db.ledger.map (·.posting)) db₀ s.db
  calls : CallsOk code s.base
  ids : (s.base.rounds.map (·.id)).Nodup
  oneActive : ∀ r ∈ s.base.rounds, ∀ r' ∈ s.base.rounds, r.status = .active → r'.status = .active →
    r.userId = r'.userId → r.gameType = r'.gameType → r = r'
  stakes : (stakesOn s.db).reverse = s.base.rounds.map stakePosting
  rounds : ∀ r ∈ s.base.rounds, RoundOk code.multipliers (s.record r.id) r
  fresh : ∀ id, id ∉ s.base.rounds.map (·.id) → s.record id = ⟨[], [], []⟩
  masked : ∀ v ∈ s.views, Masked code.multipliers s v

variable {code : Code Seed} {db₀ db db' : Db} {s s' : Rounds src} {r r' : Round Seed Digest}
variable {m : Multipliers} {f g : Field} {ps : List Pick} {id : RoundId} {qs : List Posting}

/-! ## Postings -/

theorem paidOn_posts (h : Posts qs db db') (id : RoundId) :
    paidOn db' id = qs.filter (fun p => p.refType = "InstantRound" ∧ p.refId = some id) ++
      paidOn db id := by
  rw [paidOn, h.ledger, List.filter_append]
  rfl

theorem stakesOn_posts (h : Posts qs db db') :
    stakesOn db' = qs.filter (fun p => p.refType = "InstantRound" ∧ p.refId = none) ++
      stakesOn db := by
  rw [stakesOn, h.ledger, List.filter_append]
  rfl

theorem posts_more (h : Posts (db.ledger.map (·.posting)) db₀ db) (hps : Posts qs db db') :
    Posts (db'.ledger.map (·.posting)) db₀ db' := by
  rw [hps.ledger]
  exact h.trans hps

theorem posts_moveBalance {u : UserId} {delta : Int} {info : DeltaMeta}
    (h : Committed.moveBalance db u delta info = .ok db') :
    Posts [info.posting u delta] db db' := by
  obtain ⟨_, hu, rfl⟩ := Committed.moveBalance_ok h
  exact Posts.move hu delta info

theorem recordSettle_quiet {u : UserId} {stake : Nat} {profit : Int}
    (h : recordSettle db u stake profit = .ok db') : Quiet db db' := by
  obtain ⟨⟨_, _⟩, hupd, hret⟩ := Committed.bind_ok.mp h
  cases hret
  obtain ⟨user, hu, rfl⟩ := Db.updateUser_ok hupd
  have hrow : Quiet db { db with
      users := Function.update db.users u (some (recordWager stake profit user)) } :=
    @Posts.of_user db _ user u (recordWager stake profit) hu (fun _ => rfl) rfl
  exact hrow.trans_quiet (raiseBiggestWin_quiet _ u profit)

/-- Rows of other parts of the program. -/
theorem paidOn_other (h : Posts qs db db') (hqs : ∀ p ∈ qs, p.refType ≠ "InstantRound")
    (id : RoundId) : paidOn db' id = paidOn db id := by
  rw [paidOn_posts h, List.filter_eq_nil_iff.mpr, List.nil_append]
  intro p hp
  simp [hqs p hp]

theorem stakesOn_other (h : Posts qs db db') (hqs : ∀ p ∈ qs, p.refType ≠ "InstantRound") :
    stakesOn db' = stakesOn db := by
  rw [stakesOn_posts h, List.filter_eq_nil_iff.mpr, List.nil_append]
  intro p hp
  simp [hqs p hp]

/-- The row of a start names no round. -/
theorem paidOn_stake {game : StatefulGame} {u : UserId} {delta : Int}
    (h : Posts [(betMeta game).posting u delta] db db') (id : RoundId) :
    paidOn db' id = paidOn db id := by
  rw [paidOn_posts h]
  simp [DeltaMeta.posting, betMeta]

theorem stakesOn_stake {game : StatefulGame} {u : UserId} {delta : Int}
    (h : Posts [(betMeta game).posting u delta] db db') :
    stakesOn db' = (betMeta game).posting u delta :: stakesOn db := by
  rw [stakesOn_posts h]
  simp [DeltaMeta.posting, betMeta]

/-- The row of a settle names its round. -/
theorem paidOn_settle {payout : Nat} (h : Posts (settlePostings r payout) db db') (id : RoundId) :
    paidOn db' id = (if id = r.id then settlePostings r payout else []) ++ paidOn db id := by
  rw [paidOn_posts h]
  unfold settlePostings
  split
  · by_cases hid : id = r.id
    · simp [DeltaMeta.posting, settleMeta, hid]
    · simp [DeltaMeta.posting, settleMeta, hid, Ne.symm hid]
  · simp

theorem stakesOn_settle {payout : Nat} (h : Posts (settlePostings r payout) db db') :
    stakesOn db' = stakesOn db := by
  rw [stakesOn_posts h]
  unfold settlePostings
  split
  · simp [DeltaMeta.posting, settleMeta]
  · simp

/-! ## Views -/

/-- `r'` is `r` with other progress. -/
def Continues (r r' : Round Seed Digest) : Prop :=
  r' = { r with
    status := r'.status
    multiplier := r'.multiplier
    stateJson := ⟨r.stateJson.secret, r'.stateJson.visible⟩ }

theorem Continues.refl (r : Round Seed Digest) : Continues r r := rfl

theorem Masked.mono {v : RoundView Digest} (h : Masked m s v)
    (hrounds : ∀ r ∈ s.base.rounds, ∃ r' ∈ s'.base.rounds, Continues r r')
    (hmoves : ∀ id, s.movesOf id <:+ s'.movesOf id) : Masked m s' v := by
  obtain ⟨r, hr, f, ps, hsecret, hps, hall⟩ := h
  obtain ⟨r', hr', hcont⟩ := hrounds r hr
  have hid : r'.id = r.id := by rw [hcont]
  have hsec : r'.stateJson.secret = r.stateJson.secret := by rw [hcont]
  refine ⟨r', hr', f, ps, hsec.trans hsecret, ?_, ?_⟩
  · rw [hid]
    exact hps.trans (hmoves r.id)
  · intro g hg
    obtain ⟨st, x, hreplay, hview⟩ := hall g hg
    refine ⟨st, x, hreplay, ?_⟩
    rw [← hview, hcont]

/-- The view of a round in progress. -/
theorem Active.masked (hr : r ∈ s.base.rounds) (hstatus : r.status = .active)
    (h : Active m (s.record r.id) r f ps) : Masked m s (viewOf r) := by
  obtain ⟨hrec, hreplay⟩ := h
  obtain ⟨-, hst, -⟩ := replay_spec hreplay
  have hmoves : s.movesOf r.id = ps.map .pick := congrArg Record.moves hrec
  refine ⟨r, hr, f, ps, by rw [hst]; rfl, by rw [hmoves], ?_⟩
  intro g hg
  refine ⟨_, _, replay_agrees hg hreplay, ?_⟩
  rw [← hstatus]
  rfl

/-! ## What the calls do -/

theorem callsOk_setStage {base : State src Json} {i : Nat} {call : StartCall Seed Digest Json}
    {stage : StartStage Seed Digest} (h : CallsOk code base) (hcall : base.starts[i]? = some call) :
    CallsOk code (base.setStage i call stage) := by
  intro c hc
  rcases List.mem_or_eq_of_mem_set hc with hold | rfl
  · exact h c hold
  · exact h call (List.mem_of_getElem? hcall)

/-- Steps without money leave the rounds as they are. -/
theorem event_keeps {a : Action} {e : Event Seed Digest Json} {base base' : State src Json}
    (ha : a.event code = some e) (h : step code.games base e = some base')
    (hcalls : CallsOk code base) : base'.rounds = base.rounds ∧ CallsOk code base' := by
  cases a with
  | start userId params =>
    cases ha
    simp only [step] at h
    split at h
    · cases h
    · cases h
      refine ⟨rfl, ?_⟩
      intro call hc
      rcases List.mem_append.mp hc with hold | hnew
      · exact hcalls call hold
      · rw [List.mem_singleton.mp hnew]
        exact ⟨params, rfl, rfl⟩
  | reserve | offchain | entropy =>
    cases ha
    simp only [step] at h
    split at h
    · next call hcall =>
      split at h
      · cases h
        exact ⟨rfl, callsOk_setStage hcalls hcall⟩
      · cases h
    · cases h
  | fail =>
    cases ha
    simp only [step] at h
    split at h
    · next call hcall =>
      cases h
      exact ⟨rfl, callsOk_setStage hcalls hcall⟩
    · cases h
  | getOrCreateActivePair | consumeNonce | setClientSeed =>
    cases ha
    cases h
    exact ⟨rfl, hcalls⟩
  | rotateServerSeed =>
    cases ha
    simp only [step] at h
    split at h
    · cases h
      exact ⟨rfl, hcalls⟩
    · cases h
      exact ⟨rfl, hcalls⟩
  | startTx | move | active | moveBalance => cases ha

/-- What a start that went through has done. -/
structure Opened (code : Code Seed) (s s' : Rounds src) (call : StartCall Seed Digest Json)
    (r : Round Seed Digest) : Prop where
  free : s.base.inProgress call.userId call.gameType = false
  rounds : s'.base.rounds = s.base.rounds ++ [r]
  starts : s'.base.starts = s.base.starts
  posts : Posts [stakePosting r] s.db s'.db
  moves : s'.moves = s.moves
  settles : s'.settles = s.settles
  views : s'.views = viewOf r :: s.views
  userId : r.userId = call.userId
  gameType : r.gameType = call.gameType
  status : r.status = .active
  built : ∃ seed, r.stateJson = ⟨(call.build seed).secret, (call.build seed).visible⟩ ∧
    r.multiplier = (call.build seed).multiplier

theorem openedRound_built (games : GameCode Seed Json) (call : StartCall Seed Digest Json)
    (ctx : SeedContext Seed Digest) (e : Option Bytes32) (id : RoundId) :
    ∃ seed, (openedRound games call ctx e id).stateJson =
        ⟨(call.build seed).secret, (call.build seed).visible⟩ ∧
      (openedRound games call ctx e id).multiplier = (call.build seed).multiplier := by
  refine ⟨{ deriveSeedContext games ctx e call.gameParams with
    serverSeedHash := ctx.serverSeedHash }, ?_, ?_⟩
  · rfl
  · rfl

theorem startRound_ok {call : StartCall Seed Digest Json} {e : Option Bytes32}
    {reserved : Option (SeedContext Seed Digest)}
    (h : startRound code s call reserved e id = .ok s') :
    ∃ r, r.id = id ∧ Opened code s s' call r := by
  obtain ⟨_, hfree, h⟩ := Committed.bind_ok.mp h
  obtain ⟨_, hmove, h⟩ := Committed.bind_ok.mp h
  have hfree' := Committed.ensure_ok.mp hfree
  refine ⟨openedRound code.games call
    (reserved.getD (s.base.store.consumeNonce call.userId).1) e id, rfl, ?_⟩
  have hbuilt := openedRound_built code.games call
    (reserved.getD (s.base.store.consumeNonce call.userId).1) e id
  simp only [startTx, hfree', Bool.false_eq_true, if_false, Bool.true_eq_false] at h
  cases reserved with
  | none | some =>
    cases h
    exact
      { free := hfree', rounds := rfl, starts := rfl, posts := posts_moveBalance hmove
        moves := rfl, settles := rfl, views := rfl, userId := rfl, gameType := rfl, status := rfl
        built := hbuilt }

/-- What a move that went through has done to its round. -/
structure Moved (code : Code Seed) (s s' : Rounds src) (move : Move) (r : Round Seed Digest) :
    Prop where
  mem : r ∈ s.base.rounds
  active : r.status = .active
  game : r.gameType = move.game
  moves : s'.moves = (r.id, move) :: s.moves
  starts : s'.base.starts = s.base.starts
  result : ∃ step, move.apply code.multipliers r.stateJson = .ok step ∧
    s'.base.rounds = s.base.rounds.map
      (fun r' => if r'.id = r.id then r'.advance code.games step else r') ∧
    ((∃ state x, step = .goesOn state x ∧ s'.db = s.db ∧ s'.settles = s.settles ∧
        s'.views = viewOf (r.advance code.games step) :: s.views) ∨
    (∃ won x json, step = .settle won x json ∧ s'.views = s.views ∧ ∃ result,
        result.roundId = r.id ∧
        result.payoutLamports = payoutLamports r.stakeLamports won x ∧
        s'.settles = result :: s.settles ∧
        Posts (settlePostings r result.payoutLamports) s.db s'.db))

theorem findActive_ok {userId : UserId} {game : StatefulGame}
    (h : findActive s userId id game = .ok r) :
    r ∈ s.base.rounds ∧ r.id = id ∧ r.userId = userId ∧ r.gameType = game ∧ r.status = .active := by
  obtain ⟨_, hfind, h⟩ := Committed.bind_ok.mp h
  obtain ⟨_, hmine, h⟩ := Committed.bind_ok.mp h
  obtain ⟨_, hactive, h⟩ := Committed.bind_ok.mp h
  cases h
  have hrow := Committed.orThrow_ok.mp hfind
  have hids := Committed.ensure_ok.mp hmine
  exact ⟨List.mem_of_find?_eq_some hrow, by simpa using List.find?_some hrow, hids.1, hids.2,
    Committed.ensure_ok.mp hactive⟩

theorem creditPayout_posts {payout : Nat} (h : creditPayout db r payout = .ok db') :
    Posts (settlePostings r payout) db db' := by
  unfold creditPayout at h
  unfold settlePostings
  split at h
  · next hpos =>
    rw [if_pos hpos]
    exact posts_moveBalance h
  · next hpos =>
    cases h
    rw [if_neg hpos]
    exact Posts.refl db

theorem settleRound_ok {move : Move} {won : Bool} {x : ℚ} {json : Json} {betId : BetId}
    (h : settleRound code s move r won x json betId = .ok s') :
    s'.base = s.updateRound code r.id (.settle won x json) ∧
    s'.moves = (r.id, move) :: s.moves ∧ s'.views = s.views ∧ ∃ result,
      result.roundId = r.id ∧ result.payoutLamports = payoutLamports r.stakeLamports won x ∧
      s'.settles = result :: s.settles ∧
      Posts (settlePostings r result.payoutLamports) s.db s'.db := by
  obtain ⟨_, hpay, h⟩ := Committed.bind_ok.mp h
  obtain ⟨_, hrecord, h⟩ := Committed.bind_ok.mp h
  obtain ⟨_, -, h⟩ := Committed.bind_ok.mp h
  cases h
  refine ⟨rfl, rfl, rfl, _, rfl, rfl, rfl, ?_⟩
  have hquiet := recordSettle_quiet hrecord
  refine Posts.trans_quiet ?_ hquiet
  exact creditPayout_posts hpay

theorem playMove_ok {userId : UserId} {move : Move} {betId : BetId}
    (h : playMove code s userId id move betId = .ok s') : ∃ r, Moved code s s' move r := by
  obtain ⟨_, -, h⟩ := Committed.bind_ok.mp h
  obtain ⟨r, hfind, h⟩ := Committed.bind_ok.mp h
  obtain ⟨step, happly, h⟩ := Committed.bind_ok.mp h
  obtain ⟨hr, -, -, hgame, hactive⟩ := findActive_ok hfind
  refine ⟨r, ?_⟩
  cases step with
  | goesOn state x =>
    cases h
    exact
      { mem := hr, active := hactive, game := hgame, moves := rfl, starts := rfl
        result := ⟨_, happly, rfl, Or.inl ⟨state, x, rfl, rfl, rfl, rfl⟩⟩ }
  | settle won x json =>
    obtain ⟨hbase, hmoves, hviews, hsettle⟩ := settleRound_ok h
    exact
      { mem := hr, active := hactive, game := hgame, moves := hmoves, starts := by rw [hbase]; rfl
        result := ⟨_, happly, by rw [hbase]; rfl,
          Or.inr ⟨won, x, json, rfl, hviews, hsettle⟩⟩ }

/-! ## Every step -/

/-- A step that leaves the rounds and their records alone. -/
theorem RoundsInv.quiet (h : RoundsInv code db₀ s) (hrounds : s'.base.rounds = s.base.rounds)
    (hcalls : CallsOk code s'.base) (hmoves : s'.moves = s.moves)
    (hsettles : s'.settles = s.settles) (hposts : Posts qs s.db s'.db)
    (hqs : ∀ p ∈ qs, p.refType ≠ "InstantRound")
    (hviews : ∀ v ∈ s'.views, Masked code.multipliers s v) : RoundsInv code db₀ s' := by
  have hrecord : ∀ id, s'.record id = s.record id := by
    intro id
    simp only [Rounds.record, Rounds.movesOf, hmoves, hsettles, paidOn_other hposts hqs]
  refine
    { posted := posts_more h.posted hposts
      calls := hcalls
      ids := by rw [hrounds]; exact h.ids
      oneActive := by rw [hrounds]; exact h.oneActive
      stakes := by rw [hrounds, stakesOn_other hposts hqs]; exact h.stakes
      rounds := ?_
      fresh := ?_
      masked := ?_ }
  · intro r hr
    rw [hrounds] at hr
    rw [hrecord]
    exact h.rounds r hr
  · intro id hid
    rw [hrounds] at hid
    rw [hrecord]
    exact h.fresh id hid
  · intro v hv
    refine (hviews v hv).mono ?_ ?_
    · intro r hr
      rw [hrounds]
      exact ⟨r, hr, Continues.refl r⟩
    · intro id
      simp only [Rounds.movesOf, hmoves]
      exact List.suffix_refl _

/-- The field of a start is the one its game builds, with nothing picked. -/
theorem Opened.built_field {call : StartCall Seed Digest Json} (h : Opened code s s' call r)
    (hcalls : CallsOk code s.base) (hcall : call ∈ s.base.starts) :
    ∃ f : Field, f.game = r.gameType ∧
      replay code.multipliers f [] = some (r.stateJson, r.multiplier) := by
  obtain ⟨params, hgame, hbuild⟩ := hcalls call hcall
  obtain ⟨seed, hstate, hmult⟩ := h.built
  refine ⟨params.field code.floatsFromHmac seed, ?_, ?_⟩
  · rw [h.gameType, hgame]
    cases params with
    | mines | hilo | tower => rfl
  · rw [hstate, hmult, hbuild]
    rfl

theorem RoundsInv.opened {call : StartCall Seed Digest Json} (h : RoundsInv code db₀ s)
    (ho : Opened code s s' call r) (hcall : call ∈ s.base.starts)
    (hid : r.id ∉ s.base.rounds.map (·.id)) : RoundsInv code db₀ s' := by
  have hrecord : ∀ id, s'.record id = s.record id := by
    intro id
    simp only [Rounds.record, Rounds.movesOf, ho.moves, ho.settles, paidOn_stake ho.posts]
  have hmem : ∀ r' ∈ s'.base.rounds, r' ∈ s.base.rounds ∨ r' = r := by
    intro r' hr'
    rw [ho.rounds] at hr'
    simpa using hr'
  have hother : ∀ r' ∈ s.base.rounds, r'.status = .active → r'.userId = r.userId →
      r'.gameType ≠ r.gameType := by
    intro r' hr' hactive huser hgame
    have hfree := ho.free
    simp only [State.inProgress, List.any_eq_false] at hfree
    apply hfree r' hr'
    simp [hactive, huser, hgame, ho.userId, ho.gameType]
  obtain ⟨f, hgame, hreplay⟩ := ho.built_field h.calls hcall
  have hactive : Active code.multipliers (s'.record r.id) r f [] := by
    rw [hrecord, h.fresh r.id hid]
    exact ⟨rfl, hreplay⟩
  refine
    { posted := posts_more h.posted ho.posts
      calls := ?_
      ids := ?_
      oneActive := ?_
      stakes := ?_
      rounds := ?_
      fresh := ?_
      masked := ?_ }
  · intro c hc
    rw [ho.starts] at hc
    exact h.calls c hc
  · rw [ho.rounds, List.map_append]
    exact List.nodup_append.mpr ⟨h.ids, by simp, by
      intro a ha b hb hab
      rw [List.map_singleton, List.mem_singleton] at hb
      exact hid (hb ▸ hab ▸ ha)⟩
  · intro r₁ h₁ r₂ h₂ ha₁ ha₂ huser hsame
    rcases hmem r₁ h₁ with hold₁ | rfl
    · rcases hmem r₂ h₂ with hold₂ | rfl
      · exact h.oneActive r₁ hold₁ r₂ hold₂ ha₁ ha₂ huser hsame
      · exact absurd hsame (hother r₁ hold₁ ha₁ huser)
    · rcases hmem r₂ h₂ with hold₂ | rfl
      · exact absurd hsame.symm (hother r₂ hold₂ ha₂ huser.symm)
      · rfl
  · rw [stakesOn_stake ho.posts, List.reverse_cons, h.stakes, ho.rounds, List.map_append]
    rfl
  · intro r' hr'
    rcases hmem r' hr' with hold | rfl
    · rw [hrecord]
      exact h.rounds r' hold
    · exact ⟨f, [], hgame, Or.inl ⟨ho.status, hactive⟩⟩
  · intro id hnew
    rw [hrecord]
    refine h.fresh id fun hold => hnew ?_
    rw [ho.rounds, List.map_append]
    exact List.mem_append_left _ hold
  · intro v hv
    rw [ho.views] at hv
    rcases List.mem_cons.mp hv with rfl | hv
    · exact hactive.masked (by rw [ho.rounds]; simp) ho.status
    · refine (h.masked v hv).mono ?_ ?_
      · intro r' hr'
        exact ⟨r', by rw [ho.rounds]; exact List.mem_append_left _ hr', Continues.refl r'⟩
      · intro id
        simp only [Rounds.movesOf, ho.moves]
        exact List.suffix_refl _

/-- A move of a round in progress, by the rules. -/
theorem ends_of_apply {move : Move} {won : Bool} {x : ℚ} {json : Json}
    (hs : f.Survived ps) (h : move.apply m (f.after m ps) = .ok (.settle won x json)) :
    Ends m f ps move won x := by
  cases move with
  | pick p =>
    obtain ⟨hgame, hnew, hcase⟩ := apply_pick hs h
    refine Or.inr ⟨p, rfl, hgame, hnew, ?_⟩
    rcases hcase with ⟨hsafe, json', heq⟩ | ⟨hsafe, hfin, json', heq⟩ | ⟨-, -, heq⟩
    · cases heq
      exact Or.inl ⟨hsafe, rfl, rfl⟩
    · cases heq
      exact Or.inr ⟨hsafe, hfin, rfl, rfl⟩
    · cases heq
  | cashout =>
    obtain ⟨rfl, hps, _, heq⟩ := apply_cashout h
    cases heq
    exact Or.inl ⟨rfl, hps, rfl, rfl⟩

/-- Only a pick goes on. -/
theorem pick_of_goesOn {move : Move} {state : RoundState Json} {x : ℚ}
    (h : move.apply m (f.after m ps) = .ok (.goesOn state x)) : ∃ p, move = .pick p := by
  cases move with
  | pick p => exact ⟨p, rfl⟩
  | cashout =>
    obtain ⟨-, -, _, heq⟩ := apply_cashout h
    cases heq

theorem advance_continues {step : StepResult Json} (hsecret : ∀ state x,
    step = .goesOn state x → state.secret = r.stateJson.secret) :
    Continues r (r.advance code.games step) := by
  cases step with
  | goesOn state x =>
    show ({ r with multiplier := x, stateJson := state } : Round Seed Digest) = _
    rw [← hsecret state x rfl]
    rfl
  | settle => rfl

theorem advance_settled_inactive {won : Bool} {x : ℚ} {json : Json} :
    (r.advance code.games (.settle won x json)).status ≠ .active := by
  simp only [InstantRound.advance]
  split
  · exact nofun
  · exact nofun

/-- The rounds other than the one that moved, and that one. -/
theorem mem_moved_cases {step : StepResult Json}
    (hids : (s.base.rounds.map (·.id)).Nodup) (hr : r ∈ s.base.rounds)
    (hrounds : s'.base.rounds = s.base.rounds.map
      (fun r' => if r'.id = r.id then r'.advance code.games step else r'))
    (hr' : r' ∈ s'.base.rounds) :
    (r' ∈ s.base.rounds ∧ r'.id ≠ r.id) ∨ r' = r.advance code.games step := by
  rw [hrounds] at hr'
  obtain ⟨q, hq, rfl⟩ := List.mem_map.mp hr'
  by_cases hid : q.id = r.id
  · have hsame : q = r := List.inj_on_of_nodup_map hids hq hr hid
    rw [if_pos hid, hsame]
    exact Or.inr rfl
  · rw [if_neg hid]
    exact Or.inl ⟨hq, hid⟩

@[simp] theorem advance_id (games : GameCode Seed Json) (r : Round Seed Digest)
    (step : StepResult Json) : (r.advance games step).id = r.id := by
  cases step with
  | goesOn => rfl
  | settle => rfl

@[simp] theorem advance_stakePosting (games : GameCode Seed Json) (r : Round Seed Digest)
    (step : StepResult Json) : stakePosting (r.advance games step) = stakePosting r := by
  cases step with
  | goesOn => rfl
  | settle => rfl

/-- One active round moves; the rest and their records stay. -/
theorem RoundsInv.moved {move : Move} {step : StepResult Json} (h : RoundsInv code db₀ s)
    (hm : Moved code s s' move r)
    (hrounds : s'.base.rounds = s.base.rounds.map
      (fun r' => if r'.id = r.id then r'.advance code.games step else r'))
    (hcont : Continues r (r.advance code.games step)) (hposts : Posts qs s.db s'.db)
    (hstakes : stakesOn s'.db = stakesOn s.db)
    (hrecord : ∀ id, id ≠ r.id → s'.record id = s.record id)
    (hok : RoundOk code.multipliers (s'.record r.id) (r.advance code.games step))
    (hviews : ∀ v ∈ s'.views, v ∈ s.views ∨
      v = viewOf (r.advance code.games step) ∧ (r.advance code.games step).status = .active) :
    RoundsInv code db₀ s' := by
  have hmem : ∀ r' ∈ s'.base.rounds,
      (r' ∈ s.base.rounds ∧ r'.id ≠ r.id) ∨ r' = r.advance code.games step :=
    fun r' hr' => mem_moved_cases h.ids hm.mem hrounds hr'
  have hnew : r.advance code.games step ∈ s'.base.rounds := by
    rw [hrounds]
    exact List.mem_map.mpr ⟨r, hm.mem, if_pos rfl⟩
  have huser : (r.advance code.games step).userId = r.userId := by rw [hcont]
  have hgame : (r.advance code.games step).gameType = r.gameType := by rw [hcont]
  have hids : s'.base.rounds.map (·.id) = s.base.rounds.map (·.id) := by
    rw [hrounds, List.map_map]
    refine List.map_congr_left fun q _ => ?_
    simp only [Function.comp]
    split
    · exact advance_id _ _ _
    · rfl
  have hmoves : ∀ id, s.movesOf id <:+ s'.movesOf id := by
    intro id
    simp only [Rounds.movesOf, hm.moves, List.filter_cons]
    split
    · exact List.suffix_cons _ _
    · exact List.suffix_refl _
  refine
    { posted := posts_more h.posted hposts
      calls := ?_
      ids := by rw [hids]; exact h.ids
      oneActive := ?_
      stakes := ?_
      rounds := ?_
      fresh := ?_
      masked := ?_ }
  · intro c hc
    rw [hm.starts] at hc
    exact h.calls c hc
  · intro r₁ h₁ r₂ h₂ ha₁ ha₂ hu hg
    rcases hmem r₁ h₁ with ⟨hold₁, hne₁⟩ | rfl
    · rcases hmem r₂ h₂ with ⟨hold₂, -⟩ | rfl
      · exact h.oneActive r₁ hold₁ r₂ hold₂ ha₁ ha₂ hu hg
      · have hsame := h.oneActive r₁ hold₁ r hm.mem ha₁ hm.active (hu.trans huser) (hg.trans hgame)
        exact absurd (congrArg InstantRound.id hsame) hne₁
    · rcases hmem r₂ h₂ with ⟨hold₂, hne₂⟩ | rfl
      · have hsame := h.oneActive r₂ hold₂ r hm.mem ha₂ hm.active (hu.symm.trans huser)
          (hg.symm.trans hgame)
        exact absurd (congrArg InstantRound.id hsame) hne₂
      · rfl
  · rw [hstakes, h.stakes, hrounds, List.map_map]
    refine List.map_congr_left fun q _ => ?_
    simp only [Function.comp]
    split
    · exact (advance_stakePosting _ _ _).symm
    · rfl
  · intro r' hr'
    rcases hmem r' hr' with ⟨hold, hne⟩ | rfl
    · rw [hrecord _ hne]
      exact h.rounds r' hold
    · rw [advance_id]
      exact hok
  · intro id hfree
    rw [hids] at hfree
    rw [hrecord]
    · exact h.fresh id hfree
    · rintro rfl
      exact hfree (List.mem_map_of_mem hm.mem)
  · intro v hv
    rcases hviews v hv with hold | ⟨rfl, hactive⟩
    · refine (h.masked v hold).mono ?_ hmoves
      intro q hq
      by_cases hid : q.id = r.id
      · have hsame : q = r := List.inj_on_of_nodup_map h.ids hq hm.mem hid
        exact ⟨_, hnew, hsame ▸ hcont⟩
      · exact ⟨q, by rw [hrounds]; exact List.mem_map.mpr ⟨q, hq, if_neg hid⟩, Continues.refl q⟩
    · obtain ⟨f, _, -, ⟨-, hact⟩ | ⟨hover, -⟩⟩ := hok
      · exact Active.masked hnew hactive (by rw [advance_id]; exact hact)
      · exact absurd hactive hover

/-- The record of a round that has moved. -/
theorem Moved.record_other {move : Move} (hm : Moved code s s' move r)
    (hsettles : s'.settles.filter (fun q => q.roundId = id) = s.settles.filter (fun q => q.roundId = id))
    (hpaid : paidOn s'.db id = paidOn s.db id) (hid : id ≠ r.id) : s'.record id = s.record id := by
  simp only [Rounds.record, Rounds.movesOf, hm.moves, hsettles, hpaid]
  rw [List.filter_cons_of_neg (by simpa using Ne.symm hid)]

theorem Moved.movesOf {move : Move} (hm : Moved code s s' move r) :
    s'.movesOf r.id = move :: s.movesOf r.id := by
  simp [Rounds.movesOf, hm.moves]

theorem RoundsInv.move {move : Move} (h : RoundsInv code db₀ s) (hm : Moved code s s' move r) :
    RoundsInv code db₀ s' := by
  obtain ⟨f, ps, hgame, hcase⟩ := h.rounds r hm.mem
  rcases hcase with ⟨-, hrec, hreplay⟩ | ⟨hover, -⟩
  case inr => exact absurd hm.active hover
  obtain ⟨hs, hstate, _⟩ := replay_spec hreplay
  have hold : s.movesOf r.id = ps.map .pick := congrArg Record.moves hrec
  have hpaid : paidOn s.db r.id = [] := congrArg Record.payouts hrec
  have hnone : s.settles.filter (fun q => q.roundId = r.id) = [] := congrArg Record.settles hrec
  obtain ⟨_, happly, hrounds, hcase⟩ := hm.result
  rw [hstate] at happly
  rcases hcase with ⟨_, x, rfl, hdb, hsettles, hviews⟩ |
    ⟨won, x, json, rfl, hviews, result, hrid, hpayout, hsettles, hposts⟩
  · obtain ⟨p, rfl⟩ := pick_of_goesOn happly
    have hnext := replay_step hreplay (hstate ▸ happly)
    obtain ⟨-, hstate', -⟩ := replay_spec hnext
    refine h.moved hm hrounds (advance_continues ?_) (by rw [hdb]; exact Posts.refl _)
      (by rw [hdb]) (fun id => hm.record_other (by rw [hsettles]) (by rw [hdb])) ?_ ?_
    · intro state' x' heq
      cases heq
      rw [hstate, hstate']
      rfl
    · refine ⟨f, p :: ps, hgame, Or.inl ⟨hm.active, ?_, hnext⟩⟩
      simp only [Rounds.record, hm.movesOf, hold, hdb, hpaid, hsettles, hnone, List.map_cons]
    · intro v hv
      rw [hviews] at hv
      rcases List.mem_cons.mp hv with rfl | hv
      · exact Or.inr ⟨rfl, hm.active⟩
      · exact Or.inl hv
  · refine h.moved hm hrounds (advance_continues ?_) hposts (stakesOn_settle hposts) ?_ ?_ ?_
    · intro state' x' heq
      cases heq
    · intro id hid
      refine hm.record_other ?_ ?_ hid
      · rw [hsettles, List.filter_cons_of_neg (by simpa [hrid] using Ne.symm hid)]
      · rw [paidOn_settle hposts, if_neg hid, List.nil_append]
    · refine ⟨f, ps, hgame, Or.inr ⟨advance_settled_inactive, ?_, hs, move, won, result, ?_, hpayout, ?_⟩⟩
      · show r.stateJson.secret = _
        rw [hstate]
        rfl
      · exact ends_of_apply hs happly
      · simp only [Rounds.record, hm.movesOf, hold, paidOn_settle hposts, hpaid, hsettles,
          List.filter_cons_of_pos, hrid, hnone, if_true, List.append_nil, decide_true]
        rfl
    · intro v hv
      rw [hviews] at hv
      exact Or.inl hv

theorem RoundsInv.liftBase (h : RoundsInv code db₀ s) (a : Action)
    (hstep : Instant.liftBase code s (a.event code) = some s') : RoundsInv code db₀ s' := by
  unfold Instant.liftBase at hstep
  split at hstep
  · cases hstep
  · next e he =>
    obtain ⟨_, hbase, rfl⟩ := Option.map_eq_some_iff.mp hstep
    obtain ⟨hrounds, hcalls⟩ := event_keeps he hbase h.calls
    exact h.quiet hrounds hcalls rfl rfl (Posts.refl _) (by simp) h.masked

theorem RoundsInv.act {a : Action} (h : RoundsInv code db₀ s) (hstep : Instant.act code s a = some s') :
    RoundsInv code db₀ s' := by
  cases a with
  | start =>
    simp only [Instant.act] at hstep
    split at hstep
    · cases hstep
      exact h
    · exact h.liftBase _ hstep
  | startTx i id =>
    simp only [Instant.act] at hstep
    split at hstep
    case h_2 => cases hstep
    case h_1 call hcall =>
      split at hstep
      case h_2 => cases hstep
      case h_1 reserved e hstage =>
        split at hstep
        · cases hstep
        · next hfresh =>
          have hid : id ∉ s.base.rounds.map (·.id) := by
            simpa [List.any_eq_true] using hfresh
          cases hstep
          have hinv : ∀ t : Rounds src, RoundsInv code db₀ t → t.base.starts = s.base.starts →
              RoundsInv code db₀ { t with base := t.base.setStage i call .done } := by
            intro t ht hstarts
            exact ht.quiet rfl (callsOk_setStage ht.calls (by rw [hstarts]; exact hcall))
              rfl rfl (Posts.refl _) (by simp) ht.masked
          cases hres : startRound code s call reserved e id with
          | error => exact hinv s h rfl
          | ok t =>
            obtain ⟨r, hrid, ho⟩ := startRound_ok hres
            exact hinv t (h.opened ho (List.mem_of_getElem? hcall) (hrid ▸ hid)) ho.starts
  | move userId roundId move betId =>
    cases hstep
    cases hres : playMove code s userId roundId move betId with
    | error => exact h
    | ok =>
      obtain ⟨r, hm⟩ := playMove_ok hres
      exact h.move hm
  | active =>
    simp only [Instant.act] at hstep
    split at hstep
    · next view hview =>
      cases hstep
      refine h.quiet rfl h.calls rfl rfl (Posts.refl _) (by simp) ?_
      intro v hv
      rcases List.mem_cons.mp hv with rfl | hv
      · obtain ⟨r, hfind, rfl⟩ := Option.map_eq_some_iff.mp hview
        have hr : r ∈ s.base.rounds := by simpa using List.mem_of_find?_eq_some hfind
        have hactive : r.status = .active := by
          have := List.find?_some hfind
          simp only [Bool.and_eq_true, beq_iff_eq] at this
          exact this.2
        obtain ⟨f, _, -, ⟨-, hact⟩ | ⟨hover, -⟩⟩ := h.rounds r hr
        · exact hact.masked hr hactive
        · exact absurd hactive hover
      · exact h.masked v hv
    · cases hstep
      exact h
  | moveBalance =>
    simp only [Instant.act] at hstep
    split at hstep
    · cases hstep
    · next hother =>
      split at hstep
      · next db hmove =>
        cases hstep
        refine h.quiet rfl h.calls rfl rfl (posts_moveBalance hmove) ?_ h.masked
        intro p hp
        rw [List.mem_singleton.mp hp]
        exact hother
      · cases hstep
        exact h
  | reserve i => exact h.liftBase (.reserve i) hstep
  | offchain i => exact h.liftBase (.offchain i) hstep
  | entropy i e => exact h.liftBase (.entropy i e) hstep
  | fail i => exact h.liftBase (.fail i) hstep
  | getOrCreateActivePair userId => exact h.liftBase (.getOrCreateActivePair userId) hstep
  | consumeNonce userId => exact h.liftBase (.consumeNonce userId) hstep
  | setClientSeed userId clientSeed => exact h.liftBase (.setClientSeed userId clientSeed) hstep
  | rotateServerSeed userId => exact h.liftBase (.rotateServerSeed userId) hstep

theorem inv_init (code : Code Seed) (src : SeedSource Seed Digest)
    (users : UserId → Option User) :
    RoundsInv code { Db.empty with users := users } (Rounds.init src users) where
  posted := Posts.refl _
  calls := by
    intro call hc
    cases hc
  ids := List.nodup_nil
  oneActive := by
    intro r hr
    cases hr
  stakes := rfl
  rounds := by
    intro r hr
    cases hr
  fresh _ _ := rfl
  masked := by
    intro v hv
    cases hv

/-! ## Every run -/

/-- What every run keeps of the rounds, their money and their views. -/
structure SettledOnce (m : Multipliers) (db₀ : Db) (s : Rounds src) : Prop where
  /-- One active round for each user and game. -/
  one_active : ∀ r ∈ s.base.rounds, ∀ r' ∈ s.base.rounds,
    r.status = .active → r'.status = .active → r.userId = r'.userId → r.gameType = r'.gameType →
      r = r'
  /-- The starts have debited the stakes of the rounds, one for each, in order. -/
  one_stake : (stakesOn s.db).reverse = s.base.rounds.map stakePosting
  /-- In progress: safe picks are committed, and nothing is settled or paid. -/
  in_progress : ∀ r ∈ s.base.rounds, r.status = .active → ∃ f ps, f.game = r.gameType ∧
    r.stateJson.secret = .secret f ∧ f.Survived ps ∧ r.multiplier = f.multiplier m ps ∧
      s.record r.id = ⟨ps.map .pick, [], []⟩
  /-- Over: one move after the safe picks has settled, and paid by them. -/
  settled : ∀ r ∈ s.base.rounds, r.status ≠ .active → ∃ f ps last won result,
    f.game = r.gameType ∧ r.stateJson.secret = .secret f ∧ f.Survived ps ∧
      Ends m f ps last won r.multiplier ∧
      result.payoutLamports = payoutLamports r.stakeLamports won r.multiplier ∧
      s.record r.id = ⟨last :: ps.map .pick, settlePostings r result.payoutLamports, [result]⟩
  /-- Postings are what moves the balances. -/
  posted : ∀ u c, s.db.balance u c = db₀.balance u c + moved (s.db.ledger.map (·.posting)) u c
  masked : ∀ v ∈ s.views, Masked m s v

/-- For every interleaving of starts, moves, reads and rotations. -/
theorem stateful_settled_once (code : Code Seed) (src : SeedSource Seed Digest)
    (users : UserId → Option User) {actions : List Action} {s : Rounds src}
    (hrun : run (act code) (Rounds.init src users) actions = some s) :
    SettledOnce code.multipliers { Db.empty with users := users } s := by
  have hinv : RoundsInv code { Db.empty with users := users } s :=
    run_invariant (fun _ _ _ h hstep => h.act hstep) (inv_init code src users) hrun
  refine
    { one_active := hinv.oneActive
      one_stake := hinv.stakes
      in_progress := ?_
      settled := ?_
      posted := hinv.posted.balance
      masked := hinv.masked }
  · intro r hr hactive
    obtain ⟨f, ps, hgame, ⟨-, hrec, hreplay⟩ | ⟨hover, -⟩⟩ := hinv.rounds r hr
    · obtain ⟨hs, hstate, hmult⟩ := replay_spec hreplay
      exact ⟨f, ps, hgame, by rw [hstate]; rfl, hs, hmult, hrec⟩
    · exact absurd hactive hover
  · intro r hr hover
    obtain ⟨f, ps, hgame, ⟨hactive, -⟩ | ⟨-, hsecret, hs, last, won, result, hends, hpay, hrec⟩⟩ :=
      hinv.rounds r hr
    · exact absurd hactive hover
    · exact ⟨f, ps, last, won, result, hgame, hsecret, hs, hends, hpay, hrec⟩

/-- Seeds in the order they are drawn. -/
private def inOrder : SeedSource Nat Nat where
  generateServerSeed n := n
  generateClientSeed _ := []
  commitServerSeed seed := seed
  serverSeed_injective _ _ h := h

/-- Floats that depend on the nonce only. -/
private def byNonce : Code Nat where
  floatsFromHmac _ _ nonce _ := (nonce : ℚ) / 4
  rngEntropy seed _ _ _ _ := seed
  gameParamsHash _ := 0
  multipliers := .exact

private def funded : User where
  username := none
  walletAddress := ""
  banned := false
  fundedAt := none
  referredById := none
  signupIpHash := none
  balance _ := 5000000
  totalWagered := 0
  totalWon := 0
  totalLost := 0
  biggestWin := 0
  gamesPlayed := 0

/-- Two starts of mines race; the one round is cashed out twice, and a tower
is lost. -/
private def played : List Action :=
  [.start 1 (.mines 3) 1000000, .start 1 (.mines 3) 1000000, .offchain 0, .offchain 1, .startTx 0 7,
    .startTx 1 8, .move 1 7 (.pick (.cell 20)) 0, .active 1 .mines, .move 1 7 (.cashout .mines) 1,
    .move 1 7 (.cashout .mines) 2, .start 1 .tower 2000000, .offchain 2, .startTx 2 9,
    .move 1 9 (.pick (.column 0)) 3]

theorem played_settled_once :
    ∃ s, run (act byNonce) (Rounds.init inOrder fun _ => some funded) played = some s ∧
      SettledOnce byNonce.multipliers { Db.empty with users := fun _ => some funded } s ∧
      s.settles.map (·.payoutLamports) = [0, 1070000] ∧ s.db.balance 1 .jeton = 3070000 := by
  obtain ⟨s, hrun, hend⟩ : ∃ s,
      run (act byNonce) (Rounds.init inOrder fun _ => some funded) played = some s ∧
      s.settles.map (·.payoutLamports) = [0, 1070000] ∧ s.db.balance 1 .jeton = 3070000 := by
    decide +kernel
  exact ⟨s, hrun, stateful_settled_once byNonce inOrder _ hrun, hend⟩

end Scadium.Games.Instant
