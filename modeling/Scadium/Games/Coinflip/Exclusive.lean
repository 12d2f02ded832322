/-
Scadium.Games.Coinflip.Exclusive — each flip ends once, and the limit on open
flips.

`flip_lives`: every run of the commands is a run of `Change`s. Each flip is
opened, and then cancelled or resolved at most once; the ledger holds the
postings of these changes and no others; and no answer shows the server seed
of a flip that is not completed.

`open_limit_holds`: the limit on the open flips of a user is a count before
an insert. It holds in the runs in which no one opens a flip for the user
between the count and the commit; two creates at once pass it together.
-/
import Scadium.Games.Coinflip.Rules
import Scadium.Prisma.LedgerChain

namespace Scadium.Games.Coinflip

open Scadium.Lib Scadium.Lib.ReadCommitted Scadium.Prisma Scadium.Prisma.Sessions Scadium.Shared

variable {d : Deps}

/-! ## Movements -/

section Movements

theorem ledgered_nextNonce (userId : UserId) : Ledgered (nextNonce userId) := by
  refine (Ledgered.updateOrThrow (by simp) _).bind fun _ => (Ledgered.query _).bind fun row => ?_
  split
  · exact .pure _
  · exact .throw _

theorem ledgered_consumeNonce (userId : UserId) : Ledgered (consumeNonce d userId) := by
  refine Ledgered.answer.bind fun env => (Ledgered.query _).bind fun existing => ?_
  split
  · exact ledgered_nextNonce userId
  · exact (Ledgered.create (by simp) _).bind fun _ => ledgered_nextNonce userId

theorem ledgered_opponentSeed (g : LoadedFlip) (serverSeed : String) (opponent : Opponent) :
    Ledgered (opponentSeed d g serverSeed opponent) := by
  cases opponent with
  | house => exact (ledgered_consumeNonce _).bind fun ctx => .pure _
  | player u reserved =>
    refine (Ledgered.query _).bind fun joiner => ?_
    split
    · exact .throw _
    · split
      · exact .throw _
      · refine (Ledgered.balance ..).bind fun _ => ?_
        cases reserved with
        | some => exact .pure _
        | none => exact (ledgered_consumeNonce u).bind fun ctx => .pure _

theorem ledgered_settleSides (stake : Nat) (bet : FlipSide → CoinflipBet) (sides : List FlipSide) :
    Ledgered (settleSides stake bet sides) := by
  induction sides with
  | nil => exact .pure ()
  | cons side rest ih =>
    refine Ledgered.bind ?_ fun _ => ih
    have hwagered : ∀ old new, some (wagered stake side.won old) = some new →
        new.balance = old.balance := by
      intro old new hnew
      cases hnew
      unfold wagered
      split <;> rfl
    refine Ledgered.bind ((Ledgered.updateUser hwagered).bind fun hit => ?_) fun _ =>
      Ledgered.answer.bind fun env => (Ledgered.create (by simp) _).bind fun _ => ?_
    · split
      · exact .pure ()
      · exact .throw _
    · split
      · exact (Ledgered.balance ..).bind fun _ => .pure ()
      · exact .pure ()

theorem ledgered_includeFlip (id : FlipId) : Ledgered (includeFlip id) := by
  refine (Ledgered.query _).bind fun loaded => ?_
  split
  · exact .pure _
  · exact .throw _

theorem ledgered_resolve (g : LoadedFlip) (opponent : Opponent) :
    Ledgered (resolve d g opponent) := by
  refine Ledgered.answer.bind fun env => (Ledgered.updateManyOrThrow (by simp) ..).bind fun _ => ?_
  split
  · exact .throw _
  · refine (ledgered_opponentSeed ..).bind fun a => ?_
    refine (ledgered_settleSides ..).bind fun _ => Ledgered.answer.bind fun env => ?_
    refine (Ledgered.updateOrThrow (by simp) _).bind fun _ => ?_
    exact (Ledgered.updateOrThrow (by simp) _).bind fun _ => ledgered_includeFlip _

theorem ledgered_idempotent (userId : UserId) (scope : String) (key : Option String)
    {effects : SessionProg Response} (h : Ledgered effects) :
    Ledgered (idempotent userId scope key effects) := by
  refine .transaction ((Ledgered.claimIdempotency ..).bind fun replay => ?_)
  split
  · exact .pure _
  · exact h.bind fun r => (Ledgered.storeIdempotency ..).bind fun _ => .pure r

theorem ledgered_assertCanWager : Ledgered assertCanWager := by
  refine Ledgered.answer.bind fun env => ?_
  split
  · exact .throw _
  · exact .pure ()

theorem ledgered_openFlip (params : CreateParams) : Ledgered (openFlip d params) := by
  refine Ledgered.answer.bind fun env => (Ledgered.balance ..).bind fun _ => ?_
  refine Ledgered.answer.bind fun env' => (Ledgered.create (by simp) _).bind fun _ => ?_
  refine (Ledgered.create (by simp) _).bind fun _ => (Ledgered.query _).bind fun loaded => ?_
  split
  · exact .pure _
  · exact .throw _

theorem ledgered_createFlip (params : CreateParams) : Ledgered (createFlip d params) := by
  refine (Ledgered.query _).bind fun user => ?_
  split
  · exact .throw _
  · split
    · exact .throw _
    · cases hhouse : params.vsHouse with
      | true =>
        simp only [if_true]
        exact (ledgered_openFlip params).bind fun g => ledgered_resolve g _
      | false =>
        simp only [Bool.false_eq_true, if_false]
        refine Ledgered.bind ((Ledgered.countRows _).bind fun n => ?_) fun _ =>
          (ledgered_openFlip params).bind fun g => .pure _
        split
        · exact .throw _
        · exact .pure ()

theorem ledgered_createCommand (params : CreateParams) (key : Option String) :
    Ledgered (createCommand d params key) := by
  refine Ledgered.bind ?_ fun _ => ledgered_assertCanWager.bind fun _ =>
    ledgered_idempotent _ _ _ ((ledgered_createFlip params).bind fun dto => .pure _)
  unfold assertBetRange
  split
  · exact .throw _
  · exact .pure ()

theorem ledgered_assertSameEconomy (creatorId joinerId : UserId) :
    Ledgered (assertSameEconomy d creatorId joinerId) := by
  unfold assertSameEconomy
  split
  · refine (Ledgered.query _).bind fun creator => ?_
    split
    · exact .throw _
    · refine Ledgered.bind (Ledgered.bind (Ledgered.updateUser ?_) fun _ =>
        (Ledgered.query _).bind fun user => .pure _) fun joiner => ?_
      · intro old new hnew
        cases hnew
        rfl
      · split
        · exact .pure ()
        · exact .throw _
  · exact .pure ()

theorem ledgered_joinCommand (userId : UserId) (id : FlipId) (key : Option String) :
    Ledgered (joinCommand d userId id key) := by
  refine ledgered_assertCanWager.bind fun _ => Ledgered.bind ?_ fun a =>
    ledgered_idempotent _ _ _ (Ledgered.bind ?_ fun dto => .pure _)
  · refine Ledgered.answer.bind fun env => ?_
    split
    · refine (Ledgered.query _).bind fun pre => ?_
      split
      · split
        · exact (Ledgered.transaction (ledgered_consumeNonce userId)).bind fun ctx =>
            Ledgered.answer.bind fun env => .pure _
        · exact .pure _
      · exact .pure _
    · exact .pure _
  · refine (Ledgered.query _).bind fun game => ?_
    split
    · exact .throw _
    · split
      · exact .throw _
      · exact (ledgered_assertSameEconomy ..).bind fun _ => ledgered_resolve _ _

theorem ledgered_cancelOpenFlip (id : FlipId) : Ledgered (cancelOpenFlip id) := by
  refine Ledgered.answer.bind fun env => (Ledgered.update (by simp) _).bind fun claimed => ?_
  split
  · refine (Ledgered.query _).bind fun game => ?_
    split
    · exact .throw _
    · exact (Ledgered.balance ..).bind fun _ => .pure _
  · exact .pure _

theorem ledgered_cancelEach (ids : List FlipId) : Ledgered (cancelEach ids) := by
  induction ids with
  | nil => exact .pure _
  | cons id rest ih =>
    exact (Ledgered.transaction (ledgered_cancelOpenFlip id)).bind fun _ => ih.bind fun n => .pure _

/-- Every command moves balances by `applyBalanceDelta`. -/
theorem ledgered_body (call : Call) : Ledgered (body d call) := by
  cases call with
  | create params key => exact ledgered_createCommand params key
  | join userId id key => exact ledgered_joinCommand userId id key
  | playHouse =>
    refine .transaction ((Ledgered.query _).bind fun game => ?_)
    split
    · exact .throw _
    · split
      · exact .throw _
      · exact (ledgered_resolve _ _).bind fun dto => .pure _
  | cancel userId id =>
    refine .transaction ((Ledgered.query _).bind fun game => ?_)
    split
    · exact .throw _
    · split
      · exact .throw _
      · refine (ledgered_cancelOpenFlip id).bind fun cancelled => ?_
        split
        · exact (ledgered_includeFlip id).bind fun dto => .pure _
        · exact .throw _
  | expireStale =>
    exact Ledgered.answer.bind fun env => (Ledgered.query _).bind fun stale =>
      (ledgered_cancelEach stale).bind fun n => .pure _
  | cancelOpenFlips =>
    exact (Ledgered.query _).bind fun mine => (ledgered_cancelEach mine).bind fun n => .pure _
  | listOpen => exact Ledgered.answer.bind fun env => .query _
  | listRecent | listMine => exact .query _

end Movements

/-! ## Every flip ends once -/

section Runs

variable {limited : Prop} {users : UserId → Option User} {es : List (Event Env Call)}
variable {s s' : Tables} {t : FlipSystem}

theorem flipStep_later (h : (flipProtocol limited).Later s s') : FlipStep s s' := by
  induction h with
  | refl => exact ⟨[], rfl, by simp⟩
  | tail _ hlast ih =>
    obtain ⟨cs, hrun, hlog⟩ := ih
    obtain ⟨cs', hrun', hlog'⟩ := hlast
    refine ⟨cs ++ cs', run_append.mpr ⟨_, hrun, hrun'⟩, ?_⟩
    rw [hlog', hlog, List.flatMap_append, List.append_assoc]

theorem flipInv_usersOnly (users : UserId → Option User) : FlipInv limited (usersOnly users) where
  listed id h := by cases h
  stored u scope key row r h := by cases h
  limit _ u := Nat.zero_le _

/-- Every run of the commands keeps the protocol. -/
theorem good_run (hok : Along (step d) (CommitsOk (flipProtocol limited)) (FlipSystem.initial users) es)
    (h : Lib.run (step d) (FlipSystem.initial users) es = some t) :
    Good (flipProtocol limited) (fun _ r s => SeedsCompleted r s) t ∧
      (flipProtocol limited).Later (usersOnly users) t.store := by
  have hinit : Good (flipProtocol limited) (fun _ r s => SeedsCompleted r s)
      (FlipSystem.initial users) := Good.initial (flipInv_usersOnly users)
  refine hinit.run ?_ (fun call _ _ => safe_body call) hok h
  exact fun _ _ _ _ hstep hr => FlipStep.seeds hstep hr

/-- In every run, from users only: the flips go through runs of changes, each
of them through one life; the ledger has the postings of the changes, which
are what balances move by; and a seed is shown when its flip is completed. -/
theorem flip_lives (h : Lib.run (step d) (FlipSystem.initial users) es = some t) :
    (∃ cs, Lib.run Change.apply (fun _ => none) cs = some (flipsOf t.store) ∧
      (∀ id, Life id (cs.filter (·.id = id))) ∧
      t.store.log.map (·.posting) = cs.flatMap Change.postings) ∧
    ((∀ u c, 0 ≤ balanceOf (usersOnly users) u c) → ∀ u c,
      balanceOf t.store u c = balanceOf (usersOnly users) u c + movedBy t.store.log u c) ∧
    ∀ call r, (call, .ok r) ∈ t.replies → SeedsCompleted r t.store := by
  have hok : Along (step d) (CommitsOk (flipProtocol False)) (FlipSystem.initial users) es :=
    (along_true _ _).mono fun _ _ _ _ _ hlimited => hlimited.elim
  obtain ⟨hgood, hlater⟩ := good_run hok h
  refine ⟨?_, fun hnonneg u c => ?_, hgood.replies⟩
  · obtain ⟨cs, hrun, hlog⟩ := flipStep_later hlater
    exact ⟨cs, hrun, life_of_run hrun, hlog⟩
  · obtain ⟨rows, hlog, hbalance⟩ := ledger_run ledgered_body hnonneg h
    obtain rfl : rows = t.store.log := by simpa [usersOnly] using hlog.symm
    exact hbalance u c

end Runs

/-- Every toss is tails. -/
private def tailsDeps : Deps where
  commitServerSeed := id
  hmacByte _ _ _ := 1
  rngEntropy serverSeed _ _ _ := serverSeed
  economyEnforced := false

/-- One user, with a SOL. -/
private def flipper : UserId → Option User
  | 0 => some
      { username := none, walletAddress := "", banned := false, fundedAt := none
        referredById := none, signupIpHash := none
        balance := fun c => if c = .jeton then 1000000000 else 0
        totalWagered := 0, totalWon := 0, totalLost := 0, biggestWin := 0, gamesPlayed := 0 }
  | _ => none

/-- A call, and its first `n` statements, with ids of its own. -/
private def statements (id n : Nat) (call : Call) : List (Event Env Call) :=
  .start id call ::
    List.replicate n (.run id { now := 1, newId := id, serverSeed := "s", clientSeed := "c" })

/-- A flip on heads that is created, and cancelled. -/
private def createdAndCancelled : List (Event Env Call) :=
  statements 7 13 (.create ⟨0, .heads, 100000000, false⟩ none) ++ statements 8 9 (.cancel 0 7)

theorem cancelled_flip_lives : ∃ t cs,
    Lib.run (step tailsDeps) (FlipSystem.initial flipper) createdAndCancelled = some t ∧
    Lib.run Change.apply (fun _ => none) cs = some (flipsOf t.store) ∧
    (∀ id, Life id (cs.filter (·.id = id))) ∧
    t.store.log.map (·.posting) = cs.flatMap Change.postings := by
  have hrun : (Lib.run (step tailsDeps) (FlipSystem.initial flipper)
      createdAndCancelled).isSome = true := by
    decide +kernel
  obtain ⟨t, ht⟩ := Option.isSome_iff_exists.mp hrun
  obtain ⟨⟨cs, hcs, hlife, hlog⟩, -⟩ := flip_lives ht
  exact ⟨t, cs, ht, hcs, hlife, hlog⟩

/-- A flip on heads against the house, which wins. -/
private def lostToHouse : List (Event Env Call) :=
  statements 7 26 (.create ⟨0, .heads, 100000000, true⟩ none)

/-- Of a resolved flip only one stake is debited, and no one is paid. -/
theorem lost_to_house_pays_no_one : ∃ es t game,
    Lib.run (step tailsDeps) (FlipSystem.initial flipper) es = some t ∧
    flipsOf t.store 7 = some game ∧ game.status = .completed ∧
    t.store.log.map (·.posting) = [Change.stake 0 7 game] := by
  have hrun : (Lib.run (step tailsDeps) (FlipSystem.initial flipper) lostToHouse).any
      (fun t => (flipsOf t.store 7).any fun game => decide (game.status = .completed ∧
        t.store.log.map (·.posting) = [Change.stake 0 7 game])) = true := by
    decide +kernel
  obtain ⟨t, ht, hflip⟩ := (Option.any_eq_true _ _).mp hrun
  obtain ⟨game, hgame, hends⟩ := (Option.any_eq_true _ _).mp hflip
  obtain ⟨hcompleted, hlog⟩ := of_decide_eq_true hends
  exact ⟨lostToHouse, t, game, ht, hgame, hcompleted, hlog⟩

/-! ## The limit on open flips -/

section Limit

variable {users : UserId → Option User} {es : List (Event Env Call)} {t : FlipSystem}

/-- No one opens a flip for a user between the count and the commit of a
create. -/
def CountsHold (s : FlipSystem) (e : Event Env Call) : Prop :=
  ∀ p ∈ s.commits e, CountHolds p s.store

instance (p : Writes) (s : Tables) : Decidable (CountHolds p s) :=
  inferInstanceAs (Decidable (∀ id ∈ p.keys.filterMap flipKey, ∀ v ∈ p.rows (.flip id),
    ∀ game ∈ v.after, game.status = .open → ∀ n ∈ p.counts, openFlips game.creatorId s ≤ n))

instance (s : FlipSystem) (e : Event Env Call) : Decidable (CountsHold s e) :=
  inferInstanceAs (Decidable (∀ p ∈ s.commits e, CountHolds p s.store))

/-- Where the counts hold to the commits, so does the limit. -/
theorem open_limit_holds (hcounts : Along (step d) CountsHold (FlipSystem.initial users) es)
    (h : Lib.run (step d) (FlipSystem.initial users) es = some t) (u : UserId) :
    openFlips u t.store ≤ COINFLIP.MAX_OPEN_PER_USER := by
  have hok : Along (step d) (CommitsOk (flipProtocol True)) (FlipSystem.initial users) es :=
    hcounts.mono fun s e hs p hp _ => hs p hp
  have hinv : FlipInv True t.store := (good_run hok h).1.inv
  exact hinv.limit trivial u

end Limit

theorem created_flip_within_limit : ∃ t,
    Lib.run (step tailsDeps) (FlipSystem.initial flipper) createdAndCancelled = some t ∧
    openFlips 0 t.store ≤ COINFLIP.MAX_OPEN_PER_USER := by
  have hrun : (Lib.run (step tailsDeps) (FlipSystem.initial flipper)
      createdAndCancelled).isSome = true := by
    decide +kernel
  have hcounts : Along (step tailsDeps) CountsHold (FlipSystem.initial flipper)
      createdAndCancelled := by
    decide +kernel
  obtain ⟨t, ht⟩ := Option.isSome_iff_exists.mp hrun
  exact ⟨t, ht, open_limit_holds hcounts ht 0⟩

/-- Four open flips, and two creates that count them before either commits. -/
private def countedTogether : List (Event Env Call) :=
  let create := Call.create ⟨0, .heads, 100000000, false⟩ none
  statements 1 13 create ++ statements 2 13 create ++ statements 3 13 create ++
    statements 4 13 create ++ statements 5 3 create ++ statements 6 3 create ++
    (statements 5 10 create).tail ++ (statements 6 10 create).tail

theorem creates_pass_limit_together : ∃ es t,
    Lib.run (step tailsDeps) (FlipSystem.initial flipper) es = some t ∧
    COINFLIP.MAX_OPEN_PER_USER < openFlips 0 t.store := by
  have hrun : (Lib.run (step tailsDeps) (FlipSystem.initial flipper) countedTogether).any
      (fun t => decide (COINFLIP.MAX_OPEN_PER_USER < openFlips 0 t.store)) = true := by
    decide +kernel
  obtain ⟨t, ht, hlimit⟩ := (Option.any_eq_true _ _).mp hrun
  exact ⟨countedTogether, t, ht, of_decide_eq_true hlimit⟩

end Scadium.Games.Coinflip
