/-
Scadium.Engine.Payouts — whom the hourly jobs of the engine credit.

A block has a share row for each user it pays and at most one row for the
big reward, a dividend round a claim for each staker; a user's balance goes
up by exactly the rows that a transaction adds for it.
-/
import Scadium.Engine.Distribution
import Scadium.Engine.Emission

namespace Scadium.Engine

open Scadium.Lib Scadium.Lib.Calls Scadium.Prisma Scadium.Queue

/-- A list with a distinct key for each item of one period, put in front of
one that has none of the period. -/
theorem nodup_append_period {α κ : Type} (period : α → Hour) (key : α → κ) {new old : List α}
    {q : Hour} (hnew : ∀ x ∈ new, period x = q) (hold : ∀ x ∈ old, period x ≠ q)
    (hnodup : (new.map key).Nodup) (hrest : (old.map fun x => (period x, key x)).Nodup) :
    ((new ++ old).map fun x => (period x, key x)).Nodup := by
  rw [List.map_append, List.nodup_append]
  refine ⟨?_, hrest, ?_⟩
  · have hsnd : ((new.map fun x => (period x, key x)).map Prod.snd).Nodup := by
      rw [List.map_map]
      exact hnodup
    exact hsnd.of_map _
  · intro p hp p' hp' heq
    obtain ⟨x, hx, rfl⟩ := List.mem_map.mp hp
    obtain ⟨y, hy, rfl⟩ := List.mem_map.mp hp'
    have hperiod := congrArg Prod.fst heq
    exact hold y hy (hperiod.symm.trans (hnew x hx))

/-- Amounts added one after the other. -/
theorem foldl_add {α β : Type} {f : β → α → α} {g : α → Nat} {w : β → Nat}
    (hf : ∀ b a, g (f b a) = g a + w b) (bs : List β) (a : α) :
    g (bs.foldl (fun a b => f b a) a) = g a + weight w bs := by
  induction bs generalizing a with
  | nil => simp
  | cons b bs ih =>
    rw [List.foldl_cons, ih, hf, weight_cons]
    omega

namespace BlockMining

variable {a a' : State} {v : Answer} {period q : Hour} {reward roll : Nat} {rates : PlayRates}

/-! ## Blocks -/

/-- What the rows of a user come to. -/
def State.paidTo (a : State) (userId : UserId) : Nat :=
  weight EngineBlockShare.shareScad (a.shares.filter (·.userId = userId)) +
    weight BigReward.rewardScad (a.bigRewards.filter (·.userId = userId))

/-- The rows of an hour. -/
def State.rowsOf (a : State) (q : Hour) : List EngineBlockShare × List BigReward :=
  (a.shares.filter (·.period = q), a.bigRewards.filter (·.period = q))

/-- One share row for each user and hour, one big reward for each hour. -/
structure Distinct (a : State) : Prop where
  shares : (a.shares.map fun s => (s.period, s.userId)).Nodup
  bigRewards : (a.bigRewards.map fun b => (b.period, ())).Nodup

/-- A set of play-rates has each user once. -/
def Call.Distinct : Call → Prop
  | .findStakers _ _ active => (active.map Prod.fst).Nodup
  | .settle _ _ rates => (rates.map Prod.fst).Nodup
  | _ => True

theorem activeRates_nodup (wagers : List (UserId × Nat)) :
    ((activeRates wagers).map Prod.fst).Nodup := by
  have hfold : ∀ rates : PlayRates, (rates.map Prod.fst).Nodup →
      ((wagers.foldl setActive rates).map Prod.fst).Nodup := by
    induction wagers with
    | nil => exact fun _ h => h
    | cons w wagers ih =>
      intro rates h
      refine ih _ ?_
      unfold setActive
      simp only
      split
      · exact nodup_keys_insertWith h
      · exact h
  exact hfold [] List.nodup_nil

theorem addStake_nodup {stakers : List (UserId × Account)} {rates : PlayRates}
    (h : (rates.map Prod.fst).Nodup) : ((stakers.foldl addStake rates).map Prod.fst).Nodup := by
  induction stakers generalizing rates with
  | nil => exact h
  | cons s stakers ih =>
    refine ih ?_
    unfold addStake
    simp only
    split
    · exact nodup_keys_insertWith h
    · exact h

theorem step_distinct {call call' : Call} (hc : call.Distinct)
    (h : service.step a v call = some (a', some call')) : call'.Distinct := by
  cases call with
  | mineBlock =>
    simp only [service, Call.step, Option.some.injEq] at h
    split at h
    · cases h
    · cases h
      trivial
  | readEmission =>
    cases h
    trivial
  | wagers =>
    cases h
    exact activeRates_nodup _
  | findStakers =>
    cases h
    exact addStake_nodup hc
  | settle | writeUser | tick => cases h

theorem sharesOf_users (h : (rates.map Prod.fst).Nodup) :
    ((sharesOf period reward rates).map EngineBlockShare.userId).Nodup := by
  unfold sharesOf
  refine List.Nodup.sublist (List.filter_sublist.map _) ?_
  rw [List.map_map]
  have hperm : ((ordered rates).map Prod.fst).Perm (rates.map Prod.fst) :=
    (List.perm_insertionSort _ rates).map _
  exact hperm.nodup_iff.mpr h

theorem Minted.distinct (hm : Mined a) (hd : Distinct a) (hrates : (rates.map Prod.fst).Nodup)
    (h : Minted a a' period reward rates roll) : Distinct a' where
  shares := by
    rw [h.shares]
    exact nodup_append_period _ _ sharesOf_period (hm.rows_ne h.new).1 (sharesOf_users hrates)
      hd.shares
  bigRewards := by
    rw [h.bigRewards]
    refine nodup_append_period _ _ bigRewardsOf_period (hm.rows_ne h.new).2 ?_ hd.bigRewards
    unfold bigRewardsOf
    cases winnerId roll reward rates with
    | none => simp
    | some => simp

/-- What a user gained and what its rows gained is the same. -/
def PaidByRows (a a' : State) : Prop :=
  ∀ userId user, a.users.get userId = some user → ∃ user', a'.users.get userId = some user' ∧
    user'.scadiumBalance + a.paidTo userId = user.scadiumBalance + a'.paidTo userId

theorem Unpaid.paidByRows (h : Unpaid a a') : PaidByRows a a' := by
  intro userId user huser
  refine ⟨user, by rw [h.users, huser], ?_⟩
  rw [State.paidTo, State.paidTo, h.shares, h.bigRewards]

theorem weight_creditsOf (roll : Nat) (period : Hour) (reward : Nat) (rates : PlayRates)
    (userId : UserId) :
    weight Prod.snd ((creditsOf roll period reward rates).filter (·.1 = userId)) =
      weight EngineBlockShare.shareScad
          ((sharesOf period reward rates).filter (·.userId = userId)) +
        weight BigReward.rewardScad
          ((bigRewardsOf roll period reward rates).filter (·.userId = userId)) := by
  rw [creditsOf, List.filter_append, List.filter_map, List.filter_map, weight_append, weight_map,
    weight_map]
  rfl

theorem Minted.paidByRows (h : Minted a a' period reward rates roll) : PaidByRows a a' := by
  intro userId user huser
  have hget := Table.get_updateAll _ _ h.users userId
  rw [huser] at hget
  refine ⟨_, hget, ?_⟩
  have hbalance := foldl_add (g := Account.scadiumBalance) (w := Prod.snd)
    (f := fun (c : UserId × Nat) user =>
      { user with scadiumBalance := user.scadiumBalance + c.2 }) (fun _ _ => rfl)
    ((creditsOf roll period reward rates).filter (·.1 = userId)) user
  have hrows : a'.paidTo userId = a.paidTo userId +
      weight Prod.snd ((creditsOf roll period reward rates).filter (·.1 = userId)) := by
    rw [weight_creditsOf, State.paidTo, State.paidTo, h.shares, h.bigRewards, List.filter_append,
      List.filter_append, weight_append, weight_append]
    omega
  rw [hrows]
  dsimp only
  omega

/-- Whatever writes an account besides. -/
def Call.writesUser : Call → Bool
  | .writeUser _ _ => true
  | _ => false

theorem step_paidByRows {call : Call} {r : Option Call} (hcall : call.writesUser = false)
    (h : service.step a v call = some (a', r)) : PaidByRows a a' := by
  cases call with
  | settle period reward rates =>
    cases h
    rcases settle_cases a v period reward rates with hunpaid | hminted
    · exact hunpaid.paidByRows
    · exact hminted.paidByRows
  | mineBlock =>
    simp only [service, Call.step, Option.some.injEq] at h
    split at h
    · cases h
      exact (Unpaid.refl a).paidByRows
    · cases h
      exact (Unpaid.refl a).paidByRows
  | readEmission | wagers | findStakers =>
    cases h
    exact (Unpaid.refl a).paidByRows
  | writeUser => cases hcall
  | tick =>
    cases h
    exact fun _ user huser => ⟨user, huser, rfl⟩

/-- The rows of an hour change only while it is open, and close it. -/
theorem step_guarded {call : Call} {r : Option Call} (hm : Mined a)
    (h : service.step a v call = some (a', r)) :
    (∀ q, a.settled q = true → a'.settled q = true) ∧
    ∀ q, a'.rowsOf q ≠ a.rowsOf q → a.settled q = false ∧ a'.settled q = true := by
  rcases step_cases h with huntouched | ⟨period, _, _, rfl, hminted⟩
  · refine ⟨huntouched.settled, ?_⟩
    intro q hne
    refine absurd ?_ hne
    rw [State.rowsOf, State.rowsOf, huntouched.shares, huntouched.bigRewards]
  · refine ⟨fun q hq => by simp [hminted.settled, hq], ?_⟩
    intro q hne
    by_cases hq : q = period
    · subst hq
      exact ⟨hminted.new, by simp [hminted.settled]⟩
    · refine absurd ?_ hne
      obtain ⟨hshares, hbig⟩ := hm.rows_ne hminted.new
      rw [State.rowsOf, State.rowsOf, hminted.shares, hminted.bigRewards,
        filter_append_period EngineBlockShare.period sharesOf_period hshares,
        filter_append_period BigReward.period bigRewardsOf_period hbig, if_neg hq, if_neg hq]

/-- The rows are distinct, and so are the play-rates of the runs. -/
def payoutProtocol : Protocol service where
  Inv a := Mined a ∧ Distinct a
  Holds _ call := call.Capped ∧ call.Distinct
  starts _ h := by
    rename_i call _
    cases call <;> trivial
  keeps := by
    intro a v call a' r hm hc h
    refine ⟨emissionProtocol.keeps hm.1 hc.1 h, ?_⟩
    rcases step_cases h with huntouched | ⟨period, reward, rates, rfl, hminted⟩
    · exact ⟨by rw [huntouched.shares]; exact hm.2.shares,
        by rw [huntouched.bigRewards]; exact hm.2.bigRewards⟩
    · exact hminted.distinct hm.1 hm.2 hc.2
  goes _ hc h := ⟨step_capped hc.1 h, step_distinct hc.2 h⟩
  stable _ _ _ h := h

theorem payout_initial : payoutProtocol.Inv .initial :=
  ⟨mined_initial, ⟨List.nodup_nil, List.nodup_nil⟩⟩

end BlockMining

namespace Distribution

variable {a a' : State} {v : Answer} {period q : Hour} {ngr : Int}
variable {stakers : List (UserId × Account)}

/-! ## Dividends -/

/-- What the claims of a user come to. -/
def State.paidTo (a : State) (userId : UserId) : Nat :=
  weight DistributionClaim.shareUsds (a.claims.filter (·.userId = userId))

/-- Every claim has its round settled, and there is one for each user and round. -/
structure Claimed (a : State) : Prop where
  settled : ∀ c ∈ a.claims, a.settled c.period = true
  distinct : (a.claims.map fun c => (c.period, c.userId)).Nodup

theorem Claimed.period_ne (h : Claimed a) (hopen : a.settled period = false) :
    ∀ c ∈ a.claims, c.period ≠ period := by
  rintro c hc rfl
  have hset := h.settled c hc
  rw [hopen] at hset
  cases hset

/-- The stakers of a run are distinct. -/
def Call.Distinct : Call → Prop
  | .settle _ _ stakers => (stakers.map Prod.fst).Nodup
  | _ => True

/-- A round that is paid, of a period that was not settled. -/
structure Settled (a a' : State) (period : Hour) (ngr : Int) (stakers : List (UserId × Account)) :
    Prop where
  new : a.settled period = false
  claims : a'.claims = shares period ngr stakers ++ a.claims
  settled : ∀ q, a'.settled q = (a.settled q || decide (period = q))
  users : State.creditAll a.users (shares period ngr stakers) = some a'.users

/-- Nobody is paid; settled periods stay settled. -/
structure Unpaid (a a' : State) : Prop where
  claims : a'.claims = a.claims
  settled : ∀ q, a.settled q = true → a'.settled q = true
  users : a'.users = a.users

theorem Unpaid.refl (a : State) : Unpaid a a := ⟨rfl, fun _ h => h, rfl⟩

/-- What a settlement may do. -/
theorem settle_cases (a : State) (v : Answer) (period : Hour) (ngr : Int)
    (stakers : List (UserId × Account)) :
    Unpaid a ((a.settle v period ngr stakers).getD a) ∨
      Settled a ((a.settle v period ngr stakers).getD a) period ngr stakers := by
  unfold State.settle
  split
  · exact .inl (.refl a)
  · split
    · refine .inl ⟨rfl, ?_, rfl⟩
      intro q hq
      refine (Table.any_set a.rounds rfl q).trans ?_
      rw [State.settled] at hq
      simp [hq]
    · unfold State.settleRound
      split
      · exact .inl (.refl a)
      · rename_i hnew
        cases husers : State.creditAll a.users (shares period ngr stakers) with
        | none =>
          simp only [husers]
          exact .inl (.refl a)
        | some =>
          simp only [husers]
          exact .inr ⟨Bool.not_eq_true _ ▸ hnew, rfl, Table.any_set _ rfl, husers⟩

theorem shares_period : ∀ c ∈ shares period ngr stakers, c.period = period := by
  intro c hc
  obtain ⟨s, -, rfl⟩ := List.mem_map.mp (List.mem_of_mem_filter hc)
  rfl

theorem Settled.claimed (hc : Claimed a) (hstakers : (stakers.map Prod.fst).Nodup)
    (h : Settled a a' period ngr stakers) : Claimed a' where
  settled := by
    intro c hmem
    rw [h.claims, List.mem_append] at hmem
    rw [h.settled]
    rcases hmem with hnew | hold
    · simp [shares_period c hnew]
    · simp [hc.settled c hold]
  distinct := by
    rw [h.claims]
    refine nodup_append_period _ _ shares_period (hc.period_ne h.new) ?_ hc.distinct
    unfold shares
    refine List.Nodup.sublist (List.filter_sublist.map _) ?_
    rw [List.map_map]
    exact hstakers

/-- What a user gained and what its claims gained is the same. -/
def PaidByRows (a a' : State) : Prop :=
  ∀ userId user, a.users.get userId = some user → ∃ user', a'.users.get userId = some user' ∧
    user'.usdsBalance + a.paidTo userId = user.usdsBalance + a'.paidTo userId

theorem Unpaid.paidByRows (h : Unpaid a a') : PaidByRows a a' := by
  intro userId user huser
  refine ⟨user, by rw [h.users, huser], ?_⟩
  rw [State.paidTo, State.paidTo, h.claims]

theorem Settled.paidByRows (h : Settled a a' period ngr stakers) : PaidByRows a a' := by
  intro userId user huser
  have hget := Table.get_updateAll _ _ h.users userId
  rw [huser] at hget
  refine ⟨_, hget, ?_⟩
  have hbalance := foldl_add (g := Account.usdsBalance) (w := DistributionClaim.shareUsds)
    (f := fun (c : DistributionClaim) user =>
      { user with usdsBalance := user.usdsBalance + c.shareUsds }) (fun _ _ => rfl)
    ((shares period ngr stakers).filter (·.userId = userId)) user
  have hrows : a'.paidTo userId = a.paidTo userId + weight DistributionClaim.shareUsds
      ((shares period ngr stakers).filter (·.userId = userId)) := by
    rw [State.paidTo, State.paidTo, h.claims, List.filter_append, weight_append, Nat.add_comm]
  rw [hrows]
  dsimp only
  omega

/-- What a step of a call does to the claims. -/
theorem step_cases {call : Call} {r : Option Call} (h : service.step a v call = some (a', r)) :
    a'.claims = a.claims ∧ (∀ q, a.settled q = true → a'.settled q = true) ∨
      ∃ period ngr stakers, call = .settle period ngr stakers ∧
        Settled a a' period ngr stakers := by
  cases call with
  | settle period ngr stakers =>
    cases h
    exact (settle_cases a v period ngr stakers).imp (fun hunpaid => ⟨hunpaid.claims,
      hunpaid.settled⟩) fun hsettled => ⟨period, ngr, stakers, rfl, hsettled⟩
  | distribute =>
    simp only [service, Call.step, Option.some.injEq] at h
    split at h
    · cases h
      exact .inl ⟨rfl, fun _ h => h⟩
    · cases h
      exact .inl ⟨rfl, fun _ h => h⟩
  | aggregate | findStakers | writeUser | tick =>
    cases h
    exact .inl ⟨rfl, fun _ h => h⟩

/-- Whatever writes an account besides. -/
def Call.writesUser : Call → Bool
  | .writeUser _ _ => true
  | _ => false

theorem step_paidByRows {call : Call} {r : Option Call} (hcall : call.writesUser = false)
    (h : service.step a v call = some (a', r)) : PaidByRows a a' := by
  cases call with
  | settle period ngr stakers =>
    cases h
    rcases settle_cases a v period ngr stakers with hunpaid | hsettled
    · exact hunpaid.paidByRows
    · exact hsettled.paidByRows
  | distribute =>
    simp only [service, Call.step, Option.some.injEq] at h
    split at h
    · cases h
      exact (Unpaid.refl a).paidByRows
    · cases h
      exact (Unpaid.refl a).paidByRows
  | aggregate | findStakers =>
    cases h
    exact (Unpaid.refl a).paidByRows
  | writeUser => cases hcall
  | tick =>
    cases h
    exact fun _ user huser => ⟨user, huser, rfl⟩

/-- The claims of a period. -/
def State.claimsOf (a : State) (q : Hour) : List DistributionClaim :=
  a.claims.filter (·.period = q)

/-- The claims of a period change only while it is open, and close it. -/
theorem step_guarded {call : Call} {r : Option Call} (hc : Claimed a)
    (h : service.step a v call = some (a', r)) :
    (∀ q, a.settled q = true → a'.settled q = true) ∧
    ∀ q, a'.claimsOf q ≠ a.claimsOf q → a.settled q = false ∧ a'.settled q = true := by
  rcases step_cases h with ⟨hclaims, hsettled⟩ | ⟨period, _, _, rfl, hsettled⟩
  · refine ⟨hsettled, ?_⟩
    intro q hne
    refine absurd ?_ hne
    rw [State.claimsOf, State.claimsOf, hclaims]
  · refine ⟨fun q hq => by simp [hsettled.settled, hq], ?_⟩
    intro q hne
    by_cases hq : q = period
    · subst hq
      exact ⟨hsettled.new, by simp [hsettled.settled]⟩
    · refine absurd ?_ hne
      rw [State.claimsOf, State.claimsOf, hsettled.claims, BlockMining.filter_append_period
        DistributionClaim.period shares_period (hc.period_ne hsettled.new), if_neg hq]

theorem step_distinct {call call' : Call} (h : service.step a v call = some (a', some call')) :
    call'.Distinct := by
  cases call with
  | distribute =>
    simp only [service, Call.step, Option.some.injEq] at h
    split at h
    · cases h
    · cases h
      trivial
  | aggregate =>
    cases h
    trivial
  | findStakers =>
    cases h
    exact Table.nodup _
  | settle | writeUser | tick => cases h

def dividendProtocol : Protocol service where
  Inv := Claimed
  Holds _ call := call.Distinct
  starts _ h := by
    rename_i call _
    cases call <;> trivial
  keeps := by
    intro a v call a' r hc hd h
    rcases step_cases h with ⟨hclaims, hsettled⟩ | ⟨period, ngr, stakers, rfl, hsettled⟩
    · exact ⟨fun c hmem => hsettled _ (hc.settled c (hclaims ▸ hmem)), hclaims ▸ hc.distinct⟩
    · exact hsettled.claimed hc hd
  goes _ _ h := step_distinct h
  stable _ _ _ h := h

theorem dividend_initial : dividendProtocol.Inv .initial where
  settled := by
    intro c hc
    cases hc
  distinct := List.nodup_nil

end Distribution

end Scadium.Engine
