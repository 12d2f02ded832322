/-
Scadium.Custody.PlayMoney — play money is not paid to a converted account.

An account is converted while it has no open position, so a stake of play
money in an open position belongs to a play account. A stake outside of one is
paid only by a request that still waits for its engine: a crash bet whose
round is terminal, or a scheduled one whose row is gone (`Waits`). Where no
account is converted while such a request of its own waits, and crash settles
claim the round their bets are from, no credit for play money reaches a
converted account (`no_late_credit`).
-/
import Scadium.Custody.PlayPositions
import Scadium.Custody.DepositTheorems

namespace Scadium.Custody.Play

open Scadium.Prisma Scadium.Prisma.Committed

variable {s s' : State} {userId u : UserId} {p : PositionId} {position : Position} {b stake : Stake}

/-! ## Money -/

theorem real_move {db : Db} {user : User} {delta : Int} {info : DeltaMeta}
    (hu : db.users userId = some user) (v : UserId) :
    real (db.move userId user delta info) v = real db v := by
  by_cases h : v = userId
  · subst h
    simp [real, Db.move, hu, User.increment]
  · simp [real, Db.move, h]

theorem real_moveBalance {db db' : Db} {delta : Int} {info : DeltaMeta}
    (h : moveBalance db userId delta info = .ok db') (v : UserId) : real db' v = real db v := by
  obtain ⟨_, hu, rfl⟩ := moveBalance_ok h
  exact real_move hu v

theorem committed_eq_some {α : Type} {m : Committed α} {a : α} :
    committed m = some a ↔ m = .ok a := by
  cases m <;> simp [committed]

theorem take_ok {amount : Nat} {info : DeltaMeta}
    (h : committed (s.take userId amount info) = some (stake, s')) :
    stake = ⟨s.next, userId, amount, !s.real userId⟩ ∧ ∃ db, (∀ v, real db v = s.real v) ∧
      s' = { s.setDb db with next := s.next + 1 } := by
  obtain ⟨db, hmove, hpure⟩ := bind_ok.mp (committed_eq_some.mp h)
  cases hpure
  exact ⟨rfl, db, real_moveBalance hmove, rfl⟩

/-- What payments change: balances, and the list of credits. -/
structure Pays (due : Stake → Prop) (s s' : State) : Prop where
  db : ∃ db credits, (∀ v, real db v = s.real v) ∧ s' = { s.setDb db with credits := credits } ∧
    ∀ c ∈ credits, c ∈ s.credits ∨ ∃ b, due b ∧ c = (b, s.real b.userId)

theorem Pays.refl (due : Stake → Prop) (s : State) : Pays due s s where
  db := ⟨s.db, s.credits, fun _ => rfl, rfl, fun _ hc => .inl hc⟩

theorem Pays.trans {due : Stake → Prop} {s'' : State} (h : Pays due s s') (h' : Pays due s' s'') :
    Pays due s s'' where
  db := by
    obtain ⟨_, _, hreal, rfl, hcredits⟩ := h.db
    obtain ⟨db', credits', hreal', rfl, hcredits'⟩ := h'.db
    refine ⟨db', credits', fun v => (hreal' v).trans (hreal v), rfl, ?_⟩
    intro c hc
    rcases hcredits' c hc with hold | ⟨b, hb, rfl⟩
    · exact hcredits c hold
    · exact .inr ⟨b, hb, by rw [← hreal]; rfl⟩

theorem pay_ok {amount : Nat} {info : DeltaMeta} (h : s.pay stake amount info = .ok s') :
    Pays (· = stake) s s' := by
  unfold State.pay at h
  split at h
  · cases h
    exact .refl _ _
  · obtain ⟨db, hmove, hpure⟩ := bind_ok.mp h
    cases hpure
    refine ⟨db, _, real_moveBalance hmove, rfl, ?_⟩
    intro c hc
    rcases List.mem_cons.mp hc with rfl | hc
    · exact .inr ⟨stake, rfl, rfl⟩
    · exact .inl hc

theorem Pays.mono {due due' : Stake → Prop} (h : Pays due s s') (himp : ∀ b, due b → due' b) :
    Pays due' s s' where
  db := by
    obtain ⟨db, credits, hreal, hs', hcredits⟩ := h.db
    refine ⟨db, credits, hreal, hs', ?_⟩
    intro c hc
    rcases hcredits c hc with hold | ⟨b, hb, hc⟩
    · exact .inl hold
    · exact .inr ⟨b, himp b hb, hc⟩

theorem payAll_ok {payouts : List (Stake × Nat)} {info : DeltaMeta}
    (h : s.payAll info payouts = .ok s') : Pays (fun b => ∃ q ∈ payouts, q.1 = b) s s' := by
  induction payouts generalizing s with
  | nil =>
    cases h
    exact .refl _ _
  | cons q payouts ih =>
    obtain ⟨_, hpay, hrest⟩ := bind_ok.mp h
    refine ((pay_ok hpay).mono ?_).trans ((ih hrest).mono ?_)
    · rintro b rfl
      exact ⟨q, List.mem_cons_self .., rfl⟩
    · rintro b ⟨q', hq', rfl⟩
      exact ⟨q', List.mem_cons_of_mem _ hq', rfl⟩

theorem activeAt_eq_some {game : Game} : s.activeAt game p = some position ↔
    s.positions.get p = some position ∧ position.game = game ∧ position.active = true := by
  simp [State.activeAt, Option.filter_eq_some_iff]

/-- A settle pays stakes of an active position, which is not active after it. -/
theorem close_ok {game : Game} {stakes : Position → List Stake} {payouts : List (Stake × Nat)}
    {info : DeltaMeta} (h : s.close game p stakes payouts info = some s') :
    ∃ position, s.positions.get p = some position ∧ position.game = game ∧
      position.active = true ∧
      Pays (· ∈ stakes position) (s.setPosition p { position with active := false }) s' := by
  unfold State.close at h
  split at h
  · cases h
  · rename_i position hactive
    obtain ⟨hget, hgame, hactive⟩ := activeAt_eq_some.mp hactive
    split at h
    · rename_i hdue
      refine ⟨position, hget, hgame, hactive, (payAll_ok (committed_eq_some.mp h)).mono ?_⟩
      rintro b ⟨q, hq, rfl⟩
      exact hdue q hq
    · cases h

theorem createPosition_ok {game : Game} {stakes : List Stake}
    (h : s.createPosition game p stakes = some s') :
    s.positions.get p = none ∧ s' = s.setPosition p ⟨game, true, stakes⟩ := by
  unfold State.createPosition at h
  split at h
  · rename_i hnone
    cases h
    exact ⟨hnone, rfl⟩
  · cases h

/-! ## The invariant -/

/-- The stake has its row in a crash round. -/
def CrashRow (s : State) (p : PositionId) (b : Stake) : Prop :=
  ∃ position, s.positions.get p = some position ∧ position.game = .crash ∧ b ∈ position.stakes

/-- The stake is in memory for the round, or captured from it. -/
def Rides (s : State) (p : PositionId) (b : Stake) : Prop :=
  (∃ i h, s.held i = some h ∧ h.round = p ∧ b ∈ h.bets) ∨
    ∃ k st, s.settles k = some st ∧ st.round = p ∧ b ∈ st.bets

structure Inv (s : State) : Prop where
  fresh : ∀ p position, s.positions.get p = some position → ∀ b ∈ position.stakes, b.id < s.next
  /-- Play money in an active position is a play account's. -/
  playing : ∀ p position, s.positions.get p = some position → position.active = true →
    ∀ b ∈ position.stakes, b.play = true → s.real b.userId = false
  sole : ∀ p position, s.positions.get p = some position → position.game = .crash →
    (position.stakes.map (·.userId)).Nodup
  parked : ∀ p position, s.positions.get p = some position → position.game = .scheduled →
    ∀ b ∈ position.stakes, position.active = true → ∀ t c, s.bets t = some c → c.stake ≠ b
  called : ∀ t c, s.bets t = some c → CrashRow s c.round c.stake
  waits : ∀ t c, s.bets t = some c → c.phase ≠ .refunded → c.stake.play = true →
    s.real c.stake.userId = false
  distinct : ∀ t t' c c', s.bets t = some c → s.bets t' = some c' → c.stake = c'.stake → t = t'
  scheduled : ∀ t c, s.schedules t = some c → c.stake.play = true → s.real c.stake.userId = false
  riding : ∀ p b, Rides s p b → CrashRow s p b
  apart : ∀ t c p b, s.bets t = some c → Rides s p b → b ≠ c.stake
  numbered : ∀ p d, s.dealers p = some d → ∀ b ∈ d.seats, b.id < s.next
  seats : ∀ p d, s.dealers p = some d → ∀ b ∈ d.seats, b.play = true →
    s.real b.userId = false ∧ s.enabled = false
  seated : s.enabled = true → ∀ p d, s.dealers p = some d → ∀ b ∈ d.seats, s.real b.userId = true
  asserted : s.enabled = true → ∀ t i u, s.asserted t = some (i, u) → s.real u = true
  tables : ∀ p d, s.dealers p = some d →
    ∃ position, s.positions.get p = some position ∧ position.game = .blackjack
  dealt : s.enabled = true → ∀ p d position, s.dealers p = some d →
    s.positions.get p = some position → ∀ b ∈ position.stakes, b.play = false
  read : ∀ k rc, s.recoveries k = some rc →
    ∃ position, s.positions.get rc.position = some position ∧
      (position.game = .blackjack → ∀ b ∈ rc.rows, b.play = true →
        (position.active = true → s.real b.userId = false) ∧
          (s.enabled = true → b ∈ position.stakes))
  good : ∀ c ∈ s.credits, c.1.play = true → c.2 = false

theorem Inv.boot (users : UserId → Option User) : Inv (.boot users) where
  fresh p position h := by cases h
  playing p position h := by cases h
  sole p position h := by cases h
  parked p position h := by cases h
  called t c h := by cases h
  waits t c h := by cases h
  distinct t t' c c' h := by cases h
  scheduled t c h := by cases h
  riding p b h := by
    rcases h with ⟨i, h, hheld, -⟩ | ⟨k, _, hst, -⟩
    · cases hheld
    · cases hst
  apart t c p b h := by cases h
  numbered p d h := by cases h
  seats p d h := by cases h
  seated h := by cases h
  asserted h := by cases h
  tables p d h := by cases h
  dealt h := by cases h
  read k rc h := by cases h
  good c hc := by cases hc

/-- A sole row: the same user is the same stake. -/
theorem Inv.eq_of_user (h : Inv s) {b' : Stake} (hb : CrashRow s p b) (hb' : CrashRow s p b')
    (huser : b.userId = b'.userId) : b = b' := by
  obtain ⟨position, hget, hgame, hmem⟩ := hb
  obtain ⟨_, hget', -, hmem'⟩ := hb'
  rw [hget] at hget'
  cases hget'
  exact List.inj_on_of_nodup_map (h.sole p position hget hgame) hmem hmem' huser

/-! ### Movements -/

/-- Nothing but balances, rows of custody, the next id and the credits. -/
theorem Inv.money (h : Inv s) {custody : CustodyDb} {next : Nat} {credits : List (Stake × Bool)}
    (hreal : ∀ v, real custody.db v = s.real v) (hnext : s.next ≤ next)
    (hcredits : ∀ c ∈ credits, c.1.play = true → c.2 = false) :
    Inv { s with custody := custody, next := next, credits := credits } := by
  have hsame : ∀ v, State.real { s with custody := custody, next := next, credits := credits } v =
      s.real v := hreal
  exact
    { fresh := fun p position hget b hb => Nat.lt_of_lt_of_le (h.fresh p position hget b hb) hnext
      playing := fun p position hget hactive b hb hplay =>
        (hsame _).trans (h.playing p position hget hactive b hb hplay)
      sole := h.sole
      parked := h.parked
      called := h.called
      waits := fun t c hc hphase hplay => (hsame _).trans (h.waits t c hc hphase hplay)
      distinct := h.distinct
      scheduled := fun t c hc hplay => (hsame _).trans (h.scheduled t c hc hplay)
      riding := h.riding
      apart := h.apart
      numbered := fun p d hd b hb => Nat.lt_of_lt_of_le (h.numbered p d hd b hb) hnext
      seats := fun p d hd b hb hplay =>
        ⟨(hsame _).trans (h.seats p d hd b hb hplay).1, (h.seats p d hd b hb hplay).2⟩
      seated := fun henabled p d hd b hb => (hsame _).trans (h.seated henabled p d hd b hb)
      asserted := fun henabled t i u hu => (hsame _).trans (h.asserted henabled t i u hu)
      tables := h.tables
      dealt := h.dealt
      read := fun k rc hrc => by
        obtain ⟨position, hget, hrows⟩ := h.read k rc hrc
        exact ⟨position, hget, fun hgame b hb hplay =>
          ⟨fun hactive => (hsame _).trans ((hrows hgame b hb hplay).1 hactive),
            (hrows hgame b hb hplay).2⟩⟩
      good := hcredits }

/-- A stake is taken: it is new, and play money only of a play account. -/
theorem Inv.take (h : Inv s) {amount : Nat} {info : DeltaMeta}
    (htake : committed (s.take userId amount info) = some (stake, s')) :
    Inv s' ∧ stake = ⟨s.next, userId, amount, !s.real userId⟩ ∧ (∀ v, s'.real v = s.real v) ∧
      ∃ db, s' = { s.setDb db with next := s.next + 1 } := by
  obtain ⟨hstake, db, hreal, rfl⟩ := take_ok htake
  exact ⟨h.money hreal (Nat.le_succ _) h.good, hstake, hreal, db, rfl⟩

/-- Stakes are paid whose play money is a play account's. -/
theorem Inv.pays {due : Stake → Prop} (h : Inv s) (hpays : Pays due s s')
    (hdue : ∀ b, due b → b.play = true → s.real b.userId = false) :
    Inv s' ∧ ∃ db credits, (∀ v, real db v = s.real v) ∧
      s' = { s.setDb db with credits := credits } := by
  obtain ⟨db, credits, hreal, rfl, hcredits⟩ := hpays.db
  refine ⟨h.money hreal le_rfl ?_, db, credits, hreal, rfl⟩
  intro c hc hplay
  rcases hcredits c hc with hold | ⟨b, hb, rfl⟩
  · exact h.good c hold hplay
  · exact hdue b hb hplay

/-! ### Rows -/

/-- What the other positions say is kept; `position` says it at `p`. -/
theorem Inv.setPosition (h : Inv s) (hfresh : ∀ b ∈ position.stakes, b.id < s.next)
    (hplaying : position.active = true → ∀ b ∈ position.stakes, b.play = true →
      s.real b.userId = false)
    (hsole : position.game = .crash → (position.stakes.map (·.userId)).Nodup)
    (hparked : position.game = .scheduled → ∀ b ∈ position.stakes, position.active = true →
      ∀ t c, s.bets t = some c → c.stake ≠ b)
    (hcalled : ∀ t c, s.bets t = some c → c.round = p →
      position.game = .crash ∧ c.stake ∈ position.stakes)
    (hriding : ∀ b, Rides s p b → position.game = .crash ∧ b ∈ position.stakes)
    (htables : ∀ d, s.dealers p = some d → position.game = .blackjack)
    (hdealt : s.enabled = true → ∀ d, s.dealers p = some d → ∀ b ∈ position.stakes, b.play = false)
    (hread : ∀ k rc, s.recoveries k = some rc → rc.position = p → position.game = .blackjack →
      ∀ b ∈ rc.rows, b.play = true → (position.active = true → s.real b.userId = false) ∧
        (s.enabled = true → b ∈ position.stakes)) : Inv (s.setPosition p position) := by
  have hrow : ∀ q b, CrashRow s q b → q ≠ p → CrashRow (s.setPosition p position) q b := by
    rintro q b ⟨position', hget, hgame, hmem⟩ hne
    exact ⟨position', (s.positions.get_set_ne hne).trans hget, hgame, hmem⟩
  have hhere : ∀ b, position.game = .crash ∧ b ∈ position.stakes →
      CrashRow (s.setPosition p position) p b :=
    fun b hb => ⟨position, s.positions.get_set_self, hb.1, hb.2⟩
  refine { fresh := ?_, playing := ?_, sole := ?_, parked := ?_, called := ?_, waits := h.waits,
           distinct := h.distinct, scheduled := h.scheduled, riding := ?_, apart := h.apart,
           numbered := h.numbered, seats := h.seats, seated := h.seated,
           asserted := h.asserted, tables := ?_, dealt := ?_, read := ?_, good := h.good }
  · exact s.positions.forall_set h.fresh hfresh
  · exact s.positions.forall_set h.playing hplaying
  · exact s.positions.forall_set h.sole hsole
  · exact s.positions.forall_set h.parked hparked
  · intro t c hc
    by_cases heq : c.round = p
    · rw [heq]
      exact hhere _ (hcalled t c hc heq)
    · exact hrow _ _ (h.called t c hc) heq
  · intro q b hb
    by_cases heq : q = p
    · subst heq
      exact hhere b (hriding b hb)
    · exact hrow q b (h.riding q b hb) heq
  · intro q d hd
    by_cases heq : q = p
    · subst heq
      exact ⟨position, s.positions.get_set_self, htables d hd⟩
    · obtain ⟨position', hget, hgame⟩ := h.tables q d hd
      exact ⟨position', (s.positions.get_set_ne heq).trans hget, hgame⟩
  · intro henabled q d position' hd hget
    by_cases heq : q = p
    · subst heq
      rw [show (s.setPosition q position).positions.get q = some position from
        s.positions.get_set_self] at hget
      cases hget
      exact hdealt henabled d hd
    · exact h.dealt henabled q d position' hd ((s.positions.get_set_ne heq).symm.trans hget)
  · intro k rc hrc
    by_cases heq : rc.position = p
    · refine ⟨position, ?_, hread k rc hrc heq⟩
      rw [heq]
      exact s.positions.get_set_self
    · obtain ⟨position', hget, hrows⟩ := h.read k rc hrc
      exact ⟨position', (s.positions.get_set_ne heq).trans hget, hrows⟩

theorem Inv.game_of_table (h : Inv s) {d : Dealer} (hd : s.dealers p = some d)
    (hget : s.positions.get p = some position) : position.game = .blackjack := by
  obtain ⟨_, hget', hgame⟩ := h.tables p d hd
  rw [hget] at hget'
  cases hget'
  exact hgame

theorem Inv.rows_read (h : Inv s) {k : SessionId} {rc : Recovery} (hrc : s.recoveries k = some rc)
    (hget : s.positions.get rc.position = some position) (hgame : position.game = .blackjack) :
    ∀ b ∈ rc.rows, b.play = true → (position.active = true → s.real b.userId = false) ∧
      (s.enabled = true → b ∈ position.stakes) := by
  obtain ⟨_, hget', hrows⟩ := h.read k rc hrc
  rw [hget] at hget'
  cases hget'
  exact hrows hgame

/-- A position is over. -/
theorem Inv.deactivate (h : Inv s) (hget : s.positions.get p = some position) :
    Inv (s.setPosition p { position with active := false }) := by
  refine h.setPosition (h.fresh p position hget) nofun
    (h.sole p position hget) nofun ?_ ?_
    (fun d hd => (h.game_of_table hd hget : position.game = _))
    (fun henabled d hd => h.dealt henabled p d position hd hget) ?_
  · rintro t c hc rfl
    obtain ⟨position', hget', hgame, hmem⟩ := h.called t c hc
    rw [hget] at hget'
    cases hget'
    exact ⟨hgame, hmem⟩
  · intro b hb
    obtain ⟨_, hget', hgame, hmem⟩ := h.riding p b hb
    rw [hget] at hget'
    cases hget'
    exact ⟨hgame, hmem⟩
  · rintro k rc hrc rfl hgame b hb hplay
    exact ⟨fun hactive => (by cases hactive), (h.rows_read hrc hget hgame b hb hplay).2⟩

/-- A stake joins the others of a position. -/
theorem Inv.join (h : Inv s) (hget : s.positions.get p = some position) (hid : b.id < s.next)
    (hplay : b.play = true → s.real b.userId = false)
    (hsole : position.game = .crash → ∀ b' ∈ position.stakes, b'.userId ≠ b.userId)
    (hparked : position.game ≠ .scheduled) (hdealt : position.game ≠ .blackjack) :
    Inv (s.setPosition p { position with stakes := position.stakes ++ [b] }) := by
  have hnone : ∀ d, s.dealers p ≠ some d := fun d hd => hdealt (h.game_of_table hd hget)
  have hmem : ∀ {P : Stake → Prop}, (∀ b' ∈ position.stakes, P b') → P b →
      ∀ b' ∈ position.stakes ++ [b], P b' := by
    intro P hold hnew b' hb'
    rcases List.mem_append.mp hb' with hb' | hb'
    · exact hold b' hb'
    · rw [List.mem_singleton.mp hb']
      exact hnew
  refine h.setPosition (hmem (h.fresh p position hget) hid)
    (fun hactive => hmem (h.playing p position hget hactive) hplay) ?_
    (fun hgame => absurd hgame hparked) ?_ ?_ (fun d hd => absurd hd (hnone d))
    (fun _ d hd => absurd hd (hnone d)) ?_
  · intro hgame
    rw [List.map_append, List.map_singleton, ← List.concat_eq_append]
    refine (h.sole p position hget hgame).concat ?_
    intro huser
    obtain ⟨b', hb', heq⟩ := List.mem_map.mp huser
    exact hsole hgame b' hb' heq
  · rintro t c hc rfl
    obtain ⟨position', hget', hgame, hrow⟩ := h.called t c hc
    rw [hget] at hget'
    cases hget'
    exact ⟨hgame, List.mem_append_left _ hrow⟩
  · intro b' hb'
    obtain ⟨_, hget', hgame, hrow⟩ := h.riding p b' hb'
    rw [hget] at hget'
    cases hget'
    exact ⟨hgame, List.mem_append_left _ hrow⟩
  · rintro k rc hrc rfl hgame b' hb' hplay'
    obtain ⟨hreal, hrow⟩ := h.rows_read hrc hget hgame b' hb' hplay'
    exact ⟨hreal, fun henabled => List.mem_append_left _ (hrow henabled)⟩

/-- A row that is new. -/
theorem Inv.create (h : Inv s) {game : Game} {stakes : List Stake}
    (hcreate : s.createPosition game p stakes = some s') (hid : ∀ b ∈ stakes, b.id < s.next)
    (hplay : ∀ b ∈ stakes, b.play = true → s.real b.userId = false) (hone : stakes.length ≤ 1)
    (hparked : ∀ b ∈ stakes, ∀ t c, s.bets t = some c → c.stake ≠ b) : Inv s' := by
  obtain ⟨hnone, rfl⟩ := createPosition_ok hcreate
  have hfree : ∀ b, ¬ CrashRow s p b := by
    rintro b ⟨position, hget, -⟩
    rw [hnone] at hget
    cases hget
  have hnodup : (stakes.map (·.userId)).Nodup := by
    match stakes, hone with
    | [], _ => exact .nil
    | [b], _ => exact List.nodup_singleton _
  have htable : ∀ d, s.dealers p ≠ some d := by
    intro d hd
    obtain ⟨position, hget, -⟩ := h.tables p d hd
    rw [hnone] at hget
    cases hget
  refine h.setPosition hid (fun _ => hplay) (fun _ => hnodup) (fun _ b hb _ => hparked b hb)
    ?_ (fun b hb => absurd (h.riding p b hb) (hfree b)) (fun d hd => absurd hd (htable d))
    (fun _ d hd => absurd hd (htable d)) ?_
  · rintro t c hc rfl
    exact absurd (h.called t c hc) (hfree _)
  · rintro k rc hrc rfl
    obtain ⟨_, hget, -⟩ := h.read k rc hrc
    rw [hnone] at hget
    cases hget

/-- The settle of a position: what it pays is in it, or of a play account. -/
theorem Inv.close (h : Inv s) {game : Game} {stakes : Position → List Stake}
    {payouts : List (Stake × Nat)} {info : DeltaMeta}
    (hclose : s.close game p stakes payouts info = some s')
    (hdue : ∀ position, s.positions.get p = some position → position.game = game →
      position.active = true → ∀ b ∈ stakes position, b.play = true → s.real b.userId = false) :
    Inv s' ∧ ∃ position db credits, s.positions.get p = some position ∧
      (∀ v, real db v = s.real v) ∧
      s' = { (s.setPosition p { position with active := false }).setDb db with
        credits := credits } := by
  obtain ⟨position, hget, hgame, hactive, hpays⟩ := close_ok hclose
  obtain ⟨hinv, db, credits, hreal, rfl⟩ :=
    (h.deactivate hget).pays hpays (hdue position hget hgame hactive)
  exact ⟨hinv, position, db, credits, hget, hreal, rfl⟩

/-- A settle that pays the stakes of its position. -/
theorem Inv.close_own (h : Inv s) {game : Game} {payouts : List (Stake × Nat)} {info : DeltaMeta}
    (hclose : s.close game p (·.stakes) payouts info = some s') : Inv s' :=
  (h.close hclose fun position hget _ hactive => h.playing p position hget hactive).1

/-! ### Sessions -/

/-- The rounds in memory and the captured ones hold no other stakes than
before, or stakes with a row that no call waits for. -/
theorem Inv.ride (h : Inv s) {held : Inst → Option Held} {settles : SessionId → Option Settling}
    (hrides : ∀ q b, Rides { s with held := held, settles := settles } q b → Rides s q b ∨
      CrashRow s q b ∧ ∀ t c, s.bets t = some c → b ≠ c.stake) :
    Inv { s with held := held, settles := settles } :=
  { h with
    riding := fun q b hb => (hrides q b hb).elim (h.riding q b) fun hnew => hnew.1
    apart := fun t c q b hc hb =>
      (hrides q b hb).elim (h.apart t c q b hc) fun hnew => hnew.2 t c hc }

/-- A round in memory: of stakes that ride already, or have a row that no
call waits for. -/
theorem Inv.setHeld (h : Inv s) {i : Inst} {held : Held}
    (hbets : ∀ b ∈ held.bets, Rides s held.round b ∨
      CrashRow s held.round b ∧ ∀ t c, s.bets t = some c → b ≠ c.stake) :
    Inv { s with held := Function.update s.held i (some held) } := by
  refine h.ride fun q b hb => ?_
  rcases hb with ⟨j, held', hheld, rfl, hmem⟩ | hcaptured
  · simp only at hheld
    by_cases hj : j = i
    · subst hj
      rw [Function.update_self] at hheld
      cases hheld
      exact hbets b hmem
    · rw [Function.update_of_ne hj] at hheld
      exact .inl (.inl ⟨j, held', hheld, rfl, hmem⟩)
  · exact .inl (.inr hcaptured)

/-- A call goes on, or is over. -/
theorem Inv.setBet (h : Inv s) {t : SessionId} {c : Bet} (hc : s.bets t = some c)
    {c' : Option Bet} (hsame : ∀ d, c' = some d → d.round = c.round ∧ d.stake = c.stake ∧
      (d.phase ≠ .refunded → c.phase ≠ .refunded)) :
    Inv { s with bets := Function.update s.bets t c' } := by
  have hold : ∀ t' d, Function.update s.bets t c' t' = some d → ∃ e, s.bets t' = some e ∧
      d.round = e.round ∧ d.stake = e.stake ∧ (d.phase ≠ .refunded → e.phase ≠ .refunded) := by
    intro t' d hd
    by_cases ht : t' = t
    · subst ht
      rw [Function.update_self] at hd
      exact ⟨c, hc, hsame d hd⟩
    · rw [Function.update_of_ne ht] at hd
      exact ⟨d, hd, rfl, rfl, id⟩
  refine { h with parked := ?_, called := ?_, waits := ?_, distinct := ?_, apart := ?_ }
  · intro p position hget hgame b hb hactive t' d hd
    obtain ⟨e, he, -, hstake, -⟩ := hold t' d hd
    rw [hstake]
    exact h.parked p position hget hgame b hb hactive t' e he
  · intro t' d hd
    obtain ⟨e, he, hround, hstake, -⟩ := hold t' d hd
    rw [hround, hstake]
    exact h.called t' e he
  · intro t' d hd hphase hplay
    obtain ⟨e, he, -, hstake, hphase'⟩ := hold t' d hd
    rw [hstake] at hplay ⊢
    exact h.waits t' e he (hphase' hphase) hplay
  · intro t' t'' d d' hd hd' heq
    obtain ⟨e, he, -, hstake, -⟩ := hold t' d hd
    obtain ⟨e', he', -, hstake', -⟩ := hold t'' d' hd'
    exact h.distinct t' t'' e e' he he' (by rw [← hstake, ← hstake', heq])
  · intro t' d q b hd hb
    obtain ⟨e, he, -, hstake, -⟩ := hold t' d hd
    rw [hstake]
    exact h.apart t' e q b he hb

theorem Inv.endBet (h : Inv s) {t : SessionId} {c : Bet} (hc : s.bets t = some c) :
    Inv { s with bets := Function.update s.bets t none } :=
  h.setBet hc nofun

/-- A call has its debit and its row. -/
theorem Inv.addBet (h : Inv s) {t : SessionId} {c : Bet} (hnone : s.bets t = none)
    (hrow : CrashRow s c.round c.stake)
    (hplay : c.stake.play = true → s.real c.stake.userId = false)
    (hcalls : ∀ t' d, s.bets t' = some d → d.stake ≠ c.stake)
    (hrides : ∀ q b, Rides s q b → b ≠ c.stake)
    (hparked : ∀ p position, s.positions.get p = some position → position.game = .scheduled →
      ∀ b ∈ position.stakes, position.active = true → c.stake ≠ b) :
    Inv { s with bets := Function.update s.bets t (some c) } := by
  have hcases : ∀ {P : SessionId → Bet → Prop}, (∀ t' d, s.bets t' = some d → P t' d) → P t c →
      ∀ t' d, Function.update s.bets t (some c) t' = some d → P t' d := by
    intro P hold hnew t' d hd
    by_cases ht : t' = t
    · subst ht
      rw [Function.update_self] at hd
      cases hd
      exact hnew
    · rw [Function.update_of_ne ht] at hd
      exact hold t' d hd
  refine { h with parked := ?_, called := ?_, waits := ?_, distinct := ?_, apart := ?_ }
  · exact fun p position hget hgame b hb hactive => hcases
      (h.parked p position hget hgame b hb hactive) (hparked p position hget hgame b hb hactive)
  · exact hcases h.called hrow
  · exact hcases h.waits fun _ => hplay
  · intro t' t'' d d' hd hd' heq
    simp only at hd hd'
    by_cases ht : t' = t <;> by_cases ht' : t'' = t
    · rw [ht, ht']
    · subst ht
      rw [Function.update_self] at hd
      rw [Function.update_of_ne ht'] at hd'
      cases hd
      exact absurd heq.symm (hcalls t'' d' hd')
    · subst ht'
      rw [Function.update_self] at hd'
      rw [Function.update_of_ne ht] at hd
      cases hd'
      exact absurd heq (hcalls t' d hd)
    · rw [Function.update_of_ne ht] at hd
      rw [Function.update_of_ne ht'] at hd'
      exact h.distinct t' t'' d d' hd hd' heq
  · intro t' d q b hd hb
    exact hcases (P := fun _ d => b ≠ d.stake) (fun t' d hd => h.apart t' d q b hd hb)
      (hrides q b hb) t' d hd

/-- A scheduled bet has its debit and its row. -/
theorem Inv.addSchedule (h : Inv s) {t : SessionId} {c : Schedule}
    (hplay : c.stake.play = true → s.real c.stake.userId = false) :
    Inv { s with schedules := Function.update s.schedules t (some c) } := by
  refine { h with scheduled := ?_ }
  intro t' d hd
  simp only at hd
  by_cases ht : t' = t
  · subst ht
    rw [Function.update_self] at hd
    cases hd
    exact hplay
  · rw [Function.update_of_ne ht] at hd
    exact h.scheduled t' d hd

/-- A recovery has read the rows of a position. -/
theorem Inv.addRecovery (h : Inv s) {k : SessionId} {i : Inst}
    (hget : s.positions.get p = some position) :
    Inv { s with
      recoveries := Function.update s.recoveries k (some ⟨i, p, position.stakes⟩) } := by
  refine { h with read := ?_ }
  intro k' rc hrc
  simp only at hrc
  by_cases hk : k' = k
  · subst hk
    rw [Function.update_self] at hrc
    cases hrc
    refine ⟨position, hget, ?_⟩
    intro _ b hb hplay
    exact ⟨fun hactive => h.playing p position hget hactive b hb hplay, fun _ => hb⟩
  · rw [Function.update_of_ne hk] at hrc
    exact h.read k' rc hrc

/-- A user may bet at a table: with custody on, a real one. -/
theorem Inv.addAsserted (h : Inv s) {t : SessionId} {i : Inst}
    (hreal : s.enabled = true → s.real userId = true) :
    Inv { s with asserted := Function.update s.asserted t (some (i, userId)) } := by
  refine { h with asserted := ?_ }
  intro hon t' j u hu
  simp only at hu
  by_cases ht : t' = t
  · subst ht
    rw [Function.update_self] at hu
    cases hu
    exact hreal hon
  · rw [Function.update_of_ne ht] at hu
    exact h.asserted hon t' j u hu

/-- A table in memory, with its seats. -/
theorem Inv.setDealer (h : Inv s) {d : Dealer} (hid : ∀ b ∈ d.seats, b.id < s.next)
    (hplay : ∀ b ∈ d.seats, b.play = true → s.real b.userId = false)
    (hreal : s.enabled = true → ∀ b ∈ d.seats, b.play = false ∧ s.real b.userId = true)
    (hget : s.positions.get p = some position) (hgame : position.game = .blackjack)
    (hdealt : s.enabled = true → ∀ b ∈ position.stakes, b.play = false) :
    Inv { s with dealers := Function.update s.dealers p (some d) } := by
  have hcases : ∀ {P : PositionId → Dealer → Prop}, (∀ q d, s.dealers q = some d → P q d) → P p d →
      ∀ q d', Function.update s.dealers p (some d) q = some d' → P q d' := by
    intro P hold hnew q d' hd
    by_cases hq : q = p
    · subst hq
      rw [Function.update_self] at hd
      cases hd
      exact hnew
    · rw [Function.update_of_ne hq] at hd
      exact hold q d' hd
  refine { h with numbered := ?_, seats := ?_, seated := ?_, tables := ?_, dealt := ?_ }
  · exact hcases h.numbered hid
  · refine hcases h.seats ?_
    intro b hb hb'
    refine ⟨hplay b hb hb', ?_⟩
    cases hon : s.enabled with
    | false => rfl
    | true =>
      rw [(hreal hon b hb).1] at hb'
      cases hb'
  · exact fun hon => hcases (h.seated hon) fun b hb => (hreal hon b hb).2
  · exact hcases h.tables ⟨position, hget, hgame⟩
  · intro hon q d' position' hd hget'
    refine hcases (P := fun q _ => ∀ position', s.positions.get q = some position' →
      ∀ b ∈ position'.stakes, b.play = false) (fun q d hd position' => h.dealt hon q d position' hd)
      ?_ q d' hd position' hget'
    intro position' hget'
    rw [hget] at hget'
    cases hget'
    exact hdealt hon

/-- Sessions end; with all of them, custody may be switched on or off. -/
structure Drops (s s' : State) : Prop where
  custody : s'.custody = s.custody
  positions : s'.positions = s.positions
  next : s'.next = s.next
  credits : s'.credits = s.credits
  bets : ∀ t c, s'.bets t = some c → s.bets t = some c
  schedules : ∀ t c, s'.schedules t = some c → s.schedules t = some c
  held : ∀ i h, s'.held i = some h → s.held i = some h
  settles : ∀ k st, s'.settles k = some st → s.settles k = some st
  recoveries : ∀ k rc, s'.recoveries k = some rc → s.recoveries k = some rc
  asserted : ∀ t a, s'.asserted t = some a → s.asserted t = some a
  dealers : ∀ p d, s'.dealers p = some d → s.dealers p = some d
  enabled : s'.enabled = s.enabled ∨ (∀ p, s'.dealers p = none) ∧ (∀ t, s'.asserted t = none) ∧
    ∀ k, s'.recoveries k = none

theorem Inv.drop (h : Inv s) (hdrops : Drops s s') : Inv s' := by
  obtain ⟨hcustody, hpositions, hnext, hcredits, hbets, hschedules, hheld, hsettles, hrecoveries,
    hasserted, hdealers, henabled⟩ := hdrops
  have hreal : ∀ v, s'.real v = s.real v := by
    intro v
    simp [State.real, State.db, hcustody]
  have hrides : ∀ q b, Rides s' q b → Rides s q b := by
    rintro q b (⟨i, h, hh, hround, hmem⟩ | ⟨k, st, hst, hround, hmem⟩)
    · exact .inl ⟨i, h, hheld i h hh, hround, hmem⟩
    · exact .inr ⟨k, st, hsettles k st hst, hround, hmem⟩
  have hrow : ∀ q b, CrashRow s q b → CrashRow s' q b := by
    rintro q b ⟨position, hget, hrest⟩
    exact ⟨position, by rw [hpositions]; exact hget, hrest⟩
  refine { fresh := ?_, playing := ?_, sole := ?_, parked := ?_, called := ?_, waits := ?_,
           distinct := ?_, scheduled := ?_, riding := ?_, apart := ?_, numbered := ?_, seats := ?_,
           seated := ?_, asserted := ?_, tables := ?_, dealt := ?_, read := ?_, good := ?_ }
  · rw [hpositions, hnext]
    exact h.fresh
  · intro p position hget hactive b hb hplay
    rw [hpositions] at hget
    exact (hreal _).trans (h.playing p position hget hactive b hb hplay)
  · rw [hpositions]
    exact h.sole
  · intro p position hget hgame b hb hactive t c hc
    rw [hpositions] at hget
    exact h.parked p position hget hgame b hb hactive t c (hbets t c hc)
  · exact fun t c hc => hrow _ _ (h.called t c (hbets t c hc))
  · exact fun t c hc hphase hplay => (hreal _).trans (h.waits t c (hbets t c hc) hphase hplay)
  · exact fun t t' c c' hc hc' => h.distinct t t' c c' (hbets t c hc) (hbets t' c' hc')
  · exact fun t c hc hplay => (hreal _).trans (h.scheduled t c (hschedules t c hc) hplay)
  · exact fun q b hb => hrow q b (h.riding q b (hrides q b hb))
  · exact fun t c q b hc hb => h.apart t c q b (hbets t c hc) (hrides q b hb)
  · intro p d hd b hb
    rw [hnext]
    exact h.numbered p d (hdealers p d hd) b hb
  · intro p d hd b hb hplay
    obtain ⟨hplayer, hdisabled⟩ := h.seats p d (hdealers p d hd) b hb hplay
    refine ⟨(hreal _).trans hplayer, ?_⟩
    rcases henabled with hsame | ⟨hnone, -⟩
    · exact hsame.trans hdisabled
    · rw [hnone p] at hd
      cases hd
  · intro hon p d hd b hb
    rcases henabled with hsame | ⟨hnone, -⟩
    · exact (hreal _).trans (h.seated (hsame.symm.trans hon) p d (hdealers p d hd) b hb)
    · rw [hnone p] at hd
      cases hd
  · intro hon t i u hu
    rcases henabled with hsame | ⟨-, hnone, -⟩
    · exact (hreal _).trans (h.asserted (hsame.symm.trans hon) t i u (hasserted t _ hu))
    · rw [hnone t] at hu
      cases hu
  · intro p d hd
    rw [hpositions]
    exact h.tables p d (hdealers p d hd)
  · intro hon p d position hd hget
    rw [hpositions] at hget
    rcases henabled with hsame | ⟨hnone, -⟩
    · exact h.dealt (hsame.symm.trans hon) p d position (hdealers p d hd) hget
    · rw [hnone p] at hd
      cases hd
  · intro k rc hrc
    rcases henabled with hsame | ⟨-, -, hnone⟩
    · obtain ⟨position, hget, hrows⟩ := h.read k rc (hrecoveries k rc hrc)
      refine ⟨position, by rw [hpositions]; exact hget, ?_⟩
      intro hgame b hb hplay
      obtain ⟨hplayer, hrow⟩ := hrows hgame b hb hplay
      exact ⟨fun hactive => (hreal _).trans (hplayer hactive),
        fun hon => hrow (hsame.symm.trans hon)⟩
    · rw [hnone k] at hrc
      cases hrc
  · rw [hcredits]
    exact h.good

theorem of_update_none {α : Type} {f : SessionId → Option α} {t t' : SessionId} {a : α}
    (h : Function.update f t none t' = some a) : f t' = some a := by
  by_cases ht : t' = t
  · subst ht
    rw [Function.update_self] at h
    cases h
  · rwa [Function.update_of_ne ht] at h

theorem Inv.endSchedule (h : Inv s) (t : SessionId) :
    Inv { s with schedules := Function.update s.schedules t none } :=
  h.drop ⟨rfl, rfl, rfl, rfl, fun _ _ hc => hc, fun _ _ => of_update_none, fun _ _ hh => hh,
    fun _ _ hst => hst, fun _ _ hrc => hrc, fun _ _ ha => ha, fun _ _ hd => hd, .inl rfl⟩

theorem Inv.endSettle (h : Inv s) (k : SessionId) :
    Inv { s with settles := Function.update s.settles k none } :=
  h.drop ⟨rfl, rfl, rfl, rfl, fun _ _ hc => hc, fun _ _ hc => hc, fun _ _ hh => hh,
    fun _ _ => of_update_none, fun _ _ hrc => hrc, fun _ _ ha => ha, fun _ _ hd => hd, .inl rfl⟩

theorem Inv.endRecovery (h : Inv s) (k : SessionId) :
    Inv { s with recoveries := Function.update s.recoveries k none } :=
  h.drop ⟨rfl, rfl, rfl, rfl, fun _ _ hc => hc, fun _ _ hc => hc, fun _ _ hh => hh,
    fun _ _ hst => hst, fun _ _ => of_update_none, fun _ _ ha => ha, fun _ _ hd => hd, .inl rfl⟩

theorem Inv.endAsserted (h : Inv s) (t : SessionId) :
    Inv { s with asserted := Function.update s.asserted t none } :=
  h.drop ⟨rfl, rfl, rfl, rfl, fun _ _ hc => hc, fun _ _ hc => hc, fun _ _ hh => hh,
    fun _ _ hst => hst, fun _ _ hrc => hrc, fun _ _ => of_update_none, fun _ _ hd => hd, .inl rfl⟩

theorem of_filter {α : Type} {o : Option α} {f : α → Bool} {a : α} (h : o.filter f = some a) :
    o = some a := (Option.filter_eq_some_iff.mp h).1

theorem Inv.kill (h : Inv s) (i : Inst) : Inv (kill s i) := by
  refine h.drop ⟨rfl, rfl, rfl, rfl, fun _ _ => of_filter, fun _ _ => of_filter, ?_,
    fun _ _ => of_filter, fun _ _ => of_filter, fun _ _ => of_filter, fun _ _ => of_filter,
    .inl rfl⟩
  intro j held hheld
  simp only [Play.kill] at hheld
  split at hheld
  · cases hheld
  · exact hheld

theorem Inv.restart (h : Inv s) (enabled : Bool) : Inv (restart s enabled) := by
  refine h.drop ⟨rfl, rfl, rfl, rfl, ?_, ?_, ?_, ?_, ?_, ?_, ?_,
    .inr ⟨fun _ => rfl, fun _ => rfl, fun _ => rfl⟩⟩
  all_goals
    intro _ _ hsome
    cases hsome

/-! ## The conversion -/

/-- The credit of this deposit converts the account. -/
def Converts (s : State) (env : Env) (id : TransferId) (userId : UserId) : Prop :=
  ∃ row, s.custody.transfers.get id = some row ∧ row.status = .held ∧
    row.heldReason ≠ some .ambiguous_sender ∧ s.custody.attribute row = some userId ∧
    env.minDepositLamports ≤ row.amountLamports ∧ env.blocked = none ∧ s.real userId = false ∧
    openPlayPositions s.positions userId = []

theorem real_setFunded {db : Db} {now : Time} {user : User} (hu : db.users userId = some user)
    (v : UserId) : real (setFunded db userId now) v = (v == userId || real db v) := by
  by_cases h : v = userId
  · subst h
    simp [real, setFunded, hu]
  · simp [real, setFunded, h]

theorem convert_real {db db' : Db} {playBalance : Int} {id : TransferId} {now : Time} {user : User}
    (hu : db.users userId = some user) (h : convert db userId playBalance id now = .ok db')
    (v : UserId) : real db' v = (v == userId || real db v) := by
  obtain ⟨_, hforfeit, hpure⟩ := bind_ok.mp h
  cases hpure
  simp only [forfeit] at hforfeit
  split at hforfeit
  · obtain ⟨_, hu', rfl⟩ := moveBalance_ok hforfeit
    refine (real_setFunded (Function.update_self ..) v).trans ?_
    rw [real_move hu']
  · cases hforfeit
    exact real_setFunded hu v

theorem pay_real {c c' : CustodyDb} {db : Db} {id : TransferId} {row : CustodyTransfer}
    (h : c.pay db id row userId = .ok c') (v : UserId) : real c'.db v = real db v := by
  obtain ⟨_, hmove, hpure⟩ := bind_ok.mp h
  cases hpure
  exact real_moveBalance hmove v

theorem openPlay_false {id : TransferId} {row : CustodyTransfer}
    (hrow : s.custody.transfers.get id = some row) (hu : s.custody.attribute row = some userId)
    (h : s.openPlay id = false) : openPlayPositions s.positions userId = [] := by
  simpa [State.openPlay, hrow, hu] using h

/-- A deposit changes no one's economy, or converts its account. -/
theorem creditDeposit_ok {env : Env} {id : TransferId} (h : creditDeposit s env id = some s') :
    s.enabled = true ∧ ∃ custody, s' = { s with custody := custody } ∧
      ((∀ v, real custody.db v = s.real v) ∨
        ∃ u, Converts s env id u ∧ ∀ v, real custody.db v = (v == u || s.real v)) := by
  unfold creditDeposit at h
  split at h
  · rename_i henabled
    obtain ⟨custody, hcredit, rfl⟩ := Option.map_eq_some_iff.mp h
    refine ⟨henabled, custody, rfl, ?_⟩
    obtain ⟨row, hrow, hcredit⟩ := bind_ok.mp (committed_eq_some.mp hcredit)
    have hrow := orThrow_ok.mp hrow
    split at hcredit
    · cases hcredit
      exact .inl fun _ => rfl
    · rename_i hheld
      simp only [not_or, not_not] at hheld
      unfold CustodyDb.creditHeld at hcredit
      split at hcredit
      · cases hcredit
        exact .inl fun _ => rfl
      · rename_i u hu
        split at hcredit
        · cases hcredit
          exact .inl fun _ => rfl
        · rename_i hmin
          split at hcredit
          · cases hcredit
            exact .inl fun _ => rfl
          · rename_i hblocked
            obtain ⟨_, huser, hcredit⟩ := bind_ok.mp hcredit
            have huser := orThrow_ok.mp huser
            split at hcredit
            · exact .inl fun v => pay_real hcredit v
            · rename_i hfunded
              split at hcredit
              · cases hcredit
                exact .inl fun _ => rfl
              · rename_i hopen
                obtain ⟨_, hconvert, hpay⟩ := bind_ok.mp hcredit
                refine .inr ⟨u, ⟨row, hrow, hheld.1, hheld.2, hu, Nat.le_of_not_lt hmin, hblocked,
                  ?_, openPlay_false hrow hu (by simpa using hopen)⟩, ?_⟩
                · simpa [State.real, State.db, real, huser] using hfunded
                · intro v
                  rw [pay_real hpay, convert_real huser hconvert]
                  rfl
  · cases h

/-- A stake in an active position is one of its account's open positions. -/
theorem openPlayPositions_ne_nil (hget : s.positions.get p = some position)
    (hactive : position.active = true) (hb : b ∈ position.stakes) :
    openPlayPositions s.positions b.userId ≠ [] := by
  have hcounts : ∀ games, position.game ∈ games → counts s.positions games b.userId = true := by
    intro games hgame
    refine List.any_eq_true.mpr ⟨(p, position), s.positions.get_eq_some.mp hget, ?_⟩
    simp only [hactive, Bool.true_and, Bool.and_eq_true, List.contains_iff_mem, hgame, true_and,
      List.any_eq_true]
    exact ⟨b, hb, by simp⟩
  intro hnil
  have hnone := List.filterMap_eq_nil_iff.mp hnil
  have hno : ∀ label games, (label, games) ∈ [("crash", [Game.crash, .scheduled]),
      ("coinflip", [.coinflip]), ("jackpot", [.jackpot]), ("lottery", [.lottery]),
      ("instant", [.instant]), ("blackjack", [.blackjack])] → position.game ∉ games := by
    intro label games hmem hgame
    have hnone := hnone _ hmem
    simp [hcounts games hgame] at hnone
  cases hgame : position.game with
  | crash | scheduled => exact hno "crash" [.crash, .scheduled] (by simp) (by simp [hgame])
  | coinflip => exact hno "coinflip" [.coinflip] (by simp) (by simp [hgame])
  | jackpot => exact hno "jackpot" [.jackpot] (by simp) (by simp [hgame])
  | lottery => exact hno "lottery" [.lottery] (by simp) (by simp [hgame])
  | instant => exact hno "instant" [.instant] (by simp) (by simp [hgame])
  | blackjack => exact hno "blackjack" [.blackjack] (by simp) (by simp [hgame])

/-- A bet of the account's waits for its engine or its refund, and no open
position shows it: its round is terminal, or its scheduled row is gone. -/
def Exposed (s : State) (userId : UserId) : Prop :=
  (∃ t c, s.bets t = some c ∧ c.phase ≠ .refunded ∧ c.stake.userId = userId ∧
    ∀ position, s.positions.get c.round = some position → position.active = false) ∨
  ∃ t c, s.schedules t = some c ∧ c.stake.userId = userId ∧
    ∀ p position, s.positions.get p = some position → c.stake ∈ position.stakes →
      position.active = false

/-- No account is converted while a bet of its own is exposed, and a crash
settle claims the round that its bets were captured from. -/
def Allowed (s : State) : Event → Prop
  | .creditDeposit env id => ∀ u, Converts s env id u → ¬ Exposed s u
  | .settleCrash k _ => ∀ st current, s.settles k = some st → s.held st.inst = some current →
      current.round = st.round
  | _ => True

/-- A converted account has no stake that can still be paid. -/
theorem Inv.convert (h : Inv s) {env : Env} {id : TransferId} {custody : CustodyDb}
    (henabled : s.enabled = true) (hconverts : Converts s env id userId)
    (hexposed : ¬ Exposed s userId)
    (hreal : ∀ v, real custody.db v = (v == userId || s.real v)) :
    Inv { s with custody := custody } := by
  obtain ⟨-, -, -, -, -, -, -, -, hnone⟩ := hconverts
  have hclosed : ∀ p position, s.positions.get p = some position → position.active = true →
      ∀ b ∈ position.stakes, b.userId ≠ userId := by
    rintro p position hget hactive b hb rfl
    exact openPlayPositions_ne_nil hget hactive hb hnone
  have hother : ∀ b : Stake, b.userId ≠ userId →
      State.real { s with custody := custody } b.userId = s.real b.userId := by
    intro b hne
    refine (hreal b.userId).trans ?_
    simp [hne]
  have hgrows : ∀ v, s.real v = true → State.real { s with custody := custody } v = true := by
    intro v hv
    refine (hreal v).trans ?_
    simp [hv]
  have hbet : ∀ t c, s.bets t = some c → c.phase ≠ .refunded → c.stake.userId ≠ userId := by
    intro t c hc hphase huser
    refine hexposed (.inl ⟨t, c, hc, hphase, huser, ?_⟩)
    intro position hget
    obtain ⟨_, hget', -, hmem⟩ := h.called t c hc
    rw [hget] at hget'
    cases hget'
    cases hactive : position.active with
    | false => rfl
    | true => exact absurd huser (hclosed _ _ hget hactive _ hmem)
  have hscheduled : ∀ t c, s.schedules t = some c → c.stake.userId ≠ userId := by
    intro t c hc huser
    refine hexposed (.inr ⟨t, c, hc, huser, ?_⟩)
    intro p position hget hmem
    cases hactive : position.active with
    | false => rfl
    | true => exact absurd huser (hclosed _ _ hget hactive _ hmem)
  refine { h with playing := ?_, waits := ?_, scheduled := ?_, seats := ?_, seated := ?_,
                  asserted := ?_, read := ?_ }
  · intro p position hget hactive b hb hplay
    exact (hother b (hclosed p position hget hactive b hb)).trans
      (h.playing p position hget hactive b hb hplay)
  · intro t c hc hphase hplay
    exact (hother c.stake (hbet t c hc hphase)).trans (h.waits t c hc hphase hplay)
  · intro t c hc hplay
    exact (hother c.stake (hscheduled t c hc)).trans (h.scheduled t c hc hplay)
  · intro p d hd b hb hplay
    have hdisabled := (h.seats p d hd b hb hplay).2
    rw [henabled] at hdisabled
    cases hdisabled
  · exact fun hon p d hd b hb => hgrows _ (h.seated hon p d hd b hb)
  · exact fun hon t i u hu => hgrows _ (h.asserted hon t i u hu)
  · intro k rc hrc
    obtain ⟨position, hget, hrows⟩ := h.read k rc hrc
    refine ⟨position, hget, ?_⟩
    intro hgame b hb hplay
    obtain ⟨hplayer, hrow⟩ := hrows hgame b hb hplay
    refine ⟨?_, hrow⟩
    intro hactive
    exact (hother b (hclosed _ position hget hactive b (hrow henabled))).trans (hplayer hactive)

theorem Inv.creditDeposit (h : Inv s) {env : Env} {id : TransferId}
    (hallowed : ∀ u, Converts s env id u → ¬ Exposed s u)
    (hstep : creditDeposit s env id = some s') : Inv s' := by
  obtain ⟨henabled, _, rfl, hsame | ⟨u, hconverts, hreal⟩⟩ := creditDeposit_ok hstep
  · exact h.money hsame le_rfl h.good
  · exact h.convert henabled hconverts (hallowed u hconverts) hreal

end Scadium.Custody.Play
