/-
Scadium.Games.Crash.StakesTheorems — in an orderly run every debited crash
stake is refunded once, or settled once by its round.

`Inv` survives the rest of the steps: the refund with the deletion of its
row, the two settles, and the end of a process. A settle of either kind is
one lemma, `Accounts.settle`: it needs to know only whose stakes it settled.
A process that ends takes its calls with it, and what they held is left to the
recovery of their rounds. `Inv.step` is the case analysis, the accounts of a run
the induction over it.
-/
import Scadium.Games.Crash.Stakes

namespace Scadium.Games.Crash

open Scadium.Lib Scadium.Prisma

variable {cfg : Config} {s s' t : State}

/-! ## The refund -/

section Refund

variable {c : EntryId} {p : Placing} {db' : Db}

theorem move_free_of_ne (hcall : s.calls c = some p) {phase : BetPhase} {r : RoundId} {u : UserId}
    (hne : ¬ (p.call.roundId = r ∧ p.call.userId = u)) (hfree : Free (s.move c p phase) r u) :
    Free s r u := by
  intro c' p' hc' hr hu
  by_cases heq : c' = c
  · rw [heq, hcall] at hc'
    cases hc'
    exact absurd ⟨hr, hu⟩ hne
  · exact hfree c' p' (by rw [move_calls, if_neg heq, hc']) hr hu

/-- The stake was the only one, and it is back. -/
theorem Accounts.refunded (hs : Accounts s) (hrows : Rows s) (hcall : s.calls c = some p)
    (hphase : p.phase = .rejected) (hnone : betAmounts s.db p.call.roundId p.call.userId = [])
    (htables : crashTables db' = crashTables s.db)
    (hposts : Posts [p.call.refund.posting p.call.userId p.call.amountLamports] s.db db') :
    Accounts { s.move c p .refunded with db := db' } := by
  have hholds : p.phase.holds = true := by rw [hphase]; rfl
  simp only [crashTables, Prod.mk.injEq] at htables
  obtain ⟨hrounds, -, hbets⟩ := htables
  have hnet : ∀ r u, stakeNet db' r u =
      (if p.call.roundId = r ∧ p.call.userId = u then (p.call.amountLamports : Int) else 0) +
        stakeNet s.db r u := by
    intro r u
    rw [stakeNet_posts hposts, netOf_stake rfl rfl rfl (.inr rfl)]
    rfl
  have hother : ∀ c' p', c' ≠ c → s.calls c' = some p' → p'.phase.holds = true →
      ¬ (p.call.roundId = p'.call.roundId ∧ p.call.userId = p'.call.userId) := by
    rintro c' p' hne hc' hp' ⟨hr, hu⟩
    exact hne (hrows.unique_holder hc' hcall hp' hholds hr.symm hu.symm)
  have hkept : ∀ c' p', (s.move c p .refunded).calls c' = some p' → p'.phase.holds = true →
      c' ≠ c ∧ s.calls c' = some p' := by
    intro c' p' hc' hp'
    rw [move_calls] at hc'
    split at hc'
    · cases hc'
      cases hp'
    · exact ⟨by assumption, hc'⟩
  refine ⟨?_, ?_, ?_, ?_⟩
  · intro c' p' hc' hp'
    obtain ⟨hne, hc'⟩ := hkept c' p' hc' hp'
    show stakeNet db' _ _ = _
    rw [hnet, if_neg (hother c' p' hne hc' hp'), hs.net c' p' hc' hp']
    simp
  · intro r u hfree
    show stakeNet db' r u = 0 ∧ betAmounts db' r u = []
    rw [hnet, betAmounts_of_bets hbets]
    by_cases heq : p.call.roundId = r ∧ p.call.userId = u
    · obtain ⟨rfl, rfl⟩ := heq
      rw [if_pos ⟨rfl, rfl⟩, hs.net c p hcall hholds]
      exact ⟨by simp, hnone⟩
    · obtain ⟨hnet₀, hamounts₀⟩ := hs.free r u (move_free_of_ne hcall heq hfree)
      rw [if_neg heq, hnet₀]
      exact ⟨rfl, hamounts₀⟩
  · intro r u hopen
    show betAmounts db' r u = []
    rw [betAmounts_of_bets hbets]
    exact hs.unsettled r u fun hb => hopen ((busted_of_rounds hrounds r).mpr hb)
  · intro c' p' hc' hp' hbusted
    obtain ⟨-, hc'⟩ := hkept c' p' hc' hp'
    show betAmounts db' _ _ = _ ∨ betAmounts db' _ _ = _ ∧ _
    rw [betAmounts_of_bets hbets]
    exact hs.settled c' p' hc' hp' ((busted_of_rounds hrounds _).mp hbusted)

/-- Undisturbed, the refund of an existing user commits. -/
theorem refund_commits (hcall : s.calls c = some p) (halive : p.alive = true)
    (hphase : p.phase = .rejected) {user : User} (huser : s.db.users p.call.userId = some user) :
    ∃ db', stepRefund s c none = some { s.move c p .refunded with db := db' } := by
  have hat : s.at_ c .rejected = some p := by
    simp [State.at_, hcall, halive, hphase]
  have hpos : (0 : Int) < p.call.amountLamports := by
    have hmin := p.call.inRange.1
    simp only [Shared.CRASH.MIN_BET_LAMPORTS] at hmin
    omega
  have hrun : (refundTx p.call).run ⟨(), s.db, none⟩ = .ok _
      ⟨(), s.db.move p.call.userId user p.call.amountLamports p.call.refund, none⟩ :=
    applyBalanceDelta_credit rfl huser hpos rfl
  refine ⟨s.db.move p.call.userId user p.call.amountLamports p.call.refund, ?_⟩
  simp only [stepRefund, hat, Tx.transact_clear hrun rfl]

theorem Inv.refund (hs : Inv s) {failAt : Option (Nat × TxError)}
    (hok : Orderly s (.refund c failAt)) (hplaces : Places s')
    (h : stepRefund s c failAt = some s') : Inv s' := by
  obtain ⟨p, hcall, halive, hphase, rfl | ⟨db', htables, hposts, rfl⟩⟩ := refund_ok h
  · refine hs.refuse hcall (.inr hphase) (.inr rfl) ?_ hplaces
    intro _ hbusted
    -- the refund would have gone through
    obtain ⟨rfl, _, huser⟩ := (hok p hcall).2 hbusted
    obtain ⟨db', hcommits⟩ := refund_commits hcall halive hphase huser
    have heq : s.move c p .unpaid = { s.move c p .refunded with db := db' } :=
      Option.some.inj (h.symm.trans hcommits)
    have hcalls : (s.move c p .unpaid).calls c = (s.move c p .refunded).calls c :=
      congrArg (fun s => s.calls c) heq
    rw [move_calls, move_calls, if_pos rfl, if_pos rfl] at hcalls
    cases hcalls
  · have hkeys : rowKeys db' = rowKeys s.db := by
      simp only [crashTables, Prod.mk.injEq] at htables
      simp only [rowKeys, htables.2.1]
    have hmoved : Rows (s.move c p .refunded) :=
      hs.rows.move hcall (fun _ => rfl) fun _ => by rw [hphase]; rfl
    refine ⟨hplaces, ?_, ?_, ?_,
      hs.accounts.refunded hs.rows hcall hphase (hok p hcall).1 htables hposts⟩
    · intro r paid hrec
      show Book (acceptedBets (s.move c p .refunded)) r paid
      rw [move_acceptedBets hcall (by simp [hphase]) (by simp)]
      exact hs.books r paid hrec
    · exact ⟨hkeys ▸ hmoved.ids, hkeys ▸ hmoved.keys, hkeys ▸ hmoved.sound, hkeys ▸ hmoved.complete⟩
    · exact hs.reads.of_calls (fun _ _ h => h) (move_keeps_calls hcall)

end Refund

/-! ## The deletion of the row -/

theorem mem_rowKeys_deleteMany {r : RoundId} {u : UserId} {db : Db} {k : RowKey} :
    k ∈ rowKeys (deleteManyCrashBet r u db) ↔
      k ∈ rowKeys db ∧ ¬ (k.roundId = r ∧ k.userId = u) := by
  simp only [rowKeys, deleteManyCrashBet, List.mem_map, List.mem_filter, Bool.not_eq_true',
    ← Bool.not_eq_true, isBetOf_iff]
  constructor
  · rintro ⟨b, ⟨hb, hne⟩, rfl⟩
    exact ⟨⟨b, hb, rfl⟩, hne⟩
  · rintro ⟨⟨b, hb, rfl⟩, hne⟩
    exact ⟨b, ⟨hb, hne⟩, rfl⟩

theorem rowKeys_deleteMany_sublist (r : RoundId) (u : UserId) (db : Db) :
    (rowKeys (deleteManyCrashBet r u db)).Sublist (rowKeys db) :=
  List.filter_sublist.map _

theorem Inv.deleteRow (hs : Inv s) {c : EntryId} {deleted : Bool} (hplaces : Places s')
    (h : stepDeleteRow s c deleted = some s') : Inv s' := by
  obtain ⟨p, hcall, -, hphase, rfl⟩ := deleteRow_ok h
  have hrow : p.phase.hasRow = true := by rw [hphase]; rfl
  have hmoved : Accounts (s.move c p .done) := by
    refine hs.accounts.move hcall (by rw [hphase]; rfl) ?_
    simp [Placing.waits, hphase]
  refine ⟨hplaces, ?_, ?_, ?_, ?_⟩
  · intro r paid hrec
    show Book (acceptedBets (s.move c p .done)) r paid
    rw [move_acceptedBets hcall (by simp [hphase]) (by simp)]
    exact hs.books r paid hrec
  · have hkept : Rows (s.move c p .done) := hs.rows.move hcall (fun _ => rfl) (by simp [BetPhase.hasRow])
    cases deleted with
    | false => exact ⟨hkept.ids, hkept.keys, hkept.sound, hkept.complete⟩
    | true =>
      have hsub := rowKeys_deleteMany_sublist p.call.roundId p.call.userId s.db
      refine ⟨(hsub.map _).nodup hkept.ids, (hsub.map _).nodup hkept.keys, ?_, ?_⟩
      · intro k hk
        exact hkept.sound k (hsub.subset hk)
      · intro c' p' hc' hp'
        refine mem_rowKeys_deleteMany.mpr ⟨hkept.complete c' p' hc' hp', ?_⟩
        rintro ⟨hr, hu⟩
        -- only the call itself has a row there, and it has none any more
        replace hc' : (s.move c p .done).calls c' = some p' := hc'
        rw [move_calls] at hc'
        split at hc'
        · cases hc'
          cases hp'
        · rename_i hne
          exact hne (hs.rows.unique hc' hcall hp' hrow hr hu)
  · exact hs.reads.of_calls (fun _ _ h => h) (move_keeps_calls hcall)
  · cases deleted with
    | false | true => exact hmoved.of_eq rfl rfl rfl fun _ => Iff.rfl

/-! ## A settle -/

theorem stakesOf_eq_nil {paid : List (UserId × Nat)} {u : UserId} (h : u ∉ paid.map (·.1)) :
    stakesOf paid u = [] := by
  have hnone : paid.filter (·.1 == u) = [] := by
    rw [List.filter_eq_nil_iff]
    intro x hx heq
    exact h (List.mem_map.mpr ⟨x, hx, by simpa using heq⟩)
  rw [stakesOf, hnone, List.map_nil]

/-- A user with one stake among those settled. -/
theorem stakesOf_eq_singleton {paid : List (UserId × Nat)} (hnodup : (paid.map (·.1)).Nodup)
    {u : UserId} {amount : Nat} (h : (u, amount) ∈ paid) : stakesOf paid u = [amount] := by
  induction paid with
  | nil => cases h
  | cons x paid ih =>
    rw [List.map_cons, List.nodup_cons] at hnodup
    rcases List.mem_cons.mp h with rfl | h
    · have hrest : stakesOf paid u = [] := stakesOf_eq_nil hnodup.1
      simpa [stakesOf] using hrest
    · have hne : x.1 ≠ u := by
        intro heq
        exact hnodup.1 (heq ▸ List.mem_map.mpr ⟨_, h, rfl⟩)
      have hskip : stakesOf (x :: paid) u = stakesOf paid u := by
        simp [stakesOf, hne]
      rw [hskip, ih hnodup.2 h]

/-- A settle of a round, by a set of stakes in which each that is held on the
round counts once, unless its call still waits. -/
theorem Accounts.settle (hs : Accounts s) {r : RoundId} {paid : List (UserId × Nat)} {db' : Db}
    (hclaims : Claims r s.db db') (hsettles : Settles r paid s.db db')
    (hnodup : (paid.map (·.1)).Nodup)
    (hsound : ∀ x ∈ paid, ∃ c p, s.calls c = some p ∧ p.phase.holds = true ∧
      p.call.roundId = r ∧ p.call.userId = x.1)
    (hholds : ∀ c p, s.calls c = some p → p.phase.holds = true → p.call.roundId = r →
      (p.call.userId, p.call.amountLamports) ∈ paid ∨
        p.call.userId ∉ paid.map (·.1) ∧ p.waits = true) :
    Accounts { s with db := db' } := by
  obtain ⟨_, _, hrow, hstatus, hterminal, hrounds⟩ := hclaims
  have hnone : ∀ u, betAmounts s.db r u = [] := by
    intro u
    refine hs.unsettled r u ?_
    rintro ⟨_, hrow₀, hbusted⟩
    rw [hrow] at hrow₀
    cases hrow₀
    exact hstatus hbusted
  have hbusted : ∀ q, Busted db' q ↔ q = r ∨ Busted s.db q := by
    intro q
    by_cases hq : q = r
    · simp [Busted, hrounds, hq, hterminal]
    · simp [Busted, hrounds, hq]
  refine ⟨?_, ?_, ?_, ?_⟩
  · show ∀ c p, s.calls c = some p → _ → stakeNet db' _ _ = _
    rw [hsettles.net]
    exact hs.net
  · intro q u hfree
    show stakeNet db' q u = 0 ∧ betAmounts db' q u = []
    obtain ⟨hnet₀, hamounts₀⟩ := hs.free q u hfree
    rw [hsettles.net]
    refine ⟨hnet₀, ?_⟩
    by_cases hq : q = r
    · subst hq
      have habsent : u ∉ paid.map (·.1) := by
        intro hmem
        obtain ⟨x, hx, rfl⟩ := List.mem_map.mp hmem
        obtain ⟨c, p, hc, hp, hr, hu⟩ := hsound x hx
        rw [hfree c p hc hr hu] at hp
        cases hp
      rw [hsettles.own, stakesOf_eq_nil habsent, hamounts₀]
      rfl
    · rw [hsettles.others q u hq, hamounts₀]
  · intro q u hopen
    show betAmounts db' q u = []
    have hq : q ≠ r := fun hq => hopen ((hbusted q).mpr (.inl hq))
    rw [hsettles.others q u hq]
    exact hs.unsettled q u fun hb => hopen ((hbusted q).mpr (.inr hb))
  · intro c p hc hp hb
    show betAmounts db' _ _ = _ ∨ betAmounts db' _ _ = _ ∧ _
    by_cases hq : p.call.roundId = r
    · rw [hq, hsettles.own, hnone, List.append_nil]
      rcases hholds c p hc hp hq with hmem | ⟨habsent, hwaits⟩
      · rw [stakesOf_eq_singleton hnodup hmem]
        exact .inl rfl
      · rw [stakesOf_eq_nil habsent]
        exact .inr ⟨rfl, hwaits⟩
    · rw [hsettles.others _ _ hq]
      rcases (hbusted _).mp hb with heq | hb
      · exact absurd heq hq
      · exact hs.settled c p hc hp hb

/-- The rows and the reads are those of before the settle. -/
theorem Rows.of_eq (hs : Rows s) (hcalls : s'.calls = s.calls)
    (hkeys : rowKeys s'.db = rowKeys s.db) : Rows s' where
  ids := by rw [hkeys]; exact hs.ids
  keys := by rw [hkeys]; exact hs.keys
  sound := by rw [hkeys, hcalls]; exact hs.sound
  complete := by rw [hkeys, hcalls]; exact hs.complete

theorem update_none_eq_some {α : Type} {f : Nat → Option α} {k k' : Nat} {a : α}
    (h : Function.update f k none k' = some a) : f k' = some a := by
  rw [Function.update_apply] at h
  split at h
  · cases h
  · exact h

theorem recorded_of_settled {k : Nat} {terminals : List Terminal} {db' : Db} {r : RoundId}
    {paid : List (UserId × Nat)}
    (h : Recorded { s with
      db := db'
      settles := Function.update s.settles k none
      terminals := terminals } r paid) : Recorded s r paid := by
  rcases h with hheld | ⟨k', st, hst, hr, hp⟩
  · exact .inl hheld
  · exact .inr ⟨k', st, update_none_eq_some hst, hr, hp⟩

theorem Inv.settle (hs : Inv s) {k : Nat} {env : SettleEnv} {entropy : Option Bytes32}
    {failAt : Option (Nat × TxError)} (hok : Orderly s (.settle k env entropy failAt))
    (hplaces : Places s') (h : stepSettle cfg s k env entropy failAt = some s') : Inv s' := by
  obtain rfl | ⟨st, current, u, hst, hheld, hrun, rfl⟩ := settle_ok h
  · exact hs
  have hclaims : Claims current.id s.db u.db := (settleTx_claims hrun).2
  have hopen : ¬ Busted s.db current.id := by
    obtain ⟨_, -, hrow, hstatus, -⟩ := hclaims
    rintro ⟨_, hrow₀, hbusted⟩
    rw [hrow] at hrow₀
    cases hrow₀
    exact hstatus hbusted
  obtain ⟨hid, hpaidBack⟩ := hok st current hst hheld hopen
  have hbook : Book (acceptedBets s) current.id (livePaid st.bets) :=
    hs.books _ _ (.inr ⟨k, st, hst, hid.symm, rfl⟩)
  have hrows : ∀ bet ∈ st.bets, HasRow s.db current.id bet.userId := by
    intro bet hbet
    obtain ⟨call, ⟨c, p, hc, haccepted, rfl⟩, hr, hu, -⟩ :=
      hbook.sound (bet.userId, bet.originalAmountLamports) (List.mem_map.mpr ⟨bet, hbet, rfl⟩)
    exact ⟨_, hs.rows.complete c p hc (by rw [haccepted]; rfl), hr, hu⟩
  have hsettles := settleTx_settles hrows hrun
  have haccounts : Accounts { s with db := u.db } := by
    refine hs.accounts.settle hclaims hsettles hbook.nodup ?_ ?_
    · intro x hx
      obtain ⟨call, ⟨c, p, hc, haccepted, rfl⟩, hr, hu, -⟩ := hbook.sound x hx
      exact ⟨c, p, hc, by rw [haccepted]; rfl, hr, hu⟩
    · intro c p hc hp hr
      by_cases haccepted : p.phase = .accepted
      · exact .inl (hbook.complete p.call ⟨c, p, hc, haccepted, rfl⟩ hr)
      · refine .inr ⟨?_, ?_⟩
        · intro hmem
          obtain ⟨x, hx, hu⟩ := List.mem_map.mp hmem
          obtain ⟨call, ⟨c', _, hc', haccepted', rfl⟩, hr', hu', -⟩ := hbook.sound x hx
          have hsame : c = c' := hs.rows.unique_holder hc hc' hp (by rw [haccepted']; rfl)
            (hr.trans hr'.symm) (hu.symm.trans hu'.symm)
          rw [hsame, hc'] at hc
          cases hc
          exact haccepted haccepted'
        · -- the process that holds the round runs the call
          have halive := (hs.places.caller c p _ current hc hheld hr.symm).2
          have hunpaid := hpaidBack c p hc
          cases hphase : p.phase with
          | committed | rejected => simp [Placing.waits, halive, hphase]
          | accepted => exact absurd hphase haccepted
          | unpaid => exact absurd hr (hunpaid hphase)
          | captured | ended | refunded | done => rw [hphase] at hp; cases hp
  refine ⟨hplaces, ?_, hs.rows.of_eq rfl hsettles.rows, ?_, ?_⟩
  · intro r paid hrec
    exact hs.books r paid (recorded_of_settled hrec)
  · exact hs.reads.of_calls (fun _ _ h => h) fun _ p hc => ⟨p, hc, rfl⟩
  · exact haccounts.of_eq rfl rfl rfl fun _ => Iff.rfl

theorem Inv.recover (hs : Inv s) {k : Nat} {env : SettleEnv} {failAt : Option (Nat × TxError)}
    (hok : Orderly s (.recover k env failAt)) (hplaces : Places s')
    (h : stepRecover cfg s k env failAt = some s') : Inv s' := by
  obtain rfl | ⟨rc, u, hrc, hrun, rfl⟩ := recover_ok h
  · exact hs
  have hclaims : Claims rc.round.id s.db u.db := recoverTx_claims hrun
  have hopen : ¬ Busted s.db rc.round.id := by
    obtain ⟨_, -, hrow, hstatus, -⟩ := hclaims
    rintro ⟨_, hrow₀, hbusted⟩
    rw [hrow] at hrow₀
    cases hrow₀
    exact hstatus hbusted
  have hread := hok rc hrc hopen
  obtain ⟨hnodup, hbets⟩ := hs.reads k rc hrc
  have hsettles : Settles rc.round.id (rowsPaid rc.bets) s.db u.db := recoverTx_settles hrun
  have husers : ((rowsPaid rc.bets).map (·.1)).Nodup := by
    rw [rowsPaid, List.map_map]
    exact hnodup
  have haccounts : Accounts { s with db := u.db } := by
    refine hs.accounts.settle hclaims hsettles husers ?_ ?_
    · intro x hx
      obtain ⟨b, hb, rfl⟩ := List.mem_map.mp hx
      obtain ⟨hround, p, hc, hkey⟩ := hbets b hb
      have hr : p.call.roundId = rc.round.id :=
        (congrArg RowKey.roundId hkey).symm.trans hround
      exact ⟨b.id, p, hc, (hread b.id p hc hr).mp ⟨b, hb, rfl⟩, hr,
        (congrArg RowKey.userId hkey).symm⟩
    · intro c p hc hp hr
      obtain ⟨b, hb, rfl⟩ := (hread c p hc hr).mpr hp
      obtain ⟨-, _, hc', hkey⟩ := hbets b hb
      rw [hc] at hc'
      cases hc'
      refine .inl (List.mem_map.mpr ⟨b, hb, ?_⟩)
      have huser : b.userId = p.call.userId := congrArg RowKey.userId hkey
      have hamount : b.amountLamports = p.call.amountLamports := congrArg RowKey.amountLamports hkey
      rw [huser, hamount]
  refine ⟨hplaces, hs.books, hs.rows.of_eq rfl hsettles.rows, ?_, ?_⟩
  · exact hs.reads.of_calls (fun _ _ h => update_none_eq_some h) fun _ p hc => ⟨p, hc, rfl⟩
  · exact haccounts.of_eq rfl rfl rfl fun _ => Iff.rfl

/-- What a recovery reads are rows, so each user has one. -/
theorem Inv.readBets (hs : Inv s) {k : Nat} {i : Inst} {r : RoundId} (hplaces : Places s')
    (h : stepReadBets s k i r = some s') : Inv s' := by
  obtain ⟨_, -, rfl⟩ := readBets_ok h
  refine ⟨hplaces, hs.books, hs.rows.of_eq rfl rfl, ?_, hs.accounts.of_eq rfl rfl rfl fun _ => Iff.rfl⟩
  intro k' rc hrc
  simp only [Function.update_apply] at hrc
  split at hrc
  · cases hrc
    constructor
    · show ((s.db.crashBets.filter (·.roundId == r)).map (·.userId)).Nodup
      have hkeys := hs.rows.keys
      rw [rowKeys, List.map_map] at hkeys
      have hsub : (s.db.crashBets.filter (·.roundId == r)).Sublist s.db.crashBets :=
        List.filter_sublist
      have hpairs := (hsub.map ((fun k => (k.roundId, k.userId)) ∘ rowKey)).nodup hkeys
      refine List.Nodup.map_on ?_ (List.Nodup.of_map _ hpairs)
      intro a ha b hb huser
      have hround : a.roundId = b.roundId := by
        have hra : a.roundId = r := by simpa using (List.mem_filter.mp ha).2
        have hrb : b.roundId = r := by simpa using (List.mem_filter.mp hb).2
        rw [hra, hrb]
      exact List.inj_on_of_nodup_map hpairs ha hb (by simp [rowKey, hround, huser])
    · intro b hb
      obtain ⟨hmem, hround⟩ := List.mem_filter.mp hb
      obtain ⟨p, hc, -, hkey⟩ := hs.rows.sound (rowKey b) (List.mem_map.mpr ⟨b, hmem, rfl⟩)
      exact ⟨by simpa using hround, p, hc, hkey⟩
  · exact hs.reads k' rc hrc

/-! ## The end of a process -/

theorem kill_calls {i : Inst} {c : EntryId} {p' : Placing} (h : (stepKill s i).calls c = some p') :
    ∃ p, s.calls c = some p ∧ p'.call = p.call ∧ p'.phase = p.phase ∧
      p' = if p.inst = i then { p with alive := false } else p := by
  simp only [stepKill, Option.map_eq_some_iff] at h
  obtain ⟨p, hp, rfl⟩ := h
  refine ⟨p, hp, ?_, ?_, rfl⟩
  · split
    · rfl
    · rfl
  · split
    · rfl
    · rfl

theorem kill_calls_of {i : Inst} {c : EntryId} {p : Placing} (h : s.calls c = some p) :
    ∃ p', (stepKill s i).calls c = some p' ∧ p'.call = p.call ∧ p'.phase = p.phase := by
  refine ⟨if p.inst = i then { p with alive := false } else p, ?_, ?_, ?_⟩
  · simp only [stepKill, h, Option.map_some]
  · split
    · rfl
    · rfl
  · split
    · rfl
    · rfl

theorem kill_acceptedBets (s : State) (i : Inst) : acceptedBets (stepKill s i) = acceptedBets s := by
  ext call
  constructor
  · rintro ⟨c, p', hc, haccepted, rfl⟩
    obtain ⟨p, hp, hcall, hphase, -⟩ := kill_calls hc
    exact ⟨c, p, hp, by rw [← hphase, haccepted], hcall.symm⟩
  · rintro ⟨c, p, hc, haccepted, rfl⟩
    obtain ⟨p', hp', hcall, hphase⟩ := kill_calls_of (i := i) hc
    exact ⟨c, p', hp', by rw [hphase, haccepted], hcall⟩

theorem kill_recorded {i : Inst} {r : RoundId} {paid : List (UserId × Nat)}
    (h : Recorded (stepKill s i) r paid) : Recorded s r paid := by
  rcases h with ⟨q, round, hq, hr, hp⟩ | ⟨k, st, hst, hr, hp⟩
  · simp only [stepKill] at hq
    split at hq
    · cases hq
    · exact .inl ⟨q, round, hq, hr, hp⟩
  · simp only [stepKill, Option.filter_eq_some_iff] at hst
    exact .inr ⟨k, st, hst.1, hr, hp⟩

theorem Placing.rowKey_congr {p p' : Placing} (h : p'.call = p.call) (c : EntryId) :
    p'.rowKey c = p.rowKey c := by
  simp only [Placing.rowKey, h]

theorem Inv.kill (hs : Inv s) {i : Inst} (hok : Orderly s (.kill i))
    (hplaces : Places (stepKill s i)) : Inv (stepKill s i) := by
  refine ⟨hplaces, ?_, ⟨hs.rows.ids, hs.rows.keys, ?_, ?_⟩, ?_, ⟨?_, ?_, hs.accounts.unsettled, ?_⟩⟩
  · intro r paid hrec
    rw [kill_acceptedBets]
    exact hs.books r paid (kill_recorded hrec)
  · intro k hk
    obtain ⟨p, hc, hp, hkey⟩ := hs.rows.sound k hk
    obtain ⟨p', hc', hcall, hphase⟩ := kill_calls_of (i := i) hc
    exact ⟨p', hc', by rw [hphase, hp], by rw [hkey, Placing.rowKey_congr hcall]; rfl⟩
  · intro c p' hc' hp'
    obtain ⟨p, hc, hcall, hphase, -⟩ := kill_calls hc'
    rw [hphase] at hp'
    rw [Placing.rowKey_congr hcall]
    exact hs.rows.complete c p hc hp'
  · refine hs.reads.of_calls ?_ fun c p hc => ?_
    · intro k rc hrc
      simp only [stepKill, Option.filter_eq_some_iff] at hrc
      exact hrc.1
    · obtain ⟨p', hc', hcall, -⟩ := kill_calls_of (i := i) hc
      exact ⟨p', hc', hcall⟩
  · intro c p' hc' hp'
    obtain ⟨p, hc, hcall, hphase, -⟩ := kill_calls hc'
    rw [hphase] at hp'
    rw [hcall]
    exact hs.accounts.net c p hc hp'
  · intro r u hfree
    refine hs.accounts.free r u ?_
    intro c p hc hr hu
    obtain ⟨p', hc', hcall, hphase⟩ := kill_calls_of (i := i) hc
    rw [← hphase]
    exact hfree c p' hc' (by rw [hcall, hr]) (by rw [hcall, hu])
  · intro c p' hc' hp' hbusted
    obtain ⟨p, hc, hcall, hphase, heq⟩ := kill_calls hc'
    rw [hphase] at hp'
    rw [hcall] at hbusted ⊢
    rcases hs.accounts.settled c p hc hp' hbusted with hsettled | ⟨hnone, hwaits⟩
    · exact .inl hsettled
    · by_cases hi : p.inst = i
      · exact absurd hnone (hok c p hc hi hwaits hbusted)
      · rw [if_neg hi] at heq
        rw [heq]
        exact .inr ⟨hnone, hwaits⟩

/-! ## Every step -/

theorem install_recorded {i : Inst} {k : Nat} {r : RoundId} {paid : List (UserId × Nat)}
    {round₀ : Round} (hheld : s.held (.opening i k) = some round₀)
    (h : Recorded ((s.setHeld (.opening i k) none).setHeld (.engine i) (some round₀)) r paid) :
    Recorded s r paid := by
  rcases h with ⟨q, round, hq, hr, hp⟩ | hsettle
  · obtain ⟨q', hq', -⟩ := install_held hheld hq
    exact .inl ⟨q', round, hq', hr, hp⟩
  · exact .inr hsettle

theorem drop_recorded {p : Place} {r : RoundId} {paid : List (UserId × Nat)}
    (h : Recorded (s.setHeld p none) r paid) : Recorded s r paid := by
  rcases h with ⟨q, round, hq, hr, hp⟩ | hsettle
  · simp only [State.setHeld, Function.update_apply] at hq
    split at hq
    · cases hq
    · exact .inl ⟨q, round, hq, hr, hp⟩
  · exact .inr hsettle

/-- The bets captured at the bust are those of the round. -/
theorem bust_recorded {i : Inst} {k : Nat} {r : RoundId} {paid : List (UserId × Nat)} {round : Round}
    (hheld : s.held (.engine i) = some round)
    (h : Recorded { s.setHeld (.engine i) (some { round with phase := .busted }) with
      settles := Function.update s.settles k (some ⟨i, round.id, round.bets⟩) } r paid) :
    Recorded s r paid := by
  rcases h with hheld' | ⟨k', st, hst, hr, hp⟩
  · have hassigned : Recorded (s.setHeld (.engine i) (some { round with phase := .busted })) r paid :=
      .inl hheld'
    refine recorded_assign hheld ?_ ?_ hassigned
    · rfl
    · rfl
  · simp only [Function.update_apply] at hst
    split at hst
    · cases hst
      exact .inl ⟨_, round, hheld, hr, hp⟩
    · exact .inr ⟨k', st, hst, hr, hp⟩

theorem giveUp_recorded {k : Nat} {r : RoundId} {paid : List (UserId × Nat)}
    (h : Recorded { s with settles := Function.update s.settles k none } r paid) :
    Recorded s r paid := by
  rcases h with hheld | ⟨k', st, hst, hr, hp⟩
  · exact .inl hheld
  · exact .inr ⟨k', st, update_none_eq_some hst, hr, hp⟩

/-- In an orderly run each step keeps the accounts. -/
theorem Inv.step {e : Event} (hs : Inv s) (hok : Orderly s e) (h : step cfg s e = some s') :
    Inv s' := by
  have hplaces : Places s' := hs.places.step h
  cases e with
  | create => exact hs.create h
  | install =>
    obtain ⟨_, hheld, rfl⟩ := install_ok h
    exact hs.quiet hplaces (.of_memory rfl rfl fun _ _ => install_recorded hheld) fun _ _ h => h
  | abandon =>
    cases h
    exact hs.quiet hplaces (.of_memory rfl rfl fun _ _ => drop_recorded) fun _ _ h => h
  | begin => exact hs.begin h
  | commit => exact hs.commit hplaces h
  | decide => exact hs.decide hok hplaces h
  | refund => exact hs.refund hok hplaces h
  | deleteRow => exact hs.deleteRow hplaces h
  | dropKey =>
    obtain ⟨db', haside, rfl⟩ := dropKey_ok h
    exact hs.quiet hplaces (.of_aside haside) fun _ _ h => h
  | creditReferrer =>
    obtain ⟨db', haside, rfl⟩ := creditReferrer_ok h
    exact hs.quiet hplaces (.of_aside haside) fun _ _ h => h
  | storeKey =>
    obtain ⟨_, haside, rfl⟩ := storeKey_ok h
    exact hs.quiet hplaces (.of_aside haside) fun _ _ h => h
  | closeBets =>
    obtain ⟨round, hheld, -, rfl⟩ := round_ok h
    refine hs.quiet hplaces (.of_memory rfl rfl ?_) fun _ _ h => h
    intro r paid hrec
    refine recorded_assign hheld ?_ ?_ hrec
    · rfl
    · rfl
  | fly i =>
    obtain ⟨round, hheld, rfl⟩ := fly_ok h
    refine hs.quiet hplaces (.of_memory rfl rfl ?_) fun _ _ h => h
    intro r paid hrec
    have hassigned : Recorded (s.setHeld (.engine i) (some { round with phase := .running })) r paid :=
      hrec
    refine recorded_assign hheld ?_ ?_ hassigned
    · rfl
    · rfl
  | writeRunning i r written =>
    rw [writeRunning_ok h] at hplaces ⊢
    cases written with
    | false => exact hs.quiet hplaces (.of_memory rfl rfl fun _ _ h => h) fun _ _ h => h
    | true =>
      have hopen : ¬ Busted s.db r := hok rfl
      refine hs.quiet hplaces ⟨rfl, writeRunning_readings r s.db, ?_, fun _ _ h => h⟩ fun _ _ h => h
      exact writeRunning_busted hopen
  | cashOut i userId portion payout m =>
    obtain ⟨round, _, hheld, rfl⟩ := stepCashOut_ok h
    refine hs.quiet hplaces (.of_memory rfl rfl ?_) fun _ _ h => h
    intro r paid hrec
    have hassigned : Recorded (s.setHeld (.engine i) (some (round.cashOut userId portion payout m)))
        r paid := hrec
    refine recorded_assign hheld ?_ ?_ hassigned
    · rfl
    · exact livePaid_cashOut round.bets userId portion payout m
  | persistCashOut co written =>
    rw [persistCashOut_ok h] at hplaces ⊢
    cases written with
    | false => exact hs.quiet hplaces (.of_memory rfl rfl fun _ _ h => h) fun _ _ h => h
    | true =>
      refine hs.quiet hplaces ⟨rfl, persistCashOut_readings co s.db, ?_, fun _ _ h => h⟩
        fun _ _ h => h
      exact busted_of_rounds rfl
  | bust =>
    obtain ⟨_, hheld, -, -, rfl⟩ := bust_ok h
    exact hs.quiet hplaces (.of_memory rfl rfl fun _ _ => bust_recorded hheld) fun _ _ h => h
  | settle => exact hs.settle hok hplaces h
  | giveUp =>
    cases h
    exact hs.quiet hplaces (.of_memory rfl rfl fun _ _ => giveUp_recorded) fun _ _ h => h
  | readBets => exact hs.readBets hplaces h
  | recover => exact hs.recover hok hplaces h
  | skip =>
    cases h
    exact hs.quiet hplaces (.of_memory rfl rfl fun _ _ h => h) fun _ _ => update_none_eq_some
  | drain =>
    cases h
    exact hs.quiet hplaces (.of_memory rfl rfl fun _ _ h => h) fun _ _ h => h
  | kill =>
    cases h
    exact hs.kill hok hplaces

/-! ## The accounts of a run -/

/-- The stake of a call is on its round's Bet row, and counts once. -/
def Settled (s : State) (p : Placing) : Prop :=
  Busted s.db p.call.roundId ∧
    betAmounts s.db p.call.roundId p.call.userId = [p.call.amountLamports]

/-- It is on none, and its call will decide on it, or its row waits for the
settle of the round. -/
def Pending (s : State) (c : EntryId) (p : Placing) : Prop :=
  betAmounts s.db p.call.roundId p.call.userId = [] ∧
    (p.waits = true ∨ ¬ Busted s.db p.call.roundId ∧ p.rowKey c ∈ rowKeys s.db)

/-- Every orderly run, from a database without crash rounds: a stake that is
debited and not refunded is the only one of its user on the round, the ledger
holds it in full, and it is settled, once, or pending; a user without such a
stake has no money and no Bet row on the round; and the bets that an engine
holds are stakes that are not refunded. -/
theorem stakes_accounted {start : Db} {es : List Event} (hstart : Fresh start)
    (hok : Along (step cfg) Orderly (State.boot start) es)
    (hrun : run (step cfg) (State.boot start) es = some t) :
    (∀ c p, t.calls c = some p → p.phase.holds = true →
      stakeNet t.db p.call.roundId p.call.userId = -(p.call.amountLamports : Int) ∧
      (Settled t p ∨ Pending t c p) ∧
      ∀ c' p', t.calls c' = some p' → p'.phase.holds = true →
        p'.call.roundId = p.call.roundId → p'.call.userId = p.call.userId → c' = c) ∧
    (∀ r u, Free t r u → stakeNet t.db r u = 0 ∧ betAmounts t.db r u = []) ∧
    (∀ q round, t.held q = some round → ∀ bet ∈ round.bets, ∃ c p, t.calls c = some p ∧
      p.phase.holds = true ∧ p.call.roundId = round.id ∧ p.call.userId = bet.userId ∧
      p.call.amountLamports = bet.originalAmountLamports) := by
  have hinv : Inv t :=
    run_induct (P := Inv) (fun _ _ _ hok hs h => hs.step hok h) (Inv.boot hstart) hok hrun
  refine ⟨?_, hinv.accounts.free, ?_⟩
  · intro c p hc hp
    refine ⟨hinv.accounts.net c p hc hp, ?_, ?_⟩
    · by_cases hbusted : Busted t.db p.call.roundId
      · rcases hinv.accounts.settled c p hc hp hbusted with hsettled | ⟨hnone, hwaits⟩
        · exact .inl ⟨hbusted, hsettled⟩
        · exact .inr ⟨hnone, .inl hwaits⟩
      · have hrow := hinv.rows.complete c p hc (BetPhase.hasRow_of_holds hp)
        exact .inr ⟨hinv.accounts.unsettled _ _ hbusted, .inr ⟨hbusted, hrow⟩⟩
    · intro c' p' hc' hp' hr hu
      exact hinv.rows.unique_holder hc' hc hp' hp hr hu
  · intro q round hq bet hbet
    have hbook := hinv.books round.id _ (.inl ⟨q, round, hq, rfl, rfl⟩)
    obtain ⟨_, ⟨c, p, hc, haccepted, rfl⟩, hr, hu, hamount⟩ :=
      hbook.sound (bet.userId, bet.originalAmountLamports) (List.mem_map.mpr ⟨bet, hbet, rfl⟩)
    exact ⟨c, p, hc, by rw [haccepted]; rfl, hr, hu, hamount⟩

theorem Sample.fresh : Fresh Sample.db where
  rounds _ := rfl
  rows := rfl
  net _ _ := rfl
  amounts _ _ := rfl

/-- An accepted bet, on a round that went bust. -/
theorem stakes_accounted_sample :
    ∃ es t p, run (step Sample.cfg) (State.boot Sample.db) es = some t ∧ t.calls 5 = some p ∧
      stakeNet t.db 1 7 = -5000000 ∧ (Settled t p ∨ Pending t 5 p) := by
  have hruns : run (step Sample.cfg) (State.boot Sample.db)
      (Sample.opened ++ [.commit 5 none, .decide 5] ++ Sample.flown) = some _ := rfl
  have hok : Along (step Sample.cfg) Orderly (State.boot Sample.db)
      (Sample.opened ++ [.commit 5 none, .decide 5] ++ Sample.flown) := by
    refine .cons trivial rfl (.cons trivial rfl (.cons trivial rfl (.cons trivial rfl ?_)))
    refine .cons ?_ rfl (.cons trivial rfl (.cons trivial rfl ?_))
    · rintro p _ ⟨⟩ ⟨⟩ - - - ⟨row, ⟨⟩, ⟨⟩⟩
    refine .cons ?_ rfl (.cons trivial rfl trivial)
    rintro - ⟨_, ⟨⟩, ⟨⟩⟩
  obtain ⟨hnet, hwhere, -⟩ := (stakes_accounted Sample.fresh hok hruns).1 5 _ rfl rfl
  exact ⟨_, _, _, hruns, rfl, hnet, hwhere⟩

/-- A call is debited on a round that is settled by then, and its process
stops: the stake is gone, without a refund and without a settle. -/
theorem stake_lost :
    ∃ es t p, run (step Sample.cfg) (State.boot Sample.db) es = some t ∧ t.calls 5 = some p ∧
      p.phase.holds = true ∧ p.alive = false ∧ stakeNet t.db 1 7 = -5000000 ∧
      Busted t.db 1 ∧ betAmounts t.db 1 7 = [] := by
  refine ⟨Sample.settled ++ [.commit 5 none, .kill 0], _, _, rfl, rfl, rfl, rfl, ?_, ?_, ?_⟩
  · decide
  · exact ⟨_, rfl, rfl⟩
  · decide

end Scadium.Games.Crash
