/-
Scadium.Rewards.DailyCase — the cooldown of the daily case.

The check of the cooldown and the write that starts the next one are two
statements of a transaction at Read Committed, and what is written is the time
the request arrived, not the time of the check. The claim of an open that
finally fails gives nothing back. What the check establishes holds at the
commit unless one of three things happens in between: another open commits,
the cooldown ends while the request is on its way to its check, or the claim
that fails is that of the last case opened.

- The invariant: a request behind its check came a day after the time it has
  read, and the cooldown counts from the case opened last.
- Runs: the invariant gives opens a day apart, and no cooldown for a failed one.
-/
import Scadium.Lib.Runs
import Scadium.Rewards.Service

namespace Scadium.Rewards

open Scadium.Lib Scadium.Queue
open Scadium.Prisma (Time)

/-- The opens are a day apart, and none whose claim has failed is the one that
the cooldown counts from. -/
structure State.Cooled (s : State) : Prop where
  apart : s.opens.Pairwise fun o o' => o'.now + DAY_MS ≤ o.now ∨ o.now + DAY_MS ≤ o'.now
  restored : ∀ o ∈ s.opens, ∀ c ∈ s.claims.get o.claimId, c.status = .failed →
    s.user.lastDailyCaseAt ≠ some o.now

/-- No cooldown ends between a request and its check, no other open commits
between a check and its open, and no claim of the last case opened fails. -/
def Undisturbed (s : State) : Action → Prop
  | .checkDailyCase now clock =>
      ¬ (now < s.user.lastDailyCaseAt.getD 0 + DAY_MS ∧
        s.user.lastDailyCaseAt.getD 0 + DAY_MS ≤ clock)
  | .openDailyCase id _ => ∀ c ∈ s.cases.get id, s.user.lastDailyCaseAt.getD 0 = c.last
  | .finishAttempt id false => ∀ a ∈ s.attempts.get id,
      MAX_CLAIM_ATTEMPTS ≤ a.claim.attempts + 1 → ∀ row ∈ s.claims.get a.claimId,
        row.status = .pending → ∀ o ∈ s.opens.head?, o.claimId ≠ a.claimId
  | _ => True

instance (s : State) (a : Action) : Decidable (Undisturbed s a) :=
  match a with
  | .checkDailyCase now clock =>
      inferInstanceAs (Decidable (¬ (now < s.user.lastDailyCaseAt.getD 0 + DAY_MS ∧
        s.user.lastDailyCaseAt.getD 0 + DAY_MS ≤ clock)))
  | .openDailyCase id _ =>
      inferInstanceAs (Decidable (∀ c ∈ s.cases.get id, s.user.lastDailyCaseAt.getD 0 = c.last))
  | .finishAttempt id false =>
      inferInstanceAs (Decidable (∀ a ∈ s.attempts.get id,
        MAX_CLAIM_ATTEMPTS ≤ a.claim.attempts + 1 → ∀ row ∈ s.claims.get a.claimId,
          row.status = .pending → ∀ o ∈ s.opens.head?, o.claimId ≠ a.claimId))
  | .finishAttempt _ true | .configure _ | .lose _ | .accrue _ | .distribute _
  | .setPrimaryWallet _ | .claim _ _ | .startAttempt _ | .land _ => .isTrue trivial

/-! ## The invariant -/

/-- What was checked was due, every open has its claim, and the cooldown counts
from the last one. -/
structure Books.Opens (b : Books) : Prop where
  due : ∀ id c, b.cases.get id = some c → c.last + DAY_MS ≤ c.now
  fresh : ∀ id c, b.claims.get id = some c → id < b.drawn
  claimed : ∀ o ∈ b.opens, (b.claims.get o.claimId).isSome
  latest : ∀ o ∈ b.opens, ∃ last, b.last = some last ∧ o.now ≤ last
  newest : ∀ o ∈ b.opens, b.last = some o.now → o ∈ b.opens.head?
  apart : b.opens.Pairwise fun o o' => o'.now + DAY_MS ≤ o.now ∨ o.now + DAY_MS ≤ o'.now
  restored : ∀ o ∈ b.opens, ∀ c, b.claims.get o.claimId = some c → c.status = .failed →
    b.last ≠ some o.now

namespace Books.Opens

variable {b : Books}

theorem le_last (h : b.Opens) {o : Opened} (ho : o ∈ b.opens) : o.now ≤ b.last.getD 0 := by
  obtain ⟨_, hlast, hle⟩ := h.latest o ho
  rw [hlast]
  exact hle

theorem lt_due (h : b.Opens) {o : Opened} (ho : o ∈ b.opens) {now : Time}
    (hnow : b.last.getD 0 + DAY_MS ≤ now) : o.now < now :=
  Nat.lt_of_le_of_lt (h.le_last ho)
    (Nat.lt_of_lt_of_le (Nat.lt_add_of_pos_right (by decide : 0 < DAY_MS)) hnow)

theorem lt_drawn (h : b.Opens) {o : Opened} (ho : o ∈ b.opens) : o.claimId < b.drawn := by
  obtain ⟨c, hc⟩ := Option.isSome_iff_exists.mp (h.claimed o ho)
  exact h.fresh _ c hc

/-- A new row, of whatever kind. -/
theorem create (h : b.Opens) (c : RewardClaim) :
    Opens { b with claims := b.claims.set b.drawn c, drawn := b.drawn + 1 } where
  due := h.due
  fresh := b.claims.forall_set (fun id c hget => Nat.lt_succ_of_lt (h.fresh id c hget))
    (Nat.lt_succ_self _)
  claimed o ho := by
    rw [b.claims.get_set_ne (Nat.ne_of_lt (h.lt_drawn ho))]
    exact h.claimed o ho
  latest := h.latest
  newest := h.newest
  apart := h.apart
  restored o ho c' hget := by
    rw [b.claims.get_set_ne (Nat.ne_of_lt (h.lt_drawn ho))] at hget
    exact h.restored o ho c' hget

/-- A row that is written anew, if it does not fail the last case opened. -/
theorem update (h : b.Opens) {id : ClaimId} {row row' : RewardClaim}
    (hrow : b.claims.get id = some row)
    (hfails : row'.status = .failed → row.status = .failed ∨
      ∀ o ∈ b.opens.head?, o.claimId ≠ id) :
    Opens { b with claims := b.claims.set id row' } where
  due := h.due
  fresh := b.claims.forall_set h.fresh (h.fresh id row hrow)
  claimed o ho := by
    rw [Table.get_set]
    split
    · rfl
    · exact h.claimed o ho
  latest := h.latest
  newest := h.newest
  apart := h.apart
  restored o ho c hget hfailed := by
    rw [Table.get_set] at hget
    split at hget
    · rename_i hid
      cases hget
      obtain hold | hnot := hfails hfailed
      · exact h.restored o ho row (hid ▸ hrow) hold
      · exact fun hlast => hnot o (h.newest o ho hlast) hid
    · exact h.restored o ho c hget hfailed

/-- One more open, a day after the latest. -/
theorem openCase (h : b.Opens) {now : Time} (hnow : b.last.getD 0 + DAY_MS ≤ now)
    {c : RewardClaim} (hstatus : c.status ≠ .failed) :
    Opens { b with
      claims := b.claims.set b.drawn c
      opens := ⟨b.drawn, now⟩ :: b.opens
      last := some now
      drawn := b.drawn + 1 } where
  due := h.due
  fresh := (h.create c).fresh
  claimed o ho := by
    obtain rfl | ho := List.mem_cons.mp ho
    · simp
    · exact (h.create c).claimed o ho
  latest o ho := by
    refine ⟨now, rfl, ?_⟩
    obtain rfl | ho := List.mem_cons.mp ho
    · exact Nat.le_refl _
    · exact Nat.le_trans (h.le_last ho) (Nat.le_trans (Nat.le_add_right _ _) hnow)
  apart := by
    refine List.pairwise_cons.mpr ⟨fun o ho => .inl ?_, h.apart⟩
    exact Nat.le_trans (Nat.add_le_add_right (h.le_last ho) _) hnow
  newest o ho heq := by
    obtain rfl | ho := List.mem_cons.mp ho
    · rfl
    · exact absurd (Option.some.inj heq) (Nat.ne_of_gt (h.lt_due ho hnow))
  restored o ho c' hget hfailed := by
    obtain rfl | ho := List.mem_cons.mp ho
    · rw [Table.get_set_self] at hget
      cases hget
      exact absurd hfailed hstatus
    · exact fun heq => Nat.ne_of_gt (h.lt_due ho hnow) (Option.some.inj heq)

end Books.Opens

/-- An undisturbed step keeps the cooldown. -/
theorem opens_step {s s' : State} {a : Action} (hok : Undisturbed s a) (h : s.books.Opens)
    (hstep : step s a = some s') : s'.books.Opens := by
  have hmoves := step_moves hstep
  generalize s'.books = b' at hmoves ⊢
  cases hmoves with
  | same => exact h
  | lose | skip =>
    exact ⟨h.due, h.fresh, h.claimed, h.latest, h.newest, h.apart, h.restored⟩
  | create => exact h.create _
  | check now clock hclock =>
    -- the clock has passed the end of the cooldown, so the request had too
    have hnow : s.books.last.getD 0 + DAY_MS ≤ now := Nat.le_of_not_lt fun hlt => hok ⟨hlt, hclock⟩
    exact ⟨s.books.cases.forall_set h.due hnow,
      fun id c hget => Nat.lt_succ_of_lt (h.fresh id c hget), h.claimed, h.latest, h.newest,
      h.apart, h.restored⟩
  | openCase id prize c status hget hstatus =>
    have hday : s.books.last.getD 0 + DAY_MS ≤ c.now := by
      have hlast : s.books.last.getD 0 = c.last := hok c hget
      rw [hlast]
      exact h.due id c hget
    have hfailed : (c.claim prize status).status ≠ .failed := by
      obtain rfl | rfl := hstatus <;> exact nofun
    have hopen := h.openCase hday hfailed
    exact ⟨s.books.cases.forall_erase h.due, hopen.fresh, hopen.claimed, hopen.latest,
      hopen.newest, hopen.apart, hopen.restored⟩
  | start id c hget =>
    exact ⟨h.due, fun id c hget => Nat.lt_succ_of_lt (h.fresh id c hget), h.claimed, h.latest,
      h.newest, h.apart, h.restored⟩
  | keep i att row row' hatt hrow hkind hamount hstatus =>
    have hfails : row'.status = .failed → row.status = .failed ∨
        ∀ o ∈ s.books.opens.head?, o.claimId ≠ att.claimId := by
      intro hfailed
      obtain hsame | ⟨hpending, -, hmax⟩ := hstatus
      · exact .inl (hsame ▸ hfailed)
      · exact .inr (hok att hatt hmax row hrow hpending)
    have hupdate := h.update hrow hfails
    exact ⟨hupdate.due, hupdate.fresh, hupdate.claimed, hupdate.latest, hupdate.newest,
      hupdate.apart, hupdate.restored⟩
  | confirm i att row hatt hrow =>
    have hupdate := @Books.Opens.update _ h _ row { row with status := .confirmed } hrow
      nofun
    exact ⟨hupdate.due, hupdate.fresh, hupdate.claimed, hupdate.latest, hupdate.newest,
      hupdate.apart, hupdate.restored⟩

/-! ## Runs -/

/-- In an undisturbed run any two opens are a day apart, and an open whose prize
has failed leaves the user no cooldown. -/
theorem cooldown_kept {chainEnabled : Bool} {walletAddress : Wallet} {es : List Action}
    {t : State} (hok : Along step Undisturbed (State.init chainEnabled walletAddress) es)
    (hrun : run step (State.init chainEnabled walletAddress) es = some t) : t.Cooled := by
  have hinit : (State.init chainEnabled walletAddress).books.Opens := by
    constructor <;> simp [State.books, State.init]
  have hopens : t.books.Opens :=
    run_induct (P := fun s => s.books.Opens) (fun _ _ _ hok h hstep => opens_step hok h hstep)
      hinit hok hrun
  exact ⟨hopens.apart, fun o ho c hc => hopens.restored o ho c hc⟩

namespace Sample

/-- Midnight. -/
def midnight : Time := 20000 * DAY_MS

/-- Two opens, a day apart; the prize of the first is paid. -/
def casesOpened : List Action :=
  [.checkDailyCase midnight midnight, .openDailyCase 0 100, .startAttempt 1, .land 2,
    .finishAttempt 2 true, .checkDailyCase (midnight + DAY_MS) (midnight + DAY_MS + 5),
    .openDailyCase 3 100]

/-- Two requests at midnight, both checked before one commits. -/
def casesRaced : List Action :=
  [.checkDailyCase (midnight - 1) midnight, .checkDailyCase midnight midnight, .openDailyCase 0 100,
    .openDailyCase 1 100]

/-- An open whose transfer fails five times. -/
def caseFailed : List Action :=
  [.checkDailyCase midnight midnight, .openDailyCase 0 100, .startAttempt 1, .finishAttempt 2 false,
    .startAttempt 1, .finishAttempt 3 false, .startAttempt 1, .finishAttempt 4 false,
    .startAttempt 1, .finishAttempt 5 false, .startAttempt 1, .finishAttempt 6 false]

end Sample

theorem cooldown_kept_opened : ∃ t, run step (State.init true 7) Sample.casesOpened = some t ∧
    t.Cooled := by
  obtain ⟨t, ht⟩ := Option.isSome_iff_exists.mp
    (by decide : (run step (State.init true 7) Sample.casesOpened).isSome = true)
  exact ⟨t, ht, cooldown_kept (by decide) ht⟩

/-- The two opens are a millisecond apart; the failed one keeps its cooldown. -/
theorem cooldown_broken :
    (∃ t, run step (State.init true 7) Sample.casesRaced = some t ∧
      ¬ t.opens.Pairwise fun o o' => o'.now + DAY_MS ≤ o.now ∨ o.now + DAY_MS ≤ o'.now) ∧
    ∃ t, run step (State.init true 7) Sample.caseFailed = some t ∧
      ∃ o ∈ t.opens, ∃ c ∈ t.claims.get o.claimId, c.status = .failed ∧
        t.user.lastDailyCaseAt = some o.now := by
  decide

end Scadium.Rewards
