/-
Scadium.Auth.Exclusion — a self-exclusion ends the sessions of its user.

The request enters the end in the user's row, deletes the sessions that are
there, and is answered. A login reads the row, passes the gate and creates its
session in steps of their own. So what the gate has looked at may be older than
the answer, and the session then outlives the exclusion that should end it.

- Sessions: only a login's last step makes a session of a user that had none;
  a refresh rewrites one that is still there, so its own look at the exclusion
  is not needed here.
- Blocks: the end of a block only moves to a later time.
- Logins: an exclusion that was answered is in the row, so a login that read
  the row later has seen it, and the gate refuses it until the end.
- Runs: the lock holds exactly as long as no exclusion is answered between the
  read of a login and its session (`exclusion_final_iff`).
-/
import Scadium.Auth.Service

namespace Scadium.Auth

open Scadium.Lib Scadium.Prisma

variable {a a' : State} {answer : Answer} {call : Call} {rest : Option Call}
  {userId : UserId} {until_ : Time}

/-- No user whose self-exclusion was answered has a session before its end. -/
def Locked (a : State) : Prop :=
  ∀ p ∈ a.excluded, a.now < p.2 → ∀ id row, a.sessions.get id = some row → row.userId ≠ p.1

/-- A login that creates its session has read its user after every exclusion of
the user that was answered and is not over. -/
def UpToDate (a : State) (_ : Answer) : Call → Prop
  | .issueSession userId seen => ∀ p ∈ a.excluded, a.now < p.2 → userId = p.1 → p ∈ seen
  | _ => True

instance (a : State) (answer : Answer) (call : Call) : Decidable (UpToDate a answer call) :=
  match call with
  | .issueSession userId seen =>
      inferInstanceAs (Decidable (∀ p ∈ a.excluded, a.now < p.2 → userId = p.1 → p ∈ seen))
  | .login .. | .gate .. | .refresh .. | .checkExclusion .. | .rotate .. | .delete ..
  | .findReplay .. | .revoke .. | .logout .. | .logoutAll .. | .setCoolOff .. | .setSelfExclusion ..
  | .cancelOpenFlips .. | .deleteSessions .. | .setBanned .. | .tick .. => .isTrue trivial

/-! ## Sessions -/

/-- No session of a user that had none, and no answer to an exclusion. -/
structure Shrinks (a a' : State) : Prop where
  excluded : a'.excluded = a.excluded
  now : a.now ≤ a'.now
  sessions : ∀ id row, a'.sessions.get id = some row →
    ∃ id old, a.sessions.get id = some old ∧ old.userId = row.userId

theorem Shrinks.locked (h : Shrinks a a') (hlocked : Locked a) : Locked a' := by
  intro p hp hnow id row hrow
  rw [h.excluded] at hp
  obtain ⟨id', old, hold, huser⟩ := h.sessions id row hrow
  rw [← huser]
  exact hlocked p hp (Nat.lt_of_le_of_lt h.now hnow) id' old hold

theorem Shrinks.of_sub (hexcluded : a'.excluded = a.excluded) (hnow : a.now ≤ a'.now)
    (hsub : ∀ id row, a'.sessions.get id = some row → a.sessions.get id = some row) :
    Shrinks a a' where
  excluded := hexcluded
  now := hnow
  sessions id row hrow := ⟨id, row, hsub id row hrow, rfl⟩

theorem Shrinks.refl (a : State) : Shrinks a a := .of_sub rfl le_rfl fun _ _ h => h

theorem erase_sub {id : SessionId} : ∀ j row, (a.sessions.erase id).get j = some row →
    a.sessions.get j = some row :=
  a.sessions.forall_erase (P := fun j row => a.sessions.get j = some row) fun _ _ h => h

theorem deleteMany_sub {P : Session → Bool} (id : SessionId) (row : Session)
    (h : (a.deleteMany P).sessions.get id = some row) :
    a.sessions.get id = some row ∧ P row = false := by
  obtain ⟨hget, hkeep⟩ := a.sessions.get_filter.mp h
  exact ⟨hget, by simpa using hkeep⟩

theorem extend_ok {get : Standing → Option Time} {set : Standing → Standing}
    (h : a.extend userId until_ get set = some a') :
    ∃ user, a.users.get userId = some user ∧ (∀ old, get user = some old → old ≤ until_) ∧
      a' = { a with users := a.users.set userId (set user) } := by
  unfold State.extend at h
  split at h
  · cases h
  · split at h
    · cases h
    · rename_i user huser
      split at h
      · rename_i hlonger
        cases h
        refine ⟨user, huser, ?_, rfl⟩
        intro old hold
        simpa [hold] using hlonger
      · cases h

theorem rotate_shrinks {id : SessionId} {current : Session} {expiresAt : Time}
    (h : a.rotate id current expiresAt = some a') : Shrinks a a' := by
  obtain ⟨old, hold, rfl⟩ := Option.map_eq_some_iff.mp h
  refine ⟨rfl, le_rfl, ?_⟩
  exact a.sessions.forall_set (P := fun _ row => ∃ id old, a.sessions.get id = some old ∧
    old.userId = row.userId) (fun j row hrow => ⟨j, row, hrow, rfl⟩) ⟨id, old, hold, rfl⟩

/-- What a step does to the sessions. -/
theorem step_sessions (hstep : call.step a answer = (a', rest)) :
    (∀ userId seen, call ≠ .issueSession userId seen) ∧ Shrinks a a' ∨
    (∃ userId seen, call = .issueSession userId seen ∧
      a' = a.createSession userId (a.now + answer.refreshTtlMs)) ∨
    ∃ userId until_, call = .deleteSessions userId until_ ∧
      a' = { a.deleteMany fun row => row.userId == userId with
        excluded := (userId, until_) :: a.excluded } := by
  have hread : ∀ {r : Option Call}, (a, r) = (a', rest) → Shrinks a a' := by
    intro r heq
    cases heq
    exact .refl a
  cases call with
  | issueSession userId seen =>
    cases hstep
    exact .inr (.inl ⟨userId, seen, rfl, rfl⟩)
  | deleteSessions userId until_ =>
    cases hstep
    exact .inr (.inr ⟨userId, until_, rfl, rfl⟩)
  | rotate id current =>
    refine .inl ⟨by simp, ?_⟩
    simp only [Call.step] at hstep
    cases hrotate : a.rotate id current (a.now + answer.refreshTtlMs) with
    | none =>
      rw [hrotate] at hstep
      exact hread hstep
    | some =>
      rw [hrotate] at hstep
      cases hstep
      exact rotate_shrinks hrotate
  | delete | revoke =>
    cases hstep
    exact .inl ⟨by simp, .of_sub rfl le_rfl erase_sub⟩
  | logout | logoutAll =>
    cases hstep
    exact .inl ⟨by simp, .of_sub rfl le_rfl fun id row h => (deleteMany_sub id row h).1⟩
  | findReplay | login | setBanned =>
    simp only [Call.step] at hstep
    split at hstep
    · exact .inl ⟨by simp, hread hstep⟩
    · cases hstep
      exact .inl ⟨by simp, .of_sub rfl le_rfl fun _ _ h => h⟩
  | setCoolOff userId until_ =>
    simp only [Call.step] at hstep
    cases hextend : a.extend userId until_ (·.coolOffUntil)
        fun user => { user with coolOffUntil := some until_ } with
    | none =>
      rw [hextend] at hstep
      exact .inl ⟨by simp, hread hstep⟩
    | some a₁ =>
      rw [hextend] at hstep
      obtain ⟨user, -, -, rfl⟩ := extend_ok hextend
      cases hstep
      exact .inl ⟨by simp, .of_sub rfl le_rfl fun _ _ h => h⟩
  | setSelfExclusion =>
    simp only [Call.step] at hstep
    split at hstep
    · rename_i a₁ hextend
      obtain ⟨user, -, -, rfl⟩ := extend_ok hextend
      cases hstep
      exact .inl ⟨by simp, .of_sub rfl le_rfl fun _ _ h => h⟩
    · exact .inl ⟨by simp, hread hstep⟩
  | tick =>
    cases hstep
    exact .inl ⟨by simp, .of_sub rfl (le_max_left _ _) fun _ _ h => h⟩
  | gate userId user seen | checkExclusion id current | cancelOpenFlips userId until_ =>
    simp only [Call.step] at hstep
    split at hstep
    all_goals exact .inl ⟨by simp, hread hstep⟩
  | refresh =>
    simp only [Call.step] at hstep
    repeat' split at hstep
    all_goals exact .inl ⟨by simp, hread hstep⟩

/-! ## Blocks -/

/-- An end that is not earlier. -/
def NotEarlier (old new : Option Time) : Prop :=
  ∀ t, old = some t → ∃ t', new = some t' ∧ t ≤ t'

theorem NotEarlier.refl (t : Option Time) : NotEarlier t t := fun t h => ⟨t, h, le_rfl⟩

theorem NotEarlier.trans {s t u : Option Time} (h : NotEarlier s t) (h' : NotEarlier t u) :
    NotEarlier s u := by
  intro x hx
  obtain ⟨y, hy, hxy⟩ := h x hx
  obtain ⟨z, hz, hyz⟩ := h' y hy
  exact ⟨z, hz, hxy.trans hyz⟩

/-- The user's blocks end no earlier than they did. -/
structure Kept (userId : UserId) (user : Standing) (a : State) : Prop where
  row : ∃ now, a.users.get userId = some now ∧
    NotEarlier user.selfExcludedUntil now.selfExcludedUntil ∧
    NotEarlier user.coolOffUntil now.coolOffUntil

variable {user : Standing}

/-- A row whose blocks end no earlier. -/
theorem Kept.set (h : Kept userId user a) {v : UserId} {new : Standing}
    (hnew : ∀ old, a.users.get v = some old → NotEarlier old.selfExcludedUntil new.selfExcludedUntil ∧
      NotEarlier old.coolOffUntil new.coolOffUntil) :
    Kept userId user { a with users := a.users.set v new } := by
  obtain ⟨now, hnow, hself, hcool⟩ := h.row
  by_cases hv : userId = v
  · subst hv
    obtain ⟨hself', hcool'⟩ := hnew now hnow
    exact ⟨new, a.users.get_set_self, hself.trans hself', hcool.trans hcool'⟩
  · exact ⟨now, (a.users.get_set_ne hv).trans hnow, hself, hcool⟩

theorem Kept.of_users (h : Kept userId user a) (husers : a'.users = a.users) :
    Kept userId user a' := by
  obtain ⟨now, hnow, hblocks⟩ := h.row
  exact ⟨now, by rw [husers]; exact hnow, hblocks⟩

/-- `extend` only moves its own end, to a later time. -/
theorem not_earlier_extend {get : Standing → Option Time}
    (hlonger : ∀ old, get user = some old → old ≤ until_) :
    NotEarlier (get user) (some until_) := fun t ht => ⟨until_, rfl, hlonger t ht⟩

theorem kept_step (hkept : Kept userId user a) (hstep : call.step a answer = (a', rest)) :
    Kept userId user a' := by
  cases call with
  | setCoolOff v until_ =>
    simp only [Call.step] at hstep
    cases hextend : a.extend v until_ (·.coolOffUntil)
        fun user => { user with coolOffUntil := some until_ } with
    | none =>
      rw [hextend] at hstep
      cases hstep
      exact hkept
    | some a₁ =>
      rw [hextend] at hstep
      obtain ⟨old, hold, hlonger, rfl⟩ := extend_ok hextend
      cases hstep
      refine hkept.set fun old' hold' => ?_
      rw [hold] at hold'
      cases hold'
      exact ⟨.refl _, not_earlier_extend hlonger⟩
  | setSelfExclusion =>
    simp only [Call.step] at hstep
    split at hstep
    · rename_i a₁ hextend
      obtain ⟨old, hold, hlonger, rfl⟩ := extend_ok hextend
      cases hstep
      refine hkept.set fun old' hold' => ?_
      rw [hold] at hold'
      cases hold'
      exact ⟨not_earlier_extend hlonger, .refl _⟩
    · cases hstep
      exact hkept
  | setBanned =>
    simp only [Call.step] at hstep
    split at hstep
    · cases hstep
      exact hkept
    · rename_i old hold
      cases hstep
      refine hkept.set fun old' hold' => ?_
      rw [hold] at hold'
      cases hold'
      exact ⟨.refl _, .refl _⟩
  | login =>
    simp only [Call.step] at hstep
    split at hstep
    · cases hstep
      exact hkept
    · rename_i hnone
      cases hstep
      refine hkept.set fun old hold => ?_
      rw [hnone] at hold
      cases hold
  | rotate id current =>
    simp only [Call.step] at hstep
    cases hrotate : a.rotate id current (a.now + answer.refreshTtlMs) with
    | none =>
      rw [hrotate] at hstep
      cases hstep
      exact hkept
    | some =>
      rw [hrotate] at hstep
      obtain ⟨_, -, rfl⟩ := Option.map_eq_some_iff.mp hrotate
      cases hstep
      exact hkept.of_users rfl
  | issueSession v seen | delete id | revoke id replayed | logout jti | logoutAll v
  | deleteSessions v until_ | tick now =>
    cases hstep
    exact hkept.of_users rfl
  | gate v user seen | checkExclusion id current | cancelOpenFlips v until_ | refresh token
  | findReplay =>
    simp only [Call.step] at hstep
    repeat' split at hstep
    all_goals
      cases hstep
      exact hkept.of_users rfl

/-! ## Logins -/

/-- The row of the user has the exclusion, or a longer one. -/
def Entered (a : State) (p : UserId × Time) : Prop :=
  Kept p.1 { Standing.fresh with selfExcludedUntil := some p.2 } a

theorem entered_iff {p : UserId × Time} :
    Entered a p ↔ ∃ row, a.users.get p.1 = some row ∧
      NotEarlier (some p.2) row.selfExcludedUntil := by
  constructor
  · rintro ⟨row, hrow, hself, -⟩
    exact ⟨row, hrow, hself⟩
  · rintro ⟨row, hrow, hself⟩
    exact ⟨row, hrow, hself, nofun⟩

theorem entered_extend {until_ : Time} (h : a.extend userId until_ (·.selfExcludedUntil)
    (fun user => { user with selfExcludedUntil := some until_ }) = some a') :
    Entered a' (userId, until_) := by
  obtain ⟨_, -, -, rfl⟩ := extend_ok h
  exact entered_iff.mpr ⟨_, a.users.get_set_self, .refl _⟩

/-- What a call relies on: of the exclusions that it has seen, the standing read
has them in it, and behind the gate they are over. -/
def Relies (a : State) : Call → Prop
  | .gate userId user seen =>
      ∀ p ∈ seen, userId = p.1 → NotEarlier (some p.2) user.selfExcludedUntil
  | .issueSession userId seen => ∀ p ∈ seen, userId = p.1 → p.2 ≤ a.now
  | .cancelOpenFlips userId until_ | .deleteSessions userId until_ => Entered a (userId, until_)
  | _ => True

theorem step_now (hstep : call.step a answer = (a', rest)) : a.now ≤ a'.now := by
  rcases step_sessions hstep with ⟨-, hshrinks⟩ | ⟨userId, _, rfl, rfl⟩ |
    ⟨userId, until_, rfl, rfl⟩
  · exact hshrinks.now
  · exact le_rfl
  · exact le_rfl

theorem Relies.stable {e : Call} (h : Relies a e) (hstep : call.step a answer = (a', rest)) :
    Relies a' e := by
  cases e with
  | gate => exact h
  | issueSession => exact fun p hp huser => (h p hp huser).trans (step_now hstep)
  | cancelOpenFlips userId until_ | deleteSessions userId until_ => exact kept_step h hstep
  | _ => trivial

/-- An exclusion is entered before it is answered, and stays. -/
theorem entered_step (h : ∀ p ∈ a.excluded, Entered a p) (hrelies : Relies a call)
    (hstep : call.step a answer = (a', rest)) : ∀ p ∈ a'.excluded, Entered a' p := by
  rcases step_sessions hstep with ⟨-, hshrinks⟩ | ⟨userId, _, rfl, rfl⟩ |
    ⟨userId, until_, rfl, rfl⟩
  · rw [hshrinks.excluded]
    exact fun p hp => kept_step (h p hp) hstep
  · exact fun p hp => kept_step (h p hp) hstep
  · intro p hp
    rcases List.mem_cons.mp hp with rfl | hp
    · exact kept_step hrelies hstep
    · exact kept_step (h p hp) hstep

/-- The gate only lets a login on once every exclusion in the standing is over. -/
theorem Relies.goes (h : ∀ p ∈ a.excluded, Entered a p) (hrelies : Relies a call) {call' : Call}
    (hstep : call.step a answer = (a', some call')) : Relies a' call' := by
  cases call with
  | login =>
    simp only [Call.step] at hstep
    split at hstep
    · rename_i user huser
      cases hstep
      rintro p hp rfl
      obtain ⟨row, hrow, hself⟩ := entered_iff.mp (h p hp)
      cases huser.symm.trans hrow
      exact hself
    · rename_i hnone
      cases hstep
      rintro p hp rfl
      obtain ⟨_, hrow, -⟩ := entered_iff.mp (h p hp)
      cases hnone.symm.trans hrow
  | gate =>
    simp only [Call.step] at hstep
    split at hstep
    · cases hstep
    · rename_i hgate
      cases hstep
      intro p hp huser
      obtain ⟨t, ht, hle⟩ := hrelies p hp huser p.2 rfl
      have hover : t ≤ a.now := by
        simpa [Standing.isExcluded, ht] using fun h => hgate (.inr h)
      exact hle.trans hover
  | setSelfExclusion =>
    simp only [Call.step] at hstep
    split at hstep
    · rename_i hextend
      cases hstep
      exact entered_extend hextend
    · cases hstep
  | cancelOpenFlips =>
    simp only [Call.step] at hstep
    split at hstep
    · cases hstep
    · cases hstep
      exact hrelies
  | refresh token | checkExclusion id current | findReplay token replayed
  | setBanned =>
    simp only [Call.step] at hstep
    repeat' split at hstep
    all_goals
      cases hstep
      try trivial
  | issueSession userId seen | rotate id current | delete id | revoke id replayed | logout jti
  | logoutAll userId | setCoolOff userId until_ | deleteSessions userId until_ | tick now =>
    cases hstep

def exclusionProtocol : Calls.Protocol service where
  Inv a := ∀ p ∈ a.excluded, Entered a p
  Holds := Relies
  starts := by
    intro a call _ hentry
    cases call with
    | gate | issueSession | cancelOpenFlips | deleteSessions => cases hentry
    | _ => trivial
  keeps h hrelies hstep := entered_step h hrelies (Option.some.inj hstep)
  goes h hrelies hstep := hrelies.goes h (Option.some.inj hstep)
  stable _ _ hstep h := h.stable (Option.some.inj hstep)

/-- A step keeps the lock exactly if it is up to date. -/
theorem locked_step (hrelies : Relies a call) (hlocked : Locked a)
    (hstep : call.step a answer = (a', rest)) : Locked a' ↔ UpToDate a answer call := by
  rcases step_sessions hstep with ⟨hother, hshrinks⟩ | ⟨userId, seen, rfl, rfl⟩ |
    ⟨userId, until_, rfl, rfl⟩
  · refine ⟨fun _ => ?_, fun _ => hshrinks.locked hlocked⟩
    cases call with
    | issueSession userId seen => exact absurd rfl (hother userId seen)
    | _ => trivial
  · constructor
    · intro hlocked' p hp hnow huser
      exact absurd huser (hlocked' p hp hnow a.drawn _ a.sessions.get_set_self)
    · intro hok p hp hnow
      refine a.sessions.forall_set (P := fun _ row => row.userId ≠ p.1) (hlocked p hp hnow) ?_
      -- the login has seen the exclusion, so the gate was passed after its end
      intro huser
      exact Nat.not_lt.mpr (hrelies p (hok p hp hnow huser) huser) hnow
  · refine ⟨fun _ => trivial, fun _ => ?_⟩
    intro p hp hnow id row hrow
    obtain ⟨hold, hkept⟩ := deleteMany_sub id row hrow
    rcases List.mem_cons.mp hp with rfl | hp
    · simpa using hkept
    · exact hlocked p hp hnow id row hold

/-! ## Runs -/

/-- In every run, no block's end moves to an earlier time. -/
theorem never_earlier {s s' : Calls.System State Call} {es : List (Calls.Event Call Answer)}
    (hrun : run service.next s es = some s') (hget : s.data.users.get userId = some user) :
    Kept userId user s'.data := by
  refine run_invariant (P := fun s => Kept userId user s.data) ?_ ?_ hrun
  · intro s e s' hkept hnext
    cases e with
    | start =>
      obtain ⟨-, -, rfl⟩ := Calls.next_start hnext
      exact hkept
    | kill =>
      cases hnext
      exact hkept
    | run =>
      obtain ⟨_, _, r, -, hstep, rfl⟩ := Calls.next_run hnext
      exact kept_step hkept (Option.some.inj hstep)
  · exact ⟨user, hget, .refl _, .refl _⟩

/-- In a part of the run, no block's end moves to an earlier time. -/
def NeverEarlier (es : List (Calls.Event Call Answer)) : Prop :=
  ∀ before part after s s', es = before ++ (part ++ after) →
    run service.next (.boot .initial) before = some s → run service.next s part = some s' →
    ∀ userId user, s.data.users.get userId = some user → Kept userId user s'.data

/-- The property of a self-exclusion holds along a run exactly if no login of it
creates a session with an exclusion of its user answered since it read the user. -/
theorem exclusion_final_iff {es : List (Calls.Event Call Answer)} {s : Calls.System State Call}
    (hrun : run service.next (.boot .initial) es = some s) :
    (Throughout service.next (.boot .initial) es (fun s => Locked s.data) ∧ NeverEarlier es) ↔
      Along service.next (Calls.Allowed UpToDate) (.boot .initial) es := by
  have hnone : ∀ p ∈ State.initial.excluded, Entered .initial p := nofun
  have hlocked := exclusionProtocol.throughout_iff (φ := Locked) (s := s)
    (fun _ hrelies hlocked hstep => locked_step hrelies hlocked (Option.some.inj hstep))
    hnone nofun hrun
  rw [hlocked]
  refine and_iff_left ?_
  intro before part after s s' _ _ hpart userId user hget
  exact never_earlier hpart hget

namespace Sample

/-- A login of Ada's, in three steps. -/
def login (id : Nat) : List (Calls.Event Call Answer) :=
  .start id (.login 7) :: List.replicate 3 (.run id ⟨1000, false⟩)

/-- A self-exclusion of Ada's until 50. -/
def exclude (id : Nat) : List (Calls.Event Call Answer) :=
  .start id (.setSelfExclusion 7 50) :: List.replicate 3 (.run id ⟨1000, false⟩)

/-- A login before the exclusion, and one that comes too late for its gate. -/
def excluded : List (Calls.Event Call Answer) :=
  login 0 ++ exclude 1 ++ (login 2).take 3

/-- A login has passed the gate before the exclusion. -/
def overtaken : List (Calls.Event Call Answer) :=
  (login 0).take 3 ++ exclude 1 ++ [.run 0 ⟨1000, false⟩]

end Sample

theorem exclusion_final_iff_sample : ∃ s,
    run service.next (.boot .initial) Sample.excluded = some s ∧
    s.data.excluded = [(7, 50)] ∧ Locked s.data := by
  obtain ⟨s, hs, hends⟩ : ∃ s, run service.next (.boot .initial) Sample.excluded = some s ∧
      s.data.excluded = [(7, 50)] := by decide +kernel
  refine ⟨s, hs, hends, ?_⟩
  exact ((exclusion_final_iff hs).mpr (by decide +kernel)).1 Sample.excluded [] s
    (List.append_nil _).symm hs

/-- A session that is created after the exclusion was answered. -/
theorem login_overtaken : ∃ s, run service.next (.boot .initial) Sample.overtaken = some s ∧
    (7, 50) ∈ s.data.excluded ∧ s.data.now < 50 ∧
    ∃ id row, s.data.sessions.get id = some row ∧ row.userId = 7 := by
  obtain ⟨s, hs, hexcluded, hnow, hsession⟩ : ∃ s,
      run service.next (.boot .initial) Sample.overtaken = some s ∧ s.data.excluded = [(7, 50)] ∧
      s.data.now < 50 ∧ s.data.sessions.get 0 = some ⟨7, 0, 0, none, 1000⟩ := by decide +kernel
  exact ⟨s, hs, by simp [hexcluded], hnow, 0, _, hsession, rfl⟩

end Scadium.Auth
