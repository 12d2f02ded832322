/-
Scadium.Auth.Rotation — the exchange of refresh tokens.

A refresh reads the session of its token and updates it by id; the session
remembers the token it replaced last. So a token is exchanged once, and a
token that was rotated out ends its session, exactly as long as every update
finds the token that was read, and every token presented after its rotation
is the last one (`rotation_iff`).
-/
import Scadium.Auth.Exclusion

namespace Scadium.Auth

open Scadium.Lib Scadium.Prisma

variable {a a' : State} {answer : Answer} {call : Call} {rest : Option Call}

/-- No token is exchanged twice, and the session is gone that a rotated-out
token was presented to. -/
structure Rotates (a : State) : Prop where
  once : a.exchanged.Nodup
  revoked : ∀ id, some id ∈ a.answered → a.sessions.get id = none

/-- The update finds the token that was read; the token that was rotated out
is the last one. -/
def Fresh (a : State) (_ : Answer) : Call → Prop
  | .rotate id current => ∀ row, a.sessions.get id = some row →
      row.refreshToken = current.refreshToken
  | .findReplay token replayed => ∀ id, replayed = some id → ∀ row, a.sessions.get id = some row →
      row.prevRefreshToken = some token
  | _ => True

theorem all_eq_true {α : Type} {o : Option α} {P : α → Bool} :
    o.all P = true ↔ ∀ x, o = some x → P x = true := by
  cases o <;> simp

instance (a : State) (answer : Answer) : ∀ call, Decidable (Fresh a answer call)
  | .rotate id current =>
      decidable_of_iff ((a.sessions.get id).all (·.refreshToken == current.refreshToken))
        (by simp [Fresh, all_eq_true])
  | .findReplay token replayed =>
      decidable_of_iff (replayed.all fun id =>
        (a.sessions.get id).all (·.prevRefreshToken == some token)) (by simp [Fresh, all_eq_true])
  | .login .. | .gate .. | .issueSession .. | .refresh .. | .checkExclusion .. | .delete ..
  | .revoke .. | .logout .. | .logoutAll .. | .setCoolOff .. | .setSelfExclusion ..
  | .cancelOpenFlips .. | .deleteSessions .. | .setBanned .. | .tick .. => .isTrue trivial

/-! ## Tokens -/

/-- What is true of the tokens in every state. -/
structure Tokens (a : State) : Prop where
  drawn : ∀ p ∈ a.issued, p.1 < a.drawn ∧ p.2 < a.drawn
  unique : (a.issued.map Prod.snd).Nodup
  current : ∀ id row, a.sessions.get id = some row → (id, row.refreshToken) ∈ a.issued
  previous : ∀ id row, a.sessions.get id = some row → ∀ t, row.prevRefreshToken = some t →
    (id, t) ∈ a.issued
  answered : ∀ id, some id ∈ a.answered → id < a.drawn
  /-- A current token was not exchanged. -/
  unspent : a.exchanged.Nodup → ∀ id row, a.sessions.get id = some row →
    row.refreshToken ∉ a.exchanged
  spent : ∀ t ∈ a.exchanged, ∃ id, (id, t) ∈ a.issued

/-- What a call has read stays so, or its token was exchanged meanwhile. -/
def Reads (a : State) : Call → Prop
  | .checkExclusion id current | .rotate id current => (id, current.refreshToken) ∈ a.issued ∧
      (a.exchanged.Nodup → ∀ row, a.sessions.get id = some row →
        row.refreshToken = current.refreshToken ∨ current.refreshToken ∈ a.exchanged)
  | .findReplay token replayed => ∀ id, replayed = some id → (id, token) ∈ a.issued
  | .revoke id replayed => ∀ id', replayed = some id' → id' = id ∧ id' < a.drawn
  | _ => True

theorem Tokens.session_eq (h : Tokens a) {i j : SessionId} {t : Token} (hi : (i, t) ∈ a.issued)
    (hj : (j, t) ∈ a.issued) : i = j := by
  have heq := List.inj_on_of_nodup_map h.unique hi hj rfl
  exact (Prod.mk.inj heq).1

/-! ## Steps -/

/-- Sessions end, and nothing is issued. -/
structure Ends (a a' : State) : Prop where
  issued : a'.issued = a.issued
  drawn : a'.drawn = a.drawn
  exchanged : a'.exchanged = a.exchanged
  sessions : ∀ id row, a'.sessions.get id = some row → a.sessions.get id = some row

theorem Ends.refl (a : State) : Ends a a := ⟨rfl, rfl, rfl, fun _ _ h => h⟩

theorem rotate_ok {id : SessionId} {current : Session} {expiresAt : Time}
    (h : a.rotate id current expiresAt = some a') : ∃ row, a.sessions.get id = some row ∧
      a' = { a with
        sessions := a.sessions.set id
          ⟨row.userId, a.drawn, a.drawn, some current.refreshToken, expiresAt⟩
        issued := (id, a.drawn) :: a.issued
        exchanged := current.refreshToken :: a.exchanged
        drawn := a.drawn + 1 } := by
  obtain ⟨row, hrow, rfl⟩ := Option.map_eq_some_iff.mp h
  exact ⟨row, hrow, rfl⟩

theorem findReplayed_ok {token : Token} {id : SessionId} {row : Session}
    (h : a.findReplayed token = some (id, row)) :
    a.sessions.get id = some row ∧ row.prevRefreshToken = some token := by
  obtain ⟨hget, hprev⟩ := a.sessions.find_some h
  exact ⟨hget, by simpa using hprev⟩

/-- What a step does to the tokens. -/
theorem step_tokens (hstep : call.step a answer = (a', rest)) :
    (Ends a a' ∧ a'.answered = a.answered ∧ (∀ id current, call = .rotate id current →
        a.sessions.get id = none) ∧
      ∀ token replayed, call = .findReplay token replayed → ∃ p, a.findReplayed token = some p) ∨
    (∃ userId seen, call = .issueSession userId seen ∧
      a' = a.createSession userId (a.now + answer.refreshTtlMs)) ∨
    (∃ id current, call = .rotate id current ∧
      a.rotate id current (a.now + answer.refreshTtlMs) = some a') ∨
    (∃ token replayed, call = .findReplay token replayed ∧ a.findReplayed token = none ∧
      a' = { a with answered := replayed :: a.answered }) ∨
    ∃ id replayed, call = .revoke id replayed ∧
      a' = { a with sessions := a.sessions.erase id, answered := replayed :: a.answered } := by
  have hread : ∀ {r : Option Call}, (a, r) = (a', rest) →
      Ends a a' ∧ a'.answered = a.answered := by
    intro r heq
    cases heq
    exact ⟨.refl a, rfl⟩
  cases call with
  | issueSession userId seen =>
    cases hstep
    exact .inr (.inl ⟨userId, seen, rfl, rfl⟩)
  | revoke id replayed =>
    cases hstep
    exact .inr (.inr (.inr (.inr ⟨id, replayed, rfl, rfl⟩)))
  | rotate id current =>
    simp only [Call.step] at hstep
    cases hrotate : a.rotate id current (a.now + answer.refreshTtlMs) with
    | none =>
      rw [hrotate] at hstep
      obtain ⟨hends, hanswered⟩ := hread hstep
      refine .inl ⟨hends, hanswered, ?_, by simp⟩
      rintro id' current' heq
      cases heq
      exact Option.map_eq_none_iff.mp hrotate
    | some =>
      rw [hrotate] at hstep
      cases hstep
      exact .inr (.inr (.inl ⟨id, current, rfl, hrotate⟩))
  | findReplay token replayed =>
    simp only [Call.step] at hstep
    split at hstep
    · rename_i id row hfind
      obtain ⟨hends, hanswered⟩ := hread hstep
      refine .inl ⟨hends, hanswered, by simp, ?_⟩
      intro token' replayed' heq
      cases heq
      exact ⟨_, hfind⟩
    · rename_i hnone
      cases hstep
      exact .inr (.inr (.inr (.inl ⟨token, replayed, rfl, hnone, rfl⟩)))
  | delete =>
    cases hstep
    exact .inl ⟨⟨rfl, rfl, rfl, erase_sub⟩, rfl, by simp, by simp⟩
  | logout | logoutAll | deleteSessions =>
    cases hstep
    exact .inl ⟨⟨rfl, rfl, rfl, fun id row h => (deleteMany_sub id row h).1⟩, rfl, by simp, by simp⟩
  | setCoolOff userId until_ =>
    simp only [Call.step] at hstep
    cases hextend : a.extend userId until_ (·.coolOffUntil)
        fun user => { user with coolOffUntil := some until_ } with
    | none =>
      rw [hextend] at hstep
      obtain ⟨hends, hanswered⟩ := hread hstep
      exact .inl ⟨hends, hanswered, by simp, by simp⟩
    | some a₁ =>
      rw [hextend] at hstep
      obtain ⟨user, -, -, rfl⟩ := extend_ok hextend
      cases hstep
      exact .inl ⟨⟨rfl, rfl, rfl, fun _ _ h => h⟩, rfl, by simp, by simp⟩
  | setSelfExclusion =>
    simp only [Call.step] at hstep
    split at hstep
    · rename_i a₁ hextend
      obtain ⟨user, -, -, rfl⟩ := extend_ok hextend
      cases hstep
      exact .inl ⟨⟨rfl, rfl, rfl, fun _ _ h => h⟩, rfl, by simp, by simp⟩
    · obtain ⟨hends, hanswered⟩ := hread hstep
      exact .inl ⟨hends, hanswered, by simp, by simp⟩
  | login userId | setBanned userId banned | tick now | gate userId user seen
  | checkExclusion id current | cancelOpenFlips userId until_ | refresh token =>
    simp only [Call.step] at hstep
    repeat' split at hstep
    all_goals
      cases hstep
      exact .inl ⟨⟨rfl, rfl, rfl, fun _ _ h => h⟩, rfl, by simp, by simp⟩

theorem Tokens.ends (h : Tokens a) (hends : Ends a a') (hanswered : ∀ id, some id ∈ a'.answered →
    id < a.drawn) : Tokens a' := by
  obtain ⟨hissued, hdrawn, hexchanged, hsub⟩ := hends
  refine ⟨?_, ?_, ?_, ?_, ?_, ?_, ?_⟩
  · rw [hissued, hdrawn]
    exact h.drawn
  · rw [hissued]
    exact h.unique
  · rw [hissued]
    exact fun id row hrow => h.current id row (hsub id row hrow)
  · rw [hissued]
    exact fun id row hrow => h.previous id row (hsub id row hrow)
  · rw [hdrawn]
    exact hanswered
  · rw [hexchanged]
    exact fun honce id row hrow => h.unspent honce id row (hsub id row hrow)
  · rw [hexchanged, hissued]
    exact h.spent

/-- A new token for a session that is new, or has the token's predecessor. -/
theorem Tokens.issue (h : Tokens a) {id : SessionId} {row : Session} {exchanged : List Token}
    (hid : id < a.drawn + 1) (hrow : row.refreshToken = a.drawn)
    (hprevious : ∀ t, row.prevRefreshToken = some t → (id, t) ∈ a.issued)
    (hexchanged : ∀ t ∈ exchanged, ∃ i, (i, t) ∈ a.issued)
    (hunspent : exchanged.Nodup → ∀ j row', j ≠ id → a.sessions.get j = some row' →
      row'.refreshToken ∉ exchanged) :
    Tokens { a with
      sessions := a.sessions.set id row
      issued := (id, a.drawn) :: a.issued
      exchanged := exchanged
      drawn := a.drawn + 1 } := by
  have hold : ∀ {i : SessionId} {t : Token}, (i, t) ∈ a.issued → (i, t) ∈ (id, a.drawn) :: a.issued :=
    fun hmem => List.mem_cons_of_mem _ hmem
  refine ⟨?_, ?_, ?_, ?_, ?_, ?_, ?_⟩
  · intro p hp
    rcases List.mem_cons.mp hp with rfl | hp
    · exact ⟨hid, Nat.lt_succ_self _⟩
    · exact ⟨(h.drawn p hp).1.trans (Nat.lt_succ_self _), (h.drawn p hp).2.trans (Nat.lt_succ_self _)⟩
  · refine List.nodup_cons.mpr ⟨?_, h.unique⟩
    intro hmem
    obtain ⟨p, hp, heq⟩ := List.mem_map.mp hmem
    have hlt := (h.drawn p hp).2
    rw [heq] at hlt
    exact absurd hlt (Nat.lt_irrefl _)
  · refine a.sessions.forall_set (fun j row' hrow' => hold (h.current j row' hrow')) ?_
    rw [hrow]
    exact List.mem_cons_self ..
  · exact a.sessions.forall_set (fun j row' hrow' t ht => hold (h.previous j row' hrow' t ht))
      fun t ht => hold (hprevious t ht)
  · exact fun j hj => (h.answered j hj).trans (Nat.lt_succ_self _)
  · intro honce
    refine a.sessions.forall_set_of_ne (fun j row' hj hrow' => hunspent honce j row' hj hrow') ?_
    intro hmem
    obtain ⟨i, hi⟩ := hexchanged _ hmem
    rw [hrow] at hi
    exact absurd (h.drawn _ hi).2 (Nat.lt_irrefl _)
  · exact fun t ht => (hexchanged t ht).imp fun i hi => hold hi

/-- What a rotation finds: the token that was read, unless it is spent. -/
theorem Tokens.rotate_unspent (h : Tokens a) {id : SessionId} {current row : Session}
    (hreads : Reads a (.rotate id current)) (hrow : a.sessions.get id = some row) :
    (current.refreshToken :: a.exchanged).Nodup ↔
      a.exchanged.Nodup ∧ row.refreshToken = current.refreshToken := by
  constructor
  · intro honce
    obtain ⟨hnew, hold⟩ := List.nodup_cons.mp honce
    exact ⟨hold, (hreads.2 hold row hrow).resolve_right hnew⟩
  · rintro ⟨hold, heq⟩
    refine List.nodup_cons.mpr ⟨?_, hold⟩
    rw [← heq]
    exact h.unspent hold id row hrow

theorem Tokens.step (h : Tokens a) (hreads : Reads a call)
    (hstep : call.step a answer = (a', rest)) : Tokens a' := by
  rcases step_tokens hstep with ⟨hends, hanswered, -, -⟩ | ⟨_, _, rfl, rfl⟩ |
    ⟨id, current, rfl, hrotate⟩ | ⟨token, replayed, rfl, hnone, rfl⟩ | ⟨id, replayed, rfl, rfl⟩
  · refine h.ends hends ?_
    rw [hanswered]
    exact h.answered
  · refine h.issue (Nat.lt_succ_self _) rfl nofun h.spent ?_
    exact fun honce j row _ hrow => h.unspent honce j row hrow
  · obtain ⟨_, hrow, rfl⟩ := rotate_ok hrotate
    have hissued := hreads.1
    refine h.issue ((h.drawn _ hissued).1.trans (Nat.lt_succ_self _)) rfl ?_ ?_ ?_
    · intro t ht
      cases ht
      exact hissued
    · intro t ht
      rcases List.mem_cons.mp ht with rfl | ht
      · exact ⟨id, hissued⟩
      · exact h.spent t ht
    · intro honce j row' hj hrow' hmem
      have hold := (List.nodup_cons.mp honce).2
      rcases List.mem_cons.mp hmem with heq | hmem
      · have hissued' := h.current j row' hrow'
        rw [heq] at hissued'
        exact hj (h.session_eq hissued' hissued)
      · exact h.unspent hold j row' hrow' hmem
  · refine h.ends ⟨rfl, rfl, rfl, fun _ _ hrow => hrow⟩ ?_
    intro id hid
    rcases List.mem_cons.mp hid with heq | hid
    · exact (h.drawn _ (hreads id heq.symm)).1
    · exact h.answered id hid
  · refine h.ends ⟨rfl, rfl, rfl, erase_sub⟩ ?_
    intro id' hid
    rcases List.mem_cons.mp hid with heq | hid
    · exact (hreads id' heq.symm).2
    · exact h.answered id' hid

/-! ## Calls -/

theorem Reads.ends {e : Call} (h : Reads a e) (hends : Ends a a') : Reads a' e := by
  obtain ⟨hissued, hdrawn, hexchanged, hsub⟩ := hends
  cases e with
  | checkExclusion id current | rotate id current =>
    refine ⟨by rw [hissued]; exact h.1, ?_⟩
    rw [hexchanged]
    exact fun honce row hrow => h.2 honce row (hsub id row hrow)
  | findReplay =>
    intro id hid
    rw [hissued]
    exact h id hid
  | revoke =>
    intro id' hid
    rw [hdrawn]
    exact h id' hid
  | _ => trivial

/-- A new token is no other call's, and the token of a rotation is spent. -/
theorem Reads.issue {e : Call} (htokens : Tokens a) (h : Reads a e) {id : SessionId} {row : Session}
    {exchanged : List Token} (hspent : ∀ t ∈ a.exchanged, t ∈ exchanged)
    (honce : exchanged.Nodup → a.exchanged.Nodup)
    (hrow : exchanged.Nodup → ∀ old, a.sessions.get id = some old → old.refreshToken ∈ exchanged)
    (hnew : a.sessions.get id = none → id = a.drawn) :
    Reads { a with
      sessions := a.sessions.set id row
      issued := (id, a.drawn) :: a.issued
      exchanged := exchanged
      drawn := a.drawn + 1 } e := by
  cases e with
  | checkExclusion id' current | rotate id' current =>
    refine ⟨List.mem_cons_of_mem _ h.1, ?_⟩
    intro hnodup row' hrow'
    by_cases hid : id' = id
    · subst hid
      refine .inr ?_
      cases hold : a.sessions.get id' with
      | none =>
        have hlt := (htokens.drawn _ h.1).1
        rw [hnew hold] at hlt
        exact absurd hlt (Nat.lt_irrefl _)
      | some old =>
        rcases h.2 (honce hnodup) old hold with heq | hmem
        · rw [← heq]
          exact hrow hnodup old hold
        · exact hspent _ hmem
    · have hold : a.sessions.get id' = some row' := (a.sessions.get_set_ne hid).symm.trans hrow'
      exact (h.2 (honce hnodup) row' hold).imp_right (hspent _)
  | findReplay => exact fun id' hid => List.mem_cons_of_mem _ (h id' hid)
  | revoke =>
    exact fun id'' hid => ⟨(h id'' hid).1, (h id'' hid).2.trans (Nat.lt_succ_self _)⟩
  | _ => trivial

theorem Reads.stable {e : Call} (htokens : Tokens a) (hreads : Reads a call)
    (hstep : call.step a answer = (a', rest)) (h : Reads a e) : Reads a' e := by
  rcases step_tokens hstep with ⟨hends, -, -, -⟩ | ⟨_, _, rfl, rfl⟩ |
    ⟨id, current, rfl, hrotate⟩ | ⟨token, replayed, rfl, hnone, rfl⟩ | ⟨id, replayed, rfl, rfl⟩
  · exact h.ends hends
  · refine h.issue htokens (fun _ ht => ht) id ?_ (fun _ => rfl)
    intro _ old hold
    exact absurd (htokens.drawn _ (htokens.current _ old hold)).1 (Nat.lt_irrefl _)
  · obtain ⟨_, hrow, rfl⟩ := rotate_ok hrotate
    refine h.issue htokens (fun _ ht => List.mem_cons_of_mem _ ht)
      (fun honce => (List.nodup_cons.mp honce).2) ?_ ?_
    · intro honce old hold
      rw [((htokens.rotate_unspent hreads hold).mp honce).2]
      exact List.mem_cons_self ..
    · intro hnone
      rw [hrow] at hnone
      cases hnone
  · exact h.ends ⟨rfl, rfl, rfl, fun _ _ hrow => hrow⟩
  · exact h.ends ⟨rfl, rfl, rfl, erase_sub⟩

/-- What a call goes on with, it has just read. -/
theorem Reads.goes (htokens : Tokens a) (hreads : Reads a call) {call' : Call}
    (hstep : call.step a answer = (a', some call')) : Reads a' call' := by
  cases call with
  | refresh =>
    simp only [Call.step] at hstep
    split at hstep
    · rename_i id current hfind
      obtain ⟨hget, _⟩ := a.sessions.find_some hfind
      split at hstep
      · cases hstep
        trivial
      · cases hstep
        refine ⟨htokens.current id current hget, fun _ row hrow => ?_⟩
        rw [hget] at hrow
        cases hrow
        exact .inl rfl
    · cases hstep
      intro id hid
      obtain ⟨hfind, -⟩ := Option.filter_eq_some_iff.mp hid
      obtain ⟨p, hp, rfl⟩ := Option.map_eq_some_iff.mp hfind
      have hguard := List.find?_some hp
      rw [← beq_iff_eq.mp hguard]
      exact List.mem_of_find?_eq_some hp
  | checkExclusion =>
    simp only [Call.step] at hstep
    split at hstep
    · cases hstep
      trivial
    · cases hstep
      exact hreads
  | findReplay token =>
    simp only [Call.step] at hstep
    split at hstep
    · rename_i id row hfind
      cases hstep
      intro id' hid
      obtain ⟨hget, hprev⟩ := findReplayed_ok hfind
      have hissued := hreads id' hid
      exact ⟨htokens.session_eq hissued (htokens.previous id row hget token hprev),
        (htokens.drawn _ hissued).1⟩
    · cases hstep
  | login userId | gate userId user seen | setSelfExclusion userId until_
  | cancelOpenFlips userId until_ | setBanned userId banned =>
    simp only [Call.step] at hstep
    repeat' split at hstep
    all_goals
      cases hstep
      try trivial
  | issueSession userId seen | rotate id current | delete id | revoke id replayed | logout jti
  | logoutAll userId | setCoolOff userId until_ | deleteSessions userId until_ | tick now =>
    cases hstep

def tokenProtocol : Calls.Protocol service where
  Inv := Tokens
  Holds := Reads
  starts := by
    intro a call htokens hentry
    cases call <;> trivial
  keeps htokens hreads hstep := htokens.step hreads (Option.some.inj hstep)
  goes htokens hreads hstep := Reads.goes htokens hreads (Option.some.inj hstep)
  stable htokens hreads hstep h := Reads.stable htokens hreads (Option.some.inj hstep) h

/-! ## Runs -/

theorem rotates_step (htokens : Tokens a) (hreads : Reads a call) (h : Rotates a)
    (hstep : call.step a answer = (a', rest)) : Rotates a' ↔ Fresh a answer call := by
  rcases step_tokens hstep with ⟨hends, hanswered, hrotate, hfind⟩ | ⟨_, _, rfl, rfl⟩ |
    ⟨id, current, rfl, hrotate⟩ | ⟨token, replayed, rfl, hnone, rfl⟩ | ⟨id, replayed, rfl, rfl⟩
  · have hrotates : Rotates a' := by
      refine ⟨by rw [hends.exchanged]; exact h.once, ?_⟩
      rw [hanswered]
      intro id hid
      cases hrow : a'.sessions.get id with
      | none => rfl
      | some row =>
        have hgone := h.revoked id hid
        rw [hends.sessions id row hrow] at hgone
        cases hgone
    refine ⟨fun _ => ?_, fun _ => hrotates⟩
    cases call with
    | rotate id current =>
      intro row hrow
      rw [hrotate id current rfl] at hrow
      cases hrow
    | findReplay token replayed =>
      rintro id hid row hrow
      obtain ⟨⟨id', row'⟩, hfound⟩ := hfind token replayed rfl
      obtain ⟨hget, hprev⟩ := findReplayed_ok hfound
      have hsame := htokens.session_eq (hreads id hid) (htokens.previous id' row' hget token hprev)
      subst hsame
      rw [hget] at hrow
      cases hrow
      exact hprev
    | _ => trivial
  · refine ⟨fun _ => trivial, fun _ => ⟨h.once, ?_⟩⟩
    intro id hid
    have hne : id ≠ a.drawn := (htokens.answered id hid).ne
    exact (a.sessions.get_set_ne hne).trans (h.revoked id hid)
  · obtain ⟨row, hrow, rfl⟩ := rotate_ok hrotate
    have hunspent := htokens.rotate_unspent hreads hrow
    constructor
    · intro h' row' hrow'
      rw [hrow] at hrow'
      cases hrow'
      exact (hunspent.mp h'.once).2
    · intro hfresh
      refine ⟨hunspent.mpr ⟨h.once, hfresh row hrow⟩, ?_⟩
      intro id' hid
      have hgone := h.revoked id' hid
      have hne : id' ≠ id := by
        rintro rfl
        rw [hrow] at hgone
        cases hgone
      exact (a.sessions.get_set_ne hne).trans hgone
  · constructor
    · intro h' id hid row hrow
      have hgone := h'.revoked id (List.mem_cons.mpr (.inl hid.symm))
      rw [show a.sessions.get id = none from hgone] at hrow
      cases hrow
    · intro hfresh
      refine ⟨h.once, ?_⟩
      intro id hid
      rcases List.mem_cons.mp hid with heq | hid
      · cases hrow : a.sessions.get id with
        | none => rfl
        | some row =>
          have hmiss := a.sessions.find_none.mp hnone id row hrow
          simp [hfresh id heq.symm row hrow] at hmiss
      · exact h.revoked id hid
  · refine ⟨fun _ => trivial, fun _ => ⟨h.once, ?_⟩⟩
    intro id' hid
    rcases List.mem_cons.mp hid with heq | hid
    · rw [(hreads id' heq.symm).1]
      exact a.sessions.get_erase_self
    · cases hrow : (a.sessions.erase id).get id' with
      | none => rfl
      | some row =>
        have hgone := h.revoked id' hid
        rw [erase_sub id' row hrow] at hgone
        cases hgone

/-- A refresh token is exchanged at most once and a rotated-out one revokes
its session, in every state of a run, exactly if every update of the run finds
the token that was read, and every token that is looked up after its rotation
is the last one of its session. -/
theorem rotation_iff {es : List (Calls.Event Call Answer)} {s : Calls.System State Call}
    (hrun : run service.next (.boot .initial) es = some s) :
    Throughout service.next (.boot .initial) es (fun s => Rotates s.data) ↔
      Along service.next (Calls.Allowed Fresh) (.boot .initial) es := by
  refine tokenProtocol.throughout_iff (φ := Rotates)
    (fun htokens hreads h hstep => rotates_step htokens hreads h (Option.some.inj hstep)) ?_ ?_ hrun
  · refine ⟨by simp [State.initial], by simp [State.initial], ?_, ?_, by simp [State.initial], ?_,
      by simp [State.initial]⟩
    · exact nofun
    · exact nofun
    · exact nofun
  · exact ⟨List.nodup_nil, nofun⟩

namespace Sample

/-- A refresh with the token, in its steps. -/
def refresh (id : Nat) (token : Token) (steps : Nat) : List (Calls.Event Call Answer) :=
  .start id (.refresh token) :: List.replicate steps (.run id ⟨1000, false⟩)

/-- The token 0 is exchanged, and then presented again. -/
def replayed : List (Calls.Event Call Answer) :=
  login 0 ++ refresh 1 0 3 ++ refresh 2 0 3

/-- Two refreshes with the same token overlap. -/
def overlapping : List (Calls.Event Call Answer) :=
  login 0 ++ refresh 1 0 2 ++ refresh 2 0 3 ++ [.run 1 ⟨1000, false⟩]

/-- The token 0 is presented after two rotations. -/
def replayedLate : List (Calls.Event Call Answer) :=
  login 0 ++ refresh 1 0 3 ++ refresh 2 1 3 ++ refresh 3 0 2

end Sample

theorem rotation_iff_sample : ∃ s, run service.next (.boot .initial) Sample.replayed = some s ∧
    s.data.exchanged = [0] ∧ s.data.answered = [some 0] ∧ Rotates s.data := by
  obtain ⟨s, hs, hexchanged, hanswered⟩ : ∃ s,
      run service.next (.boot .initial) Sample.replayed = some s ∧ s.data.exchanged = [0] ∧
      s.data.answered = [some 0] := by decide +kernel
  refine ⟨s, hs, hexchanged, hanswered, ?_⟩
  exact (rotation_iff hs).mpr (by decide +kernel) Sample.replayed [] s (List.append_nil _).symm hs

/-- A token that is exchanged twice, and a rotated-out token that leaves its
session live. -/
theorem exchanged_twice :
    (∃ s, run service.next (.boot .initial) Sample.overlapping = some s ∧
      s.data.exchanged = [0, 0]) ∧
    ∃ s, run service.next (.boot .initial) Sample.replayedLate = some s ∧
      s.data.answered = [some 0] ∧ s.data.sessions.get 0 = some ⟨7, 2, 2, some 1, 1000⟩ := by
  decide +kernel

end Scadium.Auth
