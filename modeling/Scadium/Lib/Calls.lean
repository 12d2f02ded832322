/-
Scadium.Lib.Calls — calls that run side by side over shared data.

A `Service` says how a call may begin and what one step of it does to the
data; a step is one atomic action (a statement, or a transaction). In a
`System` calls start, go on in any order and are killed between any two
steps.

A `Protocol` says what is true of the data (`Inv`) and what each call in
progress relies on (`Holds`): a step keeps the first, and the second for
itself and for every other call. Its rule for runs is `Protocol.sound`.
`Protocol.throughout_iff` is the rule for a property that holds exactly
while the steps meet a condition.
-/
import Scadium.Lib.Runs
import Scadium.Lib.Table

namespace Scadium.Lib.Calls

variable {σ κ ν : Type}

/-- `κ` is what a call has still to do, `ν` what the environment answers in a
step of it. -/
structure Service (σ κ ν : Type) where
  /-- A call may begin with this. -/
  begins : σ → κ → Bool
  /-- One step, and what is left to do after it. -/
  step : σ → ν → κ → Option (σ × Option κ)

structure System (σ κ : Type) where
  data : σ
  calls : Table Nat κ

inductive Event (κ ν : Type) where
  | start (id : Nat) (call : κ)
  | run (id : Nat) (answer : ν)
  | kill (id : Nat)

/-- No call in progress. -/
def System.boot (data : σ) : System σ κ := ⟨data, .empty⟩

/-- The calls after a step of the call `id`. -/
def System.put (s : System σ κ) (id : Nat) : Option κ → Table Nat κ
  | some call => s.calls.set id call
  | none => s.calls.erase id

def Service.next (service : Service σ κ ν) (s : System σ κ) : Event κ ν → Option (System σ κ)
  | .start id call =>
      match s.calls.get id with
      | none =>
          if service.begins s.data call then some { s with calls := s.calls.set id call } else none
      | some _ => none
  | .run id answer =>
      match s.calls.get id with
      | none => none
      | some call => (service.step s.data answer call).map fun r => ⟨r.1, s.put id r.2⟩
  | .kill id => some { s with calls := s.calls.erase id }

/-- The data after at most `n` steps of a call, with nothing in between. -/
def Service.alone (service : Service σ κ ν) (answer : ν) : Nat → σ → κ → σ
  | 0, d, _ => d
  | n + 1, d, call =>
      match service.step d answer call with
      | none => d
      | some (d', none) => d'
      | some (d', some call') => service.alone answer n d' call'

variable {service : Service σ κ ν} {s s' : System σ κ} {id j : Nat} {call : κ} {answer : ν}

theorem alone_done {n : Nat} {d d' : σ} (h : service.step d answer call = some (d', none)) :
    service.alone answer (n + 1) d call = d' := by
  rw [Service.alone, h]

theorem alone_goes {n : Nat} {d d' : σ} {call' : κ}
    (h : service.step d answer call = some (d', some call')) :
    service.alone answer (n + 1) d call = service.alone answer n d' call' := by
  rw [Service.alone, h]

theorem get_put {r : Option κ} (h : (s.put id r).get j = some call) :
    j = id ∧ r = some call ∨ j ≠ id ∧ s.calls.get j = some call := by
  by_cases hj : j = id
  · subst hj
    cases r with
    | none => simp [System.put] at h
    | some =>
      simp only [System.put, Table.get_set_self, Option.some.injEq] at h
      exact .inl ⟨rfl, by rw [h]⟩
  · refine .inr ⟨hj, ?_⟩
    cases r with
    | none => rwa [System.put, Table.get_erase_ne _ hj] at h
    | some => rwa [System.put, Table.get_set_ne _ hj] at h

theorem next_start (h : service.next s (.start id call) = some s') :
    s.calls.get id = none ∧ service.begins s.data call = true ∧
      s' = { s with calls := s.calls.set id call } := by
  simp only [Service.next] at h
  split at h
  · rename_i hfree
    split at h
    · rename_i hbegins
      cases h
      exact ⟨hfree, hbegins, rfl⟩
    · cases h
  · cases h

theorem next_run (h : service.next s (.run id answer) = some s') :
    ∃ call data r, s.calls.get id = some call ∧ service.step s.data answer call = some (data, r) ∧
      s' = ⟨data, s.put id r⟩ := by
  simp only [Service.next] at h
  split at h
  · cases h
  · rename_i call hcall
    obtain ⟨⟨data, r⟩, hstep, rfl⟩ := Option.map_eq_some_iff.mp h
    exact ⟨call, data, r, hcall, hstep, rfl⟩

/-! ## Calls that nothing interrupts -/

/-- The data after a call, if it takes `n` steps. -/
def Service.finish (service : Service σ κ ν) (answer : ν) : Nat → σ → κ → Option σ
  | 0, _, _ => none
  | n + 1, d, call =>
      match service.step d answer call with
      | none => none
      | some (d', none) => if n = 0 then some d' else none
      | some (d', some call') => service.finish answer n d' call'

theorem run_finish {n : Nat} {d : σ} (hcall : s.calls.get id = some call)
    (h : service.finish answer n s.data call = some d) :
    ∃ s', run service.next s (List.replicate n (.run id answer)) = some s' ∧ s'.data = d ∧
      ∀ j, s'.calls.get j = if j = id then none else s.calls.get j := by
  induction n generalizing s call with
  | zero => cases h
  | succ n ih =>
    rw [Service.finish] at h
    cases hstep : service.step s.data answer call with
    | none => simp [hstep] at h
    | some r =>
      obtain ⟨d', rest⟩ := r
      have hnext : service.next s (.run id answer) = some ⟨d', s.put id rest⟩ := by
        simp [Service.next, hcall, hstep]
      cases rest with
      | none =>
        simp only [hstep, Option.ite_none_right_eq_some, Option.some.injEq] at h
        obtain ⟨rfl, rfl⟩ := h
        refine ⟨_, run_cons_eq_some.mpr ⟨_, hnext, rfl⟩, rfl, ?_⟩
        intro j
        by_cases hj : j = id
        · simp [System.put, hj]
        · simp [System.put, hj, Table.get_erase_ne]
      | some call' =>
        simp only [hstep] at h
        obtain ⟨s', hrun, hdata, hcalls⟩ := ih (s := ⟨d', s.put id (some call')⟩)
          (Table.get_set_self _) h
        refine ⟨s', run_cons_eq_some.mpr ⟨_, hnext, hrun⟩, hdata, ?_⟩
        intro j
        rw [hcalls]
        by_cases hj : j = id
        · simp [hj]
        · simp [System.put, hj, Table.get_set_ne]

/-- A call that begins and ends with nothing in between. -/
theorem run_whole {n : Nat} {d : σ} (hfree : s.calls.get id = none)
    (hbegins : service.begins s.data call = true)
    (h : service.finish answer n s.data call = some d) :
    ∃ s', run service.next s (.start id call :: List.replicate n (.run id answer)) = some s' ∧
      s'.data = d ∧ ∀ j, s'.calls.get j = s.calls.get j := by
  have hnext : service.next s (.start id call) = some { s with calls := s.calls.set id call } := by
    simp [Service.next, hfree, hbegins]
  obtain ⟨s', hrun, hdata, hcalls⟩ := run_finish (s := { s with calls := s.calls.set id call })
    (Table.get_set_self _) h
  refine ⟨s', run_cons_eq_some.mpr ⟨_, hnext, hrun⟩, hdata, ?_⟩
  intro j
  rw [hcalls]
  by_cases hj : j = id
  · simp [hj, hfree]
  · simp [hj, Table.get_set_ne]

/-! ## Protocols -/

structure Protocol (service : Service σ κ ν) where
  Inv : σ → Prop
  /-- What a call in progress relies on. -/
  Holds : σ → κ → Prop
  starts : ∀ {d c}, Inv d → service.begins d c = true → Holds d c
  keeps : ∀ {d v c d' r}, Inv d → Holds d c → service.step d v c = some (d', r) → Inv d'
  goes : ∀ {d v c d' c'}, Inv d → Holds d c → service.step d v c = some (d', some c') → Holds d' c'
  /-- No call takes away what another one relies on. -/
  stable : ∀ {d v c d' r e}, Inv d → Holds d c → service.step d v c = some (d', r) →
    Holds d e → Holds d' e

namespace Protocol

variable (protocol : Protocol service)

structure Sound (s : System σ κ) : Prop where
  inv : protocol.Inv s.data
  holds : ∀ id call, s.calls.get id = some call → protocol.Holds s.data call

theorem Sound.boot {d : σ} (h : protocol.Inv d) : protocol.Sound (.boot d) where
  inv := h
  holds _ _ hcall := by cases hcall

theorem Sound.next {e : Event κ ν} (h : protocol.Sound s) (hnext : service.next s e = some s') :
    protocol.Sound s' := by
  cases e with
  | start =>
    obtain ⟨_, hbegins, rfl⟩ := next_start hnext
    refine ⟨h.inv, ?_⟩
    exact s.calls.forall_set h.holds (protocol.starts h.inv hbegins)
  | run id =>
    obtain ⟨call, _, r, hcall, hstep, rfl⟩ := next_run hnext
    have hholds := h.holds id call hcall
    refine ⟨protocol.keeps h.inv hholds hstep, ?_⟩
    intro j c hc
    rcases get_put hc with ⟨-, rfl⟩ | ⟨-, hold⟩
    · exact protocol.goes h.inv hholds hstep
    · exact protocol.stable h.inv hholds hstep (h.holds j c hold)
  | kill id =>
    cases hnext
    refine ⟨h.inv, ?_⟩
    intro j c hc
    by_cases hj : j = id
    · subst hj
      simp at hc
    · exact h.holds j c (by rwa [Table.get_erase_ne _ hj] at hc)

/-- Every run keeps what the protocol says. -/
theorem sound {d : σ} {es : List (Event κ ν)} (h : protocol.Inv d)
    (hrun : run service.next (.boot d) es = some s) : protocol.Sound s :=
  run_invariant (fun _ _ _ hs hnext => Sound.next protocol hs hnext) (Sound.boot protocol h) hrun

end Protocol

/-! ## Conditions on steps -/

/-- The step of a call meets `ok`. -/
def Allowed (ok : σ → ν → κ → Prop) (s : System σ κ) : Event κ ν → Prop
  | .run id answer => ∀ call, s.calls.get id = some call → ok s.data answer call
  | _ => True

instance decidableAllowed {ok : σ → ν → κ → Prop} [∀ d v c, Decidable (ok d v c)]
    (s : System σ κ) : ∀ e, Decidable (Allowed ok s e)
  | .start _ _ => .isTrue trivial
  | .kill _ => .isTrue trivial
  | .run id answer =>
      match h : s.calls.get id with
      | none => .isTrue fun call hcall => by rw [h] at hcall; cases hcall
      | some call => decidable_of_iff (ok s.data answer call) (by simp [Allowed, h])

variable {ok : σ → ν → κ → Prop} {φ : σ → Prop} {d : σ} {es : List (Event κ ν)}

/-- Where a step of a call keeps `φ` exactly if it meets `ok`, a run stays in
`φ` exactly if all its steps meet `ok`. -/
theorem Protocol.throughout_iff (protocol : Protocol service)
    (hstep : ∀ {d v c d' r}, protocol.Inv d → protocol.Holds d c → φ d →
      service.step d v c = some (d', r) → (φ d' ↔ ok d v c))
    (hinv : protocol.Inv d) (hφ : φ d) (hrun : run service.next (.boot d) es = some s) :
    Throughout service.next (.boot d) es (fun s => φ s.data) ↔
      Along service.next (Allowed ok) (.boot d) es := by
  refine throughout_iff_along (P := protocol.Sound)
    (fun _ _ _ hs hnext => Protocol.Sound.next protocol hs hnext) ?_
    (Protocol.Sound.boot protocol hinv) hφ hrun
  intro s e s' hs hφ hnext
  cases e with
  | start =>
    obtain ⟨-, -, rfl⟩ := next_start hnext
    exact ⟨fun _ => trivial, fun _ => hφ⟩
  | kill =>
    cases hnext
    exact ⟨fun _ => trivial, fun _ => hφ⟩
  | run id =>
    obtain ⟨call, _, r, hcall, hone, rfl⟩ := next_run hnext
    refine (hstep hs.inv (hs.holds id call hcall) hφ hone).trans ?_
    simp [Allowed, hcall]

end Scadium.Lib.Calls
