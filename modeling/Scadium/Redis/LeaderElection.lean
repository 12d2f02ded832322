/-
Scadium.Redis.LeaderElection — who advances a game loop, and what it was last told
(`apps/api/src/redis/leader-election.ts`).

A run of the timer reads `leader`, asks Redis, writes `leader`, and calls `onChange`
when what it wrote is not what it had read. Nothing keeps two runs apart, so a run may
write back a value that another run has changed and announced meanwhile, and say
nothing. `stop` says nothing either, and does not wait for a run that may yet take the
lock.

One instance is modelled, and its key, which other instances take and give back and
which expires. A step is what runs between two awaits. Commands are executed and
answered in any order, and any of them may fail, executed or not. What a run has
returned is announced a moment later, in the order the runs return. An instance starts
without the lock; the engines tick once before they start theirs, and act on that answer
themselves.

- Steps: a step leaves the runs as they are, begins one, ends one, or ends the release
  (`step_moves`).
- Convergence: as long as runs do not overlap, the one in flight began with the
  leadership that is held and was last announced, so what it finds is compared with that.
-/
import Scadium.Lib.Runs

namespace Scadium.Redis.LeaderElection

open Scadium.Lib

/-- The scripts a run sends. -/
inductive Command where
  /-- compare and extend -/
  | renew
  /-- `SET key instanceId PX ttl NX` -/
  | acquire
  deriving DecidableEq

/-- A run in flight. -/
structure Run where
  /-- `leader` when the run began -/
  was : Bool
  command : Command
  /-- what Redis answers, once the command is executed -/
  answer : Option Bool
  deriving DecidableEq

/-- What a run returned, before it is compared. -/
structure Return where
  was : Bool
  now : Bool
  deriving DecidableEq

inductive Holder where
  | self | other
  deriving DecidableEq

inductive Stage where
  | idle | started
  /-- the release is sent; its timer is cleared -/
  | stopping (executed : Bool)
  | stopped
  deriving DecidableEq

structure State where
  leader : Bool
  stage : Stage
  runs : List Run
  returns : List Return
  /-- the value `onChange` was last called with -/
  told : Bool
  key : Option Holder
  deriving DecidableEq

def State.init : State := ⟨false, .idle, [], [], false, none⟩

inductive Event where
  | start
  /-- the interval elapses -/
  | tick
  /-- Redis executes the command of run `i` -/
  | exec (i : Nat)
  | reply (i : Nat)
  /-- the command of run `i` is rejected -/
  | reject (i : Nat)
  /-- the oldest return is compared, and announced if it is a transition -/
  | announce
  | stop
  | execRelease
  /-- the release is answered or rejected -/
  | released
  | expire
  | takeOver
  | letGo
  /-- a command is executed after its promise was rejected -/
  | execLate (command : Command)
  deriving DecidableEq

section

variable (s : State)

/-- The synchronous part of a run. -/
def begin : State :=
  { s with runs := s.runs ++ [⟨s.leader, if s.leader then .renew else .acquire, none⟩] }

/-- Redis executes a command: the answer, and the key after it. -/
def execute (key : Option Holder) : Command → Bool × Option Holder
  | .renew => (key = some .self, key)
  | .acquire => match key with
    | none => (true, some .self)
    | some holder => (false, some holder)

/-- `tick` returns. -/
def conclude (i : Nat) (r : Run) (now : Bool) : State :=
  { s with leader := now, runs := s.runs.eraseIdx i, returns := s.returns ++ [⟨r.was, now⟩] }

def exec (i : Nat) : Option State := do
  let r ← s.runs[i]?
  if r.answer.isSome then none
  else
    let (answer, key) := execute s.key r.command
    some { s with runs := s.runs.set i { r with answer := some answer }, key := key }

/-- A run whose renewal found the lock gone tries to take it straight back. -/
def retry (i : Nat) : Option State := do
  let r ← s.runs[i]?
  if r.answer = some false ∧ r.command = .renew then
    some { s with runs := s.runs.set i ⟨r.was, .acquire, none⟩ }
  else none

def reply (i : Nat) : Option State := do
  let r ← s.runs[i]?
  match r.command, r.answer with
  | _, none => none
  | .renew, some true => some (conclude s i r s.leader)
  | .renew, some false => retry s i
  | .acquire, some got => some (conclude s i r got)

def reject (i : Nat) : Option State := do
  let r ← s.runs[i]?
  some (conclude s i r false)

/-- `if (now !== was) this.onChange?.(now)` -/
def hear (told : Bool) (r : Return) : Bool := if r.now ≠ r.was then r.now else told

def announce : Option State :=
  match s.returns with
  | r :: rest => some { s with returns := rest, told := hear s.told r }
  | [] => none

def step : Event → Option State
  | .start => if s.stage = .idle then some (begin { s with stage := .started }) else none
  | .tick => if s.stage = .started then some (begin s) else none
  | .exec i => exec s i
  | .reply i => reply s i
  | .reject i => reject s i
  | .announce => announce s
  | .stop => if s.stage = .started then some { s with stage := .stopping false } else none
  | .execRelease =>
      if s.stage = .stopping false then
        some { s with
          stage := .stopping true
          key := if s.key = some .self then none else s.key }
      else none
  | .released => match s.stage with
      | .stopping _ => some { s with stage := .stopped, leader := false }
      | _ => none
  | .expire => some { s with key := none }
  | .takeOver => if s.key = none then some { s with key := some .other } else none
  | .letGo => if s.key = some .other then some { s with key := none } else none
  | .execLate command => some { s with key := (execute s.key command).2 }

/-- What will have been told when all returns are announced. -/
def announced : Bool := s.returns.foldl hear s.told

/-- When the release is answered, no run is in flight. -/
def Waited (e : Event) : Prop := e = .released → s.runs = []

/-- Nor does the interval elapse during a run, nor is the lock released by an instance
that leads. -/
def InOrder (e : Event) : Prop :=
  (e = .tick → s.runs = []) ∧ (e = .released → s.runs = [] ∧ s.leader = false)

instance : DecidablePred (Waited s) := fun _ => inferInstanceAs (Decidable (_ → _))

instance : DecidablePred (InOrder s) := fun _ => inferInstanceAs (Decidable (_ ∧ _))

end

/-! ## Steps -/

/-- What a step does to the leadership, the runs and what is told of them. -/
inductive Moves (s : State) : Event → State → Prop where
  | quiet (e : Event) (s' : State) (hleader : s'.leader = s.leader)
      (hruns : s'.runs.map Run.was = s.runs.map Run.was) (htold : announced s' = announced s)
      (hidle : s'.stage = .idle → s.stage = .idle)
      (hstopped : s'.stage = .stopped → s.stage = .stopped) : Moves s e s'
  | begins (e : Event) (he : e = .start ∧ s.stage = .idle ∨ e = .tick) :
      Moves s e (begin { s with stage := .started })
  | ends (e : Event) (i : Nat) (r : Run) (now : Bool) (hr : s.runs[i]? = some r) :
      Moves s e (conclude s i r now)
  | released : Moves s .released { s with stage := .stopped, leader := false }

section

variable {s s' : State} {e : Event} {i : Nat}

/-- A step that only touches Redis. -/
theorem Moves.keyed (e : Event) (key : Option Holder) : Moves s e { s with key := key } :=
  .quiet e _ rfl rfl rfl id id

/-- The command of a run changes, or its answer, and what it began with does not. -/
theorem was_set {r r' : Run} (hr : s.runs[i]? = some r) (hwas : r'.was = r.was) :
    (s.runs.set i r').map Run.was = s.runs.map Run.was := by
  rw [List.map_set, hwas]
  refine List.ext_getElem? fun j => ?_
  rw [List.getElem?_set]
  split
  · rename_i hij
    subst hij
    obtain ⟨hlt, hget⟩ := List.getElem?_eq_some_iff.mp hr
    simp [hlt, hget]
  · rfl

theorem exec_moves (h : exec s i = some s') : Moves s (.exec i) s' := by
  simp only [exec, Option.bind_eq_bind, Option.bind_eq_some_iff] at h
  obtain ⟨r, hr, h⟩ := h
  split at h
  · cases h
  · cases h
    exact .quiet _ _ rfl (was_set hr rfl) rfl id id

theorem retry_moves (h : retry s i = some s') : Moves s (.reply i) s' := by
  simp only [retry, Option.bind_eq_bind, Option.bind_eq_some_iff] at h
  obtain ⟨r, hr, h⟩ := h
  split at h
  · cases h
    exact .quiet _ _ rfl (was_set hr rfl) rfl id id
  · cases h

theorem reply_moves (h : reply s i = some s') : Moves s (.reply i) s' := by
  simp only [reply, Option.bind_eq_bind, Option.bind_eq_some_iff] at h
  obtain ⟨r, hr, h⟩ := h
  split at h
  · cases h
  · cases h
    exact .ends _ i r _ hr
  · exact retry_moves h
  · cases h
    exact .ends _ i r _ hr

theorem reject_moves (h : reject s i = some s') : Moves s (.reject i) s' := by
  simp only [reject, Option.bind_eq_bind, Option.bind_eq_some_iff] at h
  obtain ⟨r, hr, h⟩ := h
  cases h
  exact .ends _ i r _ hr

theorem announce_moves (h : announce s = some s') : Moves s .announce s' := by
  unfold announce at h
  split at h
  · rename_i r rest hreturns
    cases h
    refine .quiet _ _ rfl rfl ?_ id id
    simp [announced, hreturns]
  · cases h

theorem step_moves (h : step s e = some s') : Moves s e s' := by
  cases e with
  | exec => exact exec_moves h
  | reply => exact reply_moves h
  | reject => exact reject_moves h
  | announce => exact announce_moves h
  | start =>
    simp only [step, Option.ite_none_right_eq_some, Option.some.injEq] at h
    obtain ⟨hidle, rfl⟩ := h
    exact .begins _ (.inl ⟨rfl, hidle⟩)
  | tick =>
    simp only [step, Option.ite_none_right_eq_some, Option.some.injEq] at h
    obtain ⟨hstarted, rfl⟩ := h
    rw [show s = { s with stage := .started } by rw [← hstarted]]
    exact .begins _ (.inr rfl)
  | stop | execRelease =>
    simp only [step, Option.ite_none_right_eq_some, Option.some.injEq] at h
    obtain ⟨-, rfl⟩ := h
    exact .quiet _ _ rfl rfl rfl nofun nofun
  | released =>
    simp only [step] at h
    split at h
    · cases h
      exact .released
    · cases h
  | takeOver | letGo =>
    simp only [step, Option.ite_none_right_eq_some, Option.some.injEq] at h
    obtain ⟨-, rfl⟩ := h
    exact .keyed _ _
  | expire | execLate =>
    cases h
    exact .keyed _ _

/-! ## Convergence -/

/-- A run in flight is the only one, and began with the leadership that is held, which is
what will have been told. -/
structure Sound (s : State) : Prop where
  told : announced s = s.leader
  began : s.runs = [] ∨ s.runs.map Run.was = [s.leader]
  idle : s.stage = .idle → s.runs = []

theorem sound_init : Sound State.init := ⟨rfl, .inl rfl, fun _ => rfl⟩

/-- The step that matters: what the run found is compared with what was announced. -/
theorem sound_conclude {r : Run} {now : Bool} (hs : Sound s) (hr : s.runs[i]? = some r) :
    Sound (conclude s i r now) := by
  have hruns : s.runs = [r] ∧ i = 0 ∧ r.was = s.leader := by
    obtain hnone | hone := hs.began
    · simp [hnone] at hr
    · obtain ⟨_, hr', hwas⟩ := List.map_eq_singleton_iff.mp hone
      rw [hr', List.getElem?_singleton] at hr
      split at hr
      · rename_i hi
        cases hr
        exact ⟨hr', hi, hwas⟩
      · cases hr
  obtain ⟨hruns, rfl, hwas⟩ := hruns
  have hgone : (conclude s 0 r now).runs = [] := by simp [conclude, hruns]
  refine ⟨?_, .inl hgone, fun _ => hgone⟩
  have htold : announced (conclude s 0 r now) = hear (announced s) ⟨r.was, now⟩ := by
    simp [announced, conclude]
  rw [htold, hs.told, ← hwas]
  show hear r.was ⟨r.was, now⟩ = now
  unfold hear
  split
  · rfl
  · rename_i hsame
    simpa using (not_not.mp hsame).symm

theorem sound_step (s : State) (e : Event) (s' : State) (hok : InOrder s e) (hs : Sound s)
    (h : step s e = some s') : Sound s' := by
  cases step_moves h with
  | quiet _ _ hleader hruns htold hidle =>
    refine ⟨by rw [htold, hleader, hs.told], ?_, fun hi => ?_⟩
    · rw [hruns, hleader]
      refine hs.began.imp_left fun hnone => ?_
      simpa [hnone] using hruns
    · simpa [hs.idle (hidle hi)] using hruns
  | begins _ he =>
    have hnone : s.runs = [] := by
      obtain ⟨-, hidle⟩ | htick := he
      · exact hs.idle hidle
      · exact hok.1 htick
    exact ⟨hs.told, .inr (by simp [begin, hnone]), nofun⟩
  | ends _ i r now hr => exact sound_conclude hs hr
  | released =>
    obtain ⟨hnone, hleader⟩ := hok.2 rfl
    exact ⟨hs.told.trans hleader, .inl hnone, fun _ => hnone⟩

/-- What has stopped does not lead, and no run is left to change that. -/
def Ended (s : State) : Prop := s.stage = .stopped → s.runs = [] ∧ s.leader = false

theorem ended_step (s : State) (e : Event) (s' : State) (hok : Waited s e) (hs : Ended s)
    (h : step s e = some s') : Ended s' := by
  intro hstage
  cases step_moves h with
  | quiet _ _ hleader hruns htold hidle hstopped =>
    obtain ⟨hnone, hnot⟩ := hs (hstopped hstage)
    exact ⟨by simpa [hnone] using hruns, hleader.trans hnot⟩
  | begins => cases hstage
  | ends _ i r now hr =>
    obtain ⟨hnone, -⟩ := hs hstage
    simp [hnone] at hr
  | released => exact ⟨hok rfl, rfl⟩

/-- Where runs do not overlap and a leader is not stopped, the last notification is the
leadership held whenever no run is in flight; and where no run outlives the release, a
stopped instance does not lead again. -/
theorem notifications_converge {events : List Event} :
    (Along step InOrder State.init events → Throughout step State.init events fun s =>
      s.runs = [] → s.returns = [] → s.told = s.leader) ∧
    (Along step Waited State.init events → Throughout step State.init events fun s =>
      s.stage = .stopped → s.leader = false) := by
  constructor
  · intro h
    refine (throughout_of_along sound_step sound_init h).mono fun s hs _ hreturns => ?_
    simpa [announced, hreturns] using hs.told
  · intro h
    have hinit : Ended State.init := nofun
    exact (throughout_of_along ended_step hinit h).mono fun s hs hstage => (hs hstage).2

end

namespace Sample

/-- A first run takes the lock, a renewal finds it gone and takes it back, another
instance gets it, and the instance stops. -/
def elected : List Event :=
  [.start, .exec 0, .reply 0, .announce, .tick, .expire, .exec 0, .reply 0, .exec 0, .reply 0,
    .announce, .tick, .expire, .takeOver, .exec 0, .reply 0, .exec 0, .reply 0, .announce, .stop,
    .execRelease, .released]

theorem notifications_converge_elected :
    (run step State.init elected).isSome ∧
    Throughout step State.init elected
      (fun s => s.runs = [] → s.returns = [] → s.told = s.leader) ∧
    Throughout step State.init elected fun s => s.stage = .stopped → s.leader = false :=
  ⟨by decide +kernel, notifications_converge.1 (by decide +kernel),
    notifications_converge.2 (by decide +kernel)⟩

/-- The first run is not answered before the second begins. -/
def overlapping : List Event :=
  [.start, .tick, .exec 0, .exec 1, .reply 0, .announce, .reply 0, .announce]

/-- A renewal finds the lock gone while the instance stops. -/
def outliving : List Event :=
  [.start, .exec 0, .reply 0, .announce, .tick, .expire, .exec 0, .stop, .reply 0, .execRelease,
    .released, .exec 0, .reply 0, .announce]

/-- The loop runs, and the instance does not lead; the instance has stopped, and leads. -/
theorem notifications_diverge :
    ¬ (∀ events, Throughout step State.init events fun s =>
      s.runs = [] → s.returns = [] → s.told = s.leader) ∧
    ¬ ∀ events, Throughout step State.init events fun s =>
      s.stage = .stopped → s.leader = false := by
  constructor
  · intro h
    obtain ⟨s, hs, hwrong⟩ : ∃ s, run step State.init overlapping = some s ∧ s.runs = [] ∧
        s.returns = [] ∧ s.told ∧ ¬ s.leader := by decide +kernel
    obtain ⟨hruns, hreturns, htold, hleader⟩ := hwrong
    have heq := h overlapping overlapping [] s (by simp) hs hruns hreturns
    exact hleader (heq ▸ htold)
  · intro h
    obtain ⟨s, hs, hstopped, hleader⟩ : ∃ s, run step State.init outliving = some s ∧
        s.stage = .stopped ∧ s.leader := by decide +kernel
    have hnot := h outliving outliving [] s (by simp) hs hstopped
    exact Bool.false_ne_true (hnot.symm.trans hleader)

end Sample

end Scadium.Redis.LeaderElection
