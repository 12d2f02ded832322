/-
Scadium.Games.IdempotentCommands — commands that are sent again with the
same idempotency key.

A command that is one transaction leaves its key with its response or not
at all (`Keyed.keyed_once`). A crash bet takes several: it too stands at
most once for each key, and what it answers is the stored response, but a
bet that ends between its debit and the end of its key leaves the key
behind, without a response and with no one to complete it
(`KeyedBets.inFlight_iff`).
-/
import Scadium.Games.Crash.KeyedBets
import Scadium.Games.Crash.System
import Scadium.Games.KeyedCommands

namespace Scadium.Games

open Scadium.Lib Scadium.Lib.ReadCommitted Scadium.Prisma Scadium.Prisma.Sessions
open Scadium.Games.Crash

/-- What commands commit, and what they leave behind. -/
theorem commands_idempotent (d : Coinflip.Deps) (users : UserId → Option User)
    {es : List (ReadCommitted.Event Env Keyed.Command)} {s : Keyed.KeyedSystem}
    (hcommands : run (Keyed.step d) (System.initial (usersOnly users)) es = some s)
    {cfg : KeyedBets.Config} {db : Db}
    (hdb : ∀ u clientKey, db.idempotencyKeys (u, "crash_bet", clientKey) ≠ some none)
    {fs : List KeyedBets.Event} {b : KeyedBets.State}
    (hbets : run (KeyedBets.step cfg) (.boot db) fs = some b) :
    Keyed.OnceEach s (commitsOf (Keyed.body d) (System.initial (usersOnly users)) es) ∧
      KeyedBets.BetsOnce b ∧
      (Throughout (KeyedBets.step cfg) (.boot db) fs KeyedBets.InFlight ↔
        Along (KeyedBets.step cfg) (KeyedBets.KeepsHold cfg) (.boot db) fs) :=
  ⟨Keyed.keyed_once d users hcommands, (KeyedBets.bets_once hbets).toBetsOnce,
    KeyedBets.inFlight_iff hdb hbets⟩

namespace KeyedSample

def users : UserId → Option User := fun u => if u = 7 then some Crash.Sample.ada else none

def flipDeps : Coinflip.Deps where
  commitServerSeed := id
  hmacByte _ _ _ := 1
  rngEntropy serverSeed _ _ _ := serverSeed
  economyEnforced := false

def cfg : KeyedBets.Config := ⟨Crash.Sample.deps, false⟩

/-- One user, and a round that takes bets. -/
def db : Db := { Crash.Sample.db with
  crashRounds := fun r => if r = 1 then some ⟨1, 0, .waiting, none, none, none⟩ else none }

def waiting : Round := Crash.Sample.created.round 0 none

def call : BetCall := { Crash.Sample.call with key := some "k" }

def key : IdempotencyRef := (7, "crash_bet", "k")

/-- The bet is taken. -/
def accepted : List KeyedBets.Event :=
  [.begin call, .act 0 (.claim none), .act 0 (.decide false waiting), .act 0 (.creditReferrer none),
    .act 0 (.store none)]

/-- The bet comes too late; the process stops after the refund. The client
sends it again. -/
def rejected : List KeyedBets.Event :=
  [.begin call, .act 0 (.claim none), .act 0 (.decide false { waiting with betsClosed := true }),
    .act 0 (.refund none), .act 0 (.deleteRow true), .act 0 .kill,
    .begin call, .act 1 (.claim none)]

/-- A withdrawal with its key. -/
def withdrawn : List (ReadCommitted.Event Env Keyed.Command) :=
  .start 0 (.withdraw ⟨7, none, 1000⟩ (some "k")) ::
    List.replicate 12 (.run 0 { newId := 5 })

end KeyedSample

theorem commands_idempotent_sample : ∃ s b,
    run (Keyed.step KeyedSample.flipDeps) (System.initial (usersOnly KeyedSample.users))
      KeyedSample.withdrawn = some s ∧
    run (KeyedBets.step KeyedSample.cfg) (.boot KeyedSample.db) KeyedSample.accepted = some b ∧
    KeyedBets.BetsOnce b ∧
    Throughout (KeyedBets.step KeyedSample.cfg) (.boot KeyedSample.db) KeyedSample.accepted
      KeyedBets.InFlight := by
  have hcommands : (run (Keyed.step KeyedSample.flipDeps)
      (System.initial (usersOnly KeyedSample.users)) KeyedSample.withdrawn).isSome = true := by
    decide +kernel
  have hbets : (run (KeyedBets.step KeyedSample.cfg) (.boot KeyedSample.db)
      KeyedSample.accepted).isSome = true := by
    decide +kernel
  have hkeeps : Along (KeyedBets.step KeyedSample.cfg) (KeyedBets.KeepsHold KeyedSample.cfg)
      (.boot KeyedSample.db) KeyedSample.accepted := by
    decide +kernel
  obtain ⟨s, hs⟩ := Option.isSome_iff_exists.mp hcommands
  obtain ⟨b, hb⟩ := Option.isSome_iff_exists.mp hbets
  obtain ⟨-, honce, hflight⟩ := commands_idempotent KeyedSample.flipDeps KeyedSample.users hs
    (fun _ _ => by simp [KeyedSample.db,
      Crash.Sample.db, Db.empty]) hb
  exact ⟨s, b, hs, hb, honce, hflight.mpr hkeeps⟩

/-- A refused bet is refunded and its key stays: the process stopped before it
was dropped. The bet sent again is answered a conflict. -/
theorem refused_bet_leaves_key : ∃ b,
    run (KeyedBets.step KeyedSample.cfg) (.boot KeyedSample.db) KeyedSample.rejected = some b ∧
    b.debits.map Prod.fst = [0] ∧ b.refunds = [0] ∧
    b.key KeyedSample.key = some none ∧ (∀ t, ¬ KeyedBets.Holder b t KeyedSample.key) ∧
    b.replies.map Prod.snd = [.error (.conflict "Request already in progress")] := by
  obtain ⟨b, hb, hdebits, hrefunds, hkey, hlive, hreplies⟩ : ∃ b,
      run (KeyedBets.step KeyedSample.cfg) (.boot KeyedSample.db) KeyedSample.rejected = some b ∧
      b.debits.map Prod.fst = [0] ∧ b.refunds = [0] ∧ b.key KeyedSample.key = some none ∧
      b.live.entries.length = 0 ∧
      b.replies.map Prod.snd = [.error (.conflict "Request already in progress")] := by
    decide +kernel
  refine ⟨b, hb, hdebits, hrefunds, hkey, ?_, hreplies⟩
  rintro t ⟨σ, hget, -⟩
  have hmem := b.live.get_eq_some.mp hget
  rw [List.length_eq_zero_iff.mp hlive] at hmem
  cases hmem

end Scadium.Games
