/-
Scadium.Lib.Latest — the latest row of a key in a log.

A log is the list of its rows, newest first. `ofKey k` are the rows of a
key and `latest k` the one with the greatest stamp, which need not be the
one that was written last. `Timely k` says that it is.
-/
import Mathlib.Data.List.MinMax

namespace Scadium.Lib

variable {ρ κ σ : Type*} [DecidableEq κ]

/-- The rows of a key, newest first. -/
def ofKey (key : ρ → κ) (k : κ) (log : List ρ) : List ρ := log.filter fun r => key r = k

section Rows

variable {key : ρ → κ} {k : κ} {log : List ρ} {r : ρ}

theorem ofKey_cons : ofKey key k (r :: log) =
    if key r = k then r :: ofKey key k log else ofKey key k log := by
  by_cases h : key r = k
  · simp [ofKey, h]
  · simp [ofKey, h]

theorem ofKey_append (new : List ρ) :
    ofKey key k (new ++ log) = ofKey key k new ++ ofKey key k log :=
  List.filter_append ..

/-- The rows of a key, seen through a map that keeps keys. -/
theorem ofKey_map {τ : Type*} {f : ρ → τ} {key' : τ → κ} (hf : ∀ r, key' (f r) = key r) :
    ofKey key' k (log.map f) = (ofKey key k log).map f := by
  induction log with
  | nil => rfl
  | cons r log ih =>
    rw [List.map_cons, ofKey_cons, ofKey_cons, hf, ih]
    split <;> rfl

theorem ofKey_eq_nil (h : ∀ r ∈ log, key r ≠ k) : ofKey key k log = [] := by
  simpa [ofKey, List.filter_eq_nil_iff] using h

end Rows

section Stamps

variable [LinearOrder σ] (key : ρ → κ) (stamp : ρ → σ) (k : κ)

/-- `ORDER BY stamp DESC LIMIT 1`, among the rows of a key. -/
def latest (log : List ρ) : Option ρ := (ofKey key k log).argmax stamp

/-- The last row written of a key is stamped after all its others. -/
def Timely (log : List ρ) : Prop :=
  ∀ r ∈ (ofKey key k log).head?, ∀ x ∈ (ofKey key k log).tail, stamp x < stamp r

instance (log : List ρ) : Decidable (Timely key stamp k log) :=
  inferInstanceAs (Decidable (∀ r ∈ (ofKey key k log).head?, ∀ x ∈ (ofKey key k log).tail,
    stamp x < stamp r))

variable {key stamp k} {log : List ρ}

theorem Timely.of_rows {log' : List ρ} (h : Timely key stamp k log)
    (heq : ofKey key k log' = ofKey key k log) : Timely key stamp k log' := by
  unfold Timely
  rwa [heq]

theorem timely_nil : Timely key stamp k ([] : List ρ) := by
  intro r hr
  cases hr

/-- Then it is the latest. -/
theorem Timely.latest_eq (h : Timely key stamp k log) :
    latest key stamp k log = (ofKey key k log).head? := by
  unfold latest Timely at *
  cases hrows : ofKey key k log with
  | nil => rfl
  | cons r rest =>
    rw [hrows] at h
    cases hmax : List.argmax stamp (r :: rest) with
    | none => simp at hmax
    | some m =>
      have hle : stamp r ≤ stamp m := List.le_of_mem_argmax (List.mem_cons_self ..) hmax
      rcases List.mem_cons.mp (List.argmax_mem hmax) with heq | hm
      · rw [heq]
        rfl
      · have hlt := h r rfl m hm
        exact absurd hle (not_le.mpr hlt)

theorem Timely.map {τ : Type*} {f : ρ → τ} {key' : τ → κ} {stamp' : τ → σ}
    (hkey : ∀ r, key' (f r) = key r) (hstamp : ∀ r, stamp' (f r) = stamp r) :
    Timely key' stamp' k (log.map f) ↔ Timely key stamp k log := by
  unfold Timely
  rw [ofKey_map hkey]
  cases ofKey key k log with
  | nil => simp
  | cons => simp [hstamp]

end Stamps

end Scadium.Lib
