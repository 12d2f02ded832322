/-
Scadium.Lib.Paging — a log that grows at its head, read backwards in pages.

The log is kept newest first and no entry comes twice. A reader asks for the
entries older than one (`before`) and newer than another (`since`), a page at
a time; a cursor names the newest entry that is done with.
-/
import Mathlib.Data.List.DropRight
import Mathlib.Data.List.Nodup

namespace Scadium.Lib

section Paging

variable {α : Type} [DecidableEq α]

/-- The entries older than `before`. -/
def olderThan (log : List α) : Option α → List α
  | none => log
  | some b => (log.dropWhile (· ≠ b)).tail

/-- The entries newer than `since`. -/
def newerThan (log : List α) : Option α → List α
  | none => log
  | some c => log.takeWhile (· ≠ c)

/-- `since` and all that is older. -/
def upTo (log : List α) : Option α → List α
  | none => []
  | some c => log.dropWhile (· ≠ c)

def pageOf (log : List α) (before since : Option α) (limit : Nat) : List α :=
  (newerThan (olderThan log before) since).take limit

variable {log top rest : List α} {b c : α} {since : Option α} {limit : Nat}

@[simp] theorem olderThan_none : olderThan log none = log := rfl

theorem dropWhile_ne (h : b ∉ top) : (top ++ b :: rest).dropWhile (· ≠ b) = b :: rest := by
  induction top with
  | nil => simp
  | cons a top ih =>
    simp only [List.mem_cons, not_or] at h
    have hne : a ≠ b := fun heq => h.1 heq.symm
    simpa [hne] using ih h.2

theorem olderThan_some (h : b ∉ top) : olderThan (top ++ b :: rest) (some b) = rest := by
  simp only [olderThan, dropWhile_ne h, List.tail_cons]

theorem upTo_some (h : c ∉ top) : upTo (top ++ c :: rest) (some c) = c :: rest :=
  dropWhile_ne h

/-- New entries are not done with. -/
theorem upTo_append (h : ∀ c ∈ since, c ∉ top) : upTo (top ++ log) since = upTo log since := by
  cases since with
  | none => rfl
  | some c =>
    have hne : ∀ a ∈ top, decide (a ≠ c) = true := by
      intro a ha
      have hac : a ≠ c := fun heq => h c rfl (heq ▸ ha)
      simpa using hac
    exact List.dropWhile_append_of_pos hne

theorem newerThan_append_upTo (log : List α) (since : Option α) :
    newerThan log since ++ upTo log since = log := by
  cases since with
  | none => simp [newerThan, upTo]
  | some => exact List.takeWhile_append_dropWhile

/-- What a page leaves, ahead of the cursor and at it. -/
theorem upTo_drop (log : List α) (since : Option α) (limit : Nat) :
    ∃ rest, log = (newerThan log since).take limit ++ rest ∧ upTo rest since = upTo log since := by
  refine ⟨(newerThan log since).drop limit ++ upTo log since, ?_, ?_⟩
  · rw [← List.append_assoc, List.take_append_drop, newerThan_append_upTo]
  · cases since with
    | none => rfl
    | some c =>
      have hnew : ∀ a ∈ (newerThan log (some c)).drop limit, a ≠ c := by
        intro a ha
        simpa using List.mem_takeWhile_imp (List.mem_of_mem_drop ha)
      simp only [upTo]
      rw [List.dropWhile_append_of_pos (by simpa using hnew), List.dropWhile_idempotent]

/-- A short page ends at the cursor. -/
theorem short_page (h : ((newerThan log since).take limit).length < limit) :
    log = (newerThan log since).take limit ++ upTo log since := by
  have hall : (newerThan log since).length ≤ limit := by
    rw [List.length_take] at h
    omega
  rw [List.take_of_length_le hall, newerThan_append_upTo]

theorem olderThan_suffix (log : List α) (before : Option α) :
    ∃ top, log = top ++ olderThan log before := by
  cases before with
  | none => exact ⟨[], rfl⟩
  | some b =>
    obtain ⟨top, htop⟩ := (List.tail_suffix _).trans (List.dropWhile_suffix (· ≠ b) (l := log))
    exact ⟨top, htop.symm⟩

/-- What is older than the last entry of a page is less than what was paged. -/
theorem olderThan_last {init : List α} {before : Option α} (hnodup : log.Nodup)
    (hpage : pageOf log before since limit = init ++ [b]) :
    (olderThan log (some b)).length < (olderThan log before).length := by
  obtain ⟨top, htop⟩ := olderThan_suffix log before
  obtain ⟨rest, hrest, -⟩ := upTo_drop (olderThan log before) since limit
  have hsplit : olderThan log before = init ++ [b] ++ rest := by
    rw [← hpage]
    exact hrest
  have hlog : log = (top ++ init) ++ b :: rest := by
    rw [htop, hsplit]
    simp
  have hb : b ∉ top ++ init := by
    rw [hlog] at hnodup
    intro hmem
    exact (List.disjoint_of_nodup_append hnodup) hmem (List.mem_cons_self ..)
  have holder : olderThan log (some b) = rest := by
    rw [hlog, olderThan_some hb]
  simp only [holder, hsplit, List.length_append, List.length_cons, List.length_nil]
  omega

end Paging

end Scadium.Lib
