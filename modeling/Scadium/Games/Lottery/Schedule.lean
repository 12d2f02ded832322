/-
Scadium.Games.Lottery.Schedule — the next draw at any draw hours and any offset
(`nextLotteryDrawAt`, `packages/shared/src/constants.ts`).

The source shifts a time by the offset, reads the local date with the UTC getters, and
makes the start of that day of it with `Date.UTC`. The draw hours of this day and of the
next are the candidates. It works wherever the getters and `Date.UTC` are inverse: on
every time a `Date` can have, but for the first hundred years.
-/
import Mathlib.Data.List.Sort
import Scadium.Games.Lottery.SaleWindow
import Scadium.Lib.Calendar

namespace Scadium.Games.Lottery.Schedule

open Scadium.Lib.Calendar

def MS_PER_HOUR : Int := 3600000

/-- The hour `h` of the local day that starts at `dayStart`. -/
def slot (dayStart : Int) (h : Fin 24) : Int := dayStart + h * MS_PER_HOUR

/-- The times a draw may be at, sorted: today's, then tomorrow's. -/
def candidates (hours : List (Fin 24)) (localDayStart : Int) : List Int :=
  let hours := hours.insertionSort (· ≤ ·)
  hours.map (slot localDayStart) ++ hours.map (slot (localDayStart + 24 * MS_PER_HOUR))

/-- `none` is `NaN`. -/
def nextLotteryDrawAt (hours : List (Fin 24)) (offsetMinutes nowMs : Int) : Option Int := do
  let offsetMs := offsetMinutes * 60 * 1000
  let d ← timeClip (nowMs + offsetMs)
  let localDayStart ← dateUTC (getUTCFullYear d) (getUTCMonth d) (getUTCDate d)
  let nextLocal ← (candidates hours localDayStart).find? (nowMs + offsetMs < ·)
  some (nextLocal - offsetMs)

/-- A draw hour strikes at a local time. -/
def Strikes (hours : List (Fin 24)) (localMs : Int) : Prop :=
  ∃ h ∈ hours, localMs % MS_PER_DAY = h * MS_PER_HOUR

/-- A draw hour strikes. -/
def Scheduled (hours : List (Fin 24)) (offsetMinutes t : Int) : Prop :=
  Strikes hours (t + offsetMinutes * 60 * 1000)

/-! ## Candidates -/

/-- In a sorted list, what is found first is the least. -/
theorem find_least {l : List Int} {x y : Int} (hsorted : l.Pairwise (· ≤ ·))
    (hfound : l.find? (x < ·) = some y) : ∀ z ∈ l, x < z → y ≤ z := by
  induction l with
  | nil => simp at hfound
  | cons a l ih =>
    rw [List.pairwise_cons] at hsorted
    intro z hz hlt
    rw [List.find?_cons] at hfound
    split at hfound
    · cases hfound
      rcases List.mem_cons.mp hz with rfl | hz
      · exact Int.le_refl z
      · exact hsorted.1 z hz
    · rename_i hpassed
      rcases List.mem_cons.mp hz with rfl | hz
      · simp [hlt] at hpassed
      · exact ih hsorted.2 hfound z hz hlt

section

variable {hours : List (Fin 24)} {dayStart : Int}

theorem mem_candidates {c : Int} : c ∈ candidates hours dayStart ↔
    ∃ h ∈ hours, c = slot dayStart h ∨ c = slot (dayStart + MS_PER_DAY) h := by
  simp only [candidates, List.mem_append, List.mem_map, List.mem_insertionSort]
  constructor
  · rintro (⟨h, hh, rfl⟩ | ⟨h, hh, rfl⟩)
    · exact ⟨h, hh, .inl rfl⟩
    · exact ⟨h, hh, .inr rfl⟩
  · rintro ⟨h, hh, rfl | rfl⟩
    · exact .inl ⟨h, hh, rfl⟩
    · exact .inr ⟨h, hh, rfl⟩

theorem slot_mono {h h' : Fin 24} (hle : h ≤ h') : slot dayStart h ≤ slot dayStart h' := by
  have hval : (h : Nat) ≤ h' := hle
  unfold slot MS_PER_HOUR
  omega

theorem candidates_sorted (hours : List (Fin 24)) (dayStart : Int) :
    (candidates hours dayStart).Pairwise (· ≤ ·) := by
  have hhours := List.pairwise_insertionSort (· ≤ ·) hours
  unfold candidates
  dsimp only
  rw [List.pairwise_append]
  refine ⟨hhours.map _ fun _ _ => slot_mono, hhours.map _ fun _ _ => slot_mono, ?_⟩
  simp only [List.mem_map]
  rintro _ ⟨h, -, rfl⟩ _ ⟨_, -, rfl⟩
  have hday := h.isLt
  unfold slot MS_PER_HOUR
  omega

/-- Of the candidates of a time's day one comes after it, within a day. -/
theorem exists_candidate {t : Int} {h : Fin 24} (hh : h ∈ hours) :
    ∃ c ∈ candidates hours (t / MS_PER_DAY * MS_PER_DAY), t < c ∧ c ≤ t + MS_PER_DAY := by
  have hslot := h.isLt
  by_cases htoday : t < slot (t / MS_PER_DAY * MS_PER_DAY) h
  · refine ⟨_, mem_candidates.mpr ⟨h, hh, .inl rfl⟩, htoday, ?_⟩
    unfold slot MS_PER_HOUR MS_PER_DAY
    omega
  · refine ⟨_, mem_candidates.mpr ⟨h, hh, .inr rfl⟩, ?_, ?_⟩
    all_goals
      unfold slot MS_PER_HOUR MS_PER_DAY at *
      omega

/-- A draw hour that strikes after a time does so at a candidate of the time's day, or
later than one. -/
theorem candidate_le {t u : Int} (hu : Strikes hours u) (hlt : t < u) :
    ∃ c ∈ candidates hours (t / MS_PER_DAY * MS_PER_DAY), t < c ∧ c ≤ u := by
  obtain ⟨h, hh, hu⟩ := hu
  have hslot := h.isLt
  by_cases htoday : t < slot (t / MS_PER_DAY * MS_PER_DAY) h
  · refine ⟨_, mem_candidates.mpr ⟨h, hh, .inl rfl⟩, htoday, ?_⟩
    unfold slot MS_PER_HOUR MS_PER_DAY at *
    omega
  · refine ⟨_, mem_candidates.mpr ⟨h, hh, .inr rfl⟩, ?_, ?_⟩
    all_goals
      unfold slot MS_PER_HOUR MS_PER_DAY at *
      omega

theorem candidate_scheduled {t c : Int}
    (hc : c ∈ candidates hours (t / MS_PER_DAY * MS_PER_DAY)) : Strikes hours c := by
  obtain ⟨h, hh, rfl | rfl⟩ := mem_candidates.mp hc
  all_goals
    refine ⟨h, hh, ?_⟩
    have hslot := h.isLt
    unfold slot MS_PER_HOUR MS_PER_DAY
    omega

/-- What is found is the first draw hour to strike, and strikes within a day. -/
theorem find_candidate (hne : hours ≠ []) (t : Int) :
    ∃ c, (candidates hours (t / MS_PER_DAY * MS_PER_DAY)).find? (t < ·) = some c ∧
      t < c ∧ Strikes hours c ∧ (∀ u, Strikes hours u → t < u → c ≤ u) ∧ c ≤ t + MS_PER_DAY := by
  obtain ⟨h, hh⟩ := List.exists_mem_of_ne_nil hours hne
  obtain ⟨c₀, hc₀, hlater, hsoon⟩ := exists_candidate (t := t) hh
  have hsome : ((candidates hours (t / MS_PER_DAY * MS_PER_DAY)).find? (t < ·)).isSome = true :=
    List.find?_isSome.mpr ⟨c₀, hc₀, decide_eq_true hlater⟩
  obtain ⟨c, hfound⟩ := Option.isSome_iff_exists.mp hsome
  have hleast := find_least (candidates_sorted hours _) hfound
  have hlt : t < c := by simpa using List.find?_some hfound
  refine ⟨c, hfound, hlt, candidate_scheduled (List.mem_of_find?_eq_some hfound), ?_, ?_⟩
  · intro u hu hlt
    obtain ⟨c', hc', hlater', hle⟩ := candidate_le hu hlt
    exact (hleast c' hc' hlater').trans hle
  · exact (hleast c₀ hc₀ hlater).trans hsoon

end

/-! ## The next draw -/

/-- The time is the earliest draw after `nowMs`, and within a day. -/
structure NextDraw (hours : List (Fin 24)) (offsetMinutes nowMs drawAt : Int) : Prop where
  later : nowMs < drawAt
  scheduled : Scheduled hours offsetMinutes drawAt
  earliest : ∀ t, Scheduled hours offsetMinutes t → nowMs < t → drawAt ≤ t
  soon : drawAt ≤ nowMs + 24 * MS_PER_HOUR

/-- The next draw is found at every time whose local time is one of a `Date`, outside
the years 0 to 99. -/
theorem nextLotteryDrawAt_next {hours : List (Fin 24)} {offsetMinutes nowMs : Int}
    (hne : hours ≠ []) (hlow : -MAX_TIME ≤ nowMs + offsetMinutes * 60 * 1000)
    (hhigh : nowMs + offsetMinutes * 60 * 1000 ≤ MAX_TIME)
    (hyear : ¬ (0 ≤ getUTCFullYear (nowMs + offsetMinutes * 60 * 1000) ∧
      getUTCFullYear (nowMs + offsetMinutes * 60 * 1000) ≤ 99)) :
    ∃ drawAt, nextLotteryDrawAt hours offsetMinutes nowMs = some drawAt ∧
      NextDraw hours offsetMinutes nowMs drawAt := by
  obtain ⟨c, hfound, _, hstrikes, hearliest, hsoon⟩ :=
    find_candidate hne (nowMs + offsetMinutes * 60 * 1000)
  have hclip : timeClip (nowMs + offsetMinutes * 60 * 1000) =
      some (nowMs + offsetMinutes * 60 * 1000) := if_pos ⟨hlow, hhigh⟩
  refine ⟨c - offsetMinutes * 60 * 1000, ?_, by omega, ?_, ?_, ?_⟩
  · simp only [nextLotteryDrawAt, hclip, Option.bind_eq_bind, Option.bind_some,
      dateUTC_eq hlow hhigh hyear, hfound]
  · unfold Scheduled
    rw [Int.sub_add_cancel]
    exact hstrikes
  · intro t ht hlt
    have hle := hearliest _ ht (by omega)
    omega
  · unfold MS_PER_HOUR
    unfold MS_PER_DAY at hsoon
    omega

/-! ## The schedule in force -/

/-- A search among numbers, read as integers. -/
theorem find_cast (t : Nat) (l : List Nat) :
    (l.map Int.ofNat).find? ((t : Int) < ·) = (l.find? (t < ·)).map Int.ofNat := by
  rw [List.find?_map]
  congr 1
  refine congrArg (fun p => List.find? p l) (funext fun c => ?_)
  exact decide_eq_decide.mpr Int.ofNat_lt

theorem start_cast {hour t : Nat} {day : Int} (hday : day = (24 * hour : Nat)) :
    (t : Int) / day * day = (t / (24 * hour) * (24 * hour) : Nat) := by
  rw [hday, ← Int.natCast_ediv, ← Int.natCast_mul]

theorem slots_cast {hour : Nat} (start : Nat) (hhour : MS_PER_HOUR = hour) :
    candidates [12] start = [start + 12 * hour, start + 24 * hour + 12 * hour].map Int.ofNat := by
  have hday : candidates [12] start = [slot start 12, slot (start + 24 * MS_PER_HOUR) 12] := rfl
  have h12 : (((12 : Fin 24) : Nat) : Int) = 12 := rfl
  rw [hday]
  unfold slot
  rw [hhour, h12]
  simp

/-- Since 1970 the year has four digits. -/
theorem getUTCFullYear_nonneg {t : Int} (ht : 0 ≤ t) : 99 < getUTCFullYear t := by
  have hyear := (yearFromDay_spec (t / MS_PER_DAY)).2
  have hday : 0 ≤ t / MS_PER_DAY := by
    unfold MS_PER_DAY
    omega
  unfold getUTCFullYear
  unfold dayFromYear at hyear
  omega

theorem nextLotteryDrawAt_eq {hours : List (Fin 24)} {minutes nowMs : Int} {t offset : Nat}
    (hoffset : minutes * 60 * 1000 = offset) (ht : nowMs + offset = t) (h : (t : Int) ≤ MAX_TIME) :
    nextLotteryDrawAt hours minutes nowMs =
      ((candidates hours ((t : Int) / MS_PER_DAY * MS_PER_DAY)).find? ((t : Int) < ·)).map
        (· - (offset : Int)) := by
  have hyear := getUTCFullYear_nonneg (t := t) (by omega)
  have hlow : -MAX_TIME ≤ (t : Int) := by
    unfold MAX_TIME
    omega
  have hclip : timeClip t = some (t : Int) := if_pos ⟨hlow, h⟩
  unfold nextLotteryDrawAt
  simp only [hoffset, ht, hclip, Option.bind_eq_bind, Option.bind_some,
    dateUTC_eq hlow h (by omega)]
  generalize List.find? _ _ = found
  cases found with
  | none => rfl
  | some => rfl

/-- At the hours and the offset of the configuration it is the draw that the sale window is
computed for. -/
theorem nextLotteryDrawAt_config {nowMs : Nat}
    (h : (nowMs + Shared.LOTTERY.DRAW_TZ_OFFSET_MINUTES * 60 * 1000 : Nat) ≤ MAX_TIME) :
    nextLotteryDrawAt [12] Shared.LOTTERY.DRAW_TZ_OFFSET_MINUTES nowMs =
      (Shared.nextLotteryDrawAt nowMs).map Int.ofNat := by
  have hsort : Shared.LOTTERY.DRAW_HOURS_LOCAL.mergeSort (· ≤ ·) = [12] := by
    simp [Shared.LOTTERY.DRAW_HOURS_LOCAL]
  have hhour : MS_PER_HOUR = (Shared.MS_PER_HOUR : Nat) := by decide
  have hday : MS_PER_DAY = (24 * Shared.MS_PER_HOUR : Nat) := by decide
  unfold Shared.nextLotteryDrawAt
  dsimp only
  rw [hsort]
  generalize Shared.MS_PER_HOUR = hour at hhour hday ⊢
  generalize Shared.LOTTERY.DRAW_TZ_OFFSET_MINUTES = minutes at h ⊢
  have hcast : (minutes : Int) * 60 * 1000 = (minutes * 60 * 1000 : Nat) := by
    rw [Int.natCast_mul, Int.natCast_mul]
    rfl
  rw [nextLotteryDrawAt_eq hcast (Int.natCast_add nowMs _).symm h, start_cast hday,
    slots_cast _ hhour, find_cast, Option.map_map, Option.map_map]
  refine Option.map_congr fun c hc => ?_
  have hlater : nowMs + minutes * 60 * 1000 < c := by simpa using List.find?_some hc
  exact (Int.natCast_sub (by omega)).symm

namespace Sample

/-- New Year's Eve of 1999, on a draw at UTC+3: the next is on New Year's Day. -/
theorem nextLotteryDrawAt_next_year :
    ∃ drawAt, nextLotteryDrawAt [20, 12] 180 946659600000 = some drawAt ∧
      NextDraw [20, 12] 180 946659600000 drawAt :=
  nextLotteryDrawAt_next (by decide) (by decide) (by decide) (by decide)

example : nextLotteryDrawAt [20, 12] 180 946659600000 = some 946717200000 := by decide

/-- Noon of the year 50: the draw is in 1950. There is none beyond the times of a
`Date`. -/
theorem nextLotteryDrawAt_far :
    nextLotteryDrawAt [12] 0 (-60589252800000) = some (-631108800000) ∧
    ¬ (-631108800000 : Int) ≤ -60589252800000 + 24 * MS_PER_HOUR ∧
    nextLotteryDrawAt [12] 0 (MAX_TIME + 1) = none := by
  decide

end Sample

end Scadium.Games.Lottery.Schedule
