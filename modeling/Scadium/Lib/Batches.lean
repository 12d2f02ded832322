/-
Scadium.Lib.Batches — a queue served from its front, a batch at a time.

From one serving to the next, members leave the queue and new ones join at
its end (`Evolves`); no one moves ahead of another. A member that stays
blocked keeps its place at each serving. So a waiting member is served at
some time exactly if fewer than a batch of those ahead of it stay blocked
(`served_iff`).
-/
import Mathlib.Data.List.Nodup
import Mathlib.Data.List.TakeWhile
import Mathlib.Order.Nat

namespace Scadium.Lib.Batches

variable {α : Type} [DecidableEq α] {q q' q'' : List α} {x b : α} {k : Nat}

/-- Who is ahead of `x`. -/
def ahead (x : α) (q : List α) : List α := q.takeWhile (· ≠ x)

/-- Some members are gone, and others have joined. -/
def Evolves (q q' : List α) : Prop :=
  ∃ (keep : α → Bool) (new : List α), q' = q.filter keep ++ new ∧ ∀ a ∈ new, a ∉ q

section Ahead

theorem mem_of_ahead (h : b ∈ ahead x q) : b ∈ q := (List.takeWhile_sublist _).subset h

@[simp] theorem ahead_cons_self : ahead x (x :: q) = [] := by simp [ahead]

theorem ahead_cons_ne {a : α} (h : a ≠ x) : ahead x (a :: q) = a :: ahead x q := by
  simp [ahead, h]

theorem ahead_append (h : x ∈ q) (r : List α) : ahead x (q ++ r) = ahead x q := by
  induction q with
  | nil => cases h
  | cons a q ih =>
    by_cases hax : a = x
    · simp [hax]
    · have hq := (List.mem_cons.mp h).resolve_left fun heq => hax heq.symm
      simp [ahead_cons_ne hax, ih hq]

theorem ahead_filter {keep : α → Bool} (hx : keep x = true) :
    ahead x (q.filter keep) = (ahead x q).filter keep := by
  induction q with
  | nil => rfl
  | cons a q ih =>
    by_cases hax : a = x
    · subst hax
      simp [hx]
    · cases ha : keep a with
      | true | false => simp [ha, ahead_cons_ne hax, ih]

/-- A member is in the batch if fewer are ahead of it. -/
theorem mem_take_iff (hx : x ∈ q) : x ∈ q.take k ↔ (ahead x q).length < k := by
  induction q generalizing k with
  | nil => cases hx
  | cons a q ih =>
    cases k with
    | zero => simp
    | succ =>
      by_cases hax : a = x
      · simp [hax]
      · have hq := (List.mem_cons.mp hx).resolve_left fun heq => hax heq.symm
        have hne : x ≠ a := fun heq => hax heq.symm
        simp [ahead_cons_ne hax, hne, ih hq]

/-- The batch is of those ahead, if there are enough of them. -/
theorem take_eq_take_ahead (h : k ≤ (ahead x q).length) : q.take k = (ahead x q).take k := by
  induction q generalizing k with
  | nil => rfl
  | cons a q ih =>
    by_cases hax : a = x
    · subst hax
      simp only [ahead_cons_self, List.length_nil, Nat.le_zero] at h
      simp [h]
    · rw [ahead_cons_ne hax] at h ⊢
      cases k with
      | zero => rfl
      | succ => simp [ih (Nat.le_of_succ_le_succ h)]

end Ahead

/-! ## From one serving to the next -/

section Evolving

/-- Of two members that stay, the first is still ahead. -/
theorem Evolves.ahead_eq (h : Evolves q q') (hx : x ∈ q) (hx' : x ∈ q') :
    ∃ keep : α → Bool, ahead x q' = (ahead x q).filter keep ∧ ∀ b ∈ q, b ∈ q' → keep b = true := by
  obtain ⟨keep, new, rfl, hnew⟩ := h
  have hkeep : ∀ b ∈ q, b ∈ q.filter keep ++ new → keep b = true := by
    intro b hb hb'
    rcases List.mem_append.mp hb' with hmem | hmem
    · exact (List.mem_filter.mp hmem).2
    · exact absurd hb (hnew b hmem)
  have hxk : keep x = true := hkeep x hx hx'
  refine ⟨keep, ?_, hkeep⟩
  rw [ahead_append (List.mem_filter.mpr ⟨hx, hxk⟩), ahead_filter hxk]

end Evolving

/-! ## Servings -/

section Servings

variable {queue : Nat → List α} {blocked : α → Bool}

/-- Those that stay blocked stay ahead. -/
theorem blocked_ahead (hevolves : ∀ n, Evolves (queue n) (queue (n + 1)))
    (hblocked : ∀ b ∈ ahead x (queue 0), blocked b = true → ∀ n, b ∈ queue n) {n : Nat}
    (hx : ∀ m ≤ n, x ∈ queue m) : (ahead x (queue n)).Sublist (ahead x (queue 0)) ∧
      (ahead x (queue n)).countP blocked = (ahead x (queue 0)).countP blocked := by
  induction n with
  | zero => exact ⟨List.Sublist.refl _, rfl⟩
  | succ n ih =>
    obtain ⟨hsub, hcount⟩ := ih fun m hm => hx m (Nat.le_succ_of_le hm)
    obtain ⟨_, hahead, hkeep⟩ := (hevolves n).ahead_eq (hx n (Nat.le_succ n)) (hx (n + 1) le_rfl)
    refine ⟨?_, ?_⟩
    · rw [hahead]
      exact List.filter_sublist.trans hsub
    · rw [hahead, List.countP_filter, ← hcount]
      refine List.countP_congr fun b hb => ?_
      have hb₀ : b ∈ ahead x (queue 0) := hsub.subset hb
      constructor
      · intro h
        exact (Bool.and_eq_true_iff.mp h).1
      · intro h
        have hstays := hkeep b (mem_of_ahead hb) (hblocked b hb₀ h (n + 1))
        simp [h, hstays]

/-- Where fewer than a batch stay blocked, and the others leave when they are
served, fewer and fewer are ahead of one that waits. -/
theorem ahead_decreases (hevolves : ∀ n, Evolves (queue n) (queue (n + 1)))
    (hblocked : ∀ b ∈ ahead x (queue 0), blocked b = true → ∀ n, b ∈ queue n)
    (hcleared : ∀ b ∈ ahead x (queue 0), blocked b = false → ∀ n, b ∈ (queue n).take k →
      b ∉ queue (n + 1))
    (hfew : (ahead x (queue 0)).countP blocked < k) (hx : ∀ n, x ∈ queue n)
    (hwaits : ∀ n, x ∉ (queue n).take k) (n : Nat) :
    (ahead x (queue (n + 1))).length < (ahead x (queue n)).length := by
  obtain ⟨hsub, _⟩ := blocked_ahead hevolves hblocked (n := n) fun m _ => hx m
  have hlong : k ≤ (ahead x (queue n)).length := by
    have hnot := hwaits n
    rw [mem_take_iff (hx n)] at hnot
    omega
  -- one of the batch is not blocked
  obtain ⟨b, hb, hclear⟩ : ∃ b ∈ (ahead x (queue n)).take k, blocked b = false := by
    by_contra hall
    have hfull : ((ahead x (queue n)).take k).countP blocked = k := by
      rw [List.countP_eq_length.mpr fun b hb => ?_, List.length_take, Nat.min_eq_left hlong]
      cases h : blocked b with
      | true => rfl
      | false => exact absurd ⟨b, hb, h⟩ hall
    have hle := (List.take_sublist k (ahead x (queue n))).countP_le (p := blocked)
    omega
  have hserved : b ∈ (queue n).take k := by
    rw [take_eq_take_ahead hlong]
    exact hb
  have hbn : b ∈ ahead x (queue n) := List.mem_of_mem_take hb
  have hgone : b ∉ queue (n + 1) := hcleared b (hsub.subset hbn) hclear n hserved
  obtain ⟨_, hahead, -⟩ := (hevolves n).ahead_eq (hx n) (hx (n + 1))
  have hle : (ahead x (queue (n + 1))).Sublist (ahead x (queue n)) := by
    rw [hahead]
    exact List.filter_sublist
  refine Nat.lt_of_le_of_ne hle.length_le fun heq => hgone ?_
  rw [← hle.eq_of_length heq] at hbn
  exact mem_of_ahead hbn

/-- A member that waits until it is served is served at some time exactly if
fewer than a batch ahead of it stay blocked. -/
theorem served_iff (hevolves : ∀ n, Evolves (queue n) (queue (n + 1)))
    (hx : ∀ n, (∀ m < n, x ∉ (queue m).take k) → x ∈ queue n)
    (hblocked : ∀ b ∈ ahead x (queue 0), blocked b = true → ∀ n, b ∈ queue n)
    (hcleared : ∀ b ∈ ahead x (queue 0), blocked b = false → ∀ n, b ∈ (queue n).take k →
      b ∉ queue (n + 1)) :
    (∃ n, x ∈ (queue n).take k) ↔ (ahead x (queue 0)).countP blocked < k := by
  constructor
  · rintro ⟨n, hn⟩
    -- the first time it is served
    induction n using Nat.strong_induction_on with
    | _ n ih =>
      by_cases hearlier : ∃ m < n, x ∈ (queue m).take k
      · obtain ⟨m, hm, hserved⟩ := hearlier
        exact ih m hm hserved
      · have hfirst : ∀ m < n, x ∉ (queue m).take k := fun m hm h => hearlier ⟨m, hm, h⟩
        have hstays : ∀ m ≤ n, x ∈ queue m := fun m hm =>
          hx m fun j hj => hfirst j (Nat.lt_of_lt_of_le hj hm)
        obtain ⟨-, _⟩ := blocked_ahead hevolves hblocked hstays
        rw [mem_take_iff (hstays n le_rfl)] at hn
        have hle := (ahead x (queue n)).countP_le_length (p := blocked)
        omega
  · intro hfew
    by_contra hnever
    have hwaits : ∀ n, x ∉ (queue n).take k := fun n h => hnever ⟨n, h⟩
    have hstays : ∀ n, x ∈ queue n := fun n => hx n fun m _ => hwaits m
    have hdecreases := ahead_decreases hevolves hblocked hcleared hfew hstays hwaits
    have hbound : ∀ n, n + (ahead x (queue n)).length ≤ (ahead x (queue 0)).length := by
      intro n
      induction n with
      | zero => omega
      | succ n =>
        have hlt := hdecreases n
        omega
    have hlast := hbound ((ahead x (queue 0)).length + 1)
    omega

end Servings

end Scadium.Lib.Batches
