/-
Scadium.Lib.Table — a finite map, as the list of its entries.

No key occurs twice. `set` replaces the value of a key or appends a new
entry, `erase` takes the entry of a key out. `sum g` is what the values
weigh together; what a change does to it is said without subtraction, by
moving the old value of the key to the other side.
-/
import Scadium.Lib.GroupBy
import Scadium.Lib.Weights

namespace Scadium.Lib

variable {κ α : Type} [DecidableEq κ]

structure Table (κ α : Type) where
  entries : List (κ × α)
  nodup : (entries.map Prod.fst).Nodup

namespace Table

def empty : Table κ α := ⟨[], List.nodup_nil⟩

def get (t : Table κ α) (k : κ) : Option α := lookup t.entries
where
  lookup : List (κ × α) → Option α
    | [] => none
    | (j, a) :: rest => if j = k then some a else lookup rest

def set (t : Table κ α) (k : κ) (a : α) : Table κ α :=
  ⟨insertWith (fun _ => a) k t.entries, nodup_keys_insertWith t.nodup⟩

def erase (t : Table κ α) (k : κ) : Table κ α where
  entries := t.entries.filter fun p => p.1 != k
  nodup := t.nodup.sublist (List.filter_sublist.map Prod.fst)

/-- The entries that match. -/
def filter (P : κ → α → Bool) (t : Table κ α) : Table κ α where
  entries := t.entries.filter fun p => P p.1 p.2
  nodup := t.nodup.sublist (List.filter_sublist.map Prod.fst)

/-- Every value is replaced. -/
def map (f : κ → α → α) (t : Table κ α) : Table κ α where
  entries := t.entries.map fun p => (p.1, f p.1 p.2)
  nodup := by
    rw [List.map_map]
    exact t.nodup

/-- What the values weigh together. -/
def sum (g : α → Nat) (t : Table κ α) : Nat := weight (fun p => g p.2) t.entries

@[simp] theorem get_empty (k : κ) : (empty : Table κ α).get k = none := rfl

omit [DecidableEq κ] in
@[simp] theorem sum_empty (g : α → Nat) : (empty : Table κ α).sum g = 0 := rfl

variable (t : Table κ α) {k j : κ} {a b : α} {g : α → Nat}

/-! ## Entries -/

theorem lookup_eq_some : ∀ {l : List (κ × α)}, (l.map Prod.fst).Nodup →
    (get.lookup k l = some a ↔ (k, a) ∈ l)
  | [], _ => by simp [get.lookup]
  | (j, c) :: l, h => by
      obtain ⟨hj, hl⟩ := List.nodup_cons.mp h
      by_cases hjk : j = k
      · subst hjk
        have hout : (j, a) ∉ l := by
          intro hmem
          exact hj (List.mem_map.mpr ⟨(j, a), hmem, rfl⟩)
        simp [get.lookup, hout, eq_comm]
      · have hne : (k, a) ≠ (j, c) := by
          intro heq
          exact hjk (Prod.mk.inj heq).1.symm
        simp only [get.lookup, hjk, if_false, List.mem_cons, hne, false_or]
        exact lookup_eq_some hl

theorem get_eq_some : t.get k = some a ↔ (k, a) ∈ t.entries := lookup_eq_some t.nodup

theorem lookup_insertWith_self (l : List (κ × α)) :
    get.lookup k (insertWith (fun _ => a) k l) = some a := by
  induction l with
  | nil => simp [insertWith, get.lookup]
  | cons p l ih =>
    obtain ⟨i, c⟩ := p
    by_cases h : i = k
    · simp [insertWith, get.lookup, h]
    · simp [insertWith, get.lookup, h, ih]

theorem lookup_insertWith_ne (l : List (κ × α)) (h : j ≠ k) :
    get.lookup j (insertWith (fun _ => a) k l) = get.lookup j l := by
  induction l with
  | nil => simp [insertWith, get.lookup, h.symm]
  | cons p l ih =>
    obtain ⟨i, c⟩ := p
    by_cases hk : i = k
    · subst hk
      simp [insertWith, get.lookup, h.symm]
    · simp [insertWith, get.lookup, hk, ih]

@[simp] theorem get_set_self : (t.set k a).get k = some a := lookup_insertWith_self t.entries

theorem get_set_ne (h : j ≠ k) : (t.set k a).get j = t.get j := lookup_insertWith_ne t.entries h

theorem get_set : (t.set k a).get j = if j = k then some a else t.get j := by
  by_cases h : j = k
  · simp [h]
  · simp [h, t.get_set_ne h]

/-- What an entry that is written says of the keys. -/
theorem any_set {flag : α → Bool} (ha : flag a = true) (j : κ) :
    ((t.set k a).get j).any flag = ((t.get j).any flag || decide (k = j)) := by
  rw [get_set]
  by_cases h : j = k
  · simp [h, ha]
  · simp [h, Ne.symm h]

@[simp] theorem get_erase_self : (t.erase k).get k = none := by
  cases h : (t.erase k).get k with
  | none => rfl
  | some =>
    have hmem := (t.erase k).get_eq_some.mp h
    simp [erase] at hmem

theorem get_erase_ne (h : j ≠ k) : (t.erase k).get j = t.get j := by
  cases hj : t.get j with
  | some =>
    rw [get_eq_some] at hj ⊢
    exact List.mem_filter.mpr ⟨hj, by simpa using h⟩
  | none =>
    cases he : (t.erase k).get j with
    | none => rfl
    | some =>
      have hmem := (List.mem_filter.mp ((t.erase k).get_eq_some.mp he)).1
      rw [t.get_eq_some.mpr hmem] at hj
      cases hj

theorem get_of_erase (h : (t.erase k).get j = some a) : t.get j = some a := by
  by_cases hj : j = k
  · subst hj
    rw [get_erase_self] at h
    cases h
  · rwa [t.get_erase_ne hj] at h

/-- What holds of the new value and of every other one holds of every value. -/
theorem forall_set_of_ne {P : κ → α → Prop} (hold : ∀ j b, j ≠ k → t.get j = some b → P j b)
    (ha : P k a) : ∀ j b, (t.set k a).get j = some b → P j b := by
  intro j b hb
  by_cases h : j = k
  · subst h
    rw [get_set_self] at hb
    cases hb
    exact ha
  · rw [t.get_set_ne h] at hb
    exact hold j b h hb

theorem forall_set {P : κ → α → Prop} (hold : ∀ j b, t.get j = some b → P j b) (ha : P k a) :
    ∀ j b, (t.set k a).get j = some b → P j b :=
  t.forall_set_of_ne (fun j b _ => hold j b) ha

theorem forall_erase {P : κ → α → Prop} (hold : ∀ j b, t.get j = some b → P j b) :
    ∀ j b, (t.erase k).get j = some b → P j b := by
  intro j b hb
  by_cases h : j = k
  · subst h
    rw [get_erase_self] at hb
    cases hb
  · rw [t.get_erase_ne h] at hb
    exact hold j b hb

theorem get_map (f : κ → α → α) : (t.map f).get k = (t.get k).map (f k) := by
  cases h : t.get k with
  | some =>
    rw [get_eq_some] at h
    exact (get_eq_some _).mpr (List.mem_map_of_mem (f := fun p : κ × α => (p.1, f p.1 p.2)) h)
  | none =>
    cases hm : (t.map f).get k with
    | none => rfl
    | some =>
      obtain ⟨⟨j, a⟩, hmem, heq⟩ := List.mem_map.mp ((get_eq_some _).mp hm)
      cases heq
      rw [t.get_eq_some.mpr hmem] at h
      cases h

/-! ## Updates -/

section Updates

variable {β : Type} (key : β → κ) (f : β → α → α)

/-- The entry of each item is updated in turn; every item needs one. -/
def updateAll (t : Table κ α) : List β → Option (Table κ α)
  | [] => some t
  | b :: bs => (t.get (key b)).bind fun a => updateAll (t.set (key b) (f b a)) bs

theorem updateAll_isSome {t : Table κ α} {bs : List β} (h : ∀ b ∈ bs, (t.get (key b)).isSome) :
    (t.updateAll key f bs).isSome := by
  induction bs generalizing t with
  | nil => rfl
  | cons b bs ih =>
    obtain ⟨a, ha⟩ := Option.isSome_iff_exists.mp (h b (List.mem_cons_self ..))
    rw [updateAll, ha]
    refine ih ?_
    intro c hc
    by_cases hkey : key c = key b
    · simp [hkey]
    · rw [t.get_set_ne hkey]
      exact h c (List.mem_cons_of_mem _ hc)

/-- What the items of a key make of its entry. -/
theorem get_updateAll {t t' : Table κ α} {bs : List β} (h : t.updateAll key f bs = some t')
    (k : κ) : t'.get k =
      (t.get k).map fun a => (bs.filter (key · = k)).foldl (fun a b => f b a) a := by
  induction bs generalizing t with
  | nil =>
    cases h
    simp
  | cons b bs ih =>
    rw [updateAll, Option.bind_eq_some_iff] at h
    obtain ⟨a, ha, hrest⟩ := h
    rw [ih hrest]
    by_cases hkey : key b = k
    · subst hkey
      simp [ha]
    · rw [t.get_set_ne (Ne.symm hkey)]
      simp [hkey]

end Updates

/-! ## Searches -/

/-- The first entry that matches. -/
def find (P : κ → α → Bool) : Option (κ × α) := t.entries.find? fun p => P p.1 p.2

theorem find_some {P : κ → α → Bool} (h : t.find P = some (k, a)) :
    t.get k = some a ∧ P k a = true := by
  have hguard := List.find?_some (p := fun p : κ × α => P p.1 p.2) h
  exact ⟨t.get_eq_some.mpr (List.mem_of_find?_eq_some h), hguard⟩

theorem find_none {P : κ → α → Bool} :
    t.find P = none ↔ ∀ k a, t.get k = some a → P k a = false := by
  rw [find, List.find?_eq_none]
  constructor
  · intro h k a hget
    simpa using h (k, a) (t.get_eq_some.mp hget)
  · rintro h ⟨k, a⟩ hmem
    simpa using h k a (t.get_eq_some.mpr hmem)

theorem get_filter {P : κ → α → Bool} :
    (t.filter P).get k = some a ↔ t.get k = some a ∧ P k a = true := by
  simp [get_eq_some, filter, List.mem_filter]

theorem filter_insertWith {P : α → Bool} {k : κ} {b : α} (hb : P b = false) :
    ∀ {l : List (κ × α)}, (∀ a, (k, a) ∈ l → P a = false) →
      ((insertWith (fun _ => b) k l).map Prod.snd).filter P = (l.map Prod.snd).filter P
  | [], _ => by simp [insertWith, hb]
  | (j, a) :: l, h => by
      by_cases hj : j = k
      · subst hj
        simp [insertWith, hb, h a (List.mem_cons_self ..)]
      · simp [insertWith, hj, List.filter_cons,
          filter_insertWith hb fun c hc => h c (List.mem_cons_of_mem _ hc)]

/-- A change between values that do not match. -/
theorem filter_set {P : α → Bool} {k : κ} {b : α} (hb : P b = false)
    (hold : ∀ a, t.get k = some a → P a = false) :
    ((t.set k b).entries.map Prod.snd).filter P = (t.entries.map Prod.snd).filter P :=
  filter_insertWith hb fun a ha => hold a (t.get_eq_some.mpr ha)

/-! ## Sums -/

theorem weight_insertWith (l : List (κ × α)) :
    weight (fun p => g p.2) (insertWith (fun _ => a) k l) + ((get.lookup k l).map g).getD 0 =
      weight (fun p => g p.2) l + g a := by
  induction l with
  | nil => simp [insertWith, get.lookup]
  | cons p =>
    obtain ⟨i, c⟩ := p
    by_cases h : i = k
    · simp only [insertWith, get.lookup, h, if_true, weight_cons, Option.map_some,
        Option.getD_some]
      omega
    · simp only [insertWith, get.lookup, h, if_false, weight_cons]
      omega

theorem sum_set : (t.set k a).sum g + ((t.get k).map g).getD 0 = t.sum g + g a :=
  weight_insertWith t.entries

theorem sum_erase (h : t.get k = some a) : (t.erase k).sum g + g a = t.sum g :=
  weight_deleteKey Prod.fst (fun p => g p.2) t.nodup (t.get_eq_some.mp h)

theorem sum_eq_zero (h : ∀ k a, t.get k = some a → g a = 0) : t.sum g = 0 :=
  weight_eq_zero fun p hp => h p.1 p.2 (t.get_eq_some.mpr hp)

theorem sum_mono {g' : α → Nat} (h : ∀ k a, t.get k = some a → g a ≤ g' a) :
    t.sum g ≤ t.sum g' :=
  weight_mono fun p hp => h p.1 p.2 (t.get_eq_some.mpr hp)

omit [DecidableEq κ] in
theorem sum_map {f : κ → α → α} (h : ∀ k a, g (f k a) = g a) : (t.map f).sum g = t.sum g := by
  simp only [sum, map, weight, List.map_map]
  congr 1
  exact List.map_congr_left fun p _ => h p.1 p.2

/-- One value weighs no more than all. -/
theorem le_sum (h : t.get k = some a) : g a ≤ t.sum g :=
  le_weight (g := fun p : κ × α => g p.2) (t.get_eq_some.mp h)

/-- Nor do two. -/
theorem add_le_sum (hne : j ≠ k) (hj : t.get j = some a) (hk : t.get k = some b) :
    g a + g b ≤ t.sum g := by
  have herase := t.sum_erase (g := g) hk
  have hle : g a ≤ (t.erase k).sum g := (t.erase k).le_sum ((t.get_erase_ne hne).trans hj)
  omega

omit [DecidableEq κ] in
theorem sum_add (g' : α → Nat) : t.sum (fun a => g a + g' a) = t.sum g + t.sum g' :=
  weight_add ..

/-- Values that have rows of their own weigh no more than the rows. -/
theorem weight_le_sum {β : Type*} {l : List β} {f : β → Nat} {key : β → κ}
    (hnodup : (l.map key).Nodup) (h : ∀ b ∈ l, ∃ a, t.get (key b) = some a ∧ f b ≤ g a) :
    weight f l ≤ t.sum g := by
  induction l generalizing t with
  | nil => exact Nat.zero_le _
  | cons b l ih =>
    obtain ⟨hb, hnodup⟩ := List.nodup_cons.mp hnodup
    obtain ⟨a, ha, _⟩ := h b (List.mem_cons_self ..)
    have hrest : weight f l ≤ (t.erase (key b)).sum g := by
      refine ih _ hnodup ?_
      intro c hc
      obtain ⟨a', ha', hle'⟩ := h c (List.mem_cons_of_mem _ hc)
      have hne : key c ≠ key b := fun heq => hb (heq ▸ List.mem_map_of_mem hc)
      exact ⟨a', (t.get_erase_ne hne).trans ha', hle'⟩
    have herase := t.sum_erase (g := g) ha
    rw [weight_cons]
    omega

/-- If only one value weighs anything, all weigh no more than it. -/
theorem sum_le_of_once {n : Nat}
    (honce : ∀ j k a b, t.get j = some a → t.get k = some b → g a ≠ 0 → g b ≠ 0 → j = k)
    (h : ∀ k a, t.get k = some a → g a ≤ n) : t.sum g ≤ n := by
  by_cases hzero : ∀ k a, t.get k = some a → g a = 0
  · rw [t.sum_eq_zero hzero]
    exact Nat.zero_le _
  · simp only [not_forall] at hzero
    obtain ⟨k, a, ha, hne⟩ := hzero
    have herase := t.sum_erase (g := g) ha
    have hrest : (t.erase k).sum g = 0 := by
      refine (t.erase k).sum_eq_zero ?_
      intro j b hb
      by_contra hb0
      have hj := honce j k b a (t.get_of_erase hb) ha hb0 hne
      rw [hj, get_erase_self] at hb
      cases hb
    have hle := h k a ha
    omega

end Table

end Scadium.Lib
