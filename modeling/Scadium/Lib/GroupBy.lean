/-
Scadium.Lib.GroupBy — accumulating a list into a keyed map.

An insertion-ordered map is the list of its entries. `insertWith f k`
replaces the value at `k` by `f` of the old one, or appends a new entry;
`groupBy` folds a list of items into a map that way. The keys of the result
are those of the items, each once.
-/
import Mathlib.Data.List.Induction
import Mathlib.Data.List.Nodup

namespace Scadium.Lib

variable {α β κ : Type*} [DecidableEq κ]

/-- `m.set(k, f(m.get(k)))` -/
def insertWith (f : Option β → β) (k : κ) : List (κ × β) → List (κ × β)
  | [] => [(k, f none)]
  | (k', b) :: m => if k' = k then (k', f (some b)) :: m else (k', b) :: insertWith f k m

/-- One `insertWith` per item. -/
def groupInto (key : α → κ) (step : Option β → α → β) (m : List (κ × β)) : List α → List (κ × β)
  | [] => m
  | a :: as => groupInto key step (insertWith (fun b => step b a) (key a) m) as

/-- The map of all the items. -/
def groupBy (key : α → κ) (step : Option β → α → β) (as : List α) : List (κ × β) :=
  groupInto key step [] as

theorem mem_keys_insertWith {f : Option β → β} {k k' : κ} {m : List (κ × β)} :
    k' ∈ (insertWith f k m).map Prod.fst ↔ k' = k ∨ k' ∈ m.map Prod.fst := by
  induction m with
  | nil => simp [insertWith]
  | cons p m ih =>
    obtain ⟨j, b⟩ := p
    by_cases h : j = k
    · subst h
      simp [insertWith]
    · simp only [insertWith, h, if_false, List.map_cons, List.mem_cons, ih]
      exact or_left_comm

/-- The key has an entry afterwards. -/
theorem exists_mem_insertWith (f : Option β → β) (k : κ) (m : List (κ × β)) :
    ∃ old, (k, f old) ∈ insertWith f k m := by
  induction m with
  | nil => exact ⟨none, by simp [insertWith]⟩
  | cons p m ih =>
    obtain ⟨j, b⟩ := p
    by_cases h : j = k
    · subst h
      exact ⟨some b, by simp [insertWith]⟩
    · obtain ⟨old, hold⟩ := ih
      exact ⟨old, by simp [insertWith, h, hold]⟩

/-- An entry afterwards is an old one, or the one of the key. -/
theorem mem_insertWith {f : Option β → β} {k : κ} {p : κ × β} : ∀ {m : List (κ × β)},
    (m.map Prod.fst).Nodup → p ∈ insertWith f k m →
      p ∈ m ∧ p.1 ≠ k ∨ p.1 = k ∧
        ((∃ b, (k, b) ∈ m ∧ p.2 = f (some b)) ∨ k ∉ m.map Prod.fst ∧ p.2 = f none)
  | [], _, hp => by
      rw [insertWith, List.mem_singleton] at hp
      subst hp
      exact .inr ⟨rfl, .inr ⟨List.not_mem_nil, rfl⟩⟩
  | (j, b) :: m, hnodup, hp => by
      obtain ⟨hj, hm⟩ := List.nodup_cons.mp hnodup
      by_cases hjk : j = k
      · subst hjk
        simp only [insertWith, if_true, List.mem_cons] at hp
        rcases hp with rfl | hp
        · exact .inr ⟨rfl, .inl ⟨b, List.mem_cons_self .., rfl⟩⟩
        · exact .inl ⟨List.mem_cons_of_mem _ hp,
            fun heq => hj (List.mem_map.mpr ⟨p, hp, heq⟩)⟩
      · simp only [insertWith, hjk, if_false, List.mem_cons] at hp
        rcases hp with rfl | hp
        · exact .inl ⟨List.mem_cons_self .., hjk⟩
        · rcases mem_insertWith hm hp with ⟨hp, hne⟩ | ⟨heq, ⟨c, hc, hval⟩ | ⟨hnew, hval⟩⟩
          · exact .inl ⟨List.mem_cons_of_mem _ hp, hne⟩
          · exact .inr ⟨heq, .inl ⟨c, List.mem_cons_of_mem _ hc, hval⟩⟩
          · refine .inr ⟨heq, .inr ⟨fun hmem => ?_, hval⟩⟩
            rcases List.mem_cons.mp hmem with h | h
            · exact hjk h.symm
            · exact hnew h

theorem nodup_keys_insertWith {f : Option β → β} {k : κ} : ∀ {m : List (κ × β)},
    (m.map Prod.fst).Nodup → ((insertWith f k m).map Prod.fst).Nodup
  | [], _ => by simp [insertWith]
  | (j, b) :: m, h => by
      obtain ⟨hj, hm⟩ := List.nodup_cons.mp h
      by_cases hjk : j = k
      · simpa [insertWith, hjk] using h
      · simp only [insertWith, hjk, if_false, List.map_cons]
        refine List.nodup_cons.mpr ⟨fun hmem => ?_, nodup_keys_insertWith hm⟩
        rcases mem_keys_insertWith.mp hmem with heq | hmem
        · exact hjk heq
        · exact hj hmem

theorem mem_keys_groupInto {key : α → κ} {step : Option β → α → β} {k : κ} :
    ∀ {as : List α} {m : List (κ × β)},
      k ∈ (groupInto key step m as).map Prod.fst ↔ k ∈ m.map Prod.fst ∨ ∃ a ∈ as, key a = k
  | [], m => by simp [groupInto]
  | a :: as, m => by
      rw [groupInto, mem_keys_groupInto, mem_keys_insertWith]
      simp only [List.exists_mem_cons_iff, @eq_comm _ (key a) k]
      rw [or_assoc, or_left_comm]

/-- The keys are those of the items. -/
theorem mem_keys_groupBy {key : α → κ} {step : Option β → α → β} {as : List α} {k : κ} :
    k ∈ (groupBy key step as).map Prod.fst ↔ ∃ a ∈ as, key a = k := by
  rw [groupBy, mem_keys_groupInto]
  simp

theorem nodup_keys_groupInto {key : α → κ} {step : Option β → α → β} :
    ∀ {as : List α} {m : List (κ × β)}, (m.map Prod.fst).Nodup →
      ((groupInto key step m as).map Prod.fst).Nodup
  | [], _, h => h
  | a :: as, m, h => by
      rw [groupInto]
      exact nodup_keys_groupInto (nodup_keys_insertWith h)

/-- No key occurs twice. -/
theorem nodup_keys_groupBy (key : α → κ) (step : Option β → α → β) (as : List α) :
    ((groupBy key step as).map Prod.fst).Nodup :=
  nodup_keys_groupInto List.nodup_nil

/-! ## Groups in the order they come up -/

theorem groupInto_append {key : α → κ} {step : Option β → α → β} {bs : List α} :
    ∀ {as : List α} {m : List (κ × β)},
      groupInto key step m (as ++ bs) = groupInto key step (groupInto key step m as) bs
  | [], _ => rfl
  | a :: as, m => by
      rw [List.cons_append, groupInto, groupInto, groupInto_append]

theorem groupBy_concat (key : α → κ) (step : Option β → α → β) (as : List α) (a : α) :
    groupBy key step (as ++ [a]) = insertWith (fun b => step b a) (key a) (groupBy key step as) := by
  rw [groupBy, groupInto_append]
  rfl

/-- A group is what its items make of it, in the order they come up. -/
theorem groupBy_fold (key : α → κ) (step : Option β → α → β) (as : List α) :
    ∀ p ∈ groupBy key step as,
      (as.filter (key · = p.1)).foldl (fun b a => some (step b a)) none = some p.2 := by
  induction as using List.reverseRecOn with
  | nil => simp [groupBy, groupInto]
  | append_singleton as a ih =>
    intro p hp
    rw [groupBy_concat] at hp
    obtain ⟨hold, hne⟩ | ⟨heq, hgroup⟩ := mem_insertWith (nodup_keys_groupBy key step as) hp
    · simpa [Ne.symm hne] using ih p hold
    · rw [List.filter_append, List.foldl_append, heq]
      obtain ⟨b, hb, hval⟩ | ⟨hnew, hval⟩ := hgroup
      · rw [ih _ hb]
        simp [hval]
      · have hnone : as.filter (key · = key a) = [] := by
          simp only [List.filter_eq_nil_iff, decide_eq_true_eq]
          exact fun b hb hkey => hnew (mem_keys_groupBy.mpr ⟨b, hb, hkey⟩)
        simp [hnone, hval]

theorem eraseDups_concat (ks : List κ) (k : κ) :
    (ks ++ [k]).eraseDups = if k ∈ ks then ks.eraseDups else ks.eraseDups ++ [k] := by
  rw [List.eraseDups_append, List.removeAll]
  split
  · rename_i h
    simp [h]
  · rename_i h
    simp [h, List.eraseDups_cons]

theorem nodup_eraseDups (ks : List κ) : ks.eraseDups.Nodup := by
  induction ks using List.reverseRecOn with
  | nil => exact List.nodup_nil
  | append_singleton ks k ih =>
    rw [eraseDups_concat]
    split
    · exact ih
    · rename_i h
      refine List.nodup_append.mpr ⟨ih, List.nodup_singleton k, ?_⟩
      intro a ha b hb heq
      rw [List.mem_singleton.mp hb] at heq
      exact h (heq ▸ List.mem_eraseDups.mp ha)

/-- Keys that have come up already add nothing. -/
theorem eraseDups_append_of_mem {ks ls : List κ} (h : ∀ k ∈ ls, k ∈ ks) :
    (ks ++ ls).eraseDups = ks.eraseDups := by
  have hnone : ls.removeAll ks = [] := by
    simpa [List.removeAll] using h
  rw [List.eraseDups_append, hnone]
  simp

theorem eraseDups_of_nodup {ks : List κ} (h : ks.Nodup) : ks.eraseDups = ks := by
  induction ks using List.reverseRecOn with
  | nil => rfl
  | append_singleton ks k ih =>
    obtain ⟨hks, -, hk⟩ := List.nodup_append.mp h
    have hnew : k ∉ ks := fun hmem => hk k hmem k (List.mem_singleton_self k) rfl
    rw [eraseDups_concat, if_neg hnew, ih hks]

theorem eraseDups_map {ι : Type*} [DecidableEq ι] {f : ι → κ} (hf : Function.Injective f)
    (ks : List ι) : (ks.map f).eraseDups = ks.eraseDups.map f := by
  induction ks using List.reverseRecOn with
  | nil => rfl
  | append_singleton ks k ih =>
    rw [List.map_append, List.map_singleton, eraseDups_concat, eraseDups_concat, ih]
    by_cases h : k ∈ ks
    · rw [if_pos h, if_pos (List.mem_map_of_mem h)]
    · have hnew : f k ∉ ks.map f := fun hmem => h ((List.mem_map_of_injective hf).mp hmem)
      rw [if_neg h, if_neg hnew, List.map_append, List.map_singleton]

theorem insertWith_map_of_mem {f : Option β → β} {g : κ → β} {k : κ} : ∀ {ks : List κ},
    ks.Nodup → k ∈ ks → insertWith f k (ks.map fun j => (j, g j)) =
      ks.map fun j => (j, if j = k then f (some (g j)) else g j)
  | [], _, h => by simp at h
  | j :: ks, hnodup, h => by
      obtain ⟨hj, hks⟩ := List.nodup_cons.mp hnodup
      by_cases hjk : j = k
      · subst hjk
        have hrest : ∀ i ∈ ks, i ≠ j := fun i hi heq => hj (heq ▸ hi)
        simp only [List.map_cons, insertWith, if_true]
        exact congrArg _ (List.map_congr_left fun i hi => by simp [hrest i hi])
      · have hmem : k ∈ ks := (List.mem_cons.mp h).resolve_left fun heq => hjk heq.symm
        simp [insertWith, hjk, insertWith_map_of_mem hks hmem]

theorem insertWith_map_of_notMem {f : Option β → β} {g : κ → β} {k : κ} : ∀ {ks : List κ},
    k ∉ ks → insertWith f k (ks.map fun j => (j, g j)) = ks.map (fun j => (j, g j)) ++ [(k, f none)]
  | [], _ => rfl
  | j :: ks, h => by
      have hjk : j ≠ k := fun heq => h (heq ▸ List.mem_cons_self ..)
      have hrest : k ∉ ks := fun hmem => h (List.mem_cons_of_mem _ hmem)
      simp [insertWith, hjk, insertWith_map_of_notMem hrest]

/-- Items collected by key: the keys in the order they come up, each with
its items in theirs. -/
theorem groupBy_collect (key : α → κ) (f : α → List β) (as : List α) :
    groupBy key (fun old a => old.getD [] ++ f a) as =
      (as.map key).eraseDups.map fun k => (k, (as.filter (key · = k)).flatMap f) := by
  induction as using List.reverseRecOn with
  | nil => rfl
  | append_singleton as a ih =>
    rw [groupBy_concat, ih, List.map_append, List.map_singleton, eraseDups_concat]
    have hgroup : ∀ k, ((as ++ [a]).filter (key · = k)).flatMap f =
        (as.filter (key · = k)).flatMap f ++ if key a = k then f a else [] := by
      intro k
      by_cases h : key a = k
      · simp [h]
      · simp [h]
    simp only [hgroup]
    by_cases hmem : key a ∈ as.map key
    · have hkey : key a ∈ (as.map key).eraseDups := List.mem_eraseDups.mpr hmem
      rw [if_pos hmem, insertWith_map_of_mem (nodup_eraseDups _) hkey]
      refine List.map_congr_left fun k _ => ?_
      by_cases h : k = key a
      · simp [h]
      · simp [h, Ne.symm h]
    · have hkey : key a ∉ (as.map key).eraseDups := fun h => hmem (List.mem_eraseDups.mp h)
      have hnone : as.filter (key · = key a) = [] := by
        simp only [List.filter_eq_nil_iff, decide_eq_true_eq]
        exact fun b hb heq => hmem (heq ▸ List.mem_map_of_mem hb)
      rw [if_neg hmem, insertWith_map_of_notMem hkey, List.map_append, List.map_singleton, hnone]
      congr 1
      · refine List.map_congr_left fun k hk => ?_
        have hne : key a ≠ k := fun heq => hkey (heq ▸ hk)
        simp [hne]
      · simp

end Scadium.Lib
