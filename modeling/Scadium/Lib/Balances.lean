/-
Scadium.Lib.Balances — what each account holds of one asset.

Finitely many accounts hold anything: a balance sheet is the list of its
entries, and an account without an entry holds 0. `credit`, `debit` and
`move` change one or two accounts; each comes with what it does to every
balance and to the total.

`Moves allowed b b'` says that `b'` is reached from `b` by moves that the
source can pay, each between two accounts that `allowed` relates. So no such
chain changes the total, nor the sum over accounts it stays within, and an
account it does not name keeps its balance.
-/
import Mathlib.Algebra.BigOperators.Group.List.Basic
import Mathlib.Data.List.Perm.Basic
import Scadium.Lib.GroupBy
import Scadium.Lib.Weights

namespace Scadium.Lib

variable {κ : Type} [DecidableEq κ]

/-- A balance sheet. -/
structure Balances (κ : Type) where
  entries : List (κ × Nat)

namespace Balances

/-- Nobody holds anything. -/
def empty : Balances κ := ⟨[]⟩

/-- The first entry of an account counts. -/
def get (b : Balances κ) (k : κ) : Nat := lookup b.entries
where
  lookup : List (κ × Nat) → Nat
    | [] => 0
    | (j, n) :: rest => if j = k then n else lookup rest

def set (b : Balances κ) (k : κ) (n : Nat) : Balances κ :=
  ⟨insertWith (fun _ => n) k b.entries⟩

/-- All of the asset. -/
def total (b : Balances κ) : Nat := weight Prod.snd b.entries

def credit (b : Balances κ) (k : κ) (n : Nat) : Balances κ := b.set k (b.get k + n)

def debit (b : Balances κ) (k : κ) (n : Nat) : Balances κ := b.set k (b.get k - n)

/-- From one account to another. -/
def move (b : Balances κ) (src dst : κ) (n : Nat) : Balances κ := (b.debit src n).credit dst n

variable (b : Balances κ) {k j src dst : κ} {n : Nat}

/-! ## One account -/

theorem lookup_insertWith_self (l : List (κ × Nat)) :
    get.lookup k (insertWith (fun _ => n) k l) = n := by
  induction l with
  | nil => simp [insertWith, get.lookup]
  | cons p l ih =>
    obtain ⟨i, m⟩ := p
    by_cases h : i = k
    · simp [insertWith, get.lookup, h]
    · simp [insertWith, get.lookup, h, ih]

theorem lookup_insertWith_ne (l : List (κ × Nat)) (h : j ≠ k) :
    get.lookup j (insertWith (fun _ => n) k l) = get.lookup j l := by
  induction l with
  | nil => simp [insertWith, get.lookup, h.symm]
  | cons p l ih =>
    obtain ⟨i, m⟩ := p
    by_cases hk : i = k
    · subst hk
      simp [insertWith, get.lookup, h.symm]
    · simp [insertWith, get.lookup, hk, ih]

@[simp] theorem get_set_self : (b.set k n).get k = n := lookup_insertWith_self b.entries

theorem get_set_ne (h : j ≠ k) : (b.set k n).get j = b.get j := lookup_insertWith_ne b.entries h

theorem weight_insertWith (l : List (κ × Nat)) :
    weight Prod.snd (insertWith (fun _ => n) k l) + get.lookup k l = weight Prod.snd l + n := by
  induction l with
  | nil => simp [insertWith, get.lookup]
  | cons p =>
    obtain ⟨i, m⟩ := p
    by_cases h : i = k
    · simp only [insertWith, get.lookup, h, if_true, weight_cons]
      omega
    · simp only [insertWith, get.lookup, h, if_false, weight_cons]
      omega

theorem total_set : (b.set k n).total + b.get k = b.total + n := weight_insertWith b.entries

/-- No account holds more than there is. -/
theorem get_le_total (k : κ) : b.get k ≤ b.total := by
  have hset := b.total_set (k := k) (n := 0)
  omega

/-- Two accounts together hold no more than there is. -/
theorem get_add_get_le_total (h : j ≠ k) : b.get j + b.get k ≤ b.total := by
  have hset := b.total_set (k := k) (n := 0)
  have hj := (b.set k 0).get_le_total j
  rw [b.get_set_ne h] at hj
  omega

/-! ## Credits, debits and moves -/

@[simp] theorem get_credit_self : (b.credit k n).get k = b.get k + n := b.get_set_self

theorem get_credit_ne (h : j ≠ k) : (b.credit k n).get j = b.get j := b.get_set_ne h

@[simp] theorem total_credit : (b.credit k n).total = b.total + n := by
  have hset := b.total_set (k := k) (n := b.get k + n)
  rw [credit]
  omega

@[simp] theorem get_debit_self : (b.debit k n).get k = b.get k - n := b.get_set_self

theorem get_debit_ne (h : j ≠ k) : (b.debit k n).get j = b.get j := b.get_set_ne h

theorem total_debit (h : n ≤ b.get k) : (b.debit k n).total + n = b.total := by
  have hset := b.total_set (k := k) (n := b.get k - n)
  rw [debit]
  omega

theorem total_move (h : n ≤ b.get src) : (b.move src dst n).total = b.total := by
  rw [move, total_credit, b.total_debit h]

theorem get_move_src (h : src ≠ dst) : (b.move src dst n).get src = b.get src - n := by
  rw [move, get_credit_ne _ h, get_debit_self]

theorem get_move_dst (h : src ≠ dst) : (b.move src dst n).get dst = b.get dst + n := by
  rw [move, get_credit_self, get_debit_ne _ h.symm]

theorem get_move_other (hs : j ≠ src) (hd : j ≠ dst) : (b.move src dst n).get j = b.get j := by
  rw [move, get_credit_ne _ hd, get_debit_ne _ hs]

/-- What the source gives and the destination gets, which may be one account. -/
theorem get_move (hn : n ≤ b.get src) : (b.move src dst n).get k + (if src = k then n else 0) =
    b.get k + if dst = k then n else 0 := by
  by_cases hd : dst = k
  · subst hd
    by_cases hs : src = dst
    · subst hs
      simp [move]
      omega
    · simp [b.get_move_dst hs, hs]
  · by_cases hs : src = k
    · subst hs
      simp [b.get_move_src (Ne.symm hd), hd, Nat.sub_add_cancel hn]
    · simp [b.get_move_other (Ne.symm hs) (Ne.symm hd), hs, hd]

theorem get_move_zero (j : κ) : (b.move src dst 0).get j = b.get j := by
  have hcredit (c : Balances κ) (k : κ) : (c.credit k 0).get j = c.get j := by
    by_cases h : j = k
    · subst h
      simp
    · exact c.get_credit_ne h
  have hdebit (c : Balances κ) (k : κ) : (c.debit k 0).get j = c.get j := by
    by_cases h : j = k
    · subst h
      simp
    · exact c.get_debit_ne h
  rw [move, hcredit, hdebit]

/-- Only the source loses. -/
theorem get_le_move (h : src ≠ j) : b.get j ≤ (b.move src dst n).get j := by
  by_cases hd : j = dst
  · subst hd
    rw [b.get_move_dst h]
    omega
  · rw [b.get_move_other h.symm hd]

/-- What one of the two loses, the other gains. -/
theorem get_move_add (h : src ≠ dst) (hn : n ≤ b.get src) :
    (b.move src dst n).get src + (b.move src dst n).get dst = b.get src + b.get dst := by
  rw [b.get_move_src h, b.get_move_dst h]
  omega

theorem get_move_add' (h : src ≠ dst) (hn : n ≤ b.get src) :
    (b.move src dst n).get dst + (b.move src dst n).get src = b.get dst + b.get src := by
  rw [Nat.add_comm, b.get_move_add h hn, Nat.add_comm]

end Balances

/-! ## Chains of moves -/

variable {allowed allowed' : κ → κ → Prop} {b b' b'' : Balances κ} {src dst k : κ} {n : Nat}

inductive Moves (allowed : κ → κ → Prop) : Balances κ → Balances κ → Prop where
  | refl (b : Balances κ) : Moves allowed b b
  | move {b b' : Balances κ} {src dst : κ} {n : Nat} (hallowed : allowed src dst)
      (hne : src ≠ dst) (hn : n ≤ b.get src) (hrest : Moves allowed (b.move src dst n) b') :
      Moves allowed b b'

theorem Moves.single (hallowed : allowed src dst) (hne : src ≠ dst) (hn : n ≤ b.get src) :
    Moves allowed b (b.move src dst n) :=
  .move hallowed hne hn (.refl _)

theorem Moves.trans (h : Moves allowed b b') (h' : Moves allowed b' b'') :
    Moves allowed b b'' := by
  induction h with
  | refl => exact h'
  | move hallowed hne hn _ ih => exact .move hallowed hne hn (ih h')

theorem Moves.mono (h : Moves allowed b b')
    (himp : ∀ src dst, allowed src dst → allowed' src dst) : Moves allowed' b b' := by
  induction h with
  | refl b => exact .refl b
  | move hallowed hne hn _ ih => exact .move (himp _ _ hallowed) hne hn ih

theorem Moves.total (h : Moves allowed b b') : b'.total = b.total := by
  induction h with
  | refl => rfl
  | move _ _ hn _ ih => rw [ih, Balances.total_move _ hn]

/-- An account that no move names. -/
theorem Moves.get_eq (h : Moves allowed b b')
    (hk : ∀ src dst, allowed src dst → k ≠ src ∧ k ≠ dst) : b'.get k = b.get k := by
  induction h with
  | refl => rfl
  | move hallowed _ _ _ ih =>
    obtain ⟨hsrc, hdst⟩ := hk _ _ hallowed
    rw [ih, Balances.get_move_other _ hsrc hdst]

/-- An account that no move takes from. -/
theorem Moves.get_le (h : Moves allowed b b') (hk : ∀ src dst, allowed src dst → src ≠ k) :
    b.get k ≤ b'.get k := by
  induction h with
  | refl => exact le_refl _
  | move hallowed _ _ _ ih => exact le_trans (Balances.get_le_move _ (hk _ _ hallowed)) ih

/-- Only the destination gains. -/
theorem Balances.get_move_le (b : Balances κ) (hne : src ≠ dst) (h : dst ≠ k) :
    (b.move src dst n).get k ≤ b.get k := by
  by_cases hs : k = src
  · subst hs
    rw [b.get_move_src hne]
    omega
  · rw [b.get_move_other hs h.symm]

/-- An account that no move gives to. -/
theorem Moves.get_ge (h : Moves allowed b b') (hk : ∀ src dst, allowed src dst → dst ≠ k) :
    b'.get k ≤ b.get k := by
  induction h with
  | refl => exact le_refl _
  | move hallowed hne _ _ ih => exact le_trans ih (Balances.get_move_le _ hne (hk _ _ hallowed))

/-- A move between two accounts of a list leaves its sum. -/
theorem sum_move {l : List κ} (hl : l.Nodup) (hsrc : src ∈ l) (hdst : dst ∈ l) (hne : src ≠ dst)
    (hn : n ≤ b.get src) : (l.map (b.move src dst n).get).sum = (l.map b.get).sum := by
  have hdst' : dst ∈ l.erase src := (List.mem_erase_of_ne hne.symm).mpr hdst
  have hperm : l.Perm (src :: dst :: (l.erase src).erase dst) :=
    (List.perm_cons_erase hsrc).trans ((List.perm_cons_erase hdst').cons src)
  have hrest : ((l.erase src).erase dst).map (b.move src dst n).get =
      ((l.erase src).erase dst).map b.get := by
    refine List.map_congr_left fun k hk => b.get_move_other ?_ ?_
    · rintro rfl
      exact hl.not_mem_erase (List.mem_of_mem_erase hk)
    · rintro rfl
      exact (hl.erase src).not_mem_erase hk
  rw [(hperm.map _).sum_eq, (hperm.map b.get).sum_eq]
  simp only [List.map_cons, List.sum_cons, hrest]
  have hpair := b.get_move_add hne hn
  omega

/-- A chain that stays within a list leaves its sum. -/
theorem Moves.sum_eq {l : List κ} (hl : l.Nodup) (h : Moves allowed b b')
    (hwithin : ∀ src dst, allowed src dst → src ∈ l ∧ dst ∈ l) :
    (l.map b'.get).sum = (l.map b.get).sum := by
  induction h with
  | refl => rfl
  | move hallowed hne hn _ ih =>
    obtain ⟨hsrc, hdst⟩ := hwithin _ _ hallowed
    rw [ih, sum_move hl hsrc hdst hne hn]

end Scadium.Lib
