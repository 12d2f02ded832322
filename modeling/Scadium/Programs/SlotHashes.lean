/-
Scadium.Programs.SlotHashes — the search of the SlotHashes sysvar
(`find_slot_hash`, one text in `scadium_lottery` and in `scadium_rng`).

The data is a count of eight bytes and then entries of forty: a slot and its hash. The
count is what the data claims; how many entries are there is a matter of its length.
Operators that overflow panic, as an index beyond the end does. The search stops at
the first entry that is not complete, so it computes no offset that is much larger
than the data is long.
-/
import Scadium.Programs.Lottery.Reveal

namespace Scadium.Programs.SlotHashes

open Scadium.Lib

/-- A `&[u8]`: no slice is longer than `isize::MAX`. -/
structure Slice where
  bytes : List UInt8
  len_le : bytes.length < 2 ^ 63

inductive Fault where
  | overflow | outOfBounds
  deriving DecidableEq

abbrev Result (α : Type) := Except Fault α

/-! ## The search -/

/-- `a + b`, of `usize` -/
def add (a b : Nat) : Result Nat := if a + b < 2 ^ 64 then .ok (a + b) else .error .overflow

/-- `a * b`, of `usize` -/
def mul (a b : Nat) : Result Nat := if a * b < 2 ^ 64 then .ok (a * b) else .error .overflow

/-- `&data[lo..hi]` -/
def index (data : Slice) (lo hi : Nat) : Result (List UInt8) :=
  if lo ≤ hi ∧ hi ≤ data.bytes.length then .ok (subarray data.bytes lo hi)
  else .error .outOfBounds

/-- `u64::from_le_bytes(bytes.try_into().ok()?)` -/
def u64FromLe (bytes : List UInt8) : Option Nat :=
  if bytes.length = 8 then some (littleEndian bytes) else none

/-- `hash.copy_from_slice(src)`, into 32 zeros -/
def copyHash (src : List UInt8) : Result (Vector UInt8 32) :=
  match copyFromSlice (zeroed 32) 0 32 src with
  | some hash => .ok hash
  | none => .error .outOfBounds

/-- The loop from entry `i`, with `left` entries to go. -/
def search (data : Slice) (target_slot : UInt64) :
    (left i : Nat) → Result (Option (Vector UInt8 32))
  | 0, _ => .ok none
  | left + 1, i => do
      let scaled ← mul i 40
      let off ← add 8 scaled
      let stop ← add off 40
      if data.bytes.length < stop then .ok none
      else do
        let slot_stop ← add off 8
        let slot ← index data off slot_stop
        match u64FromLe slot with
        | none => .ok none
        | some slot =>
            if slot = target_slot.toNat then do
              let src ← index data slot_stop stop
              let hash ← copyHash src
              .ok (some hash)
            else search data target_slot left (i + 1)

def find_slot_hash (data : Slice) (target_slot : UInt64) : Result (Option (Vector UInt8 32)) :=
  if data.bytes.length < 8 then .ok none
  else do
    let bytes ← index data 0 8
    match u64FromLe bytes with
    | none => .ok none
    | some count => search data target_slot count 0

/-! ## The entries -/

/-- How many entries the data claims to have. -/
def claimed (data : Slice) : Nat :=
  if data.bytes.length < 8 then 0 else littleEndian (subarray data.bytes 0 8)

/-- Entry `i` is there to its end. -/
def Complete (data : Slice) (i : Nat) : Prop := 8 + i * 40 + 40 ≤ data.bytes.length

def slotAt (data : Slice) (i : Nat) : Nat :=
  littleEndian (subarray data.bytes (8 + i * 40) (8 + i * 40 + 8))

def hashAt (data : Slice) (i : Nat) : List UInt8 :=
  subarray data.bytes (8 + i * 40 + 8) (8 + i * 40 + 40)

/-- Entry `i` is the first complete one with the slot, among the `count` claimed. -/
structure First (data : Slice) (target_slot : UInt64) (count i : Nat) : Prop where
  lt : i < count
  complete : Complete data i
  slot : slotAt data i = target_slot.toNat
  first : ∀ j < i, slotAt data j ≠ target_slot.toNat

section

variable {data : Slice} {target_slot : UInt64}

/-- An entry before a complete one is complete. -/
theorem Complete.mono {i j : Nat} (h : Complete data i) (hle : j ≤ i) : Complete data j := by
  unfold Complete at *
  omega

theorem First.unique {count i j : Nat} (hi : First data target_slot count i)
    (hj : First data target_slot count j) : i = j := by
  rcases Nat.lt_trichotomy i j with hlt | heq | hgt
  · exact absurd hi.slot (hj.first i hlt)
  · exact heq
  · exact absurd hj.slot (hi.first j hgt)

/-- The least entry with the slot is the first one. -/
theorem exists_first {count i : Nat} (hi : i < count) (hcomplete : Complete data i)
    (hslot : slotAt data i = target_slot.toNat) : ∃ k, First data target_slot count k := by
  have hex : ∃ j, slotAt data j = target_slot.toNat := ⟨i, hslot⟩
  have hle := Nat.find_min' hex hslot
  refine ⟨Nat.find hex, by omega, hcomplete.mono hle, Nat.find_spec hex, ?_⟩
  intro j hj
  exact Nat.find_min hex hj

theorem length_subarray {bytes : List UInt8} {lo hi : Nat} (hlo : lo ≤ hi)
    (hhi : hi ≤ bytes.length) : (subarray bytes lo hi).length = hi - lo := by
  simp only [subarray, List.length_drop, List.length_take]
  omega

/-! ## No fault -/

/-- What is inside the data is read. -/
theorem index_ok {lo hi : Nat} (hlo : lo ≤ hi) (hhi : hi ≤ data.bytes.length) :
    index data lo hi = .ok (subarray data.bytes lo hi) :=
  if_pos ⟨hlo, hhi⟩

theorem u64FromLe_subarray {lo : Nat} (hhi : lo + 8 ≤ data.bytes.length) :
    u64FromLe (subarray data.bytes lo (lo + 8)) =
      some (littleEndian (subarray data.bytes lo (lo + 8))) := by
  refine if_pos ?_
  rw [length_subarray (by omega) hhi]
  omega

/-- 32 bytes fill the buffer. -/
theorem copyHash_ok {src : List UInt8} (hlength : src.length = 32) :
    ∃ hash, copyHash src = .ok hash ∧ hash.toList = src := by
  obtain ⟨hash, hcopy, hfilled⟩ := (filled_zeroed 32).copyFromSlice 0 32 src rfl
    (by omega) (by omega)
  have heq : hash.toList = src := by
    have hfull : ([] ++ src).length = 32 := by simpa using hlength
    simpa using hfilled.eq hfull
  refine ⟨hash, ?_, heq⟩
  rw [copyHash, hcopy]

/-- The offsets of an entry that starts inside the data are small. -/
theorem search_succ {left i : Nat} (hstart : i = 0 ∨ 8 + i * 40 ≤ data.bytes.length) :
    search data target_slot (left + 1) i =
      if data.bytes.length < 8 + i * 40 + 40 then .ok none
      else if slotAt data i = target_slot.toNat then do
        let hash ← copyHash (hashAt data i)
        .ok (some hash)
      else search data target_slot left (i + 1) := by
  have hlen := data.len_le
  have hsmall : 8 + i * 40 + 40 < 2 ^ 64 := by
    rcases hstart with rfl | hstart
    · omega
    · omega
  have hmul : mul i 40 = .ok (i * 40) := if_pos (by omega)
  have hoff : add 8 (i * 40) = .ok (8 + i * 40) := if_pos (by omega)
  have hstop : add (8 + i * 40) 40 = .ok (8 + i * 40 + 40) := if_pos hsmall
  have hslot : add (8 + i * 40) 8 = .ok (8 + i * 40 + 8) := if_pos (by omega)
  rw [search, hmul]
  show (add 8 (i * 40) >>= _) = _
  rw [hoff]
  show (add (8 + i * 40) 40 >>= _) = _
  rw [hstop]
  show (if data.bytes.length < 8 + i * 40 + 40 then _ else add (8 + i * 40) 8 >>= _) = _
  rw [hslot]
  split
  · rfl
  · rename_i hcomplete
    show (index data (8 + i * 40) (8 + i * 40 + 8) >>= _) = _
    rw [index_ok (by omega) (by omega)]
    show (match u64FromLe (subarray data.bytes (8 + i * 40) (8 + i * 40 + 8)) with
      | none => _ | some slot => _) = _
    rw [u64FromLe_subarray (by omega)]
    show (if slotAt data i = target_slot.toNat then
      index data (8 + i * 40 + 8) (8 + i * 40 + 40) >>= _ else _) = _
    rw [index_ok (by omega) (by omega)]
    rfl

/-! ## What the search finds -/

/-- By induction on the entries to go: those before `i` are complete, and none of them
has the slot. -/
theorem search_spec {left i count : Nat} (hcount : i + left = count)
    (hstart : i = 0 ∨ 8 + i * 40 ≤ data.bytes.length)
    (hbefore : ∀ j < i, slotAt data j ≠ target_slot.toNat) :
    (∃ k hash, search data target_slot left i = .ok (some hash) ∧
      First data target_slot count k ∧ hash.toList = hashAt data k) ∨
    (search data target_slot left i = .ok none ∧ ∀ k, ¬ First data target_slot count k) := by
  induction left generalizing i with
  | zero =>
    refine .inr ⟨rfl, ?_⟩
    intro k hk
    exact hbefore k (by have := hk.lt; omega) hk.slot
  | succ left ih =>
    rw [search_succ hstart]
    split
    · rename_i hincomplete
      refine .inr ⟨rfl, ?_⟩
      intro k hk
      rcases Nat.lt_or_ge k i with hlt | hge
      · exact hbefore k hlt hk.slot
      · have hcomplete := hk.complete.mono hge
        unfold Complete at hcomplete
        omega
    · rename_i hcomplete
      split
      · rename_i hslot
        have hlength : (hashAt data i).length = 32 := by
          rw [hashAt, length_subarray (by omega) (by omega)]
          omega
        obtain ⟨hash, hcopy, heq⟩ := copyHash_ok hlength
        refine .inl ⟨i, hash, ?_, ⟨by omega, by unfold Complete; omega, hslot, hbefore⟩, heq⟩
        rw [hcopy]
        rfl
      · rename_i hslot
        refine ih (by omega) (.inr (by omega)) ?_
        intro j hj
        rcases Nat.lt_or_ge j i with hlt | hge
        · exact hbefore j hlt
        · rw [show j = i by omega]
          exact hslot

/-- Of no data is there a first entry. -/
theorem find_slot_hash_spec (data : Slice) (target_slot : UInt64) :
    (∃ k hash, find_slot_hash data target_slot = .ok (some hash) ∧
      First data target_slot (claimed data) k ∧ hash.toList = hashAt data k) ∨
    (find_slot_hash data target_slot = .ok none ∧
      ∀ k, ¬ First data target_slot (claimed data) k) := by
  unfold find_slot_hash claimed
  split
  · refine .inr ⟨rfl, ?_⟩
    intro k hk
    exact absurd hk.lt (Nat.not_lt_zero k)
  · rename_i hlength
    have hbytes : index data 0 8 = .ok (subarray data.bytes 0 8) := index_ok (by omega) (by omega)
    have hcount : u64FromLe (subarray data.bytes 0 8) =
        some (littleEndian (subarray data.bytes 0 8)) := u64FromLe_subarray (by omega)
    have hsearch : (do
        let bytes ← index data 0 8
        match u64FromLe bytes with
        | none => .ok none
        | some count => search data target_slot count 0) =
          search data target_slot (littleEndian (subarray data.bytes 0 8)) 0 := by
      rw [hbytes]
      show (match u64FromLe (subarray data.bytes 0 8) with
        | none => (.ok none : Result (Option (Vector UInt8 32)))
        | some count => search data target_slot count 0) = _
      rw [hcount]
    rw [hsearch]
    refine search_spec (by omega) (.inl rfl) ?_
    intro j hj
    omega

end

/-! ## The parsed sysvar -/

/-- Entry `i`, if it is there to its end. -/
def entryAt (data : Slice) (i : Nat) : Option (Nat × Vector UInt8 32) :=
  if h : 8 + i * 40 + 40 ≤ data.bytes.length then
    some (slotAt data i, ⟨(hashAt data i).toArray, by
      rw [List.size_toArray, hashAt, length_subarray (by omega) h]
      omega⟩)
  else none

/-- The claimed entries that are complete, as a list. -/
def parsed (data : Slice) : List (Nat × Vector UInt8 32) :=
  (List.range (claimed data)).filterMap (entryAt data)

theorem entryAt_any {data : Slice} {target_slot : UInt64} {i : Nat} :
    (entryAt data i).any (fun p => p.1 == target_slot.toNat) = true ↔
      Complete data i ∧ slotAt data i = target_slot.toNat := by
  unfold entryAt Complete
  split
  · rename_i h
    simp [h]
  · rename_i h
    simp [h]

/-- On the data the search does what the model of a reveal does on the list. -/
theorem find_slot_hash_parsed (data : Slice) (target_slot : UInt64) :
    find_slot_hash data target_slot =
      .ok (Lottery.find_slot_hash (parsed data) target_slot.toNat) := by
  rw [Lottery.find_slot_hash, parsed, List.find?_filterMap]
  rcases find_slot_hash_spec data target_slot with ⟨k, hash, hfound, hk, hhash⟩ | ⟨hnone, hno⟩
  · have hrange : (List.range (claimed data)).find?
        (fun i => (entryAt data i).any fun p => p.1 == target_slot.toNat) = some k := by
      refine List.find?_range_eq_some.mpr ⟨entryAt_any.mpr ⟨hk.complete, hk.slot⟩,
        List.mem_range.mpr hk.lt, ?_⟩
      intro j hj
      rw [Bool.not_eq_true', Bool.eq_false_iff]
      intro hany
      exact hk.first j hj (entryAt_any.mp hany).2
    have hcomplete := hk.complete
    unfold Complete at hcomplete
    have heq : hash = ⟨(hashAt data k).toArray, by
        rw [← hhash]
        simp⟩ := by
      apply Vector.toList_inj.mp
      simp [hhash]
    rw [hfound, hrange]
    simp [entryAt, hcomplete, heq]
  · have hrange : (List.range (claimed data)).find?
        (fun i => (entryAt data i).any fun p => p.1 == target_slot.toNat) = none := by
      refine List.find?_eq_none.mpr fun i hi hany => ?_
      obtain ⟨hcomplete, hslot⟩ := entryAt_any.mp hany
      obtain ⟨k, hk⟩ := exists_first (List.mem_range.mp hi) hcomplete hslot
      exact hno k hk
    rw [hnone, hrange]
    rfl

/-- The search ends without a fault, whatever the data. It returns the hash of the first
complete entry with the slot among those the data claims, if there is one, and nothing
otherwise, of which the callers make an error. -/
theorem find_slot_hash_exact (data : Slice) (target_slot : UInt64) :
    ∃ found, find_slot_hash data target_slot = .ok found ∧
      (∀ hash, found = some hash ↔
        ∃ i, First data target_slot (claimed data) i ∧ hash.toList = hashAt data i) ∧
      (found = none ↔ ∀ i < claimed data, Complete data i →
        slotAt data i ≠ target_slot.toNat) := by
  rcases find_slot_hash_spec data target_slot with ⟨k, hash, hfound, hk, hhash⟩ | ⟨hnone, hno⟩
  · refine ⟨some hash, hfound, ?_, ?_⟩
    · intro hash'
      constructor
      · intro heq
        cases heq
        exact ⟨k, hk, hhash⟩
      · rintro ⟨i, hi, hhash'⟩
        rw [hk.unique hi] at hhash
        have heq : hash = hash' := Vector.toList_inj.mp (hhash.trans hhash'.symm)
        rw [heq]
    · constructor
      · intro heq
        cases heq
      · intro hall
        exact absurd hk.slot (hall k hk.lt hk.complete)
  · refine ⟨none, hnone, ?_, ?_⟩
    · intro hash
      constructor
      · intro heq
        cases heq
      · rintro ⟨i, hi, -⟩
        exact absurd hi (hno i)
    · constructor
      · intro _ i hi hcomplete hslot
        obtain ⟨k, hk⟩ := exists_first hi hcomplete hslot
        exact hno k hk
      · intro _
        rfl

end Scadium.Programs.SlotHashes
