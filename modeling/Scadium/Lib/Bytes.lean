/-
Scadium.Lib.Bytes — fixed buffers of bytes, and numbers read from bytes.

A buffer is filled slice by slice: `Filled buf bytes` says that it starts
with `bytes`, and a slice copied right behind them extends them. A full
buffer is the bytes it was filled with.
-/
import Mathlib.Data.Nat.Bitwise
import Mathlib.Data.Vector.Basic
import Mathlib.Tactic.Ring
import Mathlib.Data.List.Nodup

namespace Scadium.Lib

variable {n : Nat}

/-! ## Buffers -/

/-- `buf[lo..hi].copy_from_slice(src)`, which panics unless the range lies in
the buffer and is as long as the source. -/
def copyFromSlice (buf : Vector UInt8 n) (lo hi : Nat) (src : List UInt8) :
    Option (Vector UInt8 n) :=
  if h : lo ≤ hi ∧ hi ≤ n ∧ src.length = hi - lo then
    some ⟨(buf.toList.take lo ++ src ++ buf.toList.drop hi).toArray, by simp; omega⟩
  else none

/-- `[0u8; N]` -/
def zeroed (n : Nat) : Vector UInt8 n := Vector.replicate n 0

/-- The buffer starts with these bytes. -/
def Filled (buf : Vector UInt8 n) (bytes : List UInt8) : Prop :=
  buf.toList.take bytes.length = bytes

theorem filled_zeroed (n : Nat) : Filled (zeroed n) [] := rfl

/-- A slice right behind the bytes of a buffer extends them. -/
theorem Filled.copyFromSlice {buf : Vector UInt8 n} {bytes : List UInt8} (h : Filled buf bytes)
    (lo hi : Nat) (src : List UInt8) (hlo : lo = bytes.length) (hhi : hi = lo + src.length)
    (hn : hi ≤ n) : ∃ buf', copyFromSlice buf lo hi src = some buf' ∧
      Filled buf' (bytes ++ src) := by
  have hfits : lo ≤ hi ∧ hi ≤ n ∧ src.length = hi - lo := ⟨by omega, hn, by omega⟩
  refine ⟨_, dif_pos hfits, ?_⟩
  have htake : buf.toList.take lo = bytes := hlo ▸ h
  simp only [Filled, htake, Vector.toList_mk, List.length_append]
  rw [← List.length_append, List.take_left']
  simp

/-- A full buffer is what it was filled with. -/
theorem Filled.eq {buf : Vector UInt8 n} {bytes : List UInt8} (h : Filled buf bytes)
    (hlength : bytes.length = n) : buf.toList = bytes := by
  have hall : buf.toList.take bytes.length = buf.toList :=
    List.take_of_length_le (by simp [hlength])
  rw [← hall, h]

/-- The loop of `ByteArray.toList` appends what it has not read yet. -/
theorem byteArray_toList_loop (bs : ByteArray) (i : Nat) (r : List UInt8) :
    ByteArray.toList.loop bs i r = r.reverse ++ bs.data.toList.drop i := by
  induction i, r using ByteArray.toList.loop.induct bs with
  | case1 i r h ih =>
    have hi : i < bs.data.toList.length := h
    have hget : bs.get! i = bs.data.toList[i] := by
      simp only [ByteArray.get!, Array.getElem_toList]
      exact getElem!_pos bs.data i h
    rw [ByteArray.toList.loop, if_pos h, ih, List.drop_eq_getElem_cons hi, hget]
    simp
  | case2 i r h =>
    have hi : bs.data.toList.length ≤ i := Nat.le_of_not_lt h
    rw [ByteArray.toList.loop, if_neg h, List.drop_eq_nil_of_le hi, List.append_nil]

theorem byteArray_toList (bs : ByteArray) : bs.toList = bs.data.toList := by
  rw [ByteArray.toList, byteArray_toList_loop]
  rfl

/-! ## Numbers -/

/-- `u32::to_le_bytes` -/
def toLeBytes (x : UInt32) : List UInt8 :=
  [x.toUInt8, (x >>> 8).toUInt8, (x >>> 16).toUInt8, (x >>> 24).toUInt8]

@[simp] theorem length_toLeBytes (x : UInt32) : (toLeBytes x).length = 4 := rfl

def shiftIn (acc : UInt64) (b : UInt8) : UInt64 := acc <<< 8 ||| b.toUInt64

/-- `u64::from_be_bytes` -/
def fromBeBytes (bytes : List UInt8) : UInt64 := bytes.foldl shiftIn 0

/-- The number some bytes denote, most significant first. -/
def bigEndian (bytes : List UInt8) : Nat :=
  bytes.foldl (fun acc b => acc * 256 + b.toNat) 0

theorem shiftIn_toNat {acc : UInt64} (b : UInt8) (h : acc.toNat < 2 ^ 56) :
    (shiftIn acc b).toNat = acc.toNat * 256 + b.toNat := by
  have hb : b.toNat < 2 ^ 8 := b.toNat_lt
  have hshift : (acc <<< 8).toNat = 2 ^ 8 * acc.toNat := by
    rw [UInt64.toNat_shiftLeft]
    have height : (8 : UInt64).toNat % 64 = 8 := rfl
    rw [height, Nat.shiftLeft_eq, Nat.mod_eq_of_lt (by omega), Nat.mul_comm]
  rw [shiftIn, UInt64.toNat_or, hshift, UInt8.toNat_toUInt64, ← Nat.two_pow_add_eq_or_of_lt hb]
  omega

theorem foldl_shiftIn {bytes : List UInt8} {acc : UInt64} {k : Nat}
    (hacc : acc.toNat < 256 ^ k) (h : k + bytes.length ≤ 8) :
    (bytes.foldl shiftIn acc).toNat =
      bytes.foldl (fun acc b => acc * 256 + b.toNat) acc.toNat := by
  induction bytes generalizing acc k with
  | nil => rfl
  | cons b bytes ih =>
    simp only [List.length_cons] at h
    have hsmall : acc.toNat < 2 ^ 56 :=
      lt_of_lt_of_le hacc (by
        calc 256 ^ k ≤ 256 ^ 7 := Nat.pow_le_pow_right (by decide) (by omega)
          _ = 2 ^ 56 := by norm_num)
    have hnext := shiftIn_toNat b hsmall
    have hb : b.toNat < 256 := b.toNat_lt
    have hbound : (shiftIn acc b).toNat < 256 ^ (k + 1) := by
      rw [hnext, Nat.pow_succ]
      omega
    rw [List.foldl_cons, List.foldl_cons, ih hbound (by omega), hnext]

/-- Eight bytes fit in 64 bits. -/
theorem fromBeBytes_toNat {bytes : List UInt8} (h : bytes.length ≤ 8) :
    (fromBeBytes bytes).toNat = bigEndian bytes :=
  foldl_shiftIn (k := 0) (by decide) (by omega)

/-! ## Fields -/

/-- The `n` bytes of a number, least significant first. -/
def leBytes : (n x : Nat) → List UInt8
  | 0, _ => []
  | n + 1, x => UInt8.ofNat x :: leBytes n (x / 256)

/-- The number some bytes denote, least significant first. -/
def littleEndian : List UInt8 → Nat
  | [] => 0
  | b :: bytes => b.toNat + 256 * littleEndian bytes

@[simp] theorem length_leBytes (n x : Nat) : (leBytes n x).length = n := by
  induction n generalizing x with
  | zero => rfl
  | succ n ih => simp [leBytes, ih]

/-- Enough bytes denote the number they are the bytes of. -/
theorem littleEndian_leBytes {n x : Nat} (h : x < 256 ^ n) : littleEndian (leBytes n x) = x := by
  induction n generalizing x with
  | zero =>
    simp only [Nat.pow_zero] at h
    simp only [leBytes, littleEndian]
    omega
  | succ n ih =>
    rw [Nat.pow_succ] at h
    have hrest : x / 256 < 256 ^ n := Nat.div_lt_of_lt_mul (by omega)
    have hbyte : (UInt8.ofNat x).toNat = x % 256 := UInt8.toNat_ofNat'
    simp only [leBytes, littleEndian, ih hrest, hbyte]
    omega

theorem littleEndian_append (xs ys : List UInt8) :
    littleEndian (xs ++ ys) = littleEndian xs + 256 ^ xs.length * littleEndian ys := by
  induction xs with
  | nil => simp [littleEndian]
  | cons b xs ih =>
    simp only [List.cons_append, littleEndian, ih, List.length_cons, Nat.pow_succ]
    ring

/-- The bytes from `lo` to `hi`; what is beyond the end is not there. -/
def subarray (bytes : List UInt8) (lo hi : Nat) : List UInt8 := (bytes.take hi).drop lo

theorem subarray_append (before bytes after : List UInt8) :
    subarray (before ++ bytes ++ after) before.length (before.length + bytes.length) = bytes := by
  rw [subarray, ← List.length_append, List.take_left, List.drop_left]

/-- The fields of a record, end to end: the bytes of a field start where the widths of
the fields before it end. -/
theorem subarray_flatten (before : List (List UInt8)) (field : List UInt8)
    (after : List (List UInt8)) {lo hi : Nat} (hlo : lo = (before.map List.length).sum)
    (hhi : hi = lo + field.length) :
    subarray (before ++ field :: after).flatten lo hi = field := by
  have hflat : (before ++ field :: after).flatten = before.flatten ++ field ++ after.flatten := by
    simp
  have hlength : before.flatten.length = lo := by
    rw [List.length_flatten, hlo]
  rw [hflat, hhi, ← hlength, subarray_append]

end Scadium.Lib

/-! ## Bytes as text

Three bytes are four numbers below 64, and each of these a character; what is
missing at the end is padded. `decode` stops at the padding and passes over
what is no character of the alphabet, and it reads back what `encode` writes. -/

namespace Scadium.Lib.Base64

def alphabet : List Char :=
  "ABCDEFGHIJKLMNOPQRSTUVWXYZabcdefghijklmnopqrstuvwxyz0123456789+/".toList

def digit (n : Nat) : Char := alphabet.getD n 'A'

/-- Also of the URL-safe alphabet. -/
def value (c : Char) : Option Nat :=
  if c = '-' then some 62 else if c = '_' then some 63 else alphabet.idxOf? c

/-! ## Bytes and sextets -/

def sextets : List UInt8 → List Nat
  | [] => []
  | [a] => [a.toNat / 4, a.toNat % 4 * 16]
  | [a, b] => [a.toNat / 4, a.toNat % 4 * 16 + b.toNat / 16, b.toNat % 16 * 4]
  | a :: b :: c :: rest =>
      a.toNat / 4 :: (a.toNat % 4 * 16 + b.toNat / 16) :: (b.toNat % 16 * 4 + c.toNat / 64) ::
        c.toNat % 64 :: sextets rest

def bytes : List Nat → List UInt8
  | [] => []
  | [_] => []
  | [w, x] => [UInt8.ofNat (w * 4 + x / 16)]
  | [w, x, y] => [UInt8.ofNat (w * 4 + x / 16), UInt8.ofNat (x % 16 * 16 + y / 4)]
  | w :: x :: y :: z :: rest =>
      UInt8.ofNat (w * 4 + x / 16) :: UInt8.ofNat (x % 16 * 16 + y / 4) ::
        UInt8.ofNat (y % 4 * 64 + z) :: bytes rest

theorem sextets_lt (bs : List UInt8) : ∀ n ∈ sextets bs, n < 64 := by
  induction bs using sextets.induct with
  | case1 => simp [sextets]
  | case2 a =>
    have ha := a.toNat_lt
    simp only [sextets, List.mem_cons, List.not_mem_nil, or_false]
    omega
  | case3 a b =>
    have ha := a.toNat_lt
    have hb := b.toNat_lt
    simp only [sextets, List.mem_cons, List.not_mem_nil, or_false]
    omega
  | case4 a b c rest ih =>
    have ha := a.toNat_lt
    have hb := b.toNat_lt
    have hc := c.toNat_lt
    simp only [sextets, List.mem_cons]
    rintro n (rfl | rfl | rfl | rfl | hn)
    · omega
    · omega
    · omega
    · omega
    · exact ih n hn

theorem ofNat_eq {n : Nat} {b : UInt8} (h : n = b.toNat) : UInt8.ofNat n = b := by
  rw [h, UInt8.ofNat_toNat]

theorem bytes_sextets (bs : List UInt8) : bytes (sextets bs) = bs := by
  induction bs using sextets.induct with
  | case1 => rfl
  | case2 a =>
    have ha := a.toNat_lt
    simp only [sextets, bytes]
    rw [ofNat_eq (b := a) (by omega)]
  | case3 a b =>
    have ha := a.toNat_lt
    have hb := b.toNat_lt
    simp only [sextets, bytes]
    rw [ofNat_eq (b := a) (by omega), ofNat_eq (b := b) (by omega)]
  | case4 a b c rest ih =>
    have ha := a.toNat_lt
    have hb := b.toNat_lt
    have hc := c.toNat_lt
    simp only [sextets, bytes, ih]
    rw [ofNat_eq (b := a) (by omega), ofNat_eq (b := b) (by omega), ofNat_eq (b := c) (by omega)]

/-! ## Text -/

theorem alphabet_eq : alphabet =
    ['A', 'B', 'C', 'D', 'E', 'F', 'G', 'H', 'I', 'J', 'K', 'L', 'M', 'N', 'O', 'P', 'Q', 'R', 'S',
     'T', 'U', 'V', 'W', 'X', 'Y', 'Z', 'a', 'b', 'c', 'd', 'e', 'f', 'g', 'h', 'i', 'j', 'k', 'l',
     'm', 'n', 'o', 'p', 'q', 'r', 's', 't', 'u', 'v', 'w', 'x', 'y', 'z', '0', '1', '2', '3', '4',
     '5', '6', '7', '8', '9', '+', '/'] :=
  String.toList_ofList

/-- Letters, digits and two signs. -/
theorem map_toNat_alphabet : alphabet.map Char.toNat =
    List.range' 65 26 ++ (List.range' 97 26 ++ (List.range' 48 10 ++ [43, 47])) := by
  rw [alphabet_eq]
  rfl

theorem mem_alphabet {c : Char} (h : c ∈ alphabet) :
    65 ≤ c.toNat ∧ c.toNat < 91 ∨ 97 ≤ c.toNat ∧ c.toNat < 123 ∨
      48 ≤ c.toNat ∧ c.toNat < 58 ∨ c.toNat = 43 ∨ c.toNat = 47 := by
  have hmem : c.toNat ∈ alphabet.map Char.toNat := List.mem_map_of_mem h
  simpa [map_toNat_alphabet, List.mem_range'_1] using hmem

theorem nodup_alphabet : alphabet.Nodup := by
  refine List.Nodup.of_map Char.toNat ?_
  have hrange : ∀ s n, (List.range' s n).Nodup := fun s n => List.nodup_range'
  rw [map_toNat_alphabet]
  simp only [List.nodup_append', hrange, List.disjoint_left, List.mem_append, List.mem_range'_1,
    List.mem_cons, List.not_mem_nil, or_false]
  refine ⟨trivial, ⟨trivial, ⟨trivial, by decide, ?_⟩, ?_⟩, ?_⟩
  all_goals omega

theorem digit_spec {n : Nat} (h : n < 64) : value (digit n) = some n ∧ digit n ≠ '=' := by
  have hn : n < alphabet.length := by simpa [alphabet_eq] using h
  have hdigit : digit n = alphabet[n] := (List.getElem_eq_getD 'A').symm
  have hcode := mem_alphabet (List.getElem_mem hn)
  rw [hdigit]
  constructor
  · have hdash : alphabet[n] ≠ '-' := fun heq => by simp [heq] at hcode
    have hlow : alphabet[n] ≠ '_' := fun heq => by simp [heq] at hcode
    rw [value, if_neg hdash, if_neg hlow, List.idxOf?_eq_some_iff]
    refine ⟨hn, rfl, fun j hj heq => ?_⟩
    have hjn := (nodup_alphabet.getElem_inj_iff).mp heq
    omega
  · intro heq
    simp [heq] at hcode

def encode (bs : List UInt8) : List Char :=
  (sextets bs).map digit ++ List.replicate ((3 - bs.length % 3) % 3) '='

def decode (text : List Char) : List UInt8 :=
  bytes ((text.takeWhile (· ≠ '=')).filterMap value)

theorem takeWhile_encode (bs : List UInt8) :
    (encode bs).takeWhile (· ≠ '=') = (sextets bs).map digit := by
  have hdigits : ∀ c ∈ (sextets bs).map digit, decide (c ≠ '=') = true := by
    intro c hc
    obtain ⟨n, hn, rfl⟩ := List.mem_map.mp hc
    exact decide_eq_true (digit_spec (sextets_lt bs n hn)).2
  rw [encode, List.takeWhile_append_of_pos hdigits]
  cases (3 - bs.length % 3) % 3 with
  | zero => simp
  | succ => simp [List.replicate_succ]

theorem filterMap_digits {ns : List Nat} (h : ∀ n ∈ ns, n < 64) :
    (ns.map digit).filterMap value = ns := by
  induction ns with
  | nil => rfl
  | cons n ns ih =>
    obtain ⟨hn, hns⟩ := List.forall_mem_cons.mp h
    simp [(digit_spec hn).1, ih hns]

theorem decode_encode (bs : List UInt8) : decode (encode bs) = bs := by
  rw [decode, takeWhile_encode, filterMap_digits (sextets_lt bs), bytes_sextets]

end Scadium.Lib.Base64
