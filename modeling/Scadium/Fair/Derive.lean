/-
Scadium.Fair.Derive — the seed context an outcome is derived from, with or
without the entropy of an on-chain round (`packages/fair/src/derive.ts`), and what
the hash of a round's parameters commits to.

A JavaScript string is a list of UTF-16 code units, in pairs or not, and keys are
sorted by their code units.

The parameters are hashed as `key=value` lines. A key without `=` and a value without a
newline can be read back from them, so such parameters have one encoding for each map of
keys to texts; but neither is checked, and the text does not say whether a value was a
number, a string or a boolean.
-/
import Mathlib.Data.List.Sort
import Scadium.Fair.Hash
import Scadium.Lib.Bytes

namespace Scadium.Fair.Node

open Scadium.Lib

/-! ## Strings -/

abbrev JsString := List UInt16

def isHighSurrogate (u : UInt16) : Bool := decide (0xD800 ≤ u.toNat ∧ u.toNat < 0xDC00)

def isLowSurrogate (u : UInt16) : Bool := decide (0xDC00 ≤ u.toNat ∧ u.toNat < 0xE000)

/-- A code unit on its own: a surrogate becomes U+FFFD. -/
def unitChar (u : UInt16) : Char :=
  if isHighSurrogate u || isLowSurrogate u then Char.ofNat 0xFFFD else Char.ofNat u.toNat

def pairChar (u v : UInt16) : Char :=
  Char.ofNat (0x10000 + (u.toNat - 0xD800) * 0x400 + (v.toNat - 0xDC00))

/-- The scalar values a string is encoded by. -/
def scalars : JsString → List Char
  | [] => []
  | [u] => [unitChar u]
  | u :: v :: rest =>
      if isHighSurrogate u && isLowSurrogate v then pairChar u v :: scalars rest
      else unitChar u :: scalars (v :: rest)

/-- `Buffer.from(s, 'utf8')` -/
def bufferFrom (s : JsString) : List UInt8 := (scalars s).flatMap String.utf8EncodeChar

/-- The code units of a character. -/
def codeUnits (c : Char) : JsString :=
  if c.toNat < 0x10000 then [UInt16.ofNat c.toNat]
  else [UInt16.ofNat (0xD800 + (c.toNat - 0x10000) / 0x400),
    UInt16.ofNat (0xDC00 + (c.toNat - 0x10000) % 0x400)]

def ofString (s : String) : JsString := s.toList.flatMap codeUnits

theorem scalars_cons {u : UInt16} (h : isHighSurrogate u = false) (s : JsString) :
    scalars (u :: s) = unitChar u :: scalars s := by
  cases s with
  | nil => rfl
  | cons => simp [scalars, h]

/-- A character's code units are read back as the character. -/
theorem scalars_codeUnits (c : Char) (s : JsString) :
    scalars (codeUnits c ++ s) = c :: scalars s := by
  have hvalid : c.toNat < 0xD800 ∨ 0xDFFF < c.toNat ∧ c.toNat < 0x110000 := c.valid
  by_cases hbmp : c.toNat < 0x10000
  · have hunit : (UInt16.ofNat c.toNat).toNat = c.toNat := by
      rw [UInt16.toNat_ofNat']
      omega
    have hhigh : isHighSurrogate (UInt16.ofNat c.toNat) = false := by
      simp only [isHighSurrogate, hunit, decide_eq_false_iff_not]
      omega
    have hlow : isLowSurrogate (UInt16.ofNat c.toNat) = false := by
      simp only [isLowSurrogate, hunit, decide_eq_false_iff_not]
      omega
    have hchar : unitChar (UInt16.ofNat c.toNat) = c := by
      simp [unitChar, hhigh, hlow, hunit]
    rw [codeUnits, if_pos hbmp, List.singleton_append, scalars_cons hhigh, hchar]
  · have hhi : (UInt16.ofNat (0xD800 + (c.toNat - 0x10000) / 0x400)).toNat =
        0xD800 + (c.toNat - 0x10000) / 0x400 := by
      rw [UInt16.toNat_ofNat']
      omega
    have hlo : (UInt16.ofNat (0xDC00 + (c.toNat - 0x10000) % 0x400)).toNat =
        0xDC00 + (c.toNat - 0x10000) % 0x400 := by
      rw [UInt16.toNat_ofNat']
      omega
    have hpair : pairChar (UInt16.ofNat (0xD800 + (c.toNat - 0x10000) / 0x400))
        (UInt16.ofNat (0xDC00 + (c.toNat - 0x10000) % 0x400)) = c := by
      have hvalue : 0x10000 + (0xD800 + (c.toNat - 0x10000) / 0x400 - 0xD800) * 0x400 +
          (0xDC00 + (c.toNat - 0x10000) % 0x400 - 0xDC00) = c.toNat := by omega
      rw [pairChar, hhi, hlo, hvalue, Char.ofNat_toNat]
    have hhigh : isHighSurrogate (UInt16.ofNat (0xD800 + (c.toNat - 0x10000) / 0x400)) = true := by
      simp only [isHighSurrogate, hhi, decide_eq_true_eq]
      omega
    have hlow : isLowSurrogate (UInt16.ofNat (0xDC00 + (c.toNat - 0x10000) % 0x400)) = true := by
      simp only [isLowSurrogate, hlo, decide_eq_true_eq]
      omega
    simp only [codeUnits, if_neg hbmp, List.cons_append, List.nil_append, scalars, hhigh, hlow,
      Bool.and_self, if_true, hpair]

theorem scalars_ofString (s : String) : scalars (ofString s) = s.toList := by
  unfold ofString
  generalize s.toList = cs
  induction cs with
  | nil => rfl
  | cons c cs ih => rw [List.flatMap_cons, scalars_codeUnits, ih]

/-- On text the buffer is the UTF-8 encoding. -/
theorem bufferFrom_ofString (s : String) : bufferFrom (ofString s) = utf8 s := by
  have hbytes : utf8 s = s.toList.flatMap String.utf8EncodeChar := by
    rw [utf8, String.toUTF8_eq_toByteArray, ← String.utf8Encode_toList, List.utf8Encode,
      byteArray_toList, List.toList_data_toByteArray]
  rw [bufferFrom, scalars_ofString, hbytes]

/-- On ASCII it is the code units. -/
theorem bufferFrom_ascii {s : JsString} (h : ∀ u ∈ s, u.toNat < 128) :
    bufferFrom s = s.map (·.toUInt8) := by
  unfold bufferFrom
  induction s with
  | nil => rfl
  | cons u s ih =>
    have hu := h u (List.mem_cons_self ..)
    have hhigh : isHighSurrogate u = false := by
      simp only [isHighSurrogate, decide_eq_false_iff_not]
      omega
    have hlow : isLowSurrogate u = false := by
      simp only [isLowSurrogate, decide_eq_false_iff_not]
      omega
    have hchar : (unitChar u).val.toNat = u.toNat := by
      have hvalid : u.toNat.isValidChar := .inl (by omega)
      have hunit : unitChar u = Char.ofNat u.toNat := by
        rw [unitChar, hhigh, hlow, Bool.or_self, if_neg Bool.false_ne_true]
      rw [hunit, Char.ofNat, dif_pos hvalid]
      rfl
    have hencoded : String.utf8EncodeChar (unitChar u) = [u.toUInt8] := by
      rw [String.utf8EncodeChar, hchar, if_pos (by omega)]
      rfl
    rw [scalars_cons hhigh, List.flatMap_cons, hencoded, ih fun v hv => h v (by simp [hv])]
    rfl

@[simp] theorem ofString_append (s t : String) : ofString (s ++ t) = ofString s ++ ofString t := by
  simp [ofString]

/-- Well-formed: every surrogate is in a pair. -/
def IsText (s : JsString) : Prop := ∃ t, s = ofString t

theorem IsText.append {s t : JsString} (hs : IsText s) (ht : IsText t) : IsText (s ++ t) := by
  obtain ⟨s, rfl⟩ := hs
  obtain ⟨t, rfl⟩ := ht
  exact ⟨s ++ t, (ofString_append s t).symm⟩

theorem isText_nil : IsText [] := ⟨"", rfl⟩

end Scadium.Fair.Node

namespace Scadium.Fair

theorem utf8_inj {s t : String} : utf8 s = utf8 t ↔ s = t := by
  unfold utf8
  rw [Lib.byteArray_toList, Lib.byteArray_toList, Array.toList_inj]
  constructor
  · intro h
    exact String.toByteArray_inj.mp (ByteArray.ext h)
  · rintro rfl
    rfl

/-- Text is known by its bytes. -/
theorem Node.bufferFrom_inj {s t : Node.JsString} (hs : Node.IsText s) (ht : Node.IsText t) :
    Node.bufferFrom s = Node.bufferFrom t ↔ s = t := by
  obtain ⟨s, rfl⟩ := hs
  obtain ⟨t, rfl⟩ := ht
  constructor
  · intro h
    rw [Node.bufferFrom_ofString, Node.bufferFrom_ofString, utf8_inj] at h
    rw [h]
  · intro h
    rw [h]

end Scadium.Fair

namespace Scadium.Fair.Derive

open Scadium.Prisma (Bytes32)

/-- The dynamics of a round: each key with its value as text. -/
abbrev GameParams := List (String × String)

structure SeedContext where
  serverSeed : String
  clientSeed : String
  nonce : Nat
  deriving DecidableEq

/-- `key=value` lines, sorted by key. -/
def canonical (params : GameParams) : String :=
  String.intercalate "\n"
    ((params.mergeSort fun p q => Node.ofString p.1 ≤ Node.ofString q.1).map fun p =>
      p.1 ++ "=" ++ p.2)

def gameParamsHash (sha : Sha) (params : GameParams) : Bytes32 :=
  sha.sha256 (utf8 (canonical params))

/-- `commitServerSeed` -/
def commitServerSeed (sha : Sha) (serverSeed : String) : Bytes32 := sha.sha256 (utf8 serverSeed)

/-- `sha256(utf8(serverSeed) ‖ slotHash ‖ clientSeed32 ‖ u32le(nonce) ‖ paramsHash)` -/
def rngEntropy (sha : Sha) (serverSeed : String) (clientSeed32 : List UInt8) (slotHash : Bytes32)
    (nonce : Nat) (paramsHash : Bytes32) : Bytes32 :=
  sha.sha256 (utf8 serverSeed ++ bytes32 slotHash ++ clientSeed32 ++ u32le nonce ++
    bytes32 paramsHash)

/-- The 64 hex digits of a 32-byte value. -/
def hex (b : Bytes32) : String :=
  String.ofList ((List.range 64).map fun i => Nat.digitChar (b.toNat / 16 ^ (63 - i) % 16))

/-- Without entropy it is a pass-through. -/
def deriveSeedContext (sha : Sha) (input : SeedContext) (onchainEntropy : Option Bytes32)
    (gameParams : GameParams) : SeedContext :=
  match onchainEntropy with
  | none => input
  | some entropy =>
      { input with
        serverSeed := hex (rngEntropy sha input.serverSeed (padClientSeed32 input.clientSeed)
          entropy input.nonce (gameParamsHash sha gameParams)) }

/-! ## What the hash of the parameters commits to -/

open Node (ofString)

/-- `GameParamValue`; `ν` is the type of numbers. -/
inductive GameParamValue (ν : Type) where
  | number (n : ν)
  | string (s : Node.JsString)
  | boolean (b : Bool)
  deriving DecidableEq

/-- A parameter object: its properties, each key once. -/
structure ParamMap (ν : Type) where
  entries : List (Node.JsString × GameParamValue ν)
  nodup : (entries.map Prod.fst).Nodup

/-- A key and a value's text. -/
abbrev Line := Node.JsString × Node.JsString

/-- `=` -/
def equals : UInt16 := 61

/-- `\n` -/
def newline : UInt16 := 10

/-- `key=value` -/
def line (l : Line) : Node.JsString := l.1 ++ equals :: l.2

/-- Lines, sorted by key and joined. -/
def encode (lines : List Line) : Node.JsString :=
  [newline].intercalate ((lines.mergeSort fun l m => l.1 ≤ m.1).map line)

section

variable {ν : Type} (numberText : ν → Node.JsString)

/-- `String(value)` -/
def text : GameParamValue ν → Node.JsString
  | .number n => numberText n
  | .string s => s
  | .boolean b => ofString (if b then "true" else "false")

namespace ParamMap

variable (p : ParamMap ν)

def lines : List Line := p.entries.map fun e => (e.1, text numberText e.2)

/-- The string `gameParamsHash` hashes. -/
def canonical : Node.JsString := encode (p.lines numberText)

def gameParamsHash (sha : Sha) : Bytes32 := sha.sha256 (Node.bufferFrom (p.canonical numberText))

/-- The text of a key's value, if the map has the key. -/
def textOf (key : Node.JsString) : Option Node.JsString := (p.lines numberText).lookup key

/-- No `=` in a key, and no newline in a value's text. -/
def Plain : Prop := ∀ l ∈ p.lines numberText, equals ∉ l.1 ∧ newline ∉ l.2

end ParamMap

end

/-! ## Reading lines -/

/-- A text is read up to the first separator in one way. -/
theorem append_inj_of_separator {α : Type} [DecidableEq α] {sep : α} {xs ys ts us : List α}
    (hxs : sep ∉ xs) (hys : sep ∉ ys) (hts : ∀ a ∈ ts.head?, a = sep)
    (hus : ∀ a ∈ us.head?, a = sep) : xs ++ ts = ys ++ us ↔ xs = ys ∧ ts = us := by
  have hread : ∀ {zs ws : List α}, sep ∉ zs → (∀ a ∈ ws.head?, a = sep) →
      (zs ++ ws).takeWhile (· ≠ sep) = zs ∧ (zs ++ ws).dropWhile (· ≠ sep) = ws := by
    intro zs ws hzs hws
    have hall : ∀ a ∈ zs, decide (a ≠ sep) = true := by
      intro a ha
      rw [decide_eq_true_eq]
      rintro rfl
      exact hzs ha
    rw [List.takeWhile_append_of_pos hall, List.dropWhile_append_of_pos hall]
    cases ws with
    | nil => simp
    | cons a => simp [hws a rfl]
  constructor
  · intro h
    have htake := congrArg (List.takeWhile (· ≠ sep)) h
    have hdrop := congrArg (List.dropWhile (· ≠ sep)) h
    rw [(hread hxs hts).1, (hread hys hus).1] at htake
    rw [(hread hxs hts).2, (hread hys hus).2] at hdrop
    exact ⟨htake, hdrop⟩
  · rintro ⟨rfl, rfl⟩
    rfl

/-- What follows the first line. -/
def following : List Line → Node.JsString
  | [] => []
  | l :: ls => newline :: [newline].intercalate ((l :: ls).map line)

theorem intercalate_lines (l : Line) (ls : List Line) :
    [newline].intercalate ((l :: ls).map line) = l.1 ++ equals :: (l.2 ++ following ls) := by
  cases ls with
  | nil | cons => simp [line, following]

theorem following_head (ls : List Line) :
    ∀ a ∈ (following ls).head?, a = newline := by
  cases ls with
  | nil | cons => simp [following]

/-- Lines whose keys have no `=` and whose texts have no newline are read back. -/
theorem lines_inj {ls ms : List Line}
    (hls : ∀ l ∈ ls, equals ∉ l.1 ∧ newline ∉ l.2) (hms : ∀ m ∈ ms, equals ∉ m.1 ∧ newline ∉ m.2)
    (h : [newline].intercalate (ls.map line) = [newline].intercalate (ms.map line)) : ls = ms := by
  induction ls generalizing ms with
  | nil =>
    cases ms with
    | nil => rfl
    | cons =>
      rw [intercalate_lines] at h
      simp at h
  | cons l ls ih =>
    cases ms with
    | nil =>
      rw [intercalate_lines] at h
      simp at h
    | cons m ms =>
      rw [intercalate_lines, intercalate_lines] at h
      have hl := hls l (by simp)
      have hm := hms m (by simp)
      obtain ⟨hkey, htail⟩ := (append_inj_of_separator hl.1 hm.1 (by simp) (by simp)).mp h
      obtain ⟨htext, hrest⟩ := (append_inj_of_separator hl.2 hm.2 (following_head ls)
        (following_head ms)).mp (List.cons.inj htail).2
      have hmore : ls = ms := by
        refine ih (fun l hl => hls l (by simp [hl])) (fun m hm => hms m (by simp [hm])) ?_
        cases ls with
        | nil =>
          cases ms with
          | nil => rfl
          | cons => simp [following] at hrest
        | cons =>
          cases ms with
          | nil => simp [following] at hrest
          | cons => exact (List.cons.inj hrest).2
      rw [hmore, Prod.ext hkey htext]

/-! ## One encoding for each map -/

/-- The lines a text is made of are known up to their order. -/
theorem perm_of_encode_eq {ls ms : List Line}
    (hls : ∀ l ∈ ls, equals ∉ l.1 ∧ newline ∉ l.2) (hms : ∀ m ∈ ms, equals ∉ m.1 ∧ newline ∉ m.2)
    (h : encode ls = encode ms) : ls.Perm ms := by
  have hsorted := lines_inj (fun l hl => hls l (List.mem_mergeSort.mp hl))
    (fun m hm => hms m (List.mem_mergeSort.mp hm)) h
  exact (List.mergeSort_perm ls _).symm.trans (hsorted ▸ List.mergeSort_perm ms _)

theorem encode_of_sorted (ls : List Line)
    (h : ls.Pairwise fun l m => decide (l.1 ≤ m.1) = true) :
    encode ls = [newline].intercalate (ls.map line) := by
  unfold encode
  rw [List.mergeSort_of_pairwise h]

/-- The order of the properties is not in the text. -/
theorem encode_perm {ls ms : List Line} (hnodup : (ls.map Prod.fst).Nodup)
    (h : ls.Perm ms) : encode ls = encode ms := by
  have hsorted : ∀ ns : List Line,
      (ns.mergeSort fun l m => l.1 ≤ m.1).Pairwise fun l m => decide (l.1 ≤ m.1) = true := by
    intro ns
    refine List.pairwise_mergeSort ?_ ?_ ns
    · intro a b c hab hbc
      exact decide_eq_true (List.le_trans (of_decide_eq_true hab) (of_decide_eq_true hbc))
    · intro a b
      simpa using List.le_total a.1 b.1
  have heq : (ls.mergeSort fun l m => l.1 ≤ m.1) = ms.mergeSort fun l m => l.1 ≤ m.1 := by
    refine List.Perm.eq_of_pairwise ?_ (hsorted ls) (hsorted ms)
      ((List.mergeSort_perm ls _).trans (h.trans (List.mergeSort_perm ms _).symm))
    intro a b ha hb hab hba
    have hkey : a.1 = b.1 := List.le_antisymm (of_decide_eq_true hab) (of_decide_eq_true hba)
    exact List.inj_on_of_nodup_map hnodup (List.mem_mergeSort.mp ha)
      (h.mem_iff.mpr (List.mem_mergeSort.mp hb)) hkey
  unfold encode
  rw [heq]

theorem mem_iff_lookup {ls : List Line} (hnodup : (ls.map Prod.fst).Nodup)
    {l : Line} : l ∈ ls ↔ ls.lookup l.1 = some l.2 := by
  induction ls with
  | nil => simp
  | cons m ls ih =>
    rw [List.map_cons, List.nodup_cons] at hnodup
    obtain ⟨key, value⟩ := l
    rw [List.mem_cons, List.lookup_cons]
    by_cases hkey : key = m.1
    · have hnot : (key, value) ∉ ls := fun hmem =>
        hnodup.1 (List.mem_map.mpr ⟨_, hmem, hkey⟩)
      simp [hkey, Prod.ext_iff, eq_comm, hkey ▸ hnot]
    · have hbeq : (key == m.1) = false := by simpa using hkey
      simp [hkey, hbeq, Prod.ext_iff, ih hnodup.2]

namespace ParamMap

variable {ν : Type} {numberText : ν → Node.JsString} {p q : ParamMap ν}

theorem nodup_lines (p : ParamMap ν) : ((p.lines numberText).map Prod.fst).Nodup := by
  have hkeys : (p.lines numberText).map Prod.fst = p.entries.map Prod.fst := by
    simp [lines, Function.comp_def]
  rw [hkeys]
  exact p.nodup

/-- The lines of a map, in any order, say what the map says of each key. -/
theorem perm_lines_iff : (p.lines numberText).Perm (q.lines numberText) ↔
    ∀ key, p.textOf numberText key = q.textOf numberText key := by
  rw [List.perm_ext_iff_of_nodup (nodup_lines p).of_map (nodup_lines q).of_map]
  constructor
  · intro h key
    refine Option.ext fun value => ?_
    have hp := @mem_iff_lookup (p.lines numberText) (nodup_lines p) (key, value)
    have hq := @mem_iff_lookup (q.lines numberText) (nodup_lines q) (key, value)
    exact hp.symm.trans ((h _).trans hq)
  · intro h l
    rw [mem_iff_lookup (nodup_lines p), mem_iff_lookup (nodup_lines q)]
    exact Eq.congr_left (h l.1)

theorem canonical_eq_iff (hp : p.Plain numberText) (hq : q.Plain numberText) :
    p.canonical numberText = q.canonical numberText ↔
      ∀ key, p.textOf numberText key = q.textOf numberText key := by
  rw [← perm_lines_iff]
  constructor
  · intro h
    exact perm_of_encode_eq hp hq h
  · intro h
    exact encode_perm (nodup_lines p) h

/-- All keys and texts are well-formed. -/
def WellFormed (p : ParamMap ν) (numberText : ν → Node.JsString) : Prop :=
  ∀ l ∈ p.lines numberText, Node.IsText l.1 ∧ Node.IsText l.2

theorem isText_intercalate {ls : List Line}
    (h : ∀ l ∈ ls, Node.IsText l.1 ∧ Node.IsText l.2) :
    Node.IsText ([newline].intercalate (ls.map line)) := by
  have hline : ∀ l ∈ ls, Node.IsText (line l) := by
    intro l hl
    have hequals : Node.IsText [equals] := ⟨"=", by decide⟩
    simpa [line] using (h l hl).1.append (hequals.append (h l hl).2)
  induction ls with
  | nil => exact Node.isText_nil
  | cons l ls ih =>
    cases ls with
    | nil => simpa using hline l (by simp)
    | cons =>
      have hnewline : Node.IsText [newline] := ⟨"\n", by decide⟩
      have htail := ih (fun l hl => h l (by simp [hl])) (fun l hl => hline l (by simp [hl]))
      simpa using (hline l (by simp)).append (hnewline.append htail)

theorem isText_canonical (h : p.WellFormed numberText) : Node.IsText (p.canonical numberText) :=
  isText_intercalate fun l hl => h l (List.mem_mergeSort.mp hl)

/-- Two maps whose keys have no `=` and whose texts have no newline have one encoding
exactly if every key has one text in both. Where the texts are well-formed, this goes for
the bytes that are hashed. -/
theorem params_committed (hp : p.Plain numberText) (hq : q.Plain numberText) :
    (p.canonical numberText = q.canonical numberText ↔
      ∀ key, p.textOf numberText key = q.textOf numberText key) ∧
    (p.WellFormed numberText → q.WellFormed numberText →
      (Node.bufferFrom (p.canonical numberText) = Node.bufferFrom (q.canonical numberText) ↔
        ∀ key, p.textOf numberText key = q.textOf numberText key)) := by
  refine ⟨canonical_eq_iff hp hq, fun hpw hqw => ?_⟩
  rw [Node.bufferFrom_inj (isText_canonical hpw) (isText_canonical hqw), canonical_eq_iff hp hq]

end ParamMap

/-- On text the encoding is that of `canonical`. -/
theorem encode_ofString (params : GameParams) :
    encode (params.map fun p => (ofString p.1, ofString p.2)) = ofString (canonical params) := by
  have hsorted := List.map_mergeSort (r := fun p q : String × String => ofString p.1 ≤ ofString q.1)
    (s := fun l m : Line => l.1 ≤ m.1)
    (f := fun p => (ofString p.1, ofString p.2)) (l := params) fun _ _ _ _ => rfl
  have hequals : ofString "=" = [equals] := by decide
  have hnewline : ofString "\n" = [newline] := by decide
  unfold encode canonical
  rw [← hsorted]
  generalize params.mergeSort (fun p q => decide (ofString p.1 ≤ ofString q.1)) = ps
  induction ps with
  | nil => rfl
  | cons p ps ih =>
    cases ps with
    | nil => simp [line, hequals]
    | cons => simpa [line, hequals, hnewline] using ih

/-- The hash of a map whose texts are well-formed is the one of its texts. -/
theorem ParamMap.gameParamsHash_eq {ν : Type} {numberText : ν → Node.JsString} {p : ParamMap ν}
    {params : GameParams} (sha : Sha)
    (h : p.lines numberText = params.map fun l => (ofString l.1, ofString l.2)) :
    p.gameParamsHash numberText sha = Derive.gameParamsHash sha params := by
  rw [ParamMap.gameParamsHash, ParamMap.canonical, h, encode_ofString, Node.bufferFrom_ofString]
  rfl

namespace Sample

/-- `String(n)` of a small integer -/
def decimal (n : Int) : Node.JsString := ofString (toString n)

/-- `{ target: 50, mode: 'over' }` -/
def dice : ParamMap Int :=
  ⟨[(ofString "target", .number 50), (ofString "mode", .string (ofString "over"))], by decide⟩

/-- The same, written the other way round and with a text for the number. -/
def diceText : ParamMap Int :=
  ⟨[(ofString "mode", .string (ofString "over")), (ofString "target", .string (ofString "50"))],
    by decide⟩

theorem params_committed_dice :
    (dice.canonical decimal = diceText.canonical decimal ↔
      ∀ key, dice.textOf decimal key = diceText.textOf decimal key) ∧
    (Node.bufferFrom (dice.canonical decimal) = Node.bufferFrom (diceText.canonical decimal) ↔
      ∀ key, dice.textOf decimal key = diceText.textOf decimal key) := by
  have hplain : dice.Plain decimal ∧ diceText.Plain decimal := by
    unfold ParamMap.Plain
    decide +kernel
  have hlines : dice.lines decimal = [(ofString "target", ofString "50"),
      (ofString "mode", ofString "over")] := rfl
  have hlines' : diceText.lines decimal = [(ofString "mode", ofString "over"),
      (ofString "target", ofString "50")] := rfl
  have hbytes := (ParamMap.params_committed hplain.1 hplain.2).2
    (by simp [ParamMap.WellFormed, hlines, Node.IsText])
    (by simp [ParamMap.WellFormed, hlines', Node.IsText])
  exact ⟨(ParamMap.params_committed hplain.1 hplain.2).1, hbytes⟩

/-- `{ a: '1\nb=2' }` -/
def joined : ParamMap Int := ⟨[(ofString "a", .string (ofString "1\nb=2"))], by decide⟩

/-- `{ a: '1', b: '2' }` -/
def apart : ParamMap Int :=
  ⟨[(ofString "a", .string (ofString "1")), (ofString "b", .string (ofString "2"))], by decide⟩

/-- `{ a: 1 }` -/
def asNumber : ParamMap Int := ⟨[(ofString "a", .number 1)], by decide⟩

/-- `{ a: '1' }` -/
def asString : ParamMap Int := ⟨[(ofString "a", .string (ofString "1"))], by decide⟩

theorem params_collide :
    joined.canonical decimal = apart.canonical decimal ∧
    joined.textOf decimal (ofString "b") ≠ apart.textOf decimal (ofString "b") ∧
    asNumber.canonical decimal = asString.canonical decimal ∧
    asNumber.entries ≠ asString.entries := by
  unfold ParamMap.canonical
  rw [encode_of_sorted (joined.lines decimal) (by decide +kernel),
    encode_of_sorted (apart.lines decimal) (by decide +kernel),
    encode_of_sorted (asNumber.lines decimal) (by decide +kernel),
    encode_of_sorted (asString.lines decimal) (by decide +kernel)]
  decide +kernel

end Sample

end Scadium.Fair.Derive
