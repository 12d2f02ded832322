/-
Scadium.Programs.Derivations — the derivations of `scadium_lottery` and
`scadium_rng` byte for byte, against those of the API
(`derive_numbers`, `derive_entropy`, `chain.service.ts`).

The programs fill a fixed buffer slice by slice and hash it; `none` is a
panic. The API feeds the same parts to the digest one after the other. With
one SHA-256 for both, the programs never panic and both sides end with the
same bytes and digits.
-/
import Scadium.Fair.Node
import Scadium.Programs.Rng

namespace Scadium.Programs

open Scadium.Lib Scadium.Fair

/-! ## The programs -/

/-- `sha256(data).to_bytes()` -/
def sha256 (sha : Sha) (data : List UInt8) : Vector UInt8 32 :=
  ⟨(bytes32 (sha.sha256 data)).toArray, by simp⟩

@[simp] theorem toList_sha256 (sha : Sha) (data : List UInt8) :
    (sha256 sha data).toList = bytes32 (sha.sha256 data) := rfl

namespace Lottery

/-- First eight bytes of `sha256(entropy ‖ tag)`, as a big-endian `u64`. -/
def roll (sha : Sha) (entropy : Vector UInt8 32) (tag : List UInt8) : Option UInt64 := do
  let m ← copyFromSlice (zeroed 34) 0 32 entropy.toList
  let m ← copyFromSlice m 32 (32 + tag.length) tag
  let h := sha256 sha (m.toList.take (32 + tag.length))
  pure (fromBeBytes (h.toList.take 8))

/-- `(roll(&[0x64, i as u8]) % 10) as u8` -/
def digit (sha : Sha) (entropy : Vector UInt8 32) (i : Nat) : Option UInt8 := do
  let r ← roll sha entropy [0x64, UInt8.ofNat i]
  pure (r % 10).toUInt8

def derive_numbers (sha : Sha) (server_seed : Vector UInt8 64) (slot_hash : Vector UInt8 32)
    (client_seed : Vector UInt8 32) (nonce : UInt32) :
    Option (Vector UInt8 32 × List UInt8) := do
  let buf ← copyFromSlice (zeroed 132) 0 64 server_seed.toList
  let buf ← copyFromSlice buf 64 96 slot_hash.toList
  let buf ← copyFromSlice buf 96 128 client_seed.toList
  let buf ← copyFromSlice buf 128 132 (toLeBytes nonce)
  let entropy := sha256 sha buf.toList
  let digits ← (List.range 6).mapM (digit sha entropy)
  pure (entropy, digits)

end Lottery

namespace Rng.Bytes

def derive_entropy (sha : Sha) (server_seed : Vector UInt8 64) (slot_hash : Vector UInt8 32)
    (client_seed : Vector UInt8 32) (nonce : UInt32) (game_params_hash : Vector UInt8 32) :
    Option (Vector UInt8 32) := do
  let buf ← copyFromSlice (zeroed 164) 0 64 server_seed.toList
  let buf ← copyFromSlice buf 64 96 slot_hash.toList
  let buf ← copyFromSlice buf 96 128 client_seed.toList
  let buf ← copyFromSlice buf 128 132 (toLeBytes nonce)
  let buf ← copyFromSlice buf 132 164 game_params_hash.toList
  pure (sha256 sha buf.toList)

end Rng.Bytes

/-! ## The API -/

/-- The client seed an instruction carries: `Buffer.alloc(32)`, and
`Buffer.from(clientSeedHex, 'utf8').copy(clientSeed)`. -/
def clientSeedArg (clientSeed : Node.JsString) : List UInt8 :=
  Node.copy (Node.bufferFrom clientSeed) (Node.alloc 32) (Node.bufferFrom clientSeed).length

/-- The instruction carries what the API derives from. -/
theorem clientSeedArg_eq (clientSeed : Node.JsString) :
    clientSeedArg clientSeed = Node.padClientSeed32 clientSeed := by
  have hcount : min (min 32 (Node.bufferFrom clientSeed).length) 32 =
      min (min (Node.bufferFrom clientSeed).length (Node.bufferFrom clientSeed).length) 32 := by
    omega
  simp only [clientSeedArg, Node.padClientSeed32, Node.copy, Node.alloc, List.length_replicate,
    hcount]

/-! ## Bytes -/

theorem byte_eq (x : UInt32) (n : UInt32) (k : Nat) (h : n.toNat % 32 = 8 * k) :
    (x >>> n).toUInt8 = UInt8.ofNat (x.toNat / 256 ^ k) := by
  have hpow : 2 ^ (8 * k) = 256 ^ k := by rw [Nat.pow_mul]
  refine UInt8.toNat_inj.mp ?_
  rw [UInt32.toNat_toUInt8, UInt32.toNat_shiftRight, UInt8.toNat_ofNat', h,
    Nat.shiftRight_eq_div_pow, hpow]

theorem toLeBytes_eq (nonce : UInt32) : toLeBytes nonce = u32le nonce.toNat := by
  have hlt : nonce.toNat < 2 ^ 32 := nonce.toNat_lt
  have hfirst : nonce.toUInt8 = UInt8.ofNat (nonce.toNat / 256 ^ 0) := by
    refine UInt8.toNat_inj.mp ?_
    rw [UInt32.toNat_toUInt8, UInt8.toNat_ofNat', Nat.pow_zero, Nat.div_one]
  simp only [toLeBytes, u32le, Nat.mod_eq_of_lt hlt, List.range, List.range.loop, List.map_cons,
    List.map_nil, hfirst, byte_eq nonce 8 1 rfl, byte_eq nonce 16 2 rfl, byte_eq nonce 24 3 rfl]

/-! ## The programs do not panic -/

namespace Lottery

/-- A roll hashes the entropy and the tag. -/
theorem roll_eq (sha : Sha) (entropy : Vector UInt8 32) {tag : List UInt8}
    (h : tag.length ≤ 2) : roll sha entropy tag =
      some (fromBeBytes ((Node.digest sha [entropy.toList, tag]).take 8)) := by
  obtain ⟨m, hm, hfilled⟩ := (filled_zeroed 34).copyFromSlice 0 32 entropy.toList rfl (by simp)
    (by omega)
  obtain ⟨m', hm', hfilled'⟩ := hfilled.copyFromSlice 32 (32 + tag.length) tag (by simp) rfl
    (by omega)
  have hbytes : m'.toList.take (32 + tag.length) = entropy.toList ++ tag := by
    have htake := hfilled'
    simp only [Filled, List.nil_append, List.length_append, Vector.length_toList] at htake
    exact htake
  simp only [roll, hm, hm', Option.bind_eq_bind, Option.bind_some, hbytes, toList_sha256]
  simp [Node.digest]

/-- A roll's digit, folded in 64 bits and cut to a byte, is that of the whole
number. -/
theorem digit_eq (sha : Sha) (entropy : Vector UInt8 32) (i : Nat) :
    ∃ d, digit sha entropy i = some d ∧
      d.toNat = Node.roll sha entropy.toList [0x64, UInt8.ofNat i] % Node.LOTTERY_DIGIT_MAX := by
  refine ⟨_, by rw [digit, roll_eq _ _ (by simp)]; rfl, ?_⟩
  have hten : (10 : UInt64).toNat = 10 := rfl
  rw [UInt64.toNat_toUInt8, UInt64.toNat_mod, fromBeBytes_toNat (by simp), hten, Node.roll,
    Node.LOTTERY_DIGIT_MAX]
  omega

/-- The loop over the digits. -/
theorem digits_eq (sha : Sha) (entropy : Vector UInt8 32) (is : List Nat) :
    ∃ digits, is.mapM (digit sha entropy) = some digits ∧ digits.map UInt8.toNat =
      is.map fun i => Node.roll sha entropy.toList [0x64, UInt8.ofNat i] %
        Node.LOTTERY_DIGIT_MAX := by
  induction is with
  | nil => exact ⟨[], rfl, rfl⟩
  | cons i is ih =>
    obtain ⟨d, hd, hvalue⟩ := digit_eq sha entropy i
    obtain ⟨digits, hdigits, hvalues⟩ := ih
    refine ⟨d :: digits, ?_, by simp [hvalue, hvalues]⟩
    simp [List.mapM_cons, hd, hdigits]

end Lottery

section

variable (sha : Sha) (server_seed : Vector UInt8 64)
variable (slot_hash client_seed game_params_hash : Vector UInt8 32) (nonce : UInt32)

/-- The bytes both programs hash first. -/
def preimage : List UInt8 :=
  server_seed.toList ++ slot_hash.toList ++ client_seed.toList ++ toLeBytes nonce

@[simp] theorem length_preimage :
    (preimage server_seed slot_hash client_seed nonce).length = 132 := by
  simp [preimage]

/-- The four slices fill the buffer up to byte 132. -/
theorem filled_preimage {n : Nat} (hn : 132 ≤ n) : ∃ b₁ b₂ b₃ b₄,
    copyFromSlice (zeroed n) 0 64 server_seed.toList = some b₁ ∧
    copyFromSlice b₁ 64 96 slot_hash.toList = some b₂ ∧
    copyFromSlice b₂ 96 128 client_seed.toList = some b₃ ∧
    copyFromSlice b₃ 128 132 (toLeBytes nonce) = some b₄ ∧
    Filled b₄ (preimage server_seed slot_hash client_seed nonce) := by
  obtain ⟨b₁, h₁, hfilled⟩ := (filled_zeroed n).copyFromSlice 0 64 server_seed.toList rfl
    (by simp) (by omega)
  obtain ⟨b₂, h₂, hfilled⟩ := hfilled.copyFromSlice 64 96 slot_hash.toList (by simp) (by simp)
    (by omega)
  obtain ⟨b₃, h₃, hfilled⟩ := hfilled.copyFromSlice 96 128 client_seed.toList (by simp) (by simp)
    (by omega)
  obtain ⟨b₄, h₄, hfilled⟩ := hfilled.copyFromSlice 128 132 (toLeBytes nonce) (by simp) (by simp)
    (by omega)
  exact ⟨b₁, b₂, b₃, b₄, h₁, h₂, h₃, h₄, hfilled⟩

/-- `derive_numbers` hashes the preimage, and rolls six times. -/
theorem Lottery.derive_numbers_eq :
    ∃ entropy digits, derive_numbers sha server_seed slot_hash client_seed nonce =
        some (entropy, digits) ∧
      entropy.toList = Node.digest sha [preimage server_seed slot_hash client_seed nonce] ∧
      digits.map UInt8.toNat = Node.drawDigits sha entropy.toList := by
  obtain ⟨_, _, _, b₄, h₁, h₂, h₃, h₄, hfilled⟩ :=
    filled_preimage server_seed slot_hash client_seed nonce (le_refl 132)
  have hall := hfilled.eq (length_preimage ..)
  obtain ⟨digits, hdigits, hvalues⟩ := digits_eq sha (sha256 sha b₄.toList) (List.range 6)
  refine ⟨sha256 sha b₄.toList, digits, ?_, ?_, hvalues⟩
  · simp [derive_numbers, h₁, h₂, h₃, h₄, hdigits]
  · simp [hall, Node.digest]

/-- `derive_entropy` hashes the preimage and the hash of the parameters. -/
theorem Rng.Bytes.derive_entropy_eq :
    ∃ entropy, derive_entropy sha server_seed slot_hash client_seed nonce game_params_hash =
        some entropy ∧
      entropy.toList = Node.digest sha
        [preimage server_seed slot_hash client_seed nonce, game_params_hash.toList] := by
  obtain ⟨_, _, _, _, h₁, h₂, h₃, h₄, hfilled⟩ :=
    filled_preimage server_seed slot_hash client_seed nonce (Nat.le_of_ble_eq_true rfl : 132 ≤ 164)
  obtain ⟨b₅, h₅, hfull⟩ := hfilled.copyFromSlice 132 164 game_params_hash.toList (by simp)
    (by simp) (by omega)
  have hall := hfull.eq (by simp)
  refine ⟨sha256 sha b₅.toList, ?_, ?_⟩
  · simp [derive_entropy, h₁, h₂, h₃, h₄, h₅]
  · simp [hall, Node.digest]

/-! ## Both sides -/

/-- The API's digest, over the same parts. -/
theorem digest_preimage {serverSeed : Node.JsString} (hascii : ∀ u ∈ serverSeed, u.toNat < 128)
    (hseed : server_seed.toList = serverSeed.map (·.toUInt8)) (rest : List (List UInt8)) :
    Node.digest sha ([Node.bufferFrom serverSeed, slot_hash.toList, client_seed.toList,
        u32le nonce.toNat] ++ rest) =
      Node.digest sha (preimage server_seed slot_hash client_seed nonce :: rest) := by
  rw [Node.bufferFrom_ascii hascii, ← hseed, ← toLeBytes_eq]
  simp [Node.digest, preimage]

/-- The list-based fold of `Scadium.Programs.Rng` is the buffer's. -/
theorem Rng.derive_entropy_bytes (slot game_params : Prisma.Bytes32) {client : List UInt8}
    (hslot : slot_hash.toList = bytes32 slot)
    (hparams : game_params_hash.toList = bytes32 game_params)
    (hclient : client_seed.toList = client) :
    (Rng.Bytes.derive_entropy sha server_seed slot_hash client_seed nonce game_params_hash).map
        Vector.toList =
      some (bytes32 (derive_entropy sha server_seed.toList slot client nonce.toNat
        game_params)) := by
  obtain ⟨_, hentropy, hbytes⟩ := Rng.Bytes.derive_entropy_eq sha server_seed slot_hash
    client_seed game_params_hash nonce
  rw [hentropy, Option.map_some, hbytes]
  simp [Node.digest, preimage, derive_entropy, hslot, hparams, hclient, toLeBytes_eq]

end

/-- Rust and TypeScript derive the same bytes and the same digits: from a seed
of 64 ASCII characters, a slot hash, a client seed of 32 bytes and a nonce.
And the client seed an instruction carries is the one the API derives from,
whatever the string. -/
theorem derivations_agree (sha : Sha) {serverSeed : Node.JsString} {server_seed : Vector UInt8 64}
    (hascii : ∀ u ∈ serverSeed, u.toNat < 128)
    (hseed : server_seed.toList = serverSeed.map (·.toUInt8))
    (slot_hash client_seed game_params_hash : Vector UInt8 32) (nonce : UInt32) :
    (∃ entropy digits encoded,
      Lottery.derive_numbers sha server_seed slot_hash client_seed nonce =
        some (entropy, digits) ∧
      Node.lotteryFinalEntropy sha serverSeed client_seed.toList slot_hash.toList nonce.toNat =
        .ok entropy.toList ∧
      Node.lotteryDraw sha serverSeed client_seed.toList slot_hash.toList nonce.toNat =
        .ok ⟨digits.map UInt8.toNat, encoded⟩) ∧
    (∃ entropy,
      Rng.Bytes.derive_entropy sha server_seed slot_hash client_seed nonce game_params_hash =
        some entropy ∧
      Node.rngEntropy sha serverSeed client_seed.toList slot_hash.toList nonce.toNat
        game_params_hash.toList = .ok entropy.toList) ∧
    ∀ clientSeed, clientSeedArg clientSeed = Node.padClientSeed32 clientSeed := by
  refine ⟨?_, ?_, clientSeedArg_eq⟩
  · obtain ⟨entropy, digits, hnumbers, hbytes, hdigits⟩ :=
      Lottery.derive_numbers_eq sha server_seed slot_hash client_seed nonce
    have hfinal : Node.lotteryFinalEntropy sha serverSeed client_seed.toList slot_hash.toList
        nonce.toNat = .ok entropy.toList := by
      rw [Node.lotteryFinalEntropy_ok _ (by simp) (by simp), hbytes]
      exact congrArg _ (digest_preimage sha server_seed slot_hash client_seed nonce hascii hseed [])
    obtain ⟨encoded, hdraw⟩ := Node.lotteryDraw_ok hfinal
    exact ⟨entropy, digits, encoded, hnumbers, hfinal, by rw [hdraw, hdigits]⟩
  · obtain ⟨entropy, hentropy, hbytes⟩ := Rng.Bytes.derive_entropy_eq sha server_seed slot_hash
      client_seed game_params_hash nonce
    refine ⟨entropy, hentropy, ?_⟩
    rw [Node.rngEntropy_ok _ (by simp) (by simp) (by simp), hbytes]
    exact congrArg _ (digest_preimage sha server_seed slot_hash client_seed nonce hascii hseed
      [game_params_hash.toList])

namespace Sample

/-- A digest that depends on every byte. -/
def mixer : Sha where
  sha256 bytes := BitVec.ofNat 256
    ((bytes.foldl (fun acc b => acc * 1031 + b.toNat + 1) 7) * 2 ^ 190)
  hmacSha256 _ _ := 0

def seedText : Node.JsString := List.replicate 64 0x61

theorem seedText_ascii : ∀ u ∈ seedText, u.toNat < 128 := by
  intro u hu
  rw [List.eq_of_mem_replicate hu]
  decide

def seedBytes : Vector UInt8 64 := Vector.replicate 64 0x61

def slotBytes : Vector UInt8 32 := Vector.replicate 32 9

/-- The bytes of the client seed `é€`, padded. -/
def clientBytes : Vector UInt8 32 :=
  ⟨(clientSeedArg [0xE9, 0x20AC]).toArray, by decide +kernel⟩

end Sample

theorem derivations_agree_sample :
    (∃ entropy digits encoded,
      Lottery.derive_numbers Sample.mixer Sample.seedBytes Sample.slotBytes Sample.clientBytes 7 =
        some (entropy, digits) ∧
      Node.lotteryFinalEntropy Sample.mixer Sample.seedText Sample.clientBytes.toList
        Sample.slotBytes.toList 7 = .ok entropy.toList ∧
      Node.lotteryDraw Sample.mixer Sample.seedText Sample.clientBytes.toList
        Sample.slotBytes.toList 7 = .ok ⟨digits.map UInt8.toNat, encoded⟩) ∧
    Sample.clientBytes.toList.take 6 = [0xC3, 0xA9, 0xE2, 0x82, 0xAC, 0] :=
  ⟨(derivations_agree Sample.mixer Sample.seedText_ascii (by decide +kernel) Sample.slotBytes
    Sample.clientBytes Sample.slotBytes 7).1, by decide +kernel⟩

end Scadium.Programs
