/-
Scadium.Users.Wallets — the wallets of the accounts (`auth/auth.service.ts`,
`users/users.service.ts`), and why a wallet has one owner.

An account has a primary wallet, a unique column of its row, and linked
wallets, rows of a table with a unique address. A call is what a sign-up or
one of the three wallet endpoints has still to do; each of its statements is
one step, and the swap of `setPrimaryWallet` is one transaction. A unique
column refuses a write that would repeat a value. What keeps the two columns
apart is only read, before the write that relies on it.

- Columns: with unique primary wallets, a wallet has one owner exactly if no
  primary wallet is a linked one.
- Writes: what a step can do, one lemma for each write.
- Placeholders: the wallet of a Privy account without one is no base58 text, so
  it stays with that account, whoever links what.
- Steps: a write keeps the columns apart exactly if it finds what its call has
  read; the checks of the call say what that was.
- Runs: so an address stays with one owner exactly as long as nobody writes
  between the reads of a call and its write (`one_owner_iff`).

Left out: what a sign-up stores about referrals and mail addresses, and the
list of wallets an endpoint answers with.
-/
import Scadium.Lib.Calls
import Scadium.Custody.DepositTheorems
import Scadium.Solana.VaultEvents

namespace Scadium.Users

open Scadium.Lib Scadium.Prisma Scadium.Custody
open Scadium.Solana (base58 colon_notMem_base58)

structure Account where
  walletAddress : Address
  privyUserId : Option String
  banned : Bool
  deriving DecidableEq

structure Wallets where
  users : Table UserId Account
  linked : Table Address UserId

/-- `bs58.decode` takes the text. -/
def decodes (address : Address) : Bool := address.toList.all fun c => base58.contains c

/-- The wallet of an account without one. -/
def placeholder (privyUserId : String) : Address := "privy:" ++ privyUserId

/-- What the environment answers in a step. -/
structure Answer where
  /-- the signature or the token is good -/
  verified : Bool
  /-- the id of a new row -/
  newId : UserId

/-- What a call has still to do. A `read` is the owner that its last look at the
other table has found. -/
inductive Call where
  /-- `upsertUser` -/
  | signIn (walletAddress : Address)
  | signInLinked (walletAddress : Address)
  | createUser (walletAddress : Address) (read : Option UserId)
  /-- `upsertPrivyUser`; Privy tells the address of a Solana wallet, if any -/
  | privy (privyUserId : String) (solanaAddress : Option Address)
  | privyLinked (privyUserId : String) (solanaAddress : Address)
  | createPrivy (privyUserId : String) (solanaAddress : Option Address) (read : Option UserId)
  /-- `linkWallet` -/
  | link (userId : UserId) (address : Address)
  | linkPrimary (userId : UserId) (address : Address)
  | linkLinked (userId : UserId) (address : Address) (read : Option UserId)
  | createLink (userId : UserId) (address : Address) (read : Option UserId)
  /-- `setPrimaryWallet` -/
  | setPrimary (userId : UserId) (address : Address)
  | swap (userId : UserId) (address old : Address)
  /-- `unlinkWallet` -/
  | unlink (userId : UserId) (address : Address)
  | deleteLink (address : Address)
  /-- an administrator -/
  | setBanned (userId : UserId) (banned : Bool)
  deriving DecidableEq

def Call.isEntry : Call → Bool
  | .privy _ solanaAddress => solanaAddress.all decodes
  | .signIn .. | .link .. | .setPrimary .. | .unlink .. | .setBanned .. => true
  | _ => false

namespace Wallets

variable (w : Wallets)

/-- `user.findUnique({ where: { walletAddress } })` -/
def findPrimary (address : Address) : Option (UserId × Account) :=
  w.users.find fun _ account => account.walletAddress == address

/-- The account whose primary wallet it is. -/
def primaryOwner (address : Address) : Option UserId := (w.findPrimary address).map Prod.fst

/-- `user.findUnique({ where: { privyUserId } })` -/
def findPrivy (privyUserId : String) : Option (UserId × Account) :=
  w.users.find fun _ account => account.privyUserId == some privyUserId

/-- `user.create`; `none` if a unique column refuses it. -/
def create (newId : UserId) (account : Account) : Option Wallets :=
  if (w.findPrimary account.walletAddress).isSome then none
  else if account.privyUserId.any fun privyUserId => (w.findPrivy privyUserId).isSome then none
  else some { w with users := w.users.set newId account }

/-- `linkedWallet.create`. -/
def createLink (userId : UserId) (address : Address) : Option Wallets :=
  match w.linked.get address with
  | some _ => none
  | none => some { w with linked := w.linked.set address userId }

/-- `user.update({ data: { walletAddress } })`. -/
def updatePrimary (userId : UserId) (address : Address) : Option Wallets :=
  match w.users.get userId with
  | none => none
  | some account =>
      match w.users.find fun u other => u != userId && other.walletAddress == address with
      | some _ => none
      | none =>
          some { w with users := w.users.set userId { account with walletAddress := address } }

/-- The transaction of `setPrimaryWallet`, with the primary wallet `old` that
was read before it. -/
def swap (userId : UserId) (address old : Address) : Option Wallets :=
  -- the delete is scoped by the owner
  if w.linked.get address = some userId then do
    let w ← createLink { w with linked := w.linked.erase address } userId old
    w.updatePrimary userId address
  else none

end Wallets

/-- The account is there, and it is not banned. -/
def Wallets.standing (w : Wallets) (userId : UserId) : Option Account :=
  (w.users.get userId).filter fun account => !account.banned

/-- One step of a call. A write that is refused ends the call. -/
def Call.step (w : Wallets) (answer : Answer) : Call → Option (Wallets × Option Call)
  | .signIn walletAddress =>
      if answer.verified ∧ decodes walletAddress ∧ w.findPrimary walletAddress = none then
        some (w, some (.signInLinked walletAddress))
      else some (w, none)
  | .signInLinked walletAddress =>
      let read := w.linked.get walletAddress
      if read.isSome then some (w, none) else some (w, some (.createUser walletAddress read))
  | .createUser walletAddress _ =>
      match w.users.get answer.newId with
      | some _ => none
      | none => some ((w.create answer.newId ⟨walletAddress, none, false⟩).getD w, none)
  | .privy privyUserId solanaAddress =>
      if answer.verified ∧ w.findPrivy privyUserId = none then
        match solanaAddress with
        | some address => some (w, some (.privyLinked privyUserId address))
        | none => some (w, some (.createPrivy privyUserId none none))
      else some (w, none)
  | .privyLinked privyUserId solanaAddress =>
      let read := w.linked.get solanaAddress
      if read.isSome then some (w, none)
      else some (w, some (.createPrivy privyUserId (some solanaAddress) read))
  | .createPrivy privyUserId solanaAddress _ =>
      match w.users.get answer.newId with
      | some _ => none
      | none =>
          let walletAddress := solanaAddress.getD (placeholder privyUserId)
          some ((w.create answer.newId ⟨walletAddress, some privyUserId, false⟩).getD w, none)
  | .link userId address =>
      match w.standing userId with
      | none => some (w, none)
      | some me =>
          if answer.verified ∧ decodes address ∧ me.walletAddress ≠ address then
            some (w, some (.linkPrimary userId address))
          else some (w, none)
  | .linkPrimary userId address =>
      let read := w.primaryOwner address
      if read.isSome then some (w, none) else some (w, some (.linkLinked userId address read))
  | .linkLinked userId address read =>
      match w.linked.get address with
      | some _ => some (w, none)
      | none => some (w, some (.createLink userId address read))
  | .createLink userId address _ => some ((w.createLink userId address).getD w, none)
  | .setPrimary userId address =>
      match w.standing userId with
      | none => some (w, none)
      | some me =>
          if me.walletAddress = address then some (w, none)
          else some (w, some (.swap userId address me.walletAddress))
  | .swap userId address old => some ((w.swap userId address old).getD w, none)
  | .unlink userId address =>
      if w.linked.get address = some userId then some (w, some (.deleteLink address))
      else some (w, none)
  | .deleteLink address => some ({ w with linked := w.linked.erase address }, none)
  | .setBanned userId banned =>
      match w.users.get userId with
      | none => some (w, none)
      | some account =>
          some ({ w with users := w.users.set userId { account with banned := banned } }, none)

def service : Calls.Service Wallets Call Answer where
  begins _ call := call.isEntry
  step := fun w answer call => call.step w answer

/-- No account. -/
def Wallets.initial : Wallets := ⟨.empty, .empty⟩

/-! ## Owners -/

variable {w w' : Wallets} {answer : Answer} {call : Call} {rest : Option Call}
  {userId : UserId} {address old : Address} {account : Account}

/-- The address is the primary or a linked wallet of the account. -/
def Wallets.Owns (w : Wallets) (userId : UserId) (address : Address) : Prop :=
  (∃ account, w.users.get userId = some account ∧ account.walletAddress = address) ∨
    w.linked.get address = some userId

/-- No address has two owners, and no account has one twice. -/
structure Wallets.OneOwner (w : Wallets) : Prop where
  unique : ∀ u v address, w.Owns u address → w.Owns v address → u = v
  apart : ∀ u account, w.users.get u = some account →
    w.linked.get account.walletAddress ≠ some u

/-! ## Columns -/

/-- The primary wallets are a unique column. -/
def Wallets.Primaries (w : Wallets) : Prop :=
  ∀ u v a b, w.users.get u = some a → w.users.get v = some b →
    a.walletAddress = b.walletAddress → u = v

/-- No primary wallet is a linked one. -/
def Wallets.Apart (w : Wallets) : Prop :=
  ∀ u account, w.users.get u = some account → w.linked.get account.walletAddress = none

theorem oneOwner_iff (h : w.Primaries) : w.OneOwner ↔ w.Apart := by
  constructor
  · intro hone u account hu
    cases hlinked : w.linked.get account.walletAddress with
    | none => rfl
    | some v =>
      have hv : u = v := hone.unique u v _ (.inl ⟨account, hu, rfl⟩) (.inr hlinked)
      subst hv
      exact absurd hlinked (hone.apart u account hu)
  · intro hapart
    refine ⟨?_, ?_⟩
    · rintro u v _ (⟨a, hu, rfl⟩ | hu) (⟨b, hv, hb⟩ | hv)
      · exact h u v a b hu hv hb.symm
      · rw [hapart u a hu] at hv
        cases hv
      · rw [← hb, hapart v b hv] at hu
        cases hu
      · rw [hu] at hv
        exact Option.some.inj hv
    · intro u account hu hlinked
      rw [hapart u account hu] at hlinked
      cases hlinked

theorem primaryOwner_eq (h : w.Primaries) :
    w.primaryOwner address = some userId ↔
      ∃ account, w.users.get userId = some account ∧ account.walletAddress = address := by
  constructor
  · intro howner
    obtain ⟨⟨u, account⟩, hfind, rfl⟩ := Option.map_eq_some_iff.mp howner
    obtain ⟨hget, haddress⟩ := w.users.find_some hfind
    exact ⟨account, hget, by simpa using haddress⟩
  · rintro ⟨account, hget, rfl⟩
    cases hfind : w.findPrimary account.walletAddress with
    | none =>
      have hnone := w.users.find_none.mp hfind userId account hget
      simp at hnone
    | some p =>
      obtain ⟨hp, haddress⟩ := w.users.find_some hfind
      have hsame := h p.1 userId p.2 account hp hget (by simpa using haddress)
      rw [Wallets.primaryOwner, hfind, Option.map_some, hsame]

theorem findPrimary_none :
    w.findPrimary address = none ↔ ∀ u account, w.users.get u = some account →
      account.walletAddress ≠ address := by
  simp [Wallets.findPrimary, Table.find_none]

/-- A row that is new to the column. -/
theorem Wallets.Primaries.set (h : w.Primaries)
    (hnew : ∀ v b, w.users.get v = some b → v ≠ userId → b.walletAddress ≠ account.walletAddress) :
    Wallets.Primaries { w with users := w.users.set userId account } := by
  have hcases : ∀ v b, (w.users.set userId account).get v = some b →
      v = userId ∧ account = b ∨ v ≠ userId ∧ w.users.get v = some b := by
    intro v b hv
    by_cases hne : v = userId
    · subst hne
      rw [Table.get_set_self] at hv
      exact .inl ⟨rfl, Option.some.inj hv⟩
    · rw [Table.get_set_ne _ hne] at hv
      exact .inr ⟨hne, hv⟩
  intro u v a b hu hv heq
  rcases hcases u a hu with ⟨hu', ha⟩ | ⟨hu', hu⟩ <;>
    rcases hcases v b hv with ⟨hv', hb⟩ | ⟨hv', hv⟩
  · rw [hu', hv']
  · rw [ha] at hnew
    exact absurd heq.symm (hnew v b hv hv')
  · rw [hb] at hnew
    exact absurd heq (hnew u a hu hu')
  · exact h u v a b hu hv heq

/-! ## Writes -/

theorem create_ok {newId : UserId} (h : w.create newId account = some w') :
    w.findPrimary account.walletAddress = none ∧
      w' = { w with users := w.users.set newId account } := by
  unfold Wallets.create at h
  split at h
  · cases h
  · rename_i hprimary
    split at h
    · cases h
    · cases h
      exact ⟨by simpa using hprimary, rfl⟩

theorem createLink_ok (h : w.createLink userId address = some w') :
    w.linked.get address = none ∧ w' = { w with linked := w.linked.set address userId } := by
  unfold Wallets.createLink at h
  split at h
  · cases h
  · rename_i hfree
    cases h
    exact ⟨hfree, rfl⟩

theorem swap_ok (h : w.swap userId address old = some w') :
    w.linked.get address = some userId ∧ ∃ account, w.users.get userId = some account ∧
      (∀ v b, w.users.get v = some b → v ≠ userId → b.walletAddress ≠ address) ∧
      w' = ⟨w.users.set userId { account with walletAddress := address },
        (w.linked.erase address).set old userId⟩ := by
  unfold Wallets.swap at h
  split at h
  · rename_i howned
    obtain ⟨_, hlink, hupdate⟩ := Option.bind_eq_some_iff.mp h
    obtain ⟨-, rfl⟩ := createLink_ok hlink
    unfold Wallets.updatePrimary at hupdate
    split at hupdate
    · cases hupdate
    · rename_i account haccount
      split at hupdate
      · cases hupdate
      · rename_i hother
        cases hupdate
        refine ⟨howned, account, haccount, ?_, rfl⟩
        intro v b hv hne
        have hnone := w.users.find_none.mp hother v b hv
        simpa [hne] using hnone
  · cases h

/-- What a step can do. A write that is refused changes nothing. -/
inductive Moves (w : Wallets) (newId : UserId) : Call → Wallets → Prop where
  | stays (call : Call) : Moves w newId call w
  | createUser (address : Address) (read : Option UserId) {w' : Wallets}
      (hnew : w.users.get newId = none) (h : w.create newId ⟨address, none, false⟩ = some w') :
      Moves w newId (.createUser address read) w'
  | createPrivy (id : String) (solanaAddress : Option Address) (read : Option UserId)
      {w' : Wallets} (hnew : w.users.get newId = none)
      (h : w.create newId ⟨solanaAddress.getD (placeholder id), some id, false⟩ = some w') :
      Moves w newId (.createPrivy id solanaAddress read) w'
  | createLink (userId : UserId) (address : Address) (read : Option UserId) {w' : Wallets}
      (h : w.createLink userId address = some w') : Moves w newId (.createLink userId address read) w'
  | swap (userId : UserId) (address old : Address) {w' : Wallets}
      (h : w.swap userId address old = some w') : Moves w newId (.swap userId address old) w'
  | deleteLink (address : Address) :
      Moves w newId (.deleteLink address) { w with linked := w.linked.erase address }
  | setBanned (userId : UserId) (banned : Bool) (account : Account)
      (h : w.users.get userId = some account) :
      Moves w newId (.setBanned userId banned)
        { w with users := w.users.set userId { account with banned := banned } }

theorem step_moves (h : call.step w answer = some (w', rest)) : Moves w answer.newId call w' := by
  have hread : ∀ {r : Option Call}, some (w, r) = some (w', rest) →
      Moves w answer.newId call w' := by
    intro r heq
    cases heq
    exact .stays call
  have hwrite : ∀ {o : Option Wallets}, some (o.getD w, none) = some (w', rest) →
      (o = some w' → Moves w answer.newId call w') → Moves w answer.newId call w' := by
    intro o heq hgoes
    cases o with
    | none => exact hread heq
    | some =>
      cases heq
      exact hgoes rfl
  cases call with
  | createUser address read =>
    simp only [Call.step] at h
    split at h
    · cases h
    · rename_i hnew
      exact hwrite h (.createUser address read hnew)
  | createPrivy id solanaAddress read =>
    simp only [Call.step] at h
    split at h
    · cases h
    · rename_i hnew
      exact hwrite h (.createPrivy id solanaAddress read hnew)
  | createLink userId address read => exact hwrite h (.createLink userId address read)
  | swap userId address old => exact hwrite h (.swap userId address old)
  | deleteLink address =>
    cases h
    exact .deleteLink address
  | setBanned userId banned =>
    simp only [Call.step] at h
    split at h
    · exact hread h
    · rename_i account haccount
      cases h
      exact .setBanned userId banned account haccount
  | signIn walletAddress | link userId address | setPrimary userId address
  | privy privyUserId solanaAddress | signInLinked walletAddress
  | privyLinked privyUserId solanaAddress | linkPrimary userId address
  | linkLinked userId address read | unlink userId address =>
    simp only [Call.step] at h
    repeat' split at h
    all_goals exact hread h

theorem Moves.primaries {newId : UserId} (h : Moves w newId call w') (hw : w.Primaries) :
    w'.Primaries := by
  cases h with
  | stays => exact hw
  | createUser address read hnew h | createPrivy id solanaAddress read hnew h =>
    obtain ⟨hnone, rfl⟩ := create_ok h
    exact hw.set fun v b hb _ => findPrimary_none.mp hnone v b hb
  | createLink userId address read h =>
    obtain ⟨-, rfl⟩ := createLink_ok h
    exact hw
  | swap userId address old h =>
    obtain ⟨-, account, -, hother, rfl⟩ := swap_ok h
    exact Wallets.Primaries.set (w := w) hw hother
  | deleteLink => exact hw
  | setBanned userId banned account haccount =>
    exact hw.set fun v b hb hv heq => hv (hw v userId b account hb haccount heq)

/-! ## Placeholders -/

/-- An account keeps the Privy id it was created with. -/
def Keeps (w w' : Wallets) : Prop :=
  ∀ u a, w.users.get u = some a →
    ∃ a', w'.users.get u = some a' ∧ a'.privyUserId = a.privyUserId

theorem Keeps.refl (w : Wallets) : Keeps w w := fun _ a ha => ⟨a, ha, rfl⟩

theorem Keeps.set {linked : Table Address UserId}
    (h : ∀ a, w.users.get userId = some a → account.privyUserId = a.privyUserId) :
    Keeps w ⟨w.users.set userId account, linked⟩ := by
  intro u a ha
  by_cases hu : u = userId
  · subst hu
    exact ⟨account, Table.get_set_self _, h a ha⟩
  · exact ⟨a, (Table.get_set_ne _ hu).trans ha, rfl⟩

theorem Moves.keeps {newId : UserId} (h : Moves w newId call w') : Keeps w w' := by
  cases h with
  | stays => exact .refl w
  | createUser address read hnew h | createPrivy id solanaAddress read hnew h =>
    obtain ⟨-, rfl⟩ := create_ok h
    exact .set fun a ha => by rw [hnew] at ha; cases ha
  | createLink userId address read h =>
    obtain ⟨-, rfl⟩ := createLink_ok h
    exact fun _ a ha => ⟨a, ha, rfl⟩
  | swap userId address old h =>
    obtain ⟨-, account, haccount, -, rfl⟩ := swap_ok h
    exact .set fun a ha => by rw [haccount] at ha; cases ha; rfl
  | deleteLink => exact fun _ a ha => ⟨a, ha, rfl⟩
  | setBanned userId banned account haccount =>
    exact .set fun a ha => by rw [haccount] at ha; cases ha; rfl

theorem not_decodes_placeholder (id : String) : ¬ decodes (placeholder id) := by
  intro h
  have hcolon : ':' ∈ (placeholder id).toList := by
    rw [placeholder, String.toList_append]
    exact List.mem_append_left _ (by decide)
  exact colon_notMem_base58 (by simpa using List.all_eq_true.mp h ':' hcolon)

theorem placeholder_injective {id id' : String} (h : placeholder id = placeholder id') :
    id = id' := (String.append_right_inj "privy:").mp h

/-- A placeholder is with the account that it stands for. -/
def Wallets.Placed (w : Wallets) : Prop :=
  ∀ u id, w.Owns u (placeholder id) →
    ∃ account, w.users.get u = some account ∧ account.privyUserId = some id

theorem Wallets.Placed.of (h : w.Placed) (hkeeps : Keeps w w')
    (howns : ∀ u id, w'.Owns u (placeholder id) → w.Owns u (placeholder id) ∨
      ∃ account, w'.users.get u = some account ∧ account.privyUserId = some id) : w'.Placed := by
  intro u id hu
  obtain hold | hnew := howns u id hu
  · obtain ⟨a, ha, hid⟩ := h u id hold
    obtain ⟨a', ha', hsame⟩ := hkeeps u a ha
    exact ⟨a', ha', hsame.trans hid⟩
  · exact hnew

/-- An account that is new has no other placeholder than its own. -/
theorem Wallets.Placed.create {newId : UserId} (h : w.Placed) (hnew : w.users.get newId = none)
    (hown : ∀ id, account.walletAddress = placeholder id → account.privyUserId = some id) :
    Wallets.Placed { w with users := w.users.set newId account } := by
  refine h.of (.set fun a ha => by rw [hnew] at ha; cases ha) ?_
  rintro u id (⟨a, hu, ha⟩ | hu)
  · by_cases hid : u = newId
    · subst hid
      rw [Table.get_set_self] at hu
      cases hu
      exact .inr ⟨account, Table.get_set_self _, hown id ha⟩
    · exact .inl (.inl ⟨a, (Table.get_set_ne _ hid).symm.trans hu, ha⟩)
  · exact .inl (.inr hu)

/-! ## Calls -/

/-- What a call relies on: the addresses that were signed for, what its checks have let
through, and the account that `setPrimaryWallet` has read. -/
def Relies (w : Wallets) : Call → Prop
  | .signInLinked address | .privyLinked _ address | .linkPrimary _ address => decodes address
  | .privy _ solanaAddress => ∀ address ∈ solanaAddress, decodes address
  | .createUser address read | .linkLinked _ address read | .createLink _ address read =>
      decodes address ∧ read = none
  | .createPrivy _ solanaAddress read => (∀ address ∈ solanaAddress, decodes address) ∧ read = none
  | .swap userId address old => old ≠ address ∧ ∃ account, w.users.get userId = some account ∧
      ∀ id, old = placeholder id → account.privyUserId = some id
  | _ => True

theorem Moves.placed {newId : UserId} (h : Moves w newId call w') (hrelies : Relies w call)
    (hw : w.Placed) : w'.Placed := by
  have hkeeps := h.keeps
  cases h with
  | stays => exact hw
  | createUser address read hnew h =>
    obtain ⟨-, rfl⟩ := create_ok h
    refine hw.create hnew fun id hid => ?_
    exact absurd (hid ▸ hrelies.1) (not_decodes_placeholder id)
  | createPrivy id solanaAddress read hnew h =>
    obtain ⟨-, rfl⟩ := create_ok h
    refine hw.create hnew fun id' hid => ?_
    cases solanaAddress with
    | none => rw [placeholder_injective hid]
    | some address => exact absurd (hid ▸ hrelies.1 address rfl) (not_decodes_placeholder id')
  | createLink userId address read h =>
    obtain ⟨-, rfl⟩ := createLink_ok h
    refine hw.of hkeeps ?_
    rintro u id (hu | hu)
    · exact .inl (.inl hu)
    · have hne : placeholder id ≠ address := fun heq =>
        not_decodes_placeholder id (heq ▸ hrelies.1)
      exact .inl (.inr ((Table.get_set_ne _ hne).symm.trans hu))
  | swap userId address old h =>
    obtain ⟨howned, account, haccount, -, rfl⟩ := swap_ok h
    obtain ⟨-, _, hme, hold⟩ := hrelies
    cases haccount.symm.trans hme
    refine hw.of hkeeps ?_
    rintro u id (⟨a, hu, ha⟩ | hu)
    · by_cases hid : u = userId
      · subst hid
        rw [Table.get_set_self] at hu
        cases hu
        exact .inl (.inr (ha ▸ howned))
      · exact .inl (.inl ⟨a, (Table.get_set_ne _ hid).symm.trans hu, ha⟩)
    · by_cases heq : placeholder id = old
      · rw [heq, Table.get_set_self] at hu
        cases hu
        exact .inr ⟨_, Table.get_set_self _, hold id heq.symm⟩
      · rw [Table.get_set_ne _ heq] at hu
        exact .inl (.inr (Table.get_of_erase _ hu))
  | deleteLink =>
    refine hw.of hkeeps ?_
    rintro u id (hu | hu)
    · exact .inl (.inl hu)
    · exact .inl (.inr (Table.get_of_erase _ hu))
  | setBanned userId banned account haccount =>
    refine hw.of hkeeps ?_
    rintro u _ (⟨a, hu, ha⟩ | hu)
    · by_cases hid : u = userId
      · subst hid
        rw [Table.get_set_self] at hu
        cases hu
        exact .inl (.inl ⟨account, haccount, ha⟩)
      · exact .inl (.inl ⟨a, (Table.get_set_ne _ hid).symm.trans hu, ha⟩)
    · exact .inl (.inr hu)

theorem relies_stable {newId : UserId} {e : Call} (h : Relies w e)
    (hmoves : Moves w newId call w') : Relies w' e := by
  cases e with
  | swap userId =>
    obtain ⟨hne, account, haccount, hold⟩ := h
    obtain ⟨a', ha', hsame⟩ := hmoves.keeps userId account haccount
    exact ⟨hne, a', ha', fun id hid => hsame.trans (hold id hid)⟩
  | _ => exact h

/-- What a call goes on with, its last look has let through. -/
theorem relies_goes {call' : Call} (hplaced : w.Placed) (h : Relies w call)
    (hstep : call.step w answer = some (w', some call')) : Relies w' call' := by
  cases call with
  | signIn =>
    simp only [Call.step] at hstep
    split at hstep
    · rename_i hguard
      cases hstep
      exact hguard.2.1
    · cases hstep
  | signInLinked | linkPrimary =>
    simp only [Call.step] at hstep
    split at hstep
    · cases hstep
    · rename_i hread
      cases hstep
      exact ⟨h, by simpa using hread⟩
  | privy =>
    simp only [Call.step] at hstep
    split at hstep
    · split at hstep
      · cases hstep
        exact h _ rfl
      · cases hstep
        exact ⟨h, rfl⟩
    · cases hstep
  | privyLinked =>
    simp only [Call.step] at hstep
    split at hstep
    · cases hstep
    · rename_i hread
      cases hstep
      refine ⟨?_, by simpa using hread⟩
      rintro _ ⟨⟩
      exact h
  | link =>
    simp only [Call.step] at hstep
    split at hstep
    · cases hstep
    · split at hstep
      · rename_i hguard
        cases hstep
        exact hguard.2.1
      · cases hstep
  | linkLinked =>
    simp only [Call.step] at hstep
    split at hstep
    · cases hstep
    · cases hstep
      exact h
  | setPrimary userId =>
    simp only [Call.step] at hstep
    split at hstep
    · cases hstep
    · rename_i me hme
      split at hstep
      · cases hstep
      · rename_i hne
        cases hstep
        have hget : w.users.get userId = some me := (Option.filter_eq_some_iff.mp hme).1
        refine ⟨hne, me, hget, fun id hid => ?_⟩
        obtain ⟨a, ha, hprivy⟩ := hplaced userId id (.inl ⟨me, hget, hid⟩)
        cases hget.symm.trans ha
        exact hprivy
  | unlink =>
    simp only [Call.step] at hstep
    split at hstep
    · cases hstep
      trivial
    · cases hstep
  | createUser address read | createPrivy id solanaAddress read | setBanned =>
    simp only [Call.step] at hstep
    split at hstep
    all_goals cases hstep
  | createLink userId address read | swap userId address old | deleteLink address =>
    cases hstep

/-- The unique columns and the placeholders, and what calls rely on. -/
def protocol : Calls.Protocol service where
  Inv w := w.Primaries ∧ w.Placed
  Holds := Relies
  starts := by
    intro w call _ hentry
    cases call with
    | privy =>
      rintro address ⟨⟩
      exact hentry
    | _ => trivial
  keeps h hrelies hstep :=
    ⟨(step_moves hstep).primaries h.1, (step_moves hstep).placed hrelies h.2⟩
  goes h hrelies hstep := relies_goes h.2 hrelies hstep
  stable _ _ hstep hholds := relies_stable hholds (step_moves hstep)

/-! ## The condition -/

/-- A write that its own column lets through finds in the other one what its call has
read, and the wallet that `setPrimaryWallet` puts back has gone to no other account
since. -/
def UpToDate (w : Wallets) (_ : Answer) : Call → Prop
  | .createUser address read => w.primaryOwner address = none → w.linked.get address = read
  | .createPrivy privyUserId (some address) read =>
      w.primaryOwner address = none → w.findPrivy privyUserId = none →
        w.linked.get address = read
  | .createLink _ address read => w.linked.get address = none → w.primaryOwner address = read
  | .swap userId address old =>
      w.linked.get address = some userId → w.linked.get old = none →
        ∀ v ∈ w.primaryOwner old, v = userId
  | _ => True

instance (w : Wallets) (answer : Answer) : ∀ call, Decidable (UpToDate w answer call)
  | .createUser address read =>
      inferInstanceAs (Decidable (w.primaryOwner address = none → w.linked.get address = read))
  | .createPrivy privyUserId (some address) read =>
      inferInstanceAs (Decidable (w.primaryOwner address = none →
        w.findPrivy privyUserId = none → w.linked.get address = read))
  | .createLink _ address read =>
      inferInstanceAs (Decidable (w.linked.get address = none → w.primaryOwner address = read))
  | .swap userId address old =>
      inferInstanceAs (Decidable (w.linked.get address = some userId → w.linked.get old = none →
        ∀ v ∈ w.primaryOwner old, v = userId))
  | .createPrivy _ none _ | .signIn .. | .signInLinked .. | .privy .. | .privyLinked .. | .link ..
  | .linkPrimary .. | .linkLinked .. | .setPrimary .. | .unlink .. | .deleteLink ..
  | .setBanned .. => .isTrue trivial

/-! ## Steps -/

theorem apart_create (h : w.Apart) :
    Wallets.Apart { w with users := w.users.set userId account } ↔
      w.linked.get account.walletAddress = none := by
  constructor
  · exact fun hapart => hapart userId account w.users.get_set_self
  · exact fun hfree => w.users.forall_set h hfree

theorem apart_link (h : w.Apart) :
    Wallets.Apart { w with linked := w.linked.set address userId } ↔
      w.findPrimary address = none := by
  rw [findPrimary_none]
  constructor
  · intro hapart u account hu heq
    have hlinked := hapart u account hu
    simp [heq] at hlinked
  · intro hnone u account hu
    exact (w.linked.get_set_ne (hnone u account hu)).trans (h u account hu)

theorem apart_swap (h : w.Apart) (hprimaries : w.Primaries) (hne : old ≠ address)
    (hswap : w.swap userId address old = some w') :
    w'.Apart ↔ ∀ v ∈ w.primaryOwner old, v = userId := by
  obtain ⟨_, _, _, hother, rfl⟩ := swap_ok hswap
  constructor
  · intro hapart v howner
    by_contra hv
    obtain ⟨b, hb, rfl⟩ := (primaryOwner_eq hprimaries).mp howner
    have hlinked := hapart v b ((w.users.get_set_ne hv).trans hb)
    simp at hlinked
  · intro hold
    refine w.users.forall_set_of_ne ?_ ?_
    · intro v b hv hb
      have hvold : b.walletAddress ≠ old := fun heq =>
        hv (hold v ((primaryOwner_eq hprimaries).mpr ⟨b, hb, heq⟩))
      show ((w.linked.erase address).set old userId).get b.walletAddress = none
      rw [Table.get_set_ne _ hvold, Table.get_erase_ne _ (hother v b hb hv)]
      exact h v b hb
    · show ((w.linked.erase address).set old userId).get address = none
      rw [Table.get_set_ne _ hne.symm, Table.get_erase_self]

theorem apart_deleteLink (h : w.Apart) :
    Wallets.Apart { w with linked := w.linked.erase address } := by
  intro u account hu
  show (w.linked.erase address).get account.walletAddress = none
  by_cases heq : account.walletAddress = address
  · rw [heq, Table.get_erase_self]
  · rw [Table.get_erase_ne _ heq]
    exact h u account hu

/-- A write that is refused changes nothing. -/
theorem apart_getD {o : Option Wallets} {C : Prop} (h : w.Apart)
    (hgoes : ∀ w₁, o = some w₁ → (w₁.Apart ↔ C)) (hstops : o = none → C) :
    (o.getD w).Apart ↔ C := by
  cases o with
  | none => exact ⟨fun _ => hstops rfl, fun _ => h⟩
  | some w₁ => exact hgoes w₁ rfl

theorem primaryOwner_none : w.primaryOwner address = none ↔ w.findPrimary address = none :=
  Option.map_eq_none_iff

/-- The wallet of a new account is refused, or its owner then decides. -/
theorem apart_create_getD {newId : UserId} {C : Prop} (h : w.Apart)
    (hgoes : w.findPrimary account.walletAddress = none →
      (∀ id ∈ account.privyUserId, w.findPrivy id = none) →
        (w.linked.get account.walletAddress = none ↔ C))
    (hstops : w.create newId account = none → C) :
    ((w.create newId account).getD w).Apart ↔ C := by
  refine apart_getD h (fun w₁ hcreate => ?_) hstops
  have hprivy : ∀ id ∈ account.privyUserId, w.findPrivy id = none := by
    intro id hid
    by_contra hsome
    simp [Wallets.create, Option.mem_def.mp hid, Option.ne_none_iff_isSome.mp hsome] at hcreate
  obtain ⟨hprimary, rfl⟩ := create_ok hcreate
  exact (apart_create h).trans (hgoes hprimary hprivy)

/-- The placeholder of a new account is with nobody. -/
theorem Wallets.Placed.free {id : String} (h : w.Placed) (hnone : w.findPrivy id = none) :
    w.linked.get (placeholder id) = none := by
  cases hlinked : w.linked.get (placeholder id) with
  | none => rfl
  | some u =>
    obtain ⟨account, haccount, hid⟩ := h u id (.inr hlinked)
    have hno := w.users.find_none.mp hnone u account haccount
    simp [hid] at hno

/-- A swap between two wallets that are the account's goes through. -/
theorem swap_isSome (h : w.Apart) (hne : old ≠ address) (haccount : w.users.get userId = some account)
    (howned : w.linked.get address = some userId) (hfree : w.linked.get old = none) :
    w.swap userId address old ≠ none := by
  have hother : w.users.find (fun u other => u != userId && other.walletAddress == address) =
      none := by
    refine w.users.find_none.mpr fun u other hu => ?_
    have hnot : other.walletAddress ≠ address := by
      rintro rfl
      rw [h u other hu] at howned
      cases howned
    simp [hnot]
  have hold : (w.linked.erase address).get old = none := (Table.get_erase_ne _ hne).trans hfree
  simp [Wallets.swap, Wallets.createLink, Wallets.updatePrimary, howned, hold, haccount, hother]

/-- A step keeps the columns apart exactly if it is up to date. -/
theorem apart_step (hprimaries : w.Primaries) (hplaced : w.Placed) (hrelies : Relies w call)
    (h : w.Apart) (hstep : call.step w answer = some (w', rest)) :
    w'.Apart ↔ UpToDate w answer call := by
  cases call with
  | createUser =>
    obtain ⟨-, rfl⟩ := hrelies
    simp only [Call.step] at hstep
    split at hstep
    · cases hstep
    · cases hstep
      refine apart_create_getD h (fun hprimary _ => ?_) fun hnone hprimary => ?_
      · exact ⟨fun hfree _ => hfree, fun hok => hok (primaryOwner_none.mpr hprimary)⟩
      · simp [Wallets.create, primaryOwner_none.mp hprimary] at hnone
  | createPrivy id solanaAddress =>
    obtain ⟨-, rfl⟩ := hrelies
    simp only [Call.step] at hstep
    split at hstep
    · cases hstep
    · cases hstep
      refine apart_create_getD h (fun hprimary hprivy => ?_) fun hnone => ?_
      · cases solanaAddress with
        | none => exact ⟨fun _ => trivial, fun _ => hplaced.free (hprivy id rfl)⟩
        | some =>
          exact ⟨fun hfree _ _ => hfree,
            fun hok => hok (primaryOwner_none.mpr hprimary) (hprivy id rfl)⟩
      · cases solanaAddress with
        | none => trivial
        | some =>
          intro hprimary hprivy
          simp [Wallets.create, primaryOwner_none.mp hprimary, hprivy] at hnone
  | createLink =>
    obtain ⟨-, rfl⟩ := hrelies
    cases hstep
    refine apart_getD h ?_ ?_
    · intro w₁ hlink
      obtain ⟨hfree, rfl⟩ := createLink_ok hlink
      rw [apart_link h, ← primaryOwner_none]
      exact ⟨fun hprimary _ => hprimary, fun hok => hok hfree⟩
    · intro hnone hfree
      simp [Wallets.createLink, hfree] at hnone
  | swap =>
    obtain ⟨hne, account, haccount, -⟩ := hrelies
    cases hstep
    refine apart_getD h ?_ ?_
    · intro w₁ hswap
      refine (apart_swap h hprimaries hne hswap).trans ⟨fun hold _ _ => hold, fun hok => ?_⟩
      have howned := (swap_ok hswap).1
      refine hok howned ?_
      simp only [Wallets.swap, howned, if_true] at hswap
      obtain ⟨_, hlink, -⟩ := Option.bind_eq_some_iff.mp hswap
      exact (Table.get_erase_ne _ hne).symm.trans (createLink_ok hlink).1
    · intro hnone howned hfree
      exact absurd hnone (swap_isSome h hne haccount howned hfree)
  | deleteLink =>
    cases hstep
    exact ⟨fun _ => trivial, fun _ => apart_deleteLink h⟩
  | setBanned userId =>
    simp only [Call.step] at hstep
    split at hstep
    · cases hstep
      exact ⟨fun _ => trivial, fun _ => h⟩
    · rename_i account haccount
      cases hstep
      exact ⟨fun _ => trivial, fun _ => w.users.forall_set h (h userId account haccount)⟩
  | signIn walletAddress | link userId address | setPrimary userId address
  | privy privyUserId solanaAddress | signInLinked walletAddress
  | privyLinked privyUserId solanaAddress | linkPrimary userId address
  | linkLinked userId address read | unlink userId address =>
    -- these only read
    simp only [Call.step] at hstep
    repeat' split at hstep
    all_goals
      cases hstep
      exact ⟨fun _ => trivial, fun _ => h⟩

/-! ## Runs -/

/-- Wallets have one owner in every state of a run exactly if every write of
the run finds what its call has read. -/
theorem one_owner_iff {es : List (Calls.Event Call Answer)} {s : Calls.System Wallets Call}
    (hrun : run service.next (.boot .initial) es = some s) :
    Throughout service.next (.boot .initial) es (fun s => s.data.OneOwner) ↔
      Along service.next (Calls.Allowed UpToDate) (.boot .initial) es := by
  have hprimaries : Wallets.Primaries .initial := nofun
  have hplaced : Wallets.Placed .initial := by
    rintro u _ (⟨a, hu, -⟩ | hu)
    · cases hu
    · cases hu
  refine protocol.throughout_iff (φ := Wallets.OneOwner) ?_ ⟨hprimaries, hplaced⟩ ?_ hrun
  · intro w answer call w' rest hinv hrelies hone hstep
    rw [oneOwner_iff ((step_moves hstep).primaries hinv.1)]
    exact apart_step hinv.1 hinv.2 hrelies ((oneOwner_iff hinv.1).mp hone) hstep
  · exact (oneOwner_iff hprimaries).mpr nofun

namespace Sample

def signUp (id : Nat) (walletAddress : Address) (newId : UserId) : List (Calls.Event Call Answer) :=
  .start id (.signIn walletAddress) :: List.replicate 3 (.run id ⟨true, newId⟩)

def link (id : Nat) (userId : UserId) (address : Address) : List (Calls.Event Call Answer) :=
  .start id (.link userId address) :: List.replicate 4 (.run id ⟨true, 0⟩)

/-- Ada links a second wallet and makes it her primary one. -/
def swapped : List (Calls.Event Call Answer) :=
  signUp 0 "ada" 7 ++ link 1 7 "bob" ++
    .start 2 (.setPrimary 7 "bob") :: List.replicate 2 (.run 2 ⟨true, 0⟩)

/-- The holder of "bob" signs up while Ada, who holds it too, links it. -/
def raced : List (Calls.Event Call Answer) :=
  signUp 0 "ada" 7 ++ (signUp 1 "bob" 8).take 3 ++ link 2 7 "bob" ++ [.run 1 ⟨true, 8⟩]

end Sample

theorem one_owner_iff_sample : ∃ s, run service.next (.boot .initial) Sample.swapped = some s ∧
    s.data.linked.get "ada" = some 7 ∧ s.data.OneOwner := by
  obtain ⟨s, hs, hends⟩ : ∃ s, run service.next (.boot .initial) Sample.swapped = some s ∧
      s.data.linked.get "ada" = some 7 := by decide +kernel
  refine ⟨s, hs, hends, ?_⟩
  exact (one_owner_iff hs).mpr (by decide +kernel) Sample.swapped [] s (List.append_nil _).symm hs

/-- An address that is the primary wallet of one account and a linked one of
another. -/
theorem sign_up_while_linking : ∃ s, run service.next (.boot .initial) Sample.raced = some s ∧
    s.data.Owns 8 "bob" ∧ s.data.Owns 7 "bob" := by
  obtain ⟨s, hs, hprimary, hlinked⟩ : ∃ s, run service.next (.boot .initial) Sample.raced = some s ∧
      s.data.users.get 8 = some ⟨"bob", none, false⟩ ∧ s.data.linked.get "bob" = some 7 := by
    decide +kernel
  exact ⟨s, hs, .inl ⟨_, hprimary, rfl⟩, .inr hlinked⟩

end Scadium.Users
