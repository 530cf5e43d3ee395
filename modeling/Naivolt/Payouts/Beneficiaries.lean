import Naivolt.Payouts.Answers
import Naivolt.Users.Activity

/-!
# Whose accounts they are

A row of `bank_accounts` is written when a user saves a beneficiary (`add_account`) and when a
payout goes to an account that has not been saved (`resolve_destination`).  The client sends a
bank, a number and a name; whose number it is only the bank knows.  Both writers ask it and store
what it answers, and nothing is held between asking and writing.  `resolve` only asks,
`remove_account` takes a row away, and `list_accounts` shows a user's rows, the most recently paid
first.

`beneficiaries_named` says that whatever is stored, shown or paid to has the name that a bank gave
for that number; `beneficiaries_stay` that a row goes away by its owner's hand only, and never once
money went there.
-/

namespace Naivolt

open Foundation Foundation.Machine

/-! ## Tables -/

/-- A row of `bank_accounts`, with its times. -/
structure SavedAccount extends BankAccount where
  verifiedAt : Option Time
  createdAt : Time

/-- What a bank has answered. -/
structure Enquiry where
  bankCode : String
  number : String
  name : String

structure BeneficiaryWorld where
  now : Time
  accounts : Table Uuid SavedAccount
  /-- `bank_account_id` and `created_at` of the rows of `payouts`, the last inserted first. -/
  payouts : List (Uuid × Time)
  enquiries : List Enquiry
  /-- Who has removed which row, newest first. -/
  removals : List (Uuid × Uuid)

/-- Nobody has saved anything. -/
def BeneficiaryWorld.fresh (now : Time) : BeneficiaryWorld := ⟨now, .empty, [], [], []⟩

namespace BeneficiaryWorld

/-- The row that conflicts with a new one. -/
def conflicting (w : BeneficiaryWorld) (userId : Uuid) (bankCode number : String) :
    Option (Uuid × SavedAccount) :=
  w.accounts.rows.find? fun r =>
    r.2.userId = userId && r.2.bankCode = bankCode && r.2.accountNumber = number

/-- `INSERT … ON CONFLICT (user_id, bank_code, account_number) DO UPDATE`, unless the database
refuses it. -/
def upsertAccount (w : BeneficiaryWorld) (fresh : Uuid) (row : SavedAccount)
    (update : SavedAccount → SavedAccount) : Option (Uuid × BeneficiaryWorld) :=
  if !(storableText row.bankCode && storableText row.accountName) then none
  else match w.conflicting row.userId row.bankCode row.accountNumber with
  | some (id, _) => some (id, { w with accounts := w.accounts.modify id update })
  | none => (w.accounts.insert fresh row).map fun accounts =>
      (fresh, { w with accounts := accounts })

/-- `MAX(p.created_at)` over the payouts to an account. -/
def lastUsedAt (w : BeneficiaryWorld) (id : Uuid) : Option Time :=
  ((w.payouts.filter fun p => p.1 = id).map Prod.snd).max?

/-- A statement that the database refuses is answered with an error, and changes nothing. -/
def answered {α : Type} (w : BeneficiaryWorld) :
    Option (α × BeneficiaryWorld) → Except ApiError α × BeneficiaryWorld
  | some (r, w') => (.ok r, w')
  | none => (.error (.internal "error returned from database"), w)

end BeneficiaryWorld

/-- A row as `list_accounts` selects it. -/
structure ListedAccount where
  id : Uuid
  account : SavedAccount
  lastUsedAt : Option Time

/-- What the rows are ordered by, where no payout comes before any. -/
def ListedAccount.rank (a : ListedAccount) : WithBot Time ×ₗ Time :=
  toLex (a.lastUsedAt.elim ⊥ WithBot.some, a.account.createdAt)

/-- `ORDER BY MAX(…) DESC NULLS LAST, ba.created_at DESC`. -/
def ListedAccount.before (a b : ListedAccount) : Bool := b.rank ≤ a.rank

/-! ## Operations -/

/-- What a program does not decide: the bank's answer, a random identifier, and what the ledger
makes of a payout before its row: a refusal, a replay that has its row, or a new one. -/
structure BeneficiaryOracle where
  resolved : Except ApiError String :=
    .error (.badRequest "Couldn't find that account. Check the number and bank.")
  fresh : Uuid := 0
  reserved : Except ApiError Bool := .ok true

inductive BeneficiaryOp where
  | resolveAccount (bankCode number : String)
  /-- The upsert of `add_account`. -/
  | saveAccount (userId : Uuid) (bankCode number name : String)
  /-- The upsert of `resolve_destination`. -/
  | storeDestination (userId : Uuid) (bankCode number name : String)
  | selectAccounts (userId : Uuid)
  | deleteAccount (userId id : Uuid)
  | readAccount (userId id : Uuid)
  /-- `now()` of the transaction of a payout. -/
  | beginPayout
  /-- The rest of that transaction: a row of `payouts` that references an account. -/
  | insertPayout (id : Uuid) (createdAt : Time)

abbrev BeneficiaryOp.Res : BeneficiaryOp → Type
  | resolveAccount .. => Except ApiError String
  | saveAccount .. => Except ApiError (Uuid × Option Time)
  | storeDestination .. => Except ApiError Uuid
  | selectAccounts _ => List ListedAccount
  | deleteAccount .. => Except ApiError Bool
  | readAccount .. => Option BankAccount
  | beginPayout => Time
  | insertPayout .. => Except ApiError Unit

def execBeneficiary : (op : BeneficiaryOp) → BeneficiaryOracle → BeneficiaryWorld →
    Option (op.Res × BeneficiaryWorld)
  | .resolveAccount bankCode number, ω, w =>
      match ω.resolved with
      | .error e => some (.error e, w)
      | .ok name =>
        some (.ok name, { w with enquiries := ⟨bankCode, number, name⟩ :: w.enquiries })
  | .saveAccount userId bankCode number name, ω, w =>
      some (w.answered <|
        (w.upsertAccount ω.fresh ⟨⟨userId, bankCode, number, name⟩, some w.now, w.now⟩ fun a =>
          { a with accountName := name, verifiedAt := some w.now }).map fun (id, w') =>
            ((id, some w.now), w'))
  | .storeDestination userId bankCode number name, ω, w =>
      some (w.answered <|
        w.upsertAccount ω.fresh ⟨⟨userId, bankCode, number, name⟩, some w.now, w.now⟩ fun a =>
          { a with accountName := name })
  | .selectAccounts userId, _, w =>
      some (((w.accounts.rows.filter fun r => r.2.userId = userId).map fun r =>
        ⟨r.1, r.2, w.lastUsedAt r.1⟩).mergeSort ListedAccount.before, w)
  | .deleteAccount userId id, _, w =>
      if (w.accounts.get? id).any fun a => a.userId = userId then
        -- The reference from `payouts` refuses the statement.
        some (w.answered <| if w.payouts.any fun p => p.1 = id then none
          else some (true,
            { w with accounts := w.accounts.erase id, removals := (userId, id) :: w.removals }))
      else some (.ok false, w)
  | .readAccount userId id, _, w =>
      some (((w.accounts.get? id).filter fun a => a.userId = userId).map (·.toBankAccount), w)
  | .beginPayout, _, w => some (w.now, w)
  | .insertPayout id createdAt, ω, w =>
      match ω.reserved with
      | .error e => some (.error e, w)
      | .ok false => some (.ok (), w)
      | .ok true =>
        some (w.answered <| if (w.accounts.get? id).isSome then
          some ((), { w with payouts := (id, createdAt) :: w.payouts }) else none)

/-! ## The endpoints -/

abbrev BeneficiaryProg (α : Type) := Prog BeneficiaryOp BeneficiaryOp.Res α

structure ResolvedAccount where
  accountName : String
  bankCode : String
  accountNumber : String

structure AddAccountBody where
  bankCode : String
  accountNumber : String
  accountName : Option String

structure BankAccountResponse where
  id : Uuid
  bankCode : String
  bankName : String
  accountNumber : String
  accountName : String
  verifiedAt : Option String
  lastUsedAt : Option String

/-- `normalise_account_number`. -/
@[irreducible]
def normaliseAccountNumber (raw : String) : Except ApiError String :=
  if (Banking.digits raw).length ≠ 10 then .error (.badRequest "Account numbers are 10 digits.")
  else .ok (Banking.digits raw)

/-- `ensure_known_bank`. -/
@[irreducible]
def ensureKnownBank (code : String) : Except ApiError Unit :=
  if bankList.any fun b => b.1 = code then .ok ()
  else .error (.badRequest ("unknown bank code " ++ code))

section Endpoints

-- The text of a time is chrono's.
variable (toRfc3339 : Time → String)

def ListedAccount.response (a : ListedAccount) : BankAccountResponse where
  id := a.id
  bankCode := a.account.bankCode
  bankName := bankName a.account.bankCode
  accountNumber := a.account.accountNumber
  accountName := a.account.accountName
  verifiedAt := a.account.verifiedAt.map toRfc3339
  lastUsedAt := a.lastUsedAt.map toRfc3339

/-- `resolve`: what the client shows before anything is saved. -/
def resolveEnquiry (bankCode accountNumber : String) :
    BeneficiaryProg (Except ApiError ResolvedAccount) :=
  match normaliseAccountNumber accountNumber with
  | .error e => pure (.error e)
  | .ok number =>
    match ensureKnownBank bankCode with
    | .error e => pure (.error e)
    | .ok () => do
      match ← Prog.perform (BeneficiaryOp.resolveAccount bankCode number) with
      | .error e => pure (.error e)
      | .ok accountName => pure (.ok ⟨accountName, bankCode, number⟩)

/-- `list_accounts`. -/
def listAccounts (userId : Uuid) : BeneficiaryProg (List BankAccountResponse) := do
  let rows ← Prog.perform (BeneficiaryOp.selectAccounts userId)
  pure (rows.map (ListedAccount.response toRfc3339))

/-- `add_account`. -/
def addAccount (userId : Uuid) (body : AddAccountBody) :
    BeneficiaryProg (Except ApiError BankAccountResponse) :=
  match normaliseAccountNumber body.accountNumber with
  | .error e => pure (.error e)
  | .ok number =>
    match ensureKnownBank body.bankCode with
    | .error e => pure (.error e)
    | .ok () => do
      match ← Prog.perform (BeneficiaryOp.resolveAccount body.bankCode number) with
      | .error e => pure (.error e)
      | .ok accountName => do
        match ← Prog.perform
            (BeneficiaryOp.saveAccount userId body.bankCode number accountName) with
        | .error e => pure (.error e)
        | .ok saved =>
          pure (.ok
            { id := saved.1, bankCode := body.bankCode, bankName := bankName body.bankCode,
              accountNumber := number, accountName := accountName,
              verifiedAt := saved.2.map toRfc3339, lastUsedAt := none })

/-- `remove_account`. -/
def removeAccount (userId id : Uuid) : BeneficiaryProg (Except ApiError Unit) := do
  match ← Prog.perform (BeneficiaryOp.deleteAccount userId id) with
  | .error e => pure (.error e)
  | .ok removed => pure (if removed then .ok () else .error .notFound)

/-- `resolve_destination`. -/
def beneficiaryDestination (userId : Uuid) : Destination → BeneficiaryProg (Except ApiError Uuid)
  | .beneficiary id => pure (.ok id)
  | .oneOff bankCode accountNumber accountName _ =>
      match normaliseAccountNumber accountNumber with
      | .error e => pure (.error e)
      | .ok number => do
        match ← Prog.perform (BeneficiaryOp.resolveAccount bankCode number) with
        | .error e => pure (.error e)
        | .ok resolved =>
          if !eqIgnoreAsciiCase (trimText resolved) (trimText accountName) then
            pure (.error (.badRequest "That account's name changed. Check it and try again."))
          else Prog.perform (BeneficiaryOp.storeDestination userId bankCode number resolved)

/-- What `create_payout` does with `bank_accounts`: the account that the payout is answered with,
and the row that references it. -/
def payTo (userId : Uuid) (destination : Destination) :
    BeneficiaryProg (Except ApiError BankAccount) := do
  match ← beneficiaryDestination userId destination with
  | .error e => pure (.error e)
  | .ok id =>
    match ← Prog.perform (BeneficiaryOp.readAccount userId id) with
    | none => pure (.error .notFound)
    | some account => do
      let createdAt ← Prog.perform BeneficiaryOp.beginPayout
      match ← Prog.perform (BeneficiaryOp.insertPayout id createdAt) with
      | .error e => pure (.error e)
      | .ok () => pure (.ok account)

inductive BeneficiaryRequest where
  | enquire (bankCode accountNumber : String)
  | list (userId : Uuid)
  | add (userId : Uuid) (body : AddAccountBody)
  | remove (userId id : Uuid)
  | pay (userId : Uuid) (destination : Destination)

inductive BeneficiaryAnswer where
  | enquired (answer : Except ApiError ResolvedAccount)
  | listed (accounts : List BankAccountResponse)
  | added (answer : Except ApiError BankAccountResponse)
  | removed (answer : Except ApiError Unit)
  | paid (answer : Except ApiError BankAccount)

def beneficiaryProgram : BeneficiaryRequest → BeneficiaryProg BeneficiaryAnswer
  | .enquire bankCode accountNumber => do
      let answer ← resolveEnquiry bankCode accountNumber
      pure (.enquired answer)
  | .list userId => do
      let accounts ← listAccounts toRfc3339 userId
      pure (.listed accounts)
  | .add userId body => do
      let answer ← addAccount toRfc3339 userId body
      pure (.added answer)
  | .remove userId id => do
      let answer ← removeAccount userId id
      pure (.removed answer)
  | .pay userId destination => do
      let answer ← payTo userId destination
      pure (.paid answer)

/-- Any number of these requests, each of which remembers the world it came to; time passes in
between. -/
def keepingAccounts : Machine BeneficiaryOp BeneficiaryOp.Res BeneficiaryOracle Time
    BeneficiaryWorld BeneficiaryRequest BeneficiaryWorld BeneficiaryAnswer where
  exec _ op ω w := execBeneficiary op ω w
  env d w := some { w with now := w.now + d }
  program := beneficiaryProgram toRfc3339
  stamp w := w

end Endpoints

/-! ## What a statement does -/

/-- The columns of `UNIQUE (user_id, bank_code, account_number)`. -/
structure SameAccount (a b : BankAccount) : Prop where
  userId : a.userId = b.userId
  bankCode : a.bankCode = b.bankCode
  accountNumber : a.accountNumber = b.accountNumber

lemma SameAccount.trans {a b c : BankAccount} (h : SameAccount a b) (h' : SameAccount b c) :
    SameAccount a c :=
  ⟨h.userId.trans h'.userId, h.bankCode.trans h'.bankCode,
    h.accountNumber.trans h'.accountNumber⟩

/-- What an upsert leaves: a row under the key has the new name, and the others are as they were. -/
structure Upserted (w : BeneficiaryWorld) (row : BankAccount) (id : Uuid)
    (w' : BeneficiaryWorld) : Prop where
  payouts : w'.payouts = w.payouts
  enquiries : w'.enquiries = w.enquiries
  removals : w'.removals = w.removals
  written : ∃ a, w'.accounts.get? id = some a ∧ SameAccount a.toBankAccount row ∧
    a.accountName = row.accountName
  others : ∀ k, k ≠ id → w'.accounts.get? k = w.accounts.get? k
  before : ∀ a, w.accounts.get? id = some a → SameAccount a.toBankAccount row
  conflict : w.accounts.get? id = none → ∀ k a, w.accounts.get? k = some a →
    ¬ SameAccount a.toBankAccount row

section Statements

variable {w w' : BeneficiaryWorld} {ω : BeneficiaryOracle}

lemma upsertAccount_upserted {fresh id : Uuid} {row : SavedAccount}
    {update : SavedAccount → SavedAccount}
    (hsame : ∀ a, SameAccount (update a).toBankAccount a.toBankAccount)
    (hname : ∀ a, (update a).accountName = row.accountName)
    (h : w.upsertAccount fresh row update = some (id, w')) :
    Upserted w row.toBankAccount id w' := by
  unfold BeneficiaryWorld.upsertAccount at h
  split_ifs at h with hstorable
  split at h
  · rename_i found old hfound
    obtain ⟨rfl, rfl⟩ := Prod.mk.inj (Option.some.inj h)
    have hkey := List.find?_some hfound
    simp only [Bool.and_eq_true, decide_eq_true_eq] at hkey
    have hold : w.accounts.get? found = some old :=
      Table.get?_eq_some_iff.mpr (List.mem_of_find?_eq_some hfound)
    have hrow : SameAccount old.toBankAccount row.toBankAccount :=
      ⟨hkey.1.1, hkey.1.2, hkey.2⟩
    refine ⟨rfl, rfl, rfl, ⟨update old, ?_, (hsame old).trans hrow, hname old⟩, fun k hk => ?_,
      fun a ha => ?_, fun hnone => ?_⟩
    · rw [Table.get?_modify, if_pos rfl, hold, Option.map_some]
    · rw [Table.get?_modify, if_neg hk]
    · obtain rfl := Option.some.inj (hold.symm.trans ha)
      exact hrow
    · rw [hold] at hnone
      cases hnone
  · rename_i hfound
    obtain ⟨accounts, hinsert, heq⟩ := Option.map_eq_some_iff.mp h
    obtain ⟨rfl, rfl⟩ := Prod.mk.inj heq
    have hget := Table.get?_insert hinsert
    have hfree := (Table.insert_eq_some hinsert).1
    refine ⟨rfl, rfl, rfl, ⟨row, by rw [hget, if_pos rfl], ⟨rfl, rfl, rfl⟩, rfl⟩, fun k hk => ?_,
      fun a ha => ?_, fun _ k a ha hrow => ?_⟩
    · rw [hget, if_neg hk]
    · rw [hfree] at ha
      cases ha
    · have hmem := Table.get?_eq_some_iff.mp ha
      have hnot := List.find?_eq_none.mp hfound _ hmem
      simp [hrow.userId, hrow.bankCode, hrow.accountNumber] at hnot

lemma answered_cases {α : Type} {o : Option (α × BeneficiaryWorld)} {r : Except ApiError α}
    (h : w.answered o = (r, w')) :
    (∃ a, o = some (a, w') ∧ r = .ok a) ∨ w' = w ∧ ∃ e, r = .error e := by
  rcases o with _ | ⟨a, w₁⟩
  · obtain ⟨rfl, rfl⟩ := Prod.mk.inj h
    exact .inr ⟨rfl, _, rfl⟩
  · obtain ⟨rfl, rfl⟩ := Prod.mk.inj h
    exact .inl ⟨a, rfl, rfl⟩

/-- What a statement can do: an upsert, a row removed by its owner that no payout names, a payout
to a row that is there, or nothing but reading and asking, as when the database refuses it. -/
lemma execBeneficiary_cases {op : BeneficiaryOp} {r : op.Res}
    (he : execBeneficiary op ω w = some (r, w')) :
    (∃ row id, (op = .saveAccount row.userId row.bankCode row.accountNumber row.accountName ∨
        op = .storeDestination row.userId row.bankCode row.accountNumber row.accountName) ∧
      Upserted w row id w') ∨
    (∃ a userId id, w.accounts.get? id = some a ∧ a.userId = userId ∧ (∀ p ∈ w.payouts, p.1 ≠ id) ∧
      w' = { w with accounts := w.accounts.erase id, removals := (userId, id) :: w.removals }) ∨
    (∃ id t, (w.accounts.get? id).isSome = true ∧ w' = { w with payouts := (id, t) :: w.payouts }) ∨
    ∃ es, w' = { w with enquiries := es ++ w.enquiries } := by
  have hsame : w' = w → ∃ es, w' = { w with enquiries := es ++ w.enquiries } :=
    fun h => ⟨[], h⟩
  cases op with
  | resolveAccount bankCode number =>
      simp only [execBeneficiary] at he
      split at he
      · cases he
        exact .inr (.inr (.inr (hsame rfl)))
      · rename_i name _
        cases he
        exact .inr (.inr (.inr ⟨[⟨bankCode, number, name⟩], rfl⟩))
  | saveAccount userId bankCode number name =>
      simp only [execBeneficiary, Option.some.injEq] at he
      rcases answered_cases he with ⟨saved, hsaved, -⟩ | ⟨hw, -⟩
      · obtain ⟨⟨id, w₁⟩, hupsert, heq⟩ := Option.map_eq_some_iff.mp hsaved
        obtain ⟨-, rfl⟩ := Prod.mk.inj heq
        have hwritten := upsertAccount_upserted ?_ ?_ hupsert
        · exact .inl ⟨⟨userId, bankCode, number, name⟩, id, .inl rfl, hwritten⟩
        · exact fun _ => ⟨rfl, rfl, rfl⟩
        · exact fun _ => rfl
      · exact .inr (.inr (.inr (hsame hw)))
  | storeDestination userId bankCode number name =>
      simp only [execBeneficiary, Option.some.injEq] at he
      rcases answered_cases he with ⟨id, hstored, -⟩ | ⟨hw, -⟩
      · have hwritten := upsertAccount_upserted ?_ ?_ hstored
        · exact .inl ⟨⟨userId, bankCode, number, name⟩, id, .inr rfl, hwritten⟩
        · exact fun _ => ⟨rfl, rfl, rfl⟩
        · exact fun _ => rfl
      · exact .inr (.inr (.inr (hsame hw)))
  | deleteAccount userId id =>
      simp only [execBeneficiary] at he
      split at he
      · rename_i howner
        rcases answered_cases (Option.some.inj he) with ⟨removed, hremoved, -⟩ | ⟨hw, -⟩
        · split_ifs at hremoved with hpaid
          cases hremoved
          obtain ⟨a, ha, huser⟩ := Option.any_eq_true _ _ |>.mp howner
          refine .inr (.inl ⟨a, userId, id, ha, of_decide_eq_true huser, fun p hp heq => ?_, rfl⟩)
          exact hpaid (List.any_eq_true.mpr ⟨p, hp, decide_eq_true heq⟩)
        · exact .inr (.inr (.inr (hsame hw)))
      · cases he
        exact .inr (.inr (.inr (hsame rfl)))
  | insertPayout id createdAt =>
      simp only [execBeneficiary] at he
      split at he
      · cases he
        exact .inr (.inr (.inr (hsame rfl)))
      · cases he
        exact .inr (.inr (.inr (hsame rfl)))
      · rcases answered_cases (Option.some.inj he) with ⟨u, hinserted, -⟩ | ⟨hw, -⟩
        · split_ifs at hinserted with hthere
          cases hinserted
          exact .inr (.inr (.inl ⟨id, createdAt, hthere, rfl⟩))
        · exact .inr (.inr (.inr (hsame hw)))
  | selectAccounts | readAccount | beginPayout =>
      cases he
      exact .inr (.inr (.inr (hsame rfl)))

end Statements

/-! ## What stays -/

/-- A row keeps its identifier, its user and its number.  It goes away when its user removes it,
unless it has been paid to. -/
structure AccountsStay (w w' : BeneficiaryWorld) : Prop where
  payouts : w.payouts <:+ w'.payouts
  removals : w.removals <:+ w'.removals
  kept : ∀ id a, w.accounts.get? id = some a →
    (∃ a', w'.accounts.get? id = some a' ∧ SameAccount a'.toBankAccount a.toBankAccount) ∨
      (a.userId, id) ∈ w'.removals ∧ ∀ p ∈ w.payouts, p.1 ≠ id

lemma AccountsStay.of_accounts {w w' : BeneficiaryWorld} (haccounts : w'.accounts = w.accounts)
    (hpayouts : w.payouts <:+ w'.payouts) (hremovals : w.removals <:+ w'.removals) :
    AccountsStay w w' where
  payouts := hpayouts
  removals := hremovals
  kept _ a ha := .inl ⟨a, haccounts ▸ ha, rfl, rfl, rfl⟩

lemma AccountsStay.refl (w : BeneficiaryWorld) : AccountsStay w w :=
  .of_accounts rfl List.suffix_rfl List.suffix_rfl

lemma AccountsStay.trans {w w' w'' : BeneficiaryWorld} (h : AccountsStay w w')
    (h' : AccountsStay w' w'') : AccountsStay w w'' where
  payouts := h.payouts.trans h'.payouts
  removals := h.removals.trans h'.removals
  kept id a ha := by
    rcases h.kept id a ha with ⟨a', ha', hsame⟩ | ⟨hremoved, hunpaid⟩
    · rcases h'.kept id a' ha' with ⟨a'', ha'', hsame'⟩ | ⟨hremoved, hunpaid⟩
      · exact .inl ⟨a'', ha'', hsame'.trans hsame⟩
      · exact .inr ⟨hsame.userId ▸ hremoved, fun p hp => hunpaid p (h.payouts.subset hp)⟩
    · exact .inr ⟨h'.removals.subset hremoved, hunpaid⟩

lemma accountsStay_of_exec {w w' : BeneficiaryWorld} {ω : BeneficiaryOracle} {op : BeneficiaryOp}
    {r : op.Res} (he : execBeneficiary op ω w = some (r, w')) : AccountsStay w w' := by
  rcases execBeneficiary_cases he with ⟨row, id, -, hput⟩ | ⟨owned, userId, id, hget, rfl, hpaid,
    rfl⟩ | ⟨id, t, -, rfl⟩ | ⟨es, rfl⟩
  · refine ⟨hput.payouts ▸ List.suffix_rfl, hput.removals ▸ List.suffix_rfl, fun k a ha => .inl ?_⟩
    by_cases hk : k = id
    · subst hk
      obtain ⟨a', ha', hsame, -⟩ := hput.written
      have hold := hput.before a ha
      exact ⟨a', ha', hsame.trans ⟨hold.userId.symm, hold.bankCode.symm, hold.accountNumber.symm⟩⟩
    · exact ⟨a, (hput.others k hk).trans ha, rfl, rfl, rfl⟩
  · refine ⟨List.suffix_rfl, List.suffix_cons _ _, fun k a ha => ?_⟩
    by_cases hk : k = id
    · subst hk
      obtain rfl := Option.some.inj (hget.symm.trans ha)
      exact .inr ⟨List.mem_cons_self, hpaid⟩
    · exact .inl ⟨a, by rw [Table.get?_erase, if_neg hk, ha], rfl, rfl, rfl⟩
  · exact .of_accounts rfl (List.suffix_cons _ _) List.suffix_rfl
  · exact .of_accounts rfl List.suffix_rfl List.suffix_rfl

/-! ## In any interleaving -/

/-- Ten digits. -/
def TenDigits (number : String) : Prop :=
  number.toList.length = 10 ∧ ∀ c ∈ number.toList, c.isDigit = true

/-- The bank has given this name for this number, and it is a number. -/
def Confirmed (w : BeneficiaryWorld) (a : BankAccount) : Prop :=
  ⟨a.bankCode, a.accountNumber, a.accountName⟩ ∈ w.enquiries ∧ TenDigits a.accountNumber

/-- Every row is confirmed, a user has a number once, and what was paid to is still there. -/
structure BeneficiariesOk (w : BeneficiaryWorld) : Prop where
  named : ∀ id a, w.accounts.get? id = some a → Confirmed w a.toBankAccount
  once : ∀ id a id' a', w.accounts.get? id = some a → w.accounts.get? id' = some a' →
    SameAccount a.toBankAccount a'.toBankAccount → id = id'
  referenced : ∀ p ∈ w.payouts, (w.accounts.get? p.1).isSome = true

/-- What is written is confirmed. -/
def BeneficiaryContract (_ : ℕ) (_ : BeneficiaryRequest) (_ : BeneficiaryWorld)
    (op : BeneficiaryOp) (w : BeneficiaryWorld) : Prop :=
  match op with
  | .saveAccount userId bankCode number name | .storeDestination userId bankCode number name =>
      Confirmed w ⟨userId, bankCode, number, name⟩
  | _ => True

/-- What has been asked stays so, and the accounts as above. -/
structure BeneficiaryLater (w w' : BeneficiaryWorld) : Prop extends AccountsStay w w' where
  enquiries : w.enquiries ⊆ w'.enquiries

lemma BeneficiaryLater.refl (w : BeneficiaryWorld) : BeneficiaryLater w w :=
  ⟨.refl w, fun _ h => h⟩

lemma BeneficiaryLater.trans {w w' w'' : BeneficiaryWorld} (h : BeneficiaryLater w w')
    (h' : BeneficiaryLater w' w'') : BeneficiaryLater w w'' :=
  ⟨h.toAccountsStay.trans h'.toAccountsStay, fun _ he => h'.enquiries (h.enquiries he)⟩

section Interleavings

variable {toRfc3339 : Time → String} {w w' born : BeneficiaryWorld} {ω : BeneficiaryOracle}
  {tid : ℕ} {req : BeneficiaryRequest}

lemma Confirmed.later {a : BankAccount} (h : Confirmed w a) (hR : BeneficiaryLater w w') :
    Confirmed w' a := ⟨hR.enquiries h.1, h.2⟩

lemma beneficiaryLater_of_exec {op : BeneficiaryOp} {r : op.Res}
    (he : execBeneficiary op ω w = some (r, w')) : BeneficiaryLater w w' := by
  refine ⟨accountsStay_of_exec he, ?_⟩
  rcases execBeneficiary_cases he with ⟨row, id, -, hput⟩ | ⟨a, userId, id, -, -, -, rfl⟩ |
    ⟨id, t, -, rfl⟩ | ⟨es, rfl⟩
  · exact fun _ he => hput.enquiries.symm ▸ he
  · exact fun _ h => h
  · exact fun _ h => h
  · exact List.subset_append_right _ _

lemma beneficiaryLater_of_step {op : BeneficiaryOp} {r : op.Res}
    (he : (keepingAccounts toRfc3339).exec tid op ω w = some (r, w')) : BeneficiaryLater w w' :=
  beneficiaryLater_of_exec (show execBeneficiary op ω w = some (r, w') from he)

/-- An upsert of a confirmed row. -/
lemma BeneficiariesOk.upsert {row : BankAccount} {id : Uuid} (hI : BeneficiariesOk w)
    (hput : Upserted w row id w') (hrow : Confirmed w row) (hlater : BeneficiaryLater w w') :
    BeneficiariesOk w' := by
  obtain ⟨written, hwritten, hsame, hname⟩ := hput.written
  -- Whoever has the same number has it in the row that is written.
  have honly : ∀ k a, k ≠ id → w'.accounts.get? k = some a → ¬ SameAccount a.toBankAccount row := by
    intro k a hne ha hsame'
    rw [hput.others k hne] at ha
    rcases hbefore : w.accounts.get? id with _ | old
    · exact hput.conflict hbefore k a ha hsame'
    · have hold := hput.before old hbefore
      exact hne (hI.once k a id old ha hbefore (hsame'.trans ⟨hold.userId.symm,
        hold.bankCode.symm, hold.accountNumber.symm⟩))
  refine ⟨fun k a ha => ?_, fun k a k' a' ha ha' heq => ?_, fun p hp => ?_⟩
  · by_cases hk : k = id
    · subst hk
      obtain rfl := Option.some.inj (hwritten.symm.trans ha)
      unfold Confirmed
      rw [hsame.bankCode, hsame.accountNumber, hname]
      exact hrow.later hlater
    · exact (hI.named k a (hput.others k hk ▸ ha)).later hlater
  · by_cases hk : k = id <;> by_cases hk' : k' = id
    · rw [hk, hk']
    · subst hk
      obtain rfl := Option.some.inj (hwritten.symm.trans ha)
      refine absurd (SameAccount.trans ⟨heq.userId.symm, heq.bankCode.symm,
        heq.accountNumber.symm⟩ hsame) (honly k' a' hk' ha')
    · subst hk'
      obtain rfl := Option.some.inj (hwritten.symm.trans ha')
      exact absurd (heq.trans hsame) (honly k a hk ha)
    · exact hI.once k a k' a' (hput.others k hk ▸ ha) (hput.others k' hk' ▸ ha') heq
  · rw [hput.payouts] at hp
    by_cases hk : p.1 = id
    · rw [hk, hwritten]
      rfl
    · rw [hput.others _ hk]
      exact hI.referenced p hp

/-- A statement that keeps its contract. -/
lemma BeneficiariesOk.exec {op : BeneficiaryOp} {r : op.Res} (hI : BeneficiariesOk w)
    (hC : BeneficiaryContract tid req born op w) (he : execBeneficiary op ω w = some (r, w')) :
    BeneficiariesOk w' := by
  have hlater := beneficiaryLater_of_exec he
  rcases execBeneficiary_cases he with ⟨row, id, hop, hput⟩ | ⟨a, userId, id, -, -, hpaid, rfl⟩ |
    ⟨id, t, hthere, rfl⟩ | ⟨es, rfl⟩
  · refine hI.upsert hput ?_ hlater
    rcases hop with rfl | rfl
    · exact hC
    · exact hC
  · have hkept : ∀ k a, (w.accounts.erase id).get? k = some a → w.accounts.get? k = some a := by
      intro k a ha
      rw [Table.get?_erase] at ha
      split_ifs at ha
      exact ha
    refine ⟨fun k a ha => (hI.named k a (hkept k a ha)).later hlater,
      fun k a k' a' ha ha' => hI.once k a k' a' (hkept k a ha) (hkept k' a' ha'), fun p hp => ?_⟩
    rw [Table.get?_erase, if_neg (hpaid p hp)]
    exact hI.referenced p hp
  · refine ⟨fun k a ha => (hI.named k a ha).later hlater, hI.once, fun p hp => ?_⟩
    rcases List.mem_cons.mp hp with rfl | hp
    · exact hthere
    · exact hI.referenced p hp
  · exact ⟨fun k a ha => (hI.named k a ha).later hlater, hI.once, hI.referenced⟩

/-! ## Answers -/

/-- When an account was last paid to, by these payouts. -/
def LastPaid (payouts : List (Uuid × Time)) (id : Uuid) : Option Time → Prop
  | none => ∀ t, (id, t) ∉ payouts
  | some t => IsGreatest {t | (id, t) ∈ payouts} t

/-- What `list_accounts` shows of a user who came to one world and is answered in a later one: rows
of their own, each once and all confirmed, in their order, by the payouts there were in between;
and whatever was there when they came, unless they have removed it. -/
structure Listing (userId : Uuid) (born w : BeneficiaryWorld) (rows : List ListedAccount) :
    Prop where
  sorted : rows.Pairwise fun a b => b.rank ≤ a.rank
  once : (rows.map ListedAccount.id).Nodup
  own : ∀ a ∈ rows, a.account.userId = userId ∧ Confirmed w a.account.toBankAccount
  paid : ∃ past, born.payouts <:+ past ∧ past <:+ w.payouts ∧
    ∀ a ∈ rows, LastPaid past a.id a.lastUsedAt
  complete : ∀ id a, born.accounts.get? id = some a → a.userId = userId →
    (∃ row ∈ rows, row.id = id ∧ SameAccount row.account.toBankAccount a.toBankAccount) ∨
      (userId, id) ∈ w.removals

/-- What a request is told: the name that the bank gave for a number; a user's rows; a saved account
with the number that was sent, at a bank that is listed, and the name that the bank gave; that a row
is removed when it is; and an account of the user's own, confirmed. -/
def BeneficiaryRight (toRfc3339 : Time → String) (req : BeneficiaryRequest)
    (born : BeneficiaryWorld) (answer : BeneficiaryAnswer) (w : BeneficiaryWorld) : Prop :=
  match req, answer with
  | .enquire bankCode number, .enquired (.ok r) => r.bankCode = bankCode ∧
      r.accountNumber = Banking.digits number ∧ TenDigits r.accountNumber ∧
        ⟨r.bankCode, r.accountNumber, r.accountName⟩ ∈ w.enquiries
  | .list userId, .listed accounts => ∃ rows : List ListedAccount,
      accounts = rows.map (ListedAccount.response toRfc3339) ∧ Listing userId born w rows
  | .add userId body, .added (.ok r) => r.bankCode = body.bankCode ∧
      (body.bankCode, r.bankName) ∈ bankList ∧ r.accountNumber = Banking.digits body.accountNumber ∧
        Confirmed w ⟨userId, r.bankCode, r.accountNumber, r.accountName⟩
  | .remove userId id, .removed (.ok ()) => (userId, id) ∈ w.removals
  | .pay userId _, .paid (.ok a) => a.userId = userId ∧ Confirmed w a
  | .enquire _ _, .enquired (.error _) | .add _ _, .added (.error _)
  | .remove _ _, .removed (.error _) | .pay _ _, .paid (.error _) => True
  | _, _ => False

lemma Listing.later {userId : Uuid} {rows : List ListedAccount} (h : Listing userId born w rows)
    (hR : BeneficiaryLater w w') : Listing userId born w' rows where
  sorted := h.sorted
  once := h.once
  own a ha := ⟨(h.own a ha).1, (h.own a ha).2.later hR⟩
  paid := by
    obtain ⟨past, hborn, hpast, hlast⟩ := h.paid
    exact ⟨past, hborn, hpast.trans hR.payouts, hlast⟩
  complete id a ha huser := (h.complete id a ha huser).imp_right fun hr => hR.removals.subset hr

lemma BeneficiaryRight.later {answer : BeneficiaryAnswer}
    (h : BeneficiaryRight toRfc3339 req born answer w) (hR : BeneficiaryLater w w') :
    BeneficiaryRight toRfc3339 req born answer w' := by
  unfold BeneficiaryRight at h ⊢
  split at h
  · exact ⟨h.1, h.2.1, h.2.2.1, hR.enquiries h.2.2.2⟩
  · obtain ⟨rows, hrows, hlisting⟩ := h
    exact ⟨rows, hrows, hlisting.later hR⟩
  · exact ⟨h.1, h.2.1, h.2.2.1, h.2.2.2.later hR⟩
  · exact hR.removals.subset h
  · exact ⟨h.1, h.2.later hR⟩
  · trivial
  · trivial
  · trivial
  · trivial
  · exact h

/-- What is safe in any interleaving. -/
abbrev BeneficiarySafe (toRfc3339 : Time → String) (tid : ℕ) (req : BeneficiaryRequest)
    (born : BeneficiaryWorld) {β : Type} (Q : β → BeneficiaryWorld → Prop) :
    BeneficiaryProg β → BeneficiaryWorld → Prop :=
  Safe (keepingAccounts toRfc3339) BeneficiariesOk (fun _ => BeneficiaryLater) anyOp
    BeneficiaryContract tid req born Q

lemma tenDigits_of_normalised {raw number : String} (h : normaliseAccountNumber raw = .ok number) :
    number = Banking.digits raw ∧ TenDigits number := by
  unfold normaliseAccountNumber at h
  split_ifs at h with hlength
  cases h
  rw [not_not] at hlength
  refine ⟨rfl, ?_, fun c hc => ?_⟩
  · rw [String.length_toList, hlength]
  · rw [Banking.digits, String.toList_ofList] at hc
    exact (List.mem_filter.mp hc).2

lemma exec_resolveAccount {bankCode number : String} {r : Except ApiError String}
    (he : execBeneficiary (.resolveAccount bankCode number) ω w = some (r, w')) {name : String}
    (hr : r = .ok name) : ⟨bankCode, number, name⟩ ∈ w'.enquiries := by
  subst hr
  simp only [execBeneficiary] at he
  split at he
  · cases he
  · cases he
    exact List.mem_cons_self

lemma before_trans (a b c : ListedAccount) (hab : a.before b = true) (hbc : b.before c = true) :
    a.before c = true := by
  simp only [ListedAccount.before, decide_eq_true_eq] at hab hbc ⊢
  exact hbc.trans hab

lemma before_total (a b : ListedAccount) : (a.before b || b.before a) = true := by
  simpa [ListedAccount.before] using le_total b.rank a.rank

lemma lastPaid_lastUsedAt (w : BeneficiaryWorld) (id : Uuid) :
    LastPaid w.payouts id (w.lastUsedAt id) := by
  have hmem : ∀ t, t ∈ (w.payouts.filter fun p => p.1 = id).map Prod.snd ↔
      (id, t) ∈ w.payouts := by
    intro t
    simp only [List.mem_map, List.mem_filter, decide_eq_true_eq, Prod.exists]
    constructor
    · rintro ⟨_, _, ⟨h, rfl⟩, rfl⟩
      exact h
    · exact fun h => ⟨id, t, ⟨h, rfl⟩, rfl⟩
  unfold BeneficiaryWorld.lastUsedAt
  rcases hlast : ((w.payouts.filter fun p => p.1 = id).map Prod.snd).max? with _ | t
  · rw [hlast]
    intro t ht
    rw [← hmem, List.max?_eq_none_iff.mp hlast] at ht
    cases ht
  · rw [hlast]
    obtain ⟨ht, hle⟩ := List.max?_eq_some_iff.mp hlast
    exact ⟨(hmem t).mp ht, fun t' ht' => hle t' ((hmem t').mpr ht')⟩

/-- The rows that `list_accounts` selects. -/
lemma listing_of_select {userId : Uuid} (hI : BeneficiariesOk w) (hR : BeneficiaryLater born w) :
    Listing userId born w (((w.accounts.rows.filter fun r => r.2.userId = userId).map fun r =>
      (⟨r.1, r.2, w.lastUsedAt r.1⟩ : ListedAccount)).mergeSort ListedAccount.before) := by
  set selected := (w.accounts.rows.filter fun r => r.2.userId = userId).map fun r =>
    (⟨r.1, r.2, w.lastUsedAt r.1⟩ : ListedAccount) with hselected
  have hperm : (selected.mergeSort ListedAccount.before).Perm selected := List.mergeSort_perm _ _
  have hmem : ∀ a, a ∈ selected.mergeSort ListedAccount.before ↔ w.accounts.get? a.id =
      some a.account ∧ a.account.userId = userId ∧ a.lastUsedAt = w.lastUsedAt a.id := by
    intro a
    rw [hperm.mem_iff, hselected, List.mem_map]
    constructor
    · rintro ⟨r, hr, rfl⟩
      obtain ⟨hrow, huser⟩ := List.mem_filter.mp hr
      exact ⟨Table.get?_eq_some_iff.mpr hrow, of_decide_eq_true huser, rfl⟩
    · rintro ⟨hget, huser, hlast⟩
      obtain ⟨id, account, lastUsedAt⟩ := a
      obtain rfl : lastUsedAt = w.lastUsedAt id := hlast
      exact ⟨(id, account), List.mem_filter.mpr ⟨Table.get?_eq_some_iff.mp hget,
        decide_eq_true huser⟩, rfl⟩
  refine ⟨?_, ?_, fun a ha => ?_, ⟨w.payouts, hR.payouts, List.suffix_rfl, fun a ha => ?_⟩,
    fun id a ha huser => ?_⟩
  · exact (List.pairwise_mergeSort before_trans before_total _).imp fun h => of_decide_eq_true h
  · rw [(hperm.map _).nodup_iff, hselected, List.map_map]
    exact (w.accounts.nodup.sublist (List.filter_sublist.map Prod.fst))
  · obtain ⟨hget, huser, -⟩ := (hmem a).mp ha
    exact ⟨huser, hI.named a.id a.account hget⟩
  · rw [((hmem a).mp ha).2.2]
    exact lastPaid_lastUsedAt w a.id
  · rcases hR.kept id a ha with ⟨a', ha', hsame⟩ | ⟨hremoved, -⟩
    · refine .inl ⟨⟨id, a', w.lastUsedAt id⟩, (hmem _).mpr ⟨ha', ?_, rfl⟩, rfl, hsame⟩
      exact hsame.userId.trans huser
    · exact .inr (huser ▸ hremoved)

lemma safe_listAccounts (tid : ℕ) (userId : Uuid) (w : BeneficiaryWorld) :
    BeneficiarySafe toRfc3339 tid req w
      (fun accounts => BeneficiaryRight toRfc3339 (.list userId) w (.listed accounts))
      (listAccounts toRfc3339 userId) w := by
  simp only [listAccounts, Prog.perform_bind, Prog.pure_eq]
  intro w₁ hI₁ hR₁ ω₁ _
  refine ⟨trivial, fun rows w₂ he => ?_⟩
  obtain ⟨hrows, rfl⟩ := Prod.mk.inj (Option.some.inj he)
  exact ⟨rows, rfl, hrows ▸ listing_of_select hI₁ hR₁⟩

lemma mem_bankList {code : String} (h : ensureKnownBank code = .ok ()) :
    (code, bankName code) ∈ bankList := by
  unfold ensureKnownBank at h
  split_ifs at h with hknown
  obtain ⟨b, hb, hcode⟩ := List.any_eq_true.mp hknown
  have hsome : (bankList.find? fun b => b.1 = code).isSome = true :=
    List.find?_isSome.mpr ⟨b, hb, hcode⟩
  obtain ⟨found, hfound⟩ := Option.isSome_iff_exists.mp hsome
  have hsame : found.1 = code := by simpa using List.find?_some hfound
  rw [bankName, hfound, Option.map_some, Option.getD_some, ← hsame]
  exact List.mem_of_find?_eq_some hfound

lemma exec_deleteAccount {userId id : Uuid}
    (he : execBeneficiary (.deleteAccount userId id) ω w = some (.ok true, w')) :
    (userId, id) ∈ w'.removals := by
  simp only [execBeneficiary] at he
  split at he
  · rcases answered_cases (Option.some.inj he) with ⟨removed, hremoved, -⟩ | ⟨-, e, herror⟩
    · split_ifs at hremoved with hpaid
      cases hremoved
      exact List.mem_cons_self
    · cases herror
  · cases he

/-- An account that is read is the user's own. -/
lemma BeneficiariesOk.read {userId id : Uuid} {account : BankAccount} (hI : BeneficiariesOk w)
    (h : ((w.accounts.get? id).filter fun a => a.userId = userId).map (·.toBankAccount) =
      some account) : account.userId = userId ∧ Confirmed w account := by
  obtain ⟨saved, hfilter, rfl⟩ := Option.map_eq_some_iff.mp h
  obtain ⟨hget, huser⟩ := Option.filter_eq_some_iff.mp hfilter
  exact ⟨of_decide_eq_true huser, hI.named id saved hget⟩

/-- Whoever has asked the bank may rely on the answer having been given. -/
lemma safe_asking {β : Type} {Q : β → BeneficiaryWorld → Prop} {bankCode number : String}
    {k : Except ApiError String → BeneficiaryProg β}
    (hrefused : ∀ e w, BeneficiarySafe toRfc3339 tid req born Q (k (.error e)) w)
    (hnamed : ∀ name w, ⟨bankCode, number, name⟩ ∈ w.enquiries →
      BeneficiarySafe toRfc3339 tid req born Q (k (.ok name)) w) :
    BeneficiarySafe toRfc3339 tid req born Q (.call (.resolveAccount bankCode number) k) w := by
  intro w₁ _ _ ω₁ _
  refine ⟨trivial, fun r w₂ he => ?_⟩
  rcases r with e | name
  · exact hrefused e w₂
  · exact hnamed name w₂ (exec_resolveAccount he rfl)

lemma safe_resolveEnquiry (tid : ℕ) (bankCode accountNumber : String) (w : BeneficiaryWorld) :
    BeneficiarySafe toRfc3339 tid req born
      (fun answer => BeneficiaryRight toRfc3339 (.enquire bankCode accountNumber) born
        (.enquired answer))
      (resolveEnquiry bankCode accountNumber) w := by
  unfold resolveEnquiry
  split
  · exact trivial
  · rename_i number hnumber
    obtain ⟨rfl, hten⟩ := tenDigits_of_normalised hnumber
    split
    · exact trivial
    · simp only [Prog.perform_bind, Prog.pure_eq]
      refine safe_asking (fun _ _ => trivial) fun accountName w₁ hasked => ?_
      exact ⟨rfl, rfl, hten, hasked⟩

lemma safe_addAccount (tid : ℕ) (userId : Uuid) (body : AddAccountBody) (w : BeneficiaryWorld) :
    BeneficiarySafe toRfc3339 tid req born
      (fun answer => BeneficiaryRight toRfc3339 (.add userId body) born (.added answer))
      (addAccount toRfc3339 userId body) w := by
  unfold addAccount
  split
  · exact trivial
  · rename_i number hnumber
    obtain ⟨rfl, hten⟩ := tenDigits_of_normalised hnumber
    split
    · exact trivial
    · rename_i hknown
      simp only [Prog.perform_bind, Prog.pure_eq]
      refine safe_asking (fun _ _ => trivial) fun accountName w₁ hasked => ?_
      intro w₂ _ hR₂ ω₂ _
      have hconfirmed : Confirmed w₂
          ⟨userId, body.bankCode, Banking.digits body.accountNumber, accountName⟩ :=
        ⟨hR₂.enquiries hasked, hten⟩
      refine ⟨hconfirmed, fun saved w₃ he₂ => ?_⟩
      rcases saved with e | saved
      · exact trivial
      · exact ⟨rfl, mem_bankList hknown, rfl, hconfirmed.later (beneficiaryLater_of_step he₂)⟩

lemma safe_removeAccount (tid : ℕ) (userId id : Uuid) (w : BeneficiaryWorld) :
    BeneficiarySafe toRfc3339 tid req born
      (fun answer => BeneficiaryRight toRfc3339 (.remove userId id) born (.removed answer))
      (removeAccount userId id) w := by
  simp only [removeAccount, Prog.perform_bind, Prog.pure_eq]
  intro w₁ _ _ ω₁ _
  refine ⟨trivial, fun removed w₂ he => ?_⟩
  replace he : execBeneficiary (.deleteAccount userId id) ω₁ w₁ = some (removed, w₂) := he
  rcases removed with e | removed
  · exact trivial
  · cases removed with
    | false => exact trivial
    | true => exact exec_deleteAccount he

/-- What is stored on the way to a payout has been confirmed. -/
lemma safe_beneficiaryDestination (tid : ℕ) (userId : Uuid) (destination : Destination)
    (w : BeneficiaryWorld) : BeneficiarySafe toRfc3339 tid req born (fun _ _ => True)
      (beneficiaryDestination userId destination) w := by
  cases destination with
  | beneficiary id => exact trivial
  | oneOff bankCode accountNumber accountName save =>
      dsimp only [beneficiaryDestination]
      split
      · exact trivial
      · rename_i number hnumber
        have hten := (tenDigits_of_normalised hnumber).2
        simp only [Prog.perform_bind, Prog.pure_eq]
        refine safe_asking (fun _ _ => trivial) fun resolved w₁ hasked => ?_
        dsimp only
        split
        · exact trivial
        · intro w₂ _ hR₂ ω₂ _
          exact ⟨⟨hR₂.enquiries hasked, hten⟩, fun _ _ _ => trivial⟩

lemma safe_payTo (tid : ℕ) (userId : Uuid) (destination : Destination) (w : BeneficiaryWorld) :
    BeneficiarySafe toRfc3339 tid req born
      (fun answer => BeneficiaryRight toRfc3339 (.pay userId destination) born (.paid answer))
      (payTo userId destination) w := by
  refine Safe.bind (safe_beneficiaryDestination tid userId destination w) fun r w₁ _ => ?_
  rcases r with e | id
  · exact trivial
  · simp only [Prog.perform_bind, Prog.pure_eq]
    intro w₂ hI₂ _ ω₂ _
    refine ⟨trivial, fun found w₃ he₂ => ?_⟩
    obtain ⟨hfound, rfl⟩ := Prod.mk.inj (Option.some.inj he₂)
    rcases found with _ | account
    · exact trivial
    · obtain ⟨huser, hconfirmed⟩ := hI₂.read hfound
      intro w₄ _ hR₄ ω₄ _
      refine ⟨trivial, fun createdAt w₅ he₄ => ?_⟩
      have hconfirmed₅ := (hconfirmed.later hR₄).later (beneficiaryLater_of_step he₄)
      intro w₆ _ hR₆ ω₆ _
      refine ⟨trivial, fun inserted w₇ he₆ => ?_⟩
      rcases inserted with e | _
      · exact trivial
      · exact ⟨huser, (hconfirmed₅.later hR₆).later (beneficiaryLater_of_step he₆)⟩

/-- An endpoint does no more than to wrap what it is told. -/
lemma safe_told {β : Type} {p : BeneficiaryProg β} (f : β → BeneficiaryAnswer)
    (hp : BeneficiarySafe toRfc3339 tid req born
      (fun r => BeneficiaryRight toRfc3339 req born (f r)) p w) :
    BeneficiarySafe toRfc3339 tid req born (BeneficiaryRight toRfc3339 req born)
      (p >>= fun r => pure (f r)) w :=
  Safe.bind hp fun _ _ h => h

lemma safe_beneficiaryProgram (tid : ℕ) (req : BeneficiaryRequest) (w : BeneficiaryWorld) :
    BeneficiarySafe toRfc3339 tid req w (BeneficiaryRight toRfc3339 req w)
      (beneficiaryProgram toRfc3339 req) w := by
  cases req with
  | enquire bankCode number => exact safe_told .enquired (safe_resolveEnquiry tid bankCode number w)
  | list userId => exact safe_told .listed (safe_listAccounts tid userId w)
  | add userId body => exact safe_told .added (safe_addAccount tid userId body w)
  | remove userId id => exact safe_told .removed (safe_removeAccount tid userId id w)
  | pay userId destination => exact safe_told .paid (safe_payTo tid userId destination w)

lemma keeps_keepingAccounts (toRfc3339 : Time → String) :
    Keeps (keepingAccounts toRfc3339) BeneficiariesOk (fun _ => BeneficiaryLater) anyOp
      BeneficiaryContract where
  refl _ w := .refl w
  trans h h' := h.trans h'
  env {d w w'} hI h := by
    cases h
    exact ⟨⟨hI.named, hI.once, hI.referenced⟩, fun _ =>
      ⟨.of_accounts rfl List.suffix_rfl List.suffix_rfl, fun _ h => h⟩⟩
  op hI _ hC h := ⟨hI.exec hC h, fun _ _ => beneficiaryLater_of_step h⟩
  spawn tid req w _ := (safe_beneficiaryProgram tid req w).mono fun _ _ _ => trivial

end Interleavings

abbrev BeneficiaryState := Sys BeneficiaryOp BeneficiaryOp.Res BeneficiaryWorld BeneficiaryRequest
  BeneficiaryWorld BeneficiaryAnswer

/-- **Beneficiaries stay.**  From any state to any later one, in every interleaving: a row that is
stored keeps its identifier, its user, its bank and its number, or its user has removed it; and
what had been paid to before is not removed. -/
theorem beneficiaries_stay {toRfc3339 : Time → String} {s s' : BeneficiaryState}
    (h : (keepingAccounts toRfc3339).Reachable unguarded s s') : AccountsStay s.world s'.world :=
  Reachable.world_rel .refl .trans (fun w w' hstep => by
    cases hstep with
    | env he =>
        cases he
        exact .of_accounts rfl List.suffix_rfl List.suffix_rfl
    | exec he => exact accountsStay_of_exec he) h

/-! ## A run -/

/-- Somebody saves an account under a name of their own, and pays to it a day later. -/
def savingAndPaying : List (Act BeneficiaryOracle Time BeneficiaryRequest) :=
  [.spawn 0 (.add 1 ⟨"058", "012-345-6789", some "Mum"⟩), .resume 0 { resolved := .ok "ADA OBI" },
    .resume 0 { fresh := 7 }, .env 86400, .spawn 1 (.pay 1 (.beneficiary 7)), .resume 1 {},
    .resume 1 {}, .resume 1 {}]

/-- The number and the name that a finished payment was answered with. -/
def paidAccount (s : BeneficiaryState) (tid : ℕ) : Option (Uuid × Destination × BankAccount) :=
  match s.task tid with
  | some ⟨.pay userId destination, _, .ret (.paid (.ok a))⟩ => some (userId, destination, a)
  | _ => none

lemma task_of_paidAccount {s : BeneficiaryState} {tid : ℕ} {userId : Uuid}
    {destination : Destination} {a : BankAccount}
    (h : paidAccount s tid = some (userId, destination, a)) :
    ∃ born, s.task tid = some ⟨.pay userId destination, born, .ret (.paid (.ok a))⟩ := by
  unfold paidAccount at h
  split at h
  · rename_i born _ ht
    cases h
    exact ⟨_, ht⟩
  · cases h

/-- They remove it before it is paid to. -/
theorem beneficiaries_stay_removed : ∃ w w', (w.accounts.get? 7).isSome = true ∧
    w'.accounts.get? 7 = none ∧ AccountsStay w w' := by
  let saved : BeneficiaryWorld :=
    { BeneficiaryWorld.fresh 0 with
      accounts := ⟨[(7, ⟨⟨1, "058", "0123456789", "ADA OBI"⟩, none, 0⟩)], by decide⟩ }
  obtain ⟨s, hreach, hgone⟩ := exists_reachable_of_run (keepingAccounts rfc3339Text) unguarded
    (Sys.idle saved) [.spawn 0 (.remove 1 7), .resume 0 {}]
    (fun s => (s.world.accounts.get? 7).isNone = true) (by decide +kernel)
  exact ⟨saved, s.world, rfl, Option.isNone_iff_eq_none.mp hgone, beneficiaries_stay hreach⟩

end Naivolt
