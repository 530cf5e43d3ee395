import Naivolt.Payouts.Replay

/-!
# What a payout answer says

`create_payout` answers with an amount, a status and a reference taken from the row of `payouts`,
and with a bank account taken from its own request: the one it resolved and read before it came to
reserve.  When the key already has a payout the two need not belong together, and nothing compares
the amount or the destination of the request with those of the payout it is told of.

This module puts `bank_accounts` beside the backend and follows a request to its answer
(`answer_of_along`).  `payout_answer_describes_iff` says when the answer describes the row it
names: when the account reads as it did when the request read it, and the payout filed under the
key, if there is one, is for the amount and the account of the request.  `answer_names_new_bank`
is a customer who is told that their money went to the second of two banks, and it went to the
first.
-/

namespace Naivolt

open Foundation Foundation.Machine

/-! ## Bank accounts -/

/-- A row of `bank_accounts`. -/
structure BankAccount where
  userId : Uuid
  bankCode : String
  accountNumber : String
  accountName : String
  deriving DecidableEq

/-- `bank_list`, code and name. -/
def bankList : List (String × String) :=
  [("044", "Access Bank"), ("063", "Access Bank (Diamond)"), ("035A", "ALAT by Wema"),
    ("023", "Citibank Nigeria"), ("050", "Ecobank Nigeria"), ("070", "Fidelity Bank"),
    ("011", "First Bank of Nigeria"), ("214", "FCMB"), ("058", "GTBank"), ("030", "Heritage Bank"),
    ("301", "Jaiz Bank"), ("082", "Keystone Bank"), ("090267", "Kuda Microfinance Bank"),
    ("50515", "Moniepoint MFB"), ("999992", "OPay"), ("999991", "PalmPay"),
    ("526", "Parallex Bank"), ("076", "Polaris Bank"), ("101", "Providus Bank"),
    ("221", "Stanbic IBTC Bank"), ("068", "Standard Chartered"), ("232", "Sterling Bank"),
    ("100", "SunTrust Bank"), ("032", "Union Bank of Nigeria"), ("033", "UBA"),
    ("215", "Unity Bank"), ("566", "VFD Microfinance Bank"), ("035", "Wema Bank"),
    ("057", "Zenith Bank")]

/-- `bank_name_for`: the code itself when the bank is not listed. -/
def bankName (code : String) : String :=
  ((bankList.find? (fun b => b.1 = code)).map Prod.snd).getD code

/-- `PayoutBankAccount`. -/
structure PayoutBankAccount where
  bankName : String
  accountNumber : String
  accountName : String
  deriving DecidableEq

def BankAccount.shown (a : BankAccount) : PayoutBankAccount :=
  ⟨Naivolt.bankName a.bankCode, a.accountNumber, a.accountName⟩

/-- The account of a user at a bank; `UNIQUE (user_id, bank_code, account_number)`. -/
def accountOf (accounts : Table Uuid BankAccount) (userId : Uuid) (bankCode number : String) :
    Option (Uuid × BankAccount) :=
  accounts.rows.find? fun r =>
    r.2.userId = userId && r.2.bankCode = bankCode && r.2.accountNumber = number

/-- The upsert of `resolve_destination` and `add_account`. -/
def storeAccount (fresh userId : Uuid) (bankCode number name : String)
    (accounts : Table Uuid BankAccount) : Option (Uuid × Table Uuid BankAccount) :=
  match accountOf accounts userId bankCode number with
  | some (id, _) => some (id, accounts.modify id fun a => { a with accountName := name })
  | none =>
      (accounts.insert fresh ⟨userId, bankCode, number, name⟩).map fun accounts =>
        (fresh, accounts)

/-! ## Requests and answers -/

/-- `Destination`. -/
inductive Destination where
  | beneficiary (bankAccountId : Uuid)
  | oneOff (bankCode accountNumber accountName : String) (save : Bool)
  deriving DecidableEq

/-- A request of `create_payout`: its user, its header and its body.  `scale` is the number of
decimals the client wrote. -/
structure PayoutRequest where
  userId : Uuid
  key : String
  amountNgn : ℚ
  scale : ℕ
  destination : Destination
  deriving DecidableEq

/-- `PayoutResponse`. -/
structure PayoutResponse where
  id : Uuid
  amountNgn : ℚ
  fee : ℚ
  bankAccount : PayoutBankAccount
  status : PayoutStatus
  reference : String
  createdAt : Time
  settledAt : Option Time
  deriving DecidableEq

/-- What is sent of a row and an account. -/
def payoutResponse (id : Uuid) (p : Payout) (account : BankAccount) : PayoutResponse :=
  ⟨id, p.amountNgn, p.feeNgn, account.shown, p.status, p.providerReference, p.createdAt, none⟩

/-! ## The backend with its bank accounts -/

/-- The tables of the backend and `bank_accounts`. -/
structure BankingWorld where
  world : World
  accounts : Table Uuid BankAccount

/-- `payouts.bank_account_id` references `bank_accounts`. -/
def Referenced (w : BankingWorld) : Prop :=
  ∀ r ∈ w.world.payouts.rows, (w.accounts.get? r.2.bankAccountId).isSome = true

instance (w : BankingWorld) : Decidable (Referenced w) := by
  unfold Referenced
  infer_instance

/-- A statement is refused when it breaks the reference. -/
def referenced (w : BankingWorld) : Option BankingWorld :=
  if Referenced w then some w else none

/-- What `create_payout` asks of database and provider. -/
inductive BankingOp where
  | payouts (op : PayoutOp)
  | resolveAccount (bankCode number : String)
  | storeAccount (userId : Uuid) (bankCode number name : String)
  | readAccount (userId id : Uuid)

abbrev BankingOp.Res : BankingOp → Type
  | .payouts op => op.Res
  | .resolveAccount .. => Except ApiError String
  | .storeAccount .. => Uuid
  | .readAccount .. => Option BankAccount

/-- What an operation does not decide itself: the backend's oracle, the name the bank answers with
and the identifier a new account gets. -/
structure BankingOracle where
  backend : Oracle := {}
  resolved : Except ApiError String :=
    .error (.badRequest "Couldn't find that account. Check the number and bank.")
  account : Uuid := 0

def execBanking (cfg : Config) (tid : ℕ) :
    (op : BankingOp) → BankingOracle → BankingWorld → Option (op.Res × BankingWorld)
  | .payouts op, ω, w =>
      (exec cfg tid (.payouts op) ω.backend w.world).bind fun (r, world) =>
        (referenced { w with world := world }).map fun w => (r, w)
  | .resolveAccount _ _, ω, w => some (ω.resolved, w)
  | .storeAccount userId bankCode number name, ω, w =>
      (storeAccount ω.account userId bankCode number name w.accounts).map fun (id, accounts) =>
        (id, { w with accounts := accounts })
  | .readAccount userId id, _, w =>
      some ((w.accounts.get? id).filter fun a => a.userId = userId, w)

/-- What happens beside the requests: the moves of `payingBackend`, whatever else the backend
does, and beneficiaries that are added or removed. -/
inductive BankingMove where
  | paying (e : PayingMove)
  | ran (tid : ℕ) (op : Op) (ω : Oracle)
  | added (fresh userId : Uuid) (bankCode number name : String)
  | removed (userId id : Uuid)

def moveBanking (cfg : Config) : BankingMove → BankingWorld → Option BankingWorld
  | .paying e, w => (execPaying e w.world).map fun world => { w with world := world }
  | .ran _ (.payouts _) _, _ => none
  | .ran tid op ω, w => (exec cfg tid op ω w.world).map fun r => { w with world := r.2 }
  | .added fresh userId bankCode number name, w =>
      (storeAccount fresh userId bankCode number name w.accounts).map fun r =>
        { w with accounts := r.2 }
  | .removed userId id, w =>
      if (w.accounts.get? id).any (fun a => a.userId = userId) then
        referenced { w with accounts := w.accounts.erase id }
      else none

namespace Banking

abbrev Handler := Prog BankingOp BankingOp.Res

abbrev ask (op : BankingOp) : Handler op.Res := Prog.perform op

/-- The digits of an account number as it was typed. -/
def digits (number : String) : String := String.ofList (number.toList.filter Char.isDigit)

/-- `resolve_destination`. -/
def resolveDestination (userId : Uuid) : Destination → Handler (Except ApiError Uuid)
  | .beneficiary id => pure (.ok id)
  | .oneOff bankCode accountNumber accountName _ =>
      if (digits accountNumber).length ≠ 10 then
        pure (.error (.badRequest "Account numbers are 10 digits."))
      else do
        match ← ask (.resolveAccount bankCode (digits accountNumber)) with
        | .error e => pure (.error e)
        | .ok resolved =>
            if !eqIgnoreAsciiCase (trimText resolved) (trimText accountName) then
              pure (.error (.badRequest
                "That account's name changed. Check it and try again."))
            else do
              let id ← ask
                (.storeAccount userId bankCode (digits accountNumber) resolved)
              pure (.ok id)

/-- `create_payout`. -/
def createPayout (req : PayoutRequest) : Handler (Except ApiError PayoutResponse) :=
  match checkAmount ⟨req.amountNgn, req.scale, 0⟩ with
  | .error e => pure (.error e)
  | .ok () => do
    let user ← ask (.payouts (.readUser req.userId))
    match checkPin user with
    | .error e => pure (.error e)
    | .ok () =>
      let used ← ask (.payouts (.usedToday req.userId))
      match checkPayout user.tier req.amountNgn used with
      | .error e => pure (.error e)
      | .ok () =>
        match ← resolveDestination req.userId req.destination with
        | .error e => pure (.error e)
        | .ok bank =>
          match ← ask (.readAccount req.userId bank) with
          | none => pure (.error .notFound)
          | some account =>
            match ← ask
              (.payouts (.reserve req.userId req.key req.amountNgn bank)) with
            | .error e => pure (.error e)
            | .ok (id, p) => pure (.ok (payoutResponse id p account))

end Banking

/-- Any number of payout requests, beside everything else. -/
def banking (cfg : Config) : Machine BankingOp BankingOp.Res BankingOracle BankingMove BankingWorld
    PayoutRequest Time (Except ApiError PayoutResponse) where
  exec tid op ω w := execBanking cfg tid op ω w
  env := moveBanking cfg
  program := Banking.createPayout
  stamp w := w.world.now

/-- A state of the backend with its bank accounts, and a move of its schedule. -/
abbrev BankingState :=
  Sys BankingOp BankingOp.Res BankingWorld PayoutRequest Time (Except ApiError PayoutResponse)

abbrev BankingAct := Act BankingOracle BankingMove PayoutRequest

/-- A freshly migrated database with nothing running. -/
def openBanking (now : Time) (wallets : List Wallet) : BankingState :=
  Sys.idle ⟨World.fresh now wallets, .empty⟩

/-- In a state of some run nobody uses the slot; the schedule goes on from there, and at its end
the request has been answered with success. -/
structure AnsweredPayment (cfg : Config) (s : BankingState) (as : List BankingAct) (tid : ℕ)
    (req : PayoutRequest) (r : PayoutResponse) : Prop where
  reached : ∃ now wallets, (banking cfg).Reachable unguarded (openBanking now wallets) s
  idle : s.task tid = none
  answered : ∃ s' born, (banking cfg).run (fun _ _ => true) s as = some s' ∧
    s'.task tid = some ⟨req, born, .ret (.ok r)⟩

/-- The moments of the request. -/
def bankingMoments (cfg : Config) (s : BankingState) (as : List BankingAct) (tid : ℕ) :
    List (Moment BankingOracle BankingWorld) :=
  (banking cfg).moments tid s [] as

/-! ## What an answer should say -/

/-- The account the destination names: the beneficiary, or the one the request has stored. -/
def chosenAccount (req : PayoutRequest) (ms : List (Moment BankingOracle BankingWorld)) :
    Option Uuid :=
  match req.destination with
  | .beneficiary id => some id
  | .oneOff bankCode number _ _ =>
      ms[3]?.bind fun m =>
        (accountOf m.after.accounts req.userId bankCode (Banking.digits number)).map Prod.fst

/-- The answer is what the row it names and the account that row references say; and the row is
for the amount and the account of the request. -/
def Describes (req : PayoutRequest) (ms : List (Moment BankingOracle BankingWorld))
    (r : PayoutResponse) : Prop :=
  ∃ m ∈ ms.getLast?, ∃ p ∈ m.after.world.payouts.get? r.id,
    (∃ account ∈ m.after.accounts.get? p.bankAccountId, r = payoutResponse r.id p account) ∧
    p.amountNgn = req.amountNgn ∧ chosenAccount req ms = some p.bankAccountId

/-- When the request comes to reserve, its account reads as it did when the request read it, and
the payout filed under the key, if there is one, is for its amount and its account. -/
def SameIntent (req : PayoutRequest) (ms : List (Moment BankingOracle BankingWorld)) : Prop :=
  ∀ bank ∈ chosenAccount req ms, ∀ read ∈ ms.dropLast.getLast?, ∀ m ∈ ms.getLast?,
    (m.before.accounts.get? bank).map BankAccount.shown =
      (read.before.accounts.get? bank).map BankAccount.shown ∧
    ∀ q ∈ m.before.world.ledger.findKey req.key,
      ∀ r ∈ findByJournal m.before.world.payouts q.id,
        r.2.amountNgn = req.amountNgn ∧ r.2.bankAccountId = bank

-- Spelled out, as there are only finitely many identifiers and instance search would try all.
instance (req : PayoutRequest) (ms : List (Moment BankingOracle BankingWorld)) :
    Decidable (SameIntent req ms) :=
  @Option.decidableForallMem _ _ (fun _ => inferInstance) _

/-! ## What the operations leave -/

/-- A stored account is the one its user, bank and number name. -/
lemma accountOf_storeAccount {fresh userId id : Uuid} {bankCode number name : String}
    {accounts accounts' : Table Uuid BankAccount}
    (h : storeAccount fresh userId bankCode number name accounts = some (id, accounts')) :
    (accountOf accounts' userId bankCode number).map Prod.fst = some id := by
  unfold storeAccount at h
  split at h
  · rename_i id' a hfind
    cases h
    -- The new name does not matter for finding the row.
    have hsame : ((fun r : Uuid × BankAccount =>
        r.2.userId = userId && r.2.bankCode = bankCode && r.2.accountNumber = number) ∘
        fun r => if r.1 = id then (r.1, { r.2 with accountName := name }) else r) =
        fun r => r.2.userId = userId && r.2.bankCode = bankCode && r.2.accountNumber = number := by
      funext r
      by_cases hr : r.1 = id <;> simp [hr]
    simp only [accountOf, Table.modify, List.find?_map, Option.map_map] at hfind ⊢
    rw [hsame, hfind]
    simp
  · rename_i hnone
    obtain ⟨accounts'', hinsert, h⟩ := Option.map_eq_some_iff.mp h
    cases h
    simp [accountOf, (Table.insert_eq_some hinsert).2]

section Steps

variable {cfg : Config} {tid : ℕ} {ω : BankingOracle} {w w' : BankingWorld}

/-- An operation on payouts is the backend's. -/
lemma exec_of_execBanking {op : PayoutOp} {r : op.Res}
    (h : execBanking cfg tid (.payouts op) ω w = some (r, w')) :
    exec cfg tid (.payouts op) ω.backend w.world = some (r, w'.world) ∧
      w'.accounts = w.accounts := by
  obtain ⟨⟨r', world⟩, he, h⟩ := Option.bind_eq_some_iff.mp h
  obtain ⟨w'', href, h⟩ := Option.map_eq_some_iff.mp h
  cases h
  unfold referenced at href
  split at href
  · cases href
    exact ⟨he, rfl⟩
  · cases href

lemma payoutsLater_of_banking (h : (banking cfg).WorldStep w w') :
    PayoutsLater w.world w'.world := by
  cases h with
  | @exec tid op ω r _ _ he =>
      cases op with
      | payouts op => exact payoutsLater_of_exec (exec_of_execBanking he).1
      | resolveAccount | readAccount =>
          cases he
          exact .refl _
      | storeAccount =>
          obtain ⟨_, -, h⟩ := Option.map_eq_some_iff.mp he
          cases h
          exact .refl _
  | @env e _ _ he =>
      cases e with
      | paying e =>
          obtain ⟨world, hmove, rfl⟩ := Option.map_eq_some_iff.mp he
          exact payoutsLater_of_step (WorldStep.env (M := payingBackend cfg) (e := e) hmove)
      | ran tid op ω =>
          cases op with
          | payouts => cases he
          | _ =>
              obtain ⟨r, hran, rfl⟩ := Option.map_eq_some_iff.mp he
              exact payoutsLater_of_exec hran
      | added =>
          obtain ⟨_, -, rfl⟩ := Option.map_eq_some_iff.mp he
          exact .refl _
      | removed userId id =>
          simp only [banking, moveBanking, referenced] at he
          split at he
          · split at he
            · cases he
              exact .refl _
            · cases he
          · cases he

end Steps

/-! ## The request, up to its answer -/

/-- **What a success answer is made of.**  The request chose an account, read it, and in its last
moment reserved; the answer joins the payout it got back to the account it had read. -/
lemma answer_of_along {cfg : Config} {tid : ℕ} {req : PayoutRequest}
    {ms : List (Moment BankingOracle BankingWorld)} {r : PayoutResponse}
    (h : (banking cfg).Along tid (Banking.createPayout req) ms (.ret (.ok r))) :
    ∃ looked read reserve bank account id p, ms = looked ++ [read, reserve] ∧
      chosenAccount req ms = some bank ∧ read.before.accounts.get? bank = some account ∧
      reserve.after.accounts = reserve.before.accounts ∧
      exec cfg tid (.payouts (.reserve req.userId req.key req.amountNgn bank))
        reserve.answer.backend reserve.before.world = some (.ok (id, p), reserve.after.world) ∧
      r = payoutResponse id p account := by
  -- The last two operations, once an account has been chosen.
  have htail : ∀ {bank : Uuid} {rest : List (Moment BankingOracle BankingWorld)},
      (banking cfg).Along tid (do
        match ← Banking.ask (.readAccount req.userId bank) with
        | none => pure (.error .notFound)
        | some account =>
          match ← Banking.ask
            (.payouts (.reserve req.userId req.key req.amountNgn bank)) with
          | .error e => pure (.error e)
          | .ok (id, p) => pure (.ok (payoutResponse id p account))) rest (.ret (.ok r)) →
      ∃ read reserve account id p, rest = [read, reserve] ∧
        read.before.accounts.get? bank = some account ∧
        reserve.after.accounts = reserve.before.accounts ∧
        exec cfg tid (.payouts (.reserve req.userId req.key req.amountNgn bank))
          reserve.answer.backend reserve.before.world = some (.ok (id, p), reserve.after.world) ∧
        r = payoutResponse id p account := by
    intro bank rest h
    simp only [Banking.ask, Prog.perform_bind] at h
    obtain ⟨read, rest, found, rfl, hread, h⟩ := h.call_ret
    have hfound : (read.before.accounts.get? bank).filter (fun a => a.userId = req.userId) =
        found := congrArg Prod.fst (Option.some.inj hread)
    split at h
    · cases h.ret_nil.1
    · rename_i account
      obtain ⟨reserve, rest, a, rfl, hreserve, h⟩ := h.call_ret
      obtain ⟨hexec, haccounts⟩ := exec_of_execBanking hreserve
      rcases a with e | ⟨id, p⟩
      · cases h.ret_nil.1
      · obtain ⟨hr, rfl⟩ := h.ret_nil
        cases hr
        exact ⟨read, reserve, account, id, p, rfl, (Option.filter_eq_some_iff.mp hfound).1,
          haccounts, hexec, rfl⟩
  unfold Banking.createPayout at h
  split at h
  · cases h.ret_nil.1
  · simp only [Banking.ask, Prog.perform_bind] at h
    obtain ⟨user, ms, a, rfl, -, h⟩ := h.call_ret
    split at h
    · cases h.ret_nil.1
    · obtain ⟨usage, ms, used, rfl, -, h⟩ := h.call_ret
      split at h
      · cases h.ret_nil.1
      · rcases hdest : req.destination with bank | ⟨bankCode, number, name, save⟩
        · simp only [hdest, Banking.resolveDestination, Prog.pure_eq, Prog.ret_bind] at h
          obtain ⟨read, reserve, account, id, p, rfl, hrest⟩ := htail h
          refine ⟨[user, usage], read, reserve, bank, account, id, p, rfl, ?_, hrest⟩
          simp [chosenAccount, hdest]
        · simp only [hdest, Banking.resolveDestination] at h
          split at h
          · cases h.ret_nil.1
          · simp only [Banking.ask, Prog.perform_bind, Prog.call_bind] at h
            obtain ⟨resolve, ms, resolved, rfl, -, h⟩ := h.call_ret
            rcases resolved with e | resolved
            · cases h.ret_nil.1
            · dsimp only at h
              split at h
              · cases h.ret_nil.1
              · obtain ⟨store, ms, bank, rfl, hstore, h⟩ := h.call_ret
                obtain ⟨read, reserve, account, id, p, rfl, hrest⟩ := htail h
                refine ⟨[user, usage, resolve, store], read, reserve, bank, account, id, p, rfl, ?_,
                  hrest⟩
                obtain ⟨⟨bank', accounts⟩, hstored, hafter⟩ := Option.map_eq_some_iff.mp hstore
                obtain rfl : bank' = bank := congrArg Prod.fst hafter
                have haccounts : store.after.accounts = accounts :=
                  (congrArg (fun x => x.2.accounts) hafter).symm
                simpa [chosenAccount, hdest, haccounts] using accountOf_storeAccount hstored

/-! ## When the answer describes the payout -/

/-- A reservation in a state whose payouts name their journals: the payout under the key, or a new
one for the amount and the account. -/
lemma reserve_row {cfg : Config} {tid : ℕ} {userId : Uuid} {key : String} {amount : ℚ}
    {bank : Uuid} {ω : Oracle} {w w' : World} {id : Uuid} {p : Payout} (hnamed : RowsNamed w)
    (h : exec cfg tid (.payouts (.reserve userId key amount bank)) ω w =
      some (.ok (id, p), w')) :
    w'.payouts.get? id = some p ∧
      ((∃ q, w.ledger.findKey key = some q ∧ findByJournal w.payouts q.id = some (id, p)) ∨
        ((∀ q ∈ w.ledger.findKey key, findByJournal w.payouts q.id = none) ∧
          p.amountNgn = amount ∧ p.bankAccountId = bank)) := by
  obtain ⟨db, es, hexec, rfl⟩ := exec_payouts h
  simp only [execPayouts, reservePayout] at hexec
  split at hexec
  · cases hexec
  · split at hexec
    · rename_i payoutId journalId referenceId rest _
      split at hexec
      · cases hexec
      · rename_i journal hbuild
        obtain ⟨⟨posted, ledger⟩, hpost, hexec⟩ := Option.bind_eq_some_iff.mp hexec
        have hkey : journal.idempotencyKey = key := (JournalBuilder.build_eq_ok hbuild).2.2.1
        obtain ⟨hposted, hfresh⟩ := hkey ▸ posted_under hpost
        simp only at hexec
        split at hexec
        · rename_i existing hex
          cases hexec
          obtain ⟨hmem, hj⟩ := findByJournal_eq_some hex
          have hp : w.payouts.get? id = some p := Table.get?_eq_some_iff.mpr hmem
          refine ⟨hp, .inl ?_⟩
          rcases hfound : w.ledger.findKey key with _ | q
          -- A payout names a journal that is there already, and a new one has a new identifier.
          · obtain ⟨q, hq, hqid⟩ := hnamed.named id p hp
            have hid : posted.journalId = journalId := by
              simpa [show w.payoutsDb.ledger.findKey key = none from hfound] using hposted
            exact absurd (hqid.trans (hj.trans hid)) (hfresh hfound q hq)
          · have hid : posted.journalId = q.id := by
              simpa [show w.payoutsDb.ledger.findKey key = some q from hfound] using hposted
            exact ⟨q, rfl, hid ▸ hex⟩
        · rename_i hnone
          obtain ⟨payouts, hinsert, hexec⟩ := Option.bind_eq_some_iff.mp hexec
          cases hexec
          refine ⟨(Table.get?_insert hinsert _).trans (if_pos rfl), .inr ⟨fun q hq => ?_, rfl, rfl⟩⟩
          have hid : posted.journalId = q.id := by
            simpa [show w.payoutsDb.ledger.findKey key = some q from hq] using hposted
          exact hid ▸ hnone
    · cases hexec

/-- The equivalence, for a request that has run along its moments. -/
lemma describes_iff_of_along {cfg : Config} {tid : ℕ} {req : PayoutRequest}
    {ms : List (Moment BankingOracle BankingWorld)} {r : PayoutResponse}
    (h : (banking cfg).Along tid (Banking.createPayout req) ms (.ret (.ok r)))
    (hnamed : ∀ m ∈ ms, RowsNamed m.before.world) : Describes req ms r ↔ SameIntent req ms := by
  obtain ⟨looked, read, reserve, bank, account, id, p, rfl, hchosen, hread, haccounts, hexec,
    rfl⟩ := answer_of_along h
  obtain ⟨hp, hrow⟩ := reserve_row (hnamed reserve (by simp)) hexec
  have hlast : (looked ++ [read, reserve]).getLast? = some reserve := by simp
  have hbefore : (looked ++ [read, reserve]).dropLast.getLast? = some read := by
    simp [List.dropLast_append_of_ne_nil]
  -- The answer describes the row exactly when the account of the row is the one that was read.
  have hdescribes : Describes req (looked ++ [read, reserve]) (payoutResponse id p account) ↔
      (reserve.before.accounts.get? bank).map BankAccount.shown = some account.shown ∧
        p.amountNgn = req.amountNgn ∧ p.bankAccountId = bank := by
    constructor
    · rintro ⟨m, hm, p', hp', ⟨account', haccount', heq⟩, hamount, hbank⟩
      cases hlast.symm.trans hm
      cases hp.symm.trans hp'
      cases hchosen.symm.trans hbank
      refine ⟨?_, hamount, rfl⟩
      have hsame : reserve.before.accounts.get? p.bankAccountId = some account' :=
        haccounts ▸ haccount'
      rw [hsame]
      exact congrArg some (congrArg PayoutResponse.bankAccount heq).symm
    · rintro ⟨hshown, hamount, rfl⟩
      obtain ⟨account', haccount', hshown⟩ := Option.map_eq_some_iff.mp hshown
      refine ⟨reserve, hlast, p, hp, ⟨account', haccounts ▸ haccount', ?_⟩, hamount, hchosen⟩
      simp [payoutResponse, hshown]
  rw [hdescribes]
  constructor
  · rintro ⟨hshown, hamount, rfl⟩ b hb rd hrd m hm
    cases hchosen.symm.trans hb
    cases hbefore.symm.trans hrd
    cases hlast.symm.trans hm
    refine ⟨by rw [hshown, hread]; rfl, fun q hq r hr => ?_⟩
    rcases hrow with ⟨q', hq', hfound⟩ | ⟨hnone, -⟩
    · cases hq'.symm.trans hq
      cases hfound.symm.trans hr
      exact ⟨hamount, rfl⟩
    · cases (hnone q hq).symm.trans hr
  · intro hsame
    obtain ⟨hshown, hpaid⟩ := hsame bank hchosen read hbefore reserve hlast
    refine ⟨by rw [hshown, hread]; rfl, ?_⟩
    rcases hrow with ⟨q, hq, hfound⟩ | ⟨-, hamount, hbank⟩
    · exact hpaid q hq _ hfound
    · exact ⟨hamount, hbank⟩

/-- What the moments of an answered request are. -/
lemma AnsweredPayment.along {cfg : Config} {s : BankingState} {as : List BankingAct} {tid : ℕ}
    {req : PayoutRequest} {r : PayoutResponse} (h : AnsweredPayment cfg s as tid req r) :
    (banking cfg).Along tid (Banking.createPayout req) (bankingMoments cfg s as tid)
        (.ret (.ok r)) ∧
      ∀ m ∈ bankingMoments cfg s as tid, RowsNamed m.before.world := by
  obtain ⟨⟨now, wallets, hreach⟩, hidle, s', born, hrun, ht⟩ := h
  let Later (w w' : BankingWorld) : Prop := PayoutsLater w.world w'.world
  have hstep : ∀ w w', (banking cfg).WorldStep w w' → Later w w' :=
    fun _ _ => payoutsLater_of_banking
  have hnamed : RowsNamed s.world.world :=
    (Reachable.world_rel (R := Later) (fun w => .refl w.world) (fun h h' => h.trans h') hstep
      hreach).named (rowsNamed_fresh now wallets)
  obtain ⟨halong, hms⟩ := along_of_run (R := Later) (fun w => .refl w.world)
    (fun h h' => h.trans h') hstep hidle hrun ht
  exact ⟨halong, fun m hm => (hms m hm).named hnamed⟩

/-! ## Schedules -/

/-- The success answer to the request, if it has had one. -/
def bankingAnswer (s : BankingState) (tid : ℕ) (req : PayoutRequest) : Option PayoutResponse :=
  match s.task tid with
  | some ⟨asked, _, .ret (.ok r)⟩ => if asked = req then some r else none
  | _ => none

/-- A schedule run from the beginning that answers the request. -/
lemma exists_answeredPayment (cfg : Config) (as : List BankingAct) (tid : ℕ) (req : PayoutRequest)
    (h : ((banking cfg).run (fun _ _ => true) (openBanking 0 []) as).any
      (fun s' => (bankingAnswer s' tid req).isSome) = true) :
    ∃ r, AnsweredPayment cfg (openBanking 0 []) as tid req r := by
  obtain ⟨s', hrun, hanswer⟩ := (Option.any_eq_true _ _).mp h
  obtain ⟨r, hr⟩ := Option.isSome_iff_exists.mp hanswer
  unfold bankingAnswer at hr
  split at hr
  · rename_i asked born a ht
    split at hr
    · rename_i heq
      cases hr
      exact ⟨r, ⟨0, [], .init⟩, rfl, s', born, hrun, heq ▸ ht⟩
    · cases hr
  · cases hr

/-- A request answered without interruption. -/
def serveBanking (tid : ℕ) (req : PayoutRequest) (answers : List BankingOracle) :
    List BankingAct :=
  .spawn tid req :: answers.map (.resume tid)

/-- A user who topped up ₦5 000 and has an account at two banks withdraws ₦1 000 to the first
under a key, and then asks under the same key for an amount to be sent to an account. -/
def withdrawsTwice (again : PayoutRequest) (fresh : List Uuid) : List BankingAct :=
  [.env (.paying (.env (.setTier 7 .tier1))),
    .env (.ran 0 (.funding (.insertIntent 7 5000)) { fresh := [100, 101] }),
    .env (.ran 0 (.funding (.credit 100 7 (fundingReference 101) 5000)) { fresh := [102] }),
    .env (.added 9 7 "058" "0123454821" "ADA OBI"),
    .env (.added 10 7 "044" "1123454822" "ADA OBI")] ++
  serveBanking 1 ⟨7, "once", 1000, 0, .beneficiary 9⟩
    [{}, {}, {}, { backend := { fresh := [200, 201, 202] } }] ++
  serveBanking 2 again [{}, {}, {}, { backend := { fresh := fresh } }]

/-- **A payout answer describes the payout it names exactly when the request asks for what the
payout under its key was asked for**, and the account has not been renamed since it was read. -/
theorem payout_answer_describes_iff {cfg : Config} {s : BankingState} {as : List BankingAct}
    {tid : ℕ} {req : PayoutRequest} {r : PayoutResponse} (h : AnsweredPayment cfg s as tid req r) :
    Describes req (bankingMoments cfg s as tid) r ↔
      SameIntent req (bankingMoments cfg s as tid) :=
  describes_iff_of_along h.along.1 h.along.2

/-- The same request again. -/
theorem payout_answer_describes_again :
    ∃ r, AnsweredPayment stubConfig (openBanking 0 [])
        (withdrawsTwice ⟨7, "once", 1000, 0, .beneficiary 9⟩ [300, 301, 302]) 2
        ⟨7, "once", 1000, 0, .beneficiary 9⟩ r ∧
      Describes ⟨7, "once", 1000, 0, .beneficiary 9⟩ (bankingMoments stubConfig (openBanking 0 [])
        (withdrawsTwice ⟨7, "once", 1000, 0, .beneficiary 9⟩ [300, 301, 302]) 2) r := by
  obtain ⟨r, h⟩ := exists_answeredPayment stubConfig
    (withdrawsTwice ⟨7, "once", 1000, 0, .beneficiary 9⟩ [300, 301, 302]) 2
    ⟨7, "once", 1000, 0, .beneficiary 9⟩ (by decide +kernel)
  exact ⟨r, h, (payout_answer_describes_iff h).mpr (by decide +kernel)⟩

/-- A customer sends the key of a payout of ₦1 000 to their account at GTBank again, for ₦2 500 to
their account at Access Bank, and is told that the payout went to Access Bank. -/
theorem answer_names_new_bank :
    ¬ ∀ (s : BankingState) (as : List BankingAct) (tid : ℕ) (req : PayoutRequest)
      (r : PayoutResponse), AnsweredPayment stubConfig s as tid req r →
        Describes req (bankingMoments stubConfig s as tid) r := by
  intro h
  obtain ⟨r, hr⟩ := exists_answeredPayment stubConfig
    (withdrawsTwice ⟨7, "once", 2500, 0, .beneficiary 10⟩ [300, 301, 302]) 2
    ⟨7, "once", 2500, 0, .beneficiary 10⟩ (by decide +kernel)
  have hsame := (describes_iff_of_along hr.along.1 hr.along.2).mp (h _ _ _ _ r hr)
  revert hsame
  decide +kernel

end Naivolt
