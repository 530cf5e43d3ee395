import Naivolt.System.Statements

/-!
# Ledger transactions and each other

What the transactions of `Naivolt.System.Statements` may do to the ledger's tables while others are
in progress.  The tables are at every moment a `Ledger` in the sense of `Naivolt.Ledger.Journal`
(`Represents`).

What a transaction knows of them it may go on knowing (`LedgerLater`): accounts and journals stay, a
key it has entered into a unique index stays its own, and the sum over an account it has locked
does not grow — nobody debits a user's naira without the lock.

`Standing` is how far a transaction has come.  The lemmas of the last section say what each
statement makes of it.
-/

namespace Naivolt

open Foundation Database

/-! ## The tables and the ledger -/

namespace LedgerDb

variable {d : LedgerDb} {a : Account} {id : Uuid} {key : String}

lemma accountId_eq_some (h : d.accountId a = some id) : d.accounts.get? id = some a := by
  obtain ⟨⟨i, b⟩, hfind, rfl⟩ := Option.map_eq_some_iff.mp h
  have hb : b = a := by simpa using List.find?_some hfind
  exact Table.get?_eq_some_iff.mpr (hb ▸ List.mem_of_find?_eq_some hfind)

lemma accountId_eq_none : d.accountId a = none ↔ ∀ id, d.accounts.get? id ≠ some a := by
  simp only [accountId, Option.map_eq_none_iff, List.find?_eq_none, decide_eq_true_eq, Prod.forall,
    ne_eq, Table.get?_eq_some_iff]
  exact ⟨fun h id hmem => h id a hmem rfl, fun h id b hmem hb => h id (hb ▸ hmem)⟩

lemma journalId_eq_some (h : d.journalId key = some id) :
    ∃ row, d.journals.get? id = some row ∧ row.idempotencyKey = key := by
  obtain ⟨⟨i, row⟩, hfind, rfl⟩ := Option.map_eq_some_iff.mp h
  exact ⟨row, Table.get?_eq_some_iff.mpr (List.mem_of_find?_eq_some hfind),
    by simpa using List.find?_some hfind⟩

lemma journalId_eq_none : d.journalId key = none ↔
    ∀ id row, d.journals.get? id = some row → row.idempotencyKey ≠ key := by
  simp only [journalId, Option.map_eq_none_iff, List.find?_eq_none, decide_eq_true_eq, Prod.forall,
    ne_eq, Table.get?_eq_some_iff]

/-- No account has two rows. -/
def Once (d : LedgerDb) : Prop :=
  ∀ id id' a, d.accounts.get? id = some a → d.accounts.get? id' = some a → id = id'

/-- An entry with its account in place of the account's identifier. -/
def named (d : LedgerDb) (e : EntryRow) : Uuid × Option Account × ℚ :=
  (e.journalId, d.accounts.get? e.accountId, e.amount)

end LedgerDb

/-- The row of a journal. -/
def Journal.row (j : Journal) : JournalRow := ⟨j.kind, j.reference, j.idempotencyKey⟩

/-- The entries of a journal under the identifier it is filed under. -/
def Posting.named (p : Posting) : List (Uuid × Option Account × ℚ) :=
  p.journal.entries.map fun e => (p.id, some e.account, e.amount)

/-- The tables are that ledger. -/
structure Represents (d : LedgerDb) (l : Ledger) : Prop where
  journals : d.journals.rows = l.postings.map fun p => (p.id, p.journal.row)
  entries : (d.entries.map d.named).Perm (l.postings.flatMap Posting.named)

namespace Represents

variable {d d' : LedgerDb} {l l' : Ledger}

/-- The foreign key. -/
lemma account (h : Represents d l) {e : EntryRow} (he : e ∈ d.entries) :
    ∃ a, d.accounts.get? e.accountId = some a := by
  have hmem := h.entries.mem_iff.mp (List.mem_map_of_mem he)
  obtain ⟨p, -, hp⟩ := List.mem_flatMap.mp hmem
  obtain ⟨x, -, hx⟩ := List.mem_map.mp hp
  exact ⟨x.account, (congrArg (·.2.1) hx).symm⟩

/-- New accounts change nothing. -/
lemma accounts_grow (h : Represents d l)
    (hacc : ∀ id a, d.accounts.get? id = some a → d'.accounts.get? id = some a)
    (hj : d'.journals = d.journals) (he : d'.entries = d.entries) : Represents d' l := by
  refine ⟨by rw [hj]; exact h.journals, ?_⟩
  have hsame : d'.entries.map d'.named = d.entries.map d.named := by
    rw [he]
    refine List.map_congr_left fun e hmem => ?_
    obtain ⟨a, ha⟩ := h.account hmem
    simp only [LedgerDb.named, ha, hacc _ _ ha]
  rw [hsame]
  exact h.entries

lemma journalId_eq_none (h : Represents d l) {key : String} :
    d.journalId key = none ↔ l.findKey key = none := by
  simp only [LedgerDb.journalId, Option.map_eq_none_iff, h.journals, List.find?_map, Ledger.findKey,
    Function.comp_def, Journal.row]

lemma get?_journals (h : Represents d l) {id : Uuid} {row : JournalRow}
    (hrow : d.journals.get? id = some row) : ∃ p ∈ l.postings, p.id = id ∧ p.journal.row = row := by
  have hmem := h.journals ▸ Table.get?_eq_some_iff.mp hrow
  obtain ⟨p, hp, heq⟩ := List.mem_map.mp hmem
  exact ⟨p, hp, congrArg Prod.fst heq, congrArg Prod.snd heq⟩

lemma notMem_ids (h : Represents d l) {id : Uuid} (hid : d.journals.get? id = none) :
    id ∉ l.postings.map Posting.id := by
  have hkeys := Table.get?_eq_none_iff.mp hid
  rw [h.journals, List.map_map] at hkeys
  exact hkeys

/-- The sum over an account's row is the account's balance. -/
lemma sum_eq (h : Represents d l) (honce : d.Once) {id : Uuid} {a : Account}
    (ha : d.accounts.get? id = some a) : d.sum id = l.balance a := by
  have hrow : ∀ e : EntryRow,
      decide (e.accountId = id) = decide (d.accounts.get? e.accountId = some a) := by
    intro e
    refine decide_eq_decide.mpr ⟨fun he => he ▸ ha, fun he => honce _ _ _ he ha⟩
  have hleft : d.sum id =
      (((d.entries.map d.named).filter fun x => x.2.1 = some a).map (·.2.2)).sum := by
    simp only [LedgerDb.sum, List.filter_map, List.map_map, hrow]
    rfl
  have hright : ∀ ps : List Posting,
      (((ps.flatMap Posting.named).filter fun x => x.2.1 = some a).map (·.2.2)).sum =
        (ps.map fun p => p.journal.amountOn a).sum := by
    intro ps
    induction ps with
    | nil => rfl
    | cons p ps ih =>
        rw [List.flatMap_cons, List.filter_append, List.map_append, List.sum_append, ih,
          List.map_cons, List.sum_cons]
        congr 1
        simp only [Posting.named, List.filter_map, List.map_map, Journal.amountOn,
          JournalBuilder.amountOn, Journal.builder, Function.comp_def, Option.some.injEq]
  rw [hleft, ((h.entries.filter _).map _).sum_eq, hright]
  rfl

lemma sum_eq_zero (h : Represents d l) {id : Uuid} (hid : d.accounts.get? id = none) :
    d.sum id = 0 := by
  have hnil : (d.entries.filter fun e => e.accountId = id) = [] := by
    refine List.filter_eq_nil_iff.mpr fun e he heq => ?_
    obtain ⟨a, ha⟩ := h.account he
    rw [of_decide_eq_true heq, hid] at ha
    cases ha
  simp [LedgerDb.sum, hnil]

end Represents

/-- No user's naira is below zero. -/
def Solvent (l : Ledger) : Prop :=
  ∀ userId, 0 ≤ AccountKind.userNgn.userFacingBalance (l.balance (.userNgn userId))

/-! ## What may become of the tables -/

/-- The invariant of the committed tables, which were `d₀` in the beginning. -/
structure LedgerOk (d₀ d : LedgerDb) : Prop where
  once : d.Once
  ledger : ∃ l, Represents d l ∧ Solvent l
  grown : ∀ id a, d₀.accounts.get? id = some a → d.accounts.get? id = some a

/-- What a transaction that holds the locks may rely on. -/
structure LedgerLater (locks : List LedgerLock) (d d' : LedgerDb) : Prop where
  accounts : ∀ id a, d.accounts.get? id = some a → d'.accounts.get? id = some a
  accountIds : ∀ id, .account id ∈ locks → d.accounts.get? id = none →
    d'.accounts.get? id = none
  accountKeys : ∀ a, .accountKey a ∈ locks → d.accountId a = none → d'.accountId a = none
  journals : ∀ id row, d.journals.get? id = some row → d'.journals.get? id = some row
  journalIds : ∀ id, .journal id ∈ locks → d.journals.get? id = none →
    d'.journals.get? id = none
  journalKeys : ∀ key, .journalKey key ∈ locks → d.journalId key = none →
    d'.journalId key = none
  debits : ∀ id, .account id ∈ locks →
    (∀ a, d.accounts.get? id = some a → a.kind = .userNgn) → d'.sum id ≤ d.sum id

namespace LedgerLater

variable {locks : List LedgerLock} {d d' d'' : LedgerDb}

lemma refl (locks : List LedgerLock) (d : LedgerDb) : LedgerLater locks d d where
  accounts _ _ h := h
  accountIds _ _ h := h
  accountKeys _ _ h := h
  journals _ _ h := h
  journalIds _ _ h := h
  journalKeys _ _ h := h
  debits _ _ _ := le_rfl

lemma trans (h : LedgerLater locks d d') (h' : LedgerLater locks d' d'') :
    LedgerLater locks d d'' where
  accounts id a ha := h'.accounts id a (h.accounts id a ha)
  accountIds id hl hn := h'.accountIds id hl (h.accountIds id hl hn)
  accountKeys a hl hn := h'.accountKeys a hl (h.accountKeys a hl hn)
  journals id row hr := h'.journals id row (h.journals id row hr)
  journalIds id hl hn := h'.journalIds id hl (h.journalIds id hl hn)
  journalKeys key hl hn := h'.journalKeys key hl (h.journalKeys key hl hn)
  debits id hl hkind := by
    refine (h'.debits id hl fun a ha => ?_).trans (h.debits id hl hkind)
    rcases hd : d.accounts.get? id with _ | b
    · rw [h.accountIds id hl hd] at ha
      cases ha
    · rw [h.accounts id b hd] at ha
      exact Option.some.inj ha ▸ hkind b hd

/-- Fewer locks, less to rely on. -/
lemma anti {locks' : List LedgerLock} (h : LedgerLater locks' d d') (hsub : locks ⊆ locks') :
    LedgerLater locks d d' where
  accounts := h.accounts
  accountIds id hl := h.accountIds id (hsub hl)
  accountKeys a hl := h.accountKeys a (hsub hl)
  journals := h.journals
  journalIds id hl := h.journalIds id (hsub hl)
  journalKeys key hl := h.journalKeys key (hsub hl)
  debits id hl := h.debits id (hsub hl)

end LedgerLater

/-! ## What a transaction knows -/

/-- How far a transaction has come: the accounts it has opened, its locks, and the tables. -/
structure Standing where
  opened : List (Uuid × Account)
  locks : List LedgerLock
  db : LedgerDb

namespace Standing

/-- The inserts of the accounts it has opened. -/
def writes (σ : Standing) : List LedgerWrite := σ.opened.map fun r => .account r.1 r.2

/-- Nobody else has an account it has opened, nor its identifier. -/
structure Ok (d₀ : LedgerDb) (σ : Standing) : Prop where
  db : LedgerOk d₀ σ.db
  locked : ∀ r ∈ σ.opened, .account r.1 ∈ σ.locks ∧ .accountKey r.2 ∈ σ.locks
  free : ∀ r ∈ σ.opened, σ.db.accounts.get? r.1 = none ∧ σ.db.accountId r.2 = none
  nodup : (σ.opened.map Prod.snd).Nodup

/-- The row is that of the account. -/
def Held (σ : Standing) (id : Uuid) (a : Account) : Prop :=
  σ.db.accounts.get? id = some a ∨ (id, a) ∈ σ.opened

/-- What the journal takes from a user's naira, the account has, and it is locked. -/
def Safe (σ : Standing) (b : JournalBuilder) : Prop :=
  ∀ a, a.kind = .userNgn → 0 < b.amountOn a →
    ∃ id, σ.Held id a ∧ .account id ∈ σ.locks ∧ σ.db.sum id + b.amountOn a ≤ 0

/-- From one standing to a later one of the same transaction. -/
structure Onward (σ σ' : Standing) : Prop where
  opened : σ.opened ⊆ σ'.opened
  locks : σ.locks ⊆ σ'.locks
  later : LedgerLater σ.locks σ.db σ'.db

variable {d₀ : LedgerDb} {σ σ' σ'' : Standing} {id : Uuid} {a : Account}

lemma Onward.refl (σ : Standing) : σ.Onward σ :=
  ⟨List.Subset.refl _, List.Subset.refl _, .refl _ _⟩

lemma Onward.trans (h : σ.Onward σ') (h' : σ'.Onward σ'') : σ.Onward σ'' :=
  ⟨List.Subset.trans h.opened h'.opened, List.Subset.trans h.locks h'.locks,
    h.later.trans (h'.later.anti h.locks)⟩

lemma Held.onward (h : σ.Held id a) (ho : σ.Onward σ') : σ'.Held id a :=
  h.imp (ho.later.accounts id a) fun hmem => ho.opened hmem

/-- A locked account of naira has no less than it had. -/
lemma sum_onward (ho : σ.Onward σ') (hok : σ.Ok d₀) (hl : .account id ∈ σ.locks)
    (hheld : σ.Held id a) (hkind : a.kind = .userNgn) : σ'.db.sum id ≤ σ.db.sum id := by
  refine ho.later.debits id hl fun b hb => ?_
  rcases hheld with ha | hmem
  · rw [hb] at ha
    exact Option.some.inj ha ▸ hkind
  · rw [(hok.free _ hmem).1] at hb
    cases hb

lemma Safe.onward {b : JournalBuilder} (h : σ.Safe b) (hok : σ.Ok d₀) (ho : σ.Onward σ') :
    σ'.Safe b := by
  intro a hkind hpos
  obtain ⟨id, hheld, hl, hle⟩ := h a hkind hpos
  have hsum := sum_onward ho hok hl hheld hkind
  exact ⟨id, hheld.onward ho, ho.locks hl, by linarith⟩

/-- Time passes, for one whose locks stand. -/
lemma Ok.later (h : σ.Ok d₀) {d : LedgerDb} (hd : LedgerOk d₀ d)
    (hlater : LedgerLater σ.locks σ.db d) :
    Standing.Ok d₀ ⟨σ.opened, σ.locks, d⟩ ∧ σ.Onward ⟨σ.opened, σ.locks, d⟩ where
  left :=
    { db := hd
      locked := h.locked
      free := fun r hr =>
        ⟨hlater.accountIds _ (h.locked r hr).1 (h.free r hr).1,
          hlater.accountKeys _ (h.locked r hr).2 (h.free r hr).2⟩
      nodup := h.nodup }
  right := ⟨List.Subset.refl _, List.Subset.refl _, hlater⟩

/-- More locks. -/
lemma Ok.lock (h : σ.Ok d₀) (ls : List LedgerLock) :
    Standing.Ok d₀ ⟨σ.opened, σ.locks ++ ls, σ.db⟩ ∧ σ.Onward ⟨σ.opened, σ.locks ++ ls, σ.db⟩ where
  left :=
    { db := h.db
      locked := fun r hr => ⟨List.mem_append_left _ (h.locked r hr).1,
        List.mem_append_left _ (h.locked r hr).2⟩
      free := h.free
      nodup := h.nodup }
  right := ⟨List.Subset.refl _, List.subset_append_left _ _, .refl _ _⟩

/-- One more account. -/
lemma Ok.open_account (h : σ.Ok d₀) (hid : σ.db.accounts.get? id = none)
    (ha : σ.db.accountId a = none) (hnew : ∀ i, (i, a) ∉ σ.opened) :
    Standing.Ok d₀ ⟨σ.opened ++ [(id, a)], σ.locks ++ [.account id, .accountKey a], σ.db⟩ ∧
      σ.Onward ⟨σ.opened ++ [(id, a)], σ.locks ++ [.account id, .accountKey a], σ.db⟩ where
  left :=
    { db := h.db
      locked := by
        intro r hr
        rcases List.mem_append.mp hr with hr | hr
        · exact ⟨List.mem_append_left _ (h.locked r hr).1, List.mem_append_left _ (h.locked r hr).2⟩
        · rw [List.mem_singleton.mp hr]
          simp
      free := by
        intro r hr
        rcases List.mem_append.mp hr with hr | hr
        · exact h.free r hr
        · rw [List.mem_singleton.mp hr]
          exact ⟨hid, ha⟩
      nodup := by
        rw [List.map_append, List.nodup_append]
        refine ⟨h.nodup, List.nodup_singleton _, fun b hb c hc hbc => ?_⟩
        obtain ⟨r, hr, rfl⟩ := List.mem_map.mp hb
        rw [List.map_singleton, List.mem_singleton] at hc
        have hr' : r = (r.1, a) := Prod.ext rfl (hbc.trans hc)
        exact hnew r.1 (hr' ▸ hr) }
  right := ⟨List.subset_append_left _ _, List.subset_append_left _ _, .refl _ _⟩

end Standing

/-- What a transaction sees of the tables when it has opened accounts. -/
lemma view_opened (opened : List (Uuid × Account)) {d v : LedgerDb}
    (h : ledgerDatabase.view (opened.map fun r => .account r.1 r.2) d = some v) :
    v.journals = d.journals ∧ v.entries = d.entries ∧
      ∀ id a, v.accounts.get? id = some a ↔ d.accounts.get? id = some a ∨ (id, a) ∈ opened := by
  induction opened generalizing d with
  | nil =>
      cases h
      simp
  | cons r opened ih =>
      obtain ⟨d₁, h₁, h₂⟩ := Option.bind_eq_some_iff.mp
        (show ((LedgerWrite.account r.1 r.2).apply d).bind
          (ledgerDatabase.view (opened.map fun r => .account r.1 r.2)) = some v from h)
      obtain ⟨t, ht, rfl⟩ := Option.map_eq_some_iff.mp h₁
      obtain ⟨hj, he, hacc⟩ := ih h₂
      refine ⟨hj, he, fun id a => ?_⟩
      rw [hacc, Table.get?_insert ht]
      have hfree := (Table.insert_eq_some ht).1
      by_cases hid : id = r.1
      · subst hid
        simp only [if_true, Option.some.injEq, hfree, List.mem_cons, Prod.ext_iff, true_and,
          reduceCtorEq, false_or]
        exact or_congr_left eq_comm
      · simp [hid, Prod.ext_iff]

/-! ## What a transaction has established -/

/-- The row of one entry. -/
def entryRow (journalId : Uuid) (line : Uuid × Entry) : EntryRow :=
  ⟨journalId, line.1, line.2.asset, line.2.amount⟩

/-- A journal is being filed under an identifier and a key nobody else can take. -/
structure Filing (d₀ : LedgerDb) (b : JournalBuilder) (j : Journal) (id : Uuid)
    (lines : List (Uuid × Entry)) (σ : Standing) : Prop where
  ok : σ.Ok d₀
  build : b.build = .ok j
  entries : lines.map Prod.snd = j.entries
  held : ∀ r ∈ lines, σ.Held r.1 r.2.account
  safe : σ.Safe b
  idLocked : .journal id ∈ σ.locks
  keyLocked : .journalKey j.idempotencyKey ∈ σ.locks
  idFree : σ.db.journals.get? id = none
  keyFree : σ.db.journalId j.idempotencyKey = none

/-- What a transaction has established when its statements are through. -/
def LedgerPost (d₀ : LedgerDb) (a : LedgerAnswer) (ws : List LedgerWrite) (ls : List LedgerLock)
    (d : LedgerDb) : Prop :=
  match a with
  | .posted b (.posted id) => ∃ opened j lines, Filing d₀ b j id lines ⟨opened, ls, d⟩ ∧
      ws = Standing.writes ⟨opened, ls, d⟩ ++
        .journal id j.row :: lines.map fun r => .entry (entryRow id r)
  | .posted b (.alreadyPosted id) => ∃ opened j row, Standing.Ok d₀ ⟨opened, ls, d⟩ ∧
      ws = Standing.writes ⟨opened, ls, d⟩ ∧ b.build = .ok j ∧
      d.journals.get? id = some row ∧ row.idempotencyKey = j.idempotencyKey
  | .nothing => ∃ opened, Standing.Ok d₀ ⟨opened, ls, d⟩ ∧
      ws = Standing.writes ⟨opened, ls, d⟩
  | .failed .rowNotFound => False
  | .failed (.accountExists a) => (∃ kind, a = .platform kind) ∧ d₀.accountId a = none ∧
      d.accountId a ≠ none
  | _ => True

/-- A statement on none of the ledger's tables. -/
def LedgerOp.elsewhere : LedgerOp → Bool
  | .newReference | .findOrder | .quoteOrder | .orderKeysRequired | .lockRow | .writeRow => true
  | _ => false

/-- The rest of the transaction, from here. -/
def Standing.Runs (d₀ : LedgerDb) (σ : Standing) (p : LedgerTxn) : Prop :=
  Wp ledgerDatabase anyStatement (LedgerOk d₀) LedgerLater (LedgerPost d₀) p σ.writes σ.locks σ.db

namespace Standing

variable {d₀ : LedgerDb} {σ σ' : Standing} {id : Uuid} {a : Account} {v : LedgerDb}

lemma view_held (h : ledgerDatabase.view σ.writes σ.db = some v) :
    v.accounts.get? id = some a ↔ σ.Held id a := (view_opened _ h).2.2 id a

/-- It writes and locks nothing here. -/
lemma quiet_of_elsewhere {ω : LedgerOracle} {seen current : LedgerDb} {op : LedgerOp}
    {x : op.Res × List LedgerWrite × List LedgerLock} (hop : op.elsewhere = true)
    (h : execLedger ω seen current op = some x) : x.2.1 = [] ∧ x.2.2 = [] := by
  cases op with
  | newReference | findOrder | quoteOrder | orderKeysRequired | lockRow | writeRow =>
      cases h
      exact ⟨rfl, rfl⟩
  | _ => cases hop

/-- One statement: the tables when it is sent, and when it is executed. -/
lemma runs_call (hok : σ.Ok d₀) {op : LedgerOp} {k : op.Res → LedgerTxn}
    (h : ∀ ω r ws ls d₁ d₂ seen current, Standing.Ok d₀ ⟨σ.opened, σ.locks, d₁⟩ →
      Standing.Ok d₀ ⟨σ.opened, σ.locks, d₂⟩ → σ.Onward ⟨σ.opened, σ.locks, d₁⟩ →
      LedgerLater σ.locks d₁ d₂ → ledgerDatabase.view σ.writes d₁ = some seen →
      ledgerDatabase.view σ.writes d₂ = some current →
      execLedger ω seen current op = some (r, ws, ls) →
      Wp ledgerDatabase anyStatement (LedgerOk d₀) LedgerLater (LedgerPost d₀) (k r)
        (σ.writes ++ ws) (σ.locks ++ ls) d₂) : σ.Runs d₀ (.call op k) := by
  intro d₁ d₂ hR₁ hI₁ hR₂ hI₂ ω r ws ls _ hst
  obtain ⟨seen, current, hseen, hcurrent, hexec⟩ := statement_eq_some.mp hst
  obtain ⟨hok₁, hon₁⟩ := hok.later hI₁ hR₁
  obtain ⟨hok₂, -⟩ := hok₁.later hI₂ hR₂
  exact h ω r ws ls d₁ d₂ seen current hok₁ hok₂ hon₁ hR₂ hseen hcurrent hexec

/-- A statement on another table, whatever it answers. -/
lemma runs_elsewhere (hok : σ.Ok d₀) {op : LedgerOp} {k : op.Res → LedgerTxn}
    (hop : op.elsewhere = true)
    (hk : ∀ r σ', σ'.Ok d₀ → σ.Onward σ' → σ'.Runs d₀ (k r)) : σ.Runs d₀ (.call op k) := by
  refine runs_call hok fun ω r ws ls d₁ d₂ seen current _ hok₂ hon₁ hR₂ _ _ hexec => ?_
  obtain ⟨rfl, rfl⟩ := quiet_of_elsewhere hop hexec
  rw [List.append_nil, List.append_nil]
  exact hk r ⟨σ.opened, σ.locks, d₂⟩ hok₂
    ⟨List.Subset.refl _, List.Subset.refl _, hon₁.later.trans hR₂⟩

lemma runs_select (hok : σ.Ok d₀) {forUpdate : Bool}
    {k : (LedgerOp.selectAccount a forUpdate).Res → LedgerTxn}
    (hsome : ∀ id σ', σ'.Ok d₀ → σ.Onward σ' → σ'.Held id a →
      (forUpdate = true → .account id ∈ σ'.locks) → σ'.Runs d₀ (k (some id)))
    (hnone : ∀ σ', σ'.Ok d₀ → σ.Onward σ' → σ'.opened = σ.opened → (∀ id, ¬ σ.Held id a) →
      σ'.Runs d₀ (k none)) :
    σ.Runs d₀ (.call (.selectAccount a forUpdate) k) := by
  refine runs_call hok fun ω r ws ls d₁ d₂ seen current hok₁ hok₂ hon₁ hR₂ hseen _ hexec => ?_
  cases hexec
  obtain ⟨hok₃, hon₃⟩ := hok₂.lock
    (if forUpdate then (seen.accountId a).toList.map .account else [])
  have hon₂ : Standing.Onward ⟨σ.opened, σ.locks, d₁⟩ ⟨σ.opened, σ.locks, d₂⟩ :=
    ⟨List.Subset.refl _, List.Subset.refl _, hR₂⟩
  rw [List.append_nil]
  rcases hfound : seen.accountId a with _ | id
  · rw [hfound] at hok₃ hon₃
    refine hnone _ hok₃ ((hon₁.trans hon₂).trans hon₃) rfl fun id hheld => ?_
    exact LedgerDb.accountId_eq_none.mp hfound id
      ((view_held (σ := ⟨σ.opened, σ.locks, d₁⟩) hseen).mpr (hheld.onward hon₁))
  · rw [hfound] at hok₃ hon₃
    refine hsome id _ hok₃ ((hon₁.trans hon₂).trans hon₃) ?_ fun hforUpdate => ?_
    · have hheld := (view_held (σ := ⟨σ.opened, σ.locks, d₁⟩) hseen).mp
        (LedgerDb.accountId_eq_some hfound)
      exact hheld.onward (hon₂.trans hon₃)
    · simp [hforUpdate]

lemma runs_insert (hok : σ.Ok d₀) {doNothing : Bool}
    {k : (LedgerOp.insertAccount a doNothing).Res → LedgerTxn} (hnot : ∀ id, (id, a) ∉ σ.opened)
    (hnew : ∀ id σ', σ'.Ok d₀ → σ.Onward σ' → σ'.Held id a → .account id ∈ σ'.locks →
      σ'.Runs d₀ (k (.ok (some id))))
    (hlost : ∀ id σ', σ'.Ok d₀ → σ.Onward σ' → σ'.db.accounts.get? id = some a →
      σ'.Runs d₀ (k (if doNothing then .ok none else .error ()))) :
    σ.Runs d₀ (.call (.insertAccount a doNothing) k) := by
  refine runs_call hok fun ω r ws ls d₁ d₂ seen current _ hok₂ hon₁ hR₂ _ hcurrent hexec => ?_
  have hon₂ : σ.Onward ⟨σ.opened, σ.locks, d₂⟩ :=
    ⟨List.Subset.refl _, List.Subset.refl _, hon₁.later.trans hR₂⟩
  have hacc := (view_opened σ.opened hcurrent).2.2
  simp only [execLedger] at hexec
  split at hexec
  · rename_i hthere
    cases hexec
    rw [List.append_nil, List.append_nil]
    obtain ⟨id, hid⟩ := Option.isSome_iff_exists.mp hthere
    rcases (hacc id a).mp (LedgerDb.accountId_eq_some hid) with hdb | hopen
    · exact hlost id _ hok₂ hon₂ hdb
    · exact absurd hopen (hnot id)
  · rename_i hfree
    rw [Bool.not_eq_true, Option.isSome_eq_false_iff, Option.isNone_iff_eq_none] at hfree
    split at hexec
    · cases hexec
    · rename_i hid
      rw [Bool.not_eq_true, Option.isSome_eq_false_iff, Option.isNone_iff_eq_none] at hid
      cases hexec
      have hid₂ : d₂.accounts.get? ω.fresh = none := by
        by_contra hne
        obtain ⟨b, hb⟩ := Option.ne_none_iff_exists'.mp hne
        rw [(hacc _ b).mpr (.inl hb)] at hid
        cases hid
      have ha₂ : d₂.accountId a = none := LedgerDb.accountId_eq_none.mpr fun i hi =>
        LedgerDb.accountId_eq_none.mp hfree i ((hacc i a).mpr (.inl hi))
      obtain ⟨hok₃, hon₃⟩ := hok₂.open_account hid₂ ha₂ hnot
      have hrun := hnew ω.fresh _ hok₃ (hon₂.trans hon₃) (.inr (by simp)) (by simp)
      simpa only [Runs, writes, List.map_append, List.map_singleton] using hrun

end Standing

end Naivolt
