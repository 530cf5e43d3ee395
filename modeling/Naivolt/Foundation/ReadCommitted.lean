import Naivolt.Foundation.Actors
import Naivolt.Foundation.Table

/-!
# Transactions at READ COMMITTED

Transactions run side by side over one set of committed tables, a statement at a time.  When a
statement is sent it takes a snapshot of what is committed; when it is executed it works on the
rows its snapshot shows, but a row it changes or locks it finds as it is by then.  In both it sees
what its own transaction has written.  A statement may take locks — on rows, or on the keys it
enters into unique indexes — which the transaction keeps to its end, and it waits, that is, it is
not possible, while another transaction holds one of them.  What a transaction has written is not
seen by others before it commits, and it may be rolled back at any time: it decides to, its
connection goes away, or it is the victim of a deadlock.

`Database` says what the statements of a system do, and `Database.Reachable` is the set of states
that some interleaving of its transactions can produce.

## Reasoning rules

* `Discipline`: rely–guarantee.  `rely ls d d'` is what may become of the committed tables while
  a transaction holds the locks `ls`; `Wp` is the weakest precondition of the statements of a
  transaction under that interference; and a transaction that commits leaves the invariant and
  respects what those rely on whose locks are others than its own.
* `StoreOk.reachable`: what a discipline says then holds in every state some interleaving
  reaches — its invariant of the committed tables, its postcondition of every transaction that
  has run to its end — and `StoreOk.later`: whatever happens later respects what one may rely on
  who holds no lock.
* `alone`, `Serial`, `inTurn`: transactions that run one after another, each with no other in
  between, and `Wp.of_alone`, the same weakest precondition without interference.
-/

namespace Foundation

/-- What statements see, write and lock, what a write does to the tables, which transaction a
request runs, and which results end in a commit.  A statement is given its snapshot and the
tables as they are. -/
structure Database (Op : Type) (Res : Op → Type) (Ω D Wr Lk Req α : Type) where
  exec : (op : Op) → Ω → D → D → Option (Res op × List Wr × List Lk)
  apply : Wr → D → Option D
  program : Req → Prog Op Res α
  commits : α → Bool

/-- A transaction in progress: what is left of it, what it has written and locked, and the tables
that were committed when its next statement was sent. -/
structure Txn (Op : Type) (Res : Op → Type) (D Wr Lk α : Type) where
  rest : Prog Op Res α
  writes : List Wr
  locks : List Lk
  snapshot : Option D

/-- The committed tables and the transactions in progress. -/
structure Store (Op : Type) (Res : Op → Type) (D Wr Lk α : Type) where
  committed : D
  live : Table ℕ (Txn Op Res D Wr Lk α)

/-- The tables with nothing in progress. -/
def Store.quiet {Op : Type} {Res : Op → Type} {D Wr Lk α : Type} (d : D) :
    Store Op Res D Wr Lk α := ⟨d, .empty⟩

/-- What a transaction has to answer, once its statements are through. -/
def Txn.answer {Op : Type} {Res : Op → Type} {D Wr Lk α : Type} (t : Txn Op Res D Wr Lk α) :
    Option α :=
  match t.rest with
  | .ret a => some a
  | .call .. => none

def Store.answer {Op : Type} {Res : Op → Type} {D Wr Lk α : Type} (s : Store Op Res D Wr Lk α)
    (tid : ℕ) : Option α := (s.live.get? tid).bind Txn.answer

lemma Store.answer_eq_some {Op : Type} {Res : Op → Type} {D Wr Lk α : Type}
    {s : Store Op Res D Wr Lk α} {tid : ℕ} {a : α} :
    s.answer tid = some a ↔
      ∃ writes locks snapshot, s.live.get? tid = some ⟨.ret a, writes, locks, snapshot⟩ := by
  rcases ht : s.live.get? tid with _ | ⟨_ | ⟨op, k⟩, writes, locks, snapshot⟩ <;>
    simp [Store.answer, Txn.answer, ht]

/-- One move of the schedule. -/
inductive TxnMove (Ω Req : Type) where
  | start (tid : ℕ) (req : Req)
  /-- The next statement is sent. -/
  | send (tid : ℕ)
  | perform (tid : ℕ) (ω : Ω)
  | commit (tid : ℕ)
  | rollback (tid : ℕ)

namespace TxnMove

variable {Ω Req : Type}

/-- Statements sent and executed one after another, one answer of the schedule for each. -/
def steps (tid : ℕ) (ωs : List Ω) : List (TxnMove Ω Req) :=
  ωs.flatMap fun ω => [.send tid, .perform tid ω]

/-- A transaction from its start to its last statement. -/
def begun (tid : ℕ) (req : Req) (ωs : List Ω) : List (TxnMove Ω Req) :=
  .start tid req :: steps tid ωs

/-- A transaction from its start to its commit. -/
def served (tid : ℕ) (req : Req) (ωs : List Ω) : List (TxnMove Ω Req) :=
  begun tid req ωs ++ [.commit tid]

end TxnMove

/-- Every statement the program may send satisfies `O`, and every result it may return `A`. -/
def Prog.Within {Op : Type} {Res : Op → Type} {α : Type} (O : Op → Prop) (A : α → Prop) :
    Prog Op Res α → Prop
  | .ret a => A a
  | .call op k => O op ∧ ∀ r, (k r).Within O A

lemma Prog.Within.mono {Op : Type} {Res : Op → Type} {α : Type} {O O' : Op → Prop}
    {A A' : α → Prop} (hO : ∀ op, O op → O' op) (hA : ∀ a, A a → A' a) {p : Prog Op Res α}
    (hp : p.Within O A) : p.Within O' A' := by
  induction p with
  | ret a => exact hA a hp
  | call op k ih => exact ⟨hO op hp.1, fun r => ih r (hp.2 r)⟩

lemma Prog.Within.bind {Op : Type} {Res : Op → Type} {α β : Type} {O : Op → Prop} {A : α → Prop}
    {B : β → Prop} {p : Prog Op Res α} {f : α → Prog Op Res β} (hp : p.Within O A)
    (hf : ∀ a, A a → (f a).Within O B) : (p >>= f).Within O B := by
  induction p with
  | ret a => exact hf a hp
  | call op k ih => exact ⟨hp.1, fun r => ih r (hp.2 r)⟩

namespace Database

variable {Op : Type} {Res : Op → Type} {Ω D Wr Lk Req α : Type}
variable (V : Database Op Res Ω D Wr Lk Req α)

/-- The tables as a transaction sees them. -/
def view (writes : List Wr) (d : D) : Option D := writes.foldlM (fun d w => V.apply w d) d

/-- No transaction but `tid` holds one of the locks. -/
def Free (live : Table ℕ (Txn Op Res D Wr Lk α)) (tid : ℕ) (locks : List Lk) : Prop :=
  ∀ r ∈ live.rows, r.1 ≠ tid → ∀ l ∈ locks, l ∉ r.2.locks

instance [DecidableEq Lk] (live : Table ℕ (Txn Op Res D Wr Lk α)) (tid : ℕ) (locks : List Lk) :
    Decidable (Free live tid locks) := by
  unfold Free
  infer_instance

/-- A statement of a transaction, with what it has written before. -/
def statement (op : Op) (ω : Ω) (writes : List Wr) (snapshot now : D) :
    Option (Res op × List Wr × List Lk) := do
  let seen ← V.view writes snapshot
  let current ← V.view writes now
  V.exec op ω seen current

variable {V} in
lemma statement_eq_some {op : Op} {ω : Ω} {ws : List Wr} {d₁ d₂ : D}
    {x : Res op × List Wr × List Lk} :
    V.statement op ω ws d₁ d₂ = some x ↔ ∃ seen current, V.view ws d₁ = some seen ∧
      V.view ws d₂ = some current ∧ V.exec op ω seen current = some x := by
  simp only [statement, Option.bind_eq_bind, Option.bind_eq_some_iff]
  exact ⟨fun ⟨seen, hs, current, hc, h⟩ => ⟨seen, current, hs, hc, h⟩,
    fun ⟨seen, current, hs, hc, h⟩ => ⟨seen, hs, current, hc, h⟩⟩

/-- The statements of a transaction one after another with no other in between, one answer of the
schedule for each: its result, and the tables as they are after it. -/
def alone : Prog Op Res α → List Ω → List Wr → D → Option (α × D)
  | .ret a, [], writes, d =>
      if V.commits a then (V.view writes d).map fun d' => (a, d') else some (a, d)
  | .call op k, ω :: ωs, writes, d =>
      (V.statement op ω writes d d).bind fun (r, writes', _) =>
        alone (k r) ωs (writes ++ writes') d
  | _, _, _, _ => none

variable {V} in
@[simp] lemma view_nil (d : D) : V.view [] d = some d := rfl

variable {V} in
lemma view_append {ws ws' : List Wr} {d : D} :
    V.view (ws ++ ws') d = (V.view ws d).bind (V.view ws') := by
  simp only [view, List.foldlM_append, Option.bind_eq_bind]
  rfl

/-! ## What a transaction achieves -/

section Rely

variable (Q : Op → Ω → List Wr → D → D → Prop) (I : D → Prop) (R : List Lk → D → D → Prop)

/-- The statements run to their end under the interference `R`, each from a snapshot taken when
it was sent, and leave `Post` of their result, the writes, the locks and the committed tables. -/
def Wp {β : Type} (Post : β → List Wr → List Lk → D → Prop) :
    Prog Op Res β → List Wr → List Lk → D → Prop
  | .ret b, writes, locks, d => ∀ d', R locks d d' → I d' → Post b writes locks d'
  | .call op k, writes, locks, d => ∀ d₁ d₂, R locks d d₁ → I d₁ → R locks d₁ d₂ → I d₂ →
      ∀ ω r writes' locks', Q op ω writes d₁ d₂ →
        V.statement op ω writes d₁ d₂ = some (r, writes', locks') →
        Wp Post (k r) (writes ++ writes') (locks ++ locks') d₂

/-- What a transaction that commits owes the others: the invariant, and what those may rely on
who hold other locks. -/
def Leaves (writes : List Wr) (locks : List Lk) (d : D) : Prop :=
  ∀ d', V.view writes d = some d' →
    I d' ∧ ∀ others, (∀ l ∈ locks, l ∉ others) → R others d d'

variable {V Q I R}

lemma Wp.mono {β : Type} {Post Post' : β → List Wr → List Lk → D → Prop} {p : Prog Op Res β}
    {writes : List Wr} {locks : List Lk} {d : D}
    (hpost : ∀ b ws ls d, I d → Post b ws ls d → Post' b ws ls d)
    (h : Wp V Q I R Post p writes locks d) : Wp V Q I R Post' p writes locks d := by
  induction p generalizing writes locks d with
  | ret b => exact fun d' hR hI => hpost _ _ _ _ hI (h d' hR hI)
  | call op k ih =>
      intro d₁ d₂ hR₁ hI₁ hR₂ hI₂ ω r writes' locks' hQ he
      exact ih r (h d₁ d₂ hR₁ hI₁ hR₂ hI₂ ω r writes' locks' hQ he)

/-- The rule of the guard: fewer statements, fewer obligations. -/
lemma Wp.guard_mono {β : Type} {Post : β → List Wr → List Lk → D → Prop}
    {Q' : Op → Ω → List Wr → D → D → Prop} (hQ : ∀ op ω ws d d', Q' op ω ws d d' → Q op ω ws d d')
    {p : Prog Op Res β} {writes : List Wr} {locks : List Lk} {d : D}
    (h : Wp V Q I R Post p writes locks d) : Wp V Q' I R Post p writes locks d := by
  induction p generalizing writes locks d with
  | ret b => exact h
  | call op k ih =>
      intro d₁ d₂ hR₁ hI₁ hR₂ hI₂ ω r writes' locks' hQ' he
      exact ih r (h d₁ d₂ hR₁ hI₁ hR₂ hI₂ ω r writes' locks' (hQ _ _ _ _ _ hQ') he)

/-- The rule of conjunction. -/
lemma Wp.and {β : Type} {Post Post' : β → List Wr → List Lk → D → Prop} {p : Prog Op Res β}
    {writes : List Wr} {locks : List Lk} {d : D} (h : Wp V Q I R Post p writes locks d)
    (h' : Wp V Q I R Post' p writes locks d) :
    Wp V Q I R (fun b ws ls d => Post b ws ls d ∧ Post' b ws ls d) p writes locks d := by
  induction p generalizing writes locks d with
  | ret b => exact fun d' hR hI => ⟨h d' hR hI, h' d' hR hI⟩
  | call op k ih =>
      intro d₁ d₂ hR₁ hI₁ hR₂ hI₂ ω r writes' locks' hQ he
      exact ih r (h d₁ d₂ hR₁ hI₁ hR₂ hI₂ ω r writes' locks' hQ he)
        (h' d₁ d₂ hR₁ hI₁ hR₂ hI₂ ω r writes' locks' hQ he)

/-- What has been written stays written. -/
lemma Wp.mem_writes {β : Type} {p : Prog Op Res β} {writes : List Wr} {locks : List Lk} {d : D}
    {w : Wr} (hw : w ∈ writes) : Wp V Q I R (fun _ ws _ _ => w ∈ ws) p writes locks d := by
  induction p generalizing writes locks d with
  | ret b => exact fun _ _ _ => hw
  | call op k ih =>
      intro d₁ d₂ _ _ _ _ ω r writes' locks' _ _
      exact ih r (List.mem_append_left _ hw)

/-- The rule of sequential composition. -/
lemma Wp.bind {β γ : Type} {Post : β → List Wr → List Lk → D → Prop}
    {Post' : γ → List Wr → List Lk → D → Prop} {p : Prog Op Res β} {f : β → Prog Op Res γ}
    {writes : List Wr} {locks : List Lk} {d : D} (hrefl : ∀ ls d, R ls d d) (hI : I d)
    (hp : Wp V Q I R Post p writes locks d)
    (hf : ∀ b ws ls d, I d → Post b ws ls d → Wp V Q I R Post' (f b) ws ls d) :
    Wp V Q I R Post' (p >>= f) writes locks d := by
  induction p generalizing writes locks d with
  | ret b => exact hf b writes locks d hI (hp d (hrefl _ _) hI)
  | call op k ih =>
      intro d₁ d₂ hR₁ hI₁ hR₂ hI₂ ω r writes' locks' hQ he
      exact ih r hI₂ (hp d₁ d₂ hR₁ hI₁ hR₂ hI₂ ω r writes' locks' hQ he)

/-- The rule for a program all of whose statements are of one kind, which writes only one kind of
thing, when interference keeps to `S`. -/
lemma Wp.within {β : Type} {O : Op → Prop} {A : β → Prop} {W : Wr → Prop} {S : D → D → Prop}
    (hS : ∀ ls d d', R ls d d' → S d d') (htrans : ∀ d₁ d₂ d₃, S d₁ d₂ → S d₂ d₃ → S d₁ d₃)
    (hexec : ∀ op ω seen current r ws ls, O op →
      V.exec op ω seen current = some (r, ws, ls) → ∀ w ∈ ws, W w)
    {p : Prog Op Res β} (hp : p.Within O A) {writes : List Wr} (hw : ∀ w ∈ writes, W w)
    {locks : List Lk} {d : D} :
    Wp V Q I R (fun b ws _ d' => A b ∧ (∀ w ∈ ws, W w) ∧ S d d') p writes locks d := by
  induction p generalizing writes locks d with
  | ret b => exact fun d' hR _ => ⟨hp, hw, hS _ _ _ hR⟩
  | call op k ih =>
      intro d₁ d₂ hR₁ hI₁ hR₂ hI₂ ω r ws ls _ he
      obtain ⟨seen, current, -, -, he⟩ := statement_eq_some.mp he
      have hws : ∀ w ∈ writes ++ ws, W w := fun w hmem =>
        (List.mem_append.mp hmem).elim (hw w) (hexec op ω seen current r ws ls hp.1 he w)
      refine (ih r (hp.2 r) hws).mono fun b ws' ls' d' _ ⟨hA, hws', hSd⟩ => ⟨hA, hws', ?_⟩
      exact htrans _ _ _ (htrans _ _ _ (hS _ _ _ hR₁) (hS _ _ _ hR₂)) hSd

end Rely

/-! ## One after another -/

section Serial

/-- The tables that transactions leave which run one after another, no two at once. -/
inductive Serial (d₀ : D) : D → Prop where
  | init : Serial d₀ d₀
  | step {d d' : D} {req : Req} {ωs : List Ω} {a : α} :
      Serial d₀ d → V.alone (V.program req) ωs [] d = some (a, d') → Serial d₀ d'

/-- Run requests one after another, each with the answers of the schedule to its statements. -/
def inTurn (d : D) (reqs : List (Req × List Ω)) : Option D :=
  reqs.foldlM (fun d r => (V.alone (V.program r.1) r.2 [] d).map (·.2)) d

variable {V} in
lemma Serial.inTurn {d₀ d d' : D} {reqs : List (Req × List Ω)} (h : V.Serial d₀ d)
    (hrun : V.inTurn d reqs = some d') : V.Serial d₀ d' := by
  induction reqs generalizing d with
  | nil =>
      cases hrun
      exact h
  | cons r reqs ih =>
      simp only [Database.inTurn, List.foldlM_cons, Option.bind_eq_bind] at hrun
      obtain ⟨d₁, h₁, h₂⟩ := Option.bind_eq_some_iff.mp hrun
      obtain ⟨⟨a, _⟩, halone, rfl⟩ := Option.map_eq_some_iff.mp h₁
      exact ih (h.step halone) h₂

/-- Requests whose last one passes a test show that such a request is possible. -/
lemma exists_serial_of_inTurn (d₀ : D) (reqs : List (Req × List Ω)) (req : Req) (ωs : List Ω)
    (P : α → D → D → Prop) [∀ a d d', Decidable (P a d d')]
    (h : (V.inTurn d₀ reqs).any (fun d => (V.alone (V.program req) ωs [] d).any fun x =>
      decide (P x.1 d x.2)) = true) :
    ∃ d a d', V.Serial d₀ d ∧ V.alone (V.program req) ωs [] d = some (a, d') ∧ P a d d' := by
  obtain ⟨d, hd, h⟩ := (Option.any_eq_true _ _).mp h
  obtain ⟨⟨a, d'⟩, ha, h⟩ := (Option.any_eq_true _ _).mp h
  exact ⟨d, a, d', .inTurn .init hd, ha, of_decide_eq_true h⟩

/-- No condition on the statements. -/
def anyStatement (_ : Op) (_ : Ω) (_ : List Wr) (_ _ : D) : Prop := True

instance (op : Op) (ω : Ω) (ws : List Wr) (d d' : D) : Decidable (anyStatement op ω ws d d') :=
  .isTrue trivial

/-- `alone`, as long as every statement satisfies `Q`. -/
def aloneOn (Q : Op → Ω → List Wr → D → D → Prop) [∀ op ω ws d d', Decidable (Q op ω ws d d')] :
    Prog Op Res α → List Ω → List Wr → D → Option (α × D)
  | .ret a, [], writes, d =>
      if V.commits a then (V.view writes d).map fun d' => (a, d') else some (a, d)
  | .call op k, ω :: ωs, writes, d =>
      if Q op ω writes d d then
        (V.statement op ω writes d d).bind fun (r, writes', _) =>
          aloneOn Q (k r) ωs (writes ++ writes') d
      else none
  | _, _, _, _ => none

lemma aloneOn_anyStatement (p : Prog Op Res α) (ωs : List Ω) (writes : List Wr) (d : D) :
    V.aloneOn anyStatement p ωs writes d = V.alone p ωs writes d := by
  induction p generalizing ωs writes with
  | ret b => cases ωs <;> rfl
  | call op k ih =>
      cases ωs with
      | nil => rfl
      | cons ω ωs =>
          rw [aloneOn, alone, if_pos (show anyStatement op ω writes d d from trivial)]
          congr 1
          funext x
          exact ih x.1 ωs _

variable {V} in
/-- A transaction with no other in between: nothing becomes of the tables meanwhile. -/
lemma Wp.of_aloneOn {Q : Op → Ω → List Wr → D → D → Prop}
    [∀ op ω ws d d', Decidable (Q op ω ws d d')] {I : D → Prop}
    {Post : α → List Wr → List Lk → D → Prop} {p : Prog Op Res α} {ωs : List Ω}
    {writes : List Wr} {locks : List Lk} {d d' : D} {a : α} (hI : I d)
    (hp : Wp V Q I (fun _ => Eq) Post p writes locks d)
    (h : V.aloneOn Q p ωs writes d = some (a, d')) :
    ∃ writes' locks', Post a writes' locks' d ∧
      (V.commits a = true → V.view writes' d = some d') ∧ (V.commits a = false → d' = d) := by
  induction p generalizing ωs writes locks with
  | ret b =>
      cases ωs with
      | nil =>
          simp only [aloneOn] at h
          split at h
          · rename_i hcommits
            obtain ⟨d₁, hview, h⟩ := Option.map_eq_some_iff.mp h
            cases h
            exact ⟨writes, locks, hp d rfl hI, fun _ => hview, fun hc => by simp [hc] at hcommits⟩
          · rename_i hcommits
            cases h
            exact ⟨writes, locks, hp d rfl hI, fun hc => absurd hc hcommits, fun _ => rfl⟩
      | cons ω ωs => cases h
  | call op k ih =>
      cases ωs with
      | nil => cases h
      | cons ω ωs =>
          simp only [aloneOn] at h
          split at h
          · rename_i hQ
            obtain ⟨⟨r, writes', locks'⟩, hexec, h⟩ := Option.bind_eq_some_iff.mp h
            exact ih r (hp d d rfl hI rfl hI ω r writes' locks' hQ hexec) h
          · cases h

variable {V} in
lemma Wp.of_alone {I : D → Prop} {Post : α → List Wr → List Lk → D → Prop} {p : Prog Op Res α}
    {ωs : List Ω} {writes : List Wr} {locks : List Lk} {d d' : D} {a : α} (hI : I d)
    (hp : Wp V anyStatement I (fun _ => Eq) Post p writes locks d)
    (h : V.alone p ωs writes d = some (a, d')) :
    ∃ writes' locks', Post a writes' locks' d ∧
      (V.commits a = true → V.view writes' d = some d') ∧ (V.commits a = false → d' = d) :=
  Wp.of_aloneOn hI hp ((aloneOn_anyStatement V p ωs writes d).trans h)

end Serial

/-! ## Interleavings -/

variable [DecidableEq Lk]

/-- The state after one move, if the move is possible. -/
def step (s : Store Op Res D Wr Lk α) : TxnMove Ω Req → Option (Store Op Res D Wr Lk α)
  | .start tid req =>
      (s.live.insert tid ⟨V.program req, [], [], none⟩).map fun live => { s with live := live }
  | .send tid => some { s with
      live := s.live.modify tid fun t => { t with snapshot := some s.committed } }
  | .perform tid ω =>
      match s.live.get? tid with
      | some ⟨.call op k, writes, locks, some snapshot⟩ =>
          (V.statement op ω writes snapshot s.committed).bind fun (r, writes', locks') =>
            if Free s.live tid locks' then
              some { s with live := s.live.modify tid fun _ =>
                ⟨k r, writes ++ writes', locks ++ locks', none⟩ }
            else none
      | _ => none
  | .commit tid =>
      match s.live.get? tid with
      | some ⟨.ret a, writes, _, _⟩ =>
          if V.commits a then
            (V.view writes s.committed).map fun d => ⟨d, s.live.erase tid⟩
          else none
      | _ => none
  | .rollback tid => some { s with live := s.live.erase tid }

/-- States reachable from `s₀` by moves that all meet the guard `G`. -/
inductive Reachable (G : Store Op Res D Wr Lk α → TxnMove Ω Req → Prop)
    (s₀ : Store Op Res D Wr Lk α) : Store Op Res D Wr Lk α → Prop where
  | init : Reachable G s₀ s₀
  | step {s s' : Store Op Res D Wr Lk α} {m : TxnMove Ω Req} :
      Reachable G s₀ s → G s m → V.step s m = some s' → Reachable G s₀ s'

/-- The guard that forbids nothing. -/
def unguarded (_ : Store Op Res D Wr Lk α) (_ : TxnMove Ω Req) : Prop := True

instance (s : Store Op Res D Wr Lk α) (m : TxnMove Ω Req) : Decidable (unguarded s m) :=
  .isTrue trivial

/-- Run a schedule, stopping at the first move that is impossible or refused by `g`. -/
def run (g : Store Op Res D Wr Lk α → TxnMove Ω Req → Bool) :
    Store Op Res D Wr Lk α → List (TxnMove Ω Req) → Option (Store Op Res D Wr Lk α)
  | s, [] => some s
  | s, m :: ms => if g s m then (V.step s m).bind (run g · ms) else none

variable {V} {G : Store Op Res D Wr Lk α → TxnMove Ω Req → Prop} {d₀ : D}

lemma Reachable.mono {G' : Store Op Res D Wr Lk α → TxnMove Ω Req → Prop}
    {s₀ s : Store Op Res D Wr Lk α} (hG : ∀ s m, G s m → G' s m) (h : V.Reachable G s₀ s) :
    V.Reachable G' s₀ s := by
  induction h with
  | init => exact .init
  | step _ hg hs ih => exact ih.step (hG _ _ hg) hs

/-- A schedule that runs to the end reaches its final state. -/
lemma reachable_of_run {g : Store Op Res D Wr Lk α → TxnMove Ω Req → Bool}
    (hg : ∀ s m, g s m = true → G s m) {s₀ s s' : Store Op Res D Wr Lk α}
    {ms : List (TxnMove Ω Req)} (hs : V.Reachable G s₀ s) (h : V.run g s ms = some s') :
    V.Reachable G s₀ s' := by
  induction ms generalizing s with
  | nil =>
      cases h
      exact hs
  | cons m ms ih =>
      simp only [run] at h
      split at h
      · rename_i hgm
        obtain ⟨s₁, h₁, h₂⟩ := Option.bind_eq_some_iff.mp h
        exact ih (hs.step (hg s m hgm) h₁) h₂
      · cases h

/-- A schedule whose final state passes a test shows that such a state is reached. -/
lemma exists_reachable_of_run (V : Database Op Res Ω D Wr Lk Req α)
    (G : Store Op Res D Wr Lk α → TxnMove Ω Req → Prop) [∀ s m, Decidable (G s m)]
    (s₀ : Store Op Res D Wr Lk α) (ms : List (TxnMove Ω Req))
    (P : Store Op Res D Wr Lk α → Prop) [DecidablePred P]
    (h : (V.run (fun s m => decide (G s m)) s₀ ms).any (fun s => decide (P s)) = true) :
    ∃ s, V.Reachable G s₀ s ∧ P s := by
  rcases hs : V.run (fun s m => decide (G s m)) s₀ ms with _ | s
  · simp [hs] at h
  · exact ⟨s, reachable_of_run (fun _ _ => of_decide_eq_true) .init hs, by simpa [hs] using h⟩

/-- The same for a move in the middle of a schedule, with the states before and after it. -/
lemma exists_later_of_run (V : Database Op Res Ω D Wr Lk Req α)
    (G : Store Op Res D Wr Lk α → TxnMove Ω Req → Prop) [∀ s m, Decidable (G s m)]
    (s₀ : Store Op Res D Wr Lk α) (ms : List (TxnMove Ω Req)) (m : TxnMove Ω Req)
    (ms' : List (TxnMove Ω Req))
    (P : Store Op Res D Wr Lk α → Store Op Res D Wr Lk α → Store Op Res D Wr Lk α → Prop)
    [∀ s s' s'', Decidable (P s s' s'')]
    (h : (V.run (fun s m => decide (G s m)) s₀ ms).any (fun s => (V.step s m).any fun s' =>
      (V.run (fun s m => decide (G s m)) s' ms').any fun s'' => decide (P s s' s'')) = true) :
    ∃ s s' s'', V.Reachable G s₀ s ∧ V.step s m = some s' ∧ V.Reachable G s' s'' ∧
      P s s' s'' := by
  rcases hs : V.run (fun s m => decide (G s m)) s₀ ms with _ | s
  · simp [hs] at h
  · rw [hs, Option.any_some] at h
    rcases hs' : V.step s m with _ | s'
    · simp [hs'] at h
    · rw [hs', Option.any_some] at h
      rcases hs'' : V.run (fun s m => decide (G s m)) s' ms' with _ | s''
      · simp [hs''] at h
      · exact ⟨s, s', s'', reachable_of_run (fun _ _ => of_decide_eq_true) .init hs, hs',
          reachable_of_run (fun _ _ => of_decide_eq_true) .init hs'',
          by simpa [hs''] using h⟩

/-- **What one move can do.** -/
lemma step_cases {s s' : Store Op Res D Wr Lk α} {m : TxnMove Ω Req}
    (h : V.step s m = some s') :
    (∃ tid req, m = .start tid req ∧ s'.committed = s.committed ∧
      s.live.insert tid ⟨V.program req, [], [], none⟩ = some s'.live) ∨
    (∃ tid, m = .send tid ∧ s'.committed = s.committed ∧
      s'.live = s.live.modify tid fun t => { t with snapshot := some s.committed }) ∨
    (∃ tid op k writes locks snapshot ω r writes' locks', m = .perform tid ω ∧
      s.live.get? tid = some ⟨.call op k, writes, locks, some snapshot⟩ ∧
      V.statement op ω writes snapshot s.committed = some (r, writes', locks') ∧
      Free s.live tid locks' ∧ s'.committed = s.committed ∧
      s'.live = s.live.modify tid fun _ => ⟨k r, writes ++ writes', locks ++ locks', none⟩) ∨
    (∃ tid a writes locks snapshot, m = .commit tid ∧
      s.live.get? tid = some ⟨.ret a, writes, locks, snapshot⟩ ∧ V.commits a = true ∧
      V.view writes s.committed = some s'.committed ∧ s'.live = s.live.erase tid) ∨
    ∃ tid, m = .rollback tid ∧ s'.committed = s.committed ∧ s'.live = s.live.erase tid := by
  cases m with
  | start tid req =>
      obtain ⟨live, hlive, rfl⟩ := Option.map_eq_some_iff.mp h
      exact .inl ⟨tid, req, rfl, rfl, hlive⟩
  | send tid =>
      cases h
      exact .inr (.inl ⟨tid, rfl, rfl, rfl⟩)
  | perform tid ω =>
      simp only [step] at h
      split at h
      · rename_i op k writes locks snapshot htxn
        obtain ⟨⟨r, writes', locks'⟩, hexec, h⟩ := Option.bind_eq_some_iff.mp h
        simp only at h
        split at h
        · rename_i hfree
          cases h
          exact .inr (.inr (.inl ⟨tid, op, k, writes, locks, snapshot, ω, r, writes', locks', rfl,
            htxn, hexec, hfree, rfl, rfl⟩))
        · cases h
      · cases h
  | commit tid =>
      simp only [step] at h
      split at h
      · rename_i a writes locks snapshot htxn
        split at h
        · rename_i hcommits
          obtain ⟨d, hd, rfl⟩ := Option.map_eq_some_iff.mp h
          exact .inr (.inr (.inr (.inl ⟨tid, a, writes, locks, snapshot, rfl, htxn, hcommits, hd,
            rfl⟩)))
        · cases h
      · cases h
  | rollback tid =>
      cases h
      exact .inr (.inr (.inr (.inr ⟨tid, rfl, rfl, rfl⟩)))

/-- The guard that asks `Q` of every statement, given what its transaction has written, its
snapshot and what is committed. -/
def onStatements (Q : Op → Ω → List Wr → D → D → Prop) (s : Store Op Res D Wr Lk α) :
    TxnMove Ω Req → Prop
  | .perform tid ω =>
      match s.live.get? tid with
      | some ⟨.call op _, writes, _, some snapshot⟩ => Q op ω writes snapshot s.committed
      | _ => True
  | _ => True

omit [DecidableEq Lk] in
lemma onStatements_anyStatement (s : Store Op Res D Wr Lk α) (m : TxnMove Ω Req) :
    onStatements anyStatement s m := by
  unfold onStatements
  split
  · split <;> trivial
  · trivial

instance {Q : Op → Ω → List Wr → D → D → Prop} [∀ op ω ws d d', Decidable (Q op ω ws d d')]
    (s : Store Op Res D Wr Lk α) (m : TxnMove Ω Req) : Decidable (onStatements Q s m) := by
  unfold onStatements
  split
  · split <;> infer_instance
  · infer_instance

section Disciplines

/-- An invariant of the committed tables, what a transaction may rely on while it holds its locks,
and what it has established when its statements are through, such that every transaction gets
there and, if it commits, respects the others. -/
structure Discipline (V : Database Op Res Ω D Wr Lk Req α)
    (Q : Op → Ω → List Wr → D → D → Prop) where
  inv : D → Prop
  rely : List Lk → D → D → Prop
  post : α → List Wr → List Lk → D → Prop
  refl : ∀ ls d, rely ls d d
  trans : ∀ {ls d₁ d₂ d₃}, rely ls d₁ d₂ → rely ls d₂ d₃ → rely ls d₁ d₃
  starts : ∀ req d, inv d → Wp V Q inv rely post (V.program req) [] [] d
  commits : ∀ {a ws ls d}, inv d → post a ws ls d → V.commits a = true → Leaves V inv rely ws ls d

variable {Q : Op → Ω → List Wr → D → D → Prop} {K : Discipline V Q}

variable (K) in
/-- What is left of a transaction keeps to its postcondition, given what has happened since. -/
def OnCourse (t : Txn Op Res D Wr Lk α) (c : D) : Prop :=
  ∃ d, Wp V Q K.inv K.rely K.post t.rest t.writes t.locks d ∧ K.rely t.locks d c ∧
    ∀ snapshot ∈ t.snapshot, K.rely t.locks d snapshot ∧ K.inv snapshot ∧
      K.rely t.locks snapshot c

variable (K) in
/-- The invariant of a store: no lock is held twice, and every transaction is on course. -/
structure StoreOk (s : Store Op Res D Wr Lk α) : Prop where
  committed : K.inv s.committed
  exclusive : ∀ tid t tid' t', s.live.get? tid = some t → s.live.get? tid' = some t' →
    tid ≠ tid' → ∀ l ∈ t.locks, l ∉ t'.locks
  course : ∀ tid t, s.live.get? tid = some t → OnCourse K t s.committed

variable {s s₀ : Store Op Res D Wr Lk α} {tid : ℕ}

omit [DecidableEq Lk] in
lemma OnCourse.rely {t : Txn Op Res D Wr Lk α} {c c' : D} (h : OnCourse K t c)
    (hR : K.rely t.locks c c') : OnCourse K t c' := by
  obtain ⟨d, hwp, hd, hsnap⟩ := h
  refine ⟨d, hwp, K.trans hd hR, fun snapshot hs => ?_⟩
  obtain ⟨h₁, hI, h₂⟩ := hsnap snapshot hs
  exact ⟨h₁, hI, K.trans h₂ hR⟩

omit [DecidableEq Lk] in
/-- A transaction goes on, with locks that no other holds. -/
lemma StoreOk.modify (h : StoreOk K s) {t : Txn Op Res D Wr Lk α}
    {f : Txn Op Res D Wr Lk α → Txn Op Res D Wr Lk α} (ht : s.live.get? tid = some t)
    (hfree : ∀ i u, s.live.get? i = some u → i ≠ tid → ∀ l ∈ (f t).locks, l ∉ u.locks)
    (hcourse : OnCourse K (f t) s.committed) :
    StoreOk K { s with live := s.live.modify tid f } := by
  have hget : ∀ {i u}, (s.live.modify tid f).get? i = some u →
      (i = tid ∧ u = f t) ∨ (i ≠ tid ∧ s.live.get? i = some u) := by
    intro i u hu
    rw [Table.get?_modify] at hu
    split at hu
    · rename_i hi
      rw [hi, ht] at hu
      exact .inl ⟨hi, (Option.some.inj hu).symm⟩
    · exact .inr ⟨‹_›, hu⟩
  refine ⟨h.committed, fun i u i' u' hu hu' hne l hl hl' => ?_, fun i u hu => ?_⟩
  · rcases hget hu with ⟨hi, rfl⟩ | ⟨hi, hold⟩ <;>
      rcases hget hu' with ⟨hi', rfl⟩ | ⟨hi', hold'⟩
    · exact hne (hi.trans hi'.symm)
    · exact hfree i' u' hold' hi' l hl hl'
    · exact hfree i u hold hi l hl' hl
    · exact h.exclusive i u i' u' hold hold' hne l hl hl'
  · rcases hget hu with ⟨rfl, rfl⟩ | ⟨-, hu⟩
    · exact hcourse
    · exact h.course i u hu

omit [DecidableEq Lk] in
/-- A transaction ends, and the others can live with what it leaves. -/
lemma StoreOk.erase (h : StoreOk K s) {c : D} (hI : K.inv c)
    (hR : ∀ i u, s.live.get? i = some u → i ≠ tid → K.rely u.locks s.committed c) :
    StoreOk K ⟨c, s.live.erase tid⟩ := by
  have hget : ∀ {i u}, (s.live.erase tid).get? i = some u → i ≠ tid ∧ s.live.get? i = some u := by
    intro i u hu
    rw [Table.get?_erase] at hu
    split at hu
    · cases hu
    · exact ⟨‹_›, hu⟩
  refine ⟨hI, fun i u i' u' hu hu' => ?_, fun i u hu => ?_⟩
  · exact h.exclusive i u i' u' (hget hu).2 (hget hu').2
  · obtain ⟨hi, hu⟩ := hget hu
    exact (h.course i u hu).rely (hR i u hu hi)

omit [DecidableEq Lk] in
lemma StoreOk.start (h : StoreOk K s) {req : Req} {live : Table ℕ (Txn Op Res D Wr Lk α)}
    (hlive : s.live.insert tid ⟨V.program req, [], [], none⟩ = some live) :
    StoreOk K { s with live := live } := by
  have hget : ∀ {i u}, live.get? i = some u →
      u = ⟨V.program req, [], [], none⟩ ∨ s.live.get? i = some u := by
    intro i u hu
    rw [Table.get?_insert hlive] at hu
    split at hu
    · exact .inl (Option.some.inj hu).symm
    · exact .inr hu
  refine ⟨h.committed, fun i u i' u' hu hu' hne l hl hl' => ?_, fun i u hu => ?_⟩
  · rcases hget hu with rfl | hu
    · cases hl
    · rcases hget hu' with rfl | hu'
      · cases hl'
      · exact h.exclusive i u i' u' hu hu' hne l hl hl'
  · rcases hget hu with rfl | hu
    · exact ⟨s.committed, K.starts req _ h.committed, K.refl _ _, fun _ h => by cases h⟩
    · exact h.course i u hu

omit [DecidableEq Lk] in
/-- Tables that meet the invariant, with nothing in progress. -/
lemma StoreOk.quiet (h : K.inv d₀) : StoreOk K (.quiet d₀) :=
  ⟨h, fun tid t tid' t' ht => (by cases ht), fun tid t ht => (by cases ht)⟩

omit [DecidableEq Lk] in
/-- A transaction that has run to its end stands by its postcondition. -/
lemma StoreOk.post {a : α} {writes : List Wr} {locks : List Lk} {snapshot : Option D}
    (h : StoreOk K s) (ht : s.live.get? tid = some ⟨.ret a, writes, locks, snapshot⟩) :
    K.post a writes locks s.committed := by
  obtain ⟨d, hwp, hd, -⟩ := h.course tid _ ht
  exact hwp _ hd h.committed

/-- One move keeps the invariant of the store, and respects those who hold no lock. -/
lemma StoreOk.step (h : StoreOk K s) {s' : Store Op Res D Wr Lk α} {m : TxnMove Ω Req}
    (hg : onStatements Q s m) (hs : V.step s m = some s') :
    StoreOk K s' ∧ K.rely [] s.committed s'.committed := by
  obtain ⟨c, live⟩ := s'
  rcases step_cases hs with ⟨tid, req, rfl, rfl, hlive⟩ | ⟨tid, rfl, rfl, rfl⟩ |
    ⟨tid, op, k, writes, locks, snapshot, ω, r, writes', locks', rfl, htxn, hexec, hfree, rfl,
      rfl⟩ | ⟨tid, a, writes, locks, snapshot, rfl, htxn, hcommits, hview, rfl⟩ |
    ⟨tid, rfl, rfl, rfl⟩
  · exact ⟨h.start hlive, K.refl _ _⟩
  · refine ⟨?_, K.refl _ _⟩
    rcases ht : s.live.get? tid with _ | t
    · rw [Table.modify_of_get?_eq_none ht]
      exact h
    · obtain ⟨d, hwp, hd, -⟩ := h.course tid t ht
      refine h.modify ht (fun i u hu hne => h.exclusive tid t i u ht hu hne.symm) ?_
      refine ⟨d, hwp, hd, fun snapshot hs => ?_⟩
      cases hs
      exact ⟨hd, h.committed, K.refl _ _⟩
  · refine ⟨?_, K.refl _ _⟩
    obtain ⟨d, hwp, -, hsnap⟩ := h.course tid _ htxn
    obtain ⟨h₁, hI₁, h₂⟩ := hsnap snapshot rfl
    have hQ : Q op ω writes snapshot s.committed := by
      simpa only [onStatements, htxn] using hg
    refine h.modify htxn (fun i u hu hne l hl => ?_) ?_
    · rcases List.mem_append.mp hl with hl | hl
      · exact h.exclusive tid _ i u htxn hu hne.symm l hl
      · exact hfree (i, u) (Table.get?_eq_some_iff.mp hu) hne l hl
    · exact ⟨s.committed, hwp _ _ h₁ hI₁ h₂ h.committed ω r writes' locks' hQ hexec,
        K.refl _ _, fun _ h => by cases h⟩
  · obtain ⟨hI, hothers⟩ := K.commits h.committed (h.post htxn) hcommits _ hview
    exact ⟨h.erase hI fun i u hu hne => hothers u.locks (h.exclusive tid _ i u htxn hu hne.symm),
      hothers [] fun l _ => List.not_mem_nil⟩
  · exact ⟨h.erase h.committed fun i u hu hne => K.refl _ _, K.refl _ _⟩

/-- A transaction that commits has met its postcondition, and its writes are what is left. -/
lemma StoreOk.commit (h : StoreOk K s) {s' : Store Op Res D Wr Lk α} {a : α}
    (ha : s.answer tid = some a) (hs : V.step s (.commit tid : TxnMove Ω Req) = some s') :
    V.commits a = true ∧ ∃ writes locks, K.post a writes locks s.committed ∧
      V.view writes s.committed = some s'.committed := by
  obtain ⟨writes, locks, snapshot, ht⟩ := Store.answer_eq_some.mp ha
  simp only [Database.step, ht] at hs
  split at hs
  · rename_i hcommits
    obtain ⟨d, hview, rfl⟩ := Option.map_eq_some_iff.mp hs
    exact ⟨hcommits, writes, locks, h.post ht, hview⟩
  · cases hs

/-- **A discipline holds of every interleaving.** -/
theorem StoreOk.reachable (h₀ : StoreOk K s₀) (h : V.Reachable (onStatements Q) s₀ s) :
    StoreOk K s := by
  induction h with
  | init => exact h₀
  | step _ hg hs ih => exact (ih.step hg hs).1

/-- **What happens later respects those who hold no lock.** -/
theorem StoreOk.later (h₀ : StoreOk K s₀) (h : V.Reachable (onStatements Q) s₀ s) :
    K.rely [] s₀.committed s.committed := by
  induction h with
  | init => exact K.refl _ _
  | step hr hg hs ih => exact K.trans ih ((h₀.reachable hr).step hg hs).2

end Disciplines

end Database

end Foundation
