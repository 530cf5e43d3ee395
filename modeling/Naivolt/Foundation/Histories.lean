import Naivolt.Foundation.ReadCommitted

/-!
# Histories

What a run amounts to is not always to be seen in its last state: a transaction that was rolled
back leaves nothing, and a row that was deleted is gone.  `Database.Path` is a run with its history,
every move together with the state it was made in, oldest first; `Machine.Path` is the same for
the runs of a machine.

A law about what happens in a run — that it happens at most so many times, or that whatever
happens in between — is then a law about the history, and is proved along it, a move at a time
(`Path.step`), with what a discipline says of the states on the way (`Path.reachable`).

A program of a machine that runs `Undisturbed` is the special case in which nobody else moves; what
it returns then is read off it operation by operation.
-/

namespace Foundation

namespace Database

variable {Op : Type} {Res : Op → Type} {Ω D Wr Lk Req α : Type} [DecidableEq Lk]

/-- A move, with the state it was made in. -/
abbrev Moment (Op : Type) (Res : Op → Type) (Ω D Wr Lk Req α : Type) :=
  Store Op Res D Wr Lk α × TxnMove Ω Req

variable (V : Database Op Res Ω D Wr Lk Req α)

/-- Runs by moves that meet the guard `G`, with their histories. -/
inductive Path (G : Store Op Res D Wr Lk α → TxnMove Ω Req → Prop)
    (s₀ : Store Op Res D Wr Lk α) :
    List (Moment Op Res Ω D Wr Lk Req α) → Store Op Res D Wr Lk α → Prop where
  | init : Path G s₀ [] s₀
  | step {h : List (Moment Op Res Ω D Wr Lk Req α)} {s s' : Store Op Res D Wr Lk α}
      {m : TxnMove Ω Req} :
      Path G s₀ h s → G s m → V.step s m = some s' → Path G s₀ (h ++ [(s, m)]) s'

variable {V} {G : Store Op Res D Wr Lk α → TxnMove Ω Req → Prop} {s₀ s : Store Op Res D Wr Lk α}
  {h : List (Moment Op Res Ω D Wr Lk Req α)}

lemma Reachable.trans {s' : Store Op Res D Wr Lk α} (h₁ : V.Reachable G s₀ s)
    (h₂ : V.Reachable G s s') : V.Reachable G s₀ s' := by
  induction h₂ with
  | init => exact h₁
  | step _ hg hs ih => exact ih.step hg hs

lemma Path.reachable (hp : V.Path G s₀ h s) : V.Reachable G s₀ s := by
  induction hp with
  | init => exact .init
  | step _ hg hs ih => exact ih.step hg hs

lemma Path.mono {G' : Store Op Res D Wr Lk α → TxnMove Ω Req → Prop}
    (hG : ∀ s m, G s m → G' s m) (hp : V.Path G s₀ h s) : V.Path G' s₀ h s := by
  induction hp with
  | init => exact .init
  | step _ hg hs ih => exact ih.step (hG _ _ hg) hs

lemma Path.trans {h' : List (Moment Op Res Ω D Wr Lk Req α)} {s' : Store Op Res D Wr Lk α}
    (hp : V.Path G s₀ h s) (hp' : V.Path G s h' s') : V.Path G s₀ (h ++ h') s' := by
  induction hp' with
  | init => simpa using hp
  | step _ hg hs ih => simpa using ih.step hg hs

/-- A history that ends with a move ends in a step. -/
lemma Path.concat_cases {x : Moment Op Res Ω D Wr Lk Req α} (hp : V.Path G s₀ (h ++ [x]) s) :
    V.Path G s₀ h x.1 ∧ G x.1 x.2 ∧ V.step x.1 x.2 = some s := by
  generalize hg : h ++ [x] = g at hp
  cases hp with
  | init => exact absurd hg (by simp)
  | step hp hguard hs =>
      obtain ⟨rfl, hx⟩ := List.append_inj' hg rfl
      cases hx
      exact ⟨hp, hguard, hs⟩

/-- The state in the middle of a history. -/
lemma Path.split {h₁ h₂ : List (Moment Op Res Ω D Wr Lk Req α)}
    (hp : V.Path G s₀ (h₁ ++ h₂) s) : ∃ s₁, V.Path G s₀ h₁ s₁ ∧ V.Path G s₁ h₂ s := by
  induction h₂ using List.reverseRecOn generalizing s with
  | nil => exact ⟨s, by simpa using hp, .init⟩
  | append_singleton h₂ x ih =>
      rw [← List.append_assoc] at hp
      obtain ⟨hp, hg, hs⟩ := hp.concat_cases
      obtain ⟨s₁, h₁, h₂⟩ := ih hp
      exact ⟨s₁, h₁, h₂.step hg hs⟩

/-- A move in the middle of a history. -/
lemma Path.mem {x : Moment Op Res Ω D Wr Lk Req α} (hp : V.Path G s₀ h s) (hx : x ∈ h) :
    ∃ h₁ s', V.Path G s₀ h₁ x.1 ∧ G x.1 x.2 ∧ V.step x.1 x.2 = some s' := by
  obtain ⟨h₁, h₂, rfl⟩ := List.append_of_mem hx
  rw [show h₁ ++ x :: h₂ = (h₁ ++ [x]) ++ h₂ by simp] at hp
  obtain ⟨s', hp, -⟩ := hp.split
  obtain ⟨hp, hg, hs⟩ := hp.concat_cases
  exact ⟨h₁, s', hp, hg, hs⟩

/-- The history of a schedule, stopping at the first move that is impossible or refused. -/
def record (V : Database Op Res Ω D Wr Lk Req α)
    (g : Store Op Res D Wr Lk α → TxnMove Ω Req → Bool) :
    Store Op Res D Wr Lk α → List (TxnMove Ω Req) →
      Option (List (Moment Op Res Ω D Wr Lk Req α) × Store Op Res D Wr Lk α)
  | s, [] => some ([], s)
  | s, m :: ms =>
      if g s m then (V.step s m).bind fun s' => (record V g s' ms).map fun x => ((s, m) :: x.1, x.2)
      else none

lemma path_of_record {g : Store Op Res D Wr Lk α → TxnMove Ω Req → Bool}
    (hg : ∀ s m, g s m = true → G s m) {ms : List (TxnMove Ω Req)}
    {x : List (Moment Op Res Ω D Wr Lk Req α) × Store Op Res D Wr Lk α}
    (hx : V.record g s ms = some x) : V.Path G s x.1 x.2 := by
  induction ms generalizing s x with
  | nil =>
      cases hx
      exact .init
  | cons m ms ih =>
      simp only [record] at hx
      split at hx
      · rename_i hgm
        obtain ⟨s₁, h₁, hx⟩ := Option.bind_eq_some_iff.mp hx
        obtain ⟨y, hy, rfl⟩ := Option.map_eq_some_iff.mp hx
        exact (Path.step .init (hg s m hgm) h₁).trans (ih hy)
      · cases hx

/-- A schedule whose history passes a test shows that there is such a run. -/
lemma exists_path_of_record (V : Database Op Res Ω D Wr Lk Req α)
    (G : Store Op Res D Wr Lk α → TxnMove Ω Req → Prop) [∀ s m, Decidable (G s m)]
    (s₀ : Store Op Res D Wr Lk α) (ms : List (TxnMove Ω Req))
    (P : List (Moment Op Res Ω D Wr Lk Req α) → Store Op Res D Wr Lk α → Prop)
    [∀ h s, Decidable (P h s)]
    (hrun : (V.record (fun s m => decide (G s m)) s₀ ms).any (fun x => decide (P x.1 x.2)) =
      true) : ∃ h s, V.Path G s₀ h s ∧ P h s := by
  obtain ⟨⟨h, s⟩, hx, hP⟩ := (Option.any_eq_true _ _).mp hrun
  exact ⟨h, s, path_of_record (fun _ _ => of_decide_eq_true) hx, of_decide_eq_true hP⟩

omit [DecidableEq Lk] in
/-- A transaction on course is on course for what its next statement would lead to. -/
lemma OnCourse.ahead {Q : Op → Ω → List Wr → D → D → Prop} {K : Discipline V Q} {op : Op}
    {k : Res op → Prog Op Res α} {ws ws' : List Wr} {ls ls' : List Lk} {snapshot : Option D}
    {c : D} {ω : Ω} {r : Res op} (h : OnCourse K ⟨.call op k, ws, ls, snapshot⟩ c) (hI : K.inv c)
    (hQ : Q op ω ws c c) (he : V.statement op ω ws c c = some (r, ws', ls')) :
    Wp V Q K.inv K.rely K.post (k r) (ws ++ ws') (ls ++ ls') c := by
  obtain ⟨d, hwp, hd, -⟩ := h
  exact hwp c c hd hI (K.refl _ _) hI ω r ws' ls' hQ he

end Database

namespace Machine

variable {Op : Type} {Res : Op → Type} {Ω E W Req B α : Type}

/-- A move, with the state it was made in. -/
abbrev Turn (Op : Type) (Res : Op → Type) (Ω E W Req B α : Type) :=
  Sys Op Res W Req B α × Act Ω E Req

variable (M : Machine Op Res Ω E W Req B α)

/-- The runs of a machine, with their histories. -/
inductive Path (s₀ : Sys Op Res W Req B α) :
    List (Turn Op Res Ω E W Req B α) → Sys Op Res W Req B α → Prop where
  | init : Path s₀ [] s₀
  | step {h : List (Turn Op Res Ω E W Req B α)} {s s' : Sys Op Res W Req B α} {a : Act Ω E Req} :
      Path s₀ h s → M.step s a = some s' → Path s₀ (h ++ [(s, a)]) s'

variable {M}

lemma Path.trans {s₀ s s' : Sys Op Res W Req B α} {h h' : List (Turn Op Res Ω E W Req B α)}
    (hp : M.Path s₀ h s) (hp' : M.Path s h' s') : M.Path s₀ (h ++ h') s' := by
  induction hp' with
  | init => simpa using hp
  | step _ hs ih => simpa using ih.step hs

/-- The history of a schedule, stopping at the first move that is impossible. -/
def record (M : Machine Op Res Ω E W Req B α) : Sys Op Res W Req B α → List (Act Ω E Req) →
    Option (List (Turn Op Res Ω E W Req B α) × Sys Op Res W Req B α)
  | s, [] => some ([], s)
  | s, a :: as =>
      (M.step s a).bind fun s' => (record M s' as).map fun x => ((s, a) :: x.1, x.2)

lemma path_of_record {s : Sys Op Res W Req B α} {as : List (Act Ω E Req)}
    {x : List (Turn Op Res Ω E W Req B α) × Sys Op Res W Req B α}
    (hx : M.record s as = some x) : M.Path s x.1 x.2 := by
  induction as generalizing s x with
  | nil =>
      cases hx
      exact .init
  | cons a as ih =>
      obtain ⟨s₁, h₁, hx⟩ := Option.bind_eq_some_iff.mp hx
      obtain ⟨y, hy, rfl⟩ := Option.map_eq_some_iff.mp hx
      exact (Path.step .init h₁).trans (ih hy)

/-- A schedule whose history passes a test shows that there is such a run. -/
lemma exists_path_of_record (M : Machine Op Res Ω E W Req B α) (s₀ : Sys Op Res W Req B α)
    (as : List (Act Ω E Req))
    (P : List (Turn Op Res Ω E W Req B α) → Sys Op Res W Req B α → Prop)
    [∀ h s, Decidable (P h s)]
    (hrun : (M.record s₀ as).any (fun x => decide (P x.1 x.2)) = true) :
    ∃ h s, M.Path s₀ h s ∧ P h s := by
  obtain ⟨⟨h, s⟩, hx, hP⟩ := (Option.any_eq_true _ _).mp hrun
  exact ⟨h, s, path_of_record hx, of_decide_eq_true hP⟩

/-! ### Programs that nobody disturbs -/

/-- With nobody in between, the program returns only what satisfies `Q` of the world it returns
in. -/
abbrev Undisturbed (M : Machine Op Res Ω E W Req B α) {β : Type} (Q : β → W → Prop)
    (p : Prog Op Res β) (w : W) : Prop := Returns M (fun w w' => w' = w) Q p w

/-- The rule of one operation. -/
lemma Undisturbed.call {β : Type} {Q : β → W → Prop} {op : Op} {k : Res op → Prog Op Res β}
    {w : W} (hk : ∀ tid ω r w', M.exec tid op ω w = some (r, w') → M.Undisturbed Q (k r) w') :
    M.Undisturbed Q (.call op k) w := by
  rintro _ rfl tid ω r w' he
  exact hk tid ω r w' he

/-- The rule of sequential composition. -/
lemma Undisturbed.bind {β γ : Type} {Q : β → W → Prop} {Q' : γ → W → Prop} {p : Prog Op Res β}
    {f : β → Prog Op Res γ} {w : W} (hp : M.Undisturbed Q p w)
    (hf : ∀ a w, Q a w → M.Undisturbed Q' (f a) w) : M.Undisturbed Q' (p >>= f) w := by
  induction p generalizing w with
  | ret a => exact hf a w hp
  | call op k ih => exact fun w' h tid ω r w'' he => ih r (hp w' h tid ω r w'' he)

lemma Undisturbed.mono {β : Type} {Q Q' : β → W → Prop} {p : Prog Op Res β} {w : W}
    (hp : M.Undisturbed Q p w) (hQ : ∀ a w, Q a w → Q' a w) : M.Undisturbed Q' p w :=
  Returns.mono hp hQ

/-- A schedule that resumes one task only, until it has finished, shows what the task returns
undisturbed. -/
lemma Undisturbed.of_run {Q : α → W → Prop} {g : Sys Op Res W Req B α → Act Ω E Req → Bool}
    {tid : ℕ} {req req' : Req} {b b' : B} {p : Prog Op Res α} {s s' : Sys Op Res W Req B α}
    {ωs : List Ω} {a : α} (hp : M.Undisturbed Q p s.world) (ht : s.task tid = some ⟨req, b, p⟩)
    (hrun : M.run g s (ωs.map (.resume tid)) = some s')
    (hend : s'.task tid = some ⟨req', b', .ret a⟩) : Q a s'.world := by
  induction ωs generalizing s p with
  | nil =>
      cases hrun
      cases ht.symm.trans hend
      exact hp
  | cons ω ωs ih =>
      simp only [List.map_cons, run] at hrun
      split at hrun
      · obtain ⟨s₁, hstep, hrun⟩ := Option.bind_eq_some_iff.mp hrun
        simp only [step, ht] at hstep
        cases p with
        | ret a => cases hstep
        | call op k =>
            obtain ⟨⟨r, w⟩, hw, rfl⟩ := Option.map_eq_some_iff.mp hstep
            exact ih (hp _ rfl tid ω r w hw) (by simp) hrun
      · cases hrun

end Machine

end Foundation
