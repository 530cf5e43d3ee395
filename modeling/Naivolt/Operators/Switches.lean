import Naivolt.Foundation.Histories
import Naivolt.Operators.Desk

/-!
# The suppliers that are switched on

`put_sell_settings` writes one row for each supplier, without a transaction, and `load` takes a
table with all flags off for a broken one and writes the seed over it.  Between two writes that
turn one supplier off and another on all flags are off: a request that looks then, or a writer
that is lost there, turns 5SIM back on (`switched_back`).

`switches_kept` says when the operators' choice stands: when the writers come one after another,
and nobody looks, and no writer is lost, between the first and the last row of one.
-/

namespace Naivolt

open Foundation

/-! ## Writers and readers -/

/-- Those who use the settings: operators, and whoever calls `load` to list, order or synchronise
the catalogue. -/
inductive SellRequest where
  | put (operator : Uuid) (body : SellSettingsBody)
  | load

def sellProgram : SellRequest → DeskHandler DeskResult
  | .put operator body => putSellSettings operator body
  | .load => do
    let settings ← loadSettings
    pure (.ok (.settings settings))

/-- The settings with all their users at once.  A statement that fails, like a crash, is a request
that is dropped. -/
def switchboard (cfg : DeskConfig) :
    Machine DeskOp DeskOp.Res DeskOracle EnvMove Desk SellRequest Time DeskResult where
  exec := (deskMachine cfg).exec
  env := (deskMachine cfg).env
  program := sellProgram
  stamp := (deskMachine cfg).stamp

abbrev SellState := Sys DeskOp DeskOp.Res Desk SellRequest Time DeskResult

abbrev SellTask := Task DeskOp DeskOp.Res SellRequest Time DeskResult

abbrev SellTurn :=
  Machine.Turn DeskOp DeskOp.Res DeskOracle EnvMove Desk SellRequest Time DeskResult

/-- The freshly migrated table, with nobody using it. -/
def sellInitial : SellState := Sys.idle ⟨World.fresh 0 [], [], [], .seed, []⟩

/-! ## What is seen of a run -/

/-- The settings a writer will answer with, once it writes. -/
def promised : DeskHandler DeskResult → Option SellSettings
  | .ret (.ok (.settings w)) => some w
  | .call (.storeSell _ _) k => promised (k ())
  | .call .lastHash k => promised (k none)
  | .call (.insertAudit ..) k => promised (k 0)
  | _ => none

/-- A `put_sell_settings` starts here. -/
def startsPut (x : SellTurn) : Option ℕ :=
  match x.2 with
  | .spawn tid (.put _ _) => some tid
  | _ => none

/-- The settings a `put_sell_settings` completes with here. -/
def completedBy (x : SellTurn) : Option SellSettings :=
  match x.2 with
  | .resume tid ω =>
      match x.1.task tid with
      | some ⟨.put _ _, _, .call (.insertAudit ..) k⟩ => promised (k ω.auditId)
      | _ => none
  | _ => none

/-- The settings of which one row is written here by a `put_sell_settings`. -/
def wantedBy (x : SellTurn) : Option SellSettings :=
  match x.2 with
  | .resume tid _ =>
      match x.1.task tid with
      | some ⟨.put _ _, _, .call (.storeSell _ _) k⟩ => promised (k ())
      | _ => none
  | _ => none

/-- The supplier a `load` turns on here. -/
def turnedOn (x : SellTurn) : Option String :=
  match x.2 with
  | .resume tid _ =>
      match x.1.task tid with
      | some ⟨.load, _, .call (.storeSell provider true) _⟩ =>
          if x.1.world.sell.isEnabled provider then none else some provider
      | _ => none
  | _ => none

/-- What the last `put_sell_settings` to complete wrote. -/
def lastCompleted (h : List SellTurn) : Option SellSettings := h.reverse.findSome? completedBy

/-- The same, if none has started since. -/
def settledBy (h : List SellTurn) : Option SellSettings :=
  (h.reverse.find? fun x => (startsPut x).isSome || (completedBy x).isSome).bind completedBy

/-- **The switches stay where they were put.** -/
structure SwitchesKept (h : List SellTurn) (s : SellState) : Prop where
  stored : ∀ w, settledBy h = some w → s.world.sell = w
  restored : ∀ i, ∀ x ∈ h[i]?, ∀ provider ∈ turnedOn x, ∀ w ∈ lastCompleted (h.take i),
    w.isEnabled provider = true
  whole : ∀ tid born flags, s.task tid = some ⟨.load, born, .ret (.ok (.settings flags))⟩ →
    flags = .seed ∨ flags ∈ h.filterMap wantedBy

/-! ## When they do -/

/-- The task is a `put_sell_settings` that has not ended. -/
def AtWork : Option SellTask → Prop
  | some ⟨.put _ _, _, .call _ _⟩ => True
  | _ => False

instance (t : Option SellTask) : Decidable (AtWork t) := by
  unfold AtWork
  split <;> infer_instance

/-- The task is a `put_sell_settings` that has rows to write, but not the first. -/
def HalfWay (sell : SellSettings) : Option SellTask → Prop
  | some ⟨.put _ _, _, .call (.storeSell provider _) _⟩ => ∃ f ∈ sell.enabled, f.1 < provider
  | _ => False

instance (sell : SellSettings) (t : Option SellTask) : Decidable (HalfWay sell t) := by
  unfold HalfWay
  split <;> infer_instance

/-- The settings are read in this move. -/
def looks (x : SellTurn) : Bool :=
  match x.2 with
  | .resume tid _ =>
      match x.1.task tid with
      | some ⟨_, _, .call .sellRows _⟩ => true
      | _ => false
  | _ => false

/-- The task in the slot is lost in this move. -/
def loses (tid : ℕ) (x : SellTurn) : Bool :=
  match x.2 with
  | .drop i => i = tid
  | _ => false

/-- The slot of the last `put_sell_settings` to start. -/
def lastPut (h : List SellTurn) : Option ℕ := h.reverse.findSome? startsPut

/-- While a `put_sell_settings` is at work no other starts; while it is half-way nobody looks at
the settings, and it is not lost. -/
def InOrder (h : List SellTurn) (x : SellTurn) : Prop :=
  ∀ tid ∈ lastPut h, (AtWork (x.1.task tid) → startsPut x = none) ∧
    (HalfWay x.1.world.sell (x.1.task tid) → looks x = false ∧ loses tid x = false)

instance (h : List SellTurn) (x : SellTurn) : Decidable (InOrder h x) := by
  unfold InOrder
  infer_instance

/-- Every move of the history is in order. -/
def WellOrdered (h : List SellTurn) : Prop := ∀ i, ∀ x ∈ h[i]?, InOrder (h.take i) x

instance (h : List SellTurn) : Decidable (WellOrdered h) :=
  decidable_of_iff (∀ i < h.length, ∀ x ∈ h[i]?, InOrder (h.take i) x)
    ⟨fun hall i x hx => hall i (List.getElem?_eq_some_iff.mp hx).1 x hx, fun hall i _ => hall i⟩

/-! ## Programs -/

/-- The end of a `put_sell_settings`. -/
def auditSell (operator : Uuid) (before wanted : SellSettings) : DeskHandler DeskResult := do
  let _ ← insertAudit operator .sellSettings sellAuditTarget (settingsSnapshot before)
    (settingsSnapshot wanted)
  pure (.ok (.settings wanted))

lemma promised_storeAll (rows : List (String × Bool)) (operator : Uuid)
    (before wanted : SellSettings) :
    promised (storeAll rows >>= fun _ => auditSell operator before wanted) = some wanted := by
  induction rows with
  | nil => rfl
  | cons row rest ih => exact ih

/-- What a request does with the settings it has found, if one of them is on. -/
def found : SellRequest → SellSettings → DeskHandler DeskResult
  | .put operator body, rows =>
      if !(body.wanted rows).anyEnabled then pure (.error .lastProvider)
      else storeAll (body.wanted rows).enabled >>= fun _ =>
        auditSell operator rows (body.wanted rows)
  | .load, rows => pure (.ok (.settings rows))

/-- What a request has read before it goes on: the rows, or the seed it has written over them. -/
def readOrSeed (rows : SellSettings) : DeskHandler SellSettings :=
  if rows.anyEnabled then pure rows
  else do
    storeAll (knownProviders.map fun p => (p, p = "fivesim"))
    pure .seed

/-- Every request looks first. -/
lemma sellProgram_eq (req : SellRequest) : ∃ f, (∀ rows, f rows = found req rows) ∧
    sellProgram req = .call .sellRows fun rows => readOrSeed rows >>= f := by
  cases req with
  | put operator body => exact ⟨_, fun rows => rfl, rfl⟩
  | load => exact ⟨_, fun rows => rfl, rfl⟩

lemma readOrSeed_bind {rows : SellSettings} (hrows : rows.anyEnabled = true)
    (f : SellSettings → DeskHandler DeskResult) : (readOrSeed rows >>= f) = f rows := by
  rw [readOrSeed, if_pos hrows]
  rfl

/-! ## The rows -/

section Rows

variable {V : Type} {k : String} {v : V} {l l' : List (String × V)} {f : String × V}

/-- A key that is there is not written a second time. -/
lemma map_fst_putKey (hl : Ascending l) (hk : k ∈ l.map (·.1)) :
    (putKey k v l).map (·.1) = l.map (·.1) := by
  induction l with
  | nil => cases hk
  | cons b rest ih =>
      obtain ⟨hb, hrest⟩ := List.pairwise_cons.mp hl
      simp only [putKey]
      rcases List.mem_cons.mp hk with rfl | hk
      · simp
      · obtain ⟨a, ha, rfl⟩ := List.mem_map.mp hk
        have hlt : b.1 < a.1 := hb a ha
        rw [if_neg (not_lt.mpr hlt.le), if_neg (ne_of_gt hlt)]
        simp [ih hrest hk]

/-- Two objects with the same keys, of which one holds the other, are the same. -/
lemma Ascending.eq_of_subset (hl' : Ascending l')
    (hkeys : l.map (·.1) = l'.map (·.1)) (hsub : l ⊆ l') : l = l' := by
  refine List.ext_getElem (by simpa using congrArg List.length hkeys) fun i hi hi' => ?_
  refine hl'.eq_of_key (hsub (List.getElem_mem hi)) (List.getElem_mem hi') ?_
  have hi₁ : i < (l.map (·.1)).length := by simpa using hi
  have hi₂ : i < (l'.map (·.1)).length := by simpa using hi'
  simpa using (List.getElem_of_eq hkeys hi₁ : (l.map (·.1))[i] = (l'.map (·.1))[i])

end Rows

namespace SellSettings

/-- The suppliers with a row. -/
def suppliers (s : SellSettings) : List String := s.enabled.map (·.1)

lemma eq_of_subset {s s' : SellSettings} (hkeys : s.suppliers = s'.suppliers)
    (hsub : s.enabled ⊆ s'.enabled) : s' = s := by
  obtain ⟨rows, hrows⟩ := s
  obtain ⟨rows', hrows'⟩ := s'
  obtain rfl : rows = rows' := hrows'.eq_of_subset hkeys hsub
  rfl

lemma suppliers_put {s : SellSettings} {provider : String} {enabled : Bool}
    (hmem : provider ∈ s.suppliers) : (s.put provider enabled).suppliers = s.suppliers :=
  map_fst_putKey s.ascending hmem

end SellSettings

lemma known_seed {provider : String} (h : provider ∈ knownProviders) :
    provider ∈ SellSettings.seed.suppliers := by
  have hall : ∀ p ∈ knownProviders, p ∈ SellSettings.seed.suppliers := by decide
  exact hall provider h

/-- What is asked for has the rows of what there is. -/
lemma suppliers_wanted (body : SellSettingsBody) {before : SellSettings}
    (hbefore : before.suppliers = SellSettings.seed.suppliers) :
    (body.wanted before).suppliers = SellSettings.seed.suppliers := by
  have hput : ∀ (s : SellSettings) (provider : String) (enabled : Bool),
      s.suppliers = SellSettings.seed.suppliers → provider ∈ knownProviders →
        (s.put provider enabled).suppliers = SellSettings.seed.suppliers :=
    fun s _ _ hs hknown => (SellSettings.suppliers_put (hs ▸ known_seed hknown)).trans hs
  have hstart := hput _ "smspool" body.smspoolEnabled
    (hput before "fivesim" body.fivesimEnabled hbefore (by decide)) (by decide)
  unfold SellSettingsBody.wanted
  generalize (before.put "fivesim" body.fivesimEnabled).put "smspool" body.smspoolEnabled = s
    at hstart
  induction body.providers generalizing s with
  | nil => exact hstart
  | cons p ps ih =>
      simp only [List.foldl_cons]
      refine ih _ ?_
      split
      · rename_i hknown
        exact hput _ _ _ hstart hknown
      · exact hstart

/-! ## Where a request stands -/

/-- Where a request stands, over the stored settings: it is about to look; it has read what there
was and wanted, and some rows of that are stored; all of them are, and it is about to leave its
audit row; or it has answered. -/
inductive SellStage (sell : SellSettings) : SellRequest → DeskHandler DeskResult → Prop where
  | looking (req : SellRequest) : SellStage sell req (sellProgram req)
  | writing {operator : Uuid} {body : SellSettingsBody} {before wanted : SellSettings}
      (done rest : List (String × Bool)) :
      wanted.enabled = done ++ rest → wanted.suppliers = SellSettings.seed.suppliers →
      wanted.anyEnabled = true → done ⊆ sell.enabled → SellStage sell (.put operator body)
        (storeAll rest >>= fun _ => auditSell operator before wanted)
  | auditing {operator : Uuid} {body : SellSettingsBody} {before : SellSettings}
      {prev : Option String} : SellStage sell (.put operator body)
        (.call (.insertAudit operator .sellSettings sellAuditTarget (settingsSnapshot before)
          (settingsSnapshot sell) prev) fun _ => .ret (.ok (.settings sell)))
  | answered (req : SellRequest) (r : DeskResult) : SellStage sell req (.ret r)

section Stages

variable {sell sell' : SellSettings} {req : SellRequest} {p : DeskHandler DeskResult} {born : Time}

/-- Who is no writer at work does not depend on what is stored. -/
lemma SellStage.idle (h : SellStage sell req p) (hidle : ¬ AtWork (some ⟨req, born, p⟩)) :
    SellStage sell' req p := by
  cases h with
  | looking => exact .looking req
  | writing done rest hwanted =>
      cases rest with
      | nil => exact absurd trivial hidle
      | cons row rest => exact absurd trivial hidle
  | auditing => exact absurd trivial hidle
  | answered => exact .answered req _

lemma HalfWay.atWork {t : Option SellTask} (h : HalfWay sell t) : AtWork t := by
  unfold HalfWay at h
  split at h
  · trivial
  · exact h.elim

/-- A writer is not half-way before its first row. -/
lemma not_halfWay_of_first {operator : Uuid} {body : SellSettingsBody}
    {before wanted : SellSettings} (hsell : sell.suppliers = wanted.suppliers) :
    ¬ HalfWay sell (some ⟨.put operator body, born,
      storeAll wanted.enabled >>= fun _ => auditSell operator before wanted⟩) := by
  obtain ⟨rows, hrows⟩ := wanted
  cases rows with
  | nil => exact fun h => h
  | cons row rest =>
      rintro ⟨f, hf, hlt⟩
      have hmem : f.1 ∈ sell.suppliers := List.mem_map_of_mem hf
      rw [hsell] at hmem
      rcases List.mem_cons.mp hmem with heq | hmem
      · exact absurd hlt (by simp [heq])
      · obtain ⟨g, hg, hgf⟩ := List.mem_map.mp hmem
        have hlater : row.1 < g.1 := (List.pairwise_cons.mp hrows).1 g hg
        have hgf : g.1 = f.1 := hgf
        exact absurd (hgf ▸ hlater) (not_lt.mpr hlt.le)

/-- A writer is half-way between its first row and its last. -/
lemma halfWay_of_between {operator : Uuid} {body : SellSettingsBody}
    {before wanted : SellSettings} {first next : String × Bool} {done rest : List (String × Bool)}
    (hwanted : wanted.enabled = first :: done ++ next :: rest) (hfirst : first ∈ sell.enabled) :
    HalfWay sell (some ⟨.put operator body, born,
      storeAll (next :: rest) >>= fun _ => auditSell operator before wanted⟩) := by
  have hascending := wanted.ascending
  rw [hwanted] at hascending
  exact ⟨first, hfirst, (List.pairwise_cons.mp hascending).1 next (by simp)⟩

end Stages

/-! ## Along a run -/

/-- What a run in order keeps. -/
structure InHand (h : List SellTurn) (s : SellState) : Prop where
  kept : SwitchesKept h s
  suppliers : s.world.sell.suppliers = SellSettings.seed.suppliers
  stages : ∀ tid t, s.task tid = some t → SellStage s.world.sell t.req t.prog
  single : ∀ tid, AtWork (s.task tid) → lastPut h = some tid
  whole : (∀ tid, ¬ HalfWay s.world.sell (s.task tid)) → s.world.sell.anyEnabled = true ∧
    (s.world.sell = .seed ∨ s.world.sell ∈ h.filterMap wantedBy)
  settled : settledBy h ≠ none → ∀ tid, ¬ AtWork (s.task tid)

section Histories

variable {h : List SellTurn} {x : SellTurn}

lemma lastPut_append : lastPut (h ++ [x]) = (startsPut x).or (lastPut h) := by
  simp only [lastPut, List.reverse_append, List.reverse_singleton, List.singleton_append,
    List.findSome?_cons]
  cases startsPut x <;> rfl

lemma settledBy_append : settledBy (h ++ [x]) =
    if (startsPut x).isSome || (completedBy x).isSome then completedBy x else settledBy h := by
  unfold settledBy
  rw [List.reverse_append, List.reverse_singleton, List.singleton_append, List.find?_cons]
  split <;> rename_i hx <;> simp [hx]

end Histories

section Run

variable {cfg : DeskConfig} {h : List SellTurn} {s s' : SellState}
  {a : Act DeskOracle EnvMove SellRequest}

/-- The law about the readers, one move further. -/
lemma SwitchesKept.restored_append {x : SellTurn} (hkept : SwitchesKept h s)
    (hturn : turnedOn x = none) : ∀ i, ∀ y ∈ (h ++ [x])[i]?, ∀ provider ∈ turnedOn y,
      ∀ w ∈ lastCompleted ((h ++ [x]).take i), w.isEnabled provider = true := by
  intro i y hy provider hprovider w hw
  rcases lt_or_ge i h.length with hi | hi
  · rw [Option.mem_def, List.getElem?_append_left hi] at hy
    rw [List.take_append_of_le_length hi.le] at hw
    exact hkept.restored i y hy provider hprovider w hw
  · obtain ⟨hi', rfl⟩ := List.getElem?_eq_some_iff.mp hy
    have hlast : i = h.length := by
      simp only [List.length_append, List.length_singleton] at hi'
      omega
    subst hlast
    simp [hturn] at hprovider

/-- A move that writes nothing and neither starts nor completes a `put_sell_settings`, by which
one task changes. -/
lemma InHand.calm (hin : InHand h s) {tid : ℕ} {t : Option SellTask}
    (hsell : s'.world.sell = s.world.sell) (htask : s'.task = (s.setTask tid t).task)
    (hstart : startsPut (s, a) = none) (hcompleted : completedBy (s, a) = none)
    (hturn : turnedOn (s, a) = none)
    (hstage : ∀ t' ∈ t, SellStage s.world.sell t'.req t'.prog)
    (hwork : AtWork t → AtWork (s.task tid))
    (hhalf : HalfWay s.world.sell (s.task tid) → HalfWay s.world.sell t)
    (hanswer : ∀ born flags, t = some ⟨.load, born, .ret (.ok (.settings flags))⟩ →
      flags = .seed ∨ flags ∈ h.filterMap wantedBy) : InHand (h ++ [(s, a)]) s' := by
  have hmono : ∀ {flags}, flags ∈ h.filterMap wantedBy →
      flags ∈ (h ++ [(s, a)]).filterMap wantedBy := fun hmem => by
    rw [List.filterMap_append]
    exact List.mem_append_left _ hmem
  have hatWork : ∀ i, AtWork (s'.task i) → AtWork (s.task i) := fun i hi => by
    rw [htask, Sys.setTask_task] at hi
    split at hi
    · rename_i heq
      exact heq ▸ hwork hi
    · exact hi
  refine ⟨⟨fun w hw => ?_, hin.kept.restored_append hturn, fun i born flags hi => ?_⟩,
    hsell ▸ hin.suppliers, fun i t' hi => ?_, fun i hi => ?_, fun hno => ?_, fun hset i hi => ?_⟩
  · rw [settledBy_append, hstart, hcompleted] at hw
    rw [hsell, hin.kept.stored w hw]
  · rw [htask, Sys.setTask_task] at hi
    split at hi
    · exact (hanswer born flags hi).imp_right hmono
    · exact (hin.kept.whole i born flags hi).imp_right hmono
  · rw [hsell]
    rw [htask, Sys.setTask_task] at hi
    split at hi
    · exact hstage t' hi
    · exact hin.stages i t' hi
  · rw [lastPut_append, hstart, Option.none_or]
    exact hin.single i (hatWork i hi)
  · rw [hsell, htask] at hno
    rw [hsell]
    refine (hin.whole fun i hi => ?_).imp_right fun hwhole => hwhole.imp_right hmono
    refine hno i ?_
    rw [Sys.setTask_task]
    split
    · rename_i heq
      exact hhalf (heq ▸ hi)
    · exact hi
  · rw [settledBy_append, hstart, hcompleted] at hset
    exact hin.settled hset i (hatWork i hi)

/-- Nobody is half-way when somebody looks. -/
lemma InHand.none_halfWay (hin : InHand h s) (horder : InOrder h (s, a))
    (hlooks : looks (s, a) = true) (i : ℕ) : ¬ HalfWay s.world.sell (s.task i) := fun hi => by
  have hlast := hin.single i hi.atWork
  have hfalse := ((horder i hlast).2 hi).1
  rw [hlooks] at hfalse
  cases hfalse

/-- A request looks at the settings. -/
lemma InHand.look (hin : InHand h s) {tid : ℕ} {ω : DeskOracle} {req : SellRequest} {born : Time}
    {k : SellSettings → DeskHandler DeskResult} (horder : InOrder h (s, .resume tid ω))
    (ht : s.task tid = some ⟨req, born, .call .sellRows k⟩)
    (hk : ∀ rows : SellSettings, rows.anyEnabled = true → k rows = found req rows)
    (hsell : s'.world.sell = s.world.sell)
    (htask : s'.task = (s.setTask tid (some ⟨req, born, k s.world.sell⟩)).task) :
    InHand (h ++ [(s, .resume tid ω)]) s' := by
  obtain ⟨hon, hwhole⟩ := hin.whole (hin.none_halfWay horder (by simp [looks, ht]))
  rw [hk _ hon] at htask
  refine hin.calm hsell htask rfl (by simp [completedBy, ht]) (by simp [turnedOn, ht]) ?_ ?_ ?_ ?_
  · rintro t ⟨rfl⟩
    cases req with
    | load => exact .answered _ _
    | put operator body =>
        simp only [found]
        split
        · exact .answered _ _
        · rename_i hany
          have hwanted := suppliers_wanted body hin.suppliers
          exact .writing [] _ rfl hwanted (by simpa using hany) (List.nil_subset _)
  · intro hwork
    cases req with
    | load => exact hwork.elim
    | put operator body => simp [ht, AtWork]
  · intro hhalf
    rw [ht] at hhalf
    cases req <;> exact hhalf.elim
  · intro born' flags heq
    cases req with
    | load =>
        cases heq
        exact hwhole
    | put operator body => cases heq

/-- A `put_sell_settings` starts. -/
lemma InHand.start (hin : InHand h s) {tid : ℕ} {operator : Uuid} {body : SellSettingsBody}
    {born : Time} (horder : InOrder h (s, .spawn tid (.put operator body))) :
    InHand (h ++ [(s, .spawn tid (.put operator body))])
      (s.setTask tid (some ⟨.put operator body, born, sellProgram (.put operator body)⟩)) := by
  have hnone : ∀ i, ¬ AtWork (s.task i) := fun i hi => by
    cases (horder i (hin.single i hi)).1 hi
  have hstart : startsPut (s, Act.spawn tid (.put operator body)) = some tid := rfl
  refine ⟨⟨fun w hw => ?_, hin.kept.restored_append rfl, fun i born' flags hi => ?_⟩,
    hin.suppliers, fun i t hi => ?_, fun i hi => ?_, fun _ => ?_, fun hset => ?_⟩
  · rw [settledBy_append, hstart] at hw
    cases hw
  · rw [Sys.setTask_task] at hi
    split at hi
    · cases hi
    · rw [List.filterMap_append]
      exact (hin.kept.whole i born' flags hi).imp_right (List.mem_append_left _)
  · rw [Sys.setTask_task] at hi
    split at hi
    · cases hi
      exact .looking _
    · exact hin.stages i t hi
  · rw [lastPut_append, hstart, Option.some_or]
    rw [Sys.setTask_task] at hi
    split at hi
    · rename_i heq
      rw [heq]
    · exact absurd hi (hnone i)
  · rw [List.filterMap_append]
    exact (hin.whole fun i hi => hnone i hi.atWork).imp_right fun hwhole =>
      hwhole.imp_right (List.mem_append_left _)
  · rw [settledBy_append, hstart] at hset
    exact absurd rfl hset

/-- The writer at work is the only one. -/
lemma InHand.alone (hin : InHand h s) {tid : ℕ} (hwork : AtWork (s.task tid)) {i : ℕ}
    (hne : i ≠ tid) : ¬ AtWork (s.task i) := fun hi =>
  hne (Option.some.inj ((hin.single i hi).symm.trans (hin.single tid hwork)))

/-- A writer writes a row. -/
lemma InHand.write (hin : InHand h s) {tid : ℕ} {ω : DeskOracle} {operator : Uuid}
    {body : SellSettingsBody} {born : Time} {before wanted : SellSettings} {row : String × Bool}
    {done rest : List (String × Bool)}
    (ht : s.task tid = some ⟨.put operator body, born,
      storeAll (row :: rest) >>= fun _ => auditSell operator before wanted⟩)
    (hrows : wanted.enabled = done ++ row :: rest)
    (hwanted : wanted.suppliers = SellSettings.seed.suppliers) (hany : wanted.anyEnabled = true)
    (hdone : done ⊆ s.world.sell.enabled)
    (hsell : s'.world.sell = s.world.sell.put row.1 row.2)
    (htask : s'.task = (s.setTask tid (some ⟨.put operator body, born,
      storeAll rest >>= fun _ => auditSell operator before wanted⟩)).task) :
    InHand (h ++ [(s, .resume tid ω)]) s' := by
  have hwork : AtWork (s.task tid) := by
    rw [ht]
    trivial
  have hwants : wantedBy (s, .resume tid ω) = some wanted := by
    simp only [wantedBy, ht]
    exact promised_storeAll rest operator before wanted
  have hcompleted : completedBy (s, .resume tid ω) = none := by
    simp only [completedBy, ht]
    rfl
  have hturn : turnedOn (s, .resume tid ω) = none := by
    simp only [turnedOn, ht]
  have hunsettled : settledBy (h ++ [(s, .resume tid ω)]) = none := by
    rw [settledBy_append, hcompleted]
    by_contra hset
    exact hin.settled hset tid hwork
  have hsuppliers : s'.world.sell.suppliers = SellSettings.seed.suppliers := by
    rw [hsell, SellSettings.suppliers_put, hin.suppliers]
    rw [hin.suppliers, ← hwanted]
    exact List.mem_map_of_mem (hrows ▸ by simp)
  -- The row is stored, and those before it stay: their suppliers are other ones.
  have hstored : done ++ [row] ⊆ s'.world.sell.enabled := by
    intro f hf
    rw [hsell]
    rcases List.mem_append.mp hf with hf | hf
    · have hascending := wanted.ascending
      rw [hrows] at hascending
      exact mem_putKey_of_ne (hdone hf)
        (ne_of_lt ((List.pairwise_append.mp hascending).2.2 f hf row List.mem_cons_self))
    · cases List.mem_singleton.mp hf
      exact mem_putKey_self _ _ _
  refine ⟨⟨fun w hw => ?_, hin.kept.restored_append hturn, fun i born' flags hi => ?_⟩,
    hsuppliers, fun i t hi => ?_, fun i hi => ?_, fun hno => ?_, fun hset => ?_⟩
  · cases hunsettled.symm.trans hw
  · rw [htask, Sys.setTask_task] at hi
    split at hi
    · cases hi
    · rw [List.filterMap_append]
      exact (hin.kept.whole i born' flags hi).imp_right (List.mem_append_left _)
  · rw [htask, Sys.setTask_task] at hi
    split at hi
    · cases hi
      exact .writing (done ++ [row]) rest (by simp [hrows]) hwanted hany hstored
    · rename_i hne
      exact @SellStage.idle _ _ _ _ t.born (hin.stages i t hi) (hi ▸ hin.alone hwork hne)
  · rw [lastPut_append]
    rw [htask, Sys.setTask_task] at hi
    split at hi
    · rename_i heq
      rw [heq]
      exact hin.single tid hwork
    · exact hin.single i hi
  · cases rest with
    | nil =>
        have hsame : s'.world.sell = wanted :=
          SellSettings.eq_of_subset (hwanted.trans hsuppliers.symm) (hrows ▸ hstored)
        rw [hsame]
        exact ⟨hany, .inr (by simp [hwants])⟩
    | cons next rest =>
        refine absurd ?_ (hno tid)
        rw [htask, Sys.setTask_task, if_pos rfl]
        obtain ⟨first, done', hfirst⟩ : ∃ first done', done ++ [row] = first :: done' :=
          List.exists_cons_of_ne_nil (by simp)
        have hbetween : wanted.enabled = first :: done' ++ next :: rest := by
          rw [hrows, ← hfirst, List.append_assoc]
          rfl
        exact halfWay_of_between hbetween (hstored (hfirst ▸ List.mem_cons_self))
  · exact absurd hunsettled hset

/-- A writer has written all rows, and looks for the last audit row. -/
lemma InHand.findLast (hin : InHand h s) {tid : ℕ} {ω : DeskOracle} {operator : Uuid}
    {body : SellSettingsBody} {born : Time} {before wanted : SellSettings} {prev : Option String}
    (ht : s.task tid = some ⟨.put operator body, born, auditSell operator before wanted⟩)
    (hwanted : wanted.suppliers = SellSettings.seed.suppliers)
    (hdone : wanted.enabled ⊆ s.world.sell.enabled) (hsell : s'.world.sell = s.world.sell)
    (htask : s'.task = (s.setTask tid (some ⟨.put operator body, born,
      .call (.insertAudit operator .sellSettings sellAuditTarget (settingsSnapshot before)
        (settingsSnapshot wanted) prev) fun _ => .ret (.ok (.settings wanted))⟩)).task) :
    InHand (h ++ [(s, .resume tid ω)]) s' := by
  obtain rfl : s.world.sell = wanted :=
    SellSettings.eq_of_subset (hwanted.trans hin.suppliers.symm) hdone
  refine hin.calm hsell htask rfl (by simp only [completedBy, ht]; rfl)
    (by simp only [turnedOn, ht]) ?_ (fun _ => by rw [ht]; trivial) (fun hhalf => ?_) ?_
  · rintro t ⟨rfl⟩
    exact .auditing
  · rw [ht] at hhalf
    exact hhalf.elim
  · intro born' flags heq
    cases heq

/-- A `put_sell_settings` completes. -/
lemma InHand.complete (hin : InHand h s) {tid : ℕ} {ω : DeskOracle} {operator : Uuid}
    {body : SellSettingsBody} {born : Time} {before : SellSettings} {prev : Option String}
    (ht : s.task tid = some ⟨.put operator body, born,
      .call (.insertAudit operator .sellSettings sellAuditTarget (settingsSnapshot before)
        (settingsSnapshot s.world.sell) prev) fun _ => .ret (.ok (.settings s.world.sell))⟩)
    (hsell : s'.world.sell = s.world.sell)
    (htask : s'.task = (s.setTask tid (some ⟨.put operator body, born,
      .ret (.ok (.settings s.world.sell))⟩)).task) :
    InHand (h ++ [(s, .resume tid ω)]) s' := by
  have hwork : AtWork (s.task tid) := by
    rw [ht]
    trivial
  have hcompleted : completedBy (s, .resume tid ω) = some s.world.sell := by
    simp only [completedBy, ht]
    rfl
  have hturn : turnedOn (s, .resume tid ω) = none := by
    simp only [turnedOn, ht]
  have hnone : ∀ i, ¬ AtWork (s'.task i) := fun i hi => by
    rw [htask, Sys.setTask_task] at hi
    split at hi
    · exact hi
    · rename_i hne
      exact hin.alone hwork hne hi
  refine ⟨⟨fun w hw => ?_, hin.kept.restored_append hturn, fun i born' flags hi => ?_⟩,
    hsell ▸ hin.suppliers, fun i t hi => ?_, fun i hi => absurd hi (hnone i), fun _ => ?_,
    fun _ => hnone⟩
  · rw [settledBy_append, hcompleted] at hw
    cases hw
    exact hsell
  · rw [htask, Sys.setTask_task] at hi
    split at hi
    · cases hi
    · rw [List.filterMap_append]
      exact (hin.kept.whole i born' flags hi).imp_right (List.mem_append_left _)
  · rw [hsell]
    rw [htask, Sys.setTask_task] at hi
    split at hi
    · cases hi
      exact .answered _ _
    · exact hin.stages i t hi
  · rw [hsell, List.filterMap_append]
    refine (hin.whole fun i hi => ?_).imp_right fun hwhole =>
      hwhole.imp_right (List.mem_append_left _)
    by_cases heq : i = tid
    · rw [heq, ht] at hi
      exact hi
    · exact hin.alone hwork heq hi.atWork

/-- What one operation does to the settings. -/
lemma execDesk_sell {tid : ℕ} {ω : DeskOracle} {op : DeskOp} {d d' : Desk} {r : op.Res}
    (he : execDesk cfg tid ω d op = some (r, d')) : d'.sell =
      match op with
      | .storeSell provider enabled => d.sell.put provider enabled
      | _ => d.sell := by
  cases op with
  | backend | refundClaimed =>
      obtain ⟨x, -, hx⟩ := Option.map_eq_some_iff.mp he
      cases hx
      rfl
  | insertAudit =>
      simp only [execDesk] at he
      split at he
      · cases he
      · cases he
        rfl
  | findReplay | journals | lastHash | alert | sellRows | storeSell =>
      cases he
      rfl

/-- **One operation of a request.** -/
lemma InHand.perform (hin : InHand h s) {tid : ℕ} {ω : DeskOracle} {req : SellRequest}
    {born : Time} {op : DeskOp} {k : op.Res → DeskHandler DeskResult} {r : op.Res}
    (horder : InOrder h (s, .resume tid ω)) (ht : s.task tid = some ⟨req, born, .call op k⟩)
    (he : execDesk cfg tid ω s.world op = some (r, s'.world))
    (htask : s'.task = (s.setTask tid (some ⟨req, born, k r⟩)).task) :
    InHand (h ++ [(s, .resume tid ω)]) s' := by
  have hsell := execDesk_sell he
  have hstage : SellStage s.world.sell req (.call op k) := hin.stages tid _ ht
  generalize hp : Prog.call op k = p at hstage
  cases hstage with
  | looking =>
      obtain ⟨f, hf, hprogram⟩ := sellProgram_eq req
      rw [hprogram] at hp
      cases hp
      obtain rfl : s.world.sell = r := congrArg Prod.fst (Option.some.inj he)
      exact hin.look horder ht (fun rows hrows => (readOrSeed_bind hrows f).trans (hf rows)) hsell
        htask
  | writing done rest hrows hwanted hany hdone =>
      cases rest with
      | nil =>
          cases hp
          rw [List.append_nil] at hrows
          exact hin.findLast ht hwanted (hrows ▸ hdone) hsell htask
      | cons row rest =>
          cases hp
          exact hin.write ht hrows hwanted hany hdone hsell htask
  | auditing =>
      cases hp
      exact hin.complete ht hsell htask
  | answered => cases hp

/-- **One move**, if it is in order. -/
lemma InHand.step (hin : InHand h s) (horder : InOrder h (s, a))
    (hs : (switchboard cfg).step s a = some s') : InHand (h ++ [(s, a)]) s' := by
  rcases Machine.step_cases hs with ⟨e, rfl, he, htask⟩ | ⟨tid, req, rfl, rfl⟩ |
    ⟨tid, ω, req, born, op, k, r, rfl, ht, he, htask⟩ | ⟨tid, rfl, rfl⟩
  · obtain ⟨w, -, hw⟩ := Option.map_eq_some_iff.mp he
    have hsame : s'.task = (s.setTask 0 (s.task 0)).task := by
      funext i
      rw [htask, Sys.setTask_task]
      split
      · rename_i hi
        rw [hi]
      · rfl
    exact hin.calm (hw ▸ rfl) hsame rfl rfl rfl (fun t ht => hin.stages 0 t ht) id id
      fun born flags ht => hin.kept.whole 0 born flags ht
  · cases req with
    | put operator body => exact hin.start horder
    | load =>
        have hfree : s.task tid = none := by
          simp only [Machine.step] at hs
          split at hs
          · cases hs
          · assumption
        refine hin.calm rfl rfl rfl rfl rfl ?_ False.elim (fun hhalf => ?_) fun _ _ ht => ?_
        · rintro t ⟨rfl⟩
          exact .looking _
        · rw [hfree] at hhalf
          exact hhalf.elim
        · cases ht
  · exact hin.perform horder ht he htask
  · refine hin.calm rfl rfl rfl rfl rfl (fun t ht => by cases ht) False.elim (fun hhalf => ?_)
      fun _ _ ht => by cases ht
    have hlost := ((horder tid (hin.single tid hhalf.atWork)).2 hhalf).2
    simp [loses] at hlost

end Run

lemma inHand_initial : InHand [] sellInitial where
  kept := ⟨fun _ hw => (by cases hw), fun i _ hx => (by simp at hx), fun _ _ _ ht => (by cases ht)⟩
  suppliers := rfl
  stages _ _ ht := by cases ht
  single _ hwork := hwork.elim
  whole _ := ⟨by decide, .inl rfl⟩
  settled hset := absurd rfl hset

lemma WellOrdered.left {h h' : List SellTurn} (hordered : WellOrdered (h ++ h')) :
    WellOrdered h := fun i x hx => by
  have hi : i < h.length := (List.getElem?_eq_some_iff.mp hx).1
  have hturn := hordered i x (by rw [List.getElem?_append_left hi]; exact hx)
  rwa [List.take_append_of_le_length hi.le] at hturn

lemma WellOrdered.last {h : List SellTurn} {x : SellTurn} (hordered : WellOrdered (h ++ [x])) :
    InOrder h x := by
  simpa using hordered h.length x (by simp)

/-- **The switches stay where they were put**, in the runs in which the writers come one after
another, and nobody looks, and no writer is lost, between the first and the last row of one. -/
theorem switches_kept (cfg : DeskConfig) {h : List SellTurn} {s : SellState}
    (hrun : (switchboard cfg).Path sellInitial h s) (hordered : WellOrdered h) :
    SwitchesKept h s := by
  suffices hin : InHand h s from hin.kept
  induction hrun with
  | init => exact inHand_initial
  | step _ hs ih => exact (ih hordered.left).step hordered.last hs

/-! ## Two runs -/

/-- The stub backend, with a hash that the runs below do not look at. -/
def sellConfig : DeskConfig := ⟨stubConfig, fun _ => ""⟩

/-- Operations of the request in a slot. -/
def sellSteps (tid n : ℕ) : List (Act DeskOracle EnvMove SellRequest) :=
  List.replicate n (.resume tid {})

/-- An operator turns 5SIM off and SMSPool on. -/
def toPool : SellRequest := .put 7 ⟨false, true, []⟩

/-- The change is made, and the shop looks. -/
def switched : List (Act DeskOracle EnvMove SellRequest) :=
  .spawn 0 toPool :: sellSteps 0 9 ++ .spawn 1 .load :: sellSteps 1 1

/-- The shop finds what the operator wanted. -/
theorem switches_kept_switched : ∃ h s, (switchboard sellConfig).Path sellInitial h s ∧
    SwitchesKept h s ∧ s.world.sell.isEnabled "smspool" = true ∧
    s.world.sell.isEnabled "fivesim" = false := by
  obtain ⟨h, s, hp, hordered, hpool, hfivesim⟩ := Machine.exists_path_of_record
    (switchboard sellConfig) sellInitial switched (fun h s => WellOrdered h ∧
      s.world.sell.isEnabled "smspool" = true ∧ s.world.sell.isEnabled "fivesim" = false)
    (by decide +kernel)
  exact ⟨h, s, hp, switches_kept sellConfig hp hordered, hpool, hfivesim⟩

/-- The shop looks when 5SIM is off and SMSPool not yet on, and writes what it takes for missing
when the change is complete. -/
def switchedBack : List (Act DeskOracle EnvMove SellRequest) :=
  .spawn 0 toPool :: sellSteps 0 3 ++ .spawn 1 .load :: sellSteps 1 1 ++ sellSteps 0 6 ++
    sellSteps 1 6

/-- **A reader switches back.**  After the change has been completed, 5SIM is on and SMSPool off. -/
theorem switched_back :
    ¬ ∀ h s, (switchboard sellConfig).Path sellInitial h s → SwitchesKept h s := by
  intro hkept
  obtain ⟨h, s, hp, w, hw, hwanted, hstored⟩ := Machine.exists_path_of_record
    (switchboard sellConfig) sellInitial switchedBack (fun h s => ∃ w ∈ settledBy h,
      w.isEnabled "fivesim" = false ∧ s.world.sell.isEnabled "fivesim" = true) (by decide +kernel)
  rw [(hkept h s hp).stored w hw, hwanted] at hstored
  cases hstored

end Naivolt
