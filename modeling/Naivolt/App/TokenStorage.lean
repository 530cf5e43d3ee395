import Naivolt.Core
import Naivolt.Foundation.Layers

/-!
# Token storage in the app

`tokenStorage.ts` keeps the session's tokens in SecureStore, else in AsyncStorage, else in an
object in memory.  A write goes to the first store that accepts it, and a read looks through all
three.  A store the build does not have refuses every write and holds nothing.

A write that falls through to a lower store leaves the higher ones as they are, where `removeToken`
clears all three.  So an older token that a higher store accepted is read in place of the latest
one: `getToken_iff` says exactly when the latest is read.

The object in memory inherits from `Object.prototype`, so a few keys read as something though
nothing was set, and `__proto__` cannot be set at all.
-/

namespace Naivolt

open Foundation

/-! ## The object in memory -/

/-- The names `Object.prototype` answers to. -/
def objectPrototype : List String :=
  ["constructor", "__defineGetter__", "__defineSetter__", "hasOwnProperty", "__lookupGetter__",
    "__lookupSetter__", "isPrototypeOf", "propertyIsEnumerable", "toString", "valueOf", "__proto__",
    "toLocaleString"]

/-- What reading a property gives: a text set before, or what `Object.prototype` has there. -/
inductive JsValue where
  | string (value : String)
  | inherited (name : String)
  deriving DecidableEq, Repr

/-- An object literal, `{}` at first, whose properties are texts. -/
structure JsObject where
  own : String → Option String

namespace JsObject

def empty : JsObject where own _ := none

/-- `object[key] = value`.  The setter of `__proto__` ignores a text. -/
def set (o : JsObject) (key value : String) : JsObject where
  own := if key = "__proto__" then o.own else Function.update o.own key (some value)

/-- `object[key] ?? null`. -/
def get (o : JsObject) (key : String) : Option JsValue :=
  match o.own key with
  | some value => some (.string value)
  | none => if key ∈ objectPrototype then some (.inherited key) else none

/-- `delete object[key]`. -/
def delete (o : JsObject) (key : String) : JsObject where
  own := Function.update o.own key none

end JsObject

/-! ## The three stores -/

def tokenPrefix : String := "naivolt_secure_"

def tokenKey : String := "naivolt_token"

def refreshKey : String := "naivolt_refresh"

structure TokenStores where
  secureStore : String → Option String
  asyncStorage : String → Option String
  memoryStore : JsObject

namespace TokenStores

def empty : TokenStores where
  secureStore _ := none
  asyncStorage _ := none
  memoryStore := .empty

/-- `setToken`, with whether SecureStore and AsyncStorage accept the write. -/
def setToken (s : TokenStores) (key value : String) (secureAccepts asyncAccepts : Bool) :
    TokenStores :=
  if secureAccepts then
    { s with secureStore := Function.update s.secureStore key (some value) }
  else if asyncAccepts then
    { s with asyncStorage := Function.update s.asyncStorage (tokenPrefix ++ key) (some value) }
  else { s with memoryStore := s.memoryStore.set key value }

/-- `getToken`. -/
def getToken (s : TokenStores) (key : String) : Option JsValue :=
  match s.secureStore key with
  | some value => some (.string value)
  | none =>
    match s.asyncStorage (tokenPrefix ++ key) with
    | some value => some (.string value)
    | none => s.memoryStore.get key

/-- `removeToken`. -/
def removeToken (s : TokenStores) (key : String) : TokenStores where
  secureStore := Function.update s.secureStore key none
  asyncStorage := Function.update s.asyncStorage (tokenPrefix ++ key) none
  memoryStore := s.memoryStore.delete key

end TokenStores

/-! ## Runs -/

inductive TokenCall where
  | set (key value : String) (secureAccepts asyncAccepts : Bool)
  | get (key : String)
  | remove (key : String)
  deriving DecidableEq, Repr

namespace TokenCall

def apply (s : TokenStores) : TokenCall → TokenStores
  | .set key value secureAccepts asyncAccepts => s.setToken key value secureAccepts asyncAccepts
  | .get _ => s
  | .remove key => s.removeToken key

/-- The stores after the calls, none of which was made before them. -/
def run (calls : List TokenCall) : TokenStores := calls.foldl apply .empty

/-- What the calls do to the one map the stores stand in for. -/
def applyMap (m : String → Option String) : TokenCall → String → Option String
  | .set key value _ _ => Function.update m key (some value)
  | .get _ => m
  | .remove key => Function.update m key none

/-- The value most recently set, unless it was removed since. -/
def latest (calls : List TokenCall) : String → Option String := calls.foldl applyMap fun _ => none

end TokenCall

/-! ## The writes of a key -/

/-- The stores in the order `getToken` looks through them. -/
inductive StoreLevel where
  | secure
  | async
  | memory
  deriving Repr

namespace StoreLevel

def rank : StoreLevel → ℕ
  | .secure => 0
  | .async => 1
  | .memory => 2

lemma rank_injective : Function.Injective rank := by
  intro a b h
  cases a <;> cases b <;> first | rfl | exact absurd h (by decide)

instance : LinearOrder StoreLevel := LinearOrder.lift' rank rank_injective

lemma lt_iff {a b : StoreLevel} : a < b ↔ a.rank < b.rank := Iff.rfl

/-- The stores that can hold a key. -/
def keeping (key : String) : List StoreLevel :=
  if key = "__proto__" then [.secure, .async] else [.secure, .async, .memory]

lemma keeping_sorted (key : String) : (keeping key).Pairwise (· < ·) := by
  unfold keeping
  split <;> simp [lt_iff, rank]

/-- Only memory cannot hold every key, and it comes last. -/
lemma lt_of_notMem_keeping {key : String} {l : StoreLevel} (h : l ∉ keeping key) :
    ∀ i ∈ keeping key, i < l := by
  have hmemory : l = .memory := by
    unfold keeping at h
    cases l <;> split at h <;> simp_all
  have hproto : key = "__proto__" := by
    by_contra hne
    simp [keeping, hne, hmemory] at h
  simp [keeping, hproto, hmemory, lt_iff, rank]

/-- Where a write goes. -/
def taking (secureAccepts asyncAccepts : Bool) : StoreLevel :=
  if secureAccepts then .secure else if asyncAccepts then .async else .memory

end StoreLevel

namespace TokenCall

def applyWrites (key : String) (ws : List (StoreLevel × String)) :
    TokenCall → List (StoreLevel × String)
  | .set k value secureAccepts asyncAccepts =>
    if k = key then (.taking secureAccepts asyncAccepts, value) :: ws else ws
  | .get _ => ws
  | .remove k => if k = key then [] else ws

/-- The writes of a key since it was last removed, newest first, each with the store that took
it. -/
def writes (calls : List TokenCall) (key : String) : List (StoreLevel × String) :=
  calls.foldl (applyWrites key) []

/-- The latest value is that of the newest write. -/
lemma latest_eq (calls : List TokenCall) (key : String) :
    latest calls key = (writes calls key).head?.map Prod.snd := by
  induction calls using List.reverseRecOn with
  | nil => rfl
  | append_singleton calls call ih =>
      rw [latest, writes, List.foldl_concat, List.foldl_concat, ← latest, ← writes]
      cases call with
      | get k => exact ih
      | set k value secureAccepts asyncAccepts =>
          by_cases hk : k = key
          · simp [applyMap, applyWrites, hk]
          · rw [applyMap, applyWrites, if_neg hk, Function.update_of_ne (Ne.symm hk), ih]
      | remove k =>
          by_cases hk : k = key
          · simp [applyMap, applyWrites, hk]
          · rw [applyMap, applyWrites, if_neg hk, Function.update_of_ne (Ne.symm hk), ih]

end TokenCall

/-! ## What the stores hold -/

/-- Each store holds the newest write of the key it took; memory never holds `__proto__`. -/
structure StoresHold (key : String) (ws : List (StoreLevel × String)) (s : TokenStores) :
    Prop where
  secure : s.secureStore key = Layers.held ws .secure
  async : s.asyncStorage (tokenPrefix ++ key) = Layers.held ws .async
  memory : s.memoryStore.own key = if key = "__proto__" then none else Layers.held ws .memory

namespace StoresHold

variable {key : String} {ws : List (StoreLevel × String)} {s : TokenStores}

lemma append_ne {k : String} (h : key ≠ k) : tokenPrefix ++ key ≠ tokenPrefix ++ k := by
  simpa using h

/-- A write of the key. -/
lemma setToken (h : StoresHold key ws s) (value : String) (secureAccepts asyncAccepts : Bool) :
    StoresHold key ((.taking secureAccepts asyncAccepts, value) :: ws)
      (s.setToken key value secureAccepts asyncAccepts) := by
  have hsecure := h.secure
  have hasync := h.async
  have hmemory := h.memory
  unfold TokenStores.setToken StoreLevel.taking
  by_cases hs : secureAccepts = true
  · rw [if_pos hs, if_pos hs]
    exact ⟨by simp [Layers.held_cons], by simpa [Layers.held_cons] using hasync,
      by simpa [Layers.held_cons] using hmemory⟩
  · by_cases ha : asyncAccepts = true
    · rw [if_neg hs, if_neg hs, if_pos ha, if_pos ha]
      exact ⟨by simpa [Layers.held_cons] using hsecure, by simp [Layers.held_cons],
        by simpa [Layers.held_cons] using hmemory⟩
    · rw [if_neg hs, if_neg hs, if_neg ha, if_neg ha]
      refine ⟨by simpa [Layers.held_cons] using hsecure,
        by simpa [Layers.held_cons] using hasync, ?_⟩
      by_cases hproto : key = "__proto__"
      · simpa [JsObject.set, hproto] using hmemory
      · simp [JsObject.set, hproto, Layers.held_cons]

/-- A write of another key. -/
lemma setToken_of_ne (h : StoresHold key ws s) {k : String} (hk : key ≠ k) (value : String)
    (secureAccepts asyncAccepts : Bool) :
    StoresHold key ws (s.setToken k value secureAccepts asyncAccepts) := by
  have hprefixed := append_ne hk
  unfold TokenStores.setToken
  by_cases hs : secureAccepts = true
  · rw [if_pos hs]
    exact ⟨(Function.update_of_ne hk _ _).trans h.secure, h.async, h.memory⟩
  · by_cases ha : asyncAccepts = true
    · rw [if_neg hs, if_pos ha]
      exact ⟨h.secure, (Function.update_of_ne hprefixed _ _).trans h.async, h.memory⟩
    · rw [if_neg hs, if_neg ha]
      refine ⟨h.secure, h.async, ?_⟩
      by_cases hproto : k = "__proto__"
      · rw [JsObject.set, if_pos hproto, h.memory]
      · rw [JsObject.set, if_neg hproto]
        exact (Function.update_of_ne hk _ _).trans h.memory

/-- Removing a key clears it in all three. -/
lemma removeToken (key : String) (s : TokenStores) : StoresHold key [] (s.removeToken key) := by
  constructor <;> simp [TokenStores.removeToken, JsObject.delete]

lemma removeToken_of_ne (h : StoresHold key ws s) {k : String} (hk : key ≠ k) :
    StoresHold key ws (s.removeToken k) where
  secure := (Function.update_of_ne hk _ _).trans h.secure
  async := (Function.update_of_ne (append_ne hk) _ _).trans h.async
  memory := (Function.update_of_ne hk _ _).trans h.memory

/-- What is read then: the first that a store has, else what the object inherits. -/
lemma getToken_eq (h : StoresHold key ws s) :
    s.getToken key = match Layers.read (StoreLevel.keeping key) ws with
      | some value => some (.string value)
      | none => if key ∈ objectPrototype then some (.inherited key) else none := by
  rw [TokenStores.getToken, h.secure, h.async, JsObject.get, h.memory]
  unfold Layers.read StoreLevel.keeping
  by_cases hproto : key = "__proto__" <;> cases hs : Layers.held ws .secure <;>
    cases ha : Layers.held ws .async <;> cases hm : Layers.held ws .memory <;>
    simp [hs, ha, hm, hproto]

end StoresHold

namespace TokenCall

/-- **The stores hold what was written.** -/
theorem storesHold_run (calls : List TokenCall) (key : String) :
    StoresHold key (writes calls key) (run calls) := by
  induction calls using List.reverseRecOn with
  | nil => constructor <;> simp [run, writes, TokenStores.empty, JsObject.empty]
  | append_singleton calls call ih =>
      rw [run, writes, List.foldl_concat, List.foldl_concat, ← run, ← writes]
      cases call with
      | get k => exact ih
      | set k value secureAccepts asyncAccepts =>
          by_cases hk : k = key
          · rw [applyWrites, if_pos hk, hk]
            exact ih.setToken value secureAccepts asyncAccepts
          · rw [applyWrites, if_neg hk]
            exact ih.setToken_of_ne (Ne.symm hk) value secureAccepts asyncAccepts
      | remove k =>
          by_cases hk : k = key
          · rw [applyWrites, if_pos hk, hk]
            exact .removeToken key _
          · rw [applyWrites, if_neg hk]
            exact ih.removeToken_of_ne (Ne.symm hk)

end TokenCall
/-! ## When the latest is read -/

/-- The newest write of the highest store that took any has the latest value, and that store can
hold the key.  A key without a write has no name of `Object.prototype`. -/
structure Readable (key : String) (ws : List (StoreLevel × String)) : Prop where
  unset : ws = [] → key ∉ objectPrototype
  latest : ∀ w, Layers.Tops ws w → ws.head?.map Prod.snd = some w.2
  kept : ∀ w, Layers.Tops ws w → w.1 ∈ StoreLevel.keeping key

/-- **When the latest is read**, after any calls and for any key. -/
theorem getToken_iff (calls : List TokenCall) (key : String) :
    (TokenCall.run calls).getToken key = (TokenCall.latest calls key).map .string ↔
      Readable key (TokenCall.writes calls key) := by
  rw [(TokenCall.storesHold_run calls key).getToken_eq, TokenCall.latest_eq]
  generalize TokenCall.writes calls key = ws
  by_cases hws : ws = []
  · subst hws
    have hnone : ∀ w, ¬ Layers.Tops ([] : List (StoreLevel × String)) w := fun w hw =>
      absurd hw.mem (List.not_mem_nil)
    by_cases hkey : key ∈ objectPrototype
    · simp only [Layers.read_nil, if_pos hkey, List.head?_nil, Option.map_none]
      exact iff_of_false (by simp) fun h => h.unset rfl hkey
    · simp only [Layers.read_nil, if_neg hkey, List.head?_nil, Option.map_none, true_iff]
      exact ⟨fun _ => hkey, fun w hw => absurd hw (hnone w), fun w hw => absurd hw (hnone w)⟩
  · obtain ⟨w, hw⟩ := Layers.exists_tops hws
    obtain ⟨newest, hnewest⟩ : ∃ newest, ws.head?.map Prod.snd = some newest := by
      cases ws with
      | nil => exact absurd rfl hws
      | cons v ws => exact ⟨v.2, rfl⟩
    have hreadable : Readable key ws ↔ newest = w.2 ∧ w.1 ∈ StoreLevel.keeping key := by
      constructor
      · intro h
        have hlatest := h.latest w hw
        rw [hnewest] at hlatest
        exact ⟨Option.some.inj hlatest, h.kept w hw⟩
      · rintro ⟨hlatest, hkept⟩
        refine ⟨fun hnil => absurd hnil hws, fun v hv => ?_, fun v hv => ?_⟩
        · rw [hw.unique hv, hnewest, hlatest]
        · rw [hw.unique hv]
          exact hkept
    rw [hreadable, hnewest]
    by_cases hkept : w.1 ∈ StoreLevel.keeping key
    · rw [Layers.read_of_tops (StoreLevel.keeping_sorted key) hkept hw]
      simp [hkept, eq_comm]
    · rw [Layers.read_of_above hw (StoreLevel.lt_of_notMem_keeping hkept)]
      refine iff_of_false ?_ fun h => hkept h.2
      by_cases hkey : key ∈ objectPrototype <;> simp [hkey]

/-- The refresh token is renewed while SecureStore refuses the write, and the old one is read. -/
theorem refresh_shadowed :
    ¬ ∀ (calls : List TokenCall) (key : String),
      (TokenCall.run calls).getToken key = (TokenCall.latest calls key).map .string := by
  intro h
  have hread := h [.set refreshKey "old" true true, .set refreshKey "new" false true] refreshKey
  simp [TokenCall.run, TokenCall.latest, TokenCall.apply, TokenCall.applyMap, TokenStores.setToken,
    TokenStores.getToken] at hread

end Naivolt
