import Naivolt.Foundation.Contention
import Naivolt.Shop.Offers

/-!
# The countries of the catalogue

`upsert_country` of `number_catalog.rs` and the loop of `sync` that calls it, in the order of the
supplier's keys.  A row of `number_countries` is unique by its ISO code and by the supplier key
that its orders are bought with; what a sync does to the table is that the supplier's keys contend
for the ISO codes, `Contention.Tenure.claims`.

A key keeps the row that it already sells under, whatever its code, and does not displace a lower
key, whether or not the supplier still lists it.  So what earlier syncs have left behind can stand
in the way of the lowest key.  And a country is read by whichever key of its maps is drawn first,
so that a second sync can read it differently.  `sync_canonical_iff` says when neither matters.
-/

namespace Naivolt

open Foundation Contention

/-! ## What the supplier lists -/

/-- A country as 5SIM lists it: the keys of `iso` and of `prefix` in the order in which the maps
are walked, and `text_en`. -/
structure GuestCountry where
  iso : List String
  prefixes : List String
  textEn : Option String

/-- `BRANDS`. -/
def brands : List (String × String) :=
  [("whatsapp", "WhatsApp"), ("tiktok", "TikTok"), ("paypal", "PayPal"), ("wechat", "WeChat"),
    ("youtube", "YouTube"), ("linkedin", "LinkedIn"), ("snapchat", "Snapchat"),
    ("facebook", "Facebook"), ("instagram", "Instagram"), ("telegram", "Telegram"),
    ("twitter", "X (Twitter)"), ("openai", "OpenAI"), ("github", "GitHub"),
    ("payoneer", "Payoneer"), ("binance", "Binance"), ("coinbase", "Coinbase"),
    ("airbnb", "Airbnb"), ("aliexpress", "AliExpress"), ("ebay", "eBay"), ("imo", "IMO"),
    ("kakaotalk", "KakaoTalk"), ("viber", "Viber"), ("bolt", "Bolt"), ("uber", "Uber"),
    ("glovo", "Glovo"), ("jumia", "Jumia"), ("opay", "OPay"), ("kuda", "Kuda")]

/-- A word with its first character in upper case. -/
def titleCase (cfg : Config) : List Char → String
  | [] => ""
  | c :: rest => cfg.toUppercase (String.ofList [c]) ++ String.ofList rest

/-- A supplier key as a person would write it. -/
def humanise (cfg : Config) (key : String) : String :=
  match brands.find? (fun b => b.1 = key) with
  | some (_, brand) => brand
  | none =>
    " ".intercalate (((key.toList.splitOnP fun c => c = '-' || c = '_' || c = '.').filter
      (· ≠ [])).map (titleCase cfg))

/-- What `upsert_country` reads off a listed country. -/
structure CountryReading where
  code : String
  name : String
  dialCode : String
  deriving DecidableEq

/-- A country without an ISO code or without a prefix cannot be addressed. -/
def GuestCountry.read (cfg : Config) (key : String) (country : GuestCountry) :
    Option CountryReading :=
  match country.iso.head?, country.prefixes.head? with
  | some iso, some dial => some ⟨cfg.toUppercase iso, country.textEn.getD (humanise cfg key), dial⟩
  | _, _ => none

/-- The same country with its maps walked in another order: a `HashMap` is walked anew each time
that a sync has read the list. -/
structure GuestCountry.Redrawn (country country' : GuestCountry) : Prop where
  iso : country'.iso.Perm country.iso
  prefixes : country'.prefixes.Perm country.prefixes
  textEn : country'.textEn = country.textEn

/-- The same list, read once more. -/
def RedrawnList (l l' : Table String GuestCountry) : Prop :=
  ∀ key, Option.Rel GuestCountry.Redrawn (l.get? key) (l'.get? key)

/-! ## The table -/

/-- `number_countries`, with its two unique indexes. -/
@[ext]
structure Countries extends Table Uuid CountryRow where
  codesUnique : (rows.map (·.2.code)).Nodup
  keysUnique : (rows.map (·.2.providerCountry)).Nodup

namespace Countries

/-- The table after a statement, which fails if it violates a unique index. -/
def checked (t : Table Uuid CountryRow) : Option Countries :=
  if h : (t.rows.map (·.2.code)).Nodup ∧ (t.rows.map (·.2.providerCountry)).Nodup then
    some ⟨t, h.1, h.2⟩
  else none

/-- The row that a condition selects. -/
def select (t : Countries) (p : CountryRow → Bool) : Option (Uuid × CountryRow) :=
  t.rows.find? fun r => p r.2

end Countries

/-- `upsert_country`: the id of the row that the country is sold under, if there is one.  `draw`
is what `gen_random_uuid()` gives. -/
def upsertCountry (cfg : Config) (draw : Uuid) (key : String) (country : GuestCountry)
    (t : Countries) : Option (Option Uuid × Countries) :=
  match country.read cfg key with
  | none => some (none, t)
  | some ⟨code, name, dialCode⟩ =>
    match t.select fun r => r.providerCountry = key with
    | some (id, _) => do
      let t ← Countries.checked (t.modify id fun r => { r with name, dialCode })
      return (some id, t)
    | none =>
      match t.select fun r => r.code = code with
      | some (id, holder) =>
        if holder.providerCountry < key then some (none, t)
        else do
          let t ← Countries.checked
            (t.modify id fun r => { r with providerCountry := key, name, dialCode })
          return (some id, t)
      | none => do
        let t ← Countries.checked (← t.insert draw ⟨code, name, dialCode, key, true⟩)
        return (some draw, t)

/-- The loop of `sync`, as far as it is about countries: the keys that have a row, and the table.
`draws` is what `gen_random_uuid()` gives for a key. -/
def syncCountries (cfg : Config) (draws : String → Uuid) :
    List (String × GuestCountry) → Countries → Option (List (String × Uuid) × Countries)
  | [], t => some ([], t)
  | (key, country) :: rest, t => do
    let (id, t) ← upsertCountry cfg (draws key) key country t
    let (ids, t) ← syncCountries cfg draws rest t
    return ((id.map fun id => (key, id)).toList ++ ids, t)

/-! ## Rows -/

namespace Countries

variable {t t' : Countries}

lemma eq_of_code {r r' : Uuid × CountryRow} (hr : r ∈ t.rows) (hr' : r' ∈ t.rows)
    (h : r.2.code = r'.2.code) : r = r' :=
  List.inj_on_of_nodup_map t.codesUnique hr hr' h

lemma eq_of_key {r r' : Uuid × CountryRow} (hr : r ∈ t.rows) (hr' : r' ∈ t.rows)
    (h : r.2.providerCountry = r'.2.providerCountry) : r = r' :=
  List.inj_on_of_nodup_map t.keysUnique hr hr' h

lemma eq_of_id {r r' : Uuid × CountryRow} (hr : r ∈ t.rows) (hr' : r' ∈ t.rows)
    (h : r.1 = r'.1) : r = r' :=
  List.inj_on_of_nodup_map t.nodup hr hr' h

lemma select_eq_some {p : CountryRow → Bool} {r : Uuid × CountryRow}
    (h : t.select p = some r) : r ∈ t.rows ∧ p r.2 = true := by
  unfold select at h
  exact ⟨List.mem_of_find?_eq_some h, by simpa using List.find?_some h⟩

lemma select_eq_none_iff {p : CountryRow → Bool} :
    t.select p = none ↔ ∀ r ∈ t.rows, p r.2 = false := by
  simp [select, List.find?_eq_none]

lemma select_of_key {r : Uuid × CountryRow} {key : String} (hr : r ∈ t.rows)
    (hkey : r.2.providerCountry = key) : t.select (fun r => r.providerCountry = key) = some r := by
  cases hselect : t.select fun r => r.providerCountry = key with
  | none => exact absurd (select_eq_none_iff.mp hselect r hr) (by simp [hkey])
  | some r' =>
      obtain ⟨hr', hkey'⟩ := select_eq_some hselect
      rw [eq_of_key hr' hr (by simpa [hkey] using hkey')]

lemma select_of_code {r : Uuid × CountryRow} {code : String} (hr : r ∈ t.rows)
    (hcode : r.2.code = code) : t.select (fun r => r.code = code) = some r := by
  cases hselect : t.select fun r => r.code = code with
  | none => exact absurd (select_eq_none_iff.mp hselect r hr) (by simp [hcode])
  | some r' =>
      obtain ⟨hr', hcode'⟩ := select_eq_some hselect
      rw [eq_of_code hr' hr (by simpa [hcode] using hcode')]

lemma checked_eq_some_iff {u : Table Uuid CountryRow} :
    checked u = some t ↔ t.toTable = u := by
  unfold checked
  split_ifs with h
  · rw [Option.some_inj]
    constructor <;> rintro rfl <;> rfl
  · refine iff_of_false (by simp) ?_
    rintro rfl
    exact absurd ⟨t.codesUnique, t.keysUnique⟩ h

/-- The rows after an `UPDATE` of one row. -/
lemma mem_modify {r x : Uuid × CountryRow} {f : CountryRow → CountryRow} (hr : r ∈ t.rows) :
    x ∈ (t.modify r.1 f).rows ↔ (x ∈ t.rows ∧ x ≠ r) ∨ x = (r.1, f r.2) := by
  rw [Table.mem_modify]
  constructor
  · rintro (⟨hne, hx⟩ | ⟨heq, a, ha, hx⟩)
    · exact .inl ⟨hx, fun h => hne (h ▸ rfl)⟩
    · have har : (r.1, a) = r := eq_of_id ha hr rfl
      exact .inr (Prod.ext heq (hx.trans (congrArg (fun r => f r.2) har)))
  · rintro (⟨hx, hne⟩ | rfl)
    · exact .inl ⟨fun h => hne (eq_of_id hx hr h), hx⟩
    · exact .inr ⟨rfl, r.2, hr, rfl⟩

lemma modified_mem {r : Uuid × CountryRow} {f : CountryRow → CountryRow} (hr : r ∈ t.rows)
    (ht' : t'.toTable = t.modify r.1 f) : (r.1, f r.2) ∈ t'.rows := by
  rw [ht', mem_modify hr]
  exact .inr rfl

/-- An `UPDATE` of one row keeps a column unique that it does not write, and one to which it
writes a value that no row has. -/
lemma modify_unique {f : CountryRow → CountryRow} {c : CountryRow → String}
    (hunique : (t.rows.map fun r => c r.2).Nodup) {r : Uuid × CountryRow} (hr : r ∈ t.rows)
    (hnew : c (f r.2) = c r.2 ∨ ∀ x ∈ t.rows, c x.2 ≠ c (f r.2)) :
    ((t.modify r.1 f).rows.map fun r => c r.2).Nodup := by
  have hids : ((t.modify r.1 f).rows.map Prod.fst).Nodup := (t.modify r.1 f).nodup
  refine (List.Nodup.of_map _ hids).map_on fun x hx y hy hxy => ?_
  rw [mem_modify hr] at hx hy
  have hother : ∀ z ∈ t.rows, z ≠ r → c z.2 ≠ c (f r.2) := by
    intro z hz hne hcol
    rcases hnew with hsame | hfree
    · exact hne (List.inj_on_of_nodup_map hunique hz hr (hcol.trans hsame))
    · exact hfree z hz hcol
  rcases hx with ⟨hx, hxr⟩ | rfl <;> rcases hy with ⟨hy, hyr⟩ | rfl
  · exact List.inj_on_of_nodup_map hunique hx hy hxy
  · exact absurd hxy (hother x hx hxr)
  · exact absurd hxy.symm (hother y hy hyr)
  · rfl

/-- An `UPDATE` of one row that keeps the columns unique is admitted. -/
lemma checked_modify {f : CountryRow → CountryRow} {r : Uuid × CountryRow} (hr : r ∈ t.rows)
    (hcode : (f r.2).code = r.2.code)
    (hkey : (f r.2).providerCountry = r.2.providerCountry ∨
      ∀ x ∈ t.rows, x.2.providerCountry ≠ (f r.2).providerCountry) :
    ∃ t', checked (t.modify r.1 f) = some t' :=
  ⟨_, dif_pos ⟨modify_unique t.codesUnique hr (.inl hcode), modify_unique t.keysUnique hr hkey⟩⟩

/-- An `INSERT` of new values under a new id is admitted. -/
lemma checked_insert {draw : Uuid} (row : CountryRow) (hdraw : t.get? draw = none)
    (hcode : ∀ x ∈ t.rows, x.2.code ≠ row.code)
    (hkey : ∀ x ∈ t.rows, x.2.providerCountry ≠ row.providerCountry) :
    ∃ u t', t.insert draw row = some u ∧ checked u = some t' := by
  have hinsert : t.insert draw row = some _ := dif_neg (Table.get?_eq_none_iff.mp hdraw)
  refine ⟨_, _, hinsert, dif_pos ⟨?_, ?_⟩⟩
  · simpa using ⟨fun x y hxy => hcode (x, y) hxy, t.codesUnique⟩
  · simpa using ⟨fun x y hxy => hkey (x, y) hxy, t.keysUnique⟩

end Countries

/-! ## What one country does to the table -/

/-- The ways in which an addressable country is written: its own row is described anew; a lower key
has the code and the country is skipped; a higher key loses the row to it; a row is added. -/
inductive CountryStep (draw : Uuid) (key : String) (e : CountryReading) (t : Countries) :
    Option Uuid → Countries → Prop
  | described {r : Uuid × CountryRow} {t' : Countries} :
      r ∈ t.rows → r.2.providerCountry = key →
      t'.toTable = t.modify r.1 (fun r => { r with name := e.name, dialCode := e.dialCode }) →
      CountryStep draw key e t (some r.1) t'
  | skipped {r : Uuid × CountryRow} :
      (∀ x ∈ t.rows, x.2.providerCountry ≠ key) → r ∈ t.rows → r.2.code = e.code →
      r.2.providerCountry < key → CountryStep draw key e t none t
  | taken {r : Uuid × CountryRow} {t' : Countries} :
      (∀ x ∈ t.rows, x.2.providerCountry ≠ key) → r ∈ t.rows → r.2.code = e.code →
      key < r.2.providerCountry →
      t'.toTable = t.modify r.1 (fun r =>
        { r with providerCountry := key, name := e.name, dialCode := e.dialCode }) →
      CountryStep draw key e t (some r.1) t'
  | added {t' : Countries} :
      (∀ x ∈ t.rows, x.2.providerCountry ≠ key) → (∀ x ∈ t.rows, x.2.code ≠ e.code) →
      t'.rows = (draw, ⟨e.code, e.name, e.dialCode, key, true⟩) :: t.rows →
      CountryStep draw key e t (some draw) t'

section Step

variable {cfg : Config} {draw : Uuid} {key : String} {country : GuestCountry} {t t' : Countries}
  {id : Option Uuid}

lemma upsertCountry_of_read (hread : country.read cfg key = none) :
    upsertCountry cfg draw key country t = some (none, t) := by
  simp [upsertCountry, hread]

/-- An addressable country is written in one of the four ways. -/
lemma upsertCountry_step {e : CountryReading} (hread : country.read cfg key = some e)
    (h : upsertCountry cfg draw key country t = some (id, t')) :
    CountryStep draw key e t id t' := by
  unfold upsertCountry at h
  simp only [hread] at h
  split at h
  · rename_i id₀ row hown
    obtain ⟨hmem, hkey⟩ := Countries.select_eq_some hown
    simp only [Option.bind_eq_bind, Option.bind_eq_some_iff, Option.pure_def, Option.some_inj,
      Prod.mk.injEq, Countries.checked_eq_some_iff] at h
    obtain ⟨t₁, ht₁, rfl, rfl⟩ := h
    exact .described hmem (by simpa using hkey) ht₁
  · rename_i hnone
    have hfree : ∀ x ∈ t.rows, x.2.providerCountry ≠ key := by
      simpa using Countries.select_eq_none_iff.mp hnone
    split at h
    · rename_i id₀ holder hholder
      obtain ⟨hmem, hcode⟩ := Countries.select_eq_some hholder
      have hcode' : holder.code = e.code := by simpa using hcode
      split_ifs at h with hlt
      · cases h
        exact .skipped hfree hmem hcode' hlt
      · simp only [Option.bind_eq_bind, Option.bind_eq_some_iff, Option.pure_def,
          Option.some_inj, Prod.mk.injEq, Countries.checked_eq_some_iff] at h
        obtain ⟨t₁, ht₁, rfl, rfl⟩ := h
        exact .taken hfree hmem hcode' (lt_of_le_of_ne (not_lt.mp hlt) (hfree _ hmem).symm) ht₁
    · rename_i hcode
      have hnocode : ∀ x ∈ t.rows, x.2.code ≠ e.code := by
        simpa using Countries.select_eq_none_iff.mp hcode
      simp only [Option.bind_eq_bind, Option.bind_eq_some_iff, Option.pure_def, Option.some_inj,
        Prod.mk.injEq, Countries.checked_eq_some_iff] at h
      obtain ⟨u, hu, t₁, ht₁, rfl, rfl⟩ := h
      have hrows := (Table.insert_eq_some hu).2
      rw [← ht₁] at hrows
      exact .added hfree hnocode hrows

/-- The ids are those there were and the one drawn. -/
lemma upsertCountry_ids (h : upsertCountry cfg draw key country t = some (id, t'))
    {x : Uuid × CountryRow} (hx : x ∈ t'.rows) : (∃ y ∈ t.rows, y.1 = x.1) ∨ x.1 = draw := by
  cases hread : country.read cfg key with
  | none =>
      cases (upsertCountry_of_read hread).symm.trans h
      exact .inl ⟨x, hx, rfl⟩
  | some e =>
      have hmodify : ∀ {r : Uuid × CountryRow} {f : CountryRow → CountryRow}, r ∈ t.rows →
          t'.toTable = t.modify r.1 f → ∃ y ∈ t.rows, y.1 = x.1 := by
        intro r f hr ht'
        rw [ht', Countries.mem_modify hr] at hx
        rcases hx with ⟨hx, -⟩ | rfl
        · exact ⟨x, hx, rfl⟩
        · exact ⟨r, hr, rfl⟩
      cases upsertCountry_step hread h with
      | described hr _ ht' => exact .inl (hmodify hr ht')
      | skipped => exact .inl ⟨x, hx, rfl⟩
      | taken _ hr _ _ ht' => exact .inl (hmodify hr ht')
      | added _ _ ht' =>
          rw [ht'] at hx
          rcases List.mem_cons.mp hx with rfl | hx
          · exact .inr rfl
          · exact .inl ⟨x, hx, rfl⟩

/-- A key that sells under a row is sold under it. -/
lemma upsertCountry_of_key {e : CountryReading} (hread : country.read cfg key = some e)
    {r : Uuid × CountryRow} (hr : r ∈ t.rows) (hkey : r.2.providerCountry = key) :
    ∃ t', upsertCountry cfg draw key country t = some (some r.1, t') := by
  obtain ⟨t', ht'⟩ := Countries.checked_modify (f := fun r =>
    { r with name := e.name, dialCode := e.dialCode }) hr rfl (.inl rfl)
  have hselect := Countries.select_of_key hr hkey
  exact ⟨t', by simp [upsertCountry, hread, hselect, ht']⟩

/-- Only an id that is taken makes a statement fail. -/
lemma upsertCountry_isSome (cfg : Config) (key : String) (country : GuestCountry)
    (hdraw : t.get? draw = none) :
    ∃ id t', upsertCountry cfg draw key country t = some (id, t') := by
  unfold upsertCountry
  cases country.read cfg key with
  | none => exact ⟨_, _, rfl⟩
  | some e =>
      dsimp only
      split
      · rename_i id₀ row hown
        obtain ⟨hmem, -⟩ := Countries.select_eq_some hown
        obtain ⟨t₁, ht₁⟩ := Countries.checked_modify (f := fun r =>
          { r with name := e.name, dialCode := e.dialCode }) hmem rfl (.inl rfl)
        exact ⟨some id₀, t₁, by simp [ht₁]⟩
      · rename_i hnone
        have hfree : ∀ x ∈ t.rows, x.2.providerCountry ≠ key := by
          simpa using Countries.select_eq_none_iff.mp hnone
        split
        · rename_i id₀ holder hholder
          obtain ⟨hmem, -⟩ := Countries.select_eq_some hholder
          split_ifs
          · exact ⟨_, _, rfl⟩
          · obtain ⟨t₁, ht₁⟩ := Countries.checked_modify (f := fun r =>
              { r with providerCountry := key, name := e.name, dialCode := e.dialCode })
              hmem rfl (.inr hfree)
            exact ⟨some id₀, t₁, by simp [ht₁]⟩
        · rename_i hcode
          have hnocode : ∀ x ∈ t.rows, x.2.code ≠ e.code := by
            simpa using Countries.select_eq_none_iff.mp hcode
          obtain ⟨u, t₁, hu, ht₁⟩ := Countries.checked_insert
            ⟨e.code, e.name, e.dialCode, key, true⟩ hdraw hnocode hfree
          exact ⟨some draw, t₁, by simp [hu, ht₁]⟩

end Step

/-! ## The keys contend for the codes -/

/-- The supplier key under which a code is sold. -/
def Countries.owner (t : Countries) (code : String) : Option String :=
  (t.select fun r => r.code = code).map (·.2.providerCountry)

lemma Countries.owner_eq_some_iff {t : Countries} {code key : String} :
    t.owner code = some key ↔ ∃ r ∈ t.rows, r.2.code = code ∧ r.2.providerCountry = key := by
  unfold Countries.owner
  rw [Option.map_eq_some_iff]
  constructor
  · rintro ⟨r, hr, hkey⟩
    obtain ⟨hmem, hcode⟩ := Countries.select_eq_some hr
    exact ⟨r, hmem, by simpa using hcode, hkey⟩
  · rintro ⟨r, hmem, hcode, hkey⟩
    exact ⟨r, Countries.select_of_code hmem hcode, hkey⟩

/-- Who holds which code, as the table has it. -/
def Countries.tenure (t : Countries) : Tenure String String where
  holder := t.owner
  exclusive := by
    intro c c' k h h'
    obtain ⟨r, hr, hc, hk⟩ := Countries.owner_eq_some_iff.mp h
    obtain ⟨r', hr', hc', hk'⟩ := Countries.owner_eq_some_iff.mp h'
    rw [← hc, ← hc', Countries.eq_of_key hr hr' (hk.trans hk'.symm)]

@[simp] lemma Countries.tenure_holder (t : Countries) (code : String) :
    t.tenure.holder code = t.owner code := rfl

lemma Countries.holds_iff {t : Countries} {key : String} :
    t.tenure.Holds key ↔ ∃ r ∈ t.rows, r.2.providerCountry = key := by
  simp only [Tenure.Holds, tenure_holder, owner_eq_some_iff]
  exact ⟨fun ⟨_, r, hr, _, hk⟩ => ⟨r, hr, hk⟩, fun ⟨r, hr, hk⟩ => ⟨_, r, hr, rfl, hk⟩⟩

namespace CountryStep

variable {draw : Uuid} {key : String} {e : CountryReading} {t t' : Countries} {id : Option Uuid}

/-- The owners after a row has come to carry the key and the code of the country. -/
lemma owner_of_row (r : Uuid × CountryRow) (hcode : r.2.code = e.code)
    (hkey : r.2.providerCountry = key)
    (hrows : ∀ x, x ∈ t'.rows ↔ (x ∈ t.rows ∧ x.2.code ≠ e.code) ∨ x = r) (c : String) :
    t'.owner c = if c = e.code then some key else t.owner c := by
  ext k
  rw [Countries.owner_eq_some_iff]
  split_ifs with hc
  · subst hc
    constructor
    · rintro ⟨x, hx, hxc, hxk⟩
      rcases (hrows x).mp hx with ⟨-, hne⟩ | rfl
      · exact absurd hxc hne
      · rw [← hxk, hkey]
    · intro h
      exact ⟨r, (hrows r).mpr (.inr rfl), hcode, hkey.trans (Option.some.inj h)⟩
  · rw [Countries.owner_eq_some_iff]
    constructor
    · rintro ⟨x, hx, hxc, hxk⟩
      rcases (hrows x).mp hx with ⟨hx, -⟩ | rfl
      · exact ⟨x, hx, hxc, hxk⟩
      · exact absurd (hxc.symm.trans hcode) hc
    · rintro ⟨x, hx, hxc, hxk⟩
      exact ⟨x, (hrows x).mpr (.inl ⟨hx, fun h => hc (hxc.symm.trans h)⟩), hxc, hxk⟩

/-- A row whose code and key are kept leaves the owners as they are. -/
lemma owner_of_described (r r' : Uuid × CountryRow) (hr : r ∈ t.rows)
    (hcode : r'.2.code = r.2.code) (hkey : r'.2.providerCountry = r.2.providerCountry)
    (hrows : ∀ x, x ∈ t'.rows ↔ (x ∈ t.rows ∧ x ≠ r) ∨ x = r') (c : String) :
    t'.owner c = t.owner c := by
  ext k
  simp only [Countries.owner_eq_some_iff]
  constructor
  · rintro ⟨x, hx, hxc, hxk⟩
    rcases (hrows x).mp hx with ⟨hx, -⟩ | rfl
    · exact ⟨x, hx, hxc, hxk⟩
    · exact ⟨r, hr, hcode.symm.trans hxc, hkey.symm.trans hxk⟩
  · rintro ⟨x, hx, hxc, hxk⟩
    by_cases hxr : x = r
    · subst hxr
      exact ⟨r', (hrows r').mpr (.inr rfl), hcode.trans hxc, hkey.trans hxk⟩
    · exact ⟨x, (hrows x).mpr (.inl ⟨hx, hxr⟩), hxc, hxk⟩

/-- **To the owners, writing a country is a claim of its key on its code.** -/
lemma tenure_eq (h : CountryStep draw key e t id t') :
    t'.tenure = t.tenure.claim key e.code := by
  have hvacant : (∀ x ∈ t.rows, x.2.providerCountry ≠ key) → ¬ t.tenure.Holds key := fun hfree h =>
    let ⟨x, hx, hk⟩ := Countries.holds_iff.mp h
    hfree x hx hk
  refine Tenure.ext (funext fun c => ?_)
  cases h with
  | @described r t' hr hkey ht' =>
      rw [Tenure.claim_of_holds (Countries.holds_iff.mpr ⟨r, hr, hkey⟩)]
      refine owner_of_described r (r.1, { r.2 with name := e.name, dialCode := e.dialCode }) hr rfl
        rfl (fun x => ?_) c
      rw [ht', Countries.mem_modify hr]
  | @skipped r hfree hr hcode hlt =>
      rw [Tenure.claim_of_lower (Countries.owner_eq_some_iff.mpr ⟨r, hr, hcode, rfl⟩) hlt]
  | @taken r t' hfree hr hcode hlt ht' =>
      rw [Tenure.holder_claim_of_free (hvacant hfree)]
      · refine owner_of_row (r.1, { r.2 with
          providerCountry := key, name := e.name, dialCode := e.dialCode }) hcode rfl
          (fun x => ?_) c
        rw [ht', Countries.mem_modify hr]
        refine or_congr_left (and_congr_right fun hx => not_congr ?_)
        exact ⟨fun h => h ▸ hcode, fun h => Countries.eq_of_code hx hr (h.trans hcode.symm)⟩
      · intro k hk
        obtain ⟨x, hx, hxc, rfl⟩ := Countries.owner_eq_some_iff.mp hk
        rwa [Countries.eq_of_code hx hr (hxc.trans hcode.symm)]
  | @added t' hfree hcode ht' =>
      rw [Tenure.holder_claim_of_free (hvacant hfree)]
      · refine owner_of_row (draw, ⟨e.code, e.name, e.dialCode, key, true⟩) rfl rfl
          (fun x => ?_) c
        rw [ht', List.mem_cons, or_comm]
        exact or_congr_left ⟨fun hx => ⟨hx, hcode x hx⟩, And.left⟩
      · intro k hk
        obtain ⟨x, hx, hxc, -⟩ := Countries.owner_eq_some_iff.mp hk
        exact absurd hxc (hcode x hx)

/-- A row keeps its id and its code. -/
lemma kept (h : CountryStep draw key e t id t') {x : Uuid × CountryRow} (hx : x ∈ t.rows) :
    ∃ row, (x.1, row) ∈ t'.rows ∧ row.code = x.2.code := by
  have hmodify : ∀ {r : Uuid × CountryRow} {f : CountryRow → CountryRow}, r ∈ t.rows →
      (f r.2).code = r.2.code → t'.toTable = t.modify r.1 f →
      ∃ row, (x.1, row) ∈ t'.rows ∧ row.code = x.2.code := by
    intro r f hr hcode ht'
    rw [ht']
    by_cases hxr : x = r
    · subst hxr
      exact ⟨f x.2, (Countries.mem_modify hr).mpr (.inr rfl), hcode⟩
    · exact ⟨x.2, (Countries.mem_modify hr).mpr (.inl ⟨hx, hxr⟩), rfl⟩
  cases h with
  | described hr _ ht' => exact hmodify hr rfl ht'
  | skipped => exact ⟨x.2, hx, rfl⟩
  | taken _ hr _ _ ht' => exact hmodify hr rfl ht'
  | added _ _ ht' =>
      rw [ht']
      exact ⟨x.2, List.mem_cons_of_mem _ hx, rfl⟩

end CountryStep

/-! ## A second sync -/

/-- The supplier's country is as a sync leaves it: its key sells under a row that describes it, or
sells under none because a lower key has the code. -/
def SettledCountry (key : String) (e : CountryReading) (id : Option Uuid) (t : Countries) : Prop :=
  (∃ r ∈ t.rows, r.2.providerCountry = key ∧ r.2.name = e.name ∧ r.2.dialCode = e.dialCode ∧
      id = some r.1) ∨
    ((∀ x ∈ t.rows, x.2.providerCountry ≠ key) ∧ id = none ∧
      ∃ r ∈ t.rows, r.2.code = e.code ∧ r.2.providerCountry < key)

namespace CountryStep

variable {draw : Uuid} {key : String} {e : CountryReading} {t t' : Countries} {id : Option Uuid}

lemma settled (h : CountryStep draw key e t id t') : SettledCountry key e id t' := by
  cases h with
  | described hr hkey ht' =>
      exact .inl ⟨_, Countries.modified_mem hr ht', hkey, rfl, rfl, rfl⟩
  | skipped hfree hr hcode hlt => exact .inr ⟨hfree, rfl, _, hr, hcode, hlt⟩
  | taken _ hr _ _ ht' =>
      exact .inl ⟨_, Countries.modified_mem hr ht', rfl, rfl, rfl, rfl⟩
  | added _ _ ht' =>
      have hmem := List.mem_cons_self (a := (draw, (⟨e.code, e.name, e.dialCode, key, true⟩ :
        CountryRow))) (l := t.rows)
      rw [← ht'] at hmem
      exact .inl ⟨_, hmem, rfl, rfl, rfl, rfl⟩

/-- The rows of lower keys are left alone. -/
lemma mem_of_lt (h : CountryStep draw key e t id t') {x : Uuid × CountryRow}
    (hlt : x.2.providerCountry < key) (hx : x ∈ t.rows) : x ∈ t'.rows := by
  cases h with
  | described hr hkey ht' =>
      rw [ht', Countries.mem_modify hr]
      exact .inl ⟨hx, fun h => absurd (h ▸ hkey) hlt.ne⟩
  | skipped => exact hx
  | taken _ hr _ hhigher ht' =>
      rw [ht', Countries.mem_modify hr]
      exact .inl ⟨hx, fun h => absurd (h ▸ hhigher) (not_lt.mpr hlt.le)⟩
  | added _ _ ht' =>
      rw [ht']
      exact List.mem_cons_of_mem _ hx

/-- No row comes to carry another key. -/
lemma key_mem (h : CountryStep draw key e t id t') {x : Uuid × CountryRow} (hx : x ∈ t'.rows)
    (hne : x.2.providerCountry ≠ key) :
    ∃ y ∈ t.rows, y.2.providerCountry = x.2.providerCountry := by
  cases h with
  | described hr hkey ht' =>
      rw [ht', Countries.mem_modify hr] at hx
      rcases hx with ⟨hx, -⟩ | rfl
      · exact ⟨x, hx, rfl⟩
      · exact absurd hkey hne
  | skipped => exact ⟨x, hx, rfl⟩
  | taken _ hr _ _ ht' =>
      rw [ht', Countries.mem_modify hr] at hx
      rcases hx with ⟨hx, -⟩ | rfl
      · exact ⟨x, hx, rfl⟩
      · exact absurd rfl hne
  | added _ _ ht' =>
      rw [ht'] at hx
      rcases List.mem_cons.mp hx with rfl | hx
      · exact absurd rfl hne
      · exact ⟨x, hx, rfl⟩

/-- What a higher key does leaves a country settled. -/
lemma settled_of_lt (h : CountryStep draw key e t id t') {k : String} {e₀ : CountryReading}
    {id₀ : Option Uuid} (hlt : k < key) (hsettled : SettledCountry k e₀ id₀ t) :
    SettledCountry k e₀ id₀ t' := by
  rcases hsettled with ⟨r, hr, rfl, hrest⟩ | ⟨hfree, hid, r, hr, hcode, hlow⟩
  · exact .inl ⟨r, h.mem_of_lt hlt hr, rfl, hrest⟩
  · refine .inr ⟨fun x hx hk => ?_, hid, r, h.mem_of_lt (hlow.trans hlt) hr, hcode, hlow⟩
    obtain ⟨y, hy, hyk⟩ := h.key_mem hx (hk.trans_ne hlt.ne)
    exact hfree y hy (hyk.trans hk)

end CountryStep

/-- An `UPDATE` that writes what is there changes nothing. -/
lemma Countries.checked_modify_self {t : Countries} {r : Uuid × CountryRow}
    {f : CountryRow → CountryRow} (hr : r ∈ t.rows) (hf : f r.2 = r.2) :
    checked (t.modify r.1 f) = some t := by
  rw [checked_eq_some_iff]
  have hrows : (t.modify r.1 f).rows = t.rows := by
    refine (List.map_congr_left fun x hx => ?_).trans (List.map_id _)
    by_cases hid : x.1 = r.1
    · rw [if_pos hid, eq_of_id hx hr hid, hf]
      rfl
    · rw [if_neg hid]
      rfl
  cases htable : t.toTable
  cases hmodified : t.modify r.1 f
  simp_all

/-- A settled country is written as it is. -/
lemma upsertCountry_of_settled {cfg : Config} {draw : Uuid} {key : String} {country : GuestCountry}
    {e : CountryReading} {id : Option Uuid} {t : Countries} (hread : country.read cfg key = some e)
    (h : SettledCountry key e id t) : upsertCountry cfg draw key country t = some (id, t) := by
  unfold upsertCountry
  simp only [hread]
  rcases h with ⟨r, hr, hkey, hname, hdial, rfl⟩ | ⟨hfree, rfl, r, hr, hcode, hlow⟩
  · have hsame := Countries.checked_modify_self (f := fun r =>
      { r with name := e.name, dialCode := e.dialCode }) hr (by rw [← hname, ← hdial])
    simp [Countries.select_of_key hr hkey, hsame]
  · have hnone : (t.select fun r => r.providerCountry = key) = none :=
      Countries.select_eq_none_iff.mpr fun x hx => by simpa using hfree x hx
    simp [hnone, Countries.select_of_code hr hcode, hlow]

/-! ## A sync -/

section Sync

variable {cfg : Config} {draws : String → Uuid} {key : String} {country : GuestCountry}
  {l : List (String × GuestCountry)} {ids : List (String × Uuid)} {t t' : Countries}

/-- The supplier keys that can be addressed, with their ISO codes. -/
def addressed (cfg : Config) (l : List (String × GuestCountry)) : List (String × String) :=
  l.filterMap fun e => (e.2.read cfg e.1).map fun r => (e.1, r.code)

lemma mem_addressed {code : String} :
    (key, code) ∈ addressed cfg l ↔
      ∃ country e, (key, country) ∈ l ∧ country.read cfg key = some e ∧ e.code = code := by
  simp only [addressed, List.mem_filterMap, Option.map_eq_some_iff, Prod.mk.injEq]
  constructor
  · rintro ⟨⟨k, country⟩, hmem, e, hread, rfl, hcode⟩
    exact ⟨country, e, hmem, hread, hcode⟩
  · rintro ⟨country, e, hmem, hread, hcode⟩
    exact ⟨(key, country), hmem, e, hread, rfl, hcode⟩

lemma addressed_ascending (h : Ascending l) : Ascending (addressed cfg l) := by
  refine List.Pairwise.filterMap (R := fun a b : String × GuestCountry => a.1 < b.1)
    (S := fun a b : String × String => a.1 < b.1) _ ?_ h
  intro a a' hlt b hb b' hb'
  obtain ⟨r, -, rfl⟩ := Option.map_eq_some_iff.mp hb
  obtain ⟨r', -, rfl⟩ := Option.map_eq_some_iff.mp hb'
  exact hlt

/-- A sync starts with its first country. -/
lemma syncCountries_cons (h : syncCountries cfg draws ((key, country) :: l) t = some (ids, t')) :
    ∃ id t₁ rest, upsertCountry cfg (draws key) key country t = some (id, t₁) ∧
      syncCountries cfg draws l t₁ = some (rest, t') ∧
      ids = (id.map fun id => (key, id)).toList ++ rest := by
  simp only [syncCountries, Option.bind_eq_bind, Option.bind_eq_some_iff, Option.pure_def,
    Option.some_inj, Prod.mk.injEq] at h
  obtain ⟨⟨id, t₁⟩, hupsert, ⟨rest, t₂⟩, hrest, hids, rfl⟩ := h
  exact ⟨id, t₁, rest, hupsert, hrest, hids.symm⟩

/-- **A sync is the keys' contention for the codes.** -/
lemma tenure_syncCountries (h : syncCountries cfg draws l t = some (ids, t')) :
    t'.tenure = t.tenure.claims (addressed cfg l) := by
  induction l generalizing t ids with
  | nil =>
      cases h
      rfl
  | cons entry l ih =>
      obtain ⟨key, country⟩ := entry
      obtain ⟨id, t₁, rest, hupsert, hrest, -⟩ := syncCountries_cons h
      rw [ih hrest]
      cases hread : country.read cfg key with
      | none =>
          cases (upsertCountry_of_read hread).symm.trans hupsert
          simp [addressed, hread]
      | some e =>
          rw [(upsertCountry_step hread hupsert).tenure_eq]
          simp [addressed, hread]

/-- Every row keeps its id and its code. -/
lemma syncCountries_kept (h : syncCountries cfg draws l t = some (ids, t'))
    {x : Uuid × CountryRow} (hx : x ∈ t.rows) :
    ∃ row, (x.1, row) ∈ t'.rows ∧ row.code = x.2.code := by
  induction l generalizing t ids x with
  | nil =>
      cases h
      exact ⟨x.2, hx, rfl⟩
  | cons entry l ih =>
      obtain ⟨key, country⟩ := entry
      obtain ⟨id, t₁, rest, hupsert, hrest, -⟩ := syncCountries_cons h
      cases hread : country.read cfg key with
      | none =>
          cases (upsertCountry_of_read hread).symm.trans hupsert
          exact ih hrest hx
      | some e =>
          obtain ⟨row, hrow, hcode⟩ := (upsertCountry_step hread hupsert).kept hx
          obtain ⟨row', hrow', hcode'⟩ := ih hrest hrow
          exact ⟨row', hrow', hcode'.trans hcode⟩

/-- The rest of a sync leaves a country settled. -/
lemma settled_of_syncCountries (h : syncCountries cfg draws l t = some (ids, t')) {k : String}
    {e₀ : CountryReading} {id₀ : Option Uuid} (hlt : ∀ entry ∈ l, k < entry.1)
    (hsettled : SettledCountry k e₀ id₀ t) : SettledCountry k e₀ id₀ t' := by
  induction l generalizing t ids with
  | nil =>
      cases h
      exact hsettled
  | cons entry l ih =>
      obtain ⟨key, country⟩ := entry
      obtain ⟨id, t₁, rest, hupsert, hrest, -⟩ := syncCountries_cons h
      refine ih hrest (fun entry he => hlt entry (List.mem_cons_of_mem _ he)) ?_
      cases hread : country.read cfg key with
      | none =>
          cases (upsertCountry_of_read hread).symm.trans hupsert
          exact hsettled
      | some e =>
          exact (upsertCountry_step hread hupsert).settled_of_lt (hlt _ List.mem_cons_self)
            hsettled

/-- A sync leaves every country that it can address settled. -/
lemma settled_of_mem (hsorted : Ascending l) (h : syncCountries cfg draws l t = some (ids, t'))
    (hmem : (key, country) ∈ l) {e : CountryReading} (hread : country.read cfg key = some e) :
    ∃ id, SettledCountry key e id t' := by
  induction l generalizing t ids with
  | nil => cases hmem
  | cons entry l ih =>
      obtain ⟨key₁, country₁⟩ := entry
      obtain ⟨hlow, hl⟩ := List.pairwise_cons.mp hsorted
      obtain ⟨id, t₁, rest, hupsert, hrest, -⟩ := syncCountries_cons h
      rcases List.mem_cons.mp hmem with heq | hmem
      · cases heq
        exact ⟨id, settled_of_syncCountries hrest hlow (upsertCountry_step hread hupsert).settled⟩
      · exact ih hl hrest hmem

/-- **A sync of settled countries changes nothing**, whatever ids it would give to new rows. -/
lemma syncCountries_of_settled (h : ∀ entry ∈ l, ∀ e, entry.2.read cfg entry.1 = some e →
    ∃ id, SettledCountry entry.1 e id t) : ∃ ids, syncCountries cfg draws l t = some (ids, t) := by
  induction l with
  | nil => exact ⟨_, rfl⟩
  | cons entry l ih =>
      obtain ⟨key, country⟩ := entry
      obtain ⟨hhead, hl⟩ := List.forall_mem_cons.mp h
      obtain ⟨ids, hrest⟩ := ih hl
      have hsame : ∃ id, upsertCountry cfg (draws key) key country t = some (id, t) := by
        cases hread : country.read cfg key with
        | none => exact ⟨none, upsertCountry_of_read hread⟩
        | some e =>
            obtain ⟨id, hsettled⟩ := hhead e hread
            exact ⟨id, upsertCountry_of_settled hread hsettled⟩
      obtain ⟨id, hsame⟩ := hsame
      exact ⟨(id.map fun id => (key, id)).toList ++ ids, by simp [syncCountries, hsame, hrest]⟩

/-- A sync completes if the ids it draws are new. -/
lemma syncCountries_isSome (cfg : Config) (hsorted : Ascending l)
    (hdistinct : ∀ e ∈ l, ∀ e' ∈ l, draws e.1 = draws e'.1 → e.1 = e'.1)
    (hnew : ∀ e ∈ l, t.get? (draws e.1) = none) :
    ∃ ids t', syncCountries cfg draws l t = some (ids, t') := by
  induction l generalizing t with
  | nil => exact ⟨_, _, rfl⟩
  | cons entry l ih =>
      obtain ⟨key, country⟩ := entry
      obtain ⟨hlow, hl⟩ := List.pairwise_cons.mp hsorted
      obtain ⟨id, t₁, hupsert⟩ := upsertCountry_isSome cfg key country
        (hnew _ List.mem_cons_self)
      have hnew₁ : ∀ e ∈ l, t₁.get? (draws e.1) = none := by
        intro e he
        have hold := hnew e (List.mem_cons_of_mem _ he)
        rw [Table.get?_eq_none_iff] at hold ⊢
        intro hid
        obtain ⟨x, hx, hid⟩ := List.mem_map.mp hid
        rcases upsertCountry_ids hupsert hx with ⟨y, hy, hyid⟩ | hdrawn
        · exact hold (List.mem_map.mpr ⟨y, hy, hyid.trans hid⟩)
        · exact absurd (hdistinct _ List.mem_cons_self e (List.mem_cons_of_mem _ he)
            (hdrawn.symm.trans hid)) (hlow e he).ne
      obtain ⟨ids, t', hrest⟩ := ih hl (fun e he e' he' => hdistinct e (List.mem_cons_of_mem _ he)
        e' (List.mem_cons_of_mem _ he')) hnew₁
      exact ⟨(id.map fun id => (key, id)).toList ++ ids, t', by
        simp [syncCountries, hupsert, hrest]⟩

end Sync

/-! ## The law -/

lemma byKey_ascending {l : List (String × GuestCountry)} (h : (l.map Prod.fst).Nodup) :
    Ascending (byKey l) := by
  have hsorted : (byKey l).Pairwise fun a b => a.1 ≤ b.1 := by
    have : Std.Total fun a b : String × GuestCountry => a.1 ≤ b.1 := ⟨fun a b => le_total a.1 b.1⟩
    have : IsTrans (String × GuestCountry) fun a b => a.1 ≤ b.1 := ⟨fun _ _ _ => le_trans⟩
    exact List.pairwise_insertionSort _ _
  have hdistinct : (byKey l).Pairwise fun a b => a.1 ≠ b.1 := by
    have hperm : ((byKey l).map Prod.fst).Perm (l.map Prod.fst) :=
      (List.perm_insertionSort _ _).map Prod.fst
    exact List.pairwise_map.mp (hperm.nodup_iff.mpr h)
  exact hsorted.imp₂ (fun a b hle hne => lt_of_le_of_ne hle hne) hdistinct

lemma mem_byKey {l : List (String × GuestCountry)} {e : String × GuestCountry} :
    e ∈ byKey l ↔ e ∈ l :=
  (List.perm_insertionSort _ _).mem_iff

/-- The order of the supplier's list does not matter. -/
lemma mem_addressed_byKey {cfg : Config} {l : List (String × GuestCountry)}
    {e : String × String} : e ∈ addressed cfg (byKey l) ↔ e ∈ addressed cfg l := by
  obtain ⟨key, code⟩ := e
  simp only [mem_addressed, mem_byKey]

/-- The ids that a sync draws are new, and those of different keys are different. -/
structure FreshDraws (draws : String → Uuid) (countries : Table String GuestCountry)
    (t : Countries) : Prop where
  distinct : ∀ e ∈ countries.rows, ∀ e' ∈ countries.rows, draws e.1 = draws e'.1 → e.1 = e'.1
  unused : ∀ e ∈ countries.rows, t.get? (draws e.1) = none

/-- A sync has made the table the supplier's: every ISO code is sold under the lowest key for it,
the rows have kept their ids, and the same sync changes nothing more, in whatever order it walks
the maps. -/
structure Canonical (cfg : Config) (countries : Table String GuestCountry) (t t' : Countries) :
    Prop where
  owned : ∀ key code, Tenure.Lowest (addressed cfg countries.rows) key code →
    t'.owner code = some key
  kept : ∀ id row, (id, row) ∈ t.rows → ∃ row', (id, row') ∈ t'.rows ∧ row'.code = row.code
  steady : ∀ countries', RedrawnList countries countries' → ∀ draws, ∃ ids,
    syncCountries cfg draws (byKey countries'.rows) t' = some (ids, t')

/-- Nothing in the table stands in the way of the lowest keys: the lowest key for a code sells
under it already, or else no lower key does and the key sells under no other code when its turn
comes. -/
def Unobstructed (cfg : Config) (countries : Table String GuestCountry) (t : Countries) : Prop :=
  ∀ key code, Tenure.Lowest (addressed cfg countries.rows) key code →
    t.owner code = some key ∨
      (Tenure.Free t.tenure (addressed cfg countries.rows) key ∧
        ∀ holder, t.owner code = some holder → key < holder)

/-- A second reading of a country makes no difference.  If a lower key keeps it from the code of
the first, one keeps it from the code of the second; if it has a row, the prefix is the same. -/
def SameOutcome (t : Tenure String String) (l : List (String × String)) (key : String)
    (e e' : CountryReading) : Prop :=
  (t.Free l key ∧ t.Barred l key e.code → t.Barred l key e'.code) ∧
    (¬ (t.Free l key ∧ t.Barred l key e.code) → e'.dialCode = e.dialCode)

/-- It makes no difference in which order the maps of the countries are walked. -/
def Unvarying (cfg : Config) (countries : Table String GuestCountry) (t : Countries) : Prop :=
  ∀ key country country' e e', (key, country) ∈ countries.rows → country.Redrawn country' →
    country.read cfg key = some e → country'.read cfg key = some e' →
      SameOutcome t.tenure (addressed cfg countries.rows) key e e'

/-- A country reads in any order if it does in one, and under the same name. -/
lemma GuestCountry.Redrawn.read {cfg : Config} {key : String} {country country' : GuestCountry}
    (h : country.Redrawn country') {e' : CountryReading} (hread : country'.read cfg key = some e') :
    ∃ e, country.read cfg key = some e ∧ e'.name = e.name := by
  have hhead : ∀ {l l' : List String} {x : String}, l'.Perm l → l'.head? = some x →
      ∃ y, l.head? = some y := by
    intro l l' x hperm hx
    cases l with
    | nil =>
        rw [hperm.eq_nil] at hx
        cases hx
    | cons y l => exact ⟨y, rfl⟩
  unfold GuestCountry.read at hread ⊢
  split at hread
  · rename_i iso dial hiso hdial
    obtain ⟨iso', hiso'⟩ := hhead h.iso hiso
    obtain ⟨dial', hdial'⟩ := hhead h.prefixes hdial
    cases hread
    exact ⟨_, by rw [hiso', hdial'], by rw [h.textEn]⟩
  · cases hread

/-- **Another reading of a country is settled** as well exactly where it makes no difference. -/
lemma settled_redrawn_iff {cfg : Config} {draws : String → Uuid} {key : String}
    {country : GuestCountry} {l : List (String × GuestCountry)} {ids : List (String × Uuid)}
    {t t' : Countries} (hsorted : Ascending l) (h : syncCountries cfg draws l t = some (ids, t'))
    (hmem : (key, country) ∈ l) {e e' : CountryReading} (hread : country.read cfg key = some e)
    (hname : e'.name = e.name) :
    (∃ id, SettledCountry key e' id t') ↔
      SameOutcome t.tenure (addressed cfg l) key e e' := by
  unfold SameOutcome
  have hascending : Ascending (addressed cfg l) := addressed_ascending hsorted
  have hclaimed : (key, e.code) ∈ addressed cfg l :=
    mem_addressed.mpr ⟨country, e, hmem, hread, rfl⟩
  have hkept : t.tenure.Free (addressed cfg l) key ∧ t.tenure.Barred (addressed cfg l) key e.code ↔
      ¬ t'.tenure.Holds key := by
    rw [tenure_syncCountries h, Tenure.holds_claims_iff hascending hclaimed, not_not]
  rw [hkept, ← Tenure.lower_holder_claims_iff hascending, ← tenure_syncCountries h]
  obtain ⟨id, hsettled⟩ := settled_of_mem hsorted h hmem hread
  rcases hsettled with ⟨r, hr, hkey, hrname, hrdial, -⟩ | ⟨hfree, -, -⟩
  · have hholds : t'.tenure.Holds key := Countries.holds_iff.mpr ⟨r, hr, hkey⟩
    simp only [hholds, not_true_eq_false, false_imp_iff, not_false_iff, true_imp_iff, true_and]
    constructor
    · rintro ⟨_, ⟨x, hx, hxkey, -, hxdial, -⟩ | ⟨hnone, -⟩⟩
      · rw [← hxdial, ← hrdial, Countries.eq_of_key hx hr (hxkey.trans hkey.symm)]
      · exact absurd hkey (hnone r hr)
    · intro hdial
      exact ⟨some r.1, .inl ⟨r, hr, hkey, hrname.trans hname.symm, hrdial.trans hdial.symm, rfl⟩⟩
  · have hvacant : ¬ t'.tenure.Holds key := fun hholds =>
      let ⟨x, hx, hk⟩ := Countries.holds_iff.mp hholds
      hfree x hx hk
    simp only [hvacant, not_false_iff, true_imp_iff, not_true_eq_false, false_imp_iff, and_true]
    constructor
    · rintro ⟨_, ⟨x, hx, hxkey, -⟩ | ⟨-, -, r, hr, hcode, hlow⟩⟩
      · exact absurd hxkey (hfree x hx)
      · exact ⟨_, Countries.owner_eq_some_iff.mpr ⟨r, hr, hcode, rfl⟩, hlow⟩
    · rintro ⟨holder, hholder, hlow⟩
      obtain ⟨r, hr, hcode, rfl⟩ := Countries.owner_eq_some_iff.mp hholder
      exact ⟨none, .inr ⟨hfree, rfl, r, hr, hcode, hlow⟩⟩

/-- The list with one country read in another order. -/
lemma RedrawnList.modify {l : Table String GuestCountry} {key : String}
    {country country' : GuestCountry} (hmem : (key, country) ∈ l.rows)
    (h : country.Redrawn country') : RedrawnList l (l.modify key fun _ => country') := by
  intro k
  rw [Table.get?_modify]
  split_ifs with hk
  · rw [hk, Table.get?_eq_some_iff.mpr hmem]
    exact .some h
  · cases l.get? k with
    | none => exact .none
    | some c => exact .some ⟨.refl _, .refl _, rfl⟩

/-- **A second sync changes nothing exactly where no order of the maps matters.** -/
lemma steady_iff {cfg : Config} {draws : String → Uuid} {countries : Table String GuestCountry}
    {ids : List (String × Uuid)} {t t' : Countries}
    (h : syncCountries cfg draws (byKey countries.rows) t = some (ids, t')) :
    (∀ countries', RedrawnList countries countries' → ∀ draws, ∃ ids,
      syncCountries cfg draws (byKey countries'.rows) t' = some (ids, t')) ↔
        Unvarying cfg countries t := by
  have hsorted := byKey_ascending countries.nodup
  have hfree : ∀ key, Tenure.Free t.tenure (addressed cfg (byKey countries.rows)) key ↔
      Tenure.Free t.tenure (addressed cfg countries.rows) key := fun key =>
    ⟨.mono fun _ => mem_addressed_byKey.mp, .mono fun _ => mem_addressed_byKey.mpr⟩
  have hbarred : ∀ key code,
      Tenure.Barred t.tenure (addressed cfg (byKey countries.rows)) key code ↔
      Tenure.Barred t.tenure (addressed cfg countries.rows) key code := fun key code =>
    ⟨.mono fun _ => mem_addressed_byKey.mp, .mono fun _ => mem_addressed_byKey.mpr⟩
  have hiff : ∀ key country e e', (key, country) ∈ countries.rows →
      country.read cfg key = some e → e'.name = e.name → ((∃ id, SettledCountry key e' id t') ↔
        SameOutcome t.tenure (addressed cfg countries.rows) key e e') := by
    intro key country e e' hmem hread hname
    rw [settled_redrawn_iff hsorted h (mem_byKey.mpr hmem) hread hname]
    simp only [SameOutcome, hfree, hbarred]
  constructor
  · intro hsteady key country country' e e' hmem hredrawn hread hread'
    obtain ⟨e₁, he₁, hname⟩ := hredrawn.read hread'
    cases he₁.symm.trans hread
    refine (hiff key country e e' hmem hread hname).mp ?_
    obtain ⟨ids', hagain⟩ := hsteady _ (RedrawnList.modify hmem hredrawn) draws
    refine settled_of_mem (byKey_ascending (Table.nodup _)) hagain (mem_byKey.mpr ?_) hread'
    exact Table.mem_modify.mpr (.inr ⟨rfl, country, hmem, rfl⟩)
  · intro hunvarying countries' hredrawn draws'
    refine syncCountries_of_settled fun entry hentry e' hread' => ?_
    obtain ⟨key, country'⟩ := entry
    have hget := hredrawn key
    rw [Table.get?_eq_some_iff.mpr (mem_byKey.mp hentry)] at hget
    cases hlisted : countries.get? key with
    | none =>
        rw [hlisted] at hget
        cases hget
    | some country =>
        rw [hlisted] at hget
        cases hget with
        | some hcountry =>
            have hmem := Table.get?_eq_some_iff.mp hlisted
            obtain ⟨e, hread, hname⟩ := hcountry.read hread'
            exact (hiff key country e e' hmem hread hname).mpr
              (hunvarying key country country' e e' hmem hcountry hread hread')

/-- **A sync is canonical exactly where nothing obstructs it and no order matters**, and it
completes in any case. -/
theorem sync_canonical_iff (cfg : Config) {draws : String → Uuid}
    {countries : Table String GuestCountry} {t : Countries}
    (hdraws : FreshDraws draws countries t) :
    ∃ ids t', syncCountries cfg draws (byKey countries.rows) t = some (ids, t') ∧
      (Canonical cfg countries t t' ↔
        Unobstructed cfg countries t ∧ Unvarying cfg countries t) := by
  have hsorted := byKey_ascending countries.nodup
  obtain ⟨ids, t', hsync⟩ := syncCountries_isSome cfg hsorted
    (fun e he e' he' => hdraws.distinct e (mem_byKey.mp he) e' (mem_byKey.mp he'))
    fun e he => hdraws.unused e (mem_byKey.mp he)
  have howner : ∀ key code, Tenure.Lowest (addressed cfg countries.rows) key code →
      (t'.owner code = some key ↔ t.owner code = some key ∨
        (Tenure.Free t.tenure (addressed cfg countries.rows) key ∧
          ∀ holder, t.owner code = some holder → key < holder)) := by
    rintro key code ⟨hmem, hfirst⟩
    have hlowest : Tenure.Lowest (addressed cfg (byKey countries.rows)) key code :=
      ⟨mem_addressed_byKey.mpr hmem, fun j hj => hfirst j (mem_addressed_byKey.mp hj)⟩
    have hfree : Tenure.Free t.tenure (addressed cfg (byKey countries.rows)) key ↔
        Tenure.Free t.tenure (addressed cfg countries.rows) key :=
      ⟨.mono fun _ => mem_addressed_byKey.mp, .mono fun _ => mem_addressed_byKey.mpr⟩
    have hclaims := Tenure.claims_eq_some_iff (addressed_ascending hsorted) hlowest
      (t := t.tenure)
    rwa [← tenure_syncCountries hsync, hfree] at hclaims
  refine ⟨ids, t', hsync, fun h => ⟨fun key code hlowest => ?_, (steady_iff hsync).mp h.steady⟩,
    fun ⟨h, hunvarying⟩ => ⟨fun key code hlowest => ?_,
      fun id row hrow => syncCountries_kept hsync hrow, (steady_iff hsync).mpr hunvarying⟩⟩
  · exact (howner key code hlowest).mp (h.owned key code hlowest)
  · exact (howner key code hlowest).mpr (h key code hlowest)

/-! ## A key that is no longer listed -/

/-- Letters in upper case, as far as the supplier's ISO codes have any. -/
def catalogueConfig : Config where
  providers := ⟨false, false, []⟩
  fundingLive := false
  numbersMinPriceFraction := 1 / 2
  adminRefundCapNgn := 100000
  fivesimCurrency := none
  toLowercase := fun s => String.ofList (s.toList.map Char.toLower)
  toUppercase := fun s => String.ofList (s.toList.map Char.toUpper)

/-- The supplier lists France and French Guiana, both under `fr`. -/
def collidingPair : Table String GuestCountry :=
  ⟨[("frenchguiana", ⟨["fr"], ["+594"], some "French Guiana"⟩),
    ("france", ⟨["fr"], ["+33"], some "France"⟩)], by decide⟩

/-- A table with one country, sold under a key. -/
def soleCountry (key : String) : Countries where
  rows := [(1, ⟨"FR", "France", "+33", key, true⟩)]
  nodup := by simp
  codesUnique := by simp
  keysUnique := by simp

/-- New ids for the two. -/
def drawTwo (key : String) : Uuid := if key = "france" then 2 else 3

lemma freshDraws_two (key : String) : FreshDraws drawTwo collidingPair (soleCountry key) where
  distinct := by decide
  unused e he := by
    have hnew : ∀ e ∈ collidingPair.rows, drawTwo e.1 ≠ 1 := by decide
    simpa [soleCountry, Table.get?_eq_none_iff] using hnew e he

lemma addressed_pair : addressed catalogueConfig collidingPair.rows =
    [("frenchguiana", "FR"), ("france", "FR")] := by decide +kernel

lemma lowest_pair_iff {key code : String} :
    Tenure.Lowest (addressed catalogueConfig collidingPair.rows) key code ↔
      key = "france" ∧ code = "FR" := by
  rw [addressed_pair]
  constructor
  · rintro ⟨hmem, hfirst⟩
    simp only [List.mem_cons, Prod.mk.injEq, List.not_mem_nil, or_false] at hmem
    rcases hmem with ⟨rfl, rfl⟩ | ⟨rfl, rfl⟩
    · exact absurd (hfirst "france" (by simp)) (by decide)
    · exact ⟨rfl, rfl⟩
  · rintro ⟨rfl, rfl⟩
    refine ⟨by simp, fun j hj => ?_⟩
    simp only [List.mem_cons, Prod.mk.injEq, and_true, List.not_mem_nil, or_false] at hj
    rcases hj with rfl | rfl <;> decide

/-- Countries with one ISO code and one prefix each. -/
lemma unvarying_of_single {cfg : Config} {countries : Table String GuestCountry} {t : Countries}
    (h : ∀ entry ∈ countries.rows, entry.2.iso.length = 1 ∧ entry.2.prefixes.length = 1) :
    Unvarying cfg countries t := by
  intro key country country' e e' hmem hredrawn hread hread'
  have hsame : country' = country := by
    obtain ⟨hiso, hprefixes⟩ := h _ hmem
    obtain ⟨iso, hiso⟩ := List.length_eq_one_iff.mp hiso
    obtain ⟨dial, hdial⟩ := List.length_eq_one_iff.mp hprefixes
    have hiso' := hredrawn.iso
    have hdial' := hredrawn.prefixes
    rw [hiso, List.perm_singleton] at hiso'
    rw [hdial, List.perm_singleton] at hdial'
    have htext := hredrawn.textEn
    cases country
    cases country'
    simp_all
  rw [hsame] at hread'
  cases hread.symm.trans hread'
  exact ⟨fun hbarred => hbarred.2, fun _ => rfl⟩

/-- **A key that is no longer listed keeps the code** from those that are. -/
theorem code_kept_by_unlisted : ¬ ∀ (cfg : Config) (draws : String → Uuid)
    (countries : Table String GuestCountry) (t t' : Countries) (ids : List (String × Uuid)),
    FreshDraws draws countries t →
      syncCountries cfg draws (byKey countries.rows) t = some (ids, t') →
        Canonical cfg countries t t' := by
  intro h
  have hkept : (syncCountries catalogueConfig drawTwo (byKey collidingPair.rows)
      (soleCountry "fr")).map (fun r => r.2.owner "FR") = some (some "fr") := by decide +kernel
  obtain ⟨⟨ids, t'⟩, hsync, howner⟩ := Option.map_eq_some_iff.mp hkept
  have howned := (h _ _ _ _ _ _ (freshDraws_two "fr") hsync).owned "france" "FR"
    (lowest_pair_iff.mpr ⟨rfl, rfl⟩)
  exact absurd (Option.some.inj (howner.symm.trans howned)) (by decide)

/-- France takes its code back from French Guiana. -/
theorem sync_canonical_france : ∃ ids t', syncCountries catalogueConfig drawTwo
    (byKey collidingPair.rows) (soleCountry "frenchguiana") = some (ids, t') ∧
      Canonical catalogueConfig collidingPair (soleCountry "frenchguiana") t' := by
  obtain ⟨ids, t', hsync, hiff⟩ := sync_canonical_iff catalogueConfig
    (freshDraws_two "frenchguiana")
  refine ⟨ids, t', hsync, hiff.mpr ⟨fun key code hlowest => ?_, unvarying_of_single ?_⟩⟩
  case refine_2 => decide
  obtain ⟨rfl, rfl⟩ := lowest_pair_iff.mp hlowest
  have hholder : (soleCountry "frenchguiana").owner "FR" = some "frenchguiana" := by decide
  refine .inr ⟨.vacant fun hholds => ?_, fun holder hheld => ?_⟩
  · obtain ⟨r, hr, hkey⟩ := Countries.holds_iff.mp hholds
    rw [List.mem_singleton.mp hr] at hkey
    exact absurd hkey (by decide)
  · rw [← Option.some.inj (hholder.symm.trans hheld)]
    decide

end Naivolt
