import Naivolt.Auth.Spelling
import Naivolt.Http.Quotas
import Naivolt.Numbers.Wire

/-!
# The cookie that comes back

The website keeps no refresh token of its own.  `set_refresh` gives the secret to the browser as a
cookie that scripts cannot read, and `presented_refresh` finds it again in the `Cookie` header of
the next request to `refresh` or `logout`, among whatever other cookies the site has.

What a browser does in between is not here: the header is any bytes.  `refresh_comes_back` says what
the server takes from them, and that this is the secret it has written, wherever in the header the
pair of its line stands first under that name.  A single byte that is not visible ASCII, in whatever
cookie, hides them all.
-/

namespace Naivolt

open Foundation

/-! ## What the server writes -/

/-- `COOKIE_NAME`. -/
def refreshCookieName : String := "naivolt_refresh"

/-- `MAX_AGE_SECONDS`. -/
def refreshMaxAge : ℤ := 7 * 24 * 60 * 60

/-- `PATH`. -/
def refreshCookiePath : String := "/api/v1/auth"

/-- `cookie_secure`. -/
def cookieSecure (webAppUrl : String) : Bool := startsWith webAppUrl "https://"

/-- `cookie_value`. -/
def cookieValue (secret : String) (maxAge : ℤ) (secure : Bool) : String :=
  refreshCookieName ++ "=" ++ secret ++ "; Max-Age=" ++ toString maxAge ++ "; Path=" ++
    refreshCookiePath ++ "; HttpOnly; SameSite=Lax" ++ if secure then "; Secure" else ""

/-- `set_refresh`. -/
def setRefresh (secret : String) (secure : Bool) : String := cookieValue secret refreshMaxAge secure

/-- `clear_refresh`. -/
def clearRefresh (secure : Bool) : String := cookieValue "" 0 secure

/-- The secret of a refresh token: 32 bytes in hexadecimal. -/
structure RefreshSecret where
  text : String
  length_text : text.toList.length = 64
  hex : ∀ c ∈ text.toList, c ∈ "0123456789abcdef".toList

/-! ## What it reads -/

/-- What `HeaderValue::to_str` lets through: visible ASCII, spaces and tabs. -/
def visibleByte (b : UInt8) : Bool := (32 ≤ b && b < 127) || b = 9

/-- `HeaderValue::to_str`. -/
def headerText (header : List UInt8) : Option (List Char) :=
  if header.all visibleByte then some (header.map fun b => Char.ofNat b.toNat) else none

/-- The loop of `cookie_from_header`. -/
def refreshAmong : List (List Char) → Option String
  | [] => none
  | part :: rest =>
      match splitOnce '=' (Texts.trim isWhitespace part) with
      | none => refreshAmong rest
      | some (name, value) =>
          if String.ofList name = refreshCookieName then
            if trimText (String.ofList value) = "" then none
            else some (trimText (String.ofList value))
          else refreshAmong rest

/-- `cookie_from_header`, of the `Cookie` headers of a request; it reads the first. -/
def cookieFromHeader (cookies : List (List UInt8)) : Option String :=
  (cookies.head?.bind headerText).bind fun text => refreshAmong (text.splitOn ';')

/-- `presented_refresh`: the body wins. -/
def presentedRefresh (cookies : List (List UInt8)) (body : Option String) : Option String :=
  match (body.map trimText).filter (· ≠ "") with
  | some secret => some secret
  | none => cookieFromHeader cookies

/-! ## What that comes to -/

/-- A part of the header that gives the refresh cookie this value. -/
def GivesRefresh (part value : List Char) : Prop :=
  Texts.trim isWhitespace part = refreshCookieName.toList ++ '=' :: value

/-- The first part that gives the refresh cookie a value gives it this secret. -/
def FirstRefresh (parts : List (List Char)) (secret : String) : Prop :=
  ∃ before part after value, parts = before ++ part :: after ∧
    (∀ p ∈ before, ∀ v, ¬ GivesRefresh p v) ∧ GivesRefresh part value ∧
    trimText (String.ofList value) = secret ∧ secret ≠ ""

/-- What the `Cookie` headers of a request present. -/
def CookiePresents (cookies : List (List UInt8)) (secret : String) : Prop :=
  ∃ header rest, cookies = header :: rest ∧ (∀ b ∈ header, visibleByte b = true) ∧
    FirstRefresh ((header.map fun b => Char.ofNat b.toNat).splitOn ';') secret

lemma splitOnce_eq_some_iff {c : Char} {t a b : List Char} :
    splitOnce c t = some (a, b) ↔ t = a ++ c :: b ∧ c ∉ a :=
  Delimited.split_at_first_iff

lemma refreshAmong_of_gives {part value : List Char} (h : GivesRefresh part value)
    (rest : List (List Char)) : refreshAmong (part :: rest) =
      if trimText (String.ofList value) = "" then none
      else some (trimText (String.ofList value)) := by
  have hsplit : splitOnce '=' (Texts.trim isWhitespace part) =
      some (refreshCookieName.toList, value) := splitOnce_eq_some_iff.mpr ⟨h, by decide⟩
  rw [refreshAmong, hsplit]
  simp only
  rw [if_pos String.ofList_toList]

lemma refreshAmong_of_other {part : List Char} (h : ∀ value, ¬ GivesRefresh part value)
    (rest : List (List Char)) : refreshAmong (part :: rest) = refreshAmong rest := by
  rw [refreshAmong]
  split
  · rfl
  · rename_i name value hsplit
    obtain ⟨htrim, -⟩ := splitOnce_eq_some_iff.mp hsplit
    rw [if_neg]
    intro hname
    refine h value ?_
    rw [GivesRefresh, htrim, ← hname, String.toList_ofList]

/-- Parts under other names do not matter. -/
lemma refreshAmong_append {before : List (List Char)}
    (h : ∀ p ∈ before, ∀ v, ¬ GivesRefresh p v) (rest : List (List Char)) :
    refreshAmong (before ++ rest) = refreshAmong rest := by
  induction before with
  | nil => rfl
  | cons part before ih =>
      rw [List.cons_append, refreshAmong_of_other (h part List.mem_cons_self)]
      exact ih fun p hp => h p (List.mem_cons_of_mem _ hp)

lemma refreshAmong_eq_some_iff {parts : List (List Char)} {secret : String} :
    refreshAmong parts = some secret ↔ FirstRefresh parts secret := by
  constructor
  · intro h
    induction parts with
    | nil => cases h
    | cons part rest ih =>
        by_cases hgives : ∃ value, GivesRefresh part value
        · obtain ⟨value, hgives⟩ := hgives
          rw [refreshAmong_of_gives hgives] at h
          split_ifs at h with hempty
          obtain rfl := Option.some.inj h
          exact ⟨[], part, rest, value, rfl, fun _ hp => (by cases hp), hgives, rfl, hempty⟩
        · rw [not_exists] at hgives
          rw [refreshAmong_of_other hgives] at h
          obtain ⟨before, first, after, value, rfl, hbefore, hfirst⟩ := ih h
          refine ⟨part :: before, first, after, value, rfl, fun p hp => ?_, hfirst⟩
          rcases List.mem_cons.mp hp with rfl | hp
          · exact hgives
          · exact hbefore p hp
  · rintro ⟨before, part, after, value, rfl, hbefore, hgives, rfl, hne⟩
    rw [refreshAmong_append hbefore, refreshAmong_of_gives hgives, if_neg hne]

lemma headerText_eq_some_iff {header : List UInt8} {text : List Char} :
    headerText header = some text ↔
      (∀ b ∈ header, visibleByte b = true) ∧ header.map (fun b => Char.ofNat b.toNat) = text := by
  rw [headerText, Option.ite_none_right_eq_some, List.all_eq_true, Option.some.injEq]

lemma cookieFromHeader_eq_some_iff {cookies : List (List UInt8)} {secret : String} :
    cookieFromHeader cookies = some secret ↔ CookiePresents cookies secret := by
  unfold cookieFromHeader CookiePresents
  rcases cookies with _ | ⟨header, rest⟩
  · constructor
    · intro h
      cases h
    · rintro ⟨_, _, h, -⟩
      cases h
  · rw [List.head?_cons, Option.bind_some, Option.bind_eq_some_iff]
    constructor
    · rintro ⟨text, htext, hfound⟩
      obtain ⟨hvisible, rfl⟩ := headerText_eq_some_iff.mp htext
      exact ⟨header, rest, rfl, hvisible, refreshAmong_eq_some_iff.mp hfound⟩
    · rintro ⟨_, _, heq, hvisible, hfirst⟩
      obtain ⟨rfl, rfl⟩ := List.cons.inj heq
      exact ⟨_, headerText_eq_some_iff.mpr ⟨hvisible, rfl⟩, refreshAmong_eq_some_iff.mpr hfirst⟩

lemma presentedRefresh_eq_some_iff {cookies : List (List UInt8)} {body : Option String}
    {secret : String} : presentedRefresh cookies body = some secret ↔
      (∃ token, body = some token ∧ trimText token = secret ∧ secret ≠ "") ∨
        (∀ token, body = some token → trimText token = "") ∧ CookiePresents cookies secret := by
  have hbody : ∀ token, (body.map trimText).filter (· ≠ "") = some token ↔
      ∃ sent, body = some sent ∧ trimText sent = token ∧ token ≠ "" := by
    intro token
    rw [Option.filter_eq_some_iff, Option.map_eq_some_iff, decide_eq_true_eq]
    exact ⟨fun ⟨⟨sent, hsent, heq⟩, hne⟩ => ⟨sent, hsent, heq, hne⟩,
      fun ⟨sent, hsent, heq, hne⟩ => ⟨⟨sent, hsent, heq⟩, hne⟩⟩
  unfold presentedRefresh
  rcases hsome : (body.map trimText).filter (· ≠ "") with _ | token
  · have hblank : ∀ token, body = some token → trimText token = "" := by
      intro token htoken
      by_contra hne
      rw [(hbody (trimText token)).mpr ⟨token, htoken, rfl, hne⟩] at hsome
      cases hsome
    simp only [cookieFromHeader_eq_some_iff]
    constructor
    · exact fun h => .inr ⟨hblank, h⟩
    · rintro (⟨token, htoken, heq, hne⟩ | ⟨-, h⟩)
      · exact absurd (heq ▸ hblank token htoken) hne
      · exact h
  · obtain ⟨sent, hsent, heq, hne⟩ := (hbody token).mp hsome
    simp only [Option.some.injEq]
    constructor
    · rintro rfl
      exact .inl ⟨sent, hsent, heq, hne⟩
    · rintro (⟨sent', hsent', rfl, -⟩ | ⟨hblank, -⟩)
      · rw [hsent] at hsent'
        obtain rfl := Option.some.inj hsent'
        exact heq.symm
      · exact absurd (heq ▸ hblank sent hsent) hne

/-- The first part of the name decides. -/
lemma presentedRefresh_of_gives {header : List UInt8} {text : List Char}
    {before after : List (List Char)} {part value : List Char}
    (htext : headerText header = some text)
    (hparts : text.splitOn ';' = before ++ part :: after)
    (hbefore : ∀ p ∈ before, ∀ v, ¬ GivesRefresh p v) (hgives : GivesRefresh part value)
    (rest : List (List UInt8)) : presentedRefresh (header :: rest) none =
      if trimText (String.ofList value) = "" then none
      else some (trimText (String.ofList value)) := by
  show cookieFromHeader (header :: rest) = _
  rw [cookieFromHeader, List.head?_cons, Option.bind_some, htext, Option.bind_some, hparts,
    refreshAmong_append hbefore, refreshAmong_of_gives hgives]

/-! ## The line it wrote -/

/-- The pair of a `Set-Cookie` line: what stands before the first semicolon. -/
def cookiePair (line : String) : List Char := line.toList.takeWhile (· ≠ ';')

lemma RefreshSecret.plain (secret : RefreshSecret) :
    ∀ c ∈ secret.text.toList, isWhitespace c = false ∧ c ≠ ';' := by
  have hall : ∀ c ∈ "0123456789abcdef".toList, isWhitespace c = false ∧ c ≠ ';' := by
    simp [isWhitespace]
  exact fun c hc => hall c (secret.hex c hc)

lemma RefreshSecret.ne_empty (secret : RefreshSecret) : secret.text ≠ "" := by
  intro h
  have hlength := secret.length_text
  rw [h] at hlength
  cases hlength

lemma cookiePair_cookieValue {secret : String} (h : ';' ∉ secret.toList) (maxAge : ℤ)
    (secure : Bool) : cookiePair (cookieValue secret maxAge secure) =
      refreshCookieName.toList ++ '=' :: secret.toList := by
  obtain ⟨rest, hrest⟩ : ∃ rest, (cookieValue secret maxAge secure).toList =
      (refreshCookieName.toList ++ '=' :: secret.toList) ++ ';' :: rest := by
    refine ⟨" Max-Age=".toList ++ ((toString maxAge).toList ++ ("; Path=".toList ++
      (refreshCookiePath.toList ++ ("; HttpOnly; SameSite=Lax".toList ++
        (if secure then "; Secure" else "").toList)))), ?_⟩
    simp [cookieValue, String.toList_append]
  have hname : ';' ∉ refreshCookieName.toList := by decide
  have hplain : ∀ c ∈ refreshCookieName.toList ++ '=' :: secret.toList,
      (decide (c ≠ ';')) = true := by
    intro c hc
    refine decide_eq_true fun heq => ?_
    subst heq
    rcases List.mem_append.mp hc with hc | hc
    · exact hname hc
    · rcases List.mem_cons.mp hc with heq | hc
      · cases heq
      · exact h hc
  rw [cookiePair, hrest, List.takeWhile_append_of_pos hplain, List.takeWhile_cons]
  simp

/-- **The refresh token comes back.**  A request presents the trimmed token of its body, unless that
is blank; and then the value that the first `Cookie` header gives the refresh cookie first, if there
is no byte in that header but visible ASCII, spaces and tabs, and if the value is not blank.  Where
the pair that `set_refresh` wrote is the first of its name, that is the secret; where it is the one
of `clear_refresh`, it is none. -/
theorem refresh_comes_back :
    (∀ cookies body secret, presentedRefresh cookies body = some secret ↔
      (∃ token, body = some token ∧ trimText token = secret ∧ secret ≠ "") ∨
        (∀ token, body = some token → trimText token = "") ∧ CookiePresents cookies secret) ∧
    ∀ (header : List UInt8) (rest : List (List UInt8)) (text : List Char)
      (before : List (List Char)) (part : List Char) (after : List (List Char)),
      headerText header = some text → text.splitOn ';' = before ++ part :: after →
      (∀ p ∈ before, ∀ v, ¬ GivesRefresh p v) →
      (∀ (secret : RefreshSecret) (webAppUrl : String),
        Texts.trim isWhitespace part =
            cookiePair (setRefresh secret.text (cookieSecure webAppUrl)) →
          presentedRefresh (header :: rest) none = some secret.text) ∧
      ∀ webAppUrl : String,
        Texts.trim isWhitespace part = cookiePair (clearRefresh (cookieSecure webAppUrl)) →
          presentedRefresh (header :: rest) none = none := by
  refine ⟨fun _ _ _ => presentedRefresh_eq_some_iff,
    fun header rest text before part after htext hparts hbefore =>
      ⟨fun secret webAppUrl hpart => ?_, fun webAppUrl hpart => ?_⟩⟩
  · have hplain : ';' ∉ secret.text.toList := fun h => (secret.plain _ h).2 rfl
    have htrim : trimText secret.text = secret.text :=
      trimText_of_noSpace fun c hc => (secret.plain c hc).1
    rw [setRefresh, cookiePair_cookieValue hplain] at hpart
    rw [presentedRefresh_of_gives htext hparts hbefore hpart, String.ofList_toList, htrim,
      if_neg secret.ne_empty]
  · rw [clearRefresh, cookiePair_cookieValue (by decide)] at hpart
    rw [presentedRefresh_of_gives htext hparts hbefore hpart]
    rfl

/-- Another cookie is sent first. -/
example : presentedRefresh ["theme=a=b; naivolt_refresh=5e; lang=en".toList.map fun c =>
    UInt8.ofNat c.toNat] (some " ") = some "5e" := by
  decide +kernel

end Naivolt
