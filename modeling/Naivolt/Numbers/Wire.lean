import Naivolt.Numbers.Suppliers

/-!
# What travels between us and a supplier

An adapter's request ends in an `Exchange`: it fails on the way, or it is answered with a status
and a body.  The body is bytes; what the HTTP and parsing crates make of it is `Parsers`, of
which nothing is assumed.  JSON values are `Json`, and `Json.fields` is how a derived
`Deserialize` picks the fields of a struct out of one.

5SIM's payload (`FiveSimReply`) is read the same way by a purchase and by a check, so it is
defined here.
-/

namespace Naivolt

/-! ## JSON -/

/-- A JSON number: how it is written back, and what `as_i64` and a comparison of `as_f64` with
zero say about it. -/
structure JsonNumber where
  text : String
  int : Option ℤ
  zero : Bool
  deriving DecidableEq

/-- `serde_json::Value`. -/
inductive Json where
  | null
  | bool (b : Bool)
  | number (n : JsonNumber)
  | string (s : String)
  | array (items : List Json)
  | object (members : List (String × Json))

namespace Json

/-- `Value::get` with a member name. -/
def get? : Json → String → Option Json
  | .object members, key => members.lookup key
  | _, _ => none

/-- `as_str`. -/
def str? : Json → Option String
  | .string s => some s
  | _ => none

/-- `as_i64`. -/
def int? : Json → Option ℤ
  | .number n => n.int
  | _ => none

/-- `value_key`: the text of a string or a number. -/
def key : Json → String
  | .string s => s
  | .number n => n.text
  | _ => ""

/-- The value of each field of a struct, as a derived `Deserialize` finds it: an object's members
by name, none of them twice, an array's items by position, none of them left over. -/
def fields (names : List String) : Json → Option (List (Option Json))
  | .object members =>
      if names.all (fun n => members.countP (fun m => m.1 = n) ≤ 1) then
        some (names.map fun n => members.lookup n)
      else none
  | .array items =>
      if items.length ≤ names.length then some (names.mapIdx fun i _ => items[i]?) else none
  | _ => none

/-- A field of type `String`. -/
def textField : Option Json → Option String
  | some (.string s) => some s
  | _ => none

/-- A defaulted field of type `String`. -/
def textOrEmpty : Option Json → Option String
  | none => some ""
  | some v => textField (some v)

/-- A defaulted field of type `Option<String>`. -/
def optTextField : Option Json → Option (Option String)
  | none | some .null => some none
  | some v => (textField (some v)).map some

/-- A defaulted field of type `Option<Value>`. -/
def optValueField : Option Json → Option Json
  | some .null => none
  | v => v

end Json

/-! ## Exchanges -/

/-- What the crates under the adapters make of a body. -/
structure Parsers where
  /-- `Response::text`. -/
  text : List UInt8 → String
  /-- `Response::json::<Value>`: a repeated member is kept once. -/
  json : List UInt8 → Option Json
  /-- `Response::json` into a struct: the members as they are written. -/
  slice : List UInt8 → Option Json
  /-- `serde_json::from_str`, likewise. -/
  document : String → Option Json
  /-- `str::parse::<Decimal>`. -/
  decimal : String → Option ℚ
  /-- `Decimal`'s own `Deserialize`. -/
  amount : Json → Option ℚ
  /-- `DateTime::parse_from_rfc3339`. -/
  instant : String → Option Time

/-- How a request ends. -/
inductive Exchange where
  /-- No answer; `connecting` is `is_connect`, the connection was never established. -/
  | failed (connecting : Bool)
  /-- An answer; no body when it breaks off while the body is read. -/
  | answered (status : ℕ) (body : Option (List UInt8))
  deriving DecidableEq

/-- `StatusCode::is_success`. -/
def isSuccess (status : ℕ) : Bool := 200 ≤ status && status < 300

/-- `StatusCode::is_server_error`. -/
def isServerError (status : ℕ) : Bool := 500 ≤ status && status < 600

/-- What `Response::error_for_status` turns into an error. -/
def isErrorStatus (status : ℕ) : Bool := 400 ≤ status && status < 600

lemma isServerError_eq_false_of_isSuccess {status : ℕ} (h : isSuccess status = true) :
    isServerError status = false := by
  simp only [isServerError, isSuccess, Bool.and_eq_true, decide_eq_true_eq, Bool.and_eq_false_iff,
    decide_eq_false_iff_not] at h ⊢
  omega

lemma isErrorStatus_of_isServerError {status : ℕ} (h : isServerError status = true) :
    isErrorStatus status = true := by
  simp only [isServerError, isErrorStatus, Bool.and_eq_true, decide_eq_true_eq] at h ⊢
  omega

/-- `to_ascii_uppercase`. -/
def upperAscii (s : String) : String := String.ofList (s.toList.map Char.toUpper)

/-- `str::split_once`. -/
def splitOnce (c : Char) (s : List Char) : Option (List Char × List Char) :=
  if c ∈ s then some (s.takeWhile (· ≠ c), (s.dropWhile (· ≠ c)).tail) else none

/-- `str::parse::<i64>`. -/
def parseI64 (s : String) : Option ℤ :=
  let digits (cs : List Char) : Option ℕ :=
    if cs ≠ [] && cs.all Char.isDigit then
      some (cs.foldl (fun n c => n * 10 + (c.toNat - 48)) 0)
    else none
  let value : Option ℤ :=
    match s.toList with
    | '-' :: rest => (digits rest).map fun n => -(n : ℤ)
    | '+' :: rest => (digits rest).map Int.ofNat
    | rest => (digits rest).map Int.ofNat
  value.filter fun n => -2 ^ 63 ≤ n && n < 2 ^ 63

/-- `parse_rfc3339_loose`: a fraction of another length is cut or padded to six digits. -/
def parseRfc3339Loose (p : Parsers) (raw : String) : Option Time :=
  match p.instant raw with
  | some t => some t
  | none =>
    (splitOnce '.' raw.toList).bind fun (head, rest) =>
    let digits := rest.takeWhile Char.isDigit
    let zone := rest.dropWhile Char.isDigit
    if digits = [] then none
    else p.instant (String.ofList
      (head ++ '.' :: ((digits.take 6) ++ List.replicate (6 - digits.length) '0') ++ zone))

/-! ## 5SIM's payload -/

/-- `FiveSimSms`. -/
structure FiveSimSms where
  text : String
  code : Option Json
  sender : Option String
  date : Option String
  createdAt : Option String
  id : Option Json

/-- `FiveSimSms`'s `Deserialize`. -/
def FiveSimSms.read (v : Json) : Option FiveSimSms :=
  match v.fields ["text", "code", "sender", "date", "created_at", "id"] with
  | some [text, code, sender, date, createdAt, id] => do
      return ⟨← Json.textOrEmpty text, Json.optValueField code, ← Json.optTextField sender,
        ← Json.optTextField date, ← Json.optTextField createdAt, Json.optValueField id⟩
  | _ => none

/-- `FiveSimOrder` with the fields a check reads. -/
structure FiveSimReply where
  order : FiveSimOrder
  status : String
  sms : List FiveSimSms

/-- `fivesim_order_id`. -/
def fivesimOrderId : Json → Option String
  | .number n => some n.text
  | .string s => if s = "" then none else some s
  | _ => none

/-- `json_decimal` of the 5SIM adapter. -/
def fivesimDecimal (p : Parsers) : Json → Option ℚ
  | .number n => p.decimal n.text
  | .string s => p.decimal s
  | _ => none

/-- The field `sms`. -/
def readSms : Option Json → Option (List FiveSimSms)
  | none => some []
  | some (.array items) => items.mapM FiveSimSms.read
  | _ => none

/-- `FiveSimOrder`'s `Deserialize`. -/
def FiveSimReply.read (p : Parsers) (v : Json) : Option FiveSimReply :=
  match v.fields ["id", "phone", "price", "expires", "status", "sms", "country", "product"] with
  | some [some id, phone, price, expires, status, sms, country, product] => do
      return ⟨⟨fivesimOrderId id, ← Json.textField phone,
          (Json.optValueField price).bind (fivesimDecimal p),
          (← Json.optTextField expires).bind (parseRfc3339Loose p),
          ← Json.optTextField country, ← Json.optTextField product⟩,
        ← Json.textOrEmpty status, ← readSms sms⟩
  | _ => none

end Naivolt
