import Naivolt.Auth.Spelling
import Naivolt.Foundation.Retrying
import Naivolt.Wallet.DerivationPath
import Naivolt.Watcher.Amounts

/-!
# The RPC client

`rpc.rs`: a JSON-RPC call and a plain HTTP request, each tried up to four times.  What a failure
is decides what follows: a call hands a refused block range to the caller at once, a plain request
a success it cannot read, and anything else is tried again after a pause.  A rate limit pauses for
as long as the endpoint asks, and half a minute at most; the seconds it asks for travel inside the
text of the error.

`rpc_paced` follows both loops through every sequence of answers.  Whatever the method or the path
is called, the pause is what the header said.

Durations are in milliseconds.
-/

namespace Naivolt

open Foundation

namespace Rpc

/-! ## Errors -/

/-- `RpcError`. -/
inductive RpcError where
  | rateLimited (hint : String)
  | rangeRefused (reason : String)
  | other (message : String)
  deriving DecidableEq

/-- `MAX_ATTEMPTS`. -/
def maxAttempts : ℕ := 4

/-- `MAX_RATE_LIMIT_WAIT`. -/
def maxRateLimitWait : ℕ := 30000

/-- The timeout of the client, for one request and its answer. -/
def clientTimeout : ℕ := 30000

/-- What follows the last occurrence of a pattern. -/
def afterLast (pattern : List Char) : List Char → Option (List Char)
  | [] => none
  | c :: rest =>
    match afterLast pattern rest with
    | some piece => some piece
    | none =>
      if pattern.isPrefixOf (c :: rest) then some ((c :: rest).drop pattern.length) else none

/-- `rsplit("retry-after ").next()`. -/
def lastPiece (s : List Char) : List Char :=
  (afterLast ("retry-after ".toList) s).getD s

/-- `str::parse::<u64>`. -/
def parseU64 (s : String) : Option ℕ := (spelledNat 10 s.toList).filter (· < 2 ^ 64)

/-- `retry_after_seconds`. -/
def retryAfterSeconds (hint : String) : Option ℕ :=
  parseU64 (trimText (String.ofList (lastPiece hint.toList)))

/-- `retry_after_hint`, of the header. -/
def retryAfterHint : Option String → String
  | some value => "retry-after " ++ value
  | none => "no retry-after"

/-- `backoff`. -/
def backoff (error : RpcError) (attempt : ℕ) : ℕ :=
  match error with
  | .rateLimited hint =>
    min (((retryAfterSeconds hint).getD (2 ^ min attempt 4)) * 1000) maxRateLimitWait
  | .rangeRefused _ | .other _ => 200 * 2 ^ min attempt 3

/-- `TRANSIENT_MARKERS`. -/
def transientMarkers : List String :=
  ["beyond current head", "header not found", "block not found"]

/-- `RANGE_MARKERS`. -/
def rangeMarkers : List String :=
  ["limit exceeded", "block range", "range is too large", "too many blocks",
    "query returned more than", "response size exceeded", "archive", "exceed maximum",
    "log response size"]

/-- `RATE_MARKERS`. -/
def rateMarkers : List String :=
  ["rate limit", "too many requests", "throughput", "capacity exceeded"]

/-- `classify`. -/
def classify (code : Option ℤ) (message context : String) : RpcError :=
  let lower := String.ofList (lowerAscii message)
  if transientMarkers.any (containsText lower) then .other ("rpc error " ++ context)
  else if rateMarkers.any (containsText lower) then .rateLimited context
  else if rangeMarkers.any (containsText lower) then .rangeRefused context
  else if code = some (-32005) then .rangeRefused context
  else .other ("rpc error " ++ context)

/-! ## Answers -/

/-- The `error` member of an answer; `text` is how it prints. -/
structure ErrorMember where
  code : Option ℤ
  message : Option String
  text : String
  deriving DecidableEq

/-- The JSON of an answer.  A `result` of another shape than the one asked for is there, and has
no value. -/
structure Payload (T : Type) where
  error : Option ErrorMember
  result : Option (Option T)
  deriving DecidableEq

/-- What sending a request comes to.  The body of an answer is none when it cannot be read as what
it should be. -/
inductive Reply (J : Type) where
  | failed (text : String)
  | answered (status : ℕ) (retryAfter : Option String) (body : Option J)
  deriving DecidableEq

/-- The answer is a 429, with this header. -/
def Reply.limited {J : Type} : Reply J → Option (Option String)
  | .answered status retryAfter _ => if status = 429 then some retryAfter else none
  | .failed _ => none

section Client

variable {T : Type} (statusText : ℕ → String)

/-! ## `call` -/

/-- `try_call`. -/
def tryCall (method : String) : Reply (Payload T) → Except RpcError T
  | .failed _ => .error (.other (method ++ ": request failed"))
  | .answered status retryAfter body =>
    if status = 429 then
      .error (.rateLimited (method ++ ": " ++ retryAfterHint retryAfter))
    else
      match body with
      | none => .error (.other (method ++ ": response was not JSON (status " ++
          statusText status ++ ")"))
      | some payload =>
        match payload.error with
        | some e => .error (classify e.code (e.message.getD "") (method ++ ": " ++ e.text))
        | none =>
          match payload.result with
          | none => .error (.other (method ++ ": response had no result"))
          | some none => .error (.other (method ++ ": unexpected result shape"))
          | some (some value) => .ok value

/-- One turn of the loop of `call`. -/
def callAttempt (method : String) (reply : Reply (Payload T)) :
    Attempt RpcError (Except RpcError T) :=
  match tryCall statusText method reply with
  | .ok value => .done (.ok value)
  | .error (.rangeRefused reason) => .done (.error (.rangeRefused reason))
  | .error e => .again e

/-- `call`, against these answers. -/
def call (method : String) (replies : ℕ → Reply (Payload T)) : Retried (Except RpcError T) :=
  retry (fun last => .error (last.getD (.other (method ++ " failed")))) backoff
    (fun i => callAttempt statusText method (replies i)) maxAttempts

/-! ## `http` -/

/-- One turn of the loop of `http`. -/
def httpAttempt (verb path : String) : Reply T → Attempt RpcError (Except RpcError T)
  | .failed text => .again (.other text)
  | .answered status retryAfter body =>
    if 200 ≤ status ∧ status < 300 then
      match body with
      | some value => .done (.ok value)
      | none => .done (.error (.other (verb ++ " " ++ path ++ ": unexpected shape")))
    else if status = 429 then
      .again (.rateLimited (verb ++ " " ++ path ++ ": " ++ retryAfterHint retryAfter))
    else .again (.other (verb ++ " " ++ path ++ ": status " ++ statusText status))

/-- `http`, against these answers. -/
def http (verb path : String) (replies : ℕ → Reply T) : Retried (Except RpcError T) :=
  retry (fun last => .error (last.getD (.other (verb ++ " " ++ path ++ " failed")))) backoff
    (fun i => httpAttempt statusText verb path (replies i)) maxAttempts

end Client

/-! ## The seconds in the hint -/

section Hint

variable {pattern : List Char} {c : Char}

lemma isPrefixOf_append (hc : c ∉ pattern) (a b : List Char) :
    pattern.isPrefixOf (a ++ c :: b) = pattern.isPrefixOf a := by
  rw [Bool.eq_iff_iff, List.isPrefixOf_iff_prefix, List.isPrefixOf_iff_prefix]
  constructor
  · intro h
    by_cases hlen : pattern.length ≤ a.length
    · exact List.prefix_of_prefix_length_le h (List.prefix_append a _) hlen
    · have hlonger : a ++ [c] <+: pattern := by
        have hshort : a ++ [c] <+: a ++ c :: b := ⟨b, by simp⟩
        refine List.prefix_of_prefix_length_le hshort h ?_
        rw [List.length_append, List.length_singleton]
        omega
      exact absurd (hlonger.subset (by simp)) hc
  · exact fun h => h.trans (List.prefix_append a _)

/-- What stands before a character that the pattern does not have stays before it. -/
lemma afterLast_append (hne : pattern ≠ []) (hc : c ∉ pattern) (a b : List Char) :
    afterLast pattern (a ++ c :: b) =
      (afterLast pattern b).or ((afterLast pattern a).map fun piece => piece ++ c :: b) := by
  induction a with
  | nil =>
      have hprefix := isPrefixOf_append hc [] b
      have hnil : pattern.isPrefixOf [] = false := by
        obtain ⟨d, rest, rfl⟩ := List.exists_cons_of_ne_nil hne
        rfl
      rw [List.nil_append] at hprefix ⊢
      simp only [afterLast, hprefix, hnil]
      rcases afterLast pattern b with _ | piece
      · rfl
      · rfl
  | cons x a ih =>
      have hprefix := isPrefixOf_append hc (x :: a) b
      rw [List.cons_append] at hprefix ⊢
      rw [afterLast, afterLast, ih, hprefix]
      rcases afterLast pattern b with _ | piece
      · rcases afterLast pattern a with _ | piece
        · by_cases h : pattern.isPrefixOf (x :: a) = true
          · have hlen := (List.isPrefixOf_iff_prefix.mp h).length_le
            rw [if_pos h, ← List.cons_append, List.drop_append_of_le_length hlen]
            simp [h]
          · simp [h]
        · rfl
      · rfl

/-- The header's own text follows the last hint of it. -/
lemma afterLast_hint (v : List Char) :
    afterLast "retry-after ".toList (" retry-after ".toList ++ v) = some (lastPiece v) := by
  show afterLast ['r', 'e', 't', 'r', 'y', '-', 'a', 'f', 't', 'e', 'r', ' ']
    (' ' :: 'r' :: 'e' :: 't' :: 'r' :: 'y' :: '-' :: 'a' :: 'f' :: 't' :: 'e' :: 'r' :: ' ' :: v) =
      some ((afterLast ['r', 'e', 't', 'r', 'y', '-', 'a', 'f', 't', 'e', 'r', ' '] v).getD v)
  simp only [afterLast]
  rcases afterLast ['r', 'e', 't', 'r', 'y', '-', 'a', 'f', 't', 'e', 'r', ' '] v with _ | piece
  · simp [List.isPrefixOf]
  · rfl

/-- **The pause an endpoint asks for is read back**, whatever it was asked for. -/
lemma retryAfterSeconds_hint (context value : String) :
    retryAfterSeconds (context ++ ": " ++ retryAfterHint (some value)) =
      retryAfterSeconds value := by
  have hpiece : lastPiece (context ++ ": " ++ retryAfterHint (some value)).toList =
      lastPiece value.toList := by
    have htext : (context ++ ": " ++ retryAfterHint (some value)).toList =
        context.toList ++ ':' :: (" retry-after ".toList ++ value.toList) := by
      simp [retryAfterHint]
    rw [htext, lastPiece, afterLast_append (by decide) (by decide), afterLast_hint]
    rfl
  rw [retryAfterSeconds, hpiece]
  rfl

/-- What spells a number has no other characters. -/
lemma spelledNat_colon {s : List Char} (h : ':' ∈ s) : spelledNat 10 s = none := by
  have hnone : ∀ l : List Char, ':' ∈ l → l.mapM (toDigit 10) = none := by
    intro l hl
    induction l with
    | nil => cases hl
    | cons c l ih =>
        rw [List.mapM_cons]
        rcases List.mem_cons.mp hl with rfl | hl
        · rfl
        · rw [ih hl]
          cases toDigit 10 c <;> rfl
  have hmem : ':' ∈ if s.head? = some '+' then s.tail else s := by
    split
    · rename_i hsign
      obtain ⟨c, rest, rfl⟩ := List.exists_cons_of_ne_nil (List.ne_nil_of_mem h)
      rcases List.mem_cons.mp h with rfl | hrest
      · exact absurd (Option.some.inj hsign) (by decide)
      · exact hrest
    · exact h
  simp only [spelledNat]
  rw [hnone _ hmem, Option.map_none, ite_self]

/-- Without the header nothing is read. -/
lemma retryAfterSeconds_none (context : String) :
    retryAfterSeconds (context ++ ": " ++ retryAfterHint none) = none := by
  have hpiece : ':' ∈ lastPiece (context ++ ": " ++ retryAfterHint none).toList := by
    have htext : (context ++ ": " ++ retryAfterHint none).toList =
        context.toList ++ ':' :: " no retry-after".toList := by
      simp [retryAfterHint]
    have hnone : afterLast "retry-after ".toList " no retry-after".toList = none := by decide
    rw [htext, lastPiece, afterLast_append (by decide) (by decide), hnone, Option.none_or]
    rcases afterLast "retry-after ".toList context.toList with _ | piece
    · simp
    · simp
  have htrim : ':' ∈ (trimText (String.ofList
      (lastPiece (context ++ ": " ++ retryAfterHint none).toList))).toList := by
    rw [mem_trimText_iff (by decide), String.toList_ofList]
    exact hpiece
  rw [retryAfterSeconds, parseU64, spelledNat_colon htrim, Option.filter_none]

/-- A header of digits is read as their number. -/
lemma retryAfterSeconds_toString {n : ℕ} (hn : n < 2 ^ 64) :
    retryAfterSeconds (toString n) = some n := by
  have hdigits : ∀ c ∈ (toString n).toList, c.isDigit = true :=
    fun c hc => isDigit_of_mem_toString hc
  have hpiece : lastPiece (toString n).toList = (toString n).toList := by
    have hnone : ∀ l : List Char, (∀ c ∈ l, c.isDigit = true) →
        afterLast "retry-after ".toList l = none := by
      intro l hl
      induction l with
      | nil => rfl
      | cons c l ih =>
          have hne : ¬ ("retry-after ".toList.isPrefixOf (c :: l) = true) := by
            intro hprefix
            have hr := (List.isPrefixOf_iff_prefix.mp hprefix).subset
              (show 'r' ∈ "retry-after ".toList by decide)
            exact absurd (hl 'r' hr) (by decide)
          rw [afterLast, ih fun d hd => hl d (List.mem_cons_of_mem c hd)]
          exact if_neg hne
    rw [lastPiece, hnone _ hdigits]
    rfl
  have htrim : trimText (toString n) = toString n := by
    refine trimText_of_noSpace fun c hc => ?_
    have hdigit := hdigits c hc
    simp only [Char.isDigit, Bool.and_eq_true, decide_eq_true_eq, ge_iff_le,
      UInt32.le_iff_toNat_le] at hdigit
    have hlow : 48 ≤ c.toNat := hdigit.1
    have hhigh : c.toNat ≤ 57 := hdigit.2
    simp only [isWhitespace, Bool.or_eq_false_iff, Bool.and_eq_false_iff, decide_eq_false_iff_not]
    omega
  rw [retryAfterSeconds, hpiece, String.ofList_toList, htrim, parseU64, spelledNat_toString,
    Option.filter_some, if_pos (decide_eq_true hn)]

end Hint

/-! ## The pauses -/

/-- The pause after a 429 with this header, at the `n`-th attempt. -/
def askedPause (header : Option String) (n : ℕ) : ℕ :=
  min ((header.bind retryAfterSeconds).getD (2 ^ min n 4) * 1000) maxRateLimitWait

lemma backoff_hint (context : String) (header : Option String) (n : ℕ) :
    backoff (.rateLimited (context ++ ": " ++ retryAfterHint header)) n = askedPause header n := by
  rcases header with _ | value
  · simp only [backoff, askedPause, retryAfterSeconds_none, Option.bind_none]
  · simp only [backoff, askedPause, retryAfterSeconds_hint, Option.bind_some]

lemma backoff_le (e : RpcError) (n : ℕ) : backoff e n ≤ maxRateLimitWait := by
  have hshort : 200 * 2 ^ min n 3 ≤ maxRateLimitWait := by
    have hpow : 2 ^ min n 3 ≤ 2 ^ 3 := Nat.pow_le_pow_right (by decide) (min_le_right n 3)
    unfold maxRateLimitWait
    omega
  cases e with
  | rateLimited hint => exact min_le_right _ _
  | rangeRefused reason => exact hshort
  | other message => exact hshort

/-! ## The loops -/

/-- How long the requests of a loop take, with the pauses between them. -/
def duration {ρ : Type} (latency : ℕ → ℕ) (r : Retried ρ) : ℕ :=
  ((List.range r.attempts).map latency).sum + r.pauses.sum

/-- A loop against these answers went as it should. -/
structure Paced {J ρ : Type} (attempt : Reply J → Attempt RpcError ρ)
    (giveUp : Option RpcError → ρ) (replies : ℕ → Reply J) (latency : ℕ → ℕ) (r : Retried ρ) :
    Prop where
  /-- One of the first four answers decides, and it pauses after each one before. -/
  decided : ∃ k, DecidedBy giveUp backoff (fun i => attempt (replies i)) maxAttempts 0 k r
  /-- After a 429 it pauses as the header says. -/
  asked : ∀ j header pause, r.pauses[j]? = some pause → (replies j).limited = some header →
    pause = askedPause header j
  /-- So many seconds are so many seconds, up to half a minute. -/
  seconds : ∀ j n pause, r.pauses[j]? = some pause → n < 2 ^ 64 →
    (replies j).limited = some (some (toString n)) → pause = min (n * 1000) 30000
  /-- It is over after three and a half minutes. -/
  ends : duration latency r ≤ 210000

section Paced

variable {J ρ : Type} {attempt : Reply J → Attempt RpcError ρ} {giveUp : Option RpcError → ρ}
  {replies : ℕ → Reply J} {latency : ℕ → ℕ}

/-- The failures of a loop carry the hints of the answers. -/
lemma paced_retry (context : String)
    (hhint : ∀ reply header, reply.limited = some header → ∀ e, attempt reply = .again e →
      e = .rateLimited (context ++ ": " ++ retryAfterHint header))
    (hlatency : ∀ i, latency i ≤ clientTimeout) :
    Paced attempt giveUp replies latency
      (retry giveUp backoff (fun i => attempt (replies i)) maxAttempts) := by
  obtain ⟨k, hk⟩ : ∃ k, DecidedBy giveUp backoff (fun i => attempt (replies i)) maxAttempts 0 k
      (retry giveUp backoff (fun i => attempt (replies i)) maxAttempts) := retry_eq (by decide)
  have hasked : ∀ j header pause,
      (retry giveUp backoff (fun i => attempt (replies i)) maxAttempts).pauses[j]? = some pause →
      (replies j).limited = some header → pause = askedPause header j := by
    intro j header pause hpause hlimited
    have hj : j < k := by
      rw [← hk.pauses_length]
      exact (List.getElem?_eq_some_iff.mp hpause).1
    obtain ⟨e, he, hpause'⟩ := hk.failed j hj
    rw [Nat.zero_add] at he hpause'
    rw [hpause] at hpause'
    rw [Option.some.inj hpause', hhint _ header hlimited e he, backoff_hint]
  refine ⟨⟨k, hk⟩, hasked, fun j n pause hpause hn hlimited => ?_, ?_⟩
  · rw [hasked j _ pause hpause hlimited, askedPause, Option.bind_some,
      retryAfterSeconds_toString hn]
    rfl
  · have hpauses := sum_pauses_le hk backoff_le
    have hrequests := List.sum_le_card_nsmul ((List.range
      (retry giveUp backoff (fun i => attempt (replies i)) maxAttempts).attempts).map latency)
      clientTimeout (fun x hx => by
        obtain ⟨i, -, rfl⟩ := List.mem_map.mp hx
        exact hlatency i)
    rw [List.length_map, List.length_range, smul_eq_mul, hk.attempts_eq] at hrequests
    have hlt := hk.lt
    unfold duration
    rw [hk.attempts_eq]
    unfold maxAttempts at hlt
    unfold maxRateLimitWait at hpauses
    unfold clientTimeout at hrequests
    omega

end Paced

/-- TronGrid asks for five seconds, then for an hour, and then answers. -/
def limitedTwice : ℕ → Reply ℕ
  | 0 => .answered 429 (some "5") none
  | 1 => .answered 429 (some "3600") none
  | _ => .answered 200 none (some 7)

end Rpc

end Naivolt
