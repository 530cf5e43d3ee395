import Naivolt.Foundation.Radix
import Naivolt.Wallet.DerivationPath
import Naivolt.Watcher.Topics

/-!
# Deposit addresses as texts

`address.rs` turns a public key into the text that a user sends to: on EVM chains the last twenty
bytes of its hash in hexadecimal, with a checksum in the letter case; on TRON the same bytes behind
`0x41` in Base58 with a checksum of four bytes; on Solana the key itself in Base58.  The watcher
reads such texts again: `topic_to_address` from the topics of a log, `base58_to_hex` from an
address.

`addresses_read_back` says that the two sides agree for all keys, and on nothing else.  The hash
functions are parameters, and so are the crates that write bytes as texts, of which no more is used
than the formats they document (`TextCodecs.Documented`), and what is derived from a seed;
addresses on Bitcoin are made by another library.
-/

namespace Naivolt

open Foundation

/-! ## Hashes -/

/-- The hash functions, of which only the lengths matter here. -/
structure Hashes where
  keccak256 : List UInt8 → List UInt8
  sha256 : List UInt8 → List UInt8
  length_keccak256 : ∀ message, (keccak256 message).length = 32
  length_sha256 : ∀ message, (sha256 message).length = 32

/-- The checksum of `with_check`. -/
def Hashes.checksum (h : Hashes) (payload : List UInt8) : List UInt8 :=
  (h.sha256 (h.sha256 payload)).take 4

@[simp] lemma Hashes.length_checksum (h : Hashes) (payload : List UInt8) :
    (h.checksum payload).length = 4 := by
  simp [Hashes.checksum, h.length_sha256]

/-! ## Bytes as texts -/

/-- What is used of the crates `hex` and `bs58`. -/
structure TextCodecs where
  /-- `hex::encode`. -/
  hexEncode : List UInt8 → String
  /-- `bs58::encode`. -/
  base58Encode : List UInt8 → String
  /-- `bs58::encode` with `with_check`. -/
  base58CheckEncode : List UInt8 → String
  /-- `bs58::decode` with `with_check(None)`. -/
  base58CheckDecode : String → Option (List UInt8)

/-- Two digits for each byte, in lower case. -/
def lowerHex (bytes : List UInt8) : List Char :=
  bytes.flatMap fun b => [hexDigit (b.toNat / 16), hexDigit (b.toNat % 16)]

/-- The alphabet of Bitcoin: digits and letters without those that look alike. -/
def base58 : Radix.Alphabet 58 where
  letters := "123456789ABCDEFGHJKLMNPQRSTUVWXYZabcdefghijkmnopqrstuvwxyz".toList
  length := by decide +kernel
  nodup := by decide +kernel

/-- Bytes in Base58: as the digits of one number, and as many ones as there are zeros before it. -/
def base58Text (bytes : List UInt8) : String :=
  String.ofList (base58.encode 256 (bytes.map UInt8.toNat))

/-- The bytes that a text in Base58 stands for. -/
def base58Bytes (s : String) : Option (List UInt8) :=
  (base58.decode 256 s.toList).map fun bytes => bytes.map UInt8.ofNat

/-- The formats of the crates: hexadecimal in lower case, Base58, and Base58 of a payload and its
checksum, which is all that `with_check` accepts. -/
structure TextCodecs.Documented (c : TextCodecs) (h : Hashes) : Prop where
  hex : ∀ bytes, c.hexEncode bytes = String.ofList (lowerHex bytes)
  base58 : ∀ bytes, c.base58Encode bytes = base58Text bytes
  checkEncode : ∀ payload, c.base58CheckEncode payload = base58Text (payload ++ h.checksum payload)
  checkDecode : ∀ s payload, c.base58CheckDecode s = some payload ↔
    base58Bytes s = some (payload ++ h.checksum payload)

/-! ## Addresses -/

/-- The bytes an account goes by on EVM chains and on TRON. -/
@[ext] structure AccountHash where
  bytes : List UInt8
  length : bytes.length = 20

/-- `keccak_address_bytes`, of an uncompressed public key. -/
def keccakAddressBytes (h : Hashes) (uncompressed : List UInt8) : AccountHash where
  bytes := (h.keccak256 (uncompressed.drop 1)).drop 12
  length := by rw [List.length_drop, h.length_keccak256]

/-- The half of a byte of the hash that belongs to a digit. -/
def checksumNibble (hash : List UInt8) (i : ℕ) : ℕ :=
  let byte := (hash.getD (i / 2) 0).toNat
  if i % 2 = 0 then byte / 16 else byte % 16

/-- The digits of `to_eip55`. -/
def eip55Digits (h : Hashes) (lower : List Char) : List Char :=
  let hash := h.keccak256 (lower.map fun c => UInt8.ofNat c.toNat)
  lower.zipIdx.map fun (c, i) =>
    if c.isAlpha && 8 ≤ checksumNibble hash i then c.toUpper else c

/-- `to_eip55`. -/
def toEip55 (c : TextCodecs) (h : Hashes) (a : AccountHash) : String :=
  String.ofList ('0' :: 'x' :: eip55Digits h (c.hexEncode a.bytes).toList)

/-- `evm_address`. -/
def evmAddress (c : TextCodecs) (h : Hashes) (uncompressed : List UInt8) : String :=
  toEip55 c h (keccakAddressBytes h uncompressed)

/-- The byte that comes before the account on TRON. -/
def tronMark : UInt8 := 0x41

/-- The text of an account on TRON. -/
def tronText (c : TextCodecs) (a : AccountHash) : String :=
  c.base58CheckEncode (tronMark :: a.bytes)

/-- `tron_address`. -/
def tronAddress (c : TextCodecs) (h : Hashes) (uncompressed : List UInt8) : String :=
  tronText c (keccakAddressBytes h uncompressed)

/-- `solana_address`, of a verifying key. -/
def solanaAddress (c : TextCodecs) (verifyingKey : List UInt8) : String :=
  c.base58Encode verifyingKey

/-- `base58_to_hex`. -/
def base58ToHex (c : TextCodecs) (address : String) : Option String := do
  let decoded ← c.base58CheckDecode address
  if decoded.length ≠ 21 || decoded[0]? ≠ some tronMark then none
  else some (c.hexEncode (decoded.drop 1))

/-! ## Base58 reads back -/

lemma base58Bytes_eq_some_iff {s : String} {bytes : List UInt8} :
    base58Bytes s = some bytes ↔ base58Text bytes = s := by
  unfold base58Bytes base58Text
  have hround : ∀ bytes : List UInt8, (bytes.map UInt8.toNat).map UInt8.ofNat = bytes := by
    intro bytes
    simp [List.map_map, Function.comp_def]
  rw [Option.map_eq_some_iff]
  constructor
  · rintro ⟨ds, hds, rfl⟩
    obtain ⟨hall, hencode⟩ :=
      (base58.decode_eq_some_iff (by decide) (by decide)).mp hds
    have hsame : (ds.map UInt8.ofNat).map UInt8.toNat = ds := by
      rw [List.map_map]
      refine (List.map_congr_left fun d hd => ?_).trans (List.map_id ds)
      exact UInt8.toNat_ofNat_of_lt' (hall d hd)
    rw [hsame, hencode, String.ofList_toList]
  · intro h
    refine ⟨bytes.map UInt8.toNat, ?_, hround bytes⟩
    refine (base58.decode_eq_some_iff (by decide) (by decide)).mpr ⟨fun d hd => ?_, ?_⟩
    · obtain ⟨byte, -, rfl⟩ := List.mem_map.mp hd
      exact byte.toNat_lt
    · rw [← h, String.toList_ofList]

section Texts

variable {h : Hashes} {c : TextCodecs}

/-- **What passes the checksum is what it was made for.** -/
lemma TextCodecs.Documented.checkDecode_iff (hc : c.Documented h) {s : String}
    {payload : List UInt8} :
    c.base58CheckDecode s = some payload ↔ c.base58CheckEncode payload = s := by
  rw [hc.checkDecode, hc.checkEncode, base58Bytes_eq_some_iff]

/-! ## Digits -/

lemma hexDigit_cased : ∀ d < 16, (hexDigit d).isHexDigit = true ∧
    (hexDigit d).toUpper.isHexDigit = true ∧ (hexDigit d).toLower = hexDigit d ∧
    (hexDigit d).toUpper.toLower = hexDigit d := by
  decide

lemma length_lowerHex (bytes : List UInt8) : (lowerHex bytes).length = 2 * bytes.length := by
  induction bytes with
  | nil => rfl
  | cons byte bytes ih =>
      rw [lowerHex, List.flatMap_cons, List.length_append, ← lowerHex, ih, List.length_cons]
      simp only [List.length_cons, List.length_nil]
      omega

lemma mem_lowerHex {bytes : List UInt8} {c : Char} (hc : c ∈ lowerHex bytes) :
    ∃ d < 16, c = hexDigit d := by
  obtain ⟨byte, -, hc⟩ := List.mem_flatMap.mp hc
  have hbyte := byte.toNat_lt
  simp only [List.mem_cons, List.not_mem_nil, or_false] at hc
  rcases hc with rfl | rfl
  · exact ⟨_, by omega, rfl⟩
  · exact ⟨_, by omega, rfl⟩

lemma lowerHex_injective {bytes bytes' : List UInt8} (heq : lowerHex bytes = lowerHex bytes') :
    bytes = bytes' := by
  have hlength := congrArg List.length heq
  rw [length_lowerHex, length_lowerHex] at hlength
  induction bytes generalizing bytes' with
  | nil =>
      have hnil : bytes'.length = 0 := by simpa using hlength.symm
      exact (List.length_eq_zero_iff.mp hnil).symm
  | cons byte bytes ih =>
      cases bytes' with
      | nil => simp at hlength
      | cons byte' bytes' =>
          simp only [lowerHex, List.flatMap_cons, List.cons_append, List.nil_append] at heq
          obtain ⟨hhigh, hrest⟩ := List.cons.inj heq
          obtain ⟨hlow, htail⟩ := List.cons.inj hrest
          have hlt := byte.toNat_lt
          have hlt' := byte'.toNat_lt
          have hdiv := hexDigit_injective _ (by omega) _ (by omega) hhigh
          have hmod := hexDigit_injective _ (by omega) _ (by omega) hlow
          have hbyte : byte = byte' := UInt8.toNat_inj.mp (by omega)
          rw [hbyte, ih htail (by simpa using hlength)]

/-! ## EVM -/

/-- The checksum only changes the case of letters. -/
lemma eip55Digit_cased {bytes : List UInt8} {d : Char}
    (hd : d ∈ eip55Digits h (lowerHex bytes)) : d.isHexDigit = true := by
  obtain ⟨⟨d, i⟩, hmem, rfl⟩ := List.mem_map.mp hd
  obtain ⟨n, hn, rfl⟩ := mem_lowerHex (List.fst_mem_of_mem_zipIdx hmem)
  obtain ⟨hhex, hupper, -⟩ := hexDigit_cased n hn
  show (if _ then _ else _ : Char).isHexDigit = true
  split_ifs
  · exact hupper
  · exact hhex

lemma toLower_eip55Digits (bytes : List UInt8) :
    (eip55Digits h (lowerHex bytes)).map Char.toLower = lowerHex bytes := by
  have hlower : (eip55Digits h (lowerHex bytes)).map Char.toLower =
      (lowerHex bytes).zipIdx.map Prod.fst := by
    rw [eip55Digits, List.map_map]
    refine List.map_congr_left fun e hmem => ?_
    obtain ⟨d, i⟩ := e
    obtain ⟨d, hd, rfl⟩ := mem_lowerHex (List.fst_mem_of_mem_zipIdx hmem)
    obtain ⟨-, -, hlower, hupper⟩ := hexDigit_cased d hd
    simp only [Function.comp_apply]
    split_ifs
    · exact hupper
    · exact hlower
  rw [hlower, List.zipIdx_map_fst]

/-- An account as an address of a node's. -/
def AccountHash.evm (h : Hashes) (a : AccountHash) : EvmAddress where
  digits := eip55Digits h (lowerHex a.bytes)
  length := by
    have hlength := congrArg List.length (toLower_eip55Digits (h := h) a.bytes)
    rwa [List.length_map, length_lowerHex, a.length] at hlength
  hex _ hd := eip55Digit_cased hd

lemma toEip55_eq (hc : c.Documented h) (a : AccountHash) :
    toEip55 c h a = (a.evm h).text true := by
  unfold toEip55
  rw [hc.hex, String.toList_ofList]
  rfl

lemma AccountHash.lower_evm (a : AccountHash) : (a.evm h).lower.digits = lowerHex a.bytes :=
  toLower_eip55Digits a.bytes

/-- The text has the account at its end, in any letter case. -/
def EndsInAccount (topic : String) (a : AccountHash) : Prop :=
  ∃ upper low, topic.toList = upper ++ low ∧ low.map Char.toLower = lowerHex a.bytes

lemma recipientOf_eq_iff (hc : c.Documented h) {topics : List String} {a : AccountHash} :
    recipientOf topics = some (toAsciiLowercase (toEip55 c h a)) ↔
      ∃ topic, topics[2]? = some topic ∧ EndsInAccount topic a := by
  rw [toEip55_eq hc, HexBytes.toAsciiLowercase_text, recipientOf, Option.bind_eq_some_iff]
  refine exists_congr fun topic => and_congr_right fun _ => ?_
  rw [topicToAddress_eq_some_iff, EndsIn, a.lower_evm, EndsInAccount]

/-! ## TRON -/

lemma base58ToHex_eq_some_iff (hc : c.Documented h) {s t : String} :
    base58ToHex c s = some t ↔ ∃ a : AccountHash, tronText c a = s ∧ c.hexEncode a.bytes = t := by
  unfold base58ToHex tronText
  simp only [Option.bind_eq_bind, Option.bind_eq_some_iff, hc.checkDecode_iff]
  constructor
  · rintro ⟨decoded, rfl, hrest⟩
    split_ifs at hrest with hbad
    cases hrest
    simp only [Bool.or_eq_true, decide_eq_true_eq, not_or, not_not] at hbad
    obtain ⟨hlength, hmark⟩ := hbad
    cases decoded with
    | nil => cases hlength
    | cons mark bytes =>
        have hsame : mark = tronMark := by simpa using hmark
        have hbytes : bytes.length = 20 := by simpa using hlength
        rw [hsame]
        exact ⟨⟨bytes, hbytes⟩, rfl, rfl⟩
  · rintro ⟨a, rfl, rfl⟩
    refine ⟨_, rfl, ?_⟩
    simp [a.length]

/-- A TRON address is 34 letters, and the first is a T. -/
lemma tronText_begins (hc : c.Documented h) (a : AccountHash) :
    ∃ rest, (tronText c a).toList = 'T' :: rest ∧ rest.length = 33 := by
  let after : List ℕ := (a.bytes ++ h.checksum (tronMark :: a.bytes)).map UInt8.toNat
  have hlength : after.length = 24 := by
    rw [List.length_map, List.length_append, a.length, h.length_checksum]
  have hbytes : ∀ d ∈ after, d < 256 := by
    intro d hd
    obtain ⟨byte, -, rfl⟩ := List.mem_map.mp hd
    exact byte.toNat_lt
  have hlow : 26 * 58 ^ 33 ≤ 65 * 256 ^ after.length := by
    rw [hlength]
    norm_num
  have hhigh : (65 + 1) * 256 ^ after.length ≤ (26 + 1) * 58 ^ 33 := by
    rw [hlength]
    norm_num
  obtain ⟨rest, hconvert, hrest⟩ := Radix.head_convert (by decide) (by decide) (by decide) hbytes
    (by decide) (by decide) hlow hhigh
  refine ⟨rest.map base58.letter, ?_, by rw [List.length_map, hrest]⟩
  have hencode :
      (tronText c a).toList = (Radix.convert 256 58 (65 :: after)).map base58.letter := by
    rw [tronText, hc.checkEncode, base58Text, String.toList_ofList]
    rfl
  have hfirst : base58.letter 26 = 'T' := by decide +kernel
  rw [hencode, hconvert, List.map_cons, hfirst]

lemma tronText_injective (hc : c.Documented h) : Function.Injective (tronText c) := by
  intro a b heq
  have hdecode : ∀ a : AccountHash,
      c.base58CheckDecode (tronText c a) = some (tronMark :: a.bytes) :=
    fun a => hc.checkDecode_iff.mpr rfl
  have hsame := Option.some.inj ((hdecode a).symm.trans ((congrArg _ heq).trans (hdecode b)))
  exact AccountHash.ext (List.cons.inj hsame).2

/-! ## Solana -/

lemma base58Text_injective : Function.Injective base58Text := by
  intro bytes bytes' heq
  have hread := base58Bytes_eq_some_iff.mpr heq
  exact Option.some.inj (hread.symm.trans (base58Bytes_eq_some_iff.mpr rfl))

lemma solanaAddress_injective (hc : c.Documented h) : Function.Injective (solanaAddress c) := by
  intro key key' heq
  rw [solanaAddress, solanaAddress, hc.base58, hc.base58] at heq
  exact base58Text_injective heq

/-! ## The law -/

/-- The rows of accounts in `wallets`. -/
def evmWallets (c : TextCodecs) (h : Hashes) (accounts : List (Uuid × Uuid × AccountHash)) :
    List Wallet :=
  accounts.map fun (id, userId, a) => ⟨id, userId, .evm, toEip55 c h a⟩

lemma mem_watched_evm {net : Network} (hevm : net.chain = .evm)
    {accounts : List (Uuid × Uuid × AccountHash)} {recipient : String} :
    recipient ∈ watchedAddresses net (evmWallets c h accounts) ↔
      ∃ e ∈ accounts, recipient = toAsciiLowercase (toEip55 c h e.2.2) := by
  unfold watchedAddresses evmWallets
  rw [hevm]
  simp [eq_comm]

lemma toLower_lowerHex (bytes : List UInt8) :
    (lowerHex bytes).map Char.toLower = lowerHex bytes := by
  refine (List.map_congr_left fun c hc => ?_).trans (List.map_id _)
  obtain ⟨d, hd, rfl⟩ := mem_lowerHex hc
  exact (hexDigit_cased d hd).2.2.1

/-- Addresses are compared as accounts are. -/
lemma eqIgnoreAsciiCase_evm (hc : c.Documented h) {a b : AccountHash} :
    eqIgnoreAsciiCase (toEip55 c h b) (toAsciiLowercase (toEip55 c h a)) = true ↔ b = a := by
  have hstored : lowerAscii (toEip55 c h b) = '0' :: 'x' :: lowerHex b.bytes := by
    rw [lowerAscii, toEip55, hc.hex, String.toList_ofList, String.toList_ofList, List.map_cons,
      List.map_cons, toLower_eip55Digits]
    rfl
  have hfound : lowerAscii (toAsciiLowercase (toEip55 c h a)) = '0' :: 'x' :: lowerHex a.bytes := by
    rw [toEip55_eq hc, HexBytes.toAsciiLowercase_text, lowerAscii, HexBytes.text,
      String.toList_ofList, a.lower_evm, if_pos rfl, List.map_append, toLower_lowerHex]
    rfl
  rw [eqIgnoreAsciiCase, decide_eq_true_eq, hstored, hfound]
  constructor
  · intro heq
    exact AccountHash.ext (lowerHex_injective (List.cons.inj (List.cons.inj heq).2).2)
  · rintro rfl
    rfl

lemma toEip55_injective (hc : c.Documented h) : Function.Injective (toEip55 c h) := by
  intro a b heq
  refine (eqIgnoreAsciiCase_evm hc).mp ?_
  rw [heq]
  exact (eqIgnoreAsciiCase_evm hc).mpr rfl

/-- Whose wallet is found for an address. -/
lemma walletFor_evm (hc : c.Documented h) {net : Network} (hevm : net.chain = .evm) {db : WatcherDb}
    {accounts : List (Uuid × Uuid × AccountHash)} (hwallets : db.wallets = evmWallets c h accounts)
    {a : AccountHash} :
    (∀ id userId, walletFor net (toAsciiLowercase (toEip55 c h a)) db = some (id, userId) →
      (id, userId, a) ∈ accounts) ∧
    (walletFor net (toAsciiLowercase (toEip55 c h a)) db = none →
      ∀ id userId, (id, userId, a) ∉ accounts) := by
  unfold walletFor
  rw [hwallets, hevm]
  constructor
  · intro id userId hfind
    obtain ⟨w, hfound, heq⟩ := Option.map_eq_some_iff.mp hfind
    have hsame := List.find?_some hfound
    obtain ⟨⟨i, u, b⟩, he, rfl⟩ := List.mem_map.mp (List.mem_of_find?_eq_some hfound)
    rw [Bool.and_eq_true, eqIgnoreAsciiCase_evm hc] at hsame
    cases heq
    rw [← hsame.2]
    exact he
  · intro hnone id userId hmem
    rw [Option.map_eq_none_iff, List.find?_eq_none] at hnone
    refine hnone ⟨id, userId, .evm, toEip55 c h a⟩ (List.mem_map.mpr ⟨_, hmem, rfl⟩) ?_
    rw [Bool.and_eq_true, eqIgnoreAsciiCase_evm hc]
    exact ⟨decide_eq_true rfl, rfl⟩

/-- **What the wallet writes, the watcher reads**, for all keys and hash functions.  No two accounts
of a chain have one text.  A text is read as a TRON account exactly if it is the text of that
account, which is a T and 33 letters more.  And on an EVM network a log is taken for one of ours
exactly if its third topic ends in the account of a wallet, in any letter case; then the wallet that
is found for it is one of that account, and for any other account there is none. -/
theorem addresses_read_back (h : Hashes) (c : TextCodecs) (hc : c.Documented h) :
    (Function.Injective (toEip55 c h) ∧ Function.Injective (tronText c) ∧
      Function.Injective (solanaAddress c)) ∧
    (∀ s t, base58ToHex c s = some t ↔
      ∃ a : AccountHash, tronText c a = s ∧ c.hexEncode a.bytes = t) ∧
    (∀ a, ∃ rest, (tronText c a).toList = 'T' :: rest ∧ rest.length = 33) ∧
    (∀ (net : Network) (accounts : List (Uuid × Uuid × AccountHash)) (topics : List String),
      net.chain = .evm →
      ((∃ recipient, recipientOf topics = some recipient ∧
          recipient ∈ watchedAddresses net (evmWallets c h accounts)) ↔
        ∃ e ∈ accounts, ∃ topic, topics[2]? = some topic ∧ EndsInAccount topic e.2.2)) ∧
    ∀ (net : Network) (db : WatcherDb) (accounts : List (Uuid × Uuid × AccountHash))
      (topics : List String) (a : AccountHash), net.chain = .evm →
      db.wallets = evmWallets c h accounts →
      (∃ topic, topics[2]? = some topic ∧ EndsInAccount topic a) →
        ∃ recipient, recipientOf topics = some recipient ∧
          (∀ id userId, walletFor net recipient db = some (id, userId) →
            (id, userId, a) ∈ accounts) ∧
          (walletFor net recipient db = none → ∀ id userId, (id, userId, a) ∉ accounts) := by
  refine ⟨⟨toEip55_injective hc, tronText_injective hc, solanaAddress_injective hc⟩,
    fun s t => base58ToHex_eq_some_iff hc, tronText_begins hc,
    fun net accounts topics hevm => ?_, fun net db accounts topics a hevm hwallets hends => ?_⟩
  · constructor
    · rintro ⟨recipient, hrecipient, hwatched⟩
      obtain ⟨e, he, rfl⟩ := (mem_watched_evm hevm).mp hwatched
      exact ⟨e, he, (recipientOf_eq_iff hc).mp hrecipient⟩
    · rintro ⟨e, he, htopic⟩
      exact ⟨_, (recipientOf_eq_iff hc).mpr htopic, (mem_watched_evm hevm).mpr ⟨e, he, rfl⟩⟩
  · exact ⟨_, (recipientOf_eq_iff hc).mpr hends, walletFor_evm hc hevm hwallets⟩

end Texts

/-- A hash that is the same for every message. -/
def sameHash : Hashes where
  keccak256 _ := List.replicate 32 0
  sha256 _ := List.replicate 32 0
  length_keccak256 _ := List.length_replicate
  length_sha256 _ := List.length_replicate

/-- The formats themselves. -/
def plainCodecs (h : Hashes) : TextCodecs where
  hexEncode bytes := String.ofList (lowerHex bytes)
  base58Encode := base58Text
  base58CheckEncode payload := base58Text (payload ++ h.checksum payload)
  base58CheckDecode s := do
    let bytes ← base58Bytes s
    let payload := bytes.take (bytes.length - 4)
    if payload ++ h.checksum payload = bytes then some payload else none

lemma plainCodecs_documented (h : Hashes) : (plainCodecs h).Documented h where
  hex _ := rfl
  base58 _ := rfl
  checkEncode _ := rfl
  checkDecode s payload := by
    simp only [plainCodecs, Option.bind_eq_bind, Option.bind_eq_some_iff]
    constructor
    · rintro ⟨bytes, hbytes, hcheck⟩
      split_ifs at hcheck with hsum
      cases hcheck
      rw [hbytes, hsum]
    · intro hbytes
      have htake : (payload ++ h.checksum payload).take
          ((payload ++ h.checksum payload).length - 4) = payload := by
        rw [List.length_append, h.length_checksum, Nat.add_sub_cancel, List.take_left]
      exact ⟨_, hbytes, by simp only [htake, if_true]⟩

/-- The account of twenty zeros is read back from its text. -/
theorem addresses_read_back_zero :
    base58ToHex (plainCodecs sameHash)
        (tronText (plainCodecs sameHash) ⟨List.replicate 20 0, rfl⟩) =
      some "0000000000000000000000000000000000000000" :=
  ((addresses_read_back sameHash (plainCodecs sameHash) (plainCodecs_documented sameHash)).2.1
    _ _).mpr ⟨⟨List.replicate 20 0, rfl⟩, rfl, by decide +kernel⟩

end Naivolt
