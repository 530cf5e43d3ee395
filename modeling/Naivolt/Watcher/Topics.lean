import Naivolt.Watcher.Amounts
import Naivolt.Watcher.Evm

/-!
# Addresses and topics

The filter sent to a node names watched addresses as topics of 32 bytes, and the topics of a log
name its recipient.  `address_to_topic` pads an address to a topic, and `topic_to_address` takes
the low twenty bytes of whatever text the node has there.

`topics_round_trip` says that the two undo each other, and that a log's recipient is taken for a
watched address exactly if its third topic ends in the digits of that address.
-/

namespace Naivolt

open Foundation

/-! ## Bytes in hexadecimal -/

/-- So many bytes in hexadecimal, two digits each, in any letter case. -/
structure HexBytes (n : ℕ) where
  digits : List Char
  length : digits.length = 2 * n
  hex : ∀ c ∈ digits, c.isHexDigit = true

/-- An address, twenty bytes. -/
abbrev EvmAddress := HexBytes 20

/-- A topic, 32 bytes. -/
abbrev Topic := HexBytes 32

lemma hexDigit_facts {c : Char} (h : c.isHexDigit = true) :
    c ≠ 'x' ∧ c.utf8Size = 1 ∧ c.toLower.isHexDigit = true := by
  have hsmall : c.toNat < 128 := by
    simp only [Char.isHexDigit, Char.isDigit, Bool.or_eq_true, Bool.and_eq_true,
      decide_eq_true_eq, ge_iff_le, UInt32.le_iff_toNat_le, Char.toNat_val, Char.reduceToNat] at h
    omega
  have hall : ∀ n < 128, (Char.ofNat n).isHexDigit = true → Char.ofNat n ≠ 'x' ∧
      (Char.ofNat n).utf8Size = 1 ∧ (Char.ofNat n).toLower.isHexDigit = true := by decide
  have hc := hall c.toNat hsmall
  rw [Char.ofNat_toNat] at hc
  exact hc h

namespace HexBytes

variable {n : ℕ}

/-- In lower case. -/
def lower (b : HexBytes n) : HexBytes n where
  digits := b.digits.map Char.toLower
  length := by rw [List.length_map, b.length]
  hex := by
    intro c hc
    obtain ⟨d, hd, rfl⟩ := List.mem_map.mp hc
    exact (hexDigit_facts (b.hex d hd)).2.2

/-- As a text, with `0x` or without. -/
def text (b : HexBytes n) (marked : Bool) : String :=
  String.ofList ((if marked then ['0', 'x'] else []) ++ b.digits)

@[ext] lemma ext {b b' : HexBytes n} (h : b.digits = b'.digits) : b = b' := by
  cases b
  cases b'
  cases h
  rfl

@[simp] lemma lower_digits (b : HexBytes n) : b.lower.digits = b.digits.map Char.toLower := rfl

lemma x_notMem (b : HexBytes n) : 'x' ∉ b.digits := fun hx => (hexDigit_facts (b.hex _ hx)).1 rfl

lemma isAscii (b : HexBytes n) : IsAscii b.digits := fun c hc => (hexDigit_facts (b.hex c hc)).2.1

lemma toAsciiLowercase_text (b : HexBytes n) (marked : Bool) :
    toAsciiLowercase (b.text marked) = b.lower.text marked := by
  cases marked <;> simp [toAsciiLowercase, lowerAscii, text, lower]

end HexBytes

/-! ## The conversions -/

/-- `address_to_topic`: left-padded with zeros to 64 digits. -/
def addressToTopic (address : String) : String :=
  let clean := (trimHexMark address.toList).map Char.toLower
  String.ofList (['0', 'x'] ++ List.replicate (64 - clean.length) '0' ++ clean)

/-- `topic_to_address`, with `none` for a panic: the slice begins inside a character. -/
def topicToAddress (topic : String) : Option String :=
  let clean := trimHexMark topic.toList
  if byteSize clean < 40 then some (String.ofList (['0', 'x'] ++ clean))
  else (dropBytes (byteSize clean - 40) clean).map fun low =>
    String.ofList (['0', 'x'] ++ low.map Char.toLower)

/-- The recipient of a log, by its topics. -/
def recipientOf (topics : List String) : Option String := topics[2]?.bind topicToAddress

/-! ## Marks -/

/-- Only marks are taken away. -/
lemma exists_append_trimHexMark (s : List Char) : ∃ marks, s = marks ++ trimHexMark s := by
  induction s using trimHexMark.induct with
  | case1 rest ih =>
      obtain ⟨marks, hmarks⟩ := ih
      refine ⟨'0' :: 'x' :: marks, ?_⟩
      rw [trimHexMark, List.cons_append, List.cons_append, ← hmarks]
  | case2 s hs => exact ⟨[], by rw [trimHexMark.eq_2 s hs, List.nil_append]⟩

/-- A text that ends without an `x` keeps its end. -/
lemma trimHexMark_append {d : List Char} (hd : 'x' ∉ d) (s : List Char) :
    ∃ s', trimHexMark (s ++ d) = s' ++ d := by
  induction s using trimHexMark.induct with
  | case1 rest ih => exact ih
  | case2 s hs =>
      refine ⟨s, trimHexMark.eq_2 _ fun rest heq => ?_⟩
      rcases s with _ | ⟨c, _ | ⟨c', s⟩⟩
      · rw [List.nil_append] at heq
        exact hd (by simp [heq])
      · rw [List.cons_append, List.nil_append] at heq
        exact hd (by simp [(List.cons.inj heq).2])
      · rw [List.cons_append, List.cons_append] at heq
        obtain ⟨rfl, htail⟩ := List.cons.inj heq
        obtain ⟨rfl, -⟩ := List.cons.inj htail
        exact hs s rfl

lemma trimHexMark_digits {n : ℕ} (b : HexBytes n) (marked : Bool) :
    trimHexMark (b.text marked).toList = b.digits := by
  have hbare : trimHexMark b.digits = b.digits := by
    obtain ⟨s', hs'⟩ := trimHexMark_append b.x_notMem []
    obtain ⟨marks, hmarks⟩ := exists_append_trimHexMark b.digits
    rw [List.nil_append] at hs'
    have hlen := congrArg List.length hmarks
    rw [hs', List.length_append, List.length_append] at hlen
    have hnil : s' = [] := List.length_eq_zero_iff.mp (by omega)
    rw [hs', hnil, List.nil_append]
  cases marked
  · simpa [HexBytes.text] using hbare
  · simpa [HexBytes.text, trimHexMark] using hbare

/-! ## Round trips -/

lemma addressToTopic_text (a : EvmAddress) (marked : Bool) :
    (addressToTopic (a.text marked)).toList =
      '0' :: 'x' :: (List.replicate 24 '0' ++ a.lower.digits) := by
  have hlen : (a.digits.map Char.toLower).length = 40 := by rw [List.length_map, a.length]
  rw [addressToTopic, trimHexMark_digits, hlen]
  simp

/-- The low end of a text is what is read, if it is that of an address. -/
lemma topicToAddress_append (s : List Char) (a : EvmAddress) :
    topicToAddress (String.ofList (s ++ a.digits)) = some (a.lower.text true) := by
  obtain ⟨s', hs'⟩ := trimHexMark_append a.x_notMem s
  have hsize : byteSize (s' ++ a.digits) = byteSize s' + 40 := by
    rw [byteSize_append, a.isAscii.byteSize, a.length]
  have hlow : dropBytes (byteSize (s' ++ a.digits) - 40) (s' ++ a.digits) = some a.digits :=
    dropBytes_eq_some_iff.mpr ⟨s', rfl, by omega⟩
  rw [topicToAddress, String.toList_ofList, hs', if_neg (by omega), hlow]
  simp [HexBytes.text]

/-- The low twenty bytes of a topic's text are the address, in any letter case. -/
def EndsIn (topic : String) (a : EvmAddress) : Prop :=
  ∃ s low, topic.toList = s ++ low ∧ low.map Char.toLower = a.lower.digits

/-- Any text that is read as an address ends in its digits. -/
lemma exists_of_topicToAddress {topic : String} {a : EvmAddress}
    (h : topicToAddress topic = some (a.lower.text true)) :
    EndsIn topic a := by
  obtain ⟨marks, hmarks⟩ := exists_append_trimHexMark topic.toList
  rw [topicToAddress] at h
  by_cases hshort : byteSize (trimHexMark topic.toList) < 40
  · rw [if_pos hshort] at h
    have hdigits : trimHexMark topic.toList = a.lower.digits := by
      have htext := congrArg String.toList (Option.some.inj h)
      simpa [HexBytes.text] using htext
    rw [hdigits, a.lower.isAscii.byteSize, a.lower.length] at hshort
    omega
  · rw [if_neg hshort] at h
    obtain ⟨low, hlow, htext⟩ := Option.map_eq_some_iff.mp h
    obtain ⟨upper, hupper, -⟩ := dropBytes_eq_some_iff.mp hlow
    refine ⟨marks ++ upper, low, ?_, ?_⟩
    · rw [List.append_assoc, ← hupper, ← hmarks]
    · simpa [HexBytes.text] using congrArg String.toList htext

lemma isHexDigit_of_toLower {c : Char} (h : c.toLower.isHexDigit = true) :
    c.isHexDigit = true := by
  by_cases hupper : c.isUpper = true
  · have hsmall : c.toNat < 128 := by
      simp only [Char.isUpper, decide_eq_true_eq, ge_iff_le,
        UInt32.le_iff_toNat_le, Char.toNat_val, Char.reduceToNat] at hupper
      omega
    have hall : ∀ n < 128, (Char.ofNat n).toLower.isHexDigit = true →
        (Char.ofNat n).isHexDigit = true := by decide
    have hc := hall c.toNat hsmall
    rw [Char.ofNat_toNat] at hc
    exact hc h
  · rwa [Char.toLower_eq_of_not_isUpper hupper] at h

/-- **What is taken for an address**, of all texts a node may have there. -/
lemma topicToAddress_eq_some_iff {topic : String} {a : EvmAddress} :
    topicToAddress topic = some (a.lower.text true) ↔ EndsIn topic a := by
  refine ⟨exists_of_topicToAddress, fun h => ?_⟩
  obtain ⟨s, low, htopic, hlow⟩ := h
  have hlength : low.length = 2 * 20 := by
    rw [← a.lower.length, ← hlow, List.length_map]
  have hhex : ∀ c ∈ low, c.isHexDigit = true := by
    intro c hc
    have hmem : c.toLower ∈ a.lower.digits := hlow ▸ List.mem_map_of_mem hc
    exact isHexDigit_of_toLower (a.lower.hex _ hmem)
  have hread := topicToAddress_append s ⟨low, hlength, hhex⟩
  have htext : String.ofList (s ++ low) = topic := by rw [← htopic, String.ofList_toList]
  have hsame : (HexBytes.lower ⟨low, hlength, hhex⟩ : EvmAddress) = a.lower := HexBytes.ext hlow
  rw [hsame, htext] at hread
  exact hread

/-- The low twenty bytes of a topic. -/
def Topic.low (t : Topic) : EvmAddress where
  digits := t.digits.drop 24
  length := by rw [List.length_drop, t.length]
  hex c hc := t.hex c (List.mem_of_mem_drop hc)

/-- **Addresses and topics.**  An address comes back from its topic in lower case; addresses with
one topic are the same; a topic whose upper twelve bytes are zero comes back from its address; and
a log's recipient is a watched address, as `watched_addresses` has it, exactly if its third topic
ends in that address. -/
theorem topics_round_trip :
    (∀ (a : EvmAddress) (marked : Bool),
      topicToAddress (addressToTopic (a.text marked)) = some (a.lower.text true)) ∧
    (∀ (a b : EvmAddress) (marked marked' : Bool),
      addressToTopic (a.text marked) = addressToTopic (b.text marked') ↔ a.lower = b.lower) ∧
    (∀ (t : Topic) (marked : Bool), t.digits.take 24 = List.replicate 24 '0' →
      (topicToAddress (t.text marked)).map addressToTopic = some (t.lower.text true)) ∧
    ∀ (topics : List String) (a : EvmAddress),
      recipientOf topics = some (toAsciiLowercase (a.text true)) ↔
        ∃ topic, topics[2]? = some topic ∧ EndsIn topic a := by
  refine ⟨fun a marked => ?_, fun a b marked marked' => ?_, fun t marked hzero => ?_,
    fun topics a => ?_⟩
  · refine topicToAddress_eq_some_iff.mpr ⟨'0' :: 'x' :: List.replicate 24 '0', a.lower.digits,
      addressToTopic_text a marked, ?_⟩
    simp
  · constructor
    · intro h
      have hdigits := congrArg String.toList h
      rw [addressToTopic_text, addressToTopic_text] at hdigits
      have htail := (List.cons.inj (List.cons.inj hdigits).2).2
      exact HexBytes.ext (List.append_cancel_left htail)
    · intro h
      refine String.toList_inj.mp ?_
      rw [addressToTopic_text, addressToTopic_text, h]
  · have hsplit : t.digits = List.replicate 24 '0' ++ t.low.digits := by
      rw [← hzero]
      exact (List.take_append_drop 24 t.digits).symm
    have hread : topicToAddress (t.text marked) = some (t.low.lower.text true) := by
      refine topicToAddress_eq_some_iff.mpr
        ⟨(if marked then ['0', 'x'] else []) ++ List.replicate 24 '0', t.low.digits, ?_, rfl⟩
      rw [HexBytes.text, String.toList_ofList, hsplit, List.append_assoc]
    rw [hread, Option.map_some, Option.some.injEq]
    refine String.toList_inj.mp ?_
    rw [addressToTopic_text]
    simp [HexBytes.text, hsplit]
  · rw [HexBytes.toAsciiLowercase_text, recipientOf, Option.bind_eq_some_iff]
    exact exists_congr fun topic => and_congr_right fun _ => topicToAddress_eq_some_iff

end Naivolt
