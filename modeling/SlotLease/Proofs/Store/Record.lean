import SlotLease.Proofs.Json.Value
import SlotLease.Slot
import SlotLease.Store.Record

namespace SlotLease

open Json

theorem Json.ofBytes?_of_skipRounds? {bytes : List UInt8} (blanks : skipBlanks bytes = bytes)
    (rounds : skipRounds? (bytes.length + 1) true [] bytes = some []) :
    ofBytes? bytes = some ⟨bytes⟩ := by
  have : splitValue? (bytes ++ []) = some (⟨bytes⟩, []) :=
    splitValue?_of_skipRounds? (by simpa using blanks) (by simpa using rounds)
  rw [List.append_nil] at this
  rw [ofBytes?, this]
  rfl

namespace Slot

theorem toJson_bytes (slot : Slot) :
    slot.toJson.toUTF8.data.toList =
      0x5B :: (numberBytes slot.datacenter.toNat ++
        0x2C :: (numberBytes slot.worker.toNat ++ [0x5D])) := by
  have opening : Utf8.ofChars "[".toList = [0x5B] := by decide
  have comma : Utf8.ofChars ",".toList = [0x2C] := by decide
  have closing : Utf8.ofChars "]".toList = [0x5D] := by decide
  simp only [Utf8.toUTF8_toList, toJson, String.toList_append, Utf8.ofChars_append, opening, comma,
    closing, Decimal.text, String.toList_ofList, numberBytes, List.append_assoc, List.cons_append,
    List.nil_append]

theorem stands_comma (n : Nat) (rest : List UInt8) : Stands (numberBytes n) (0x2C :: rest) :=
  stands_numberBytes _ ⟨by decide, by decide, by decide, by decide⟩

theorem stands_bracket (n : Nat) : Stands (numberBytes n) [0x5D] :=
  stands_numberBytes _ ⟨by decide, by decide, by decide, by decide⟩

theorem ofBytes?_toJson (slot : Slot) :
    ofBytes? slot.toJson.toUTF8.data.toList = some ⟨slot.toJson.toUTF8.data.toList⟩ := by
  have first := List.length_pos_iff.2 (numberBytes_ne_nil slot.datacenter.toNat)
  have second := List.length_pos_iff.2 (numberBytes_ne_nil slot.worker.toNat)
  rw [toJson_bytes]
  apply ofBytes?_of_skipRounds? (by simp [skipBlanks, isBlank])
  -- there are enough bytes for a round each
  generalize rounds : List.length _ = n
  obtain ⟨m, rfl⟩ : ∃ m, n = m + 1 + 1 + 1 + 1 + 1 :=
    ⟨n - 5, by
      simp only [List.length_cons, List.length_append, List.length_nil] at rounds
      omega⟩
  rw [skipRounds?_list, (stands_comma _ _).2, skipRounds?_element, (stands_bracket _).2,
    skipRounds?_endList]
  rfl

theorem elements?_toJson (slot : Slot) :
    elements? ⟨slot.toJson.toUTF8.data.toList⟩ =
      some [⟨numberBytes slot.datacenter.toNat⟩, ⟨numberBytes slot.worker.toNat⟩] := by
  have first := numberBytes_ne_nil slot.datacenter.toNat
  have second := numberBytes_ne_nil slot.worker.toNat
  rw [toJson_bytes, elements?_list, (stands_comma _ _).1]
  generalize rounds : List.length _ = n
  obtain ⟨m, rfl⟩ : ∃ m, n = m + 1 + 1 :=
    ⟨n - 2, by
      simp only [List.length_cons, List.length_append, List.length_nil] at rounds
      omega⟩
  have listed := (elementsFrom?_cons (m + 1) first (stands_comma _ _)).trans
    (by rw [elementsFrom?_last m second (stands_bracket _)])
  rw [listed, if_neg]
  · rfl
  · intro short
    have := congrArg List.length short
    simp only [List.length_cons, List.length_append, List.length_nil] at this
    omega

@[simp] theorem ofText?_toJson (slot : Slot) : ofText? slot.toJson = some slot := by
  rw [ofText?, ofString?, ofBytes?_toJson]
  simp only [Option.bind_some, ofJson?, elements?_toJson, word?_numberBytes]
  rfl

end Slot

namespace Record

theorem toJson_bytes (r : Record) :
    r.encode.data.toList =
      0x7B :: (quoteBytes "key" ++ 0x3A :: (quoteBytes r.key ++
        0x2C :: (quoteBytes "value" ++ 0x3A :: (quoteBytes r.value ++
          0x2C :: (quoteBytes "expires_at_ms" ++ 0x3A :: (numberBytes r.expiresAt.toNat ++
            [0x7D])))))) := by
  have key : Utf8.ofChars "\x7b\"key\":".toList = 0x7B :: (quoteBytes "key" ++ [0x3A]) := by decide
  have value : Utf8.ofChars ",\"value\":".toList = 0x2C :: (quoteBytes "value" ++ [0x3A]) := by
    decide
  have expiresAt : Utf8.ofChars ",\"expires_at_ms\":".toList =
      0x2C :: (quoteBytes "expires_at_ms" ++ [0x3A]) := by decide
  have closing : Utf8.ofChars "\x7d".toList = [0x7D] := by decide
  simp only [encode, Utf8.toUTF8_toList, toJson, String.toList_append, Utf8.ofChars_append, key,
    value, expiresAt, closing, Decimal.text, String.toList_ofList, numberBytes, quote_bytes,
    List.append_assoc, List.cons_append, List.nil_append]

theorem stands_brace (n : Nat) : Stands (numberBytes n) [0x7D] :=
  stands_numberBytes _ ⟨by decide, by decide, by decide, by decide⟩

theorem ofBytes?_encode (r : Record) :
    ofBytes? r.encode.data.toList = some ⟨r.encode.data.toList⟩ := by
  rw [toJson_bytes]
  apply ofBytes?_of_skipRounds? (by simp [skipBlanks, isBlank])
  generalize rounds : List.length _ = n
  obtain ⟨m, rfl⟩ : ∃ m, n = m + 1 + 1 + 1 + 1 + 1 + 1 + 1 :=
    ⟨n - 7, by
      simp only [List.length_cons, List.length_append, quoteBytes] at rounds
      omega⟩
  rw [skipRounds?_object, (stands_quoteBytes r.key _).2, skipRounds?_member,
    (stands_quoteBytes r.value _).2, skipRounds?_member, (stands_brace _).2, skipRounds?_endObject]
  rfl

theorem members?_encode (r : Record) :
    members? ⟨r.encode.data.toList⟩ =
      some [("key", ⟨quoteBytes r.key⟩), ("value", ⟨quoteBytes r.value⟩),
        ("expires_at_ms", ⟨numberBytes r.expiresAt.toNat⟩)] := by
  rw [toJson_bytes, members?_object]
  generalize rounds : List.length _ = n
  obtain ⟨m, rfl⟩ : ∃ m, n = m + 1 + 1 + 1 :=
    ⟨n - 3, by
      simp only [List.length_cons, List.length_append, quoteBytes] at rounds
      omega⟩
  rw [if_neg, membersFrom?_cons _ _ (by simp [quoteBytes]) (stands_quoteBytes r.key _),
    membersFrom?_cons _ _ (by simp [quoteBytes]) (stands_quoteBytes r.value _),
    membersFrom?_last _ _ (numberBytes_ne_nil _) (stands_brace _)]
  · rfl
  · simp [quoteBytes, skipBlanks, isBlank]

@[simp] theorem decode?_encode (r : Record) : decode? r.encode = some r := by
  have fields : fields? ["key", "value", "expires_at_ms"] ⟨r.encode.data.toList⟩ =
      some [some ⟨quoteBytes r.key⟩, some ⟨quoteBytes r.value⟩,
        some ⟨numberBytes r.expiresAt.toNat⟩] := by
    rw [fields?, members?_encode]
    rfl
  rw [decode?, ofBytes?_encode]
  simp only [ofJson?, fields, bind, Option.bind, string?_quoteBytes, word?_numberBytes]
  rfl

theorem encode_injective {r r' : Record} (h : r.encode = r'.encode) : r = r' := by
  have := congrArg decode? h
  rw [decode?_encode, decode?_encode] at this
  exact Option.some.inj this

end Record

end SlotLease
