import SlotLease.Json.Literal
import SlotLease.Proofs.Text.Utf8

namespace SlotLease.Json

def charBytes (c : Char) : List UInt8 := Utf8.ofChars (quoteChar c)

def bodyBytes (cs : List Char) : List UInt8 := cs.flatMap charBytes

theorem bodyBytes_cons (c : Char) (cs : List Char) :
    bodyBytes (c :: cs) = charBytes c ++ bodyBytes cs := rfl

def quoteBytes (s : String) : List UInt8 := 0x22 :: (bodyBytes s.toList ++ [0x22])

theorem quote_bytes (s : String) : Utf8.ofChars (quote s).toList = quoteBytes s := by
  have body : ∀ cs, Utf8.ofChars (cs.flatMap quoteChar) = bodyBytes cs := by
    intro cs
    induction cs with
    | nil => rfl
    | cons c cs ih => rw [List.flatMap_cons, Utf8.ofChars_append, ih, bodyBytes_cons, charBytes]
  have mark : String.utf8EncodeChar '"' = [0x22] := by decide
  simp only [quote, String.toList_ofList, List.cons_append, Utf8.ofChars_cons, Utf8.ofChars_append,
    body, mark]
  rfl

inductive Written (c : Char) : List UInt8 → Prop
  | escape (letter : UInt8) : c.toNat < 128 → letter ≠ 0x75 →
      escapedByte? letter = some c.toNat.toUInt8 → Written c [0x5C, letter]
  | control (digits : List UInt8) (a b d e : UInt8) : c.toNat < 32 → digits = [a, b, d, e] →
      hexValue? digits = some c.toNat → Written c [0x5C, 0x75, a, b, d, e]
  | plain : (∀ b ∈ String.utf8EncodeChar c, 0x20 ≤ b ∧ b ≠ 0x22 ∧ b ≠ 0x5C) →
      Written c (String.utf8EncodeChar c)

theorem written_control (h : c.toNat < 32) :
    Written c (Utf8.ofChars ('\\' :: 'u' :: Hex.digits 4 c.toNat)) := by
  have all : ∀ n : Fin 32, ∃ a b d e, Utf8.ofChars ('\\' :: 'u' :: Hex.digits 4 n.val) =
      [0x5C, 0x75, a, b, d, e] ∧ hexValue? [a, b, d, e] = some n.val := by
    intro n
    refine ⟨(Utf8.ofChars (Hex.digits 4 n.val))[0]!, (Utf8.ofChars (Hex.digits 4 n.val))[1]!,
      (Utf8.ofChars (Hex.digits 4 n.val))[2]!, (Utf8.ofChars (Hex.digits 4 n.val))[3]!, ?_⟩
    revert n
    decide
  obtain ⟨a, b, d, e, bytes, value⟩ := all ⟨c.toNat, h⟩
  rw [bytes]
  exact .control _ a b d e h rfl value

theorem written_escape (letter : Char) (hl : letter.toNat < 128) (h : c.toNat < 128)
    (special : letter.toNat.toUInt8 ≠ 0x75)
    (value : escapedByte? letter.toNat.toUInt8 = some c.toNat.toUInt8) :
    Written c (Utf8.ofChars ['\\', letter]) := by
  have bytes : Utf8.ofChars ['\\', letter] = [0x5C, letter.toNat.toUInt8] := by
    rw [Utf8.ofChars_cons, Utf8.ofChars_cons, Utf8.utf8EncodeChar_ascii hl]
    rfl
  rw [bytes]
  exact .escape _ h special value

theorem written_plain (h : 32 ≤ c.toNat) (quote : c ≠ '"') (backslash : c ≠ '\\') :
    Written c (Utf8.ofChars [c]) := by
  rw [Utf8.ofChars_cons, show Utf8.ofChars [] = [] from rfl, List.append_nil]
  refine .plain fun b mem => ?_
  by_cases small : c.toNat < 128
  · rw [Utf8.utf8EncodeChar_ascii small, List.mem_singleton] at mem
    have ne : ∀ d : Char, c ≠ d → c.toNat ≠ d.toNat := fun d h same => h (Char.toNat_inj.1 same)
    have := ne _ quote
    have := ne _ backslash
    subst mem
    simp only [UInt8.le_iff_toNat_le, ne_eq, ← UInt8.toNat_inj]
    simp at *
    omega
  · have := Utf8.le_of_mem_utf8EncodeChar (by omega) mem
    simp only [UInt8.le_iff_toNat_le, ne_eq, ← UInt8.toNat_inj]
    simp
    omega

theorem written_charBytes (c : Char) : Written c (charBytes c) := by
  unfold charBytes quoteChar
  split
  · next h => subst h; exact written_escape '"' (by decide) (by decide) (by decide) (by decide)
  split
  · next h => subst h; exact written_escape '\\' (by decide) (by decide) (by decide) (by decide)
  split
  · next h => subst h; exact written_escape 'n' (by decide) (by decide) (by decide) (by decide)
  split
  · next h => subst h; exact written_escape 'r' (by decide) (by decide) (by decide) (by decide)
  split
  · next h => subst h; exact written_escape 't' (by decide) (by decide) (by decide) (by decide)
  split
  · next h =>
    exact written_escape 'b' (by decide) (by omega) (by decide) (by rw [h]; decide)
  split
  · next h =>
    exact written_escape 'f' (by decide) (by omega) (by decide) (by rw [h]; decide)
  split
  · next h => exact written_control h
  · next quote backslash _ _ _ _ _ h => exact written_plain (by omega) quote backslash

theorem split?_plain {bytes : List UInt8} (rest : List UInt8)
    (h : ∀ b ∈ bytes, 0x20 ≤ b ∧ b ≠ 0x22 ∧ b ≠ 0x5C) :
    split? (bytes ++ rest) = (split? rest).map fun (body, after) => (bytes ++ body, after) := by
  induction bytes with
  | nil => simp
  | cons b bytes ih =>
    obtain ⟨low, quote, backslash⟩ := h b List.mem_cons_self
    have low : ¬ (b < 0x20 ∨ b = 0x5C) := by
      rw [UInt8.lt_iff_toNat_lt]
      rw [UInt8.le_iff_toNat_le] at low
      intro h
      cases h with
      | inl h => omega
      | inr h => exact backslash h
    rw [List.cons_append, split?, if_neg low, ih fun b mem => h b (List.mem_cons_of_mem _ mem),
      Option.map_map]
    · rfl
    all_goals simp_all

theorem split?_written (h : Written c bytes) (rest : List UInt8) :
    split? (bytes ++ rest) = (split? rest).map fun (body, after) => (bytes ++ body, after) := by
  cases h with
  | escape letter _ special value => simp [split?, value, special]
  | control digits a b d e _ same value =>
    subst same
    simp [split?, value]
  | plain h => exact split?_plain rest h

theorem split?_bodyBytes (cs : List Char) (after : List UInt8) :
    split? (bodyBytes cs ++ 0x22 :: after) = some (bodyBytes cs, after) := by
  induction cs with
  | nil => simp [bodyBytes, split?]
  | cons c cs ih =>
    rw [bodyBytes_cons, List.append_assoc, split?_written (written_charBytes c), ih]
    rfl

theorem unescape?_plain {bytes : List UInt8} (rest : List UInt8)
    (h : ∀ b ∈ bytes, 0x20 ≤ b ∧ b ≠ 0x22 ∧ b ≠ 0x5C) :
    unescape? (bytes ++ rest) = (unescape? rest).map (bytes ++ ·) := by
  induction bytes with
  | nil => simp
  | cons b bytes ih =>
    have backslash := (h b List.mem_cons_self).2.2
    rw [List.cons_append, unescape?, ih fun b mem => h b (List.mem_cons_of_mem _ mem),
      Option.map_map]
    · rfl
    all_goals simp_all

theorem unescape?_written (h : Written c bytes) (rest : List UInt8) :
    unescape? (bytes ++ rest) = (unescape? rest).map (String.utf8EncodeChar c ++ ·) := by
  cases h with
  | escape letter small special value =>
    rw [Utf8.utf8EncodeChar_ascii small]
    simp [unescape?, value, special]
  | control digits a b d e small same value =>
    subst same
    have here : Char.ofNat c.toNat = c := Char.ofNat_toNat c
    simp only [List.cons_append, List.nil_append, unescape?, value, here]
    rw [if_neg (by omega), if_neg (by omega)]
  | plain h => exact unescape?_plain rest h

theorem unescape?_bodyBytes (cs : List Char) :
    unescape? (bodyBytes cs) = some (Utf8.ofChars cs) := by
  induction cs with
  | nil => rfl
  | cons c cs ih =>
    rw [bodyBytes_cons, unescape?_written (written_charBytes c), ih]
    rfl

@[simp] theorem unquote?_bodyBytes (s : String) : unquote? (bodyBytes s.toList) = some s := by
  rw [unquote?, unescape?_bodyBytes]
  exact Utf8.fromUTF8?_ofChars s

end SlotLease.Json
