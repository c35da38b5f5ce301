import SlotLease.Json.Value
import SlotLease.Proofs.Json.Literal
import SlotLease.Proofs.Text.Decimal

namespace SlotLease.Json

def numberBytes (n : Nat) : List UInt8 := Utf8.ofChars (Decimal.digits n)

def EndsNumber : List UInt8 → Prop
  | [] => True
  | b :: _ => isDigit b = false ∧ b ≠ 0x2E ∧ b ≠ 0x65 ∧ b ≠ 0x45

theorem quoteBytes_append (s : String) (rest : List UInt8) :
    quoteBytes s ++ rest = 0x22 :: (bodyBytes s.toList ++ 0x22 :: rest) := by
  simp [quoteBytes]

theorem numberBytes_eq_map (n : Nat) :
    numberBytes n = (Decimal.digits n).map fun c => c.toNat.toUInt8 :=
  Utf8.ofChars_ascii fun _ mem => by
    have := Decimal.isDigit_of_mem_digits mem
    omega

theorem isDigit_of_mem_numberBytes (h : b ∈ numberBytes n) : isDigit b = true := by
  rw [numberBytes_eq_map, List.mem_map] at h
  obtain ⟨c, mem, rfl⟩ := h
  have := Decimal.isDigit_of_mem_digits mem
  simp [isDigit, UInt8.le_iff_toNat_le]
  omega

theorem asciiChars_numberBytes (n : Nat) : asciiChars (numberBytes n) = Decimal.digits n := by
  rw [numberBytes_eq_map, asciiChars, List.map_map]
  refine (List.map_congr_left fun c mem => ?_).trans (List.map_id _)
  have := Decimal.isDigit_of_mem_digits mem
  have bytes : c.toNat.toUInt8.toNat = c.toNat := by
    simp
    omega
  simp only [Function.comp, bytes, Char.ofNat_toNat, id]

theorem numberBytes_ne_nil (n : Nat) : numberBytes n ≠ [] := by
  rw [numberBytes_eq_map]
  simpa using Decimal.digits_ne_nil n

theorem numberBytes_eq_cons (n : Nat) :
    ∃ b bytes, numberBytes n = b :: bytes ∧ ∀ d, isDigit d = false → b ≠ d := by
  cases h : numberBytes n with
  | nil => exact absurd h (numberBytes_ne_nil n)
  | cons b bytes =>
    refine ⟨b, bytes, rfl, fun d no same => ?_⟩
    have digit : isDigit b = true :=
      isDigit_of_mem_numberBytes (n := n) (by rw [h]; exact List.mem_cons_self)
    rw [same, no] at digit
    exact absurd digit (by decide)

theorem numberBytes_cons_zero (h : numberBytes n = 0x30 :: rest) : n = 0 := by
  apply Classical.byContradiction
  intro pos
  apply Decimal.head?_digits (Nat.pos_of_ne_zero pos)
  rw [← asciiChars_numberBytes, h]
  rfl

theorem skipDigits?_append {bytes rest : List UInt8} (filled : bytes ≠ [])
    (digits : ∀ b ∈ bytes, isDigit b = true) (ends : EndsNumber rest) :
    skipDigits? (bytes ++ rest) = some rest := by
  cases bytes with
  | nil => exact absurd rfl filled
  | cons b bytes =>
    have tail : (bytes ++ rest).dropWhile isDigit = rest := by
      rw [List.dropWhile_append_of_pos fun b mem => digits b (List.mem_cons_of_mem _ mem)]
      cases rest with
      | nil => rfl
      | cons d rest => simp [ends.1]
    simp [skipDigits?, digits b List.mem_cons_self, tail]

theorem skipInteger?_numberBytes (n : Nat) (ends : EndsNumber rest) :
    skipInteger? (numberBytes n ++ rest) = some rest := by
  by_cases zero : n = 0
  · subst zero
    rw [numberBytes, Decimal.digits_of_lt (by decide)]
    show skipInteger? (0x30 :: rest) = some rest
    cases rest with
    | nil => rfl
    | cons b rest => simp [skipInteger?, ends.1]
  · have digits := skipDigits?_append (numberBytes_ne_nil n)
      (fun b mem => isDigit_of_mem_numberBytes mem) ends
    cases h : numberBytes n with
    | nil => exact absurd h (numberBytes_ne_nil n)
    | cons b bytes =>
      rw [h] at digits
      rw [← digits]
      have : b ≠ 0x30 := fun zero' => zero (numberBytes_cons_zero (zero' ▸ h))
      simp [skipInteger?, this]

theorem skipNumber?_numberBytes (n : Nat) (ends : EndsNumber rest) :
    skipNumber? (numberBytes n ++ rest) = some rest := by
  have unsigned : ∀ input, skipInteger? (numberBytes n ++ rest) = some input →
      skipNumber? (numberBytes n ++ rest) = (skipFraction? input).bind skipExponent? := by
    intro input integer
    obtain ⟨b, bytes, h, other⟩ := numberBytes_eq_cons n
    rw [h] at integer ⊢
    simp only [List.cons_append] at integer
    simp [skipNumber?, other 0x2D (by decide), integer]
  rw [unsigned rest (skipInteger?_numberBytes n ends)]
  cases rest with
  | nil => rfl
  | cons b rest => simp [skipFraction?, skipExponent?, ends.2.1, ends.2.2.1, ends.2.2.2]

section Rounds

-- The equations of a round are long, so they are worked out once.
attribute [local simp] skipRounds? skipBlanks isBlank

def Stands (value rest : List UInt8) : Prop :=
  skipBlanks (value ++ rest) = value ++ rest ∧ ∀ rounds opened,
    skipRounds? (rounds + 1) true opened (value ++ rest) = skipRounds? rounds false opened rest

theorem stands_quoteBytes (s : String) (rest : List UInt8) : Stands (quoteBytes s) rest := by
  rw [Stands, quoteBytes_append]
  refine ⟨by simp, fun rounds opened => ?_⟩
  simp [skipScalar?, split?_bodyBytes]

theorem stands_numberBytes (n : Nat) (ends : EndsNumber rest) : Stands (numberBytes n) rest := by
  have number := skipNumber?_numberBytes n ends
  obtain ⟨b, bytes, h, other⟩ := numberBytes_eq_cons n
  rw [Stands, h]
  have blanks : skipBlanks (b :: bytes ++ rest) = b :: bytes ++ rest := by
    simp [other 0x20 (by decide), other 0x09 (by decide),
      other 0x0A (by decide), other 0x0D (by decide)]
  rw [h] at number
  refine ⟨blanks, fun rounds opened => ?_⟩
  rw [skipRounds?, blanks]
  simp only [List.cons_append] at number ⊢
  simp [skipScalar?, number, other 0x5B (by decide), other 0x7B (by decide),
    other 0x22 (by decide), other 0x6E (by decide), other 0x74 (by decide),
    other 0x66 (by decide)]

theorem splitValue?_of_skipRounds? {value rest : List UInt8}
    (blanks : skipBlanks (value ++ rest) = value ++ rest)
    (rounds : skipRounds? ((value ++ rest).length + 1) true [] (value ++ rest) = some rest) :
    splitValue? (value ++ rest) = some (⟨value⟩, rest) := by
  have : (value ++ rest).length - rest.length = value.length := by simp
  rw [splitValue?, blanks]
  simp only [rounds, Option.map_some, this, List.take_left]

theorem Stands.splitValue? (h : Stands value rest) (filled : value ≠ []) :
    splitValue? (value ++ rest) = some (⟨value⟩, rest) := by
  apply splitValue?_of_skipRounds? h.1
  rw [h.2]
  cases value with
  | nil => exact absurd rfl filled
  | cons b value => rfl

theorem splitName?_quoteBytes (name : String) (rest : List UInt8) :
    splitName? (quoteBytes name ++ 0x3A :: rest) = some (bodyBytes name.toList, rest) := by
  rw [quoteBytes_append]
  simp [splitName?, split?_bodyBytes]

theorem skipRounds?_object (rounds : Nat) (opened : List Bracket) (name : String)
    (rest : List UInt8) :
    skipRounds? (rounds + 1) true opened (0x7B :: (quoteBytes name ++ 0x3A :: rest)) =
      skipRounds? rounds true (.object :: opened) rest := by
  have name := splitName?_quoteBytes name rest
  rw [quoteBytes_append] at name ⊢
  simp [name]

theorem skipRounds?_member (rounds : Nat) (opened : List Bracket) (name : String)
    (rest : List UInt8) :
    skipRounds? (rounds + 1) false (.object :: opened) (0x2C :: (quoteBytes name ++ 0x3A :: rest)) =
      skipRounds? rounds true (.object :: opened) rest := by
  simp [splitName?_quoteBytes]

theorem skipRounds?_endObject (rounds : Nat) (opened : List Bracket) (rest : List UInt8) :
    skipRounds? (rounds + 1) false (.object :: opened) (0x7D :: rest) =
      skipRounds? rounds false opened rest := by
  simp

theorem skipRounds?_element (rounds : Nat) (opened : List Bracket) (rest : List UInt8) :
    skipRounds? (rounds + 1) false (.list :: opened) (0x2C :: rest) =
      skipRounds? rounds true (.list :: opened) rest := by
  simp

theorem skipRounds?_endList (rounds : Nat) (opened : List Bracket) (rest : List UInt8) :
    skipRounds? (rounds + 1) false (.list :: opened) (0x5D :: rest) =
      skipRounds? rounds false opened rest := by
  simp

theorem skipRounds?_list (rounds : Nat) (opened : List Bracket) (n : Nat) (rest : List UInt8) :
    skipRounds? (rounds + 1) true opened (0x5B :: (numberBytes n ++ rest)) =
      skipRounds? rounds true (.list :: opened) (numberBytes n ++ rest) := by
  obtain ⟨b, bytes, h, other⟩ := numberBytes_eq_cons n
  rw [h]
  simp [other 0x20 (by decide), other 0x09 (by decide),
    other 0x0A (by decide), other 0x0D (by decide), other 0x5D (by decide)]

end Rounds

theorem membersFrom?_cons (rounds : Nat) (name : String) (filled : value ≠ [])
    (h : Stands value (0x2C :: rest)) :
    membersFrom? (rounds + 1) (quoteBytes name ++ 0x3A :: (value ++ 0x2C :: rest)) =
      (membersFrom? rounds rest).map ((name, ⟨value⟩) :: ·) := by
  simp [membersFrom?, splitName?_quoteBytes, h.splitValue? filled, skipBlanks, isBlank]

theorem membersFrom?_last (rounds : Nat) (name : String) (filled : value ≠ [])
    (h : Stands value [0x7D]) :
    membersFrom? (rounds + 1) (quoteBytes name ++ 0x3A :: (value ++ [0x7D])) =
      some [(name, ⟨value⟩)] := by
  simp [membersFrom?, splitName?_quoteBytes, h.splitValue? filled, skipBlanks, isBlank]

theorem elementsFrom?_cons (rounds : Nat) (filled : value ≠ []) (h : Stands value (0x2C :: rest)) :
    elementsFrom? (rounds + 1) (value ++ 0x2C :: rest) =
      (elementsFrom? rounds rest).map (⟨value⟩ :: ·) := by
  simp [elementsFrom?, h.splitValue? filled, skipBlanks, isBlank]

theorem elementsFrom?_last (rounds : Nat) (filled : value ≠ []) (h : Stands value [0x5D]) :
    elementsFrom? (rounds + 1) (value ++ [0x5D]) = some [⟨value⟩] := by
  simp [elementsFrom?, h.splitValue? filled, skipBlanks, isBlank]

theorem elements?_list (rest : List UInt8) :
    elements? ⟨0x5B :: rest⟩ =
      if skipBlanks rest = [0x5D] then some [] else elementsFrom? rest.length rest := rfl

theorem members?_object (rest : List UInt8) :
    members? ⟨0x7B :: rest⟩ =
      if skipBlanks rest = [0x7D] then some [] else membersFrom? rest.length rest := rfl

@[simp] theorem string?_quoteBytes (s : String) : string? ⟨quoteBytes s⟩ = some s := by
  simp [string?, quoteBytes, split?_bodyBytes]

@[simp] theorem word?_numberBytes (w : UInt64) : word? ⟨numberBytes w.toNat⟩ = some w := by
  have bound : w.toNat ≤ UInt64.size - 1 := by
    have := w.toNat_lt
    simp only [UInt64.size]
    omega
  rw [word?, nat?, asciiChars_numberBytes, Decimal.read?_digits]
  simp only [Option.filter, decide_eq_true_eq, if_pos bound, Option.map_some]
  simp

end SlotLease.Json
