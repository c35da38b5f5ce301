import Mathlib.Tactic.SplitIfs

namespace SlotLease.Utf8

def ofChars (cs : List Char) : List UInt8 := cs.flatMap String.utf8EncodeChar

theorem toUTF8_toList (s : String) : s.toUTF8.data.toList = ofChars s.toList := by
  rw [String.toUTF8, ← String.utf8Encode_toList, List.utf8Encode, ofChars]
  simp

theorem ofChars_cons (c : Char) (cs : List Char) :
    ofChars (c :: cs) = String.utf8EncodeChar c ++ ofChars cs := rfl

@[simp] theorem ofChars_append (l l' : List Char) : ofChars (l ++ l') = ofChars l ++ ofChars l' :=
  List.flatMap_append

theorem fromUTF8?_ofChars (s : String) :
    String.fromUTF8? ⟨(ofChars s.toList).toArray⟩ = some s := by
  have whole : ByteArray.mk (ofChars s.toList).toArray = s.toUTF8 := by
    rw [← toUTF8_toList]
  rw [whole, String.fromUTF8?, String.toUTF8_eq_toByteArray, dif_pos s.isValidUTF8]
  rfl

theorem ofChars_injective {s t : String} (h : ofChars s.toList = ofChars t.toList) : s = t := by
  have := fromUTF8?_ofChars s
  rw [h, fromUTF8?_ofChars] at this
  exact (Option.some.inj this).symm

theorem utf8EncodeChar_ascii (h : c.toNat < 128) :
    String.utf8EncodeChar c = [c.toNat.toUInt8] := by
  have h : c.val.toNat ≤ 127 := by
    have : c.val.toNat = c.toNat := rfl
    omega
  simp only [String.utf8EncodeChar, if_pos h]
  rfl

theorem le_of_mem_utf8EncodeChar (h : 128 ≤ c.toNat) (mem : b ∈ String.utf8EncodeChar c) :
    128 ≤ b.toNat := by
  have h : ¬ c.val.toNat ≤ 127 := by
    have : c.val.toNat = c.toNat := rfl
    omega
  simp only [String.utf8EncodeChar, if_neg h] at mem
  split at mem
  · simp at mem
    rcases mem with rfl | rfl <;> simp <;> omega
  · split at mem
    · simp at mem
      rcases mem with rfl | rfl | rfl <;> simp <;> omega
    · simp at mem
      rcases mem with rfl | rfl | rfl | rfl <;> simp <;> omega

theorem utf8EncodeChar_append_lt {c d : Char} (h : c < d) (l l' : List UInt8) :
    String.utf8EncodeChar c ++ l < String.utf8EncodeChar d ++ l' := by
  have h : c.val.toNat < d.val.toNat := h
  have top : d.val.toNat < 0x110000 := by
    have := d.valid
    simp only [UInt32.isValidChar, Nat.isValidChar] at this
    omega
  simp only [String.utf8EncodeChar]
  -- more bytes begin higher, and as many are digits in base 64 from the top
  split_ifs <;>
    simp only [List.cons_append, List.nil_append, List.cons_lt_cons_iff, UInt8.lt_iff_toNat_lt,
      ← UInt8.toNat_inj, UInt8.toNat_ofNat'] <;>
    simp (disch := omega) only [Nat.mod_eq_of_lt] <;>
    omega

theorem ofChars_lt {cs ds : List Char} (h : cs < ds) : ofChars cs < ofChars ds := by
  induction cs generalizing ds with
  | nil =>
    cases ds with
    | nil => exact absurd h (List.lt_irrefl _)
    | cons d ds =>
      rw [ofChars_cons]
      cases bytes : String.utf8EncodeChar d with
      | nil => exact absurd bytes String.utf8EncodeChar_ne_nil
      | cons b bs => exact List.nil_lt_cons ..
  | cons c cs ih =>
    cases ds with
    | nil => exact absurd h (List.not_lt_nil _)
    | cons d ds =>
      rw [ofChars_cons, ofChars_cons]
      rcases List.cons_lt_cons_iff.1 h with below | ⟨rfl, below⟩
      · exact utf8EncodeChar_append_lt below _ _
      · exact List.append_left_lt (ih below)

theorem toUTF8_lt {s t : String} (h : s < t) : s.toUTF8.data.toList < t.toUTF8.data.toList := by
  rw [toUTF8_toList, toUTF8_toList]
  exact ofChars_lt h

theorem length_ofChars (s : String) : (ofChars s.toList).length = s.utf8ByteSize := by
  rw [← toUTF8_toList]
  rfl

theorem ofChars_ascii (h : ∀ c ∈ cs, c.toNat < 128) :
    ofChars cs = cs.map fun c => c.toNat.toUInt8 := by
  induction cs with
  | nil => rfl
  | cons c cs ih =>
    rw [ofChars_cons, utf8EncodeChar_ascii (h c List.mem_cons_self),
      ih fun c mem => h c (List.mem_cons_of_mem _ mem)]
    rfl

theorem utf8ByteSize_of_ascii {cs : List Char} (h : ∀ c ∈ cs, c.toNat < 128) :
    (String.ofList cs).utf8ByteSize = cs.length := by
  rw [← length_ofChars, String.toList_ofList, ofChars_ascii h, List.length_map]

end SlotLease.Utf8
