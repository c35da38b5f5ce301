import SlotLease.KeySpace
import SlotLease.Proofs.Text.Decimal
import SlotLease.Proofs.Text.Upper

namespace SlotLease

theorem Upper.flatMap_ofChar_digits (n : Nat) :
    (Decimal.digits n).flatMap ofChar = Decimal.digits n := by
  have digit : ∀ d : Fin 10, ofChar (Decimal.digitChar d) = [Decimal.digitChar d] := by decide
  induction n using Nat.strongRecOn with
  | ind n ih =>
    by_cases small : n < 10
    · simpa [Decimal.digits_of_lt small] using digit ⟨n, small⟩
    · rw [Decimal.digits_of_le (by omega), List.flatMap_append, ih (n / 10) (by omega)]
      simpa using digit ⟨n % 10, by omega⟩

theorem Decimal.colon_not_mem_digits (n : Nat) : ':' ∉ digits n := by
  intro mem
  have := isDigit_of_mem_digits mem
  rw [show (':' : Char).toNat = 58 from rfl] at this
  omega

namespace KeySpace

variable (keys : KeySpace)

def numbers (slot : Slot) : List Char :=
  Decimal.digits slot.datacenter.toNat ++ ':' :: Decimal.digits slot.worker.toNat

theorem leaseKey_toList (slot : Slot) :
    (keys.leaseKey slot).toList = keys.scanRoot.toList ++ numbers slot := by
  have colon : ":".toList = [':'] := rfl
  have upper : ∀ n, (Upper.ofString (Decimal.text n)).toList = Decimal.digits n := by
    intro n
    simp [Upper.ofString, Decimal.text, Upper.flatMap_ofChar_digits]
  simp [leaseKey, scanRoot, composeKey, numbers, upper, colon]

theorem scanRoot_isPrefixOf (slot : Slot) :
    keys.scanRoot.toList.isPrefixOf (keys.leaseKey slot).toList = true := by
  rw [leaseKey_toList, List.isPrefixOf_iff_prefix]
  exact List.prefix_append _ _

theorem leaseKey_ne_empty (slot : Slot) : keys.leaseKey slot ≠ "" := by
  intro empty
  have := congrArg String.toList empty
  simp [leaseKey_toList, numbers] at this

theorem numbers_injective (h : numbers s = numbers t) : s = t := by
  have digit : ∀ n, ∀ c ∈ Decimal.digits n, decide (c ≠ ':') = true := fun n c mem =>
    decide_eq_true fun colon => Decimal.colon_not_mem_digits n (colon ▸ mem)
  have datacenter := congrArg (List.takeWhile (· ≠ ':')) h
  simp only [numbers, List.takeWhile_append_of_pos (digit _), List.takeWhile_cons] at datacenter
  have datacenter := UInt64.toNat_inj.1 (Decimal.digits_injective (by simpa using datacenter))
  simp only [numbers, datacenter, List.append_cancel_left_eq, List.cons.injEq, true_and] at h
  have worker := UInt64.toNat_inj.1 (Decimal.digits_injective h)
  cases s
  cases t
  simp_all

theorem leaseKey_injective (h : keys.leaseKey s = keys.leaseKey t) : s = t := by
  have := congrArg String.toList h
  rw [leaseKey_toList, leaseKey_toList] at this
  exact numbers_injective (List.append_cancel_left this)

theorem splitPieces_of_colonless {piece : List Char} (colonless : ':' ∉ piece) :
    splitPieces piece = [piece] := by
  induction piece with
  | nil => rfl
  | cons c rest ih =>
    rw [List.mem_cons, not_or] at colonless
    rw [splitPieces, ih colonless.2]
    exact fun colon => colonless.1 colon.symm

theorem splitPieces_append {piece : List Char} (colonless : ':' ∉ piece) (rest : List Char) :
    splitPieces (piece ++ ':' :: rest) = piece :: splitPieces rest := by
  induction piece with
  | nil => rfl
  | cons c rest' ih =>
    rw [List.mem_cons, not_or] at colonless
    rw [List.cons_append, splitPieces, ih colonless.2]
    exact fun colon => colonless.1 colon.symm

theorem eq_of_splitPieces {text piece next : List Char} {rest : List (List Char)}
    (h : splitPieces text = piece :: next :: rest) :
    ∃ behind, text = piece ++ ':' :: behind ∧ splitPieces behind = next :: rest := by
  fun_induction splitPieces text generalizing piece with
  | case1 => cases h
  | case2 behind =>
    obtain ⟨rfl, pieces⟩ := List.cons.inj h
    exact ⟨behind, rfl, pieces⟩
  | case3 c behind _ first pieces split ih =>
    obtain ⟨rfl, rfl⟩ := List.cons.inj h
    obtain ⟨behind', rfl, h⟩ := ih split
    exact ⟨behind', rfl, h⟩
  | case4 => cases h

structure Proper (keys : KeySpace) : Prop where
  head : Upper.ofString keys.head = keys.head ∧ ':' ∉ keys.head.toList
  subject : Upper.ofString keys.subject = keys.subject ∧ ':' ∉ keys.subject.toList

theorem proper_ofPieces {head subject : String} (colonless : ':' ∉ head.toList)
    (colonless' : ':' ∉ subject.toList) : (ofPieces head subject).Proper where
  head := ⟨Upper.ofString_ofString head, fun mem => colonless (Upper.colon_of_mem_ofString mem)⟩
  subject :=
    ⟨Upper.ofString_ofString subject, fun mem => colonless' (Upper.colon_of_mem_ofString mem)⟩

theorem Proper.scanRoot_toList {keys : KeySpace} (proper : keys.Proper) :
    keys.scanRoot.toList = keys.head.toList ++ ':' :: (keys.subject.toList ++ [':']) := by
  simp only [scanRoot, composeKey, List.foldl_cons, List.foldl_nil, String.toList_append,
    proper.head.1, proper.subject.1, show ":".toList = [':'] from rfl, List.append_assoc,
    List.cons_append, List.nil_append]

theorem Proper.slotOf?_leaseKey {keys : KeySpace} (proper : keys.Proper) (slot : Slot) :
    keys.slotOf? (keys.leaseKey slot) = some slot := by
  have pieces : splitPieces (keys.leaseKey slot).toList = [keys.head.toList, keys.subject.toList,
      Decimal.digits slot.datacenter.toNat, Decimal.digits slot.worker.toNat] := by
    rw [leaseKey_toList, proper.scanRoot_toList, numbers, List.append_assoc, List.cons_append,
      List.append_assoc, List.singleton_append, splitPieces_append proper.head.2,
      splitPieces_append proper.subject.2, splitPieces_append (Decimal.colon_not_mem_digits _),
      splitPieces_of_colonless (Decimal.colon_not_mem_digits _)]
  have read : ∀ word : UInt64,
      Decimal.parseWord? (String.ofList (Decimal.digits word.toNat)) = some word :=
    Decimal.parseWord?_text
  simp only [slotOf?, pieces, String.ofList_toList, and_self, if_true, read]
  rfl

theorem Proper.scanRoot_prefix {keys : KeySpace} (proper : keys.Proper) {key : String}
    (names : keys.slotOf? key = some slot) : keys.scanRoot.toList <+: key.toList := by
  unfold slotOf? at names
  split at names
  case h_2 => cases names
  case h_1 head subject datacenter worker rest split =>
    split at names
    case isFalse => cases names
    case isTrue own =>
      obtain ⟨behind, whole, split⟩ := eq_of_splitPieces split
      obtain ⟨behind', rfl, -⟩ := eq_of_splitPieces split
      refine ⟨behind', ?_⟩
      rw [whole, proper.scanRoot_toList, ← own.1, ← own.2, String.toList_ofList,
        String.toList_ofList]
      simp only [List.append_assoc, List.cons_append, List.nil_append]

theorem Proper.splitPieces_of_prefix {keys : KeySpace} (proper : keys.Proper) {key : List Char}
    (root : keys.scanRoot.toList <+: key) :
    ∃ rest, splitPieces key = keys.head.toList :: keys.subject.toList :: rest := by
  obtain ⟨behind, rfl⟩ := root
  refine ⟨splitPieces behind, ?_⟩
  rw [proper.scanRoot_toList, List.append_assoc, List.cons_append, List.append_assoc,
    List.singleton_append, splitPieces_append proper.head.2, splitPieces_append proper.subject.2]

theorem Proper.eq_of_scanRoot_prefix {keys other : KeySpace} (proper : keys.Proper)
    (proper' : other.Proper) (root : other.scanRoot.toList <+: (keys.leaseKey slot).toList) :
    keys = other := by
  have own : keys.scanRoot.toList <+: (keys.leaseKey slot).toList :=
    List.isPrefixOf_iff_prefix.1 (keys.scanRoot_isPrefixOf slot)
  obtain ⟨rest, split⟩ := proper.splitPieces_of_prefix own
  obtain ⟨rest', split'⟩ := proper'.splitPieces_of_prefix root
  obtain ⟨head, subject, -⟩ : keys.head.toList = other.head.toList ∧
      keys.subject.toList = other.subject.toList ∧ rest = rest' := by
    simpa only [List.cons.injEq] using split.symm.trans split'
  cases keys
  cases other
  rw [mk.injEq]
  exact ⟨String.toList_injective head, String.toList_injective subject⟩

end KeySpace

end SlotLease
