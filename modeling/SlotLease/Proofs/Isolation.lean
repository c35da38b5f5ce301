import SlotLease.Proofs.KeySpace
import SlotLease.Settings

namespace SlotLease.KeySpace

theorem proper_of_isPiece {head subject : String} (piece : Settings.isPiece head = true)
    (piece' : Settings.isPiece subject = true) : (ofPieces head subject).Proper := by
  simp only [Settings.isPiece, Bool.and_eq_true, Bool.not_eq_true', List.contains_eq_mem,
    decide_eq_false_iff_not] at piece piece'
  exact proper_ofPieces piece.2 piece'.2

structure RoundTrips (keys : KeySpace) : Prop where
  read : ∀ slot, keys.slotOf? (keys.leaseKey slot) = some slot
  root : ∀ slot, keys.scanRoot.toList <+: (keys.leaseKey slot).toList
  injective : Function.Injective keys.leaseKey
  only : ∀ key slot, keys.slotOf? key = some slot → keys.scanRoot.toList <+: key.toList

structure Strange (keys other : KeySpace) : Prop where
  unlisted : ∀ slot, ¬ other.scanRoot.toList <+: (keys.leaseKey slot).toList
  unread : ∀ slot, other.slotOf? (keys.leaseKey slot) = none

theorem Proper.roundTrips {keys : KeySpace} (proper : keys.Proper) : keys.RoundTrips where
  read := proper.slotOf?_leaseKey
  root slot := List.isPrefixOf_iff_prefix.1 (keys.scanRoot_isPrefixOf slot)
  injective _ _ same := keys.leaseKey_injective same
  only _ _ names := proper.scanRoot_prefix names

theorem Proper.strange {keys other : KeySpace} (proper : keys.Proper) (proper' : other.Proper)
    (differ : keys ≠ other) : keys.Strange other where
  unlisted _ root := differ (proper.eq_of_scanRoot_prefix proper' root)
  unread slot := by
    cases names : other.slotOf? (keys.leaseKey slot) with
    | none => rfl
    | some _ =>
      have root := proper'.scanRoot_prefix names
      exact absurd (proper.eq_of_scanRoot_prefix proper' root) differ

/-- The key space of accepted pieces holds one key for each slot and reads it back, and another one
is strange to it as soon as either piece differs in upper case. -/
theorem spaces_isolated {head subject head' subject' : String}
    (piece : Settings.isPiece head = true) (piece' : Settings.isPiece subject = true)
    (other : Settings.isPiece head' = true) (other' : Settings.isPiece subject' = true) :
    (ofPieces head subject).RoundTrips ∧
      (Upper.ofString head ≠ Upper.ofString head' ∨
          Upper.ofString subject ≠ Upper.ofString subject' →
        (ofPieces head subject).Strange (ofPieces head' subject')) := by
  refine ⟨(proper_of_isPiece piece piece').roundTrips, fun differ => ?_⟩
  refine (proper_of_isPiece piece piece').strange (proper_of_isPiece other other') fun same => ?_
  obtain ⟨head, subject⟩ := mk.inj same
  exact differ.elim (· head) (· subject)

theorem spaces_isolated_expanded :
    ofPieces "straße" "node" = ⟨"STRASSE", "NODE"⟩ ∧ (ofPieces "straße" "node").RoundTrips ∧
      (ofPieces "straße" "node").Strange (ofPieces "strase" "node") := by
  have upper : Upper.ofString "straße" = "STRASSE" := by decide +kernel
  have isolated := spaces_isolated (by decide : Settings.isPiece "straße" = true)
    (by decide : Settings.isPiece "node" = true) (by decide : Settings.isPiece "strase" = true)
    (by decide : Settings.isPiece "node" = true)
  refine ⟨by decide +kernel, isolated.1, isolated.2 (.inl ?_)⟩
  rw [upper]
  decide +kernel

end SlotLease.KeySpace
