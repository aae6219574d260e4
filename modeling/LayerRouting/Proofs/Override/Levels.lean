import LayerRouting.Proofs.Override.Codec
import LayerRouting.Proofs.Override.Places
import LayerRouting.Proofs.Override.SetOutcome

/-!
# Levels after an edit

Setting a value nests a tree no more than its path and the value ask for
(`Json.Fits.setAt`). A log whose ops fit into some levels therefore still does when a draft
has set a path that is not too deep (`Draft.fits_setPath`).
-/

namespace LayerRouting

variable {numbers : Number -> Prop}

namespace Json.Fits

/-! ## Setting a value -/

theorem child? {levels : Nat} {tree child : Json} (fits : tree.Fits numbers (levels + 1))
    {segment : Segment} (found : tree.child? segment = some child) :
    child.Fits numbers levels := by
  cases fits with
  | null | bool | number | string => cases found
  | array fit =>
      obtain ⟨position, -, held⟩ := Option.bind_eq_some_iff.mp found
      exact fit child (List.mem_of_getElem? held)
  | object fit distinct => exact fit _ (Entries.mem_of_get? found)

theorem emptyFor (levels : Nat) (segment : Segment) :
    (Json.emptyFor segment).Fits numbers (levels + 1) := by
  cases segment with
  | key name => exact .object (List.forall_mem_nil _) List.nodup_nil
  | index position => exact .array (List.forall_mem_nil _)

theorem containerFor {levels : Nat} {tree : Json} (fits : tree.Fits numbers (levels + 1))
    (segment : Segment) : (tree.containerFor segment).Fits numbers (levels + 1) := by
  cases tree with
  | object entries => exact fits
  | array items =>
      rw [Json.containerFor]
      split
      · exact fits
      · exact emptyFor levels segment
  | null | bool | number | string => exact emptyFor levels segment

theorem setChild {levels : Nat} {tree value : Json} (fits : tree.Fits numbers (levels + 1))
    (valueFits : value.Fits numbers levels) (segment : Segment) :
    (tree.setChild segment value).Fits numbers (levels + 1) := by
  cases fits with
  | null => exact .null
  | bool value => exact .bool value
  | number known => exact .number known
  | string value => exact .string value
  | array fit =>
      rw [Json.setChild]
      split
      · refine .array fun item member => ?_
        rcases List.mem_or_eq_of_mem_set member with old | rfl
        · rcases List.mem_append.mp old with held | filled
          · exact fit item held
          · rw [List.eq_of_mem_replicate filled]
            exact .null
        · exact valueFits
      · exact .array fit
  | object fit distinct =>
      refine .object (fun entry member => ?_) (Entries.nodup_keys_insert distinct _ _)
      rcases Entries.mem_of_mem_insert member with same | old
      · exact same ▸ valueFits
      · exact fit entry old

/-- Setting a value asks for the levels of its path above those of the value. -/
theorem setAt {inner levels : Nat} {tree value : Json} (fits : tree.Fits numbers levels)
    (valueFits : value.Fits numbers inner) {path : Path} (enough : inner + path.length ≤ levels) :
    (tree.setAt path value).Fits numbers levels := by
  induction path generalizing tree levels with
  | nil => exact valueFits.mono enough
  | cons segment rest inductionHypothesis =>
      rw [List.length_cons] at enough
      obtain ⟨below, rfl⟩ : ∃ below, levels = below + 1 := ⟨levels - 1, by omega⟩
      rw [setAt_cons]
      refine (fits.containerFor segment).setChild (inductionHypothesis ?_ (by omega)) segment
      cases found : tree.child? segment with
      | none => exact .null
      | some child => exact fits.child? found

end Json.Fits

namespace Draft

/-! ## Drafts -/

/-- Setting a path keeps the ops of a draft within their levels, if the path and the value
stay within them. -/
theorem fits_setPath {draft : Draft} {levels inner : Nat}
    (fit : ∀ op ∈ draft.log, op.Fits numbers levels) {path : Path} {value : Json}
    (valueFits : value.Fits numbers inner) (enough : inner + path.length ≤ levels) :
    ∀ op ∈ (draft.setPath path value).log, op.Fits numbers levels := by
  refine forall_mem_setPath fit (fun id _ => valueFits.mono (by omega)) ?_
  intro id ancestor container rest member below
  have held : container.Fits numbers levels := fit _ (mem_dropWithin.mp member).1
  have shorter : rest.length ≤ path.length := by
    rw [(Path.relativeTo?_eq_some_iff.mp below).2, List.length_drop]
    omega
  exact held.setAt valueFits (by omega)

end Draft

end LayerRouting
