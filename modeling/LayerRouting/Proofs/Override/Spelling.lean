import LayerRouting.Override.Resolution
import LayerRouting.Proofs.Override.Places

/-!
# Places by their texts

The ops of a log are compared by the texts of their paths, while a tree reads a segment as a key in
an object and as an index in an array. The two agree: paths that have the same texts, segment by
segment, lead to the same value and delete the same one, in every tree, and being within another
path is a matter of texts as well (`Path.goesByText`). Setting is left out, since the container
that it makes goes by the kind of the segment.
-/

namespace LayerRouting

namespace Path

/-- Whether two paths are of one length and their segments have the same texts one by one. -/
def Matches (left right : Path) : Prop :=
  List.Forall₂ Segment.Matches left right

theorem matches_iff {left right : Path} : left.Matches right ↔ left.keys = right.keys := by
  rw [keys, keys, ← List.forall₂_eq_eq_eq, List.forall₂_map_left_iff, List.forall₂_map_right_iff]
  rfl

/-- A path is within another one whose segments have the texts of its first segments. -/
theorem isWithin_iff_matches {path ancestor : Path} :
    path.isWithin ancestor ↔ ∃ start rest, path = start ++ rest ∧ ancestor.Matches start := by
  rw [isWithin_iff]
  constructor
  · intro begins
    refine ⟨path.take ancestor.length, path.drop ancestor.length,
      (List.take_append_drop _ path).symm, ?_⟩
    rw [matches_iff, List.prefix_iff_eq_take.mp begins, length_keys, keys, keys, List.map_take]
  · rintro ⟨start, rest, rfl, same⟩
    rw [matches_iff.mp same, keys_append]
    exact List.prefix_append _ _

theorem isWithin_trans {path ancestor outer : Path} (within : path.isWithin ancestor)
    (further : ancestor.isWithin outer) : path.isWithin outer :=
  isWithin_iff.mpr ((isWithin_iff.mp further).trans (isWithin_iff.mp within))

/-- What was put below a path is left of it. -/
theorem relativeTo?_append (path rest : Path) : relativeTo? (path ++ rest) path = some rest := by
  refine relativeTo?_eq_some_iff.mpr ⟨?_, (List.drop_left).symm⟩
  rw [keys_append]
  exact List.prefix_append _ _

/-- What is left below an ancestor is the end of the path that gives its texts together with the
ancestor. -/
theorem relativeTo?_iff_matches {path ancestor rest : Path} :
    path.relativeTo? ancestor = some rest
      ↔ path.isWithin ancestor ∧ Matches (ancestor ++ rest) path ∧ rest <:+ path := by
  rw [matches_iff]
  constructor
  · intro below
    have drops := (relativeTo?_eq_some_iff.mp below).2
    refine ⟨Option.isSome_of_mem below, keys_append_of_relativeTo? below, ?_⟩
    exact drops ▸ List.drop_suffix _ _
  · rintro ⟨within, texts, ends⟩
    refine relativeTo?_eq_some_iff.mpr ⟨isWithin_iff.mp within, ?_⟩
    have lengths : ancestor.length + rest.length = path.length := by
      rw [← List.length_append, ← length_keys, texts, length_keys]
    rw [List.suffix_iff_eq_drop.mp ends, ← lengths]
    congr 1
    omega

/-- All paths that give a path's texts together with its ancestor have the texts of what is left. -/
theorem exists_relativeTo?_iff_matches {path ancestor rest : Path} :
    (∃ left, path.relativeTo? ancestor = some left ∧ rest.Matches left)
      ↔ path.isWithin ancestor ∧ Matches (ancestor ++ rest) path := by
  constructor
  · rintro ⟨left, found, same⟩
    obtain ⟨within, texts, -⟩ := relativeTo?_iff_matches.mp found
    rw [matches_iff, keys_append] at texts ⊢
    exact ⟨within, by rw [matches_iff.mp same, texts]⟩
  · rintro ⟨within, same⟩
    obtain ⟨left, found⟩ := Option.isSome_iff_exists.mp within
    obtain ⟨-, texts, -⟩ := relativeTo?_iff_matches.mp found
    rw [matches_iff, keys_append] at texts same
    exact ⟨left, found, matches_iff.mpr (List.append_cancel_left (same.trans texts.symm))⟩

end Path

namespace Json

/-! ## Deleting by text -/

theorem setChild_congr {left right : Segment} (same : left.asKey = right.asKey)
    (tree value : Json) : tree.setChild left value = tree.setChild right value := by
  cases tree with
  | array items => simp only [setChild, Segment.asIndex?_congr same]
  | object entries => simp only [setChild, same]
  | null | bool | number | string => rfl

theorem removeChild?_congr {left right : Segment} (same : left.asKey = right.asKey)
    (tree : Json) : tree.removeChild? left = tree.removeChild? right := by
  cases tree with
  | array items => simp only [removeChild?, Segment.asIndex?_congr same]
  | object entries => simp only [removeChild?, same]
  | null | bool | number | string => rfl

/-- Paths with the same texts delete the same. -/
theorem deleteAt?_congr {left right : Path} (same : left.Matches right) (tree : Json) :
    tree.deleteAt? left = tree.deleteAt? right := by
  induction same generalizing tree with
  | nil => rfl
  | @cons first second left right here below inductionHypothesis =>
      cases below with
      | nil => exact removeChild?_congr here tree
      | cons next further =>
          rw [deleteAt?_cons tree first (List.cons_ne_nil _ _),
            deleteAt?_cons tree second (List.cons_ne_nil _ _), child?_congr here]
          refine Option.bind_congr fun child _ => ?_
          rw [inductionHypothesis child]
          exact congrArg (Option.map · _) (funext fun value => setChild_congr here tree value)

end Json

namespace Path

/-- What the texts of a path's segments decide. -/
structure GoesByText (path : Path) : Prop where
  /-- A path with the same texts finds the same value in every tree, or nothing as well. -/
  lookup?_eq {other : Path} (same : path.Matches other) (tree : Json) :
    tree.lookup? path = tree.lookup? other
  /-- A delete there finds something to do in the same trees. -/
  isEffective_eq {other : Path} (same : path.Matches other) (id : String) (tree : Json) :
    (Op.delete id path).isEffective tree = (Op.delete id other).isEffective tree
  /-- It leaves the same tree. -/
  apply_eq {other : Path} (same : path.Matches other) (id : String) (tree : Json) :
    (Op.delete id path).apply tree = (Op.delete id other).apply tree
  /-- The path is within another one that has the texts of its first segments. -/
  isWithin_iff {ancestor : Path} :
    path.isWithin ancestor ↔ ∃ start rest, path = start ++ rest ∧ ancestor.Matches start
  /-- It is within itself. -/
  isWithin_self : path.isWithin path
  /-- It is within whatever a path that it is within is within. -/
  isWithin_trans {ancestor outer : Path} (within : path.isWithin ancestor)
    (further : ancestor.isWithin outer) : path.isWithin outer
  /-- What was put below it is left of it, as it was put. -/
  relativeTo?_append (rest : Path) : relativeTo? (path ++ rest) path = some rest
  /-- Something is left of the path below another one exactly if it is within that path. -/
  isSome_relativeTo?_iff {ancestor : Path} :
    (path.relativeTo? ancestor).isSome ↔ path.isWithin ancestor
  /-- What is left is what gives the path's texts below the other one, spelled as in the path. -/
  relativeTo?_iff {ancestor rest : Path} :
    path.relativeTo? ancestor = some rest
      ↔ path.isWithin ancestor ∧ Matches (ancestor ++ rest) path ∧ rest <:+ path
  /-- In other spellings nothing else gives these texts. -/
  exists_relativeTo?_iff {ancestor rest : Path} :
    (∃ left, path.relativeTo? ancestor = some left ∧ rest.Matches left)
      ↔ path.isWithin ancestor ∧ Matches (ancestor ++ rest) path

/-- Where a path leads and what it is within is decided by the texts of its segments; what is left
of it below another path keeps its own segments. -/
theorem goesByText (path : Path) : path.GoesByText where
  lookup?_eq same tree := Json.lookup?_congr (matches_iff.mp same) tree
  isEffective_eq same id tree := by
    rw [Op.isEffective, Op.isEffective, Json.deleteAt?_congr same]
  apply_eq same id tree := by
    rw [Op.apply, Op.apply, Json.deleteAt?_congr same]
  isWithin_iff := isWithin_iff_matches
  isWithin_self := isWithin_refl path
  isWithin_trans := isWithin_trans
  relativeTo?_append := relativeTo?_append path
  isSome_relativeTo?_iff := Iff.rfl
  relativeTo?_iff := relativeTo?_iff_matches
  exists_relativeTo?_iff := exists_relativeTo?_iff_matches

/-- An index that was written as a key is left as it was written. -/
example :
    relativeTo? [.key "list", .key "2", .key "name"] [.key "list"] = some [.key "2", .key "name"]
      ∧ isWithin [.key "list", .key "2", .key "name"] [.key "list", .index 2] := by
  decide

end Path

end LayerRouting
