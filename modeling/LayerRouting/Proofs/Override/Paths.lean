import LayerRouting.Override.Op
import Mathlib.Data.List.Infix

/-!
# Ancestors and descendants

A path is within another exactly when the keys of the other are a beginning of its own
(`Path.isWithin_iff`). For paths of keys an ancestor is a beginning of the path itself.
-/

namespace LayerRouting

namespace Path

/-- The keys of a path's segments. -/
def keys (path : Path) : List String :=
  path.map Segment.asKey

/-- What is left below an ancestor is the path without the ancestor's segments. -/
theorem relativeTo?_eq_some_iff {path ancestor rest : Path} :
    path.relativeTo? ancestor = some rest
      ↔ ancestor.keys <+: path.keys ∧ rest = path.drop ancestor.length := by
  induction ancestor generalizing path with
  | nil => simp [relativeTo?, keys, eq_comm]
  | cons outer ancestor inductionHypothesis =>
      cases path with
      | nil => simp [relativeTo?, keys]
      | cons inner path =>
          simp only [relativeTo?, keys, List.map_cons, List.cons_prefix_cons, List.length_cons,
            List.drop_succ_cons]
          by_cases matching : outer.Matches inner
          · rw [if_pos matching, inductionHypothesis]
            simp only [Segment.Matches] at matching
            simp [matching, keys]
          · rw [if_neg matching]
            simp only [Segment.Matches] at matching
            simp [matching]

theorem keys_append (path rest : Path) : keys (path ++ rest) = path.keys ++ rest.keys :=
  List.map_append

theorem length_keys (path : Path) : path.keys.length = path.length :=
  List.length_map _

/-- What is left below an ancestor gives the path's keys together with the ancestor. -/
theorem keys_append_of_relativeTo? {path ancestor rest : Path}
    (below : path.relativeTo? ancestor = some rest) : keys (ancestor ++ rest) = path.keys := by
  obtain ⟨⟨tail, split⟩, rfl⟩ := relativeTo?_eq_some_iff.mp below
  rw [keys_append, ← split, List.append_right_inj, keys, List.map_drop, ← keys, ← split,
    ← length_keys, List.drop_left]

/-- A path is within another when the keys of the other begin its keys. -/
theorem isWithin_iff {path ancestor : Path} :
    path.isWithin ancestor ↔ ancestor.keys <+: path.keys := by
  rw [isWithin, Option.isSome_iff_exists]
  simp [relativeTo?_eq_some_iff]

@[simp]
theorem isWithin_refl (path : Path) : path.isWithin path :=
  isWithin_iff.mpr List.prefix_rfl

@[simp]
theorem isWithin_nil (path : Path) : path.isWithin [] :=
  isWithin_iff.mpr List.nil_prefix

theorem isWithin_cons_cons {inner outer : Segment} {path ancestor : Path} :
    Path.isWithin (inner :: path) (outer :: ancestor)
      ↔ outer.asKey = inner.asKey ∧ path.isWithin ancestor := by
  simp [isWithin_iff, keys]

end Path

namespace Segment

/-- Whether a segment is a key. -/
def isKey : Segment -> Bool
  | .key _ => true
  | .index _ => false

/-- Keys with one text are one segment. -/
theorem eq_of_isKey {left right : Segment} (leftKey : left.isKey) (rightKey : right.isKey)
    (same : left.asKey = right.asKey) : left = right := by
  cases left <;> cases right <;> simp_all [isKey, asKey]

end Segment

namespace Path

/-- Whether all segments are keys. -/
def isKeys (path : Path) : Bool :=
  path.all Segment.isKey

@[simp]
theorem isKeys_cons {segment : Segment} {rest : Path} :
    isKeys (segment :: rest) ↔ segment.isKey ∧ rest.isKeys := by
  simp [isKeys]

/-- A path of keys below an ancestor of keys begins with it. -/
theorem eq_append_of_relativeTo? {path ancestor rest : Path} (pathKeys : path.isKeys)
    (ancestorKeys : ancestor.isKeys) (below : path.relativeTo? ancestor = some rest) :
    path = ancestor ++ rest := by
  induction ancestor generalizing path with
  | nil => simpa [relativeTo?] using below
  | cons outer ancestor inductionHypothesis =>
      cases path with
      | nil => simp [relativeTo?] at below
      | cons inner path =>
          obtain ⟨innerKey, pathKeys⟩ := isKeys_cons.mp pathKeys
          obtain ⟨outerKey, ancestorKeys⟩ := isKeys_cons.mp ancestorKeys
          simp only [relativeTo?] at below
          split at below
          · next matching =>
              rw [Segment.eq_of_isKey outerKey innerKey matching, List.cons_append,
                ← inductionHypothesis pathKeys ancestorKeys below]
          · cases below

theorem exists_append_of_isWithin {path ancestor : Path} (pathKeys : path.isKeys)
    (ancestorKeys : ancestor.isKeys) (within : path.isWithin ancestor) :
    ∃ rest, path = ancestor ++ rest := by
  obtain ⟨rest, below⟩ := Option.isSome_iff_exists.mp within
  exact ⟨rest, eq_append_of_relativeTo? pathKeys ancestorKeys below⟩

end Path

namespace Op

/-- An op that does not affect a path is neither on it, below it nor above it. -/
theorem not_affects_iff {op : Op} {path : Path} :
    ¬ op.affects path ↔ ¬ op.path.isWithin path ∧ ¬ path.isWithin op.path := by
  simp [affects]

end Op

end LayerRouting
