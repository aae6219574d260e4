import LayerRouting.Proofs.Json.Entries

/-!
# Equality of values by members

`Json.Same` is defined by canonical trees. Here it is taken apart: two objects are the same
exactly when they hold the same values under every key (`Json.same_object_iff`), two arrays
when they hold the same values at every position. `Json.SameAt` compares values that may
be absent.
-/

namespace LayerRouting

namespace Json

/-! ## Canonical trees -/

theorem canonicalItems_eq_map (items : List Json) :
    canonicalItems items = items.map canonical := by
  induction items with
  | nil => rfl
  | cons item rest inductionHypothesis => simp [canonicalItems, inductionHypothesis]

/-- The view of canonical entries shows the canonical values. -/
theorem get?_canonicalEntries (key : String) (entries : List (String × Json)) :
    Entries.get? key (canonicalEntries entries) = (Entries.get? key entries).map canonical := by
  induction entries with
  | nil => rfl
  | cons entry rest inductionHypothesis =>
      obtain ⟨name, value⟩ := entry
      simp only [canonicalEntries, Entries.get?_insertSorted, Entries.get?, inductionHypothesis]
      split <;> rfl

theorem ordered_canonicalEntries (entries : List (String × Json)) :
    Entries.Ordered (canonicalEntries entries) := by
  induction entries with
  | nil => exact List.Pairwise.nil
  | cons entry rest inductionHypothesis =>
      exact inductionHypothesis.insertSorted entry.1 (canonical entry.2)

/-! ## Values that may be absent -/

/-- Whether two values are both absent, or both present and the same. -/
def SameAt (left right : Option Json) : Prop :=
  left.map canonical = right.map canonical

instance (left right : Option Json) : Decidable (SameAt left right) :=
  inferInstanceAs (Decidable (left.map canonical = right.map canonical))

namespace SameAt

@[refl, simp]
theorem refl (value : Option Json) : SameAt value value :=
  rfl

@[symm]
theorem symm {left right : Option Json} (same : SameAt left right) : SameAt right left :=
  Eq.symm same

theorem trans {first second third : Option Json} (one : SameAt first second)
    (two : SameAt second third) : SameAt first third :=
  Eq.trans one two

@[simp]
theorem some_some {left right : Json} : SameAt (some left) (some right) ↔ left.Same right := by
  simp [SameAt, Same]

@[simp]
theorem some_none {left : Json} : ¬ SameAt (some left) none := by
  simp [SameAt]

@[simp]
theorem none_some {right : Json} : ¬ SameAt none (some right) := by
  simp [SameAt]

/-- Absent values take one value in their place. -/
theorem getD {left right : Option Json} (same : SameAt left right) (default : Json) :
    (left.getD default).Same (right.getD default) := by
  cases left <;> cases right <;> simp_all [Same.refl]

/-- Replacing present values by values that are the same. -/
theorem map {left right : Option Json} (same : SameAt left right) {change change' : Json -> Json}
    (respects : ∀ {x y : Json}, x.Same y -> (change x).Same (change' y)) :
    SameAt (left.map change) (right.map change') := by
  cases left <;> cases right <;> simp_all

/-- Following a step that respects sameness. -/
theorem bind {left right : Option Json} (same : SameAt left right)
    {step step' : Json -> Option Json}
    (respects : ∀ {x y : Json}, x.Same y -> SameAt (step x) (step' y)) :
    SameAt (left.bind step) (right.bind step') := by
  cases left <;> cases right <;> simp_all

theorem isSome_eq {left right : Option Json} (same : SameAt left right) :
    left.isSome = right.isSome := by
  cases left <;> cases right <;> simp_all

end SameAt

/-! ## Trees taken apart -/

/-- Objects are the same when they hold the same values under every key. -/
theorem same_object_iff {left right : List (String × Json)} :
    (Json.object left).Same (.object right)
      ↔ ∀ key, SameAt (Entries.get? key left) (Entries.get? key right) := by
  simp only [Same, canonical, object.injEq, SameAt, ← get?_canonicalEntries]
  constructor
  · intro equal key
    rw [equal]
  · exact Entries.eq_of_get? (ordered_canonicalEntries left) (ordered_canonicalEntries right)

/-- Arrays are the same when they hold the same values in the same order. -/
theorem same_array_iff {left right : List Json} :
    (Json.array left).Same (.array right) ↔ left.map canonical = right.map canonical := by
  simp [Same, canonical, canonicalItems_eq_map]

/-- Trees that are the same have the same kind; objects and arrays are the same by what
they hold, and all other trees by their values. -/
theorem Same.shape {left right : Json} (same : left.Same right) :
    (∃ xs ys, left = .object xs ∧ right = .object ys)
      ∨ (∃ xs ys, left = .array xs ∧ right = .array ys)
      ∨ ((∀ xs, left ≠ .object xs) ∧ (∀ xs, left ≠ .array xs)
          ∧ (∀ ys, right ≠ .object ys) ∧ ∀ ys, right ≠ .array ys) := by
  cases left <;> cases right <;> simp_all [Same, canonical]

theorem isObject_iff {tree : Json} : tree.isObject ↔ ∃ entries, tree = .object entries := by
  cases tree <;> simp [isObject]

/-- The members of trees that are the same are the same. -/
theorem Same.get? {left right : Json} (same : left.Same right) (key : String) :
    SameAt (left.get? key) (right.get? key) := by
  rcases same.shape with ⟨xs, ys, rfl, rfl⟩ | ⟨xs, ys, rfl, rfl⟩ | ⟨leftLeaf, _, rightLeaf, _⟩
  · exact same_object_iff.mp same key
  · exact SameAt.refl none
  · cases left <;> cases right <;> simp_all [Json.get?]

/-- Objects with the same members are the same. -/
theorem same_of_get? {left right : Json} (leftObject : left.isObject)
    (rightObject : right.isObject) (agree : ∀ key, SameAt (left.get? key) (right.get? key)) :
    left.Same right := by
  obtain ⟨xs, rfl⟩ := isObject_iff.mp leftObject
  obtain ⟨ys, rfl⟩ := isObject_iff.mp rightObject
  exact same_object_iff.mpr agree

/-- Only a truth value itself is the same as it. -/
theorem same_bool_iff {tree : Json} {value : Bool} :
    tree.Same (.bool value) ↔ tree = .bool value := by
  cases tree <;> simp [Same, canonical]

/-- Only a truth value itself, if it is present, is the same as it. -/
theorem sameAt_bool_iff {tree : Option Json} {value : Bool} :
    SameAt tree (some (.bool value)) ↔ tree = some (.bool value) := by
  cases tree <;> simp [same_bool_iff]

/-- A tree that has a member is an object. -/
theorem isObject_of_get? {tree : Json} {key : String} (found : (tree.get? key).isSome) :
    tree.isObject := by
  cases tree <;> simp_all [Json.get?, isObject]

end Json

end LayerRouting
