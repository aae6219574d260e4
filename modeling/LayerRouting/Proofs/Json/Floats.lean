import LayerRouting.Proofs.Json.Levels
import LayerRouting.Proofs.Json.Same

/-!
# Trees with other binary64 numbers

A binary64 number may come back from a text as a neighbour, while everything else in a tree comes
back as it was. `Json.mapFloats` is a tree with each of its binary64 numbers changed by one
function; a tree that was written and read again is such a tree (`Json.reread_eq_mapFloats`).
Such a change is not seen by anything that asks for members, kinds, texts or truth values.
-/

namespace LayerRouting

/-- A number in which a binary64 number was changed; a whole number stays as it is. -/
def Number.mapFloat (change : Binary64 -> Binary64) : Number -> Number
  | .int value => .int value
  | .float value => .float (change value)

namespace Json

/-- What holds of a tree if it holds of the trees in it holds of all trees. -/
@[elab_as_elim]
theorem inductionOnParts {motive : Json -> Prop} (tree : Json) (null : motive .null)
    (bool : ∀ value, motive (.bool value)) (number : ∀ value, motive (.number value))
    (string : ∀ value, motive (.string value))
    (array : ∀ items, (∀ item ∈ items, motive item) -> motive (.array items))
    (object : ∀ entries, (∀ entry ∈ entries, motive entry.2) -> motive (.object entries)) :
    motive tree :=
  @Json.rec motive (fun items => ∀ item ∈ items, motive item)
    (fun entries => ∀ entry ∈ entries, motive entry.2) (fun entry => motive entry.2)
    null bool number string array object
    (List.forall_mem_nil _) (fun _ _ first others => List.forall_mem_cons.mpr ⟨first, others⟩)
    (List.forall_mem_nil _) (fun _ _ first others => List.forall_mem_cons.mpr ⟨first, others⟩)
    (fun _ _ value => value) tree

mutual

/-- The tree with each binary64 number changed. -/
def mapFloats (change : Binary64 -> Binary64) : Json -> Json
  | .null => .null
  | .bool value => .bool value
  | .number value => .number (value.mapFloat change)
  | .string value => .string value
  | .array items => .array (mapFloatsItems change items)
  | .object entries => .object (mapFloatsEntries change entries)

/-- The items of an array with each binary64 number changed. -/
def mapFloatsItems (change : Binary64 -> Binary64) : List Json -> List Json
  | [] => []
  | item :: rest => mapFloats change item :: mapFloatsItems change rest

/-- The entries of an object with each binary64 number changed. -/
def mapFloatsEntries (change : Binary64 -> Binary64) :
    List (String × Json) -> List (String × Json)
  | [] => []
  | (key, value) :: rest => (key, mapFloats change value) :: mapFloatsEntries change rest

end

variable (change : Binary64 -> Binary64)

theorem mapFloatsItems_eq_map (items : List Json) :
    mapFloatsItems change items = items.map (mapFloats change) := by
  induction items with
  | nil => rfl
  | cons item rest inductionHypothesis => rw [mapFloatsItems, inductionHypothesis, List.map_cons]

theorem mapFloatsEntries_eq_mapValues (entries : List (String × Json)) :
    mapFloatsEntries change entries = Entries.mapValues (mapFloats change) entries := by
  induction entries with
  | nil => rfl
  | cons entry rest inductionHypothesis => rw [mapFloatsEntries, inductionHypothesis]; rfl

theorem mapFloats_array (items : List Json) :
    (array items).mapFloats change = .array (items.map (mapFloats change)) := by
  rw [mapFloats, mapFloatsItems_eq_map]

theorem mapFloats_object (entries : List (String × Json)) :
    (object entries).mapFloats change = .object (Entries.mapValues (mapFloats change) entries) := by
  rw [mapFloats, mapFloatsEntries_eq_mapValues]

/-! ## Two changes -/

variable {change}

/-- A change that changes no number changes no tree. -/
theorem mapFloats_id (tree : Json) : tree.mapFloats id = tree := by
  induction tree using inductionOnParts with
  | null | bool | string => rfl
  | number value => cases value <;> rfl
  | array items inductionHypothesis =>
      rw [mapFloats_array, List.map_congr_left inductionHypothesis, List.map_id']
  | object entries inductionHypothesis =>
      have same : ∀ entry ∈ entries, (entry.1, entry.2.mapFloats id) = entry :=
        fun entry member => Prod.ext rfl (inductionHypothesis entry member)
      rw [mapFloats_object, Entries.mapValues, List.map_congr_left same, List.map_id']

/-- One change after another is one change. -/
theorem mapFloats_mapFloats (first second : Binary64 -> Binary64) (tree : Json) :
    (tree.mapFloats first).mapFloats second = tree.mapFloats (second ∘ first) := by
  induction tree using inductionOnParts with
  | null | bool | string => rfl
  | number value => cases value <;> rfl
  | array items inductionHypothesis =>
      rw [mapFloats_array, mapFloats_array, mapFloats_array, List.map_map]
      exact congrArg array (List.map_congr_left inductionHypothesis)
  | object entries inductionHypothesis =>
      rw [mapFloats_object, mapFloats_object, mapFloats_object, Entries.mapValues, Entries.mapValues,
        List.map_map]
      exact congrArg object (List.map_congr_left fun entry member =>
        Prod.ext rfl (inductionHypothesis entry member))

/-- The form of a tree, in which every binary64 number is zero. -/
def withoutFloats (tree : Json) : Json :=
  tree.mapFloats fun _ => .zero

/-- Changes of binary64 numbers leave the form of a tree. -/
theorem withoutFloats_mapFloats (change : Binary64 -> Binary64) (tree : Json) :
    (tree.mapFloats change).withoutFloats = tree.withoutFloats :=
  mapFloats_mapFloats _ _ tree

/-! ## What is not changed -/

@[simp]
theorem isObject_mapFloats (tree : Json) : (tree.mapFloats change).isObject = tree.isObject := by
  cases tree <;> rfl

theorem get?_mapFloats (tree : Json) (key : String) :
    (tree.mapFloats change).get? key = (tree.get? key).map (mapFloats change) := by
  cases tree with
  | object entries => rw [mapFloats_object, get?, get?, Entries.get?_mapValues]
  | array items => rw [mapFloats_array]; rfl
  | null | bool | number | string => rfl

@[simp]
theorem keys_mapFloats (tree : Json) : (tree.mapFloats change).keys = tree.keys := by
  cases tree with
  | object entries => rw [mapFloats_object, keys, keys, Entries.keys_mapValues]
  | array items => rw [mapFloats_array]; rfl
  | null | bool | number | string => rfl

/-- A tree becomes a truth value only if it is one. -/
theorem mapFloats_eq_bool_iff {tree : Json} {value : Bool} :
    tree.mapFloats change = .bool value ↔ tree = .bool value := by
  cases tree <;> simp [mapFloats]

theorem map_mapFloats_eq_bool_iff {tree : Option Json} {value : Bool} :
    tree.map (mapFloats change) = some (.bool value) ↔ tree = some (.bool value) := by
  cases tree <;> simp [mapFloats_eq_bool_iff]

/-- A change leaves a tree within its levels and repeats no key. -/
theorem Fits.mapFloats {levels : Nat} {tree : Json} (fits : tree.Fits (fun _ => True) levels) :
    (tree.mapFloats change).Fits (fun _ => True) levels := by
  induction fits with
  | null => exact .null
  | bool value => exact .bool value
  | number => exact .number trivial
  | string value => exact .string value
  | array fit inductionHypothesis =>
      rw [mapFloats_array]
      exact .array (List.forall_mem_map.mpr inductionHypothesis)
  | object fit distinct inductionHypothesis =>
      rw [mapFloats_object]
      exact .object (List.forall_mem_map.mpr inductionHypothesis)
        ((Entries.keys_mapValues _ _).symm ▸ distinct)

end Json

/-! ## Trees that are read again -/

/-- The number that a binary64 number becomes when it is written and read again. -/
def Binary64.reread (x : Binary64) : Binary64 :=
  ((Number.float x).reread.float?).getD x

/-- Reading a number again is a change of its binary64 number. -/
theorem Number.reread_eq_mapFloat (number : Number) :
    number.reread = number.mapFloat Binary64.reread := by
  cases number with
  | int value => exact readsBack_iff_reread_eq.mp (readsBack_int value)
  | float x =>
      obtain ⟨y, read⟩ := exists_reread?_float x
      have again : (Number.float x).reread = .float y := by rw [reread, read, Option.getD_some]
      rw [mapFloat, Binary64.reread, again, float?, Option.getD_some]

namespace Json

/-- Reading a tree again is a change of its binary64 numbers. -/
theorem reread_eq_mapFloats (tree : Json) : tree.reread = tree.mapFloats Binary64.reread := by
  induction tree using inductionOnParts with
  | null | bool | string => rfl
  | number value => rw [reread, mapFloats, Number.reread_eq_mapFloat]
  | array items inductionHypothesis =>
      rw [reread, rereadItems_eq_map, mapFloats_array, List.map_congr_left inductionHypothesis]
  | object entries inductionHypothesis =>
      rw [reread, rereadEntries_eq_map, mapFloats_object]
      exact congrArg object (List.map_congr_left fun entry member =>
        Prod.ext rfl (inductionHypothesis entry member))

/-- A tree that fits is read as itself with its binary64 numbers read again. -/
theorem Fits.readBack?_eq_mapFloats {levels : Nat} {tree : Json}
    (fits : tree.Fits (fun _ => True) levels) :
    tree.readBack? levels = some (tree.mapFloats Binary64.reread) := by
  rw [readBack?, reread_eq_mapFloats, fits.mapFloats.valueWithin_ofJson]

end Json

end LayerRouting
