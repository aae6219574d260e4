import LayerRouting.Proofs.Json.Entries
import LayerRouting.Proofs.Json.Texts

/-!
# Trees within levels

A reader takes only trees that nest a number of levels, and of those only trees without
repeated keys come back as they were written. `Json.Fits` says both, and that the numbers in
the tree have a property on which the way back may depend. What was read fits
(`Written.fits_of_valueWithin`), and what fits is read as it is
(`Json.Fits.valueWithin_ofJson`).
-/

namespace LayerRouting

namespace Json

/-- Whether a tree nests no more than a number of levels and repeats no key, and the numbers
in it have a property. -/
inductive Fits (numbers : Number -> Prop) : Nat -> Json -> Prop where
  | null {levels : Nat} : Fits numbers levels .null
  | bool {levels : Nat} (value : Bool) : Fits numbers levels (.bool value)
  | number {levels : Nat} {value : Number} (known : numbers value) :
      Fits numbers levels (.number value)
  | string {levels : Nat} (value : String) : Fits numbers levels (.string value)
  | array {levels : Nat} {items : List Json} (fit : ∀ item ∈ items, Fits numbers levels item) :
      Fits numbers (levels + 1) (.array items)
  | object {levels : Nat} {entries : List (String × Json)}
      (fit : ∀ entry ∈ entries, Fits numbers levels entry.2)
      (distinct : (Entries.keys entries).Nodup) : Fits numbers (levels + 1) (.object entries)

namespace Fits

variable {numbers : Number -> Prop}

/-- What fits into some levels fits into more. -/
theorem mono {levels more : Nat} {tree : Json} (fits : tree.Fits numbers levels)
    (most : levels ≤ more) : tree.Fits numbers more := by
  induction fits generalizing more with
  | null => exact .null
  | bool value => exact .bool value
  | number known => exact .number known
  | string value => exact .string value
  | array fit inductionHypothesis =>
      obtain ⟨inner, rfl⟩ : ∃ inner, more = inner + 1 := ⟨more - 1, by omega⟩
      exact .array fun item member => inductionHypothesis item member (by omega)
  | object fit distinct inductionHypothesis =>
      obtain ⟨inner, rfl⟩ : ∃ inner, more = inner + 1 := ⟨more - 1, by omega⟩
      exact .object (fun entry member => inductionHypothesis entry member (by omega)) distinct

/-- A tree that fits and whose numbers read back. -/
theorem of_readsBack {levels : Nat} {tree : Json} (fits : tree.Fits numbers levels)
    (read : tree.ReadsBack) : tree.Fits Number.ReadsBack levels := by
  induction fits with
  | null => exact .null
  | bool value => exact .bool value
  | number known =>
      cases read with
      | number reads => exact .number reads
  | string value => exact .string value
  | array fit inductionHypothesis =>
      cases read with
      | array read =>
          exact .array fun item member => inductionHypothesis item member (read item member)
  | object fit distinct inductionHypothesis =>
      cases read with
      | object read =>
          exact .object (fun entry member => inductionHypothesis entry member (read entry member))
            distinct

theorem readsBack {levels : Nat} {tree : Json} (fits : tree.Fits Number.ReadsBack levels) :
    tree.ReadsBack := by
  induction fits with
  | null => exact .null
  | bool value => exact .bool value
  | number known => exact .number known
  | string value => exact .string value
  | array fit inductionHypothesis => exact .array inductionHypothesis
  | object fit distinct inductionHypothesis => exact .object inductionHypothesis

end Fits

end Json

/-! ## Reading within levels -/

namespace Written

mutual

/-- What is read within some levels fits into them. -/
theorem fits_of_valueWithin {levels : Nat} {tree : Json} : (written : Written) ->
    written.valueWithin levels = some tree -> tree.Fits (fun _ => True) levels
  | .null, read => by cases read; exact .null
  | .bool value, read => by cases read; exact .bool value
  | .number value, read => by
      obtain ⟨number, -, rfl⟩ := Option.map_eq_some_iff.mp read
      exact .number trivial
  | .string value, read => by
      obtain ⟨text, -, rfl⟩ := Option.map_eq_some_iff.mp read
      exact .string text
  | .array items, read => by
      cases levels with
      | zero => cases read
      | succ inner =>
          obtain ⟨list, found, rfl⟩ := Option.map_eq_some_iff.mp read
          exact .array (fits_of_itemsWithin items found)
  | .object entries, read => by
      cases levels with
      | zero => cases read
      | succ inner =>
          obtain ⟨list, found, rfl⟩ := Option.map_eq_some_iff.mp read
          refine .object ?_ (Entries.nodup_keys_ofList list)
          intro entry member
          obtain ⟨other, held, same⟩ := Entries.mem_of_mem_ofList member
          rw [same]
          exact fits_of_entriesWithin entries found other held

theorem fits_of_itemsWithin {levels : Nat} {list : List Json} : (items : List Written) ->
    itemsWithin levels items = some list -> ∀ item ∈ list, item.Fits (fun _ => True) levels
  | [], read => by cases read; exact List.forall_mem_nil _
  | item :: rest, read => by
      simp only [itemsWithin] at read
      split at read
      · next first others =>
          cases read
          exact List.forall_mem_cons.mpr ⟨fits_of_valueWithin item first,
            fits_of_itemsWithin rest others⟩
      · cases read

theorem fits_of_entriesWithin {levels : Nat} {list : List (String × Json)} :
    (entries : List (Option String × Written)) -> entriesWithin levels entries = some list ->
      ∀ entry ∈ list, entry.2.Fits (fun _ => True) levels
  | [], read => by cases read; exact List.forall_mem_nil _
  | (key, item) :: rest, read => by
      simp only [entriesWithin] at read
      split at read
      · next first others =>
          cases read
          exact List.forall_mem_cons.mpr ⟨fits_of_valueWithin item first,
            fits_of_entriesWithin rest others⟩
      · cases read

end

theorem itemsWithin_ofItems {levels : Nat} {items : List Json}
    (read : ∀ item ∈ items, (ofJson item).valueWithin levels = some item) :
    itemsWithin levels (ofItems items) = some items := by
  induction items with
  | nil => rfl
  | cons item rest inductionHypothesis =>
      obtain ⟨first, others⟩ := List.forall_mem_cons.mp read
      simp only [ofItems, itemsWithin, first, inductionHypothesis others]

theorem entriesWithin_ofEntries {levels : Nat} {entries : List (String × Json)}
    (read : ∀ entry ∈ entries, (ofJson entry.2).valueWithin levels = some entry.2) :
    entriesWithin levels (ofEntries entries) = some entries := by
  induction entries with
  | nil => rfl
  | cons entry rest inductionHypothesis =>
      obtain ⟨first, others⟩ := List.forall_mem_cons.mp read
      simp only [ofEntries, entriesWithin, first, inductionHypothesis others]

end Written

/-- Whether a tree repeats no key, on any of its levels. -/
def Json.RepeatsNoKey (tree : Json) : Prop :=
  ∃ levels, tree.Fits (fun _ => True) levels

/-- A tree that is read from a text repeats no key, whatever the text repeats. -/
theorem Json.repeatsNoKey_of_parse? (content : Content) {tree : Json}
    (read : Json.parse? content = some tree) : tree.RepeatsNoKey := by
  obtain ⟨written, -, value⟩ := Option.bind_eq_some_iff.mp read
  exact ⟨_, Written.fits_of_valueWithin written value⟩

/-- A tree that fits is read as it is. -/
theorem Json.Fits.valueWithin_ofJson {numbers : Number -> Prop} {levels : Nat} {tree : Json}
    (fits : tree.Fits numbers levels) : (Written.ofJson tree).valueWithin levels = some tree := by
  induction fits with
  | null | bool | number | string => simp [Written.ofJson, Written.valueWithin]
  | array fit inductionHypothesis =>
      rw [Written.ofJson, Written.valueWithin, Written.itemsWithin_ofItems inductionHypothesis]
      rfl
  | object fit distinct inductionHypothesis =>
      rw [Written.ofJson, Written.valueWithin, Written.entriesWithin_ofEntries inductionHypothesis,
        Option.map_some, Entries.ofList_of_nodup distinct]

/-! ## Depth -/

namespace Json

mutual

/-- The number of nested arrays and objects of a tree. -/
def depth : Json -> Nat
  | .array items => depthOfItems items + 1
  | .object entries => depthOfEntries entries + 1
  | .null | .bool _ | .number _ | .string _ => 0

/-- The greatest depth of the items of an array. -/
def depthOfItems : List Json -> Nat
  | [] => 0
  | item :: rest => max (depth item) (depthOfItems rest)

/-- The greatest depth of the values of an object. -/
def depthOfEntries : List (String × Json) -> Nat
  | [] => 0
  | (_, value) :: rest => max (depth value) (depthOfEntries rest)

end

theorem depthOfItems_le_iff {items : List Json} {levels : Nat} :
    depthOfItems items ≤ levels ↔ ∀ item ∈ items, item.depth ≤ levels := by
  induction items with
  | nil => simp [depthOfItems]
  | cons item rest inductionHypothesis =>
      rw [depthOfItems, max_le_iff, inductionHypothesis, List.forall_mem_cons]

theorem depthOfEntries_le_iff {entries : List (String × Json)} {levels : Nat} :
    depthOfEntries entries ≤ levels ↔ ∀ entry ∈ entries, entry.2.depth ≤ levels := by
  induction entries with
  | nil => simp [depthOfEntries]
  | cons entry rest inductionHypothesis =>
      rw [depthOfEntries, max_le_iff, inductionHypothesis, List.forall_mem_cons]

/-- What fits into some levels is no deeper. -/
theorem Fits.depth_le {numbers : Number -> Prop} {levels : Nat} {tree : Json}
    (fits : tree.Fits numbers levels) : tree.depth ≤ levels := by
  induction fits with
  | null | bool | number | string => exact Nat.zero_le _
  | array fit inductionHypothesis =>
      exact Nat.succ_le_succ (depthOfItems_le_iff.mpr inductionHypothesis)
  | object fit distinct inductionHypothesis =>
      exact Nat.succ_le_succ (depthOfEntries_le_iff.mpr inductionHypothesis)

end Json

namespace Written

mutual

/-- The text of a tree is a value within some levels exactly when the tree is no deeper. -/
theorem isSome_valueWithin_ofJson_iff (levels : Nat) : (tree : Json) ->
    (((ofJson tree.reread).valueWithin levels).isSome ↔ tree.depth ≤ levels)
  | .null | .bool _ | .number _ | .string _ => by
      simp [Json.reread, ofJson, valueWithin, Json.depth]
  | .array items => by
      rw [Json.reread, ofJson, Json.depth]
      cases levels with
      | zero => simp [valueWithin]
      | succ inner =>
          rw [valueWithin, Option.isSome_map, Nat.add_le_add_iff_right]
          exact isSome_itemsWithin_ofItems_iff inner items
  | .object entries => by
      rw [Json.reread, ofJson, Json.depth]
      cases levels with
      | zero => simp [valueWithin]
      | succ inner =>
          rw [valueWithin, Option.isSome_map, Nat.add_le_add_iff_right]
          exact isSome_entriesWithin_ofEntries_iff inner entries

theorem isSome_itemsWithin_ofItems_iff (levels : Nat) : (items : List Json) ->
    ((itemsWithin levels (ofItems (Json.rereadItems items))).isSome
      ↔ Json.depthOfItems items ≤ levels)
  | [] => by simp [Json.rereadItems, ofItems, itemsWithin, Json.depthOfItems]
  | item :: rest => by
      have first := isSome_valueWithin_ofJson_iff levels item
      have others := isSome_itemsWithin_ofItems_iff levels rest
      rw [Json.rereadItems, ofItems, Json.depthOfItems, max_le_iff, ← first, ← others]
      cases tree? : valueWithin levels (ofJson item.reread) <;>
        cases trees? : itemsWithin levels (ofItems (Json.rereadItems rest)) <;>
        simp [itemsWithin, tree?, trees?]

theorem isSome_entriesWithin_ofEntries_iff (levels : Nat) : (entries : List (String × Json)) ->
    ((entriesWithin levels (ofEntries (Json.rereadEntries entries))).isSome
      ↔ Json.depthOfEntries entries ≤ levels)
  | [] => by simp [Json.rereadEntries, ofEntries, entriesWithin, Json.depthOfEntries]
  | (key, value) :: rest => by
      have first := isSome_valueWithin_ofJson_iff levels value
      have others := isSome_entriesWithin_ofEntries_iff levels rest
      rw [Json.rereadEntries, ofEntries, Json.depthOfEntries, max_le_iff, ← first, ← others]
      cases tree? : valueWithin levels (ofJson value.reread) <;>
        cases entries? : entriesWithin levels (ofEntries (Json.rereadEntries rest)) <;>
        simp [entriesWithin, tree?, entries?]

end

end Written

namespace Json

/-- What a tree is read as within some levels after it was written. -/
def readBack? (levels : Nat) (tree : Json) : Option Json :=
  (Written.ofJson tree.reread).valueWithin levels

/-- A tree is read within some levels exactly when it is no deeper. -/
theorem isSome_readBack?_iff {levels : Nat} {tree : Json} :
    (tree.readBack? levels).isSome ↔ tree.depth ≤ levels :=
  Written.isSome_valueWithin_ofJson_iff levels tree

/-- A tree that fits and whose numbers read back is read as it is. -/
theorem Fits.readBack?_eq {levels : Nat} {tree : Json} (fits : tree.Fits Number.ReadsBack levels) :
    tree.readBack? levels = some tree := by
  rw [readBack?, fits.readsBack.reread_eq, fits.valueWithin_ofJson]

end Json

end LayerRouting
