import LayerRouting.Override.Codec
import LayerRouting.Proofs.Json.Levels

/-!
# Ops read back

Segments, paths, ops and logs are read from the trees that they are written as
(`Op.ofJson?_toJson`, `Log.ofJson?_toJson`). An op nests one level more than the value that
it sets, and a log one more than its ops.
-/

namespace LayerRouting

/-! ## Reading what was written -/

theorem WordInt.toUInt64?_ofUInt64 (word : UInt64) :
    (WordInt.ofUInt64 word).toUInt64? = some word := by
  simp [WordInt.toUInt64?, WordInt.ofUInt64]

/-- A segment reads back as the kind that it is. -/
theorem Segment.ofJson?_toJson (segment : Segment) :
    Segment.ofJson? segment.toJson = some segment := by
  cases segment with
  | key name => rfl
  | index position =>
      simp [Segment.toJson, Segment.ofJson?, Json.int, WordInt.toUInt64?_ofUInt64]

/-- An array of written items reads back when every item does. -/
theorem Json.readItems?_ofList {α : Type} {write : α -> Json} {read? : Json -> Option α}
    {items : List α} (read : ∀ item ∈ items, read? (write item) = some item) :
    Json.readItems? read? (Json.ofList write items) = some items := by
  have known : ∀ item ∈ items, (read? ∘ write) item = some item := read
  rw [Json.ofList, Json.readItems?, List.mapM_map, mapM_eq_some_map known, List.map_id']

theorem Path.ofJson?_toJson (path : Path) : Path.ofJson? path.toJson = some path :=
  Json.readItems?_ofList fun segment _ => segment.ofJson?_toJson

/-- An op reads back. -/
theorem Op.ofJson?_toJson (op : Op) : Op.ofJson? op.toJson = some op := by
  cases op with
  | set id path value =>
      simp [Op.toJson, Op.ofJson?, Op.ofMembers?, Record.required?, Entries.get?, Json.asString?,
        Path.ofJson?_toJson, Op.setKind]
  | delete id path =>
      simp [Op.toJson, Op.ofJson?, Op.ofMembers?, Record.required?, Entries.get?, Json.asString?,
        Path.ofJson?_toJson, Op.setKind, Op.deleteKind]

/-- A log reads back. -/
theorem Log.ofJson?_toJson (log : Log) : Log.ofJson? log.toJson = some log :=
  Json.readItems?_ofList fun op _ => op.ofJson?_toJson

/-! ## Levels -/

/-- Whether the value that an op sets fits into some levels. -/
def Op.Fits (numbers : Number -> Prop) (levels : Nat) : Op -> Prop
  | .set _ _ value => value.Fits numbers levels
  | .delete _ _ => True

/-- Whether the numbers in the value that an op sets read back. -/
def Op.ReadsBack : Op -> Prop
  | .set _ _ value => value.ReadsBack
  | .delete _ _ => True

variable {numbers : Number -> Prop}

theorem Op.Fits.of_readsBack {levels : Nat} {op : Op} (fits : op.Fits numbers levels)
    (read : op.ReadsBack) : op.Fits Number.ReadsBack levels := by
  cases op with
  | set id path value => exact Json.Fits.of_readsBack fits read
  | delete id path => trivial

/-- A path nests one level, and the only numbers in it are indices. -/
theorem Path.fits_toJson (whole : ∀ value, numbers (.int value)) (levels : Nat) (path : Path) :
    path.toJson.Fits numbers (levels + 1) := by
  refine .array fun item member => ?_
  obtain ⟨segment, -, rfl⟩ := List.mem_map.mp member
  cases segment with
  | key name => exact .string name
  | index position => exact .number (whole _)

/-- An op nests one level more than its value. -/
theorem Op.Fits.toJson (whole : ∀ value, numbers (.int value)) {levels : Nat} {op : Op}
    (fits : op.Fits numbers (levels + 1)) : op.toJson.Fits numbers (levels + 2) := by
  cases op with
  | set id path value =>
      have distinct : ["op", "opId", "path", "value"].Nodup := by decide
      refine .object ?_ distinct
      simp only [List.forall_mem_cons]
      exact ⟨.string _, .string _, Path.fits_toJson whole levels path, fits, List.forall_mem_nil _⟩
  | delete id path =>
      have distinct : ["op", "opId", "path"].Nodup := by decide
      refine .object ?_ distinct
      simp only [List.forall_mem_cons]
      exact ⟨.string _, .string _, Path.fits_toJson whole levels path, List.forall_mem_nil _⟩

/-! ## Reading again -/

/-- The only numbers in a path are indices, so a path becomes itself. -/
theorem Path.reread_toJson (path : Path) : path.toJson.reread = path.toJson :=
  (Path.fits_toJson Number.readsBack_int 0 path).readsBack.reread_eq

/-- The depth of the value that an op sets. -/
def Op.depth : Op -> Nat
  | .set _ _ value => value.depth
  | .delete _ _ => 0

/-- What an op is read as, its value within some levels, after it was written. -/
def Op.readBack? (levels : Nat) : Op -> Option Op
  | .set id path value => (value.readBack? levels).map (.set id path)
  | .delete id path => some (.delete id path)

/-- What an op is read back as has its id and its path. -/
theorem Op.eq_of_readBack? {levels : Nat} {op read : Op} (found : op.readBack? levels = some read) :
    (read.id, read.path) = (op.id, op.path) := by
  cases op with
  | set id path value =>
      obtain ⟨value, -, rfl⟩ := Option.map_eq_some_iff.mp found
      rfl
  | delete id path =>
      obtain rfl := Option.some.inj found
      rfl

theorem Op.isSome_readBack?_iff {levels : Nat} {op : Op} :
    (op.readBack? levels).isSome ↔ op.depth ≤ levels := by
  cases op with
  | set id path value => rw [readBack?, Option.isSome_map, Json.isSome_readBack?_iff, depth]
  | delete id path => simp [readBack?, depth]

theorem Op.Fits.readBack?_eq {levels : Nat} {op : Op} (fits : op.Fits Number.ReadsBack levels) :
    op.readBack? levels = some op := by
  cases op with
  | set id path value => rw [Op.readBack?, Json.Fits.readBack?_eq fits, Option.map_some]
  | delete id path => rfl

/-! ## Ops that were read -/

/-- The members of an op that is read hold the value that it sets. -/
theorem Op.fits_of_ofMembers? {levels : Nat} {kind : String} {record : Record} {op : Op}
    (fit : ∀ entry ∈ record, entry.2.Fits numbers levels)
    (read : Op.ofMembers? kind record = some op) : op.Fits numbers levels := by
  simp only [Op.ofMembers?, Option.bind_eq_bind, Option.bind_eq_some_iff] at read
  obtain ⟨id, -, path, -, made⟩ := read
  split at made
  · obtain ⟨value, held, same⟩ := Option.bind_eq_some_iff.mp made
    obtain ⟨tree, found, stays⟩ := Option.bind_eq_some_iff.mp held
    cases stays
    cases same
    exact fit _ (Entries.mem_of_get? found)
  · split at made
    · cases made
      trivial
    · cases made

/-- An op that is read nests one level less than its tree. -/
theorem Op.fits_of_ofJson? {levels : Nat} {tree : Json} {op : Op}
    (fits : tree.Fits numbers (levels + 1)) (read : Op.ofJson? tree = some op) :
    op.Fits numbers levels := by
  cases fits with
  | null | bool | number | string => cases read
  | array fit =>
      -- The members after the kind, by name, are items of the array.
      have named : ∀ (names : List String) {first : Json} {rest : List Json},
          (∀ item ∈ first :: rest, item.Fits numbers levels) ->
          ∀ entry ∈ names.zip rest, entry.2.Fits numbers levels :=
        fun _ _ _ fit entry member => fit entry.2 (List.mem_cons_of_mem _ (List.of_mem_zip member).2)
      simp only [Op.ofJson?] at read
      split at read
      · next same => cases same
      · next same =>
          cases same
          split at read
          · exact Op.fits_of_ofMembers? (named ["opId", "path", "value"] fit) read
          · cases read
      · next same =>
          cases same
          split at read
          · exact Op.fits_of_ofMembers? (named ["opId", "path"] fit) read
          · cases read
      · cases read
  | object fit distinct =>
      simp only [Op.ofJson?, Option.bind_eq_bind, Option.bind_eq_some_iff] at read
      obtain ⟨kind, -, made⟩ := read
      exact Op.fits_of_ofMembers? fit made

end LayerRouting
