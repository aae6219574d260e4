import LayerRouting.Proofs.Store.Files

/-!
# What was written is loaded

A store of files writes every document, but it loads only what nests no deeper than a reader
goes. After a document was written, it is loaded exactly when its file nests no more than
`Written.greatestDepth` levels (`FileStore.loads_after_write`); a document that is deeper is
written all the same and is lost. Within these levels, and without binary64 numbers, what is
loaded is what was written (`FileStore.roundTrips`).
-/

namespace LayerRouting

/-- Whether a number is a whole number. -/
def Number.IsWhole (number : Number) : Prop :=
  ∃ value, number = .int value

theorem Number.IsWhole.readsBack {number : Number} (whole : number.IsWhole) :
    number.ReadsBack := by
  obtain ⟨value, rfl⟩ := whole
  exact readsBack_int value

/-- A tree that fits does so for every property that its numbers have. -/
theorem Json.Fits.imp {numbers others : Number -> Prop} {levels : Nat} {tree : Json}
    (fits : tree.Fits numbers levels) (holds : ∀ number, numbers number -> others number) :
    tree.Fits others levels := by
  induction fits with
  | null => exact .null
  | bool value => exact .bool value
  | number known => exact .number (holds _ known)
  | string value => exact .string value
  | array fit inductionHypothesis => exact .array inductionHypothesis
  | object fit distinct inductionHypothesis => exact .object inductionHypothesis distinct

/-! ## Levels of stored documents -/

/-- A path nests at most one level. -/
theorem Path.depth_toJson_le (path : Path) : path.toJson.depth ≤ 1 :=
  (path.fits_toJson Number.readsBack_int 0).depth_le

/-- An op nests one level more than its value, and no less than its path. -/
theorem Op.depth_toJson_le_iff {levels : Nat} {op : Op} :
    op.toJson.depth ≤ levels + 2 ↔ op.depth ≤ levels + 1 := by
  have path : ∀ path : Path, path.toJson.depth ≤ levels + 1 :=
    fun path => path.depth_toJson_le.trans (Nat.le_add_left _ _)
  cases op with
  | set id segments value =>
      simp [Op.toJson, Json.depth, Json.depthOfEntries, Op.depth, path]
  | delete id segments =>
      simp [Op.toJson, Json.depth, Json.depthOfEntries, Op.depth, path]

/-- A log nests one level more than its ops. -/
theorem Log.depth_toJson_le_iff {levels : Nat} {log : Log} :
    log.toJson.depth ≤ levels + 3 ↔ ∀ op ∈ log, op.depth ≤ levels + 1 := by
  rw [Log.toJson, Json.ofList, Json.depth, Nat.add_le_add_iff_right, Json.depthOfItems_le_iff,
    List.forall_mem_map]
  exact forall₂_congr fun op _ => Op.depth_toJson_le_iff

variable {numbers : Number -> Prop}

/-- The value that an op sets fits when the op does. -/
theorem Op.fits_of_toJson {levels : Nat} {op : Op} (fits : op.toJson.Fits numbers (levels + 1)) :
    op.Fits numbers levels := by
  cases op with
  | set id path value =>
      cases fits with
      | object fit distinct => exact fit ("value", value) (by simp)
  | delete id path => trivial

/-- A log fits when its ops do, two levels below. -/
theorem Log.fits_toJson_iff (whole : ∀ value, numbers (.int value)) {levels : Nat} {log : Log} :
    log.toJson.Fits numbers (levels + 3) ↔ ∀ op ∈ log, op.Fits numbers (levels + 1) := by
  constructor
  · intro fits op member
    cases fits with
    | array fit => exact Op.fits_of_toJson (fit _ (List.mem_map_of_mem member))
  · intro fit
    refine .array fun item member => ?_
    obtain ⟨op, held, rfl⟩ := List.mem_map.mp member
    exact (fit op held).toJson whole

namespace StoredDocument

variable {stored : StoredDocument}

section

variable {levels : Nat} {version defaults log : Json} {updatedAt : String}

/-- The members stand one level below the stored document. -/
theorem depth_members_le_iff :
    (Json.object [("schemaVersion", version), ("updatedAt", .string updatedAt),
        ("defaults", defaults), ("overrides", log)]).depth ≤ levels + 1
      ↔ version.depth ≤ levels ∧ defaults.depth ≤ levels ∧ log.depth ≤ levels := by
  rw [Json.depth, Nat.add_le_add_iff_right, Json.depthOfEntries_le_iff]
  simp [Json.depth]

theorem fits_members_iff :
    (Json.object [("schemaVersion", version), ("updatedAt", .string updatedAt),
        ("defaults", defaults), ("overrides", log)]).Fits numbers (levels + 1)
      ↔ version.Fits numbers levels ∧ defaults.Fits numbers levels ∧ log.Fits numbers levels := by
  constructor
  · intro fits
    cases fits with
    | object fit distinct =>
        exact ⟨fit ("schemaVersion", version) (by simp), fit ("defaults", defaults) (by simp),
          fit ("overrides", log) (by simp)⟩
  · rintro ⟨versionFits, defaultsFit, logFits⟩
    refine .object ?_ (by decide : memberNames.Nodup)
    simp only [List.forall_mem_cons]
    exact ⟨versionFits, .string _, defaultsFit, logFits, List.forall_mem_nil _⟩

end

/-- A stored document nests no more levels than a reader goes exactly when its parts nest no more
than they may. -/
theorem depth_toJson_le_iff (current : stored.version = schemaVersion) :
    stored.toJson.depth ≤ Written.greatestDepth
      ↔ stored.document.defaults.depth ≤ memberDepth
        ∧ ∀ op ∈ stored.document.log, op.depth ≤ memberDepth - 2 := by
  have members : stored.toJson.depth ≤ Written.greatestDepth
      ↔ (Json.ofNat stored.version).depth ≤ memberDepth
        ∧ stored.document.defaults.depth ≤ memberDepth
        ∧ stored.document.log.toJson.depth ≤ memberDepth := depth_members_le_iff
  have version : (Json.ofNat stored.version).depth ≤ memberDepth := by
    rw [current]
    exact Nat.zero_le _
  have log : stored.document.log.toJson.depth ≤ memberDepth
      ↔ ∀ op ∈ stored.document.log, op.depth ≤ memberDepth - 2 := Log.depth_toJson_le_iff
  rw [members, log]
  exact and_iff_right version

/-- The tree of a stored document fits when the parts of its document do. -/
theorem fits_toJson_iff (whole : ∀ value, numbers (.int value))
    (current : stored.version = schemaVersion) :
    stored.toJson.Fits numbers Written.greatestDepth ↔ stored.document.Fits numbers := by
  have members : stored.toJson.Fits numbers Written.greatestDepth
      ↔ (Json.ofNat stored.version).Fits numbers memberDepth
        ∧ stored.document.defaults.Fits numbers memberDepth
        ∧ stored.document.log.toJson.Fits numbers memberDepth := fits_members_iff
  have version : (Json.ofNat stored.version).Fits numbers memberDepth := by
    rw [current]
    exact .number (whole (WordInt.ofUInt64 1))
  have log : stored.document.log.toJson.Fits numbers memberDepth
      ↔ ∀ op ∈ stored.document.log, op.Fits numbers (memberDepth - 2) :=
    Log.fits_toJson_iff whole
  rw [members, log]
  exact ⟨fun fit => ⟨fit.2.1, fit.2.2⟩, fun fit => ⟨version, fit.defaults, fit.log⟩⟩

end StoredDocument

/-- A document is read back exactly when its parts nest no more than they may. -/
theorem Document.isSome_readBack?_iff {document : Document Json} :
    document.readBack?.isSome ↔ document.defaults.depth ≤ StoredDocument.memberDepth
      ∧ ∀ op ∈ document.log, op.depth ≤ StoredDocument.memberDepth - 2 := by
  have log : (document.log.mapM (Op.readBack? (StoredDocument.memberDepth - 2))).isSome
      ↔ ∀ op ∈ document.log, op.depth ≤ StoredDocument.memberDepth - 2 := by
    rw [isSome_mapM_iff]
    exact forall₂_congr fun op _ => Op.isSome_readBack?_iff
  rw [← log, ← Json.isSome_readBack?_iff, readBack?]
  cases document.defaults.readBack? StoredDocument.memberDepth <;>
    cases document.log.mapM (Op.readBack? (StoredDocument.memberDepth - 2)) <;> simp

namespace FileStore

variable {δ : Type} [StoreDirectory δ] {store after : FileStore δ} {owner : String}

/-- The document that a store writes at its time, with what is stored beside it. -/
def stamped (store : FileStore δ) (document : Document Json) : StoredDocument :=
  { version := schemaVersion, updatedAt := store.now, document }

/-- A file that was written is loaded as what its document is read back as, or not at all. -/
theorem load_of_written (accepted : OwnerId.fault? owner = none) {document : Document Json}
    (clock : store.now.IsRegular)
    (written : after.file owner = .ok (store.stamped document).toContent) :
    after.load owner = document.readBack?.elim (.error .malformed) .ok := by
  have current : (store.stamped document).version = schemaVersion := rfl
  have read := StoredDocument.ofContent?_toContent current clock
  rw [FileStore.load]
  cases found : document.readBack? with
  | none =>
      rw [stamped, found] at read
      rw [loadStored_of_malformed accepted written read]
      rfl
  | some loaded =>
      rw [stamped, found] at read
      rw [loadStored_of_file accepted written read current]
      rfl

/-- A start of an accepted owner's document, once the directory is made, writes the defaults
with an empty log. -/
theorem init_of_created (accepted : OwnerId.fault? owner = none) {directory : δ}
    (created : StoreDirectory.create store.directory = (.ok (), directory)) (defaults : Json) :
    store.init owner defaults
      = ((({ store with directory }).writeStored owner
            (store.stamped { defaults, log := [] })).1.map
          fun _ => store.stamped { defaults, log := [] },
        (({ store with directory }).writeStored owner
          (store.stamped { defaults, log := [] })).2) := by
  rw [init, checkOwner_eq_ok_iff.mpr accepted]
  simp only [created]
  rfl

/-- A start that succeeds has made the directory and written to it. -/
theorem exists_of_init {defaults : Json} {stored : StoredDocument}
    (started : store.init owner defaults = (.ok stored, after)) :
    OwnerId.fault? owner = none ∧ stored = store.stamped { defaults, log := [] }
      ∧ ∃ directory, StoreDirectory.create store.directory = (.ok (), directory)
        ∧ ({ store with directory }).writeStored owner stored = (.ok (), after) := by
  cases checked : checkOwner owner with
  | error fault =>
      rw [init, checked] at started
      cases (Prod.mk.inj started).1
  | ok =>
      have accepted := checkOwner_eq_ok_iff.mp checked
      rcases created : StoreDirectory.create store.directory with ⟨_ | _, directory⟩
      · rw [init, checked] at started
        simp only [created] at started
        cases (Prod.mk.inj started).1
      · rw [init_of_created accepted created] at started
        obtain ⟨done, rfl⟩ := Prod.mk.inj started
        rcases wrote : ({ store with directory }).writeStored owner
          (store.stamped { defaults, log := [] }) with ⟨_ | ⟨⟩, written⟩
        · rw [wrote] at done
          cases done
        · rw [wrote] at done
          cases done
          exact ⟨accepted, rfl, directory, rfl, by rw [wrote]⟩

/-- Only an accepted owner has a document. -/
theorem accepted_of_load {document : Document Json} (loaded : store.load owner = .ok document) :
    OwnerId.fault? owner = none := by
  obtain ⟨stored, found, -⟩ := exists_of_load loaded
  exact (exists_of_loadStored found).1

/-- A save for an owner whose document is loaded writes the defaults with the new log. -/
theorem save_of_load {document : Document Json} (loaded : store.load owner = .ok document)
    (log : Log) :
    store.save owner log = store.writeStored owner (store.stamped { document with log }) := by
  obtain ⟨stored, found, rfl⟩ := exists_of_load loaded
  obtain ⟨-, current, -⟩ := exists_of_loadStored found
  rw [save, found, stamped, ← current]

/-- Whether a directory takes contents as the file of an owner's document, by way of the
temporary file. -/
def Takes (directory : δ) (owner : String) (content : Content) : Prop :=
  ∃ written renamed,
    StoreDirectory.write directory (OwnerId.temporaryName owner) content = .ok written
      ∧ StoreDirectory.rename written (OwnerId.temporaryName owner) (OwnerId.documentName owner)
        = .ok renamed

theorem writeStored_of_takes {stored : StoredDocument}
    (takes : Takes store.directory owner stored.toContent) :
    ∃ after, store.writeStored owner stored = (.ok (), after) := by
  obtain ⟨written, renamed, wrote, moved⟩ := takes
  refine ⟨{ store with directory := renamed }, ?_⟩
  simp only [writeStored, wrote, moved]

/-- A directory takes every file in place of another file. -/
theorem takes_holding {entries : List (String × DirectoryEntry)}
    (temporary : Entries.get? (OwnerId.temporaryName owner) entries ≠ some .directory)
    (document : Entries.get? (OwnerId.documentName owner) entries ≠ some .directory)
    (content : Content) : Takes (Directory.holding entries) owner content := by
  have apart := OwnerId.temporaryName_ne_documentName owner owner
  refine ⟨.holding (Entries.insert (OwnerId.temporaryName owner) (.file content) entries),
    .holding (Entries.insert (OwnerId.documentName owner) (.file content) (Entries.erase
      (OwnerId.temporaryName owner)
      (Entries.insert (OwnerId.temporaryName owner) (.file content) entries))), ?_, ?_⟩
  · simp only [StoreDirectory.write, Directory.write]
  · simp only [StoreDirectory.rename, Directory.rename, Entries.get?_insert_self,
      Entries.get?_insert_of_ne apart]

variable [LawfulDirectory δ]

/-- A start that succeeds leaves the defaults with an empty log in the owner's file. -/
theorem file_of_init {defaults : Json} {stored : StoredDocument}
    (started : store.init owner defaults = (.ok stored, after)) :
    after.file owner = .ok stored.toContent := by
  obtain ⟨accepted, -, directory, -, wrote⟩ := exists_of_init started
  obtain ⟨-, ⟨_, failed, -⟩ | ⟨-, own, -⟩⟩ := writeStored_cases accepted wrote
  · cases failed
  · exact own

/-- A save that succeeds leaves the defaults that were loaded with the new log. -/
theorem file_of_save {document : Document Json} {log : Log}
    (loaded : store.load owner = .ok document)
    (saved : store.save owner log = (.ok (), after)) :
    OwnerId.fault? owner = none
      ∧ after.file owner = .ok (store.stamped { document with log }).toContent := by
  have accepted := accepted_of_load loaded
  rw [save_of_load loaded] at saved
  obtain ⟨-, ⟨_, failed, -⟩ | ⟨-, own, -⟩⟩ := writeStored_cases accepted saved
  · cases failed
  · exact ⟨accepted, own⟩

/-! ## Every write -/

/-- What becomes of a stored document that was written. -/
structure LoadsWritten (after : FileStore δ) (owner : String) (written : StoredDocument) :
    Prop where
  /-- It is loaded exactly when its file nests no more levels than a reader goes. -/
  loads : (∃ document, after.load owner = .ok document)
    ↔ written.toJson.depth ≤ Written.greatestDepth
  /-- If it is not, then the file does not read as a document. -/
  lost : Written.greatestDepth < written.toJson.depth ->
    after.load owner = .error .malformed

omit [LawfulDirectory δ] in
theorem loadsWritten_of_file (accepted : OwnerId.fault? owner = none) {document : Document Json}
    (clock : store.now.IsRegular)
    (written : after.file owner = .ok (store.stamped document).toContent) :
    after.LoadsWritten owner (store.stamped document) := by
  have current : (store.stamped document).version = schemaVersion := rfl
  have known : (store.stamped document).toJson.depth ≤ Written.greatestDepth
      ↔ document.readBack?.isSome :=
    (StoredDocument.depth_toJson_le_iff current).trans Document.isSome_readBack?_iff.symm
  have loaded := load_of_written accepted clock written
  refine ⟨?_, ?_⟩
  · rw [known, loaded]
    cases document.readBack? <;> simp
  · rw [← not_le, known, loaded]
    cases document.readBack? <;> simp

/-- After a document was written, by a start or by a save, it is loaded exactly when its file
nests no more levels than a reader goes. Nothing else can keep it from being loaded, but what is
deeper is written as well. -/
theorem loads_after_write (store : FileStore δ) (owner : String) (clock : store.now.IsRegular) :
    (∀ defaults stored after, store.init owner defaults = (.ok stored, after) ->
      after.LoadsWritten owner stored)
    ∧ ∀ document log after, store.load owner = .ok document ->
      store.save owner log = (.ok (), after) ->
        after.LoadsWritten owner (store.stamped { document with log }) := by
  constructor
  · intro defaults stored after started
    obtain ⟨accepted, rfl, -⟩ := exists_of_init started
    exact loadsWritten_of_file accepted clock (file_of_init started)
  · intro document log after loaded saved
    obtain ⟨accepted, own⟩ := file_of_save loaded saved
    exact loadsWritten_of_file accepted clock own

/-- A store in a directory that is not there yet. -/
def unmade : FileStore Directory where
  directory := .missing
  now := ⟨0, 0⟩

theorem isRegular_unmade : unmade.now.IsRegular :=
  ⟨by decide, by decide⟩

/-- Every document can be started where no directory is yet. -/
theorem exists_init_unmade {owner : String} (accepted : OwnerId.fault? owner = none)
    (defaults : Json) :
    ∃ after, unmade.init owner defaults
      = (.ok (unmade.stamped { defaults, log := [] }), after) := by
  have made : StoreDirectory.create unmade.directory = (.ok (), Directory.holding []) := rfl
  obtain ⟨after, wrote⟩ := writeStored_of_takes
    (show Takes ({ unmade with directory := .holding [] } : FileStore Directory).directory owner
        (unmade.stamped { defaults, log := [] }).toContent from
      takes_holding (by simp [Entries.get?]) (by simp [Entries.get?]) _)
  refine ⟨after, ?_⟩
  rw [init_of_created accepted made, wrote]
  rfl

/-- Arrays in one another. -/
def nested : Nat -> Json
  | 0 => .null
  | levels + 1 => .array [nested levels]

theorem depth_nested (levels : Nat) : (nested levels).depth = levels := by
  induction levels with
  | zero => rfl
  | succ levels inductionHypothesis =>
      simp [nested, Json.depth, Json.depthOfItems, inductionHypothesis]

theorem depth_stamped_nested_le_iff {levels : Nat} :
    (unmade.stamped { defaults := nested levels, log := [] }).toJson.depth ≤ Written.greatestDepth
      ↔ levels ≤ 126 := by
  rw [StoredDocument.depth_toJson_le_iff rfl]
  simp [stamped, depth_nested, StoredDocument.memberDepth, Written.greatestDepth]

/-- Defaults of 126 levels are loaded again. Defaults of one level more, which a reader takes as
they are, are written and lost. -/
theorem loads_after_write_of_nested :
    unmade.now.IsRegular
      ∧ (∃ stored after, unmade.init "stage" (nested 126) = (.ok stored, after)
        ∧ ∃ document, after.load "stage" = .ok document)
      ∧ ∃ stored after, unmade.init "stage" (nested 127) = (.ok stored, after)
        ∧ after.load "stage" = .error .malformed := by
  have accepted : OwnerId.fault? "stage" = none := by decide
  obtain ⟨kept, keptStarted⟩ := exists_init_unmade accepted (nested 126)
  obtain ⟨lost, lostStarted⟩ := exists_init_unmade accepted (nested 127)
  have writes := (loads_after_write unmade "stage" isRegular_unmade).1
  refine ⟨isRegular_unmade, ⟨_, kept, keptStarted, ?_⟩, _, lost, lostStarted, ?_⟩
  · exact (writes _ _ _ keptStarted).loads.mpr (depth_stamped_nested_le_iff.mpr (by decide))
  · refine (writes _ _ _ lostStarted).lost ?_
    rw [← not_le, depth_stamped_nested_le_iff]
    decide

/-! ## Round trips -/

/-- Whether what is written for an owner is what is loaded afterwards. Files are written where
the directory takes them; their trees have no binary64 numbers, repeat no key and nest no more
levels than a reader goes. -/
structure RoundTrips (store : FileStore δ) (owner : String) : Prop where
  /-- A start gives the defaults with an empty log. -/
  init {directory : δ} {defaults : Json}
    (created : StoreDirectory.create store.directory = (.ok (), directory))
    (takes : Takes directory owner (store.stamped { defaults, log := [] }).toContent)
    (fits : (store.stamped { defaults, log := [] }).toJson.Fits Number.IsWhole
      Written.greatestDepth) :
    ∃ after, store.init owner defaults = (.ok (store.stamped { defaults, log := [] }), after)
      ∧ after.load owner = .ok { defaults, log := [] }
  /-- A save gives the defaults that were there before with the log that was saved. -/
  save {document : Document Json} {log : Log} (loaded : store.load owner = .ok document)
    (takes : Takes store.directory owner (store.stamped { document with log }).toContent)
    (fits : (store.stamped { document with log }).toJson.Fits Number.IsWhole
      Written.greatestDepth) :
    ∃ after, store.save owner log = (.ok (), after)
      ∧ after.load owner = .ok { document with log }

omit [LawfulDirectory δ] in
/-- A document whose tree fits and has no binary64 numbers is loaded as it was written. -/
theorem load_of_fits (accepted : OwnerId.fault? owner = none) (clock : store.now.IsRegular)
    {document : Document Json}
    (fits : (store.stamped document).toJson.Fits Number.IsWhole Written.greatestDepth)
    (written : after.file owner = .ok (store.stamped document).toContent) :
    after.load owner = .ok document := by
  have readable : document.Fits Number.ReadsBack :=
    (StoredDocument.fits_toJson_iff Number.readsBack_int rfl).mp
      (fits.imp fun _ => Number.IsWhole.readsBack)
  rw [load_of_written accepted clock written, readable.readBack?_eq]
  rfl

/-- What is written for an accepted owner is what is loaded afterwards: the defaults, and the ops
with their ids, their paths and their values, down to the order of keys. -/
theorem roundTrips (store : FileStore δ) {owner : String} (accepted : OwnerId.fault? owner = none)
    (clock : store.now.IsRegular) : store.RoundTrips owner where
  init {directory defaults} created takes fits := by
    have takes : Takes ({ store with directory } : FileStore δ).directory owner _ := takes
    obtain ⟨after, wrote⟩ := writeStored_of_takes takes
    have started : store.init owner defaults
        = (.ok (store.stamped { defaults, log := [] }), after) := by
      rw [init_of_created accepted created, wrote]
      rfl
    exact ⟨after, started, load_of_fits accepted clock fits (file_of_init started)⟩
  save {document log} loaded takes fits := by
    obtain ⟨after, wrote⟩ := writeStored_of_takes takes
    have saved : store.save owner log = (.ok (), after) := by
      rw [save_of_load loaded, wrote]
    exact ⟨after, saved, load_of_fits accepted clock fits (file_of_save loaded saved).2⟩

/-- A document with a key and an index of the same text. -/
def seventh : Document Json where
  defaults := .object [("left", .object [("7", .bool true), ("name", .string "Left")])]
  log := [.set "o1" [.key "left", .key "7"] (.array [.int (WordInt.ofUInt64 7), .null]),
    .delete "o2" [.key "left", .key "rows", .index 7]]

theorem fits_seventh {log : Log} (part : log ⊆ seventh.log) :
    Document.Fits Number.IsWhole { seventh with log } where
  defaults := by
    have fits : seventh.defaults.Fits Number.IsWhole 2 := by
      refine .object ?_ (by decide)
      simp only [List.forall_mem_cons]
      refine ⟨.object ?_ (by decide), List.forall_mem_nil _⟩
      simp only [List.forall_mem_cons]
      exact ⟨.bool _, .string _, List.forall_mem_nil _⟩
    exact fits.mono (by decide)
  log := by
    have fit : ∀ op ∈ seventh.log, op.Fits Number.IsWhole 124 := by
      simp only [seventh, List.forall_mem_cons]
      refine ⟨.array ?_, trivial, List.forall_mem_nil _⟩
      simp only [List.forall_mem_cons]
      exact ⟨.number ⟨_, rfl⟩, .null, List.forall_mem_nil _⟩
    exact fun op member => fit op (part member)

/-- A store whose directory has the file of that document without its log. -/
def ofSeventh : FileStore Directory where
  directory := .holding [("stage.json",
    .file (unmade.stamped { seventh with log := [] }).toContent)]
  now := unmade.now

/-- A document starts with its defaults and is saved with its log. -/
theorem roundTrips_seventh :
    OwnerId.fault? "stage" = none ∧ unmade.now.IsRegular
      ∧ (∃ after, unmade.init "stage" seventh.defaults
          = (.ok (unmade.stamped { seventh with log := [] }), after)
        ∧ after.load "stage" = .ok { seventh with log := [] })
      ∧ ∃ after, ofSeventh.save "stage" seventh.log = (.ok (), after)
        ∧ after.load "stage" = .ok seventh := by
  have accepted : OwnerId.fault? "stage" = none := by decide
  have fits : ∀ {log : Log}, log ⊆ seventh.log ->
      (unmade.stamped { seventh with log }).toJson.Fits Number.IsWhole Written.greatestDepth :=
    fun part => (StoredDocument.fits_toJson_iff (fun _ => ⟨_, rfl⟩) rfl).mpr (fits_seventh part)
  have name : OwnerId.documentName "stage" = "stage.json" := by decide
  have held : ofSeventh.load "stage" = .ok { seventh with log := [] } := by
    refine load_of_fits accepted isRegular_unmade (fits (List.nil_subset _)) ?_
    rw [file, name]
    exact Directory.read_holding _ _
  refine ⟨accepted, isRegular_unmade, ?_, ?_⟩
  · refine (roundTrips unmade accepted isRegular_unmade).init rfl ?_ (fits (List.nil_subset _))
    exact takes_holding (by simp [Entries.get?]) (by simp [Entries.get?]) _
  · refine (roundTrips ofSeventh accepted isRegular_unmade).save held ?_ (fits (List.Subset.refl _))
    exact takes_holding (by decide) (by decide) _

end FileStore

end LayerRouting
