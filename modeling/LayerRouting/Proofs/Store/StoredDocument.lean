import LayerRouting.Proofs.Override.Codec
import LayerRouting.Proofs.Override.Items
import LayerRouting.Proofs.Time.Timestamps
import LayerRouting.Store.StoredDocument

/-!
# Stored documents read back

The file of a stored document reads as the stored document
(`StoredDocument.ofContent?_toContent`) when its time is one that a clock gives and its
document fits: neither the defaults nor the values of ops nest too deep or repeat a key, and
their numbers read back. The limits on nesting are no limits on documents that come from a
file, since all of them keep within these (`StoredDocument.fits_of_ofContent?`) and repeat no
key (`StoredDocument.nodup_keys_defaults`).
-/

namespace LayerRouting

/-- Whether the parts of a document nest no deeper than they may in a stored one, and the
numbers in them have a property. -/
structure Document.Fits (numbers : Number -> Prop) (document : Document Json) : Prop where
  defaults : document.defaults.Fits numbers StoredDocument.memberDepth
  /-- The log's array and the op itself are two levels around the value of an op. -/
  log : ∀ op ∈ document.log, op.Fits numbers (StoredDocument.memberDepth - 2)

/-- Whether all numbers of a document read back. -/
structure Document.ReadsBack (document : Document Json) : Prop where
  defaults : document.defaults.ReadsBack
  log : ∀ op ∈ document.log, op.ReadsBack

theorem Document.Fits.of_readsBack {numbers : Number -> Prop} {document : Document Json}
    (fits : document.Fits numbers) (read : document.ReadsBack) :
    document.Fits Number.ReadsBack where
  defaults := fits.defaults.of_readsBack read.defaults
  log op member := (fits.log op member).of_readsBack (read.log op member)

/-- What a document is read as after it was written. -/
def Document.readBack? (document : Document Json) : Option (Document Json) := do
  let defaults ← document.defaults.readBack? StoredDocument.memberDepth
  let log ← document.log.mapM (Op.readBack? (StoredDocument.memberDepth - 2))
  some { defaults, log }

theorem Document.Fits.readBack?_eq {document : Document Json}
    (fits : document.Fits Number.ReadsBack) : document.readBack? = some document := by
  have log : document.log.mapM (Op.readBack? (StoredDocument.memberDepth - 2))
      = some (document.log.map id) :=
    mapM_eq_some_map fun op member => (fits.log op member).readBack?_eq
  rw [readBack?, fits.defaults.readBack?_eq, log, List.map_id]
  rfl

/-! ## Reading what was written -/

namespace Written

/-- An op as written: a member that is not repeated stands between the tree and the op. -/
theorem op?_of_distinct {levels : Nat} {entries : List (Option String × Written)}
    (distinct : hasDistinctKeys (opMembers entries) entries) :
    op? levels (.object entries) = (valueWithin levels (.object entries)).bind Op.ofJson? :=
  if_pos distinct

/-- An op is read from its tree with its value as it is read again. -/
theorem op?_reread {levels : Nat} (op : Op) :
    op? (levels + 2) (ofJson op.toJson.reread) = op.readBack? (levels + 1) := by
  have pathRead : ∀ path : Path, (ofJson path.toJson).valueWithin (levels + 1) = some path.toJson :=
    fun path => (Path.fits_toJson Number.readsBack_int levels path).valueWithin_ofJson
  cases op with
  | set id path value =>
      have within : (ofJson (Op.set id path value).toJson.reread).valueWithin (levels + 2)
          = (value.readBack? (levels + 1)).map fun value => (Op.set id path value).toJson := by
        simp only [Op.toJson, Json.reread, Json.rereadEntries, path.reread_toJson, ofJson,
          ofEntries, valueWithin, Json.readBack?]
        cases read : (ofJson value.reread).valueWithin (levels + 1) <;>
          simp [entriesWithin, valueWithin, pathRead, read, Entries.ofList, Entries.insert]
      have read : ((ofJson (Op.set id path value).toJson.reread).valueWithin (levels + 2)).bind
          Op.ofJson? = (Op.set id path value).readBack? (levels + 1) := by
        rw [within, Op.readBack?]
        cases value.readBack? (levels + 1) with
        | none => rfl
        | some value => exact (Op.set id path value).ofJson?_toJson
      rw [← read]
      refine op?_of_distinct ?_
      simp [Json.reread, Json.rereadEntries, ofEntries, ofJson, opMembers, member?, hasDistinctKeys,
        occurrences]
  | delete id path =>
      have within : (ofJson (Op.delete id path).toJson.reread).valueWithin (levels + 2)
          = some (Op.delete id path).toJson := by
        simp only [Op.toJson, Json.reread, Json.rereadEntries, path.reread_toJson, ofJson,
          ofEntries, valueWithin]
        simp [entriesWithin, valueWithin, pathRead, Entries.ofList, Entries.insert]
      have read : ((ofJson (Op.delete id path).toJson.reread).valueWithin (levels + 2)).bind
          Op.ofJson? = (Op.delete id path).readBack? (levels + 1) := by
        rw [within]
        exact (Op.delete id path).ofJson?_toJson
      rw [← read]
      refine op?_of_distinct ?_
      simp [Json.reread, Json.rereadEntries, ofEntries, ofJson, opMembers, member?, hasDistinctKeys,
        occurrences, Op.setKind, Op.deleteKind]

/-- A log is read from its tree op by op. -/
theorem log?_reread {levels : Nat} (log : Log) :
    log? (levels + 3) (ofJson log.toJson.reread) = log.mapM (Op.readBack? (levels + 1)) := by
  have each : op? (levels + 2) ∘ ofJson ∘ Json.reread ∘ Op.toJson = Op.readBack? (levels + 1) :=
    funext op?_reread
  rw [Log.toJson, Json.ofList, Json.reread, ofJson, log?, ofItems_eq_map, Json.rereadItems_eq_map,
    List.map_map, List.map_map, List.mapM_map]
  exact congrArg (List.mapM · log) each

theorem exists_of_op? {levels : Nat} {written : Written} {op : Op}
    (read : written.op? levels = some op) :
    ∃ tree, written.valueWithin levels = some tree ∧ Op.ofJson? tree = some op := by
  have guarded : ∀ distinct : Bool,
      (if distinct then (written.valueWithin levels).bind Op.ofJson? else none) = some op ->
      ∃ tree, written.valueWithin levels = some tree ∧ Op.ofJson? tree = some op := by
    rintro (_ | _) found
    · cases found
    · exact Option.bind_eq_some_iff.mp found
  exact guarded _ read

/-- The ops of a log that is read nest two levels less than the log. -/
theorem fits_of_log? {levels : Nat} {written : Written} {log : Log}
    (read : written.log? levels = some log) :
    ∀ op ∈ log, op.Fits (fun _ => True) (levels - 2) := by
  cases written with
  | array items =>
      cases levels with
      | zero => cases read
      | succ inner =>
          intro op member
          obtain ⟨item, -, found⟩ := exists_of_mem_mapM read op member
          obtain ⟨tree, within, opRead⟩ := exists_of_op? found
          have fits := (fits_of_valueWithin item within).mono (by omega : inner ≤ inner - 1 + 1)
          exact Op.fits_of_ofJson? fits opRead
  | null | bool | number | string | object => cases read

theorem version?_reread :
    version? (ofJson (Json.ofNat schemaVersion).reread) = some schemaVersion := by
  have whole : Json.ofNat schemaVersion = .int (WordInt.ofUInt64 1) := rfl
  rw [whole, Json.int, Json.reread, Number.readsBack_iff_reread_eq.mp (Number.readsBack_int _)]
  rfl

end Written

namespace StoredDocument

/-- The form with all members. -/
theorem ofWritten?_members (version updatedAt defaults log : Written) :
    ofWritten? (.object [(some "schemaVersion", version), (some "updatedAt", updatedAt),
        (some "defaults", defaults), (some "overrides", log)])
      = ofMembers? version updatedAt defaults (some log) := by
  simp [ofWritten?, Written.hasDistinctKeys, Written.occurrences, Written.member?, memberNames]

/-- The tree of a stored document's members is read with the document as it is read back. -/
theorem ofWritten?_reread {stored : StoredDocument} {version : Json}
    (versionRead : (Written.ofJson version.reread).version? = some stored.version)
    (regular : stored.updatedAt.IsRegular) :
    ofWritten? (Written.ofJson (Json.object [("schemaVersion", version),
        ("updatedAt", .string stored.updatedAt.text), ("defaults", stored.document.defaults),
        ("overrides", stored.document.log.toJson)]).reread)
      = stored.document.readBack?.map fun document => { stored with document } := by
  have log : (Written.ofJson stored.document.log.toJson.reread).log? memberDepth
      = stored.document.log.mapM (Op.readBack? (memberDepth - 2)) :=
    Written.log?_reread stored.document.log
  simp only [Json.reread, Json.rereadEntries, Written.ofJson, Written.ofEntries]
  rw [ofWritten?_members, ofMembers?, versionRead]
  simp only [Written.timestamp?, Timestamp.ofText?_text regular, log, Document.readBack?,
    Json.readBack?, Option.bind_eq_bind, Option.bind_some]
  cases Written.valueWithin memberDepth (Written.ofJson stored.document.defaults.reread) with
  | none => rfl
  | some defaults =>
      cases stored.document.log.mapM (Op.readBack? (memberDepth - 2)) <;> rfl

/-- The file of a stored document reads as what its document is read back as, with the version
and the time that were written. -/
theorem ofContent?_toContent {stored : StoredDocument} (current : stored.version = schemaVersion)
    (regular : stored.updatedAt.IsRegular) :
    ofContent? stored.toContent
      = stored.document.readBack?.map fun document => { stored with document } := by
  -- The members are read with the version's tree as a variable: unfolding `Json.ofNat` of a
  -- number that is no literal makes the kernel count through the bounds of a word.
  have version : (Written.ofJson (Json.ofNat stored.version).reread).version?
      = some stored.version := by
    rw [current, Written.version?_reread]
  rw [ofContent?, toContent, Written.parse?_indented, Option.bind_some]
  exact ofWritten?_reread version regular

/-- The file of a stored document whose document fits reads as the stored document. -/
theorem ofContent?_toContent_of_fits {stored : StoredDocument}
    (current : stored.version = schemaVersion) (regular : stored.updatedAt.IsRegular)
    (fits : stored.document.Fits Number.ReadsBack) :
    ofContent? stored.toContent = some stored := by
  rw [ofContent?_toContent current regular, fits.readBack?_eq]
  rfl

/-! ## Documents that were read -/

/-- Every stored document that is read comes from its members. -/
theorem exists_ofMembers? {content : Content} {stored : StoredDocument}
    (read : ofContent? content = some stored) :
    ∃ version updatedAt defaults log, ofMembers? version updatedAt defaults log = some stored := by
  obtain ⟨written, -, form⟩ := Option.bind_eq_some_iff.mp read
  simp only [ofWritten?] at form
  split at form
  · split at form
    · simp only [Option.bind_eq_bind, Option.bind_eq_some_iff] at form
      obtain ⟨_, -, _, -, _, -, made⟩ := form
      exact ⟨_, _, _, _, made⟩
    · cases form
  · exact ⟨_, _, _, _, form⟩
  · exact ⟨_, _, _, _, form⟩
  · cases form

/-- The document of a file that is read fits into a file. -/
theorem fits_of_ofContent? {content : Content} {stored : StoredDocument}
    (read : ofContent? content = some stored) : stored.document.Fits fun _ => True := by
  obtain ⟨version, updatedAt, defaults, log, made⟩ := exists_ofMembers? read
  simp only [ofMembers?, Option.bind_eq_bind, Option.bind_eq_some_iff] at made
  obtain ⟨_, -, _, -, tree, defaultsRead, made⟩ := made
  cases log with
  | none =>
      cases made
      exact ⟨Written.fits_of_valueWithin _ defaultsRead, List.forall_mem_nil _⟩
  | some written =>
      obtain ⟨ops, logRead, same⟩ := Option.bind_eq_some_iff.mp made
      cases same
      exact ⟨Written.fits_of_valueWithin _ defaultsRead, Written.fits_of_log? logRead⟩

/-- The defaults of a stored document that was read repeat no key. -/
theorem nodup_keys_defaults {content : Content} {stored : StoredDocument}
    (read : ofContent? content = some stored) : stored.document.defaults.keys.Nodup := by
  have fits := (fits_of_ofContent? read).defaults
  generalize stored.document.defaults = defaults at fits
  cases fits with
  | object fit distinct => exact distinct
  | null | bool | number | string | array => exact List.nodup_nil

end StoredDocument

end LayerRouting
