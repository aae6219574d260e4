import LayerRouting.Proofs.Store.RoundTrip

/-!
# Writes that happen as a whole

A store of files starts or saves a document as a whole or not at all, whatever its directory
holds. What is asked of the directory is said by its entries (`ListedDirectory`): making it adds
none, a file that is written has all its contents, a file that is renamed takes the place of the
other name in one step, and no file takes the place of a directory. Then a write that fails leaves
every document as it was and adds no entry, and one that succeeds changes the document of its
owner and leaves no temporary file (`FileStore.writesWhole`).
-/

namespace LayerRouting

open OwnerId (IsFileName documentName temporaryName)

/-- The entries of a store's directory, and what each operation does to them. -/
class ListedDirectory (δ : Type) [StoreDirectory δ] where
  /-- The entry of a name. -/
  entryAt? : δ -> String -> Option DirectoryEntry
  /-- Making a directory adds no entry to it, whether it can be made or not. -/
  entryAt?_created (directory : δ) (name : String) :
    entryAt? (StoreDirectory.create directory).2 name = entryAt? directory name
  /-- A file is written with all its contents and concerns its name. -/
  entryAt?_written {directory after : δ} {name : String} {content : Content}
    (file : IsFileName name)
    (written : StoreDirectory.write directory name content = .ok after) (other : String) :
    entryAt? after other = if other = name then some (.file content) else entryAt? directory other
  /-- A renamed file leaves its name and takes the place of the other. -/
  entryAt?_renamed {directory after : δ} {name target : String} (file : IsFileName name)
    (targetFile : IsFileName target) (distinct : name ≠ target)
    (renamed : StoreDirectory.rename directory name target = .ok after) (other : String) :
    entryAt? after other
      = if other = target then entryAt? directory name
        else if other = name then none else entryAt? directory other
  /-- No file takes the place of a directory. -/
  not_directory_of_renamed {directory after : δ} {name target : String} (file : IsFileName name)
    (targetFile : IsFileName target)
    (renamed : StoreDirectory.rename directory name target = .ok after) :
    entryAt? directory target ≠ some .directory
  /-- Removing a file concerns its name. -/
  entryAt?_removed {directory : δ} {name : String} {content : Content} (file : IsFileName name)
    (there : entryAt? directory name = some (.file content)) (other : String) :
    entryAt? (StoreDirectory.remove directory name) other
      = if other = name then none else entryAt? directory other

/-! ## Directories of entries -/

namespace Directory

theorem get_holding (entries : List (String × DirectoryEntry)) (name : String) :
    entry? (holding entries) name = Entries.get? name entries :=
  rfl

instance : ListedDirectory Directory where
  entryAt? := entry?
  entryAt?_created directory name := by
    cases directory <;> rfl
  entryAt?_written {directory after name content} _ written other := by
    simp only [StoreDirectory.write, write] at written
    split at written
    · cases written
    · cases written
    · split at written
      · cases written
      · cases written
        rw [get_holding, Entries.get?_insert]
        simp only [get_holding, eq_comm]
  entryAt?_renamed {directory after name target} _ _ _ renamed other := by
    simp only [StoreDirectory.rename, rename] at renamed
    split at renamed
    · cases renamed
    · cases renamed
    · split at renamed
      · cases renamed
      · cases renamed
      · next found _ =>
          cases renamed
          rw [get_holding, Entries.get?_insert, Entries.get?_erase, get_holding, found]
          simp only [get_holding, eq_comm]
  not_directory_of_renamed {directory after name target} _ _ renamed := by
    simp only [StoreDirectory.rename, rename] at renamed
    split at renamed
    · cases renamed
    · cases renamed
    · split at renamed
      · cases renamed
      · cases renamed
      · next noDirectory => exact noDirectory
  entryAt?_removed {directory name content} _ there other := by
    cases directory with
    | missing | blocked => cases there
    | holding entries =>
        simp only [StoreDirectory.remove, remove, get_holding, Entries.get?_erase, eq_comm]

end Directory

/-! ## Stores of files -/

namespace FileStore

variable {δ : Type} [StoreDirectory δ] [ListedDirectory δ] {store after : FileStore δ}
  {owner : String}

/-- The entry of a name in the directory of a store. -/
def entryAt? (store : FileStore δ) (name : String) : Option DirectoryEntry :=
  ListedDirectory.entryAt? store.directory name

/-- What a write that fails leaves. -/
structure Untouched (before after : FileStore δ) : Prop where
  /-- Whatever stands under the name of a document is as it was. -/
  documents (owner : String) :
    after.entryAt? (documentName owner) = before.entryAt? (documentName owner)
  /-- No new entry appears. -/
  noneAppears {name : String} (absent : before.entryAt? name = none) : after.entryAt? name = none

/-- What a write of an owner's document that succeeds leaves. -/
structure Replaced (before after : FileStore δ) (owner : String) (content : Content) : Prop where
  /-- The document has its new contents. -/
  document : after.entryAt? (documentName owner) = some (.file content)
  /-- No directory stood in its place. -/
  noDirectory : before.entryAt? (documentName owner) ≠ some .directory
  /-- The temporary file is gone. -/
  noTemporary : after.entryAt? (temporaryName owner) = none
  /-- Every other entry is as it was. -/
  others {name : String} (notDocument : name ≠ documentName owner)
    (notTemporary : name ≠ temporaryName owner) : after.entryAt? name = before.entryAt? name

theorem Untouched.refl (store : FileStore δ) : store.Untouched store :=
  ⟨fun _ => rfl, fun absent => absent⟩

/-- Making the directory first changes nothing that a write leaves. -/
theorem entryAt?_created {directory : δ} {result : Except FileFault Unit}
    (created : StoreDirectory.create store.directory = (result, directory)) (name : String) :
    ({ store with directory } : FileStore δ).entryAt? name = store.entryAt? name := by
  have same := ListedDirectory.entryAt?_created store.directory name
  rw [created] at same
  exact same

theorem Untouched.of_created {directory : δ} {result : Except FileFault Unit}
    (created : StoreDirectory.create store.directory = (result, directory))
    (untouched : ({ store with directory } : FileStore δ).Untouched after) :
    store.Untouched after where
  documents other := (untouched.documents other).trans (entryAt?_created created _)
  noneAppears absent := untouched.noneAppears ((entryAt?_created created _).trans absent)

theorem Replaced.of_created {directory : δ} {result : Except FileFault Unit} {content : Content}
    (created : StoreDirectory.create store.directory = (result, directory))
    (replaced : ({ store with directory } : FileStore δ).Replaced after owner content) :
    store.Replaced after owner content where
  document := replaced.document
  noDirectory := entryAt?_created created _ ▸ replaced.noDirectory
  noTemporary := replaced.noTemporary
  others notDocument notTemporary :=
    (replaced.others notDocument notTemporary).trans (entryAt?_created created _)

/-- A temporary file that becomes the document replaces it. -/
theorem Replaced.of_renamed (accepted : OwnerId.fault? owner = none) {content : Content}
    {directory final : δ}
    (made : StoreDirectory.write store.directory (temporaryName owner) content = .ok directory)
    (moved : StoreDirectory.rename directory (temporaryName owner) (documentName owner)
      = .ok final) :
    store.Replaced { store with directory := final } owner content := by
  have temporaryFile := OwnerId.isFileName_temporaryName accepted
  have documentFile := OwnerId.isFileName_documentName accepted
  have apart := OwnerId.temporaryName_ne_documentName owner owner
  have entries := ListedDirectory.entryAt?_written temporaryFile made
  have movedEntries := ListedDirectory.entryAt?_renamed temporaryFile documentFile apart moved
  refine ⟨?_, ?_, ?_, ?_⟩
  · rw [entryAt?, movedEntries, if_pos rfl, entries, if_pos rfl]
  · have noDirectory :=
      ListedDirectory.not_directory_of_renamed temporaryFile documentFile moved
    rwa [entries, if_neg apart.symm] at noDirectory
  · rw [entryAt?, movedEntries, if_neg apart, if_pos rfl]
  · intro name notDocument notTemporary
    rw [entryAt?, movedEntries, if_neg notDocument, if_neg notTemporary, entries,
      if_neg notTemporary, entryAt?]

/-- A temporary file that is removed again leaves everything untouched: no document has its name,
though a file may have had it before. -/
theorem Untouched.of_removed (accepted : OwnerId.fault? owner = none) {content : Content}
    {directory : δ}
    (made : StoreDirectory.write store.directory (temporaryName owner) content = .ok directory) :
    store.Untouched
      { store with directory := StoreDirectory.remove directory (temporaryName owner) } := by
  have temporaryFile := OwnerId.isFileName_temporaryName accepted
  have apart := OwnerId.temporaryName_ne_documentName owner
  have entries := ListedDirectory.entryAt?_written temporaryFile made
  have there : ListedDirectory.entryAt? directory (temporaryName owner)
      = some (.file content) := by
    rw [entries, if_pos rfl]
  have left := ListedDirectory.entryAt?_removed temporaryFile there
  refine ⟨fun other => ?_, fun {name} absent => ?_⟩
  · rw [entryAt?, left, if_neg (apart other).symm, entries, if_neg (apart other).symm, entryAt?]
  · rw [entryAt?, left]
    split
    · rfl
    · next notTemporary => rwa [entries, if_neg notTemporary]

/-- Writing by way of the temporary file replaces the document or leaves everything untouched:
it fails before there is a temporary file, or the temporary file is removed again, or it becomes
the document. -/
theorem writeStored_whole (accepted : OwnerId.fault? owner = none) {stored : StoredDocument}
    {result : Except StoreError Unit} (written : store.writeStored owner stored = (result, after)) :
    (∃ error, result = .error error ∧ store.Untouched after)
      ∨ result = .ok () ∧ store.Replaced after owner stored.toContent := by
  rw [writeStored] at written
  split at written
  · cases written
    exact .inl ⟨_, rfl, .refl store⟩
  · next directory made =>
      split at written
      · next moved =>
          cases written
          exact .inr ⟨rfl, .of_renamed accepted made moved⟩
      · cases written
        exact .inl ⟨_, rfl, .of_removed accepted made⟩

/-! ## Starts and saves -/

/-- A start that fails has made a directory at most. -/
theorem Untouched.of_init {defaults : Json} {error : StoreError}
    (failed : store.init owner defaults = (.error error, after)) : store.Untouched after := by
  cases checked : checkOwner owner with
  | error fault =>
      rw [init, checked] at failed
      cases failed
      exact .refl store
  | ok =>
      have accepted := checkOwner_eq_ok_iff.mp checked
      rcases created : StoreDirectory.create store.directory with ⟨_ | _, directory⟩
      · rw [init, checked] at failed
        simp only [created] at failed
        cases failed
        exact .of_created created (.refl _)
      · rw [init_of_created accepted created] at failed
        rcases wrote : ({ store with directory }).writeStored owner
          (store.stamped { defaults, log := [] }) with ⟨answer, written⟩
        rw [wrote] at failed
        obtain ⟨_, rfl, untouched⟩ | ⟨rfl, -⟩ := writeStored_whole accepted wrote
        · cases failed
          exact untouched.of_created created
        · cases failed

theorem Replaced.of_init {defaults : Json} {stored : StoredDocument}
    (started : store.init owner defaults = (.ok stored, after)) :
    store.Replaced after owner stored.toContent := by
  obtain ⟨accepted, -, directory, created, wrote⟩ := exists_of_init started
  obtain ⟨_, failed, -⟩ | ⟨-, replaced⟩ := writeStored_whole accepted wrote
  · cases failed
  · exact replaced.of_created created

/-- A save that fails has read the document it was to replace, or could not. -/
theorem Untouched.of_save {log : Log} {error : StoreError}
    (failed : store.save owner log = (.error error, after)) : store.Untouched after := by
  cases found : store.loadStored owner with
  | error fault =>
      rw [save, found] at failed
      cases failed
      exact .refl store
  | ok stored =>
      rw [save, found] at failed
      obtain ⟨_, -, untouched⟩ | ⟨done, -⟩ :=
        writeStored_whole (exists_of_loadStored found).1 failed
      · exact untouched
      · cases done

theorem exists_replaced_of_save {log : Log} (saved : store.save owner log = (.ok (), after)) :
    ∃ document, store.load owner = .ok document
      ∧ store.Replaced after owner (store.stamped { document with log }).toContent := by
  cases found : store.loadStored owner with
  | error fault =>
      rw [save, found] at saved
      cases saved
  | ok stored =>
      have loaded := load_of_loadStored found
      rw [save_of_load loaded] at saved
      obtain ⟨_, failed, -⟩ | ⟨-, replaced⟩ :=
        writeStored_whole (accepted_of_load loaded) saved
      · cases failed
      · exact ⟨stored.document, loaded, replaced⟩

/-- Whether every write of an owner's document, by a start or by a save, happens as a whole or not
at all. -/
structure WritesWhole (store : FileStore δ) (owner : String) : Prop where
  /-- A start that fails leaves everything untouched. -/
  init_error {defaults : Json} {error : StoreError} {after : FileStore δ}
    (failed : store.init owner defaults = (.error error, after)) : store.Untouched after
  /-- A start that succeeds replaces the document by the defaults with an empty log. -/
  init_ok {defaults : Json} {stored : StoredDocument} {after : FileStore δ}
    (started : store.init owner defaults = (.ok stored, after)) :
    stored = store.stamped { defaults, log := [] }
      ∧ store.Replaced after owner stored.toContent
  /-- A save that fails leaves everything untouched. -/
  save_error {log : Log} {error : StoreError} {after : FileStore δ}
    (failed : store.save owner log = (.error error, after)) : store.Untouched after
  /-- A save that succeeds replaces the document by its defaults with the new log. -/
  save_ok {log : Log} {after : FileStore δ} (saved : store.save owner log = (.ok (), after)) :
    ∃ document, store.load owner = .ok document
      ∧ store.Replaced after owner (store.stamped { document with log }).toContent

/-- A store of files writes a document as a whole or not at all, for every owner and whatever its
directory holds. -/
theorem writesWhole (store : FileStore δ) (owner : String) : store.WritesWhole owner where
  init_error := .of_init
  init_ok started := ⟨(exists_of_init started).2.1, .of_init started⟩
  save_error := .of_save
  save_ok := exists_replaced_of_save

/-- A directory in place of the document keeps the start from succeeding, and the temporary file is
removed again. -/
theorem writesWhole_of_blocked :
    let blocked : FileStore Directory :=
      { unmade with directory := .holding [("stage.json", .directory)] }
    blocked.init "stage" .null = (.error (.file .isADirectory), blocked)
      ∧ blocked.WritesWhole "stage" :=
  ⟨by decide, writesWhole _ _⟩

end FileStore

end LayerRouting
