import LayerRouting.Proofs.Json.Entries
import LayerRouting.Proofs.Store.OwnerIds
import LayerRouting.Proofs.Store.StoredDocument
import LayerRouting.Store.File

/-!
# The store of files

What the store of files asks of its directory is `LawfulDirectory`: an operation concerns the
names that it is given, a file has what was written to it, and a renamed file has what it had.
Then a save that fails leaves every document's file as it was, and one that succeeds replaces
the file of its owner only (`FileStore.save_error`, `FileStore.save_ok`). The document is
loaded with its new log and its old defaults when their numbers read back
(`FileStore.load_saved`); other numbers may come back changed.
-/

namespace LayerRouting

open OwnerId (IsFileName)

/-- The contract of a store's directory. -/
class LawfulDirectory (δ : Type) [StoreDirectory δ] : Prop where
  /-- A file has what was written to it. -/
  read_written {directory after : δ} {name : String} {content : Content} (file : IsFileName name)
    (written : StoreDirectory.write directory name content = .ok after) :
    StoreDirectory.read after name = .ok content
  /-- Writing a file concerns its name. -/
  read_other_written {directory after : δ} {name other : String} {content : Content}
    (file : IsFileName name) (otherFile : IsFileName other) (distinct : other ≠ name)
    (written : StoreDirectory.write directory name content = .ok after) :
    StoreDirectory.read after other = StoreDirectory.read directory other
  /-- A file that took the place of a name has what it had. -/
  read_renamed {directory after : δ} {name target : String} (file : IsFileName name)
    (targetFile : IsFileName target) (distinct : name ≠ target)
    (renamed : StoreDirectory.rename directory name target = .ok after) :
    StoreDirectory.read after target = StoreDirectory.read directory name
  /-- Renaming a file concerns its two names. -/
  read_other_renamed {directory after : δ} {name target other : String} (file : IsFileName name)
    (targetFile : IsFileName target) (otherFile : IsFileName other) (notName : other ≠ name)
    (notTarget : other ≠ target)
    (renamed : StoreDirectory.rename directory name target = .ok after) :
    StoreDirectory.read after other = StoreDirectory.read directory other
  /-- Removing a file concerns its name. -/
  read_other_removed {directory : δ} {name other : String} (file : IsFileName name)
    (otherFile : IsFileName other) (distinct : other ≠ name) :
    StoreDirectory.read (StoreDirectory.remove directory name) other
      = StoreDirectory.read directory other

/-! ## Directories of entries -/

namespace Directory

theorem read_holding (entries : List (String × DirectoryEntry)) (name : String) :
    (holding entries).read name
      = match Entries.get? name entries with
        | none => .error .missing
        | some .directory => .error .isADirectory
        | some (.file content) => .ok content :=
  rfl

/-- Entries with the same view at a name have the same file there. -/
theorem read_congr {before after : List (String × DirectoryEntry)} {name other : String}
    (same : Entries.get? other after = Entries.get? name before) :
    (holding after).read other = (holding before).read name := by
  rw [read_holding, read_holding, same]

instance : LawfulDirectory Directory where
  read_written {directory after name content} _ written := by
    simp only [StoreDirectory.write, write] at written
    split at written
    · cases written
    · cases written
    · split at written
      · cases written
      · cases written
        simp [StoreDirectory.read, read]
  read_other_written {directory after name other content} _ _ distinct written := by
    simp only [StoreDirectory.write, write] at written
    split at written
    · cases written
    · cases written
    · split at written
      · cases written
      · cases written
        exact read_congr (Entries.get?_insert_of_ne distinct.symm _ _)
  read_renamed {directory after name target} _ _ distinct renamed := by
    simp only [StoreDirectory.rename, rename] at renamed
    split at renamed
    · cases renamed
    · cases renamed
    · split at renamed
      · cases renamed
      · cases renamed
      · next moved found _ =>
          cases renamed
          exact read_congr (by rw [Entries.get?_insert_self, found])
  read_other_renamed {directory after name target other} _ _ _ notName notTarget renamed := by
    simp only [StoreDirectory.rename, rename] at renamed
    split at renamed
    · cases renamed
    · cases renamed
    · split at renamed
      · cases renamed
      · cases renamed
      · cases renamed
        refine read_congr ?_
        rw [Entries.get?_insert_of_ne notTarget.symm, Entries.get?_erase, if_neg notName.symm]
  read_other_removed {directory name other} _ _ distinct := by
    cases directory with
    | missing | blocked => rfl
    | holding entries =>
        exact read_congr (by rw [Entries.get?_erase, if_neg distinct.symm])

end Directory

/-! ## Stores of files -/

namespace FileStore

variable {δ : Type} [StoreDirectory δ] {store after : FileStore δ} {owner : String}

/-- The file of an owner's document. -/
def file (store : FileStore δ) (owner : String) : Except FileFault Content :=
  StoreDirectory.read store.directory (OwnerId.documentName owner)

/-- Whether two stores have the same document files. -/
def SameFiles (before after : FileStore δ) : Prop :=
  ∀ owner, OwnerId.fault? owner = none -> after.file owner = before.file owner

theorem SameFiles.refl (store : FileStore δ) : SameFiles store store :=
  fun _ _ => rfl

theorem checkOwner_eq_ok_iff : checkOwner owner = .ok () ↔ OwnerId.fault? owner = none := by
  rw [checkOwner]
  split <;> simp_all

/-- What is loaded for an owner comes from the owner's file. -/
theorem loadStored_congr (same : OwnerId.fault? owner = none -> after.file owner = store.file owner) :
    after.loadStored owner = store.loadStored owner := by
  rw [loadStored, loadStored]
  cases checked : checkOwner owner with
  | error fault => rfl
  | ok =>
      have files := same (checkOwner_eq_ok_iff.mp checked)
      rw [file, file] at files
      rw [files]

/-- A stored document that is loaded is what an accepted owner's file reads as. -/
theorem exists_of_loadStored {stored : StoredDocument}
    (loaded : store.loadStored owner = .ok stored) :
    OwnerId.fault? owner = none ∧ stored.version = schemaVersion
      ∧ ∃ content, store.file owner = .ok content
        ∧ StoredDocument.ofContent? content = some stored := by
  rw [loadStored] at loaded
  cases checked : checkOwner owner with
  | error fault => rw [checked] at loaded; cases loaded
  | ok =>
      rw [checked] at loaded
      simp only [Except.bind, bind] at loaded
      split at loaded
      · cases loaded
      · cases loaded
      · next content read =>
          split at loaded
          · cases loaded
          · next found known =>
              split at loaded
              · next current =>
                  cases loaded
                  exact ⟨checkOwner_eq_ok_iff.mp checked, current, content, read, known⟩
              · cases loaded

/-- A file of the present form is loaded. -/
theorem loadStored_of_file {content : Content} {stored : StoredDocument}
    (accepted : OwnerId.fault? owner = none) (read : store.file owner = .ok content)
    (known : StoredDocument.ofContent? content = some stored)
    (current : stored.version = schemaVersion) : store.loadStored owner = .ok stored := by
  rw [file] at read
  simp only [loadStored, checkOwner_eq_ok_iff.mpr accepted, Except.bind, bind, read, known, current,
    if_true]

/-- A file that does not read as a stored document is not loaded. -/
theorem loadStored_of_malformed {content : Content} (accepted : OwnerId.fault? owner = none)
    (read : store.file owner = .ok content) (unknown : StoredDocument.ofContent? content = none) :
    store.loadStored owner = .error .malformed := by
  rw [file] at read
  simp only [loadStored, checkOwner_eq_ok_iff.mpr accepted, Except.bind, bind, read, unknown]

/-- What is loaded for an owner depends on the owner's file. -/
theorem SameFiles.load (same : SameFiles store after) (owner : String) :
    after.load owner = store.load owner := by
  rw [FileStore.load, FileStore.load, loadStored_congr (same owner)]

/-- The document of what is loaded. -/
theorem load_of_loadStored {stored : StoredDocument} (loaded : store.loadStored owner = .ok stored) :
    store.load owner = .ok stored.document := by
  rw [FileStore.load, loaded]
  rfl

/-- A document that is loaded is that of a stored document. -/
theorem exists_of_load {document : Document Json} (loaded : store.load owner = .ok document) :
    ∃ stored, store.loadStored owner = .ok stored ∧ stored.document = document := by
  rw [FileStore.load] at loaded
  cases found : store.loadStored owner with
  | error fault =>
      rw [found] at loaded
      cases loaded
  | ok stored =>
      rw [found] at loaded
      exact ⟨stored, rfl, Except.ok.inj loaded⟩

/-- A document that is loaded fits into a file. -/
theorem fits_of_load {document : Document Json} (loaded : store.load owner = .ok document) :
    document.Fits fun _ => True := by
  obtain ⟨stored, found, rfl⟩ := exists_of_load loaded
  obtain ⟨-, -, content, -, known⟩ := exists_of_loadStored found
  exact StoredDocument.fits_of_ofContent? known

variable [LawfulDirectory δ]

/-- Writing a document by way of the temporary file fails and changes no document's file, or
it replaces the file of its owner. -/
theorem writeStored_cases (accepted : OwnerId.fault? owner = none) {stored : StoredDocument}
    {result : Except StoreError Unit} (written : store.writeStored owner stored = (result, after)) :
    after.now = store.now
      ∧ ((∃ fault, result = .error (.file fault) ∧ SameFiles store after)
        ∨ result = .ok () ∧ after.file owner = .ok stored.toContent
          ∧ ∀ other, OwnerId.fault? other = none -> other ≠ owner ->
            after.file other = store.file other) := by
  have temporaryFile := OwnerId.isFileName_temporaryName accepted
  have documentFile := OwnerId.isFileName_documentName accepted
  have apart := OwnerId.temporaryName_ne_documentName owner
  have others : ∀ {directory : δ},
      StoreDirectory.write store.directory (OwnerId.temporaryName owner) stored.toContent
        = .ok directory ->
      ∀ other, OwnerId.fault? other = none ->
        StoreDirectory.read directory (OwnerId.documentName other) = store.file other :=
    fun made other otherAccepted => LawfulDirectory.read_other_written temporaryFile
      (OwnerId.isFileName_documentName otherAccepted) (apart other).symm made
  rw [writeStored] at written
  split at written
  · cases written
    exact ⟨rfl, .inl ⟨_, rfl, .refl store⟩⟩
  · next directory made =>
      split at written
      · next renamed moved =>
          cases written
          refine ⟨rfl, .inr ⟨rfl, ?_, ?_⟩⟩
          · exact (LawfulDirectory.read_renamed temporaryFile documentFile (apart owner) moved).trans
              (LawfulDirectory.read_written temporaryFile made)
          · intro other otherAccepted distinct
            refine (LawfulDirectory.read_other_renamed temporaryFile documentFile
              (OwnerId.isFileName_documentName otherAccepted) (apart other).symm
              (fun same => distinct (OwnerId.documentName_injective same)) moved).trans
              (others made other otherAccepted)
      · cases written
        refine ⟨rfl, .inl ⟨_, rfl, fun other otherAccepted => ?_⟩⟩
        exact (LawfulDirectory.read_other_removed temporaryFile
          (OwnerId.isFileName_documentName otherAccepted) (apart other).symm).trans
          (others made other otherAccepted)

/-- A save that fails changes no document's file. -/
theorem save_error {log : Log} {error : StoreError}
    (failed : store.save owner log = (.error error, after)) : SameFiles store after := by
  rw [save] at failed
  split at failed
  · cases failed
    exact .refl store
  · next stored loaded =>
      obtain ⟨accepted, -, -⟩ := exists_of_loadStored loaded
      obtain ⟨-, ⟨_, -, same⟩ | ⟨done, -⟩⟩ := writeStored_cases accepted failed
      · exact same
      · cases done

/-- A save that succeeds replaces the file of its owner. -/
theorem save_ok {log : Log} (saved : store.save owner log = (.ok (), after)) :
    ∃ stored, store.loadStored owner = .ok stored
      ∧ after.file owner = .ok (StoredDocument.toContent { stored with
          updatedAt := store.now, document := { stored.document with log } })
      ∧ after.now = store.now
      ∧ ∀ other, OwnerId.fault? other = none -> other ≠ owner ->
        after.file other = store.file other := by
  rw [save] at saved
  split at saved
  · cases saved
  · next stored loaded =>
      obtain ⟨accepted, -, -⟩ := exists_of_loadStored loaded
      obtain ⟨clock, ⟨_, failed, -⟩ | ⟨-, own, others⟩⟩ := writeStored_cases accepted saved
      · cases failed
      · exact ⟨stored, loaded, own, clock, others⟩

/-- A save leaves the documents of other owners as they are. -/
theorem load_other {log : Log} (saved : store.save owner log = (.ok (), after)) (other : String)
    (distinct : other ≠ owner) : after.load other = store.load other := by
  obtain ⟨-, -, -, -, others⟩ := save_ok saved
  rw [FileStore.load, FileStore.load,
    loadStored_congr fun accepted => others other accepted distinct]

/-- After a save the document is loaded with its new log and its old defaults. -/
theorem load_saved {document : Document Json} {log : Log} (loaded : store.load owner = .ok document)
    (saved : store.save owner log = (.ok (), after)) (clock : store.now.IsRegular)
    (fits : Document.Fits Number.ReadsBack { document with log }) :
    after.load owner = .ok { document with log } := by
  obtain ⟨stored, found, own, -, -⟩ := save_ok saved
  obtain ⟨accepted, current, -, -, -⟩ := exists_of_loadStored found
  rw [load_of_loadStored found] at loaded
  cases loaded
  rw [FileStore.load, loadStored_of_file accepted own
    (StoredDocument.ofContent?_toContent_of_fits current clock fits) current]
  rfl

end FileStore

end LayerRouting
