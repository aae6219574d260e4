import LayerRouting.Store.Directory
import LayerRouting.Store.StoredDocument

/-!
# The store of files

One file for each owner in a directory. A document is first written to a temporary file,
which then takes the place of the document's file, so a document is replaced as a whole
or not at all.
-/

namespace LayerRouting

/-- A store of files in a directory, and the time at which it writes. -/
structure FileStore (δ : Type) where
  directory : δ
  now : Timestamp
  deriving DecidableEq, Repr

namespace FileStore

variable {δ : Type} [StoreDirectory δ]

/-- A document and all that is stored with it. -/
def loadStored (store : FileStore δ) (owner : String) : Except StoreError StoredDocument := do
  checkOwner owner
  match StoreDirectory.read store.directory (OwnerId.documentName owner) with
  | .error .missing => .error (.notFound owner)
  | .error fault => .error (.file fault)
  | .ok content =>
      match StoredDocument.ofContent? content with
      | none => .error .malformed
      | some stored =>
          if stored.version = schemaVersion then .ok stored
          else .error (.schemaVersion stored.version)

/-- Writes an owner's document file by way of the temporary file, which is removed again
if it cannot take the place of the document's file. -/
def writeStored (store : FileStore δ) (owner : String) (stored : StoredDocument) :
    Except StoreError Unit × FileStore δ :=
  let name := OwnerId.documentName owner
  let temporary := OwnerId.temporaryName owner
  match StoreDirectory.write store.directory temporary stored.toContent with
  | .error fault => (.error (.file fault), store)
  | .ok written =>
      match StoreDirectory.rename written temporary name with
      | .ok renamed => (.ok (), { store with directory := renamed })
      | .error fault =>
          (.error (.file fault),
            { store with directory := StoreDirectory.remove written temporary })

/-- Starts an owner's document with defaults and an empty log, in place of the document
that the owner has. -/
def init (store : FileStore δ) (owner : String) (defaults : Json) :
    Except StoreError StoredDocument × FileStore δ :=
  match checkOwner owner with
  | .error fault => (.error fault, store)
  | .ok () =>
      match StoreDirectory.create store.directory with
      | (.error fault, directory) => (.error (.file fault), { store with directory })
      | (.ok (), directory) =>
          let stored : StoredDocument :=
            { version := schemaVersion, updatedAt := store.now,
              document := { defaults, log := [] } }
          let (result, after) := writeStored { store with directory } owner stored
          (result.map fun _ => stored, after)

/-- The document of an owner. -/
def load (store : FileStore δ) (owner : String) : Except StoreError (Document Json) :=
  (store.loadStored owner).map StoredDocument.document

/-- Replaces the log of an owner's document. -/
def save (store : FileStore δ) (owner : String) (log : Log) :
    Except StoreError Unit × FileStore δ :=
  match store.loadStored owner with
  | .error fault => (.error fault, store)
  | .ok stored =>
      store.writeStored owner
        { stored with updatedAt := store.now, document := { stored.document with log } }

instance : DocumentStore (FileStore δ) where
  load := load
  save := save

end FileStore

end LayerRouting
