import LayerRouting.Number.Layout
import LayerRouting.Override.Op
import LayerRouting.Store.OwnerId

/-!
# Stores of documents

A store holds a document for each owner. Loading and saving concern a document as a
whole: a save replaces the log or leaves everything as it was, and never touches the
defaults.
-/

namespace LayerRouting

/-- Why a file or directory could not be used. -/
inductive FileFault where
  /-- A file, or a directory on the way to it, does not exist. -/
  | missing
  /-- Something that is no directory stands where a directory is needed. -/
  | notADirectory
  /-- A directory stands where a file is needed. -/
  | isADirectory
  /-- A path, or a name in it, is longer than the file system takes. -/
  | tooLong
  /-- A path has a null character in it. -/
  | nullCharacter
  /-- The file system refused for a reason of its own. -/
  | other (description : String)
  deriving DecidableEq, Repr

namespace FileFault

/-- The text of a fault. -/
def message : FileFault -> String
  | .missing => "no such file or directory"
  | .notADirectory => "not a directory"
  | .isADirectory => "is a directory"
  | .tooLong => "file name too long"
  | .nullCharacter => "file name with a null character"
  | .other description => description

end FileFault

/-- Why a store could not load or save. -/
inductive StoreError where
  | notFound (owner : String)
  | invalidOwner (owner : String) (fault : OwnerIdFault)
  | schemaVersion (found : Nat)
  | file (fault : FileFault)
  /-- The file does not read as a document. -/
  | malformed
  | unavailable (reason : String)
  deriving DecidableEq, Repr

/-- The version of the form in which documents are stored. -/
def schemaVersion : Nat := 1

namespace StoreError

/-- The text of a store error. -/
def message : StoreError -> String
  | .notFound owner => "no route-set document for owner '" ++ owner ++ "'"
  | .invalidOwner owner fault => "invalid owner id '" ++ owner ++ "': " ++ fault.message
  | .schemaVersion found =>
      "unsupported document schema version " ++ naturalText found ++ " (expected "
        ++ naturalText LayerRouting.schemaVersion ++ ")"
  | .file fault => "IO error: " ++ fault.message
  | .malformed => "JSON error: the file does not read as a document"
  | .unavailable reason => "store unavailable: " ++ reason

end StoreError

/-- A store of documents by owner. -/
class DocumentStore (σ : Type) where
  /-- The document of an owner. -/
  load : σ -> String -> Except StoreError (Document Json)
  /-- Replaces the log of an owner's document. -/
  save : σ -> String -> Log -> Except StoreError Unit × σ

/-- Checks that an owner id is accepted. -/
def checkOwner (owner : String) : Except StoreError Unit :=
  match OwnerId.fault? owner with
  | some fault => .error (.invalidOwner owner fault)
  | none => .ok ()

end LayerRouting
