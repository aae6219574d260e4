import LayerRouting.Proofs.Files.Paths
import LayerRouting.Proofs.Store.Files

/-!
# Paths of owners' files

In a folder on a disk the files of an accepted owner lie in the folder itself: their paths have one
component more than the folder's, and what they name is an entry of the directory to which the
folder's path leads (`Folder.IsChild`). Two such files collide, by the components of their paths or
on the disk, only if they have the same name. So the files of different owners never collide, nor
does a temporary file with a document, whatever the ids look like (`OwnerId.keepsFilesApart`).
-/

namespace LayerRouting

open OwnerId (IsFileName)

/-- How the path of a name leads into a folder and no further. -/
structure Folder.IsChild (folder : Folder) (name : String) : Prop where
  /-- The name is a single step that leads to no other directory. -/
  fileName : IsFileName name
  /-- It is not too long for a name. -/
  short : name.utf8ByteSize ≤ Disk.longestName
  /-- The path has the components of the folder's and the name. -/
  components : FilePath.components (folder.filePath name)
    = FilePath.components folder.path ++ [name]
  /-- On the disk it names the entry of the name in the directory that the folder is, and nothing
  if the folder is no directory or the path cannot be followed. -/
  place_iff {location : Location} :
    folder.disk.place (folder.filePath name) = .ok location
      ↔ Disk.pathFault? (folder.filePath name) = none
        ∧ ∃ above entries,
          folder.disk.followFrom (FilePath.isRooted folder.path) (FilePath.steps folder.path)
              = .ok (above, .directory entries)
            ∧ location = above ++ [name]
  /-- What is found there is the entry itself. -/
  find_iff {tree : FileTree} :
    folder.disk.find (folder.filePath name) = .ok tree
      ↔ Disk.pathFault? (folder.filePath name) = none
        ∧ ∃ above entries,
          folder.disk.followFrom (FilePath.isRooted folder.path) (FilePath.steps folder.path)
              = .ok (above, .directory entries)
            ∧ Entries.get? name entries = some tree

/-- Whether two names stand for one file of a folder: their paths are the same, or they name one
place on the disk. -/
def Folder.Collide (folder : Folder) (name other : String) : Prop :=
  FilePath.Same (folder.filePath name) (folder.filePath other)
    ∨ ∃ location, folder.disk.place (folder.filePath name) = .ok location
      ∧ folder.disk.place (folder.filePath other) = .ok location

/-- A file name that is not too long leads into every folder. -/
theorem Folder.isChild_of_isFileName (folder : Folder) {name : String} (file : IsFileName name)
    (short : name.utf8ByteSize ≤ Disk.longestName) : folder.IsChild name where
  fileName := file
  short := short
  components := FilePath.components_join folder.path file
  place_iff {location} := by
    rw [filePath, Disk.place_join _ _ file]
    cases Disk.pathFault? (FilePath.join folder.path name) with
    | some fault => simp
    | none =>
        rcases folder.disk.followFrom (FilePath.isRooted folder.path)
          (FilePath.steps folder.path) with fault | ⟨above, content | entries⟩
        · simp
        · simp
        · simp [short.not_gt, eq_comm]
  find_iff {tree} := by
    rw [filePath, Disk.find_join_eq_ok_iff _ _ file]
    simp only [short, true_and]

/-- Names that lead into a folder and no further stand for one file only if they are the same. -/
theorem Folder.IsChild.eq_of_collide {folder : Folder} {name other : String}
    (child : folder.IsChild name) (otherChild : folder.IsChild other)
    (collide : folder.Collide name other) : name = other := by
  obtain same | ⟨location, placed, otherPlaced⟩ := collide
  · rw [FilePath.Same, child.components, otherChild.components] at same
    exact List.singleton_inj.mp (List.append_cancel_left same)
  · obtain ⟨-, above, entries, followed, rfl⟩ := child.place_iff.mp placed
    obtain ⟨-, others, otherEntries, otherFollowed, same⟩ := otherChild.place_iff.mp otherPlaced
    rw [followed] at otherFollowed
    cases otherFollowed
    exact List.singleton_inj.mp (List.append_cancel_left same)

namespace OwnerId

variable {owner other : String}

/-- A file name that is little longer than an accepted owner id leads into every folder. -/
theorem isChild_of_accepted (folder : Folder) (accepted : fault? owner = none) {name : String}
    (file : IsFileName name) (little : name.utf8ByteSize ≤ owner.utf8ByteSize + 10) :
    folder.IsChild name := by
  refine folder.isChild_of_isFileName file ?_
  have fits := (fault?_eq_none_iff.mp accepted).2.1
  rw [greatestLength] at fits
  rw [Disk.longestName]
  omega

/-- The document's file of an accepted owner lies in the folder. -/
theorem isChild_documentName (folder : Folder) (accepted : fault? owner = none) :
    folder.IsChild (documentName owner) := by
  refine isChild_of_accepted folder accepted (isFileName_documentName accepted) ?_
  rw [documentName, String.utf8ByteSize_append]
  exact Nat.add_le_add_left (by decide) _

/-- So does the temporary file. -/
theorem isChild_temporaryName (folder : Folder) (accepted : fault? owner = none) :
    folder.IsChild (temporaryName owner) := by
  refine isChild_of_accepted folder accepted (isFileName_temporaryName accepted) ?_
  have added : ".".utf8ByteSize + (".json".utf8ByteSize + ".tmp".utf8ByteSize) = 10 := by decide
  simp only [temporaryName, documentName, String.utf8ByteSize_append]
  omega

/-- How the files of two owners lie in a folder. -/
structure KeepsFilesApart (folder : Folder) (owner other : String) : Prop where
  /-- The document lies in the folder itself. -/
  document : folder.IsChild (documentName owner)
  /-- So does the temporary file. -/
  temporary : folder.IsChild (temporaryName owner)
  /-- Two documents collide only if they are of one owner. -/
  documents (collide : folder.Collide (documentName owner) (documentName other)) : owner = other
  /-- So do two temporary files. -/
  temporaries (collide : folder.Collide (temporaryName owner) (temporaryName other)) :
    owner = other
  /-- A temporary file does not collide with any document, its own owner's included. -/
  apart : ¬ folder.Collide (temporaryName owner) (documentName other)

/-- Accepted owner ids are safe as names of files: for any two of them, be they the same or not,
the files lie in the folder itself and no file stands for another one. -/
theorem keepsFilesApart (folder : Folder) (accepted : checkOwner owner = .ok ())
    (otherAccepted : checkOwner other = .ok ()) : KeepsFilesApart folder owner other := by
  have own := FileStore.checkOwner_eq_ok_iff.mp accepted
  have others := FileStore.checkOwner_eq_ok_iff.mp otherAccepted
  have document := isChild_documentName folder own
  have temporary := isChild_temporaryName folder own
  refine ⟨document, temporary, ?_, ?_, ?_⟩
  · intro collide
    exact documentName_injective (document.eq_of_collide (isChild_documentName folder others) collide)
  · intro collide
    exact temporaryName_injective
      (temporary.eq_of_collide (isChild_temporaryName folder others) collide)
  · intro collide
    exact temporaryName_ne_documentName owner other
      (temporary.eq_of_collide (isChild_documentName folder others) collide)

/-- An id that looks like the temporary file of another owner's document, in a folder whose path
ends with a slash. -/
theorem keepsFilesApart_of_imitation :
    let folder : Folder := ⟨⟨.directory [("docs", .directory [])], []⟩, "docs/"⟩
    KeepsFilesApart folder "stage" "stage.json.tmp"
      ∧ folder.disk.place (folder.filePath (documentName "stage")) = .ok ["docs", "stage.json"]
      ∧ folder.disk.place (folder.filePath (documentName "stage.json.tmp"))
        = .ok ["docs", "stage.json.tmp.json"] :=
  ⟨keepsFilesApart _ (by decide) (by decide), by decide, by decide⟩

end OwnerId

end LayerRouting
