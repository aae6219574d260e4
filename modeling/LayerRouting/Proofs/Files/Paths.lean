import LayerRouting.Files.Disk
import LayerRouting.Proofs.Store.OwnerIds
import LayerRouting.Proofs.Text.Parts

/-!
# Paths below a directory

A name that is a single step, put below a directory, is one step more on the way and one component
more of the path (`FilePath.steps_join`, `FilePath.components_join`), however the directory is
written: as nothing, with a slash at its end or without one. So on a disk such a path names the
entry of that name in what the directory's path leads to, both where something is to be put
(`Disk.place_join`) and where something is looked for (`Disk.find_join_eq_ok_iff`).
-/

namespace LayerRouting

open OwnerId (IsFileName)

namespace FilePath

variable {name : String}

theorem toList_ne_nil (file : IsFileName name) : name.toList ≠ [] :=
  String.toList_eq_nil_iff.not.mpr file.nonempty

/-! ## Steps -/

@[simp]
theorem steps_empty : steps "" = [] := by
  simp [steps, Text.parts]

/-- A slash divides the steps before it from those behind it. -/
theorem steps_append_slash (before behind : String) :
    steps (before ++ "/" ++ behind) = steps before ++ steps behind := by
  have text : (before ++ "/" ++ behind).toList = before.toList ++ '/' :: behind.toList := by
    simp [String.toList_append]
  rw [steps, steps, steps, text, Text.parts_append_cons, List.map_append, List.filter_append]

/-- A file name is its only step. -/
theorem steps_of_isFileName (file : IsFileName name) : steps name = [name] := by
  rw [steps, Text.parts_of_not_mem file.single, List.map_singleton, String.ofList_toList]
  exact List.filter_cons_of_pos (by simpa using file.nonempty)

/-- A path below a directory is the name alone, or it is the name behind a slash. -/
theorem join_cases (directory name : String) :
    directory = "" ∧ join directory name = name
      ∨ ∃ before, steps before = steps directory ∧ isRooted (before ++ "/") = isRooted directory
        ∧ join directory name = before ++ "/" ++ name := by
  by_cases empty : directory = ""
  · exact .inl ⟨empty, by rw [join, if_pos (.inl empty), empty, String.empty_append]⟩
  · by_cases slash : directory.toList.getLast? = some '/'
    · obtain ⟨start, written⟩ := List.getLast?_eq_some_iff.mp slash
      have same : String.ofList start ++ "/" = directory := by
        apply String.toList_inj.mp
        rw [String.toList_append, String.toList_ofList, written]
        rfl
      refine .inr ⟨String.ofList start, ?_, by rw [same], ?_⟩
      · have divided := steps_append_slash (String.ofList start) ""
        rw [String.append_empty, same, steps_empty, List.append_nil] at divided
        exact divided.symm
      · rw [join, if_pos (.inr slash), same]
    · refine .inr ⟨directory, rfl, ?_, ?_⟩
      · have start := mt String.toList_eq_nil_iff.mp empty
        rw [isRooted, isRooted, String.toList_append, List.head?_append_of_ne_nil _ start]
      · rw [join, if_neg (not_or.mpr ⟨empty, slash⟩)]

/-- Below a directory a file name is one step more. -/
theorem steps_join (directory : String) (file : IsFileName name) :
    steps (join directory name) = steps directory ++ [name] := by
  obtain ⟨rfl, joined⟩ | ⟨before, same, -, joined⟩ := join_cases directory name
  · rw [joined, steps_of_isFileName file, steps_empty, List.nil_append]
  · rw [joined, steps_append_slash, same, steps_of_isFileName file]

/-- A path below a directory starts where the directory's does. -/
theorem isRooted_join (directory : String) (file : IsFileName name) :
    isRooted (join directory name) = isRooted directory := by
  obtain ⟨rfl, joined⟩ | ⟨before, -, same, joined⟩ := join_cases directory name
  · rw [joined]
    obtain ⟨char, rest, text⟩ := List.exists_cons_of_ne_nil (toList_ne_nil file)
    have apart : char ≠ '/' := by
      rintro rfl
      exact file.single (text ▸ List.mem_cons_self)
    rw [isRooted, text, List.head?_cons]
    simp [isRooted, apart]
  · rw [joined, ← same, isRooted, isRooted, String.toList_append,
      List.head?_append_of_ne_nil _ (by simp [String.toList_append])]

/-- A file name at the end asks for no directory. -/
theorem stepsInto_join (directory : String) (file : IsFileName name) :
    stepsInto (join directory name) = steps directory ++ [name] := by
  have last : (join directory name).toList.getLast? = name.toList.getLast? := by
    obtain ⟨-, joined⟩ | ⟨before, -, -, joined⟩ := join_cases directory name
    · rw [joined]
    · rw [joined, String.toList_append, List.getLast?_append_of_ne_nil _ (toList_ne_nil file)]
  have noSlash : name.toList.getLast? ≠ some '/' :=
    fun slash => file.single (List.mem_of_getLast? slash)
  rw [stepsInto, last, if_neg noSlash, steps_join directory file]

/-! ## Components -/

/-- Below a directory a file name is one component more. -/
theorem components_join (directory : String) (file : IsFileName name) :
    components (join directory name) = components directory ++ [name] := by
  have kept : names (join directory name) = names directory ++ [name] := by
    rw [names, names, steps_join directory file, List.filter_append,
      List.filter_cons_of_pos (by simpa using file.notHere), List.filter_nil]
  have start : (steps (join directory name)).head? = some "." ↔ (steps directory).head? = some "."
      := by
    rw [steps_join directory file]
    cases steps directory with
    | nil => simp [file.notHere]
    | cons step rest => rfl
  simp only [components, isRooted_join directory file, start, kept]
  split_ifs <;> rfl

end FilePath

namespace Disk

/-- A file name at the end of a way leads to the entry of that name in the directory to which the
steps before it lead. -/
theorem follow_concat_eq_ok_iff {name : String} (file : IsFileName name)
    (above : List (String × FileTree)) (here : FileTree) (steps : List String)
    {location : Location} {tree : FileTree} :
    follow above here (steps ++ [name]) = .ok (location, tree)
      ↔ ∃ outer entries, follow above here steps = .ok (outer, .directory entries)
          ∧ name.utf8ByteSize ≤ longestName
          ∧ Entries.get? name entries = some tree ∧ location = outer ++ [name] := by
  fun_induction follow above here steps with
  | case1 above here =>
      rcases here with content | entries
      · simp [follow]
      · simp only [List.nil_append, follow, if_neg file.notHere, if_neg file.notAbove]
        by_cases long : longestName < name.utf8ByteSize
        · simp [long]
        · cases found : Entries.get? name entries with
          | none => simp [long, found]
          | some inner =>
              simp only [if_neg long, Except.ok.injEq, Prod.mk.injEq, FileTree.directory.injEq]
              constructor
              · rintro ⟨rfl, rfl⟩
                exact ⟨_, entries, ⟨rfl, rfl⟩, not_lt.mp long, found, by simp⟩
              · rintro ⟨outer, others, ⟨rfl, rfl⟩, -, met, rfl⟩
                exact ⟨by simp, Option.some_inj.mp (found.symm.trans met)⟩
  | case2 => simp [follow]
  | case3 above rest entries inductionHypothesis => simpa [follow] using inductionHypothesis
  | case4 rest entries _ inductionHypothesis => simpa [follow] using inductionHypothesis
  | case5 rest entries left outer further _ inductionHypothesis =>
      simpa [follow] using inductionHypothesis
  | case6 above step rest entries notHere notAbove long =>
      simp [follow, notHere, notAbove, long]
  | case7 above step rest entries notHere notAbove short missing =>
      simp [follow, notHere, notAbove, short, missing]
  | case8 above step rest entries notHere notAbove short inner found inductionHypothesis =>
      simpa [follow, notHere, notAbove, short, found] using inductionHypothesis

/-- So it does from the root and from the working directory. -/
theorem followFrom_concat_eq_ok_iff (disk : Disk) (rooted : Bool) (path : List String)
    {name : String} (file : IsFileName name) {location : Location} {tree : FileTree} :
    disk.followFrom rooted (path ++ [name]) = .ok (location, tree)
      ↔ ∃ outer entries, disk.followFrom rooted path = .ok (outer, .directory entries)
          ∧ name.utf8ByteSize ≤ longestName
          ∧ Entries.get? name entries = some tree ∧ location = outer ++ [name] := by
  cases rooted with
  | false =>
      rw [followFrom, followFrom, if_neg Bool.false_ne_true, if_neg Bool.false_ne_true,
        ← List.append_assoc]
      exact follow_concat_eq_ok_iff file [] disk.root _
  | true => exact follow_concat_eq_ok_iff file [] disk.root path

/-- What is found at a path below a directory is an entry of the directory to which the
directory's path leads. -/
theorem find_join_eq_ok_iff (disk : Disk) (directory : String) {name : String}
    (file : IsFileName name) {tree : FileTree} :
    disk.find (FilePath.join directory name) = .ok tree
      ↔ pathFault? (FilePath.join directory name) = none
        ∧ ∃ above entries,
          disk.followFrom (FilePath.isRooted directory) (FilePath.steps directory)
              = .ok (above, .directory entries)
            ∧ name.utf8ByteSize ≤ longestName ∧ Entries.get? name entries = some tree := by
  have reached : (disk.followFrom (FilePath.isRooted directory)
        (FilePath.steps directory ++ [name])).map Prod.snd = .ok tree
      ↔ ∃ location, disk.followFrom (FilePath.isRooted directory)
        (FilePath.steps directory ++ [name]) = .ok (location, tree) := by
    rcases disk.followFrom (FilePath.isRooted directory) (FilePath.steps directory ++ [name]) with
      fault | ⟨location, found⟩
    · simp [Except.map]
    · simp [Except.map]
  rw [find, FilePath.stepsInto_join directory file, FilePath.isRooted_join directory file]
  cases pathFault? (FilePath.join directory name) with
  | some fault => simp
  | none =>
      simp only [reached, followFrom_concat_eq_ok_iff disk _ _ file, true_and]
      constructor
      · rintro ⟨location, above, entries, followed, short, met, -⟩
        exact ⟨above, entries, followed, short, met⟩
      · rintro ⟨above, entries, followed, short, met⟩
        exact ⟨above ++ [name], above, entries, followed, short, met, rfl⟩

/-- The place of a path below a directory is an entry of the directory to which the directory's
path leads. -/
theorem place_join (disk : Disk) (directory : String) {name : String} (file : IsFileName name) :
    disk.place (FilePath.join directory name)
      = match pathFault? (FilePath.join directory name) with
        | some fault => .error fault
        | none =>
            match disk.followFrom (FilePath.isRooted directory) (FilePath.steps directory) with
            | .error fault => .error fault
            | .ok (_, .file _) => .error .notADirectory
            | .ok (location, .directory _) =>
                if longestName < name.utf8ByteSize then .error .tooLong
                else .ok (location ++ [name]) := by
  rw [place, FilePath.steps_join directory file, FilePath.isRooted_join directory file,
    List.getLast?_concat, List.dropLast_concat]
  cases pathFault? (FilePath.join directory name) with
  | some fault => rfl
  | none =>
      rcases disk.followFrom (FilePath.isRooted directory) (FilePath.steps directory) with
        fault | ⟨location, content | entries⟩
      · rfl
      · rfl
      · exact if_neg (not_or.mpr ⟨file.notHere, file.notAbove⟩)

end Disk

end LayerRouting
