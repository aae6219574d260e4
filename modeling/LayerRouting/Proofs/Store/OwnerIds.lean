import LayerRouting.Store.OwnerId
import Mathlib.Data.String.Basic

/-!
# File names of owners

The file names of an accepted owner id lead into the directory itself
(`OwnerId.isFileName_documentName`, `OwnerId.isFileName_temporaryName`). Different owners
have different files, and no temporary file is the document's file of any owner
(`OwnerId.temporaryName_ne_documentName`).
-/

namespace LayerRouting

namespace OwnerId

/-- Whether a text names an entry of a directory: it is a single step that leads to no other
directory. -/
structure IsFileName (name : String) : Prop where
  nonempty : name ≠ ""
  notHere : name ≠ "."
  notAbove : name ≠ ".."
  single : '/' ∉ name.toList

/-- An owner id is accepted exactly if none of its possible faults is there. -/
theorem fault?_eq_none_iff {owner : String} :
    fault? owner = none
      ↔ owner ≠ "" ∧ owner.utf8ByteSize ≤ greatestLength ∧ owner.toList.head? ≠ some '.'
        ∧ owner.toList.all isSafe := by
  rw [fault?]
  split_ifs <;> simp_all

/-- An accepted owner id starts with a character other than a dot, and all its characters are
safe. -/
theorem exists_head_of_accepted {owner : String} (accepted : fault? owner = none) :
    ∃ char rest, owner.toList = char :: rest ∧ char ≠ '.' ∧ owner.toList.all isSafe := by
  obtain ⟨nonempty, -, start, safe⟩ := fault?_eq_none_iff.mp accepted
  cases text : owner.toList with
  | nil => exact absurd (String.toList_eq_nil_iff.mp text) nonempty
  | cons char rest =>
      rw [text] at start safe
      exact ⟨char, rest, rfl, by simpa using start, safe⟩

theorem toList_documentName (owner : String) :
    (documentName owner).toList = owner.toList ++ ".json".toList :=
  String.toList_append

theorem toList_temporaryName (owner : String) :
    (temporaryName owner).toList = '.' :: (owner.toList ++ ".json.tmp".toList) := by
  simp [temporaryName, toList_documentName]

/-- No slash is safe. -/
theorem slash_not_mem {text : List Char} (safe : text.all isSafe) : '/' ∉ text := by
  intro member
  have := List.all_eq_true.mp safe '/' member
  revert this
  decide

/-- The document's file of an accepted owner is an entry of the directory. -/
theorem isFileName_documentName {owner : String} (accepted : fault? owner = none) :
    IsFileName (documentName owner) := by
  obtain ⟨char, rest, text, -, safe⟩ := exists_head_of_accepted accepted
  have long : ∀ name : String, name.toList.length < 5 -> documentName owner ≠ name := by
    rintro name short rfl
    simp [toList_documentName] at short
  refine ⟨long _ (by decide), long _ (by decide), long _ (by decide), ?_⟩
  rw [toList_documentName, List.mem_append]
  exact not_or.mpr ⟨slash_not_mem safe, by decide⟩

/-- So is the temporary file. -/
theorem isFileName_temporaryName {owner : String} (accepted : fault? owner = none) :
    IsFileName (temporaryName owner) := by
  obtain ⟨char, rest, text, -, safe⟩ := exists_head_of_accepted accepted
  have long : ∀ name : String, name.toList.length < 5 -> temporaryName owner ≠ name := by
    rintro name short rfl
    simp [toList_temporaryName] at short
    omega
  refine ⟨long _ (by decide), long _ (by decide), long _ (by decide), ?_⟩
  rw [toList_temporaryName, List.mem_cons, List.mem_append]
  exact not_or.mpr ⟨by decide, not_or.mpr ⟨slash_not_mem safe, by decide⟩⟩

/-- Different owners have different files. -/
theorem documentName_injective : Function.Injective documentName := by
  intro owner other same
  have texts := congrArg String.toList same
  rw [toList_documentName, toList_documentName] at texts
  exact String.toList_inj.mp (List.append_cancel_right texts)

theorem temporaryName_injective : Function.Injective temporaryName := by
  intro owner other same
  have texts := congrArg String.toList same
  rw [toList_temporaryName, toList_temporaryName, List.cons.injEq] at texts
  exact String.toList_inj.mp (List.append_cancel_right texts.2)

/-- No temporary file is the document's file of an owner, for the two end in different
letters. -/
theorem temporaryName_ne_documentName (owner other : String) :
    temporaryName owner ≠ documentName other := by
  intro same
  have texts := congrArg String.toList same
  rw [toList_temporaryName, toList_documentName, ← List.cons_append] at texts
  have last := congrArg List.getLast? texts
  rw [List.getLast?_append, List.getLast?_append] at last
  exact absurd (Option.some.inj last : 'p' = 'n') (by decide)

end OwnerId

end LayerRouting
