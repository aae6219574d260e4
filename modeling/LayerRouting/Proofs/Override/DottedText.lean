import LayerRouting.Override.Path
import LayerRouting.Proofs.Text.Digits
import LayerRouting.Proofs.Text.Parts

/-!
# Dotted text

Dotted text keeps of a segment its text alone, and a dot in a text counts like a dot between two.
So a path reads back from its text exactly if none of its keys looks like anything else: like two
segments, like an index or, alone and empty, like the root (`Path.parse_text_iff`). A path that was
read from dotted text has no such key, so its own text gives it again (`Path.keepsDottedText`).
-/

namespace LayerRouting

/-! ## Segments -/

namespace Segment

/-- Whether a text is made of digits, at least one, that denote a number in the range of an
index. -/
def SpellsIndex (name : String) : Prop :=
  name ≠ "" ∧ (∀ char ∈ name.toList, Text.isDigit char)
    ∧ ofDigits (name.toList.map Text.digitValue) < indexLimit

instance (name : String) : Decidable (SpellsIndex name) :=
  inferInstanceAs (Decidable (_ ∧ _ ∧ _))

/-- A part is read as the index that it spells, or else as a key. -/
theorem ofPart_eq (part : List Char) :
    ofPart part = if SpellsIndex (String.ofList part)
      then .index (UInt64.ofNat (ofDigits (part.map Text.digitValue)))
      else .key (String.ofList part) := by
  rw [ofPart]
  simp only [SpellsIndex, String.toList_ofList, ne_eq, String.ofList_eq_empty_iff]
  cases read : Text.natural? part with
  | some value =>
      obtain ⟨nonempty, digits, rfl⟩ := Text.natural?_eq_some_iff.mp read
      rw [Option.filter_some]
      by_cases small : ofDigits (part.map Text.digitValue) < indexLimit
      · rw [if_pos (by simpa using small), if_pos ⟨nonempty, digits, small⟩]
      · rw [if_neg (by simpa using small), if_neg fun spells => small spells.2.2]
  | none =>
      rw [Option.filter_none, if_neg]
      rintro ⟨nonempty, digits, -⟩
      rw [Text.natural?_eq_some_iff.mpr ⟨nonempty, digits, rfl⟩] at read
      cases read

/-- A part is read as a key exactly if it spells no index, and the key is the part. -/
theorem ofPart_eq_key_iff {part : List Char} {name : String} :
    ofPart part = .key name ↔ part = name.toList ∧ ¬ SpellsIndex name := by
  rw [ofPart_eq]
  split
  · next spells =>
      refine iff_of_false nofun ?_
      rintro ⟨rfl, other⟩
      rw [String.ofList_toList] at spells
      exact other spells
  · next other =>
      constructor
      · rintro same
        obtain rfl := Segment.key.inj same
        exact ⟨String.toList_ofList.symm, other⟩
      · rintro ⟨rfl, -⟩
        rw [String.ofList_toList]

/-- The text of an index is read as that index. -/
theorem ofPart_index (position : UInt64) :
    ofPart (asKey (.index position)).toList = .index position := by
  have small : position.toNat < indexLimit := position.toNat_lt
  rw [asKey, String.toList_ofList, ofPart, Text.natural?_decimalDigits, Option.filter_some,
    if_pos (by simpa using small)]
  simp

/-- The text of an index holds no dot. -/
theorem not_mem_asKey_index (position : UInt64) : '.' ∉ (asKey (.index position)).toList := by
  rw [asKey, String.toList_ofList]
  exact fun member => absurd (Text.isDigit_of_mem_decimalDigits member) (by decide)

/-- Whether a segment stands in dotted text as itself: it is an index, or a key without a dot that
spells no index. -/
def IsDotted : Segment -> Prop
  | .key name => '.' ∉ name.toList ∧ ¬ SpellsIndex name
  | .index _ => True

/-- The dotted segments are those that parts without dots are read as, and each is read from its
own text. -/
theorem isDotted_iff {segment : Segment} :
    segment.IsDotted ↔ '.' ∉ segment.asKey.toList ∧ ofPart segment.asKey.toList = segment := by
  cases segment with
  | key name => rw [asKey, ofPart_eq_key_iff, IsDotted, and_iff_right rfl]
  | index position =>
      exact iff_of_true trivial ⟨not_mem_asKey_index position, ofPart_index position⟩

theorem isDotted_ofPart {part : List Char} (plain : '.' ∉ part) : (ofPart part).IsDotted := by
  cases read : ofPart part with
  | key name =>
      obtain ⟨rfl, other⟩ := ofPart_eq_key_iff.mp read
      exact ⟨plain, other⟩
  | index position => trivial

end Segment

/-! ## Paths -/

namespace Path

theorem toList_text (path : Path) :
    path.text.toList = ['.'].intercalate (path.map fun segment => segment.asKey.toList) := by
  rw [text, String.toList_intercalate, List.map_map]
  rfl

/-- All segments of a path that was read from dotted text are dotted. -/
theorem isDotted_of_mem_parse {dotted : String} {segment : Segment}
    (member : segment ∈ parse dotted) : segment.IsDotted := by
  rw [parse] at member
  split at member
  · cases member
  · obtain ⟨part, held, rfl⟩ := List.mem_map.mp member
    exact Segment.isDotted_ofPart (Text.not_mem_of_mem_parts held)

/-- No dotted text is read as the empty key alone: the empty text is the root. -/
theorem parse_ne_empty_key (dotted : String) : parse dotted ≠ [.key ""] := by
  rw [parse]
  split
  · exact nofun
  · next nonempty =>
      intro same
      obtain ⟨part, alone, read⟩ := List.map_eq_singleton_iff.mp same
      obtain ⟨rfl, -⟩ := Segment.ofPart_eq_key_iff.mp read
      rw [Text.parts_eq_splitOn] at alone
      have joined : ['.'].intercalate (dotted.toList.splitOn '.') = dotted.toList :=
        List.intercalate_splitOn '.'
      rw [alone] at joined
      exact nonempty joined.symm

/-- The parts of a path's text are the texts of its segments, if these hold no dots. -/
theorem parts_text {path : Path} (nonempty : path ≠ [])
    (plain : ∀ segment ∈ path, '.' ∉ segment.asKey.toList) :
    Text.parts '.' path.text.toList = path.map fun segment => segment.asKey.toList := by
  rw [Text.parts_eq_splitOn, toList_text]
  refine List.splitOn_intercalate '.' ?_ (by simpa using nonempty)
  simpa using plain

/-- A path of dotted segments reads back from its text, unless it is the empty key alone. -/
theorem parse_text {path : Path} (dotted : ∀ segment ∈ path, segment.IsDotted)
    (other : path ≠ [.key ""]) : parse path.text = path := by
  by_cases root : path = []
  · subst root
    rfl
  · have parts := parts_text root fun segment member =>
      (Segment.isDotted_iff.mp (dotted segment member)).1
    have read : ∀ segment ∈ path, Segment.ofPart segment.asKey.toList = segment :=
      fun segment member => (Segment.isDotted_iff.mp (dotted segment member)).2
    have nonempty : path.text.toList ≠ [] := by
      -- An empty text has one part, which is empty, so the path would be the empty key.
      intro empty
      rw [empty] at parts
      obtain ⟨segment, rfl, blank⟩ := List.map_eq_singleton_iff.mp parts.symm
      apply other
      rw [← read segment List.mem_cons_self, blank]
      rfl
    rw [parse, if_neg nonempty, parts, List.map_map]
    exact (List.map_congr_left read).trans (List.map_id' path)

/-- A path reads back from its text exactly if it is not the empty key alone and each of its keys
holds no dot and spells no index. -/
theorem parse_text_iff {path : Path} :
    parse path.text = path
      ↔ path ≠ [.key ""]
        ∧ ∀ name, .key name ∈ path -> '.' ∉ name.toList ∧ ¬ Segment.SpellsIndex name := by
  constructor
  · intro back
    rw [← back]
    exact ⟨parse_ne_empty_key path.text, fun name member => isDotted_of_mem_parse member⟩
  · rintro ⟨other, keys⟩
    refine parse_text (fun segment member => ?_) other
    cases segment with
    | key name => exact keys name member
    | index position => trivial

/-- Dotted text is faithful wherever it can be. Reading the text of a path that was read from
dotted text gives the path again, and a path as such reads back exactly if it is not the empty key
alone and each of its keys holds no dot and spells no index. -/
theorem keepsDottedText :
    (∀ dotted : String, parse (text (parse dotted)) = parse dotted)
      ∧ ∀ path : Path, parse path.text = path
        ↔ path ≠ [.key ""]
          ∧ ∀ name, .key name ∈ path -> '.' ∉ name.toList ∧ ¬ Segment.SpellsIndex name :=
  ⟨fun dotted => parse_text (fun _ member => isDotted_of_mem_parse member)
    (parse_ne_empty_key dotted), fun _ => parse_text_iff⟩

/-- Leading zeros are lost, and a sign makes a key that an array still takes for an index. -/
example : text (parse "list.007.+7") = "list.7.+7" := by decide

end Path

end LayerRouting
