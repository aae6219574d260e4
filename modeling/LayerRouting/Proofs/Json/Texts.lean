import LayerRouting.Proofs.Json.NumberTexts
import LayerRouting.Proofs.Json.Strings

/-!
# Trees read back

The indented text of a tree reads as the tree with its numbers read again
(`Written.parse?_indented`), which is the tree itself if the numbers in it read back. The
reading functions take fuel; a text has enough of it when there are two units for each of its
characters.
-/

namespace LayerRouting

/-- Whether every number in a tree reads back. -/
inductive Json.ReadsBack : Json -> Prop where
  | null : ReadsBack .null
  | bool (value : Bool) : ReadsBack (.bool value)
  | number {value : Number} (reads : value.ReadsBack) : ReadsBack (.number value)
  | string (value : String) : ReadsBack (.string value)
  | array {items : List Json} (read : ∀ item ∈ items, ReadsBack item) : ReadsBack (.array items)
  | object {entries : List (String × Json)} (read : ∀ entry ∈ entries, ReadsBack entry.2) :
      ReadsBack (.object entries)

namespace Json

mutual

/-- The tree with every number as it is read again. -/
def reread : Json -> Json
  | .null => .null
  | .bool value => .bool value
  | .number value => .number value.reread
  | .string value => .string value
  | .array items => .array (rereadItems items)
  | .object entries => .object (rereadEntries entries)

/-- The items of an array with every number as it is read again. -/
def rereadItems : List Json -> List Json
  | [] => []
  | item :: rest => reread item :: rereadItems rest

/-- The entries of an object with every number as it is read again. -/
def rereadEntries : List (String × Json) -> List (String × Json)
  | [] => []
  | (key, value) :: rest => (key, reread value) :: rereadEntries rest

end

theorem rereadItems_eq_map (items : List Json) : rereadItems items = items.map reread := by
  induction items with
  | nil => rfl
  | cons item rest inductionHypothesis => rw [rereadItems, inductionHypothesis, List.map_cons]

theorem rereadEntries_eq_map (entries : List (String × Json)) :
    rereadEntries entries = entries.map fun entry => (entry.1, entry.2.reread) := by
  induction entries with
  | nil => rfl
  | cons entry rest inductionHypothesis => rw [rereadEntries, inductionHypothesis, List.map_cons]

/-- A tree whose numbers read back becomes itself. -/
theorem ReadsBack.reread_eq {tree : Json} (readable : tree.ReadsBack) : tree.reread = tree := by
  induction readable with
  | null | bool | string => rfl
  | number reads => rw [reread, Number.readsBack_iff_reread_eq.mp reads]
  | array read inductionHypothesis =>
      rw [reread, rereadItems_eq_map, List.map_congr_left inductionHypothesis, List.map_id']
  | object read inductionHypothesis =>
      have same : ∀ entry ∈ _,
          (fun entry : String × Json => (entry.1, entry.2.reread)) entry = entry :=
        fun entry member => Prod.ext rfl (inductionHypothesis entry member)
      rw [reread, rereadEntries_eq_map, List.map_congr_left same, List.map_id']

end Json

namespace Written

/-! ## Trees as written -/

mutual

/-- What the text of a tree says. -/
def ofJson : Json -> Written
  | .null => .null
  | .bool value => .bool value
  | .number value => .number (some value)
  | .string value => .string (some value)
  | .array items => .array (ofItems items)
  | .object entries => .object (ofEntries entries)

/-- What the texts of an array's items say. -/
def ofItems : List Json -> List Written
  | [] => []
  | item :: rest => ofJson item :: ofItems rest

/-- What the texts of an object's entries say. -/
def ofEntries : List (String × Json) -> List (Option String × Written)
  | [] => []
  | (key, value) :: rest => (some key, ofJson value) :: ofEntries rest

end

theorem ofItems_eq_map (items : List Json) : ofItems items = items.map ofJson := by
  induction items with
  | nil => rfl
  | cons item rest inductionHypothesis => rw [ofItems, inductionHypothesis, List.map_cons]

/-! ## Beginnings of texts -/

/-- Contents that start with no blank. -/
theorem skipBlanks_of_head {content : Content}
    (other : ∀ unit ∈ content.head?, ¬ isBlank unit) : skipBlanks content = content := by
  cases content with
  | nil => rfl
  | cons unit rest => simp [skipBlanks, other unit rfl]

/-- Blanks are skipped before contents that start with none. -/
theorem skipBlanks_append {blanks rest : Content} (blank : ∀ unit ∈ blanks, isBlank unit)
    (other : ∀ unit ∈ rest.head?, ¬ isBlank unit) : skipBlanks (blanks ++ rest) = rest := by
  have skipped : skipBlanks (blanks ++ rest) = skipBlanks rest :=
    List.dropWhile_append_of_pos blank
  rw [skipped, skipBlanks_of_head other]

/-- A line break is made of blanks. -/
theorem isBlank_of_mem_lineBreak (level : Nat) :
    ∀ unit ∈ Content.ofChars (Json.lineBreak level), isBlank unit := by
  intro unit member
  simp only [Json.lineBreak, Content.ofChars, List.map_cons, List.map_replicate, List.mem_cons,
    List.mem_replicate] at member
  rcases member with rfl | ⟨-, rfl⟩ <;> rfl

/-- A line break before a value is skipped. -/
theorem readValue_lineBreak (fuel level : Nat) {rest : Content}
    (other : ∀ unit ∈ rest.head?, ¬ isBlank unit) :
    readValue fuel (Content.ofChars (Json.lineBreak level) ++ rest) = readValue fuel rest := by
  cases fuel with
  | zero => rfl
  | succ fuel =>
      rw [readValue, readValue, skipBlanks_append (isBlank_of_mem_lineBreak level) other,
        skipBlanks_of_head other]

/-- Whether a character may start the text of a value. -/
def StartsValue (char : Char) : Prop :=
  ¬ isBlank (.char char) ∧ char ≠ ']'

theorem startsValue_of_isDigit {char : Char} (digit : Text.isDigit char) : StartsValue char := by
  constructor
  · intro blank
    simp only [isBlank, Bool.or_eq_true, beq_iff_eq] at blank
    rcases blank with ((rfl | rfl) | rfl) | rfl <;> cases digit
  · rintro rfl
    cases digit

/-- The text of a tree starts like a value. -/
theorem exists_head_indented (tree : Json) (level : Nat) :
    ∃ char rest, tree.indented level = char :: rest ∧ StartsValue char := by
  cases tree with
  | null => exact ⟨'n', _, rfl, by decide, by decide⟩
  | bool value =>
      cases value with
      | false => exact ⟨'f', _, rfl, by decide, by decide⟩
      | true => exact ⟨'t', _, rfl, by decide, by decide⟩
  | number value =>
      obtain ⟨numeral, read, -⟩ := value.exists_readNumeral
      obtain ⟨char, others, text, starts⟩ := exists_head_of_readNumeral read
      cases written : Json.numberText value with
      | nil => simp [Content.ofChars, written] at text
      | cons first rest =>
          rw [written, ofChars_cons] at text
          obtain ⟨same, -⟩ := List.cons.inj text
          obtain rfl := TextUnit.char.inj same
          refine ⟨first, rest, by rw [Json.indented, written], ?_⟩
          rcases starts with rfl | digit
          · exact ⟨by decide, by decide⟩
          · exact startsValue_of_isDigit digit
  | string value => exact ⟨'\x22', _, rfl, by decide, by decide⟩
  | array items => cases items <;> exact ⟨'[', _, rfl, by decide, by decide⟩
  | object entries => cases entries <;> exact ⟨'\x7b', _, rfl, by decide, by decide⟩

/-- A number is read where a value may stand. -/
theorem readValue_of_readNumeral (fuel : Nat) {content : Content} {numeral : Numeral}
    {after : Content} (read : readNumeral content = some (numeral, after)) :
    readValue (fuel + 1) content = some (.number numeral.value?, after) := by
  obtain ⟨char, others, rfl, starts⟩ := exists_head_of_readNumeral read
  have plain : char ≠ '\x22' ∧ char ≠ '[' ∧ char ≠ '\x7b' ∧ char ≠ 'n' ∧ char ≠ 't' ∧ char ≠ 'f'
      ∧ ¬ isBlank (.char char) := by
    rcases starts with rfl | digit
    · decide
    · refine ⟨?_, ?_, ?_, ?_, ?_, ?_, (startsValue_of_isDigit digit).1⟩ <;>
        · rintro rfl
          cases digit
  obtain ⟨quote, bracket, brace, null, true, false, blank⟩ := plain
  have stays : skipBlanks (.char char :: others) = .char char :: others := by
    refine skipBlanks_of_head ?_
    rintro _ ⟨⟩
    exact blank
  simp [readValue, stays, quote, bracket, brace, null, true, false, read]

/-! ## Lists of values -/

theorem readItems_last {fuel : Nat} {content afterItem after : Content} {item : Written}
    (read : readValue fuel content = some (item, afterItem))
    (closes : skipBlanks afterItem = .char ']' :: after) :
    readItems (fuel + 1) content = some ([item], after) := by
  simp [readItems, read, closes]

theorem readItems_further {fuel : Nat} {content afterItem rest after : Content} {item : Written}
    {items : List Written} (read : readValue fuel content = some (item, afterItem))
    (goesOn : skipBlanks afterItem = .char ',' :: rest)
    (later : readItems fuel rest = some (items, after)) :
    readItems (fuel + 1) content = some (item :: items, after) := by
  simp [readItems, read, goesOn, later]

theorem readEntries_last {fuel : Nat} {content keyRest valueRest afterItem after : Content}
    {key : Option String} {item : Written} (opens : skipBlanks content = .char '\x22' :: keyRest)
    (named : readString keyRest = some (key, .char ':' :: valueRest))
    (read : readValue fuel valueRest = some (item, afterItem))
    (closes : skipBlanks afterItem = .char '\x7d' :: after) :
    readEntries (fuel + 1) content = some ([(key, item)], after) := by
  have colon : skipBlanks (.char ':' :: valueRest) = .char ':' :: valueRest := rfl
  simp [readEntries, opens, named, colon, read, closes]

theorem readEntries_further {fuel : Nat} {content keyRest valueRest afterItem rest after : Content}
    {key : Option String} {item : Written} {entries : List (Option String × Written)}
    (opens : skipBlanks content = .char '\x22' :: keyRest)
    (named : readString keyRest = some (key, .char ':' :: valueRest))
    (read : readValue fuel valueRest = some (item, afterItem))
    (goesOn : skipBlanks afterItem = .char ',' :: rest)
    (later : readEntries fuel rest = some (entries, after)) :
    readEntries (fuel + 1) content = some ((key, item) :: entries, after) := by
  have colon : skipBlanks (.char ':' :: valueRest) = .char ':' :: valueRest := rfl
  simp [readEntries, opens, named, colon, read, goesOn, later]

theorem endsNumber_lineBreak (level : Nat) (rest : Content) :
    EndsNumber (Content.ofChars (Json.lineBreak level) ++ rest) :=
  endsNumber_cons (by decide)

theorem skipBlanks_lineBreak (level : Nat) {char : Char} (other : ¬ isBlank (.char char))
    (rest : Content) :
    skipBlanks (Content.ofChars (Json.lineBreak level) ++ .char char :: rest)
      = .char char :: rest := by
  refine skipBlanks_append (isBlank_of_mem_lineBreak level) ?_
  rintro _ ⟨⟩
  exact other

/-! ## Values -/

/-- Whether the indented text of a tree reads as the tree with its numbers read again, whatever
comes after it. -/
def ReadsIndented (tree : Json) : Prop :=
  ∀ level fuel after, 2 * (tree.indented level).length ≤ fuel -> EndsNumber after ->
    readValue fuel (Content.ofChars (tree.indented level) ++ after)
      = some (ofJson tree.reread, after)

/-- A line break and a value after it. -/
theorem readValue_lineBreak_indented {tree : Json} (reads : ReadsIndented tree) {level fuel : Nat}
    (enough : 2 * (tree.indented level).length ≤ fuel) {after : Content} (ends : EndsNumber after) :
    readValue fuel (Content.ofChars (Json.lineBreak level)
      ++ (Content.ofChars (tree.indented level) ++ after)) = some (ofJson tree.reread, after) := by
  rw [readValue_lineBreak, reads level fuel after enough ends]
  obtain ⟨char, others, text, starts⟩ := exists_head_indented tree level
  rw [text, ofChars_cons]
  rintro _ ⟨⟩
  exact starts.1

/-- A comma, a line break and more is what further items are written as. -/
theorem ofChars_indentedFurtherItems (level : Nat) (item : Json) (rest : List Json)
    (tail : Content) :
    Content.ofChars (Json.indentedFurtherItems level (item :: rest)) ++ tail
      = .char ',' :: (Content.ofChars (Json.lineBreak level)
          ++ (Content.ofChars (item.indented level)
            ++ (Content.ofChars (Json.indentedFurtherItems level rest) ++ tail))) := by
  simp [Json.indentedFurtherItems, ofChars_cons, ofChars_append]

/-- The items of an array, up to the closing bracket. -/
theorem readItems_indented (level outer : Nat) (after : Content) {item : Json} {rest : List Json}
    (reads : ∀ other ∈ item :: rest, ReadsIndented other) {fuel : Nat}
    (enough : 2 * (Json.indentedFurtherItems level (item :: rest)).length ≤ fuel + 2) :
    readItems fuel (Content.ofChars (Json.lineBreak level)
        ++ (Content.ofChars (item.indented level)
          ++ (Content.ofChars (Json.indentedFurtherItems level rest)
            ++ (Content.ofChars (Json.lineBreak outer) ++ .char ']' :: after))))
      = some (ofItems (Json.rereadItems (item :: rest)), after) := by
  induction rest generalizing item fuel with
  | nil =>
      have readsItem := reads item List.mem_cons_self
      simp only [Json.indentedFurtherItems, Json.lineBreak, List.length_cons, List.length_append,
        List.length_replicate, List.length_nil] at enough
      obtain ⟨inner, rfl⟩ : ∃ inner, fuel = inner + 1 := ⟨fuel - 1, by omega⟩
      refine readItems_last (readValue_lineBreak_indented readsItem (by omega) ?_) ?_
      · exact endsNumber_lineBreak outer _
      · exact skipBlanks_lineBreak outer (by decide) after
  | cons next rest inductionHypothesis =>
      have readsItem := reads item List.mem_cons_self
      have later : 2 * (Json.indentedFurtherItems level (next :: rest)).length + 2
          + 2 * (item.indented level).length ≤ fuel := by
        rw [Json.indentedFurtherItems] at enough
        simp only [Json.lineBreak, List.length_cons, List.length_append,
          List.length_replicate] at enough
        omega
      obtain ⟨inner, rfl⟩ : ∃ inner, fuel = inner + 1 := ⟨fuel - 1, by omega⟩
      rw [ofChars_indentedFurtherItems]
      refine readItems_further (readValue_lineBreak_indented readsItem (by omega) ?_) rfl ?_
      · exact endsNumber_cons (by decide)
      · exact inductionHypothesis (fun other member => reads other (List.mem_cons_of_mem _ member))
          (by omega)

/-- A comma, a line break and more is what further entries are written as. -/
theorem ofChars_indentedFurtherEntries (level : Nat) (key : String) (value : Json)
    (rest : List (String × Json)) (tail : Content) :
    Content.ofChars (Json.indentedFurtherEntries level ((key, value) :: rest)) ++ tail
      = .char ',' :: (Content.ofChars (Json.lineBreak level)
          ++ (.char '\x22' :: (Content.ofChars (key.toList.flatMap Json.escapeChar ++ ['\x22'])
            ++ (.char ':' :: .char ' ' :: (Content.ofChars (value.indented level)
              ++ (Content.ofChars (Json.indentedFurtherEntries level rest) ++ tail)))))) := by
  simp [Json.indentedFurtherEntries, Json.quoted, Content.ofChars]

/-- A blank and a value after it. -/
theorem readValue_blank_indented {tree : Json} (reads : ReadsIndented tree) {level fuel : Nat}
    (enough : 2 * (tree.indented level).length ≤ fuel) {after : Content} (ends : EndsNumber after) :
    readValue fuel (.char ' ' :: (Content.ofChars (tree.indented level) ++ after))
      = some (ofJson tree.reread, after) := by
  have found := reads level fuel after enough ends
  cases fuel with
  | zero => cases found
  | succ fuel => exact found

/-- The entries of an object, up to the closing brace. -/
theorem readEntries_indented (level outer : Nat) (after : Content) {key : String} {value : Json}
    {rest : List (String × Json)}
    (reads : ∀ entry ∈ (key, value) :: rest, ReadsIndented entry.2) {fuel : Nat}
    (enough : 2 * (Json.indentedFurtherEntries level ((key, value) :: rest)).length ≤ fuel + 2) :
    readEntries fuel (Content.ofChars (Json.lineBreak level)
        ++ (.char '\x22' :: (Content.ofChars (key.toList.flatMap Json.escapeChar ++ ['\x22'])
          ++ (.char ':' :: .char ' ' :: (Content.ofChars (value.indented level)
            ++ (Content.ofChars (Json.indentedFurtherEntries level rest)
              ++ (Content.ofChars (Json.lineBreak outer) ++ .char '\x7d' :: after)))))))
      = some (ofEntries (Json.rereadEntries ((key, value) :: rest)), after) := by
  induction rest generalizing key value fuel with
  | nil =>
      have readsValue : ReadsIndented value := reads (key, value) List.mem_cons_self
      simp only [Json.indentedFurtherEntries, Json.lineBreak, List.length_cons,
        List.length_append, List.length_replicate, List.length_nil] at enough
      obtain ⟨inner, rfl⟩ : ∃ inner, fuel = inner + 1 := ⟨fuel - 1, by omega⟩
      refine readEntries_last (skipBlanks_lineBreak level (by decide) _) (readString_quoted key _)
        (readValue_blank_indented readsValue (by omega) ?_) ?_
      · exact endsNumber_lineBreak outer _
      · exact skipBlanks_lineBreak outer (by decide) after
  | cons next rest inductionHypothesis =>
      obtain ⟨nextKey, nextValue⟩ := next
      have readsValue : ReadsIndented value := reads (key, value) List.mem_cons_self
      have later : 2 * (Json.indentedFurtherEntries level ((nextKey, nextValue) :: rest)).length + 2
          + 2 * (value.indented level).length ≤ fuel := by
        rw [Json.indentedFurtherEntries] at enough
        simp only [Json.lineBreak, List.length_cons, List.length_append,
          List.length_replicate] at enough
        omega
      obtain ⟨inner, rfl⟩ : ∃ inner, fuel = inner + 1 := ⟨fuel - 1, by omega⟩
      rw [ofChars_indentedFurtherEntries]
      refine readEntries_further (skipBlanks_lineBreak level (by decide) _)
        (readString_quoted key _)
        (readValue_blank_indented readsValue (by omega) ?_) rfl ?_
      · exact endsNumber_cons (by decide)
      · exact inductionHypothesis (fun entry member => reads entry (List.mem_cons_of_mem _ member))
          (by omega)

/-- Every text takes some fuel. -/
theorem ReadsIndented.of_succ {tree : Json}
    (reads : ∀ level fuel after, 2 * (tree.indented level).length ≤ fuel + 1 -> EndsNumber after ->
      readValue (fuel + 1) (Content.ofChars (tree.indented level) ++ after)
        = some (ofJson tree.reread, after)) : ReadsIndented tree := by
  intro level fuel after enough ends
  obtain ⟨char, rest, text, -⟩ := exists_head_indented tree level
  cases fuel with
  | zero => simp [text] at enough
  | succ fuel => exact reads level fuel after enough ends

theorem readValue_bracket {fuel : Nat} {content rest : Content} {char : Char}
    (first : skipBlanks content = .char char :: rest) (other : char ≠ ']') :
    readValue (fuel + 1) (.char '[' :: content)
      = (readItems fuel content).map fun (items, after) => (.array items, after) := by
  have opens : skipBlanks (.char '[' :: content) = .char '[' :: content := rfl
  simp [readValue, opens, first, other]

theorem readValue_brace {fuel : Nat} {content rest : Content} {char : Char}
    (first : skipBlanks content = .char char :: rest) (other : char ≠ '\x7d') :
    readValue (fuel + 1) (.char '\x7b' :: content)
      = (readEntries fuel content).map fun (entries, after) => (.object entries, after) := by
  have opens : skipBlanks (.char '\x7b' :: content) = .char '\x7b' :: content := rfl
  simp [readValue, opens, first, other]

/-- An array of values whose texts read back. -/
theorem ReadsIndented.array {items : List Json} (reads : ∀ item ∈ items, ReadsIndented item) :
    ReadsIndented (.array items) := by
  refine .of_succ ?_
  intro level fuel after enough _
  cases items with
  | nil =>
      simp [readValue, skipBlanks, isBlank, Content.ofChars, ofJson, ofItems, Json.indented,
        Json.reread, Json.rereadItems]
  | cons item rest =>
      have split : Content.ofChars (Json.indented level (.array (item :: rest))) ++ after
          = .char '[' :: (Content.ofChars (Json.lineBreak (level + 1))
            ++ (Content.ofChars (item.indented (level + 1))
              ++ (Content.ofChars (Json.indentedFurtherItems (level + 1) rest)
                ++ (Content.ofChars (Json.lineBreak level) ++ .char ']' :: after)))) := by
        simp [Json.indented, Content.ofChars]
      have within : 2 * (Json.indentedFurtherItems (level + 1) (item :: rest)).length
          ≤ fuel + 2 := by
        simp only [Json.indented, Json.indentedFurtherItems, Json.lineBreak, List.length_cons,
          List.length_append, List.length_replicate, List.length_nil] at enough ⊢
        omega
      obtain ⟨char, others, text, blank, other⟩ :=
        exists_head_indented item (level + 1)
      have first : ∀ tail, skipBlanks (Content.ofChars (Json.lineBreak (level + 1))
          ++ (Content.ofChars (item.indented (level + 1)) ++ tail))
            = .char char :: (Content.ofChars others ++ tail) := by
        intro tail
        rw [text, ofChars_cons, List.cons_append]
        exact skipBlanks_lineBreak (level + 1) blank _
      rw [split, readValue_bracket (first _) other,
        readItems_indented (level + 1) level after reads within]
      rfl

/-- An object of values whose texts read back. -/
theorem ReadsIndented.object {entries : List (String × Json)}
    (reads : ∀ entry ∈ entries, ReadsIndented entry.2) : ReadsIndented (.object entries) := by
  refine .of_succ ?_
  intro level fuel after enough _
  cases entries with
  | nil =>
      simp [readValue, skipBlanks, isBlank, Content.ofChars, ofJson, ofEntries, Json.indented,
        Json.reread, Json.rereadEntries]
  | cons entry rest =>
      obtain ⟨key, value⟩ := entry
      have split : Content.ofChars (Json.indented level (.object ((key, value) :: rest))) ++ after
          = .char '\x7b' :: (Content.ofChars (Json.lineBreak (level + 1))
            ++ (.char '\x22'
              :: (Content.ofChars (key.toList.flatMap Json.escapeChar ++ ['\x22'])
                ++ (.char ':' :: .char ' ' :: (Content.ofChars (value.indented (level + 1))
                  ++ (Content.ofChars (Json.indentedFurtherEntries (level + 1) rest)
                    ++ (Content.ofChars (Json.lineBreak level) ++ .char '\x7d' :: after))))))) := by
        simp [Json.indented, Json.quoted, Content.ofChars]
      have within : 2 * (Json.indentedFurtherEntries (level + 1) ((key, value) :: rest)).length
          ≤ fuel + 2 := by
        simp only [Json.indented, Json.indentedFurtherEntries, Json.lineBreak, List.length_cons,
          List.length_append, List.length_replicate, List.length_nil] at enough ⊢
        omega
      have first : ∀ tail, skipBlanks (Content.ofChars (Json.lineBreak (level + 1))
          ++ .char '\x22' :: tail) = .char '\x22' :: tail :=
        skipBlanks_lineBreak (level + 1) (by decide)
      rw [split, readValue_brace (first _) (by decide),
        readEntries_indented (level + 1) level after reads within]
      rfl

mutual

/-- The indented text of a tree reads as the tree with its numbers read again. -/
theorem readsIndented : (tree : Json) -> ReadsIndented tree
  | .null => by
      refine .of_succ fun level fuel after _ _ => ?_
      simp [readValue, skipBlanks, isBlank, readWord, Text.after?, Content.ofChars, ofJson,
        Json.reread, Json.indented]
  | .bool value => by
      refine .of_succ fun level fuel after _ _ => ?_
      cases value <;>
        simp [readValue, skipBlanks, isBlank, readWord, Text.after?, Content.ofChars, ofJson,
          Json.reread, Json.indented, Json.boolText]
  | .number value => by
      refine .of_succ fun level fuel after _ ends => ?_
      obtain ⟨numeral, read, same⟩ := value.exists_readNumeral
      rw [Json.indented, readValue_of_readNumeral fuel (readNumeral_append ends read), same,
        Json.reread, ofJson]
      rfl
  | .string value => by
      refine .of_succ fun level fuel after _ _ => ?_
      rw [Json.indented, Json.quoted, ofChars_cons]
      simp [readValue, skipBlanks, isBlank, readString_quoted, ofJson, Json.reread]
  | .array items => .array (readsIndented_items items)
  | .object entries => .object (readsIndented_entries entries)

theorem readsIndented_items : (items : List Json) -> ∀ item ∈ items, ReadsIndented item
  | [] => List.forall_mem_nil _
  | item :: rest => List.forall_mem_cons.mpr ⟨readsIndented item, readsIndented_items rest⟩

theorem readsIndented_entries :
    (entries : List (String × Json)) -> ∀ entry ∈ entries, ReadsIndented entry.2
  | [] => List.forall_mem_nil _
  | (_, value) :: rest => List.forall_mem_cons.mpr ⟨readsIndented value, readsIndented_entries rest⟩

end

/-- The file of a tree reads as the tree with its numbers read again. -/
theorem parse?_indented (tree : Json) :
    parse? (Content.ofChars (tree.indented 0)) = some (ofJson tree.reread) := by
  have length : (Content.ofChars (tree.indented 0)).length = (tree.indented 0).length :=
    List.length_map _
  have read := readsIndented tree 0 (2 * (Content.ofChars (tree.indented 0)).length + 1) []
    (by omega) endsNumber_nil
  rw [List.append_nil] at read
  rw [parse?, read]
  rfl

end Written

end LayerRouting
