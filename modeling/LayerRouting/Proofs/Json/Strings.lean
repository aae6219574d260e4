import LayerRouting.Json.Parser
import LayerRouting.Json.Printer

/-!
# Strings read back

A string in quotes reads as the string, whatever comes after it (`Written.readString_quoted`).
Each character is written so that it is read as one piece, and the pieces denote the
characters.
-/

namespace LayerRouting

namespace Written

/-- The control characters that have short escapes. -/
def shortControls : List Char :=
  ['\x08', '\x0c', '\n', '\r', '\t']

/-- The piece that the written form of a character is read as. -/
def pieceOf (char : Char) : Piece :=
  if char.toNat < 0x20 ∧ char ∉ shortControls then .code char.toNat else .plain (.char char)

theorem hexDigit?_hexDigit {value : Nat} (digit : value < 16) :
    hexDigit? (.char (hexDigit value)) = some value := by
  revert value
  decide

/-- The four digits of a control character. -/
theorem codeUnit?_of_lt {value : Nat} (control : value < 0x20) :
    codeUnit? (.char '0') (.char '0') (.char (hexDigit (value / 16)))
      (.char (hexDigit (value % 16))) = some value := by
  have high := hexDigit?_hexDigit (show value / 16 < 16 by omega)
  have low := hexDigit?_hexDigit (show value % 16 < 16 by omega)
  have zero : hexDigit? (.char '0') = some 0 := by decide
  simp only [codeUnit?, zero, high, low, Option.bind_eq_bind, Option.bind_some, ofDigitsIn,
    List.foldl_cons, List.foldl_nil]
  congr 1
  omega

/-- Each character is read as its piece. -/
theorem readPieces_escapeChar (char : Char) (rest : Content) :
    readPieces (Content.ofChars (Json.escapeChar char) ++ rest)
      = (readPieces rest).map fun (pieces, after) => (pieceOf char :: pieces, after) := by
  fun_cases Json.escapeChar char
  case case8 quote backslash backspace feed line carriage tab control =>
    have long : char ∉ shortControls := by
      simpa [shortControls] using ⟨backspace, feed, line, carriage, tab⟩
    have piece : pieceOf char = .code char.toNat := by rw [pieceOf, if_pos ⟨control, long⟩]
    simp only [Content.ofChars, List.map_cons, List.map_nil, List.cons_append, List.nil_append,
      readPieces, codeUnit?_of_lt control, piece]
    cases readPieces rest <;> rfl
  case case9 quote backslash backspace feed line carriage tab printable =>
    have piece : pieceOf char = .plain (.char char) := by
      rw [pieceOf, if_neg fun control => printable control.1]
    have allowed : isControl (.char char) = false := by
      have above : ¬ char < ' ' := printable
      simpa [isControl] using above
    simp only [Content.ofChars, List.map_cons, List.map_nil, List.cons_append, List.nil_append]
    rw [readPieces, allowed, if_neg Bool.false_ne_true, piece]
    · simpa using quote
    · rintro _ _ _ _ _ same
      exact (backslash (TextUnit.char.inj same)).elim
    · rintro _ _ same
      exact (backslash (TextUnit.char.inj same)).elim
  all_goals
    cases read : readPieces rest <;>
      simp [Content.ofChars, readPieces, read, shortEscape?, pieceOf, shortControls]

/-- The characters of a text are read as their pieces, up to the closing quote. -/
theorem readPieces_quoted (text : List Char) (rest : Content) :
    readPieces (Content.ofChars (text.flatMap Json.escapeChar) ++ .char '\x22' :: rest)
      = some (text.map pieceOf, rest) := by
  induction text with
  | nil => simp [Content.ofChars, readPieces]
  | cons char others inductionHypothesis =>
      have split : Content.ofChars ((char :: others).flatMap Json.escapeChar)
          = Content.ofChars (Json.escapeChar char)
            ++ Content.ofChars (others.flatMap Json.escapeChar) := by
        simp [Content.ofChars]
      rw [split, List.append_assoc, readPieces_escapeChar, inductionHypothesis]
      rfl

/-- A code unit below the surrogates denotes its character, whatever comes after it. -/
theorem denoted_code {unit : Nat} (low : unit < 0xD800) (rest : List Piece) :
    denoted (.code unit :: rest) = (denoted rest).map (Char.ofNat unit :: ·) := by
  have notHigh : isHighSurrogate unit = false := by
    simp only [isHighSurrogate, Bool.and_eq_false_iff, decide_eq_false_iff_not]
    omega
  have notLow : isLowSurrogate unit = false := by
    simp only [isLowSurrogate, Bool.and_eq_false_iff, decide_eq_false_iff_not]
    omega
  cases rest with
  | nil => simp [denoted, notHigh, notLow]
  | cons piece others =>
      cases piece with
      | plain other => simp [denoted, notHigh, notLow]
      | code other => simp [denoted, notHigh, notLow]

/-- The pieces of characters denote them. -/
theorem denoted_pieces (text : List Char) : denoted (text.map pieceOf) = some text := by
  induction text with
  | nil => rfl
  | cons char others inductionHypothesis =>
      rw [List.map_cons, pieceOf]
      split
      · next control =>
          have low : char.toNat < 0xD800 := by omega
          rw [denoted_code low, inductionHypothesis, Char.ofNat_toNat]
          rfl
      · simp [denoted, TextUnit.char?, inductionHypothesis]

/-- A string in quotes reads as the string. -/
theorem readString_quoted (text : String) (rest : Content) :
    readString (Content.ofChars (text.toList.flatMap Json.escapeChar ++ ['\x22']) ++ rest)
      = some (some text, rest) := by
  have split : Content.ofChars (text.toList.flatMap Json.escapeChar ++ ['\x22']) ++ rest
      = Content.ofChars (text.toList.flatMap Json.escapeChar) ++ .char '\x22' :: rest := by
    simp [Content.ofChars]
  rw [split, readString, readPieces_quoted]
  simp [denoted_pieces]

end Written

end LayerRouting
