import LayerRouting.Text.Basic

/-!
# Parts between marks

Dividing a text at a mark is what the library's splitting does (`Text.parts_eq_splitOn`). No part
holds the mark, a text without it is one part (`Text.parts_of_not_mem`), and a mark divides the
parts before it from those behind it (`Text.parts_append_cons`).
-/

namespace LayerRouting

namespace Text

/-- The parts between marks are the pieces into which the marks split a text. -/
theorem parts_eq_splitOn (mark : Char) (text : List Char) :
    parts mark text = text.splitOn mark := by
  induction text with
  | nil => rfl
  | cons char rest inductionHypothesis =>
      rw [List.splitOn_cons_eq_if_modifyHead, parts, inductionHypothesis]
      by_cases here : char = mark
      · rw [if_pos here, if_pos (by simpa using here)]
      · rw [if_neg here, if_neg (by simpa using here)]
        obtain ⟨first, others, found⟩ :=
          List.exists_cons_of_ne_nil (List.splitOn_ne_nil mark rest)
        rw [found, List.modifyHead_cons]

/-- No part holds the mark. -/
theorem not_mem_of_mem_parts {mark : Char} {text part : List Char}
    (member : part ∈ parts mark text) : mark ∉ part := by
  induction text generalizing part with
  | nil => simp_all [parts]
  | cons char rest inductionHypothesis =>
      simp only [parts] at member
      split at member
      · rcases List.mem_cons.mp member with rfl | later
        · exact List.not_mem_nil
        · exact inductionHypothesis later
      · next other =>
          split at member
          · next none => simp_all [parts_eq_splitOn]
          · next first others found =>
              rw [found] at inductionHypothesis
              rcases List.mem_cons.mp member with rfl | later
              · rw [List.mem_cons, not_or]
                exact ⟨Ne.symm other, inductionHypothesis List.mem_cons_self⟩
              · exact inductionHypothesis (List.mem_cons_of_mem _ later)

/-- A text without the mark is one part. -/
theorem parts_of_not_mem {mark : Char} {text : List Char} (absent : mark ∉ text) :
    parts mark text = [text] := by
  rw [parts_eq_splitOn]
  exact List.splitOn_eq_singleton absent

/-- A mark divides the parts before it from those behind it. -/
theorem parts_append_cons (mark : Char) (before behind : List Char) :
    parts mark (before ++ mark :: behind) = parts mark before ++ parts mark behind := by
  simp only [parts_eq_splitOn, List.splitOn_eq_splitOnP]
  exact List.splitOnP_append_cons before behind (beq_self_eq_true mark)

end Text

end LayerRouting
