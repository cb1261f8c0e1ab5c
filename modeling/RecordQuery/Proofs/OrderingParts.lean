import RecordQuery.Proofs.OrderingText

/-!
# Ordering text in parts

Ordering text is read segment by segment (`OrderingSpec.parsePart_eq`), and joining two texts by a
comma joins their segments (`OrderingSpec.segments_append_comma`). So reading takes the joining of
texts to that of the specs, and of several bad segments the leftmost one makes it fail
(`OrderingSpec.parse_append_comma`).
-/

namespace RecordQuery.OrderingSpec

/-- What stands between the commas of a text and is not blank. -/
def segments (text : String) : List (List Char) :=
  (text.toList.splitOn ',').filter fun s => !Text.isBlankText s

/-- The specs of a part of ordering text, which may be blank. -/
def parsePart (text : String) : Except Error (List OrderingSpec) :=
  if Text.isBlankText text.toList then .ok [] else parse (some text)

theorem ofChars_eq (text : String) : ofChars text.toList = (segments text).mapM ofSegment := by
  rw [ofChars, Text.pieces_eq_splitOn]
  rfl

/-- A part is read segment by segment. -/
theorem parsePart_eq (text : String) : parsePart text = (segments text).mapM ofSegment := by
  rw [parsePart, ← ofChars_eq]
  split
  · rename_i hblank
    rw [ofChars_of_isBlankText hblank]
  · rename_i hblank
    rw [parse, if_neg hblank]

theorem parse_eq_ok {text : String} {specs : List OrderingSpec}
    (h : parse (some text) = .ok specs) : parsePart text = .ok specs := by
  rw [parsePart]
  split
  · rename_i hblank
    rw [parse, if_pos hblank] at h
    cases h
  · exact h

theorem segments_append_comma (t u : String) :
    segments (t ++ "," ++ u) = segments t ++ segments u := by
  have htext : (t ++ "," ++ u).toList = t.toList ++ ',' :: u.toList := by simp
  rw [segments, htext, List.splitOn_append_cons_self, List.filter_append]
  rfl

/-- A text that is not blank is a part like any other. -/
theorem parse_of_not_isBlankText {text : String} (h : Text.isBlankText text.toList = false) :
    parse (some text) = parsePart text := by
  rw [parsePart, if_neg (Bool.eq_false_iff.1 h)]

theorem parse_of_segments {text : String} (h : segments text ≠ []) :
    parse (some text) = parsePart text := by
  refine parse_of_not_isBlankText (Bool.eq_false_iff.2 fun hblank => ?_)
  have hnone := ofChars_of_isBlankText hblank
  rw [ofChars_eq, Except.mapM_eq_ok, List.forall₂_nil_right_iff] at hnone
  exact h hnone

/-- Parts joined by a comma are read one after the other. -/
theorem parsePart_append_comma (t u : String) : parsePart (t ++ "," ++ u) = do
    let specs ← parsePart t
    let more ← parsePart u
    return specs ++ more := by
  rw [parsePart_eq, segments_append_comma, List.mapM_append, ← parsePart_eq, ← parsePart_eq]

/-- **Ordering text in parts.** Two texts joined by a comma are read as the specs of the first one
and then those of the second one, or fail like the first one, or else like the second one. A part
gives one spec for each of its segments, in their order, and fails exactly if one of them does, in
the way of the leftmost. -/
theorem parse_append_comma :
    (∀ t u : String, parse (some (t ++ "," ++ u)) = do
      let specs ← parsePart t
      let more ← parsePart u
      return specs ++ more) ∧
    (∀ text specs, parsePart text = .ok specs ↔
      List.Forall₂ (fun segment spec => ofSegment segment = .ok spec) (segments text) specs) ∧
    ∀ text e, parsePart text = .error e ↔
      ∃ before segment after, segments text = before ++ segment :: after ∧
        (∀ s ∈ before, ∃ spec, ofSegment s = .ok spec) ∧ ofSegment segment = .error e := by
  refine ⟨fun t u => ?_, fun text specs => ?_, fun text e => ?_⟩
  · -- a text with a comma in it is not blank
    have hcomma : Text.isBlankText (t ++ "," ++ u).toList = false :=
      Text.isBlankText_eq_false_iff.2 ⟨',', by simp, by decide⟩
    rw [parse_of_not_isBlankText hcomma, parsePart_append_comma]
  · rw [parsePart_eq, Except.mapM_eq_ok]
  · rw [parsePart_eq, Except.mapM_eq_error]

/-- The token of the third segment is no direction; the fourth one is not looked at. -/
example : parse (some " ,Id desc,,Age down,a b c") = .error (.invalidDirection "down") := by
  rfl

end RecordQuery.OrderingSpec
