import RecordQuery.Ordering.Spec
import RecordQuery.Proofs.Splitting
import RecordQuery.Proofs.Success

/-!
# Ordering text is read back

`render` writes specs and `parse` reads them. The specs whose chains consist of plain names, without
commas, dots and blanks, are read back as they were written, and all specs that are read from any
text are of this kind (`OrderingSpec.parse_render`). The three cuts, at commas, at blanks and at
dots, are undone one after the other: a spec is the list of its names, written as a token
(`ofChars_toText`), as a segment (`ofSegment_segment`) and as a part of a text.
-/

namespace RecordQuery

/-- A name that a chain in ordering text can hold. -/
def Chain.IsPlainName (name : String) : Prop :=
  name ≠ "" ∧ ∀ c ∈ name.toList, c ≠ ',' ∧ c ≠ '.' ∧ Text.isBlank c = false

/-- There are names in the chain, and all of them are plain. -/
structure OrderingSpec.IsPlain (spec : OrderingSpec) : Prop where
  chain_ne : spec.chain ≠ []
  names : ∀ name ∈ spec.chain, Chain.IsPlainName name

/-! ### Chains -/

namespace Chain

variable {names : List String}

theorem toList_toText (names : List String) :
    (toText names).toList = ['.'].intercalate (names.map String.toList) := by
  rw [toText, String.toList_intercalate]
  rfl

/-- The characters of a dotted text are the dots and those of its names. -/
theorem mem_toText {c : Char} (hc : c ∈ (toText names).toList) :
    c = '.' ∨ ∃ name ∈ names, c ∈ name.toList := by
  rw [toList_toText] at hc
  induction names with
  | nil => cases hc
  | cons name names ih =>
    cases names with
    | nil =>
      rw [List.map_singleton, List.intercalate_singleton] at hc
      exact .inr ⟨name, List.mem_cons_self, hc⟩
    | cons next names =>
      rw [List.map_cons, List.map_cons, List.intercalate_cons_cons, List.mem_append,
        List.mem_append, List.mem_singleton] at hc
      rcases hc with (hc | hc) | hc
      · exact .inr ⟨name, List.mem_cons_self, hc⟩
      · exact .inl hc
      · exact (ih hc).imp_right fun ⟨n, hn, hcn⟩ => ⟨n, List.mem_cons_of_mem _ hn, hcn⟩

/-- A name that a dotted text can hold: without dots, and without blanks at its ends. -/
def IsPathName (name : String) : Prop :=
  name ≠ "" ∧ '.' ∉ name.toList ∧ Text.trim name.toList = name.toList

theorem IsPlainName.isPathName {name : String} (h : IsPlainName name) : IsPathName name :=
  ⟨h.1, fun hdot => (h.2 '.' hdot).2.1 rfl, Text.trim_eq_self fun c hc => (h.2 c hc).2.2⟩

theorem IsPathName.isBlankText {name : String} (h : IsPathName name) :
    Text.isBlankText name.toList = false := by
  refine Bool.eq_false_iff.2 fun hblank => h.1 (String.toList_eq_nil_iff.1 ?_)
  rw [← h.2.2, Text.trim_of_isBlankText hblank]

/-- The names of a dotted text of such names. -/
theorem ofChars_toText_of_isPathName (hne : names ≠ []) (h : ∀ name ∈ names, IsPathName name) :
    ofChars (toText names).toList = names := by
  have hpieces : Text.pieces '.' (toText names).toList = names.map String.toList := by
    rw [toList_toText]
    refine Text.pieces_intercalate (by simpa using hne) fun p hp => ?_
    obtain ⟨name, hname, rfl⟩ := List.mem_map.1 hp
    exact (h name hname).2.1
  have hkept : (names.map String.toList).filter (fun p => !Text.isBlankText p) =
      names.map String.toList := by
    refine List.filter_eq_self.2 fun p hp => ?_
    obtain ⟨name, hname, rfl⟩ := List.mem_map.1 hp
    rw [(h name hname).isBlankText]
    rfl
  rw [ofChars, hpieces, hkept, List.map_map]
  refine (List.map_congr_left fun name hname => ?_).trans (List.map_id names)
  change String.ofList (Text.trim name.toList) = name
  rw [(h name hname).2.2, String.ofList_toList]

/-- The names of a dotted text of plain names. -/
theorem ofChars_toText (hne : names ≠ []) (h : ∀ name ∈ names, IsPlainName name) :
    ofChars (toText names).toList = names :=
  ofChars_toText_of_isPathName hne fun name hname => (h name hname).isPathName

/-- The names of a token without commas and blanks are plain. -/
theorem isPlainName_of_mem_ofChars {token : List Char}
    (htoken : ∀ c ∈ token, c ≠ ',' ∧ Text.isBlank c = false) {name : String}
    (hname : name ∈ ofChars token) : IsPlainName name := by
  obtain ⟨p, hp, rfl⟩ := List.mem_map.1 hname
  rw [List.mem_filter, Bool.not_eq_true'] at hp
  obtain ⟨hp, hblank⟩ := hp
  have hchars : ∀ c ∈ p, c ≠ ',' ∧ c ≠ '.' ∧ Text.isBlank c = false := fun c hc =>
    have hmem := Text.mem_of_mem_pieces hp hc
    ⟨(htoken c hmem.1).1, hmem.2, (htoken c hmem.1).2⟩
  obtain ⟨c, hc, -⟩ := Text.isBlankText_eq_false_iff.1 hblank
  rw [Text.trim_eq_self fun c hc => (hchars c hc).2.2]
  refine ⟨fun hempty => ?_, by simpa using hchars⟩
  rw [← String.toList_eq_nil_iff, String.toList_ofList] at hempty
  exact List.ne_nil_of_mem hc hempty

end Chain

namespace OrderingSpec

variable {spec : OrderingSpec} {specs : List OrderingSpec}

/-! ### Segments -/

theorem ofWord?_word (direction : Direction) :
    Direction.ofWord? direction.word.toList = some direction := by
  cases direction <;> decide

theorem toList_segment (spec : OrderingSpec) :
    spec.segment.toList =
      (Chain.toText spec.chain).toList ++ ' ' :: spec.direction.word.toList := by
  simp [segment]

/-- The token of a plain spec: a word without commas. -/
theorem IsPlain.token (h : spec.IsPlain) : (Chain.toText spec.chain).toList ≠ [] ∧
    ∀ c ∈ (Chain.toText spec.chain).toList, c ≠ ',' ∧ Text.isBlank c = false := by
  refine ⟨fun hnil => ?_, fun c hc => ?_⟩
  · have hnames := Chain.ofChars_toText h.chain_ne h.names
    rw [hnil] at hnames
    exact h.chain_ne hnames.symm
  · rcases Chain.mem_toText hc with rfl | ⟨name, hname, hc⟩
    · decide
    · have hplain := (h.names name hname).2 c hc
      exact ⟨hplain.1, hplain.2.2⟩

/-- A plain spec is read back from its segment. -/
theorem ofSegment_segment (h : spec.IsPlain) : ofSegment spec.segment.toList = .ok spec := by
  have hword : spec.direction.word.toList ≠ [] ∧
      ∀ c ∈ spec.direction.word.toList, Text.isBlank c = false := by
    have hall : spec.direction.word.toList.all (fun c => !Text.isBlank c) = true := by
      cases spec.direction <;> decide
    exact ⟨by cases spec.direction <;> decide, by simpa using hall⟩
  have hwords : Text.words spec.segment.toList =
      [(Chain.toText spec.chain).toList, spec.direction.word.toList] := by
    rw [toList_segment, Text.words_append_cons _ _ (by decide : Text.isBlank ' ' = true),
      Text.words_eq_singleton h.token.1 fun c hc => (h.token.2 c hc).2,
      Text.words_eq_singleton hword.1 hword.2]
    rfl
  simp only [ofSegment, hwords, ofWord?_word, ofToken, Chain.ofChars_toText h.chain_ne h.names]
  split
  · exact absurd ‹_› h.chain_ne
  · rfl

/-- A segment of a plain spec holds no comma and is not blank. -/
theorem IsPlain.segment (h : spec.IsPlain) :
    ',' ∉ spec.segment.toList ∧ Text.isBlankText spec.segment.toList = false := by
  have hword : ',' ∉ spec.direction.word.toList := by cases spec.direction <;> decide
  rw [toList_segment]
  constructor
  · rw [List.mem_append, List.mem_cons]
    rintro (hc | hc | hc)
    · exact (h.token.2 ',' hc).1 rfl
    · exact absurd hc (by decide)
    · exact hword hc
  · obtain ⟨c, hc⟩ := List.exists_mem_of_ne_nil _ h.token.1
    exact Text.isBlankText_eq_false_iff.2 ⟨c, List.mem_append_left _ hc, (h.token.2 c hc).2⟩

/-- What is read from a token without commas and blanks is plain. -/
theorem isPlain_of_ofToken {token : List Char} {direction : Direction}
    (htoken : ∀ c ∈ token, c ≠ ',' ∧ Text.isBlank c = false)
    (h : ofToken token direction = .ok spec) : spec.IsPlain := by
  unfold ofToken at h
  split at h
  · cases h
  · rename_i hne
    cases h
    exact ⟨hne, fun name hname => Chain.isPlainName_of_mem_ofChars htoken hname⟩

/-- What is read from a segment without commas is plain. -/
theorem isPlain_of_ofSegment {segment : List Char} (hcomma : ∀ c ∈ segment, c ≠ ',')
    (h : ofSegment segment = .ok spec) : spec.IsPlain := by
  have hword (w : List Char) (hw : w ∈ Text.words segment) :
      ∀ c ∈ w, c ≠ ',' ∧ Text.isBlank c = false := fun c hc =>
    ((Text.mem_of_mem_words hw).2 c hc).imp_left (hcomma c)
  unfold ofSegment at h
  split at h
  · rename_i token hwords
    exact isPlain_of_ofToken (hword token (by simp [hwords])) h
  · rename_i token word hwords
    split at h
    · exact isPlain_of_ofToken (hword token (by simp [hwords])) h
    · cases h
  · cases h

/-! ### Texts -/

theorem toList_render (specs : List OrderingSpec) :
    (render specs).toList = [','].intercalate (specs.map fun s => s.segment.toList) := by
  rw [render, String.toList_intercalate, List.map_map]
  rfl

/-- Plain specs are read back from the segments of their text. -/
theorem ofChars_render (hne : specs ≠ []) (h : ∀ spec ∈ specs, spec.IsPlain) :
    ofChars (render specs).toList = .ok specs := by
  have hpieces : Text.pieces ',' (render specs).toList = specs.map fun s => s.segment.toList := by
    rw [toList_render]
    refine Text.pieces_intercalate (by simpa using hne) fun p hp => ?_
    obtain ⟨spec, hspec, rfl⟩ := List.mem_map.1 hp
    exact (h spec hspec).segment.1
  have hkept : (specs.map fun s => s.segment.toList).filter (fun p => !Text.isBlankText p) =
      specs.map fun s => s.segment.toList := by
    refine List.filter_eq_self.2 fun p hp => ?_
    obtain ⟨spec, hspec, rfl⟩ := List.mem_map.1 hp
    rw [(h spec hspec).segment.2]
    rfl
  rw [ofChars, hpieces, hkept, Except.mapM_eq_ok, List.forall₂_map_left_iff,
    List.forall₂_same]
  exact fun spec hspec => ofSegment_segment (h spec hspec)

/-- Every spec that is read from a text is plain. -/
theorem isPlain_of_ofChars {cs : List Char} (h : ofChars cs = .ok specs) :
    ∀ spec ∈ specs, spec.IsPlain := by
  intro spec hspec
  obtain ⟨segment, hsegment, hread⟩ := Except.exists_of_mem_mapM h hspec
  have hpiece := (List.mem_filter.1 hsegment).1
  exact isPlain_of_ofSegment (fun c hc => (Text.mem_of_mem_pieces hpiece hc).2) hread

/-- A text of blanks has no segments. -/
theorem ofChars_of_isBlankText {cs : List Char} (h : Text.isBlankText cs = true) :
    ofChars cs = .ok [] := by
  have hnone : (Text.pieces ',' cs).filter (fun p => !Text.isBlankText p) = [] := by
    refine List.filter_eq_nil_iff.2 fun p hp => ?_
    have hblank : Text.isBlankText p = true :=
      List.all_eq_true.2 fun c hc => List.all_eq_true.1 h c (Text.mem_of_mem_pieces hp hc).1
    rw [hblank]
    decide
  rw [ofChars, hnone]
  rfl

/-- Specs are read from a text exactly if they are read from its segments, of which one is not
blank. -/
theorem parse_eq_ok_iff {text : Option String} (hne : specs ≠ []) :
    parse text = .ok specs ↔ ∃ t, text = some t ∧ ofChars t.toList = .ok specs := by
  cases text with
  | none => simp [parse]
  | some t =>
    cases hblank : Text.isBlankText t.toList with
    | true =>
      have hnil : ofChars t.toList ≠ .ok specs := by
        rw [ofChars_of_isBlankText hblank]
        exact fun h => hne (Except.ok.inj h).symm
      simpa [parse, hblank] using hnil
    | false => simp [parse, hblank]

/-- **Ordering text is read back.** Specs of plain names are read from the text that renders them.
Specs that are read from any text are of plain names, and their rendering is read as the same
specs. -/
theorem parse_render :
    (∀ specs, specs ≠ [] → (∀ spec ∈ specs, spec.IsPlain) →
      parse (some (render specs)) = .ok specs) ∧
    ∀ text specs, parse text = .ok specs → specs ≠ [] →
      (∀ spec ∈ specs, spec.IsPlain) ∧ parse (some (render specs)) = .ok specs := by
  have hrender (specs : List OrderingSpec) (hne : specs ≠ [])
      (hplain : ∀ spec ∈ specs, spec.IsPlain) : parse (some (render specs)) = .ok specs :=
    (parse_eq_ok_iff hne).2 ⟨render specs, rfl, ofChars_render hne hplain⟩
  refine ⟨hrender, fun text specs h hne => ?_⟩
  obtain ⟨t, -, h⟩ := (parse_eq_ok_iff hne).1 h
  have hplain := isPlain_of_ofChars h
  exact ⟨hplain, hrender specs hne hplain⟩

/-- Blanks, empty names and segments and the case of a direction are lost, and the rest is read
back. -/
theorem parse_render_home :
    parse (some ", home..City\tDESC,\u3000,id ") =
        .ok [⟨["home", "City"], .descending⟩, ⟨["id"], .ascending⟩] ∧
      render [⟨["home", "City"], .descending⟩, ⟨["id"], .ascending⟩] = "home.City desc,id asc" ∧
      parse (some "home.City desc,id asc") =
        .ok [⟨["home", "City"], .descending⟩, ⟨["id"], .ascending⟩] := by
  have hparse : parse (some ", home..City\tDESC,\u3000,id ") =
      .ok [⟨["home", "City"], .descending⟩, ⟨["id"], .ascending⟩] := by rfl
  have hrender : render [⟨["home", "City"], .descending⟩, ⟨["id"], .ascending⟩] =
      "home.City desc,id asc" := by rfl
  have hback := parse_render.2 _ _ hparse (by simp)
  have hagain := parse_render.1 _ (by simp) hback.1
  rw [hrender] at hagain
  exact ⟨hparse, hrender, hagain⟩

end OrderingSpec
end RecordQuery
