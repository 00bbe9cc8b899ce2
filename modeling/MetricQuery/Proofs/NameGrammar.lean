import MetricQuery.Proofs.Sections
import MetricQuery.Series.Decoder

/-!
# The grammar of names

A name is split exactly if it is written as sections with dots between them, and
then into what these stand for. Any other name ends in a quote that is not closed
or in a backslash with nothing behind it, and the decoder refuses it whole.
-/

set_option autoImplicit false

namespace MetricQuery.Series

inductive Joined : (text : List Char) → (names : List (List Char)) → Prop
  | last {text name : List Char} : Section text name → Joined text [name]
  | dot {text name rest : List Char} {names : List (List Char)} :
    Section text name → Joined rest names → Joined (text ++ '.' :: rest) (name :: names)

/-- What no name ends in: a lone backslash, or a quote that nothing closes. -/
inductive Unfinished : List Char → Prop
  | backslash : Unfinished ['\\']
  | unclosed {quote : Char} {piece inner : List Char} :
    isQuote quote = true → Quoted quote piece inner → Unfinished (quote :: piece)
  | unclosedBackslash {quote : Char} {piece inner : List Char} :
    isQuote quote = true → Quoted quote piece inner → Unfinished (quote :: (piece ++ ['\\']))

def Broken (text : List Char) : Prop :=
  ∃ front back names, text = front ++ back ∧ Joined front names ∧ Unfinished back

/-! ## Names that are split -/

theorem map_prependAll_dot (name : List Char) (sections : Option (List (List Char))) :
    (sections.map ([] :: ·)).map (prependAll name) = sections.map (name :: ·) := by
  rw [Option.map_map]
  congr 1
  funext names
  rw [Function.comp_apply, prependAll_cons, List.append_nil]

/-- A name and what stands behind the next dot are split apart from each other. -/
theorem Joined.reads_dot {text : List Char} {names : List (List Char)}
    (written : Joined text names) (rest : List Char) :
    sectionsWithin? none (text ++ '.' :: rest) =
      (sectionsWithin? none rest).map (names ++ ·) := by
  induction written with
  | last first => rw [first.reads, sectionsWithin?_dot, map_prependAll_dot]; rfl
  | dot first _ ih =>
    rw [List.append_assoc, List.cons_append, first.reads, sectionsWithin?_dot,
      map_prependAll_dot, ih, Option.map_map]
    rfl

theorem Joined.reads {text : List Char} {names : List (List Char)} (written : Joined text names) :
    sectionsWithin? none text = some names := by
  induction written with
  | last first => exact sectionsWithin?_eq_single_iff.2 first
  | dot first _ ih =>
    rw [first.reads, sectionsWithin?_dot, map_prependAll_dot, ih, Option.map_some]

theorem joined_of_sectionsWithin? {text : List Char} {names : List (List Char)}
    (read : sectionsWithin? none text = some names) : Joined text names := by
  -- by the length of the text, since what is behind a dot is split like a name
  induction size : text.length using Nat.strongRecOn generalizing text names with
  | ind count ih =>
    cases names with
    | nil => exact absurd read (sectionsWithin?_ne_nil none text)
    | cons name others =>
      obtain ⟨front, back, rfl, written, ⟨rfl, rfl⟩ | ⟨later, rfl, more⟩⟩ :=
        exists_writtenFrom none text name others read
      · rw [List.append_nil]
        exact .last written
      · have shorter : later.length < count := by
          rw [← size, List.length_append, List.length_cons]
          omega
        exact .dot written (ih later.length shorter more rfl)

theorem sectionsWithin?_eq_some_iff {text : List Char} {names : List (List Char)} :
    sectionsWithin? none text = some names ↔ Joined text names :=
  ⟨joined_of_sectionsWithin?, Joined.reads⟩

/-! ## Names that are refused -/

theorem Unfinished.unread {text : List Char} (unfinished : Unfinished text) :
    sectionsWithin? none text = none := by
  cases unfinished with
  | backslash => rfl
  | @unclosed quote piece inner isQuote written =>
    have read := written.reads_within []
    rw [List.append_nil] at read
    rw [sectionsWithin?_outside (ne_backslash_of_isQuote isQuote), if_pos isQuote, read]
    rfl
  | @unclosedBackslash quote piece inner isQuote written =>
    rw [sectionsWithin?_outside (ne_backslash_of_isQuote isQuote), if_pos isQuote,
      written.reads_within]
    rfl

/-- Behind sections a name is refused for what it is refused for by itself. -/
theorem Joined.unread {front : List Char} {names : List (List Char)} (written : Joined front names)
    {back : List Char} (unread : sectionsWithin? none back = none) :
    sectionsWithin? none (front ++ back) = none := by
  induction written with
  | last first => rw [first.reads, unread]; rfl
  | dot first _ ih =>
    rw [List.append_assoc, List.cons_append, first.reads, sectionsWithin?_dot, ih]
    rfl

theorem Joined.behind {text name front : List Char} {names : List (List Char)}
    (first : Section text name) (written : Joined front names) :
    ∃ others, Joined (text ++ front) others := by
  cases written with
  | last second => exact ⟨_, .last (first.append second)⟩
  | dot second more =>
    rw [← List.append_assoc]
    exact ⟨_, .dot (first.append second) more⟩

theorem Broken.behind {text name rest : List Char} (first : Section text name)
    (broken : Broken rest) : Broken (text ++ rest) := by
  obtain ⟨front, back, names, rfl, written, unfinished⟩ := broken
  obtain ⟨others, longer⟩ := Joined.behind first written
  exact ⟨text ++ front, back, others, (List.append_assoc _ _ _).symm, longer, unfinished⟩

theorem Broken.dot {rest : List Char} (broken : Broken rest) : Broken ('.' :: rest) := by
  obtain ⟨front, back, names, rfl, written, unfinished⟩ := broken
  exact ⟨'.' :: front, back, [] :: names, rfl, .dot .nil written, unfinished⟩

theorem Unfinished.broken {text : List Char} (unfinished : Unfinished text) : Broken text :=
  ⟨[], text, [[]], rfl, .last .nil, unfinished⟩

/-- How a name is not finished from a place on, inside of the given quote if any:
within the quote, or somewhere behind it. -/
def BrokenFrom : (quote : Option Char) → (text : List Char) → Prop
  | none, text => Broken text
  | some quote, text => ∃ piece inner, Quoted quote piece inner ∧
    (text = piece ∨ text = piece ++ ['\\'] ∨ ∃ later, text = piece ++ quote :: later ∧ Broken later)

/-- Within a quote, what is taken in front of a text that is not finished leaves it so. -/
theorem BrokenFrom.extend {quote : Char} {text : List Char} (front : List Char)
    (longer : ∀ {piece inner : List Char}, Quoted quote piece inner →
      ∃ more, Quoted quote (front ++ piece) more)
    (broken : BrokenFrom (some quote) text) : BrokenFrom (some quote) (front ++ text) := by
  obtain ⟨piece, inner, written, place⟩ := broken
  obtain ⟨more, extended⟩ := longer written
  refine ⟨front ++ piece, more, extended, ?_⟩
  rcases place with rfl | rfl | ⟨later, rfl, behind⟩
  · exact Or.inl rfl
  · exact Or.inr (Or.inl (List.append_assoc _ _ _).symm)
  · exact Or.inr (Or.inr ⟨later, (List.append_assoc _ _ _).symm, behind⟩)

theorem BrokenFrom.escaped {quote : Option Char} {text : List Char} (c : Char)
    (broken : BrokenFrom quote text) : BrokenFrom quote ('\\' :: c :: text) := by
  cases quote with
  | none => exact Broken.behind (.escaped c .nil) broken
  | some quote => exact BrokenFrom.extend ['\\', c] (fun written => ⟨_, .escaped c written⟩) broken

theorem brokenFrom_of_unread (quote : Option Char) (text : List Char) :
    sectionsWithin? quote text = none → BrokenFrom quote text := by
  fun_induction sectionsWithin? quote text with
  | case1 =>
    intro unread
    cases unread
  | case2 quote =>
    intro _
    exact ⟨[], [], .nil, Or.inl rfl⟩
  | case3 quote =>
    intro _
    cases quote with
    | none => exact Unfinished.backslash.broken
    | some quote => exact ⟨[], [], .nil, Or.inr (Or.inl rfl)⟩
  | case4 quote c rest ih =>
    intro unread
    exact (ih (Option.map_eq_none_iff.1 unread)).escaped c
  | case5 c rest _ _ isQuote ih =>
    -- an opening quote
    intro unread
    obtain ⟨piece, inner, written, rfl | rfl | ⟨later, rfl, more⟩⟩ := ih unread
    · exact (Unfinished.unclosed isQuote written).broken
    · exact (Unfinished.unclosedBackslash isQuote written).broken
    · have closed : Broken ((c :: (piece ++ c :: [])) ++ later) :=
        Broken.behind (.quoted isQuote written .nil) more
      rwa [List.cons_append, List.append_assoc] at closed
  | case6 rest _ _ _ ih =>
    -- a dot
    intro unread
    exact Broken.dot (ih (Option.map_eq_none_iff.1 unread))
  | case7 c rest notLast notEscape notQuote notDot ih =>
    intro unread
    have plain : IsPlainChar c :=
      ⟨Bool.eq_false_iff.2 notQuote, ne_backslash notLast notEscape, notDot⟩
    exact Broken.behind (.plain plain .nil) (ih (Option.map_eq_none_iff.1 unread))
  | case8 quote rest _ _ ih =>
    -- the closing quote
    intro unread
    exact ⟨[], [], .nil, Or.inr (Or.inr ⟨rest, rfl, ih unread⟩)⟩
  | case9 quote c rest notLast notEscape notQuote ih =>
    intro unread
    have notBackslash : c ≠ '\\' := ne_backslash notLast notEscape
    exact BrokenFrom.extend [c] (fun written => ⟨_, .char notQuote notBackslash written⟩)
      (ih (Option.map_eq_none_iff.1 unread))

theorem sectionsWithin?_eq_none_iff {text : List Char} :
    sectionsWithin? none text = none ↔ Broken text := by
  refine ⟨brokenFrom_of_unread none text, ?_⟩
  rintro ⟨front, back, names, rfl, written, unfinished⟩
  exact written.unread unfinished.unread

/-! ## Texts -/

theorem splitName?_eq_some_iff {name : String} {sections : List String} :
    splitName? name = some sections ↔ Joined name.toList (sections.map String.toList) := by
  rw [← sectionsWithin?_eq_some_iff, splitName?, Option.map_eq_some_iff]
  constructor
  · rintro ⟨names, read, rfl⟩
    rw [read, List.map_map]
    simp [Function.comp_def]
  · intro read
    refine ⟨_, read, ?_⟩
    rw [List.map_map]
    simp [Function.comp_def]

/-- A name is split into sections exactly if it is written as these, and it is not
split exactly if it is not finished at its end; then the decoder refuses it as a
whole. Behind a name that is split, a dot and another name add the sections of that
one, if it has any. -/
theorem splitName?_grammar (name : String) :
    (∀ sections, splitName? name = some sections ↔
      Joined name.toList (sections.map String.toList)) ∧
    (splitName? name = none ↔ Broken name.toList) ∧
    (Broken name.toList → ∀ decoder : Decoder,
      decoder.parseName name = .error (.invalidSeriesName name)) ∧
    ∀ sections, splitName? name = some sections → ∀ other : String,
      splitName? (name ++ "." ++ other) = (splitName? other).map (sections ++ ·) := by
  have refused : splitName? name = none ↔ Broken name.toList := by
    rw [splitName?, Option.map_eq_none_iff, sectionsWithin?_eq_none_iff]
  refine ⟨fun sections => splitName?_eq_some_iff, refused, fun broken decoder => ?_, ?_⟩
  · rw [Decoder.parseName, refused.2 broken]
  · intro sections split other
    have text : (name ++ "." ++ other).toList = name.toList ++ '.' :: other.toList := by simp
    rw [splitName?, text, (splitName?_eq_some_iff.1 split).reads_dot, splitName?, Option.map_map,
      Option.map_map]
    congr 1
    funext names
    simp [Function.comp_def]

end MetricQuery.Series
