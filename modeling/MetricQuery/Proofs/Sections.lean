import Mathlib.Data.List.Forall2
import MetricQuery.Series.Response

/-!
# The grammar of sections

A section is any sequence of escaped characters, quoted pieces and plain
characters. A name is split by reading such sections up to the dots behind them,
and what is read as one section has been written as one.
-/

set_option autoImplicit false

namespace MetricQuery.Series

inductive Quoted (quote : Char) : (text name : List Char) → Prop
  | nil : Quoted quote [] []
  | escaped (c : Char) {text name : List Char} :
    Quoted quote text name → Quoted quote ('\\' :: c :: text) (c :: name)
  | char {c : Char} {text name : List Char} :
    c ≠ quote → c ≠ '\\' → Quoted quote text name → Quoted quote (c :: text) (c :: name)

structure IsPlainChar (c : Char) : Prop where
  quote : isQuote c = false
  backslash : c ≠ '\\'
  dot : c ≠ '.'

inductive Section : (text name : List Char) → Prop
  | nil : Section [] []
  | escaped (c : Char) {text name : List Char} :
    Section text name → Section ('\\' :: c :: text) (c :: name)
  | plain {c : Char} {text name : List Char} :
    IsPlainChar c → Section text name → Section (c :: text) (c :: name)
  | quoted {quote : Char} {piece inner text name : List Char} :
    isQuote quote = true → Quoted quote piece inner → Section text name →
      Section (quote :: (piece ++ quote :: text)) (inner ++ name)

/-! ## Reading what is written -/

def prependAll (name : List Char) (sections : List (List Char)) : List (List Char) :=
  name.foldr prepend sections

theorem prependAll_cons (name first : List Char) (rest : List (List Char)) :
    prependAll name (first :: rest) = (name ++ first) :: rest := by
  induction name with
  | nil => rfl
  | cons c name ih =>
    rw [prependAll, List.foldr_cons, ← prependAll, ih]
    rfl

theorem prependAll_append (front back : List Char) (sections : List (List Char)) :
    prependAll (front ++ back) sections = prependAll front (prependAll back sections) :=
  List.foldr_append

theorem ne_backslash_of_isQuote {quote : Char} (isQuote : isQuote quote = true) :
    quote ≠ '\\' := by
  rintro rfl
  exact absurd isQuote (by decide)

theorem sectionsWithin?_backslash (quote : Option Char) (c : Char) (rest : List Char) :
    sectionsWithin? quote ('\\' :: c :: rest) = (sectionsWithin? quote rest).map (prepend c) := by
  cases quote <;> rw [sectionsWithin?]

/-- A character other than a backslash outside of quotes. -/
theorem sectionsWithin?_outside {c : Char} (notBackslash : c ≠ '\\') (rest : List Char) :
    sectionsWithin? none (c :: rest) =
      if isQuote c then sectionsWithin? (some c) rest
      else if c = '.' then (sectionsWithin? none rest).map ([] :: ·)
      else (sectionsWithin? none rest).map (prepend c) := by
  rw [sectionsWithin?]
  · intro impossible
    exact absurd impossible notBackslash
  · intro other others impossible
    exact absurd impossible notBackslash

/-- A character other than a backslash inside of quotes. -/
theorem sectionsWithin?_inside {quote c : Char} (notBackslash : c ≠ '\\') (rest : List Char) :
    sectionsWithin? (some quote) (c :: rest) =
      if c = quote then sectionsWithin? none rest
      else (sectionsWithin? (some quote) rest).map (prepend c) := by
  rw [sectionsWithin?]
  · intro impossible
    exact absurd impossible notBackslash
  · intro other others impossible
    exact absurd impossible notBackslash

theorem sectionsWithin?_dot (rest : List Char) :
    sectionsWithin? none ('.' :: rest) = (sectionsWithin? none rest).map ([] :: ·) :=
  sectionsWithin?_outside (by decide) rest

theorem Quoted.reads_within {quote : Char} {piece inner : List Char}
    (written : Quoted quote piece inner) (rest : List Char) :
    sectionsWithin? (some quote) (piece ++ rest) =
      (sectionsWithin? (some quote) rest).map (prependAll inner) := by
  induction written with
  | nil => exact Option.map_id'.symm
  | escaped c _ ih =>
    rw [List.cons_append, List.cons_append, sectionsWithin?_backslash, ih, Option.map_map]
    rfl
  | char notQuote notBackslash _ ih =>
    rw [List.cons_append, sectionsWithin?_inside notBackslash, if_neg notQuote, ih,
      Option.map_map]
    rfl

theorem Quoted.reads {quote : Char} (isQuote : isQuote quote = true) {piece inner : List Char}
    (written : Quoted quote piece inner) (rest : List Char) :
    sectionsWithin? (some quote) (piece ++ quote :: rest) =
      (sectionsWithin? none rest).map (prependAll inner) := by
  rw [written.reads_within, sectionsWithin?_inside (ne_backslash_of_isQuote isQuote), if_pos rfl]

/-- A section is read as what it stands for, whatever follows. -/
theorem Section.reads {text name : List Char} (written : Section text name) (rest : List Char) :
    sectionsWithin? none (text ++ rest) = (sectionsWithin? none rest).map (prependAll name) := by
  induction written with
  | nil => exact Option.map_id'.symm
  | escaped c _ ih =>
    rw [List.cons_append, List.cons_append, sectionsWithin?_backslash, ih, Option.map_map]
    rfl
  | plain isPlain _ ih =>
    rw [List.cons_append, sectionsWithin?_outside isPlain.backslash, isPlain.quote,
      if_neg Bool.false_ne_true, if_neg isPlain.dot, ih, Option.map_map]
    rfl
  | @quoted quote piece inner text name isQuote pieceWritten _ ih =>
    rw [List.cons_append, List.append_assoc, List.cons_append,
      sectionsWithin?_outside (ne_backslash_of_isQuote isQuote), if_pos isQuote,
      pieceWritten.reads isQuote, ih, Option.map_map]
    congr 1
    funext sections
    exact (prependAll_append inner name sections).symm

theorem Section.append {front frontName back backName : List Char}
    (first : Section front frontName) (second : Section back backName) :
    Section (front ++ back) (frontName ++ backName) := by
  induction first with
  | nil => exact second
  | escaped c _ ih => exact .escaped c ih
  | plain isPlain _ ih => exact .plain isPlain ih
  | @quoted quote piece inner text name isQuote pieceWritten _ ih =>
    rw [List.cons_append, List.append_assoc, List.cons_append, List.append_assoc]
    exact .quoted isQuote pieceWritten ih

theorem section_of_plain {text : List Char} (plain : ∀ c ∈ text, IsPlainChar c) :
    Section text text := by
  induction text with
  | nil => exact .nil
  | cons c rest ih =>
    obtain ⟨first, others⟩ := List.forall_mem_cons.1 plain
    exact .plain first (ih others)

/-- Sections with dots between them are read as what they stand for. -/
theorem sectionsWithin?_intercalate {texts names : List (List Char)}
    (written : List.Forall₂ Section texts names) (present : names ≠ []) :
    sectionsWithin? none (['.'].intercalate texts) = some names := by
  induction written with
  | nil => exact absurd rfl present
  | @cons text name texts names first others ih =>
    cases others with
    | nil =>
      have read := first.reads []
      rw [List.append_nil] at read
      rw [List.intercalate_singleton, read]
      simp [sectionsWithin?, prependAll_cons]
    | @cons second _ later _ _ _ =>
      rw [List.intercalate_cons_of_ne_nil (List.cons_ne_nil _ _), List.append_assoc,
        first.reads, List.singleton_append, sectionsWithin?_dot, ih (List.cons_ne_nil _ _)]
      simp [prependAll_cons]

/-! ## What is read has been written -/

/-- How the rest of a section is written from a place on, inside of the given
quote if any. -/
def WrittenFrom : (quote : Option Char) → (text name : List Char) → Prop
  | none, text, name => Section text name
  | some quote, text, name => ∃ piece inner later laterName,
    text = piece ++ quote :: later ∧ name = inner ++ laterName ∧
      Quoted quote piece inner ∧ Section later laterName

/-- What stands behind a section: nothing, or a dot and the other sections. -/
def Behind (text : List Char) (others : List (List Char)) : Prop :=
  (text = [] ∧ others = []) ∨
    ∃ later, text = '.' :: later ∧ sectionsWithin? none later = some others

theorem WrittenFrom.escaped {quote : Option Char} {text name : List Char} (c : Char)
    (written : WrittenFrom quote text name) :
    WrittenFrom quote ('\\' :: c :: text) (c :: name) := by
  cases quote with
  | none => exact Section.escaped c written
  | some quote =>
    obtain ⟨piece, inner, later, laterName, rfl, rfl, pieceWritten, more⟩ := written
    exact ⟨'\\' :: c :: piece, c :: inner, later, laterName, rfl, rfl, .escaped c pieceWritten,
      more⟩

theorem prepend_ne_nil (c : Char) (sections : List (List Char)) : prepend c sections ≠ [] := by
  cases sections <;> exact List.cons_ne_nil _ _

theorem sectionsWithin?_ne_nil (quote : Option Char) (name : List Char) :
    sectionsWithin? quote name ≠ some [] := by
  fun_induction sectionsWithin? quote name <;> simp_all [prepend_ne_nil]

/-- A character in front of the first section is part of it. -/
theorem map_prepend_eq_some {quote : Option Char} {c : Char} {rest name : List Char}
    {others : List (List Char)}
    (read : (sectionsWithin? quote rest).map (prepend c) = some (name :: others)) :
    ∃ inner, sectionsWithin? quote rest = some (inner :: others) ∧ name = c :: inner := by
  obtain ⟨sections, found, same⟩ := Option.map_eq_some_iff.1 read
  cases sections with
  | nil => exact absurd found (sectionsWithin?_ne_nil quote rest)
  | cons first more =>
    obtain ⟨rfl, rfl⟩ := List.cons.inj same
    exact ⟨first, found, rfl⟩

/-- A character that begins no escape. -/
theorem ne_backslash {c : Char} {rest : List Char} (notLast : c = '\\' → rest = [] → False)
    (notEscape : ∀ next more, c = '\\' → rest = next :: more → False) : c ≠ '\\' := by
  intro backslash
  cases rest with
  | nil => exact notLast backslash rfl
  | cons next more => exact notEscape next more backslash rfl

/-- What is read begins with the rest of a section, behind which there is nothing or
a dot. -/
theorem exists_writtenFrom (quote : Option Char) (text : List Char) :
    ∀ name others, sectionsWithin? quote text = some (name :: others) →
      ∃ front back, text = front ++ back ∧ WrittenFrom quote front name ∧
        Behind back others := by
  fun_induction sectionsWithin? quote text with
  | case1 =>
    intro name others read
    obtain ⟨rfl, rfl⟩ := List.cons.inj (Option.some.inj read)
    exact ⟨[], [], rfl, Section.nil, Or.inl ⟨rfl, rfl⟩⟩
  | case2 | case3 =>
    intro name others read
    cases read
  | case4 quote c rest ih =>
    intro name others read
    obtain ⟨inner, found, rfl⟩ := map_prepend_eq_some read
    obtain ⟨front, back, rfl, written, behind⟩ := ih inner others found
    exact ⟨'\\' :: c :: front, back, rfl, written.escaped c, behind⟩
  | case5 c rest _ _ isQuote ih =>
    -- an opening quote
    intro name others read
    obtain ⟨_, back, rfl, ⟨piece, inner, later, laterName, rfl, rfl, pieceWritten, more⟩,
      behind⟩ := ih name others read
    exact ⟨c :: (piece ++ c :: later), back, rfl, Section.quoted isQuote pieceWritten more, behind⟩
  | case6 rest =>
    -- a dot
    intro name others read
    obtain ⟨sections, found, same⟩ := Option.map_eq_some_iff.1 read
    obtain ⟨rfl, rfl⟩ := List.cons.inj same
    exact ⟨[], '.' :: rest, rfl, Section.nil, Or.inr ⟨rest, rfl, found⟩⟩
  | case7 c rest notLast notEscape notQuote notDot ih =>
    intro name others read
    obtain ⟨inner, found, rfl⟩ := map_prepend_eq_some read
    obtain ⟨front, back, rfl, written, behind⟩ := ih inner others found
    have plain : IsPlainChar c :=
      ⟨Bool.eq_false_iff.2 notQuote, ne_backslash notLast notEscape, notDot⟩
    exact ⟨c :: front, back, rfl, Section.plain plain written, behind⟩
  | case8 quote rest _ _ ih =>
    -- the closing quote
    intro name others read
    obtain ⟨front, back, rfl, written, behind⟩ := ih name others read
    exact ⟨quote :: front, back, rfl, ⟨[], [], front, name, rfl, rfl, .nil, written⟩, behind⟩
  | case9 quote c rest notLast notEscape notQuote ih =>
    intro name others read
    obtain ⟨inner, found, rfl⟩ := map_prepend_eq_some read
    obtain ⟨_, back, rfl, ⟨piece, pieceName, later, laterName, rfl, rfl, pieceWritten, more⟩,
      behind⟩ := ih inner others found
    have longer := pieceWritten.char notQuote (ne_backslash notLast notEscape)
    exact ⟨c :: (piece ++ quote :: later), back, rfl,
      ⟨c :: piece, c :: pieceName, later, laterName, rfl, rfl, longer, more⟩, behind⟩

/-- A text is read as one section exactly if it is written as one. -/
theorem sectionsWithin?_eq_single_iff {text name : List Char} :
    sectionsWithin? none text = some [name] ↔ Section text name := by
  constructor
  · intro read
    obtain ⟨front, back, rfl, written, ⟨rfl, _⟩ | ⟨later, _, more⟩⟩ :=
      exists_writtenFrom none text name [] read
    · rwa [List.append_nil]
    · exact absurd more (sectionsWithin?_ne_nil none later)
  · intro written
    have joined := sectionsWithin?_intercalate (.cons written .nil) (List.cons_ne_nil _ _)
    rwa [List.intercalate_singleton] at joined

end MetricQuery.Series
