import MetricQuery.Proofs.Digits
import MetricQuery.Proofs.Sections
import MetricQuery.Series.Decoder

/-!
# Quoted names

Splitting a name at its dots undoes joining quoted sections, whatever characters
the sections consist of. The leading sections of an alias read as the index that
they were written from.
-/

set_option autoImplicit false

namespace MetricQuery

def quoted (name : String) : String :=
  String.ofList (quoteSection name.toList)

theorem writeSection_eq_quoted {name : String} (notReference : isReference name.toList = false)
    (notQuoted : isQuoted name.toList = false) : writeSection name = quoted name := by
  simp [writeSection, quoted, notReference, notQuoted]

namespace Series

theorem quoted_escaped (name : List Char) :
    Quoted '\'' (name.flatMap escapeSectionChar) name := by
  induction name with
  | nil => exact .nil
  | cons c name ih =>
    rw [List.flatMap_cons, escapeSectionChar]
    by_cases special : c = '\'' ∨ c = '\\'
    · rw [if_pos (by simpa using special)]
      exact .escaped c ih
    · rw [if_neg (by simpa using special)]
      obtain ⟨notQuote, notBackslash⟩ := not_or.1 special
      exact .char notQuote notBackslash ih

/-- A quoted name is one section, which stands for the name. -/
theorem section_quoteSection (name : List Char) : Section (quoteSection name) name := by
  have written := Section.quoted (by decide) (quoted_escaped name) Section.nil
  rwa [List.append_nil] at written

theorem sectionsWithin?_quoteSection (name rest : List Char) :
    sectionsWithin? none (quoteSection name ++ rest) =
      (sectionsWithin? none rest).map (prependAll name) :=
  (section_quoteSection name).reads rest

theorem sectionsWithin?_front (names : List (List Char)) (last : List Char) :
    sectionsWithin? none (['.'].intercalate (names.map quoteSection ++ [last])) =
      (sectionsWithin? none last).map (names ++ ·) := by
  induction names with
  | nil =>
    rw [List.map_nil, List.nil_append, List.intercalate_singleton]
    exact Option.map_id'.symm
  | cons name names ih =>
    have more : names.map quoteSection ++ [last] ≠ [] := by simp
    rw [List.map_cons, List.cons_append, List.intercalate_cons_of_ne_nil more, List.append_assoc,
      sectionsWithin?_quoteSection, List.singleton_append, sectionsWithin?_dot, ih]
    cases sectionsWithin? none last with
    | none => rfl
    | some sections => simp [prependAll_cons]

theorem splitName?_front (names : List String) (last : String) :
    splitName? (".".intercalate (names.map quoted ++ [last])) =
      (splitName? last).map (names ++ ·) := by
  have joined : (".".intercalate (names.map quoted ++ [last])).toList =
      ['.'].intercalate ((names.map String.toList).map quoteSection ++ [last.toList]) := by
    rw [String.toList_intercalate]
    simp [quoted, Function.comp_def]
  rw [splitName?, splitName?, joined, sectionsWithin?_front]
  simp [Function.comp_def]

theorem splitName?_quoted (name : String) : splitName? (quoted name) = some [name] := by
  have read := sectionsWithin?_quoteSection name.toList []
  rw [List.append_nil] at read
  simp [splitName?, quoted, read, sectionsWithin?, prependAll_cons]

/-- Sections that are quoted and joined by dots are split into the same ones. -/
theorem splitName?_joined {names : List String} (present : names ≠ []) :
    splitName? (".".intercalate (names.map quoted)) = some names := by
  rw [← List.dropLast_concat_getLast present, List.map_append, List.map_singleton,
    splitName?_front, splitName?_quoted, Option.map_some]

end Series

/-! ## Leading sections -/

theorem index?_showNat (n : Nat) :
    Decoder.index? (showNat n) = if n ≤ Text.maxUnsigned64 then some n else none := by
  rw [Decoder.index?, showNat, String.toList_ofList, Text.unsigned?_digits]

theorem writeSection_showNat (n : Nat) : writeSection (showNat n) = quoted (showNat n) := by
  obtain ⟨c, rest, shown, digit⟩ := Text.digits_cases n
  have notDollar : c ≠ '$' := by
    rintro rfl
    exact absurd digit (by decide)
  have notQuote : c ≠ '\'' := by
    rintro rfl
    exact absurd digit (by decide)
  refine writeSection_eq_quoted ?_ ?_
  · rw [showNat, String.toList_ofList, shown, isReference]
    intro tail starts
    exact notDollar (List.cons.inj starts).1
  · simp [showNat, shown, isQuoted, notQuote]

theorem writeSection_sectionText (channel : Channel) :
    writeSection channel.sectionText = quoted channel.sectionText := by
  cases channel <;> exact writeSection_eq_quoted rfl rfl

theorem ofSection?_sectionText (channel : Channel) :
    Channel.ofSection? channel.sectionText = some channel := by
  cases channel <;> rfl

end MetricQuery
