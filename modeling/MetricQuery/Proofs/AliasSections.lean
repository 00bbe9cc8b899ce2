import MetricQuery.Proofs.Echo

/-!
# Sections of aliases

Splitting an alias undoes writing it: the leading sections, the keys of the tags
behind a dollar sign, and the label come back in this order, if all of them are
written between quotes. A name that is taken for a quoted one already is one
section of an alias exactly if it is written as one section by itself.
-/

set_option autoImplicit false

namespace MetricQuery

def Series.IsSection (text : String) : Prop :=
  ∃ name, Section text.toList name

/-- A name that is written between quotes. -/
def IsPlainName (name : String) : Prop :=
  isReference name.toList = false ∧ isQuoted name.toList = false

instance (name : String) : Decidable (IsPlainName name) :=
  inferInstanceAs (Decidable (_ ∧ _))

namespace Annotations

/-- Annotations whose names are written between quotes, in scopes that have no part
in how a name is split. -/
structure Plain (annotations : Annotations) : Prop where
  lead : ∀ name ∈ annotations.lead, IsPlainName name
  tags : ∀ tag ∈ annotations.tags, IsPlainName tag.name
  scopes : ∀ tag ∈ annotations.tags, ∀ scope, tag.scope = some scope →
    ∀ c ∈ scope.toList, c ∉ ['\'', '"', '\\', '.']
  label : annotations.HasPlainLabel

def sectionNames (annotations : Annotations) : List String :=
  annotations.lead ++ (annotations.tags.map fun tag => "$" ++ tag.key) ++
    annotations.label.toList

end Annotations

/-! ## Written sections -/

def Spells (text name : String) : Prop :=
  Series.Section text.toList name.toList

theorem spells_writeSection {name : String} (plain : IsPlainName name) :
    Spells (writeSection name) name := by
  rw [Spells, writeSection_eq_quoted plain.1 plain.2, quoted, String.toList_ofList]
  exact Series.section_quoteSection name.toList

theorem isPlainChar_of_not_mem {c : Char} (free : c ∉ ['\'', '"', '\\', '.']) :
    Series.IsPlainChar c := by
  simp only [List.mem_cons, List.not_mem_nil, or_false, not_or] at free
  obtain ⟨notQuote, notDouble, notBackslash, notDot⟩ := free
  exact ⟨by simp [Series.isQuote, notQuote, notDouble], notBackslash, notDot⟩

theorem Tag.spells_aliasSection {tag : Tag} (plain : IsPlainName tag.name)
    (free : ∀ scope, tag.scope = some scope → ∀ c ∈ scope.toList, c ∉ ['\'', '"', '\\', '.']) :
    Spells tag.aliasSection ("$" ++ tag.key) := by
  have name : Series.Section (writeSection tag.name).toList tag.name.toList :=
    spells_writeSection plain
  have dollar : Series.Section ['$'] ['$'] :=
    .plain ⟨by decide, by decide, by decide⟩ .nil
  have colon : Series.Section [':'] [':'] :=
    .plain ⟨by decide, by decide, by decide⟩ .nil
  rw [Spells, aliasSection, key]
  cases within : tag.scope with
  | none => simpa using dollar.append name
  | some scope =>
    have scopeChars : Series.Section scope.toList scope.toList :=
      Series.section_of_plain fun c member => isPlainChar_of_not_mem (free scope within c member)
    have written := ((dollar.append scopeChars).append colon).append name
    simpa using written

theorem Series.splitName?_spelled {texts names : List String}
    (spelled : List.Forall₂ Spells texts names) (present : names ≠ []) :
    splitName? (".".intercalate texts) = some names := by
  have written : List.Forall₂ Section (texts.map String.toList) (names.map String.toList) :=
    List.forall₂_map_left_iff.2 (List.forall₂_map_right_iff.2 spelled)
  have read := sectionsWithin?_intercalate written (by simpa using present)
  rw [splitName?, String.toList_intercalate]
  rw [show ".".toList = ['.'] from rfl, read, Option.map_some, List.map_map]
  simp [Function.comp_def]

namespace Annotations

variable {annotations : Annotations}

theorem Plain.spells (plain : annotations.Plain) :
    List.Forall₂ Spells annotations.sections annotations.sectionNames := by
  have lead : List.Forall₂ Spells (annotations.lead.map writeSection) annotations.lead := by
    rw [List.forall₂_map_left_iff, List.forall₂_same]
    exact fun name member => spells_writeSection (plain.lead name member)
  have tags : List.Forall₂ Spells (annotations.tags.map Tag.aliasSection)
      (annotations.tags.map fun tag => "$" ++ tag.key) := by
    rw [List.forall₂_map_left_iff, List.forall₂_map_right_iff, List.forall₂_same]
    exact fun tag member =>
      Tag.spells_aliasSection (plain.tags tag member) (plain.scopes tag member)
  have label : List.Forall₂ Spells (annotations.label.toList.map writeSection)
      annotations.label.toList := by
    rw [List.forall₂_map_left_iff, List.forall₂_same]
    exact fun name member => spells_writeSection (plain.label name (Option.mem_toList.1 member))
  exact List.rel_append (List.rel_append lead tags) label

theorem sectionNames_ne_nil (present : annotations.isEmpty = false) :
    annotations.sectionNames ≠ [] := by
  obtain ⟨label, tags, lead, statics⟩ := annotations
  cases label <;> cases tags <;> cases lead <;> simp_all [isEmpty, sectionNames]

/-- The alias of annotations whose names are all written between quotes is split into
the leading sections, the keys of the tags behind a dollar sign, and the label. Hence
an alias determines them. -/
theorem splitName?_alias (annotations : Annotations) (present : annotations.isEmpty = false)
    (plain : annotations.Plain) :
    (∃ name, annotations.text = "AS " ++ name ∧
      Series.splitName? name = some annotations.sectionNames) ∧
    ∀ other : Annotations, other.isEmpty = false → other.Plain →
      other.text = annotations.text → other.sectionNames = annotations.sectionNames := by
  have split : ∀ given : Annotations, given.isEmpty = false → given.Plain →
      Series.splitName? given.aliasText = some given.sectionNames := by
    intro given present plain
    exact Series.splitName?_spelled plain.spells (sectionNames_ne_nil present)
  refine ⟨⟨annotations.aliasText, rfl, split annotations present plain⟩, ?_⟩
  intro other otherPresent otherPlain same
  have sameAlias : other.aliasText = annotations.aliasText := (String.append_right_inj "AS ").1 same
  have read := split other otherPresent otherPlain
  rw [sameAlias, split annotations present plain] at read
  exact (Option.some.inj read).symm

/-- Names with dots, both quotes and backslashes, and an empty one. -/
theorem splitName?_alias_escaped :
    let annotations : Annotations :=
      ⟨some "say \"it's\".", [⟨some "dl", "ho'st"⟩, ⟨none, "a.b\\c"⟩], ["0", "", "'"], ∅⟩
    annotations.isEmpty = false ∧ annotations.Plain ∧
      ∃ name, annotations.text = "AS " ++ name ∧
        Series.splitName? name =
          some ["0", "", "'", "$dl:ho'st", "$a.b\\c", "say \"it's\"."] := by
  intro annotations
  have plain : annotations.Plain := by
    refine ⟨by decide, by decide, ?_, ?_⟩
    · intro tag member scope within
      rcases List.mem_cons.1 member with rfl | member
      · obtain rfl := Option.some.inj within
        change ∀ c ∈ ['d', 'l'], c ∉ ['\'', '"', '\\', '.']
        rw [List.forall_mem_cons, List.forall_mem_singleton]
        exact ⟨by decide, by decide⟩
      · obtain rfl := List.mem_singleton.1 member
        cases within
    · intro label labeled
      obtain rfl := Option.some.inj labeled
      exact ⟨rfl, rfl⟩
  exact ⟨rfl, plain, (splitName?_alias annotations rfl plain).1⟩

end Annotations

/-! ## Names that are taken for quoted ones -/

theorem Series.exists_splitName?_eq_single_iff {text : String} :
    (∃ name, splitName? text = some [name]) ↔ IsSection text := by
  constructor
  · rintro ⟨name, split⟩
    obtain ⟨sections, read, same⟩ := Option.map_eq_some_iff.1 split
    obtain ⟨own, rfl, rfl⟩ := List.map_eq_singleton_iff.1 same
    exact ⟨own, sectionsWithin?_eq_single_iff.1 read⟩
  · rintro ⟨name, written⟩
    refine ⟨String.ofList name, ?_⟩
    rw [splitName?, sectionsWithin?_eq_single_iff.2 written]
    rfl

/-- A name that is no reference is one section, unless it is taken for a quoted one
and is none. -/
theorem isSection_writeSection_iff {name : String}
    (notReference : isReference name.toList = false) :
    Series.IsSection (writeSection name) ↔
      (isQuoted name.toList = true → Series.IsSection name) := by
  cases taken : isQuoted name.toList with
  | true =>
    have same : writeSection name = name := by simp [writeSection, taken]
    rw [same]
    exact ⟨fun written _ => written, fun written => written rfl⟩
  | false =>
    have spelled : Spells (writeSection name) name := spells_writeSection ⟨notReference, taken⟩
    exact ⟨fun _ impossible => absurd impossible Bool.false_ne_true, fun _ => ⟨_, spelled⟩⟩

namespace Annotations

theorem aliasText_labeled (label : String) :
    (labeled label).aliasText = writeSection label := by
  simp [aliasText, sections, labeled, empty]

/-- A label that is no reference is one section of its alias exactly if it is not taken
for a quoted name, or is written as one section by itself. Where this holds of all
leading sections and of the label, the alias is split into as many sections. -/
theorem splitName?_labeled (annotations : Annotations) (label : String)
    (labeled : annotations.label = some label) (untagged : annotations.tags = [])
    (named : ∀ name ∈ label :: annotations.lead, isReference name.toList = false) :
    ((∃ name, Series.splitName? (Annotations.labeled label).aliasText = some [name]) ↔
      (isQuoted label.toList = true → Series.IsSection label)) ∧
    ((∀ name ∈ label :: annotations.lead, isQuoted name.toList = true → Series.IsSection name) →
      ∃ names, Series.splitName? annotations.aliasText = some names ∧
        names.length = annotations.lead.length + 1) := by
  constructor
  · rw [Series.exists_splitName?_eq_single_iff, aliasText_labeled]
    exact isSection_writeSection_iff (named label List.mem_cons_self)
  · intro closed
    have sections : annotations.sections =
        (annotations.lead ++ [label]).map writeSection := by
      simp [Annotations.sections, labeled, untagged]
    have each : ∀ text ∈ annotations.sections, ∃ name, Spells text name := by
      rw [sections, List.forall_mem_map]
      intro name member
      have listed : name ∈ label :: annotations.lead :=
        (List.perm_append_singleton label annotations.lead).mem_iff.1 member
      obtain ⟨own, written⟩ :=
        (isSection_writeSection_iff (named name listed)).2 (closed name listed)
      exact ⟨String.ofList own, by rwa [Spells, String.toList_ofList]⟩
    choose! own spelled using each
    have all : List.Forall₂ Spells annotations.sections (annotations.sections.map own) := by
      rw [List.forall₂_map_right_iff, List.forall₂_same]
      exact spelled
    have count : (annotations.sections.map own).length = annotations.lead.length + 1 := by
      simp [sections]
    refine ⟨_, Series.splitName?_spelled all ?_, count⟩
    exact List.ne_nil_of_length_eq_add_one count

/-- A label of two quoted pieces without a dot between them, and a leading section that
holds an escaped quote. -/
theorem splitName?_labeled_pieces :
    let annotations : Annotations := ⟨some "'it''s'", [], ["0", "'a\\'.b'"], ∅⟩
    (∀ name ∈ "'it''s'" :: annotations.lead, isReference name.toList = false) ∧
      (∀ name ∈ "'it''s'" :: annotations.lead,
        isQuoted name.toList = true → Series.IsSection name) ∧
      annotations.aliasText = "'0'.'a\\'.b'.'it''s'" ∧
      (∃ name, Series.splitName? (Annotations.labeled "'it''s'").aliasText = some [name]) ∧
      ∃ names, Series.splitName? annotations.aliasText = some names ∧ names.length = 3 := by
  intro annotations
  have named : ∀ name ∈ "'it''s'" :: annotations.lead, isReference name.toList = false := by
    decide
  have label : Series.IsSection "'it''s'" :=
    Series.exists_splitName?_eq_single_iff.1 ⟨"its", by decide +kernel⟩
  have lead : Series.IsSection "'a\\'.b'" :=
    Series.exists_splitName?_eq_single_iff.1 ⟨"a'.b", by decide +kernel⟩
  have closed : ∀ name ∈ "'it''s'" :: annotations.lead,
      isQuoted name.toList = true → Series.IsSection name := by
    have index : isQuoted "0".toList = true → Series.IsSection "0" :=
      fun impossible => absurd impossible (by decide)
    change ∀ name ∈ ["'it''s'", "0", "'a\\'.b'"], _
    simp only [List.forall_mem_cons]
    exact ⟨fun _ => label, index, fun _ => lead, by simp⟩
  obtain ⟨alone, together⟩ := splitName?_labeled annotations "'it''s'" rfl rfl named
  exact ⟨named, closed, by decide +kernel, alone.2 fun _ => label, together closed⟩

/-- A label between two single quotes may be two sections, or none that can be split. -/
theorem splitName?_labeled_broken :
    isReference "'a'.'b'".toList = false ∧
      Series.splitName? (labeled "'a'.'b'").aliasText = some ["a", "b"] ∧
      isReference "'\\'".toList = false ∧
      Series.splitName? (labeled "'\\'").aliasText = none := by
  decide +kernel

end Annotations

end MetricQuery
