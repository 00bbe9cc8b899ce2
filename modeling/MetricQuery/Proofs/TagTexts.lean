import Mathlib.Data.List.TakeDrop
import Mathlib.Data.List.TakeWhile
import MetricQuery.Tag

/-!
# Texts of tags

A text can be cut in several ways into a dollar sign, a scope with its colon and a name,
the first two of which may be missing. The dollar sign and the scope are taken wherever
they can be, and then the name is all the rest, which is what the pattern
`^\$?(?:([a-z]*):)?(.*)$` gives when its ways to match are tried in order. A tag is read
back from its key exactly if no other cut of the key is preferred.
-/

set_option autoImplicit false

namespace MetricQuery

namespace Tag

variable {text rest scope name : List Char}

/-! ## The grammar -/

inductive Undollared : List Char → List Char → Prop
  | dollar (rest : List Char) : Undollared ('$' :: rest) rest
  | plain {text : List Char} (free : ∀ rest, text ≠ '$' :: rest) : Undollared text text

def IsScope (scope : List Char) : Prop :=
  ∀ c ∈ scope, isScopeChar c = true

/-- A text that does not start with a scope and its colon. -/
def Unscoped (text : List Char) : Prop :=
  ∀ scope name, IsScope scope → text ≠ scope ++ ':' :: name

/-- A text with its scope, which may be empty, and what stands behind the colon of the
scope. Where there is no scope the whole text stands for the name. -/
inductive Cut : List Char → List Char → List Char → Prop
  | colon {scope : List Char} (letters : IsScope scope) (name : List Char) :
      Cut (scope ++ ':' :: name) scope name
  | bare {text : List Char} (unscoped : Unscoped text) : Cut text [] text

def Reads (text scope name : List Char) : Prop :=
  ∃ rest, Undollared text rest ∧ Cut rest scope name

theorem undollared_dropDollar (text : List Char) : Undollared text (dropDollar text) := by
  by_cases starts : ∃ rest, text = '$' :: rest
  · obtain ⟨rest, rfl⟩ := starts
    exact .dollar rest
  · have free : ∀ rest, text ≠ '$' :: rest := not_exists.1 starts
    rw [dropDollar.eq_2 text free]
    exact .plain free

theorem Undollared.dropDollar_eq (undollared : Undollared text rest) : dropDollar text = rest := by
  cases undollared with
  | dollar => rfl
  | plain free => exact dropDollar.eq_2 text free

theorem takeWhile_scope (letters : IsScope scope) (name : List Char) :
    (scope ++ ':' :: name).takeWhile isScopeChar = scope := by
  rw [List.takeWhile_append_of_pos letters, List.takeWhile_cons_of_neg (by decide),
    List.append_nil]

theorem dropWhile_scope (letters : IsScope scope) (name : List Char) :
    (scope ++ ':' :: name).dropWhile isScopeChar = ':' :: name := by
  rw [List.dropWhile_append_of_pos letters, List.dropWhile_cons_of_neg (by decide)]

theorem splitScope_scoped (letters : IsScope scope) (name : List Char) :
    splitScope (scope ++ ':' :: name) = (scope, name) := by
  rw [splitScope, List.span_eq_takeWhile_dropWhile, takeWhile_scope letters,
    dropWhile_scope letters]
  rfl

theorem splitScope_bare (unscoped : Unscoped text) : splitScope text = ([], text) := by
  rw [splitScope, List.span_eq_takeWhile_dropWhile]
  split
  case h_1 run behind taken =>
    -- a colon behind the longest run of letters would make the run a scope
    obtain ⟨rfl, left⟩ := Prod.mk.inj taken
    have parts : text = text.takeWhile isScopeChar ++ ':' :: behind := by
      rw [← left, List.takeWhile_append_dropWhile]
    exact absurd parts (unscoped _ behind fun c held => List.mem_takeWhile_imp held)
  case h_2 => rfl

theorem cut_splitScope (text : List Char) : Cut text (splitScope text).1 (splitScope text).2 := by
  by_cases starts : ∃ scope name, IsScope scope ∧ text = scope ++ ':' :: name
  · obtain ⟨scope, name, letters, rfl⟩ := starts
    rw [splitScope_scoped letters]
    exact .colon letters name
  · have unscoped : Unscoped text :=
      fun scope name letters parts => starts ⟨scope, name, letters, parts⟩
    rw [splitScope_bare unscoped]
    exact .bare unscoped

theorem Cut.splitScope_eq (cut : Cut text scope name) : splitScope text = (scope, name) := by
  cases cut with
  | colon letters => exact splitScope_scoped letters name
  | bare unscoped => exact splitScope_bare unscoped

theorem reads_iff : Reads text scope name ↔ splitScope (dropDollar text) = (scope, name) := by
  constructor
  · rintro ⟨rest, undollared, cut⟩
    rw [undollared.dropDollar_eq, cut.splitScope_eq]
  · intro split
    have cut := cut_splitScope (dropDollar text)
    rw [split] at cut
    exact ⟨dropDollar text, undollared_dropDollar text, cut⟩

theorem exists_reads (text : List Char) : ∃ scope name, Reads text scope name :=
  ⟨_, _, reads_iff.2 rfl⟩

/-! ## The ways to match the pattern -/

/-- The ways to take a run of characters off a text, the longest first, each with what it
leaves. -/
def runs (inside : Char → Bool) : List Char → List (List Char × List Char)
  | [] => [([], [])]
  | c :: rest =>
    (if inside c then (runs inside rest).map fun run => (c :: run.1, run.2) else []) ++
      [([], c :: rest)]

/-- What may be left by `\$?`. -/
def pastDollar : List Char → List (List Char)
  | '$' :: rest => [rest, '$' :: rest]
  | text => [text]

def pastColon : List Char × List Char → Option (List Char × List Char)
  | (run, ':' :: rest) => some (run, rest)
  | _ => none

/-- What may be caught and left by `(?:([a-z]*):)?`; nothing is caught where it is left out. -/
def pastScope (text : List Char) : List (List Char × List Char) :=
  (runs isScopeChar text).filterMap pastColon ++ [([], text)]

/-- What may be caught by `(.*)$`. -/
def wholeNames (text : List Char) : List (List Char) :=
  ((runs (· != '\n') text).filter (·.2.isEmpty)).map Prod.fst

/-- The scopes and names that `^\$?(?:([a-z]*):)?(.*)$` catches in a text, in the order in
which its ways to match are tried. -/
def readings (text : List Char) : List (List Char × List Char) :=
  (pastDollar text).flatMap fun rest =>
    (pastScope rest).flatMap fun cut => (wholeNames cut.2).map fun name => (cut.1, name)

theorem eq_append_of_mem_runs {inside : Char → Bool} {run : List Char × List Char}
    (listed : run ∈ runs inside text) :
    text = run.1 ++ run.2 ∧ ∀ c ∈ run.1, inside c = true := by
  induction text generalizing run with
  | nil =>
    rw [runs, List.mem_singleton] at listed
    simp [listed]
  | cons c rest ih =>
    rw [runs, List.mem_append, List.mem_singleton] at listed
    rcases listed with longer | rfl
    · by_cases within : inside c = true
      · rw [if_pos within, List.mem_map] at longer
        obtain ⟨shorter, listed, rfl⟩ := longer
        obtain ⟨parts, all⟩ := ih listed
        exact ⟨congrArg (c :: ·) parts, List.forall_mem_cons.2 ⟨within, all⟩⟩
      · rw [if_neg within] at longer
        exact absurd longer List.not_mem_nil
    · exact ⟨rfl, by simp⟩

/-- The run that is tried first takes all that it can. -/
theorem exists_runs_eq (inside : Char → Bool) (text : List Char) :
    ∃ others, runs inside text = (text.takeWhile inside, text.dropWhile inside) :: others := by
  induction text with
  | nil => exact ⟨[], rfl⟩
  | cons c rest ih =>
    obtain ⟨others, first⟩ := ih
    by_cases within : inside c = true
    · rw [runs, if_pos within, first, List.takeWhile_cons_of_pos within,
        List.dropWhile_cons_of_pos within]
      exact ⟨_, rfl⟩
    · rw [runs, if_neg within, List.takeWhile_cons_of_neg within,
        List.dropWhile_cons_of_neg within]
      exact ⟨[], rfl⟩

theorem Undollared.first (undollared : Undollared text rest) :
    ∃ others, pastDollar text = rest :: others := by
  cases undollared with
  | dollar => exact ⟨_, rfl⟩
  | plain free =>
    rw [pastDollar.eq_2 text free]
    exact ⟨_, rfl⟩

theorem pastColon_eq_some_iff {run cut : List Char × List Char} :
    pastColon run = some cut ↔ run = (cut.1, ':' :: cut.2) := by
  constructor
  · intro found
    unfold pastColon at found
    split at found
    case h_1 taken behind => rw [← Option.some.inj found]
    case h_2 => exact absurd found (by simp)
  · rintro rfl
    rfl

theorem eq_colon_of_mem_filterMap {cut : List Char × List Char}
    (listed : cut ∈ (runs isScopeChar text).filterMap pastColon) :
    IsScope cut.1 ∧ text = cut.1 ++ ':' :: cut.2 := by
  obtain ⟨run, taken, found⟩ := List.mem_filterMap.1 listed
  rw [pastColon_eq_some_iff] at found
  subst found
  obtain ⟨parts, letters⟩ := eq_append_of_mem_runs taken
  exact ⟨letters, parts⟩

theorem Cut.first (cut : Cut text scope name) :
    ∃ others, pastScope text = (scope, name) :: others := by
  cases cut with
  | colon letters =>
    obtain ⟨others, first⟩ := exists_runs_eq isScopeChar (scope ++ ':' :: name)
    rw [pastScope, first, takeWhile_scope letters, dropWhile_scope letters]
    exact ⟨_, rfl⟩
  | bare unscoped =>
    have none : (runs isScopeChar text).filterMap pastColon = [] := by
      rw [List.eq_nil_iff_forall_not_mem]
      intro cut listed
      obtain ⟨letters, parts⟩ := eq_colon_of_mem_filterMap listed
      exact unscoped cut.1 cut.2 letters parts
    rw [pastScope, none]
    exact ⟨_, rfl⟩

theorem first_wholeNames (oneLine : '\n' ∉ text) : ∃ others, wholeNames text = text :: others := by
  have all : ∀ c ∈ text, (c != '\n') = true := fun c held =>
    bne_iff_ne.2 fun same => oneLine (same ▸ held)
  obtain ⟨others, first⟩ := exists_runs_eq (· != '\n') text
  rw [List.takeWhile_eq_self_iff.2 all, List.dropWhile_eq_nil_iff.2 all] at first
  rw [wholeNames, first]
  exact ⟨_, rfl⟩

/-! No way to match gets past a line break. -/

theorem newline_not_mem_of_mem_wholeNames (listed : name ∈ wholeNames text) : '\n' ∉ text := by
  rw [wholeNames, List.mem_map] at listed
  obtain ⟨run, kept, rfl⟩ := listed
  rw [List.mem_filter, List.isEmpty_iff] at kept
  obtain ⟨listed, nothing⟩ := kept
  obtain ⟨parts, all⟩ := eq_append_of_mem_runs listed
  rw [nothing, List.append_nil] at parts
  rw [parts]
  exact fun held => bne_iff_ne.1 (all _ held) rfl

theorem newline_mem_iff_of_mem_pastDollar (listed : rest ∈ pastDollar text) :
    '\n' ∈ text ↔ '\n' ∈ rest := by
  unfold pastDollar at listed
  split at listed
  case h_1 behind =>
    rw [List.mem_cons, List.mem_singleton] at listed
    rcases listed with rfl | rfl
    · rw [List.mem_cons, or_iff_right (by decide)]
    · rfl
  case h_2 =>
    rw [List.mem_singleton.1 listed]

theorem newline_mem_iff_of_mem_pastScope {cut : List Char × List Char}
    (listed : cut ∈ pastScope text) : '\n' ∈ text ↔ '\n' ∈ cut.2 := by
  rw [pastScope, List.mem_append, List.mem_singleton] at listed
  rcases listed with behindColon | rfl
  · obtain ⟨letters, parts⟩ := eq_colon_of_mem_filterMap behindColon
    have outside : '\n' ∉ cut.1 := fun held => absurd (letters _ held) (by decide)
    rw [parts, List.mem_append, or_iff_right outside, List.mem_cons, or_iff_right (by decide)]
  · rfl

theorem newline_not_mem_of_mem_readings {cut : List Char × List Char}
    (listed : cut ∈ readings text) : '\n' ∉ text := by
  rw [readings, List.mem_flatMap] at listed
  obtain ⟨rest, undollared, listed⟩ := listed
  obtain ⟨unscoped, cutOff, listed⟩ := List.mem_flatMap.1 listed
  obtain ⟨name, whole, -⟩ := List.mem_map.1 listed
  rw [newline_mem_iff_of_mem_pastDollar undollared, newline_mem_iff_of_mem_pastScope cutOff]
  exact newline_not_mem_of_mem_wholeNames whole

theorem Reads.newline_mem_iff (reads : Reads text scope name) : '\n' ∈ text ↔ '\n' ∈ name := by
  obtain ⟨rest, undollared, cut⟩ := reads
  obtain ⟨others, dollars⟩ := undollared.first
  obtain ⟨cuts, scopes⟩ := cut.first
  rw [newline_mem_iff_of_mem_pastDollar (dollars ▸ List.mem_cons_self),
    newline_mem_iff_of_mem_pastScope (scopes ▸ List.mem_cons_self)]

/-- The scope and the name of a text are what the pattern catches in it. -/
theorem Reads.head?_readings (reads : Reads text scope name) :
    (readings text).head? = if '\n' ∈ name then none else some (scope, name) := by
  by_cases broken : '\n' ∈ name
  · have unmatched : readings text = [] :=
      List.eq_nil_iff_forall_not_mem.2 fun cut listed =>
        newline_not_mem_of_mem_readings listed (reads.newline_mem_iff.2 broken)
    rw [if_pos broken, unmatched, List.head?_nil]
  · obtain ⟨rest, undollared, cut⟩ := reads
    obtain ⟨_, dollars⟩ := undollared.first
    obtain ⟨_, scopes⟩ := cut.first
    obtain ⟨_, names⟩ := first_wholeNames broken
    rw [if_neg broken, readings, dollars, List.flatMap_cons, scopes, List.flatMap_cons, names]
    rfl

example : readings ['a', ':', 'b'] = [(['a'], ['b']), ([], ['a', ':', 'b'])] := by decide

/-! ## Parsing -/

def scopeOf (scope : List Char) : Option String :=
  if scope = [] then none else some (String.ofList scope)

theorem scopeOf_eq_iff {written : List Char} {scope : Option String} :
    scopeOf written = scope ↔ scope ≠ some "" ∧ written = (scope.getD "").toList := by
  rw [scopeOf]
  by_cases nothing : written = []
  · rw [if_pos nothing, nothing]
    cases scope with
    | none => simp
    | some scope =>
      exact iff_of_false (by simp) fun ⟨nonempty, empty⟩ =>
        nonempty (congrArg some (String.toList_eq_nil_iff.1 empty.symm))
  · rw [if_neg nothing]
    cases scope with
    | none => simp [nothing]
    | some scope =>
      rw [Option.some_inj, Option.getD_some, ← String.toList_inj, String.toList_ofList]
      refine ⟨fun same => ⟨fun empty => nothing ?_, same⟩, And.right⟩
      rw [same, Option.some.inj empty, String.toList_empty]

theorem Reads.parse_eq {text : String} (reads : Reads text.toList scope name) :
    parse text = if name = [] ∨ '\n' ∈ name then .error (.invalidTag text)
      else .ok ⟨scopeOf scope, String.ofList name⟩ := by
  have refused : ((name.isEmpty || name.contains '\n') = true) ↔ name = [] ∨ '\n' ∈ name := by
    rw [Bool.or_eq_true, List.isEmpty_iff, List.contains_iff_mem]
  have scopeless : some (String.ofList scope) = some "" ↔ scope = [] := by
    rw [Option.some_inj, ← String.ofList_nil, String.ofList_inj]
  rw [parse, reads_iff.1 reads]
  dsimp only [ofPair]
  rw [if_congr refused rfl rfl, if_congr scopeless rfl rfl, scopeOf]

/-- A text denotes a tag exactly if its scope and its name are those of the tag. -/
theorem parse_eq_ok_iff {text : String} {tag : Tag} :
    parse text = .ok tag ↔ tag.scope ≠ some "" ∧ tag.name ≠ "" ∧ '\n' ∉ tag.name.toList ∧
      Reads text.toList (tag.scope.getD "").toList tag.name.toList := by
  constructor
  · intro denoted
    obtain ⟨scope, name, reads⟩ := exists_reads text.toList
    rw [reads.parse_eq] at denoted
    by_cases refused : name = [] ∨ '\n' ∈ name
    · rw [if_pos refused] at denoted
      exact absurd denoted (by simp)
    · rw [if_neg refused] at denoted
      obtain ⟨named, oneLine⟩ := not_or.1 refused
      have parts := Except.ok.inj denoted
      obtain ⟨nonempty, rfl⟩ := scopeOf_eq_iff.1 (congrArg Tag.scope parts)
      obtain rfl : name = tag.name.toList := by
        rw [← congrArg Tag.name parts, String.toList_ofList]
      exact ⟨nonempty, fun empty => named (String.toList_eq_nil_iff.2 empty), oneLine, reads⟩
  · rintro ⟨nonempty, named, oneLine, reads⟩
    have called : tag.name.toList ≠ [] := fun empty => named (String.toList_eq_nil_iff.1 empty)
    rw [reads.parse_eq, if_neg (not_or.2 ⟨called, oneLine⟩), scopeOf_eq_iff.2 ⟨nonempty, rfl⟩,
      String.ofList_toList]

/-! ## Keys -/

/-- A tag whose key is cut into its parts: the name is not empty and has no line break,
and there is either a scope of small Latin letters, at least one, or none and a name that
does not start with what would be its scope. -/
structure Separable (tag : Tag) : Prop where
  named : tag.name ≠ ""
  oneLine : '\n' ∉ tag.name.toList
  letters : ∀ scope, tag.scope = some scope → scope ≠ "" ∧ IsScope scope.toList
  bare : tag.scope = none → Unscoped tag.name.toList

structure Faithful (tag : Tag) : Prop extends Separable tag where
  undollared : tag.scope = none → ∀ rest, tag.name.toList ≠ '$' :: rest

theorem key_scopeless (name : String) : key ⟨none, name⟩ = name :=
  rfl

theorem toList_key_scope (scope name : String) :
    (key ⟨some scope, name⟩).toList = scope.toList ++ ':' :: name.toList := by
  simp [key]

theorem undollared_scope (letters : IsScope scope) (name : List Char) :
    Undollared (scope ++ ':' :: name) (scope ++ ':' :: name) := by
  refine .plain fun rest starts => ?_
  cases scope with
  | nil => exact absurd (List.cons.inj starts).1 (by decide)
  | cons c others =>
    obtain ⟨dollar, -⟩ := List.cons.inj starts
    exact absurd (letters c List.mem_cons_self) (dollar ▸ by decide)

theorem Cut.isScope (cut : Cut text scope name) : IsScope scope := by
  cases cut with
  | colon letters => exact letters
  | bare => exact List.forall_mem_nil _

theorem cut_self_iff : Cut text [] text ↔ Unscoped text := by
  constructor
  · intro cut
    cases cut with
    | bare unscoped => exact unscoped
  · exact .bare

/-- A text that is its own name. -/
theorem reads_self_iff : Reads text [] text ↔ Cut text [] text ∧ ∀ rest, text ≠ '$' :: rest := by
  constructor
  · rintro ⟨rest, undollared, cut⟩
    cases cut with
    | colon => cases undollared
    | bare unscoped =>
      cases undollared with
      | plain free => exact ⟨.bare unscoped, free⟩
  · exact fun ⟨cut, free⟩ => ⟨text, .plain free, cut⟩

/-- A text with a scope has no dollar sign to drop. -/
theorem reads_iff_cut_of_colon :
    Reads (scope ++ ':' :: rest) scope name ↔ Cut (scope ++ ':' :: rest) scope name := by
  constructor
  · rintro ⟨left, undollared, cut⟩
    have same := (undollared_scope cut.isScope rest).dropDollar_eq
    rw [undollared.dropDollar_eq] at same
    exact same ▸ cut
  · exact fun cut => ⟨_, undollared_scope cut.isScope rest, cut⟩

theorem reads_dollar_iff : Reads ('$' :: text) scope name ↔ Cut text scope name := by
  constructor
  · rintro ⟨rest, undollared, cut⟩
    obtain rfl : text = rest := undollared.dropDollar_eq
    exact cut
  · exact fun cut => ⟨text, .dollar text, cut⟩

theorem separable_iff {tag : Tag} :
    tag.Separable ↔ tag.scope ≠ some "" ∧ tag.name ≠ "" ∧ '\n' ∉ tag.name.toList ∧
      Cut tag.key.toList (tag.scope.getD "").toList tag.name.toList := by
  obtain ⟨_ | scope, name⟩ := tag
  · rw [key_scopeless]
    show _ ↔ _ ∧ _ ∧ _ ∧ Cut name.toList [] name.toList
    rw [cut_self_iff]
    exact ⟨fun separable => ⟨by simp, separable.named, separable.oneLine, separable.bare rfl⟩,
      fun ⟨_, named, oneLine, bare⟩ => ⟨named, oneLine, by simp, fun _ => bare⟩⟩
  · rw [toList_key_scope]
    constructor
    · intro separable
      obtain ⟨nonempty, letters⟩ := separable.letters scope rfl
      exact ⟨fun empty => nonempty (Option.some.inj empty), separable.named, separable.oneLine,
        .colon letters name.toList⟩
    · rintro ⟨nonempty, named, oneLine, cut⟩
      refine ⟨named, oneLine, fun given held => ?_, by simp⟩
      obtain rfl := Option.some.inj held
      exact ⟨fun empty => nonempty (congrArg some empty), cut.isScope⟩

theorem reads_key_iff {tag : Tag} :
    Reads tag.key.toList (tag.scope.getD "").toList tag.name.toList ↔
      Cut tag.key.toList (tag.scope.getD "").toList tag.name.toList ∧
        (tag.scope = none → ∀ rest, tag.name.toList ≠ '$' :: rest) := by
  obtain ⟨_ | scope, name⟩ := tag
  · rw [key_scopeless]
    show Reads name.toList [] name.toList ↔ Cut name.toList [] name.toList ∧ _
    rw [reads_self_iff]
    exact and_congr_right fun _ => ⟨fun free _ => free, fun free => free rfl⟩
  · rw [toList_key_scope]
    show Reads _ scope.toList name.toList ↔ Cut _ scope.toList name.toList ∧ _
    rw [reads_iff_cut_of_colon]
    exact ⟨fun cut => ⟨cut, by simp⟩, And.left⟩

/-- Every text has one scope and one name, which are what the pattern catches in it where
there is no line break in the name. It denotes the tag of the two unless the name is empty
or has a line break. Exactly the separable tags are denoted by their keys behind a dollar
sign, and exactly the faithful ones also by their keys alone. -/
theorem parse_grammar :
    (∀ text : String, ∃ scope name,
      (∀ otherScope otherName, Reads text.toList otherScope otherName ↔
        otherScope = scope ∧ otherName = name) ∧
      (readings text.toList).head? = (if '\n' ∈ name then none else some (scope, name)) ∧
      parse text = if name = [] ∨ '\n' ∈ name then .error (.invalidTag text)
        else .ok ⟨scopeOf scope, String.ofList name⟩) ∧
    ∀ tag : Tag, (parse tag.key = .ok tag ↔ tag.Faithful) ∧
      (parse ("$" ++ tag.key) = .ok tag ↔ tag.Separable) := by
  refine ⟨fun text => ?_, fun tag => ⟨?_, ?_⟩⟩
  · obtain ⟨scope, name, reads⟩ := exists_reads text.toList
    refine ⟨scope, name, fun otherScope otherName => ?_, reads.head?_readings, reads.parse_eq⟩
    rw [reads_iff, reads_iff.1 reads, Prod.mk.injEq]
    exact and_congr eq_comm eq_comm
  · rw [parse_eq_ok_iff, reads_key_iff]
    constructor
    · rintro ⟨nonempty, named, oneLine, cut, undollared⟩
      exact ⟨separable_iff.2 ⟨nonempty, named, oneLine, cut⟩, undollared⟩
    · intro faithful
      obtain ⟨nonempty, named, oneLine, cut⟩ := separable_iff.1 faithful.toSeparable
      exact ⟨nonempty, named, oneLine, cut, faithful.undollared⟩
  · rw [parse_eq_ok_iff, String.toList_append, separable_iff]
    exact and_congr_right' (and_congr_right' (and_congr_right' reads_dollar_iff))

/-- Only the first of two dollar signs is dropped, and a capital letter makes no scope. -/
example : parse "$$x" = .ok ⟨none, "$x"⟩ ∧ parse "A:b" = .ok ⟨none, "A:b"⟩ := by decide +kernel

end Tag

end MetricQuery
