import Mathlib.Data.List.TakeDrop
import Mathlib.Data.List.TakeWhile
import MetricQuery.Command.Run
import MetricQuery.Proofs.Lookups
import MetricQuery.Proofs.Results

/-!
# Values of options

The values of options are cut at marks: functions from their arguments, arguments and
segments of a metric from one another, and names of variables from their values. Joined
with the marks again, the pieces are what was cut.
-/

set_option autoImplicit false

namespace MetricQuery.Command

variable {mark : Char} {text : String}

/-! ## Cut at the first mark -/

theorem span_append_cons {front : List Char} (apart : mark ∉ front) (back : List Char) :
    (front ++ mark :: back).span (· != mark) = (front, mark :: back) := by
  have before : ∀ c ∈ front, (c != mark) = true := fun c member =>
    bne_iff_ne.2 fun same => apart (same ▸ member)
  rw [List.span_eq_takeWhile_dropWhile, List.takeWhile_append_of_pos before,
    List.dropWhile_append_of_pos before]
  simp

theorem cutAt_append {front : String} (apart : mark ∉ front.toList) (back : String) :
    cutAt mark (front ++ String.singleton mark ++ back) = (front, some back) := by
  have whole : (front ++ String.singleton mark ++ back).toList =
      front.toList ++ mark :: back.toList := by
    simp
  rw [cutAt, whole, span_append_cons apart]
  simp only [String.ofList_toList]

theorem cutAt_of_not_mem (apart : mark ∉ text.toList) : cutAt mark text = (text, none) := by
  have whole : ∀ c ∈ text.toList, (c != mark) = true := fun c member =>
    bne_iff_ne.2 fun same => apart (same ▸ member)
  have cut : text.toList.span (· != mark) = (text.toList, []) := by
    rw [List.span_eq_takeWhile_dropWhile, List.takeWhile_eq_self_iff.2 whole,
      List.dropWhile_eq_nil_iff.2 whole]
  rw [cutAt, cut]
  simp only [String.ofList_toList]

/-- A text has no mark, or it is cut at the first one. -/
theorem cutAt_cases (mark : Char) (text : String) :
    (mark ∉ text.toList ∧ cutAt mark text = (text, none)) ∨
      ∃ front back, mark ∉ front.toList ∧ text = front ++ String.singleton mark ++ back ∧
        cutAt mark text = (front, some back) := by
  by_cases present : mark ∈ text.toList
  · obtain ⟨front, back, whole, apart⟩ := List.eq_append_cons_of_mem present
    have same : text = String.ofList front ++ String.singleton mark ++ String.ofList back :=
      String.toList_injective (by simpa using whole)
    have before : mark ∉ (String.ofList front).toList := by simpa using apart
    exact .inr ⟨_, _, before, same, same ▸ cutAt_append before _⟩
  · exact .inl ⟨present, cutAt_of_not_mem present⟩

theorem cutAt_eq_some_iff {front back : String} :
    cutAt mark text = (front, some back) ↔
      mark ∉ front.toList ∧ text = front ++ String.singleton mark ++ back := by
  constructor
  · intro cut
    rcases cutAt_cases mark text with ⟨_, whole⟩ | ⟨_, _, apart, same, found⟩
    · cases whole.symm.trans cut
    · cases found.symm.trans cut
      exact ⟨apart, same⟩
  · rintro ⟨apart, rfl⟩
    exact cutAt_append apart back

/-! ## Cut at every mark -/

structure Splits (mark : Char) (text : String) (pieces : List String) : Prop where
  present : pieces ≠ []
  apart : ∀ piece ∈ pieces, mark ∉ piece.toList
  joined : (String.singleton mark).intercalate pieces = text

theorem splitAt_eq_splitOn (mark : Char) (text : List Char) :
    splitAt mark text = text.splitOn mark := by
  induction text with
  | nil => rfl
  | cons c rest ih =>
    rw [List.splitOn_cons_eq_if_modifyHead, splitAt, ih]
    by_cases same : c = mark
    · simp [same]
    · rw [if_neg same, if_neg (by simpa using same)]
      cases pieces : rest.splitOn mark with
      | nil => exact absurd pieces (List.splitOn_ne_nil mark rest)
      | cons piece pieces => rfl

theorem not_mem_of_mem_splitAt {piece text : List Char} (member : piece ∈ splitAt mark text) :
    mark ∉ piece := by
  induction text generalizing piece with
  | nil =>
    obtain rfl := List.mem_singleton.1 member
    exact List.not_mem_nil
  | cons c rest ih =>
    rw [splitAt] at member
    by_cases same : c = mark
    · rw [if_pos same] at member
      rcases List.mem_cons.1 member with rfl | later
      · exact List.not_mem_nil
      · exact ih later
    · rw [if_neg same] at member
      cases pieces : splitAt mark rest with
      | nil =>
        rw [pieces] at member
        obtain rfl := List.mem_singleton.1 member
        simpa using Ne.symm same
      | cons first others =>
        rw [pieces] at member ih
        rcases List.mem_cons.1 member with rfl | later
        · have after := ih List.mem_cons_self
          simp [Ne.symm same, after]
        · exact ih (List.mem_cons_of_mem _ later)

/-- The pieces of a text are the only ones that are apart and joined to it. -/
theorem splits_iff {list : List String} : Splits mark text list ↔ pieces mark text = list := by
  constructor
  · rintro ⟨present, apart, rfl⟩
    have lists : splitAt mark ((String.singleton mark).intercalate list).toList =
        list.map String.toList := by
      rw [splitAt_eq_splitOn, String.toList_intercalate, String.toList_singleton]
      refine List.splitOn_intercalate mark ?_ (by simpa using present)
      exact List.forall_mem_map.2 apart
    rw [pieces, lists, List.map_map]
    exact (List.map_congr_left fun piece _ => String.ofList_toList).trans (List.map_id list)
  · rintro rfl
    have lists : (pieces mark text).map String.toList = splitAt mark text.toList := by
      rw [pieces, List.map_map]
      exact (List.map_congr_left fun piece _ => String.toList_ofList).trans (List.map_id _)
    refine ⟨?_, ?_, ?_⟩
    · rw [pieces, splitAt_eq_splitOn]
      exact fun none => List.splitOn_ne_nil mark text.toList (List.map_eq_nil_iff.1 none)
    · intro piece member
      have inside : piece.toList ∈ splitAt mark text.toList := lists ▸ List.mem_map_of_mem member
      exact not_mem_of_mem_splitAt inside
    · apply String.toList_injective
      rw [String.toList_intercalate, lists, splitAt_eq_splitOn, String.toList_singleton]
      exact List.intercalate_splitOn mark

/-! ## Metrics -/

inductive Names (text : String) : Metric → Prop
  | all : text.toList.map Char.toLower = ['a', 'l', 'l'] → Names text .all
  | path {segments : List String} : text.toList.map Char.toLower ≠ ['a', 'l', 'l'] →
    Splits '.' text segments → Names text (.path segments)

def metricNamed (text : String) : Metric :=
  if Metric.sameWord text Metric.allWord then .all else .path (pieces '.' text)

theorem sameWord_allWord_iff :
    Metric.sameWord text Metric.allWord = true ↔ text.toList.map Char.toLower = ['a', 'l', 'l'] :=
  beq_iff_eq

theorem names_metricNamed (text : String) : Names text (metricNamed text) := by
  unfold metricNamed
  by_cases all : Metric.sameWord text Metric.allWord = true
  · rw [if_pos all]
    exact .all (sameWord_allWord_iff.1 all)
  · rw [if_neg all]
    exact .path (fun word => all (sameWord_allWord_iff.2 word)) (splits_iff.2 rfl)

theorem make_metricOf (collection text : String) :
    Selector.make collection (metricOf text) =
      .ok ⟨collection, metricNamed text, none, none⟩ := by
  unfold metricOf metricNamed
  by_cases all : Metric.sameWord text Metric.allWord = true
  · rw [if_pos all, if_pos all]
    rfl
  · rw [if_neg all, if_neg all, Selector.make, MetricForm.resolve]
    cases segments : pieces '.' text with
    | nil => exact absurd segments (splits_iff.2 rfl : Splits '.' text (pieces '.' text)).present
    | cons first others => rfl

/-! ## Variables -/

/-- A text binds a name to what stands behind its first equals sign. -/
def Binds (binding name value : String) : Prop :=
  '=' ∉ name.toList ∧ binding = name ++ "=" ++ value

def boundIn (binding : String) : Except RunError (String × String) :=
  match cutAt '=' binding with
  | (name, some value) => .ok (name, value)
  | (_, none) => .error (.invalidBinding binding)

theorem boundIn_eq_ok_iff {binding name value : String} :
    boundIn binding = .ok (name, value) ↔ Binds binding name value := by
  have cut_iff : cutAt '=' binding = (name, some value) ↔ Binds binding name value :=
    cutAt_eq_some_iff
  rw [← cut_iff, boundIn]
  rcases cutAt_cases '=' binding with ⟨_, cut⟩ | ⟨_, _, _, _, cut⟩
  · simp [cut]
  · simp [cut]

/-- The last entry of a name comes from the last text that binds it. -/
theorem last_binding {bindings : List String} {entries : List (String × String)}
    {name value : String}
    (bound : List.Forall₂ (fun binding entry => boundIn binding = .ok entry) bindings entries)
    (found : entries.reverse.lookup name = some value) :
    ∃ before binding after, bindings = before ++ binding :: after ∧ Binds binding name value ∧
      ∀ later ∈ after, ∀ other, ¬Binds later name other := by
  induction bound with
  | nil => cases found
  | @cons binding entry bindings entries head bound ih =>
    rw [List.reverse_cons, List.lookup_append] at found
    cases rest : entries.reverse.lookup name with
    | some held =>
      rw [rest] at found
      cases found
      obtain ⟨before, last, after, rfl, binds, unbound⟩ := ih rest
      exact ⟨binding :: before, last, after, rfl, binds, unbound⟩
    | none =>
      rw [rest] at found
      obtain ⟨held, text⟩ := entry
      rw [Option.none_or, lookup_entry] at found
      by_cases same : name = held
      · rw [if_pos same] at found
        cases found
        subst same
        refine ⟨[], binding, bindings, rfl, boundIn_eq_ok_iff.1 head, ?_⟩
        intro later member other binds
        obtain ⟨entry, inside, made⟩ := forall₂_left bound later member
        cases made.symm.trans (boundIn_eq_ok_iff.2 binds)
        have missing := List.lookup_eq_none_iff.1 rest _ (List.mem_reverse.2 inside)
        simp at missing
      · rw [if_neg same] at found
        cases found

/-! ## Functions -/

def application (text : String) : String × List Argument :=
  match cutAt ':' text with
  | (function, some arguments) => (function, (pieces ',' arguments).map Argument.ofText)
  | (function, none) => (function, [])

theorem applySpec_eq (selection : Selection) (text : String) :
    applySpec selection text =
      selection.apply (application text).1 (application text).2 := by
  rw [applySpec, application]
  rcases cutAt_cases ':' text with ⟨_, cut⟩ | ⟨_, _, _, _, cut⟩
  · rw [cut]
  · rw [cut]

/-- The text that a function takes for an argument: behind a dollar sign what the name was
last bound to, otherwise the argument as it stands. -/
inductive Means (bindings : List String) (argument : String) : String → Prop
  | plain : (∀ name, argument ≠ "$" ++ name) → Means bindings argument argument
  | bound {name value binding : String} {before after : List String} :
    argument = "$" ++ name → bindings = before ++ binding :: after → Binds binding name value →
      (∀ later ∈ after, ∀ other, ¬Binds later name other) → Means bindings argument value

inductive Applies (bindings : List String) (text : String) : String × List String → Prop
  | alone : ':' ∉ text.toList → Applies bindings text (text, [])
  | behind {function given : String} {arguments texts : List String} :
    ':' ∉ function.toList → text = function ++ ":" ++ given → Splits ',' given arguments →
      List.Forall₂ (Means bindings) arguments texts → Applies bindings text (function, texts)

def argumentText (entries : List (String × String)) (argument : String) :
    Except QueryError String :=
  match argument.toList with
  | '$' :: name =>
    match entries.reverse.lookup (String.ofList name) with
    | none => .error (.undeclaredVariable (String.ofList name))
    | some value => .ok value
  | _ => .ok argument

def callOf (entries : List (String × String)) (text : String) :
    Except QueryError (String × List String) :=
  match cutAt ':' text with
  | (function, some arguments) =>
    ((pieces ',' arguments).mapM (argumentText entries)).map (function, ·)
  | (function, none) => .ok (function, [])

section Calls

variable {entries : List (String × String)} {argument : String}

theorem ofText_reference (name : String) : Argument.ofText ("$" ++ name) = .reference name := by
  have cut : ("$" ++ name).toList = '$' :: name.toList := by simp
  simp [Argument.ofText, cut]

theorem argumentText_reference (entries : List (String × String)) (name : String) :
    argumentText entries ("$" ++ name) =
      (entries.reverse.lookup name).elim (.error (.undeclaredVariable name)) .ok := by
  have cut : ("$" ++ name).toList = '$' :: name.toList := by simp
  simp only [argumentText, cut, String.ofList_toList]
  cases entries.reverse.lookup name <;> rfl

/-- What does not begin with a dollar sign stands for itself. -/
theorem ofText_plain (plain : ∀ name, argument ≠ "$" ++ name) :
    Argument.ofText argument = .value (.text argument) ∧
      argumentText entries argument = .ok argument := by
  cases cut : argument.toList with
  | nil => simp [Argument.ofText, argumentText, cut]
  | cons c rest =>
    have other : c ≠ '$' := by
      rintro rfl
      refine plain (String.ofList rest) (String.toList_injective ?_)
      simp [cut]
    simp [Argument.ofText, argumentText, cut, other]

theorem means_of_argumentText {bindings : List String}
    (bound : List.Forall₂ (fun binding entry => boundIn binding = .ok entry) bindings entries)
    {text : String} (made : argumentText entries argument = .ok text) :
    Means bindings argument text := by
  by_cases plain : ∀ name, argument ≠ "$" ++ name
  · rw [(ofText_plain plain).2] at made
    cases made
    exact .plain plain
  · obtain ⟨name, rfl⟩ := not_forall_not.1 plain
    rw [argumentText_reference] at made
    cases found : entries.reverse.lookup name with
    | none => simp [found] at made
    | some value =>
      rw [found] at made
      cases made
      obtain ⟨before, binding, after, split, binds, unbound⟩ := last_binding bound found
      exact .bound rfl split binds unbound

theorem applies_of_callOf {bindings : List String}
    (bound : List.Forall₂ (fun binding entry => boundIn binding = .ok entry) bindings entries)
    {text : String} {call : String × List String} (made : callOf entries text = .ok call) :
    Applies bindings text call := by
  unfold callOf at made
  rcases cutAt_cases ':' text with ⟨apart, cut⟩ | ⟨function, given, apart, whole, cut⟩
  · rw [cut] at made
    cases made
    exact .alone apart
  · rw [cut] at made
    obtain ⟨texts, success, rfl⟩ := map_eq_ok made
    have arguments := (mapM_eq_ok_iff _ _ _).1 success
    exact .behind apart whole (splits_iff.2 rfl)
      (arguments.imp fun _ _ => means_of_argumentText bound)

end Calls

end MetricQuery.Command
