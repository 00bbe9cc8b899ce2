import MetricQuery.Proofs.Digits
import MetricQuery.Text.Character

/-!
# Trimmed texts

What is left of a text without the blanks at its ends: the text is blanks, what is
left, and blanks again, and what is left neither starts nor ends with a blank.
-/

set_option autoImplicit false

namespace MetricQuery.Text

theorem isBlank_of_isDigit {c : Char} (digit : c.isDigit = true) : isBlank c = false := by
  have bounds := isDigit_iff.1 digit
  simp only [isBlank, Bool.or_eq_false_iff, Bool.and_eq_false_iff, decide_eq_false_iff_not,
    beq_eq_false_iff_ne]
  omega

structure IsTrimmed (text : List Char) : Prop where
  first : ∀ c ∈ text.head?, isBlank c = false
  last : ∀ c ∈ text.getLast?, isBlank c = false

structure TrimsTo (text rest : List Char) (front back : List Char) : Prop where
  cut : text = front ++ rest ++ back
  front : ∀ c ∈ front, isBlank c = true
  back : ∀ c ∈ back, isBlank c = true
  trimmed : IsTrimmed rest

theorem dropBlanks_append {front : List Char} (blank : ∀ c ∈ front, isBlank c = true)
    (rest : List Char) : dropBlanks (front ++ rest) = dropBlanks rest :=
  List.dropWhile_append_of_pos blank

theorem dropBlanks_of_head {text : List Char} (first : ∀ c ∈ text.head?, isBlank c = false) :
    dropBlanks text = text := by
  cases text with
  | nil => rfl
  | cons c rest =>
    have notBlank : isBlank c = false := first c rfl
    simp [dropBlanks, notBlank]

theorem head_dropBlanks (text : List Char) :
    ∀ c ∈ (dropBlanks text).head?, isBlank c = false := by
  intro c found
  have stops := List.head?_dropWhile_not isBlank text
  unfold dropBlanks at found
  rw [Option.mem_def.1 found] at stops
  exact stops

/-- A text is the blanks at its beginning and what is behind them. -/
theorem exists_front (text : List Char) :
    ∃ front, text = front ++ dropBlanks text ∧ ∀ c ∈ front, isBlank c = true :=
  ⟨text.takeWhile isBlank, List.takeWhile_append_dropWhile.symm,
    fun c member => List.all_eq_true.1 List.all_takeWhile c member⟩

theorem TrimsTo.trim_eq {text rest front back : List Char} (trims : TrimsTo text rest front back) :
    trim text = rest := by
  rw [trims.cut, trim, List.append_assoc, dropBlanks_append trims.front]
  cases rest with
  | nil =>
    have none : dropBlanks back = [] := by
      have all := dropBlanks_append trims.back []
      rwa [List.append_nil] at all
    rw [List.nil_append, none]
    rfl
  | cons c others =>
    have whole : dropBlanks (c :: others ++ back) = c :: others ++ back :=
      dropBlanks_of_head trims.trimmed.first
    have blank : ∀ c ∈ back.reverse, isBlank c = true :=
      fun c member => trims.back c (List.mem_reverse.1 member)
    have last : ∀ d ∈ (c :: others).reverse.head?, isBlank d = false := by
      rw [List.head?_reverse]
      exact trims.trimmed.last
    rw [whole, List.reverse_append, dropBlanks_append blank, dropBlanks_of_head last,
      List.reverse_reverse]

theorem exists_trimsTo (text : List Char) : ∃ front back, TrimsTo text (trim text) front back := by
  obtain ⟨front, cut, blank⟩ := exists_front text
  obtain ⟨back, cutBack, blankBack⟩ := exists_front (dropBlanks text).reverse
  have split : dropBlanks text = trim text ++ back.reverse := by
    rw [trim, ← List.reverse_append, ← cutBack, List.reverse_reverse]
  refine ⟨front, back.reverse, ?_, blank, ?_, ?_, ?_⟩
  · rw [List.append_assoc, ← split]
    exact cut
  · exact fun c member => blankBack c (List.mem_reverse.1 member)
  · intro c found
    refine head_dropBlanks text c ?_
    rw [split, List.head?_append, Option.mem_def.1 found]
    rfl
  · rw [trim, List.getLast?_reverse]
    exact head_dropBlanks _

/-- What is left of a text is the only part of this kind. -/
theorem trim_eq_iff {text rest : List Char} :
    trim text = rest ↔ ∃ front back, TrimsTo text rest front back := by
  constructor
  · rintro rfl
    exact exists_trimsTo text
  · rintro ⟨front, back, trims⟩
    exact trims.trim_eq

theorem IsTrimmed.trim_eq {text : List Char} (trimmed : IsTrimmed text) : trim text = text :=
  trim_eq_iff.2 ⟨[], [], (List.append_nil _).symm, by simp, by simp, trimmed⟩

end MetricQuery.Text
