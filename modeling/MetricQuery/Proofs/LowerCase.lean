import MetricQuery.Proofs.Digits
import MetricQuery.Text.Character
import MetricQuery.Text.Lowercase

/-!
# Lower case within ASCII

Which texts have a lower case of ASCII characters only. Characters beyond ASCII stay
beyond it, but for the Kelvin sign, which becomes a `k`. So a text whose lower case is
plain and without `k` is one of ASCII letters in any case.
-/

set_option autoImplicit false

namespace MetricQuery.Text

/-- An ASCII character that no character beyond ASCII has as its lower case. -/
def IsPlainLower (c : Char) : Prop :=
  c.toNat < 0x80 ∧ c ≠ 'k'

instance : DecidablePred IsPlainLower :=
  fun _ => inferInstanceAs (Decidable (_ ∧ _))

theorem toLower_of_beyond {c : Char} (beyond : 0x80 ≤ c.toNat) : c.toLower = c := by
  have other : ¬(c.val ≥ 'A'.val ∧ c.val ≤ 'Z'.val) := by
    rintro ⟨_, high⟩
    have bound : c.toNat ≤ 90 := high
    omega
  exact dif_neg other

/-- ASCII capitals lie 32 code points below their small letters. -/
theorem toLower_cases (c : Char) :
    c.toLower = c ∨ 65 ≤ c.toNat ∧ c.toNat ≤ 90 ∧ c.toLower.toNat = c.toNat + 32 := by
  by_cases capital : c.val ≥ 'A'.val ∧ c.val ≤ 'Z'.val
  · have low : 65 ≤ c.toNat := capital.1
    have high : c.toNat ≤ 90 := capital.2
    have shift : ('a'.val - 'A'.val).toNat = 32 := rfl
    refine Or.inr ⟨low, high, ?_⟩
    have lowered : c.toLower.val = c.val + ('a'.val - 'A'.val) :=
      congrArg Char.val (dif_pos capital)
    change c.toLower.val.toNat = c.val.toNat + 32
    have small : c.val.toNat ≤ 90 := high
    rw [lowered, UInt32.toNat_add, shift, Nat.mod_eq_of_lt (by omega)]
  · exact Or.inl (dif_neg capital)

theorem isBlank_eq_false_of_toLower {c : Char} (visible : isBlank c.toLower = false) :
    isBlank c = false := by
  rcases toLower_cases c with same | ⟨low, high, _⟩
  · rwa [same] at visible
  · simp only [isBlank, Bool.or_eq_false_iff, Bool.and_eq_false_iff, decide_eq_false_iff_not,
      beq_eq_false_iff_ne]
    omega

theorem isDigit_toLower (c : Char) : c.toLower.isDigit = c.isDigit := by
  rcases toLower_cases c with same | ⟨low, high, shift⟩
  · rw [same]
  · rw [Bool.eq_iff_iff, isDigit_iff, isDigit_iff]
    omega

theorem toLower_of_isDigit {c : Char} (digit : c.isDigit = true) : c.toLower = c := by
  have bounds := isDigit_iff.1 digit
  rcases toLower_cases c with same | ⟨low, _, _⟩
  · exact same
  · omega

theorem isPlainLower_of_isDigit {c : Char} (digit : c.isDigit = true) : IsPlainLower c := by
  refine ⟨by have bounds := isDigit_iff.1 digit; omega, ?_⟩
  rintro rfl
  cases digit

theorem caseRuns_beyond :
    ∀ run ∈ caseRuns, run.first = 8490 ∧ run.last = 8490 ∧ run.shift = -8383 ∨
      0x80 ≤ run.first + run.shift ∧ (run.last + run.shift < 0xD800 ∨
        0xE000 ≤ run.first + run.shift ∧ run.last + run.shift < 0x110000) := by
  decide +kernel

theorem toNat_ofNat_of_valid {code : Nat}
    (valid : code < 0xD800 ∨ 0xE000 ≤ code ∧ code < 0x110000) : (Char.ofNat code).toNat = code := by
  have proper : code.isValidChar := by
    unfold Nat.isValidChar
    omega
  rw [Char.ofNat, dif_pos proper]
  rfl

/-- Beyond ASCII only the Kelvin sign becomes an ASCII character. -/
theorem lowerChar_of_beyond {c : Char} (beyond : 0x80 ≤ c.toNat) :
    ¬IsPlainLower (lowerChar c) := by
  rintro ⟨low, other⟩
  unfold lowerChar at low other
  simp only [if_neg (Nat.not_lt.2 beyond)] at low other
  cases found : caseRuns.find? fun run =>
      run.first ≤ c.toNat && c.toNat ≤ run.last && (c.toNat - run.first) % run.step == 0 with
  | none =>
    simp only [found] at low
    omega
  | some run =>
    simp only [found] at low other
    have inside := List.find?_some found
    simp only [Bool.and_eq_true, decide_eq_true_eq] at inside
    rcases caseRuns_beyond run (List.mem_of_find?_eq_some found) with
      ⟨first, last, shift⟩ | ⟨high, valid⟩
    · have kelvin : c.toNat = 8490 := by omega
      exact other (by rw [kelvin, shift]; rfl)
    · have number : Int.ofNat c.toNat = c.toNat := rfl
      have code : (Char.ofNat (Int.ofNat c.toNat + run.shift).toNat).toNat =
          (Int.ofNat c.toNat + run.shift).toNat :=
        toNat_ofNat_of_valid (by omega)
      omega

/-- What the first character of a text becomes, given what stands in front of it and
behind it. -/
def lowerHead (before : List Char) (c : Char) (rest : List Char) : List Char :=
  if c.toNat = 0x130 then ['i', Char.ofNat 0x307]
  else if c.toNat = 0x3A3 then
    if casedAhead before && !casedAhead rest then [Char.ofNat 0x3C2]
    else [Char.ofNat 0x3C3]
  else [lowerChar c]

theorem lowerFrom_cons (before : List Char) (c : Char) (rest : List Char) :
    lowerFrom before (c :: rest) = lowerHead before c rest ++ lowerFrom (c :: before) rest :=
  rfl

theorem lowerHead_of_ascii {c : Char} (low : c.toNat < 0x80) (before rest : List Char) :
    lowerHead before c rest = [c.toLower] := by
  have notDotted : c.toNat ≠ 0x130 := by omega
  have notSigma : c.toNat ≠ 0x3A3 := by omega
  simp only [lowerHead, if_neg notDotted, if_neg notSigma, lowerChar, if_pos low]

theorem lowerHead_of_beyond {c : Char} (beyond : 0x80 ≤ c.toNat) (before rest : List Char) :
    ∃ d ∈ lowerHead before c rest, ¬IsPlainLower d := by
  unfold lowerHead
  split
  · exact ⟨Char.ofNat 0x307, by decide, by decide⟩
  · split
    · split
      · exact ⟨Char.ofNat 0x3C2, by decide, by decide⟩
      · exact ⟨Char.ofNat 0x3C3, by decide, by decide⟩
    · exact ⟨lowerChar c, List.mem_singleton_self _, lowerChar_of_beyond beyond⟩

theorem lowerFrom_eq_iff {text : List Char} :
    ∀ {before target : List Char}, (∀ c ∈ target, IsPlainLower c) →
      (lowerFrom before text = target ↔ text.map Char.toLower = target) := by
  induction text with
  | nil => exact fun _ => Iff.rfl
  | cons c rest ih =>
    intro before target plain
    rw [lowerFrom_cons, List.map_cons]
    rcases Nat.lt_or_ge c.toNat 0x80 with low | beyond
    · rw [lowerHead_of_ascii low]
      cases target with
      | nil => simp
      | cons d others =>
        rw [List.singleton_append, List.cons.injEq, List.cons.injEq,
          ih (List.forall_mem_cons.1 plain).2]
    · constructor
      · rintro rfl
        obtain ⟨d, member, strange⟩ := lowerHead_of_beyond beyond before rest
        exact absurd (plain d (List.mem_append_left _ member)) strange
      · rintro rfl
        have first := (List.forall_mem_cons.1 plain).1
        rw [toLower_of_beyond beyond] at first
        exact absurd first.1 (Nat.not_lt.2 beyond)

/-- A text has a plain lower case exactly if it is the same up to the case of ASCII
letters. -/
theorem lowercase_eq_iff {text target : List Char} (plain : ∀ c ∈ target, IsPlainLower c) :
    lowercase text = target ↔ text.map Char.toLower = target :=
  lowerFrom_eq_iff plain

end MetricQuery.Text
