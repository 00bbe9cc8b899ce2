/-!
# Bindings

Finite maps from names to values, kept in the order of their names. Two
bindings that answer every look-up alike are equal, because the entries are
strictly ordered.
-/

set_option autoImplicit false

namespace MetricQuery

def Ordered {α : Type} (entries : List (String × α)) : Prop :=
  entries.Pairwise fun left right => left.1 < right.1

def insertEntry {α : Type} (name : String) (value : α) :
    List (String × α) → List (String × α)
  | [] => [(name, value)]
  | (held, old) :: rest =>
    if name < held then (name, value) :: (held, old) :: rest
    else if name = held then (name, value) :: rest
    else (held, old) :: insertEntry name value rest

theorem name_of_mem_insertEntry {α : Type} {name : String} {value : α}
    {entries : List (String × α)} {entry : String × α}
    (member : entry ∈ insertEntry name value entries) :
    entry.1 = name ∨ entry ∈ entries := by
  induction entries with
  | nil => simp_all [insertEntry]
  | cons head rest ih =>
    obtain ⟨held, old⟩ := head
    simp only [insertEntry] at member
    split at member
    · simp only [List.mem_cons] at member ⊢
      rcases member with rfl | member
      · exact Or.inl rfl
      · exact Or.inr member
    · split at member
      · simp only [List.mem_cons] at member ⊢
        rcases member with rfl | member
        · exact Or.inl rfl
        · exact Or.inr (Or.inr member)
      · simp only [List.mem_cons] at member ⊢
        rcases member with rfl | member
        · exact Or.inr (Or.inl rfl)
        · rcases ih member with named | kept
          · exact Or.inl named
          · exact Or.inr (Or.inr kept)

theorem Ordered.insertEntry {α : Type} {entries : List (String × α)}
    (ordered : Ordered entries) (name : String) (value : α) :
    Ordered (insertEntry name value entries) := by
  induction entries with
  | nil => exact List.pairwise_singleton _ _
  | cons head rest ih =>
    obtain ⟨held, old⟩ := head
    have beyond := (List.pairwise_cons.1 ordered).1
    have later := (List.pairwise_cons.1 ordered).2
    simp only [MetricQuery.insertEntry]
    split
    · rename_i before
      refine List.pairwise_cons.2 ⟨?_, ordered⟩
      intro entry member
      rcases List.mem_cons.1 member with rfl | member
      · exact before
      · exact String.lt_trans before (beyond entry member)
    · split
      · rename_i same
        subst same
        exact List.pairwise_cons.2 ⟨beyond, later⟩
      · rename_i notBefore notSame
        refine List.pairwise_cons.2 ⟨?_, ih later⟩
        intro entry member
        rcases name_of_mem_insertEntry member with named | kept
        · have least : held ≤ name := String.not_lt.1 notBefore
          refine named ▸ ?_
          show held < name
          rcases Decidable.em (held < name) with less | notLess
          · exact less
          · exact absurd (String.le_antisymm (String.not_lt.1 notLess) least) notSame
        · exact beyond entry kept

theorem lookup_entry {α : Type} (name held : String) (value : α) (rest : List (String × α)) :
    ((held, value) :: rest).lookup name = if name = held then some value else rest.lookup name := by
  by_cases found : name = held
  · simp [found]
  · have apart : (name == held) = false := beq_false_of_ne found
    simp [List.lookup_cons, found, apart]

theorem lookup_insertEntry {α : Type} (name key : String) (value : α)
    (entries : List (String × α)) :
    (insertEntry name value entries).lookup key =
      if key = name then some value else entries.lookup key := by
  induction entries with
  | nil => simp [insertEntry, lookup_entry]
  | cons head rest ih =>
    obtain ⟨held, old⟩ := head
    simp only [insertEntry]
    split
    · simp [lookup_entry]
    · split
      · rename_i same
        subst same
        by_cases found : key = name <;> simp [lookup_entry, found]
      · rename_i notSame
        by_cases found : key = held
        · subst found
          simp [Ne.symm notSame]
        · simp [lookup_entry, found, ih]

/-- A name below all others is bound to nothing. -/
theorem lookup_eq_none_of_below {α : Type} {name : String} {entries : List (String × α)}
    (below : ∀ entry ∈ entries, name < entry.1) : entries.lookup name = none := by
  refine List.lookup_eq_none_iff.2 fun entry member => ?_
  have apart : name ≠ entry.1 := fun same =>
    absurd (below entry member) (same ▸ String.lt_irrefl _)
  simp [apart]

/-- Ordered entries are determined by what they are looked up for. -/
theorem Ordered.eq_of_lookup {α : Type} {left right : List (String × α)}
    (leftOrdered : Ordered left) (rightOrdered : Ordered right)
    (alike : ∀ name, left.lookup name = right.lookup name) : left = right := by
  induction left generalizing right with
  | nil =>
    cases right with
    | nil => rfl
    | cons head rest =>
      obtain ⟨name, value⟩ := head
      simpa [lookup_entry] using alike name
  | cons head rest ih =>
    cases right with
    | nil =>
      obtain ⟨name, value⟩ := head
      simpa [lookup_entry] using alike name
    | cons other others =>
      obtain ⟨name, value⟩ := head
      obtain ⟨otherName, otherValue⟩ := other
      have beyond := (List.pairwise_cons.1 leftOrdered).1
      have otherBeyond := (List.pairwise_cons.1 rightOrdered).1
      have notLess : ¬name < otherName := fun less => by
        have missing : ((otherName, otherValue) :: others).lookup name = none := by
          refine lookup_eq_none_of_below fun entry member => ?_
          rcases List.mem_cons.1 member with rfl | member
          · exact less
          · exact String.lt_trans less (otherBeyond entry member)
        simpa [missing] using alike name
      have notGreater : ¬otherName < name := fun less => by
        have missing : ((name, value) :: rest).lookup otherName = none := by
          refine lookup_eq_none_of_below fun entry member => ?_
          rcases List.mem_cons.1 member with rfl | member
          · exact less
          · exact String.lt_trans less (beyond entry member)
        simpa [missing] using alike otherName
      have same : name = otherName :=
        String.le_antisymm (String.not_lt.1 notGreater) (String.not_lt.1 notLess)
      subst same
      have sameValue : value = otherValue := by simpa using alike name
      subst sameValue
      congr 1
      refine ih (List.pairwise_cons.1 leftOrdered).2 (List.pairwise_cons.1 rightOrdered).2
        fun key => ?_
      by_cases found : key = name
      · subst found
        rw [lookup_eq_none_of_below beyond, lookup_eq_none_of_below otherBeyond]
      · simpa [lookup_entry, found] using alike key

/-- A finite map from names to values, its entries in the order of the names. -/
structure Bindings (α : Type) where
  entries : List (String × α)
  ordered : Ordered entries

namespace Bindings

variable {α : Type}

def empty : Bindings α :=
  ⟨[], List.Pairwise.nil⟩

instance : EmptyCollection (Bindings α) := ⟨empty⟩

instance : Inhabited (Bindings α) := ⟨empty⟩

def isEmpty (bindings : Bindings α) : Bool :=
  bindings.entries.isEmpty

def get? (bindings : Bindings α) (name : String) : Option α :=
  bindings.entries.lookup name

def contains (bindings : Bindings α) (name : String) : Bool :=
  bindings.entries.any fun entry => entry.1 == name

def insert (bindings : Bindings α) (name : String) (value : α) : Bindings α :=
  ⟨insertEntry name value bindings.entries, bindings.ordered.insertEntry name value⟩

/-- Binds every entry in turn, so that the last one of a name counts. -/
def insertAll (bindings : Bindings α) (entries : List (String × α)) : Bindings α :=
  entries.foldl (fun held entry => held.insert entry.1 entry.2) bindings

@[simp] theorem get?_empty (name : String) : (∅ : Bindings α).get? name = none :=
  rfl

/-- A look-up after setting a value gives that value under its name, and what was
there under any other. -/
@[simp] theorem get?_insert (bindings : Bindings α) (name key : String) (value : α) :
    (bindings.insert name value).get? key = if key = name then some value else bindings.get? key :=
  lookup_insertEntry name key value bindings.entries

/-- Bindings are determined by what they answer. -/
theorem ext_get? {left right : Bindings α} (alike : ∀ name, left.get? name = right.get? name) :
    left = right := by
  obtain ⟨entries, ordered⟩ := left
  obtain ⟨others, otherOrdered⟩ := right
  have same : entries = others := ordered.eq_of_lookup otherOrdered alike
  subst same
  rfl

def ofList (entries : List (String × α)) : Bindings α :=
  empty.insertAll entries

/-- All bindings of both, those of `above` winning. -/
def overlaid (below above : Bindings α) : Bindings α :=
  below.insertAll above.entries

end Bindings

end MetricQuery
