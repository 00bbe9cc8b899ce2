import MetricQuery.Command.Invocation
import MetricQuery.Proofs.Results

/-!
# Options among arguments

Arguments can be cut into options, each with the arguments it takes up, and they are read
one option after another. So options that may stand any number of times can be left away:
what is read is what was read before without them, and nothing that stood once is missing
or stands twice.
-/

set_option autoImplicit false

namespace MetricQuery.Command

/-! ## Leaving some elements away -/

section Thinning

variable {α β : Type}

/-- What is left of a list when some of the elements that may go are dropped. -/
inductive Thins (may : α → Prop) : List α → List α → Prop
  | nil : Thins may [] []
  | drop {x : α} {xs kept : List α} : may x → Thins may xs kept → Thins may (x :: xs) kept
  | keep {x : α} {xs kept : List α} : Thins may xs kept → Thins may (x :: xs) (x :: kept)

theorem Thins.sublist {may : α → Prop} {xs kept : List α} (thins : Thins may xs kept) :
    kept.Sublist xs := by
  induction thins with
  | nil => exact .slnil
  | drop _ _ ih => exact .cons _ ih
  | keep _ ih => exact .cons_cons _ ih

theorem Thins.map {may : α → Prop} {mayMapped : β → Prop} {f : α → β} {xs kept : List α}
    (thins : Thins may xs kept) (mapped : ∀ x, may x → mayMapped (f x)) :
    Thins mayMapped (xs.map f) (kept.map f) := by
  induction thins with
  | nil => exact .nil
  | drop may _ ih => exact .drop (mapped _ may) ih
  | keep _ ih => exact .keep ih

theorem filter_thins (p : α → Bool) (xs : List α) :
    Thins (p · = true) xs (xs.filter fun x => !p x) := by
  induction xs with
  | nil => exact .nil
  | cons x xs ih =>
    cases held : p x with
    | false =>
      rw [List.filter_cons, held]
      exact .keep ih
    | true =>
      rw [List.filter_cons, held]
      exact .drop held ih

/-- The elements of which a property does not hold, and of those of which it does the one
at an index. -/
def keepOne (p : α → Bool) : Nat → List α → List α
  | _, [] => []
  | 0, x :: xs => if p x then x :: xs.filter (fun other => !p other) else x :: keepOne p 0 xs
  | index + 1, x :: xs => if p x then keepOne p index xs else x :: keepOne p (index + 1) xs

variable {p : α → Bool} {x : α}

theorem keepOne_cons_of_neg (other : p x = false) (index : Nat) (xs : List α) :
    keepOne p index (x :: xs) = x :: keepOne p index xs := by
  cases index <;> simp [keepOne, other]

theorem keepOne_zero_of_pos (held : p x = true) (xs : List α) :
    keepOne p 0 (x :: xs) = x :: xs.filter fun other => !p other :=
  if_pos held

theorem keepOne_succ_of_pos (held : p x = true) (index : Nat) (xs : List α) :
    keepOne p (index + 1) (x :: xs) = keepOne p index xs :=
  if_pos held

theorem keepOne_thins (p : α → Bool) (xs : List α) :
    ∀ index, Thins (p · = true) xs (keepOne p index xs) := by
  induction xs with
  | nil => intro index; cases index <;> exact .nil
  | cons x xs ih =>
    intro index
    cases held : p x with
    | false => exact keepOne_cons_of_neg held index xs ▸ .keep (ih index)
    | true =>
      cases index with
      | zero => exact keepOne_zero_of_pos held xs ▸ .keep (filter_thins p xs)
      | succ index => exact keepOne_succ_of_pos held index xs ▸ .drop held (ih index)

theorem filter_keepOne (p : α → Bool) (xs : List α) :
    ∀ index, (keepOne p index xs).filter p = ((xs.filter p)[index]?).toList := by
  induction xs with
  | nil => intro index; cases index <;> rfl
  | cons x xs ih =>
    intro index
    cases held : p x with
    | false =>
      have other : ¬p x = true := by simp [held]
      rw [keepOne_cons_of_neg held, List.filter_cons_of_neg other,
        List.filter_cons_of_neg other, ih]
    | true =>
      rw [List.filter_cons_of_pos held]
      cases index with
      | zero =>
        rw [keepOne_zero_of_pos held, List.filter_cons_of_pos held]
        simp [List.filter_filter]
      | succ index => rw [keepOne_succ_of_pos held, ih, List.getElem?_cons_succ]

end Thinning

/-! ## What has been given -/

namespace Given

variable {name long : String} {given kept : Given}

theorem all_cons (entry : String × String) (rest : Given) (long : String) :
    Given.all (entry :: rest) long =
      if entry.1 = long then entry.2 :: Given.all rest long else Given.all rest long := by
  by_cases same : entry.1 = long <;> simp [all, same]

theorem get?_cons (entry : String × String) (rest : Given) (long : String) :
    Given.get? (entry :: rest) long =
      if long = entry.1 then some entry.2 else Given.get? rest long :=
  lookup_entry long entry.1 entry.2 rest

/-- Options of other names are what they were. -/
theorem all_of_thins (thins : Thins (·.1 = name) given kept) (other : long ≠ name) :
    kept.all long = given.all long := by
  induction thins with
  | nil => rfl
  | drop named _ ih => rw [all_cons, if_neg (named ▸ other.symm), ih]
  | keep _ ih => rw [all_cons, all_cons, ih]

theorem get?_of_thins (thins : Thins (·.1 = name) given kept) (other : long ≠ name) :
    kept.get? long = given.get? long := by
  induction thins with
  | nil => rfl
  | drop named _ ih => rw [get?_cons, if_neg (named ▸ other), ih]
  | keep _ ih => rw [get?_cons, get?_cons, ih]

theorem has_append_singleton (given : Given) (name value long : String) :
    Given.has (given ++ [(name, value)]) long = (given.has long || long == name) := by
  rw [has, has, get?, get?, List.lookup_append, Option.isSome_or, lookup_entry]
  by_cases same : long = name <;> simp [same]

end Given

/-! ## Options where they stand -/

structure Placed where
  form : OptionForm
  value : String
  arguments : List String

namespace Placed

def entry (placed : Placed) : String × String :=
  (placed.form.long, placed.value)

def isNamed (name : String) (placed : Placed) : Bool :=
  placed.form.long == name

inductive Reads (level : Level) : Placed → Prop
  | attached {form : OptionForm} {argument value : String} :
    level.demand argument = .ok (.option form value) → Reads level ⟨form, value, [argument]⟩
  | behind {form : OptionForm} {argument value : String} :
    level.demand argument = .ok (.valued form) → isPlain value = true →
      Reads level ⟨form, value, [argument, value]⟩

end Placed

theorem Given.all_map_entry (options : List Placed) (name : String) :
    Given.all (options.map Placed.entry) name =
      (options.filter (Placed.isNamed name)).map Placed.value := by
  rw [Given.all, List.filter_map, List.map_map]
  rfl

/-- The options that arguments begin with, and the arguments behind them. -/
def Level.cut (level : Level) : List String → List Placed × List String
  | [] => ([], [])
  | argument :: rest =>
    match level.demand argument with
    | .ok (.option form value) =>
      (⟨form, value, [argument]⟩ :: (level.cut rest).1, (level.cut rest).2)
    | .ok (.valued form) =>
      match rest with
      | [] => ([], [argument])
      | value :: rest =>
        if isPlain value then
          (⟨form, value, [argument, value]⟩ :: (level.cut rest).1, (level.cut rest).2)
        else ([], argument :: value :: rest)
    | _ => ([], argument :: rest)

def addAll (given : Given) (options : List Placed) : Except Halt Given :=
  options.foldlM (fun given placed => addOption given placed.form placed.value) given

section Reading

variable {level : Level} {given all : Given}

theorem Level.cut_append {placed : Placed} (reads : placed.Reads level) (rest : List String) :
    level.cut (placed.arguments ++ rest) =
      (placed :: (level.cut rest).1, (level.cut rest).2) := by
  cases reads with
  | attached demanded => simp [cut, demanded]
  | behind demanded plain => simp [cut, demanded, plain]

theorem readArguments_append {placed : Placed} (reads : placed.Reads level) (given : Given)
    (rest : List String) :
    readArguments level given (placed.arguments ++ rest) =
      (addOption given placed.form placed.value).bind (readArguments level · rest) := by
  cases reads with
  | attached demanded =>
    simp only [List.cons_append, List.nil_append, readArguments, demanded]
    cases addOption given _ _ <;> rfl
  | behind demanded plain =>
    simp only [List.cons_append, List.nil_append, readArguments, demanded, plain, if_pos]
    cases addOption given _ _ <;> rfl

theorem readArguments_flatMap {options : List Placed} (rest : List String) :
    (∀ placed ∈ options, placed.Reads level) → ∀ given,
      readArguments level given (options.flatMap Placed.arguments ++ rest) =
        (addAll given options).bind (readArguments level · rest) := by
  induction options with
  | nil => exact fun _ _ => rfl
  | cons placed options ih =>
    intro reads given
    obtain ⟨first, later⟩ := List.forall_mem_cons.1 reads
    rw [List.flatMap_cons, List.append_assoc, readArguments_append first, addAll,
      List.foldlM_cons]
    cases addOption given placed.form placed.value with
    | error halt => rfl
    | ok next => exact ih later next

/-- The arguments are the ones of the options in front, which are options indeed, and the
rest, which begins with no further option. -/
theorem Level.cut_spec (level : Level) (arguments : List String) :
    arguments = (level.cut arguments).1.flatMap Placed.arguments ++ (level.cut arguments).2 ∧
      (∀ placed ∈ (level.cut arguments).1, placed.Reads level) ∧
      level.cut (level.cut arguments).2 = ([], (level.cut arguments).2) := by
  fun_induction Level.cut level arguments with
  | case1 => simp [cut]
  | case2 argument rest form value demanded ih =>
    obtain ⟨whole, reads, last⟩ := ih
    refine ⟨congrArg (argument :: ·) whole, ?_, last⟩
    exact List.forall_mem_cons.2 ⟨.attached demanded, reads⟩
  | case3 argument form demanded => simp [cut, demanded]
  | case4 argument form demanded value rest plain ih =>
    obtain ⟨whole, reads, last⟩ := ih
    refine ⟨congrArg (argument :: value :: ·) whole, ?_, last⟩
    exact List.forall_mem_cons.2 ⟨.behind demanded plain, reads⟩
  | case5 argument form demanded value rest notPlain => simp [cut, demanded, notPlain]
  | case6 argument rest notOption notValued =>
    have stays : level.cut (argument :: rest) = ([], argument :: rest) := by
      cases demanded : level.demand argument with
      | error halt => simp [cut, demanded]
      | ok demand =>
        cases demand with
        | option form value => exact (notOption form value demanded).elim
        | valued form => exact (notValued form demanded).elim
        | stop | command => simp [cut, demanded]
    exact ⟨rfl, by simp, stays⟩

/-- What may stand behind the options: nothing, two dashes, or a command. -/
theorem readArguments_of_cut {left : List String} {command : Option (String × List String)}
    (last : level.cut left = ([], left))
    (read : readArguments level given left = .ok (all, command)) :
    all = given ∧
      ((command = none ∧ (left = [] ∨ ∃ dashes, left = [dashes] ∧
        level.demand dashes = .ok .stop)) ∨
      ∃ argument name behind, command = some (name, behind) ∧ left = argument :: behind ∧
        level.demand argument = .ok (.command name)) := by
  cases left with
  | nil =>
    obtain ⟨rfl, rfl⟩ := Prod.mk.inj (Except.ok.inj read)
    exact ⟨rfl, .inl ⟨rfl, .inl rfl⟩⟩
  | cons argument rest =>
    -- An option in front would have been cut off.
    have noOption : ∀ (placed : Placed) (others : List String), placed.Reads level →
        argument :: rest ≠ placed.arguments ++ others := by
      intro placed others reads whole
      rw [whole, Level.cut_append reads] at last
      cases congrArg Prod.fst last
    rw [readArguments] at read
    cases demanded : level.demand argument with
    | error halt => simp [demanded] at read
    | ok demand =>
      cases demand with
      | stop =>
        cases rest with
        | nil =>
          simp only [demanded, List.isEmpty_nil, if_true] at read
          obtain ⟨rfl, rfl⟩ := Prod.mk.inj (Except.ok.inj read)
          exact ⟨rfl, .inl ⟨rfl, .inr ⟨argument, rfl, demanded⟩⟩⟩
        | cons _ _ => simp [demanded] at read
      | command name =>
        simp only [demanded] at read
        obtain ⟨rfl, rfl⟩ := Prod.mk.inj (Except.ok.inj read)
        exact ⟨rfl, .inr ⟨argument, name, rest, rfl, rfl, demanded⟩⟩
      | option form value => exact absurd rfl (noOption _ rest (.attached demanded))
      | valued form =>
        cases rest with
        | nil => simp [demanded] at read
        | cons value rest =>
          cases plain : isPlain value with
          | true => exact absurd rfl (noOption _ rest (.behind demanded plain))
          | false => simp [demanded, plain] at read

/-- Arguments without a command are options and nothing that changes what is given. -/
theorem readArguments_eq_ok {arguments : List String}
    (read : readArguments level given arguments = .ok (all, none)) :
    addAll given (level.cut arguments).1 = .ok all ∧
      ∀ other, readArguments level other (level.cut arguments).2 = .ok (other, none) := by
  obtain ⟨whole, reads, last⟩ := level.cut_spec arguments
  rw [whole, readArguments_flatMap _ reads] at read
  obtain ⟨added, success, rest⟩ := bind_eq_ok read
  obtain ⟨rfl, ⟨_, behind⟩ | ⟨_, _, _, impossible, _⟩⟩ := readArguments_of_cut last rest
  · refine ⟨success, fun other => ?_⟩
    rcases behind with nothing | ⟨dashes, nothing, demanded⟩
    · rw [nothing]
      rfl
    · rw [nothing, readArguments, demanded]
      rfl
  · cases impossible

/-- What stands behind a command has no part in how the arguments in front are read. -/
theorem readArguments_command {arguments behind : List String} {name : String}
    (read : readArguments level given arguments = .ok (all, some (name, behind))) :
    ∃ front, arguments = front ++ behind ∧ ∀ other,
      readArguments level given (front ++ other) = .ok (all, some (name, other)) := by
  obtain ⟨whole, reads, last⟩ := level.cut_spec arguments
  have taken := read
  rw [whole, readArguments_flatMap _ reads] at taken
  obtain ⟨added, success, rest⟩ := bind_eq_ok taken
  obtain ⟨rfl, ⟨impossible, _⟩ | ⟨argument, _, _, same, left, demanded⟩⟩ :=
    readArguments_of_cut last rest
  · cases impossible
  obtain ⟨rfl, rfl⟩ := Prod.mk.inj (Option.some.inj same)
  rw [left] at whole
  refine ⟨(level.cut arguments).1.flatMap Placed.arguments ++ [argument], ?_, fun other => ?_⟩
  · simpa using whole
  · rw [List.append_assoc, readArguments_flatMap _ reads, success]
    simp [Except.bind, readArguments, demanded]

end Reading

/-! ## Options left away -/

theorem addOption_eq_ok_iff {given next : Given} {form : OptionForm} {value : String} :
    addOption given form value = .ok next ↔
      (form.kind = .repeatable ∨ given.has form.long = false) ∧
        (form.kind = .path → value.isEmpty = false) ∧ next = given ++ [(form.long, value)] := by
  unfold addOption
  by_cases free : form.kind = .repeatable ∨ given.has form.long = false
  · have allowed : ¬(form.kind != .repeatable && given.has form.long) = true := by
      rcases free with free | free <;> simp [free]
    rw [if_neg allowed]
    by_cases filled : form.kind = .path → value.isEmpty = false
    · have whole : ¬(decide (form.kind = .path) && value.isEmpty) = true := by
        intro empty
        rw [Bool.and_eq_true, decide_eq_true_iff] at empty
        rw [filled empty.1] at empty
        cases empty.2
      rw [if_neg whole]
      exact ⟨fun added => ⟨free, filled, (Except.ok.inj added).symm⟩,
        fun added => congrArg Except.ok added.2.2.symm⟩
    · obtain ⟨path, empty⟩ := Classical.not_imp.1 filled
      simp [path, empty]
  · have refused : (form.kind != .repeatable && given.has form.long) = true := by
      simpa [not_or] using free
    rw [if_pos refused]
    simp [free]

theorem addAll_cons_eq_ok {given all : Given} {placed : Placed} {options : List Placed}
    (success : addAll given (placed :: options) = .ok all) :
    addOption given placed.form placed.value = .ok (given ++ [placed.entry]) ∧
      addAll (given ++ [placed.entry]) options = .ok all := by
  rw [addAll, List.foldlM_cons] at success
  obtain ⟨next, added, later⟩ := bind_eq_ok success
  obtain rfl : next = given ++ [placed.entry] := (addOption_eq_ok_iff.1 added).2.2
  exact ⟨added, later⟩

theorem eq_of_addAll {options : List Placed} :
    ∀ {given all : Given}, addAll given options = .ok all →
      all = given ++ options.map Placed.entry := by
  induction options with
  | nil =>
    intro given all success
    obtain rfl : given = all := Except.ok.inj success
    exact (List.append_nil _).symm
  | cons placed options ih =>
    intro given all success
    rw [ih (addAll_cons_eq_ok success).2, List.append_assoc]
    rfl

/-- Options of a name that may stand any number of times can be left away. -/
theorem addAll_of_thins {name : String} {options kept : List Placed}
    (thins : Thins (Placed.isNamed name · = true) options kept) :
    (∀ placed ∈ options, placed.form.long = name → placed.form.kind = .repeatable) →
    ∀ {given all other : Given}, (∀ long, long ≠ name → other.has long = given.has long) →
      addAll given options = .ok all → addAll other kept = .ok (other ++ kept.map Placed.entry) := by
  induction thins with
  | nil => exact fun _ _ _ _ _ _ => congrArg Except.ok (List.append_nil _).symm
  | @drop placed options kept named thins ih =>
    intro repeatable given all other alike success
    refine ih (List.forall_mem_cons.1 repeatable).2 ?_ (addAll_cons_eq_ok success).2
    intro long apart
    have unnamed : (long == placed.form.long) = false := beq_false_of_ne (eq_of_beq named ▸ apart)
    rw [alike long apart, Placed.entry, Given.has_append_singleton, unnamed, Bool.or_false]
  | @keep placed options kept thins ih =>
    intro repeatable given all other alike success
    obtain ⟨first, later⟩ := List.forall_mem_cons.1 repeatable
    obtain ⟨added, success⟩ := addAll_cons_eq_ok success
    obtain ⟨free, filled, _⟩ := addOption_eq_ok_iff.1 added
    -- Options that stand at most once look for their own name only, and none of it is dropped.
    have alsoFree : placed.form.kind = .repeatable ∨ other.has placed.form.long = false := by
      by_cases named : placed.form.long = name
      · exact .inl (first named)
      · rwa [alike _ named]
    have alsoAdded : addOption other placed.form placed.value = .ok (other ++ [placed.entry]) :=
      addOption_eq_ok_iff.2 ⟨alsoFree, filled, rfl⟩
    have rest : addAll (other ++ [placed.entry]) kept =
        .ok (other ++ [placed.entry] ++ kept.map Placed.entry) := by
      refine ih later ?_ success
      intro long apart
      rw [Placed.entry, Given.has_append_singleton, Given.has_append_singleton, alike long apart]
    rw [addAll, List.foldlM_cons, alsoAdded]
    exact rest.trans (congrArg Except.ok (List.append_assoc _ _ _))

/-! ## What arguments can ask for -/

theorem OptionForm.demand_eq_ok {form : OptionForm} {attached : Option String} {demand : Demand}
    (demanded : form.demand attached = .ok demand) :
    (∃ value, demand = .option form value) ∨ demand = .valued form := by
  unfold OptionForm.demand at demanded
  cases kind : form.kind <;> cases attached <;> simp only [kind] at demanded <;>
    cases demanded <;> simp

theorem Level.demand_eq_ok {level : Level} {argument : String} {demand : Demand}
    (demanded : level.demand argument = .ok demand) :
    demand = .stop ∨ (∃ name, demand = .command name ∧ level.takesCommand = true) ∨
      ∃ form ∈ level.options, (∃ value, demand = .option form value) ∨ demand = .valued form := by
  unfold Level.demand at demanded
  cases piece : Piece.ofArgument argument with
  | stop =>
    simp only [piece] at demanded
    exact .inl (Except.ok.inj demanded).symm
  | plain name =>
    simp only [piece] at demanded
    cases takes : level.takesCommand with
    | true =>
      rw [takes, if_pos rfl] at demanded
      exact .inr (.inl ⟨name, (Except.ok.inj demanded).symm, rfl⟩)
    | false => simp [takes] at demanded
  | long name attached =>
    simp only [piece] at demanded
    cases halts : level.halt? name with
    | some halt => simp [halts] at demanded
    | none =>
      cases found : level.longForm? name with
      | none => simp [halts, found] at demanded
      | some form =>
        simp only [halts, found] at demanded
        exact .inr (.inr ⟨form, List.mem_of_find?_eq_some found, form.demand_eq_ok demanded⟩)
  | short name attached =>
    simp only [piece] at demanded
    cases halts : level.halt? (shortHaltName name) with
    | some halt => simp [halts] at demanded
    | none =>
      cases found : level.shortForm? name with
      | none => simp [halts, found] at demanded
      | some form =>
        simp only [halts, found] at demanded
        exact .inr (.inr ⟨form, List.mem_of_find?_eq_some found, form.demand_eq_ok demanded⟩)

theorem Placed.Reads.form_mem {level : Level} {placed : Placed} (reads : placed.Reads level) :
    placed.form ∈ level.options := by
  cases reads with
  | attached demanded =>
    rcases Level.demand_eq_ok demanded with impossible | ⟨_, impossible, _⟩ |
      ⟨form, known, ⟨_, same⟩ | impossible⟩
    · cases impossible
    · cases impossible
    · cases same
      exact known
    · cases impossible
  | behind demanded plain =>
    rcases Level.demand_eq_ok demanded with impossible | ⟨_, impossible, _⟩ |
      ⟨form, known, ⟨_, impossible⟩ | same⟩
    · cases impossible
    · cases impossible
    · cases impossible
    · cases same
      exact known

/-! ## One option of a name -/

/-- The arguments without the options of a name, but for the one at an index among them. -/
def Level.keepOne (level : Level) (name : String) (index : Nat) (arguments : List String) :
    List String :=
  (Command.keepOne (Placed.isNamed name) index (level.cut arguments).1).flatMap Placed.arguments ++
    (level.cut arguments).2

section KeptOption

variable {level : Level} {name : String} {given : Given} {arguments : List String}

theorem readArguments_keepOne
    (repeatable : ∀ form ∈ level.options, form.long = name → form.kind = .repeatable)
    (read : readArguments level [] arguments = .ok (given, none)) (index : Nat) :
    ∃ kept, readArguments level [] (level.keepOne name index arguments) = .ok (kept, none) ∧
      Thins (·.1 = name) given kept ∧ kept.all name = ((given.all name)[index]?).toList := by
  obtain ⟨added, ended⟩ := readArguments_eq_ok read
  have reads := (level.cut_spec arguments).2.1
  obtain rfl := eq_of_addAll added
  have thins := keepOne_thins (Placed.isNamed name) (level.cut arguments).1 index
  have kept := filter_keepOne (Placed.isNamed name) (level.cut arguments).1 index
  have alsoReads : ∀ placed ∈ Command.keepOne (Placed.isNamed name) index (level.cut arguments).1,
      placed.Reads level :=
    fun placed member => reads placed (thins.sublist.subset member)
  have alsoAdded := addAll_of_thins thins
    (fun placed member => repeatable placed.form (reads placed member).form_mem)
    (fun _ _ => rfl) added
  refine ⟨_, ?_, thins.map fun _ => eq_of_beq, ?_⟩
  · rw [Level.keepOne, readArguments_flatMap _ alsoReads, alsoAdded]
    exact ended _
  · rw [List.nil_append, Given.all_map_entry, Given.all_map_entry, kept, List.getElem?_map]
    cases ((level.cut arguments).1.filter (Placed.isNamed name))[index]? <;> rfl

end KeptOption

/-! ## One selection of a query -/

/-- The same arguments with only one of the selections behind the command. -/
def onlySelection (index : Nat) (arguments : List String) : List String :=
  match readArguments topLevel [] arguments with
  | .ok (_, some (_, behind)) =>
    arguments.take (arguments.length - behind.length) ++ renderLevel.keepOne "select" index behind
  | _ => arguments

theorem optionsOf_eq_ok {level : Level} {given : Given} {arguments : List String}
    (takesNone : level.takesCommand = false) (read : optionsOf level arguments = .ok given) :
    readArguments level [] arguments = .ok (given, none) := by
  obtain ⟨⟨all, command⟩, success, rfl⟩ := map_eq_ok read
  cases command with
  | none => exact success
  | some command =>
    obtain ⟨whole, reads, last⟩ := level.cut_spec arguments
    rw [whole, readArguments_flatMap _ reads] at success
    obtain ⟨added, _, rest⟩ := bind_eq_ok success
    obtain ⟨_, ⟨impossible, _⟩ | ⟨argument, name, behind, _, _, demanded⟩⟩ :=
      readArguments_of_cut last rest
    · cases impossible
    · rcases Level.demand_eq_ok demanded with impossible | ⟨_, _, takes⟩ |
        ⟨_, _, ⟨_, impossible⟩ | impossible⟩
      · cases impossible
      · rw [takesNone] at takes
        cases takes
      · cases impossible
      · cases impossible

theorem ofGiven_of_thins {given kept : Given} {options : QueryOptions} {selection : String}
    (thins : Thins (·.1 = "select") given kept) (one : kept.all "select" = [selection])
    (read : QueryOptions.ofGiven given = .ok options) :
    QueryOptions.ofGiven kept = .ok { options with selections := [selection] } := by
  have all : ∀ {long : String}, long ≠ "select" → kept.all long = given.all long :=
    fun other => Given.all_of_thins thins other
  have get? : ∀ {long : String}, long ≠ "select" → kept.get? long = given.get? long :=
    fun other => Given.get?_of_thins thins other
  unfold QueryOptions.ofGiven at read ⊢
  rw [one, get? (by decide)]
  cases collection : given.get? "from" with
  | none => simp [collection] at read
  | some collection =>
    cases selections : given.all "select" with
    | nil => simp [collection, selections] at read
    | cons first more =>
      simp only [collection, selections] at read
      cases read
      simp [all, get?]

theorem selections_of_ofGiven {given : Given} {options : QueryOptions}
    (read : QueryOptions.ofGiven given = .ok options) :
    options.selections = given.all "select" ∧ options.selections ≠ [] := by
  unfold QueryOptions.ofGiven at read
  cases collection : given.get? "from" with
  | none => simp [collection] at read
  | some collection =>
    cases selections : given.all "select" with
    | nil => simp [collection, selections] at read
    | cons first more =>
      simp only [collection, selections] at read
      cases read
      simp

theorem Action.ofCommand_eq_render {name : String} {arguments : List String}
    {options : QueryOptions} {asDocument : Bool} {path : Option String} :
    Action.ofCommand name arguments = .ok (.render options asDocument, path) ↔
      name = "render" ∧ ∃ given, optionsOf renderLevel arguments = .ok given ∧
        QueryOptions.ofGiven given = .ok options ∧ given.has "json" = asDocument ∧
        given.get? "config" = path := by
  constructor
  · intro read
    unfold Action.ofCommand at read
    split at read
    · refine ⟨rfl, ?_⟩
      obtain ⟨given, success, read⟩ := bind_eq_ok read
      obtain ⟨options, described, read⟩ := bind_eq_ok read
      cases read
      exact ⟨given, success, described, rfl, rfl⟩
    · obtain ⟨given, success, read⟩ := bind_eq_ok read
      obtain ⟨options, described, read⟩ := bind_eq_ok read
      cases read
    · obtain ⟨given, success, read⟩ := bind_eq_ok read
      cases read
    · split at read <;> cases read
    · cases read
  · rintro ⟨rfl, given, success, described, rfl, rfl⟩
    change (optionsOf renderLevel arguments).bind _ = _
    rw [success]
    change (QueryOptions.ofGiven given).bind _ = _
    rw [described]
    rfl

section OneSelection

variable {arguments : List String} {options : QueryOptions} {asDocument : Bool}
  {path : Option String}

theorem ofArguments_eq_render
    (read : Invocation.ofArguments arguments = .ok ⟨.render options asDocument, path⟩) :
    ∃ given front behind named, arguments = front ++ behind ∧
      (∀ other, readArguments topLevel [] (front ++ other) =
        .ok (given, some ("render", other))) ∧
      Action.ofCommand "render" behind = .ok (.render options asDocument, named) ∧
      path = named.orElse fun _ => given.get? "config" := by
  unfold Invocation.ofArguments at read
  cases taken : readArguments topLevel [] arguments with
  | error halt => simp [taken] at read
  | ok result =>
    obtain ⟨given, command⟩ := result
    cases command with
    | none => simp [taken] at read
    | some command =>
      obtain ⟨name, behind⟩ := command
      cases acted : Action.ofCommand name behind with
      | error halt => simp [taken, acted] at read
      | ok result =>
        obtain ⟨action, named⟩ := result
        simp only [taken, acted] at read
        cases read
        obtain ⟨rfl, _⟩ := Action.ofCommand_eq_render.1 acted
        obtain ⟨front, whole, others⟩ := readArguments_command taken
        exact ⟨given, front, behind, named, whole, others, acted, rfl⟩

/-- With only one of its selections a command reads as it did, but for the others. -/
theorem ofArguments_onlySelection
    (read : Invocation.ofArguments arguments = .ok ⟨.render options asDocument, path⟩)
    {index : Nat} (inside : index < options.selections.length) :
    Invocation.ofArguments (onlySelection index arguments) =
      .ok ⟨.render { options with selections := [options.selections[index]] } asDocument,
        path⟩ := by
  obtain ⟨given, front, behind, named, rfl, others, acted, rfl⟩ := ofArguments_eq_render read
  obtain ⟨_, all, success, described, rfl, rfl⟩ := Action.ofCommand_eq_render.1 acted
  have one : onlySelection index (front ++ behind) =
      front ++ renderLevel.keepOne "select" index behind := by
    rw [onlySelection, others]
    simp
  have repeatable : ∀ form ∈ renderLevel.options, form.long = "select" →
      form.kind = .repeatable := by
    decide
  obtain ⟨kept, reduced, thins, selected⟩ :=
    readArguments_keepOne repeatable (optionsOf_eq_ok rfl success) index
  have selection : kept.all "select" = [options.selections[index]] := by
    rw [selected, ← (selections_of_ofGiven described).1, List.getElem?_eq_getElem inside]
    rfl
  have alsoActed : Action.ofCommand "render" (renderLevel.keepOne "select" index behind) =
      .ok (.render { options with selections := [options.selections[index]] } (all.has "json"),
        all.get? "config") := by
    refine Action.ofCommand_eq_render.2 ⟨rfl, kept, ?_, ofGiven_of_thins thins selection described,
      ?_, Given.get?_of_thins thins (by decide)⟩
    · rw [optionsOf, reduced]
      rfl
    · rw [Given.has, Given.has, Given.get?_of_thins thins (by decide)]
  rw [one, Invocation.ofArguments, others]
  simp only [alsoActed]

end OneSelection

end MetricQuery.Command
