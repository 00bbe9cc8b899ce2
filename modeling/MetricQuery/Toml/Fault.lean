import MetricQuery.Text.Character

/-!
# Faults of TOML texts

Where a text is wrong, what was expected there, and the report that shows the
line with the place marked. Places are given by the number of characters from
them to the end of the text, which a reader knows from what is left to read.
-/

set_option autoImplicit false

namespace MetricQuery.Toml

/-- A stretch of a text: the characters from its start on, and those from its
end on. -/
structure Span where
  start : Nat
  stop : Nat
  deriving DecidableEq, Repr

namespace Span

def between (start stop : List Char) : Span :=
  ⟨start.length, stop.length⟩

def joined (first last : Span) : Span :=
  ⟨first.start, last.stop⟩

end Span

/-- `isFirm` says that the reading cannot be tried in another way. -/
structure Fault where
  span : Option Span
  label : Option String
  expected : List String
  cause : Option String
  isFirm : Bool
  deriving DecidableEq, Repr

namespace Fault

def here (rest : List Char) : Fault :=
  ⟨some ⟨rest.length, rest.length - 1⟩, none, [], none, false⟩

def because (span : Option Span) (cause : String) : Fault :=
  ⟨span, none, [], some cause, true⟩

/-- The innermost label counts. -/
def within (fault : Fault) (label : String) : Fault :=
  { fault with label := fault.label.orElse fun _ => some label }

def expecting (fault : Fault) (items : List String) : Fault :=
  { fault with expected := fault.expected ++ items }

def firm (fault : Fault) : Fault :=
  { fault with isFirm := true }

def located (fault : Fault) (span : Option Span) : Fault :=
  { fault with span := fault.span.orElse fun _ => span }

def explanation (fault : Fault) : String :=
  let label := fault.label.toList.map ("invalid " ++ ·)
  let expected :=
    if fault.expected.isEmpty then []
    else ["expected " ++ ", ".intercalate fault.expected]
  "\n".intercalate (label ++ expected ++ fault.cause.toList)

/-! ## Reports -/

structure Place where
  line : Nat
  before : List Char
  content : List Char

def placeOf (text : List Char) (index : Nat) : Place :=
  let front := text.take index
  let before := (front.reverse.takeWhile (· != '\n')).reverse
  { line := front.count '\n'
    before := before
    content := before ++ (text.drop index).takeWhile (· != '\n') }

def utf8Length (text : List Char) : Nat :=
  text.foldl (fun total c => total + c.utf8Size) 0

/-- The column of a place, counted in characters, or in bytes in front of a
character beyond ASCII. -/
def columnOf (text : List Char) (index : Nat) (place : Place) : Nat :=
  match text[index]? with
  | some c => if c.toNat < 0x80 then place.before.length else utf8Length place.before
  | none => place.before.length

/-- The line and column of an index. The end of a text lies one column behind its
last character, even where that is a line break. -/
def locate (text : List Char) (index : Nat) : Place × Nat :=
  if index < text.length || index = 0 then
    let place := placeOf text index
    (place, columnOf text index place)
  else
    let place := placeOf text (text.length - 1)
    (place, place.before.length + 1)

def blanks (count : Nat) : String :=
  String.ofList (List.replicate count ' ')

def report (fault : Fault) (text : String) : String :=
  match fault.span with
  | none => fault.explanation ++ "\n"
  | some span =>
    let characters := text.toList
    let index := characters.length - span.start
    let (place, column) := locate characters index
    let number := String.ofList (Text.digits (place.line + 1))
    let marked := utf8Length ((characters.drop index).take (span.start - span.stop))
    let room := utf8Length place.content - column
    let gutter := blanks (number.length + 1) ++ "|"
    "TOML parse error at line " ++ number ++ ", column " ++
      String.ofList (Text.digits (column + 1)) ++ "\n" ++
      gutter ++ "\n" ++
      number ++ " | " ++ String.ofList place.content ++ "\n" ++
      gutter ++ blanks (column + 1) ++
      String.ofList (List.replicate (max 1 (min marked room)) '^') ++ "\n" ++
      fault.explanation ++ "\n"

end Fault

abbrev Reader (α : Type) := List Char → Except Fault (α × List Char)

namespace Reader

variable {α β : Type}

def labeled (read : Reader α) (label : String) : Reader α :=
  fun text => (read text).mapError (·.within label)

def expecting (read : Reader α) (items : List String) : Reader α :=
  fun text => (read text).mapError (·.expecting items)

def firm (read : Reader α) : Reader α :=
  fun text => (read text).mapError Fault.firm

def char (accept : Char → Bool) : Reader Char
  | c :: rest => if accept c then .ok (c, rest) else .error (Fault.here (c :: rest))
  | [] => .error (Fault.here [])

/-- One of two readers: the second one where the first fails and is not firm. -/
def orElse (first second : Reader α) : Reader α := fun text =>
  match first text with
  | .ok result => .ok result
  | .error fault => if fault.isFirm then .error fault else second text

end Reader

end MetricQuery.Toml
