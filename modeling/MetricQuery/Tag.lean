import MetricQuery.Error

/-!
# Tags and conditions

A tag names a piece of series metadata: a name, possibly in a scope. In texts a
tag is written `scope:name` or `name`, with an optional dollar sign in front.

Conditions are the predicates of WHERE clauses, binary trees over tags. Combining
two conditions never regroups them, and no parentheses are written, so trees that
differ only in their grouping have the same text.
-/

set_option autoImplicit false

namespace MetricQuery

structure Tag where
  scope : Option String
  name : String
  deriving DecidableEq, Repr

namespace Tag

/-- The tag of a name in a scope; the empty scope is no scope. -/
def ofPair (scope : Option String) (name : String) : Tag :=
  ⟨if scope = some "" then none else scope, name⟩

/-- A small Latin letter, of which the scopes in texts consist. -/
def isScopeChar (c : Char) : Bool :=
  'a' ≤ c && c ≤ 'z'

def dropDollar : List Char → List Char
  | '$' :: rest => rest
  | text => text

/-- A text cut behind its first colon, if only scope characters stand in front
of it; otherwise the whole text is the name. -/
def splitScope (text : List Char) : List Char × List Char :=
  match text.span isScopeChar with
  | (scope, ':' :: name) => (scope, name)
  | _ => ([], text)

/-- The tag that a text denotes. The name has at least one character and no line
break. -/
def parse (text : String) : Except QueryError Tag :=
  let (scope, name) := splitScope (dropDollar text.toList)
  if name.isEmpty || name.contains '\n' then .error (.invalidTag text)
  else .ok (ofPair (some (String.ofList scope)) (String.ofList name))

/-- The key of a tag in the metadata of a decoded series. -/
def key (tag : Tag) : String :=
  match tag.scope with
  | some scope => scope ++ ":" ++ tag.name
  | none => tag.name

def text (tag : Tag) : String :=
  match tag.scope with
  | some scope => scope ++ ":'" ++ tag.name ++ "'"
  | none => "'" ++ tag.name ++ "'"

end Tag

inductive TagForm where
  | text (text : String)
  | parts (scope : Option String) (name : String)
  deriving DecidableEq, Repr

def TagForm.tag : TagForm → Except QueryError Tag
  | .text given => Tag.parse given
  | .parts scope held => .ok (Tag.ofPair scope held)

/-! ## Conditions -/

inductive Combinator where
  | and
  | or
  deriving DecidableEq, Repr

inductive Condition where
  | equals (tag : Tag) (value : String)
  | differs (tag : Tag) (value : String)
  | present (tag : Tag)
  | and (left right : Condition)
  | or (left right : Condition)
  /-- A condition with an operator that is not known here; it has no text. -/
  | unknown
  deriving DecidableEq, Repr

namespace Condition

def combine (left right : Condition) : Combinator → Condition
  | .and => .and left right
  | .or => .or left right

def text : Condition → String
  | .equals tag value => tag.text ++ " = '" ++ value ++ "'"
  | .differs tag value => tag.text ++ " != '" ++ value ++ "'"
  | .present tag => tag.text
  | .and left right => left.text ++ " AND " ++ right.text
  | .or left right => left.text ++ " OR " ++ right.text
  | .unknown => ""

end Condition

end MetricQuery
