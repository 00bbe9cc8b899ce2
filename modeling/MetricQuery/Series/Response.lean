import MetricQuery.Expression
import MetricQuery.Time.Instant

/-!
# Responses

What the server answers, and what is made of it: rows under encoded names, and
series that know the part of the query they come from. A name is a list of
sections separated by dots. Within a section, quotes of either kind protect dots
and the other quote, and a backslash anywhere takes the next character as it is.
-/

set_option autoImplicit false

namespace MetricQuery

/-! ## Confidence -/

inductive Confidence where
  | off
  /-- Only points of positive confidence. -/
  | on
  /-- The points of all series of the same metadata, values without confidence
  being interpolated. -/
  | aligned
  deriving DecidableEq, Repr

def Confidence.isEnabled : Confidence → Bool
  | .off => false
  | .on | .aligned => true

inductive Channel where
  | value
  | confidence
  deriving DecidableEq, Repr

namespace Channel

def sectionText : Channel → String
  | .value => "v"
  | .confidence => "c"

def ofSection? : String → Option Channel
  | "v" => some .value
  | "c" => some .confidence
  | _ => none

end Channel

/-! ## Names -/

namespace Series

def isQuote (c : Char) : Bool :=
  c == '\'' || c == '"'

def prepend (c : Char) : List (List Char) → List (List Char)
  | [] => [[c]]
  | first :: rest => (c :: first) :: rest

/-- The sections of a name from a place on, inside of the given quote if any. -/
def sectionsWithin? : (quote : Option Char) → List Char → Option (List (List Char))
  | none, [] => some [[]]
  | some _, [] => none
  | _, ['\\'] => none
  | quote, '\\' :: c :: rest => (sectionsWithin? quote rest).map (prepend c)
  | none, c :: rest =>
    if isQuote c then sectionsWithin? (some c) rest
    else if c = '.' then (sectionsWithin? none rest).map ([] :: ·)
    else (sectionsWithin? none rest).map (prepend c)
  | some quote, c :: rest =>
    if c = quote then sectionsWithin? none rest
    else (sectionsWithin? (some quote) rest).map (prepend c)

/-- The sections of a name, unless a quote is left open or a backslash stands
last. -/
def splitName? (name : String) : Option (List String) :=
  (sectionsWithin? none name.toList).map fun sections => sections.map String.ofList

end Series

/-! ## Rows and series -/

/-- The values of one name, so many milliseconds apart. -/
structure Row (α : Type) where
  name : String
  resolution : Int
  values : List α

/-- Rows that start at the given second since the first of January 1970. -/
structure Response (α : Type) where
  start : Int
  rows : List (Row α)

structure Point (α : Type) where
  value : α
  timestamp : Int
  deriving DecidableEq, Repr

structure Series (α : Type) where
  /-- The part of the query that the series comes from. -/
  part : Part
  name : String
  tags : Bindings String
  points : List (Point α)

structure DecodedResponse (α : Type) where
  start : Instant
  /-- The series in the order of their first rows. -/
  series : List (Series α)

end MetricQuery
