import MetricQuery.Tag

/-!
# Annotations

The label, tags, leading sections and static fields of a part. All but the
static fields are written as an alias, a list of sections joined by dots, which
the server echoes back as the name of the series.
-/

set_option autoImplicit false

namespace MetricQuery

/-! ## Sections of an alias -/

/-- A section that starts with a dollar sign stands for a value of the server. -/
def isReference : List Char → Bool
  | '$' :: _ => true
  | _ => false

def isQuoted (name : List Char) : Bool :=
  2 ≤ name.length && name.head? == some '\'' && name.getLast? == some '\''

def escapeSectionChar (c : Char) : List Char :=
  if c = '\'' || c = '\\' then ['\\', c] else [c]

def quoteSection (name : List Char) : List Char :=
  '\'' :: (name.flatMap escapeSectionChar ++ ['\''])

/-- The section of a name: references and quoted names as they are, any other
name between quotes. -/
def writeSection (name : String) : String :=
  if isReference name.toList || isQuoted name.toList then name
  else String.ofList (quoteSection name.toList)

def Tag.aliasSection (tag : Tag) : String :=
  match tag.scope with
  | some scope => "$" ++ scope ++ ":" ++ writeSection tag.name
  | none => "$" ++ writeSection tag.name

/-! ## Annotations -/

structure Annotations where
  label : Option String
  tags : List Tag
  /-- Sections in front of all others, which identify a part and its channel. -/
  lead : List String
  statics : Bindings Json

namespace Annotations

def reservedKey : String := "__prefix"

def empty : Annotations := ⟨none, [], [], ∅⟩

def labeled (label : String) : Annotations :=
  { empty with label := some label }

def labelBy (annotations : Annotations) (label : String) : Annotations :=
  { annotations with label := some label }

def leadWith (annotations : Annotations) (lead : List String) : Annotations :=
  { annotations with lead := lead }

/-- Appends tags; the first one that is invalid fails. -/
def annotateWith (annotations : Annotations) (forms : List TagForm) :
    Except QueryError Annotations :=
  match forms.mapM TagForm.tag with
  | .ok tags => .ok { annotations with tags := annotations.tags ++ tags }
  | .error error => .error error

def annotateWithStatics (annotations : Annotations) (fields : Bindings Json) :
    Except QueryError Annotations :=
  if fields.contains reservedKey then .error (.reservedStaticKey reservedKey)
  else .ok { annotations with statics := annotations.statics.overlaid fields }

def annotateWithStatic (annotations : Annotations) (key : String) (value : Json) :
    Except QueryError Annotations :=
  annotations.annotateWithStatics (Bindings.empty.insert key value)

def static? (annotations : Annotations) (key : String) : Option Json :=
  annotations.statics.get? key

def isEmpty (annotations : Annotations) : Bool :=
  annotations.lead.isEmpty && annotations.tags.isEmpty && annotations.label.isNone

/-- The sections of the alias: the leading ones, the tags, the label. -/
def sections (annotations : Annotations) : List String :=
  annotations.lead.map writeSection ++ annotations.tags.map Tag.aliasSection ++
    annotations.label.toList.map writeSection

def aliasText (annotations : Annotations) : String :=
  ".".intercalate annotations.sections

def text (annotations : Annotations) : String :=
  "AS " ++ annotations.aliasText

end Annotations

end MetricQuery
