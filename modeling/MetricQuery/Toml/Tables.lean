import MetricQuery.Toml.Quoted

/-!
# TOML values and tables

Values know where they stand in the text, and tables how they came to be, on
which it depends what may still be added to them. The lines of a text add up to
tables: a key is set once; a header opens a table once, but a table that only
other headers have named may still get its own; a dotted key adds to tables that
dotted keys have made.
-/

set_option autoImplicit false

namespace MetricQuery

inductive Toml.TableKind where
  /-- Between braces. -/
  | inline
  /-- Under a header of its own. -/
  | header
  /-- Named by the header of another table only. -/
  | implied
  /-- Named by a dotted key. -/
  | dotted
  deriving DecidableEq, Repr

inductive Toml where
  | string (span : Toml.Span) (value : String)
  | integer (span : Toml.Span) (value : Int)
  | real (span : Toml.Span) (value : Float)
  | bool (span : Toml.Span) (value : Bool)
  /-- A date, a time, or both. -/
  | moment (span : Toml.Span)
  | array (span : Toml.Span) (items : List Toml)
  | table (span : Toml.Span) (kind : Toml.TableKind) (entries : List (String × Toml))
  /-- Tables under the same double header. -/
  | tables (elements : List Toml)

namespace Toml

def span? : Toml → Option Span
  | .string span _ | .integer span _ | .real span _ | .bool span _ | .moment span
  | .array span _ | .table span _ _ => some span
  | .tables elements =>
    match elements.head?, elements.getLast? with
    | some (.table first _ _), some (.table last _ _) => some (first.joined last)
    | _, _ => none

def kindName : Toml → String
  | .string _ _ => "string"
  | .integer _ _ => "integer"
  | .real _ _ => "float"
  | .bool _ _ => "boolean"
  | .moment _ => "datetime"
  | .array _ _ => "array"
  | .table _ .inline _ => "inline table"
  | .table _ _ _ => "table"
  | .tables _ => "array of tables"

/-! ## Building tables -/

abbrev Entries := List (String × Toml)

def writtenKeys (keys : List Key) : String :=
  ".".intercalate (keys.map Key.written)

def ticked (text : String) : String :=
  "\x60" ++ text ++ "\x60"

def duplicateKey (key : String) : String :=
  "duplicate key " ++ ticked key

def inTable : List Key → String
  | [] => " in document root"
  | keys => " in table " ++ ticked (writtenKeys keys)

def notTable (keys : List Key) (value : Toml) : String :=
  "dotted key " ++ ticked (writtenKeys keys) ++ " attempted to extend non-table type (" ++
    value.kindName ++ ")"

def updateEntry (name : String) (change : Option Toml → Except String Toml) :
    Entries → Except String Entries
  | [] => (change none).map fun value => [(name, value)]
  | (held, value) :: rest =>
    if held = name then (change (some value)).map fun value => (held, value) :: rest
    else (updateEntry name change rest).map ((held, value) :: ·)

def updateLast (change : Entries → Except String Entries) : List Toml → Except String (List Toml)
  | [] => .ok []
  | [.table span kind entries] => (change entries).map fun entries => [.table span kind entries]
  | element :: rest => (updateLast change rest).map (element :: ·)

/-! ## Entries -/

/-- Whether a dotted key may go on into a table of a kind; `isLast` where the
value is set right in it. -/
def mayExtend (isLast : Bool) : TableKind → Bool
  | .dotted => true
  | .implied => !isLast
  | .header | .inline => false

/-- Sets a value under a dotted key. `above` holds the sections in front of it,
and `place` says where a duplicate would be. -/
def addEntry (place : String) (value : Toml) :
    (above keys : List Key) → Entries → Except String Entries
  | _, [], entries => .ok entries
  | _, [key], entries =>
    updateEntry key.name (fun
      | none => .ok value
      | some _ => .error (duplicateKey key.name ++ place)) entries
  | above, key :: next :: rest, entries =>
    updateEntry key.name (fun
      | none =>
        (addEntry place value (above ++ [key]) (next :: rest) []).map (.table key.span .dotted)
      | some (.table span kind children) =>
        if mayExtend rest.isEmpty kind then
          (addEntry place value (above ++ [key]) (next :: rest) children).map (.table span kind)
        else if kind = .implied then .error (duplicateKey next.name)
        else .error (duplicateKey key.name)
      | some (.tables elements) =>
        if rest.isEmpty then .error (duplicateKey next.name)
        else
          (updateLast (addEntry place value (above ++ [key]) (next :: rest)) elements).map .tables
      | some held => .error (notTable (above ++ [key]) held)) entries

/-! ## Headers -/

def openTable (isElement : Bool) (span : Span) :
    (above keys : List Key) → Entries → Except String Entries
  | _, [], entries => .ok entries
  | above, [key], entries =>
    updateEntry key.name (fun held =>
      match isElement, held with
      | false, none => .ok (.table span .header [])
      | false, some (.table _ .implied children) => .ok (.table span .header children)
      | true, none => .ok (.tables [.table span .header []])
      | true, some (.tables elements) => .ok (.tables (elements ++ [.table span .header []]))
      | _, some _ => .error (duplicateKey key.written ++ inTable above)) entries
  | above, key :: next :: rest, entries =>
    updateEntry key.name (fun
      | none =>
        (openTable isElement span (above ++ [key]) (next :: rest) []).map
          (.table key.span .implied)
      | some (.table held .inline children) =>
        .error (notTable (above ++ [key]) (.table held .inline children))
      | some (.table held kind children) =>
        (openTable isElement span (above ++ [key]) (next :: rest) children).map (.table held kind)
      | some (.tables elements) =>
        (updateLast (openTable isElement span (above ++ [key]) (next :: rest)) elements).map
          .tables
      | some held => .error (notTable (above ++ [key]) held)) entries

/-- Changes the entries of the table that the last header has opened, which then
reaches up to `stop`. -/
def updateOpened (stop : Nat) (change : Entries → Except String Entries) :
    (header : List Key) → Entries → Except String Entries
  | [], entries => change entries
  | key :: rest, entries =>
    updateEntry key.name (fun
      | some (.table span kind children) =>
        let reached := if rest.isEmpty then ⟨span.start, stop⟩ else span
        (updateOpened stop change rest children).map (.table reached kind)
      | some (.tables elements) =>
        (updateLast (updateOpened stop change rest) elements).map .tables
      | some held => .error (notTable [key] held)
      | none => .error (duplicateKey key.name)) entries

end Toml

end MetricQuery
