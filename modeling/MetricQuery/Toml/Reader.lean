import MetricQuery.Toml.Number
import MetricQuery.Toml.Tables

/-!
# Reading TOML

A text is read line by line, and each line added to the tables at once, so that
the first fault of the text counts.
-/

set_option autoImplicit false

namespace MetricQuery.Toml

/-! ## Values -/

def noValue (text : List Char) : Fault :=
  ((Fault.here text).within "string").expecting ["\x60\"\x60", "\x60'\x60"]

def afterWord? : (word text : List Char) → Option (List Char)
  | [], text => some text
  | expected :: word, c :: rest => if expected = c then afterWord? word rest else none
  | _ :: _, [] => none

def wordValue (word : String) (value : Span → Toml) : Reader Toml := fun text =>
  match afterWord? word.toList text with
  | some rest => .ok (value (.between text rest), rest)
  | none => .error (noValue text).firm

def numberValue : Reader Toml := fun text =>
  let moment : Reader Toml := fun text =>
    (readMoment text).map fun (_, rest) => (.moment (.between text rest), rest)
  let real : Reader Toml := fun text =>
    (readFloat text).map fun (x, rest) => (.real (.between text rest) x, rest)
  let integer : Reader Toml := fun text =>
    (readInteger text).map fun (n, rest) => (.integer (.between text rest) n, rest)
  (moment.orElse ((real.labeled "floating-point number").orElse integer)) text

def readItems (value : Reader Toml) : (fuel : Nat) → Reader (List Toml)
  | 0, text => .error (Fault.here text)
  | fuel + 1, text =>
    let start := skipLines text.length text
    let close (items : List Toml) (text : List Char) : Except Fault (List Toml × List Char) :=
      match skipLines text.length text with
      | ']' :: rest => .ok (items, rest)
      | rest => .error (((Fault.here rest).within "array").expecting ["\x60]\x60"]).firm
    match value start with
    | .error fault => if fault.isFirm then .error fault else close [] text
    | .ok (item, rest) =>
      match skipLines rest.length rest with
      | ',' :: rest => (readItems value fuel rest).map fun (items, rest) => (item :: items, rest)
      | rest => close [item] rest

def assigned (value : Reader Toml) : Reader Toml
  | '=' :: rest => (value (skipSpace rest)).map fun (held, rest) => (held, skipSpace rest)
  | text => .error ((Fault.here text).expecting ["\x60.\x60", "\x60=\x60"])

/-- The entries between braces, from behind the opening one, and whether another
one has to follow. -/
def readPairs (value : Reader Toml) : (fuel : Nat) → Reader (List (List Key × Toml))
  | 0, text => .error (Fault.here text)
  | fuel + 1, text =>
    match dottedKey text with
    | .error fault => if fault.isFirm then .error fault else .ok ([], text)
    | .ok (keys, rest) =>
      match (assigned value).firm rest with
      | .error fault => .error fault
      | .ok (held, rest) =>
        match rest with
        | ',' :: after =>
          match readPairs value fuel after with
          | .error fault => .error fault
          | .ok ([], _) => .ok ([(keys, held)], rest)
          | .ok (pairs, rest) => .ok ((keys, held) :: pairs, rest)
        | _ => .ok ([(keys, held)], rest)

def inlineEntries (pairs : List (List Key × Toml)) : Except String Entries :=
  pairs.foldlM (fun entries pair => addEntry "" pair.2 [] pair.1 entries) []

def readInline (value : Reader Toml) : Reader Entries := fun text =>
  match readPairs value (text.length + 1) text with
  | .error fault => .error fault.firm
  | .ok (pairs, rest) =>
    match inlineEntries pairs with
    | .error cause => .error (Fault.because (Fault.here text).span cause)
    | .ok entries =>
      match skipSpace rest with
      | '\x7d' :: rest => .ok (entries, rest)
      | rest => .error (((Fault.here rest).within "inline table").expecting ["\x60\x7d\x60"]).firm

/-- A value, with so many levels left to nest others in it. -/
def readValue : (room : Nat) → Reader Toml
  | room, text =>
    match text with
    | [] => .error (Fault.here [])
    | '[' :: rest =>
      match room with
      | 0 => .error (tooDeep text)
      | room + 1 =>
        (readItems (readValue room) (rest.length + 1) rest).map fun (items, rest) =>
          (.array (.between text rest) items, rest)
    | '\x7b' :: rest =>
      match room with
      | 0 => .error (tooDeep text)
      | room + 1 =>
        (readInline (readValue room) rest).map fun (entries, rest) =>
          (.table (.between text rest) .inline entries, rest)
    | 't' :: _ => wordValue "true" (.bool · true) text
    | 'f' :: _ => wordValue "false" (.bool · false) text
    | 'i' :: _ => wordValue "inf" (.real · (1.0 / 0.0)) text
    | 'n' :: _ => wordValue "nan" (.real · (0.0 / 0.0)) text
    | c :: _ =>
      if c == '"' || c == '\'' then
        (anyString text).map fun (held, rest) => (.string (.between text rest) held, rest)
      else if c == '+' || c == '-' || c.isDigit then numberValue text
      else if c == '_' then
        .error (((Fault.here text).within "integer").expecting ["leading digit"])
      else if c == '.' then
        .error (((Fault.here text).within "floating-point number").expecting ["leading digit"])
      else .error (noValue text)

/-! ## Lines -/

structure Draft where
  entries : Entries
  header : List Key

def lineAfter : Reader Unit :=
  lineRest.expecting lineRestNames

def readEntry (draft : Draft) (text : List Char) : Except Fault (Draft × List Char) :=
  match dottedKey text with
  | .error fault => .error fault
  | .ok (keys, rest) =>
    match assigned (readValue (nestingLimit - 1)) rest with
    | .error fault => .error fault
    | .ok (value, rest) =>
      match lineAfter rest with
      | .error fault => .error fault
      | .ok (_, after) =>
        let stop := (value.span?.map Span.stop).getD after.length
        match updateOpened stop (addEntry (inTable draft.header) value [] keys) draft.header
            draft.entries with
        | .ok entries => .ok ({ draft with entries := entries }, after)
        | .error cause => .error (Fault.because (Fault.here text).span cause)

/-- The header of a table, or of one of several where `isElement` is set. -/
def readHeader (isElement : Bool) (draft : Draft) (text : List Char) :
    Except Fault (Draft × List Char) :=
  let mark := if isElement then [']', ']'] else [']']
  match dottedKey (text.drop mark.length) with
  | .error fault => .error fault
  | .ok (keys, rest) =>
    match afterWord? mark rest with
    | none =>
      .error ((Fault.here rest).expecting ["\x60.\x60", "\x60" ++ String.ofList mark ++ "\x60"])
    | some after =>
      match lineAfter after with
      | .error fault => .error fault
      | .ok (_, rest) =>
        match openTable isElement (.between text after) [] keys draft.entries with
        | .ok entries => .ok (⟨entries, keys⟩, rest)
        | .error cause => .error (Fault.because (Fault.here text).span cause)

/-- One line, which starts with no blank and is not the end of the text. -/
def readLine (draft : Draft) (text : List Char) : Except Fault (Draft × List Char) :=
  match text with
  | '#' :: _ => (lineEnd (skipComment text)).map fun (_, rest) => (draft, rest)
  | '\n' :: _ | '\r' :: _ => (lineEnd text).map fun (_, rest) => (draft, rest)
  | '[' :: '[' :: _ => (readHeader true draft text).mapError (·.within "table header")
  | '[' :: _ => (readHeader false draft text).mapError (·.within "table header")
  | _ => readEntry draft text

def readAllLines : (fuel : Nat) → Draft → List Char → Except Fault Entries
  | 0, draft, _ => .ok draft.entries
  | fuel + 1, draft, text =>
    match skipSpace text with
    | [] => .ok draft.entries
    | text =>
      match readLine draft text with
      | .ok (draft, rest) => readAllLines fuel draft rest
      | .error fault => .error fault

def dropByteOrder : List Char → List Char
  | c :: rest => if c.toNat = 0xFEFF then rest else c :: rest
  | [] => []

def read (text : String) : Except Fault Entries :=
  let characters := dropByteOrder text.toList
  readAllLines (characters.length + 1) ⟨[], []⟩ characters

end MetricQuery.Toml
