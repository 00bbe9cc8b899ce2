import MetricQuery.Json.Reader
import MetricQuery.Toml.Fault

/-!
# Blanks and strings of TOML

White space, comments and line ends, and the four kinds of string: with or
without escapes, on one line or on several. A line break in a string is always
one line feed.
-/

set_option autoImplicit false

namespace MetricQuery.Toml

/-! ## Blanks -/

def isSpace (c : Char) : Bool :=
  c == ' ' || c == '\t'

def skipSpace (text : List Char) : List Char :=
  text.dropWhile isSpace

/-- Characters of comments and literal strings: no controls but the tab. -/
def isShown (c : Char) : Bool :=
  c == '\t' || (0x20 ≤ c.toNat && c.toNat != 0x7F)

def afterNewline? : List Char → Option (List Char)
  | '\n' :: rest => some rest
  | '\r' :: '\n' :: rest => some rest
  | _ => none

def skipComment : List Char → List Char
  | '#' :: rest => rest.dropWhile isShown
  | text => text

def lineEnd : Reader Unit := fun text =>
  match text, afterNewline? text with
  | [], _ => .ok ((), [])
  | _, some rest => .ok ((), rest)
  | _, none => .error (Fault.here text)

/-- What may follow on a line: blanks and a comment. -/
def lineRest : Reader Unit := fun text =>
  lineEnd (skipComment (skipSpace text))

def lineRestNames : List String := ["newline", "\x60#\x60"]

def skipLines : (fuel : Nat) → List Char → List Char
  | 0, text => text
  | fuel + 1, text =>
    let text := skipSpace text
    match afterNewline? (skipComment text) with
    | some rest => skipLines fuel rest
    | none => text

/-! ## Escapes -/

def escapeNames : List String :=
  ["b", "f", "n", "r", "t", "u", "U", "\\", "\""].map fun name => "\x60" ++ name ++ "\x60"

def hexChar (count : Nat) (label : String) : Reader Char := fun text =>
  let digits := (text.take count).takeWhile fun c => (Json.hexValue? c).isSome
  let code := digits.foldl (fun total c => total * 16 + (Json.hexValue? c).getD 0) 0
  if digits.length = count && Nat.isValidChar code then
    .ok (Char.ofNat code, text.drop count)
  else .error ((Fault.here text).within label).firm

def escapedChar : Reader Char
  | 'b' :: rest => .ok ('\x08', rest)
  | 't' :: rest => .ok ('\t', rest)
  | 'n' :: rest => .ok ('\n', rest)
  | 'f' :: rest => .ok ('\x0c', rest)
  | 'r' :: rest => .ok ('\r', rest)
  | '"' :: rest => .ok ('"', rest)
  | '\\' :: rest => .ok ('\\', rest)
  | 'u' :: rest => hexChar 4 "unicode 4-digit hex code" rest
  | 'U' :: rest => hexChar 8 "unicode 8-digit hex code" rest
  | text =>
    .error (((Fault.here text).within "escape sequence").expecting escapeNames).firm

/-- The text behind a backslash at the end of a line and all blanks after it. -/
def afterContinuation? (fuel : Nat) (text : List Char) : Option (List Char) :=
  match afterNewline? (skipSpace text) with
  | some rest => some (skipBlankLines fuel rest)
  | none => none
where
  skipBlankLines : Nat → List Char → List Char
    | 0, text => text
    | fuel + 1, text =>
      match afterNewline? (skipSpace text) with
      | some rest => skipBlankLines fuel rest
      | none => skipSpace text

/-! ## Strings -/

def prependChar (c : Char) (result : Except Fault (List Char × List Char)) :
    Except Fault (List Char × List Char) :=
  result.map fun (characters, rest) => (c :: characters, rest)

def unfinished (label : String) (text : List Char) : Fault :=
  ((Fault.here text).within label).firm

def basicString : (fuel : Nat) → Reader (List Char)
  | 0, text => .error (Fault.here text)
  | _ + 1, '"' :: rest => .ok ([], rest)
  | fuel + 1, '\\' :: rest =>
    match escapedChar rest with
    | .ok (c, rest) => prependChar c (basicString fuel rest)
    | .error fault => .error fault
  | fuel + 1, c :: rest =>
    if isShown c then prependChar c (basicString fuel rest)
    else .error (unfinished "basic string" (c :: rest))
  | _ + 1, [] => .error (unfinished "basic string" [])

def literalString : Reader (List Char)
  | '\'' :: rest => .ok ([], rest)
  | c :: rest =>
    if isShown c then prependChar c (literalString rest)
    else .error (unfinished "literal string" (c :: rest))
  | [] => .error (unfinished "literal string" [])

/-- A string on several lines ends in three quotes, in front of which one or two
more belong to it. -/
def closeLines? (quote : Char) : List Char → Option (List Char × List Char)
  | a :: b :: c :: rest =>
    if a = quote && b = quote && c = quote then
      match rest with
      | d :: e :: rest' =>
        if d = quote && e = quote then some ([quote, quote], rest')
        else if d = quote then some ([quote], e :: rest')
        else some ([], rest)
      | [d] => if d = quote then some ([quote], []) else some ([], rest)
      | [] => some ([], [])
    else none
  | _ => none

def basicLines : (fuel : Nat) → Reader (List Char)
  | 0, text => .error (Fault.here text)
  | fuel + 1, text =>
    match closeLines? '"' text, afterNewline? text, text with
    | some result, _, _ => .ok result
    | none, some rest, _ => prependChar '\n' (basicLines fuel rest)
    | none, none, '\\' :: rest =>
      match afterContinuation? rest.length rest with
      | some rest => basicLines fuel rest
      | none =>
        match escapedChar rest with
        | .ok (c, rest) => prependChar c (basicLines fuel rest)
        | .error fault => .error fault
    | none, none, c :: rest =>
      if isShown c then prependChar c (basicLines fuel rest)
      else .error (unfinished "multiline basic string" text)
    | none, none, [] => .error (unfinished "multiline basic string" [])

def literalLines : (fuel : Nat) → Reader (List Char)
  | 0, text => .error (Fault.here text)
  | fuel + 1, text =>
    match closeLines? '\'' text, afterNewline? text, text with
    | some result, _, _ => .ok result
    | none, some rest, _ => prependChar '\n' (literalLines fuel rest)
    | none, none, c :: rest =>
      if isShown c then prependChar c (literalLines fuel rest)
      else .error (unfinished "multiline literal string" text)
    | none, none, [] => .error (unfinished "multiline literal string" [])

/-- A line break right behind the opening quotes does not belong to the string. -/
def skipFirstNewline (text : List Char) : List Char :=
  (afterNewline? text).getD text

def anyString : Reader String := fun text =>
  let read : Except Fault (List Char × List Char) :=
    match text with
    | '"' :: '"' :: '"' :: rest => basicLines (rest.length + 1) (skipFirstNewline rest)
    | '"' :: rest => basicString (rest.length + 1) rest
    | '\'' :: '\'' :: '\'' :: rest => literalLines (rest.length + 1) (skipFirstNewline rest)
    | '\'' :: rest => literalString rest
    | _ => .error (Fault.here text)
  read.map fun (characters, rest) => (String.ofList characters, rest)

/-! ## Keys -/

structure Key where
  name : String
  written : String
  span : Span
  deriving DecidableEq, Repr

def isBareChar (c : Char) : Bool :=
  c.isAlphanum || c == '-' || c == '_'

def keyName : Reader (List Char)
  | '"' :: rest => basicString (rest.length + 1) rest
  | '\'' :: rest => literalString rest
  | text =>
    match text.span isBareChar with
    | ([], _) => .error (Fault.here text)
    | result => .ok result

def keySection : Reader Key := fun text =>
  let text := skipSpace text
  match keyName text with
  | .error fault => .error fault
  | .ok (name, rest) =>
    let written := text.take (text.length - rest.length)
    .ok (⟨String.ofList name, String.ofList written, .between text rest⟩, skipSpace rest)

def moreSections : (fuel : Nat) → List Char → Except Fault (List Key × List Char)
  | 0, text => .ok ([], text)
  | fuel + 1, text =>
    match text with
    | '.' :: rest =>
      match keySection rest with
      | .error fault => if fault.isFirm then .error fault else .ok ([], text)
      | .ok (key, rest) =>
        match moreSections fuel rest with
        | .error fault => .error fault
        | .ok (keys, rest) => .ok (key :: keys, rest)
    | _ => .ok ([], text)

def nestingLimit : Nat := 80

def tooDeep (text : List Char) : Fault :=
  Fault.because (Fault.here text).span "recursion limit exceeded"

def dottedKey : Reader (List Key) := fun text =>
  let read : Except Fault (List Key × List Char) :=
    match keySection text with
    | .error fault => .error fault
    | .ok (key, rest) =>
      (moreSections rest.length rest).map fun (keys, rest) => (key :: keys, rest)
  match read with
  | .error fault => .error (fault.within "key")
  | .ok (keys, rest) =>
    if nestingLimit ≤ keys.length then .error (tooDeep text) else .ok (keys, rest)

end MetricQuery.Toml
