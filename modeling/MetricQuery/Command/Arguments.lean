import MetricQuery.Bindings

/-!
# Command-line arguments

Options have a long name, and some a short one. A value stands behind an equals
sign, right behind a short name, or in the next argument, which then must not
look like an option. All but repeatable options stand at most once.
-/

set_option autoImplicit false

namespace MetricQuery.Command

inductive OptionKind where
  | flag
  | single
  | repeatable
  | path
  deriving DecidableEq, Repr

structure OptionForm where
  long : String
  short : Option Char
  kind : OptionKind
  deriving DecidableEq, Repr

inductive Halt where
  | help
  | version
  | usage
  deriving DecidableEq, Repr

structure Level where
  options : List OptionForm
  takesCommand : Bool
  deriving DecidableEq, Repr

abbrev Given := List (String × String)

namespace Given

def all (given : Given) (long : String) : List String :=
  (given.filter fun entry => entry.1 == long).map Prod.snd

def get? (given : Given) (long : String) : Option String :=
  given.lookup long

def has (given : Given) (long : String) : Bool :=
  (given.get? long).isSome

end Given

/-- Whether an argument can be a value by itself. A dash alone can. -/
def isPlain (argument : String) : Bool :=
  argument == "-" || argument.toList.head? != some '-'

inductive Piece where
  /-- Two dashes alone: no options follow. -/
  | stop
  | long (name : String) (attached : Option String)
  | short (name : Char) (attached : List Char)
  | plain (text : String)
  deriving DecidableEq, Repr

def cutAtEquals (text : List Char) : String × Option String :=
  match text.span (· != '=') with
  | (name, _ :: value) => (String.ofList name, some (String.ofList value))
  | (name, []) => (String.ofList name, none)

def Piece.ofArgument (argument : String) : Piece :=
  match argument.toList with
  | ['-', '-'] => .stop
  | '-' :: '-' :: rest =>
    let (name, attached) := cutAtEquals rest
    .long name attached
  | '-' :: c :: rest => .short c rest
  | _ => .plain argument

/-- What is attached to a short name: nothing, or a value with or without an
equals sign in front. -/
def attachedValue : List Char → Option String
  | [] => none
  | '=' :: value => some (String.ofList value)
  | value => some (String.ofList value)

namespace Level

def longForm? (level : Level) (name : String) : Option OptionForm :=
  level.options.find? fun form => form.long == name

def shortForm? (level : Level) (name : Char) : Option OptionForm :=
  level.options.find? fun form => form.short == some name

/-- What the options for help and version stand for; the version is only asked
for in front of a command. -/
def halt? (level : Level) (name : String) : Option Halt :=
  if name == "help" then some .help
  else if name == "version" && level.takesCommand then some .version
  else none

def shortHaltName : Char → String
  | 'h' => "help"
  | 'V' => "version"
  | _ => ""

end Level

inductive Demand where
  /-- Nothing; no options follow. -/
  | stop
  | command (name : String)
  | option (form : OptionForm) (value : String)
  | valued (form : OptionForm)
  deriving DecidableEq, Repr

def OptionForm.demand (form : OptionForm) (attached : Option String) : Except Halt Demand :=
  match form.kind, attached with
  | .flag, none => .ok (.option form "")
  | .flag, some _ => .error .usage
  | _, some value => .ok (.option form value)
  | _, none => .ok (.valued form)

def Level.demand (level : Level) (argument : String) : Except Halt Demand :=
  match Piece.ofArgument argument with
  | .stop => .ok .stop
  | .plain name => if level.takesCommand then .ok (.command name) else .error .usage
  | .long name attached =>
    match level.halt? name, level.longForm? name with
    | some halt, _ => .error (if attached.isNone then halt else .usage)
    | none, some form => form.demand attached
    | none, none => .error .usage
  | .short name attached =>
    match level.halt? (Level.shortHaltName name), level.shortForm? name with
    | some halt, _ => .error halt
    | none, some form => form.demand (attachedValue attached)
    | none, none => .error .usage

def addOption (given : Given) (form : OptionForm) (value : String) : Except Halt Given :=
  if form.kind != .repeatable && given.has form.long then .error .usage
  else if form.kind = .path && value.isEmpty then .error .usage
  else .ok (given ++ [(form.long, value)])

/-- Reads arguments. The result is what was given, and where a command follows,
its name and the arguments behind it. -/
def readArguments (level : Level) (given : Given) :
    List String → Except Halt (Given × Option (String × List String))
  | [] => .ok (given, none)
  | argument :: rest =>
    match level.demand argument with
    | .error halt => .error halt
    | .ok .stop => if rest.isEmpty then .ok (given, none) else .error .usage
    | .ok (.command name) => .ok (given, some (name, rest))
    | .ok (.option form value) =>
      match addOption given form value with
      | .ok given => readArguments level given rest
      | .error halt => .error halt
    | .ok (.valued form) =>
      match rest with
      | [] => .error .usage
      | value :: rest =>
        if isPlain value then
          match addOption given form value with
          | .ok given => readArguments level given rest
          | .error halt => .error halt
        else .error .usage

end MetricQuery.Command
