import MetricQuery.Command.Arguments

/-!
# Invocations

The commands and their options, and how the arguments of a run become one of
them.
-/

set_option autoImplicit false

namespace MetricQuery.Command

structure QueryOptions where
  collection : String
  /-- Metric paths, with dots between their segments, or `ALL`. -/
  selections : List String
  /-- Functions, with their arguments behind a colon. -/
  functions : List String
  tags : List String
  label : Option String
  last : Option String
  beginning : Option String
  ending : Option String
  /-- Names and values with an equals sign between them. -/
  bindings : List String
  deriving DecidableEq, Repr

inductive Action where
  | render (query : QueryOptions) (asDocument : Bool)
  /-- Executes a query, at another endpoint or in another confidence mode than set
  up. -/
  | execute (query : QueryOptions) (url confidence : Option String)
  /-- Writes the default settings to a file, or prints them. -/
  | writeSettings (path : Option String)
  deriving DecidableEq, Repr

structure Invocation where
  action : Action
  settingsPath : Option String
  deriving DecidableEq, Repr

/-! ## Options -/

def settingsOption : OptionForm := ⟨"config", some 'c', .path⟩

def queryOptions : List OptionForm := [
  ⟨"from", some 'f', .single⟩, ⟨"select", some 's', .repeatable⟩,
  ⟨"apply", some 'a', .repeatable⟩, ⟨"annotate", none, .repeatable⟩,
  ⟨"label", none, .single⟩, ⟨"last", some 'l', .single⟩, ⟨"beginning", none, .single⟩,
  ⟨"ending", none, .single⟩, ⟨"var", none, .repeatable⟩]

def topLevel : Level := ⟨[settingsOption], true⟩

def renderLevel : Level :=
  ⟨settingsOption :: ⟨"json", none, .flag⟩ :: queryOptions, false⟩

def executeLevel : Level :=
  ⟨settingsOption :: ⟨"url", none, .single⟩ :: ⟨"confidence", none, .single⟩ :: queryOptions, false⟩

def writeSettingsLevel : Level :=
  ⟨[settingsOption, ⟨"output", some 'o', .path⟩], false⟩

/-! ## Reading -/

def QueryOptions.ofGiven (given : Given) : Except Halt QueryOptions :=
  match given.get? "from", given.all "select" with
  | some collection, first :: more =>
    .ok {
      collection := collection
      selections := first :: more
      functions := given.all "apply"
      tags := given.all "annotate"
      label := given.get? "label"
      last := given.get? "last"
      beginning := given.get? "beginning"
      ending := given.get? "ending"
      bindings := given.all "var" }
  | _, _ => .error .usage

def optionsOf (level : Level) (arguments : List String) : Except Halt Given :=
  (readArguments level [] arguments).map Prod.fst

def Action.ofCommand (name : String) (arguments : List String) :
    Except Halt (Action × Option String) :=
  match name with
  | "render" => do
    let given ← optionsOf renderLevel arguments
    let query ← QueryOptions.ofGiven given
    return (.render query (given.has "json"), given.get? "config")
  | "exec" => do
    let given ← optionsOf executeLevel arguments
    let query ← QueryOptions.ofGiven given
    return (.execute query (given.get? "url") (given.get? "confidence"), given.get? "config")
  | "config" => do
    let given ← optionsOf writeSettingsLevel arguments
    return (.writeSettings (given.get? "output"), given.get? "config")
  | "help" =>
    match arguments with
    | [] | ["render"] | ["exec"] | ["config"] | ["help"] => .error .help
    | _ => .error .usage
  | _ => .error .usage

/-- The invocation that arguments describe. A settings file named behind the
command counts before one in front of it. -/
def Invocation.ofArguments (arguments : List String) : Except Halt Invocation :=
  match readArguments topLevel [] arguments with
  | .error halt => .error halt
  | .ok (_, none) => .error .usage
  | .ok (given, some (name, rest)) =>
    match Action.ofCommand name rest with
    | .error halt => .error halt
    | .ok (action, named) => .ok ⟨action, named.orElse fun _ => given.get? "config"⟩

end MetricQuery.Command
