/-! # Arguments of the command line

The first word names a command. Options may stand before it, where they hold for every command, and
after it, between its other arguments; after `--` nothing is an option. An option stands at most
once on either side of the command's name.
-/

namespace StoreQuery.CommandLine

inductive Command where
  | parse (json : Bool)
  | format
  | params
  deriving DecidableEq, Repr

inductive Source where
  | inline (text : String)
  | file (path : String)
  | standardInput
  deriving DecidableEq, Repr

structure Invocation where
  command : Command
  source : Source
  verbose : Bool
  deriving DecidableEq, Repr

inductive UsageFault where
  | helpWanted
  | versionWanted
  | nothingGiven
  | noCommand
  | unknownCommand
  | unknownArgument
  | conflict
  | noValue
  | valueNotTaken
  deriving DecidableEq, Repr

inductive Switch where
  | verbose
  | json
  | file
  | help
  | version
  deriving DecidableEq, Repr

namespace Switch

def long : Switch → String
  | verbose => "verbose"
  | json => "json"
  | file => "file"
  | help => "help"
  | version => "version"

def short? : Switch → Option Char
  | verbose => some 'v'
  | json => none
  | file => some 'f'
  | help => some 'h'
  | version => some 'V'

end Switch

inductive CommandName where
  | parse
  | format
  | params
  deriving DecidableEq, Repr

namespace CommandName

def word : CommandName → String
  | parse => "parse"
  | format => "format"
  | params => "params"

def all : List CommandName := [parse, format, params]

def ofWord? (s : String) : Option CommandName :=
  all.find? (·.word == s)

def switches : CommandName → List Switch
  | parse => [.json, .file, .verbose, .help]
  | format | params => [.file, .verbose, .help]

end CommandName

def generalSwitches : List Switch := [.verbose, .help, .version]

inductive Shape where
  | dashes
  | long (name : String) (value : Option String)
  | short (names : List Char)
  | word (s : String)
  deriving DecidableEq, Repr

/-- The look of an argument. A single dash is a word. -/
def Shape.of (arg : String) : Shape :=
  match arg.toList with
  | ['-', '-'] => .dashes
  | '-' :: '-' :: cs =>
    let name := String.ofList (cs.takeWhile (· != '='))
    match cs.dropWhile (· != '=') with
    | [] => .long name none
    | _ :: value => .long name (some (String.ofList value))
  | '-' :: c :: cs => .short (c :: cs)
  | _ => .word arg

/-- A file option that has not been looked at yet: it waits for its value, or has one. -/
inductive Pending where
  | nothing
  | waiting
  | value (path : String)
  deriving DecidableEq, Repr

structure Given where
  verbose : Bool
  json : Bool
  file : Option String
  query : Option String
  pending : Pending
  deriving DecidableEq, Repr

namespace Given

def empty : Given := ⟨false, false, none, none, .nothing⟩

/-- A file option that is complete is taken over: it must have a value, be the only one, and its
value must not be empty. -/
def settle (g : Given) : Except UsageFault Given :=
  match g.pending with
  | .nothing => .ok g
  | .waiting => .error .noValue
  | .value path =>
    if g.file.isSome then .error .conflict
    else if path.isEmpty then .error .noValue
    else .ok { g with file := some path, pending := .nothing }

def switch (g : Given) (s : Switch) : Except UsageFault Given := do
  let g ← g.settle
  match s with
  | .verbose => if g.verbose then .error .conflict else return { g with verbose := true }
  | .json => if g.json then .error .conflict else return { g with json := true }
  | .file => return { g with pending := .waiting }
  | .help => .error .helpWanted
  | .version => .error .versionWanted

def attach (g : Given) (path : String) : Except UsageFault Given := do
  let g ← g.settle
  settle { g with pending := .value path }

def readLong (switches : List Switch) (g : Given) (name : String) (value : Option String) :
    Except UsageFault Given :=
  match switches.find? (·.long == name), value with
  | none, _ => .error .unknownArgument
  | some .file, some path => g.attach path
  | some _, some _ => .error .valueNotTaken
  | some s, none => g.switch s

/-- Options by their short names. What follows the name of the file option is its value. -/
def readShort (switches : List Switch) (g : Given) : List Char → Except UsageFault Given
  | [] => .ok g
  | c :: cs =>
    match switches.find? (·.short? == some c), cs with
    | none, _ => .error .unknownArgument
    | some .file, '=' :: path => g.attach (String.ofList path)
    | some .file, [] => g.switch .file
    | some .file, path => g.attach (String.ofList path)
    | some s, cs => do readShort switches (← g.switch s) cs

def addQuery (g : Given) (s : String) : Except UsageFault Given :=
  if g.query.isSome then .error .unknownArgument
  else do
    let g ← g.settle
    return { g with query := some s }

/-- A word that is no option: the value of a file option that waits for one, or a query. -/
def addWord (g : Given) (s : String) : Except UsageFault Given :=
  if g.pending = .waiting then .ok { g with pending := .value s } else g.addQuery s

def readAll (switches : List Switch) (g : Given) : List String → Except UsageFault Given
  | [] => g.settle
  | arg :: args =>
    match Shape.of arg with
    | .dashes => do (← args.foldlM addQuery g).settle
    | .long name value => do readAll switches (← g.readLong switches name value) args
    | .short names => do readAll switches (← g.readShort switches names) args
    | .word s => do readAll switches (← g.addWord s) args

/-- Where the text comes from. A query and a file exclude each other. -/
def source (g : Given) : Except UsageFault Source :=
  match g.query, g.file with
  | some text, none => .ok (.inline text)
  | none, some path => .ok (.file path)
  | none, none => .ok .standardInput
  | some _, some _ => .error .conflict

end Given

def Invocation.ofGiven (name : CommandName) (before after : Given) :
    Except UsageFault Invocation := do
  let source ← after.source
  let command :=
    match name with
    | .parse => Command.parse after.json
    | .format => .format
    | .params => .params
  return ⟨command, source, before.verbose || after.verbose⟩

def withoutCommand (g : Given) : UsageFault :=
  if g.verbose then .noCommand else .nothingGiven

def helpWord : String := "help"

def isCommandWord (s : String) : Bool :=
  s == helpWord || (CommandName.ofWord? s).isSome

/-- What the word for help and the words after it ask for: help, if at most one command is named. -/
def helpOn : List String → UsageFault
  | [] => .helpWanted
  | [s] => if isCommandWord s then .helpWanted else .unknownCommand
  | _ => .unknownCommand

/-- What follows the dashes before a command's name, where no command can be named any more. -/
def afterDashes (g : Given) : List String → UsageFault
  | [] => withoutCommand g
  | s :: _ => if isCommandWord s then .unknownArgument else .unknownCommand

def readFrom (g : Given) : List String → Except UsageFault Invocation
  | [] => .error (withoutCommand g)
  | arg :: args =>
    match Shape.of arg with
    | .dashes => .error (afterDashes g args)
    | .long name value => do readFrom (← g.readLong generalSwitches name value) args
    | .short names => do readFrom (← g.readShort generalSwitches names) args
    | .word s =>
      if s = helpWord then .error (helpOn args)
      else
        match CommandName.ofWord? s with
        | some name => do Invocation.ofGiven name g (← Given.empty.readAll name.switches args)
        | none => .error .unknownCommand

def Invocation.ofArguments (args : List String) : Except UsageFault Invocation :=
  readFrom .empty args

end StoreQuery.CommandLine
