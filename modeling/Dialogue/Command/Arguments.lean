import Dialogue.Command

/-! # Arguments

A command line is a verb with options in front of it and behind it. An option is a word behind two
dashes or a letter behind one; letters can be written together. The operand of an option follows an
equals sign, or directly the letter, or else is the next argument. No option can be given twice in
one place, and one behind the verb prevails over the same option in front of it. -/

namespace Dialogue

inductive CommandOption where
  | config
  | verbose
  | help
  | version
  | script
  | file
  | recap
  | trace
  | json
  deriving DecidableEq

/-- What an option is followed by. A path is not empty. -/
inductive Operand where
  | nothing
  | text
  | path
  deriving DecidableEq

namespace CommandOption

def long : CommandOption → String
  | .config => "config"
  | .verbose => "verbose"
  | .help => "help"
  | .version => "version"
  | .script => "script"
  | .file => "file"
  | .recap => "recap"
  | .trace => "trace"
  | .json => "json"

def short : CommandOption → Option Char
  | .verbose => some 'v'
  | .help => some 'h'
  | .version => some 'V'
  | .file => some 'f'
  | .recap => some 'r'
  | _ => none

def operand : CommandOption → Operand
  | .config | .file => .path
  | .script => .text
  | _ => .nothing

def takesOperand (o : CommandOption) : Bool := o.operand != .nothing

/-- The options that stand in front of the verb. -/
def general : List CommandOption := [.config, .verbose, .help, .version]

end CommandOption

inductive Verb where
  | play
  | dump
  | scripts
  deriving DecidableEq

namespace Verb

def ofText? : String → Option Verb
  | "play" => some .play
  | "dump" => some .dump
  | "scripts" => some .scripts
  | _ => none

/-- The options that stand behind a verb. -/
def options : Verb → List CommandOption
  | .play => [.config, .verbose, .help, .script, .file, .recap, .trace]
  | .dump => [.config, .verbose, .help, .script, .json]
  | .scripts => [.config, .verbose, .help]

end Verb

/-- The shapes of an argument. -/
inductive Argument where
  | plain
  /-- Two dashes, behind which there are no options. -/
  | separator
  | long (name : String) (operand : Option String)
  | letters (cs : List Char)
  deriving DecidableEq

def Argument.ofText (arg : String) : Argument :=
  match arg.toList with
  | ['-', '-'] => .separator
  | '-' :: '-' :: cs =>
    let name := String.ofList (cs.takeWhile (· != '='))
    match cs.dropWhile (· != '=') with
    | [] => .long name none
    | _ :: operand => .long name (some (String.ofList operand))
  | '-' :: c :: cs => .letters (c :: cs)
  | _ => .plain

/-- Options that have been given, each with its operand. -/
abbrev Given := List (CommandOption × String)

namespace Given

def has (given : Given) (o : CommandOption) : Bool := (given.lookup o).isSome

/-- Adds an option. The requests for help and for the version are answered as soon as they are
read, whatever follows them. -/
def add (given : Given) (o : CommandOption) (operand : String) : Except Request Given :=
  if o = .help then .error .help
  else if o = .version then .error .version
  else if given.has o || (o.operand == .path && operand.isEmpty) then .error .misuse
  else .ok ((o, operand) :: given)

/-- Adds options written as letters. The second part of the answer is an option that awaits its
operand. -/
def addLetters (known : List CommandOption) (given : Given) :
    List Char → Except Request (Given × Option CommandOption)
  | [] => .ok (given, none)
  | c :: cs =>
    match known.find? (·.short == some c) with
    | none => .error .misuse
    | some o =>
      if o.takesOperand then
        match cs with
        | [] => .ok (given, some o)
        | '=' :: cs => return (← given.add o (String.ofList cs), none)
        | cs => return (← given.add o (String.ofList cs), none)
      else do addLetters known (← given.add o "") cs

/-- Adds an option written as a word. -/
def addLong (known : List CommandOption) (given : Given) (name : String) (operand : Option String) :
    Except Request (Given × Option CommandOption) :=
  match known.find? (·.long == name) with
  | none => .error .misuse
  | some o =>
    match o.takesOperand, operand with
    | true, none => .ok (given, some o)
    | true, some operand => return (← given.add o operand, none)
    | false, none => return (← given.add o "", none)
    | false, some _ => .error .misuse

/-- Reads options up to the first plain argument, which comes back with all that follow it. -/
def read (known : List CommandOption) (given : Given) :
    List String → Except Request (Given × List String)
  | [] => .ok (given, [])
  | arg :: args => do
    let (given, awaiting) ← match Argument.ofText arg with
      | .plain => return (given, arg :: args)
      | .separator => if args.isEmpty then return (given, []) else .error .misuse
      | .long name operand => addLong known given name operand
      | .letters cs => addLetters known given cs
    match awaiting, args with
    | none, args => read known given args
    | some _, [] => .error .misuse
    | some o, operand :: args =>
      if Argument.ofText operand = .plain then read known (← given.add o operand) args
      else .error .misuse

end Given

/-- The command for a verb with its options. -/
def Verb.command (given : Given) : Verb → Command
  | .play =>
    .play
      { config := given.lookup .config
        script := (given.lookup .script).getD Script.standardName
        file := given.lookup .file
        recap := given.has .recap }
  | .dump => .dump ((given.lookup .script).getD Script.standardName) (given.has .json)
  | .scripts => .scripts

namespace Request

/-- Help can be asked for on one verb or on help itself. -/
def ofTopics : List String → Request
  | [] => .help
  | [topic] => if topic = "help" || (Verb.ofText? topic).isSome then .help else .misuse
  | _ => .misuse

/-- Reads what stands behind the verb. -/
def ofVerb (before : Given) (verb : Verb) (args : List String) : Except Request Command := do
  let (behind, extra) ← Given.read verb.options [] args
  if extra.isEmpty then return verb.command (behind ++ before) else .error .misuse

/-- Reads a command line. -/
def ofArguments (args : List String) : Request :=
  match Given.read CommandOption.general [] args with
  | .error r => r
  | .ok (_, []) => .misuse
  | .ok (before, name :: args) =>
    if name = "help" then ofTopics args
    else
      match Verb.ofText? name with
      | none => .misuse
      | some verb =>
        match ofVerb before verb args with
        | .ok c => .command c
        | .error r => r

end Request

end Dialogue
