import HeatingPlant.Net.Endpoint

/-!
# Options of the command line

What the words of a command line ask for.

## Main definitions

* `Options` — the choices that a command line makes
* `OptionName` — the options, and the words that name them
* `Invocation` — what a command line asks for
* `parse` — the invocation that words make

## Design notes

Words are judged from left to right, and the first that is wrong, or asks for help or the version,
decides.  A long option takes its value after an equals sign or as the next word; a short one takes
the rest of its word, with or without an equals sign, or the next word.  Short flags may share a
word.  The next word is no value if it starts with a hyphen, unless it is nothing else.  No option
may be given twice, and no word may stand by itself.  The environment's log file counts if the
command line names none.
-/

namespace HeatingPlant.CommandLine

/-- The options. -/
inductive OptionName where
  | config
  | listen
  | tickInterval
  | verbose
  | json
  | logFile
  | printConfig
  | help
  | version
  deriving DecidableEq, Repr

namespace OptionName

/-- All options. -/
def all : List OptionName :=
  [config, listen, tickInterval, verbose, json, logFile, printConfig, help, version]

/-- The long name, after its two hyphens. -/
def long : OptionName → String
  | config => "config"
  | listen => "listen"
  | tickInterval => "tick-ms"
  | verbose => "verbose"
  | json => "json"
  | logFile => "log-file"
  | printConfig => "print-config"
  | help => "help"
  | version => "version"

/-- The letter, after its hyphen. -/
def short? : OptionName → Option Char
  | config => some 'c'
  | listen => some 'l'
  | verbose => some 'v'
  | help => some 'h'
  | version => some 'V'
  | _ => none

/-- Whether the option takes a value. -/
def takesValue : OptionName → Bool
  | config | listen | tickInterval | logFile => true
  | _ => false

/-- The option with a long name. -/
def ofLong? (name : List Char) : Option OptionName :=
  all.find? fun option => option.long.toList = name

/-- The option with a letter. -/
def ofShort? (letter : Char) : Option OptionName :=
  all.find? fun option => option.short? = some letter

end OptionName

/-- The choices that a command line makes. -/
structure Options where
  /-- The settings file. -/
  config : Option String := none
  /-- Where to listen instead. -/
  listen : Option Endpoint := none
  /-- Milliseconds per tick instead. -/
  tickInterval : Option UInt64 := none
  /-- Whether the journal takes more. -/
  verbose : Bool := false
  /-- Whether the journal is written as JSON. -/
  json : Bool := false
  /-- File that the journal is appended to instead. -/
  logFile : Option String := none
  /-- Whether to print the settings and nothing else. -/
  printConfig : Bool := false
  deriving DecidableEq, Repr

/-- What a command line asks for. -/
inductive Invocation where
  /-- To run with some choices. -/
  | run (options : Options)
  /-- To be told how the program is used. -/
  | help
  /-- To be told its version. -/
  | version
  /-- Nothing that makes sense. -/
  | misuse
  deriving DecidableEq, Repr

/-- A whole number of 64 bits, with a plus sign or without. -/
def word64? (text : List Char) : Option UInt64 :=
  let digits := if text.head? = some '+' then text.drop 1 else text
  if digits.isEmpty ∨ digits.any (!·.isDigit) then none
  else
    let value := digits.foldl (fun value c => value * 10 + (c.toNat - 48)) 0
    if value ≤ 18446744073709551615 then some (UInt64.ofNat value) else none

/-- A path, which has at least one character. -/
def path? (text : String) : Option String := if text = "" then none else some text

namespace Options

/-- The choices with a flag set; `none` if it was set before. -/
def setFlag (options : Options) : OptionName → Option Options
  | .verbose => if options.verbose then none else some { options with verbose := true }
  | .json => if options.json then none else some { options with json := true }
  | .printConfig => if options.printConfig then none else some { options with printConfig := true }
  | _ => none

/-- The choices with a value set; `none` if one was set before or this one makes no sense. -/
def setValue (options : Options) (value : List Char) : OptionName → Option Options
  | .config =>
    if options.config.isSome then none
    else (path? (String.ofList value)).map fun path => { options with config := some path }
  | .listen =>
    if options.listen.isSome then none
    else (Endpoint.ofText? (String.ofList value)).map fun endpoint =>
      { options with listen := some endpoint }
  | .tickInterval =>
    if options.tickInterval.isSome then none
    else (word64? value).map fun interval => { options with tickInterval := some interval }
  | .logFile =>
    if options.logFile.isSome then none
    else (path? (String.ofList value)).map fun path => { options with logFile := some path }
  | _ => none

end Options

/-- What one word amounts to, after the words before it. -/
inductive Word where
  /-- These choices so far. -/
  | chosen (options : Options)
  /-- These choices so far, and an option whose value must come next. -/
  | awaiting (options : Options) (name : OptionName)
  /-- An answer without looking further. -/
  | decided (invocation : Invocation)

/-- The choices with a value set, or misuse. -/
def Word.ofValue (options : Options) (name : OptionName) (value : List Char) : Word :=
  match options.setValue value name with
  | some options => chosen options
  | none => decided .misuse

/-- What an option without a value in its word amounts to. -/
def Word.ofName (options : Options) (name : OptionName) : Word :=
  if name = .help then decided .help
  else if name = .version then decided .version
  else if name.takesValue then awaiting options name
  else
    match options.setFlag name with
    | some options => chosen options
    | none => decided .misuse

/-- What a word with a long name amounts to, without its two hyphens. -/
def Word.ofLong (options : Options) (text : List Char) : Word :=
  match OptionName.ofLong? (text.takeWhile (· ≠ '=')) with
  | none => decided .misuse
  | some name =>
    match text.dropWhile (· ≠ '=') with
    | _ :: value => if name.takesValue then ofValue options name value else decided .misuse
    | [] => ofName options name

/-- What a word of letters amounts to, without its hyphen. -/
def Word.ofLetters (options : Options) : List Char → Word
  | [] => chosen options
  | letter :: rest =>
    match OptionName.ofShort? letter with
    | none => decided .misuse
    | some name =>
      if name.takesValue then
        match rest with
        | [] => awaiting options name
        | '=' :: value => ofValue options name value
        | value => ofValue options name value
      else
        match ofName options name with
        | chosen options => ofLetters options rest
        | other => other

/-- What a word amounts to that no option waits for. -/
def Word.ofText (options : Options) : List Char → Word
  | '-' :: '-' :: name => ofLong options name
  | '-' :: letter :: letters => ofLetters options (letter :: letters)
  | _ => decided .misuse

/-- Whether a word may be the value of an option before it. -/
def mayBeValue (text : List Char) : Bool := text.head? ≠ some '-' || text = ['-']

/-- The invocation that the words make, after choices made before. -/
def parseFrom (options : Options) : List (List Char) → Invocation
  | [] => .run options
  | [['-', '-']] => .run options
  | text :: rest =>
    match Word.ofText options text with
    | .chosen options => parseFrom options rest
    | .decided invocation => invocation
    | .awaiting options name =>
      match rest with
      | [] => .misuse
      | value :: rest =>
        if mayBeValue value then
          match options.setValue value name with
          | some options => parseFrom options rest
          | none => .misuse
        else .misuse

/-- The choices with the environment's log file, if the command line names none. -/
def Options.withEnvironment (logFile : Option String) (options : Options) : Option Options :=
  match options.logFile, logFile with
  | none, some path => (path? path).map fun path => { options with logFile := some path }
  | _, _ => some options

/-- The invocation that the words of a command line make, in an environment that may name a log
file. -/
def parse (logFile : Option String) (words : List String) : Invocation :=
  match parseFrom {} (words.map (·.toList)) with
  | .run options => (options.withEnvironment logFile).elim .misuse .run
  | other => other

end HeatingPlant.CommandLine
