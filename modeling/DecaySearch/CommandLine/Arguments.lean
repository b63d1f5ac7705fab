-- The arguments of a run. Options have a long name, and a short name of one
-- letter. A value stands in the next argument or is attached to its option, and
-- short names may be glued together.

namespace DecaySearch.CommandLine

/-! ## Options -/

/-- An option that takes a value. -/
inductive Setting
  | config
  | events
  | outputDir
  | numEvents
  | seed
  deriving DecidableEq

namespace Setting

def all : List Setting := [.config, .events, .outputDir, .numEvents, .seed]

def letter : Setting → Char
  | .config => 'c'
  | .events => 'e'
  | .outputDir => 'o'
  | .numEvents => 'n'
  | .seed => 's'

def name : Setting → String
  | .config => "config"
  | .events => "events"
  | .outputDir => "output-dir"
  | .numEvents => "num-events"
  | .seed => "seed"

def purpose : Setting → String
  | .config => "Configuration file (skims.yaml by default)"
  | .events => "JSON event file (toy events are generated when absent)"
  | .outputDir => "Directory where the output files are written"
  | .numEvents => "Number of toy events to generate"
  | .seed => "Seed of the toy event generator"

end Setting

/-- An option that takes no value. -/
inductive Switch
  | debug
  | help
  | version
  deriving DecidableEq

namespace Switch

def all : List Switch := [.debug, .help, .version]

def letter : Switch → Char
  | .debug => 'd'
  | .help => 'h'
  | .version => 'V'

def name : Switch → String
  | .debug => "debug"
  | .help => "help"
  | .version => "version"

def purpose : Switch → String
  | .debug => "Evaluate every cut and report the cut status of each candidate"
  | .help => "Print this help"
  | .version => "Print the version"

end Switch

inductive Flag
  | setting (s : Setting)
  | switch (s : Switch)
  deriving DecidableEq

namespace Flag

def all : List Flag := Setting.all.map .setting ++ Switch.all.map .switch

def letter : Flag → Char
  | .setting s => s.letter
  | .switch s => s.letter

def name : Flag → String
  | .setting s => s.name
  | .switch s => s.name

def purpose : Flag → String
  | .setting s => s.purpose
  | .switch s => s.purpose

def ofLetter? (letter : Char) : Option Flag := all.find? (·.letter = letter)

/-- Finds the option with a name. Names must match exactly. -/
def ofName? (name : String) : Option Flag := all.find? (·.name = name)

end Flag

/-! ## Errors -/

inductive UsageError
  | unknownOption (text : String)
  /-- No argument stands on its own. -/
  | unexpected (text : String)
  | missingValue (setting : Setting)
  | unneededValue (switch : Switch) (text : String)
  | invalidValue (setting : Setting) (text : String)
  | repeated (name : String)
  deriving DecidableEq

namespace UsageError

def message : UsageError → String
  | .unknownOption text => s!"unknown option {text}"
  | .unexpected text => s!"unexpected argument {text}"
  | .missingValue setting => s!"the option --{setting.name} needs a value"
  | .unneededValue switch text => s!"the option --{switch.name} takes no value, but got {text}"
  | .invalidValue setting text => s!"invalid value for the option --{setting.name}: {text}"
  | .repeated name => s!"the option --{name} is given twice"

end UsageError

/-! ## Tokens -/

/-- An option as it was given. -/
inductive Token
  | setting (s : Setting) (value : String)
  | switch (s : Switch)
  deriving DecidableEq

/-- What an argument gives: some options, and perhaps one that still waits for
its value. -/
structure Parsed where
  tokens : List Token
  pending : Option Setting

/-- Splits a text at the first equals sign. -/
def splitValue (cs : List Char) : List Char × Option String :=
  match cs.dropWhile (· ≠ '=') with
  | [] => (cs, none)
  | _ :: value => (cs.takeWhile (· ≠ '='), some (String.ofList value))

/-- Reads an argument behind two dashes. -/
def readLong (cs : List Char) : Except UsageError Parsed :=
  let (name, value) := splitValue cs
  match Flag.ofName? (String.ofList name), value with
  | none, _ => .error (.unknownOption ("--" ++ String.ofList name))
  | some (.setting s), some value => .ok ⟨[.setting s value], none⟩
  | some (.setting s), none => .ok ⟨[], some s⟩
  | some (.switch s), some value => .error (.unneededValue s value)
  | some (.switch s), none => .ok ⟨[.switch s], none⟩

def dropEquals : List Char → List Char
  | '=' :: rest => rest
  | cs => cs

/-- Reads an argument behind one dash: switches, and then perhaps a setting with
the rest as its value. -/
def readShort : List Char → Except UsageError Parsed
  | [] => .ok ⟨[], none⟩
  | c :: rest =>
    match Flag.ofLetter? c with
    | none => .error (.unknownOption ("-" ++ c.toString))
    | some (.switch s) => (readShort rest).map fun p => { p with tokens := .switch s :: p.tokens }
    | some (.setting s) =>
      if rest.isEmpty then .ok ⟨[], some s⟩
      else .ok ⟨[.setting s (String.ofList (dropEquals rest))], none⟩

/-- What an argument looks like. -/
inductive Shape
  /-- Two dashes, which end the options. -/
  | terminator
  | long (rest : List Char)
  | short (rest : List Char)
  /-- A text that is no option, such as a value. A single dash is one. -/
  | plain

def shapeOf (text : String) : Shape :=
  match text.toList with
  | ['-', '-'] => .terminator
  | '-' :: '-' :: rest => .long rest
  | ['-'] => .plain
  | '-' :: rest => .short rest
  | _ => .plain

/-- Reads arguments. An option that waits for its value takes the next argument,
unless that looks like an option. -/
def tokenize : Option Setting → List String → Except UsageError (List Token)
  | none, [] => .ok []
  | some s, [] => .error (.missingValue s)
  | pending, text :: rest =>
    let proceed (p : Parsed) : Except UsageError (List Token) := do
      let others ← tokenize p.pending rest
      pure (p.tokens ++ others)
    match shapeOf text, pending with
    | .plain, some s => proceed ⟨[.setting s text], none⟩
    | .plain, none => .error (.unexpected text)
    | _, some s => .error (.missingValue s)
    | .terminator, none =>
      match rest with
      | [] => .ok []
      | text :: _ => .error (.unexpected text)
    | .long cs, none => do
      let p ← readLong cs
      proceed p
    | .short cs, none => do
      let p ← readShort cs
      proceed p

/-! ## Values -/

/-- Reads a number of decimal digits below 2⁶⁴, which may have a plus sign. -/
def readWord? (text : String) : Option Nat :=
  let digits := match text.toList with
    | '+' :: rest => rest
    | cs => cs
  if digits.isEmpty || !digits.all Char.isDigit then none
  else
    let n := digits.foldl (fun n c => 10 * n + (c.toNat - '0'.toNat)) 0
    if n < Nat.pow 2 64 then some n else none

structure Arguments where
  /-- Configuration file. -/
  config : String
  /-- Event file. Toy events are generated without one. -/
  events : Option String
  /-- Directory of the output files. -/
  outputDir : String
  numEvents : Option Nat
  seed : Option UInt64
  debug : Bool
  deriving DecidableEq

namespace Arguments

def standard : Arguments where
  config := "skims.yaml"
  events := none
  outputDir := "."
  numEvents := none
  seed := none
  debug := false

/-- A path has at least one character. -/
def readPath (setting : Setting) (text : String) : Except UsageError String :=
  if text.isEmpty then .error (.invalidValue setting text) else .ok text

def readNumber (setting : Setting) (text : String) : Except UsageError Nat :=
  match readWord? text with
  | none => .error (.invalidValue setting text)
  | some n => .ok n

def set (a : Arguments) (setting : Setting) (text : String) : Except UsageError Arguments := do
  match setting with
  | .config =>
    let path ← readPath setting text
    pure { a with config := path }
  | .events =>
    let path ← readPath setting text
    pure { a with events := some path }
  | .outputDir =>
    let path ← readPath setting text
    pure { a with outputDir := path }
  | .numEvents =>
    let n ← readNumber setting text
    pure { a with numEvents := some n }
  | .seed =>
    let n ← readNumber setting text
    pure { a with seed := some (UInt64.ofNat n) }

end Arguments

inductive Request
  | run (arguments : Arguments)
  | help
  | version
  deriving DecidableEq

namespace Request

/-- Puts options into place one after the other. None may be given twice. -/
def ofTokens (seen : List Flag) (a : Arguments) : List Token → Except UsageError Request
  | [] => .ok (.run a)
  | .switch .help :: _ => .ok .help
  | .switch .version :: _ => .ok .version
  | .switch .debug :: rest =>
    let flag : Flag := .switch .debug
    if flag ∈ seen then .error (.repeated flag.name)
    else ofTokens (flag :: seen) { a with debug := true } rest
  | .setting s value :: rest =>
    let flag : Flag := .setting s
    if flag ∈ seen then .error (.repeated flag.name)
    else do
      let a ← a.set s value
      ofTokens (flag :: seen) a rest

def ofArguments (texts : List String) : Except UsageError Request := do
  let tokens ← tokenize none texts
  ofTokens [] .standard tokens

end Request

def help : List String :=
  ["Select displaced-vertex decay candidates from track data", "", "Options:"]
    ++ Flag.all.map fun flag => s!"  -{flag.letter}, --{flag.name}  {flag.purpose}"

end DecaySearch.CommandLine
