import PathMtu.CommandLine.Numeral
import PathMtu.Simulator.Request

namespace PathMtu

inductive ArgumentError where
  | unrecognised (word : String)
  | ambiguous (word : String) (names : List String)
  | emptyValue (name : String)
  | missingValue (name : String)
  | needlessValue (name : String)
  | repeated (name : String)
  | invalidValue (name value : String)
  deriving DecidableEq, Repr

namespace ArgumentError

/-- An option that is asked for without a name has none to show, and dashes that belong to no name
are not shown with it. -/
def optionText (name : String) : String :=
  let bare := name.toList.dropWhile fun c => c = '-' ∨ c = '/'
  let shown := if bare.isEmpty then name else String.ofList bare
  if name = "" then "option" else s!"option '--{shown}'"

/-- The options that a name fits, in the order of their names. -/
def matchesText (names : List String) : String :=
  let quoted := (names.mergeSort fun a b => a ≤ b).map fun name => s!"'--{name}'"
  String.join (quoted.dropLast.map (· ++ ", ")) ++ "and " ++ quoted.getLastD ""

def message : ArgumentError → String
  | unrecognised word => s!"unrecognised option '{word}'"
  | ambiguous word names => s!"option '{word}' is ambiguous and matches {matchesText names}"
  | emptyValue name =>
    s!"the argument for {optionText name} should follow immediately after the equal sign"
  | missingValue name => s!"the required argument for {optionText name} is missing"
  | needlessValue name => s!"{optionText name} does not take any arguments"
  | repeated name => s!"{optionText name} cannot be specified more than once"
  | invalidValue name value =>
    let argument := if value = "" then "argument" else s!"argument ('{value}')"
    s!"the {argument} for {optionText name} is invalid"

end ArgumentError

inductive Command where
  | help
  | simulate (request : Request)

namespace CommandLine

/-- What the options ask for together. -/
structure Demand where
  request : Request := {}
  help : Bool := false

namespace Demand

def mapOptions (change : Options → Options) (demand : Demand) : Demand :=
  { demand with request := { demand.request with options := change demand.request.options } }

def mapConfig (change : Config → Config) : Demand → Demand :=
  mapOptions fun options => { options with config := change options.config }

def command (demand : Demand) : Command :=
  if demand.help then .help else .simulate demand.request

end Demand

/-- What an option does. A flag works by being there, and may be given by a letter; the others read
the value that comes with them. -/
inductive Action where
  | flag (letter : Option Char) (change : Demand → Demand)
  | value (read : String → Option (Demand → Demand))

namespace Action

def letter? : Action → Option Char
  | flag letter _ => letter
  | value _ => none

def takesValue : Action → Bool
  | flag _ _ => false
  | value _ => true

/-- An option with an unsigned number below the bound. -/
def number (bound : Nat) (change : Nat → Demand → Demand) : Action :=
  value fun text => (Numeral.word? bound text.toList).map change

def size (set : Config → UInt16 → Config) : Action :=
  number UInt16.size fun n => Demand.mapConfig (set · n.toUInt16)

def count (set : Options → UInt32 → Options) : Action :=
  number UInt32.size fun n => Demand.mapOptions (set · n.toUInt32)

end Action

/-- An option, by the name that stands behind two dashes. -/
structure Entry where
  name : String
  action : Action

namespace Entry

/-- An option answers to its name and, behind one dash, to its letter. -/
def answersTo (entry : Entry) (name : String) : Bool :=
  entry.name = name || entry.action.letter?.any fun letter => name = String.ofList ['-', letter]

/-- Whether the name is the beginning of the option's own. -/
def startsWith (entry : Entry) (name : String) : Bool :=
  name.toList.isPrefixOf entry.name.toList

def read (entry : Entry) (text : String) : Option (Demand → Demand) :=
  match entry.action with
  | .flag _ change => some change
  | .value read => read text

end Entry

def table : List Entry :=
  [⟨"help", .flag 'h' ({ · with help := true })⟩,
    ⟨"min-mtu", .size ({ · with minSize := · })⟩,
    ⟨"max-mtu", .size ({ · with maxSize := · })⟩,
    ⟨"interval-ms", .number UInt32.size fun n => .mapConfig ({ · with interval := Int64.ofNat n })⟩,
    ⟨"threshold", .size ({ · with threshold := · })⟩,
    ⟨"recv-buffer", .number UInt64.size fun n =>
      .mapConfig ({ · with receiveBuffer := n.toUInt64 })⟩,
    ⟨"compression", .value fun name => some fun demand =>
      { demand with request := { demand.request with compression := name } }⟩,
    ⟨"checksums", .flag none (.mapConfig ({ · with framing.checksums := true }))⟩,
    ⟨"fragment-size", .size ({ · with fragmentSize := · })⟩,
    ⟨"disable", .flag none (.mapConfig ({ · with enabled := false }))⟩,
    ⟨"path-mtu", .number UInt16.size fun n => .mapOptions ({ · with pathMtu := n.toUInt16 })⟩,
    ⟨"rtt-ms", .count ({ · with rtt := · })⟩,
    ⟨"loss", .value fun text => (Numeral.double? text.toList).map fun rate =>
      .mapOptions ({ · with lossRate := rate })⟩,
    ⟨"seed", .count ({ · with seed := · })⟩,
    ⟨"tick-ms", .count ({ · with tickInterval := · })⟩,
    ⟨"duration-ms", .count ({ · with duration := · })⟩,
    ⟨"verbose", .flag 'v' (.mapOptions ({ · with verbose := true }))⟩]

/-- The option that a name stands for: the one that answers to it, or else the only one that starts
with it. -/
def lookUp (word name : String) : Except ArgumentError Entry :=
  match table.find? (·.answersTo name) with
  | some entry => .ok entry
  | none =>
    match table.filter (·.startsWith name) with
    | [] => .error (.unrecognised word)
    | [entry] => .ok entry
    | entries => .error (.ambiguous word (entries.map (·.name)))

/-- A word by its dashes. -/
inductive Word where
  | long (name : String) (value : Option String)
  | letters (letters : List Char)
  | terminator
  | plain

def Word.ofString (word : String) : Word :=
  match word.toList with
  | ['-', '-'] => .terminator
  | '-' :: '-' :: rest =>
    let value := match rest.dropWhile (· ≠ '=') with
      | [] => none
      | _ :: value => some (String.ofList value)
    .long (String.ofList (rest.takeWhile (· ≠ '='))) value
  | '-' :: letter :: rest => .letters (letter :: rest)
  | _ => .plain

/-- An option with the text that comes with it; a flag has none. -/
structure Given where
  entry : Entry
  text : String := ""

/-- Flags behind one dash. -/
def readLetters (word : String) : List Char → Except ArgumentError (List Given)
  | [] => .ok []
  | letter :: rest =>
    match table.find? (·.answersTo (String.ofList ['-', letter])) with
    | none => .error (.unrecognised word)
    | some entry => do return { entry } :: (← readLetters word rest)

/-- What stands where a value is due is that value, dashes or not, unless it is the letter of a flag
behind its dash or breaks off behind an equal sign. -/
def checkValue (entry : Entry) (value : String) : Except ArgumentError Unit :=
  match Word.ofString value with
  | .letters _ =>
    if table.any (·.answersTo value) then .error (.missingValue entry.name) else .ok ()
  | .long _ (some "") => .error (.emptyValue entry.name)
  | _ => .ok ()

/-- What a word says: options that are complete, or one whose value is the next word, or that no
more options follow. -/
inductive Reading where
  | complete (givens : List Given)
  | awaits (entry : Entry)
  | last

/-- A word that belongs to no option says nothing. -/
def readWord (word : String) : Except ArgumentError Reading :=
  match Word.ofString word with
  | .terminator => .ok .last
  | .plain => .ok (.complete [])
  | .letters letters => do return .complete (← readLetters word letters)
  | .long name (some text) =>
    if text = "" then .error (.emptyValue name)
    else if name = "" then .ok (.complete [])
    else do
      let entry ← lookUp word name
      if entry.action.takesValue then return .complete [{ entry, text }]
      else throw (.needlessValue entry.name)
  | .long name none => do
    let entry ← lookUp word name
    return if entry.action.takesValue then .awaits entry else .complete [{ entry }]

/-- Takes the words apart, the first of which may be due as an option's value. -/
def split (due : Option Entry) : List String → Except ArgumentError (List Given)
  | [] =>
    match due with
    | none => .ok []
    | some entry => .error (.missingValue entry.name)
  | word :: rest =>
    match due with
    | some entry => do
      checkValue entry word
      return { entry, text := word } :: (← split none rest)
    | none => do
      match ← readWord word with
      | .complete givens => return givens ++ (← split none rest)
      | .awaits entry => split (some entry) rest
      | .last => return []

/-- Reads the values from left to right. An option is given once at most. -/
def store (demand : Demand) (seen : List String) : List Given → Except ArgumentError Demand
  | [] => .ok demand
  | given :: rest =>
    if given.entry.name ∈ seen then .error (.repeated given.entry.name)
    else
      match given.entry.read given.text with
      | none => .error (.invalidValue given.entry.name given.text)
      | some change => store (change demand) (given.entry.name :: seen) rest

/-- All words are taken apart before a value is read. Help is shown only when all are in order. -/
def parse (words : List String) : Except ArgumentError Command := do
  let demand ← store {} [] (← split none words)
  return demand.command

def Entry.helpLine (entry : Entry) : String :=
  match entry.action with
  | .flag (some letter) _ => s!"  -{letter} [ --{entry.name} ]\n"
  | .flag none _ => s!"  --{entry.name}\n"
  | .value _ => s!"  --{entry.name} arg\n"

def helpText : String :=
  "PathProbe - Path MTU Discovery Simulator\nOptionen:\n" ++ String.join (table.map Entry.helpLine)

end CommandLine

end PathMtu
