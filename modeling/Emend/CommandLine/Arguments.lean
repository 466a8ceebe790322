namespace Emend
namespace CommandLine

/-!
# Arguments

The program has three commands.  A command takes one request file and options;
an option with a value takes it from the same argument or from the next one.
Some options fall back on environment variables.

Reading arguments goes from left to right and stops at the first that is wrong
or asks for help.
-/

/-- What the program is asked to do. -/
inductive Invocation where
  | compile (request : String)
  | apply (request data : String) (write : Bool)
  | submit (request address database : String) (username password : Option String)
  deriving DecidableEq

/-- What the arguments say. -/
inductive Parsed where
  | run (invocation : Invocation)
  | help
  | wrong
  deriving DecidableEq

/-! ## Options -/

/-- An option: its long name, its letter if it has one, and whether it takes a
value.  A value that names a file must not be empty. -/
structure Switch where
  name : String
  letter : Option Char
  takesValue : Bool
  namesFile : Bool

/-- What was found in the arguments of a command. -/
structure Found where
  request : Option String
  values : List (String × String)
  deriving DecidableEq

inductive Scanned where
  | found (found : Found)
  | help
  | wrong

namespace Found

def empty : Found := ⟨none, []⟩

/-- One more file argument; a command takes only one, and it must not be
empty. -/
def addRequest? (found : Found) (request : String) : Option Found :=
  if found.request.isSome || request.isEmpty then none
  else some { found with request := some request }

/-- One more option; none may be given twice. -/
def addValue? (found : Found) (switch : Switch) (value : String) : Option Found :=
  if (found.values.lookup switch.name).isSome || (switch.namesFile && value.isEmpty) then none
  else some { found with values := (switch.name, value) :: found.values }

end Found

/-- Whether an argument is an option rather than a value. -/
def isSwitch (argument : String) : Bool :=
  match argument.toList with
  | '-' :: _ :: _ => true
  | _ => false

/-- The text before the first equals sign, and the text behind it if there is
one. -/
def splitValue (text : List Char) : String × Option String :=
  let name := text.takeWhile (· != '=')
  let value :=
    match text.dropWhile (· != '=') with
    | [] => none
    | _ :: rest => some (String.ofList rest)
  (String.ofList name, value)

/-- The file arguments behind a double dash. -/
def scanFiles (found : Found) : List String → Scanned
  | [] => .found found
  | argument :: rest =>
      match found.addRequest? argument with
      | some found => scanFiles found rest
      | none => .wrong

/-- What one argument asks for. -/
inductive Wish where
  | files
  | help
  | wrong
  | request
  /-- An option whose value is known, or that takes none. -/
  | complete (switch : Switch) (value : String)
  /-- An option whose value is the next argument. -/
  | open (switch : Switch)

/-- What a long option asks for. -/
def longWish (switches : List Switch) (body : List Char) : Wish :=
  let (name, value) := splitValue body
  match switches.find? fun switch => switch.name == name with
  | some switch =>
      match switch.takesValue, value with
      | true, some value => .complete switch value
      | true, none => .open switch
      | false, none => .complete switch ""
      | false, some _ => .wrong
  | none => if name = "help" && value.isNone then .help else .wrong

/-- What an option given by its letter asks for; a value may follow at once or
behind an equals sign. -/
def letterWish (switches : List Switch) (letter : Char) (rest : List Char) : Wish :=
  match switches.find? fun switch => switch.letter == some letter with
  | some switch =>
      match rest with
      | [] => .open switch
      | '=' :: value => .complete switch (String.ofList value)
      | value => .complete switch (String.ofList value)
  | none => if letter = 'h' then .help else .wrong

/-- What an argument asks for. -/
def wish (switches : List Switch) (argument : String) : Wish :=
  match argument.toList with
  | ['-', '-'] => .files
  | '-' :: '-' :: body => longWish switches body
  | '-' :: letter :: rest => letterWish switches letter rest
  | _ => .request

/-- The arguments of a command. -/
def scan (switches : List Switch) (found : Found) : List String → Scanned
  | [] => .found found
  | argument :: rest =>
      match wish switches argument with
      | .files => scanFiles found rest
      | .help => .help
      | .wrong => .wrong
      | .request =>
          match found.addRequest? argument with
          | some found => scan switches found rest
          | none => .wrong
      | .complete switch value =>
          match found.addValue? switch value with
          | some found => scan switches found rest
          | none => .wrong
      | .open switch =>
          match rest with
          | [] => .wrong
          | value :: rest =>
              if isSwitch value then .wrong
              else
                match found.addValue? switch value with
                | some found => scan switches found rest
                | none => .wrong

/-! ## Commands -/

def dataSwitch : Switch := ⟨"data", some 'd', true, true⟩

def writeSwitch : Switch := ⟨"write", none, false, false⟩

def addressSwitch : Switch := ⟨"addr", none, true, false⟩

def databaseSwitch : Switch := ⟨"database", some 'd', true, false⟩

def usernameSwitch : Switch := ⟨"username", some 'u', true, false⟩

def passwordSwitch : Switch := ⟨"password", some 'p', true, false⟩

/-- Where a store listens when nothing else is said. -/
def defaultAddress : String := "localhost:6745"

/-- The meaning of scanned arguments. -/
def conclude (scanned : Scanned) (invocation? : String → Found → Option Invocation) : Parsed :=
  match scanned with
  | .help => .help
  | .wrong => .wrong
  | .found found =>
      match found.request.bind fun request => invocation? request found with
      | some invocation => .run invocation
      | none => .wrong

/-- The value of an option, from the arguments or else from a variable. -/
def valueOf (environment : String → Option String) (found : Found) (switch : Switch)
    (fallback : String) : Option String :=
  match found.values.lookup switch.name with
  | some value => some value
  | none => environment fallback

/-- The arguments behind the name of a command. -/
def parseCommand (environment : String → Option String) (name : String)
    (arguments : List String) : Parsed :=
  if name = "compile" then
    conclude (scan [] .empty arguments) fun request _ => some (.compile request)
  else if name = "apply" then
    conclude (scan [dataSwitch, writeSwitch] .empty arguments) fun request found => do
      let data ← found.values.lookup dataSwitch.name
      some (.apply request data (found.values.lookup writeSwitch.name).isSome)
  else if name = "submit" then
    let switches := [addressSwitch, databaseSwitch, usernameSwitch, passwordSwitch]
    conclude (scan switches .empty arguments) fun request found => do
      let database ← valueOf environment found databaseSwitch "DOCMOD_DATABASE"
      let address := (valueOf environment found addressSwitch "DOCMOD_ADDR").getD defaultAddress
      let username := valueOf environment found usernameSwitch "DOCMOD_USERNAME"
      let password := valueOf environment found passwordSwitch "DOCMOD_PASSWORD"
      some (.submit request address database username password)
  else
    .wrong

/-- The names that help can be asked for. -/
def helpTopics : List String := ["compile", "apply", "submit", "help"]

/-- The meaning of all arguments. -/
def parse (environment : String → Option String) : List String → Parsed
  | [] => .wrong
  | "help" :: [] => .help
  | "help" :: topic :: [] => if helpTopics.contains topic then .help else .wrong
  | name :: arguments =>
      match wish [] name with
      | .request => parseCommand environment name arguments
      | .help => .help
      | .files | .wrong | .complete _ _ | .open _ => .wrong

end CommandLine
end Emend
