import Emend.CommandLine.Arguments
import Emend.CommandLine.EnvFile
import Emend.Request.Form
import Emend.Wire.Session

namespace Emend
namespace CommandLine

/-!
# The program

The program loads a request and compiles it, applies it to the collections in
a file, or submits it to a remote store.  Everything it does to the world goes
through a few capabilities, so the program itself is the same for the real
world and for one that is described by data.
-/

/-- What the program can do to the world.  An answer `none` or `false` says that
it could not be done. -/
structure World (m : Type → Type) where
  getVariable : String → m (Option String)
  /-- The text of the environment file, if there is one. -/
  environmentFile : m (Option String)
  /-- The text of a file. -/
  load : String → m (Option String)
  /-- Give a file a new text. -/
  save : String → String → m Bool
  /-- Open the connection to an address. -/
  connect : String → m (Except Failure Unit)
  /-- Exchange messages over the open connection. -/
  exchange : Exchange m

/-- Why the program stops. -/
inductive Complaint where
  | cannotRead (file : String)
  | badRequest (file : String)
  | noCollection
  /-- The text of the data file is no JSON; the message is the reader's own wording. -/
  | badData
  | fault (cause : Fault)
  | failure (cause : Failure)
  | cannotWrite (file : String)

def Complaint.message : Complaint → String
  | .cannotRead file => "Failed to read " ++ file
  | .badRequest file => "Invalid request file " ++ file
  | .noCollection => "Request has no target collection"
  | .badData => "the data file is not a JSON text"
  | .fault cause => cause.message
  | .failure cause => cause.message
  | .cannotWrite file => "Failed to write " ++ file

/-- How the program ends. -/
inductive Ending where
  | success
  | complaint (cause : Complaint)
  /-- The arguments are wrong. -/
  | misuse
  /-- The environment file gives a variable a value that none can have. -/
  | abort

/-- The exit code. -/
def Ending.code : Ending → Nat
  | .success => 0
  | .complaint _ => 1
  | .misuse => 2
  | .abort => 101

/-- What the program printed, and how it ended.  What it printed before a
complaint stays printed. -/
structure Report where
  output : String
  ending : Ending

/-- The summary that is printed when help is asked for. -/
def summary : String :=
  "Build, compile and apply document modify statements\n\n" ++
    "  compile REQUEST\n" ++
    "  apply REQUEST --data FILE [--write]\n" ++
    "  submit REQUEST --database NAME [--addr ADDRESS] [--username NAME] [--password TEXT]\n"

/-- A printed value. -/
def printed (value : Json) : String :=
  value.indented ++ "\n"

/-! ## Running -/

section

variable {m : Type → Type} [Monad m]

/-- A step that may end the program with a complaint. -/
abbrev Step (m : Type → Type) (Value : Type) := ExceptT Complaint m Value

/-- The statement of a request file. -/
def loadStatement (world : World m) (file : String) : Step m Statement := do
  let some text ← world.load file | throw (.cannotRead file)
  let some request := Request.ofText? text | throw (.badRequest file)
  match request.toStatement with
  | .ok statement => pure statement
  | .error fault => throw (.fault fault)

/-- What a command prints, and the file that it saves afterwards with its new
text. -/
structure Done where
  output : String
  save : Option (String × String)

/-- Compile the statement of a request. -/
def runCompile (world : World m) (request : String) : Step m Done := do
  let statement ← loadStatement world request
  match statement.compile with
  | .ok update => pure ⟨printed update.toForm, none⟩
  | .error fault => throw (.fault fault)

/-- The store in a data file. -/
def loadStore (world : World m) (file : String) : Step m Store := do
  let some text ← world.load file | throw (.cannotRead file)
  let some value := Json.ofText? text | throw .badData
  match Store.ofJson value with
  | .ok store => pure store
  | .error refusal => throw (.failure refusal.toFailure)

/-- Apply the statement of a request to the collections of a data file, and
save them if that is asked for. -/
def runApply (world : World m) (request data : String) (write : Bool) : Step m Done := do
  let statement ← loadStatement world request
  let some collection := statement.collection | throw .noCollection
  let store ← loadStore world data
  let (result, store) := statement.execute Store.submit store
  match result with
  | .error failure => throw (.failure failure)
  | .ok outcome =>
      let documents := (store.documents? collection).map fun found => printed (.array found)
      let save := if write then some (data, store.toJson.indented) else none
      pure ⟨printed outcome.toForm ++ documents.getD "", save⟩

/-- The value of a call over the connection. -/
def orFail {Value : Type} (result : Except Failure Value) : Step m Value :=
  match result with
  | .ok value => pure value
  | .error failure => throw (.failure failure)

/-- Submit the statement of a request to a remote store. -/
def runSubmit (world : World m) (request address database : String)
    (username password : Option String) : Step m Done := do
  let statement ← loadStatement world request
  orFail (← world.connect address)
  match username with
  | none => pure ()
  | some username => do
      let accepted : Except Failure Unit ←
        Client.authenticate (m := m) world.exchange database username (password.getD "")
      orFail accepted
  match statement.compile with
  | .error fault => throw (.failure (.ofFault fault))
  | .ok update => do
      let result : Except Failure Outcome ←
        Client.submit (m := m) world.exchange database update
      let outcome ← orFail result
      pure ⟨printed outcome.toForm, none⟩

/-- Do what the program is asked to do. -/
def runInvocation (world : World m) : Invocation → Step m Done
  | .compile request => runCompile world request
  | .apply request data write => runApply world request data write
  | .submit request address database username password =>
      runSubmit world request address database username password

/-- Save the file of a command, which has printed its output before. -/
def finish (world : World m) (done : Done) : m Report :=
  match done.save with
  | none => pure ⟨done.output, .success⟩
  | some (file, text) => do
      let saved ← world.save file text
      pure ⟨done.output, if saved then .success else .complaint (.cannotWrite file)⟩

/-- The values of the named variables. -/
def lookUp (world : World m) : List String → m (List (String × Option String))
  | [] => pure []
  | name :: rest => do
      let value ← world.getVariable name
      let others ← lookUp world rest
      pure ((name, value) :: others)

/-- The variables that settings set or refer to. -/
def mentioned (settings : List EnvFile.Setting) : List String :=
  settings.flatMap fun setting =>
    setting.name :: setting.value.filterMap fun part =>
      match part with
      | .text _ => none
      | .reference name => some name

/-- The environment of the program: its own variables, and those of the
environment file that are not set; `none` when one of these cannot be set. -/
def environment? (world : World m) : m (Option (String → Option String)) := do
  let file ← world.environmentFile
  let settings := EnvFile.settings (file.getD "")
  let own := ["DOCMOD_ADDR", "DOCMOD_DATABASE", "DOCMOD_USERNAME", "DOCMOD_PASSWORD"]
  let values ← lookUp world (own ++ mentioned settings)
  pure (EnvFile.extend? (fun name => (values.lookup name).join) settings)

/-- Run the program on its arguments. -/
def run (world : World m) (arguments : List String) : m Report := do
  let some environment ← environment? world | pure ⟨"", .abort⟩
  match parse environment arguments with
  | .wrong => pure ⟨"", .misuse⟩
  | .help => pure ⟨summary, .success⟩
  | .run invocation =>
      match ← (runInvocation world invocation).run with
      | .ok done => finish world done
      | .error complaint => pure ⟨"", .complaint complaint⟩

end

end CommandLine
end Emend
