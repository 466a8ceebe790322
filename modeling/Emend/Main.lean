import Emend.CommandLine
import Std.Async.DNS
import Std.Async.TCP

namespace Emend
namespace CommandLine

/-!
# The real world

The program is run on the files, the environment and the network of the
machine.  This layer carries out what the program asks of the world and decides
nothing itself.
-/

open Std.Async

/-! ## Connections -/

/-- An open connection: its socket, and the bytes that have arrived and were
not read. -/
structure Connection where
  socket : TCP.Socket.Client
  arrived : List UInt8

/-- The host and the service number of an address. -/
def splitAddress? (address : String) : Option (String × UInt16) := do
  let behind := (address.toList.reverse.takeWhile (· != ':')).reverse
  let host := address.toList.take (address.length - behind.length - 1)
  let service := Nat.ofDigitChars 10 behind 0
  if behind.isEmpty || !behind.all Char.isDigit || 65535 < service then none
  else some (String.ofList (host.filter fun c => c != '[' && c != ']'), UInt16.ofNat service)

/-- A service of a host. -/
def socketAddress (service : UInt16) : Std.Net.IPAddr → Std.Net.SocketAddress
  | .v4 address => .v4 ⟨address, service⟩
  | .v6 address => .v6 ⟨address, service⟩

/-- Connect to the first address that answers. -/
def connectFirst (service : UInt16) : List Std.Net.IPAddr → IO TCP.Socket.Client
  | [] => throw (IO.userError "no address found")
  | [address] => dial address
  | address :: rest => do
      try dial address
      catch _ => connectFirst service rest
where
  dial (address : Std.Net.IPAddr) : IO TCP.Socket.Client := do
    let socket ← TCP.Socket.Client.mk
    (socket.connect (socketAddress service address)).block
    return socket

/-- Open a connection and send the greeting. -/
def openConnection (address : String) : IO Connection := do
  let some (host, service) := splitAddress? address | throw (IO.userError "invalid socket address")
  let found ← (DNS.getAddrInfo host (toString service)).block
  let socket ← connectFirst service found.toList
  (socket.send ⟨greeting.toArray⟩).block
  return ⟨socket, []⟩

/-- Wait for bytes until the next frame is complete or the stream ends. -/
partial def receive (socket : TCP.Socket.Client) (arrived : List UInt8) : IO (List UInt8) := do
  if Wire.lacksBytes arrived then
    match ← (socket.recv? 65536).block with
    | none => return arrived
    | some bytes => receive socket (arrived ++ bytes.toList)
  else
    return arrived

/-- Send a frame and read the reply to it. -/
def exchangeFrames (connection : IO.Ref (Option Connection)) (frame : List UInt8) :
    IO (Except Failure Reply) := do
  match ← connection.get with
  | none => return .error (.connection "not connected")
  | some ⟨socket, arrived⟩ =>
      (socket.send ⟨frame.toArray⟩).block
      let (message, rest) := Wire.readFrame (← receive socket arrived)
      connection.set (some ⟨socket, rest⟩)
      return message.bind Reply.decode

/-! ## Files and variables -/

/-- The text of a file, if it can be read. -/
def loadText (file : String) : IO (Option String) := do
  try return some (← IO.FS.readFile file)
  catch _ => return none

/-- Whether a file could be given a text. -/
def saveText (file text : String) : IO Bool := do
  try
    IO.FS.writeFile file text
    return true
  catch _ => return false

/-- The given directory names and those of the directories around them, from the
innermost outwards. -/
def enclosing : List String → List String
  | [] => []
  | name :: outer => String.intercalate "/" (name :: outer).reverse :: enclosing outer

/-- The text of the environment file in the current directory, or else in the
nearest one around it that has one. -/
def loadEnvironmentFile : IO (Option String) := do
  let directory ← IO.currentDir
  let directories := enclosing (directory.toString.splitOn "/").reverse
  directories.findSomeM? fun name => loadText (name ++ "/.env")

/-- The world of the machine. -/
def machine (connection : IO.Ref (Option Connection)) : World IO where
  getVariable name := do
    if name.contains '\x00' then return none else IO.getEnv name
  environmentFile := loadEnvironmentFile
  load := loadText
  save := saveText
  connect address := do
    try
      connection.set (some (← openConnection address))
      return .ok ()
    catch cause =>
      return .error (.connection ("Failed to connect to " ++ address ++ ": " ++ toString cause))
  exchange command := do
    match command.encode with
    | .error failure => return .error failure
    | .ok frame =>
        try exchangeFrames connection frame
        catch cause => return .error (.connection ("Write failed: " ++ toString cause))

end CommandLine
end Emend

/-- Run the program on the arguments of the command line. -/
def main (arguments : List String) : IO UInt32 := do
  let connection ← IO.mkRef none
  let world := Emend.CommandLine.machine connection
  let report ← Emend.CommandLine.run world arguments
  (← IO.getStdout).putStr report.output
  match report.ending with
  | .success => pure ()
  | .complaint cause => (← IO.getStderr).putStrLn ("Error: " ++ cause.message)
  | .misuse => (← IO.getStderr).putStr Emend.CommandLine.summary
  | .abort => (← IO.getStderr).putStrLn "The environment file sets a variable that cannot be set"
  return UInt32.ofNat report.ending.code
