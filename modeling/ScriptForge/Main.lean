import ScriptForge.Chat.Http
import ScriptForge.Cli.Program
import Std.Async.DNS
import Std.Async.TCP
import Std.Time.DateTime

/-!
# The executable

Runs the program on the real machine: its files, its environment, its clock and its network.
-/

namespace ScriptForge.Main

open Std.Async

/-! ## Files -/

/-- The words of the machine for an error. -/
def reason : IO.Error → String
  | .unexpectedEof => "unexpected end of file"
  | .userError text => text
  | .alreadyExists _ code details | .otherError code details | .resourceBusy code details
  | .resourceVanished code details | .unsupportedOperation code details
  | .hardwareFault code details | .unsatisfiedConstraints code details
  | .illegalOperation code details | .protocolError code details | .timeExpired code details
  | .interrupted _ code details | .noFileOrDirectory _ code details
  | .invalidArgument _ code details | .permissionDenied _ code details
  | .resourceExhausted _ code details | .inappropriateType _ code details
  | .noSuchThing _ code details => s!"{details} (os error {code})"

/-- Runs an action on files. -/
def attempt (action : IO α) : IO (Except String α) := do
  try return .ok (← action)
  catch error => return .error (reason error)

/-- Reads a file as text. -/
def readText (path : String) : IO String := do
  match String.fromUTF8? (← IO.FS.readBinFile path) with
  | some text => return text
  | none => throw (.userError "stream did not contain valid UTF-8")

/-- The first text that can be read. -/
def firstText : List String → IO (Option String)
  | [] => return none
  | path :: paths => do
    match ← attempt (readText path) with
    | .ok text => return some text
    | .error _ => firstText paths

/-- The text of the nearest file of variables, from the working folder outwards. -/
def variableFile : IO (Option String) := do
  let steps := (← IO.currentDir).toString.splitOn "/"
  firstText ((List.range steps.length).map fun outwards =>
    "/".intercalate (steps.take (steps.length - outwards) ++ [".env"]))

/-! ## Time and names -/

/-- A number with at least so many digits. -/
def padded (width : Nat) (n : Int) : String :=
  let digits := toString n
  "".pushn '0' (width - digits.length) ++ digits

/-- The date and the time of the day. -/
def today : IO String := do
  let timestamp ← Std.Time.Timestamp.now
  let now := Std.Time.PlainDateTime.ofWallTime (timestamp.toWallTime Std.Time.TimeZone.Offset.zero)
  let date := s!"{padded 4 now.date.year}-{padded 2 now.date.month.val}-{padded 2 now.date.day.val}"
  let time :=
    s!"{padded 2 now.time.hour.val}:{padded 2 now.time.minute.val}:{padded 2 now.time.second.val}"
  return s!"{date}T{time}.{padded 9 now.time.nanosecond.val}Z"

/-- A random name: hexadecimal digits in five groups, with the marks of their kind. -/
def randomName : IO String := do
  let bytes := (← IO.getRandomBytes 16).toList
  let marked := bytes.mapIdx fun i b =>
    if i = 6 then b &&& 0x0f ||| 0x40 else if i = 8 then b &&& 0x3f ||| 0x80 else b
  let digits := String.ofList (marked.flatMap Digest.hexByte)
  let group (start length : Nat) : String := ((digits.drop start).take length).toString
  return "-".intercalate [group 0 8, group 8 4, group 12 4, group 16 4, group 20 12]

/-! ## Network -/

/-- The socket address of a server. -/
def socketAddress (number : Nat) : Std.Net.IPAddr → Std.Net.SocketAddress
  | .v4 address => .v4 ⟨address, number.toUInt16⟩
  | .v6 address => .v6 ⟨address, number.toUInt16⟩

/-- All that a server sends, in at most so many pieces. -/
def receiveAll (socket : TCP.Socket.Client) : (limit : Nat) → ByteArray → Async ByteArray
  | 0, received => return received
  | limit + 1, received => do
    match ← socket.recv? 65536 with
    | none => return received
    | some piece => receiveAll socket limit (received ++ piece)

/-- Sends a post and receives the answer. -/
def exchange (address : Chat.Http.Address) (post : Chat.Post) : Async Chat.Reply := do
  let addresses ← DNS.getAddrInfo address.host (toString address.socket)
  match addresses[0]? with
  | none => return .unreachable
  | some ip =>
    let socket ← TCP.Socket.Client.mk
    socket.connect (socketAddress address.socket ip)
    socket.send (Chat.Http.message address post).toUTF8
    let answer ← receiveAll socket 1000000 ByteArray.empty
    return (Chat.Http.reply? answer.toList).getD .unreachable

/-- The result of a task, unless it takes longer than so many hundredths of a second. -/
def awaited (task : Task (Except IO.Error Chat.Reply)) : (hundredths : Nat) → IO Chat.Reply
  | 0 => return .silent
  | hundredths + 1 => do
    if ← IO.hasFinished task then
      match task.get with
      | .ok reply => return reply
      | .error _ => return .unreachable
    else
      IO.sleep 10
      awaited task hundredths

/-- Sends a post after a pause. -/
def send (pause timeout : Nat) (post : Chat.Post) : IO Chat.Reply := do
  IO.sleep pause.toUInt32
  match Chat.Http.Address.ofText? post.url with
  | none => return .unreachable
  | some address =>
    awaited (← IO.asTask (exchange address post).block .dedicated) (timeout / 10 + 1)

/-! ## The machine -/

/-- The machine that the program runs on. -/
def host : Cli.Host IO where
  read path := attempt (readText path)
  write path text := attempt (IO.FS.writeFile path text)
  makeFolder path := attempt (IO.FS.createDirAll path)
  lookup := fun name => IO.getEnv name
  variableFile
  clock := IO.monoMsNow
  today
  newRunId := randomName
  send

end ScriptForge.Main

def main (arguments : List String) : IO UInt32 := do
  let exit ← ScriptForge.Cli.program ScriptForge.Main.host arguments
  IO.print exit.output
  IO.eprint exit.errors
  return exit.code.toUInt32
