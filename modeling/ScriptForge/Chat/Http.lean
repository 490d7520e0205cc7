import ScriptForge.Chat.Client
import ScriptForge.Json.Writer
import ScriptForge.Text.Letter
import ScriptForge.Text.Search

/-!
# Posts on the wire

A post is one HTTP message, and so is the answer to it. Only addresses of plain HTTP can be reached.
The connection is closed after the answer, so an answer is all that comes; its body may be cut into
chunks, each behind its length in hexadecimal digits.
-/

namespace ScriptForge.Chat.Http

/-- Where a server is reached, and what is asked of it. -/
structure Address where
  host : String
  /-- The number of the socket that takes connections. -/
  socket : Nat
  target : String
  deriving DecidableEq, Repr

/-! ## Addresses -/

/-- Whether a character ends the name of a server in an address. -/
def endsHost (c : Char) : Bool :=
  c == '/' || c == '?' || c == '#'

/-- The host and the number of its socket in front of the target; 80 if none is written. -/
def hostAndSocket? (cs : List Char) : Option (String × Nat) :=
  match Text.splitAtFirst? ':' cs with
  | none => if cs.isEmpty then none else some (String.ofList cs, 80)
  | some ([], _) => none
  | some (host, socket) => do return (String.ofList host, ← Decimal.natBelow? UInt16.size socket)

/-- The address that a text writes. -/
def Address.ofText? (text : String) : Option Address := do
  let rest ← Text.after? "http://".toList text.toList
  let (host, socket) ← hostAndSocket? (rest.takeWhile fun c => !endsHost c)
  let target := (rest.dropWhile fun c => !endsHost c).takeWhile (· != '#')
  let slash := if target.head? = some '/' then [] else ['/']
  return ⟨host, socket, String.ofList (slash ++ target)⟩

/-! ## Requests -/

/-- The end of a line. -/
def lineEnd : String := "\r\n"

/-- The message that carries a post. -/
def message (address : Address) (post : Post) : String :=
  let body := post.body.compact
  String.join ([
    s!"POST {address.target} HTTP/1.1",
    s!"Host: {address.host}:{address.socket}",
    s!"Authorization: Bearer {post.key}",
    "Content-Type: application/json",
    "Accept: */*",
    "Connection: close",
    s!"Content-Length: {body.utf8ByteSize}",
    ""].map (· ++ lineEnd)) ++ body

/-! ## Answers -/

/-- The bytes before and after the first line end. -/
def takeLine? : List UInt8 → Option (List UInt8 × List UInt8)
  | [] => none
  | 13 :: 10 :: rest => some ([], rest)
  | b :: rest => (takeLine? rest).map fun (line, rest) => (b :: line, rest)

/-- Bytes as characters, one for each. -/
def latin (bytes : List UInt8) : List Char :=
  bytes.map fun b => Char.ofNat b.toNat

/-- The lines before an empty one, and what follows it; `limit` bounds their number. -/
def headLines? : (limit : Nat) → List UInt8 → Option (List (List Char) × List UInt8)
  | 0, _ => none
  | limit + 1, bytes => do
    match ← takeLine? bytes with
    | ([], rest) => return ([], rest)
    | (line, rest) =>
      let (lines, body) ← headLines? limit rest
      return (latin line :: lines, body)

/-- The status in the first line of an answer. -/
def status? (line : List Char) : Option Nat := do
  let rest ← Text.after? "HTTP/1.".toList line
  Decimal.nat? ((rest.dropWhile (· != ' ')).drop 1 |>.takeWhile (· != ' '))

/-- Whether a line says that the body is cut into chunks. -/
def saysChunked (line : List Char) : Bool :=
  Text.lower (line.filter (· != ' ')) == "transfer-encoding:chunked".toList

/-- The number that hexadecimal digits write. -/
def hexNumber? (digits : List Char) : Option Nat :=
  if digits.isEmpty then none
  else digits.foldlM (fun n d => do return 16 * n + (← Text.hexValue? d)) 0

/-- The chunks of a body; `limit` bounds their number. -/
def chunks? : (limit : Nat) → List UInt8 → Option (List UInt8)
  | 0, _ => none
  | limit + 1, bytes => do
    let (line, rest) ← takeLine? bytes
    let size ← hexNumber? ((latin line).takeWhile fun c => c != ';' && c != ' ')
    if size = 0 then return []
    else if rest.length < size + 2 then none
    else return rest.take size ++ (← chunks? limit (rest.drop (size + 2)))

/-- The reply that an answer gives; nothing if it is no answer. -/
def reply? (bytes : List UInt8) : Option Reply := do
  let (lines, rest) ← headLines? bytes.length bytes
  let status ← lines.head?.bind status?
  let body ← if lines.any saysChunked then chunks? (rest.length + 1) rest else some rest
  return .answered status (← String.fromUTF8? ⟨body.toArray⟩)

end ScriptForge.Chat.Http
