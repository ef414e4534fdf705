import RespClient.Endpoint
import RespClient.Stream.Transport

/-!
# Stream/Network — what answers when a stream is opened

A stream is opened to a site: an address of the network, a path, or a name outside the file system.
Opening it succeeds, fails at once, or fails after a round trip; a deadline can only be missed in the last
case and where the peer has to answer first.  Sites that no machine takes are refused before any is asked
(`reach`).
-/

namespace RespClient

/-- **What comes of opening a stream.** -/
inductive Dial
  /-- A fault known without asking anyone. -/
  | rejected (fault : StreamFault)
  /-- A fault the other side has to tell. -/
  | refused (fault : StreamFault)
  /-- A stream, and the fault met while its options were set, if any. -/
  | accepted (transport : Transport) (optionFault : Option StreamFault := none)

/-- **Where a stream is opened.** -/
inductive Site
  | network (address : SocketAddress)
  | path (path : String)
  /-- A name outside the file system. -/
  | name (name : String)

namespace Site

/-- The longest path or name a socket can have. -/
def maxLength : Nat := 107

/-- The fault of a site that no machine takes. -/
def fault? : Site → Option StreamFault
  | network _ => none
  | path p =>
    if p.toList.contains (Char.ofNat 0) then
      some ⟨.invalidInput, some "paths must not contain interior null bytes"⟩
    else if maxLength < p.utf8ByteSize then
      some ⟨.invalidInput, some "path must be shorter than SUN_LEN"⟩
    else none
  | name n =>
    if maxLength < n.utf8ByteSize then
      some ⟨.invalidInput, some "abstract socket name must be shorter than SUN_LEN"⟩
    else none

/-- The site of an endpoint, where every socket is a path. -/
def ofEndpoint : Endpoint → Site
  | .network address => network address
  | .socket p => path p

/-- The site of an endpoint, where a socket that begins with NUL is a name. -/
def ofEndpointOrName : Endpoint → Site
  | .network address => network address
  | .socket p =>
    match p.toList with
    | [] => path p
    | c :: rest => if c = Char.ofNat 0 then name (String.ofList rest) else path p

end Site

/-- **A network**: what comes of opening a stream to each site. -/
structure Network where
  dial : Site → Dial

namespace Network

/-- **Opens a stream** to a site, if machines take it. -/
def reach (n : Network) (site : Site) : Dial :=
  match site.fault? with
  | some fault => .rejected fault
  | none => n.dial site

/-- **A machine of its own**: sockets listen at some paths, and no address can be reached. -/
def isolated (sockets : List (String × Transport)) : Network where
  dial
    | .network _ => .rejected ⟨.networkUnreachable, some "Network is unreachable (os error 101)"⟩
    | .path path =>
      match sockets.lookup path with
      | some transport => .accepted transport
      | none => .rejected ⟨.notFound, some "No such file or directory (os error 2)"⟩
    | .name _ => .rejected ⟨.connectionRefused, some "Connection refused (os error 111)"⟩

end Network

end RespClient
