import RespClient.Address
import RespClient.Failure

/-!
# Endpoint — where a client connects

An endpoint is the address of a server on the network, or `unix:` and the path of a socket on this
machine.  Names are not looked up.
-/

namespace RespClient

/-- **Where a client connects.** -/
inductive Endpoint
  | network (address : SocketAddress)
  | socket (path : String)
deriving DecidableEq

namespace Endpoint

/-- **Reads an endpoint.**  A path must not be empty. -/
def parse (text : String) : Except Failure Endpoint :=
  match text.toList with
  | 'u' :: 'n' :: 'i' :: 'x' :: ':' :: path =>
    if path.isEmpty then .error (.invalidAddress text) else .ok (.socket (String.ofList path))
  | _ =>
    match SocketAddress.parse? text with
    | some address => .ok (.network address)
    | none => .error (.invalidAddress text)

end Endpoint

end RespClient
