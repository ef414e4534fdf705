import RespClient.Wire.Encode

/-!
# Command — what a client asks of the server

A command is a list of byte strings, the first of which is its name, so a command is never empty: of no
byte strings there is none (`ofArguments?`).
-/

namespace RespClient

/-- **A command**: its name and what follows it. -/
structure Command where
  name : Bytes
  operands : List Bytes := []
deriving DecidableEq

namespace Command

/-- A command from all its arguments, name first; there is none without a name. -/
def ofArguments? : List Bytes → Option Command
  | [] => none
  | name :: operands => some ⟨name, operands⟩

/-- All arguments, name first. -/
def arguments (c : Command) : List Bytes := c.name :: c.operands

/-- The command with more arguments at its end. -/
def append (c : Command) (more : List Bytes) : Command := { c with operands := c.operands ++ more }

/-- The lower-case form of an ASCII letter; any other byte is itself. -/
def lower (b : UInt8) : UInt8 := if 65 ≤ b ∧ b ≤ 90 then b + 32 else b

/-- Whether the command has this name, whatever the case of ASCII letters. -/
def isNamed (c : Command) (name : Bytes) : Bool := c.name.map lower == name.map lower

/-- The command as bytes. -/
def encode (c : Command) : Bytes := Wire.command c.arguments

/-- The command that publishes a message on a channel. -/
def publish (channel message : Bytes) : Command := ⟨Utf8.encode "PUBLISH", [channel, message]⟩

end Command

/-- **Commands to be sent in one go.** -/
structure Pipeline where
  commands : List Command := []

namespace Pipeline

/-- One more command at the end. -/
def push (p : Pipeline) (c : Command) : Pipeline := ⟨p.commands ++ [c]⟩

def size (p : Pipeline) : Nat := p.commands.length

def isEmpty (p : Pipeline) : Bool := p.commands.isEmpty

end Pipeline

end RespClient
