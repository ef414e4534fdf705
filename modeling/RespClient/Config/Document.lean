import RespClient.Config

/-!
# Config/Document — a configuration as a JSON document

    configuration ─▸ members ──write──▸ document ──read──▸ members found ─▸ configuration

A document has a member for each field.  How members are spelled, and found again in a text, is the matter
of a `Format`; what they hold, and what becomes of them, is said here.  Deadlines are held in whole
milliseconds, and a field that is left out has its default.
-/

namespace RespClient

/-- The whole milliseconds in a span as an unsigned 64-bit word, which drops what does not fit. -/
def Duration.word (d : Duration) : UInt64 := .ofNat d.wholeMillis

namespace Config

/-- The fields, by their place in a document. -/
inductive Field
  | endpoint
  | connectTimeout
  | commandTimeout
  | nodelay
  | readBufferSize
deriving DecidableEq

namespace Field

/-- All fields in order. -/
def all : List Field := [endpoint, connectTimeout, commandTimeout, nodelay, readBufferSize]

/-- The key of a field. -/
def key : Field → String
  | endpoint => "endpoint"
  | connectTimeout => "connect_timeout_ms"
  | commandTimeout => "command_timeout_ms"
  | nodelay => "tcp_nodelay"
  | readBufferSize => "read_buffer_size"

/-- **What the member of a field holds**: a text, a flag, a word, or a word or nothing. -/
abbrev Carrier : Field → Type
  | endpoint => String
  | connectTimeout | commandTimeout => Option UInt64
  | nodelay => Bool
  | readBufferSize => UInt64

end Field

/-- What a document holds of every field. -/
abbrev Members := (f : Field) → f.Carrier

/-- What was found in a document; a member may be left out. -/
abbrev Found := (f : Field) → Option f.Carrier

/-- **How documents are written and read**, given the keys. -/
structure Format where
  /-- The members as a document. -/
  write : (Field → String) → Members → String
  /-- The members found in a document, or what is wrong with it. -/
  read : (Field → String) → String → Except String Found

/-- **The members are read back** out of the document that is written for them. -/
def Format.ReadsBack (format : Format) (key : Field → String) (members : Members) : Prop :=
  format.read key (format.write key members) = .ok fun f => some (members f)

/-! ## Writing -/

/-- **The members of a configuration.** -/
def members (c : Config) : Members
  | .endpoint => c.endpoint
  | .connectTimeout => c.connectTimeout.map Duration.word
  | .commandTimeout => c.commandTimeout.map Duration.word
  | .nodelay => c.nodelay
  | .readBufferSize => c.readBufferSize

/-- **The configuration as a document.** -/
def render (format : Format) (c : Config) : String := format.write Field.key c.members

/-! ## Reading -/

/-- A deadline of so many milliseconds, or none. -/
def deadline (word? : Option UInt64) : Option Duration := word?.map fun n => .ofMillis n.toNat

/-- The configuration with a field as its member says. -/
def set (c : Config) : (f : Field) → f.Carrier → Config
  | .endpoint, text => { c with endpoint := text }
  | .connectTimeout, word? => { c with connectTimeout := deadline word? }
  | .commandTimeout, word? => { c with commandTimeout := deadline word? }
  | .nodelay, flag => { c with nodelay := flag }
  | .readBufferSize, word => { c with readBufferSize := word }

/-- **The configuration that members describe**, whether a client can run with it or not: what is left out
has its default. -/
def ofMembers (found : Found) : Config :=
  Field.all.foldl (fun c f => ((found f).map (c.set f)).getD c) {}

/-- **The configuration that a document describes**, if a client can run with it. -/
def parse (format : Format) (text : String) : Except Failure Config :=
  match format.read Field.key text with
  | .error wrong => .error (.config wrong)
  | .ok found => (ofMembers found).validate.map fun _ => ofMembers found

end Config

end RespClient
