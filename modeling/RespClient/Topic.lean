import RespClient.Command

/-!
# Topic — what messages are published to

A topic is a channel, by its exact name, or a pattern of names; a channel and a pattern with the same
name are different topics.  `Push.ofValue?` recognises the arrays by which a server passes a message
on: `["message", channel, payload]` and `["pmessage", pattern, channel, payload]`, byte strings
throughout.
-/

namespace RespClient

/-- Whether a topic is one channel or a pattern of channels. -/
inductive TopicKind
  | channel
  | pattern
deriving DecidableEq

namespace TopicKind

def name : TopicKind → String
  | channel => "channel"
  | pattern => "pattern"

/-- The name of the command that subscribes to a topic of this kind. -/
def subscribe : TopicKind → String
  | channel => "SUBSCRIBE"
  | pattern => "PSUBSCRIBE"

/-- The name of the command that ends a subscription to a topic of this kind. -/
def unsubscribe : TopicKind → String
  | channel => "UNSUBSCRIBE"
  | pattern => "PUNSUBSCRIBE"

end TopicKind

/-- **What messages are published to.** -/
structure Topic where
  kind : TopicKind
  name : Bytes
deriving DecidableEq

namespace Topic

/-- A topic in words. -/
def describe (t : Topic) : String := t.kind.name ++ " " ++ Utf8.decode t.name

/-- The command that subscribes to the topic. -/
def subscribe (t : Topic) : Command := ⟨Utf8.encode t.kind.subscribe, [t.name]⟩

/-- The command that ends the subscription to the topic. -/
def unsubscribe (t : Topic) : Command := ⟨Utf8.encode t.kind.unsubscribe, [t.name]⟩

end Topic

/-- **One registration of a listener**: its number on the connection, and the topic. -/
structure Handle where
  id : Nat
  topic : Topic
deriving DecidableEq

/-- **A message passed on by the server**: the topic it was subscribed by, the channel it was published
to, and its bytes. -/
structure Push where
  topic : Topic
  channel : Bytes
  payload : Bytes
deriving DecidableEq

namespace Push

/-- `message` -/
def messageWord : Bytes := [109, 101, 115, 115, 97, 103, 101]

/-- `pmessage` -/
def patternWord : Bytes := 112 :: messageWord

/-- **The message a reply passes on**, if it is one. -/
def ofValue? : Value → Option Push
  | .array [.bytes word, .bytes channel, .bytes payload] =>
    if word = messageWord then some ⟨⟨.channel, channel⟩, channel, payload⟩ else none
  | .array [.bytes word, .bytes pattern, .bytes channel, .bytes payload] =>
    if word = patternWord then some ⟨⟨.pattern, pattern⟩, channel, payload⟩ else none
  | _ => none

end Push

end RespClient
