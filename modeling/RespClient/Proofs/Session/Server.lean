import RespClient.Proofs.Session.Topics
import RespClient.Proofs.Wire.Framing

/-!
# Proofs/Session/Server — a connection and its server

    client ──outbound──▸ uplink ──▸ server ──▸ downlink ──▸ client
                                      │
                                  flight: what the downlink's bytes say

A session is a connection together with a server at the other end of two streams of bytes.  The server
carries out the commands it reads one after another, sends one reply to each, and passes on messages of
the topics it holds whenever it likes (`Reachable`).  How it may answer are its `Manners`.

Beside the state, a session has a history: what the client asked, what the server replied, what the
client met and what it did then.  No step looks at it.
-/

namespace RespClient

/-! ## The server -/

/-- Whether the command is one by which subscriptions begin or end, in any spelling. -/
def Command.reserved (c : Command) : Bool :=
  ["SUBSCRIBE", "PSUBSCRIBE", "UNSUBSCRIBE", "PUNSUBSCRIBE"].any fun name =>
    c.isNamed (Utf8.encode name)

/-- **How a server behaves** where the protocol leaves it free. -/
structure Manners where
  /-- It may refuse subscriptions. -/
  refuses : Prop
  /-- What it may reply to a command that is not reserved. -/
  plain : Value → Prop

/-- **How a server answers a command**: what it held, the command, its reply, and what it holds then. -/
inductive Answers (m : Manners) (held : List Topic) : Command → Value → List Topic → Prop
  | accepts (t : Topic) {v : Value} (hv : v.isError = false) (hp : Push.ofValue? v = none) :
    Answers m held t.subscribe v (t :: held)
  | refuses (t : Topic) {v : Value} (hm : m.refuses) (hv : v.isError = true) :
    Answers m held t.subscribe v held
  | ends (t : Topic) {v : Value} (hp : Push.ofValue? v = none) :
    Answers m held t.unsubscribe v (held.filter (· ≠ t))
  | replies {command : Command} {v : Value} (hc : command.reserved = false) (hv : m.plain v) :
    Answers m held command v held

namespace Topic

theorem subscribe_injective : Function.Injective Topic.subscribe := by
  rintro ⟨kind, name⟩ ⟨kind', name'⟩ h
  simp only [Topic.subscribe, Command.mk.injEq, List.cons.injEq, and_true] at h
  obtain ⟨hk, rfl⟩ := h
  cases kind <;> cases kind' <;> first | rfl | exact absurd hk (by decide +kernel)

theorem unsubscribe_injective : Function.Injective Topic.unsubscribe := by
  rintro ⟨kind, name⟩ ⟨kind', name'⟩ h
  simp only [Topic.unsubscribe, Command.mk.injEq, List.cons.injEq, and_true] at h
  obtain ⟨hk, rfl⟩ := h
  cases kind <;> cases kind' <;> first | rfl | exact absurd hk (by decide +kernel)

theorem subscribe_ne_unsubscribe (t u : Topic) : t.subscribe ≠ u.unsubscribe := by
  obtain ⟨kind, name⟩ := t
  obtain ⟨kind', name'⟩ := u
  intro h
  simp only [Topic.subscribe, Topic.unsubscribe, Command.mk.injEq] at h
  cases kind <;> cases kind' <;> exact absurd h.1 (by decide +kernel)

theorem reserved_subscribe (t : Topic) : t.subscribe.reserved := by
  have h (kind : TopicKind) : (⟨Utf8.encode kind.subscribe, []⟩ : Command).reserved := by
    cases kind <;> decide +kernel
  exact h t.kind

theorem reserved_unsubscribe (t : Topic) : t.unsubscribe.reserved := by
  have h (kind : TopicKind) : (⟨Utf8.encode kind.unsubscribe, []⟩ : Command).reserved := by
    cases kind <;> decide +kernel
  exact h t.kind

end Topic

namespace Answers

variable {m : Manners} {held held' : List Topic} {v : Value}

theorem of_subscribe {t : Topic} (h : Answers m held t.subscribe v held') :
    v.isError = false ∧ held' = t :: held ∨ m.refuses ∧ v.isError = true ∧ held' = held := by
  generalize hc : t.subscribe = command at h
  cases h with
  | accepts u hv hp =>
    obtain rfl := Topic.subscribe_injective hc
    exact .inl ⟨hv, rfl⟩
  | refuses u hm hv => exact .inr ⟨hm, hv, rfl⟩
  | ends u => exact absurd hc (Topic.subscribe_ne_unsubscribe t u)
  | replies hr => rw [← hc, Topic.reserved_subscribe] at hr; cases hr

theorem of_unsubscribe {t : Topic} (h : Answers m held t.unsubscribe v held') :
    held' = held.filter (· ≠ t) := by
  generalize hc : t.unsubscribe = command at h
  cases h with
  | accepts u => exact absurd hc.symm (Topic.subscribe_ne_unsubscribe u t)
  | refuses u => exact absurd hc.symm (Topic.subscribe_ne_unsubscribe u t)
  | ends u =>
    obtain rfl := Topic.unsubscribe_injective hc
    rfl
  | replies hr => rw [← hc, Topic.reserved_unsubscribe] at hr; cases hr

theorem of_civil {command : Command} (h : Answers m held command v held')
    (hc : command.reserved = false) : held' = held := by
  cases h with
  | accepts t => rw [Topic.reserved_subscribe] at hc; cases hc
  | refuses t => rfl
  | ends t => rw [Topic.reserved_unsubscribe] at hc; cases hc
  | replies => rfl

/-- An answer has not the shape of a message, if plain replies have not. -/
theorem not_push {command : Command} (h : Answers m held command v held')
    (hm : ∀ w, m.plain w → Push.ofValue? w = none) : Push.ofValue? v = none := by
  cases h with
  | accepts t hv hp => exact hp
  | refuses t hr hv =>
    cases v with
    | error message => rfl
    | _ => cases hv
  | ends t hp => exact hp
  | replies hc hv => exact hm v hv

end Answers

/-- **What a server sends.** -/
inductive Message
  | reply (command : Command) (v : Value)
  | push (push : Push) (v : Value)

namespace Message

def value : Message → Value
  | reply _ v | push _ v => v

/-- The command that it answers and the reply, if it is one. -/
def reply? : Message → Option (Command × Value)
  | reply command v => some (command, v)
  | push _ _ => none

end Message

/-! ## What handlers are to get -/

/-- **What the handlers are to get**: each the outcome of the replies to its own commands, if the
replies are those to the commands of the orders, in order. -/
def calls {κ : Type} : List (Order κ) → List Value → List (κ × Value)
  | [], _ => []
  | o :: os, replies =>
    if replies.length < o.commands.length then []
    else o.calls (replies.take o.commands.length) ++ calls os (replies.drop o.commands.length)

/-- What an event hands to a handler from the server. -/
def Event.handed? {κ α : Type} : Event κ α → Option (κ × Value)
  | replied k (.ok v) => some (k, v)
  | _ => none

/-! ## The session -/

/-- **A message comes to the client**: the connection that met it, and the topics taken by then. -/
structure Encounter (κ α : Type) where
  before : Connection κ α
  taken : List Topic
  message : Message

/-- What the client does about it. -/
def Encounter.events {κ α : Type} (e : Encounter κ α) : List (Event κ α) :=
  (e.before.dispatch e.message.value).2

/-- **A connection and its server.** -/
structure Session (κ α : Type) where
  client : Connection κ α := {}
  /-- Bytes on their way to the server. -/
  uplink : Bytes := []
  /-- The topics the server holds. -/
  held : List Topic := []
  /-- Bytes on their way to the client. -/
  downlink : Bytes := []
  /-- The messages that are on their way. -/
  flight : List Message := []
  /-- The orders the client placed. -/
  asked : List (Order κ) := []
  /-- The messages the server sent. -/
  sent : List Message := []
  /-- The messages that came to the client. -/
  trace : List (Encounter κ α) := []
  /-- What the client did about them. -/
  heard : List (Event κ α) := []
  /-- The topics whose last registration went by a refusal. -/
  taken : List Topic := []

namespace Session

variable {κ α : Type}

/-- The commands that the server carried out, with its replies. -/
def served (s : Session κ α) : List (Command × Value) := s.sent.filterMap Message.reply?

/-- The commands whose replies came to the client, with these. -/
def met (s : Session κ α) : List (Command × Value) := s.trace.filterMap (·.message.reply?)

/-- **What handlers got from the server**, in order. -/
def handed (s : Session κ α) : List (κ × Value) := s.heard.filterMap Event.handed?

/-- The user of the client does something. -/
def act (s : Session κ α) (op : Op κ α) : Session κ α :=
  let client := (s.client.perform op).1
  { s with
      client
      asked := s.asked ++ (s.client.order? op).toList
      taken := stillTaken client.registry s.taken }

/-- Some of the outbound bytes are written. -/
def write (s : Session κ α) (n : Nat) : Session κ α :=
  { s with client := s.client.written n, uplink := s.uplink ++ s.client.outbound.take n }

/-- The server carries out the command before `rest` and sends its reply as `bytes`. -/
def serve (s : Session κ α) (command : Command) (v : Value) (bytes rest : Bytes)
    (held : List Topic) : Session κ α :=
  { s with
      uplink := rest
      held
      downlink := s.downlink ++ bytes
      flight := s.flight ++ [.reply command v]
      sent := s.sent ++ [.reply command v] }

/-- The server passes on a message as `bytes`. -/
def pass (s : Session κ α) (push : Push) (v : Value) (bytes : Bytes) : Session κ α :=
  { s with
      downlink := s.downlink ++ bytes
      flight := s.flight ++ [.push push v]
      sent := s.sent ++ [.push push v] }

/-- **A message comes to the client.** -/
def meet (s : Session κ α) (message : Message) : Session κ α :=
  let turn := s.client.dispatch message.value
  let parting := (s.client.pushed? message.value).bind s.client.parting?
  { s with
      client := turn.1
      flight := s.flight.tail
      asked := s.asked ++ parting.toList
      trace := s.trace ++ [⟨s.client, s.taken, message⟩]
      heard := s.heard ++ turn.2
      taken := takenBy s.client.registry turn.1.registry s.taken (s.client.refused? message.value) }

/-- **A chunk of bytes is fed to the client**, and `rest` is still on its way.  The history follows the
messages the chunk completes one by one. -/
def receive (s : Session κ α) (chunk rest : Bytes) : Session κ α :=
  let fed := s.client.feed chunk
  let count := fed.result.toOption.getD 0
  { (s.flight.take count).foldl meet s with
      client := fed.turn.1
      downlink := rest
      heard := s.heard ++ fed.turn.2 }

end Session

/-- Whether the user may do it: it reads and writes no bytes, and its commands are not reserved. -/
def Op.civil {κ α : Type} : Op κ α → Bool
  | feed _ | written _ => false
  | submit command _ => !command.reserved
  | submitBatch commands _ => commands.all fun command => !command.reserved
  | _ => true

/-- **The sessions that come about** with a server of these manners. -/
inductive Reachable {κ α : Type} (m : Manners) : Session κ α → Prop
  | start : Reachable m {}
  | act {s : Session κ α} (op : Op κ α) (h : Reachable m s) (hop : op.civil) : Reachable m (s.act op)
  | write {s : Session κ α} (n : Nat) (h : Reachable m s) : Reachable m (s.write n)
  | serve {s : Session κ α} {command : Command} {v : Value} {bytes rest : Bytes} {held : List Topic}
    (h : Reachable m s) (hup : s.uplink = command.encode ++ rest)
    (ha : Answers m s.held command v held) (hb : Decoder.Spells bytes v) :
    Reachable m (s.serve command v bytes rest held)
  | pass {s : Session κ α} {push : Push} {v : Value} {bytes : Bytes} (h : Reachable m s)
    (ht : push.topic ∈ s.held) (hv : Push.ofValue? v = some push) (hb : Decoder.Spells bytes v) :
    Reachable m (s.pass push v bytes)
  | receive {s : Session κ α} {chunk rest : Bytes} (h : Reachable m s)
    (hdown : s.downlink = chunk ++ rest) : Reachable m (s.receive chunk rest)

/-! ## A channel to try things on -/

namespace Session

/-- A session whose connection is open. -/
def connected (κ α : Type) : Session κ α :=
  (({} : Session κ α).act .beginConnect).act .connectSucceeded

/-- The channel `c`. -/
def channel : Topic := ⟨.channel, [99]⟩

/-- The message `x` in the channel. -/
def note : Value := .array [.bytes Push.messageWord, .bytes [99], .bytes [120]]

/-- A subscription to the channel is accepted. -/
def welcome : Value := .array [.bytes (Utf8.encode "subscribe"), .bytes [99], .integer 1]

end Session

theorem Reachable.connected {κ α : Type} {m : Manners} : Reachable m (Session.connected κ α) :=
  (Reachable.start.act .beginConnect rfl).act .connectSucceeded rfl

end RespClient
