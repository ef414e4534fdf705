import RespClient.Topic
import RespClient.Total

/-!
# Registry — who listens to what

A persistent listener hears every message of its topic, a single-shot one the next only.  Each sort has
a table of listeners by topic, in the order they were registered.  A table keeps no topic without
listeners, so that a topic is in the table exactly while someone listens to it.
-/

namespace RespClient

/-- How long a listener stays. -/
inductive Persistence
  | persistent
  | singleShot
deriving DecidableEq

/-- **Listeners by topic**, each with the number of its registration. -/
abbrev ListenerTable (α : Type) := List (Topic × List (Nat × α))

namespace ListenerTable

variable {α : Type}

/-- The listeners of a topic, in the order they were registered. -/
def listeners (topic : Topic) : ListenerTable α → List (Nat × α)
  | [] => []
  | (t, ls) :: rest => if t = topic then ls else listeners topic rest

/-- Whether anyone listens to the topic. -/
def contains (topic : Topic) (table : ListenerTable α) : Bool := table.any fun row => row.1 = topic

/-- One more listener of a topic, after those it has. -/
def insert (topic : Topic) (id : Nat) (listener : α) : ListenerTable α → ListenerTable α
  | [] => [(topic, [(id, listener)])]
  | (t, ls) :: rest =>
    if t = topic then (t, ls ++ [(id, listener)]) :: rest
    else (t, ls) :: insert topic id listener rest

/-- Whether the handle's registration is in the table. -/
def holds (h : Handle) (table : ListenerTable α) : Bool :=
  (listeners h.topic table).any fun l => l.1 = h.id

/-- The table without the handle's registration, and without its topic if no one else listens. -/
def erase (h : Handle) : ListenerTable α → ListenerTable α
  | [] => []
  | (t, ls) :: rest =>
    if t = h.topic then
      let kept := ls.filter fun l => l.1 ≠ h.id
      if kept.isEmpty then rest else (t, kept) :: rest
    else (t, ls) :: erase h rest

/-- The table without a topic. -/
def eraseTopic (topic : Topic) (table : ListenerTable α) : ListenerTable α :=
  table.filter fun row => row.1 ≠ topic

/-- How many registrations the table has. -/
def size (table : ListenerTable α) : Nat := total (fun row => row.2.length) table

end ListenerTable

/-- How many listeners one message reached. -/
structure Delivery where
  persistent : Nat := 0
  singleShot : Nat := 0
deriving DecidableEq

/-- The listeners reached, of both sorts. -/
def Delivery.total (d : Delivery) : Nat := d.persistent + d.singleShot

/-- **Who listens to what.** -/
structure Registry (α : Type) where
  persistent : ListenerTable α := []
  singleShot : ListenerTable α := []

namespace Registry

variable {α : Type}

/-- No listeners. -/
def empty : Registry α := {}

/-- One more listener, under its handle. -/
def insert (r : Registry α) (h : Handle) (persistence : Persistence) (listener : α) : Registry α :=
  match persistence with
  | .persistent => { r with persistent := r.persistent.insert h.topic h.id listener }
  | .singleShot => { r with singleShot := r.singleShot.insert h.topic h.id listener }

/-- **The registry without the handle's registration**, if it has it. -/
def remove? (r : Registry α) (h : Handle) : Option (Registry α) :=
  if r.persistent.holds h then some { r with persistent := r.persistent.erase h }
  else if r.singleShot.holds h then some { r with singleShot := r.singleShot.erase h }
  else none

/-- Whether anyone listens to the topic. -/
def contains (r : Registry α) (topic : Topic) : Bool :=
  r.persistent.contains topic || r.singleShot.contains topic

def isEmpty (r : Registry α) : Bool := r.persistent.isEmpty && r.singleShot.isEmpty

/-- How many listeners are registered. -/
def size (r : Registry α) : Nat := r.persistent.size + r.singleShot.size

/-- **The listeners a message of this topic reaches**, in order: persistent ones first, then the
single-shot ones. -/
def audience (r : Registry α) (topic : Topic) : List α :=
  (r.persistent.listeners topic ++ r.singleShot.listeners topic).map Prod.snd

/-- How many listeners of each sort a message of this topic reaches. -/
def delivery (r : Registry α) (topic : Topic) : Delivery :=
  ⟨(r.persistent.listeners topic).length, (r.singleShot.listeners topic).length⟩

/-- The registry after a message of this topic: its single-shot listeners are gone. -/
def spend (r : Registry α) (topic : Topic) : Registry α :=
  { r with singleShot := r.singleShot.eraseTopic topic }

end Registry

end RespClient
