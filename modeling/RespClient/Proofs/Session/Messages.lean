import RespClient.Proofs.Session.Steps

/-!
# Proofs/Session/Messages — messages go to the listeners

A server that refuses nothing, and replies to ordinary commands with nothing that has the shape of a
message.  Then every message of a topic goes to those who listen to the topic when it comes, and to
nobody else: no handler is called, no command loses its reply, and nothing is reported
(`Reachable.routed`).  It may come when nobody listens any more (`routed_parted`): the server stops
when it reads of the end of the subscription, and until it has answered, messages are expected.
-/

namespace RespClient

open Connection

variable {κ α : Type}

/-- **A server that accepts every subscription**, and replies with no message. -/
def Manners.steady : Manners := ⟨False, fun v => Push.ofValue? v = none⟩

/-- **A message goes to the listeners.** -/
structure Encounter.Delivers (e : Encounter κ α) (p : Push) : Prop where
  /-- Those who listen to the topic get its bytes, and nothing else happens. -/
  events : e.events = (e.before.registry.audience p.topic).map fun l => .delivered l p.payload
  /-- The queue loses nothing; the end of a subscription may join it, for which no handler waits. -/
  queue : ∃ more : List (Pending κ),
    (e.before.dispatch e.message.value).1.pending = e.before.pending ++ more ∧
      ∀ q ∈ more, q.target = .nobody
  /-- The batches lose nothing. -/
  batches : (e.before.dispatch e.message.value).1.batches = e.before.batches

/-- **Every message goes to the listeners.** -/
structure Session.Routed (s : Session κ α) : Prop where
  /-- What the server sent came, in order, or is on its way, … -/
  sent : s.sent = s.trace.map (·.message) ++ s.flight
  /-- … namely in the bytes that were not read. -/
  coming : s.client.stage ≠ .closed →
    Decoder.Reads s.client.decoder s.downlink (s.flight.map Message.value)
  /-- Whatever the client did about what it read, it did about one of the messages that came, … -/
  heard : s.heard = s.trace.flatMap Encounter.events
  /-- … and these go to the listeners, if they are messages of a topic. -/
  delivers : ∀ e ∈ s.trace, ∀ p v, e.message = .push p v → e.Delivers p

/-- A message that is taken for one goes to the listeners. -/
theorem Encounter.delivers {e : Encounter κ α} {p : Push} {v : Value} (he : e.message = .push p v)
    (hclear : e.Clear) : e.Delivers p := by
  rw [Clear, he] at hclear
  have hdispatch : e.before.dispatch e.message.value = e.before.deliver p := by
    rw [he]
    exact dispatch_pushed hclear
  have hplaces := (deliver_effect e.before p).places
  refine ⟨?_, ?_, ?_⟩
  · rw [events, hdispatch, deliver_events]
  · rw [hdispatch, hplaces.pending, parting?]
    split
    · exact ⟨[⟨.nobody, .unsubscribeAck⟩], rfl, fun q hq => by rw [List.mem_singleton.mp hq]⟩
    · exact ⟨[], (List.append_nil _).symm, fun q hq => absurd hq List.not_mem_nil⟩
  · rw [hdispatch, hplaces.batches, parting?]
    split
    · exact List.append_nil _
    · rfl

/-- **Every message goes to the listeners**, whatever the user does, and whatever and whenever the
server sends. -/
theorem Reachable.routed {s : Session κ α} (h : Reachable .steady s) : s.Routed := by
  have htracked : Tracked .steady s := h.tracked fun e _ => by
    obtain ⟨before, taken, message⟩ := e
    cases message with
    | reply command v => exact .inl fun _ hw => hw
    | push p v => exact fun hr => hr.elim
  exact ⟨htracked.told.sent, htracked.stream, htracked.told.heard,
    fun e he p v hv => Encounter.delivers hv (htracked.told.clear e he)⟩

/-! ## A message that comes late

    SUBSCRIBE c ──▸ accepted        ["message", "c", "x"]        UNSUBSCRIBE c ──▸ ended -/

namespace Session

/-- The subscription to the channel has ended. -/
def farewell : Value := .array [.bytes (Utf8.encode "unsubscribe"), .bytes [99], .integer 0]

/-- **The listener leaves**, and the message is sent before the server knows. -/
def parted : Session Nat Nat :=
  let s := (connected Nat Nat).act (.register channel .persistent 0 1)
  let s := s.write s.client.outbound.length
  let s := s.serve channel.subscribe welcome (Wire.reply welcome) [] (channel :: s.held)
  let s := s.receive s.downlink []
  let s := s.act (.unsubscribe ⟨1, channel⟩ 2)
  let s := s.pass ⟨channel, [99], [120]⟩ note (Wire.reply note)
  let s := s.write s.client.outbound.length
  let s := s.serve channel.unsubscribe farewell (Wire.reply farewell) [] (s.held.filter (· ≠ channel))
  s.receive s.downlink []

end Session

open Session

theorem Reachable.parted : Reachable .steady parted := by
  refine .receive (.serve (.write _ (.pass ?_ ?_ rfl ?_)) ?_ (.ends _ rfl) ?_) (List.append_nil _).symm
  · refine .act _ (.receive (.serve (.write _ (.act _ .connected rfl)) ?_ (.accepts _ rfl rfl) ?_)
      (List.append_nil _).symm) rfl
    all_goals decide +kernel
  all_goals decide +kernel

theorem routed_parted : Reachable .steady parted ∧ parted.Routed ∧
    ∃ e ∈ parted.trace, e.message.reply?.isNone ∧ e.before.registry.isEmpty :=
  ⟨.parted, Reachable.parted.routed, by decide +kernel⟩

end RespClient
