import RespClient.Proofs.Session.Synced

/-!
# Proofs/Session/Steps — every step keeps the two ends in step

One lemma a step: what the user does (`Synced.ask`), what the server does (`Synced.serve`,
`Synced.pass`), and a message that comes to the client (`Synced.meet`), which is where replies and
messages could be mistaken for each other.  A chunk of bytes is some messages one after another
(`Tracked.receive`), so a whole session is tracked (`Reachable.tracked`).
-/

namespace RespClient

open Connection

variable {κ α : Type} {m : Manners}

namespace Synced

variable {s : Session κ α} {seen : List Topic} {d : Due κ} {due : List (Due κ)}

theorem start : Synced m ({} : Session κ α) [] [] where
  owes := .nil rfl rfl rfl
  sound := .empty 1
  idle _ := Registry.not_lives_empty
  agrees := .empty
  kept _ := rfl
  follows := .nil []
  civil _ h := absurd h List.not_mem_nil
  progress := .start

/-! ## What the user does -/

theorem civil_order? {c : Connection κ α} {op : Op κ α} (hop : op.civil) {o : Order κ}
    (ho : c.order? op = some o) (hp : o.isPlain) : ∀ c ∈ o.commands, c.reserved = false := by
  cases op <;> simp only [Connection.order?, Option.ite_none_right_eq_some, Option.some.injEq,
    reduceCtorEq] at ho
  case submit command k =>
    obtain ⟨-, rfl⟩ := ho
    intro c hc
    obtain rfl := List.mem_singleton.mp hc
    simpa [Op.civil] using hop
  case submitBatch commands k =>
    obtain ⟨-, rfl⟩ := ho
    intro c hc
    have := List.all_eq_true.mp hop c hc
    simpa using this
  all_goals
    obtain ⟨-, rfl⟩ := ho
    cases hp

theorem orders_append (due : List (Due κ)) (o? : Option (Order κ)) (number : Nat) :
    (due ++ (o?.map fun o => (⟨o, number, []⟩ : Due κ)).toList).map (·.order)
      = due.map (·.order) ++ o?.toList := by
  cases o? <;> simp

/-- An order joins those that are due. -/
theorem civil_append (h : Synced m s seen due) {o? : Option (Order κ)} {number : Nat}
    (ho : ∀ o, o? = some o → o.isPlain → ∀ c ∈ o.commands, c.reserved = false) :
    ∀ d ∈ due ++ (o?.map fun o => ⟨o, number, []⟩).toList, d.order.isPlain →
      ∀ c ∈ d.order.commands, c.reserved = false := by
  intro d hd
  obtain hd | hd := List.mem_append.mp hd
  · exact h.civil d hd
  · obtain ⟨o, rfl, rfl⟩ := Option.map_eq_some_iff.mp (Option.mem_toList.mp hd)
    exact ho o rfl

/-- **The user asks something.** -/
theorem ask (h : Synced m s seen due) {op : Op κ α} (ha : op.asks) (hop : op.civil) :
    Synced m (s.act op) seen
      (due ++ ((s.client.order? op).map fun o => ⟨o, s.client.nextBatch, []⟩).toList) := by
  have hmoves := perform_moves h.sound h.idle ha
  refine {
    owes := (perform_effect s.client ha).places.owes h.owes fun _ ho => (order?_commands ho).1
    sound := hmoves.sound h.sound
    idle := fun ho hd hl => ?_
    agrees := ?_
    kept := fun hm => ?_
    follows := h.follows
    civil := h.civil_append fun _ => civil_order? hop
    progress := h.progress.place _ _ }
  · have hclosed : ¬ s.client.isOpen := fun hc => ho ((perform_stage s.client ha).1 hc)
    rw [order?_eq_none hclosed] at hmoves
    exact h.idle hclosed hd (hmoves.fewer hl)
  · rw [orders_append]
    exact h.agrees.moves h.sound hmoves
  · simp only [Session.act, h.kept hm]
    rfl

/-! ## What the server does -/

/-- **The server carries out a command.** -/
theorem serve (h : Synced m s seen due) {command : Command} {v : Value} {held : List Topic}
    (ha : Answers m s.held command v held) (bytes rest : Bytes) :
    Synced m (s.serve command v bytes rest held) seen due where
  owes := h.owes
  sound := h.sound
  idle := h.idle
  agrees := h.agrees
  kept := h.kept
  follows := h.follows.append (.reply ha (.nil held))
  civil := h.civil
  progress := h.progress

/-- **The server passes on a message.** -/
theorem pass (h : Synced m s seen due) {p : Push} {v : Value} (ht : p.topic ∈ s.held)
    (hv : Push.ofValue? v = some p) (bytes : Bytes) : Synced m (s.pass p v bytes) seen due where
  owes := h.owes
  sound := h.sound
  idle := h.idle
  agrees := h.agrees
  kept := h.kept
  follows := h.follows.append (.push ht hv (.nil s.held))
  civil := h.civil
  progress := h.progress

/-! ## A message comes -/

/-- **A message of a topic that was held is routed**, unless the topic is taken. -/
theorem routes (h : Synced m s seen due) {topic : Topic} (ht : topic ∈ seen)
    (he : m.refuses → topic ∈ s.taken → s.client.routesPushes) : s.client.routesPushes := by
  by_cases hu : ∃ d ∈ due, d.order.isUnsubscribe
  · -- an end of a subscription is due, so its answer is owed
    obtain ⟨d, hd, hu⟩ := hu
    have hpos : 0 < s.client.acksOwed := by
      rw [h.owes.acks]
      exact List.countP_pos_iff.mpr ⟨d, hd, hu⟩
    simp [routesPushes, hpos]
  · have hheld : holdsAfter (fun _ => True) topic (topic ∈ seen) (due.map (·.order)) := by
      refine holdsAfter_of_held ht fun o ho hou => ?_
      obtain ⟨d, hd, rfl⟩ := List.mem_map.mp ho
      exact hu ⟨d, hd, hou⟩
    obtain hc | htaken := h.agrees.guarded topic hheld
    · simp [routesPushes, Registry.isEmpty_eq_false hc]
    · by_cases hm : m.refuses
      · exact he hm htaken
      · rw [h.kept hm] at htaken
        cases htaken

theorem isError_of_push {v : Value} {p : Push} (hv : Push.ofValue? v = some p) :
    v.isError = false := by
  cases v with
  | error message => cases hv
  | _ => rfl

theorem refused?_of_not_error {c : Connection κ α} {v : Value} (hv : v.isError = false) :
    c.refused? v = none := by
  rw [refused?]
  split
  · rw [hv]
    rfl
  · rfl

theorem meet_eq_of_push {p : Push} {v : Value} (hp : s.client.pushed? v = some p) {ms : List Message}
    (hf : s.flight = .push p v :: ms) : s.meet (.push p v) = { s with
      client := (s.client.deliver p).1
      flight := ms
      asked := s.asked ++ (s.client.parting? p).toList
      trace := s.trace ++ [⟨s.client, s.taken, .push p v⟩]
      heard := s.heard ++ (s.client.deliver p).2
      taken := stillTaken (s.client.deliver p).1.registry s.taken } := by
  have hv : Push.ofValue? v = some p := by
    rw [pushed?, Option.ite_none_right_eq_some] at hp
    exact hp.2
  simp only [Session.meet, Message.value, dispatch_pushed hp, hp, Option.bind_some, hf,
    List.tail_cons, refused?_of_not_error (isError_of_push hv), takenBy]

/-- **A message of a topic comes.** -/
theorem meet_push (h : Synced m s seen due) {p : Push} {v : Value} {ms : List Message}
    (hf : s.flight = .push p v :: ms)
    (he : m.refuses → p.topic ∈ s.taken → s.client.routesPushes) :
    s.client.pushed? v = some p ∧
      ∃ due', Synced m (s.meet (.push p v)) seen due' := by
  obtain ⟨ht, hv, hrest⟩ := (hf ▸ h.follows).of_push
  have hp : s.client.pushed? v = some p := by
    rw [pushed?, if_pos (h.routes ht he), hv]
  have hmoves := deliver_moves h.sound p
  have hmeet := meet_eq_of_push hp hf
  have hmet : (s.meet (.push p v)).met = s.met := by
    simp [hmeet, Session.met, Message.reply?]
  have hhanded : (s.meet (.push p v)).handed = s.handed := by
    simp [hmeet, Session.handed, deliver_events, Event.handed?]
  refine ⟨hp, due ++ ((s.client.parting? p).map fun o => ⟨o, s.client.nextBatch, []⟩).toList, ?_⟩
  refine {
    owes := ?_
    sound := ?_
    idle := ?_
    agrees := ?_
    kept := fun hm => ?_
    follows := ?_
    civil := h.civil_append fun o ho hplain => ?_
    progress := ?_ }
  · rw [hmeet]
    exact h.owes.deliver p
  · rw [hmeet]
    exact hmoves.sound h.sound
  · rw [hmeet]
    dsimp only
    rw [(deliver_stage s.client p).1, deliver_registry]
    exact fun ho hd hl => h.idle ho hd hl.of_spend
  · rw [hmeet, orders_append]
    exact h.agrees.moves h.sound hmoves
  · simp only [hmeet, h.kept hm]
    rfl
  · rw [hmeet]
    exact hrest
  · simp only [parting?, Option.ite_none_right_eq_some, Option.some.injEq] at ho
    obtain ⟨-, rfl⟩ := ho
    cases hplain
  · rw [hmet, hhanded, hmeet]
    exact h.progress.place _ _

/-- Whom an error refuses: the subscription that is due first. -/
theorem refused?_eq {c : Connection κ α} {d : Due κ} {due : List (Due κ)} (h : c.Owes (d :: due))
    (v : Value) : c.refused? v = match d.order with
      | .subscribe hd _ => if v.isError then some hd else none
      | _ => none := by
  have hu := h.unfinished d List.mem_cons_self
  have hp := h.pending
  rw [List.flatMap_cons] at hp
  cases d, hu using Due.unfinished_cases with
  | batch cs k number got hu =>
    rw [entries_batch hu, List.cons_append] at hp
    rw [refused?, hp]
  | command cmd k =>
    rw [refused?, hp]
    rfl
  | subscribe hd k =>
    rw [refused?, hp]
    rfl
  | unsubscribe topic k =>
    rw [refused?, hp]
    rfl

/-- What is left of the orders after a reply. -/
theorem orders_next? (d : Due κ) (due : List (Due κ)) (v : Value) :
    ((d.next? v).toList ++ due).map (·.order)
      = (if d.goesOn then [d.order] else []) ++ due.map (·.order) := by
  rw [Due.next?]
  split <;> rfl

/-- **The first order is carried out, or goes on**: the registry and the server agree again. -/
theorem agrees_answer (h : Synced m s seen (d :: due)) {command : Command} {rest : List Command}
    (hd : d.commands = command :: rest) {v : Value} {mid : List Topic}
    (ha : Answers m seen command v mid) :
    Agrees (s.client.answer v).1.registry mid (((d.next? v).toList ++ due).map (·.order))
      (takenBy s.client.registry (s.client.answer v).1.registry s.taken (s.client.refused? v)) := by
  have hu := h.owes.unfinished d List.mem_cons_self
  have hagrees := h.agrees
  have hcivil := h.civil d List.mem_cons_self
  rw [(answer_registry s.client v).1, orders_next?, refused?_eq h.owes]
  rw [List.map_cons] at hagrees
  cases d, hu using Due.unfinished_cases with
  | subscribe hd' k =>
    obtain ⟨rfl, -⟩ := List.cons.inj hd
    obtain ⟨hv, rfl⟩ | ⟨-, hv, rfl⟩ := ha.of_subscribe
    · simp only [hv]
      exact hagrees.accepted.still
    · simp only [hv]
      exact hagrees.refused h.sound
  | unsubscribe topic k =>
    obtain ⟨rfl, -⟩ := List.cons.inj hd
    obtain rfl := ha.of_unsubscribe
    exact hagrees.finished.still
  | command cmd k =>
    obtain ⟨rfl, -⟩ := List.cons.inj hd
    obtain rfl := ha.of_civil (hcivil rfl cmd List.mem_cons_self)
    exact (hagrees.plain rfl).still
  | batch cs k =>
    have hmem : command ∈ cs := List.mem_of_mem_drop (hd ▸ List.mem_cons_self)
    obtain rfl := ha.of_civil (hcivil rfl command hmem)
    dsimp only
    split
    · exact hagrees.still
    · exact (hagrees.plain rfl).still

theorem refused?_eq_none (h : Synced m s seen (d :: due)) {command : Command}
    {rest : List Command} (hd : d.commands = command :: rest) {v : Value} {mid : List Topic}
    (ha : Answers m seen command v mid) (hm : ¬ m.refuses) : s.client.refused? v = none := by
  have hu := h.owes.unfinished d List.mem_cons_self
  rw [refused?_eq h.owes]
  cases d, hu using Due.unfinished_cases with
  | subscribe hd' k =>
    obtain ⟨rfl, -⟩ := List.cons.inj hd
    obtain ⟨hv, -⟩ | ⟨hr, -⟩ := ha.of_subscribe
    · simp [hv]
    · exact absurd hr hm
  | _ => rfl

theorem handed_replies (calls : List (κ × Value)) :
    (calls.map fun r => (.replied r.1 (.ok r.2) : Event κ α)).filterMap Event.handed? = calls := by
  rw [List.filterMap_map]
  exact List.filterMap_some

theorem meet_eq_of_reply {command : Command} {v : Value} (hp : s.client.pushed? v = none)
    {ms : List Message} (hf : s.flight = .reply command v :: ms) : s.meet (.reply command v) = { s with
      client := (s.client.answer v).1
      flight := ms
      trace := s.trace ++ [⟨s.client, s.taken, .reply command v⟩]
      heard := s.heard ++ (s.client.answer v).2
      taken := takenBy s.client.registry (s.client.answer v).1.registry s.taken
        (s.client.refused? v) } := by
  simp only [Session.meet, Message.value, dispatch_reply hp, hp, Option.bind_none,
    Option.toList_none, List.append_nil, hf, List.tail_cons]

/-- A reply that comes is one to the first order that is due. -/
theorem exists_due (h : Synced m s seen due) (ht : Told s) {command : Command} {v : Value}
    {ms : List Message} (hf : s.flight = .reply command v :: ms) :
    ∃ d due' rest, due = d :: due' ∧ d.commands = command :: rest := by
  obtain ⟨cs, hcs, -⟩ := h.due_commands ht
  rw [hf] at hcs
  cases due with
  | nil => cases hcs
  | cons d due =>
    have hu := h.owes.unfinished d List.mem_cons_self
    obtain ⟨command', rest, hd⟩ : ∃ command' rest, d.commands = command' :: rest :=
      List.exists_cons_of_ne_nil fun hn => by
        rw [Due.commands, List.drop_eq_nil_iff] at hn
        omega
    rw [List.flatMap_cons, hd] at hcs
    exact ⟨d, due, rest, rfl, hd.trans (congrArg (· :: rest) (List.cons.inj hcs).1)⟩

/-- What is left of an order is of the order. -/
theorem order_of_next? {d e : Due κ} {v : Value} (h : d.next? v = some e) : e.order = d.order := by
  rw [Due.next?, Option.ite_none_right_eq_some] at h
  rw [← Option.some.inj h.2]

/-- **A reply comes.** -/
theorem meet_reply (h : Synced m s seen due) (ht : Told s) {command : Command} {v : Value}
    {ms : List Message} (hf : s.flight = .reply command v :: ms)
    (he : (∀ w, m.plain w → Push.ofValue? w = none) ∨ s.client.pushed? v = none) :
    s.client.pushed? v = none ∧
      ∃ seen' due', Synced m (s.meet (.reply command v)) seen' due' := by
  obtain ⟨mid, ha, hrest⟩ := (hf ▸ h.follows).of_reply
  have hp : s.client.pushed? v = none := by
    obtain he | he := he
    · rw [pushed?, ha.not_push he, ite_self]
    · exact he
  obtain ⟨d, due, rest, rfl, hd⟩ := h.exists_due ht hf
  obtain ⟨howes, hevents⟩ := h.owes.answer v
  obtain ⟨hregistry, hnext⟩ := answer_registry s.client v
  have hmeet := meet_eq_of_reply hp hf
  have hmet : (s.meet (.reply command v)).met = s.met ++ [(command, v)] := by
    simp [hmeet, Session.met, Message.reply?]
  have hhanded : (s.meet (.reply command v)).handed = s.handed ++ d.calls v := by
    rw [hmeet, Session.handed, hevents, List.filterMap_append, handed_replies]
    rfl
  refine ⟨hp, mid, (d.next? v).toList ++ due, {
    owes := ?_
    sound := ?_
    idle := ?_
    agrees := ?_
    kept := fun hm => ?_
    follows := ?_
    civil := fun e he => ?_
    progress := ?_ }⟩
  · rw [hmeet]
    exact howes
  · rw [hmeet]
    dsimp only
    rw [hregistry, hnext]
    split
    · exact h.sound.getD_remove? _
    · exact h.sound
  · rw [hmeet]
    dsimp only
    rw [(answer_stage s.client v).1, hregistry]
    intro ho k hk
    split at hk
    · exact h.idle ho k ((lives_getD h.sound k).mp hk).1
    · exact h.idle ho k hk
  · rw [hmeet]
    exact h.agrees_answer hd ha
  · simp only [hmeet, h.refused?_eq_none hd ha hm, h.kept hm]
    rfl
  · rw [hmeet]
    exact hrest
  · obtain he | he := List.mem_append.mp he
    · rw [order_of_next? (Option.mem_toList.mp he)]
      exact h.civil d List.mem_cons_self
    · exact h.civil e (List.mem_cons_of_mem d he)
  · rw [hmet, hhanded, hmeet]
    exact h.progress.answer (h.owes.unfinished d List.mem_cons_self) h.owes.fresh hd v

/-- Bytes that are written and read play no part. -/
theorem congr_bytes (h : Synced m s seen due) {client : Connection κ α} {uplink downlink : Bytes}
    (hc : client = { s.client with outbound := client.outbound, decoder := client.decoder }) :
    Synced m { s with client, uplink, downlink } seen due := by
  rw [hc]
  exact {
    owes := h.owes.congr rfl rfl rfl rfl
    sound := h.sound
    idle := h.idle
    agrees := h.agrees
    kept := h.kept
    follows := h.follows
    civil := h.civil
    progress := h.progress }

end Synced

/-! ## What became of the orders -/

namespace Told

variable {s : Session κ α}

theorem start : Told ({} : Session κ α) where
  clear _ h := absurd h List.not_mem_nil
  heard := rfl
  handed := rfl
  sent := rfl
  uplink := ⟨[], [], rfl, rfl, fun _ => rfl⟩
  shut _ := rfl

/-- What was asked grows with what is to be written. -/
theorem uplink_placed (h : Told s) (o? : Option (Order κ)) :
    ∃ (cs : List Command) (rest : Bytes),
      (s.asked ++ o?.toList).flatMap Order.commands = s.served.map Prod.fst ++ cs ∧
        s.uplink ++ rest = cs.flatMap Command.encode ∧
        (s.client.stage ≠ .closed → rest = (s.client.placed o?).outbound) := by
  obtain ⟨cs, rest, hasked, hbytes, hrest⟩ := h.uplink
  cases o? with
  | none => exact ⟨cs, rest, by simpa using hasked, hbytes, hrest⟩
  | some o =>
    refine ⟨cs ++ o.commands, rest ++ o.commands.flatMap Command.encode, ?_, ?_, fun hc => ?_⟩
    · simp [hasked]
    · rw [← List.append_assoc, hbytes, List.flatMap_append]
    · rw [hrest hc]
      rfl

/-- **The user asks something.** -/
theorem ask (h : Told s) {op : Op κ α} (ha : op.asks)
    (hh : s.handed = calls (s.asked ++ (s.client.order? op).toList) (s.met.map Prod.snd)) :
    Told (s.act op) := by
  obtain ⟨hplaces, -⟩ := perform_effect s.client ha
  have hclosed := (perform_stage s.client ha).2
  refine ⟨h.clear, h.heard, hh, h.sent, ?_, fun hc => ?_⟩
  · obtain ⟨cs, rest, hasked, hbytes, hrest⟩ := h.uplink_placed (s.client.order? op)
    exact ⟨cs, rest, hasked, hbytes, fun hc =>
      (hrest fun hs => hc (hclosed.mpr hs)).trans hplaces.outbound.symm⟩
  · rw [order?_eq_none (not_isOpen_of_closed (hclosed.mp hc))] at hplaces
    exact hplaces.outbound.trans (h.shut (hclosed.mp hc))

/-- The user ends the conversation. -/
theorem finish (h : Told s) {op : Op κ α} (ho : s.client.order? op = none)
    (hc : (s.client.perform op).1.stage = .closed) (hout : (s.client.perform op).1.outbound = []) :
    Told (s.act op) := by
  obtain ⟨cs, rest, hasked, hbytes, -⟩ := h.uplink
  have hact : (s.act op).asked = s.asked := by
    rw [Session.act, ho]
    exact List.append_nil _
  exact ⟨h.clear, h.heard, hact ▸ h.handed, h.sent,
    ⟨cs, rest, hact ▸ hasked, hbytes, fun hn => absurd hc hn⟩, fun _ => hout⟩

theorem write (h : Told s) (n : Nat) : Told (s.write n) := by
  refine ⟨h.clear, h.heard, h.handed, h.sent, ?_, fun hc => ?_⟩
  · obtain ⟨cs, rest, hasked, hbytes, hrest⟩ := h.uplink
    by_cases hc : s.client.stage = .closed
    · refine ⟨cs, rest, hasked, ?_, fun hn => absurd hc hn⟩
      simpa [Session.write, h.shut hc] using hbytes
    · refine ⟨cs, s.client.outbound.drop n, hasked, ?_, fun _ => rfl⟩
      rw [hrest hc] at hbytes
      simpa [Session.write, List.append_assoc] using hbytes
  · simp [Session.write, written, h.shut hc]

/-- **The server carries out the command it reads**, which is the next that was asked. -/
theorem serve (h : Told s) {command : Command} {rest : Bytes}
    (hup : s.uplink = command.encode ++ rest) (v : Value) (bytes : Bytes) (held : List Topic) :
    Told (s.serve command v bytes rest held) := by
  refine ⟨h.clear, h.heard, h.handed, ?_, ?_, h.shut⟩
  · simp only [Session.serve, h.sent, List.append_assoc]
  · obtain ⟨cs, more, hasked, hbytes, hrest⟩ := h.uplink
    rw [hup, List.append_assoc] at hbytes
    obtain ⟨cs, rfl, hcs⟩ := Command.exists_cons_of_append_eq hbytes
    refine ⟨cs, more, ?_, hcs, hrest⟩
    simp [Session.serve, Session.served, Message.reply?, hasked]

theorem pass (h : Told s) (p : Push) (v : Value) (bytes : Bytes) : Told (s.pass p v bytes) := by
  have hserved : (s.pass p v bytes).served = s.served := by
    simp [Session.pass, Session.served, Message.reply?]
  refine ⟨h.clear, h.heard, h.handed, ?_, hserved ▸ h.uplink, h.shut⟩
  simp only [Session.pass, h.sent, List.append_assoc]

/-- **A message comes.** -/
theorem meet (h : Told s) {message : Message} {ms : List Message} (hf : s.flight = message :: ms)
    (hclear : Encounter.Clear ⟨s.client, s.taken, message⟩)
    (hh : (s.meet message).handed
      = calls (s.meet message).asked ((s.meet message).met.map Prod.snd))
    (hopen : s.client.stage ≠ .closed) : Told (s.meet message) := by
  refine ⟨fun e he => ?_, ?_, hh, ?_, ?_, fun hc => ?_⟩
  · obtain he | he := List.mem_append.mp he
    · exact h.clear e he
    · rw [List.mem_singleton.mp he]
      exact hclear
  · simp [Session.meet, h.heard, Encounter.events]
  · simp [Session.meet, h.sent, hf]
  · obtain ⟨cs, rest, hasked, hbytes, hrest⟩ :=
      h.uplink_placed ((s.client.pushed? message.value).bind s.client.parting?)
    exact ⟨cs, rest, hasked, hbytes, fun _ =>
      (hrest hopen).trans (dispatch_outbound s.client message.value).symm⟩
  · exact absurd ((dispatch_stage s.client message.value).2.mp hc) hopen

end Told

/-! ## The whole session -/

/-- **A session is tracked**: its orders are accounted for, and while the connection is open the two
ends are in step. -/
structure Tracked (m : Manners) (s : Session κ α) : Prop where
  told : Told s
  synced : s.client.stage ≠ .closed → ∃ seen due, Synced m s seen due
  /-- The downlink holds the messages that are on their way. -/
  stream : s.client.stage ≠ .closed →
    Decoder.Reads s.client.decoder s.downlink (s.flight.map Message.value)

theorem Tracked.start : Tracked m ({} : Session κ α) :=
  ⟨.start, fun _ => ⟨[], [], .start⟩, fun _ => .nil⟩

/-- What the user may do otherwise ends the conversation. -/
theorem ends_of_civil {c : Connection κ α} {op : Op κ α} (ha : ¬ op.asks) (hop : op.civil)
    (hshut : c.stage = .closed → c.outbound = []) :
    c.order? op = none ∧ (c.perform op).1.stage = .closed ∧ (c.perform op).1.outbound = [] := by
  cases op with
  | fail failure =>
    rw [perform]
    by_cases hc : c.stage = .closed
    · rw [fail, if_pos hc]
      exact ⟨rfl, hc, hshut hc⟩
    · rw [fail_eq hc]
      exact ⟨rfl, rfl, rfl⟩
  | close =>
    rw [perform]
    by_cases hc : c.stage = .closed
    · rw [close, if_pos hc]
      exact ⟨rfl, hc, hshut hc⟩
    · rw [close_eq hc]
      exact ⟨rfl, rfl, rfl⟩
  | feed input => cases hop
  | written n => cases hop
  | _ => exact absurd rfl ha

theorem Tracked.act {s : Session κ α} (h : Tracked m s) {op : Op κ α} (hop : op.civil) :
    Tracked m (s.act op) := by
  by_cases ha : op.asks
  · have hclosed := (perform_stage s.client ha).2
    have hdec := (perform_effect s.client ha).places.decoder
    have hsynced : (s.act op).client.stage ≠ .closed → ∃ seen due, Synced m (s.act op) seen due := by
      intro hc
      obtain ⟨seen, due, hs⟩ := h.synced fun hs => hc (hclosed.mpr hs)
      exact ⟨seen, _, hs.ask ha hop⟩
    refine ⟨h.told.ask ha ?_, hsynced, fun hc => ?_⟩
    · by_cases hc : s.client.stage = .closed
      · rw [order?_eq_none (not_isOpen_of_closed hc), Option.toList_none, List.append_nil]
        exact h.told.handed
      · obtain ⟨seen, due, hs⟩ := hsynced fun hs => hc (hclosed.mp hs)
        exact hs.progress.handed_eq hs.owes.unfinished hs.owes.fresh
    · have hstream := h.stream fun hs => hc (hclosed.mpr hs)
      rw [← hdec] at hstream
      exact hstream
  · obtain ⟨hnone, hshut, hout⟩ := ends_of_civil ha hop h.told.shut
    exact ⟨h.told.finish hnone hshut hout, fun hc => absurd hshut hc, fun hc => absurd hshut hc⟩

theorem Tracked.write {s : Session κ α} (h : Tracked m s) (n : Nat) : Tracked m (s.write n) := by
  refine ⟨h.told.write n, fun hc => ?_, h.stream⟩
  obtain ⟨seen, due, hs⟩ := h.synced hc
  exact ⟨seen, due, hs.congr_bytes rfl⟩

theorem Tracked.serve {s : Session κ α} (h : Tracked m s) {command : Command} {v : Value}
    {bytes rest : Bytes} {held : List Topic} (hup : s.uplink = command.encode ++ rest)
    (ha : Answers m s.held command v held) (hb : Decoder.Spells bytes v) :
    Tracked m (s.serve command v bytes rest held) := by
  refine ⟨h.told.serve hup v bytes held, fun hc => ?_, fun hc => ?_⟩
  · obtain ⟨seen, due, hs⟩ := h.synced hc
    exact ⟨seen, due, hs.serve ha bytes rest⟩
  · have hstream := (h.stream hc).append hb
    simpa [Session.serve, Message.value] using hstream

theorem Tracked.pass {s : Session κ α} (h : Tracked m s) {p : Push} {v : Value} {bytes : Bytes}
    (ht : p.topic ∈ s.held) (hv : Push.ofValue? v = some p) (hb : Decoder.Spells bytes v) :
    Tracked m (s.pass p v bytes) := by
  refine ⟨h.told.pass p v bytes, fun hc => ?_, fun hc => ?_⟩
  · obtain ⟨seen, due, hs⟩ := h.synced hc
    exact ⟨seen, due, hs.pass ht hv bytes⟩
  · have hstream := (h.stream hc).append hb
    simpa [Session.pass, Message.value] using hstream

/-! ## A chunk is some messages -/

/-- What the client is after some messages, and what it did about them. -/
theorem foldl_meet (s : Session κ α) (ms : List Message) :
    (ms.foldl Session.meet s).client = (s.client.dispatchAll (ms.map Message.value)).1 ∧
      (ms.foldl Session.meet s).heard
        = s.heard ++ (s.client.dispatchAll (ms.map Message.value)).2 ∧
      s.trace <+: (ms.foldl Session.meet s).trace := by
  induction ms generalizing s with
  | nil => exact ⟨rfl, (List.append_nil _).symm, List.prefix_rfl⟩
  | cons message ms ih =>
    obtain ⟨hclient, hheard, htrace⟩ := ih (s.meet message)
    refine ⟨hclient, ?_, (List.prefix_append _ _).trans htrace⟩
    rw [List.foldl_cons, hheard]
    exact List.append_assoc _ _ _

theorem flight_foldl_meet (s : Session κ α) (ms : List Message) :
    (ms.foldl Session.meet s).flight = s.flight.drop ms.length := by
  induction ms generalizing s with
  | nil => rfl
  | cons message ms ih =>
    rw [List.foldl_cons, ih]
    simp [Session.meet]

/-- **The messages come one after another**, and the two ends keep in step. -/
theorem synced_foldl_meet {s : Session κ α} {ms rest : List Message} (ht : Told s)
    (hs : ∃ seen due, Synced m s seen due) (hopen : s.client.stage ≠ .closed)
    (hf : s.flight = ms ++ rest)
    (he : ∀ e ∈ (ms.foldl Session.meet s).trace, e.Excused m) :
    Told (ms.foldl Session.meet s) ∧ ∃ seen due, Synced m (ms.foldl Session.meet s) seen due := by
  induction ms generalizing s with
  | nil => exact ⟨ht, hs⟩
  | cons message ms ih =>
    obtain ⟨seen, due, hs⟩ := hs
    have hmem : ⟨s.client, s.taken, message⟩ ∈ (s.meet message).trace :=
      List.mem_append_right _ (List.mem_singleton_self _)
    have hexcused : Encounter.Excused m ⟨s.client, s.taken, message⟩ :=
      he _ ((foldl_meet (s.meet message) ms).2.2.subset hmem)
    obtain ⟨hclear, hs'⟩ : Encounter.Clear ⟨s.client, s.taken, message⟩ ∧
        ∃ seen due, Synced m (s.meet message) seen due := by
      cases message with
      | reply command v => exact hs.meet_reply ht hf hexcused
      | push p v =>
        obtain ⟨hp, hs'⟩ := hs.meet_push hf hexcused
        exact ⟨hp, seen, hs'⟩
    have ht' : Told (s.meet message) := by
      obtain ⟨_, _, hs'⟩ := hs'
      exact ht.meet hf hclear (hs'.progress.handed_eq hs'.owes.unfinished hs'.owes.fresh) hopen
    refine ih ht' hs' (fun hc => hopen ((dispatch_stage s.client message.value).2.mp hc)) ?_ he
    simp [Session.meet, hf]

theorem Tracked.receive {s : Session κ α} (h : Tracked m s) {chunk rest : Bytes}
    (hdown : s.downlink = chunk ++ rest) (he : ∀ e ∈ (s.receive chunk rest).trace, e.Excused m) :
    Tracked m (s.receive chunk rest) := by
  by_cases hc : s.client.stage = .closed
  · obtain ⟨hturn, hcount⟩ := feed_closed hc chunk
    have hrec : s.receive chunk rest = { s with downlink := rest } := by
      rw [Session.receive, hturn, hcount]
      simp
    rw [hrec]
    exact ⟨⟨h.told.clear, h.told.heard, h.told.handed, h.told.sent, h.told.uplink, h.told.shut⟩,
      fun hn => absurd hc hn, fun hn => absurd hc hn⟩
  · have hstream := h.stream hc
    rw [hdown] at hstream
    obtain ⟨hfault, ws, hvalues, hrest⟩ := hstream.cut
    obtain ⟨hturn, hcount⟩ := feed_eq hc chunk
    rw [hfault] at hturn hcount
    -- the messages that the chunk completes, and those behind them
    obtain ⟨n, hn⟩ : ∃ n, n = (s.client.decoder.values chunk).length := ⟨_, rfl⟩
    have hms : (s.flight.take n).map Message.value = s.client.decoder.values chunk := by
      rw [List.map_take, hvalues, hn, List.take_left]
    obtain ⟨hclient, hheard, -⟩ := foldl_meet s (s.flight.take n)
    rw [hms] at hclient hheard
    have hrec : s.receive chunk rest = { (s.flight.take n).foldl Session.meet s with
        client := ((s.flight.take n).foldl Session.meet s).client.reading
          (s.client.decoder.after chunk)
        downlink := rest } := by
      simp only [Session.receive, hcount rfl, hturn, Except.toOption, Option.getD_some, ← hn, stop,
        List.append_nil, ← hheard, hclient]
    rw [hrec] at he ⊢
    have hflight : s.flight = s.flight.take n ++ s.flight.drop n := (List.take_append_drop ..).symm
    obtain ⟨ht, seen, due, hs⟩ := synced_foldl_meet h.told (h.synced hc) hc hflight he
    refine ⟨⟨ht.clear, ht.heard, ht.handed, ht.sent, ht.uplink, ht.shut⟩,
      fun _ => ⟨seen, due, hs.congr_bytes rfl⟩, fun _ => ?_⟩
    have hws : (s.flight.drop n).map Message.value = ws := by
      rw [List.map_drop, hvalues, hn, List.drop_left]
    have hlen : (s.flight.take n).length = n := by
      rw [← List.length_map Message.value, hms, hn]
    rw [flight_foldl_meet, hlen, hws]
    exact hrest

/-- **Every session is tracked** whose messages are excused. -/
theorem Reachable.tracked {s : Session κ α} (h : Reachable m s)
    (he : ∀ e ∈ s.trace, e.Excused m) : Tracked m s := by
  induction h with
  | start => exact .start
  | act op _ hop ih => exact (ih he).act hop
  | write n _ ih => exact (ih he).write n
  | serve _ hup ha hb ih => exact (ih he).serve hup ha hb
  | pass _ ht hv hb ih => exact (ih he).pass ht hv hb
  | @receive s chunk rest _ hdown ih =>
    refine (ih fun e hs => he e ?_).receive hdown he
    exact (foldl_meet s _).2.2.subset hs

end RespClient
