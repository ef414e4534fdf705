import RespClient.Proofs.Session.Server

/-!
# Proofs/Session/Synced — the two ends keep step

While the connection is open, its queue, its registry, the bytes on their way and the server's topics
fit together (`Synced`), and what the handlers got is what the server replied (`Told`).  Every step of a
session keeps this (`Reachable.tracked`), provided each message that comes is *excused* (`Excused`): a
reply must not have the shape of a message while messages are routed, and a message of a taken topic
must come while they are.  The proviso is void where the server's manners rule the cases out.
-/

namespace RespClient

variable {κ α : Type}

/-! ## What the handlers are to get -/

/-- Orders that have all their replies come first. -/
theorem calls_append {done : List (Order κ)} {answered : List Value}
    (h : answered.length = (done.flatMap Order.commands).length) (os : List (Order κ))
    (replies : List Value) :
    calls (done ++ os) (answered ++ replies) = calls done answered ++ calls os replies := by
  induction done generalizing answered with
  | nil =>
    obtain rfl := List.eq_nil_of_length_eq_zero h
    rfl
  | cons o done ih =>
    rw [List.flatMap_cons, List.length_append] at h
    have hle : o.commands.length ≤ answered.length := by omega
    have hdrop : (answered.drop o.commands.length).length = (done.flatMap Order.commands).length := by
      rw [List.length_drop]
      omega
    rw [List.cons_append, calls, calls, if_neg (by rw [List.length_append]; omega),
      if_neg (by omega), List.take_append_of_le_length hle, List.drop_append_of_le_length hle,
      ih hdrop, List.append_assoc]

theorem calls_short {o : Order κ} {replies : List Value}
    (h : replies.length < o.commands.length) (os : List (Order κ)) :
    calls (o :: os) replies = [] := if_pos h

theorem calls_one {o : Order κ} {replies : List Value}
    (h : replies.length = o.commands.length) : calls [o] replies = o.calls replies := by
  rw [calls, if_neg (by omega), ← h, List.take_length, List.drop_length, calls, List.append_nil]

/-- **How far the orders are**: of those `asked`, the first are done and the rest is `due`, if the
replies `met` came and handlers were `handed` this. -/
structure Progress (asked : List (Order κ)) (met : List (Command × Value))
    (handed : List (κ × Value)) (due : List (Due κ)) : Prop where
  /-- The replies are those to the first commands. -/
  commands : asked.flatMap Order.commands = met.map Prod.fst ++ due.flatMap Due.commands
  /-- The orders that are done have their replies, and so far the others theirs. -/
  done : ∃ (done : List (Order κ)) (answered : List Value),
    asked = done ++ due.map (·.order) ∧
      met.map Prod.snd = answered ++ due.flatMap (·.got) ∧
      answered.length = (done.flatMap Order.commands).length ∧ handed = calls done answered

/-- The commands that wait behind the first. -/
theorem commands_next? {d : Due κ} {command : Command} {rest : List Command}
    (hc : d.commands = command :: rest) (v : Value) :
    (d.next? v).toList.flatMap Due.commands = rest := by
  have hrest : d.order.commands.drop (d.got.length + 1) = rest := by
    rw [← List.tail_drop, ← Due.commands, hc, List.tail_cons]
  rw [Due.next?]
  split
  · simpa [Due.commands] using hrest
  · rename_i hlast
    have hle : d.order.commands.length ≤ d.got.length + 1 := by
      simpa [Due.goesOn] using hlast
    rw [← hrest, List.drop_eq_nil_of_le hle]
    rfl

namespace Progress

variable {asked : List (Order κ)} {met : List (Command × Value)} {handed : List (κ × Value)}
  {due : List (Due κ)}

theorem start : Progress ([] : List (Order κ)) [] [] [] := ⟨rfl, [], [], rfl, rfl, rfl, rfl⟩

/-- An order is placed. -/
theorem place (h : Progress asked met handed due) (o? : Option (Order κ)) (number : Nat) :
    Progress (asked ++ o?.toList) met handed
      (due ++ (o?.map fun o => ⟨o, number, []⟩).toList) := by
  obtain ⟨hcommands, done, answered, hasked, hmet, hlen, hhanded⟩ := h
  cases o? with
  | none =>
    simp only [Option.map_none, Option.toList_none, List.append_nil]
    exact ⟨hcommands, done, answered, hasked, hmet, hlen, hhanded⟩
  | some o =>
    refine ⟨?_, done, answered, ?_, ?_, hlen, hhanded⟩
    · simp [hcommands, Due.commands]
    · simp [hasked]
    · simp [hmet]

/-- **A reply comes**, to the first order. -/
theorem answer {d : Due κ} (h : Progress asked met handed (d :: due))
    (hu : d.got.length < d.order.commands.length) (hfresh : ∀ e ∈ due, e.got = [])
    {command : Command} {rest : List Command} (hc : d.commands = command :: rest) (v : Value) :
    Progress asked (met ++ [(command, v)]) (handed ++ d.calls v) ((d.next? v).toList ++ due) := by
  obtain ⟨hcommands, done, answered, hasked, hmet, hlen, hhanded⟩ := h
  have hgot : due.flatMap (·.got) = [] := List.flatMap_eq_nil_iff.mpr hfresh
  rw [List.flatMap_cons, hgot, List.append_nil] at hmet
  refine ⟨?_, ?_⟩
  · rw [hcommands, List.flatMap_cons, hc, List.flatMap_append, commands_next? hc]
    simp
  · rw [Due.next?, Due.calls]
    by_cases hmore : d.goesOn
    · rw [if_pos hmore, if_pos hmore]
      refine ⟨done, answered, ?_, ?_, hlen, ?_⟩
      · simp [hasked]
      · simp [hmet, hgot]
      · rw [hhanded, List.append_nil]
    · rw [if_neg hmore, if_neg hmore]
      have hfull : (d.got ++ [v]).length = d.order.commands.length := by
        have hlast : ¬ d.got.length + 1 < d.order.commands.length := by
          simpa [Due.goesOn] using hmore
        rw [List.length_append, List.length_singleton]
        omega
      refine ⟨done ++ [d.order], answered ++ (d.got ++ [v]), ?_, ?_, ?_, ?_⟩
      · simp [hasked]
      · simp [hmet, hgot]
      · rw [List.length_append, hfull, hlen, List.flatMap_append, List.length_append,
          List.flatMap_singleton]
      · rw [calls_append hlen, calls_one hfull, hhanded]

/-- **The handlers got what they are to get.** -/
theorem handed_eq (h : Progress asked met handed due)
    (hu : ∀ d ∈ due, d.got.length < d.order.commands.length) (hfresh : ∀ d ∈ due.tail, d.got = []) :
    handed = calls asked (met.map Prod.snd) := by
  obtain ⟨-, done, answered, hasked, hmet, hlen, hhanded⟩ := h
  rw [hhanded, hasked, hmet, calls_append hlen]
  cases due with
  | nil => exact (List.append_nil _).symm
  | cons d due =>
    have hgot : due.flatMap (·.got) = [] := List.flatMap_eq_nil_iff.mpr hfresh
    rw [List.map_cons, List.flatMap_cons, hgot, List.append_nil,
      calls_short (hu d List.mem_cons_self), List.append_nil]

end Progress

/-! ## Messages on their way -/

/-- **The messages on their way** take the server from what it held to what it holds. -/
inductive Follows (m : Manners) : List Topic → List Message → List Topic → Prop
  | nil (held : List Topic) : Follows m held [] held
  | reply {seen held held' : List Topic} {command : Command} {v : Value} {ms : List Message}
    (ha : Answers m seen command v held) (h : Follows m held ms held') :
    Follows m seen (.reply command v :: ms) held'
  | push {seen held : List Topic} {p : Push} {v : Value} {ms : List Message}
    (ht : p.topic ∈ seen) (hv : Push.ofValue? v = some p) (h : Follows m seen ms held) :
    Follows m seen (.push p v :: ms) held

variable {m : Manners}

theorem Follows.of_reply {seen held : List Topic} {command : Command} {v : Value} {ms : List Message}
    (h : Follows m seen (.reply command v :: ms) held) :
    ∃ mid, Answers m seen command v mid ∧ Follows m mid ms held := by
  obtain _ | ⟨ha, hrest⟩ | _ := h
  exact ⟨_, ha, hrest⟩

theorem Follows.of_push {seen held : List Topic} {p : Push} {v : Value} {ms : List Message}
    (h : Follows m seen (.push p v :: ms) held) :
    p.topic ∈ seen ∧ Push.ofValue? v = some p ∧ Follows m seen ms held := by
  obtain _ | _ | ⟨ht, hv, hrest⟩ := h
  exact ⟨ht, hv, hrest⟩

theorem Follows.append {seen held held' : List Topic} {ms ms' : List Message}
    (h : Follows m seen ms held) (h' : Follows m held ms' held') :
    Follows m seen (ms ++ ms') held' := by
  induction h with
  | nil => exact h'
  | reply ha _ ih => exact .reply ha (ih h')
  | push ht hv _ ih => exact .push ht hv (ih h')

/-- Without replies on their way, the server holds what it held. -/
theorem Follows.eq_of_pushes {seen held : List Topic} {ms : List Message} (h : Follows m seen ms held)
    (hr : ms.filterMap Message.reply? = []) : held = seen := by
  induction h with
  | nil => rfl
  | reply ha _ ih => cases hr
  | push _ _ _ ih => exact ih hr

/-! ## Encounters -/

namespace Encounter

/-- **A message is taken for what it is.** -/
def Clear (e : Encounter κ α) : Prop :=
  match e.message with
  | .reply _ v => e.before.pushed? v = none
  | .push p v => e.before.pushed? v = some p

/-- **A message that could not be mistaken**, as far as the manners leave a doubt. -/
def Excused (m : Manners) (e : Encounter κ α) : Prop :=
  match e.message with
  | .reply _ v => (∀ w, m.plain w → Push.ofValue? w = none) ∨ e.before.pushed? v = none
  | .push p _ => m.refuses → p.topic ∈ e.taken → e.before.routesPushes

end Encounter

/-! ## In step -/

/-- **The two ends are in step**: `seen` is what the server held when it sent the next message to come,
and `due` the orders of the client that are due. -/
structure Synced (m : Manners) (s : Session κ α) (seen : List Topic) (due : List (Due κ)) : Prop where
  owes : s.client.Owes due
  sound : s.client.registry.Sound s.client.nextHandle
  idle : ¬ s.client.isOpen → ∀ h, ¬ s.client.registry.Lives h
  agrees : Agrees s.client.registry seen (due.map (·.order)) s.taken
  /-- Without refusals nothing is taken. -/
  kept : ¬ m.refuses → s.taken = []
  follows : Follows m seen s.flight s.held
  civil : ∀ d ∈ due, d.order.isPlain → ∀ c ∈ d.order.commands, c.reserved = false
  progress : Progress s.asked s.met s.handed due

/-- **What became of the orders**, so far. -/
structure Told (s : Session κ α) : Prop where
  clear : ∀ e ∈ s.trace, e.Clear
  heard : s.heard = s.trace.flatMap Encounter.events
  handed : s.handed = calls s.asked (s.met.map Prod.snd)
  /-- Every message that was sent came, or is on its way. -/
  sent : s.sent = s.trace.map (·.message) ++ s.flight
  /-- The server carries out what was asked, in order, and the rest is on its way. -/
  uplink : ∃ (cs : List Command) (rest : Bytes),
    s.asked.flatMap Order.commands = s.served.map Prod.fst ++ cs ∧
      s.uplink ++ rest = cs.flatMap Command.encode ∧
      (s.client.stage ≠ .closed → rest = s.client.outbound)
  shut : s.client.stage = .closed → s.client.outbound = []

theorem Told.served {s : Session κ α} (h : Told s) :
    s.served = s.met ++ s.flight.filterMap Message.reply? := by
  rw [Session.served, h.sent, List.filterMap_append, List.filterMap_map]
  rfl

/-- The commands that are due are those whose replies are on their way, and those to be carried out. -/
theorem Synced.due_commands {s : Session κ α} {seen : List Topic} {due : List (Due κ)}
    (h : Synced m s seen due) (ht : Told s) :
    ∃ cs, due.flatMap Due.commands = (s.flight.filterMap Message.reply?).map Prod.fst ++ cs ∧
      (s.client.stage ≠ .closed → s.uplink ++ s.client.outbound = cs.flatMap Command.encode) := by
  obtain ⟨cs, rest, hasked, hbytes, hrest⟩ := ht.uplink
  refine ⟨cs, ?_, fun hc => hrest hc ▸ hbytes⟩
  rw [h.progress.commands, ht.served, List.map_append, List.append_assoc] at hasked
  exact List.append_cancel_left hasked

end RespClient
