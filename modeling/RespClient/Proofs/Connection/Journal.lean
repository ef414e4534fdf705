import RespClient.Proofs.Connection.Feeding
import RespClient.Proofs.Connection.Ledger

/-!
# Proofs/Connection/Journal — what went over the wire, and what it said

    orders   o₁ o₂ …                          sent      a prefix of the bytes of their commands
    tape     sent s₁ · received r₁ · sent s₂ · …
    routed   v₁ v₂ …                          received  a stream whose values these are

A journal is kept beside a connection (`Journal.act`): the orders it placed, what was written and what was
fed, and the values that were dispatched.  No step looks at it.  While the connection is open the two
halves of the tape are settled by the rest: what was sent, with what is outbound, is the commands of the
orders (`sent_run`), and what was routed is what the received bytes spell (`routed_run`).
-/

namespace RespClient

variable {κ α : Type}

/-! ## The tape -/

/-- **Bytes cross the wire**, in one direction. -/
inductive Transfer
  | sent (bytes : Bytes)
  | received (bytes : Bytes)
deriving DecidableEq

/-- The bytes that were sent, one after another. -/
def sent (tape : List Transfer) : Bytes :=
  tape.flatMap fun
    | .sent bytes => bytes
    | .received _ => []

/-- The bytes that were received, one after another. -/
def received (tape : List Transfer) : Bytes :=
  tape.flatMap fun
    | .sent _ => []
    | .received bytes => bytes

theorem sent_append (s t : List Transfer) : sent (s ++ t) = sent s ++ sent t := List.flatMap_append

theorem received_append (s t : List Transfer) : received (s ++ t) = received s ++ received t :=
  List.flatMap_append

/-- **What is done to a connection**, and what crosses the wire meanwhile. -/
structure Trail (κ α : Type) where
  ops : List (Op κ α) := []
  tape : List Transfer := []

/-- One trail and then another. -/
def Trail.andThen (s t : Trail κ α) : Trail κ α := ⟨s.ops ++ t.ops, s.tape ++ t.tape⟩

theorem Trail.andThen_nil (s : Trail κ α) : s.andThen {} = s := by
  rw [andThen, List.append_nil, List.append_nil]

/-! ## What an operation adds -/

namespace Connection

/-- What an operation puts on the tape. -/
def transfers (c : Connection κ α) : Op κ α → List Transfer
  | .written n => [.sent (c.outbound.take n)]
  | .feed input => [.received input]
  | _ => []

/-- The values that an operation dispatches. -/
def routes (c : Connection κ α) : Op κ α → List Value
  | .feed input => if c.stage = .closed then [] else c.decoder.values input
  | _ => []

/-- The orders that messages place while values are dispatched. -/
def partings (c : Connection κ α) : List Value → List (Order κ)
  | [] => []
  | v :: vs => ((c.pushed? v).bind c.parting?).toList ++ (c.dispatch v).1.partings vs

/-- The orders that an operation places. -/
def ordered (c : Connection κ α) : Op κ α → List (Order κ)
  | .feed input => c.partings (c.routes (.feed input))
  | op => (c.order? op).toList

/-- **Whoever feeds no bytes** dispatches no value. -/
theorem routes_eq_nil (c : Connection κ α) {op : Op κ α} (h : ∀ input, op ≠ .feed input) :
    c.routes op = [] := by
  cases op with
  | feed input => exact absurd rfl (h input)
  | _ => rfl

/-- …and places one order or none. -/
theorem ordered_eq (c : Connection κ α) {op : Op κ α} (h : ∀ input, op ≠ .feed input) :
    c.ordered op = (c.order? op).toList := by
  cases op with
  | feed input => exact absurd rfl (h input)
  | _ => rfl

theorem run_append (c : Connection κ α) (ops ops' : List (Op κ α)) :
    c.run (ops ++ ops')
      = (((c.run ops).1.run ops').1, (c.run ops).2 ++ ((c.run ops).1.run ops').2) := by
  induction ops generalizing c with
  | nil => rfl
  | cons op ops ih =>
    rw [List.cons_append, run, run]
    dsimp only
    rw [ih, List.append_assoc]

/-- What a run puts on the tape. -/
def tape (c : Connection κ α) : List (Op κ α) → List Transfer
  | [] => []
  | op :: ops => c.transfers op ++ (c.perform op).1.tape ops

theorem tape_append (c : Connection κ α) (ops ops' : List (Op κ α)) :
    c.tape (ops ++ ops') = c.tape ops ++ (c.run ops).1.tape ops' := by
  induction ops generalizing c with
  | nil => rfl
  | cons op ops ih =>
    rw [List.cons_append, tape, tape, ih, List.append_assoc]
    rfl

/-- What is closed stays closed. -/
theorem perform_closed {c : Connection κ α} (hc : c.stage = .closed) (op : Op κ α) :
    (c.perform op).1.stage = .closed := by
  by_cases ha : op.asks
  · exact (perform_stage c ha).2.mpr hc
  · cases op with
    | feed input => rw [perform, (feed_closed hc input).1]; exact hc
    | written n => exact hc
    | fail failure => exact (ends_fail c failure).closed
    | close => exact (ends_close c).closed
    | _ => exact absurd rfl ha

theorem run_closed {c : Connection κ α} (hc : c.stage = .closed) (ops : List (Op κ α)) :
    (c.run ops).1.stage = .closed := by
  induction ops generalizing c with
  | nil => exact hc
  | cons op ops ih => exact ih (perform_closed hc op)

/-- What a feed of an open connection returns tells whether it is open after it. -/
theorem feed_result {c : Connection κ α} (hc : c.isOpen) (input : Bytes) :
    match (c.feed input).result with
    | .ok _ => (c.feed input).turn.1.isOpen
    | .error _ => (c.feed input).turn.1.stage = .closed := by
  have hopen : c.stage ≠ .closed := fun hn => not_isOpen_of_closed hn hc
  obtain ⟨hturn, hcount⟩ := feed_eq hopen input
  rcases hf : c.decoder.fault? input with _ | cause
  · rw [hcount hf, hturn, hf]
    exact (dispatchAll_stage c _).1.trans hc
  · rw [(feed_ends hopen input).2 cause hf, hturn, hf]
    exact (ends_fail _ _).closed

end Connection

/-! ## The journal -/

/-- **A connection and its journal.** -/
structure Journal (κ α : Type) where
  now : Connection κ α := {}
  orders : List (Order κ) := []
  tape : List Transfer := []
  routed : List Value := []

namespace Journal

/-- **An operation is done.** -/
def act (j : Journal κ α) (op : Op κ α) : Journal κ α where
  now := (j.now.perform op).1
  orders := j.orders ++ j.now.ordered op
  tape := j.tape ++ j.now.transfers op
  routed := j.routed ++ j.now.routes op

/-- **The journal of a run.** -/
def run (j : Journal κ α) (ops : List (Op κ α)) : Journal κ α := ops.foldl act j

/-- The commands of the orders. -/
def commands (j : Journal κ α) : List Command := j.orders.flatMap Order.commands

theorem run_append (j : Journal κ α) (ops ops' : List (Op κ α)) :
    j.run (ops ++ ops') = (j.run ops).run ops' := List.foldl_append

/-- **The connection in the journal is that of the run.** -/
theorem now_run (j : Journal κ α) (ops : List (Op κ α)) : (j.run ops).now = (j.now.run ops).1 := by
  induction ops generalizing j with
  | nil => rfl
  | cons op ops ih => exact ih (j.act op)

/-- **The tape in the journal is that of the run.** -/
theorem tape_run (j : Journal κ α) (ops : List (Op κ α)) :
    (j.run ops).tape = j.tape ++ j.now.tape ops := by
  induction ops generalizing j with
  | nil => exact (List.append_nil _).symm
  | cons op ops ih =>
    refine (ih (j.act op)).trans ?_
    rw [act, List.append_assoc]
    rfl

theorem closed_run {j : Journal κ α} (hc : j.now.stage = .closed) (ops : List (Op κ α)) :
    (j.run ops).now.stage = .closed := by
  rw [now_run]
  exact Connection.run_closed hc ops

/-- What is open was open all the time. -/
theorem open_of_run {j : Journal κ α} {ops : List (Op κ α)} (hc : (j.run ops).now.stage ≠ .closed) :
    j.now.stage ≠ .closed := mt (fun h => closed_run h ops) hc

/-! ## What was sent -/

/-- **The journal agrees with the ledger.** -/
structure Matches (j : Journal κ α) (l : Ledger κ α) : Prop where
  now : l.now = j.now
  commands : l.commands = j.commands
  drained : l.drained = sent j.tape

theorem commands_meetAll (l : Ledger κ α) (vs : List Value) :
    (l.meetAll vs).commands = l.commands ++ (l.now.partings vs).flatMap Order.commands := by
  induction vs generalizing l with
  | nil => exact (List.append_nil _).symm
  | cons v vs ih =>
    have hmeet : (l.meet v).commands
        = l.commands ++ ((l.now.pushed? v).bind l.now.parting?).toList.flatMap Order.commands :=
      l.commands_enter _ (l.now.dispatch v).1
    rw [Connection.partings, List.flatMap_append, ← List.append_assoc, ← hmeet]
    exact ih (l.meet v)

theorem drained_meetAll (l : Ledger κ α) (vs : List Value) : (l.meetAll vs).drained = l.drained := by
  induction vs generalizing l with
  | nil => rfl
  | cons v vs ih => exact ih (l.meet v)

theorem Matches.act {j : Journal κ α} {l : Ledger κ α} (h : Matches j l) (op : Op κ α) :
    Matches (j.act op) (l.act op) := by
  have hnow : (l.act op).now = (j.act op).now := (l.now_act op).trans (h.now ▸ rfl)
  have hcommands : (j.act op).commands
      = l.commands ++ (l.now.ordered op).flatMap Order.commands := by
    rw [Journal.commands, Journal.act, List.flatMap_append, ← Journal.commands, ← h.commands, h.now]
  have hsent : sent (j.act op).tape = l.drained ++ sent (l.now.transfers op) := by
    rw [Journal.act, sent_append, ← h.drained, h.now]
  refine ⟨hnow, ?_, ?_⟩
  · rw [hcommands]
    cases op with
    | feed input =>
      rw [Connection.ordered, Connection.routes, ← commands_meetAll]
      by_cases hc : l.now.stage = .closed
      · rw [Ledger.act, if_pos hc, if_pos hc]
        rfl
      · rw [Ledger.act, if_neg hc, if_neg hc]
        rfl
    | written n => exact (List.append_nil _).symm
    | _ => exact l.commands_enter _ _
  · rw [hsent]
    cases op with
    | feed input =>
      refine Eq.trans ?_ (List.append_nil _).symm
      by_cases hc : l.now.stage = .closed
      · rw [Ledger.act, if_pos hc]
      · rw [Ledger.act, if_neg hc]
        exact drained_meetAll l _
    | written n => exact congrArg _ (List.append_nil _).symm
    | _ => exact (List.append_nil _).symm

theorem Matches.run {j : Journal κ α} {l : Ledger κ α} (h : Matches j l) (ops : List (Op κ α)) :
    Matches (j.run ops) (l.run ops) := by
  induction ops generalizing j l with
  | nil => exact h
  | cons op ops ih => exact ih (h.act op)

theorem matches_new : Matches ({} : Journal κ α) {} := ⟨rfl, rfl, rfl⟩

/-- **What was sent and what is outbound are the commands of the orders**, while the connection is
open. -/
theorem sent_run {ops : List (Op κ α)} (hc : (run ({} : Journal κ α) ops).now.stage ≠ .closed) :
    sent (run ({} : Journal κ α) ops).tape ++ (run ({} : Journal κ α) ops).now.outbound
      = (run ({} : Journal κ α) ops).commands.flatMap Command.encode := by
  have hmatches : Matches (run ({} : Journal κ α) ops) (Ledger.run {} ops) := matches_new.run ops
  have hexact := Ledger.exact_new.run (κ := κ) (α := α) ops
  rw [← hmatches.drained, ← hmatches.commands, ← hexact.bytes, ← hmatches.now]
  exact hexact.outbound (hmatches.now ▸ hc)

/-! ## What was received -/

/-- **What was routed is what the received bytes spell**, and the decoder has read just these. -/
structure Reads (j : Journal κ α) : Prop where
  values : j.routed = Decoder.empty.values (received j.tape)
  decoder : j.now.decoder = Decoder.empty.after (received j.tape)
  fault : Decoder.empty.fault? (received j.tape) = none

theorem Reads.congr {j j' : Journal κ α} (h : j.Reads) (hr : j'.routed = j.routed)
    (hd : j'.now.decoder = j.now.decoder) (ht : received j'.tape = received j.tape) : j'.Reads :=
  ⟨hr.trans (ht ▸ h.values), hd.trans (ht ▸ h.decoder), ht ▸ h.fault⟩

/-- Bytes are fed, and the connection is open after it. -/
theorem Reads.feed {j : Journal κ α} (h : j.Reads) {input : Bytes}
    (hc : (j.act (.feed input)).now.stage ≠ .closed) : (j.act (.feed input)).Reads := by
  have hopen : j.now.stage ≠ .closed := mt (fun h => Connection.perform_closed h _) hc
  have hfault : j.now.decoder.fault? input = none := by
    rcases hf : j.now.decoder.fault? input with _ | cause
    · rfl
    · refine absurd ?_ hc
      rw [act, Connection.perform, (Connection.feed_eq hopen input).1, hf]
      exact (Connection.ends_fail _ _).closed
  have hdecoder : (j.act (.feed input)).now.decoder = j.now.decoder.after input := by
    rw [act, Connection.perform, (Connection.feed_eq hopen input).1, hfault]
    rfl
  have hreceived : received (j.act (.feed input)).tape = received j.tape ++ input := by
    rw [act, received_append]
    exact congrArg _ (List.append_nil _)
  obtain ⟨hv, hf, ha⟩ := Decoder.read_append h.fault input
  rw [← h.decoder] at hv hf ha
  have hnone : Decoder.empty.fault? (received j.tape ++ input) = none :=
    (Malformed.Alike.none_iff hf).mpr hfault
  refine ⟨?_, ?_, ?_⟩
  · rw [hreceived, hv, act, Connection.routes, if_neg hopen, h.values]
  · rw [hreceived, hdecoder, ha hnone]
  · rw [hreceived, hnone]

theorem Reads.act {j : Journal κ α} (h : j.Reads) {op : Op κ α}
    (hc : (j.act op).now.stage ≠ .closed) : (j.act op).Reads := by
  by_cases ha : op.asks
  · have hdecoder := (Connection.perform_effect j.now ha).places.decoder
    have hfeed : ∀ input, op ≠ .feed input := by
      rintro input rfl
      cases ha
    refine h.congr ?_ hdecoder ?_
    · rw [Journal.act, Connection.routes_eq_nil _ hfeed, List.append_nil]
    · rw [Journal.act, received_append]
      cases op <;> first | exact List.append_nil _ | cases ha
  · cases op with
    | feed input => exact h.feed hc
    | written n => exact h.congr (List.append_nil _) rfl ((received_append _ _).trans (List.append_nil _))
    | fail failure => exact absurd (Connection.ends_fail j.now failure).closed hc
    | close => exact absurd (Connection.ends_close j.now).closed hc
    | _ => exact absurd rfl ha

theorem Reads.run {j : Journal κ α} (h : j.Reads) {ops : List (Op κ α)}
    (hc : (j.run ops).now.stage ≠ .closed) : (j.run ops).Reads := by
  induction ops generalizing j with
  | nil => exact h
  | cons op ops ih => exact ih (h.act (open_of_run hc)) hc

theorem reads_new : ({} : Journal κ α).Reads := by
  obtain ⟨hv, hf, hd⟩ := Decoder.read_nil .empty
  exact ⟨hv.symm, hd.symm, hf⟩

/-- **What was routed is what the received bytes spell**, while the connection is open. -/
theorem routed_run {ops : List (Op κ α)} (hc : (run ({} : Journal κ α) ops).now.stage ≠ .closed) :
    (run ({} : Journal κ α) ops).Reads := reads_new.run hc

end Journal

end RespClient
