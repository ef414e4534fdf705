import RespClient.Proofs.Connection.Operation

/-!
# Proofs/Connection/Refusal — what is refused has not happened

    refused   ──▸  the connection as it was, one report, the same failure to the handler
    granted   ──▸  no report, and no failure to anyone

Five operations depend on how far the connection has come.  `denial?` is the failure that each of them
meets, and it decides between the two lines above: `perform_denied` and `perform_granted`.  A batch is
judged member by member before anything of it is queued, so it is refused as its first refused member
would be (`denial?_batch`).
-/

namespace RespClient

/-- Whether the stage of the connection may forbid the operation. -/
def Op.checked {κ α : Type} : Op κ α → Bool
  | beginConnect | submit _ _ | submitBatch _ _ | register _ _ _ _ | unsubscribe _ _ => true
  | _ => false

namespace Connection

variable {κ α : Type}

/-- **What comes of a subscription**: its handle, or a refusal in the words of the server. -/
theorem outcome_cases (h : Handle) (ack : Value) :
    outcome h ack = .ok h ∧ ack.isError = false ∨
      ∃ reply, outcome h ack = .error (.subscribeRejected h.topic.describe reply) ∧ ack.isError := by
  rw [outcome]
  cases ack.isError with
  | false => exact .inl ⟨rfl, rfl⟩
  | true => exact .inr ⟨ack.text, rfl, rfl⟩

/-! ## What a command meets -/

/-- Whether the command goes out at this stage: always while nobody listens, and otherwise if its name
is one of the six that a server takes then. -/
def Takes (c : Connection κ α) (command : Command) : Prop :=
  c.stage = .connected ∨ c.stage = .subscribed ∧
    ∃ name ∈ subscribedNames,
      command.name.map Command.lower = (Utf8.encode name).map Command.lower

theorem allowedSubscribed_iff (command : Command) :
    allowedSubscribed command ↔ ∃ name ∈ subscribedNames,
      command.name.map Command.lower = (Utf8.encode name).map Command.lower := by
  simp only [allowedSubscribed, List.any_eq_true, Command.isNamed, beq_iff_eq]

theorem refusal?_eq_some_iff {c : Connection κ α} {command : Command} {failure : Failure} :
    c.refusal? command = some failure ↔
      ¬ c.Takes command ∧ failure = c.notNow (Utf8.decode command.name) := by
  rw [refusal?, Takes, ← allowedSubscribed_iff]
  cases c.stage with
  | subscribed =>
    by_cases ha : allowedSubscribed command
    · simp only [ha, if_true, reduceCtorEq, and_self, or_true, not_true_eq_false, false_and]
    · simp only [ha, Bool.false_eq_true, if_false, Option.some.injEq, reduceCtorEq, and_false,
        or_self, not_false_eq_true, true_and, eq_comm]
  | _ => simp only [Option.some.injEq, reduceCtorEq, false_and, or_false, not_false_eq_true,
      true_and, not_true_eq_false, eq_comm]

theorem not_takes_iff {c : Connection κ α} {command : Command} :
    ¬ c.Takes command ↔ ¬ c.isOpen ∨ c.stage = .subscribed ∧
      ∀ name ∈ subscribedNames,
        command.name.map Command.lower ≠ (Utf8.encode name).map Command.lower := by
  rw [Takes, isOpen]
  cases c.stage <;> simp [Lifecycle.isOpen]

theorem closedTo?_eq_some_iff {c : Connection κ α} {operation : String} {failure : Failure} :
    c.closedTo? operation = some failure ↔ ¬ c.isOpen ∧ failure = c.notNow operation := by
  rw [closedTo?]
  cases c.isOpen <;> simp [eq_comm]

/-! ## What an operation meets -/

/-- **The failure that an operation meets**, if it meets one. -/
def denial? (c : Connection κ α) : Op κ α → Option Failure
  | .beginConnect => if c.stage = .unconnected then none else some (c.notNow "connect")
  | .submit command _ => c.refusal? command
  | .submitBatch commands _ =>
    if commands.isEmpty then c.closedTo? "pipeline" else commands.findSome? c.refusal?
  | .register topic _ _ _ => c.closedTo? topic.kind.subscribe
  | .unsubscribe h _ => c.closedTo? h.topic.kind.unsubscribe
  | _ => none

/-- **What is refused has not happened**: the connection is what it was, the failure is reported once,
and the handler gets that same failure and nothing else. -/
theorem perform_denied {c : Connection κ α} {op : Op κ α} {failure : Failure}
    (h : c.denial? op = some failure) :
    c.perform op
      = (c, c.report failure :: op.handler?.toList.map fun k => .replied k (.error failure)) := by
  cases op with
  | beginConnect =>
    rw [denial?, Option.ite_none_left_eq_some] at h
    obtain ⟨hs, hf⟩ := h
    rw [perform, beginConnect, if_neg hs, ← Option.some.inj hf]
    rfl
  | submit command k =>
    rw [denial?] at h
    rw [perform, submit, h]
    rfl
  | submitBatch commands k =>
    rw [denial?] at h
    rw [perform, submitBatch]
    dsimp only
    rw [h]
    rfl
  | register topic persistence listener k =>
    rw [denial?] at h
    rw [perform, register, h]
    rfl
  | unsubscribe hd k =>
    rw [denial?] at h
    rw [perform, unsubscribe, h]
    rfl
  | _ => cases h

/-- **What is granted fails nobody**: nothing is reported, and a handler that is called gets a value. -/
theorem perform_granted {c : Connection κ α} {op : Op κ α} (ho : op.checked)
    (h : c.denial? op = none) :
    ∀ event ∈ (c.perform op).2, ∃ k v, event = .replied k (.ok v) := by
  cases op with
  | beginConnect =>
    have hs : c.stage = .unconnected := by_contra fun hs => by
      rw [denial?, if_neg hs] at h
      cases h
    rw [perform, beginConnect, if_pos hs]
    exact List.forall_mem_nil _
  | submit command k =>
    rw [denial?] at h
    rw [perform, submit, h]
    exact List.forall_mem_nil _
  | submitBatch commands k =>
    rw [denial?] at h
    rw [perform, submitBatch]
    dsimp only
    rw [h]
    dsimp only
    split
    · exact List.forall_mem_singleton.mpr ⟨k, _, rfl⟩
    · exact List.forall_mem_nil _
  | register topic persistence listener k =>
    rw [denial?] at h
    rw [perform, register, h]
    exact List.forall_mem_nil _
  | unsubscribe hd k =>
    rw [denial?] at h
    rw [perform, unsubscribe, h]
    dsimp only
    split
    · exact List.forall_mem_nil _
    · exact List.forall_mem_singleton.mpr ⟨k, _, rfl⟩
  | _ => cases ho

/-! ## What the client sees of it -/

/-- **The operation is refused**: the observer hears of a failure. -/
def Refused (c : Connection κ α) (op : Op κ α) : Prop :=
  ∃ observer failure, .reported observer failure ∈ (c.perform op).2

/-- The failure that meets an operation is what the client sees. -/
theorem refused_iff {c : Connection κ α} (op : Op κ α) (ho : op.checked) :
    c.Refused op ↔ ∃ failure, c.denial? op = some failure := by
  constructor
  · rintro ⟨observer, failure, hmem⟩
    cases hd : c.denial? op with
    | some failure => exact ⟨failure, rfl⟩
    | none =>
      obtain ⟨k, v, hev⟩ := perform_granted ho hd _ hmem
      cases hev
  · rintro ⟨failure, hd⟩
    refine ⟨c.observer, failure, ?_⟩
    rw [perform_denied hd]
    exact List.mem_cons_self

theorem refused_submit_iff {c : Connection κ α} {command : Command} {k : κ} :
    c.Refused (.submit command k) ↔ ¬ c.Takes command := by
  simp only [refused_iff (.submit command k) rfl, denial?, refusal?_eq_some_iff,
    exists_and_left, exists_eq, and_true]

/-- What is refused at a stage that is not open is refused for that alone. -/
theorem refused_iff_of_closedTo? {c : Connection κ α} {op : Op κ α} {operation : String}
    (ho : op.checked) (h : c.denial? op = c.closedTo? operation) : c.Refused op ↔ ¬ c.isOpen := by
  simp only [refused_iff op ho, h, closedTo?_eq_some_iff, exists_and_left, exists_eq, and_true]

theorem refused_beginConnect_iff {c : Connection κ α} :
    c.Refused .beginConnect ↔ c.stage ≠ .unconnected := by
  simp only [refused_iff .beginConnect rfl, denial?, Option.ite_none_left_eq_some,
    Option.some.injEq, exists_and_left, exists_eq', and_true, ne_eq]

/-- **A batch is judged by its first refused member.** -/
theorem denial?_batch {c : Connection κ α} {commands : List Command} {k : κ} {failure : Failure}
    (hne : commands ≠ []) (h : c.denial? (.submitBatch commands k) = some failure) :
    ∃ before command after, commands = before ++ command :: after ∧
      (∀ b ∈ before, c.Takes b) ∧ c.denial? (.submit command k) = some failure := by
  rw [denial?, if_neg (by simpa using hne), List.findSome?_eq_some_iff] at h
  obtain ⟨before, command, after, hsplit, hfirst, hbefore⟩ := h
  refine ⟨before, command, after, hsplit, fun b hb => by_contra fun hnot => ?_, hfirst⟩
  have hsome := refusal?_eq_some_iff.mpr ⟨hnot, rfl⟩
  rw [hbefore b hb] at hsome
  cases hsome

theorem refused_batch_iff {c : Connection κ α} {commands : List Command} {k : κ} :
    c.Refused (.submitBatch commands k) ↔
      if commands = [] then ¬ c.isOpen else ∃ command ∈ commands, c.Refused (.submit command k) := by
  split
  · rename_i hnil
    subst hnil
    exact refused_iff_of_closedTo? rfl rfl
  · rename_i hne
    rw [refused_iff _ rfl, denial?, if_neg (by simpa using hne)]
    simp only [refused_submit_iff]
    constructor
    · rintro ⟨failure, h⟩
      obtain ⟨command, hmem, hc⟩ := List.exists_of_findSome?_eq_some h
      exact ⟨command, hmem, (refusal?_eq_some_iff.mp hc).1⟩
    · rintro ⟨command, hmem, hc⟩
      by_contra hnone
      have hall : commands.findSome? c.refusal? = none :=
        Option.eq_none_iff_forall_ne_some.mpr fun failure h => hnone ⟨failure, h⟩
      have hpass := List.findSome?_eq_none_iff.mp hall command hmem
      rw [refusal?_eq_some_iff.mpr ⟨hc, rfl⟩] at hpass
      cases hpass

/-! ## The statement -/

/-- The word for an operation in the failure it meets.  A batch of some commands has none of its own. -/
def word? : Op κ α → Option String
  | .beginConnect => some "connect"
  | .submit command _ => some (Utf8.decode command.name)
  | .submitBatch [] _ => some "pipeline"
  | .register topic _ _ _ => some topic.kind.subscribe
  | .unsubscribe h _ => some h.topic.kind.unsubscribe
  | _ => none

theorem denial?_word {c : Connection κ α} {op : Op κ α} {word : String} {failure : Failure}
    (hw : word? op = some word) (h : c.denial? op = some failure) : failure = c.notNow word := by
  cases op with
  | beginConnect =>
    rw [denial?, Option.ite_none_left_eq_some] at h
    cases hw
    exact (Option.some.inj h.2).symm
  | submit command k =>
    cases hw
    exact (refusal?_eq_some_iff.mp h).2
  | submitBatch commands k =>
    cases commands with
    | nil =>
      cases hw
      exact (closedTo?_eq_some_iff.mp h).2
    | cons command commands => cases hw
  | register topic persistence listener k =>
    cases hw
    exact (closedTo?_eq_some_iff.mp h).2
  | unsubscribe hd k =>
    cases hw
    exact (closedTo?_eq_some_iff.mp h).2
  | _ => cases hw

/-- **When operations are refused, and what comes of them then.** -/
structure Refusals (c : Connection κ α) : Prop where
  submit : ∀ command k, c.Refused (.submit command k) ↔ ¬ c.isOpen ∨ c.stage = .subscribed ∧
    ∀ name ∈ subscribedNames,
      command.name.map Command.lower ≠ (Utf8.encode name).map Command.lower
  batch : ∀ commands k, c.Refused (.submitBatch commands k) ↔
    if commands = [] then ¬ c.isOpen else ∃ command ∈ commands, c.Refused (.submit command k)
  register : ∀ topic persistence listener k,
    c.Refused (.register topic persistence listener k) ↔ ¬ c.isOpen
  unsubscribe : ∀ h k, c.Refused (.unsubscribe h k) ↔ ¬ c.isOpen
  beginConnect : c.Refused .beginConnect ↔ c.stage ≠ .unconnected
  /-- Nothing is left of a refused operation but one report and the same failure for its handler. -/
  nothing : ∀ op word, word? op = some word → c.Refused op →
    c.perform op = (c, .reported c.observer (.invalidState word c.stage) ::
      op.handler?.toList.map fun k => .replied k (.error (.invalidState word c.stage)))
  /-- A batch fares like its first member that is refused, submitted alone. -/
  first : ∀ commands k, commands ≠ [] → c.Refused (.submitBatch commands k) →
    ∃ before command after, commands = before ++ command :: after ∧
      (∀ b ∈ before, ¬ c.Refused (.submit b k)) ∧ c.Refused (.submit command k) ∧
        c.perform (.submitBatch commands k) = c.perform (.submit command k)
  /-- The two operations that return something return the failure, and only then fail. -/
  begun : c.beginConnect.1
    = if c.stage = .unconnected then .ok () else .error (.invalidState "connect" c.stage)
  registered : ∀ topic persistence listener (target : Target κ),
    (c.register topic persistence listener target).1
      = if c.isOpen then .ok ⟨c.nextHandle, topic⟩
        else .error (.invalidState topic.kind.subscribe c.stage)
  /-- An operation that is not refused fails nobody. -/
  granted : ∀ op, op.checked → ¬ c.Refused op →
    ∀ event ∈ (c.perform op).2, ∃ k v, event = .replied k (.ok v)

/-- **Refused operations leave no trace** on any connection, whatever has happened to it. -/
theorem refusals (c : Connection κ α) : c.Refusals where
  submit _ _ := refused_submit_iff.trans not_takes_iff
  batch _ _ := refused_batch_iff
  register _ _ _ _ := refused_iff_of_closedTo? rfl rfl
  unsubscribe _ _ := refused_iff_of_closedTo? rfl rfl
  beginConnect := refused_beginConnect_iff
  nothing op word hw hr := by
    have ho : op.checked := by
      cases op <;> first | rfl | cases hw
    obtain ⟨failure, hd⟩ := (refused_iff op ho).mp hr
    obtain rfl := denial?_word hw hd
    exact perform_denied hd
  first commands k hne hr := by
    obtain ⟨failure, hd⟩ := (refused_iff _ rfl).mp hr
    obtain ⟨before, command, after, hsplit, hbefore, hfirst⟩ := denial?_batch hne hd
    refine ⟨before, command, after, hsplit, fun b hb hb' => ?_, ?_, ?_⟩
    · exact refused_submit_iff.mp hb' (hbefore b hb)
    · exact (refused_iff _ rfl).mpr ⟨failure, hfirst⟩
    · rw [perform_denied hd, perform_denied hfirst]
      rfl
  begun := by
    rw [Connection.beginConnect]
    split <;> rfl
  registered topic persistence listener target := by
    rw [Connection.register, closedTo?]
    by_cases ho : c.isOpen
    · rw [if_pos ho, if_pos ho]
    · rw [if_neg ho, if_neg ho]
      rfl
  granted op ho hr := by
    refine perform_granted ho (Option.eq_none_iff_forall_ne_some.mpr fun failure hd => hr ?_)
    exact (refused_iff op ho).mpr ⟨failure, hd⟩

end Connection

end RespClient
