import RespClient.Effort
import RespClient.Shared.Call

/-!
# Shared/Client — many callers, one connection

    caller ─┐                    ┌─▸ pipe
    caller ─┼─▸ queue ──▸ task ──┤
    caller ─┘                    └─▸ results

Any number of callers hand their requests to one task, which takes them in order.  Callers and task take
turns.  The callers' turn comes when the task rests: late calls give up, and calls that wait for a stage
see it.  Then the task works until it has nothing to do, by one read, write or request at a time.

A move is the least thing that can happen.  `settle` makes moves until nothing can happen without new
bytes, requests or time, and every move uses something up (`make_headway`), so it comes to an end.

When nobody holds the client any more and no call is under way, the task closes the connection and stops.
-/

namespace RespClient

/-- **What is seen from outside.** -/
inductive Effect (α : Type)
  | noticed (notice : Notice α)
  | ended (call : Nat) (result : Except Failure Answer)

/-- **A task and its callers.** -/
structure SharedClient (α : Type) where
  task : Task α
  network : Network
  /-- Requests on their way to the task, the oldest first. -/
  queue : List (Request α) := []
  /-- Calls under way, the oldest first. -/
  calls : List Call := []
  /-- Milliseconds since the client began. -/
  clock : Nat := 0
  /-- Whether anyone but the calls under way holds the client. -/
  held : Bool := true
  /-- Whether the task rests, so that its callers have their turn. -/
  resting : Bool := true

namespace SharedClient

variable {α : Type}

/-- A client after something that happened, and what was seen of it. -/
abbrev Outcome (α : Type) := SharedClient α × List (Effect α)

/-- A deadline for one call, set now. -/
def deadline (c : SharedClient α) : Option Nat :=
  c.task.config.commandTimeout.map fun d => c.clock + d.ceilMillis

/-! ## Calls hear of things -/

/-- Requests join the queue. -/
def enqueue (c : SharedClient α) : List (Request α) → SharedClient α
  | [] => c
  | request :: others => { c with queue := c.queue ++ [request] }.enqueue others

/-- **Every call reacts**: some go on, the others end, and their requests join the queue. -/
def react (c : SharedClient α) (f : Call → Reaction α) : Outcome α :=
  ({ c with calls := c.calls.filterMap fun call => (f call).waiting?.map (⟨call.id, ·⟩) }.enqueue
      (c.calls.flatMap fun call => (f call).requests),
    c.calls.filterMap fun call => (f call).result?.map (.ended call.id))

/-- **One call reacts**, if it is under way. -/
def reactOne (c : SharedClient α) (id : Nat) (f : Waiting → Reaction α) : Outcome α :=
  match c.calls.dropWhile (·.id != id) with
  | [] => (c, [])
  | call :: younger =>
    let older := c.calls.takeWhile (·.id != id)
    match f call.waiting with
    | .waits waiting => ({ c with calls := older ++ ⟨id, waiting⟩ :: younger }, [])
    | .ends result requests =>
      ({ c with calls := older ++ younger }.enqueue requests, [.ended id result])

/-- A notice is heard by the call that it concerns, if any. -/
def hear (c : SharedClient α) (notice : Notice α) : Outcome α :=
  match notice.concern? c.deadline with
  | some (id, f) => c.reactOne id f
  | none => (c, [])

/-- Calls hear the notices in turn; if the task is gone after them, calls lose what it owed. -/
def spread (c : SharedClient α) : List (Notice α) → Outcome α
  | [] => if c.task.running then (c, []) else c.react fun call => call.waiting.lose
  | notice :: rest =>
    let heard := c.hear notice
    let after := heard.1.spread rest
    (after.1, .noticed notice :: heard.2 ++ after.2)

/-- **The task does something**, and its callers hear of it. -/
def engage (c : SharedClient α) (act : Task α → Task.Step α) : Outcome α :=
  let s := act c.task
  { c with task := s.1, resting := false }.spread s.2

/-! ## One move -/

/-- **The least thing that can happen.** -/
inductive Move
  /-- The callers' turn. -/
  | callers
  | read
  | write
  /-- The task takes the oldest request. -/
  | request
  /-- The task comes to its end. -/
  | stop
  /-- The task has nothing to do. -/
  | rest
deriving DecidableEq

/-- Whether a call's turn would make a difference to it. -/
def isDue (c : SharedClient α) (call : Call) : Bool :=
  call.isDue c.clock c.task.published (!c.task.running)

/-- **The next thing for the task to do**: a read, else a write, else a request, and when there is none
and nobody to make one, its end. -/
def work? (c : SharedClient α) : Option Move :=
  if !c.task.running then none
  else if c.task.canRead then some .read
  else if c.task.canWrite then some .write
  else if !c.queue.isEmpty then some .request
  else if !c.held && c.calls.isEmpty then some .stop
  else none

/-- **The next move**, if anything can happen. -/
def next? (c : SharedClient α) : Option Move :=
  if c.resting && c.calls.any c.isDue then some .callers
  else
    match c.work? with
    | some move => some move
    | none => if c.resting then none else some .rest

/-- The task takes the oldest request, if there is one. -/
def serve (c : SharedClient α) : Outcome α :=
  match c.queue with
  | oldest :: others => { c with queue := others }.engage (·.handle c.network oldest)
  | [] => (c, [])

/-- **A move is made.** -/
def make (c : SharedClient α) : Move → Outcome α
  | .callers => c.react (Call.look c.clock c.task.published (!c.task.running))
  | .read => c.engage Task.read
  | .write => c.engage Task.write
  | .request => c.serve
  | .stop => c.engage Task.stop
  | .rest => ({ c with resting := true }, [])

/-! ## Moves make headway -/

/-- How many moves calls and requests are good for. -/
def load (c : SharedClient α) : Nat := total Call.weight c.calls + c.queue.length

/-- How much the pipe is good for, if it is still the task's. -/
def patience (t : Task α) : Nat := if t.attached then t.pipe.patience + 1 else 0

/-- **What is left to do**: for callers and the task's end, then for the pipe, then for outbound bytes and
the rest after them. -/
def effort (c : SharedClient α) : Effort :=
  (c.load + c.task.running.toNat, patience c.task,
    2 * c.task.connection.outbound.length + (!c.resting).toNat)

theorem load_reactions (f : Call → Reaction α) (calls : List Call) :
    total Call.weight (calls.filterMap fun call => (f call).waiting?.map (Call.mk call.id ·))
        + (calls.flatMap fun call => (f call).requests).length
      = total (fun call => (f call).weight) calls := by
  induction calls with
  | nil => rfl
  | cons call calls ih =>
    rw [total, ← ih]
    cases hf : f call <;>
      simp only [List.filterMap_cons, List.flatMap_cons, hf, Reaction.waiting?, Reaction.requests,
        Reaction.weight, Call.weight, Option.map_some, Option.map_none, total,
        List.length_append, List.nil_append] <;> omega

theorem enqueue_eq (c : SharedClient α) (requests : List (Request α)) :
    c.enqueue requests = { c with queue := c.queue ++ requests } := by
  induction requests generalizing c with
  | nil => rw [enqueue, List.append_nil]
  | cons request others ih => rw [enqueue, ih, List.append_assoc]; rfl

theorem load_react (c : SharedClient α) (f : Call → Reaction α) :
    (c.react f).1.load = total (fun call => (f call).weight) c.calls + c.queue.length := by
  have := load_reactions f c.calls
  simp only [load, react, enqueue_eq, List.length_append]
  omega

theorem task_react (c : SharedClient α) (f : Call → Reaction α) : (c.react f).1.task = c.task := by
  rw [react, enqueue_eq]

theorem load_react_le (c : SharedClient α) {f : Call → Reaction α}
    (h : ∀ call, (f call).weight ≤ call.weight) : (c.react f).1.load ≤ c.load := by
  rw [load_react, load]
  exact Nat.add_le_add_right (total_le h c.calls) _

theorem load_react_lt (c : SharedClient α) {f : Call → Reaction α}
    (h : ∀ call, (f call).weight ≤ call.weight) {p : Call → Bool}
    (hp : ∀ call, p call → (f call).weight < call.weight) (hany : c.calls.any p) :
    (c.react f).1.load < c.load := by
  rw [load_react, load]
  exact Nat.add_lt_add_right (total_lt h hp hany) _

theorem load_reactOne_le (c : SharedClient α) (id : Nat) {f : Waiting → Reaction α}
    (h : ∀ w, (f w).weight ≤ w.weight) : (c.reactOne id f).1.load ≤ c.load := by
  have parts : total Call.weight (c.calls.takeWhile (·.id != id))
      + total Call.weight (c.calls.dropWhile (·.id != id)) = total Call.weight c.calls := by
    rw [← total_append, List.takeWhile_append_dropWhile]
  unfold reactOne
  split
  · exact Nat.le_refl _
  · rename_i call younger hd
    have := h call.waiting
    rw [hd, total, Call.weight] at parts
    split
    · rename_i w hw
      rw [hw, Reaction.weight] at this
      simp only [load, total_append, total, Call.weight] at *
      omega
    · rename_i result requests hr
      rw [hr, Reaction.weight] at this
      simp only [load, enqueue_eq, total_append, List.length_append] at *
      omega

theorem load_hear_le (c : SharedClient α) (notice : Notice α) :
    (c.hear notice).1.load ≤ c.load := by
  unfold hear
  split
  · rename_i id f h
    exact c.load_reactOne_le id (Notice.weight_concern?_le h)
  · exact Nat.le_refl _

/-- **What the task says adds nothing to do.** -/
theorem load_spread_le (c : SharedClient α) (notices : List (Notice α)) :
    (c.spread notices).1.load ≤ c.load := by
  induction notices generalizing c with
  | nil =>
    unfold spread
    split
    · exact Nat.le_refl _
    · exact c.load_react_le fun call => call.waiting.weight_lose_le
  | cons notice rest ih => exact Nat.le_trans (ih _) (c.load_hear_le notice)

/-- Calls hear of things without touching the task. -/
theorem hear_keeps (c : SharedClient α) (notice : Notice α) :
    (c.hear notice).1.task = c.task ∧ (c.hear notice).1.resting = c.resting := by
  unfold hear
  split
  · unfold reactOne
    split
    · exact ⟨rfl, rfl⟩
    · dsimp only
      split
      · exact ⟨rfl, rfl⟩
      · rw [enqueue_eq]; exact ⟨rfl, rfl⟩
  · exact ⟨rfl, rfl⟩

theorem spread_keeps (c : SharedClient α) (notices : List (Notice α)) :
    (c.spread notices).1.task = c.task ∧ (c.spread notices).1.resting = c.resting := by
  induction notices generalizing c with
  | nil =>
    unfold spread
    split
    · exact ⟨rfl, rfl⟩
    · rw [react, enqueue_eq]; exact ⟨rfl, rfl⟩
  | cons notice rest ih =>
    have := c.hear_keeps notice
    exact ⟨(ih _).1.trans this.1, (ih _).2.trans this.2⟩

theorem load_engage_le (c : SharedClient α) (act : Task α → Task.Step α) :
    (c.engage act).1.load ≤ c.load :=
  load_spread_le { c with task := (act c.task).1, resting := false } _

theorem task_engage (c : SharedClient α) (act : Task α → Task.Step α) :
    (c.engage act).1.task = (act c.task).1 :=
  (spread_keeps { c with task := (act c.task).1, resting := false } _).1

theorem resting_engage (c : SharedClient α) (act : Task α → Task.Step α) :
    (c.engage act).1.resting = false :=
  (spread_keeps { c with task := (act c.task).1, resting := false } _).2

/-- **The pipe is good for less, or for no more with fewer bytes outbound.** -/
def Eased (next t : Task α) : Prop :=
  patience next < patience t ∨
    patience next ≤ patience t ∧ next.connection.outbound.length < t.connection.outbound.length

theorem Eased.of_detached {next t : Task α} (hnext : next.attached = false)
    (ht : t.attached = true) : Eased next t := by
  refine .inl ?_
  simp only [patience, hnext, ht, if_true]
  exact Nat.succ_pos _

theorem Eased.publish {s : Task.Step α} {t : Task α} (h : Eased s.1 t) :
    Eased (Task.publish s).1 t := by
  unfold Eased patience at *
  rwa [Task.publish_attached, Task.publish_pipe, Task.publish_connection]

/-- **A read eases the task.** -/
theorem Eased.of_read {t : Task α} (running : t.running = true) (h : t.canRead) :
    Eased t.read.1 t := by
  have attached : t.attached = true := (Bool.and_eq_true _ _ ▸ h).1
  unfold Task.read
  refine Eased.publish ?_
  cases hread : t.pipe.read t.window.ready.room with
  | mk result pipe =>
    rcases Task.received_cases (t := { t with window := t.window.ready, pipe }) running result with
      h | ⟨⟨bytes, hne, rfl⟩, hattached, hpipe⟩
    · exact .of_detached h attached
    · have := Pipe.patience_read_lt hread hne
      refine .inl ?_
      unfold patience
      rw [hattached, hpipe]
      simp only [attached, if_true]
      omega

/-- **A write eases the task.** -/
theorem Eased.of_write {t : Task α} (running : t.running = true) (h : t.canWrite) :
    Eased t.write.1 t := by
  simp only [Task.canWrite, Bool.and_eq_true] at h
  obtain ⟨⟨attached, hout⟩, -⟩ := h
  unfold Task.write
  refine Eased.publish ?_
  have := Pipe.patience_write_le t.pipe t.connection.outbound
  cases hwrite : t.pipe.write t.connection.outbound with
  | mk result pipe =>
    rw [hwrite] at this
    dsimp only at this ⊢
    rcases Task.wrote_cases (t := { t with pipe }) running result with h | ⟨n, hn, h⟩
    · exact .of_detached h attached
    · have : 0 < t.connection.outbound.length :=
        List.length_pos_iff.mpr fun e => by simp [e] at hout
      rw [h]
      refine .inr ⟨?_, ?_⟩
      · simp only [patience, attached, if_true]
        omega
      · simp only [Connection.written, List.length_drop]
        omega

theorem Eased.headway {c : SharedClient α} {act : Task α → Task.Step α}
    (running : c.task.running = true) (h : Eased (act c.task).1 c.task) :
    (c.engage act).1.effort.Less c.effort := by
  have hload := c.load_engage_le act
  have hrun : (act c.task).1.running.toNat ≤ c.task.running.toNat := by
    rw [running]; exact Bool.toNat_le _
  have := (!c.resting).toNat_le
  simp only [Effort.Less, effort, task_engage, resting_engage, Bool.not_false, Bool.toNat_true]
  unfold Eased at h
  omega

theorem serve_headway {c : SharedClient α} (running : c.task.running = true)
    (h : c.queue ≠ []) : c.serve.1.effort.Less c.effort := by
  unfold serve
  split
  · rename_i oldest others hq
    have := load_engage_le { c with queue := others } (·.handle c.network oldest)
    have : ({ c with queue := others }).load < c.load := by simp [load, hq]
    have : (c.task.handle c.network oldest).1.running.toNat ≤ c.task.running.toNat := by
      rw [running]; exact Bool.toNat_le _
    refine .inl ?_
    simp only [effort, task_engage]
    omega
  · exact absurd (by assumption) h

theorem work?_headway {c : SharedClient α} {move : Move} (h : c.work? = some move) :
    (c.make move).1.effort.Less c.effort := by
  unfold work? at h
  split at h
  · cases h
  rename_i hrun
  have running : c.task.running = true := by simpa using hrun
  split at h
  · rename_i hread
    cases h
    exact (Eased.of_read running hread).headway running
  split at h
  · rename_i hwrite
    cases h
    exact (Eased.of_write running hwrite).headway running
  split at h
  · rename_i hqueue
    cases h
    exact serve_headway running fun e => by simp [e] at hqueue
  split at h
  · cases h
    have := c.load_engage_le Task.stop
    refine .inl ?_
    simp only [make, effort, task_engage, running, Task.stop, Bool.toNat_true, Bool.toNat_false]
    exact Nat.lt_succ_of_le this
  · cases h

/-- **Every move makes headway.** -/
theorem make_headway {c : SharedClient α} {move : Move} (h : c.next? = some move) :
    (c.make move).1.effort.Less c.effort := by
  unfold next? at h
  split at h
  · rename_i hdue
    cases h
    have := c.load_react_lt (fun call => call.weight_look_le _ _ _)
      (fun call hc => call.weight_look_lt hc) (Bool.and_eq_true _ _ ▸ hdue).2
    refine .inl ?_
    simp only [effort, make, task_react]
    exact Nat.add_lt_add_right this _
  · split at h
    · rename_i hw
      cases h
      exact work?_headway hw
    · split at h
      · cases h
      · rename_i hrest
        cases h
        refine .inr ⟨Nat.le_refl _, .inr ⟨Nat.le_refl _, ?_⟩⟩
        simp [effort, make, hrest]

/-- **Moves are made until nothing more can happen.** -/
def settle (c : SharedClient α) : Outcome α :=
  match _h : c.next? with
  | none => (c, [])
  | some move =>
    let o := c.make move
    let settled := o.1.settle
    (settled.1, o.2 ++ settled.2)
termination_by c.effort
decreasing_by exact (make_headway _h).lex

end SharedClient

end RespClient
