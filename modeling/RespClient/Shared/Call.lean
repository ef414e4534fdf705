import RespClient.Shared.Task

/-!
# Shared/Call — a call under way

A call has sent its request and waits.  When a notice of the task concerns it, it ends, or waits for the
next thing.  A call that misses its deadline reports that, and one that gives up a subscription asks for
its end.

Whatever it hears, a call grows no weightier (`Notice.weight_concern?_le`), where what it still asks of the
task is part of its weight; so a finite number of calls comes to an end.
-/

namespace RespClient

/-- **What a call gives its caller.** -/
inductive Answer
  | value (v : Value)
  | handle (h : Handle)
  | done
deriving DecidableEq

/-- **What a call waits for**; deadlines are in milliseconds of the clock. -/
inductive Waiting
  /-- The reply to its commands. -/
  | reply (deadline : Option Nat)
  /-- The handle of its subscription. -/
  | handle
  /-- The server's answer to its subscription. -/
  | ack (h : Handle) (deadline : Option Nat)
  /-- An open stream. -/
  | opening
  /-- A stage of the connection. -/
  | stage (target : Lifecycle)

/-- **A call under way.** -/
structure Call where
  id : Nat
  waiting : Waiting

/-- **What a call does when it hears of something.** -/
inductive Reaction (α : Type)
  | waits (waiting : Waiting)
  /-- It ends, and asks the task for more on its way out. -/
  | ends (result : Except Failure Answer) (requests : List (Request α) := [])

namespace Reaction

variable {α : Type}

/-- What the call waits for next, if it goes on. -/
def waiting? : Reaction α → Option Waiting
  | waits w => some w
  | ends .. => none

/-- What the call asks of the task. -/
def requests : Reaction α → List (Request α)
  | waits _ => []
  | ends _ requests => requests

/-- The call's result, if it ends. -/
def result? : Reaction α → Option (Except Failure Answer)
  | waits _ => none
  | ends result _ => some result

end Reaction

namespace Waiting

variable {α : Type}

/-- When the call will wait no longer. -/
def deadline? : Waiting → Option Nat
  | reply deadline | ack _ deadline => deadline
  | handle | opening | stage _ => none

/-- Its commands' result is there. -/
def replied (result : Except Failure Value) : Waiting → Reaction α
  | reply _ => .ends (result.map .value)
  | ack h _ =>
    match result with
    | .ok v => .ends ((Connection.outcome h v).map .handle)
    | .error failure => .ends (.error failure) [.abandon h]
  | w => .waits w

/-- Its listener is registered, or not; the answer has to come by the deadline. -/
def registered (result : Except Failure Handle) (deadline : Option Nat) : Waiting → Reaction α
  | handle =>
    match result with
    | .ok h => .waits (.ack h deadline)
    | .error failure => .ends (.error failure)
  | w => .waits w

/-- Its stream is open, or not. -/
def opened (result : Except Failure Unit) : Waiting → Reaction α
  | opening => .ends (result.map fun _ => .done)
  | w => .waits w

/-- **Its deadline has passed.** -/
def expire : Waiting → Reaction α
  | reply _ => .ends (.error (.timeout .command)) [.report (.timeout .command)]
  | ack h _ => .ends (.error (.timeout .command)) [.report (.timeout .command), .abandon h]
  | w => .waits w

/-- **The task is gone**, and with it whatever it owed the call; the last stage can still be seen. -/
def lose : Waiting → Reaction α
  | stage target => .waits (.stage target)
  | _ => .ends (.error .connectionClosed)

/-- It sees a stage, the last one if no other follows. -/
def see (published : Lifecycle) (last : Bool) : Waiting → Reaction α
  | stage target =>
    if target = published then .ends (.ok .done)
    else if last then .ends (.error .connectionClosed)
    else .waits (.stage target)
  | w => .waits w

end Waiting

/-- **Whom a notice of the task concerns**: a call, and what it does. -/
def Notice.concern? {α : Type} (deadline : Option Nat) :
    Notice α → Option (Nat × (Waiting → Reaction α))
  | .happened (.replied (.call id) result) => some (id, Waiting.replied result)
  | .registered id result => some (id, Waiting.registered result deadline)
  | .opened id result => some (id, Waiting.opened result)
  | _ => none

namespace Call

variable {α : Type}

/-- Whether the call's deadline has passed. -/
def isLate (clock : Nat) (c : Call) : Bool := c.waiting.deadline?.any (· ≤ clock)

/-- Whether the call waits for a stage and will see no better one. -/
def isContent (published : Lifecycle) (last : Bool) (c : Call) : Bool :=
  match c.waiting with
  | .stage target => target = published || last
  | _ => false

/-- **The call's turn**: it gives up if its deadline has passed, and sees the stage if it waits for one. -/
def look (clock : Nat) (published : Lifecycle) (last : Bool) (c : Call) : Reaction α :=
  if c.isLate clock then c.waiting.expire else c.waiting.see published last

/-- Whether the call's turn makes a difference to it. -/
def isDue (clock : Nat) (published : Lifecycle) (last : Bool) (c : Call) : Bool :=
  c.isLate clock || c.isContent published last

end Call

/-! ## Weight -/

/-- How many steps a call is good for, its requests included. -/
def Waiting.weight : Waiting → Nat
  | reply _ => 2
  | handle => 4
  | ack _ _ => 3
  | opening => 1
  | stage _ => 1

/-- What is left of a call's weight. -/
def Reaction.weight {α : Type} : Reaction α → Nat
  | waits w => w.weight
  | ends _ requests => requests.length

namespace Waiting

variable {α : Type} (w : Waiting)

theorem weight_replied_le (result : Except Failure Value) :
    (w.replied result : Reaction α).weight ≤ w.weight := by
  unfold replied
  split
  · exact Nat.zero_le _
  · split
    · exact Nat.zero_le _
    · exact Nat.le_add_left 1 2
  · exact Nat.le_refl _

theorem weight_registered_le (result : Except Failure Handle) (deadline : Option Nat) :
    (w.registered result deadline : Reaction α).weight ≤ w.weight := by
  unfold registered
  split
  · split
    · exact Nat.le_succ 3
    · exact Nat.zero_le _
  · exact Nat.le_refl _

theorem weight_opened_le (result : Except Failure Unit) :
    (w.opened result : Reaction α).weight ≤ w.weight := by
  unfold opened
  split
  · exact Nat.zero_le _
  · exact Nat.le_refl _

theorem weight_lose_le : (w.lose : Reaction α).weight ≤ w.weight := by
  unfold lose
  split
  · exact Nat.le_refl _
  · exact Nat.zero_le _

theorem weight_see_le (published : Lifecycle) (last : Bool) :
    (w.see published last : Reaction α).weight ≤ w.weight := by
  unfold see
  split
  · split
    · exact Nat.zero_le _
    · split
      · exact Nat.zero_le _
      · exact Nat.le_refl _
  · exact Nat.le_refl _

/-- A call that has a deadline and misses it grows lighter. -/
theorem weight_expire_lt (h : w.deadline? ≠ none) : (w.expire : Reaction α).weight < w.weight := by
  cases w <;> simp_all [deadline?, expire, Reaction.weight, weight]

end Waiting

/-- **No notice makes a call weightier.** -/
theorem Notice.weight_concern?_le {α : Type} {deadline : Option Nat} {notice : Notice α} {id : Nat}
    {f : Waiting → Reaction α} (h : notice.concern? deadline = some (id, f)) (w : Waiting) :
    (f w).weight ≤ w.weight := by
  unfold concern? at h
  split at h <;> cases h
  · exact w.weight_replied_le _
  · exact w.weight_registered_le _ _
  · exact w.weight_opened_le _

namespace Call

variable {α : Type} (c : Call)

/-- How many steps a call is good for. -/
def weight : Nat := c.waiting.weight

theorem weight_look_le (clock : Nat) (published : Lifecycle) (last : Bool) :
    (c.look clock published last : Reaction α).weight ≤ c.weight := by
  unfold look
  split
  · rename_i h
    refine Nat.le_of_lt (Waiting.weight_expire_lt _ fun e => ?_)
    simp [isLate, e] at h
  · exact c.waiting.weight_see_le _ _

/-- **A turn that makes a difference leaves a call lighter.** -/
theorem weight_look_lt {clock : Nat} {published : Lifecycle} {last : Bool}
    (h : c.isDue clock published last) :
    (c.look clock published last : Reaction α).weight < c.weight := by
  unfold look
  split
  · rename_i hl
    refine Waiting.weight_expire_lt _ fun e => ?_
    simp [isLate, e] at hl
  · rename_i hl
    obtain ⟨id, w⟩ := c
    have hc : isContent published last ⟨id, w⟩ := by simpa [isDue, hl] using h
    cases w with
    | stage target =>
      by_cases ht : target = published
      · simp [Waiting.see, ht, weight, Reaction.weight, Waiting.weight]
      · have hlast : last = true := by simpa [isContent, ht] using hc
        simp [Waiting.see, ht, hlast, weight, Reaction.weight, Waiting.weight]
    | _ => cases hc

end Call

end RespClient
