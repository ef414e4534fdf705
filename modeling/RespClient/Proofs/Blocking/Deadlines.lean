import RespClient.Proofs.Blocking.Script
import RespClient.Proofs.Session.Solitary
import Mathlib.Data.List.Infix

/-!
# Proofs/Blocking/Deadlines — a missed deadline shifts no reply

    calls       GET a  late!       GET b                GET c  late!
    replies                r_a ─▸ nobody    r_b ─▸ GET b             r_c …

A call that misses its deadline leaves its command in the queue, and perhaps some of its bytes outbound or
half of its reply in the decoder.  What the steps of a call do to the connection asks for nothing
(`Passive`), so the orders of a script are its calls in turn, whichever of them were late
(`order?_scriptTrail`).  With a server that answers each command once, by what the transport wrote down,
the runs of `Fares` give every call its own replies and let late ones go to nobody else
(`script_answers`).
-/

namespace RespClient

namespace BlockingClient

variable {α : Type}

/-! ## Trails of steps -/

theorem passive_faultTrail (fault : StreamFault) : (faultTrail fault : Trail Nat α).Passive := by
  rw [faultTrail]
  split
  · exact .nil
  · exact .fault fault

theorem passive_trail (c : BlockingClient α) (expired : Bool) : (c.trail expired).Passive := by
  rw [trail]
  split
  · exact .nil
  · split
    · rw [readTrail]
      split
      · exact .singleton rfl _
      · exact .singleton rfl _
      · exact passive_faultTrail _
    · rw [writeTrail]
      split
      · exact .singleton rfl _
      · exact .singleton rfl _
      · exact passive_faultTrail _

theorem passive_course (c : BlockingClient α) (expired : Bool) (enough : Log α → Bool) :
    (c.course expired enough).trail.Passive := by
  induction c using course_induction expired enough with
  | fails c failure d log hs =>
    rw [course_error hs]
    exact passive_trail c expired
  | goesOn c n d log hs ih =>
    rw [course_ok hs]
    cases he : enough log with
    | true => exact passive_trail c expired
    | false => exact (passive_trail c expired).andThen (ih he)

theorem passive_lateTrail (failure : Failure) : (lateTrail failure : Trail Nat α).Passive := by
  rw [lateTrail]
  split
  · rename_i hlate
    refine .singleton ?_ _
    rw [Op.isPassive, Failure.blamesServer_of_isTimeout hlate]
    rfl
  · exact .nil

theorem passive_waitTrail (c : BlockingClient α) (call : Nat) (result? : Option (Except Failure Value)) :
    (c.waitTrail call result?).Passive := by
  cases result? with
  | some result => exact .nil
  | none =>
    have hcourse := passive_course c (expires c.config.commandTimeout) (hasResult call)
    rw [waitTrail]
    split
    · exact hcourse.andThen (passive_lateTrail _)
    · exact hcourse

/-! ## The numbers of calls -/

theorem nextCall_faulted (c : BlockingClient α) (fault : StreamFault) :
    (c.faulted fault : Done α Nat).2.1.nextCall = c.nextCall := by
  rw [faulted]
  split <;> rfl

theorem nextCall_step (c : BlockingClient α) (expired : Bool) :
    (c.step expired).2.1.nextCall = c.nextCall := by
  have hfault (t : Transport) (fault : StreamFault) :
      (if fault.kind = .interrupted then (.ok 0, { c with transport := t }, [])
        else ({ c with transport := t }.faulted fault : Done α Nat)).2.1.nextCall = c.nextCall := by
    split
    · rfl
    · exact nextCall_faulted _ fault
  rw [step]
  split
  · rfl
  · split
    · rfl
    · split
      · rw [readOnce]
        split
        · rfl
        · dsimp only
          split <;> rfl
        · exact hfault _ _
      · rw [writeOnce]
        split
        · rfl
        · rfl
        · exact hfault _ _

theorem nextCall_course (c : BlockingClient α) (expired : Bool) (enough : Log α → Bool) :
    (c.course expired enough).client.nextCall = c.nextCall := by
  induction c using course_induction expired enough with
  | fails c failure d log hs =>
    have hstep := nextCall_step c expired
    rw [hs] at hstep
    rw [course_error hs]
    exact hstep
  | goesOn c n d log hs ih =>
    have hstep := nextCall_step c expired
    rw [hs] at hstep
    rw [course_ok hs]
    cases he : enough log with
    | true => exact hstep
    | false => exact (ih he).trans hstep

/-- **Every call has its number.** -/
theorem nextCall_await {c : BlockingClient α} (h : c.Underway) {op : Op Nat α} (ha : op.asks) :
    (c.await (c.connection.perform op)).2.1.nextCall = c.nextCall + 1 := by
  have hfirst := (h.perform _ ha (c.nextCall + 1)).underway
  rw [await, after]
  dsimp only
  rcases resultOf c.nextCall (c.connection.perform op).2 with _ | result
  · rw [wait_none hfirst]
    dsimp only
    split <;> exact nextCall_course _ _ _
  · rw [wait_some]

/-! ## A call's result is in its log -/

theorem mem_of_resultOf {call : Nat} {log : Log α} {result : Except Failure Value}
    (h : resultOf call log = some result) : .replied call result ∈ log := by
  obtain ⟨e, he, hresult⟩ := List.exists_of_findSome?_eq_some h
  cases e with
  | replied k r =>
    simp only [Option.ite_none_right_eq_some, Option.some.injEq] at hresult
    obtain ⟨rfl, rfl⟩ := hresult
    exact he
  | _ => cases hresult

/-- **A call returns a value that its handler got.** -/
theorem mem_of_await {c : BlockingClient α} (h : c.Underway) {op : Op Nat α} (ha : op.asks) {v : Value}
    (hv : (c.await (c.connection.perform op)).1 = .ok v) :
    .replied c.nextCall (.ok v) ∈ (c.await (c.connection.perform op)).2.2 := by
  have hfirst := (h.perform _ ha (c.nextCall + 1)).underway
  rw [await, after] at hv ⊢
  dsimp only at hv ⊢
  generalize hd : ({ c with connection := (c.connection.perform op).1, nextCall := c.nextCall + 1 } :
    BlockingClient α) = d at hfirst hv ⊢
  rcases hr : resultOf c.nextCall (c.connection.perform op).2 with _ | result
  · rw [hr, wait_none hfirst] at hv
    rw [wait_none hfirst]
    dsimp only at hv ⊢
    cases hf : (d.course (expires d.config.commandTimeout) (hasResult c.nextCall)).failure? with
    | some failure =>
      rw [hf] at hv
      cases hv
    | none =>
      rw [hf] at hv
      refine List.mem_append_right _ (mem_of_resultOf ?_)
      cases hlog : resultOf c.nextCall
          (d.course (expires d.config.commandTimeout) (hasResult c.nextCall)).log with
      | none =>
        rw [hlog] at hv
        cases hv
      | some result =>
        rw [hlog] at hv
        exact congrArg some hv
  · rw [hr, wait_some] at hv
    exact List.mem_append_left _ (mem_of_resultOf (hv ▸ hr))

end BlockingClient

/-! ## Calls for data, one after another -/

/-- The call as a blocking client makes it. -/
def DataCall.invocation {α : Type} : DataCall → BlockingClient.Invocation α
  | one command => .command command
  | many commands => .pipelined commands

namespace BlockingClient

variable {α : Type} {c : BlockingClient α}

theorem invoke_invocation (c : BlockingClient α) (d : DataCall) :
    c.invoke d.invocation
      = (.value (c.await (c.connection.perform (d.op c.nextCall))).1,
        (c.await (c.connection.perform (d.op c.nextCall))).2) := by
  cases d <;> rfl

theorem trail_invocation (c : BlockingClient α) (d : DataCall) :
    c.invocationTrail d.invocation = c.awaitTrail (d.op c.nextCall) := by
  cases d <;> rfl

/-- **What a script does to the connection**: it makes its calls, in turn and with their numbers, and
between them nothing is asked for. -/
theorem order?_scriptTrail (h : c.Underway) (calls : List DataCall) :
    (c.scriptTrail (calls.map DataCall.invocation)).ops.filterMap Op.order?
      = (calls.zipIdx c.nextCall).filterMap fun p => (p.1.op p.2 : Op Nat α).order? := by
  induction calls generalizing c with
  | nil => rfl
  | cons d calls ih =>
    have hwaits := passive_waitTrail
      { c with connection := (c.connection.perform (d.op c.nextCall)).1, nextCall := c.nextCall + 1 }
      c.nextCall (resultOf c.nextCall (c.connection.perform (d.op c.nextCall)).2)
    have hmore := ih (await_leads h _ (d.asks_op c.nextCall)).underway
    rw [nextCall_await h (d.asks_op c.nextCall)] at hmore
    rw [List.map_cons, scriptTrail, trail_invocation, invoke_invocation, Trail.andThen,
      List.filterMap_append, hmore, List.zipIdx_cons, awaitTrail, Trail.andThen, List.filterMap_append,
      hwaits.order?, List.append_nil, List.filterMap_cons, List.filterMap_cons]
    cases (d.op c.nextCall : Op Nat α).order? <;> rfl

theorem mem_scriptTrail (h : c.Underway) {calls : List DataCall} {op : Op Nat α}
    (hop : op ∈ (c.scriptTrail (calls.map DataCall.invocation)).ops) :
    op.isPassive ∨ ∃ p ∈ calls.zipIdx c.nextCall, op = p.1.op p.2 := by
  induction calls generalizing c with
  | nil => cases hop
  | cons d calls ih =>
    rw [List.map_cons, scriptTrail, trail_invocation, invoke_invocation] at hop
    rw [List.zipIdx_cons]
    obtain hcall | hmore := List.mem_append.mp hop
    · obtain rfl | hwaits := List.mem_cons.mp hcall
      · exact .inr ⟨(d, c.nextCall), List.mem_cons_self, rfl⟩
      · exact .inl (passive_waitTrail _ _ _ op hwaits)
    · have hrest := ih (await_leads h _ (d.asks_op c.nextCall)).underway hmore
      rw [nextCall_await h (d.asks_op c.nextCall)] at hrest
      exact hrest.imp_right fun ⟨p, hp, heq⟩ => ⟨p, List.mem_cons_of_mem _ hp, heq⟩

/-- **A call returns a value that its handler got.** -/
theorem mem_of_script (h : c.Underway) {calls : List DataCall} {n : Nat} {v : Value}
    (hv : (c.script (calls.map DataCall.invocation)).1[n]? = some (.value (.ok v))) :
    .replied (c.nextCall + n) (.ok v) ∈ (c.script (calls.map DataCall.invocation)).2.2 := by
  induction calls generalizing c n with
  | nil => cases hv
  | cons d calls ih =>
    rw [List.map_cons, script, invoke_invocation] at hv ⊢
    cases n with
    | zero =>
      have hresult : (c.await (c.connection.perform (d.op c.nextCall))).1 = .ok v := by
        simpa using hv
      exact List.mem_append_left _ (mem_of_await h (d.asks_op c.nextCall) hresult)
    | succ n =>
      have hrest := ih (await_leads h _ (d.asks_op c.nextCall)).underway hv
      rw [nextCall_await h (d.asks_op c.nextCall), Nat.add_right_comm, Nat.add_assoc] at hrest
      exact List.mem_append_right _ hrest

theorem isPlain_scriptTrail (h : c.Underway) (calls : List DataCall) :
    ∀ op ∈ (c.scriptTrail (calls.map DataCall.invocation)).ops, op.isPlain := fun op hop => by
  obtain hpassive | ⟨p, -, rfl⟩ := mem_scriptTrail h hop
  · exact Op.isPlain_of_isPassive hpassive
  · exact p.1.isPlain_op p.2

/-! ## Every call its own -/

/-- **Every call gets its own**, however many were late. -/
structure Answered (calls : List DataCall) (replies : List Value) (came : Bytes)
    (results : List Returned) (client : BlockingClient α) (log : Log α) : Prop where
  /-- A call that returns a value returns what came of the replies to its own commands. -/
  returned : ∀ (n : Nat) (v : Value), results[n]? = some (Returned.value (.ok v)) →
    ∃ d, calls[n]? = some d ∧ d.Gets (calls.take n) replies v
  /-- The handler of a late call gets what would have been the call's, and nothing else. -/
  replied : ∀ (n : Nat) (v : Value), .replied n (.ok v) ∈ log →
    ∃ d, calls[n]? = some d ∧ d.Gets (calls.take n) replies v
  /-- Nothing that came is reported. -/
  reported : ∀ (observer : Option String) (failure : Failure), .reported observer failure ∈ log →
    failure.blamesServer = false
  /-- Each reply that came was taken for one of the commands. -/
  absorbed : client.connection.isOpen →
    client.connection.pending.length + (Decoder.empty.values came).length
      = (calls.flatMap DataCall.commands).length

variable (config : Config) (transport : Transport) (calls : List DataCall)

/-- A script of calls fares well. -/
theorem fares_history {served : List (Bytes × Value)}
    (hs : Serves served ((connected config transport : BlockingClient α).scriptTrail
      (calls.map DataCall.invocation)).tape) :
    Fares (served.map Prod.snd)
      (history config transport (calls.map DataCall.invocation) : List (Op Nat α)) := by
  refine Fares.run ?_ (history_tape config transport (calls.map DataCall.invocation) ▸ hs)
  rw [history, List.forall_mem_cons, List.forall_mem_cons]
  exact ⟨rfl, rfl, isPlain_scriptTrail (connected_underway config transport) calls⟩

/-- Its orders are its calls, up to the end of the connection. -/
theorem orders_history :
    let j : Journal Nat α := Journal.run {} (history config transport (calls.map DataCall.invocation))
    let asked := calls.zipIdx.filterMap fun p => (p.1.op p.2 : Op Nat α).order?
    j.orders <+: asked ∧ (j.now.isOpen → j.orders = asked) := by
  have hbegun : (Journal.run ({} : Journal Nat α) [.beginConnect, .connectSucceeded]).now.Solitary :=
    (Connection.solitary_new.perform .beginConnect rfl).perform .connectSucceeded rfl
  have horders := Journal.orders_run hbegun (.inl rfl)
    (isPlain_scriptTrail (connected_underway config transport) calls)
  rw [order?_scriptTrail (connected_underway config transport)] at horders
  exact horders

/-- The calls before a numbered one are as many as its number. -/
theorem split_zipIdx {calls : List DataCall} {before after : List (DataCall × Nat)} {d : DataCall}
    {n : Nat} (h : calls.zipIdx = before ++ (d, n) :: after) :
    calls[n]? = some d ∧ before.map Prod.fst = calls.take n := by
  have hcalls := congrArg (List.map Prod.fst) h
  rw [List.zipIdx_map_fst, List.map_append, List.map_cons] at hcalls
  have hd := congrArg (·[before.length]?) h
  rw [List.getElem?_zipIdx, List.getElem?_append_right (Nat.le_refl _), Nat.sub_self,
    List.getElem?_cons_zero, Nat.zero_add] at hd
  obtain ⟨d', hd', heq⟩ := Option.map_eq_some_iff.mp hd
  obtain ⟨rfl, rfl⟩ := Prod.mk.inj heq
  refine ⟨hd', ?_⟩
  rw [hcalls, ← List.length_map (f := Prod.fst), List.take_left]

/-- **What a handler got is its call's own.** -/
theorem gets_of_replied {served : List (Bytes × Value)}
    (hs : Serves served ((connected config transport : BlockingClient α).scriptTrail
      (calls.map DataCall.invocation)).tape) {n : Nat} {v : Value}
    (hv : .replied n (.ok v) ∈ ((connected config transport : BlockingClient α).script
      (calls.map DataCall.invocation)).2.2) :
    ∃ d, calls[n]? = some d ∧ d.Gets (calls.take n) (served.map Prod.snd) v := by
  have hmem {op : Op Nat α} (hop : op ∈ history config transport (calls.map DataCall.invocation)) :
      op.isPassive ∨ op = .beginConnect ∨ op = .connectSucceeded ∨
        ∃ p ∈ calls.zipIdx, op = p.1.op p.2 := by
    obtain rfl | hop := List.mem_cons.mp hop
    · exact .inr (.inl rfl)
    · obtain rfl | hop := List.mem_cons.mp hop
      · exact .inr (.inr (.inl rfl))
      · obtain hpassive | hcall := mem_scriptTrail (connected_underway config transport) hop
        · exact .inl hpassive
        · exact .inr (.inr (.inr hcall))
  have hfair := (fares_history config transport calls hs).fair (.replied n (.ok v))
  rw [history_run] at hfair
  obtain hearned | ⟨hbatch, rfl⟩ | ⟨h, hunsubscribe, -⟩ := hfair hv
  · have hasked := hearned.mono (orders_history config transport calls).1 List.prefix_rfl
    obtain ⟨before, d, after, hcalls, hgets⟩ := DataCall.gets_of_earned hasked
    obtain ⟨hd, hbefore⟩ := split_zipIdx hcalls
    exact ⟨d, hd, hbefore ▸ hgets⟩
  · obtain hno | hno | hno | ⟨⟨d, k⟩, hp, hop⟩ := hmem hbatch
    · cases hno
    · cases hno
    · cases hno
    · obtain ⟨rfl, rfl⟩ : d = .many [] ∧ k = n := by
        cases d with
        | one command => cases hop
        | many commands =>
          cases hop
          exact ⟨rfl, rfl⟩
      exact ⟨_, List.mem_zipIdx_iff_getElem?.mp hp, [], List.nil_prefix, rfl, rfl⟩
  · obtain hno | hno | hno | ⟨⟨d, k⟩, hp, hop⟩ := hmem hunsubscribe
    · cases hno
    · cases hno
    · cases hno
    · cases d <;> cases hop

/-- **Missed deadlines shift no reply.**  Against a server that answers each command once, in order and
not before it has it, as far as the transport has seen, every call that returns a value returns what came
of the replies to its own commands; late replies reach nobody else, and are not reported. -/
theorem script_answers {served : List (Bytes × Value)}
    (hs : Serves served (((connected config transport : BlockingClient α).script
      (calls.map DataCall.invocation)).2.1.transport.since transport)) :
    let done := (connected config transport : BlockingClient α).script (calls.map DataCall.invocation)
    Answered calls (served.map Prod.snd) (received (done.2.1.transport.since transport)) done.1 done.2.1
      done.2.2 := by
  have hsince := (script_crosses (α := α) config transport (calls.map DataCall.invocation)).since
  dsimp only
  rw [hsince] at hs ⊢
  have hfares := fares_history config transport calls hs
  have hunderway := connected_underway (α := α) config transport
  refine ⟨fun n v hv => ?_, fun n v => gets_of_replied config transport calls hs, ?_, fun ho => ?_⟩
  · have hmem := mem_of_script hunderway hv
    have hfirst : (connected config transport : BlockingClient α).nextCall = 0 := rfl
    rw [hfirst, Nat.zero_add] at hmem
    exact gets_of_replied config transport calls hs hmem
  · intro observer failure hreport
    have hfair := hfares.fair (.reported observer failure)
    rw [history_run] at hfair
    exact hfair hreport
  · have hnow : (Journal.run ({} : Journal Nat α)
        (history config transport (calls.map DataCall.invocation))).now
          = ((connected config transport).script (calls.map DataCall.invocation)).2.1.connection := by
      rw [Journal.now_run, history_run]
    rw [← hnow] at ho ⊢
    have hopen : (Journal.run ({} : Journal Nat α)
        (history config transport (calls.map DataCall.invocation))).now.stage ≠ .closed :=
      fun hc => Connection.not_isOpen_of_closed hc ho
    obtain ⟨-, due, hdue⟩ := hfares.correlates hopen
    have hlen := hdue.length_pending
    rw [(Journal.routed_run hopen).values, history_tape,
      (orders_history config transport calls).2 ho, DataCall.commands_orders,
      List.zipIdx_map_fst] at hlen
    exact hlen

/-! ## A reply that comes late -/

/-- A course of so many steps at most. -/
def courseWithin (c : BlockingClient α) (expired : Bool) (enough : Log α → Bool) :
    Nat → Option (Course α)
  | 0 => none
  | steps + 1 =>
    match c.step expired with
    | (.error failure, d, log) => some ⟨some failure, 0, d, log, c.trail expired⟩
    | (.ok n, d, log) =>
      if enough log then some ⟨none, n, d, log, c.trail expired⟩
      else (d.courseWithin expired enough steps).map (Course.behind n log (c.trail expired))

theorem course_of_within {c : BlockingClient α} {expired : Bool} {enough : Log α → Bool} {steps : Nat}
    (h : (c.courseWithin expired enough steps).isSome) :
    c.course expired enough = (c.courseWithin expired enough steps).get h := by
  refine (Option.get_of_eq_some h ?_).symm
  induction steps generalizing c with
  | zero => cases h
  | succ steps ih =>
    rw [courseWithin] at h ⊢
    rcases hs : c.step expired with ⟨failure | n, d, log⟩
    · rw [course_error hs]
    · rw [hs] at h
      rw [course_ok hs]
      dsimp only
      cases he : enough log with
      | true => rw [if_pos rfl, if_pos rfl]
      | false =>
        simp only [he, Bool.false_eq_true, if_false, Option.isSome_map] at h
        rw [if_neg Bool.false_ne_true, if_neg Bool.false_ne_true, ih h, Option.map_some]

/-- A call has been asked of the connection. -/
def asking (c : BlockingClient α) (d : DataCall) : BlockingClient α :=
  { c with connection := (c.connection.perform (d.op c.nextCall)).1, nextCall := c.nextCall + 1 }

/-- **A call whose result is not there at once** is a course, and the script goes on behind it. -/
theorem scriptTrail_cons {c : BlockingClient α} (h : c.Underway) (d : DataCall)
    (calls : List DataCall) (hr : resultOf c.nextCall (c.connection.perform (d.op c.nextCall)).2 = none)
    (steps : Nat) (hw : ((c.asking d).courseWithin (expires c.config.commandTimeout)
      (hasResult c.nextCall) steps).isSome) :
    (Option.get _ hw).client.Underway ∧
      (c.scriptTrail ((d :: calls).map DataCall.invocation)).tape
        = (Option.get _ hw).trail.tape
          ++ ((Option.get _ hw).client.scriptTrail (calls.map DataCall.invocation)).tape := by
  have hasked := (h.perform _ (d.asks_op c.nextCall) (c.nextCall + 1)).underway
  have hclient : (c.await (c.connection.perform (d.op c.nextCall))).2.1 = (Option.get _ hw).client := by
    rw [await, after, hr, wait_none hasked, ← course_of_within hw]
    dsimp only
    split <;> rfl
  refine ⟨hclient ▸ (await_leads h _ (d.asks_op c.nextCall)).underway, ?_⟩
  have hlate (failure : Failure) : (lateTrail failure : Trail Nat α).tape = [] := by
    rw [lateTrail]
    split <;> rfl
  have hwait : ((c.asking d).waitTrail c.nextCall none).tape = (Option.get _ hw).trail.tape := by
    rw [waitTrail, ← course_of_within hw]
    dsimp only [asking]
    split
    · exact (congrArg _ (hlate _)).trans (List.append_nil _)
    · rfl
  rw [List.map_cons, scriptTrail, trail_invocation, invoke_invocation, hclient, awaitTrail, hr, ← hwait]
  rfl

def getA : Command := ⟨Utf8.encode "GET", [[97]]⟩

def getB : Command := ⟨Utf8.encode "GET", [[98]]⟩

/-- The first reply comes in two pieces, and the second call is made between them. -/
def belated : Transport where
  reads := [.data (Utf8.encode "+o"), .fault ⟨.timedOut, none⟩, .data (Utf8.encode "k\r\n:1\r\n")]

/-- The two replies. -/
def served : List (Bytes × Value) :=
  [(Utf8.encode "+ok\r\n", .bytes (Utf8.encode "ok")), (Utf8.encode ":1\r\n", .integer 1)]

theorem tape_belated : ((connected {} belated : BlockingClient Nat).scriptTrail
    ([.one getA, .one getB].map DataCall.invocation)).tape
      = [.sent getA.encode, .received (Utf8.encode "+o"), .sent getB.encode,
        .received (Utf8.encode "k\r\n:1\r\n")] := by
  obtain ⟨hfirst, htape⟩ := scriptTrail_cons (connected_underway (α := Nat) {} belated) (.one getA)
    [.one getB] rfl 3 (by decide +kernel)
  obtain ⟨-, hrest⟩ := scriptTrail_cons hfirst (.one getB) [] (by decide +kernel) 3
    (by decide +kernel)
  rw [htape, hrest]
  decide +kernel

theorem since_belated : ((connected {} belated : BlockingClient Nat).script
    ([.one getA, .one getB].map DataCall.invocation)).2.1.transport.since belated
      = [.sent getA.encode, .received (Utf8.encode "+o"), .sent getB.encode,
        .received (Utf8.encode "k\r\n:1\r\n")] :=
  (script_crosses {} belated _).since.trans tape_belated

theorem serves_belated : Serves served (((connected {} belated : BlockingClient Nat).script
    ([.one getA, .one getB].map DataCall.invocation)).2.1.transport.since belated) := by
  rw [since_belated]
  exact .of_stages (by decide +kernel) [[], [getA], [getA, getB]] (by decide +kernel)

theorem script_answers_belated :
    Serves served (((connected {} belated : BlockingClient Nat).script
        ([.one getA, .one getB].map DataCall.invocation)).2.1.transport.since belated) ∧
      let done := (connected {} belated : BlockingClient Nat).script
        ([.one getA, .one getB].map DataCall.invocation)
      Answered [.one getA, .one getB] [.bytes (Utf8.encode "ok"), .integer 1]
        (received [.sent getA.encode, .received (Utf8.encode "+o"), .sent getB.encode,
          .received (Utf8.encode "k\r\n:1\r\n")]) done.1 done.2.1 done.2.2 := by
  have hanswers := script_answers {} belated [.one getA, .one getB] serves_belated
  dsimp only at hanswers ⊢
  rw [since_belated] at hanswers
  exact ⟨serves_belated, hanswers⟩

end BlockingClient

end RespClient
