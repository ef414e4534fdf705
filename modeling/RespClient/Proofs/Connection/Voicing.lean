import RespClient.Proofs.Connection.Feeding
import RespClient.Proofs.Connection.Journal
import RespClient.Proofs.Connection.Refusal

/-!
# Proofs/Connection/Voicing — of which failures a connection speaks, and to whom

    an operation is refused     the observer, and its handler
    values are dispatched       the observer, of strays only
    the connection fails        the observer, and after it all that wait

What a connection has to complain of, but for replies that nobody waited for, it says to its observer once
(`Voiced`): the refusal that an operation meets (`voiced_perform`), and what is wrong with malformed bytes
(`voiced_feed`).  A failure that ends it is also its last word to the handlers that wait (`EndsWith`).
-/

namespace RespClient

/-- Whether the failure is that of a reply nobody waited for. -/
def Failure.isStray : Failure → Bool
  | unexpectedReply _ => true
  | _ => false

/-- Whether the server refused a subscription. -/
def Failure.isRejection : Failure → Bool
  | subscribeRejected _ _ => true
  | _ => false

theorem Failure.not_rejection_of_timeout {f : Failure} (h : f.isTimeout) : f.isRejection = false := by
  cases f <;> first | rfl | cases h

/-- What ends a connection is nothing else. -/
theorem Failure.only_fatal {f : Failure} (h : f.isFatal) :
    f.isTimeout = false ∧ f.isStray = false ∧ f.isRejection = false := by
  cases f <;> first | exact ⟨rfl, rfl, rfl⟩ | cases h

/-- **A fault of the stream** is fatal, unless the stream only says *not in time*; it is never the server's. -/
theorem Failure.ofFault_told (fault : StreamFault) (deadline : Deadline) :
    (ofFault fault deadline).isFatal = !fault.isTimeout ∧
      (ofFault fault deadline).isStray = false ∧ (ofFault fault deadline).isRejection = false := by
  rw [ofFault]
  cases fault.isTimeout with
  | true => exact ⟨rfl, rfl, rfl⟩
  | false => exact ⟨rfl, rfl, rfl⟩

variable {κ α : Type}

/-! ## Reports and complaints -/

/-- Whether an event gives a handler a failure. -/
def Event.fails : Event κ α → Bool
  | replied _ (.error _) => true
  | _ => false

/-- The failure in a result, if it is one. -/
def failureOf {τ : Type} : Except Failure τ → Option Failure
  | .ok _ => none
  | .error failure => some failure

/-- What an event tells an observer: whom, and of which failure. -/
def Event.report? : Event κ α → Option (Option String × Failure)
  | reported observer failure => some (observer, failure)
  | _ => none

/-- **The reports**, in order. -/
def reports (events : List (Event κ α)) : List (Option String × Failure) :=
  events.filterMap Event.report?

/-- **The complaints**: the reports, but for those of stray replies. -/
def complaints (events : List (Event κ α)) : List (Option String × Failure) :=
  (reports events).filter fun r => !r.2.isStray

theorem complaints_append (events more : List (Event κ α)) :
    complaints (events ++ more) = complaints events ++ complaints more := by
  rw [complaints, reports, List.filterMap_append, List.filter_append]
  rfl

/-- What is no stray is complained of as often as it is reported. -/
theorem count_complaints (events : List (Event κ α)) {observer : Option String} {failure : Failure}
    (h : failure.isStray = false) :
    (complaints events).count (observer, failure) = (reports events).count (observer, failure) :=
  List.count_filter (by rw [h]; rfl)

/-- The failure that an event brings a handler or the observer.  That a reply is a stray is a failure of the
reply only. -/
def Event.failure? : Event κ α → Option Failure
  | replied _ (.error failure) => some failure
  | reported _ failure => if failure.isStray then none else some failure
  | _ => none

/-- Events that fail no handler and are nothing to complain of bring no failure. -/
theorem Event.failure?_eq_none {es : List (Event κ α)} (hfails : ∀ e ∈ es, e.fails = false)
    (hcomplaints : complaints es = []) {e : Event κ α} (he : e ∈ es) : e.failure? = none := by
  cases e with
  | replied k result =>
    cases result with
    | ok v => rfl
    | error failure => cases hfails _ he
  | delivered listener payload => rfl
  | reported observer failure =>
    have hreport : (observer, failure) ∈ reports es := List.mem_filterMap.mpr ⟨_, he, rfl⟩
    have hstray := List.filter_eq_nil_iff.mp hcomplaints _ hreport
    rw [Bool.not_eq_true, Bool.not_eq_false'] at hstray
    exact if_pos hstray

/-- **The failure is voiced**: it is all that the log complains of, and no refusal of the server. -/
structure Voiced (observer : Option String) (failure? : Option Failure)
    (log : List (Event κ α)) : Prop where
  complaints : complaints log = failure?.toList.map (observer, ·)
  accepted : ∀ failure, failure? = some failure → failure.isRejection = false

variable {observer : Option String} {failure? : Option Failure} {log more : List (Event κ α)}

theorem voiced_nil : Voiced observer none ([] : List (Event κ α)) := ⟨rfl, nofun⟩

/-- Nothing is said before. -/
theorem Voiced.append (h : Voiced observer none log) (k : Voiced observer failure? more) :
    Voiced observer failure? (log ++ more) := by
  refine ⟨?_, k.accepted⟩
  rw [complaints_append, h.complaints, k.complaints]
  rfl

/-- Nothing is said behind. -/
theorem Voiced.then (h : Voiced observer failure? log) (k : Voiced observer none more) :
    Voiced observer failure? (log ++ more) := by
  refine ⟨?_, h.accepted⟩
  rw [complaints_append, h.complaints, k.complaints]
  exact List.append_nil _

/-- A failure that is voiced is no stray, so it was reported once. -/
theorem Voiced.count {failure : Failure} (h : Voiced observer (some failure) log) :
    (reports log).count (observer, failure) = 1 := by
  have hmem : (observer, failure) ∈ RespClient.complaints log := by
    rw [h.complaints]
    exact List.mem_singleton.mpr rfl
  have hstray : failure.isStray = false := by simpa using (List.mem_filter.mp hmem).2
  rw [← count_complaints log hstray, h.complaints]
  exact List.count_singleton_self

namespace Connection

/-! ## A value fails nobody -/

/-- A batch finishes with a failure only by one. -/
theorem record_finished {b : Batch κ} {index : Nat} {v : Value} {owner : κ}
    {result : Except Failure Value} (h : b.record index (.ok v) = .finished owner result) :
    ∃ w, result = .ok w := by
  unfold Batch.record at h
  dsimp only at h
  split at h
  · cases h
  · cases h
    exact ⟨_, rfl⟩

theorem settle_fails (c : Connection κ α) (target : Target κ) (v : Value) :
    ∀ e ∈ (c.settle target (.ok v)).2, e.fails = false := by
  unfold settle
  split
  · exact List.forall_mem_nil _
  · exact List.forall_mem_singleton.mpr rfl
  · split
    · exact List.forall_mem_nil _
    · split
      · exact List.forall_mem_nil _
      · rename_i hrecord
        obtain ⟨w, rfl⟩ := record_finished hrecord
        exact List.forall_mem_singleton.mpr rfl

theorem dispatch_fails (c : Connection κ α) (v : Value) :
    ∀ e ∈ (c.dispatch v).2, e.fails = false := by
  cases hp : c.pushed? v with
  | some push =>
    rw [dispatch_pushed hp, deliver_events]
    exact List.forall_mem_map.mpr fun _ _ => rfl
  | none =>
    rw [dispatch_reply hp, answer]
    cases c.pending with
    | nil => exact List.forall_mem_singleton.mpr rfl
    | cons p ps => exact settle_fails _ p.target v

theorem dispatchAll_fails (c : Connection κ α) (vs : List Value) :
    ∀ e ∈ (c.dispatchAll vs).2, e.fails = false := by
  induction vs generalizing c with
  | nil => exact List.forall_mem_nil _
  | cons v vs ih => exact List.forall_mem_append.mpr ⟨dispatch_fails c v, ih (c.dispatch v).1⟩

/-- Bytes that are well formed fail nobody. -/
theorem feed_fails {c : Connection κ α} (hc : c.stage ≠ .closed) {input : Bytes} {n : Nat}
    (h : (c.feed input).result = .ok n) : ∀ e ∈ (c.feed input).turn.2, e.fails = false := by
  rw [(feed_eq hc input).1]
  cases hf : c.decoder.fault? input with
  | none =>
    rw [stop, List.append_nil]
    exact dispatchAll_fails c _
  | some cause =>
    rw [(feed_ends hc input).2 cause hf] at h
    cases h

/-! ## What a connection says -/

@[simp] theorem refresh_observer (c : Connection κ α) : c.refresh.observer = c.observer := by
  rw [refresh_eq]

theorem voiced_report {c : Connection κ α} {failure : Failure} (hs : failure.isStray = false)
    (hr : failure.isRejection = false) : Voiced c.observer (some failure) [c.report failure] := by
  refine ⟨?_, fun failure' he => Option.some.inj he ▸ hr⟩
  rw [complaints, reports]
  simp [report, Event.report?, hs]

/-- Handlers are called without a word to the observer. -/
theorem reports_settle (c : Connection κ α) (target : Target κ) (result : Except Failure Value) :
    reports (c.settle target result).2 = [] := by
  unfold settle
  split
  · rfl
  · rfl
  · split
    · rfl
    · split <;> rfl

theorem reports_failAll (failure : Failure) (ps : List (Pending κ)) (c : Connection κ α) :
    reports (failAll failure ps c).2 = [] := by
  induction ps generalizing c with
  | nil => rfl
  | cons p ps ih =>
    rw [failAll, reports, List.filterMap_append]
    exact List.append_eq_nil_iff.mpr ⟨reports_settle c p.target _, ih _⟩

theorem voiced_of_reports (h : reports log = []) : Voiced observer none log := by
  refine ⟨?_, nofun⟩
  rw [complaints, h]
  rfl

/-- **A fatal failure is voiced**, once. -/
theorem voiced_fail {c : Connection κ α} (hc : c.stage ≠ .closed) {failure : Failure}
    (hf : failure.isFatal) : Voiced c.observer (some failure) (c.fail failure).2 := by
  obtain ⟨-, hstray, hrejection⟩ := Failure.only_fatal hf
  rw [fail_eq hc]
  exact (voiced_report hstray hrejection).then
    (voiced_of_reports (reports_failAll failure c.pending c))

theorem fail_observer (c : Connection κ α) (failure : Failure) :
    (c.fail failure).1.observer = c.observer := by
  obtain ⟨-, h⟩ | ⟨batches, h⟩ := ends_fail c failure <;> rw [h]
  rfl

theorem dispatch_observer (c : Connection κ α) (v : Value) :
    (c.dispatch v).1.observer = c.observer := by
  unfold dispatch
  split
  · unfold deliver
    dsimp only
    split
    · exact refresh_observer _
    · rfl
  · unfold answer
    split
    · rfl
    · rw [settle_eq, acknowledge_eq]

/-- A value is complained of by nobody: at most it is a stray. -/
theorem voiced_dispatch (c : Connection κ α) (v : Value) : Voiced observer none (c.dispatch v).2 := by
  cases hp : c.pushed? v with
  | some push =>
    rw [dispatch_pushed hp, deliver_events]
    refine voiced_of_reports ?_
    rw [reports, List.filterMap_map]
    exact List.filterMap_eq_nil_iff.mpr fun _ _ => rfl
  | none =>
    rw [dispatch_reply hp, answer]
    cases c.pending with
    | nil => exact ⟨rfl, fun _ he => by cases he⟩
    | cons p ps => exact voiced_of_reports (reports_settle _ p.target _)

theorem voiced_dispatchAll (observer : Option String) (c : Connection κ α) (vs : List Value) :
    Voiced observer none (c.dispatchAll vs).2 ∧ (c.dispatchAll vs).1.observer = c.observer := by
  induction vs generalizing c with
  | nil => exact ⟨voiced_nil, rfl⟩
  | cons v vs ih =>
    obtain ⟨hrest, hobserver⟩ := ih (c.dispatch v).1
    exact ⟨(voiced_dispatch c v).append hrest, hobserver.trans (dispatch_observer c v)⟩

/-- **Bytes that are malformed are complained of**, and they are the end. -/
theorem voiced_feed {c : Connection κ α} (hc : c.stage ≠ .closed) (input : Bytes) :
    Voiced c.observer (failureOf (c.feed input).result) (c.feed input).turn.2 ∧
      (c.feed input).turn.1.observer = c.observer ∧
        ∀ failure, (c.feed input).result = .error failure → failure.isFatal := by
  obtain ⟨hquiet, hobserver⟩ := voiced_dispatchAll c.observer c (c.decoder.values input)
  obtain ⟨hturn, hok⟩ := feed_eq hc input
  rw [hturn]
  cases hf : c.decoder.fault? input with
  | none =>
    rw [hok hf]
    exact ⟨hquiet.then voiced_nil, hobserver, fun _ he => by cases he⟩
  | some cause =>
    rw [(feed_ends hc input).2 cause hf, stop]
    generalize hd : (c.dispatchAll (c.decoder.values input)).1.reading (c.decoder.after input) = d
    have hstage : d.stage ≠ .closed := by
      rw [← hd]
      exact mt (dispatchAll_stage c _).2.mp hc
    replace hobserver : d.observer = c.observer := hd ▸ hobserver
    have hfail : Voiced c.observer (some (.protocol cause)) (d.fail (.protocol cause)).2 :=
      hobserver ▸ voiced_fail hstage rfl
    refine ⟨hquiet.append hfail, (fail_observer d _).trans hobserver, fun failure he => ?_⟩
    rw [← Except.error.inj he]
    rfl

/-! ## What an operation meets -/

/-- The failure that meets an operation says that this is not the time for it. -/
theorem exists_notNow {c : Connection κ α} {op : Op κ α} {failure : Failure}
    (h : c.denial? op = some failure) : ∃ operation, failure = c.notNow operation := by
  cases op with
  | submitBatch commands k =>
    by_cases hne : commands = []
    · subst hne
      exact ⟨_, denial?_word rfl h⟩
    · obtain ⟨before, command, after, -, -, hfirst⟩ := denial?_batch hne h
      exact ⟨_, denial?_word rfl hfirst⟩
  | beginConnect => exact ⟨_, denial?_word rfl h⟩
  | submit command k => exact ⟨_, denial?_word rfl h⟩
  | register topic persistence listener k => exact ⟨_, denial?_word rfl h⟩
  | unsubscribe hd k => exact ⟨_, denial?_word rfl h⟩
  | _ => cases h

theorem perform_observer (c : Connection κ α) {op : Op κ α} (hop : op.checked) :
    (c.perform op).1.observer = c.observer := by
  cases op with
  | beginConnect =>
    rw [perform, beginConnect]
    split <;> rfl
  | submit command k =>
    rw [perform, submit]
    split <;> rfl
  | submitBatch commands k =>
    rw [perform, submitBatch]
    dsimp only
    split
    · rfl
    · split <;> rfl
  | register topic persistence listener k =>
    rw [perform, register]
    split
    · rfl
    · exact refresh_observer _
  | unsubscribe h k =>
    rw [perform, unsubscribe]
    split
    · rfl
    · dsimp only
      split <;> exact refresh_observer _
  | _ => cases hop

/-- **What is refused is voiced**, and what is granted gives nothing to complain of. -/
theorem voiced_perform (c : Connection κ α) (op : Op κ α) (hop : op.checked) :
    Voiced c.observer (c.denial? op) (c.perform op).2 := by
  cases hd : c.denial? op with
  | some failure =>
    obtain ⟨operation, rfl⟩ := exists_notNow hd
    rw [perform_denied hd]
    have hreplies : reports (op.handler?.toList.map fun k =>
        (Event.replied k (.error (c.notNow operation)) : Event κ α)) = [] := by
      rw [reports, List.filterMap_map]
      exact List.filterMap_eq_nil_iff.mpr fun _ _ => rfl
    exact (voiced_report rfl rfl).then (voiced_of_reports hreplies)
  | none =>
    refine voiced_of_reports (List.filterMap_eq_nil_iff.mpr fun event hevent => ?_)
    obtain ⟨k, v, rfl⟩ := perform_granted hop hd event hevent
    rfl

/-! ## The last words -/

/-- **The last words** of a connection: the observer hears the failure, and all that wait get it. -/
def lastWords (observer : Option String) (waiting : List κ) (failure : Failure) : List (Event κ α) :=
  .reported observer failure :: waiting.map fun k => .replied k (.error failure)

theorem failure?_of_mem_lastWords {observer : Option String} {waiting : List κ} {failure : Failure}
    (hs : failure.isStray = false) {e : Event κ α} (he : e ∈ lastWords observer waiting failure) :
    e.failure? = some failure := by
  obtain rfl | hwaiting := List.mem_cons.mp he
  · exact if_neg (Bool.eq_false_iff.mp hs)
  · obtain ⟨k, -, rfl⟩ := List.mem_map.mp hwaiting
    rfl

/-- **A turn ends the connection with a failure**: the values that came before it are routed, and whoever
still waits behind them gets the failure. -/
structure EndsWith (c : Connection κ α) (failure : Failure) (turn : Turn κ α) : Prop where
  closed : turn.1.stage = .closed
  told : ∃ routed waiting, called routed ++ waiting = c.waiting ∧ (∀ e ∈ routed, e.failure? = none) ∧
    turn.2 = routed ++ lastWords c.observer waiting failure

theorem Accounted.endsWith_fail {c : Connection κ α} (h : c.Accounted) (hc : c.stage ≠ .closed)
    (failure : Failure) : c.EndsWith failure (c.fail failure) := by
  refine ⟨(ends_fail c failure).closed, [], c.waiting, rfl, List.forall_mem_nil _, ?_⟩
  rw [h.fail hc]
  rfl

theorem failure?_dispatchAll (c : Connection κ α) (vs : List Value) :
    ∀ e ∈ (c.dispatchAll vs).2, e.failure? = none := fun _ =>
  Event.failure?_eq_none (dispatchAll_fails c vs) (voiced_dispatchAll c.observer c vs).1.complaints

/-- **Malformed bytes** end the connection with what is wrong with them. -/
theorem Accounted.endsWith_feed {c : Connection κ α} (h : c.Accounted) (hc : c.stage ≠ .closed)
    {input : Bytes} {cause : Malformed} (hf : c.decoder.fault? input = some cause) :
    c.EndsWith (.protocol cause) (c.feed input).turn := by
  obtain ⟨hacc, hcalled⟩ := h.dispatchAll hc (c.decoder.values input)
  have hopen := mt (dispatchAll_stage c (c.decoder.values input)).2.mp hc
  have hobserver := (voiced_dispatchAll c.observer c (c.decoder.values input)).2
  rw [(feed_eq hc input).1, hf]
  refine ⟨(ends_fail _ _).closed, _, _, hcalled, failure?_dispatchAll c _, ?_⟩
  rw [Connection.stop, (hacc.reading (c.decoder.after input)).fail hopen]
  exact congrArg (fun o => _ ++ lastWords o _ _) hobserver

/-- …and others let it go on. -/
theorem feed_goesOn {c : Connection κ α} (hc : c.isOpen) {input : Bytes}
    (hf : c.decoder.fault? input = none) :
    (c.feed input).turn.1.isOpen ∧ ∀ e ∈ (c.feed input).turn.2, e.failure? = none := by
  have hstage : c.stage ≠ .closed := fun hn => not_isOpen_of_closed hn hc
  rw [(feed_eq hstage input).1, hf, stop, List.append_nil]
  exact ⟨(dispatchAll_stage c _).1.trans hc, failure?_dispatchAll c _⟩

end Connection

end RespClient
