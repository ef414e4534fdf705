import RespClient.Proofs.Blocking.Complaints
import RespClient.Proofs.Shared.Docket

/-!
# Proofs/Shared/Connecting — the same attempt to connect, made by either client

    the text        the stage        the stream          both clients
    no address      any              —                   fail; only the blocking one reports it
    an address      not the first    —                   are refused, and report it
    an address      unconnected      open                are connected
    an address      unconnected      a fault             fail with it, and report it

What an attempt shows is its result, the stage it leaves and what the observer hears (`Attempt`).  Once the text
is an address, each client makes the same of what its opening a stream comes to (`Attempt.of`), and both come to
the same (`openStream_cases`) but in one case: a stream that says *not in time* where a blocking client sets no
deadline — at the socket of a path, or while options are set — is at fault for a blocking client and late for a
shared one (`Dial.isMistimed`).  So the attempts differ exactly there, and where the text is no address
(`connects_alike_iff`).
-/

namespace RespClient

variable {α β : Type}

/-! ## What an attempt shows -/

/-- **What an attempt to connect shows**: the results its call gets, the stage it leaves, and what the observer
hears. -/
structure Attempt where
  results : List (Except Failure Answer)
  stage : Lifecycle
  reports : List (Option String × Failure)
deriving DecidableEq

/-- **The attempt, by what opening a stream comes to.**  Only a connection that was never open begins one. -/
def Attempt.of {τ : Type} (stage : Lifecycle) (observer : Option String)
    (opened : Except Failure τ) : Attempt :=
  if stage = .unconnected then
    match opened with
    | .ok _ => ⟨[.ok .done], .connected, []⟩
    | .error failure => ⟨[.error failure], .unconnected, [(observer, failure)]⟩
  else
    let failure : Failure := .invalidState "connect" stage
    ⟨[.error failure], stage, [(observer, failure)]⟩

/-- The attempt of a blocking client. -/
def BlockingClient.attempt (c : BlockingClient α) (network : Network) : Attempt :=
  let done := c.connect network
  ⟨[done.1.map fun _ => .done], done.2.1.connection.stage, reports done.2.2⟩

/-- The notice in an effect, if it is one. -/
def Effect.notice? : Effect α → Option (Notice α)
  | noticed notice => some notice
  | ended _ _ => none

/-- The result that an effect brings the call of the number. -/
def Effect.resultFor? (id : Nat) : Effect α → Option (Except Failure Answer)
  | noticed _ => none
  | ended call result => if call = id then some result else none

/-- **The attempt of a shared client**: a call begins, and the task takes its request, if there is one. -/
def SharedClient.attempt (c : SharedClient α) (id : Nat) : Attempt :=
  let begun := c.happen (.connect id)
  let taken := begun.1.happen (.move .request)
  let effects := begun.2 ++ taken.2
  ⟨effects.filterMap (Effect.resultFor? id), taken.1.stage,
    reports (Task.events (effects.filterMap Effect.notice?))⟩

/-! ## A blocking client -/

namespace BlockingClient

variable (c : BlockingClient α) (network : Network)

theorem attempt_of_error {failure : Failure} (h : Endpoint.parse c.config.endpoint = .error failure) :
    c.attempt network = ⟨[.error failure], c.connection.stage, [(c.connection.observer, failure)]⟩ := by
  rw [attempt, connect, h]
  rfl

theorem attempt_of_ok {endpoint : Endpoint} (h : Endpoint.parse c.config.endpoint = .ok endpoint) :
    c.attempt network = .of c.connection.stage c.connection.observer
      (openStream network endpoint c.config.connectTimeout) := by
  rw [attempt, connect, h]
  dsimp only
  rw [connectTo, Connection.beginConnect]
  unfold Attempt.of
  by_cases hs : c.connection.stage = .unconnected
  · rw [if_pos hs, if_pos hs]
    cases openStream network endpoint c.config.connectTimeout with
    | ok transport => rfl
    | error failure => rfl
  · rw [if_neg hs, if_neg hs]
    rfl

end BlockingClient

/-! ## A shared client -/

/-- **What a task says of an attempt**: what the connection has to say, and then the result. -/
theorem Task.connect_attempt {t : Task α} (ht : t.running) (network : Network) (call : Nat)
    (endpoint : Endpoint) :
    ∃ result events, (t.connect network call endpoint).2 = events.map .happened ++ [.opened call result] ∧
      (t.connect network call endpoint).1.running ∧ (∀ e ∈ events, e.called? = none) ∧
      Attempt.of t.connection.stage t.connection.observer
          (openStream network endpoint t.config.connectTimeout)
        = ⟨[result.map fun _ => .done], (t.connect network call endpoint).1.connection.stage,
          reports events⟩ := by
  have hsay {turn : Turn Caller α} (hturn : upToBreak turn.2 = none) (result : Except Failure Unit) :
      say (t.take turn) (.opened call result)
        = ({ t with connection := turn.1 }, turn.2.map .happened ++ [.opened call result]) := by
    rw [take_whole hturn, say, andThen, if_pos ht]
  unfold Attempt.of
  by_cases hs : t.connection.stage = .unconnected
  · rw [if_pos hs, connect, Connection.beginConnect, if_pos hs]
    dsimp only
    cases openStream network endpoint t.config.connectTimeout with
    | ok transport => exact ⟨.ok (), [], rfl, ht, List.forall_mem_nil _, rfl⟩
    | error failure =>
      dsimp only
      rw [hsay rfl]
      exact ⟨.error failure, _, rfl, ht, List.forall_mem_singleton.mpr rfl, rfl⟩
  · rw [if_neg hs, connect, Connection.beginConnect, if_neg hs]
    dsimp only
    rw [hsay rfl]
    exact ⟨_, _, rfl, ht, List.forall_mem_singleton.mpr rfl, rfl⟩

namespace SharedClient

/-- **A task with nothing to do but the call of the number**, and its callers see where it stands. -/
structure Idle (c : SharedClient α) (id : Nat) : Prop where
  running : c.task.running
  queue : c.queue = []
  fresh : ∀ call ∈ c.calls, call.id ≠ id
  published : c.task.published = c.task.connection.stage

variable {c : SharedClient α} {id : Nat}

theorem attempt_of_error {failure : Failure} (h : c.Idle id)
    (hp : Endpoint.parse c.task.config.endpoint = .error failure) :
    c.attempt id = ⟨[.error failure], c.task.connection.stage, []⟩ := by
  have hbegun : c.happen (.connect id) = (c, [.ended id (.error failure)]) := by
    rw [happen, connect, config, hp]
  have htaken : c.happen (.move .request) = (c, []) := by
    rw [happen, allows, if_pos h.running, make, serve, h.queue]
  rw [attempt, hbegun]
  dsimp only
  rw [htaken, stage, h.published]
  simp [Effect.resultFor?, Effect.notice?, Task.events, reports]

/-- What calls no handler is heard by no call. -/
theorem spread_told (c : SharedClient α) {events : List (Event Caller α)}
    (hquiet : ∀ e ∈ events, e.called? = none) (rest : List (Notice α)) :
    c.spread (events.map .happened ++ rest)
      = ((c.spread rest).1, events.map (.noticed ∘ .happened) ++ (c.spread rest).2) := by
  induction events with
  | nil => rfl
  | cons e events ih =>
    rw [List.forall_mem_cons] at hquiet
    have hnobody : (Notice.happened e).concern? c.deadline = none := by
      cases e with
      | replied k result => cases hquiet.1
      | delivered listener payload => rfl
      | reported observer failure => rfl
    rw [List.map_cons, List.cons_append, spread, hear, hnobody]
    dsimp only
    rw [ih hquiet.2]
    rfl

/-- **The youngest call hears that its stream is open, or is not**, and ends. -/
theorem spread_opened {older : List Call} (hcalls : c.calls = older ++ [⟨id, .opening⟩])
    (running : c.task.running) (hfresh : ∀ call ∈ older, call.id ≠ id) (result : Except Failure Unit) :
    c.spread [.opened id result] = ({ c with calls := older },
      [.noticed (.opened id result), .ended id (result.map fun _ => .done)]) := by
  have hother : ∀ call ∈ older, (call.id != id) = true := fun call hcall =>
    bne_iff_ne.mpr (hfresh call hcall)
  have hdrop : c.calls.dropWhile (·.id != id) = [⟨id, .opening⟩] := by
    rw [hcalls, List.dropWhile_append_of_pos hother]
    simp
  have htake : c.calls.takeWhile (·.id != id) = older := by
    rw [hcalls, List.takeWhile_append_of_pos hother]
    simp
  have hheard : c.hear (.opened id result)
      = ({ c with calls := older }, [.ended id (result.map fun _ => .done)]) := by
    rw [hear, Notice.concern?]
    dsimp only
    rw [reactOne, hdrop, htake]
    simp [Waiting.opened, enqueue]
  rw [spread, hheard, spread, if_pos running]
  rfl

/-- **The task connects**, as the attempt says. -/
theorem attempt_of_ok (h : c.Idle id) {endpoint : Endpoint}
    (hp : Endpoint.parse c.task.config.endpoint = .ok endpoint) :
    c.attempt id = .of c.task.connection.stage c.task.connection.observer
      (Task.openStream c.network endpoint c.task.config.connectTimeout) := by
  have hbegun : c.happen (.connect id)
      = ({ c with calls := c.calls ++ [⟨id, .opening⟩], queue := [.connect id endpoint] }, []) := by
    rw [happen, connect, config, hp]
    dsimp only
    rw [connectTo, start, if_pos h.running, enqueue_eq, h.queue]
    rfl
  obtain ⟨result, events, htold, hruns, hquiet, hattempt⟩ :=
    Task.connect_attempt h.running c.network id endpoint
  have htaken : ({ c with calls := c.calls ++ [⟨id, .opening⟩], queue := [.connect id endpoint] } :
        SharedClient α).happen (.move .request)
      = ({ c with calls := c.calls ++ [⟨id, .opening⟩], queue := [] } :
        SharedClient α).engage (·.handle c.network (.connect id endpoint)) := if_pos h.running
  rw [attempt, hbegun, hattempt]
  dsimp only
  rw [htaken, engage, Task.handle, Task.serve, Task.publish, if_pos hruns]
  dsimp only
  rw [htold, spread_told _ hquiet, spread_opened rfl hruns h.fresh]
  have hresults (es : List (Event Caller α)) :
      (es.map (Effect.noticed ∘ Notice.happened)).filterMap (Effect.resultFor? id) = [] := by
    rw [List.filterMap_map]
    exact List.filterMap_eq_nil_iff.mpr fun _ _ => rfl
  have hevents (es : List (Event Caller α)) :
      Task.events ((es.map (Effect.noticed ∘ Notice.happened)).filterMap Effect.notice?) = es := by
    rw [List.filterMap_map, Task.events, List.filterMap_filterMap]
    exact List.filterMap_some
  have hresult : [.noticed (.opened id result), .ended id (result.map fun _ => .done)].filterMap
      (Effect.resultFor? (α := α) id) = [result.map fun _ => .done] :=
    congrArg Option.toList (if_pos rfl)
  rw [List.nil_append, List.filterMap_append, List.filterMap_append, hresults, hresult,
    Task.events_append, hevents]
  exact congrArg (fun told => Attempt.mk _ _ (reports told)) (List.append_nil events)

end SharedClient

/-! ## Opening a stream -/

namespace Dial

/-- Whether the other side has to answer, so that a deadline may be over first. -/
def needsTime : Dial → Bool
  | rejected _ => false
  | refused _ | accepted .. => true

/-- **A stream says *not in time* where a blocking client sets no deadline**: at the socket of a path, or while
options are set. -/
def isMistimed : Dial → Endpoint → Bool
  | rejected fault, .socket _ | refused fault, .socket _ => fault.isTimeout
  | accepted _ (some fault), .network _ => fault.isTimeout
  | _, _ => false

end Dial

/-- **Opening a stream comes to the same for both clients**, or what is at fault for one is late for the
other. -/
theorem openStream_cases {network network' : Network} {endpoint : Endpoint} {d : Dial}
    (hd : network.reach (.ofEndpoint endpoint) = d) (hd' : network'.reach (.ofEndpointOrName endpoint) = d)
    {deadline : Option Duration} (htime : d.needsTime → deadline.any Duration.isZero = false) :
    (d.isMistimed endpoint = false ∧
      BlockingClient.openStream network endpoint deadline = Task.openStream network' endpoint deadline) ∨
    (d.isMistimed endpoint ∧ ∃ fault,
      BlockingClient.openStream network endpoint deadline = .error (.stream fault) ∧
      Task.openStream network' endpoint deadline = .error (.timeout .connect)) := by
  have hfault (fault : StreamFault) :
      (fault.isTimeout = false ∧
        (.error (.stream fault) : Except Failure Transport) = .error (.ofFault fault .connect)) ∨
      (fault.isTimeout ∧ ∃ fault', (.error (.stream fault) : Except Failure Transport)
        = .error (.stream fault') ∧
        (.error (.ofFault fault .connect) : Except Failure Transport) = .error (.timeout .connect)) := by
    rw [Failure.ofFault]
    cases fault.isTimeout with
    | false => exact .inl ⟨rfl, rfl⟩
    | true => exact .inr ⟨rfl, fault, rfl, rfl⟩
  unfold BlockingClient.openStream Task.openStream
  rw [hd, hd']
  cases d with
  | rejected fault =>
    cases endpoint with
    | network address => exact .inl ⟨rfl, rfl⟩
    | socket path => exact hfault fault
  | refused fault =>
    dsimp only
    rw [BlockingClient.expires, htime rfl]
    cases endpoint with
    | network address => exact .inl ⟨rfl, rfl⟩
    | socket path => exact hfault fault
  | accepted transport optionFault? =>
    dsimp only
    rw [BlockingClient.expires, htime rfl]
    cases endpoint with
    | socket path => cases optionFault? <;> exact .inl ⟨rfl, rfl⟩
    | network address =>
      cases optionFault? with
      | none => exact .inl ⟨rfl, rfl⟩
      | some fault => exact hfault fault

/-! ## Two clients at the same point -/

namespace SharedClient

/-- **Two clients about to make the same attempt**: one configuration, one stage, one observer, and opening the
stream comes to the same for both, with no deadline over first. -/
structure Twin (s : SharedClient α) (c : BlockingClient β) (network : Network) (d : Dial) : Prop where
  config : c.config = s.task.config
  stage : c.connection.stage = s.task.connection.stage
  observer : c.connection.observer = s.task.connection.observer
  reached : ∀ endpoint, Endpoint.parse s.task.config.endpoint = .ok endpoint →
    network.reach (.ofEndpoint endpoint) = d ∧ s.network.reach (.ofEndpointOrName endpoint) = d
  inTime : d.needsTime → s.task.config.connectTimeout.any Duration.isZero = false

/-- **What comes of the attempt is said in two ways**: at a stream that is mistimed. -/
def Misread (s : SharedClient α) (d : Dial) : Prop :=
  s.task.connection.stage = .unconnected ∧
    ∃ endpoint, Endpoint.parse s.task.config.endpoint = .ok endpoint ∧ d.isMistimed endpoint

variable {s : SharedClient α} {c : BlockingClient β} {network : Network} {d : Dial} {id : Nat}

/-- **The same attempt, made by either client**: both leave the same stage.  They get the same result unless the
stream is misread, and tell the observer the same unless it is or the text is no address. -/
theorem Twin.attempts (h : s.Twin c network d) (hidle : s.Idle id) :
    (c.attempt network).stage = (s.attempt id).stage ∧
    ((c.attempt network).results = (s.attempt id).results ↔ ¬ s.Misread d) ∧
    ((c.attempt network).reports = (s.attempt id).reports ↔
      (∃ endpoint, Endpoint.parse s.task.config.endpoint = .ok endpoint) ∧ ¬ s.Misread d) := by
  cases hp : Endpoint.parse s.task.config.endpoint with
  | error failure =>
    have hunread : ¬ s.Misread d := fun ⟨_, endpoint, hok, _⟩ => by cases hp.symm.trans hok
    rw [c.attempt_of_error network (h.config.symm ▸ hp), attempt_of_error hidle hp, h.stage]
    exact ⟨rfl, iff_of_true rfl hunread, iff_of_false (by simp) (by simp)⟩
  | ok endpoint =>
    have hmisread : s.Misread d ↔ s.task.connection.stage = .unconnected ∧ d.isMistimed endpoint := by
      rw [Misread]
      exact and_congr_right fun _ =>
        ⟨fun ⟨e, hok, hd⟩ => (Except.ok.inj (hp.symm.trans hok)) ▸ hd, fun hd => ⟨endpoint, hp, hd⟩⟩
    obtain ⟨hreach, hreach'⟩ := h.reached endpoint hp
    rw [c.attempt_of_ok network (h.config.symm ▸ hp), attempt_of_ok hidle hp, h.config, h.stage,
      h.observer, hmisread]
    unfold Attempt.of
    by_cases hs : s.task.connection.stage = .unconnected
    · rw [if_pos hs, if_pos hs]
      obtain ⟨hgood, hsame⟩ | ⟨hbad, fault, hfault, hlate⟩ := openStream_cases hreach hreach' h.inTime
      · rw [hsame, hgood]
        exact ⟨rfl, by simp, by simp⟩
      · rw [hfault, hlate]
        exact ⟨rfl, iff_of_false (by simp) (by simp [hs, hbad]), iff_of_false (by simp) (by simp [hs, hbad])⟩
    · rw [if_neg hs, if_neg hs]
      exact ⟨rfl, by simp [hs], by simp [hs]⟩

end SharedClient

/-! ## The statement -/

namespace Chronicle

/-- **Both clients connect alike, but for two cases, where their dials come to the same.**  Whatever has happened
to a shared client that runs and has nothing queued, a blocking client at the same point leaves the same stage.
They get the same result unless the stream is misread, and tell the observer the same unless it is or the text is
no address.

Over one network the dials come to the same unless the endpoint is a path that begins with NUL: one client has no
such path (`Site.ofEndpoint`), and the other takes the rest for a name (`Site.ofEndpointOrName`). -/
theorem connects_alike_iff (b : Beginning) (xs : List (Happening α)) (c : BlockingClient β)
    (network : Network) (d : Dial) (id : Nat) :
    let s := ((begin b : Chronicle α).run xs).client
    s.task.running → s.queue = [] → (∀ call ∈ s.calls, call.id ≠ id) → s.Twin c network d →
      (c.attempt network).stage = (s.attempt id).stage ∧
      ((c.attempt network).results = (s.attempt id).results ↔ ¬ s.Misread d) ∧
      ((c.attempt network).reports = (s.attempt id).reports ↔
        (∃ endpoint, Endpoint.parse s.task.config.endpoint = .ok endpoint) ∧ ¬ s.Misread d) := by
  intro s hrunning hqueue hfresh htwin
  have hpublished := ((docket_begin (α := α) b).run (onWire_begin b) xs).whole (.inl hrunning)
  exact htwin.attempts ⟨hrunning, hqueue, hfresh, hpublished.2.1⟩

/-- A network in which nobody listens. -/
def deserted : Network := ⟨fun _ => .refused ⟨.connectionRefused, none⟩⟩

/-- An observer is installed, and that is all. -/
def watched : List (Happening Nat) := [.observe (some "observer"), .move .request]

/-- Where nobody listens both clients are refused, and both say so. -/
theorem connects_alike_deserted :
    let config : Config := { endpoint := "127.0.0.1:1" }
    let c : BlockingClient Nat := (BlockingClient.new config).observe (some "observer")
    let s := ((begin (.unconnected config deserted .plain)).run watched).client
    (c.attempt deserted).stage = (s.attempt 0).stage ∧
      (c.attempt deserted).results = (s.attempt 0).results ∧
      (c.attempt deserted).reports = (s.attempt 0).reports := by
  intro config c s
  have hparse : Endpoint.parse config.endpoint = .ok (.network ⟨.v4 [127, 0, 0, 1], 1⟩) := by
    decide +kernel
  have hconfig : s.task.config = config := rfl
  have htwin : s.Twin c deserted (.refused ⟨.connectionRefused, none⟩) := by
    refine ⟨rfl, rfl, rfl, fun endpoint he => ?_, fun _ => rfl⟩
    rw [hconfig, hparse] at he
    cases he
    exact ⟨rfl, rfl⟩
  have hread : ¬ s.Misread (.refused ⟨.connectionRefused, none⟩) := by
    rintro ⟨-, endpoint, he, hmistimed⟩
    rw [hconfig, hparse] at he
    cases he
    cases hmistimed
  obtain ⟨hstage, hresults, hreports⟩ := connects_alike_iff (.unconnected config deserted .plain)
    watched c deserted (.refused ⟨.connectionRefused, none⟩) 0 rfl rfl nofun htwin
  exact ⟨hstage, hresults.mpr hread, hreports.mpr ⟨⟨_, hparse⟩, hread⟩⟩

/-- **An endpoint that is no address is not reported by a shared client**, and is by a blocking one. -/
theorem not_connects_alike_nowhere :
    let config : Config := { endpoint := "nowhere" }
    let c : BlockingClient Nat := (BlockingClient.new config).observe (some "observer")
    let s := ((begin (.unconnected config deserted .plain)).run watched).client
    s.Twin c deserted (.refused ⟨.connectionRefused, none⟩) ∧
      (c.attempt deserted).results = (s.attempt 0).results ∧
      (c.attempt deserted).reports = [(some "observer", .invalidAddress "nowhere")] ∧
      (s.attempt 0).reports = [] := by
  intro config c s
  have hparse : Endpoint.parse config.endpoint = .error (.invalidAddress "nowhere") := by decide +kernel
  refine ⟨⟨rfl, rfl, rfl, fun endpoint he => ?_, fun _ => rfl⟩, ?_⟩
  · cases hparse.symm.trans he
  · decide +kernel

end Chronicle

end RespClient
