import RespClient.Shared.Calls
import RespClient.Proofs.Connection.Journal
import RespClient.Proofs.Connection.Life
import RespClient.Proofs.Stream.Calm

/-!
# Proofs/Shared/Course — what a task does, one thing at a time

    request          chunk        room          request
    submit           feed         written 7     close           operations of the connection
                     received     sent                          what crosses the pipe

Whatever a task takes up — a request, a chunk, room for some bytes — is one operation of its connection, or
two when it connects (`serveOps`, `readTrail`, `writeTrail`).  The task leads along it (`Leads`): while it
runs, its connection is the one the operations lead to and its notices tell their events; once it has
broken or stopped, its connection is not open, and no event is told that did not happen.
-/

namespace RespClient

/-- Where no connection is open the stage follows nobody. -/
theorem Connection.refresh_idle {κ α : Type} {c : Connection κ α} (hc : ¬ c.isOpen) : c.refresh = c := by
  rw [isOpen] at hc
  rw [refresh]
  cases hs : c.stage with
  | connected => exact absurd (by rw [hs]; rfl) hc
  | subscribed => exact absurd (by rw [hs]; rfl) hc
  | _ => rfl

/-- …and requests leave it as it is. -/
theorem Connection.perform_idle {κ α : Type} {c : Connection κ α} (hc : ¬ c.isOpen)
    (hs : c.stage ≠ .connecting) {op : Op κ α} (ha : op.asks) (hop : op ≠ .beginConnect) :
    (c.perform op).1.stage = c.stage := by
  have hclosed (operation : String) : c.closedTo? operation = some (c.notNow operation) := if_neg hc
  cases op with
  | beginConnect => exact absurd rfl hop
  | connectSucceeded =>
    rw [perform, connectSucceeded]
    exact congrArg stage (if_neg hs)
  | connectFailed failure =>
    rw [perform, connectFailed]
    exact congrArg stage (if_neg hs)
  | observe name => rfl
  | submit command k =>
    rw [perform, submit]
    split <;> rfl
  | submitBatch commands k =>
    rw [perform, submitBatch]
    dsimp only
    split
    · rfl
    · split <;> rfl
  | register topic persistence listener k =>
    rw [perform, register, hclosed]
    rfl
  | unsubscribe h k =>
    rw [perform, unsubscribe, hclosed]
    rfl
  | abandon h =>
    rw [perform, abandon]
    split
    · rfl
    · rename_i registry _
      have hidle : ¬ ({ c with registry } : Connection κ α).isOpen := hc
      simp only [hidle, Bool.false_and, if_false, Bool.false_eq_true]
      rw [refresh_idle hidle]
  | feed _ => cases ha
  | written _ => cases ha
  | fail _ => cases ha
  | close => cases ha

namespace Pipe

theorem taken_read (p : Pipe) (limit : Nat) :
    (p.read limit).2.transport.taken = p.transport.taken := p.transport.taken_read limit

/-- **A write accepts as many bytes as it says.** -/
theorem taken_write {p p' : Pipe} {offered : Bytes} {n : Nat} (h : p.write offered = (.ok n, p')) :
    p'.transport.taken = p.transport.taken ++ offered.take n := by
  rw [write] at h
  split at h
  · cases h
  · split at h
    · cases h
      rw [List.take_length]
      exact p.transport.taken_accept offered
    · rename_i room _
      cases h
      have htake : (offered.take room).length = min room offered.length := List.length_take
      rw [htake, ← List.take_eq_take_min]
      exact p.transport.taken_accept _
    · cases h
      rw [List.take_zero, List.append_nil]
    · cases h

end Pipe

variable {α : Type}

/-- The event that a notice tells, if any. -/
def Notice.event? : Notice α → Option (Event Caller α)
  | happened event => some event
  | _ => none

namespace Task

/-- The events that notices tell. -/
def events (notices : List (Notice α)) : List (Event Caller α) := notices.filterMap Notice.event?

theorem events_append (ns ns' : List (Notice α)) : events (ns ++ ns') = events ns ++ events ns' :=
  List.filterMap_append

theorem events_happened (es : List (Event Caller α)) : events (es.map .happened) = es := by
  rw [events, List.filterMap_map]
  exact List.filterMap_some

theorem events_detach (t : Task α) : events t.detach.2 = [] := by
  rw [detach]
  dsimp only
  split <;> rfl

/-! ## What is done to the connection -/

/-- **What a request does to the connection.** -/
def serveOps (t : Task α) (network : Network) : Request α → List (Op Caller α)
  | .connect _ endpoint =>
    if t.connection.stage = .unconnected then
      match openStream network endpoint t.config.connectTimeout with
      | .ok _ => [.beginConnect, .connectSucceeded]
      | .error failure => [.beginConnect, .connectFailed failure]
    else [.beginConnect]
  | .command command caller => [.submit command caller]
  | .batch commands caller => [.submitBatch commands caller]
  | .subscribe topic persistence listener call => [.register topic persistence listener (.call call)]
  | .unsubscribe h caller => [.unsubscribe h caller]
  | .abandon h => [.abandon h]
  | .report failure => [.connectFailed failure]
  | .observe observer => [.observe observer]
  | .disconnect => [.close]

def readTrail (t : Task α) : Trail Caller α :=
  match (t.pipe.read t.window.ready.room).1 with
  | .ok [] => ⟨[.fail .endOfStream], []⟩
  | .ok bytes => ⟨[.feed (t.buffer ++ bytes)], [.received bytes]⟩
  | .error fault => ⟨[.fail (.ofFault fault .command)], []⟩

def writeTrail (t : Task α) : Trail Caller α :=
  match (t.pipe.write t.connection.outbound).1 with
  | .ok 0 => ⟨[.fail (.stream ⟨.writeZero, none⟩)], []⟩
  | .ok n => ⟨[.written n], [.sent (t.connection.outbound.take n)]⟩
  | .error fault => ⟨[.fail (.ofFault fault .command)], []⟩

/-! ## A task at work -/

/-- **A task at work**: its pipe is there exactly while its connection is open, it is not between two
stages, and nothing that was read waits to be fed. -/
structure AtWork (t : Task α) : Prop where
  running : t.running
  attached : t.attached = t.connection.isOpen
  settled : t.connection.stage ≠ .connecting
  tidy : t.connection.Tidy
  buffer : t.buffer = []

/-- **One task leads to another** along a trail. -/
structure Leads (t t' : Task α) (notices : List (Notice α)) (trail : Trail Caller α) : Prop where
  goesOn : t'.running → t'.AtWork ∧ t.connection.run trail.ops = (t'.connection, events notices)
  lost : t'.running = false → ¬ t'.connection.isOpen
  told : events notices <+: (t.connection.run trail.ops).2
  tape : t.connection.tape trail.ops = trail.tape
  taken : t.connection.isOpen → t'.connection.isOpen →
    t'.pipe.transport.taken = t.pipe.transport.taken ++ sent trail.tape

/-- What others see of the stage is no matter. -/
theorem Leads.publish {t : Task α} {s : Step α} {trail : Trail Caller α}
    (h : Leads t s.1 s.2 trail) : Leads t (publish s).1 (publish s).2 trail := by
  rw [Task.publish]
  split
  · refine ⟨fun hr => ?_, h.lost, h.told, h.tape, h.taken⟩
    obtain ⟨hw, hrun⟩ := h.goesOn hr
    exact ⟨⟨hw.running, hw.attached, hw.settled, hw.tidy, hw.buffer⟩, hrun⟩
  · exact h

/-- More is said that is no event. -/
theorem Leads.say {t : Task α} {s : Step α} {trail : Trail Caller α} (h : Leads t s.1 s.2 trail)
    {notice : Notice α} (hn : notice.event? = none) :
    Leads t (say s notice).1 (say s notice).2 trail := by
  rw [Task.say, andThen]
  split
  · have hsame : events (s.2 ++ [notice]) = events s.2 := by
      rw [events_append, events, events, List.filterMap_cons_none hn]
      exact List.append_nil _
    exact ⟨fun hr => hsame ▸ h.goesOn hr, h.lost, hsame ▸ h.told, h.tape, h.taken⟩
  · exact h

/-! ## A turn of the connection -/

theorem upToBreak_prefix {es es' : List (Event Caller α)} (h : upToBreak es = some es') : es' <+: es := by
  induction es generalizing es' with
  | nil => cases h
  | cons e es ih =>
    rw [upToBreak] at h
    split at h
    · cases h
      exact ⟨es, rfl⟩
    · obtain ⟨es'', hes, rfl⟩ := Option.map_eq_some_iff.mp h
      exact (List.prefix_cons_inj e).mpr (ih hes)

theorem take_whole {u : Task α} {turn : Turn Caller α} (h : upToBreak turn.2 = none) :
    u.take turn = ({ u with connection := turn.1 }, turn.2.map .happened) := by
  rw [take, h]

/-- **A handler that breaks the task** leaves it without a connection. -/
theorem leads_broken {t u : Task α} {op : Op Caller α} {es : List (Event Caller α)}
    (h : upToBreak (t.connection.perform op).2 = some es) (next : Task α → Step α) :
    let s := andThen (u.take (t.connection.perform op)) next
    Leads t s.1 s.2 ⟨[op], t.connection.transfers op⟩ := by
  have hevents : events (es.map .happened
      ++ ({ u with connection := {}, running := false } : Task α).detach.2) = es := by
    rw [events_append, events_happened, events_detach, List.append_nil]
  rw [take, h]
  refine ⟨fun hr => absurd hr Bool.false_ne_true, fun _ => Bool.false_ne_true, ?_, ?_, ?_⟩
  · rw [Connection.run_singleton]
    exact hevents.symm ▸ upToBreak_prefix h
  · exact List.append_nil _
  · exact fun _ ho => absurd ho Bool.false_ne_true

/-- **Operations are done** as a whole. -/
theorem leads_whole {t t' : Task α} {notices : List (Notice α)} {trail : Trail Caller α}
    (hw : t'.AtWork) (hrun : t.connection.run trail.ops = (t'.connection, events notices))
    (htape : t.connection.tape trail.ops = trail.tape)
    (htaken : t.connection.isOpen → t'.connection.isOpen →
      t'.pipe.transport.taken = t.pipe.transport.taken ++ sent trail.tape) :
    Leads t t' notices trail :=
  ⟨fun _ => ⟨hw, hrun⟩, fun hr => absurd (hr.symm.trans hw.running) Bool.false_ne_true,
    hrun ▸ List.prefix_rfl, htape, htaken⟩

/-- **One operation is done**. -/
theorem leads_done {t t' : Task α} {notices : List (Notice α)} (op : Op Caller α)
    (hw : t'.AtWork) (hc : t'.connection = (t.connection.perform op).1)
    (he : events notices = (t.connection.perform op).2)
    (ht : t'.connection.isOpen →
      t'.pipe.transport.taken = t.pipe.transport.taken ++ sent (t.connection.transfers op)) :
    Leads t t' notices ⟨[op], t.connection.transfers op⟩ := by
  refine leads_whole hw ?_ (List.append_nil _) fun _ => ht
  rw [Connection.run_singleton, hc, he]

namespace AtWork

variable {t : Task α}

/-- A request leaves a task at work. -/
theorem ask (h : t.AtWork) (op : Op Caller α) (ha : op.asks) (hop : op ≠ .beginConnect) :
    ({ t with connection := (t.connection.perform op).1 } : Task α).AtWork := by
  by_cases ho : t.connection.isOpen
  · have hopen := (Connection.perform_stage t.connection ha).1 ho
    refine ⟨h.running, h.attached.trans (ho.trans hopen.symm), fun hs => ?_, h.tidy.perform op, h.buffer⟩
    rw [Connection.isOpen, hs] at hopen
    cases hopen
  · have hstage := Connection.perform_idle ho h.settled ha hop
    have hopen : (t.connection.perform op).1.isOpen = t.connection.isOpen :=
      congrArg Lifecycle.isOpen hstage
    exact ⟨h.running, h.attached.trans hopen.symm, hstage.symm ▸ h.settled, h.tidy.perform op, h.buffer⟩

/-- The conversation ends, and the pipe is let go. -/
theorem ends (h : t.AtWork) (pipe : Pipe) (window : Window) {connection : Connection Caller α}
    (hc : t.connection.Ends connection) :
    ({ t with connection, pipe, window, attached := false, buffer := [] } : Task α).AtWork := by
  have hclosed := hc.closed
  refine ⟨h.running, ?_, fun hs => ?_, h.tidy.ends hc, rfl⟩
  · exact (Bool.eq_false_iff.mpr (Connection.not_isOpen_of_closed hclosed)).symm
  · cases hclosed.symm.trans hs

/-- **A request is taken as a turn of the connection.** -/
theorem take (h : t.AtWork) (op : Op Caller α) (ha : op.asks) (hop : op ≠ .beginConnect) :
    Leads t (t.take (t.connection.perform op)).1 (t.take (t.connection.perform op)).2 ⟨[op], []⟩ := by
  have htransfers : t.connection.transfers op = [] := by cases op <;> first | rfl | cases ha
  rcases hb : upToBreak (t.connection.perform op).2 with _ | es
  · rw [take_whole hb, ← htransfers]
    refine leads_done op (h.ask op ha hop) rfl (events_happened _) fun _ => ?_
    rw [htransfers]
    exact (List.append_nil _).symm
  · have hbroken := leads_broken hb (u := t) fun t => (t, [])
    rw [htransfers, Task.take, hb] at hbroken
    rw [Task.take, hb]
    exact hbroken

/-- **The conversation ends**, and what is done next lets the pipe go. -/
theorem takeLast (h : t.AtWork) (pipe : Pipe) (window : Window) (op : Op Caller α)
    (hends : t.connection.Ends (t.connection.perform op).1) (htransfers : t.connection.transfers op = [])
    {next : Task α → Step α} (hnext : ∀ v, (next v).1 = { v with attached := false, buffer := [] } ∧
      events (next v).2 = []) :
    let s := andThen (({ t with pipe, window } : Task α).take (t.connection.perform op)) next
    Leads t s.1 s.2 ⟨[op], []⟩ := by
  rcases hb : upToBreak (t.connection.perform op).2 with _ | es
  · obtain ⟨hlast, hsilent⟩ := hnext { t with pipe, window, connection := (t.connection.perform op).1 }
    have hwork := h.ends pipe window hends
    rw [take_whole hb, andThen, if_pos h.running, ← htransfers]
    refine leads_done op (hlast ▸ hwork) (congrArg connection hlast) ?_ fun ho => ?_
    · rw [events_append, events_happened, hsilent, List.append_nil]
    · rw [hlast] at ho
      exact absurd ho (Connection.not_isOpen_of_closed hends.closed)
  · rw [← htransfers]
    exact leads_broken hb next

theorem fail (h : t.AtWork) (pipe : Pipe) (window : Window) (failure : Failure) :
    let s := ({ t with pipe, window } : Task α).fail failure
    Leads t s.1 s.2 ⟨[.fail failure], []⟩ :=
  h.takeLast pipe window (.fail failure) (Connection.ends_fail t.connection failure) rfl
    fun v => ⟨rfl, events_detach v⟩

theorem shutDown (h : t.AtWork) : Leads t t.shutDown.1 t.shutDown.2 ⟨[.close], []⟩ := by
  refine h.takeLast t.pipe t.window .close (Connection.ends_close t.connection) rfl
    fun v => ⟨rfl, ?_⟩
  dsimp only
  split
  · exact (events_append [.shutDown] _).trans (events_detach v)
  · exact events_detach v

/-! ## Each thing a task takes up -/

/-- **Connecting** leads along its operations. -/
theorem connect (h : t.AtWork) (network : Network) (call : Nat) (endpoint : Endpoint) :
    let s := t.connect network call endpoint
    Leads t s.1 s.2 ⟨t.serveOps network (.connect call endpoint), []⟩ := by
  rw [Task.connect, serveOps, Connection.beginConnect]
  by_cases hs : t.connection.stage = .unconnected
  · have hclosed : ¬ t.connection.isOpen := by
      rw [Connection.isOpen, hs]
      exact Bool.false_ne_true
    have hbegin : t.connection.perform .beginConnect
        = ({ t.connection with stage := .connecting }, []) := by
      rw [Connection.perform, Connection.beginConnect, if_pos hs]
    have htidy := h.tidy.perform .beginConnect
    rw [hbegin] at htidy
    rw [if_pos hs, if_pos hs]
    dsimp only
    rcases openStream network endpoint t.config.connectTimeout with failure | transport
    · have hrun : t.connection.run [.beginConnect, .connectFailed failure]
          = ({ t.connection with stage := .connecting } : Connection Caller α).connectFailed failure := by
        rw [Connection.run, hbegin, Connection.run, Connection.run]
        rfl
      refine Leads.say (s := t.take _) ?_ rfl
      rw [take_whole rfl]
      refine leads_whole ⟨h.running, ?_, (fun hs => by cases hs), htidy.perform (.connectFailed failure),
        h.buffer⟩ hrun rfl fun ho => absurd ho hclosed
      exact h.attached.trans (Bool.eq_false_iff.mpr hclosed)
    · have hrun : t.connection.run [.beginConnect, .connectSucceeded]
          = (({ t.connection with stage := .connecting } : Connection Caller α).connectSucceeded, []) := by
        rw [Connection.run, hbegin, Connection.run, Connection.run]
        rfl
      exact leads_whole ⟨h.running, rfl, (fun hs => by cases hs), htidy.perform .connectSucceeded,
        h.buffer⟩ hrun rfl fun ho => absurd ho hclosed
  · have hrefused : t.connection.perform .beginConnect
        = (t.connection, [t.connection.report (t.connection.notNow "connect")]) := by
      rw [Connection.perform, Connection.beginConnect, if_neg hs]
    have hleads : Leads t (t.take (t.connection.perform .beginConnect)).1
        (t.take (t.connection.perform .beginConnect)).2 ⟨[.beginConnect], []⟩ := by
      rw [take_whole (by rw [hrefused]; rfl)]
      refine leads_done .beginConnect ?_ rfl (events_happened _) fun _ => (List.append_nil _).symm
      rw [hrefused]
      exact h
    rw [hrefused] at hleads
    rw [if_neg hs, if_neg hs]
    exact hleads.say rfl

/-- **A request** leads along its operations. -/
theorem serve (h : t.AtWork) (network : Network) (request : Request α) :
    Leads t (t.serve network request).1 (t.serve network request).2
      ⟨t.serveOps network request, []⟩ := by
  cases request with
  | connect call endpoint => exact h.connect network call endpoint
  | command command caller => exact h.take (.submit command caller) rfl nofun
  | batch commands caller => exact h.take (.submitBatch commands caller) rfl nofun
  | subscribe topic persistence listener call =>
    exact (h.take (.register topic persistence listener (.call call)) rfl nofun).say rfl
  | unsubscribe hd caller => exact h.take (.unsubscribe hd caller) rfl nofun
  | abandon hd =>
    exact leads_done (.abandon hd) (h.ask (.abandon hd) rfl nofun) rfl rfl
      fun _ => (List.append_nil _).symm
  | report failure =>
    have hreport : t.connection.perform (.connectFailed failure)
        = (t.connection, [t.connection.report failure]) := by
      rw [Connection.perform, Connection.connectFailed, if_neg h.settled]
    have hleads := h.take (.connectFailed failure) rfl fun hop => by cases hop
    rwa [hreport] at hleads
  | observe observer =>
    exact leads_done (.observe observer) (h.ask (.observe observer) rfl fun hop => by cases hop) rfl rfl
      fun _ => (List.append_nil _).symm
  | disconnect => exact h.shutDown

theorem handle (h : t.AtWork) (network : Network) (request : Request α) :
    Leads t (t.handle network request).1 (t.handle network request).2
      ⟨t.serveOps network request, []⟩ := (h.serve network request).publish

/-- **The end of the task** leads along the end of its connection. -/
theorem stop (h : t.AtWork) : Leads t t.stop.1 t.stop.2 ⟨[.close], []⟩ := by
  have hleads := h.shutDown.publish
  have hnot : ¬ (Task.publish t.shutDown).1.connection.isOpen := by
    cases hr : (Task.publish t.shutDown).1.running with
    | false => exact hleads.lost hr
    | true =>
      have hconnection : t.connection.close.1 = (Task.publish t.shutDown).1.connection :=
        congrArg Prod.fst (hleads.goesOn hr).2
      rw [← hconnection]
      exact Connection.not_isOpen_of_closed (Connection.ends_close t.connection).closed
  exact ⟨fun hr => absurd hr Bool.false_ne_true, fun _ => hnot, hleads.told, rfl,
    fun _ ho => absurd ho hnot⟩

/-- **A write** leads along its trail. -/
theorem write (h : t.AtWork) : Leads t t.write.1 t.write.2 t.writeTrail := by
  rw [Task.write]
  refine Leads.publish ?_
  rw [writeTrail]
  rcases hw : t.pipe.write t.connection.outbound with ⟨fault | n, pipe⟩
  · exact h.fail pipe t.window _
  · have ht := Pipe.taken_write hw
    cases n with
    | zero => exact h.fail pipe t.window _
    | succ n =>
      refine leads_done (.written (n + 1)) ⟨h.running, h.attached, h.settled, h.tidy.written _,
        h.buffer⟩ rfl rfl fun _ => ht.trans ?_
      exact congrArg _ (List.append_nil _).symm

/-- **A read** leads along its trail. -/
theorem read (h : t.AtWork) (ha : t.attached) : Leads t t.read.1 t.read.2 t.readTrail := by
  rw [Task.read]
  refine Leads.publish ?_
  have ht := t.pipe.taken_read t.window.ready.room
  rw [readTrail]
  rcases hr : t.pipe.read t.window.ready.room with ⟨fault | bytes, pipe⟩
  · exact h.fail pipe t.window.ready _
  · rw [hr] at ht
    cases bytes with
    | nil => exact h.fail pipe t.window.ready _
    | cons b bytes =>
      have hopen : t.connection.isOpen := h.attached ▸ ha
      have hstage : t.connection.stage ≠ .closed := fun hn => Connection.not_isOpen_of_closed hn hopen
      have hinput :
          t.connection.transfers (.feed (t.buffer ++ b :: bytes)) = [.received (b :: bytes)] := by
        rw [h.buffer]
        rfl
      have hresult := Connection.feed_result hopen (t.buffer ++ b :: bytes)
      have hrest := (Connection.feed_ends hstage (t.buffer ++ b :: bytes)).1
      have htidy := h.tidy.perform (.feed (t.buffer ++ b :: bytes))
      unfold Task.received
      dsimp only
      rcases hb : upToBreak (t.connection.perform (.feed (t.buffer ++ b :: bytes))).2 with _ | es
      · rw [Connection.perform] at hb htidy
        rw [take_whole hb, andThen, if_pos h.running, ← hinput]
        rcases hf : (t.connection.feed (t.buffer ++ b :: bytes)).result with failure | n
        · rw [hf] at hresult
          have hclosed := Connection.not_isOpen_of_closed hresult
          refine leads_done _ ⟨h.running, (Bool.eq_false_iff.mpr hclosed).symm, ?_, htidy, rfl⟩ rfl ?_
            fun ho => absurd ho hclosed
          · exact fun hs => by cases hresult.symm.trans hs
          · exact (events_append _ _).trans
              ((congrArg₂ _ (events_happened _) (events_detach _)).trans (List.append_nil _))
        · rw [hf] at hresult
          refine leads_done _ ⟨h.running, ha.trans hresult.symm, ?_, htidy, hrest⟩ rfl ?_
            fun _ => ht.trans (hinput ▸ (List.append_nil _).symm)
          · intro hs
            rw [Connection.isOpen, hs] at hresult
            cases hresult
          · exact (events_append _ _).trans
              ((congrArg₂ _ (events_happened _) rfl).trans (List.append_nil _))
      · rw [← hinput]
        exact leads_broken hb _

end AtWork

end Task

end RespClient
