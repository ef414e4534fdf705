import RespClient.Proofs.Shared.Chronicle

/-!
# Proofs/Shared/Heeding — what the calls of one number hear

    handle ──registered h──▸ ack h ──replied──▸ ends
      │                        ├─────expire───▸ ends, and abandons h
      └─────────lose───────────┴─────lose─────▸ ends

What is to be known of a call is an outlook: what it may wait for, and what it may give its caller, seeing
what it asks of the task on its way out (`Outlook`).  A client keeps an outlook on the calls of a number
(`Heeds`) whatever happens that is no deed of the task (`Heeds.idles`), and through the notices of a deed if
each of them fits (`Heeds.spread`).

Of a task's notices only one kind tells of handles, and it follows the request for one
(`Deed.Of.registered`); and a task that is lost has left no registration behind (`Deed.Of.lost`).
-/

namespace RespClient

variable {α : Type}

/-- **What is to be known of a call that subscribes**: what it may wait for, and what it may give its
caller with these requests in the queue. -/
structure Outlook (α : Type) where
  waits : Waiting → Prop
  gives : Except Failure Answer → List (Request α) → Prop
  fresh : waits .handle
  patient : ∀ w, waits w → w = .handle ∨ ∃ h deadline, w = .ack h deadline
  grows : ∀ result q q', q ⊆ q' → gives result q → gives result q'
  late : ∀ h deadline, waits (.ack h deadline) →
    gives (.error (.timeout .command)) [.report (.timeout .command), .abandon h]

namespace Outlook

variable (o : Outlook α)

/-- The reaction leaves the call within the outlook. -/
def Fits : Reaction α → Prop
  | .waits w => o.waits w
  | .ends result requests => o.gives result requests

/-- Whatever the call waits for, its reaction fits. -/
def Bears (f : Waiting → Reaction α) : Prop := ∀ w, o.waits w → o.Fits (f w)

/-- **The notice fits** the calls of this number, if it concerns them. -/
def Allows (id : Nat) (notice : Notice α) : Prop :=
  ∀ deadline f, notice.concern? deadline = some (id, f) → o.Bears f

theorem bears_expire : o.Bears Waiting.expire := by
  intro w hw
  obtain rfl | ⟨h, deadline, rfl⟩ := o.patient w hw
  · exact hw
  · exact o.late h deadline hw

theorem bears_lose (hlost : o.gives (.error .connectionClosed) []) : o.Bears Waiting.lose := by
  intro w hw
  obtain rfl | ⟨h, deadline, rfl⟩ := o.patient w hw
  · exact hlost
  · exact hlost

theorem bears_see (published : Lifecycle) (last : Bool) : o.Bears (Waiting.see published last) := by
  intro w hw
  obtain rfl | ⟨h, deadline, rfl⟩ := o.patient w hw
  · exact hw
  · exact hw

theorem fits_look {call : Call} (hw : o.waits call.waiting) (clock : Nat) (published : Lifecycle)
    (last : Bool) : o.Fits (call.look clock published last) := by
  rw [Call.look]
  split
  · exact o.bears_expire _ hw
  · exact o.bears_see published last _ hw

/-- **A notice fits** if what it tells a call that subscribes does. -/
theorem allows_of {id : Nat} {notice : Notice α}
    (registered : ∀ result, notice = .registered id result → ∀ deadline,
      o.Fits (Waiting.handle.registered result deadline))
    (replied : ∀ result, notice = .happened (.replied (.call id) result) → ∀ h deadline,
      o.waits (.ack h deadline) → o.Fits ((Waiting.ack h deadline).replied result)) :
    o.Allows id notice := by
  intro deadline f hf w hw
  unfold Notice.concern? at hf
  split at hf <;> cases hf
  all_goals obtain rfl | ⟨h, deadline', rfl⟩ := o.patient w hw
  · exact hw
  · exact replied _ rfl h deadline' hw
  · exact registered _ rfl deadline
  · exact hw
  · exact hw
  · exact hw

end Outlook

namespace SharedClient

/-- **The client keeps an outlook** on the calls of a number: on those under way, and on what the others
gave. -/
structure Heeds (o : Outlook α) (id : Nat) (c : SharedClient α) (effects : List (Effect α)) : Prop where
  waits : ∀ call ∈ c.calls, call.id = id → o.waits call.waiting
  ended : ∀ result, .ended id result ∈ effects → o.gives result c.queue

namespace Heeds

variable {o : Outlook α} {id : Nat} {c : SharedClient α} {effects : List (Effect α)}

/-- Another outlook on the same calls. -/
theorem change (h : Heeds o id c effects) {o' : Outlook α} {c' : SharedClient α}
    (hcalls : c'.calls = c.calls) (waits : ∀ w, o.waits w → o'.waits w)
    (gives : ∀ result, o.gives result c.queue → o'.gives result c'.queue) : Heeds o' id c' effects :=
  ⟨fun call hcall hid => waits _ (h.waits call (hcalls ▸ hcall) hid),
    fun result hr => gives result (h.ended result hr)⟩

/-! ## Calls react -/

theorem react (h : Heeds o id c effects) {f : Call → Reaction α}
    (hf : ∀ call, o.waits call.waiting → o.Fits (f call)) :
    Heeds o id (c.react f).1 (effects ++ (c.react f).2) := by
  rw [SharedClient.react, enqueue_eq]
  refine ⟨fun call hcall hid => ?_, fun result hr => ?_⟩
  · obtain ⟨old, hold, heq⟩ := List.mem_filterMap.mp hcall
    obtain ⟨w, hw, rfl⟩ := Option.map_eq_some_iff.mp heq
    have hfits := hf old (h.waits old hold hid)
    cases hρ : f old with
    | waits w' =>
      rw [hρ] at hw hfits
      cases hw
      exact hfits
    | ends result requests =>
      rw [hρ] at hw
      cases hw
  · obtain hr | hr := List.mem_append.mp hr
    · exact o.grows _ _ _ (List.subset_append_left _ _) (h.ended result hr)
    · obtain ⟨old, hold, heq⟩ := List.mem_filterMap.mp hr
      obtain ⟨result', hresult, heq⟩ := Option.map_eq_some_iff.mp heq
      injection heq with hid hsame
      subst hsame
      have hfits := hf old (h.waits old hold hid)
      cases hρ : f old with
      | waits w' =>
        rw [hρ] at hresult
        cases hresult
      | ends result'' requests =>
        rw [hρ] at hresult hfits
        cases hresult
        refine o.grows _ _ _ (fun r hr => List.mem_append_right _ ?_) hfits
        exact List.mem_flatMap.mpr ⟨old, hold, by rwa [hρ]⟩

theorem reactOne (h : Heeds o id c effects) {n : Nat} {f : Waiting → Reaction α}
    (hf : n = id → o.Bears f) : Heeds o id (c.reactOne n f).1 (effects ++ (c.reactOne n f).2) := by
  unfold SharedClient.reactOne
  split
  · rw [List.append_nil]
    exact h
  · rename_i call younger hd
    have hparts : c.calls.takeWhile (·.id != n) ++ call :: younger = c.calls := by
      rw [← hd, List.takeWhile_append_dropWhile]
    have hmem : call ∈ c.calls := hparts ▸ List.mem_append_right _ List.mem_cons_self
    have hcall : call.id = n := by
      have hhead := List.head?_dropWhile_not (·.id != n) c.calls
      rw [hd] at hhead
      simpa using hhead
    have hothers {x : Call} (hx : x ∈ c.calls.takeWhile (·.id != n) ∨ x ∈ younger) : x ∈ c.calls := by
      rw [← hparts]
      exact List.mem_append.mpr (hx.imp_right (List.mem_cons_of_mem call))
    dsimp only
    split
    · rename_i w hw
      rw [List.append_nil]
      refine ⟨fun x hx hid => ?_, h.ended⟩
      obtain hx | hx := List.mem_append.mp hx
      · exact h.waits x (hothers (.inl hx)) hid
      · obtain rfl | hx := List.mem_cons.mp hx
        · have hfits := hf hid _ (h.waits call hmem (hcall.trans hid))
          rwa [hw] at hfits
        · exact h.waits x (hothers (.inr hx)) hid
    · rename_i result requests hw
      rw [enqueue_eq]
      refine ⟨fun x hx hid => h.waits x (hothers (List.mem_append.mp hx)) hid, fun result' hr => ?_⟩
      obtain hr | hr := List.mem_append.mp hr
      · exact o.grows _ _ _ (List.subset_append_left _ _) (h.ended result' hr)
      · cases List.mem_singleton.mp hr
        have hfits := hf rfl _ (h.waits call hmem hcall)
        rw [hw] at hfits
        exact o.grows _ _ _ (List.subset_append_right _ _) hfits

theorem hear (h : Heeds o id c effects) {notice : Notice α} (hn : o.Allows id notice) :
    Heeds o id (c.hear notice).1 (effects ++ (c.hear notice).2) := by
  unfold SharedClient.hear
  split
  · rename_i n f hf
    refine h.reactOne ?_
    rintro rfl
    exact hn _ f hf
  · rw [List.append_nil]
    exact h

/-- What is noticed ends no call. -/
theorem noticed (h : Heeds o id c effects) (notice : Notice α) :
    Heeds o id c (effects ++ [.noticed notice]) := by
  refine ⟨h.waits, fun result hr => ?_⟩
  obtain hr | hr := List.mem_append.mp hr
  · exact h.ended result hr
  · cases List.mem_singleton.mp hr

/-- **Notices that fit** keep an outlook, and so does the loss of the task where it fits. -/
theorem spread (h : Heeds o id c effects) {notices : List (Notice α)}
    (hn : ∀ notice ∈ notices, o.Allows id notice)
    (hlost : c.task.running = false → o.gives (.error .connectionClosed) []) :
    Heeds o id (c.spread notices).1 (effects ++ (c.spread notices).2) := by
  induction notices generalizing c effects with
  | nil =>
    unfold SharedClient.spread
    split
    · rw [List.append_nil]
      exact h
    · rename_i hr
      exact h.react fun call hw => o.bears_lose (hlost (Bool.eq_false_iff.mpr hr)) _ hw
  | cons notice rest ih =>
    rw [List.forall_mem_cons] at hn
    have hheard := (h.noticed notice).hear hn.1
    have hrest := ih hheard hn.2 (by rwa [(c.hear_keeps notice).1])
    rw [List.append_assoc, List.append_assoc] at hrest
    exact hrest

/-! ## What is no deed -/

/-- A call begins: one that subscribes, or one of another number. -/
theorem start (h : Heeds o id c effects) {call : Call} (hcall : call.id = id → call.waiting = .handle)
    (hlost : c.task.running = false → o.gives (.error .connectionClosed) []) (request : Request α) :
    Heeds o id (c.start call request).1 (effects ++ (c.start call request).2) := by
  rw [SharedClient.start]
  split
  · rw [enqueue_eq, List.append_nil]
    refine ⟨fun x hx hid => ?_, fun result hr => ?_⟩
    · obtain hx | hx := List.mem_append.mp hx
      · exact h.waits x hx hid
      · obtain rfl := List.mem_singleton.mp hx
        exact hcall hid ▸ o.fresh
    · exact o.grows _ _ _ (List.subset_append_left _ _) (h.ended result hr)
  · rename_i hr
    refine ⟨h.waits, fun result hmem => ?_⟩
    obtain hmem | hmem := List.mem_append.mp hmem
    · exact h.ended result hmem
    · cases List.mem_singleton.mp hmem
      exact o.grows _ _ _ (List.nil_subset _) (hlost (Bool.eq_false_iff.mpr hr))

theorem ask (h : Heeds o id c effects) (request : Request α) :
    Heeds o id (c.ask request) effects := by
  rw [SharedClient.ask]
  split
  · rw [enqueue_eq]
    exact ⟨h.waits, fun result hr => o.grows _ _ _ (List.subset_append_left _ _) (h.ended result hr)⟩
  · exact h

/-- Calls and queue are as they were. -/
theorem rests (h : Heeds o id c effects) {c' : SharedClient α} (hcalls : c'.calls = c.calls)
    (hqueue : c'.queue = c.queue) : Heeds o id c' (effects ++ []) := by
  rw [List.append_nil]
  exact h.change hcalls (fun _ hw => hw) fun _ hr => hqueue ▸ hr

/-- **What is no deed of the task** keeps an outlook on the calls that subscribe. -/
theorem idles (h : Heeds o id c effects) {x : Happening α} (hd : c.deed? x = none)
    (hx : x.id? = some id → x.registers)
    (hlost : c.task.running = false → o.gives (.error .connectionClosed) []) :
    Heeds o id (c.happen x).1 (effects ++ (c.happen x).2) := by
  cases x with
  | call data n =>
    have hne : n = id → ∀ w : Waiting, w = .handle := fun hid => by
      cases hx (congrArg some hid)
    cases data with
    | one command => exact h.start (fun hid => hne hid _) hlost _
    | many commands => exact h.start (fun hid => hne hid _) hlost _
  | commandWith handler faulty command =>
    have hasked := h.ask (.command command (.callback handler faulty))
    rw [happen, commandWith]
    split
    · rw [List.append_nil]
      exact hasked
    · exact hasked.noticed _
  | subscribe n topic persistence listener => exact h.start (fun _ => rfl) hlost _
  | unsubscribe n hd' => exact h.start (fun hid => by cases hx (congrArg some hid)) hlost _
  | connect n =>
    rw [happen, connect]
    split
    · exact h.start (fun hid => by cases hx (congrArg some hid)) hlost _
    · refine ⟨h.waits, fun result hr => ?_⟩
      obtain hr | hr := List.mem_append.mp hr
      · exact h.ended result hr
      · injection List.mem_singleton.mp hr with hid _
        cases hx (congrArg some hid.symm)
  | connectTo n endpoint => exact h.start (fun hid => by cases hx (congrArg some hid)) hlost _
  | waitFor n target =>
    rw [happen, waitFor, List.append_nil]
    refine ⟨fun call hcall hid => ?_, h.ended⟩
    obtain hcall | hcall := List.mem_append.mp hcall
    · exact h.waits call hcall hid
    · obtain rfl := List.mem_singleton.mp hcall
      cases hx (congrArg some hid)
  | disconnect | observe observer =>
    rw [happen, List.append_nil]
    exact h.ask _
  | giveUp n => exact h.reactOne fun _ => o.bears_expire
  | cancel n =>
    rw [happen, cancel, List.append_nil]
    exact ⟨fun call hcall hid => h.waits call (List.mem_of_mem_filter hcall) hid, h.ended⟩
  | release | elapse _ | arrive _ | gate _ | schedule _ | reroute _ => exact h.rests rfl rfl
  | move m =>
    unfold deed? at hd
    dsimp only at hd
    rw [happen]
    split at hd
    · rename_i hm
      rw [if_pos hm]
      cases m with
      | callers => exact h.react fun call hw => o.fits_look hw _ _ _
      | rest => exact h.rests rfl rfl
      | request =>
        dsimp only at hd
        rw [Option.map_eq_none_iff, List.head?_eq_none_iff] at hd
        rw [make, serve, hd]
        exact h.rests rfl rfl
      | _ => cases hd
    · rename_i hm
      rw [if_neg hm]
      exact h.rests rfl rfl

end Heeds

end SharedClient

/-! ## What the task tells of handles -/

namespace Task

/-- **A step that tells of no handle**, and that leaves no registration behind where it loses the task. -/
structure Mute (s : Step α) : Prop where
  silent : ∀ id result, .registered id result ∉ s.2
  lost : s.1.running = false → s.1.connection.registry = .empty

theorem mute_silent {t : Task α} (ht : t.running) : Mute (t, []) :=
  ⟨fun _ _ => List.not_mem_nil, fun hr => by cases hr.symm.trans ht⟩

theorem mute_detach {t : Task α} (ht : t.running) : Mute t.detach := by
  refine ⟨fun id result hmem => ?_, fun hr => by cases hr.symm.trans ht⟩
  rw [detach] at hmem
  dsimp only at hmem
  split at hmem
  · cases List.mem_singleton.mp hmem
  · cases hmem

theorem mute_take {t : Task α} (ht : t.running) (turn : Turn Caller α) : Mute (t.take turn) := by
  rw [take]
  split
  · refine ⟨fun id result hmem => ?_, fun hr => by cases hr.symm.trans ht⟩
    obtain ⟨e, -, heq⟩ := List.mem_map.mp hmem
    cases heq
  · refine ⟨fun id result hmem => ?_, fun _ => rfl⟩
    obtain hmem | hmem := List.mem_append.mp hmem
    · obtain ⟨e, -, heq⟩ := List.mem_map.mp hmem
      cases heq
    · rw [detach] at hmem
      dsimp only at hmem
      split at hmem
      · cases List.mem_singleton.mp hmem
      · cases hmem

theorem Mute.andThen {s : Step α} (hs : Mute s) {next : Task α → Step α}
    (hnext : ∀ t, t.running → Mute (next t)) : Mute (andThen s next) := by
  rw [Task.andThen]
  split
  · rename_i hr
    have hlast := hnext s.1 hr
    refine ⟨fun id result hmem => ?_, hlast.lost⟩
    obtain hmem | hmem := List.mem_append.mp hmem
    · exact hs.silent id result hmem
    · exact hlast.silent id result hmem
  · exact hs

theorem Mute.publish {s : Step α} (hs : Mute s) : Mute (publish s) := by
  rw [Task.publish]
  split
  · exact ⟨hs.silent, hs.lost⟩
  · exact hs

theorem mute_fail {t : Task α} (ht : t.running) (failure : Failure) : Mute (t.fail failure) :=
  (mute_take ht _).andThen fun _ => mute_detach

theorem mute_shutDown {t : Task α} (ht : t.running) : Mute t.shutDown := by
  refine (mute_take ht _).andThen fun v hv => ⟨fun id result hmem => ?_, (mute_detach hv).lost⟩
  dsimp only at hmem
  split at hmem
  · obtain heq | hmem := List.mem_cons.mp hmem
    · cases heq
    · exact (mute_detach hv).silent id result hmem
  · exact (mute_detach hv).silent id result hmem

theorem mute_connect {t : Task α} (ht : t.running) (network : Network) (call : Nat)
    (endpoint : Endpoint) : Mute (t.connect network call endpoint) := by
  have hsay {s : Step α} (hs : Mute s) (result : Except Failure Unit) :
      Mute (say s (.opened call result)) :=
    hs.andThen fun v hv =>
      ⟨fun _ _ hmem => (by cases List.mem_singleton.mp hmem), fun hr => by cases hr.symm.trans hv⟩
  rw [connect]
  split
  · exact hsay (mute_take ht _) _
  · split
    · exact ⟨fun _ _ hmem => (by cases List.mem_singleton.mp hmem),
        fun hr => by cases hr.symm.trans ht⟩
    · exact hsay (mute_take ht _) _

theorem mute_received {t : Task α} (ht : t.running) (answer : Except StreamFault Bytes) :
    Mute (t.received answer) := by
  unfold received
  split
  · exact mute_fail ht _
  · refine Mute.andThen (mute_take ?_ _) fun v hv => ?_
    · exact ht
    · split
      · exact mute_silent hv
      · exact mute_detach hv
  · exact mute_fail ht _

theorem mute_wrote {t : Task α} (ht : t.running) (answer : Except StreamFault Nat) :
    Mute (t.wrote answer) := by
  unfold wrote
  split
  · exact mute_fail ht _
  · exact mute_silent ht
  · exact mute_fail ht _

theorem mute_read {t : Task α} (ht : t.running) : Mute t.read :=
  Mute.publish (mute_received (t := { t with
    window := t.window.ready, pipe := (t.pipe.read t.window.ready.room).2 }) ht _)

theorem mute_write {t : Task α} (ht : t.running) : Mute t.write :=
  Mute.publish (mute_wrote (t := { t with
    pipe := (t.pipe.write t.connection.outbound).2 }) ht _)

/-- **The end of the task** leaves no registration behind. -/
theorem mute_stop {t : Task α} (h : t.AtWork) : Mute t.stop := by
  have hshut := (mute_shutDown h.running).publish
  refine ⟨hshut.silent, fun _ => ?_⟩
  cases hr : (publish t.shutDown).1.running with
  | false => exact hshut.lost hr
  | true =>
    have hconnection : t.connection.close.1 = (publish t.shutDown).1.connection :=
      congrArg Prod.fst (h.shutDown.publish.goesOn hr).2
    have hclosed := Connection.not_isOpen_of_closed (Connection.ends_close t.connection).closed
    change (publish t.shutDown).1.connection.registry = .empty
    rw [← hconnection]
    exact ((h.tidy.perform .close).bare hclosed).registry

/-- Of all requests only one tells of a handle. -/
theorem mute_serve {t : Task α} (ht : t.running) (network : Network) {request : Request α}
    (hr : ∀ topic persistence listener call,
      request ≠ .subscribe topic persistence listener call) : Mute (t.serve network request) := by
  cases request with
  | connect call endpoint => exact mute_connect ht network call endpoint
  | subscribe topic persistence listener call => exact absurd rfl (hr _ _ _ _)
  | abandon hd | observe observer => exact mute_silent (t := { t with connection := _ }) ht
  | disconnect => exact mute_shutDown ht
  | report failure => exact mute_take ht (t.connection, [t.connection.report failure])
  | _ => exact mute_take ht _

/-- **A request for a handle is told of the handle**, or why there is none. -/
theorem told_subscribe {t : Task α} (ht : t.running) (network : Network) (topic : Topic)
    (persistence : Persistence) (listener : α) (call : Nat) :
    let s := t.handle network (.subscribe topic persistence listener call)
    (∀ id result, .registered id result ∈ s.2 → id = call ∧
      result = (t.connection.register topic persistence listener (.handler (.call call))).1) ∧
      (s.1.running = false → s.1.connection.registry = .empty) := by
  let asked := t.connection.register topic persistence listener (.handler (.call call))
  have htaken := mute_take ht asked.2
  have hstep : t.handle network (.subscribe topic persistence listener call)
      = publish (say (t.take asked.2) (.registered call asked.1)) := rfl
  rw [hstep, say, andThen]
  dsimp only
  split
  · rename_i hr
    rw [publish, if_pos hr]
    refine ⟨fun id result hmem => ?_, fun hr' => by cases hr'.symm.trans hr⟩
    obtain hmem | hmem := List.mem_append.mp hmem
    · exact absurd hmem (htaken.silent id result)
    · cases List.mem_singleton.mp hmem
      exact ⟨rfl, rfl⟩
  · rename_i hr
    rw [publish, if_neg hr]
    exact ⟨fun id result hmem => absurd hmem (htaken.silent id result), htaken.lost⟩

end Task

namespace SharedClient.Deed.Of

variable {c : SharedClient α} {d : Deed α}

/-- **A deed tells of a handle** after the request for one, and of the one that the connection gives. -/
theorem registered (h : d.Of c) (hw : c.task.AtWork) {id : Nat} {result : Except Failure Handle}
    (hmem : .registered id result ∈ d.step.2) : ∃ topic persistence listener,
      d.taken = some (.subscribe topic persistence listener id) ∧
        result = (c.task.connection.register topic persistence listener (.handler (.call id))).1 := by
  cases h with
  | read _ => exact absurd hmem ((Task.mute_read hw.running).silent id result)
  | write _ => exact absurd hmem ((Task.mute_write hw.running).silent id result)
  | stop => exact absurd hmem ((Task.mute_stop hw).silent id result)
  | @request request others _ =>
    by_cases hr : ∀ topic persistence listener call,
        request ≠ .subscribe topic persistence listener call
    · exact absurd hmem ((Task.mute_serve hw.running c.network hr).publish.silent id result)
    · push Not at hr
      obtain ⟨topic, persistence, listener, call, rfl⟩ := hr
      obtain ⟨rfl, hresult⟩ := (Task.told_subscribe hw.running c.network topic persistence listener
        call).1 id result hmem
      exact ⟨topic, persistence, listener, rfl, hresult⟩

/-- **A task that is lost** has left no registration behind. -/
theorem lost (h : d.Of c) (hw : c.task.AtWork) (hr : d.step.1.running = false) :
    d.step.1.connection.registry = .empty := by
  cases h with
  | read _ => exact (Task.mute_read hw.running).lost hr
  | write _ => exact (Task.mute_write hw.running).lost hr
  | stop => exact (Task.mute_stop hw).lost hr
  | @request request others _ =>
    by_cases hs : ∀ topic persistence listener call,
        request ≠ .subscribe topic persistence listener call
    · exact (Task.mute_serve hw.running c.network hs).publish.lost hr
    · push Not at hs
      obtain ⟨topic, persistence, listener, call, rfl⟩ := hs
      exact (Task.told_subscribe hw.running c.network topic persistence listener call).2 hr

end SharedClient.Deed.Of

end RespClient
