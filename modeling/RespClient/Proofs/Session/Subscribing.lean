import RespClient.Proofs.Session.Parting
import RespClient.Proofs.Connection.Stretch

/-!
# Proofs/Session/Subscribing — what becomes of a subscription

    accepted    …  SUBSCRIBE t  …  …  UNSUBSCRIBE t  …
                   │ for k, of h      └ when the last registration of t went
    answered    …  ack  …               unless a refusal took it, or the end

A subscription that was asked for is followed through a run (`Ledger.Attends`): its `SUBSCRIBE` is the one
command accepted for its handler; what the handler gets is the answer to that command, and an error takes
the registration with it; and the topic stays in the registry until the server is told of its end, a
subscription to it is refused or the connection closes.  Every step of others keeps this
(`Attends.next`), so every run does (`Attends.run`).
-/

namespace RespClient

variable {κ α : Type}

/-- **The command that asks for a subscription**, with its entry: the handle's, for a handler. -/
def Accepted.asking (h : Handle) (k : κ) : Accepted κ :=
  ⟨h.topic.subscribe, ⟨.handler k, .subscribeAck h⟩, some k⟩

/-- The command tells the server that the subscription to a topic ends. -/
def Accepted.Ends (a : Accepted κ) (t : Topic) : Prop :=
  a.command = t.unsubscribe ∧ a.entry.expects = .unsubscribeAck

namespace Ledger

/-- A subscription to the topic was answered by an error. -/
def Refused (l : Ledger κ α) (t : Topic) : Prop :=
  ∃ p ∈ l.answered, ∃ h, p.1.expects = .subscribeAck h ∧ h.topic = t ∧ p.2.isError

/-- **The server was told that a subscription ends**, after it was asked for it. -/
def Told (l : Ledger κ α) (h : Handle) (k : κ) : Prop :=
  ∃ before between last after,
    l.accepted = before ++ .asking h k :: (between ++ last :: after) ∧ last.Ends h.topic

/-- **A subscription that was asked for**, with the events up to now. -/
structure Attends (h : Handle) (k : κ) (l : Ledger κ α) (events : List (Event κ α)) : Prop where
  tidy : l.now.Tidy
  given : h.id < l.now.nextHandle
  /-- Nothing else is due to its handler. -/
  sole : l.now.stage ≠ .closed → ∃ due, l.now.Owes due ∧
    ∀ d ∈ due, d.order.handler? = some k → d.order = .subscribe h k
  /-- Its topic went with an `UNSUBSCRIBE`, unless it was refused or the connection closed. -/
  asked : ∃ before more, l.accepted = before ++ .asking h k :: more ∧
    (∀ a ∈ before ++ more, a.handler? ≠ some k) ∧
      (l.now.registry.contains h.topic ∨ l.now.stage = .closed ∨ l.Refused h.topic ∨
        ∃ a ∈ more, a.Ends h.topic)
  /-- What the handler got is the answer, and an error has taken the registration. -/
  answered : ∀ v, .replied k (.ok v) ∈ events →
    ((Accepted.asking h k).entry, v) ∈ l.answered ∧ (v.isError → ¬ l.now.registry.Lives h)

namespace Attends

variable {h : Handle} {k : κ} {l : Ledger κ α} {events : List (Event κ α)}

/-! ## What is known of it -/

/-- **It is the only one of its handler.** -/
theorem only (hl : l.Attends h k events) {h' : Handle} (ha : .asking h' k ∈ l.accepted) : h' = h := by
  obtain ⟨before, more, hacc, hothers, -⟩ := hl.asked
  rw [hacc] at ha
  have hcases : Accepted.asking h' k = .asking h k ∨ .asking h' k ∈ before ++ more := by
    obtain ha | ha := List.mem_append.mp ha
    · exact .inr (List.mem_append_left _ ha)
    · exact (List.mem_cons.mp ha).imp_right (List.mem_append_right _)
  obtain heq | hmem := hcases
  · injection heq with _ hentry _
    injection hentry with _ hexpects
    exact Expect.subscribeAck.inj hexpects
  · exact absurd rfl (hothers _ hmem)

theorem mem_accepted (hl : l.Attends h k events) : .asking h k ∈ l.accepted := by
  obtain ⟨before, more, hacc, -⟩ := hl.asked
  rw [hacc]
  exact List.mem_append_right _ List.mem_cons_self

/-- **The server was told**, where nobody listens to the topic any more. -/
theorem told (hl : l.Attends h k events) (hopen : l.now.stage ≠ .closed)
    (hnone : ¬ l.now.registry.contains h.topic) (hrefused : ¬ l.Refused h.topic) : l.Told h k := by
  obtain ⟨before, more, hacc, -, hcontains | hclosed | hr | ⟨a, ha, hends⟩⟩ := hl.asked
  · exact absurd hcontains hnone
  · exact absurd hclosed hopen
  · exact absurd hr hrefused
  · obtain ⟨between, after, rfl⟩ := List.append_of_mem ha
    exact ⟨before, between, a, after, hacc, hends⟩

/-! ## One step of others -/

/-- **A step of others** keeps what is known of a subscription. -/
theorem next (hl : l.Attends h k events) {l' : Ledger κ α} (new : List (Accepted κ))
    (more : List (Event κ α)) (tidy : l'.now.Tidy) (gone : l.now.Gone h → l'.now.Gone h)
    (given : l.now.nextHandle ≤ l'.now.nextHandle)
    (sole : l'.now.stage ≠ .closed → ∃ due, l'.now.Owes due ∧
      ∀ d ∈ due, d.order.handler? = some k → d.order = .subscribe h k)
    (accepted : l'.accepted = l.accepted ++ new) (others : ∀ a ∈ new, a.handler? ≠ some k)
    (answered : l.answered ⊆ l'.answered) (closed : l.now.stage = .closed → l'.now.stage = .closed)
    (topic : l.now.registry.contains h.topic → l'.now.registry.contains h.topic ∨
      l'.now.stage = .closed ∨ l'.Refused h.topic ∨ ∃ a ∈ new, a.Ends h.topic)
    (replies : ∀ v, .replied k (.ok v) ∈ more →
      ((Accepted.asking h k).entry, v) ∈ l'.answered ∧ (v.isError → ¬ l'.now.registry.Lives h)) :
    l'.Attends h k (events ++ more) := by
  refine ⟨tidy, Nat.lt_of_lt_of_le hl.given given, sole, ?_, fun v hv => ?_⟩
  · obtain ⟨before, past, hacc, hothers, hcases⟩ := hl.asked
    refine ⟨before, past ++ new, ?_, ?_, ?_⟩
    · rw [accepted, hacc, List.append_assoc, List.cons_append]
    · rw [← List.append_assoc]
      exact List.forall_mem_append.mpr ⟨hothers, others⟩
    · obtain hcontains | hclosed | ⟨p, hp, hrefused⟩ | ⟨a, ha, hends⟩ := hcases
      · refine (topic hcontains).imp_right (Or.imp_right (Or.imp_right ?_))
        rintro ⟨a, ha, hends⟩
        exact ⟨a, List.mem_append_right _ ha, hends⟩
      · exact .inr (.inl (closed hclosed))
      · exact .inr (.inr (.inl ⟨p, answered hp, hrefused⟩))
      · exact .inr (.inr (.inr ⟨a, List.mem_append_left _ ha, hends⟩))
  · obtain hv | hv := List.mem_append.mp hv
    · obtain ⟨hmem, hdead⟩ := hl.answered v hv
      exact ⟨answered hmem, fun he => (gone ⟨hl.given, hdead he⟩).dead⟩
    · exact replies v hv

end Attends

end Ledger

namespace Connection

variable {h : Handle} {k : κ} {c : Connection κ α}

/-- **A topic that goes is ended** by the order that comes with it. -/
theorem Moves.keeps_or_ends {r r' : Registry α} {next next' number : Nat} {o? : Option (Order κ)}
    (hm : Moves r next r' next' o?) (hs : r.Sound next) {t : Topic} (ht : r.contains t) :
    r'.contains t ∨ ∃ a ∈ o?.toList.flatMap (Order.accepts number), a.Ends t := by
  by_cases hc : r'.contains t
  · exact .inl hc
  · obtain ⟨k?, rfl⟩ := (hm.told hs ht).mpr hc
    refine .inr ⟨⟨t.unsubscribe, ⟨k?.elim .nobody .handler, .unsubscribeAck⟩, k?⟩, ?_, rfl, rfl⟩
    rw [Option.toList_some, List.flatMap_singleton]
    exact List.mem_singleton_self _

theorem Moves.next_le {r r' : Registry α} {next next' : Nat} {o? : Option (Order κ)}
    (hm : Moves r next r' next' o?) : next ≤ next' := by
  rw [hm.registers.1]
  exact Nat.le_add_right _ _

/-- **A subscription is refused** by an error that answers the command which asked for it. -/
theorem refused?_eq_some_iff {v : Value} : c.refused? v = some h ↔
    ∃ target rest, c.pending = ⟨target, .subscribeAck h⟩ :: rest ∧ v.isError := by
  rw [refused?]
  constructor
  · intro hr
    split at hr
    · rename_i target h' rest hpending
      rw [Option.ite_none_right_eq_some] at hr
      obtain ⟨herror, heq⟩ := hr
      cases heq
      exact ⟨target, rest, hpending, herror⟩
    · cases hr
  · rintro ⟨target, rest, hpending, herror⟩
    rw [hpending]
    exact if_pos herror

theorem Tidy.next_le_dispatch (hc : c.Tidy) (v : Value) :
    c.nextHandle ≤ (c.dispatch v).1.nextHandle := by
  cases hp : c.pushed? v with
  | some push =>
    rw [dispatch_pushed hp]
    exact (deliver_moves hc.sound push).next_le
  | none => rw [dispatch_reply hp, (answer_registry c v).2]

/-- **A refusal takes the registration.** -/
theorem Tidy.not_lives_of_refused? (hc : c.Tidy) {v : Value} (hp : c.pushed? v = none)
    (hr : c.refused? v = some h) : ¬ (c.dispatch v).1.registry.Lives h := by
  have hregistry := (answer_registry c v).1
  rw [hr] at hregistry
  rw [dispatch_reply hp, hregistry]
  exact fun hlives => ((lives_getD hc.sound h).mp hlives).2 rfl

/-- A handler that an event calls is called. -/
theorem mem_called {events : List (Event κ α)} {result : Except Failure Value}
    (h : .replied k result ∈ events) : k ∈ called events :=
  List.mem_filterMap.mpr ⟨_, h, rfl⟩

/-- What is due to a handler stays the same order, whatever value comes. -/
theorem Owes.sole_dispatch {due : List (Due κ)} (howes : c.Owes due) {o : Order κ}
    (hsole : ∀ d ∈ due, d.order.handler? = some k → d.order = o) (v : Value) :
    ∃ due', (c.dispatch v).1.Owes due' ∧ ∀ d ∈ due', d.order.handler? = some k → d.order = o := by
  obtain ⟨more, howes', -, -, hmore⟩ | ⟨d, rest, rfl, howes', -⟩ := howes.meets v
  · refine ⟨_, howes', fun d hd hdk => ?_⟩
    obtain hd | hd := List.mem_append.mp hd
    · exact hsole d hd hdk
    · cases (hmore d hd).1.symm.trans hdk
  · refine ⟨_, howes', fun d' hd' hdk => ?_⟩
    obtain hd' | hd' := List.mem_append.mp hd'
    · rw [(mem_next? hd').1] at hdk ⊢
      exact hsole d List.mem_cons_self hdk
    · exact hsole d' (List.mem_cons_of_mem d hd') hdk

/-- **A handler to which a subscription is due** hears of a value when it is the reply to it. -/
theorem Owes.reply_of_sole {due : List (Due κ)} (howes : c.Owes due)
    (hsole : ∀ d ∈ due, d.order.handler? = some k → d.order = .subscribe h k) {v v' : Value}
    (hv : .replied k (.ok v') ∈ (c.dispatch v).2) :
    v' = v ∧ c.pushed? v = none ∧ ∃ rest, c.pending = (Accepted.asking h k).entry :: rest := by
  obtain ⟨-, -, -, hcalled, -⟩ | ⟨d, rest, rfl, -, hanswered, hevents⟩ := howes.meets v
  · have hmem := mem_called hv
    rw [hcalled] at hmem
    cases hmem
  · rw [hevents] at hv
    obtain ⟨r, hr, heq⟩ := List.mem_map.mp hv
    injection heq with hk hvalue
    have hdk : d.order.handler? = some k := by
      rw [← Option.mem_toList, ← calls_append_next? d v]
      exact List.mem_append_left _ (List.mem_map.mpr ⟨r, hr, hk⟩)
    obtain ⟨rfl, hentries⟩ : r = (k, v) ∧ d.entries = [(Accepted.asking h k).entry] := by
      have hu := howes.unfinished d List.mem_cons_self
      have horder := hsole d List.mem_cons_self hdk
      cases d, hu using Due.unfinished_cases with
      | subscribe h' k' number =>
        cases horder
        exact ⟨List.mem_singleton.mp hr, rfl⟩
      | _ => cases horder
    refine ⟨(Except.ok.inj hvalue).symm, ?_, rest.flatMap Due.entries, ?_⟩
    · rw [answered?, hentries] at hanswered
      split at hanswered
      · rename_i hp
        exact Option.isNone_iff_eq_none.mp hp
      · cases hanswered
    · rw [howes.pending, List.flatMap_cons, hentries]
      rfl

/-- **The end tells nobody of a value.** -/
theorem Accounted.fail_silent (hc : c.Accounted) (hopen : c.stage ≠ .closed) (failure : Failure)
    (v : Value) : .replied k (.ok v) ∉ (c.fail failure).2 := by
  rw [hc.fail hopen]
  intro hmem
  obtain hmem | hmem := List.mem_cons.mp hmem
  · cases hmem
  · obtain ⟨k', -, heq⟩ := List.mem_map.mp hmem
    cases heq

theorem Accounted.close_silent (hc : c.Accounted) (hopen : c.stage ≠ .closed) (v : Value) :
    .replied k (.ok v) ∉ c.close.2 := by
  rw [hc.close hopen]
  intro hmem
  obtain ⟨k', -, heq⟩ := List.mem_map.mp hmem
  cases heq

end Connection

namespace Ledger.Attends

open Connection

variable {h : Handle} {k : κ} {l : Ledger κ α} {events : List (Event κ α)}

theorem accounted (hl : l.Attends h k events) (hopen : l.now.stage ≠ .closed) : l.now.Accounted := by
  obtain ⟨due, howes, -⟩ := hl.sole hopen
  exact ⟨due, howes, fun hclosed => absurd hclosed hopen⟩

/-- **A request of others.** -/
theorem ask (hl : l.Attends h k events) {op : Op κ α} (ha : op.asks) (hk : op.handler? ≠ some k) :
    (l.enter (l.now.order? op) (l.now.perform op).1).Attends h k (events ++ (l.now.perform op).2) := by
  have hmoves := perform_moves hl.tidy.sound hl.tidy.idle ha
  have hstage := (perform_stage l.now ha).2
  obtain ⟨hplaces, hcalls⟩ := perform_effect l.now ha
  refine hl.next _ _ (hl.tidy.perform op) (·.moves hmoves) hmoves.next_le (fun hopen => ?_) rfl
    (fun a hmem => ?_) (List.Subset.refl _) hstage.mpr (fun ht => ?_) fun v hv => ?_
  · obtain ⟨due, howes, hsole⟩ := hl.sole (mt hstage.mpr hopen)
    refine ⟨_, hplaces.owes howes fun o ho => (order?_commands ho).1, fun d hd hdk => ?_⟩
    obtain hd | hd := List.mem_append.mp hd
    · exact hsole d hd hdk
    · exact absurd hdk (other_of_order? hk hd).1
  · obtain ⟨o, ho, hmem⟩ := List.mem_flatMap.mp hmem
    rw [handler?_of_accepts hmem, (order?_commands (Option.mem_toList.mp ho)).2]
    exact hk
  · exact (hmoves.keeps_or_ends hl.tidy.sound ht).imp_right fun hends => .inr (.inr hends)
  · have hmem := mem_called hv
    rw [hcalls] at hmem
    split at hmem
    · cases hmem
    · exact absurd (Option.mem_toList.mp hmem) hk

/-- **A topic that goes when a value comes** was ended or refused. -/
theorem topic_meet (htidy : l.now.Tidy) (v : Value) {t : Topic} (ht : l.now.registry.contains t) :
    (l.now.dispatch v).1.registry.contains t ∨ (l.meet v).Refused t ∨
      ∃ a ∈ ((l.now.pushed? v).bind l.now.parting?).toList.flatMap (Order.accepts l.now.nextBatch),
        a.Ends t := by
  cases hp : l.now.pushed? v with
  | some push =>
    rw [dispatch_pushed hp]
    exact ((deliver_moves htidy.sound push).keeps_or_ends htidy.sound ht).imp_right .inr
  | none =>
    rw [dispatch_reply hp, (answer_registry l.now v).1]
    cases hr : l.now.refused? v with
    | none => exact .inl ht
    | some h' =>
      obtain ⟨target, rest, hpending, herror⟩ := refused?_eq_some_iff.mp hr
      by_cases hsame : t = h'.topic
      · have hmem : (⟨target, .subscribeAck h'⟩, v) ∈ (l.meet v).answered := by
          rw [Ledger.meet, answered?, hp, hpending]
          exact List.mem_append_right _ (List.mem_singleton_self _)
        exact .inr (.inl ⟨_, hmem, h', rfl, hsame.symm, herror⟩)
      · exact .inl ((contains_getD htidy.sound hsame).mpr ht)

/-- **A value**: a message, or the reply to the command that waited longest. -/
theorem meet (hl : l.Attends h k events) (hopen : l.now.stage ≠ .closed) (v : Value) :
    (l.meet v).Attends h k (events ++ (l.now.dispatch v).2) := by
  obtain ⟨due, howes, hsole⟩ := hl.sole hopen
  have hstage := (dispatch_stage l.now v).2
  refine hl.next _ _ (hl.tidy.dispatch v) (·.dispatch hl.tidy v) (hl.tidy.next_le_dispatch v)
    (fun _ => howes.sole_dispatch hsole v) rfl (fun a hmem => ?_) (List.subset_append_left _ _)
    hstage.mpr (fun ht => ?_) fun v' hv' => ?_
  · obtain ⟨o, ho, hmem⟩ := List.mem_flatMap.mp hmem
    obtain ⟨push, -, hparting⟩ := Option.bind_eq_some_iff.mp (Option.mem_toList.mp ho)
    rw [handler?_of_accepts hmem, (parting?_commands hparting).2]
    nofun
  · exact (topic_meet hl.tidy v ht).imp_right .inr
  · obtain ⟨rfl, hp, rest, hpending⟩ := howes.reply_of_sole hsole hv'
    refine ⟨?_, fun herror => ?_⟩
    · rw [Ledger.meet, answered?, hp, hpending]
      exact List.mem_append_right _ (List.mem_singleton_self _)
    · exact hl.tidy.not_lives_of_refused? hp (refused?_eq_some_iff.mpr ⟨_, _, hpending, herror⟩)

theorem meetAll (hl : l.Attends h k events) (hopen : l.now.stage ≠ .closed) (vs : List Value) :
    (l.meetAll vs).Attends h k (events ++ (l.now.dispatchAll vs).2) := by
  induction vs generalizing l events with
  | nil => exact (List.append_nil events).symm ▸ hl
  | cons v vs ih =>
    have hrest := ih (hl.meet hopen v) (mt (dispatch_stage l.now v).2.mp hopen)
    rw [List.append_assoc] at hrest
    exact hrest

/-- Bytes come and go. -/
theorem congr (hl : l.Attends h k events) {l' : Ledger κ α} (tidy : l'.now.Tidy)
    (hacc : l'.accepted = l.accepted) (hans : l'.answered = l.answered)
    (hs : l'.now.stage = l.now.stage) (hr : l'.now.registry = l.now.registry)
    (hn : l'.now.nextHandle = l.now.nextHandle) (hp : l'.now.pending = l.now.pending)
    (hb : l'.now.batches = l.now.batches) (hnb : l'.now.nextBatch = l.now.nextBatch)
    (ha : l'.now.acksOwed = l.now.acksOwed) : l'.Attends h k events := by
  have hsole := hl.sole
  have hnext : l'.Attends h k (events ++ []) := hl.next [] [] tidy
    (fun hg => ⟨hn ▸ hg.given, hr ▸ hg.dead⟩) (Nat.le_of_eq hn.symm) (fun hopen => ?_)
    (hacc.trans (List.append_nil _).symm) nofun (hans ▸ List.Subset.refl _) (hs ▸ id)
    (fun ht => .inl (hr ▸ ht)) nofun
  · rwa [List.append_nil] at hnext
  · obtain ⟨due, howes, hd⟩ := hsole (hs ▸ hopen)
    exact ⟨due, howes.congr hp hb hnb ha, hd⟩

/-- **The end**, which tells nobody of a value. -/
theorem ends (hl : l.Attends h k events) {c : Connection κ α} (hends : l.now.Ends c)
    {more : List (Event κ α)} (hsilent : ∀ v, .replied k (.ok v) ∉ more) :
    Attends h k { l with now := c } (events ++ more) := by
  refine hl.next [] more (hl.tidy.ends hends) (·.ends hends) ?_
    (fun hopen => absurd hends.closed hopen) (List.append_nil _).symm nofun (List.Subset.refl _)
    (fun _ => hends.closed) (fun _ => .inr (.inl hends.closed)) fun v hv => absurd hv (hsilent v)
  obtain ⟨-, rfl⟩ | ⟨batches, rfl⟩ := hends
  · exact Nat.le_refl _
  · exact Nat.le_refl _

/-- Reading stops. -/
theorem stop (hl : l.Attends h k events) (hopen : l.now.stage ≠ .closed) (cause? : Option Malformed) :
    Attends h k { l with now := (l.now.stop cause?).1 } (events ++ (l.now.stop cause?).2) := by
  match cause? with
  | none => exact (List.append_nil events).symm ▸ hl
  | some cause =>
    exact hl.ends (ends_fail l.now _) ((hl.accounted hopen).fail_silent hopen _)

theorem feed (hl : l.Attends h k events) (input : Bytes) :
    (l.act (.feed input)).Attends h k (events ++ (l.now.feed input).turn.2) := by
  rw [Ledger.act]
  by_cases hc : l.now.stage = .closed
  · rw [if_pos hc, (feed_closed hc input).1, List.append_nil]
    exact hl
  · have hall := hl.meetAll hc (l.now.decoder.values input)
    have hopen : (l.meetAll (l.now.decoder.values input)).now.stage ≠ .closed := by
      rw [now_meetAll]
      exact mt (dispatchAll_stage l.now _).2.mp hc
    have hread : Attends h k ((l.meetAll (l.now.decoder.values input)).reading (l.now.decoder.after input))
        (events ++ (l.now.dispatchAll (l.now.decoder.values input)).2) :=
      hall.congr (hall.tidy.reading _) rfl rfl rfl rfl rfl rfl rfl rfl rfl
    have hlast := hread.stop hopen (l.now.decoder.fault? input)
    rw [if_neg hc, (feed_eq hc input).1]
    rw [List.append_assoc, Ledger.reading] at hlast
    dsimp only at hlast
    rw [now_meetAll] at hlast
    exact hlast

/-- **Every operation of others** keeps what is known of a subscription. -/
theorem act (hl : l.Attends h k events) {op : Op κ α} (hk : op.handler? ≠ some k) :
    (l.act op).Attends h k (events ++ (l.now.perform op).2) := by
  have hend {c : Connection κ α} {more : List (Event κ α)} (hends : l.now.Ends c)
      (hsilent : l.now.stage ≠ .closed → ∀ v, .replied k (.ok v) ∉ more)
      (hdone : l.now.stage = .closed → more = []) :
      (l.enter none c).Attends h k (events ++ more) := by
    have hsilent' : ∀ v, .replied k (.ok v) ∉ more := by
      by_cases hc : l.now.stage = .closed
      · exact fun v => hdone hc ▸ List.not_mem_nil
      · exact hsilent hc
    exact (hl.ends hends hsilent').congr (hl.tidy.ends hends) (List.append_nil _) rfl rfl rfl rfl rfl rfl
      rfl rfl
  cases op with
  | feed input => exact hl.feed input
  | written n =>
    rw [Connection.perform, List.append_nil]
    exact hl.congr (hl.tidy.written n) rfl rfl rfl rfl rfl rfl rfl rfl rfl
  | fail failure =>
    exact hend (ends_fail l.now failure) (fun ho => (hl.accounted ho).fail_silent ho failure)
      fun hc => by rw [Connection.perform, Connection.fail, if_pos hc]
  | close =>
    exact hend (ends_close l.now) (fun ho => (hl.accounted ho).close_silent ho)
      fun hc => by rw [Connection.perform, Connection.close, if_pos hc]
  | _ => exact hl.ask rfl hk

/-- **A run of others** keeps what is known of a subscription. -/
theorem run (hl : l.Attends h k events) (ops : List (Op κ α))
    (hk : ∀ op ∈ ops, op.handler? ≠ some k) :
    (l.run ops).Attends h k (events ++ (l.now.run ops).2) := by
  induction ops generalizing l events with
  | nil => exact (List.append_nil events).symm ▸ hl
  | cons op ops ih =>
    rw [List.forall_mem_cons] at hk
    have hrest := ih (hl.act hk.1) hk.2
    rw [List.append_assoc, now_act] at hrest
    exact hrest

end Ledger.Attends

/-! ## It is asked for -/

namespace Connection

/-- **A subscription is asked for**: a registration enters, under the next number. -/
theorem register_registry {c : Connection κ α} (ho : c.isOpen) (topic : Topic)
    (persistence : Persistence) (listener : α) (k : κ) :
    let next := (c.perform (.register topic persistence listener k)).1
    next.registry = c.registry.insert ⟨c.nextHandle, topic⟩ persistence listener ∧
      next.nextHandle = c.nextHandle + 1 := by
  dsimp only
  rw [perform, register, closedTo?, if_pos ho]
  exact ⟨refresh_registry _, refresh_nextHandle _⟩

end Connection

namespace Ledger

open Connection

theorem attends_register (l : Ledger κ α) {k : κ} (events : List (Event κ α)) (htidy : l.now.Tidy)
    (hacc : l.now.Accounted) (ho : l.now.isOpen) (hk : k ∉ l.now.waiting)
    (hothers : ∀ a ∈ l.accepted, a.handler? ≠ some k) (hcalled : k ∉ called events) (topic : Topic)
    (persistence : Persistence) (listener : α) :
    (l.act (.register topic persistence listener k)).Attends ⟨l.now.nextHandle, topic⟩ k
      (events ++ (l.now.perform (.register topic persistence listener k)).2) := by
  obtain ⟨hregistry, hnext⟩ := register_registry ho topic persistence listener k
  have horder : l.now.order? (.register topic persistence listener k)
      = some (.subscribe ⟨l.now.nextHandle, topic⟩ k) := if_pos ho
  obtain ⟨hplaces, hcalls⟩ := effect_register l.now topic persistence listener k
  rw [horder] at hplaces hcalls
  refine ⟨htidy.perform (.register topic persistence listener k), ?_, fun _ => ?_, ?_, fun v hv => ?_⟩
  · rw [now_act, hnext]
    exact Nat.lt_succ_self _
  · obtain ⟨due, howes, -⟩ := hacc
    refine ⟨_, hplaces.owes howes fun o heq => Option.some.inj heq ▸ List.cons_ne_nil _ _,
      fun d hd hdk => ?_⟩
    obtain hd | hd := List.mem_append.mp hd
    · rw [howes.waiting] at hk
      exact absurd (List.mem_filterMap.mpr ⟨d, hd, hdk⟩) hk
    · rw [List.mem_singleton.mp hd]
  · refine ⟨l.accepted, [], accepted_act horder, ?_, .inl ?_⟩
    · rw [List.append_nil]
      exact hothers
    · rw [now_act, hregistry]
      exact (Registry.contains_insert htidy.sound _ _ _ _).mpr (.inr rfl)
  · obtain hv | hv := List.mem_append.mp hv
    · exact absurd (mem_called hv) hcalled
    · have hmem := mem_called hv
      rw [Connection.perform, hcalls] at hmem
      cases hmem

end Ledger

/-! ## Nothing enters on nobody's behalf -/

namespace Connection

/-- An order on nobody's behalf brings no registration. -/
theorem Moves.lives_of_quiet {r r' : Registry α} {next next' : Nat} {o? : Option (Order κ)}
    (hm : Moves r next r' next' o?) (ho : ∀ o, o? = some o → o.handler? = none) {h : Handle}
    (hl : r'.Lives h) : r.Lives h := by
  refine (hm.registers.2.2 h hl).resolve_right fun hr => ?_
  obtain ⟨o, rfl, hregisters⟩ := Option.bind_eq_some_iff.mp hr
  cases o with
  | subscribe h' k => cases ho _ rfl
  | _ => cases hregisters

variable {c : Connection κ α} {h : Handle}

theorem Tidy.lives_dispatch (hc : c.Tidy) {v : Value} (hl : (c.dispatch v).1.registry.Lives h) :
    c.registry.Lives h := by
  cases hp : c.pushed? v with
  | some push =>
    rw [dispatch_pushed hp] at hl
    exact (deliver_moves hc.sound push).lives_of_quiet (fun _ ho => (parting?_commands ho).2) hl
  | none =>
    rw [dispatch_reply hp, (answer_registry c v).1] at hl
    split at hl
    · exact ((lives_getD hc.sound h).mp hl).1
    · exact hl

/-- **Without a handler an operation registers nobody.** -/
theorem Tidy.lives_perform (hc : c.Tidy) {op : Op κ α} (hop : op.handler? = none)
    (hl : (c.perform op).1.registry.Lives h) : c.registry.Lives h := by
  by_cases ha : op.asks
  · refine (perform_moves hc.sound hc.idle ha).lives_of_quiet (fun o ho => ?_) hl
    exact (order?_commands ho).2.trans hop
  · refine (perform_keeps (P := fun d => d.Tidy ∧ (d.registry.Lives h → c.registry.Lives h))
      (fun d v hd => ⟨hd.1.dispatch v, fun hl => hd.2 (hd.1.lives_dispatch hl)⟩)
      (fun d e hd => ⟨hd.1.reading e, hd.2⟩) (fun d n hd => ⟨hd.1.written n, hd.2⟩)
      (fun d d' hends hd => ⟨hd.1.ends hends, fun hl => ?_⟩) ⟨hc, id⟩ ha).2 hl
    obtain ⟨-, rfl⟩ | ⟨batches, rfl⟩ := hends
    · exact hd.2 hl
    · exact absurd hl (Registry.not_lives_empty h)

theorem Tidy.lives_run (hc : c.Tidy) {ops : List (Op κ α)} (hops : ∀ op ∈ ops, op.handler? = none)
    (hl : (c.run ops).1.registry.Lives h) : c.registry.Lives h := by
  induction ops generalizing c with
  | nil => exact hl
  | cons op ops ih =>
    rw [List.forall_mem_cons] at hops
    exact hc.lives_perform hops.1 (ih (hc.perform op) hops.2 hl)

end Connection

namespace Ledger

variable {l : Ledger κ α} {h : Handle}

/-- What was accepted stays written down. -/
theorem accepted_subset_run (l : Ledger κ α) (ops : List (Op κ α)) : l.accepted ⊆ (l.run ops).accepted := by
  rw [run_eq_andThen]
  exact List.subset_append_left _ _

/-- A registration that enters was asked for. -/
theorem lives_act (hl : l.now.Tidy) {op : Op κ α} (hlives : (l.act op).now.registry.Lives h) :
    l.now.registry.Lives h ∨ ∃ k, .asking h k ∈ (l.act op).accepted := by
  rw [now_act] at hlives
  cases hk : op.handler? with
  | none => exact .inl (hl.lives_perform hk hlives)
  | some k =>
    have ha : op.asks := by cases op <;> first | rfl | cases hk
    refine ((Connection.perform_moves hl.sound hl.idle ha).registers.2.2 h hlives).imp_right fun hr => ?_
    obtain ⟨o, ho, hregisters⟩ := Option.bind_eq_some_iff.mp hr
    cases o with
    | subscribe h' k' =>
      cases hregisters
      refine ⟨k', ?_⟩
      rw [accepted_act ho]
      exact List.mem_append_right _ (List.mem_singleton_self _)
    | _ => cases hregisters

/-- **Every registration was asked for**, if those were that were there before. -/
theorem exists_asking (hl : l.now.Tidy)
    (hbefore : ∀ h, l.now.registry.Lives h → ∃ k, .asking h k ∈ l.accepted) {ops : List (Op κ α)}
    (hlives : (l.run ops).now.registry.Lives h) : ∃ k, .asking h k ∈ (l.run ops).accepted := by
  induction ops generalizing l with
  | nil => exact hbefore h hlives
  | cons op ops ih =>
    refine ih (l := l.act op) (l.now_act op ▸ hl.perform op) (fun h' hl' => ?_) hlives
    obtain hold | hnew := lives_act hl hl'
    · exact (hbefore h' hold).imp fun k hk => l.accepted_subset_run [op] hk
    · exact hnew

end Ledger

end RespClient
