import RespClient.Proofs.Session.Steps

/-!
# Proofs/Session/Agreement — the server holds what is registered

A server that may refuse subscriptions, but replies to ordinary commands with nothing that has the shape
of a message.  Once every reply is in, each registered topic is held, and a topic that is held is
registered or *taken*: a refusal took its last registration (`Tracked.held_iff`).  So the two ends agree
exactly while no taken topic is held (`agreed_iff`).

A refusal says nothing of the other subscriptions to its topic.  If one of them was accepted, and its
registration went while the refused one was still there, nobody ends it (`not_agreed_forsaken`).
-/

namespace RespClient

open Connection

variable {κ α : Type}

/-- **A server that may refuse subscriptions**, and replies with no message. -/
def Manners.wary : Manners := ⟨True, fun v => Push.ofValue? v = none⟩

/-- **The server holds the topics that are registered**, and no others. -/
def Session.Agreed (s : Session κ α) : Prop := ∀ t, t ∈ s.held ↔ s.client.registry.contains t

/-- **A message of a taken topic comes while no messages are routed**, and is taken for a reply. -/
def Encounter.Strays (e : Encounter κ α) : Prop :=
  match e.message with
  | .reply _ _ => False
  | .push p _ => p.topic ∈ e.taken ∧ ¬ e.before.routesPushes

instance (e : Encounter κ α) : Decidable e.Strays :=
  match e with
  | ⟨_, _, .reply _ _⟩ => inferInstanceAs (Decidable False)
  | ⟨_, _, .push _ _⟩ => inferInstanceAs (Decidable (_ ∧ _))

theorem Encounter.excused_wary {e : Encounter κ α} (h : ¬ e.Strays) : e.Excused .wary := by
  obtain ⟨before, taken, message⟩ := e
  cases message with
  | reply command v => exact .inl fun _ hw => hw
  | push p v => exact fun _ ht => not_not.mp fun hr => h ⟨ht, hr⟩

/-! ## Every reply is in -/

/-- **When every reply is in**, what is on its way tells of no change, and no order is to be carried
out. -/
theorem Tracked.settled {m : Manners} {s : Session κ α} (h : Tracked m s)
    (hopen : s.client.isOpen) (hp : s.client.pending = []) :
    Agrees s.client.registry s.held ([] : List (Order κ)) s.taken ∧
      s.client.registry.Sound s.client.nextHandle := by
  obtain ⟨seen, due, hs⟩ := h.synced fun hc => not_isOpen_of_closed hc hopen
  obtain rfl := hs.owes.due_eq_nil hp
  obtain ⟨cs, hcs, -⟩ := hs.due_commands h.told
  have hreplies : s.flight.filterMap Message.reply? = [] :=
    List.map_eq_nil_iff.mp (List.append_eq_nil_iff.mp hcs.symm).1
  rw [hs.follows.eq_of_pushes hreplies]
  exact ⟨hs.agrees, hs.sound⟩

/-- **What the server holds beyond the registered topics** is taken. -/
theorem Tracked.held_iff {m : Manners} {s : Session κ α} (h : Tracked m s)
    (hopen : s.client.isOpen) (hp : s.client.pending = []) (t : Topic) :
    t ∈ s.held ↔ s.client.registry.contains t ∨ t ∈ s.taken ∧ t ∈ s.held := by
  obtain ⟨hagrees, hsound⟩ := h.settled hopen hp
  constructor
  · intro ht
    exact (hagrees.guarded t ht).imp_right fun htaken => ⟨htaken, ht⟩
  · rintro (hc | ⟨-, ht⟩)
    · obtain ⟨id, hlives⟩ := (Registry.contains_iff hsound t).mp hc
      exact hagrees.backed _ hlives
    · exact ht

/-- **The two ends agree exactly while no taken topic is held**, once every reply is in, whatever the
user did, and whatever and whenever the server sent. -/
theorem Reachable.agreed_iff {s : Session κ α} (h : Reachable .wary s) (hopen : s.client.isOpen)
    (hp : s.client.pending = []) (he : ∀ e ∈ s.trace, ¬ e.Strays) :
    s.Agreed ↔ ∀ t ∈ s.taken, t ∉ s.held := by
  have htracked := h.tracked fun e hmem => Encounter.excused_wary (he e hmem)
  have hheld := htracked.held_iff hopen hp
  constructor
  · intro hagreed t ht hmem
    exact (htracked.settled hopen hp).1.gone t ht ((hagreed t).mp hmem)
  · intro hnone t
    rw [hheld t, or_iff_left]
    exact fun ht => hnone t ht.1 ht.2

/-! ## A refusal that takes the wrong registration

    SUBSCRIBE c ──▸ accepted        SUBSCRIBE c ──▸ refused

Two listeners subscribe to one channel.  If both are there when the answers come, one stays.  If the
first has left by then, no end of its subscription was sent, for the channel was shared; and none is sent
when the refusal takes the second. -/

namespace Session

/-- Two listeners subscribe. -/
def shared : Session Nat Nat :=
  ((connected Nat Nat).act (.register channel .persistent 0 1)).act (.register channel .persistent 2 3)

/-- **The first subscription is accepted, the second refused.** -/
def divided (s : Session Nat Nat) : Session Nat Nat :=
  let s := s.write s.client.outbound.length
  let s := s.serve channel.subscribe welcome (Wire.reply welcome) channel.subscribe.encode
    (channel :: s.held)
  let refusal : Value := .error (Utf8.encode "NOPERM")
  let s := s.serve channel.subscribe refusal (Wire.reply refusal) [] s.held
  s.receive s.downlink []

/-- Both listeners wait for the answers. -/
def patient : Session Nat Nat := shared.divided

/-- **The first listener leaves before the answers.** -/
def forsaken : Session Nat Nat := (shared.act (.unsubscribe ⟨1, channel⟩ 4)).divided

end Session

open Session

theorem Reachable.shared : Reachable .wary shared := (connected.act _ rfl).act _ rfl

theorem Reachable.divided {s : Session Nat Nat} (h : Reachable .wary s)
    (hup : s.uplink ++ s.client.outbound = channel.subscribe.encode ++ channel.subscribe.encode) :
    Reachable .wary s.divided := by
  refine .receive (.serve ?_ ?_ (.refuses _ trivial rfl) ?_) (List.append_nil _).symm
  refine .serve (.write _ h) ?_ (.accepts _ rfl rfl) ?_
  · rw [Session.write, List.take_length, hup]
  · decide +kernel
  · exact (List.append_nil _).symm
  · decide +kernel

theorem Reachable.patient : Reachable .wary patient := Reachable.shared.divided (by decide +kernel)

theorem Reachable.forsaken : Reachable .wary forsaken :=
  (Reachable.shared.act _ rfl).divided (by decide +kernel)

theorem agreed_patient : Reachable .wary patient ∧ patient.client.isOpen ∧
    patient.client.pending = [] ∧ (∀ e ∈ patient.trace, ¬ e.Strays) ∧ patient.Agreed := by
  have hopen : patient.client.isOpen := by decide +kernel
  have hp : patient.client.pending = [] := List.isEmpty_iff.mp (by decide +kernel)
  have he : ∀ e ∈ patient.trace, ¬ e.Strays := by decide +kernel
  exact ⟨.patient, hopen, hp, he, (Reachable.patient.agreed_iff hopen hp he).mpr (by decide +kernel)⟩

/-- **A server may hold a channel that nobody is registered for**, with every reply in. -/
theorem not_agreed_forsaken : Reachable .wary forsaken ∧ forsaken.client.isOpen ∧
    forsaken.client.pending = [] ∧ ¬ forsaken.Agreed := by
  refine ⟨.forsaken, by decide +kernel, List.isEmpty_iff.mp (by decide +kernel), fun h => ?_⟩
  exact absurd ((h channel).mp (by decide +kernel)) (by decide +kernel)

end RespClient
