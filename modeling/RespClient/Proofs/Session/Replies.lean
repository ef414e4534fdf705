import RespClient.Proofs.Session.Steps

/-!
# Proofs/Session/Replies — each handler gets the replies to its own commands

A server that refuses nothing may reply anything to an ordinary command.  Then every handler gets the
server's reply to its own command, and no reply is taken for a message, *unless* some reply has the
shape of a message and comes while messages are routed (`correlated_iff`).  A command sent before
anyone listened is answered after: its reply may then be delivered to a listener, and the next reply
goes to its handler (`not_correlated_crossed`).
-/

namespace RespClient

variable {κ α : Type}

/-- **A server that accepts every subscription** and replies to other commands as it likes. -/
def Manners.obliging : Manners := ⟨False, fun _ => True⟩

/-- **Replies and commands correspond.** -/
structure Session.Correlated (s : Session κ α) : Prop where
  /-- The handlers got the outcomes of the replies that came, one order after another. -/
  handed : s.handed = calls s.asked (s.met.map Prod.snd)
  /-- The replies that came are the server's, in order, … -/
  met : s.met <+: s.served
  /-- … and these are its replies to the commands of the orders, in order. -/
  served : s.served.map Prod.fst <+: s.asked.flatMap Order.commands
  /-- No reply was taken for a message. -/
  apart : ∀ e ∈ s.trace, ∀ command v, e.message = .reply command v → e.before.pushed? v = none

/-- **A reply that has the shape of a message** comes while messages are routed: someone listens, or an
answer to the end of a subscription is owed. -/
def Encounter.Clashes (e : Encounter κ α) : Prop :=
  match e.message with
  | .reply _ v => (Push.ofValue? v).isSome ∧ e.before.routesPushes
  | .push _ _ => False

instance (e : Encounter κ α) : Decidable e.Clashes :=
  match e with
  | ⟨_, _, .reply _ _⟩ => inferInstanceAs (Decidable (_ ∧ _))
  | ⟨_, _, .push _ _⟩ => inferInstanceAs (Decidable False)

theorem Tracked.correlated {m : Manners} {s : Session κ α} (h : Tracked m s) : s.Correlated where
  handed := h.told.handed
  met := ⟨_, h.told.served.symm⟩
  served := by
    obtain ⟨cs, rest, hasked, -⟩ := h.told.uplink
    exact ⟨cs, hasked.symm⟩
  apart e he command v hv := by
    have hclear := h.told.clear e he
    rw [Encounter.Clear, hv] at hclear
    exact hclear

theorem Encounter.pushed?_eq_none_iff {e : Encounter κ α} {command : Command} {v : Value}
    (hv : e.message = .reply command v) : e.before.pushed? v = none ↔ ¬ e.Clashes := by
  rw [Clashes, hv, Connection.pushed?]
  constructor
  · rintro hn ⟨hshape, hroutes⟩
    rw [if_pos hroutes] at hn
    rw [hn] at hshape
    cases hshape
  · intro hn
    split
    · rename_i hroutes
      by_contra hshape
      exact hn ⟨Option.isSome_iff_ne_none.mpr hshape, hroutes⟩
    · rfl

/-- **Replies and commands correspond exactly while no reply clashes with a message**, whatever the user
does, and whatever and whenever the server sends. -/
theorem Reachable.correlated_iff {s : Session κ α} (h : Reachable .obliging s) :
    s.Correlated ↔ ∀ e ∈ s.trace, ¬ e.Clashes := by
  constructor
  · intro hs e he hclash
    have hclear : ∀ command v, e.message = .reply command v → ¬ e.Clashes := fun command v hv =>
      (Encounter.pushed?_eq_none_iff hv).mp (hs.apart e he command v hv)
    cases hm : e.message with
    | reply command v => exact hclear command v hm hclash
    | push p v =>
      rw [Encounter.Clashes, hm] at hclash
      exact hclash
  · intro hclear
    refine (h.tracked fun e he => ?_).correlated
    rw [Encounter.Excused]
    split
    · rename_i command v hv
      exact .inr ((Encounter.pushed?_eq_none_iff hv).mpr (hclear e he))
    · exact fun hr => hr.elim

/-! ## A reply that comes late

    LRANGE k ──▸ ["message", "c", "x"]        SUBSCRIBE c ──▸ ["subscribe", "c", 1]

The reply to the first command is the elements of a list, and they read like a message of the topic. -/

namespace Session

/-- A command whose reply is a list of the server's choice. -/
def lrange : Command := ⟨Utf8.encode "LRANGE", [[107]]⟩

/-- **The list is asked for, and answered, before anyone listens.** -/
def uncrossed : Session Nat Nat :=
  let s := (connected Nat Nat).act (.submit lrange 0)
  let s := s.write s.client.outbound.length
  let s := s.serve lrange note (Wire.reply note) [] s.held
  let s := s.receive s.downlink []
  let s := s.act (.register channel .persistent 0 1)
  let s := s.write s.client.outbound.length
  let s := s.serve channel.subscribe welcome (Wire.reply welcome) [] (channel :: s.held)
  let s := s.pass ⟨channel, [99], [120]⟩ note (Wire.reply note)
  s.receive s.downlink []

/-- **The list is asked for before anyone listens, and answered after.** -/
def crossed : Session Nat Nat :=
  let s := (connected Nat Nat).act (.submit lrange 0)
  let s := s.act (.register channel .persistent 0 1)
  let s := s.write s.client.outbound.length
  let s := s.serve lrange note (Wire.reply note) channel.subscribe.encode s.held
  let s := s.serve channel.subscribe welcome (Wire.reply welcome) [] (channel :: s.held)
  s.receive s.downlink []

end Session

open Session

theorem Reachable.uncrossed : Reachable .obliging uncrossed := by
  refine .receive (.pass ?_ List.mem_cons_self rfl ?_) (List.append_nil _).symm
  refine .serve (.write _ (.act _ (.receive ?_ (List.append_nil _).symm) rfl)) ?_
    (.accepts _ rfl rfl) ?_
  refine .serve (.write _ (.act _ .connected ?_)) ?_ (.replies ?_ trivial) ?_
  all_goals decide +kernel

theorem Reachable.crossed : Reachable .obliging crossed := by
  refine .receive (.serve ?_ ?_ (.accepts _ rfl rfl) ?_) (List.append_nil _).symm
  refine .serve (.write _ (.act _ (.act _ .connected ?_) rfl)) ?_ (.replies ?_ trivial) ?_
  all_goals decide +kernel

theorem correlated_uncrossed : Reachable .obliging uncrossed ∧ uncrossed.Correlated :=
  ⟨.uncrossed, Reachable.uncrossed.correlated_iff.mpr (by decide +kernel)⟩

/-- **The late reply goes to the listener**, and the answer to the subscription to the handler that
waits for the list. -/
theorem not_correlated_crossed : Reachable .obliging crossed ∧ ¬ crossed.Correlated :=
  ⟨.crossed, fun h => absurd h.handed (by decide +kernel)⟩

end RespClient
