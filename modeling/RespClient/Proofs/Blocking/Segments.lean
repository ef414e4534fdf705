import RespClient.Proofs.Blocking.Standing
import RespClient.Proofs.Session.Solitary
import RespClient.Proofs.Wire.Hearing

/-!
# Proofs/Blocking/Segments — a reply does not depend on where the stream is cut, but in one case

    server        +OK ↵ ?
    two reads     +OK ↵ │ ?          the reply is returned, and the fault is not read
    one read      +OK ↵ ?            the reply is there, and the call fails for the fault behind it

A client that nobody listens on asks for data, and bytes come in pieces, of which a read takes as much
as its buffer holds (`Cut.portions`).  Writing comes first and does not depend on what will be read
(`writeOnce_facing`).  Then the call waits for so many values (`wait_reading`), and only one thing of the
cut matters: whether a read ends behind the last of them and before a fault (`segmented_script`).
-/

namespace RespClient

open Connection

/-! ## Cuts -/

/-- **A way a stream comes**: in these pieces, to a buffer of this size. -/
structure Cut where
  size : UInt64
  pieces : List Bytes
  positive : 0 < size.toNat
  filled : ∀ p ∈ pieces, p ≠ []

namespace Cut

/-- **What one piece is to reads** of at most `size` bytes. -/
def cutUp (size : Nat) : Bytes → List Bytes
  | [] => []
  | b :: bs => (b :: bs).take size :: cutUp size (bs.drop (size - 1))
termination_by bytes => bytes.length
decreasing_by
  rw [List.length_drop, List.length_cons]
  omega

/-- What is left of the pieces after a read from the first. -/
def leftover (size : Nat) (p : Bytes) (ps : List Bytes) : List Bytes :=
  if (p.drop size).isEmpty then ps else p.drop size :: ps

def portionsOf (size : Nat) (pieces : List Bytes) : List Bytes := pieces.flatMap (cutUp size)

/-- **What the reads find**, one after another. -/
def portions (cut : Cut) : List Bytes := portionsOf cut.size.toNat cut.pieces

/-- All that comes. -/
def stream (cut : Cut) : Bytes := cut.pieces.flatten

variable {size : Nat}

theorem cutUp_eq (hsize : 0 < size) {p : Bytes} (hp : p ≠ []) :
    cutUp size p = p.take size :: cutUp size (p.drop size) := by
  cases p with
  | nil => exact absurd rfl hp
  | cons b bs =>
    obtain ⟨n, rfl⟩ := Nat.exists_eq_succ_of_ne_zero hsize.ne'
    rw [cutUp]
    rfl

theorem flatten_cutUp (hsize : 0 < size) (p : Bytes) : (cutUp size p).flatten = p := by
  induction p using cutUp.induct size with
  | case1 => rw [cutUp]; rfl
  | case2 b bs ih =>
    obtain ⟨n, rfl⟩ := Nat.exists_eq_succ_of_ne_zero hsize.ne'
    rw [cutUp, List.flatten_cons, ih]
    exact List.take_append_drop (n + 1) (b :: bs)

/-- **A read takes from the first piece.** -/
theorem portionsOf_cons (hsize : 0 < size) {p : Bytes} (hp : p ≠ []) (ps : List Bytes) :
    portionsOf size (p :: ps) = p.take size :: portionsOf size (leftover size p ps) := by
  rw [portionsOf, List.flatMap_cons, cutUp_eq hsize hp, leftover]
  cases p.drop size with
  | nil => rw [cutUp]; rfl
  | cons b bs => rfl

theorem filled_leftover {p : Bytes} {ps : List Bytes} (hps : ∀ q ∈ ps, q ≠ []) :
    ∀ q ∈ leftover size p ps, q ≠ [] := by
  rw [leftover]
  split
  · exact hps
  · rename_i hleft
    exact List.forall_mem_cons.mpr ⟨fun hn => hleft (List.isEmpty_iff.mpr hn), hps⟩

theorem flatten_portionsOf (hsize : 0 < size) (pieces : List Bytes) :
    (portionsOf size pieces).flatten = pieces.flatten := by
  induction pieces with
  | nil => rfl
  | cons p ps ih =>
    rw [portionsOf, List.flatMap_cons, List.flatten_append, flatten_cutUp hsize, ← portionsOf, ih]
    rfl

/-- Reads find all that comes. -/
theorem flatten_portions (cut : Cut) : cut.portions.flatten = cut.stream :=
  flatten_portionsOf cut.positive cut.pieces

end Cut

/-! ## A connection that waits for one call -/

/-- Where nobody listens, values add nothing to what is to be written. -/
theorem Connection.dispatchAll_outbound {κ α : Type} {c : Connection κ α} (h : c.registry = .empty)
    (vs : List Value) : (c.dispatchAll vs).1.outbound = c.outbound := by
  induction vs generalizing c with
  | nil => rfl
  | cons v vs ih =>
    have hnone : (c.pushed? v).bind c.parting? = none := by
      cases c.pushed? v with
      | none => rfl
      | some push => rw [Option.bind_some, parting?, h]; rfl
    rw [dispatchAll]
    refine (ih (dispatch_registry_empty h v)).trans ?_
    rw [dispatch_outbound, hnone]
    rfl

/-- **A connection waits for the replies to one call**, some of which are in. -/
structure Connection.Awaits {α : Type} (c : Connection Nat α) (d : DataCall) (call : Nat)
    (got : List Value) : Prop where
  isOpen : c.isOpen
  fewer : got.length < d.commands.length
  correlates : ∃ o due, o.commands = d.commands ∧ o.handler? = some call ∧ o.outcome = d.outcome ∧
    Correlates c [o] got due

namespace Connection.Awaits

variable {α : Type} {c : Connection Nat α} {d : DataCall} {call : Nat} {got : List Value}

theorem registry (h : c.Awaits d call got) : c.registry = .empty := by
  obtain ⟨o, due, -, -, -, hdue⟩ := h.correlates
  exact hdue.registry

/-- Neither the bytes nor the decoder matter. -/
theorem congr (h : c.Awaits d call got) {c' : Connection Nat α} (hs : c'.stage = c.stage)
    (hr : c'.registry = c.registry) (hp : c'.pending = c.pending) (hb : c'.batches = c.batches)
    (hn : c'.nextBatch = c.nextBatch) (ha : c'.acksOwed = c.acksOwed) : c'.Awaits d call got := by
  obtain ⟨o, due, hcommands, hk, houtcome, hdue⟩ := h.correlates
  refine ⟨?_, h.fewer, o, due, hcommands, hk, houtcome, hdue.congr hr hp hb hn ha⟩
  rw [Connection.isOpen, hs]
  exact h.isOpen

end Connection.Awaits

/-- **What a call returns** for what it hears. -/
def DataCall.returned (d : DataCall) : Hearing → Except Failure Value
  | .enough values => .ok (d.outcome values)
  | .broken cause => .error (.protocol cause)
  | .silence => .error (.timeout .command)

namespace BlockingClient

variable {α : Type} {c : BlockingClient α} {d : DataCall} {call : Nat} {got : List Value}

/-- The replies to one order are handed over with the last of them. -/
theorem calls_singleton {o : Order Nat} (hk : o.handler? = some call) (replies : List Value) :
    calls [o] replies = if replies.length < o.commands.length then []
      else [(call, o.outcome (replies.take o.commands.length))] := by
  rw [calls, calls, List.append_nil, Order.calls, hk]
  rfl

/-- **Values come to a connection that waits**: the call's result is among the events exactly if they are
enough. -/
theorem resultOf_dispatchAll {c : Connection Nat α} (h : c.Awaits d call got) (vs : List Value) :
    if d.commands.length ≤ (got ++ vs).length then
      resultOf call (c.dispatchAll vs).2 = some (.ok (d.outcome ((got ++ vs).take d.commands.length)))
    else resultOf call (c.dispatchAll vs).2 = none ∧ (c.dispatchAll vs).1.Awaits d call (got ++ vs) := by
  obtain ⟨o, due, hcommands, hk, houtcome, hdue⟩ := h.correlates
  have hall : ([o].flatMap Order.commands).length = d.commands.length := by
    rw [List.flatMap_singleton, hcommands]
  have hfewer := h.fewer
  have hbefore : calls [o] got = [] := by rw [calls_singleton hk, hcommands, if_pos hfewer]
  split
  · rename_i henough
    -- the values that are waited for, and those behind them
    obtain ⟨own, rest, rfl, hown⟩ : ∃ own rest, vs = own ++ rest ∧
        (got ++ own).length = d.commands.length := by
      refine ⟨_, _, (List.take_append_drop (d.commands.length - got.length) vs).symm, ?_⟩
      rw [List.length_append] at henough ⊢
      rw [List.length_take]
      omega
    obtain ⟨due', ks, -, hevents, hcalls⟩ := hdue.dispatchAll (Nat.le_of_eq (hown.trans hall.symm))
    rw [hbefore, List.nil_append, calls_singleton hk, hcommands, hown, if_neg (Nat.lt_irrefl _),
      ← hown, List.take_length, houtcome] at hcalls
    rw [dispatchAll_append, resultOf_append, hevents, ← hcalls, ← List.append_assoc, ← hown,
      List.take_left]
    simp [resultOf]
  · rename_i hnot
    have hlen : (got ++ vs).length ≤ ([o].flatMap Order.commands).length := by
      rw [hall]
      exact Nat.le_of_not_le hnot
    obtain ⟨due', ks, hdue', hevents, hcalls⟩ := hdue.dispatchAll hlen
    rw [hbefore, List.nil_append, calls_singleton hk, hcommands, if_pos (Nat.not_le.mp hnot)] at hcalls
    refine ⟨by rw [hevents, ← hcalls]; rfl, ?_, Nat.not_le.mp hnot, o, due', hcommands, hk, houtcome,
      hdue'⟩
    exact (dispatchAll_stage c vs).1.trans h.isOpen

/-! ## A client that faces a stream -/

/-- **A client that faces a stream**: what its reads will find, and how much one of them takes. -/
def facing (c : BlockingClient α) (size : UInt64) (pieces : List Bytes) : BlockingClient α :=
  { c with
      config := { c.config with readBufferSize := size }
      transport := { c.transport with reads := pieces.map .data } }

/-- **A client waits for the replies to one call**, and nothing comes but what is laid out. -/
structure Waiting (c : BlockingClient α) (d : DataCall) (call : Nat) (got : List Value) : Prop where
  attached : c.attached
  buffer : c.buffer = []
  silent : c.transport.peer.script = []
  awaits : c.connection.Awaits d call got

/-- **A stream takes all that is written.** -/
def Takes (c : BlockingClient α) : Prop := c.transport.writes = [] ∧ c.transport.peer.hungUp = false

/-- To one that sends nothing more, a write is the same whatever will be read. -/
theorem write_reads {t : Transport} (h : t.peer.script = []) (reads : List Inbound) (offered : Bytes) :
    ({ t with reads } : Transport).write offered
        = ((t.write offered).1, { (t.write offered).2 with reads }) ∧
      (t.write offered).2.peer.script = [] ∧
      (t.writes = [] ∧ t.peer.hungUp = false → (t.write offered).1 = .ok offered.length ∧
        (t.write offered).2.writes = [] ∧ (t.write offered).2.peer.hungUp = false) := by
  obtain ⟨reads', writes, ⟨script, heard, matched, hungUp⟩, accesses, closes⟩ := t
  obtain rfl : script = [] := h
  cases hungUp with
  | true => exact ⟨rfl, rfl, fun ht => Bool.noConfusion ht.2⟩
  | false =>
    cases writes with
    | nil =>
      refine ⟨?_, rfl, fun _ => ⟨rfl, rfl, rfl⟩⟩
      simp [Transport.write, Transport.accept, Peer.hear, Peer.respond]
    | cons w ws =>
      cases w with
      | takes n =>
        refine ⟨?_, rfl, fun ht => by cases ht.1⟩
        simp [Transport.write, Transport.accept, Peer.hear, Peer.respond]
      | fault f => exact ⟨rfl, rfl, fun ht => by cases ht.1⟩

theorem fatal_facing (c : BlockingClient α) (failure : Failure) (size : UInt64) (pieces : List Bytes) :
    ((c.facing size pieces).fatal failure : Done α Nat)
      = (.error failure, (c.fatal failure : Done α Nat).2.1.facing size pieces,
        (c.fatal failure : Done α Nat).2.2) := by
  unfold fatal detach facing
  cases c.attached <;> rfl

/-- **Writing does not depend on what will be read.** -/
theorem writeOnce_facing (h : c.transport.peer.script = []) (size : UInt64) (pieces : List Bytes) :
    (c.facing size pieces).writeOnce
      = (c.writeOnce.1, c.writeOnce.2.1.facing size pieces, c.writeOnce.2.2) := by
  have hwrite : (c.facing size pieces).transport.write (c.facing size pieces).connection.outbound
      = ((c.transport.write c.connection.outbound).1,
        { (c.transport.write c.connection.outbound).2 with reads := pieces.map .data }) :=
    (write_reads h _ _).1
  have hfatal (t : Transport) (failure : Failure) :=
    fatal_facing { c with transport := t } failure size pieces
  rw [writeOnce, writeOnce, hwrite]
  rcases c.transport.write c.connection.outbound with ⟨fault | n, t⟩
  · dsimp only
    split
    · rfl
    · rw [faulted, faulted]
      split
      · rfl
      · exact hfatal t _
  · cases n with
    | zero => exact hfatal t _
    | succ n => rfl

/-- **A write that goes well** leaves the client waiting. -/
theorem Waiting.written (h : c.Waiting d call got) {n : Nat} {e : BlockingClient α} {log : Log α}
    (hs : c.writeOnce = (.ok n, e, log)) :
    log = [] ∧ e.Waiting d call got ∧ e.connection.decoder = c.connection.decoder ∧
      e.config = c.config ∧ (c.Takes → e.Takes) := by
  obtain ⟨-, hsilent, htakes⟩ := write_reads h.silent [] c.connection.outbound
  rw [writeOnce] at hs
  rcases hw : c.transport.write c.connection.outbound with ⟨fault | _ | m, t⟩
  · rw [hw] at hs hsilent htakes
    dsimp only at hs hsilent htakes
    split at hs
    · cases hs
      exact ⟨rfl, ⟨h.attached, h.buffer, hsilent, h.awaits⟩, rfl, rfl, fun ht => (htakes ht).2⟩
    · exact (faulted_not_ok hs).elim
  · rw [hw] at hs
    exact (fatal_not_ok hs).elim
  · rw [hw] at hs hsilent htakes
    cases hs
    exact ⟨rfl, ⟨h.attached, h.buffer, hsilent, h.awaits.congr rfl rfl rfl rfl rfl rfl⟩, rfl, rfl,
      fun ht => (htakes ht).2⟩

/-- Where all is taken, no write fails. -/
theorem Takes.writeOnce (ht : c.Takes) (h : c.transport.peer.script = [])
    (hout : c.connection.outbound ≠ []) : ∃ e log, c.writeOnce = (.ok 0, e, log) := by
  obtain ⟨-, -, htakes⟩ := write_reads h [] c.connection.outbound
  obtain ⟨m, hm⟩ := Nat.exists_eq_succ_of_ne_zero (List.length_pos_iff.mpr hout).ne'
  have hall := (htakes ht).1
  rw [hm] at hall
  rw [BlockingClient.writeOnce]
  rcases hw : c.transport.write c.connection.outbound with ⟨result, t⟩
  rw [hw] at hall
  obtain rfl : result = .ok (m + 1) := hall
  exact ⟨_, _, rfl⟩

/-! ## The values come -/

theorem wait_error {failure : Failure} {e : BlockingClient α} {log : Log α}
    (hs : c.step (expires c.config.commandTimeout) = (.error failure, e, log)) :
    (c.wait call none).1 = .error failure := by
  rw [wait]
  split
  · rename_i hs'
    cases hs.symm.trans hs'
  · rename_i hs'
    cases hs.symm.trans hs'
    rfl

theorem wait_ok {n : Nat} {e : BlockingClient α} {log : Log α}
    (hs : c.step (expires c.config.commandTimeout) = (.ok n, e, log)) :
    (c.wait call none).1 = (e.wait call (resultOf call log)).1 := by
  rw [wait]
  split
  · rename_i hs'
    cases hs.symm.trans hs'
    rfl
  · rename_i hs'
    cases hs.symm.trans hs'

/-- **A read takes from the first piece**, and what it finds is fed. -/
theorem readOnce_facing (hb : c.buffer = []) {size : UInt64} (hsize : 0 < size.toNat) {p : Bytes}
    (hp : p ≠ []) (ps : List Bytes) :
    (c.facing size (p :: ps)).readOnce =
      let fed := c.connection.feed (p.take size.toNat)
      let read : Access := .read ⟨size.toNat, some (.data p)⟩
      let e := { c with
        connection := fed.turn.1, buffer := fed.rest,
        transport := { c.transport with accesses := c.transport.accesses.push read } }.facing size
          (Cut.leftover size.toNat p ps)
      match fed.result with
      | .ok n => (.ok n, e, fed.turn.2)
      | .error failure => (.error failure, e.detach, fed.turn.2) := by
  have hleft : (if (p.drop size.toNat).isEmpty then [] else [Inbound.data (p.drop size.toNat)])
      ++ ps.map Inbound.data = (Cut.leftover size.toNat p ps).map .data := by
    rw [Cut.leftover]
    split <;> rfl
  have hread : (c.facing size (p :: ps)).transport.read size.toNat
      = (.ok (p.take size.toNat), { c.transport with
          reads := (Cut.leftover size.toNat p ps).map .data
          accesses := c.transport.accesses.push (.read ⟨size.toNat, some (.data p)⟩) }) := by
    rw [← hleft]
    rfl
  have hne : p.take size.toNat ≠ [] := by
    rw [ne_eq, List.take_eq_nil_iff, not_or]
    exact ⟨hsize.ne', hp⟩
  rw [readOnce, show (c.facing size (p :: ps)).config.readBufferSize = size from rfl, hread]
  rcases htake : p.take size.toNat with _ | ⟨b, bs⟩
  · exact absurd htake hne
  · dsimp only
    rw [show (c.facing size (p :: ps)).buffer = [] from hb]
    rfl

/-- While there is time, a step writes or reads. -/
theorem step_soon {c : BlockingClient α} (ha : c.attached)
    (hsoon : expires c.config.commandTimeout = false) :
    c.step (expires c.config.commandTimeout)
      = if c.connection.outbound = [] then c.readOnce else c.writeOnce := by
  rw [step, hsoon, ha]
  simp

theorem step_reads (h : c.Waiting d call got) (hsoon : expires c.config.commandTimeout = false)
    (hout : c.connection.outbound = []) (size : UInt64) (pieces : List Bytes) :
    (c.facing size pieces).step (expires (c.facing size pieces).config.commandTimeout)
      = (c.facing size pieces).readOnce :=
  (step_soon (c := c.facing size pieces) h.attached hsoon).trans (if_pos hout)

theorem step_writes (h : c.Waiting d call got) (hsoon : expires c.config.commandTimeout = false)
    (hout : c.connection.outbound ≠ []) (size : UInt64) (pieces : List Bytes) :
    (c.facing size pieces).step (expires (c.facing size pieces).config.commandTimeout)
      = (c.writeOnce.1, c.writeOnce.2.1.facing size pieces, c.writeOnce.2.2) :=
  (step_soon (c := c.facing size pieces) h.attached hsoon).trans
    ((if_neg hout).trans (writeOnce_facing h.silent size pieces))

/-- **What a call that has written all returns** is what it hears. -/
theorem wait_reading (h : c.Waiting d call got) (hout : c.connection.outbound = [])
    (hsoon : expires c.config.commandTimeout = false) {size : UInt64} (hsize : 0 < size.toNat)
    {pieces : List Bytes} (hfilled : ∀ p ∈ pieces, p ≠ []) :
    ((c.facing size pieces).wait call none).1 = d.returned
      (c.connection.decoder.hear d.commands.length got (Cut.portionsOf size.toNat pieces)) := by
  induction hrs : Cut.portionsOf size.toNat pieces generalizing c got pieces with
  | nil =>
    cases pieces with
    | nil => exact wait_error ((step_reads h hsoon hout size []).trans rfl)
    | cons p ps =>
      rw [Cut.portionsOf_cons hsize (hfilled p List.mem_cons_self)] at hrs
      cases hrs
  | cons r rs ih =>
    cases pieces with
    | nil => cases hrs
    | cons p ps =>
      rw [List.forall_mem_cons] at hfilled
      rw [Cut.portionsOf_cons hsize hfilled.1] at hrs
      obtain ⟨rfl, hmore⟩ := List.cons.inj hrs
      have hclosed : c.connection.stage ≠ .closed := fun hn =>
        not_isOpen_of_closed hn h.awaits.isOpen
      have hfirst := (step_reads h hsoon hout size (p :: ps)).trans
        (readOnce_facing h.buffer hsize hfilled.1 ps)
      obtain ⟨hrest, hfault⟩ := feed_ends hclosed (p.take size.toNat)
      obtain ⟨hturn, hcount⟩ := feed_eq hclosed (p.take size.toNat)
      dsimp only at hfirst
      rw [Decoder.hear]
      cases hf : c.connection.decoder.fault? (p.take size.toNat) with
      | some cause =>
        rw [hfault cause hf] at hfirst
        exact wait_error hfirst
      | none =>
        rw [hcount hf, hturn, hf, hrest] at hfirst
        rw [wait_ok hfirst]
        have hvalues := resultOf_dispatchAll h.awaits (c.connection.decoder.values (p.take size.toNat))
        dsimp only [stop]
        rw [List.append_nil]
        split at hvalues
        · rename_i henough
          rw [hvalues, wait_some, if_pos henough]
          rfl
        · rename_i hnot
          obtain ⟨hnone, hwaits⟩ := hvalues
          rw [hnone, if_neg hnot]
          let e : BlockingClient α := { c with
            connection := (c.connection.dispatchAll (c.connection.decoder.values (p.take size.toNat))).1.reading
              (c.connection.decoder.after (p.take size.toNat))
            buffer := []
            transport := { c.transport with
              accesses := c.transport.accesses.push (.read ⟨size.toNat, some (.data p)⟩) } }
          have hnext : e.Waiting d call
              (got ++ c.connection.decoder.values (p.take size.toNat)) :=
            ⟨h.attached, rfl, h.silent, hwaits.congr rfl rfl rfl rfl rfl rfl⟩
          have hwritten : e.connection.outbound = [] :=
            (dispatchAll_outbound h.awaits.registry _).trans hout
          exact ih hnext hwritten hsoon (Cut.filled_leftover hfilled.2) hmore

/-- **What a call that waits returns**: a failure that does not depend on the stream, or what it hears. -/
theorem wait_facing (h : c.Waiting d call got) :
    (∃ failure, (∀ size pieces, ((c.facing size pieces).wait call none).1 = .error failure) ∧
      ¬ (c.Takes ∧ expires c.config.commandTimeout = false)) ∨
    ∀ cut : Cut, ((c.facing cut.size cut.pieces).wait call none).1 = d.returned
      (c.connection.decoder.hear d.commands.length got cut.portions) := by
  by_cases hsoon : expires c.config.commandTimeout
  · refine .inl ⟨.timeout .command, fun size pieces => ?_, fun hn => ?_⟩
    · have hlate : (c.facing size pieces).step (expires (c.facing size pieces).config.commandTimeout)
          = (.error (.timeout .command), c.facing size pieces, []) := if_pos hsoon
      exact wait_error hlate
    · exact Bool.noConfusion (hn.2.symm.trans hsoon)
  rw [Bool.not_eq_true] at hsoon
  induction c using course_induction false (hasResult call) with
  | fails c failure e log hs =>
    by_cases hout : c.connection.outbound = []
    · exact .inr fun cut => wait_reading h hout hsoon cut.positive cut.filled
    · rw [← hsoon, step_soon h.attached hsoon, if_neg hout] at hs
      refine .inl ⟨failure, fun size pieces => ?_, fun ht => ?_⟩
      · have hfails := step_writes h hsoon hout size pieces
        rw [hs] at hfails
        exact wait_error hfails
      · obtain ⟨e', log', htaken⟩ := ht.1.writeOnce h.silent hout
        cases hs.symm.trans htaken
  | goesOn c n e log hs ih =>
    by_cases hout : c.connection.outbound = []
    · exact .inr fun cut => wait_reading h hout hsoon cut.positive cut.filled
    · rw [← hsoon, step_soon h.attached hsoon, if_neg hout] at hs
      obtain ⟨rfl, hnext, hdecoder, hconfig, htakes⟩ := h.written hs
      have hwait (size : UInt64) (pieces : List Bytes) : ((c.facing size pieces).wait call none).1
          = ((e.facing size pieces).wait call none).1 := by
        have hgoes := step_writes h hsoon hout size pieces
        rw [hs] at hgoes
        exact wait_ok hgoes
      simp only [hwait, ← hdecoder]
      rw [← hconfig] at hsoon ⊢
      obtain ⟨failure, hfails, htaken⟩ | hears := ih rfl hnext hsoon
      · exact .inl ⟨failure, hfails, fun ht => htaken ⟨htakes ht.1, ht.2⟩⟩
      · exact .inr hears

/-! ## A call -/

/-- The same result, up to the number of bytes seen of a line too long. -/
inductive Returned.Alike : Returned → Returned → Prop
  | same (r : Returned) : Alike r r
  | malformed {a b : Malformed} (h : a.Alike b) :
    Alike (.value (.error (.protocol a))) (.value (.error (.protocol b)))

/-- Whether it is a value. -/
def Returned.isValue : Returned → Bool
  | .value (.ok _) => true
  | _ => false

theorem Returned.Alike.isValue {r s : Returned} (h : r.Alike s) : r.isValue = s.isValue := by
  cases h <;> rfl

theorem isValue_returned (d : DataCall) (h : Hearing) :
    (Returned.value (d.returned h)).isValue = h.isEnough := by
  cases h <;> rfl

theorem alike_returned (d : DataCall) {h k : Hearing} (hk : h.Alike k) :
    (Returned.value (d.returned h)).Alike (.value (d.returned k)) := by
  cases hk with
  | enough values => exact .same _
  | broken ha => exact .malformed ha
  | silence => exact .same _

/-- **A client that has nothing open**: nobody listens, no reply is due, and nothing comes but what is
laid out. -/
structure Idle (c : BlockingClient α) : Prop where
  isOpen : c.connection.isOpen
  registry : c.connection.registry = .empty
  pending : c.connection.pending = []
  silent : c.transport.peer.script = []

/-- **What a call returns** over a stream that comes so. -/
def returns (c : BlockingClient α) (d : DataCall) (cut : Cut) : Returned :=
  ((c.facing cut.size cut.pieces).invoke d.invocation).1

/-- **A read ends cleanly** behind the last reply to a call. -/
def Clean (c : BlockingClient α) (d : DataCall) (cut : Cut) : Prop :=
  c.connection.decoder.Clean d.commands.length [] cut.portions

/-- Nothing is asked for. -/
theorem returns_nothing (ho : c.connection.isOpen) (cut : Cut) :
    c.returns (.many []) cut = .value (.ok (.array [])) := by
  have hbatch : c.connection.submitBatch [] c.nextCall
      = (c.connection, [.replied c.nextCall (.ok (.array []))]) := by
    rw [submitBatch, closedTo?, if_pos ho]
    rfl
  have hawait : ((c.facing cut.size cut.pieces).await (c.connection.submitBatch [] c.nextCall)).1
      = .ok (.array []) := by
    have hresult : resultOf c.nextCall ([.replied c.nextCall (.ok (.array []))] : Log α)
        = some (.ok (.array [])) := by
      simp [resultOf]
    rw [await, hbatch, show (c.facing cut.size cut.pieces).nextCall = c.nextCall from rfl, hresult,
      wait_some]
    rfl
  exact congrArg Returned.value hawait

/-- **A client that asks** waits for the replies. -/
theorem Standing.waiting (h : c.Standing) (hi : c.Idle) (hd : d.commands ≠ []) :
    (c.asking d).Waiting d c.nextCall [] ∧
      (c.asking d).connection.decoder = c.connection.decoder ∧
      ∀ cut : Cut, c.returns d cut
        = .value (((c.asking d).facing cut.size cut.pieces).wait c.nextCall none).1 := by
  have hsolitary : c.connection.Solitary := ⟨h.tidy, hi.registry⟩
  obtain ⟨due, howes, -⟩ := h.accounted
  obtain rfl := howes.due_eq_nil hi.pending
  have hbefore : Correlates c.connection [] [] [] := ⟨hi.registry, howes.acks, howes, [], rfl, .start⟩
  obtain ⟨due, hdue⟩ := hbefore.ask (d.asks_op c.nextCall) (d.isPlain_op c.nextCall)
  have heffect := perform_effect c.connection (d.asks_op c.nextCall)
  have hopen := (perform_stage c.connection (d.asks_op c.nextCall)).1 hi.isOpen
  obtain ⟨o, ho⟩ : ∃ o, (d.op c.nextCall : Op Nat α).order? = some o := by
    cases d with
    | one command => exact ⟨_, rfl⟩
    | many commands =>
      obtain ⟨command, commands, rfl⟩ := List.exists_cons_of_ne_nil hd
      exact ⟨_, rfl⟩
  obtain ⟨hcommands, hk, houtcome⟩ := DataCall.order?_op ho
  rw [hsolitary.order?_eq hi.isOpen (d.isPlain_op c.nextCall), ho] at hdue heffect
  refine ⟨⟨h.attached.trans hi.isOpen, h.buffer, hi.silent, hopen, List.length_pos_iff.mpr hd, o, due,
    hcommands, hk, houtcome, hdue⟩, heffect.places.decoder, fun cut => ?_⟩
  -- the order is placed, so nobody is called at once
  have hnone : resultOf c.nextCall (c.connection.perform (d.op c.nextCall)).2 = none := by
    rw [resultOf_eq_none_iff, heffect.calls]
    exact List.not_mem_nil
  have hawait : ((c.facing cut.size cut.pieces).await (c.connection.perform (d.op c.nextCall))).1
      = (((c.asking d).facing cut.size cut.pieces).wait c.nextCall none).1 := by
    rw [await, show (c.facing cut.size cut.pieces).nextCall = c.nextCall from rfl, hnone]
    rfl
  rw [returns, invoke_invocation]
  exact congrArg Returned.value hawait

/-! ## One cut matters -/

/-- **What the way a stream comes has to do with the result of a call.** -/
structure Segmented (c : BlockingClient α) (d : DataCall) (a b : Cut) : Prop where
  /-- The results are alike if a read ends cleanly behind the last reply in both cuts, or in neither, … -/
  alike : (c.Clean d a ↔ c.Clean d b) → (c.returns d a).Alike (c.returns d b)
  /-- … so always, if the stream is well formed or the replies are not all in it; … -/
  sound : c.connection.decoder.fault? a.stream = none ∨
    (c.connection.decoder.values a.stream).length < d.commands.length →
      (c.returns d a).Alike (c.returns d b)
  /-- … and only then, if the call can be written and there is time. -/
  only : c.Takes → expires c.config.commandTimeout = false →
    (c.returns d a).Alike (c.returns d b) → (c.Clean d a ↔ c.Clean d b)

/-- **Two cuts agree** on the replies, if the stream is well formed or the replies are not all in it. -/
theorem clean_iff {a b : Cut} (hstream : a.stream = b.stream)
    (h : c.connection.decoder.fault? a.stream = none ∨
      (c.connection.decoder.values a.stream).length < d.commands.length) :
    c.Clean d a ↔ c.Clean d b := by
  rw [← a.flatten_portions] at h
  have hportions : a.portions.flatten = b.portions.flatten :=
    a.flatten_portions.trans (hstream.trans b.flatten_portions.symm)
  obtain hsound | hfew := h
  · rw [Clean, Clean, Decoder.clean_iff_of_sound hsound,
      Decoder.clean_iff_of_sound (hportions ▸ hsound), hportions]
  · exact iff_of_false (Decoder.not_clean_of_lt hfew)
      (Decoder.not_clean_of_lt (hportions ▸ hfew))

/-- **The result of a call for data does not depend on where the stream is cut**, except for one cut: for
every client that calls lead to and that has nothing open. -/
theorem segmented_script (config : Config) (is : List (Invocation α)) (d : DataCall) {a b : Cut}
    (hstream : a.stream = b.stream) :
    let c : BlockingClient α := ((new config).script is).2.1
    c.Idle → c.Segmented d a b := by
  intro c hi
  have hstands : c.Standing := standing_script config is
  have hportions : a.portions.flatten = b.portions.flatten :=
    a.flatten_portions.trans (hstream.trans b.flatten_portions.symm)
  by_cases hd : d.commands = []
  · -- nothing is asked for, and nothing is waited for
    obtain rfl : d = .many [] := by
      cases d with
      | one command => cases hd
      | many commands => exact congrArg DataCall.many hd
    have hsame : (c.returns (.many []) a).Alike (c.returns (.many []) b) := by
      rw [returns_nothing hi.isOpen, returns_nothing hi.isOpen]
      exact .same _
    have hclean (cut : Cut) : c.Clean (.many []) cut := ⟨0, Nat.zero_le _, (Decoder.read_nil _).2.1⟩
    exact ⟨fun _ => hsame, fun _ => hsame, fun _ _ _ => iff_of_true (hclean a) (hclean b)⟩
  · obtain ⟨hwaits, hdecoder, hreturns⟩ := hstands.waiting hi hd
    have hlt : ([] : List Value).length < d.commands.length := List.length_pos_iff.mpr hd
    have halike : (c.Clean d a ↔ c.Clean d b) → (c.returns d a).Alike (c.returns d b) := by
      intro hiff
      rw [hreturns, hreturns]
      obtain ⟨failure, hfails, -⟩ | hhears := wait_facing hwaits
      · rw [hfails, hfails]
        exact .same _
      · rw [hhears, hhears, hdecoder]
        exact alike_returned d ((Decoder.hear_alike_iff hlt hportions).mpr hiff)
    refine ⟨halike, fun h => halike (clean_iff hstream h), fun htakes hsoon hsame => ?_⟩
    rw [hreturns, hreturns] at hsame
    obtain ⟨failure, -, hnot⟩ | hhears := wait_facing hwaits
    · exact absurd ⟨htakes, hsoon⟩ hnot
    · rw [hhears, hhears, hdecoder] at hsame
      have hvalue := hsame.isValue
      rw [isValue_returned, isValue_returned] at hvalue
      rw [Clean, Clean, ← Decoder.isEnough_hear hlt, ← Decoder.isEnough_hear hlt, hvalue]

/-- A client just connected. -/
def fresh : BlockingClient Nat := ((new {}).script [.connectOver {}]).2.1

theorem idle_fresh : fresh.Idle := ⟨by decide +kernel, rfl, rfl, rfl⟩

def ping : DataCall := .one ⟨Utf8.encode "PING", []⟩

/-- The reply and a byte that begins no reply, in one piece. -/
def joined : Cut := ⟨4096, [Utf8.encode "+OK\r\n?"], by decide, by decide +kernel⟩

/-- The same in two. -/
def parted : Cut := ⟨4096, [Utf8.encode "+OK\r\n", Utf8.encode "?"], by decide, by decide +kernel⟩

theorem segmented_fresh :
    joined.stream = parted.stream ∧ fresh.Idle ∧ fresh.Segmented ping joined parted := by
  have hstream : joined.stream = parted.stream := by decide +kernel
  exact ⟨hstream, idle_fresh, segmented_script {} [.connectOver {}] ping hstream idle_fresh⟩

/-- What a client just connected returns is what it hears. -/
theorem returns_fresh (cut : Cut) :
    fresh.returns ping cut = .value (ping.returned (Decoder.empty.hear 1 [] cut.portions)) := by
  have hstands : fresh.Standing := standing_script {} [.connectOver {}]
  obtain ⟨hwaits, hdecoder, hreturns⟩ := hstands.waiting idle_fresh (d := ping) (List.cons_ne_nil _ _)
  rw [hreturns]
  obtain ⟨failure, -, hnot⟩ | hhears := wait_facing hwaits
  · exact absurd ⟨⟨rfl, rfl⟩, rfl⟩ hnot
  · rw [hhears, hdecoder]
    rfl

/-- **A read that goes wrong behind the reply** takes the reply from the call: the same bytes come to a
failure in one piece, and to the reply in two. -/
theorem not_alike_joined :
    fresh.Idle ∧ fresh.connection.decoder = .empty ∧ joined.stream = parted.stream ∧
      fresh.returns ping joined = .value (.error (.protocol (.typeByte 63))) ∧
      fresh.returns ping parted = .value (.ok (.bytes (Utf8.encode "OK"))) ∧
      ¬ (fresh.returns ping joined).Alike (fresh.returns ping parted) := by
  have hjoined : Decoder.empty.hear 1 [] joined.portions = .broken (.typeByte 63) := by decide +kernel
  have hparted : Decoder.empty.hear 1 [] parted.portions = .enough [.bytes (Utf8.encode "OK")] := by
    decide +kernel
  rw [returns_fresh, returns_fresh, hjoined, hparted]
  exact ⟨idle_fresh, rfl, by decide +kernel, rfl, rfl, fun h => Bool.noConfusion h.isValue⟩

end BlockingClient

end RespClient
