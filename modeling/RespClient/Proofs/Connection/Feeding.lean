import RespClient.Proofs.Connection.Operation
import Mathlib.Algebra.Ring.Nat

/-!
# Proofs/Connection/Feeding — chunks come to the values of the stream

    feed s₁, feed s₂, …  =  dispatch the values of s₁ ++ s₂ ++ …, then fail if the stream is malformed

What a value does depends on the connection it meets, and it may change the connection for the next; but
never the decoder.  So the stream can be decoded first and dispatched then (`dispatched`), and where it is
cut plays no part (`feed_pieces`).  A chunk that meets malformed bytes closes the connection, and those
behind it find it closed (`feedAll_closed`).
-/

namespace RespClient.Connection

variable {κ α : Type}

/-- **Chunks are fed** one after another: what each of them comes to. -/
def feedAll (c : Connection κ α) : List Bytes → List (Fed κ α)
  | [] => []
  | s :: ss => c.feed s :: (c.feed s).turn.1.feedAll ss

/-- **The stream is decoded, then its values are dispatched**, and the connection fails for the cause
seen, if one is. -/
def dispatched (c : Connection κ α) (s : Bytes) (seen? : Option Malformed) : Turn κ α :=
  let turn := c.dispatchAll (c.decoder.values s)
  let last := (turn.1.reading (c.decoder.after s)).stop seen?
  (last.1, turn.2 ++ last.2)

/-! ## One chunk -/

theorem feed_dispatched {c : Connection κ α} (hc : c.stage ≠ .closed) (s : Bytes) :
    (c.feed s).turn = c.dispatched s (c.decoder.fault? s) := (feed_eq hc s).1

/-- **A feed leaves nothing over**, and returns the fault, if there is one. -/
theorem feed_ends {c : Connection κ α} (hc : c.stage ≠ .closed) (input : Bytes) :
    (c.feed input).rest = [] ∧ ∀ cause, c.decoder.fault? input = some cause →
      (c.feed input).result = .error (.protocol cause) := by
  induction hd : c.decoder, input using Decoder.reading_induction generalizing c with
  | nil d =>
    rw [feed_nil, (Decoder.read_nil d).2.1]
    exact ⟨rfl, nofun⟩
  | stopped d e input rest outcome hi hp ho =>
    rw [(Decoder.read_stopped hi hp ho).2.1]
    rcases outcome with _ | _ | cause
    · exact absurd rfl ho
    · rw [feed_incomplete hc hi (hd ▸ hp)]
      exact ⟨Decoder.rest_of_incomplete hp, nofun⟩
    · rw [feed_failed hc hi (hd ▸ hp)]
      refine ⟨rfl, fun a ha => ?_⟩
      obtain rfl : cause = a := Option.some.inj ha
      rfl
  | value d e input rest v hi hp hv ih =>
    rw [(Decoder.read_value hi hp hv).2.1, feed_value hc hi (hd ▸ hp) hv]
    have hstage : ((c.reading ⟨.start, e.frames⟩).dispatch v).1.stage ≠ .closed := fun h =>
      hc ((dispatch_stage (c.reading ⟨.start, e.frames⟩) v).2.mp h)
    obtain ⟨hrest, hfault⟩ := ih hstage (dispatch_decoder _ v)
    refine ⟨hrest, fun cause hcause => ?_⟩
    dsimp only
    rw [hfault cause hcause]
    rfl

/-- A closed connection takes no chunk. -/
theorem feed_of_closed {c : Connection κ α} (hc : c.stage = .closed) {s : Bytes} (hs : s ≠ []) :
    c.feed s = ⟨.error .connectionClosed, [], c, []⟩ := by
  rw [feed, if_neg (by simpa using hs), if_pos hc]

/-- **Nothing happens to a closed connection.** -/
theorem feedAll_closed {c : Connection κ α} (hc : c.stage = .closed) {ss : List Bytes}
    (hss : ∀ s ∈ ss, s ≠ []) :
    (∀ fed ∈ c.feedAll ss, fed.result = .error .connectionClosed ∧ fed.rest = [] ∧
      fed.turn = (c, [])) ∧ c.run (ss.map .feed) = (c, []) := by
  induction ss with
  | nil => exact ⟨fun fed hfed => absurd hfed List.not_mem_nil, rfl⟩
  | cons s ss ih =>
    rw [List.forall_mem_cons] at hss
    obtain ⟨ihfeeds, ihrun⟩ := ih hss.2
    have hfeed := feed_of_closed hc hss.1
    constructor
    · rw [feedAll, List.forall_mem_cons, hfeed]
      exact ⟨⟨rfl, rfl, rfl⟩, ihfeeds⟩
    · rw [List.map_cons, run, perform, hfeed]
      dsimp only
      rw [ihrun]
      rfl

/-! ## Chunk after chunk -/

theorem dispatchAll_append (c : Connection κ α) (vs ws : List Value) :
    c.dispatchAll (vs ++ ws) = (((c.dispatchAll vs).1.dispatchAll ws).1,
      (c.dispatchAll vs).2 ++ ((c.dispatchAll vs).1.dispatchAll ws).2) := by
  induction vs generalizing c with
  | nil => rfl
  | cons v vs ih =>
    rw [List.cons_append, dispatchAll, dispatchAll, ih, List.append_assoc]

/-- How a failure ends the connection does not depend on the decoder. -/
theorem fail_reading {c : Connection κ α} (hc : c.stage ≠ .closed) (d : Decoder)
    (failure : Failure) : (c.reading d).fail failure = c.fail failure := by
  obtain ⟨hbatches, hevents⟩ := failAll_congr failure c.pending (c := c.reading d) (d := c) rfl
  rw [fail_eq hc, fail_eq (c := c.reading d) hc]
  dsimp only [reading] at hbatches hevents ⊢
  rw [hbatches, hevents]
  rfl

/-- Where reading stops at a fault, the decoder plays no part. -/
theorem stop_reading {c : Connection κ α} (hc : c.stage ≠ .closed) {d e : Decoder}
    {seen? : Option Malformed} (h : seen? = none → d = e) :
    (c.reading d).stop seen? = (c.reading e).stop seen? := by
  rcases seen? with _ | cause
  · rw [h rfl]
  · exact (fail_reading hc d _).trans (fail_reading hc e _).symm

theorem dispatchAll_open {c : Connection κ α} (hc : c.stage ≠ .closed) (vs : List Value) :
    (c.dispatchAll vs).1.stage ≠ .closed := fun h => hc ((dispatchAll_stage c vs).2.mp h)

/-- Bytes behind a fault change nothing. -/
theorem dispatched_of_fault {c : Connection κ α} (hc : c.stage ≠ .closed) {s : Bytes}
    {cause : Malformed} (hs : c.decoder.fault? s = some cause) (t : Bytes) :
    c.dispatched (s ++ t) (some cause) = c.dispatched s (some cause) := by
  have hne : some cause = none → c.decoder.after (s ++ t) = c.decoder.after s := nofun
  have hstop := stop_reading (dispatchAll_open hc (c.decoder.values s)) hne
  rw [dispatched, dispatched, (Decoder.read_append_of_fault hs t).1, hstop]

theorem dispatched_none (c : Connection κ α) (s : Bytes) : c.dispatched s none =
    ((c.dispatchAll (c.decoder.values s)).1.reading (c.decoder.after s),
      (c.dispatchAll (c.decoder.values s)).2) := by
  rw [dispatched, stop, List.append_nil]

/-- What a connection does with the stream that another decoder reads. -/
theorem dispatched_reading (c : Connection κ α) (d : Decoder) (s : Bytes)
    (seen? : Option Malformed) : (c.reading d).dispatched s seen? =
      ((((c.dispatchAll (d.values s)).1.reading (d.after s)).stop seen?).1,
        (c.dispatchAll (d.values s)).2 ++
          (((c.dispatchAll (d.values s)).1.reading (d.after s)).stop seen?).2) := by
  rw [dispatched, dispatchAll_reading]
  rfl

/-- **Decoding and dispatching goes piece by piece.** -/
theorem dispatched_append {c : Connection κ α} (hc : c.stage ≠ .closed) {s t : Bytes}
    {seen? : Option Malformed} (hs : c.decoder.fault? s = none)
    (hd : seen? = none → c.decoder.after (s ++ t) = (c.decoder.after s).after t) :
    c.dispatched (s ++ t) seen? =
      (((c.dispatched s none).1.dispatched t seen?).1,
        (c.dispatched s none).2 ++ ((c.dispatched s none).1.dispatched t seen?).2) := by
  have hv := (Decoder.read_append hs t).1
  have hopen := dispatchAll_open (dispatchAll_open hc (c.decoder.values s))
    ((c.decoder.after s).values t)
  rw [dispatched_none, dispatched_reading, dispatched, hv, dispatchAll_append,
    stop_reading hopen hd, List.append_assoc]

/-- **What chunks of a stream come to**, of what each of them came to and of their turns as one. -/
structure Streamed (c : Connection κ α) (s : Bytes) (feeds : List (Fed κ α)) (turn : Turn κ α) :
    Prop where
  /-- Each chunk is used up. -/
  drained : ∀ fed ∈ feeds, fed.rest = []
  /-- Without a fault, the values of the stream are dispatched, and each of them was counted once. -/
  whole : c.decoder.fault? s = none → turn = c.dispatched s none ∧
    ∃ counts : List Nat, feeds.map Fed.result = counts.map .ok ∧
      counts.sum = (c.decoder.values s).length
  /-- At a fault, the values before it are dispatched and the connection fails, once; for the chunks
  behind, it is closed. -/
  broken : ∀ cause, c.decoder.fault? s = some cause → ∃ seen, cause.Alike seen ∧
    turn = c.dispatched s (some seen) ∧
    ∃ before last behind, feeds = before ++ last :: behind ∧
      (∀ fed ∈ before, ∃ n, fed.result = .ok n) ∧ last.result = .error (.protocol seen) ∧
      ∀ fed ∈ behind, fed.result = .error .connectionClosed ∧ fed.turn = (turn.1, [])

theorem Streamed.nil (c : Connection κ α) : Streamed c [] [] (c, []) := by
  obtain ⟨hv, hf, hd⟩ := Decoder.read_nil c.decoder
  refine ⟨fun fed hfed => absurd hfed List.not_mem_nil, fun _ => ⟨?_, [], rfl, ?_⟩, fun cause h => ?_⟩
  · rw [dispatched_none, hv, hd]
    rfl
  · rw [hv]
    rfl
  · cases hf.symm.trans h

/-- A chunk without a fault, before others. -/
theorem Streamed.cons {c : Connection κ α} (hc : c.stage ≠ .closed) {s t : Bytes}
    (hs : c.decoder.fault? s = none) {feeds : List (Fed κ α)} {turn : Turn κ α}
    (h : Streamed (c.feed s).turn.1 t feeds turn) :
    Streamed c (s ++ t) (c.feed s :: feeds) (turn.1, (c.feed s).turn.2 ++ turn.2) := by
  have hfeed : (c.feed s).turn = c.dispatched s none := hs ▸ feed_dispatched hc s
  have hcount := (feed_eq hc s).2 hs
  have hdecoder : (c.feed s).turn.1.decoder = c.decoder.after s := by
    rw [hfeed, dispatched_none]
    rfl
  obtain ⟨hv, hf, hd⟩ := Decoder.read_append hs t
  refine ⟨List.forall_mem_cons.mpr ⟨(feed_ends hc s).1, h.drained⟩, fun hnone => ?_,
    fun cause hcause => ?_⟩
  · have htail : (c.decoder.after s).fault? t = none := (Malformed.Alike.none_iff hf).mp hnone
    obtain ⟨hturn, counts, hcounts, hsum⟩ := h.whole (hdecoder.symm ▸ htail)
    refine ⟨?_, (c.decoder.values s).length :: counts, ?_, ?_⟩
    · rw [dispatched_append hc hs fun _ => hd hnone, hturn, hfeed]
    · rw [List.map_cons, List.map_cons, hcount, hcounts]
    · rw [List.sum_cons, hsum, hv, hdecoder, List.length_append]
  · rw [hcause] at hf
    obtain ⟨cause', htail, halike⟩ : ∃ cause', (c.decoder.after s).fault? t = some cause' ∧
        cause.Alike cause' := by
      rcases ht : (c.decoder.after s).fault? t with _ | cause'
      · rw [ht] at hf
        cases hf
      · rw [ht] at hf
        rcases hf with hf | _
        exact ⟨cause', rfl, hf⟩
    obtain ⟨seen, hseen, hturn, before, last, behind, hfeeds, hbefore, hlast, hbehind⟩ :=
      h.broken cause' (hdecoder.symm ▸ htail)
    have hne : some seen = none → c.decoder.after (s ++ t) = (c.decoder.after s).after t := nofun
    refine ⟨seen, halike.trans hseen, ?_, c.feed s :: before, last, behind, ?_, ?_, hlast, hbehind⟩
    · rw [dispatched_append hc hs hne, hturn, hfeed]
    · rw [hfeeds, List.cons_append]
    · exact List.forall_mem_cons.mpr ⟨⟨_, hcount⟩, hbefore⟩

/-- A chunk with a fault, before others. -/
theorem Streamed.fault {c : Connection κ α} (hc : c.stage ≠ .closed) {s : Bytes} {ss : List Bytes}
    {cause : Malformed} (hs : c.decoder.fault? s = some cause) (hss : ∀ s ∈ ss, s ≠ []) :
    Streamed c (s ++ ss.flatten) (c.feedAll (s :: ss)) (c.run ((s :: ss).map .feed)) := by
  have hfeed : (c.feed s).turn = c.dispatched s (some cause) := hs ▸ feed_dispatched hc s
  obtain ⟨hrest, hresult⟩ := feed_ends hc s
  have hclosed : (c.feed s).turn.1.stage = .closed := by
    rw [hfeed, dispatched]
    dsimp only [stop]
    rw [fail_eq (c := (c.dispatchAll (c.decoder.values s)).1.reading (c.decoder.after s))
      (dispatchAll_open hc _)]
    rfl
  obtain ⟨hbehind, hrun⟩ := feedAll_closed hclosed hss
  have hturn : c.run ((s :: ss).map .feed) = (c.feed s).turn := by
    rw [List.map_cons, run, perform, hrun, List.append_nil]
  obtain ⟨-, a, ha, halike⟩ := Decoder.read_append_of_fault hs ss.flatten
  rw [hturn, feedAll]
  refine ⟨List.forall_mem_cons.mpr ⟨hrest, fun fed hfed => (hbehind fed hfed).2.1⟩, fun h => ?_,
    fun cause' h => ⟨cause, ?_, ?_, [], c.feed s, _, rfl, ?_, hresult cause hs, fun fed hfed => ?_⟩⟩
  · cases ha.symm.trans h
  · obtain rfl : a = cause' := Option.some.inj (ha.symm.trans h)
    exact halike.symm
  · rw [dispatched_of_fault hc hs, hfeed]
  · exact fun fed hfed => absurd hfed List.not_mem_nil
  · exact ⟨(hbehind fed hfed).1, (hbehind fed hfed).2.2⟩

/-- **Feeding a stream in chunks is decoding it and dispatching its values**, wherever it is cut. -/
theorem feed_pieces {c : Connection κ α} (hc : c.stage ≠ .closed) {ss : List Bytes}
    (hss : ∀ s ∈ ss, s ≠ []) :
    Streamed c ss.flatten (c.feedAll ss) (c.run (ss.map .feed)) := by
  induction ss generalizing c with
  | nil => exact .nil c
  | cons s ss ih =>
    rw [List.forall_mem_cons] at hss
    rcases hs : c.decoder.fault? s with _ | cause
    · have hopen : (c.feed s).turn.1.stage ≠ .closed := by
        rw [feed_dispatched hc, hs, dispatched_none]
        exact dispatchAll_open hc _
      exact .cons hc hs (ih hopen hss.2)
    · exact .fault hc hs hss.2

/-! ## A stream that goes wrong -/

/-- A listener waits for one message of the channel `c`, and the answer to its subscription is out. -/
def listening : Connection Nat Nat :=
  (run {} [.beginConnect, .connectSucceeded, .register ⟨.channel, [99]⟩ .singleShot 0 1]).1

/-- **The answer, a message, a byte that begins no reply**, and more; the message is cut in two. -/
def mixed : List Bytes :=
  ["*3\r\n$9\r\nsubscribe\r\n$1\r\nc\r\n:1\r\n*3\r\n$7\r\nmess", "age\r\n$1\r\nc\r\n$1\r\nx\r\n?",
    "+OK\r\n"].map Utf8.encode

theorem feed_pieces_mixed :
    listening.stage ≠ .closed ∧ (∀ s ∈ mixed, s ≠ []) ∧
      listening.decoder.fault? mixed.flatten = some (.typeByte 63) ∧
      Streamed listening mixed.flatten (listening.feedAll mixed) (listening.run (mixed.map .feed)) := by
  have hopen : listening.stage ≠ .closed := by decide +kernel
  have hsome : ∀ s ∈ mixed, s ≠ [] := by decide +kernel
  exact ⟨hopen, hsome, by decide +kernel, feed_pieces hopen hsome⟩

end RespClient.Connection
