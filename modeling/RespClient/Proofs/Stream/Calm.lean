import RespClient.Proofs.Stream.Crossing

/-!
# Proofs/Stream/Calm — what counts of a transport

    laid out     data r₁ · interrupted · data r₂         take 5 · interrupted · take 9
    what counts  data r₁ · data r₂

How much each write takes does not count, and neither does an interruption.  What counts of a transport
(`calm`) is the other reads, the peer, and the bytes that were taken in all (`taken`).  While no write
fails, bytes may be accepted in parts (`Steady.calm_accept_append`), so a write that takes some of what is
outbound leaves to be taken what was to be taken before (`Steady.write`); and a read that is not
interrupted finds what counts (`Quiet.read`).
-/

namespace RespClient

/-! ## Interruptions -/

/-- Whether a read that finds it is only interrupted. -/
def Inbound.interrupts : Inbound → Bool
  | .fault f => f.kind = .interrupted
  | _ => false

/-- Whether it takes some bytes, or only interrupts the write. -/
def Acceptance.isSteady : Acceptance → Bool
  | .takes n => 0 < n
  | .fault f => f.kind = .interrupted

/-- Whether what was done counts by itself: a read that was not interrupted. -/
def Access.counts : Access → Bool
  | .read r => !r.meets.any Inbound.interrupts
  | .wrote _ => false

/-! ## Bytes in parts -/

namespace Peer

/-- **The peer does not hang up.** -/
structure Stays (p : Peer) : Prop where
  here : p.hungUp = false
  script : .hangUp ∉ p.script

theorem stays_respond {script : List Exchange} (h : .hangUp ∉ script) (heard : Bytes)
    (matched : Array Bool) : (respond heard matched script).1.Stays := by
  induction script generalizing heard matched with
  | nil => exact ⟨rfl, List.not_mem_nil⟩
  | cons x rest ih =>
    obtain ⟨hx, hrest⟩ := List.ne_and_not_mem_of_not_mem_cons h
    cases x with
    | hangUp => exact absurd rfl hx
    | answer expected reply =>
      rw [respond]
      dsimp only
      split
      · exact ⟨rfl, h⟩
      · exact ih hrest _ _

theorem Stays.hear_eq {p : Peer} (h : p.Stays) (bytes : Bytes) :
    p.hear bytes = respond (p.heard ++ bytes) p.matched p.script := by
  rw [Peer.hear, h.here]
  rfl

theorem Stays.hear {p : Peer} (h : p.Stays) (bytes : Bytes) : (p.hear bytes).1.Stays :=
  h.hear_eq bytes ▸ stays_respond h.script _ _

/-- What a peer makes of bytes that come in two parts. -/
theorem respond_append {script : List Exchange} (h : .hangUp ∉ script) (heard more : Bytes)
    (matched : Array Bool) :
    respond (heard ++ more) matched script =
      let first := respond heard matched script
      let second := respond (first.1.heard ++ more) first.1.matched first.1.script
      (second.1, first.2 ++ second.2) := by
  induction script generalizing heard matched with
  | nil => rfl
  | cons x rest ih =>
    obtain ⟨hx, hrest⟩ := List.ne_and_not_mem_of_not_mem_cons h
    cases x with
    | hangUp => exact absurd rfl hx
    | answer expected reply =>
      by_cases hshort : (heard.take expected.length).length < expected.length
      · rw [respond.eq_def heard]
        simp only [hshort, if_true, List.nil_append]
      · have hlen : expected.length ≤ heard.length := by
          rw [List.length_take] at hshort
          omega
        rw [respond, respond]
        simp only [List.take_append_of_le_length hlen, List.drop_append_of_le_length hlen, hshort,
          if_false, ih hrest]
        cases reply.isEmpty <;> simp

/-- **Bytes may reach a peer in parts.** -/
theorem Stays.hear_append {p : Peer} (h : p.Stays) (bytes more : Bytes) :
    p.hear (bytes ++ more)
      = (((p.hear bytes).1.hear more).1, (p.hear bytes).2 ++ ((p.hear bytes).1.hear more).2) := by
  rw [(h.hear bytes).hear_eq, h.hear_eq, h.hear_eq, ← List.append_assoc, respond_append h.script]

end Peer

namespace Transport

/-! ## What counts -/

/-- What was done that counts by itself. -/
def counted (t : Transport) : List Access := t.accesses.toList.filter Access.counts

/-- **What counts of a transport**: what it gives but for interruptions, and what it took in all. -/
def calm (t : Transport) : Transport where
  reads := t.reads.filter fun r => !r.interrupts
  peer := t.peer
  accesses := (.wrote t.taken :: t.counted).toArray
  closes := t.closes

/-- **No write fails**, but that it may be interrupted. -/
structure Steady (t : Transport) : Prop where
  writes : ∀ w ∈ t.writes, w.isSteady
  peer : t.peer.Stays

/-- The next read is not interrupted. -/
def Quiet (t : Transport) : Prop := ∀ r ∈ t.reads.head?, r.interrupts = false

/-- The transport that has taken all that is outbound. -/
def flush (t : Transport) (outbound : Bytes) : Transport :=
  if outbound.isEmpty then t else t.accept outbound

theorem calm_congr {t u : Transport}
    (reads : t.reads.filter (fun r => !r.interrupts) = u.reads.filter fun r => !r.interrupts)
    (peer : t.peer = u.peer) (taken : t.taken = u.taken) (counted : t.counted = u.counted)
    (closes : t.closes = u.closes) : t.calm = u.calm := by
  rw [calm, calm, reads, peer, taken, counted, closes]

/-- What counts by itself takes nothing. -/
theorem sent_counted (t : Transport) : sent (t.counted.flatMap Access.transfers) = [] := by
  rw [sent, List.flatMap_assoc, List.flatMap_eq_nil_iff]
  intro a ha
  cases a with
  | read r => exact sent_ofRead r.answer
  | wrote bytes => cases (List.mem_filter.mp ha).2

theorem taken_calm (t : Transport) : t.calm.taken = t.taken := by
  rw [taken_eq, tape, calm, List.flatMap_cons, sent_append, sent_counted, List.append_nil]
  exact sent_ofWrite t.taken

theorem counted_calm (t : Transport) : t.calm.counted = t.counted := by
  rw [counted, calm, List.filter_cons_of_neg Bool.false_ne_true, counted, List.filter_filter]
  simp only [Bool.and_self]

theorem counted_accept (t : Transport) (bytes : Bytes) : (t.accept bytes).counted = t.counted := by
  rw [counted, accept, Array.toList_push, List.filter_append]
  exact List.append_nil _

/-- **What is accepted counts**, and nothing else of it. -/
theorem calm_accept (t : Transport) (bytes : Bytes) :
    (t.accept bytes).calm = (t.calm.accept bytes).calm := by
  refine calm_congr ?_ rfl ?_ ?_ rfl
  · simp only [accept, calm, List.filter_append, List.filter_filter, Bool.and_self]
  · rw [taken_accept, taken_accept, taken_calm]
  · rw [counted_accept, counted_accept, counted_calm]

theorem calm_flush {t u : Transport} (h : t.calm = u.calm) (outbound : Bytes) :
    (t.flush outbound).calm = (u.flush outbound).calm := by
  rw [flush, flush]
  split
  · exact h
  · rw [calm_accept t, h, ← calm_accept]

theorem Steady.accept {t : Transport} (h : t.Steady) (bytes : Bytes) : (t.accept bytes).Steady :=
  ⟨h.writes, h.peer.hear bytes⟩

/-- **Bytes may be accepted in parts.** -/
theorem Steady.calm_accept_append {t : Transport} (h : t.Steady) (bytes more : Bytes) :
    ((t.accept bytes).accept more).calm = (t.accept (bytes ++ more)).calm := by
  have hpeer := h.peer.hear_append bytes more
  refine calm_congr ?_ ?_ ?_ ?_ rfl
  · simp only [Transport.accept, hpeer, List.append_assoc]
  · simp only [Transport.accept, hpeer]
  · rw [taken_accept, taken_accept, taken_accept, List.append_assoc]
  · rw [counted_accept, counted_accept, counted_accept]

/-- **A write takes some of what is outbound, or is interrupted**; what was to be taken is the same. -/
theorem Steady.write {t : Transport} (h : t.Steady) {outbound : Bytes} (hne : outbound ≠ []) :
    (∃ n t', t.write outbound = (.ok (n + 1), t') ∧ t'.Steady ∧
        (t'.flush (outbound.drop (n + 1))).calm = (t.flush outbound).calm) ∨
      ∃ f t', t.write outbound = (.error f, t') ∧ f.kind = .interrupted ∧ t'.Steady ∧
        (t'.flush outbound).calm = (t.flush outbound).calm := by
  have hsome : outbound.isEmpty = false := by rwa [List.isEmpty_eq_false_iff]
  have hpos : 0 < outbound.length := List.length_pos_iff.mpr hne
  have htaken (rest : List Acceptance) (hrest : ∀ w ∈ rest, w.isSteady) {n : Nat} (hn : 0 < n) :
      ∃ m t', (Except.ok (outbound.take n).length, { t with writes := rest }.accept (outbound.take n))
          = ((.ok (m + 1), t') : Except StreamFault Nat × Transport) ∧ t'.Steady ∧
        (t'.flush (outbound.drop (m + 1))).calm = (t.flush outbound).calm := by
    obtain ⟨m, hm⟩ : ∃ m, (outbound.take n).length = m + 1 :=
      Nat.exists_eq_succ_of_ne_zero (by rw [List.length_take]; omega)
    have hsteady : ({ t with writes := rest } : Transport).Steady := ⟨hrest, h.peer⟩
    have hdrop : outbound.take n ++ outbound.drop (m + 1) = outbound := by
      rw [← hm, List.length_take, List.take_eq_take_min]
      exact List.take_append_drop _ outbound
    refine ⟨m, _, by rw [hm], hsteady.accept _, ?_⟩
    rw [flush, flush, hsome]
    split
    · rename_i hall
      rw [List.isEmpty_iff.mp hall, List.append_nil] at hdrop
      rw [hdrop]
      rfl
    · rw [hsteady.calm_accept_append, hdrop]
      rfl
  rw [Transport.write, h.peer.here]
  simp only [Bool.false_eq_true, if_false]
  rcases hw : t.writes with _ | ⟨w, rest⟩
  · obtain ⟨m, t', heq, hrest⟩ := htaken t.writes h.writes hpos
    rw [List.take_length] at heq
    exact .inl ⟨m, t', heq, hrest⟩
  · have hwrites := h.writes
    rw [hw] at hwrites
    obtain ⟨hfirst, hrest⟩ := List.forall_mem_cons.mp hwrites
    cases w with
    | takes n => exact .inl (htaken rest hrest (of_decide_eq_true hfirst))
    | fault f =>
      refine .inr ⟨f, _, rfl, of_decide_eq_true hfirst, ⟨hrest, h.peer⟩, ?_⟩
      rw [flush, flush, hsome]
      rfl

/-- **A read that is not interrupted** counts. -/
theorem Quiet.counted_read {t : Transport} (h : t.Quiet) (limit : Nat) :
    (t.read limit).2.counted = t.counted ++ [.read ⟨limit, t.reads.head?⟩] := by
  have hcounts : (Access.read ⟨limit, t.reads.head?⟩).counts := by
    rw [Access.counts, Bool.not_eq_true', Option.any_eq_false]
    exact h
  rw [counted, Transport.read, Array.toList_push, List.filter_append, List.filter_singleton,
    hcounts]
  rfl

/-- What is met first counts, unless it interrupts. -/
theorem Quiet.reads_calm {t : Transport} (h : t.Quiet) : t.calm.reads.head? = t.reads.head? ∧
    t.calm.reads.tail = t.reads.tail.filter fun r => !r.interrupts := by
  rw [calm]
  cases hr : t.reads with
  | nil => exact ⟨rfl, rfl⟩
  | cons r rest =>
    have hquiet : r.interrupts = false := h r (by rw [hr]; rfl)
    rw [List.filter_cons, hquiet]
    exact ⟨rfl, rfl⟩

/-- **A read that is not interrupted** finds what counts. -/
theorem Quiet.read {t : Transport} (h : t.Quiet) (limit : Nat) :
    (t.read limit).1 = (t.calm.read limit).1 ∧
      (t.read limit).2.calm = (t.calm.read limit).2.calm := by
  obtain ⟨hhead, htail⟩ := h.reads_calm
  have hcalm : t.calm.Quiet := by
    rw [Quiet, hhead]
    exact h
  refine ⟨by rw [Transport.read, Transport.read, hhead], calm_congr ?_ rfl ?_ ?_ rfl⟩
  · simp only [Transport.read, hhead, htail, List.filter_append, List.filter_filter, Bool.and_self]
  · rw [taken_read, taken_read, taken_calm]
  · rw [h.counted_read, hcalm.counted_read, counted_calm, hhead]

theorem read_congr {t u : Transport} (h : t.calm = u.calm) (ht : t.Quiet) (hu : u.Quiet)
    (limit : Nat) :
    (t.read limit).1 = (u.read limit).1 ∧ (t.read limit).2.calm = (u.read limit).2.calm := by
  obtain ⟨hresult, hcalm⟩ := ht.read limit
  obtain ⟨hresult', hcalm'⟩ := hu.read limit
  exact ⟨hresult.trans (h ▸ hresult'.symm), hcalm.trans (h ▸ hcalm'.symm)⟩

/-- A read that is interrupted uses up the interruption, and does not count. -/
theorem read_interrupted {t : Transport} (h : ¬ t.Quiet) (limit : Nat) :
    ∃ f t', t.read limit = (.error f, t') ∧ f.kind = .interrupted ∧ t'.calm = t.calm ∧
      t'.writes = t.writes ∧ t'.peer = t.peer := by
  obtain ⟨r, hr, hi⟩ : ∃ r, t.reads.head? = some r ∧ r.interrupts = true := by
    simpa [Quiet] using h
  obtain ⟨rest, hrest⟩ := List.head?_eq_some_iff.mp hr
  cases r with
  | fault f =>
    have hread : (t.read limit).1 = .error f := by
      rw [Transport.read, hr]
      rfl
    refine ⟨f, (t.read limit).2, Prod.ext hread rfl, of_decide_eq_true hi,
      calm_congr ?_ rfl (t.taken_read limit) ?_ rfl, rfl, rfl⟩
    · rw [Transport.read, hrest, List.filter_cons_of_neg (by rw [hi]; exact Bool.false_ne_true)]
      rfl
    · rw [counted, Transport.read, Array.toList_push, List.filter_append, hr]
      refine (congrArg _ (List.filter_cons_of_neg ?_)).trans (List.append_nil _)
      rw [Access.counts, Option.any_some, hi]
      exact Bool.false_ne_true
  | _ => cases hi

theorem Steady.read {t : Transport} (h : t.Steady) (limit : Nat) : (t.read limit).2.Steady :=
  ⟨h.writes, h.peer⟩

end Transport

end RespClient
