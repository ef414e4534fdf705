import RespClient.Proofs.Wire.Registers

/-!
# Proofs/Wire/Places — a parse that looks into its chunk by place

    chunk    b₀ b₁ … │ bₖ … bₙ₋₁        k bytes are used: the loop is at place k

A loop over a chunk goes round by round (`round`): it ends where a value is complete, the bytes are malformed or
the chunk is used up, and else takes one step at its place.  A step looks at the byte there, or at all bytes from
there on and then at so many of them; nothing in its type keeps such a look within the chunk, and one outside is
a fault.  Nothing makes the loop end either: it goes on as long as it is given rounds (`loop`).

Registers that stand for a decoder step as the decoder does on the bytes from the place on (`step_eq`), and each
step uses a byte (`Stands.takes`).  So the loop ends without a fault, with what the parse comes to, within one round
more than the chunk has bytes (`Stands.loop`).
-/

namespace RespClient.Registers

/-! ## The loop -/

/-- **What a round comes to.** -/
inductive Round
  /-- The loop goes on at a place. -/
  | moves (next : Registers) (place : Nat)
  | ends (outcome : Outcome) (place : Nat) (last : Registers)
  /-- A look outside the chunk, or a step that cannot be made. -/
  | faults

/-- The bytes of a chunk from a place on.  Its end is the last such place. -/
def from? (chunk : Bytes) (place : Nat) : Option Bytes :=
  if place ≤ chunk.length then some (chunk.drop place) else none

/-- The first bytes of some, if there are so many. -/
def first? (bytes : Bytes) (n : Nat) : Option Bytes :=
  if n ≤ bytes.length then some (bytes.take n) else none

/-- Registers that nothing can be read into any more. -/
def poison (r : Registers) (cause : Malformed) : Registers :=
  { r with mode := .poisoned, cause? := some cause, slots := [] }

/-- The bytes are malformed. -/
def Round.stops (r : Registers) (cause : Malformed) (place : Nat) : Round :=
  .ends (.failed cause) place (r.poison cause)

/-- A byte that has to come, and what it does. -/
def require (chunk : Bytes) (r : Registers) (place : Nat) (due : UInt8) (next : Round) : Round :=
  match chunk[place]? with
  | none => .faults
  | some b => if b = due then next else .stops r .missingTerminator place

/-- The value complete, or the count that cannot be counted down. -/
def Round.completes (next? : Option Registers) (place : Nat) : Round :=
  match next? with
  | some next => .moves next place
  | none => .faults

/-- **One step** at a place of the chunk. -/
def step (chunk : Bytes) (r : Registers) (place : Nat) : Round :=
  match r.mode with
  | .start =>
    match chunk[place]? with
    | none => .faults
    | some b =>
      match LineKind.ofMark? b with
      | some kind => .moves { r with line := #[], mode := .line kind } (place + 1)
      | none => .stops r (.typeByte b) place
  | .line kind =>
    match from? chunk place with
    | none => .faults
    | some rest =>
      let cr? := rest.findIdx? (· == Wire.cr)
      let length := cr?.getD rest.length
      if maxLine < r.line.size + length then .stops r (.lineTooLong (r.line.size + length)) place
      else
        match first? rest length, cr? with
        | none, _ => .faults
        | some stretch, some i =>
          .moves { r with line := r.line ++ stretch, mode := .lineEnd kind } (place + i + 1)
        | some stretch, none => .moves { r with line := r.line ++ stretch } (place + rest.length)
  | .lineEnd kind =>
    require chunk r place Wire.lf <|
      match r.closeLine kind with
      | .ok next? => .completes next? (place + 1)
      | .error cause => .stops r cause (place + 1)
  | .bulk wanted =>
    match from? chunk place with
    | none => .faults
    | some rest =>
      let length := min wanted rest.length
      match first? rest length with
      | none => .faults
      | some stretch =>
        let mode := if length = wanted then .bulkEnd else .bulk (wanted - length)
        .moves { r with bulk := r.bulk ++ stretch, mode } (place + length)
  | .bulkEnd => require chunk r place Wire.cr (.moves { r with mode := .bulkFeed } (place + 1))
  | .bulkFeed =>
    require chunk r place Wire.lf
      (.completes ({ r with bulk := #[] }.complete (.bytes r.bulk.toList) r.slots) (place + 1))
  | .done | .poisoned => .faults

/-- A step at the end of its chunk is a fault. -/
example : step [] {} 0 = .faults := rfl

/-- **One round** of the loop. -/
def round (chunk : Bytes) (r : Registers) (place : Nat) : Round :=
  match r.mode with
  | .done => .ends .completed place r
  | .poisoned => .ends (.failed (r.cause?.getD .missingTerminator)) place r
  | _ => if chunk.length ≤ place then .ends .incomplete place r else r.step chunk place

/-- **Round after round**, so many at most: the outcome, the place the loop has come to, and the registers. -/
def loop (chunk : Bytes) : Nat → Registers → Nat → Option (Outcome × Nat × Registers)
  | 0, _, _ => none
  | rounds + 1, r, place =>
    match r.round chunk place with
    | .moves next place => loop chunk rounds next place
    | .ends outcome place last => some (outcome, place, last)
    | .faults => none

/-! ## A step is that of the bytes from its place on -/

/-- The round that an advance is, in a chunk of so many bytes. -/
def Advance.round (r : Registers) (size : Nat) : Advance → Round
  | .proceeds next rest => .moves next (size - rest.length)
  | .fails cause rest => .stops r cause (size - rest.length)
  | .faults => .faults

/-- **Where a line is cut**: at its first CR, or not at all. -/
theorem findIdx?_cr (bytes : Bytes) :
    bytes.findIdx? (· == Wire.cr) = match bytes.dropWhile (· != Wire.cr) with
      | [] => none
      | _ :: _ => some (bytes.takeWhile (· != Wire.cr)).length := by
  induction bytes with
  | nil => rfl
  | cons x xs ih =>
    by_cases hx : x = Wire.cr
    · simp [List.findIdx?_cons, hx]
    · simp only [List.findIdx?_cons, ih, List.dropWhile_cons, List.takeWhile_cons, bne_iff_ne, ne_eq, hx,
        not_false_eq_true, if_true, beq_iff_eq, if_false]
      split <;> rfl

/-- The first bytes of a list, as many as a part in front of it has. -/
theorem first?_append (front back : Bytes) : first? (front ++ back) front.length = some front := by
  rw [first?, if_pos (by rw [List.length_append]; omega), List.take_left]

section

variable {chunk : Bytes} {place : Nat} {b : UInt8} {bs : Bytes} (h : chunk.drop place = b :: bs)

include h

/-- The byte at the place, and how many come after it. -/
theorem byte_at : chunk[place]? = some b ∧ from? chunk place = some (b :: bs) ∧
    chunk.length = place + bs.length + 1 := by
  have hlength := congrArg List.length h
  rw [List.length_drop, List.length_cons] at hlength
  refine ⟨?_, ?_, by omega⟩
  · rw [← List.head?_drop, h, List.head?_cons]
  · rw [from?, if_pos (by omega), h]

/-- A byte that is due, at the place. -/
theorem require_eq (r : Registers) (due : UInt8) (next : Round) :
    require chunk r place due next = if b = due then next else .stops r .missingTerminator place := by
  rw [require, (byte_at h).1]

/-- **A line is cut** at its first CR, or goes on. -/
theorem step_line {r : Registers} {kind : LineKind} (hmode : r.mode = .line kind) :
    r.step chunk place = (r.advance b bs).round r chunk.length := by
  obtain ⟨-, hfrom, hsize⟩ := byte_at h
  have hsplit := List.takeWhile_append_dropWhile (p := (· != Wire.cr)) (l := b :: bs)
  have hcr := findIdx?_cr (b :: bs)
  have hplace : chunk.length - (b :: bs).length = place := by rw [List.length_cons]; omega
  rw [step, advance, hmode, hfrom]
  dsimp only
  generalize (b :: bs).takeWhile (· != Wire.cr) = stretch at hsplit hcr ⊢
  generalize (b :: bs).dropWhile (· != Wire.cr) = after at hsplit hcr ⊢
  have hlength := congrArg List.length hsplit
  rw [List.length_append] at hlength
  have hfirst := first?_append stretch after
  rw [hsplit] at hfirst
  rw [hcr]
  cases after with
  | nil =>
    obtain rfl : stretch = b :: bs := by rw [← hsplit, List.append_nil]
    dsimp only [Option.getD]
    rw [hfirst]
    dsimp only
    split
    · rw [Advance.round, hplace]
    · rw [Advance.round, List.length_nil, Nat.sub_zero, List.length_cons, ← Nat.add_assoc, ← hsize]
  | cons x rest =>
    dsimp only [Option.getD]
    rw [hfirst]
    dsimp only
    split
    · rw [Advance.round, hplace]
    · rw [Advance.round]
      congr 1
      rw [List.length_cons] at hlength
      rw [List.length_cons] at hlength
      omega

/-- **A bulk string takes** what it wants, or all there is. -/
theorem step_bulk {r : Registers} {wanted : Nat} (hmode : r.mode = .bulk wanted) :
    r.step chunk place = (r.advance b bs).round r chunk.length := by
  obtain ⟨-, hfrom, hsize⟩ := byte_at h
  have hfirst := first?_append ((b :: bs).take wanted) ((b :: bs).drop wanted)
  rw [List.take_append_drop, List.length_take] at hfirst
  rw [step, advance, hmode, hfrom]
  dsimp only
  rw [hfirst, Advance.round, List.length_take, List.length_drop]
  dsimp only
  congr 1
  rw [List.length_cons]
  omega

/-- **A step at a place is the step of the bytes from there on.** -/
theorem step_eq (r : Registers) : r.step chunk place = (r.advance b bs).round r chunk.length := by
  obtain ⟨hbyte, -, hsize⟩ := byte_at h
  have hnext : chunk.length - bs.length = place + 1 := by omega
  have hhere : chunk.length - (b :: bs).length = place := by rw [List.length_cons]; omega
  cases hmode : r.mode with
  | line kind => exact step_line h hmode
  | bulk wanted => exact step_bulk h hmode
  | start =>
    rw [step, advance, hmode, hbyte]
    dsimp only
    cases LineKind.ofMark? b with
    | none => simp only [Advance.round, hhere]
    | some kind => simp only [Advance.round, hnext]
  | lineEnd kind =>
    rw [step, advance, hmode]
    dsimp only
    rw [require_eq h]
    split
    · cases r.closeLine kind with
      | error cause => simp only [Advance.round, hnext]
      | ok next? => cases next? <;> simp only [Advance.round, Round.completes, hnext]
    · simp only [Advance.round, hhere]
  | bulkEnd =>
    rw [step, advance, hmode]
    dsimp only
    rw [require_eq h]
    split
    · simp only [Advance.round, hnext]
    · simp only [Advance.round, hhere]
  | bulkFeed =>
    rw [step, advance, hmode]
    dsimp only
    rw [require_eq h]
    split
    · cases complete _ _ _ <;> simp only [Advance.round, Round.completes, hnext]
    · simp only [Advance.round, hhere]
  | done => rw [step, advance, hmode, Advance.round]
  | poisoned => rw [step, advance, hmode, Advance.round]

end

/-! ## The loop ends -/

/-- Registers that read on take a step, or are at the end of the chunk. -/
theorem round_of_ne {r : Registers} (hdone : r.mode ≠ .done) (hpoisoned : r.mode ≠ .poisoned)
    (chunk : Bytes) (place : Nat) : r.round chunk place =
      if chunk.length ≤ place then .ends .incomplete place r else r.step chunk place := by
  rw [round]
  split
  · rename_i hmode
    exact absurd hmode hdone
  · rename_i hmode
    exact absurd hmode hpoisoned
  · rfl

theorem round_done {r : Registers} (h : r.mode = .done) (chunk : Bytes) (place : Nat) :
    r.round chunk place = .ends .completed place r := by
  rw [round, h]

theorem round_poisoned {r : Registers} {cause : Malformed} (h : r.mode = .poisoned)
    (hcause : r.cause? = some cause) (chunk : Bytes) (place : Nat) :
    r.round chunk place = .ends (.failed cause) place r := by
  rw [round, h, hcause]
  rfl

/-- **A step uses a byte or more**: a bulk string that wanted none would be at its end already. -/
theorem Stands.takes {r : Registers} {d next : Decoder} (h : r.Stands d) {b : UInt8} {bs rest : Bytes}
    (hs : d.advance b bs = .proceeds next rest) : rest.length ≤ bs.length := by
  rcases Decoder.advance_takes hs with htakes | ⟨rfl, hslack, -⟩
  · exact htakes
  · obtain ⟨phase, frames⟩ := d
    cases phase with
    | bulk length data =>
      obtain ⟨wanted, -, -, hpos, hcount, -⟩ := h.holds
      have hrest : (b :: bs).drop (length - data.size) = b :: bs := by
        rw [Decoder.advance] at hs
        injection hs
      have hshort := congrArg List.length hrest
      rw [List.length_drop, List.length_cons] at hshort
      omega
    | _ => cases hslack

/-- Registers that read on hold no value, so they are as a decoder is that failed. -/
theorem Stands.poison {r : Registers} {d : Decoder} (h : r.Stands d) (hd : d.reading) (cause : Malformed) :
    (r.poison cause).Stands ⟨.poisoned cause, []⟩ := by
  have hvalue : r.value? = none := Option.eq_none_iff_forall_ne_some.mpr fun v hv => by
    rw [Decoder.reading, h.value_eq_some_iff.mp hv] at hd
    cases hd
  exact ⟨rfl, .nil, h.line, hvalue, rfl, fun _ => rfl⟩

/-- **What a round comes to, by the step of the decoder**, for registers that read on before the chunk's end. -/
theorem Stands.round {r : Registers} {d : Decoder} (h : r.Stands d) (hd : d.reading) {chunk : Bytes}
    {place : Nat} {b : UInt8} {bs : Bytes} (hinput : chunk.drop place = b :: bs) :
    match d.advance b bs with
    | .proceeds e rest => ∃ next, r.round chunk place = .moves next (chunk.length - rest.length) ∧ next.Stands e
    | .fails cause rest =>
      ∃ last, r.round chunk place = .ends (.failed cause) (chunk.length - rest.length) last ∧
        last.Stands ⟨.poisoned cause, []⟩ := by
  obtain ⟨hdone, hpoisoned⟩ := h.mode_ne hd
  have hmore : ¬ chunk.length ≤ place := fun hle => by
    rw [List.drop_eq_nil_iff.mpr hle] at hinput
    cases hinput
  have hgoes := h.advance hd b bs
  rw [round_of_ne hdone hpoisoned, if_neg hmore, step_eq hinput]
  generalize r.advance b bs = mine at hgoes ⊢
  generalize d.advance b bs = its at hgoes ⊢
  cases hgoes with
  | proceeds hnext rest => exact ⟨_, rfl, hnext⟩
  | fails cause rest => exact ⟨_, rfl, h.poison hd cause⟩

/-- **The loop ends without a fault**, given one round more than there are bytes left, with what the parse of
these comes to. -/
theorem Stands.loop {r : Registers} {d : Decoder} (h : r.Stands d) {chunk input : Bytes} {rounds : Nat}
    (hinput : input <:+ chunk) (hrounds : input.length < rounds) :
    ∃ last, r.loop chunk rounds (chunk.length - input.length) =
        some ((d.parse input).1, chunk.length - (d.parse input).2.1.length, last) ∧
      last.Stands (d.parse input).2.2 := by
  obtain ⟨rounds, rfl⟩ := Nat.exists_eq_add_one_of_ne_zero (Nat.ne_zero_of_lt hrounds)
  have hdrop := (List.suffix_iff_eq_drop.mp hinput).symm
  rw [Registers.loop]
  -- as the parse goes, step by step: the place is what the bytes left over make it
  fun_induction Decoder.parse d input generalizing r rounds with
  | case1 d input v hd =>
    rw [round_done (h.done_iff.mpr ⟨v, hd⟩)]
    exact ⟨r, rfl, h⟩
  | case2 d input cause hd =>
    obtain ⟨hmode, hcause⟩ := h.cause_of_poisoned hd
    rw [round_poisoned hmode hcause]
    exact ⟨r, rfl, h⟩
  | case3 d hdone hpoisoned =>
    obtain ⟨hdone, hpoisoned⟩ := h.mode_ne (Decoder.reading_of_not hdone hpoisoned)
    rw [round_of_ne hdone hpoisoned, if_pos (List.drop_eq_nil_iff.mp hdrop)]
    exact ⟨r, rfl, h⟩
  | case4 d b bs next rest hs hdone hpoisoned ih =>
    have hround := h.round (Decoder.reading_of_not hdone hpoisoned) hdrop
    have hrest := (d.advance_suffix b bs).trans hinput
    rw [hs] at hround hrest
    obtain ⟨r', hr, hnext⟩ := hround
    have hleft : rest.length < rounds :=
      Nat.lt_of_lt_of_le (Nat.lt_succ_of_le (h.takes hs)) (Nat.le_of_lt_succ hrounds)
    obtain ⟨rounds, rfl⟩ := Nat.exists_eq_add_one_of_ne_zero (Nat.ne_zero_of_lt hleft)
    rw [hr]
    dsimp only
    rw [Registers.loop]
    exact ih hnext hrest _ hleft (List.suffix_iff_eq_drop.mp hrest).symm
  | case5 d b bs cause rest hs hdone hpoisoned =>
    have hround := h.round (Decoder.reading_of_not hdone hpoisoned) hdrop
    rw [hs] at hround
    obtain ⟨last, hr, hlast⟩ := hround
    rw [hr]
    exact ⟨last, rfl, hlast⟩

/-- **A parse of a chunk by its loop**, which goes round at most once more than the chunk has bytes and looks at
nothing outside. -/
structure EndsWithin (r : Registers) (d : Decoder) (chunk : Bytes) : Prop where
  ends : ∃ last, r.loop chunk (chunk.length + 1) 0 = some ((d.parse chunk).1, d.consumed chunk, last) ∧
    last.Stands (d.parse chunk).2.2
  used : d.consumed chunk ≤ chunk.length
  /-- What goes on has used all. -/
  incomplete : (d.parse chunk).1 = .incomplete → d.consumed chunk = chunk.length
  /-- What completes a value has used a byte, unless the value was there already. -/
  completed : (d.parse chunk).1 = .completed → r.mode ≠ .done → 0 < d.consumed chunk

theorem Stands.endsWithin {r : Registers} {d : Decoder} (h : r.Stands d) (chunk : Bytes) :
    r.EndsWithin d chunk := by
  refine ⟨?_, Nat.sub_le .., fun hincomplete => ?_, fun hcompleted hmode => ?_⟩
  · have hloop := h.loop List.suffix_rfl (Nat.lt_succ_self chunk.length)
    rw [Nat.sub_self] at hloop
    exact hloop
  · have hrest := Decoder.rest_of_incomplete (Prod.ext hincomplete rfl)
    rw [Decoder.consumed, hrest, List.length_nil, Nat.sub_zero]
  · have hlt := (Decoder.length_parse hcompleted).2 fun v hv => hmode (h.done_iff.mpr ⟨v, hv⟩)
    exact Nat.sub_pos_of_lt hlt

end RespClient.Registers
