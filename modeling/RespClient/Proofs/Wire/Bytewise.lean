import RespClient.Proofs.Wire.Registers
import RespClient.Proofs.Wire.Reading

/-!
# Proofs/Wire/Bytewise — registers after a stream, whatever its pieces

    pieces     "$5\r" │ "\nhel" │ "lo\r\n:4"        ──harvest, harvest, harvest──▸  registers
    bytes      $ 5 \r \n h e l l o \r \n : 4        ──byte, byte, byte, …──▸        the same registers

A decoder that read a stream does not tell where it was cut (`Decoder.readPieces_congr`), but a decoder holds only
what the bytes to come are for.  Registers hold more: the text of a length stays where it was until the next line
begins.  That comes from the bytes as well.  A stretch of input does what its bytes do one at a time
(`Stands.stretch`), hence so does a parse (`Stands.parse_bytes`) and all that is read without a fault
(`Stands.harvest`).  What bytes do one at a time is a fold over them, and a fold does not see the pieces
(`cut_anywhere`).
-/

namespace RespClient

namespace Decoder

/-! ## A decoder that holds no value -/

/-- **No value waits** to be handed out. -/
def Vacant (d : Decoder) : Prop := ∀ v, d.phase ≠ .done v

theorem vacant_start (frames : List Frame) : Vacant ⟨.start, frames⟩ := fun v hv => by cases hv

theorem vacant_poisoned (cause : Malformed) (frames : List Frame) : Vacant ⟨.poisoned cause, frames⟩ :=
  fun v hv => by cases hv

/-- **A parse that does not complete leaves no value.** -/
theorem vacant_of_parse {d e : Decoder} {outcome : Outcome} {input rest : Bytes}
    (h : d.parse input = (outcome, rest, e)) (ho : outcome ≠ .completed) : e.Vacant := by
  fun_induction parse d input with
  | case1 d input v hd =>
    cases h
    exact absurd rfl ho
  | case2 d input cause hd =>
    cases h
    exact fun v hv => by cases hd.symm.trans hv
  | case3 d hdone =>
    cases h
    exact hdone
  | case4 _ _ _ _ _ _ _ _ ih => exact ih h
  | case5 =>
    cases h
    exact vacant_poisoned _ []

/-- **Reading hands out what it completes.** -/
theorem Vacant.after {d : Decoder} (h : d.Vacant) (input : Bytes) : (d.after input).Vacant := by
  induction d, input using reading_induction with
  | nil d =>
    rw [(read_nil d).2.2]
    exact h
  | stopped d e input rest outcome hi hp ho =>
    rw [(read_stopped hi hp ho).2.2]
    exact vacant_of_parse hp ho
  | value d e input rest v hi hp hv ih =>
    rw [(read_value hi hp hv).2.2]
    exact ih (vacant_start e.frames)

end Decoder

open Decoder (Demand)

namespace Registers

/-! ## Reading with registers -/

/-- **What registers come to** over some input: the values handed out, the cause they stopped for, how many bytes
were used, and themselves. -/
structure Harvest where
  values : List Value
  fault? : Option Malformed
  used : Nat
  registers : Registers

/-- The harvest behind some values, read from so many bytes. -/
def Harvest.behind (vs : List Value) (k : Nat) (y : Harvest) : Harvest :=
  { y with values := vs ++ y.values, used := k + y.used }

/-- **Parses what is left and hands out what is complete**, until the input is used up or malformed, in so many
rounds at most. -/
def harvest : Nat → Registers → Bytes → Option Harvest
  | _, r, [] => some ⟨[], none, 0, r⟩
  | 0, _, _ :: _ => none
  | rounds + 1, r, b :: bs =>
    match r.parse (b :: bs) with
    | some (.completed, rest, next) =>
      (harvest rounds next.take.2 rest).map
        (·.behind next.take.1.toList ((b :: bs).length - rest.length))
    | some (outcome, rest, next) => some ⟨[], outcome.cause?, (b :: bs).length - rest.length, next⟩
    | none => none

theorem harvest_nil (rounds : Nat) (r : Registers) : r.harvest rounds [] = some ⟨[], none, 0, r⟩ := by
  cases rounds <;> rfl

section

variable {r next : Registers} {b : UInt8} {bs rest : Bytes} (rounds : Nat)

theorem harvest_stopped {outcome : Outcome} (hp : r.parse (b :: bs) = some (outcome, rest, next))
    (ho : outcome ≠ .completed) : r.harvest (rounds + 1) (b :: bs)
      = some ⟨[], outcome.cause?, (b :: bs).length - rest.length, next⟩ := by
  rw [harvest, hp]
  cases outcome with
  | completed => exact absurd rfl ho
  | _ => rfl

theorem harvest_completed (hp : r.parse (b :: bs) = some (.completed, rest, next)) :
    r.harvest (rounds + 1) (b :: bs) = (next.take.2.harvest rounds rest).map
      (·.behind next.take.1.toList ((b :: bs).length - rest.length)) := by
  rw [harvest, hp]

end

/-- **A stream read in pieces**, one after another, up to the first fault. -/
def readPieces (r : Registers) : List Bytes → Option Harvest
  | [] => some ⟨[], none, 0, r⟩
  | s :: ss => do
    let y ← r.harvest s.length s
    match y.fault? with
    | some _ => return y
    | none => return (← y.registers.readPieces ss).behind y.values y.used

/-! ## One byte at a time -/

/-- **What one byte does**: a value it completes is taken out at once. -/
def byte (r : Registers) (b : UInt8) : Registers :=
  match r.advance b [] with
  | .proceeds next _ => next.take.2
  | _ => r

/-- Outside of lines and bulk strings a step takes one byte, whatever comes after it. -/
theorem advance_alone {r next : Registers} {b : UInt8} {bs rest : Bytes}
    (hline : ∀ kind, r.mode ≠ .line kind) (hbulk : ∀ wanted, r.mode ≠ .bulk wanted)
    (h : r.advance b bs = .proceeds next rest) : rest = bs ∧ r.byte b = next.take.2 := by
  unfold byte
  unfold advance at h ⊢
  split at h
  case h_1 =>
    split at h <;> cases h
    exact ⟨rfl, rfl⟩
  case h_2 hmode => exact absurd hmode (hline _)
  case h_3 =>
    split at h
    · rename_i hlf
      split at h <;> cases h
      exact ⟨rfl, by rw [if_pos hlf]⟩
    · cases h
  case h_4 hmode => exact absurd hmode (hbulk _)
  case h_5 =>
    split at h <;> cases h
    rename_i hcr
    exact ⟨rfl, by rw [if_pos hcr]⟩
  case h_6 =>
    split at h
    · rename_i hlf
      split at h <;> cases h
      exact ⟨rfl, by rw [if_pos hlf]⟩
    · cases h
  case h_7 => cases h
  case h_8 => cases h

/-! Text of a line and data of a bulk string are taken in stretches. -/

section

variable {r : Registers} (hvalue : r.value? = none)

include hvalue

/-- **Text of a line**, byte for byte. -/
theorem foldl_text {kind : LineKind} (hmode : r.mode = .line kind) {text : Bytes}
    (htext : ∀ b ∈ text, (b != Wire.cr) = true) (hmax : r.line.size + text.length ≤ maxLine) :
    text.foldl byte r = { r with line := r.line ++ text } := by
  induction text generalizing r with
  | nil => simp
  | cons b text ih =>
    rw [List.forall_mem_cons] at htext
    rw [List.length_cons] at hmax
    have hbyte : r.byte b = { r with line := r.line ++ [b] } := by
      have hnot : ¬ maxLine < r.line.size + 1 := by omega
      simp [byte, advance, hmode, htext.1, hnot, take, hvalue]
    have hrest : (r.line ++ [b]).size + text.length ≤ maxLine := by
      rw [Decoder.size_append_stretch, List.length_singleton]
      omega
    rw [List.foldl_cons, hbyte, ih (r := { r with line := r.line ++ [b] }) hvalue hmode htext.2 hrest]
    simp

/-- The CR behind the text of a line. -/
theorem byte_cr {kind : LineKind} (hmode : r.mode = .line kind) (hmax : r.line.size ≤ maxLine) :
    r.byte Wire.cr = { r with mode := .lineEnd kind } := by
  have hnot : ¬ maxLine < r.line.size := by omega
  simp [byte, advance, hmode, hnot, take, hvalue]

/-- **Data of a bulk string**, byte for byte, with so many bytes to come after it. -/
theorem foldl_data {data : Bytes} {more : Nat} (hmode : r.mode = .bulk (data.length + more))
    (hpos : 0 < data.length + more) :
    data.foldl byte r =
      { r with bulk := r.bulk ++ data, mode := if more = 0 then .bulkEnd else .bulk more } := by
  induction data generalizing r with
  | nil =>
    obtain ⟨mode, line, bulk, slots, value?, cause?⟩ := r
    rw [List.length_nil, Nat.zero_add] at hmode hpos
    subst hmode
    simp [Nat.ne_of_gt hpos]
  | cons b data ih =>
    have hwanted : (b :: data).length + more = data.length + more + 1 := by
      rw [List.length_cons, Nat.add_right_comm]
    have hbyte : r.byte b = { r with
        bulk := r.bulk ++ [b]
        mode := if data.length + more = 0 then .bulkEnd else .bulk (data.length + more) } := by
      rw [hwanted] at hmode
      simp [byte, advance, hmode, take, hvalue]
    rw [List.foldl_cons, hbyte]
    by_cases hlast : data.length + more = 0
    · obtain ⟨hdata, rfl⟩ := Nat.add_eq_zero_iff.mp hlast
      obtain rfl := List.length_eq_zero_iff.mp hdata
      simp
    · rw [if_neg hlast, ih (r := { r with bulk := r.bulk ++ [b], mode := .bulk (data.length + more) }) hvalue rfl
        (Nat.pos_of_ne_zero hlast)]
      simp

variable {next : Registers} {b : UInt8} {bs rest : Bytes} (hs : r.advance b bs = .proceeds next rest)

include hs

theorem stretch_line {kind : LineKind} (hmode : r.mode = .line kind) :
    ∃ used, b :: bs = used ++ rest ∧ next.take.2 = used.foldl byte r := by
  rw [advance, hmode] at hs
  dsimp only at hs
  have htext : ∀ x ∈ (b :: bs).takeWhile (· != Wire.cr), (x != Wire.cr) = true :=
    fun x => List.mem_takeWhile_imp
  have hjoin := List.takeWhile_append_dropWhile (p := (· != Wire.cr)) (l := b :: bs)
  split at hs
  · cases hs
  rename_i hlong
  have hfold := foldl_text hvalue hmode htext (Nat.le_of_not_lt hlong)
  split at hs <;> rename_i hdrop <;> rw [hdrop] at hjoin <;> cases hs
  · exact ⟨_, hjoin.symm, by rw [hfold, take, hmode, hvalue]⟩
  · obtain rfl := Decoder.eq_cr_of_dropWhile hdrop
    have hshort : (r.line ++ (b :: bs).takeWhile (· != Wire.cr)).size ≤ maxLine := by
      rw [Decoder.size_append_stretch]
      exact Nat.le_of_not_lt hlong
    refine ⟨_, (List.append_cons .. ▸ hjoin).symm, ?_⟩
    have hcr := byte_cr (r := { r with line := r.line ++ (b :: bs).takeWhile (· != Wire.cr) })
      hvalue hmode hshort
    rw [List.foldl_append, hfold, List.foldl_cons, List.foldl_nil, hcr, take, hvalue]

theorem stretch_bulk {wanted : Nat} (hmode : r.mode = .bulk wanted) (hpos : 0 < wanted) :
    ∃ used, b :: bs = used ++ rest ∧ next.take.2 = used.foldl byte r := by
  rw [advance, hmode] at hs
  cases hs
  refine ⟨_, (List.take_append_drop wanted (b :: bs)).symm, ?_⟩
  have hlen : ((b :: bs).take wanted).length ≤ wanted := List.length_take_le ..
  have hsplit := Nat.add_sub_of_le hlen
  generalize (b :: bs).take wanted = data at hlen hsplit ⊢
  have hcounted : r.mode = .bulk (data.length + (wanted - data.length)) := by rw [hsplit, hmode]
  have hend : data.length = wanted ↔ wanted - data.length = 0 := by omega
  rw [foldl_data hvalue hcounted (by omega), take, hvalue]
  simp only [hend]

end

section

variable {r : Registers} {d : Decoder} (h : r.Stands d)

include h

/-- Registers hold a value where the decoder does. -/
theorem Stands.vacant_iff : r.value? = none ↔ d.Vacant := by
  rw [Option.eq_none_iff_forall_ne_some]
  exact forall_congr' fun v => not_congr h.value_eq_some_iff

theorem Stands.take_vacant (hd : d.Vacant) : r.take.2 = r := by rw [Registers.take, h.vacant_iff.mpr hd]

/-- **A stretch does what its bytes do**, one at a time. -/
theorem Stands.stretch (hd : d.reading) {next : Registers} {b : UInt8} {bs rest : Bytes}
    (hs : r.advance b bs = .proceeds next rest) :
    ∃ used, b :: bs = used ++ rest ∧ next.take.2 = used.foldl byte r := by
  have hvalue : r.value? = none := h.vacant_iff.mpr fun v hv => by
    rw [Decoder.reading, hv] at hd
    cases hd
  cases hmode : r.mode with
  | line kind => exact stretch_line hvalue hs hmode
  | bulk wanted => exact stretch_bulk hvalue hs hmode (h.sound.bulk wanted hmode).1
  | _ =>
    obtain ⟨rfl, hbyte⟩ := advance_alone (by simp [hmode]) (by simp [hmode]) hs
    exact ⟨[b], rfl, hbyte.symm⟩

/-- **A parse does what its bytes do**, one at a time, unless it fails. -/
theorem Stands.parse_bytes {input rest : Bytes} {outcome : Outcome} {next : Registers}
    (hp : r.parse input = some (outcome, rest, next)) (ho : outcome.cause? = none) :
    ∃ used, input = used ++ rest ∧ next.take.2 = used.foldl byte r.take.2 := by
  fun_induction Decoder.parse d input generalizing r with
  | case1 d input v hd =>
    cases (parse_done (h.done_iff.mpr ⟨v, hd⟩) input).symm.trans hp
    exact ⟨[], rfl, rfl⟩
  | case2 d input cause hd =>
    obtain ⟨hmode, hcause⟩ := h.cause_of_poisoned hd
    cases (parse_poisoned hmode hcause input).symm.trans hp
    cases ho
  | case3 d hdone hpoisoned =>
    obtain ⟨hdone, hpoisoned⟩ := h.mode_ne (Decoder.reading_of_not hdone hpoisoned)
    cases (parse_of_ne hdone hpoisoned []).symm.trans hp
    exact ⟨[], rfl, rfl⟩
  | case4 d b bs further rest' hs hdone hpoisoned ih =>
    have hd := Decoder.reading_of_not hdone hpoisoned
    have hgoes := h.advance hd b bs
    have htake := h.take_vacant hdone
    obtain ⟨hdone, hpoisoned⟩ := h.mode_ne hd
    rw [hs] at hgoes
    rw [parse_of_ne hdone hpoisoned] at hp
    dsimp only at hp
    generalize hstep : r.advance b bs = step at hgoes hp
    cases hgoes with
    | proceeds hnext =>
      -- the bytes of this stretch, then those of the parse that goes on behind it
      obtain ⟨used, hused, hfold⟩ := h.stretch hd hstep
      obtain ⟨more, hmore, hlast⟩ := ih hnext hp
      refine ⟨used ++ more, ?_, ?_⟩
      · rw [hused, hmore, List.append_assoc]
      · rw [hlast, hfold, htake, List.foldl_append]
  | case5 d b bs cause rest hs hdone hpoisoned =>
    have hd := Decoder.reading_of_not hdone hpoisoned
    obtain ⟨hdone, hpoisoned⟩ := h.mode_ne hd
    have hgoes := h.advance hd b bs
    rw [hs] at hgoes
    rw [parse_of_ne hdone hpoisoned] at hp
    dsimp only at hp
    generalize r.advance b bs = step at hgoes hp
    cases hgoes with
    | fails =>
      cases hp
      cases ho

/-- A parse that does not complete comes to what all bytes do. -/
theorem Stands.parse_incomplete (hd : d.Vacant) {e : Decoder} {input rest : Bytes} {next : Registers}
    (hparse : d.parse input = (.incomplete, rest, e)) (hnext : next.Stands e)
    (hp : r.parse input = some (.incomplete, rest, next)) : next = input.foldl byte r := by
  obtain ⟨used, hused, hfold⟩ := h.parse_bytes hp rfl
  rw [Decoder.rest_of_incomplete hparse, List.append_nil] at hused
  rw [hnext.take_vacant (Decoder.vacant_of_parse hparse nofun), h.take_vacant hd, ← hused] at hfold
  exact hfold

end

/-! ## Readings -/

/-- **A harvest beside the decoder's**: the same values, cause and count, registers that stand for the decoder, and
where nothing failed, those that the bytes lead to. -/
structure Harvest.Beside (y : Harvest) (h : Decoder.Harvest) (last : Registers) : Prop where
  values : y.values = h.values
  fault : y.fault? = h.fault?
  used : y.used = h.used
  stands : y.registers.Stands h.decoder
  led : h.fault? = none → y.registers = last

/-- **Registers read what the decoder reads**, and go where the bytes lead them. -/
theorem Stands.harvest {r : Registers} {d : Decoder} (h : r.Stands d) (hd : d.Vacant) {rounds : Nat}
    {input : Bytes} (hrounds : input.length ≤ rounds) :
    ∃ y, r.harvest rounds input = some y ∧ y.Beside (d.harvest input) (input.foldl byte r) := by
  induction d, input using Decoder.reading_induction generalizing r rounds with
  | nil d =>
    rw [Decoder.harvest_nil]
    exact ⟨_, harvest_nil rounds r, rfl, rfl, rfl, h, fun _ => rfl⟩
  | stopped d e input rest outcome hi hp ho =>
    obtain ⟨b, bs, rfl⟩ := List.exists_cons_of_ne_nil hi
    obtain ⟨rounds, rfl⟩ := Nat.exists_eq_add_one_of_ne_zero (Nat.ne_zero_of_lt hrounds)
    obtain ⟨next, hparse, hnext⟩ := h.parse (b :: bs)
    rw [hp] at hparse hnext
    rw [Decoder.harvest_stopped hi hp ho]
    refine ⟨_, harvest_stopped rounds hparse ho, rfl, rfl, rfl, hnext, fun hc => ?_⟩
    cases outcome with
    | completed => exact absurd rfl ho
    | incomplete => exact h.parse_incomplete hd hp hnext hparse
    | failed cause => cases hc
  | value d e input rest v hi hp hv ih =>
    obtain ⟨b, bs, rfl⟩ := List.exists_cons_of_ne_nil hi
    obtain ⟨rounds, rfl⟩ := Nat.exists_eq_add_one_of_ne_zero (Nat.ne_zero_of_lt hrounds)
    obtain ⟨next, hparse, hnext⟩ := h.parse (b :: bs)
    have hlt := (Decoder.length_parse (congrArg Prod.fst hp)).2 hd
    rw [hp] at hparse hnext hlt
    obtain ⟨hvalue, hstands⟩ := hnext.take
    rw [Decoder.take_of_done hv] at hvalue hstands
    obtain ⟨y, hy, hbeside⟩ := ih hstands (Decoder.vacant_start e.frames)
      (Nat.le_of_lt_succ (Nat.lt_of_lt_of_le hlt hrounds))
    have hharvest : r.harvest (rounds + 1) (b :: bs)
        = some (y.behind [v] ((b :: bs).length - rest.length)) := by
      rw [harvest_completed rounds hparse, hy, hvalue]
      rfl
    -- the first bytes lead to the value, and to where the others begin
    obtain ⟨used, hused, hfold⟩ := h.parse_bytes hparse rfl
    rw [Decoder.harvest_value hi hp hv]
    refine ⟨_, hharvest, congrArg ([v] ++ ·) hbeside.values, hbeside.fault, congrArg (_ + ·) hbeside.used,
      hbeside.stands, fun hc => ?_⟩
    rw [hused, List.foldl_append, ← h.take_vacant hd, ← hfold]
    exact hbeside.led hc

/-- **Piece by piece**, registers read what the decoder reads, and go where the bytes of all pieces lead them. -/
theorem Stands.readPieces {r : Registers} {d : Decoder} (h : r.Stands d) (hd : d.Vacant) (ss : List Bytes) :
    ∃ y, r.readPieces ss = some y ∧ y.Beside (d.readPieces ss) (ss.flatten.foldl byte r) := by
  induction ss generalizing r d with
  | nil => exact ⟨⟨[], none, 0, r⟩, rfl, rfl, rfl, rfl, h, fun _ => rfl⟩
  | cons s ss ih =>
    obtain ⟨y, hy, hbeside⟩ := h.harvest hd (Nat.le_refl s.length)
    obtain ⟨hvalues, hfault, hused, hstands, hled⟩ := hbeside
    rw [Registers.readPieces, hy, Decoder.readPieces, Decoder.Harvest.andThen]
    dsimp only [bind, Option.bind]
    cases hf : (d.harvest s).fault? with
    | some cause =>
      rw [hf] at hfault
      rw [hfault]
      exact ⟨y, rfl, hvalues, hfault.trans hf.symm, hused, hstands, fun hc => by cases hf.symm.trans hc⟩
    | none =>
      obtain ⟨z, hz, hlater⟩ := ih hstands (hd.after s)
      rw [hfault, hf]
      dsimp only
      rw [hz]
      refine ⟨z.behind y.values y.used, rfl, congrArg₂ (· ++ ·) hvalues hlater.values, hlater.fault,
        congrArg₂ (· + ·) hused hlater.used, hlater.stands, fun hc => ?_⟩
      rw [List.flatten_cons, List.foldl_append, ← hled hf]
      exact hlater.led hc

/-- **Where a stream is cut does not matter to registers** either, whatever new ones were asked before, if no value
waits in them.  No count goes below zero in any pieces; two ways to cut it give the same values and end in the same
way: both use it up and leave the same registers, in every part, or both stop at the same byte for the same cause,
or both stop in a line too long. -/
theorem cut_anywhere (demands : List Demand) :
    ∃ r, respondAll {} demands = some ((Decoder.empty.respondAll demands).1, r) ∧
      (r.value? = none → ∀ ss ts : List Bytes, ss.flatten = ts.flatten →
        ∃ p q, r.readPieces ss = some p ∧ r.readPieces ts = some q ∧ p.values = q.values ∧
          (p.fault? = none ∧ q.fault? = none ∧
              p.used = ss.flatten.length ∧ q.used = ss.flatten.length ∧ p.registers = q.registers ∨
            (∃ cause, p.fault? = some cause ∧ q.fault? = some cause ∧ p.used = q.used) ∨
            ∃ m n, p.fault? = some (.lineTooLong m) ∧ q.fault? = some (.lineTooLong n))) := by
  obtain ⟨r, hr, hstands⟩ := stands_empty.respondAll demands
  refine ⟨r, hr, fun hvalue ss ts hst => ?_⟩
  have hvacant := hstands.vacant_iff.mp hvalue
  obtain ⟨p, hp, hbp⟩ := hstands.readPieces hvacant ss
  obtain ⟨q, hq, hbq⟩ := hstands.readPieces hvacant ts
  obtain ⟨hvalues, hend⟩ := Decoder.readPieces_congr _ hst
  refine ⟨p, q, hp, hq, ?_, ?_⟩
  · rw [hbp.values, hbq.values, hvalues]
  · rw [hbp.fault, hbq.fault, hbp.used, hbq.used]
    refine hend.imp_left fun ⟨hpf, hqf, hpu, hqu, _⟩ => ⟨hpf, hqf, hpu, hqu, ?_⟩
    rw [hbp.led hpf, hbq.led hqf, hst]

end Registers

end RespClient
