import RespClient.Wire.Decoder
import Mathlib.Tactic.Common

/-!
# Proofs/Wire/Chunks — where the input of one parse is cut

    parse (s ++ t)  =  parse s, then parse t

A decoder takes its input in stretches, as long as the input allows.  A byte does the same whether more
comes with it or not (`settles_of_reading`): it leads to one decoder, or nothing goes on with it.  Hence
a parse of two pieces is the parse of the first, which goes on with the second (`parse_append`); only the
number in `lineTooLong`, and how much was used of such a line, tells how much was seen at once (`Agree`).
What a parse leaves over is an end of its input (`parse_suffix`).
-/

namespace RespClient

namespace Decoder

/-- What `parse` gives: the outcome, the input left over and the decoder. -/
abbrev Parsed := Outcome × Bytes × Decoder

/-- **Two parses that come to the same**: equal, or both stopped in a line too long. -/
def Agree (p q : Parsed) : Prop :=
  p = q ∨ ∃ m n, p.1 = .failed (.lineTooLong m) ∧ q.1 = .failed (.lineTooLong n)

theorem Agree.eq_of_completed {p : Parsed} {rest : Bytes} {e : Decoder}
    (h : Agree p (.completed, rest, e)) : p = (.completed, rest, e) := by
  obtain h | ⟨_, _, _, h⟩ := h
  · exact h
  · cases h

theorem Agree.symm {p q : Parsed} (h : Agree p q) : Agree q p := by
  obtain rfl | ⟨m, n, hm, hn⟩ := h
  · exact .inl rfl
  · exact .inr ⟨n, m, hn, hm⟩

theorem Agree.trans {p q r : Parsed} (h : Agree p q) (h' : Agree q r) : Agree p r := by
  obtain rfl | ⟨m, n, hm, hn⟩ := h
  · exact h'
  · obtain rfl | ⟨_, k, _, hk⟩ := h'
    · exact .inr ⟨m, n, hm, hn⟩
    · exact .inr ⟨m, k, hm, hk⟩

/-! ## One step at a time -/

/-- Whether the decoder takes input at all. -/
def reading (d : Decoder) : Bool :=
  match d.phase with
  | .done _ | .poisoned _ => false
  | _ => true

theorem reading_of_not {d : Decoder} (hdone : ∀ v, d.phase = .done v → False)
    (hpoisoned : ∀ cause, d.phase = .poisoned cause → False) : d.reading := by
  unfold reading
  split
  · rename_i v hv
    exact (hdone v hv).elim
  · rename_i cause hc
    exact (hpoisoned cause hc).elim
  · rfl

theorem parse_done {d : Decoder} {v : Value} (h : d.phase = .done v) (input : Bytes) :
    d.parse input = (.completed, input, d) := by
  obtain ⟨phase, frames⟩ := d
  subst h
  rw [parse.eq_def]

theorem parse_poisoned {d : Decoder} {cause : Malformed} (h : d.phase = .poisoned cause)
    (input : Bytes) : d.parse input = (.failed cause, input, d) := by
  obtain ⟨phase, frames⟩ := d
  subst h
  rw [parse.eq_def]

/-- A decoder that takes input goes where its next step leads. -/
theorem parse_of_reading {d : Decoder} (h : d.reading) (input : Bytes) :
    d.parse input = match input with
      | [] => (.incomplete, [], d)
      | b :: bs => match d.advance b bs with
        | .proceeds next rest => next.parse rest
        | .fails cause rest => (.failed cause, rest, ⟨.poisoned cause, []⟩) := by
  obtain ⟨phase, frames⟩ := d
  rw [parse.eq_def]
  cases phase with
  | done v => cases h
  | poisoned cause => cases h
  | _ =>
    cases input with
    | nil => rfl
    | cons b bs =>
      dsimp only
      split <;> rename_i hs <;> rw [hs]

theorem parse_nil {d : Decoder} (h : d.reading) : d.parse [] = (.incomplete, [], d) :=
  parse_of_reading h []

theorem parse_proceeds {d next : Decoder} (hd : d.reading) {b : UInt8} {bs rest : Bytes}
    (h : d.advance b bs = .proceeds next rest) : d.parse (b :: bs) = next.parse rest := by
  rw [parse_of_reading hd]
  dsimp only
  rw [h]

theorem parse_fails {d : Decoder} (hd : d.reading) {b : UInt8} {bs rest : Bytes}
    {cause : Malformed} (h : d.advance b bs = .fails cause rest) :
    d.parse (b :: bs) = (.failed cause, rest, ⟨.poisoned cause, []⟩) := by
  rw [parse_of_reading hd]
  dsimp only
  rw [h]

/-! ## One byte, then the rest

The stretch a byte belongs to depends on what comes after it; where the byte takes the decoder does
not. -/

/-- **A byte that leads to `next`**, whatever comes after it. -/
def Leads (d : Decoder) (b : UInt8) (next : Decoder) : Prop :=
  ∀ bs, Agree (d.parse (b :: bs)) (next.parse bs)

/-- **A byte that no reply goes on with**, whatever comes after it.  It is used (`k = 1`) or left over
(`k = 0`). -/
def Stops (d : Decoder) (b : UInt8) (k : Nat) (cause : Malformed) : Prop :=
  ∀ bs, Agree (d.parse (b :: bs)) (.failed cause, (b :: bs).drop k, ⟨.poisoned cause, []⟩)

/-- Where a byte takes a decoder, if what comes after it plays no part in that. -/
def Settles (d : Decoder) (b : UInt8) : Prop :=
  (∃ next, d.Leads b next) ∨ ∃ k ≤ 1, ∃ cause, d.Stops b k cause

theorem Settles.of_proceeds {d : Decoder} {b : UInt8} (hd : d.reading) (next : Decoder)
    (h : ∀ bs, d.advance b bs = .proceeds next bs) : d.Settles b :=
  .inl ⟨next, fun bs => .inl (parse_proceeds hd (h bs))⟩

theorem Settles.of_fails {d : Decoder} {b : UInt8} {cause : Malformed} (hd : d.reading) {k : Nat}
    (hk : k ≤ 1) (h : ∀ bs, d.advance b bs = .fails cause ((b :: bs).drop k)) : d.Settles b :=
  .inr ⟨k, hk, cause, fun bs => .inl (parse_fails hd (h bs))⟩

/-- A line that is too long with the byte. -/
theorem Settles.of_lineTooLong {d : Decoder} {b : UInt8} (hd : d.reading)
    (h : ∀ bs, ∃ n, d.advance b bs = .fails (.lineTooLong n) (b :: bs)) : d.Settles b := by
  refine .inr ⟨0, Nat.zero_le 1, .lineTooLong 0, fun bs => ?_⟩
  obtain ⟨n, hn⟩ := h bs
  rw [parse_fails hd hn]
  exact .inr ⟨n, 0, rfl, rfl⟩

/-- A stretch that goes on: what follows is taken as if the byte had not come with it. -/
theorem Settles.of_stretch {d : Decoder} {b : UInt8} (hd : d.reading) (next : Decoder)
    (hn : next.reading) (hnil : d.advance b [] = .proceeds next [])
    (hcons : ∀ c cs, d.advance b (c :: cs) = next.advance c cs ∨
      ∃ n rest rest', d.advance b (c :: cs) = .fails (.lineTooLong n) rest ∧
        next.advance c cs = .fails (.lineTooLong n) rest') :
    d.Settles b := by
  refine .inl ⟨next, ?_⟩
  rintro (_ | ⟨c, cs⟩)
  · exact .inl (parse_proceeds hd hnil)
  · obtain h | ⟨n, rest, rest', h, h'⟩ := hcons c cs
    · rcases h' : next.advance c cs with ⟨_, _⟩ | ⟨_, _⟩
      · exact .inl ((parse_proceeds hd (h.trans h')).trans (parse_proceeds hn h').symm)
      · exact .inl ((parse_fails hd (h.trans h')).trans (parse_fails hn h').symm)
    · rw [parse_fails hd h, parse_fails hn h']
      exact .inr ⟨n, n, rfl, rfl⟩

theorem settles_start (frames : List Frame) (b : UInt8) : Settles ⟨.start, frames⟩ b := by
  rcases h : LineKind.ofMark? b with _ | kind
  · exact .of_fails rfl (Nat.zero_le 1) fun bs => by simp only [advance, h]; rfl
  · exact .of_proceeds rfl _ fun bs => by simp only [advance, h]; rfl

theorem append_stretch (text : Array UInt8) (b : UInt8) (bs : Bytes) :
    text ++ (b :: bs) = text ++ [b] ++ bs := Array.ext' (by simp)

theorem size_append_stretch (text : Array UInt8) (stretch : Bytes) :
    (text ++ stretch).size = text.size + stretch.length := by
  rw [← Array.length_toList, Array.toList_appendList, List.length_append, Array.length_toList]

theorem size_append_byte (text : Array UInt8) (b : UInt8) : (text ++ [b]).size = text.size + 1 :=
  size_append_stretch text [b]

theorem size_stretch (text : Array UInt8) (b : UInt8) (bs : Bytes) :
    text.size + (b :: bs).length = (text ++ [b]).size + bs.length := by
  rw [size_append_byte, List.length_cons]
  omega

theorem settles_line (kind : LineKind) (text : Array UInt8) (frames : List Frame) (b : UInt8) :
    Settles ⟨.line kind text, frames⟩ b := by
  by_cases hb : b = Wire.cr
  · have htw (bs : Bytes) : (b :: bs).takeWhile (· != Wire.cr) = [] := by simp [hb]
    have hdw (bs : Bytes) : (b :: bs).dropWhile (· != Wire.cr) = b :: bs := by simp [hb]
    by_cases hsize : maxLine < text.size
    · refine .of_lineTooLong rfl fun bs => ⟨text.size, ?_⟩
      simp only [advance, htw]
      exact if_pos hsize
    · refine .of_proceeds rfl ⟨.lineEnd kind text, frames⟩ fun bs => ?_
      simp only [advance, htw, hdw]
      exact if_neg hsize
  · have hbb : (b != Wire.cr) = true := bne_iff_ne.mpr hb
    have htw (bs : Bytes) :
        (b :: bs).takeWhile (· != Wire.cr) = b :: bs.takeWhile (· != Wire.cr) :=
      List.takeWhile_cons_of_pos hbb
    have hdw (bs : Bytes) : (b :: bs).dropWhile (· != Wire.cr) = bs.dropWhile (· != Wire.cr) :=
      List.dropWhile_cons_of_pos hbb
    by_cases hsize : maxLine < text.size + 1
    · refine .of_lineTooLong rfl fun bs =>
        ⟨text.size + (b :: bs.takeWhile (· != Wire.cr)).length, ?_⟩
      simp only [advance, htw]
      exact if_pos (by rw [List.length_cons]; omega)
    · refine .of_stretch rfl ⟨.line kind (text ++ [b]), frames⟩ rfl ?_ fun c cs => ?_
      · simp only [advance, htw, hdw, List.takeWhile_nil, List.dropWhile_nil]
        exact if_neg hsize
      · simp only [advance, htw, hdw]
        rw [append_stretch, size_stretch]
        by_cases hlong : maxLine < (text ++ [b]).size + ((c :: cs).takeWhile (· != Wire.cr)).length
        · rw [if_pos hlong, if_pos hlong]
          exact .inr ⟨_, _, _, rfl, rfl⟩
        · rw [if_neg hlong, if_neg hlong]
          exact .inl rfl

theorem settles_lineEnd (kind : LineKind) (text : Array UInt8) (frames : List Frame) (b : UInt8) :
    Settles ⟨.lineEnd kind text, frames⟩ b := by
  by_cases hb : b = Wire.lf
  · rcases h : closeLine kind text frames with cause | next
    · exact .of_fails rfl (Nat.le_refl 1) fun bs => by simp only [advance, hb, h]; rfl
    · exact .of_proceeds rfl _ fun bs => by simp only [advance, hb, h]; rfl
  · exact .of_fails rfl (Nat.zero_le 1) fun bs => if_neg hb

theorem settles_bulkEnd (data : Array UInt8) (frames : List Frame) (b : UInt8) :
    Settles ⟨.bulkEnd data, frames⟩ b := by
  by_cases hb : b = Wire.cr
  · exact .of_proceeds rfl ⟨.bulkFeed data, frames⟩ fun bs => if_pos hb
  · exact .of_fails rfl (Nat.zero_le 1) fun bs => if_neg hb

theorem settles_bulkFeed (data : Array UInt8) (frames : List Frame) (b : UInt8) :
    Settles ⟨.bulkFeed data, frames⟩ b := by
  by_cases hb : b = Wire.lf
  · exact .of_proceeds rfl _ fun bs => if_pos hb
  · exact .of_fails rfl (Nat.zero_le 1) fun bs => if_neg hb

theorem settles_bulk (length : Nat) (data : Array UInt8) (frames : List Frame) (b : UInt8) :
    Settles ⟨.bulk length data, frames⟩ b := by
  obtain hfull | ⟨k, hk⟩ : length - data.size = 0 ∨ ∃ k, length - data.size = k + 1 := by
    rcases length - data.size with _ | k
    · exact .inl rfl
    · exact .inr ⟨k, rfl⟩
  · -- nothing is wanted: the byte is looked at again, as the terminator
    have hparse (bs : Bytes) : parse ⟨.bulk length data, frames⟩ (b :: bs)
        = parse ⟨.bulkEnd data, frames⟩ (b :: bs) := by
      have hn : ¬ data.size < length := by omega
      exact parse_proceeds rfl (by simp [advance, Phase.ofBulk, hfull, hn])
    obtain ⟨next, hnext⟩ | ⟨k, hk, cause, hstop⟩ := settles_bulkEnd data frames b
    · exact .inl ⟨next, fun bs => hparse bs ▸ hnext bs⟩
    · exact .inr ⟨k, hk, cause, fun bs => hparse bs ▸ hstop bs⟩
  · have hadv (bs : Bytes) : advance ⟨.bulk length data, frames⟩ b bs
        = .proceeds ⟨.ofBulk length (data ++ [b] ++ bs.take k), frames⟩ (bs.drop k) := by
      simp only [advance, hk, List.take_succ_cons, List.drop_succ_cons]
      rw [append_stretch]
    rcases k with _ | k
    · refine .of_proceeds rfl ⟨.ofBulk length (data ++ [b]), frames⟩ fun bs => ?_
      rw [hadv, List.take_zero, List.drop_zero]
      simp
    · have hsize : (data ++ [b]).size < length := by rw [size_append_byte]; omega
      have hwant : length - (data ++ [b]).size = k + 1 := by rw [size_append_byte]; omega
      refine .of_stretch rfl ⟨.bulk length (data ++ [b]), frames⟩ rfl ?_
        fun c cs => .inl ?_
      · rw [hadv, List.take_nil, List.drop_nil, ← append_stretch, Phase.ofBulk, if_pos hsize]
      · rw [hadv]
        simp only [advance, hwant]

/-- **One byte and then the rest** is as good as both at once. -/
theorem settles_of_reading {d : Decoder} (hd : d.reading) (b : UInt8) : d.Settles b := by
  obtain ⟨phase, frames⟩ := d
  cases phase with
  | start => exact settles_start frames b
  | line kind text => exact settles_line kind text frames b
  | lineEnd kind text => exact settles_lineEnd kind text frames b
  | bulk length data => exact settles_bulk length data frames b
  | bulkEnd data => exact settles_bulkEnd data frames b
  | bulkFeed data => exact settles_bulkFeed data frames b
  | done _ => cases hd
  | poisoned _ => cases hd

/-! ## A beginning, then the rest -/

/-- **A parse that goes on** with more input.  One that has come to an end leaves it over. -/
def Parsed.andThen (p : Parsed) (more : Bytes) : Parsed :=
  match p.1 with
  | .incomplete => p.2.2.parse more
  | .completed | .failed _ => (p.1, p.2.1 ++ more, p.2.2)

theorem Agree.andThen {p q : Parsed} (h : Agree p q) (more : Bytes) :
    Agree (p.andThen more) (q.andThen more) := by
  obtain rfl | ⟨m, n, hm, hn⟩ := h
  · exact .inl rfl
  · refine .inr ⟨m, n, ?_, ?_⟩
    · rw [Parsed.andThen, hm]
    · rw [Parsed.andThen, hn]

theorem parse_append_of_not_reading {d : Decoder} (hd : ¬ d.reading) (s t : Bytes) :
    d.parse (s ++ t) = Parsed.andThen (d.parse s) t := by
  cases h : d.phase with
  | done v => rw [parse_done h, parse_done h, Parsed.andThen]
  | poisoned cause => rw [parse_poisoned h, parse_poisoned h, Parsed.andThen]
  | _ => exact absurd (by simp only [reading, h]) hd

/-- **A parse of two pieces** is the parse of the first, which goes on with the second. -/
theorem parse_append (d : Decoder) (s t : Bytes) :
    Agree (d.parse (s ++ t)) (Parsed.andThen (d.parse s) t) := by
  induction s generalizing d with
  | nil =>
    by_cases hd : d.reading
    · exact .inl (by rw [parse_nil hd]; rfl)
    · exact .inl (parse_append_of_not_reading hd [] t)
  | cons b s ih =>
    by_cases hd : d.reading
    · obtain ⟨next, hnext⟩ | ⟨k, hk, cause, hstop⟩ := settles_of_reading hd b
      · exact (hnext (s ++ t)).trans ((ih next).trans ((hnext s).symm.andThen t))
      · have hdrop : (b :: (s ++ t)).drop k = (b :: s).drop k ++ t := by
          rw [← List.cons_append, List.drop_append_of_le_length]
          exact Nat.le_trans hk (Nat.succ_pos _)
        have hwhole := hstop (s ++ t)
        rw [hdrop] at hwhole
        exact hwhole.trans ((hstop s).andThen t).symm
    · exact .inl (parse_append_of_not_reading hd (b :: s) t)

/-! ## How much is used -/

/-- The input that a step leaves over. -/
def Advance.rest : Advance → Bytes
  | .proceeds _ rest | .fails _ rest => rest

theorem advance_suffix (d : Decoder) (b : UInt8) (bs : Bytes) :
    (d.advance b bs).rest <:+ b :: bs := by
  have htail : bs <:+ b :: bs := List.suffix_cons b bs
  unfold advance
  split
  · split
    · exact htail
    · exact List.suffix_rfl
  · dsimp only
    split
    · exact List.suffix_rfl
    · split
      · exact List.nil_suffix
      · rename_i x rest hd
        have hdrop := List.dropWhile_suffix (l := b :: bs) (· != Wire.cr)
        rw [hd] at hdrop
        exact (List.suffix_cons x rest).trans hdrop
  · split
    · split
      · exact htail
      · exact htail
    · exact List.suffix_rfl
  · exact List.drop_suffix _ _
  · split
    · exact htail
    · exact List.suffix_rfl
  · split
    · exact htail
    · exact List.suffix_rfl
  · exact htail
  · exact htail

/-- **What is left over is an end of the input.** -/
theorem parse_suffix (d : Decoder) (input : Bytes) : (d.parse input).2.1 <:+ input := by
  fun_induction parse d input with
  | case1 => exact List.suffix_rfl
  | case2 => exact List.suffix_rfl
  | case3 => exact List.suffix_rfl
  | case4 d b bs next rest hs _ _ ih =>
    have hrest := d.advance_suffix b bs
    rw [hs] at hrest
    exact ih.trans hrest
  | case5 d b bs cause rest hs =>
    have hrest := d.advance_suffix b bs
    rw [hs] at hrest
    exact hrest

theorem suffix_of_parse {d e : Decoder} {outcome : Outcome} {input rest : Bytes}
    (h : d.parse input = (outcome, rest, e)) : rest <:+ input := by
  have hsuffix := d.parse_suffix input
  rw [h] at hsuffix
  exact hsuffix

theorem phase_of_completed {d e : Decoder} {input rest : Bytes}
    (h : d.parse input = (.completed, rest, e)) : ∃ v, e.phase = .done v := by
  fun_induction parse d input with
  | case1 d input v hd =>
    cases h
    exact ⟨v, hd⟩
  | case2 => cases h
  | case3 => cases h
  | case4 _ _ _ _ _ _ _ _ ih => exact ih h
  | case5 => cases h

/-- A parse that fails poisons the decoder. -/
theorem phase_of_failed {d e : Decoder} {input rest : Bytes} {cause : Malformed}
    (h : d.parse input = (.failed cause, rest, e)) : e.phase = .poisoned cause := by
  fun_induction parse d input with
  | case1 => cases h
  | case2 d input cause hd =>
    cases h
    exact hd
  | case3 => cases h
  | case4 _ _ _ _ _ _ _ _ ih => exact ih h
  | case5 =>
    cases h
    rfl

theorem take_of_done {d : Decoder} {v : Value} (h : d.phase = .done v) :
    d.take = (some v, ⟨.start, d.frames⟩) := by rw [take, h]

theorem take_of_not_done {d : Decoder} (h : ∀ v, d.phase ≠ .done v) : d.take = (none, d) := by
  rw [take]
  split
  · rename_i v hd
    exact absurd hd (h v)
  · rfl

/-- A parse that goes on has used all its input. -/
theorem rest_of_incomplete {d e : Decoder} {input rest : Bytes}
    (h : d.parse input = (.incomplete, rest, e)) : rest = [] := by
  fun_induction parse d input with
  | case1 => cases h
  | case2 => cases h
  | case3 =>
    cases h
    rfl
  | case4 _ _ _ _ _ _ _ _ ih => exact ih h
  | case5 => cases h

/-- **How many bytes of the input a parse uses.** -/
def consumed (d : Decoder) (input : Bytes) : Nat := input.length - (d.parse input).2.1.length

/-- **The decoder uses `n` bytes of the input** and then has the value `v` to hand out. -/
structure Yields (d : Decoder) (input : Bytes) (n : Nat) (v : Value) : Prop where
  completed : (d.parse input).1 = .completed
  consumed : d.consumed input = n
  taken : (d.parse input).2.2.take.1 = some v

end Decoder

end RespClient
