import RespClient.Proofs.Wire.Chunks

/-!
# Proofs/Wire/Reading — values out of a stream, whatever its pieces

    harvest (s ++ t)  =  harvest s, then harvest t

Reading takes value after value from its input (`harvest`): it comes to the values, the fault that
stopped it, if any, the number of bytes it used, and the decoder after them.  Readings join
(`harvest_append`), since parses do; so a stream read in pieces comes to what the whole comes to
(`readPieces_alike`), and two ways to cut it come to the same (`readPieces_congr`).  Only the number in
`lineTooLong`, and with it where such a line was given up, tells how much was seen at once.
What is said here of a decoder holds of registers in all their parts (`Proofs/Wire/Bytewise`).
-/

namespace RespClient

/-- **The same cause**, up to the number of bytes seen of a line too long. -/
inductive Malformed.Alike : Malformed → Malformed → Prop
  | refl (cause : Malformed) : Alike cause cause
  | lineTooLong (m n : Nat) : Alike (.lineTooLong m) (.lineTooLong n)

namespace Malformed.Alike

theorem symm {a b : Malformed} (h : a.Alike b) : b.Alike a := by
  obtain _ | _ := h
  · exact .refl _
  · exact .lineTooLong _ _

theorem trans {a b c : Malformed} (h : a.Alike b) (h' : b.Alike c) : a.Alike c := by
  obtain _ | ⟨m, n⟩ := h
  · exact h'
  · obtain _ | ⟨_, k⟩ := h'
    · exact .lineTooLong _ _
    · exact .lineTooLong _ _

theorem rel_refl (cause? : Option Malformed) : Option.Rel Malformed.Alike cause? cause? := by
  cases cause? with
  | none => exact .none
  | some cause => exact .some (.refl cause)

theorem none_iff {a? b? : Option Malformed} (h : Option.Rel Malformed.Alike a? b?) :
    a? = none ↔ b? = none := by
  rcases h with h | _
  · exact ⟨nofun, nofun⟩
  · exact Iff.rfl

end Malformed.Alike

/-- The cause of a failure, if the parse failed. -/
def Outcome.cause? : Outcome → Option Malformed
  | .failed cause => some cause
  | _ => none

namespace Decoder

/-! ## Reading values

`readAll` carries the values before and the last outcome with it; what is read does not depend on them
(`readOn_eq`). -/

/-- The values that the input completes. -/
def values (d : Decoder) (input : Bytes) : List Value := (d.readAll input).values.toList

/-- Why reading stops before the end of the input, if it does. -/
def fault? (d : Decoder) (input : Bytes) : Option Malformed := (d.readAll input).outcome.cause?

/-- The input left over. -/
def left (d : Decoder) (input : Bytes) : Bytes := (d.readAll input).rest

/-- The decoder after the input. -/
def after (d : Decoder) (input : Bytes) : Decoder := (d.readAll input).decoder

/-- **Reading goes value by value**: the input is used up, or the last parse completes nothing, or it
completes a value and reading goes on behind it. -/
theorem reading_induction {P : Decoder → Bytes → Prop} (nil : ∀ d, P d [])
    (stopped : ∀ d e input rest outcome, input ≠ [] → d.parse input = (outcome, rest, e) →
      outcome ≠ .completed → P d input)
    (value : ∀ d e input rest v, input ≠ [] → d.parse input = (.completed, rest, e) →
      e.phase = .done v → P ⟨.start, e.frames⟩ rest → P d input)
    (d : Decoder) (input : Bytes) : P d input := by
  induction hn : d.backlog input using Nat.strongRecOn generalizing d input with
  | ind n ih =>
    by_cases hi : input = []
    · exact hi ▸ nil d
    · rcases hp : d.parse input with ⟨outcome, rest, e⟩
      by_cases ho : outcome = .completed
      · subst ho
        obtain ⟨v, hv⟩ := phase_of_completed hp
        exact value d e input rest v hi hp hv
          (ih _ (hn ▸ backlog_lt_of_take hp (take_of_done hv)) _ _ rfl)
      · exact stopped d e input rest outcome hi hp ho

theorem readOn_nil (d : Decoder) (vs : Array Value) (last : Outcome) :
    d.readOn [] vs last = ⟨vs, last, [], d⟩ := by
  rw [readOn]
  rfl

theorem readOn_stopped {d e : Decoder} {input rest : Bytes} {outcome : Outcome} (hi : input ≠ [])
    (h : d.parse input = (outcome, rest, e)) (hn : outcome ≠ .completed) (vs : Array Value)
    (last : Outcome) : d.readOn input vs last = ⟨vs, outcome, rest, e⟩ := by
  rw [readOn, if_neg (by simpa using hi)]
  split
  · rename_i hp
    exact absurd (congrArg Prod.fst (h.symm.trans hp)) hn
  · rename_i hp
    cases h.symm.trans hp
    rfl

theorem readOn_value {d e : Decoder} {input rest : Bytes} {v : Value} (hi : input ≠ [])
    (h : d.parse input = (.completed, rest, e)) (hv : e.phase = .done v) (vs : Array Value)
    (last : Outcome) :
    d.readOn input vs last = readOn ⟨.start, e.frames⟩ rest (vs.push v) .completed := by
  rw [readOn, if_neg (by simpa using hi)]
  split
  · rename_i hp
    cases h.symm.trans hp
    split
    · rename_i ht
      cases (take_of_done hv).symm.trans ht
      rfl
    · rename_i ht
      cases (take_of_done hv).symm.trans ht
  · rename_i hn hp
    exact absurd (congrArg Prod.fst (hp.symm.trans h)) hn

/-- What is read behind some values, if the outcome before was no fault. -/
theorem readOn_eq (d : Decoder) (input : Bytes) (vs : Array Value) (last : Outcome)
    (hl : last.cause? = none) :
    (d.readOn input vs last).values.toList = vs.toList ++ d.values input ∧
      (d.readOn input vs last).outcome.cause? = d.fault? input ∧
      (d.readOn input vs last).rest = d.left input ∧
      (d.readOn input vs last).decoder = d.after input := by
  induction d, input using reading_induction generalizing vs last with
  | nil d => simp [values, fault?, left, after, readAll, readOn_nil, hl, Outcome.cause?.eq_2]
  | stopped d e input rest outcome hi hp ho =>
    simp [values, fault?, left, after, readAll, readOn_stopped hi hp ho]
  | value d e input rest v hi hp hv ih =>
    obtain ⟨h₁, h₂, h₃, h₄⟩ := ih (vs.push v) .completed rfl
    obtain ⟨k₁, k₂, k₃, k₄⟩ := ih (#[].push v) .completed rfl
    simp only [values, fault?, left, after, readAll, readOn_value hi hp hv] at *
    rw [h₁, h₂, h₃, h₄, k₁, k₂, k₃, k₄]
    simp

theorem left_suffix (d : Decoder) (input : Bytes) : d.left input <:+ input := by
  induction d, input using reading_induction with
  | nil d => simp [left, readAll, readOn_nil]
  | stopped d e input rest outcome hi hp ho =>
    rw [left, readAll, readOn_stopped hi hp ho]
    exact suffix_of_parse hp
  | value d e input rest v hi hp hv ih =>
    have hleft := (readOn_eq ⟨.start, e.frames⟩ rest (#[].push v) .completed rfl).2.2.1
    rw [left, readAll, readOn_value hi hp hv, hleft]
    exact ih.trans (suffix_of_parse hp)

/-! ## The harvest -/

/-- **What reading input comes to**: the values, the fault that stopped it, if any, how many bytes it
used, and the decoder after them. -/
@[ext]
structure Harvest where
  values : List Value
  fault? : Option Malformed
  used : Nat
  decoder : Decoder

namespace Harvest

/-- The harvest behind some values, read from so many bytes. -/
def behind (vs : List Value) (k : Nat) (h : Harvest) : Harvest :=
  { h with values := vs ++ h.values, used := k + h.used }

/-- **A harvest that goes on** with more input.  A fault ends it. -/
def andThen (h : Harvest) (more : Decoder → Harvest) : Harvest :=
  match h.fault? with
  | some _ => h
  | none => (more h.decoder).behind h.values h.used

/-- **Two harvests that come to the same**: equal, or of the same values and both stopped in a line too
long. -/
def Alike (h k : Harvest) : Prop :=
  h = k ∨ h.values = k.values ∧
    ∃ m n, h.fault? = some (.lineTooLong m) ∧ k.fault? = some (.lineTooLong n)

theorem Alike.symm {h k : Harvest} (hk : Alike h k) : Alike k h := by
  obtain rfl | ⟨hv, m, n, hm, hn⟩ := hk
  · exact .inl rfl
  · exact .inr ⟨hv.symm, n, m, hn, hm⟩

theorem Alike.trans {h k l : Harvest} (hk : Alike h k) (kl : Alike k l) : Alike h l := by
  obtain rfl | ⟨hv, m, n, hm, hn⟩ := hk
  · exact kl
  · obtain rfl | ⟨kv, _, j, _, hj⟩ := kl
    · exact .inr ⟨hv, m, n, hm, hn⟩
    · exact .inr ⟨hv.trans kv, m, j, hm, hj⟩

theorem Alike.behind {h k : Harvest} (hk : Alike h k) (vs : List Value) (i : Nat) :
    Alike (h.behind vs i) (k.behind vs i) := by
  obtain rfl | ⟨hv, m, n, hm, hn⟩ := hk
  · exact .inl rfl
  · exact .inr ⟨congrArg (vs ++ ·) hv, m, n, hm, hn⟩

theorem Alike.andThen {more more' : Decoder → Harvest} (hm : ∀ d, Alike (more d) (more' d))
    (h : Harvest) : Alike (h.andThen more) (h.andThen more') := by
  unfold Harvest.andThen
  split
  · exact .inl rfl
  · exact (hm h.decoder).behind h.values h.used

/-- What stands in front stays there. -/
theorem behind_andThen (h : Harvest) (vs : List Value) (k : Nat) (more : Decoder → Harvest) :
    (h.behind vs k).andThen more = (h.andThen more).behind vs k := by
  obtain ⟨ws, _ | cause, l, d⟩ := h
  · simp [andThen, behind, Nat.add_assoc]
  · rfl

end Harvest

/-- **What the decoder reads from the input.** -/
def harvest (d : Decoder) (input : Bytes) : Harvest where
  values := d.values input
  fault? := d.fault? input
  used := input.length - (d.left input).length
  decoder := d.after input

theorem harvest_nil (d : Decoder) : d.harvest [] = ⟨[], none, 0, d⟩ := by
  simp [harvest, values, fault?, after, readAll, readOn_nil, Outcome.cause?]

theorem harvest_stopped {d e : Decoder} {input rest : Bytes} {outcome : Outcome} (hi : input ≠ [])
    (h : d.parse input = (outcome, rest, e)) (hn : outcome ≠ .completed) :
    d.harvest input = ⟨[], outcome.cause?, input.length - rest.length, e⟩ := by
  simp [harvest, values, fault?, left, after, readAll, readOn_stopped hi h hn]

theorem harvest_value {d e : Decoder} {input rest : Bytes} {v : Value} (hi : input ≠ [])
    (h : d.parse input = (.completed, rest, e)) (hv : e.phase = .done v) :
    d.harvest input = (harvest ⟨.start, e.frames⟩ rest).behind [v] (input.length - rest.length) := by
  obtain ⟨h₁, h₂, h₃, h₄⟩ := readOn_eq ⟨.start, e.frames⟩ rest (#[].push v) .completed rfl
  have hrest := (suffix_of_parse h).length_le
  have hleft := (left_suffix ⟨.start, e.frames⟩ rest).length_le
  have hused : input.length - (left ⟨.start, e.frames⟩ rest).length
      = input.length - rest.length + (rest.length - (left ⟨.start, e.frames⟩ rest).length) := by
    omega
  have hread : d.readAll input = readOn ⟨.start, e.frames⟩ rest (#[].push v) .completed :=
    readOn_value hi h hv _ _
  rw [harvest, values, fault?, after, left, hread, h₁, h₂, h₃, h₄, hused]
  rfl

/-- **A harvest without a fault uses all its input.** -/
theorem used_harvest {d : Decoder} {input : Bytes} (h : d.fault? input = none) :
    (d.harvest input).used = input.length := by
  induction d, input using reading_induction with
  | nil d => rw [harvest_nil]; rfl
  | stopped d e input rest outcome hi hp ho =>
    have hh := harvest_stopped hi hp ho
    rcases outcome with _ | _ | cause
    · exact absurd rfl ho
    · rw [hh, rest_of_incomplete hp]
      rfl
    · cases (congrArg Harvest.fault? hh).symm.trans h
  | value d e input rest v hi hp hv ih =>
    have hh := harvest_value hi hp hv
    have hused := ih ((congrArg Harvest.fault? hh).symm.trans h)
    have hlen := (suffix_of_parse hp).length_le
    rw [hh, Harvest.behind, hused]
    dsimp only
    omega

/-- The same parse, of more input by `s`, is the same harvest behind it. -/
theorem harvest_of_parse_eq {d e : Decoder} {s t : Bytes} (ht : t ≠ [])
    (h : d.parse (s ++ t) = e.parse t) :
    d.harvest (s ++ t) = (e.harvest t).behind [] s.length := by
  rcases hq : e.parse t with ⟨outcome, rest, d'⟩
  have hp : d.parse (s ++ t) = (outcome, rest, d') := h.trans hq
  have hst : s ++ t ≠ [] := List.append_ne_nil_of_right_ne_nil s ht
  have hrest := (suffix_of_parse hq).length_le
  have hused : (s ++ t).length - rest.length = s.length + (t.length - rest.length) := by
    rw [List.length_append]
    omega
  by_cases ho : outcome = .completed
  · subst ho
    obtain ⟨v, hv⟩ := phase_of_completed hp
    rw [harvest_value hst hp hv, harvest_value ht hq hv, hused]
    simp only [Harvest.behind, List.nil_append, Nat.add_assoc]
  · rw [harvest_stopped hst hp ho, harvest_stopped ht hq ho, hused]
    rfl

/-- Parses that both stopped in a line too long. -/
theorem harvest_of_lineTooLong {d : Decoder} {input : Bytes} {n : Nat} (hi : input ≠ [])
    (h : (d.parse input).1 = .failed (.lineTooLong n)) :
    (d.harvest input).values = [] ∧ (d.harvest input).fault? = some (.lineTooLong n) := by
  rcases hp : d.parse input with ⟨outcome, rest, e⟩
  rw [hp] at h
  dsimp only at h
  subst h
  rw [harvest_stopped hi hp (by simp)]
  exact ⟨rfl, rfl⟩

/-- **Readings join**: what is read of two pieces is what is read of the first, then of the second. -/
theorem harvest_append (d : Decoder) (s t : Bytes) :
    (d.harvest (s ++ t)).Alike ((d.harvest s).andThen (·.harvest t)) := by
  induction d, s using reading_induction with
  | nil d =>
    rw [harvest_nil, List.nil_append]
    exact .inl (by simp [Harvest.andThen, Harvest.behind])
  | stopped d e s rest outcome hi hp ho =>
    have hst : s ++ t ≠ [] := List.append_ne_nil_of_left_ne_nil hi t
    have hagree := parse_append d s t
    rw [hp] at hagree
    rw [harvest_stopped hi hp ho]
    rcases outcome with _ | _ | cause
    · exact absurd rfl ho
    · obtain rfl := rest_of_incomplete hp
      by_cases ht : t = []
      · subst ht
        rw [List.append_nil, harvest_stopped hi hp ho]
        exact .inl (by simp [Harvest.andThen, Harvest.behind, harvest_nil, Outcome.cause?])
      · obtain h | ⟨m, n, hm, hn⟩ := hagree
        · exact .inl (harvest_of_parse_eq ht h)
        · obtain ⟨hv, hf⟩ := harvest_of_lineTooLong hst hm
          obtain ⟨kv, kf⟩ := harvest_of_lineTooLong ht hn
          exact .inr ⟨hv.trans kv.symm, m, n, hf, kf⟩
    · obtain h | ⟨m, n, hm, hn⟩ := hagree
      · rw [harvest_stopped hst h (by simp), List.length_append, List.length_append,
          Nat.add_sub_add_right]
        exact .inl rfl
      · obtain ⟨hv, hf⟩ := harvest_of_lineTooLong hst hm
        refine .inr ⟨hv, m, n, hf, ?_⟩
        exact congrArg Outcome.cause? hn
  | value d e s rest v hi hp hv ih =>
    have hq : d.parse (s ++ t) = (.completed, rest ++ t, e) := by
      have := parse_append d s t
      rw [hp] at this
      exact this.eq_of_completed
    have hused : (s ++ t).length - (rest ++ t).length = s.length - rest.length := by
      rw [List.length_append, List.length_append, Nat.add_sub_add_right]
    rw [harvest_value hi hp hv, harvest_value (List.append_ne_nil_of_left_ne_nil hi t) hq hv, hused,
      Harvest.behind_andThen]
    exact ih.behind [v] _

/-- The three parts of a reading, for one that stops and for one that finds a value first. -/
theorem read_nil (d : Decoder) : d.values [] = [] ∧ d.fault? [] = none ∧ d.after [] = d := by
  have h := harvest_nil d
  exact ⟨congrArg (·.values) h, congrArg (·.fault?) h, congrArg (·.decoder) h⟩

theorem read_stopped {d e : Decoder} {input rest : Bytes} {outcome : Outcome} (hi : input ≠ [])
    (h : d.parse input = (outcome, rest, e)) (hn : outcome ≠ .completed) :
    d.values input = [] ∧ d.fault? input = outcome.cause? ∧ d.after input = e := by
  have h := harvest_stopped hi h hn
  exact ⟨congrArg (·.values) h, congrArg (·.fault?) h, congrArg (·.decoder) h⟩

theorem read_value {d e : Decoder} {input rest : Bytes} {v : Value} (hi : input ≠ [])
    (h : d.parse input = (.completed, rest, e)) (hv : e.phase = .done v) :
    d.values input = v :: values ⟨.start, e.frames⟩ rest ∧
      d.fault? input = fault? ⟨.start, e.frames⟩ rest ∧
      d.after input = after ⟨.start, e.frames⟩ rest := by
  have h := harvest_value hi h hv
  exact ⟨congrArg (·.values) h, congrArg (·.fault?) h, congrArg (·.decoder) h⟩

/-- What is read of two pieces, if the first has no fault. -/
theorem read_append {d : Decoder} {s : Bytes} (hs : d.fault? s = none) (t : Bytes) :
    d.values (s ++ t) = d.values s ++ (d.after s).values t ∧
      Option.Rel Malformed.Alike (d.fault? (s ++ t)) ((d.after s).fault? t) ∧
      (d.fault? (s ++ t) = none → d.after (s ++ t) = (d.after s).after t) := by
  have hthen : (d.harvest s).andThen (·.harvest t)
      = ((d.after s).harvest t).behind (d.values s) (d.harvest s).used := by
    rw [Harvest.andThen, show (d.harvest s).fault? = none from hs]
    rfl
  obtain h | ⟨hv, m, n, hm, hn⟩ := hthen ▸ d.harvest_append s t
  · have hf : d.fault? (s ++ t) = (d.after s).fault? t := congrArg (·.fault?) h
    refine ⟨congrArg (·.values) h, ?_, fun _ => congrArg (·.decoder) h⟩
    rw [hf]
    exact Malformed.Alike.rel_refl _
  · have hm : d.fault? (s ++ t) = some (.lineTooLong m) := hm
    have hn : (d.after s).fault? t = some (.lineTooLong n) := hn
    rw [hm, hn]
    exact ⟨hv, .some (.lineTooLong m n), fun h => by cases h⟩

/-- **What is malformed stays so**, whatever comes after it. -/
theorem read_append_of_fault {d : Decoder} {s : Bytes} {cause : Malformed}
    (hs : d.fault? s = some cause) (t : Bytes) :
    d.values (s ++ t) = d.values s ∧ ∃ a, d.fault? (s ++ t) = some a ∧ cause.Alike a := by
  have hthen : (d.harvest s).andThen (·.harvest t) = d.harvest s := by
    rw [Harvest.andThen, show (d.harvest s).fault? = some cause from hs]
  obtain h | ⟨hv, m, n, hm, hn⟩ := hthen ▸ d.harvest_append s t
  · exact ⟨congrArg (·.values) h, cause, (congrArg (·.fault?) h).trans hs, .refl cause⟩
  · obtain rfl : cause = .lineTooLong n := Option.some.inj (hs.symm.trans hn)
    exact ⟨hv, .lineTooLong m, hm, .lineTooLong n m⟩

/-! ## Piece by piece -/

/-- **A stream read in pieces**, one after another, up to the first fault. -/
def readPieces (d : Decoder) : List Bytes → Harvest
  | [] => ⟨[], none, 0, d⟩
  | s :: ss => (d.harvest s).andThen fun d => d.readPieces ss

/-- **The pieces come to what the whole comes to.** -/
theorem readPieces_alike (d : Decoder) (ss : List Bytes) :
    (d.readPieces ss).Alike (d.harvest ss.flatten) := by
  induction ss generalizing d with
  | nil =>
    rw [List.flatten_nil, harvest_nil]
    exact .inl rfl
  | cons s ss ih =>
    rw [List.flatten_cons]
    exact (Harvest.Alike.andThen ih (d.harvest s)).trans (d.harvest_append s ss.flatten).symm

/-- **Where a stream is cut does not matter.**  Two ways to cut it give the same values and end in the
same way: both use it up and leave the same decoder, or both stop at the same byte for the same cause, or
both stop in a line too long. -/
theorem readPieces_congr (d : Decoder) {ss ts : List Bytes} (h : ss.flatten = ts.flatten) :
    let p := d.readPieces ss
    let q := d.readPieces ts
    p.values = q.values ∧
      (p.fault? = none ∧ q.fault? = none ∧
          p.used = ss.flatten.length ∧ q.used = ss.flatten.length ∧ p.decoder = q.decoder ∨
        (∃ cause, p.fault? = some cause ∧ q.fault? = some cause ∧ p.used = q.used) ∨
        ∃ m n, p.fault? = some (.lineTooLong m) ∧ q.fault? = some (.lineTooLong n)) := by
  have hss := d.readPieces_alike ss
  have hts := d.readPieces_alike ts
  rw [← h] at hts
  obtain hpq | ⟨hv, hlong⟩ := hss.trans hts.symm
  · dsimp only
    rw [← hpq]
    refine ⟨rfl, ?_⟩
    rcases hf : (d.readPieces ss).fault? with _ | cause
    · have hused : (d.readPieces ss).used = ss.flatten.length := by
        obtain hw | ⟨-, m, n, hm, -⟩ := hss
        · rw [hw]
          exact used_harvest ((congrArg (·.fault?) hw).symm.trans hf)
        · cases hm.symm.trans hf
      exact .inl ⟨rfl, rfl, hused, hused, rfl⟩
    · exact .inr (.inl ⟨cause, rfl, rfl, rfl⟩)
  · exact ⟨hv, .inr (.inr hlong)⟩

/-- A decoder inside an integer, the first of two elements. -/
def begun : Decoder := empty.after (Utf8.encode "*2\r\n:1")

/-- The rest of the array, and the beginning of a line behind it, cut inside the end of a line. -/
def halves : List Bytes := ["5\r", "\n$0\r\n\r\n+O"].map Utf8.encode

/-- The same, byte by byte. -/
def bytewise : List Bytes := halves.flatten.map fun b => [b]

theorem readPieces_congr_halves :
    halves.flatten = bytewise.flatten ∧
      (begun.readPieces halves).values = [.array [.integer 15, .bytes []]] ∧
      (begun.readPieces halves).fault? = none ∧
      begun.readPieces bytewise = begun.readPieces halves := by
  have h : halves.flatten = bytewise.flatten := by decide +kernel
  have hfault : (begun.readPieces halves).fault? = none := by decide +kernel
  obtain ⟨hv, ⟨hp, hq, hused, hused', hd⟩ | ⟨cause, hp, -⟩ | ⟨m, n, hp, -⟩⟩ :=
    begun.readPieces_congr h
  · refine ⟨h, by decide +kernel, hfault, ?_⟩
    exact Harvest.ext hv.symm (hq.trans hp.symm) (hused'.trans hused.symm) hd.symm
  · cases hp.symm.trans hfault
  · cases hp.symm.trans hfault

/-! ## Values one after another -/

/-- **Bytes that spell a value**: a decoder before its first byte reads just this value from them. -/
def Spells (bytes : Bytes) (v : Value) : Prop :=
  empty.parse bytes = (.completed, [], ⟨.done v, []⟩)

instance (bytes : Bytes) (v : Value) : Decidable (Spells bytes v) := by
  unfold Spells; infer_instance

/-- **A stream that still holds some values**: the decoder, which may stand inside the first of them,
reads these and is then as new. -/
structure Reads (d : Decoder) (stream : Bytes) (vs : List Value) : Prop where
  values : d.values stream = vs
  fault : d.fault? stream = none
  after : d.after stream = empty

theorem Reads.nil : Reads empty [] [] := ⟨(read_nil _).1, (read_nil _).2.1, (read_nil _).2.2⟩

theorem Spells.reads {bytes : Bytes} {v : Value} (h : Spells bytes v) : Reads empty bytes [v] := by
  have hne : bytes ≠ [] := by
    rintro rfl
    cases (parse_nil rfl).symm.trans h
  obtain ⟨h₁, h₂, h₃⟩ := read_value hne h rfl
  obtain ⟨k₁, k₂, k₃⟩ := read_nil empty
  exact ⟨h₁.trans (congrArg (v :: ·) k₁), h₂.trans k₂, h₃.trans k₃⟩

/-- **Streams one after the other**: the second is read where the first left off. -/
theorem Reads.join {d : Decoder} {s t : Bytes} {vs ws : List Value} (h : Reads d s vs)
    (h' : Reads empty t ws) : Reads d (s ++ t) (vs ++ ws) := by
  obtain ⟨h₁, h₂, h₃⟩ := read_append h.fault t
  rw [h.after] at h₁ h₂ h₃
  rw [h'.fault] at h₂
  have hf : d.fault? (s ++ t) = none := (Malformed.Alike.none_iff h₂).mpr rfl
  exact ⟨by rw [h₁, h.values, h'.values], hf, (h₃ hf).trans h'.after⟩

/-- **A value sent after others** is read after them. -/
theorem Reads.append {d : Decoder} {stream bytes : Bytes} {vs : List Value} {v : Value}
    (h : Reads d stream vs) (hv : Spells bytes v) : Reads d (stream ++ bytes) (vs ++ [v]) :=
  h.join hv.reads

/-- **A stream cut in two**: the first piece completes the first values, the second holds the others. -/
theorem Reads.cut {d : Decoder} {s t : Bytes} {vs : List Value} (h : Reads d (s ++ t) vs) :
    d.fault? s = none ∧ ∃ ws, vs = d.values s ++ ws ∧ Reads (d.after s) t ws := by
  have hs : d.fault? s = none := by
    cases hc : d.fault? s with
    | none => rfl
    | some cause =>
      obtain ⟨-, a, ha, -⟩ := read_append_of_fault hc t
      cases h.fault.symm.trans ha
  obtain ⟨h₁, h₂, h₃⟩ := read_append hs t
  have hf := (Malformed.Alike.none_iff h₂).mp h.fault
  exact ⟨hs, _, h.values.symm.trans h₁, rfl, hf, (h₃ h.fault).symm.trans h.after⟩

/-- **The same stream in pieces**, however it is cut. -/
theorem Reads.pieces {d : Decoder} {ss : List Bytes} {vs : List Value} (h : Reads d ss.flatten vs) :
    d.readPieces ss = ⟨vs, none, ss.flatten.length, empty⟩ := by
  obtain hw | ⟨-, m, n, -, hn⟩ := d.readPieces_alike ss
  · rw [hw]
    exact Harvest.ext h.values h.fault (used_harvest h.fault) h.after
  · cases hn.symm.trans h.fault

end Decoder

end RespClient
