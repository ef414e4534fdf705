import RespClient.Proofs.Decimal
import RespClient.Proofs.Wire.Chunks
import Mathlib.Data.List.TakeWhile

/-!
# Proofs/Wire/Grammar — which bytes are a reply

    bytes ──derive──▸ value        bytes ++ rest ──parse──▸ value, rest

The grammar of replies is a relation between bytes and the value they write (`Wire.Derives`).  The
decoder takes exactly its grammar (`parses_iff_derives`).

* **All it derives is read** (`parse_derives`): from the start of a value, inside any open arrays, its
  bytes take the decoder to where the value is complete.
* **All that is read derives** (`derives_of_parse`): the bytes that led a decoder anywhere are the length
  lines and elements of the open arrays (`Opens`), then a beginning of one more value (`Begins`); a step
  keeps this (`Led.advance`), hence a parse does (`Led.parse`).
-/

namespace RespClient

/-! ## The grammar -/

namespace Wire

/-- **The text of a line**: no CR in it, and not too long. -/
structure IsText (text : Bytes) : Prop where
  length_le : text.length ≤ maxLine
  cr_notMem : cr ∉ text

instance (text : Bytes) : Decidable (IsText text) :=
  decidable_of_iff (text.length ≤ maxLine ∧ cr ∉ text) ⟨fun h => ⟨h.1, h.2⟩, fun h => ⟨h.1, h.2⟩⟩

/-- **The line declares a length.** -/
def Declares (text : Bytes) (length : Nat) : Prop :=
  IsText text ∧ ∃ n : Int64, Decimal.Numeral text n ∧ n.toInt = length

mutual
/-- **The bytes write the value.** -/
inductive Derives : Bytes → Value → Prop
  | simple {text : Bytes} (ht : IsText text) : Derives (line simpleMark text) (.bytes text)
  | error {text : Bytes} (ht : IsText text) : Derives (line errorMark text) (.error text)
  | integer {text : Bytes} {n : Int64} (ht : IsText text) (hn : Decimal.Numeral text n) :
      Derives (line integerMark text) (.integer n)
  | absentBulk {text : Bytes} (ht : IsText text) (hn : Decimal.Numeral text (-1)) :
      Derives (line bulkMark text) .null
  | absentArray {text : Bytes} (ht : IsText text) (hn : Decimal.Numeral text (-1)) :
      Derives (line arrayMark text) .null
  | bulk {text data : Bytes} (hd : Declares text data.length) (hmax : data.length ≤ maxBulk) :
      Derives (line bulkMark text ++ data ++ crlf) (.bytes data)
  | array {text bytes : Bytes} {items : List Value} (hd : Declares text items.length)
      (h : DerivesAll bytes items) : Derives (line arrayMark text ++ bytes) (.array items)

/-- The bytes write the values, one after another. -/
inductive DerivesAll : Bytes → List Value → Prop
  | nil : DerivesAll [] []
  | cons {x xs : Bytes} {v : Value} {vs : List Value} (h : Derives x v) (hs : DerivesAll xs vs) :
      DerivesAll (x ++ xs) (v :: vs)
end

theorem DerivesAll.push {xs y : Bytes} {vs : List Value} {w : Value} (hs : DerivesAll xs vs)
    (h : Derives y w) : DerivesAll (xs ++ y) (vs ++ [w]) := by
  induction vs generalizing xs with
  | nil =>
    rcases hs with _ | _
    have hy := DerivesAll.cons h .nil
    rw [List.append_nil] at hy
    exact hy
  | cons v vs ih =>
    rcases hs with _ | ⟨hv, hvs⟩
    rw [List.append_assoc]
    exact .cons hv (ih hvs)

end Wire

open Wire

/-- The type byte that begins a line of the kind. -/
def LineKind.mark : LineKind → UInt8
  | .simple => simpleMark
  | .error => errorMark
  | .integer => integerMark
  | .bulkLength => bulkMark
  | .arrayLength => arrayMark

theorem LineKind.ofMark?_mark (kind : LineKind) : ofMark? kind.mark = some kind := by
  cases kind <;> rfl

theorem LineKind.mark_of_ofMark? {b : UInt8} {kind : LineKind} (h : ofMark? b = some kind) :
    b = kind.mark := by
  unfold ofMark? at h
  repeat' split at h
  all_goals
    cases h
    try assumption

namespace Decoder

/-! ## The end of a line

What a line comes to, said once for all that follows. -/

theorem number_eq_ok_iff {text : Array UInt8} {n : Int64} :
    number text = .ok n ↔ Decimal.Numeral text.toList n := by
  rw [number, ← Decimal.read?_eq_some_iff]
  split <;> simp_all

/-- **Where the end of a line takes a decoder**, by the kind of the line. -/
inductive Closes (text : Bytes) (frames : List Frame) : LineKind → Decoder → Prop
  | simple : Closes text frames .simple (complete (.bytes text) frames)
  | error : Closes text frames .error (complete (.error text) frames)
  | integer {n : Int64} (hn : Decimal.Numeral text n) :
      Closes text frames .integer (complete (.integer n) frames)
  | absentBulk (hn : Decimal.Numeral text (-1)) :
      Closes text frames .bulkLength (complete .null frames)
  | bulk {n : Int64} {length : Nat} (hn : Decimal.Numeral text n) (hlen : n.toInt = length)
      (hmax : length ≤ maxBulk) : Closes text frames .bulkLength ⟨.ofBulk length #[], frames⟩
  | absentArray (hn : Decimal.Numeral text (-1)) :
      Closes text frames .arrayLength (complete .null frames)
  | emptyArray (hn : Decimal.Numeral text 0) :
      Closes text frames .arrayLength (complete (.array []) frames)
  | array {n : Int64} {length : Nat} (hn : Decimal.Numeral text n) (hlen : n.toInt = length)
      (hpos : 0 < length) : Closes text frames .arrayLength ⟨.start, ⟨length, #[]⟩ :: frames⟩

theorem eq_neg_one_iff {n : Int64} : n = -1 ↔ n.toInt = -1 := Int64.toInt_inj.symm

theorem eq_zero_iff {n : Int64} : n = 0 ↔ n.toInt = 0 := Int64.toInt_inj.symm

theorem lt_neg_one_iff {n : Int64} : n < -1 ↔ n.toInt < -1 := Int64.lt_iff_toInt_lt

section

variable {text : Array UInt8} {n : Int64} (hn : Decimal.Numeral text.toList n) (frames : List Frame)

include hn

theorem closeLine_integer : closeLine .integer text frames = .ok (complete (.integer n) frames) := by
  rw [closeLine, number_eq_ok_iff.mpr hn]
  rfl

theorem closeLine_bulkLength : closeLine .bulkLength text frames =
    if n.toInt = -1 then .ok (complete .null frames)
    else if n.toInt < -1 then .error (.length n)
    else if (maxBulk : Int) < n.toInt then .error (.bulkTooLarge n)
    else .ok ⟨.ofBulk n.toInt.toNat #[], frames⟩ := by
  rw [closeLine, number_eq_ok_iff.mpr hn]
  simp only [← eq_neg_one_iff, ← lt_neg_one_iff, bind, Except.bind]
  split_ifs <;> rfl

theorem closeLine_arrayLength : closeLine .arrayLength text frames =
    if n.toInt = -1 then .ok (complete .null frames)
    else if n.toInt = 0 then .ok (complete (.array []) frames)
    else if n.toInt < -1 then .error (.length n)
    else .ok ⟨.start, ⟨n.toInt.toNat, #[]⟩ :: frames⟩ := by
  rw [closeLine, number_eq_ok_iff.mpr hn]
  simp only [← eq_neg_one_iff, ← eq_zero_iff, ← lt_neg_one_iff, bind, Except.bind]
  split_ifs <;> rfl

theorem closes_bulkLength {next : Decoder} (h : closeLine .bulkLength text frames = .ok next) :
    Closes text.toList frames .bulkLength next := by
  rw [closeLine_bulkLength hn] at h
  split at h
  · rename_i hnull
    cases h
    obtain rfl := eq_neg_one_iff.mpr hnull
    exact .absentBulk hn
  · split at h
    · cases h
    · split at h
      · cases h
      · cases h
        exact .bulk hn (by omega) (by omega)

theorem closes_arrayLength {next : Decoder} (h : closeLine .arrayLength text frames = .ok next) :
    Closes text.toList frames .arrayLength next := by
  rw [closeLine_arrayLength hn] at h
  split at h
  · rename_i hnull
    cases h
    obtain rfl := eq_neg_one_iff.mpr hnull
    exact .absentArray hn
  · split at h
    · rename_i hzero
      cases h
      obtain rfl := eq_zero_iff.mpr hzero
      exact .emptyArray hn
    · split at h
      · cases h
      · cases h
        exact .array hn (by omega) (by omega)

end

/-- A line of a number that is closed holds a numeral. -/
theorem exists_numeral {kind : LineKind} {text : Array UInt8} {frames : List Frame}
    {next : Decoder} (h : closeLine kind text frames = .ok next) (hs : kind ≠ .simple)
    (he : kind ≠ .error) : ∃ n, Decimal.Numeral text.toList n := by
  rcases hnum : number text with cause | n
  · rcases kind with _ | _ | _ | _ | _
    · exact absurd rfl hs
    · exact absurd rfl he
    all_goals
      rw [closeLine, hnum] at h
      cases h
  · exact ⟨n, number_eq_ok_iff.mp hnum⟩

theorem closeLine_eq_ok_iff {kind : LineKind} {text : Array UInt8} {frames : List Frame}
    {next : Decoder} : closeLine kind text frames = .ok next ↔ Closes text.toList frames kind next := by
  constructor
  · intro h
    rcases kind with _ | _ | _ | _ | _
    · cases h
      exact .simple
    · cases h
      exact .error
    · obtain ⟨n, hn⟩ := exists_numeral h (by simp) (by simp)
      rw [closeLine_integer hn] at h
      cases h
      exact .integer hn
    · obtain ⟨n, hn⟩ := exists_numeral h (by simp) (by simp)
      exact closes_bulkLength hn frames h
    · obtain ⟨n, hn⟩ := exists_numeral h (by simp) (by simp)
      exact closes_arrayLength hn frames h
  · rintro (_ | _ | hn | hn | ⟨hn, hlen, hmax⟩ | hn | hn | ⟨hn, hlen, hpos⟩)
    · rfl
    · rfl
    · exact closeLine_integer hn frames
    · exact closeLine_bulkLength hn frames
    · rw [closeLine_bulkLength hn, if_neg (by omega), if_neg (by omega), if_neg (by omega), hlen]
      rfl
    · exact closeLine_arrayLength hn frames
    · exact closeLine_arrayLength hn frames
    · rw [closeLine_arrayLength hn, if_neg (by omega), if_neg (by omega), if_neg (by omega), hlen]
      rfl

/-! ## All that derives is read -/

/-- A line up to its CR is one stretch. -/
theorem parse_text {text : Bytes} (ht : IsText text) (kind : LineKind) (frames : List Frame)
    (bs : Bytes) : parse ⟨.line kind #[], frames⟩ (text ++ cr :: bs)
      = parse ⟨.lineEnd kind text.toArray, frames⟩ bs := by
  have hno : ∀ b ∈ text, (b != cr) = true := fun b hb => bne_iff_ne.mpr fun h =>
    ht.cr_notMem (h ▸ hb)
  have htw : (text ++ cr :: bs).takeWhile (· != cr) = text := by
    rw [List.takeWhile_append_of_pos hno]
    exact List.append_nil text
  have hdw : (text ++ cr :: bs).dropWhile (· != cr) = cr :: bs := by
    rw [List.dropWhile_append_of_pos hno]
    rfl
  have hshort : ¬ maxLine < (#[] : Array UInt8).size + text.length := by
    have := ht.length_le
    simp only [List.size_toArray, List.length_nil]
    omega
  obtain ⟨b, cs, hb⟩ := List.exists_cons_of_ne_nil
    (List.append_ne_nil_of_right_ne_nil text (List.cons_ne_nil cr bs))
  rw [hb] at htw hdw ⊢
  refine parse_proceeds rfl ?_
  simp only [advance, htw, hdw]
  rw [if_neg hshort]
  simp

/-- **A whole line** takes the decoder where its end does. -/
theorem parse_line (kind : LineKind) {text : Bytes} {frames : List Frame} {next : Decoder}
    (ht : IsText text) (h : Closes text frames kind next) (rest : Bytes) :
    parse ⟨.start, frames⟩ (line kind.mark text ++ rest) = next.parse rest := by
  have hline : line kind.mark text ++ rest = kind.mark :: (text ++ cr :: lf :: rest) := by
    simp [line, crlf]
  have hstart : parse ⟨.start, frames⟩ (kind.mark :: (text ++ cr :: lf :: rest))
      = parse ⟨.line kind #[], frames⟩ (text ++ cr :: lf :: rest) :=
    parse_proceeds rfl (by simp only [advance, LineKind.ofMark?_mark])
  have hclose : closeLine kind text.toArray frames = .ok next := closeLine_eq_ok_iff.mpr h
  rw [hline, hstart, parse_text ht]
  exact parse_proceeds rfl (by simp only [advance, if_true, hclose])

/-- **The bytes of a bulk string** and its end. -/
theorem parse_bulk (data : Bytes) (frames : List Frame) (rest : Bytes) :
    parse ⟨.ofBulk data.length #[], frames⟩ (data ++ crlf ++ rest)
      = (complete (.bytes data) frames).parse rest := by
  have hend : parse ⟨.bulkEnd data.toArray, frames⟩ (crlf ++ rest)
      = (complete (.bytes data) frames).parse rest := by
    have hcr : parse ⟨.bulkEnd data.toArray, frames⟩ (cr :: lf :: rest)
        = parse ⟨.bulkFeed data.toArray, frames⟩ (lf :: rest) :=
      parse_proceeds rfl (by simp only [advance, if_true])
    exact hcr.trans (parse_proceeds rfl (by simp only [advance, if_true]))
  rcases data with _ | ⟨b, data⟩
  · exact hend
  · rw [← hend, List.append_assoc]
    have hfull : Phase.ofBulk (b :: data).length #[] = .bulk (b :: data).length #[] :=
      if_pos (Nat.succ_pos _)
    rw [hfull]
    refine parse_proceeds rfl ?_
    simp [advance, Phase.ofBulk]

mutual
/-- **The bytes of a value** take a decoder that is at its start to where it is complete. -/
theorem parse_derives {bytes : Bytes} {v : Value} (h : Derives bytes v) (frames : List Frame)
    (rest : Bytes) : parse ⟨.start, frames⟩ (bytes ++ rest) = (complete v frames).parse rest := by
  rcases h with ht | ht | ⟨ht, hn⟩ | ⟨ht, hn⟩ | ⟨ht, hn⟩ | ⟨⟨ht, n, hn, hlen⟩, hmax⟩ |
    ⟨⟨ht, n, hn, hlen⟩, hs⟩
  · exact parse_line .simple ht .simple rest
  · exact parse_line .error ht .error rest
  · exact parse_line .integer ht (.integer hn) rest
  · exact parse_line .bulkLength ht (.absentBulk hn) rest
  · exact parse_line .arrayLength ht (.absentArray hn) rest
  · rename_i text data
    rw [List.append_assoc, List.append_assoc, ← List.append_assoc data]
    exact (parse_line .bulkLength ht (.bulk hn hlen hmax) _).trans
      (parse_bulk data frames rest)
  · rename_i text bytes items
    rw [List.append_assoc]
    by_cases hempty : items = []
    · subst hempty
      rcases hs with _ | _
      obtain rfl := eq_zero_iff.mpr hlen
      exact parse_line .arrayLength ht (.emptyArray hn) rest
    · have hpos : 0 < items.length := List.length_pos_iff.mpr hempty
      refine (parse_line .arrayLength ht (.array hn hlen hpos) _).trans ?_
      have hall := parse_derivesAll hs hempty #[] frames rest
      rw [show (#[] : Array Value).size + items.length = items.length from Nat.zero_add _] at hall
      exact hall

/-- **The bytes of the elements** that an open array still wants. -/
theorem parse_derivesAll {bytes : Bytes} {vs : List Value} (h : DerivesAll bytes vs) (hne : vs ≠ [])
    (items : Array Value) (frames : List Frame) (rest : Bytes) :
    parse ⟨.start, ⟨items.size + vs.length, items⟩ :: frames⟩ (bytes ++ rest)
      = (complete (.array (items.toList ++ vs)) frames).parse rest := by
  rcases h with _ | ⟨hv, hs⟩
  · exact absurd rfl hne
  · rename_i x xs v vs
    rw [List.append_assoc, parse_derives hv, complete]
    dsimp only
    by_cases hlast : vs = []
    · subst hlast
      rcases hs with _ | _
      rw [if_neg (by simp)]
      simp
    · have hmore : (items.push v).size < items.size + (v :: vs).length := by
        have := List.length_pos_iff.mpr hlast
        rw [Array.size_push, List.length_cons]
        omega
      have hsize : items.size + (v :: vs).length = (items.push v).size + vs.length := by
        rw [Array.size_push, List.length_cons]
        omega
      rw [if_pos hmore, hsize, parse_derivesAll hs hlast]
      simp
end

/-! ## All that is read derives -/

/-- **The bytes of the arrays still open**, the outermost first: the length line of each, and the
elements it has. -/
inductive Opens : Bytes → List Frame → Prop
  | nil : Opens [] []
  | cons {outer text pieces : Bytes} {f : Frame} {frames : List Frame} (ho : Opens outer frames)
      (hd : Declares text f.length) (hroom : f.items.size < f.length)
      (hp : DerivesAll pieces f.items.toList) :
      Opens (outer ++ (line arrayMark text ++ pieces)) (f :: frames)

/-- **The bytes of a value so far**, by where the decoder stands in it. -/
inductive Begins : Bytes → Phase → Prop
  | start : Begins [] .start
  | line {kind : LineKind} {text : Array UInt8} (ht : IsText text.toList) :
      Begins (kind.mark :: text.toList) (.line kind text)
  | lineEnd {kind : LineKind} {text : Array UInt8} (ht : IsText text.toList) :
      Begins (kind.mark :: text.toList ++ [cr]) (.lineEnd kind text)
  | bulk {text : Bytes} {length : Nat} {data : Array UInt8} (hd : Declares text length)
      (hmax : length ≤ maxBulk) (hroom : data.size ≤ length) :
      Begins (line bulkMark text ++ data.toList) (.bulk length data)
  | bulkEnd {text : Bytes} {data : Array UInt8} (hd : Declares text data.size)
      (hmax : data.size ≤ maxBulk) : Begins (line bulkMark text ++ data.toList) (.bulkEnd data)
  | bulkFeed {text : Bytes} {data : Array UInt8} (hd : Declares text data.size)
      (hmax : data.size ≤ maxBulk) :
      Begins (line bulkMark text ++ data.toList ++ [cr]) (.bulkFeed data)

/-- **The bytes led the decoder where it stands.** -/
inductive Led : Bytes → Decoder → Prop
  | inside {outer inner : Bytes} {phase : Phase} {frames : List Frame} (ho : Opens outer frames)
      (hb : Begins inner phase) : Led (outer ++ inner) ⟨phase, frames⟩
  | done {bytes : Bytes} {v : Value} (h : Derives bytes v) : Led bytes ⟨.done v, []⟩

theorem led_empty : Led [] empty := .inside .nil .start

/-- A bulk string with some of its bytes. -/
theorem Begins.ofBulk {text : Bytes} {length : Nat} {data : Array UInt8} (hd : Declares text length)
    (hmax : length ≤ maxBulk) (hroom : data.size ≤ length) :
    Begins (Wire.line bulkMark text ++ data.toList) (.ofBulk length data) := by
  rw [Phase.ofBulk]
  split
  · exact .bulk hd hmax hroom
  · obtain rfl : length = data.size := by omega
    exact .bulkEnd hd hmax

/-- **A value complete** leads where it completes what is open around it. -/
theorem Led.complete {outer bytes : Bytes} {v : Value} {frames : List Frame} (ho : Opens outer frames)
    (h : Derives bytes v) : Led (outer ++ bytes) (complete v frames) := by
  induction frames generalizing outer bytes v with
  | nil =>
    rcases ho with _ | _
    exact .done h
  | cons f frames ih =>
    rcases ho with _ | ⟨ho, hd, hroom, hp⟩
    rename_i outer text pieces
    have hpush : DerivesAll (pieces ++ bytes) (f.items.push v).toList := by
      rw [Array.toList_push]
      exact hp.push h
    rw [Decoder.complete]
    split
    · rename_i hmore
      have hopen := Opens.cons (f := ⟨f.length, f.items.push v⟩) ho hd hmore hpush
      have hled := Led.inside hopen .start
      simp only [List.append_nil, List.append_assoc] at hled ⊢
      exact hled
    · rename_i hfull
      have hlen : f.length = (f.items.push v).toList.length := by
        rw [Array.length_toList]
        rw [Array.size_push] at hfull ⊢
        omega
      have harray := Derives.array (hlen ▸ hd) hpush
      have hled := ih ho harray
      simp only [List.append_assoc] at hled ⊢
      exact hled

/-- **The end of a line** leads on. -/
theorem Led.closes {outer text : Bytes} {kind : LineKind} {frames : List Frame} {next : Decoder}
    (ho : Opens outer frames) (ht : IsText text) (h : Closes text frames kind next) :
    Led (outer ++ line kind.mark text) next := by
  rcases h with _ | _ | hn | hn | ⟨hn, hlen, hmax⟩ | hn | hn | ⟨hn, hlen, hpos⟩
  · exact .complete ho (.simple ht)
  · exact .complete ho (.error ht)
  · exact .complete ho (.integer ht hn)
  · exact .complete ho (.absentBulk ht hn)
  · rename_i length
    have hbegin : Begins (line bulkMark text ++ []) (.ofBulk length #[]) :=
      .ofBulk ⟨ht, _, hn, hlen⟩ hmax (Nat.zero_le _)
    rw [List.append_nil] at hbegin
    exact .inside ho hbegin
  · exact .complete ho (.absentArray ht hn)
  · have harray : Derives (line arrayMark text ++ []) (.array []) := .array ⟨ht, _, hn, rfl⟩ .nil
    rw [List.append_nil] at harray
    exact .complete ho harray
  · have hopen := Opens.cons (f := ⟨_, #[]⟩) ho ⟨ht, _, hn, hlen⟩ hpos .nil
    have hled := Led.inside hopen .start
    rw [List.append_nil, List.append_nil] at hled
    exact hled

/-- More of a line. -/
theorem isText_append {text : Array UInt8} {stretch : Bytes} (ht : IsText text.toList)
    (hs : cr ∉ stretch) (hlong : ¬ maxLine < text.size + stretch.length) :
    IsText (text ++ stretch).toList := by
  rw [Array.toList_appendList]
  refine ⟨?_, fun hm => ?_⟩
  · rw [List.length_append, Array.length_toList]
    omega
  · exact (List.mem_append.mp hm).elim ht.cr_notMem hs

/-- A line ends at its CR. -/
theorem eq_cr_of_dropWhile {bs rest : Bytes} {x : UInt8}
    (h : bs.dropWhile (· != cr) = x :: rest) : x = cr := by
  have hhead := List.head?_dropWhile_not (· != cr) bs
  rw [h] at hhead
  simpa using hhead

/-- **The input leads on**: some of it leads to `next`, and `rest` is left over. -/
def LeadsOn (bytes input : Bytes) (next : Decoder) (rest : Bytes) : Prop :=
  ∃ taken, input = taken ++ rest ∧ Led (bytes ++ taken) next

/-! One step, by where the decoder stands. -/

section

variable {outer : Bytes} {frames : List Frame} {next : Decoder} {b : UInt8} {bs rest : Bytes}
  (ho : Opens outer frames)

include ho

/-- A type byte begins a line. -/
theorem leadsOn_start (ha : advance ⟨.start, frames⟩ b bs = .proceeds next rest) :
    LeadsOn (outer ++ []) (b :: bs) next rest := by
  simp only [advance] at ha
  rcases hmark : LineKind.ofMark? b with _ | kind
  · rw [hmark] at ha
    cases ha
  · rw [hmark] at ha
    cases ha
    refine ⟨[b], rfl, ?_⟩
    have hline : Begins (kind.mark :: []) (.line kind #[]) :=
      .line ⟨Nat.zero_le _, List.not_mem_nil⟩
    rw [List.append_nil, LineKind.mark_of_ofMark? hmark]
    exact .inside ho hline

/-- More of a line, to its CR or to the end of the input. -/
theorem leadsOn_line {kind : LineKind} {text : Array UInt8} (ht : IsText text.toList)
    (ha : advance ⟨.line kind text, frames⟩ b bs = .proceeds next rest) :
    LeadsOn (outer ++ kind.mark :: text.toList) (b :: bs) next rest := by
  simp only [advance] at ha
  have hall := List.takeWhile_append_dropWhile (p := (· != cr)) (l := b :: bs)
  have hno : cr ∉ (b :: bs).takeWhile (· != cr) := fun hm => by
    simpa using List.mem_takeWhile_imp hm
  generalize (b :: bs).takeWhile (· != cr) = stretch at ha hall hno
  split at ha
  · cases ha
  · rename_i hlong
    have htext := isText_append ht hno hlong
    split at ha
    · rename_i hdrop
      cases ha
      refine ⟨stretch, (hdrop ▸ hall).symm, ?_⟩
      have hbegin : Begins _ (.line kind (text ++ stretch)) := .line htext
      have hled := Led.inside ho hbegin
      simpa using hled
    · rename_i x rest hdrop
      cases ha
      obtain rfl := eq_cr_of_dropWhile hdrop
      refine ⟨stretch ++ [cr], ?_, ?_⟩
      · rw [List.append_assoc]
        exact (hdrop ▸ hall).symm
      · have hbegin : Begins _ (.lineEnd kind (text ++ stretch)) := .lineEnd htext
        have hled := Led.inside ho hbegin
        simpa using hled

/-- The LF of a line closes it. -/
theorem leadsOn_lineEnd {kind : LineKind} {text : Array UInt8} (ht : IsText text.toList)
    (ha : advance ⟨.lineEnd kind text, frames⟩ b bs = .proceeds next rest) :
    LeadsOn (outer ++ (kind.mark :: text.toList ++ [cr])) (b :: bs) next rest := by
  simp only [advance] at ha
  split at ha
  · rename_i hlf
    split at ha
    · rename_i hclose
      cases ha
      refine ⟨[b], rfl, ?_⟩
      have hled := Led.closes ho ht (closeLine_eq_ok_iff.mp hclose)
      subst hlf
      simpa [line, crlf] using hled
    · cases ha
  · cases ha

/-- Bytes of a bulk string, as many as it wants at most. -/
theorem leadsOn_bulk {text : Bytes} {length : Nat} {data : Array UInt8} (hd : Declares text length)
    (hmax : length ≤ maxBulk) (hroom : data.size ≤ length)
    (ha : advance ⟨.bulk length data, frames⟩ b bs = .proceeds next rest) :
    LeadsOn (outer ++ (line bulkMark text ++ data.toList)) (b :: bs) next rest := by
  cases ha
  refine ⟨(b :: bs).take (length - data.size), (List.take_append_drop _ _).symm, ?_⟩
  have hroom' : (data ++ (b :: bs).take (length - data.size)).size ≤ length := by
    rw [size_append_stretch, List.length_take]
    omega
  have hled := Led.inside ho (.ofBulk hd hmax hroom')
  simpa using hled

/-- The CR of a bulk string. -/
theorem leadsOn_bulkEnd {text : Bytes} {data : Array UInt8} (hd : Declares text data.size)
    (hmax : data.size ≤ maxBulk)
    (ha : advance ⟨.bulkEnd data, frames⟩ b bs = .proceeds next rest) :
    LeadsOn (outer ++ (line bulkMark text ++ data.toList)) (b :: bs) next rest := by
  simp only [advance] at ha
  split at ha
  · rename_i hcr
    cases ha
    refine ⟨[b], rfl, ?_⟩
    have hled := Led.inside ho (.bulkFeed hd hmax)
    subst hcr
    simpa using hled
  · cases ha

/-- The LF of a bulk string completes it. -/
theorem leadsOn_bulkFeed {text : Bytes} {data : Array UInt8} (hd : Declares text data.size)
    (hmax : data.size ≤ maxBulk)
    (ha : advance ⟨.bulkFeed data, frames⟩ b bs = .proceeds next rest) :
    LeadsOn (outer ++ (line bulkMark text ++ data.toList ++ [cr])) (b :: bs) next rest := by
  simp only [advance] at ha
  split at ha
  · rename_i hlf
    cases ha
    refine ⟨[b], rfl, ?_⟩
    have hvalue : Derives _ (.bytes data.toList) := .bulk hd hmax
    have hled := Led.complete ho hvalue
    subst hlf
    simpa [crlf] using hled
  · cases ha

end

/-- **A step leads on**, by the input it takes. -/
theorem Led.advance {bytes : Bytes} {d next : Decoder} {b : UInt8} {bs rest : Bytes}
    (h : Led bytes d) (hd : d.reading) (ha : d.advance b bs = .proceeds next rest) :
    LeadsOn bytes (b :: bs) next rest := by
  rcases h with ⟨ho, hb⟩ | _
  · rcases hb with _ | ht | ht | ⟨hdecl, hmax, hroom⟩ | ⟨hdecl, hmax⟩ | ⟨hdecl, hmax⟩
    · exact leadsOn_start ho ha
    · exact leadsOn_line ho ht ha
    · exact leadsOn_lineEnd ho ht ha
    · exact leadsOn_bulk ho hdecl hmax hroom ha
    · exact leadsOn_bulkEnd ho hdecl hmax ha
    · exact leadsOn_bulkFeed ho hdecl hmax ha
  · cases hd

/-- **A parse leads on**, by the input it uses. -/
theorem Led.parse {bytes input rest : Bytes} {d e : Decoder} {outcome : Outcome} (h : Led bytes d)
    (hp : d.parse input = (outcome, rest, e)) (ho : ∀ cause, outcome ≠ .failed cause) :
    LeadsOn bytes input e rest := by
  fun_induction Decoder.parse d input generalizing bytes with
  | case1 d input v hd =>
    cases hp
    exact ⟨[], rfl, (List.append_nil bytes).symm ▸ h⟩
  | case2 d input cause hd =>
    cases hp
    exact absurd rfl (ho cause)
  | case3 d _ _ =>
    cases hp
    exact ⟨[], rfl, (List.append_nil bytes).symm ▸ h⟩
  | case4 d b bs next rest' hs hdone hpoisoned ih =>
    obtain ⟨taken, htaken, hled⟩ := h.advance (reading_of_not hdone hpoisoned) hs
    obtain ⟨more, hmore, hled'⟩ := ih hled hp
    refine ⟨taken ++ more, ?_, ?_⟩
    · rw [htaken, hmore, List.append_assoc]
    · rw [← List.append_assoc]
      exact hled'
  | case5 d b bs cause rest' hs =>
    cases hp
    exact absurd rfl (ho cause)

/-- **All that is read derives.** -/
theorem derives_of_parse {input rest : Bytes} {e : Decoder}
    (h : empty.parse input = (.completed, rest, e)) :
    ∃ bytes v, input = bytes ++ rest ∧ Derives bytes v ∧ e = ⟨.done v, []⟩ := by
  obtain ⟨v, hv⟩ := phase_of_completed h
  obtain ⟨bytes, hbytes, hled⟩ := led_empty.parse h (by simp)
  rcases hled with ⟨-, hb⟩ | hw
  · -- a value under way is not complete
    dsimp only at hv
    subst hv
    rcases hb
  · rename_i w
    exact ⟨bytes, w, hbytes, hw, rfl⟩

/-- **All that derives is read**, whatever comes after it. -/
theorem parse_of_derives {bytes : Bytes} {v : Value} (h : Derives bytes v) (rest : Bytes) :
    empty.parse (bytes ++ rest) = (.completed, rest, ⟨.done v, []⟩) :=
  (parse_derives h [] rest).trans (parse_done rfl rest)

theorem yields_empty_iff {input : Bytes} {n : Nat} {v : Value} :
    empty.Yields input n v ↔ n ≤ input.length ∧ Derives (input.take n) v := by
  constructor
  · rintro ⟨hcompleted, hconsumed, htaken⟩
    rcases hp : empty.parse input with ⟨outcome, rest, e⟩
    rw [hp] at hcompleted htaken
    obtain rfl : outcome = .completed := hcompleted
    obtain ⟨bytes, w, rfl, hw, rfl⟩ := derives_of_parse hp
    obtain rfl : w = v := Option.some.inj htaken
    have hn : bytes.length = n := by
      rw [← hconsumed, Decoder.consumed, hp, List.length_append]
      dsimp only
      omega
    subst hn
    rw [List.take_left]
    exact ⟨by rw [List.length_append]; omega, hw⟩
  · rintro ⟨hn, h⟩
    have hp := parse_of_derives h (input.drop n)
    rw [List.take_append_drop] at hp
    refine ⟨by rw [hp], ?_, by rw [hp]; rfl⟩
    rw [Decoder.consumed, hp]
    dsimp only
    rw [List.length_drop]
    omega

/-- **At most one prefix of an input is a reply**, of one value. -/
theorem derives_unique {input : Bytes} {m n : Nat} {v w : Value} (hm : m ≤ input.length)
    (hn : n ≤ input.length) (hv : Derives (input.take m) v) (hw : Derives (input.take n) w) :
    m = n ∧ v = w := by
  obtain ⟨-, hcv, htv⟩ := yields_empty_iff.mpr ⟨hm, hv⟩
  obtain ⟨-, hcw, htw⟩ := yields_empty_iff.mpr ⟨hn, hw⟩
  exact ⟨hcv.symm.trans hcw, Option.some.inj (htv.symm.trans htw)⟩

/-- **What is malformed begins no reply.** -/
theorem not_derives_of_failed {input : Bytes} {cause : Malformed}
    (h : (empty.parse input).1 = .failed cause) (more : Bytes) (n : Nat) (v : Value) :
    ¬ Derives ((input ++ more).take n) v := by
  intro hv
  have hp := parse_of_derives hv ((input ++ more).drop n)
  rw [List.take_append_drop] at hp
  have hagree := (empty.parse_append input more).symm
  rw [hp] at hagree
  have hthen := congrArg Prod.fst hagree.eq_of_completed
  rw [Parsed.andThen, h] at hthen
  cases hthen

/-- **The decoder takes exactly its grammar.** -/
theorem parses_iff_derives (input : Bytes) :
    (∀ n v, empty.Yields input n v ↔ n ≤ input.length ∧ Derives (input.take n) v) ∧
      (∀ m n v w, m ≤ input.length → n ≤ input.length →
        Derives (input.take m) v → Derives (input.take n) w → m = n ∧ v = w) ∧
      ∀ cause, (empty.parse input).1 = .failed cause →
        ∀ more n v, ¬ Derives ((input ++ more).take n) v :=
  ⟨fun _ _ => yields_empty_iff, fun _ _ _ _ => derives_unique, fun _ => not_derives_of_failed⟩

/-- An array, its first length with a leading zero, before more. -/
def padded : Bytes := Utf8.encode "*02\r\n:-007\r\n*-1\r\n+O"

/-- An array whose element has a length that none has. -/
def broken : Bytes := Utf8.encode "*1\r\n$-2\r\n"

theorem parses_iff_derives_padded :
    empty.Yields padded 17 (.array [.integer (-7), .null]) ∧
      Derives (padded.take 17) (.array [.integer (-7), .null]) ∧
      (∀ n v, n ≤ padded.length → Derives (padded.take n) v →
        n = 17 ∧ v = .array [.integer (-7), .null]) ∧
      (empty.parse broken).1 = .failed (.length (-2)) ∧
      ∀ more n v, ¬ Derives ((broken ++ more).take n) v := by
  obtain ⟨hiff, hunique, -⟩ := parses_iff_derives padded
  have hyields : empty.Yields padded 17 (.array [.integer (-7), .null]) :=
    ⟨by decide +kernel, by decide +kernel, by decide +kernel⟩
  obtain ⟨hlen, hderives⟩ := (hiff _ _).mp hyields
  have hfailed : (empty.parse broken).1 = .failed (.length (-2)) := by decide +kernel
  exact ⟨hyields, hderives, fun n v hn h => hunique n 17 v _ hn hlen h hderives, hfailed,
    (parses_iff_derives broken).2.2 _ hfailed⟩

end Decoder

end RespClient
