import RespClient.Config.Document

/-!
# Proofs/Config/RoundTrip — a configuration out of its own document

    configuration ──write, read──▸ members found ──set, set, …──▸ configuration, deadlines in milliseconds

A configuration that was made from a document holds what was found there, and the default of whatever was
left out (`members_ofMembers`).  So where a format reads back what it writes, a configuration comes back out
of its own document; but a document holds of a deadline no more than its whole milliseconds, and of these no
more than an unsigned word (`Duration.kept`).  Whether a client can run with a configuration does not depend
on the deadlines, so it is judged as before (`parse_render`).
-/

namespace RespClient

/-- **What a document holds of a span**: its whole milliseconds, as an unsigned 64-bit word. -/
def Duration.kept (d : Duration) : Duration := .ofMillis (d.wholeMillis % UInt64.size)

/-- A span is kept if it is a whole number of milliseconds that fits the word. -/
theorem Duration.kept_eq_self_iff {d : Duration} : d.kept = d ↔ ∃ n < UInt64.size, d = .ofMillis n := by
  constructor
  · intro h
    exact ⟨_, Nat.mod_lt d.wholeMillis (by decide), h.symm⟩
  · rintro ⟨n, hn, rfl⟩
    have hwhole : (Duration.ofMillis n).wholeMillis = n := Nat.mul_div_cancel n (by decide)
    rw [Duration.kept, hwhole, Nat.mod_eq_of_lt hn]

example : Duration.kept ⟨1999999⟩ = .ofMillis 1 ∧ Duration.kept (.ofMillis UInt64.size) = .ofMillis 0 := by
  decide

theorem Duration.ofMillis_word (d : Duration) : ofMillis d.word.toNat = d.kept :=
  congrArg ofMillis (UInt64.toNat_ofNat (n := d.wholeMillis))

theorem Duration.word_ofMillis (n : UInt64) : (ofMillis n.toNat).word = n := by
  have hwhole : (ofMillis n.toNat).wholeMillis = n.toNat := Nat.mul_div_cancel n.toNat (by decide)
  rw [word, hwhole, UInt64.ofNat_toNat]

namespace Config

/-- The deadlines that are set. -/
def deadlines (c : Config) : List Duration := c.connectTimeout.toList ++ c.commandTimeout.toList

/-- **The configuration a document holds.** -/
def kept (c : Config) : Config where
  endpoint := c.endpoint
  connectTimeout := c.connectTimeout.map .kept
  commandTimeout := c.commandTimeout.map .kept
  nodelay := c.nodelay
  readBufferSize := c.readBufferSize

theorem map_kept_iff {timeout : Option Duration} :
    timeout.map .kept = timeout ↔ ∀ d ∈ timeout.toList, d.kept = d := by
  cases timeout with
  | none => simp
  | some d => simp

/-- **A configuration is kept** if its deadlines are. -/
theorem kept_eq_self_iff {c : Config} :
    c.kept = c ↔ ∀ d ∈ c.deadlines, ∃ n < UInt64.size, d = .ofMillis n := by
  simp only [← Duration.kept_eq_self_iff]
  rw [deadlines, List.forall_mem_append, ← map_kept_iff, ← map_kept_iff]
  obtain ⟨endpoint, connectTimeout, commandTimeout, nodelay, readBufferSize⟩ := c
  simp [kept]

/-! ## Members and fields -/

theorem deadline_map_word (timeout : Option Duration) :
    deadline (timeout.map Duration.word) = timeout.map .kept := by
  cases timeout with
  | none => rfl
  | some d => exact congrArg some d.ofMillis_word

theorem map_word_deadline (word? : Option UInt64) : (deadline word?).map Duration.word = word? := by
  cases word? with
  | none => rfl
  | some n => exact congrArg some (Duration.word_ofMillis n)

/-- A field holds what it was set to. -/
theorem members_set_self (c : Config) (f : Field) (x : f.Carrier) : (c.set f x).members f = x := by
  cases f with
  | connectTimeout => exact map_word_deadline x
  | commandTimeout => exact map_word_deadline x
  | _ => rfl

/-- …and the others hold what they held. -/
theorem members_set_of_ne (c : Config) {f g : Field} (h : g ≠ f) (x : f.Carrier) :
    (c.set f x).members g = c.members g := by
  cases f <;> cases g <;> first | rfl | exact absurd rfl h

/-- Fields are set one after another, each of them once. -/
theorem members_foldl (found : Found) {fields : List Field} (hnodup : fields.Nodup) (c : Config)
    (f : Field) :
    (fields.foldl (fun c f => ((found f).map (c.set f)).getD c) c).members f
      = if f ∈ fields then (found f).getD (c.members f) else c.members f := by
  induction fields generalizing c with
  | nil => rw [if_neg List.not_mem_nil, List.foldl_nil]
  | cons g fields ih =>
    obtain ⟨hfresh, hnodup⟩ := List.nodup_cons.mp hnodup
    rw [List.foldl_cons, ih hnodup]
    by_cases hf : f = g
    · subst hf
      rw [if_neg hfresh, if_pos List.mem_cons_self]
      cases found f with
      | none => rfl
      | some x => exact members_set_self c f x
    · have hkeep : (((found g).map (c.set g)).getD c).members f = c.members f := by
        cases found g with
        | none => rfl
        | some x => exact members_set_of_ne c hf x
      rw [hkeep]
      simp only [List.mem_cons, hf, false_or]

/-- **A configuration holds what was found**, and defaults for what was left out. -/
theorem members_ofMembers (found : Found) (f : Field) :
    (ofMembers found).members f = (found f).getD (({} : Config).members f) := by
  have hall : f ∈ Field.all := by cases f <;> decide
  rw [ofMembers, members_foldl found (by decide), if_pos hall]

/-- **A configuration comes back out of its members**, as far as they hold it. -/
theorem ofMembers_members (c : Config) : ofMembers (fun f => some (c.members f)) = c.kept := by
  rw [kept, ← deadline_map_word, ← deadline_map_word]
  rfl

/-! ## The statement -/

/-- No deadline plays a part in whether a client can run. -/
theorem validate_kept (c : Config) : c.kept.validate = c.validate := rfl

/-- **A configuration survives its document**, but for what a document does not hold of its deadlines, and is
then judged as it was: first its buffer, then its endpoint. -/
theorem parse_render (format : Format) (c : Config) (h : format.ReadsBack Field.key c.members) :
    parse format (c.render format) = (c.validate.map fun _ =>
      { c with connectTimeout := c.connectTimeout.map .kept, commandTimeout := c.commandTimeout.map .kept }) ∧
    (parse format (c.render format) = .ok c ↔
      c.validate = .ok () ∧ ∀ d ∈ c.deadlines, ∃ n < UInt64.size, d = .ofMillis n) ∧
    (c.readBufferSize = 0 →
      parse format (c.render format) = .error (.config "read_buffer_size must be greater than zero")) ∧
    (c.readBufferSize ≠ 0 → ∀ failure, Endpoint.parse c.endpoint = .error failure →
      parse format (c.render format) = .error failure) := by
  have hparse : parse format (c.render format) = c.validate.map fun _ => c.kept := by
    rw [parse, render, h]
    dsimp only
    rw [ofMembers_members, validate_kept]
  refine ⟨hparse, ?_, fun hbuffer => ?_, fun hbuffer failure hendpoint => ?_⟩
  · rw [hparse, ← kept_eq_self_iff]
    cases c.validate with
    | ok u => exact ⟨fun h => ⟨rfl, Except.ok.inj h⟩, fun h => congrArg Except.ok h.2⟩
    | error failure => exact ⟨nofun, fun h => nomatch h.1⟩
  · rw [hparse, validate, if_pos hbuffer]
    rfl
  · rw [hparse, validate, if_neg hbuffer, hendpoint]
    rfl

/-! ## A document -/

/-- A member as it is written, where the text needs no escapes. -/
def spell : (f : Field) → f.Carrier → String
  | .endpoint, text => "\"" ++ text ++ "\""
  | .connectTimeout, word? | .commandTimeout, word? => (word?.map fun n => toString n.toNat).getD "null"
  | .nodelay, flag => toString flag
  | .readBufferSize, word => toString word.toNat

/-- The format of a reader that knows one document. -/
def knowing (document : String) (found : Found) : Format where
  write key members := "\x7b"
    ++ ",".intercalate (Field.all.map fun f => "\"" ++ key f ++ "\":" ++ spell f (members f)) ++ "\x7d"
  read _ text := if text = document then .ok found else .error "expected value at line 1 column 1"

/-- A socket, and a deadline of not quite two milliseconds. -/
def impatient : Config := { endpoint := "unix:/s", commandTimeout := some ⟨1999999⟩ }

def impatientDocument : String :=
  "\x7b\"endpoint\":\"unix:/s\",\"connect_timeout_ms\":null,\"command_timeout_ms\":1,"
    ++ "\"tcp_nodelay\":true,\"read_buffer_size\":4096\x7d"

def impatientFound : Found
  | .endpoint => some "unix:/s"
  | .connectTimeout => some none
  | .commandTimeout => some (some 1)
  | .nodelay => some true
  | .readBufferSize => some 4096

theorem parse_render_impatient :
    let format := knowing impatientDocument impatientFound
    impatient.render format = impatientDocument ∧ format.ReadsBack Field.key impatient.members ∧
      parse format (impatient.render format)
        = .ok { impatient with commandTimeout := some (.ofMillis 1) } := by
  have hrender : impatient.render (knowing impatientDocument impatientFound) = impatientDocument := by
    decide +kernel
  have hreads : (knowing impatientDocument impatientFound).ReadsBack Field.key impatient.members := by
    have hfound : impatientFound = fun f => some (impatient.members f) := by
      funext f
      cases f <;> rfl
    rw [Format.ReadsBack, ← hfound, ← render, hrender]
    simp [knowing]
  exact ⟨hrender, hreads, (parse_render _ impatient hreads).1.trans rfl⟩

end Config

end RespClient
