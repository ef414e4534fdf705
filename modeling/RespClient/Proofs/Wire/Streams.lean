import RespClient.Proofs.Wire.Framing
import RespClient.Proofs.Wire.Reading
import RespClient.Proofs.Wire.RoundTrip

/-!
# Proofs/Wire/Streams — replies one after another, and nothing between them

    sent    values ──reply──▸ stream ──cut──▸ pieces ──read──▸ the values
    read    pieces ──read──▸ values ──reply──▸ another stream ──cut──▸ pieces ──read──▸ the values

Values that can be sent (`Value.Sendable`) come back from their stream as they were, however it is cut
(`readPieces_replies`).  Two kinds of values can be sent: those of commands, whose streams are read in one
way even before any decoder sees them (`commands_decodable`), and those that were read, in whatever spelling
(`resent_values`).
-/

namespace RespClient

open Wire Decoder

/-- **A value that can be sent**: every refusal, string and array in it fits the wire. -/
structure Value.Sendable (v : Value) : Prop where
  fits : v.Everywhere Value.Fits
  counts : v.Everywhere Value.HasCount

namespace Decoder

/-! ## What is sent is read -/

theorem spells_reply {v : Value} (h : v.Sendable) : Spells (reply v) v := by
  have hparse := parse_of_derives (derives_reply v h.fits h.counts) []
  rw [List.append_nil] at hparse
  exact hparse

theorem reads_replies {vs : List Value} (h : ∀ v ∈ vs, v.Sendable) :
    Reads empty (vs.flatMap reply) vs := by
  induction vs with
  | nil => exact .nil
  | cons v vs ih =>
    rw [List.forall_mem_cons] at h
    exact (spells_reply h.1).reads.join (ih h.2)

/-- **What is sent is read**, whatever the pieces it comes in. -/
theorem readPieces_replies {vs : List Value} (h : ∀ v ∈ vs, v.Sendable) {ss : List Bytes}
    (hss : ss.flatten = vs.flatMap reply) :
    empty.readPieces ss = ⟨vs, none, ss.flatten.length, empty⟩ :=
  Reads.pieces (hss ▸ reads_replies h)

end Decoder

/-! ## Commands -/

/-- **The arguments of a command**, as a server reads them. -/
def Value.ofArguments (arguments : List Bytes) : Value := .array (arguments.map .bytes)

theorem Value.sendable_ofArguments {arguments : List Bytes} (hcount : arguments.length < 2 ^ 63)
    (hmax : ∀ a ∈ arguments, a.length ≤ maxBulk) : (ofArguments arguments).Sendable := by
  refine ⟨everywhere_array_iff.mpr ⟨trivial, fun w hw => ?_⟩,
    everywhere_array_iff.mpr ⟨(List.length_map ..).trans_lt hcount, fun w hw => ?_⟩⟩
  · obtain ⟨a, ha, rfl⟩ := List.mem_map.mp hw
    exact (everywhere_iff fun _ h => by cases h).mpr (hmax a ha)
  · obtain ⟨a, -, rfl⟩ := List.mem_map.mp hw
    exact (everywhere_iff fun _ h => by cases h).mpr trivial

/-- A stream of commands is one of replies. -/
theorem Wire.flatMap_command (vs : List (List Bytes)) :
    vs.flatMap command = (vs.map Value.ofArguments).flatMap reply := by
  rw [List.flatMap_map]
  exact congrArg (vs.flatMap ·) (funext fun arguments => (reply_array_bytes arguments).symm)

namespace Decoder

/-- **A stream of commands is read in one way**, whatever bytes their arguments hold: two lists of commands
with one stream are one list.  A command has the bytes of the array of its arguments; and where these fit the
wire, the arrays are what is read of the stream, in any pieces. -/
theorem commands_decodable (vs : List (List Bytes)) :
    (∀ ws, vs.flatMap command = ws.flatMap command → vs = ws) ∧
    (∀ arguments ∈ vs, reply (.ofArguments arguments) = command arguments ∧
      ∀ c, Command.ofArguments? arguments = some c → c.encode = command arguments) ∧
    ((∀ arguments ∈ vs, arguments.length < 2 ^ 63 ∧ ∀ a ∈ arguments, a.length ≤ maxBulk) →
      ∀ ss : List Bytes, ss.flatten = vs.flatMap command →
        empty.readPieces ss = ⟨vs.map .ofArguments, none, ss.flatten.length, empty⟩) := by
  refine ⟨fun ws => prefixFree_command.flatMap_injective command_ne_nil,
    fun arguments _ => ⟨reply_array_bytes arguments, fun c hc => ?_⟩, fun hfits ss hss => ?_⟩
  · cases arguments with
    | nil => cases hc
    | cons name operands =>
      cases hc
      rfl
  · refine readPieces_replies (fun v hv => ?_) (hss.trans (flatMap_command vs))
    obtain ⟨arguments, harguments, rfl⟩ := List.mem_map.mp hv
    obtain ⟨hcount, hmax⟩ := hfits arguments harguments
    exact Value.sendable_ofArguments hcount hmax

/-- An argument that looks like a command, an empty one, and no argument at all. -/
def devious : List (List Bytes) := [[Utf8.encode "\r\n*1\r\n$3\r\nDEL", []], [], [Utf8.encode "GET"]]

theorem commands_decodable_devious :
    (∀ arguments ∈ devious, arguments.length < 2 ^ 63 ∧ ∀ a ∈ arguments, a.length ≤ maxBulk) ∧
      (empty.readPieces ((devious.flatMap command).map fun b => [b])).values
        = devious.map .ofArguments := by
  have hfits : ∀ arguments ∈ devious,
      arguments.length < 2 ^ 63 ∧ ∀ a ∈ arguments, a.length ≤ maxBulk := by decide +kernel
  have hread := (commands_decodable devious).2.2 hfits ((devious.flatMap command).map fun b => [b])
    (List.flatMap_singleton' ..)
  exact ⟨hfits, congrArg Harvest.values hread⟩

/-! ## Values that were read -/

/-- **Whatever a new decoder reads derives.** -/
theorem exists_derives_of_mem_values {input : Bytes} {v : Value} (hv : v ∈ empty.values input) :
    ∃ bytes, Derives bytes v := by
  suffices h : ∀ d input, d = empty → ∀ v ∈ d.values input, ∃ bytes, Derives bytes v from
    h empty input rfl v hv
  intro d input
  induction d, input using reading_induction with
  | nil d =>
    rw [(read_nil d).1]
    exact fun _ _ hv => absurd hv List.not_mem_nil
  | stopped d e input rest outcome hi hp ho =>
    rw [(read_stopped hi hp ho).1]
    exact fun _ _ hv => absurd hv List.not_mem_nil
  | value d e input rest w hi hp hw ih =>
    rintro rfl
    obtain ⟨bytes, w', -, hderives, rfl⟩ := derives_of_parse hp
    cases hw
    rw [(read_value hi hp rfl).1]
    exact List.forall_mem_cons.mpr ⟨⟨bytes, hderives⟩, ih rfl⟩

/-- The values do not depend on the pieces. -/
theorem values_readPieces (d : Decoder) (ss : List Bytes) :
    (d.readPieces ss).values = d.values ss.flatten := by
  obtain h | ⟨hv, -⟩ := d.readPieces_alike ss
  · exact congrArg Harvest.values h
  · exact hv

/-- **What was read can be sent on**, in whatever spelling and pieces it came: every value fits the wire, so the
stream of all of them comes back as they are, and the decoder after it is as new. -/
theorem resent_values (ss : List Bytes) :
    let vs := (empty.readPieces ss).values
    (∀ v ∈ vs, v.Everywhere Value.Fits) ∧
      ∀ ts : List Bytes, ts.flatten = vs.flatMap reply →
        empty.readPieces ts = ⟨vs, none, ts.flatten.length, empty⟩ := by
  intro vs
  have hvs : vs = empty.values ss.flatten := values_readPieces empty ss
  have hsendable : ∀ v ∈ vs, v.Sendable := fun v hv => by
    obtain ⟨bytes, hderives⟩ := exists_derives_of_mem_values (hvs ▸ hv)
    exact ⟨fits_of_derives hderives, hasCount_of_derives hderives⟩
  exact ⟨fun v hv => (hsendable v hv).fits, fun ts => readPieces_replies hsendable⟩

/-- Spellings that no value is sent in, and then no reply. -/
def rough : List Bytes := ["+O", "K\r\n*2\r\n:-007\r", "\n*-1\r\n-ERR\r\n", "?"].map Utf8.encode

theorem resent_values_rough :
    (empty.readPieces rough).values
        = [.bytes (Utf8.encode "OK"), .array [.integer (-7), .null], .error (Utf8.encode "ERR")] ∧
      (empty.readPieces [(empty.readPieces rough).values.flatMap reply]).values
        = (empty.readPieces rough).values := by
  have hread := (resent_values rough).2 [_] (List.append_nil _)
  exact ⟨by decide +kernel, by rw [hread]⟩

end Decoder

end RespClient
