import Infotainment.SystemInterface
import Mathlib.Data.List.TakeWhile

/-!
# The pipe, byte by byte

`SystemInterface` gives `GetStdoutFromCommand` as a function on texts.  The program has less to go
by: a buffer of 256 bytes that nothing initialises and that every call of `fgets` writes over, and
`append`, which takes from it whatever stands in front of the first zero.  This is the model of
that, and two things are said about it.

* A stream without zeros comes back without its newlines and otherwise as it was, whatever the
  buffer held before.  The loop makes at most one round for each byte and one more.
* The function on texts is what the bytes amount to (`getStdoutFromCommand_textOf`).

Zeros are the only bytes that spoil it (`returns_text_iff`): what stands behind a zero in one piece
of the stream is not appended, and neither is the zero.

The loop appends one piece of the stream after the other (`readLoop_pieces`).  The pieces are cut
behind newlines and at 255 bytes, and where the last one ends decides whether the mark is already
set or takes another round.
-/

namespace Infotainment
namespace Pipe

open LineReader

/-! ## The buffer -/

/-- `'\n'` -/
def newline : UInt8 := 10

/-- `char buffer[max_buffer]` -/
structure Buffer where
  bytes : List UInt8
  length_eq : bytes.length = maxBuffer

namespace Buffer

/-- A line and a zero are written to the front.  The bytes behind stay. -/
def store (buffer : Buffer) (line : List UInt8) (h : line.length < maxBuffer) : Buffer where
  bytes := line ++ 0 :: buffer.bytes.drop (line.length + 1)
  length_eq := by
    have hlen := buffer.length_eq
    rw [List.length_append, List.length_cons, List.length_drop]
    omega

/-- The bytes in front of the first zero. -/
def cString (buffer : Buffer) : List UInt8 := buffer.bytes.takeWhile (· ≠ 0)

/-- Nothing that was in the buffer before is seen. -/
theorem cString_store (buffer : Buffer) {line : List UInt8} (h : line.length < maxBuffer) :
    (buffer.store line h).cString = line.takeWhile (· ≠ 0) := by
  rw [cString, store, List.takeWhile_append]
  split_ifs with hall
  · rw [List.takeWhile_cons_of_neg (by simp), List.append_nil]
    exact ((List.takeWhile_prefix _).eq_of_length hall).symm
  · rfl

end Buffer

/-! ## Reading -/

/-- What `popen` returns: the bytes still to come, and the end-of-file mark. -/
structure Stream where
  rest : List UInt8
  eof : Bool

theorem length_line_lt (rest : List UInt8) :
    (readLine newline (maxBuffer - 1) rest).line.length < maxBuffer :=
  Nat.lt_of_le_of_lt (length_readLine_le newline (maxBuffer - 1) rest) (by decide)

/-- `fgets(buffer, max_buffer, stream)`, and whether it returned the buffer. -/
def fgets (buffer : Buffer) (stream : Stream) : Bool × Buffer × Stream :=
  if stream.rest = [] then (false, buffer, { stream with eof := true })
  else
    let r := readLine newline (maxBuffer - 1) stream.rest
    (true, buffer.store r.line (length_line_lt stream.rest), ⟨r.rest, stream.eof || r.atEnd⟩)

/-- `while (!feof(stream)) if (fgets(...) != NULL) data.append(buffer)`.  The fuel counts the looks
at the mark, which is one more than the rounds. -/
def readLoop : ℕ → Buffer → Stream → List UInt8 → Option (List UInt8)
  | 0, _, _, _ => none
  | fuel + 1, buffer, stream, data =>
    if stream.eof then some data
    else
      let (returned, buffer', stream') := fgets buffer stream
      readLoop fuel buffer' stream' (if returned then data ++ buffer'.cString else data)

/-- `GetStdoutFromCommand`, where `popen` opens the given bytes or fails. -/
def getStdoutFromCommand (fuel : ℕ) (buffer : Buffer) (popen : Option (List UInt8)) :
    Option (List UInt8) :=
  match popen with
  | none => some []
  | some bytes => (readLoop fuel buffer ⟨bytes, false⟩ []).map (·.filter (· ≠ newline))

/-! ## One round -/

section Rounds

variable {fuel : ℕ} {buffer : Buffer} {rest data : List UInt8}

theorem readLoop_of_eof : readLoop (fuel + 1) buffer ⟨rest, true⟩ data = some data := rfl

/-- Nothing is left: the mark is set and nothing appended. -/
theorem readLoop_nil :
    readLoop (fuel + 1) buffer ⟨[], false⟩ data = readLoop fuel buffer ⟨[], true⟩ data := rfl

/-- Something is left: the next piece is appended, up to its first zero. -/
theorem readLoop_of_ne_nil (fuel : ℕ) (buffer : Buffer) (data : List UInt8) (h : rest ≠ []) :
    ∃ buffer', readLoop (fuel + 1) buffer ⟨rest, false⟩ data =
      readLoop fuel buffer'
        ⟨(readLine newline (maxBuffer - 1) rest).rest,
          (readLine newline (maxBuffer - 1) rest).atEnd⟩
        (data ++ (readLine newline (maxBuffer - 1) rest).line.takeWhile (· ≠ 0)) := by
  refine ⟨buffer.store _ (length_line_lt rest), ?_⟩
  simp only [readLoop, fgets, if_neg h, Bool.false_eq_true, if_false, Bool.false_or, if_true,
    Buffer.cString_store]

end Rounds

/-! ## The whole loop -/

/-- What is appended to `data` in all. -/
def appended (bytes : List UInt8) : List UInt8 :=
  (pieces newline (maxBuffer - 1) bytes).flatMap (·.takeWhile (· ≠ 0))

theorem appended_of_ne_nil {bytes : List UInt8} (h : bytes ≠ []) :
    appended bytes = (readLine newline (maxBuffer - 1) bytes).line.takeWhile (· ≠ 0) ++
      appended (readLine newline (maxBuffer - 1) bytes).rest := by
  rw [appended, pieces_of_ne_nil (by decide) h, List.flatMap_cons, appended]

/-- **The loop appends the pieces.**  The induction is on the number of bytes left.  A piece that
runs into the end sets the mark and was the last; after the last piece of any other kind there is a
round that only sets the mark. -/
theorem readLoop_pieces (rest : List UInt8) :
    ∃ rounds ≤ rest.length + 1, ∀ fuel buffer data,
      readLoop fuel buffer ⟨rest, false⟩ data =
        if rounds < fuel then some (data ++ appended rest) else none := by
  induction hlen : rest.length using Nat.strong_induction_on generalizing rest with
  | _ k ih =>
    by_cases hrest : rest = []
    · subst hrest
      refine ⟨1, Nat.le_add_left 1 k, fun fuel buffer data => ?_⟩
      rcases fuel with _ | _ | fuel
      · rfl
      · rfl
      · rw [readLoop_nil, readLoop_of_eof, if_pos (by omega)]
        simp [appended]
    · have hlt : (readLine newline (maxBuffer - 1) rest).rest.length < rest.length :=
        length_rest_lt (by decide) hrest
      rw [appended_of_ne_nil hrest]
      cases hend : (readLine newline (maxBuffer - 1) rest).atEnd with
      | true =>
        refine ⟨1, Nat.le_add_left 1 k, fun fuel buffer data => ?_⟩
        rcases fuel with _ | fuel
        · rfl
        · obtain ⟨buffer', hround⟩ := readLoop_of_ne_nil fuel buffer data hrest
          rw [hround, hend, rest_of_atEnd hend]
          rcases fuel with _ | fuel
          · rfl
          · rw [readLoop_of_eof, if_pos (by omega)]
            simp [appended]
      | false =>
        obtain ⟨rounds, hle, hrounds⟩ := ih _ (hlen ▸ hlt) _ rfl
        refine ⟨rounds + 1, by omega, fun fuel buffer data => ?_⟩
        rcases fuel with _ | fuel
        · rfl
        · obtain ⟨buffer', hround⟩ := readLoop_of_ne_nil fuel buffer data hrest
          rw [hround, hend, hrounds, List.append_assoc]
          simp only [Nat.add_lt_add_iff_right]

/-- Without zeros, everything is appended. -/
theorem appended_eq_self {bytes : List UInt8} (h : 0 ∉ bytes) : appended bytes = bytes := by
  have hflatten : (pieces newline (maxBuffer - 1) bytes).flatten = bytes :=
    pieces_flatten newline (by decide) bytes
  have hwhole : ∀ piece ∈ pieces newline (maxBuffer - 1) bytes,
      piece.takeWhile (· ≠ 0) = piece := by
    intro piece hpiece
    refine List.takeWhile_eq_self_iff.mpr fun b hb => ?_
    have hmem : b ∈ bytes := hflatten ▸ List.mem_flatten_of_mem hpiece hb
    have hne : b ≠ 0 := fun hzero => h (hzero ▸ hmem)
    simpa using hne
  rw [appended, List.flatMap_congr hwhole, List.flatMap_id', hflatten]

/-- A zero is never appended. -/
theorem zero_not_mem_appended (bytes : List UInt8) : 0 ∉ appended bytes := by
  intro h
  obtain ⟨piece, -, hzero⟩ := List.mem_flatMap.mp h
  simpa using List.mem_takeWhile_imp hzero

/-- What is returned for any stream. -/
theorem getStdoutFromCommand_some (bytes : List UInt8) :
    ∃ rounds ≤ bytes.length + 1, ∀ fuel buffer,
      getStdoutFromCommand fuel buffer (some bytes) =
        if rounds < fuel then some ((appended bytes).filter (· ≠ newline)) else none := by
  obtain ⟨rounds, hle, hrounds⟩ := readLoop_pieces bytes
  refine ⟨rounds, hle, fun fuel buffer => ?_⟩
  rw [getStdoutFromCommand, hrounds]
  split_ifs with hfuel
  · rfl
  · rfl

/-- **Reading does not depend on the buffer.**  For every stream without zeros, the loop ends after
some number of rounds, and what is returned is the stream without its newlines: whatever is in the
buffer, and wherever newlines, cuts and the end of the stream fall. -/
theorem returns_stream_without_newlines {bytes : List UInt8} (h : 0 ∉ bytes) :
    ∃ rounds ≤ bytes.length + 1, ∀ fuel buffer,
      getStdoutFromCommand fuel buffer (some bytes) =
        if rounds < fuel then some (bytes.filter (· ≠ newline)) else none := by
  have hreturns := getStdoutFromCommand_some bytes
  rw [appended_eq_self h] at hreturns
  exact hreturns

/-- A line of 254 bytes, so that its newline is the last byte before the cut, and one of 300 bytes
with no newline behind it. -/
theorem newline_on_the_cut :
    ∃ fuel, getStdoutFromCommand fuel ⟨List.replicate maxBuffer 7, List.length_replicate⟩
        (some (List.replicate 254 97 ++ newline :: List.replicate 300 98)) =
      some (List.replicate 254 97 ++ List.replicate 300 98) := by
  have hzero : (0 : UInt8) ∉ List.replicate 254 97 ++ newline :: List.replicate 300 98 := by
    simp only [List.mem_append, List.mem_cons, List.mem_replicate]
    decide
  obtain ⟨rounds, -, hrounds⟩ := returns_stream_without_newlines hzero
  refine ⟨rounds + 1, ?_⟩
  rw [hrounds, if_pos (Nat.lt_succ_self _), List.filter_append,
    List.filter_cons_of_neg (by decide), List.filter_replicate_of_pos (by decide),
    List.filter_replicate_of_pos (by decide)]

/-- Zeros are what spoils it. -/
theorem returns_text_iff {bytes : List UInt8} (buffer : Buffer) :
    (∃ fuel, getStdoutFromCommand fuel buffer (some bytes) =
      some (bytes.filter (· ≠ newline))) ↔ 0 ∉ bytes := by
  obtain ⟨rounds, -, hrounds⟩ := getStdoutFromCommand_some bytes
  constructor
  · rintro ⟨fuel, hreturns⟩ hzero
    rw [hrounds] at hreturns
    split_ifs at hreturns with hfuel
    have hmem : (0 : UInt8) ∈ bytes.filter (· ≠ newline) :=
      List.mem_filter.mpr ⟨hzero, by decide⟩
    rw [← Option.some.inj hreturns] at hmem
    exact zero_not_mem_appended bytes (List.mem_of_mem_filter hmem)
  · intro hzero
    exact ⟨rounds + 1, by rw [hrounds, if_pos (Nat.lt_succ_self _), appended_eq_self hzero]⟩

/-! ## Texts -/

/-- The bytes as the rest of the program sees them. -/
def textOf (bytes : List UInt8) : Text := bytes.map Char.ofUInt8

theorem ofUInt8_eq_newline_iff (b : UInt8) : Char.ofUInt8 b = '\n' ↔ b = newline := by
  constructor
  · intro h
    have hnat : b.toNat = newline.toNat := congrArg Char.toNat h
    exact UInt8.toNat_inj.mp hnat
  · rintro rfl
    rfl

theorem filter_textOf (bytes : List UInt8) :
    (textOf bytes).filter (· ≠ '\n') = textOf (bytes.filter (· ≠ newline)) := by
  rw [textOf, List.filter_map]
  refine congrArg _ (List.filter_congr fun b _ => ?_)
  simp [ofUInt8_eq_newline_iff]

/-- **The function on texts is what the bytes amount to.** -/
theorem getStdoutFromCommand_textOf {W : Type} {sh : Shell W} {cmd : Query}
    {popen : Option (List UInt8)} (hpopen : ∀ bytes ∈ popen, 0 ∉ bytes)
    (hsh : sh.popen cmd = popen.map textOf) (buffer : Buffer) :
    ∃ fuel, (getStdoutFromCommand fuel buffer popen).map textOf =
      some (Infotainment.getStdoutFromCommand sh cmd) := by
  cases popen with
  | none =>
    rw [Option.map_none] at hsh
    refine ⟨0, ?_⟩
    rw [Infotainment.getStdoutFromCommand, hsh]
    rfl
  | some bytes =>
    rw [Option.map_some] at hsh
    obtain ⟨fuel, hreturns⟩ := (returns_text_iff buffer).mpr (hpopen bytes rfl)
    refine ⟨fuel, ?_⟩
    rw [hreturns, Option.map_some, ← filter_textOf, Infotainment.getStdoutFromCommand_some hsh]

/-- The listing of two devices. -/
theorem readers_agree_on_listing :
    ∃ fuel, (getStdoutFromCommand fuel ⟨List.replicate maxBuffer 7, List.length_replicate⟩
        (some [115, 100, 97, 49, 10, 115, 100, 98, 49, 10])).map textOf =
      some (Infotainment.getStdoutFromCommand (W := Unit)
        ⟨fun _ => some "sda1\nsdb1\n".toList, fun _ w => (0, w)⟩ .listDevices) :=
  getStdoutFromCommand_textOf (fun bytes hbytes => by
    obtain rfl := Option.some.inj hbytes
    decide) (by decide) _

end Pipe
end Infotainment
