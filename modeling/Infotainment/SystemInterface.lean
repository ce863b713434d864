import Infotainment.Text
import Infotainment.Library.LineReader

/-!
# The system interface

The program talks to the machine in two ways.  `GetStdoutFromCommand` runs a command for the text
it prints, standard error merged in; `system` runs a command for its exit status.  The two kinds
of command are told apart here, `Query` and `Command`, because the first only looks at the
machine while the second changes it.

A `Shell` is how the machine answers during one call of a slot.  Its queries are answered by fixed
texts: inside one slot the program never issues the same query twice to any effect.  Its
commands act on a machine state of type `W`, about which nothing is assumed --- it may carry a
mount table, a log, or a list of exit statuses prepared in advance.

## The pipe reader

`GetStdoutFromCommand` reads its pipe with `fgets` into a buffer of 256 bytes and tests the
end-of-file mark before each read.  `fgets` is one call, `readLoop` the loop; the fuel of
`readLoop` is a device, and `readLoop_eq` says that it never runs out and that the loop returns
the stream.  What the callers use is `getStdoutFromCommand_some`: the text is the stream without
its newlines.

No text here contains a zero, so that what `append` takes from the buffer is what `fgets` put there.
`PipeReader` has the buffer itself.
-/

namespace Infotainment

open LineReader

/-! ## Commands -/

/-- The commands run for their output. -/
inductive Query where
  /-- `ls /dev/ | grep sd[a-z][0-9]` -/
  | listDevices
  /-- `udevadm info --query=all --name=dev | grep usb` -/
  | udevadm (dev : Text)
  /-- `ls path | grep ext | wc -l` -/
  | countFiles (path ext : Text)
  /-- `find path -type f -name '*ext'` -/
  | findFiles (path ext : Text)
  /-- `hcitool con` -/
  | hcitoolCon
  /-- `hcitool name addr` -/
  | hcitoolName (addr : Text)
  deriving DecidableEq

/-- The commands run for their effect. -/
inductive Command where
  | mkdir (dir : Text)
  | mount (dev dir : Text)
  | umount (dir : Text)
  /-- `umount -l dir` -/
  | umountLazy (dir : Text)
  | rmdir (dir : Text)
  deriving DecidableEq

/-- `COMMAND_SUCCEDED` -/
def commandSucceded : ℤ := 0

/-- The machine as one slot sees it. -/
structure Shell (W : Type) where
  /-- What the command writes into its pipe, with `2>&1` appended to it; nothing if `popen`
  itself fails. -/
  popen : Query → Option Text
  /-- The exit status of a command, and what it does to the machine. -/
  system : Command → W → ℤ × W

/-! ## Reading a pipe -/

/-- The size of the buffer handed to `fgets`. -/
def maxBuffer : ℕ := 256

/-- `fgets(buffer, size, stream)`: what it stores, what it leaves, and whether it sets the
end-of-file mark.  It reads to the end of the line, and no further than there is room for; one byte
of the buffer is kept for the terminating zero. -/
def fgets (size : ℕ) (rest : Text) : Option Text × Text × Bool :=
  if rest = [] then (none, [], true)
  else
    let r := readLine '\n' (size - 1) rest
    (some r.line, r.rest, r.atEnd)

/-- `while (!feof(stream)) if (fgets(...) != NULL) data.append(buffer)` -/
def readLoop : ℕ → Text → Bool → Text → Option Text
  | 0, _, _, _ => none
  | fuel + 1, rest, eof, data =>
    if eof then some data
    else
      match fgets maxBuffer rest with
      | (some line, rest', eof') => readLoop fuel rest' eof' (data ++ line)
      | (none, rest', eof') => readLoop fuel rest' eof' data

/-- `GetStdoutFromCommand`: what the command printed, with the newlines removed. -/
def getStdoutFromCommand {W : Type} (sh : Shell W) (cmd : Query) : Text :=
  match sh.popen cmd with
  | none => []
  | some stream =>
    ((readLoop (stream.length + 2) stream false []).getD []).filter (· ≠ '\n')

/-! ## The loop returns the stream -/

/-- **The loop ends and returns the stream.**  The induction is on the length of what is left:
a call either shortens it or, when nothing is left, sets the mark. -/
theorem readLoop_eq (fuel : ℕ) (rest data : Text) (hfuel : rest.length + 2 ≤ fuel) :
    readLoop fuel rest false data = some (data ++ rest) := by
  induction fuel generalizing rest data with
  | zero => omega
  | succ fuel ih =>
    by_cases hrest : rest = []
    · obtain ⟨fuel, rfl⟩ := Nat.exists_eq_succ_of_ne_zero (n := fuel) (by omega)
      simp [readLoop, fgets, hrest]
    · have hsplit := readLine_append '\n' (maxBuffer - 1) rest
      have hlt : (readLine '\n' (maxBuffer - 1) rest).rest.length < rest.length :=
        length_rest_lt (by decide) hrest
      simp only [readLoop, fgets, if_neg hrest, Bool.false_eq_true, if_false]
      cases hend : (readLine '\n' (maxBuffer - 1) rest).atEnd with
      | false => rw [ih _ _ (by omega), List.append_assoc, hsplit]
      | true =>
        obtain ⟨fuel, rfl⟩ := Nat.exists_eq_succ_of_ne_zero (n := fuel) (by omega)
        rw [rest_of_atEnd hend, List.append_nil] at hsplit
        simp [readLoop, hsplit]

/-- What the callers see of a command that could be started. -/
theorem getStdoutFromCommand_some {W : Type} {sh : Shell W} {cmd : Query} {stream : Text}
    (h : sh.popen cmd = some stream) :
    getStdoutFromCommand sh cmd = stream.filter (· ≠ '\n') := by
  rw [getStdoutFromCommand, h]
  simp only
  rw [readLoop_eq _ _ _ le_rfl, Option.getD_some, List.nil_append]

/-- A text on one line comes back as it is. -/
theorem filter_newline_eq_self {s : Text} (h : '\n' ∉ s) : s.filter (· ≠ '\n') = s :=
  List.filter_eq_self.mpr fun c hc => by
    have hne : c ≠ '\n' := fun heq => h (heq ▸ hc)
    simpa using hne

end Infotainment
