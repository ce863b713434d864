import Infotainment.CommandTexts
import Mathlib.Data.Fintype.Pi

/-!
# Setting the clock

`on_doneTimeDateButton_clicked` prints the date and the time of two widgets and passes them to
`date -s`, between quotes.  The date is printed with the name of its month, which Qt takes from
the language of the system, so the names are a parameter.

A shell hands the quoted text to `date` as one argument as long as no name has an apostrophe in it,
and nothing gets lost on the way: the date and the time can be read back from it
(`clock_command_round_trip`).  Whether `date` understands the names is another matter.
-/

namespace Infotainment

open ShellWords

/-! ## Printing -/

/-- A date; the month is counted from zero. -/
structure QDate where
  day : ℕ
  month : Fin 12
  year : ℕ
  deriving DecidableEq

structure QTime where
  hour : ℕ
  minute : ℕ
  second : ℕ
  deriving DecidableEq

/-- A number, with zeros in front of it up to a width. -/
def padded (width n : ℕ) : Text := (Nat.toDigits 10 n).leftpad width '0'

variable (monthName : Fin 12 → Text)

/-- `toString("d MMM yyyy")` -/
def QDate.toText (d : QDate) : Text :=
  padded 1 d.day ++ " ".toList ++ monthName d.month ++ " ".toList ++ padded 4 d.year

/-- `toString()`, which is `"hh:mm:ss"`. -/
def QTime.toText (t : QTime) : Text :=
  padded 2 t.hour ++ ":".toList ++ padded 2 t.minute ++ ":".toList ++ padded 2 t.second

/-- `updatedDate + " " + updatedTime` -/
def dateTimeText (d : QDate) (t : QTime) : Text := d.toText monthName ++ " ".toList ++ t.toText

/-- `updateTimeDateCMD` -/
def updateTimeDateCommand (d : QDate) (t : QTime) : Text :=
  "date -s '".toList ++ dateTimeText monthName d t ++ "'".toList

/-! ## Reading -/

def readNumber (s : Text) : ℕ := Nat.ofDigitChars 10 s 0

def readTime (s : Text) : Option QTime :=
  match s.splitOn ':' with
  | [hour, minute, second] => some ⟨readNumber hour, readNumber minute, readNumber second⟩
  | _ => none

def readDateTime (s : Text) : Option (QDate × QTime) :=
  match s.splitOn ' ' with
  | [day, name, year, time] =>
    ((List.finRange 12).find? (monthName · = name)).bind fun month =>
      (readTime time).map (⟨readNumber day, month, readNumber year⟩, ·)
  | _ => none

/-! ## The round trip -/

theorem readNumber_padded (width n : ℕ) : readNumber (padded width n) = n := by
  rw [readNumber, padded, List.leftpad, Nat.ofDigitChars_append, Nat.ofDigitChars_replicate_zero,
    Nat.mul_zero]
  exact Nat.ofDigitChars_toDigits (by decide) (by decide)

theorem isDigit_of_mem_padded {width n : ℕ} {c : Char} (h : c ∈ padded width n) :
    c.isDigit = true := by
  rw [padded, List.leftpad] at h
  rcases List.mem_append.mp h with h | h
  · rw [List.eq_of_mem_replicate h]
    decide
  · exact Nat.isDigit_of_mem_toDigits (by decide) (by decide) h

theorem not_mem_padded {width n : ℕ} {c : Char} (hc : c.isDigit = false) : c ∉ padded width n :=
  fun h => absurd (hc.symm.trans (isDigit_of_mem_padded h)) Bool.false_ne_true

theorem QTime.toText_eq (t : QTime) :
    t.toText = [':'].intercalate [padded 2 t.hour, padded 2 t.minute, padded 2 t.second] := by
  simp [toText, List.intercalate]

theorem readTime_toText (t : QTime) : readTime t.toText = some t := by
  have hcolon : ∀ s ∈ [padded 2 t.hour, padded 2 t.minute, padded 2 t.second], ':' ∉ s := by
    simp [not_mem_padded]
  rw [readTime, t.toText_eq, List.splitOn_intercalate ':' hcolon (by simp)]
  simp only [readNumber_padded]

theorem QTime.not_mem_toText {c : Char} (hc : c.isDigit = false) (hcolon : c ≠ ':') (t : QTime) :
    c ∉ t.toText := by
  simp [toText, not_mem_padded hc, hcolon]

variable {monthName}

theorem dateTimeText_eq (d : QDate) (t : QTime) : dateTimeText monthName d t =
    [' '].intercalate [padded 1 d.day, monthName d.month, padded 4 d.year, t.toText] := by
  simp [dateTimeText, QDate.toText, List.intercalate]

theorem readDateTime_dateTimeText (hinj : Function.Injective monthName)
    (hblank : ∀ m, ' ' ∉ monthName m) (d : QDate) (t : QTime) :
    readDateTime monthName (dateTimeText monthName d t) = some (d, t) := by
  have hpieces : ∀ s ∈ [padded 1 d.day, monthName d.month, padded 4 d.year, t.toText],
      ' ' ∉ s := by
    simp [not_mem_padded, hblank, t.not_mem_toText]
  have hmonth : (List.finRange 12).find? (monthName · = monthName d.month) = some d.month := by
    cases hfind : (List.finRange 12).find? (monthName · = monthName d.month) with
    | none => simpa using List.find?_eq_none.mp hfind d.month (List.mem_finRange _)
    | some m =>
      have hname : monthName m = monthName d.month := by simpa using List.find?_some hfind
      rw [hinj hname]
  rw [readDateTime, dateTimeText_eq, List.splitOn_intercalate ' ' hpieces (by simp)]
  simp only [hmonth, readTime_toText, readNumber_padded]
  rfl

theorem quote_not_mem_dateTimeText (hquote : ∀ m, '\'' ∉ monthName m) (d : QDate) (t : QTime) :
    '\'' ∉ dateTimeText monthName d t := by
  simp [dateTimeText, QDate.toText, not_mem_padded, hquote, t.not_mem_toText]

/-- **What is set on the screen is what `date` is told.**  The shell reads one program with the date
and the time as one argument, and they can be read back from it. -/
theorem clock_command_round_trip (hinj : Function.Injective monthName)
    (hblank : ∀ m, ' ' ∉ monthName m) (hquote : ∀ m, '\'' ∉ monthName m) (d : QDate) (t : QTime) :
    ∃ s, programs (updateTimeDateCommand monthName d t) =
        some [[argument "date".toList, argument "-s".toList, .word (quoted s)]] ∧
      readDateTime monthName s = some (d, t) := by
  refine ⟨dateTimeText monthName d t, ?_, readDateTime_dateTimeText hinj hblank d t⟩
  have hne : dateTimeText monthName d t ≠ [] := by simp [dateTimeText]
  have hword : (quoted (dateTimeText monthName d t)).Sound :=
    sound_quoted hne (quote_not_mem_dateTimeText hquote d t)
  have hprint : print [argument "date".toList, argument "-s".toList,
      .word (quoted (dateTimeText monthName d t))] = updateTimeDateCommand monthName d t := by
    unfold updateTimeDateCommand
    simp [print, argument, Token.text, Token.glued, printWord_quoted hne]
  have hprintable : Printable ([pipe].intercalate [[argument "date".toList, argument "-s".toList,
      .word (quoted (dateTimeText monthName d t))]]) :=
    printable_argument (by decide) <| printable_argument (by decide) ⟨hword, trivial⟩
  have hread := programs_print hprintable (by simp [argument, pipe]) (by simp)
  rwa [List.intercalate_singleton, hprint] at hread

def englishMonth (m : Fin 12) : Text :=
  (["Jan", "Feb", "Mar", "Apr", "May", "Jun", "Jul", "Aug", "Sep", "Oct", "Nov", "Dec"].getD m
    "").toList

/-- Seven in the morning, on the first of January. -/
theorem clock_command_english :
    ∃ s, programs (updateTimeDateCommand englishMonth ⟨1, 0, 2020⟩ ⟨7, 0, 0⟩) =
        some [[argument "date".toList, argument "-s".toList, .word (quoted s)]] ∧
      readDateTime englishMonth s = some (⟨1, 0, 2020⟩, ⟨7, 0, 0⟩) :=
  clock_command_round_trip (by decide) (by decide) (by decide) _ _

example : updateTimeDateCommand englishMonth ⟨1, 0, 2020⟩ ⟨7, 0, 0⟩ =
    "date -s '1 Jan 2020 07:00:00'".toList := by decide +kernel

end Infotainment
