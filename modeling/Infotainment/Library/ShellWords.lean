import Mathlib.Data.List.Basic

/-!
# How a shell reads a command

The first thing a shell does with a command is to cut it into tokens: words, operators, and the
numbers of streams in front of a redirection.  `read` is that step and nothing more, so that the
words it yields have not been expanded.  Single quotes are understood; what else can quote or
expand inside a word (`\`, `"`, `$` and the backquote), comments and here-documents are not, and
`read` yields nothing where it meets them.

`print` goes the other way.  `read_print` is that what is printed is read back, as long as the
unquoted characters of its words are `Plain` and the rest is in order, and `barePlain_of_readFrom`
is that no other character is ever read unquoted.
-/

namespace ShellWords

/-! ## Characters -/

def isBlank (c : Char) : Bool := c = ' ' || c = '\t'

/-- The characters that operators are made of, and the newline. -/
def isOperator (c : Char) : Bool := c ∈ ['&', '|', ';', '<', '>', '(', ')', '\n']

/-- The characters that are not read here. -/
def isEscape (c : Char) : Bool := c ∈ ['\\', '"', '$', '\x60']

/-- A character that stands for itself when a text is split into words.  Those of a pathname pattern
do, as patterns are not matched here. -/
def Plain (c : Char) : Prop :=
  isBlank c = false ∧ isOperator c = false ∧ isEscape c = false ∧ c ≠ '\''

instance (c : Char) : Decidable (Plain c) := inferInstanceAs (Decidable (_ ∧ _ ∧ _ ∧ _))

/-- The operators of two characters. -/
def pairs : List (List Char) :=
  [['&', '&'], ['|', '|'], [';', ';'], ['>', '>'], ['<', '&'], ['>', '&'], ['<', '>'], ['>', '|']]

/-! ## Tokens -/

/-- A word: its characters, each with whether it was quoted. -/
abbrev Word := List (Char × Bool)

/-- Nothing quoted, everything quoted. -/
def bare (t : List Char) : Word := t.map (·, false)

def quoted (t : List Char) : Word := t.map (·, true)

inductive Token where
  | word (w : Word)
  /-- The number of a stream, in front of a redirection. -/
  | stream (n : List Char)
  | operator (o : List Char)
  deriving DecidableEq

/-! ## Reading -/

/-- What the reader is in the middle of. -/
inductive Mode where
  | between
  | word (w : Word)
  /-- Between the quotes of a word. -/
  | quote (w : Word)
  /-- After the first character of an operator. -/
  | operator (c : Char)

/-- What a character begins. -/
def begins (c : Char) : Option Mode :=
  if isBlank c = true then some .between
  else if c = '\'' then some (.quote [])
  else if isOperator c = true then some (.operator c)
  else if isEscape c = true ∨ c = '#' then none
  else some (.word [(c, false)])

/-- The token that ends in front of a character. -/
def close (w : Word) (next : Char) : Token :=
  if (next = '<' ∨ next = '>') ∧ w ≠ [] ∧ w.all (fun g => g.1.isDigit && !g.2) = true then
    .stream (w.map Prod.fst)
  else .word w

/-- The tokens of a text. -/
def readFrom : Mode → List Char → Option (List Token)
  | .between, [] => some []
  | .between, c :: s => (begins c).bind fun m => readFrom m s
  | .word w, [] => some [.word w]
  | .word w, c :: s =>
    if c = '\'' then readFrom (.quote w) s
    else if isBlank c = true ∨ isOperator c = true then
      (begins c).bind fun m => (readFrom m s).map (close w c :: ·)
    else if isEscape c = true then none
    else readFrom (.word (w ++ [(c, false)])) s
  | .quote _, [] => none
  | .quote w, c :: s =>
    if c = '\'' then readFrom (.word w) s else readFrom (.quote (w ++ [(c, true)])) s
  | .operator c, [] => some [.operator [c]]
  | .operator c, d :: s =>
    if pairs.contains [c, d] = true then (readFrom .between s).map (.operator [c, d] :: ·)
    else (begins d).bind fun m => (readFrom m s).map (.operator [c] :: ·)

def read (s : List Char) : Option (List Token) := readFrom .between s

/-! ## Printing -/

/-- The rest of a word; the flag says whether a quote is open. -/
def printWord : Bool → Word → List Char
  | q, [] => if q = true then ['\''] else []
  | q, (c, q') :: w => if q = q' then c :: printWord q' w else '\'' :: c :: printWord q' w

def Token.text : Token → List Char
  | .word w => printWord false w
  | .stream n => n
  | .operator o => o

/-- Nothing stands between this token and the next. -/
def Token.glued : Token → Bool
  | .word _ => false
  | .stream _ => true
  | .operator o => o = ['>', '&']

/-- The tokens, with blanks between them. -/
def print : List Token → List Char
  | [] => []
  | t :: ts =>
    t.text ++ if ts.isEmpty then [] else if t.glued then print ts else ' ' :: print ts

/-! ## What can be printed -/

/-- A word that is not empty, does not look like a comment, and holds no character unquoted that
would have to be quoted, and none quoted that cannot be. -/
structure Word.Sound (w : Word) : Prop where
  bare : ∀ c, (c, false) ∈ w → Plain c
  quoted : ∀ c, (c, true) ∈ w → c ≠ '\''
  ne_nil : w ≠ []
  not_comment : w.head? ≠ some ('#', false)

/-- Tokens that can be told apart when they are printed. -/
def Printable : List Token → Prop
  | [] => True
  | .word w :: ts => Word.Sound w ∧ Printable ts
  | .stream n :: ts => n ≠ [] ∧ (∀ c ∈ n, c.isDigit = true) ∧
      (∃ o us, ts = .operator o :: us ∧ (o.head? = some '<' ∨ o.head? = some '>')) ∧ Printable ts
  | .operator o :: ts => (o ∈ pairs ∨ ∃ c, isOperator c = true ∧ o = [c]) ∧ Printable ts

/-! ## Reading what was printed -/

/-- What is computed to be true of every entry of a list.  The characters are finitely many, so that
`decide` would otherwise be free to go through all of them. -/
theorem forall_mem_of_all {α : Type*} {p : α → Prop} [DecidablePred p] {l : List α}
    (h : (l.all fun a => decide (p a)) = true) : ∀ a ∈ l, p a := by
  simpa using h

theorem begins_of_plain {c : Char} (h : Plain c) (hc : c ≠ '#') :
    begins c = some (.word [(c, false)]) := by
  obtain ⟨hblank, hoperator, hescape, hquote⟩ := h
  simp [begins, hblank, hoperator, hescape, hquote, hc]

theorem begins_of_isOperator {c : Char} (h : isOperator c = true) :
    begins c = some (.operator c) := by
  have hall : ∀ d ∈ ['&', '|', ';', '<', '>', '(', ')', '\n'],
      isBlank d = false ∧ d ≠ '\'' := forall_mem_of_all (by decide)
  obtain ⟨hblank, hquote⟩ := hall c (by simpa [isOperator] using h)
  simp [begins, hblank, hquote, h]

theorem readFrom_word_plain {w : Word} {c : Char} {s : List Char} (h : Plain c) :
    readFrom (.word w) (c :: s) = readFrom (.word (w ++ [(c, false)])) s := by
  obtain ⟨hblank, hoperator, hescape, hquote⟩ := h
  simp [readFrom, hblank, hoperator, hescape, hquote]

/-- Inside a word, or inside its quotes. -/
def inside : Bool → Word → Mode
  | false => .word
  | true => .quote

/-- The rest of a word is read to its end. -/
theorem readFrom_printWord {v : Word} (hbare : ∀ c, (c, false) ∈ v → Plain c)
    (hquoted : ∀ c, (c, true) ∈ v → c ≠ '\'') (q : Bool) (w : Word) (s : List Char) :
    readFrom (inside q w) (printWord q v ++ s) = readFrom (.word (w ++ v)) s := by
  induction v generalizing q w with
  | nil => cases q <;> simp [printWord, inside, readFrom]
  | cons g v ih =>
    obtain ⟨c, q'⟩ := g
    have hrest := ih (fun d hd => hbare d (List.mem_cons_of_mem _ hd))
      (fun d hd => hquoted d (List.mem_cons_of_mem _ hd)) q' (w ++ [(c, q')])
    rw [List.append_assoc, List.singleton_append] at hrest
    rw [← hrest]
    cases q' with
    | false =>
      have hc := hbare c List.mem_cons_self
      cases q with
      | false => exact readFrom_word_plain hc
      | true => exact readFrom_word_plain hc
    | true =>
      have hc := hquoted c List.mem_cons_self
      cases q <;> simp [printWord, inside, readFrom, hc]

theorem readFrom_sound {w : Word} (hw : w.Sound) (s : List Char) :
    readFrom .between (printWord false w ++ s) = readFrom (.word w) s := by
  obtain ⟨hbare, hquoted, hne, hcomment⟩ := hw
  cases w with
  | nil => exact absurd rfl hne
  | cons g v =>
    obtain ⟨c, q⟩ := g
    have hrest := readFrom_printWord (v := v) (fun d hd => hbare d (List.mem_cons_of_mem _ hd))
      (fun d hd => hquoted d (List.mem_cons_of_mem _ hd)) q [(c, q)] s
    rw [List.singleton_append] at hrest
    rw [← hrest]
    cases q with
    | false =>
      have hbegins := begins_of_plain (hbare c List.mem_cons_self) (by simpa using hcomment)
      simp [printWord, readFrom, hbegins, inside]
    | true =>
      have hc := hquoted c List.mem_cons_self
      have hbegins : begins '\'' = some (.quote []) := rfl
      simp [printWord, readFrom, hbegins, inside, hc]

theorem readFrom_word_blank (w : Word) (s : List Char) :
    readFrom (.word w) (' ' :: s) = (readFrom .between s).map (.word w :: ·) := by
  simp [readFrom, isBlank, begins, close]

theorem readFrom_isOperator {c : Char} (h : isOperator c = true) (s : List Char) :
    readFrom .between (c :: s) = readFrom (.operator c) s := by
  rw [readFrom, begins_of_isOperator h, Option.bind_some]

theorem readFrom_pair {o : List Char} (h : o ∈ pairs) (s : List Char) :
    readFrom .between (o ++ s) = (readFrom .between s).map (.operator o :: ·) := by
  have hall : ∀ o ∈ pairs, o.length = 2 ∧ o.head?.all isOperator = true := by decide
  obtain ⟨hlen, hhead⟩ := hall o h
  obtain ⟨c, d, rfl⟩ := List.length_eq_two.mp hlen
  rw [List.cons_append, readFrom_isOperator hhead, List.singleton_append, readFrom,
    if_pos (List.contains_iff_mem.mpr h)]

/-- An operator, and a blank or nothing behind it. -/
theorem readFrom_operator {o : List Char} (h : o ∈ pairs ∨ ∃ c, isOperator c = true ∧ o = [c])
    {s : List Char} (hs : s = [] ∨ ∃ s', s = ' ' :: s') :
    readFrom .between (o ++ s) = (readFrom .between s).map (.operator o :: ·) := by
  rcases h with hpair | ⟨c, hc, rfl⟩
  · exact readFrom_pair hpair s
  · rw [List.singleton_append, readFrom_isOperator hc]
    rcases hs with rfl | ⟨s', rfl⟩
    · rfl
    · have hsingle : ¬ pairs.contains [c, ' '] = true := by simp [pairs]
      show (if pairs.contains [c, ' '] = true then _ else _) = _
      rw [if_neg hsingle]
      rfl

/-- The characters that mean something to the shell. -/
def special : List Char :=
  [' ', '\t', '&', '|', ';', '<', '>', '(', ')', '\n', '\\', '"', '$', '\x60', '\'', '#']

theorem plain_of_not_mem_special {c : Char} (h : c ∉ special) : Plain c ∧ c ≠ '#' := by
  simp only [special, List.mem_cons, List.not_mem_nil, or_false, not_or] at h
  simp [Plain, isBlank, isOperator, isEscape, h]

/-- What is true of a character and of none of those. -/
theorem plain_of_all {p : Char → Bool} (hp : (special.all fun d => !p d) = true) {c : Char}
    (hc : p c = true) : Plain c ∧ c ≠ '#' :=
  plain_of_not_mem_special fun hmem => by
    have hnot := List.all_eq_true.mp hp c hmem
    rw [hc] at hnot
    exact Bool.false_ne_true hnot

theorem plain_of_isDigit {c : Char} (h : c.isDigit = true) : Plain c ∧ c ≠ '#' :=
  plain_of_all (p := Char.isDigit) (by decide) h

/-- A word without quotes is printed as it is. -/
@[simp] theorem printWord_bare (t : List Char) : printWord false (bare t) = t := by
  induction t with
  | nil => rfl
  | cons c t ih => exact congrArg (c :: ·) ih

/-- A word in quotes. -/
theorem printWord_quoted {t : List Char} (ht : t ≠ []) :
    printWord false (quoted t) = '\'' :: (t ++ ['\'']) := by
  have hopen : ∀ t, printWord true (quoted t) = t ++ ['\''] := fun t => by
    induction t with
    | nil => rfl
    | cons c t ih => exact congrArg (c :: ·) ih
  cases t with
  | nil => exact absurd rfl ht
  | cons c t => exact congrArg (fun u => '\'' :: c :: u) (hopen t)

theorem sound_bare {t : List Char} (ht : t ≠ []) (hplain : ∀ c ∈ t, Plain c)
    (hcomment : t.head? ≠ some '#') : (bare t).Sound where
  bare c hc := by
    obtain ⟨d, hd, heq⟩ := List.mem_map.mp hc
    obtain rfl : d = c := congrArg Prod.fst heq
    exact hplain d hd
  quoted c hc := by simp [ShellWords.bare] at hc
  ne_nil := by simpa [ShellWords.bare] using ht
  not_comment := by
    rw [ShellWords.bare, List.head?_map]
    intro hhead
    obtain ⟨c, hc, heq⟩ := Option.map_eq_some_iff.mp hhead
    exact hcomment (hc.trans (congrArg some (congrArg Prod.fst heq)))

theorem sound_quoted {t : List Char} (ht : t ≠ []) (hquote : '\'' ∉ t) : (quoted t).Sound where
  bare c hc := by simp [ShellWords.quoted] at hc
  quoted c hc := by
    obtain ⟨d, hd, heq⟩ := List.mem_map.mp hc
    obtain rfl : d = c := congrArg Prod.fst heq
    exact fun h => hquote (h ▸ hd)
  ne_nil := by simpa [ShellWords.quoted] using ht
  not_comment := by
    rw [ShellWords.quoted, List.head?_map]
    intro hhead
    obtain ⟨c, hc, heq⟩ := Option.map_eq_some_iff.mp hhead
    exact absurd (congrArg Prod.snd heq) (by simp)

/-- The number of a stream, and the redirection behind it. -/
theorem readFrom_stream {n : List Char} (hne : n ≠ []) (hn : ∀ c ∈ n, c.isDigit = true) {c : Char}
    (hc : c = '<' ∨ c = '>') (s : List Char) :
    readFrom .between (n ++ c :: s) = (readFrom .between (c :: s)).map (.stream n :: ·) := by
  have hword : (bare n).Sound := by
    refine sound_bare hne (fun d hd => (plain_of_isDigit (hn d hd)).1) fun hhead => ?_
    exact (plain_of_isDigit (hn _ (List.mem_of_mem_head? hhead))).2 rfl
  have hread := readFrom_sound hword (c :: s)
  rw [printWord_bare] at hread
  have hclose : close (bare n) c = .stream n := by
    rw [close, if_pos ⟨hc, hword.ne_nil, by simpa [bare] using hn⟩, bare, List.map_map]
    exact congrArg Token.stream (List.map_id n)
  have hoperator : isOperator c = true ∧ c ≠ '\'' := by
    rcases hc with rfl | rfl <;> decide
  rw [hread, readFrom_isOperator hoperator.1]
  show (if c = '\'' then _ else if isBlank c = true ∨ isOperator c = true then _ else _) = _
  rw [if_neg hoperator.2, if_pos (Or.inr hoperator.1), begins_of_isOperator hoperator.1, hclose]
  rfl

/-- **What is printed is read back.** -/
theorem read_print {ts : List Token} (h : Printable ts) : read (print ts) = some ts := by
  induction ts with
  | nil => rfl
  | cons t ts ih =>
    cases t with
    | word w =>
      obtain ⟨hw, hts⟩ := h
      have hread := readFrom_sound hw (if ts.isEmpty then [] else ' ' :: print ts)
      refine hread.trans ?_
      cases ts with
      | nil => rfl
      | cons u us =>
        refine (readFrom_word_blank w (print (u :: us))).trans ?_
        rw [← read, ih hts]
        rfl
    | stream n =>
      obtain ⟨hne, hn, ⟨o, us, rfl, ho⟩, hts⟩ := h
      obtain ⟨c, s, hs, hc⟩ : ∃ c s, print (.operator o :: us) = c :: s ∧ (c = '<' ∨ c = '>') := by
        cases o with
        | nil => simp at ho
        | cons c o => exact ⟨c, _, rfl, by simpa using ho⟩
      have hprint : print (.stream n :: .operator o :: us) = n ++ c :: s := congrArg (n ++ ·) hs
      rw [read, hprint, readFrom_stream hne hn hc, ← hs, ← read, ih hts]
      rfl
    | operator o =>
      obtain ⟨ho, hts⟩ := h
      have hrest : readFrom .between (if ts.isEmpty then [] else
          if (Token.operator o).glued then print ts else ' ' :: print ts) = some ts := by
        cases ts with
        | nil => rfl
        | cons u us =>
          rw [List.isEmpty_cons, if_neg Bool.false_ne_true]
          split_ifs
          · exact ih hts
          · exact ih hts
      have hread : readFrom .between (print (.operator o :: ts)) =
          (some ts).map (.operator o :: ·) := by
        rw [← hrest]
        by_cases hglued : o = ['>', '&']
        · exact readFrom_pair (by rw [hglued]; decide) _
        · refine readFrom_operator ho ?_
          cases ts with
          | nil => exact Or.inl rfl
          | cons u us => exact Or.inr ⟨print (u :: us), by simp [Token.glued, hglued]⟩
      exact hread

/-! ## Nothing else is read -/

/-- Everything that was kept unquoted is plain. -/
def BarePlain (w : Word) : Prop := ∀ c, (c, false) ∈ w → Plain c

def Mode.BarePlain : Mode → Prop
  | .word w | .quote w => ShellWords.BarePlain w
  | .between | .operator _ => True

theorem BarePlain.concat {w : Word} (hw : BarePlain w) {c : Char} {q : Bool}
    (hc : q = false → Plain c) : BarePlain (w ++ [(c, q)]) := by
  intro d hd
  rcases List.mem_append.mp hd with hd | hd
  · exact hw d hd
  · obtain ⟨rfl, rfl⟩ : d = c ∧ false = q := by simpa using hd
    exact hc rfl

theorem barePlain_of_begins {c : Char} {m : Mode} (h : begins c = some m) : m.BarePlain := by
  rw [begins] at h
  split_ifs at h with hblank hquote hoperator hescape
  · exact Option.some.inj h ▸ trivial
  · exact Option.some.inj h ▸ fun d hd => absurd hd List.not_mem_nil
  · exact Option.some.inj h ▸ trivial
  · rw [not_or] at hescape
    refine Option.some.inj h ▸ BarePlain.concat (w := []) (fun d hd => absurd hd List.not_mem_nil)
      fun _ => ?_
    exact ⟨by simpa using hblank, by simpa using hoperator, by simpa using hescape.1, hquote⟩

/-- **No special character gets into a word unquoted.** -/
theorem barePlain_of_readFrom {m : Mode} {s : List Char} {ts : List Token}
    (h : readFrom m s = some ts) (hm : m.BarePlain) {w : Word} (hw : .word w ∈ ts) :
    BarePlain w := by
  -- a character that begins something new
  have hbegin : ∀ {c : Char} {s : List Char} {t : Token} {ts : List Token},
      (∀ {m : Mode} {ts : List Token}, readFrom m s = some ts → m.BarePlain → .word w ∈ ts →
        BarePlain w) →
      ((begins c).bind fun m => (readFrom m s).map (t :: ·)) = some ts → .word w ∈ ts →
      t = .word w ∨ BarePlain w := by
    intro c s t ts ih h hw
    obtain ⟨m, hm, hread⟩ := Option.bind_eq_some_iff.mp h
    obtain ⟨us, hus, rfl⟩ := Option.map_eq_some_iff.mp hread
    rcases List.mem_cons.mp hw with heq | hw
    · exact Or.inl heq.symm
    · exact Or.inr (ih hus (barePlain_of_begins hm) hw)
  induction s generalizing m ts with
  | nil =>
    cases m with
    | between =>
      obtain rfl : [] = ts := Option.some.inj h
      simp at hw
    | word v =>
      obtain rfl : [.word v] = ts := Option.some.inj h
      obtain rfl : w = v := by simpa using hw
      exact hm
    | quote v => exact nomatch h
    | operator c =>
      obtain rfl : [.operator [c]] = ts := Option.some.inj h
      simp at hw
  | cons c s ih =>
    cases m with
    | between =>
      obtain ⟨m, hm', hread⟩ := Option.bind_eq_some_iff.mp h
      exact ih hread (barePlain_of_begins hm') hw
    | word v =>
      rw [readFrom] at h
      split_ifs at h with hquote hends hescape
      · exact ih h hm hw
      · rcases hbegin ih h hw with hclose | hw
        · rw [close] at hclose
          split_ifs at hclose
          exact Token.word.inj hclose ▸ hm
        · exact hw
      · refine ih h (BarePlain.concat hm fun _ => ?_) hw
        rw [not_or] at hends
        exact ⟨by simpa using hends.1, by simpa using hends.2, by simpa using hescape, hquote⟩
    | quote v =>
      rw [readFrom] at h
      split_ifs at h with hquote
      · exact ih h hm hw
      · exact ih h (BarePlain.concat hm fun hq => absurd hq (by simp)) hw
    | operator o =>
      rw [readFrom] at h
      split_ifs at h
      · obtain ⟨us, hus, rfl⟩ := Option.map_eq_some_iff.mp h
        exact ih hus trivial (by simpa using hw)
      · rcases hbegin ih h hw with hop | hw
        · exact nomatch hop
        · exact hw

/-! ## Pipelines -/

/-- The operator between two programs of a pipeline. -/
def pipe : Token := .operator ['|']

/-- The programs of a pipeline, each with its arguments and redirections. -/
def programs (s : List Char) : Option (List (List Token)) := (read s).map (·.splitOn pipe)

/-- The programs of a pipeline that was printed. -/
theorem programs_print {stages : List (List Token)} (h : Printable ([pipe].intercalate stages))
    (hpipe : ∀ stage ∈ stages, pipe ∉ stage) (hne : stages ≠ []) :
    programs (print ([pipe].intercalate stages)) = some stages := by
  rw [programs, read_print h, Option.map_some, List.splitOn_intercalate pipe hpipe hne]

/-- Everything that is read unquoted, in any of the programs, is plain. -/
theorem barePlain_of_programs {s : List Char} {stages : List (List Token)}
    (h : programs s = some stages) {stage : List Token} (hstage : stage ∈ stages) {w : Word}
    (hw : .word w ∈ stage) : BarePlain w := by
  obtain ⟨ts, hts, rfl⟩ := Option.map_eq_some_iff.mp h
  refine barePlain_of_readFrom (m := .between) hts trivial ?_
  have hts' : [pipe].intercalate (ts.splitOn pipe) = ts := List.intercalate_splitOn pipe
  rw [← hts', List.intercalate, List.mem_flatten]
  refine ⟨stage, ?_, hw⟩
  obtain ⟨i, hi⟩ := List.mem_iff_getElem?.mp hstage
  exact List.mem_iff_getElem?.mpr ⟨2 * i, by rw [List.getElem?_intersperse_two_mul, hi]⟩

end ShellWords
