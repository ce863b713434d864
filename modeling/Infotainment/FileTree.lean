import Infotainment.Text

/-!
# A stick and the tools that look at it

The contents of a stick are a list of entries: regular files, directories with entries of their own,
and others, such as links.  Two pipelines look at them.

* `find path -type f -name '*ext'` goes through all depths and prints the path of each regular file
  whose name ends in the extension (`findAll`); there is one exactly if the tree has such a file
  anywhere (`HasFile`).
* `ls path | grep ext | wc -l` counts the entries at the top, of any kind, that are not hidden and
  whose name matches the extension as a regular expression: anywhere in the name, and with the dot
  standing for any character (`TopMatch`).
-/

namespace Infotainment

/-! ## The tree -/

/-- A file name. -/
structure FileName where
  text : Text
  ne_nil : text ≠ []
  no_slash : '/' ∉ text
  no_newline : '\n' ∉ text

/-- What a directory contains. -/
inductive Entry where
  | file (name : FileName)
  | dir (name : FileName) (entries : List Entry)
  | other (name : FileName)

def Entry.name : Entry → FileName
  | .file name => name
  | .dir name _ => name
  | .other name => name

/-! ## `find` -/

mutual

/-- What `find` prints of an entry in the directory `path`, which ends in a slash. -/
def Entry.find (ext path : Text) : Entry → List Text
  | .file name => if ext <:+ name.text then [path ++ name.text] else []
  | .dir name entries => findAll ext (path ++ name.text ++ ['/']) entries
  | .other _ => []

/-- What `find` prints of a directory. -/
def findAll (ext path : Text) : List Entry → List Text
  | [] => []
  | e :: es => e.find ext path ++ findAll ext path es

end

/-- Somewhere in the tree there is a regular file with the extension. -/
inductive HasFile (ext : Text) : List Entry → Prop where
  | file {name : FileName} {tree : List Entry} :
      .file name ∈ tree → ext <:+ name.text → HasFile ext tree
  | dir {name : FileName} {entries tree : List Entry} :
      .dir name entries ∈ tree → HasFile ext entries → HasFile ext tree

variable {ext : Text}

theorem HasFile.mono {tree tree' : List Entry} (h : HasFile ext tree) (hsub : tree ⊆ tree') :
    HasFile ext tree' := by
  cases h with
  | file hmem hext => exact .file (hsub hmem) hext
  | dir hmem hfile => exact .dir (hsub hmem) hfile

theorem find_subset_findAll {path : Text} {e : Entry} {tree : List Entry} (h : e ∈ tree) :
    e.find ext path ⊆ findAll ext path tree := by
  induction tree with
  | nil => exact absurd h List.not_mem_nil
  | cons e' tree ih =>
    rw [findAll]
    rcases List.mem_cons.mp h with rfl | h
    · exact List.subset_append_left _ _
    · exact List.Subset.trans (ih h) (List.subset_append_right _ _)

/-- Every file is found. -/
theorem HasFile.findAll_ne_nil {tree : List Entry} (h : HasFile ext tree) (path : Text) :
    findAll ext path tree ≠ [] := by
  induction h generalizing path with
  | @file name tree hmem hext =>
    have hfind : (Entry.file name).find ext path = [path ++ name.text] := by
      rw [Entry.find, if_pos hext]
    exact List.ne_nil_of_mem (find_subset_findAll hmem (hfind ▸ List.mem_singleton_self _))
  | @dir name entries tree hmem _ ih =>
    obtain ⟨p, hp⟩ := List.exists_mem_of_ne_nil _ (ih (path ++ name.text ++ ['/']))
    exact List.ne_nil_of_mem (find_subset_findAll hmem (by rwa [Entry.find]))

mutual

/-- What is found in an entry is the path of a file in it. -/
theorem Entry.hasFile_of_mem_find {path p : Text} :
    ∀ {e : Entry}, p ∈ e.find ext path → HasFile ext [e] ∧ ext <:+ p
  | .file name, h => by
    rw [Entry.find] at h
    split_ifs at h with hext
    · obtain rfl := List.mem_singleton.mp h
      exact ⟨.file (List.mem_singleton_self _) hext, hext.trans (List.suffix_append _ _)⟩
    · exact absurd h List.not_mem_nil
  | .dir name entries, h => by
    rw [Entry.find] at h
    obtain ⟨hfile, hback⟩ := hasFile_of_mem_findAll h
    exact ⟨.dir (List.mem_singleton_self _) hfile, hback⟩
  | .other _, h => by
    rw [Entry.find] at h
    exact absurd h List.not_mem_nil

theorem hasFile_of_mem_findAll {path p : Text} :
    ∀ {tree : List Entry}, p ∈ findAll ext path tree → HasFile ext tree ∧ ext <:+ p
  | [], h => by
    rw [findAll] at h
    exact absurd h List.not_mem_nil
  | e :: tree, h => by
    rw [findAll] at h
    rcases List.mem_append.mp h with h | h
    · obtain ⟨hfile, hback⟩ := Entry.hasFile_of_mem_find h
      exact ⟨hfile.mono (by simp), hback⟩
    · obtain ⟨hfile, hback⟩ := hasFile_of_mem_findAll h
      exact ⟨hfile.mono (List.subset_cons_self _ _), hback⟩

end

/-- **What `find` finds.** -/
theorem findAll_ne_nil_iff {path : Text} {tree : List Entry} :
    findAll ext path tree ≠ [] ↔ HasFile ext tree := by
  constructor
  · intro h
    obtain ⟨p, hp⟩ := List.exists_mem_of_ne_nil _ h
    exact (hasFile_of_mem_findAll hp).1
  · exact fun h => h.findAll_ne_nil path

/-! ## `ls`, `grep` and `wc` -/

/-- What `ls` prints of a directory: the names that do not begin with a dot. -/
def ls (tree : List Entry) : List Text :=
  (tree.map (·.name.text)).filter (·.head? ≠ some '.')

/-- A regular expression without any special characters but the dot, at the front of a text. -/
def matchesHere : Text → Text → Bool
  | [], _ => true
  | _ :: _, [] => false
  | p :: pattern, c :: s => (p = '.' || p = c) && matchesHere pattern s

/-- The lines that such an expression matches somewhere. -/
def grep (pattern : Text) (lines : List Text) : List Text :=
  lines.filter fun line => line.tails.any (matchesHere pattern)

/-- What `wc -l` prints for these lines. -/
def wcLines (lines : List Text) : Text := Nat.toDigits 10 lines.length ++ ['\n']

theorem wcLines_filter_newline (lines : List Text) :
    (wcLines lines).filter (· ≠ '\n') = Nat.toDigits 10 lines.length := by
  rw [wcLines, List.filter_append, List.filter_eq_self.mpr]
  · exact List.append_nil _
  · intro c hc
    have hdigit := Nat.isDigit_of_mem_toDigits (by decide) (by decide) hc
    refine decide_eq_true fun hnewline => ?_
    rw [hnewline] at hdigit
    exact absurd hdigit (by decide)

/-- Only no lines are counted as `0`. -/
theorem toDigits_eq_zero_iff {n : ℕ} : Nat.toDigits 10 n = ['0'] ↔ n = 0 := by
  refine ⟨fun h => ?_, fun h => h ▸ Nat.toDigits_zero 10⟩
  rw [← Nat.ofDigitChars_ten_toDigits (n := n), h]
  rfl

/-- Some entry of the top directory, of whatever kind, is not hidden and has a name in which one
character is followed by the extension without its dot. -/
def TopMatch (ext : Text) (tree : List Entry) : Prop :=
  ∃ e ∈ tree, e.name.text.head? ≠ some '.' ∧ ∃ c, c :: ext.tail <:+: e.name.text

/-- Without dots an expression matches itself. -/
theorem matchesHere_iff_startsWith {pattern s : Text} (h : '.' ∉ pattern) :
    matchesHere pattern s = true ↔ pattern <+: s := by
  induction pattern generalizing s with
  | nil => simp [matchesHere]
  | cons p pattern ih =>
    rw [List.mem_cons, not_or] at h
    cases s with
    | nil => simp [matchesHere]
    | cons c s => simp [matchesHere, List.cons_prefix_cons, ih h.2, Ne.symm h.1]

/-- A dot in front matches any character. -/
theorem any_matchesHere_iff {rest line : Text} (h : '.' ∉ rest) :
    line.tails.any (matchesHere ('.' :: rest)) = true ↔ ∃ c, c :: rest <:+: line := by
  rw [List.any_eq_true]
  constructor
  · rintro ⟨t, ht, hmatch⟩
    cases t with
    | nil => simp [matchesHere] at hmatch
    | cons c t =>
      have hrest : rest <+: t := by
        rw [← matchesHere_iff_startsWith h]
        simpa [matchesHere] using hmatch
      refine ⟨c, ?_⟩
      have hback := (List.mem_tails _ _).mp ht
      exact (List.cons_prefix_cons.mpr ⟨rfl, hrest⟩).isInfix.trans hback.isInfix
  · rintro ⟨c, hocc⟩
    obtain ⟨t, hfront, hback⟩ := List.infix_iff_prefix_suffix.mp hocc
    refine ⟨t, (List.mem_tails _ _).mpr hback, ?_⟩
    obtain ⟨t, rfl⟩ := hfront
    have hrest := (matchesHere_iff_startsWith h).mpr (List.prefix_append rest t)
    simpa [matchesHere] using hrest

/-- **What is counted.** -/
theorem grep_ls_ne_nil_iff (hdot : ext = '.' :: ext.tail) (h : '.' ∉ ext.tail)
    (tree : List Entry) : grep ext (ls tree) ≠ [] ↔ TopMatch ext tree := by
  rw [grep, Ne, List.filter_eq_nil_iff, TopMatch, hdot, List.tail_cons]
  simp only [any_matchesHere_iff h, ls, List.mem_filter, List.mem_map, not_forall, not_not]
  constructor
  · rintro ⟨line, ⟨⟨e, he, rfl⟩, hhidden⟩, hmatch⟩
    exact ⟨e, he, of_decide_eq_true hhidden, hmatch⟩
  · rintro ⟨e, he, hhidden, hmatch⟩
    exact ⟨_, ⟨⟨e, he, rfl⟩, decide_eq_true hhidden⟩, hmatch⟩

end Infotainment
