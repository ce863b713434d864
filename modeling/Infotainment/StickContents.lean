import Infotainment.CleanMachine
import Infotainment.EmptinessTest

/-!
# From the files on a stick to the lists on the screen

Between a stick and the screen there are a count, a listing, a pipe that swallows the newlines, and
a scan that looks for the ends of the paths.  This file says which sticks come through all of them,
in terms of what is on the stick.

A file is at a *place*: the directories down to it and its name (`FileAt`).  `find` prints the paths
of the files at all places (`mem_findAll_iff`), the rows are their names (`map_baseName_findAll`),
and since an extension contains no slash it occurs in a path only where it occurs in a name
(`onlyAtEnd_pathTo_iff`).  What this asks of a stick is `Presentable`.

On a machine that is left as it was found this holds at all times: while a stick is in, whatever is
clicked or played, each list is the files on the stick exactly if it can be
(`lists_show_stick`).
-/

namespace Infotainment

open EventSystem Occurrence

/-! ## Where the files are -/

variable {ext : Text}

/-- A regular file with the extension, below these directories and with this name. -/
inductive FileAt (ext : Text) : List FileName → FileName → List Entry → Prop where
  | top {name : FileName} {tree : List Entry} :
      .file name ∈ tree → ext <:+ name.text → FileAt ext [] name tree
  | inside {d name : FileName} {dirs : List FileName} {entries tree : List Entry} :
      .dir d entries ∈ tree → FileAt ext dirs name entries → FileAt ext (d :: dirs) name tree

/-- The path of a file, from a directory that is given without the slash. -/
def pathTo (dir : Text) : List FileName → FileName → Text
  | [], name => dir ++ '/' :: name.text
  | d :: dirs, name => pathTo (dir ++ '/' :: d.text) dirs name

theorem FileAt.mono {dirs : List FileName} {name : FileName} {tree tree' : List Entry}
    (h : FileAt ext dirs name tree) (hsub : tree ⊆ tree') : FileAt ext dirs name tree' := by
  cases h with
  | top hmem hext => exact .top (hsub hmem) hext
  | inside hmem hfile => exact .inside (hsub hmem) hfile

theorem HasFile.exists_fileAt {tree : List Entry} (h : HasFile ext tree) :
    ∃ dirs name, FileAt ext dirs name tree := by
  induction h with
  | file hmem hext => exact ⟨[], _, .top hmem hext⟩
  | dir hmem _ ih =>
    obtain ⟨dirs, name, hplace⟩ := ih
    exact ⟨_ :: dirs, name, .inside hmem hplace⟩

/-- What `find` prints of a directory below `dir`, where it goes on with the path so far. -/
theorem find_dir (dir : Text) (d : FileName) (entries : List Entry) :
    (Entry.dir d entries).find ext (dir ++ ['/']) =
      findAll ext (dir ++ '/' :: d.text ++ ['/']) entries := by
  rw [Entry.find]
  simp

theorem FileAt.mem_findAll {dirs : List FileName} {name : FileName} {tree : List Entry}
    (h : FileAt ext dirs name tree) (dir : Text) :
    pathTo dir dirs name ∈ findAll ext (dir ++ ['/']) tree := by
  induction h generalizing dir with
  | @top name tree hmem hext =>
    refine find_subset_findAll hmem ?_
    rw [Entry.find, if_pos hext]
    simp [pathTo]
  | @inside d name dirs entries tree hmem _ ih =>
    refine find_subset_findAll hmem ?_
    rw [find_dir]
    exact ih _

mutual

theorem Entry.fileAt_of_mem_find {dir p : Text} :
    ∀ {e : Entry}, p ∈ e.find ext (dir ++ ['/']) →
      ∃ dirs name, FileAt ext dirs name [e] ∧ p = pathTo dir dirs name
  | .file name, h => by
    rw [Entry.find] at h
    split_ifs at h with hext
    · refine ⟨[], name, .top (List.mem_singleton_self _) hext, ?_⟩
      rw [List.mem_singleton.mp h]
      simp [pathTo]
    · exact absurd h List.not_mem_nil
  | .dir d entries, h => by
    rw [find_dir] at h
    obtain ⟨dirs, name, hfile, hp⟩ := fileAt_of_mem_findAll h
    exact ⟨d :: dirs, name, .inside (List.mem_singleton_self _) hfile, hp⟩
  | .other _, h => by
    rw [Entry.find] at h
    exact absurd h List.not_mem_nil

theorem fileAt_of_mem_findAll {dir p : Text} :
    ∀ {tree : List Entry}, p ∈ findAll ext (dir ++ ['/']) tree →
      ∃ dirs name, FileAt ext dirs name tree ∧ p = pathTo dir dirs name
  | [], h => by
    rw [findAll] at h
    exact absurd h List.not_mem_nil
  | e :: tree, h => by
    rw [findAll] at h
    rcases List.mem_append.mp h with h | h
    · obtain ⟨dirs, name, hfile, hp⟩ := Entry.fileAt_of_mem_find h
      exact ⟨dirs, name, hfile.mono (by simp), hp⟩
    · obtain ⟨dirs, name, hfile, hp⟩ := fileAt_of_mem_findAll h
      exact ⟨dirs, name, hfile.mono (List.subset_cons_self _ _), hp⟩

end

/-- **`find` prints the paths of all the files and no others.** -/
theorem mem_findAll_iff {dir p : Text} {tree : List Entry} :
    p ∈ findAll ext (dir ++ ['/']) tree ↔
      ∃ dirs name, FileAt ext dirs name tree ∧ p = pathTo dir dirs name := by
  constructor
  · exact fileAt_of_mem_findAll
  · rintro ⟨dirs, name, hfile, rfl⟩
    exact hfile.mem_findAll dir

/-! ## The names -/

mutual

/-- The names of the files with the extension, in the order of `find`. -/
def Entry.fileNames (ext : Text) : Entry → List Text
  | .file name => if ext <:+ name.text then [name.text] else []
  | .dir _ entries => fileNames ext entries
  | .other _ => []

def fileNames (ext : Text) : List Entry → List Text
  | [] => []
  | e :: es => e.fileNames ext ++ fileNames ext es

end

mutual

theorem Entry.map_baseName_find (dir : Text) :
    ∀ e : Entry, (e.find ext (dir ++ ['/'])).map baseName = e.fileNames ext
  | .file name => by
    rw [Entry.find, Entry.fileNames]
    split_ifs
    · rw [List.map_singleton, List.append_assoc, List.singleton_append,
        baseName_append_slash name.no_slash]
    · rfl
  | .dir d entries => by
    rw [find_dir, Entry.fileNames, map_baseName_findAll]
  | .other _ => by
    rw [Entry.find, Entry.fileNames, List.map_nil]

/-- **The rows are the names of the files.** -/
theorem map_baseName_findAll (dir : Text) :
    ∀ tree : List Entry, (findAll ext (dir ++ ['/']) tree).map baseName = fileNames ext tree
  | [] => by rw [findAll, fileNames, List.map_nil]
  | e :: tree => by
    rw [findAll, fileNames, List.map_append, Entry.map_baseName_find, map_baseName_findAll]

end

/-! ## The paths -/

theorem newline_mem_pathTo {dirs : List FileName} {name : FileName} {dir : Text}
    (h : '\n' ∈ pathTo dir dirs name) : '\n' ∈ dir := by
  induction dirs generalizing dir with
  | nil =>
    rw [pathTo] at h
    simpa [name.no_newline] using h
  | cons d dirs ih =>
    have hdir := ih h
    simpa [d.no_newline] using hdir

/-- The extension occurs only at the end of a path if it does not occur in front of the last slash,
and behind it only at the end. -/
theorem onlyAtEnd_append_slash_iff (hext : ext ≠ []) (hslash : '/' ∉ ext) {dir name : Text}
    (hname : name ≠ []) :
    OnlyAtEnd ext (dir ++ '/' :: name) ↔ ¬ ext <:+: dir ∧ OnlyAtEnd ext name := by
  have hpos := List.length_pos_of_ne_nil hname
  have hlen : (dir ++ '/' :: name).length = dir.length + (name.length + 1) := by simp
  have hback : ∀ p, OccursAt ext (dir ++ '/' :: name) (dir.length + (p + 1)) ↔
      OccursAt ext name p := by
    intro p
    rw [occursAt_append_left, OccursAt, List.drop_succ_cons, OccursAt]
  constructor
  · intro h
    refine ⟨fun hdir => ?_, fun p hp => ?_⟩
    · obtain ⟨p, hp⟩ := infix_iff_exists_occursAt.mp hdir
      have hle := hp.add_length_le hext
      have hend := h p ((occursAt_append_right hle).mpr hp)
      omega
    · have hend := h _ ((hback p).mpr hp)
      omega
  · rintro ⟨hdir, hend⟩ p hp
    rcases hp.of_separator hslash with hfront | hlt
    · exact absurd (infix_iff_exists_occursAt.mpr ⟨p, (occursAt_append_right hfront).mp hp⟩) hdir
    · obtain ⟨q, rfl⟩ := Nat.exists_eq_add_of_lt hlt
      have hq := hend q ((hback q).mp hp)
      omega

/-- **Where the extension occurs in a path.** -/
theorem onlyAtEnd_pathTo_iff (hext : ext ≠ []) (hslash : '/' ∉ ext) {dir : Text}
    {dirs : List FileName} {name : FileName} :
    OnlyAtEnd ext (pathTo dir dirs name) ↔
      ¬ ext <:+: dir ∧ (∀ d ∈ dirs, ¬ ext <:+: d.text) ∧ OnlyAtEnd ext name.text := by
  induction dirs generalizing dir with
  | nil =>
    rw [pathTo, onlyAtEnd_append_slash_iff hext hslash name.ne_nil]
    simp
  | cons d dirs ih =>
    rw [pathTo, ih, infix_separator_iff hslash, not_or, List.forall_mem_cons]
    tauto

/-! ## What comes through -/

/-- A stick with files whose list can be right: an entry at the top looks like one of them, neither
the device nor a directory on the way to one is named like the extension, no name contains it twice,
and the listing is not too long for an `int`. -/
structure Presentable (ext usbName : Text) (tree : List Entry) : Prop where
  counted : TopMatch ext tree
  device : usbName ≠ ext
  dirs : ∀ dirs name, FileAt ext dirs name tree → ∀ d ∈ dirs, ¬ ext <:+: d.text
  names : ∀ dirs name, FileAt ext dirs name tree → OnlyAtEnd ext name.text
  fits : FitsFrom 0 (findAll ext (usbPathOf usbName) tree)

theorem slash_not_mem_ext (hext : ext ∈ [songsExt, videosExt]) : '/' ∉ ext := by
  rcases List.mem_pair.mp hext with rfl | rfl <;> decide

theorem isExtension_of_mem (hext : ext ∈ [songsExt, videosExt]) : IsExtension ext := by
  rcases List.mem_pair.mp hext with rfl | rfl
  · exact isExtension_songsExt
  · exact isExtension_videosExt

/-- A device has a name of at most four characters, as many as an extension has. -/
theorem infix_mountPoint_iff (hext : ext ∈ [songsExt, videosExt]) {usbName : Text}
    (hlen : usbName.length ≤ devNameLen) : ext <:+: mountPoint usbName ↔ usbName = ext := by
  have hmedia : ¬ ext <:+: "/media".toList := by
    rcases List.mem_pair.mp hext with rfl | rfl <;> decide
  rw [show mountPoint usbName = "/media".toList ++ '/' :: usbName from rfl,
    infix_separator_iff (slash_not_mem_ext hext), or_iff_right hmedia]
  constructor
  · intro h
    rw [devNameLen, ← (isExtension_of_mem hext).length_eq] at hlen
    exact (h.eq_of_length_le hlen).symm
  · rintro rfl
    exact List.infix_rfl

variable {usbName : Text} {tree : List Entry}

/-- **Which listings can be told apart.** -/
theorem recoverable_findAll_iff (hext : ext ∈ [songsExt, videosExt])
    (hlen : usbName.length ≤ devNameLen) (hfile : HasFile ext tree) (hcounted : TopMatch ext tree) :
    Recoverable ext (findAll ext (usbPathOf usbName) tree) ↔ Presentable ext usbName tree := by
  have hpaths : (∀ path ∈ findAll ext (usbPathOf usbName) tree, OnlyAtEnd ext path) ↔
      ∀ dirs name, FileAt ext dirs name tree →
        usbName ≠ ext ∧ (∀ d ∈ dirs, ¬ ext <:+: d.text) ∧ OnlyAtEnd ext name.text := by
    simp only [← infix_mountPoint_iff hext hlen, ne_eq,
      ← onlyAtEnd_pathTo_iff (isExtension_of_mem hext).ne_nil (slash_not_mem_ext hext)]
    constructor
    · intro h dirs name hplace
      exact h _ (mem_findAll_iff.mpr ⟨dirs, name, hplace, rfl⟩)
    · intro h path hpath
      obtain ⟨dirs, name, hplace, rfl⟩ := mem_findAll_iff.mp hpath
      exact h dirs name hplace
  rw [Recoverable, hpaths]
  constructor
  · rintro ⟨h, hfits⟩
    obtain ⟨dirs, name, hplace⟩ := hfile.exists_fileAt
    exact ⟨hcounted, (h dirs name hplace).1, fun dirs name hplace => (h dirs name hplace).2.1,
      fun dirs name hplace => (h dirs name hplace).2.2, hfits⟩
  · intro h
    exact ⟨fun dirs name hplace => ⟨h.device, h.dirs dirs name hplace, h.names dirs name hplace⟩,
      h.fits⟩

theorem listing_eq_flatten (hline : '\n' ∉ usbName) :
    listing ext (usbPathOf usbName) tree = (findAll ext (usbPathOf usbName) tree).flatten := by
  refine filter_printLines fun path hpath hnewline => ?_
  obtain ⟨dirs, name, -, rfl⟩ := mem_findAll_iff.mp hpath
  rcases List.mem_append.mp (newline_mem_pathTo hnewline) with hmedia | hdev
  · exact absurd hmedia (by decide)
  · exact hline hdev

/-- **What a poll lists of a stick** is what is on it exactly if that is nothing or is
presentable. -/
theorem mediaOn_eq_findAll_iff {W : Type} {sh : Shell W}
    (h : PrintsTree sh (usbPathOf usbName) tree) (hext : ext ∈ [songsExt, videosExt])
    (hlen : usbName.length ≤ devNameLen) (hline : '\n' ∉ usbName) :
    mediaOn sh (usbPathOf usbName) ext = some (findAll ext (usbPathOf usbName) tree) ↔
      (HasFile ext tree → Presentable ext usbName tree) := by
  have hcount := h.count_eq_zeroCount_iff hext
  have hscan : (scan ext (getStdoutFromCommand sh (.findFiles (usbPathOf usbName) ext)) .new).map
        (·.playList.media) =
      scanPaths ext (findAll ext (usbPathOf usbName) tree).flatten
        ((findAll ext (usbPathOf usbName) tree).flatten.length + 1) 0 := by
    rw [h.list_eq hext, listing_eq_flatten hline, scan_eq, Option.map_map]
    have hfresh : (fun paths => (MediaShelf.new.addFiles paths).playList.media) = id :=
      funext fun paths => by simp [MediaShelf.new, QMediaPlaylist.new]
    exact (congrArg (Option.map · _) hfresh).trans Option.map_id'
  by_cases hfile : HasFile ext tree
  · rw [forall_prop_of_true hfile, mediaOn]
    by_cases hcounted : TopMatch ext tree
    · rw [if_neg (hcount.not.mpr (not_not.mpr hcounted)), hscan,
        ← recoverable_findAll_iff hext hlen hfile hcounted]
      exact scanPaths_flatten_eq_iff (isExtension_of_mem hext)
        fun path hpath => (hasFile_of_mem_findAll hpath).2
    · rw [if_pos (hcount.mpr hcounted)]
      refine iff_of_false (fun hnil => ?_) fun hpresentable => hcounted hpresentable.counted
      exact hfile.findAll_ne_nil _ (Option.some.inj hnil).symm
  · -- nothing is found, and nothing is scanned
    have hnil : findAll ext (usbPathOf usbName) tree = [] :=
      not_not.mp (findAll_ne_nil_iff.not.mpr hfile)
    refine iff_of_true ?_ fun hfile' => absurd hfile' hfile
    rw [mediaOn, hscan, hnil]
    split_ifs <;> rfl

/-! ## What is shown -/

/-- The list and its playlist are the files on the stick. -/
structure MediaShelf.Shows (ext usbName : Text) (tree : List Entry) (m : MediaShelf) : Prop where
  rows : m.rows = fileNames ext tree
  media : m.playList.media = findAll ext (usbPathOf usbName) tree

theorem MediaShelf.Parallel.shows_iff {m : MediaShelf} (h : m.Parallel) :
    m.Shows ext usbName tree ↔ m.playList.media = findAll ext (usbPathOf usbName) tree := by
  constructor
  · exact Shows.media
  · intro hmedia
    refine ⟨?_, hmedia⟩
    rw [parallel_iff.mp h, hmedia]
    exact map_baseName_findAll (mountPoint usbName) tree

/-- **The lists show the stick.**  On a clean machine, at any time of any run in which the program
knows of a stick, each list and its playlist are the files that were on the stick when it was
plugged in, if and only if there are none or they are presentable. -/
theorem lists_show_stick {qt : Qt} {w₀ : Disk} (hw₀ : w₀.Untouched)
    {l : List (Transition (State × Disk) (Event Disk))} {c : State × Disk}
    (h : (diskEvents qt w₀).History l c) (hopen : c.1.session = some usbName) :
    ∃ l₁ x l₂ sh, l = l₁ ++ x :: l₂ ∧ x.event = .poll sh ∧
      x.before.1.session = none ∧ (∀ y ∈ l₂, y.before.1.session = some usbName) ∧
      ∀ tree, PrintsTree sh (usbPathOf usbName) tree →
        (c.1.songs.Shows songsExt usbName tree ↔
          (HasFile songsExt tree → Presentable songsExt usbName tree)) ∧
        (c.1.videos.Shows videosExt usbName tree ↔
          (HasFile videosExt tree → Presentable videosExt usbName tree)) := by
  obtain ⟨l₁, x, l₂, sh, hl, he, hnone, hopened, hlisted⟩ := listedBy_of_history hw₀ h hopen
  obtain ⟨hsongs, hvideos⟩ := (asFound_of_history hw₀ h).parallel
  obtain rfl := hlisted.device
  have hlen := length_devicesConnected_le sh
  have hline := newline_not_mem_devicesConnected sh
  refine ⟨l₁, x, l₂, sh, hl, he, hnone, hopened, fun tree htree => ⟨?_, ?_⟩⟩
  · rw [hsongs.shows_iff, ← mediaOn_eq_findAll_iff htree (by simp) hlen hline, hlisted.songs,
      Option.some.injEq]
  · rw [hvideos.shows_iff, ← mediaOn_eq_findAll_iff htree (by simp) hlen hline, hlisted.videos,
      Option.some.injEq]

/-- A machine with a stick that contains this tree. -/
def treeDisk (dev : Text) (tree : List Entry) : Shell Disk where
  popen
    | .countFiles path ext => (treeShell tree).popen (.countFiles path ext)
    | .findFiles path ext => (treeShell tree).popen (.findFiles path ext)
    | cmd => (diskShell dev).popen cmd
  system := Disk.system

/-- A song at the top and one in a directory are both shown. -/
theorem both_songs_shown :
    ∃ l c, (diskEvents ⟨false⟩ ⟨[], [], []⟩).History l c ∧
      l.map Transition.event =
        [.poll (treeDisk "sda1".toList [aSong, musicDir]), .click .musicButton 0] ∧
      c.1.songs.Shows songsExt "sda1".toList [aSong, musicDir] := by
  obtain ⟨c, hc, hopen⟩ := Machine.exists_run_of_test (M := diskEvents ⟨false⟩ ⟨[], [], []⟩)
    [.poll (treeDisk "sda1".toList [aSong, musicDir]), .click .musicButton 0]
    (startup, ⟨[], [], []⟩)
    (fun c => decide (c.1.session = some "sda1".toList)) (by decide +kernel)
  obtain ⟨l, hl, hevents⟩ := exists_diskHistory (by simp [treeDisk]) hc
  refine ⟨l, c, hl, hevents, ?_⟩
  obtain ⟨l₁, x, l₂, sh, rfl, he, -, -, hshows⟩ :=
    lists_show_stick ⟨by decide, by decide⟩ hl (of_decide_eq_true hopen)
  -- there is only one poll
  have hpoll : Event.poll sh ∈ [.poll (treeDisk "sda1".toList [aSong, musicDir]),
      .click .musicButton 0] := by
    rw [← hevents, ← he]
    exact List.mem_map_of_mem (by simp)
  obtain rfl : sh = treeDisk "sda1".toList [aSong, musicDir] := by simpa using hpoll
  refine (hshows _ ⟨fun _ _ => rfl, fun _ _ => rfl⟩).1.mpr fun hfile => ?_
  have htop : TopMatch songsExt [aSong, musicDir] :=
    ⟨aSong, List.mem_cons_self, by decide, '.', by decide⟩
  refine (recoverable_findAll_iff (by simp) (by decide) hfile htop).mp ?_
  exact (scanPaths_flatten_eq_iff isExtension_songsExt
    fun path hpath => (hasFile_of_mem_findAll hpath).2).mp (by decide +kernel)

end Infotainment
