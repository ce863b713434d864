import Infotainment.FileTree
import Infotainment.ScanRoundTrip
import Infotainment.Transitions

/-!
# The emptiness test

Before a list is filled, `ls | grep | wc -l` decides whether there is anything to list; what is
listed then comes from `find`.  On a stick the two agree exactly when an entry at the top looks like
a file with the extension if and only if there is such a file anywhere in the tree
(`emptiness_test_iff`).  They part over a file in a directory, a hidden file, a directory with a
fitting name, and a name with the extension in the middle.

The second half of the condition is that the list can be filled at all: the scan of the listing has
to end, as it does for every listing below 2 GiB (`scanEnds_listing`).
-/

namespace Infotainment

open EventSystem

variable {W : Type} {qt : Qt} {ext : Text}

/-! ## The machine -/

/-- What `find` prints, as the program reads it. -/
def listing (ext path : Text) (tree : List Entry) : Text :=
  (printLines (findAll ext path tree)).filter (· ≠ '\n')

/-- Both pipelines look at this tree. -/
structure PrintsTree (sh : Shell W) (path : Text) (tree : List Entry) : Prop where
  counts : ∀ ext ∈ [songsExt, videosExt],
    sh.popen (.countFiles path ext) = some (wcLines (grep ext (ls tree)))
  finds : ∀ ext ∈ [songsExt, videosExt],
    sh.popen (.findFiles path ext) = some (printLines (findAll ext path tree))

/-- The test says that there is nothing exactly if no entry of the top directory matches. -/
theorem PrintsTree.count_eq_zeroCount_iff {sh : Shell W} {path : Text} {tree : List Entry}
    (h : PrintsTree sh path tree) (hext : ext ∈ [songsExt, videosExt]) :
    getStdoutFromCommand sh (.countFiles path ext) = zeroCount ↔ ¬ TopMatch ext tree := by
  have hdot : ext = '.' :: ext.tail ∧ '.' ∉ ext.tail := by
    rcases List.mem_pair.mp hext with rfl | rfl <;> exact ⟨rfl, by decide⟩
  rw [getStdoutFromCommand_some (h.counts ext hext), wcLines_filter_newline,
    show zeroCount = ['0'] from rfl, toDigits_eq_zero_iff, List.length_eq_zero_iff,
    ← grep_ls_ne_nil_iff hdot.1 hdot.2, not_not]

theorem PrintsTree.list_eq {sh : Shell W} {path : Text} {tree : List Entry}
    (h : PrintsTree sh path tree) (hext : ext ∈ [songsExt, videosExt]) :
    getStdoutFromCommand sh (.findFiles path ext) = listing ext path tree :=
  getStdoutFromCommand_some (h.finds ext hext)

theorem newline_not_mem_ext (hext : ext ∈ [songsExt, videosExt]) : '\n' ∉ ext ∧ ext ≠ [] := by
  rcases List.mem_pair.mp hext with rfl | rfl <;> decide

/-- The listing of a directory with files ends in the extension. -/
theorem ext_suffix_listing {path : Text} {tree : List Entry} (hext : ext ∈ [songsExt, videosExt])
    (h : HasFile ext tree) : ext <:+ listing ext path tree := by
  obtain ⟨paths, p, hpaths⟩ :=
    (List.eq_nil_or_concat' (findAll ext path tree)).resolve_left (h.findAll_ne_nil path)
  have hp : p ∈ findAll ext path tree := by
    rw [hpaths]
    exact List.mem_append_right _ (List.mem_singleton_self p)
  obtain ⟨stem, rfl⟩ := (hasFile_of_mem_findAll hp).2
  refine ⟨(printLines paths).filter (· ≠ '\n') ++ stem.filter (· ≠ '\n'), ?_⟩
  simp only [listing, hpaths, printLines, List.flatMap_append, List.flatMap_singleton,
    List.filter_append, filter_newline_eq_self (newline_not_mem_ext hext).1, List.append_assoc]
  simp

/-- Below 2 GiB the scan of such a listing ends. -/
theorem scanEnds_listing {path : Text} {tree : List Entry} (hext : ext ∈ [songsExt, videosExt])
    (h : HasFile ext tree) (hlen : (listing ext path tree).length < 2 ^ 31) :
    ScanEnds ext (listing ext path tree) :=
  Or.inr (Or.inl ⟨hlen, ext_suffix_listing hext h⟩)

/-! ## What an update shows -/

namespace MediaShelf

variable (m : MediaShelf)

/-- The group for no files is shown and the list is hidden exactly if there are no files, and
otherwise the list is shown. -/
def Tells (files : List Text) : Prop :=
  (m.zeroGroupShown = true ∧ m.listShown = false ↔ files = []) ∧ (files ≠ [] → m.listShown = true)

/-- What the list and the group show. -/
def shown : Bool × Bool := (m.listShown, m.zeroGroupShown)

@[simp] theorem addFiles_shown (paths : List Text) : (m.addFiles paths).shown = m.shown := by
  induction paths generalizing m with
  | nil => rfl
  | cons path paths ih => rw [addFiles_cons, ih]; rfl

@[simp] theorem setPlaylist_shown (qt : Qt) : (m.setPlaylist qt).shown = m.shown := by
  rw [setPlaylist]; split_ifs <;> rfl

variable {m} {m' : MediaShelf} {mode : PlaybackMode} {path count list : Text}

/-- The count alone decides. -/
theorem update_tells_iff {files : List Text}
    (h : m.update qt ext mode .flashDetected path count list = some m') :
    m'.Tells files ↔ (count = zeroCount ↔ files = []) := by
  have hshown : m'.shown = if count = zeroCount then (false, true) else (true, false) := by
    rcases update_cases h with ⟨hflash, -⟩ | ⟨hflash, -⟩ | ⟨-, hcount, rfl⟩ |
      ⟨-, hcount, paths, -, rfl⟩
    · exact absurd hflash (by decide)
    · exact absurd hflash (by decide)
    · rw [if_pos hcount]
      rfl
    · rw [if_neg hcount]
      exact (setPlaylist_shown _ qt).trans (addFiles_shown _ _)
  have hlist : m'.listShown = (if count = zeroCount then (false, true) else (true, false)).1 :=
    congrArg Prod.fst hshown
  have hzero : m'.zeroGroupShown = (if count = zeroCount then (false, true) else (true, false)).2 :=
    congrArg Prod.snd hshown
  rw [Tells, hlist, hzero]
  by_cases hcount : count = zeroCount <;> simp [hcount]

end MediaShelf

/-! ## The two slots -/

/-- Both pipelines say the same of a tree, and if they say that there is something, the listing can
be scanned. -/
structure TestsAgree (ext path : Text) (tree : List Entry) : Prop where
  same : TopMatch ext tree ↔ HasFile ext tree
  ends : TopMatch ext tree → ScanEnds ext (listing ext path tree)

/-- The shelf is updated and tells the truth exactly if the pipelines agree. -/
theorem MediaShelf.exists_update_tells_iff {sh : Shell W} {path : Text} {tree : List Entry}
    (h : PrintsTree sh path tree) (hext : ext ∈ [songsExt, videosExt]) (m : MediaShelf)
    (mode : PlaybackMode) :
    (∃ m', m.update qt ext mode .flashDetected path
        (getStdoutFromCommand sh (.countFiles path ext))
        (getStdoutFromCommand sh (.findFiles path ext)) = some m' ∧
      m'.Tells (findAll ext path tree)) ↔ TestsAgree ext path tree := by
  have hisext : IsExtension ext := by
    rcases List.mem_pair.mp hext with rfl | rfl
    · exact isExtension_songsExt
    · exact isExtension_videosExt
  have hcount := h.count_eq_zeroCount_iff hext
  have hfiles : findAll ext path tree = [] ↔ ¬ HasFile ext tree := by
    rw [← not_iff_not, not_not]
    exact findAll_ne_nil_iff
  constructor
  · rintro ⟨m', hm', htells⟩
    have hends := (exists_update_iff hisext).mp ⟨m', hm'⟩
    rw [update_tells_iff hm', hcount, hfiles, not_iff_not] at htells
    refine ⟨htells, fun htop => ?_⟩
    rw [← h.list_eq hext]
    exact hends fun hzero => hcount.mp hzero htop
  · rintro ⟨hsame, hends⟩
    have hscan : getStdoutFromCommand sh (.countFiles path ext) ≠ zeroCount →
        ScanEnds ext (getStdoutFromCommand sh (.findFiles path ext)) := by
      rw [Ne, hcount, not_not, h.list_eq hext]
      exact hends
    obtain ⟨m', hm'⟩ := (exists_update_iff hisext).mpr hscan
    refine ⟨m', hm', ?_⟩
    rw [update_tells_iff hm', hcount, hfiles, not_iff_not]
    exact hsame

namespace State

variable {s : State} {sh : Shell W} {tree : List Entry}

theorem updateVideosList_tells_iff (hflash : s.flashStatus = .flashDetected)
    (h : PrintsTree sh s.usbPath tree) :
    (∃ s', s.updateVideosList qt sh = .ok s' ∧
        s'.videos.Tells (findAll videosExt s.usbPath tree)) ↔
      TestsAgree videosExt s.usbPath tree := by
  have hshelf : (∃ m, s.videosUpdate qt sh = some m ∧
      m.Tells (findAll videosExt s.usbPath tree)) ↔ TestsAgree videosExt s.usbPath tree := by
    unfold videosUpdate
    rw [hflash]
    exact MediaShelf.exists_update_tells_iff h (by simp) s.videos .currentItemOnce
  rw [← hshelf, updateVideosList]
  cases s.videosUpdate qt sh with
  | none => simp
  | some m => simp

/-- If the pipelines agree, the song list moves on to a song that has a row. -/
theorem exists_updateSongsList (hflash : s.flashStatus = .flashDetected)
    (h : PrintsTree sh s.usbPath tree) (hagree : TestsAgree songsExt s.usbPath tree)
    {m : MediaShelf} (hm : s.songsUpdate qt sh = some m) :
    ∃ s', s.moveSongs (fun _ => m) = .ok s' := by
  refine exists_moveSongs_of_not_missesRow fun hmiss => ?_
  simp only [songsUpdate, MediaShelf.updateList, hflash, h.list_eq (show songsExt ∈ _ by simp)]
    at hm
  obtain ⟨hcount, hnil, -⟩ := (MediaShelf.update_missesRow_iff hm).mp hmiss
  have htop : TopMatch songsExt tree := by
    rwa [Ne, h.count_eq_zeroCount_iff (by simp), not_not] at hcount
  have hback : songsExt <:+ listing songsExt s.usbPath tree :=
    ext_suffix_listing (by simp) (hagree.same.mp htop)
  rw [hnil] at hback
  exact absurd (List.suffix_nil.mp hback) (by decide)

theorem updateSongsList_tells_iff (hflash : s.flashStatus = .flashDetected)
    (h : PrintsTree sh s.usbPath tree) :
    (∃ s', s.updateSongsList qt sh = .ok s' ∧
        s'.songs.Tells (findAll songsExt s.usbPath tree)) ↔
      TestsAgree songsExt s.usbPath tree := by
  have hshelf : (∃ m, s.songsUpdate qt sh = some m ∧
      m.Tells (findAll songsExt s.usbPath tree)) ↔ TestsAgree songsExt s.usbPath tree := by
    unfold songsUpdate
    rw [hflash]
    exact MediaShelf.exists_update_tells_iff h (by simp) s.songs .sequential
  constructor
  · rintro ⟨s', hs', htells⟩
    rw [updateSongsList] at hs'
    cases hm : s.songsUpdate qt sh with
    | none => simp [hm] at hs'
    | some m =>
      rw [hm] at hs'
      obtain ⟨text, -, rfl⟩ := moveSongs_ok hs'
      exact hshelf.mp ⟨m, hm, htells⟩
  · intro hagree
    obtain ⟨m, hm, htells⟩ := hshelf.mpr hagree
    obtain ⟨s', hs'⟩ := exists_updateSongsList hflash h hagree hm
    refine ⟨s', by rw [updateSongsList, hm]; exact hs', ?_⟩
    obtain ⟨text, -, rfl⟩ := moveSongs_ok hs'
    exact htells

end State

/-- **When the emptiness test agrees with the listing.**  For every state with a detected stick and
every tree on it, each slot ends and shows what `find` finds exactly if its two pipelines agree. -/
theorem emptiness_test_iff {s : State} {sh : Shell W} {tree : List Entry}
    (hflash : s.flashStatus = .flashDetected) (h : PrintsTree sh s.usbPath tree) :
    ((∃ s', s.updateSongsList qt sh = .ok s' ∧
        s'.songs.Tells (findAll songsExt s.usbPath tree)) ↔
      TestsAgree songsExt s.usbPath tree) ∧
    ((∃ s', s.updateVideosList qt sh = .ok s' ∧
        s'.videos.Tells (findAll videosExt s.usbPath tree)) ↔
      TestsAgree videosExt s.usbPath tree) :=
  ⟨State.updateSongsList_tells_iff hflash h, State.updateVideosList_tells_iff hflash h⟩

/-! ## Two sticks -/

/-- A machine with this tree. -/
def treeShell (tree : List Entry) : Shell Unit where
  popen
    | .countFiles _ ext => some (wcLines (grep ext (ls tree)))
    | .findFiles path ext => some (printLines (findAll ext path tree))
    | _ => some []
  system _ w := (0, w)

theorem printsTree_treeShell (path : Text) (tree : List Entry) :
    PrintsTree (treeShell tree) path tree :=
  ⟨fun _ _ => rfl, fun _ _ => rfl⟩

/-- The file `a.mp3`. -/
def aSong : Entry := .file ⟨"a.mp3".toList, by decide, by decide, by decide⟩

/-- A directory `music` with that file. -/
def musicDir : Entry := .dir ⟨"music".toList, by decide, by decide, by decide⟩ [aSong]

/-- A song at the top is counted and listed. -/
theorem song_at_the_top_listed :
    ∃ s', (startup.withUsb "sda1".toList).updateSongsList ⟨false⟩ (treeShell [aSong]) = .ok s' ∧
      s'.songs.Tells ["/media/sda1/a.mp3".toList] := by
  have hagree : TestsAgree songsExt "/media/sda1/".toList [aSong] := by
    have hfile : HasFile songsExt [aSong] := .file (List.mem_singleton_self _) (by decide)
    have htop : TopMatch songsExt [aSong] :=
      ⟨aSong, List.mem_singleton_self _, by decide, '.', by decide⟩
    exact ⟨iff_of_true htop hfile, fun _ => scanEnds_listing (by simp) hfile (by decide)⟩
  exact (emptiness_test_iff (s := startup.withUsb "sda1".toList) rfl
    (printsTree_treeShell _ _)).1.mpr hagree

/-- A song in a directory is found and not counted. -/
theorem song_in_directory_not_listed :
    ¬ ∀ (qt : Qt) (s : State) (sh : Shell Unit) (tree : List Entry),
      s.flashStatus = .flashDetected → PrintsTree sh s.usbPath tree →
        ∃ s', s.updateSongsList qt sh = .ok s' ∧
          s'.songs.Tells (findAll songsExt s.usbPath tree) := by
  intro hall
  have htells := hall ⟨false⟩ (startup.withUsb "sda1".toList) (treeShell [musicDir]) [musicDir] rfl
    (printsTree_treeShell _ _)
  have hagree := (State.updateSongsList_tells_iff rfl (printsTree_treeShell _ _)).mp htells
  have hfile : HasFile songsExt [musicDir] :=
    .dir (List.mem_singleton_self _) (.file (List.mem_singleton_self _) (by decide))
  obtain ⟨e, he, -, c, hocc⟩ := hagree.same.mpr hfile
  rw [List.mem_singleton.mp he] at hocc
  exact absurd ((List.suffix_cons c _).isInfix.trans hocc) (by decide)

end Infotainment
