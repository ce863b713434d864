import Infotainment.CleanMachine

/-!
# Where the files in the lists come from

Every stick whose files are listed adds a *batch* to the playlist: what the scan made of the output
of `find`.  Nothing but a successful unmounting takes batches out again, and then it takes them
all, but only if the list on the screen has rows.  That list shows the batch that came last.

`lists_of_batches` says so for whole runs and both lists, whatever happens in between and whatever
the commands answer: a playlist is the batches since it was last cleared, one after the other, and
the rows are the names of the last one.  So row `i` names the entry `i` places behind the older
batches, and the lists are parallel exactly as long as there are no files in those.
-/

namespace Infotainment

open EventSystem MediaShelf

variable {W : Type} {qt : Qt}

/-! ## Batches -/

/-- What the scan makes of a text. -/
def scanned (ext list : Text) : List Text := (scanPaths ext list (list.length + 1) 0).getD []

/-- The batch the list shows. -/
def lastBatch (batches : List (List Text)) : List Text := batches.getLast?.getD []

/-- The files of the batches before that. -/
def olderFiles (batches : List (List Text)) : List Text := batches.dropLast.flatten

theorem flatten_eq (batches : List (List Text)) :
    batches.flatten = olderFiles batches ++ lastBatch batches := by
  cases hlast : batches.getLast? with
  | none =>
    rw [List.getLast?_eq_none_iff.mp hlast]
    rfl
  | some batch =>
    obtain ⟨front, rfl⟩ := List.getLast?_eq_some_iff.mp hlast
    rw [olderFiles, lastBatch, hlast, Option.getD_some, List.dropLast_concat, List.flatten_append,
      List.flatten_singleton]

/-- The batches after a poll. -/
def pollBatches (ext : Text) (sh : Shell W) (c : State × W) (batches : List (List Text)) :
    List (List Text) :=
  if FindsNewStick sh c.1 ∧ CountsFiles sh ext then
    batches ++ [scanned ext
      (getStdoutFromCommand sh (.findFiles (usbPathOf (devicesConnected sh)) ext))]
  else if DetachesStick sh c ∧ lastBatch batches ≠ [] then []
  else batches

/-- The batches of a run, for one of the extensions. -/
def batchesOf (ext : Text) (l : List (Transition (State × W) (Event W))) : List (List Text) :=
  l.foldl (fun batches x =>
    match x.event with
    | .poll sh => pollBatches ext sh x.before batches
    | _ => batches) []

/-- The shelf holds these batches. -/
structure HoldsBatches (ext : Text) (m : MediaShelf) (batches : List (List Text)) : Prop where
  media : m.playList.media = batches.flatten
  rows : m.rows = (lastBatch batches).map baseName
  ext_suffix : ∀ path ∈ m.playList.media, ext <:+ path

namespace HoldsBatches

variable {ext : Text} {m m' : MediaShelf} {batches : List (List Text)}

theorem of_sameFiles (h : HoldsBatches ext m batches) (hsame : SameFiles m m') :
    HoldsBatches ext m' batches where
  media := hsame.media.trans h.media
  rows := hsame.rows.trans h.rows
  ext_suffix := by
    rw [hsame.media]
    exact h.ext_suffix

/-- Listing a new stick. -/
theorem listed (h : HoldsBatches ext m batches) {usbPath count list : Text} {mode : PlaybackMode}
    (hm : m.update qt ext mode .flashDetected usbPath count list = some m') :
    HoldsBatches ext m' (if count ≠ zeroCount then batches ++ [scanned ext list] else batches) := by
  rcases update_cases hm with ⟨hflash, -⟩ | ⟨hflash, -⟩ | ⟨-, hzero, rfl⟩ |
    ⟨-, hcount, paths, hpaths, rfl⟩
  · exact nomatch hflash
  · exact nomatch hflash
  · rw [if_neg (not_not.mpr hzero)]
    exact ⟨h.media, h.rows, h.ext_suffix⟩
  · have hscanned : scanned ext list = paths := by rw [scanned, hpaths, Option.getD_some]
    rw [if_pos hcount, hscanned]
    refine ⟨?_, ?_, ?_⟩
    · rw [filled_media, h.media, List.flatten_append, List.flatten_singleton]
    · rw [filled_rows, lastBatch, List.getLast?_concat, Option.getD_some]
      exact List.map_congr_left fun path _ => fileName_eq_baseName path
    · rw [filled_media]
      intro path hpath
      rcases List.mem_append.mp hpath with hpath | hpath
      · exact h.ext_suffix path hpath
      · exact ext_suffix_of_mem_scanPaths hpaths path hpath

/-- Clearing the list of a stick that is gone. -/
theorem cleared (h : HoldsBatches ext m batches) {usbPath count list : Text} {mode : PlaybackMode}
    (hm : m.update qt ext mode .noFlashDetected usbPath count list = some m') :
    HoldsBatches ext m' (if lastBatch batches ≠ [] then [] else batches) := by
  have hrows : m.rows = [] ↔ lastBatch batches = [] := by rw [h.rows, List.map_eq_nil_iff]
  rcases update_cases hm with ⟨-, hne, rfl⟩ | ⟨-, hnil, rfl⟩ | ⟨hflash, -⟩ | ⟨hflash, -⟩
  · rw [if_pos fun hlast => hne (hrows.mpr hlast)]
    exact ⟨rfl, rfl, fun path hpath => absurd hpath List.not_mem_nil⟩
  · rw [if_neg (not_not.mpr (hrows.mp hnil))]
    exact ⟨h.media, h.rows, h.ext_suffix⟩
  · exact nomatch hflash
  · exact nomatch hflash

/-- Row `i` names the entry that comes `i` places behind the older batches. -/
theorem rows_eq (h : HoldsBatches ext m batches) :
    m.rows = (m.playList.media.drop (olderFiles batches).length).map baseName := by
  rw [h.rows, h.media, flatten_eq, List.drop_left]

theorem length_le (h : HoldsBatches ext m batches) :
    (olderFiles batches).length ≤ m.playList.media.length := by
  rw [h.media, flatten_eq, List.length_append]
  exact Nat.le_add_right _ _

theorem parallel_iff (h : HoldsBatches ext m batches) :
    m.Parallel ↔ olderFiles batches = [] := by
  rw [MediaShelf.parallel_iff, h.rows_eq]
  constructor
  · intro hrows
    have hlen := congrArg List.length hrows
    have hle := h.length_le
    rw [List.length_map, List.length_map, List.length_drop] at hlen
    rw [← List.length_eq_zero_iff]
    rcases Nat.eq_zero_or_pos (olderFiles batches).length with hzero | hpos
    · exact hzero
    · omega
  · intro hnil
    rw [hnil, List.length_nil, List.drop_zero]

end HoldsBatches

/-! ## Runs -/

theorem HoldsBatches.poll {ext : Text} {m m' : MediaShelf} {batches : List (List Text)}
    (h : HoldsBatches ext m batches) {sh : Shell W} {c : State × W} {mode : PlaybackMode}
    (hpoll : ShelfPoll qt sh c ext mode m m') :
    HoldsBatches ext m' (pollBatches ext sh c batches) := by
  cases hpoll with
  | listed _ hnew hm =>
    have hbatches : pollBatches ext sh c batches =
        if getStdoutFromCommand sh (.countFiles (usbPathOf (devicesConnected sh)) ext) ≠ zeroCount
        then batches ++ [scanned ext
          (getStdoutFromCommand sh (.findFiles (usbPathOf (devicesConnected sh)) ext))]
        else batches := by
      simp only [pollBatches, hnew, not_detachesStick_of_findsNewStick hnew, true_and, false_and,
        if_false]
      rfl
    rw [hbatches]
    exact h.listed hm
  | cleared _ hgone hm =>
    have hbatches : pollBatches ext sh c batches =
        if lastBatch batches ≠ [] then [] else batches := by
      have hnew : ¬ FindsNewStick sh c.1 := fun hnew =>
        not_detachesStick_of_findsNewStick hnew hgone
      simp only [pollBatches, hnew, hgone, true_and, false_and, if_false]
    rw [hbatches]
    exact h.cleared hm
  | unmoved hnew hgone =>
    rw [pollBatches, if_neg fun h => hnew h.1, if_neg fun h => hgone h.1]
    exact h

theorem batchesOf_concat (ext : Text) (l : List (Transition (State × W) (Event W)))
    (x : Transition (State × W) (Event W)) : batchesOf ext (l ++ [x]) =
      match x.event with
      | .poll sh => pollBatches ext sh x.before (batchesOf ext l)
      | _ => batchesOf ext l := by
  rw [batchesOf, List.foldl_append]
  rfl

theorem holdsBatches_of_history {l : List (Transition (State × W) (Event W))} {c : State × W}
    (h : (anyEvents qt W).History l c) :
    HoldsBatches songsExt c.1.songs (batchesOf songsExt l) ∧
      HoldsBatches videosExt c.1.videos (batchesOf videosExt l) := by
  induction h with
  | @start c hc =>
    rw [show c.1 = startup from hc]
    exact ⟨⟨rfl, rfl, by simp [startup, new, QMediaPlaylist.new]⟩,
      ⟨rfl, rfl, by simp [startup, new, QMediaPlaylist.new]⟩⟩
  | @tail l x _ hx ih =>
    rw [batchesOf_concat, batchesOf_concat]
    rcases step_cases hx.2 with ⟨sh, he, houtcome⟩ | ⟨he, hui, -⟩
    · rw [he]
      obtain ⟨hsongs, hvideos⟩ := houtcome.shelfPolls
      exact ⟨ih.1.poll hsongs, ih.2.poll hvideos⟩
    · have heffect := uiStep_effect _ hui
      have hsame := And.intro (ih.1.of_sameFiles heffect.songs.sameFiles)
        (ih.2.of_sameFiles heffect.videos.sameFiles)
      cases hevent : x.event with
      | poll sh => exact absurd hevent (he sh)
      | _ => exact hsame

/-- **What is in the lists.**  After every run both playlists are what was listed since they were
last cleared, and the rows are the names of what was listed last.  The lists are parallel exactly
if nothing was listed before that. -/
theorem lists_of_batches {l : List (Transition (State × W) (Event W))} {c : State × W}
    (h : (anyEvents qt W).History l c) :
    HoldsBatches songsExt c.1.songs (batchesOf songsExt l) ∧
      HoldsBatches videosExt c.1.videos (batchesOf videosExt l) ∧
      (c.1.songs.Parallel ↔ olderFiles (batchesOf songsExt l) = []) ∧
      (c.1.videos.Parallel ↔ olderFiles (batchesOf videosExt l) = []) := by
  obtain ⟨hsongs, hvideos⟩ := holdsBatches_of_history h
  exact ⟨hsongs, hvideos, hsongs.parallel_iff, hvideos.parallel_iff⟩

/-- A stick that could not be unmounted, and another one. -/
theorem batches_of_two_sticks :
    ∃ l c, (anyEvents ⟨false⟩ Unit).History l c ∧
      batchesOf songsExt l = [["/media/sda1/a.mp3".toList], ["/media/sdb1/b.mp3".toList]] ∧
      HoldsBatches songsExt c.1.songs (batchesOf songsExt l) ∧
      HoldsBatches videosExt c.1.videos (batchesOf videosExt l) ∧
      (c.1.songs.Parallel ↔ olderFiles (batchesOf songsExt l) = []) ∧
      (c.1.videos.Parallel ↔ olderFiles (batchesOf videosExt l) = []) := by
  obtain ⟨l, c, hl, -, hp⟩ := Machine.exists_history_of_replay (M := anyEvents ⟨false⟩ Unit)
    (s := (startup, ())) rfl
    [.poll (stickShell "sda1".toList ["a.mp3".toList] [] 0), .poll (stickShell [] [] [] 1),
      .poll (stickShell "sdb1".toList ["b.mp3".toList] [] 0)]
    (fun l _ => decide (batchesOf songsExt l =
      [["/media/sda1/a.mp3".toList], ["/media/sdb1/b.mp3".toList]])) (by decide +kernel)
  exact ⟨l, c, hl, of_decide_eq_true hp, lists_of_batches hl⟩

/-! ## A machine that does its part -/

/-- A stick that is gone is unmounted and its directory removed; and where files are counted, some
are found. -/
def DoesItsPart (c : State × W) (e : Event W) : Prop :=
  e.OnPoll fun sh =>
    (FindsStickGone sh c.1 → DetachesStick sh c) ∧
      (FindsNewStick sh c.1 → ∀ ext ∈ [songsExt, videosExt], CountsFiles sh ext →
        scanned ext
          (getStdoutFromCommand sh (.findFiles (usbPathOf (devicesConnected sh)) ext)) ≠ [])

instance (c : State × W) (e : Event W) : Decidable (DoesItsPart c e) :=
  inferInstanceAs (Decidable (e.OnPoll _))

/-- At most the batch of the present stick. -/
def OneBatch (s : State) (batches : List (List Text)) : Prop :=
  batches = [] ∨ s.flashStatus = .flashDetected ∧ ∃ batch ≠ [], batches = [batch]

theorem OneBatch.poll {sh : Shell W} {s : State} {w : W} {c : State × W}
    (h : PollOutcome qt sh s w c) (hpart : DoesItsPart (s, w) (.poll sh)) {ext : Text}
    (hext : ext ∈ [songsExt, videosExt]) {batches : List (List Text)} (hs : OneBatch s batches) :
    OneBatch c.1 (pollBatches ext sh (s, w) batches) := by
  obtain ⟨hdetached, hfound⟩ := hpart
  have hnone : s.flashStatus = .noFlashDetected → batches = [] := fun hflash => by
    rcases hs with hnil | ⟨hdetected, -⟩
    · exact hnil
    · rw [hflash] at hdetected
      exact absurd hdetected (by decide)
  cases h with
  | inserted m v text hdev hflash =>
    have hnew : FindsNewStick sh s := ⟨hdev, hflash⟩
    rw [hnone hflash, pollBatches]
    by_cases hcount : CountsFiles sh ext
    · rw [if_pos ⟨hnew, hcount⟩]
      exact Or.inr ⟨by simp [State.withUsb], _, hfound hnew ext hext hcount, rfl⟩
    · rw [if_neg fun h => hcount h.2,
        if_neg fun h => not_detachesStick_of_findsNewStick hnew h.1]
      exact Or.inl rfl
  | removed m v text hdev hflash hdetach =>
    have hgone : DetachesStick sh (s, w) := ⟨⟨hdev, hflash⟩, hdetach⟩
    refine Or.inl ?_
    rw [pollBatches, if_neg fun h => h.1.1 hdev]
    rcases hs with rfl | ⟨-, batch, hbatch, rfl⟩
    · rw [ite_self]
    · exact if_pos ⟨hgone, hbatch⟩
  | notDetached hdev hflash hdetach =>
    rw [(hdetached ⟨hdev, hflash⟩).2] at hdetach
    exact absurd hdetach (by decide)
  | noUsb hdev hflash =>
    rw [pollBatches, if_neg fun h => h.1.1 hdev,
      if_neg fun h => absurd h.1.1.2 (by simp [hflash])]
    exact Or.inl (hnone hflash)
  | unchanged hdev hflash =>
    rw [pollBatches, if_neg fun h => absurd h.1.2 (by simp [hflash]),
      if_neg fun h => hdev h.1.1.1]
    exact hs.imp_right fun h => ⟨by simpa using hflash, h.2⟩

theorem oneBatch_of_history {l : List (Transition (State × W) (Event W))} {c : State × W}
    (h : (anyEvents qt W).History l c) (hl : ∀ x ∈ l, DoesItsPart x.before x.event) {ext : Text}
    (hext : ext ∈ [songsExt, videosExt]) : OneBatch c.1 (batchesOf ext l) := by
  induction h with
  | start _ => exact Or.inl rfl
  | @tail l x _ hx ih =>
    have hs := ih fun y hy => hl y (List.mem_append_left _ hy)
    rw [batchesOf_concat]
    rcases step_cases hx.2 with ⟨sh, he, houtcome⟩ | ⟨he, hui, -⟩
    · have hpart := hl x (by simp)
      rw [he] at hpart
      rw [he]
      exact hs.poll houtcome hpart hext
    · have hsame : OneBatch x.after.1 (batchesOf ext l) := by
        rw [OneBatch, (uiStep_effect _ hui).flashStatus]
        exact hs
      cases hevent : x.event with
      | poll sh => exact absurd hevent (he sh)
      | _ => exact hsame

/-- **What it takes from the machine.**  If every stick that is gone can be unmounted and its
directory removed, and something is found wherever something is counted, then every new stick finds
empty the playlists it fills, and the lists stay parallel. -/
theorem fills_empty_lists_of_doesItsPart {l : List (Transition (State × W) (Event W))}
    {c : State × W} (h : (anyEvents qt W).History l c)
    (hl : ∀ x ∈ l, DoesItsPart x.before x.event) :
    (∀ x ∈ l, FillsEmptyLists x.before.1 x.event) ∧ c.1.ListsParallel := by
  have hfills : ∀ x ∈ l, FillsEmptyLists x.before.1 x.event := by
    intro x hx
    obtain ⟨l₁, l₂, rfl, hbefore, -⟩ := h.exists_prefix hx
    have hpart : ∀ y ∈ l₁, DoesItsPart y.before y.event := fun y hy => hl y (by simp [hy])
    obtain ⟨hsongs, hvideos⟩ := holdsBatches_of_history hbefore
    cases hevent : x.event with
    | poll sh =>
      intro hnew
      have hnil : ∀ {ext : Text}, ext ∈ [songsExt, videosExt] → batchesOf ext l₁ = [] := by
        intro ext hext
        rcases oneBatch_of_history hbefore hpart hext with hnil | ⟨hflash, -⟩
        · exact hnil
        · rw [hnew.2] at hflash
          exact nomatch hflash
      refine ⟨fun _ => ?_, fun _ => ?_⟩
      · rw [hsongs.media, hnil (by simp)]
        rfl
      · rw [hvideos.media, hnil (by simp)]
        rfl
    | _ => trivial
  exact ⟨hfills, listsParallel_of_fills h hfills⟩

/-- Two sticks, one after the other, on a machine whose commands succeed. -/
theorem two_sticks_fill_empty_lists :
    ∃ l c, (anyEvents ⟨false⟩ Unit).History l c ∧ c.1.songs.rows = ["b.mp3".toList] ∧
      (∀ x ∈ l, FillsEmptyLists x.before.1 x.event) ∧ c.1.ListsParallel := by
  obtain ⟨l, c, hl, -, hp⟩ := Machine.exists_history_of_replay (M := anyEvents ⟨false⟩ Unit)
    (s := (startup, ())) rfl
    [.poll (stickShell "sda1".toList ["a.mp3".toList] [] 0), .poll (stickShell [] [] [] 0),
      .poll (stickShell "sdb1".toList ["b.mp3".toList] [] 0)]
    (fun l c => decide (c.1.songs.rows = ["b.mp3".toList] ∧
      ∀ x ∈ l, DoesItsPart x.before x.event)) (by decide +kernel)
  obtain ⟨hrows, hpart⟩ := of_decide_eq_true hp
  exact ⟨l, c, hl, hrows, fills_empty_lists_of_doesItsPart hl hpart⟩

end Infotainment
