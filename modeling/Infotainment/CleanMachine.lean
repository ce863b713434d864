import Infotainment.RowAccess
import Infotainment.Sessions
import Infotainment.ShelfPolls

/-!
# A machine that is left as it was found

`Infotainment.Mounting` is about any leftover directories and mounts.  Here the machine is one that
has none: nothing below `/media`, neither a directory nor a mount (`Disk.Untouched`).  On such a
machine detaching a stick undoes attaching it, command by command, so that over a whole run nothing
piles up: the machine is at all times what it was at the start, plus the directory and the mount of
the one stick the program knows of (`machine_as_found`).

What goes wrong with the lists after an unmount that failed does therefore not happen here.  Without
a stick nothing is listed, with one it is what was scanned when it was plugged in
(`lists_of_stick`), and there are two ways left in which a run can end: play is pressed with no
current entry, or the text `find` printed sends a scan round forever (`crash_iff`).
-/

namespace Infotainment

open EventSystem MediaShelf

variable {qt : Qt}

/-! ## The commands on a clean machine -/

namespace Disk

variable (w : Disk)

/-- There is nothing below `/media`. -/
structure Untouched : Prop where
  paths : ∀ path ∈ w.dirs ++ w.files, ¬ "/media/".toList <+: path
  mounts : ∀ m ∈ w.mounts, ¬ "/media/".toList <+: m.2

/-- The machine with one stick in its directory. -/
def withStick (usbName : Text) : Disk where
  dirs := mountPoint usbName :: w.dirs
  files := w.files
  mounts := (devicePath usbName, mountPoint usbName) :: w.mounts

/-- The machine during a session. -/
def during : Option Text → Disk
  | none => w
  | some usbName => w.withStick usbName

variable {w} {usbName : Text}

theorem Untouched.mountPoint_notMem (h : w.Untouched) : mountPoint usbName ∉ w.dirs :=
  fun hmem => h.paths _ (List.mem_append_left _ hmem) (List.prefix_append _ _)

theorem Untouched.not_mounted (h : w.Untouched) {m : Text × Text} (hm : m ∈ w.mounts) :
    m.2 ≠ mountPoint usbName :=
  fun heq => h.mounts m hm (heq ▸ List.prefix_append _ _)

theorem Untouched.mountsOn_eq_nil (h : w.Untouched) : w.mountsOn (mountPoint usbName) = [] := by
  rw [mountsOn, List.filter_eq_nil_iff]
  intro m hm
  simpa using h.not_mounted hm

/-- Nothing is in the directory of the stick, which is not in itself. -/
theorem Untouched.isEmpty (h : w.Untouched) {mounts : List (Text × Text)} :
    IsEmpty ⟨mountPoint usbName :: w.dirs, w.files, mounts⟩ (mountPoint usbName) := by
  intro path hpath hprefix
  rcases List.mem_cons.mp hpath with hself | hpath
  · have hlen := hprefix.length_le
    rw [hself, List.length_append, List.length_singleton] at hlen
    omega
  · have hmount : "/media/".toList <+: mountPoint usbName := List.prefix_append _ _
    have hdir : mountPoint usbName <+: mountPoint usbName ++ ['/'] := List.prefix_append _ _
    exact h.paths path hpath (hmount.trans (hdir.trans hprefix))

theorem Untouched.attachUsb (h : w.Untouched) {sh : Shell Disk} (hsys : sh.system = Disk.system)
    (usbName : Text) : attachUsb sh usbName w = w.withStick usbName := by
  obtain ⟨w₁, hw₁⟩ : ∃ w₁ : Disk, w₁ = { w with dirs := mountPoint usbName :: w.dirs } := ⟨_, rfl⟩
  have hmkdir : (w.mkdir (mountPoint usbName)).2 = w₁ := by
    rw [mkdir, run_of_possible h.mountPoint_notMem, hw₁]
  have hpossible : mountPoint usbName ∈ w₁.dirs ∧
      ¬ w₁.Mounted (devicePath usbName) (mountPoint usbName) := by
    rw [hw₁]
    exact ⟨List.mem_cons_self, fun hmem => h.not_mounted hmem rfl⟩
  have hstatus : (w₁.mount (devicePath usbName) (mountPoint usbName)).1 = commandSucceded :=
    run_fst_eq.mpr hpossible
  rw [attachUsb_disk hsys]
  simp only [hmkdir, hstatus, ne_eq, not_true_eq_false, if_false]
  rw [mount, run_of_possible hpossible, hw₁]
  rfl

/-- **Detaching undoes attaching**, and no command of it fails. -/
theorem Untouched.detachUsb (h : w.Untouched) {sh : Shell Disk} (hsys : sh.system = Disk.system)
    (usbName : Text) : detachUsb sh usbName (w.withStick usbName) = (true, w) := by
  obtain ⟨w₁, hw₁⟩ : ∃ w₁ : Disk, w₁ = { w with dirs := mountPoint usbName :: w.dirs } := ⟨_, rfl⟩
  have humount : (w.withStick usbName).umount (mountPoint usbName) = (commandSucceded, w₁) := by
    rw [umount, run, if_pos (by simp [mountsOn, withStick]), hw₁]
    simp [withStick]
  have hunmount : unmountUSB sh usbName (w.withStick usbName) = (commandSucceded, w₁) := by
    rw [unmountUSB, hsys]
    simp only [system, humount, ne_eq, not_true_eq_false, if_false]
  have hrmdir : w₁.rmdir (mountPoint usbName) = (commandSucceded, w) := by
    have hon : w₁.mountsOn (mountPoint usbName) = [] := by
      rw [hw₁]
      exact h.mountsOn_eq_nil
    have hpossible : mountPoint usbName ∈ w₁.dirs ∧ w₁.IsEmpty (mountPoint usbName) ∧
        w₁.mountsOn (mountPoint usbName) = [] := by
      refine ⟨?_, ?_, hon⟩ <;> rw [hw₁]
      · exact List.mem_cons_self
      · exact h.isEmpty
    have hdirs : w.dirs.filter (· ≠ mountPoint usbName) = w.dirs := by
      refine List.filter_eq_self.mpr fun dir hdir => ?_
      simpa using fun heq => h.mountPoint_notMem (heq ▸ hdir)
    have hself : (mountPoint usbName :: w.dirs).filter (· ≠ mountPoint usbName) = w.dirs := by
      rw [List.filter_cons_of_neg (by simp), hdirs]
    rw [rmdir, run, if_pos hpossible, hw₁]
    simp only [hself]
  simp only [Infotainment.detachUsb, hunmount, if_true, hsys, system, hrmdir, decide_true]

end Disk

/-! ## Whole runs -/

/-- The program, with events in any order, on a machine on which the commands act like this, and
which is this one at the start. -/
def diskEvents (qt : Qt) (w₀ : Disk) : Machine (State × Disk) (Event Disk) Fault where
  start c := c = (startup, w₀)
  enabled e _ := ∀ sh, e = .poll sh → sh.system = Disk.system
  step := step qt

/-- There is nothing on either list. -/
structure State.NothingListed (s : State) : Prop where
  songs : s.songs.rows = [] ∧ s.songs.playList.media = []
  videos : s.videos.rows = [] ∧ s.videos.playList.media = []

/-- What holds on a clean machine at all times. -/
structure AsFound (w₀ : Disk) (c : State × Disk) : Prop where
  disk : c.2 = w₀.during c.1.session
  parallel : c.1.ListsParallel
  nothing : c.1.session = none → c.1.NothingListed

theorem asFound_startup (w₀ : Disk) : AsFound w₀ (startup, w₀) :=
  ⟨rfl, listsParallel_startup, fun _ => ⟨⟨rfl, rfl⟩, rfl, rfl⟩⟩

theorem MediaShelf.SameFiles.nothing_iff {m m' : MediaShelf} (h : SameFiles m m') :
    m'.rows = [] ∧ m'.playList.media = [] ↔ m.rows = [] ∧ m.playList.media = [] := by
  rw [h.rows, h.media]

/-- A stick is listed on empty lists only. -/
theorem AsFound.fillsEmptyLists {w₀ : Disk} {c : State × Disk} (hc : AsFound w₀ c)
    (e : Event Disk) : FillsEmptyLists c.1 e := by
  cases e with
  | poll sh =>
    rintro ⟨-, hflash⟩
    have hnothing := hc.nothing (by rw [State.session, hflash])
    exact ⟨fun _ => hnothing.songs.2, fun _ => hnothing.videos.2⟩
  | _ => trivial

/-- What happens to the lists when a session is over. -/
theorem PollOutcome.nothingListed {w₀ : Disk} (hw₀ : w₀.Untouched) {sh : Shell Disk}
    (hsys : sh.system = Disk.system) {s : State} {w : Disk} {c : State × Disk}
    (h : PollOutcome qt sh s w c) (hs : AsFound w₀ (s, w)) (hclosed : c.1.session = none) :
    c.1.NothingListed := by
  cases h with
  | inserted m v text =>
    rw [session_showMediaBar] at hclosed
    simp [State.session, State.withUsb] at hclosed
  | removed m v text hdev hflash hdetach hm hv =>
    obtain ⟨hsongs, hvideos⟩ := hs.parallel
    exact ⟨by simpa using update_noFlash hsongs hm, by simpa using update_noFlash hvideos hv⟩
  | notDetached hdev hflash hdetach =>
    -- on this machine the commands do not fail
    have hopen : s.session = some s.usbName := by rw [State.session, hflash]
    have hdisk : w = w₀.withStick s.usbName := by
      have hduring := hs.disk
      rwa [hopen] at hduring
    rw [hdisk, hw₀.detachUsb hsys] at hdetach
    exact absurd hdetach (by simp)
  | noUsb hdev hflash =>
    have hnothing := hs.nothing (by rw [State.session, hflash])
    exact ⟨by simpa [State.noUsb] using hnothing.songs,
      by simpa [State.noUsb] using hnothing.videos⟩
  | unchanged hdev hflash =>
    rw [session_showMediaBar, State.session, hflash] at hclosed
    simp at hclosed

theorem PollOutcome.asFound {w₀ : Disk} (hw₀ : w₀.Untouched) {sh : Shell Disk}
    (hsys : sh.system = Disk.system) {s : State} {w : Disk} {c : State × Disk}
    (h : PollOutcome qt sh s w c) (hs : AsFound w₀ (s, w)) : AsFound w₀ c where
  disk := by
    have hdisk : w = w₀.during s.session := hs.disk
    rcases h.session_cases with ⟨-, hnone, hopen, hw⟩ | ⟨-, hsome, hclosed, hw⟩ | ⟨-, hsame, hw⟩
    · rw [hw, hopen, hdisk, hnone]
      exact hw₀.attachUsb hsys _
    · rw [hw, hclosed, hdisk, hsome]
      exact congrArg Prod.snd (hw₀.detachUsb hsys s.usbName)
    · rw [hw, hsame, hdisk]
  parallel := (h.listsParallel_iff hs.parallel).mpr (hs.fillsEmptyLists (.poll sh))
  nothing := h.nothingListed hw₀ hsys hs

theorem AsFound.step {w₀ : Disk} (hw₀ : w₀.Untouched)
    {x : Transition (State × Disk) (Event Disk)} (hx : (diskEvents qt w₀).Fires x)
    (hbefore : AsFound w₀ x.before) : AsFound w₀ x.after := by
  rcases step_cases hx.2 with ⟨sh, he, houtcome⟩ | ⟨-, hui, hmachine⟩
  · exact houtcome.asFound hw₀ (hx.1 sh he) hbefore
  · have heffect := uiStep_effect _ hui
    refine ⟨?_, heffect.listsParallel_iff.mpr hbefore.parallel, fun hnone => ?_⟩
    · rw [hmachine, heffect.session_eq]
      exact hbefore.disk
    · have hnothing := hbefore.nothing (heffect.session_eq ▸ hnone)
      exact ⟨heffect.songs.sameFiles.nothing_iff.mpr hnothing.songs,
        heffect.videos.sameFiles.nothing_iff.mpr hnothing.videos⟩

theorem asFound_of_history {w₀ : Disk} (hw₀ : w₀.Untouched)
    {l : List (Transition (State × Disk) (Event Disk))} {c : State × Disk}
    (h : (diskEvents qt w₀).History l c) : AsFound w₀ c :=
  h.invariant (fun _ hc => hc ▸ asFound_startup w₀) fun _ hx hI => hI.step hw₀ hx

/-- **The machine is left as it was found.**  From a clean machine, at any time of any run, the
directories, files and mounts are those of the start, and in addition the directory and the mount of
the stick the program knows of.  If it knows of none there is nothing in the lists either. -/
theorem machine_as_found {w₀ : Disk} (hw₀ : w₀.Untouched)
    {l : List (Transition (State × Disk) (Event Disk))} {c : State × Disk}
    (h : (diskEvents qt w₀).History l c) :
    c.2 = w₀.during c.1.session ∧ (c.1.session = none → c.1.NothingListed) :=
  have hc := asFound_of_history hw₀ h
  ⟨hc.disk, hc.nothing⟩

/-- Runs on such a machine. -/
theorem exists_diskHistory {w₀ : Disk} {es : List (Event Disk)}
    (hes : ∀ e ∈ es, ∀ sh, e = .poll sh → sh.system = Disk.system) {c : State × Disk}
    (h : (diskEvents qt w₀).run es (startup, w₀) = .ok c) :
    ∃ l, (diskEvents qt w₀).History l c ∧ l.map Transition.event = es :=
  Machine.exists_history_of_run rfl (fun e he _ => hes e he) h

/-- A stick comes and goes. -/
theorem machine_after_one_stick :
    ∃ l c, (diskEvents ⟨false⟩ ⟨["/home".toList], [], []⟩).History l c ∧ l.length = 2 ∧
      c.2 = Disk.during ⟨["/home".toList], [], []⟩ c.1.session ∧
      (c.1.session = none → c.1.NothingListed) := by
  obtain ⟨c, hc, -⟩ := Machine.exists_run_of_test
    (M := diskEvents ⟨false⟩ ⟨["/home".toList], [], []⟩)
    [.poll (diskShell "sda1".toList), .poll (diskShell [])] (startup, ⟨["/home".toList], [], []⟩)
    (fun _ => true) (by decide +kernel)
  obtain ⟨l, hl, hevents⟩ := exists_diskHistory (by simp [diskShell]) hc
  have hlen : l.length = 2 := by rw [← List.length_map Transition.event, hevents]; rfl
  exact ⟨l, c, hl, hlen, machine_as_found ⟨by decide, by decide⟩ hl⟩

/-! ## What is listed -/

/-- The media that a poll would list on an empty shelf; nothing if the scan does not end. -/
def mediaOn {W : Type} (sh : Shell W) (usbPath ext : Text) : Option (List Text) :=
  if getStdoutFromCommand sh (.countFiles usbPath ext) = zeroCount then some []
  else (scan ext (getStdoutFromCommand sh (.findFiles usbPath ext)) .new).map (·.playList.media)

/-- On an empty playlist, an update puts the listing. -/
theorem MediaShelf.update_mediaOn {W : Type} {sh : Shell W} {m m' : MediaShelf}
    {ext usbPath : Text} {mode : PlaybackMode} (hm : m.playList.media = [])
    (h : m.update qt ext mode .flashDetected usbPath
      (getStdoutFromCommand sh (.countFiles usbPath ext))
      (getStdoutFromCommand sh (.findFiles usbPath ext)) = some m') :
    mediaOn sh usbPath ext = some m'.playList.media := by
  rcases update_cases h with ⟨hflash, -⟩ | ⟨hflash, -⟩ | ⟨-, hcount, rfl⟩ |
    ⟨-, hcount, paths, hpaths, rfl⟩
  · exact absurd hflash (by decide)
  · exact absurd hflash (by decide)
  · rw [mediaOn, if_pos hcount, ← hm]
  · rw [mediaOn, if_neg hcount, scan_eq, hpaths, filled_media, hm]
    simp [new, QMediaPlaylist.new]

/-- The poll saw the stick, and what it listed on it is on the lists. -/
structure ListedBy {W : Type} (sh : Shell W) (usbName : Text) (s : State) : Prop where
  device : devicesConnected sh = usbName
  songs : mediaOn sh (usbPathOf usbName) songsExt = some s.songs.playList.media
  videos : mediaOn sh (usbPathOf usbName) videosExt = some s.videos.playList.media

theorem ListedBy.congr {W : Type} {sh : Shell W} {usbName : Text} {s s' : State}
    (h : ListedBy sh usbName s) (hsongs : s'.songs.playList.media = s.songs.playList.media)
    (hvideos : s'.videos.playList.media = s.videos.playList.media) : ListedBy sh usbName s' :=
  ⟨h.device, hsongs ▸ h.songs, hvideos ▸ h.videos⟩

/-- A session that is open after a poll was opened by it, or was open before with the same
lists. -/
theorem PollOutcome.listedBy {sh : Shell Disk} {w₀ : Disk} {s : State} {w : Disk}
    {c : State × Disk} (h : PollOutcome qt sh s w c) (hs : AsFound w₀ (s, w)) {usbName : Text}
    (hopen : c.1.session = some usbName) :
    (s.session = none ∧ ListedBy sh usbName c.1) ∨
      (s.session = some usbName ∧ c.1.songs.playList.media = s.songs.playList.media ∧
        c.1.videos.playList.media = s.videos.playList.media) := by
  cases h with
  | inserted m v text hdev hflash hm hv =>
    have hclosed : s.session = none := by rw [State.session, hflash]
    obtain rfl : devicesConnected sh = usbName := by
      rw [session_showMediaBar] at hopen
      exact Option.some.inj hopen
    obtain ⟨hsongs, hvideos⟩ := hs.nothing hclosed
    refine Or.inl ⟨hclosed, rfl, ?_, ?_⟩
    · simpa using update_mediaOn hsongs.2 hm
    · simpa using update_mediaOn hvideos.2 hv
  | removed m v text =>
    rw [session_showMediaBar] at hopen
    exact absurd hopen (by simp [State.session, State.withoutUsb])
  | notDetached =>
    rw [session_showMediaBar] at hopen
    exact absurd hopen (by simp [State.session])
  | noUsb hdev hflash =>
    rw [session_showMediaBar] at hopen
    exact absurd hopen (by simp [State.session, State.noUsb, hflash])
  | unchanged hdev hflash =>
    rw [session_showMediaBar] at hopen
    exact Or.inr ⟨hopen, by simp, by simp⟩

/-- The poll that opened the session is in the run, and the lists are still its listing. -/
theorem listedBy_of_history {w₀ : Disk} (hw₀ : w₀.Untouched)
    {l : List (Transition (State × Disk) (Event Disk))} {c : State × Disk}
    (h : (diskEvents qt w₀).History l c) {usbName : Text} (hopen : c.1.session = some usbName) :
    ∃ l₁ x l₂ sh, l = l₁ ++ x :: l₂ ∧ x.event = .poll sh ∧
      x.before.1.session = none ∧ (∀ y ∈ l₂, y.before.1.session = some usbName) ∧
      ListedBy sh usbName c.1 := by
  induction h with
  | start hc =>
    rw [show _ = _ from hc] at hopen
    exact absurd hopen (by simp [State.session, startup])
  | @tail l x hl hx ih =>
    have hbefore := asFound_of_history hw₀ hl
    -- either the last transition opens the session or it leaves session and lists alone
    have hlast : (∃ sh, x.event = .poll sh ∧ x.before.1.session = none ∧
          ListedBy sh usbName x.after.1) ∨
        (x.before.1.session = some usbName ∧
          x.after.1.songs.playList.media = x.before.1.songs.playList.media ∧
          x.after.1.videos.playList.media = x.before.1.videos.playList.media) := by
      rcases step_cases hx.2 with ⟨sh, he, houtcome⟩ | ⟨-, hui, -⟩
      · rcases houtcome.listedBy hbefore hopen with ⟨hnone, hlisted⟩ | hsame
        · exact Or.inl ⟨sh, he, hnone, hlisted⟩
        · exact Or.inr hsame
      · have heffect := uiStep_effect _ hui
        exact Or.inr ⟨heffect.session_eq ▸ hopen, heffect.songs.sameFiles.media,
          heffect.videos.sameFiles.media⟩
    rcases hlast with ⟨sh, he, hnone, hlisted⟩ | ⟨hsome, hsongs, hvideos⟩
    · exact ⟨l, x, [], sh, rfl, he, hnone, by simp, hlisted⟩
    · obtain ⟨l₁, y, l₂, sh, rfl, he, hnone, hopened, hlisted⟩ := ih hsome
      refine ⟨l₁, y, l₂ ++ [x], sh, by simp, he, hnone, ?_, hlisted.congr hsongs hvideos⟩
      intro z hz
      rcases List.mem_append.mp hz with hz | hz
      · exact hopened z hz
      · obtain rfl : z = x := List.mem_singleton.mp hz
        exact hsome

/-- **What is listed is on the stick.**  On a clean machine, while the program knows of a stick,
each list is parallel to its playlist, and the playlists hold what was scanned by the poll that
opened the session, and nothing else. -/
theorem lists_of_stick {w₀ : Disk} (hw₀ : w₀.Untouched)
    {l : List (Transition (State × Disk) (Event Disk))} {c : State × Disk}
    (h : (diskEvents qt w₀).History l c) {usbName : Text} (hopen : c.1.session = some usbName) :
    c.1.ListsParallel ∧ ∃ l₁ x l₂ sh, l = l₁ ++ x :: l₂ ∧ x.event = .poll sh ∧
      x.before.1.session = none ∧ (∀ y ∈ l₂, y.before.1.session = some usbName) ∧
      ListedBy sh usbName c.1 :=
  ⟨(asFound_of_history hw₀ h).parallel, listedBy_of_history hw₀ h hopen⟩

/-- A stick with two songs and a video. -/
theorem lists_of_one_stick :
    ∃ l c, (diskEvents ⟨false⟩ ⟨[], [], []⟩).History l c ∧ l.length = 2 ∧
      c.1.ListsParallel ∧ ∃ l₁ x l₂ sh, l = l₁ ++ x :: l₂ ∧ x.event = .poll sh ∧
        x.before.1.session = none ∧ (∀ y ∈ l₂, y.before.1.session = some "sda1".toList) ∧
        ListedBy sh "sda1".toList c.1 := by
  let sh : Shell Disk :=
    { popen := (stickShell "sda1".toList ["a.mp3".toList, "b.mp3".toList] ["c.mp4".toList] 0).popen
      system := Disk.system }
  obtain ⟨c, hc, hopen⟩ := Machine.exists_run_of_test (M := diskEvents ⟨false⟩ ⟨[], [], []⟩)
    [.poll sh, .click .musicButton 0] (startup, ⟨[], [], []⟩)
    (fun c => decide (c.1.session = some "sda1".toList)) (by decide +kernel)
  obtain ⟨l, hl, hevents⟩ := exists_diskHistory (by simp [sh]) hc
  have hlen : l.length = 2 := by rw [← List.length_map Transition.event, hevents]; rfl
  exact ⟨l, c, hl, hlen, lists_of_stick ⟨by decide, by decide⟩ hl (of_decide_eq_true hopen)⟩

/-! ## How a run can end -/

section Crash

variable {W : Type}

/-- The poll takes the insertion branch and one of the scans does not end. -/
def Hangs (s : State) : Event W → Prop
  | .poll sh => FindsNewStick sh s ∧ (ScanHangs sh songsExt ∨ ScanHangs sh videosExt)
  | _ => False

theorem step_eq_hang_iff {e : Event W} {c : State × W} (hfills : FillsEmptySongs c.1 e) :
    step qt e c = .error .hang ↔ Hangs c.1 e := by
  by_cases hpoll : ∃ sh, e = .poll sh
  · obtain ⟨sh, rfl⟩ := hpoll
    rw [show step qt (.poll sh) c = c.1.updateFlashStatus qt sh c.2 from rfl,
      State.updateFlashStatus_eq_error_iff, Hangs]
    refine and_congr_right fun hnew => ?_
    have hrow : ¬ RewindsToNoRow qt sh c.1 := fun h => h.2.2.2.1 (hfills hnew h.1)
    simp [hrow]
  · have he : ∀ sh, e ≠ .poll sh := fun sh hsh => hpoll ⟨sh, hsh⟩
    have hnot : ¬ Hangs c.1 e := by
      cases e with
      | poll sh => exact absurd rfl (he sh)
      | _ => exact id
    rw [step_eq_uiStep he, map_eq_error_iff, uiStep_eq_error_iff qt he]
    simp [hnot]

end Crash

/-- **The two ways in which a run on a clean machine can end.**  In any state it can reach, an event
that is possible in front of the screen fails in these cases and no others: it presses play while
the flag says that nothing plays and no entry is current, and a missing row is read; or it is a poll
that finds a new stick, asks `find`, and gets a text on which a scan goes round forever. -/
theorem crash_iff {w₀ : Disk} (hw₀ : w₀.Untouched)
    {l : List (Transition (State × Disk) (Event Disk))} {c : State × Disk}
    (h : (diskEvents qt w₀).History l c) {e : Event Disk} (hshown : Shown e c.1) (f : Fault) :
    step qt e c = .error f ↔
      (f = .nullItem ∧ PlaysNoEntry c.1 e) ∨ (f = .hang ∧ Hangs c.1 e) := by
  have hc := asFound_of_history hw₀ h
  have hfills := (hc.fillsEmptyLists e).songs
  cases f with
  | nullItem =>
    rw [step_eq_nullItem_iff, readsNoRow_iff_playsNoEntry hc.parallel.1 hshown hfills]
    simp
  | hang =>
    rw [step_eq_hang_iff hfills]
    simp

/-- A stick with a directory that may not be read: `find` says so behind the song it found. -/
def unreadableShell : Shell Disk where
  popen
    | .listDevices => some "sda1".toList
    | .udevadm _ => some "E: ID_BUS=usb".toList
    | .countFiles .. => some "1".toList
    | .findFiles .. =>
      some "/media/sda1/a.mp3\nfind: '/media/sda1/b': Permission denied\n".toList
    | _ => some []
  system := Disk.system

/-- The poll that finds such a stick goes round forever. -/
theorem hang_on_unreadable_directory :
    ∃ l c, (diskEvents ⟨false⟩ ⟨[], [], []⟩).History l c ∧ l.length = 1 ∧
      step ⟨false⟩ (.poll unreadableShell) c = .error .hang := by
  obtain ⟨c, hc, hp⟩ := Machine.exists_run_of_test (M := diskEvents ⟨false⟩ ⟨[], [], []⟩)
    [.click .musicButton 0] (startup, ⟨[], [], []⟩)
    (fun c => decide (FindsNewStick unreadableShell c.1)) (by decide +kernel)
  obtain ⟨l, hl, hevents⟩ := exists_diskHistory (by simp) hc
  have hlen : l.length = 1 := by rw [← List.length_map Transition.event, hevents]; rfl
  have htext : foundFiles unreadableShell songsExt =
      "/media/sda1/a.mp3find: '/media/sda1/b': Permission denied".toList := by decide +kernel
  have hscan : ScanHangs unreadableShell songsExt := by
    refine ⟨by decide +kernel, ?_⟩
    rw [htext]
    rintro (hshort | ⟨-, hsuffix⟩ | ⟨hlong, -⟩)
    · exact absurd hshort (by decide)
    · exact absurd hsuffix (by decide)
    · exact absurd hlong (by decide)
  have hshown : Shown (.poll unreadableShell) c.1 := trivial
  exact ⟨l, c, hl, hlen, (crash_iff ⟨by decide, by decide⟩ hl hshown .hang).mpr
    (Or.inr ⟨rfl, of_decide_eq_true hp, Or.inl hscan⟩)⟩

end Infotainment
