import Infotainment.ParallelLists

/-!
# Mounting a stick

A model of the part of the machine that the commands of the flash poll change: which directories and
files there are below `/media`, and what is mounted where.  Several devices may be mounted on one
directory, and then the last one hides the others.  A command that cannot do its work fails and
changes nothing.  Left out is a regular file in the place where a stick is to be mounted, on which
no directory could be made; a file only matters here as something that lies in a directory.

The insertion branch makes the directory and mounts the stick.  Should that fail, it unmounts
whatever is on the directory, removes the directory, and mounts again.  On this machine the first
attempt can only fail because the stick is mounted there already, and then the second one has
nothing to mount on if removing the directory worked: that is the single way in which an insertion
ends without the stick mounted (`mounted_iff`).
-/

namespace Infotainment

open EventSystem MediaShelf

/-- Directories, files, and mounts. -/
structure Disk where
  dirs : List Text
  /-- The files that lie in the directories; none is where a stick would be mounted. -/
  files : List Text
  /-- Devices with the directories they are mounted on, the latest first. -/
  mounts : List (Text × Text)

/-- A status other than `commandSucceded`. -/
def commandFailed : ℤ := 256

namespace Disk

variable (w : Disk)

/-- What is mounted on the directory, the latest first. -/
def mountsOn (dir : Text) : List (Text × Text) := w.mounts.filter (·.2 = dir)

/-- The device is mounted on the directory. -/
def Mounted (dev dir : Text) : Prop := (dev, dir) ∈ w.mounts

/-- There is nothing in the directory. -/
def IsEmpty (dir : Text) : Prop := ∀ path ∈ w.dirs ++ w.files, ¬ dir ++ ['/'] <+: path

instance (dev dir : Text) : Decidable (w.Mounted dev dir) := inferInstanceAs (Decidable (_ ∈ _))

instance (dir : Text) : Decidable (w.IsEmpty dir) := inferInstanceAs (Decidable (∀ _ ∈ _, ¬ _))

/-- The effect of a command where it can be carried out. -/
def run (possible : Prop) [Decidable possible] (w' : Disk) : ℤ × Disk :=
  if possible then (commandSucceded, w') else (commandFailed, w)

def mkdir (dir : Text) : ℤ × Disk := w.run (dir ∉ w.dirs) { w with dirs := dir :: w.dirs }

def mount (dev dir : Text) : ℤ × Disk :=
  w.run (dir ∈ w.dirs ∧ ¬ w.Mounted dev dir) { w with mounts := (dev, dir) :: w.mounts }

/-- Unmounting takes off what was mounted last. -/
def umount (dir : Text) : ℤ × Disk :=
  w.run (w.mountsOn dir ≠ []) { w with mounts := w.mounts.eraseP (·.2 = dir) }

def rmdir (dir : Text) : ℤ × Disk :=
  w.run (dir ∈ w.dirs ∧ w.IsEmpty dir ∧ w.mountsOn dir = [])
    { w with dirs := w.dirs.filter (· ≠ dir) }

/-- What a command does to the machine. -/
def system : Command → Disk → ℤ × Disk
  | .mkdir dir, w => w.mkdir dir
  | .mount dev dir, w => w.mount dev dir
  | .umount dir, w => w.umount dir
  | .umountLazy dir, w => w.umount dir
  | .rmdir dir, w => w.rmdir dir

/-! ## The commands, one at a time -/

variable {w} {dev dir : Text}

theorem mounted_iff_mem_mountsOn : w.Mounted dev dir ↔ (dev, dir) ∈ w.mountsOn dir := by
  simp [Mounted, mountsOn]

theorem run_fst_eq {possible : Prop} [Decidable possible] {w' : Disk} :
    (w.run possible w').1 = commandSucceded ↔ possible := by
  unfold run
  split_ifs with h
  · simp [h]
  · simp [h, commandFailed, commandSucceded]

theorem run_of_possible {possible : Prop} [Decidable possible] {w' : Disk} (h : possible) :
    (w.run possible w').2 = w' := by
  unfold run
  rw [if_pos h]

theorem run_of_not_possible {possible : Prop} [Decidable possible] {w' : Disk}
    (h : ¬ possible) : (w.run possible w').2 = w := by
  unfold run
  rw [if_neg h]

/-- After `mkdir` the directory is there; mounts and contents are as before. -/
theorem mkdir_spec (w : Disk) (dir : Text) :
    dir ∈ (w.mkdir dir).2.dirs ∧ (w.mkdir dir).2.mounts = w.mounts ∧
      ((w.mkdir dir).2.IsEmpty dir ↔ w.IsEmpty dir) := by
  by_cases hdir : dir ∈ w.dirs
  · rw [mkdir, run_of_not_possible (not_not.mpr hdir)]
    exact ⟨hdir, rfl, Iff.rfl⟩
  · rw [mkdir, run_of_possible hdir]
    -- a directory does not contain itself
    have hself : ¬ dir ++ ['/'] <+: dir := by
      intro hprefix
      have hlen := hprefix.length_le
      simp at hlen
    refine ⟨List.mem_cons_self, rfl, ?_⟩
    simp [IsEmpty, hself]

theorem mountsOn_umount (hne : w.mountsOn dir ≠ []) :
    (w.umount dir).2.mountsOn dir = (w.mountsOn dir).tail := by
  rw [umount, run_of_possible hne]
  show (w.mounts.eraseP _).filter _ = (w.mounts.filter _).tail
  induction w.mounts with
  | nil => rfl
  | cons m mounts ih =>
    by_cases hm : m.2 = dir
    · simp [hm]
    · simp [hm, ih]

theorem umount_dirs : (w.umount dir).2.dirs = w.dirs := by
  unfold umount run
  split_ifs <;> rfl

theorem umount_isEmpty : (w.umount dir).2.IsEmpty dir ↔ w.IsEmpty dir := by
  unfold umount run
  split_ifs <;> exact Iff.rfl

/-- A mount on a directory that is there: afterwards the device is mounted, one way or the other. -/
theorem mounted_mount (hdir : dir ∈ w.dirs) : (w.mount dev dir).2.Mounted dev dir := by
  by_cases hdev : w.Mounted dev dir
  · rw [mount, run_of_not_possible (fun h => h.2 hdev)]
    exact hdev
  · rw [mount, run_of_possible ⟨hdir, hdev⟩]
    exact List.mem_cons_self

/-- A mount on a directory that is not there does nothing. -/
theorem mount_of_not_mem (hdir : dir ∉ w.dirs) : (w.mount dev dir).2 = w := by
  rw [mount, run_of_not_possible fun h => hdir h.1]

end Disk

/-! ## The insertion branch -/

/-- `"/dev/" + usbName` -/
def devicePath (usbName : Text) : Text := "/dev/".toList ++ usbName

/-- An earlier insertion was never undone: the stick is the one thing mounted on its directory, and
there is nothing in the directory. -/
def LeftMounted (usbName : Text) (w : Disk) : Prop :=
  w.mountsOn (mountPoint usbName) = [(devicePath usbName, mountPoint usbName)] ∧
    w.IsEmpty (mountPoint usbName)

instance (usbName : Text) (w : Disk) : Decidable (LeftMounted usbName w) :=
  inferInstanceAs (Decidable (_ ∧ _))

open Disk in
/-- The second attempt, on a machine where the stick is mounted on its directory. -/
theorem mounted_secondAttempt {w : Disk} {dev dir : Text} (hdir : dir ∈ w.dirs)
    (hdev : w.Mounted dev dir) :
    (((w.umount dir).2.rmdir dir).2.mount dev dir).2.Mounted dev dir ↔
      ¬ (w.mountsOn dir = [(dev, dir)] ∧ w.IsEmpty dir) := by
  have hmem := mounted_iff_mem_mountsOn.mp hdev
  have htail := mountsOn_umount (List.ne_nil_of_mem hmem)
  have hdir' : dir ∈ (w.umount dir).2.dirs := by
    rw [umount_dirs]
    exact hdir
  by_cases hleft : w.mountsOn dir = [(dev, dir)] ∧ w.IsEmpty dir
  · -- removing the directory works, and there is nothing to mount on
    rw [hleft.1, List.tail_cons] at htail
    have hgone : ((w.umount dir).2.rmdir dir).2 =
        { (w.umount dir).2 with dirs := (w.umount dir).2.dirs.filter (· ≠ dir) } :=
      run_of_possible ⟨hdir', umount_isEmpty.mpr hleft.2, htail⟩
    have hnot : dir ∉ ((w.umount dir).2.rmdir dir).2.dirs := by
      rw [hgone]
      simp
    rw [mount_of_not_mem hnot, mounted_iff_mem_mountsOn, hgone]
    show (dev, dir) ∈ (w.umount dir).2.mountsOn dir ↔ _
    simp [htail, hleft]
  · -- removing the directory fails
    have hstays : ¬ (dir ∈ (w.umount dir).2.dirs ∧ (w.umount dir).2.IsEmpty dir ∧
        (w.umount dir).2.mountsOn dir = []) := by
      rintro ⟨-, hempty, hnone⟩
      rw [htail] at hnone
      obtain ⟨m, hm⟩ : ∃ m, w.mountsOn dir = [m] := by
        rcases hmounts : w.mountsOn dir with _ | ⟨m, rest⟩
        · rw [hmounts] at hmem
          exact absurd hmem (by simp)
        · rw [hmounts, List.tail_cons] at hnone
          exact ⟨m, by rw [hnone]⟩
      rw [hm, List.mem_singleton] at hmem
      exact hleft ⟨by rw [hm, hmem], umount_isEmpty.mp hempty⟩
    have hsame : ((w.umount dir).2.rmdir dir).2 = (w.umount dir).2 := run_of_not_possible hstays
    rw [hsame]
    exact iff_of_true (mounted_mount hdir') hleft

/-- Forcing an unmount that failed does not help on this machine. -/
theorem unmountUSB_disk {sh : Shell Disk} (hsys : sh.system = Disk.system) (usbName : Text)
    (w : Disk) : (unmountUSB sh usbName w).2 = (w.umount (mountPoint usbName)).2 := by
  have hunmount : (unmountUSB sh usbName w).2 =
      if (w.umount (mountPoint usbName)).1 ≠ commandSucceded then
        ((w.umount (mountPoint usbName)).2.umount (mountPoint usbName)).2
      else (w.umount (mountPoint usbName)).2 := by
    rw [unmountUSB, hsys]
    show (if (w.umount (mountPoint usbName)).1 ≠ commandSucceded then _ else _ : ℤ × Disk).2 = _
    split_ifs <;> rfl
  rw [hunmount]
  split_ifs with hstatus
  · have hsame : (w.umount (mountPoint usbName)).2 = w :=
      Disk.run_of_not_possible fun h => hstatus (Disk.run_fst_eq.mpr h)
    rw [hsame, hsame]
  · rfl

/-- The commands of the insertion branch, on this machine. -/
theorem attachUsb_disk {sh : Shell Disk} (hsys : sh.system = Disk.system) (usbName : Text)
    (w : Disk) :
    attachUsb sh usbName w =
      let dir := mountPoint usbName
      let w₁ := (w.mkdir dir).2
      let w₂ := (w₁.mount (devicePath usbName) dir).2
      if (w₁.mount (devicePath usbName) dir).1 ≠ commandSucceded then
        (((w₂.umount dir).2.rmdir dir).2.mount (devicePath usbName) dir).2
      else w₂ := by
  simp only [← unmountUSB_disk hsys]
  rw [attachUsb, hsys]
  simp only [mountUSB, hsys]
  rfl

open Disk in
/-- **Where an insertion ends.** -/
theorem mounted_attachUsb {sh : Shell Disk} (hsys : sh.system = Disk.system) (usbName : Text)
    (w : Disk) :
    (attachUsb sh usbName w).Mounted (devicePath usbName) (mountPoint usbName) ↔
      ¬ LeftMounted usbName w := by
  simp only [attachUsb_disk hsys]
  obtain ⟨hdir, hmounts, hempty⟩ := mkdir_spec w (mountPoint usbName)
  have hon : (w.mkdir (mountPoint usbName)).2.mountsOn (mountPoint usbName) =
      w.mountsOn (mountPoint usbName) := by
    show (w.mkdir (mountPoint usbName)).2.mounts.filter _ = w.mounts.filter _
    rw [hmounts]
  rw [LeftMounted, ← hon, ← hempty]
  generalize (w.mkdir (mountPoint usbName)).2 = w₁ at hdir
  by_cases hdev : w₁.Mounted (devicePath usbName) (mountPoint usbName)
  · have hstatus : (w₁.mount (devicePath usbName) (mountPoint usbName)).1 ≠ commandSucceded :=
      fun h => (run_fst_eq.mp h).2 hdev
    have hfirst : (w₁.mount (devicePath usbName) (mountPoint usbName)).2 = w₁ :=
      run_of_not_possible fun h => h.2 hdev
    simp only [if_pos hstatus, hfirst]
    exact mounted_secondAttempt hdir hdev
  · have hstatus : (w₁.mount (devicePath usbName) (mountPoint usbName)).1 = commandSucceded :=
      run_fst_eq.mpr ⟨hdir, hdev⟩
    simp only [hstatus, ne_eq, not_true_eq_false, if_false]
    refine iff_of_true (mounted_mount hdir) fun hleft => hdev ?_
    rw [mounted_iff_mem_mountsOn, hleft.1]
    exact List.mem_singleton_self _

/-- **An insertion ends with the stick mounted, except where it is left over from before.**  In any
run, from any leftover directories and mounts, a poll that takes the insertion branch ends with the
device mounted on the directory that `usbPath` names, unless the device was the only thing mounted
on that directory before the poll and the directory below it is empty. -/
theorem mounted_iff {qt : Qt} {l : List (Transition (State × Disk) (Event Disk))}
    {c : State × Disk} (h : (anyEvents qt Disk).History l c)
    {x : Transition (State × Disk) (Event Disk)} (hx : x ∈ l) {sh : Shell Disk}
    (hpoll : x.event = .poll sh) (hsys : sh.system = Disk.system)
    (hnew : FindsNewStick sh x.before.1) :
    (x.after.1.usbPath = mountPoint (devicesConnected sh) ++ "/".toList ∧
        x.after.2.Mounted (devicePath (devicesConnected sh)) (mountPoint (devicesConnected sh))) ↔
      ¬ LeftMounted (devicesConnected sh) x.before.2 := by
  obtain ⟨-, -, -, -, hfires⟩ := h.exists_prefix hx
  have hstep : step qt (.poll sh) x.before = .ok x.after := hpoll ▸ hfires.2
  have houtcome := poll_outcome hstep
  rw [← mounted_attachUsb hsys]
  generalize hafter : x.after = c' at houtcome
  cases houtcome with
  | inserted m v text hdev hflash hm hv => simp [State.withUsb, usbPathOf]
  | removed m v text hdev => exact absurd hdev hnew.1
  | notDetached hdev => exact absurd hdev hnew.1
  | noUsb hdev => exact absurd hdev hnew.1
  | unchanged hdev hflash => exact absurd (hnew.2.symm.trans hflash) (by decide)

/-- A machine with this stick, or none if the name is empty, on which the commands act on the
disk. -/
def diskShell (dev : Text) : Shell Disk where
  popen := (stickShell dev [] [] 0).popen
  system := Disk.system

/-- A stick whose directory is there already, with another device mounted on it. -/
theorem mounted_beside_other_device :
    ∃ l c, (anyEvents ⟨false⟩ Disk).History l c ∧ l.length = 1 ∧
      ∀ x ∈ l, x.after.2.Mounted (devicePath "sda1".toList) (mountPoint "sda1".toList) := by
  obtain ⟨l, c, hl, hevents, hp⟩ := Machine.exists_history_of_replay
    (M := anyEvents ⟨false⟩ Disk)
    (s := (startup, ⟨[mountPoint "sda1".toList], [],
      [(devicePath "sda1".toList, mountPoint "sda1".toList),
        (devicePath "sdb1".toList, mountPoint "sda1".toList)]⟩)) rfl
    (List.replicate 1 (.poll (diskShell "sda1".toList)))
    (fun l _ => decide (l.length = 1 ∧ ∀ x ∈ l,
      FindsNewStick (diskShell "sda1".toList) x.before.1 ∧
      ¬ LeftMounted (devicesConnected (diskShell "sda1".toList)) x.before.2))
    (by decide +kernel)
  obtain ⟨hlen, hC⟩ := of_decide_eq_true hp
  refine ⟨l, c, hl, hlen, fun x hx => ?_⟩
  have hpoll : x.event = .poll (diskShell "sda1".toList) :=
    List.eq_of_mem_replicate (hevents ▸ List.mem_map_of_mem hx)
  have hmounted := ((mounted_iff hl hx hpoll rfl (hC x hx).1).mpr (hC x hx).2).2
  rwa [show devicesConnected (diskShell "sda1".toList) = "sda1".toList by decide +kernel]
    at hmounted

/-- After a crash that left the stick mounted, the next insertion unmounts it for good. -/
theorem leftover_mount_not_mounted :
    ¬ ∃ qt : Qt, ∀ l c, (anyEvents qt Disk).History l c → ∀ x ∈ l, ∀ sh : Shell Disk,
      x.event = .poll sh → sh.system = Disk.system → FindsNewStick sh x.before.1 →
        x.after.2.Mounted (devicePath (devicesConnected sh))
          (mountPoint (devicesConnected sh)) := by
  rintro ⟨⟨rewinds⟩, hall⟩
  obtain ⟨l, c, hl, hevents, hp⟩ := Machine.exists_history_of_replay
    (M := anyEvents ⟨rewinds⟩ Disk)
    (s := (startup, ⟨[mountPoint "sda1".toList], [],
      [(devicePath "sda1".toList, mountPoint "sda1".toList)]⟩)) rfl
    (List.replicate 1 (.poll (diskShell "sda1".toList)))
    (fun l _ => decide (∃ x ∈ l, FindsNewStick (diskShell "sda1".toList) x.before.1 ∧
      ¬ x.after.2.Mounted (devicePath (devicesConnected (diskShell "sda1".toList)))
        (mountPoint (devicesConnected (diskShell "sda1".toList)))))
    (by cases rewinds <;> decide +kernel)
  obtain ⟨x, hx, hnew, hnot⟩ := of_decide_eq_true hp
  have hpoll : x.event = .poll (diskShell "sda1".toList) :=
    List.eq_of_mem_replicate (hevents ▸ List.mem_map_of_mem hx)
  exact hnot (hall l c hl x hx _ hpoll rfl hnew)

end Infotainment
