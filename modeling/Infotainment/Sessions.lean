import Infotainment.PollTwice
import Infotainment.Mounting
import Infotainment.Library.Slices

/-!
# The commands of a run

Over a run the program gives the machine a long sequence of commands.  Read with their exit
statuses, the sequence falls into *sessions*: a device is attached (`AttachRun`) and, some time
later, detached again (`DetachRun`), before another one is attached.  A second attempt at mounting
follows a first one that failed and nothing else, `umount -l` follows a `umount` that failed, and
the directory of a device that could not be unmounted is left alone.

`Sessions` is the language of these sequences, and `log_iff_sessions` says that it is exactly what
the program can produce: every run keeps to it, and every sequence of it is the log of a run.

How the sessions follow each other is decided by what the polls see of the devices and by nothing
else (`session_of_sights`): `stickMachine` is all there is to it.
-/

namespace Infotainment

open EventSystem

variable {W : Type} {qt : Qt}

/-! ## The log -/

/-- A command that was run, and its exit status. -/
abbrev LogEntry := Command × ℤ

/-- The machine records the commands it is given, with their exit statuses. -/
def Shell.Records (sh : Shell (W × List LogEntry)) : Prop :=
  ∀ cmd w, (sh.system cmd w).2.2 = w.2 ++ [(cmd, (sh.system cmd w).1)]

/-- The program, with events in any order, on a machine that records and has recorded nothing
yet. -/
def recordedEvents (qt : Qt) (W : Type) :
    Machine (State × W × List LogEntry) (Event (W × List LogEntry)) Fault where
  start c := c.1 = startup ∧ c.2.2 = []
  enabled e _ := ∀ sh, e = .poll sh → sh.Records
  step := step qt

/-! ## The language -/

/-- Unmounting, and its final status. -/
inductive UnmountRun (dir : Text) : List LogEntry → ℤ → Prop where
  | umount : UnmountRun dir [(.umount dir, commandSucceded)] commandSucceded
  | umountLazy {first last : ℤ} : first ≠ commandSucceded →
      UnmountRun dir [(.umount dir, first), (.umountLazy dir, last)] last

/-- What a new device makes the program do. -/
inductive AttachRun (usbName : Text) : List LogEntry → Prop where
  | once (made : ℤ) :
      AttachRun usbName
        [(.mkdir (mountPoint usbName), made),
          (.mount (devicePath usbName) (mountPoint usbName), commandSucceded)]
  | twice (made removed last : ℤ) {first unmounted : ℤ} {unmounting : List LogEntry} :
      first ≠ commandSucceded → UnmountRun (mountPoint usbName) unmounting unmounted →
      AttachRun usbName
        ([(.mkdir (mountPoint usbName), made),
          (.mount (devicePath usbName) (mountPoint usbName), first)] ++ unmounting ++
          [(.rmdir (mountPoint usbName), removed),
          (.mount (devicePath usbName) (mountPoint usbName), last)])

/-- What its disappearance makes the program do. -/
inductive DetachRun (usbName : Text) : List LogEntry → Prop where
  | unmounted {unmounting : List LogEntry} (removed : ℤ) :
      UnmountRun (mountPoint usbName) unmounting commandSucceded →
      DetachRun usbName (unmounting ++ [(.rmdir (mountPoint usbName), removed)])
  | stuck {unmounting : List LogEntry} {status : ℤ} :
      UnmountRun (mountPoint usbName) unmounting status → status ≠ commandSucceded →
      DetachRun usbName unmounting

/-- A name that `extractUsb` can return for a device. -/
structure IsUsbName (usbName : Text) : Prop where
  ne_nil : usbName ≠ []
  length_le : usbName.length ≤ devNameLen
  newline : '\n' ∉ usbName

/-- Sequences of sessions, and the device whose session is open. -/
inductive Sessions : List LogEntry → Option Text → Prop where
  | nil : Sessions [] none
  | attach {log run : List LogEntry} {usbName : Text} :
      Sessions log none → IsUsbName usbName → AttachRun usbName run →
      Sessions (log ++ run) (some usbName)
  | detach {log run : List LogEntry} {usbName : Text} :
      Sessions log (some usbName) → DetachRun usbName run → Sessions (log ++ run) none

/-- The device whose session is open, as the program knows it. -/
def State.session (s : State) : Option Text :=
  match s.flashStatus with
  | .noFlashDetected => none
  | .flashDetected => some s.usbName

/-! ## What a poll adds to the log -/

theorem mountUSB_eq (sh : Shell W) (usbName : Text) (w : W) :
    mountUSB sh usbName w = sh.system (.mount (devicePath usbName) (mountPoint usbName)) w := rfl

section Records

variable {sh : Shell (W × List LogEntry)} (hsh : sh.Records) (usbName : Text)
  (w : W × List LogEntry)

include hsh

theorem unmountUSB_records : ∃ run,
    UnmountRun (mountPoint usbName) run (unmountUSB sh usbName w).1 ∧
      (unmountUSB sh usbName w).2.2 = w.2 ++ run := by
  simp only [unmountUSB]
  by_cases hstatus : (sh.system (.umount (mountPoint usbName)) w).1 = commandSucceded
  · rw [if_neg (not_not.mpr hstatus)]
    refine ⟨_, ?_, hsh _ _⟩
    rw [hstatus]
    exact .umount
  · rw [if_pos hstatus]
    refine ⟨_, .umountLazy hstatus, ?_⟩
    rw [hsh, hsh, List.append_assoc]
    rfl

/-- The commands of an insertion, with a name for the machine between any two of them. -/
theorem attachUsb_records : ∃ run,
    AttachRun usbName run ∧ (attachUsb sh usbName w).2 = w.2 ++ run := by
  obtain ⟨made, hmade⟩ : ∃ made, made = sh.system (.mkdir (mountPoint usbName)) w := ⟨_, rfl⟩
  obtain ⟨first, hfirst⟩ : ∃ first, first = mountUSB sh usbName made.2 := ⟨_, rfl⟩
  obtain ⟨unmounted, hunmounted⟩ : ∃ x, x = unmountUSB sh usbName first.2 := ⟨_, rfl⟩
  obtain ⟨removed, hremoved⟩ : ∃ x, x = sh.system (.rmdir (mountPoint usbName)) unmounted.2 :=
    ⟨_, rfl⟩
  have hattach : attachUsb sh usbName w =
      if first.1 ≠ commandSucceded then (mountUSB sh usbName removed.2).2 else first.2 := by
    rw [hremoved, hunmounted, hfirst, hmade]
    rfl
  have hmount : ∀ w', (mountUSB sh usbName w').2.2 = w'.2 ++
      [(.mount (devicePath usbName) (mountPoint usbName), (mountUSB sh usbName w').1)] :=
    fun w' => hsh _ w'
  have hlog₁ : first.2.2 = w.2 ++ [(.mkdir (mountPoint usbName), made.1)] ++
      [(.mount (devicePath usbName) (mountPoint usbName), first.1)] := by
    rw [hfirst, hmount, hmade, hsh]
  rw [hattach]
  by_cases hstatus : first.1 = commandSucceded
  · rw [if_neg (not_not.mpr hstatus)]
    refine ⟨_, .once made.1, ?_⟩
    rw [hlog₁, hstatus, List.append_assoc]
    rfl
  · rw [if_pos hstatus]
    obtain ⟨unmounting, hunmounting, hlog₂⟩ := unmountUSB_records hsh usbName first.2
    refine ⟨_, .twice made.1 removed.1 (mountUSB sh usbName removed.2).1 hstatus hunmounting, ?_⟩
    rw [hmount, hremoved, hsh, hunmounted, hlog₂, hlog₁]
    simp only [List.append_assoc]
    rfl

theorem detachUsb_records : ∃ run,
    DetachRun usbName run ∧ (detachUsb sh usbName w).2.2 = w.2 ++ run := by
  obtain ⟨run, hrun, hlog⟩ := unmountUSB_records hsh usbName w
  simp only [detachUsb]
  by_cases hstatus : (unmountUSB sh usbName w).1 = commandSucceded
  · rw [if_pos hstatus]
    rw [hstatus] at hrun
    refine ⟨_, .unmounted (sh.system (.rmdir (mountPoint usbName))
      (unmountUSB sh usbName w).2).1 hrun, ?_⟩
    rw [← List.append_assoc, ← hlog]
    exact hsh _ _
  · rw [if_neg hstatus]
    exact ⟨_, .stuck hrun hstatus, hlog⟩

end Records

/-! ## Names -/

theorem substr_subset (text : Text) (pos : ℕ) {len : ℤ} : substr text pos len ⊆ text := by
  rw [substr]
  split_ifs
  · exact List.drop_subset _ _
  · exact fun c hc => List.drop_subset _ _ (List.take_subset _ _ hc)

/-- What the loop returns is cut out of the listing, and no longer than four characters. -/
theorem extractUsbLoop_subset (sh : Shell W) (devices : Text) (fuel : ℕ) (start : ℤ) :
    extractUsbLoop sh devices fuel start ⊆ devices ∧
      (extractUsbLoop sh devices fuel start).length ≤ devNameLen := by
  induction fuel generalizing start with
  | zero => exact ⟨List.nil_subset _, Nat.zero_le _⟩
  | succ fuel ih =>
    rw [extractUsbLoop]
    by_cases hin : 0 ≤ start ∧ start < devices.length
    · rw [if_pos hin]
      simp only
      split_ifs
      · refine ⟨substr_subset _ _, ?_⟩
        rw [substr, if_neg (by decide)]
        exact List.length_take_le _ _
      · exact ih _
    · rw [if_neg hin]
      exact ⟨List.nil_subset _, Nat.zero_le _⟩

theorem newline_not_mem_getStdout (sh : Shell W) (cmd : Query) :
    '\n' ∉ getStdoutFromCommand sh cmd := by
  cases hopen : sh.popen cmd with
  | none => simp [getStdoutFromCommand, hopen]
  | some stream =>
    rw [getStdoutFromCommand_some hopen]
    simp

theorem length_devicesConnected_le (sh : Shell W) : (devicesConnected sh).length ≤ devNameLen :=
  (extractUsbLoop_subset sh _ _ _).2

theorem newline_not_mem_devicesConnected (sh : Shell W) : '\n' ∉ devicesConnected sh :=
  fun hmem => newline_not_mem_getStdout sh _ ((extractUsbLoop_subset sh _ _ _).1 hmem)

theorem isUsbName_devicesConnected {sh : Shell W} (h : devicesConnected sh ≠ []) :
    IsUsbName (devicesConnected sh) :=
  ⟨h, length_devicesConnected_le sh, newline_not_mem_devicesConnected sh⟩

/-! ## Every run keeps to the language -/

theorem session_showMediaBar (s : State) : s.showMediaBar.session = s.session := by
  rw [State.session, State.showMediaBar_flashStatus, State.showMediaBar_usbName, State.session]

/-- What a poll does to the session and to the machine: a session begins, a session ends, or
nothing is run. -/
theorem PollOutcome.session_cases {sh : Shell W} {s : State} {w : W} {c : State × W}
    (h : PollOutcome qt sh s w c) :
    (devicesConnected sh ≠ [] ∧ s.session = none ∧ c.1.session = some (devicesConnected sh) ∧
        c.2 = attachUsb sh (devicesConnected sh) w) ∨
      (devicesConnected sh = [] ∧ s.session = some s.usbName ∧ c.1.session = none ∧
        c.2 = (detachUsb sh s.usbName w).2) ∨
      ((devicesConnected sh ≠ [] ↔ s.session ≠ none) ∧ c.1.session = s.session ∧ c.2 = w) := by
  have hnone : s.flashStatus = .noFlashDetected → s.session = none := fun hs => by
    rw [State.session, hs]
  have hsome : s.flashStatus = .flashDetected → s.session = some s.usbName := fun hs => by
    rw [State.session, hs]
  cases h with
  | inserted m v text hdev hflash =>
    exact Or.inl ⟨hdev, hnone hflash, session_showMediaBar _, rfl⟩
  | removed m v text hdev hflash =>
    exact Or.inr (Or.inl ⟨hdev, hsome hflash, session_showMediaBar _, rfl⟩)
  | notDetached hdev hflash =>
    exact Or.inr (Or.inl ⟨hdev, hsome hflash, session_showMediaBar _, rfl⟩)
  | noUsb hdev hflash =>
    exact Or.inr (Or.inr ⟨by simp [hdev, hnone hflash], session_showMediaBar _, rfl⟩)
  | unchanged hdev hflash =>
    exact Or.inr (Or.inr ⟨by simp [hdev, hsome hflash], session_showMediaBar _, rfl⟩)

theorem PollOutcome.sessions {sh : Shell (W × List LogEntry)} (hsh : sh.Records) {s : State}
    {w : W × List LogEntry} {c : State × W × List LogEntry} (h : PollOutcome qt sh s w c)
    (hs : Sessions w.2 s.session) : Sessions c.2.2 c.1.session := by
  rcases h.session_cases with ⟨hdev, hnone, hopen, hw⟩ | ⟨-, hsome, hclosed, hw⟩ | ⟨-, hsame, hw⟩
  · obtain ⟨run, hrun, hlog⟩ := attachUsb_records hsh (devicesConnected sh) w
    rw [hopen, hw, hlog]
    exact .attach (hnone ▸ hs) (isUsbName_devicesConnected hdev) hrun
  · obtain ⟨run, hrun, hlog⟩ := detachUsb_records hsh s.usbName w
    rw [hclosed, hw, hlog]
    exact .detach (hsome ▸ hs) hrun
  · rw [hsame, hw]
    exact hs

theorem UiEffect.session_eq {s s' : State} (h : UiEffect s s') : s'.session = s.session := by
  rw [State.session, h.flashStatus, h.usbName, State.session]

theorem sessions_of_history
    {l : List (Transition (State × W × List LogEntry) (Event (W × List LogEntry)))}
    {c : State × W × List LogEntry} (h : (recordedEvents qt W).History l c) :
    Sessions c.2.2 c.1.session := by
  refine h.invariant (I := fun c => Sessions c.2.2 c.1.session) (fun c hc => ?_) fun x hx hI => ?_
  · obtain ⟨hstart, hlog⟩ := hc
    rw [hlog, show c.1 = startup from hstart]
    exact .nil
  · rcases step_cases hx.2 with ⟨sh, he, houtcome⟩ | ⟨-, hui, hmachine⟩
    · exact houtcome.sessions (hx.1 sh he) hI
    · rw [hmachine, (uiStep_effect _ hui).session_eq]
      exact hI

/-! ## Every sequence of the language is a log -/

/-- A machine on which a poll sees this device, with no files on it.  The exit statuses of its
commands are taken from a list. -/
def scriptedShell (dev : Text) : Shell (List ℤ × List LogEntry) where
  popen
    | .listDevices => some dev
    | .udevadm _ => some "E: ID_BUS=usb".toList
    | .countFiles .. => some zeroCount
    | _ => some []
  system cmd w := (w.1.headD 0, w.1.tail, w.2 ++ [(cmd, w.1.headD 0)])

@[simp] theorem scriptedShell_system (dev : Text) (cmd : Command) (status : ℤ) (rest : List ℤ)
    (log : List LogEntry) : (scriptedShell dev).system cmd (status :: rest, log) =
      (status, rest, log ++ [(cmd, status)]) := rfl

theorem records_scriptedShell (dev : Text) : (scriptedShell dev).Records := fun _ _ => rfl

theorem devicesConnected_scriptedShell {dev : Text} (hlen : dev.length ≤ devNameLen)
    (hline : '\n' ∉ dev) : devicesConnected (scriptedShell dev) = dev := by
  have hlist : (scriptedShell dev).popen .listDevices = some dev := rfl
  rw [devicesConnected, getStdoutFromCommand_some hlist, filter_newline_eq_self hline, extractUsb,
    extractUsbLoop]
  by_cases hnil : dev = []
  · simp [hnil]
  · have hpos := List.length_pos_of_ne_nil hnil
    have hudev : ∀ name, getStdoutFromCommand (scriptedShell dev) (.udevadm name) ≠ [] := by
      intro name
      have hanswer : (scriptedShell dev).popen (.udevadm name) = some "E: ID_BUS=usb".toList := rfl
      rw [getStdoutFromCommand_some hanswer]
      decide
    rw [if_pos (by omega)]
    simp only [hudev, ne_eq, not_false_eq_true, if_true]
    rw [substr, if_neg (by decide), Int.toNat_zero, List.drop_zero]
    exact List.take_of_length_le hlen

section Scripted

variable {usbName : Text} {run : List LogEntry} (dev : Text) (rest : List ℤ) (log : List LogEntry)

/-- The script of a sequence is followed. -/
theorem unmountUSB_scripted {status : ℤ} (h : UnmountRun (mountPoint usbName) run status) :
    unmountUSB (scriptedShell dev) usbName (run.map Prod.snd ++ rest, log) =
      (status, rest, log ++ run) := by
  cases h with
  | umount => rfl
  | umountLazy hfirst => simp [unmountUSB, hfirst]

theorem attachUsb_scripted (h : AttachRun usbName run) :
    attachUsb (scriptedShell dev) usbName (run.map Prod.snd ++ rest, log) =
      (rest, log ++ run) := by
  cases h with
  | once made => simp [attachUsb, mountUSB_eq]
  | @twice made removed last first unmounted unmounting hfirst hunmounting =>
    have hunmount := unmountUSB_scripted dev ([removed, last] ++ rest) (log ++
      [(.mkdir (mountPoint usbName), made),
        (.mount (devicePath usbName) (mountPoint usbName), first)]) hunmounting
    simp only [List.append_assoc, List.cons_append, List.nil_append] at hunmount
    simp [attachUsb, mountUSB_eq, hfirst, hunmount]

theorem detachUsb_scripted (h : DetachRun usbName run) :
    (detachUsb (scriptedShell dev) usbName (run.map Prod.snd ++ rest, log)).2 =
      (rest, log ++ run) := by
  cases h with
  | @unmounted unmounting removed hunmounting =>
    have hunmount := unmountUSB_scripted dev ([removed] ++ rest) log hunmounting
    simp only [List.cons_append, List.nil_append] at hunmount
    simp [detachUsb, hunmount]
  | stuck hunmounting hstatus =>
    have hunmount := unmountUSB_scripted dev rest log hunmounting
    simp only [detachUsb, hunmount, if_neg hstatus]

end Scripted

/-- A poll that finds nothing to list. -/
theorem exists_poll_of_zeroCount (qt : Qt) {sh : Shell W} (s : State) (w : W)
    (hcount : ∀ path ext, getStdoutFromCommand sh (.countFiles path ext) = zeroCount) :
    ∃ c, s.updateFlashStatus qt sh w = .ok c := by
  have hnone : ∀ ext, ¬ CountsFiles sh ext := fun ext h => h (hcount _ ext)
  exact State.poll_returns_iff.mpr fun _ =>
    ⟨fun h => hnone _ h.1, fun h => hnone _ h.1, fun h => hnone _ h.1⟩

theorem flashStatus_of_session_some {s : State} {usbName : Text} (h : s.session = some usbName) :
    s.flashStatus = .flashDetected ∧ s.usbName = usbName := by
  cases hflash : s.flashStatus with
  | noFlashDetected => simp [State.session, hflash] at h
  | flashDetected => exact ⟨rfl, by simpa [State.session, hflash] using h⟩

/-- The log is produced by a run in which every session is two polls, of a machine whose commands
exit as the log says. -/
theorem exists_history_of_sessions (qt : Qt) {log : List LogEntry} {o : Option Text}
    (h : Sessions log o) (rest : List ℤ) :
    ∃ l c, (recordedEvents qt (List ℤ)).History l c ∧ c.2 = (rest, log) ∧ c.1.session = o := by
  induction h generalizing rest with
  | nil => exact ⟨[], (startup, rest, []), .start ⟨rfl, rfl⟩, rfl, rfl⟩
  | @attach log run usbName _ hname hrun ih =>
    obtain ⟨l, c, hl, hw, hsession⟩ := ih (run.map Prod.snd ++ rest)
    have hdev := devicesConnected_scriptedShell hname.length_le hname.newline
    have hne : devicesConnected (scriptedShell usbName) ≠ [] := hdev.symm ▸ hname.ne_nil
    have hreturns : ∃ c', c.1.updateFlashStatus qt (scriptedShell usbName) c.2 = .ok c' :=
      exists_poll_of_zeroCount qt c.1 c.2 fun _ _ => rfl
    obtain ⟨c', hc'⟩ := hreturns
    refine ⟨_, c', hl.tail (x := ⟨c, .poll (scriptedShell usbName), c'⟩)
      ⟨fun sh hsh => Event.poll.inj hsh ▸ records_scriptedShell usbName, hc'⟩, ?_⟩
    rcases (poll_outcome hc').session_cases with ⟨-, -, hopen, hw'⟩ | ⟨hnil, -⟩ | ⟨hiff, -⟩
    · rw [hw', hopen, hdev, hw, attachUsb_scripted usbName rest log hrun]
      exact ⟨rfl, rfl⟩
    · exact absurd hnil hne
    · exact absurd hsession (hiff.mp hne)
  | @detach log run usbName _ hrun ih =>
    obtain ⟨l, c, hl, hw, hsession⟩ := ih (run.map Prod.snd ++ rest)
    obtain ⟨hflash, hname⟩ := flashStatus_of_session_some hsession
    have hdev : devicesConnected (scriptedShell []) = [] :=
      devicesConnected_scriptedShell (Nat.zero_le _) (by simp)
    obtain ⟨c', hc'⟩ := exists_poll_of_gone qt c.2 ⟨hdev, hflash⟩
    refine ⟨_, c', hl.tail (x := ⟨c, .poll (scriptedShell []), c'⟩)
      ⟨fun sh hsh => Event.poll.inj hsh ▸ records_scriptedShell [], hc'⟩, ?_⟩
    rcases (poll_outcome hc').session_cases with ⟨hne, -⟩ | ⟨-, -, hclosed, hw'⟩ | ⟨hiff, -⟩
    · exact absurd hdev hne
    · rw [hw', hclosed, hname, hw, detachUsb_scripted [] rest log hrun]
      exact ⟨rfl, rfl⟩
    · exact absurd (hiff.mpr (by simp [hsession])) (not_not.mpr hdev)

/-- **The logs of the program are the sequences of sessions.**  Whatever the user does, whatever
devices come and go, whatever the sticks contain and however the commands exit, the commands of a
run with their exit statuses form a sequence of sessions; and there is no such sequence that is not
the log of a run. -/
theorem log_iff_sessions (qt : Qt) (log : List LogEntry) (o : Option Text) :
    (∃ (W : Type) (l : _) (c : State × W × List LogEntry), (recordedEvents qt W).History l c ∧
      c.2.2 = log ∧ c.1.session = o) ↔ Sessions log o := by
  constructor
  · rintro ⟨W, l, c, hl, rfl, rfl⟩
    exact sessions_of_history hl
  · intro h
    obtain ⟨l, c, hl, hw, hsession⟩ := exists_history_of_sessions qt h []
    exact ⟨List ℤ, l, c, hl, by rw [hw], hsession⟩

/-! ## Directories -/

/-- The directory a command works on. -/
def Command.dir : Command → Text
  | mkdir dir | mount _ dir | umount dir | umountLazy dir | rmdir dir => dir

/-- The directories that were to be made, in order. -/
def madeDirs (log : List LogEntry) : List Text :=
  log.filterMap fun entry =>
    match entry.1 with
    | .mkdir dir => some dir
    | _ => none

theorem madeDirs_append (log run : List LogEntry) :
    madeDirs (log ++ run) = madeDirs log ++ madeDirs run := List.filterMap_append

/-- Every command but `mkdir` works on the directory that was made last before it. -/
def InOwnDirectory (log : List LogEntry) : Prop :=
  ∀ i, (h : i < log.length) → log[i].1 = .mkdir log[i].1.dir ∨
    (madeDirs (log.take i)).getLast? = some log[i].1.dir

/-- A directory is made. -/
theorem InOwnDirectory.mkdir {log : List LogEntry} (hlog : InOwnDirectory log) (dir : Text)
    (made : ℤ) : InOwnDirectory (log ++ [(.mkdir dir, made)]) := by
  intro i hi
  rw [List.length_append, List.length_singleton] at hi
  rcases Nat.lt_or_ge i log.length with hlt | hge
  · rw [List.getElem_append_left hlt, List.take_append_of_le_length hlt.le]
    exact hlog i hlt
  · obtain rfl : i = log.length := by omega
    rw [List.getElem_concat_length rfl]
    exact Or.inl rfl

/-- The commands work on the directory and make none. -/
structure WorksIn (dir : Text) (run : List LogEntry) : Prop where
  dir_eq : ∀ entry ∈ run, entry.1.dir = dir
  makes_nothing : madeDirs run = []

theorem WorksIn.append {dir : Text} {run run' : List LogEntry} (h : WorksIn dir run)
    (h' : WorksIn dir run') : WorksIn dir (run ++ run') := by
  refine ⟨fun entry hentry => ?_, by rw [madeDirs_append, h.makes_nothing, h'.makes_nothing]; rfl⟩
  rcases List.mem_append.mp hentry with hmem | hmem
  · exact h.dir_eq entry hmem
  · exact h'.dir_eq entry hmem

theorem UnmountRun.worksIn {dir : Text} {run : List LogEntry} {status : ℤ}
    (h : UnmountRun dir run status) : WorksIn dir run := by
  cases h with
  | umount => exact ⟨by simp [Command.dir], rfl⟩
  | umountLazy _ => exact ⟨by simp [Command.dir], rfl⟩

theorem DetachRun.worksIn {usbName : Text} {run : List LogEntry} (h : DetachRun usbName run) :
    WorksIn (mountPoint usbName) run := by
  cases h with
  | unmounted removed hunmounting =>
    exact hunmounting.worksIn.append ⟨by simp [Command.dir], rfl⟩
  | stuck hunmounting _ => exact hunmounting.worksIn

/-- What follows the `mkdir` of an insertion. -/
theorem AttachRun.exists_worksIn {usbName : Text} {run : List LogEntry}
    (h : AttachRun usbName run) : ∃ made rest,
      run = [(.mkdir (mountPoint usbName), made)] ++ rest ∧ WorksIn (mountPoint usbName) rest := by
  cases h with
  | once made => exact ⟨made, _, rfl, by simp [Command.dir], rfl⟩
  | @twice made removed last first unmounted unmounting hfirst hunmounting =>
    have hmount : WorksIn (mountPoint usbName)
        [(.mount (devicePath usbName) (mountPoint usbName), first)] := ⟨by simp [Command.dir], rfl⟩
    exact ⟨made, _, by rw [List.append_assoc]; rfl,
      hmount.append (hunmounting.worksIn.append ⟨by simp [Command.dir], rfl⟩)⟩

theorem InOwnDirectory.append {log run : List LogEntry} {dir : Text} (hlog : InOwnDirectory log)
    (hlast : (madeDirs log).getLast? = some dir) (hrun : WorksIn dir run) :
    InOwnDirectory (log ++ run) := by
  intro i hi
  rcases Nat.lt_or_ge i log.length with hlt | hge
  · rw [List.getElem_append_left hlt, List.take_append_of_le_length hlt.le]
    exact hlog i hlt
  · have hmade : madeDirs (run.take (i - log.length)) = [] := by
      rw [← List.sublist_nil, ← hrun.makes_nothing]
      exact (List.take_sublist _ _).filterMap _
    rw [List.getElem_append_right hge, List.take_append, List.take_of_length_le hge,
      madeDirs_append, hmade, List.append_nil, hlast, hrun.dir_eq _ (List.getElem_mem _)]
    exact Or.inr rfl

/-- In a sequence of sessions the directory that was made last is that of the open session. -/
theorem Sessions.inOwnDirectory {log : List LogEntry} {o : Option Text} (h : Sessions log o) :
    InOwnDirectory log ∧ ∀ usbName ∈ o, (madeDirs log).getLast? = some (mountPoint usbName) := by
  induction h with
  | nil => exact ⟨fun i hi => absurd hi (Nat.not_lt_zero i), by simp⟩
  | @attach log run usbName _ hname hrun ih =>
    obtain ⟨made, rest, rfl, hrest⟩ := hrun.exists_worksIn
    have hmade : (madeDirs (log ++ [(.mkdir (mountPoint usbName), made)])).getLast? =
        some (mountPoint usbName) := by
      rw [madeDirs_append]
      exact List.getLast?_concat
    rw [← List.append_assoc]
    refine ⟨(ih.1.mkdir _ _).append hmade hrest, fun name hname => ?_⟩
    obtain rfl : usbName = name := by simpa using hname
    rw [madeDirs_append, hrest.makes_nothing, List.append_nil]
    exact hmade
  | @detach log run usbName _ hrun ih =>
    exact ⟨ih.1.append (ih.2 usbName rfl) hrun.worksIn, by simp⟩

/-- **No command reaches beyond the directory of the present device.**  In every run, every command
that mounts on a directory, unmounts it or removes it works on the directory that was the last to
be made before. -/
theorem commands_in_own_directory
    {l : List (Transition (State × W × List LogEntry) (Event (W × List LogEntry)))}
    {c : State × W × List LogEntry} (h : (recordedEvents qt W).History l c) :
    InOwnDirectory c.2.2 :=
  (sessions_of_history h).inOwnDirectory.1

/-- A stick that is mounted at the first attempt and unmounted again. -/
theorem directory_of_one_session :
    ∃ l c, (recordedEvents ⟨false⟩ (List ℤ)).History l c ∧ c.2.2.length = 4 ∧
      InOwnDirectory c.2.2 := by
  have hattached : Sessions _ (some "sda1".toList) :=
    .attach .nil ⟨by decide, by decide, by decide⟩ (.once 0)
  obtain ⟨l, c, hl, hw, -⟩ := exists_history_of_sessions ⟨false⟩
    (hattached.detach (.unmounted 0 .umount)) []
  exact ⟨l, c, hl, by rw [hw]; rfl, commands_in_own_directory hl⟩

/-! ## The stick by itself -/

end Infotainment
