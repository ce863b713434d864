import Infotainment.Library.ShellWords
import Infotainment.Sessions
import Infotainment.BluetoothDetection

/-!
# The texts of the commands

A `Query` or a `Command` says what is to be run; the program passes a text.  Here are the texts,
as the slots put them together, and what a shell reads in them.

Nothing in the program quotes a name, so that the text is split into the words that were meant only
if the name has no character that means something there.  `usb_texts_read_iff` is that this is the
exact condition for everything that is built from the name of a device, and `log_read_as_meant` that
it is enough to know the device listings: over a whole run each of the five commands that the flash
poll changes the machine with then is one program, with the words it was given.  The address of a
bluetooth device needs no such condition (`name_query_read`), because the regular expression lets
nothing else through.

All of this is about the splitting into words.  What a shell does with a word afterwards, such as
matching it as a pattern against the names of files, is not.

What is printed on standard error is only merged into the output of the last program of a
pipeline; so `2>&1` is read (`Query.back`).
-/

namespace Infotainment

open EventSystem ShellWords

variable {W : Type} {qt : Qt}

/-! ## Texts -/

def Query.text : Query → Text
  | listDevices => "ls /dev/ | grep sd[a-z][0-9]".toList
  | udevadm dev => "udevadm info --query=all --name=".toList ++ dev ++ " | grep usb".toList
  | countFiles path ext =>
    "ls ".toList ++ path ++ " | grep ".toList ++ ext ++ " | wc -l".toList
  | findFiles path ext =>
    "find ".toList ++ path ++ " -type f -name '*".toList ++ ext ++ "'".toList
  | hcitoolCon => "hcitool con".toList
  | hcitoolName addr => "hcitool name ".toList ++ addr

/-- `cmd.append(" 2>&1")` -/
def Query.popenText (q : Query) : Text := q.text ++ " 2>&1".toList

def Command.text : Command → Text
  | mkdir dir => "mkdir ".toList ++ dir
  | mount dev dir => "mount ".toList ++ dev ++ " ".toList ++ dir
  | umount dir => "umount ".toList ++ dir
  | umountLazy dir => "umount -l ".toList ++ dir
  | rmdir dir => "rmdir ".toList ++ dir

/-- `"mount /dev/" + usbName + " /media/" + usbName` -/
theorem text_mount (usbName : Text) :
    (Command.mount (devicePath usbName) (mountPoint usbName)).text =
      "mount /dev/".toList ++ usbName ++ " /media/".toList ++ usbName := by
  have hmount : "mount /dev/".toList = "mount ".toList ++ "/dev/".toList := by simp
  have hmedia : " /media/".toList = " ".toList ++ "/media/".toList := by simp
  unfold Command.text devicePath mountPoint
  rw [hmount, hmedia]
  simp only [List.append_assoc]

/-! ## What is meant -/

/-- A word without quotes. -/
def argument (t : Text) : Token := .word (bare t)

/-- `2>&1` -/
def mergedErrors : List Token := [.stream ['2'], .operator ['>', '&'], argument ['1']]

/-- The programs of a query whose output goes into another one. -/
def Query.front : Query → List (List Token)
  | listDevices => [[argument "ls".toList, argument "/dev/".toList]]
  | udevadm dev =>
    [[argument "udevadm".toList, argument "info".toList, argument "--query=all".toList,
      argument ("--name=".toList ++ dev)]]
  | countFiles path ext =>
    [[argument "ls".toList, argument path], [argument "grep".toList, argument ext]]
  | findFiles .. | hcitoolCon | hcitoolName _ => []

/-- The program whose output is read. -/
def Query.back : Query → List Token
  | listDevices => [argument "grep".toList, argument "sd[a-z][0-9]".toList]
  | udevadm _ => [argument "grep".toList, argument "usb".toList]
  | countFiles .. => [argument "wc".toList, argument "-l".toList]
  | findFiles path ext =>
    [argument "find".toList, argument path, argument "-type".toList, argument "f".toList,
      argument "-name".toList, .word (quoted ("*".toList ++ ext))]
  | hcitoolCon => [argument "hcitool".toList, argument "con".toList]
  | hcitoolName addr => [argument "hcitool".toList, argument "name".toList, argument addr]

def Command.program : Command → List Token
  | mkdir dir => [argument "mkdir".toList, argument dir]
  | mount dev dir => [argument "mount".toList, argument dev, argument dir]
  | umount dir => [argument "umount".toList, argument dir]
  | umountLazy dir => [argument "umount".toList, argument "-l".toList, argument dir]
  | rmdir dir => [argument "rmdir".toList, argument dir]

/-- The shell reads the programs that are meant, with standard error merged into the output of the
last one. -/
def Query.ReadAsMeant (q : Query) : Prop :=
  programs q.popenText = some (q.front ++ [q.back ++ mergedErrors])

/-- The shell reads one program. -/
def Command.ReadAsMeant (cmd : Command) : Prop := programs cmd.text = some [cmd.program]

instance (q : Query) : Decidable q.ReadAsMeant := inferInstanceAs (Decidable (_ = _))

instance (cmd : Command) : Decidable cmd.ReadAsMeant := inferInstanceAs (Decidable (_ = _))

/-! ## Reading them -/

/-- It needs no quotes. -/
structure IsArgument (t : Text) : Prop where
  ne_nil : t ≠ []
  not_comment : t.head? ≠ some '#'
  plain : ∀ c ∈ t, Plain c

theorem IsArgument.append {t u : Text} (h : IsArgument t) (hu : ∀ c ∈ u, Plain c) :
    IsArgument (t ++ u) where
  ne_nil := List.append_ne_nil_of_left_ne_nil h.ne_nil u
  not_comment := by
    rw [List.head?_append_of_ne_nil _ h.ne_nil]
    exact h.not_comment
  plain c hc := (List.mem_append.mp hc).elim (h.plain c) (hu c)

theorem IsArgument.sound {t : Text} (h : IsArgument t) : (bare t).Sound :=
  sound_bare h.ne_nil h.plain h.not_comment

/-- The words in it need no quotes. -/
def Query.Fits : Query → Prop
  | listDevices | hcitoolCon => True
  | udevadm dev => ∀ c ∈ dev, Plain c
  | countFiles path ext => IsArgument path ∧ IsArgument ext
  | findFiles path ext => IsArgument path ∧ '\'' ∉ ext
  | hcitoolName addr => IsArgument addr

theorem Query.print_eq (q : Query) :
    print ([pipe].intercalate (q.front ++ [q.back ++ mergedErrors])) = q.popenText := by
  cases q <;> unfold popenText text <;>
    simp [front, back, mergedErrors, List.intercalate, print, argument,
      Token.text, Token.glued, pipe, printWord_quoted]

instance (t : Text) : Decidable (IsArgument t) :=
  decidable_of_iff (t ≠ [] ∧ t.head? ≠ some '#' ∧ (t.all fun c => decide (Plain c)) = true)
    ⟨fun h => ⟨h.1, h.2.1, forall_mem_of_all h.2.2⟩, fun h => ⟨h.1, h.2, by simpa using h.3⟩⟩

/-- Words and the operators that are used, one after the other. -/
theorem printable_pipe {ts : List Token} (h : Printable ts) : Printable (pipe :: ts) :=
  ⟨Or.inr ⟨'|', rfl, rfl⟩, h⟩

theorem printable_argument {t : Text} {ts : List Token} (ht : IsArgument t) (h : Printable ts) :
    Printable (argument t :: ts) := ⟨ht.sound, h⟩

theorem printable_mergedErrors : Printable mergedErrors := by
  refine ⟨by decide, forall_mem_of_all (by decide), ⟨_, _, rfl, Or.inr rfl⟩, Or.inl (by decide), ?_⟩
  exact printable_argument (by decide) trivial

theorem Query.printable {q : Query} (h : q.Fits) :
    Printable ([pipe].intercalate (q.front ++ [q.back ++ mergedErrors])) := by
  cases q with
  | listDevices =>
    exact printable_argument (by decide) <| printable_argument (by decide) <| printable_pipe <|
      printable_argument (by decide) <| printable_argument (by decide) printable_mergedErrors
  | udevadm dev =>
    have hname : IsArgument ("--name=".toList ++ dev) := IsArgument.append (by decide) h
    exact printable_argument (by decide) <| printable_argument (by decide) <|
      printable_argument (by decide) <| printable_argument hname <| printable_pipe <|
      printable_argument (by decide) <| printable_argument (by decide) printable_mergedErrors
  | countFiles path ext =>
    exact printable_argument (by decide) <| printable_argument h.1 <| printable_pipe <|
      printable_argument (by decide) <| printable_argument h.2 <| printable_pipe <|
      printable_argument (by decide) <| printable_argument (by decide) printable_mergedErrors
  | findFiles path ext =>
    have hpattern : (quoted ("*".toList ++ ext)).Sound :=
      sound_quoted (by simp) (by simpa using h.2)
    exact printable_argument (by decide) <| printable_argument h.1 <|
      printable_argument (by decide) <| printable_argument (by decide) <|
      printable_argument (by decide) ⟨hpattern, printable_mergedErrors⟩
  | hcitoolCon =>
    exact printable_argument (by decide) <| printable_argument (by decide) printable_mergedErrors
  | hcitoolName addr =>
    exact printable_argument (by decide) <| printable_argument (by decide) <|
      printable_argument h printable_mergedErrors

theorem Query.pipe_not_mem (q : Query) :
    ∀ stage ∈ q.front ++ [q.back ++ mergedErrors], pipe ∉ stage := by
  cases q <;> simp [front, back, mergedErrors, argument, pipe]

theorem Query.readAsMeant {q : Query} (h : q.Fits) : q.ReadAsMeant := by
  rw [ReadAsMeant, ← q.print_eq]
  exact programs_print (printable h) q.pipe_not_mem (by simp)

namespace Command

/-- The words in it need no quotes. -/
def Fits : Command → Prop
  | mount dev dir => IsArgument dev ∧ IsArgument dir
  | mkdir dir | umount dir | umountLazy dir | rmdir dir => IsArgument dir

theorem print_eq (cmd : Command) : print cmd.program = cmd.text := by
  cases cmd <;> unfold text <;> simp [program, print, argument, Token.text, Token.glued]

theorem printable {cmd : Command} (h : cmd.Fits) : Printable cmd.program := by
  cases cmd with
  | mkdir dir | umount dir | rmdir dir =>
    exact printable_argument (by decide) <| printable_argument h trivial
  | mount dev dir =>
    exact printable_argument (by decide) <| printable_argument h.1 <|
      printable_argument h.2 trivial
  | umountLazy dir =>
    exact printable_argument (by decide) <| printable_argument (by decide) <|
      printable_argument h trivial

theorem readAsMeant {cmd : Command} (h : cmd.Fits) : cmd.ReadAsMeant := by
  have hpipe : ∀ stage ∈ [cmd.program], pipe ∉ stage := by
    cases cmd <;> simp [program, argument, pipe]
  have hsingle : [pipe].intercalate [cmd.program] = cmd.program := by simp
  have hread := programs_print (by rw [hsingle]; exact printable h) hpipe (by simp)
  rwa [hsingle, print_eq] at hread

end Command

/-! ## The name of a device -/

/-- What is asked about a device that is called so. -/
def usbQueries (dev : Text) : List Query :=
  [.udevadm dev, .countFiles (usbPathOf dev) songsExt, .findFiles (usbPathOf dev) songsExt,
    .countFiles (usbPathOf dev) videosExt, .findFiles (usbPathOf dev) videosExt]

/-- What is done to it. -/
def usbCommands (dev : Text) : List Command :=
  [.mkdir (mountPoint dev), .mount (devicePath dev) (mountPoint dev), .umount (mountPoint dev),
    .umountLazy (mountPoint dev), .rmdir (mountPoint dev)]

section Names

variable {dev : Text}

theorem isArgument_mountPoint (h : ∀ c ∈ dev, Plain c) : IsArgument (mountPoint dev) :=
  IsArgument.append (t := "/media/".toList) (by decide) h

theorem isArgument_usbPathOf (h : ∀ c ∈ dev, Plain c) : IsArgument (usbPathOf dev) :=
  (isArgument_mountPoint h).append (forall_mem_of_all (by decide))

theorem fits_of_mem_usbQueries (h : ∀ c ∈ dev, Plain c) : ∀ q ∈ usbQueries dev, q.Fits := by
  have hpath := isArgument_usbPathOf h
  have hexts : IsArgument songsExt ∧ IsArgument videosExt ∧ '\'' ∉ songsExt ∧
    '\'' ∉ videosExt := by decide
  simp only [usbQueries, List.forall_mem_cons, List.not_mem_nil]
  exact ⟨h, ⟨hpath, hexts.1⟩, ⟨hpath, hexts.2.2.1⟩, ⟨hpath, hexts.2.1⟩, ⟨hpath, hexts.2.2.2⟩,
    by simp⟩

theorem fits_of_mem_usbCommands (h : ∀ c ∈ dev, Plain c) :
    ∀ cmd ∈ usbCommands dev, cmd.Fits := by
  have hdir := isArgument_mountPoint h
  have hdev : IsArgument (devicePath dev) := IsArgument.append (t := "/dev/".toList) (by decide) h
  simp only [usbCommands, List.forall_mem_cons, List.not_mem_nil]
  exact ⟨hdir, ⟨hdev, hdir⟩, hdir, hdir, hdir, by simp⟩

theorem readAsMeant_of_mem_usbCommands (h : ∀ c ∈ dev, Plain c) {cmd : Command}
    (hcmd : cmd ∈ usbCommands dev) : cmd.ReadAsMeant :=
  Command.readAsMeant (fits_of_mem_usbCommands h cmd hcmd)

/-- A name inside a word that was read as it stands. -/
theorem plain_of_argument {s t : Text} {stages : List (List Token)} (ht : dev ⊆ t)
    (h : programs s = some stages) {stage : List Token} (hstage : stage ∈ stages)
    (hw : argument t ∈ stage) : ∀ c ∈ dev, Plain c :=
  fun c hc => barePlain_of_programs h hstage hw c (List.mem_map.mpr ⟨c, ht hc, rfl⟩)

theorem subset_mountPoint : dev ⊆ mountPoint dev := List.subset_append_right _ _

theorem subset_usbPathOf : dev ⊆ usbPathOf dev :=
  List.Subset.trans subset_mountPoint (List.subset_append_left _ _)

theorem plain_of_query {q : Query} (hq : q ∈ usbQueries dev) (h : q.ReadAsMeant) :
    ∀ c ∈ dev, Plain c := by
  have hfront : ∀ ext, (Query.countFiles (usbPathOf dev) ext).ReadAsMeant → ∀ c ∈ dev, Plain c :=
    fun ext h => plain_of_argument subset_usbPathOf h
      (List.mem_append_left _ List.mem_cons_self) (List.mem_cons_of_mem _ List.mem_cons_self)
  have hback : ∀ ext, (Query.findFiles (usbPathOf dev) ext).ReadAsMeant → ∀ c ∈ dev, Plain c :=
    fun ext h => plain_of_argument subset_usbPathOf h
      (List.mem_append_right _ List.mem_cons_self)
      (List.mem_append_left _ (List.mem_cons_of_mem _ List.mem_cons_self))
  simp only [usbQueries, List.mem_cons, List.not_mem_nil, or_false] at hq
  rcases hq with rfl | rfl | rfl | rfl | rfl
  · refine plain_of_argument (List.subset_append_right "--name=".toList dev) h
      (List.mem_append_left _ List.mem_cons_self) ?_
    exact List.mem_cons_of_mem _ (List.mem_cons_of_mem _ (List.mem_cons_of_mem _
      List.mem_cons_self))
  · exact hfront _ h
  · exact hback _ h
  · exact hfront _ h
  · exact hback _ h

theorem plain_of_command {cmd : Command} (hcmd : cmd ∈ usbCommands dev) (h : cmd.ReadAsMeant) :
    ∀ c ∈ dev, Plain c := by
  refine plain_of_argument subset_mountPoint h List.mem_cons_self ?_
  simp only [usbCommands, List.mem_cons, List.not_mem_nil, or_false] at hcmd
  rcases hcmd with rfl | rfl | rfl | rfl | rfl <;> simp [Command.program]

/-- **When the texts say what they are meant to say.**  Everything that is asked about a device and
everything that is done to it is split into the words that were meant exactly if no character of
the device's name means anything there. -/
theorem usb_texts_read_iff (dev : Text) :
    (∀ q ∈ usbQueries dev, q.ReadAsMeant ↔ ∀ c ∈ dev, Plain c) ∧
      ∀ cmd ∈ usbCommands dev, cmd.ReadAsMeant ↔ ∀ c ∈ dev, Plain c :=
  ⟨fun q hq => ⟨plain_of_query hq, fun h => Query.readAsMeant (fits_of_mem_usbQueries h q hq)⟩,
    fun _ hcmd => ⟨plain_of_command hcmd, fun h => readAsMeant_of_mem_usbCommands h hcmd⟩⟩

end Names

/-! ## Over a run -/

theorem UnmountRun.forall_mem {usbName : Text} {run : List LogEntry} {status : ℤ}
    (h : UnmountRun (mountPoint usbName) run status) :
    ∀ entry ∈ run, entry.1 ∈ usbCommands usbName := by
  cases h <;> simp [usbCommands]

theorem AttachRun.forall_mem {usbName : Text} {run : List LogEntry} (h : AttachRun usbName run) :
    ∀ entry ∈ run, entry.1 ∈ usbCommands usbName := by
  cases h with
  | once made => simp [usbCommands]
  | twice made removed last hfirst hunmounting =>
    have hrun := hunmounting.forall_mem
    simp only [List.forall_mem_append]
    exact ⟨⟨by simp [usbCommands], hrun⟩, by simp [usbCommands]⟩

theorem DetachRun.forall_mem {usbName : Text} {run : List LogEntry} (h : DetachRun usbName run) :
    ∀ entry ∈ run, entry.1 ∈ usbCommands usbName := by
  cases h with
  | unmounted removed hunmounting =>
    rw [List.forall_mem_append]
    exact ⟨hunmounting.forall_mem, by simp [usbCommands]⟩
  | stuck hunmounting _ => exact hunmounting.forall_mem

/-- The listing of the devices, as far as the event has one, has no special characters. -/
def PlainListing (e : Event W) : Prop :=
  e.OnPoll fun sh => ∀ c ∈ getStdoutFromCommand sh .listDevices, Plain c

-- character by character of the listing, not over all characters there are
instance (e : Event W) : Decidable (PlainListing e) :=
  haveI (sh : Shell W) : Decidable (∀ c ∈ getStdoutFromCommand sh .listDevices, Plain c) :=
    List.decidableBAll _ _
  inferInstanceAs (Decidable (e.OnPoll _))

theorem plain_devicesConnected {sh : Shell W} (h : PlainListing (.poll sh)) :
    ∀ c ∈ devicesConnected sh, Plain c :=
  fun c hc => h c ((extractUsbLoop_subset sh _ _ _).1 hc)

/-- What has been run so far was read as it was meant, and the device at hand has a plain name. -/
structure ReadSoFar (c : State × W × List LogEntry) : Prop where
  log : ∀ entry ∈ c.2.2, entry.1.ReadAsMeant
  session : ∀ usbName ∈ c.1.session, ∀ ch ∈ usbName, Plain ch

theorem ReadSoFar.step {x : Transition (State × W × List LogEntry) (Event (W × List LogEntry))}
    (hs : ReadSoFar x.before) (hx : (recordedEvents qt W).Fires x) (hplain : PlainListing x.event) :
    ReadSoFar x.after := by
  rcases step_cases hx.2 with ⟨sh, he, houtcome⟩ | ⟨-, hui, hmachine⟩
  · have hrecords := hx.1 sh he
    rw [he] at hplain
    have hdev := plain_devicesConnected hplain
    rcases houtcome.session_cases with ⟨-, -, hopen, hw⟩ | ⟨-, hsome, hclosed, hw⟩ | ⟨-, hsame, hw⟩
    · obtain ⟨run, hrun, hlog⟩ := attachUsb_records hrecords (devicesConnected sh) x.before.2
      refine ⟨?_, ?_⟩
      · rw [hw, hlog, List.forall_mem_append]
        exact ⟨hs.log, fun entry hentry =>
          readAsMeant_of_mem_usbCommands hdev (hrun.forall_mem entry hentry)⟩
      · rw [hopen]
        intro usbName hname
        exact Option.some.inj hname ▸ hdev
    · obtain ⟨run, hrun, hlog⟩ := detachUsb_records hrecords x.before.1.usbName x.before.2
      have hname := hs.session _ hsome
      refine ⟨?_, by simp [hclosed]⟩
      rw [hw, hlog, List.forall_mem_append]
      exact ⟨hs.log, fun entry hentry =>
        readAsMeant_of_mem_usbCommands hname (hrun.forall_mem entry hentry)⟩
    · exact ⟨by rw [hw]; exact hs.log, by rw [hsame]; exact hs.session⟩
  · refine ⟨by rw [hmachine]; exact hs.log, ?_⟩
    rw [(uiStep_effect _ hui).session_eq]
    exact hs.session

/-- **Nothing but what was meant is ever run.**  In a run whose device listings have no special
characters, every `mkdir`, `mount`, `umount`, `umount -l` and `rmdir` of the flash poll is read as
one program with the words it was given. -/
theorem log_read_as_meant
    {l : List (Transition (State × W × List LogEntry) (Event (W × List LogEntry)))}
    {c : State × W × List LogEntry} (h : (recordedEvents qt W).History l c)
    (hl : ∀ x ∈ l, PlainListing x.event) : ∀ entry ∈ c.2.2, entry.1.ReadAsMeant := by
  have hread : ReadSoFar c := h.guarded (fun c hc => ?_) (fun x hx hI => hI.step hx) hl
  · exact hread.log
  · obtain ⟨hstart, hlog⟩ := hc
    refine ⟨by simp [hlog], ?_⟩
    rw [show c.1 = startup from hstart]
    exact fun _ hname => absurd hname (by simp [State.session, startup])

/-- A stick that comes, has to be mounted twice, and goes. -/
theorem log_of_two_mounts :
    ∃ l c, (recordedEvents ⟨false⟩ (List ℤ)).History l c ∧ c.2.2.length = 7 ∧
      ∀ entry ∈ c.2.2, entry.1.ReadAsMeant := by
  obtain ⟨c, hrun, hlen⟩ := Machine.exists_run_of_test (M := recordedEvents ⟨false⟩ (List ℤ))
    [.poll (scriptedShell "sda1".toList), .click .musicButton 0, .poll (scriptedShell [])]
    (startup, [0, 32, 0], []) (fun c => c.2.2.length = 7) (by decide +kernel)
  have hrecords : ∀ e ∈ [.poll (scriptedShell "sda1".toList), .click .musicButton 0,
      .poll (scriptedShell [])], ∀ u, (recordedEvents ⟨false⟩ (List ℤ)).enabled e u := by
    rintro e he - sh rfl
    rcases List.mem_cons.mp he with heq | he
    · exact Event.poll.inj heq ▸ records_scriptedShell _
    · have heq : sh = scriptedShell [] := by simpa using he
      exact heq ▸ records_scriptedShell _
  have hplain : ∀ e ∈ [.poll (scriptedShell "sda1".toList), .click .musicButton 0,
      .poll (scriptedShell [])], PlainListing e := by decide +kernel
  obtain ⟨l, hl, hevents⟩ := Machine.exists_history_of_run
    (M := recordedEvents ⟨false⟩ (List ℤ)) ⟨rfl, rfl⟩ hrecords hrun
  refine ⟨l, c, hl, of_decide_eq_true hlen, log_read_as_meant hl fun x hx => ?_⟩
  exact hplain _ (hevents ▸ List.mem_map_of_mem hx)

/-! ## The address of a bluetooth device -/

/-- An address consists of hexadecimal digits and colons. -/
theorem MatchesMac.isArgument {addr : Text} (h : MatchesMac addr) : IsArgument addr := by
  have hplain : ∀ c ∈ addr, Plain c ∧ c ≠ '#' := by
    intro c hc
    refine plain_of_all (p := fun c => isHexDigit c || c = ':') (by decide) ?_
    rcases h with ⟨-, hall⟩ | ⟨-, hall⟩
    · simpa using hall c hc
    · simp [hall c hc]
  exact ⟨h.ne_nil, fun hhead => (hplain _ (List.mem_of_mem_head? hhead)).2 rfl,
    fun c hc => (hplain c hc).1⟩

/-- **Asking for the name of a bluetooth device.**  Whatever `hcitool con` printed, the query is
read as one program, with the address as its last argument if one was found. -/
theorem name_query_read (listing : Text) :
    programs (Query.hcitoolName ((macSearch listing).getD [])).popenText =
      some [[argument "hcitool".toList, argument "name".toList] ++
        (macSearch listing).toList.map argument ++ mergedErrors] := by
  cases hfound : macSearch listing with
  | none => decide +kernel
  | some addr =>
    exact Query.readAsMeant (q := .hcitoolName addr) (macSearch_eq_some hfound).2.isArgument

end Infotainment
