import Infotainment.BluetoothDetection

/-!
# Which device the label names

`hcitool con` prints a header and one line for each connection.  On such a text the two tests of
`updatBluetoothDevices` agree: the first colon is the one of the header, so it is the last character
exactly when no line follows, and the leftmost match of the regular expression is the address on
the first line (`macSearch_listing`).

The status therefore follows every poll.  The label does not.  Its text is fetched when the status
turns from not connected to connected, and while the status stays connected the slot does nothing.
So the label names the device that was listed first when the present *session* began --- the polls
since the last one with an empty list --- whether or not that device is still there
(`label_names_first_of_session`).
-/

namespace Infotainment

variable {W : Type}

/-! ## What `hcitool con` prints -/

/-- Six pairs of hex digits with colons between them. -/
def IsAddress (s : Text) : Prop :=
  s.length = 17 ∧ ∀ (i : ℕ) (h : i < s.length), if i % 3 = 2 then s[i] = ':' else
    isHexDigit s[i] = true

instance (s : Text) : Decidable (IsAddress s) := inferInstanceAs (Decidable (_ ∧ _))

theorem IsAddress.matchesMac {s : Text} (h : IsAddress s) : MatchesMac s := by
  refine Or.inl ⟨h.1, fun c hc => ?_⟩
  obtain ⟨i, hi, rfl⟩ := List.getElem_of_mem hc
  have hchar := h.2 i hi
  split_ifs at hchar
  · exact Or.inr hchar
  · exact Or.inl hchar

/-- One connection.  The direction and the type are words on the line that do not look like an
address. -/
structure Connection where
  dir : Text
  type : Text
  addr : Text
  handle : ℕ
  state : ℕ
  flags : Text
  dir_line : '\n' ∉ dir
  dir_noMac : ¬ ContainsMac dir
  type_line : '\n' ∉ type
  type_noMac : ¬ ContainsMac type
  isAddress : IsAddress addr

/-- What follows the address: `handle N state S lm FLAGS`. -/
def Connection.details (c : Connection) : Text :=
  "handle ".toList ++ Nat.toDigits 10 c.handle ++ " state ".toList ++ Nat.toDigits 10 c.state ++
    " lm ".toList ++ c.flags

/-- `<tab>DIR TYPE ADDR handle N state S lm FLAGS` -/
def Connection.line (c : Connection) : Text :=
  '\t' :: (c.dir ++ ' ' :: (c.type ++ ' ' :: (c.addr ++ ' ' :: c.details)))

/-- What `hcitool con` prints for a list of connections. -/
def printConnections (connections : List Connection) : Text :=
  "Connections:".toList ++ '\n' :: connections.flatMap fun c => c.line ++ ['\n']

/-! ## The address on the first line -/

theorem MatchesMac.of_mem {s : Text} (h : MatchesMac s) {c : Char} (hc : c ∈ s) :
    isHexDigit c = true ∨ c = ':' := by
  rcases h with ⟨-, hall⟩ | ⟨-, hall⟩
  · exact hall c hc
  · exact Or.inl (hall c hc)

/-- A front part that ends before a character stays a front part without it. -/
theorem prefix_of_prefix_append_cons {sub t v : Text} {b : Char} (h : sub <+: t ++ b :: v)
    (hb : b ∉ sub) : sub <+: t := by
  rcases Nat.lt_or_ge t.length sub.length with hlt | hle
  · have hfront : t ++ [b] <+: sub := by
      refine List.prefix_of_prefix_length_le ⟨v, by simp⟩ h ?_
      rw [List.length_append, List.length_singleton]
      exact hlt
    exact absurd (hfront.subset (by simp)) hb
  · exact List.prefix_of_prefix_length_le h (List.prefix_append t _) hle

/-- The search passes over a text without an address and the separator behind it. -/
theorem macSearch_append_cons {t : Text} (ht : ¬ ContainsMac t) {b : Char}
    (hb : ¬ (isHexDigit b = true ∨ b = ':')) (v : Text) :
    macSearch (t ++ b :: v) = macSearch v := by
  induction t with
  | nil =>
    have hnone : macMatch (b :: v) = none := by
      refine macMatch_eq_none_iff.mpr fun sub hsub hmatch => hb ?_
      obtain ⟨c, sub', rfl⟩ := List.exists_cons_of_ne_nil hmatch.ne_nil
      obtain ⟨rfl, -⟩ := List.cons_prefix_cons.mp hsub
      exact hmatch.of_mem List.mem_cons_self
    rw [List.nil_append, macSearch, hnone]
    rfl
  | cons a t ih =>
    have hnone : macMatch (a :: t ++ b :: v) = none := by
      refine macMatch_eq_none_iff.mpr fun sub hsub hmatch => ht ⟨sub, ?_, hmatch⟩
      exact (prefix_of_prefix_append_cons hsub fun hmem => hb (hmatch.of_mem hmem)).isInfix
    rw [List.cons_append] at hnone ⊢
    rw [macSearch, hnone]
    refine ih ?_
    rintro ⟨sub, hsub, hmatch⟩
    exact ht ⟨sub, hsub.trans (List.suffix_cons a t).isInfix, hmatch⟩

/-- An address at the front is found. -/
theorem macSearch_append_of_isAddress {addr : Text} (h : IsAddress addr) (v : Text) :
    macSearch (addr ++ v) = some addr := by
  have htake : (addr ++ v).take 17 = addr := by
    rw [List.take_append_of_le_length h.1.ge, ← h.1, List.take_length]
  have hmatch : macMatch (addr ++ v) = some addr := by
    rw [macMatch, htake, if_pos]
    refine ⟨h.1, List.all_eq_true.mpr fun c hc => ?_⟩
    simpa using h.matchesMac.of_mem hc
  obtain ⟨c, s, hcons⟩ := List.exists_cons_of_ne_nil h.matchesMac.ne_nil
  rw [hcons, List.cons_append] at hmatch ⊢
  rw [macSearch, hmatch]
  rfl

theorem IsAddress.newline_not_mem {addr : Text} (h : IsAddress addr) : '\n' ∉ addr := fun hmem =>
  absurd (h.matchesMac.of_mem hmem) (by decide)

/-- The listing without its newlines, as far as it matters. -/
theorem filter_printConnections_cons (c : Connection) (rest : List Connection) :
    ∃ more : Text, (printConnections (c :: rest)).filter (· ≠ '\n') =
      "Connections:".toList ++ '\t' :: (c.dir ++ ' ' :: (c.type ++ ' ' :: (c.addr ++ more))) := by
  refine ⟨(' ' :: c.details ++ ['\n'] ++
    rest.flatMap fun c => c.line ++ ['\n']).filter (· ≠ '\n'), ?_⟩
  have hheader : '\n' ∉ "Connections:".toList := by decide
  unfold printConnections
  rw [List.flatMap_cons, Connection.line, List.filter_append, filter_newline_eq_self hheader]
  congr 1
  simp only [List.filter_append, List.cons_append, List.append_assoc, List.filter_cons,
    filter_newline_eq_self c.dir_line, filter_newline_eq_self c.type_line,
    filter_newline_eq_self c.isAddress.newline_not_mem]
  rfl

/-- **The leftmost match is the address on the first line.** -/
theorem macSearch_listing (c : Connection) (rest : List Connection) :
    macSearch ((printConnections (c :: rest)).filter (· ≠ '\n')) = some c.addr := by
  obtain ⟨more, hmore⟩ := filter_printConnections_cons c rest
  rw [hmore, macSearch_append_cons (by decide) (by decide),
    macSearch_append_cons c.dir_noMac (by decide), macSearch_append_cons c.type_noMac (by decide),
    macSearch_append_of_isAddress c.isAddress]

/-- **The first colon is the one of the header.** -/
theorem firstColonIsLast_listing_iff {connections : List Connection}
    (hfits : (printConnections connections).length < 2 ^ 63) :
    firstColonIsLast ((printConnections connections).filter (· ≠ '\n')) = true ↔
      connections = [] := by
  have hlen : ((printConnections connections).filter (· ≠ '\n')).length < 2 ^ 63 :=
    (List.length_filter_le _ _).trans_lt hfits
  cases connections with
  | nil => exact iff_of_true (by decide) rfl
  | cons c rest =>
    obtain ⟨more, hmore⟩ := filter_printConnections_cons c rest
    have hheader : "Connections:".toList = "Connections".toList ++ [':'] := rfl
    rw [hmore, hheader, List.append_assoc, List.singleton_append] at hlen ⊢
    rw [firstColonIsLast_append (by decide) hlen]
    simp

/-! ## Polls and sessions -/

/-- One call of the slot, on a machine whose `hcitool con` lists these connections. -/
structure BluetoothPoll (W : Type) where
  sh : Shell W
  connections : List Connection
  prints : sh.popen .hcitoolCon = some (printConnections connections)
  fits : (printConnections connections).length < 2 ^ 63

/-- What `hcitool name` answers at this poll. -/
def BluetoothPoll.name (p : BluetoothPoll W) (addr : Text) : Text :=
  getStdoutFromCommand p.sh (.hcitoolName addr)

theorem BluetoothPoll.listing_eq (p : BluetoothPoll W) :
    getStdoutFromCommand p.sh .hcitoolCon =
      (printConnections p.connections).filter (· ≠ '\n') :=
  getStdoutFromCommand_some p.prints

/-- The state after the polls. -/
def afterPolls (polls : List (BluetoothPoll W)) : State :=
  polls.foldl (fun s p => s.updatBluetoothDevices p.sh) startup

theorem afterPolls_singleton (p : BluetoothPoll W) :
    afterPolls [p] = startup.updatBluetoothDevices p.sh := rfl

theorem afterPolls_concat (polls : List (BluetoothPoll W)) (p : BluetoothPoll W) :
    afterPolls (polls ++ [p]) = (afterPolls polls).updatBluetoothDevices p.sh := by
  rw [afterPolls, List.foldl_concat, afterPolls]

/-- The poll at which the present session began: every list since then has an entry, and the list
just before it, if there was one, has none. -/
def SessionStart (polls : List (BluetoothPoll W)) (q : BluetoothPoll W) : Prop :=
  ∃ pre post, polls = pre ++ q :: post ∧ (∀ r ∈ pre.getLast?, r.connections = []) ∧
    ∀ r ∈ q :: post, r.connections ≠ []

theorem SessionStart.concat {polls : List (BluetoothPoll W)} {p q : BluetoothPoll W}
    (h : SessionStart polls q) (hp : p.connections ≠ []) : SessionStart (polls ++ [p]) q := by
  obtain ⟨pre, post, rfl, hpre, hpost⟩ := h
  refine ⟨pre, post ++ [p], by simp, hpre, fun r hr => ?_⟩
  rw [← List.cons_append, List.mem_append, List.mem_singleton] at hr
  rcases hr with hr | rfl
  · exact hpost r hr
  · exact hp

/-! ## The slot on a listing -/

namespace State

variable (s : State)

/-- No device is shown. -/
structure ShowsNoDevice : Prop where
  status : s.bluetoothDeviceConnected = .notConnected
  icon : s.ui.bluetoothIconLabel = false
  label : s.ui.connectedBluetoothDeviceLabel = "Connect Your Device!".toList

/-- A device with this name is shown. -/
structure ShowsDevice (name : Text) : Prop where
  status : s.bluetoothDeviceConnected = .connected
  icon : s.ui.bluetoothIconLabel = true
  label : s.ui.connectedBluetoothDeviceLabel = "Connected Device: ".toList ++ name

variable {s} {p : BluetoothPoll W}

theorem updatBluetoothDevices_of_nil (hp : p.connections = []) :
    (s.updatBluetoothDevices p.sh).ShowsNoDevice := by
  have hlast := (firstColonIsLast_listing_iff p.fits).mpr hp
  rw [← p.listing_eq] at hlast
  simp only [updatBluetoothDevices, pollBluetooth, if_pos hlast]
  exact ⟨rfl, rfl, rfl⟩

/-- A session begins. -/
theorem updatBluetoothDevices_of_notConnected {c : Connection} {rest : List Connection}
    (hp : p.connections = c :: rest) (hs : s.bluetoothDeviceConnected = .notConnected) :
    (s.updatBluetoothDevices p.sh).ShowsDevice (p.name c.addr) := by
  have hmore : ¬ firstColonIsLast (getStdoutFromCommand p.sh .hcitoolCon) = true := by
    rw [p.listing_eq, firstColonIsLast_listing_iff p.fits, hp]
    exact List.cons_ne_nil c rest
  have haddr : macSearch (getStdoutFromCommand p.sh .hcitoolCon) = some c.addr := by
    rw [p.listing_eq, hp, macSearch_listing]
  have hasked : s.askedAddress p.sh = some c.addr := by
    simp only [askedAddress, pollBluetooth, if_neg hmore, if_pos hs, haddr, Option.getD_some]
  rw [updatBluetoothDevices_of_asked s p.sh hasked]
  exact ⟨rfl, rfl, rfl⟩

/-- A session goes on. -/
theorem updatBluetoothDevices_of_connected (hp : p.connections ≠ [])
    (hs : s.bluetoothDeviceConnected = .connected) : s.updatBluetoothDevices p.sh = s := by
  have hmore : ¬ firstColonIsLast (getStdoutFromCommand p.sh .hcitoolCon) = true := by
    rwa [p.listing_eq, firstColonIsLast_listing_iff p.fits]
  have hon : ¬ s.bluetoothDeviceConnected = .notConnected := by
    rw [hs]
    decide
  simp only [updatBluetoothDevices, pollBluetooth, if_neg hmore, if_neg hon]

end State

/-! ## The label over a run -/

/-- The status between two polls tells whether a session is on, and in one the device shown is the
one listed first when it began. -/
def ShowsSession (polls : List (BluetoothPoll W)) (s : State) : Prop :=
  (s.bluetoothDeviceConnected = .notConnected ∧ ∀ r ∈ polls.getLast?, r.connections = []) ∨
    ∃ q c rest, SessionStart polls q ∧ q.connections = c :: rest ∧ s.ShowsDevice (q.name c.addr)

/-- One poll.  Off the empty list there are two cases, by the status before: a session begins with
this poll, or the one that was on goes on. -/
theorem ShowsSession.poll {polls : List (BluetoothPoll W)} {s : State} (h : ShowsSession polls s)
    (p : BluetoothPoll W) : ShowsSession (polls ++ [p]) (s.updatBluetoothDevices p.sh) := by
  by_cases hp : p.connections = []
  · refine Or.inl ⟨(State.updatBluetoothDevices_of_nil hp).status, fun r hr => ?_⟩
    rw [List.getLast?_concat, Option.mem_some_iff] at hr
    exact hr ▸ hp
  · refine Or.inr ?_
    rcases h with ⟨hstatus, hlast⟩ | ⟨q, c, rest, hstart, hq, hshows⟩
    · obtain ⟨c, rest, hcons⟩ := List.exists_cons_of_ne_nil hp
      refine ⟨p, c, rest, ⟨polls, [], rfl, hlast, fun r hr => ?_⟩, hcons, ?_⟩
      · rw [List.mem_singleton] at hr
        exact hr ▸ hp
      · exact State.updatBluetoothDevices_of_notConnected hcons hstatus
    · rw [State.updatBluetoothDevices_of_connected hp hshows.status]
      exact ⟨q, c, rest, hstart.concat hp, hq, hshows⟩

theorem showsSession_afterPolls (polls : List (BluetoothPoll W)) :
    ShowsSession polls (afterPolls polls) := by
  induction polls using List.reverseRecOn with
  | nil => exact Or.inl ⟨rfl, nofun⟩
  | append_singleton polls p ih =>
    rw [afterPolls_concat]
    exact ih.poll p

/-- **The label names the first device of the session.**  After every poll of every sequence: on an
empty list nothing is shown; on any other list a device is shown, with the name fetched when the
present session began for the address that was listed first at that time. -/
theorem label_names_first_of_session (polls : List (BluetoothPoll W)) (p : BluetoothPoll W) :
    (p.connections = [] → (afterPolls (polls ++ [p])).ShowsNoDevice) ∧
      (p.connections ≠ [] → ∃ q c rest, SessionStart (polls ++ [p]) q ∧
        q.connections = c :: rest ∧ (afterPolls (polls ++ [p])).ShowsDevice (q.name c.addr)) := by
  refine ⟨fun hp => ?_, fun hp => ?_⟩
  · rw [afterPolls_concat]
    exact State.updatBluetoothDevices_of_nil hp
  · rcases showsSession_afterPolls (polls ++ [p]) with ⟨-, hlast⟩ | hsession
    · exact absurd (hlast p List.getLast?_concat) hp
    · exact hsession

/-! ## Two devices that change places -/

/-- The label names a device that is connected now. -/
def NamesConnected (polls : List (BluetoothPoll W)) (p : BluetoothPoll W) : Prop :=
  (p.connections = [] → (afterPolls (polls ++ [p])).ShowsNoDevice) ∧
    (p.connections ≠ [] → ∃ q ∈ polls ++ [p], ∃ c ∈ p.connections,
      (afterPolls (polls ++ [p])).ShowsDevice (q.name c.addr))

/-- The line of a phone at that address. -/
def phone (addr : Text) (h : IsAddress addr) : Connection where
  dir := "<".toList
  type := "ACL".toList
  addr := addr
  handle := 12
  state := 1
  flags := "MASTER".toList
  dir_line := by decide
  dir_noMac := by decide
  type_line := by decide
  type_noMac := by decide
  isAddress := h

/-- A poll that sees one connection, on a machine that gives every device its address as a name. -/
def pollOf (c : Connection) (h : (printConnections [c]).length < 2 ^ 63) : BluetoothPoll Unit where
  sh :=
    { popen := fun
        | .hcitoolCon => some (printConnections [c])
        | .hcitoolName addr => some addr
        | _ => some []
      system := fun _ _ => (0, ()) }
  connections := [c]
  prints := rfl
  fits := h

theorem name_pollOf (c c' : Connection) (h : (printConnections [c]).length < 2 ^ 63) :
    (pollOf c h).name c'.addr = c'.addr := by
  have hprints : (pollOf c h).sh.popen (.hcitoolName c'.addr) = some c'.addr := rfl
  rw [BluetoothPoll.name, getStdoutFromCommand_some hprints]
  exact filter_newline_eq_self c'.isAddress.newline_not_mem

/-- A phone that takes the place of another between two polls is not named. -/
theorem exchanged_phone_not_named :
    ¬ ∀ (polls : List (BluetoothPoll Unit)) (p : BluetoothPoll Unit), NamesConnected polls p := by
  intro hall
  let first := phone "00:1A:7D:DA:71:13".toList (by decide)
  let second := phone "00:1A:7D:DA:71:14".toList (by decide)
  let p := pollOf first (by decide)
  let q := pollOf second (by decide)
  have hfirst : (afterPolls [p]).ShowsDevice first.addr := by
    have h := State.updatBluetoothDevices_of_notConnected (s := startup) (p := p) (c := first)
      rfl rfl
    rw [name_pollOf] at h
    rw [afterPolls_singleton]
    exact h
  have hsame : afterPolls ([p] ++ [q]) = afterPolls [p] := by
    rw [afterPolls_concat]
    exact State.updatBluetoothDevices_of_connected (List.cons_ne_nil second []) hfirst.status
  obtain ⟨r, hr, c, hc, hshows⟩ := (hall [p] q).2 (List.cons_ne_nil second [])
  have hname : r.name c.addr = second.addr := by
    rw [List.mem_singleton.mp hc]
    rcases List.mem_pair.mp hr with rfl | rfl
    · exact name_pollOf _ _ _
    · exact name_pollOf _ _ _
  have hlabel := hshows.label
  rw [hsame, hfirst.label, hname] at hlabel
  exact absurd (List.append_cancel_left hlabel) (by decide)

end Infotainment
