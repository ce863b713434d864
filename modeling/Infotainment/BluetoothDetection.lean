import Infotainment.Bluetooth

/-!
# Detecting a bluetooth device

`updatBluetoothDevices` looks at the text `hcitool con` prints in two ways that have nothing to do
with each other.  Whether a device is connected it decides from the first colon: if that is the
last character there is nothing behind the header.  The address it takes from a regular expression.

On what `hcitool` prints when it works the two agree.  On an error message, or on a text without a
colon, they need not: the first says that a device is connected and the second finds no address, so
`hcitool name` is asked about nothing.  `detects_iff` says that this is exactly how a false
connection comes about.

First comes what the search for the regular expression finds.  `MatchesMac` is the meaning of the
expression on a whole text and `ContainsMac` that on a part of it.  Then comes what the comparison
of the position of the colon finds (`EndsAtColon`), and last the slot.
-/

namespace Infotainment

open Occurrence

variable {W : Type}

/-! ## The regular expression -/

/-- The text, as a whole, matches `[a-fA-F0-9:]{17}|[a-fA-F0-9]{12}`. -/
def MatchesMac (s : Text) : Prop :=
  (s.length = 17 ∧ ∀ c ∈ s, isHexDigit c = true ∨ c = ':') ∨
    (s.length = 12 ∧ ∀ c ∈ s, isHexDigit c = true)

/-- Some part of the text matches. -/
def ContainsMac (s : Text) : Prop := ∃ sub, sub <:+: s ∧ MatchesMac sub

theorem MatchesMac.ne_nil {s : Text} (h : MatchesMac s) : s ≠ [] := by
  rintro rfl
  rcases h with ⟨h, -⟩ | ⟨h, -⟩ <;> exact absurd h (by decide)

theorem macMatch_eq_some {s sub : Text} (h : macMatch s = some sub) :
    sub <+: s ∧ MatchesMac sub := by
  rw [macMatch] at h
  split_ifs at h with h17 h12
  · obtain rfl := Option.some.inj h
    refine ⟨List.take_prefix _ _, Or.inl ⟨h17.1, fun c hc => ?_⟩⟩
    simpa using List.all_eq_true.mp h17.2 c hc
  · obtain rfl := Option.some.inj h
    exact ⟨List.take_prefix _ _, Or.inr ⟨h12.1, List.all_eq_true.mp h12.2⟩⟩

theorem macMatch_eq_none_iff {s : Text} :
    macMatch s = none ↔ ∀ sub, sub <+: s → ¬ MatchesMac sub := by
  constructor
  · intro h sub hsub hmatch
    have htake := List.prefix_iff_eq_take.mp hsub
    rw [macMatch] at h
    split_ifs at h with h17 h12
    rcases hmatch with ⟨hlen, hall⟩ | ⟨hlen, hall⟩ <;> rw [hlen] at htake
    · refine h17 ⟨htake ▸ hlen, List.all_eq_true.mpr fun c hc => ?_⟩
      simpa using hall c (htake ▸ hc)
    · exact h12 ⟨htake ▸ hlen, List.all_eq_true.mpr fun c hc => hall c (htake ▸ hc)⟩
  · intro h
    cases hm : macMatch s with
    | none => rfl
    | some sub => exact absurd (macMatch_eq_some hm).2 (h sub (macMatch_eq_some hm).1)

/-- What the search returns is a matching part of the text. -/
theorem macSearch_eq_some {s sub : Text} (h : macSearch s = some sub) :
    sub <:+: s ∧ MatchesMac sub := by
  induction s with
  | nil => simp [macSearch] at h
  | cons c s ih =>
    rw [macSearch] at h
    cases hm : macMatch (c :: s) with
    | some sub' =>
      obtain rfl : sub' = sub := by simpa [hm] using h
      obtain ⟨hfront, hmatch⟩ := macMatch_eq_some hm
      exact ⟨hfront.isInfix, hmatch⟩
    | none =>
      obtain ⟨hocc, hmatch⟩ := ih (by simpa [hm] using h)
      exact ⟨hocc.trans (List.suffix_cons c s).isInfix, hmatch⟩

/-- **The search finds something wherever there is something to find.** -/
theorem macSearch_eq_none_iff (s : Text) : macSearch s = none ↔ ¬ ContainsMac s := by
  constructor
  · rintro h ⟨sub, hsub, hmatch⟩
    induction s with
    | nil => exact hmatch.ne_nil (List.infix_nil.mp hsub)
    | cons c s ih =>
      rw [macSearch] at h
      cases hm : macMatch (c :: s) with
      | some sub' => simp [hm] at h
      | none =>
        rcases List.infix_cons_iff.mp hsub with hfront | hocc
        · exact macMatch_eq_none_iff.mp hm sub hfront hmatch
        · exact ih (by simpa [hm] using h) hocc
  · intro h
    cases hs : macSearch s with
    | none => rfl
    | some sub => exact absurd ⟨sub, macSearch_eq_some hs⟩ h

instance (s : Text) : Decidable (ContainsMac s) :=
  decidable_of_iff (macSearch s ≠ none) ((macSearch_eq_none_iff s).not.trans not_not)

/-! ## The first colon -/

theorem occursAt_singleton_iff {c : Char} {s : Text} {p : ℕ} :
    OccursAt [c] s p ↔ s[p]? = some c := by
  rw [OccursAt, List.singleton_prefix_iff_head?_eq_some, List.head?_drop]

theorem findInt_colon_eq_neg_one {s : Text} (h : ':' ∉ s) : findInt ":".toList s 0 = -1 := by
  have hnone : findFrom ":".toList s 0 = none := by
    refine (findFrom_eq_none_iff (by decide) s 0).mpr fun p _ hp => ?_
    exact h (List.mem_of_getElem? (occursAt_singleton_iff.mp hp))
  rw [findInt, hnone]

/-- The position of the first colon, as an `int`. -/
theorem findInt_colon_append {u : Text} (h : ':' ∉ u) (rest : Text) :
    findInt ":".toList (u ++ ':' :: rest) 0 = int32 u.length := by
  have hsome : findFrom [':'] (u ++ ':' :: rest) 0 = some u.length := by
    refine (findFrom_eq_some_iff (by decide) _ 0 _).mpr ⟨Nat.zero_le _, ?_, fun q _ hq hocc => ?_⟩
    · exact occursAt_singleton_iff.mpr (by simp)
    · have hmem := occursAt_singleton_iff.mp hocc
      rw [List.getElem?_append_left hq] at hmem
      exact h (List.mem_of_getElem? hmem)
  rw [show ":".toList = [':'] from rfl, findInt, hsome]

/-- For a text that fits a `std::string` the comparison succeeds when nothing follows the colon
and its position is an `int`. -/
theorem firstColonIsLast_append {u rest : Text} (h : ':' ∉ u)
    (hlen : (u ++ ':' :: rest).length < 2 ^ 63) :
    firstColonIsLast (u ++ ':' :: rest) = true ↔ u.length < 2 ^ 31 ∧ rest = [] := by
  rw [firstColonIsLast, decide_eq_true_iff, findInt_colon_append h, ← List.length_eq_zero_iff]
  simp only [List.length_append, List.length_cons] at hlen ⊢
  by_cases hsmall : u.length < 2 ^ 31
  · rw [int32_of_nonneg_of_lt (by omega) (by omega)]
    omega
  · have hlow := neg_two_pow_le_int32 u.length
    have hhigh := int32_lt u.length
    omega

theorem firstColonIsLast_of_not_mem {s : Text} (h : ':' ∉ s) (hlen : s.length < 2 ^ 63) :
    firstColonIsLast s = true ↔ s = [] := by
  rw [firstColonIsLast, decide_eq_true_iff, findInt_colon_eq_neg_one h, ← List.length_eq_zero_iff]
  omega

/-- The text is empty, or it ends at its first colon and that is at an `int` position. -/
def EndsAtColon (s : Text) : Prop :=
  s = [] ∨ ∃ u, s = u ++ [':'] ∧ ':' ∉ u ∧ u.length < 2 ^ 31

/-- **What the comparison means**, wrap-around included. -/
theorem firstColonIsLast_iff {s : Text} (hlen : s.length < 2 ^ 63) :
    firstColonIsLast s = true ↔ EndsAtColon s := by
  by_cases hcolon : ':' ∈ s
  · obtain ⟨u, rest, rfl, hu⟩ := List.eq_append_cons_of_mem hcolon
    rw [firstColonIsLast_append hu hlen]
    constructor
    · rintro ⟨hsmall, rfl⟩
      exact Or.inr ⟨u, rfl, hu, hsmall⟩
    · rintro (hnil | ⟨v, hv, hmem, hsmall⟩)
      · exact absurd hnil (by simp)
      · obtain ⟨rfl, -, rfl⟩ :=
          (List.append_cons_inj_of_notMem hmem (List.not_mem_nil (a := ':'))).mp hv.symm
        exact ⟨hsmall, rfl⟩
  · rw [firstColonIsLast_of_not_mem hcolon hlen]
    constructor
    · exact Or.inl
    · rintro (hnil | ⟨v, rfl, -, -⟩)
      · exact hnil
      · exact absurd hcolon (by simp)

/-! ## The slot -/

namespace State

variable (s : State) (sh : Shell W)

/-- `hcitool name` is run for that address and for no other. -/
theorem updatBluetoothDevices_of_asked {addr : Text} (h : s.askedAddress sh = some addr) :
    s.updatBluetoothDevices sh =
      { s with
        bluetoothDeviceConnected := .connected
        ui.connectedBluetoothDeviceLabel :=
          "Connected Device: ".toList ++ getStdoutFromCommand sh (.hcitoolName addr)
        ui.bluetoothIconLabel := true } := by
  simp only [askedAddress, pollBluetooth] at h
  simp only [updatBluetoothDevices, pollBluetooth]
  split_ifs at h ⊢
  rw [Option.some.inj h]

/-- The status only depends on the colon. -/
theorem updatBluetoothDevices_connected_iff :
    (s.updatBluetoothDevices sh).bluetoothDeviceConnected = .connected ↔
      ¬ firstColonIsLast (getStdoutFromCommand sh .hcitoolCon) = true := by
  simp only [updatBluetoothDevices, pollBluetooth]
  split_ifs with hlast hstatus
  · simp [hlast]
  · simp [hlast]
  · cases hs : s.bluetoothDeviceConnected with
    | connected => simp [hlast]
    | notConnected => exact absurd hs hstatus

/-- No false connection: the status is `connected` exactly if an address was listed, `hcitool name`
is not run without an address, and the icon of a device is not shown without one. -/
structure Detects : Prop where
  status : (s.updatBluetoothDevices sh).bluetoothDeviceConnected = .connected ↔
    ContainsMac (getStdoutFromCommand sh .hcitoolCon)
  asked : ∀ addr, s.askedAddress sh = some addr → addr ≠ []
  icon : (s.updatBluetoothDevices sh).ui.bluetoothIconLabel = true →
    ContainsMac (getStdoutFromCommand sh .hcitoolCon)

variable {s} {sh}

/-- Everything else follows from the status. -/
theorem detects_of_status (h : (s.updatBluetoothDevices sh).bluetoothDeviceConnected = .connected ↔
    ContainsMac (getStdoutFromCommand sh .hcitoolCon)) : s.Detects sh where
  status := h
  asked addr haddr := by
    have hmac : ContainsMac (getStdoutFromCommand sh .hcitoolCon) :=
      h.mp (by rw [updatBluetoothDevices_of_asked s sh haddr])
    simp only [askedAddress, pollBluetooth] at haddr
    split_ifs at haddr
    cases hs : macSearch (getStdoutFromCommand sh .hcitoolCon) with
    | none => exact absurd hmac ((macSearch_eq_none_iff _).mp hs)
    | some sub =>
      rw [hs, Option.getD_some, Option.some.injEq] at haddr
      exact haddr ▸ (macSearch_eq_some hs).2.ne_nil
  icon hicon := by
    refine h.mp ((updatBluetoothDevices_connected_iff s sh).mpr fun hlast => ?_)
    simp only [updatBluetoothDevices, pollBluetooth, if_pos hlast] at hicon
    exact absurd hicon (by decide)

/-- **When the detection is right.**  From every state and for every text a `std::string` can
hold: exactly when one of the two is true and not the other, that the text is empty or ends at its
first colon, and that it contains an address. -/
theorem detects_iff (hlen : (getStdoutFromCommand sh .hcitoolCon).length < 2 ^ 63) :
    s.Detects sh ↔
      (EndsAtColon (getStdoutFromCommand sh .hcitoolCon) ↔
        ¬ ContainsMac (getStdoutFromCommand sh .hcitoolCon)) := by
  have hstatus := updatBluetoothDevices_connected_iff s sh
  rw [firstColonIsLast_iff hlen] at hstatus
  constructor
  · intro h
    rw [← h.status, hstatus, not_not]
  · intro h
    refine detects_of_status ?_
    rw [hstatus, h, not_not]

end State

/-! ## What the slot does with two listings -/

/-- A machine on which `hcitool con` prints the given text. -/
def listingShell (listing : Text) : Shell Unit where
  popen
    | .hcitoolCon => some listing
    | _ => some []
  system _ _ := (0, ())

theorem getStdout_listingShell (listing : Text) :
    getStdoutFromCommand (listingShell listing) .hcitoolCon = listing.filter (· ≠ '\n') :=
  getStdoutFromCommand_some rfl

/-- The header alone is read as no connection. -/
theorem header_detected : startup.Detects (listingShell "Connections:\n".toList) := by
  have hlisting := getStdout_listingShell "Connections:\n".toList
  refine (State.detects_iff (by rw [hlisting]; decide)).mpr ?_
  rw [hlisting]
  exact iff_of_true (Or.inr ⟨"Connections".toList, rfl, by decide, by decide⟩) (by decide)

/-- The message of a machine without `hcitool` is read as a connection. -/
theorem error_message_not_detected : ¬ ∀ (s : State) (sh : Shell Unit), s.Detects sh := by
  intro hall
  have hstatus := (hall startup (listingShell "sh: 1: hcitool: not found\n".toList)).status
  rw [getStdout_listingShell] at hstatus
  have hconnected := (State.updatBluetoothDevices_connected_iff startup
    (listingShell "sh: 1: hcitool: not found\n".toList)).mpr
  rw [getStdout_listingShell] at hconnected
  exact absurd (hstatus.mp (hconnected (by decide))) (by decide)

end Infotainment
