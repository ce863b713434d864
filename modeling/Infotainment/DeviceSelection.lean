import Infotainment.FlashStatus
import Infotainment.Library.Blocks
import Infotainment.ScanRoundTrip

/-!
# Selecting the usb device

`ls /dev/ | grep sd[a-z][0-9]` prints one device name a line.  Reading the output removes the
newlines, and `extractUsb` cuts what is left into blocks of four characters and asks udev about
each in turn, up to the block at which its position overflows (`devicesConnected_eq`).

A name that is not four characters long therefore shifts every block behind it.  Whatever of the
listed names udev reports, the device selected is right exactly when every name has four characters
and is among the first `2 ^ 29` (`selects_exactly_iff`).  Where a name is longer it may still be
right by chance: for a given answer of udev, when the first name that udev reports happens to be
a block, and comes before every other block that it reports (`BlocksAgree`).
-/

namespace Infotainment

open Blocks

variable {W : Type}

/-! ## Listings -/

/-- A line that `grep sd[a-z][0-9]` lets through. -/
def IsDeviceName (name : Text) : Prop :=
  '\n' ∉ name ∧ ∃ u a d v, name = u ++ 's' :: 'd' :: a :: d :: v ∧
    ('a' ≤ a ∧ a ≤ 'z') ∧ '0' ≤ d ∧ d ≤ '9'

theorem IsDeviceName.four_le_length {name : Text} (h : IsDeviceName name) : 4 ≤ name.length := by
  obtain ⟨-, u, a, d, v, rfl, -⟩ := h
  simp only [List.length_append, List.length_cons]
  omega

/-- A machine with these block devices, on which udev reports as usb devices those that satisfy
`usb`. -/
structure ListsDevices (sh : Shell W) (names : List Text) (usb : Text → Bool) : Prop where
  listed : sh.popen .listDevices = some (printLines names)
  reported : ∀ dev, getStdoutFromCommand sh (.udevadm dev) ≠ [] ↔ usb dev = true

/-- The device is the first of the names that satisfies `usb`, and it is empty only if none of them
does. -/
def SelectsExactly (names : List Text) (usb : Text → Bool) (dev : Text) : Prop :=
  dev = (names.find? usb).getD [] ∧ (dev = [] ↔ ∀ name ∈ names, usb name = false)

/-! ## The loop cuts blocks -/

/-- From the `k`-th block on, as long as the position fits an `int`. -/
theorem extractUsbLoop_eq {sh : Shell W} {usb : Text → Bool}
    (hudev : ∀ dev, getStdoutFromCommand sh (.udevadm dev) ≠ [] ↔ usb dev = true) (devices : Text)
    (fuel k : ℕ) (hk : k ≤ 2 ^ 29) (hfuel : devices.length ≤ 4 * (k + fuel)) :
    extractUsbLoop sh devices fuel (int32 (4 * k)) =
      (((blocks 4 (devices.drop (4 * k))).take (2 ^ 29 - k)).find? usb).getD [] := by
  induction fuel generalizing k with
  | zero =>
    rw [extractUsbLoop, List.drop_eq_nil_of_le (by omega), blocks_nil, List.take_nil]
    rfl
  | succ fuel ih =>
    rw [extractUsbLoop]
    rcases hk.eq_or_lt with rfl | hlt
    · -- the position has become negative
      rw [if_neg (fun h => absurd h.1 (by decide)), Nat.sub_self]
      rfl
    · rw [int32_of_nonneg_of_lt (by omega) (by omega)]
      by_cases hend : 4 * k < devices.length
      · have hne : devices.drop (4 * k) ≠ [] := by
          rw [Ne, List.drop_eq_nil_iff]
          omega
        have hcount : 2 ^ 29 - k = 2 ^ 29 - (k + 1) + 1 := by omega
        have hblock : substr devices (4 * (k : ℤ)).toNat devNameLen =
            (devices.drop (4 * k)).take 4 := by
          rw [substr, if_neg (by decide), show (4 * (k : ℤ)).toNat = 4 * k by omega]
          rfl
        have hnext : (4 * k + devNameLen : ℤ) = 4 * (k + 1 : ℕ) := by
          simp only [devNameLen]
          omega
        rw [if_pos (by omega), hblock, hnext, ih (k + 1) hlt (by omega),
          blocks_of_ne_nil (by decide) hne, hcount, List.take_succ_cons, List.drop_drop]
        simp only [hudev]
        by_cases husb : usb ((devices.drop (4 * k)).take 4) = true
        · rw [if_pos husb, List.find?_cons_of_pos husb, Option.getD_some]
        · rw [if_neg husb, List.find?_cons_of_neg husb]
          rfl
      · rw [if_neg (by omega), List.drop_eq_nil_of_le (by omega), blocks_nil, List.take_nil]
        rfl

/-- The blocks the loop comes to. -/
def reachedBlocks (names : List Text) : List Text := (blocks devNameLen names.flatten).take (2 ^ 29)

/-- **What a poll selects**: the first block that udev reports. -/
theorem devicesConnected_eq {sh : Shell W} {names : List Text} {usb : Text → Bool}
    (h : ListsDevices sh names usb) (hnames : ∀ name ∈ names, IsDeviceName name) :
    devicesConnected sh = ((reachedBlocks names).find? usb).getD [] := by
  rw [devicesConnected, getStdoutFromCommand_some h.listed,
    filter_printLines fun name hname => (hnames name hname).1, extractUsb]
  have hloop := extractUsbLoop_eq h.reported names.flatten (names.flatten.length + 1) 0
    (by omega) (by omega)
  exact hloop

/-! ## When the selection is right -/

/-- If udev reports a name, the first one it reports is a block, and it reports no block before
that; if it reports no name, it reports no block. -/
def BlocksAgree (names : List Text) (usb : Text → Bool) : Prop :=
  (∀ dev, names.find? usb = some dev →
    ∃ pre post, reachedBlocks names = pre ++ dev :: post ∧ ∀ b ∈ pre, usb b = false) ∧
  (names.find? usb = none → ∀ b ∈ reachedBlocks names, usb b = false)

theorem blocksAgree_iff {names : List Text} {usb : Text → Bool} :
    BlocksAgree names usb ↔ (reachedBlocks names).find? usb = names.find? usb := by
  cases hfind : names.find? usb with
  | none => simp [BlocksAgree, hfind, List.find?_eq_none]
  | some dev =>
    have husb : usb dev = true := List.find?_some hfind
    simp [BlocksAgree, hfind, List.find?_eq_some_iff_append, husb]

theorem selectsExactly_iff {names : List Text} {usb : Text → Bool} {dev : Text}
    (hnames : ∀ name ∈ names, IsDeviceName name) :
    SelectsExactly names usb dev ↔ dev = (names.find? usb).getD [] := by
  refine ⟨And.left, fun hdev => ⟨hdev, ?_⟩⟩
  cases hfind : names.find? usb with
  | none => simpa [hdev, hfind] using List.find?_eq_none.mp hfind
  | some dev' =>
    have hlen := (hnames dev' (List.mem_of_find?_eq_some hfind)).four_le_length
    have hne : dev' ≠ [] := List.ne_nil_of_length_pos (by omega)
    rw [hdev, hfind, Option.getD_some]
    refine iff_of_false hne fun hall => ?_
    have husb := hall dev' (List.mem_of_find?_eq_some hfind)
    rw [List.find?_some hfind] at husb
    exact absurd husb (by decide)

theorem ne_nil_of_mem_reachedBlocks {names : List Text} {b : Text} (h : b ∈ reachedBlocks names) :
    b ≠ [] ∧ b.length ≤ devNameLen :=
  mem_blocks (List.mem_of_mem_take h)

/-- For one answer of udev. -/
theorem selectsExactly_devicesConnected_iff {sh : Shell W} {names : List Text}
    {usb : Text → Bool} (h : ListsDevices sh names usb)
    (hnames : ∀ name ∈ names, IsDeviceName name) :
    SelectsExactly names usb (devicesConnected sh) ↔ BlocksAgree names usb := by
  rw [selectsExactly_iff hnames, devicesConnected_eq h hnames, blocksAgree_iff]
  refine ⟨fun heq => ?_, fun heq => by rw [heq]⟩
  -- neither search returns the empty text, so the default value tells the two cases apart
  have hblock : ∀ b, (reachedBlocks names).find? usb = some b → b ≠ [] := fun b hb =>
    (ne_nil_of_mem_reachedBlocks (List.mem_of_find?_eq_some hb)).1
  have hname : ∀ b, names.find? usb = some b → b ≠ [] := fun b hb =>
    List.ne_nil_of_length_pos
      (by have := (hnames b (List.mem_of_find?_eq_some hb)).four_le_length; omega)
  cases hb : (reachedBlocks names).find? usb with
  | none =>
    cases hn : names.find? usb with
    | none => rfl
    | some name => simp [hb, hn] at heq; exact absurd heq (hname name hn)
  | some b =>
    cases hn : names.find? usb with
    | none => simp [hb, hn] at heq; exact absurd heq (hblock b hb)
    | some name => simpa [hb, hn] using heq

/-- Every name has four characters, and is one of the first `2 ^ 29`. -/
def FourCharacterNames (names : List Text) : Prop :=
  ∀ name ∈ names, name.length = devNameLen ∧ name ∈ names.take (2 ^ 29)

/-- Then the blocks are the names. -/
theorem FourCharacterNames.blocksAgree {names : List Text} (h : FourCharacterNames names)
    (usb : Text → Bool) : BlocksAgree names usb := by
  rw [blocksAgree_iff, reachedBlocks, blocks_flatten (by decide) fun name hname => (h name hname).1]
  cases hfind : (names.take (2 ^ 29)).find? usb with
  | none =>
    refine (List.find?_eq_none.mpr fun name hname => ?_).symm
    exact List.find?_eq_none.mp hfind name (h name hname).2
  | some name =>
    rw [← List.take_append_drop (2 ^ 29) names, List.find?_append, hfind]
    rfl

/-- A machine with these devices and this udev. -/
def udevShell (names : List Text) (usb : Text → Bool) : Shell W where
  popen
    | .listDevices => some (printLines names)
    | .udevadm dev => some (if usb dev = true then "E: ID_BUS=usb\n".toList else [])
    | _ => some []
  system _ w := (0, w)

theorem listsDevices_udevShell (names : List Text) (usb : Text → Bool) :
    ListsDevices (udevShell names usb : Shell W) names usb where
  listed := rfl
  reported dev := by
    have hprints : (udevShell names usb : Shell W).popen (.udevadm dev) =
        some (if usb dev = true then "E: ID_BUS=usb\n".toList else []) := rfl
    rw [getStdoutFromCommand_some hprints]
    split_ifs with husb
    · exact iff_of_true (by decide) husb
    · exact iff_of_false (by simp) husb

theorem fourCharacterNames_of_mem_reachedBlocks {names : List Text}
    (hnames : ∀ name ∈ names, IsDeviceName name)
    (hmem : ∀ name ∈ names, name ∈ reachedBlocks names) : FourCharacterNames names := by
  have hlen : ∀ name ∈ names, name.length = devNameLen := fun name hname =>
    le_antisymm (ne_nil_of_mem_reachedBlocks (hmem name hname)).2 (hnames name hname).four_le_length
  intro name hname
  have hblock := hmem name hname
  rw [reachedBlocks, blocks_flatten (by decide) hlen] at hblock
  exact ⟨hlen name hname, hblock⟩

/-- **When the selection is right.**  For every list of device names: under every answer of udev
that reports names of the list only, exactly when all of them have four characters and are among the
first `2 ^ 29`; under a given answer, exactly when the blocks agree with the names. -/
theorem selects_exactly_iff {names : List Text} (hnames : ∀ name ∈ names, IsDeviceName name) :
    ((∀ (sh : Shell W) (usb : Text → Bool), ListsDevices sh names usb →
      (∀ dev, usb dev = true → dev ∈ names) →
        SelectsExactly names usb (devicesConnected sh)) ↔ FourCharacterNames names) ∧
    (∀ (sh : Shell W) (usb : Text → Bool), ListsDevices sh names usb →
      (SelectsExactly names usb (devicesConnected sh) ↔ BlocksAgree names usb)) := by
  refine ⟨⟨fun hall => ?_, fun hfour sh usb h _ =>
      (selectsExactly_devicesConnected_iff h hnames).mpr (hfour.blocksAgree usb)⟩,
    fun sh usb h => selectsExactly_devicesConnected_iff h hnames⟩
  refine fourCharacterNames_of_mem_reachedBlocks hnames fun name hname => ?_
  -- udev reports this name and no other
  have hlists := listsDevices_udevShell (W := W) names (decide <| · = name)
  have hexact := hall _ _ hlists fun dev hdev => of_decide_eq_true hdev ▸ hname
  have hfind : names.find? (decide <| · = name) = some name := by
    cases hf : names.find? (decide <| · = name) with
    | none => exact absurd (List.find?_eq_none.mp hf name hname) (by simp)
    | some dev =>
      have hdev := List.find?_some hf
      rw [of_decide_eq_true hdev]
  obtain ⟨pre, post, hblocks, -⟩ :=
    ((selectsExactly_devicesConnected_iff hlists hnames).mp hexact).1 name hfind
  rw [hblocks]
  exact List.mem_append_right _ List.mem_cons_self

/-- A stick behind a disk, both with names of four characters. -/
theorem sdb1_selected_behind_sda1 :
    ∃ sh : Shell Unit, ListsDevices sh ["sda1".toList, "sdb1".toList] (· = "sdb1".toList) ∧
      SelectsExactly ["sda1".toList, "sdb1".toList] (· = "sdb1".toList) (devicesConnected sh) := by
  have hnames : ∀ name ∈ ["sda1".toList, "sdb1".toList], IsDeviceName name := by
    rintro name hname
    rcases List.mem_pair.mp hname with rfl | rfl
    · exact ⟨by decide, [], 'a', '1', [], rfl, by decide, by decide⟩
    · exact ⟨by decide, [], 'b', '1', [], rfl, by decide, by decide⟩
  have hfour : FourCharacterNames ["sda1".toList, "sdb1".toList] := by
    intro name hname
    rw [List.take_of_length_le (by decide)]
    refine ⟨?_, hname⟩
    rcases List.mem_pair.mp hname with rfl | rfl <;> decide
  refine ⟨_, listsDevices_udevShell _ _, ?_⟩
  refine (selects_exactly_iff hnames).1.mpr hfour _ _ (listsDevices_udevShell _ _) ?_
  intro dev hdev
  rw [of_decide_eq_true hdev]
  decide

/-- A partition with two digits hides the stick behind it. -/
theorem sda10_hides_sdb1 :
    ¬ ∀ (names : List Text) (sh : Shell Unit) (usb : Text → Bool),
      (∀ name ∈ names, IsDeviceName name) → ListsDevices sh names usb →
        (∀ dev, usb dev = true → dev ∈ names) →
          SelectsExactly names usb (devicesConnected sh) := by
  intro hall
  have hnames : ∀ name ∈ ["sda10".toList, "sdb1".toList], IsDeviceName name := by
    rintro name hname
    rcases List.mem_pair.mp hname with rfl | rfl
    · exact ⟨by decide, [], 'a', '1', ['0'], rfl, by decide, by decide⟩
    · exact ⟨by decide, [], 'b', '1', [], rfl, by decide, by decide⟩
  have honly : ∀ dev, decide (dev = "sdb1".toList) = true →
      dev ∈ ["sda10".toList, "sdb1".toList] := by
    intro dev hdev
    rw [of_decide_eq_true hdev]
    decide
  have hexact := hall _ _ _ hnames (listsDevices_udevShell _ _) honly
  exact absurd hexact.1 (by decide)

end Infotainment
