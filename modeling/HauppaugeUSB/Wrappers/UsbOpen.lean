/-
# Opening a device

`USBWrapper_t::Open` is to find the first device with a serial number, or to fail. It
compares as many characters of its buffer as the serial number has, so that a device
passes whose own serial number merely begins with it, or could not be read while the
buffer still held another one's. And it tells success from failure by an index that its
loop does not touch. What is determined here is when it does what it is to do.
-/

import HauppaugeUSB.Streams.Search
import HauppaugeUSB.Wrappers.Usb

namespace HauppaugeUSB.Wrappers

open HauppaugeUSB.Commands HauppaugeUSB.Streams

variable {Device : Type*}

/-- The descriptor and the name of a device that `DevName` accepts and that can be opened. -/
def candidate (usb : Libusb Device) (device : Device) : Option (Descriptor × Text) :=
  (usb.descriptor device).bind fun desc => (devName desc).bind fun name =>
    if usb.opens device then some (desc, name) else none

/-- A device that is accepted, can be opened and has a serial number. -/
def HasSerial (usb : Libusb Device) (serial : Text) (device : Device) : Prop :=
  ∃ desc name string, candidate usb device = some (desc, name) ∧
    usb.stringDescriptor device desc.iSerialNumber = some string ∧ string.text = serial

/-- The devices that a call finds in the list. -/
def listedDevices (usb : Libusb Device) (wrapper : USBWrapper Device) : List Device :=
  (listDevices usb wrapper).1.getD []

/-- A call has opened a device and describes it. -/
structure Selected (usb : Libusb Device) (device : Device) (before after : USBWrapper Device) :
    Prop where
  handle : ∃ number, before.opened ≤ number ∧ number < after.opened ∧
    after.handle = some ⟨device, number⟩
  remembered : after.device = some device
  described : candidate usb device = some (after.desc, after.name)

/-- `Open` finds its device or fails. -/
structure OpensRightly (usb : Libusb Device) (serial : Text) (wrapper : USBWrapper Device) :
    Prop where
  found : (openUsb usb serial wrapper).1 = true ↔
    ∃ device ∈ listedDevices usb wrapper, HasSerial usb serial device
  selected : (openUsb usb serial wrapper).1 = true →
    ∃ prior device, FirstAccepted (fun _ => HasSerial usb serial) (listedDevices usb wrapper)
      prior device ∧ Selected usb device wrapper (openUsb usb serial wrapper).2
  failed : (openUsb usb serial wrapper).1 = false →
    (openUsb usb serial wrapper).2.handle = wrapper.handle

/-- The buffer of the loop after a device. -/
def bufferStep (usb : Libusb Device) (buffer : ℕ → Char) (device : Device) : ℕ → Char :=
  match candidate usb device with
  | none => buffer
  | some (desc, _) => usb.readString device desc.iSerialNumber buffer

/-- The buffer of the loop after some devices. -/
def bufferAfter (usb : Libusb Device) (devices : List Device) : ℕ → Char :=
  devices.foldl (bufferStep usb) usb.strDesc

/-- A device listed after others passes the comparison of `Open`. -/
def PassesCompare (usb : Libusb Device) (serial : Text) (prior : List Device) (device : Device) :
    Prop :=
  (candidate usb device).isSome = true ∧ Shows (bufferAfter usb (prior ++ [device])) serial

/-- There is no device at all, or the one with the serial number is the first that passes. -/
def FoundFirst (usb : Libusb Device) (serial : Text) (devices : List Device) : Prop :=
  devices = [] ∨ ∃ prior device, prior ++ [device] <+: devices ∧ HasSerial usb serial device ∧
    NoneAccepted (PassesCompare usb serial) prior

section Loop

variable {usb : Libusb Device} {serial : Text}

/-- What a call leaves alone that selects no device. -/
structure Unselected (before after : USBWrapper Device) : Prop where
  handle : after.handle = before.handle
  device : after.device = before.device
  desc : after.desc = before.desc
  name : after.name = before.name
  opened : before.opened ≤ after.opened

theorem Unselected.refl (wrapper : USBWrapper Device) : Unselected wrapper wrapper :=
  ⟨rfl, rfl, rfl, rfl, Nat.le_refl _⟩

theorem Unselected.trans {first second third : USBWrapper Device} (hfirst : Unselected first second)
    (hsecond : Unselected second third) : Unselected first third :=
  ⟨hsecond.handle.trans hfirst.handle, hsecond.device.trans hfirst.device,
    hsecond.desc.trans hfirst.desc, hsecond.name.trans hfirst.name,
    Nat.le_trans hfirst.opened hsecond.opened⟩

theorem Selected.of_unselected {device : Device} {first second third : USBWrapper Device}
    (hfirst : Unselected first second) (hsecond : Selected usb device second third) :
    Selected usb device first third := by
  obtain ⟨⟨number, hopened, hlater, hhandle⟩, hdevice, hdescribed⟩ := hsecond
  exact ⟨⟨number, Nat.le_trans hfirst.opened hopened, hlater, hhandle⟩, hdevice, hdescribed⟩

theorem bufferAfter_append_singleton {prior : List Device} {device : Device} :
    bufferAfter usb (prior ++ [device]) = bufferStep usb (bufferAfter usb prior) device := by
  simp [bufferAfter]

theorem openLoop_of_candidate_none {rest : List Device} {device : Device} {buffer : ℕ → Char}
    {wrapper : USBWrapper Device} (hnone : candidate usb device = none) :
    ∃ later, Unselected wrapper later ∧
      openLoop usb serial (device :: rest) buffer wrapper =
        openLoop usb serial rest buffer later := by
  unfold candidate at hnone
  rw [openLoop]
  cases hdesc : usb.descriptor device with
  | none => exact ⟨wrapper.say _, ⟨rfl, rfl, rfl, rfl, Nat.le_refl _⟩, rfl⟩
  | some desc =>
      rw [hdesc, Option.bind_some] at hnone
      dsimp only
      cases hname : devName desc with
      | none => exact ⟨wrapper, .refl wrapper, rfl⟩
      | some name =>
          have hopens : usb.opens device = false := by simpa [hname] using hnone
          simp only [hopens, if_true]
          exact ⟨wrapper.say _, ⟨rfl, rfl, rfl, rfl, Nat.le_refl _⟩, rfl⟩

theorem openLoop_of_candidate {rest : List Device} {device : Device} {buffer : ℕ → Char}
    {wrapper : USBWrapper Device} {desc : Descriptor} {name : Text}
    (hsome : candidate usb device = some (desc, name)) :
    openLoop usb serial (device :: rest) buffer wrapper =
      if ¬ Shows (usb.readString device desc.iSerialNumber buffer) serial then
        openLoop usb serial rest (usb.readString device desc.iSerialNumber buffer)
          ((wrapper.opening device).call (.close (wrapper.nextHandle device)))
      else
        { wrapper.opening device with
          handle := some (wrapper.nextHandle device)
          device := some device
          desc := desc
          name := name } := by
  obtain ⟨desc', hdesc, hrest⟩ := Option.bind_eq_some_iff.mp hsome
  obtain ⟨name', hname, hopens⟩ := Option.bind_eq_some_iff.mp hrest
  split at hopens
  case isFalse => cases hopens
  case isTrue hopened =>
    cases hopens
    rw [openLoop, hdesc]
    simp only [hname, hopened, Bool.true_eq_false, if_false]

/-- A device that does not pass is passed over. -/
theorem openLoop_of_not_passes {prior rest : List Device} {device : Device}
    {wrapper : USBWrapper Device} (hpasses : ¬ PassesCompare usb serial prior device) :
    ∃ later, Unselected wrapper later ∧
      openLoop usb serial (device :: rest) (bufferAfter usb prior) wrapper =
        openLoop usb serial rest (bufferAfter usb (prior ++ [device])) later := by
  rw [PassesCompare, bufferAfter_append_singleton] at hpasses
  rw [bufferAfter_append_singleton, bufferStep]
  cases hcandidate : candidate usb device with
  | none => exact openLoop_of_candidate_none hcandidate
  | some found =>
      have hshows : ¬ Shows (usb.readString device found.1.iSerialNumber (bufferAfter usb prior))
          serial := by
        simpa [bufferStep, hcandidate] using hpasses
      rw [openLoop_of_candidate hcandidate, if_pos hshows]
      exact ⟨(wrapper.opening device).call (.close (wrapper.nextHandle device)),
        ⟨rfl, rfl, rfl, rfl, Nat.le_succ _⟩, rfl⟩

/-- One that passes is selected. -/
theorem openLoop_of_passes {prior rest : List Device} {device : Device}
    {wrapper : USBWrapper Device} (hpasses : PassesCompare usb serial prior device) :
    Selected usb device wrapper
      (openLoop usb serial (device :: rest) (bufferAfter usb prior) wrapper) := by
  rw [PassesCompare, bufferAfter_append_singleton, Option.isSome_iff_exists] at hpasses
  obtain ⟨⟨found, hcandidate⟩, hshows⟩ := hpasses
  rw [bufferStep, hcandidate] at hshows
  rw [openLoop_of_candidate hcandidate, if_neg (not_not_intro hshows)]
  exact ⟨⟨wrapper.opened, Nat.le_refl _, Nat.lt_succ_self _, rfl⟩, rfl, hcandidate⟩

/-- The loop passes over devices none of which passes. -/
theorem openLoop_of_noneAccepted {prior : List Device} (rest : List Device)
    {wrapper : USBWrapper Device} (hnone : NoneAccepted (PassesCompare usb serial) prior) :
    ∃ later, Unselected wrapper later ∧
      openLoop usb serial (prior ++ rest) usb.strDesc wrapper =
        openLoop usb serial rest (bufferAfter usb prior) later := by
  induction prior using List.reverseRecOn generalizing rest with
  | nil => exact ⟨wrapper, .refl wrapper, rfl⟩
  | append_singleton earlier device ih =>
      obtain ⟨hearlier, hdevice⟩ := noneAccepted_append_singleton.mp hnone
      obtain ⟨between, hbetween, hrun⟩ := ih (device :: rest) hearlier
      obtain ⟨later, hlater, hstep⟩ := openLoop_of_not_passes hdevice
      refine ⟨later, hbetween.trans hlater, ?_⟩
      rw [List.append_assoc, List.singleton_append, hrun, hstep]

/-- It selects the first device that passes. -/
theorem selected_of_first {devices prior : List Device} {device : Device}
    {wrapper : USBWrapper Device}
    (hfirst : FirstAccepted (PassesCompare usb serial) devices prior device) :
    Selected usb device wrapper (openLoop usb serial devices usb.strDesc wrapper) := by
  obtain ⟨⟨rest, rfl⟩, hpasses, hnone⟩ := hfirst
  obtain ⟨later, hlater, hrun⟩ := openLoop_of_noneAccepted (device :: rest) hnone
  rw [List.append_assoc, List.singleton_append, hrun]
  exact .of_unselected hlater (openLoop_of_passes hpasses)

/-- It selects none if none passes. -/
theorem unselected_of_noneAccepted {devices : List Device} {wrapper : USBWrapper Device}
    (hnone : NoneAccepted (PassesCompare usb serial) devices) :
    Unselected wrapper (openLoop usb serial devices usb.strDesc wrapper) := by
  obtain ⟨later, hlater, hrun⟩ := openLoop_of_noneAccepted [] hnone
  rw [List.append_nil] at hrun
  rw [hrun]
  exact hlater

end Loop

section Open

variable {usb : Libusb Device} {serial : Text} {wrapper : USBWrapper Device} {device : Device}
  {prior : List Device}

/-- The device with the serial number passes. -/
theorem HasSerial.passes (hserial : HasSerial usb serial device) :
    PassesCompare usb serial prior device := by
  obtain ⟨desc, name, string, hcandidate, hstring, rfl⟩ := hserial
  refine ⟨by simp [hcandidate], ?_⟩
  rw [bufferAfter_append_singleton, bufferStep, hcandidate]
  simp only [Libusb.readString, hstring]
  exact shows_place_self

theorem Selected.claimDevice {before after : USBWrapper Device}
    (hselected : Selected usb device before after) :
    Selected usb device before (claimDevice usb after) :=
  ⟨hselected.handle, hselected.remembered, hselected.described⟩

/-- What `Open` does with the devices it finds. -/
theorem openUsb_cases (usb : Libusb Device) (serial : Text) (wrapper : USBWrapper Device) :
    (listedDevices usb wrapper = [] ∧ (openUsb usb serial wrapper).1 = false ∧
      (openUsb usb serial wrapper).2.handle = wrapper.handle) ∨
    (listedDevices usb wrapper ≠ [] ∧ (openUsb usb serial wrapper).1 = true ∧
      ∃ listing, Unselected wrapper listing ∧
        (openUsb usb serial wrapper).2 = Wrappers.claimDevice usb
          (openLoop usb serial (listedDevices usb wrapper) usb.strDesc listing)) := by
  have hlisting : Unselected wrapper (listDevices usb wrapper).2 := by
    unfold listDevices
    split
    · exact ⟨rfl, rfl, rfl, rfl, Nat.le_refl _⟩
    · split
      · exact .refl wrapper
      · split <;> exact ⟨rfl, rfl, rfl, rfl, Nat.le_refl _⟩
  unfold listedDevices openUsb
  cases hlist : listDevices usb wrapper with
  | mk found listing =>
      rw [hlist] at hlisting
      cases found with
      | none => exact .inl ⟨rfl, rfl, hlisting.handle⟩
      | some devices =>
          cases devices with
          | nil => exact .inl ⟨rfl, rfl, hlisting.handle⟩
          | cons device rest => exact .inr ⟨by simp, rfl, listing, hlisting, rfl⟩

/-- `Open` opens the device with the serial number exactly when it comes first among those that it
takes for it. -/
theorem opensRightly_iff :
    OpensRightly usb serial wrapper ↔ FoundFirst usb serial (listedDevices usb wrapper) := by
  rcases openUsb_cases usb serial wrapper with
    ⟨hlisted, hfalse, hhandle⟩ | ⟨hlisted, htrue, listing, hlisting, hopened⟩
  · refine ⟨fun _ => .inl hlisted, fun _ => ⟨?_, ?_, fun _ => hhandle⟩⟩
    · simp [hfalse, hlisted]
    · simp [hfalse]
  have hselects (prior : List Device) (device : Device)
      (hfirst : FirstAccepted (PassesCompare usb serial) (listedDevices usb wrapper) prior device) :
      Selected usb device wrapper (openUsb usb serial wrapper).2 := by
    rw [hopened]
    exact .of_unselected hlisting (selected_of_first hfirst).claimDevice
  constructor
  · intro hright
    obtain ⟨prior, device, hfirst, hselected⟩ := hright.selected htrue
    refine .inr ⟨prior, device, hfirst.here, hfirst.accepted, ?_⟩
    have hprior : prior <+: listedDevices usb wrapper :=
      (List.prefix_append _ _).trans hfirst.here
    rcases noneAccepted_or_exists_first (PassesCompare usb serial) prior with
      hnone | ⟨earlier, other, hother⟩
    · exact hnone
    · -- the first device that passes is the one that has been opened
      have hopens :=
        hselects earlier other ⟨hother.here.trans hprior, hother.accepted, hother.first⟩
      have hsame : other = device := by
        have hremembered := hopens.remembered.symm.trans hselected.remembered
        exact Option.some.inj hremembered
      exact absurd (hsame ▸ hfirst.accepted) (hfirst.first earlier other hother.here)
  · rintro (hnil | ⟨prior, device, hhere, hserial, hnone⟩)
    · exact absurd hnil hlisted
    · refine ⟨?_, fun _ => ⟨prior, device, ⟨hhere, hserial, ?_⟩, ?_⟩, fun hfalse => ?_⟩
      · have hmem : device ∈ listedDevices usb wrapper := hhere.subset (by simp)
        exact ⟨fun _ => ⟨device, hmem, hserial⟩, fun _ => htrue⟩
      · exact fun earlier other hother hhas => hnone earlier other hother hhas.passes
      · exact hselects prior device ⟨hhere, hserial.passes, hnone⟩
      · simp [htrue] at hfalse

/-- A bus with one device, which is no recorder. -/
def oneMouse : Libusb ℕ where
  init := 0
  deviceList := .ok [0]
  descriptor _ := some ⟨0x046d, 0xc077, 1⟩
  opens _ := true
  string _ := some ⟨text "M-1", by decide⟩
  busNumber _ := 1
  portNumber _ := 1
  strDesc _ := '\x00'
  strDescFor _ _ := '\x00'
  resetDevice := 0
  kernelDriverActive := 0
  detachKernelDriver := 0
  claimInterface := 0

theorem not_opensRightly : ¬ OpensRightly oneMouse (text "E505-00-00AF4321") (.new oneMouse 0) := by
  intro hright
  have htrue : (openUsb oneMouse (text "E505-00-00AF4321") (.new oneMouse 0)).1 = true := by decide
  obtain ⟨device, -, desc, name, string, hcandidate, -⟩ := hright.found.mp htrue
  have hnone : candidate oneMouse device = none := rfl
  simp [hnone] at hcandidate

end Open

end HauppaugeUSB.Wrappers
