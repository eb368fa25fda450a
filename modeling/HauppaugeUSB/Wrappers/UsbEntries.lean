/-
# Listing devices

`USBWrapper_t::DeviceList` appends an entry for each listed device that `DevName` accepts
and that has a serial number. It looks at what `libusb_open` returns, and not at what comes
of reading the serial number, so that an entry may hold what was in its buffer before.
-/

import HauppaugeUSB.Streams.Search
import HauppaugeUSB.Wrappers.UsbOpen

namespace HauppaugeUSB.Wrappers

open HauppaugeUSB.Commands HauppaugeUSB.Streams

variable {Device : Type*} {usb : Libusb Device} {device : Device} {devs : List DeviceEntry}
  {wrapper : USBWrapper Device}

/-- An entry is that of a device with a serial number index, and holds what has been read from
the device: its descriptor, its name, its string up to a NUL, and its place. -/
def ReadFrom (usb : Libusb Device) (device : Device) (entry : DeviceEntry) : Prop :=
  ∃ desc name string, candidate usb device = some (desc, name) ∧ desc.iSerialNumber ≠ 0 ∧
    usb.string device = some string ∧
    entry =
      { vendor := desc.idVendor
        product := desc.idProduct
        serial := string.text.takeWhile (· ≠ '\x00')
        name := name
        bus := usb.busNumber device
        port := usb.portNumber device }

/-- The entries that `DeviceList` appends have been read from some of the listed devices, one
from each, in their order. -/
def ReportsRead (usb : Libusb Device) (devs : List DeviceEntry) (wrapper : USBWrapper Device) :
    Prop :=
  ∃ chosen added, chosen.Sublist (listedDevices usb wrapper) ∧
    (deviceList usb devs wrapper).2.1 = devs ++ added ∧ List.Forall₂ (ReadFrom usb) chosen added

/-- The serial number of every device that has one, and that can be opened, can be read. -/
def SerialsReadable (usb : Libusb Device) (devices : List Device) : Prop :=
  ∀ device ∈ devices, ∀ desc name, candidate usb device = some (desc, name) →
    desc.iSerialNumber ≠ 0 → (usb.string device).isSome = true

/-- The entry that `DeviceList` makes of a device, if it makes one. -/
def appended (usb : Libusb Device) (device : Device) : Option DeviceEntry :=
  (candidate usb device).bind fun found =>
    if found.1.iSerialNumber = 0 then none
    else
      some
        { vendor := found.1.idVendor
          product := found.1.idProduct
          serial := contents '\x00' 257
            (usb.readString device found.1.iSerialNumber (usb.strDescFor device))
          name := found.2
          bus := usb.busNumber device
          port := usb.portNumber device }

theorem deviceListLoop_cons (usb : Libusb Device) (device : Device) {rest : List Device} :
    ∃ later, deviceListLoop usb (device :: rest) devs wrapper =
      deviceListLoop usb rest (devs ++ (appended usb device).toList) later := by
  unfold appended candidate
  rw [deviceListLoop]
  cases hdesc : usb.descriptor device with
  | none => exact ⟨wrapper, by simp⟩
  | some desc =>
      cases hname : devName desc with
      | none => exact ⟨wrapper, by simp [hname]⟩
      | some name =>
          by_cases hindex : desc.iSerialNumber = 0
          · refine ⟨wrapper, ?_⟩
            cases usb.opens device <;> simp [hname, hindex]
          · cases hopens : usb.opens device with
            | false =>
                exact ⟨wrapper.say (text "Failed to open dev.\n"), by simp [hname, hindex]⟩
            | true => exact ⟨_, by simp [hname, hindex]; rfl⟩

/-- The entries are those of the devices, in order. -/
theorem deviceListLoop_appended {devices : List Device} :
    (deviceListLoop usb devices devs wrapper).1 = devs ++ devices.filterMap (appended usb) := by
  induction devices generalizing devs wrapper with
  | nil => simp [deviceListLoop]
  | cons device rest ih =>
      obtain ⟨later, hrun⟩ := deviceListLoop_cons usb device
      rw [hrun, ih, List.append_assoc, List.filterMap_cons]
      cases appended usb device <;> rfl

theorem deviceList_appended :
    (deviceList usb devs wrapper).2.1 =
      devs ++ (listedDevices usb wrapper).filterMap (appended usb) := by
  unfold deviceList listedDevices
  cases hlist : listDevices usb wrapper with
  | mk found listing =>
      cases found with
      | none => simp
      | some devices =>
          cases devices with
          | nil => simp
          | cons device rest => simpa using deviceListLoop_appended

/-- Where the string can be read, the entry holds it, and only there. -/
theorem readFrom_iff {entry : DeviceEntry} :
    ReadFrom usb device entry ↔
      appended usb device = some entry ∧ (usb.string device).isSome = true := by
  have hserial (string : DeviceString) (index : ℕ) (hindex : index ≠ 0)
      (hstring : usb.string device = some string) :
      contents '\x00' 257 (usb.readString device index (usb.strDescFor device)) =
        string.text.takeWhile (· ≠ '\x00') := by
    rw [Libusb.readString, Libusb.stringDescriptor, if_neg hindex, hstring]
    have hlength : string.text.length < 257 := by
      have hle := string.length_le
      omega
    exact contents_place hlength
  constructor
  · rintro ⟨desc, name, string, hcandidate, hindex, hstring, rfl⟩
    rw [appended, hcandidate, Option.bind_some, if_neg hindex, hserial string _ hindex hstring]
    exact ⟨rfl, by simp [hstring]⟩
  · rintro ⟨happended, hreadable⟩
    obtain ⟨string, hstring⟩ := Option.isSome_iff_exists.mp hreadable
    obtain ⟨⟨desc, name⟩, hcandidate, hentry⟩ := Option.bind_eq_some_iff.mp happended
    split at hentry
    case isTrue => cases hentry
    case isFalse hindex =>
      rw [hserial string _ hindex hstring] at hentry
      exact ⟨desc, name, string, hcandidate, hindex, hstring, (Option.some.inj hentry).symm⟩

theorem serialsReadable_iff {devices : List Device} :
    SerialsReadable usb devices ↔
      ∀ device ∈ devices, (appended usb device).isSome = true →
        (usb.string device).isSome = true := by
  constructor
  · intro hreadable device hdevice hsome
    obtain ⟨entry, hentry⟩ := Option.isSome_iff_exists.mp hsome
    obtain ⟨⟨desc, name⟩, hcandidate, hindexed⟩ := Option.bind_eq_some_iff.mp hentry
    split at hindexed
    case isTrue => cases hindexed
    case isFalse hindex => exact hreadable device hdevice desc name hcandidate hindex
  · intro hreadable device hdevice desc name hcandidate hindex
    refine hreadable device hdevice ?_
    rw [appended, hcandidate, Option.bind_some, if_neg hindex, Option.isSome_some]

/-- `DeviceList` reports only what it has read if and only if every serial number that it asks
for can be read. -/
theorem reportsRead_iff (usb : Libusb Device) (devs : List DeviceEntry)
    (wrapper : USBWrapper Device) :
    ReportsRead usb devs wrapper ↔ SerialsReadable usb (listedDevices usb wrapper) := by
  rw [serialsReadable_iff]
  constructor
  · rintro ⟨chosen, added, hchosen, hadded, hread⟩ device hdevice hsome
    rw [deviceList_appended, List.append_cancel_left_eq] at hadded
    subst hadded
    -- as many devices are chosen as have entries, so these are the same devices
    have hsame := eq_filter_of_forall₂ hchosen hread fun device entry hentry => by
      rw [(readFrom_iff.mp hentry).1, Option.isSome_some]
    have hmem : device ∈ chosen := by
      rw [hsame]
      exact List.mem_filter.mpr ⟨hdevice, hsome⟩
    have hreadable : ∀ device ∈ chosen, (usb.string device).isSome = true :=
      ((List.forall₂_and_left _ _).mp (hread.imp fun device entry hentry =>
        ⟨(readFrom_iff.mp hentry).2, hentry⟩)).1
    exact hreadable device hmem
  · intro hreadable
    refine ⟨_, _, List.filter_sublist, deviceList_appended, forall₂_filter_filterMap ?_⟩
    intro device hdevice entry hentry
    exact readFrom_iff.mpr ⟨hentry, hreadable device hdevice (by rw [hentry, Option.isSome_some])⟩

/-- A bus with one recorder, whose serial number cannot be read. -/
def unreadableRecorder : Libusb ℕ where
  init := 0
  deviceList := .ok [0]
  descriptor _ := some ⟨0x2040, 0xe505, 3⟩
  opens _ := true
  string _ := none
  busNumber _ := 1
  portNumber _ := 1
  strDesc _ := '\x00'
  strDescFor _ _ := 'x'
  resetDevice := 0
  kernelDriverActive := 0
  detachKernelDriver := 0
  claimInterface := 0

theorem unread_serial_reported :
    ¬ ReportsRead unreadableRecorder [] (.new unreadableRecorder 0) := by
  rintro ⟨chosen, added, -, hadded, hread⟩
  have hlength : (deviceList unreadableRecorder [] (.new unreadableRecorder 0)).2.1.length = 1 := by
    decide
  cases hread with
  | nil => simp [hadded] at hlength
  | cons hfirst hrest =>
      obtain ⟨desc, name, string, -, -, hstring, -⟩ := hfirst
      cases hstring

end HauppaugeUSB.Wrappers
