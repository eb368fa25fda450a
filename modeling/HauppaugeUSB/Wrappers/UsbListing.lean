/-
# Describing the devices on a bus

`ListDevs` asks `DeviceList` for the recorders, and then opens each of them by its serial
number, describes the one that `Open` has taken, and closes it. On a bus that stays as it
is this never fails halfway and leaves no handle behind, but a recorder is described under
the headline of another one if the other's serial number begins its own and it is listed
first. The first headline leaves its stream printing numbers to the base sixteen.
-/

import HauppaugeUSB.Wrappers.UsbHandles

namespace HauppaugeUSB.Wrappers

open HauppaugeUSB.Commands HauppaugeUSB.Concurrency HauppaugeUSB.Streams

variable {Device : Type*}

/-- The fields of `libusb_endpoint_descriptor` that are read. -/
structure EndpointDescriptor where
  bDescriptorType : ℕ
  bEndpointAddress : ℕ

/-- Those of `libusb_interface_descriptor`, with its `bNumEndpoints` endpoints. -/
structure InterfaceDescriptor where
  bInterfaceNumber : ℕ
  endpoint : List EndpointDescriptor

/-- The alternate settings of each interface of a `libusb_config_descriptor`. -/
structure ConfigDescriptor where
  interface : List (List InterfaceDescriptor)

/-- What libusb replies to `USBDevDesc` besides. -/
structure Details (Device : Type*) where
  bNumConfigurations : Device → ℕ
  bDeviceClass : Device → ℕ
  iManufacturer : Device → ℕ
  /-- The string that the manufacturer index refers to can be read. -/
  manufacturer : Device → Option DeviceString
  /-- `libusb_get_config_descriptor`, which may fail. -/
  config : Device → Option ConfigDescriptor
  /-- What is in the `strDesc` of `USBDevDesc` before anything is read into it. -/
  strDesc : ℕ → Char

/-- A number as a stream prints it to a base. -/
def printed (base number : ℕ) : Text :=
  Nat.toDigits base number

def endpointText (epdesc : EndpointDescriptor) : Text :=
  text "Descriptor Type: " ++ printed 10 epdesc.bDescriptorType ++ text " | " ++
    text "EP Address: " ++ printed 10 epdesc.bEndpointAddress ++ text " | "

def interfaceText (interdesc : InterfaceDescriptor) : Text :=
  text "Interface Number: " ++ printed 10 interdesc.bInterfaceNumber ++ text " | " ++
    text "Number of endpoints: " ++ printed 10 interdesc.endpoint.length ++ text " | " ++
    interdesc.endpoint.flatMap endpointText

def configText (config : ConfigDescriptor) : Text :=
  text "Interfaces: " ++ printed 10 config.interface.length ++ text " ||| " ++
    (config.interface.flatMap fun inter =>
      text "Number of alternate settings: " ++ printed 10 inter.length ++ text " | " ++
        inter.flatMap interfaceText) ++ text "\n\n"

def deviceText (details : Details Device) (device : Device) (desc : Descriptor) : Text :=
  text "Number of possible configurations: " ++
    printed 10 (details.bNumConfigurations device) ++ text "  " ++
    text "Device Class: " ++ printed 10 (details.bDeviceClass device) ++ text "  " ++
    text "VendorID: " ++ printed 10 desc.idVendor ++ text "  " ++
    text "ProductID: " ++ printed 10 desc.idProduct ++ text "\n"

/-- The buffer after the manufacturer has been asked for. -/
def Details.readManufacturer (details : Details Device) (device : Device) (buffer : ℕ → Char) :
    ℕ → Char :=
  match details.manufacturer device with
  | none => buffer
  | some string => place '\x00' string.text buffer

/-- The line about a string that is read by way of a handle, and the buffer afterwards. -/
def stringLine (wrapper : USBWrapper Device) (label : Text) (index : ℕ)
    (read : Device → (ℕ → Char) → ℕ → Char) (buffer : ℕ → Char) : Option (Text × (ℕ → Char)) :=
  if index = 0 then some ([], buffer)
  else
    wrapper.handle.map fun handle =>
      let strDesc := read handle.device buffer
      (label ++ contents '\x00' 257 strDesc ++ text "\n", strDesc)

/-- `USBWrapper_t::USBDevDesc`, which leaves its argument alone if there is no descriptor.
Without a device, without a handle to read a string by and without a configuration it goes by
a pointer to nothing. -/
def usbDevDesc (usb : Libusb Device) (details : Details Device) (wrapper : USBWrapper Device)
    (descstr : Text) : Option (Text × USBWrapper Device) :=
  wrapper.device.bind fun device =>
    match usb.descriptor device with
    | none => some (descstr, wrapper.say (text "Failed to get USB description for dev.\n"))
    | some desc =>
        (stringLine wrapper (text "Manufacturer: ") (details.iManufacturer device)
            details.readManufacturer details.strDesc).bind fun manufacturer =>
          (stringLine wrapper (text "Serial: ") desc.iSerialNumber
              (fun of => usb.readString of desc.iSerialNumber) manufacturer.2).bind fun serial =>
            (details.config device).map fun config =>
              (deviceText details device desc ++ manufacturer.1 ++ serial.1 ++ configText config,
                wrapper)

/-- What `ListDevs` returns, what it has printed, and its wrapper. -/
structure Listing (Device : Type*) where
  found : Bool
  out : Text
  err : Text
  usbio : USBWrapper Device

/-- The line about an entry. The bus and the port are printed to the base that the stream
has, the vendor and the product to the base sixteen. -/
def headline (base : ℕ) (entry : DeviceEntry) : Text :=
  text "[Bus: " ++ printed base entry.bus ++ text " Port: " ++ printed base entry.port ++
    text "]  " ++ printed 16 entry.vendor ++ text ":0x" ++ printed 16 entry.product ++
    text " " ++ entry.serial ++ text " " ++ entry.name ++ text "\n"

/-- The wrapper and `ErrorString`, printed as an error. -/
def Listing.failed (out : Text) (usbio : USBWrapper Device) : Listing Device where
  found := false
  out := out
  err := usbio.errmsg
  usbio := { usbio with errmsg := [] }

/-- The loop of `ListDevs`. The base is the one that its stream has. -/
def listDevsLoop (usb : Libusb Device) (details : Details Device) :
    List DeviceEntry → ℕ → Text → USBWrapper Device → Option (Listing Device)
  | [], _, out, usbio => some { found := true, out := out, err := [], usbio := usbio }
  | entry :: rest, base, out, usbio =>
      match openUsb usb entry.serial usbio with
      | (false, usbio) => some (.failed (out ++ headline base entry) usbio)
      | (true, usbio) =>
          (usbDevDesc usb details usbio []).bind fun described =>
            listDevsLoop usb details rest 16
              (out ++ headline base entry ++ described.1 ++ text "\n") (closeUsb described.2)

/-- `ListDevs`, where `opened` handles have been given out. At its end its wrapper is
destroyed. -/
def listDevs (usb : Libusb Device) (details : Details Device) (opened : ℕ) :
    Option (Listing Device) :=
  let listed := deviceList usb [] (.new usb opened)
  let listing :=
    if listed.1 = false then some (.failed [] listed.2.2)
    else listDevsLoop usb details listed.2.1 10 [] listed.2.2
  listing.map fun listing => { listing with usbio := destroyUsb listing.usbio }

/-- A bus that stays as it is, and whose recorders can be asked for what `USBDevDesc` wants. -/
structure DescribedBus (Device : Type*) extends StableBus Device where
  details : Details Device
  manufacturer : Device → DeviceString
  config : Device → ConfigDescriptor
  manufacturers : ∀ device ∈ devices, (candidate usb device).isSome = true →
    details.iManufacturer device ≠ 0 → details.manufacturer device = some (manufacturer device)
  configs : ∀ device ∈ devices, (candidate usb device).isSome = true →
    details.config device = some (config device)

namespace DescribedBus

variable (bus : DescribedBus Device)

/-- The recorders, in the order in which they are listed. -/
def recorders : List DeviceEntry :=
  bus.devices.filterMap (entryOf bus.toStableBus)

/-- The first recorder whose serial number begins with the given one. -/
def beginning (serial : Text) : Option Device :=
  bus.devices.find? fun device =>
    (candidate bus.usb device).isSome && decide (serial <+: (bus.serial device).text)

/-- The description of a recorder. -/
def description (device : Device) : Text :=
  (bus.usb.descriptor device).elim [] (deviceText bus.details device) ++
    (if bus.details.iManufacturer device = 0 then []
      else text "Manufacturer: " ++
        (bus.manufacturer device).text.takeWhile (· ≠ '\x00') ++ text "\n") ++
    (text "Serial: " ++ (bus.serial device).text ++ text "\n") ++ configText (bus.config device)

/-- What is to be read about some recorders: the headline of each, and a description. -/
def report : ℕ → List DeviceEntry → Text
  | _, [] => []
  | base, entry :: rest =>
      headline base entry ++ (bus.beginning entry.serial).elim [] bus.description ++ text "\n" ++
        report 16 rest

end DescribedBus

/-- `ListDevs` lists the recorders of a bus. -/
structure ListsRecorders (bus : DescribedBus Device) (listing : Listing Device) : Prop where
  found : listing.found = true ↔ ∃ device ∈ bus.devices, (candidate bus.usb device).isSome = true
  reported : listing.out = bus.report 10 bus.recorders
  silent : listing.found = true → listing.err = []
  /-- Under the headline of a recorder is its own description, unless the serial number of one
  that is listed earlier begins with its own. -/
  own : ∀ prior device, prior ++ [device] <+: bus.devices → device ∉ prior →
    (candidate bus.usb device).isSome = true →
      (bus.beginning (bus.serial device).text = some device ↔
        ∀ other ∈ prior, (candidate bus.usb other).isSome = true →
          ¬ (bus.serial device).text <+: (bus.serial other).text)
  closed : Balanced HandleCall.opened HandleCall.closed (fun _ => False) listing.usbio.calls

section Recorder

variable {bus : DescribedBus Device} {wrapper : USBWrapper Device} {device : Device}
  {serial : Text}

/-- What `USBDevDesc` says of the device that the wrapper holds. -/
theorem usbDevDesc_eq {number : ℕ} (hdevice : device ∈ bus.devices)
    (hcandidate : (candidate bus.usb device).isSome = true)
    (hremembered : wrapper.device = some device) (hheld : wrapper.handle = some ⟨device, number⟩) :
    usbDevDesc bus.usb bus.details wrapper [] = some (bus.description device, wrapper) := by
  obtain ⟨⟨desc, name⟩, hfound⟩ := Option.isSome_iff_exists.mp hcandidate
  obtain ⟨described, hdesc, hname⟩ := Option.bind_eq_some_iff.mp hfound
  obtain ⟨name', -, hopens⟩ := Option.bind_eq_some_iff.mp hname
  have hsame : described = desc := by
    split at hopens
    case isTrue => exact congrArg Prod.fst (Option.some.inj hopens)
    case isFalse => cases hopens
  subst hsame
  have hserial (buffer : ℕ → Char) :
      contents '\x00' 257 (bus.usb.readString device described.iSerialNumber buffer) =
        (bus.serial device).text := by
    rw [Libusb.readString, bus.strings device hdevice _ _ hfound]
    exact contents_place_of_notMem (bus.nulFree device hdevice hcandidate)
      (Nat.lt_of_le_of_lt (bus.serial device).length_le (by decide))
  have hindex := bus.toStableBus.iSerialNumber_ne hdevice hfound
  have hmanufacturer (hthere : bus.details.iManufacturer device ≠ 0) :
      contents '\x00' 257 (bus.details.readManufacturer device bus.details.strDesc) =
        (bus.manufacturer device).text.takeWhile (· ≠ '\x00') := by
    rw [Details.readManufacturer, bus.manufacturers device hdevice hcandidate hthere]
    exact contents_place (Nat.lt_of_le_of_lt (bus.manufacturer device).length_le (by decide))
  rw [usbDevDesc, hremembered, Option.bind_some, hdesc]
  by_cases hthere : bus.details.iManufacturer device = 0
  · simp [stringLine, DescribedBus.description, hthere, hindex, hheld, hserial, hdesc,
      bus.configs device hdevice hcandidate]
  · simp [stringLine, DescribedBus.description, hthere, hindex, hheld, hserial, hdesc,
      hmanufacturer hthere, bus.configs device hdevice hcandidate]

/-- `Open` takes the first recorder whose serial number begins with the one it is given. -/
theorem beginning_of_first {prior : List Device} (hnul : '\x00' ∉ serial)
    (hfirst : FirstAccepted (PassesCompare bus.usb serial) bus.devices prior device) :
    bus.beginning serial = some device := by
  have hpasses (earlier : List Device) (other : Device) (hother : other ∈ bus.devices) :
      PassesCompare bus.usb serial earlier other ↔
        ((candidate bus.usb other).isSome && decide (serial <+: (bus.serial other).text)) := by
    refine (passesCompare_iff_begins hother hnul).trans ?_
    simp
  obtain ⟨rest, hsplit⟩ := hfirst.here
  rw [List.append_assoc, List.singleton_append] at hsplit
  rw [DescribedBus.beginning, List.find?_eq_some_iff_append]
  refine ⟨(hpasses prior device (hfirst.here.subset (by simp))).mp hfirst.accepted, prior, rest,
    hsplit.symm, fun other hother => ?_⟩
  obtain ⟨before, after, hprior⟩ := List.append_of_mem hother
  have hbegins : before ++ [other] <+: prior := ⟨after, by simp [hprior]⟩
  have hrejected := hfirst.first before other hbegins
  rw [hpasses before other (by simp [← hsplit, hother])] at hrejected
  simpa only [Bool.not_eq_true, Bool.not_eq_eq_eq_not, Bool.not_true] using hrejected

/-- Opening a recorder by its serial number takes that one. -/
theorem openUsb_recorder (hwrapper : OnBus bus.toStableBus wrapper) (hdevice : device ∈ bus.devices)
    (hcandidate : (candidate bus.usb device).isSome = true) :
    ∃ first ∈ bus.devices, (candidate bus.usb first).isSome = true ∧
      bus.beginning (bus.serial device).text = some first ∧
      (openUsb bus.usb (bus.serial device).text wrapper).1 = true ∧
      Selected bus.usb first wrapper (openUsb bus.usb (bus.serial device).text wrapper).2 := by
  obtain ⟨⟨desc, name⟩, hfound⟩ := Option.isSome_iff_exists.mp hcandidate
  have hserial : HasSerial bus.usb (bus.serial device).text device :=
    ⟨desc, name, _, hfound, bus.strings device hdevice desc name hfound, rfl⟩
  have hlisted : device ∈ bus.toStableBus.devices := hdevice
  obtain ⟨prior, first, hfirst⟩ := exists_first_of_hasSerial hlisted hserial
  refine ⟨first, hfirst.here.subset (by simp), hfirst.accepted.1,
    beginning_of_first (bus.nulFree device hdevice hcandidate) hfirst, ?_,
    hwrapper.selected hfirst⟩
  rcases openUsb_cases bus.usb (bus.serial device).text wrapper with ⟨hnil, -⟩ | ⟨-, htrue, -⟩
  · rw [hwrapper.listedDevices] at hnil
    simp [hnil] at hdevice
  · exact htrue

/-- A recorder is found by its own serial number unless an earlier one is. -/
theorem beginning_self_iff {prior : List Device} (hhere : prior ++ [device] <+: bus.devices)
    (hnew : device ∉ prior) (hcandidate : (candidate bus.usb device).isSome = true) :
    bus.beginning (bus.serial device).text = some device ↔
      ∀ other ∈ prior, (candidate bus.usb other).isSome = true →
        ¬ (bus.serial device).text <+: (bus.serial other).text := by
  obtain ⟨rest, hsplit⟩ := hhere
  rw [List.append_assoc, List.singleton_append] at hsplit
  rw [DescribedBus.beginning, ← hsplit, List.find?_append,
    List.find?_cons_of_pos (by simp [hcandidate])]
  cases hearlier : prior.find? fun other => (candidate bus.usb other).isSome &&
      decide ((bus.serial device).text <+: (bus.serial other).text) with
  | none =>
      rw [List.find?_eq_none] at hearlier
      simpa using hearlier
  | some other =>
      have hother := List.mem_of_find?_eq_some hearlier
      have hbegins := List.find?_some hearlier
      have hdifferent : other ≠ device := fun hsame => hnew (hsame ▸ hother)
      simp only [Bool.and_eq_true, decide_eq_true_eq] at hbegins
      constructor
      · intro hsame
        exact absurd (Option.some.inj hsame) hdifferent
      · intro hnone
        exact absurd hbegins.2 (hnone other hother hbegins.1)

end Recorder

section Listing

variable {bus : DescribedBus Device} {wrapper : USBWrapper Device}

/-- The loop reports what it is given, and closes what it opens. -/
theorem listDevsLoop_eq {devs : List DeviceEntry} (base : ℕ) (out : Text)
    (hdevs : ∀ entry ∈ devs, ∃ device ∈ bus.devices,
      entryOf bus.toStableBus device = some entry)
    (hwrapper : OnBus bus.toStableBus wrapper) (hledger : HandleLedger wrapper)
    (hfree : wrapper.handle = none) :
    ∃ later, HandleLedger later ∧ listDevsLoop bus.usb bus.details devs base out wrapper =
      some { found := true, out := out ++ bus.report base devs, err := [], usbio := later } := by
  induction devs generalizing base out wrapper with
  | nil => exact ⟨wrapper, hledger, by simp [listDevsLoop, DescribedBus.report]⟩
  | cons entry rest ih =>
      obtain ⟨device, hdevice, hentry⟩ := hdevs entry List.mem_cons_self
      have hcandidate : (candidate bus.usb device).isSome = true := by
        rw [entryOf, Option.map_eq_some_iff] at hentry
        obtain ⟨found, hfound, -⟩ := hentry
        exact Option.isSome_iff_exists.mpr ⟨found, hfound⟩
      have hserial : entry.serial = (bus.serial device).text := by
        obtain ⟨found, -, rfl⟩ := Option.map_eq_some_iff.mp hentry
        rfl
      obtain ⟨first, hfirst, haccepted, hbeginning, htrue, hselected⟩ :=
        openUsb_recorder hwrapper hdevice hcandidate
      rw [← hserial] at hbeginning htrue hselected
      obtain ⟨number, -, -, hheld⟩ := hselected.handle
      have hopened : HandleLedger (openUsb bus.usb entry.serial wrapper).2 :=
        hledger.openUsb hfree
      have hstays := onBus_step hwrapper
        (show (usbWrapper bus.usb).step wrapper (.openUsb entry.serial) = some _ from rfl)
      have hcloses := onBus_step hstays
        (show (usbWrapper bus.usb).step _ .closeUsb = some _ from rfl)
      obtain ⟨later, hlater, hrest⟩ :=
        ih _ _ (fun other hother => hdevs other (List.mem_cons_of_mem _ hother)) hcloses
          hopened.closeUsb (closeUsb_handle _)
      refine ⟨later, hlater, ?_⟩
      rw [listDevsLoop, ← Prod.eta (openUsb bus.usb entry.serial wrapper), htrue]
      dsimp only
      rw [usbDevDesc_eq hfirst haccepted hselected.remembered hheld, Option.bind_some, hrest]
      simp [DescribedBus.report, hbeginning, List.append_assoc]

/-- `DeviceList` finds the recorders. -/
theorem deviceList_recorders (hwrapper : OnBus bus.toStableBus wrapper) :
    (deviceList bus.usb [] wrapper).2.1 = bus.recorders ∧
      (deviceList bus.usb [] wrapper).1 = !bus.recorders.isEmpty := by
  have hentries : (deviceList bus.usb [] wrapper).2.1 = bus.recorders := by
    rw [deviceList_appended, hwrapper.listedDevices, List.nil_append]
    exact List.filterMap_congr fun device hdevice => appended_eq_entryOf hdevice
  refine ⟨hentries, ?_⟩
  rw [← hentries]
  unfold deviceList
  rw [← Prod.eta (listDevices bus.usb wrapper), hwrapper.listDevices.1]
  dsimp only
  split <;> simp

theorem deviceListLoop_handle {usb : Libusb Device} {devices : List Device}
    {devs : List DeviceEntry} : (deviceListLoop usb devices devs wrapper).2.handle =
      wrapper.handle := by
  induction devices generalizing devs wrapper with
  | nil => rfl
  | cons device rest ih =>
      rw [deviceListLoop]
      split
      · exact ih
      · split
        · exact ih
        · split
          · exact ih
          · split <;> exact ih

theorem deviceList_handle {usb : Libusb Device} {devs : List DeviceEntry}
    (hledger : HandleLedger wrapper) :
    (deviceList usb devs wrapper).2.2.handle = wrapper.handle := by
  obtain ⟨-, hkept⟩ := hledger.listDevices usb
  unfold deviceList
  split
  case h_1 listing hlist => rwa [hlist] at hkept
  case h_2 devices listing hlist =>
    rw [hlist] at hkept
    split
    · exact hkept
    · exact deviceListLoop_handle.trans hkept

theorem HandleLedger.destroyed (hledger : HandleLedger wrapper) :
    Balanced HandleCall.opened HandleCall.closed (fun _ => False) (destroyUsb wrapper).calls := by
  have hclosed := hledger.closeUsb.balanced
  simp only [closeUsb_handle, reduceCtorEq] at hclosed
  exact hclosed

theorem exists_candidate_iff :
    (∃ device ∈ bus.devices, (candidate bus.usb device).isSome = true) ↔
      (!bus.recorders.isEmpty) = true := by
  simp [DescribedBus.recorders, entryOf, List.filterMap_eq_nil_iff, Option.isSome_iff_ne_none]

/-- On a bus that stays as it is, `ListDevs` reports every recorder and comes to its end without
a handle. -/
theorem listsRecorders (bus : DescribedBus Device) (opened : ℕ) :
    ∃ listing, listDevs bus.usb bus.details opened = some listing ∧ ListsRecorders bus listing := by
  have hnew : OnBus bus.toStableBus (.new bus.usb opened) := onBus_new
  have hledger : HandleLedger (deviceList bus.usb [] (.new bus.usb opened)).2.2 :=
    HandleLedger.deviceList handleLedger_new
  have hlisted := onBus_step hnew
    (show (usbWrapper bus.usb).step _ (.deviceList []) = some _ from rfl)
  have hfree : (deviceList bus.usb [] (.new bus.usb opened)).2.2.handle = none :=
    deviceList_handle handleLedger_new
  obtain ⟨hentries, hfound⟩ := deviceList_recorders hnew
  unfold listDevs
  cases hempty : bus.recorders.isEmpty with
  | true =>
      rw [hempty, Bool.not_true] at hfound
      refine ⟨_, by simp only [hfound, if_true, Option.map_some]; rfl, ?_⟩
      refine ⟨?_, ?_, fun htrue => ?_, fun _ _ => beginning_self_iff, ?_⟩
      · simp [Listing.failed, exists_candidate_iff, hempty]
      · rw [List.isEmpty_iff.mp hempty]
        rfl
      · cases htrue
      · have hprinted : HandleLedger (Listing.failed [] (deviceList bus.usb []
            (.new bus.usb opened)).2.2).usbio := hledger.of_eq rfl rfl rfl
        exact hprinted.destroyed
  | false =>
      rw [hempty, Bool.not_false] at hfound
      have hrecorders : ∀ entry ∈ bus.recorders, ∃ device ∈ bus.devices,
          entryOf bus.toStableBus device = some entry := fun entry => List.mem_filterMap.mp
      obtain ⟨later, hlater, hloop⟩ := listDevsLoop_eq 10 [] hrecorders hlisted hledger hfree
      refine ⟨{ found := true
                out := bus.report 10 bus.recorders
                err := []
                usbio := destroyUsb later }, ?_, ?_⟩
      · simp [hfound, hentries, hloop]
      · refine ⟨?_, rfl, fun _ => rfl, fun _ _ => beginning_self_iff, hlater.destroyed⟩
        simp [exists_candidate_iff, hempty]

/-- Two recorders, the serial number of the first of which begins with that of the second. -/
def nestedDescribed : DescribedBus Bool where
  toStableBus := nestedRecorders
  details :=
    { bNumConfigurations := fun _ => 1
      bDeviceClass := fun _ => 0
      iManufacturer := fun _ => 0
      manufacturer := fun _ => none
      config := fun _ => some ⟨[]⟩
      strDesc := fun _ => '\x00' }
  manufacturer _ := ⟨[], Nat.zero_le _⟩
  config _ := ⟨[]⟩
  manufacturers _ _ _ hthere := absurd rfl hthere
  configs _ _ _ := rfl

example : nestedDescribed.beginning (text "E505-00-00AF43") = some false := by decide

end Listing

end HauppaugeUSB.Wrappers
