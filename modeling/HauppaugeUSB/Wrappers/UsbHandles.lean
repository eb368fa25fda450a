/-
# The handles of a wrapper

`DeviceList` and `Open` open devices to read their serial numbers. `DeviceList` closes each
of them, `Open` keeps the one that it has been looking for, and `Close` and the destructor
close that one. As long as `Open` is not called while a handle is held, no handle is lost
and none is closed twice, whatever libusb replies to each of the calls.
-/

import HauppaugeUSB.Streams.Brackets
import HauppaugeUSB.Wrappers.UsbLookup

namespace HauppaugeUSB.Wrappers

open HauppaugeUSB.Commands HauppaugeUSB.Concurrency HauppaugeUSB.Streams

variable {Device : Type*}

/-- The handle that a call obtains. -/
def HandleCall.opened : HandleCall Device → Option (Handle Device)
  | .openDevice handle => some handle
  | _ => none

/-- The handle that a call closes. -/
def HandleCall.closed : HandleCall Device → Option (Handle Device)
  | .close handle => some handle
  | _ => none

/-- A wrapper and the calls to it, to each of which libusb replies anew. -/
@[reducible]
def changingBus (Device : Type*) : System (USBWrapper Device) (Libusb Device × UsbCall) where
  IsStart wrapper := ∃ usb opened, wrapper = .new usb opened
  step wrapper action := (usbWrapper action.1).step wrapper action.2

/-- `Open` is called only where no handle is held. -/
def OpensOnlyClosed (wrapper : USBWrapper Device) (action : Libusb Device × UsbCall) : Prop :=
  ∀ serial, action.2 = .openUsb serial → wrapper.handle = none

/-- `USBWrapper_t::~USBWrapper_t`. -/
def destroyUsb (wrapper : USBWrapper Device) : USBWrapper Device :=
  { closeUsb wrapper with ctx := false }

/-- The handle that a wrapper holds is the only one that has been obtained and not been closed,
no handle has been closed twice, and the destructor leaves none. -/
structure HandlesAccounted (wrapper : USBWrapper Device) : Prop where
  held : Balanced HandleCall.opened HandleCall.closed (fun handle => wrapper.handle = some handle)
    wrapper.calls
  destroyed : Balanced HandleCall.opened HandleCall.closed (fun _ => False)
    (destroyUsb wrapper).calls

section HandleLedger

variable {usb : Libusb Device} {wrapper later : USBWrapper Device} {device : Device}
  {devices : List Device}

/-- The books of a wrapper. The next handle is a new one. -/
structure HandleLedger (wrapper : USBWrapper Device) : Prop where
  balanced : Balanced HandleCall.opened HandleCall.closed
    (fun handle => wrapper.handle = some handle) wrapper.calls
  closedOlder : ∀ handle ∈ wrapper.calls.filterMap HandleCall.closed,
    handle.number < wrapper.opened
  heldOlder : ∀ handle, wrapper.handle = some handle → handle.number < wrapper.opened

theorem handleLedger_new {opened : ℕ} : HandleLedger (.new usb opened) where
  balanced := by simpa [USBWrapper.new] using balanced_nil
  closedOlder _ hclosed := by simp [USBWrapper.new] at hclosed
  heldOlder _ hheld := by cases hheld

theorem claimCalls_others {handle : Option (Handle Device)} :
    ∀ call ∈ claimCalls usb handle, call.opened = none ∧ call.closed = none := by
  intro call hcall
  simp only [claimCalls, List.mem_append, List.mem_cons, List.not_mem_nil, or_false] at hcall
  rcases hcall with ((rfl | rfl) | hdetach) | rfl
  · exact ⟨rfl, rfl⟩
  · exact ⟨rfl, rfl⟩
  · split at hdetach
    case isTrue => exact List.mem_singleton.mp hdetach ▸ ⟨rfl, rfl⟩
    case isFalse => cases hdetach
  · exact ⟨rfl, rfl⟩

namespace HandleLedger

theorem of_eq (hledger : HandleLedger wrapper) (hhandle : later.handle = wrapper.handle)
    (hcalls : later.calls = wrapper.calls) (hopened : later.opened = wrapper.opened) :
    HandleLedger later where
  balanced := by simpa only [hhandle, hcalls] using hledger.balanced
  closedOlder := by simpa only [hcalls, hopened] using hledger.closedOlder
  heldOlder := by simpa only [hhandle, hopened] using hledger.heldOlder

theorem nextHandle_notMem (hledger : HandleLedger wrapper) :
    wrapper.nextHandle device ∉ wrapper.calls.filterMap HandleCall.closed := fun hclosed =>
  Nat.lt_irrefl wrapper.opened (hledger.closedOlder _ hclosed)

theorem say (hledger : HandleLedger wrapper) {message : Text} :
    HandleLedger (wrapper.say message) :=
  hledger.of_eq rfl rfl rfl

/-- Calls that neither obtain nor close a handle. -/
theorem others (hledger : HandleLedger wrapper) {calls : List (HandleCall Device)}
    (hothers : ∀ call ∈ calls, call.opened = none ∧ call.closed = none) :
    HandleLedger { wrapper with calls := wrapper.calls ++ calls } where
  balanced := hledger.balanced.others hothers
  closedOlder handle hclosed := by
    have hnone : calls.filterMap HandleCall.closed = [] :=
      List.filterMap_eq_nil_iff.mpr fun call hcall => (hothers call hcall).2
    rw [List.filterMap_append, hnone, List.append_nil] at hclosed
    exact hledger.closedOlder handle hclosed
  heldOlder := hledger.heldOlder

/-- A device is opened and closed again. -/
theorem bracket (hledger : HandleLedger wrapper) :
    HandleLedger ((wrapper.opening device).call (.close (wrapper.nextHandle device))) where
  balanced := by
    have hfree : wrapper.handle ≠ some (wrapper.nextHandle device) := fun hheld =>
      Nat.lt_irrefl wrapper.opened (hledger.heldOlder _ hheld)
    exact hledger.balanced.bracket rfl rfl rfl rfl hledger.nextHandle_notMem hfree
  closedOlder handle hclosed := by
    simp only [USBWrapper.call, USBWrapper.opening, List.filterMap_append, List.filterMap_cons,
      List.filterMap_nil, HandleCall.closed, List.append_nil, List.mem_append,
      List.mem_singleton] at hclosed ⊢
    rcases hclosed with hbefore | rfl
    · exact Nat.lt_succ_of_lt (hledger.closedOlder handle hbefore)
    · exact Nat.lt_succ_self _
  heldOlder handle hheld := Nat.lt_succ_of_lt (hledger.heldOlder handle hheld)

/-- A device is opened and its handle kept. -/
theorem opening (hledger : HandleLedger wrapper) (hfree : wrapper.handle = none)
    {desc : Descriptor} {name : Text} :
    HandleLedger
      { wrapper.opening device with
        handle := some (wrapper.nextHandle device)
        device := some device
        desc := desc
        name := name } where
  balanced := by
    refine hledger.balanced.opening rfl rfl hledger.nextHandle_notMem fun handle => ?_
    simp [hfree, eq_comm]
  closedOlder handle hclosed := by
    simp only [USBWrapper.call, USBWrapper.opening, List.filterMap_append, List.filterMap_cons,
      List.filterMap_nil, HandleCall.closed, List.append_nil] at hclosed
    exact Nat.lt_succ_of_lt (hledger.closedOlder handle hclosed)
  heldOlder handle hheld := by
    cases hheld
    exact Nat.lt_succ_self _

theorem closeUsb (hledger : HandleLedger wrapper) : HandleLedger (closeUsb wrapper) := by
  unfold Wrappers.closeUsb
  split
  case h_1 => exact hledger
  case h_2 handle hheld =>
    have hreleased : HandleLedger (wrapper.call (.releaseInterface handle)) :=
      hledger.others (by simp [HandleCall.opened, HandleCall.closed])
    refine ⟨?_, ?_, fun _ hnone => by cases hnone⟩
    · refine hreleased.balanced.closing rfl rfl hheld fun other => ?_
      have hsame : (wrapper.call (.releaseInterface handle)).handle = some handle := hheld
      simp [hsame, eq_comm]
    · intro other hclosed
      simp only [USBWrapper.call, List.filterMap_append, List.filterMap_cons,
        List.filterMap_nil, HandleCall.closed, List.append_nil, List.mem_append,
        List.mem_singleton] at hclosed ⊢
      rcases hclosed with hbefore | rfl
      · exact hledger.closedOlder other hbefore
      · exact hledger.heldOlder _ hheld

theorem listDevices (hledger : HandleLedger wrapper) (usb : Libusb Device) :
    HandleLedger (listDevices usb wrapper).2 ∧
      (Wrappers.listDevices usb wrapper).2.handle = wrapper.handle := by
  unfold Wrappers.listDevices
  split
  · exact ⟨hledger.say, rfl⟩
  · split
    · exact ⟨hledger, rfl⟩
    · split
      · exact ⟨hledger.of_eq rfl rfl rfl, rfl⟩
      · exact ⟨hledger.say, rfl⟩

theorem deviceListLoop {devs : List DeviceEntry} (hledger : HandleLedger wrapper) :
    HandleLedger (deviceListLoop usb devices devs wrapper).2 := by
  induction devices generalizing devs wrapper with
  | nil => exact hledger
  | cons device rest ih =>
      rw [Wrappers.deviceListLoop]
      split
      · exact ih hledger
      · split
        · exact ih hledger
        · split
          · exact ih hledger
          · split
            · exact ih hledger.say
            · exact ih hledger.bracket

theorem deviceList {devs : List DeviceEntry} (hledger : HandleLedger wrapper) :
    HandleLedger (deviceList usb devs wrapper).2.2 := by
  obtain ⟨hlisting, -⟩ := hledger.listDevices usb
  unfold Wrappers.deviceList
  split
  case h_1 listing hlist =>
    rw [hlist] at hlisting
    exact hlisting
  case h_2 devices listing hlist =>
    rw [hlist] at hlisting
    split
    · exact hlisting.say
    · exact hlisting.deviceListLoop

theorem openLoop {serial : Text} {buffer : ℕ → Char} (hledger : HandleLedger wrapper)
    (hfree : wrapper.handle = none) :
    HandleLedger (openLoop usb serial devices buffer wrapper) := by
  induction devices generalizing buffer wrapper with
  | nil => exact hledger
  | cons device rest ih =>
      rw [Wrappers.openLoop]
      split
      · exact ih hledger.say hfree
      · split
        · exact ih hledger hfree
        · split
          · exact ih hledger.say hfree
          · dsimp only
            split
            · exact ih hledger.bracket hfree
            · exact hledger.opening hfree

theorem openUsb {serial : Text} (hledger : HandleLedger wrapper) (hfree : wrapper.handle = none) :
    HandleLedger (openUsb usb serial wrapper).2 := by
  obtain ⟨hlisting, hkept⟩ := hledger.listDevices usb
  unfold Wrappers.openUsb
  split
  case h_1 listing hlist =>
    rw [hlist] at hlisting
    exact hlisting
  case h_2 devices listing hlist =>
    rw [hlist] at hlisting hkept
    have hopened : HandleLedger (Wrappers.openLoop usb serial devices usb.strDesc listing) :=
      hlisting.openLoop (hkept.trans hfree)
    dsimp only
    split
    · exact hopened.say
    · exact (hopened.others claimCalls_others).of_eq rfl rfl rfl

end HandleLedger

theorem handleLedger_step {action : Libusb Device × UsbCall} (hledger : HandleLedger wrapper)
    (hopens : OpensOnlyClosed wrapper action)
    (hstep : (changingBus Device).step wrapper action = some later) : HandleLedger later := by
  obtain ⟨usb, call⟩ := action
  cases call with
  | openUsb serial =>
      cases hstep
      exact hledger.openUsb (hopens serial rfl)
  | closeUsb =>
      cases hstep
      exact hledger.closeUsb
  | deviceList devs =>
      cases hstep
      exact hledger.deviceList

theorem handleLedger (hreach : (changingBus Device).ReachableBy OpensOnlyClosed wrapper) :
    HandleLedger wrapper := by
  refine hreach.invariant ?_ fun _ _ _ _ hledger hopens hstep =>
    handleLedger_step hledger hopens hstep
  rintro _ ⟨usb, opened, rfl⟩
  exact handleLedger_new

end HandleLedger

theorem closeUsb_handle (wrapper : USBWrapper Device) : (closeUsb wrapper).handle = none := by
  unfold closeUsb
  split
  case h_1 hnone => exact hnone
  case h_2 => rfl

/-- The handles are accounted for in every run in which `Open` is called only where no handle
is held. -/
theorem handlesAccounted {wrapper : USBWrapper Device}
    (hreach : (changingBus Device).ReachableBy OpensOnlyClosed wrapper) :
    HandlesAccounted wrapper := by
  have hledger := handleLedger hreach
  refine ⟨hledger.balanced, ?_⟩
  have hclosed := hledger.closeUsb.balanced
  simp only [closeUsb_handle, reduceCtorEq] at hclosed
  exact hclosed

/-- Two recorders are listed and the second one is opened. -/
theorem handlesAccounted_opened :
    HandlesAccounted
      (openUsb unlikeRecorders.usb (text "E505-00-00AF4321")
        (deviceList unlikeRecorders.usb [] (.new unlikeRecorders.usb 0)).2.2).2 := by
  have hlisted : (changingBus Bool).ReachableBy OpensOnlyClosed
      (deviceList unlikeRecorders.usb [] (.new unlikeRecorders.usb 0)).2.2 := by
    refine .step (.start ⟨unlikeRecorders.usb, 0, rfl⟩) (fun serial hopen => ?_)
      (show (changingBus Bool).step _ (unlikeRecorders.usb, .deviceList []) = some _ from rfl)
    cases hopen
  exact handlesAccounted (.step hlisted (fun _ _ => rfl)
    (show (changingBus Bool).step _ (unlikeRecorders.usb, .openUsb _) = some _ from rfl))

end HauppaugeUSB.Wrappers
