/-
# Bulk transfers

libusb replies to a bulk transfer with a result and, independently of it, with the number
of bytes that have been moved: a transfer that has timed out may have moved some, and one
that has succeeded may have moved fewer than were asked for. `bulkRead` and `bulkWrite`
return one number each, and what they make of the two is determined here.
-/

import HauppaugeUSB.Commands.Request
import HauppaugeUSB.Wrappers.Async

namespace HauppaugeUSB.Wrappers

open HauppaugeUSB.Commands

/-- What `libusb_bulk_transfer` replies when it is asked for a number of bytes: zero or an
error code, and the bytes that it has moved, which it counts in an `int`. -/
structure BulkOutcome (len : ℕ) where
  result : ℤ
  transferred : ℕ
  result_le : result ≤ 0
  transferred_le : transferred ≤ len
  transferred_lt : transferred < 2 ^ 31

/-- `USBWrapper_t::bulkRead`. -/
def bulkRead (opened : Bool) (len : UInt32) (outcome : BulkOutcome len.toNat) : ℤ :=
  if opened = false then usbWrapErrorNoDevice
  else if outcome.result ≠ 0 then retMsg outcome.result
  else toInt outcome.transferred

/-- `USBWrapper_t::bulkWrite`. -/
def bulkWrite (opened : Bool) (len : UInt32) (outcome : BulkOutcome len.toNat) : ℤ :=
  if opened = false then usbWrapErrorNoDevice
  else if outcome.result ≠ 0 then retMsg outcome.result
  else toInt len.toNat

/-- A call of either, with a handle or without, and what libusb replies if it is asked. -/
inductive BulkCall
  | bulkRead (opened : Bool) (len : UInt32) (outcome : BulkOutcome len.toNat)
  | bulkWrite (opened : Bool) (len : UInt32) (outcome : BulkOutcome len.toNat)

namespace BulkCall

/-- What a call returns. -/
def returned : BulkCall → ℤ
  | .bulkRead opened len outcome => Wrappers.bulkRead opened len outcome
  | .bulkWrite opened len outcome => Wrappers.bulkWrite opened len outcome

/-- The bytes that a call has moved. -/
def moved : BulkCall → ℕ
  | .bulkRead opened _ outcome | .bulkWrite opened _ outcome =>
      if opened then outcome.transferred else 0

end BulkCall

/-- What calls report adds up to what they have moved. -/
structure Accounts (calls : List BulkCall) : Prop where
  reported : ∀ call ∈ calls, 0 ≤ call.returned → call.returned = call.moved
  silent : ∀ call ∈ calls, call.returned < 0 → call.moved = 0
  total : (calls.map fun call => call.returned.toNat).sum = (calls.map BulkCall.moved).sum

/-- A read has not failed after it has moved something. A write has moved everything or
nothing, and nothing where it has failed or has been asked for more than an `int` holds;
where it has moved nothing although it has succeeded, it has been asked for so much. -/
def BulkCall.Faithful : BulkCall → Prop
  | .bulkRead opened _ outcome =>
      opened = true → outcome.result ≠ 0 → outcome.transferred = 0
  | .bulkWrite opened len outcome =>
      opened = true →
        if outcome.result = 0 ∧ len.toNat < 2 ^ 31 then outcome.transferred = len.toNat
        else outcome.transferred = 0

theorem toInt_of_lt {n : ℕ} (hlt : n < 2 ^ 31) : toInt n = n :=
  Int.bmod_eq_of_le (by omega) (by omega)

theorem toInt_neg {n : ℕ} (hle : 2 ^ 31 ≤ n) (hlt : n < 2 ^ 32) : toInt n < 0 :=
  (Int.bmod_neg_iff (by omega) (by omega)).mpr (Or.inr (by omega))

/-- A call reports what it has moved. -/
structure BulkCall.Reports (call : BulkCall) : Prop where
  reported : 0 ≤ call.returned → call.returned = call.moved
  silent : call.returned < 0 → call.moved = 0

theorem reports_of_neg {call : BulkCall} (hneg : call.returned < 0) :
    call.Reports ↔ call.moved = 0 :=
  ⟨fun hreports => hreports.silent hneg, fun hnone => ⟨fun hpos => by omega, fun _ => hnone⟩⟩

theorem reports_of_nonneg {call : BulkCall} (hpos : 0 ≤ call.returned) :
    call.Reports ↔ call.returned = call.moved :=
  ⟨fun hreports => hreports.reported hpos, fun hsame => ⟨fun _ => hsame, fun hneg => by omega⟩⟩

theorem reports_read_iff {opened : Bool} {len : UInt32} {outcome : BulkOutcome len.toNat} :
    (BulkCall.bulkRead opened len outcome).Reports ↔
      (opened = true → outcome.result ≠ 0 → outcome.transferred = 0) := by
  cases opened with
  | false =>
      have hneg : (BulkCall.bulkRead false len outcome).returned < 0 := by
        simp [BulkCall.returned, bulkRead, usbWrapErrorNoDevice]
      rw [reports_of_neg hneg]
      simp [BulkCall.moved]
  | true =>
      by_cases hfailed : outcome.result = 0
      · have hreturned : (BulkCall.bulkRead true len outcome).returned = outcome.transferred := by
          simp [BulkCall.returned, bulkRead, hfailed, toInt_of_lt outcome.transferred_lt]
        rw [reports_of_nonneg (by omega), hreturned]
        simp [BulkCall.moved, hfailed]
      · have hreturned : (BulkCall.bulkRead true len outcome).returned = outcome.result := by
          simp [BulkCall.returned, bulkRead, hfailed, retMsg]
        have hle := outcome.result_le
        rw [reports_of_neg (by omega)]
        simp [BulkCall.moved, hfailed]

theorem reports_write_iff {opened : Bool} {len : UInt32} {outcome : BulkOutcome len.toNat} :
    (BulkCall.bulkWrite opened len outcome).Reports ↔
      (opened = true →
        if outcome.result = 0 ∧ len.toNat < 2 ^ 31 then outcome.transferred = len.toNat
        else outcome.transferred = 0) := by
  cases opened with
  | false =>
      have hneg : (BulkCall.bulkWrite false len outcome).returned < 0 := by
        simp [BulkCall.returned, bulkWrite, usbWrapErrorNoDevice]
      rw [reports_of_neg hneg]
      simp [BulkCall.moved]
  | true =>
      by_cases hfailed : outcome.result = 0
      · have hreturned : (BulkCall.bulkWrite true len outcome).returned = toInt len.toNat := by
          simp [BulkCall.returned, bulkWrite, hfailed]
        by_cases hlt : len.toNat < 2 ^ 31
        · rw [toInt_of_lt hlt] at hreturned
          rw [reports_of_nonneg (by omega), hreturned, if_pos ⟨hfailed, hlt⟩]
          simp only [BulkCall.moved, if_true, Int.ofNat_inj, forall_const]
          exact eq_comm
        · have hneg := toInt_neg (by omega) len.toNat_lt
          rw [reports_of_neg (by omega), if_neg fun hboth => hlt hboth.2]
          simp [BulkCall.moved]
      · have hreturned : (BulkCall.bulkWrite true len outcome).returned = outcome.result := by
          simp [BulkCall.returned, bulkWrite, hfailed, retMsg]
        have hle := outcome.result_le
        rw [reports_of_neg (by omega), if_neg fun hboth => hfailed hboth.1]
        simp [BulkCall.moved]

theorem reports_iff_faithful {call : BulkCall} : call.Reports ↔ call.Faithful := by
  cases call with
  | bulkRead opened len outcome => exact reports_read_iff
  | bulkWrite opened len outcome => exact reports_write_iff

theorem BulkCall.Reports.toNat_returned {call : BulkCall} (hreports : call.Reports) :
    call.returned.toNat = call.moved := by
  by_cases hneg : call.returned < 0
  · rw [hreports.silent hneg]
    omega
  · have hsame := hreports.reported (by omega)
    omega

/-- What a sequence of calls reports adds up to what it has moved, each call for itself, if
and only if libusb has not parted the two in any of them. -/
theorem accounts_iff (calls : List BulkCall) :
    Accounts calls ↔ ∀ call ∈ calls, call.Faithful := by
  constructor
  · intro haccounts call hmem
    exact reports_iff_faithful.mp ⟨haccounts.reported call hmem, haccounts.silent call hmem⟩
  · intro hfaithful
    have hreports (call : BulkCall) (hmem : call ∈ calls) : call.Reports :=
      reports_iff_faithful.mpr (hfaithful call hmem)
    exact ⟨fun call hmem => (hreports call hmem).reported,
      fun call hmem => (hreports call hmem).silent,
      congrArg List.sum (List.map_congr_left fun call hmem => (hreports call hmem).toNat_returned)⟩

/-- A read of 512 bytes times out after one transport packet: it returns the error and the
packet is lost. -/
theorem timed_out_read_unreported :
    ¬ Accounts [.bulkRead true 512 ⟨-7, 188, by decide, by decide, by decide⟩] :=
  fun haccounts => absurd (haccounts.silent _ List.mem_cons_self (by decide)) (by decide)

/-- A write of 512 bytes is accepted with half of them: it returns 512. -/
example :
    (BulkCall.bulkWrite true 512 ⟨0, 256, by decide, by decide, by decide⟩).returned = 512 := by
  decide

end HauppaugeUSB.Wrappers
