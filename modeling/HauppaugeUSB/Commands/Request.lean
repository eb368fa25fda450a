/-
# Requests on the control channel

mythbackend drives the recorder by lines of text. `Commands::process_command`
first finds out which request a line is: from API version 2 on the line carries
a serial number before its first colon, and the command word is matched by
prefix, in a fixed order, so that anything may follow it.

This module is the parsing half of `process_command`: from the session's API
version and a line to the serial, the request and its data. Bytes are
characters; a line may hold any of them. The C++ library's `std::stoul` and the
conversions of its result are here as well, since what they reject decides
whether a request is answered.
-/

import Mathlib.Algebra.Ring.Int.Defs
import Mathlib.Algebra.Ring.Nat

namespace HauppaugeUSB.Commands

/-- A byte string. -/
abbrev Text := List Char

/-- A string literal as bytes. -/
def text (literal : String) : Text := literal.toList

/-- `boost::algorithm::starts_with`. -/
def startsWith (input : Text) (start : String) : Bool := (text start).isPrefixOf input

/-- The exceptions that `std::stoul` throws. -/
inductive StdException
  | invalidArgument
  | outOfRange
  deriving DecidableEq

/-- White space in the C locale, skipped before a number. -/
def isSpace (c : Char) : Bool :=
  c = ' ' || c = '\t' || c = '\n' || c = '\x0b' || c = '\x0c' || c = '\r'

/-- The decimal digits at the start of a text. -/
def leadingDigits (input : Text) : Text := input.takeWhile Char.isDigit

/-- The number written by decimal digits. -/
def digitsValue (digits : Text) : ℕ :=
  digits.foldl (fun value digit => 10 * value + (digit.toNat - '0'.toNat)) 0

/-- The largest `unsigned long`. -/
def maxULong : ℕ := 2 ^ 64 - 1

/-- The magnitude of a number, or the exception for a missing or too large one. -/
def stoulMagnitude (digits : Text) : Except StdException ℕ :=
  if digits = [] then .error .invalidArgument
  else if maxULong < digitsValue digits then .error .outOfRange
  else .ok (digitsValue digits)

/-- `std::stoul` in base ten: white space, an optional sign, digits. A minus sign
negates in the unsigned type; what follows the digits is ignored. -/
def stoul (input : Text) : Except StdException ℕ :=
  match input.dropWhile isSpace with
  | '-' :: rest => (stoulMagnitude (leadingDigits rest)).map fun n => (2 ^ 64 - n) % 2 ^ 64
  | '+' :: rest => stoulMagnitude (leadingDigits rest)
  | rest => stoulMagnitude (leadingDigits rest)

/-- The text is one that `std::stoul` throws on. -/
def stoulThrows (input : Text) : Bool := !(stoul input).isOk

theorem exists_of_not_stoulThrows {input : Text} (hthrows : stoulThrows input = false) :
    ∃ n, stoul input = .ok n := by
  cases hstoul : stoul input with
  | ok n => exact ⟨n, rfl⟩
  | error exception => simp [stoulThrows, hstoul, Except.isOk, Except.toBool] at hthrows

theorem exists_of_stoulThrows {input : Text} (hthrows : stoulThrows input = true) :
    ∃ exception, stoul input = .error exception := by
  cases hstoul : stoul input with
  | ok n => simp [stoulThrows, hstoul, Except.isOk, Except.toBool] at hthrows
  | error exception => exact ⟨exception, rfl⟩

/-- `unsigned long` to `int`: the low 32 bits, two's complement. -/
def toInt (n : ℕ) : ℤ := (n : ℤ).bmod (2 ^ 32)

/-- `unsigned long` to `uint32_t`. -/
def toUInt32 (n : ℕ) : ℕ := n % 2 ^ 32

/-- The branches of `process_command`. -/
inductive Request
  | apiVersionQuery
  | missingSerial
  | versionQuery
  | description
  | hasLock
  | signalStrengthPercent
  | lockTimeout
  | hasTuner
  | hasPictureAttributes
  | sendBytes
  | xon
  | xoff
  | isOpen
  | closeRecorder
  | flowControl
  | startStreaming
  | stopStreaming
  | missingData
  | apiVersion (data : Text)
  | tuneChannel
  | blockSize (data : Text)
  | unrecognized (command : Text)
  deriving DecidableEq

/-- The request named by a command word and the tokens after it, tested in the
order of the source. The last four need data. -/
def classify (command : Text) (data : List Text) : Request :=
  if startsWith command "Version?" then .versionQuery
  else if startsWith command "Description?" then .description
  else if startsWith command "HasLock?" then .hasLock
  else if startsWith command "SignalStrengthPercent" then .signalStrengthPercent
  else if startsWith command "LockTimeout" then .lockTimeout
  else if startsWith command "HasTuner?" then .hasTuner
  else if startsWith command "HasPictureAttributes?" then .hasPictureAttributes
  else if startsWith command "SendBytes" then .sendBytes
  else if startsWith command "XON" then .xon
  else if startsWith command "XOFF" then .xoff
  else if startsWith command "IsOpen?" then .isOpen
  else if startsWith command "CloseRecorder" then .closeRecorder
  else if startsWith command "FlowControl?" then .flowControl
  else if startsWith command "StartStreaming" then .startStreaming
  else if startsWith command "StopStreaming" then .stopStreaming
  else match data with
    | [] => .missingData
    | value :: _ =>
        if startsWith command "APIVersion" then .apiVersion value
        else if startsWith command "TuneChannel" then .tuneChannel
        else if startsWith command "BlockSize" then .blockSize value
        else .unrecognized command

/-- The serial and the request of a line read under an API version. Only the
test for `APIVersion?` looks at the line before it is split. -/
def parseLine (version : ℤ) (line : Text) : Text × Request :=
  if startsWith line "APIVersion?" then ([], .apiVersionQuery)
  else
    let tokens := line.splitOn ':'
    if 1 < version then
      match tokens with
      | serial :: command :: data => (serial, classify command data)
      | _ => (text "-1", .missingSerial)
    else
      match tokens with
      | command :: data => ([], classify command data)
      | [] => ([], classify [] [])

/-- Handling the request ends in an exception: its data is converted by
`std::stoul` and is no number. -/
def Request.throws : Request → Bool
  | .apiVersion data => stoulThrows data
  | .blockSize data => stoulThrows data
  | _ => false

example : parseLine 2 (text "7:APIVersion:2") = (text "7", .apiVersion (text "2")) := by decide

example : stoul (text " +12x") = .ok 12 := rfl

end HauppaugeUSB.Commands
