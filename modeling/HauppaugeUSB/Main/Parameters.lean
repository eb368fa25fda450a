/-
# The parameters that `main` assigns

`main` reads options from the command line and from a configuration file that the
command line names, and assigns `Parameters` one by one, most of them only if their
option is there. A source that cannot be parsed is reported, and `main` goes on.

An option with a default is there as soon as the command line has been parsed. The
field `flipFields` is assigned from an option that has none, and has no other
assignment; and where the command line cannot be parsed no option is there at all. The
strings of `Parameters` have a constructor, its other fields have no value before their
assignment.
-/

import HauppaugeUSB.Device.Opening
import HauppaugeUSB.Stores.Options

namespace HauppaugeUSB.Main

open HauppaugeUSB.Device HauppaugeUSB.Stores

/-- The options of `main`, by their long names. -/
inductive OptionName
  | version | help | config | list
  | v | verbose | input | audio | codec | boost | audiosamplerate | audiobitrate
  | videobitrate | videoratecontrol | minvbrrate | maxvbrrate | tsbitrate | videocodingmode
  | flipfields | profile | level | bframes | videoLatency | aspect | serial | output
  | mythtv | inputid | duration
  | logpath | loglevel | quiet | syslog
  | overrideLoglevel | description
  deriving DecidableEq

/-- What `po::value` says of an option; `Unit` where it takes no value. -/
@[reducible]
def OptionName.Value : OptionName → Type
  | .version | .help | .list | .boost => Unit
  | .config | .verbose | .serial | .output | .logpath | .loglevel | .syslog
  | .overrideLoglevel | .description => String
  | .flipfields | .mythtv => Bool
  | .aspect => Rat
  | _ => ℤ

/-- The option that has a key. -/
def OptionName.ofKey : String → Option OptionName
  | "version" => some .version
  | "help" => some .help
  | "config" => some .config
  | "list" => some .list
  | "v" => some .v
  | "verbose" => some .verbose
  | "input" => some .input
  | "audio" => some .audio
  | "codec" => some .codec
  | "boost" => some .boost
  | "audiosamplerate" => some .audiosamplerate
  | "audiobitrate" => some .audiobitrate
  | "videobitrate" => some .videobitrate
  | "videoratecontrol" => some .videoratecontrol
  | "minvbrrate" => some .minvbrrate
  | "maxvbrrate" => some .maxvbrrate
  | "tsbitrate" => some .tsbitrate
  | "videocodingmode" => some .videocodingmode
  | "flipfields" => some .flipfields
  | "profile" => some .profile
  | "level" => some .level
  | "bframes" => some .bframes
  | "videoLatency" => some .videoLatency
  | "aspect" => some .aspect
  | "serial" => some .serial
  | "output" => some .output
  | "mythtv" => some .mythtv
  | "inputid" => some .inputid
  | "duration" => some .duration
  | "logpath" => some .logpath
  | "loglevel" => some .loglevel
  | "quiet" => some .quiet
  | "syslog" => some .syslog
  | "override-loglevel" => some .overrideLoglevel
  | "description" => some .description
  | _ => none

/-- `cmd_line`. -/
def cmdLine : Description OptionName.Value
  | .version | .help | .list => some .flag
  | .config => some .plain
  | _ => none

/-- `config`. -/
def config : Description OptionName.Value
  | .v => some (.implicitValue 1)
  | .verbose => some (.defaultValue "general")
  | .input => some (.defaultValue 3)
  | .audio => some (.defaultValue 3)
  | .codec => some (.defaultValue 3)
  | .boost => some .flag
  | .audiosamplerate => some (.defaultValue 3)
  | .audiobitrate => some (.defaultValue 29)
  | .videobitrate => some (.defaultValue 8000000)
  | .videoratecontrol => some (.defaultValue 1)
  | .minvbrrate => some (.defaultValue 9000000)
  | .maxvbrrate => some (.defaultValue 20000000)
  | .tsbitrate => some (.defaultValue 20000000)
  | .videocodingmode => some (.defaultValue 4)
  | .flipfields => some (.implicitValue true)
  | .profile => some (.defaultValue 4)
  | .level => some (.defaultValue 420)
  | .bframes => some (.defaultValue 3)
  | .videoLatency => some (.defaultValue 1)
  | .aspect => some (.defaultValue 1)
  | .serial => some .plain
  | .output => some .plain
  | .mythtv => some (.implicitValue true)
  | .inputid => some (.implicitValue 0)
  | .duration => some (.defaultValue 0)
  | .logpath => some .plain
  | .loglevel => some (.defaultValue "NOTICE")
  | .quiet => some (.implicitValue 1)
  | .syslog => some (.defaultValue "local7")
  | _ => none

/-- `config_file`. -/
def configFile : Description OptionName.Value
  | .overrideLoglevel => some (.defaultValue "notice")
  | .description => some .plain
  | _ => none

/-- `cmdline_options`. -/
def cmdlineOptions : Description OptionName.Value := cmdLine.add config

/-- `config_file_options`. -/
def configFileOptions : Description OptionName.Value := config.add configFile

/-- `Parameters`. A field without a value has not been assigned. -/
structure Parameters where
  version : String
  verbose : Option ℤ
  audioBoost : Option Bool
  tsBitrate : Option ℤ
  videoBitrate : Option ℤ
  videoVBRMin : Option ℤ
  videoVBRMax : Option ℤ
  bFrames : Option ℤ
  aspectRatio : Option Rat
  serial : String
  output : String
  mythtv : Option Bool
  flipFields : Option Bool
  videoInput : Option ℤ
  audioInput : Option ℤ
  videoRateControl : Option ℤ
  videoCodingMode : Option ℤ
  videoProfile : Option ℤ
  videoH264Level : Option ℤ
  videoLatency : Option ℤ
  audioCodec : Option ℤ
  audioSamplerate : Option ℤ
  audioBitrate : Option ℤ

/-- `Parameters params;`. -/
def Parameters.declared : Parameters where
  version := ""
  verbose := none
  audioBoost := none
  tsBitrate := none
  videoBitrate := none
  videoVBRMin := none
  videoVBRMax := none
  bFrames := none
  aspectRatio := none
  serial := ""
  output := ""
  mythtv := none
  flipFields := none
  videoInput := none
  audioInput := none
  videoRateControl := none
  videoCodingMode := none
  videoProfile := none
  videoH264Level := none
  videoLatency := none
  audioCodec := none
  audioSamplerate := none
  audioBitrate := none

/-- The parameters that `HauppaugeDev` reads to configure the device and to record, if all of
them have been assigned. -/
def Parameters.device (params : Parameters) : Option Device.Parameters := do
  return {
    audioBoost := ← params.audioBoost
    tsBitrate := ← params.tsBitrate
    videoBitrate := ← params.videoBitrate
    videoVBRMin := ← params.videoVBRMin
    videoVBRMax := ← params.videoVBRMax
    flipFields := ← params.flipFields
    videoInput := ← params.videoInput
    audioInput := ← params.audioInput
    videoRateControl := ← params.videoRateControl
    videoCodingMode := ← params.videoCodingMode
    videoProfile := ← params.videoProfile
    videoH264Level := ← params.videoH264Level
    audioCodec := ← params.audioCodec
    audioSamplerate := ← params.audioSamplerate
    audioBitrate := ← params.audioBitrate }

/-- What `HauppaugeDev::Open` is called with and reads, if it has been assigned. -/
def Parameters.opening (params : Parameters) (callback : Bool) : Option OpenSettings := do
  return {
    verbose := (← params.verbose) ≠ 0
    output := params.output
    ac3 := (← params.audioCodec) = hapiAudioCodecAc3
    callback := callback }

/-- Every field that `HauppaugeDev` or `MythTV` reads has been assigned. -/
structure Parameters.Assigned (params : Parameters) : Prop where
  device : params.device.isSome
  opening : ∀ callback, (params.opening callback).isSome

/-- What the options map of `main` holds. -/
abbrev Variables := VariablesMap OptionName.Value

/-- `vm.count(key)`. -/
def countKey (vm : Variables) (key : String) : ℕ := (OptionName.ofKey key).elim 0 vm.count

/-- `if (vm.count(name)) field = vm[name].as<..>();`: the field afterwards. -/
def assigned (vm : Variables) (name : OptionName) (field : Option name.Value) :
    Option name.Value :=
  (vm.value name).or field

/-- The assignments after the device has been found. -/
def assignParameters (vm : Variables) (params : Parameters) : Parameters :=
  let mythtv := (vm.value .mythtv).getD false
  { params with
    videoInput := assigned vm .input params.videoInput
    audioInput := assigned vm .audio params.audioInput
    audioCodec := assigned vm .codec params.audioCodec
    audioBoost := some (vm.count .boost ≠ 0)
    audioSamplerate := assigned vm .audiosamplerate params.audioSamplerate
    audioBitrate := assigned vm .audiobitrate params.audioBitrate
    videoBitrate := assigned vm .videobitrate params.videoBitrate
    tsBitrate := assigned vm .tsbitrate params.tsBitrate
    videoRateControl := assigned vm .videoratecontrol params.videoRateControl
    videoVBRMin := assigned vm .minvbrrate params.videoVBRMin
    videoVBRMax := assigned vm .maxvbrrate params.videoVBRMax
    videoCodingMode := assigned vm .videocodingmode params.videoCodingMode
    flipFields := assigned vm .flipfields params.flipFields
    videoProfile := assigned vm .profile params.videoProfile
    videoH264Level := assigned vm .level params.videoH264Level
    bFrames :=
      match vm.value .bframes with
      | some bFrames => some (if 7 < bFrames then 7 else bFrames)
      | none => params.bFrames
    -- The key that is asked for is not the one that the option has.
    videoLatency :=
      if countKey vm "videolatency" ≠ 0 then vm.value .videoLatency else params.videoLatency
    aspectRatio := assigned vm .aspect params.aspectRatio
    mythtv := some mythtv
    output :=
      match vm.value .output with
      | some output => output
      | none => if mythtv then params.output else "stdout" }

/-- No option has the key that the test for the latency asks for, so that field is never
assigned. -/
theorem videoLatency_assignParameters (vm : Variables) (params : Parameters) :
    (assignParameters vm params).videoLatency = params.videoLatency := by
  have hkey : OptionName.ofKey "videolatency" = none := by decide
  have hcount : countKey vm "videolatency" = 0 := by rw [countKey, hkey, Option.elim_none]
  simp [assignParameters, hcount]

/-- What `main` finds. -/
structure Inputs where
  /-- The command line, unless its parser throws. -/
  commandLine : Option (Source cmdlineOptions)
  /-- Whether a configuration file can be opened. -/
  opens : String → Bool
  /-- What is in a configuration file, unless its parser throws. -/
  configFile : String → Option (Source configFileOptions)
  /-- `FindDev`: bus and port. -/
  findDev : String → Option (ℕ × ℕ)

/-- What `main` goes on to make: a `MythTV` with its description, or a `HauppaugeDev`. -/
inductive Mode
  | mythtv (desc : String)
  | standalone
  deriving DecidableEq

/-- The variables after both sources. -/
def Inputs.variables (inputs : Inputs) : Variables :=
  let vm := VariablesMap.empty.storeParsed inputs.commandLine
  match vm.value .config with
  | some path => if inputs.opens path then vm.storeParsed (inputs.configFile path) else vm
  | none => vm

/-- The serial, if there is one: its device must be found. -/
def Inputs.findSerial (inputs : Inputs) (vm : Variables) (params : Parameters) :
    Except ℤ Parameters :=
  match vm.value .serial with
  | some serial =>
      if (inputs.findDev serial).isSome then .ok { params with serial := serial } else .error (-1)
  | none => .ok params

/-- The mode that the parameters ask for. -/
def mode (vm : Variables) (params : Parameters) : Mode :=
  if params.mythtv = some true then .mythtv ((vm.value .description).getD params.serial)
  else .standalone

/-- `main`, up to the object it makes, or the value it has returned before. -/
def main (inputs : Inputs) : Except ℤ (Parameters × Mode) :=
  let vm := inputs.variables
  if vm.count .help ≠ 0 then .error 0
  else
    let params := { Parameters.declared with version := "0.6" }
    if vm.count .version ≠ 0 then .error 0
    else
      let params := { params with verbose := some (vm.count .verbose) }
      if vm.count .list ≠ 0 then .error 0
      else
        (inputs.findSerial vm params).map fun params =>
          let params := assignParameters vm params
          (params, mode vm params)

section Variables

variable {inputs : Inputs} {source : Source cmdlineOptions} {name : OptionName}

/-- The configuration file that is read. -/
def Inputs.config (inputs : Inputs) : Option (Source configFileOptions) := do
  let source ← inputs.commandLine
  let path ← source.value .config
  if inputs.opens path then inputs.configFile path else none

/-- The value that an option is given: on the command line, or else in the configuration
file. -/
def Inputs.value (inputs : Inputs) (name : OptionName) : Option name.Value :=
  (inputs.commandLine.bind (·.value name)).or (inputs.config.bind (·.value name))

theorem variables_eq (inputs : Inputs) :
    inputs.variables =
      (VariablesMap.empty.storeParsed inputs.commandLine).storeParsed inputs.config := by
  have hplain : (VariablesMap.empty.storeParsed inputs.commandLine).Plain .config :=
    VariablesMap.plain_empty.storeParsed rfl
  have hpath : (VariablesMap.empty.storeParsed inputs.commandLine).value .config =
      inputs.commandLine.bind (·.value .config) := by
    rw [hplain.value_eq, VariablesMap.explicit_storeParsed]
    rfl
  rw [Inputs.variables, Inputs.config]
  simp only [hpath]
  cases inputs.commandLine with
  | none => rfl
  | some source =>
      cases hconfig : source.value .config with
      | none => simp [hconfig, VariablesMap.storeParsed]
      | some path =>
          by_cases hopens : inputs.opens path = true <;>
            simp [hconfig, hopens, VariablesMap.storeParsed]

/-- An option without a default has the value that it is given. -/
theorem value_variables (hcmdline : cmdlineOptions.default name = none)
    (hfile : configFileOptions.default name = none) :
    inputs.variables.value name = inputs.value name := by
  rw [variables_eq]
  have hplain : (VariablesMap.empty.storeParsed inputs.commandLine).Plain name :=
    VariablesMap.plain_empty.storeParsed hcmdline
  rw [(hplain.storeParsed hfile).value_eq, VariablesMap.explicit_storeParsed,
    VariablesMap.explicit_storeParsed]
  rfl

/-- A default is there once the command line has been parsed. -/
theorem isSome_variables (hsource : inputs.commandLine = some source)
    (hdefault : (cmdlineOptions.default name).isSome) :
    (inputs.variables.value name).isSome := by
  rw [variables_eq, hsource]
  exact VariablesMap.isSome_value_storeParsed
    (VariablesMap.isSome_value_store_of_default hdefault)

/-- `main` returns before it makes a device: it shows its help, its version or the devices,
or does not find the device that is asked for. -/
def Inputs.ReturnsEarly (inputs : Inputs) : Prop :=
  (inputs.value .help).isSome ∨ (inputs.value .version).isSome ∨ (inputs.value .list).isSome ∨
    ∃ serial ∈ inputs.value .serial, inputs.findDev serial = none

/-- The field order is told on the command line, or in a configuration file that is read. -/
def Inputs.TellsFlipFields (inputs : Inputs) : Prop := (inputs.value .flipfields).isSome

/-- The parameters that are assigned before the others. -/
def Inputs.firstParameters (inputs : Inputs) : Parameters :=
  { Parameters.declared with
    version := "0.6"
    verbose := some (inputs.variables.count .verbose)
    serial := (inputs.value .serial).getD "" }

theorem count_variables (hcmdline : cmdlineOptions.default name = none)
    (hfile : configFileOptions.default name = none) :
    inputs.variables.count name ≠ 0 ↔ (inputs.value name).isSome := by
  rw [VariablesMap.count_ne_zero_iff, value_variables hcmdline hfile]

theorem findSerial_eq (params : Parameters) (hserial : params.serial = "")
    (hfound : ∀ serial ∈ inputs.value .serial, inputs.findDev serial ≠ none) :
    inputs.findSerial inputs.variables params =
      .ok { params with serial := (inputs.value .serial).getD "" } := by
  have hvalue : inputs.variables.value .serial = inputs.value .serial := value_variables rfl rfl
  rw [Inputs.findSerial, hvalue]
  cases hserial' : inputs.value .serial with
  | some serial =>
      simp only [Option.getD_some]
      rw [if_pos (Option.isSome_iff_ne_none.mpr (hfound serial hserial'))]
  | none => simp [← hserial]

/-- `main` makes a device, with the parameters it has assigned. -/
theorem main_of_not_returnsEarly (hearly : ¬ inputs.ReturnsEarly) :
    main inputs = .ok (assignParameters inputs.variables inputs.firstParameters,
      mode inputs.variables (assignParameters inputs.variables inputs.firstParameters)) := by
  obtain ⟨hhelp, hversion, hlist, hfound⟩ : ¬ (inputs.value .help).isSome ∧
      ¬ (inputs.value .version).isSome ∧ ¬ (inputs.value .list).isSome ∧
      ∀ serial ∈ inputs.value .serial, inputs.findDev serial ≠ none := by
    simpa [Inputs.ReturnsEarly] using hearly
  rw [main]
  simp only
  rw [if_neg (mt (count_variables rfl rfl).mp hhelp),
    if_neg (mt (count_variables rfl rfl).mp hversion),
    if_neg (mt (count_variables rfl rfl).mp hlist), findSerial_eq _ rfl hfound]
  rfl

theorem main_of_returnsEarly (hearly : inputs.ReturnsEarly) :
    ∃ code, main inputs = .error code := by
  rw [main]
  simp only
  split
  case isTrue => exact ⟨0, rfl⟩
  case isFalse hhelp =>
    split
    case isTrue => exact ⟨0, rfl⟩
    case isFalse hversion =>
      split
      case isTrue => exact ⟨0, rfl⟩
      case isFalse hlist =>
        rw [count_variables rfl rfl] at hhelp hversion hlist
        obtain ⟨serial, hserial, hlost⟩ :=
          ((hearly.resolve_left hhelp).resolve_left hversion).resolve_left hlist
        have hvalue : inputs.variables.value .serial = some serial :=
          (value_variables rfl rfl).trans hserial
        refine ⟨-1, ?_⟩
        simp [Inputs.findSerial, hvalue, hlost, Except.map]

theorem isSome_bind_iff {First Second : Type} {first : Option First}
    {second : First → Option Second} {P : Prop} (hsecond : ∀ value, (second value).isSome ↔ P) :
    (first.bind second).isSome ↔ first.isSome ∧ P := by
  cases first with
  | none => simp
  | some value => simp [hsecond value]

/-- The fields that a device needs. -/
theorem isSome_device_iff {params : Parameters} :
    params.device.isSome ↔
      params.audioBoost.isSome ∧ params.tsBitrate.isSome ∧ params.videoBitrate.isSome ∧
      params.videoVBRMin.isSome ∧ params.videoVBRMax.isSome ∧ params.flipFields.isSome ∧
      params.videoInput.isSome ∧ params.audioInput.isSome ∧ params.videoRateControl.isSome ∧
      params.videoCodingMode.isSome ∧ params.videoProfile.isSome ∧
      params.videoH264Level.isSome ∧ params.audioCodec.isSome ∧
      params.audioSamplerate.isSome ∧ params.audioBitrate.isSome := by
  rw [Parameters.device, ← and_true (params.audioBitrate.isSome = true)]
  repeat refine isSome_bind_iff fun _ => ?_
  exact iff_of_true rfl trivial

theorem Parameters.Assigned.flipFields {params : Parameters} (hassigned : params.Assigned) :
    params.flipFields.isSome :=
  (isSome_device_iff.mp hassigned.device).2.2.2.2.2.1

/-- The fields that `Open` needs. -/
theorem isSome_opening_iff {params : Parameters} {callback : Bool} :
    (params.opening callback).isSome ↔ params.verbose.isSome ∧ params.audioCodec.isSome := by
  rw [Parameters.opening, ← and_true (params.audioCodec.isSome = true)]
  repeat refine isSome_bind_iff fun _ => ?_
  exact iff_of_true rfl trivial

/-- Once the command line has been parsed, it is the field order alone that may not have
been assigned. -/
theorem assigned_iff (hsource : inputs.commandLine = some source) :
    (assignParameters inputs.variables inputs.firstParameters).Assigned ↔
      (inputs.variables.value .flipfields).isSome := by
  have hdefault : ∀ {name : OptionName} (field : Option name.Value),
      (cmdlineOptions.default name).isSome → (assigned inputs.variables name field).isSome := by
    intro name field hname
    rw [assigned, Option.isSome_or, isSome_variables hsource hname, Bool.true_or]
  constructor
  · intro hassigned
    have hflip := hassigned.flipFields
    simpa [assignParameters, assigned, Inputs.firstParameters, Parameters.declared] using hflip
  · intro hflip
    have hflip' : (assigned inputs.variables .flipfields none).isSome := by
      rw [assigned, Option.or_none]
      exact hflip
    constructor
    case device =>
      refine isSome_device_iff.mpr ⟨rfl, ?_, ?_, ?_, ?_, hflip', ?_, ?_, ?_, ?_, ?_, ?_, ?_, ?_, ?_⟩
      all_goals exact hdefault none rfl
    case opening => exact fun callback => isSome_opening_iff.mpr ⟨rfl, hdefault none rfl⟩

/-- A field order that is told has been told on a command line that was parsed, or in a file
that it names. -/
theorem exists_commandLine (htold : inputs.TellsFlipFields) :
    ∃ source, inputs.commandLine = some source := by
  cases hcommandLine : inputs.commandLine with
  | some source => exact ⟨source, rfl⟩
  | none => simp [Inputs.TellsFlipFields, Inputs.value, Inputs.config, hcommandLine] at htold

/-- Nothing of the kind is there where the command line cannot be parsed. -/
theorem not_assigned (hcommandLine : inputs.commandLine = none) :
    ¬ (assignParameters inputs.variables inputs.firstParameters).Assigned := by
  intro hassigned
  have hflip := hassigned.flipFields
  have hvariables : inputs.variables = .empty := by
    rw [variables_eq, Inputs.config, hcommandLine]
    rfl
  rw [hvariables] at hflip
  cases hflip

end Variables

/-- Every parameter that a device reads has been assigned, if a device is made, exactly where
`main` returns before it makes one or has been told the field order. -/
theorem parametersAssigned_iff (inputs : Inputs) :
    (∀ params mode, main inputs = .ok (params, mode) → params.Assigned) ↔
      inputs.ReturnsEarly ∨ inputs.TellsFlipFields := by
  constructor
  · intro hassigned
    refine or_iff_not_imp_left.mpr fun hearly => ?_
    have hmade := hassigned _ _ (main_of_not_returnsEarly hearly)
    cases hcommandLine : inputs.commandLine with
    | none => exact absurd hmade (not_assigned hcommandLine)
    | some source =>
        have hflip := (assigned_iff hcommandLine).mp hmade
        rwa [value_variables rfl rfl] at hflip
  · intro hcondition params mode hmain
    have hearly : ¬ inputs.ReturnsEarly := by
      intro hearly
      obtain ⟨code, herror⟩ := main_of_returnsEarly hearly
      rw [herror] at hmain
      cases hmain
    have htold := hcondition.resolve_left hearly
    obtain ⟨source, hsource⟩ := exists_commandLine htold
    rw [main_of_not_returnsEarly hearly, Except.ok.injEq, Prod.mk.injEq] at hmain
    rw [← hmain.1]
    refine (assigned_iff hsource).mpr ?_
    rwa [value_variables rfl rfl]

/-- The command line `hauppauge2`. -/
def Inputs.bare : Inputs where
  commandLine := some .nothing
  opens _ := false
  configFile _ := none
  findDev _ := none

theorem value_bare (name : OptionName) : Inputs.bare.value name = none := rfl

theorem bare_not_assigned :
    ¬ ∀ params mode, main .bare = .ok (params, mode) → params.Assigned := by
  intro hassigned
  have hearly : ¬ Inputs.bare.ReturnsEarly := by simp [Inputs.ReturnsEarly, value_bare]
  have hmade := hassigned _ _ (main_of_not_returnsEarly hearly)
  have hflip := (assigned_iff rfl).mp hmade
  rw [value_variables rfl rfl, value_bare] at hflip
  cases hflip

end HauppaugeUSB.Main
