/-
# Where the encoder's settings come from

An option of the command line becomes a variable, a parameter and at last a double word in
the registry, from which the encoder driver reads it. On this way a registry file goes
before the command line, the command line before the configuration file, and that before
the default of the option; and what the registry has for a setting then stays.
-/

import HauppaugeUSB.Main.Parameters
import HauppaugeUSB.Wrappers.RegistryFile

namespace HauppaugeUSB.Main

open HauppaugeUSB.Commands HauppaugeUSB.Device HauppaugeUSB.Stores HauppaugeUSB.Wrappers

/-- What an option asks for: what it is given, or its default. -/
def Inputs.asked (inputs : Inputs) (name : OptionName) : Option name.Value :=
  (inputs.value name).or (cmdlineOptions.default name)

/-- The number that an option has been given, if it takes a number and becomes a setting. -/
def OptionName.number : (name : OptionName) → name.Value → Option ℤ
  | .input, value | .audio, value | .codec, value => some value
  | .audiosamplerate, value | .audiobitrate, value => some value
  | .videobitrate, value | .videoratecontrol, value | .tsbitrate, value => some value
  | .minvbrrate, value | .maxvbrrate, value => some value
  | .profile, value | .level, value => some value
  | _, _ => none

/-- The settings of the encoder, and the options that they come from. -/
def encoderSettings : List (Text × OptionName) :=
  [(text "VideoCapSource", .input),
    (text "VideoRateControl", .videoratecontrol),
    (text "VideoTSBitrate", .tsbitrate),
    (text "VideoOutputBitrate", .videobitrate),
    (text "VBRMin", .minvbrrate),
    (text "VBRMax", .maxvbrrate),
    (text "VideoProfile", .profile),
    (text "Profile", .profile),
    (text "VideoLevel", .level),
    (text "AudioCapSource", .audio),
    (text "AudioCodecOutputFormat", .codec),
    (text "AudioOutputSamplingRate", .audiosamplerate),
    (text "AudioCapSampleRate", .audiosamplerate),
    (text "AudioOutputBitrate", .audiobitrate)]

/-- The parameters that a device is made with, where the fields that nothing has been assigned to
hold what `unset` has. -/
def Parameters.deviceOver (params : Parameters) (unset : Device.Parameters) :
    Device.Parameters where
  audioBoost := params.audioBoost.getD unset.audioBoost
  tsBitrate := params.tsBitrate.getD unset.tsBitrate
  videoBitrate := params.videoBitrate.getD unset.videoBitrate
  videoVBRMin := params.videoVBRMin.getD unset.videoVBRMin
  videoVBRMax := params.videoVBRMax.getD unset.videoVBRMax
  flipFields := params.flipFields.getD unset.flipFields
  videoInput := params.videoInput.getD unset.videoInput
  audioInput := params.audioInput.getD unset.audioInput
  videoRateControl := params.videoRateControl.getD unset.videoRateControl
  videoCodingMode := params.videoCodingMode.getD unset.videoCodingMode
  videoProfile := params.videoProfile.getD unset.videoProfile
  videoH264Level := params.videoH264Level.getD unset.videoH264Level
  audioCodec := params.audioCodec.getD unset.audioCodec
  audioSamplerate := params.audioSamplerate.getD unset.audioSamplerate
  audioBitrate := params.audioBitrate.getD unset.audioBitrate

/-- The double word that an option asks for. -/
def Inputs.dword (inputs : Inputs) (name : OptionName) : Option Dword :=
  ((inputs.asked name).bind name.number).map UInt32.ofInt

/-- A device with these parameters reads the settings that the options ask for, unless the
registry has had others before, and whatever is written to it later. -/
def SettingsArrive (inputs : Inputs) (params : Device.Parameters) : Prop :=
  ∀ setting ∈ encoderSettings, ∀ before later : List RegistryOp,
    (∀ op ∈ later, op.loads = false) →
      later.foldl registryStep (configure params (registryAfter before)) setting.1 =
        (registryAfter before setting.1).or (inputs.dword setting.2)

section Registry

variable {params : Device.Parameters} {registry : Registry} {name : Text}

/-- A setting is written unless the registry has one. -/
theorem configure_apply :
    configure params registry name = (registry name).or
      ((settings params).findSome? fun setting =>
        if setting.1 = name then some (UInt32.ofInt setting.2) else none) := by
  have hstored : configure params registry = stored insertNew registry
      ((settings params).map fun setting => .write setting.1 (UInt32.ofInt setting.2)) := by
    rw [configure, stored, List.foldl_map]
    rfl
  have hnone : ∀ access ∈ (settings params).map fun setting =>
      Access.write setting.1 (UInt32.ofInt setting.2), access.loads = false := by
    intro access haccess
    obtain ⟨setting, -, rfl⟩ := List.mem_map.mp haccess
    rfl
  rw [hstored, stored_insertNew_eq_first hnone, List.findSome?_map]
  rfl

/-- The settings have different names. -/
theorem nodup_settings : ((settings params).map Prod.fst).Nodup := by
  have hnames : (settings params).map Prod.fst = encoderSettings.map Prod.fst := rfl
  rw [hnames]
  decide

theorem findSome?_of_mem {written : List (Text × ℤ)} {setting : Text × ℤ}
    (hnodup : (written.map Prod.fst).Nodup) (hsetting : setting ∈ written) :
    (written.findSome? fun other =>
      if other.1 = setting.1 then some (UInt32.ofInt other.2) else none) =
        some (UInt32.ofInt setting.2) := by
  induction written with
  | nil => cases hsetting
  | cons first rest ih =>
      rw [List.map_cons, List.nodup_cons] at hnodup
      rw [List.findSome?_cons]
      rcases List.mem_cons.mp hsetting with rfl | hlater
      · rw [if_pos rfl]
      · have hother : first.1 ≠ setting.1 := fun hsame =>
          hnodup.1 (hsame ▸ List.mem_map_of_mem hlater)
        rw [if_neg hother]
        exact ih hnodup.2 hlater

end Registry

section Options

variable {inputs : Inputs} {source : Source cmdlineOptions} {name : OptionName}

/-- An option with a default on the command line has what it asks for. -/
theorem value_eq_asked (hsource : inputs.commandLine = some source)
    (hdefault : (cmdlineOptions.default name).isSome = true) :
    inputs.variables.value name = inputs.asked name := by
  obtain ⟨value, hvalue⟩ := Option.isSome_iff_exists.mp hdefault
  have hcommandLine : (VariablesMap.empty.store source).value name =
      (source.value name).or (some value) := by
    rw [VariablesMap.value_store, VariablesMap.explicit_empty, Option.none_or, hvalue]
    rfl
  rw [variables_eq, Inputs.asked, Inputs.value, hsource, hvalue]
  cases inputs.config with
  | none =>
      show (VariablesMap.empty.store source).value name = _
      simp [hcommandLine]
  | some file =>
      show ((VariablesMap.empty.store source).store file).value name = _
      rw [VariablesMap.value_store, VariablesMap.explicit_store, hcommandLine]
      cases hgiven : source.value name <;> cases hfile : file.value name <;>
        simp [hgiven, hfile]

/-- A field that is assigned from an option with a default has what the option asks for. -/
theorem some_assigned (hsource : inputs.commandLine = some source)
    (hdefault : (cmdlineOptions.default name).isSome = true) (unset : name.Value) :
    some ((assigned inputs.variables name none).getD unset) = inputs.asked name := by
  obtain ⟨value, hvalue⟩ : ∃ value, inputs.asked name = some value := by
    obtain ⟨value, hvalue⟩ := Option.isSome_iff_exists.mp hdefault
    rw [Inputs.asked, hvalue]
    cases inputs.value name <;> simp
  rw [assigned, Option.or_none, value_eq_asked hsource hdefault, hvalue, Option.getD_some]

/-- The double words of a device are those that the options ask for. -/
theorem settings_eq (hsource : inputs.commandLine = some source) (unset : Device.Parameters) :
    ((settings ((assignParameters inputs.variables inputs.firstParameters).deviceOver unset)).map
      fun setting => (setting.1, some (UInt32.ofInt setting.2))) =
        encoderSettings.map fun setting => (setting.1, inputs.dword setting.2) := by
  have hasked (name : OptionName) (hdefault : (cmdlineOptions.default name).isSome = true)
      (value : name.Value) :
      inputs.asked name = some ((assigned inputs.variables name none).getD value) :=
    (some_assigned hsource hdefault value).symm
  simp only [encoderSettings, List.map_cons, List.map_nil, Inputs.dword,
    hasked .input rfl unset.videoInput, hasked .videoratecontrol rfl unset.videoRateControl,
    hasked .tsbitrate rfl unset.tsBitrate, hasked .videobitrate rfl unset.videoBitrate,
    hasked .minvbrrate rfl unset.videoVBRMin, hasked .maxvbrrate rfl unset.videoVBRMax,
    hasked .profile rfl unset.videoProfile, hasked .level rfl unset.videoH264Level,
    hasked .audio rfl unset.audioInput, hasked .codec rfl unset.audioCodec,
    hasked .audiosamplerate rfl unset.audioSamplerate,
    hasked .audiobitrate rfl unset.audioBitrate]
  rfl

end Options

/-- Where the command line can be parsed, the settings of a device that `main` makes are those that
its options ask for, whatever the fields hold that are not assigned. -/
theorem settingsArrive {inputs : Inputs} {params : Parameters} {mode : Mode}
    {source : Source cmdlineOptions} (hmain : main inputs = .ok (params, mode))
    (hsource : inputs.commandLine = some source) (unset : Device.Parameters) :
    SettingsArrive inputs (params.deviceOver unset) := by
  have hearly : ¬ inputs.ReturnsEarly := by
    intro hearly
    obtain ⟨code, herror⟩ := main_of_returnsEarly hearly
    rw [herror] at hmain
    cases hmain
  rw [main_of_not_returnsEarly hearly, Except.ok.injEq, Prod.mk.injEq] at hmain
  obtain ⟨rfl, -⟩ := hmain
  intro setting hsetting before later hlater
  have hmem := List.mem_map_of_mem
    (f := fun setting : Text × OptionName => (setting.1, inputs.dword setting.2)) hsetting
  rw [← settings_eq hsource unset] at hmem
  obtain ⟨written, hwritten, hsame⟩ := List.mem_map.mp hmem
  obtain ⟨hname, hdword⟩ := Prod.mk.inj hsame
  rw [foldl_registryStep_eq_first hlater, configure_apply, ← hname, ← hdword,
    findSome?_of_mem nodup_settings hwritten]
  simp

/-- `--config recorder.conf --profile 3`, where the file has `profile = 4` and `level = 310`. -/
def Inputs.configured : Inputs where
  commandLine := some
    { given := fun
        | .config => some (.valued "recorder.conf")
        | .profile => some (.valued 3)
        | _ => none
      known := fun name hgiven => by cases name <;> first | rfl | cases hgiven
      complete := fun name hbare => by cases name <;> first | rfl | cases hbare }
  opens _ := true
  configFile _ := some
    { given := fun
        | .profile => some (.valued 4)
        | .level => some (.valued 310)
        | _ => none
      known := fun name hgiven => by cases name <;> first | rfl | cases hgiven
      complete := fun name hbare => by cases name <;> first | rfl | cases hbare }
  findDev _ := none

/-- The parameters of its device, which keeps the field order that it happens to have. -/
def configuredDevice : Device.Parameters :=
  { Device.Parameters.default with videoProfile := 3, videoH264Level := 310 }

theorem settingsArrive_configured : SettingsArrive .configured configuredDevice :=
  settingsArrive
    (show main .configured = .ok
      (assignParameters Inputs.configured.variables Inputs.configured.firstParameters,
        .standalone) from rfl) rfl .default

end HauppaugeUSB.Main
