/-
# Parameters

What the user asks for reaches the device as numbers that `main` has cast to the
enumerations of the encoder driver, so any number is possible. Most of them go into the
registry when the device object is made.
-/

import HauppaugeUSB.Wrappers.Registry

namespace HauppaugeUSB.Device

open HauppaugeUSB.Commands HauppaugeUSB.Stores HauppaugeUSB.Wrappers

/-- `HAPI_VIDEO_CAPTURE_SOURCE_CVBS`. -/
def hapiVideoCaptureSourceCvbs : ℤ := 0

/-- `HAPI_VIDEO_CAPTURE_SOURCE_COMPONENT`. -/
def hapiVideoCaptureSourceComponent : ℤ := 1

/-- `HAPI_VIDEO_CAPTURE_SOURCE_SDI`. -/
def hapiVideoCaptureSourceSdi : ℤ := 2

/-- `HAPI_VIDEO_CAPTURE_SOURCE_HDMI`. -/
def hapiVideoCaptureSourceHdmi : ℤ := 3

/-- `HAPI_AUDIO_CAPTURE_SOURCE_SPDIF`. -/
def hapiAudioCaptureSourceSpdif : ℤ := 1

/-- `HAPI_AUDIO_CAPTURE_SOURCE_HDMI`. -/
def hapiAudioCaptureSourceHdmi : ℤ := 3

/-- `HAPI_AUDIO_CODEC_AC3`. -/
def hapiAudioCodecAc3 : ℤ := 2

/-- `HAPI_CODING_MODE_FRAME`. -/
def hapiCodingModeFrame : ℤ := 0

/-- `HAPI_CODING_MODE_FIELD`. -/
def hapiCodingModeField : ℤ := 1

/-- `HAPI_CODING_MODE_MBAFF`. -/
def hapiCodingModeMbaff : ℤ := 2

/-- `HAPI_CODING_MODE_PAFF`. -/
def hapiCodingModePaff : ℤ := 3

/-- What `HauppaugeDev` reads of `Parameters` to configure the device and to start
recording. -/
structure Parameters where
  audioBoost : Bool
  tsBitrate : ℤ
  videoBitrate : ℤ
  videoVBRMin : ℤ
  videoVBRMax : ℤ
  flipFields : Bool
  videoInput : ℤ
  audioInput : ℤ
  videoRateControl : ℤ
  videoCodingMode : ℤ
  videoProfile : ℤ
  videoH264Level : ℤ
  audioCodec : ℤ
  audioSamplerate : ℤ
  audioBitrate : ℤ
  deriving DecidableEq

/-- The defaults of the options, with no boost and no flipping. -/
def Parameters.default : Parameters where
  audioBoost := false
  tsBitrate := 20000000
  videoBitrate := 8000000
  videoVBRMin := 9000000
  videoVBRMax := 20000000
  flipFields := false
  videoInput := 3
  audioInput := 3
  videoRateControl := 1
  videoCodingMode := 4
  videoProfile := 4
  videoH264Level := 420
  audioCodec := 3
  audioSamplerate := 3
  audioBitrate := 29

/-- What `configure` writes to the registry. -/
def settings (params : Parameters) : List (Text × ℤ) :=
  [(text "VideoCapSource", params.videoInput),
    (text "VideoRateControl", params.videoRateControl),
    (text "VideoTSBitrate", params.tsBitrate),
    (text "VideoOutputBitrate", params.videoBitrate),
    (text "VBRMin", params.videoVBRMin),
    (text "VBRMax", params.videoVBRMax),
    (text "VideoProfile", params.videoProfile),
    (text "Profile", params.videoProfile),
    (text "VideoLevel", params.videoH264Level),
    (text "AudioCapSource", params.audioInput),
    (text "AudioCodecOutputFormat", params.audioCodec),
    (text "AudioOutputSamplingRate", params.audioSamplerate),
    (text "AudioCapSampleRate", params.audioSamplerate),
    (text "AudioOutputBitrate", params.audioBitrate)]

/-- `HauppaugeDev::configure`. -/
def configure (params : Parameters) (registry : Registry) : Registry :=
  (settings params).foldl
    (fun registry setting => (writeDword registry setting.1 (UInt32.ofInt setting.2)).2) registry

/-- The name under which the coding mode of a recording is written. -/
def videoCodingModeName : Text := text "VideoCodingMode"

/-- Settings leave every other name alone. -/
theorem foldl_writeDword_of_notMem {written : List (Text × ℤ)} {registry : Registry}
    {name : Text} (hname : ∀ setting ∈ written, setting.1 ≠ name) :
    written.foldl (fun registry setting =>
      (writeDword registry setting.1 (UInt32.ofInt setting.2)).2) registry name =
        registry name := by
  induction written generalizing registry with
  | nil => rfl
  | cons setting later ih =>
      rw [List.foldl_cons, ih fun other hother => hname other (List.mem_cons_of_mem _ hother)]
      exact insertNew_of_ne (hname setting List.mem_cons_self).symm

/-- `configure` does not set a coding mode. -/
theorem configure_videoCodingMode {params : Parameters} {registry : Registry} :
    configure params registry videoCodingModeName = registry videoCodingModeName := by
  apply foldl_writeDword_of_notMem
  simp only [settings, List.forall_mem_cons, List.not_mem_nil, false_implies, implies_true,
    and_true]
  decide

end HauppaugeUSB.Device
