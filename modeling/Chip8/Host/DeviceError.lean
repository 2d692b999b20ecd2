/-! Failures of the window and of the audio output. -/
namespace Chip8

inductive WindowFault
  | menusUnsupported
  | menuTaken
  | notCreated
  | notUpdated
  deriving DecidableEq, Repr

def WindowFault.message : WindowFault → String
  | menusUnsupported => "Menus not supported"
  | menuTaken => "Menu already exists"
  | notCreated => "Failed to create window"
  | notUpdated => "Failed to Update"

inductive DeviceError
  | window (fault : WindowFault)
  | noAudioOutput
  | audio (reason : String)
  deriving DecidableEq, Repr

def DeviceError.message : DeviceError → String
  | window fault => s!"window error: {fault.message}"
  | noAudioOutput => "no audio output device available"
  | audio reason => s!"audio error: {reason}"

end Chip8
