import Chip8.Audio.Voice
import Chip8.Journal

/-! The buzzer: a sine tone on an output device. Every beep keeps the tone alive for two timer
steps, so that beeps in consecutive steps join into one tone. -/
namespace Chip8

/-- A sine wave sampled at `rate`. Its clock counts samples and starts over at the rate. -/
structure Sine where
  rate : Float32
  clock : Float32

namespace Sine

def pitch : Float32 := 440
def pi : Float32 := .ofBits 0x40490FDB

def new (rate : UInt32) : Sine := ⟨rate.toFloat32, 0⟩

def next (s : Sine) : Single × Sine :=
  let ahead := s.clock + 1
  let clock := if ahead < s.rate then ahead else ahead - s.rate
  let angle := clock * pitch * 2 * pi / s.rate
  (⟨(angle.sin * 0.25).toBits⟩, { s with clock := clock })

end Sine

/-- What an output device asks for. -/
structure Output where
  format : SampleFormat
  /-- Frames a second. -/
  rate : UInt32
  channels : Nat
  deriving DecidableEq, Repr

/-- What can be wrong with an output device, in the words it is reported in. -/
inductive OutputFault
  | deviceGone
  | streamKindUnsupported
  | formatUnsupported
  | streamGone
  | other (text : String)
  deriving DecidableEq, Repr

def OutputFault.message : OutputFault → String
  | deviceGone =>
    "The requested device is no longer available. For example, it has been unplugged."
  | streamKindUnsupported => "The requested stream type is not supported by the device."
  | formatUnsupported => "The requested stream configuration is not supported by the device."
  | streamGone => "the device associated with the stream is no longer available"
  | other text => s!"A backend-specific error has occurred: {text}"

/-- An open output playing the tone. -/
structure Speaker where
  output : Output
  voice : Voice Sine

namespace Speaker

/-- Two timer steps' worth of frames, the frames of one step rounded down first. -/
def toneLength (rate : UInt32) : Nat := rate.toNat / 60 * 2

theorem toneLength_lt (rate : UInt32) : toneLength rate < UInt32.size := by
  have := rate.toNat_lt
  unfold toneLength UInt32.size
  omega

def new (output : Output) : Speaker := ⟨output, ⟨0, .new output.rate⟩⟩

def openEntry (output : Output) : Entry :=
  ⟨.debug, s!"audio stream open: {output.rate} Hz, {output.channels} channel(s), " ++
    output.format.name⟩

/-- Told when a playing stream reports a fault. -/
def faultEntry (fault : OutputFault) : Entry :=
  ⟨.warn, s!"an error occurred on the audio stream: {fault.message}"⟩

def beep (s : Speaker) : Speaker :=
  { s with voice := s.voice.request (toneLength s.output.rate) }

/-- The device takes `size` samples. -/
def pull (s : Speaker) (size : Nat) : Except Trap (List Sample × Speaker) := do
  let (samples, voice) ← s.voice.fill Sine.next s.output.format s.output.channels size
  return (samples, { s with voice := voice })

end Speaker
end Chip8
