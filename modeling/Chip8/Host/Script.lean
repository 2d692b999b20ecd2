import Chip8.Host.Session

/-! Devices that follow a script: a window whose every update is laid down beforehand, an output
that takes samples at those updates, and a clock that moves only by sleeping and by what updates
cost. A session played among them leaves a record. -/
namespace Chip8.Script

/-- One update of a scripted window. -/
structure Frame where
  held : List HostKey := []
  closes : Bool := false
  fails : Bool := false
  /-- Nanoseconds the update takes. -/
  cost : Nat := 0
  /-- Samples the output takes after the update. -/
  pull : Nat := 0
  deriving DecidableEq, Repr

/-- Follows the last frame of a script. -/
def Frame.last : Frame := { closes := true }

structure Window where
  held : List HostKey
  isOpen : Bool
  deriving DecidableEq, Repr

namespace Window

def new : Window := ⟨[], true⟩

/-- A failing update changes nothing. A closed window stays closed. -/
def update (w : Window) (f : Frame) : Except WindowFault Report × Window :=
  if f.fails then (.error .notUpdated, w)
  else
    let isOpen := w.isOpen && !f.closes
    (.ok ⟨f.held, f.held.filter (!w.held.contains ·), isOpen⟩, ⟨f.held, isOpen⟩)

end Window

/-- Where in the life of an output a script lets it fail: at one of the three stages of opening, or
while it plays. -/
inductive Stage
  | configure
  | build
  | play
  | playing
  deriving DecidableEq, Repr

/-- The fault a script names by a word; any word without a meaning at its stage is passed on. -/
def fault : Stage → String → OutputFault
  | .configure, "gone" => .deviceGone
  | .configure, "type" => .streamKindUnsupported
  | .build, "gone" => .deviceGone
  | .build, "config" => .formatUnsupported
  | .play, "gone" => .streamGone
  | .playing, "gone" => .deviceGone
  | _, text => .other text

/-- A scripted output device, if there is one: what it asks for, and the fault that keeps it shut.
-/
structure Audio where
  output : Output
  fault : Option OutputFault := none

def openAudio : Option Audio → Except DeviceError Output
  | none => .error .noAudioOutput
  | some ⟨output, none⟩ => .ok output
  | some ⟨_, some fault⟩ => .error (.audio fault.message)

/-! ### The record of a session -/

inductive Event
  | call (request : WindowCall)
  /-- An update with the time it began and, if any were asked for, the samples that were taken
  after it; nothing is taken where nothing plays. -/
  | update (time : Nat) (picture : Array UInt32) (taken : Option (Option (List Sample)))

structure State where
  clock : Nat
  frames : List Frame
  window : Window
  speaker : Option Speaker
  /-- Latest first. -/
  events : List Event
  /-- Latest first. -/
  entries : List Entry
  /-- Set when samples were asked for that cannot be grouped into frames. -/
  trap : Option Trap

namespace State

def frame (w : State) : Frame := w.frames.headD .last

/-- The output takes `size` samples. -/
def pull (w : State) (size : Nat) : Option (List Sample) × State :=
  match w.speaker with
  | none => (none, w)
  | some speaker =>
    match speaker.pull size with
    | .ok (samples, speaker) => (some samples, { w with speaker := some speaker })
    | .error t => (none, { w with trap := some t })

/-- Plays the next frame for an update that shows `picture`. -/
def update (w : State) (picture : Array UInt32) : State :=
  let f := w.frame
  let time := w.clock
  let w :=
    { w with clock := w.clock + f.cost, frames := w.frames.tail, window := (w.window.update f).2 }
  if f.pull = 0 then { w with events := .update time picture none :: w.events }
  else
    let (taken, w) := w.pull f.pull
    { w with events := .update time picture (some taken) :: w.events }

def call (w : State) : WindowCall → State
  | .update picture => w.update picture
  | request => { w with events := .call request :: w.events }

def beep (w : State) (pulse : Pulse) : State :=
  if pulse.beep then { w with speaker := w.speaker.map Speaker.beep } else w

def tell (w : State) (entries : List Entry) : State :=
  { w with entries := entries.reverse ++ w.entries }

/-- Beeps come before the window is updated, since the timer steps do. -/
def take (w : State) (p : Pass) : State :=
  (p.calls.foldl call (p.pulses.foldl beep w)).tell p.entries

end State

def world : Session.World State where
  reading w := (w.clock, w)
  answer w := (w.window.update w.frame).1
  take := State.take
  sleep w wait := { w with clock := w.clock + wait }

/-- What a session is to meet: the updates to come, how the devices open, and what the files hold.
-/
structure Scenario where
  frames : List Frame
  audio : Option Audio
  windowOpens : Bool
  rom : Except FileFault (Array UInt8)

/-- Every pass sleeps or updates the window. Up to each update and up to the end there are no more
passes than nanoseconds in a timer period, so these suffice for every rate at which a pass always
moves the clock. -/
def Scenario.passes (script : Scenario) : Nat := (script.frames.length + 2) * 16666668

/-- What a session meets when it starts. -/
def Scenario.setting (script : Scenario) : Session.Setting where
  rom := script.rom
  windowOpens := script.windowOpens
  audio := openAudio script.audio
  entropy := .fill 8 0
  now := 0

/-- The devices at the end of an opening. -/
def Scenario.begin (script : Scenario) (opening : Session.Opening) : State :=
  let w : State := {
    clock := 0
    frames := script.frames
    window := .new
    speaker := opening.speaker
    events := []
    entries := []
    trap := none }
  (opening.calls.foldl State.call w).tell opening.entries

/-- A session played to its end, or for `n` passes if that is sooner. -/
def play (n : Nat) (script : Scenario) (settings : Settings) (traced : Bool) :
    Session.Ending × State :=
  let opening := Session.start settings traced script.setting
  let w := script.begin opening
  match opening.result with
  | .error why => (.failed why, w)
  | .ok session =>
    let (ending, _, w) := session.run world n w
    (ending, w)

end Chip8.Script
