import Chip8.Audio.Speaker
import Chip8.Host.CommandLine
import Chip8.Host.File
import Chip8.Host.Pane
import Chip8.Machine.Status
import Chip8.Machine.CatchUp

/-! A session: a machine behind a window, driven by a clock. It goes in passes. Every pass brings
the machine up to the clock; if that took a timer step, the window is updated and a reset that was
asked for is carried out; then the session sleeps until something is due again. Clock, window and
loudspeaker stay outside: their readings and answers come in, and what is asked of them goes out.
-/
namespace Chip8

/-- What ends a session before its window is closed. -/
inductive Failure
  | halt (why : Halt)
  | device (cause : DeviceError)
  deriving DecidableEq, Repr

def Failure.message : Failure → String
  | .halt why => why.message
  | .device cause => cause.message

structure Session where
  title : String
  /-- Whether the title shows the machine's status. -/
  debug : Bool
  /-- Whether every instruction is told to the log. -/
  traced : Bool
  machine : Machine
  schedule : Schedule
  pane : Pane

/-- What came of one pass. -/
structure Pass where
  session : Session
  result : Except Failure Unit
  /-- What the timer steps handed to the screen and the loudspeaker. -/
  pulses : List Pulse
  calls : List WindowCall
  /-- Whether the window was updated. -/
  updated : Bool
  entries : List Entry

/-- Draws the frames among some pulses, the latest on top. -/
def Pane.drawAll (p : Pane) (pulses : List Pulse) : Pane :=
  pulses.foldl (fun p pulse => pulse.frame.elim p p.draw) p

namespace Session

/-- What is told about a machine that failed for good. -/
def failureEntries (m : Machine) : Halt → List Entry
  | .error cause =>
    if cause.isFatal then
      [⟨.error, s!"machine state: {m.status.line}"⟩, ⟨.error, s!"registers:\n{m.status.overlay}"⟩]
    else []
  | .trap _ => []

def statusTitle (s : Session) : String := s!"{s.title} - {s.machine.status.line}"

/-- Brings the window up to date and takes in its answer. -/
def present (s : Session) (answer : Except WindowFault Report) : Pass :=
  let calls := (if s.debug then [.setTitle s.statusTitle] else []) ++ [.update s.pane.picture]
  match answer with
  | .error fault => ⟨s, .error (.device (.window fault)), [], calls, true, []⟩
  | .ok report =>
    let (asked, pane) := (s.pane.receive report).collectReset
    let s := { s with pane := pane }
    if asked then
      ⟨{ s with machine := s.machine.reset }, .ok (), [], calls, true, [Machine.resetEntry]⟩
    else ⟨s, .ok (), [], calls, true, []⟩

/-- One pass at a reading of the clock. The window's answer counts only if the window is updated. -/
def pass (s : Session) (now : Nat) (answer : Except WindowFault Report) : Pass :=
  let told :=
    if s.traced then
      s.machine.traceEntries s.pane.held (s.schedule.instructions.grant now).1
    else []
  let done := s.machine.catchUp s.pane.held s.schedule now
  let s :=
    { s with
      machine := done.machine, schedule := done.schedule, pane := s.pane.drawAll done.pulses }
  match done.result with
  | .error why =>
    ⟨s, .error (.halt why), done.pulses, [], false, told ++ failureEntries s.machine why⟩
  | .ok work =>
    if work.timerSteps = 0 then ⟨s, .ok (), done.pulses, [], false, told⟩
    else
      let p := s.present answer
      { p with pulses := done.pulses, entries := told ++ p.entries }

/-! ### Running in a world -/

/-- What surrounds a session. The state `ω` holds all that the clock and the devices depend on. -/
structure World (ω : Type) where
  /-- Reads the clock, which may move from one reading to the next. -/
  reading : ω → Nat × ω
  /-- The window's answer, should it be updated next. -/
  answer : ω → Except WindowFault Report
  /-- What the devices make of a pass. -/
  take : ω → Pass → ω
  sleep : ω → Nat → ω

/-- How far a session came. -/
inductive Ending
  | closed
  | failed (why : Failure)
  /-- The passes allowed were used up. -/
  | unfinished
  deriving DecidableEq, Repr

/-- Pass after pass until the window is closed, but at most `n` of them. -/
def run (world : World ω) : Nat → Session → ω → Ending × Session × ω
  | 0, s, w => (.unfinished, s, w)
  | n + 1, s, w =>
    if s.pane.isRunning then
      let (now, w) := world.reading w
      let p := s.pass now (world.answer w)
      let w := world.take w p
      match p.result with
      | .error why => (.failed why, p.session, w)
      | .ok _ =>
        let (later, w) := world.reading w
        let wait := p.session.schedule.wait later
        run world n p.session (if 0 < wait then world.sleep w wait else w)
    else (.closed, s, w)

/-! ### Starting -/

/-- What a session meets when it starts. -/
structure Setting where
  rom : Except FileFault (Array UInt8)
  windowOpens : Bool
  audio : Except DeviceError Output
  /-- The key of the random bytes unless the settings have a seed. -/
  entropy : Table UInt32 8
  now : Nat

/-- What came of starting a session. -/
structure Opening where
  result : Except Failure Session
  speaker : Option Speaker := none
  calls : List WindowCall := []
  entries : List Entry := []

def titleOf (settings : Settings) : String := s!"chipvm - {settings.rom} - ESC to exit"

/-- The loudspeaker is optional: without one the session is silent and says so. -/
def openAudio : Except DeviceError Output → Option Speaker × Entry
  | .ok output => (some (.new output), Speaker.openEntry output)
  | .error cause => (none, ⟨.warn, s!"{cause.message}, running without sound"⟩)

/-- A seed gives the same random bytes at every start. -/
def randomOf (settings : Settings) (entropy : Table UInt32 8) : Random :=
  match settings.seed with
  | some seed => .ofSeed seed
  | none => .ofKey entropy

def runningEntry (settings : Settings) (rom : Array UInt8) : Entry :=
  ⟨.info, s!"running {settings.rom} ({rom.size} bytes) at {settings.ips} instructions/s"⟩

/-- The file is read first, then the window opens, then the loudspeaker, and last the machine is
built; the first of them that fails decides, the loudspeaker excepted. -/
def start (settings : Settings) (traced : Bool) (setting : Setting) : Opening :=
  match setting.rom with
  | .error fault => { result := .error (.halt (.error (.unreadableRom fault.message))) }
  | .ok rom =>
    let title := titleOf settings
    let creation := Pane.creation title (.ofFactor settings.scale)
    if setting.windowOpens then
      let calls := creation :: Pane.setup
      let (speaker, heard) := openAudio setting.audio
      let random := randomOf settings setting.entropy
      let loaded := heard :: Machine.bootEntries Font.glyphs rom
      match Machine.boot Font.glyphs rom random with
      | .error cause =>
        { result := .error (.halt (.error cause)), speaker, calls, entries := loaded }
      | .ok machine =>
        { result := .ok {
            title, traced, machine
            debug := settings.debug
            schedule := .new (max settings.ips 1) setting.now
            pane := .new }
          speaker, calls
          entries := loaded ++ [runningEntry settings rom] }
    else { result := .error (.device (.window .notCreated)), calls := [creation] }

end Session
end Chip8
