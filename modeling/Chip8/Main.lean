import Chip8.Host.Session

/-! The program: runs a session with the terminal as its window. A terminal holds no keys and
plays no sound, so the session is silent and ends when the program is interrupted or fails. -/
namespace Chip8.Terminal

def helpText : String :=
  "Runs a CHIP-8 program\n\n" ++
  "Usage: chip8 [OPTIONS] <ROM>\n\n" ++
  "Arguments:\n" ++
  "  <ROM>            Path to the program image\n\n" ++
  "Options:\n" ++
  "      --ips <IPS>      Instructions executed per second [default: 1000]\n" ++
  "      --scale <SCALE>  Window scale factor [default: 16]\n" ++
  "      --seed <SEED>    Seed for the random number instruction\n" ++
  "      --debug          Show PC, I, timers and stack depth in the window title\n" ++
  "  -h, --help           Print help\n" ++
  "  -V, --version        Print version"

def usageText : Usage → String
  | .help => helpText
  | .version => "chip8 0.1.0"
  | .unknownArgument => "error: unexpected argument found"
  | .missingValue => "error: a value is required but none was supplied"
  | .malformedValue => "error: invalid value"
  | .repeatedOption => "error: an option cannot be used multiple times"
  | .unwantedValue => "error: unexpected value for a flag"
  | .missingRom => "error: the path to the program image was not provided"

/-- One text line for each row of a picture, a full block for a lit pixel. -/
def rows (picture : Array UInt32) : List String :=
  (List.range Screen.height).map fun y =>
    String.ofList ((List.range Screen.width).map fun x =>
      if picture[y * Screen.width + x]? == some Picture.lit then '█' else ' ')

/-- A request to the window as text for the terminal; a picture starts at the upper left corner. -/
def text : WindowCall → String
  | .create title .. => s!"\x1b[2J\x1b]0;{title}\x07"
  | .setTitle title => s!"\x1b]0;{title}\x07"
  | .update picture => "\x1b[H" ++ "\n".intercalate (rows picture) ++ "\n"
  | .moveTo .. | .removeRateLimit => ""

def readRom (path : String) : IO (Except FileFault (Array UInt8)) := do
  try
    return .ok (← IO.FS.readBinFile path).data
  catch e =>
    match e with
    | .noFileOrDirectory .. => return .error .notFound
    | e => return .error (.other (toString e))

def entropy : IO (Table UInt32 8) := do
  let bytes ← IO.getRandomBytes 32
  return .ofFn fun i =>
    (bytes.extract (4 * i.val) (4 * i.val + 4)).foldl (fun n b => n <<< 8 ||| b.toUInt32) 0

def perform (calls : List WindowCall) (entries : List Entry) : IO Unit := do
  for call in calls do
    IO.print (text call)
  for entry in entries do
    if entry.isKept .info then IO.eprintln entry.line

def fail (why : Failure) : IO UInt32 := do
  IO.eprintln (Entry.line ⟨.error, why.message⟩)
  return 1

partial def loop (s : Session) : IO UInt32 := do
  if !s.pane.isRunning then return 0
  let p := s.pass (← IO.monoNanosNow) (.ok ⟨[], [], true⟩)
  perform p.calls p.entries
  match p.result with
  | .error why => fail why
  | .ok _ =>
    let wait := p.session.schedule.wait (← IO.monoNanosNow)
    if 0 < wait then IO.sleep ((wait + 999999) / 1000000).toUInt32
    loop p.session

def run (settings : Settings) : IO UInt32 := do
  let opening := Session.start settings false {
    rom := ← readRom settings.rom
    windowOpens := true
    audio := .error .noAudioOutput
    entropy := ← entropy
    now := ← IO.monoNanosNow }
  perform opening.calls opening.entries
  match opening.result with
  | .error why => fail why
  | .ok session => loop session

end Chip8.Terminal

open Chip8 in
def main (arguments : List String) : IO UInt32 := do
  match CommandLine.parse arguments with
  | .ok settings => Terminal.run settings
  | .error usage =>
    match usage with
    | .help | .version =>
      IO.println (Terminal.usageText usage)
      return 0
    | _ =>
      IO.eprintln (Terminal.usageText usage)
      return 2
