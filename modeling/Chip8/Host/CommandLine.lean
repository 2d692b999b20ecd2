/-! The command line: one path, three options with a value and three flags. Arguments are read from
left to right. A value is checked when the next thing is recognised, not when it is read, so an
argument nothing is known about is reported before a wrong value in front of it. -/
namespace Chip8

/-- What the command line asks for. -/
structure Settings where
  rom : String
  /-- Instructions a second. -/
  ips : UInt32 := 1000
  scale : UInt32 := 16
  seed : Option UInt64 := none
  /-- Whether the window's title shows the machine's status. -/
  debug : Bool := false
  deriving DecidableEq, Repr

/-- Why the command line yields no settings. -/
inductive Usage
  | help
  | version
  | unknownArgument
  | missingValue
  | malformedValue
  | repeatedOption
  | unwantedValue
  | missingRom
  deriving DecidableEq, Repr

namespace CommandLine

/-! ### Numbers -/

def digits? (cs : List Char) : Option Nat :=
  if cs.isEmpty || cs.any (fun c => !c.isDigit) then none
  else some (cs.foldl (fun n c => 10 * n + (c.toNat - '0'.toNat)) 0)

/-- Digits behind an optional plus sign. -/
def natural? : List Char → Option Nat
  | '+' :: cs => digits? cs
  | cs => digits? cs

/-- Digits behind an optional sign. -/
def integer? : List Char → Option Int
  | '-' :: cs => (digits? cs).map fun n => -(n : Int)
  | cs => (natural? cs).map Int.ofNat

/-- A number of 32 bits is read with a sign first, so that minus zero is a number too. -/
def long? (text : String) : Option UInt32 := do
  let value ← integer? text.toList
  if 0 ≤ value ∧ value < UInt32.size then some value.toNat.toUInt32 else none

def huge? (text : String) : Option UInt64 := do
  let value ← natural? text.toList
  if value < UInt64.size then some value.toUInt64 else none

/-! ### Arguments by their shape -/

inductive Shape
  /-- `--` -/
  | ending
  /-- `--name` or `--name=value` -/
  | long (name : String) (attached : Option String)
  /-- `-letters`, at least one -/
  | short (letters : List Char)
  | plain (text : String)
  deriving DecidableEq, Repr

/-- Splits at the first equals sign. -/
def splitValue (cs : List Char) : String × Option String :=
  let name := String.ofList (cs.takeWhile (· != '='))
  match cs.dropWhile (· != '=') with
  | [] => (name, none)
  | _ :: value => (name, some (String.ofList value))

def Shape.of (argument : String) : Shape :=
  match argument.toList with
  | ['-', '-'] => .ending
  | '-' :: '-' :: cs =>
    let (name, attached) := splitValue cs
    .long name attached
  | ['-'] => .plain argument
  | '-' :: cs => .short cs
  | _ => .plain argument

inductive ValueOption
  | ips
  | scale
  | seed
  deriving DecidableEq, Repr

inductive Flag
  | debug
  | help
  | version
  deriving DecidableEq, Repr

def valueOption? : String → Option ValueOption
  | "ips" => some .ips
  | "scale" => some .scale
  | "seed" => some .seed
  | _ => none

def longFlag? : String → Option Flag
  | "debug" => some .debug
  | "help" => some .help
  | "version" => some .version
  | _ => none

def shortFlag? : Char → Option Flag
  | 'h' => some .help
  | 'V' => some .version
  | _ => none

/-! ### Reading -/

/-- Something read but not yet checked. -/
inductive Pending
  | nothing
  /-- An option, with its value once that has been read. -/
  | option (name : ValueOption) (value : Option String)
  | rom (path : String)
  deriving DecidableEq, Repr

/-- What has been checked so far. -/
structure Draft where
  rom : Option String := none
  ips : Option UInt32 := none
  scale : Option UInt32 := none
  seed : Option UInt64 := none
  debug : Bool := false
  deriving DecidableEq, Repr

def Draft.has (d : Draft) : ValueOption → Bool
  | .ips => d.ips.isSome
  | .scale => d.scale.isSome
  | .seed => d.seed.isSome

def Draft.set? (d : Draft) (value : String) : ValueOption → Option Draft
  | .ips => (long? value).map fun n => { d with ips := some n }
  | .scale => (long? value).map fun n => { d with scale := some n }
  | .seed => (huge? value).map fun n => { d with seed := some n }

/-- An option is given once; that is noticed before its value is looked at. -/
def Draft.accept (d : Draft) (name : ValueOption) (value : String) : Except Usage Draft :=
  if d.has name then .error .repeatedOption
  else
    match d.set? value name with
    | some d => .ok d
    | none => .error .malformedValue

/-- Checks what is pending. -/
def Draft.settle (d : Draft) : Pending → Except Usage Draft
  | .nothing => .ok d
  | .option _ none => .error .missingValue
  | .option name (some value) => d.accept name value
  | .rom path => if path.isEmpty then .error .missingValue else .ok { d with rom := some path }

/-- The settings of a draft that has a path, with what was not given at its default. -/
def Draft.settings? (d : Draft) : Option Settings :=
  d.rom.map fun rom => {
    rom := rom
    ips := d.ips.getD 1000
    scale := d.scale.getD 16
    seed := d.seed
    debug := d.debug }

structure Reader where
  draft : Draft := {}
  pending : Pending := .nothing
  /-- Whether the path has been read. -/
  romRead : Bool := false
  /-- Whether all that follows is taken for paths. -/
  ended : Bool := false
  deriving DecidableEq, Repr

namespace Reader

def settle (r : Reader) : Except Usage Reader := do
  return { r with draft := ← r.draft.settle r.pending, pending := .nothing }

def flag (r : Reader) : Flag → Except Usage Reader
  | .help => do let _ ← r.settle; .error .help
  | .version => do let _ ← r.settle; .error .version
  | .debug => do
    let r ← r.settle
    if r.draft.debug then .error .repeatedOption
    else .ok { r with draft := { r.draft with debug := true } }

def shortFlags (r : Reader) : List Char → Except Usage Reader
  | [] => .ok r
  | c :: cs =>
    match shortFlag? c with
    | some flag => do (← r.flag flag).shortFlags cs
    | none => .error .unknownArgument

def long (r : Reader) (name : String) (attached : Option String) : Except Usage Reader :=
  match valueOption? name, longFlag? name, attached with
  | some option, _, some value => do
    let r ← r.settle
    return { r with draft := ← r.draft.accept option value }
  | some option, _, none => do
    return { ← r.settle with pending := .option option none }
  | none, some _, some _ => .error .unwantedValue
  | none, some flag, none => r.flag flag
  | none, none, _ => .error .unknownArgument

def path (r : Reader) (text : String) : Except Usage Reader :=
  if r.romRead then .error .unknownArgument
  else do return { ← r.settle with pending := .rom text, romRead := true }

/-- A plain argument is the value of the option right before it, or else the path. -/
def plain (r : Reader) (text : String) : Except Usage Reader :=
  match r.pending with
  | .option name none => .ok { r with pending := .option name (some text) }
  | _ => r.path text

def read (r : Reader) (argument : String) : Except Usage Reader :=
  if r.ended then r.path argument
  else
    match Shape.of argument with
    | .ending => .ok { r with ended := true }
    | .long name attached => r.long name attached
    | .short letters => r.shortFlags letters
    | .plain text => r.plain text

def finish (r : Reader) : Except Usage Settings := do
  (← r.settle).draft.settings?.elim (.error .missingRom) .ok

end Reader

/-- The settings a list of arguments asks for. -/
def parse (arguments : List String) : Except Usage Settings := do
  (← arguments.foldlM Reader.read {}).finish

end CommandLine
end Chip8
