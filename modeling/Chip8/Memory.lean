import Chip8.Error
import Chip8.Table

/-! The machine's 4096 bytes. An address is a number below 4096; a wider word names the byte its low
twelve bits name. Glyphs lie from `0x050` up to the program, which starts at `0x200`. -/
namespace Chip8

abbrev Address := Fin 4096

namespace Address

/-- The byte a word points at, by its low twelve bits. -/
def ofWord (w : UInt16) : Address := ⟨w.toNat % 4096, Nat.mod_lt _ (by decide)⟩

@[simp] theorem val_ofWord (w : UInt16) : (ofWord w).val = w.toNat % 4096 := rfl

end Address

structure Memory where
  bytes : Table UInt8 4096
  deriving DecidableEq

namespace Memory

def fontStart : Nat := 0x050
def programStart : Nat := 0x200
def size : Nat := 4096

/-- The longest font that ends before the program. -/
def fontLimit : Nat := programStart - fontStart

/-- The longest program that ends within memory. -/
def romLimit : Nat := size - programStart

def blank : Memory := ⟨.fill 4096 0⟩

def read (m : Memory) (a : Address) : UInt8 := m.bytes.get a

def write (m : Memory) (a : Address) (value : UInt8) : Memory :=
  ⟨m.bytes.set a value⟩

/-- Two bytes as one word, the first byte on the left. -/
def readWord (m : Memory) (w : UInt16) : UInt16 :=
  (m.read (.ofWord w)).toUInt16 <<< 8 ||| (m.read (.ofWord (w + 1))).toUInt16

/-- Places `image` from `start` on and keeps every other byte. -/
def overlay (m : Memory) (start : Nat) (image : Array UInt8) : Memory :=
  ⟨.ofFn fun a =>
    if start ≤ a.val then image[a.val - start]?.getD (m.read a) else m.read a⟩

def loadFont (m : Memory) (font : Array UInt8) : Except Error Memory :=
  if font.size ≤ fontLimit then .ok (m.overlay fontStart font)
  else .error (.fontTooLarge font.size fontLimit)

def loadRom (m : Memory) (rom : Array UInt8) : Except Error Memory :=
  if rom.size ≤ romLimit then .ok (m.overlay programStart rom)
  else .error (.romTooLarge rom.size romLimit)

/-- A blank memory with both images; of two that do not fit, the font is reported. -/
def withImages (font rom : Array UInt8) : Except Error Memory := do
  (← blank.loadFont font).loadRom rom

@[ext] theorem ext {m k : Memory} (h : ∀ a, m.read a = k.read a) : m = k := by
  obtain ⟨m⟩ := m
  obtain ⟨k⟩ := k
  congr 1
  exact Table.ext h

@[simp] theorem read_blank (a : Address) : blank.read a = 0 := by
  simp [blank, read]

@[simp] theorem read_write (m : Memory) (a b : Address) (value : UInt8) :
    (m.write a value).read b = if a = b then value else m.read b := by
  simp [write, read]

@[simp] theorem read_overlay (m : Memory) (start : Nat) (image : Array UInt8) (a : Address) :
    (m.overlay start image).read a =
      if start ≤ a.val then image[a.val - start]?.getD (m.read a) else m.read a := by
  simp [overlay, read]

end Memory
end Chip8
