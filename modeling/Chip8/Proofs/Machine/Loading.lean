import Chip8.Proofs.Machine.Boot

/-! Images and the memory. An image that fits comes to lie in its own region, byte for byte, and
nothing else is touched; one that does not fit is refused, and then nothing at all is touched. Font
and program have regions of their own, so the order in which they are loaded cannot be seen. -/
namespace Chip8

namespace Memory

variable {m k : Memory} {start : Nat} {image : Array UInt8} {a : Address}

/-- The addresses of `size` bytes from `start` on. -/
def Region (start size : Nat) (a : Address) : Prop := start ≤ a.val ∧ a.val < start+size

/-- Every byte of an image has its address, counted from `start` on, and is found there. -/
def Holds (m : Memory) (start : Nat) (image : Array UInt8) : Prop :=
  ∀ k (h : k < image.size), ∃ a : Address, a.val = start+k ∧ m.read a = image[k]

/-- A memory that holds an image and is the same as before everywhere else. -/
structure Placed (m after : Memory) (start : Nat) (image : Array UInt8) : Prop where
  holds : after.Holds start image
  same : ∀ a, ¬ Region start image.size a → after.read a = m.read a

lemma read_overlay_of_region {j : Nat} (hj : j < image.size) (ha : a.val = start+j) :
    (m.overlay start image).read a = image[j] := by
  have hle : start ≤ a.val := by omega
  have hsub : a.val-start = j := by omega
  rw [read_overlay, if_pos hle, hsub, Array.getElem?_eq_getElem hj]
  rfl

lemma read_overlay_of_not_region (ha : ¬ Region start image.size a) :
    (m.overlay start image).read a = m.read a := by
  rw [Region] at ha
  rw [read_overlay]
  split
  · rw [Array.getElem?_eq_none (by omega)]
    rfl
  · rfl

/-- An overlay looks at no other byte than the one it replaces. -/
lemma read_overlay_congr (h : m.read a = k.read a) :
    (m.overlay start image).read a = (k.overlay start image).read a := by
  rw [read_overlay, read_overlay, h]

lemma placed_overlay (m : Memory) (h : start+image.size ≤ size) :
    m.Placed (m.overlay start image) start image := by
  have hsize : size = 4096 := rfl
  refine ⟨fun j hj => ⟨⟨start+j, by omega⟩, rfl, ?_⟩, fun a => read_overlay_of_not_region⟩
  exact read_overlay_of_region hj rfl

/-- Images whose regions do not meet can be placed in either order. -/
lemma overlay_comm {start' : Nat} {image' : Array UInt8} (h : start+image.size ≤ start')
    (m : Memory) :
    (m.overlay start image).overlay start' image' =
      (m.overlay start' image').overlay start image := by
  ext a
  have hout : ¬ Region start image.size a ∨ ¬ Region start' image'.size a := by
    rw [Region, Region]
    omega
  rcases hout with hout | hout
  · have hsame : (m.overlay start image).read a = m.read a := read_overlay_of_not_region hout
    rw [read_overlay_of_not_region hout, read_overlay_congr hsame]
  · have hsame : (m.overlay start' image').read a = m.read a := read_overlay_of_not_region hout
    rw [read_overlay_of_not_region hout, read_overlay_congr hsame]

/-- Both images are found where they belong, and every other byte is zero. -/
lemma loaded_holds {font rom : Array UInt8} (hf : font.size ≤ fontLimit)
    (hr : rom.size ≤ romLimit) :
    (loaded font rom).Holds fontStart font ∧ (loaded font rom).Holds programStart rom ∧
      ∀ a, ¬ Region fontStart font.size a → ¬ Region programStart rom.size a →
        (loaded font rom).read a = 0 := by
  have hlimits : fontStart+fontLimit = programStart ∧ programStart+romLimit = size := ⟨rfl, rfl⟩
  have hroom : programStart ≤ size := by decide
  have hfont : (blank.overlay programStart rom).Placed (loaded font rom) fontStart font := by
    rw [loaded, overlay_comm (by omega)]
    exact placed_overlay _ (by omega)
  have hrom : (blank.overlay fontStart font).Placed (loaded font rom) programStart rom :=
    placed_overlay _ (by omega)
  refine ⟨hfont.holds, hrom.holds, fun a ha ha' => ?_⟩
  rw [loaded, read_overlay_of_not_region ha', read_overlay_of_not_region ha, read_blank]

end Memory

namespace Machine

variable {m : Machine} {start limit : Nat} {image : Array UInt8} {cause : Error}

/-- How an image is loaded from `start` on, with room for `limit` bytes: it is placed there and no
other part of the machine changes, or it is too long, and then it is refused with `cause` and the
machine stays as it is. -/
structure Loads (m : Machine) (image : Array UInt8) (start limit : Nat) (cause : Error)
    (load : Machine × Except Error Unit) : Prop where
  ok_iff : load.2 = .ok () ↔ image.size ≤ limit
  error_iff : ∀ why, load.2 = .error why ↔ limit < image.size ∧ why = cause
  placed : load.2 = .ok () →
    load.1 = { m with memory := load.1.memory } ∧ m.memory.Placed load.1.memory start image
  unchanged : ∀ why, load.2 = .error why → load.1 = m

lemma install_ite (m : Machine) (memory : Memory) (cause : Error) (fits : Prop) [Decidable fits] :
    m.install (if fits then .ok memory else .error cause) =
      if fits then ({ m with memory := memory },.ok ()) else (m,.error cause) := by
  split <;> rfl

/-- Both kinds of image are loaded by this one rule. -/
lemma loads_install (m : Machine) (cause : Error) (h : start+limit ≤ Memory.size) :
    m.Loads image start limit cause
      (m.install
        (if image.size ≤ limit then .ok (m.memory.overlay start image) else .error cause)) := by
  rw [install_ite]
  by_cases hfits : image.size ≤ limit
  · have hnot : ¬ limit < image.size := Nat.not_lt_of_le hfits
    rw [if_pos hfits]
    refine ⟨by simp [hfits], by simp [hnot], fun _ => ⟨rfl, ?_⟩, nofun⟩
    exact m.memory.placed_overlay (by omega)
  · have hlt : limit < image.size := Nat.lt_of_not_le hfits
    rw [if_neg hfits]
    exact ⟨by simp [hfits], by simp [hlt, eq_comm], nofun, fun _ _ => rfl⟩

/-- Neither image has any say in whether the other one fits or where it goes. -/
lemma load_comm (m : Machine) (font rom : Array UInt8) :
    ((m.loadFont font).1.loadRom rom).1 = ((m.loadRom rom).1.loadFont font).1 ∧
      ((m.loadFont font).1.loadRom rom).2 = (m.loadRom rom).2 ∧
      ((m.loadRom rom).1.loadFont font).2 = (m.loadFont font).2 := by
  have hlimit : Memory.fontStart+Memory.fontLimit = Memory.programStart := rfl
  simp only [loadFont, loadRom, Memory.loadFont, Memory.loadRom, install_ite]
  by_cases hf : font.size ≤ Memory.fontLimit
  · by_cases hr : rom.size ≤ Memory.romLimit
    · simp only [hf, hr, if_true, and_true]
      rw [Memory.overlay_comm (by omega)]
    · simp only [hf, hr, if_true, if_false, and_self]
  · by_cases hr : rom.size ≤ Memory.romLimit <;> simp only [hf, hr, if_true, if_false, and_self]

/-- Loading is all or nothing, keeps to its region and does not depend on the order. A font of at
most 432 bytes and a program of at most 3584 bytes are placed from `0x050` and from `0x200` on, and
nothing else of the machine changes; a longer one is refused with its length and that limit, and
nothing changes at all. Whichever of the two is loaded first, each is accepted or refused as if it
were alone, and the machine is the same in the end. So a machine is switched on exactly with images
that both fit, the font being reported if neither does, and then its memory is the two images and
zero everywhere else. -/
theorem loading_confined (m : Machine) (font rom : Array UInt8) (random : Random) :
    let withFont := m.loadFont font
    let withRom := m.loadRom rom
    m.Loads font 0x050 432 (.fontTooLarge font.size 432) withFont ∧
    m.Loads rom 0x200 3584 (.romTooLarge rom.size 3584) withRom ∧
    ((withFont.1.loadRom rom).1 = (withRom.1.loadFont font).1 ∧
      (withFont.1.loadRom rom).2 = withRom.2 ∧ (withRom.1.loadFont font).2 = withFont.2) ∧
    ((∃ on, boot font rom random = .ok on) ↔ font.size ≤ 432 ∧ rom.size ≤ 3584) ∧
    (∀ cause, boot font rom random = .error cause ↔
      432 < font.size ∧ cause = .fontTooLarge font.size 432 ∨
      font.size ≤ 432 ∧ 3584 < rom.size ∧ cause = .romTooLarge rom.size 3584) ∧
    ∀ on, boot font rom random = .ok on →
      on.memory.Holds 0x050 font ∧ on.memory.Holds 0x200 rom ∧
        ∀ a, ¬ Memory.Region 0x050 font.size a → ¬ Memory.Region 0x200 rom.size a →
          on.memory.read a = 0 := by
  refine ⟨m.loads_install _ (by decide), m.loads_install _ (by decide), m.load_comm font rom, ?_,
    fun cause => boot_eq_error_iff, fun on h => ?_⟩
  · constructor
    · rintro ⟨on, h⟩
      obtain ⟨hf, hr, -⟩ := boot_eq_ok_iff.mp h
      exact ⟨hf, hr⟩
    · rintro ⟨hf, hr⟩
      exact ⟨_, boot_eq_ok_iff.mpr ⟨hf, hr, rfl⟩⟩
  · obtain ⟨hf, hr, rfl⟩ := boot_eq_ok_iff.mp h
    exact Memory.loaded_holds hf hr

/-- A program a byte too long, refused before a font that fills its region is loaded: the font ends
right before the place of the program, which stays as it was. -/
theorem loading_confined_long_rom :
    let m := powerOn .blank (.ofSeed 0)
    let font := Array.replicate 432 0xAA
    let rom := Array.replicate 3585 0x55
    let after := (m.loadRom rom).1.loadFont font
    (m.loadRom rom).2 = .error (.romTooLarge 3585 3584) ∧ (m.loadRom rom).1 = m ∧
      after.2 = .ok () ∧ after.1.memory.read 0x1FF = 0xAA ∧ after.1.memory.read 0x200 = 0 ∧
      after.1 = ((m.loadFont font).1.loadRom rom).1 ∧
      boot font rom (.ofSeed 0) = .error (.romTooLarge 3585 3584) := by
  intro m font rom after
  have hfont : font.size = 432 := Array.size_replicate
  have hrom : rom.size = 3585 := Array.size_replicate
  obtain ⟨hf, hr, ⟨hsame, -, hok⟩, -, hboot, -⟩ := loading_confined m font rom (.ofSeed 0)
  rw [hrom] at hr hboot
  have hrefused : (m.loadRom rom).2 = .error (.romTooLarge 3585 3584) :=
    (hr.error_iff _).mpr ⟨by omega, rfl⟩
  have hkept : (m.loadRom rom).1 = m := hr.unchanged _ hrefused
  have hloaded : (m.loadFont font).2 = .ok () := hf.ok_iff.mpr (Nat.le_of_eq hfont)
  have hafter : after = m.loadFont font := congrArg (loadFont · font) hkept
  obtain ⟨hholds, hothers⟩ := (hf.placed hloaded).2
  obtain ⟨a, ha, hread⟩ := hholds 431 (by omega)
  have hlast : a = 0x1FF := Fin.ext ha
  rw [hlast, Array.getElem_replicate] at hread
  have hnext : ¬ Memory.Region 0x050 font.size 0x200 := by
    rw [hfont]
    exact fun h => absurd h.2 (by decide)
  rw [hafter]
  refine ⟨hrefused, hkept, hloaded, hread, ?_, ?_, (hboot _).mpr (.inr ⟨?_, ?_, rfl⟩)⟩
  · rw [hothers 0x200 hnext]
    exact Memory.read_blank _
  · rw [hsame, hkept]
  · omega
  · omega

end Machine
end Chip8
