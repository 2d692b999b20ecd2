import Chip8.Audio.Sample
import Chip8.Checked

/-! A voice that sounds for a limited number of frames. Whatever makes the sound is a state `σ` with
a function that gives its next value; it is asked once for every audible frame and never for a
silent one. -/
namespace Chip8

structure Voice (σ : Type) where
  /-- Frames still to be sounded. -/
  remaining : Nat
  source : σ

namespace Voice

/-- The next `n` values of a source. -/
def draw (next : σ → Single × σ) : Nat → σ → List Single × σ
  | 0, source => ([], source)
  | n + 1, source =>
    let (value, source) := next source
    let (values, source) := draw next n source
    (value :: values, source)

/-- A request for `frames` more frames; what is already owed is not added to. -/
def request (v : Voice σ) (frames : Nat) : Voice σ :=
  { v with remaining := max v.remaining frames }

/-- The next `n` frames, `none` for a silent one. -/
def play (next : σ → Single × σ) (n : Nat) (v : Voice σ) : List (Option Single) × Voice σ :=
  let audible := min n v.remaining
  let (values, source) := draw next audible v.source
  (values.map some ++ List.replicate (n - audible) none, ⟨v.remaining - audible, source⟩)

/-- Fills a buffer of `size` samples. Every frame holds one sample a channel, all the same; a last
frame that does not fit is cut short and counts as a whole one. -/
def fill (next : σ → Single × σ) (format : SampleFormat) (channels size : Nat) (v : Voice σ) :
    Except Trap (List Sample × Voice σ) :=
  if channels = 0 then .error .emptyFrame
  else
    let (frames, v) := v.play next ((size + channels - 1) / channels)
    let samples := frames.flatMap fun frame =>
      List.replicate channels (Sample.ofSingle (frame.getD .zero) format)
    .ok (samples.take size, v)

end Voice
end Chip8
