import Chip8.Audio.Speaker
import Chip8.Proofs.Audio.Voice

/-! Beeps that join into one tone. A beep asks for two timer steps' worth of frames, rounded down
before they are doubled; from sixty frames a second on this is no less than one timer step rounded
up. So beeps with at most a timer step of frames in between leave no gap, wherever the buffers end,
and what is heard is one stretch of the source with silence before and after it. -/
namespace Chip8

/-- A tone lasts a timer step, if there is a frame in one at all. -/
lemma Speaker.step_le_toneLength {rate : UInt32} (h : 60 ≤ rate.toNat) :
    (rate.toNat+59)/60 ≤ toneLength rate := by
  unfold toneLength
  omega

namespace Voice

/-! ### Stretches between beeps -/

namespace Call

/-- The frames written before the first beep, between any two beeps in a row, and after the last
one. -/
def stretches (channels : Nat) : List Call → List Nat
  | [] => [0]
  | .beep :: calls => 0 :: stretches channels calls
  | .fill size :: calls => (stretches channels calls).modifyHead (frameCount channels size+·)

/-- The frames written between any two beeps in a row. -/
def gaps (channels : Nat) (calls : List Call) : List Nat := (stretches channels calls).tail.dropLast

variable {channels : Nat} {calls : List Call}

lemma length_stretches (channels : Nat) (calls : List Call) :
    (stretches channels calls).length = calls.count .beep+1 := by
  induction calls with
  | nil => rfl
  | cons c calls ih =>
    cases c with
    | beep => rw [stretches, List.length_cons, ih, List.count_cons_self]
    | fill size => rw [stretches, List.length_modifyHead, ih, List.count_cons_of_ne (by simp)]

lemma exists_stretches (channels : Nat) (calls : List Call) :
    ∃ n later, stretches channels calls = n :: later := by
  refine List.exists_cons_of_length_pos ?_
  rw [length_stretches]
  exact Nat.succ_pos _

/-- With a beep there is a stretch before the first one and another after the last. -/
lemma stretches_of_beep (channels : Nat) (h : .beep ∈ calls) :
    ∃ lead last, stretches channels calls = lead :: (gaps channels calls ++ [last]) := by
  obtain ⟨lead, later, hsplit⟩ := exists_stretches channels calls
  have hlater : later ≠ [] := by
    rintro rfl
    have hlength := length_stretches channels calls
    have hcount := List.count_pos_iff.mpr h
    rw [hsplit, List.length_singleton] at hlength
    omega
  refine ⟨lead, later.getLast hlater, ?_⟩
  rw [gaps, hsplit, List.tail_cons, List.dropLast_append_getLast]

end Call

/-- The frames of a voice that is asked for a tone after every stretch but the last. -/
def sounded {σ : Type} (next : σ → Single × σ) (tone : Nat) (v : Voice σ) : List Nat → List Single
  | [] => []
  | n :: later =>
    (List.range n).map (v.frame next) ++
      sounded next tone ((v.played next n).request tone) later

section Sounded

variable {σ : Type} {next : σ → Single × σ} {format : SampleFormat} {channels tone : Nat}
  {calls : List Call} {gaps : List Nat}

lemma sounded_add (v : Voice σ) (n m : Nat) (later : List Nat) :
    sounded next tone v ((n+m) :: later) =
      (List.range n).map (v.frame next) ++ sounded next tone (v.played next n) (m :: later) := by
  have hframe : (v.played next n).frame next = fun i => v.frame next (n+i) :=
    funext (frame_played next v n)
  simp only [sounded, List.range_add, List.map_append, List.map_map, Function.comp_def, hframe,
    played_add, List.append_assoc]

/-- Samples as they are written: every frame once a channel. -/
def interleaved (format : SampleFormat) (channels : Nat) (frames : List Single) : List Sample :=
  frames.flatMap fun frame => List.replicate channels (Sample.ofSingle frame format)

lemma interleaved_append (frames frames' : List Single) :
    interleaved format channels (frames ++ frames') =
      interleaved format channels frames ++ interleaved format channels frames' :=
  List.flatMap_append

lemma fill_whole (hc : 0 < channels) (n : Nat) (v : Voice σ) :
    v.fill next format channels (channels*n) =
      .ok (interleaved format channels ((List.range n).map (v.frame next)), v.played next n) := by
  rw [fill_eq next hc, frameCount_whole hc, interleaved, List.flatMap_map,
    flatMap_replicate (fun i => Sample.ofSingle (v.frame next i) format) hc, Nat.mul_comm]

/-- Buffers of whole frames are filled stretch by stretch. -/
lemma serve_eq_sounded (next : σ → Single × σ) (format : SampleFormat) (tone : Nat)
    (hc : 0 < channels) (hwhole : ∀ size, .fill size ∈ calls → channels ∣ size) (v : Voice σ) :
    ∃ buffers v', serve next format channels tone calls v = .ok (buffers, v') ∧
      buffers.flatten =
        interleaved format channels (sounded next tone v (Call.stretches channels calls)) := by
  induction calls generalizing v with
  | nil => exact ⟨[], v, rfl, rfl⟩
  | cons c calls ih =>
    have hlater : ∀ size, .fill size ∈ calls → channels ∣ size :=
      fun size hmem => hwhole size (List.mem_cons_of_mem _ hmem)
    cases c with
    | beep =>
      obtain ⟨buffers, v', hserve, hflat⟩ := ih hlater (v.request tone)
      refine ⟨buffers, v', hserve, hflat.trans ?_⟩
      rw [Call.stretches, sounded, played_zero]
      rfl
    | fill size =>
      obtain ⟨n, rfl⟩ := hwhole size (List.mem_cons_self ..)
      obtain ⟨m, later, hsplit⟩ := Call.exists_stretches channels calls
      obtain ⟨buffers, v', hserve, hflat⟩ := ih hlater (v.played next n)
      let first := interleaved format channels ((List.range n).map (v.frame next))
      refine ⟨first :: buffers, v', ?_, ?_⟩
      · rw [serve_fill (fill_whole hc n v), hserve]
        rfl
      · rw [List.flatten_cons, hflat, ← interleaved_append, Call.stretches, hsplit,
          List.modifyHead_cons, frameCount_whole hc, sounded_add]

/-- The source goes on for as long as a tone is owed. -/
lemma map_frame (tone n : Nat) (source : σ) :
    (List.range n).map (frame next ⟨tone, source⟩) =
      (List.range (min n tone)).map (fun i => value next i source) ++
        List.replicate (n-tone) .zero := by
  -- a voice plays the two parts one after the other; frame by frame they are the left side
  have hsilent : n-min n tone = n-tone := by omega
  have hplay := congrArg (fun r => r.1.map (·.getD .zero)) (play_eq next n ⟨tone, source⟩)
  simp only [play, draw_eq, List.map_append, List.map_map, List.map_replicate, Function.comp_def,
    Option.getD_some, Option.getD_none, hsilent] at hplay
  rw [hplay]
  exact List.map_congr_left fun i _ => (getD_eq_frame next ⟨tone, source⟩ i).symm

/-- Stretches no longer than a tone, heard by a voice that owes a whole one: the source goes on and
on until a tone after the last beep. -/
lemma sounded_of_short (hgaps : ∀ n ∈ gaps, n ≤ tone) (last : Nat) (source : σ) :
    sounded next tone ⟨tone, source⟩ (gaps ++ [last]) =
      (List.range (gaps.sum+min last tone)).map (fun i => value next i source) ++
        List.replicate (last-tone) .zero := by
  induction gaps generalizing source with
  | nil =>
    rw [List.nil_append, List.sum_nil, Nat.zero_add, sounded, sounded, List.append_nil, map_frame]
  | cons n gaps ih =>
    obtain ⟨hn, hlater⟩ := List.forall_mem_cons.mp hgaps
    -- the gap is over before the tone is, and the beep makes the rest of it a whole one again
    have hrequest : (played next ⟨tone, source⟩ n).request tone = ⟨tone, drawn next n source⟩ := by
      simp only [request, played, Nat.min_eq_left hn]
      rw [Nat.max_eq_right (Nat.sub_le ..)]
    have hframes : (List.range n).map (frame next ⟨tone, source⟩) =
        (List.range n).map fun i => value next i source := by
      rw [map_frame, Nat.min_eq_left hn, Nat.sub_eq_zero_of_le hn, List.replicate_zero,
        List.append_nil]
    rw [List.cons_append, sounded, hrequest, ih hlater, hframes, List.sum_cons, Nat.add_assoc]
    generalize gaps.sum+min last tone = rest
    rw [List.range_add, List.map_append, List.map_map, List.append_assoc]
    simp only [Function.comp_def, value_add]

/-- Nothing is heard before the first beep. -/
lemma sounded_silent (lead : Nat) (source : σ) (later : List Nat) :
    sounded next tone ⟨0, source⟩ (lead :: later) =
      List.replicate lead .zero ++ sounded next tone ⟨tone, source⟩ later := by
  have hrequest : (played next ⟨0, source⟩ lead).request tone = ⟨tone, source⟩ := by
    simp only [request, played, Nat.zero_sub, Nat.min_zero, Nat.zero_max]
    rfl
  rw [sounded, hrequest, map_frame, Nat.min_zero, List.range_zero, List.map_nil, List.nil_append,
    Nat.sub_zero]

end Sounded

/-- Beeps join. On an output of any rate from sixty frames a second on and with any channels, let
there be no more than a timer step of frames, rounded up, between any two beeps in a row. However
whole frames are put into buffers, what is written is silence up to the first beep, then the source
without a gap until a tone after the last beep, and silence again. No rate makes a tone longer than
a counter can hold. -/
theorem beeps_join {σ : Type} {output : Output} {calls : List Call}
    (hrate : 60 ≤ output.rate.toNat) (hc : 0 < output.channels) (hbeep : .beep ∈ calls)
    (hwhole : ∀ size, .fill size ∈ calls → output.channels ∣ size)
    (hgaps : ∀ n ∈ Call.gaps output.channels calls, n ≤ (output.rate.toNat+59)/60)
    (next : σ → Single × σ) (source : σ) :
    let tone := Speaker.toneLength output.rate
    let gaps := Call.gaps output.channels calls
    (∀ rate, Speaker.toneLength rate < UInt32.size) ∧
    ∃ lead last buffers v, Call.stretches output.channels calls = lead :: (gaps ++ [last]) ∧
      serve next output.format output.channels tone calls ⟨0, source⟩ = .ok (buffers, v) ∧
      buffers.flatten = interleaved output.format output.channels
        (List.replicate lead .zero ++
          ((List.range (gaps.sum+min last tone)).map (fun i => value next i source) ++
            List.replicate (last-tone) .zero)) := by
  intro tone gaps
  have hshort : ∀ n ∈ gaps, n ≤ tone :=
    fun n hn => Nat.le_trans (hgaps n hn) (Speaker.step_le_toneLength hrate)
  obtain ⟨lead, last, hsplit⟩ := Call.stretches_of_beep output.channels hbeep
  obtain ⟨buffers, v, hserve, hflat⟩ :=
    serve_eq_sounded next output.format tone hc hwhole ⟨0, source⟩
  refine ⟨Speaker.toneLength_lt, lead, last, buffers, v, hsplit, hserve, ?_⟩
  rw [hflat, hsplit, sounded_silent, sounded_of_short hshort]

/-- At 119 frames a second a timer step is two frames if rounded up and a tone no longer. Two beeps
two frames apart are heard for four frames in a row. -/
theorem beeps_join_at_119 :
    let output : Output := ⟨.f32, 119, 2⟩
    let next : UInt32 → Single × UInt32 := fun n => (⟨n⟩, n+1)
    let calls : List Call := [.fill 2, .beep, .fill 2, .fill 2, .beep, .fill 6]
    60 ≤ output.rate.toNat ∧ 0 < output.channels ∧ .beep ∈ calls ∧
      (∀ size, .fill size ∈ calls → output.channels ∣ size) ∧
      (∀ n ∈ Call.gaps output.channels calls, n ≤ (output.rate.toNat+59)/60) ∧
      ∃ buffers v, serve next .f32 2 2 calls ⟨0, 1⟩ = .ok (buffers, v) ∧
        buffers.flatten = [.single 0, .single 0, .single 1, .single 1, .single 2, .single 2,
          .single 3, .single 3, .single 4, .single 4, .single 0, .single 0] := by
  intro output next calls
  have hwhole : ∀ size, .fill size ∈ calls → output.channels ∣ size := by
    intro size h
    have hsize : size = 2 ∨ size = 6 := by simpa [calls] using h
    rcases hsize with rfl | rfl <;> decide
  have hgaps : ∀ n ∈ Call.gaps output.channels calls, n ≤ (output.rate.toNat+59)/60 := by decide
  have hrate : 60 ≤ output.rate.toNat := by decide
  obtain ⟨-, lead, last, buffers, v, hsplit, hserve, hflat⟩ :=
    beeps_join hrate (by decide) (by decide) hwhole hgaps next 1
  have hstretches : Call.stretches output.channels calls = [1, 2, 3] := by decide
  have hgap : Call.gaps output.channels calls = [2] := by decide
  have htone : Speaker.toneLength output.rate = 2 := by decide
  rw [hstretches, hgap] at hsplit
  obtain ⟨rfl, hlast⟩ := List.cons_eq_cons.mp hsplit
  obtain rfl : 3 = last := by simpa using hlast
  rw [htone] at hserve hflat
  rw [hgap] at hflat
  refine ⟨hrate, by decide, by decide, hwhole, hgaps, buffers, v, hserve, ?_⟩
  exact hflat.trans (by decide)

end Voice
end Chip8
