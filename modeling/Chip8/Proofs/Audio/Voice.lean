import Chip8.Audio.Voice
import Mathlib.Algebra.Ring.Nat
import Mathlib.Data.List.DropRight
import Mathlib.Logic.Function.Iterate

/-! What can be heard of a voice. A voice keeps one number, the frames it still owes, and brings it
up to date once a buffer. What can be heard is a matter of its past alone: the frames since the
latest beep sound until there are as many of them as a tone has, wherever the buffers end. -/
namespace Chip8

/-- What the past of a voice is made of. -/
inductive Mark
  | beep
  | frame
  deriving DecidableEq, Repr

namespace Mark

/-- The frames since the latest beep. -/
def since (past : List Mark) : Nat := (past.rtakeWhile (· != .beep)).length

/-- A frame with this past can be heard: there was a beep, and a tone has more frames than have been
written since. -/
def Audible (tone : Nat) (past : List Mark) : Prop := .beep ∈ past ∧ since past < tone

instance (tone : Nat) (past : List Mark) : Decidable (Audible tone past) :=
  inferInstanceAs (Decidable (_ ∧ _))

/-- How many frames of the past could be heard. -/
def heard (tone : Nat) (past : List Mark) : Nat :=
  (List.range past.length).countP fun i => past[i]? = some .frame ∧ Audible tone (past.take i)

/-- How many frames can be heard from here on, unless there is another beep. -/
def owed (tone : Nat) (past : List Mark) : Nat := if .beep ∈ past then tone-since past else 0

variable {tone : Nat} {past : List Mark}

lemma audible_iff : Audible tone past ↔ 0 < owed tone past := by
  unfold Audible owed
  by_cases h : .beep ∈ past
  · rw [if_pos h, and_iff_right h]
    exact Nat.sub_pos_iff_lt.symm
  · rw [if_neg h]
    exact iff_of_false (fun haudible => h haudible.1) (Nat.lt_irrefl 0)

lemma owed_le (tone : Nat) (past : List Mark) : owed tone past ≤ tone := by
  unfold owed
  split <;> omega

lemma owed_beep (tone : Nat) (past : List Mark) : owed tone (past ++ [.beep]) = tone := by
  have hsince : since (past ++ [.beep]) = 0 := by
    rw [since, List.rtakeWhile_concat_neg _ _ _ (by decide)]
    rfl
  rw [owed, if_pos (by simp), hsince, Nat.sub_zero]

lemma owed_frame (tone : Nat) (past : List Mark) :
    owed tone (past ++ [.frame]) = owed tone past-1 := by
  have hsince : since (past ++ [.frame]) = since past+1 := by
    rw [since, List.rtakeWhile_concat_pos _ _ _ (by decide), List.length_append]
    rfl
  have hmem : .beep ∈ past ++ [.frame] ↔ Mark.beep ∈ past := by simp
  unfold owed
  rw [hsince]
  simp only [hmem]
  split <;> omega

lemma heard_concat (tone : Nat) (past : List Mark) (mark : Mark) :
    heard tone (past ++ [mark]) =
      heard tone past+if mark = .frame ∧ Audible tone past then 1 else 0 := by
  unfold heard
  rw [List.length_append, List.length_singleton, List.range_succ, List.countP_append]
  congr 1
  · refine List.countP_congr fun i hi => ?_
    have hlt := List.mem_range.mp hi
    rw [List.getElem?_append_left hlt, List.take_append_of_le_length hlt.le]
  · simp [List.countP_cons]

lemma owed_frames (tone : Nat) (past : List Mark) (n : Nat) :
    owed tone (past ++ List.replicate n .frame) = owed tone past-n := by
  induction n with
  | zero => simp
  | succ n ih =>
    rw [List.replicate_succ', ← List.append_assoc, owed_frame, ih]
    omega

/-- Of frames in a row those can be heard that are owed. -/
lemma heard_frames (tone : Nat) (past : List Mark) (n : Nat) :
    heard tone (past ++ List.replicate n .frame) = heard tone past+min n (owed tone past) := by
  induction n with
  | zero => simp
  | succ n ih =>
    rw [List.replicate_succ', ← List.append_assoc, heard_concat, ih]
    simp only [true_and, audible_iff, owed_frames]
    split <;> omega

lemma audible_frames_iff (n : Nat) :
    Audible tone (past ++ List.replicate n .frame) ↔ n < owed tone past := by
  rw [audible_iff, owed_frames]
  omega

end Mark

namespace Voice

variable {σ : Type}

/-! ### Filling a buffer -/

section Fill

variable (next : σ → Single × σ)

/-- A source once `n` values are drawn from it. -/
def drawn (n : Nat) (source : σ) : σ := (fun source => (next source).2)^[n] source

/-- The value a source gives after `n` others. -/
def value (n : Nat) (source : σ) : Single := (next (drawn next n source)).1

lemma drawn_add (m n : Nat) (source : σ) :
    drawn next (m+n) source = drawn next n (drawn next m source) := by
  rw [drawn, Nat.add_comm, Function.iterate_add_apply]
  rfl

lemma drawn_succ (n : Nat) (source : σ) :
    drawn next (n+1) source = (next (drawn next n source)).2 :=
  Function.iterate_succ_apply' ..

lemma value_add (m n : Nat) (source : σ) :
    value next (m+n) source = value next n (drawn next m source) := by
  rw [value, drawn_add]
  rfl

lemma draw_eq (n : Nat) (source : σ) :
    draw next n source =
      ((List.range n).map fun i => value next i source, drawn next n source) := by
  induction n generalizing source with
  | zero => rfl
  | succ n ih =>
    simp only [draw, ih, List.range_succ_eq_map, List.map_cons, List.map_map]
    rfl

/-- The frame after `i` others, should there be no request in between. -/
def frame (v : Voice σ) (i : Nat) : Single :=
  if i < v.remaining then value next i v.source else .zero

/-- A voice after `n` frames. -/
def played (v : Voice σ) (n : Nat) : Voice σ :=
  ⟨v.remaining-n, drawn next (min n v.remaining) v.source⟩

lemma play_eq (n : Nat) (v : Voice σ) :
    v.play next n =
      ((List.range n).map fun i => if i < v.remaining then some (value next i v.source) else none,
        v.played next n) := by
  have hcount : v.remaining-min n v.remaining = v.remaining-n := by omega
  have hframes : ((List.range (min n v.remaining)).map fun i => value next i v.source).map some ++
        List.replicate (n-min n v.remaining) none =
      (List.range n).map fun i =>
        if i < v.remaining then some (value next i v.source) else none := by
    apply List.ext_getElem
    · simp only [List.length_append, List.length_map, List.length_range, List.length_replicate]
      omega
    · intro i hi hi'
      have hlt : i < n := by simpa using hi'
      simp only [List.getElem_append, List.getElem_map, List.getElem_range,
        List.getElem_replicate, List.length_map, List.length_range, Nat.lt_min, hlt, true_and]
      split <;> rfl
  simp only [play, draw_eq, hcount, hframes]
  rfl

lemma getD_eq_frame (v : Voice σ) (i : Nat) :
    (if i < v.remaining then some (value next i v.source) else none).getD .zero =
      v.frame next i := by
  unfold frame
  split <;> rfl

/-- Frames of `channels` equal samples, written one after the other. -/
lemma flatMap_replicate {α : Type} (f : Nat → α) {channels : Nat} (hc : 0 < channels) (n : Nat) :
    ((List.range n).flatMap fun i => List.replicate channels (f i)) =
      (List.range (n*channels)).map fun k => f (k/channels) := by
  have hlast : ∀ n, List.replicate channels (f n) =
      (List.range channels).map fun j => f ((n*channels+j)/channels) := by
    intro n
    refine List.ext_getElem (by simp) fun j hj _ => ?_
    have hj : j < channels := by simpa using hj
    simp [Nat.mul_comm n, Nat.mul_add_div hc, Nat.div_eq_of_lt hj]
  induction n with
  | zero => simp
  | succ n ih =>
    rw [List.range_succ, List.flatMap_append, ih, List.flatMap_singleton, hlast, Nat.succ_mul,
      List.range_add, List.map_append, List.map_map]
    rfl

/-- The frames a buffer takes. -/
def frameCount (channels size : Nat) : Nat := (size+channels-1)/channels

/-- A buffer is filled frame by frame. -/
theorem fill_eq {channels : Nat} (hc : 0 < channels) (format : SampleFormat) (size : Nat)
    (v : Voice σ) :
    v.fill next format channels size =
      .ok ((List.range size).map fun k => Sample.ofSingle (v.frame next (k/channels)) format,
        v.played next (frameCount channels size)) := by
  have hroom : size ≤ frameCount channels size*channels := by
    have hlt : size+channels-1 < frameCount channels size*channels+channels :=
      Nat.lt_div_mul_add hc
    omega
  unfold fill
  rw [if_neg hc.ne', play_eq]
  simp only [List.flatMap_map, getD_eq_frame]
  rw [← frameCount, flatMap_replicate _ hc, ← List.map_take, List.take_range, min_eq_left hroom]

lemma frameCount_mul {channels : Nat} (hc : 0 < channels) (n size : Nat) :
    frameCount channels (channels*n+size) = n+frameCount channels size := by
  rw [frameCount, frameCount, ← Nat.mul_add_div hc]
  congr 1
  omega

lemma frame_played (v : Voice σ) (n i : Nat) :
    (v.played next n).frame next i = v.frame next (n+i) := by
  have hlt : i < v.remaining-n ↔ n+i < v.remaining := by omega
  simp only [frame, played, hlt]
  split
  · rw [min_eq_left (by omega), value_add]
  · rfl

lemma played_add (v : Voice σ) (m n : Nat) :
    v.played next (m+n) = (v.played next m).played next n := by
  have hmin : min (m+n) v.remaining = min m v.remaining+min n (v.remaining-m) := by omega
  simp only [played, hmin, drawn_add, Nat.sub_sub]

lemma frameCount_zero {channels : Nat} (hc : 0 < channels) : frameCount channels 0 = 0 :=
  Nat.div_eq_of_lt (by omega)

lemma frameCount_whole {channels : Nat} (hc : 0 < channels) (n : Nat) :
    frameCount channels (channels*n) = n := by
  have hmul := frameCount_mul hc n 0
  rwa [frameCount_zero hc, Nat.add_zero, Nat.add_zero] at hmul

/-- A buffer can be cut between two frames. -/
theorem fill_add {channels : Nat} (hc : 0 < channels) (format : SampleFormat) (n size : Nat)
    (v : Voice σ) :
    v.fill next format channels (channels*n+size) = (do
      let (first, v) ← v.fill next format channels (channels*n)
      let (later, v) ← v.fill next format channels size
      return (first ++ later, v)) := by
  simp only [fill_eq next hc, frameCount_whole hc, frameCount_mul hc, bind, Except.bind, pure,
    Except.pure, played_add, frame_played, List.range_add, List.map_append, List.map_map,
    Function.comp_def, Nat.mul_add_div hc]

lemma played_zero (v : Voice σ) : v.played next 0 = v := by
  rw [played, Nat.zero_min]
  rfl

lemma fill_zero {channels : Nat} (hc : 0 < channels) (format : SampleFormat) (v : Voice σ) :
    v.fill next format channels 0 = .ok ([], v) := by
  rw [fill_eq next hc, frameCount_zero hc, played_zero, List.range_zero, List.map_nil]

end Fill

/-! ### Calls -/

/-- What is asked of a voice. -/
inductive Call
  | beep
  /-- Fill a buffer of `size` samples. -/
  | fill (size : Nat)
  deriving DecidableEq, Repr

namespace Call

def isFill : Call → Bool
  | beep => false
  | fill _ => true

/-- What a call adds to the past of a voice. -/
def marks (channels : Nat) : Call → List Mark
  | beep => [.beep]
  | fill size => List.replicate (frameCount channels size) .frame

/-- The past that some calls make. -/
def past (channels : Nat) (calls : List Call) : List Mark := calls.flatMap (marks channels)

end Call

section Serve

variable (next : σ → Single × σ) (format : SampleFormat) (channels tone : Nat)

/-- Serves some calls, with a tone of `tone` frames for every beep, and collects the buffers. -/
def serve : List Call → Voice σ → Except Trap (List (List Sample) × Voice σ)
  | [], v => .ok ([], v)
  | .beep :: calls, v => serve calls (v.request tone)
  | .fill size :: calls, v => do
    let (samples, v) ← v.fill next format channels size
    let (buffers, v) ← serve calls v
    return (samples :: buffers, v)

end Serve

section Run

variable {next : σ → Single × σ} {format : SampleFormat} {channels tone : Nat}
  {older newer calls : List Call} {first later : List (List Sample)} {v v' v'' : Voice σ}

lemma serve_fill {size : Nat} {samples : List Sample}
    (h : v.fill next format channels size = .ok (samples, v')) :
    serve next format channels tone (.fill size :: calls) v =
      (serve next format channels tone calls v').map fun r => (samples :: r.1, r.2) := by
  rw [serve, h]
  change (serve next format channels tone calls v').bind _ = _
  cases serve next format channels tone calls v' <;> rfl

lemma serve_append (h : serve next format channels tone older v = .ok (first, v'))
    (h' : serve next format channels tone newer v' = .ok (later, v'')) :
    serve next format channels tone (older ++ newer) v = .ok (first ++ later, v'') := by
  induction older generalizing v first with
  | nil =>
    cases h
    exact h'
  | cons c older ih =>
    cases c with
    | beep => exact ih h
    | fill size =>
      rw [List.cons_append]
      cases hf : v.fill next format channels size with
      | error trap =>
        rw [serve, hf] at h
        cases h
      | ok filled =>
        rw [serve_fill hf] at h ⊢
        cases hr : serve next format channels tone older filled.2 with
        | error trap =>
          rw [hr] at h
          cases h
        | ok r =>
          rw [hr] at h
          cases h
          rw [ih hr]
          rfl

lemma exists_serve (hc : 0 < channels) (calls : List Call) (v : Voice σ) :
    ∃ r, serve next format channels tone calls v = .ok r := by
  induction calls generalizing v with
  | nil => exact ⟨_, rfl⟩
  | cons c calls ih =>
    cases c with
    | beep => exact ih _
    | fill size =>
      obtain ⟨r, hr⟩ := ih (v.played next (frameCount channels size))
      rw [serve_fill (fill_eq next hc format size v), hr]
      exact ⟨_, rfl⟩

/-- A voice that owes a whole tone takes no notice of a beep. -/
lemma serve_quiet (hc : 0 < channels) {between : List Call}
    (h : ∀ c ∈ between, c = .beep ∨ c = .fill 0) (hv : tone ≤ v.remaining) :
    serve next format channels tone (between ++ newer) v =
      serve next format channels tone (between.filter Call.isFill ++ newer) v := by
  -- the voice stays as it is all along: neither a beep nor an empty buffer changes it
  have hrequest : v.request tone = v := by rw [request, max_eq_left hv]
  induction between with
  | nil => rfl
  | cons c between ih =>
    have hrest := ih fun c hmem => h c (List.mem_cons_of_mem _ hmem)
    rcases h c (List.mem_cons_self ..) with rfl | rfl
    · rw [List.cons_append, serve, hrequest, hrest]
      rfl
    · rw [List.cons_append, serve_fill (fill_zero next hc format v), hrest]
      exact (serve_fill (fill_zero next hc format v)).symm

/-- A buffer cut between frames is filled piece by piece. -/
lemma serve_cut (hc : 0 < channels) (whole : List Nat) (last : Nat) (v : Voice σ) :
    ∃ pieces v', serve next format channels tone
        (whole.map (fun n => .fill (channels*n)) ++ [.fill last]) v = .ok (pieces, v') ∧
      v.fill next format channels (channels*whole.sum+last) = .ok (pieces.flatten, v') := by
  induction whole generalizing v with
  | nil =>
    refine ⟨_, _, serve_fill (fill_eq next hc format last v), ?_⟩
    rw [List.sum_nil, Nat.mul_zero, Nat.zero_add, fill_eq next hc, List.flatten_singleton]
  | cons n whole ih =>
    obtain ⟨samples, rest, hfirst⟩ : ∃ samples rest,
        v.fill next format channels (channels*n) = .ok (samples, rest) :=
      ⟨_, _, fill_eq next hc format _ v⟩
    obtain ⟨pieces, v', hserve, hfill⟩ := ih rest
    refine ⟨samples :: pieces, v', ?_, ?_⟩
    · rw [List.map_cons, List.cons_append, serve_fill hfirst, hserve]
      rfl
    · rw [List.sum_cons, Nat.mul_add, Nat.add_assoc, fill_add next hc, hfirst]
      change rest.fill next format channels _ >>= _ = _
      rw [hfill]
      rfl

/-- Beeps that follow a beep with no frame in between change nothing. -/
lemma serve_beeps (hc : 0 < channels) {between : List Call}
    (h : ∀ c ∈ between, c = .beep ∨ c = .fill 0) :
    serve next format channels tone (older ++ .beep :: (between ++ newer)) v =
      serve next format channels tone
        (older ++ .beep :: (between.filter Call.isFill ++ newer)) v := by
  obtain ⟨⟨first, w⟩, hfirst⟩ := exists_serve hc older v
  obtain ⟨⟨later, w'⟩, hlater⟩ := exists_serve hc (.beep :: (between ++ newer)) w
  have hquiet : serve next format channels tone (.beep :: (between ++ newer)) w =
      serve next format channels tone (.beep :: (between.filter Call.isFill ++ newer)) w :=
    serve_quiet hc h (le_max_right ..)
  rw [serve_append hfirst hlater, serve_append hfirst (hquiet.symm.trans hlater)]

/-- What was written and the voice after it, whatever the buffers. -/
def joined (r : List (List Sample) × Voice σ) : List Sample × Voice σ := (r.1.flatten, r.2)

lemma joined_serve_cut (hc : 0 < channels) (whole : List Nat) (last : Nat) :
    (serve next format channels tone
      (older ++ .fill (channels*whole.sum+last) :: newer) v).map joined =
    (serve next format channels tone
      (older ++ (whole.map (fun n => .fill (channels*n)) ++ .fill last :: newer)) v).map
        joined := by
  obtain ⟨⟨first, w⟩, hfirst⟩ := exists_serve hc older v
  obtain ⟨pieces, w', hpieces, hfill⟩ := serve_cut hc whole last w
  obtain ⟨⟨later, w''⟩, hlater⟩ := exists_serve hc newer w'
  have huncut : serve next format channels tone
      (.fill (channels*whole.sum+last) :: newer) w = .ok (pieces.flatten :: later, w'') := by
    rw [serve_fill hfill, hlater]
    rfl
  have hcut := serve_append hpieces hlater
  rw [List.append_assoc, List.singleton_append] at hcut
  rw [serve_append hfirst huncut, serve_append hfirst hcut]
  simp only [Except.map, joined, List.flatten_append, List.flatten_cons]

end Run

/-! ### The voice of a past -/

section Standing

variable (next : σ → Single × σ) (format : SampleFormat) (channels tone : Nat)

/-- The voice with a given past. -/
def standing (past : List Mark) (source : σ) : Voice σ :=
  ⟨Mark.owed tone past, drawn next (Mark.heard tone past) source⟩

/-- The loudness of the frame with a given past. -/
def loudness (past : List Mark) (source : σ) : Single :=
  if Mark.Audible tone past then value next (Mark.heard tone past) source else .zero

/-- The buffer of `size` samples with a given past. -/
def buffer (size : Nat) (past : List Mark) (source : σ) : List Sample :=
  (List.range size).map fun k =>
    .ofSingle (loudness next tone (past ++ List.replicate (k/channels) .frame) source) format

lemma request_standing (past : List Mark) (source : σ) :
    (standing next tone past source).request tone =
      standing next tone (past ++ [.beep]) source := by
  have howed := Mark.owed_le tone past
  have hheard : Mark.heard tone (past ++ [.beep]) = Mark.heard tone past := by
    rw [Mark.heard_concat, if_neg (by simp), Nat.add_zero]
  simp only [request, standing, Mark.owed_beep, hheard, max_eq_right howed]

lemma fill_standing (hc : 0 < channels) (size : Nat) (past : List Mark) (source : σ) :
    (standing next tone past source).fill next format channels size =
      .ok (buffer next format channels tone size past source,
        standing next tone (past ++ (Call.fill size).marks channels) source) := by
  have hframe : ∀ i, (standing next tone past source).frame next i =
      loudness next tone (past ++ List.replicate i .frame) source := by
    intro i
    by_cases hi : i < Mark.owed tone past
    · rw [frame, if_pos (show i < (standing next tone past source).remaining from hi), loudness,
        if_pos ((Mark.audible_frames_iff i).mpr hi), Mark.heard_frames, min_eq_left hi.le,
        value_add]
      rfl
    · rw [frame, if_neg (show ¬ i < (standing next tone past source).remaining from hi), loudness,
        if_neg (mt (Mark.audible_frames_iff i).mp hi)]
  have hplayed : ∀ n, (standing next tone past source).played next n =
      standing next tone (past ++ List.replicate n .frame) source := by
    intro n
    simp only [played, standing, Mark.owed_frames, Mark.heard_frames, drawn_add]
  rw [fill_eq next hc, hplayed]
  simp only [hframe]
  rfl

/-- A voice that stands where its past puts it goes on doing so. -/
lemma serve_standing (hc : 0 < channels) (calls : List Call) (past : List Mark) (source : σ) :
    ∃ buffers, serve next format channels tone calls (standing next tone past source) =
        .ok (buffers, standing next tone (past ++ Call.past channels calls) source) ∧
      buffers.length = calls.countP Call.isFill := by
  -- the past grows by the marks of one call after the other
  induction calls generalizing past with
  | nil => exact ⟨[], by rw [Call.past, List.flatMap_nil, List.append_nil]; rfl, rfl⟩
  | cons c calls ih =>
    obtain ⟨buffers, hserve, hlength⟩ := ih (past ++ c.marks channels)
    have hpast : Call.past channels (c :: calls) = c.marks channels ++ Call.past channels calls :=
      List.flatMap_cons
    rw [List.append_assoc, ← hpast] at hserve
    cases c with
    | beep =>
      refine ⟨buffers, ?_, hlength⟩
      rw [serve, request_standing]
      exact hserve
    | fill size =>
      refine ⟨buffer next format channels tone size past source :: buffers, ?_, ?_⟩
      · rw [serve_fill (fill_standing next format channels tone hc size past source), hserve]
        rfl
      · rw [List.countP_cons_of_pos rfl, List.length_cons, hlength]

/-- Where the buffer of a call is found, and what it holds. -/
lemma serve_split (hc : 0 < channels) (older newer : List Call) (size : Nat) (source : σ) :
    ∃ first later v, serve next format channels tone (older ++ .fill size :: newer)
        (standing next tone [] source) =
          .ok (first ++ buffer next format channels tone size (Call.past channels older) source ::
            later, v) ∧
      first.length = older.countP Call.isFill := by
  let past := Call.past channels older
  obtain ⟨first, hfirst, hlength⟩ := serve_standing next format channels tone hc older [] source
  obtain ⟨later, hlater, -⟩ := serve_standing next format channels tone hc newer
    (past ++ (Call.fill size).marks channels) source
  have hrest : serve next format channels tone (.fill size :: newer)
      (standing next tone past source) = _ :=
    serve_fill (fill_standing next format channels tone hc size past source)
  rw [hlater] at hrest
  exact ⟨first, later, _, serve_append hfirst hrest, hlength⟩

end Standing

/-- What can be heard of a voice. From silence on, a frame can be heard exactly if there was a beep
and fewer frames than a tone has have been written since the latest one; the frames that can be
heard carry the values of the source one after the other, on every channel, and the others are
silent; the source has been asked for nothing else, and no more is owed than a tone. So of beeps
with no frame in between all but the first might be left out, and a buffer might be cut into several
between frames. -/
theorem sounds_since_beep {channels : Nat} (hc : 0 < channels) (next : σ → Single × σ)
    (format : SampleFormat) (tone : Nat) (source : σ) (calls : List Call) :
    (∃ buffers v, serve next format channels tone calls ⟨0, source⟩ = .ok (buffers, v) ∧
      v.remaining ≤ tone ∧
      v.source = drawn next (Mark.heard tone (Call.past channels calls)) source ∧
      buffers.length = calls.countP Call.isFill ∧
      ∀ older size newer, calls = older ++ .fill size :: newer →
        buffers[older.countP Call.isFill]? = some ((List.range size).map fun k =>
          let past := Call.past channels older ++ List.replicate (k/channels) .frame
          Sample.ofSingle
            (if Mark.Audible tone past then value next (Mark.heard tone past) source else .zero)
            format)) ∧
    (∀ v older between newer, (∀ c ∈ between, c = .beep ∨ c = .fill 0) →
      serve next format channels tone (older ++ .beep :: (between ++ newer)) v =
        serve next format channels tone
          (older ++ .beep :: (between.filter Call.isFill ++ newer)) v) ∧
    ∀ v older (whole : List Nat) last newer,
      (serve next format channels tone
        (older ++ .fill (channels*whole.sum+last) :: newer) v).map joined =
      (serve next format channels tone
        (older ++ (whole.map (fun n => .fill (channels*n)) ++ .fill last :: newer)) v).map
          joined := by
  refine ⟨?_, fun v older between newer h => serve_beeps hc h, fun v older whole last newer =>
    joined_serve_cut hc whole last⟩
  have hnew : standing next tone [] source = ⟨0, source⟩ := rfl
  rw [← hnew]
  obtain ⟨buffers, hserve, hlength⟩ := serve_standing next format channels tone hc calls [] source
  refine ⟨buffers, _, hserve, Mark.owed_le tone _, rfl, hlength, ?_⟩
  rintro older size newer rfl
  obtain ⟨first, later, v, hsplit, hcount⟩ :=
    serve_split next format channels tone hc older newer size source
  rw [hsplit] at hserve
  obtain ⟨rfl, -⟩ := Prod.ext_iff.mp (Except.ok.inj hserve)
  rw [← hcount, List.getElem?_append_right le_rfl, Nat.sub_self]
  rfl

/-- A tone of two frames on two channels: one frame of silence, a tone whose last frame is cut
short, and then two beeps that make one tone. -/
theorem sounds_since_beep_cut_short :
    let next : UInt32 → Single × UInt32 := fun n => (⟨n⟩, n+1)
    let calls : List Call := [.fill 2, .beep, .fill 3, .beep, .beep, .fill 5]
    0 < 2 ∧ ∃ buffers v, serve next .f32 2 2 calls ⟨0, 1⟩ = .ok (buffers, v) ∧
      v.remaining ≤ 2 ∧ v.source = 5 ∧
      buffers[0]? = some [.single 0, .single 0] ∧
      buffers[1]? = some [.single 1, .single 1, .single 2] ∧
      buffers[2]? = some [.single 3, .single 3, .single 4, .single 4, .single 0] ∧
      serve next .f32 2 2 calls ⟨0, 1⟩ =
        serve next .f32 2 2 [.fill 2, .beep, .fill 3, .beep, .fill 5] ⟨0, 1⟩ := by
  intro next calls
  obtain ⟨⟨buffers, v, hserve, hremaining, hsource, -, hbuffers⟩, hbeeps, -⟩ :=
    sounds_since_beep (by decide : 0 < 2) next .f32 2 1 calls
  refine ⟨by decide, buffers, v, hserve, hremaining, hsource.trans (by decide), ?_, ?_, ?_, ?_⟩
  · exact (hbuffers [] 2 _ rfl).trans (by decide)
  · exact (hbuffers [.fill 2, .beep] 3 _ rfl).trans (by decide)
  · exact (hbuffers [.fill 2, .beep, .fill 3, .beep, .beep] 5 _ rfl).trans (by decide)
  · exact hbeeps ⟨0, 1⟩ [.fill 2, .beep, .fill 3] [.beep] [.fill 5] (by decide)

end Voice
end Chip8
