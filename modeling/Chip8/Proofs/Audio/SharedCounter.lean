import Chip8.Proofs.Audio.Voice

/-! A voice whose counter is shared. The machine raises the counter for a beep, at any moment.
Whoever fills a buffer reads it, sounds frames while there are fewer than was read, and takes their
number away in the end. One buffer is filled at a time, but reading and taking away are two steps,
and beeps may come in between. They only raise the counter, so that what was read is still there
when it is taken away: the counter never wraps, and no more is sounded than was asked for. -/
namespace Chip8

/-- A buffer that is being filled: what the counter was at the start, and the frames sounded
since. -/
structure Filling where
  left : UInt32
  played : UInt32
  deriving DecidableEq, Repr

structure SharedVoice (σ : Type) where
  counter : UInt32
  source : σ
  filling : Option Filling

namespace SharedVoice

/-- What happens with nothing in between. -/
inductive Event
  | beep
  /-- A buffer is begun, and the counter read. -/
  | start
  /-- A frame is written, `none` for a silent one. -/
  | frame (loudness : Option Single)
  /-- The buffer is full, and what was sounded is taken away from the counter. -/
  | settle (played : UInt32)
  deriving DecidableEq

variable {σ : Type}

/-- The steps of a shared voice, a beep being a tone of `tone` frames. The size of a buffer is left
open: any number of frames may be written before it is full. -/
inductive Step (next : σ → Single × σ) (tone : UInt32) :
    SharedVoice σ → Event → SharedVoice σ → Prop
  | beep (s : SharedVoice σ) : Step next tone s .beep { s with counter := max s.counter tone }
  | start {s : SharedVoice σ} (h : s.filling = none) :
      Step next tone s .start { s with filling := some ⟨s.counter,0⟩ }
  | sound {s : SharedVoice σ} {f : Filling} (h : s.filling = some f) (hlt : f.played < f.left) :
      Step next tone s (.frame (some (next s.source).1))
        { s with source := (next s.source).2, filling := some { f with played := f.played+1 } }
  | rest {s : SharedVoice σ} {f : Filling} (h : s.filling = some f) (hge : ¬ f.played < f.left) :
      Step next tone s (.frame none) s
  | settle {s : SharedVoice σ} {f : Filling} (h : s.filling = some f) :
      Step next tone s (.settle f.played)
        { s with counter := s.counter-f.played, filling := none }

/-- What can happen from one state on, and where it leads. -/
inductive Run (next : σ → Single × σ) (tone : UInt32) (first : SharedVoice σ) :
    List Event → SharedVoice σ → Prop
  | nil : Run next tone first [] first
  | concat {past : List Event} {e : Event} {s s' : SharedVoice σ}
      (h : Run next tone first past s) (hstep : Step next tone s e s') :
      Run next tone first (past ++ [e]) s'

/-- Silent, and no buffer begun. -/
def silent (source : σ) : SharedVoice σ := ⟨0,source,none⟩

def Event.settled : Event → Nat
  | settle played => played.toNat
  | _ => 0

/-- All that was taken away. -/
def settled (past : List Event) : Nat := (past.map Event.settled).sum

variable {next : σ → Single × σ} {tone : UInt32} {past : List Event} {e : Event}
  {s s' first : SharedVoice σ}

lemma settled_concat (past : List Event) (e : Event) :
    settled (past ++ [e]) = settled past+e.settled := by
  rw [settled, List.map_append, List.sum_append, List.map_singleton, List.sum_singleton]
  rfl

/-- How the counter stands to a tone and to the buffer that is being filled: no more is owed than a
tone, and no more has been sounded than was read, all of which is still owed. -/
structure Level (tone : UInt32) (s : SharedVoice σ) : Prop where
  counter_le : s.counter.toNat ≤ tone.toNat
  played_le : ∀ f ∈ s.filling, f.played.toNat ≤ f.left.toNat
  left_le : ∀ f ∈ s.filling, f.left.toNat ≤ s.counter.toNat

lemma level_silent (tone : UInt32) (source : σ) : Level tone (silent source) :=
  ⟨Nat.zero_le _, nofun, nofun⟩

namespace Level

/-- What was sounded is there when it is taken away. -/
lemma played_le_counter (h : Level tone s) {f : Filling} (hf : s.filling = some f) :
    f.played ≤ s.counter :=
  UInt32.le_iff_toNat_le.mpr (Nat.le_trans (h.played_le f hf) (h.left_le f hf))

lemma toNat_counter_sub (h : Level tone s) {f : Filling} (hf : s.filling = some f) :
    (s.counter-f.played).toNat = s.counter.toNat-f.played.toNat :=
  UInt32.toNat_sub_of_le _ _ (h.played_le_counter hf)

lemma step (h : Level tone s) (hstep : Step next tone s e s') : Level tone s' := by
  have hcounter := h.counter_le
  cases hstep with
  | beep =>
    have hmax : (max s.counter tone).toNat = max s.counter.toNat tone.toNat :=
      UInt32.toNat_max ..
    -- only the counter is raised, so what was read is owed as before
    refine ⟨?_, h.played_le, fun f hf => ?_⟩
    · rw [hmax]
      omega
    · have hleft := h.left_le f hf
      rw [hmax]
      omega
  | start hnone =>
    refine ⟨hcounter, ?_, ?_⟩
    · rintro f ⟨⟩
      exact Nat.zero_le _
    · rintro f ⟨⟩
      exact Nat.le_refl _
  | @sound f hf hlt =>
    have hlt := UInt32.lt_iff_toNat_lt.mp hlt
    have hsucc : (f.played+1).toNat = f.played.toNat+1 := by
      have hbound := f.left.toNat_lt
      have hone : (1 : UInt32).toNat = 1 := rfl
      rw [UInt32.toNat_add, hone, Nat.mod_eq_of_lt (by omega)]
    refine ⟨hcounter, ?_, ?_⟩
    · rintro g ⟨⟩
      rw [hsucc]
      exact hlt
    · rintro g ⟨⟩
      exact h.left_le f hf
  | rest => exact h
  | settle hf =>
    refine ⟨?_, nofun, nofun⟩
    rw [h.toNat_counter_sub hf]
    omega

/-- What a step takes away was owed before, and only a beep adds to what is owed. -/
lemma settled_add_counter_le (h : Level tone s) (hstep : Step next tone s e s') :
    e.settled+s'.counter.toNat ≤ s.counter.toNat+if e = .beep then tone.toNat else 0 := by
  cases hstep with
  | beep =>
    have hmax : (max s.counter tone).toNat = max s.counter.toNat tone.toNat :=
      UInt32.toNat_max ..
    simp only [Event.settled, hmax, if_true]
    omega
  | start | sound | rest =>
    simp only [Event.settled, reduceCtorEq, if_false]
    omega
  | settle hf =>
    have hle := UInt32.le_iff_toNat_le.mp (h.played_le_counter hf)
    simp only [Event.settled, h.toNat_counter_sub hf, reduceCtorEq, if_false]
    omega

end Level

namespace Run

lemma level (h : Run next tone first past s) (hfirst : Level tone first) : Level tone s := by
  induction h with
  | nil => exact hfirst
  | concat _ hstep ih => exact ih.step hstep

/-- All that was taken away, and what is still owed, was owed at first or asked for by a beep. -/
lemma settled_add_counter_le (h : Run next tone first past s) (hfirst : Level tone first) :
    settled past+s.counter.toNat ≤ first.counter.toNat+tone.toNat*past.count .beep := by
  induction h with
  | nil => exact Nat.le_of_eq (Nat.add_comm ..)
  | @concat past e s s' h hstep ih =>
    have hbalance := (h.level hfirst).settled_add_counter_le hstep
    have hcount : tone.toNat*(past ++ [e]).count .beep =
        tone.toNat*past.count .beep+if e = .beep then tone.toNat else 0 := by
      rw [List.count_append, List.count_singleton, Nat.mul_add]
      simp only [beq_iff_eq]
      split <;> omega
    rw [settled_concat, hcount]
    omega

end Run

/-! ### Without beeps in between -/

/-- The voice as it is while no buffer is being filled. -/
def toVoice (s : SharedVoice σ) : Voice σ := ⟨s.counter.toNat,s.source⟩

/-- A beep is a request for a tone. -/
lemma toVoice_of_beep (h : Step next tone s .beep s') :
    s'.toVoice = s.toVoice.request tone.toNat := by
  cases h
  simp only [toVoice, Voice.request, UInt32.toNat_max]

/-- A buffer begun in the state `s`, with `n` frames written and no beep since. -/
def begun (next : σ → Single × σ) (s : SharedVoice σ) (n : Nat) : SharedVoice σ :=
  ⟨s.counter,Voice.drawn next (min n s.counter.toNat) s.source,
    some ⟨s.counter,.ofNat (min n s.counter.toNat)⟩⟩

lemma begun_of_le {n : Nat} (h : n ≤ s.counter.toNat) :
    begun next s n = ⟨s.counter,Voice.drawn next n s.source,some ⟨s.counter,.ofNat n⟩⟩ := by
  rw [begun, Nat.min_eq_left h]

lemma begun_of_ge {n : Nat} (h : s.counter.toNat ≤ n) :
    begun next s n =
      ⟨s.counter,Voice.drawn next s.counter.toNat s.source,some ⟨s.counter,s.counter⟩⟩ := by
  rw [begun, Nat.min_eq_right h, UInt32.ofNat_toNat]

lemma step_begun (s : SharedVoice σ) (n : Nat) :
    Step next tone (begun next s n)
      (.frame (if n < s.counter.toNat then some (Voice.value next n s.source) else none))
      (begun next s (n+1)) := by
  split
  case isTrue h =>
    have hlt : UInt32.ofNat n < s.counter := by
      rwa [UInt32.lt_iff_toNat_lt,
        UInt32.toNat_ofNat_of_lt' (Nat.lt_trans h s.counter.toNat_lt_size)]
    have hsucc : UInt32.ofNat (n+1) = UInt32.ofNat n+1 := UInt32.ofNat_add n 1
    rw [begun_of_le (Nat.le_of_lt h), begun_of_le h, Voice.drawn_succ, hsucc]
    exact .sound (f := ⟨s.counter,.ofNat n⟩) rfl hlt
  case isFalse h =>
    have hge := Nat.le_of_not_lt h
    rw [begun_of_ge hge, begun_of_ge (Nat.le_succ_of_le hge)]
    exact .rest rfl (UInt32.lt_irrefl _)

lemma run_begun (h : s.filling = none) (n : Nat) :
    Run next tone s (.start :: (s.toVoice.play next n).1.map .frame) (begun next s n) := by
  rw [Voice.play_eq]
  induction n with
  | zero =>
    have hbegun : begun next s 0 = { s with filling := some ⟨s.counter,0⟩ } := by
      rw [begun, Nat.zero_min]
      rfl
    rw [hbegun]
    exact .concat .nil (.start h)
  | succ n ih =>
    rw [List.range_succ, List.map_append, List.map_append]
    exact ih.concat (step_begun s n)

/-- What was sounded of `n` frames is taken away. -/
def filled (next : σ → Single × σ) (s : SharedVoice σ) (n : Nat) : SharedVoice σ :=
  ⟨s.counter-.ofNat (min n s.counter.toNat),Voice.drawn next (min n s.counter.toNat) s.source,none⟩

lemma run_filled (h : s.filling = none) (n : Nat) :
    Run next tone s (.start :: (s.toVoice.play next n).1.map .frame ++
      [.settle (.ofNat (min n s.counter.toNat))]) (filled next s n) :=
  (run_begun h n).concat (.settle (f := ⟨s.counter,_⟩) rfl)

lemma toVoice_filled (s : SharedVoice σ) (n : Nat) :
    (filled next s n).toVoice = (s.toVoice.play next n).2 := by
  have hmin : min n s.counter.toNat ≤ s.counter.toNat := Nat.min_le_right ..
  have hplayed : (UInt32.ofNat (min n s.counter.toNat)).toNat = min n s.counter.toNat :=
    UInt32.toNat_ofNat_of_lt' (Nat.lt_of_le_of_lt hmin s.counter.toNat_lt_size)
  have hcounter : (filled next s n).counter.toNat = s.counter.toNat-n := by
    rw [filled, UInt32.toNat_sub_of_le _ _ (UInt32.le_iff_toNat_le.mpr (by rwa [hplayed])), hplayed]
    omega
  rw [toVoice, hcounter, Voice.play_eq]
  rfl

/-- A buffer with no beep in between is filled as it is by a voice that is not shared. -/
theorem run_fill {channels : Nat} (hc : 0 < channels) (format : SampleFormat) (size : Nat)
    (h : s.filling = none) :
    ∃ (frames : List (Option Single)) (played : UInt32) (s' : SharedVoice σ),
      Run next tone s (.start :: frames.map .frame ++ [.settle played]) s' ∧ s'.filling = none ∧
      frames.length = Voice.frameCount channels size ∧
      s.toVoice.fill next format channels size =
        .ok ((frames.flatMap fun frame =>
          List.replicate channels (Sample.ofSingle (frame.getD .zero) format)).take size,
          s'.toVoice) := by
  let n := Voice.frameCount channels size
  refine ⟨(s.toVoice.play next n).1, _, filled next s n, run_filled h n, rfl, ?_, ?_⟩
  · rw [Voice.play_eq, List.length_map, List.length_range]
  · rw [toVoice_filled, Voice.fill, if_neg hc.ne']
    rfl

/-- The counter of a shared voice never wraps, however beeps come in between of the reading and the
taking away. Whatever happened since silence, no more is owed than a tone; what was taken away in
all, together with what is owed, is no more than a tone for every beep; and what a buffer takes away
is there to be taken. The steps are those of a voice that is not shared: a beep is a request for a
tone, and a buffer with no beep in between is filled by sounding what is owed. -/
theorem shared_counter_never_wraps {channels : Nat} (hc : 0 < channels) (next : σ → Single × σ)
    (format : SampleFormat) (tone : UInt32) (source : σ) :
    (∀ past s, Run next tone (silent source) past s →
      s.counter ≤ tone ∧ settled past+s.counter.toNat ≤ tone.toNat*past.count .beep ∧
      ∀ played s', Step next tone s (.settle played) s' →
        played ≤ s.counter ∧ s'.counter.toNat+played.toNat = s.counter.toNat) ∧
    (∀ s : SharedVoice σ, ∃ s', Step next tone s .beep s' ∧ s'.filling = s.filling ∧
      s'.toVoice = s.toVoice.request tone.toNat) ∧
    ∀ (s : SharedVoice σ) (size : Nat), s.filling = none →
      ∃ (frames : List (Option Single)) (played : UInt32) (s' : SharedVoice σ),
        Run next tone s (.start :: frames.map .frame ++ [.settle played]) s' ∧ s'.filling = none ∧
        frames.length = Voice.frameCount channels size ∧
        s.toVoice.fill next format channels size =
          .ok ((frames.flatMap fun frame =>
            List.replicate channels (Sample.ofSingle (frame.getD .zero) format)).take size,
            s'.toVoice) := by
  refine ⟨fun past s h => ?_, fun s => ?_, fun s size h => run_fill hc format size h⟩
  · have hlevel := h.level (level_silent tone source)
    have htotal := h.settled_add_counter_le (level_silent tone source)
    have hfirst : (silent source).counter.toNat = 0 := rfl
    rw [hfirst, Nat.zero_add] at htotal
    refine ⟨UInt32.le_iff_toNat_le.mpr hlevel.counter_le, htotal, fun played s' hsettle => ?_⟩
    cases hsettle with
    | settle hf =>
      have hle := hlevel.played_le_counter hf
      refine ⟨hle, ?_⟩
      dsimp only
      rw [hlevel.toNat_counter_sub hf, Nat.sub_add_cancel (UInt32.le_iff_toNat_le.mp hle)]
  · have hbeep : Step next tone s .beep { s with counter := max s.counter tone } := .beep s
    exact ⟨_, hbeep, rfl, toVoice_of_beep hbeep⟩

/-- A tone of two frames. A beep comes after the counter was read as one and before the one is taken
away. -/
theorem shared_counter_never_wraps_beep_in_between :
    let next : UInt32 → Single × UInt32 := fun n => (⟨n⟩,n+1)
    let past : List Event :=
      [.beep,.start,.frame (some ⟨1⟩),.settle 1,.start,.frame (some ⟨2⟩),.beep]
    let s : SharedVoice UInt32 := ⟨2,3,some ⟨1,1⟩⟩
    0 < 2 ∧ Run next 2 (silent 1) past s ∧ Step next 2 s (.settle 1) ⟨1,3,none⟩ ∧ s.counter ≤ 2 ∧
      1+s.counter.toNat ≤ 2*2 ∧ 1 ≤ s.counter := by
  intro next past s
  have hread : Run next 2 (silent 1) [.beep,.start] ⟨2,1,some ⟨2,0⟩⟩ :=
    (Run.nil.concat (.beep _)).concat (.start rfl)
  have hsounded : Run next 2 (silent 1) [.beep,.start,.frame (some ⟨1⟩)] ⟨2,2,some ⟨2,1⟩⟩ :=
    hread.concat (.sound (f := ⟨2,0⟩) rfl (by decide))
  have hagain : Run next 2 (silent 1) [.beep,.start,.frame (some ⟨1⟩),.settle 1,.start]
      ⟨1,2,some ⟨1,0⟩⟩ :=
    (hsounded.concat (.settle rfl)).concat (.start rfl)
  have hrun : Run next 2 (silent 1) past s :=
    (hagain.concat (.sound (f := ⟨1,0⟩) rfl (by decide))).concat (.beep _)
  have hsettle : Step next 2 ⟨2,3,some ⟨1,1⟩⟩ (.settle 1) ⟨1,3,none⟩ := .settle (f := ⟨1,1⟩) rfl
  have h : 0 < 2 := by decide
  obtain ⟨hle, htotal, hsettled⟩ := (shared_counter_never_wraps h next .f32 2 1).1 past s hrun
  exact ⟨h, hrun, hsettle, hle, htotal, (hsettled 1 _ hsettle).1⟩

end SharedVoice
end Chip8
