import Chip8.Host.CommandLine
import Mathlib.Data.List.Perm.Basic
import Mathlib.Tactic.Lemma
import Mathlib.Tactic.MkIffOfInductiveProp

/-! What a command line asks for. A line is first taken apart into what it says, an option with its
value, the flag or a path at a time; what is said then decides the settings, in whatever order it is
said. The reader does both in one go and checks a value late, but it accepts the same lines and
makes the same settings of them. -/
namespace Chip8.CommandLine

/-! ### Steps that may fail -/

section Except

variable {ε α β : Type}

@[simp] lemma bind_eq_ok_iff {x : Except ε α} {f : α → Except ε β} {b : β} :
    (x >>= f) = .ok b ↔ ∃ a, x = .ok a ∧ f a = .ok b := by
  cases x <;> simp [bind, Except.bind]

@[simp] lemma pure_eq_ok_iff {a b : α} : (pure a : Except ε α) = .ok b ↔ a = b := by
  simp [pure, Except.pure]

end Except

/-! ### Shapes -/

namespace Shape

variable {argument text : String}

lemma eq_of_plain (h : Shape.of argument = .plain text) : text = argument := by
  unfold Shape.of at h
  split at h <;> simp_all

lemma of_ne_short_nil : Shape.of argument ≠ .short [] := by
  unfold Shape.of
  split <;> simp_all

end Shape

/-! ### What a line says -/

/-- One thing said on a command line. -/
inductive Item
  | option (name : ValueOption) (value : String)
  | debug
  | rom (path : String)
  deriving DecidableEq

/-- The arguments that say one thing. -/
inductive Phrase : List String → Item → Prop
  | attached {argument text value : String} {name : ValueOption}
      (h : Shape.of argument = .long text (some value)) (hname : valueOption? text = some name) :
      Phrase [argument] (.option name value)
  | separate {argument text value : String} {name : ValueOption}
      (h : Shape.of argument = .long text none) (hname : valueOption? text = some name)
      (hvalue : Shape.of value = .plain value) : Phrase [argument, value] (.option name value)
  | debug {argument : String} (h : Shape.of argument = .long "debug" none) :
      Phrase [argument] .debug
  | path {argument : String} (h : Shape.of argument = .plain argument) :
      Phrase [argument] (.rom argument)

/-- What the arguments of a line say, in order. Behind `--` every argument is a path. -/
inductive Says : List String → List Item → Prop
  | nothing : Says [] []
  | phrase {words rest : List String} {item : Item} {items : List Item} (h : Phrase words item)
      (hrest : Says rest items) : Says (words ++ rest) (item :: items)
  | ended {argument : String} (h : Shape.of argument = .ending) (paths : List String) :
      Says (argument :: paths) (paths.map .rom)

/-- The values given for an option. -/
def values (name : ValueOption) (items : List Item) : List String :=
  items.filterMap fun
    | .option other value => if other = name then some value else none
    | .debug | .rom _ => none

/-- The paths given. -/
def paths (items : List Item) : List String :=
  items.filterMap fun
    | .rom path => some path
    | .option _ _ | .debug => none

section Values

variable {name : ValueOption} {value path : String} {items : List Item}

@[simp] lemma values_nil : values name [] = [] := rfl

@[simp] lemma values_option {other : ValueOption} :
    values name (.option other value :: items) =
      if other = name then value :: values name items else values name items := by
  simp only [values, List.filterMap_cons]
  split <;> split <;> simp_all

@[simp] lemma values_debug : values name (.debug :: items) = values name items := rfl

@[simp] lemma values_rom : values name (.rom path :: items) = values name items := rfl

@[simp] lemma paths_nil : paths [] = [] := rfl

@[simp] lemma paths_option : paths (.option name value :: items) = paths items := rfl

@[simp] lemma paths_debug : paths (.debug :: items) = paths items := rfl

@[simp] lemma paths_rom : paths (.rom path :: items) = path :: paths items := rfl

end Values

/-- What comes of something that is given once or not at all. -/
inductive Given {α : Type} (read : String → Option α) : List String → Option α → Prop
  | absent : Given read [] none
  | once {text : String} {value : α} (h : read text = some value) : Given read [text] (some value)

/-- The settings that are asked for: one path, which is not empty, and every option given once with
a number that can be read, or else its default. -/
structure Asks (items : List Item) (s : Settings) : Prop where
  rom : paths items = [s.rom]
  rom_ne : s.rom ≠ ""
  ips : ∃ rate, Given long? (values .ips items) rate ∧ s.ips = rate.getD 1000
  scale : ∃ factor, Given long? (values .scale items) factor ∧ s.scale = factor.getD 16
  seed : Given huge? (values .seed items) s.seed
  debug : items.count .debug = s.debug.toNat

/-! ### Adding one thing after another -/

/-- Adds one thing said. -/
def Draft.put (d : Draft) : Item → Except Usage Draft
  | .option name value => d.accept name value
  | .debug => if d.debug then .error .repeatedOption else .ok { d with debug := true }
  | .rom path =>
    if d.rom.isSome then .error .unknownArgument
    else if path.isEmpty then .error .missingValue
    else .ok { d with rom := some path }

lemma Draft.accept_eq_ok_iff {d d' : Draft} {name : ValueOption} {value : String} :
    d.accept name value = .ok d' ↔ d.has name = false ∧ d.set? value name = some d' := by
  unfold Draft.accept
  cases d.has name <;> cases d.set? value name <;> simp

lemma Draft.rom_of_accept {d d' : Draft} {name : ValueOption} {value : String}
    (h : d.accept name value = .ok d') : d'.rom = d.rom := by
  have hset := (Draft.accept_eq_ok_iff.1 h).2
  cases name <;> simp only [Draft.set?, Option.map_eq_some_iff] at hset <;>
    obtain ⟨_, _, rfl⟩ := hset <;> rfl

/-! ### Reading -/

namespace Reader

/-- A reader that has checked all it has read. -/
def settled (d : Draft) (ended : Bool) : Reader := ⟨d, .nothing, d.rom.isSome, ended⟩

/-- What a reader makes of the rest of a line. -/
def readOn (r : Reader) (arguments : List String) : Except Usage Settings := do
  (← arguments.foldlM Reader.read r).finish

variable {r r' : Reader} {d d' : Draft} {s : Settings} {argument text : String}
  {rest : List String} {ended : Bool}

lemma readOn_cons : r.readOn (argument :: rest) = r.read argument >>= (·.readOn rest) := by
  simp only [readOn, List.foldlM_cons]
  cases r.read argument <;> rfl

lemma readOn_of_read (h : r.read argument = .ok r') :
    r.readOn (argument :: rest) = r'.readOn rest := by
  rw [readOn_cons, h]
  rfl

/-- Whatever begins with checking what is pending goes on with nothing pending. -/
lemma settle_bind_eq_ok_iff {α : Type} {f : Reader → Except Usage α} {a : α} :
    (r.settle >>= f) = .ok a ↔ ∃ d, r.draft.settle r.pending = .ok d ∧
      f ⟨d, .nothing, r.romRead, r.ended⟩ = .ok a := by
  rw [settle]
  cases r.draft.settle r.pending <;> simp [bind, Except.bind, pure, Except.pure]

lemma readOn_nil_eq_ok_iff :
    r.readOn [] = .ok s ↔ ∃ d, r.draft.settle r.pending = .ok d ∧ d.settings? = some s := by
  have hsome (found : Option Settings) :
      found.elim (.error .missingRom) .ok = (.ok s : Except Usage Settings) ↔ found = some s := by
    cases found <;> simp
  simp only [readOn, List.foldlM_nil, pure_bind, finish, settle_bind_eq_ok_iff, hsome]

lemma path_eq_ok_iff :
    r.path text = .ok r' ↔ r.romRead = false ∧ ∃ d, r.draft.settle r.pending = .ok d ∧
      ⟨d, .rom text, true, r.ended⟩ = r' := by
  cases hread : r.romRead with
  | true => simp [path, hread]
  | false =>
    simp only [path, hread, Bool.false_eq_true, if_false, settle_bind_eq_ok_iff, pure_eq_ok_iff,
      true_and]

lemma flag_eq_ok_iff {f : Flag} :
    r.flag f = .ok r' ↔ f = .debug ∧ ∃ d, r.draft.settle r.pending = .ok d ∧ d.debug = false ∧
      ⟨{ d with debug := true }, .nothing, r.romRead, r.ended⟩ = r' := by
  have hunset (d : Draft) : (if d.debug then .error .repeatedOption
        else .ok ⟨{ d with debug := true }, .nothing, r.romRead, r.ended⟩) =
          (.ok r' : Except Usage Reader) ↔
      d.debug = false ∧ ⟨{ d with debug := true }, .nothing, r.romRead, r.ended⟩ = r' := by
    cases d.debug <;> simp
  cases f with
  | help => simp [flag]
  | version => simp [flag]
  | debug => simp only [flag, settle_bind_eq_ok_iff, hunset, true_and]

/-- No flag of one letter yields settings. -/
lemma shortFlags_eq_ok_iff {letters : List Char} :
    r.shortFlags letters = .ok r' ↔ letters = [] ∧ r' = r := by
  cases letters with
  | nil => simp [shortFlags, eq_comm]
  | cons c cs =>
    have hnot : shortFlag? c ≠ some .debug := by
      unfold shortFlag?
      split <;> simp
    cases hc : shortFlag? c with
    | none => simp [shortFlags, hc]
    | some f =>
      simp only [shortFlags, hc, bind_eq_ok_iff, flag_eq_ok_iff]
      simp_all

/-- A long argument with a value attached is an option. -/
lemma long_some_eq_ok_iff {value : String} :
    r.long text (some value) = .ok r' ↔ ∃ name, valueOption? text = some name ∧
      ∃ d, r.draft.settle r.pending = .ok d ∧ ∃ d', d.accept name value = .ok d' ∧
        ⟨d', .nothing, r.romRead, r.ended⟩ = r' := by
  cases hname : valueOption? text with
  | none => cases hflag : longFlag? text <;> simp [long, hname, hflag]
  | some name =>
    simp only [long, hname, settle_bind_eq_ok_iff]
    simp only [bind_eq_ok_iff, pure_eq_ok_iff, Option.some.injEq, exists_eq_left']

lemma longFlag_eq_debug_iff : longFlag? text = some .debug ↔ text = "debug" := by
  unfold longFlag?
  split <;> simp_all

/-- A long argument without a value is an option that awaits one, or the flag. -/
lemma long_none_eq_ok_iff :
    r.long text none = .ok r' ↔ ∃ d, r.draft.settle r.pending = .ok d ∧
      ((∃ name, valueOption? text = some name ∧
          ⟨d, .option name none, r.romRead, r.ended⟩ = r') ∨
        text = "debug" ∧ d.debug = false ∧
          ⟨{ d with debug := true }, .nothing, r.romRead, r.ended⟩ = r') := by
  cases hname : valueOption? text with
  | some name =>
    have hnot : text ≠ "debug" := by
      rintro rfl
      cases hname
    simp only [long, hname, settle_bind_eq_ok_iff, pure_eq_ok_iff, Option.some.injEq,
      exists_eq_left', hnot, false_and, or_false]
  | none =>
    rw [← longFlag_eq_debug_iff]
    cases hflag : longFlag? text with
    | none => simp [long, hname, hflag]
    | some f =>
      simp only [long, hname, hflag, flag_eq_ok_iff, Option.some.injEq, reduceCtorEq, false_and,
        exists_false, false_or]
      tauto

/-- What is pending is checked before a path is read. -/
lemma path_settle :
    r.path text = .ok r' ↔ ∃ d, r.draft.settle r.pending = .ok d ∧
      (⟨d, .nothing, r.romRead, r.ended⟩ : Reader).path text = .ok r' := by
  simp only [path_eq_ok_iff, Draft.settle, Except.ok.injEq, exists_eq_left']
  tauto

/-- What is pending is checked before an option or the flag is read. -/
lemma long_settle {attached : Option String} :
    r.long text attached = .ok r' ↔ ∃ d, r.draft.settle r.pending = .ok d ∧
      (⟨d, .nothing, r.romRead, r.ended⟩ : Reader).long text attached = .ok r' := by
  cases attached with
  | none => simp only [long_none_eq_ok_iff, Draft.settle, Except.ok.injEq, exists_eq_left']
  | some value =>
    simp only [long_some_eq_ok_iff, Draft.settle, Except.ok.injEq, exists_eq_left']
    tauto

lemma plain_eq_path (hr : ∀ name, r.pending ≠ .option name none) : r.plain text = r.path text := by
  unfold plain
  split
  · exact absurd ‹_› (hr _)
  · rfl

/-- Nothing is lost by checking at once: a reader that does not await a value may check what is
pending before it reads on. -/
lemma readOn_settle (hr : ∀ name, r.pending ≠ .option name none) :
    r.readOn rest = .ok s ↔ ∃ d, r.draft.settle r.pending = .ok d ∧
      (⟨d, .nothing, r.romRead, r.ended⟩ : Reader).readOn rest = .ok s := by
  induction rest generalizing r with
  | nil => simp [readOn_nil_eq_ok_iff, Draft.settle]
  | cons argument rest ih =>
    have hpath (text : String) : (∃ r', r.path text = .ok r' ∧ r'.readOn rest = .ok s) ↔
        ∃ d, r.draft.settle r.pending = .ok d ∧
          ∃ r', (⟨d, .nothing, r.romRead, r.ended⟩ : Reader).path text = .ok r' ∧
            r'.readOn rest = .ok s := by
      simp only [path_settle (r := r)]
      tauto
    simp only [readOn_cons, bind_eq_ok_iff, read]
    split
    · exact hpath argument
    · cases Shape.of argument with
      | ending => simpa using ih (r := { r with ended := true }) hr
      | long name attached =>
        simp only [long_settle (r := r)]
        tauto
      | short letters =>
        simp only [shortFlags_eq_ok_iff]
        constructor
        · rintro ⟨_, ⟨rfl, rfl⟩, h⟩
          obtain ⟨d, hd, h⟩ := (ih hr).1 h
          exact ⟨d, hd, _, ⟨rfl, rfl⟩, h⟩
        · rintro ⟨d, hd, _, ⟨rfl, rfl⟩, h⟩
          exact ⟨_, ⟨rfl, rfl⟩, (ih hr).2 ⟨d, hd, h⟩⟩
      | plain text =>
        have hnothing (d : Draft) : (⟨d, .nothing, r.romRead, r.ended⟩ : Reader).plain text =
            (⟨d, .nothing, r.romRead, r.ended⟩ : Reader).path text :=
          plain_eq_path (by simp)
        simpa only [plain_eq_path hr, hnothing] using hpath text

/-- An option without a value takes the next argument for it, which has to be a plain one. -/
lemma readOn_awaiting {awaited : ValueOption} {romRead : Bool} :
    (⟨d, .option awaited none, romRead, false⟩ : Reader).readOn rest = .ok s ↔
      ∃ value rest', rest = value :: rest' ∧ Shape.of value = .plain value ∧
        (⟨d, .option awaited (some value), romRead, false⟩ : Reader).readOn rest' = .ok s := by
  have hended (rest : List String) :
      (⟨d, .option awaited none, romRead, true⟩ : Reader).readOn rest ≠ .ok s := by
    cases rest <;> simp [readOn_nil_eq_ok_iff, readOn_cons, read, path_eq_ok_iff, Draft.settle]
  cases rest with
  | nil => simp [readOn_nil_eq_ok_iff, Draft.settle]
  | cons argument rest =>
    simp only [readOn_cons, bind_eq_ok_iff, read]
    cases hshape : Shape.of argument with
    | ending => simp [hended, hshape]
    | long name attached =>
      have hnot (r' : Reader) :
          (⟨d, .option awaited none, romRead, false⟩ : Reader).long name attached ≠ .ok r' := by
        rw [Ne, long_settle]
        simp [Draft.settle]
      simp [hnot, hshape]
    | short letters =>
      have : letters ≠ [] := fun h => Shape.of_ne_short_nil (h ▸ hshape)
      simp [shortFlags_eq_ok_iff, this, hshape]
    | plain text =>
      obtain rfl := Shape.eq_of_plain hshape
      simp [plain, hshape]

/-! ### One thing after another -/

lemma readOn_attached {value : String} {name : ValueOption}
    (h : Shape.of argument = .long text (some value)) (hname : valueOption? text = some name) :
    (settled d false).readOn (argument :: rest) = .ok s ↔
      ∃ d', d.put (.option name value) = .ok d' ∧ (settled d' false).readOn rest = .ok s := by
  simp only [readOn_cons, bind_eq_ok_iff, read, settled, h, Bool.false_eq_true, if_false,
    long_some_eq_ok_iff, hname, Option.some.injEq, exists_eq_left', Draft.settle, Except.ok.injEq,
    Draft.put]
  constructor
  · rintro ⟨_, ⟨d', hd', rfl⟩, hs⟩
    exact ⟨d', hd', by rwa [Draft.rom_of_accept hd']⟩
  · rintro ⟨d', hd', hs⟩
    exact ⟨_, ⟨d', hd', rfl⟩, by rwa [Draft.rom_of_accept hd'] at hs⟩

lemma readOn_separate {value : String} {name : ValueOption}
    (h : Shape.of argument = .long text none) (hname : valueOption? text = some name)
    (hvalue : Shape.of value = .plain value) :
    (settled d false).readOn (argument :: value :: rest) = .ok s ↔
      ∃ d', d.put (.option name value) = .ok d' ∧ (settled d' false).readOn rest = .ok s := by
  have hdebug : text ≠ "debug" := by
    rintro rfl
    simp [valueOption?] at hname
  have hread :
      (settled d false).read argument = .ok ⟨d, .option name none, d.rom.isSome, false⟩ := by
    simp [read, settled, h, long_none_eq_ok_iff, hname, hdebug, Draft.settle]
  have hnext :
      (⟨d, .option name none, d.rom.isSome, false⟩ : Reader).readOn (value :: rest) = .ok s ↔
        (⟨d, .option name (some value), d.rom.isSome, false⟩ : Reader).readOn rest = .ok s := by
    rw [readOn_awaiting]
    simp [hvalue, eq_comm]
  rw [readOn_of_read hread, hnext, readOn_settle (by simp)]
  simp only [Draft.settle, Draft.put]
  refine exists_congr fun d' => and_congr_right fun hd' => ?_
  rw [settled, Draft.rom_of_accept hd']

lemma readOn_debug (h : Shape.of argument = .long "debug" none) :
    (settled d false).readOn (argument :: rest) = .ok s ↔
      ∃ d', d.put .debug = .ok d' ∧ (settled d' false).readOn rest = .ok s := by
  have hdebug : valueOption? "debug" = none := by decide
  simp only [readOn_cons, bind_eq_ok_iff, read, settled, h, Bool.false_eq_true, if_false,
    long_none_eq_ok_iff, hdebug, reduceCtorEq, false_and, exists_false, false_or, Draft.settle,
    Except.ok.injEq, exists_eq_left', true_and, Draft.put]
  cases hd : d.debug <;> simp

lemma path_readOn :
    (∃ r', (settled d ended).path text = .ok r' ∧ r'.readOn rest = .ok s) ↔
      ∃ d', d.put (.rom text) = .ok d' ∧ (settled d' ended).readOn rest = .ok s := by
  cases hrom : d.rom with
  | some path => simp [path_eq_ok_iff, settled, Draft.put, hrom]
  | none =>
    have hread (r' : Reader) :
        (settled d ended).path text = .ok r' ↔ ⟨d, .rom text, true, ended⟩ = r' := by
      simp [path_eq_ok_iff, settled, Draft.settle, hrom]
    simp only [hread, exists_eq_left']
    rw [readOn_settle (by simp)]
    by_cases htext : text.isEmpty <;> simp [Draft.settle, Draft.put, settled, hrom, htext]

lemma readOn_path (h : Shape.of argument = .plain argument) :
    (settled d false).readOn (argument :: rest) = .ok s ↔
      ∃ d', d.put (.rom argument) = .ok d' ∧ (settled d' false).readOn rest = .ok s := by
  have hread : (settled d false).read argument = (settled d false).path argument := by
    rw [← plain_eq_path (by simp [settled])]
    simp [read, h, settled]
  rw [readOn_cons, bind_eq_ok_iff, hread, path_readOn]

/-- A phrase is read as what it says. -/
lemma readOn_phrase {words : List String} {item : Item} (h : Phrase words item) :
    (settled d false).readOn (words ++ rest) = .ok s ↔
      ∃ d', d.put item = .ok d' ∧ (settled d' false).readOn rest = .ok s := by
  cases h with
  | attached h hname => exact readOn_attached h hname
  | separate h hname hvalue => exact readOn_separate h hname hvalue
  | debug h => exact readOn_debug h
  | path h => exact readOn_path h

/-- A line that is accepted begins with a phrase, unless with `--`. -/
lemma phrase_of_readOn (h : (settled d false).readOn (argument :: rest) = .ok s) :
    Shape.of argument = .ending ∨
      ∃ words item rest', Phrase words item ∧ words ≠ [] ∧ argument :: rest = words ++ rest' := by
  rw [readOn_cons, bind_eq_ok_iff] at h
  obtain ⟨r', hr', h⟩ := h
  cases hshape : Shape.of argument with
  | ending => exact .inl rfl
  | long text attached =>
    simp only [read, settled, hshape, Bool.false_eq_true, if_false] at hr'
    cases attached with
    | some value =>
      obtain ⟨name, hname, -⟩ := long_some_eq_ok_iff.1 hr'
      exact .inr ⟨_, _, rest, .attached hshape hname, by simp, rfl⟩
    | none =>
      obtain ⟨d', -, ⟨name, hname, rfl⟩ | ⟨rfl, -⟩⟩ := long_none_eq_ok_iff.1 hr'
      · obtain ⟨value, rest', rfl, hvalue, -⟩ := readOn_awaiting.1 h
        exact .inr ⟨_, _, rest', .separate hshape hname hvalue, by simp, rfl⟩
      · exact .inr ⟨_, _, rest, .debug hshape, by simp, rfl⟩
  | short letters =>
    simp only [read, settled, hshape, Bool.false_eq_true, if_false, shortFlags_eq_ok_iff] at hr'
    exact absurd (hr'.1 ▸ hshape) Shape.of_ne_short_nil
  | plain text =>
    obtain rfl := Shape.eq_of_plain hshape
    exact .inr ⟨_, _, rest, .path hshape, by simp, rfl⟩

/-- Behind `--` all that follows is read as paths. -/
lemma readOn_ended :
    (settled d true).readOn rest = .ok s ↔
      ∃ d', (rest.map Item.rom).foldlM Draft.put d = .ok d' ∧ d'.settings? = some s := by
  induction rest generalizing d with
  | nil => simp [readOn_nil_eq_ok_iff, settled, Draft.settle]
  | cons argument rest ih =>
    have hread : (settled d true).read argument = (settled d true).path argument := by
      simp [read, settled]
    rw [readOn_cons, bind_eq_ok_iff, hread, path_readOn]
    simp only [ih, List.map_cons, List.foldlM_cons, bind_eq_ok_iff]
    tauto

lemma readOn_ending (h : Shape.of argument = .ending) :
    (settled d false).readOn (argument :: rest) = (settled d true).readOn rest :=
  readOn_of_read (by simp [read, settled, h])

/-- A line is read as what it says. -/
lemma readOn_eq_ok_iff {items : List Item} (h : Says rest items) :
    (settled d false).readOn rest = .ok s ↔
      ∃ d', items.foldlM Draft.put d = .ok d' ∧ d'.settings? = some s := by
  induction h generalizing d with
  | nothing => simp [readOn_nil_eq_ok_iff, settled, Draft.settle]
  | phrase h _ ih =>
    simp only [readOn_phrase h, ih, List.foldlM_cons, bind_eq_ok_iff]
    tauto
  | ended h paths => rw [readOn_ending h, readOn_ended]

/-- A line that is accepted says something. The induction is on the length of the line, since a
phrase may take two arguments. -/
lemma exists_items_of_readOn (rest : List String) (h : (settled d false).readOn rest = .ok s) :
    ∃ items, Says rest items := by
  induction hn : rest.length using Nat.strongRecOn generalizing d rest with
  | _ n ih =>
    subst hn
    cases rest with
    | nil => exact ⟨[], .nothing⟩
    | cons argument rest =>
      obtain hend | ⟨words, item, rest', hphrase, hne, heq⟩ := phrase_of_readOn h
      · exact ⟨_, .ended hend rest⟩
      · rw [heq] at h ih ⊢
        obtain ⟨d₁, -, h⟩ := (readOn_phrase hphrase).1 h
        have hshort : rest'.length < (words ++ rest').length := by
          simpa using List.length_pos_iff.2 hne
        obtain ⟨items, hitems⟩ := ih _ hshort rest' h rfl
        exact ⟨_, .phrase hphrase hitems⟩

end Reader

/-! ### What is asked for -/

section Given

variable {α : Type} {read : String → Option α} {start value : Option α} {texts : List String}

/-- What comes of something that may have been given before. -/
def Then (read : String → Option α) : Option α → List String → Option α → Prop
  | none, texts, value => Given read texts value
  | some start, texts, value => texts = [] ∧ value = some start

lemma then_nil : Then read start [] value ↔ value = start := by
  cases start with
  | none =>
    constructor
    · rintro ⟨⟩
      rfl
    · rintro rfl
      exact .absent
  | some start => simp [Then]

lemma then_cons {text : String} :
    Then read start (text :: texts) value ↔
      start = none ∧ ∃ first, read text = some first ∧ Then read (some first) texts value := by
  cases start with
  | some start => simp [Then]
  | none =>
    constructor
    · rintro ⟨⟩
      exact ⟨rfl, _, ‹_›, rfl, rfl⟩
    · rintro ⟨-, first, hfirst, rfl, rfl⟩
      exact .once hfirst

end Given

/-- A path that may be given. -/
def path? (text : String) : Option String := if text.isEmpty then none else some text

lemma given_path_iff {texts : List String} {rom : String} :
    Given path? texts (some rom) ↔ texts = [rom] ∧ rom ≠ "" := by
  constructor
  · rintro (_ | h)
    simp only [path?, Option.ite_none_left_eq_some, Option.some.injEq] at h
    obtain ⟨hne, rfl⟩ := h
    exact ⟨rfl, by simpa using hne⟩
  · rintro ⟨rfl, hne⟩
    exact .once (by simp [path?, hne])

variable {items : List Item}

/-- How some things said change a draft. -/
@[mk_iff] structure Becomes (d : Draft) (items : List Item) (d' : Draft) : Prop where
  rom : Then path? d.rom (paths items) d'.rom
  ips : Then long? d.ips (values .ips items) d'.ips
  scale : Then long? d.scale (values .scale items) d'.scale
  seed : Then huge? d.seed (values .seed items) d'.seed
  debug : d'.debug.toNat = d.debug.toNat + items.count .debug

lemma becomes_nil {d d' : Draft} : Becomes d [] d' ↔ d = d' := by
  have hdebug : d'.debug.toNat = d.debug.toNat ↔ d'.debug = d.debug := by
    cases d'.debug <;> cases d.debug <;> simp
  simp only [becomes_iff, paths_nil, values_nil, then_nil, List.count_nil, Nat.add_zero,
    hdebug]
  constructor
  · rintro ⟨hrom, hips, hscale, hseed, hdebug⟩
    cases d
    cases d'
    simp_all
  · rintro rfl
    simp

lemma becomes_option {d d' : Draft} {name : ValueOption} {value : String} :
    Becomes d (.option name value :: items) d' ↔
      ∃ d₁, d.put (.option name value) = .ok d₁ ∧ Becomes d₁ items d' := by
  simp only [Draft.put, Draft.accept_eq_ok_iff]
  cases name <;> simp [becomes_iff, then_cons, Draft.has, Draft.set?] <;> tauto

lemma becomes_debug {d d' : Draft} :
    Becomes d (.debug :: items) d' ↔ ∃ d₁, d.put .debug = .ok d₁ ∧ Becomes d₁ items d' := by
  cases hdebug : d.debug with
  | true =>
    have := d'.debug.toNat_le
    simp [becomes_iff, Draft.put, hdebug]
    omega
  | false => simp [becomes_iff, Draft.put, hdebug, Nat.add_comm]

lemma becomes_rom {d d' : Draft} {path : String} :
    Becomes d (.rom path :: items) d' ↔
      ∃ d₁, d.put (.rom path) = .ok d₁ ∧ Becomes d₁ items d' := by
  cases hrom : d.rom with
  | some rom => simp [becomes_iff, then_cons, Draft.put, hrom]
  | none =>
    by_cases hpath : path.isEmpty <;>
      simp [becomes_iff, then_cons, Draft.put, path?, hrom, hpath]

lemma becomes_cons {d d' : Draft} {item : Item} :
    Becomes d (item :: items) d' ↔ ∃ d₁, d.put item = .ok d₁ ∧ Becomes d₁ items d' := by
  cases item with
  | option name value => exact becomes_option
  | debug => exact becomes_debug
  | rom path => exact becomes_rom

lemma foldlM_put {d d' : Draft} : items.foldlM Draft.put d = .ok d' ↔ Becomes d items d' := by
  induction items generalizing d with
  | nil => simp [becomes_nil]
  | cons item items ih => simp only [List.foldlM_cons, bind_eq_ok_iff, becomes_cons, ih]

/-- A draft that begins with nothing ends with the settings that are asked for. -/
lemma exists_becomes_iff {s : Settings} :
    (∃ d, Becomes {} items d ∧ d.settings? = some s) ↔ Asks items s := by
  constructor
  · rintro ⟨d, ⟨hrom, hips, hscale, hseed, hdebug⟩, hs⟩
    simp only [Draft.settings?, Option.map_eq_some_iff] at hs
    obtain ⟨rom, hd, rfl⟩ := hs
    rw [hd] at hrom
    obtain ⟨hpaths, hne⟩ := given_path_iff.1 hrom
    exact ⟨hpaths, hne, ⟨_, hips, rfl⟩, ⟨_, hscale, rfl⟩, hseed, by simpa using hdebug.symm⟩
  · rintro ⟨hrom, hne, ⟨rate, hrate, hips⟩, ⟨factor, hfactor, hscale⟩, hseed, hdebug⟩
    refine ⟨⟨some s.rom, rate, factor, s.seed, s.debug⟩, ⟨?_, hrate, hfactor, hseed, ?_⟩, ?_⟩
    · exact given_path_iff.2 ⟨hrom, hne⟩
    · simpa using hdebug.symm
    · simp [Draft.settings?, ← hips, ← hscale]

/-- A line that says something gives the settings that are asked for by it. -/
theorem parse_eq_ok_iff_asks {arguments : List String} {s : Settings} (h : Says arguments items) :
    parse arguments = .ok s ↔ Asks items s := by
  rw [show parse arguments = (Reader.settled {} false).readOn arguments from rfl,
    Reader.readOn_eq_ok_iff h, ← exists_becomes_iff]
  simp only [foldlM_put]

/-- A list of arguments gives some settings exactly if it says something that asks for them. -/
theorem parse_eq_ok_iff {arguments : List String} {s : Settings} :
    parse arguments = .ok s ↔ ∃ items, Says arguments items ∧ Asks items s := by
  constructor
  · intro h
    obtain ⟨items, hitems⟩ := Reader.exists_items_of_readOn arguments h
    exact ⟨items, hitems, (parse_eq_ok_iff_asks hitems).1 h⟩
  · rintro ⟨items, hitems, hasks⟩
    exact (parse_eq_ok_iff_asks hitems).2 hasks

/-! ### Order -/

lemma Given.perm {α : Type} {read : String → Option α} {texts texts' : List String}
    {value : Option α} (h : Given read texts value) (hperm : texts.Perm texts') :
    Given read texts' value := by
  cases h with
  | absent =>
    obtain rfl := List.nil_perm.1 hperm
    exact .absent
  | once h =>
    obtain rfl := List.singleton_perm.1 hperm
    exact .once h

lemma Asks.perm {items' : List Item} {s : Settings} (h : Asks items s)
    (hperm : items.Perm items') : Asks items' s := by
  obtain ⟨hrom, hne, ⟨rate, hrate, hips⟩, ⟨factor, hfactor, hscale⟩, hseed, hdebug⟩ := h
  have hvalues (name : ValueOption) : (values name items).Perm (values name items') :=
    hperm.filterMap _
  refine ⟨?_, hne, ⟨rate, hrate.perm (hvalues .ips), hips⟩,
    ⟨factor, hfactor.perm (hvalues .scale), hscale⟩, hseed.perm (hvalues .seed), ?_⟩
  · have hpaths : (paths items).Perm (paths items') := hperm.filterMap _
    rw [hrom] at hpaths
    exact (List.singleton_perm.1 hpaths).symm
  · rw [← hperm.count_eq, hdebug]

/-- Lines that say the same in different orders, or with other phrases, give the same settings. -/
theorem parse_perm {arguments arguments' : List String} {items' : List Item} {s : Settings}
    (h : Says arguments items) (h' : Says arguments' items') (hperm : items.Perm items') :
    parse arguments = .ok s ↔ parse arguments' = .ok s := by
  rw [parse_eq_ok_iff_asks h, parse_eq_ok_iff_asks h']
  exact ⟨(·.perm hperm), (·.perm hperm.symm)⟩

example : parse ["--seed=7", "pong.ch8", "--ips", "700"] =
    .ok { rom := "pong.ch8", ips := 700, seed := some 7 } := by cbv

/-! ### A line for every settings -/

lemma digits_toDigits (n : Nat) : digits? (Nat.toDigits 10 n) = some n := by
  have hdigits : ((Nat.toDigits 10 n).any fun c => !c.isDigit) = false := by
    simpa using fun c hc => Nat.isDigit_of_mem_toDigits (by decide) (by decide) hc
  have hvalue := Nat.ofDigitChars_ten_toDigits (n := n)
  rw [Nat.ofDigitChars_eq_foldl] at hvalue
  simp only [digits?, hdigits, hvalue, List.isEmpty_eq_false_iff.2 Nat.toDigits_ne_nil,
    Bool.or_false, Bool.false_eq_true, if_false]

/-- A number is written without a sign. -/
lemma exists_toDigits_eq_cons (n : Nat) :
    ∃ c cs, Nat.toDigits 10 n = c :: cs ∧ c ≠ '-' ∧ c ≠ '+' := by
  obtain ⟨c, cs, hcs⟩ := List.exists_cons_of_ne_nil (Nat.toDigits_ne_nil (n := n) (b := 10))
  have hdigit : c.isDigit = true :=
    Nat.isDigit_of_mem_toDigits (by decide) (by decide) (hcs ▸ List.mem_cons_self)
  refine ⟨c, cs, hcs, ?_, ?_⟩ <;> rintro rfl <;> cases hdigit

lemma natural_toDigits (n : Nat) : natural? (Nat.toDigits 10 n) = some n := by
  have hdigits := digits_toDigits n
  obtain ⟨c, cs, hcs, -, hplus⟩ := exists_toDigits_eq_cons n
  rw [hcs] at hdigits ⊢
  simpa [natural?, hplus] using hdigits

lemma integer_toDigits (n : Nat) : integer? (Nat.toDigits 10 n) = some (n : Int) := by
  have hnatural := natural_toDigits n
  obtain ⟨c, cs, hcs, hminus, -⟩ := exists_toDigits_eq_cons n
  rw [hcs] at hnatural ⊢
  simp [integer?, hminus, hnatural]

lemma long_toString (n : UInt32) : long? (toString n.toNat) = some n := by
  have hdigits : (toString n.toNat).toList = Nat.toDigits 10 n.toNat := by simp
  have hlt : (n.toNat : Int) < UInt32.size := Int.ofNat_lt.2 n.toNat_lt_size
  rw [long?, hdigits, integer_toDigits, Option.bind_eq_bind, Option.bind_some,
    if_pos ⟨Int.natCast_nonneg _, hlt⟩, Int.toNat_natCast, Nat.toUInt32, UInt32.ofNat_toNat]

lemma huge_toString (n : UInt64) : huge? (toString n.toNat) = some n := by
  have hdigits : (toString n.toNat).toList = Nat.toDigits 10 n.toNat := by simp
  rw [huge?, hdigits, natural_toDigits, Option.bind_eq_bind, Option.bind_some,
    if_pos n.toNat_lt_size, Nat.toUInt64, UInt64.ofNat_toNat]

lemma shape_toString (n : Nat) : Shape.of (toString n) = .plain (toString n) := by
  obtain ⟨c, cs, hcs, hminus, -⟩ := exists_toDigits_eq_cons n
  have : (toString n).toList = c :: cs := by simpa using hcs
  unfold Shape.of
  rw [this]
  split <;> simp_all

/-- All that can be said of some settings. -/
def said (s : Settings) : List Item :=
  [.option .ips (toString s.ips.toNat), .option .scale (toString s.scale.toNat)] ++
    s.seed.elim [] (fun seed => [.option .seed (toString seed.toNat)]) ++
    (if s.debug then [.debug] else []) ++ [.rom s.rom]

/-- A command line that says it. The path stands behind `--`, where it may begin with a dash. -/
def line (s : Settings) : List String :=
  ["--ips", toString s.ips.toNat, "--scale", toString s.scale.toNat] ++
    s.seed.elim [] (fun seed => ["--seed", toString seed.toNat]) ++
    (if s.debug then ["--debug"] else []) ++ ["--", s.rom]

lemma says_line (s : Settings) : Says (line s) (said s) := by
  have hips : Phrase ["--ips", toString s.ips.toNat] (.option .ips (toString s.ips.toNat)) :=
    .separate (rfl : Shape.of "--ips" = .long "ips" none) rfl (shape_toString _)
  have hscale : Phrase ["--scale", toString s.scale.toNat]
      (.option .scale (toString s.scale.toNat)) :=
    .separate (rfl : Shape.of "--scale" = .long "scale" none) rfl (shape_toString _)
  have hseed (seed : UInt64) :
      Phrase ["--seed", toString seed.toNat] (.option .seed (toString seed.toNat)) :=
    .separate (rfl : Shape.of "--seed" = .long "seed" none) rfl (shape_toString _)
  have hdebug : Phrase ["--debug"] .debug := .debug rfl
  have hpath : Says ["--", s.rom] [.rom s.rom] :=
    .ended (rfl : Shape.of "--" = .ending) [s.rom]
  unfold line said
  cases s.seed <;> cases s.debug
  · simpa using Says.phrase hips (.phrase hscale hpath)
  · simpa using Says.phrase hips (.phrase hscale (.phrase hdebug hpath))
  · simpa using Says.phrase hips (.phrase hscale (.phrase (hseed _) hpath))
  · simpa using Says.phrase hips (.phrase hscale (.phrase (hseed _) (.phrase hdebug hpath)))

lemma asks_said {s : Settings} (h : s.rom ≠ "") : Asks (said s) s := by
  obtain ⟨rom, ips, scale, seed, debug⟩ := s
  have hips : Given long? [toString ips.toNat] (some ips) := .once (long_toString ips)
  have hscale : Given long? [toString scale.toNat] (some scale) := .once (long_toString scale)
  have hseed : Given huge? (seed.elim [] fun seed => [toString seed.toNat]) seed := by
    cases seed with
    | none => exact .absent
    | some seed => exact .once (huge_toString seed)
  cases seed <;> cases debug <;>
    exact ⟨rfl, h, ⟨_, hips, rfl⟩, ⟨_, hscale, rfl⟩, hseed, rfl⟩

theorem parse_line {s : Settings} (h : s.rom ≠ "") : parse (line s) = .ok s :=
  (parse_eq_ok_iff_asks (says_line s)).2 (asks_said h)

/-- Command lines give just the settings whose path is not empty. -/
theorem exists_parse_eq_ok_iff {s : Settings} :
    (∃ arguments, parse arguments = .ok s) ↔ s.rom ≠ "" := by
  constructor
  · rintro ⟨arguments, h⟩
    obtain ⟨_, -, hasks⟩ := parse_eq_ok_iff.1 h
    exact hasks.rom_ne
  · intro h
    exact ⟨line s, parse_line h⟩

end Chip8.CommandLine
