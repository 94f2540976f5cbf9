import TreeKinds.Proofs.Run.ExitCode

/-! The wordings of a command line. Arguments stand in any order, an option is given by its short or
its long name with the value behind it or attached, and the divider may stand before a description
that comes last. Proved: after each argument the reader holds those given so far, in whatever words,
so that all wordings of the same options are read as these options and run alike. -/
namespace TreeKinds.CommandLine

/-! ### Wordings -/

/-- A value that is not taken for an option. -/
structure Plain (value : String) : Prop where
  ne_empty : value ≠ ""
  not_hyphen : value.toList.head? ≠ some '-'

/-- The words that give a value to an option, known by its short and its long name. -/
inductive Sets (short long value : String) : (words : List String) → Prop
  | short : Sets short long value [short, value]
  | long : Sets short long value [long, value]
  | attached : Sets short long value [long ++ "=" ++ value]

/-- The words that give an argument with its value, which is empty for a flag. -/
inductive Gives : Argument × String → (words : List String) → Prop
  | description (value : String) : Gives (.description, value) [value]
  | output {value : String} {words : List String} : Sets "-o" "--output" value words →
      Gives (.output, value) words
  | config {value : String} {words : List String} : Sets "-c" "--config" value words →
      Gives (.config, value) words
  | keepPartial : Gives (.keepPartial, "") ["--keep-partial"]

/-- The words that give arguments in this order. A description that comes last may have the divider
before it. -/
inductive GivesAll : List (Argument × String) → (words : List String) → Prop
  | nil : GivesAll [] []
  | divided (value : String) : GivesAll [(.description, value)] ["--", value]
  | cons {g : Argument × String} {gs : List (Argument × String)} {words words' : List String} :
      Gives g words → GivesAll gs words' → GivesAll (g :: gs) (words ++ words')

namespace Options

/-- The arguments that make up the options, each with its value. -/
def arguments (o : Options) : List (Argument × String) :=
  (.description, o.description) :: (o.output.toList.map fun value => (.output, value)) ++
    (o.config.toList.map fun value => (.config, value)) ++
    if o.keepPartial then [(.keepPartial, "")] else []

/-- All values can be told from options. -/
structure AllPlain (o : Options) : Prop where
  description : Plain o.description
  output : ∀ value, o.output = some value → Plain value
  config : ∀ value, o.config = some value → Plain value

/-- The words give the arguments of the options, in any order, and nothing else. -/
def WordedAs (o : Options) (words : List String) : Prop :=
  ∃ given, given.Perm o.arguments ∧ GivesAll given words

end Options

/-! ### Between two arguments -/

variable {s : State} {given : List (Argument × String)} {a : Argument} {value : String}

namespace State

theorem has_mk_iff {waiting : Option Waiting} {plainOnly : Bool} :
    (State.mk given waiting plainOnly).has a = true ↔ a ∈ given.map Prod.fst := by
  simp [has]

theorem take_of_new (hnew : a ∉ given.map Prod.fst) (hvalue : a.takesValue = true → value ≠ "")
    (plainOnly : Bool) : take ⟨given, none, plainOnly⟩ a (some value) =
      (⟨given ++ [(a, value)], none, plainOnly⟩, none) := by
  have hvoid : ¬(a.takesValue && value.isEmpty) = true := by simpa using hvalue
  rw [take, if_neg (mt has_mk_iff.1 hnew), if_neg hvoid]

/-- A state between two arguments. Those given so far are settled, or all but the last one, which
waits with its value. -/
inductive Holds : State → (given : List (Argument × String)) → Prop
  | settled (given : List (Argument × String)) (plainOnly : Bool) :
      Holds ⟨given, none, plainOnly⟩ given
  | waiting {given : List (Argument × String)} {a : Argument} {value : String} (plainOnly : Bool) :
      a ∉ given.map Prod.fst → value ≠ "" →
      Holds ⟨given, some ⟨a, some value⟩, plainOnly⟩ (given ++ [(a, value)])

theorem Holds.settle_eq (h : s.Holds given) : s.settle = (⟨given, none, s.plainOnly⟩, none) := by
  cases h with
  | settled => rfl
  | waiting plainOnly hnew hvalue => exact take_of_new hnew (fun _ => hvalue) plainOnly

theorem Holds.settled_eq (h : s.Holds given) : s.settled = .ok ⟨given, none, s.plainOnly⟩ := by
  rw [State.settled, h.settle_eq]
  rfl

/-- The divider leaves the arguments as they are. -/
theorem Holds.divided (h : s.Holds given) : Holds { s with plainOnly := true } given := by
  cases h with
  | settled => exact .settled _ _
  | waiting _ hnew hvalue => exact .waiting _ hnew hvalue

theorem Holds.await_none (h : s.Holds given) (a : Argument) :
    s.await a none = .ok ⟨given, some ⟨a, none⟩, s.plainOnly⟩ := by
  rw [await, h.settled_eq]
  rfl

theorem Holds.await_some (h : s.Holds given) (hnew : a ∉ given.map Prod.fst) (hvalue : value ≠ "") :
    s.await a (some value) = .ok ⟨given ++ [(a, value)], none, s.plainOnly⟩ := by
  rw [await, h.settled_eq]
  exact congrArg checked (take_of_new hnew (fun _ => hvalue) s.plainOnly)

theorem Holds.raise_keepPartial (h : s.Holds given) (hnew : .keepPartial ∉ given.map Prod.fst) :
    s.raise .keepPartial = .ok ⟨given ++ [(.keepPartial, "")], none, s.plainOnly⟩ := by
  have hflag : Argument.keepPartial.takesValue = true → "" ≠ "" := nofun
  rw [raise, h.settled_eq]
  exact congrArg checked (take_of_new hnew hflag s.plainOnly)

theorem Holds.readPlain_description (h : s.Holds given) (hnew : .description ∉ given.map Prod.fst)
    (value : String) :
    s.readPlain value = .ok ⟨given, some ⟨.description, some value⟩, s.plainOnly⟩ := by
  have hsettle := h.settle_eq
  unfold readPlain
  split
  next hw _ =>
    -- no option waits for its value here
    cases h <;> cases hw
  next =>
    rw [hsettle]
    exact if_neg (mt has_mk_iff.1 hnew)

end State

/-! ### Words -/

theorem Word.ofText_of_not_hyphen (h : value.toList.head? ≠ some '-') :
    Word.ofText value = .plain value := by
  unfold Word.ofText
  split <;> simp_all

/-- The names of an option with a value, as they are read. -/
structure Names (a : Argument) (short long : String) : Prop where
  takesValue : a.takesValue = true
  byShort : ∃ c, Argument.ofShort? c = some a ∧ Word.ofText short = .short [c]
  byLong : ∃ name, Argument.ofLong? name = some a ∧ Word.ofText long = .long name none ∧
    ∀ value, Word.ofText (long ++ "=" ++ value) = .long name (some value)

theorem names_output : Names .output "-o" "--output" where
  takesValue := rfl
  byShort := ⟨'o', rfl, rfl⟩
  byLong := ⟨"output", rfl, rfl, fun value => by simp [Word.ofText, Word.ofLong]⟩

theorem names_config : Names .config "-c" "--config" where
  takesValue := rfl
  byShort := ⟨'c', rfl, rfl⟩
  byLong := ⟨"config", rfl, rfl, fun value => by simp [Word.ofText, Word.ofLong]⟩

variable {short long : String} {words : List String}

theorem Names.read_short (hn : Names a short long) (hplain : s.plainOnly = false) :
    s.read short = s.await a none := by
  obtain ⟨c, hc, hword⟩ := hn.byShort
  rw [State.read, hplain, hword]
  simp [State.readShort, hc, hn.takesValue]

theorem Names.read_long (hn : Names a short long) (hplain : s.plainOnly = false) :
    s.read long = s.await a none := by
  obtain ⟨name, hname, hword, -⟩ := hn.byLong
  rw [State.read, hplain, hword]
  simp [State.readLong, hname, hn.takesValue]

theorem Names.read_attached (hn : Names a short long) (hplain : s.plainOnly = false)
    (value : String) : s.read (long ++ "=" ++ value) = s.await a (some value) := by
  obtain ⟨name, hname, -, hword⟩ := hn.byLong
  rw [State.read, hplain, hword]
  simp [State.readLong, hname, hn.takesValue]

theorem State.read_plain (hs : s.plainOnly = false) (hvalue : Plain value) :
    s.read value = s.readPlain value := by
  rw [State.read, hs, Word.ofText_of_not_hyphen hvalue.not_hyphen]
  rfl

/-! ### From one argument to the next -/

theorem foldlM_read_singleton (s : State) (word : String) :
    [word].foldlM State.read s = s.read word :=
  bind_pure (s.read word)

theorem foldlM_read_behind (hs : s.Holds given) (hplain : s.plainOnly = false) {name : String}
    (hname : s.read name = s.await a none) (hvalue : Plain value) :
    [name, value].foldlM State.read s = .ok ⟨given, some ⟨a, some value⟩, false⟩ := by
  rw [List.foldlM_cons, hname, hs.await_none, hplain]
  refine (foldlM_read_singleton _ value).trans ?_
  rw [State.read_plain rfl hvalue]
  rfl

/-- An option is held with its value, whatever words give it. -/
theorem Sets.foldlM_read (h : Sets short long value words) (hn : Names a short long)
    (hs : s.Holds given) (hplain : s.plainOnly = false) (hnew : a ∉ given.map Prod.fst)
    (hvalue : Plain value) :
    ∃ s', words.foldlM State.read s = .ok s' ∧ s'.plainOnly = false ∧
      s'.Holds (given ++ [(a, value)]) := by
  have hwaiting := State.Holds.waiting false hnew hvalue.ne_empty
  cases h with
  | short =>
    exact ⟨_, foldlM_read_behind hs hplain (hn.read_short hplain) hvalue, rfl, hwaiting⟩
  | long =>
    exact ⟨_, foldlM_read_behind hs hplain (hn.read_long hplain) hvalue, rfl, hwaiting⟩
  | attached =>
    have hread := (hn.read_attached hplain value).trans (hs.await_some hnew hvalue.ne_empty)
    exact ⟨_, (foldlM_read_singleton s _).trans hread, hplain, .settled _ _⟩

/-- One more argument is held after its words. -/
theorem Gives.foldlM_read {g : Argument × String} (h : Gives g words) (hs : s.Holds given)
    (hplain : s.plainOnly = false) (hnew : g.1 ∉ given.map Prod.fst)
    (hvalue : g.1.takesValue = true → Plain g.2) :
    ∃ s', words.foldlM State.read s = .ok s' ∧ s'.plainOnly = false ∧
      s'.Holds (given ++ [g]) := by
  cases h with
  | description value =>
    have hread := (State.read_plain hplain (hvalue rfl)).trans (hs.readPlain_description hnew value)
    exact ⟨_, (foldlM_read_singleton s _).trans hread, hplain,
      .waiting _ hnew (hvalue rfl).ne_empty⟩
  | output h => exact h.foldlM_read names_output hs hplain hnew (hvalue rfl)
  | config h => exact h.foldlM_read names_config hs hplain hnew (hvalue rfl)
  | keepPartial =>
    have hflag : s.read "--keep-partial" = s.raise .keepPartial := by
      rw [State.read, hplain]
      rfl
    have hread := hflag.trans (hs.raise_keepPartial hnew)
    exact ⟨_, (foldlM_read_singleton s _).trans hread, hplain, .settled _ _⟩

theorem not_mem_of_nodup_append {g : Argument × String} {gs : List (Argument × String)}
    (h : ((given ++ g :: gs).map Prod.fst).Nodup) : g.1 ∉ given.map Prod.fst := by
  rw [List.map_append, List.nodup_append] at h
  exact fun hg => h.2.2 _ hg _ List.mem_cons_self rfl

/-- All arguments are held after their words. -/
theorem GivesAll.foldlM_read {gs : List (Argument × String)} (h : GivesAll gs words)
    (hs : s.Holds given) (hplain : s.plainOnly = false)
    (hnew : ((given ++ gs).map Prod.fst).Nodup)
    (hvalue : ∀ g ∈ gs, g.1.takesValue = true → Plain g.2) :
    ∃ s', words.foldlM State.read s = .ok s' ∧ s'.Holds (given ++ gs) := by
  -- the arguments before are part of the statement, since the reader holds them all the way
  induction h generalizing s given with
  | nil => exact ⟨s, rfl, by rwa [List.append_nil]⟩
  | divided value =>
    have hfirst : .description ∉ given.map Prod.fst := not_mem_of_nodup_append hnew
    have hdivider : s.read "--" = .ok { s with plainOnly := true } := by
      rw [State.read, hplain]
      rfl
    have hread := hs.divided.readPlain_description hfirst value
    refine ⟨_, ?_, .waiting true hfirst (hvalue _ List.mem_cons_self rfl).ne_empty⟩
    -- behind the divider a word is plain whatever its form
    rw [List.foldlM_cons, hdivider]
    exact (foldlM_read_singleton _ value).trans hread
  | @cons g gs words words' hg _ ih =>
    rw [List.forall_mem_cons] at hvalue
    obtain ⟨s₁, hread₁, hplain₁, hs₁⟩ :=
      hg.foldlM_read hs hplain (not_mem_of_nodup_append hnew) hvalue.1
    rw [List.append_cons] at hnew ⊢
    obtain ⟨s₂, hread₂, hs₂⟩ := ih hs₁ hplain₁ hnew hvalue.2
    refine ⟨s₂, ?_, hs₂⟩
    rw [List.foldlM_append, hread₁]
    exact hread₂

/-! ### The end of the words -/

theorem lookup_eq_some_iff_mem (hd : (given.map Prod.fst).Nodup) :
    given.lookup a = some value ↔ (a, value) ∈ given := by
  rw [List.lookup_eq_some_iff]
  constructor
  · rintro ⟨gs, gs', rfl, -⟩
    exact List.mem_append_cons_self
  · intro h
    obtain ⟨gs, gs', rfl⟩ := List.append_of_mem h
    refine ⟨gs, gs', rfl, fun g hg => bne_iff_ne.2 fun hfst => ?_⟩
    exact not_mem_of_nodup_append hd (List.mem_map.2 ⟨g, hg, hfst.symm⟩)

theorem lookup_eq_of_perm {l l' : List (Argument × String)} (h : l.Perm l')
    (hd : (l.map Prod.fst).Nodup) (a : Argument) : l.lookup a = l'.lookup a := by
  have hd' : (l'.map Prod.fst).Nodup := (h.map Prod.fst).nodup_iff.1 hd
  apply Option.ext
  intro value
  rw [lookup_eq_some_iff_mem hd, lookup_eq_some_iff_mem hd', h.mem_iff]

namespace Options

variable (o : Options)

theorem nodup_arguments : (o.arguments.map Prod.fst).Nodup := by
  rcases o with ⟨_, _ | _, _ | _, _ | _⟩ <;> simp [arguments]

theorem lookup_description : o.arguments.lookup .description = some o.description := rfl

theorem lookup_output : o.arguments.lookup .output = o.output := by
  rcases o with ⟨_, _ | _, _ | _, _ | _⟩ <;> rfl

theorem lookup_config : o.arguments.lookup .config = o.config := by
  rcases o with ⟨_, _ | _, _ | _, _ | _⟩ <;> rfl

theorem keepPartial_mem_arguments_iff :
    .keepPartial ∈ o.arguments.map Prod.fst ↔ o.keepPartial = true := by
  rcases o with ⟨_, _ | _, _ | _, _ | _⟩ <;> simp [arguments]

theorem AllPlain.of_mem {o : Options} (ho : o.AllPlain) {g : Argument × String}
    (hg : g ∈ o.arguments) (hvalue : g.1.takesValue = true) : Plain g.2 := by
  simp only [arguments, List.mem_append, List.mem_cons, List.mem_map, Option.mem_toList] at hg
  obtain ((rfl | ⟨value, h, rfl⟩) | ⟨value, h, rfl⟩) | hg := hg
  · exact ho.description
  · exact ho.output value h
  · exact ho.config value h
  · split at hg
    next =>
      rw [List.mem_singleton] at hg
      subst hg
      cases hvalue
    next => cases hg

end Options

variable {o : Options}

theorem State.finish_of_settled {u : State} {description : String} (h : s.settled = .ok u)
    (hdescription : u.value? .description = some description) : s.finish =
      .ok ⟨description, u.value? .output, u.value? .config, u.has .keepPartial⟩ := by
  simp only [finish, h, hdescription, bind, Except.bind]

/-- The arguments make up the options in whatever order they were given. -/
theorem State.Holds.finish_eq (h : s.Holds given) (hperm : given.Perm o.arguments) :
    s.finish = .ok o := by
  have hd : (given.map Prod.fst).Nodup := (hperm.map Prod.fst).nodup_iff.2 o.nodup_arguments
  have hvalue (a : Argument) : given.lookup a = o.arguments.lookup a := lookup_eq_of_perm hperm hd a
  have hkeep : State.has ⟨given, none, s.plainOnly⟩ .keepPartial = o.keepPartial := by
    rw [Bool.eq_iff_iff, State.has_mk_iff, ← o.keepPartial_mem_arguments_iff]
    exact (hperm.map Prod.fst).mem_iff
  have hdescription := (hvalue .description).trans o.lookup_description
  rw [State.finish_of_settled h.settled_eq hdescription, hkeep, State.value?, State.value?, hvalue,
    hvalue, o.lookup_output, o.lookup_config]

/-! ### All wordings -/

theorem Options.WordedAs.read_eq (h : o.WordedAs words) (ho : o.AllPlain) : read words = .ok o := by
  obtain ⟨given, hperm, hgives⟩ := h
  have hd : (([] ++ given).map Prod.fst).Nodup :=
    (hperm.map Prod.fst).nodup_iff.2 o.nodup_arguments
  obtain ⟨s, hread, hs⟩ := hgives.foldlM_read (.settled [] false) rfl hd
    fun g hg => ho.of_mem (hperm.mem_iff.1 hg)
  rw [read, State.start, hread]
  exact hs.finish_eq hperm

end TreeKinds.CommandLine

namespace TreeKinds.Run

open Files (FileTree)
open CommandLine (Options)

/-- Whatever the order and the words in which the arguments are given, they are read as the same
options, and so runs end alike: with the same exit code, the same output and the same tree. -/
theorem run_eq_of_wordedAs {o : Options} (ho : o.AllPlain) {words words' : List String}
    (h : o.WordedAs words) (h' : o.WordedAs words') :
    CommandLine.read words = .ok o ∧ CommandLine.read words' = .ok o ∧
      ∀ (limit : Option Nat) (toml : String → String) (logging : Option String) (t : FileTree),
        (run (FileTree.disk limit) toml logging words).run t =
          (run (FileTree.disk limit) toml logging words').run t := by
  refine ⟨h.read_eq ho, h'.read_eq ho, fun limit toml logging t => ?_⟩
  rw [run, run, h.read_eq ho, h'.read_eq ho]

/-- Values that look like names of options, and a file that is the description and the
configuration. -/
theorem run_eq_of_wordedAs_lookalikes : ∃ o words words',
    o = ⟨"output", some "config=-c", some "output", true⟩ ∧
    words = ["--keep-partial", "--output=config=-c", "-c", "output", "--", "output"] ∧
    words' = ["output", "--config=output", "--keep-partial", "-o", "config=-c"] ∧
    Options.AllPlain o ∧ Options.WordedAs o words ∧ Options.WordedAs o words' ∧
    CommandLine.read words = .ok o ∧ CommandLine.read words' = .ok o ∧
      ∀ (limit : Option Nat) (toml : String → String) (logging : Option String) (t : FileTree),
        (run (FileTree.disk limit) toml logging words).run t =
          (run (FileTree.disk limit) toml logging words').run t := by
  obtain ⟨o, ho⟩ : ∃ o : Options, o = ⟨"output", some "config=-c", some "output", true⟩ := ⟨_, rfl⟩
  have hplain : Options.AllPlain o := by
    rw [ho]
    refine ⟨⟨by decide, by decide⟩, ?_, ?_⟩
    · rintro _ ⟨⟩
      exact ⟨by decide, by decide⟩
    · rintro _ ⟨⟩
      exact ⟨by decide, by decide⟩
  have h : o.WordedAs ["--keep-partial", "--output=config=-c", "-c", "output", "--", "output"] := by
    rw [ho]
    exact ⟨[(.keepPartial, ""), (.output, "config=-c"), (.config, "output"),
      (.description, "output")], by decide,
      .cons .keepPartial (.cons (.output .attached) (.cons (.config .short) (.divided _)))⟩
  have h' : o.WordedAs ["output", "--config=output", "--keep-partial", "-o", "config=-c"] := by
    rw [ho]
    exact ⟨[(.description, "output"), (.config, "output"), (.keepPartial, ""),
      (.output, "config=-c")], by decide,
      .cons (.description _) (.cons (.config .attached)
        (.cons .keepPartial (.cons (.output .short) .nil)))⟩
  exact ⟨o, _, _, ho, rfl, rfl, hplain, h, h', run_eq_of_wordedAs hplain h h'⟩

end TreeKinds.Run
