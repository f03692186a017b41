import ScriptLiteral.Command.Options

/-!
# Command lines that are read

Reading goes on from argument to argument, so a command line can be read in two parts
(`Progress.takeAll_append`). Where only options have been read, `Progress.AsksFor` says which ones
they come to, with the option that still waits to be settled. From there two dashes make literals of
all that follows (`Options.read_dashes`), whatever the options were and in which way they were
spelled. Everywhere else too the literals are arguments in their order (`Options.literals_sublist`).
-/

namespace ScriptLiteral

namespace Progress

variable {p : Progress} {o : Options} {args : List String}

/-- **Arguments are read one after the other**, so those in front can be read first. -/
theorem takeAll_append (p : Progress) (as bs : List String) :
    p.takeAll (as ++ bs) = as.foldlM take p >>= fun p => p.takeAll bs := by
  induction as generalizing p with
  | nil => rfl
  | cons arg as ih =>
    rw [List.cons_append, takeAll, List.foldlM_cons]
    cases p.take arg with
    | error stop => rfl
    | ok p => exact ih p

/-- After the end of the options, all arguments are literals. -/
theorem takeAll_of_ended (hended : p.ended = true) (h : p.settle = .ok o) (args : List String) :
    p.takeAll args = .ok { o with literals := o.literals ++ args } := by
  induction args generalizing p o with
  | nil => rw [takeAll, h, List.append_nil]
  | cons arg args ih =>
    have htake : p.take arg = .ok ⟨{ o with literals := o.literals ++ [arg] }, none, true⟩ := by
      simp only [take, hended, takeLiteral, h]
      rfl
    rw [takeAll, htake]
    refine (ih rfl rfl).trans ?_
    rw [List.append_assoc, List.singleton_append]

/-- What has been read are options that come to `o`, and more options may follow. -/
structure AsksFor (p : Progress) (o : Options) : Prop where
  /-- the option that waits, if there is one, has all that it waits for -/
  settle_eq : p.settle = .ok o
  /-- no two dashes have been read -/
  not_ended : p.ended = false

theorem asksFor_start : start.AsksFor .empty := ⟨rfl, rfl⟩

/-- Two dashes end the options, and a waiting option goes on to wait. -/
theorem take_dashes (h : p.ended = false) : p.take "--" = .ok { p with ended := true } := by
  rw [take, h]
  rfl

/-- After two dashes come literals. -/
theorem AsksFor.takeAll_dashes (h : p.AsksFor o) (args : List String) :
    p.takeAll ("--" :: args) = .ok { o with literals := o.literals ++ args } := by
  rw [takeAll, take_dashes h.not_ended]
  exact takeAll_of_ended (p := ⟨p.options, p.pending, true⟩) rfl h.settle_eq args

/-- Two dashes that come to no literal end the options, and an option that waits is settled. -/
theorem asksFor_of_takeAll (h : p.takeAll ["--"] = .ok o) (hliterals : o.literals = []) :
    p.AsksFor o := by
  cases hended : p.ended with
  | false =>
    rw [takeAll, take_dashes hended] at h
    exact ⟨h, hended⟩
  | true =>
    -- the options have ended before, so the two dashes are a literal
    cases hsettle : p.settle with
    | error stop =>
      simp only [takeAll, take, hended, takeLiteral, hsettle] at h
      cases h
    | ok settled =>
      rw [takeAll_of_ended hended hsettle] at h
      cases h
      exact absurd hliterals (List.append_ne_nil_of_right_ne_nil _ (List.cons_ne_nil _ _))

/-! ## Asking for options -/

/-- From `p`, the arguments are options that come to `o`. -/
def Asks (p : Progress) (args : List String) (o : Options) : Prop :=
  ∃ q, args.foldlM take p = .ok q ∧ q.AsksFor o

/-- If the arguments before two dashes come to no literal, then they are options. -/
theorem asks_of_takeAll (h : p.takeAll (args ++ ["--"]) = .ok o) (hliterals : o.literals = []) :
    p.Asks args o := by
  rw [takeAll_append] at h
  cases hq : args.foldlM take p with
  | error stop =>
    rw [hq] at h
    cases h
  | ok q =>
    rw [hq] at h
    exact ⟨q, hq, asksFor_of_takeAll h hliterals⟩

/-- All that follows options and two dashes is literals. -/
theorem Asks.takeAll_dashes (h : p.Asks args o) (literals : List String) :
    p.takeAll (args ++ "--" :: literals) = .ok { o with literals := o.literals ++ literals } := by
  obtain ⟨q, hq, hasks⟩ := h
  rw [takeAll_append, hq]
  exact hasks.takeAll_dashes literals

/-- Options after options. -/
theorem Asks.append {as bs : List String} {o' : Options} (h : p.Asks as o)
    (hrest : ∀ q : Progress, q.AsksFor o → q.Asks bs o') : p.Asks (as ++ bs) o' := by
  obtain ⟨q, hq, hasks⟩ := h
  obtain ⟨r, hr, hasks'⟩ := hrest q hasks
  refine ⟨r, ?_, hasks'⟩
  rw [List.foldlM_append, hq]
  exact hr

theorem AsksFor.nil (h : p.AsksFor o) : p.Asks [] o := ⟨p, rfl, h⟩

/-- An option without a value, by the argument for it. -/
theorem AsksFor.switch {arg : String} {s : Switch} {o' : Options} (h : p.AsksFor o)
    (harg : p.take arg = p.takeSwitch s) (hs : o.turnOn s = .ok o') : p.Asks [arg] o' := by
  have htake : p.takeSwitch s = .ok ⟨o', none, p.ended⟩ := by
    simp only [takeSwitch, h.settle_eq]
    change (o.turnOn s >>= _) = _
    rw [hs]
    rfl
  refine ⟨⟨o', none, p.ended⟩, ?_, rfl, h.not_ended⟩
  rw [List.foldlM_cons, harg, htake]
  rfl

/-- An argument that can be the value of an option before it. -/
def IsValue (arg : String) : Prop := arg = "-" ∨ arg.toList.head? ≠ some '-'

/-- Such an argument is taken for the value that is waited for, or else for a literal. -/
theorem take_of_isValue {arg : String} (hended : p.ended = false) (harg : IsValue arg) :
    p.take arg = p.takePlain arg := by
  rw [take, hended, if_neg Bool.false_ne_true]
  rcases harg with rfl | hhead
  · rfl
  · -- all other forms begin with a dash
    split
    · next h => exact absurd (h ▸ rfl) hhead
    · next h => exact absurd (h ▸ rfl) hhead
    · next h => exact absurd (h ▸ rfl) hhead
    · rfl

/-- An option with a value, by the argument for it and the value as the next one. -/
theorem AsksFor.setting {arg value : String} {s : Setting} {o' : Options} (h : p.AsksFor o)
    (harg : p.take arg = p.takeSetting s none) (hvalue : IsValue value)
    (hs : o.set s value = .ok o') : p.Asks [arg, value] o' := by
  have htake : p.takeSetting s none = .ok ⟨o, some ⟨s, none⟩, p.ended⟩ := by
    simp only [takeSetting, h.settle_eq]
    rfl
  have hplain : take ⟨o, some ⟨s, none⟩, p.ended⟩ value =
      .ok ⟨o, some ⟨s, some value⟩, p.ended⟩ := take_of_isValue h.not_ended hvalue
  refine ⟨⟨o, some ⟨s, some value⟩, p.ended⟩, ?_, hs, h.not_ended⟩
  rw [List.foldlM_cons, harg, htake]
  change (take ⟨o, some ⟨s, none⟩, p.ended⟩ value >>= fun q => .ok q) = _
  rw [hplain]
  rfl

theorem take_verbose (hended : p.ended = false) : p.take "-v" = p.takeSwitch .verbose := by
  rw [take, hended]
  change (p.takeSwitch .verbose >>= fun q => .ok q) = _
  cases p.takeSwitch .verbose <;> rfl

/-- More log as often as it is asked for. -/
theorem AsksFor.verbose (h : p.AsksFor o) (ho : o.verbosity ≤ Options.maxVerbosity) (n : Nat) :
    p.Asks (List.replicate n "-v")
      { o with verbosity := min (o.verbosity + n) Options.maxVerbosity } := by
  induction n generalizing p o with
  | zero =>
    rw [Nat.add_zero, Nat.min_eq_left ho]
    exact h.nil
  | succ n ih =>
    have hstep : p.Asks ["-v"]
        { o with verbosity := min (o.verbosity + 1) Options.maxVerbosity } :=
      h.switch (take_verbose h.not_ended) rfl
    refine hstep.append fun q hq => ?_
    have hrest := ih hq (Nat.min_le_right _ _)
    have hcount : min (min (o.verbosity + 1) Options.maxVerbosity + n) Options.maxVerbosity =
        min (o.verbosity + (n + 1)) Options.maxVerbosity := by omega
    rwa [hcount] at hrest

end Progress

/-! ## The literals among the arguments -/

/-- What goes on to a result has come to one before. -/
theorem exists_of_bind_eq_ok {ε α β : Type} {x : Except ε α} {f : α → Except ε β} {b : β}
    (h : x >>= f = .ok b) : ∃ a, x = .ok a ∧ f a = .ok b := by
  cases x with
  | error e => cases h
  | ok a => exact ⟨a, rfl, h⟩

section Literals

variable {o o' : Options} {p q : Progress}

theorem Options.literals_set {s : Setting} {value : String} (h : o.set s value = .ok o') :
    o'.literals = o.literals := by
  cases s with
  | kind =>
    rw [set] at h
    split at h
    · cases h
    · split at h <;> cases h
      rfl
  | file =>
    rw [set] at h
    split at h <;> cases h
    rfl

theorem Options.literals_turnOn {s : Switch} (h : o.turnOn s = .ok o') :
    o'.literals = o.literals := by
  cases s with
  | json =>
    rw [turnOn] at h
    split at h <;> cases h
    rfl
  | verbose =>
    cases h
    rfl
  | help => cases h
  | version => cases h

namespace Progress

theorem literals_settle (h : p.settle = .ok o) : o.literals = p.options.literals := by
  rw [settle] at h
  split at h
  · cases h
    rfl
  · exact Options.literals_set h
  · cases h

theorem literals_takeSwitch {s : Switch} (h : p.takeSwitch s = .ok q) :
    q.options.literals = p.options.literals := by
  obtain ⟨settled, hsettle, h⟩ := exists_of_bind_eq_ok h
  obtain ⟨on, hon, h⟩ := exists_of_bind_eq_ok h
  cases h
  rw [Options.literals_turnOn hon, literals_settle hsettle]

theorem literals_takeSetting {s : Setting} {value : Option String}
    (h : p.takeSetting s value = .ok q) : q.options.literals = p.options.literals := by
  obtain ⟨settled, hsettle, h⟩ := exists_of_bind_eq_ok h
  cases value with
  | none =>
    cases h
    exact literals_settle hsettle
  | some value =>
    obtain ⟨set, hset, h⟩ := exists_of_bind_eq_ok h
    cases h
    rw [Options.literals_set hset, literals_settle hsettle]

theorem literals_takeLong {cs : List Char} (h : p.takeLong cs = .ok q) :
    q.options.literals = p.options.literals := by
  simp only [takeLong] at h
  split at h
  · cases h
  · cases h
  · exact literals_takeSwitch h
  · exact literals_takeSetting h

theorem literals_takeShort {cs : List Char} (h : p.takeShort cs = .ok q) :
    q.options.literals = p.options.literals := by
  induction cs generalizing p with
  | nil =>
    cases h
    rfl
  | cons c cs ih =>
    rw [takeShort] at h
    split at h
    · cases h
    · obtain ⟨p', hp', h⟩ := exists_of_bind_eq_ok h
      rw [ih h, literals_takeSwitch hp']
    · exact literals_takeSetting h

theorem literals_takeLiteral {arg : String} (h : p.takeLiteral arg = .ok q) :
    q.options.literals = p.options.literals ++ [arg] := by
  obtain ⟨settled, hsettle, h⟩ := exists_of_bind_eq_ok h
  cases h
  rw [← literals_settle hsettle]

/-- An argument becomes a literal after the earlier ones, or it becomes none. -/
theorem literals_take {arg : String} (h : p.take arg = .ok q) :
    q.options.literals = p.options.literals ∨
      q.options.literals = p.options.literals ++ [arg] := by
  rw [take] at h
  split at h
  · exact .inr (literals_takeLiteral h)
  · split at h
    · cases h
      exact .inl rfl
    · exact .inl (literals_takeLong h)
    · exact .inl (literals_takeShort h)
    · rw [takePlain] at h
      split at h
      · cases h
        exact .inl rfl
      · exact .inr (literals_takeLiteral h)

/-- What is read adds arguments to the literals, in their order. -/
theorem exists_literals_takeAll {args : List String} (h : p.takeAll args = .ok o) :
    ∃ more, more.Sublist args ∧ o.literals = p.options.literals ++ more := by
  induction args generalizing p with
  | nil => exact ⟨[], List.Sublist.refl [], by rw [literals_settle h, List.append_nil]⟩
  | cons arg args ih =>
    obtain ⟨q, hq, h⟩ := exists_of_bind_eq_ok h
    obtain ⟨more, hmore, ho⟩ := ih h
    obtain hsame | hadded := literals_take hq
    · exact ⟨more, hmore.cons arg, by rw [ho, hsame]⟩
    · refine ⟨arg :: more, hmore.cons_cons arg, ?_⟩
      rw [ho, hadded, List.append_assoc, List.singleton_append]

end Progress

/-- **The literals** of a command line are arguments, in the order of the arguments. -/
theorem Options.literals_sublist {args : List String} (h : Options.read args = .ok o) :
    o.literals.Sublist args := by
  obtain ⟨more, hmore, ho⟩ := Progress.exists_literals_takeAll h
  rw [ho]
  exact hmore

end Literals

/-! ## Choices -/

/-- The value of the option for kinds that names the kind. -/
def Kind.word : Kind → String
  | null => "null"
  | number => "number"
  | string => "string"
  | regularExpression => "regexp"
  | template => "template"

/-- The name of a kind does not look like an option. -/
theorem Kind.isValue_word (k : Kind) : Progress.IsValue k.word := by
  cases k <;> exact .inr (by decide)

namespace Options

open Progress (IsValue Asks AsksFor)

/-- Arguments that make a choice of options, each of them in its longest spelling but the last. -/
def choice (kind : Option Kind) (file : Option String) (json : Bool) (verbosity : Nat) :
    List String :=
  kind.elim [] (fun k => ["--kind", k.word]) ++ file.elim [] (fun name => ["--file", name]) ++
    (if json then ["--json"] else []) ++ List.replicate verbosity "-v"

variable {p : Progress} {o : Options}

theorem set_word (ho : o.kind = none) (k : Kind) :
    o.set .kind k.word = .ok { o with kind := some k } := by
  rw [set, ho]
  cases k <;> rfl

theorem set_file (ho : o.file = none) (name : String) :
    o.set .file name = .ok { o with file := some name } := by
  rw [set, ho]
  rfl

theorem turnOn_json (ho : o.json = false) : o.turnOn .json = .ok { o with json := true } := by
  rw [turnOn, ho]
  rfl

theorem asks_kind (h : p.AsksFor o) (ho : o.kind = none) (kind : Option Kind) :
    p.Asks (kind.elim [] fun k => ["--kind", k.word]) { o with kind := kind } := by
  cases kind with
  | none =>
    have hsame : { o with kind := none } = o := by rw [← ho]
    rw [hsame]
    exact h.nil
  | some k =>
    refine h.setting ?_ k.isValue_word (set_word ho k)
    rw [Progress.take, h.not_ended]
    rfl

theorem asks_file (h : p.AsksFor o) (ho : o.file = none) (file : Option String)
    (hfile : ∀ name ∈ file, IsValue name) :
    p.Asks (file.elim [] fun name => ["--file", name]) { o with file := file } := by
  cases file with
  | none =>
    have hsame : { o with file := none } = o := by rw [← ho]
    rw [hsame]
    exact h.nil
  | some name =>
    refine h.setting ?_ (hfile name rfl) (set_file ho name)
    rw [Progress.take, h.not_ended]
    rfl

theorem asks_json (h : p.AsksFor o) (ho : o.json = false) (json : Bool) :
    p.Asks (if json then ["--json"] else []) { o with json := json } := by
  cases json with
  | false =>
    have hsame : { o with json := false } = o := by rw [← ho]
    rw [hsame]
    exact h.nil
  | true =>
    refine h.switch ?_ (turnOn_json ho)
    rw [Progress.take, h.not_ended]
    rfl

/-- **Every choice** of options can be made. -/
theorem asks_choice (kind : Option Kind) (file : Option String) (json : Bool) (verbosity : Nat)
    (hfile : ∀ name ∈ file, IsValue name) :
    Progress.start.Asks (choice kind file json verbosity)
      ⟨[], kind, file, json, min verbosity maxVerbosity⟩ := by
  have h := ((asks_kind Progress.asksFor_start rfl kind).append
    fun q hq => asks_file hq rfl file hfile).append fun q hq => asks_json hq rfl json
  have hall := h.append fun q hq => hq.verbose (Nat.zero_le _) verbosity
  rwa [show empty.verbosity + verbosity = verbosity from Nat.zero_add verbosity] at hall

/-- **Two dashes** make literals of all that follows, whatever the options before them were and in
which way they were spelled. -/
theorem read_dashes {before : List String} (h : read (before ++ ["--"]) = .ok o)
    (hliterals : o.literals = []) (args : List String) :
    read (before ++ "--" :: args) = .ok { o with literals := args } := by
  rw [read, (Progress.asks_of_takeAll h hliterals).takeAll_dashes args, hliterals, List.nil_append]

/-- A choice of options as it is read. -/
theorem read_choice (kind : Option Kind) (file : Option String) (json : Bool) (verbosity : Nat)
    (hfile : ∀ name ∈ file, IsValue name) :
    read (choice kind file json verbosity ++ ["--"]) =
      .ok ⟨[], kind, file, json, min verbosity maxVerbosity⟩ :=
  (asks_choice kind file json verbosity hfile).takeAll_dashes []

end Options

end ScriptLiteral
