import Mathlib.Algebra.GroupWithZero.Nat
import ScriptLiteral.Proofs.VerboseArguments

/-!
# Arranged arguments

The same literals and options can be typed in many arrangements. The literals keep their order, but
each option may stand anywhere among them and in any of its spellings, and the letters for more log
may share the dash of another one. An `Item` is what is typed in one go, a literal or an option in
one spelling; an arrangement is a list of items, and `Arranges` says what it arranges.

Reading an item is giving what it asks for to the options read before it, and this does not depend
on how it is spelled (`Progress.IsOpen.comes_item`). An option with a value takes effect as late as
the next item does, so what has been read is told by what it comes to once it is settled,
`Progress.Comes`. Item by item it follows that a whole arrangement comes to what its items give one
after the other (`Options.read_items`).

What they give in the end is a matter of their contents alone, which the order of the options has no
part in (`Options.foldlM_give_cases`). The main result, `Options.read_arranged`, puts the two
together.
-/

namespace ScriptLiteral

open Progress (IsValue)

/-! ## Spellings -/

/-- The long name of an option with a value. -/
def Setting.name : Setting → List Char
  | kind => "kind".toList
  | file => "file".toList

/-- Its letter. -/
def Setting.letter : Setting → Char
  | kind => 'k'
  | file => 'f'

/-- In which way an option is typed with its value. Where it is typed by its letter, letters that
ask for more log may come before it. -/
inductive Spelling
  /-- the long name, and the value as the next argument -/
  | long
  /-- the long name, an equals sign and the value -/
  | longEquals
  /-- the letter, and the value as the next argument -/
  | letter (more : Nat)
  /-- the letter and right after it the value -/
  | letterAttached (more : Nat)
  /-- the letter, an equals sign and the value -/
  | letterEquals (more : Nat)

namespace Spelling

/-- How many letters that ask for more log come before the letter. -/
def more : Spelling → Nat
  | long | longEquals => 0
  | letter n | letterAttached n | letterEquals n => n

/-- The arguments for an option and its value. -/
def arguments (s : Setting) (value : String) : Spelling → List String
  | long => [String.ofList ('-' :: '-' :: s.name), value]
  | longEquals => [String.ofList ('-' :: '-' :: (s.name ++ '=' :: value.toList))]
  | letter n => [String.ofList ('-' :: (List.replicate n 'v' ++ [s.letter])), value]
  | letterAttached n =>
    [String.ofList ('-' :: (List.replicate n 'v' ++ s.letter :: value.toList))]
  | letterEquals n =>
    [String.ofList ('-' :: (List.replicate n 'v' ++ s.letter :: '=' :: value.toList))]

/-- The value can be typed in this way: as an argument of its own it must not look like an option,
and right after the letter it must not be empty or look like an equals sign and another value. -/
def Fits (value : String) : Spelling → Prop
  | long | letter _ => IsValue value
  | longEquals | letterEquals _ => True
  | letterAttached _ => value.toList ≠ [] ∧ value.toList.head? ≠ some '='

/-- The names of kinds can be typed in all ways. -/
theorem fits_word (k : Kind) (how : Spelling) : how.Fits k.word := by
  cases how with
  | long | letter => exact k.isValue_word
  | longEquals | letterEquals => trivial
  | letterAttached => cases k <;> exact ⟨by decide, by decide⟩

end Spelling

/-! ## Items -/

/-- What is typed in one go. -/
inductive Item
  /-- a literal -/
  | literal (text : String) (h : IsValue text)
  /-- the option for kinds -/
  | kind (k : Kind) (how : Spelling)
  /-- the option for a file -/
  | file (name : String) (how : Spelling) (h : how.Fits name)
  /-- the option for records -/
  | json
  /-- the option for more log by its long name -/
  | verbose
  /-- one letter that asks for more log, and further ones after the same dash -/
  | letters (further : Nat)

namespace Item

/-- The arguments for an item. -/
def arguments : Item → List String
  | literal text _ => [text]
  | kind k how => how.arguments .kind k.word
  | file name how _ => how.arguments .file name
  | json => ["--json"]
  | verbose => ["--verbose"]
  | letters n => [String.ofList ('-' :: List.replicate (n + 1) 'v')]

/-- The literal, if the item is one. -/
def literals : Item → List String
  | literal text _ => [text]
  | _ => []

/-- The kind that is asked for, if one is. -/
def kinds : Item → List Kind
  | kind k _ => [k]
  | _ => []

/-- The file that is asked for, if one is. -/
def files : Item → List String
  | file name _ _ => [name]
  | _ => []

/-- How often records are asked for. -/
def jsons : Item → Nat
  | json => 1
  | _ => 0

/-- How often more log is asked for. -/
def more : Item → Nat
  | kind _ how => how.more
  | file _ how _ => how.more
  | verbose => 1
  | letters n => n + 1
  | _ => 0

end Item

/-- The items are the literals in this order, and among them the options, each of them once; more
log is asked for as often as the last number says. -/
structure Arranges (items : List Item) (literals : List String) (kind : Option Kind)
    (file : Option String) (json : Bool) (verbosity : Nat) : Prop where
  /-- the literals keep their order -/
  literals_eq : items.flatMap Item.literals = literals
  /-- a kind is asked for at most once -/
  kinds_eq : items.flatMap Item.kinds = kind.toList
  /-- a file is asked for at most once -/
  files_eq : items.flatMap Item.files = file.toList
  /-- records are asked for at most once -/
  jsons_eq : (items.map Item.jsons).sum = json.toNat
  /-- all that asks for more log counts -/
  more_eq : (items.map Item.more).sum = verbosity

/-! ## What an item gives -/

namespace Options

variable {o o' : Options}

/-- The options with more log asked for so many times more. -/
def askMore (o : Options) (n : Nat) : Options :=
  { o with verbosity := if n = 0 then o.verbosity else min (o.verbosity + n) maxVerbosity }

theorem askMore_zero (o : Options) : o.askMore 0 = o := rfl

theorem askMore_askMore (o : Options) (m n : Nat) :
    (o.askMore m).askMore n = o.askMore (m + n) := by
  refine Options.ext rfl rfl rfl rfl ?_
  simp only [askMore]
  split <;> split <;> split <;> omega

/-- The options with what an item asks for besides more log. -/
def add (o : Options) : Item → Except Stop Options
  | .literal text _ => .ok { o with literals := o.literals ++ [text] }
  | .kind k _ => o.set .kind k.word
  | .file name _ _ => o.set .file name
  | .json => o.turnOn .json
  | .verbose | .letters _ => .ok o

/-- The options with all that an item asks for. -/
def give (o : Options) (i : Item) : Except Stop Options := (o.askMore i.more).add i

end Options

/-! ## Reading items -/

namespace Progress

variable {p : Progress} {s : Setting} {value text : String}

/-- More items may follow: no two dashes have been read, and no option waits for its value. -/
structure IsOpen (p : Progress) : Prop where
  /-- the options have not ended -/
  not_ended : p.ended = false
  /-- a pending option has its value -/
  not_waiting : ∀ s, p.pending ≠ some ⟨s, none⟩

theorem isOpen_start : start.IsOpen := ⟨rfl, nofun⟩

/-- What has been read comes to `r` once it is settled, and more items may follow. -/
structure Comes (x : Except Stop Progress) (r : Except Stop Options) : Prop where
  /-- what is pending may have to be settled yet -/
  settle_eq : x >>= settle = r
  /-- if reading has not failed, it may go on -/
  isOpen : ∀ p, x = .ok p → p.IsOpen

theorem comes_error (stop : Stop) : Comes (.error stop) (.error stop) := ⟨rfl, nofun⟩

theorem comes_settled (r : Except Stop Options) :
    Comes (r >>= fun o => .ok ⟨o, none, false⟩) r := by
  cases r with
  | error stop => exact comes_error stop
  | ok o =>
    refine ⟨rfl, ?_⟩
    rintro p ⟨⟩
    exact ⟨rfl, nofun⟩

/-- What begins by settling what is pending is told by what it does then. -/
theorem comes_settle {f : Options → Except Stop Progress} {g : Options → Except Stop Options}
    (h : ∀ o, Comes (f o) (g o)) (p : Progress) : Comes (p.settle >>= f) (p.settle >>= g) := by
  cases p.settle with
  | error stop => exact comes_error stop
  | ok o => exact h o

/-! ### Literals and options without a value -/

theorem IsOpen.comes_literal (hp : p.IsOpen) (h : IsValue text) :
    Comes (p.take text)
      (p.settle >>= fun o => .ok { o with literals := o.literals ++ [text] }) := by
  have hplain : p.takePlain text = p.takeLiteral text := by
    unfold takePlain
    split
    · next s hwaits => exact absurd hwaits (hp.not_waiting s)
    · rfl
  rw [take_of_isValue hp.not_ended h, hplain, takeLiteral, hp.not_ended]
  exact comes_settle (fun o => comes_settled (.ok { o with literals := o.literals ++ [text] })) p

theorem IsOpen.comes_switch (hp : p.IsOpen) (sw : Switch) :
    Comes (p.takeSwitch sw) (p.settle >>= fun o => o.turnOn sw) := by
  rw [takeSwitch, hp.not_ended]
  exact comes_settle (fun o => comes_settled (o.turnOn sw)) p

/-- Letters that ask for more log settle what is pending, and the letters after them go on from
there. -/
theorem takeShort_letters (p : Progress) (n : Nat) (cs : List Char) :
    p.takeShort (List.replicate (n + 1) 'v' ++ cs) =
      p.settle >>= fun o => takeShort ⟨o.askMore (n + 1), none, p.ended⟩ cs := by
  have hone : ∀ (q : Progress) (cs : List Char), q.takeShort ('v' :: cs) =
      q.settle >>= fun o => takeShort ⟨o.askMore 1, none, q.ended⟩ cs := by
    intro q cs
    change (q.takeSwitch .verbose >>= fun q => q.takeShort cs) = _
    rw [takeSwitch]
    cases q.settle <;> rfl
  induction n generalizing p with
  | zero => exact hone p cs
  | succ n ih =>
    rw [List.replicate_succ, List.cons_append, hone]
    refine bind_congr fun o => ?_
    rw [ih]
    change takeShort ⟨(o.askMore 1).askMore (n + 1), none, p.ended⟩ cs = _
    rw [Options.askMore_askMore, Nat.add_comm 1]

/-! ### Options with a value -/

/-- To take an option with a value is to settle what is pending first. -/
theorem takeSetting_eq (p : Progress) (s : Setting) (value : Option String) :
    p.takeSetting s value = p.settle >>= fun o => takeSetting ⟨o, none, p.ended⟩ s value := by
  simp only [takeSetting]
  cases p.settle <;> rfl

theorem take_name (hp : p.ended = false) (s : Setting) :
    p.take (String.ofList ('-' :: '-' :: s.name)) =
      p.settle >>= fun o => takeSetting ⟨o, none, false⟩ s none := by
  rw [← hp, ← takeSetting_eq, take, hp]
  cases s <;> rfl

theorem take_nameEquals (hp : p.ended = false) (s : Setting) (cs : List Char) :
    p.take (String.ofList ('-' :: '-' :: (s.name ++ '=' :: cs))) =
      p.settle >>= fun o => takeSetting ⟨o, none, false⟩ s (some (String.ofList cs)) := by
  have harg : String.ofList ('-' :: '-' :: (s.name ++ '=' :: cs)) ≠ "--" := by
    intro h
    have hcs := congrArg String.toList h
    cases s <;> cases String.toList_ofList.symm.trans hcs
  have hsplit : splitAtFirst '=' (s.name ++ '=' :: cs) = (s.name, some cs) :=
    splitAtFirst_append (by cases s <;> decide)
  have hname : Named.ofLong? s.name = some (.setting s) := by cases s <;> rfl
  rw [take_long hp String.toList_ofList harg, takeLong, hsplit, ← hp, ← takeSetting_eq]
  simp only [hname]
  rfl

theorem take_letter (hp : p.ended = false) (s : Setting) (n : Nat) (cs : List Char) :
    p.take (String.ofList ('-' :: (List.replicate n 'v' ++ s.letter :: cs))) =
      p.settle >>= fun o => takeSetting ⟨o.askMore n, none, false⟩ s (attached cs) := by
  have hletter : ∀ q : Progress, q.takeShort (s.letter :: cs) = q.takeSetting s (attached cs) := by
    intro q
    cases s <;> rfl
  cases n with
  | zero =>
    have hdash : s.letter ≠ '-' := by cases s <;> decide
    rw [List.replicate_zero, List.nil_append, take_short hp String.toList_ofList hdash, hletter,
      takeSetting_eq, hp]
    rfl
  | succ n =>
    have htake : p.take (String.ofList ('-' :: (List.replicate (n + 1) 'v' ++ s.letter :: cs))) =
        p.takeShort (List.replicate (n + 1) 'v' ++ s.letter :: cs) :=
      take_short hp String.toList_ofList (by decide)
    refine htake.trans ((takeShort_letters p n _).trans ?_)
    rw [hp]
    exact bind_congr fun o => hletter _

/-- An option that waits for its value gets it from the next argument. -/
theorem comes_next {arg : String} {n : Nat} (hvalue : IsValue value)
    (harg : p.take arg = p.settle >>= fun o => takeSetting ⟨o.askMore n, none, false⟩ s none) :
    Comes ([arg, value].foldlM take p) (p.settle >>= fun o => (o.askMore n).set s value) := by
  rw [List.foldlM_cons, harg, bind_assoc]
  refine comes_settle (fun o => ?_) p
  change Comes ([value].foldlM take ⟨o.askMore n, some ⟨s, none⟩, false⟩) _
  rw [foldlM_take_singleton, take_of_isValue rfl hvalue]
  refine ⟨rfl, ?_⟩
  rintro q ⟨⟩
  exact ⟨rfl, nofun⟩

/-- An option that has its value with it takes effect at once. -/
theorem comes_attached {arg : String} {n : Nat}
    (harg : p.take arg =
      p.settle >>= fun o => takeSetting ⟨o.askMore n, none, false⟩ s (some value)) :
    Comes ([arg].foldlM take p) (p.settle >>= fun o => (o.askMore n).set s value) := by
  rw [foldlM_take_singleton, harg]
  exact comes_settle (fun o => comes_settled ((o.askMore n).set s value)) p

/-- **All spellings** of an option with its value come to the same. -/
theorem IsOpen.comes_setting (hp : p.IsOpen) {how : Spelling} (h : how.Fits value) (s : Setting) :
    Comes ((how.arguments s value).foldlM take p)
      (p.settle >>= fun o => (o.askMore how.more).set s value) := by
  cases how with
  | long => exact comes_next h (take_name hp.not_ended s)
  | longEquals =>
    refine comes_attached (n := 0) ?_
    rw [take_nameEquals hp.not_ended, String.ofList_toList]
    rfl
  | letter n => exact comes_next h (take_letter hp.not_ended s n [])
  | letterAttached n =>
    have hattached : attached value.toList = some value := by
      obtain ⟨hne, hhead⟩ := h
      unfold attached
      split
      · next hnil => exact absurd hnil hne
      · next heq => exact absurd (heq ▸ rfl) hhead
      · rw [String.ofList_toList]
    refine comes_attached (n := n) ?_
    rw [take_letter hp.not_ended, hattached]
  | letterEquals n =>
    refine comes_attached (n := n) ?_
    rw [take_letter hp.not_ended, attached, String.ofList_toList]

/-! ### All items -/

/-- **Reading an item** gives what it asks for to what has been read, however it is spelled. -/
theorem IsOpen.comes_item (hp : p.IsOpen) (i : Item) :
    Comes (i.arguments.foldlM take p) (p.settle >>= fun o => o.give i) := by
  cases i with
  | literal text h =>
    rw [Item.arguments, foldlM_take_singleton]
    exact hp.comes_literal h
  | kind k how => exact hp.comes_setting (how.fits_word k) .kind
  | file name how h => exact hp.comes_setting h .file
  | json =>
    have harg : p.take "--json" = p.takeSwitch .json := by
      rw [take, hp.not_ended]
      rfl
    rw [Item.arguments, foldlM_take_singleton, harg]
    exact hp.comes_switch .json
  | verbose =>
    have harg : p.take "--verbose" = p.takeSwitch .verbose := by
      rw [take, hp.not_ended]
      rfl
    rw [Item.arguments, foldlM_take_singleton, harg]
    exact hp.comes_switch .verbose
  | letters n =>
    have harg : p.take (String.ofList ('-' :: List.replicate (n + 1) 'v')) =
        p.takeShort (List.replicate (n + 1) 'v') :=
      take_short hp.not_ended String.toList_ofList (by decide)
    have hletters := takeShort_letters p n []
    rw [List.append_nil, hp.not_ended] at hletters
    rw [Item.arguments, foldlM_take_singleton, harg, hletters]
    exact comes_settle (fun o => comes_settled (.ok (o.askMore (n + 1)))) p

/-- Reading items gives what they ask for one after the other. -/
theorem IsOpen.comes_items (hp : p.IsOpen) (items : List Item) :
    Comes ((items.flatMap Item.arguments).foldlM take p)
      (p.settle >>= fun o => items.foldlM Options.give o) := by
  induction items generalizing p with
  | nil =>
    refine ⟨?_, ?_⟩
    · change p.settle = _
      cases p.settle <;> rfl
    · rintro q ⟨⟩
      exact hp
  | cons i items ih =>
    have hstep := hp.comes_item i
    rw [List.flatMap_cons, List.foldlM_append]
    simp only [List.foldlM_cons]
    rw [← bind_assoc, ← hstep.settle_eq]
    cases hx : i.arguments.foldlM take p with
    | error stop => exact comes_error stop
    | ok q => exact ih (hstep.isOpen q hx)

/-- Two dashes settle what is pending and make literals of all that follows. -/
theorem Comes.takeAll_dashes {x : Except Stop Progress} {r : Except Stop Options} (h : Comes x r)
    (rest : List String) :
    (x >>= fun p => p.takeAll ("--" :: rest)) =
      r >>= fun o => .ok { o with literals := o.literals ++ rest } := by
  obtain ⟨rfl, hopen⟩ := h
  cases x with
  | error stop => rfl
  | ok p =>
    have hended := (hopen p rfl).not_ended
    change p.takeAll ("--" :: rest) = p.settle >>= _
    cases hsettle : p.settle with
    | error stop => exact takeAll_dashes_of_error hended hsettle
    | ok o => exact AsksFor.takeAll_dashes ⟨hsettle, hended⟩ rest

end Progress

/-! ## What items give together -/

/-- What options hold and items ask for, together and before it is known whether they agree. -/
structure Contents where
  /-- the literals in order -/
  literals : List String
  /-- all kinds -/
  kinds : List Kind
  /-- all files -/
  files : List String
  /-- how often records are asked for -/
  jsons : Nat
  /-- the verbosity -/
  verbosity : Nat

/-- Something that may be asked for once is asked for more often. -/
def Contents.Repeats (c : Contents) : Prop :=
  1 < c.kinds.length ∨ 1 < c.files.length ∨ 1 < c.jsons

namespace Options

variable {o o' : Options} {i : Item} {items : List Item}

/-- **Reading an arrangement** comes to what its items give. -/
theorem read_items (items : List Item) :
    read (items.flatMap Item.arguments) = items.foldlM give .empty := by
  rw [read, ← List.append_nil (items.flatMap _), Progress.takeAll_append]
  exact (Progress.isOpen_start.comes_items items).settle_eq

/-- After two dashes, literals are added. -/
theorem read_items_dashes (items : List Item) (rest : List String) :
    read (items.flatMap Item.arguments ++ "--" :: rest) =
      items.foldlM give .empty >>= fun o => .ok { o with literals := o.literals ++ rest } := by
  rw [read, Progress.takeAll_append]
  exact (Progress.isOpen_start.comes_items items).takeAll_dashes rest

/-- The contents of options and of the items after them. -/
def contents (o : Options) (items : List Item) : Contents where
  literals := o.literals ++ items.flatMap Item.literals
  kinds := o.kind.toList ++ items.flatMap Item.kinds
  files := o.file.toList ++ items.flatMap Item.files
  jsons := o.json.toNat + (items.map Item.jsons).sum
  verbosity := (o.askMore (items.map Item.more).sum).verbosity

theorem contents_nil (o : Options) :
    o.contents [] = ⟨o.literals, o.kind.toList, o.file.toList, o.json.toNat, o.verbosity⟩ := by
  simp [contents, askMore_zero]

/-- Options are known by their contents. -/
theorem contents_nil_inj : o.contents [] = o'.contents [] ↔ o = o' := by
  refine ⟨fun h => ?_, congrArg (contents · [])⟩
  obtain ⟨literals, kind, file, json, verbosity⟩ := o
  obtain ⟨literals', kind', file', json', verbosity'⟩ := o'
  simp only [contents_nil, Contents.mk.injEq] at h
  obtain ⟨rfl, hkind, hfile, hjson, rfl⟩ := h
  obtain rfl : kind = kind' := by simpa using congrArg List.head? hkind
  obtain rfl : file = file' := by simpa using congrArg List.head? hfile
  obtain rfl : json = json' := by cases json <;> cases json' <;> first | rfl | cases hjson
  rfl

/-- Options alone hold nothing twice. -/
theorem not_repeats_contents_nil (o : Options) : ¬ (o.contents []).Repeats := by
  rw [contents_nil, Contents.Repeats]
  cases o.kind <;> cases o.file <;> cases o.json <;> simp

/-- The second options hold what the first do, and what the item asks for besides more log. -/
structure Adds (o : Options) (i : Item) (o' : Options) : Prop where
  /-- a literal comes last -/
  literals_eq : o'.literals = o.literals ++ i.literals
  /-- a kind has not been asked for before -/
  kinds_eq : o'.kind.toList = o.kind.toList ++ i.kinds
  /-- nor has a file -/
  files_eq : o'.file.toList = o.file.toList ++ i.files
  /-- nor have records -/
  jsons_eq : o'.json.toNat = o.json.toNat + i.jsons
  /-- the verbosity is left alone -/
  verbosity_eq : o'.verbosity = o.verbosity

/-- An item is refused if it asks for something a second time, and otherwise it is added. -/
theorem add_cases (o : Options) (i : Item) :
    o.add i = .error .repeated ∧ (o.contents [i]).Repeats ∨
      ∃ o', o.add i = .ok o' ∧ o.Adds i o' := by
  cases i with
  | literal text h =>
    exact .inr ⟨_, rfl, ⟨rfl, by simp [Item.kinds], by simp [Item.files], rfl, rfl⟩⟩
  | kind k how =>
    cases hkind : o.kind with
    | none =>
      exact .inr ⟨_, set_word hkind k,
        ⟨by simp [Item.literals], by simp [hkind, Item.kinds], by simp [Item.files], rfl, rfl⟩⟩
    | some k' =>
      refine .inl ⟨if_pos (congrArg Option.isSome hkind), .inl ?_⟩
      simp [contents, hkind, Item.kinds]
  | file name how h =>
    cases hfile : o.file with
    | none =>
      exact .inr ⟨_, set_file hfile name,
        ⟨by simp [Item.literals], by simp [Item.kinds], by simp [hfile, Item.files], rfl, rfl⟩⟩
    | some name' =>
      refine .inl ⟨if_pos (congrArg Option.isSome hfile), .inr (.inl ?_)⟩
      simp [contents, hfile, Item.files]
  | json =>
    cases hjson : o.json with
    | false =>
      exact .inr ⟨_, turnOn_json hjson,
        ⟨by simp [Item.literals], by simp [Item.kinds], by simp [Item.files],
          by simp [hjson, Item.jsons], rfl⟩⟩
    | true =>
      refine .inl ⟨if_pos hjson, .inr (.inr ?_)⟩
      simp [contents, hjson, Item.jsons]
  | verbose | letters =>
    exact .inr ⟨o, rfl,
      ⟨by simp [Item.literals], by simp [Item.kinds], by simp [Item.files], rfl, rfl⟩⟩

/-- What is added is what the contents have more. -/
theorem Adds.contents_eq (h : (o.askMore i.more).Adds i o') (items : List Item) :
    o'.contents items = o.contents (i :: items) := by
  have hverbosity : (o'.askMore (items.map Item.more).sum).verbosity =
      (o.askMore (i.more + (items.map Item.more).sum)).verbosity := by
    rw [← askMore_askMore, askMore, h.verbosity_eq]
    rfl
  simp only [contents, List.flatMap_cons, List.map_cons, List.sum_cons, h.literals_eq, h.kinds_eq,
    h.files_eq, h.jsons_eq, hverbosity, List.append_assoc, Nat.add_assoc]
  rfl

/-- More items do not undo a repetition. -/
theorem repeats_contents_cons {n : Nat} (h : ((o.askMore n).contents [i]).Repeats)
    (items : List Item) : (o.contents (i :: items)).Repeats := by
  simp only [contents, askMore, Contents.Repeats, List.length_append, List.flatMap_cons,
    List.flatMap_nil, List.append_nil, List.map_cons, List.map_nil, List.sum_cons,
    List.sum_nil] at h ⊢
  omega

/-- **What items give**: if something is asked for a second time nothing, and otherwise the options
with just their contents. -/
theorem foldlM_give_cases (o : Options) (items : List Item) :
    items.foldlM give o = .error .repeated ∧ (o.contents items).Repeats ∨
      ∃ o', items.foldlM give o = .ok o' ∧ o'.contents [] = o.contents items := by
  induction items generalizing o with
  | nil => exact .inr ⟨o, rfl, rfl⟩
  | cons i items ih =>
    rw [List.foldlM_cons, give]
    obtain ⟨herror, hrepeats⟩ | ⟨o', hok, hadds⟩ := (o.askMore i.more).add_cases i
    · rw [herror]
      exact .inl ⟨rfl, repeats_contents_cons hrepeats items⟩
    · rw [hok, ← hadds.contents_eq items]
      exact ih o'

theorem foldlM_give_of_repeats (h : (o.contents items).Repeats) :
    items.foldlM give o = .error .repeated := by
  obtain ⟨herror, -⟩ | ⟨o', -, hcontents⟩ := o.foldlM_give_cases items
  · exact herror
  · rw [← hcontents] at h
    exact absurd h o'.not_repeats_contents_nil

theorem foldlM_give_of_contents_eq (h : o.contents items = o'.contents []) :
    items.foldlM give o = .ok o' := by
  obtain ⟨-, hrepeats⟩ | ⟨o₁, hok, hcontents⟩ := o.foldlM_give_cases items
  · rw [h] at hrepeats
    exact absurd hrepeats o'.not_repeats_contents_nil
  · rw [hok, contents_nil_inj.mp (hcontents.trans h)]

/-! ## Arrangements -/

/-- The item asks for an option that has been asked for and may be asked for once. -/
def AsksAgain (o : Options) : Item → Prop
  | .kind _ _ => o.kind.isSome
  | .file _ _ _ => o.file.isSome
  | .json => o.json
  | _ => False

section Arranged

variable {literals : List String} {kind : Option Kind} {file : Option String} {json : Bool}
  {verbosity : Nat}

/-- The contents of an arrangement are what it arranges. -/
theorem contents_of_arranges (h : Arranges items literals kind file json verbosity) :
    empty.contents items =
      contents ⟨literals, kind, file, json, min verbosity maxVerbosity⟩ [] := by
  obtain ⟨hliterals, hkinds, hfiles, hjsons, hmore⟩ := h
  have hverbosity : (empty.askMore verbosity).verbosity = min verbosity maxVerbosity := by
    simp only [askMore, empty]
    split <;> omega
  rw [contents_nil, contents, hliterals, hkinds, hfiles, hjsons, hmore, hverbosity]
  simp [empty]

/-- One item more, anywhere, that asks for an option again makes a repetition. -/
theorem repeats_of_asksAgain {before after : List Item} {extra : Item}
    (h : Arranges (before ++ after) literals kind file json verbosity)
    (hextra : AsksAgain ⟨literals, kind, file, json, min verbosity maxVerbosity⟩ extra) :
    (empty.contents (before ++ extra :: after)).Repeats := by
  have hkinds := congrArg List.length h.kinds_eq
  have hfiles := congrArg List.length h.files_eq
  have hjsons := h.jsons_eq
  simp only [List.flatMap_append, List.map_append, List.sum_append, List.length_append]
    at hkinds hfiles hjsons
  simp only [contents, Contents.Repeats, List.flatMap_append, List.flatMap_cons, List.map_append,
    List.map_cons, List.sum_append, List.sum_cons, List.length_append]
  cases extra with
  | kind k how =>
    obtain ⟨k', rfl⟩ := Option.isSome_iff_exists.mp hextra
    simp only [Option.toList_some, List.length_singleton] at hkinds
    simp only [Item.kinds, List.length_singleton]
    omega
  | file name how hname =>
    obtain ⟨name', rfl⟩ := Option.isSome_iff_exists.mp hextra
    simp only [Option.toList_some, List.length_singleton] at hfiles
    simp only [Item.files, List.length_singleton]
    omega
  | json =>
    obtain rfl : json = true := hextra
    simp only [Bool.toNat_true] at hjsons
    simp only [Item.jsons]
    omega
  | literal | verbose | letters => exact hextra.elim

/-- **Arrangements are read as what they arrange.** Whatever the order of the options among the
literals and whatever their spellings, reading recovers the literals, the kind, the file, whether
records are asked for, and how often more log is, as far as that is told apart. Two dashes and any
further literals may follow. With one item more that asks again for the kind, the file or records,
wherever it stands, the command line is refused. -/
theorem read_arranged (h : Arranges items literals kind file json verbosity)
    (rest : List String) :
    let o : Options := ⟨literals, kind, file, json, min verbosity maxVerbosity⟩
    read (items.flatMap Item.arguments ++ "--" :: rest) =
        .ok { o with literals := literals ++ rest } ∧
      read (items.flatMap Item.arguments) = .ok o ∧
      ∀ before after extra, items = before ++ after → o.AsksAgain extra →
        let more := (before ++ extra :: after).flatMap Item.arguments
        read (more ++ "--" :: rest) = .error .repeated ∧ read more = .error .repeated := by
  intro o
  have hgive : items.foldlM give empty = .ok o :=
    foldlM_give_of_contents_eq (contents_of_arranges h)
  refine ⟨?_, ?_, ?_⟩
  · rw [read_items_dashes, hgive]
    rfl
  · rw [read_items, hgive]
  · rintro before after extra rfl hextra
    have hrepeated : (before ++ extra :: after).foldlM give empty = .error .repeated :=
      foldlM_give_of_repeats (repeats_of_asksAgain h hextra)
    refine ⟨?_, ?_⟩
    · rw [read_items_dashes, hrepeated]
      rfl
    · rw [read_items, hrepeated]

/-- Two literals, one of them a dash, with the options between them. -/
theorem read_arranged_mixed :
    let items : List Item :=
      [.literal "1" (.inr (by decide)), .kind .number (.letterEquals 2), .json,
        .file "-" .long (.inl rfl), .verbose, .literal "-" (.inl rfl)]
    Arranges items ["1", "-"] (some .number) (some "-") true 3 ∧
      read ["1", "-vvk=number", "--json", "--file", "-", "--verbose", "-", "--", "--json"] =
        .ok ⟨["1", "-", "--json"], some .number, some "-", true, 3⟩ ∧
      read ["1", "-vvk=number", "--json", "-knull", "--file", "-", "--verbose", "-"] =
        .error .repeated := by
  intro items
  have harranges : Arranges items ["1", "-"] (some .number) (some "-") true 3 :=
    ⟨rfl, rfl, rfl, rfl, rfl⟩
  obtain ⟨hdashes, -, hagain⟩ := read_arranged harranges ["--json"]
  exact ⟨harranges, hdashes,
    (hagain (items.take 3) (items.drop 3) (.kind .null (.letterAttached 0)) rfl rfl).2⟩

end Arranged

end Options

end ScriptLiteral
