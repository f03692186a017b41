import ScriptLiteral.Proofs.Arguments

/-!
# Arguments that ask for more log

The option for more log may stand anywhere among the options, by its long name, by its letter or
among other letters, and as often as one likes. `withoutVerbose` leaves it out of a command line
wherever it stands, and `verboseCount` says how often it stood there. Both go by the spelling of the
arguments: they stop at two dashes, and they leave the value alone that follows the letter of its
option.

A command line that is read is read without the option too, and to the same options but for the
verbosity, which is the count as far as it is told apart (`Options.read_withoutVerbose`). To settle
what is pending is all that the option does besides, and settling can wait. So the two readings are
followed argument by argument: `Progress.Quiets` relates where they have come to.
-/

namespace ScriptLiteral

/-! ## Leaving the option out -/

/-- How often letters of short options ask for more log, and the letters that are left. After the
letter of an option with a value comes its value. -/
def splitLetters : List Char → Nat × List Char
  | [] => (0, [])
  | c :: cs =>
    if c = 'v' then ((splitLetters cs).1 + 1, (splitLetters cs).2)
    else if c = 'k' ∨ c = 'f' then (0, c :: cs)
    else ((splitLetters cs).1, c :: (splitLetters cs).2)

/-- How often an argument asks for more log, and what is left of it, if anything is. -/
def splitArgument (arg : String) : Nat × Option String :=
  match arg.toList with
  | '-' :: '-' :: cs => if String.ofList cs = "verbose" then (1, none) else (0, some arg)
  | '-' :: c :: cs =>
    ((splitLetters (c :: cs)).1,
      if (splitLetters (c :: cs)).2 = [] then none
      else some (String.ofList ('-' :: (splitLetters (c :: cs)).2)))
  | _ => (0, some arg)

section SplitArgument

variable {arg : String} {c : Char} {cs : List Char}

theorem splitArgument_verbose : splitArgument "--verbose" = (1, none) := rfl

theorem splitArgument_long (h : arg.toList = '-' :: '-' :: cs)
    (hcs : String.ofList cs ≠ "verbose") : splitArgument arg = (0, some arg) := by
  rw [splitArgument, h]
  exact if_neg hcs

theorem splitArgument_short (h : arg.toList = '-' :: c :: cs) (hc : c ≠ '-') :
    splitArgument arg = ((splitLetters (c :: cs)).1,
      if (splitLetters (c :: cs)).2 = [] then none
      else some (String.ofList ('-' :: (splitLetters (c :: cs)).2))) := by
  unfold splitArgument
  split
  · next h' => exact absurd (List.cons.inj (List.cons.inj (h.symm.trans h')).2).1 hc
  · next h' =>
    cases h.symm.trans h'
    rfl
  · next h' => exact absurd h (h' c cs)

theorem splitArgument_plain (h : ¬ ∃ c cs, arg.toList = '-' :: c :: cs) :
    splitArgument arg = (0, some arg) := by
  unfold splitArgument
  split
  · next h' => exact absurd ⟨_, _, h'⟩ h
  · next h' => exact absurd ⟨_, _, h'⟩ h
  · rfl

end SplitArgument

/-- How often a command line asks for more log. -/
def verboseCount : List String → Nat
  | [] => 0
  | arg :: args => if arg = "--" then 0 else (splitArgument arg).1 + verboseCount args

/-- A command line without what asks for more log. -/
def withoutVerbose : List String → List String
  | [] => []
  | arg :: args =>
    if arg = "--" then arg :: args else (splitArgument arg).2.toList ++ withoutVerbose args

section Insert

variable {as bs : List String} {flag : String} {k : Nat}

/-- Arguments before the end of the options are looked at one by one. -/
theorem withoutVerbose_append (has : "--" ∉ as) :
    withoutVerbose (as ++ bs) = withoutVerbose as ++ withoutVerbose bs := by
  induction as with
  | nil => rfl
  | cons arg as ih =>
    have harg : arg ≠ "--" := (List.ne_of_not_mem_cons has).symm
    rw [List.cons_append, withoutVerbose, withoutVerbose, if_neg harg, if_neg harg,
      ih (List.not_mem_of_not_mem_cons has), List.append_assoc]

theorem verboseCount_append (has : "--" ∉ as) :
    verboseCount (as ++ bs) = verboseCount as + verboseCount bs := by
  induction as with
  | nil => exact (Nat.zero_add _).symm
  | cons arg as ih =>
    have harg : arg ≠ "--" := (List.ne_of_not_mem_cons has).symm
    rw [List.cons_append, verboseCount, verboseCount, if_neg harg, if_neg harg,
      ih (List.not_mem_of_not_mem_cons has), Nat.add_assoc]

/-- **An argument that asks for more log**, and for nothing else, may be added anywhere before the
end of the options: nothing but the count tells. -/
theorem withoutVerbose_insert (has : "--" ∉ as) (hflag : splitArgument flag = (k, none)) :
    withoutVerbose (as ++ flag :: bs) = withoutVerbose (as ++ bs) ∧
      verboseCount (as ++ flag :: bs) = verboseCount (as ++ bs) + k := by
  have hdashes : flag ≠ "--" := by
    rintro rfl
    cases hflag
  rw [withoutVerbose_append has, withoutVerbose_append has, verboseCount_append has,
    verboseCount_append has, withoutVerbose, verboseCount, if_neg hdashes, if_neg hdashes, hflag]
  exact ⟨rfl, by omega⟩

example : withoutVerbose ["-vkv", "-vv", "--verbose", "--", "-v"] = ["-kv", "--", "-v"] := by
  decide +kernel

end Insert

/-- The options with no more log than in any case. -/
def Options.quiet (o : Options) : Options := { o with verbosity := 0 }

/-- What has been read, with no more log than in any case. -/
def Progress.quiet (p : Progress) : Progress := { p with options := p.options.quiet }

section Named

variable {c : Char} {name : List Char} {s : Setting}

theorem Named.ofShort?_eq_verbose_iff : ofShort? c = some (.switch .verbose) ↔ c = 'v' := by
  refine ⟨fun h => ?_, fun h => h ▸ rfl⟩
  unfold ofShort? at h
  split at h <;> simp_all

/-- The letters of options with a value. -/
theorem Named.ofShort?_eq_setting (h : ofShort? c = some (.setting s)) : c = 'k' ∨ c = 'f' := by
  unfold ofShort? at h
  split at h <;> simp_all

theorem Named.ofLong?_eq_verbose (h : ofLong? name = some (.switch .verbose)) :
    String.ofList name = "verbose" := by
  unfold ofLong? at h
  split at h <;> simp_all

end Named

/-- A text that is not split stays whole. -/
theorem splitAtFirst_of_none {c : Char} {cs : List Char} (h : (splitAtFirst c cs).2 = none) :
    (splitAtFirst c cs).1 = cs := by
  induction cs with
  | nil => rfl
  | cons d cs ih =>
    rw [splitAtFirst] at h ⊢
    split at h
    · cases h
    · next hd =>
      rw [if_neg hd]
      exact congrArg (d :: ·) (ih h)

/-! ## Taking arguments by their form -/

namespace Progress

section Forms

variable {p : Progress} {arg : String} {c : Char} {cs : List Char}

theorem take_long (hended : p.ended = false) (hcs : arg.toList = '-' :: '-' :: cs)
    (harg : arg ≠ "--") : p.take arg = p.takeLong cs := by
  rw [take, hended, if_neg Bool.false_ne_true, hcs]
  cases cs with
  | nil => exact absurd (String.toList_inj.mp hcs) harg
  | cons c cs => rfl

theorem take_short (hended : p.ended = false) (hcs : arg.toList = '-' :: c :: cs)
    (hc : c ≠ '-') : p.take arg = p.takeShort (c :: cs) := by
  rw [take, hended, if_neg Bool.false_ne_true, hcs]
  simp [hc]

/-- Without a letter after a dash, an argument can be a value. -/
theorem isValue_of_not_exists (harg : ¬ ∃ c cs, arg.toList = '-' :: c :: cs) : IsValue arg := by
  by_cases hhead : arg.toList.head? = some '-'
  · obtain ⟨cs, hcs⟩ := List.head?_eq_some_iff.mp hhead
    cases cs with
    | nil => exact .inl (String.toList_inj.mp hcs)
    | cons c cs => exact absurd ⟨c, cs, hcs⟩ harg
  · exact .inr hhead

theorem foldlM_take_singleton (p : Progress) (arg : String) :
    [arg].foldlM take p = p.take arg := by
  rw [List.foldlM_cons]
  cases p.take arg <;> rfl

end Forms

end Progress

/-! ## Steps that do not ask for more log -/

section Steps

variable {o o' : Options} {p p' q : Progress} {n : Nat} {s : Setting} {sw : Switch} {arg : String}
  {value : Option String} {cs : List Char}

theorem Options.set_quiet {value : String} (h : o.set s value = .ok o') :
    o.quiet.set s value = .ok o'.quiet ∧ o'.verbosity = o.verbosity := by
  cases s with
  | kind =>
    rw [set] at h
    split at h
    · cases h
    · next hnone =>
      split at h <;> cases h
      next k hk =>
      refine ⟨?_, rfl⟩
      have hquiet : ¬ o.quiet.kind.isSome = true := hnone
      rw [set, if_neg hquiet, hk]
      rfl
  | file =>
    rw [set] at h
    split at h <;> cases h
    next hnone => exact ⟨if_neg hnone, rfl⟩

theorem Options.turnOn_quiet (hs : sw ≠ .verbose) (h : o.turnOn sw = .ok o') :
    o.quiet.turnOn sw = .ok o'.quiet ∧ o'.verbosity = o.verbosity := by
  cases sw with
  | json =>
    rw [turnOn] at h
    split at h <;> cases h
    next hoff => exact ⟨if_neg hoff, rfl⟩
  | verbose => exact absurd rfl hs
  | help => cases h
  | version => cases h

namespace Progress

theorem takeSwitch_of_settle (ho : p.settle = .ok o) (hs : o.turnOn sw = .ok o') :
    p.takeSwitch sw = .ok ⟨o', none, p.ended⟩ := by
  rw [takeSwitch, ho]
  change (o.turnOn sw >>= _) = _
  rw [hs]
  rfl

theorem takeSetting_of_settle {value : String} (ho : p.settle = .ok o)
    (hs : o.set s value = .ok o') : p.takeSetting s (some value) = .ok ⟨o', none, p.ended⟩ := by
  rw [takeSetting, ho]
  change (o.set s value >>= _) = _
  rw [hs]
  rfl

theorem settle_quiet (h : p.settle = .ok o) :
    p.quiet.settle = .ok o.quiet ∧ o.verbosity = p.options.verbosity := by
  obtain ⟨options, _ | ⟨s, _ | value⟩, ended⟩ := p
  · cases h
    exact ⟨rfl, rfl⟩
  · cases h
  · exact Options.set_quiet h

/-- With what asks for more log, the arguments so far have come to `p`, and have asked for it `n`
times; without it they have come to `q`. The options have not ended. -/
structure Quiets (n : Nat) (p q : Progress) : Prop where
  /-- the verbosity is told apart up to its greatest value -/
  verbosity_eq : p.options.verbosity = min n Options.maxVerbosity
  /-- no two dashes have been read -/
  not_ended : p.ended = false ∧ q.ended = false
  /-- what is pending in one of them may be settled in the other already -/
  settle_eq : ∀ o, p.settle = .ok o → q.settle = .ok o.quiet
  /-- an option that waits for its value does so in both -/
  waits_iff : ∀ s, q.pending = some ⟨s, none⟩ ↔ p.pending = some ⟨s, none⟩
  /-- nothing has been settled since that option -/
  options_eq : ∀ s, p.pending = some ⟨s, none⟩ → q.options = p.options.quiet

/-- The same has been read, but for the verbosity. -/
theorem quiets_quiet (hverbosity : p.options.verbosity = min n Options.maxVerbosity)
    (hended : p.ended = false) : Quiets n p p.quiet where
  verbosity_eq := hverbosity
  not_ended := ⟨hended, hended⟩
  settle_eq _ ho := (settle_quiet ho).1
  waits_iff _ := Iff.rfl
  options_eq _ _ := rfl

section Quiets

variable (h : Quiets n p q)

include h

theorem Quiets.takeLiteral (hp : p.takeLiteral arg = .ok p') :
    q.takeLiteral arg = .ok p'.quiet ∧ Quiets n p' p'.quiet := by
  obtain ⟨o, ho, hp⟩ := exists_of_bind_eq_ok hp
  cases hp
  refine ⟨?_, quiets_quiet ((settle_quiet ho).2.trans h.verbosity_eq) h.not_ended.1⟩
  simp only [Progress.takeLiteral, h.settle_eq o ho, h.not_ended, quiet]
  rfl

theorem Quiets.takeSwitch (hs : sw ≠ .verbose) (hp : p.takeSwitch sw = .ok p') :
    q.takeSwitch sw = .ok p'.quiet ∧ Quiets n p' p'.quiet := by
  obtain ⟨o, ho, hp⟩ := exists_of_bind_eq_ok hp
  obtain ⟨o', ho', hp⟩ := exists_of_bind_eq_ok hp
  cases hp
  obtain ⟨hon, hverbosity⟩ := Options.turnOn_quiet hs ho'
  refine ⟨?_, quiets_quiet ((hverbosity.trans (settle_quiet ho).2).trans h.verbosity_eq)
    h.not_ended.1⟩
  rw [takeSwitch_of_settle (h.settle_eq o ho) hon, h.not_ended.1, h.not_ended.2]
  rfl

theorem Quiets.takeSetting (hp : p.takeSetting s value = .ok p') :
    q.takeSetting s value = .ok p'.quiet ∧ Quiets n p' p'.quiet := by
  obtain ⟨o, ho, hp⟩ := exists_of_bind_eq_ok hp
  have hverbosity := (settle_quiet ho).2.trans h.verbosity_eq
  cases value with
  | none =>
    cases hp
    refine ⟨?_, quiets_quiet hverbosity h.not_ended.1⟩
    simp only [Progress.takeSetting, h.settle_eq o ho, h.not_ended, quiet]
    rfl
  | some value =>
    obtain ⟨o', ho', hp⟩ := exists_of_bind_eq_ok hp
    cases hp
    obtain ⟨hset, hsame⟩ := Options.set_quiet ho'
    refine ⟨?_, quiets_quiet (hsame.trans hverbosity) h.not_ended.1⟩
    rw [takeSetting_of_settle (h.settle_eq o ho) hset, h.not_ended.1, h.not_ended.2]
    rfl

theorem Quiets.takePlain (hp : p.takePlain arg = .ok p') :
    q.takePlain arg = .ok p'.quiet ∧ Quiets n p' p'.quiet := by
  unfold Progress.takePlain at hp
  split at hp
  · next s hpending =>
    cases hp
    refine ⟨?_, quiets_quiet h.verbosity_eq h.not_ended.1⟩
    simp only [Progress.takePlain, (h.waits_iff s).mpr hpending, h.options_eq s hpending,
      h.not_ended, quiet]
  · next hno =>
    have hplain : q.takePlain arg = q.takeLiteral arg := by
      unfold Progress.takePlain
      split
      · next s hpending => exact absurd ((h.waits_iff s).mp hpending) (hno s)
      · rfl
    rw [hplain]
    exact h.takeLiteral hp

/-! ## Steps that ask for more log -/

/-- **To ask for more log** settles what is pending, which can wait. -/
theorem Quiets.takeVerbose (hp : p.takeSwitch .verbose = .ok p') : Quiets (n + 1) p' q := by
  obtain ⟨o, ho, hp⟩ := exists_of_bind_eq_ok hp
  cases hp
  have hverbosity := (settle_quiet ho).2.trans h.verbosity_eq
  refine ⟨?_, h.not_ended, ?_, fun s => ⟨fun hq => ?_, fun hp => ?_⟩, fun s hp => ?_⟩
  · change min (o.verbosity + 1) Options.maxVerbosity = _
    omega
  · intro o' ho'
    cases ho'
    exact h.settle_eq o ho
  · -- an option that waits for its value could not have been settled
    rw [settle, (h.waits_iff s).mp hq] at ho
    cases ho
  · cases hp
  · cases hp

/-! ## Arguments -/

theorem Quiets.takeLong (hcs : String.ofList cs ≠ "verbose") (hp : p.takeLong cs = .ok p') :
    q.takeLong cs = .ok p'.quiet ∧ Quiets n p' p'.quiet := by
  simp only [Progress.takeLong] at hp ⊢
  split at hp
  · cases hp
  · cases hp
  · next sw hname hvalue =>
    have hsw : sw ≠ .verbose := by
      rintro rfl
      rw [← splitAtFirst_of_none hvalue] at hcs
      exact hcs (Named.ofLong?_eq_verbose hname)
    exact h.takeSwitch hsw hp
  · exact h.takeSetting hp

/-- Letters with those for more log among them come to the same as the others alone. -/
theorem Quiets.takeShort (hp : p.takeShort cs = .ok p') :
    ∃ q', q.takeShort (splitLetters cs).2 = .ok q' ∧ Quiets (n + (splitLetters cs).1) p' q' := by
  induction cs generalizing p q n with
  | nil =>
    cases hp
    exact ⟨q, rfl, h⟩
  | cons c cs ih =>
    rw [Progress.takeShort] at hp
    by_cases hv : c = 'v'
    · obtain rfl := hv
      obtain ⟨p₁, hp₁, hp⟩ := exists_of_bind_eq_ok hp
      obtain ⟨q', hq', hquiets⟩ := ih (h.takeVerbose hp₁) hp
      refine ⟨q', hq', ?_⟩
      rwa [splitLetters, if_pos rfl, Nat.add_comm _ 1, ← Nat.add_assoc]
    · split at hp
      · cases hp
      · next sw hname =>
        have hsw : sw ≠ .verbose := by
          rintro rfl
          exact hv (Named.ofShort?_eq_verbose_iff.mp hname)
        have hkf : ¬ (c = 'k' ∨ c = 'f') := by
          rintro (rfl | rfl) <;> cases hname
        obtain ⟨p₁, hp₁, hp⟩ := exists_of_bind_eq_ok hp
        obtain ⟨hq₁, hquiets⟩ := h.takeSwitch hsw hp₁
        obtain ⟨q', hq', hquiets'⟩ := ih hquiets hp
        rw [splitLetters, if_neg hv, if_neg hkf]
        refine ⟨q', ?_, hquiets'⟩
        rw [Progress.takeShort, hname]
        change (q.takeSwitch sw >>= fun q => q.takeShort _) = _
        rw [hq₁]
        exact hq'
      · next s hname =>
        -- the letters after that of an option with a value are its value
        obtain ⟨hq', hquiets⟩ := h.takeSetting hp
        rw [splitLetters, if_neg hv, if_pos (Named.ofShort?_eq_setting hname)]
        refine ⟨p'.quiet, ?_, hquiets⟩
        rw [Progress.takeShort, hname]
        exact hq'

/-- An argument comes to the same as what is left of it. -/
theorem Quiets.take (harg : arg ≠ "--") (hp : p.take arg = .ok p') :
    ∃ q', (splitArgument arg).2.toList.foldlM Progress.take q = .ok q' ∧
      Quiets (n + (splitArgument arg).1) p' q' := by
  have hstays : ∀ {q'}, splitArgument arg = (0, some arg) → q.take arg = .ok q' ∧ Quiets n p' q' →
      ∃ q', (splitArgument arg).2.toList.foldlM Progress.take q = .ok q' ∧
        Quiets (n + (splitArgument arg).1) p' q' := by
    rintro q' hsplit ⟨hq', hquiets⟩
    rw [hsplit]
    exact ⟨q', by rw [Option.toList_some, foldlM_take_singleton, hq'], hquiets⟩
  by_cases hlong : ∃ cs, arg.toList = '-' :: '-' :: cs
  · obtain ⟨cs, hcs⟩ := hlong
    rw [take_long h.not_ended.1 hcs harg] at hp
    by_cases hverbose : String.ofList cs = "verbose"
    · obtain rfl : cs = "verbose".toList := by rw [← hverbose, String.toList_ofList]
      obtain rfl : arg = "--verbose" := String.toList_inj.mp hcs
      rw [splitArgument_verbose]
      exact ⟨q, rfl, h.takeVerbose hp⟩
    · exact hstays (splitArgument_long hcs hverbose)
        ((take_long h.not_ended.2 hcs harg).symm ▸ h.takeLong hverbose hp)
  by_cases hshort : ∃ c cs, arg.toList = '-' :: c :: cs
  · obtain ⟨c, cs, hcs⟩ := hshort
    have hc : c ≠ '-' := by
      rintro rfl
      exact hlong ⟨cs, hcs⟩
    rw [take_short h.not_ended.1 hcs hc] at hp
    obtain ⟨q', hq', hquiets⟩ := h.takeShort hp
    rw [splitArgument_short hcs hc]
    refine ⟨q', ?_, hquiets⟩
    cases hleft : (splitLetters (c :: cs)).2 with
    | nil =>
      rw [hleft] at hq'
      cases hq'
      rfl
    | cons d ds =>
      rw [hleft] at hq'
      -- a dash is no letter of an option
      have hd : d ≠ '-' := by
        rintro rfl
        cases hq'
      rw [if_neg (List.cons_ne_nil d ds), Option.toList_some, foldlM_take_singleton,
        take_short h.not_ended.2 String.toList_ofList hd, hq']
  · have hvalue := isValue_of_not_exists hshort
    rw [take_of_isValue h.not_ended.1 hvalue] at hp
    exact hstays (splitArgument_plain hshort)
      ((take_of_isValue h.not_ended.2 hvalue).symm ▸ h.takePlain hp)

end Quiets

/-! ## Command lines -/

variable {args : List String}

/-- What has been asked for at the end of the arguments. -/
theorem Quiets.settle (h : Quiets n p q) (hp : p.settle = .ok o) :
    q.settle = .ok o.quiet ∧ o.verbosity = min n Options.maxVerbosity :=
  ⟨h.settle_eq o hp, (settle_quiet hp).2.trans h.verbosity_eq⟩

/-- What cannot be settled is told after two dashes as well. -/
theorem takeAll_dashes_of_error {stop : Stop} (hended : p.ended = false)
    (h : p.settle = .error stop) : p.takeAll ("--" :: args) = .error stop := by
  have hsettle : settle { p with ended := true } = .error stop := h
  rw [Progress.takeAll, take_dashes hended]
  change takeAll { p with ended := true } args = _
  cases args with
  | nil => exact hsettle
  | cons arg args =>
    rw [takeAll, take, if_pos rfl, takeLiteral, hsettle]
    rfl

/-- After two dashes, all that is left is literals, and they stay as they are. -/
theorem Quiets.takeAll_dashes (h : Quiets n p q) (hp : p.takeAll ("--" :: args) = .ok o) :
    q.takeAll ("--" :: args) = .ok o.quiet ∧ o.verbosity = min n Options.maxVerbosity := by
  cases hsettle : p.settle with
  | error stop =>
    rw [takeAll_dashes_of_error h.not_ended.1 hsettle] at hp
    cases hp
  | ok settled =>
    obtain ⟨hq, hverbosity⟩ := h.settle hsettle
    rw [AsksFor.takeAll_dashes ⟨hsettle, h.not_ended.1⟩] at hp
    cases hp
    exact ⟨AsksFor.takeAll_dashes ⟨hq, h.not_ended.2⟩ args, hverbosity⟩

/-- **The arguments** come to the same without what asks for more log. -/
theorem Quiets.takeAll (h : Quiets n p q) (hp : p.takeAll args = .ok o) :
    q.takeAll (withoutVerbose args) = .ok o.quiet ∧
      o.verbosity = min (n + verboseCount args) Options.maxVerbosity := by
  induction args generalizing n p q with
  | nil => exact h.settle hp
  | cons arg args ih =>
    rw [withoutVerbose, verboseCount]
    by_cases harg : arg = "--"
    · obtain rfl := harg
      exact h.takeAll_dashes hp
    · obtain ⟨p', hp', hp⟩ := exists_of_bind_eq_ok hp
      obtain ⟨q', hq', hquiets⟩ := h.take harg hp'
      rw [if_neg harg, if_neg harg, takeAll_append, hq', ← Nat.add_assoc]
      exact ih hquiets hp

end Progress

/-- **A command line that asks for more log** is read as it would be without, except for the
verbosity: that is how often more log is asked for, as far as it is told apart. -/
theorem Options.read_withoutVerbose {args : List String} (h : read args = .ok o) :
    read (withoutVerbose args) = .ok o.quiet ∧
      o.verbosity = min (verboseCount args) maxVerbosity := by
  have hstart := Progress.quiets_quiet (n := 0) (p := .start) rfl rfl
  have hall := hstart.takeAll h
  rwa [Nat.zero_add] at hall

end Steps

end ScriptLiteral
