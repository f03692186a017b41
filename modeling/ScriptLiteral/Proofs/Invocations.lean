import ScriptLiteral.Command.Invocation
import ScriptLiteral.Proofs.Arguments
import ScriptLiteral.Proofs.FullSink

/-!
# Input from arguments and files

A call inspects the literals among its arguments and then the lexemes of its file, as one list. The
file may be the standard input, under the name of a dash (`Inputs.Holds`). What the call leaves
behind depends on the list and on the options alone (`Options.outcome_congr`). So lexemes can be
moved from the arguments to a file, where each stands on a line, and nothing changes
(`split_unobservable`). Input that cannot be read leaves no output, since all of it is read before
anything is written.
-/

namespace ScriptLiteral

/-! ## Lexemes with a value -/

namespace Listing

/-- A lexeme of the listing resolves, wherever it stands. -/
def Resolves (l : Listing) (lexeme : String) : Prop :=
  ∃ v, ∀ before, (l.literal before lexeme).resolve.value = .ok v

variable {l : Listing} {lexeme : String}

theorem hasValue_iff : l.hasValue lexeme = true ↔ l.Resolves lexeme := by
  -- the place of a literal has no part in its value
  have hplace (before : Nat) :
      (l.literal before lexeme).resolve = (l.literal 0 lexeme).resolve := rfl
  rw [hasValue]
  cases hvalue : (l.literal 0 lexeme).resolve.value with
  | ok v => exact ⟨fun _ => ⟨v, fun before => by rw [hplace, hvalue]⟩, fun _ => rfl⟩
  | error fault =>
    constructor
    · intro h
      cases h
    · rintro ⟨v, hv⟩
      rw [hv] at hvalue
      cases hvalue

/-- The counts are clean just if they were before and all lexemes resolve. -/
theorem isClean_tallyFrom_iff (l : Listing) (before : Nat) (tally : Tally) (lexemes : List String) :
    (l.tallyFrom before tally lexemes).isClean = true ↔
      tally.isClean = true ∧ ∀ lexeme ∈ lexemes, l.Resolves lexeme := by
  simp [tallyFrom_eq, Tally.isClean, hasValue_iff]

end Listing

/-! ## What a call reads -/

/-- What can be read under a name: the standard input under a dash, a file under any other. -/
inductive Inputs.Holds (inputs : Inputs) : String → Except Reason ByteArray → Prop
  /-- the standard input -/
  | stdin : Holds inputs "-" inputs.stdin
  /-- a file -/
  | file {name : String} (hname : name ≠ "-") : Holds inputs name (inputs.file name)

/-- Under each name there is one thing to read. -/
theorem Inputs.holds_iff {inputs : Inputs} {name : String} {content : Except Reason ByteArray} :
    inputs.Holds name content ↔ inputs.content name = content := by
  rw [Inputs.content]
  constructor
  · intro h
    cases h with
    | stdin => exact if_pos rfl
    | file hname => exact if_neg hname
  · rintro rfl
    split
    · next hname =>
      subst hname
      exact .stdin
    · next hname => exact .file hname

namespace Options

/-- The file that the options name cannot be read, or what is read is not text. -/
def Unreadable (o : Options) (inputs : Inputs) : Prop :=
  ∃ name, o.file = some name ∧
    ((∃ reason, inputs.Holds name (.error reason)) ∨
      ∃ bytes, inputs.Holds name (.ok bytes) ∧ String.fromUTF8? bytes = none)

/-- The lexemes that come from a file: none if the options name none. -/
inductive Supplied (o : Options) (inputs : Inputs) : List String → Prop
  /-- there is no file -/
  | nothing (hfile : o.file = none) : Supplied o inputs []
  /-- the file is read, and it is text -/
  | lines {name : String} {bytes : ByteArray} {text : String} (hfile : o.file = some name)
      (hread : inputs.Holds name (.ok bytes)) (htext : String.fromUTF8? bytes = some text) :
      Supplied o inputs ((lexemesOf text.toList).map String.ofList)

variable {o o' : Options} {inputs inputs' : Inputs} {more lexemes : List String}
  {failure : Failure}

/-- There is no third case. -/
theorem unreadable_or_supplied (o : Options) (inputs : Inputs) :
    o.Unreadable inputs ∨ ∃ more, o.Supplied inputs more := by
  cases hfile : o.file with
  | none => exact .inr ⟨[], .nothing hfile⟩
  | some name =>
    cases hread : inputs.content name with
    | error reason => exact .inl ⟨name, hfile, .inl ⟨reason, Inputs.holds_iff.mpr hread⟩⟩
    | ok bytes =>
      have hbytes := Inputs.holds_iff.mpr hread
      cases htext : String.fromUTF8? bytes with
      | none => exact .inl ⟨name, hfile, .inr ⟨bytes, hbytes, htext⟩⟩
      | some text => exact .inr ⟨_, .lines hfile hbytes htext⟩

/-- Input that cannot be read is a failure. -/
theorem Unreadable.exists_lexemes_eq (h : o.Unreadable inputs) :
    ∃ failure, o.lexemes inputs = .error failure := by
  obtain ⟨name, hfile, ⟨reason, hread⟩ | ⟨bytes, hread, htext⟩⟩ := h
  · refine ⟨.transfer reason, ?_⟩
    simp only [lexemes, hfile, Inputs.holds_iff.mp hread, lexemesOfContent]
    rfl
  · refine ⟨.transfer .notText, ?_⟩
    simp only [lexemes, hfile, Inputs.holds_iff.mp hread, lexemesOfContent, htext]
    rfl

/-- The lexemes of a file come after the arguments. -/
theorem lexemes_of_file {name : String} (hfile : o.file = some name)
    (hmore : lexemesOfContent (inputs.content name) = .ok more) :
    o.lexemes inputs =
      if (o.literals ++ more).isEmpty then .error .nothingGiven else .ok (o.literals ++ more) := by
  simp only [lexemes, hfile, hmore]
  change (if _ then _ else _) = _
  split <;> rfl

/-- Without a file there are the arguments alone. -/
theorem lexemes_of_no_file (hfile : o.file = none) :
    o.lexemes inputs = if o.literals.isEmpty then .error .nothingGiven else .ok o.literals := by
  simp only [lexemes, hfile]
  change (if (o.literals ++ []).isEmpty then _ else Except.ok (o.literals ++ [])) = _
  rw [List.append_nil]
  split <;> rfl

/-- Input that can be read comes after the arguments. -/
theorem Supplied.lexemes_eq (h : o.Supplied inputs more) :
    o.lexemes inputs =
      if (o.literals ++ more).isEmpty then .error .nothingGiven else .ok (o.literals ++ more) := by
  cases h with
  | nothing hfile => rw [lexemes_of_no_file hfile, List.append_nil]
  | lines hfile hread htext =>
    apply lexemes_of_file hfile
    simp only [Inputs.holds_iff.mp hread, lexemesOfContent, htext]

/-- Input that fails leaves the failure and no output. -/
theorem outcome_of_error (h : o.lexemes inputs = .error failure) :
    o.outcome inputs = ⟨2, ByteArray.empty, failure.text⟩ := by
  have hlog : logText o.level [] = "" := rfl
  simp only [outcome, run, h]
  simp [hlog, Sink.unlimited]

/-- Lexemes are listed. -/
theorem outcome_of_ok (h : o.lexemes inputs = .ok lexemes) :
    o.outcome inputs =
      ⟨if (o.listing.tallyFrom 0 .zero lexemes).isClean then 0 else 1,
        (o.listing.run lexemes .unlimited).value.2.written,
        logText o.level (o.listing.run lexemes .unlimited).events⟩ := by
  simp only [outcome, run, h, Listing.value_run_all]

/-- **What a call leaves behind** depends on its lexemes and on what is asked about them. -/
theorem outcome_congr (h : o.lexemes inputs = o'.lexemes inputs') (hkind : o.kind = o'.kind)
    (hjson : o.json = o'.json) (hverbosity : o.verbosity = o'.verbosity) :
    o.outcome inputs = o'.outcome inputs' := by
  have hlisting : o.listing = o'.listing := by rw [listing, listing, hkind, hjson]
  have hlevel : o.level = o'.level := by rw [level, level, hverbosity]
  rw [outcome, outcome, run, run, h, hlisting, hlevel]

end Options

/-! ## Calls -/

theorem invoke_of_read {args : List String} {o : Options} (h : Options.read args = .ok o)
    (inputs : Inputs) : invoke args inputs = .ok (o.outcome inputs) := by
  rw [invoke, h]

/-- **Where lexemes come from is not observable.** A call whose arguments can be read ends without
output and with the status 2 if its file is unreadable or if there are no lexemes. Otherwise its
lexemes are the literals among the arguments, in order, and then those of the file, and it leaves
behind what the listing of them all writes and tells; its status is 0 if all of them resolve and 1
if not. All choices of options can be made. So lexemes can be moved from the arguments after two
dashes to the lines of a file: with the same options otherwise, the call leaves the same behind. -/
theorem split_unobservable :
    (∀ args o inputs, Options.read args = .ok o →
      o.literals.Sublist args ∧
      ∃ out, invoke args inputs = .ok out ∧
        (o.Unreadable inputs → out.status = 2 ∧ out.stdout = ByteArray.empty) ∧
        (o.Unreadable inputs ∨ ∃ more, o.Supplied inputs more) ∧
        ∀ more, o.Supplied inputs more →
          let lexemes := o.literals ++ more
          let listing : Listing := ⟨o.kind, if o.json then .records else .rows⟩
          let r := listing.run lexemes .unlimited
          (lexemes = [] → out.status = 2 ∧ out.stdout = ByteArray.empty) ∧
          (lexemes ≠ [] →
            out.stdout = r.value.2.written ∧ out.stderr = logText o.level r.events ∧
            ((∀ lexeme ∈ lexemes, listing.Resolves lexeme) → out.status = 0) ∧
            ((¬ ∀ lexeme ∈ lexemes, listing.Resolves lexeme) → out.status = 1))) ∧
    (∀ kind file json verbosity, (∀ name ∈ file, Progress.IsValue name) →
      Options.read (Options.choice kind file json verbosity ++ ["--"]) =
        .ok ⟨[], kind, file, json, min verbosity Options.maxVerbosity⟩) ∧
    ∀ plain naming o name, Options.read (plain ++ ["--"]) = .ok o → o.literals = [] →
      o.file = none → Options.read (naming ++ ["--"]) = .ok { o with file := some name } →
      ∀ xs ys text inputs inputs', (∀ lexeme ∈ ys, IsLine lexeme) → IsListed ys text →
        inputs.Holds name (.ok text.toUTF8) →
        invoke (naming ++ "--" :: xs) inputs = invoke (plain ++ "--" :: (xs ++ ys)) inputs' := by
  refine ⟨fun args o inputs hread => ⟨Options.literals_sublist hread, o.outcome inputs,
    invoke_of_read hread inputs, ?_, o.unreadable_or_supplied inputs, ?_⟩, Options.read_choice, ?_⟩
  · intro hunreadable
    obtain ⟨failure, hfailure⟩ := hunreadable.exists_lexemes_eq
    rw [Options.outcome_of_error hfailure]
    exact ⟨rfl, rfl⟩
  · intro more hmore lexemes listing r
    have hlexemes := hmore.lexemes_eq
    constructor
    · intro hnone
      rw [if_pos (List.isEmpty_iff.mpr hnone)] at hlexemes
      rw [Options.outcome_of_error hlexemes]
      exact ⟨rfl, rfl⟩
    · intro hsome
      rw [if_neg (mt List.isEmpty_iff.mp hsome)] at hlexemes
      rw [Options.outcome_of_ok hlexemes]
      have hclean := listing.isClean_tallyFrom_iff 0 .zero lexemes
      refine ⟨rfl, rfl, fun hall => if_pos (hclean.mpr ⟨rfl, hall⟩), fun hsome => if_neg ?_⟩
      exact fun h => hsome (hclean.mp h).2
  · intro plain naming o name hplain hliterals hfile hnaming xs ys text inputs inputs' hys htext
      hcontent
    have hlexemes : lexemesOfContent (inputs.content name) = .ok ys := by
      rw [Inputs.holds_iff.mp hcontent, lexemesOfContent_of_isListed hys htext]
    rw [invoke_of_read (Options.read_dashes hnaming hliterals xs),
      invoke_of_read (Options.read_dashes hplain hliterals (xs ++ ys))]
    refine congrArg _ (Options.outcome_congr ?_ rfl rfl rfl)
    have hnone : ({ o with literals := xs ++ ys } : Options).file = none := hfile
    rw [Options.lexemes_of_file rfl hlexemes, Options.lexemes_of_no_file hnone]

/-- Two lexemes of three are moved to a file, and one of these two has no value. -/
theorem split_unobservable_moved :
    let plain := ["-v"]
    let naming := ["-v", "-f", "more"]
    let o : Options := ⟨[], none, none, false, 1⟩
    let xs := ["'a'"]
    let ys := ["null", "'b"]
    let text := "null\n'b\n"
    let inputs : Inputs := ⟨.ok ByteArray.empty, fun _ => .ok text.toUTF8⟩
    let inputs' : Inputs := ⟨.error .directory, fun _ => .error .absent⟩
    Options.read (plain ++ ["--"]) = .ok o ∧ o.literals = [] ∧ o.file = none ∧
      Options.read (naming ++ ["--"]) = .ok { o with file := some "more" } ∧
      (∀ lexeme ∈ ys, IsLine lexeme) ∧ IsListed ys text ∧
      inputs.Holds "more" (.ok text.toUTF8) ∧
      ∃ out, invoke (naming ++ "--" :: xs) inputs = .ok out ∧
        invoke (plain ++ "--" :: (xs ++ ys)) inputs' = .ok out ∧ out.status = 1 ∧
        out.stdout = (linesText
          ["'a'   string   \"a\"",
            "null  null     null",
            "'b    string   error: String literal is not enclosed in matching quotes: 'b"]).toUTF8 ∧
        out.stderr = "[INFO  literal_cli::inspector] " ++
          "SyntaxError: String literal is not enclosed in matching quotes: 'b (3:1)\n" := by
  intro plain naming o xs ys text inputs inputs'
  have hread : Options.read (plain ++ ["--"]) = .ok o := rfl
  have hnaming : Options.read (naming ++ ["--"]) = .ok { o with file := some "more" } := rfl
  have hys : ∀ lexeme ∈ ys, IsLine lexeme :=
    List.forall_mem_cons.mpr ⟨⟨by decide, by decide, by decide⟩,
      List.forall_mem_singleton.mpr ⟨by decide, by decide, by decide⟩⟩
  have htext : IsListed ys text := .inl (by decide)
  have hholds : inputs.Holds "more" (.ok text.toUTF8) := .file (by decide)
  obtain ⟨hcalls, -, hsplit⟩ := split_unobservable
  have hmoved := hsplit plain naming o "more" hread rfl rfl hnaming xs ys text inputs inputs' hys
    htext hholds
  obtain ⟨-, out, hout, -, -, hlisted⟩ := hcalls (plain ++ "--" :: (xs ++ ys))
    { o with literals := xs ++ ys } inputs' rfl
  obtain ⟨-, hlisted⟩ := hlisted [] (.nothing rfl)
  obtain ⟨hstdout, hstderr, -, hstatus⟩ := hlisted (by decide)
  refine ⟨hread, rfl, rfl, hnaming, hys, htext, hholds, out, hmoved.trans hout, hout, ?_, ?_, ?_⟩
  · refine hstatus fun hall => ?_
    have hfaulty : o.listing.hasValue "'b" = false := by decide +kernel
    have hvalued := Listing.hasValue_iff.mpr (hall "'b" (by decide))
    exact Bool.false_ne_true (hfaulty.symm.trans hvalued)
  · rw [hstdout]
    decide +kernel
  · rw [hstderr]
    decide +kernel

end ScriptLiteral
