import ScriptLiteral.Proofs.Invocations
import ScriptLiteral.Proofs.VerboseArguments

/-!
# How much log is shown

The work of a call is the same however much log is asked for: its events come about whether they are
shown or not, and the verbosity has a part in nothing but the level at which they are shown. So two
calls that differ only in how often they ask for more log leave the same behind, and the one that
asks less often shows those of the other's records that are urgent enough
(`verbosity_only_filters`). No level is set in the environment, so that the arguments decide it.
-/

namespace ScriptLiteral

/-! ## Levels by counts -/

/-- The level for a request for more log that is made so often. -/
def Level.ofCount : Nat → Level
  | 0 => .warn
  | 1 => .info
  | 2 => .debug
  | _ => .trace

theorem Level.rank_ofCount (n : Nat) : (ofCount n).rank = min n 3 := by
  match n with
  | 0 | 1 | 2 => rfl
  | n + 3 => exact (Nat.min_eq_right (Nat.le_add_left 3 n)).symm

/-- Counts that are not told apart are for the same level. -/
theorem Level.ofCount_min (n : Nat) : ofCount (min n Options.maxVerbosity) = ofCount n := by
  match n with
  | 0 | 1 | 2 => rfl
  | n + 3 =>
    have hmin : min (n + 3) Options.maxVerbosity = min n 252 + 3 := Nat.add_min_add_right n 252 3
    rw [hmin]
    rfl

/-- What is shown at a level is among what is shown at a less urgent one. -/
theorem shownAt_of_rank_le {level level' : Level} (h : level.rank ≤ level'.rank)
    (events : List Event) : shownAt level events = shownAt level (shownAt level' events) := by
  rw [shownAt, shownAt, shownAt, List.filter_filter]
  refine List.filter_congr fun e _ => ?_
  rw [← Bool.decide_and, decide_eq_decide]
  exact ⟨fun he => ⟨he, Nat.le_trans he h⟩, And.left⟩

/-! ## What a call tells -/

namespace Options

variable {o o' : Options}

/-- The records of the log that a call shows. -/
def records (o : Options) (inputs : Inputs) : List Event :=
  shownAt o.level (o.run inputs).events

/-- What a call tells after its log: the failure with which it ends, if it does not end well. -/
def closing (o : Options) (inputs : Inputs) : String :=
  match (o.run inputs).value.1 with
  | .ok _ => ""
  | .error failure => failure.text

/-- A call tells its records, each by its line, and then how it ends. -/
theorem stderr_outcome (o : Options) (inputs : Inputs) :
    (o.outcome inputs).stderr =
      String.join ((o.records inputs).map Event.line) ++ o.closing inputs := by
  rw [outcome, closing]
  split
  · next hvalue =>
    rw [hvalue]
    exact String.append_empty.symm
  · next hvalue =>
    rw [hvalue]
    rfl

/-- The run does not depend on the verbosity. -/
theorem run_eq_of_quiet (h : o.quiet = o'.quiet) (inputs : Inputs) :
    o.run inputs = o'.run inputs := by
  have hrun (o : Options) : o.run inputs = o.quiet.run inputs := rfl
  rw [hrun, h, ← hrun]

/-- Nothing but the log depends on the verbosity. -/
theorem outcome_eq_of_quiet (h : o.quiet = o'.quiet) (inputs : Inputs) :
    (o.outcome inputs).status = (o'.outcome inputs).status ∧
      (o.outcome inputs).stdout = (o'.outcome inputs).stdout ∧
      o.closing inputs = o'.closing inputs := by
  rw [outcome, outcome, closing, closing, run_eq_of_quiet h]
  split <;> exact ⟨rfl, rfl, rfl⟩

/-- Of two calls that differ in the verbosity, the one that asks for less log shows those of the
other's records that are urgent enough. -/
theorem records_of_quiet (h : o.quiet = o'.quiet) (hle : o.level.rank ≤ o'.level.rank)
    (inputs : Inputs) : o.records inputs = shownAt o.level (o'.records inputs) := by
  rw [records, records, run_eq_of_quiet h]
  exact shownAt_of_rank_le hle _

/-- The level of a call goes by how often its arguments ask for more log. -/
theorem level_of_read {args : List String} (h : read args = .ok o) :
    o.level = Level.ofCount (verboseCount args) := by
  have hlevel : o.level = Level.ofCount o.verbosity := rfl
  rw [hlevel, (read_withoutVerbose h).2, Level.ofCount_min]

end Options

/-- **Nothing but the log shown depends on the verbosity.** Take two command lines that are read and
that are the same without what asks for more log, and let the first ask for it at most as often as
the second. Then, whatever can be read, the two calls have the same status, write the same to the
standard output and end with the same failure and the same usage on the standard error, if they
fail. Before that they show their records, each by its line: with the first command line, those of
the second that are at least as urgent as the level for its count. The count is the one of the
arguments, however great it is. -/
theorem verbosity_only_filters {args args' : List String} {o o' : Options}
    (hsame : withoutVerbose args = withoutVerbose args')
    (hle : verboseCount args ≤ verboseCount args')
    (hread : Options.read args = .ok o) (hread' : Options.read args' = .ok o') (inputs : Inputs) :
    ∃ out out', invoke args inputs = .ok out ∧ invoke args' inputs = .ok out' ∧
      out.status = out'.status ∧ out.stdout = out'.stdout ∧
      out.stderr = String.join ((o.records inputs).map Event.line) ++ o.closing inputs ∧
      out'.stderr = String.join ((o'.records inputs).map Event.line) ++ o.closing inputs ∧
      o.records inputs = shownAt (Level.ofCount (verboseCount args)) (o'.records inputs) ∧
      o'.records inputs = shownAt (Level.ofCount (verboseCount args')) (o'.run inputs).events := by
  have hquiet : o.quiet = o'.quiet := by
    have hquiet := (Options.read_withoutVerbose hread).1
    rw [hsame, (Options.read_withoutVerbose hread').1] at hquiet
    exact (Except.ok.inj hquiet).symm
  have hrank : o.level.rank ≤ o'.level.rank := by
    rw [Options.level_of_read hread, Options.level_of_read hread', Level.rank_ofCount,
      Level.rank_ofCount]
    exact Nat.le_min.mpr ⟨Nat.le_trans (Nat.min_le_left _ _) hle, Nat.min_le_right _ _⟩
  obtain ⟨hstatus, hstdout, hclosing⟩ := Options.outcome_eq_of_quiet hquiet inputs
  refine ⟨_, _, invoke_of_read hread inputs, invoke_of_read hread' inputs, hstatus, hstdout,
    o.stderr_outcome inputs, ?_, ?_, ?_⟩
  · rw [hclosing]
    exact o'.stderr_outcome inputs
  · rw [← Options.level_of_read hread]
    exact Options.records_of_quiet hquiet hrank inputs
  · rw [← Options.level_of_read hread']
    rfl

/-- Where one request for more log shows two records, three hundred show five, and these two among
them. -/
theorem verbosity_only_filters_saturated :
    let args := ["--verbose", "--", "1x", "'a"]
    let args' := Options.choice none none false 300 ++ ["--", "1x", "'a"]
    let o : Options := ⟨["1x", "'a"], none, none, false, 1⟩
    let o' : Options := ⟨["1x", "'a"], none, none, false, 255⟩
    let inputs : Inputs := ⟨.ok ByteArray.empty, fun _ => .error .absent⟩
    withoutVerbose args = withoutVerbose args' ∧
      verboseCount args = 1 ∧ verboseCount args' = 300 ∧
      Options.read args = .ok o ∧ Options.read args' = .ok o' ∧
      (o.records inputs).length = 2 ∧ (o'.records inputs).length = 5 ∧
      ∃ out out', invoke args inputs = .ok out ∧ invoke args' inputs = .ok out' ∧
        out.status = out'.status ∧ out.stdout = out'.stdout ∧
        out.stderr = String.join ((o.records inputs).map Event.line) ∧
        out'.stderr = String.join ((o'.records inputs).map Event.line) ∧
        o.records inputs = shownAt .info (o'.records inputs) := by
  intro args args' o o' inputs
  have hsame : withoutVerbose args = withoutVerbose args' := by decide +kernel
  have hcount : verboseCount args = 1 := by decide +kernel
  have hcount' : verboseCount args' = 300 := by decide +kernel
  have hread : Options.read args = .ok o := rfl
  have hread' : Options.read args' = .ok o' :=
    Options.read_dashes (Options.read_choice none none false 300 nofun) rfl ["1x", "'a"]
  have hle : verboseCount args ≤ verboseCount args' := by omega
  have hclosing : o.closing inputs = "" := by decide +kernel
  obtain ⟨out, out', hout, hout', hstatus, hstdout, hstderr, hstderr', hrecords, -⟩ :=
    verbosity_only_filters hsame hle hread hread' inputs
  rw [hclosing, String.append_empty] at hstderr hstderr'
  rw [hcount] at hrecords
  exact ⟨hsame, hcount, hcount', hread, hread', by decide +kernel, by decide +kernel, out, out',
    hout, hout', hstatus, hstdout, hstderr, hstderr', hrecords⟩

end ScriptLiteral
