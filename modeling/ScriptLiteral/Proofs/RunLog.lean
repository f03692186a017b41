import ScriptLiteral.Proofs.CellFilling
import ScriptLiteral.Proofs.FaultyEscape
import ScriptLiteral.Proofs.FullSink
import ScriptLiteral.Proofs.NumeralLanguage

/-!
# The log of a listing

A listing tells of its lexemes one after the other, so its log is a row of blocks, one for each
lexeme, and the counts at the end (`Listing.events_runFrom`). Writing tells nothing, so the form of
the listing has no part in it.

A block has up to three events. Finding the value of a literal tells at most one, and which one
depends on the kind (`Literal.mem_events_resolve`). That the value is kept is told in any case, as
the cell of a new token is empty, and last of all comes the fault, if there is one
(`Listing.mem_block`).
-/

namespace ScriptLiteral

/-! ## What finding a value tells -/

/-- Whether the event tells that a kind has no values. -/
def Event.isNoValue : Event → Bool
  | noValue _ _ => true
  | _ => false

namespace Literal

/-- The literal is a number by its kind and none by its value. -/
def IsNaN (l : Literal) : Prop :=
  l.kind = .number ∧ ∃ x, l.resolve.value = .ok (.number x) ∧ x.isNaN = true

/-- The literal is a string in quotes without a backslash, and so many bytes are between them. -/
def IsPlainString (l : Literal) (bytes : Nat) : Prop :=
  l.kind = .string ∧ ∃ q inner, QuotedBy q inner l.text ∧ '\\' ∉ inner ∧
    (String.ofList inner).utf8ByteSize = bytes

/-- The literal is of a kind that stands for no value. -/
def IsUnsupported (l : Literal) : Prop := l.kind = .regularExpression ∨ l.kind = .template

instance (l : Literal) : Decidable l.IsUnsupported := inferInstanceAs (Decidable (_ ∨ _))

end Literal

section Values

variable {text : String} {q : Char} {inner : List Char}

/-- A warning is given if the value is no number, and it quotes the text. -/
theorem events_numberValue (text : String) :
    (numberValue text).events =
      if (numberValue text).value.isNaN then [.notANumber text] else [] := by
  by_cases ht : withoutSeparators text ∈ numerals
  · obtain ⟨v, hv⟩ := mem_numerals_iff.mp ht
    obtain ⟨x, hx, hnear⟩ := IsNumeral.numberValue hv
    rw [hx, Logged.value_pure, hnear.isNaN_eq_false]
    rfl
  · rw [numberValue_of_not_mem ht]
    rfl

/-- The bytes between the quotes are told if there is no backslash among them. -/
theorem events_stringValue (h : QuotedBy q inner text) :
    (stringValue text).events =
      if '\\' ∈ inner then [] else [.plainString (String.ofList inner).utf8ByteSize] := by
  rw [stringValue, unquote?_eq_some_iff.mpr ⟨q, h⟩, ← byteLength_eq_utf8ByteSize]
  simp only [interiorValue, List.contains_iff_mem]
  split <;> rfl

theorem events_stringValue_of_not_quoted (h : ¬ ∃ q inner, QuotedBy q inner text) :
    (stringValue text).events = [] := by
  rw [stringValue]
  split
  · next inner hinner =>
    obtain ⟨q, hq⟩ := unquote?_eq_some_iff.mp hinner
    exact absurd ⟨q, inner, hq⟩ h
  · rfl

/-- A text is quoted in one way at most. -/
theorem QuotedBy.inner_eq {q' : Char} {inner' : List Char} (h : QuotedBy q inner text)
    (h' : QuotedBy q' inner' text) : inner = inner' :=
  Option.some.inj ((unquote?_eq_some_iff.mpr ⟨q, h⟩).symm.trans (unquote?_eq_some_iff.mpr ⟨q', h'⟩))

/-- A string literal without a value breaks a rule of the language. -/
theorem category_of_stringValue {f : Fault} (h : (stringValue text).value = .error f) :
    f.category = .syntaxError := by
  by_cases hq : ∃ q inner, QuotedBy q inner text
  · obtain ⟨q, inner, hq⟩ := hq
    obtain ⟨-, -, -, ef, -, -, -, rfl⟩ := exists_refuses hq h
    cases ef <;> rfl
  · rw [value_stringValue_of_not_quoted hq] at h
    cases h
    rfl

end Values

namespace Literal

variable {l : Literal} {e : Event} {f : Fault}

theorem isPlainString_iff {q : Char} {inner : List Char} {bytes : Nat} (hkind : l.kind = .string)
    (hq : QuotedBy q inner l.text) :
    l.IsPlainString bytes ↔ '\\' ∉ inner ∧ (String.ofList inner).utf8ByteSize = bytes := by
  refine ⟨?_, fun ⟨hplain, hbytes⟩ => ⟨hkind, q, inner, hq, hplain, hbytes⟩⟩
  rintro ⟨-, q', inner', hq', hplain, hbytes⟩
  obtain rfl := hq.inner_eq hq'
  exact ⟨hplain, hbytes⟩

/-- At most one event comes from finding a value. -/
theorem length_events_resolve_le (l : Literal) : l.resolve.events.length ≤ 1 := by
  obtain ⟨kind, text, span⟩ := l
  cases kind with
  | null => exact Nat.zero_le 1
  | number =>
    simp only [resolve, Logged.events_bind, Logged.events_pure, List.append_nil, events_numberValue]
    split <;> simp
  | string =>
    simp only [resolve, Logged.events_bind, Logged.events_pure, List.append_nil]
    by_cases hq : ∃ q inner, QuotedBy q inner text
    · obtain ⟨q, inner, hq⟩ := hq
      rw [events_stringValue hq]
      split <;> simp
    · rw [events_stringValue_of_not_quoted hq]
      exact Nat.zero_le 1
  | regularExpression => exact Nat.le_refl 1
  | template => exact Nat.le_refl 1

/-- **What finding a value tells**, kind by kind. -/
theorem mem_events_resolve : e ∈ l.resolve.events ↔
    l.IsNaN ∧ e = .notANumber l.text ∨
    (∃ bytes, l.IsPlainString bytes ∧ e = .plainString bytes) ∨
    l.IsUnsupported ∧ e = .noValue l.kind l.text := by
  obtain ⟨kind, text, span⟩ := l
  cases kind with
  | null => simp [resolve, IsNaN, IsPlainString, IsUnsupported]
  | number =>
    simp only [resolve, Logged.events_bind, Logged.events_pure, List.append_nil, events_numberValue,
      IsNaN, IsPlainString, IsUnsupported]
    cases hnan : (numberValue text).value.isNaN <;> simp [hnan]
  | string =>
    have hevents : (resolve ⟨.string, text, span⟩).events = (stringValue text).events :=
      List.append_nil _
    by_cases hq : ∃ q inner, QuotedBy q inner text
    · obtain ⟨q, inner, hq⟩ := hq
      have hplainString (bytes : Nat) :
          (Literal.mk .string text span).IsPlainString bytes ↔
            '\\' ∉ inner ∧ (String.ofList inner).utf8ByteSize = bytes := isPlainString_iff rfl hq
      simp only [hevents, events_stringValue hq, hplainString, IsNaN, IsUnsupported]
      by_cases hplain : '\\' ∈ inner <;> simp [hplain]
    · have hno (bytes : Nat) : ¬ (Literal.mk .string text span).IsPlainString bytes := by
        rintro ⟨-, q, inner, hquoted, -⟩
        exact hq ⟨q, inner, hquoted⟩
      simp [hevents, events_stringValue_of_not_quoted hq, hno, IsNaN, IsUnsupported]
  | regularExpression => simp [resolve, IsNaN, IsPlainString, IsUnsupported]
  | template => simp [resolve, IsNaN, IsPlainString, IsUnsupported]

/-- The compiler is at fault for the kinds that stand for no value, and the text for all others. -/
theorem category_of_resolve (h : l.resolve.value = .error f) :
    f.category = if l.IsUnsupported then .internalError else .syntaxError := by
  obtain ⟨kind, text, span⟩ := l
  cases kind with
  | null => cases h
  | number => cases h
  | string =>
    rw [if_neg (by simp [IsUnsupported])]
    exact category_of_stringValue (error_of_map h)
  | regularExpression =>
    cases h
    rw [if_pos (.inl rfl)]
    rfl
  | template =>
    cases h
    rw [if_pos (.inr rfl)]
    rfl

/-- Finding a value tells of no lexeme without one; that is left to the listing. -/
theorem level_ne_info_of_mem_resolve (h : e ∈ l.resolve.events) : e.level ≠ .info := by
  obtain ⟨-, rfl⟩ | ⟨bytes, -, rfl⟩ | ⟨-, rfl⟩ := mem_events_resolve.mp h
  all_goals exact Level.noConfusion

end Literal

/-! ## Blocks -/

namespace Listing

variable {l : Listing} {before column : Nat} {lexeme : String} {e : Event} {tally t : Tally}
  {sink : Sink} {lexemes : List String}

/-- What is told of a lexeme, if so many lexemes stand before it. -/
def block (l : Listing) (before : Nat) (lexeme : String) : List Event :=
  (l.entry before lexeme).events

theorem text_literal : (l.literal before lexeme).text = lexeme := rfl

/-- What is told if a literal has no value. -/
def faultEvents (l : Literal) : List Event :=
  match l.resolve.value with
  | .ok _ => []
  | .error f => [.failed (f.diagnostic l.span)]

/-- **A block** tells what filling the cell of a new token tells, and then the fault. -/
theorem block_eq (l : Listing) (before : Nat) (lexeme : String) :
    l.block before lexeme =
      (l.literal before lexeme).fillEvents ++ faultEvents (l.literal before lexeme) := by
  have htold (literal : Literal) : (Token.ofLiteral literal).told = literal.fillEvents := rfl
  simp only [block, entry, Token.force_eq, Logged.events_bind, htold, Token.cell_ofLiteral,
    Option.getD_none, Token.literal_ofLiteral, faultEvents]
  cases (l.literal before lexeme).resolve.value <;> rfl

theorem mem_faultEvents {l : Literal} :
    e ∈ faultEvents l ↔ ∃ f, l.resolve.value = .error f ∧ e = .failed (f.diagnostic l.span) := by
  unfold faultEvents
  cases l.resolve.value <;> simp

/-- **The events of a block**, sorted by what they tell. -/
theorem mem_block : e ∈ l.block before lexeme ↔
    (l.literal before lexeme).IsNaN ∧ e = .notANumber lexeme ∨
    (∃ bytes, (l.literal before lexeme).IsPlainString bytes ∧ e = .plainString bytes) ∨
    (l.literal before lexeme).IsUnsupported ∧ e = .noValue (l.literal before lexeme).kind lexeme ∨
    e = .cached (l.literal before lexeme).kind lexeme (l.literal before lexeme).resolve.value.isOk ∨
    ∃ f, (l.literal before lexeme).resolve.value = .error f ∧
      e = .failed (f.diagnostic (l.literal before lexeme).span) := by
  rw [block_eq, Literal.fillEvents, List.mem_append, List.mem_append, List.mem_singleton,
    mem_faultEvents, Literal.mem_events_resolve]
  simp only [or_assoc]
  rfl

/-- What is told of a fault: who is at fault, what is wrong, and the line of the lexeme. -/
theorem message_failed {f : Fault} (h : before + 1 < 2 ^ 32)
    (hf : (l.literal before lexeme).resolve.value = .error f) :
    (Event.failed (f.diagnostic (l.literal before lexeme).span)).message =
      (if (l.literal before lexeme).IsUnsupported then "InternalError" else "SyntaxError") ++
        ": " ++ f.message ++ " (" ++ toString (before + 1) ++ ":1)" := by
  have hline : toString (UInt32.ofNat (before + 1)) = toString (before + 1) :=
    congrArg toString (Nat.mod_eq_of_lt h)
  have hname : f.category.name =
      if (l.literal before lexeme).IsUnsupported then "InternalError" else "SyntaxError" := by
    rw [Literal.category_of_resolve hf]
    split <;> rfl
  have hposition : (l.literal before lexeme).span.start.text = toString (before + 1) ++ ":1" := by
    change toString (UInt32.ofNat (before + 1)) ++ ":" ++ toString (1 : UInt32) = _
    rw [hline, String.append_assoc]
    rfl
  change f.category.name ++ ": " ++ f.message ++
    (" (" ++ (l.literal before lexeme).span.start.text ++ ")") = _
  rw [hname, hposition]
  simp only [String.append_assoc]
  rfl

/-- A fault is told after all else. -/
theorem level_ne_info_of_mem_fill {l : Literal} (h : e ∈ l.fillEvents) : e.level ≠ .info := by
  obtain h | h := List.mem_append.mp h
  · exact Literal.level_ne_info_of_mem_resolve h
  · obtain rfl := List.mem_singleton.mp h
    exact Level.noConfusion

theorem level_of_mem_faultEvents {l : Literal} (h : e ∈ faultEvents l) : e.level = .info := by
  obtain ⟨f, -, rfl⟩ := mem_faultEvents.mp h
  rfl

/-- At this level only the fault is told. -/
theorem exists_fault_of_level (he : e ∈ l.block before lexeme) (hlevel : e.level = .info) :
    ∃ f, (l.literal before lexeme).resolve.value = .error f ∧
      e = .failed (f.diagnostic (l.literal before lexeme).span) := by
  rw [block_eq] at he
  obtain he | he := List.mem_append.mp he
  · exact absurd hlevel (level_ne_info_of_mem_fill he)
  · exact mem_faultEvents.mp he

/-- No event is told twice of one lexeme. -/
theorem nodup_block (l : Listing) (before : Nat) (lexeme : String) :
    (l.block before lexeme).Nodup := by
  have hresolve : (l.literal before lexeme).resolve.events.Nodup := by
    have hle := (l.literal before lexeme).length_events_resolve_le
    generalize (l.literal before lexeme).resolve.events = es at hle
    match es, hle with
    | [], _ => exact List.nodup_nil
    | [e], _ => exact List.nodup_singleton e
  have hfault : (faultEvents (l.literal before lexeme)).Nodup := by
    unfold faultEvents
    split
    · exact List.nodup_nil
    · exact List.nodup_singleton _
  rw [block_eq, List.nodup_append, Literal.fillEvents, List.nodup_append]
  refine ⟨⟨hresolve, List.nodup_singleton _, ?_⟩, hfault, ?_⟩
  · rintro e he _ hcached rfl
    rw [List.mem_singleton.mp hcached] at he
    cases Literal.not_isCached_of_mem_resolve he
  · rintro e he _ hfault rfl
    exact level_ne_info_of_mem_fill he (level_of_mem_faultEvents hfault)

end Listing

/-! ## What a block tells of a literal -/

/-- The events are just those that are due to the literal, which stands on the given line: that its
value was kept, a warning, the bytes of a plain string, that there are no values of the kind, and
last the fault. -/
structure Literal.IsToldBy (l : Literal) (line : Nat) (block : List Event) : Prop where
  /-- no event is told twice -/
  nodup : block.Nodup
  /-- one event tells that the result is kept, and whether it is a value -/
  cached : ∀ e, e ∈ block ∧ e.isCached = true ↔ e = .cached l.kind l.text l.resolve.value.isOk
  /-- a warning is given just if the value of a numeric literal is no number -/
  warning : ∀ e, e ∈ block ∧ e.level = .warn ↔ l.IsNaN ∧ e = .notANumber l.text
  /-- the bytes of a string are told just if it is in quotes and has no backslash -/
  plain : ∀ e, e ∈ block ∧ e.level = .trace ↔
    ∃ bytes, l.IsPlainString bytes ∧ e = .plainString bytes
  /-- a kind without values is told of just if it is one -/
  noValue : ∀ e, e ∈ block ∧ e.isNoValue = true ↔ l.IsUnsupported ∧ e = .noValue l.kind l.text
  /-- a fault is told just if there is one: who is at fault, what is wrong, and where -/
  fault : ∀ e, e ∈ block ∧ e.level = .info ↔
    ∃ f, l.resolve.value = .error f ∧ e = .failed (f.diagnostic l.span) ∧
      e.message = (if l.IsUnsupported then "InternalError" else "SyntaxError") ++ ": " ++
        f.message ++ " (" ++ toString line ++ ":1)"
  /-- nothing is told after the fault -/
  fault_last : ∀ e ∈ block, e.level = .info → block.getLast? = some e
  /-- nothing else is told -/
  no_other : ∀ e ∈ block, e.level = .debug → e.isCached = true ∨ e.isNoValue = true

namespace Listing

variable {l : Listing} {before column : Nat} {lexeme : String} {tally t : Tally} {sink : Sink}
  {lexemes : List String}

/-- **A block tells just what is due** to the literal that the lexeme is taken for. -/
theorem isToldBy_block (l : Listing) (lexeme : String) (h : before + 1 < 2 ^ 32) :
    (l.literal before lexeme).IsToldBy (before + 1) (l.block before lexeme) where
  nodup := l.nodup_block before lexeme
  -- an event is of one form, and of the five kinds of events in a block one at most has that form
  cached e := by cases e <;> simp [mem_block, Event.isCached, text_literal]
  warning e := by cases e <;> simp [mem_block, Event.level, text_literal]
  plain e := by cases e <;> simp [mem_block, Event.level]
  noValue e := by cases e <;> simp [mem_block, Event.isNoValue, text_literal]
  fault e := by
    constructor
    · rintro ⟨he, hlevel⟩
      obtain ⟨f, hf, rfl⟩ := exists_fault_of_level he hlevel
      exact ⟨f, hf, rfl, message_failed h hf⟩
    · rintro ⟨f, hf, rfl, -⟩
      exact ⟨mem_block.mpr (.inr (.inr (.inr (.inr ⟨f, hf, rfl⟩)))), rfl⟩
  fault_last e he hlevel := by
    obtain ⟨f, hf, rfl⟩ := exists_fault_of_level he hlevel
    rw [block_eq, faultEvents, hf]
    exact List.getLast?_concat
  no_other e he hlevel := by
    cases e <;> simp_all [mem_block, Event.level, Event.isCached, Event.isNoValue]

/-! ## Runs -/

/-- A run that comes to its end has the counts of its lexemes. -/
theorem eq_tallyFrom_of_ok (h : (l.runFrom column before tally sink lexemes).value.1 = .ok t) :
    t = l.tallyFrom before tally lexemes := by
  rw [value_runFrom] at h
  split at h
  · exact (Except.ok.inj h).symm
  · cases h

/-- **The log of a run** is the blocks of its lexemes, in order, and then the counts. -/
theorem events_runFrom (h : (l.runFrom column before tally sink lexemes).value.1 = .ok t) :
    (l.runFrom column before tally sink lexemes).events =
      (lexemes.mapIdx fun i => l.block (before + i)).flatten ++
        [.finished (before + lexemes.length) t.valued t.faulty] := by
  induction lexemes generalizing before tally sink with
  | nil =>
    cases h
    rfl
  | cons lexeme lexemes ih =>
    rw [mapIdx_cons_from, List.flatten_cons, List.append_assoc, List.length_cons,
      ← Nat.add_assoc, Nat.add_right_comm before lexemes.length 1]
    simp only [runFrom, Logged.events_bind, Logged.value_bind] at h ⊢
    refine congrArg (l.block before lexeme ++ ·) ?_
    -- the run goes on just if the entry fits
    rcases hwrite : sink.writeAll ((l.entry before lexeme).value.chunks column l.form) with
      ⟨_ | failure, s⟩
    · rw [hwrite] at h
      exact ih h
    · rw [hwrite] at h
      cases h

/-- The faults told in a block. -/
theorem countP_block (l : Listing) (before : Nat) (lexeme : String) :
    (l.block before lexeme).countP (·.level = .info) = if l.hasValue lexeme then 0 else 1 := by
  have hnone : (l.literal before lexeme).fillEvents.countP (·.level = .info) = 0 := by
    rw [List.countP_eq_zero]
    intro e he
    simpa using level_ne_info_of_mem_fill he
  have hplace : (l.literal 0 lexeme).resolve = (l.literal before lexeme).resolve := rfl
  rw [block_eq, List.countP_append, hnone, Nat.zero_add, faultEvents, hasValue, hplace]
  cases (l.literal before lexeme).resolve.value <;> rfl

/-- The faults told in all blocks are those of the lexemes without a value. -/
theorem countP_blocks (l : Listing) (before : Nat) (lexemes : List String) :
    (lexemes.mapIdx fun i => l.block (before + i)).flatten.countP (·.level = .info) =
      lexemes.countP (!l.hasValue ·) := by
  induction lexemes generalizing before with
  | nil => rfl
  | cons lexeme lexemes ih =>
    rw [mapIdx_cons_from, List.flatten_cons, List.countP_append, countP_block, ih, List.countP_cons,
      Nat.add_comm]
    cases l.hasValue lexeme <;> rfl

end Listing

end ScriptLiteral
