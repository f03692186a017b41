import ScriptLiteral.Proofs.TokenCache

/-!
# When cells are filled

A request touches the tokens whose resolution it asks for (`Request.touched`). That is all it does to
a store, apart from adding a token at the end: the cells of the touched tokens are full afterwards,
and every other token is what it was (`Store.getElem?_answer`). A cell that is full stays as it is,
so each cell is filled once.

The log of a request is told by the cells that it finds empty. They are filled in the order in which
they are touched, and a token that is touched twice is found full the second time
(`Store.exists_turned`). So the events of keeping a result count the cells that went from empty to
full, over one request and, by induction, over a sequence of them.
-/

namespace ScriptLiteral

/-! ## Filling one cell -/

/-- What is told when a cell of the literal is filled: what finding its resolution tells, and that
the resolution is kept. -/
def Literal.fillEvents (l : Literal) : List Event :=
  l.resolve.events ++ [.cached l.kind l.text l.resolve.value.isOk]

/-- Whether the event tells that a resolution is kept. -/
def Event.isCached : Event → Bool
  | cached _ _ _ => true
  | _ => false

/-- Finding a resolution tells of no resolution kept. -/
theorem Literal.not_isCached_of_mem_resolve {l : Literal} {e : Event}
    (he : e ∈ l.resolve.events) : e.isCached = false := by
  obtain ⟨kind, text, span⟩ := l
  cases kind with
  | null => simp [resolve] at he
  | number =>
    simp only [resolve, numberValue, Logged.events_bind, Logged.events_pure,
      List.append_nil] at he
    split at he
    · cases he
    · obtain rfl : e = .notANumber text := by simpa using he
      rfl
  | string =>
    simp only [resolve, stringValue, Logged.events_bind, Logged.events_pure,
      List.append_nil] at he
    split at he
    · next inner _ =>
      rw [interiorValue] at he
      split at he
      · cases he
      · obtain rfl : e = .plainString (byteLength inner) := by simpa using he
        rfl
    · cases he
  | regularExpression =>
    obtain rfl : e = .noValue .regularExpression text := by simpa [resolve] using he
    rfl
  | template =>
    obtain rfl : e = .noValue .template text := by simpa [resolve] using he
    rfl

/-- Filling a cell tells once that a resolution is kept. -/
theorem Literal.countP_fillEvents (l : Literal) : l.fillEvents.countP Event.isCached = 1 := by
  have hnone : l.resolve.events.countP Event.isCached = 0 := by
    rw [List.countP_eq_zero]
    intro e he
    simp [not_isCached_of_mem_resolve he]
  rw [fillEvents, List.countP_append, hnone]
  rfl

namespace Token

variable {t : Token}

/-- The token with its cell full. A full cell keeps what it holds. -/
def filled (t : Token) : Token := ⟨t.literal, some (t.cell.getD t.literal.resolve.value)⟩

/-- What is told when the cell is asked for. -/
def told (t : Token) : List Event := if t.isForced then [] else t.literal.fillEvents

@[simp] theorem literal_filled (t : Token) : t.filled.literal = t.literal := rfl

@[simp] theorem isForced_filled (t : Token) : t.filled.isForced = true := rfl

theorem filled_eq_self (h : t.isForced = true) : t.filled = t := by
  obtain ⟨r, hr⟩ := Option.isSome_iff_exists.mp h
  simp [filled, Token.ext_iff, hr]

@[simp] theorem filled_filled (t : Token) : t.filled.filled = t.filled :=
  filled_eq_self t.isForced_filled

/-- **Forcing a token** fills its cell and tells of it if the cell was empty. -/
theorem force_eq (t : Token) :
    t.force = ⟨(t.cell.getD t.literal.resolve.value, t.filled), t.told⟩ := by
  rcases hc : t.cell with _ | r
  · simp [Logged.ext_iff, force, told, isForced, filled, Literal.fillEvents, hc]
  · have hfull : t.isForced = true := by simp [isForced, hc]
    rw [force_of_cell_eq_some hc, filled_eq_self hfull, told, if_pos hfull]
    rfl

end Token

/-! ## Requests -/

namespace Request

/-- The tokens whose resolution a request asks for, in the order in which it does. -/
def touched : Request → List Nat
  | resolve t => [t]
  | diagnose t => [t]
  | sameValue t u => [t, u]
  | _ => []

/-- The tokens that a request adds. -/
@[simp] def added (s : Store) : Request → List Token
  | add l => [.ofLiteral l]
  | clone t => s[t]?.toList
  | fresh t => (s[t]?.map fun token => .ofLiteral token.literal).toList
  | _ => []

end Request

namespace Store

variable {s s' : Store} {i : Nat} {token : Token}

/-- The store with the cell of one token full. -/
def fill (s : Store) (t : Nat) : Store := s.modify t Token.filled

/-- What is told when the cell of a token is asked for. -/
def toldAt (s : Store) (t : Nat) : List Event := s[t]?.elim [] Token.told

/-- What is told when the cells of some tokens are asked for, one after the other. -/
def toldFor (s : Store) : List Nat → List Event
  | [] => []
  | t :: ts => s.toldAt t ++ (s.fill t).toldFor ts

theorem getElem?_fill (s : Store) (t i : Nat) :
    (s.fill t)[i]? = s[i]?.map fun token => if t = i then token.filled else token := by
  rw [fill, List.getElem?_modify]
  rfl

/-- Forcing a token of a store fills its cell. -/
theorem force_eq (s : Store) (t : Nat) :
    s.force t = ⟨(s[t]?.map fun token => token.cell.getD token.literal.resolve.value, s.fill t),
      s.toldAt t⟩ := by
  rcases ht : s[t]? with _ | token
  · have hlen : s.length ≤ t := List.getElem?_eq_none_iff.mp ht
    simp [Logged.ext_iff, force, fill, toldAt, ht, List.modify_eq_self hlen]
  · have hlt : t < s.length := (List.getElem?_eq_some_iff.mp ht).1
    have hset : s.set t token.filled = s.fill t := by
      refine List.ext_getElem? fun j => ?_
      rw [getElem?_fill, List.getElem?_set]
      by_cases hj : t = j
      · subst hj
        rw [if_pos rfl, if_pos hlt, ht, Option.map_some, if_pos rfl]
      · simp [hj]
    simp [Logged.ext_iff, force, toldAt, ht, Token.force_eq, hset]

/-- **One request** fills the cells of the tokens that it touches and tells of those it finds empty;
then it adds its tokens. -/
theorem answer_eq (s : Store) (q : Request) :
    (s.answer q).value.2 = q.touched.foldl fill s ++ q.added s ∧
      (s.answer q).events = s.toldFor q.touched := by
  cases q with
  | add l => exact ⟨rfl, rfl⟩
  | clone t => rcases ht : s[t]? with _ | token <;> simp [answer, push, toldFor, Request.touched, ht]
  | fresh t => rcases ht : s[t]? with _ | token <;> simp [answer, push, toldFor, Request.touched, ht]
  | resolve t =>
    rcases ht : s[t]? with _ | token <;> simp [answer, force_eq, toldFor, Request.touched, ht]
  | diagnose t =>
    rcases ht : s[t]? with _ | token <;> simp [answer, force_eq, toldFor, Request.touched, ht]
  | describe t =>
    rcases ht : s[t]? with _ | token <;> simp [answer, toldFor, Request.touched, ht]
  | equal t u =>
    rcases ht : s[t]? with _ | a <;> rcases hu : s[u]? with _ | b <;>
      simp [answer, toldFor, Request.touched, ht, hu]
  | sameValue t u =>
    rcases ht : s[t]? with _ | a <;> rcases hu : (s.fill t)[u]? with _ | b <;>
      simp [answer, force_eq, toldFor, Request.touched, ht, hu]

/-! ## What a request leaves -/

/-- Filling cells twice is filling them once. -/
theorem getElem?_foldl_fill (s : Store) (ts : List Nat) (i : Nat) :
    (ts.foldl fill s)[i]? = s[i]?.map fun token => if i ∈ ts then token.filled else token := by
  induction ts generalizing s with
  | nil => simp
  | cons t ts ih =>
    rw [List.foldl_cons, ih, getElem?_fill, Option.map_map]
    refine congrArg (Option.map · s[i]?) (funext fun token => ?_)
    by_cases ht : t = i
    · simp [ht]
    · simp [ht, Ne.symm ht]

theorem length_foldl_fill (s : Store) (ts : List Nat) : (ts.foldl fill s).length = s.length := by
  induction ts generalizing s with
  | nil => rfl
  | cons t ts ih =>
    rw [List.foldl_cons, ih]
    exact List.length_modify ..

theorem length_answer (s : Store) (q : Request) :
    (s.answer q).value.2.length = s.length + (q.added s).length := by
  rw [(answer_eq s q).1, List.length_append, length_foldl_fill]

/-- **The tokens after a request**: full where it touches them, and else as they were. -/
theorem getElem?_answer (q : Request) (h : s[i]? = some token) :
    (s.answer q).value.2[i]? = some (if i ∈ q.touched then token.filled else token) := by
  have hlt : i < (q.touched.foldl fill s).length := by
    rw [length_foldl_fill]
    exact (List.getElem?_eq_some_iff.mp h).1
  rw [(answer_eq s q).1, List.getElem?_append_left hlt, getElem?_foldl_fill, h, Option.map_some]

/-- Whether the cell of a token is full; nothing if there is no such token. -/
def forced? (s : Store) (i : Nat) : Option Bool := s[i]?.map Token.isForced

/-- The cell of the token is empty in one store and full in the other. -/
def Turns (s s' : Store) (i : Nat) : Prop := s.forced? i = some false ∧ s'.forced? i = some true

instance : Decidable (s.Turns s' i) := inferInstanceAs (Decidable (_ ∧ _))

theorem forced?_eq_some_iff {b : Bool} :
    s.forced? i = some b ↔ ∃ token, s[i]? = some token ∧ token.isForced = b :=
  Option.map_eq_some_iff

/-- A cell is full after a request if it was full or is touched. -/
theorem forced?_answer {b : Bool} (q : Request) (h : s.forced? i = some b) :
    (s.answer q).value.2.forced? i = some (b || i ∈ q.touched) := by
  obtain ⟨token, ht, rfl⟩ := forced?_eq_some_iff.mp h
  rw [forced?, getElem?_answer q ht, Option.map_some]
  by_cases hi : i ∈ q.touched <;> simp [hi]

/-- The cells that a request fills are the empty ones that it touches. -/
theorem turns_answer_iff {q : Request} :
    s.Turns (s.answer q).value.2 i ↔ i ∈ q.touched ∧ s.forced? i = some false := by
  refine ⟨fun h => ?_, fun h => ?_⟩
  · have hfull := h.2
    rw [forced?_answer q h.1] at hfull
    exact ⟨by simpa using hfull, h.1⟩
  · refine ⟨h.2, ?_⟩
    rw [forced?_answer q h.2]
    simp [h.1]

/-! ## What a request tells -/

/-- What is told when a token with an empty cell is filled. -/
def fillEventsAt (s : Store) (i : Nat) : List Event := s[i]?.elim [] (·.literal.fillEvents)

/-- A cell stays full. -/
theorem forced?_fill (s : Store) (t i : Nat) :
    (s.fill t).forced? i = (s.forced? i).map fun b => b || decide (t = i) := by
  rw [forced?, forced?, getElem?_fill, Option.map_map, Option.map_map]
  refine congrArg (Option.map · s[i]?) (funext fun token => ?_)
  by_cases ht : t = i <;> simp [ht]

/-- Filling a cell changes no literal. -/
theorem fillEventsAt_fill (s : Store) (t i : Nat) :
    (s.fill t).fillEventsAt i = s.fillEventsAt i := by
  rw [fillEventsAt, fillEventsAt, getElem?_fill]
  rcases s[i]? with _ | token
  · rfl
  · by_cases ht : t = i <;> simp [ht]

/-- **The cells found empty**, in the order in which they are touched, are those told of. -/
theorem exists_turned (s : Store) (ts : List Nat) :
    ∃ turned : List Nat, turned.Sublist ts ∧ turned.Nodup ∧
      (∀ i, i ∈ turned ↔ i ∈ ts ∧ s.forced? i = some false) ∧
      s.toldFor ts = turned.flatMap s.fillEventsAt := by
  induction ts generalizing s with
  | nil => exact ⟨[], .slnil, .nil, by simp, rfl⟩
  | cons t ts ih =>
    obtain ⟨turned, hsub, hnodup, hmem, htold⟩ := ih (s.fill t)
    have hrest : turned.flatMap (s.fill t).fillEventsAt = turned.flatMap s.fillEventsAt :=
      congrArg turned.flatMap (funext fun i => fillEventsAt_fill s t i)
    rw [toldFor, htold, hrest]
    by_cases ht : s.forced? t = some false
    · -- the token is found empty now, and full from here on
      obtain ⟨token, htoken, hempty⟩ := forced?_eq_some_iff.mp ht
      have hfull : t ∉ turned := by
        rw [hmem, forced?_fill, ht]
        simp
      refine ⟨t :: turned, hsub.cons_cons t, List.nodup_cons.mpr ⟨hfull, hnodup⟩, fun i => ?_, ?_⟩
      · rw [List.mem_cons, List.mem_cons, hmem, forced?_fill]
        by_cases hi : i = t
        · simp [hi, ht]
        · simp [hi, Ne.symm hi]
      · simp [toldAt, fillEventsAt, htoken, Token.told, hempty]
    · refine ⟨turned, hsub.cons t, hnodup, fun i => ?_, ?_⟩
      · rw [List.mem_cons, hmem, forced?_fill]
        by_cases hi : i = t
        · rw [hi]
          rcases hf : s.forced? t with _ | b
          · simp
          · cases b <;> simp_all
        · simp [hi, Ne.symm hi]
      · have hnothing : s.toldAt t = [] := by
          rcases htoken : s[t]? with _ | token
          · simp [toldAt, htoken]
          · have hforced : token.isForced = true := by simpa [forced?, htoken] using ht
            simp [toldAt, htoken, Token.told, hforced]
        rw [hnothing, List.nil_append]

/-- The cells that a request turns from empty to full are told of in the order in which it touches
them. -/
theorem exists_turned_answer (s : Store) (q : Request) :
    ∃ turned : List Nat, turned.Sublist q.touched ∧ turned.Nodup ∧
      (∀ i, i ∈ turned ↔ s.Turns (s.answer q).value.2 i) ∧
      (s.answer q).events = turned.flatMap s.fillEventsAt := by
  obtain ⟨turned, hsub, hnodup, hmem, htold⟩ := s.exists_turned q.touched
  exact ⟨turned, hsub, hnodup, fun i => (hmem i).trans turns_answer_iff.symm,
    (answer_eq s q).2.trans htold⟩

/-- **One request counted.** It tells as often that a resolution is kept as it turns a cell from
empty to full. -/
theorem countP_events_answer (s : Store) (q : Request) :
    (s.answer q).events.countP Event.isCached =
      (List.range s.length).countP (s.Turns (s.answer q).value.2 ·) := by
  obtain ⟨turned, -, hnodup, hmem, htold⟩ := s.exists_turned_answer q
  have hperm : turned.Perm ((List.range s.length).filter (s.Turns (s.answer q).value.2 ·)) := by
    refine (List.perm_ext_iff_of_nodup hnodup (List.nodup_range.filter _)).mpr fun i => ?_
    rw [hmem, List.mem_filter, List.mem_range, decide_eq_true_eq]
    refine ⟨fun h => ⟨?_, h⟩, And.right⟩
    obtain ⟨token, ht, -⟩ := forced?_eq_some_iff.mp h.1
    exact (List.getElem?_eq_some_iff.mp ht).1
  have hone : ∀ i ∈ turned, (s.fillEventsAt i).countP Event.isCached = 1 := by
    intro i hi
    obtain ⟨token, ht, -⟩ := forced?_eq_some_iff.mp ((hmem i).mp hi).1
    rw [fillEventsAt, ht]
    exact token.literal.countP_fillEvents
  have hsum : (turned.map fun i => (s.fillEventsAt i).countP Event.isCached) =
      turned.map fun _ => 1 := List.map_congr_left hone
  calc (s.answer q).events.countP Event.isCached
      = (turned.map fun i => (s.fillEventsAt i).countP Event.isCached).sum := by
        rw [htold, List.countP_flatMap]
        rfl
    _ = turned.length := by
        rw [hsum, List.map_const', List.sum_replicate_nat, Nat.mul_one]
    _ = (List.range s.length).countP (s.Turns (s.answer q).value.2 ·) := by
        rw [List.countP_eq_length_filter, hperm.length_eq]

/-! ## Sequences of requests -/

/-- How often a sequence of requests turns a cell from empty to full. -/
def turnCount (s : Store) : List Request → Nat
  | [] => 0
  | q :: qs =>
    (List.range s.length).countP (s.Turns (s.answer q).value.2 ·) +
      (s.answer q).value.2.turnCount qs

/-- A cell is full after a sequence of requests if it was full or one of them touches it. -/
theorem forced?_after {b : Bool} (qs : List Request) (h : s.forced? i = some b) :
    (s.after qs).forced? i = some (b || qs.any (i ∈ ·.touched)) := by
  induction qs generalizing s b with
  | nil => simpa [after] using h
  | cons q qs ih =>
    rw [after, ih (forced?_answer q h), List.any_cons, Bool.or_assoc]

/-- **Sequences counted.** -/
theorem countP_events_answers (s : Store) (qs : List Request) :
    ((s.answers qs).flatMap (·.events)).countP Event.isCached = s.turnCount qs := by
  induction qs generalizing s with
  | nil => rfl
  | cons q qs ih =>
    rw [answers, List.flatMap_cons, List.countP_append, countP_events_answer, ih, turnCount]

end Store

/-! ## The cells of a store -/

/-- **A cell is filled once, and nothing else is touched.** A token that is added has an empty cell,
unless it is a clone, whose cell is that of its model. A request leaves all other tokens where they
are; it fills the cells that it touches and changes nothing about tokens whose cells are full or that
it does not touch. It tells of the cells that it turns from empty to full, each once and in the order
in which it touches them: the events of resolving the literal and then one that the resolution is
kept. Over any sequence of requests, a cell is full if it was or if one of them touches it, so that
a clone and its model go their own ways, and the events of keeping a resolution are as many as the
cells that were filled. -/
theorem cells_filled_once (s : Store) :
    (∀ l, (s.answer (.add l)).value.2 = s ++ [⟨l, none⟩]) ∧
    (∀ t token, s[t]? = some token →
      (s.answer (.fresh t)).value.2 = s ++ [⟨token.literal, none⟩] ∧
      (s.answer (.clone t)).value.2 = s ++ [token] ∧
      ∀ qs, let s' := (s.answer (.clone t)).value.2.after qs
        s'.forced? t = some (token.isForced || qs.any (t ∈ ·.touched)) ∧
        s'.forced? s.length = some (token.isForced || qs.any (s.length ∈ ·.touched))) ∧
    (∀ q, let s' := (s.answer q).value.2
      s'.length = s.length + (q.added s).length ∧
      (∀ i token, s[i]? = some token → ∃ token', s'[i]? = some token' ∧
        token'.literal = token.literal ∧
        token'.isForced = (token.isForced || i ∈ q.touched) ∧
        (token.isForced = true ∨ i ∉ q.touched → token' = token)) ∧
      (∃ turned : List Nat, turned.Sublist q.touched ∧ turned.Nodup ∧
        (∀ i, i ∈ turned ↔ s.forced? i = some false ∧ s'.forced? i = some true) ∧
        (s.answer q).events = turned.flatMap fun i => s[i]?.elim [] fun token =>
          token.literal.resolve.events ++ [.cached token.literal.kind token.literal.text
            token.literal.resolve.value.isOk]) ∧
      ((∀ i ∈ q.touched, s.forced? i = some true) → (s.answer q).events = [])) ∧
    (∀ qs, (∀ i b, s.forced? i = some b →
        (s.after qs).forced? i = some (b || qs.any (i ∈ ·.touched))) ∧
      ((s.answers qs).flatMap (·.events)).countP Event.isCached = s.turnCount qs) ∧
    ∀ (l : Literal) ok, (Event.cached l.kind l.text ok).level = .debug ∧
      (Event.cached l.kind l.text ok).message = "cached " ++ l.kind.name ++ " literal " ++ l.text ++
        if ok then " (ok)" else " (error)" := by
  refine ⟨fun l => rfl, fun t token ht => ?_, fun q => ⟨s.length_answer q, ?_, ?_, ?_⟩,
    fun qs => ⟨fun i b h => Store.forced?_after qs h, s.countP_events_answers qs⟩, ?_⟩
  · have hclone : (s.answer (.clone t)).value.2 = s ++ [token] := by
      simp [Store.answer, Store.push, ht]
    have hlt : t < s.length := (List.getElem?_eq_some_iff.mp ht).1
    refine ⟨by simp [Store.answer, Store.push, ht, Token.ofLiteral], hclone, fun qs => ⟨?_, ?_⟩⟩
    · refine Store.forced?_after qs ?_
      rw [hclone, Store.forced?, List.getElem?_append_left hlt, ht]
      rfl
    · refine Store.forced?_after qs ?_
      rw [hclone, Store.forced?, List.getElem?_concat_length]
      rfl
  · intro i token ht
    refine ⟨_, Store.getElem?_answer q ht, ?_⟩
    by_cases hi : i ∈ q.touched
    · simp only [hi, if_true, not_true_eq_false, or_false, decide_true, Bool.or_true]
      exact ⟨rfl, rfl, Token.filled_eq_self⟩
    · simp [hi]
  · exact s.exists_turned_answer q
  · intro hfull
    obtain ⟨turned, -, -, hmem, htold⟩ := s.exists_turned_answer q
    rw [htold, List.flatMap_eq_nil_iff]
    intro i hi
    obtain ⟨htouched, hempty⟩ := Store.turns_answer_iff.mp ((hmem i).mp hi)
    rw [hfull i htouched] at hempty
    cases hempty
  · intro l ok
    cases ok with
    | true => exact ⟨rfl, by rw [if_pos rfl]; rfl⟩
    | false => exact ⟨rfl, by rw [if_neg Bool.false_ne_true]; rfl⟩

end ScriptLiteral
