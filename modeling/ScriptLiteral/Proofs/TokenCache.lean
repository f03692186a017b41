import ScriptLiteral.Token.Store

/-!
# The cells of a store do not show

A token keeps its resolution in a cell once it has been asked for, and a clone takes the cell of
its model along. None of that shows in a reply. The invariant is that a full cell holds what the
literal resolves to (`Token.IsSound`). Forcing a token keeps it and answers with the resolution of
the literal, whether the cell was full or empty, so `Store.answer_of_isSound` can say what a request
does by the literals alone: `Request.reply` and `Request.literals` know of no cells.

A sequence of requests keeps the invariant from the empty store on, by induction. The main result,
`cells_unobservable`, reads the replies off it and compares the run with one in which every cell is
emptied before each request.
-/

namespace ScriptLiteral

/-! ## Resolutions compared -/

theorem Binary64.same_refl (x : Binary64) : x.same x = true := by
  simp [same]

theorem Value.same_refl (v : Value) : v.same v = true := by
  cases v with
  | null => rfl
  | number x => exact x.same_refl
  | string s => simp [same]

/-- A resolution is the same as itself, even if its value is not a number. -/
theorem Resolution.same_refl (r : Resolution) : r.same r = true := by
  cases r with
  | ok v => exact v.same_refl
  | error f => simp [same]

/-! ## One token -/

namespace Token

variable {t : Token}

/-- A full cell holds what the literal resolves to. -/
def IsSound (t : Token) : Prop := ∀ r, t.cell = some r → r = t.literal.resolve.value

theorem isSound_ofLiteral (l : Literal) : (ofLiteral l).IsSound := by
  intro r h
  cases h

/-- **Forcing a token** answers with the resolution of its literal, from a full cell as from an
empty one; the literal stays, and so does the invariant. -/
theorem IsSound.force (h : t.IsSound) :
    t.force.value.1 = t.literal.resolve.value ∧ t.force.value.2.literal = t.literal ∧
      t.force.value.2.IsSound := by
  rcases hc : t.cell with _ | r
  · rw [value_force_of_cell_eq_none hc]
    refine ⟨rfl, rfl, ?_⟩
    intro r hr
    exact (Option.some.inj hr).symm
  · rw [force_of_cell_eq_some hc]
    exact ⟨h r hc, rfl, h⟩

/-- Tokens are compared by their literals. -/
theorem beq_eq (t u : Token) : (t == u) = (t.literal == u.literal) := rfl

end Token

/-! ## Requests without cells -/

namespace Request

/-- What a store of the given literals is to reply, by what they resolve to. -/
@[simp] def reply (ls : List Literal) : Request → Reply
  | add _ => .added ls.length
  | clone t => ls[t]?.elim .missing fun _ => .added ls.length
  | fresh t => ls[t]?.elim .missing fun _ => .added ls.length
  | resolve t => ls[t]?.elim .missing fun l => .resolution l.resolve.value
  | diagnose t => ls[t]?.elim .missing fun l => .report (l.resolve.value.orDiagnostic l.span)
  | describe t => ls[t]?.elim .missing .literal
  | equal t u =>
    ls[t]?.elim .missing fun l => ls[u]?.elim .missing fun m => .equality (l == m) (l == m)
  | sameValue t u =>
    ls[t]?.elim .missing fun l =>
      ls[u]?.elim .missing fun m => .same (l.resolve.value.same m.resolve.value)

/-- The literals of the tokens that a request adds. -/
@[simp] def literals (ls : List Literal) : Request → List Literal
  | add l => [l]
  | clone t => ls[t]?.toList
  | fresh t => ls[t]?.toList
  | _ => []

end Request

/-! ## Stores -/

namespace Store

variable {s : Store}

/-- The literals of the tokens, in order. -/
def literals (s : Store) : List Literal := s.map Token.literal

/-- Every full cell holds what its literal resolves to. -/
def IsSound (s : Store) : Prop := ∀ t ∈ s, t.IsSound

@[simp] theorem getElem?_literals (s : Store) (t : Nat) :
    s.literals[t]? = s[t]?.map Token.literal :=
  List.getElem?_map

@[simp] theorem length_literals (s : Store) : s.literals.length = s.length :=
  List.length_map _

theorem isSound_nil : IsSound [] := by
  intro t ht
  cases ht

theorem IsSound.push {token : Token} (hs : s.IsSound) (ht : token.IsSound) :
    (s.push token).2.IsSound := by
  intro u hu
  rcases List.mem_append.mp hu with hu | hu
  · exact hs u hu
  · rw [List.mem_singleton.mp hu]
    exact ht

@[simp] theorem literals_push (s : Store) (token : Token) :
    (s.push token).2.literals = s.literals ++ [token.literal] :=
  List.map_append

@[simp] theorem reply_push (s : Store) (token : Token) :
    (s.push token).1 = .added s.length := rfl

/-- Forcing one token of a store answers with the resolution of its literal, changes no literal and
keeps the invariant. -/
theorem IsSound.force (hs : s.IsSound) (t : Nat) :
    ∃ s', (s.force t).value = (s.literals[t]?.map (·.resolve.value), s') ∧
      s'.literals = s.literals ∧ s'.IsSound := by
  rw [getElem?_literals]
  rcases ht : s[t]? with _ | token
  · exact ⟨s, by simp [Store.force, ht], rfl, hs⟩
  · obtain ⟨hr, hl, hsound⟩ := (hs token (List.mem_of_getElem? ht)).force
    refine ⟨s.set t token.force.value.2, by simp [Store.force, ht, hr], ?_, ?_⟩
    · -- the token that is put back has the literal that stood there
      refine List.ext_getElem? fun i => ?_
      rw [getElem?_literals, getElem?_literals, List.getElem?_set]
      by_cases hi : t = i
      · subst hi
        rw [if_pos rfl, if_pos (List.getElem?_eq_some_iff.mp ht).1, ht, Option.map_some,
          Option.map_some, hl]
      · simp [hi]
    · intro u hu
      rcases List.mem_or_eq_of_mem_set hu with hu | rfl
      · exact hs u hu
      · exact hsound

/-- **One request.** The reply is the one that the literals call for, the literals stay where they
are, with those that the request adds after them, and the invariant is kept. -/
theorem IsSound.answer (hs : s.IsSound) (q : Request) :
    (s.answer q).value.1 = q.reply s.literals ∧
      (s.answer q).value.2.literals = s.literals ++ q.literals s.literals ∧
      (s.answer q).value.2.IsSound := by
  cases q with
  | add l =>
    refine ⟨?_, literals_push s _, hs.push (Token.isSound_ofLiteral l)⟩
    simp [Store.answer]
  | clone t =>
    rcases ht : s[t]? with _ | token
    · simp [Store.answer, ht, hs]
    · have hsound := hs.push (hs token (List.mem_of_getElem? ht))
      simp [Store.answer, ht, hsound]
  | fresh t =>
    rcases ht : s[t]? with _ | token
    · simp [Store.answer, ht, hs]
    · have hsound := hs.push (Token.isSound_ofLiteral token.literal)
      simp [Store.answer, ht, hsound]
  | resolve t =>
    obtain ⟨s', hf, hl, hsound⟩ := hs.force t
    rcases ht : s[t]? with _ | token
    · simp [Store.answer, hf, ht, hl, hsound]
    · simp [Store.answer, hf, ht, hl, hsound]
  | diagnose t =>
    obtain ⟨s', hf, hl, hsound⟩ := hs.force t
    rcases ht : s[t]? with _ | token
    · simp [Store.answer, hf, ht, hl, hsound]
    · simp [Store.answer, hf, ht, hl, hsound]
  | describe t =>
    rcases ht : s[t]? with _ | token
    · simp [Store.answer, ht, hs]
    · simp [Store.answer, ht, hs]
  | equal t u =>
    rcases ht : s[t]? with _ | a
    · simp [Store.answer, ht, hs]
    · rcases hu : s[u]? with _ | b
      · simp [Store.answer, ht, hu, hs]
      · simp [Store.answer, ht, hu, hs, Token.beq_eq]
  | sameValue t u =>
    -- the second token may be the first one, whose cell is full by then
    obtain ⟨s₁, hf₁, hl₁, hsound₁⟩ := hs.force t
    obtain ⟨s₂, hf₂, hl₂, hsound₂⟩ := hsound₁.force u
    rcases ht : s[t]? with _ | a
    · simp [Store.answer, hf₁, hf₂, ht, hl₁, hl₂, hsound₂]
    · rcases hu : s[u]? with _ | b
      · simp [Store.answer, hf₁, hf₂, ht, hu, hl₁, hl₂, hsound₂]
      · simp [Store.answer, hf₁, hf₂, ht, hu, hl₁, hl₂, hsound₂]

/-! ## Sequences of requests -/

/-- The store after a sequence of requests. -/
def after (s : Store) : List Request → Store
  | [] => s
  | q :: qs => after (s.answer q).value.2 qs

/-- The store with every cell emptied. -/
def emptied (s : Store) : Store := s.literals.map Token.ofLiteral

/-- The replies to a sequence of requests, each with its log and the store after it, where every
cell is emptied before each request. -/
def answersEmptied (s : Store) : List Request → List (Logged (Reply × Store))
  | [] => []
  | q :: qs => s.emptied.answer q :: answersEmptied (s.emptied.answer q).value.2 qs

/-- The replies alone. -/
def replies (answers : List (Logged (Reply × Store))) : List Reply := answers.map (·.value.1)

theorem isSound_emptied (s : Store) : s.emptied.IsSound := by
  intro t ht
  obtain ⟨l, -, rfl⟩ := List.mem_map.mp ht
  exact Token.isSound_ofLiteral l

@[simp] theorem literals_emptied (s : Store) : s.emptied.literals = s.literals := by
  rw [emptied, literals, List.map_map]
  exact List.map_id _

/-- The invariant holds after every sequence of requests. -/
theorem IsSound.after (hs : s.IsSound) (qs : List Request) : (s.after qs).IsSound := by
  induction qs generalizing s with
  | nil => exact hs
  | cons q qs ih => exact ih (hs.answer q).2.2

/-- Stores of the same literals reply alike to a sequence of requests, and go on to do so if the
cells of one of them are emptied every time. -/
theorem IsSound.replies_eq {s' : Store} (hs : s.IsSound) (h : s'.literals = s.literals)
    (qs : List Request) : replies (s.answers qs) = replies (s'.answersEmptied qs) := by
  induction qs generalizing s s' with
  | nil => rfl
  | cons q qs ih =>
    obtain ⟨hreply, hliterals, hsound⟩ := hs.answer q
    obtain ⟨hreply', hliterals', -⟩ := s'.isSound_emptied.answer q
    rw [literals_emptied, h] at hreply' hliterals'
    have hrest := ih hsound (hliterals'.trans hliterals.symm)
    simp only [replies, answers, answersEmptied, List.map_cons, List.cons.injEq] at hrest ⊢
    exact ⟨hreply.trans hreply'.symm, hrest⟩

/-- A literal that stands in a store stands in the same place after a request. -/
theorem IsSound.literal_answer (hs : s.IsSound) (q : Request) {t : Nat} {token : Token}
    (ht : s[t]? = some token) :
    ∃ token', (s.answer q).value.2[t]? = some token' ∧ token'.literal = token.literal := by
  have hl : s.literals[t]? = some token.literal := by simp [ht]
  have hkept : (s.answer q).value.2.literals[t]? = some token.literal := by
    rw [(hs.answer q).2.1, List.getElem?_append_left (List.getElem?_eq_some_iff.mp hl).1, hl]
  rwa [getElem?_literals, Option.map_eq_some_iff] at hkept

end Store

/-! ## Faults reported -/

/-- The compiler is at fault for kinds that stand for no value, and for nothing else. -/
theorem Fault.category_eq_internalError_iff {f : Fault} :
    f.category = .internalError ↔ ∃ kind, f = .unsupported kind := by
  cases f <;> simp [category]

/-! ## The replies -/

/-- **Cells do not show.** After any requests, every full cell holds the resolution of its literal,
and no further request changes a literal. What is replied about a token is what its literal resolves
to, or the report about its fault; tokens are equal if their literals are, and have the same value
if these resolve to the same, so equal tokens do. All replies are those of the run in which every
cell is emptied before each request. -/
theorem cells_unobservable (past : List Request) :
    let s := Store.after [] past
    (∀ token ∈ s, ∀ r, token.cell = some r → r = token.literal.resolve.value) ∧
    (∀ q (t : Nat) (token : Token), s[t]? = some token → ∃ token' : Token,
      (s.answer q).value.2[t]? = some token' ∧ token'.literal.kind = token.literal.kind ∧
      token'.literal.text = token.literal.text ∧ token'.literal.span = token.literal.span) ∧
    (∀ t token, s[t]? = some token →
      (s.answer (.resolve t)).value.1 = .resolution token.literal.resolve.value ∧
      (∀ v, token.literal.resolve.value = .ok v →
        (s.answer (.diagnose t)).value.1 = .report (.ok v)) ∧
      (∀ f, token.literal.resolve.value = .error f → ∃ c,
        (s.answer (.diagnose t)).value.1 =
          .report (.error ⟨c, f.message, some token.literal.span.start⟩) ∧
        (c = .internalError ↔ ∃ kind, f = .unsupported kind))) ∧
    (∀ t u a b, s[t]? = some a → s[u]? = some b →
      (∃ e, (s.answer (.equal t u)).value.1 = .equality e e ∧
        (e = true ↔ a.literal.kind = b.literal.kind ∧ a.literal.text = b.literal.text ∧
          a.literal.span = b.literal.span) ∧
        (e = true → (s.answer (.sameValue t u)).value.1 = .same true)) ∧
      (s.answer (.sameValue t u)).value.1 =
        .same (a.literal.resolve.value.same b.literal.resolve.value)) ∧
    ∀ qs, Store.replies (s.answers qs) = Store.replies (s.answersEmptied qs) := by
  intro s
  have hs : s.IsSound := Store.isSound_nil.after past
  have hreply := fun q => (hs.answer q).1
  refine ⟨hs, ?_, ?_, ?_, fun qs => hs.replies_eq rfl qs⟩
  · intro q t token ht
    obtain ⟨token', ht', hl⟩ := hs.literal_answer q ht
    refine ⟨token', ht', ?_⟩
    rw [hl]
    exact ⟨rfl, rfl, rfl⟩
  · intro t token ht
    refine ⟨by simp [hreply, ht], ?_, ?_⟩
    · intro v hv
      simp [hreply, ht, hv, Resolution.orDiagnostic]
    · intro f hf
      refine ⟨f.category, ?_, Fault.category_eq_internalError_iff⟩
      simp [hreply, ht, hf, Resolution.orDiagnostic, Fault.diagnostic]
  · intro t u a b ht hu
    refine ⟨⟨a.literal == b.literal, ?_, ?_, ?_⟩, by simp [hreply, ht, hu]⟩
    · simp [hreply, ht, hu]
    · rw [beq_iff_eq, Literal.ext_iff]
    · intro he
      simp [hreply, ht, hu, eq_of_beq he, Resolution.same_refl]

end ScriptLiteral
