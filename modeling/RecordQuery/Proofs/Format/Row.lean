import RecordQuery.Format.Parser
import RecordQuery.Proofs.Format.Clause
import RecordQuery.Proofs.Format.RawSql
import RecordQuery.Proofs.Qualifier.Regroup

/-!
# Reading rows

What a text is read as, as a relation that is closed under the ways in which conditions are put
together. `Reads text used q` says that a text is read as one qualifier, wherever it may stand, and
that it takes the given arguments for that; `ReadsRow text used q` says so of a whole row.

* `Reads.negated`, `ReadsRow.inParentheses`: texts after NOT and in parentheses;
* `Reads.row_links`: a row is read as its regrouped qualifiers.

Every step of the parser is paid for by a character: a qualifier needs no more than two steps for
each character of what is left, and a row one more.
-/

namespace RecordQuery.Format

variable {rest : List Char} {args : List Value}

/-- A text that starts with no space. -/
def Opens (text : List Char) : Prop :=
  ∃ c t, text = c :: t ∧ isSpace c = false

/-- A row ends where the text does, or at a closing parenthesis. -/
def EndsRow (r : List Char) : Prop :=
  r = [] ∨ ∃ s, r = ')' :: s

/-- A text is read as one qualifier, with the arguments that it takes. -/
structure Reads (text : List Char) (used : List Value) (q : Qualifier) : Prop where
  opens : Opens text
  read : ∀ (size n : Nat) (rest : List Char) (args : List Value), EndsClause rest →
    2 * (text.length + rest.length) ≤ n →
      oneQualifier size n ⟨text ++ rest, used ++ args⟩ = .ok q ⟨rest, args⟩

/-- A text is read as a row of qualifiers, with the arguments that it takes. -/
structure ReadsRow (text : List Char) (used : List Value) (q : Qualifier) : Prop where
  opens : Opens text
  read : ∀ (size n : Nat) (rest : List Char) (args : List Value), EndsRow rest →
    2 * (text.length + rest.length) + 1 ≤ n →
      row size n none [] ⟨text ++ rest, used ++ args⟩ = .ok q ⟨rest, args⟩

theorem Opens.skipSpaces {text : List Char} (h : Opens text) (r : List Char) :
    skipSpaces (text ++ r) = text ++ r := by
  obtain ⟨c, t, rfl, h₁⟩ := h
  exact skipSpaces_cons_of_not_isSpace h₁ (t ++ r)

theorem Opens.isEmpty {text : List Char} (h : Opens text) (r : List Char) :
    (text ++ r).isEmpty = false := by
  obtain ⟨c, t, rfl, -⟩ := h
  rfl

theorem Opens.append {text : List Char} (h : Opens text) (r : List Char) : Opens (text ++ r) := by
  obtain ⟨c, t, rfl, h₁⟩ := h
  exact ⟨c, t ++ r, rfl, h₁⟩

/-- A text that opens with no space is read as a row from its start. -/
theorem Opens.read_eq {text : List Char} (h : Opens text) (args : List Value) :
    Format.read text args = row (Text.unitCount text) (stepBound text) none [] ⟨text, args⟩ := by
  have h₁ := h.skipSpaces []
  have h₂ := h.isEmpty []
  rw [List.append_nil] at h₁ h₂
  simp [Format.read, h₁, h₂]

theorem Opens.length_pos {text : List Char} (h : Opens text) : 0 < text.length := by
  obtain ⟨c, t, rfl, -⟩ := h
  simp

theorem EndsRow.endsClause {r : List Char} (h : EndsRow r) : EndsClause r := by
  rcases h with rfl | ⟨s, rfl⟩
  · exact endsClause_nil
  · exact endsClause_parenthesis s

/-- The loop of a row stops there. -/
theorem EndsRow.stops {r : List Char} (h : EndsRow r) :
    Format.skipSpaces r = r ∧ (r.isEmpty || startsWith ")" r) = true := by
  rcases h with rfl | ⟨s, rfl⟩
  · exact ⟨rfl, rfl⟩
  · exact ⟨rfl, by simp [startsWith, strip?]⟩

/-! ## Single qualifiers -/

@[simp] theorem Step.map_ok {α β : Type} (f : α → β) (a : α) (c : Cursor) :
    (Step.ok a c).map f = .ok (f a) c := rfl

@[simp] theorem closeParenthesis_parenthesis (q : Qualifier) (r : List Char) (args : List Value) :
    closeParenthesis q ⟨')' :: r, args⟩ = .ok q ⟨r, args⟩ := rfl

/-- A text is never empty, so that there is a first step to read it with. -/
theorem Reads.of_succ {text : List Char} {used : List Value} {q : Qualifier} (ho : Opens text)
    (h : ∀ (size n : Nat) (rest : List Char) (args : List Value), EndsClause rest →
      2 * (text.length + rest.length) ≤ n + 1 →
        oneQualifier size (n + 1) ⟨text ++ rest, used ++ args⟩ = .ok q ⟨rest, args⟩) :
    Reads text used q := by
  refine ⟨ho, fun size n rest args hr hn => ?_⟩
  have h₁ := ho.length_pos
  obtain ⟨n, rfl⟩ : ∃ m, n = m + 1 := ⟨n - 1, by omega⟩
  exact h size n rest args hr hn

theorem oneQualifier_clause (size n : Nat) {s : String} (h : OpensClause s) {r : List Char}
    (hr : EndsName r) :
    oneQualifier size (n + 1) ⟨s.toList ++ r, args⟩ = clause size ⟨s.toList ++ r, args⟩ := by
  have h₁ := h.notNegation
  have h₂ := h.notSql
  have h₃ : stripKeyword? "NOT" (s.toList ++ r) = none := by
    rw [stripKeyword?_append (by decide) _ hr, h₁]
    rfl
  have h₄ : strip? "SQL[".toList (s.toList ++ r) = none := by
    rw [strip?_append_of_endsName (by decide) _ hr, h₂]
    rfl
  have h₅ := skipSpaces_name h.toIsName r
  obtain ⟨c, t, h₆, -, h₇⟩ := h.exists_cons
  have h₈ : '(' ≠ c ∧ '*' ≠ c := by
    constructor <;> rintro rfl <;> exact absurd h₇ (by decide)
  rw [h₆, List.cons_append] at h₃ h₄ h₅ ⊢
  simp only [oneQualifier, Cursor.at, h₅, h₃, h₄]
  simp [strip?, h₈]

/-- A name that opens a clause, with a space after it, is read as the clause. -/
theorem OpensClause.reads {s : String} (h : OpensClause s) {r : List Char} {used : List Value}
    {q : Qualifier}
    (hq : ∀ (size : Nat) (rest : List Char) (args : List Value), EndsClause rest →
      clause size ⟨s.toList ++ ' ' :: r ++ rest, used ++ args⟩ = .ok q ⟨rest, args⟩) :
    Reads (s.toList ++ ' ' :: r) used q := by
  apply Reads.of_succ
  · obtain ⟨c, t, h₁, -, h₂⟩ := h.exists_cons
    exact ⟨c, t ++ ' ' :: r, by rw [h₁]; rfl, isSpace_of_isBreak_eq_false h₂⟩
  · intro size n rest args hr _
    rw [← hq size rest args hr, List.append_assoc]
    exact oneQualifier_clause size n h (endsWord_space_cons _).endsName

/-- A key and an operation are read as the comparison that what follows them makes. -/
theorem LeftName.reads {key : String} (hk : LeftName key) {op : Operation}
    (ho : ReadableOperation op) {r : List Char} {used : List Value} {q : Qualifier}
    (h : ∀ (size : Nat) (word : String) (rest : List Char) (args : List Value),
      Operation.ofToken word = op → EndsClause rest →
        afterOperation size key word ⟨' ' :: (r ++ rest), used ++ args⟩ = .ok q ⟨rest, args⟩) :
    Reads (key.toList ++ ' ' :: (op.token.toList ++ ' ' :: r)) used q := by
  refine hk.toOpensClause.reads fun size rest args hr => ?_
  obtain ⟨word, h₁, h₂⟩ := clause_operation (used ++ args) size hk ho (r ++ rest)
  rw [← h size word rest args h₁ hr, ← h₂]
  simp

theorem reads_always (b : Bool) : Reads (Qualifier.always b).text.toList [] (.always b) := by
  apply Reads.of_succ
  · cases b <;> exact ⟨'*', _, rfl, rfl⟩
  · intro size n rest args _ _
    cases b <;>
      simp [Qualifier.text, oneQualifier, Cursor.at, skipSpaces, isSpace, strip?, stripKeyword?]

theorem reads_sql {ps : List SqlPart} (h : LegibleSql ps) :
    Reads (Qualifier.sql ps).text.toList [] (Qualifier.sql ps).reread := by
  have h₁ : ∀ r, (Qualifier.sql ps).text.toList ++ r =
      "SQL[".toList ++ (SqlPart.chars ps ++ ']' :: r) := fun r => by
    simp [Qualifier.toList_text_sql]
  apply Reads.of_succ
  · exact ⟨'S', _, by simpa using h₁ [], rfl⟩
  · intro size n rest args _ _
    have h₂ := rawSql_chars h rest args
    rw [h₁]
    simp [oneQualifier, Cursor.at, skipSpaces, isSpace, strip?, stripKeyword?, h₂]

theorem Reads.negated {text : List Char} {used : List Value} {q : Qualifier}
    (h : Reads text used q) : Reads ("NOT ".toList ++ text) used q.negate := by
  apply Reads.of_succ
  · exact ⟨'N', _, rfl, rfl⟩
  · intro size n rest args hr hn
    have h₁ := h.read size n rest args hr (by simp at hn; omega)
    have h₂ : endsKeyword (' ' :: (text ++ rest)) = true := rfl
    simp [oneQualifier, Cursor.at, skipSpaces_cons_of_not_isSpace, isSpace, strip?, stripKeyword?,
      Option.filter, h₂, h.opens.skipSpaces, h.opens.isEmpty, h₁]

/-- After an opening parenthesis a row is read, and then the closing parenthesis. -/
theorem oneQualifier_parenthesis (size n : Nat) {text : List Char} (h : Opens text)
    (args : List Value) :
    oneQualifier size (n + 1) ⟨'(' :: text, args⟩ =
      (row size n none [] ⟨text, args⟩).bind closeParenthesis := by
  have h₁ := h.skipSpaces []
  have h₂ := h.isEmpty []
  rw [List.append_nil] at h₁ h₂
  simp [oneQualifier, Cursor.at, skipSpaces_cons_of_not_isSpace, isSpace, strip?, h₁, h₂]

theorem ReadsRow.inParentheses {text : List Char} {used : List Value} {q : Qualifier}
    (h : ReadsRow text used q) : Reads ('(' :: (text ++ [')'])) used q := by
  apply Reads.of_succ
  · exact ⟨'(', _, rfl, rfl⟩
  · intro size n rest args hr hn
    have h₁ := h.read size n (')' :: rest) args (.inr ⟨rest, rfl⟩) (by simp at hn ⊢; omega)
    rw [List.cons_append, List.append_assoc, List.singleton_append,
      oneQualifier_parenthesis size n (h.opens.append _), h₁, Step.bind_ok,
      closeParenthesis_parenthesis]

/-! ## Rows -/

/-- Further qualifiers of a row: before each one spaces, a connective and spaces again. -/
inductive Links : List Char → List Value → List (Connective × Qualifier) → Prop
  | nil : Links [] [] []
  | cons {before after text more : List Char} {used moreUsed : List Value} {c : Connective}
      {q : Qualifier} {links : List (Connective × Qualifier)}
      (h₁ : before ≠ [] ∧ ∀ s ∈ before, isSpace s = true)
      (h₂ : after ≠ [] ∧ ∀ s ∈ after, isSpace s = true)
      (h₃ : Reads text used q) (h₄ : Links more moreUsed links) :
      Links (before ++ (c.word.toList ++ (after ++ (text ++ more)))) (used ++ moreUsed)
        ((c, q) :: links)

theorem isName_word (c : Connective) : IsName c.word := by
  cases c <;> exact ⟨by decide, by decide, by decide⟩

theorem word_eq_iff {c d : Connective} : c.word = d.word ↔ c = d := by
  cases c <;> cases d <;> decide

theorem Links.endsClause {text : List Char} {used : List Value}
    {links : List (Connective × Qualifier)} (h : Links text used links) {r : List Char}
    (hr : EndsRow r) : EndsClause (text ++ r) := by
  cases h with
  | nil => exact hr.endsClause
  | @cons before after text more _ _ c _ _ h₁ h₂ h₃ h₄ =>
    constructor
    · intro d hd
      cases before with
      | nil => exact absurd rfl h₁.1
      | cons e before =>
        obtain rfl : e = d := by simpa using hd
        exact .inl (h₁.2 e (by simp))
    · rw [List.append_assoc, skipSpaces_append h₁.2, List.append_assoc,
        skipSpaces_name (isName_word c)]
      cases c <;> simp [Connective.word, stripKeyword?, strip?]

/-! ## The end of a row and its connectives -/

/-- Parts are pending exactly if there was a connective. -/
def IsPending : Option Connective → List Qualifier → Prop
  | none, parts => parts = []
  | some _, parts => parts ≠ []

/-- What a row amounts to if a qualifier and further ones follow the parts that are pending. -/
def rowResult (last : Option Connective) (parts : List Qualifier) (q : Qualifier)
    (links : List (Connective × Qualifier)) : Qualifier :=
  match last with
  | none => q.regroup links
  | some c => .extend c (parts ++ [q]) links

theorem buildCompound_word (c : Connective) {parts : List Qualifier} (h : parts ≠ [])
    (q : Qualifier) :
    buildCompound c.word (parts ++ [q]) = .quiet (some (.compound c (parts ++ [q]))) := by
  match parts with
  | [] => contradiction
  | [p] => cases c <;> rfl
  | p :: p' :: parts => cases c <;> rfl

/-- At the end of a row the pending parts become its compound. -/
theorem row_end (size n : Nat) {last : Option Connective} {parts : List Qualifier}
    (hp : IsPending last parts) {q : Qualifier} {c : Cursor} (hr : EndsRow rest)
    (h : oneQualifier size n c = .ok q ⟨rest, args⟩) :
    row size (n + 1) (last.map Connective.word) parts c =
      .ok (rowResult last parts q []) ⟨rest, args⟩ := by
  simp only [row, h, Step.bind_ok, Cursor.at, hr.stops, if_true]
  cases last with
  | none =>
    obtain rfl : parts = [] := hp
    simp [endCompound, buildCompound, rowResult, Step.ok]
  | some d => simp [endCompound, buildCompound_word d hp, rowResult, Qualifier.extend, Step.ok]

/-- The parts that are pending after a connective: those from before it if it stays, and else one
part. -/
theorem foldRow_word {last : Option Connective} {parts : List Qualifier}
    (hp : IsPending last parts) (q : Qualifier) (d : Connective) :
    ∃ pending, IsPending (some d) pending ∧
      foldRow (last.map Connective.word) d.word (parts ++ [q]) = .quiet pending ∧
      ∀ p links, rowResult last parts q ((d, p) :: links) = rowResult (some d) pending p links := by
  cases last with
  | none =>
    obtain rfl : parts = [] := hp
    refine ⟨[q], by simp [IsPending], rfl, fun p links => ?_⟩
    exact Qualifier.regroup_cons_eq_extend q d p links
  | some c =>
    by_cases h : c = d
    · subst h
      refine ⟨parts ++ [q], by simp [IsPending], ?_, fun p links => ?_⟩
      · simp [foldRow]
      · simp [rowResult, Qualifier.extend]
    · refine ⟨[.compound c (parts ++ [q])], by simp [IsPending], ?_, fun p links => ?_⟩
      · simp [foldRow, word_eq_iff, h, buildCompound_word c hp, Logged.map, Logged.quiet]
      · simp [rowResult, Qualifier.extend, h]

/-- After a qualifier and a word the row goes on with what is pending then, whatever the word. -/
theorem row_word (size n : Nat) {last : Option String} {parts : List Qualifier} {q : Qualifier}
    {c : Cursor} {before after text : List Char} {word : String} (hw : IsName word)
    (hp : isPattern word = false) (hb : ∀ s ∈ before, isSpace s = true)
    (ha : after ≠ [] ∧ ∀ s ∈ after, isSpace s = true) (ht : Opens text)
    (h : oneQualifier size n c =
      .ok q ⟨before ++ (word.toList ++ (after ++ (text ++ rest))), args⟩) :
    row size (n + 1) last parts c =
      .after (foldRow last word (parts ++ [q])).log
        (row size n (some word) (foldRow last word (parts ++ [q])).value ⟨text ++ rest, args⟩) := by
  have h₁ : EndsName (after ++ (text ++ rest)) := by
    cases after with
    | nil => exact absurd rfl ha.1
    | cons e after =>
      intro f hf
      obtain rfl : e = f := by simpa using hf
      exact isBreak_of_isSpace (ha.2 e (by simp))
  have h₂ : ∀ r, ((word.toList ++ r).isEmpty || startsWith ")" (word.toList ++ r)) = false := by
    intro r
    obtain ⟨d, t, h₃, -, h₄⟩ := hw.exists_cons
    have h₅ : ')' ≠ d := by
      rintro rfl
      exact absurd h₄ (by decide)
    simp [h₃, startsWith, strip?, h₅]
  simp only [row, h, Step.bind_ok, Cursor.at, skipSpaces_append hb, skipSpaces_name hw, h₂,
    Bool.false_eq_true, if_false, takeName?_append hw h₁, resolve, hp, skipSpaces_append ha.2,
    ht.skipSpaces, ht.isEmpty]

theorem row_connective (size n : Nat) {last : Option Connective} {parts : List Qualifier}
    (hp : IsPending last parts) {q : Qualifier} {c : Cursor} {before after text : List Char}
    {d : Connective} (hb : ∀ s ∈ before, isSpace s = true)
    (ha : after ≠ [] ∧ ∀ s ∈ after, isSpace s = true) (ht : Opens text)
    (h : oneQualifier size n c =
      .ok q ⟨before ++ (d.word.toList ++ (after ++ (text ++ rest))), args⟩) :
    ∃ pending, IsPending (some d) pending ∧
      row size (n + 1) (last.map Connective.word) parts c =
        row size n (some d.word) pending ⟨text ++ rest, args⟩ ∧
      ∀ p links, rowResult last parts q ((d, p) :: links) = rowResult (some d) pending p links := by
  obtain ⟨pending, h₁, h₂, h₃⟩ := foldRow_word hp q d
  have h₄ : isPattern d.word = false := by
    cases d <;> rfl
  refine ⟨pending, h₁, ?_, h₃⟩
  rw [row_word size n (isName_word d) h₄ hb ha ht h, h₂]
  rfl

/-! ## Whole rows -/

/-- A row is read from any state of the loop: the qualifier in front joins the parts that are
pending, and the further ones follow. -/
theorem Reads.row_links {text more : List Char} {used moreUsed : List Value} {q : Qualifier}
    {links : List (Connective × Qualifier)} (h : Reads text used q)
    (hl : Links more moreUsed links) {last : Option Connective} {parts : List Qualifier}
    (hp : IsPending last parts) (size : Nat) {n : Nat} (hr : EndsRow rest)
    (hn : 2 * (text.length + (more.length + rest.length)) + 1 ≤ n) :
    row size n (last.map Connective.word) parts
        ⟨text ++ (more ++ rest), used ++ (moreUsed ++ args)⟩ =
      .ok (rowResult last parts q links) ⟨rest, args⟩ := by
  obtain ⟨n, rfl⟩ : ∃ m, n = m + 1 := ⟨n - 1, by omega⟩
  have h₁ := h.read size n (more ++ rest) (moreUsed ++ args) (hl.endsClause hr)
    (by rw [List.length_append]; omega)
  -- The induction is on the further qualifiers; the loop's state changes with each of them, so that
  -- what is pending and the number of steps left are not fixed.
  induction hl generalizing text used q last parts n with
  | nil => exact row_end size n hp hr h₁
  | @cons before after next more nextUsed moreUsed c p links hb ha ht hm ih =>
    simp only [List.append_assoc] at h₁ ⊢
    obtain ⟨pending, h₂, h₃, h₄⟩ := row_connective size n hp hb.2 ha ht.opens h₁
    simp only [List.length_append] at hn
    have h₅ := List.length_pos_iff.2 hb.1
    obtain ⟨n, rfl⟩ : ∃ m, n = m + 1 := ⟨n - 1, by omega⟩
    rw [h₃, h₄]
    have h₆ := ht.read size n (more ++ rest) (moreUsed ++ args) (hm.endsClause hr)
      (by rw [List.length_append]; omega)
    have h₇ : IsPending (some c) pending := h₂
    exact ih ht h₇ n (by omega) h₆

/-- A row is read as its regrouped qualifiers. -/
theorem Reads.row {text more : List Char} {used moreUsed : List Value} {q : Qualifier}
    {links : List (Connective × Qualifier)} (h : Reads text used q)
    (hl : Links more moreUsed links) :
    ReadsRow (text ++ more) (used ++ moreUsed) (q.regroup links) := by
  obtain ⟨c, t, h₁, h₂⟩ := h.opens
  refine ⟨⟨c, t ++ more, by rw [h₁]; rfl, h₂⟩, fun size n rest args hr hn => ?_⟩
  rw [List.append_assoc, List.append_assoc]
  have h₃ : IsPending none [] := rfl
  exact h.row_links hl h₃ size hr (by rw [List.length_append] at hn; omega)

end RecordQuery.Format
