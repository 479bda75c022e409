import RecordQuery.Proofs.Format.Row
import RecordQuery.Qualifier.Text

/-!
# Written qualifiers are read back

`Renders w used q` says that the written form of the qualifier `w` is read as `q`, with the given
arguments; `w` is `q` itself or shows patterns where `q` has keys and values. Negations and
compounds of what is read are read again (`Renders.not`, `Renders.compound`), so that only single
comparisons and raw SQL can be in the way. `Legible` says that they are not.

* `Legible.renders`: a legible qualifier is read as `Qualifier.reread` says;
* `ReadsRow.parse`: what is read is what `Qualifier.parse` gives, and nothing is logged;
* `LeftName.exists_read_comparison`: reading a comparison is reading its operand first.
-/

namespace RecordQuery.Format

/-! ## The whole text -/

/-- A text that is read as a row is read to its end, and takes no further arguments. -/
theorem ReadsRow.read_append {text : List Char} {used : List Value} {q : Qualifier}
    (h : ReadsRow text used q) (more : List Value) :
    Format.read text (used ++ more) = .ok q ⟨[], more⟩ := by
  have h₁ := h.read (Text.unitCount text) (stepBound text) [] more (.inl rfl) (by simp [stepBound])
  rw [List.append_nil] at h₁
  rw [h.opens.read_eq, h₁]

/-- A single qualifier is a row. -/
theorem Reads.readsRow {text : List Char} {used : List Value} {q : Qualifier}
    (h : Reads text used q) : ReadsRow text used q := by
  have h₁ := h.row .nil
  rwa [List.append_nil, List.append_nil, Qualifier.regroup_nil] at h₁

/-- A text that is read as a row is parsed as that row, and nothing is logged. -/
theorem ReadsRow.parse {text : String} {used : List Value} {q : Qualifier}
    (h : ReadsRow text.toList used q) : Qualifier.parse text used = ⟨some q, []⟩ := by
  have h₁ := h.read_append []
  rw [List.append_nil] at h₁
  simp [Qualifier.parse, h₁]

/-- No argument of a text that is read as a row is asked for a text that it does not have. -/
theorem ReadsRow.parse? {text : String} {used : List Value} {q : Qualifier}
    (h : ReadsRow text.toList used q) : Qualifier.parse? text used = .ok ⟨some q, []⟩ := by
  have h₁ := h.read_append []
  rw [List.append_nil] at h₁
  have h₂ : (Format.read text.toList used).textless = false := by rw [h₁]; rfl
  rw [Qualifier.parse?, h₂, h.parse]
  rfl

/-- A key, a relation and what it compares the key with, as they are written. -/
def comparison (key : String) (r : Relation) (operand : String) : String :=
  key ++ " " ++ r.token ++ " " ++ operand

theorem toList_comparison (key : String) (r : Relation) (operand : String) :
    (comparison key r operand).toList =
      key.toList ++ ' ' :: ((Operation.known r).token.toList ++ ' ' :: operand.toList) := by
  simp [comparison, Operation.token]

/-- A key and a relation are read as the comparison that the text of the operand makes. -/
theorem LeftName.readsRow_comparison {key operand : String} (hk : LeftName key) (r : Relation)
    {used : List Value} {q : Qualifier}
    (h : ∀ (size : Nat) (word : String) (rest : List Char) (args : List Value),
      Operation.ofToken word = .known r → EndsClause rest →
        afterOperation size key word ⟨' ' :: (operand.toList ++ rest), used ++ args⟩ =
          .ok q ⟨rest, args⟩) :
    ReadsRow (comparison key r operand).toList used q := by
  apply Reads.readsRow
  rw [toList_comparison]
  exact hk.reads (readable_known r) h

/-- To read a key and a relation is to read what follows the relation first. -/
theorem LeftName.exists_read_comparison {key : String} (hk : LeftName key) (r : Relation)
    (operand : String) (args : List Value) :
    ∃ word f, Operation.ofToken word = .known r ∧
      Format.read (comparison key r operand).toList args =
        (afterOperation (Text.unitCount (comparison key r operand).toList) key word
          ⟨' ' :: operand.toList, args⟩).bind f := by
  have h₁ := toList_comparison key r operand
  obtain ⟨word, h₂, h₃⟩ := clause_operation args
    (Text.unitCount (comparison key r operand).toList) hk (readable_known r) operand.toList
  rw [← h₁] at h₃
  have h₄ : Opens (comparison key r operand).toList := by
    obtain ⟨c, t, h₅, -, h₆⟩ := hk.exists_cons
    rw [h₁, h₅]
    exact ⟨c, _, rfl, isSpace_of_isBreak_eq_false h₆⟩
  have h₅ : ∀ size n, oneQualifier size (n + 1) ⟨(comparison key r operand).toList, args⟩ =
      clause size ⟨(comparison key r operand).toList, args⟩ := by
    intro size n
    rw [h₁]
    exact oneQualifier_clause size n hk.toOpensClause (endsWord_space_cons _).endsName
  have h₆ := h₄.read_eq args
  rw [stepBound, row, h₅, h₃] at h₆
  exact ⟨word, _, h₂, h₆⟩

/-- If the text of the operand is refused, so is the comparison, for the same reason. -/
theorem LeftName.parse_comparison_fail {key operand : String} (hk : LeftName key) (r : Relation)
    {args : List Value} {message : String}
    (h : ∀ word, Operation.ofToken word = .known r →
      afterOperation (Text.unitCount (comparison key r operand).toList) key word
        ⟨' ' :: operand.toList, args⟩ = .fail message) :
    Qualifier.parse (comparison key r operand) args = ⟨none, [.error message []]⟩ := by
  obtain ⟨word, f, h₁, h₂⟩ := hk.exists_read_comparison r operand args
  rw [Qualifier.parse, h₂, h word h₁]
  rfl

/-! ## Negations and compounds -/

/-- The written form of a qualifier is read as a qualifier, as a row and, unless it is a compound,
as a single qualifier. -/
structure Renders (w : Qualifier) (used : List Value) (q : Qualifier) : Prop where
  row : ReadsRow w.text.toList used q
  one : w.isCompound = false → Reads w.text.toList used q

variable {w q : Qualifier} {used : List Value}

theorem Reads.renders (h : Reads w.text.toList used q) : Renders w used q :=
  ⟨h.readsRow, fun _ => h⟩

/-- A qualifier as it is written as a part of a compound. -/
def partText (w : Qualifier) : String :=
  if w.isCompound then "(" ++ w.text ++ ")" else w.text

theorem partTexts_eq_map (ws : List Qualifier) : Qualifier.partTexts ws = ws.map partText := by
  induction ws with
  | nil => rfl
  | cons w ws ih => rw [Qualifier.partTexts, ih]; rfl

theorem Renders.inParentheses (h : Renders w used q) :
    Reads ("(" ++ w.text ++ ")").toList used q := by
  simpa using h.row.inParentheses

theorem Renders.part (h : Renders w used q) : Reads (partText w).toList used q := by
  unfold partText
  cases hw : w.isCompound with
  | true => exact h.inParentheses
  | false => exact h.one hw

theorem isCompound_of_isComparison (h : w.isComparison = true) : w.isCompound = false := by
  cases w <;> first | rfl | contradiction

theorem Renders.not (h : Renders w used q) : Renders (.not w) used q.negate := by
  apply Reads.renders
  rw [Qualifier.text]
  cases hw : w.isComparison with
  | true => simpa using (h.one (isCompound_of_isComparison hw)).negated
  | false => simpa using h.inParentheses.negated

/-- Qualifiers are rendered one by one, and take their arguments one after the other. -/
inductive RendersEach : List Qualifier → List Value → List Qualifier → Prop
  | nil : RendersEach [] [] []
  | cons {w q : Qualifier} {used : List Value} {ws qs : List Qualifier} {moreUsed : List Value}
      (h₁ : Renders w used q) (h₂ : RendersEach ws moreUsed qs) :
      RendersEach (w :: ws) (used ++ moreUsed) (q :: qs)

theorem RendersEach.links {ws qs : List Qualifier} (h : RendersEach ws used qs) (c : Connective) :
    Links (ws.flatMap fun w => (" " ++ c.word ++ " ").toList ++ (partText w).toList) used
      (qs.map fun q => (c, q)) := by
  induction h with
  | nil => exact .nil
  | @cons w q used ws qs moreUsed h₁ h₂ ih =>
    have h₃ : Links ([' '] ++ (c.word.toList ++ ([' '] ++ ((partText w).toList ++ _))))
        (used ++ moreUsed) ((c, q) :: _) :=
      .cons (by simp [isSpace]) (by simp [isSpace]) h₁.part ih
    simpa using h₃

theorem toList_text_compound (c : Connective) (w v : Qualifier) (ws : List Qualifier) :
    (Qualifier.compound c (w :: v :: ws)).text.toList =
      (partText w).toList ++
        (v :: ws).flatMap fun w => (" " ++ c.word ++ " ").toList ++ (partText w).toList := by
  rw [Qualifier.text, partTexts_eq_map, List.map_cons, toList_intercalate_cons, List.flatMap_map]
  all_goals simp

/-- A compound of at least two of what is read is read. -/
theorem RendersEach.compound {ws qs : List Qualifier} (h : RendersEach ws used qs)
    (hw : 2 ≤ ws.length) (c : Connective) : Renders (.compound c ws) used (.compound c qs) := by
  refine ⟨?_, fun h => by contradiction⟩
  cases h with
  | nil => simp at hw
  | cons h₁ h₂ =>
    have h₃ := h₁.part.row (h₂.links c)
    cases h₂ with
    | nil => simp at hw
    | cons h₄ h₅ =>
      rw [Qualifier.regroup_of_run] at h₃
      rw [toList_text_compound]
      exact h₃

/-! ## Legible qualifiers -/

/-- A qualifier that is read back: keys, operations, operands and raw SQL are, no negation stands
directly before a negation or a truth value, and compounds have at least two parts. -/
inductive Legible : Qualifier → Prop
  | always (b : Bool) : Legible (.always b)
  | keyValue {key : Key} {op : Operation} {v : Operand} (h₁ : LeftName key.text)
      (h₂ : ReadableOperation op) (h₃ : LegibleOperand v) : Legible (.keyValue key op v)
  | keyComparison {left : Key} {op : Operation} {right : Key} (h₁ : LeftName left.text)
      (h₂ : ReadableOperation op) (h₃ : RightName right.text) :
      Legible (.keyComparison left op right)
  | not {q : Qualifier} (h₁ : q.takesNot = true) (h₂ : Legible q) : Legible (.not q)
  | compound {c : Connective} {parts : List Qualifier} (h₁ : 2 ≤ parts.length)
      (h₂ : ∀ q ∈ parts, Legible q) : Legible (.compound c parts)
  | sql {parts : List SqlPart} (h : LegibleSql parts) : Legible (.sql parts)

theorem Legible.keyValue_ofText {key : String} {op : Operation} {v : Operand} (h₁ : LeftName key)
    (h₂ : ReadableOperation op) (h₃ : LegibleOperand v) :
    Legible (.keyValue (.ofText key) op v) :=
  .keyValue (by rwa [Key.text_ofText]) h₂ h₃

theorem Legible.keyComparison_ofText {left right : String} {op : Operation} (h₁ : LeftName left)
    (h₂ : ReadableOperation op) (h₃ : RightName right) :
    Legible (.keyComparison (.ofText left) op (.ofText right)) :=
  .keyComparison (by rwa [Key.text_ofText]) h₂ (by rwa [Key.text_ofText])

theorem exists_text_keyValue (key : Key) (op : Operation) (v : Operand) :
    ∃ r, (Qualifier.keyValue key op v).text.toList = key.text.toList ++ ' ' :: r := by
  rw [Qualifier.text]
  unfold Qualifier.comparisonText
  split <;> simp

theorem rendersEach_of_forall {qs : List Qualifier} (h : ∀ q ∈ qs, Renders q [] q.reread) :
    RendersEach qs [] (Qualifier.rereadEach qs) := by
  induction qs with
  | nil => exact .nil
  | cons q qs ih =>
    have h₁ : RendersEach (q :: qs) ([] ++ []) (q.reread :: Qualifier.rereadEach qs) :=
      .cons (h q (by simp)) (ih fun p hp => h p (List.mem_cons_of_mem _ hp))
    exact h₁

/-- A legible qualifier is read back. -/
theorem Legible.renders {q : Qualifier} (h : Legible q) : Renders q [] q.reread := by
  induction h with
  | always b => exact (reads_always b).renders
  | @keyValue key op v h₁ h₂ h₃ =>
    apply Reads.renders
    obtain ⟨r, h₄⟩ := exists_text_keyValue key op v
    rw [h₄]
    refine h₁.toOpensClause.reads fun size rest args hr => ?_
    rw [← h₄]
    exact clause_keyValue args size h₁ h₂ h₃ hr.endsLiteral hr.endsName
  | @keyComparison left op right h₁ h₂ h₃ =>
    apply Reads.renders
    have h₄ : (Qualifier.keyComparison left op right).text.toList =
        left.text.toList ++ ' ' :: (op.token.toList ++ ' ' :: right.text.toList) := by
      simp [Qualifier.text]
    rw [h₄]
    refine h₁.toOpensClause.reads fun size rest args hr => ?_
    rw [← h₄]
    exact clause_keyComparison args size h₁ h₂ h₃ hr
  | @not q h₁ h₂ ih =>
    have h₃ := ih.not
    rwa [Qualifier.negate_of_takesNot (by rw [Qualifier.takesNot_reread, h₁])] at h₃
  | @compound c parts h₁ h₂ ih => exact (rendersEach_of_forall ih).compound h₁ c
  | sql h => exact (reads_sql h).renders

/-- The written form of a legible qualifier is parsed as `Qualifier.reread` says, and nothing is
logged. -/
theorem Legible.parse_text {q : Qualifier} (h : Legible q) :
    Qualifier.parse q.text [] = ⟨some q.reread, []⟩ :=
  h.renders.row.parse

end RecordQuery.Format
