import RecordQuery.Proofs.Format.Legible
import RecordQuery.Proofs.Qualifier.Equality

/-!
# Templates and their arguments

The template of a qualifier is its written form with the pattern `%K` in the place of every key and
`%@` in the place of every constant or placeholder; the arguments are what stood there, from left
to right. Whatever the keys and the values are, the template with its arguments is read as the
qualifier: `Plain.read_template`. So arguments are never taken for a part of the text.
-/

namespace RecordQuery

open Format

/-! ## Templates -/

/-- The argument that stands for an operand. -/
def Operand.argument : Operand → Value
  | constant c => c.toValue
  | placeholder name => .placeholder name

theorem Operand.ofValue_argument (v : Operand) : ofValue v.argument = v := by
  cases v with
  | constant c => exact ofValue_toValue c
  | placeholder name => rfl

namespace Qualifier

mutual

/-- The qualifier with patterns as its keys and values. A comparison with a pattern is written like
one with a key, so that there is no form of its own for null. -/
def pattern : Qualifier → Qualifier
  | keyValue _ op _ => keyComparison (.name "%K") op (.name "%@")
  | keyComparison _ op _ => keyComparison (.name "%K") op (.name "%K")
  | not q => not q.pattern
  | compound c parts => compound c (patterns parts)
  | q => q

/-- The qualifiers of a list with patterns as their keys and values. -/
def patterns : List Qualifier → List Qualifier
  | [] => []
  | q :: qs => q.pattern :: patterns qs

end

/-- The written form of a qualifier with patterns in the places of its keys and values. -/
def template (q : Qualifier) : String :=
  q.pattern.text

mutual

/-- The keys and values of a qualifier, from left to right. -/
def arguments : Qualifier → List Value
  | keyValue key _ v => [.string key.text, v.argument]
  | keyComparison left _ right => [.string left.text, .string right.text]
  | not q => q.arguments
  | compound _ parts => argumentsOf parts
  | _ => []

/-- The keys and values of the qualifiers of a list. -/
def argumentsOf : List Qualifier → List Value
  | [] => []
  | q :: qs => q.arguments ++ argumentsOf qs

end

/-- Patterns stand where keys and values stood, and nothing else changes. -/
example : (compound .and [isTrue "a", not (isTrue "b")]).template = "%K = %@ AND NOT %K = %@" := by
  decide

theorem length_patterns (qs : List Qualifier) : (patterns qs).length = qs.length := by
  induction qs with
  | nil => rfl
  | cons q qs ih => simp [patterns, ih]

end Qualifier

/-! ## Patterns in clauses -/

theorem opensClause_pattern : OpensClause "%K" :=
  ⟨⟨by decide, by decide, by decide⟩, by decide, by decide⟩

/-- A key that is given as an argument and an operation, in front of a pattern. -/
theorem clause_pattern (size : Nat) (key : String) {op : Operation} (h : ReadableOperation op)
    (specifier : Char) (v : Value) (rest : List Char) (args : List Value) :
    clause size ⟨"%K".toList ++ ' ' :: (op.token.toList ++ ' ' :: '%' :: specifier :: rest),
        .string key :: v :: args⟩ =
      argumentComparison key op specifier v ⟨rest, args⟩ := by
  obtain ⟨word, h₁, h₂⟩ := afterKey_operation (v :: args) size key h
    ('%' :: specifier :: rest)
  have h₃ := takeName?_append opensClause_pattern.toIsName
    (endsWord_space_cons (op.token.toList ++ ' ' :: '%' :: specifier :: rest)).endsName
  have h₄ : resolve "%K" ⟨' ' :: (op.token.toList ++ ' ' :: '%' :: specifier :: rest),
      .string key :: v :: args⟩ = .ok key ⟨_, v :: args⟩ := rfl
  simp only [clause, h₃, Cursor.at, h₄, Step.bind_ok, h₂, afterOperation_pattern, h₁]

/-- A comparison of a key that is given as an argument with another argument is read. -/
theorem renders_pattern {key pattern : String} (specifier : Char)
    (hp : pattern.toList = ['%', specifier]) {op : Operation} (h : ReadableOperation op) {v : Value}
    {q : Qualifier} (hq : ∀ c, argumentComparison key op specifier v c = .ok q c) :
    Renders (.keyComparison (.name "%K") op (.name pattern)) [.string key, v] q := by
  apply Reads.renders
  have h₁ : (Qualifier.keyComparison (.name "%K") op (.name pattern)).text.toList =
      "%K".toList ++ ' ' :: (op.token.toList ++ ' ' :: ['%', specifier]) := by
    simp [Qualifier.text, Key.text, hp]
  rw [h₁]
  refine opensClause_pattern.reads fun size rest args _ => ?_
  have h₂ := clause_pattern size key h specifier v rest args
  rw [hq] at h₂
  simpa using h₂

/-! ## Reading templates -/

/-- A qualifier tree of comparisons with known relations, whatever their keys and values are. NOT
stands before neither a negation nor a truth value, and compounds have at least two parts. -/
inductive Plain : Qualifier → Prop
  | always (b : Bool) : Plain (.always b)
  | keyValue (key : String) (r : Relation) (v : Operand) :
      Plain (.keyValue (.ofText key) (.known r) v)
  | keyComparison (left right : String) (r : Relation) :
      Plain (.keyComparison (.ofText left) (.known r) (.ofText right))
  | not {q : Qualifier} (h₁ : q.takesNot = true) (h₂ : Plain q) : Plain (.not q)
  | compound {c : Connective} {parts : List Qualifier} (h₁ : 2 ≤ parts.length)
      (h₂ : ∀ q ∈ parts, Plain q) : Plain (.compound c parts)

theorem rendersEach_patterns {qs : List Qualifier} (h : ∀ q ∈ qs, Renders q.pattern q.arguments q) :
    RendersEach (Qualifier.patterns qs) (Qualifier.argumentsOf qs) qs := by
  induction qs with
  | nil => exact .nil
  | cons q qs ih => exact .cons (h q (by simp)) (ih fun p hp => h p (List.mem_cons_of_mem _ hp))

theorem Plain.renders {q : Qualifier} (h : Plain q) : Renders q.pattern q.arguments q := by
  induction h with
  | always b => exact (reads_always b).renders
  | keyValue key r v =>
    rw [Qualifier.pattern, Qualifier.arguments, Key.text_ofText]
    refine renders_pattern '@' (by simp) (readable_known r) fun c => ?_
    simp [argumentComparison, Qualifier.ofKeyText, Operand.ofValue_argument]
  | keyComparison left right r =>
    rw [Qualifier.pattern, Qualifier.arguments, Key.text_ofText, Key.text_ofText]
    refine renders_pattern 'K' (by simp) (readable_known r) fun c => ?_
    simp [argumentComparison, Value.isAbsent]
  | not h₁ _ ih =>
    have h₂ := ih.not
    rwa [Qualifier.negate_of_takesNot h₁] at h₂
  | compound h₁ _ ih =>
    exact (rendersEach_patterns ih).compound (by rwa [Qualifier.length_patterns]) _

/-- The template of a qualifier with its keys and values as arguments is read as the qualifier, and
nothing is logged. The arguments that belong to the qualifier are all taken, and no further ones. -/
theorem Plain.read_template {q : Qualifier} (h : Plain q) :
    Qualifier.parse q.template q.arguments = ⟨some q, []⟩ ∧ q.isEqual q = true ∧
      ∀ more, Format.read q.template.toList (q.arguments ++ more) = .ok q ⟨[], more⟩ :=
  ⟨h.renders.row.parse, q.isEqual_self, h.renders.row.read_append⟩

/-- Keys that look like a condition or a pattern, and a list with a list and a text in it. -/
theorem read_template_quoted :
    let q : Qualifier := .compound .or
      [.keyValue (.ofText "x' OR NOT (1") (.known .isIn)
          (.constant (.array [.array [.null], .string "') AND y"])),
        .not (.keyComparison (.ofText "") (.known .notEqualTo) (.ofText "%@"))]
    Plain q ∧
      Qualifier.parse q.template q.arguments = ⟨some q, []⟩ ∧ q.isEqual q = true ∧
        ∀ more, Format.read q.template.toList (q.arguments ++ more) = .ok q ⟨[], more⟩ := by
  intro q
  have hq : Plain q := by
    refine .compound (by decide) (List.forall_mem_cons.2 ⟨.keyValue _ _ _, ?_⟩)
    exact List.forall_mem_cons.2 ⟨.not rfl (.keyComparison _ _ _), by simp⟩
  exact ⟨hq, hq.read_template⟩

end RecordQuery
