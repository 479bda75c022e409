import RecordQuery.Format.RawSql
import RecordQuery.Proofs.Constant
import RecordQuery.Proofs.Key
import RecordQuery.Qualifier.Combine
import RecordQuery.Qualifier.Text

/-!
# Qualifiers as they are read back

`Qualifier.reread` is what the written form of a qualifier stands for. Keys become what their texts
are read as, constants what they are written as, a comparison with null through a token `IS` becomes
the test for null, and raw SQL parts that stand side by side become one.

* `Qualifier.text_reread`: the written form stays;
* `Qualifier.isCompound_reread`, `Qualifier.isComparison_reread`: so does the kind.
-/

namespace RecordQuery

/-- The operand that a written operand is read as. -/
def Operand.reread : Operand → Operand
  | constant c => constant c.reread
  | placeholder name => placeholder name

@[simp] theorem Operand.reread_null : (constant .null).reread = constant .null := by
  simp [reread, Constant.reread]

theorem Operand.reread_eq_null_iff {v : Operand} :
    v.reread = constant .null ↔ v = constant .null := by
  constructor
  · intro h
    cases v with
    | placeholder name => contradiction
    | constant c =>
      cases c <;> simp [reread, Constant.reread] at h
      rfl
  · rintro rfl
    exact reread_null

theorem Operand.ofValue_toValue (c : Constant) : ofValue c.toValue = constant c := by
  have h := c.normalize_toValue
  cases c <;> exact congrArg constant h

/-! ## Raw SQL -/

namespace SqlPart

/-- The parts with adjacent raw texts joined, after raw text that is already there. -/
def mergeAfter (raws : List Char) : List SqlPart → List SqlPart
  | [] => Format.rawPart raws
  | raw sql :: ps => mergeAfter (raws ++ sql.toList) ps
  | p :: ps => Format.rawPart raws ++ p :: mergeAfter [] ps

/-- The parts with adjacent raw texts joined. -/
def merge (ps : List SqlPart) : List SqlPart :=
  mergeAfter [] ps

/-- The characters of parts that are written one after the other. -/
def chars (ps : List SqlPart) : List Char :=
  ps.flatMap fun p => p.text.toList

@[simp] theorem chars_nil : chars [] = [] := rfl

@[simp] theorem chars_cons (p : SqlPart) (ps : List SqlPart) :
    chars (p :: ps) = p.text.toList ++ chars ps := rfl

@[simp] theorem chars_append (ps qs : List SqlPart) : chars (ps ++ qs) = chars ps ++ chars qs := by
  simp [chars]

theorem escape_append (special : Char → Bool) (a b : List Char) :
    Text.escape special (a ++ b) = Text.escape special a ++ Text.escape special b := by
  induction a with
  | nil => rfl
  | cons c a ih =>
    rw [List.cons_append, Text.escape, Text.escape, ih]
    split <;> rfl

theorem chars_rawPart (raws : List Char) :
    chars (Format.rawPart raws) = Text.escape needsEscape raws := by
  cases raws <;> simp [Format.rawPart, text, Text.escape]

theorem chars_mergeAfter (raws : List Char) (ps : List SqlPart) :
    chars (mergeAfter raws ps) = Text.escape needsEscape raws ++ chars ps := by
  induction ps generalizing raws with
  | nil => simp [mergeAfter, chars_rawPart]
  | cons p ps ih =>
    cases p with
    | raw sql => rw [mergeAfter, ih, escape_append, chars_cons, text, String.toList_ofList,
        List.append_assoc]
    | placeholder name => simp [mergeAfter, chars_rawPart, ih, Text.escape]
    | value v => simp [mergeAfter, chars_rawPart, ih, Text.escape]

/-- Raw texts are joined only if they are adjacent. -/
theorem mergeAfter_of_head {ps : List SqlPart} (h : ∀ p ∈ ps.head?, ∀ sql, p ≠ raw sql)
    (raws : List Char) : mergeAfter raws ps = Format.rawPart raws ++ merge ps := by
  cases ps with
  | nil => simp [mergeAfter, merge, Format.rawPart]
  | cons p ps =>
    cases p with
    | raw sql => exact absurd rfl (h _ rfl sql)
    | placeholder name => simp [mergeAfter, merge, Format.rawPart]
    | value v => simp [mergeAfter, merge, Format.rawPart]

/-- Joining adjacent raw texts does not change what is written. -/
theorem chars_merge (ps : List SqlPart) : chars (merge ps) = chars ps :=
  chars_mergeAfter [] ps

end SqlPart

/-! ## Qualifiers -/

namespace Qualifier

theorem toList_text_sql (ps : List SqlPart) :
    (sql ps).text.toList = "SQL[".toList ++ (SqlPart.chars ps ++ [']']) := by
  simp [text, SqlPart.chars, List.flatMap_map]

/-- The operation that a written comparison is read with: `IS` before `NULL` is no operation but a
test for null. -/
def rereadOperation (op : Operation) : Operand → Operation
  | .constant .null => if op = .other "IS" then .known .equalTo else op
  | _ => op

theorem rereadOperation_known (r : Relation) (v : Operand) :
    rereadOperation (.known r) v = .known r := by
  unfold rereadOperation
  split <;> simp

theorem rereadOperation_of_ne (op : Operation) {v : Operand} (h : v ≠ .constant .null) :
    rereadOperation op v = op := by
  unfold rereadOperation
  split
  · exact absurd rfl h
  · rfl

mutual

/-- The qualifier that the written form of a qualifier is read as. -/
def reread : Qualifier → Qualifier
  | always value => always value
  | keyValue key op v => keyValue (.ofText key.text) (rereadOperation op v) v.reread
  | keyComparison left op right => keyComparison (.ofText left.text) op (.ofText right.text)
  | not q => not q.reread
  | compound c parts => compound c (rereadEach parts)
  | sql parts => sql (SqlPart.merge parts)

/-- The qualifiers that the written forms of a list are read as. -/
def rereadEach : List Qualifier → List Qualifier
  | [] => []
  | q :: qs => q.reread :: rereadEach qs

end

theorem rereadEach_eq_map (qs : List Qualifier) : rereadEach qs = qs.map reread := by
  induction qs with
  | nil => rfl
  | cons q qs ih => simp [rereadEach, ih]

theorem isCompound_reread (q : Qualifier) : q.reread.isCompound = q.isCompound := by
  cases q <;> rfl

theorem isComparison_reread (q : Qualifier) : q.reread.isComparison = q.isComparison := by
  cases q <;> rfl

/-- The qualifier is negated by a NOT before it. Truth values and negations have another way. -/
def takesNot : Qualifier → Bool
  | always _ => false
  | not _ => false
  | _ => true

theorem negate_of_takesNot {q : Qualifier} (h : q.takesNot = true) : q.negate = not q := by
  cases q <;> first | rfl | contradiction

theorem takesNot_reread (q : Qualifier) : q.reread.takesNot = q.takesNot := by
  cases q <;> rfl

theorem comparisonText_reread (key : String) (op : Operation) (v : Operand) :
    comparisonText key (rereadOperation op v) v.reread = comparisonText key op v := by
  cases v with
  | placeholder name => rfl
  | constant c =>
    have h := c.text_reread
    cases c with
    | null =>
      by_cases h₁ : op = .other "IS"
      · subst h₁
        apply String.toList_injective
        simp [rereadOperation, Operand.reread, Constant.reread, comparisonText, Operation.token,
          Operand.text, Constant.text]
      · simp [rereadOperation, h₁, Operand.reread, Constant.reread]
    | _ =>
      simp only [Constant.reread] at h
      simp [rereadOperation, Operand.reread, Constant.reread, comparisonText, Operand.text, h]

mutual

/-- Reading a written qualifier does not change how it is written. -/
theorem text_reread : ∀ q : Qualifier, q.reread.text = q.text
  | always _ => rfl
  | keyValue key op v => by
    rw [reread, text, text, Key.text_ofText, comparisonText_reread]
  | keyComparison left op right => by
    rw [reread, text, text, Key.text_ofText, Key.text_ofText]
  | not q => by
    rw [reread, text, text, isComparison_reread, text_reread q]
  | compound c [] => rfl
  | compound c [q] => text_reread q
  | compound c (q :: r :: qs) => by
    have h := partTexts_rereadEach (q :: r :: qs)
    rw [rereadEach, rereadEach] at h
    rw [reread, rereadEach, rereadEach, text, text, h] <;> simp
  | sql parts => by
    apply String.toList_injective
    rw [reread, toList_text_sql, toList_text_sql, SqlPart.chars_merge]

theorem partTexts_rereadEach : ∀ qs : List Qualifier, partTexts (rereadEach qs) = partTexts qs
  | [] => rfl
  | q :: qs => by
    rw [rereadEach, partTexts, partTexts, isCompound_reread, text_reread q,
      partTexts_rereadEach qs]

end

end Qualifier

end RecordQuery
