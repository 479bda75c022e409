import RecordQuery.Proofs.Qualifier.Reading
import RecordQuery.Proofs.RoundTrip

/-!
# What is read back means the same

The written form of a tree does not show its whole shape: a compound without parts is written as a
truth value, one of a single part as that part, and what follows a NOT is negated when it is read.
`Qualifier.condense` is the tree that is read instead (`renders_condense`), and it has the same
Boolean reading, whatever the leaves are (`reading_condense`). So trees of every shape are read back
with their meaning, as long as their leaves are: `exists_parse_text_value?`.
-/

namespace RecordQuery

open Format

namespace Qualifier

/-! ## The tree that is read -/

mutual

/-- The qualifier that the written form of a tree of any shape is read as. -/
def condense : Qualifier → Qualifier
  | always b => always b
  | not q => q.condense.negate
  | compound c [] => always c.unit
  | compound _ [q] => q.condense
  | compound c parts => compound c (condenseEach parts)
  | q => q.reread

/-- The qualifiers that the written forms of a list are read as. -/
def condenseEach : List Qualifier → List Qualifier
  | [] => []
  | q :: qs => q.condense :: condenseEach qs

end

mutual

/-- The leaves are read back one by one. -/
theorem leaves_condense : ∀ q : Qualifier, q.condense.leaves = q.leaves.map reread
  | always _ => rfl
  | not q => by rw [condense, leaves_negate, leaves_condense q, leaves]
  | compound c [] => rfl
  | compound c [q] => by
    rw [condense, leaves_condense q, leaves, leavesIn, leavesIn, List.append_nil]
  | compound c (q :: p :: qs) => by
    rw [condense, leaves, leaves, leavesIn_condenseEach] <;> simp
  | keyValue .. => rfl
  | keyComparison .. => rfl
  | sql _ => rfl

theorem leavesIn_condenseEach :
    ∀ qs : List Qualifier, leavesIn (condenseEach qs) = (leavesIn qs).map reread
  | [] => rfl
  | q :: qs => by
    rw [condenseEach, leavesIn, leavesIn, List.map_append, leaves_condense q,
      leavesIn_condenseEach qs]

end

section

variable (leaf : Qualifier → Bool)

mutual

/-- The tree that is read has the reading of the tree that was written, if every leaf has the value
of the leaf that it is read as. -/
theorem reading_condense : ∀ q : Qualifier,
    q.condense.reading leaf = q.reading fun l => leaf l.reread
  | always _ => rfl
  | not q => by rw [condense, reading_negate, reading_condense q, reading]
  | compound c [] => rfl
  | compound c [q] => by
    rw [condense, reading_condense q, reading, readingIn, readingIn, c.apply_unit]
  | compound c (q :: p :: qs) => by
    rw [condense, reading, reading, readingIn_condenseEach] <;> simp
  | keyValue .. => rfl
  | keyComparison .. => rfl
  | sql _ => rfl

theorem readingIn_condenseEach (c : Connective) : ∀ qs : List Qualifier,
    readingIn leaf c (condenseEach qs) = readingIn (fun l => leaf l.reread) c qs
  | [] => rfl
  | q :: qs => by
    rw [condenseEach, readingIn, readingIn, reading_condense q, readingIn_condenseEach c qs]

end

end

end Qualifier

namespace Format

mutual

/-- A tree of any shape is read back if its leaves are. -/
theorem renders_condense : ∀ {q : Qualifier}, (∀ l ∈ q.leaves, Legible l) → Renders q [] q.condense
  | .always b, _ => (reads_always b).renders
  | .not q, h => (renders_condense (q := q) h).not
  -- A compound is never read as a single qualifier, so that only the row is to be shown.
  | .compound c [], _ => ⟨(reads_always c.unit).renders.row, fun h => by contradiction⟩
  | .compound c [q], h =>
    have h₁ : ∀ l ∈ q.leaves, Legible l := fun l hl => h l (List.mem_append_left _ hl)
    ⟨(renders_condense h₁).row, fun h => by contradiction⟩
  | .compound c (q :: p :: qs), h => (rendersEach_condense h).compound (by simp) c
  | .keyValue .., h => (h _ (List.mem_singleton_self _)).renders
  | .keyComparison .., h => (h _ (List.mem_singleton_self _)).renders
  | .sql _, h => (h _ (List.mem_singleton_self _)).renders

theorem rendersEach_condense : ∀ {qs : List Qualifier}, (∀ l ∈ Qualifier.leavesIn qs, Legible l) →
    RendersEach qs [] (Qualifier.condenseEach qs)
  | [], _ => .nil
  | q :: qs, h => by
    obtain ⟨h₁, h₂⟩ := List.forall_mem_append.1 h
    have h₃ : RendersEach (q :: qs) ([] ++ []) _ :=
      .cons (renders_condense h₁) (rendersEach_condense h₂)
    exact h₃

end

end Format

/-! ## Leaves -/

/-- The words that mean something where a condition is read. -/
def keywords : List String :=
  ["NOT", "AND", "OR", "IS", "true", "false", "NULL", "null", "nil", "YES", "NO"]

/-- A word of letters that is no keyword. -/
structure IsIdentifier (s : String) : Prop where
  notEmpty : s ≠ ""
  letters : ∀ c ∈ s.toList, c.isAlpha = true
  notKeyword : s ∉ keywords

/-- A comparison of identifiers and paths of identifiers, by a known relation, with each other, with
a constant or with a variable. -/
inductive IsSpelled : Qualifier → Prop
  | constant {key : Key} {r : Relation} {c : Constant} (h₁ : ∀ w ∈ key.components, IsIdentifier w)
      (h₂ : c.isPlain = true) : IsSpelled (.keyValue key (.known r) (.constant c))
  | placeholder {key : Key} {r : Relation} {name : String}
      (h₁ : ∀ w ∈ key.components, IsIdentifier w) (h₂ : IsIdentifier name) :
      IsSpelled (.keyValue key (.known r) (.placeholder name))
  | keyComparison {left : Key} {r : Relation} {right : Key}
      (h₁ : ∀ w ∈ left.components, IsIdentifier w) (h₂ : ∀ w ∈ right.components, IsIdentifier w) :
      IsSpelled (.keyComparison left (.known r) right)

theorem IsIdentifier.readableRightKey {s : String} (h : IsIdentifier s) : ReadableRightKey s := by
  have h₁ : ["NOT", "true", "false", "NULL", "null", "nil", "YES", "NO"] ⊆ keywords := by decide
  exact .of_letters h.notEmpty h.letters fun hs => h.notKeyword (h₁ hs)

theorem toList_text_path (first : String) (rest : List String) :
    (Key.path first rest).text.toList = first.toList ++ rest.flatMap fun w => '.' :: w.toList := by
  rw [Key.text, toList_intercalate_cons]
  rfl

/-- A path of identifiers is readable, too: the dots in it make it different from the keywords. -/
theorem readableRightKey_path {first : String} {rest : List String}
    (h : ∀ w ∈ first :: rest, IsIdentifier w) (hr : rest ≠ []) :
    ReadableRightKey (Key.path first rest).text := by
  have h₁ : '.' ∈ (Key.path first rest).text.toList := by
    obtain ⟨w, ws, rfl⟩ := List.exists_cons_of_ne_nil hr
    simp [toList_text_path]
  apply ReadableRightKey.of_lettersAndDots
  · intro h₂
    rw [h₂] at h₁
    contradiction
  · intro c hc
    rw [toList_text_path, List.mem_append, List.mem_flatMap] at hc
    rcases hc with hc | ⟨w, hw, hc⟩
    · exact .inl ((h first (by simp)).letters c hc)
    · rcases List.mem_cons.1 hc with rfl | hc
      · exact .inr rfl
      · exact .inl ((h w (List.mem_cons_of_mem _ hw)).letters c hc)
  · intro h₂
    have h₃ : ∀ w ∈ ["NOT", "true", "false", "NULL", "null", "nil", "YES", "NO"],
        '.' ∉ w.toList := by decide
    exact h₃ _ h₂ h₁

theorem readableRightKey_of_components {key : Key} (h : ∀ w ∈ key.components, IsIdentifier w) :
    ReadableRightKey key.text := by
  cases key with
  | name text => exact (h text (by simp [Key.components])).readableRightKey
  | path first rest =>
    by_cases hr : rest = []
    · subst hr
      have h₁ : (Key.path first []).text = first := String.toList_injective (by
        rw [toList_text_path]
        simp)
      rw [h₁]
      exact (h first (by simp [Key.components])).readableRightKey
    · exact readableRightKey_path h hr

theorem IsSpelled.isComparison {l : Qualifier} (h : IsSpelled l) : l.isComparison = true := by
  cases h <;> rfl

theorem IsSpelled.legible {l : Qualifier} (h : IsSpelled l) : Legible l := by
  cases h with
  | constant h₁ h₂ =>
    exact .keyValue (readableRightKey_of_components h₁).leftName (readable_known _)
      (Constant.isFlat_of_isPlain h₂)
  | placeholder h₁ h₂ =>
    exact .keyValue (readableRightKey_of_components h₁).leftName (readable_known _)
      h₂.readableRightKey.toIsName
  | keyComparison h₁ h₂ =>
    exact .keyComparison (readableRightKey_of_components h₁).leftName (readable_known _)
      (readableRightKey_of_components h₂).rightName

theorem Key.valueIn_ofText_text (key : Key) (object : Value) :
    (Key.ofText key.text).valueIn object = key.valueIn object := by
  rw [Key.valueIn, Key.text_ofText, Key.valueIn]

/-- A leaf has the value of the leaf that it is read as: its keys address the same values, and its
constant is equal to the one that is read. -/
theorem IsSpelled.holds_reread {l : Qualifier} (h : IsSpelled l) (object : Value) :
    l.reread.holds object = l.holds object := by
  cases h with
  | @constant key r c h₁ h₂ =>
    have h₃ := Operation.value_compare_congr (.known r) (key.valueIn object).normalize
      (Constant.isEqual_reread h₂)
    simp only [Qualifier.reread, Qualifier.rereadOperation_known, Operand.reread, Qualifier.holds,
      Qualifier.value?, Qualifier.evaluate?, Key.valueIn_ofText_text, Option.map_some,
      Option.getD_some, h₃]
  | @placeholder key r name h₁ h₂ => rfl
  | @keyComparison left r right h₁ h₂ =>
    simp only [Qualifier.reread, Qualifier.holds, Qualifier.value?, Qualifier.evaluate?,
      Key.valueIn_ofText_text]

/-! ## Trees -/

/-- A tree of any shape, over comparisons of identifiers, is read back without an entry in the log,
and what is read evaluates to the same on every object. -/
theorem exists_parse_text_value? {q : Qualifier} (h : ∀ l ∈ q.leaves, IsSpelled l) :
    ∃ p, Qualifier.parse q.text [] = ⟨some p, []⟩ ∧
      ∀ object, ∃ b, p.value? object = some b ∧ q.value? object = some b := by
  have hq : q.isSqlFree = true := List.all_eq_true.2 fun l hl => (h l hl).isComparison
  have hp : q.condense.isSqlFree = true := by
    rw [Qualifier.isSqlFree, Qualifier.leaves_condense, List.all_map]
    refine List.all_eq_true.2 fun l hl => ?_
    rw [Function.comp_apply, Qualifier.isComparison_reread, (h l hl).isComparison]
  refine ⟨q.condense, (renders_condense fun l hl => (h l hl).legible).row.parse, fun object => ?_⟩
  refine ⟨_, Qualifier.value?_eq_reading object hp, ?_⟩
  rw [Qualifier.value?_eq_reading object hq, Qualifier.reading_condense]
  exact congrArg some (Qualifier.reading_congr fun l hl => ((h l hl).holds_reread object).symm)

/-- Empty compounds and a NOT of each kind; the compound of one part hides a negation. -/
theorem exists_parse_text_value?_nested :
    let l : Qualifier := .keyValue (.path "home" ["city"]) (.known .isIn)
      (.constant (.array [.string "Oz", .null]))
    let q : Qualifier := .compound .or [.not (.compound .and [.not (.not l)]), .compound .or [],
      .not (.always true), .not (.compound .and [])]
    (∀ l ∈ q.leaves, IsSpelled l) ∧
      ∃ p, Qualifier.parse q.text [] = ⟨some p, []⟩ ∧
        ∀ object, ∃ b, p.value? object = some b ∧ q.value? object = some b := by
  intro l q
  have h₁ : ∀ w ∈ ["home", "city"], IsIdentifier w := List.forall_mem_cons.2
    ⟨⟨by decide, by decide, by decide⟩, by simpa using ⟨by decide, by decide, by decide⟩⟩
  have h₂ : ∀ l ∈ q.leaves, IsSpelled l := by
    intro m hm
    obtain rfl : m = l := by simpa [q, l, Qualifier.leaves, Qualifier.leavesIn] using hm
    exact .constant h₁ rfl
  exact ⟨h₂, exists_parse_text_value? h₂⟩

end RecordQuery
