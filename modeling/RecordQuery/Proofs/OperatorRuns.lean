import RecordQuery.Proofs.Qualifier.Evaluation
import RecordQuery.Proofs.RoundTrip

/-!
# Runs of connectives in a text

A row of written qualifiers with connectives between them, with spaces of any kind and number, is
read as the regrouped row (`parse_rowText`), which has the value of its qualifiers joined from the
left (`exists_parse_rowText`).
-/

namespace RecordQuery

open Format

/-! ## Regrouping and rereading -/

namespace Qualifier

/-- The further qualifiers of a row, each as its written form is read. -/
def rereadLinks (links : List (Connective × Qualifier)) : List (Connective × Qualifier) :=
  links.map fun l => (l.1, l.2.reread)

theorem reread_extend (c : Connective) (parts : List Qualifier)
    (links : List (Connective × Qualifier)) :
    (extend c parts links).reread = extend c (rereadEach parts) (rereadLinks links) := by
  induction links generalizing c parts with
  | nil => rfl
  | cons l links ih =>
    obtain ⟨d, p⟩ := l
    have h : rereadLinks ((d, p) :: links) = (d, p.reread) :: rereadLinks links := rfl
    rw [h, extend, extend]
    split
    · rw [ih, rereadEach_eq_map, rereadEach_eq_map, List.map_append]
      rfl
    · rw [ih]
      rfl

/-- A regrouped row is read back part by part. -/
theorem reread_regroup (q : Qualifier) (links : List (Connective × Qualifier)) :
    (q.regroup links).reread = q.reread.regroup (rereadLinks links) := by
  cases links with
  | nil => simp [rereadLinks]
  | cons l links =>
    obtain ⟨c, p⟩ := l
    have h : rereadLinks ((c, p) :: links) = (c, p.reread) :: rereadLinks links := rfl
    rw [h, regroup_cons_eq_extend, regroup_cons_eq_extend, reread_extend]
    rfl

end Qualifier

/-! ## Rows as texts -/

/-- A further qualifier of a row, with its connective and the spaces around that. -/
structure Link where
  before : List Char
  connective : Connective
  after : List Char
  part : Qualifier

namespace Link

/-- There are spaces on both sides of the connective, and nothing else is there. -/
def IsSpaced (l : Link) : Prop :=
  (l.before ≠ [] ∧ ∀ c ∈ l.before, isSpace c = true) ∧
    (l.after ≠ [] ∧ ∀ c ∈ l.after, isSpace c = true)

/-- The qualifier as it is written in a row. -/
def chars (l : Link) : List Char :=
  l.before ++ (l.connective.word.toList ++ (l.after ++ (partText l.part).toList))

/-- The connective and the qualifier alone. -/
def pair (l : Link) : Connective × Qualifier :=
  (l.connective, l.part)

end Link

/-- A row of qualifiers as it is written, compounds in parentheses. -/
def rowText (q : Qualifier) (links : List Link) : String :=
  .ofList ((partText q).toList ++ links.flatMap Link.chars)

theorem links_of_readable {links : List Link} (h : ∀ l ∈ links, l.IsSpaced ∧ Readable l.part) :
    Links (links.flatMap Link.chars) [] (Qualifier.rereadLinks (links.map Link.pair)) := by
  induction links with
  | nil => exact .nil
  | cons l links ih =>
    obtain ⟨⟨h₁, h₂⟩, h₃⟩ := h l (by simp)
    have h₄ : Links (l.before ++ (l.connective.word.toList ++ (l.after ++
        ((partText l.part).toList ++ _)))) ([] ++ []) ((l.connective, l.part.reread) :: _) :=
      .cons h₁ h₂ h₃.legible.renders.part (ih fun m hm => h m (List.mem_cons_of_mem _ hm))
    simpa [Link.chars, Link.pair, Qualifier.rereadLinks] using h₄

theorem readable_regroup {q : Qualifier} (hq : Readable q) {links : List Link}
    (hl : ∀ l ∈ links, l.IsSpaced ∧ Readable l.part) :
    Readable (q.regroup (links.map Link.pair)) := by
  refine Qualifier.of_regroup (fun c parts => Readable.compound) hq fun l h => ?_
  obtain ⟨m, hm, rfl⟩ := List.mem_map.1 h
  exact (hl m hm).2

/-- A row of readable qualifiers is read as the regrouped row, and nothing is logged. -/
theorem parse_rowText {q : Qualifier} (hq : Readable q) {links : List Link}
    (hl : ∀ l ∈ links, l.IsSpaced ∧ Readable l.part) :
    Qualifier.parse (rowText q links) [] =
      ⟨some (q.regroup (links.map Link.pair)).reread, []⟩ := by
  have h := hq.legible.renders.part.row (links_of_readable hl)
  rw [← Qualifier.reread_regroup] at h
  apply ReadsRow.parse
  rwa [rowText, String.toList_ofList]

/-- A row of readable qualifiers is read as one that is equal to the regrouped row, and nothing is
logged. If none of the qualifiers is raw SQL, what is read has, for every object, the value of the
qualifiers joined from the left. -/
theorem exists_parse_rowText {q : Qualifier} (hq : Readable q) {links : List Link}
    (hl : ∀ l ∈ links, l.IsSpaced ∧ Readable l.part) :
    ∃ p, Qualifier.parse (rowText q links) [] = ⟨some p, []⟩ ∧
      p.isEqual (q.regroup (links.map Link.pair)) = true ∧
      (q.isEvaluatable = true → (∀ l ∈ links, l.part.isEvaluatable = true) → ∀ object,
        p.value? object =
          some (links.foldl (fun b l => l.connective.apply b (l.part.holds object))
            (q.holds object))) := by
  have h₁ : (q.regroup (links.map Link.pair)).reread.isEqual (q.regroup (links.map Link.pair)) =
      true := by
    rw [Qualifier.isEqual_comm]
    exact (readable_regroup hq hl).isEqual_reread
  refine ⟨_, parse_rowText hq hl, h₁, fun h₂ h₃ object => ?_⟩
  have h₄ : ∀ l ∈ links.map Link.pair, l.2.isEvaluatable = true := by
    intro l h
    obtain ⟨m, hm, rfl⟩ := List.mem_map.1 h
    exact h₃ m hm
  rw [Qualifier.value?_congr object h₁, Qualifier.value?_regroup object h₂ h₄,
    Qualifier.foldValues, List.foldl_map]
  rfl

/-- Three qualifiers, the connective changes once, and lines are broken at it. -/
theorem exists_parse_rowText_three :
    let a : Qualifier := .keyValue (.ofText "a") (.known .lessThan) (.constant (.string "x"))
    let b : Qualifier := .not (.keyComparison (.ofText "b") (.known .like) (.ofText "c"))
    let links : List Link :=
      [⟨[' '], .and, ['\t', ' '], b⟩, ⟨['\r', '\n'], .or, [' '], .always false⟩]
    (Readable a ∧ (∀ l ∈ links, l.IsSpaced ∧ Readable l.part) ∧ a.isEvaluatable = true ∧
        ∀ l ∈ links, l.part.isEvaluatable = true) ∧
      ∃ p, Qualifier.parse (rowText a links) [] = ⟨some p, []⟩ ∧
        p.isEqual (.compound .or [.compound .and [a, b], .always false]) = true ∧
        ∀ object, p.value? object = some (a.holds object && b.holds object || false) := by
  intro a b links
  have ha : ReadableRightKey "a" := .of_letters (by decide) (by decide) (by decide)
  have hb : ReadableRightKey "b" := .of_letters (by decide) (by decide) (by decide)
  have hc : ReadableRightKey "c" := .of_letters (by decide) (by decide) (by decide)
  have h₁ : Readable a := .keyValue ha.toReadableKey rfl
  have h₂ : ∀ l ∈ links, l.IsSpaced ∧ Readable l.part := by
    refine List.forall_mem_cons.2 ⟨⟨⟨?_, ?_⟩, .not rfl (.keyComparison hb.toReadableKey hc)⟩, ?_⟩
    · exact ⟨by decide, by decide⟩
    · exact ⟨by decide, by decide⟩
    · exact List.forall_mem_cons.2 ⟨⟨⟨⟨by decide, by decide⟩, by decide, by decide⟩, .always false⟩,
        by simp⟩
  have h₃ : ∀ l ∈ links, l.part.isEvaluatable = true := by decide
  obtain ⟨p, h₄, h₅, h₆⟩ := exists_parse_rowText h₁ h₂
  have h₇ : a.regroup (links.map Link.pair) =
      .compound .or [.compound .and [a, b], .always false] := by
    simp [links, Link.pair, Qualifier.regroup_cons, Qualifier.run, Qualifier.afterRun]
  rw [h₇] at h₅
  exact ⟨⟨h₁, h₂, rfl, h₃⟩, p, h₄, h₅, h₆ rfl h₃⟩

end RecordQuery
