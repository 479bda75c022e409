import RecordQuery.Proofs.Format.Accepted
import RecordQuery.Proofs.Qualifier.Reading

/-!
# What the canonical form tells

A qualifier that was parsed without an entry in the log is read back from its canonical form as an
equal one, unless a comparison in it tests for null by a token: the operation of the token `IS` with
the value null, which is written like the test for null. Both forms of null that `IS` is not
followed by directly give one: a cast null, and a number that is not finite.

* `isEqual_iff_of_reread`: qualifiers of one canonical form are equal exactly if they test for null
  by a token at the same places;
* `isEqual_iff_of_parse`: so much is lost, and no more.
-/

namespace RecordQuery

open Format

namespace Qualifier

/-- A comparison with null by the token `IS`, which names no relation. -/
def isNullByToken : Qualifier → Bool
  | keyValue _ op (.constant .null) => decide (op = .other "IS")
  | _ => false

theorem isNullByToken_of_ne (key : Key) (op : Operation) {v : Operand} (h : v ≠ .constant .null) :
    (keyValue key op v).isNullByToken = false := by
  unfold isNullByToken
  split
  · next h₁ => exact absurd (keyValue.inj h₁).2.2 h
  · rfl

/-- Operations that are read as one are the same, unless one of them is the token `IS` before null
and the other one is not. -/
theorem eq_iff_of_rereadOperation {op op' : Operation} {v v' : Operand} (key key' : Key)
    (hv : v.reread = v'.reread) (h : rereadOperation op v = rereadOperation op' v') :
    op = op' ↔ (keyValue key op v).isNullByToken = (keyValue key' op' v').isNullByToken := by
  by_cases h₁ : v = .constant .null
  · have h₂ : v' = .constant .null := by
      rw [← Operand.reread_eq_null_iff, ← hv, Operand.reread_eq_null_iff, h₁]
    subst h₁ h₂
    simp only [rereadOperation, isNullByToken] at h ⊢
    by_cases h₃ : op = .other "IS" <;> by_cases h₄ : op' = .other "IS" <;> simp_all
    exact fun h' => h₄ h'.symm
  · have h₂ : v' ≠ .constant .null := fun h' => h₁ (by
      rw [← Operand.reread_eq_null_iff, hv, h', Operand.reread_null])
    rw [rereadOperation_of_ne op h₁, rereadOperation_of_ne op' h₂] at h
    rw [isNullByToken_of_ne key op h₁, isNullByToken_of_ne key' op' h₂]
    exact iff_of_true h rfl

/-- What is read back does not test for null by a token. -/
theorem isNullByToken_reread (q : Qualifier) : q.reread.isNullByToken = false := by
  cases q with
  | keyValue key op v =>
    rw [reread]
    by_cases h : v = .constant .null
    · subst h
      by_cases h₁ : op = .other "IS" <;> simp [rereadOperation, isNullByToken, h₁]
    · exact isNullByToken_of_ne _ _ fun h' => h (Operand.reread_eq_null_iff.1 h')
  | _ => rfl

mutual

theorem leaves_reread : ∀ q : Qualifier, q.reread.leaves = q.leaves.map reread
  | always _ => rfl
  | not q => leaves_reread q
  | compound _ parts => leavesIn_rereadEach parts
  | keyValue .. => rfl
  | keyComparison .. => rfl
  | sql _ => rfl

theorem leavesIn_rereadEach :
    ∀ qs : List Qualifier, leavesIn (rereadEach qs) = (leavesIn qs).map reread
  | [] => rfl
  | q :: qs => by
    rw [rereadEach, leavesIn, leavesIn, List.map_append, leaves_reread q, leavesIn_rereadEach qs]

end

end Qualifier

namespace Format

/-- Both test for null by a token at the same places. -/
def AgreeOnNull (ls ms : List Qualifier) : Prop :=
  ∀ x ∈ ls.zip ms, x.1.isNullByToken = x.2.isNullByToken

instance (ls ms : List Qualifier) : Decidable (AgreeOnNull ls ms) :=
  inferInstanceAs (Decidable (∀ x ∈ ls.zip ms, _))

theorem areEqual_iff_of_rereadEach {ps qs : List Qualifier}
    (hp : ∀ p ∈ ps, ∀ q, IsRead true q → p.reread = q.reread →
      (p.isEqual q = true ↔ AgreeOnNull p.leaves q.leaves))
    (hq : ∀ q ∈ qs, IsRead true q) (h : Qualifier.rereadEach ps = Qualifier.rereadEach qs) :
    Qualifier.areEqual ps qs = true ↔
      AgreeOnNull (Qualifier.leavesIn ps) (Qualifier.leavesIn qs) := by
  induction ps generalizing qs with
  | nil =>
    cases qs with
    | nil => simp [Qualifier.areEqual, AgreeOnNull, Qualifier.leavesIn]
    | cons q qs => contradiction
  | cons p ps ih =>
    cases qs with
    | nil => contradiction
    | cons q qs =>
      obtain ⟨h₁, h₂⟩ := List.cons.inj h
      obtain ⟨hp₁, hp₂⟩ := List.forall_mem_cons.1 hp
      obtain ⟨hq₁, hq₂⟩ := List.forall_mem_cons.1 hq
      have h₃ : p.leaves.length = q.leaves.length := by
        have h₄ := congrArg (List.length ∘ Qualifier.leaves) h₁
        simpa [Qualifier.leaves_reread] using h₄
      rw [Qualifier.areEqual, Bool.and_eq_true, hp₁ q hq₁ h₁, ih hp₂ hq₂ h₂, AgreeOnNull,
        AgreeOnNull, AgreeOnNull, Qualifier.leavesIn, Qualifier.leavesIn, List.zip_append h₃,
        List.forall_mem_append]

/-- Qualifiers that are read back as one are equal exactly if they test for null by a token at the
same places. -/
theorem isEqual_iff_of_reread {p q : Qualifier} (hp : IsRead true p) (hq : IsRead true q)
    (h : p.reread = q.reread) : p.isEqual q = true ↔ AgreeOnNull p.leaves q.leaves := by
  induction hp generalizing q with
  | always b =>
    cases hq <;> try contradiction
    cases h
    simp [Qualifier.isEqual, AgreeOnNull, Qualifier.leaves]
  | @keyValue k op v h₁ h₂ h₃ =>
    cases hq <;> try contradiction
    next k' op' v' h₁' h₂' h₃' =>
    simp only [Qualifier.reread, Key.text_ofText, Qualifier.keyValue.injEq] at h
    obtain ⟨hk, ho, hv⟩ := h
    have h₄ : v.isEqual v' = true := by
      refine Operand.isEqual_trans h₃.isEqual_reread ?_
      rw [hv, Operand.isEqual_comm]
      exact h₃'.isEqual_reread
    rw [Qualifier.isEqual, h₄, hk, Key.isEqual_self, Bool.and_true, Bool.and_true,
      decide_eq_true_iff, Qualifier.eq_iff_of_rereadOperation (.ofText k') (.ofText k') hv ho]
    simp [AgreeOnNull, Qualifier.leaves]
  | @keyComparison l r op h₁ h₂ h₃ =>
    cases hq <;> try contradiction
    next l' r' op' h₁' h₂' h₃' =>
    simp only [Qualifier.reread, Key.text_ofText] at h
    rw [h, Qualifier.isEqual_self]
    simp [AgreeOnNull, Qualifier.leaves]
  | @not p h₁ h₂ ih =>
    cases hq <;> try contradiction
    next q _ h₃ => exact ih h₃ (Qualifier.not.inj h)
  | @compound c ps h₁ h₂ ih =>
    cases hq <;> try contradiction
    next d qs h₃ h₄ =>
    simp only [Qualifier.reread, Qualifier.compound.injEq] at h
    obtain ⟨rfl, h⟩ := h
    have h₅ := areEqual_iff_of_rereadEach (fun p hp q => ih p hp) h₄ h
    simpa [Qualifier.isEqual, Qualifier.leaves] using h₅
  | @sql ps h₁ h₂ =>
    cases hq <;> try contradiction
    next qs h₁' h₂' =>
    simp only [Qualifier.reread, h₂ rfl, h₂' rfl] at h
    rw [h, Qualifier.isEqual_self]
    simp [AgreeOnNull, Qualifier.leaves, Qualifier.isNullByToken]

theorem agreeOnNull_map_reread_iff {ls : List Qualifier} :
    AgreeOnNull (ls.map Qualifier.reread) ls ↔ ∀ l ∈ ls, l.isNullByToken = false := by
  induction ls with
  | nil => simp [AgreeOnNull]
  | cons l ls ih =>
    simp only [AgreeOnNull, List.map_cons, List.zip_cons_cons, List.forall_mem_cons,
      l.isNullByToken_reread] at ih ⊢
    rw [ih, eq_comm]

end Format

/-! ## Parsed qualifiers -/

/-- A qualifier that was parsed without an entry in the log is read back as an equal one exactly if
it does not test for null by a token, and one that was parsed from another text and has the same
canonical form is equal to it exactly if both do so at the same places. -/
theorem isEqual_iff_of_parse {format : String} {q : Qualifier}
    (h : Qualifier.parse format [] = ⟨some q, []⟩) :
    (∃ p, Qualifier.parse q.text [] = ⟨some p, []⟩ ∧
      (p.isEqual q = true ↔ ∀ l ∈ q.leaves, l.isNullByToken = false)) ∧
    ∀ format' q', Qualifier.parse format' [] = ⟨some q', []⟩ → q'.text = q.text →
      (q'.isEqual q = true ↔ AgreeOnNull q'.leaves q.leaves) := by
  have hr : ∀ {format : String} {q : Qualifier}, Qualifier.parse format [] = ⟨some q, []⟩ →
      IsRead true q := fun h => isRead_of_parse (congrArg Logged.value h) fun _ =>
    congrArg Logged.log h
  have h₁ := (hr h).legible.parse_text
  refine ⟨⟨q.reread, h₁, ?_⟩, fun format' q' h' ht => ?_⟩
  · have h₂ := (hr h₁).legible.parse_text
    rw [Qualifier.text_reread, h₁, Logged.mk.injEq, Option.some.injEq] at h₂
    rw [isEqual_iff_of_reread (hr h₁) (hr h) h₂.1.symm, Qualifier.leaves_reread,
      agreeOnNull_map_reread_iff]
  · have h₂ := (hr h').legible.parse_text
    rw [ht, h₁, Logged.mk.injEq, Option.some.injEq] at h₂
    exact isEqual_iff_of_reread (hr h') (hr h) h₂.1.symm

/-- The token `IS` before a list that holds null, and before a cast text. -/
theorem isEqual_iff_of_parse_list :
    let q : Qualifier := .compound .or
      [.ofKeyText "a" (.other "IS") (.array [.string "x", .null]),
        .not (.keyValue (.path "b" ["c"]) (.other "<>") (.placeholder "d"))]
    (Qualifier.parse "a IS (\"x\", nil) OR NOT b.c <> $d" [] = ⟨some q, []⟩ ∧
      Qualifier.parse "(a IS ('x', NULL)) OR NOT (b.c <> $d)" [] = ⟨some q, []⟩) ∧
      (∃ p, Qualifier.parse q.text [] = ⟨some p, []⟩ ∧ p.isEqual q = true) ∧
      q.isEqual q = true := by
  intro q
  have h₁ : Qualifier.parse "a IS (\"x\", nil) OR NOT b.c <> $d" [] = ⟨some q, []⟩ := by rfl
  have h₂ : Qualifier.parse "(a IS ('x', NULL)) OR NOT (b.c <> $d)" [] = ⟨some q, []⟩ := by rfl
  obtain ⟨⟨p, h₃, h₄⟩, h₅⟩ := isEqual_iff_of_parse h₁
  exact ⟨⟨h₁, h₂⟩, ⟨p, h₃, h₄.2 (by decide)⟩, (h₅ _ q h₂ rfl).2 (by decide)⟩

/-- A cast null after `IS` is written like the test for null, and read back as that. -/
theorem isEqual_eq_false_of_castNull :
    let q : Qualifier := .ofKeyText "a" (.other "IS") .null
    let p : Qualifier := .keyValue (.name "a") (.known .equalTo) (.constant .null)
    Qualifier.parse "a IS (x)NULL" [] = ⟨some q, []⟩ ∧
      Qualifier.parse q.text [] = ⟨some p, []⟩ ∧ p.isEqual q = false ∧
      Qualifier.parse "a IS NULL" [] = ⟨some p, []⟩ ∧ p.text = q.text := by
  intro q p
  have h₁ : q.text = "a IS NULL" := by rfl
  have h₂ : Qualifier.parse "a IS NULL" [] = ⟨some p, []⟩ := by rfl
  exact ⟨by rfl, by rw [h₁, h₂], by rfl, h₂, by rfl⟩

end RecordQuery
