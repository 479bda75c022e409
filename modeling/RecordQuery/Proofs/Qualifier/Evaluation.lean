import RecordQuery.Proofs.Comparison
import RecordQuery.Proofs.Qualifier.Equality
import RecordQuery.Proofs.Qualifier.Regroup
import RecordQuery.Qualifier.Evaluation

/-!
# Values of qualifiers

`Qualifier.value?` is the value of an evaluation without what is logged on the way.

* `Qualifier.value?_congr`: equal qualifiers have one value;
* `Qualifier.value?_regroup`: a regrouped row has the value of its qualifiers joined from the left,
  although a compound stops at the first part that settles it.
-/

namespace RecordQuery

/-- The truth value of two joined ones. -/
def Connective.apply : Connective → Bool → Bool → Bool
  | and, a, b => a && b
  | or, a, b => a || b

theorem Connective.apply_assoc (c : Connective) (x y z : Bool) :
    c.apply (c.apply x y) z = c.apply x (c.apply y z) := by
  cases c
  · exact Bool.and_assoc x y z
  · exact Bool.or_assoc x y z

theorem Connective.apply_unit (c : Connective) (x : Bool) : c.apply x c.unit = x := by
  cases c <;> cases x <;> rfl

/-- A compound goes on after a part that does not settle it. -/
theorem Connective.apply_eq_ite (c : Connective) (x y : Bool) :
    c.apply x y = if x = c.unit then y else x := by
  cases c <;> cases x <;> simp [apply, unit]

namespace Qualifier

variable (object : Value)

/-- Whether the qualifier holds for an object; raw SQL has no value. -/
def value? (q : Qualifier) : Option Bool :=
  (q.evaluate? object).map (·.value)

/-- The qualifier evaluates to true on an object; raw SQL does not. -/
def holds (q : Qualifier) : Bool :=
  (q.value? object).getD false

/-- Only raw SQL has no value. -/
theorem value?_eq_some {q : Qualifier} (h : q.isEvaluatable = true) :
    q.value? object = some (q.holds object) := by
  have h₁ : (q.value? object).isSome = true := by
    cases q with
    | keyValue key op v => cases v <;> rfl
    | not q =>
      simp only [value?, evaluate?]
      split <;> rfl
    | sql parts => contradiction
    | _ => rfl
  obtain ⟨b, hb⟩ := Option.isSome_iff_exists.1 h₁
  rw [holds, hb, Option.getD_some]

/-- What has no value counts as false in a negation. -/
theorem value?_not (q : Qualifier) :
    (not q).value? object = some (((q.value? object).map (! ·)).getD false) := by
  simp only [value?, evaluate?]
  cases q.evaluate? object <;> rfl

theorem value?_compound (c : Connective) (parts : List Qualifier) :
    (compound c parts).value? object = some (evaluateParts object c parts).value := rfl

/-- What has no value counts as false in a compound, and settles it. -/
theorem value_evaluateParts_cons (c : Connective) (q : Qualifier) (qs : List Qualifier) :
    (evaluateParts object c (q :: qs)).value =
      ((q.value? object).map fun b => c.apply b (evaluateParts object c qs).value).getD false := by
  simp only [value?, evaluateParts]
  cases q.evaluate? object with
  | none => rfl
  | some r =>
    simp only [Logged.value_bind, Option.map_some, Option.getD_some, Connective.apply_eq_ite]
    split <;> rfl

/-- What is selected is what the qualifier holds for. -/
theorem value_select {q : Qualifier} (h : q.isEvaluatable = true) (objects : List Value) :
    (q.select objects).value = objects.filter (q.holds ·) := by
  induction objects with
  | nil => rfl
  | cons v vs ih =>
    obtain ⟨r, h₁, h₂⟩ := Option.map_eq_some_iff.1 (value?_eq_some v h)
    simp only [select, h₁, Logged.value_bind, Logged.value_map, ih, h₂, List.filter_cons]

/-- A record that holds one text under a plain key is compared by that text. -/
theorem value?_equalTo_text {name : String} (h₁ : '.' ∉ name.toList) (h₂ : name ≠ "")
    (s t : String) :
    (keyValue (.name name) (.known .equalTo) (.constant (.string t))).value?
      (.map [(name, .string s)]) = some (s == t) := by
  have h := Value.lookupText_of_notMem name h₁ h₂ (.map [(name, .string s)])
  simp [value?, evaluate?, Key.valueIn, Key.text, h, Value.lookup, Entries.get?, Value.normalize,
    Operation.compare, Constant.isEqual]

/-! ## Equal qualifiers -/

theorem valueIn_congr {k j : Key} (h : k.isEqual j = true) :
    k.valueIn object = j.valueIn object := by
  rw [Key.valueIn, Key.valueIn, Key.text_eq_of_isEqual h]

theorem value?_keyValue_congr {k j : Key} (op : Operation) {v w : Operand}
    (h₁ : k.isEqual j = true) (h₂ : v.isEqual w = true) :
    (keyValue k op v).value? object = (keyValue j op w).value? object := by
  cases v <;> cases w <;> try contradiction
  case constant.constant c d =>
    simp only [value?, evaluate?, Option.map_some, valueIn_congr object h₁]
    rw [Operation.value_compare_congr op _ h₂]
  case placeholder.placeholder =>
    simp only [value?, evaluate?, Option.map_some, Logged.value_noting]

mutual

/-- Equal qualifiers have one value. -/
theorem value?_congr : ∀ {p q : Qualifier}, p.isEqual q = true → p.value? object = q.value? object
  | always a, q, h => by
    cases q <;> try contradiction
    rw [eq_of_beq h]
  | keyValue k op v, q, h => by
    cases q <;> try contradiction
    simp only [isEqual, Bool.and_eq_true, decide_eq_true_eq] at h
    obtain ⟨⟨rfl, h₁⟩, h₂⟩ := h
    exact value?_keyValue_congr object op h₁ h₂
  | keyComparison l op r, q, h => by
    cases q <;> try contradiction
    simp only [isEqual, Bool.and_eq_true, decide_eq_true_eq] at h
    obtain ⟨⟨rfl, h₁⟩, h₂⟩ := h
    simp only [value?, evaluate?, valueIn_congr object h₁, valueIn_congr object h₂]
  | not p, q, h => by
    cases q <;> try contradiction
    next q => rw [value?_not, value?_not, value?_congr (show p.isEqual q = true from h)]
  | compound c ps, q, h => by
    cases q <;> try contradiction
    simp only [isEqual, Bool.and_eq_true, decide_eq_true_eq] at h
    obtain ⟨rfl, h₁⟩ := h
    exact congrArg some (value_evaluateParts_congr c h₁)
  | sql ps, q, h => by
    cases q <;> first | rfl | contradiction

theorem value_evaluateParts_congr (c : Connective) :
    ∀ {ps qs : List Qualifier}, areEqual ps qs = true →
      (evaluateParts object c ps).value = (evaluateParts object c qs).value
  | [], [], _ => rfl
  | [], _ :: _, h => by contradiction
  | _ :: _, [], h => by contradiction
  | p :: ps, q :: qs, h => by
    simp only [areEqual, Bool.and_eq_true] at h
    rw [value_evaluateParts_cons, value_evaluateParts_cons, value?_congr h.1,
      value_evaluateParts_congr c h.2]

end

/-! ## Regrouped rows -/

/-- The value of a row of qualifiers that are joined from the left. -/
def foldValues (b : Bool) (links : List (Connective × Qualifier)) : Bool :=
  links.foldl (fun b l => l.1.apply b (l.2.holds object)) b

theorem holds_compound_singleton (c : Connective) {q : Qualifier} (h : q.isEvaluatable = true) :
    (compound c [q]).holds object = q.holds object := by
  rw [holds, value?_compound, value_evaluateParts_cons, value?_eq_some object h]
  exact c.apply_unit _

theorem holds_compound_append (c : Connective) {qs : List Qualifier}
    (hq : ∀ q ∈ qs, q.isEvaluatable = true) {p : Qualifier} (hp : p.isEvaluatable = true) :
    (compound c (qs ++ [p])).holds object =
      c.apply ((compound c qs).holds object) (p.holds object) := by
  induction qs with
  | nil =>
    rw [List.nil_append, holds_compound_singleton object c hp]
    cases c <;> simp [holds, value?_compound, evaluateParts, Connective.unit, Connective.apply]
  | cons q qs ih =>
    have h₁ := ih fun r hr => hq r (List.mem_cons_of_mem _ hr)
    simp only [holds, value?_compound, Option.getD_some] at h₁ ⊢
    rw [List.cons_append, value_evaluateParts_cons, value_evaluateParts_cons,
      value?_eq_some object (hq q (by simp)), h₁]
    simp [Connective.apply_assoc]

theorem holds_compound_pair (c : Connective) {q p : Qualifier} (hq : q.isEvaluatable = true)
    (hp : p.isEvaluatable = true) :
    (compound c [q, p]).holds object = c.apply (q.holds object) (p.holds object) := by
  rw [← holds_compound_singleton object c hq]
  have h : ∀ r ∈ [q], r.isEvaluatable = true := by simpa using hq
  exact holds_compound_append object c h hp

/-- A growing compound has the value of its parts, joined from the left with what follows. -/
theorem holds_extend (c : Connective) {parts : List Qualifier}
    {links : List (Connective × Qualifier)} (hp : ∀ q ∈ parts, q.isEvaluatable = true)
    (hl : ∀ l ∈ links, l.2.isEvaluatable = true) :
    (extend c parts links).holds object =
      foldValues object ((compound c parts).holds object) links := by
  induction links generalizing c parts with
  | nil => rfl
  | cons l links ih =>
    obtain ⟨d, p⟩ := l
    have h₁ : p.isEvaluatable = true := hl (d, p) (by simp)
    have h₂ : ∀ l ∈ links, l.2.isEvaluatable = true := fun l h => hl l (List.mem_cons_of_mem _ h)
    rw [extend]
    split
    · next h =>
      -- the run goes on, and the compound grows by one part
      subst h
      have h₃ : ∀ q ∈ parts ++ [p], q.isEvaluatable = true := by
        simpa [or_imp, forall_and] using ⟨hp, h₁⟩
      rw [ih c h₃ h₂, holds_compound_append object c hp h₁]
      rfl
    · -- the compound is finished, and starts the next one
      rw [ih d (by simpa using ⟨rfl, h₁⟩) h₂, holds_compound_pair object d rfl h₁]
      rfl

theorem isEvaluatable_extend (c : Connective) (parts : List Qualifier)
    (links : List (Connective × Qualifier)) : (extend c parts links).isEvaluatable = true := by
  induction links generalizing c parts with
  | nil => rfl
  | cons l links ih =>
    rw [extend]
    split
    · exact ih c _
    · exact ih l.1 _

/-- A regrouped row has the value of its qualifiers joined from the left. -/
theorem value?_regroup {q : Qualifier} {links : List (Connective × Qualifier)}
    (hq : q.isEvaluatable = true) (hl : ∀ l ∈ links, l.2.isEvaluatable = true) :
    (q.regroup links).value? object = some (foldValues object (q.holds object) links) := by
  cases links with
  | nil =>
    rw [regroup_nil]
    exact value?_eq_some object hq
  | cons l links =>
    obtain ⟨c, p⟩ := l
    have h₁ : p.isEvaluatable = true := hl (c, p) (by simp)
    have h₂ : ∀ l ∈ links, l.2.isEvaluatable = true := fun l h => hl l (List.mem_cons_of_mem _ h)
    rw [regroup_cons_eq_extend, value?_eq_some object (isEvaluatable_extend c _ _),
      holds_extend object c (by simpa using ⟨hq, h₁⟩) h₂, holds_compound_pair object c hq h₁]
    rfl

end Qualifier

end RecordQuery
