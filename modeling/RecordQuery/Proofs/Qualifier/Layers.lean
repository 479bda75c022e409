import RecordQuery.Proofs.Qualifier.Binding
import RecordQuery.Proofs.Qualifier.Equality
import RecordQuery.Proofs.Qualifier.Reread

/-!
# Binding in layers

Binding the values of one object and then those of another one amounts to binding the values of
both, where those of the first one count.

* `Qualifier.toOption_inTurn_bind?`: for what replacing in turn gives, and whether something was
  replaced at all;
* `Qualifier.bind_layers`: for binding.
-/

namespace RecordQuery

/-! ## Replacing in turn -/

section InTurn

variable {α β : Type}

/-- Replaces a piece, and then what came of that. -/
def inTurn (f g : α → Except Failure (Option α)) (a : α) : Except Failure (Option α) :=
  match f a with
  | .error e => .error e
  | .ok b => (g (b.getD a)).map fun c => c.or b

theorem inTurn_of_ok_none {f g : α → Except Failure (Option α)} {a : α} (h : f a = .ok none) :
    inTurn f g a = g a := by
  simp only [inTurn, h, Option.getD_none, Option.or_none]
  cases g a <;> rfl

/-- What the second one does not replace stays what the first one made of it. -/
theorem inTurn_eq_first {f g : α → Except Failure (Option α)} {a : α}
    (h : ∀ r, f a = .ok r → g (r.getD a) = .ok none) : inTurn f g a = f a := by
  rw [inTurn]
  cases hf : f a with
  | error e => rfl
  | ok r => simp [h r hf, Except.map]

theorem toOption_consReplaced_congr {a : α} {as : List α} {x x' : Except Failure (Option α)}
    {y y' : Except Failure (Option (List α))} (hx : x.toOption = x'.toOption)
    (hy : y.toOption = y'.toOption) :
    (consReplaced a as x y).toOption = (consReplaced a as x' y').toOption := by
  cases x <;> cases x' <;> simp [Except.toOption] at hx <;>
    cases y <;> cases y' <;> simp [Except.toOption] at hy <;>
    simp [consReplaced, Except.toOption, hx, hy]

/-- A list is replaced in turn element by element. -/
theorem toOption_inTurn_cons {f g : α → Except Failure (Option α)}
    {F G : List α → Except Failure (Option (List α))}
    (hF : ∀ a as, F (a :: as) = consReplaced a as (f a) (F as))
    (hG : ∀ a as, G (a :: as) = consReplaced a as (g a) (G as)) (a : α) (as : List α) :
    (inTurn F G (a :: as)).toOption =
      (consReplaced a as (inTurn f g a) (inTurn F G as)).toOption := by
  simp only [inTurn, hF]
  cases f a with
  | error e => rfl
  | ok b =>
    simp only
    cases F as with
    | error e =>
      cases g (b.getD a) <;> rfl
    | ok bs =>
      obtain ⟨r, h₁⟩ : ∃ r, consReplaced a as (.ok b) (.ok bs) = .ok r := ⟨_, rfl⟩
      obtain ⟨_, _, h₂, h₃, h₄⟩ := consReplaced_eq_ok h₁
      obtain rfl := Except.ok.inj h₂
      obtain rfl := Except.ok.inj h₃
      simp only [h₁, h₄, hG]
      obtain rfl := Except.ok.inj h₁
      cases g (b.getD a) with
      | error e => rfl
      | ok c =>
        cases G (bs.getD as) with
        | error e => rfl
        | ok cs => cases b <;> cases bs <;> cases c <;> cases cs <;> rfl

/-- What is inside something is replaced in turn inside it. -/
theorem inTurn_map {f g : α → Except Failure (Option α)} {F G : β → Except Failure (Option β)}
    {k : α → β} (hF : ∀ a, F (k a) = (f a).map (Option.map k))
    (hG : ∀ a, G (k a) = (g a).map (Option.map k)) (a : α) :
    inTurn F G (k a) = (inTurn f g a).map (Option.map k) := by
  simp only [inTurn, hF]
  cases f a with
  | error e => rfl
  | ok b =>
    have h : (b.map k).getD (k a) = k (b.getD a) := by cases b <;> rfl
    simp only [Except.map, h, hG]
    cases g (b.getD a) with
    | error e => rfl
    | ok c => cases b <;> cases c <;> rfl

theorem toOption_map (x : Except Failure α) (f : α → β) :
    (x.map f).toOption = x.toOption.map f := by
  cases x <;> rfl

theorem toOption_eq_some_iff {x : Except Failure α} {a : α} : x.toOption = some a ↔ x = .ok a := by
  cases x <;> simp [Except.toOption]

theorem toOption_inTurn_replaceEach? {f g h : α → Except Failure (Option α)} {as : List α}
    (hf : ∀ a ∈ as, inTurn f g a = h a) :
    (inTurn (replaceEach? f) (replaceEach? g) as).toOption = (replaceEach? h as).toOption := by
  induction as with
  | nil => rfl
  | cons a as ih =>
    rw [toOption_inTurn_cons (fun _ _ => rfl) (fun _ _ => rfl), replaceEach?]
    exact toOption_consReplaced_congr (congrArg _ (hf a (by simp)))
      (ih fun b hb => hf b (List.mem_cons_of_mem _ hb))

end InTurn

/-! ## Layers of bindings -/

/-- For the given occurrences `both` holds what `first` holds, and else what `second` holds; what
`first` holds is no placeholder, which binding would go on with. -/
structure Layers (first second both : Value) (os : List Occurrence) : Prop where
  value? : ∀ o ∈ os, bindingValue? both o.name =
    (bindingValue? first o.name).or (bindingValue? second o.name)
  noPlaceholder : BindsNoPlaceholder first os

section

variable {first second both : Value}

theorem Layers.mono {os ps : List Occurrence} (h : Layers first second both os) (hs : ps ⊆ os) :
    Layers first second both ps :=
  ⟨fun o ho => h.value? o (hs ho), fun o ho => h.noPlaceholder o (hs ho)⟩

/-- A piece with one name: the first layer replaces it if it holds the name, and else the second one
does. -/
theorem inTurn_of_layers {α : Type} {name : String} {f : Value → α → Except Failure (Option α)}
    {a : α}
    (hv : bindingValue? both name = (bindingValue? first name).or (bindingValue? second name))
    (hc : ∀ b c, bindingValue? b name = bindingValue? c name → f b a = f c a)
    (hn : bindingValue? first name = none → f first a = .ok none)
    (hs : ∀ v, bindingValue? first name = some v →
      ∀ r, f first a = .ok r → f second (r.getD a) = .ok none) :
    inTurn (f first) (f second) a = f both a := by
  cases h : bindingValue? first name with
  | none =>
    rw [inTurn_of_ok_none (hn h)]
    exact hc _ _ (by simpa [h] using hv.symm)
  | some v =>
    rw [inTurn_eq_first (hs v h)]
    exact hc _ _ (by simpa [h] using hv.symm)

theorem SqlPart.inTurn_bind? {p : SqlPart} (h : Layers first second both p.occurrences) :
    inTurn (SqlPart.bind? first false) (SqlPart.bind? second false) p = p.bind? both false := by
  cases p with
  | raw sql => rfl
  | value v => rfl
  | placeholder name =>
    refine inTurn_of_layers (f := fun b => SqlPart.bind? b false)
      (h.value? ⟨name, true⟩ (by simp [occurrences])) (fun b c hbc => ?_) (fun hn => ?_)
      (fun v hs r hr => ?_)
    · simp only [bind?, hbc]
    · simp only [bind?, hn]
      rfl
    · simp only [bind?, hs] at hr
      -- Null and what has a raw form become values, which no layer replaces.
      split at hr
      · contradiction
      · obtain rfl := Except.ok.inj hr
        rfl
      · split at hr
        · obtain rfl := Except.ok.inj hr
          rfl
        · contradiction

namespace Qualifier

/-- No negation of a negation or of a truth value. -/
def isReduced : Qualifier → Bool
  | not q => q.takesNot
  | _ => true

theorem isReduced_negate {q : Qualifier} (h : q.isReduced = true) : q.negate.isReduced = true := by
  cases q with
  | not q => cases q <;> first | rfl | contradiction
  | _ => rfl

theorem isReduced_of_takesNot {q : Qualifier} (h : q.takesNot = true) : q.isReduced = true := by
  cases q <;> first | rfl | contradiction

section

variable {bindings : Value} {requiresAll : Bool}

theorem bind?_keyValue_ofValue (key : Key) (op : Operation) {v : Value}
    (h : ∀ name, v ≠ .placeholder name) :
    (keyValue key op (.ofValue v)).bind? bindings requiresAll = .ok none := by
  rw [Operand.ofValue_eq_constant h]
  rfl

/-- What takes a NOT before it still does after binding. -/
theorem takesNot_bind? {q p : Qualifier} (hq : q.takesNot = true)
    (h : q.bind? bindings requiresAll = .ok (some p)) : p.takesNot = true := by
  cases q with
  | always b => contradiction
  | not q => contradiction
  | keyComparison left op right => simp [bind?] at h
  | keyValue key op v =>
    cases v with
    | constant c => simp [bind?] at h
    | placeholder name =>
      rw [bind?] at h
      split at h
      · exact absurd (eq_none_of_unboundName h) (by simp)
      · obtain rfl := Option.some.inj (Except.ok.inj h)
        rfl
  | compound c parts =>
    obtain ⟨r, -, h₁⟩ := exists_of_map_eq_ok h
    obtain ⟨ps, -, rfl⟩ := Option.map_eq_some_iff.1 h₁
    rfl
  | sql parts =>
    obtain ⟨r, -, h₁⟩ := exists_of_map_eq_ok h
    obtain ⟨ps, -, rfl⟩ := Option.map_eq_some_iff.1 h₁
    rfl

/-- What was replaced is reduced. -/
theorem isReduced_bind? : ∀ {q p : Qualifier}, q.bind? bindings requiresAll = .ok (some p) →
    p.isReduced = true
  | not q, p, h => by
    obtain ⟨r, h₁, h₂⟩ := exists_of_map_eq_ok h
    obtain ⟨r, rfl, rfl⟩ := Option.map_eq_some_iff.1 h₂
    exact isReduced_negate (isReduced_bind? h₁)
  | always b, p, h => by simp [bind?] at h
  | keyValue .., p, h => isReduced_of_takesNot (takesNot_bind? rfl h)
  | keyComparison .., p, h => isReduced_of_takesNot (takesNot_bind? rfl h)
  | compound .., p, h => isReduced_of_takesNot (takesNot_bind? rfl h)
  | sql .., p, h => isReduced_of_takesNot (takesNot_bind? rfl h)

/-- Binding a negation is the negation of binding, also where the negation takes one away. -/
theorem bind?_negate {q : Qualifier} (hq : q.isReduced = true) :
    q.negate.bind? bindings requiresAll =
      (q.bind? bindings requiresAll).map (Option.map negate) := by
  cases q with
  | always b => rfl
  | not q =>
    rw [bind?, negate]
    cases h : q.bind? bindings requiresAll with
    | error e => rfl
    | ok r =>
      cases r with
      | none => rfl
      | some p =>
        have h₁ : p.negate = not p := negate_of_takesNot (takesNot_bind? hq h)
        have h₂ : (not p).negate = p := rfl
        simp only [Except.map, Option.map_some, h₁, h₂]
  | _ => rfl

end

/-! ### The whole tree -/

/-- A replaced part is negated in turn as if it had been replaced at once. -/
theorem toOption_inTurn_not {q : Qualifier} :
    (inTurn (bind? first false) (bind? second false) (not q)).toOption =
      (inTurn (bind? first false) (bind? second false) q).toOption.map (Option.map negate) := by
  rw [inTurn, inTurn, bind?]
  cases h : q.bind? first false with
  | error e => rfl
  | ok r =>
    cases r with
    | none =>
      simp only [Except.map, Option.map_none, Option.getD_none, bind?]
      cases q.bind? second false with
      | error e => rfl
      | ok s => cases s <;> rfl
    | some p =>
      simp only [Except.map, Option.map_some, Option.getD_some, bind?_negate (isReduced_bind? h)]
      cases p.bind? second false with
      | error e => rfl
      | ok s => cases s <;> rfl

theorem inTurn_bind?_keyValue {key : Key} {op : Operation} {name : String}
    (h : Layers first second both (keyValue key op (.placeholder name)).occurrences) :
    inTurn (bind? first false) (bind? second false) (keyValue key op (.placeholder name)) =
      (keyValue key op (.placeholder name)).bind? both false := by
  have ho : ⟨name, false⟩ ∈ (keyValue key op (.placeholder name)).occurrences := by
    simp [occurrences]
  refine inTurn_of_layers (f := fun b => bind? b false) (h.value? _ ho) (fun b c hbc => ?_)
    (fun hn => ?_) (fun v hs r hr => ?_)
  · simp only [bind?, hbc]
  · simp only [bind?, hn]
    rfl
  · simp only [bind?, hs] at hr
    obtain rfl := Except.ok.inj hr
    have hv := h.noPlaceholder _ ho
    rw [(bindingValue?_eq_some_iff.1 hs).1] at hv
    exact bind?_keyValue_ofValue key op hv

mutual

/-- Replacing by two layers in turn gives what replacing by both of them gives, and fails if that
does. The failure may be another one: one of the first layer comes before those of the second. -/
theorem toOption_inTurn_bind? : ∀ {q : Qualifier}, Layers first second both q.occurrences →
    (inTurn (bind? first false) (bind? second false) q).toOption =
      (q.bind? both false).toOption
  | always _, _ => rfl
  | keyValue key op (.placeholder name), h => by
    rw [inTurn_bind?_keyValue h]
  | keyValue _ _ (.constant _), _ => rfl
  | keyComparison _ _ _, _ => rfl
  | not q, h => by
    rw [toOption_inTurn_not, toOption_inTurn_bind? (q := q) h, bind?, toOption_map]
  | compound c parts, h => by
    rw [inTurn_map (f := bindEach? first false) (g := bindEach? second false) (k := compound c)
      (fun _ => rfl) (fun _ => rfl), toOption_map, toOption_inTurn_bindEach? h, bind?, toOption_map]
  | sql parts, h => by
    have h₁ : ∀ p ∈ parts, Layers first second both p.occurrences := fun p hp =>
      h.mono fun o ho => List.mem_flatMap.2 ⟨p, hp, ho⟩
    rw [inTurn_map (f := replaceEach? (SqlPart.bind? first false))
      (g := replaceEach? (SqlPart.bind? second false)) (k := sql) (fun _ => rfl) (fun _ => rfl),
      toOption_map, toOption_inTurn_replaceEach? fun p hp => SqlPart.inTurn_bind? (h₁ p hp),
      bind?, toOption_map]

theorem toOption_inTurn_bindEach? : ∀ {qs : List Qualifier},
    Layers first second both (occurrencesIn qs) →
      (inTurn (bindEach? first false) (bindEach? second false) qs).toOption =
        (bindEach? both false qs).toOption
  | [], _ => rfl
  | q :: qs, h => by
    have h₁ : Layers first second both q.occurrences := h.mono (List.subset_append_left _ _)
    have h₂ : Layers first second both (occurrencesIn qs) := h.mono (List.subset_append_right _ _)
    rw [toOption_inTurn_cons (fun _ _ => rfl) (fun _ _ => rfl), bindEach?]
    exact toOption_consReplaced_congr (toOption_inTurn_bind? h₁) (toOption_inTurn_bindEach? h₂)

end

/-- Binding in layers is replacing in turn. -/
theorem bind_bind_eq_inTurn (q : Qualifier) (first second : Value) :
    ((q.bind first false).bind fun p => p.bind second false) =
      (inTurn (bind? first false) (bind? second false) q).map fun r => r.getD q := by
  rw [inTurn, bind]
  cases q.bind? first false with
  | error e => rfl
  | ok r =>
    simp only [Except.map, Except.bind, bind]
    cases (r.getD q).bind? second false with
    | error e => rfl
    | ok s => cases s <;> rfl

/-- After binding, the same values replace nothing. -/
theorem bind?_of_bind {q p : Qualifier} (h : q.bind first false = .ok p)
    (hp : BindsNoPlaceholder first q.occurrences) : p.bind? first false = .ok none := by
  obtain ⟨r, h₁, rfl⟩ := exists_of_map_eq_ok h
  have h₂ : ∀ o ∈ (r.getD q).occurrences, o.isUnbound first = true := by
    rw [occurrences_bind? h₁ hp]
    exact fun o ho => (List.mem_filter.1 ho).2
  have h₃ := settles_bind? first false (r.getD q)
  cases h₄ : (r.getD q).bind? first false with
  | error e =>
    obtain ⟨o, h₅, -⟩ := (h₃.eq_error_iff e).1 h₄
    have h₆ : o.isUnsupported first = true := by
      simpa [Occurrence.isFaulty] using List.find?_some h₅
    have h₇ := h₂ o (List.mem_of_find?_eq_some h₅)
    simp [Occurrence.isUnbound_of_isUnsupported h₆] at h₇
  | ok s =>
    rw [h₄] at h₃
    rw [h₃.2.2 h₂]

theorem layers_of_bindingKeys {q : Qualifier}
    (h : ∀ name ∈ q.bindingKeys, bindingValue? both name =
      (bindingValue? first name).or (bindingValue? second name))
    (hp : ∀ name ∈ q.bindingKeys, ∀ n, first.lookupText name ≠ .placeholder n) :
    Layers first second both q.occurrences := by
  have h₁ : ∀ o ∈ q.occurrences, o.name ∈ q.bindingKeys := fun o ho => by
    rw [bindingKeys, List.mem_eraseDups, ← map_name_occurrences]
    exact List.mem_map_of_mem ho
  exact ⟨fun o ho => h o.name (h₁ o ho), fun o ho => hp o.name (h₁ o ho)⟩

/-- If `both` holds what `first` holds, and else what `second` holds, then binding to `first` and
the result to `second` succeeds exactly if binding to `both` does, with equal results. Binding to
the same values once more changes nothing. -/
theorem bind_layers {q : Qualifier} {first second both : Value}
    (h : ∀ name ∈ q.bindingKeys, bindingValue? both name =
      (bindingValue? first name).or (bindingValue? second name))
    (hp : ∀ name ∈ q.bindingKeys, ∀ n, first.lookupText name ≠ .placeholder n) :
    ((∃ p, ((q.bind first false).bind fun p => p.bind second false) = .ok p) ↔
      ∃ r, q.bind both false = .ok r) ∧
    (∀ p r, ((q.bind first false).bind fun p => p.bind second false) = .ok p →
      q.bind both false = .ok r → p.isEqual r = true) ∧
    ((q.bind first false).bind fun p => p.bind first false) = q.bind first false := by
  have hl := layers_of_bindingKeys h hp
  have h₁ : ((q.bind first false).bind fun p => p.bind second false).toOption =
      (q.bind both false).toOption := by
    rw [bind_bind_eq_inTurn, bind, toOption_map, toOption_map, toOption_inTurn_bind? hl]
  have h₂ : ∀ p, ((q.bind first false).bind fun p => p.bind second false) = .ok p ↔
      q.bind both false = .ok p := fun p => by
    rw [← toOption_eq_some_iff, h₁, toOption_eq_some_iff]
  refine ⟨exists_congr h₂, fun p r hp' hr => ?_, ?_⟩
  · rw [h₂, hr] at hp'
    rw [Except.ok.inj hp']
    exact p.isEqual_self
  · cases h₃ : q.bind first false with
    | error e => rfl
    | ok p =>
      have h₄ := bind?_of_bind h₃ hl.noPlaceholder
      rw [Except.bind, bind, h₄]
      rfl

/-- The first city counts, and the identifiers come from the second object. -/
theorem bind_layers_city :
    let q : Qualifier := .compound .and
      [.not (.not (.keyValue (.name "city") (.known .equalTo) (.placeholder "city"))),
        .sql [.raw "id IN ", .placeholder "ids"]]
    let first : Value := .map [("city", .string "Oz")]
    let second : Value := .map [("city", .string "Ys"), ("ids", .string "7")]
    let both : Value := .map [("ids", .string "7"), ("city", .string "Oz")]
    ∃ p r, ((q.bind first false).bind fun p => p.bind second false) = .ok p ∧
      q.bind both false = .ok r ∧ p.isEqual r = true := by
  intro q first second both
  have lookupText_map (name : String) (h : Text.splitAt '.' name = [name]) (hn : name ≠ "")
      (entries : List (String × Value)) :
      (Value.map entries).lookupText name = (Entries.get? name entries).getD .missing := by
    simp [Value.lookupText, h, Value.lookupPath, hn, Value.lookup]
  have h₁ := lookupText_map "city" (by simp [Text.splitAt, Text.fields]) (by decide)
  have h₂ := lookupText_map "ids" (by simp [Text.splitAt, Text.fields]) (by decide)
  have hk : q.bindingKeys = ["city", "ids"] := by
    simp [bindingKeys, q, bindingOccurrences, bindingOccurrencesIn, List.filterMap_cons,
      Operand.name?, SqlPart.name?, List.eraseDups_cons]
  have h : ∀ name ∈ q.bindingKeys, bindingValue? both name =
      (bindingValue? first name).or (bindingValue? second name) := by
    simp [hk, bindingValue?, first, second, both, h₁, h₂, Entries.get?]
  have hp : ∀ name ∈ q.bindingKeys, ∀ n, first.lookupText name ≠ .placeholder n := by
    simp [hk, first, h₁, h₂, Entries.get?]
  obtain ⟨r, hr⟩ : ∃ r, q.bind both false = .ok r := by
    simp [q, bind, bind?, bindEach?, replaceEach?, SqlPart.bind?, consReplaced, bindingValue?, both,
      h₁, h₂, Entries.get?, RawValue.ofValue?, Except.map]
  obtain ⟨p, hp'⟩ := (bind_layers h hp).1.2 ⟨r, hr⟩
  exact ⟨p, r, hp', hr, (bind_layers h hp).2.1 p r hp' hr⟩

end Qualifier

end

end RecordQuery
