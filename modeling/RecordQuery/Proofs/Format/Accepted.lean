import RecordQuery.Proofs.RoundTrip

/-!
# What the parser accepts

The parser is tolerant: it takes odd words for operations, goes on where a parenthesis is not
closed, and drops what it cannot read. `IsRead` says what it makes of a text without arguments, by
induction on the count of steps (`yields_oneQualifier_row`, and `isRead_of_parse` for a whole text).
All of that is legible, so that its written form is read without a complaint, and as a qualifier
that is written in the same way: `exists_parse_text_of_parse`.

One thing depends on what was logged: where the parser drops a dollar sign, it leaves two raw texts
of SQL side by side. The rules are therefore stated for all steps and for those that log nothing.
-/

namespace RecordQuery.Format

variable {α β : Type} {quiet : Bool} {P Q : α → Prop} {args : List Value}

/-! ## Generic rules -/

/-- What a step gives has a property, and the given arguments are left after it. A failed step
yields everything, and so does one that logs, if only quiet ones are looked at. -/
def Step.Yields (quiet : Bool) (P : α → Prop) (args : List Value) (s : Step α) : Prop :=
  (quiet = true → s.log = []) → ∀ a c, s.result = some (a, c) → P a ∧ c.args = args

theorem Step.Yields.mono {s : Step α} (h : s.Yields quiet P args) (hq : ∀ a, P a → Q a) :
    s.Yields quiet Q args :=
  fun hl a c hr => ⟨hq a (h hl a c hr).1, (h hl a c hr).2⟩

theorem yields_ok {a : α} {c : Cursor} (ha : P a) (hc : c.args = args) :
    (Step.ok a c).Yields quiet P args := by
  intro _ b d h
  obtain ⟨rfl, rfl⟩ := Prod.mk.inj (Option.some.inj h)
  exact ⟨ha, hc⟩

theorem yields_stop : (Step.stop : Step α).Yields quiet P args :=
  fun _ _ _ h => by contradiction

theorem yields_fail (message : String) : (Step.fail message).Yields quiet P args :=
  fun _ _ _ h => by contradiction

theorem Step.Yields.after {s : Step α} (h : s.Yields quiet P args) (entries : List LogEntry) :
    (s.after entries).Yields quiet P args :=
  fun hl => h fun hq => (List.append_eq_nil_iff.1 (hl hq)).2

theorem Step.Yields.bind {R : β → Prop} {s : Step α} {f : α → Cursor → Step β}
    (h : s.Yields quiet P args) (hf : ∀ a c, P a → c.args = args → (f a c).Yields quiet R args) :
    (s.bind f).Yields quiet R args := by
  intro hl b d hb
  obtain ⟨a, c, h₁, h₂⟩ := Step.result_bind_eq_some.1 hb
  rw [Step.bind_of_result h₁] at hl
  obtain ⟨h₃, h₄⟩ := h (fun hq => (List.append_eq_nil_iff.1 (hl hq)).1) a c h₁
  exact hf a c h₃ h₄ (fun hq => (List.append_eq_nil_iff.1 (hl hq)).2) b d h₂

theorem Step.Yields.map {R : β → Prop} {s : Step α} {f : α → β} (h : s.Yields quiet P args)
    (hf : ∀ a, P a → R (f a)) : (s.map f).Yields quiet R args := by
  intro hl b d hb
  obtain ⟨⟨a, c⟩, h₁, h₂⟩ := Option.map_eq_some_iff.1 hb
  obtain ⟨rfl, rfl⟩ := Prod.mk.inj h₂
  obtain ⟨h₃, h₄⟩ := h hl a c h₁
  exact ⟨hf a h₃, h₄⟩

/-! ## Literals -/

/-- A value that becomes an atom and is no placeholder. -/
structure IsLiteral (v : Value) : Prop where
  atom : v.normalize.isAtom = true
  noPlaceholder : ∀ name, v ≠ .placeholder name

/-- A value that becomes an atom or an array of atoms, and is no placeholder. -/
structure IsPlainValue (v : Value) : Prop where
  plain : v.normalize.isPlain = true
  noPlaceholder : ∀ name, v ≠ .placeholder name

theorem IsLiteral.isPlainValue {v : Value} (h : IsLiteral v) : IsPlainValue v := by
  refine ⟨?_, h.noPlaceholder⟩
  have h₁ := h.atom
  cases hv : v.normalize <;> rw [hv] at h₁ <;> first | rfl | contradiction

theorem isPlainValue_array {vs : List Value} (h : ∀ v ∈ vs, IsLiteral v) :
    IsPlainValue (.array vs) := by
  refine ⟨?_, fun name h => by contradiction⟩
  rw [Value.normalize, Value.normalizeEach_eq_map, Constant.isPlain, List.all_map]
  exact List.all_eq_true.2 fun v hv => (h v hv).atom

theorem IsPlainValue.readable {v : Value} (h : IsPlainValue v) : ReadableOperand (.ofValue v) := by
  unfold Operand.ofValue
  split
  · next name => exact absurd rfl (h.noPlaceholder name)
  · exact h.plain

theorem isLiteral_number (x : Number) : IsLiteral (.number x) := by
  refine ⟨?_, fun name h => by contradiction⟩
  cases x <;> rfl

theorem isLiteral_of_mem_literalWords {w : String × Value} (h : w ∈ literalWords) :
    IsLiteral w.2 := by
  simp only [literalWords, List.mem_cons, List.not_mem_nil, or_false] at h
  rcases h with rfl | rfl | rfl | rfl | rfl | rfl | rfl <;>
    exact ⟨rfl, fun name h => by contradiction⟩

theorem isLiteral_takeLiteralWord? {cs r : List Char} {v : Value}
    (h : takeLiteralWord? cs = some (v, r)) : IsLiteral v := by
  obtain ⟨w, hw, h₁⟩ := List.exists_of_findSome?_eq_some h
  obtain ⟨u, -, h₂⟩ := Option.map_eq_some_iff.1 h₁
  obtain ⟨rfl, -⟩ := Prod.mk.inj h₂
  exact isLiteral_of_mem_literalWords hw

variable {c : Cursor}

theorem yields_quotedText (q : Char) (hc : c.args = args) :
    (quotedText q c).Yields quiet IsLiteral args := by
  unfold quotedText
  split
  · exact yields_ok ⟨rfl, fun name h => by contradiction⟩ hc
  · exact yields_fail _
  · exact yields_fail _

theorem yields_numeral (first : Char) (hc : c.args = args) :
    (numeral first c).Yields quiet IsLiteral args := by
  simp only [numeral]
  split
  · exact yields_ok (isLiteral_number _) hc
  · exact yields_fail _

theorem yields_literal (size : Nat) (hc : c.args = args) :
    (literal size c).Yields quiet IsLiteral args := by
  unfold literal
  split
  · exact yields_fail _
  · split
    · exact yields_quotedText _ hc
    · split
      · exact yields_numeral _ hc
      · split
        · next h => exact yields_ok (isLiteral_takeLiteralWord? h) hc
        · exact yields_fail _

theorem yields_castClass (hc : c.args = args) :
    (castClass c).Yields quiet (fun _ => True) args := by
  unfold castClass
  split
  · exact yields_fail _
  · split
    · exact yields_ok trivial hc
    · exact yields_fail _

theorem yields_constant (size : Nat) (hc : c.args = args) :
    (constant size c).Yields quiet IsLiteral args := by
  unfold constant
  split
  · exact yields_literal size hc
  · next r _ =>
    refine (yields_castClass (c := c.at r) hc).bind fun name d _ hd => ?_
    simp only
    split
    · exact yields_fail _
    · refine Step.Yields.bind (yields_literal size ?_) fun v e hv he => ?_
      · exact hd
      · exact (yields_ok hv he).after _

theorem yields_listItems (size n : Nat) (hc : c.args = args) :
    (listItems size n c).Yields quiet (fun vs => ∀ v ∈ vs, IsLiteral v) args := by
  induction n generalizing c with
  | zero => exact yields_stop
  | succ n ih =>
    simp only [listItems]
    split
    · exact yields_fail _
    · refine Step.Yields.bind (yields_literal size ?_) fun v d hv hd => ?_
      · exact hc
      · split
        · refine Step.Yields.map (ih ?_) fun vs hvs => ?_
          · exact hd
          · exact List.forall_mem_cons.2 ⟨hv, hvs⟩
        · exact yields_ok (List.forall_mem_cons.2 ⟨hv, by simp⟩) hd
        · exact yields_fail _

theorem yields_valueList (size : Nat) (hc : c.args = args) :
    (valueList size c).Yields quiet IsPlainValue args := by
  simp only [valueList]
  split
  · exact yields_ok (isPlainValue_array (by simp)) hc
  · refine Step.Yields.map (yields_listItems size _ ?_) fun vs hvs => ?_
    · exact hc
    · exact isPlainValue_array hvs

theorem yields_constantOrList (size : Nat) (op : Operation) (hc : c.args = args) :
    (constantOrList size op c).Yields quiet IsPlainValue args := by
  unfold constantOrList
  split
  · split
    · exact yields_valueList size hc
    · exact (yields_constant size hc).mono fun v hv => hv.isPlainValue
  · exact (yields_constant size hc).mono fun v hv => hv.isPlainValue

/-! ## Clauses -/

/-- A qualifier as the parser makes one, from any text or from one that it reads quietly. Keys are
read from texts, and constants are plain. No negation stands directly before a negation or a truth
value, and compounds have at least two parts. In quiet raw SQL no raw texts stand side by side. -/
inductive IsRead (quiet : Bool) : Qualifier → Prop
  | always (b : Bool) : IsRead quiet (.always b)
  | keyValue {key : String} {op : Operation} {v : Operand} (h₁ : LeftName key)
      (h₂ : ReadableOperation op) (h₃ : ReadableOperand v) :
      IsRead quiet (.keyValue (.ofText key) op v)
  | keyComparison {left right : String} {op : Operation} (h₁ : LeftName left)
      (h₂ : ReadableOperation op) (h₃ : RightName right) :
      IsRead quiet (.keyComparison (.ofText left) op (.ofText right))
  | not {q : Qualifier} (h₁ : q.takesNot = true) (h₂ : IsRead quiet q) : IsRead quiet (.not q)
  | compound {c : Connective} {parts : List Qualifier} (h₁ : 2 ≤ parts.length)
      (h₂ : ∀ q ∈ parts, IsRead quiet q) : IsRead quiet (.compound c parts)
  | sql {parts : List SqlPart} (h₁ : LegibleSql parts)
      (h₂ : quiet = true → SqlPart.merge parts = parts) : IsRead quiet (.sql parts)

theorem IsRead.legible {q : Qualifier} (h : IsRead quiet q) : Legible q := by
  induction h with
  | always b => exact .always b
  | keyValue h₁ h₂ h₃ => exact .keyValue_ofText h₁ h₂ h₃.legible
  | keyComparison h₁ h₂ h₃ => exact .keyComparison_ofText h₁ h₂ h₃
  | not h₁ _ ih => exact .not h₁ ih
  | compound h₁ _ ih => exact .compound h₁ ih
  | sql h₁ _ => exact .sql h₁

/-- Without arguments a word can only stand for itself. -/
theorem yields_resolve {word : String} (hc : c.args = []) :
    (resolve word c).Yields quiet (fun w => w = word ∧ isPattern word = false) [] := by
  unfold resolve
  split
  · rw [hc]
    exact yields_fail _
  · next h => exact yields_ok ⟨rfl, by simpa using h⟩ hc

theorem yields_argumentValue (key : String) (op : Operation) (hc : c.args = []) :
    (argumentValue key op c).Yields quiet (IsRead quiet) [] := by
  unfold argumentValue
  split
  · exact yields_fail _
  · rw [hc]
    exact yields_fail _

/-- Where no constant starts, there is no quote and no word literal either. -/
theorem of_startsConstant_eq_false {d : Char} {r : List Char}
    (h : startsConstant (d :: r) = false) :
    d ≠ Text.quote ∧ d ≠ Text.doubleQuote ∧ takeLiteralWord? (d :: r) = none := by
  simp only [startsConstant, Bool.or_eq_false_iff, startsWith, Option.isSome_eq_false_iff,
    Option.isNone_iff_eq_none] at h
  obtain ⟨⟨⟨⟨-, h₁⟩, h₂⟩, -⟩, h₃⟩ := h
  refine ⟨?_, ?_, h₃⟩
  · rintro rfl
    simp [strip?, Text.quote] at h₁
  · rintro rfl
    simp [strip?, Text.doubleQuote] at h₂

/-- What is read as a name where no constant starts is a key on the right of an operation. -/
theorem rightName_of_takeName? {cs r : List Char} {name : String}
    (h₁ : ∀ t, cs ≠ '$' :: t) (h₂ : ∀ t, cs ≠ '%' :: t) (h₃ : startsConstant cs = false)
    (h₄ : takeName? cs = some (name, r)) : RightName name := by
  obtain ⟨h₅, h₆, rfl⟩ := eq_of_takeName? h₄
  obtain ⟨d, t, h₇, -, -⟩ := h₅.exists_cons
  have h₈ := h₃
  rw [h₇] at h₁ h₂ h₈
  obtain ⟨h₉, h₁₀, -⟩ := of_startsConstant_eq_false h₈
  refine ⟨h₅, ?_, ?_⟩
  · intro c hc
    rw [h₇] at hc
    obtain rfl : d = c := by simpa using hc
    exact ⟨fun h => h₁ (t ++ r) (by rw [h]; rfl), fun h => h₂ (t ++ r) (by rw [h]; rfl), h₉, h₁₀⟩
  · rw [← takeLiteralWord?_eq_none_iff h₆, h₇]
    exact (of_startsConstant_eq_false h₈).2.2

theorem yields_operand (size : Nat) {key : String} (hk : LeftName key) {token : String}
    (ho : ReadableOperation (.ofToken token)) (hc : c.args = []) :
    (operand size key token c).Yields quiet (IsRead quiet) [] := by
  simp only [operand]
  split
  · exact yields_fail _
  · split
    · next h =>
      obtain ⟨h₁, -, -⟩ := eq_of_takeName? h
      exact yields_ok (.keyValue hk ho h₁) hc
    · exact yields_fail _
  · exact yields_argumentValue _ _ hc
  · next h₁ h₂ h₃ =>
    split
    · refine Step.Yields.map (yields_constantOrList size _ ?_) fun v hv => ?_
      · exact hc
      · exact .keyValue hk ho hv.readable
    · next h₄ =>
      split
      · next h₅ =>
        have h₆ := rightName_of_takeName? h₂ h₃ (by simpa using h₄) h₅
        exact yields_ok (.keyComparison hk ho h₆) hc
      · exact yields_fail _

theorem yields_afterOperation (size : Nat) {key : String} (hk : LeftName key) {token : String}
    (ho : ReadableOperation (.ofToken token)) (hc : c.args = []) :
    (afterOperation size key token c).Yields quiet (IsRead quiet) [] := by
  unfold afterOperation
  split
  · next r _ _ => exact yields_ok (.keyValue hk (readable_known r) rfl) hc
  · exact yields_operand size hk ho hc

theorem isRead_isTrue {key : String} (hk : LeftName key) : IsRead quiet (.isTrue key) :=
  .keyValue hk (readable_known _) rfl

theorem yields_afterKey (size : Nat) {key : String} (hk : LeftName key) (hc : c.args = []) :
    (afterKey size key c).Yields quiet (IsRead quiet) [] := by
  simp only [afterKey]
  split
  · exact yields_ok (isRead_isTrue hk) hc
  · next h₁ =>
    split
    · exact yields_ok (isRead_isTrue hk) hc
    · next h₂ =>
      refine Step.Yields.bind (yields_resolve ?_) fun word d hw hd => ?_
      · exact hc
      · obtain ⟨rfl, h₃⟩ := hw
        exact yields_afterOperation size hk
          (readable_of_takeOperation? h₂ (by simpa using h₁) h₃) hd

theorem yields_clause (size : Nat) (h₁ : stripKeyword? "NOT" c.rest = none)
    (h₂ : strip? "SQL[".toList c.rest = none) (hc : c.args = []) :
    (clause size c).Yields quiet (IsRead quiet) [] := by
  unfold clause
  split
  · exact yields_fail _
  · next h =>
    obtain ⟨h₃, h₄, h₅⟩ := eq_of_takeName? h
    rw [h₅, stripKeyword?_append (by decide) _ h₄, Option.map_eq_none_iff] at h₁
    rw [h₅, strip?_append_of_endsName (by decide) _ h₄, Option.map_eq_none_iff] at h₂
    refine Step.Yields.bind (yields_resolve ?_) fun word d hw hd => ?_
    · exact hc
    · obtain ⟨rfl, h₆⟩ := hw
      exact yields_afterKey size ⟨⟨h₃, h₁, h₂⟩, h₆⟩ hd

/-! ## Rows -/

theorem IsRead.negate {q : Qualifier} (h : IsRead quiet q) : IsRead quiet q.negate := by
  cases h with
  | always b => exact .always _
  | not _ h => exact h
  | keyValue h₁ h₂ h₃ => exact .not rfl (.keyValue h₁ h₂ h₃)
  | keyComparison h₁ h₂ h₃ => exact .not rfl (.keyComparison h₁ h₂ h₃)
  | compound h₁ h₂ => exact .not rfl (.compound h₁ h₂)
  | sql h₁ h₂ => exact .not rfl (.sql h₁ h₂)

theorem isRead_buildCompound {word : String} {qs : List Qualifier} (h : ∀ q ∈ qs, IsRead quiet q)
    {q : Qualifier} (hq : (buildCompound word qs).value = some q) : IsRead quiet q := by
  match qs with
  | [] => contradiction
  | [p] =>
    obtain rfl := Option.some.inj hq
    exact h _ (by simp)
  | p :: p' :: ps =>
    have h₁ : ∀ c : Connective, IsRead quiet (.compound c (p :: p' :: ps)) := fun c =>
      .compound (by simp) h
    simp only [buildCompound] at hq
    split at hq
    · obtain rfl := Option.some.inj hq
      exact h₁ _
    · split at hq
      · obtain rfl := Option.some.inj hq
        exact h₁ _
      · contradiction

theorem yields_endCompound (last : Option String) {qs : List Qualifier}
    (h : ∀ q ∈ qs, IsRead quiet q) (hc : c.args = []) :
    (endCompound last qs c).Yields quiet (IsRead quiet) [] := by
  intro _ q d hq
  obtain ⟨p, h₁, h₂⟩ := Option.map_eq_some_iff.1 hq
  obtain ⟨rfl, rfl⟩ := Prod.mk.inj h₂
  exact ⟨isRead_buildCompound h h₁, hc⟩

theorem isRead_foldRow (last : Option String) (word : String) {qs : List Qualifier}
    (h : ∀ q ∈ qs, IsRead quiet q) : ∀ q ∈ (foldRow last word qs).value, IsRead quiet q := by
  unfold foldRow
  split
  · split
    · exact h
    · intro q hq
      simp only [Logged.value_map, Option.mem_toList] at hq
      exact isRead_buildCompound h hq
  · exact h

theorem yields_closeParenthesis {q : Qualifier} (h : IsRead quiet q) (hc : c.args = []) :
    (closeParenthesis q c).Yields quiet (IsRead quiet) [] := by
  simp only [closeParenthesis]
  split
  · exact yields_ok h hc
  · refine Step.Yields.after (yields_ok h ?_) _
    exact hc

theorem yields_rawSql (hc : c.args = []) : (rawSql c).Yields quiet (IsRead quiet) [] := by
  intro hl q d h
  obtain ⟨rfl, rfl⟩ := Prod.mk.inj (Option.some.inj h)
  refine ⟨.sql (legibleSql_sqlBody c.rest) fun hq => merge_sqlBody ?_, hc⟩
  exact (List.append_eq_nil_iff.1 (hl hq)).1

/-- One step of a single qualifier, from the steps that it goes on with. -/
theorem yields_oneQualifier_succ {size n : Nat}
    (h₁ : ∀ c : Cursor, c.args = [] → (oneQualifier size n c).Yields quiet (IsRead quiet) [])
    (h₂ : ∀ c : Cursor, c.args = [] → (row size n none [] c).Yields quiet (IsRead quiet) [])
    (hc : c.args = []) : (oneQualifier size (n + 1) c).Yields quiet (IsRead quiet) [] := by
  simp only [oneQualifier]
  split
  · exact yields_stop
  · split
    -- a parenthesis
    · split
      · exact yields_fail _
      · exact Step.Yields.bind (h₂ _ hc) fun q d hq hd => yields_closeParenthesis hq hd
    · split
      -- a negation
      · split
        · exact yields_fail _
        · exact Step.Yields.map (h₁ _ hc) fun q hq => hq.negate
      · next h₃ =>
        split
        -- raw SQL
        · exact yields_rawSql hc
        · next h₄ =>
          split
          · exact yields_ok (.always true) hc
          · split
            · exact yields_ok (.always false) hc
            · exact yields_clause size h₃ h₄ hc

theorem yields_row_succ {size n : Nat}
    (h₁ : ∀ c : Cursor, c.args = [] → (oneQualifier size n c).Yields quiet (IsRead quiet) [])
    (h₂ : ∀ (last : Option String) (qs : List Qualifier) (c : Cursor), (∀ q ∈ qs, IsRead quiet q) →
      c.args = [] → (row size n last qs c).Yields quiet (IsRead quiet) [])
    (last : Option String) {qs : List Qualifier} (hq : ∀ q ∈ qs, IsRead quiet q)
    (hc : c.args = []) :
    (row size (n + 1) last qs c).Yields quiet (IsRead quiet) [] := by
  simp only [row]
  refine (h₁ c hc).bind fun q d h₃ hd => ?_
  have h₄ : ∀ p ∈ qs ++ [q], IsRead quiet p := by
    intro p hp
    rcases List.mem_append.1 hp with hp | hp
    · exact hq p hp
    · obtain rfl := List.mem_singleton.1 hp
      exact h₃
  split
  · exact yields_endCompound last h₄ hd
  · split
    · refine Step.Yields.after (yields_endCompound last h₄ ?_) _
      exact hd
    · refine Step.Yields.bind (yields_resolve ?_) fun word e _ he => ?_
      · exact hd
      · split
        · refine Step.Yields.after (yields_endCompound last h₄ ?_) _
          exact he
        · refine Step.Yields.after (h₂ _ _ _ (isRead_foldRow last word h₄) ?_) _
          exact he

/-- Whatever is read without arguments is what `IsRead` says. -/
theorem yields_oneQualifier_row (size n : Nat) :
    (∀ c : Cursor, c.args = [] → (oneQualifier size n c).Yields quiet (IsRead quiet) []) ∧
      ∀ (last : Option String) (qs : List Qualifier) (c : Cursor), (∀ q ∈ qs, IsRead quiet q) →
        c.args = [] → (row size n last qs c).Yields quiet (IsRead quiet) [] := by
  -- The two functions call each other with one step less, wherever the cursor then stands.
  induction n with
  | zero => exact ⟨fun c _ => yields_stop, fun last qs c _ _ => yields_stop⟩
  | succ n ih =>
    obtain ⟨h₁, h₂⟩ := ih
    exact ⟨fun c hc => yields_oneQualifier_succ h₁ (fun c hc => h₂ none [] c (by simp) hc) hc,
      fun last qs c hq hc => yields_row_succ h₁ h₂ last hq hc⟩

theorem isRead_of_parse {format : String} {q : Qualifier}
    (h : (Qualifier.parse format []).value = some q)
    (hl : quiet = true → (Qualifier.parse format []).log = []) : IsRead quiet q := by
  obtain ⟨⟨p, c⟩, h₁, rfl⟩ := Option.map_eq_some_iff.1 h
  simp only [Qualifier.parse, Format.read] at h₁ hl
  split at h₁
  · contradiction
  · next h₂ =>
    rw [if_neg h₂] at hl
    exact ((yields_oneQualifier_row _ _).2 none [] _ (by simp) rfl hl p c h₁).1

/-- Every qualifier that a text without arguments is parsed as is legible, whatever was logged. -/
theorem legible_of_parse {format : String} {q : Qualifier}
    (h : (Qualifier.parse format []).value = some q) : Legible q := by
  have h₁ : IsRead false q := isRead_of_parse h nofun
  exact h₁.legible

end RecordQuery.Format

namespace RecordQuery

/-- A qualifier that was parsed from any text is read back from its written form without an entry in
the log, and the written form of what is read back is the same. -/
theorem exists_parse_text_of_parse {format : String} {q : Qualifier}
    (h : (Qualifier.parse format []).value = some q) :
    ∃ p, Qualifier.parse q.text [] = ⟨some p, []⟩ ∧ p.text = q.text :=
  ⟨q.reread, (Format.legible_of_parse h).parse_text, q.text_reread⟩

/-- A parenthesis that is part of an operation's word, and one that is never closed. -/
theorem parse_text_unclosed :
    let q : Qualifier := .not (.keyComparison (.name "a") (.other "(b") (.name "c"))
    (Qualifier.parse "NOT (a (b c" []).value = some q ∧
      ∃ p, Qualifier.parse q.text [] = ⟨some p, []⟩ ∧ p.text = q.text := by
  intro q
  have h : (Qualifier.parse "NOT (a (b c" []).value = some q := by rfl
  exact ⟨h, exists_parse_text_of_parse h⟩

end RecordQuery
