import RecordQuery.Proofs.Format.Stops
import RecordQuery.Proofs.Format.Trace

/-!
# The cursor of a parse

Wherever a parse comes to, the cursor is in the text and arguments that it began with, the arguments
are taken from the left and never given back, and its steps do not run out (`Traced.Orderly`, with a
rule for each way of putting parsers together). A qualifier or literal that is read takes a
character, and so does a turn of either loop (`Step.Advances`), which is why the steps suffice.

* `orderly_oneQualifier_row`: the two functions that call each other, by induction on the steps;
* `row_eq_of_le`: with more steps the parse is the same;
* `cursor_discipline`: all of this for a whole parse.
-/

namespace RecordQuery.Format

variable {α β : Type} {c d : Cursor}

/-! ## Taking characters -/

/-- What is left at the second cursor is the end of what is left at the first one, and shorter. -/
structure Cursor.Passes (c d : Cursor) : Prop extends c.Reaches d where
  shorter : d.rest.length < c.rest.length

theorem Cursor.Passes.trans_reaches {e : Cursor} (h₁ : c.Passes d) (h₂ : d.Reaches e) :
    c.Passes e :=
  ⟨h₁.toReaches.trans h₂, Nat.lt_of_le_of_lt h₂.rest.length_le h₁.shorter⟩

theorem Cursor.Reaches.trans_passes {e : Cursor} (h₁ : c.Reaches d) (h₂ : d.Passes e) :
    c.Passes e :=
  ⟨h₁.trans h₂.toReaches, Nat.lt_of_lt_of_le h₂.shorter h₁.rest.length_le⟩

/-- If a step succeeds, it takes a character. -/
def Step.Advances (c : Cursor) (s : Step α) : Prop :=
  ∀ a d, s.result = some (a, d) → c.Passes d

theorem advances_stop : (Step.stop : Step α).Advances c :=
  fun _ _ h => by contradiction

theorem advances_fail (message : String) : (Step.fail message : Step α).Advances c :=
  fun _ _ h => by contradiction

theorem Step.Proceeds.advances {s : Step α} (h : s.Proceeds d) (hc : c.Passes d) : s.Advances c :=
  fun a e he => hc.trans_reaches (h a e he)

theorem Step.Advances.of_reaches {s : Step α} (h : s.Advances d) (hc : c.Reaches d) :
    s.Advances c :=
  fun a e he => hc.trans_passes (h a e he)

theorem Step.Advances.bind {s : Step α} {f : α → Cursor → Step β} (h : s.Advances c)
    (hf : ∀ a d, s.result = some (a, d) → (f a d).Proceeds d) : (s.bind f).Advances c := by
  intro b e he
  obtain ⟨a, d, h₁, h₂⟩ := Step.result_bind_eq_some.1 he
  exact (h a d h₁).trans_reaches (hf a d h₁ b e h₂)

theorem Cursor.passes_at {r : List Char} {w : List Char} (h : c.rest = w ++ r) (hw : w ≠ []) :
    c.Passes (c.at r) := by
  refine ⟨Cursor.reaches_at ⟨w, h.symm⟩, ?_⟩
  have h₁ := List.length_pos_iff.2 hw
  rw [h, List.length_append]
  exact Nat.lt_add_of_pos_left h₁

theorem passes_of_eq_cons {e : Char} {r : List Char} (h : c.rest = e :: r) : c.Passes (c.at r) :=
  Cursor.passes_at (w := [e]) h (List.cons_ne_nil _ _)

theorem passes_of_strip? {token r : List Char} (h : strip? token c.rest = some r)
    (ht : token ≠ []) : c.Passes (c.at r) :=
  Cursor.passes_at (strip?_eq_some.1 h) ht

theorem passes_of_stripKeyword? {keyword : String} {r : List Char}
    (h : stripKeyword? keyword c.rest = some r) (hk : keyword.toList ≠ []) : c.Passes (c.at r) :=
  passes_of_strip? (Option.filter_eq_some_iff.1 h).1 hk

theorem passes_of_takeName? {name : String} {r : List Char}
    (h : takeName? c.rest = some (name, r)) : c.Passes (c.at r) :=
  Cursor.passes_at (takeName?_eq_some h).1 (takeName?_eq_some h).2

theorem passes_of_takeLiteralWord? {v : Value} {r : List Char}
    (h : takeLiteralWord? c.rest = some (v, r)) : c.Passes (c.at r) := by
  obtain ⟨w, hw, h₁⟩ := List.exists_of_findSome?_eq_some h
  obtain ⟨s, h₂, h₃⟩ := Option.map_eq_some_iff.1 h₁
  obtain ⟨-, rfl⟩ := Prod.mk.inj h₃
  have h₄ : ∀ w ∈ literalWords, w.1.toList ≠ [] := by decide
  exact passes_of_stripKeyword? h₂ (h₄ w hw)

/-- A literal that is read takes a character. -/
theorem advances_literal (size : Nat) (c : Cursor) : (literal size c).Advances c := by
  unfold literal
  split
  · exact advances_fail _
  · next d r h =>
    have h₁ : c.Passes (c.at r) := passes_of_eq_cons h
    split
    · exact (proceeds_quotedText _ _).advances h₁
    · split
      · exact (proceeds_numeral _ _).advances h₁
      · split
        · next h₂ =>
          rw [← h] at h₂
          exact (proceeds_ok (.refl _)).advances (passes_of_takeLiteralWord? h₂)
        · exact advances_fail _

theorem advances_clause (size : Nat) (c : Cursor) : (clause size c).Advances c := by
  unfold clause
  split
  · exact advances_fail _
  · next h =>
    refine Step.Proceeds.advances ?_ (passes_of_takeName? h)
    exact (proceeds_resolve _ _).bind fun key d _ => proceeds_afterKey size key d

/-- A qualifier that is read takes a character: whatever follows its first token only goes on. -/
theorem advances_oneQualifier (size n : Nat) (c : Cursor) : (oneQualifier size n c).Advances c := by
  cases n with
  | zero => exact advances_stop
  | succ n =>
    obtain ⟨h₁, h₂⟩ := proceeds_oneQualifier_row size n
    simp only [oneQualifier]
    refine Step.Advances.of_reaches ?_ (reaches_skipSpaces c)
    split
    · exact advances_stop
    · split
      -- a parenthesis
      · next h =>
        split
        · exact advances_fail _
        · refine Step.Proceeds.advances ?_ (passes_of_strip? h (List.cons_ne_nil _ _))
          refine Step.Proceeds.of_reaches ?_ (reaches_skipSpaces _)
          exact (h₂ _ _ _).bind fun q d _ => proceeds_closeParenthesis q d
      · split
        -- a negation
        · next h =>
          split
          · exact advances_fail _
          · refine Step.Proceeds.advances ?_ (passes_of_stripKeyword? h (by decide))
            exact ((h₁ _).of_reaches (reaches_skipSpaces _)).map _
        · split
          -- raw SQL
          · next h => exact (proceeds_rawSql _).advances (passes_of_strip? h (by decide))
          · split
            · next h => exact (proceeds_ok (.refl _)).advances (passes_of_strip? h (by decide))
            · split
              · next h => exact (proceeds_ok (.refl _)).advances (passes_of_strip? h (by decide))
              · exact advances_clause size _

/-! ## Paths -/

/-- What a traced parser comes to is ahead of a cursor, no argument is given back on the way, the
last cursor is the one that the parse goes on with, and the steps do not run out. -/
structure Traced.Orderly (c : Cursor) (t : Traced α) : Prop where
  ahead : ∀ d ∈ t.path, c.Reaches d
  ordered : t.path.Pairwise fun d e => e.args <:+ d.args
  ends : ∀ a d, t.step.result = some (a, d) → t.path.getLast? = some d
  lasts : t.ranOut = false

namespace Traced

theorem orderly_leaf {s : Step α} {stuck : Cursor} (h : s.Proceeds c) (hs : c.Reaches stuck) :
    (leaf s stuck).Orderly c := by
  refine ⟨?_, List.pairwise_singleton _ _, ?_, rfl⟩
  · intro d hd
    obtain rfl := List.mem_singleton.1 hd
    cases hr : s.result with
    | none => exact hs
    | some p => exact h p.1 p.2 hr
  · intro a d hr
    have h₁ : s.result = some (a, d) := hr
    simp [leaf, h₁]

theorem orderly_ok {a : α} (h : c.Reaches d) : (ok a d).Orderly c :=
  orderly_leaf (proceeds_ok h) h

theorem orderly_fail (message : String) (h : c.Reaches d) :
    (fail message d : Traced α).Orderly c :=
  orderly_leaf (proceeds_fail message) h

theorem Orderly.of_reaches {t : Traced α} (h : t.Orderly d) (hc : c.Reaches d) : t.Orderly c :=
  ⟨fun e he => hc.trans (h.ahead e he), h.ordered, h.ends, h.lasts⟩

theorem Orderly.after {t : Traced α} (h : t.Orderly c) (entries : List LogEntry) :
    (t.after entries).Orderly c :=
  ⟨h.ahead, h.ordered, h.ends, h.lasts⟩

theorem Orderly.map {t : Traced α} (h : t.Orderly c) (f : α → β) : (t.map f).Orderly c := by
  refine ⟨h.ahead, h.ordered, ?_, h.lasts⟩
  intro b d hr
  obtain ⟨⟨a, e⟩, h₁, h₂⟩ := Option.map_eq_some_iff.1 hr
  obtain ⟨-, rfl⟩ := Prod.mk.inj h₂
  exact h.ends a e h₁

/-- The cursor that the parse goes on with has the fewest arguments left of all on the path. -/
theorem Orderly.end_args {t : Traced α} (h : t.Orderly c) {a : α}
    (hr : t.step.result = some (a, d)) : c.Reaches d ∧ ∀ e ∈ t.path, d.args <:+ e.args := by
  obtain ⟨path, hp⟩ := List.getLast?_eq_some_iff.1 (h.ends a d hr)
  have h₁ := h.ahead d (by simp [hp])
  have h₂ := h.ordered
  rw [hp, List.pairwise_append] at h₂
  refine ⟨h₁, fun e he => ?_⟩
  rw [hp, List.mem_append, List.mem_singleton] at he
  rcases he with he | rfl
  · exact h₂.2.2 e he d (by simp)
  · exact List.suffix_rfl

theorem Orderly.proceeds {t : Traced α} (h : t.Orderly c) : t.step.Proceeds c :=
  fun _ _ hr => (h.end_args hr).1

theorem Orderly.bind {t : Traced α} {f : α → Cursor → Traced β} (h : t.Orderly c)
    (hf : ∀ a d, t.step.result = some (a, d) → (f a d).Orderly d) : (t.bind f).Orderly c := by
  unfold Traced.bind
  split
  · exact ⟨h.ahead, h.ordered, fun _ _ hr => by contradiction, h.lasts⟩
  · next a d hr =>
    obtain ⟨h₁, h₂⟩ := h.end_args hr
    have h₃ := hf a d hr
    refine ⟨?_, ?_, ?_, ?_⟩
    · intro e he
      rcases List.mem_append.1 he with he | he
      · exact h.ahead e he
      · exact h₁.trans (h₃.ahead e he)
    · refine List.pairwise_append.2 ⟨h.ordered, h₃.ordered, fun e he g hg => ?_⟩
      exact (h₃.ahead g hg).args.trans (h₂ e he)
    · intro b e hb
      rw [List.getLast?_append, h₃.ends b e hb]
      rfl
    · simp [h.lasts, h₃.lasts]

/-- Cursors that are passed through without taking an argument. -/
theorem Orderly.through {t : Traced α} (h : t.Orderly c) {cs : List Cursor}
    (hc : ∀ d ∈ cs, c.Reaches d ∧ d.args = c.args) : (through cs t).Orderly c := by
  refine ⟨?_, ?_, ?_, h.lasts⟩
  · intro d hd
    rcases List.mem_append.1 hd with hd | hd
    · exact (hc d hd).1
    · exact h.ahead d hd
  · refine List.pairwise_append.2 ⟨?_, h.ordered, fun d hd e he => ?_⟩
    · refine List.pairwise_of_forall_mem_list fun d hd e he => ?_
      rw [(hc d hd).2, (hc e he).2]
    · rw [(hc d hd).2]
      exact (h.ahead e he).args
  · intro a d hr
    rw [Traced.through, List.getLast?_append, h.ends a d hr]
    rfl

theorem mem_upTo {r : List Char} (h : d ∈ c.upTo r) : c.Reaches d ∧ d.args = c.args := by
  obtain ⟨s, hs, rfl⟩ := List.mem_map.1 h
  exact ⟨Cursor.reaches_at ((List.mem_tails _ _).1 (List.mem_filter.1 hs).1), rfl⟩

theorem orderly_skip {f : Cursor → Traced α}
    (h : (f (c.at (skipSpaces c.rest))).Orderly (c.at (skipSpaces c.rest))) :
    (skip c f).Orderly c :=
  (h.of_reaches (reaches_skipSpaces c)).through fun _ hd => mem_upTo hd

theorem orderly_throughAt {t : Traced α} {r : List Char} (h : t.Orderly (c.at r))
    (hr : r <:+ c.rest) : (through [c.at r] t).Orderly c := by
  refine (h.of_reaches (Cursor.reaches_at hr)).through fun d hd => ?_
  obtain rfl := List.mem_singleton.1 hd
  exact ⟨Cursor.reaches_at hr, rfl⟩

/-! ### Literals -/

theorem orderly_quotedText (q : Char) (c : Cursor) : (quotedText q c).Orderly c :=
  orderly_leaf (proceeds_quotedText q c) (Cursor.reaches_at List.nil_suffix)

theorem orderly_numeral (first : Char) (c : Cursor) : (numeral first c).Orderly c :=
  orderly_leaf (proceeds_numeral first c) (Cursor.reaches_at (numeralTail_suffix _ _))

theorem orderly_literal (size : Nat) (c : Cursor) : (literal size c).Orderly c := by
  unfold literal
  split
  · exact orderly_fail _ (.refl c)
  · next d r h =>
    have h₁ : c.Reaches (c.at r) := Cursor.reaches_at (suffix_of_eq_cons h)
    split
    · exact (orderly_quotedText _ _).of_reaches h₁
    · split
      · exact (orderly_numeral _ _).of_reaches h₁
      · split
        · next h₂ =>
          rw [← h] at h₂
          exact orderly_ok (Cursor.reaches_at (takeLiteralWord?_suffix h₂))
        · exact orderly_fail _ (.refl c)

theorem orderly_castClass (c : Cursor) : (castClass c).Orderly c := by
  refine orderly_skip ?_
  split
  · exact orderly_fail _ (.refl _)
  · next h =>
    refine (orderly_skip ?_).of_reaches (Cursor.reaches_at (takeName?_suffix h))
    split
    · next h₁ => exact orderly_ok (Cursor.reaches_at (strip?_suffix h₁))
    · exact orderly_fail _ (.refl _)

theorem orderly_constant (size : Nat) (c : Cursor) : (constant size c).Orderly c := by
  unfold constant
  split
  · exact orderly_literal size c
  · next h =>
    refine Orderly.bind ?_ fun name d _ => orderly_skip ?_
    · exact (orderly_castClass _).of_reaches (Cursor.reaches_at (strip?_suffix h))
    · split
      · exact orderly_fail _ (.refl _)
      · exact (orderly_literal size _).bind fun v e _ => (orderly_ok (.refl e)).after _

theorem orderly_afterLiteral (size : Nat) (v : Value) (c : Cursor) :
    (afterLiteral size v c).Orderly c := by
  refine orderly_skip ?_
  split
  · next h => exact orderly_ok (Cursor.reaches_at (suffix_of_eq_cons h))
  · next h => exact orderly_ok (Cursor.reaches_at (suffix_of_eq_cons h))
  · exact orderly_fail _ (.refl _)

theorem orderly_listTurn (size : Nat) (c : Cursor) : (listTurn size c).Orderly c := by
  refine orderly_skip ?_
  split
  · exact orderly_fail _ (.refl _)
  · exact (orderly_literal size _).bind fun v d _ => orderly_afterLiteral size v d

/-- A turn of the loop over a list takes a character, unless it fails. -/
theorem advances_listTurn (size : Nat) (c : Cursor) : (listTurn size c).step.Advances c := by
  rw [listTurn, step_skip, step_ite]
  refine Step.Advances.of_reaches ?_ (reaches_skipSpaces c)
  split
  · exact advances_fail _
  · rw [step_bind, step_literal]
    exact (advances_literal size _).bind fun v d _ => (orderly_afterLiteral size v d).proceeds

theorem orderly_listItems (size : Nat) {n : Nat} (hn : c.rest.length < n) :
    (listItems size n c).Orderly c := by
  induction n generalizing c with
  | zero => omega
  | succ n ih =>
    refine (orderly_listTurn size c).bind fun t d hd => ?_
    cases t with
    | ended v => exact orderly_ok (.refl d)
    | again v =>
      have h := (advances_listTurn size c _ d hd).shorter
      exact (ih (by omega)).map _

theorem orderly_valueList (size : Nat) (c : Cursor) : (valueList size c).Orderly c := by
  refine orderly_skip ?_
  split
  · next h => exact orderly_ok (Cursor.reaches_at (strip?_suffix h))
  · exact (orderly_listItems size (Nat.lt_succ_self _)).map _

theorem orderly_constantOrList (size : Nat) (op : Operation) (c : Cursor) :
    (constantOrList size op c).Orderly c := by
  unfold constantOrList
  split
  · next r h =>
    have h₁ : c.Reaches (c.at r) := Cursor.reaches_at (strip?_suffix h)
    refine Orderly.through ?_ fun d hd => ?_
    · split
      · exact orderly_throughAt (orderly_valueList size _) (strip?_suffix h)
      · exact orderly_constant size c
    -- the look ahead, and back
    · split at hd
      · contradiction
      · rcases List.mem_append.1 hd with hd | hd
        · obtain ⟨h₂, h₃⟩ := mem_upTo hd
          exact ⟨h₁.trans h₂, h₃⟩
        · obtain rfl := List.mem_singleton.1 hd
          exact ⟨.refl _, rfl⟩
  · exact orderly_constant size c

/-! ### Arguments -/

theorem orderly_resolve (word : String) (c : Cursor) : (resolve word c).Orderly c :=
  orderly_leaf (proceeds_resolve word c) ⟨List.suffix_rfl, List.tail_suffix _⟩

theorem orderly_argumentValue (key : String) (op : Operation) (c : Cursor) :
    (argumentValue key op c).Orderly c := by
  unfold argumentValue
  split
  · exact orderly_fail _ (.refl c)
  · next h =>
    split
    · exact orderly_leaf (proceeds_fail _) (Cursor.reaches_at (suffix_of_eq_cons h))
    · next h₁ =>
      have h₂ := Cursor.reaches_args (suffix_of_eq_cons h) h₁
      exact orderly_leaf ((proceeds_argumentComparison _ _ _ _ _).of_reaches h₂) h₂

/-! ### Clauses -/

theorem mem_nullTestPath (h : d ∈ nullTestPath c) : c.Reaches d ∧ d.args = c.args := by
  unfold nullTestPath at h
  rcases List.mem_append.1 h with h | h
  · exact mem_upTo h
  · split at h
    · next hr =>
      obtain ⟨h₁, h₂⟩ := mem_upTo h
      have h₃ := (stripKeyword?_suffix hr).trans (skipSpaces_suffix c.rest)
      exact ⟨(Cursor.reaches_at h₃).trans h₁, h₂⟩
    · contradiction

theorem orderly_operand (size : Nat) (key token : String) (c : Cursor) :
    (operand size key token c).Orderly c := by
  unfold operand
  refine orderly_skip ?_
  split
  · exact orderly_leaf (proceeds_fail _) (.refl _)
  · next h =>
    split
    · next h₁ =>
      exact orderly_ok (Cursor.reaches_at ((takeName?_suffix h₁).trans (suffix_of_eq_cons h)))
    · exact orderly_fail _ (Cursor.reaches_at (suffix_of_eq_cons h))
  · next h => exact orderly_throughAt (orderly_argumentValue _ _ _) (suffix_of_eq_cons h)
  · split
    · exact (orderly_constantOrList _ _ _).map _
    · split
      · next h => exact orderly_ok (Cursor.reaches_at (takeName?_suffix h))
      · exact orderly_leaf (proceeds_fail _) (.refl _)

theorem orderly_afterOperation (size : Nat) (key token : String) (c : Cursor) :
    (afterOperation size key token c).Orderly c := by
  refine Orderly.through ?_ fun d hd => ?_
  · split
    · next h =>
      split at h
      · exact orderly_ok (Cursor.reaches_at (nullTest?_suffix h))
      · contradiction
    · exact orderly_operand size key token c
  · split at hd
    · exact mem_nullTestPath hd
    · contradiction

theorem orderly_afterKey (size : Nat) (key : String) (c : Cursor) :
    (afterKey size key c).Orderly c := by
  refine orderly_skip ?_
  split
  · exact orderly_ok (.refl _)
  · split
    · exact orderly_ok (.refl _)
    · next h =>
      refine orderly_throughAt ?_ (takeOperation?_suffix h)
      exact (orderly_resolve _ _).bind fun token d _ => orderly_afterOperation size key token d

theorem orderly_clause (size : Nat) (c : Cursor) : (clause size c).Orderly c := by
  unfold clause
  split
  · exact orderly_fail _ (.refl c)
  · next h =>
    refine orderly_throughAt ?_ (takeName?_suffix h)
    exact (orderly_resolve _ _).bind fun key d _ => orderly_afterKey size key d

/-! ### Rows -/

theorem orderly_rawSql (c : Cursor) : (rawSql c).Orderly c :=
  (orderly_leaf (proceeds_rawSql c) (.refl c)).through fun _ hd => mem_upTo hd

theorem orderly_endCompound (last : Option String) (qs : List Qualifier) (c : Cursor) :
    (endCompound last qs c).Orderly c :=
  orderly_leaf (proceeds_endCompound last qs c) (.refl c)

theorem orderly_closeParenthesis (q : Qualifier) (c : Cursor) :
    (closeParenthesis q c).Orderly c := by
  refine orderly_skip ?_
  split
  · next h => exact orderly_ok (Cursor.reaches_at (strip?_suffix h))
  · exact (orderly_ok (.refl _)).after _

theorem orderly_afterQualifier (size : Nat) (last : Option String) (qs : List Qualifier)
    (c : Cursor) : (afterQualifier size last qs c).Orderly c := by
  refine orderly_skip ?_
  split
  · exact (orderly_endCompound _ _ _).map _
  · split
    · exact ((orderly_endCompound _ _ _).map _).after _
    · next h =>
      refine orderly_throughAt ?_ (takeName?_suffix h)
      refine (orderly_resolve _ _).bind fun word d _ => orderly_skip ?_
      split
      · exact ((orderly_endCompound _ _ _).map _).after _
      · exact (orderly_ok (.refl _)).after _

/-- A turn of the loop over a row takes a character, unless it fails. -/
theorem advances_rowTurn (size n : Nat) (last : Option String) (qs : List Qualifier) (c : Cursor) :
    (rowTurn size (oneQualifier size n c) last qs).step.Advances c := by
  rw [rowTurn, step_bind, (step_oneQualifier_row size n).1]
  exact (advances_oneQualifier size n c).bind fun q d _ =>
    (orderly_afterQualifier size last (qs ++ [q]) d).proceeds

/-- One step of a single qualifier, from the steps that it goes on with. -/
theorem orderly_oneQualifier_succ {size n : Nat}
    (h₁ : ∀ c : Cursor, 2 * c.rest.length + 1 ≤ n → (oneQualifier size n c).Orderly c)
    (h₂ : ∀ c : Cursor, 2 * c.rest.length + 2 ≤ n → (row size n none [] c).Orderly c)
    (hn : 2 * c.rest.length + 1 ≤ n + 1) : (oneQualifier size (n + 1) c).Orderly c := by
  have h₃ := length_skipSpaces_le c.rest
  unfold oneQualifier
  refine orderly_skip ?_
  split
  · exact orderly_leaf proceeds_stop (.refl _)
  · split
    -- a parenthesis
    · next r h =>
      have h₄ : r.length < (skipSpaces c.rest).length :=
        (passes_of_strip? h (List.cons_ne_nil _ _)).shorter
      refine (orderly_skip ?_).of_reaches (Cursor.reaches_at (strip?_suffix h))
      split
      · exact orderly_fail _ (.refl _)
      · refine Orderly.bind (h₂ _ ?_) fun q d _ => orderly_closeParenthesis q d
        have h₅ := length_skipSpaces_le r
        simp only [Cursor.at]
        omega
    · split
      -- a negation
      · next r h =>
        have h₄ : r.length < (skipSpaces c.rest).length :=
          (passes_of_stripKeyword? h (by decide)).shorter
        refine (orderly_skip ?_).of_reaches (Cursor.reaches_at (stripKeyword?_suffix h))
        split
        · exact orderly_fail _ (.refl _)
        · refine (h₁ _ ?_).map _
          have h₅ := length_skipSpaces_le r
          simp only [Cursor.at]
          omega
      · split
        -- raw SQL
        · next h => exact (orderly_rawSql _).of_reaches (Cursor.reaches_at (strip?_suffix h))
        · split
          · next h => exact orderly_ok (Cursor.reaches_at (strip?_suffix h))
          · split
            · next h => exact orderly_ok (Cursor.reaches_at (strip?_suffix h))
            · exact orderly_clause size _

theorem orderly_row_succ {size n : Nat}
    (h₁ : ∀ c : Cursor, 2 * c.rest.length + 1 ≤ n → (oneQualifier size n c).Orderly c)
    (h₂ : ∀ (last : Option String) (qs : List Qualifier) (c : Cursor),
      2 * c.rest.length + 2 ≤ n → (row size n last qs c).Orderly c)
    (last : Option String) (qs : List Qualifier) (hn : 2 * c.rest.length + 2 ≤ n + 1) :
    (row size (n + 1) last qs c).Orderly c := by
  unfold row
  refine Orderly.bind ?_ fun t d hd => ?_
  · exact (h₁ c (by omega)).bind fun q d _ => orderly_afterQualifier size last (qs ++ [q]) d
  · cases t with
    | ended q => exact orderly_ok (.refl d)
    | again s =>
      -- The character that the turn took pays for the next one.
      have h := (advances_rowTurn size n last qs c _ d hd).shorter
      exact h₂ _ _ d (by omega)

/-- Reading a qualifier or a row is orderly, if there are two steps for each character that is left
and one or two more. -/
theorem orderly_oneQualifier_row (size n : Nat) :
    (∀ c : Cursor, 2 * c.rest.length + 1 ≤ n → (oneQualifier size n c).Orderly c) ∧
      ∀ (last : Option String) (qs : List Qualifier) (c : Cursor),
        2 * c.rest.length + 2 ≤ n → (row size n last qs c).Orderly c := by
  -- The two functions call each other with one step less, wherever the cursor then stands.
  induction n with
  | zero => exact ⟨fun c hn => by omega, fun last qs c hn => by omega⟩
  | succ n ih =>
    obtain ⟨h₁, h₂⟩ := ih
    exact ⟨fun c hn => orderly_oneQualifier_succ h₁ (h₂ none []) hn,
      fun last qs c hn => orderly_row_succ h₁ h₂ last qs hn⟩

theorem orderly_read (text : List Char) (args : List Value) :
    (read text args).Orderly ⟨text, args⟩ := by
  refine orderly_skip ?_
  split
  · exact orderly_leaf proceeds_stop (.refl _)
  · refine (orderly_oneQualifier_row _ _).2 none [] _ ?_
    have h := length_skipSpaces_le text
    simp only [Cursor.at, stepBound]
    omega

/-! ### More steps -/

/-- Where the first parser does not run out of steps, the second one does the same. -/
def Settles (t t' : Traced α) : Prop :=
  t.ranOut = false → t' = t

theorem Settles.refl (t : Traced α) : t.Settles t :=
  fun _ => rfl

theorem Settles.skip {f g : Cursor → Traced α}
    (h : (f (c.at (skipSpaces c.rest))).Settles (g (c.at (skipSpaces c.rest)))) :
    (skip c f).Settles (skip c g) := by
  intro hr
  rw [Traced.skip, h hr, Traced.skip]

theorem Settles.map {t t' : Traced α} (h : t.Settles t') (f : α → β) :
    (t.map f).Settles (t'.map f) := by
  intro hr
  rw [h hr]

theorem Settles.ite {p : Prop} [Decidable p] {t t' u u' : Traced α} (ht : t.Settles t')
    (hu : u.Settles u') : (if p then t else u).Settles (if p then t' else u') := by
  split
  · exact ht
  · exact hu

theorem Settles.bind {t t' : Traced α} {f g : α → Cursor → Traced β} (h : t.Settles t')
    (hf : ∀ a d, (f a d).Settles (g a d)) : (t.bind f).Settles (t'.bind g) := by
  intro hr
  unfold Traced.bind at hr
  cases hs : t.step.result with
  | none =>
    simp only [hs] at hr
    rw [h hr]
    simp only [Traced.bind, hs]
  | some p =>
    simp only [hs, Bool.or_eq_false_iff] at hr
    rw [h hr.1]
    simp only [Traced.bind, hs, hf p.1 p.2 hr.2]

/-- A step more changes nothing where the steps did not run out. -/
theorem settles_oneQualifier_row (size n : Nat) :
    (∀ c, (oneQualifier size n c).Settles (oneQualifier size (n + 1) c)) ∧
      ∀ last qs c, (row size n last qs c).Settles (row size (n + 1) last qs c) := by
  induction n with
  | zero => exact ⟨fun c h => by contradiction, fun last qs c h => by contradiction⟩
  | succ n ih =>
    obtain ⟨h₁, h₂⟩ := ih
    refine ⟨fun c => ?_, fun last qs c => ?_⟩
    · rw [oneQualifier, oneQualifier]
      refine .skip (.ite (.refl _) ?_)
      generalize c.at (skipSpaces c.rest) = d
      cases strip? ['('] d.rest with
      | some r => exact .skip (.ite (.refl _) ((h₂ _ _ _).bind fun _ _ => .refl _))
      | none =>
        cases stripKeyword? "NOT" d.rest with
        | some r => exact .skip (.ite (.refl _) ((h₁ _).map _))
        | none => exact .refl _
    · rw [row, row]
      refine ((h₁ c).bind fun _ _ => .refl _).bind fun t d => ?_
      cases t with
      | ended q => exact .refl _
      | again s => exact h₂ _ _ _

theorem row_eq_of_le {size n m : Nat} (hm : n ≤ m) {last : Option String} {qs : List Qualifier}
    (h : (row size n last qs c).ranOut = false) : row size m last qs c = row size n last qs c := by
  induction m, hm using Nat.le_induction with
  | base => rfl
  | succ m _ ih =>
    rw [← ih] at h
    rw [(settles_oneQualifier_row size m).2 last qs c h, ih]

end Traced

/-- The steps that a parse has are enough: with more of them it reads the same and logs the same. -/
theorem row_eq_of_stepBound_le {text : List Char} (hc : c.rest <:+ text) (size : Nat) {n : Nat}
    (hn : stepBound text ≤ n) (last : Option String) (qs : List Qualifier) :
    row size n last qs c = row size (stepBound text) last qs c := by
  have h₁ := hc.length_le
  have h₂ : (Traced.row size (stepBound text) last qs c).Orderly c := by
    refine (Traced.orderly_oneQualifier_row _ _).2 _ _ _ ?_
    rw [stepBound]
    omega
  have h₃ := congrArg Traced.step (Traced.row_eq_of_le hn h₂.lasts)
  rwa [(Traced.step_oneQualifier_row _ _).2, (Traced.step_oneQualifier_row _ _).2] at h₃

/-! ## Indexes -/

variable {text : List Char}

/-- The index of a cursor in a text is what stands before it. -/
theorem Cursor.index_add_unitCount (hc : c.rest <:+ text) :
    c.index (Text.unitCount text) + Text.unitCount c.rest = Text.unitCount text := by
  obtain ⟨before, rfl⟩ := hc
  rw [Cursor.index, Text.unitCount_append]
  omega

theorem Cursor.Passes.index_lt (h : c.Passes d) (hc : c.rest <:+ text) :
    c.index (Text.unitCount text) < d.index (Text.unitCount text) := by
  have h₁ := Cursor.index_add_unitCount hc
  have h₂ := Cursor.index_add_unitCount (h.rest.trans hc)
  obtain ⟨w, hw⟩ := h.rest
  have h₃ : w ≠ [] := by
    rintro rfl
    have h₄ := h.shorter
    rw [← hw, List.nil_append] at h₄
    exact Nat.lt_irrefl _ h₄
  have h₅ : 0 < Text.unitCount w := Nat.pos_of_ne_zero (mt Text.unitCount_eq_zero_iff.1 h₃)
  rw [← hw, Text.unitCount_append] at h₁
  omega

end RecordQuery.Format

namespace RecordQuery

open Format

/-- The cursors of a parse. The parse that keeps them is the parse, and they are orderly: all are in
the text and the arguments, no argument is given back, and the steps do not run out; so with any
greater number of steps the parse is the same. The index of a cursor in the text, with what is left
after it, makes up the text. From there a qualifier or a literal that is read moves the index
forward, and so does every turn of the loops over rows and lists that does not fail. -/
theorem cursor_discipline (text : String) (args : List Value) :
    let start : Cursor := ⟨text.toList, args⟩
    let size := Text.unitCount text.toList
    let parse := Traced.read text.toList args
    parse.step = Format.read text.toList args ∧
      parse.Orderly start ∧
      (∀ n, stepBound text.toList ≤ n →
        row size n none [] (start.at (skipSpaces text.toList)) =
          row size (stepBound text.toList) none [] (start.at (skipSpaces text.toList))) ∧
      ∀ c, start.Reaches c →
        c.index size + Text.unitCount c.rest = size ∧
        (∀ n q d, (oneQualifier size n c).result = some (q, d) → c.index size < d.index size) ∧
        (∀ v d, (literal size c).result = some (v, d) → c.index size < d.index size) ∧
        (∀ n last qs t d,
          (Traced.rowTurn size (Traced.oneQualifier size n c) last qs).step.result = some (t, d) →
            c.index size < d.index size) ∧
        ∀ t d, (Traced.listTurn size c).step.result = some (t, d) →
          c.index size < d.index size := by
  intro start size parse
  refine ⟨Traced.step_read _ _, Traced.orderly_read _ _, fun n hn => ?_, fun c hc => ?_⟩
  · exact row_eq_of_stepBound_le (skipSpaces_suffix _) size hn none []
  · refine ⟨Cursor.index_add_unitCount hc.rest, fun n q d h => ?_, fun v d h => ?_,
      fun n last qs t d h => ?_, fun t d h => ?_⟩
    · exact (advances_oneQualifier size n c q d h).index_lt hc.rest
    · exact (advances_literal size c v d h).index_lt hc.rest
    · exact (Traced.advances_rowTurn size n last qs c t d h).index_lt hc.rest
    · exact (Traced.advances_listTurn size c t d h).index_lt hc.rest

end RecordQuery
