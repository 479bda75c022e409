import RecordQuery.Proofs.RoundTrip

/-!
# Parentheses around a condition

Parentheses around a whole condition change nothing, however many there are, and a closing one may
be missing: each one that is missing is reported once, and the condition is read all the same. At
the end of the text every open parenthesis is closed in turn, so the reports are as many as the
parentheses that nothing closes: `Readable.exists_parse_parenthesized`.
-/

namespace RecordQuery

open Format

/-- A text after `n` opening parentheses and before `m` closing ones. -/
def parenthesized (n m : Nat) (text : String) : String :=
  .ofList (List.replicate n '(' ++ (text.toList ++ List.replicate m ')'))

/-- The complaint about a parenthesis that nothing closes. -/
def unclosedParenthesis : LogEntry :=
  .error "missing closing parenthesis" []

namespace Format

variable {args : List Value} {text : List Char} {used : List Value} {q : Qualifier}

theorem endsRow_replicate (m : Nat) : EndsRow (List.replicate m ')') := by
  cases m with
  | zero => exact .inl rfl
  | succ m => exact .inr ⟨List.replicate m ')', rfl⟩

/-- A closing parenthesis is taken if there is one left, and missed if there is none. -/
theorem closeParenthesis_replicate (q : Qualifier) (k : Nat) (args : List Value) :
    closeParenthesis q ⟨List.replicate k ')', args⟩ =
      ⟨List.replicate (1 - k) unclosedParenthesis,
        some (q, ⟨List.replicate (k - 1) ')', args⟩), false⟩ := by
  cases k with
  | zero => rfl
  | succ k =>
    rw [List.replicate_succ, closeParenthesis_parenthesis, Nat.sub_eq_zero_of_le (by omega)]
    rfl

/-- A row of a single qualifier is that qualifier, and logs what it logs. -/
theorem row_single (size n : Nat) {c : Cursor} {log : List LogEntry} {rest : List Char}
    (hr : EndsRow rest) (h : oneQualifier size n c = ⟨log, some (q, ⟨rest, args⟩), false⟩) :
    row size (n + 1) none [] c = ⟨log, some (q, ⟨rest, args⟩), false⟩ := by
  simp [row, h, Step.bind, Cursor.at, hr.stops, endCompound, buildCompound, Step.behind]

theorem Opens.replicate_append (h : Opens text) (n : Nat) (r : List Char) :
    Opens (List.replicate n '(' ++ (text ++ r)) := by
  cases n with
  | zero => exact h.append r
  | succ n => exact ⟨'(', _, rfl, rfl⟩

/-- A row inside parentheses is read as the row. Each level takes one closing parenthesis of those
that are left to it, or reports that there is none. -/
theorem ReadsRow.row_parenthesized (h : ReadsRow text used q) (args : List Value)
    (size n m : Nat) {k : Nat} (hk : 2 * (n + text.length + m) + 1 ≤ k) :
    row size k none [] ⟨List.replicate n '(' ++ (text ++ List.replicate m ')'), used ++ args⟩ =
      ⟨List.replicate (n - m) unclosedParenthesis,
        some (q, ⟨List.replicate (m - n) ')', args⟩), false⟩ := by
  induction n generalizing k with
  | zero =>
    have h₁ := h.read size k (List.replicate m ')') args (endsRow_replicate m)
      (by rw [List.length_replicate]; omega)
    rw [Nat.zero_sub]
    exact h₁
  | succ n ih =>
    obtain ⟨k, rfl⟩ : ∃ j, k = j + 2 := ⟨k - 2, by omega⟩
    have h₁ : 2 * (n + text.length + m) + 1 ≤ k := by omega
    have h₂ : n - m + (1 - (m - n)) = n + 1 - m := by omega
    have h₃ : m - n - 1 = m - (n + 1) := by omega
    refine row_single size (k + 1) (endsRow_replicate _) ?_
    rw [List.replicate_succ, List.cons_append,
      oneQualifier_parenthesis size k (h.opens.replicate_append n _), ih h₁,
      Step.bind_of_result rfl, closeParenthesis_replicate, Step.behind,
      List.replicate_append_replicate, h₂, h₃, Bool.or_false]

/-- The text of a row in parentheses is parsed as the row. -/
theorem ReadsRow.parse_parenthesized {text : String} (h : ReadsRow text.toList [] q) (n m : Nat) :
    Qualifier.parse (parenthesized n m text) [] =
      ⟨some q, List.replicate (n - m) unclosedParenthesis⟩ := by
  have h₁ := h.opens.replicate_append n (List.replicate m ')')
  have h₂ : 2 * (n + text.toList.length + m) + 1 ≤
      stepBound (List.replicate n '(' ++ (text.toList ++ List.replicate m ')')) := by
    simp only [stepBound, List.length_append, List.length_replicate]
    omega
  have h₃ := fun size => h.row_parenthesized [] size n m h₂
  simp only [List.append_nil] at h₃
  rw [Qualifier.parse, parenthesized, String.toList_ofList, h₁.read_eq, h₃]
  rfl

end Format

/-- A readable qualifier that is written after `n` opening parentheses and before `m` closing ones
is read as an equal one. For each parenthesis that nothing closes an error is logged, and nothing
else is. A closing one that nothing opened ends the text without a word. -/
theorem Readable.exists_parse_parenthesized {q : Qualifier} (h : Readable q) (n m : Nat) :
    ∃ p, Qualifier.parse (parenthesized n m q.text) [] =
        ⟨some p, List.replicate (n - m) unclosedParenthesis⟩ ∧
      p.isEqual q = true ∧ q.isEqual p = true := by
  refine ⟨q.reread, ?_, by rw [Qualifier.isEqual_comm, h.isEqual_reread], h.isEqual_reread⟩
  exact h.legible.renders.row.parse_parenthesized n m

/-- Parentheses in a list, in a text and after a NOT are not taken for the ones around the
condition. -/
theorem exists_parse_parenthesized_list :
    let q : Qualifier := .compound .or
      [.keyValue (.ofText "a") (.known .isIn) (.constant (.array [.string ")", .null])),
        .not (.compound .and [.keyComparison (.ofText "b") (.known .lessThan) (.ofText "c"),
          .keyValue (.ofText "b") (.known .equalTo) (.placeholder "c")])]
    Readable q ∧
      ∃ p, Qualifier.parse "(((a IN (\x27)\x27, NULL) OR NOT (b < c AND b = $c))" [] =
          ⟨some p, [unclosedParenthesis, unclosedParenthesis]⟩ ∧
        p.isEqual q = true ∧ q.isEqual p = true := by
  intro q
  have ha : ReadableRightKey "a" := .of_letters (by decide) (by decide) (by decide)
  have hb : ReadableRightKey "b" := .of_letters (by decide) (by decide) (by decide)
  have hc : ReadableRightKey "c" := .of_letters (by decide) (by decide) (by decide)
  have h₁ : Readable (.compound .and
      [.keyComparison (.ofText "b") (.known .lessThan) (.ofText "c"),
        .keyValue (.ofText "b") (.known .equalTo) (.placeholder "c")]) := by
    refine .compound (by decide) (List.forall_mem_cons.2 ⟨.keyComparison hb.toReadableKey hc, ?_⟩)
    exact List.forall_mem_cons.2 ⟨.keyValue hb.toReadableKey hc.toIsName, by simp⟩
  have hq : Readable q := by
    refine .compound (by decide) (List.forall_mem_cons.2 ⟨.keyValue ha.toReadableKey rfl, ?_⟩)
    exact List.forall_mem_cons.2 ⟨.not rfl h₁, by simp⟩
  have h₂ : parenthesized 3 1 q.text = "(((a IN (\x27)\x27, NULL) OR NOT (b < c AND b = $c))" := by
    decide
  have h₃ := hq.exists_parse_parenthesized 3 1
  rw [h₂] at h₃
  exact ⟨hq, h₃⟩

end RecordQuery
