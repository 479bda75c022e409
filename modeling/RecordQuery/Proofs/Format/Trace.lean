import Mathlib.Data.List.Infix
import RecordQuery.Format.Parser

/-!
# The path of a parse

`Traced.read` reads a condition and keeps the cursors that it comes to, in order: the one after
each lexeme, the ones that spaces and raw SQL are gone through with, the ones of a look ahead, after
which the parser is back where it was, and the one at which it fails. It also tells whether the
parser was asked for more steps than it had. The two loops are written turn by turn.

* `step_read`: apart from what is kept, this is `read`.
-/

namespace RecordQuery.Format

/-- The cursors from a cursor up to the one at which `r` is left, a character apart. -/
def Cursor.upTo (c : Cursor) (r : List Char) : List Cursor :=
  (c.rest.tails.filter fun s => r.length ≤ s.length).map c.at

/-- What a parser did, the cursors that it came to, and whether its steps ran out. -/
structure Traced (α : Type) where
  step : Step α
  path : List Cursor
  ranOut : Bool

/-- What a turn of a loop comes to: the end of the loop, or a further turn. -/
inductive Turn (σ α : Type) where
  | ended (a : α)
  | again (s : σ)

theorem Step.bind_assoc {α β γ : Type} (s : Step α) (f : α → Cursor → Step β)
    (g : β → Cursor → Step γ) : (s.bind f).bind g = s.bind fun a c => (f a c).bind g := by
  unfold Step.bind
  cases s.result with
  | none => rfl
  | some p =>
    simp only [Step.result_behind]
    cases (f p.1 p.2).result with
    | none => rfl
    | some r => simp [Step.behind, Bool.or_assoc]

theorem Step.bind_after {α β : Type} (s : Step α) (es : List LogEntry) (f : α → Cursor → Step β) :
    (s.after es).bind f = (s.bind f).after es := by
  unfold Step.bind Step.after
  cases s.result with
  | none => rfl
  | some p => simp [Step.behind]

/-- Changing a value and then giving the old one back changes nothing. -/
theorem Step.bind_map_of_eq_ok {α β : Type} (s : Step α) {f : α → β} {g : β → Cursor → Step α}
    (h : ∀ a c, g (f a) c = .ok a c) : (s.map f).bind g = s := by
  obtain ⟨log, result, textless⟩ := s
  cases result with
  | none => rfl
  | some p => simp [Step.bind, Step.map, h, Step.behind, Step.ok]

namespace Traced

variable {α β : Type}

/-! ## Putting traced parsers together -/

/-- A parser that goes nowhere but to its end, or to `stuck` if it fails. -/
def leaf (s : Step α) (stuck : Cursor) : Traced α :=
  ⟨s, [(s.result.map (·.2)).getD stuck], false⟩

/-- A value, and where the parse goes on. -/
def ok (a : α) (c : Cursor) : Traced α :=
  leaf (.ok a c) c

/-- A failure with its reason, and where it is. -/
def fail (message : String) (c : Cursor) : Traced α :=
  leaf (.fail message) c

/-- There is no step left. -/
def out : Traced α :=
  ⟨.stop, [], true⟩

/-- Comes to other cursors first. -/
def through (cs : List Cursor) (t : Traced α) : Traced α :=
  { t with path := cs ++ t.path }

/-- Goes on behind the spaces. -/
def skip (c : Cursor) (f : Cursor → Traced α) : Traced α :=
  through (c.upTo (skipSpaces c.rest)) (f (c.at (skipSpaces c.rest)))

/-- Logs entries first. -/
def after (entries : List LogEntry) (t : Traced α) : Traced α :=
  { t with step := t.step.after entries }

/-- Goes on from a value unless there was a failure, to what comes after it. -/
def bind (t : Traced α) (f : α → Cursor → Traced β) : Traced β :=
  match t.step.result with
  | none => ⟨{ t.step with result := none }, t.path, t.ranOut⟩
  | some (a, c) =>
    ⟨t.step.behind (f a c).step, t.path ++ (f a c).path, t.ranOut || (f a c).ranOut⟩

/-- Changes the value. -/
def map (f : α → β) (t : Traced α) : Traced β :=
  { t with step := t.step.map f }

@[simp] theorem step_ok (a : α) (c : Cursor) : (ok a c).step = .ok a c := rfl

@[simp] theorem step_fail (m : String) (c : Cursor) : (fail m c : Traced α).step = .fail m := rfl

@[simp] theorem step_through (cs : List Cursor) (t : Traced α) : (through cs t).step = t.step := rfl

@[simp] theorem step_skip (c : Cursor) (f : Cursor → Traced α) :
    (skip c f).step = (f (c.at (skipSpaces c.rest))).step := rfl

@[simp] theorem step_after (es : List LogEntry) (t : Traced α) :
    (t.after es).step = t.step.after es := rfl

@[simp] theorem step_map (f : α → β) (t : Traced α) : (t.map f).step = t.step.map f := rfl

@[simp] theorem step_bind (t : Traced α) (f : α → Cursor → Traced β) :
    (t.bind f).step = t.step.bind fun a c => (f a c).step := by
  unfold bind Step.bind
  cases t.step.result <;> rfl

@[simp] theorem step_ite {p : Prop} [Decidable p] (t u : Traced α) :
    (if p then t else u).step = if p then t.step else u.step :=
  apply_ite step p t u

/-! ## Literals -/

/-- A quoted text that is not closed is gone through to the end. -/
def quotedText (q : Char) (c : Cursor) : Traced Value :=
  leaf (Format.quotedText q c) (c.at [])

/-- The characters of a number are taken before it is known whether it is one. -/
def numeral (first : Char) (c : Cursor) : Traced Value :=
  leaf (Format.numeral first c) (c.at (numeralTail first c.rest).2)

/-- Nothing is taken for a literal that is not there. -/
def literal (size : Nat) (c : Cursor) : Traced Value :=
  match c.rest with
  | [] => fail (c.message size "expected constant") c
  | d :: r =>
    if d = Text.quote ∨ d = Text.doubleQuote then quotedText d (c.at r)
    else if startsNumeral (d :: r) then numeral d (c.at r)
    else match takeLiteralWord? (d :: r) with
      | some (v, r) => ok v (c.at r)
      | none => fail (c.message size "expected constant") c

/-- The spaces on both sides of the class of a cast are gone through. -/
def castClass (c : Cursor) : Traced String :=
  skip c fun c =>
    match takeName? c.rest with
    | none => fail "expected class cast identifier after parenthesis" c
    | some (name, r) =>
      skip (c.at r) fun c =>
        match strip? [')'] c.rest with
        | some r => ok name (c.at r)
        | none => fail "expected closing parenthesis after class cast" c

/-- The spaces between a cast and its literal are gone through. -/
def constant (size : Nat) (c : Cursor) : Traced Value :=
  match strip? ['('] c.rest with
  | none => literal size c
  | some r =>
    (castClass (c.at r)).bind fun name c =>
      skip c fun c =>
        if c.rest.isEmpty then fail ("expected constant after cast to '" ++ name ++ "'") c
        else (literal size c).bind fun v c => .after (castWarning name v) (ok v c)

/-- What follows a literal of a list: a comma, after which it goes on, or its end. -/
def afterLiteral (size : Nat) (v : Value) (c : Cursor) : Traced (Turn Value Value) :=
  skip c fun c =>
    match c.rest with
    | ',' :: r => ok (.again v) (c.at r)
    | ')' :: r => ok (.ended v) (c.at r)
    | _ => fail (c.message size "expected ',' or ')' in value list") c

/-- A turn of the loop over the literals of a list. -/
def listTurn (size : Nat) (c : Cursor) : Traced (Turn Value Value) :=
  skip c fun c =>
    if c.rest.isEmpty then fail "value list after IN is not closed" c
    else (literal size c).bind (afterLiteral size)

/-- The literals of a list, turn by turn. -/
def listItems (size : Nat) : Nat → Cursor → Traced (List Value)
  | 0, _ => out
  | n + 1, c =>
    (listTurn size c).bind fun t c =>
      match t with
      | .ended v => ok [v] c
      | .again v => (listItems size n c).map (v :: ·)

/-- The spaces behind the opening parenthesis of a list are gone through. -/
def valueList (size : Nat) (c : Cursor) : Traced Value :=
  skip c fun c =>
    match strip? [')'] c.rest with
    | some r => ok (.array []) (c.at r)
    | none => (listItems size (c.rest.length + 1) c).map .array

/-- Except after `IN`, it is looked behind a parenthesis whether it opens a list. -/
def constantOrList (size : Nat) (op : Operation) (c : Cursor) : Traced Value :=
  match strip? ['('] c.rest with
  | some r =>
    through (if op = .known .isIn then [] else (c.at r).upTo (skipSpaces r) ++ [c]) <|
      if op = .known .isIn ∨ listAhead r then through [c.at r] (valueList size (c.at r))
      else constant size c
  | none => constant size c

/-! ## Arguments -/

/-- An argument is taken before it is known what for. -/
def resolve (word : String) (c : Cursor) : Traced String :=
  leaf (Format.resolve word c) ⟨c.rest, c.args.tail⟩

/-- The specifier and the argument are taken together. -/
def argumentValue (key : String) (op : Operation) (c : Cursor) : Traced Qualifier :=
  match c.rest with
  | [] => fail "incomplete format specification at end of input" c
  | specifier :: r =>
    match c.args with
    | [] => leaf noArgument (c.at r)
    | v :: args => leaf (argumentComparison key op specifier v ⟨r, args⟩) ⟨r, args⟩

/-! ## Clauses -/

/-- The cursors of a look ahead for NULL or NOT NULL. -/
def nullTestPath (c : Cursor) : List Cursor :=
  c.upTo (skipSpaces c.rest) ++
    match stripKeyword? "NOT" (skipSpaces c.rest) with
    | some r => (c.at r).upTo (skipSpaces r)
    | none => []

/-- A dollar sign or a percent sign is taken on its own. -/
def operand (size : Nat) (key token : String) (c : Cursor) : Traced Qualifier :=
  let op := Operation.ofToken token
  skip c fun c =>
    match c.rest with
    | [] => leaf (noOperand key token) c
    | '$' :: r =>
      match takeName? r with
      | some (name, r) => ok (.keyValue (.ofText key) op (.placeholder name)) (c.at r)
      | none => fail "expected variable name after '$'" (c.at r)
    | '%' :: r => through [c.at r] (argumentValue key op (c.at r))
    | _ =>
      if startsConstant c.rest then
        (constantOrList size op c).map fun v => .ofKeyText key op v
      else
        match takeName? c.rest with
        | some (name, r) => ok (.keyComparison (.ofText key) op (.ofText name)) (c.at r)
        | none => leaf (noOperand key token) c

/-- After `IS` it is looked ahead for NULL or NOT NULL. -/
def afterOperation (size : Nat) (key token : String) (c : Cursor) : Traced Qualifier :=
  through (if token = "IS" then nullTestPath c else []) <|
    match if token = "IS" then nullTest? c.rest else none with
    | some (r, rest) => ok (.keyValue (.ofText key) (.known r) (.constant .null)) (c.at rest)
    | none => operand size key token c

/-- The word of an operation is taken before the argument that it may stand for. -/
def afterKey (size : Nat) (key : String) (c : Cursor) : Traced Qualifier :=
  skip c fun c =>
    if endsBareKey c.rest then ok (.isTrue key) c
    else
      match takeOperation? c.rest with
      | none => ok (.isTrue key) c
      | some (word, r) =>
        through [c.at r] <|
          (resolve word (c.at r)).bind fun token c => afterOperation size key token c

/-- The word of a key is taken before the argument that it may stand for. -/
def clause (size : Nat) (c : Cursor) : Traced Qualifier :=
  match takeName? c.rest with
  | none => fail (c.message size "expected key") c
  | some (word, r) =>
    through [c.at r] <| (resolve word (c.at r)).bind fun key c => afterKey size key c

/-! ## Rows -/

/-- Raw SQL is gone through to its end, character by character. -/
def rawSql (c : Cursor) : Traced Qualifier :=
  through (c.upTo (sqlBody c.rest).rest) (leaf (Format.rawSql c) c)

/-- The end of a row takes nothing. -/
def endCompound (last : Option String) (qs : List Qualifier) (c : Cursor) : Traced Qualifier :=
  leaf (Format.endCompound last qs c) c

/-- A missing parenthesis is missed behind the spaces. -/
def closeParenthesis (q : Qualifier) (c : Cursor) : Traced Qualifier :=
  skip c fun c =>
    match strip? [')'] c.rest with
    | some r => ok q (c.at r)
    | none => .after [.error "missing closing parenthesis" []] (ok q c)

/-- The end of a row of qualifiers after the last one, or the connective and the qualifiers with
which it goes on. -/
def afterQualifier (size : Nat) (last : Option String) (qs : List Qualifier) (c : Cursor) :
    Traced (Turn (String × List Qualifier) Qualifier) :=
  skip c fun c =>
    if c.rest.isEmpty || startsWith ")" c.rest then (endCompound last qs c).map .ended
    else match takeName? c.rest with
    | none =>
      .after [.error (c.message size "could not parse compound operator") []]
        ((endCompound last qs c).map .ended)
    | some (word, r) =>
      through [c.at r] <|
        (resolve word (c.at r)).bind fun word c =>
          skip c fun c =>
            if c.rest.isEmpty then
              .after [.error ("expected another qualifier after compound operator (op='" ++ word
                ++ "')") []] ((endCompound last qs c).map .ended)
            else
              let folded := foldRow last word qs
              .after folded.log (ok (.again (word, folded.value)) c)

/-- A turn of the loop over a row of qualifiers, from how its qualifier is read. -/
def rowTurn (size : Nat) (one : Traced Qualifier) (last : Option String) (qs : List Qualifier) :
    Traced (Turn (String × List Qualifier) Qualifier) :=
  one.bind fun q c => afterQualifier size last (qs ++ [q]) c

mutual

/-- The token that a qualifier opens with is taken, and then the spaces behind it. -/
def oneQualifier (size : Nat) : Nat → Cursor → Traced Qualifier
  | 0, _ => out
  | n + 1, c =>
    skip c fun c =>
      if c.rest.isEmpty then leaf .stop c
      else match strip? ['('] c.rest with
      | some r =>
        skip (c.at r) fun c =>
          if c.rest.isEmpty then fail "missing closing parenthesis" c
          else (row size n none [] c).bind closeParenthesis
      | none =>
      match stripKeyword? "NOT" c.rest with
      | some r =>
        skip (c.at r) fun c =>
          if c.rest.isEmpty then fail "missing qualifier after NOT" c
          else (oneQualifier size n c).map Qualifier.negate
      | none =>
      match strip? "SQL[".toList c.rest with
      | some r => rawSql (c.at r)
      | none =>
      match strip? "*true*".toList c.rest with
      | some r => ok (.always true) (c.at r)
      | none =>
      match strip? "*false*".toList c.rest with
      | some r => ok (.always false) (c.at r)
      | none => clause size c

/-- Qualifiers with connectives between them, turn by turn. -/
def row (size : Nat) : Nat → Option String → List Qualifier → Cursor → Traced Qualifier
  | 0, _, _, _ => out
  | n + 1, last, qs, c =>
    (rowTurn size (oneQualifier size n c) last qs).bind fun t c =>
      match t with
      | .ended q => ok q c
      | .again (word, qs) => row size n (some word) qs c

end

/-- Reads a condition and keeps the cursors that it comes to. -/
def read (text : List Char) (args : List Value) : Traced Qualifier :=
  skip ⟨text, args⟩ fun c =>
    if c.rest.isEmpty then leaf .stop c
    else row (Text.unitCount text) (stepBound text) none [] c

/-! ## What is kept changes nothing -/

theorem step_literal (size : Nat) (c : Cursor) :
    (literal size c).step = Format.literal size c := by
  unfold literal Format.literal
  cases c.rest with
  | nil => rfl
  | cons d r =>
    simp only [step_ite]
    cases takeLiteralWord? (d :: r) <;> rfl

theorem step_castClass (c : Cursor) : (castClass c).step = Format.castClass c := by
  unfold castClass Format.castClass
  rw [step_skip]
  dsimp only [Cursor.at]
  cases takeName? (skipSpaces c.rest) with
  | none => rfl
  | some p =>
    rw [step_skip]
    dsimp only [Cursor.at]
    cases strip? [')'] (skipSpaces p.2) <;> rfl

theorem step_constant (size : Nat) (c : Cursor) :
    (constant size c).step = Format.constant size c := by
  unfold constant Format.constant
  cases strip? ['('] c.rest with
  | none => exact step_literal size c
  | some r =>
    simp only [step_bind, step_castClass, step_skip, step_ite, step_fail, step_literal, step_after,
      step_ok]

theorem step_listItems (size n : Nat) (c : Cursor) :
    (listItems size n c).step = Format.listItems size n c := by
  induction n generalizing c with
  | zero => rfl
  | succ n ih =>
    simp only [listItems, Format.listItems, listTurn, afterLiteral, step_bind, step_skip, step_ite,
      step_literal, step_fail]
    split
    · rfl
    · rw [Step.bind_assoc]
      congr 1
      funext v d
      obtain ⟨rest, args⟩ := d.at (skipSpaces d.rest)
      rcases rest with _ | ⟨e, r⟩
      · rfl
      · by_cases h₁ : e = ','
        · simp only [h₁, step_ok, Step.bind_ok, step_map, ih]
        · by_cases h₂ : e = ')'
          · simp only [h₂, step_ok, Step.bind_ok]
          · simp only [List.cons.injEq, h₁, h₂, false_and, imp_self, implies_true, step_fail]
            rfl

theorem step_valueList (size : Nat) (c : Cursor) :
    (valueList size c).step = Format.valueList size c := by
  simp only [valueList, Format.valueList, step_skip]
  cases strip? [')'] (c.at (skipSpaces c.rest)).rest with
  | none => simp only [step_map, step_listItems]
  | some r => rfl

theorem step_constantOrList (size : Nat) (op : Operation) (c : Cursor) :
    (constantOrList size op c).step = Format.constantOrList size op c := by
  unfold constantOrList Format.constantOrList
  cases strip? ['('] c.rest with
  | none => exact step_constant size c
  | some r => simp only [step_through, step_ite, step_valueList, step_constant]

theorem step_argumentValue (key : String) (op : Operation) (c : Cursor) :
    (argumentValue key op c).step = Format.argumentValue key op c := by
  unfold argumentValue Format.argumentValue
  cases c.rest with
  | nil => rfl
  | cons specifier r => cases c.args <;> rfl

theorem step_operand (size : Nat) (key token : String) (c : Cursor) :
    (operand size key token c).step = Format.operand size key token c := by
  simp only [operand, Format.operand, step_skip]
  obtain ⟨rest, args⟩ := c.at (skipSpaces c.rest)
  rcases rest with _ | ⟨d, r⟩
  · rfl
  · by_cases h₁ : d = '$'
    · simp only [h₁]
      cases takeName? r <;> rfl
    · by_cases h₂ : d = '%'
      · simp only [h₂, step_through, step_argumentValue]
      · simp only [List.cons.injEq, h₁, h₂, false_and, imp_self, implies_true, step_ite, step_map,
          step_constantOrList]
        cases takeName? (d :: r) <;> rfl

theorem step_afterOperation (size : Nat) (key token : String) (c : Cursor) :
    (afterOperation size key token c).step = Format.afterOperation size key token c := by
  unfold afterOperation Format.afterOperation
  rw [step_through]
  cases (if token = "IS" then nullTest? c.rest else none) with
  | none => exact step_operand size key token c
  | some p => rfl

theorem step_afterKey (size : Nat) (key : String) (c : Cursor) :
    (afterKey size key c).step = Format.afterKey size key c := by
  simp only [afterKey, Format.afterKey, step_skip, step_ite]
  cases takeOperation? (c.at (skipSpaces c.rest)).rest with
  | none => rfl
  | some p => simp only [step_through, step_bind, step_afterOperation, step_ok]; rfl

theorem step_clause (size : Nat) (c : Cursor) : (clause size c).step = Format.clause size c := by
  unfold clause Format.clause
  cases takeName? c.rest with
  | none => rfl
  | some p => simp only [step_through, step_bind, step_afterKey]; rfl

theorem step_closeParenthesis (q : Qualifier) (c : Cursor) :
    (closeParenthesis q c).step = Format.closeParenthesis q c := by
  simp only [closeParenthesis, Format.closeParenthesis, step_skip]
  cases strip? [')'] (c.at (skipSpaces c.rest)).rest <;> rfl

/-- How a row goes on after a turn. -/
def nextTurn (size n : Nat) (t : Turn (String × List Qualifier) Qualifier) (c : Cursor) :
    Step Qualifier :=
  match t with
  | .ended q => .ok q c
  | .again (word, qs) => Format.row size n (some word) qs c

theorem row_succ (size n : Nat) (last : Option String) (qs : List Qualifier) (c : Cursor) :
    Format.row size (n + 1) last qs c =
      (Format.oneQualifier size n c).bind fun q c =>
        (afterQualifier size last (qs ++ [q]) c).step.bind (nextTurn size n) := by
  rw [Format.row]
  congr 1
  funext q d
  have ended (s : Step Qualifier) : (s.map Turn.ended).bind (nextTurn size n) = s :=
    s.bind_map_of_eq_ok fun _ _ => rfl
  simp only [afterQualifier, step_skip]
  generalize d.at (skipSpaces d.rest) = e
  simp only [step_ite, step_map]
  split
  · exact (ended _).symm
  · cases takeName? e.rest with
    | none => simp only [step_after, step_map, Step.bind_after, ended]; rfl
    | some p =>
      simp only [step_through, step_bind, Step.bind_assoc]
      refine congrArg _ ?_
      funext word f
      simp only [step_skip, step_ite, step_after, step_map]
      split
      · simp only [Step.bind_after, ended]; rfl
      · simp only [Step.bind_after, step_ok, Step.bind_ok, nextTurn]

theorem step_oneQualifier_row (size n : Nat) :
    (∀ c, (oneQualifier size n c).step = Format.oneQualifier size n c) ∧
      ∀ last qs c, (row size n last qs c).step = Format.row size n last qs c := by
  induction n with
  | zero => exact ⟨fun _ => rfl, fun _ _ _ => rfl⟩
  | succ n ih =>
    obtain ⟨h₁, h₂⟩ := ih
    refine ⟨fun c => ?_, fun last qs c => ?_⟩
    · simp only [oneQualifier, Format.oneQualifier, step_skip, step_ite]
      generalize c.at (skipSpaces c.rest) = d
      split
      · rfl
      · cases strip? ['('] d.rest with
        | some r =>
          simp only [step_skip, step_ite, step_bind, step_fail, h₂, step_closeParenthesis]
          rfl
        | none =>
          cases stripKeyword? "NOT" d.rest with
          | some r => simp only [step_skip, step_ite, step_map, step_fail, h₁]; rfl
          | none =>
            cases strip? "SQL[".toList d.rest with
            | some r => rfl
            | none =>
              cases strip? "*true*".toList d.rest with
              | some r => rfl
              | none =>
                cases strip? "*false*".toList d.rest with
                | some r => rfl
                | none => exact step_clause size d
    · have h₃ : (fun t d => (match t with
          | .ended q => ok q d
          | .again (word, qs) => row size n (some word) qs d).step) = nextTurn size n := by
        funext t d
        cases t with
        | ended q => rfl
        | again s => exact h₂ _ _ _
      rw [row, step_bind, row_succ, rowTurn, step_bind, h₁, Step.bind_assoc, h₃]

theorem step_read (text : List Char) (args : List Value) :
    (read text args).step = Format.read text args := by
  simp only [read, Format.read, step_skip, step_ite, (step_oneQualifier_row _ _).2]
  rfl

/-- After `IS` it is looked one character ahead for NULL, and then back. -/
example : (read "a IS b".toList []).path.map (Cursor.index 6) =
    [0, 0, 1, 1, 1, 2, 4, 4, 4, 5, 4, 5, 6, 6, 6, 6] := by
  decide

end Traced

end RecordQuery.Format
