import RecordQuery.Format.Clause
import RecordQuery.Proofs.Format.Lexeme

/-!
# Written operations are read back

An operation is readable if its token, with a space after it, is read as that operation in front of
every operand.

* `readable_known`: all known relations are readable;
* `readable_of_takeOperation?`: and so is every operation that a clause was read with, odd words
  such as `(b` included.
-/

namespace RecordQuery.Format

/-! ## Words -/

/-- A text that is read as one word: not empty, without spaces, and not starting with a digit. -/
structure IsWord (s : String) : Prop where
  ne_nil : s.toList ≠ []
  noDigit : ∀ c ∈ s.toList.head?, isDigit c = false
  noSpace : ∀ c ∈ s.toList, isSpace c = false

theorem takeWord?_append {s : String} (h : IsWord s) {r : List Char} (hr : EndsWord r) :
    takeWord? (s.toList ++ r) = some (s, r) := by
  obtain ⟨h₁, h₂, h₃⟩ := h
  obtain ⟨h₄, h₅⟩ := takeWhile_append_of_ends (p := (! isSpace ·)) (w := s.toList) (r := r)
    (fun c hc => by simp [h₃ c hc]) (fun c hc => by simp [hr c hc])
  generalize hs : s.toList = w at *
  cases w with
  | nil => exact absurd rfl h₁
  | cons c w =>
    rw [List.cons_append] at h₄ h₅
    simp only [takeWord?, List.cons_append, h₂ c rfl, h₃ c (by simp), h₄, h₅, Bool.or_self,
      Bool.false_eq_true, if_false, Option.some.injEq, Prod.mk.injEq, and_true]
    rw [← hs, String.ofList_toList]

/-- What is read as a word is one, and what is left cannot extend it. -/
theorem eq_of_takeWord? {cs r : List Char} {s : String} (h : takeWord? cs = some (s, r)) :
    IsWord s ∧ EndsWord r ∧ cs = s.toList ++ r := by
  cases cs with
  | nil => simp [takeWord?] at h
  | cons c cs =>
    simp only [takeWord?] at h
    split at h
    · contradiction
    · next hc =>
      simp only [Bool.or_eq_true, not_or, Bool.not_eq_true] at hc
      simp only [Option.some.injEq, Prod.mk.injEq] at h
      obtain ⟨rfl, rfl⟩ := h
      refine ⟨⟨?_, ?_, ?_⟩, ?_, ?_⟩
      · simp [hc.2]
      · simp [hc.1, hc.2]
      · intro d hd
        rw [String.toList_ofList] at hd
        simpa using List.all_eq_true.1 (List.all_takeWhile (p := (! isSpace ·))) d hd
      · intro d hd
        have h₃ := List.head?_dropWhile_not (! isSpace ·) (c :: cs)
        rw [Option.mem_def.1 hd] at h₃
        simpa using h₃
      · rw [String.toList_ofList, List.takeWhile_append_dropWhile]

/-! ## Tokens -/

/-- The text starts with no symbol, so that an operation token in front of it is a word. -/
def startsWithWord : List Char → Bool
  | '=' :: _ => false
  | '<' :: _ => false
  | '>' :: _ => false
  | '!' :: '=' :: _ => false
  | _ => true

/-- The symbols that are read as operation tokens. -/
def symbols : List String :=
  ["=>", "=<", "=", "!=", "<>", "<", ">"]

theorem takeOperation?_of_startsWithWord {cs : List Char} (h₁ : Text.hasTwoUnits cs = true)
    (h₂ : startsWithWord cs = true) : takeOperation? cs = takeWord? cs := by
  unfold takeOperation?
  rw [h₁]
  unfold startsWithWord at h₂
  split at h₂
  · contradiction
  · contradiction
  · contradiction
  · contradiction
  · next h₃ h₄ h₅ h₆ =>
    simp only [Bool.not_true, Bool.false_eq_true, if_false]
    split <;> first | rfl | simp_all

theorem takeOperation?_cases {cs r : List Char} {word : String}
    (h : takeOperation? cs = some (word, r)) :
    word ∈ symbols ∨ startsWithWord cs = true ∧ takeWord? cs = some (word, r) := by
  cases h₁ : startsWithWord cs with
  | true =>
    cases h₂ : Text.hasTwoUnits cs with
    | true =>
      rw [takeOperation?_of_startsWithWord h₂ h₁] at h
      exact .inr ⟨rfl, h⟩
    | false => simp [takeOperation?, h₂] at h
  | false =>
    left
    unfold takeOperation? at h
    split at h
    · contradiction
    · split at h
      all_goals try
        simp only [Option.some.injEq, Prod.mk.injEq] at h
        simp [symbols, ← h.1]
      -- the case of a word is left, and no pattern of a symbol fits
      unfold startsWithWord at h₁
      split at h₁ <;> simp_all

theorem skipSpaces_of_takeOperation? {cs r : List Char} {word : String}
    (h : takeOperation? cs = some (word, r)) : skipSpaces cs = cs := by
  cases cs with
  | nil => rfl
  | cons c cs =>
    cases hc : isSpace c with
    | false => exact skipSpaces_cons_of_not_isSpace hc cs
    | true =>
      rcases isSpace_eq_true.1 hc with rfl | rfl | rfl | rfl <;>
        simp [takeOperation?, takeWord?, hc] at h

/-! ## Readable operations -/

/-- The token of the operation, with a space after it, is neither taken for what ends a bare key nor
read as another operation. -/
structure ReadableOperation (op : Operation) : Prop where
  notBare : ∀ r, endsBareKey (op.token.toList ++ ' ' :: r) = false
  taken : ∀ r, ∃ word, takeOperation? (op.token.toList ++ ' ' :: r) = some (word, ' ' :: r) ∧
    isPattern word = false ∧ Operation.ofToken word = op

theorem takeOperation?_word {s : String} (h₁ : IsWord s) {r : List Char}
    (h₂ : startsWithWord (s.toList ++ ' ' :: r) = true) :
    takeOperation? (s.toList ++ ' ' :: r) = some (s, ' ' :: r) := by
  have h₃ : Text.hasTwoUnits (s.toList ++ ' ' :: r) = true := by
    match h₄ : s.toList with
    | [] => exact absurd h₄ h₁.ne_nil
    | [c] => rfl
    | c :: d :: t => rfl
  rw [takeOperation?_of_startsWithWord h₃ h₂, takeWord?_append h₁ (endsWord_space_cons r)]

theorem startsWithWord_append {w r : List Char} (hw : w ≠ []) (h : startsWithWord (w ++ r) = true)
    (rest : List Char) : startsWithWord (w ++ ' ' :: rest) = true := by
  match w with
  | [] => contradiction
  | [c] =>
    unfold startsWithWord
    split <;> simp_all [startsWithWord]
  | c :: d :: w =>
    unfold startsWithWord
    split <;> simp_all [startsWithWord]

theorem readable_known (r : Relation) : ReadableOperation (.known r) := by
  constructor
  · intro rest
    cases r <;>
      simp [Operation.token, Relation.token, endsBareKey, startsWithKeyword, stripKeyword?, strip?,
        startsWith]
  · intro rest
    have h := Operation.ofToken_token r
    cases r with
    | isIn | like | caseInsensitiveLike | sqlLike | sqlCaseInsensitiveLike =>
      exact ⟨_, takeOperation?_word ⟨by decide, by decide, by decide⟩ rfl, rfl, h⟩
    | _ => exact ⟨_, rfl, rfl, h⟩

theorem endsBareKey_append {w r : List Char} (hw : w ≠ []) (hr : EndsName r) :
    endsBareKey (w ++ r) = endsBareKey w := by
  cases w with
  | nil => contradiction
  | cons c w =>
    have h₁ : startsWith ")" (c :: w ++ r) = startsWith ")" (c :: w) := by
      simp [startsWith, strip?]
      split <;> rfl
    rw [endsBareKey, endsBareKey, h₁, startsWithKeyword_append (by decide) _ hr,
      startsWithKeyword_append (by decide) _ hr]
    rfl

/-- Whatever starts with a word and ends a key no more than the word does is readable. -/
theorem readable_other {s : String} (h₁ : IsWord s) (h₂ : isPattern s = false)
    (h₃ : Operation.ofToken s = .other s) {r : List Char} (h₄ : EndsWord r)
    (h₅ : startsWithWord (s.toList ++ r) = true) (h₆ : endsBareKey (s.toList ++ r) = false) :
    ReadableOperation (.other s) := by
  refine ⟨fun rest => ?_, fun rest => ⟨s, ?_, h₂, h₃⟩⟩
  · rw [endsBareKey_append h₁.ne_nil h₄.endsName] at h₆
    rw [Operation.token, endsBareKey_append h₁.ne_nil (endsWord_space_cons rest).endsName, h₆]
  · exact takeOperation?_word h₁ (startsWithWord_append h₁.ne_nil h₅ rest)

/-- The one symbol that names no known relation is readable. -/
theorem readable_unequal : ReadableOperation (.other "<>") :=
  ⟨fun r => by simp [Operation.token, endsBareKey, startsWithKeyword, stripKeyword?, strip?,
    startsWith], fun _ => ⟨"<>", rfl, rfl, by decide⟩⟩

theorem ofToken_symbol {word : String} (h : word ∈ symbols) :
    (∃ r, Operation.ofToken word = .known r) ∨ word = "<>" := by
  simp only [symbols, List.mem_cons, List.not_mem_nil, or_false] at h
  rcases h with rfl | rfl | rfl | rfl | rfl | rfl | rfl
  case inr.inr.inr.inr.inl => exact .inr rfl
  all_goals exact .inl ⟨_, rfl⟩

theorem eq_of_ofToken_eq_other {word token : String} (h : Operation.ofToken word = .other token) :
    word = token := by
  unfold Operation.ofToken at h
  split at h
  · contradiction
  · exact Operation.other.inj h

/-- Every operation that a clause is read with is readable. -/
theorem readable_of_takeOperation? {cs r : List Char} {word : String}
    (h₁ : takeOperation? cs = some (word, r)) (h₂ : endsBareKey cs = false)
    (h₃ : isPattern word = false) : ReadableOperation (.ofToken word) := by
  cases h : Operation.ofToken word with
  | known k => exact readable_known k
  | other token =>
    obtain rfl := eq_of_ofToken_eq_other h
    rcases takeOperation?_cases h₁ with hs | ⟨h₄, h₅⟩
    · rcases ofToken_symbol hs with ⟨k, hk⟩ | rfl
      · rw [hk] at h
        contradiction
      · exact readable_unequal
    · obtain ⟨h₆, h₇, rfl⟩ := eq_of_takeWord? h₅
      exact readable_other h₆ h₃ h h₇ h₄ h₂

end RecordQuery.Format
