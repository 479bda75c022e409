import RecordQuery.LikePattern
import RecordQuery.Proofs.Regex

/-!
# The language of like patterns

`LikePattern.Splits` says without regular expressions what a pattern matches: the text splits into
one part for each character of the pattern, in their order.

* `compile?_eq`: the source of a pattern is well formed, and its terms are those of the pattern;
* `accepts_iff_splits`: the expression accepts exactly the texts that split.
-/

namespace RecordQuery.LikePattern

/-! ## The language -/

/-- A character of a text stands for one of a pattern. -/
def Alike (ignoreCase : Bool) (c d : Char) : Prop :=
  if ignoreCase then Text.foldCase c = Text.foldCase d else c = d

section Splits

variable {alike alike' : Char → Char → Prop} {c : Char} {part pattern text : List Char}

/-- A character of a pattern takes a part of the text. -/
def Takes (alike : Char → Char → Prop) (c : Char) (part : List Char) : Prop :=
  if c = '*' then True
  else if c = '?' then part.length = 1
  else ∃ d, part = [d] ∧ alike c d

/-- The text splits into parts that the characters of the pattern take one by one. -/
def Splits (alike : Char → Char → Prop) (pattern text : List Char) : Prop :=
  ∃ parts : List (List Char), parts.flatten = text ∧ List.Forall₂ (Takes alike) pattern parts

theorem Takes.mono (h : ∀ c d, alike c d → alike' c d) (ht : Takes alike c part) :
    Takes alike' c part := by
  unfold Takes at ht ⊢
  split_ifs with h₁ h₂
  · rwa [if_neg h₁, if_pos h₂] at ht
  · rw [if_neg h₁, if_neg h₂] at ht
    obtain ⟨d, hd, ha⟩ := ht
    exact ⟨d, hd, h c d ha⟩

theorem Splits.mono (h : ∀ c d, alike c d → alike' c d) (hs : Splits alike pattern text) :
    Splits alike' pattern text := by
  obtain ⟨parts, hp, ht⟩ := hs
  exact ⟨parts, hp, ht.imp fun _ _ => Takes.mono h⟩

theorem splits_nil : Splits alike [] text ↔ text = [] := by
  simp [Splits, eq_comm]

theorem splits_cons :
    Splits alike (c :: pattern) text ↔
      ∃ part rest, text = part ++ rest ∧ Takes alike c part ∧ Splits alike pattern rest := by
  constructor
  · rintro ⟨parts, rfl, hp⟩
    obtain ⟨part, parts, ht, hp', rfl⟩ := List.forall₂_cons_left_iff.1 hp
    exact ⟨part, parts.flatten, rfl, ht, parts, rfl, hp'⟩
  · rintro ⟨part, rest, rfl, ht, parts, rfl, hp⟩
    exact ⟨part :: parts, rfl, .cons ht hp⟩

end Splits

/-! ## The terms of a pattern -/

/-- Any character. -/
def anyChar : Regex.Atom :=
  .oneOf [.blank, .nonBlank]

/-- The term that a character of a pattern becomes. -/
def pieceTerm (c : Char) : Regex.Term :=
  if c = '*' then .repeated anyChar else if c = '?' then .once anyChar else .once (.char c)

theorem mem_escaped {c : Char} : c ∈ escaped ↔ c ∈ Regex.syntaxChars ∨ c = '/' := by
  rw [show escaped = Regex.syntaxChars ++ ['/'] from rfl, List.mem_append, List.mem_singleton]

/-- Nothing that is written for a character of a pattern can be read as the star of the term before
it. -/
theorem pieceSource_eq_cons (c : Char) : ∃ d ds, pieceSource c = d :: ds ∧ d ≠ '*' := by
  unfold pieceSource Text.escape
  split_ifs with h₁ h₂ h₃
  · exact ⟨'[', _, rfl, by decide⟩
  · exact ⟨'[', _, rfl, by decide⟩
  · exact ⟨Text.backslash, _, rfl, by decide⟩
  · exact ⟨c, _, rfl, h₁⟩

theorem head?_pieceSources_ne (cs : List Char) :
    (cs.flatMap pieceSource ++ ['$']).head? ≠ some '*' := by
  cases cs with
  | nil => decide
  | cons c cs =>
    obtain ⟨d, ds, hd, hne⟩ := pieceSource_eq_cons c
    simpa [List.flatMap_cons, hd] using hne

/-- A character is read back as itself. -/
theorem takeTerm?_escape (c : Char) {rest : List Char} (h : rest.head? ≠ some '*') :
    Regex.takeTerm? (Text.escape escaped.contains [c] ++ rest) =
      some (.once (.char c), rest) := by
  by_cases hc : c ∈ escaped
  · have h₁ : Text.escape escaped.contains [c] = [Text.backslash, c] := by simp [Text.escape, hc]
    have h₂ : Regex.takeAtom? (Text.backslash :: c :: rest) = some (.char c, rest) :=
      if_pos (mem_escaped.1 hc)
    rw [h₁]
    change (Regex.takeAtom? (Text.backslash :: c :: rest)).map _ = _
    rw [h₂, Option.map_some, Regex.takeStar_of_ne _ h]
  · have h₁ : Text.escape escaped.contains [c] = [c] := by simp [Text.escape, hc]
    have h₂ : c ∉ Regex.syntaxChars := fun hs => hc (mem_escaped.2 (.inl hs))
    have h₃ : ∀ d ∈ Regex.syntaxChars, c ≠ d := fun d hd he => h₂ (he ▸ hd)
    have h₄ : Regex.takeAtom? (c :: rest) = some (.char c, rest) := by
      rw [Regex.takeAtom?, if_neg (h₃ _ (by decide)), if_neg (h₃ _ (by decide)), if_neg h₂]
    rw [h₁, List.singleton_append, Regex.takeTerm?, if_neg (h₃ _ (by decide)),
      if_neg (h₃ _ (by decide)), h₄, Option.map_some, Regex.takeStar_of_ne _ h]

theorem takeTerm?_pieceSource (c : Char) {rest : List Char} (h : rest.head? ≠ some '*') :
    Regex.takeTerm? (pieceSource c ++ rest) = some (pieceTerm c, rest) := by
  unfold pieceSource pieceTerm
  split_ifs with h₁ h₂
  · rfl
  · have h₃ : Regex.takeTerm? ("[\\s\\S]".toList ++ rest) = some (Regex.takeStar anyChar rest) :=
      rfl
    rw [h₃, Regex.takeStar_of_ne _ h]
  · exact takeTerm?_escape c h

theorem parse?_pieceSources (cs : List Char) :
    Regex.parse? (cs.flatMap pieceSource ++ ['$']) = some (cs.map pieceTerm ++ [.stop]) := by
  induction cs with
  | nil =>
    have h₁ : Regex.takeTerm? ['$'] = some (.stop, []) := rfl
    exact (Regex.parse?_of_takeTerm? h₁).trans (congrArg _ Regex.parse?_nil)
  | cons c cs ih =>
    rw [List.flatMap_cons, List.append_assoc,
      Regex.parse?_of_takeTerm? (takeTerm?_pieceSource c (head?_pieceSources_ne cs)), ih]
    rfl

/-- The source of a pattern is well formed, and its terms are those of the pattern. -/
theorem compile?_eq (pattern : String) (ignoreCase : Bool) :
    compile? pattern ignoreCase =
      some ⟨.start :: (pattern.toList.map pieceTerm ++ [.stop]), ignoreCase⟩ := by
  have h₁ : Regex.takeTerm? (source pattern).toList =
      some (.start, pattern.toList.flatMap pieceSource ++ ['$']) := by
    rw [source, String.toList_ofList]
    rfl
  rw [compile?, Regex.compile?, Regex.parse?_of_takeTerm? h₁, parse?_pieceSources]
  rfl

/-! ## Accepted texts -/

section Accepted

variable {ignoreCase : Bool} {text cs rest : List Char}

theorem takes_anyChar (d : Char) : anyChar.takes ignoreCase d = true := by
  simp only [anyChar, Regex.Atom.takes, List.any_cons, List.any_nil, Regex.CharClass.holds,
    Bool.or_false, Bool.or_not_self]

theorem takes_char {c d : Char} :
    (Regex.Atom.char c).takes ignoreCase d = true ↔ Alike ignoreCase c d := by
  cases ignoreCase with
  | false => exact beq_iff_eq
  | true => exact beq_iff_eq

/-- The term of a character of a pattern matches what the character takes. -/
theorem matches_pieceTerm {c : Char} {ts : List Regex.Term} :
    Regex.Matches ignoreCase text (pieceTerm c :: ts) cs rest ↔
      ∃ part cs', cs = part ++ cs' ∧ Takes (Alike ignoreCase) c part ∧
        Regex.Matches ignoreCase text ts cs' rest := by
  unfold pieceTerm Takes
  split_ifs with h₁ h₂
  · simp [Regex.matches_repeated, takes_anyChar]
  · rw [Regex.matches_once]
    constructor
    · rintro ⟨d, cs', rfl, -, h⟩
      exact ⟨[d], cs', rfl, rfl, h⟩
    · rintro ⟨part, cs', rfl, ht, h⟩
      obtain ⟨d, rfl⟩ := List.length_eq_one_iff.1 ht
      exact ⟨d, cs', rfl, takes_anyChar d, h⟩
  · rw [Regex.matches_once]
    constructor
    · rintro ⟨d, cs', rfl, hd, h⟩
      exact ⟨[d], cs', rfl, ⟨d, rfl, takes_char.1 hd⟩, h⟩
    · rintro ⟨part, cs', rfl, ⟨d, rfl, hd⟩, h⟩
      exact ⟨d, cs', rfl, takes_char.2 hd, h⟩

theorem matches_pieces {pattern : List Char} :
    (∃ rest, Regex.Matches ignoreCase text (pattern.map pieceTerm ++ [.stop]) cs rest) ↔
      Splits (Alike ignoreCase) pattern cs := by
  induction pattern generalizing cs with
  | nil => simp [splits_nil, Regex.matches_stop, Regex.matches_nil]
  | cons c pattern ih =>
    simp only [List.map_cons, List.cons_append, matches_pieceTerm, splits_cons, ← ih]
    constructor
    · rintro ⟨rest, part, cs', he, ht, h⟩
      exact ⟨part, cs', he, ht, rest, h⟩
    · rintro ⟨part, cs', he, ht, rest, h⟩
      exact ⟨rest, part, cs', he, ht, h⟩

end Accepted

theorem accepts_iff (pattern text : String) (ignoreCase : Bool) :
    accepts pattern ignoreCase text = true ↔
      Splits (Alike ignoreCase) pattern.toList text.toList := by
  rw [accepts, compile?_eq, Option.any_some, Regex.test_eq_true_iff, ← matches_pieces]
  simp only [Regex.matches_start]
  constructor
  · rintro ⟨cs, -, rest, rfl, h⟩
    exact ⟨rest, h⟩
  · rintro ⟨rest, h⟩
    exact ⟨text.toList, List.suffix_rfl, rest, rfl, h⟩

/-- A pattern compiles whatever its characters are, and accepts exactly the texts that split into
one part for each of them in turn: a star takes any run, a question mark any one character, and
every other character itself, or what has the same case folding if case does not count. So case
counts only against a text. -/
theorem accepts_iff_splits (pattern text : String) :
    (∀ ignoreCase, (compile? pattern ignoreCase).isSome) ∧
    (accepts pattern false text = true ↔
      Splits (fun c d => c = d) pattern.toList text.toList) ∧
    (accepts pattern true text = true ↔
      Splits (fun c d => Text.foldCase c = Text.foldCase d) pattern.toList text.toList) ∧
    (accepts pattern false text = true → accepts pattern true text = true) := by
  refine ⟨fun ignoreCase => by rw [compile?_eq]; rfl, accepts_iff pattern text false,
    accepts_iff pattern text true, fun h => ?_⟩
  rw [accepts_iff] at h ⊢
  exact h.mono fun c d he => congrArg Text.foldCase he

theorem accepts_iff_splits_duck :
    accepts "*a?🦆.*" false "b\na😀🦆.c." = true ∧ accepts "*a?🦆.*" true "b\na😀🦆.c." = true := by
  obtain ⟨-, h₁, -, h₂⟩ := accepts_iff_splits "*a?🦆.*" "b\na😀🦆.c."
  have h₃ : accepts "*a?🦆.*" false "b\na😀🦆.c." = true :=
    h₁.2 ⟨[['b', '\n'], ['a'], ['😀'], ['🦆'], ['.'], ['c', '.']], by decide, by simp [Takes]⟩
  exact ⟨h₃, h₂ h₃⟩

end RecordQuery.LikePattern
