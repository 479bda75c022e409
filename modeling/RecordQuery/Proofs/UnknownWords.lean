import Mathlib.Data.List.SplitBy
import RecordQuery.Proofs.RoundTrip

/-!
# Words that are no connectives

A row of written comparisons with words between them, of which some may be neither AND nor OR. A run
of equal words makes one compound, or is lost with all that was read before if the word is unknown.
The run after it starts anew, so that the row still amounts to a qualifier unless the last run is
lost: `parse_wordRow`. The first unknown word is reported in any case.
-/

namespace RecordQuery

open Format

/-- The word is one that joins qualifiers. -/
def isConnectiveWord (word : String) : Bool :=
  word == "AND" || word == "OR"

/-- The complaint about a word that joins nothing. -/
def unknownConnective (word : String) : LogEntry :=
  .error ("unknown compound operator: " ++ word) []

/-! ## What a row amounts to -/

/-- What a row amounts to if a qualifier and further ones, each after a word, follow the parts that
are pending after the last word. -/
def rowValue (last : Option String) (parts : List Qualifier) (q : Qualifier) :
    List (String × Qualifier) → Logged (Option Qualifier)
  | [] => buildCompound (last.getD "AND") (parts ++ [q])
  | (word, p) :: links =>
    (foldRow last word (parts ++ [q])).bind fun pending => rowValue (some word) pending p links

theorem buildCompound_unknown {word : String} (h : isConnectiveWord word = false)
    {parts : List Qualifier} (hp : parts ≠ []) (q : Qualifier) :
    buildCompound word (parts ++ [q]) = .noting (unknownConnective word) none := by
  simp only [isConnectiveWord, Bool.or_eq_false_iff, beq_eq_false_iff_ne] at h
  match parts with
  | [] => contradiction
  | [p] => simp [buildCompound, h.1, h.2, unknownConnective]
  | p :: p' :: parts => simp [buildCompound, h.1, h.2, unknownConnective]

theorem exists_buildCompound {word : String} (h : isConnectiveWord word = true)
    (parts : List Qualifier) (q : Qualifier) :
    ∃ r, buildCompound word (parts ++ [q]) = .quiet (some r) := by
  by_cases hp : parts = []
  · subst hp
    exact ⟨q, rfl⟩
  · simp only [isConnectiveWord, Bool.or_eq_true, beq_iff_eq] at h
    rcases h with rfl | rfl
    · exact ⟨_, buildCompound_word .and hp q⟩
    · exact ⟨_, buildCompound_word .or hp q⟩

/-- No parts are lost at a word after words that are connectives. -/
theorem exists_foldRow {last : Option String} (h : ∀ w ∈ last, isConnectiveWord w = true)
    (parts : List Qualifier) (q : Qualifier) (word : String) :
    ∃ pending, pending ≠ [] ∧ foldRow last word (parts ++ [q]) = .quiet pending := by
  have h₁ : parts ++ [q] ≠ [] := by simp
  cases last with
  | none => exact ⟨_, h₁, rfl⟩
  | some w =>
    by_cases hw : w = word
    · exact ⟨_, h₁, by simp [foldRow, hw]⟩
    · obtain ⟨r, h₂⟩ := exists_buildCompound (h w rfl) parts q
      exact ⟨[r], by simp, by simp [foldRow, hw, h₂, Logged.map, Logged.quiet]⟩

/-! ## Complaints -/

/-- Once an unknown word has something to join, it is reported before anything else. -/
theorem head?_log_rowValue_unknown {word : String} (h : isConnectiveWord word = false)
    {parts : List Qualifier} (hp : parts ≠ []) (q : Qualifier)
    (links : List (String × Qualifier)) :
    (rowValue (some word) parts q links).log.head? = some (unknownConnective word) := by
  induction links generalizing parts q with
  | nil => simp [rowValue, buildCompound_unknown h hp]
  | cons l links ih =>
    obtain ⟨w, p⟩ := l
    by_cases hw : word = w
    · subst hw
      have h₁ : parts ++ [q] ≠ [] := by simp
      simpa [rowValue, foldRow] using ih h₁ p
    · simp [rowValue, foldRow, hw, buildCompound_unknown h hp]

/-- The first entry is the complaint about the first unknown word. -/
theorem head?_log_rowValue {last : Option String} (h : ∀ w ∈ last, isConnectiveWord w = true)
    (parts : List Qualifier) (q : Qualifier) (links : List (String × Qualifier)) :
    (rowValue last parts q links).log.head? =
      ((links.map (·.1)).find? fun w => !isConnectiveWord w).map unknownConnective := by
  induction links generalizing last parts q with
  | nil =>
    have h₁ : isConnectiveWord (last.getD "AND") = true := by
      cases last with
      | none => rfl
      | some w => exact h w rfl
    obtain ⟨r, h₂⟩ := exists_buildCompound h₁ parts q
    simp [rowValue, h₂]
  | cons l links ih =>
    obtain ⟨w, p⟩ := l
    obtain ⟨pending, h₁, h₂⟩ := exists_foldRow h parts q w
    rw [rowValue, h₂, Logged.log_bind, Logged.log_quiet, List.nil_append, Logged.value_quiet,
      List.map_cons]
    cases hw : isConnectiveWord w with
    | true =>
      rw [List.find?_cons_of_neg (by simp [hw])]
      exact ih (by simpa using hw) pending p
    | false =>
      rw [List.find?_cons_of_pos (by simp [hw]), head?_log_rowValue_unknown hw h₁]
      rfl

/-! ## Lost runs -/

/-- A run of a word is lost if the word is unknown and there are at least two qualifiers that it
would join. -/
def isLost (word : String) (count : Nat) : Bool :=
  !isConnectiveWord word && decide (1 < count)

/-- Whether a run is lost, given whether the run before it was: each of its words brings one
qualifier, and what was read before the run is another one unless it was lost. -/
def losesRun (lost : Bool) (run : List String) : Bool :=
  run.head?.any fun word => isLost word (run.length + if lost then 0 else 1)

/-- The last run of equal words is lost. -/
def losesLast (words : List String) : Bool :=
  (words.splitBy (· == ·)).foldl losesRun false

/-- Whether the last run is lost if words follow one that has `count` qualifiers to join by now. -/
def losesLastFrom (word : String) (count : Nat) : List String → Bool
  | [] => isLost word count
  | w :: words =>
    if word = w then losesLastFrom word (count + 1) words
    else losesLastFrom w (1 + if isLost word count then 0 else 1) words

theorem value_buildCompound_eq_none_iff (word : String) (parts : List Qualifier) (q : Qualifier) :
    (buildCompound word (parts ++ [q])).value = none ↔ isLost word (parts.length + 1) = true := by
  cases hw : isConnectiveWord word with
  | true =>
    obtain ⟨r, h⟩ := exists_buildCompound hw parts q
    simp [h, isLost, hw]
  | false =>
    by_cases hp : parts = []
    · simp [hp, buildCompound, isLost]
    · simp [buildCompound_unknown hw hp, isLost, hw, List.length_pos_iff, hp]

/-- The row has no value exactly if its last run is lost. -/
theorem value_rowValue_eq_none_iff (word : String) (parts : List Qualifier) (q : Qualifier)
    (links : List (String × Qualifier)) :
    (rowValue (some word) parts q links).value = none ↔
      losesLastFrom word (parts.length + 1) (links.map (·.1)) = true := by
  induction links generalizing word parts q with
  | nil => exact value_buildCompound_eq_none_iff word parts q
  | cons l links ih =>
    obtain ⟨w, p⟩ := l
    rw [rowValue, Logged.value_bind, ih, List.map_cons, losesLastFrom]
    by_cases hw : word = w
    · simp [foldRow, hw]
    · have h₁ := value_buildCompound_eq_none_iff word parts q
      cases h₂ : (buildCompound word (parts ++ [q])).value with
      | none =>
        have h₃ := h₁.1 h₂
        simp [foldRow, hw, h₂, h₃]
      | some r =>
        have h₃ : isLost word (parts.length + 1) = false := by
          rw [← Bool.not_eq_true, ← h₁, h₂]
          simp
        simp [foldRow, hw, h₂, h₃]

theorem losesRun_replicate {n : Nat} (hn : 0 < n) (word : String) (lost : Bool) :
    losesRun lost (List.replicate n word) = isLost word (n + if lost then 0 else 1) := by
  obtain ⟨n, rfl⟩ : ∃ m, n = m + 1 := ⟨n - 1, by omega⟩
  simp [losesRun, List.replicate_succ]

theorem splitBy_replicate {n : Nat} (hn : 0 < n) (word : String) :
    (List.replicate n word).splitBy (· == ·) = [List.replicate n word] := by
  refine List.splitBy_of_isChain (by simp; omega) ?_
  exact List.isChain_replicate_of_rel n (by simp)

/-- Counting the words one by one finds the runs. -/
theorem losesLastFrom_eq_foldl (word : String) (lost : Bool) {n : Nat} (hn : 0 < n)
    (words : List String) :
    losesLastFrom word (n + if lost then 0 else 1) words =
      ((List.replicate n word ++ words).splitBy (· == ·)).foldl losesRun lost := by
  -- The words that were counted are the open run. An equal word goes on with it, another one ends it
  -- and opens the next run, for which the ended one has been decided.
  induction words generalizing word lost n with
  | nil =>
    rw [List.append_nil, splitBy_replicate hn, List.foldl_cons, losesRun_replicate hn]
    rfl
  | cons w words ih =>
    rw [losesLastFrom]
    by_cases hw : word = w
    · subst hw
      have h₁ := ih word lost (n := n + 1) (by omega)
      have h₂ : List.replicate n word ++ word :: words = List.replicate (n + 1) word ++ words := by
        rw [List.replicate_succ', List.append_assoc]
        rfl
      rw [if_pos rfl, h₂, ← h₁]
      congr 1
      omega
    · have h₁ := ih w (isLost word (n + if lost then 0 else 1)) Nat.one_pos
      have h₂ : ∀ v ∈ (List.replicate n word).getLast?, (v == w) = false := by
        intro v hv
        obtain rfl := List.eq_of_mem_replicate (List.mem_of_getLast? hv)
        simpa using hw
      rw [List.replicate_one, List.singleton_append] at h₁
      rw [if_neg hw, List.splitBy_append_cons _ h₂, List.foldl_append, splitBy_replicate hn,
        List.foldl_cons, losesRun_replicate hn, List.foldl_nil, h₁]

/-- A row has no value exactly if its last run is lost. -/
theorem value_rowValue_none_eq_none_iff (q : Qualifier) (links : List (String × Qualifier)) :
    (rowValue none [] q links).value = none ↔ losesLast (links.map (·.1)) = true := by
  cases links with
  | nil => simp [rowValue, buildCompound, losesLast]
  | cons l links =>
    obtain ⟨w, p⟩ := l
    have h₁ := losesLastFrom_eq_foldl w false Nat.one_pos (links.map (·.1))
    rw [List.replicate_one, List.singleton_append] at h₁
    rw [rowValue, Logged.value_bind, value_rowValue_eq_none_iff, losesLast, List.map_cons, ← h₁]
    rfl

/-! ## Rows as texts -/

/-- A comparison of a readable key with a readable operand. -/
inductive IsClause : Qualifier → Prop
  | intro {key : String} {r : Relation} {v : Operand} (h₁ : ReadableKey key)
      (h₂ : ReadableOperand v) : IsClause (.keyValue (.ofText key) (.known r) v)

/-- A word of basic Latin letters. -/
structure IsLetters (word : String) : Prop where
  notEmpty : word ≠ ""
  letters : ∀ c ∈ word.toList, c.isAlpha = true

theorem IsLetters.isPattern_eq_false {word : String} (h : IsLetters word) :
    isPattern word = false := by
  unfold isPattern
  split
  · next h₁ => exact absurd (h.letters '%' (by simp [h₁])) (by decide)
  · rfl

/-- A comparison is read whatever follows it after a space. -/
theorem IsClause.oneQualifier {q : Qualifier} (h : IsClause q) (size n : Nat) {rest : List Char}
    (hr : EndsWord rest) (args : List Value) :
    oneQualifier size (n + 1) ⟨q.text.toList ++ rest, args⟩ = .ok q.reread ⟨rest, args⟩ := by
  obtain @⟨key, r, v, h₁, h₂⟩ := h
  obtain ⟨t, h₃⟩ := exists_text_keyValue (.ofText key) (.known r) v
  have h₄ : LeftName (Key.ofText key).text := by
    rw [Key.text_ofText]
    exact h₁.leftName
  rw [← clause_keyValue args size h₄ (readable_known r) h₂.legible hr.endsLiteral hr.endsName, h₃,
    List.append_assoc, List.cons_append]
  exact oneQualifier_clause size n h₄.toOpensClause (endsWord_space_cons _).endsName

theorem IsClause.opens {q : Qualifier} (h : IsClause q) : Opens q.text.toList := by
  obtain @⟨key, r, v, h₁, h₂⟩ := h
  exact (Readable.keyValue h₁ h₂).legible.renders.row.opens

/-- A further qualifier of a row after its word, as it is written with single spaces. -/
def wordLink (l : String × Qualifier) : List Char :=
  ' ' :: (l.1.toList ++ ' ' :: l.2.text.toList)

/-- A row of qualifiers with words between them, as it is written with single spaces. -/
def wordRow (q : Qualifier) (links : List (String × Qualifier)) : String :=
  .ofList (q.text.toList ++ links.flatMap wordLink)

/-- The further qualifiers of a row, each as its written form is read. -/
def rereadWords (links : List (String × Qualifier)) : List (String × Qualifier) :=
  links.map fun l => (l.1, l.2.reread)

theorem endsWord_wordLinks (links : List (String × Qualifier)) :
    EndsWord (links.flatMap wordLink) := by
  cases links with
  | nil => exact endsWord_nil
  | cons l links => exact endsWord_space_cons _

/-- A row of comparisons is read from any state of the loop. -/
theorem row_wordLinks {q : Qualifier} (hq : IsClause q) {links : List (String × Qualifier)}
    (hl : ∀ l ∈ links, IsLetters l.1 ∧ IsClause l.2) (size : Nat) {n : Nat}
    (hn : links.length + 2 ≤ n) (last : Option String) (parts : List Qualifier)
    (args : List Value) :
    row size n last parts ⟨q.text.toList ++ links.flatMap wordLink, args⟩ =
      ⟨(rowValue last parts q.reread (rereadWords links)).log,
        (rowValue last parts q.reread (rereadWords links)).value.map fun p => (p, ⟨[], args⟩),
        false⟩ := by
  induction links generalizing q n last parts with
  | nil =>
    obtain ⟨n, rfl⟩ : ∃ m, n = m + 2 := ⟨n - 2, by omega⟩
    have h₁ := hq.oneQualifier size n endsWord_nil args
    simp only [row, List.flatMap_nil, h₁]
    rfl
  | cons l links ih =>
    obtain ⟨word, p⟩ := l
    obtain ⟨⟨hw, hp⟩, hl⟩ := List.forall_mem_cons.1 hl
    obtain ⟨n, rfl⟩ : ∃ m, n = m + 2 := ⟨n - 2, by omega⟩
    have hs : [' '] ≠ [] ∧ ∀ s ∈ [' '], isSpace s = true := by decide
    have h₁ : oneQualifier size (n + 1)
        ⟨q.text.toList ++ ((word, p) :: links).flatMap wordLink, args⟩ =
          .ok q.reread ⟨[' '] ++ (word.toList ++ ([' '] ++ (p.text.toList ++
            links.flatMap wordLink))), args⟩ := by
      rw [hq.oneQualifier size n (endsWord_wordLinks _) args]
      simp [wordLink]
    have hn' : links.length + 2 ≤ n + 1 := by
      simp only [List.length_cons] at hn
      omega
    rw [row_word size (n + 1) (isName_of_letters hw.notEmpty hw.letters) hw.isPattern_eq_false
      hs.2 hs hp.opens h₁, ih hp hl hn']
    rfl

theorem length_le_wordLinks (links : List (String × Qualifier)) :
    links.length ≤ (links.flatMap wordLink).length := by
  induction links with
  | nil => exact Nat.le_refl 0
  | cons l links ih =>
    rw [List.flatMap_cons, List.length_append, List.length_cons, wordLink, List.length_cons]
    omega

/-- A row of comparisons is parsed as what it amounts to. -/
theorem parse_wordRow_eq_rowValue {q : Qualifier} (hq : IsClause q)
    {links : List (String × Qualifier)} (hl : ∀ l ∈ links, IsLetters l.1 ∧ IsClause l.2) :
    Qualifier.parse (wordRow q links) [] = rowValue none [] q.reread (rereadWords links) := by
  have h₁ : links.length + 2 ≤ stepBound (q.text.toList ++ links.flatMap wordLink) := by
    have h₂ := length_le_wordLinks links
    rw [stepBound, List.length_append]
    omega
  have h₂ := row_wordLinks hq hl (Text.unitCount (q.text.toList ++ links.flatMap wordLink)) h₁
    none [] []
  simp only [Qualifier.parse, Format.read, wordRow, String.toList_ofList, hq.opens.skipSpaces,
    hq.opens.isEmpty, h₂, Bool.false_eq_true, if_false, Option.map_map]
  exact congrArg (Logged.mk · _) (Option.map_id' ..)

theorem map_fst_rereadWords (links : List (String × Qualifier)) :
    (rereadWords links).map (·.1) = links.map (·.1) := by
  simp [rereadWords]

/-- A row of comparisons with words between them has no value exactly if its last run of equal words
is lost. If there is an unknown word, the first one is reported before anything else. -/
theorem parse_wordRow {q : Qualifier} (hq : IsClause q) {links : List (String × Qualifier)}
    (hl : ∀ l ∈ links, IsLetters l.1 ∧ IsClause l.2) :
    ((Qualifier.parse (wordRow q links) []).value = none ↔
        losesLast (links.map (·.1)) = true) ∧
      (Qualifier.parse (wordRow q links) []).log.head? =
        ((links.map (·.1)).find? fun w => !isConnectiveWord w).map unknownConnective := by
  rw [parse_wordRow_eq_rowValue hq hl, value_rowValue_none_eq_none_iff,
    head?_log_rowValue (by simp), map_fst_rereadWords]
  exact ⟨.rfl, rfl⟩

/-- The only run of words is lost. -/
theorem parse_wordRow_last :
    let a : Qualifier := .keyValue (.ofText "a") (.known .equalTo) (.constant (.string "x"))
    let b : Qualifier := .keyValue (.ofText "b") (.known .equalTo) (.constant (.string "y"))
    (IsClause a ∧ ∀ l ∈ [("XOR", b)], IsLetters l.1 ∧ IsClause l.2) ∧
      (Qualifier.parse "a = \x27x\x27 XOR b = \x27y\x27" []).value = none ∧
      (Qualifier.parse "a = \x27x\x27 XOR b = \x27y\x27" []).log.head? =
        some (unknownConnective "XOR") := by
  intro a b
  have ha : ReadableRightKey "a" := .of_letters (by decide) (by decide) (by decide)
  have hb : ReadableRightKey "b" := .of_letters (by decide) (by decide) (by decide)
  have h₁ : IsClause a := .intro ha.toReadableKey rfl
  have h₂ : ∀ l ∈ [("XOR", b)], IsLetters l.1 ∧ IsClause l.2 :=
    List.forall_mem_singleton.2 ⟨⟨by decide, by decide⟩, .intro hb.toReadableKey rfl⟩
  have h₃ : wordRow a [("XOR", b)] = "a = \x27x\x27 XOR b = \x27y\x27" := by
    have ha : a.text = "a = \x27x\x27" := rfl
    have hb : b.text = "b = \x27y\x27" := rfl
    rw [wordRow, List.flatMap_singleton, wordLink, ha, hb]
    decide
  obtain ⟨h₄, h₅⟩ := parse_wordRow h₁ h₂
  rw [h₃] at h₄ h₅
  exact ⟨⟨h₁, h₂⟩, h₄.2 (by decide), h₅⟩

/-- After a lost run a single qualifier stands for the whole row. -/
theorem rowValue_lost {word word' : String} (h : isConnectiveWord word = false)
    (hw : word ≠ word') (a b c : Qualifier) :
    rowValue none [] a [(word, b), (word', c)] = ⟨some c, [unknownConnective word]⟩ := by
  have h₁ : foldRow (some word) word' ([a] ++ [b]) = .noting (unknownConnective word) [] := by
    rw [foldRow, if_neg hw, buildCompound_unknown h (List.cons_ne_nil a [])]
    rfl
  have h₂ : rowValue none [] a [(word, b), (word', c)] =
      (foldRow (some word) word' ([a] ++ [b])).bind
        fun pending => rowValue (some word') pending c [] := rfl
  rw [h₂, h₁]
  rfl

/-- What was read before the last comparison is lost. -/
theorem parse_wordRow_lost :
    let c : Qualifier := .keyValue (.ofText "c") (.known .equalTo) (.constant (.string "z"))
    isConnectiveWord "XOR" = false ∧
      Qualifier.parse "a = \x27x\x27 XOR b = \x27y\x27 AND c = \x27z\x27" [] =
        ⟨some c, [unknownConnective "XOR"]⟩ := by
  intro c
  let a : Qualifier := .keyValue (.ofText "a") (.known .equalTo) (.constant (.string "x"))
  let b : Qualifier := .keyValue (.ofText "b") (.known .equalTo) (.constant (.string "y"))
  have ha : ReadableRightKey "a" := .of_letters (by decide) (by decide) (by decide)
  have hb : ReadableRightKey "b" := .of_letters (by decide) (by decide) (by decide)
  have hc : ReadableRightKey "c" := .of_letters (by decide) (by decide) (by decide)
  have h₁ : IsClause a := .intro ha.toReadableKey rfl
  have h₂ : ∀ l ∈ [("XOR", b), ("AND", c)], IsLetters l.1 ∧ IsClause l.2 :=
    List.forall_mem_cons.2 ⟨⟨⟨by decide, by decide⟩, .intro hb.toReadableKey rfl⟩,
      List.forall_mem_singleton.2 ⟨⟨by decide, by decide⟩, .intro hc.toReadableKey rfl⟩⟩
  have h₃ : wordRow a [("XOR", b), ("AND", c)] =
      "a = \x27x\x27 XOR b = \x27y\x27 AND c = \x27z\x27" := by
    have ha : a.text = "a = \x27x\x27" := rfl
    have hb : b.text = "b = \x27y\x27" := rfl
    have hc : c.text = "c = \x27z\x27" := rfl
    rw [wordRow, List.flatMap_cons, List.flatMap_singleton, wordLink, wordLink, ha, hb, hc]
    decide
  have h₄ : c.reread = c := by
    simp [c, Qualifier.reread, Key.text_ofText, Qualifier.rereadOperation, Operand.reread,
      Constant.reread]
  have h₅ := parse_wordRow_eq_rowValue h₁ h₂
  have h₆ : rereadWords [("XOR", b), ("AND", c)] = [("XOR", b.reread), ("AND", c)] := by
    simp [rereadWords, h₄]
  rw [h₃, h₆, rowValue_lost (by decide) (by decide)] at h₅
  exact ⟨by decide, h₅⟩

end RecordQuery
