import Mathlib.Data.List.Forall2
import Mathlib.Data.List.Infix
import RecordQuery.Regex

/-!
# Matches of regular expressions

`Regex.Matches` says which parts of a text the terms of an expression match, and
`Regex.test_eq_true_iff` that the matcher finds a match exactly if there is one. The matcher marks
the rests of the text; what its marks tell after each term is said in terms of what they told
before (`Regex.Marks`).
-/

namespace RecordQuery.Regex

/-! ## Reading the source -/

theorem takeStar_of_ne (a : Atom) {cs : List Char} (h : cs.head? ≠ some '*') :
    takeStar a cs = (.once a, cs) := by
  cases cs with
  | nil => rfl
  | cons c cs => exact if_neg fun hc => h (congrArg some hc)

theorem parse?_of_takeTerm? {cs rest : List Char} {t : Term}
    (h : takeTerm? cs = some (t, rest)) : parse? cs = (parse? rest).map (t :: ·) := by
  rw [parse?]
  split
  · next t' rest' h' =>
    obtain ⟨rfl, rfl⟩ := Prod.mk.inj (Option.some.inj (h'.symm.trans h))
    rfl
  · next h' => exact absurd (h'.symm.trans h) (by simp)

theorem parse?_nil : parse? [] = some [] := by
  rw [parse?]
  rfl

/-! ## Matches -/

/-- In a text, terms match the part from one of its rests on up to another one. -/
inductive Matches (ignoreCase : Bool) (text : List Char) :
    List Term → List Char → List Char → Prop where
  | nil {rest} : Matches ignoreCase text [] rest rest
  | start {ts rest} (h : Matches ignoreCase text ts text rest) :
      Matches ignoreCase text (.start :: ts) text rest
  | stop {ts rest} (h : Matches ignoreCase text ts [] rest) :
      Matches ignoreCase text (.stop :: ts) [] rest
  | once {a ts c cs rest} (hc : a.takes ignoreCase c = true)
      (h : Matches ignoreCase text ts cs rest) :
      Matches ignoreCase text (.once a :: ts) (c :: cs) rest
  | repeated {a ts run cs rest} (hr : ∀ c ∈ run, a.takes ignoreCase c = true)
      (h : Matches ignoreCase text ts cs rest) :
      Matches ignoreCase text (.repeated a :: ts) (run ++ cs) rest

section Matches

variable {ignoreCase : Bool} {text cs rest : List Char} {a : Atom} {ts : List Term}

theorem matches_nil : Matches ignoreCase text [] cs rest ↔ rest = cs := by
  constructor
  · intro h
    cases h
    rfl
  · rintro rfl
    exact .nil

theorem matches_start :
    Matches ignoreCase text (.start :: ts) cs rest ↔
      cs = text ∧ Matches ignoreCase text ts cs rest := by
  constructor
  · intro h
    cases h with
    | start h => exact ⟨rfl, h⟩
  · rintro ⟨rfl, h⟩
    exact .start h

theorem matches_stop :
    Matches ignoreCase text (.stop :: ts) cs rest ↔
      cs = [] ∧ Matches ignoreCase text ts cs rest := by
  constructor
  · intro h
    cases h with
    | stop h => exact ⟨rfl, h⟩
  · rintro ⟨rfl, h⟩
    exact .stop h

theorem matches_once :
    Matches ignoreCase text (.once a :: ts) cs rest ↔
      ∃ c cs', cs = c :: cs' ∧ a.takes ignoreCase c = true ∧
        Matches ignoreCase text ts cs' rest := by
  constructor
  · intro h
    cases h with
    | once hc h => exact ⟨_, _, rfl, hc, h⟩
  · rintro ⟨c, cs', rfl, hc, h⟩
    exact .once hc h

theorem matches_repeated :
    Matches ignoreCase text (.repeated a :: ts) cs rest ↔
      ∃ run cs', cs = run ++ cs' ∧ (∀ c ∈ run, a.takes ignoreCase c = true) ∧
        Matches ignoreCase text ts cs' rest := by
  constructor
  · intro h
    cases h with
    | repeated hr h => exact ⟨_, _, rfl, hr, h⟩
  · rintro ⟨run, cs', rfl, hr, h⟩
    exact .repeated hr h

end Matches

/-! ## Marks -/

/-- A run that a text begins with is empty, or it takes the first character. -/
theorem exists_run_cons_iff {takes : Char → Bool} {p : List Char → Prop} {c : Char}
    {cs : List Char} :
    (∃ run cs', c :: cs = run ++ cs' ∧ (∀ d ∈ run, takes d = true) ∧ p cs') ↔
      p (c :: cs) ∨
        takes c = true ∧ ∃ run cs', cs = run ++ cs' ∧ (∀ d ∈ run, takes d = true) ∧ p cs' := by
  constructor
  · rintro ⟨run, cs', he, hr, hp⟩
    cases run with
    | nil => exact .inl (he ▸ hp)
    | cons d run =>
      obtain ⟨rfl, rfl⟩ := List.cons.inj he
      exact .inr ⟨hr _ List.mem_cons_self, run, cs', rfl,
        fun e he => hr e (List.mem_cons_of_mem _ he), hp⟩
  · rintro (hp | ⟨hc, run, cs', rfl, hr, hp⟩)
    · exact ⟨[], _, rfl, by simp, hp⟩
    · exact ⟨c :: run, cs', rfl, List.forall_mem_cons.2 ⟨hc, hr⟩, hp⟩

/-- The marks tell which rests of a text have a property, from the whole text down. -/
def Marks (p : List Char → Prop) (text : List Char) (bs : List Bool) : Prop :=
  List.Forall₂ (fun rest b => b = true ↔ p rest) text.tails bs

namespace Marks

variable {p q : List Char → Prop} {text cs : List Char} {c : Char} {bs : List Bool}
  {takes : Char → Bool}

theorem nil_iff : Marks p [] bs ↔ ∃ b, (b = true ↔ p []) ∧ bs = [b] := by
  simp [Marks, List.forall₂_cons_left_iff]

theorem cons_iff :
    Marks p (c :: cs) bs ↔ ∃ b bs', (b = true ↔ p (c :: cs)) ∧ Marks p cs bs' ∧ bs = b :: bs' := by
  rw [Marks, List.tails_cons, List.forall₂_cons_left_iff]
  rfl

theorem congr (h : Marks p text bs) (hpq : ∀ rest, p rest ↔ q rest) : Marks q text bs :=
  List.Forall₂.imp (fun rest _ hb => hb.trans (hpq rest)) h

/-- The first mark is that of the whole text. -/
theorem head (h : Marks p text bs) : bs.head?.getD false = true ↔ p text := by
  cases text with
  | nil =>
    obtain ⟨b, hb, rfl⟩ := nil_iff.1 h
    exact hb
  | cons c cs =>
    obtain ⟨b, bs', hb, -, rfl⟩ := cons_iff.1 h
    exact hb

theorem any (h : Marks p text bs) : bs.any id = true ↔ ∃ rest, rest <:+ text ∧ p rest := by
  induction text generalizing bs with
  | nil =>
    obtain ⟨b, hb, rfl⟩ := nil_iff.1 h
    simp [List.suffix_nil, hb]
  | cons c cs ih =>
    obtain ⟨b, bs', hb, h', rfl⟩ := cons_iff.1 h
    simp [List.suffix_cons_iff, hb, ih h']

/-- No rest has a property that every rest has to lack. -/
theorem none (h : Marks p text bs) (hq : ∀ rest, rest <:+ text → ¬q rest) :
    Marks q text (bs.map fun _ => false) := by
  unfold Marks at h ⊢
  rw [List.forall₂_map_right_iff]
  have h₁ : List.Forall₂ (fun rest b => rest ∈ text.tails ∧ (b = true ↔ p rest)) text.tails bs :=
    (List.forall₂_and_left _ _).2 ⟨fun _ hr => hr, h⟩
  refine List.Forall₂.imp (fun rest b hr => ?_) h₁
  simp [hq rest ((List.mem_tails _ _).1 hr.1)]

theorem all (h : ∀ rest, p rest) (text : List Char) :
    Marks p text (true :: text.map fun _ => true) := by
  induction text with
  | nil => exact nil_iff.2 ⟨true, by simp [h], rfl⟩
  | cons c cs ih => exact cons_iff.2 ⟨true, _, by simp [h], ih, rfl⟩

theorem atStart (h : Marks p text bs) :
    Marks (fun rest => rest = text ∧ p rest) text (Regex.atStart bs) := by
  cases text with
  | nil =>
    obtain ⟨b, hb, rfl⟩ := nil_iff.1 h
    exact nil_iff.2 ⟨b, by simpa using hb, rfl⟩
  | cons c cs =>
    obtain ⟨b, bs', hb, h', rfl⟩ := cons_iff.1 h
    refine cons_iff.2 ⟨b, _, by simpa using hb, h'.none ?_, rfl⟩
    rintro rest hr ⟨rfl, -⟩
    exact absurd hr.length_le (by simp)

theorem atStop (h : Marks p text bs) :
    Marks (fun rest => rest = [] ∧ p rest) text (Regex.atStop text bs) := by
  induction text generalizing bs with
  | nil =>
    obtain ⟨b, hb, rfl⟩ := nil_iff.1 h
    exact nil_iff.2 ⟨b, by simpa using hb, rfl⟩
  | cons c cs ih =>
    obtain ⟨b, bs', hb, h', rfl⟩ := cons_iff.1 h
    exact cons_iff.2 ⟨false, _, by simp, ih h', rfl⟩

theorem afterOne (h : Marks p text bs) :
    Marks (fun rest => ∃ c cs, rest = c :: cs ∧ takes c = true ∧ p cs) text
      (Regex.afterOne takes text bs) := by
  induction text generalizing bs with
  | nil => exact nil_iff.2 ⟨false, by simp, rfl⟩
  | cons c cs ih =>
    obtain ⟨b, bs', hb, h', rfl⟩ := cons_iff.1 h
    exact cons_iff.2 ⟨_, _, by simp [h'.head], ih h', rfl⟩

theorem afterRun (h : Marks p text bs) :
    Marks (fun rest => ∃ run cs, rest = run ++ cs ∧ (∀ c ∈ run, takes c = true) ∧ p cs) text
      (Regex.afterRun takes text bs) := by
  induction text generalizing bs with
  | nil =>
    obtain ⟨b, hb, rfl⟩ := nil_iff.1 h
    refine nil_iff.2 ⟨b, hb.trans ⟨fun hp => ⟨[], [], rfl, by simp, hp⟩, ?_⟩, rfl⟩
    rintro ⟨run, cs, he, -, hp⟩
    rwa [(List.append_eq_nil_iff.1 he.symm).2] at hp
  | cons c cs ih =>
    obtain ⟨b, bs', hb, h', rfl⟩ := cons_iff.1 h
    refine cons_iff.2 ⟨_, _, ?_, ih h', rfl⟩
    rw [exists_run_cons_iff, Bool.or_eq_true, Bool.and_eq_true, hb, (ih h').head]

end Marks

/-! ## The matcher -/

theorem marks_matchRests (ignoreCase : Bool) (text : List Char) (ts : List Term) :
    Marks (fun cs => ∃ rest, Matches ignoreCase text ts cs rest) text
      (matchRests ignoreCase text ts) := by
  induction ts with
  | nil => exact .all (fun cs => ⟨cs, .nil⟩) text
  | cons t ts ih =>
    cases t with
    | start => exact ih.atStart.congr fun cs => by simp [matches_start]
    | stop => exact ih.atStop.congr fun cs => by simp [matches_stop]
    | once a =>
      refine ih.afterOne.congr fun cs => ?_
      simp only [matches_once]
      constructor
      · rintro ⟨c, cs', he, hc, rest, h⟩
        exact ⟨rest, c, cs', he, hc, h⟩
      · rintro ⟨rest, c, cs', he, hc, h⟩
        exact ⟨c, cs', he, hc, rest, h⟩
    | repeated a =>
      refine ih.afterRun.congr fun cs => ?_
      simp only [matches_repeated]
      constructor
      · rintro ⟨run, cs', he, hr, rest, h⟩
        exact ⟨rest, run, cs', he, hr, h⟩
      · rintro ⟨rest, run, cs', he, hr, h⟩
        exact ⟨run, cs', he, hr, rest, h⟩

/-- The matcher finds a match exactly if some part of the text is one. -/
theorem test_eq_true_iff (r : Regex) (text : String) :
    r.test text = true ↔
      ∃ cs, cs <:+ text.toList ∧ ∃ rest, Matches r.ignoreCase text.toList r.terms cs rest :=
  (marks_matchRests r.ignoreCase text.toList r.terms).any

end RecordQuery.Regex
