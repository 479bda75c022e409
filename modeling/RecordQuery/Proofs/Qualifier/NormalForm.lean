import RecordQuery.Proofs.Qualifier.Reading

/-!
# The normal form of combined qualifiers

A qualifier in normal form has nothing left to simplify: a truth value stands alone, a compound has
several parts, none of which is a compound of the same connective, and neither a negation nor a
truth value is negated (`Qualifier.IsNormal`).

* `Qualifier.IsNormal.join`, `Qualifier.IsNormal.negate`: joining and negating keep the normal form.
-/

namespace RecordQuery.Qualifier

/-! ## Pieces -/

mutual

/-- The qualifier and all that it is made of. -/
def pieces : Qualifier → List Qualifier
  | not q => not q :: q.pieces
  | compound c parts => compound c parts :: piecesIn parts
  | q => [q]

/-- The pieces of the qualifiers of a list. -/
def piecesIn : List Qualifier → List Qualifier
  | [] => []
  | q :: qs => q.pieces ++ piecesIn qs

end

theorem mem_pieces_self (q : Qualifier) : q ∈ q.pieces := by
  cases q <;> exact List.mem_cons_self

theorem pieces_of_isLeaf {q : Qualifier} (h : q.isLeaf = true) : q.pieces = [q] := by
  cases q <;> first | rfl | contradiction

theorem piecesIn_append (qs ps : List Qualifier) :
    piecesIn (qs ++ ps) = piecesIn qs ++ piecesIn ps := by
  induction qs with
  | nil => rfl
  | cons q qs ih => rw [List.cons_append, piecesIn, piecesIn, ih, List.append_assoc]

theorem piecesIn_partsFor_subset (c : Connective) (q : Qualifier) :
    piecesIn (q.partsFor c) ⊆ q.pieces := by
  have h : piecesIn [q] ⊆ q.pieces := by rw [piecesIn, piecesIn, List.append_nil]; exact fun _ => id
  cases q with
  | compound d parts =>
    rw [partsFor]
    split
    · exact List.subset_cons_self _ _
    · exact h
  | _ => exact h

/-- A new compound is made of nothing else than what its sides are made of. -/
theorem mem_pieces_compound {c : Connective} {q p x : Qualifier}
    (h : x ∈ (compound c (q.partsFor c ++ p.partsFor c)).pieces) :
    x = compound c (q.partsFor c ++ p.partsFor c) ∨ x ∈ q.pieces ∨ x ∈ p.pieces := by
  rw [pieces, piecesIn_append, List.mem_cons, List.mem_append] at h
  exact h.imp_right
    (Or.imp (fun h => piecesIn_partsFor_subset c q h) fun h => piecesIn_partsFor_subset c p h)

/-! ## The normal form -/

/-- Nothing is left to simplify. -/
structure IsNormal (q : Qualifier) : Prop where
  /-- A truth value stands alone. -/
  alone : (∃ b, q = always b) ∨ ∀ b, always b ∉ q.pieces
  /-- A compound has several parts. -/
  several : ∀ c parts, compound c parts ∈ q.pieces → 2 ≤ parts.length
  /-- No part of a compound is a compound of the same connective. -/
  mixed : ∀ c parts, compound c parts ∈ q.pieces → ∀ ps, compound c ps ∉ parts
  /-- Neither a negation nor a truth value is negated. -/
  negated : ∀ p, not p ∈ q.pieces → (∀ r, p ≠ not r) ∧ ∀ b, p ≠ always b

theorem isNormal_always (b : Bool) : (always b).IsNormal where
  alone := .inl ⟨b, rfl⟩
  several := by simp [pieces]
  mixed := by simp [pieces]
  negated := by simp [pieces]

theorem isNormal_of_isLeaf {q : Qualifier} (h : q.isLeaf = true) : q.IsNormal := by
  constructor
  all_goals rw [pieces_of_isLeaf h]
  all_goals cases q <;> first | contradiction | simp

namespace IsNormal

variable {q p : Qualifier}

theorem notMem_always (h : q.IsNormal) (hq : ∀ b, q ≠ always b) (b : Bool) :
    always b ∉ q.pieces := by
  rcases h.alone with ⟨b', rfl⟩ | h₁
  · exact absurd rfl (hq b')
  · exact h₁ b

theorem partsFor_ne_nil (h : q.IsNormal) (c : Connective) : q.partsFor c ≠ [] := by
  cases q with
  | compound d parts =>
    have h₁ := h.several d parts (mem_pieces_self _)
    rw [partsFor]
    split
    · rintro rfl
      contradiction
    · exact List.cons_ne_nil _ _
  | _ => exact List.cons_ne_nil _ _

theorem compound_notMem_partsFor (h : q.IsNormal) (c : Connective) (ps : List Qualifier) :
    compound c ps ∉ q.partsFor c := by
  cases q with
  | compound d parts =>
    rw [partsFor]
    split
    · next hd => exact hd ▸ h.mixed d parts (mem_pieces_self _) ps
    · next hd =>
      rw [List.mem_singleton, compound.injEq]
      exact fun h' => hd h'.1.symm
  | _ => simp [partsFor]

/-- The join of qualifiers in normal form is in normal form. -/
theorem join (hq : q.IsNormal) (hp : p.IsNormal) (c : Connective) : (q.join c p).IsNormal := by
  rcases join_cases c q p with ⟨b, -, h⟩ | ⟨b, -, h⟩ | ⟨h₁, h₂, h⟩
  · rw [h]
    split <;> assumption
  · rw [h]
    split <;> assumption
  · rw [h]
    constructor
    case alone =>
      right
      intro b hb
      rcases mem_pieces_compound hb with h' | h' | h'
      · contradiction
      · exact hq.notMem_always h₁ b h'
      · exact hp.notMem_always h₂ b h'
    case several =>
      intro d parts hd
      rcases mem_pieces_compound hd with h' | h' | h'
      · obtain ⟨-, rfl⟩ := compound.inj h'
        have hl₁ := List.length_pos_iff.2 (hq.partsFor_ne_nil c)
        have hl₂ := List.length_pos_iff.2 (hp.partsFor_ne_nil c)
        rw [List.length_append]
        omega
      · exact hq.several d parts h'
      · exact hp.several d parts h'
    case mixed =>
      intro d parts hd ps
      rcases mem_pieces_compound hd with h' | h' | h'
      · obtain ⟨rfl, rfl⟩ := compound.inj h'
        rw [List.mem_append, not_or]
        exact ⟨hq.compound_notMem_partsFor d ps, hp.compound_notMem_partsFor d ps⟩
      · exact hq.mixed d parts h' ps
      · exact hp.mixed d parts h' ps
    case negated =>
      intro r hr
      rcases mem_pieces_compound hr with h' | h' | h'
      · contradiction
      · exact hq.negated r h'
      · exact hp.negated r h'

/-- What is negated in a normal form is in normal form. -/
theorem of_not (h : (not q).IsNormal) : q.IsNormal := by
  have hs : q.pieces ⊆ (not q).pieces := List.subset_cons_self _ _
  exact ⟨.inr fun b hb => h.notMem_always (by simp) b (hs hb),
    fun c parts hm => h.several c parts (hs hm), fun c parts hm => h.mixed c parts (hs hm),
    fun p hm => h.negated p (hs hm)⟩

theorem not_of_ne (h : q.IsNormal) (h₁ : ∀ r, q ≠ not r) (h₂ : ∀ b, q ≠ always b) :
    (not q).IsNormal where
  alone := .inr fun b => by simpa [pieces] using h.notMem_always h₂ b
  several c parts hm := h.several c parts (by simpa [pieces] using hm)
  mixed c parts hm := h.mixed c parts (by simpa [pieces] using hm)
  negated p hm := by
    rw [pieces, List.mem_cons, not.injEq] at hm
    rcases hm with rfl | hm
    · exact ⟨h₁, h₂⟩
    · exact h.negated p hm

/-- The negation of a qualifier in normal form is in normal form. -/
theorem negate (h : q.IsNormal) : q.negate.IsNormal := by
  cases q with
  | not q => exact h.of_not
  | always b => exact isNormal_always _
  | _ => exact h.not_of_ne nofun nofun

end IsNormal

end RecordQuery.Qualifier
