import RecordQuery.Qualifier.Combine

/-!
# Qualifiers from records

`Qualifier.matching` compares each entry of a record, and `Qualifier.compact` joins alternatives and
merges those that are equality tests of one key.
-/

namespace RecordQuery

namespace Value

/-- Numbers the elements of a list. -/
def indexed (vs : List Value) : List (String × Value) :=
  vs.zipIdx.map fun p => (.ofList (digits p.2), p.1)

/-- The named entries of a value in the order of a listing. -/
def listedEntries : Value → List (String × Value)
  | map entries => entries
  | record own _ => Entries.enumerate own
  | bare own => Entries.enumerate own
  | array items => indexed items
  | string s => indexed (s.toList.map fun c => string (.ofList [c]))
  | placeholder name => [("key", string name)]
  | _ => []

end Value

namespace Qualifier

/-- A compound of the parts; a single part stands for itself, and no parts are no qualifier. -/
def compound? (c : Connective) : List Qualifier → Option Qualifier
  | [] => none
  | [q] => some q
  | parts => some (compound c parts)

/-- The comparison of each entry of a record, joined; none for an empty or absent record. -/
def matching (c : Connective) (op : Operation) (values : Value) : Option Qualifier :=
  compound? c (values.listedEntries.map fun e => ofKeyText e.1 op e.2)

/-! ## Merging equality tests -/

/-- The key and the constant of an equality test that can be merged with others. -/
def mergeable? : Qualifier → Option (Key × Constant)
  | keyValue _ (.known .equalTo) (.constant .null) => none
  | keyValue key (.known .equalTo) (.constant c) => some (key, c)
  | _ => none

/-- Adds a constant at the end unless an equal one is there. -/
def addDistinct (cs : List Constant) (c : Constant) : List Constant :=
  if cs.any (·.isEqual c) then cs else cs ++ [c]

/-- The distinct constants that a key is tested for, in order. -/
def testedConstants (key : String) (qs : List Qualifier) : List Constant :=
  qs.foldl (fun cs q =>
    match q.mergeable? with
    | some (k, c) => if k.text = key then addDistinct cs c else cs
    | none => cs) []

/-- The alternatives that are left of `qs` when the equality tests of each key are merged into the
first one. The keys in `seen` have had theirs, and `all` holds all alternatives. -/
def mergeTests (all : List Qualifier) (seen : List String) : List Qualifier → List Qualifier
  | [] => []
  | q :: qs =>
    match q.mergeable? with
    | none => q :: mergeTests all seen qs
    | some (key, _) =>
      if key.text ∈ seen then mergeTests all seen qs
      else
        let cs := testedConstants key.text all
        let merged :=
          if 1 < cs.length then keyValue key (.known .isIn) (.constant (.array cs)) else q
        merged :: mergeTests all (key.text :: seen) qs

/-- The disjunction of the qualifiers, in which the equality tests of one key are a single
membership test at the place of the first one. -/
def compact (qs : List Qualifier) : Option Qualifier :=
  compound? .or (mergeTests qs [] qs)

end Qualifier

end RecordQuery
