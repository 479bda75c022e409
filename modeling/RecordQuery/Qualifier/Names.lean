import RecordQuery.Qualifier.Basic

/-!
# The names in a qualifier

Which keys a qualifier reads, which values it still waits for, and which key is compared with a
given one of these.
-/

namespace RecordQuery.Qualifier

mutual

/-- The texts of the keys, from left to right. -/
def keyOccurrences : Qualifier → List String
  | always _ => []
  | keyValue key _ _ => [key.text]
  | keyComparison left _ right => [left.text, right.text]
  | not q => q.keyOccurrences
  | compound _ parts => keyOccurrencesIn parts
  | sql _ => []

/-- The keys in the qualifiers of a list, as often as they occur. -/
def keyOccurrencesIn : List Qualifier → List String
  | [] => []
  | q :: qs => q.keyOccurrences ++ keyOccurrencesIn qs

end

mutual

/-- The names of the placeholders, from left to right. -/
def bindingOccurrences : Qualifier → List String
  | always _ => []
  | keyValue _ _ v => v.name?.toList
  | keyComparison _ _ _ => []
  | not q => q.bindingOccurrences
  | compound _ parts => bindingOccurrencesIn parts
  | sql parts => parts.filterMap SqlPart.name?

/-- The names in the qualifiers of a list, as often as they occur. -/
def bindingOccurrencesIn : List Qualifier → List String
  | [] => []
  | q :: qs => q.bindingOccurrences ++ bindingOccurrencesIn qs

end

/-- The keys that a qualifier reads, in the order of their first occurrence. -/
def referencedKeys (q : Qualifier) : List String :=
  q.keyOccurrences.eraseDups

/-- The names of the values that a qualifier waits for, in the order of their first occurrence. -/
def bindingKeys (q : Qualifier) : List String :=
  q.bindingOccurrences.eraseDups

mutual

/-- Some value is still to be bound. -/
def hasUnresolvedBindings : Qualifier → Bool
  | always _ => false
  | keyValue _ _ v => v.name?.isSome
  | keyComparison _ _ _ => false
  | not q => q.hasUnresolvedBindings
  | compound _ parts => anyUnresolved parts
  | sql parts => parts.any fun p => p.name?.isSome

/-- One of the qualifiers of a list holds a placeholder. -/
def anyUnresolved : List Qualifier → Bool
  | [] => false
  | q :: qs => q.hasUnresolvedBindings || anyUnresolved qs

end

mutual

/-- The key that is compared with the placeholder of the given name, the first one if there are
several. Placeholders inside raw SQL are compared with no key. -/
def keyForBinding? (name : String) : Qualifier → Option String
  | always _ => none
  | keyValue key _ v => if v.name? = some name then some key.text else none
  | keyComparison _ _ _ => none
  | not q => q.keyForBinding? name
  | compound _ parts => keyForBindingIn? name parts
  | sql _ => none

/-- The key that a name is compared with in the qualifiers of a list. -/
def keyForBindingIn? (name : String) : List Qualifier → Option String
  | [] => none
  | q :: qs =>
    match q.keyForBinding? name with
    | some key => some key
    | none => keyForBindingIn? name qs

end

end RecordQuery.Qualifier
